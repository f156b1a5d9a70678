import ContractReads.Engine.Config

/-!
# Engines

An engine puts queries to an endpoint under checked settings.  A query is one batch, or many
shards; it is strict, or flexible with a flag per call or item.
-/

namespace ContractReads

open Scheduler (Registrar)

/-- An endpoint, and settings that are all in their ranges. -/
structure Engine (w : Type) where
  endpoint : Endpoint w
  config : EngineConfig
  check_config : config.check = .ok ()

namespace Engine

variable {w α : Type}

/-- An engine, if the settings are in their ranges. -/
def make (e : Endpoint w) (c : EngineConfig) : Except QueryError (Engine w) :=
  match h : c.check with
  | .ok () => .ok ⟨e, c, h⟩
  | .error cause => .error (.invalidConfig cause)

def batch (g : Engine w) : Batch α := Batch.empty g.config.maxBatchSize

/-- The scheduler of sharded queries. -/
def scheduler (g : Engine w) : Scheduler :=
  .make g.config.concurrentCallLimit g.config.maxBatchSize g.config.failurePolicy

/-- Registers calls in one batch and executes it. -/
def single (g : Engine w) (register : Batch α → Except QueryError (Batch α)) (mode : Mode)
    (block : BlockTag) : QueryM (Scene w α) (List Bool) := fun s =>
  match g.endpoint.ready s.world with
  | .error e => (.error (.transport e), s)
  | .ok () =>
    match register g.batch with
    | .error e => (.error e, s)
    | .ok b => b.execute g.endpoint mode block s

/-- A strict query of one batch. -/
def query (g : Engine w) (register : Batch α → Except QueryError (Batch α)) (block : BlockTag) :
    QueryM (Scene w α) Unit := do
  let _ ← g.single register .strict block
  return ()

/-- A flexible query of one batch: one flag per call. -/
def flexQuery (g : Engine w) (register : Batch α → Except QueryError (Batch α))
    (block : BlockTag) : QueryM (Scene w α) (List Bool) :=
  g.single register .flexible block

/-- A strict query of `count` items in shards. -/
def batchQuery (g : Engine w) (count shardSize : Nat) (register : Registrar α)
    (block : BlockTag) : QueryM (Scene w α) Unit := do
  let _ ← g.scheduler.run g.endpoint count shardSize .strict block register
  return ()

/-- Hands each flag and its item to a handler, up to its first failure. -/
def handleFlags (handle : Bool → Nat → QueryM (Scene w α) Unit) :
    (item : Nat) → List Bool → QueryM (Scene w α) Unit
  | _, [] => return ()
  | i, flag :: flags => do
    handle flag i
    handleFlags handle (i + 1) flags

/-- A flexible query of `count` items in shards.  When it is through, the flags are handed to a
handler in the order of the items. -/
def flexBatchQuery (g : Engine w) (count shardSize : Nat) (register : Registrar α)
    (handle : Bool → Nat → QueryM (Scene w α) Unit) (block : BlockTag) :
    QueryM (Scene w α) Unit := do
  let flags ← g.scheduler.run g.endpoint count shardSize .flexible block register
  handleFlags handle 0 flags

def render (g : Engine w) : String :=
  Text.fields "QueryEngine" [("endpoint", Text.quoted g.endpoint.name),
    ("config", g.config.render)]

end Engine

end ContractReads
