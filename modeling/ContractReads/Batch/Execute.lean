import ContractReads.Endpoint.Basic

/-!
# Executing a batch

A `Scene` is what a query acts on: the world of an endpoint, the time, and the slots that results
go into.  `Batch.execute` makes the round trip of one batch and, once every result is decoded,
writes the slots.
-/

namespace ContractReads

/-- The world of an endpoint, the milliseconds since the start, and slots. -/
structure Scene (w α : Type) where
  world : w
  now : Nat
  slots : Slots α

/-- A step of a query over a state: it may fail, and what it did before stays. -/
abbrev QueryM (σ α : Type) := ExceptT QueryError (StateM σ) α

namespace QueryM

variable {σ α : Type}

/-- A result that needs no state. -/
def ofExcept (e : Except QueryError α) : QueryM σ α := fun s => (e, s)

/-- What comes after a step starts where the step stopped, unless the step failed. -/
theorem bind_apply {β : Type} (q : QueryM σ α) (k : α → QueryM σ β) (s : σ) :
    (q >>= k) s =
      match q s with
      | (.ok a, s') => k a s'
      | (.error cause, s') => (.error cause, s') := by
  show (match q s with | (r, s') => ExceptT.bindCont k r s') = _
  obtain ⟨r, s'⟩ := q s
  cases r <;> rfl

end QueryM

variable {w α β : Type}

/-- A step with slots of its own, which are given back with its result. -/
def QueryM.withSlots (slots : Slots β) (q : QueryM (Scene w β) α) :
    QueryM (w × Nat) (α × Slots β) := fun (world, now) =>
  let (r, s) := q ⟨world, now, slots⟩
  (r.map fun a => (a, s.slots), s.world, s.now)

/-- A step that has no slots, as one of a scene. -/
def QueryM.lift (q : QueryM (w × Nat) α) : QueryM (Scene w β) α := fun s =>
  let (r, world, now) := q (s.world, s.now)
  (r, { s with world := world, now := now })

/-- Puts the results of a settled batch into the slots. -/
def Scene.commit (s : Scene w α) (settled : Except QueryError (Settlement α)) :
    Except QueryError (List Bool) × Scene w α :=
  match settled with
  | .error e => (.error e, s)
  | .ok done => (.ok done.flags, { s with slots := s.slots.write done.writes })

namespace Batch

/-- What an endpoint's answer comes to. -/
def settleAnswer (b : Batch α) (mode : Mode) (endpoint : String) (answer : Answer) :
    Except QueryError (Settlement α) :=
  match answer with
  | .error e => .error (.transport e)
  | .ok outcomes => b.settle mode endpoint outcomes

/-- Makes the round trip of a batch, and writes its results into the slots.  An empty batch makes
none.  There is one flag per call. -/
def execute (b : Batch α) (e : Endpoint w) (mode : Mode) (block : BlockTag) :
    QueryM (Scene w α) (List Bool) := fun s =>
  if b.isEmpty then (.ok [], s)
  else
    let trip := b.roundTrip mode block
    let (latency, world) := e.submit trip s.world
    let (answer, further, world) := e.answer trip world
    Scene.commit { s with world := world, now := s.now + latency + further }
      (b.settleAnswer mode e.name answer)

end Batch

end ContractReads
