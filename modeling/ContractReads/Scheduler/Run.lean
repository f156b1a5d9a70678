import ContractReads.Batch.Execute
import ContractReads.ShardPlan

/-!
# Runs of a sharded query

A `Run` is a sharded query on its way.  Every shard waits for a permit; once it holds one it
registers the calls of its items and makes one round trip; what the answer comes to is written
into the slots one value after the other; when the shard ends it gives the permit back, and then
its result is joined.  Each of the functions below is one step of one shard, and a shard that is
in another phase does not move.  In which order shards step is decided elsewhere.

A shard can only be stopped where it waits for something: for a permit, or for the answer to its
batch.

A run has as many permits as it is started with, however many these are.  That a semaphore cannot be
made with more permits than it can count is left out.
-/

namespace ContractReads.Scheduler

variable {w α : Type}

/-- What happens to the other shards when one fails. -/
inductive FailurePolicy
  /-- They go on. -/
  | runToCompletion
  /-- Those that have not ended are cancelled. -/
  | cancelOnFirstError
deriving DecidableEq, Repr, Inhabited

/-- Why the calls of an item cannot be registered. -/
inductive Fault
  | error (cause : QueryError)
  /-- The registration was torn down. -/
  | panic (message : String)

/-- The failure that a shard ends with. -/
def Fault.toQueryError : Fault → QueryError
  | error cause => cause
  | panic message => .panicked message

/-- How the calls of an item are added to a batch. -/
abbrev Registrar (α : Type) := Nat → Batch α → Except Fault (Batch α)

/-- A sharded query. -/
structure Job (w α : Type) where
  endpoint : Endpoint w
  plan : ShardPlan
  mode : Mode
  block : BlockTag
  /-- How many calls one batch may hold. -/
  limit : Nat
  policy : FailurePolicy
  register : Registrar α

/-- The batch of a shard, and how many calls each of its items has. -/
structure Shipment (α : Type) where
  batch : Batch α
  callCounts : List Nat

/-- How a shard ended. -/
inductive Ending
  /-- It came to a result. -/
  | finished (result : Except QueryError (List Bool))
  /-- It was stopped. -/
  | cancelled

/-- Where a shard stands. -/
inductive Phase (α : Type)
  /-- It has no permit. -/
  | waiting
  /-- It has been given a permit and has not gone on. -/
  | holding
  /-- Its items are registered and its batch is not sent. -/
  | registered (shipment : Shipment α)
  /-- Its batch is not answered. -/
  | inFlight (shipment : Shipment α)
  /-- The answer to its batch has not arrived. -/
  | answered (shipment : Shipment α) (answer : Answer)
  /-- Its results are decoded, and some are still to be written. -/
  | writing (flags : List Bool) (writes : List (Nat × α))
  /-- It has given its permit back. -/
  | ended (ending : Ending)
  /-- Its ending is joined. -/
  | joined (ending : Ending)

namespace Phase

/-- Whether a shard in this phase holds a permit. -/
def holdsPermit : Phase α → Bool
  | holding | registered _ | inFlight _ | answered _ _ | writing _ _ => true
  | waiting | ended _ | joined _ => false

/-- Whether a shard in this phase waits for a permit or for an answer. -/
def isSuspended : Phase α → Bool
  | waiting | holding | inFlight _ | answered _ _ => true
  | registered _ | writing _ _ | ended _ | joined _ => false

def isJoined : Phase α → Bool
  | joined _ => true
  | _ => false

end Phase

/-- A sharded query on its way. -/
structure Run (w α : Type) where
  scene : Scene w α
  /-- Where each shard stands. -/
  phases : List (Phase α)
  freePermits : Nat
  /-- The flags of all items, as far as they are joined. -/
  flags : List Bool
  /-- The first failure that was joined. -/
  firstError : Option QueryError
  /-- Whether the shards that have not ended are to be stopped. -/
  aborted : Bool

/-- All shards waiting, and any number of permits. -/
def Run.start (job : Job w α) (permits : Nat) (scene : Scene w α) : Run w α where
  scene := scene
  phases := List.replicate job.plan.count .waiting
  freePermits := permits
  flags := List.replicate job.plan.total false
  firstError := none
  aborted := false

/-- Adds the calls of items to a batch, and counts the calls of each. -/
def Shipment.register (register : Registrar α) (b : Batch α) :
    List Nat → Except Fault (Shipment α)
  | [] => .ok ⟨b, []⟩
  | item :: items => do
    let b' ← register item b
    let rest ← Shipment.register register b' items
    return { rest with callCounts := (b'.size - b.size) :: rest.callCounts }

/-- Whether all calls of each item succeeded. -/
def itemFlags : (callCounts : List Nat) → (flags : List Bool) → List Bool
  | [], _ => []
  | n :: ns, flags => (flags.take n).all id :: itemFlags ns (flags.drop n)

/-- Puts a list in the place of as many entries from a position on. -/
def splice {β : Type} (xs : List β) (start : Nat) (ys : List β) : List β :=
  xs.take start ++ ys ++ xs.drop (start + ys.length)

namespace Job

def shipment (job : Job w α) (shard : Nat) : Except Fault (Shipment α) :=
  Shipment.register job.register (Batch.empty job.limit) (job.plan.items shard)

/-- The calls of a shard's items, if the endpoint is ready for them. -/
def load (job : Job w α) (world : w) (shard : Nat) : Except QueryError (Shipment α) :=
  match job.endpoint.ready world with
  | .error e => .error (.shardDispatch shard e.message)
  | .ok () =>
    match job.shipment shard with
    | .error fault => .error fault.toQueryError
    | .ok shipment => .ok shipment

def trip (job : Job w α) (shipment : Shipment α) : RoundTrip :=
  shipment.batch.roundTrip job.mode job.block

/-- What the answer to a shard's batch comes to, with a flag for each item. -/
def settle (job : Job w α) (shipment : Shipment α) (answer : Answer) :
    Except QueryError (Settlement α) :=
  (shipment.batch.settleAnswer job.mode job.endpoint.name answer).map fun done =>
    { done with flags := itemFlags shipment.callCounts done.flags }

end Job

namespace Run

def phase (r : Run w α) (shard : Nat) : Phase α := r.phases[shard]?.getD (.joined .cancelled)

def setPhase (r : Run w α) (shard : Nat) (p : Phase α) : Run w α :=
  { r with phases := r.phases.set shard p }

/-- Ends a shard, which gives its permit back. -/
def finish (r : Run w α) (shard : Nat) (result : Except QueryError (List Bool)) : Run w α :=
  { r.setPhase shard (.ended (.finished result)) with freePermits := r.freePermits + 1 }

/-- Gives a free permit to a waiting shard. -/
def grant (r : Run w α) (shard : Nat) : Run w α :=
  match r.phase shard, r.freePermits with
  | .waiting, free + 1 => { r.setPhase shard .holding with freePermits := free }
  | _, _ => r

/-- Registers the items of a shard. -/
def register (job : Job w α) (r : Run w α) (shard : Nat) : Run w α :=
  match r.phase shard with
  | .holding =>
    match job.load r.scene.world shard with
    | .error e => r.finish shard (.error e)
    | .ok shipment => r.setPhase shard (.registered shipment)
  | _ => r

/-- Sends the batch of a shard; it is answered after so many milliseconds.  A shard without calls
ends at once. -/
def submit (job : Job w α) (r : Run w α) (shard : Nat) : Nat × Run w α :=
  match r.phase shard with
  | .registered shipment =>
    if shipment.batch.isEmpty then (0, r.finish shard (.ok (itemFlags shipment.callCounts [])))
    else
      let (ms, world) := job.endpoint.submit (job.trip shipment) r.scene.world
      (ms, { r.setPhase shard (.inFlight shipment) with
        scene := { r.scene with world := world } })
  | _ => (0, r)

/-- Has a batch answered; the answer arrives after so many milliseconds. -/
def answer (job : Job w α) (r : Run w α) (shard : Nat) : Nat × Run w α :=
  match r.phase shard with
  | .inFlight shipment =>
    let (a, ms, world) := job.endpoint.answer (job.trip shipment) r.scene.world
    (ms, { r.setPhase shard (.answered shipment a) with scene := { r.scene with world := world } })
  | _ => (0, r)

/-- Settles an answer that has arrived: every result is decoded, or the shard ends with an
error. -/
def settle (job : Job w α) (r : Run w α) (shard : Nat) : Run w α :=
  match r.phase shard with
  | .answered shipment a =>
    match job.settle shipment a with
    | .error e => r.finish shard (.error e)
    | .ok done => r.setPhase shard (.writing done.flags done.writes)
  | _ => r

/-- Writes the next value of a shard into its slot; a shard that has written them all ends. -/
def write (r : Run w α) (shard : Nat) : Run w α :=
  match r.phase shard with
  | .writing flags [] => r.finish shard (.ok flags)
  | .writing flags ((slot, a) :: writes) =>
    { r.setPhase shard (.writing flags writes) with
      scene := { r.scene with slots := r.scene.slots.set slot a } }
  | _ => r

/-- Writes the given values, which are those that a shard has left, and ends the shard. -/
def writeAll (r : Run w α) (shard : Nat) : (writes : List (Nat × α)) → Run w α
  | [] => r.write shard
  | _ :: writes => (r.write shard).writeAll shard writes

/-- Settles an answer that has arrived and writes what it comes to. -/
def deliver (job : Job w α) (r : Run w α) (shard : Nat) : Run w α :=
  let settled := r.settle job shard
  match settled.phase shard with
  | .writing _ writes => settled.writeAll shard writes
  | _ => settled

/-- Stops a shard that is to be stopped, if it waits for something; a permit that it holds is
given back. -/
def stop (r : Run w α) (shard : Nat) : Run w α :=
  if r.aborted && (r.phase shard).isSuspended then
    { r.setPhase shard (.ended .cancelled) with
      freePermits := r.freePermits + (r.phase shard).holdsPermit.toNat }
  else r

/-- Takes in a failure.  Only the first one counts. -/
def recordFailure (policy : FailurePolicy) (r : Run w α) (e : QueryError) : Run w α :=
  match r.firstError with
  | some _ => r
  | none => { r with firstError := some e, aborted := policy == .cancelOnFirstError }

/-- Takes in the ending of a shard: its flags go to the places of its items, a failure is
recorded, and a shard that was stopped is passed over. -/
def takeIn (job : Job w α) (r : Run w α) (shard : Nat) : Ending → Run w α
  | .finished (.ok flags) => { r with flags := splice r.flags (job.plan.firstItem shard) flags }
  | .finished (.error e) => r.recordFailure job.policy e
  | .cancelled => r

/-- Joins a shard that has ended. -/
def join (job : Job w α) (r : Run w α) (shard : Nat) : Run w α :=
  match r.phase shard with
  | .ended ending => (r.setPhase shard (.joined ending)).takeIn job shard ending
  | _ => r

/-- What the run comes to: the first failure, or one flag per item. -/
def result (r : Run w α) : Except QueryError (List Bool) :=
  match r.firstError with
  | some e => .error e
  | none => .ok r.flags

end Run

end ContractReads.Scheduler
