import ContractReads.Scheduler.Timeline

/-!
# Schedulers

A scheduler cuts a query into shards and carries them out: so many round trips at once, batches
of a limited size, and a policy for the first failure.

There is no bound on how many round trips may be in flight.  The semaphore that hands out permits has
one, far above any number of shards, and cannot be made with more permits; a query with such a setting
is torn down when it starts, which is left out here.
-/

namespace ContractReads

/-- How sharded queries are carried out. -/
structure Scheduler where
  /-- How many round trips may be in flight at once. -/
  concurrency : Nat
  /-- How many calls one batch may hold. -/
  limit : Nat
  policy : Scheduler.FailurePolicy
deriving DecidableEq, Repr

namespace Scheduler

variable {w α : Type}

/-- At least one round trip may be in flight.  The greatest number that a semaphore can have is not
checked. -/
def make (concurrency limit : Nat) (policy : FailurePolicy) : Scheduler :=
  ⟨max concurrency 1, limit, policy⟩

/-- A query of a scheduler. -/
def job (s : Scheduler) (e : Endpoint w) (plan : ShardPlan) (mode : Mode) (block : BlockTag)
    (register : Registrar α) : Job w α where
  endpoint := e
  plan := plan
  mode := mode
  block := block
  limit := s.limit
  policy := s.policy
  register := register

/-- Registers every item below `total`, shard by shard, and makes the round trips of the shards.
There is one flag per item: whether all its calls succeeded. -/
def run (s : Scheduler) (e : Endpoint w) (total shardSize : Nat) (mode : Mode) (block : BlockTag)
    (register : Registrar α) : QueryM (Scene w α) (List Bool) := fun scene =>
  match ShardPlan.make total shardSize with
  | .error cause => (.error cause, scene)
  | .ok plan =>
    let job := s.job e plan mode block register
    let done := (Timeline.start job s.concurrency scene).complete job
    (done.run.result, { done.run.scene with now := done.now })

def policyText : FailurePolicy → String
  | .runToCompletion => "RunToCompletion"
  | .cancelOnFirstError => "CancelOnFirstError"

def render (endpoint : String) (s : Scheduler) : String :=
  Text.fields "Scheduler" [("endpoint", Text.quoted endpoint),
    ("concurrency", toString s.concurrency), ("max_batch_size", toString s.limit),
    ("failure_policy", policyText s.policy)]

end Scheduler

end ContractReads
