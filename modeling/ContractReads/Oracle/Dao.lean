import ContractReads.Oracle.Submission

/-!
# The DAO of oracle members

How many members there are, who they are, and at which block that last changed: when someone
joined, left, was kicked or lost a challenge.
-/

namespace ContractReads.Oracle

/-- The contract of the members, and the one that logs what they do. -/
structure Dao where
  members : Contract
  actions : Contract

namespace Dao

variable {w α : Type}

def ofRegistry (r : Registry) : Except QueryError Dao := do
  let members ← r.get ContractName.trustedDao
  let actions ← r.get ContractName.trustedDaoActions
  return ⟨members, actions⟩

def addMemberCount (d : Dao) (slot : Nat) (read : AbiValue → Except EncodingError α)
    (b : Batch α) : Except QueryError (Batch α) :=
  d.members.addCall slot read "getMemberCount" [] b

def addMemberAt (d : Dao) (slot : Nat) (read : AbiValue → Except EncodingError α) (index : Nat)
    (b : Batch α) : Except QueryError (Batch α) :=
  d.members.addCall slot read "getMemberAt" [.ofNat index] b

/-- The value of a slot that a query has written. -/
def slotValue (slots : Slots α) (slot : Nat) (missing : EncodingError) : Except EncodingError α :=
  match slots.get? slot with
  | some a => .ok a
  | none => .error missing

def memberCount (d : Dao) (g : Engine w) (block : BlockTag) : QueryM (w × Nat) UInt64 := do
  let ((), slots) ← (g.query (d.addMemberCount 0 fromAbi) block).withSlots (Slots.empty 1)
  decoding (slotValue slots 0 (.slotEmpty "getMemberCount returned nothing"))

/-- The values of all slots, up to the first empty one. -/
def allMembers : (index : Nat) → List (Option Address) → Except EncodingError (List Address)
  | _, [] => .ok []
  | i, none :: _ => .error (.memberMissing i)
  | i, some a :: rest => (allMembers (i + 1) rest).map (a :: ·)

/-- The addresses of the first `count` members. -/
def memberAddresses (d : Dao) (g : Engine w) (count shardSize : Nat) (block : BlockTag) :
    QueryM (w × Nat) (List Address) := do
  let register (i : Nat) (b : Batch Address) : Except Scheduler.Fault (Batch Address) :=
    (d.addMemberAt i fromAbi i b).mapError .error
  let ((), slots) ← (g.batchQuery count shardSize register block).withSlots (Slots.empty count)
  decoding (allMembers 0 slots.cells)

/-- The event of a challenge that was decided. -/
def challengeDecided : String := "ActionChallengeDecided"

/-- Events after which the members may be others. -/
def membershipEvents : List String :=
  ["ActionJoined", "ActionLeave", "ActionKick", challengeDecided]

/-- The filter of those events. -/
def membershipFilter (d : Dao) : Except EncodingError LogFilter := do
  let topics ← membershipEvents.mapM d.actions.eventTopic
  return (LogFilter.any.address d.actions.address).topic 0 topics

/-- Whether an event changed who is a member: a challenge did only if it succeeded. -/
def changesMembers (e : DecodedEvent) : Except EncodingError Bool :=
  if e.name = challengeDecided then e.get "success" else .ok true

/-- The block of the first log in a list that changed who is a member; removed logs are skipped. -/
def firstChange (d : Dao) : List Log → Except EncodingError (Option UInt64)
  | [] => .ok none
  | log :: logs =>
    if log.removed then d.firstChange logs
    else do
      let event ← d.actions.decodeEvent log
      if ← changesMembers event then return some log.blockNumber
      else d.firstChange logs

/-- Whether a log does not stand before another in the chain. -/
def notBefore (a b : Log) : Bool :=
  b.blockNumber < a.blockNumber || (a.blockNumber == b.blockNumber && b.logIndex ≤ a.logIndex)

/-- Logs from the latest to the earliest; of those at one place the last comes first. -/
def latestFirst (logs : List Log) : List Log := logs.reverse.mergeSort notBefore

/-- The latest block of a range in which the members changed; its start if they did not. -/
def latestChange (d : Dao) (source : LogSource w) (first last : UInt64)
    (maxRange : Option UInt64) : QueryM (w × Nat) UInt64 := do
  let filter ← decoding d.membershipFilter
  let logs ← asQuery (source.scan filter first (some last) maxRange)
  let change ← decoding (d.firstChange (latestFirst logs))
  return change.getD first

end Dao

end ContractReads.Oracle
