import ContractReads.Endpoint.Basic

/-!
# An endpoint in memory

`Memory` holds the results of calls.  A call that it does not know fails, as one that reverts.
It can be made slow, unready or unreachable, and it counts round trips.
-/

namespace ContractReads

/-- Results of calls, and what the round trips so far were like. -/
structure Memory where
  /-- What each known call returns, or that it fails; the first entry of a call holds. -/
  table : List (EncodedCall × Option Bytes) := []
  /-- Milliseconds before a batch is answered. -/
  latency : Nat := 0
  /-- Whether a failing call fails a round trip that requires success. -/
  revertOnFailure : Bool := false
  /-- Whether every round trip fails. -/
  down : Bool := false
  notReady : Bool := false
  roundTrips : Nat := 0
  inFlight : Nat := 0
  /-- The most round trips that were in flight at once. -/
  peakInFlight : Nat := 0

namespace Memory

/-- Sets what becomes of a call. -/
def respond (m : Memory) (call : EncodedCall) (outcome : Outcome) : Memory :=
  { m with table := (call, if outcome.isSuccess then some outcome.returnData else none) :: m.table }

/-- What becomes of a call. -/
def outcome (m : Memory) (call : EncodedCall) : Outcome :=
  match m.table.find? fun entry => entry.1 = call with
  | some (_, some data) => .success data
  | _ => .failure

/-- The node's error when a required call fails. -/
def reverted : Rpc.Error := ⟨3, "execution reverted: Multicall aggregate: call failed", none⟩

/-- The answer to a batch. -/
def reply (m : Memory) (trip : RoundTrip) : Answer :=
  let outcomes := trip.calls.map m.outcome
  if m.down then .error (.http "memory endpoint down")
  else if trip.requireSuccess && m.revertOnFailure && outcomes.any fun o => !o.isSuccess then
    .error (.rpc reverted)
  else .ok outcomes

/-- The endpoint over the table. -/
def endpoint : Endpoint Memory where
  name := "memory"
  ready m := if m.notReady then .error (.other (.notReady "memory")) else .ok ()
  submit _ m :=
    (m.latency, { m with
      roundTrips := m.roundTrips + 1
      inFlight := m.inFlight + 1
      peakInFlight := max m.peakInFlight (m.inFlight + 1) })
  answer trip m := (m.reply trip, 0, { m with inFlight := m.inFlight - 1 })

end Memory

end ContractReads
