import ContractReads.Contract.Event
import ContractReads.Contract.Registry
import ContractReads.Log.Scan

/-!
# Submissions

Members submit prices and balances, each to a contract of its own, which writes a log of every
submission.
-/

namespace ContractReads.Oracle

/-- What members submit. -/
inductive SubmissionKind
  | prices
  | balances
deriving DecidableEq, Repr, Inhabited

namespace SubmissionKind

def render : SubmissionKind → String
  | prices => "prices"
  | balances => "balances"

def toJson (k : SubmissionKind) : Json := .string k.render

def ofJson? (j : Json) : Option SubmissionKind := do
  match ← j.variant? with
  | "prices" => some prices
  | "balances" => some balances
  | _ => none

/-- The contract that takes the submissions. -/
def contractName : SubmissionKind → String
  | prices => ContractName.networkPrices
  | balances => ContractName.networkBalances

/-- The event of a submission. -/
def eventName : SubmissionKind → String
  | prices => "PricesSubmitted"
  | balances => "BalancesSubmitted"

/-- The path of the setting that says how many blocks lie between submissions. -/
def frequencyPath : SubmissionKind → String
  | prices => "network.submit.prices.frequency"
  | balances => "network.submit.balances.frequency"

end SubmissionKind

variable {w α : Type}

/-- A step that asks only for logs, as a step of a query. -/
def asQuery (q : TransportM w α) : QueryM (w × Nat) α := fun (world, now) =>
  let (r, world) := q world
  (r.mapError .transport, world, now)

/-- A decoding as a step of a query. -/
def decoding (e : Except EncodingError α) : QueryM (w × Nat) α :=
  .ofExcept (Contract.asQueryError e)

/-- The submissions of one kind. -/
structure Submissions where
  kind : SubmissionKind
  contract : Contract

namespace Submissions

def ofRegistry (r : Registry) (kind : SubmissionKind) : Except QueryError Submissions :=
  (r.get kind.contractName).map (⟨kind, ·⟩)

/-- The filter of all submissions, or of those of one member. -/
def filter (s : Submissions) (member : Option Address) : Except EncodingError LogFilter := do
  let topic ← s.contract.eventTopic s.kind.eventName
  let filter := (LogFilter.any.address s.contract.address).topic 0 [topic]
  return match member with
  | some m => filter.topic 1 [m.toWord]
  | none => filter

/-- One field of the submissions whose logs are not removed, up to the first that cannot be
decoded. -/
def fields [FromAbi α] (s : Submissions) (field : String) : List Log → Except EncodingError (List α)
  | [] => .ok []
  | log :: logs =>
    if log.removed then s.fields field logs
    else do
      let event ← s.contract.decodeEvent log
      let a ← event.get field
      let as ← s.fields field logs
      return a :: as

/-- The blocks for which a member submitted, in the logs of a range. -/
def blocksOf (s : Submissions) (source : LogSource w) (member : Address) (first last : UInt64)
    (maxRange : Option UInt64) : QueryM (w × Nat) (List UInt64) := do
  let filter ← decoding (s.filter (some member))
  let logs ← asQuery (source.scan filter first (some last) maxRange)
  decoding (s.fields "block" logs)

/-- Keeps the first of equal addresses. -/
def distinct (as : List Address) : List Address :=
  as.foldl (fun seen a => if seen.contains a then seen else seen ++ [a]) []

/-- Everyone who submitted in the logs of a range, in the order of first submissions. -/
def submitters (s : Submissions) (source : LogSource w) (first last : UInt64)
    (maxRange : Option UInt64) : QueryM (w × Nat) (List Address) := do
  let filter ← decoding (s.filter none)
  let logs ← asQuery (source.scan filter first (some last) maxRange)
  let senders ← decoding (s.fields "from" logs)
  return distinct senders

end Submissions

/-- Registers a read of the number of blocks between submissions. -/
def addSubmitFrequency (settings : Contract) (kind : SubmissionKind) (slot : Nat)
    (read : AbiValue → Except EncodingError α) (b : Batch α) : Except QueryError (Batch α) :=
  settings.addCall slot read "getSettingUint" [.string kind.frequencyPath] b

end ContractReads.Oracle
