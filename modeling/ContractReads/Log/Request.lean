import ContractReads.Address
import ContractReads.Log.Raw
import ContractReads.Log.Scan

/-!
# Asking a node for logs

`LogFilter.params` is what a node is asked for; `NodeLogs` asks it through a transport, with a new
id for each request.
-/

namespace ContractReads

namespace LogFilter

/-- What is asked of one topic position; null asks for nothing. -/
def topicParam : List Word → Json
  | [] => .null
  | values => .ofList (fun w => .string w.hex) values

/-- The parameters of a request for the logs of a range.  No addresses are asked for if the
filter accepts any. -/
def params (f : LogFilter) (first last : UInt64) : Json :=
  let base := [("fromBlock", .string (Quantity.render first)),
    ("toBlock", .string (Quantity.render last)), ("topics", .ofList topicParam f.topics)]
  let addresses := .ofList (fun a => .string a.checksummed) f.addresses
  .object (if f.addresses.isEmpty then base else base ++ [("address", addresses)])

end LogFilter

/-- The logs that a response lists. -/
def RawLog.logsOfJson (j : Json) : Except TransportError (List Log) :=
  match RawLog.listOfJson? j with
  | some raw => RawLog.liveLogs raw
  | none => .error (.malformed "not a list of logs")

/-- The number that a response gives. -/
def RawLog.quantityOfJson : Json → Except TransportError UInt64
  | .string s => RawLog.quantity s
  | j => .error (.other (.notQuantity j))

/-- The source of the logs that a node knows. -/
def LogSource.ofTransport {w : Type} (t : Transport w) : LogSource (Numbered w) where
  head := do
    let result ← Numbered.call t "eth_blockNumber" []
    liftExcept (RawLog.quantityOfJson result)
  logs filter first last := do
    let result ← Numbered.call t "eth_getLogs" [filter.params first last]
    liftExcept (RawLog.logsOfJson result)
where
  /-- A result that needs no node. -/
  liftExcept {α : Type} (e : Except TransportError α) : TransportM (Numbered w) α := fun s => (e, s)

end ContractReads
