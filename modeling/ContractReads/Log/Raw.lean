import ContractReads.Log.Basic
import ContractReads.Rpc.Payload
import ContractReads.Rpc.Quantity

/-!
# Logs as a node writes them

A `RawLog` holds the texts of a log's fields.  `RawLog.toLog` reads them, the topics first, and
reports the first one that is malformed.
-/

namespace ContractReads

/-- The texts of a log's fields. -/
structure RawLog where
  address : String
  topics : List String
  data : String
  blockNumber : String
  transactionHash : Option String
  logIndex : String
  removed : Option Bool
deriving DecidableEq, Repr

namespace RawLog

def toJson (r : RawLog) : Json :=
  .object [("address", .string r.address), ("topics", .ofList .string r.topics),
    ("data", .string r.data), ("blockNumber", .string r.blockNumber),
    ("transactionHash", .ofOption .string r.transactionHash), ("logIndex", .string r.logIndex),
    ("removed", .ofOption .bool r.removed)]

def texts? (j : Json) : Option (List String) := j.array?.bind (List.mapM Json.string?)

def ofJson? (j : Json) : Option RawLog := do
  match ← j.record? ["address", "topics", "data", "blockNumber", "transactionHash", "logIndex",
      "removed"] with
  | [address, topics, data, number, hash, index, removed] =>
    return {
      address := ← Json.required? Json.string? address
      topics := ← Json.required? texts? topics
      data := ← Json.required? Json.string? data
      blockNumber := ← Json.required? Json.string? number
      transactionHash := ← Json.nullable? Json.string? hash
      logIndex := ← Json.required? Json.string? index
      removed := ← Json.nullable? Json.bool? removed }
  | _ => none

/-- The complaint about a field. -/
def malformed (field value reason : String) : TransportError :=
  .other (.badLogField field value reason)

/-- A number of 64 bits. -/
def quantity (s : String) : Except TransportError UInt64 :=
  match Quantity.ofText s with
  | .ok n => .ok n
  | .error e => .error (malformed "quantity" s e.message)

def word (s : String) : Except TransportError Word :=
  match Hex.fixed? 32 s with
  | .ok w => .ok w
  | .error e => .error (malformed "word" s e.message)

def addressOf (s : String) : Except TransportError Address :=
  match Hex.fixed? 20 s with
  | .ok a => .ok a
  | .error e => .error (malformed "address" s e.message)

/-- Several words, up to the first malformed one. -/
def words : List String → Except TransportError (List Word)
  | [] => .ok []
  | s :: ss => do
    let w ← word s
    let ws ← words ss
    return w :: ws

def word? : Option String → Except TransportError (Option Word)
  | none => .ok none
  | some s => (word s).map some

/-- The log that the texts spell. -/
def toLog (r : RawLog) : Except TransportError Log := do
  let topics ← words r.topics
  let address ← addressOf r.address
  let data ← Rpc.payload (.string r.data)
  let number ← quantity r.blockNumber
  let index ← quantity r.logIndex
  let hash ← word? r.transactionHash
  return ⟨address, topics, data, number, index, hash, r.removed.getD false⟩

/-- The logs that are not removed, up to the first malformed one.  A removed log is read too. -/
def liveLogs : List RawLog → Except TransportError (List Log)
  | [] => .ok []
  | r :: rs => do
    let log ← r.toLog
    let logs ← liveLogs rs
    return if log.removed then logs else log :: logs

/-- The raw logs of an array. -/
def listOfJson? (j : Json) : Option (List RawLog) := j.array?.bind (List.mapM ofJson?)

end RawLog

end ContractReads
