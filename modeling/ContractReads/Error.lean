import ContractReads.Abi.Decode
import ContractReads.Json.Printer
import ContractReads.Rpc.Envelope

/-!
# Errors

`TransportError` is what one round trip to the node fails with, `QueryError` what a query fails
with.  Every constructor is a cause; `message` is its text.
-/

namespace ContractReads

/-- What is wrong with an endpoint or with an answer that did arrive. -/
inductive Complaint
  | reason (text : String)
  /-- An endpoint takes no batches. -/
  | notReady (endpoint : String)
  /-- An endpoint gave more or fewer outcomes than it got calls. -/
  | outcomeCount (endpoint : String) (outcomes calls : Nat)
  /-- Logs are to be scanned in steps of no blocks. -/
  | emptyScanRange
  /-- The answer of the bundling contract cannot be decoded. -/
  | undecodableOutcomes (cause : Abi.DecodeError)
  /-- The answer of the bundling contract is no list of outcomes. -/
  | outcomeShape
  /-- The bundling contract has no address. -/
  | noBundler
  | unhealthy (url : String)
  | notHexText (got : Json)
  | notQuantity (got : Json)
  | badHex (cause : Hex.Error)
  /-- A field of a log is malformed. -/
  | badLogField (field value reason : String)
  | unknownResponse (id : Rpc.Id)
  | duplicateResponse (id : Rpc.Id)
  | missingResponse (id : Rpc.Id)

namespace Complaint

def message : Complaint → String
  | reason text => text
  | notReady name => name ++ " endpoint not ready"
  | outcomeCount name outcomes calls =>
    name ++ " returned " ++ toString outcomes ++ " outcomes for " ++ toString calls ++ " calls"
  | emptyScanRange => "log scan range must be at least 1 block"
  | undecodableOutcomes cause => "malformed tryAggregate result: " ++ cause.message
  | outcomeShape => "unexpected tryAggregate result shape"
  | noBundler => "multicall address is not set"
  | unhealthy url => "transport " ++ url ++ " is unhealthy"
  | notHexText got => "expected hex string, got " ++ got.canonical.compact
  | notQuantity got => "expected hex quantity, got " ++ got.canonical.compact
  | badHex cause => "invalid hex in result: " ++ cause.sentence
  | badLogField what value why =>
    "malformed " ++ what ++ " " ++ Text.quoted value ++ " in log: " ++ why
  | unknownResponse id => "batch response for unknown id " ++ id.render
  | duplicateResponse id => "duplicate batch response for id " ++ id.render
  | missingResponse id => "batch response missing for id " ++ id.render

end Complaint

/-- The failure of one round trip to the node. -/
inductive TransportError
  /-- No connection, or a status that is no success. -/
  | http (reason : String)
  /-- The node answered with an error of its own. -/
  | rpc (error : Rpc.Error)
  | timeout (ms : UInt64)
  /-- The answer does not have the form of a response. -/
  | malformed (reason : String)
  | other (complaint : Complaint)

namespace TransportError

def message : TransportError → String
  | http reason => "http transport: " ++ reason
  | rpc e => "node returned error " ++ toString e.code.toInt ++ ": " ++ e.message
  | timeout ms => "no response within " ++ toString ms.toNat ++ "ms"
  | malformed reason => "malformed response: " ++ reason
  | other complaint => complaint.message

/-- Whether the same round trip could succeed when repeated. -/
def isRetryable : TransportError → Bool
  | http _ | timeout _ => true
  | _ => false

/-- Whether the node failed while executing the call. -/
def isExecutionError : TransportError → Bool
  | rpc _ => true
  | _ => false

end TransportError

/-- Why a call cannot be encoded, or its result or a log not be decoded. -/
inductive EncodingError
  | reason (text : String)
  /-- A value of another kind was expected. -/
  | expected (kind : String) (got : AbiValue)
  /-- A number is too large for a kind. -/
  | tooLarge (value : Nat) (kind : String)
  /-- A value is not of a type. -/
  | mismatch (value : AbiValue) (type : AbiType)
  | undecodableData (cause : Abi.DecodeError)
  | undecodableTopic (cause : Abi.DecodeError)
  | badInterface (reason : String)
  | unsupportedType (name : String)
  /-- An argument cannot be encoded. -/
  | argument (index : Nat) (function : String) (cause : EncodingError)
  | noMethod (contract method : String)
  | noOverload (contract method : String) (arity : Nat)
  | noEvent (contract event : String)
  | returnsNothing (contract method : String)
  | noTopics
  | unknownTopic (contract : String) (topic : Word)
  /-- A log ends before a field of its event. -/
  | missingField (event : String) (index : Nat)
  | noField (event field : String)
  | deployBlockTooLarge (value : Nat)
  | memberMissing (index : Nat)
  /-- A slot that a query should have written is empty. -/
  | slotEmpty (content : String)

namespace EncodingError

def message : EncodingError → String
  | reason text => text
  | expected kind got => "expected " ++ kind ++ ", got " ++ got.render
  | tooLarge value kind => toString value ++ " does not fit in " ++ kind
  | mismatch value type => "value " ++ value.render ++ " does not match " ++ type.render
  | undecodableData cause => "return data decode: " ++ cause.message
  | undecodableTopic cause => "topic decode: " ++ cause.message
  | badInterface why => "invalid ABI JSON: " ++ why
  | unsupportedType name => "unsupported ABI type " ++ name ++ ": no such type"
  | argument i function cause =>
    "argument " ++ toString i ++ " of " ++ function ++ ": Encoding error: " ++ cause.message
  | noMethod contract method => contract ++ " has no method " ++ method
  | noOverload contract method arity =>
    contract ++ " has no overload of " ++ method ++ " taking " ++ toString arity ++ " arguments"
  | noEvent contract event => contract ++ " has no event " ++ event
  | returnsNothing contract method => contract ++ "." ++ method ++ " returns nothing"
  | noTopics => "log has no topics"
  | unknownTopic contract topic => contract ++ " has no event with topic " ++ topic.hex
  | missingField event i => event ++ " log is missing field " ++ toString i
  | noField event field => "event " ++ event ++ " has no field " ++ field
  | deployBlockTooLarge value => "deploy block " ++ toString value ++ " exceeds u64"
  | memberMissing i => "member " ++ toString i ++ " address missing"
  | slotEmpty content => content

end EncodingError

/-- Why settings are refused, or a question has no answer under them. -/
inductive ConfigError
  | reason (text : String)
  /-- A number is zero. -/
  | belowOne (subject : String)
  /-- A number of blocks is zero. -/
  | belowOneBlock (subject : String)
  /-- A shard is empty, or larger than a batch may be. -/
  | shardOutOfRange (subject : String) (limit : Nat)
  | shardAboveBatch (subject : String) (limit : Nat)
  /-- A frequency is zero; what is submitted, if it is known. -/
  | zeroFrequency (submissions : Option String)
  | noMembers
  /-- Fewer addresses were read than are needed. -/
  | addressesOutOfStep
  /-- The upper incomplete gamma function has no value. -/
  | undefinedFit (degrees statistic : String)

namespace ConfigError

def message : ConfigError → String
  | reason text => text
  | belowOne subject => subject ++ " must be at least 1"
  | belowOneBlock subject => subject ++ " must be at least 1 block"
  | shardOutOfRange subject limit =>
    subject ++ " must be between 1 and max_batch_size (" ++ toString limit ++ ")"
  | shardAboveBatch subject limit =>
    subject ++ " must not exceed max_batch_size (" ++ toString limit ++ ")"
  | zeroFrequency none => "submit frequency is 0"
  | zeroFrequency (some kind) => kind ++ " submit frequency is 0"
  | noMembers => "oracle DAO has no members"
  | addressesOutOfStep => "address resolution out of step"
  | undefinedFit a x => "Q(" ++ a ++ ", " ++ x ++ ") is undefined: no value"

end ConfigError

/-- The failure of a query. -/
inductive QueryError
  | encoding (cause : EncodingError)
  | transport (cause : TransportError)
  /-- A strict batch had a failing call; none of its slots were written. -/
  | partialFailure (index total : Nat)
  /-- A shard could not be started. -/
  | shardDispatch (shard : Nat) (reason : String)
  | batchFull (limit : Nat)
  | invalidConfig (cause : ConfigError)
  | unknownContract (name : String)
  /-- A handler of results rejected an item. -/
  | handler (index : Nat) (reason : String)
  /-- A shard was torn down. -/
  | taskFailed (reason : String)

namespace QueryError

def message : QueryError → String
  | encoding cause => "Encoding error: " ++ cause.message
  | transport cause => "Transport error: " ++ cause.message
  | partialFailure i total =>
    "Call " ++ toString i ++ " of " ++ toString total ++ " in strict batch failed"
  | shardDispatch shard reason =>
    "Shard " ++ toString shard ++ " could not be dispatched: " ++ reason
  | batchFull limit => "Batch is full (" ++ toString limit ++ " calls)"
  | invalidConfig cause => "Invalid configuration: " ++ cause.message
  | unknownContract name => "Contract " ++ name ++ " has not been loaded"
  | handler i reason => "Result handler failed for item " ++ toString i ++ ": " ++ reason
  | taskFailed reason => "Shard task failed: " ++ reason

/-- Whether the error came from the network. -/
def isTransport : QueryError → Bool
  | transport _ => true
  | _ => false

/-- The failure of a shard that panicked; which task it was is not told. -/
def panicked (message : String) : QueryError :=
  taskFailed ("task # panicked with message " ++ Text.quoted message)

end QueryError

end ContractReads
