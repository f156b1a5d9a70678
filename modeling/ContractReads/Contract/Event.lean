import ContractReads.Contract.Basic
import ContractReads.Log.Basic

/-!
# Events

A log belongs to the event that its first topic names.  Indexed fields stand in the further
topics, one word each: a value that fits into a word is written there itself, any other by its
hash.  All other fields stand in the data.
-/

namespace ContractReads

/-- A log taken apart into the fields of its event. -/
structure DecodedEvent where
  name : String
  address : Address
  blockNumber : UInt64
  /-- Names and values in the order of the declaration. -/
  fields : List (String × AbiValue)

namespace DecodedEvent

/-- Sets a field; one of the same name keeps its place. -/
def setField (name : String) (value : AbiValue) :
    List (String × AbiValue) → List (String × AbiValue)
  | [] => [(name, value)]
  | (n, v) :: rest => if n = name then (n, value) :: rest else (n, v) :: setField name value rest

/-- The value of a field. -/
def field? (e : DecodedEvent) (name : String) : Option AbiValue :=
  (e.fields.find? fun f => f.1 = name).map Prod.snd

/-- The value of a field, read. -/
def get {α : Type} [FromAbi α] (e : DecodedEvent) (name : String) : Except EncodingError α :=
  match e.field? name with
  | some v => fromAbi v
  | none => .error (.noField e.name name)

end DecodedEvent

namespace Event

/-- The value that a topic holds. -/
def topicValue (t : AbiType) (topic : Word) : Except EncodingError AbiValue :=
  match t with
  | .bool | .int _ | .uint _ | .address | .fixedBytes _ =>
    match Abi.decodeParams [t] topic.toBytes with
    | .ok [v] => .ok v
    | .ok _ => .error (.undecodableTopic .overrun)
    | .error cause => .error (.undecodableTopic cause)
  | _ => .ok (.ofWord topic)

/-- The types of the fields in the data. -/
def bodyTypes (e : Event) : Except EncodingError (List AbiType) :=
  Param.types ((e.inputs.filter fun i => !i.indexed).map EventInput.param)

/-- The name of a field; one without a name is called by its position. -/
def fieldName (index : Nat) (i : EventInput) : String :=
  if i.param.name = "" then "arg" ++ toString index else i.param.name

/-- Takes each field from the topics or from the values in the data. -/
def takeFields (e : Event) : (index : Nat) → List EventInput → (topics : List Word) →
    (body : List AbiValue) → List (String × AbiValue) →
    Except EncodingError (List (String × AbiValue))
  | _, [], _, _, fields => .ok fields
  | i, input :: inputs, topics, body, fields =>
    if input.indexed then
      match topics with
      | [] => .error (.missingField e.name i)
      | topic :: topics => do
        let t ← input.param.type
        let v ← topicValue t topic
        takeFields e (i + 1) inputs topics body (DecodedEvent.setField (fieldName i input) v fields)
    else
      match body with
      | [] => .error (.missingField e.name i)
      | v :: body =>
        takeFields e (i + 1) inputs topics body (DecodedEvent.setField (fieldName i input) v fields)

/-- The fields of a log of the event. -/
def decode (e : Event) (log : Log) : Except EncodingError DecodedEvent := do
  let types ← e.bodyTypes
  let body ← decodeData types log.data
  let fields ← e.takeFields 0 e.inputs (log.topics.drop 1) body []
  return ⟨e.name, log.address, log.blockNumber, fields⟩

end Event

namespace Contract

def event (c : Contract) (name : String) : Except EncodingError Event :=
  match c.interface.event? name with
  | some e => .ok e
  | none => .error (.noEvent c.name name)

def eventTopic (c : Contract) (name : String) : Except EncodingError Word :=
  (c.event name).map Event.selector

/-- The fields of a log of one of the contract's events. -/
def decodeEvent (c : Contract) (log : Log) : Except EncodingError DecodedEvent :=
  match log.topics with
  | [] => .error .noTopics
  | topic :: _ =>
    match c.interface.eventOfTopic? topic with
    | some e => e.decode log
    | none => .error (.unknownTopic c.name topic)

end Contract

end ContractReads
