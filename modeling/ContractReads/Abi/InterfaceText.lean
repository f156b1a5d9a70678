import ContractReads.Abi.Interface
import ContractReads.Json.Reader
import ContractReads.Json.Record

/-!
# Interfaces as JSON

An interface is written as an array of declarations, one object each; its `type` tells a function
from an event, an error, the constructor, the fallback and the receiver.  Events and errors may be
arrays as well, the type in front.  Declarations are checked as a whole, those too that an
`Interface` does not keep.  Whether the types exist is not asked.
-/

namespace ContractReads.Interface

/-- The members of an object; nothing for another value, or if a name stands twice. -/
def members? (names : List String) : Json → Option (List (Option Json))
  | .object ms => Json.record? names (.object ms)
  | _ => none

/-- A value apart from its type: the first item of an array, the member `type` of an object. -/
def typed? : Json → Option (String × Json)
  | .array (.string type :: items) => some (type, .array items)
  | .object ms => do
    match ← Json.record? ["type"] (.object ms) with
    | [some (.string type)] => some (type, .object ms)
    | _ => none
  | _ => none

/-- Whether a member is missing, null, or one that `read` accepts. -/
def absentOr {α : Type} (read : Json → Option α) (member : Option Json) : Bool :=
  (Json.nullable? read member).isSome

/-- How a function may change the state: a name, or an object that gives it nothing. -/
def mutability? (j : Json) : Option String := do
  let s ← match j with
    | .object [(s, .object [])] => some s
    | j => j.variant?
  if s ∈ ["pure", "view", "nonpayable", "payable"] then some s else none

/-- A name: an identifier, or empty. -/
def name? (j : Json) : Option String := do
  let s ← j.string?
  if s = "" ∨ TypeName.isIdentifier s then some s else none

/-- Whether the type of a parameter has the form of one. -/
def typeTextOk (text : String) (components : List Param) : Bool :=
  if components.isEmpty then (TypeName.ofText? text).isSome
  else "tuple".toList.isPrefixOf text.toList

/-- The values that `read` gives for the items of an array. -/
def list? {α : Type} (read : Json → Option α) (j : Json) : Option (List α) :=
  j.array?.bind (List.mapM read)

/-- A parameter that nests at most `depth` deep, and whether it is said to be indexed. -/
def param? : (depth : Nat) → Json → Option (Param × Option Bool)
  | 0, _ => none
  | depth + 1, j => do
    match ← j.record? ["name", "type", "indexed", "internalType", "components"] with
    | [name, type, indexed, internalType, components] =>
      let name ← Json.withDefault? "" name? name
      let type ← Json.required? Json.string? type
      let indexed ← Json.nullable? Json.bool? indexed
      let components ← Json.withDefault? [] (list? (param? depth)) components
      let inner := components.map Prod.fst
      if components.all (fun c => c.2.isNone) && typeTextOk type inner
          && absentOr Json.string? internalType then
        some (⟨name, type, inner⟩, indexed)
      else none
    | _ => none

def functionInput? (j : Json) : Option Param :=
  match param? Json.maxDepth j with
  | some (p, none) => some p
  | _ => none

def eventInput? (j : Json) : Option EventInput :=
  (param? Json.maxDepth j).map fun (p, indexed) => ⟨p, indexed.getD false⟩

/-- What an interface declares. -/
inductive Declaration
  | function (f : Function)
  | event (e : Event)
  | error
  | constructor
  | fallback
  | receive
deriving Inhabited

/-- Whether it is said well how a function may change the state.  Where it is not named, the
function may not both take a payment and leave the state alone. -/
def stateOk (mutability payable constant : Option Json) : Bool :=
  match Json.nullable? mutability? mutability, Json.nullable? Json.bool? payable,
      Json.nullable? Json.bool? constant with
  | some none, some payable, some constant => payable != some true || constant != some true
  | some (some _), some _, some _ => true
  | _, _, _ => false

/-- A declaration that says how it may change the state, of its other members. -/
def stateful? {α : Type} (names : List String) (read : List (Option Json) → Option α) (j : Json) :
    Option α := do
  match ← members? ["stateMutability", "payable", "constant"] j with
  | [mutability, payable, constant] =>
    if stateOk mutability payable constant then read (← members? names j) else none
  | _ => none

def ofType? (type : String) (j : Json) : Option Declaration :=
  match type with
  | "function" => j |> stateful? ["name", "inputs", "outputs"] fun
    | [name, inputs, outputs] => do
      let name ← Json.required? name? name
      let inputs ← Json.required? (list? functionInput?) inputs
      let outputs ← Json.required? (list? functionInput?) outputs
      return .function ⟨name, inputs, outputs⟩
    | _ => none
  | "event" => do
    match ← j.record? ["name", "inputs", "anonymous"] with
    | [name, inputs, anonymous] =>
      let name ← Json.required? name? name
      let inputs ← Json.required? (list? eventInput?) inputs
      let anonymous ← Json.required? Json.bool? anonymous
      return .event ⟨name, inputs, anonymous⟩
    | _ => none
  | "error" => do
    match ← j.record? ["name", "inputs"] with
    | [name, inputs] =>
      let _ ← Json.required? name? name
      let _ ← Json.required? (list? functionInput?) inputs
      return .error
    | _ => none
  | "constructor" => j |> stateful? ["inputs"] fun
    | [inputs] => (Json.required? (list? functionInput?) inputs).map fun _ => .constructor
    | _ => none
  | "fallback" => j |> stateful? [] fun _ => some .fallback
  | "receive" => j |> stateful? [] fun _ => some .receive
  | _ => none

def declaration? (j : Json) : Option Declaration := do
  let (type, j) ← typed? j
  ofType? type j

def Declaration.function? : Declaration → Option Function
  | .function f => some f
  | _ => none

def Declaration.event? : Declaration → Option Event
  | .event e => some e
  | _ => none

/-- Whether a declaration may stand only once. -/
def Declaration.unique : Declaration → Option Nat
  | .constructor => some 0
  | .fallback => some 1
  | .receive => some 2
  | _ => none

/-- Whether the constructor, the fallback and the receiver each stand at most once. -/
def atMostOnce (ds : List Declaration) : Bool :=
  (List.range 3).all fun kind => ds.countP (fun d => d.unique == some kind) ≤ 1

def ofJson? (j : Json) : Option Interface := do
  let ds ← list? declaration? j
  if atMostOnce ds then
    some (ofDeclarations (ds.filterMap Declaration.function?) (ds.filterMap Declaration.event?))
  else none

/-- The interface that a text declares. -/
def ofText (s : String) : Except EncodingError Interface :=
  match (Json.ofText? s).bind ofJson? with
  | some i => .ok i
  | none => .error (.badInterface "not a list of declarations")

end ContractReads.Interface
