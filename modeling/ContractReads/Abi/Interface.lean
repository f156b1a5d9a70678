import ContractReads.Abi.TypeName
import ContractReads.Error
import ContractReads.Keccak

/-!
# Interfaces of contracts

An `Interface` lists the functions and events of a contract, sorted by name; those of one name
keep the order of their declaration.  A function is known on chain by the first four bytes of the
hash of its signature, an event by the whole hash.
-/

namespace ContractReads

/-- A parameter.  With components its type is a tuple of them, behind which suffixes may stand. -/
structure Param where
  name : String
  typeText : String
  components : List Param
deriving Inhabited

namespace Param

/-- The text with `head` left out, if it starts so. -/
def withoutHead (head text : String) : String :=
  if head.toList.isPrefixOf text.toList then
    String.ofList (text.toList.drop head.length)
  else text

mutual

/-- The type as a signature names it. -/
def signatureType : Param → String
  | ⟨_, type, []⟩ => type
  | ⟨_, type, c :: cs⟩ =>
    "(" ++ ",".intercalate (c.signatureType :: signatureTypes cs) ++ ")" ++ withoutHead "tuple" type

def signatureTypes : List Param → List String
  | [] => []
  | p :: ps => p.signatureType :: signatureTypes ps

end

mutual

/-- The type of a parameter, if its text names one. -/
def type? : Param → Option AbiType
  | ⟨_, type, []⟩ => AbiType.ofText? type
  | ⟨_, type, c :: cs⟩ => do
    let name ← TypeName.ofText? type
    let t ← c.type?
    let ts ← types? cs
    return name.wrap (.tuple (t :: ts))

def types? : List Param → Option (List AbiType)
  | [] => some []
  | p :: ps => do
    let t ← p.type?
    let ts ← types? ps
    return t :: ts

end

def type (p : Param) : Except EncodingError AbiType :=
  match p.type? with
  | some t => .ok t
  | none => .error (.unsupportedType p.typeText)

/-- The types of several parameters, up to the first that has none. -/
def types : List Param → Except EncodingError (List AbiType)
  | [] => .ok []
  | p :: ps => do
    let t ← p.type
    let ts ← types ps
    return t :: ts

end Param

/-- What is hashed: a name and the types of its parameters. -/
def signature (name : String) (params : List Param) : String :=
  name ++ "(" ++ ",".intercalate (Param.signatureTypes params) ++ ")"

/-- The first four bytes of the hash of a signature. -/
def selectorOf (signature : String) : Bytes := (keccakText signature).toBytes.take 4

@[simp] theorem length_selectorOf (signature : String) : (selectorOf signature).length = 4 := by
  rw [selectorOf, List.length_take, FixedBytes.length_toBytes]
  rfl

structure Function where
  name : String
  inputs : List Param
  outputs : List Param
deriving Inhabited

/-- The four bytes that calls of a function start with. -/
def Function.selector (f : Function) : Bytes := selectorOf (signature f.name f.inputs)

/-- A field of an event; an indexed one is written into a topic. -/
structure EventInput where
  param : Param
  indexed : Bool
deriving Inhabited

structure Event where
  name : String
  inputs : List EventInput
  /-- Whether the logs of the event name it in no topic. -/
  anonymous : Bool
deriving Inhabited

/-- The first topic of the logs of an event. -/
def Event.selector (e : Event) : Word :=
  keccakText (signature e.name (e.inputs.map EventInput.param))

/-- The functions and events of a contract. -/
structure Interface where
  functions : List Function
  events : List Event
deriving Inhabited

namespace Interface

/-- An interface of functions and events in the order of their declaration. -/
def ofDeclarations (functions : List Function) (events : List Event) : Interface where
  functions := functions.mergeSort fun a b => a.name ≤ b.name
  events := events.mergeSort fun a b => a.name ≤ b.name

/-- Every name once, in order; the names are sorted. -/
def names : List String → List String
  | [] => []
  | [n] => [n]
  | n :: m :: rest => if n = m then names (m :: rest) else n :: names (m :: rest)

def functionNames (i : Interface) : List String := names (i.functions.map Function.name)

def eventNames (i : Interface) : List String := names (i.events.map Event.name)

def overloads (i : Interface) (name : String) : List Function :=
  i.functions.filter fun f => f.name = name

/-- The first event of a name. -/
def event? (i : Interface) (name : String) : Option Event :=
  i.events.find? fun e => e.name = name

/-- The first event that logs of a first topic belong to. -/
def eventOfTopic? (i : Interface) (topic : Word) : Option Event :=
  i.events.find? fun e => !e.anonymous && e.selector == topic

end Interface

end ContractReads
