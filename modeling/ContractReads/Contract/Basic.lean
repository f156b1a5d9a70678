import ContractReads.Abi.Coerce
import ContractReads.Abi.Convert
import ContractReads.Abi.Encode
import ContractReads.Abi.InterfaceText
import ContractReads.Batch.Basic

/-!
# Contracts

A contract has a name, an address and an interface.  By its interface, arguments are encoded into
the bytes of a call and returned bytes decoded into values.
-/

namespace ContractReads

/-- What a transaction is made of.  Nothing here signs or sends one. -/
structure Transaction where
  target : Address
  data : Bytes
  value : BitVec 256
deriving DecidableEq

structure Contract where
  name : String
  address : Address
  interface : Interface
  version : UInt8 := 1
deriving Inhabited

/-- The values of a parameter list. -/
def decodeData (types : List AbiType) (data : Bytes) : Except EncodingError (List AbiValue) :=
  match Abi.decodeParams types data with
  | .ok vs => .ok vs
  | .error cause => .error (.undecodableData cause)

namespace Function

/-- Fits arguments to types; a refusal names the argument. -/
def coerceArgs (name : String) : (index : Nat) → List AbiType → List AbiValue →
    Except EncodingError (List AbiValue)
  | i, t :: ts, v :: vs =>
    match AbiValue.coerce t v with
    | .error cause => .error (.argument i name cause)
    | .ok w => (coerceArgs name (i + 1) ts vs).map (w :: ·)
  | _, _, _ => .ok []

/-- The bytes of a call. -/
def encode (f : Function) (args : List AbiValue) : Except EncodingError Bytes := do
  let types ← Param.types f.inputs
  let values ← coerceArgs f.name 0 types args
  return f.selector ++ AbiValue.encodeParams values

end Function

namespace Contract

variable {α : Type}

/-- The first function of a name that takes so many arguments. -/
def function (c : Contract) (method : String) (arity : Nat) : Except EncodingError Function :=
  match c.interface.overloads method with
  | [] => .error (.noMethod c.name method)
  | overloads =>
    match overloads.find? fun f => f.inputs.length = arity with
    | some f => .ok f
    | none => .error (.noOverload c.name method arity)

def encodeCall (c : Contract) (method : String) (args : List AbiValue) :
    Except EncodingError Bytes := do
  let f ← c.function method args.length
  f.encode args

/-- The values that a call of so many arguments returned. -/
def decodeOutput (c : Contract) (method : String) (arity : Nat) (data : Bytes) :
    Except EncodingError (List AbiValue) := do
  let f ← c.function method arity
  let types ← Param.types f.outputs
  decodeData types data

/-- The bytes of a call, and the types of its results. -/
def prepare (c : Contract) (method : String) (args : List AbiValue) :
    Except EncodingError (Bytes × List AbiType) := do
  let f ← c.function method args.length
  let calldata ← f.encode args
  let outputs ← Param.types f.outputs
  return (calldata, outputs)

/-- An encoding error as the failure of a query. -/
def asQueryError {β : Type} : Except EncodingError β → Except QueryError β
  | .ok b => .ok b
  | .error cause => .error (.encoding cause)

/-- The first result, read. -/
def readFirst (c : Contract) (method : String) (outputs : List AbiType)
    (read : AbiValue → Except EncodingError α) (data : Bytes) : Except EncodingError α := do
  match ← decodeData outputs data with
  | v :: _ => read v
  | [] => .error (.returnsNothing c.name method)

/-- All results as one tuple, read. -/
def readAll (outputs : List AbiType) (read : AbiValue → Except EncodingError α) (data : Bytes) :
    Except EncodingError α := do
  let vs ← decodeData outputs data
  read (.tuple vs)

/-- Registers a call whose first result goes into a slot. -/
def addCall (c : Contract) (slot : Nat) (read : AbiValue → Except EncodingError α)
    (method : String) (args : List AbiValue) (b : Batch α) : Except QueryError (Batch α) :=
  match c.prepare method args with
  | .error cause => .error (.encoding cause)
  | .ok (calldata, outputs) =>
    b.add ⟨c.address, calldata, slot,
      fun data => asQueryError (c.readFirst method outputs read data)⟩

/-- Registers a call whose results go into a slot as one tuple. -/
def addCallOutputs (c : Contract) (slot : Nat) (read : AbiValue → Except EncodingError α)
    (method : String) (args : List AbiValue) (b : Batch α) : Except QueryError (Batch α) :=
  match c.prepare method args with
  | .error cause => .error (.encoding cause)
  | .ok (calldata, outputs) =>
    b.add ⟨c.address, calldata, slot, fun data => asQueryError (readAll outputs read data)⟩

/-- A transaction that calls a method and sends no money. -/
def transaction (c : Contract) (method : String) (args : List AbiValue) :
    Except EncodingError Transaction := do
  let data ← c.encodeCall method args
  return ⟨c.address, data, 0⟩

def render (c : Contract) : String :=
  Text.someFields "Contract" [("name", Text.quoted c.name), ("address", c.address.hex),
    ("version", toString c.version.toNat)]

end Contract

end ContractReads
