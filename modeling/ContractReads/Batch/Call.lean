import ContractReads.Error
import ContractReads.Text.Fields

/-!
# Calls

A call names a contract and the bytes to send to it, a slot for its result, and how the returned
bytes become the value of that slot.
-/

namespace ContractReads

/-- A call as an endpoint sees it. -/
structure EncodedCall where
  target : Address
  calldata : Bytes
deriving DecidableEq

/-- What became of a call. -/
structure Outcome where
  isSuccess : Bool
  /-- The bytes that the call returned; those of a failure are not read. -/
  returnData : Bytes
deriving DecidableEq, Repr

def Outcome.failure : Outcome := ⟨false, []⟩

def Outcome.success (returnData : Bytes) : Outcome := ⟨true, returnData⟩

/-- A read whose result goes into a slot. -/
structure Call (α : Type) where
  target : Address
  calldata : Bytes
  /-- The number of the slot. -/
  slot : Nat
  /-- The value that returned bytes stand for. -/
  decode : Bytes → Except QueryError α

namespace Call

variable {α : Type}

/-- The call without its slot and decoder. -/
def encoded (c : Call α) : EncodedCall := ⟨c.target, c.calldata⟩

def render (c : Call α) : String :=
  Text.someFields "CallDescriptor" [("target", c.target.hex), ("calldata", Hex.encode0x c.calldata)]

end Call

end ContractReads
