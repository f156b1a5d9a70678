import ContractReads.Abi.Type
import ContractReads.Text.Hex

/-!
# Values of contracts

A value carries the widths that it is tagged with; nothing keeps the number inside the width.
-/

namespace ContractReads

/-- A value that a contract takes or returns. -/
inductive AbiValue
  | bool (value : Bool)
  /-- An unsigned number, tagged with a width in bits. -/
  | uint (value : BitVec 256) (bits : Nat)
  /-- A signed number in two's complement, tagged with a width in bits. -/
  | int (value : BitVec 256) (bits : Nat)
  /-- A word whose first bytes are the value, tagged with their number. -/
  | fixedBytes (word : Word) (size : Nat)
  | address (value : Address)
  | function (value : FunctionPointer)
  | bytes (value : Bytes)
  | string (value : String)
  | array (elements : List AbiValue)
  | fixedArray (elements : List AbiValue)
  | tuple (components : List AbiValue)
deriving Inhabited

namespace AbiValue

mutual

/-- The text of a value inside a message. -/
def render : AbiValue → String
  | bool b => "Bool(" ++ (if b then "true" else "false") ++ ")"
  | uint v n => "Uint(" ++ toString v.toNat ++ ", " ++ toString n ++ ")"
  | int v n => "Int(" ++ toString v.toInt ++ ", " ++ toString n ++ ")"
  | fixedBytes w n => "FixedBytes(" ++ w.hex ++ ", " ++ toString n ++ ")"
  | address a => "Address(" ++ a.hex ++ ")"
  | function f => "Function(" ++ f.hex ++ ")"
  | bytes bs => "Bytes([" ++ ", ".intercalate (bs.map fun b => toString b.toNat) ++ "])"
  | string s => "String(" ++ Text.quoted s ++ ")"
  | array vs => "Array([" ++ ", ".intercalate (renderAll vs) ++ "])"
  | fixedArray vs => "FixedArray([" ++ ", ".intercalate (renderAll vs) ++ "])"
  | tuple vs => "Tuple([" ++ ", ".intercalate (renderAll vs) ++ "])"

def renderAll : List AbiValue → List String
  | [] => []
  | v :: vs => v.render :: renderAll vs

end

/-- An unsigned number of 256 bits. -/
def ofNat (n : Nat) : AbiValue := uint (BitVec.ofNat 256 n) 256

/-- A number of 64 bits as an unsigned number of 256 bits. -/
def ofUInt64 (n : UInt64) : AbiValue := ofNat n.toNat

/-- A whole word as a byte string. -/
def ofWord (w : Word) : AbiValue := fixedBytes w 32

end AbiValue

end ContractReads
