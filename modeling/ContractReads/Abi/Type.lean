import ContractReads.Bytes

/-!
# Types of contract values

The types of arguments, results and event fields.  A type is dynamic if the length of its values
is not known beforehand; the values of a static type of `minWords` words take exactly that many.
-/

namespace ContractReads

/-- The type of a value that a contract takes or returns. -/
inductive AbiType
  | bool
  /-- Unsigned numbers of a width in bits. -/
  | uint (bits : Nat)
  /-- Signed numbers of a width in bits. -/
  | int (bits : Nat)
  /-- Byte strings of a length from 1 to 32. -/
  | fixedBytes (size : Nat)
  | address
  | function
  | bytes
  | string
  | array (element : AbiType)
  /-- A given number of elements. -/
  | fixedArray (element : AbiType) (length : Nat)
  | tuple (components : List AbiType)
deriving Inhabited, Repr

namespace AbiType

mutual

/-- Whether values of the type vary in length. -/
def isDynamic : AbiType → Bool
  | bytes | string | array _ => true
  | fixedArray t _ => t.isDynamic
  | tuple ts => anyDynamic ts
  | _ => false

def anyDynamic : List AbiType → Bool
  | [] => false
  | t :: ts => t.isDynamic || anyDynamic ts

end

mutual

/-- Words that every value of the type needs at least. -/
def minWords : AbiType → Nat
  | fixedArray t n => n * t.minWords
  | tuple ts => minWordsAll ts
  | _ => 1

/-- Words that values of several types need at least. -/
def minWordsAll : List AbiType → Nat
  | [] => 0
  | t :: ts => t.minWords + minWordsAll ts

end

mutual

/-- Values that room is made for before a value of the type is read, itself among them.  For an
array of any length, this is the room of one element. -/
def places : AbiType → Nat
  | array t => t.places + 1
  | fixedArray t n => n * t.places + 1
  | tuple ts => placesAll ts + 1
  | _ => 1

/-- Values that room is made for before values of several types are read. -/
def placesAll : List AbiType → Nat
  | [] => 0
  | t :: ts => t.places + placesAll ts

end

mutual

/-- Whether nothing in a value of the type can take room: empty tuples, and arrays of such. -/
def isEmpty : AbiType → Bool
  | array t => t.isEmpty
  | fixedArray t n => n == 0 || t.isEmpty
  | tuple ts => allEmpty ts
  | _ => false

def allEmpty : List AbiType → Bool
  | [] => true
  | t :: ts => t.isEmpty && allEmpty ts

end

mutual

/-- The text of a type inside a message. -/
def render : AbiType → String
  | bool => "Bool"
  | uint n => "Uint(" ++ toString n ++ ")"
  | int n => "Int(" ++ toString n ++ ")"
  | fixedBytes n => "FixedBytes(" ++ toString n ++ ")"
  | address => "Address"
  | function => "Function"
  | bytes => "Bytes"
  | string => "String"
  | array t => "Array(" ++ t.render ++ ")"
  | fixedArray t n => "FixedArray(" ++ t.render ++ ", " ++ toString n ++ ")"
  | tuple ts => "Tuple([" ++ ", ".intercalate (renderAll ts) ++ "])"

def renderAll : List AbiType → List String
  | [] => []
  | t :: ts => t.render :: renderAll ts

end

end AbiType

end ContractReads
