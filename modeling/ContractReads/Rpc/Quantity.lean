import ContractReads.Text.Hex

/-!
# Quantities

Block numbers and indices travel as hexadecimal texts.  `Quantity.render` writes `0x` and the
digits without leading zeros; `Quantity.ofText` reads digits of either case, with or without `0x`,
behind an optional plus sign.
-/

namespace ContractReads.Quantity

def render (n : UInt64) : String := "0x" ++ Text.hexDigits n.toNat

/-- Why a text is no quantity. -/
inductive Error
  | empty
  | badDigit
  /-- The number needs more than 64 bits. -/
  | overflow
deriving DecidableEq, Repr

/-- The text of a refusal. -/
def Error.message : Error → String
  | .empty => "cannot parse integer from empty string"
  | .badDigit => "invalid digit found in string"
  | .overflow => "number too large to fit in target type"

/-- Reads digits behind the number `n`. -/
def digits (n : Nat) : Bytes → Except Error Nat
  | [] => .ok n
  | b :: rest =>
    match Hex.digitValue? b with
    | none => .error .badDigit
    | some d => if n * 16 + d < UInt64.size then digits (n * 16 + d) rest else .error .overflow

/-- Reads digits behind an optional plus sign. -/
def value : Bytes → Except Error Nat
  | [] => .error .empty
  | [43] => .error .badDigit
  | 43 :: rest => digits 0 rest
  | text => digits 0 text

/-- The number that a text spells, a leading `0x` left out. -/
def ofText (s : String) : Except Error UInt64 :=
  (value (Hex.dropPrefix0x (Hex.textBytes s))).map UInt64.ofNat

end ContractReads.Quantity
