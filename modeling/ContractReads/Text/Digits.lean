/-!
# Digits

`Text.digitsValue` is the number that decimal digits spell; `Text.hexDigit?` reads one hexadecimal
digit.
-/

namespace ContractReads.Text

def digitValue (c : Char) : Nat := c.toNat - 48

/-- The number that a run of digits spells. -/
def digitsValue (ds : List Char) : Nat := ds.foldl (fun n c => n * 10 + digitValue c) 0

/-- The value of a hexadecimal digit of either case. -/
def hexDigit? (c : Char) : Option Nat :=
  if '0' ≤ c ∧ c ≤ '9' then some (c.toNat - 48)
  else if 'a' ≤ c ∧ c ≤ 'f' then some (c.toNat - 87)
  else if 'A' ≤ c ∧ c ≤ 'F' then some (c.toNat - 55)
  else none

end ContractReads.Text
