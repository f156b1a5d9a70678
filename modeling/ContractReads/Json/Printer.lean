import ContractReads.Json.Basic
import ContractReads.Text.Quoted

/-!
# JSON text

`Json.compact` writes a value without blanks, its members in their order.  A double is written
with the fewest digits that read back: positionally from `1e-5` up to `1e16`, else with an
exponent and its sign.
-/

namespace ContractReads.Json

/-- How one character is written inside a JSON string. -/
def escapedChar (c : Char) : String :=
  if c = '"' then "\\\""
  else if c = '\\' then "\\\\"
  else if c = '\n' then "\\n"
  else if c = '\r' then "\\r"
  else if c = '\t' then "\\t"
  else if c.toNat = 8 then "\\b"
  else if c.toNat = 12 then "\\f"
  else if c.toNat < 16 then "\\u000" ++ Text.hexDigits c.toNat
  else if c.toNat < 32 then "\\u00" ++ Text.hexDigits c.toNat
  else c.toString

/-- A text as a JSON string. -/
def stringText (s : String) : String :=
  s.foldl (fun acc c => acc ++ escapedChar c) "\"" ++ "\""

/-- The digits of a positive decimal with a point in them. -/
def decimalText (d : Decimal) : String :=
  let ds := Nat.toDigits 10 d.digits
  let count := ds.length
  let point : Int := count + d.exponent
  if 0 ≤ d.exponent ∧ point ≤ 16 then
    String.ofList ds ++ "".pushn '0' d.exponent.toNat ++ ".0"
  else if 0 < point ∧ point ≤ 16 then
    String.ofList (ds.take point.toNat) ++ "." ++ String.ofList (ds.drop point.toNat)
  else if -5 < point ∧ point ≤ 0 then
    "0." ++ "".pushn '0' (-point).toNat ++ String.ofList ds
  else
    let fraction := if count = 1 then "" else "." ++ String.ofList (ds.drop 1)
    let sign := if 0 < point then "+" else ""
    String.ofList (ds.take 1) ++ fraction ++ "e" ++ sign ++ toString (point - 1)

/-- A double as a JSON number; what is no number is null. -/
def doubleText (bits : UInt64) : String :=
  match Double.ofBits bits with
  | .finite negative m e =>
    (if negative then "-" else "") ++ if m = 0 then "0.0" else decimalText (Decimal.shortest m e)
  | _ => "null"

mutual

/-- The text of a value, behind `acc`. -/
def write (acc : String) : Json → String
  | null => acc ++ "null"
  | bool b => acc ++ if b then "true" else "false"
  | whole n => acc ++ toString n
  | double bits => acc ++ doubleText bits
  | string s => acc ++ stringText s
  | array [] => acc ++ "[]"
  | array (x :: xs) => writeItems (write (acc ++ "[") x) xs ++ "]"
  | object [] => acc ++ "\x7b\x7d"
  | object ((n, v) :: ms) =>
    writeMembers (write (acc ++ "\x7b" ++ stringText n ++ ":") v) ms ++ "\x7d"

def writeItems (acc : String) : List Json → String
  | [] => acc
  | x :: xs => writeItems (write (acc ++ ",") x) xs

def writeMembers (acc : String) : List (String × Json) → String
  | [] => acc
  | (n, v) :: ms => writeMembers (write (acc ++ "," ++ stringText n ++ ":") v) ms

end

/-- The text of a value, without blanks. -/
def compact (j : Json) : String := write "" j

end ContractReads.Json
