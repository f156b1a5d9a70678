import ContractReads.Json.Basic
import ContractReads.Text.Digits

/-!
# The tokens of JSON text

`Json.Token.ofText?` splits a text into punctuation, literals, numbers and strings, and drops
blanks.  Every token takes at least one character, so the walk ends with the text.
-/

namespace ContractReads.Json

inductive Token
  | openArray
  | closeArray
  | openObject
  | closeObject
  | comma
  | colon
  /-- A string, a number, a truth value or null. -/
  | scalar (value : Json)

/-- Four hexadecimal digits. -/
def unit? (a b c d : Char) : Option Nat := do
  let a ← Text.hexDigit? a
  let b ← Text.hexDigit? b
  let c ← Text.hexDigit? c
  let d ← Text.hexDigit? d
  return ((a * 16 + b) * 16 + c) * 16 + d

/-- The character behind a backslash. -/
def escape? (c : Char) : Option Char :=
  if c = '"' ∨ c = '\\' ∨ c = '/' then some c
  else if c = 'n' then some '\n'
  else if c = 't' then some '\t'
  else if c = 'r' then some '\r'
  else if c = 'b' then some (Char.ofNat 8)
  else if c = 'f' then some (Char.ofNat 12)
  else none

/-- The rest of a string behind its opening quote: its characters, last first, and what follows
the closing quote.  A character outside the basic plane may be written as a pair of units; a half
of a pair that stands alone, and a control character, are refused. -/
def stringRest (acc : List Char) : List Char → Option (List Char × List Char)
  | [] => none
  | '"' :: rest => some (acc, rest)
  | '\\' :: 'u' :: a :: b :: c :: d :: '\\' :: 'u' :: e :: f :: g :: h :: rest =>
    match unit? a b c d, unit? e f g h with
    | some x, some y =>
      if 0xD800 ≤ x ∧ x < 0xDC00 then
        if 0xDC00 ≤ y ∧ y < 0xE000 then
          stringRest (Char.ofNat (0x10000 + (x - 0xD800) * 1024 + (y - 0xDC00)) :: acc) rest
        else none
      else if 0xDC00 ≤ x ∧ x < 0xE000 then none
      else stringRest (Char.ofNat x :: acc) ('\\' :: 'u' :: e :: f :: g :: h :: rest)
    | _, _ => none
  | '\\' :: 'u' :: a :: b :: c :: d :: rest =>
    match unit? a b c d with
    | some x => if 0xD800 ≤ x ∧ x < 0xE000 then none else stringRest (Char.ofNat x :: acc) rest
    | none => none
  | '\\' :: c :: rest =>
    match escape? c with
    | some c => stringRest (c :: acc) rest
    | none => none
  | c :: rest => if c.toNat < 32 ∨ c = '\\' then none else stringRest (c :: acc) rest

/-- A string takes at least its closing quote. -/
theorem length_stringRest_le {acc : List Char} {s : List Char} {r : List Char × List Char}
    (h : stringRest acc s = some r) : r.2.length < s.length := by
  fun_induction stringRest acc s <;> simp only [List.length_cons, List.length_nil] <;> grind

def isNumberChar (c : Char) : Bool :=
  c.isDigit || c = '-' || c = '+' || c = '.' || c = 'e' || c = 'E'

/-- Puts digits behind a number for as long as it has 64 bits; gives the digits that are left. -/
def appendDigits (n : Nat) : List Char → Nat × List Char
  | [] => (n, [])
  | c :: cs =>
    let m := n * 10 + Text.digitValue c
    if m < UInt64.size then appendDigits m cs else (n, c :: cs)

/-- The double nearest to a power of ten. -/
def tenPower (n : Nat) : Float := Float.ofScientific 1 false n

/-- A double divided by a power of ten; `10 ^ 308` is the largest that one division takes. -/
def scaledDown (x : Float) (n : Nat) : Float :=
  if n ≤ 308 then x / tenPower n
  else if x == 0 then x
  else scaledDown (x / tenPower 308) (n - 308)
termination_by n

/-- The number `digits * 10 ^ exponent`, rounded to a double before it is scaled and again
after; none if that is out of range. -/
def double? (negative : Bool) (digits : Nat) (exponent : Int) : Option Json :=
  let x := Float.ofNat digits
  let magnitude :=
    if exponent < 0 then scaledDown x (-exponent).toNat
    else if exponent ≤ 308 then x * tenPower exponent.toNat
    else if digits = 0 then x
    else 1 / 0
  if magnitude.isFinite then some (.double (if negative then -magnitude else magnitude).toBits)
  else none

/-- The digits behind the point of a number, and what follows them.  A point needs a digit. -/
def fraction? : List Char → Option (List Char × List Char)
  | '.' :: rest =>
    let ds := rest.takeWhile Char.isDigit
    if ds = [] then none else some (ds, rest.dropWhile Char.isDigit)
  | rest => some ([], rest)

/-- The exponent behind the digits of a number: nothing, or a mark, a sign and digits. -/
def exponent? : List Char → Option Int
  | [] => some 0
  | e :: rest =>
    if e = 'e' ∨ e = 'E' then
      let (negative, ds) := match rest with
        | '-' :: ds => (true, ds)
        | '+' :: ds => (false, ds)
        | ds => (false, ds)
      if ds ≠ [] ∧ ds.all Char.isDigit then
        let n : Int := Text.digitsValue ds
        some (if negative then -n else n)
      else none
    else none

/-- A number without its sign.  Whole numbers that do not fit, and a negated zero, are doubles.
Digits for which 64 bits have no room only count as places. -/
def magnitude? (negative : Bool) (s : List Char) : Option Json := do
  let ds := s.takeWhile Char.isDigit
  let rest := s.dropWhile Char.isDigit
  guard (ds ≠ [] ∧ (ds.head? = some '0' → ds.length = 1))
  let (fraction, mark) ← fraction? rest
  let exponent ← exponent? mark
  let (n, dropped) := appendDigits 0 ds
  let value : Int := if negative then -n else n
  if rest = [] ∧ dropped = [] ∧ Int64.minValue.toInt ≤ value ∧ (negative → 0 < n) then
    return .whole value
  let (m, unread) := appendDigits n fraction
  double? negative m (dropped.length - (fraction.length - unread.length) + exponent)

def number? : List Char → Option Json
  | '-' :: rest => magnitude? true rest
  | s => magnitude? false s

/-- The first token of a text whose first character is `c`, and what follows it; no token for a
blank. -/
def Token.next? (c : Char) (rest : List Char) : Option (Option Token × List Char) :=
  if c = ' ' ∨ c = '\n' ∨ c = '\t' ∨ c = '\r' then some (none, rest)
  else if c = '[' then some (some .openArray, rest)
  else if c = ']' then some (some .closeArray, rest)
  else if c = '\x7b' then some (some .openObject, rest)
  else if c = '\x7d' then some (some .closeObject, rest)
  else if c = ',' then some (some .comma, rest)
  else if c = ':' then some (some .colon, rest)
  else if c = '"' then
    match stringRest [] rest with
    | some r => some (some (.scalar (.string (String.ofList r.1.reverse))), r.2)
    | none => none
  else if isNumberChar c then
    match number? (c :: rest.takeWhile isNumberChar) with
    | some v => some (some (.scalar v), rest.dropWhile isNumberChar)
    | none => none
  else match c, rest with
    | 'n', 'u' :: 'l' :: 'l' :: rest => some (some (.scalar .null), rest)
    | 't', 'r' :: 'u' :: 'e' :: rest => some (some (.scalar (.bool true)), rest)
    | 'f', 'a' :: 'l' :: 's' :: 'e' :: rest => some (some (.scalar (.bool false)), rest)
    | _, _ => none

/-- What follows a token is no longer than what its first character was followed by. -/
theorem Token.length_next_le {c : Char} {rest : List Char} {r : Option Token × List Char}
    (h : Token.next? c rest = some r) : r.2.length ≤ rest.length := by
  have hd := (List.dropWhile_sublist isNumberChar (l := rest)).length_le
  have hs (x : List Char × List Char) (hx : stringRest [] rest = some x) :
      x.2.length ≤ rest.length := Nat.le_of_lt (length_stringRest_le hx)
  unfold Token.next? at h
  repeat' split at h
  all_goals grind

/-- The tokens of a text; nothing if some part of it is no token. -/
def Token.ofChars? : List Char → Option (List Token)
  | [] => some []
  | c :: rest =>
    match _h : Token.next? c rest with
    | none => none
    | some (some t, rest') => (Token.ofChars? rest').map (t :: ·)
    | some (none, rest') => Token.ofChars? rest'
termination_by s => s.length
decreasing_by
  all_goals
    have := Token.length_next_le _h
    simp only [List.length_cons] at *
    omega

end ContractReads.Json
