/-!
# The shortest decimal of a double

A finite double stands for the interval of reals that round to it.  `Decimal.shortest` is the
decimal of that interval with the fewest digits, and of those the nearest to the double: it looks
for the largest power of ten that has a multiple in the interval.

`plain` writes a decimal without an exponent.
-/

namespace ContractReads

/-- The number `digits * 10 ^ exponent`. -/
structure Decimal where
  digits : Nat
  exponent : Int
deriving DecidableEq, Repr

/-- What the 64 bits of a double stand for. -/
inductive Double
  | nan
  | infinite (negative : Bool)
  /-- The number `mantissa * 2 ^ exponent`, negated if `negative`. -/
  | finite (negative : Bool) (mantissa : Nat) (exponent : Int)
deriving DecidableEq, Repr

namespace Double

/-- The bit of the mantissa that is not stored. -/
def hiddenBit : Nat := 1 <<< 52

/-- Sign, exponent and fraction of the 64 bits. -/
def ofBits (bits : UInt64) : Double :=
  let n := bits.toNat
  let negative := n >>> 63 == 1
  let e : Nat := (n >>> 52) % 2048
  let fraction := n % hiddenBit
  if e = 2047 then if fraction = 0 then .infinite negative else .nan
  else if e = 0 then .finite negative fraction (-1074)
  else .finite negative (hiddenBit + fraction) ((e : Int) - 1075)

end Double

namespace Decimal

/-- The reals that round to a double, times `4 / scale`: the bounds belong to them if `closed`. -/
structure Interval where
  low : Nat
  value : Nat
  high : Nat
  scale : Nat
  closed : Bool

/-- The reals that round to `mantissa * 2 ^ exponent`.  The gap below a power of two is half the
gap above it, except below the least one. -/
def Interval.around (mantissa : Nat) (exponent : Int) : Interval :=
  let up := 1 <<< exponent.toNat
  let below := if mantissa = Double.hiddenBit ∧ exponent ≠ -1074 then 1 else 2
  ⟨(4 * mantissa - below) * up, 4 * mantissa * up, (4 * mantissa + 2) * up,
    4 <<< (-exponent).toNat, mantissa % 2 = 0⟩

/-- Whether `n * up / down` lies in the interval. -/
def Interval.contains (i : Interval) (n up down : Nat) : Bool :=
  let x := n * up * i.scale
  if i.closed then i.low * down ≤ x && x ≤ i.high * down
  else i.low * down < x && x < i.high * down

/-- The multiple of `10 ^ p` in the interval that is nearest to its value; of two, the even one. -/
def Interval.multiple? (i : Interval) (p : Int) : Option Nat :=
  let up := Nat.pow 10 p.toNat
  let down := Nat.pow 10 (-p).toNat
  let unit := up * i.scale
  let target := i.value * down
  let floor := target / unit
  let below := target - floor * unit
  let above := (floor + 1) * unit - target
  let nearerAbove := above < below || (above == below && floor % 2 == 1)
  let hit n := n != 0 && i.contains n up down
  if nearerAbove && hit (floor + 1) then some (floor + 1)
  else if hit floor then some floor
  else if hit (floor + 1) then some (floor + 1)
  else none

/-- Tries `steps` powers of ten from `10 ^ p` downwards. -/
def Interval.search (i : Interval) : (steps : Nat) → (p : Int) → Decimal
  | 0, p => ⟨0, p⟩
  | steps + 1, p =>
    match i.multiple? p with
    | some n => ⟨n, p⟩
    | none => i.search steps (p - 1)

/-- The shortest decimal that rounds to `mantissa * 2 ^ exponent`.  A power of ten not far above
the number starts the search, and no double needs more than seventeen digits. -/
def shortest (mantissa : Nat) (exponent : Int) : Decimal :=
  if mantissa = 0 then ⟨0, 0⟩
  else
    let magnitude := (Nat.log2 mantissa + exponent + 1) * 30103 / 100000 + 1
    (Interval.around mantissa exponent).search 24 magnitude

def digitText (n : Nat) : String := String.ofList (Nat.toDigits 10 n)

/-- A number of `places` decimal places, given in units of the last place. -/
def withPlaces (places units : Nat) : String :=
  let ds := Nat.toDigits 10 units
  let padded := List.replicate (places + 1 - ds.length) '0' ++ ds
  String.ofList (padded.take (padded.length - places)) ++ "."
    ++ String.ofList (padded.drop (padded.length - places))

/-- Digits without an exponent: as many zeros as the places need, and no point in a whole
number. -/
def plain (d : Decimal) : String :=
  if 0 ≤ d.exponent then
    digitText d.digits ++ "".pushn '0' (if d.digits = 0 then 0 else d.exponent.toNat)
  else withPlaces (-d.exponent).toNat d.digits

end Decimal

/-- A double as a text without an exponent. -/
def Double.plain : Double → String
  | .nan => "NaN"
  | .infinite negative => if negative then "-inf" else "inf"
  | .finite negative m e => (if negative then "-" else "") ++ (Decimal.shortest m e).plain

end ContractReads
