import ContractReads.Decimal.Shortest
import ContractReads.Error

/-!
# Goodness of fit

`chiSquare` measures how far counts are from what was expected.  `fitProbability` says how likely
a deviation of at least that size is by chance: the regularised upper incomplete gamma function
`Q(a, x)`, where `a` is half the degrees of freedom and `x` half the statistic.
-/

namespace ContractReads.Oracle

/-- The squared deviations over the expectation, summed from the first to the last.  It is zero
if nothing was expected. -/
def chiSquare (actual : List UInt64) (expected : Float) : Float :=
  if expected ≤ 0 then 0
  else
    actual.foldl (fun sum n =>
      let delta := n.toFloat - expected
      sum + delta * delta / expected) 0

/-- A function of two numbers that may have no value. -/
abbrev SpecialFunction := Float → Float → Except ConfigError Float

namespace Gamma

/-- The coefficients of an approximation of the gamma function by a sum of simple fractions. -/
def coefficients : List Float :=
  [1.05142378581721974210, -3.45687097222016235469, 4.51227709466894823700,
    -2.98285225323576655721, 1.05639711577126713077, -1.95428773191645869583e-1,
    1.70970543404441224307e-2, -5.71926117404305781283e-4, 4.63399473359905636708e-6,
    -2.71994908488607703910e-9]

/-- The fractions of the coefficients from the `k`-th on, added to `sum`. -/
def fractions (a : Float) : (k sum : Float) → List Float → Float
  | _, sum, [] => sum
  | k, sum, c :: cs => fractions a (k + 1) (sum + c / (a + k - 1)) cs

/-- The logarithm of the gamma function, for `a` of at least one half. -/
def logGamma (a : Float) : Float :=
  let sum := fractions a 1 2.48574089138753565546e-5 coefficients
  sum.log + 0.6207822376352452223455184457816472122518527279025978
    + (a - 0.5) * ((a - 0.5 + 10.900511) / 2.71828182845904523536).log

/-- The logarithm of `x ^ a * e ^ (-x) / Γ(a)`. -/
def logLeading (a x : Float) : Float := a * x.log - x - logGamma a

/-- The least logarithm of a double that is told from zero. -/
def minLog : Float := -709.78271289338399

/-- Where a sum or a fraction has settled: a step changes it by no more than this part. -/
def tolerance : Float := 1e-15

/-- Arguments up to here count as zero. -/
def smallest : Float := 1.1102230246251565e-15

/-- Steps after which a sum or a fraction is given up; it settles far sooner. -/
def maxSteps : Nat := UInt32.size

/-- The sum of `x ^ n / ((a + 1) ⋯ (a + n))`, from the last divisor and term on. -/
def series (x : Float) : (steps : Nat) → (divisor term sum : Float) → Float
  | 0, _, _, sum => sum
  | steps + 1, divisor, term, sum =>
    let divisor := divisor + 1
    let term := term * (x / divisor)
    let sum := sum + term
    if term / sum ≤ tolerance then sum else series x steps divisor term sum

/-- The lower incomplete gamma function over the whole one, for `x` up to one or up to `a`. -/
def lowerRegular (a x : Float) : Float :=
  if x ≤ smallest then 0
  else
    let leading := logLeading a x
    if leading < minLog then if a < x then 1 else 0
    else leading.exp * series x maxSteps a 1 1 / a

/-- Two successive convergents of a continued fraction. -/
structure Convergents where
  numerator : Float
  denominator : Float
  lastNumerator : Float
  lastDenominator : Float

/-- The convergents one step on, for the partial denominator `z` and the partial numerator `-w`. -/
def Convergents.next (c : Convergents) (z w : Float) : Convergents :=
  ⟨c.numerator * z - c.lastNumerator * w, c.denominator * z - c.lastDenominator * w,
    c.numerator, c.denominator⟩

/-- The same convergents, made smaller where they get large. -/
def Convergents.scaled (c : Convergents) : Convergents :=
  if c.numerator.abs > 4503599627370496 then
    let s := 2.22044604925031308085e-16
    ⟨c.numerator * s, c.denominator * s, c.lastNumerator * s, c.lastDenominator * s⟩
  else c

/-- The value of the continued fraction, from the `n`-th step on.  Its partial denominators grow by
two, its partial numerators are `-n * (n + 1 - a)`; `y` is the second factor one step before. -/
def fraction : (steps : Nat) → (n y z : Float) → Convergents → (value : Float) → Float
  | 0, _, _, _, _, value => value
  | steps + 1, n, y, z, c, value =>
    let y := y + 1
    let z := z + 2
    let c := c.next z (y * n)
    if c.denominator == 0 then fraction steps (n + 1) y z c.scaled value
    else
      let r := c.numerator / c.denominator
      if ((value - r) / r).abs ≤ tolerance then r
      else fraction steps (n + 1) y z c.scaled r

/-- The upper incomplete gamma function over the whole one, for positive finite arguments. -/
def upperRegular (a x : Float) : Float :=
  if x < 1 || x ≤ a then 1 - lowerRegular a x
  else
    let leading := logLeading a x
    if leading < minLog then if a < x then 0 else 1
    else
      let y := 1 - a
      let z := x + y + 1
      let c : Convergents := ⟨x + 1, z * x, 1, x⟩
      fraction maxSteps 1 y z c (c.numerator / c.denominator) * leading.exp

/-- The value at any arguments; there is none at infinity. -/
def upper : SpecialFunction := fun a x =>
  if a.isNaN || x.isNaN then .ok (0 / 0)
  else if a ≤ 0 || a.isInf || x ≤ 0 || x.isInf then
    .error (.undefinedFit (Double.ofBits a.toBits).plain (Double.ofBits x.toBits).plain)
  else .ok (upperRegular a x)

end Gamma

/-- How likely a statistic of at least this size is, for so many members.  A perfect fit is
certain, and so is a single member. -/
def fitProbability (q : SpecialFunction) (members : Nat) (chi : Float) : Except QueryError Float :=
  if members ≤ 1 ∨ chi ≤ 0 then .ok 1
  else (q ((UInt64.ofNat (members - 1)).toFloat / 2) (chi / 2)).mapError .invalidConfig

end ContractReads.Oracle
