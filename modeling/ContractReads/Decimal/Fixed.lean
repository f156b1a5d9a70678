import ContractReads.Decimal.Shortest

/-!
# Decimals of a fixed number of places

`Double.fixed` rounds a double to a number of places; a half goes to the even neighbour.
-/

namespace ContractReads

/-- The whole number nearest to `num / den`; of two, the even one. -/
def roundHalfEven (num den : Nat) : Nat :=
  let q := num / den
  let twice := 2 * (num % den)
  if den < twice || (twice == den && q % 2 == 1) then q + 1 else q

/-- A double rounded to so many places.  Zero has no sign, but what is rounded to zero keeps its. -/
def Double.fixed (places : Nat) : Double → String
  | .nan => "NaN"
  | .infinite negative => if negative then "-inf" else "inf"
  | .finite negative m e =>
    (if negative && m != 0 then "-" else "") ++ Decimal.withPlaces places
      (roundHalfEven ((m * Nat.pow 10 places) <<< e.toNat) (1 <<< (-e).toNat))

end ContractReads
