import Mathlib
import ContractReads.Oracle.Participation
import ContractReads.Proofs.CallEncoding

/-!
# What is expected is positive

Members of a window that is not empty are expected to submit, so that their counts are compared with
a positive number: the statistic is the sum that it is named for, and not the zero that stands for
an expectation of nothing.

* `roundWithAccuracy_eq` is the one place where the rounding of doubles is opened: a mantissa with
  enough bits comes to a normal number, whose exponent is known up to one.
* `IsNormal` says so of doubles, with bounds of the exponent.  `isNormal_toFloat`, `IsNormal.mul` and
  `IsNormal.div` are about the operations that the expectation is made of.
* `expectedSubmissions_pos` follows, and from it `chiSquare_eq_sum`.
* `fitProbability_eq_ok_iff` says which value the probability is.

Only the sign of what is expected is used elsewhere; nothing is said about how exact it is.
-/

namespace ContractReads.Oracle

/-! ## Positive numbers -/

section Doubles

open Float.Model Float.Model.UnpackedFloat

/-- A positive normal number; its last place stands for two to an exponent between `lo` and `hi`. -/
def IsNormal (lo hi : Int) (x : Float) : Prop :=
  ∃ m e h, x.toModel.unpack = .finite .positive m e h ∧ m.log2 = 52 ∧ lo ≤ e ∧ e ≤ hi

theorem IsNormal.not_le_zero {lo hi : Int} {x : Float} (h : IsNormal lo hi x) : ¬x ≤ 0 := by
  obtain ⟨m, e, hm, hx, -⟩ := h
  have hzero : (0 : Float).toModel.unpack = .zero .positive := rfl
  intro hle
  have hle : x.toModel.unpack.le (0 : Float).toModel.unpack = true := of_decide_eq_true hle
  rw [hx, hzero] at hle
  cases hle

theorem mantissa_shiftRight (em : ExtendedMantissa) (k : Nat) :
    (em >>> k).mantissa = em.mantissa / 2 ^ k := by
  induction k with
  | zero =>
    rw [Nat.pow_zero, Nat.div_one]
    rfl
  | succ k ih =>
    show (em >>> k).mantissa / 2 = _
    rw [ih, Nat.div_div_eq_div_mul, Nat.pow_succ]

theorem mantissa_ofMantissaAndAccuracy (m : Nat) (a : Accuracy) :
    (ExtendedMantissa.ofMantissaAndAccuracy m a).mantissa = m := by
  rcases a with _ | (_ | _ | _) <;> rfl

theorem roundedMantissa_bounds (em : ExtendedMantissa) :
    em.mantissa ≤ em.roundedMantissa ∧ em.roundedMantissa ≤ em.mantissa + 1 := by
  rcases em with ⟨m, r, s⟩
  cases r <;> cases s <;>
    simp [ExtendedMantissa.roundedMantissa, ExtendedMantissa.accuracy, Accuracy.roundToNearestEven]
  omega

/-- The bits of a number in front of those that do not fit. -/
theorem div_bounds {m : Nat} (hm : 52 ≤ m.log2) :
    2 ^ 52 ≤ m / 2 ^ (m.log2 - 52) ∧ m / 2 ^ (m.log2 - 52) < 2 ^ 53 := by
  have hne : m ≠ 0 := by
    rintro rfl
    simp at hm
  have hlow := Nat.log2_self_le hne
  have hhigh := Nat.lt_log2_self (n := m)
  constructor
  · rw [Nat.le_div_iff_mul_le (Nat.two_pow_pos _), ← Nat.pow_add]
    rwa [Nat.add_sub_cancel' hm]
  · rw [Nat.div_lt_iff_lt_mul (Nat.two_pow_pos _), ← Nat.pow_add]
    rwa [show 53 + (m.log2 - 52) = m.log2 + 1 by omega]

theorem targetExponent_totalExponent {m : Nat} {e : Int} (he : -1074 ≤ e + m.log2 - 52) :
    Format.binary64.targetExponent (totalExponent m e) = e + m.log2 - 52 := by
  simp only [Format.targetExponent, totalExponent, Format.mantissaBits, Format.minExponent]
  omega

theorem shiftToTargetExponent_eq {m : Nat} {e : Int} (a : Accuracy) (hm : 52 ≤ m.log2)
    (he : -1074 ≤ e + m.log2 - 52) :
    shiftToTargetExponent Format.binary64 m e a =
      (ExtendedMantissa.ofMantissaAndAccuracy m a >>> (m.log2 - 52), e + m.log2 - 52) := by
  have hshift : (e + m.log2 - 52 - e).toNat = m.log2 - 52 := by omega
  rw [shiftToTargetExponent, targetExponent_totalExponent he, shiftToExponent, hshift]
  congr 1
  omega

/-- A mantissa with enough bits is rounded to a normal number. -/
theorem roundWithAccuracy_eq {m : Nat} {e : Int} (a : Accuracy) (hm : 52 ≤ m.log2)
    (he : -1074 ≤ e + m.log2 - 52) :
    ∃ k g h, roundWithAccuracy Format.binary64 .positive m e a = .finite .positive k g h ∧
      k.log2 = 52 ∧ e + m.log2 - 52 ≤ g ∧ g ≤ e + m.log2 - 51 := by
  obtain ⟨hlow, hhigh⟩ := div_bounds hm
  obtain ⟨hround, hround'⟩ := roundedMantissa_bounds
    (ExtendedMantissa.ofMantissaAndAccuracy m a >>> (m.log2 - 52))
  rw [mantissa_shiftRight, mantissa_ofMantissaAndAccuracy] at hround hround'
  rw [roundWithAccuracy, shiftToTargetExponent_eq a hm he]
  dsimp only
  generalize (ExtendedMantissa.ofMantissaAndAccuracy m a >>> (m.log2 - 52)).roundedMantissa = r at *
  -- Rounding up may take one more bit, which is shifted out again.
  have hne : r ≠ 0 := by omega
  have hbits : 52 ≤ r.log2 := (Nat.le_log2 hne).2 (by omega)
  have hbits' : r.log2 < 54 := (Nat.log2_lt hne).2 (by omega)
  have hfinal := div_bounds hbits
  rw [shiftToTargetExponent_eq _ hbits (by omega)]
  simp only [mantissa_shiftRight, mantissa_ofMantissaAndAccuracy]
  refine ⟨_, _, Nat.lt_of_lt_of_le (Nat.two_pow_pos 52) hfinal.1, dif_neg (by omega), ?_, ?_, ?_⟩
  · exact (Nat.log2_eq_iff (by omega)).2 hfinal
  · omega
  · omega

theorem toNat_one_append {m : Nat} (hm : m.log2 = 52) : (1#1 ++ BitVec.ofNat 52 m).toNat = m := by
  have hne : m ≠ 0 := by
    rintro rfl
    simp at hm
  obtain ⟨hlow, hhigh⟩ := (Nat.log2_eq_iff hne).1 hm
  have hrest : m % 2 ^ 52 < 2 ^ 52 := Nat.mod_lt m (Nat.two_pow_pos 52)
  rw [BitVec.toNat_append, BitVec.toNat_ofNat, BitVec.toNat_ofNat,
    ← Nat.shiftLeft_add_eq_or_of_lt hrest, Nat.shiftLeft_eq]
  omega

theorem unpackSign_packComponents (s : Sign) (e : BitVec 11) (m : BitVec 52) :
    unpackSign (packComponents Format.binary64 s e m) = s.toBitVec := by
  show (s.toBitVec ++ e ++ m).extractLsb' 63 1 = s.toBitVec
  rw [BitVec.extractLsb'_append_eq_of_le (by decide),
    BitVec.extractLsb'_append_eq_of_le (by decide)]
  cases s <;> rfl

/-- A normal number is packed into its exponent and its mantissa, without the first bit. -/
theorem unpack_pack {m : Nat} {e : Int} (h : 0 < m) (hm : m.log2 = 52) (hlo : -1074 ≤ e)
    (hhi : e ≤ 971) :
    (Float.Model.pack (.finite .positive m e h)).unpack = .finite .positive m e h := by
  let field := BitVec.ofNat 11 (e + 1075).toNat
  have hfield : field.toNat = (e + 1075).toNat := by
    rw [BitVec.toNat_ofNat, Nat.mod_eq_of_lt]
    omega
  have hnotMax : field ≠ -1#11 := by
    intro hmax
    have hmax : field.toNat = 2047 := congrArg BitVec.toNat hmax
    omega
  have hnotZero : field ≠ 0#11 := by
    intro hzero
    have hzero : field.toNat = 0 := congrArg BitVec.toNat hzero
    omega
  have hpack : UnpackedFloat.pack Format.binary64 (.finite .positive m e h) =
      packComponents Format.binary64 .positive field (BitVec.ofNat 52 m) := by
    have hbiased : e + Format.binary64.exponentBias + Format.binary64.mantissaBitsWithoutImplicit =
        e + 1075 := by
      show e + 1023 + 52 = e + 1075
      omega
    have hfits : ¬2 ^ 11 ≤ (e + 1075).toNat + 1 := by omega
    have hnormal : m.log2 + 1 = Format.binary64.mantissaBits := by
      rw [hm]
      rfl
    simp only [UnpackedFloat.pack, hbiased, if_neg hfits, if_pos hnormal]
    rfl
  have hexponent : (field.toNat : Int) - ((1023 : Nat) + 52) = e := by omega
  show UnpackedFloat.unpack Format.binary64 (UnpackedFloat.pack Format.binary64 _) = _
  rw [hpack]
  simp only [UnpackedFloat.unpack, unpackExponent_packComponents, unpackMantissa_packComponents,
    unpackSign_packComponents, if_neg hnotMax, if_neg hnotZero, toNat_one_append hm]
  show UnpackedFloat.finite _ _ ((field.toNat : Int) - ((1023 : Nat) + 52)) _ = _
  simp only [hexponent]
  rfl

/-- What is rounded is a normal number, if its exponent fits. -/
theorem isNormal_of_round {x : Float} {m : Nat} {e lo hi : Int} {a : Accuracy}
    (hx : x.toModel = .pack (roundWithAccuracy Format.binary64 .positive m e a))
    (hm : 52 ≤ m.log2) (hlo : lo ≤ e + m.log2 - 52) (hhi : e + m.log2 - 51 ≤ hi)
    (hlo' : -1074 ≤ lo) (hhi' : hi ≤ 971) : IsNormal lo hi x := by
  obtain ⟨k, g, hk, hround, hlog, hg, hg'⟩ := roundWithAccuracy_eq (e := e) a hm (by omega)
  refine ⟨k, g, hk, ?_, hlog, by omega, by omega⟩
  rw [hx, hround, unpack_pack hk hlog (by omega) (by omega)]

theorem log2_shiftLeft {n : Nat} (hn : n ≠ 0) (shift : Nat) :
    (n <<< shift).log2 = n.log2 + shift := by
  induction shift with
  | zero => rfl
  | succ shift ih =>
    have hne : n <<< shift ≠ 0 := by simpa [Nat.shiftLeft_eq] using hn
    rw [Nat.shiftLeft_succ, Nat.log2_two_mul hne, ih, Nat.add_assoc]

/-- A number is shifted until it has enough bits, or rounded. -/
theorem isNormal_toFloat {n : UInt64} (hn : n ≠ 0) : IsNormal (-52) 12 n.toFloat := by
  let shift := 52 - n.toNat.log2
  have hne : n.toNat ≠ 0 := fun h => hn (UInt64.toNat.inj h)
  have hbits : n.toNat.log2 < 64 := (Nat.log2_lt hne).2 n.toNat_lt
  have hpositive : compare (n.toNat : Int) 0 = .gt := Int.compare_eq_gt.2 (by omega)
  have htarget : (0 - Format.binary64.targetExponent (totalExponent n.toNat 0)).toNat = shift := by
    rw [targetExponent_totalExponent (by omega)]
    omega
  have hlog := log2_shiftLeft hne shift
  have hround : n.toFloat.toModel = .pack (roundWithAccuracy Format.binary64 .positive
      (n.toNat <<< shift) (0 - (shift : Int)) .exact) := by
    rw [UInt64.toFloat, Float.Model.ofUInt64, UnpackedFloat.ofUInt64, UnpackedFloat.ofNat,
      UnpackedFloat.ofInt, UnpackedFloat.normalize, hpositive, Int.toNat_natCast]
    simp only [UnpackedFloat.round, decreaseExponent, htarget]
  exact isNormal_of_round hround (by omega) (by omega) (by omega) (by omega) (by omega)

section Operations

variable {lo hi lo' hi' : Int} {x y : Float}

theorem IsNormal.mul (hx : IsNormal lo hi x) (hy : IsNormal lo' hi' y)
    (hlo : -1074 ≤ lo + lo' + 52) (hhi : hi + hi' + 54 ≤ 971) :
    IsNormal (lo + lo' + 52) (hi + hi' + 54) (x * y) := by
  obtain ⟨m, e, hm, hx, hlog, he, he'⟩ := hx
  obtain ⟨n, f, hn, hy, hlog', hf, hf'⟩ := hy
  obtain ⟨hmlow, hmhigh⟩ := (Nat.log2_eq_iff (by omega)).1 hlog
  obtain ⟨hnlow, hnhigh⟩ := (Nat.log2_eq_iff (by omega)).1 hlog'
  have hlow : 2 ^ 52 * 2 ^ 52 ≤ m * n := Nat.mul_le_mul hmlow hnlow
  have hhigh : m * n < 2 ^ 53 * 2 ^ 53 := Nat.mul_lt_mul_of_lt_of_lt hmhigh hnhigh
  have hne : m * n ≠ 0 := by omega
  have hbits : 104 ≤ (m * n).log2 := (Nat.le_log2 hne).2 hlow
  have hbits' : (m * n).log2 < 106 := (Nat.log2_lt hne).2 hhigh
  have hround : (x * y).toModel =
      .pack (roundWithAccuracy Format.binary64 .positive (m * n) (e + f) .exact) := by
    show Float.Model.pack (UnpackedFloat.mul _ x.toModel.unpack y.toModel.unpack) = _
    rw [hx, hy]
    rfl
  exact isNormal_of_round hround (by omega) (by omega) (by omega) hlo hhi

theorem IsNormal.div (hx : IsNormal lo hi x) (hy : IsNormal lo' hi' y)
    (hlo : -1074 ≤ lo - hi' - 53) (hhi : hi - lo' - 51 ≤ 971) :
    IsNormal (lo - hi' - 53) (hi - lo' - 51) (x / y) := by
  obtain ⟨m, e, hm, hx, hlog, he, he'⟩ := hx
  obtain ⟨n, f, hn, hy, hlog', hf, hf'⟩ := hy
  obtain ⟨hmlow, hmhigh⟩ := (Nat.log2_eq_iff (by omega)).1 hlog
  obtain ⟨hnlow, hnhigh⟩ := (Nat.log2_eq_iff (by omega)).1 hlog'
  have hlow : 2 ^ 52 ≤ m <<< 53 / n := by
    rw [Nat.le_div_iff_mul_le hn, Nat.shiftLeft_eq]
    omega
  have hhigh : m <<< 53 / n < 2 ^ 54 := by
    rw [Nat.div_lt_iff_lt_mul hn, Nat.shiftLeft_eq]
    omega
  have hne : m <<< 53 / n ≠ 0 := by omega
  have hbits : 52 ≤ (m <<< 53 / n).log2 := (Nat.le_log2 hne).2 hlow
  have hbits' : (m <<< 53 / n).log2 < 54 := (Nat.log2_lt hne).2 hhigh
  have htarget : Format.binary64.targetExponent (totalExponent m e - totalExponent n f) =
      e - f - 53 := by
    simp only [Format.targetExponent, totalExponent, Format.mantissaBits, Format.minExponent, hlog,
      hlog']
    omega
  have hmin : min (e - f) (e - f - 53) = e - f - 53 := by omega
  have hshift : (e - f - (e - f - 53)).toNat = 53 := by omega
  have hround : (x / y).toModel = .pack (roundWithAccuracy Format.binary64 .positive (m <<< 53 / n)
      (e - f - 53) (accuracyOfFraction (m <<< 53 % n) n)) := by
    show Float.Model.pack (UnpackedFloat.div _ x.toModel.unpack y.toModel.unpack) = _
    rw [hx, hy]
    simp only [UnpackedFloat.div, divCore, htarget, hmin, hshift]
    rfl
  exact isNormal_of_round hround (by omega) (by omega) (by omega) hlo hhi

theorem IsNormal.zero_mul (hx : IsNormal lo hi x) : 0 * x = 0 := by
  obtain ⟨m, e, hm, hx, -⟩ := hx
  show Float.ofModel (.pack (UnpackedFloat.mul _ (.zero .positive) x.toModel.unpack)) = 0
  rw [hx]
  rfl

theorem IsNormal.zero_div (hx : IsNormal lo hi x) : 0 / x = 0 := by
  obtain ⟨m, e, hm, hx, -⟩ := hx
  show Float.ofModel (.pack (UnpackedFloat.div _ (.zero .positive) x.toModel.unpack)) = 0
  rw [hx]
  rfl

end Operations

end Doubles

/-! ## What is expected -/

section Expected

variable {intervals members : UInt64}

theorem toNat_consensus (members : UInt64) : (consensus members).toNat = members.toNat / 2 + 1 := by
  have hmembers := members.toNat_lt
  rw [consensus, UInt64.toNat_add, UInt64.toNat_div]
  exact Nat.mod_eq_of_lt (by show members.toNat / 2 + 1 < _; omega)

theorem isNormal_consensus (members : UInt64) :
    IsNormal (-52) 12 (consensus members).toFloat := by
  refine isNormal_toFloat ?_
  intro h
  have hzero := toNat_consensus members
  rw [h] at hzero
  cases hzero

/-- Members are expected to submit for the intervals of a window. -/
theorem expectedSubmissions_pos (hintervals : intervals ≠ 0) (hmembers : members ≠ 0) :
    ¬expectedSubmissions intervals members ≤ 0 := by
  have hneeded : IsNormal (-52) 78 (intervals.toFloat * (consensus members).toFloat) :=
    (isNormal_toFloat hintervals).mul (isNormal_consensus members) (by omega) (by omega)
  rw [expectedSubmissions, if_neg hmembers]
  exact (hneeded.div (isNormal_toFloat hmembers) (by omega) (by omega)).not_le_zero

/-- Nothing is expected without intervals. -/
theorem expectedSubmissions_zero (members : UInt64) : expectedSubmissions 0 members = 0 := by
  by_cases hmembers : members = 0
  · rw [expectedSubmissions, if_pos hmembers]
  · have hnothing : (0 : UInt64).toFloat = 0 := rfl
    rw [expectedSubmissions, if_neg hmembers, hnothing, (isNormal_consensus members).zero_mul,
      (isNormal_toFloat hmembers).zero_div]

theorem ofNat_ne_zero {n : Nat} (positive : 0 < n) (bound : n < 2 ^ 64) : UInt64.ofNat n ≠ 0 := by
  intro h
  have hzero : (UInt64.ofNat n).toNat = 0 := congrArg UInt64.toNat h
  rw [UInt64.toNat_ofNat_of_lt' bound] at hzero
  omega

theorem expectedSubmissions_ofNat (intervals : UInt64) {members : Nat} (positive : 0 < members)
    (bound : members < 2 ^ 64) : expectedSubmissions intervals (.ofNat members) =
      intervals.toFloat * (UInt64.ofNat (members / 2 + 1)).toFloat /
        (UInt64.ofNat members).toFloat := by
  have hconsensus : consensus (.ofNat members) = .ofNat (members / 2 + 1) := by
    apply UInt64.toNat.inj
    rw [toNat_consensus, UInt64.toNat_ofNat_of_lt' bound]
    have hfits : members / 2 + 1 < 2 ^ 64 := by omega
    exact (UInt64.toNat_ofNat_of_lt' hfits).symm
  rw [expectedSubmissions, if_neg (ofNat_ne_zero positive bound), hconsensus]

end Expected

/-! ## The statistic and its probability -/

/-- If something is expected, the statistic is the sum of the squared deviations over it. -/
theorem chiSquare_eq_sum (counts : List UInt64) {expected : Float} (h : ¬expected ≤ 0) :
    chiSquare counts expected = (counts.map fun n =>
      (n.toFloat - expected) * (n.toFloat - expected) / expected).foldl (· + ·) 0 := by
  rw [chiSquare, if_neg h, List.foldl_map]

section Probability

variable {special : SpecialFunction} {members : Nat} {chi q : Float}

/-- A single member and a perfect fit are certain; else the special function says how likely the
statistic is. -/
theorem fitProbability_eq_ok_iff : fitProbability special members chi = .ok q ↔
    if members ≤ 1 ∨ chi ≤ 0 then q = 1
    else special ((UInt64.ofNat (members - 1)).toFloat / 2) (chi / 2) = .ok q := by
  unfold fitProbability
  split
  · rw [Except.ok.injEq, eq_comm]
  · exact mapError_eq_ok_iff

theorem exists_fitProbability (succeeds : ∀ a x, ∃ q, special a x = .ok q) (members : Nat)
    (chi : Float) : ∃ q, fitProbability special members chi = .ok q := by
  simp only [fitProbability_eq_ok_iff]
  split
  · exact ⟨1, rfl⟩
  · exact succeeds _ _

end Probability

end ContractReads.Oracle
