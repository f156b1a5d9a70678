import Mathlib
import ContractReads.Proofs.SubmissionRows

/-!
# Every multiple has its index

The indices of a window are those of the multiples of its frequency behind the baseline, up to the
block: no two blocks share an index, and no index is left out.

* `isLeast_multiple` and `card_multiples` are about multiples among the natural numbers: which one
  is the first behind a number, and how many lie in a range.
* `Window.Indexes` says how blocks and indices belong together.
* `Window.make_indexes`: the window behind a baseline does so.  All that is needed is room for one
  interval behind the baseline; the block may be any.
-/

namespace ContractReads.Oracle

/-! ## Multiples -/

/-- The first multiple behind a number. -/
theorem isLeast_multiple {f : Nat} (positive : 0 < f) (b : Nat) :
    IsLeast {n | f ∣ n ∧ b < n} ((b / f + 1) * f) := by
  constructor
  · refine ⟨Nat.dvd_mul_left _ _, ?_⟩
    rw [Nat.mul_comm]
    exact Nat.lt_mul_div_succ b positive
  · rintro _ ⟨⟨k, rfl⟩, hlt⟩
    have hquotient : b / f < k := Nat.div_lt_of_lt_mul hlt
    rw [Nat.mul_comm f k]
    exact Nat.mul_le_mul_right f hquotient

/-- The multiples in a range that starts with one of them. -/
theorem card_multiples {f first last : Nat} (positive : 0 < f) (aligned : f ∣ first)
    (h : first ≤ last) :
    ((Finset.Icc first last).filter (f ∣ ·)).card = (last - first) / f + 1 := by
  have himage : (Finset.Icc first last).filter (f ∣ ·) =
      (Finset.range ((last - first) / f + 1)).image fun k => first + k * f := by
    ext n
    simp only [Finset.mem_filter, Finset.mem_Icc, Finset.mem_image, Finset.mem_range,
      Nat.lt_succ_iff, Nat.le_div_iff_mul_le positive]
    constructor
    · rintro ⟨⟨hfirst, hlast⟩, hdvd⟩
      obtain ⟨k, hk⟩ := Nat.dvd_sub hdvd aligned
      rw [Nat.mul_comm] at hk
      exact ⟨k, by omega, by omega⟩
    · rintro ⟨k, hk, rfl⟩
      exact ⟨⟨by omega, by omega⟩, Nat.dvd_add aligned (Nat.dvd_mul_left f k)⟩
  have hinjective : Function.Injective fun k => first + k * f := by
    intro k k' hsame
    exact Nat.eq_of_mul_eq_mul_right positive (Nat.add_left_cancel hsame)
  rw [himage, Finset.card_image_of_injective _ hinjective, Finset.card_range]

namespace Window

open Calculator (markRow length_markRow markRow_eq_foldl markBlock)

/-! ## Indices -/

/-- A window holds the multiples of a frequency that lie behind a baseline, up to a block, each
under an index of its own. -/
structure Indexes (win : Window) (baseline block frequency : UInt64) : Prop where
  frequency_eq : win.frequency = frequency
  /-- The window starts with the first multiple behind the baseline. -/
  start : IsLeast {n | frequency.toNat ∣ n ∧ baseline.toNat < n} win.startBlock.toNat
  /-- The multiples up to the block count, unless the block does not lie behind the first one. -/
  count : win.intervals.toNat = if win.startBlock < block then
    ((Finset.Icc win.startBlock.toNat block.toNat).filter (frequency.toNat ∣ ·)).card else 0
  /-- The block of an index. -/
  index_iff : ∀ s i, win.indexOf? s = some i ↔
    i < win.intervals.toNat ∧ s.toNat = win.startBlock.toNat + i * frequency.toNat
  /-- Different blocks have different indices. -/
  distinct : ∀ s s' i i', win.indexOf? s = some i → win.indexOf? s' = some i' → s ≠ s' → i ≠ i'
  /-- Every index below the number of intervals is that of a block. -/
  hit : ∀ i < win.intervals.toNat, ∃! s, win.indexOf? s = some i
  between : ∀ s i, win.indexOf? s = some i → baseline < s ∧ s ≤ block
  /-- When a row is marked, the blocks that are still to come find their entries in it. -/
  marked : ∀ blocks s i, win.indexOf? s = some i → i < (markRow win blocks).length ∧
    markRow win (blocks ++ [s]) = (markRow win blocks).set i true

/-- The last interval of a window starts at the block or before it. -/
theorem mul_le_of_lt_intervals {start block f intervals i : Nat}
    (hintervals : intervals = if start < block then (block - start) / f + 1 else 0)
    (hi : i < intervals) : start + i * f ≤ block := by
  rw [hintervals] at hi
  split at hi
  · have hle : i * f ≤ (block - start) / f * f := Nat.mul_le_mul_right f (by omega)
    have hquotient : (block - start) / f * f ≤ block - start := Nat.div_mul_le_self _ _
    omega
  · omega

/-- One more block marks its entry. -/
theorem markRow_concat {win : Window} {s : UInt64} {i : Nat} (h : win.indexOf? s = some i)
    (blocks : List UInt64) : markRow win (blocks ++ [s]) = (markRow win blocks).set i true := by
  rw [markRow_eq_foldl, List.foldl_append, ← markRow_eq_foldl, List.foldl_cons, List.foldl_nil,
    markBlock, h]

/-- Behind every baseline that leaves room for one more interval lies a window, and its indices are
those of the multiples up to the block. -/
theorem make_indexes (block : UInt64) {baseline frequency : UInt64} (positive : 1 ≤ frequency)
    (room : baseline.toNat + frequency.toNat < 2 ^ 64) :
    ∃ win, make baseline block frequency = .ok win ∧ win.Indexes baseline block frequency := by
  have hne : frequency ≠ 0 := by
    rintro rfl
    exact absurd positive (by decide)
  have hpositive : 0 < frequency.toNat := Nat.pos_of_ne_zero fun h => hne (UInt64.toNat.inj h)
  obtain ⟨win, hmake, rfl, hstart, hintervals⟩ := make_spec block hne room
  have hleast :
      IsLeast {n | win.frequency.toNat ∣ n ∧ baseline.toNat < n} win.startBlock.toNat := by
    rw [hstart]
    exact isLeast_multiple hpositive baseline.toNat
  obtain ⟨aligned, hbehind⟩ := hleast.1
  have hindex : ∀ s i, win.indexOf? s = some i ↔
      i < win.intervals.toNat ∧ s.toNat = win.startBlock.toNat + i * win.frequency.toNat :=
    fun s i => indexOf?_eq_some_iff hne aligned
  have hlast : ∀ i < win.intervals.toNat,
      win.startBlock.toNat + i * win.frequency.toNat ≤ block.toNat :=
    fun i hi => mul_le_of_lt_intervals hintervals hi
  refine ⟨win, hmake, rfl, hleast, ?_, hindex, ?_, ?_, ?_, ?_⟩
  · -- Both sides count by the distance of the block from the start.
    by_cases hlt : win.startBlock.toNat < block.toNat
    · rw [hintervals, if_pos hlt, if_pos (UInt64.lt_iff_toNat_lt.2 hlt),
        card_multiples hpositive aligned (Nat.le_of_lt hlt)]
    · rw [hintervals, if_neg hlt, if_neg (mt UInt64.lt_iff_toNat_lt.1 hlt)]
  · intro s s' i i' hs hs' hne' hsame
    subst hsame
    rw [hindex] at hs hs'
    exact hne' (UInt64.toNat.inj (hs.2.trans hs'.2.symm))
  · intro i hi
    have hblock : (UInt64.ofNat (win.startBlock.toNat + i * win.frequency.toNat)).toNat =
        win.startBlock.toNat + i * win.frequency.toNat :=
      UInt64.toNat_ofNat_of_lt (Nat.lt_of_le_of_lt (hlast i hi) block.toNat_lt)
    refine ⟨_, (hindex _ i).2 ⟨hi, hblock⟩, fun s hs => ?_⟩
    obtain ⟨-, hs⟩ := (hindex s i).1 hs
    exact UInt64.toNat.inj (hs.trans hblock.symm)
  · intro s i hs
    obtain ⟨hi, hs⟩ := (hindex s i).1 hs
    have hle := hlast i hi
    rw [UInt64.lt_iff_toNat_lt, UInt64.le_iff_toNat_le]
    omega
  · intro blocks s i hs
    rw [length_markRow]
    exact ⟨((hindex s i).1 hs).1, markRow_concat hs blocks⟩

/-- Behind 420, every hundred blocks up to 1050: six blocks from 500 to 1000.  Block 1000 has the
last index, and 1100 has none. -/
theorem make_indexes_six :
    (1 : UInt64) ≤ 100 ∧ (420 : UInt64).toNat + (100 : UInt64).toNat < 2 ^ 64 ∧
    ∃ win, make 420 1050 100 = .ok win ∧ win = ⟨500, 100, 6⟩ ∧ win.Indexes 420 1050 100 ∧
      win.indexOf? 1000 = some 5 ∧ win.indexOf? 1100 = none := by
  have positive : (1 : UInt64) ≤ 100 := by decide
  have room : (420 : UInt64).toNat + (100 : UInt64).toNat < 2 ^ 64 := by decide
  obtain ⟨win, hmake, hindexes⟩ := make_indexes 1050 positive room
  have hwin : win = ⟨500, 100, 6⟩ := Except.ok.inj (hmake.symm.trans rfl)
  refine ⟨positive, room, win, hmake, hwin, hindexes, ?_, ?_⟩
  · exact (hindexes.index_iff 1000 5).2 (by subst hwin; decide)
  · subst hwin
    decide

end Window

end ContractReads.Oracle
