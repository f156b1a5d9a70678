import Mathlib
import ContractReads.Proofs.ShardPartition

/-!
# The ranges of shards

The shards of a plan as a list of ranges, in natural numbers and in numbers of 64 bits.

* `IsPartition` says which lists of ranges divide the items below a total.
* `ShardPlan.getElem?_shards` numbers the shards of a plan, and `ShardPlan.isPartition_shards` is
  about natural numbers, where nothing wraps around.
* `SizedPlan.toNat_count`, `SizedPlan.shard?_eq` and `SizedPlan.ranges_eq` carry plans of 64 bits
  over to natural numbers.  A start that needs more than 64 bits lies behind the total, and no end
  wraps around where the total and the shard size have 64 bits together.
* `SizedPlan.make_partitions` puts these together.
-/

namespace ContractReads

/-- The item lies in the span. -/
def Span.Contains (s : Span) (item : Nat) : Prop := s.start ≤ item ∧ item < s.stop

/-- Ranges that divide the items below a total, with at most `size` of them in one range. -/
structure IsPartition (total size : Nat) (ranges : List Span) : Prop where
  length : ranges.length = total ⌈/⌉ size
  first : ∀ s ∈ ranges.head?, s.start = 0
  adjacent : ranges.IsChain fun s t => t.start = s.stop
  last : ∀ s ∈ ranges.getLast?, s.stop = total
  nonempty : ∀ s ∈ ranges, s.start < s.stop
  short : ∀ s ∈ ranges, s.stop - s.start ≤ size
  full : ∀ s ∈ ranges.dropLast, s.stop - s.start = size
  contains : ∀ item < total, ∀ i, (∃ s, ranges[i]? = some s ∧ s.Contains item) ↔ i = item / size

/-! ## Plans of natural numbers -/

namespace ShardPlan

variable (p : ShardPlan)

theorem shard?_eq_some_iff {i : Nat} {s : Span} : p.shard? i = some s ↔
    i < p.count ∧ s.start = i * p.shardSize ∧
      s.stop = min (i * p.shardSize + p.shardSize) p.total := by
  by_cases hi : i < p.count
  · rw [p.shard?_of_lt hi, Option.some.injEq]
    cases s
    simp [hi, eq_comm]
  · simp [p.shard?_of_le (Nat.le_of_not_lt hi), hi]

theorem shards_eq_map : p.shards = (List.range p.count).map fun i =>
    ⟨i * p.shardSize, min (i * p.shardSize + p.shardSize) p.total⟩ := by
  rw [shards, ← List.filterMap_eq_map]
  refine List.filterMap_congr fun i hi => ?_
  exact p.shard?_of_lt (List.mem_range.1 hi)

theorem length_shards : p.shards.length = p.count := by
  simp [shards_eq_map]

/-- The shard of a number stands at this place of the list. -/
theorem getElem?_shards (i : Nat) : p.shards[i]? = p.shard? i := by
  by_cases hi : i < p.count
  · simp [shards_eq_map, p.shard?_of_lt hi, hi]
  · rw [p.shard?_of_le (Nat.le_of_not_lt hi), List.getElem?_eq_none]
    rw [length_shards]
    omega

theorem mem_shards {s : Span} : s ∈ p.shards ↔ ∃ i, p.shard? i = some s := by
  simp [List.mem_iff_getElem?, getElem?_shards]

/-- Only the last shard may be cut off by the total. -/
theorem add_lt_total {i : Nat} (h : i + 1 < p.count) :
    i * p.shardSize + p.shardSize < p.total := by
  have hnext := p.lt_count_iff.1 h
  rwa [Nat.add_mul, Nat.one_mul] at hnext

/-- The items of a shard are those whose quotient is its number. -/
theorem contains_iff {i item : Nat} (hitem : item < p.total) :
    (∃ s, p.shard? i = some s ∧ s.Contains item) ↔ i = item / p.shardSize := by
  have hpos := p.shardSize_pos
  have hdiv := Nat.div_add_mod item p.shardSize
  have hmod := Nat.mod_lt item hpos
  rw [Nat.mul_comm] at hdiv
  constructor
  · intro h
    obtain ⟨s, hs, hstart, hstop⟩ := h
    obtain ⟨-, hs, hs'⟩ := p.shard?_eq_some_iff.1 hs
    refine (Nat.div_eq_of_lt_le ?_ ?_).symm
    · omega
    · rw [Nat.add_mul, Nat.one_mul]
      omega
  · intro h
    subst h
    have hlt : item / p.shardSize < p.count := p.lt_count_iff.2 (by omega)
    refine ⟨_, p.shard?_of_lt hlt, ?_, ?_⟩
    · show item / p.shardSize * p.shardSize ≤ item
      omega
    · show item < min _ _
      omega

/-- The shards of a plan divide the items below its total. -/
theorem isPartition_shards : IsPartition p.total p.shardSize p.shards where
  length := by
    rw [length_shards, Nat.ceilDiv_eq_add_pred_div]
    rfl
  first s hs := by
    rw [Option.mem_def, List.head?_eq_getElem?, getElem?_shards, shard?_eq_some_iff] at hs
    omega
  adjacent := by
    rw [List.isChain_iff_getElem]
    intro i hi
    have hs := p.shard?_eq_some_iff.1
      ((p.getElem?_shards i).symm.trans (List.getElem?_eq_getElem (by omega)))
    have ht := p.shard?_eq_some_iff.1
      ((p.getElem?_shards (i + 1)).symm.trans (List.getElem?_eq_getElem hi))
    have hnext := p.add_lt_total ht.1
    rw [ht.2.1, hs.2.2, Nat.add_mul, Nat.one_mul]
    omega
  last s hs := by
    rw [Option.mem_def, List.getLast?_eq_getElem?, getElem?_shards, shard?_eq_some_iff,
      length_shards] at hs
    obtain ⟨hlt, -, hstop⟩ := hs
    -- One shard more would start behind the total.
    have hend := p.count_le_iff.1 (Nat.le_refl p.count)
    have hcount : p.count = p.count - 1 + 1 := by omega
    rw [hcount, Nat.add_mul, Nat.one_mul] at hend
    omega
  nonempty s hs := by
    obtain ⟨i, hi⟩ := p.mem_shards.1 hs
    obtain ⟨hlt, hstart, hstop⟩ := p.shard?_eq_some_iff.1 hi
    have hbelow := p.lt_count_iff.1 hlt
    have hpos := p.shardSize_pos
    omega
  short s hs := by
    obtain ⟨i, hi⟩ := p.mem_shards.1 hs
    obtain ⟨-, hstart, hstop⟩ := p.shard?_eq_some_iff.1 hi
    omega
  full s hs := by
    obtain ⟨i, hi⟩ := List.mem_iff_getElem?.1 hs
    rw [List.getElem?_dropLast, length_shards] at hi
    split at hi
    · rename_i hlt
      rw [getElem?_shards, shard?_eq_some_iff] at hi
      have hnext := p.add_lt_total (i := i) (by omega)
      omega
    · cases hi
  contains item hitem i := by
    rw [getElem?_shards]
    exact p.contains_iff hitem

end ShardPlan

/-! ## Plans of 64 bits -/

namespace SizedPlan

variable (p : SizedPlan)

/-- There are as many shards as in natural numbers: one more than the quotient still has 64 bits,
since a remainder needs a shard size of two at least. -/
theorem toNat_count : p.count.toNat = p.plan.count := by
  have hpos : 0 < p.shardSize.toNat := p.plan.shardSize_pos
  have hdiv := Nat.div_add_mod p.total.toNat p.shardSize.toNat
  have hmod := Nat.mod_lt p.total.toNat hpos
  have hbound := p.total.toNat_lt
  rw [Nat.mul_comm] at hdiv
  rw [ShardPlan.count, count, total_plan, shardSize_plan]
  by_cases hrest : p.total % p.shardSize = 0
  · have hzero : p.total.toNat % p.shardSize.toNat = 0 := by
      rw [← UInt64.toNat_mod, hrest]
      rfl
    rw [if_pos hrest, UInt64.toNat_div]
    refine (Nat.div_eq_of_lt_le ?_ ?_).symm
    · omega
    · rw [Nat.add_mul, Nat.one_mul]
      omega
  · have hzero : p.total.toNat % p.shardSize.toNat ≠ 0 := by
      intro h
      exact hrest (UInt64.toNat.inj (by rw [UInt64.toNat_mod, h]; rfl))
    have hhalf : p.total.toNat / p.shardSize.toNat ≤ p.total.toNat / 2 :=
      Nat.div_le_div_left (by omega) (by omega)
    rw [if_neg hrest, UInt64.toNat_add, UInt64.toNat_div, UInt64.toNat_one,
      Nat.mod_eq_of_lt (by omega)]
    refine (Nat.div_eq_of_lt_le ?_ ?_).symm
    · rw [Nat.add_mul, Nat.one_mul]
      omega
    · rw [Nat.add_mul, Nat.add_mul, Nat.one_mul]
      omega

theorem checkedMul_of_lt {a b : UInt64} (h : a.toNat * b.toNat < UInt64.size) :
    ∃ c, checkedMul a b = some c ∧ c.toNat = a.toNat * b.toNat := by
  refine ⟨a * b, if_pos h, ?_⟩
  rw [UInt64.toNat_mul]
  exact Nat.mod_eq_of_lt h

theorem checkedMul_of_le {a b : UInt64} (h : UInt64.size ≤ a.toNat * b.toNat) :
    checkedMul a b = none :=
  if_neg (Nat.not_lt.2 h)

section Room

variable {p} (room : p.total.toNat + p.shardSize.toNat < UInt64.size)

include room

/-- Below the total neither the product nor the sum leaves the 64 bits; a product that does is behind
the total. -/
theorem shard?_eq (index : UInt64) : p.shard? index = p.plan.shard? index.toNat := by
  have hcount := p.plan.lt_count_iff (i := index.toNat)
  rw [total_plan, shardSize_plan] at hcount
  by_cases hindex : index.toNat < p.plan.count
  · have hbelow := hcount.1 hindex
    obtain ⟨start, hmul, hstart⟩ := checkedMul_of_lt (a := index) (b := p.shardSize) (by omega)
    have hnot : ¬p.total ≤ start := by
      rw [UInt64.le_iff_toNat_le]
      omega
    have hend : (start + p.shardSize).toNat = start.toNat + p.shardSize.toNat := by
      rw [UInt64.toNat_add]
      exact Nat.mod_eq_of_lt (lt_trans (by omega) room)
    rw [p.plan.shard?_of_lt hindex, shard?, hmul]
    simp [hnot, hend, hstart]
  · have hbehind : p.total.toNat ≤ index.toNat * p.shardSize.toNat := by omega
    rw [p.plan.shard?_of_le (Nat.le_of_not_lt hindex), shard?]
    by_cases hfits : index.toNat * p.shardSize.toNat < UInt64.size
    · obtain ⟨start, hmul, hstart⟩ := checkedMul_of_lt hfits
      rw [hmul]
      refine if_pos ?_
      rw [UInt64.le_iff_toNat_le]
      omega
    · rw [checkedMul_of_le (Nat.le_of_not_lt hfits)]

theorem ranges_eq : p.ranges = p.plan.shards := by
  rw [ranges, ShardPlan.shards, toNat_count]
  refine List.filterMap_congr fun i hi => ?_
  have hi : i < p.count.toNat := by
    rw [toNat_count]
    exact List.mem_range.1 hi
  have hindex : (UInt64.ofNat i).toNat = i :=
    UInt64.toNat_ofNat_of_lt' (Nat.lt_trans hi p.count.toNat_lt_size)
  rw [shard?_eq room, hindex]

end Room

/-- A plan divides the items into as many ranges as it counts, and gives each range under its number
and nothing under any other. -/
theorem make_partitions {total shardSize : UInt64} (positive : 0 < shardSize)
    (room : total.toNat + shardSize.toNat < UInt64.size) :
    ∃ p, make total shardSize = .ok p ∧ p.ranges.length = p.count.toNat ∧
      IsPartition total.toNat shardSize.toNat p.ranges ∧
      ∀ index : UInt64,
        p.shard? index = if index < p.count then p.ranges[index.toNat]? else none := by
  let p : SizedPlan := ⟨total, shardSize, positive⟩
  have hranges : p.ranges = p.plan.shards := ranges_eq room
  refine ⟨p, dif_pos positive, ?_, ?_, ?_⟩
  · rw [hranges, ShardPlan.length_shards, toNat_count]
  · rw [hranges]
    exact p.plan.isPartition_shards
  · intro index
    rw [shard?_eq room, hranges, ShardPlan.getElem?_shards]
    split
    · rfl
    · rename_i hbehind
      rw [UInt64.lt_iff_toNat_lt, toNat_count] at hbehind
      exact p.plan.shard?_of_le (Nat.le_of_not_lt hbehind)

/-- The largest room there is: the product of the last index and the shard size has far more than 64
bits. -/
theorem make_partitions_widest :
    (0 : UInt64) < 2 ∧ (18446744073709551613 : UInt64).toNat + (2 : UInt64).toNat < UInt64.size ∧
      ∃ p, make 18446744073709551613 2 = .ok p ∧ p.ranges.length = p.count.toNat ∧
        IsPartition (18446744073709551613 : UInt64).toNat (2 : UInt64).toNat p.ranges ∧
        ∀ index : UInt64,
          p.shard? index = if index < p.count then p.ranges[index.toNat]? else none :=
  ⟨by decide, by decide, make_partitions (by decide) (by decide)⟩

/-- The last shard is short, and the start of a shard far behind it would wrap around to the first. -/
example :
    let p : SizedPlan := ⟨10, 4, by decide⟩
    p.ranges = [⟨0, 4⟩, ⟨4, 8⟩, ⟨8, 10⟩] ∧ p.shard? 4611686018427387904 = none := by
  decide

end SizedPlan

end ContractReads
