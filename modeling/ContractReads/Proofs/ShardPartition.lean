import Mathlib.Data.List.Basic
import ContractReads.ShardPlan

/-!
# Shards are a partition

The items of the shards of a plan, one shard after the other, are all items in order, and a shard
starts where those before it end.  `flatMap_range_split` takes one shard out of a list that is put
together shard by shard, and `flatMap_range_of_ne` says what is left when that shard changes.
-/

namespace ContractReads

/-- A list put together from parts, seen from one of the parts. -/
theorem flatMap_range_split {β : Type} (f : Nat → List β) {i n : Nat} (h : i < n) :
    (List.range n).flatMap f =
      (List.range i).flatMap f ++ f i ++ (List.range' (i + 1) (n - i - 1)).flatMap f := by
  have hn : n = i + (1 + (n - i - 1)) := by omega
  have hrange : List.range n = List.range i ++ i :: List.range' (i + 1) (n - i - 1) := by
    conv => lhs; rw [hn]
    rw [List.range_eq_range', List.range_eq_range', ← List.range'_append_1, Nat.zero_add,
      Nat.add_comm 1, List.range'_succ]
  rw [hrange, List.flatMap_append, List.flatMap_cons, List.append_assoc]

/-- When one part changes, the parts in front of it and behind it stay. -/
theorem flatMap_range_of_ne {β : Type} {f g : Nat → List β} {i n : Nat} (h : i < n)
    (hother : ∀ j, j ≠ i → g j = f j) :
    (List.range n).flatMap g =
      (List.range i).flatMap f ++ g i ++ (List.range' (i + 1) (n - i - 1)).flatMap f := by
  have hbefore : (List.range i).flatMap g = (List.range i).flatMap f := by
    refine List.flatMap_congr fun j hj => hother j ?_
    have := List.mem_range.1 hj
    omega
  have hbehind : (List.range' (i + 1) (n - i - 1)).flatMap g =
      (List.range' (i + 1) (n - i - 1)).flatMap f := by
    refine List.flatMap_congr fun j hj => hother j ?_
    have := List.mem_range'_1.1 hj
    omega
  rw [flatMap_range_split g h, hbefore, hbehind]

namespace ShardPlan

variable (p : ShardPlan)

/-- A shard is one of the plan if it starts below the total. -/
theorem lt_count_iff {i : Nat} : i < p.count ↔ i * p.shardSize < p.total := by
  have hpos := p.shardSize_pos
  rw [count, Nat.lt_iff_add_one_le, Nat.le_div_iff_mul_le hpos, Nat.add_mul, Nat.one_mul]
  omega

theorem count_le_iff {i : Nat} : p.count ≤ i ↔ p.total ≤ i * p.shardSize := by
  rw [← Nat.not_lt, lt_count_iff, Nat.not_lt]

theorem shard?_of_le {i : Nat} (h : p.count ≤ i) : p.shard? i = none :=
  if_pos (p.count_le_iff.1 h)

theorem shard?_of_lt {i : Nat} (h : i < p.count) :
    p.shard? i =
      some ⟨i * p.shardSize, min (i * p.shardSize + p.shardSize) p.total⟩ := by
  have hlt := p.lt_count_iff.1 h
  simp [shard?, Nat.not_le.2 hlt]

theorem firstItem_of_lt {i : Nat} (h : i < p.count) : p.firstItem i = i * p.shardSize := by
  rw [firstItem, shard?_of_lt p h]
  rfl

theorem items_of_lt {i : Nat} (h : i < p.count) :
    p.items i = List.range' (i * p.shardSize)
      (min (i * p.shardSize + p.shardSize) p.total - i * p.shardSize) := by
  rw [items, shard?_of_lt p h]
  rfl

/-- A shard has at most as many items as it may. -/
theorem length_items_le {i : Nat} (h : i < p.count) : (p.items i).length ≤ p.shardSize := by
  rw [items_of_lt p h, List.length_range']
  omega

/-- The items of the first shards are the first items. -/
theorem flatMap_items_of_le {n : Nat} (h : n ≤ p.count) :
    (List.range n).flatMap p.items = List.range (min (n * p.shardSize) p.total) := by
  induction n with
  | zero => simp
  | succ n ih =>
    have hn : n < p.count := h
    have hlt := p.lt_count_iff.1 hn
    rw [List.range_succ, List.flatMap_append, ih (Nat.le_of_lt hn), List.flatMap_singleton,
      items_of_lt p hn, Nat.add_mul, Nat.one_mul, Nat.min_eq_left (Nat.le_of_lt hlt),
      List.range_eq_range', List.range_eq_range']
    have hsplit : min (n * p.shardSize + p.shardSize) p.total =
        n * p.shardSize + (min (n * p.shardSize + p.shardSize) p.total - n * p.shardSize) := by
      omega
    conv => rhs; rw [hsplit, ← List.range'_append_1, Nat.zero_add]

/-- Shard by shard, the items are all items in order. -/
theorem flatMap_items : (List.range p.count).flatMap p.items = List.range p.total := by
  have hall := p.count_le_iff.1 (Nat.le_refl p.count)
  rw [flatMap_items_of_le p (Nat.le_refl _), Nat.min_eq_right hall]

/-- A shard has no items behind the last one. -/
theorem lt_total_of_mem_items {i item : Nat} (h : i < p.count) (hitem : item ∈ p.items i) :
    item < p.total := by
  rw [← List.mem_range, ← flatMap_items, List.mem_flatMap]
  exact ⟨i, List.mem_range.2 h, hitem⟩

/-- A shard starts where those before it end. -/
theorem length_flatMap_items {i : Nat} (h : i < p.count) :
    ((List.range i).flatMap p.items).length = p.firstItem i := by
  have hlt := p.lt_count_iff.1 h
  rw [flatMap_items_of_le p (Nat.le_of_lt h), firstItem_of_lt p h, List.length_range]
  omega

end ShardPlan

end ContractReads
