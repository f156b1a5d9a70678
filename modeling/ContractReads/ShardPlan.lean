import ContractReads.Error

/-!
# Shards

A `ShardPlan` divides the items below a total into contiguous shards of at most a given size.
Shard `i` starts at `i` times the size; only the last one may be shorter.

A `SizedPlan` is a plan whose numbers have 64 bits, and so have the numbers that its shards are
computed with.
-/

namespace ContractReads

/-- The items from `start` up to, but not including, `stop`. -/
structure Span where
  start : Nat
  stop : Nat
deriving DecidableEq, Repr

/-- The items of a span in order. -/
def Span.items (s : Span) : List Nat := List.range' s.start (s.stop - s.start)

/-- A division of the items below `total` into shards. -/
structure ShardPlan where
  total : Nat
  shardSize : Nat
  shardSize_pos : 0 < shardSize

namespace ShardPlan

/-- A plan whose shards hold at least one item. -/
def make (total shardSize : Nat) : Except QueryError ShardPlan :=
  if h : 0 < shardSize then .ok ⟨total, shardSize, h⟩
  else .error (.invalidConfig (.belowOne "shard size"))

def count (p : ShardPlan) : Nat := (p.total + p.shardSize - 1) / p.shardSize

/-- The items of a shard; nothing behind the last shard. -/
def shard? (p : ShardPlan) (index : Nat) : Option Span :=
  let start := index * p.shardSize
  if p.total ≤ start then none else some ⟨start, min (start + p.shardSize) p.total⟩

/-- The items of a shard in order. -/
def items (p : ShardPlan) (index : Nat) : List Nat := ((p.shard? index).map Span.items).getD []

/-- The first item of a shard. -/
def firstItem (p : ShardPlan) (index : Nat) : Nat := ((p.shard? index).map Span.start).getD p.total

/-- The spans of every shard, in order. -/
def shards (p : ShardPlan) : List Span := (List.range p.count).filterMap p.shard?

end ShardPlan

/-- A division of the items below `total` into shards, in numbers of 64 bits. -/
structure SizedPlan where
  total : UInt64
  shardSize : UInt64
  shardSize_pos : 0 < shardSize

namespace SizedPlan

/-- A plan whose shards hold at least one item. -/
def make (total shardSize : UInt64) : Except QueryError SizedPlan :=
  if h : 0 < shardSize then .ok ⟨total, shardSize, h⟩
  else .error (.invalidConfig (.belowOne "shard size"))

/-- The same plan in natural numbers. -/
def plan (p : SizedPlan) : ShardPlan :=
  ⟨p.total.toNat, p.shardSize.toNat, UInt64.lt_iff_toNat_lt.1 p.shardSize_pos⟩

@[simp]
theorem total_plan (p : SizedPlan) : p.plan.total = p.total.toNat := rfl

@[simp]
theorem shardSize_plan (p : SizedPlan) : p.plan.shardSize = p.shardSize.toNat := rfl

/-- How many shards there are: one more than the quotient if there is a remainder. -/
def count (p : SizedPlan) : UInt64 :=
  if p.total % p.shardSize = 0 then p.total / p.shardSize else p.total / p.shardSize + 1

def isEmpty (p : SizedPlan) : Bool := p.total == 0

/-- A product, if it has 64 bits. -/
def checkedMul (a b : UInt64) : Option UInt64 :=
  if a.toNat * b.toNat < UInt64.size then some (a * b) else none

/-- The items of a shard; nothing behind the last shard, where a start that needs more than 64 bits
lies too.  The end of a shard wraps around. -/
def shard? (p : SizedPlan) (index : UInt64) : Option Span :=
  match checkedMul index p.shardSize with
  | none => none
  | some start =>
    if p.total ≤ start then none
    else some ⟨start.toNat, min (start + p.shardSize).toNat p.total.toNat⟩

/-- The spans of the shards in order, as far as there are any. -/
def ranges (p : SizedPlan) : List Span :=
  (List.range p.count.toNat).filterMap fun i => p.shard? (UInt64.ofNat i)

end SizedPlan

end ContractReads
