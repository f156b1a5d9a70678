import ContractReads.Proofs.Coercion

/-!
# Shapes and widths of fitted values

How far a value that was fitted to a type is as the type declares.  Two things are not looked at
when a value is fitted: how many components a tuple has, and whether signed numbers and byte
strings of a fixed length are inside the width that they are tagged with.

* `Coerces.hasShape_iff`: a fitted value has the declared shape if all tuples had the declared
  number of components before.  `coerce_hasShape_iff` says the same of calls.
* `Coerces.inWidth_of_isUnsigned` and `Coerces.inWidths_iff`: unsigned numbers are inside their widths then,
  everything is if the signed numbers and byte strings are.  `coerce_inWidths_iff` says the same of
  calls.
-/

namespace ContractReads

namespace AbiValue

/-! ## Shapes -/

/-- A value is tagged with the width of its type. -/
def SameWidth : AbiType → AbiValue → Prop
  | .uint bits, .uint _ tag | .int bits, .int _ tag | .fixedBytes bits, .fixedBytes _ tag =>
    tag = bits
  | _, _ => True

/-- A value is just as its type declares: at every place of the same kind, with the declared number
of elements and components, and tagged with the declared width. -/
def HasShape : AbiType → AbiValue → Prop := Throughout fun t v => SameKind t v ∧ SameWidth t v

/-- A tuple has as many components as its type. -/
def SameArity : AbiType → AbiValue → Prop
  | .tuple ts, .tuple vs => ts.length = vs.length
  | _, _ => True

/-- All tuples inside a value have as many components as their types. -/
def Aligned : AbiType → AbiValue → Prop := Throughout SameArity

theorem throughoutEach_map {α : Type} {p : AbiType → AbiValue → Prop} {f : α → AbiType}
    {g : α → AbiValue} (xs : List α) :
    ThroughoutEach p (xs.map f) (xs.map g) ↔ ∀ x ∈ xs, Throughout p (f x) (g x) := by
  induction xs with
  | nil => simp [ThroughoutEach]
  | cons x xs ih => rw [List.map_cons, List.map_cons, ThroughoutEach, ih, List.forall_mem_cons]

/-- A fitted value has the declared shape if and only if there were as many components in all tuples
as declared. -/
theorem Coerces.hasShape_iff {t : AbiType} {v w : AbiValue} (h : Coerces t v w) :
    HasShape t w ↔ Aligned t v := by
  induction h with
  | bool | uint | int | fixedBytes | address | function | bytes | string =>
    simp [HasShape, Aligned, Throughout, SameKind, SameWidth, SameArity]
  | array each ih | fixedArray each ih =>
    simp only [HasShape, Aligned, Throughout, SameKind, SameWidth, SameArity, List.forall_mem_map,
      List.length_map, true_and]
    exact forall₂_congr ih
  | tuple each ih =>
    simp only [HasShape, Aligned, Throughout, SameKind, SameWidth, SameArity, throughoutEach_map,
      List.length_map, true_and]
    exact forall₂_congr ih
  | otherArity arity fits =>
    simp [HasShape, Aligned, Throughout, SameKind, SameArity, arity]

/-! ## Widths -/

mutual

/-- The values at all places inside a value that have no others inside. -/
def leaves : AbiValue → List AbiValue
  | array vs | fixedArray vs | tuple vs => leavesAll vs
  | v => [v]

def leavesAll : List AbiValue → List AbiValue
  | [] => []
  | v :: vs => v.leaves ++ leavesAll vs

end

theorem leavesAll_eq_flatMap (vs : List AbiValue) : leavesAll vs = vs.flatMap leaves := by
  induction vs with
  | nil => rfl
  | cons v vs ih => rw [leavesAll, ih, List.flatMap_cons]

/-- A number is inside the width that it is tagged with, a byte string has zeros behind its end. -/
def InWidth : AbiValue → Prop
  | uint v bits => v.toNat < 2 ^ bits
  | int v bits => -2 ^ (bits - 1) ≤ v.toInt ∧ v.toInt < 2 ^ (bits - 1)
  | fixedBytes w size => ∀ b ∈ w.toBytes.drop size, b = 0
  | _ => True

/-- All numbers and byte strings inside a value are inside their widths. -/
def InWidths (v : AbiValue) : Prop := ∀ leaf ∈ v.leaves, leaf.InWidth

def isUnsigned : AbiValue → Bool
  | uint _ _ => true
  | _ => false

theorem forall_leavesAll {p : AbiValue → Prop} {vs : List AbiValue} :
    (∀ leaf ∈ leavesAll vs, p leaf) ↔ ∀ v ∈ vs, ∀ leaf ∈ v.leaves, p leaf := by
  rw [leavesAll_eq_flatMap, List.forall_mem_flatMap]

/-- A signed number or a byte string of a fixed length is inside the width of its type. -/
def SignedFits : AbiType → AbiValue → Prop
  | .int bits, .int v _ => (int v bits).InWidth
  | .fixedBytes size, .fixedBytes w _ => (fixedBytes w size).InWidth
  | _, _ => True

/-- A number of at most 256 bits is inside its width if it is below the bound that is checked. -/
theorem inWidth_uint {bits : Nat} {v : BitVec 256} (fits : bits < 256 → v.toNat < 2 ^ bits) :
    (uint v bits).InWidth := by
  by_cases hbits : bits < 256
  · exact fits hbits
  · exact v.isLt.trans_le (Nat.pow_le_pow_right (by decide) (Nat.le_of_not_lt hbits))

/-- All unsigned numbers in a fitted value are inside their widths. -/
theorem Coerces.inWidth_of_isUnsigned {t : AbiType} {v w : AbiValue} (h : Coerces t v w)
    (aligned : Aligned t v) : ∀ leaf ∈ w.leaves, leaf.isUnsigned = true → leaf.InWidth := by
  induction h with
  | bool | int | fixedBytes | address | function | bytes | string => simp [leaves, isUnsigned]
  | uint tag fits => simp [leaves, inWidth_uint fits]
  | array each ih | fixedArray each ih =>
    simp only [Aligned, Throughout, List.forall_mem_map] at aligned
    simp only [leaves, forall_leavesAll, List.forall_mem_map]
    exact fun x hx => ih x hx (aligned.2 x hx)
  | tuple each ih =>
    simp only [Aligned, Throughout, throughoutEach_map] at aligned
    simp only [leaves, forall_leavesAll, List.forall_mem_map]
    exact fun x hx => ih x hx (aligned.2 x hx)
  | otherArity arity fits => exact absurd aligned.1 arity

/-- Everything in a fitted value is inside its width if and only if the signed numbers and the byte
strings were inside the widths of their types. -/
theorem Coerces.inWidths_iff {t : AbiType} {v w : AbiValue} (h : Coerces t v w)
    (aligned : Aligned t v) : w.InWidths ↔ Throughout SignedFits t v := by
  induction h with
  | bool | int | fixedBytes | address | function | bytes | string =>
    simp [InWidths, leaves, InWidth, Throughout, SignedFits]
  | uint tag fits =>
    simp [InWidths, leaves, Throughout, SignedFits, inWidth_uint fits]
  | array each ih | fixedArray each ih =>
    simp only [Aligned, Throughout, List.forall_mem_map] at aligned
    simp only [InWidths, leaves, forall_leavesAll, List.forall_mem_map, Throughout, SignedFits,
      true_and]
    exact forall₂_congr fun x hx => ih x hx (aligned.2 x hx)
  | tuple each ih =>
    simp only [Aligned, Throughout, throughoutEach_map] at aligned
    simp only [InWidths, leaves, forall_leavesAll, List.forall_mem_map, Throughout, SignedFits,
      throughoutEach_map, true_and]
    exact forall₂_congr fun x hx => ih x hx (aligned.2 x hx)
  | otherArity arity fits => exact absurd aligned.1 arity

end AbiValue

/-! ## Calls -/

/-- An argument of a call: the type that the method declares, what is given for it and what is sent
in its place. -/
structure Argument where
  type : AbiType
  given : AbiValue
  sent : AbiValue

namespace Contract

open AbiValue

/-- A call sends its arguments as they are fitted to the types that the method declares. -/
def Sends (c : Contract) (method : String) (args : List AbiValue) (data : Bytes)
    (as : List Argument) : Prop :=
  ∃ f, c.function method args.length = .ok f ∧
    Param.types f.inputs = .ok (as.map Argument.type) ∧ args = as.map Argument.given ∧
    data = f.selector ++ encodeParams (as.map Argument.sent)

/-- What is sent for an argument is a result of fitting it. -/
theorem exists_sends {c : Contract} {method : String} {args : List AbiValue} {data : Bytes}
    (h : c.encodeCall method args = .ok data) :
    ∃ as, c.Sends method args data as ∧ ∀ a ∈ as, Coerces a.type a.given a.sent := by
  obtain ⟨f, types, values, hf, htypes, arity, fitted, rfl⟩ := encodeCall_eq_ok h
  obtain ⟨xs, hpairs, rfl, each⟩ := exists_pairs fitted
  let as : List Argument := xs.map fun x => ⟨x.1.1, x.1.2, x.2⟩
  have htype : as.map Argument.type = types := by
    have hfst := List.map_fst_zip (Nat.le_of_eq arity)
    rw [← hpairs, List.map_map] at hfst
    rw [← hfst, List.map_map]
    rfl
  have hgiven : as.map Argument.given = args := by
    have hsnd := List.map_snd_zip (Nat.le_of_eq arity.symm)
    rw [← hpairs, List.map_map] at hsnd
    rw [← hsnd, List.map_map]
    rfl
  have hsent : as.map Argument.sent = xs.map Prod.snd := List.map_map
  refine ⟨as, ⟨f, hf, by rw [htype, htypes], hgiven.symm, by rw [hsent]⟩, ?_⟩
  exact List.forall_mem_map.2 fun x hx => coerce_eq_ok_iff.1 (each x hx)

/-- A fitted value has the shape that its type declares, at every depth, if and only if all tuples
in the value had as many components as declared.  In particular a call sends a tuple of another
number of components than the method declares only for such a tuple among its arguments. -/
theorem coerce_hasShape_iff (t : AbiType) (v : AbiValue) (c : Contract) (method : String)
    (args : List AbiValue) :
    (∀ w, coerce t v = .ok w → (HasShape t w ↔ Aligned t v)) ∧
    ∀ data, c.encodeCall method args = .ok data →
      ∃ as, c.Sends method args data as ∧
        ∀ a ∈ as, (HasShape a.type a.sent ↔ Aligned a.type a.given) := by
  refine ⟨fun w h => (coerce_eq_ok_iff.1 h).hasShape_iff, fun data h => ?_⟩
  obtain ⟨as, hsends, each⟩ := exists_sends h
  exact ⟨as, hsends, fun a ha => (each a ha).hasShape_iff⟩

/-- A pair of a number and a flag, the number tagged with a width. -/
def numberAndFlag (bits : Nat) : AbiValue := .tuple [.uint 7 bits, .bool true]

theorem aligned_numberAndFlag (bits : Nat) :
    Aligned (.tuple [.uint 8, .bool]) (numberAndFlag bits) := by
  simp [Aligned, numberAndFlag, Throughout, ThroughoutEach, SameArity]

theorem ofText_numberAndFlag :
    AbiType.ofText? "(uint8,bool)" = some (.tuple [.uint 8, .bool]) := by cbv

/-- A call of `taker` has one argument, of the type that the method declares. -/
theorem eq_singleton_of_sends {text : String} {t : AbiType} {v : AbiValue} {data : Bytes}
    {as : List Argument} (htext : AbiType.ofText? text = some t)
    (h : (taker text).Sends "f" [v] data as) : ∃ w, as = [⟨t, v, w⟩] := by
  obtain ⟨f, hf, htypes, hgiven, -⟩ := h
  rw [List.length_singleton, function_taker] at hf
  cases hf
  rw [types_taker htext, Except.ok.injEq] at htypes
  obtain ⟨⟨_, _, w⟩, rfl, rfl⟩ := List.map_eq_singleton_iff.1 htypes.symm
  cases hgiven
  exact ⟨w, rfl⟩

theorem coerce_hasShape_numberAndFlag :
    HasShape (.tuple [.uint 8, .bool]) (numberAndFlag 8) ∧
      ∃ data as, (taker "(uint8,bool)").Sends "f" [numberAndFlag 256] data as ∧
        ∀ a ∈ as, HasShape a.type a.sent := by
  have hcoerce : coerce (.tuple [.uint 8, .bool]) (numberAndFlag 256) = .ok (numberAndFlag 8) := rfl
  obtain ⟨hfitted, hcall⟩ := coerce_hasShape_iff (.tuple [.uint 8, .bool]) (numberAndFlag 256)
    (taker "(uint8,bool)") "f" [numberAndFlag 256]
  refine ⟨(hfitted _ hcoerce).2 (aligned_numberAndFlag 256), ?_⟩
  obtain ⟨as, hsends, hshape⟩ := hcall _ (encodeCall_taker ofText_numberAndFlag hcoerce)
  obtain ⟨w, rfl⟩ := eq_singleton_of_sends ofText_numberAndFlag hsends
  rw [List.forall_mem_singleton] at hshape
  exact ⟨_, _, hsends, List.forall_mem_singleton.2 (hshape.2 (aligned_numberAndFlag 256))⟩

/-- Not every fitted value has the shape that its type declares.  A tuple of one number is taken for
a pair of a number and a flag, if it is tagged with the right width, and a call sends it. -/
theorem not_coerce_hasShape :
    ¬(∀ t v w, coerce t v = .ok w → HasShape t w) ∧
      (taker "(uint8,bool)").encodeCall "f" [.tuple [.uint 7 8]] =
        .ok (Function.selector ⟨"f", [⟨"a", "(uint8,bool)", []⟩], []⟩ ++
          encodeParams [.tuple [.uint 7 8]]) := by
  have hcoerce : coerce (.tuple [.uint 8, .bool]) (.tuple [.uint 7 8]) = .ok (.tuple [.uint 7 8]) :=
    rfl
  refine ⟨fun h => ?_, encodeCall_taker ofText_numberAndFlag hcoerce⟩
  have arity := (h _ _ _ hcoerce).1.1
  simp [SameKind] at arity

/-- If all tuples in a value have as many components as declared, then all unsigned numbers in the
fitted value are inside their widths, and all numbers and byte strings are if and only if the signed
numbers and the byte strings of fixed lengths were inside the declared widths before.  The same is
true of what a call sends for each argument. -/
theorem coerce_inWidths_iff (t : AbiType) (v : AbiValue) (c : Contract) (method : String)
    (args : List AbiValue) :
    (∀ w, coerce t v = .ok w → Aligned t v →
      (∀ leaf ∈ w.leaves, leaf.isUnsigned = true → leaf.InWidth) ∧
      (w.InWidths ↔ Throughout SignedFits t v)) ∧
    ∀ data, c.encodeCall method args = .ok data →
      ∃ as, c.Sends method args data as ∧
        ∀ a ∈ as, Aligned a.type a.given →
          (∀ leaf ∈ a.sent.leaves, leaf.isUnsigned = true → leaf.InWidth) ∧
          (a.sent.InWidths ↔ Throughout SignedFits a.type a.given) := by
  have hcoerces : ∀ {t v w}, Coerces t v w → Aligned t v →
      (∀ leaf ∈ w.leaves, leaf.isUnsigned = true → leaf.InWidth) ∧
      (w.InWidths ↔ Throughout SignedFits t v) := fun h aligned =>
    ⟨h.inWidth_of_isUnsigned aligned, h.inWidths_iff aligned⟩
  refine ⟨fun w h => hcoerces (coerce_eq_ok_iff.1 h), fun data h => ?_⟩
  obtain ⟨as, hsends, each⟩ := exists_sends h
  exact ⟨as, hsends, fun a ha => hcoerces (each a ha)⟩

theorem coerce_inWidths_numberAndFlag :
    (numberAndFlag 8).InWidths ∧
      ∃ data as, (taker "(uint8,bool)").Sends "f" [numberAndFlag 256] data as ∧
        ∀ a ∈ as, a.sent.InWidths := by
  have hcoerce : coerce (.tuple [.uint 8, .bool]) (numberAndFlag 256) = .ok (numberAndFlag 8) := rfl
  have hsigned : Throughout SignedFits (.tuple [.uint 8, .bool]) (numberAndFlag 256) := by
    simp [numberAndFlag, Throughout, ThroughoutEach, SignedFits]
  obtain ⟨hfitted, hcall⟩ := coerce_inWidths_iff (.tuple [.uint 8, .bool]) (numberAndFlag 256)
    (taker "(uint8,bool)") "f" [numberAndFlag 256]
  refine ⟨(hfitted _ hcoerce (aligned_numberAndFlag 256)).2.2 hsigned, ?_⟩
  obtain ⟨as, hsends, hwidths⟩ := hcall _ (encodeCall_taker ofText_numberAndFlag hcoerce)
  obtain ⟨w, rfl⟩ := eq_singleton_of_sends ofText_numberAndFlag hsends
  rw [List.forall_mem_singleton] at hwidths
  exact ⟨_, _, hsends,
    List.forall_mem_singleton.2 ((hwidths (aligned_numberAndFlag 256)).2.2 hsigned)⟩

/-- Not everything in a fitted value is inside its width.  A signed number is tagged with one byte
that needs two, and a byte string of five bytes is tagged with four. -/
theorem not_coerce_inWidths :
    ¬(∀ t v w, coerce t v = .ok w → w.InWidths) ∧
      ¬InWidths (.int (.ofInt 256 (-129)) 8) ∧ ¬InWidths (.fixedBytes (.ofNat 32 (2 ^ 216)) 4) ∧
      coerce (.int 8) (.int (.ofInt 256 (-129)) 256) = .ok (.int (.ofInt 256 (-129)) 8) ∧
      coerce (.fixedBytes 4) (.fixedBytes (.ofNat 32 (2 ^ 216)) 32) =
        .ok (.fixedBytes (.ofNat 32 (2 ^ 216)) 4) := by
  have hint : ¬InWidths (.int (.ofInt 256 (-129)) 8) := by
    simp [InWidths, leaves, InWidth]
  have hbytes : ¬InWidths (.fixedBytes (.ofNat 32 (2 ^ 216)) 4) := by
    simp only [InWidths, leaves, InWidth, List.forall_mem_singleton]
    decide
  exact ⟨fun h => hint (h (.int 8) (.int _ 256) _ rfl), hint, hbytes, rfl, rfl⟩

end Contract

end ContractReads
