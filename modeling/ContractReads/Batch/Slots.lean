/-!
# Slots

Results of reads are put into slots, which are numbered.  A slot is empty until it is written; a
later value replaces an earlier one.

Slots are seen through `get?`.  The lemmas below give the slots after one value and after a list
of values: a slot holds the last value written to it, and one that no value is written to stays
as it was.
-/

namespace ContractReads

/-- A row of slots. -/
structure Slots (α : Type) where
  cells : List (Option α)
deriving Inhabited

namespace Slots

variable {α : Type}

/-- As many empty slots. -/
def empty (count : Nat) : Slots α := ⟨List.replicate count none⟩

def size (s : Slots α) : Nat := s.cells.length

def get? (s : Slots α) (i : Nat) : Option α := s.cells[i]?.join

def isSet (s : Slots α) (i : Nat) : Bool := (s.get? i).isSome

def set (s : Slots α) (i : Nat) (a : α) : Slots α := ⟨s.cells.set i (some a)⟩

def clear (s : Slots α) (i : Nat) : Slots α := ⟨s.cells.set i none⟩

/-- Puts values into slots, one after the other. -/
def write (s : Slots α) (writes : List (Nat × α)) : Slots α :=
  writes.foldl (fun s w => s.set w.1 w.2) s

/-! ## What is in a slot -/

@[simp] theorem size_set (s : Slots α) (i : Nat) (a : α) : (s.set i a).size = s.size := by
  simp [size, set]

/-- There is nothing behind the last slot. -/
theorem get?_eq_none_of_size_le {s : Slots α} {k : Nat} (h : s.size ≤ k) : s.get? k = none := by
  simp [get?, List.getElem?_eq_none_iff.2 h]

/-- A value that is written is in its slot. -/
theorem get?_set_self {s : Slots α} {k : Nat} (h : k < s.size) (a : α) :
    (s.set k a).get? k = some a := by
  have hk : k < s.cells.length := h
  simp [get?, set, hk]

/-- A value that is written is in no other slot. -/
theorem get?_set_of_ne (s : Slots α) {i k : Nat} (h : i ≠ k) (a : α) :
    (s.set i a).get? k = s.get? k := by
  simp [get?, set, h]

/-- The slots that a value is written to decide what is in a slot afterwards. -/
theorem get?_set_congr {s t : Slots α} {k : Nat} (hsize : s.size = t.size)
    (h : s.get? k = t.get? k) (i : Nat) (a : α) : (s.set i a).get? k = (t.set i a).get? k := by
  by_cases hik : i = k
  · subst hik
    rcases Nat.lt_or_ge i s.size with hlt | hge
    · rw [get?_set_self hlt, get?_set_self (hsize ▸ hlt)]
    · rw [get?_eq_none_of_size_le (by simpa using hge),
        get?_eq_none_of_size_le (by simpa [← hsize] using hge)]
  · rw [get?_set_of_ne s hik, get?_set_of_ne t hik, h]

@[simp] theorem write_nil (s : Slots α) : s.write [] = s := rfl

@[simp] theorem write_cons (s : Slots α) (x : Nat × α) (xs : List (Nat × α)) :
    s.write (x :: xs) = (s.set x.1 x.2).write xs := rfl

/-- A list of values is written in two parts. -/
theorem write_append (s : Slots α) (xs ys : List (Nat × α)) :
    s.write (xs ++ ys) = (s.write xs).write ys :=
  List.foldl_append

@[simp] theorem size_write (s : Slots α) (xs : List (Nat × α)) : (s.write xs).size = s.size := by
  induction xs generalizing s with
  | nil => rfl
  | cons x xs ih => rw [write_cons, ih, size_set]

/-- A slot that nothing is written to stays as it was. -/
theorem get?_write_of_forall_ne {s : Slots α} {xs : List (Nat × α)} {k : Nat}
    (h : ∀ x ∈ xs, x.1 ≠ k) : (s.write xs).get? k = s.get? k := by
  induction xs generalizing s with
  | nil => rfl
  | cons x xs ih =>
    rw [write_cons, ih fun y hy => h y (List.mem_cons_of_mem x hy)]
    exact get?_set_of_ne s (h x List.mem_cons_self) x.2

/-- A slot holds the last value that was written to it. -/
theorem get?_write_last {s : Slots α} {xs ys : List (Nat × α)} {k : Nat} {a : α}
    (hk : k < s.size) (h : ∀ y ∈ ys, y.1 ≠ k) :
    (s.write (xs ++ (k, a) :: ys)).get? k = some a := by
  rw [write_append, write_cons, get?_write_of_forall_ne h]
  exact get?_set_self (by simpa using hk) a

/-- Values for two slots may be written in either order. -/
theorem set_comm (s : Slots α) {i j : Nat} (h : i ≠ j) (a b : α) :
    (s.set i a).set j b = (s.set j b).set i a := by
  simp only [set, List.set_comm _ _ h]

theorem write_set_comm {s : Slots α} {xs : List (Nat × α)} {i : Nat} (h : ∀ x ∈ xs, x.1 ≠ i)
    (a : α) : (s.set i a).write xs = (s.write xs).set i a := by
  induction xs generalizing s with
  | nil => rfl
  | cons x xs ih =>
    rw [write_cons, write_cons, set_comm s (Ne.symm (h x List.mem_cons_self)),
      ih fun y hy => h y (List.mem_cons_of_mem x hy)]

/-- Lists of values that have no slot in common may be written in either order. -/
theorem write_comm {s : Slots α} {xs ys : List (Nat × α)}
    (h : ∀ x ∈ xs, ∀ y ∈ ys, x.1 ≠ y.1) : (s.write xs).write ys = (s.write ys).write xs := by
  induction ys generalizing s with
  | nil => rfl
  | cons y ys ih =>
    have hy : ∀ x ∈ xs, x.1 ≠ y.1 := fun x hx => h x hx y List.mem_cons_self
    rw [write_cons, write_cons, ← write_set_comm hy,
      ih fun x hx z hz => h x hx z (List.mem_cons_of_mem y hz)]

/-- A row of empty slots behind others, into which values are written in order, where there are
any. -/
theorem write_row (f : Nat → Option α) (count : Nat) (filled : List (Option α)) :
    (⟨filled ++ List.replicate count none⟩ : Slots α).write
        ((List.range' filled.length count).filterMap fun i => (f i).map (i, ·)) =
      ⟨filled ++ (List.range' filled.length count).map f⟩ := by
  induction count generalizing filled with
  | zero => rfl
  | succ count ih =>
    have hrest := ih (filled ++ [f filled.length])
    rw [List.length_append, List.length_singleton, List.append_assoc, List.append_assoc,
      List.singleton_append, List.singleton_append] at hrest
    rw [List.range'_succ, List.filterMap_cons, List.map_cons, List.replicate_succ, ← hrest]
    cases hf : f filled.length with
    | none => rfl
    | some a =>
      have hset : (⟨filled ++ none :: List.replicate count none⟩ : Slots α).set filled.length a =
          ⟨filled ++ some a :: List.replicate count none⟩ := by
        simp [set]
      rw [← hset]
      rfl

end Slots

end ContractReads
