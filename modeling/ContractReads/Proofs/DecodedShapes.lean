import ContractReads.Contract.Basic
import ContractReads.Proofs.DeclaredShapes

/-!
# Shapes of decoded values

Whatever the data holds, values that are decoded from it are just as their types declare
(`AbiValue.HasShape`).

* `Cursor.within_eq_ok` and `Cursor.repeated_eq_ok` take the reading of composite values apart.
* `Cursor.hasShape_value` is the induction on types.
* `decodeData_hasShape` is about parameter lists.
-/

namespace ContractReads

open AbiValue

namespace Abi.Cursor

variable {room : Nat}

/-- What is read as a composite is read from some cursor. -/
theorem within_eq_ok {α : Type} {dynamic : Bool}
    {read : Cursor → Except DecodeError (α × Cursor)} {c c' : Cursor} {a : α}
    (h : c.within dynamic read = .ok (a, c')) : ∃ child rest, read child = .ok (a, rest) := by
  cases dynamic with
  | true =>
    obtain ⟨⟨child, _⟩, -, h⟩ := bind_eq_ok_iff.1 h
    obtain ⟨⟨a, rest⟩, hread, h⟩ := bind_eq_ok_iff.1 h
    cases h
    exact ⟨child, rest, hread⟩
  | false =>
    obtain ⟨child, -, h⟩ := bind_eq_ok_iff.1 h
    obtain ⟨⟨a, rest⟩, hread, h⟩ := bind_eq_ok_iff.1 h
    cases h
    exact ⟨child, rest, hread⟩

theorem repeatedFrom_eq_ok {read : Cursor → Except DecodeError (AbiValue × Cursor)} {n : Nat}
    {before vs : List AbiValue} {c c' : Cursor}
    (h : repeatedFrom read n before c = .ok (vs, c')) :
    ∃ read', vs = before.reverse ++ read' ∧ read'.length = n ∧
      ∀ v ∈ read', ∃ c c', read c = .ok (v, c') := by
  induction n generalizing before c with
  | zero =>
    cases h
    exact ⟨[], (List.append_nil _).symm, rfl, nofun⟩
  | succ n ih =>
    rw [repeatedFrom] at h
    split at h
    · rename_i v rest hv
      obtain ⟨vs, rfl, hlength, each⟩ := ih h
      refine ⟨v :: vs, ?_, congrArg (· + 1) hlength, List.forall_mem_cons.2 ⟨⟨c, rest, hv⟩, each⟩⟩
      rw [List.reverse_cons, List.append_assoc]
      rfl
    · cases h

/-- What is read repeatedly are so many values, and each was read. -/
theorem repeated_eq_ok {read : Cursor → Except DecodeError (AbiValue × Cursor)} {n : Nat}
    {vs : List AbiValue} {c c' : Cursor} (h : repeated read n c = .ok (vs, c')) :
    vs.length = n ∧ ∀ v ∈ vs, ∃ c c', read c = .ok (v, c') := by
  obtain ⟨vs, rfl, hlength, each⟩ := repeatedFrom_eq_ok h
  exact ⟨hlength, each⟩

theorem wordValue_eq_ok {make : Word → AbiValue} {c c' : Cursor} {v : AbiValue}
    (h : c.wordValue make = .ok (v, c')) : ∃ w, v = make w := by
  obtain ⟨⟨w, _⟩, -, h⟩ := bind_eq_ok_iff.1 h
  cases h
  exact ⟨w, rfl⟩

mutual

/-- What is read for a type has its shape. -/
theorem hasShape_value (t : AbiType) {c c' : Cursor} {v : AbiValue}
    (h : value room t c = .ok (v, c')) : HasShape t v := by
  cases t with
  | bool | uint | int | fixedBytes | address | function =>
    obtain ⟨w, rfl⟩ := wordValue_eq_ok h
    simp [HasShape, Throughout, SameKind, SameWidth]
  | bytes | string =>
    obtain ⟨⟨bs, _⟩, -, h⟩ := bind_eq_ok_iff.1 h
    cases h
    simp [HasShape, Throughout, SameKind, SameWidth]
  | array t =>
    obtain ⟨⟨child, rest⟩, -, h⟩ := bind_eq_ok_iff.1 h
    obtain ⟨⟨n, child⟩, -, h⟩ := bind_eq_ok_iff.1 h
    dsimp only at h
    split at h
    · cases h
      simp [HasShape, Throughout, SameKind, SameWidth]
    · obtain ⟨elements, -, h⟩ := bind_eq_ok_iff.1 h
      split at h
      · cases h
      · split at h
        · cases h
        · obtain ⟨⟨vs, _⟩, hvs, h⟩ := bind_eq_ok_iff.1 h
          cases h
          refine ⟨⟨trivial, trivial⟩, fun v hv => ?_⟩
          obtain ⟨c, c', hread⟩ := (repeated_eq_ok hvs).2 v hv
          exact hasShape_value t hread
  | fixedArray t n =>
    obtain ⟨⟨vs, _⟩, hvs, h⟩ := bind_eq_ok_iff.1 h
    cases h
    obtain ⟨_, _, hread⟩ := within_eq_ok hvs
    obtain ⟨hlength, each⟩ := repeated_eq_ok hread
    refine ⟨⟨hlength, trivial⟩, fun v hv => ?_⟩
    obtain ⟨c, c', hread⟩ := each v hv
    exact hasShape_value t hread
  | tuple ts =>
    obtain ⟨⟨vs, _⟩, hvs, h⟩ := bind_eq_ok_iff.1 h
    cases h
    obtain ⟨_, _, hread⟩ := within_eq_ok hvs
    obtain ⟨arity, each⟩ := hasShape_values ts hread
    exact ⟨⟨arity, trivial⟩, each⟩

theorem hasShape_values (ts : List AbiType) {c c' : Cursor} {vs : List AbiValue}
    (h : values room ts c = .ok (vs, c')) :
    ts.length = vs.length ∧ ThroughoutEach (fun t v => SameKind t v ∧ SameWidth t v) ts vs := by
  cases ts with
  | nil =>
    cases h
    exact ⟨rfl, trivial⟩
  | cons t ts =>
    obtain ⟨⟨v, rest⟩, hv, h⟩ := bind_eq_ok_iff.1 h
    obtain ⟨⟨vs, _⟩, hvs, h⟩ := bind_eq_ok_iff.1 h
    cases h
    obtain ⟨arity, each⟩ := hasShape_values ts hvs
    exact ⟨congrArg (· + 1) arity, hasShape_value t hv, each⟩

end

end Abi.Cursor

/-- The values of a parameter list have the shapes of their types, if any type takes room. -/
theorem decodeData_hasShape {ts : List AbiType} {vs : List AbiValue} {data : Bytes}
    (full : AbiType.allEmpty ts = false) (h : decodeData ts data = .ok vs) :
    HasShape (.tuple ts) (.tuple vs) := by
  rw [decodeData] at h
  split at h
  · rename_i vs' hdecode
    cases h
    rw [Abi.decodeParams, Abi.decodeWithin, full, if_neg Bool.false_ne_true] at hdecode
    split at hdecode
    · cases hdecode
    · split at hdecode
      · cases hdecode
      · obtain ⟨⟨vs, rest⟩, hvalues, rfl⟩ := map_eq_ok_iff.1 hdecode
        obtain ⟨arity, each⟩ := Abi.Cursor.hasShape_values ts hvalues
        exact ⟨⟨arity, trivial⟩, each⟩
  · cases h

end ContractReads
