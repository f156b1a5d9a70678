import Mathlib
import ContractReads.Contract.Basic
import ContractReads.Proofs.CallEncoding
import ContractReads.Proofs.ShardTraffic

/-!
# Reads that are refused

A contract registers a read in a batch or refuses it.

* `Registration` is a registration in place, which leaves a batch behind whether it fails or not.
  `Reading` is a read that is registered as a contract does it; `Reading.register_apply` says that
  in place a batch stays as it was if the read is refused.
* `FirstError` is about lists that are gone through up to the first entry that fails;
  `Param.types_eq_error_iff` and `Function.coerceArgs_eq_error_iff` are two of them.
* `Reading.Unprepared` and `Reading.Refused` say why a read is refused, in the order of the checks;
  `Reading.add_eq_error_iff` and `Reading.add_eq_ok_iff` are about the program.
-/

namespace ContractReads

variable {α : Type}

/-! ## Registrations in place -/

/-- A registration that works on a batch in place: what it does to the batch is there even if it
fails. -/
abbrev Registration (α : Type) := QueryM (Batch α) Unit

/-- What a registration in place comes to where the batch is dropped if it fails. -/
def Registration.result (r : Registration α) (b : Batch α) : Except QueryError (Batch α) :=
  match r b with
  | (.ok (), b') => .ok b'
  | (.error e, _) => .error e

/-- Registers a call in place: the size is checked before the call is put in. -/
def Batch.push (c : Call α) : Registration α := fun b =>
  if b.limit ≤ b.size then (.error (.batchFull b.limit), b)
  else (.ok (), { b with calls := b.calls ++ [c] })

/-- A read to be registered: of the first result of a method, or of all its results as a tuple. -/
structure Reading (α : Type) where
  contract : Contract
  slot : Nat
  method : String
  args : List AbiValue
  whole : Bool
  read : AbiValue → Except EncodingError α

namespace Reading

/-- Registers a read as its contract does. -/
def add (r : Reading α) (b : Batch α) : Except QueryError (Batch α) :=
  if r.whole then r.contract.addCallOutputs r.slot r.read r.method r.args b
  else r.contract.addCall r.slot r.read r.method r.args b

/-- The call of a read, from its bytes and the types of its results. -/
def call (r : Reading α) (calldata : Bytes) (outputs : List AbiType) : Call α where
  target := r.contract.address
  calldata := calldata
  slot := r.slot
  decode data := Contract.asQueryError <|
    if r.whole then Contract.readAll outputs r.read data
    else r.contract.readFirst r.method outputs r.read data

def prepared (r : Reading α) : Except EncodingError (Call α) :=
  (r.contract.prepare r.method r.args).map fun p => r.call p.1 p.2

/-- Registers a read in place. -/
def register (r : Reading α) : QueryM (Batch α) Unit := do
  let c ← QueryM.ofExcept (Contract.asQueryError r.prepared)
  Batch.push c

theorem add_eq (r : Reading α) (b : Batch α) :
    r.add b = (Contract.asQueryError r.prepared).bind b.add := by
  rw [add, prepared]
  cases hwhole : r.whole with
  | true =>
    rw [if_pos rfl, Contract.addCallOutputs]
    cases r.contract.prepare r.method r.args with
    | error cause => rfl
    | ok p => simp [Except.map, Contract.asQueryError, Except.bind, call, hwhole]
  | false =>
    rw [if_neg (by decide), Contract.addCall]
    cases r.contract.prepare r.method r.args with
    | error cause => rfl
    | ok p => simp [Except.map, Contract.asQueryError, Except.bind, call, hwhole]

end Reading

theorem Batch.push_apply (c : Call α) (b : Batch α) :
    Batch.push c b =
      match b.add c with
      | .ok b' => (.ok (), b')
      | .error e => (.error e, b) := by
  rw [push, add]
  by_cases room : b.size < b.limit
  · rw [if_neg (Nat.not_le.2 room), if_pos room]
  · rw [if_pos (Nat.not_lt.1 room), if_neg room]

/-- In place, a read leaves the batch that its registration gives, or the batch as it was. -/
theorem Reading.register_apply (r : Reading α) (b : Batch α) :
    r.register b =
      match r.add b with
      | .ok b' => (.ok (), b')
      | .error e => (.error e, b) := by
  rw [register, QueryM.bind_apply, add_eq, QueryM.ofExcept]
  cases Contract.asQueryError r.prepared with
  | error e => rfl
  | ok c => exact Batch.push_apply c b

/-! ## The first failure of a list -/

/-- Of entries that are gone through in order, those before the first that fails, and how it
fails. -/
def FirstError {β γ ε : Type} (f : β → Except ε γ) (xs before : List β) (cause : ε) : Prop :=
  ∃ x after, xs = before ++ x :: after ∧ (∀ y ∈ before, ∃ c, f y = .ok c) ∧ f x = .error cause

section FirstError

variable {β γ ε : Type} {f : β → Except ε γ} {x : β} {xs before : List β} {cause : ε}

theorem not_firstError_nil : ¬FirstError f [] before cause := by
  rintro ⟨x, after, h, -⟩
  simp at h

theorem firstError_cons_of_error {e : ε} (h : f x = .error e) :
    FirstError f (x :: xs) before cause ↔ before = [] ∧ cause = e := by
  constructor
  · rintro ⟨y, after, hxs, hbefore, hy⟩
    cases before with
    | nil =>
      obtain ⟨rfl, -⟩ := List.cons.inj hxs
      exact ⟨rfl, Except.error.inj (hy.symm.trans h)⟩
    | cons first before =>
      obtain ⟨rfl, -⟩ := List.cons.inj hxs
      obtain ⟨c, hc⟩ := hbefore x List.mem_cons_self
      rw [h] at hc
      cases hc
  · rintro ⟨rfl, rfl⟩
    exact ⟨x, xs, rfl, nofun, h⟩

theorem firstError_cons_of_ok {c : γ} (h : f x = .ok c) :
    FirstError f (x :: xs) before cause ↔
      ∃ rest, before = x :: rest ∧ FirstError f xs rest cause := by
  constructor
  · rintro ⟨y, after, hxs, hbefore, hy⟩
    cases before with
    | nil =>
      obtain ⟨rfl, -⟩ := List.cons.inj hxs
      rw [h] at hy
      cases hy
    | cons first before =>
      obtain ⟨rfl, rfl⟩ := List.cons.inj hxs
      exact ⟨before, rfl, y, after, rfl, (List.forall_mem_cons.1 hbefore).2, hy⟩
  · rintro ⟨rest, rfl, y, after, rfl, hrest, hy⟩
    exact ⟨y, after, rfl, List.forall_mem_cons.2 ⟨⟨c, h⟩, hrest⟩, hy⟩

end FirstError

theorem bind_eq_error_iff {ε α β : Type} {x : Except ε α} {f : α → Except ε β} {e : ε} :
    (x >>= f) = .error e ↔ x = .error e ∨ ∃ a, x = .ok a ∧ f a = .error e := by
  cases x <;> simp [bind, Except.bind]

theorem map_eq_error_iff {ε α β : Type} {x : Except ε α} {f : α → β} {e : ε} :
    x.map f = .error e ↔ x = .error e := by
  cases x <;> simp [Except.map]

/-! ## Why a read is refused -/

/-- Parameters have no types if and only if one of them has none. -/
theorem Param.types_eq_error_iff {ps : List Param} {cause : EncodingError} :
    Param.types ps = .error cause ↔ ∃ before, FirstError Param.type ps before cause := by
  induction ps with
  | nil => exact iff_of_false nofun fun ⟨_, h⟩ => not_firstError_nil h
  | cons p ps ih =>
    rw [Param.types, bind_eq_error_iff]
    cases hp : p.type with
    | error e => simp [firstError_cons_of_error hp, eq_comm]
    | ok t =>
      have hrest : (∃ before, FirstError Param.type (p :: ps) before cause) ↔
          Param.types ps = .error cause := by
        simp only [firstError_cons_of_ok hp, ih]
        constructor
        · rintro ⟨-, rest, -, h⟩
          exact ⟨rest, h⟩
        · rintro ⟨rest, h⟩
          exact ⟨_, rest, rfl, h⟩
      rw [hrest]
      simp [bind_eq_error_iff, pure, Except.pure]

/-- Arguments are refused if and only if one of them does not fit; the position of the first is
told. -/
theorem Function.coerceArgs_eq_error_iff {name : String} {i : Nat} {ts : List AbiType}
    {vs : List AbiValue} {e : EncodingError} :
    Function.coerceArgs name i ts vs = .error e ↔
      ∃ before cause, FirstError (fun x => AbiValue.coerce x.1 x.2) (ts.zip vs) before cause ∧
        e = .argument (i + before.length) name cause := by
  induction ts generalizing i vs with
  | nil => exact iff_of_false nofun fun ⟨_, _, h, _⟩ => not_firstError_nil h
  | cons t ts ih =>
    cases vs with
    | nil => exact iff_of_false nofun fun ⟨_, _, h, _⟩ => not_firstError_nil h
    | cons v vs =>
      rw [Function.coerceArgs, List.zip_cons_cons]
      cases hv : AbiValue.coerce t v with
      | error own =>
        have hfirst (before : List (AbiType × AbiValue)) (cause : EncodingError) :
            FirstError (fun x => AbiValue.coerce x.1 x.2) ((t, v) :: ts.zip vs) before cause ↔
              before = [] ∧ cause = own := firstError_cons_of_error hv
        simp only [hfirst]
        constructor
        · rintro ⟨⟩
          exact ⟨[], own, ⟨rfl, rfl⟩, rfl⟩
        · rintro ⟨-, -, ⟨rfl, rfl⟩, rfl⟩
          rfl
      | ok w =>
        have hfirst (before : List (AbiType × AbiValue)) (cause : EncodingError) :
            FirstError (fun x => AbiValue.coerce x.1 x.2) ((t, v) :: ts.zip vs) before cause ↔
              ∃ rest, before = (t, v) :: rest ∧
                FirstError (fun x => AbiValue.coerce x.1 x.2) (ts.zip vs) rest cause :=
          firstError_cons_of_ok hv
        simp only [hfirst, map_eq_error_iff, ih]
        constructor
        · rintro ⟨rest, cause, h, rfl⟩
          refine ⟨_, cause, ⟨rest, rfl, h⟩, ?_⟩
          rw [List.length_cons, Nat.add_right_comm, Nat.add_assoc]
        · rintro ⟨-, cause, ⟨rest, rfl, h⟩, rfl⟩
          refine ⟨rest, cause, h, ?_⟩
          rw [List.length_cons, Nat.add_right_comm, Nat.add_assoc]

namespace Reading

/-- Why no call can be made of a read, in the order of the checks. -/
inductive Unprepared (r : Reading α) : EncodingError → Prop
  | noMethod (none : r.contract.interface.overloads r.method = []) :
    Unprepared r (.noMethod r.contract.name r.method)
  | noOverload (some : r.contract.interface.overloads r.method ≠ [])
    (arity : ∀ f ∈ r.contract.interface.overloads r.method, f.inputs.length ≠ r.args.length) :
    Unprepared r (.noOverload r.contract.name r.method r.args.length)
  | inputType {f : Function} {before : List Param} {cause : EncodingError}
    (found : r.contract.function r.method r.args.length = .ok f)
    (untyped : FirstError Param.type f.inputs before cause) : Unprepared r cause
  | argument {f : Function} {types : List AbiType} {before : List (AbiType × AbiValue)}
    {cause : EncodingError} (found : r.contract.function r.method r.args.length = .ok f)
    (typed : Param.types f.inputs = .ok types)
    (unfit : FirstError (fun x => AbiValue.coerce x.1 x.2) (types.zip r.args) before cause) :
    Unprepared r (.argument before.length f.name cause)
  | outputType {f : Function} {calldata : Bytes} {before : List Param} {cause : EncodingError}
    (found : r.contract.function r.method r.args.length = .ok f)
    (encoded : f.encode r.args = .ok calldata)
    (untyped : FirstError Param.type f.outputs before cause) : Unprepared r cause

/-- Why a read is refused: a batch is looked at last. -/
inductive Refused (r : Reading α) (b : Batch α) : QueryError → Prop
  | unprepared {cause : EncodingError} (h : r.Unprepared cause) : Refused r b (.encoding cause)
  | full {c : Call α} (prepared : r.prepared = .ok c) (full : b.limit ≤ b.size) :
    Refused r b (.batchFull b.limit)

variable {r : Reading α} {b b' : Batch α} {c : Call α}

theorem function_eq_error_iff {cause : EncodingError} :
    r.contract.function r.method r.args.length = .error cause ↔
      (r.contract.interface.overloads r.method = [] ∧
        cause = .noMethod r.contract.name r.method) ∨
      (r.contract.interface.overloads r.method ≠ [] ∧
        (∀ f ∈ r.contract.interface.overloads r.method, f.inputs.length ≠ r.args.length) ∧
        cause = .noOverload r.contract.name r.method r.args.length) := by
  rw [Contract.function]
  cases hoverloads : r.contract.interface.overloads r.method with
  | nil => simp [eq_comm]
  | cons f fs =>
    have hfind : (f :: fs).find? (fun f => f.inputs.length = r.args.length) = none ↔
        ∀ g ∈ f :: fs, g.inputs.length ≠ r.args.length := by
      simp [List.find?_eq_none]
    dsimp only
    cases h : (f :: fs).find? fun f => f.inputs.length = r.args.length with
    | none =>
      constructor
      · rintro ⟨⟩
        exact .inr ⟨List.cons_ne_nil f fs, hfind.1 h, rfl⟩
      · rintro (⟨hnone, -⟩ | ⟨-, -, rfl⟩)
        · cases hnone
        · rfl
    | some g =>
      refine iff_of_false ?_ ?_
      · intro hok
        cases hok
      rintro (⟨hnone, -⟩ | ⟨-, harity, -⟩)
      · cases hnone
      · rw [hfind.2 harity] at h
        cases h

theorem encode_eq_error_iff {f : Function} {args : List AbiValue} {cause : EncodingError} :
    f.encode args = .error cause ↔
      (∃ before, FirstError Param.type f.inputs before cause) ∨
      ∃ types before own, Param.types f.inputs = .ok types ∧
        FirstError (fun x => AbiValue.coerce x.1 x.2) (types.zip args) before own ∧
        cause = .argument before.length f.name own := by
  rw [Function.encode, bind_eq_error_iff, Param.types_eq_error_iff]
  refine or_congr_right ⟨?_, ?_⟩
  · rintro ⟨types, htypes, h⟩
    obtain h | ⟨values, -, h⟩ := bind_eq_error_iff.1 h
    · obtain ⟨before, own, hfirst, rfl⟩ := Function.coerceArgs_eq_error_iff.1 h
      exact ⟨types, before, own, htypes, hfirst, by rw [Nat.zero_add]⟩
    · cases h
  · rintro ⟨types, before, own, htypes, hfirst, rfl⟩
    refine ⟨types, htypes, bind_eq_error_iff.2 (.inl ?_)⟩
    exact Function.coerceArgs_eq_error_iff.2 ⟨before, own, hfirst, by rw [Nat.zero_add]⟩

theorem prepared_eq_error_iff {cause : EncodingError} :
    r.prepared = .error cause ↔ r.Unprepared cause := by
  rw [prepared, map_eq_error_iff, Contract.prepare, bind_eq_error_iff, function_eq_error_iff]
  constructor
  · rintro ((⟨hnone, rfl⟩ | ⟨hsome, harity, rfl⟩) | ⟨f, hf, h⟩)
    · exact .noMethod hnone
    · exact .noOverload hsome harity
    obtain h | ⟨calldata, hcalldata, h⟩ := bind_eq_error_iff.1 h
    · obtain ⟨before, hfirst⟩ | ⟨types, before, own, htypes, hfirst, rfl⟩ :=
        encode_eq_error_iff.1 h
      · exact .inputType hf hfirst
      · exact .argument hf htypes hfirst
    · obtain h | ⟨types, -, h⟩ := bind_eq_error_iff.1 h
      · obtain ⟨before, h⟩ := Param.types_eq_error_iff.1 h
        exact .outputType hf hcalldata h
      · cases h
  · rintro (hnone | ⟨hsome, harity⟩ | ⟨hf, h⟩ | ⟨hf, htypes, h⟩ | ⟨hf, hcalldata, h⟩)
    · exact .inl (.inl ⟨hnone, rfl⟩)
    · exact .inl (.inr ⟨hsome, harity, rfl⟩)
    · exact .inr ⟨_, hf, bind_eq_error_iff.2 (.inl (encode_eq_error_iff.2 (.inl ⟨_, h⟩)))⟩
    · refine .inr ⟨_, hf, bind_eq_error_iff.2 (.inl (encode_eq_error_iff.2 (.inr ?_)))⟩
      exact ⟨_, _, _, htypes, h, rfl⟩
    · refine .inr ⟨_, hf, bind_eq_error_iff.2 (.inr ⟨_, hcalldata, ?_⟩)⟩
      exact bind_eq_error_iff.2 (.inl (Param.types_eq_error_iff.2 ⟨_, h⟩))

/-- The call of a read goes to its contract, with the encoded method and arguments. -/
theorem prepared_eq_ok (h : r.prepared = .ok c) :
    c.target = r.contract.address ∧ r.contract.encodeCall r.method r.args = .ok c.calldata ∧
      c.slot = r.slot := by
  obtain ⟨p, hp, rfl⟩ := map_eq_ok_iff.1 h
  obtain ⟨f, hf, h⟩ := bind_eq_ok_iff.1 hp
  obtain ⟨calldata, hcalldata, h⟩ := bind_eq_ok_iff.1 h
  obtain ⟨outputs, -, h⟩ := bind_eq_ok_iff.1 h
  cases h
  exact ⟨rfl, bind_eq_ok_iff.2 ⟨f, hf, hcalldata⟩, rfl⟩

theorem add_eq_ok_iff : r.add b = .ok b' ↔
    ∃ c, r.prepared = .ok c ∧ b.size < b.limit ∧ b' = { b with calls := b.calls ++ [c] } := by
  rw [add_eq]
  cases r.prepared with
  | error cause => simp [Contract.asQueryError, Except.bind]
  | ok c => simp [Contract.asQueryError, Except.bind, Batch.add_eq_ok_iff]

theorem add_eq_error_iff {e : QueryError} : r.add b = .error e ↔ r.Refused b e := by
  rw [add_eq]
  constructor
  · intro h
    cases hprepared : r.prepared with
    | error cause =>
      rw [hprepared] at h
      cases h
      exact .unprepared (prepared_eq_error_iff.1 hprepared)
    | ok c =>
      rw [hprepared] at h
      have hadd : b.add c = .error e := h
      rw [Batch.add] at hadd
      split at hadd
      · cases hadd
      · rename_i full
        cases hadd
        exact .full hprepared (Nat.not_lt.1 full)
  · rintro (h | ⟨hprepared, full⟩)
    · rw [prepared_eq_error_iff.2 h]
      rfl
    · rw [hprepared]
      exact if_neg (Nat.not_lt.2 full)

end Reading

end ContractReads
