import Mathlib
import ContractReads.Batch.Execute

/-!
# What executing a batch comes to

A batch asks its endpoint once and either fails, and then every slot is as it was, or gives one
flag per call and writes the accepted values.  `Batch.Rejects` lists the reasons for which an
answer fails a batch, and `Batch.Settles` says what the flags and the slots are when it does not.

The lemmas come in three groups.

* `Call.value?` and `Call.fault?` say what an outcome gives a call.  `decodeAll_flexible` and
  `decodeAll_strict` give the result of decoding in these terms: `settlement` is what outcomes
  come to when no call is rejected.
* `settleAnswer_eq_error_iff` and `settleAnswer_eq_ok` carry this over to a whole answer.
* `settles_settlement` reads the flags and the slots off a settlement: of several values for one
  slot the last one stays.
-/

namespace ContractReads

variable {w α : Type}

namespace Call

/-- The value that an outcome gives a call: there is none if the call failed or returned what
cannot be decoded. -/
def value? (c : Call α) (o : Outcome) : Option α :=
  if o.isSuccess then (c.decode o.returnData).toOption else none

/-- What is wrong with the bytes of a call that succeeded. -/
def fault? (c : Call α) (o : Outcome) : Option QueryError :=
  if o.isSuccess then
    match c.decode o.returnData with
    | .ok _ => none
    | .error cause => some cause
  else none

theorem value?_eq_some_iff {c : Call α} {o : Outcome} {a : α} :
    c.value? o = some a ↔ o.isSuccess = true ∧ c.decode o.returnData = .ok a := by
  unfold value?
  cases o.isSuccess with
  | false => simp
  | true => cases c.decode o.returnData <;> simp [Except.toOption]

theorem fault?_eq_some_iff {c : Call α} {o : Outcome} {cause : QueryError} :
    c.fault? o = some cause ↔ o.isSuccess = true ∧ c.decode o.returnData = .error cause := by
  unfold fault?
  cases o.isSuccess with
  | false => simp
  | true => cases c.decode o.returnData <;> simp

/-- A success whose bytes are not at fault has a value. -/
theorem fault?_eq_none_iff {c : Call α} {o : Outcome} :
    c.fault? o = none ↔ (o.isSuccess = true → ∃ a, c.decode o.returnData = .ok a) := by
  unfold fault?
  cases o.isSuccess with
  | false => simp
  | true => cases c.decode o.returnData <;> simp

/-- The three things that can become of a call. -/
theorem outcome_cases (c : Call α) (o : Outcome) :
    o.isSuccess = false ∧ c.value? o = none ∧ c.fault? o = none ∨
      (∃ a, o.isSuccess = true ∧ c.decode o.returnData = .ok a ∧ c.value? o = some a ∧
        c.fault? o = none) ∨
      (∃ cause, o.isSuccess = true ∧ c.decode o.returnData = .error cause ∧ c.value? o = none ∧
        c.fault? o = some cause) := by
  unfold value? fault?
  cases o.isSuccess with
  | false => simp
  | true => cases c.decode o.returnData <;> simp [Except.toOption]

end Call

namespace Batch

/-- What outcomes come to when no call is rejected. -/
def settlement (cs : List (Call α)) (os : List Outcome) : Settlement α where
  flags := (cs.zip os).map fun p => (p.1.value? p.2).isSome
  writes := (cs.zip os).filterMap fun p => (p.1.value? p.2).map (p.1.slot, ·)

/-- Why the answer of an endpoint fails a batch.  Only a strict batch is failed by its calls: by
the first one that did not succeed, and, if all did, by the first one that returned what cannot
be decoded. -/
inductive Rejects (b : Batch α) (mode : Mode) (endpoint : String) : Answer → QueryError → Prop
  | roundTrip (cause : TransportError) : Rejects b mode endpoint (.error cause) (.transport cause)
  | count {outcomes : List Outcome} (length : outcomes.length ≠ b.calls.length) :
    Rejects b mode endpoint (.ok outcomes)
      (.transport (.other (.outcomeCount endpoint outcomes.length b.calls.length)))
  | failedCall {outcomes : List Outcome} {i : Nat} {o : Outcome} (strict : mode = .strict)
    (length : outcomes.length = b.calls.length)
    (here : outcomes[i]? = some o) (failed : o.isSuccess = false)
    (first : ∀ j < i, ∀ o', outcomes[j]? = some o' → o'.isSuccess = true) :
    Rejects b mode endpoint (.ok outcomes) (.partialFailure i outcomes.length)
  | undecodable {outcomes : List Outcome} {i : Nat} {c : Call α} {o : Outcome}
    {cause : QueryError} (strict : mode = .strict) (length : outcomes.length = b.calls.length)
    (succeeded : ∀ o' ∈ outcomes, o'.isSuccess = true)
    (call : b.calls[i]? = some c) (here : outcomes[i]? = some o)
    (bad : c.decode o.returnData = .error cause)
    (first : ∀ j < i, ∀ c' o', b.calls[j]? = some c' → outcomes[j]? = some o' →
      ∃ a, c'.decode o'.returnData = .ok a) :
    Rejects b mode endpoint (.ok outcomes) cause

/-- What the flags and the slots of a batch are when its outcomes are not rejected. -/
structure Settles (calls : List (Call α)) (outcomes : List Outcome) (flags : List Bool)
    (before after : Slots α) : Prop where
  /-- There is one flag for each call. -/
  length_flags : flags.length = calls.length
  /-- A flag is set if the call succeeded and its bytes decode. -/
  flag_iff : ∀ i : Nat, flags[i]? = some true ↔
    ∃ (c : Call α) (o : Outcome) (a : α), calls[i]? = some c ∧ outcomes[i]? = some o ∧
      o.isSuccess = true ∧ c.decode o.returnData = .ok a
  /-- A slot holds the value of the last flagged call that is bound to it. -/
  written : ∀ (i : Nat) (c : Call α) (o : Outcome) (a : α), calls[i]? = some c →
    outcomes[i]? = some o → o.isSuccess = true → c.decode o.returnData = .ok a →
    c.slot < before.size →
    (∀ j > i, ∀ c' : Call α, calls[j]? = some c' → c'.slot = c.slot → flags[j]? = some false) →
    after.get? c.slot = some a
  /-- A slot that no flagged call is bound to is as it was. -/
  kept : ∀ k : Nat, (∀ (i : Nat) (c : Call α), calls[i]? = some c → c.slot = k →
    flags[i]? = some false) → after.get? k = before.get? k

/-! ## Decoding -/

@[simp] theorem settlement_nil_left (os : List Outcome) :
    settlement ([] : List (Call α)) os = ⟨[], []⟩ := by
  simp [settlement]

@[simp] theorem settlement_nil_right (cs : List (Call α)) : settlement cs [] = ⟨[], []⟩ := by
  simp [settlement]

/-- A call without a value is flagged. -/
theorem settlement_cons_of_none {c : Call α} {o : Outcome} (h : c.value? o = none)
    (cs : List (Call α)) (os : List Outcome) :
    settlement (c :: cs) (o :: os) = flagged (settlement cs os) := by
  simp [settlement, flagged, h]

/-- A call with a value is accepted. -/
theorem settlement_cons_of_some {c : Call α} {o : Outcome} {a : α} (h : c.value? o = some a)
    (cs : List (Call α)) (os : List Outcome) :
    settlement (c :: cs) (o :: os) = accepted c.slot a (settlement cs os) := by
  simp [settlement, accepted, h]

/-- A flexible batch rejects no call. -/
theorem decodeAll_flexible (cs : List (Call α)) (os : List Outcome) :
    decodeAll .flexible cs os = .ok (settlement cs os) := by
  induction cs generalizing os with
  | nil => simp
  | cons c cs ih =>
    cases os with
    | nil => simp
    | cons o os =>
      rcases c.outcome_cases o with ⟨ho, hv, -⟩ | ⟨a, ho, ha, hv, -⟩ | ⟨cause, ho, hbad, hv, -⟩
      · rw [decodeAll_cons_of_failure ho, ih, settlement_cons_of_none hv]
        rfl
      · rw [decodeAll_cons_of_ok ho ha, ih, settlement_cons_of_some hv]
        rfl
      · rw [decodeAll_flexible_cons_of_error ho hbad, ih, settlement_cons_of_none hv]
        rfl

/-- A strict batch fails with the first fault of a success. -/
theorem decodeAll_strict (cs : List (Call α)) (os : List Outcome) :
    decodeAll .strict cs os =
      match (cs.zip os).findSome? fun p => p.1.fault? p.2 with
      | some cause => .error cause
      | none => .ok (settlement cs os) := by
  induction cs generalizing os with
  | nil => simp
  | cons c cs ih =>
    cases os with
    | nil => simp
    | cons o os =>
      rw [List.zip_cons_cons, List.findSome?_cons]
      rcases c.outcome_cases o with ⟨ho, hv, hf⟩ | ⟨a, ho, ha, hv, hf⟩ | ⟨cause, ho, hbad, hv, hf⟩
      · rw [decodeAll_cons_of_failure ho, ih, settlement_cons_of_none hv, hf]
        cases (cs.zip os).findSome? fun p => p.1.fault? p.2 <;> rfl
      · rw [decodeAll_cons_of_ok ho ha, ih, settlement_cons_of_some hv, hf]
        cases (cs.zip os).findSome? fun p => p.1.fault? p.2 <;> rfl
      · rw [decodeAll_strict_cons_of_error ho hbad, hf]

/-- Decoding that does not fail gives the settlement, in both modes. -/
theorem decodeAll_eq_ok {mode : Mode} {cs : List (Call α)} {os : List Outcome}
    {done : Settlement α} (h : decodeAll mode cs os = .ok done) : done = settlement cs os := by
  cases mode with
  | flexible =>
    rw [decodeAll_flexible] at h
    cases h
    rfl
  | strict =>
    rw [decodeAll_strict] at h
    split at h
    · cases h
    · cases h
      rfl

/-- The first fault, by its position. -/
theorem findSome?_fault?_eq_some_iff {cs : List (Call α)} {os : List Outcome}
    {cause : QueryError} :
    ((cs.zip os).findSome? fun p => p.1.fault? p.2) = some cause ↔
      ∃ (i : Nat) (c : Call α) (o : Outcome), cs[i]? = some c ∧ os[i]? = some o ∧
        c.fault? o = some cause ∧
        ∀ j < i, ∀ (c' : Call α) (o' : Outcome), cs[j]? = some c' → os[j]? = some o' →
          c'.fault? o' = none := by
  rw [List.findSome?_eq_some_iff]
  constructor
  · rintro ⟨pre, ⟨c, o⟩, post, heq, hfault, hpre⟩
    have hat : (cs.zip os)[pre.length]? = some (c, o) := by rw [heq]; simp
    obtain ⟨hc, ho⟩ := List.getElem?_zip_eq_some.1 hat
    refine ⟨pre.length, c, o, hc, ho, hfault, ?_⟩
    intro j hj c' o' hc' ho'
    have hj' : (cs.zip os)[j]? = some (c', o') := List.getElem?_zip_eq_some.2 ⟨hc', ho'⟩
    rw [heq, List.getElem?_append_left hj] at hj'
    exact hpre (c', o') (List.mem_of_getElem? hj')
  · rintro ⟨i, c, o, hc, ho, hfault, hfirst⟩
    have hat : (cs.zip os)[i]? = some (c, o) := List.getElem?_zip_eq_some.2 ⟨hc, ho⟩
    obtain ⟨hi, hget⟩ := List.getElem?_eq_some_iff.1 hat
    refine ⟨(cs.zip os).take i, (c, o), (cs.zip os).drop (i + 1), ?_, hfault, ?_⟩
    · rw [← hget, List.getElem_cons_drop, List.take_append_drop]
    · rintro ⟨c', o'⟩ hmem
      obtain ⟨j, hj, hget'⟩ := List.getElem_of_mem hmem
      have hji : j < i := by simp at hj; omega
      rw [List.getElem_take] at hget'
      have hj' : (cs.zip os)[j]? = some (c', o') := List.getElem?_eq_some_iff.2 ⟨_, hget'⟩
      obtain ⟨hc', ho'⟩ := List.getElem?_zip_eq_some.1 hj'
      exact hfirst j hji c' o' hc' ho'

/-! ## Whole answers -/

section Answers

variable {b : Batch α} {mode : Mode} {endpoint : String} {outcomes : List Outcome}

theorem settle_of_length_ne (h : outcomes.length ≠ b.calls.length) :
    b.settle mode endpoint outcomes =
      .error (.transport (.other (.outcomeCount endpoint outcomes.length b.calls.length))) :=
  if_pos h

/-- With one outcome per call, a strict batch looks for a failure first. -/
theorem settle_of_length_eq (h : outcomes.length = b.calls.length) :
    b.settle mode endpoint outcomes =
      match mode, outcomes.findIdx? fun o => !o.isSuccess with
      | .strict, some i => .error (.partialFailure i outcomes.length)
      | _, _ => decodeAll mode b.calls outcomes :=
  if_neg (not_not.2 h)

theorem settle_flexible (h : outcomes.length = b.calls.length) :
    b.settle .flexible endpoint outcomes = .ok (settlement b.calls outcomes) := by
  rw [settle_of_length_eq h]
  exact decodeAll_flexible b.calls outcomes

theorem settle_strict_of_failure {i : Nat} (h : outcomes.length = b.calls.length)
    (hi : (outcomes.findIdx? fun o => !o.isSuccess) = some i) :
    b.settle .strict endpoint outcomes = .error (.partialFailure i outcomes.length) := by
  rw [settle_of_length_eq h, hi]

theorem settle_strict_of_success (h : outcomes.length = b.calls.length)
    (hall : ∀ o ∈ outcomes, o.isSuccess = true) :
    b.settle .strict endpoint outcomes = decodeAll .strict b.calls outcomes := by
  have hnone : (outcomes.findIdx? fun o => !o.isSuccess) = none :=
    List.findIdx?_eq_none_iff.2 fun o ho => by simp [hall o ho]
  rw [settle_of_length_eq h, hnone]

/-- Each of the listed reasons fails the batch. -/
theorem Rejects.settleAnswer_eq {answer : Answer} {cause : QueryError}
    (h : b.Rejects mode endpoint answer cause) :
    b.settleAnswer mode endpoint answer = .error cause := by
  cases h with
  | roundTrip t => rfl
  | count hlen => exact settle_of_length_ne hlen
  | @failedCall outcomes i o strict hlen here failed first =>
    subst strict
    obtain ⟨hi, rfl⟩ := List.getElem?_eq_some_iff.1 here
    have hfind : (outcomes.findIdx? fun o => !o.isSuccess) = some i := by
      refine List.findIdx?_eq_some_iff_getElem.2 ⟨hi, by simp [failed], ?_⟩
      intro j hj
      simp [first j hj _ (List.getElem?_eq_getElem (by omega))]
    exact settle_strict_of_failure hlen hfind
  | @undecodable outcomes i c o _ strict hlen succeeded call here bad first =>
    subst strict
    have hfault : ((b.calls.zip outcomes).findSome? fun p => p.1.fault? p.2) = some cause := by
      refine findSome?_fault?_eq_some_iff.2 ⟨i, c, o, call, here, ?_, ?_⟩
      · exact Call.fault?_eq_some_iff.2 ⟨succeeded o (List.mem_of_getElem? here), bad⟩
      · intro j hj c' o' hc' ho'
        exact Call.fault?_eq_none_iff.2 fun _ => first j hj c' o' hc' ho'
    rw [settleAnswer, settle_strict_of_success hlen succeeded, decodeAll_strict, hfault]

/-- A batch fails for one of the listed reasons only. -/
theorem rejects_of_settleAnswer_eq {answer : Answer} {cause : QueryError}
    (h : b.settleAnswer mode endpoint answer = .error cause) :
    b.Rejects mode endpoint answer cause := by
  cases answer with
  | error t =>
    cases h
    exact .roundTrip t
  | ok outcomes =>
    rw [settleAnswer] at h
    by_cases hlen : outcomes.length = b.calls.length
    · cases mode with
      | flexible =>
        rw [settle_flexible hlen] at h
        cases h
      | strict =>
        cases hfind : outcomes.findIdx? fun o => !o.isSuccess with
        | some i =>
          rw [settle_strict_of_failure hlen hfind] at h
          cases h
          obtain ⟨hi, hfailed, hfirst⟩ := List.findIdx?_eq_some_iff_getElem.1 hfind
          refine .failedCall rfl hlen (List.getElem?_eq_getElem hi) (by simpa using hfailed) ?_
          intro j hj o' ho'
          obtain ⟨_, rfl⟩ := List.getElem?_eq_some_iff.1 ho'
          simpa using hfirst j hj
        | none =>
          have hall : ∀ o ∈ outcomes, o.isSuccess = true := by
            intro o ho
            simpa using List.findIdx?_eq_none_iff.1 hfind o ho
          rw [settle_strict_of_success hlen hall, decodeAll_strict] at h
          split at h
          · rename_i cause' hfault
            cases h
            obtain ⟨i, c, o, hc, ho, hbad, hfirst⟩ := findSome?_fault?_eq_some_iff.1 hfault
            refine .undecodable rfl hlen hall hc ho (Call.fault?_eq_some_iff.1 hbad).2 ?_
            intro j hj c' o' hc' ho'
            exact Call.fault?_eq_none_iff.1 (hfirst j hj c' o' hc' ho')
              (hall o' (List.mem_of_getElem? ho'))
          · cases h
    · rw [settle_of_length_ne hlen] at h
      cases h
      exact .count hlen

/-- The reasons for which an answer fails a batch are those listed. -/
theorem settleAnswer_eq_error_iff {answer : Answer} {cause : QueryError} :
    b.settleAnswer mode endpoint answer = .error cause ↔ b.Rejects mode endpoint answer cause :=
  ⟨rejects_of_settleAnswer_eq, Rejects.settleAnswer_eq⟩

/-- An answer that does not fail a batch holds one outcome per call, and comes to their
settlement. -/
theorem settleAnswer_eq_ok {answer : Answer} {done : Settlement α}
    (h : b.settleAnswer mode endpoint answer = .ok done) :
    ∃ outcomes, answer = .ok outcomes ∧ outcomes.length = b.calls.length ∧
      done = settlement b.calls outcomes := by
  cases answer with
  | error t => cases h
  | ok outcomes =>
    rw [settleAnswer] at h
    by_cases hlen : outcomes.length = b.calls.length
    · refine ⟨outcomes, rfl, hlen, ?_⟩
      rw [settle_of_length_eq hlen] at h
      split at h
      · cases h
      · exact decodeAll_eq_ok h
    · rw [settle_of_length_ne hlen] at h
      cases h

/-- A strict batch that does not fail accepts every call. -/
theorem flags_of_settleAnswer_strict {answer : Answer} {done : Settlement α}
    (h : b.settleAnswer .strict endpoint answer = .ok done) : ∀ flag ∈ done.flags, flag = true := by
  obtain ⟨outcomes, rfl, hlen, rfl⟩ := settleAnswer_eq_ok h
  rw [settleAnswer] at h
  cases hfind : outcomes.findIdx? fun o => !o.isSuccess with
  | some i =>
    rw [settle_strict_of_failure hlen hfind] at h
    cases h
  | none =>
    have hall : ∀ o ∈ outcomes, o.isSuccess = true := by
      intro o ho
      simpa using List.findIdx?_eq_none_iff.1 hfind o ho
    rw [settle_strict_of_success hlen hall, decodeAll_strict] at h
    split at h
    · cases h
    · rename_i hfault
      intro flag hflag
      obtain ⟨⟨c, o⟩, hmem, rfl⟩ := List.mem_map.1 hflag
      have hnone := List.findSome?_eq_none_iff.1 hfault (c, o) hmem
      have ho := hall o (List.of_mem_zip hmem).2
      obtain ⟨a, ha⟩ := Call.fault?_eq_none_iff.1 hnone ho
      have hv : c.value? o = some a := Call.value?_eq_some_iff.2 ⟨ho, ha⟩
      simp [hv]

end Answers

/-! ## Flags and slots -/

section Settlement

variable {cs : List (Call α)} {os : List Outcome}

@[simp] theorem length_flags_settlement (h : os.length = cs.length) :
    (settlement cs os).flags.length = cs.length := by
  simp [settlement, h]

/-- The flag of a call says whether its outcome has a value. -/
theorem getElem?_flags_settlement {i : Nat} {c : Call α} {o : Outcome} (hc : cs[i]? = some c)
    (ho : os[i]? = some o) : (settlement cs os).flags[i]? = some (c.value? o).isSome := by
  have hp : (cs.zip os)[i]? = some (c, o) := List.getElem?_zip_eq_some.2 ⟨hc, ho⟩
  simp [settlement, hp]

/-- A set flag stands for a call and an outcome with a value. -/
theorem flag_settlement_iff {i : Nat} :
    (settlement cs os).flags[i]? = some true ↔ ∃ c o a, cs[i]? = some c ∧ os[i]? = some o ∧
      o.isSuccess = true ∧ c.decode o.returnData = .ok a := by
  constructor
  · intro h
    simp only [settlement, List.getElem?_map, Option.map_eq_some_iff] at h
    obtain ⟨⟨c, o⟩, hp, hv⟩ := h
    obtain ⟨hc, ho⟩ := List.getElem?_zip_eq_some.1 hp
    obtain ⟨a, ha⟩ := Option.isSome_iff_exists.1 hv
    obtain ⟨hs, hd⟩ := Call.value?_eq_some_iff.1 ha
    exact ⟨c, o, a, hc, ho, hs, hd⟩
  · rintro ⟨c, o, a, hc, ho, hs, hd⟩
    have hv : c.value? o = some a := Call.value?_eq_some_iff.2 ⟨hs, hd⟩
    rw [getElem?_flags_settlement hc ho, hv]
    rfl

/-- What is written comes from a flagged call. -/
theorem mem_writes_iff {ps : List (Call α × Outcome)} {x : Nat × α} :
    x ∈ ps.filterMap (fun p => (p.1.value? p.2).map (p.1.slot, ·)) ↔
      ∃ p ∈ ps, p.1.slot = x.1 ∧ p.1.value? p.2 = some x.2 := by
  simp only [List.mem_filterMap, Option.map_eq_some_iff]
  constructor
  · rintro ⟨p, hp, a, ha, rfl⟩
    exact ⟨p, hp, rfl, ha⟩
  · rintro ⟨p, hp, hslot, ha⟩
    exact ⟨p, hp, x.2, ha, by rw [hslot]⟩

/-- The flags and the slots of a settlement. -/
theorem settles_settlement (h : os.length = cs.length) (before : Slots α) :
    Settles cs os (settlement cs os).flags before (before.write (settlement cs os).writes) where
  length_flags := length_flags_settlement h
  flag_iff i := flag_settlement_iff
  written := by
    intro i c o a hc ho hs hd hslot hlater
    have hp : (cs.zip os)[i]? = some (c, o) := List.getElem?_zip_eq_some.2 ⟨hc, ho⟩
    obtain ⟨hi, hget⟩ := List.getElem?_eq_some_iff.1 hp
    have hsplit : cs.zip os = (cs.zip os).take i ++ (c, o) :: (cs.zip os).drop (i + 1) := by
      rw [← hget, List.getElem_cons_drop, List.take_append_drop]
    have hv : c.value? o = some a := Call.value?_eq_some_iff.2 ⟨hs, hd⟩
    have hwrites : (settlement cs os).writes =
        ((cs.zip os).take i).filterMap (fun p => (p.1.value? p.2).map (p.1.slot, ·)) ++
          (c.slot, a) :: ((cs.zip os).drop (i + 1)).filterMap
            (fun p => (p.1.value? p.2).map (p.1.slot, ·)) := by
      conv => lhs; rw [settlement, hsplit]
      simp [hv]
    rw [hwrites]
    apply Slots.get?_write_last hslot
    intro x hx hxslot
    obtain ⟨⟨c', o'⟩, hmem, hslot', hv'⟩ := mem_writes_iff.1 hx
    obtain ⟨j, hj, hget'⟩ := List.getElem_of_mem hmem
    rw [List.getElem_drop] at hget'
    have hp' : (cs.zip os)[i + 1 + j]? = some (c', o') := List.getElem?_eq_some_iff.2 ⟨_, hget'⟩
    obtain ⟨hc', ho'⟩ := List.getElem?_zip_eq_some.1 hp'
    have hfalse := hlater (i + 1 + j) (by omega) c' hc' (hslot'.trans hxslot)
    rw [getElem?_flags_settlement hc' ho', hv'] at hfalse
    cases hfalse
  kept := by
    intro k hk
    apply Slots.get?_write_of_forall_ne
    intro x hx hxk
    obtain ⟨⟨c, o⟩, hmem, hslot, hv⟩ := mem_writes_iff.1 hx
    obtain ⟨i, hp⟩ := List.mem_iff_getElem?.1 hmem
    obtain ⟨hc, ho⟩ := List.getElem?_zip_eq_some.1 hp
    have hfalse := hk i c hc (hslot.trans hxk)
    rw [getElem?_flags_settlement hc ho, hv] at hfalse
    cases hfalse

end Settlement

/-! ## One round trip, all or nothing -/

/-- The answer that an endpoint gives to a batch, and the world after it. -/
def ask (b : Batch α) (e : Endpoint w) (mode : Mode) (block : BlockTag) (world : w) : Answer × w :=
  let trip := b.roundTrip mode block
  let (answer, _, after) := e.answer trip (e.submit trip world).2
  (answer, after)

/-- A batch with calls settles the answer that it gets to its one round trip. -/
theorem execute_of_ne_nil {b : Batch α} (h : b.calls ≠ []) (e : Endpoint w) (mode : Mode)
    (block : BlockTag) (s : Scene w α) :
    ∃ now, b.execute e mode block s =
      Scene.commit ⟨(b.ask e mode block s.world).2, now, s.slots⟩
        (b.settleAnswer mode e.name (b.ask e mode block s.world).1) := by
  have hb : b.isEmpty = false := by simpa [isEmpty] using h
  let trip := b.roundTrip mode block
  refine ⟨s.now + (e.submit trip s.world).1 + (e.answer trip (e.submit trip s.world).2).2.1, ?_⟩
  rw [execute, hb]
  rfl

/-- Executing a batch is all or nothing.  A batch without calls makes no round trip.  Any other
makes one, and its answer either fails the batch, for exactly one of the reasons of
`Batch.Rejects`, and no slot is written, or it holds one outcome per call and settles the batch,
and then all flags of a strict batch are set. -/
theorem execute_all_or_nothing (b : Batch α) (e : Endpoint w) (mode : Mode) (block : BlockTag)
    (s : Scene w α) :
    (b.calls = [] → b.execute e mode block s = (.ok [], s)) ∧
    (b.calls ≠ [] →
      (b.execute e mode block s).2.world = (b.ask e mode block s.world).2 ∧
      (∀ cause, (b.execute e mode block s).1 = .error cause ↔
        b.Rejects mode e.name (b.ask e mode block s.world).1 cause) ∧
      (∀ cause, (b.execute e mode block s).1 = .error cause →
        (b.execute e mode block s).2.slots = s.slots) ∧
      ∀ flags, (b.execute e mode block s).1 = .ok flags →
        ∃ outcomes, (b.ask e mode block s.world).1 = .ok outcomes ∧
          outcomes.length = b.calls.length ∧
          Settles b.calls outcomes flags s.slots (b.execute e mode block s).2.slots ∧
          (mode = .strict → ∀ flag ∈ flags, flag = true)) := by
  refine ⟨?_, ?_⟩
  · intro h
    have hb : b.isEmpty = true := by simp [isEmpty, h]
    rw [execute, hb]
    rfl
  · intro h
    obtain ⟨now, hexec⟩ := execute_of_ne_nil h e mode block s
    rw [hexec]
    cases hsettle : b.settleAnswer mode e.name (b.ask e mode block s.world).1 with
    | error cause =>
      refine ⟨rfl, ?_, fun _ _ => rfl, ?_⟩
      · intro cause'
        rw [← settleAnswer_eq_error_iff, hsettle]
        simp [Scene.commit]
      · intro flags hflags
        cases hflags
    | ok done =>
      refine ⟨rfl, ?_, ?_, ?_⟩
      · intro cause
        rw [← settleAnswer_eq_error_iff, hsettle]
        simp [Scene.commit]
      · intro cause hc
        cases hc
      · intro flags hflags
        cases hflags
        obtain ⟨outcomes, hanswer, hlen, rfl⟩ := settleAnswer_eq_ok hsettle
        refine ⟨outcomes, hanswer, hlen, settles_settlement hlen s.slots, ?_⟩
        rintro rfl
        exact flags_of_settleAnswer_strict hsettle

end Batch

end ContractReads
