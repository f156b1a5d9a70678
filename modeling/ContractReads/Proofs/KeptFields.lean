import Mathlib
import ContractReads.Proofs.EventFields

/-!
# Fields that a decoded event keeps

Fields are kept by name, and an input without a name is called by its position.  So a value is lost
if another input is declared under this very name, and only then.

* `DecodedEvent.setFields_of_nodup` and `DecodedEvent.length_setFields_eq_iff`: fields that are set
  one after the other all stay if and only if their names differ.
* `Event.Takes` says which values belong to the inputs, whatever their names are.
  `Event.takeFields_eq_ok_iff` takes this apart from the setting of fields, and `Event.Takes.valueAt`
  says where the value of each input stands.
* `Event.nodup_fieldNames_iff`: inputs whose names differ are called by different names if and only
  if the event is `Event.Unambiguous`.
* `Contract.decodeEvent_keeps_iff` puts these together.
-/

namespace ContractReads

/-! ## Setting fields -/

namespace DecodedEvent

/-- Sets fields one after the other. -/
def setFields (fields : List (String × AbiValue)) :
    List (String × AbiValue) → List (String × AbiValue)
  | [] => fields
  | (name, value) :: rest => setFields (setField name value fields) rest

theorem setField_of_not_mem {name : String} {value : AbiValue} {fields : List (String × AbiValue)}
    (h : name ∉ fields.map Prod.fst) : setField name value fields = fields ++ [(name, value)] := by
  induction fields with
  | nil => rfl
  | cons f fields ih =>
    rw [List.map_cons, List.mem_cons, not_or] at h
    rw [setField, if_neg (Ne.symm h.1), ih h.2]
    rfl

/-- Only a new name is put behind the others. -/
theorem names_setField (name : String) (value : AbiValue) (fields : List (String × AbiValue)) :
    (setField name value fields).map Prod.fst =
      if name ∈ fields.map Prod.fst then fields.map Prod.fst
      else fields.map Prod.fst ++ [name] := by
  induction fields with
  | nil => rfl
  | cons f fields ih =>
    rw [setField]
    by_cases hname : f.1 = name
    · rw [if_pos hname, if_pos (by simp [hname])]
      rfl
    · rw [if_neg hname, List.map_cons, ih, List.map_cons]
      by_cases hmem : name ∈ fields.map Prod.fst
      · rw [if_pos hmem, if_pos (List.mem_cons_of_mem _ hmem)]
      · rw [if_neg hmem, if_neg (by simp [Ne.symm hname, hmem])]
        rfl

/-- No name stands twice. -/
theorem nodup_names_setFields {fields xs : List (String × AbiValue)}
    (h : (fields.map Prod.fst).Nodup) : ((setFields fields xs).map Prod.fst).Nodup := by
  induction xs generalizing fields with
  | nil => exact h
  | cons x xs ih =>
    refine ih ?_
    rw [names_setField]
    split
    · exact h
    · rename_i hnew
      exact h.append (List.nodup_singleton _) (List.disjoint_singleton.2 hnew)

/-- There are no other names than those that were set. -/
theorem mem_names_of_setFields {fields xs : List (String × AbiValue)} {name : String}
    (h : name ∈ (setFields fields xs).map Prod.fst) :
    name ∈ fields.map Prod.fst ∨ name ∈ xs.map Prod.fst := by
  induction xs generalizing fields with
  | nil => exact .inl h
  | cons x xs ih =>
    rw [List.map_cons, List.mem_cons]
    rcases ih h with hfields | hxs
    · rw [names_setField] at hfields
      split at hfields
      · exact .inl hfields
      · rw [List.mem_append, List.mem_singleton] at hfields
        exact hfields.imp_right .inl
    · exact .inr (.inr hxs)

/-- Fields of new and different names are put behind the others. -/
theorem setFields_append_of_nodup {fields xs : List (String × AbiValue)}
    (h : ((fields ++ xs).map Prod.fst).Nodup) : setFields fields xs = fields ++ xs := by
  induction xs generalizing fields with
  | nil => rw [setFields, List.append_nil]
  | cons x xs ih =>
    have hnew : x.1 ∉ fields.map Prod.fst := by
      rw [List.map_append, List.map_cons] at h
      exact fun hmem => List.disjoint_of_nodup_append h hmem List.mem_cons_self
    rw [List.append_cons] at h ⊢
    rw [setFields, setField_of_not_mem hnew, ih h]

theorem setFields_of_nodup {xs : List (String × AbiValue)} (h : (xs.map Prod.fst).Nodup) :
    setFields [] xs = xs :=
  setFields_append_of_nodup h

/-- All fields that are set stay if and only if their names differ. -/
theorem length_setFields_eq_iff {xs : List (String × AbiValue)} :
    (setFields [] xs).length = xs.length ↔ (xs.map Prod.fst).Nodup := by
  constructor
  · intro hlength
    have hkept : ((setFields [] xs).map Prod.fst).Subperm (xs.map Prod.fst) :=
      List.subperm_of_subset (nodup_names_setFields List.nodup_nil) fun _ hname =>
        (mem_names_of_setFields hname).resolve_left nofun
    have hperm := hkept.perm_of_length_le (by rw [List.length_map, List.length_map, hlength])
    exact hperm.nodup_iff.1 (nodup_names_setFields List.nodup_nil)
  · intro h
    rw [setFields_of_nodup h]

end DecodedEvent

open DecodedEvent (setFields)

namespace Event

/-! ## Values of the inputs -/

/-- The values that belong to inputs: those of the indexed ones are read from the topics, the
others are those in the data, both in their order. -/
inductive Takes : List EventInput → (topics : List Word) → (body values : List AbiValue) → Prop
  | nil (topics : List Word) (body : List AbiValue) : Takes [] topics body []
  | indexed {input : EventInput} {inputs : List EventInput} {t : AbiType} {topic : Word}
    {topics : List Word} {v : AbiValue} {body values : List AbiValue}
    (indexed : input.indexed = true) (type : input.param.type = .ok t)
    (read : topicValue t topic = .ok v) (rest : Takes inputs topics body values) :
    Takes (input :: inputs) (topic :: topics) body (v :: values)
  | plain {input : EventInput} {inputs : List EventInput} {topics : List Word} {v : AbiValue}
    {body values : List AbiValue} (plain : input.indexed = false)
    (rest : Takes inputs topics body values) : Takes (input :: inputs) topics (v :: body) (v :: values)

/-- What inputs are called that stand from a position on. -/
def namesFrom : (index : Nat) → List EventInput → List String
  | _, [] => []
  | i, input :: inputs => fieldName i input :: namesFrom (i + 1) inputs

/-- What the inputs of an event are called. -/
def fieldNames (e : Event) : List String := namesFrom 0 e.inputs

/-- Taking fields sets the values that belong to the inputs, each under the name of its input. -/
theorem takeFields_eq_ok_iff {e : Event} {inputs : List EventInput} {index : Nat}
    {topics : List Word} {body : List AbiValue} {fields fields' : List (String × AbiValue)} :
    e.takeFields index inputs topics body fields = .ok fields' ↔
      ∃ values, Takes inputs topics body values ∧
        fields' = setFields fields ((namesFrom index inputs).zip values) := by
  constructor
  · intro h
    induction inputs generalizing index topics body fields with
    | nil =>
      cases h
      exact ⟨[], .nil topics body, rfl⟩
    | cons input inputs ih =>
      unfold takeFields at h
      split at h
      · rename_i hindexed
        cases topics with
        | nil => cases h
        | cons topic topics =>
          obtain ⟨t, ht, h⟩ := bind_eq_ok_iff.1 h
          obtain ⟨v, hv, h⟩ := bind_eq_ok_iff.1 h
          obtain ⟨values, htakes, rfl⟩ := ih h
          exact ⟨v :: values, .indexed hindexed ht hv htakes, rfl⟩
      · rename_i hplain
        cases body with
        | nil => cases h
        | cons v body =>
          obtain ⟨values, htakes, rfl⟩ := ih h
          exact ⟨v :: values, .plain (Bool.eq_false_iff.2 hplain) htakes, rfl⟩
  · rintro ⟨values, htakes, rfl⟩
    induction htakes generalizing index fields with
    | nil => rfl
    | indexed hindexed ht hv _ ih =>
      unfold takeFields
      rw [if_pos hindexed]
      exact bind_eq_ok_iff.2 ⟨_, ht, bind_eq_ok_iff.2 ⟨_, hv, ih⟩⟩
    | plain hplain _ ih =>
      unfold takeFields
      rw [hplain, if_neg Bool.false_ne_true]
      exact ih

/-- The value of the input at a position.  That of an indexed input is read from a topic, and as
many topics are in front of it as indexed inputs; that of another input stands among the values in
the data, behind as many others as inputs that are not indexed. -/
inductive ValueAt (inputs : List EventInput) (topics : List Word) (body : List AbiValue)
    (i : Nat) (v : AbiValue) : Prop
  | indexed {input : EventInput} {t : AbiType} {topic : Word} (at' : inputs[i]? = some input)
    (indexed : input.indexed = true) (type : input.param.type = .ok t)
    (stands : topics[(inputs.take i).countP EventInput.indexed]? = some topic)
    (read : topicValue t topic = .ok v)
  | plain {input : EventInput} (at' : inputs[i]? = some input) (plain : input.indexed = false)
    (stands : body[(inputs.take i).countP fun input => !input.indexed]? = some v)

theorem Takes.length_eq {inputs : List EventInput} {topics : List Word} {body values : List AbiValue}
    (h : Takes inputs topics body values) : values.length = inputs.length := by
  induction h with
  | nil => rfl
  | indexed _ _ _ _ ih | plain _ _ ih => exact congrArg (· + 1) ih

/-- The value of each input is the one at its position. -/
theorem Takes.valueAt {inputs : List EventInput} {topics : List Word} {body values : List AbiValue}
    (h : Takes inputs topics body values) {i : Nat} {v : AbiValue} (hv : values[i]? = some v) :
    ValueAt inputs topics body i v := by
  induction h generalizing i with
  | nil => cases hv
  | indexed hindexed ht hread _ ih =>
    cases i with
    | zero =>
      cases hv
      exact .indexed rfl hindexed ht rfl hread
    | succ i =>
      cases ih hv with
      | indexed hat hindexed' ht' hstands hread' =>
        refine .indexed hat hindexed' ht' ?_ hread'
        rw [List.take_succ_cons, List.countP_cons_of_pos hindexed]
        exact hstands
      | plain hat hplain hstands =>
        refine .plain hat hplain ?_
        rw [List.take_succ_cons, List.countP_cons_of_neg (by simp [hindexed])]
        exact hstands
  | plain hplain _ ih =>
    cases i with
    | zero =>
      cases hv
      exact .plain rfl hplain rfl
    | succ i =>
      cases ih hv with
      | indexed hat hindexed ht hstands hread =>
        refine .indexed hat hindexed ht ?_ hread
        rw [List.take_succ_cons, List.countP_cons_of_neg (by simp [hplain])]
        exact hstands
      | plain hat hplain' hstands =>
        refine .plain hat hplain' ?_
        rw [List.take_succ_cons, List.countP_cons_of_pos (by simp [hplain])]
        exact hstands

/-! ## Names of the inputs -/

theorem getElem?_namesFrom (index : Nat) (inputs : List EventInput) (i : Nat) :
    (namesFrom index inputs)[i]? = inputs[i]?.map (fieldName (index + i)) := by
  induction inputs generalizing index i with
  | nil => rfl
  | cons input inputs ih =>
    cases i with
    | zero => rfl
    | succ i =>
      rw [namesFrom, List.getElem?_cons_succ, List.getElem?_cons_succ, ih, Nat.add_right_comm,
        Nat.add_assoc]

theorem length_namesFrom (index : Nat) (inputs : List EventInput) :
    (namesFrom index inputs).length = inputs.length := by
  induction inputs generalizing index with
  | nil => rfl
  | cons input inputs ih => rw [namesFrom, List.length_cons, List.length_cons, ih]

/-- The names that inputs are declared under differ. -/
def NamedApart (e : Event) : Prop :=
  e.inputs.Pairwise fun a b => a.param.name ≠ "" → a.param.name ≠ b.param.name

/-- No input is declared under the name that another one, without a name, is called by. -/
def Unambiguous (e : Event) : Prop :=
  ∀ (i : Nat) (a : EventInput), e.inputs[i]? = some a → a.param.name = "" →
    ∀ b ∈ e.inputs, b.param.name ≠ "arg" ++ toString i

theorem argName_injective {i j : Nat} (h : "arg" ++ toString i = "arg" ++ toString j) : i = j :=
  Nat.repr_injective ((String.append_right_inj _).1 h)

theorem fieldName_of_eq {i : EventInput} (h : i.param.name = "") (index : Nat) :
    fieldName index i = "arg" ++ toString index :=
  if_pos h

theorem nodup_fieldNames_iff_forall {e : Event} :
    e.fieldNames.Nodup ↔ ∀ (i j : Nat) (a b : EventInput), i < j → e.inputs[i]? = some a →
      e.inputs[j]? = some b → fieldName i a ≠ fieldName j b := by
  rw [List.nodup_iff_getElem?_ne_getElem?]
  simp only [fieldNames, getElem?_namesFrom, length_namesFrom, Nat.zero_add]
  constructor
  · intro h i j a b hij ha hb heq
    refine h i j hij (List.getElem?_eq_some_iff.1 hb).1 ?_
    rw [ha, hb, Option.map_some, Option.map_some, heq]
  · intro h i j hij hj heq
    rw [List.getElem?_eq_getElem (hij.trans hj), List.getElem?_eq_getElem hj] at heq
    exact h i j _ _ hij (List.getElem?_eq_getElem _) (List.getElem?_eq_getElem _)
      (Option.some.inj heq)

/-- Inputs at two positions that have a name have different ones. -/
theorem NamedApart.ne {e : Event} (apart : e.NamedApart) {i j : Nat} {a b : EventInput}
    (hij : i < j) (ha : e.inputs[i]? = some a) (hb : e.inputs[j]? = some b)
    (hname : a.param.name ≠ "") : a.param.name ≠ b.param.name := by
  obtain ⟨hi, rfl⟩ := List.getElem?_eq_some_iff.1 ha
  obtain ⟨hj, rfl⟩ := List.getElem?_eq_some_iff.1 hb
  exact List.pairwise_iff_getElem.1 apart i j hi hj hij hname

/-- Inputs whose names differ are called by different names if and only if no name is also that of
an input without one. -/
theorem nodup_fieldNames_iff {e : Event} (apart : e.NamedApart) :
    e.fieldNames.Nodup ↔ e.Unambiguous := by
  rw [nodup_fieldNames_iff_forall]
  constructor
  · intro h i a ha hunnamed b hb heq
    obtain ⟨j, hj, rfl⟩ := List.mem_iff_getElem.1 hb
    have hb := List.getElem?_eq_getElem hj
    have hnamed : e.inputs[j].param.name ≠ "" := by simp [heq]
    have hcalled : fieldName i a = fieldName j e.inputs[j] := by
      rw [fieldName_of_eq hunnamed, fieldName_of_ne hnamed, heq]
    rcases Nat.lt_trichotomy i j with hij | rfl | hij
    · exact h i j _ _ hij ha hb hcalled
    · cases ha.symm.trans hb
      exact hnamed hunnamed
    · exact h j i _ _ hij hb ha hcalled.symm
  · intro h i j a b hij ha hb heq
    by_cases hi : a.param.name = "" <;> by_cases hj : b.param.name = ""
    · rw [fieldName_of_eq hi, fieldName_of_eq hj] at heq
      exact hij.ne (argName_injective heq)
    · rw [fieldName_of_eq hi, fieldName_of_ne hj] at heq
      exact h i a ha hi b (List.mem_of_getElem? hb) heq.symm
    · rw [fieldName_of_ne hi, fieldName_of_eq hj] at heq
      exact h j b hb hj a (List.mem_of_getElem? ha) heq
    · rw [fieldName_of_ne hi, fieldName_of_ne hj] at heq
      exact apart.ne hij ha hb hi heq

/-- A decoded log has the values that belong to the inputs of its event. -/
theorem decode_eq_ok_iff {e : Event} {log : Log} {decoded : DecodedEvent} :
    e.decode log = .ok decoded ↔
      ∃ types body values, e.bodyTypes = .ok types ∧ decodeData types log.data = .ok body ∧
        Takes e.inputs (log.topics.drop 1) body values ∧
        decoded =
          ⟨e.name, log.address, log.blockNumber, setFields [] (e.fieldNames.zip values)⟩ := by
  constructor
  · intro h
    obtain ⟨types, body, fields, htypes, hbody, hfields, rfl⟩ := decode_eq_ok h
    obtain ⟨values, htakes, rfl⟩ := takeFields_eq_ok_iff.1 hfields
    exact ⟨types, body, values, htypes, hbody, htakes, rfl⟩
  · rintro ⟨types, body, values, htypes, hbody, htakes, rfl⟩
    refine bind_eq_ok_iff.2 ⟨types, htypes, bind_eq_ok_iff.2 ⟨body, hbody, ?_⟩⟩
    exact bind_eq_ok_iff.2 ⟨_, takeFields_eq_ok_iff.2 ⟨values, htakes, rfl⟩, rfl⟩

end Event

namespace Contract

/-- A log is decoded as one of the event that its first topic names. -/
theorem exists_event_of_decodeEvent {c : Contract} {log : Log} {decoded : DecodedEvent}
    (h : c.decodeEvent log = .ok decoded) :
    ∃ topic e, log.topics.head? = some topic ∧ c.interface.eventOfTopic? topic = some e ∧
      e.decode log = .ok decoded := by
  rw [decodeEvent] at h
  split at h
  · cases h
  · rename_i topic topics htopics
    split at h
    · rename_i e he
      exact ⟨topic, e, by rw [htopics]; rfl, he, h⟩
    · cases h

/-- A decoded log has a value for every input of its event, and sets them as fields under the names
of the inputs.  Where the inputs that have a name have different ones, all values are kept in their
order if and only if no input is declared under the name that another one is called by for want of a
name; otherwise there are fewer fields than inputs. -/
theorem decodeEvent_keeps_iff {c : Contract} {log : Log} {decoded : DecodedEvent}
    (h : c.decodeEvent log = .ok decoded) :
    ∃ topic e body values, log.topics.head? = some topic ∧
      c.interface.eventOfTopic? topic = some e ∧
      (∃ types, e.bodyTypes = .ok types ∧ decodeData types log.data = .ok body) ∧
      values.length = e.inputs.length ∧
      (∀ i v, values[i]? = some v → Event.ValueAt e.inputs (log.topics.drop 1) body i v) ∧
      decoded.fields = setFields [] (e.fieldNames.zip values) ∧
      (e.NamedApart →
        (decoded.fields = e.fieldNames.zip values ↔ e.Unambiguous) ∧
        (decoded.fields.length = e.inputs.length ↔ e.Unambiguous)) := by
  obtain ⟨topic, e, htopic, he, hdecode⟩ := exists_event_of_decodeEvent h
  obtain ⟨types, body, values, htypes, hbody, htakes, rfl⟩ := Event.decode_eq_ok_iff.1 hdecode
  refine ⟨topic, e, body, values, htopic, he, ⟨types, htypes, hbody⟩, htakes.length_eq,
    fun i v hv => htakes.valueAt hv, rfl, fun apart => ?_⟩
  have hnames : e.fieldNames.length = values.length := by
    rw [htakes.length_eq, Event.fieldNames, Event.length_namesFrom]
  have hnodup : ((e.fieldNames.zip values).map Prod.fst).Nodup ↔ e.Unambiguous := by
    rw [List.map_fst_zip (Nat.le_of_eq hnames), Event.nodup_fieldNames_iff apart]
  have hlength : (e.fieldNames.zip values).length = e.inputs.length := by
    rw [List.length_zip, hnames, Nat.min_self, htakes.length_eq]
  dsimp only
  rw [← hlength, DecodedEvent.length_setFields_eq_iff, hnodup]
  refine ⟨⟨fun hall => ?_, fun hunambiguous => ?_⟩, Iff.rfl⟩
  · rw [← hnodup, ← DecodedEvent.length_setFields_eq_iff, hall]
  · exact DecodedEvent.setFields_of_nodup (hnodup.2 hunambiguous)

/-! ### Names that are given by position -/

/-- A contract with one event. -/
def emitter (e : Event) : Contract where
  name := "emitter"
  address := default
  interface := ⟨[], [e]⟩

theorem eventOfTopic?_emitter {e : Event} (named : e.anonymous = false) :
    (emitter e).interface.eventOfTopic? e.selector = some e := by
  simp [Interface.eventOfTopic?, emitter, named]

/-- Two numbers, the second one without a name. -/
def secondUnnamed (firstName : String) : Event where
  name := "Changed"
  inputs := [Interface.plain firstName "uint256", Interface.plain "" "uint256"]
  anonymous := false

/-- A log with the numbers one and two. -/
def oneAndTwo (e : Event) : Log where
  address := default
  topics := [e.selector]
  data := AbiValue.encodeParams [.uint 1 256, .uint 2 256]
  blockNumber := 5
  logIndex := 0
  transactionHash := none
  removed := false

theorem namedApart_secondUnnamed (firstName : String) : (secondUnnamed firstName).NamedApart := by
  simp [Event.NamedApart, secondUnnamed, Interface.plain, Interface.simple]

theorem decodeEvent_secondUnnamed (firstName : String) :
    (emitter (secondUnnamed firstName)).decodeEvent (oneAndTwo (secondUnnamed firstName)) =
      .ok ⟨"Changed", default, 5, setFields [] ((secondUnnamed firstName).fieldNames.zip
        [.uint 1 256, .uint 2 256])⟩ := by
  have htypes : (secondUnnamed firstName).bodyTypes = .ok [.uint 256, .uint 256] :=
    Param.types_cons AbiType.ofText_uint256 (Param.types_cons AbiType.ofText_uint256 rfl)
  have hbody : decodeData [.uint 256, .uint 256] (AbiValue.encodeParams [.uint 1 256, .uint 2 256]) =
      .ok [.uint 1 256, .uint 2 256] := by
    refine decodeData_encodeParams rfl ?_ (by decide +kernel) (by decide) (by decide) rfl
    simp only [List.zip_cons_cons, List.zip_nil_right, List.forall_mem_cons]
    exact ⟨.uint _ _, .uint _ _, nofun⟩
  have htakes : Event.Takes (secondUnnamed firstName).inputs [] [.uint 1 256, .uint 2 256]
      [.uint 1 256, .uint 2 256] := .plain rfl (.plain rfl (.nil _ _))
  rw [decodeEvent_of_topic rfl (eventOfTopic?_emitter rfl)]
  exact Event.decode_eq_ok_iff.2 ⟨_, _, _, htypes, hbody, htakes, rfl⟩

/-- The second number is called by its position, so that a first one named for another position is
kept beside it. -/
theorem decodeEvent_keeps_iff_arg2 : ∃ decoded,
    (emitter (secondUnnamed "arg2")).decodeEvent (oneAndTwo (secondUnnamed "arg2")) = .ok decoded ∧
      (secondUnnamed "arg2").NamedApart ∧ decoded.fields.length = 2 := by
  have hdecode := decodeEvent_secondUnnamed "arg2"
  refine ⟨_, hdecode, namedApart_secondUnnamed "arg2", ?_⟩
  obtain ⟨topic, e, body, values, htopic, he, -, -, -, -, hkept⟩ := decodeEvent_keeps_iff hdecode
  cases htopic
  rw [eventOfTopic?_emitter rfl] at he
  cases he
  refine (hkept (namedApart_secondUnnamed "arg2")).2.2 fun i a ha hunnamed => ?_
  match i, ha with
  | 0, ha =>
    cases ha
    exact absurd hunnamed (by decide)
  | 1, _ =>
    show ∀ b ∈ (secondUnnamed "arg2").inputs, b.param.name ≠ "arg1"
    decide

/-- Not every value is kept.  A number that is declared under the name which the second one is
called by gives way to it. -/
theorem not_decodeEvent_keeps :
    ¬(∀ (e : Event) (log : Log) (decoded : DecodedEvent), e.NamedApart →
      (emitter e).decodeEvent log = .ok decoded → decoded.fields.length = e.inputs.length) ∧
    (emitter (secondUnnamed "arg1")).decodeEvent (oneAndTwo (secondUnnamed "arg1")) =
      .ok ⟨"Changed", default, 5, [("arg1", .uint 2 256)]⟩ := by
  have hdecode := decodeEvent_secondUnnamed "arg1"
  have hlost : setFields [] ((secondUnnamed "arg1").fieldNames.zip [.uint 1 256, .uint 2 256]) =
      [("arg1", .uint 2 256)] := rfl
  rw [hlost] at hdecode
  refine ⟨fun h => ?_, hdecode⟩
  exact absurd (h _ _ _ (namedApart_secondUnnamed "arg1") hdecode) (by decide)

end Contract

end ContractReads
