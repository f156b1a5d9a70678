import ContractReads.Proofs.ActionEvents

/-!
# Fields of decoded events

A decoded event keeps the fields of its declaration by name.

* `DecodedEvent.valueOf_setField_self` and `DecodedEvent.valueOf_setField_of_ne` say what setting a
  field changes, and `Event.valueOf_takeFields` that fields of other names leave a field alone.
* `Event.NamesSender`: an event whose first field is the address of the sender, in a topic.  Every
  log that is decoded as such an event has a sender (`Event.NamesSender.get_from`).
* `Submissions.Known.get_from` is about the submissions to contracts with a known interface, and
  `Submissions.Known.kind_eq` says that no log is of submissions of both kinds.
-/

namespace ContractReads

/-! ## Fields by name -/

namespace DecodedEvent

/-- The value of a name. -/
def valueOf (name : String) (fields : List (String × AbiValue)) : Option AbiValue :=
  (fields.find? fun f => f.1 = name).map Prod.snd

theorem valueOf_setField_self (name : String) (value : AbiValue)
    (fields : List (String × AbiValue)) :
    valueOf name (setField name value fields) = some value := by
  induction fields with
  | nil => simp [setField, valueOf]
  | cons f fields ih =>
    rw [setField]
    split
    · rename_i hname
      simp [valueOf, hname]
    · rename_i hname
      rw [valueOf, List.find?_cons_of_neg (by simpa using hname)]
      exact ih

theorem valueOf_setField_of_ne {name other : String} (h : other ≠ name) (value : AbiValue)
    (fields : List (String × AbiValue)) :
    valueOf name (setField other value fields) = valueOf name fields := by
  induction fields with
  | nil => simp [setField, valueOf, h]
  | cons f fields ih =>
    rw [setField]
    split
    · rename_i hname
      simp [valueOf, hname, h]
    · by_cases hf : f.1 = name
      · simp [valueOf, hf]
      · rw [valueOf, List.find?_cons_of_neg (by simpa using hf)]
        rw [valueOf, List.find?_cons_of_neg (by simpa using hf)]
        exact ih

end DecodedEvent

open DecodedEvent (valueOf valueOf_setField_self valueOf_setField_of_ne)

namespace Event

/-- A field with a name is called by it. -/
theorem fieldName_of_ne {i : EventInput} (h : i.param.name ≠ "") (index : Nat) :
    fieldName index i = i.param.name :=
  if_neg h

/-- Taking further fields leaves a field of another name as it is. -/
theorem valueOf_takeFields {e : Event} {name : String} {inputs : List EventInput} {index : Nat}
    {topics : List Word} {body : List AbiValue} {fields fields' : List (String × AbiValue)}
    (h : e.takeFields index inputs topics body fields = .ok fields')
    (others : ∀ i ∈ inputs, i.param.name ≠ "" ∧ i.param.name ≠ name) :
    valueOf name fields' = valueOf name fields := by
  induction inputs generalizing index topics body fields with
  | nil =>
    cases h
    rfl
  | cons input inputs ih =>
    obtain ⟨⟨hnamed, hother⟩, hothers⟩ := List.forall_mem_cons.1 others
    have hset : ∀ v, valueOf name (DecodedEvent.setField (fieldName index input) v fields) =
        valueOf name fields := by
      intro v
      rw [fieldName_of_ne hnamed]
      exact valueOf_setField_of_ne hother v fields
    unfold takeFields at h
    split at h
    · cases topics with
      | nil => cases h
      | cons topic topics =>
        obtain ⟨t, -, h⟩ := bind_eq_ok_iff.1 h
        obtain ⟨v, -, h⟩ := bind_eq_ok_iff.1 h
        exact (ih h hothers).trans (hset v)
    · cases body with
      | nil => cases h
      | cons v body => exact (ih h hothers).trans (hset v)

/-! ## Senders -/

/-- The first field of an event is the address of a sender, in a topic, and no other field has its
name. -/
def NamesSender (e : Event) : Prop :=
  ∃ others, e.inputs = Interface.indexed "from" "address" :: others ∧
    ∀ i ∈ others, i.param.name ≠ "" ∧ i.param.name ≠ "from"

/-- A topic that is read as an address holds one. -/
theorem topicValue_address {topic : Word} {v : AbiValue} (h : topicValue .address topic = .ok v) :
    ∃ a, v = .address a := by
  have hdecode : decodeData [.address] topic.toBytes = .ok [v] := by
    rw [topicValue] at h
    rw [decodeData]
    split at h
    · rename_i hparams
      cases h
      rw [hparams]
    · cases h
    · cases h
  obtain ⟨-, ⟨hkind, -⟩, -⟩ := decodeData_hasShape rfl hdecode
  cases v <;> try exact hkind.elim
  exact ⟨_, rfl⟩

/-- A log of an event with a sender says who sent it, if it can be decoded. -/
theorem NamesSender.get_from {e : Event} (h : e.NamesSender) {log : Log} {decoded : DecodedEvent}
    (hdecode : e.decode log = .ok decoded) :
    ∃ sender : Address, decoded.get "from" = .ok sender := by
  obtain ⟨others, hinputs, hothers⟩ := h
  obtain ⟨types, body, fields, -, -, hfields, rfl⟩ := decode_eq_ok hdecode
  rw [hinputs] at hfields
  cases htopics : log.topics.drop 1 with
  | nil =>
    rw [htopics] at hfields
    cases hfields
  | cons topic topics =>
    rw [htopics] at hfields
    obtain ⟨t, ht, hfields⟩ := bind_eq_ok_iff.1 hfields
    obtain ⟨v, hv, hfields⟩ := bind_eq_ok_iff.1 hfields
    obtain rfl : AbiType.address = t := Except.ok.inj ht
    obtain ⟨sender, rfl⟩ := topicValue_address hv
    have hvalue : valueOf "from" fields = some (.address sender) := by
      rw [valueOf_takeFields hfields hothers]
      exact valueOf_setField_self "from" _ []
    refine ⟨sender, ?_⟩
    have hfield : DecodedEvent.field? ⟨e.name, log.address, log.blockNumber, fields⟩ "from" =
        some (.address sender) := hvalue
    rw [DecodedEvent.get, hfield]
    rfl

end Event

/-! ## Submissions of known contracts -/

namespace Oracle

namespace SubmissionKind

/-- The known interface of the contract that takes the submissions. -/
def interface : SubmissionKind → Interface
  | prices => .networkPrices
  | balances => .networkBalances

theorem interface?_contractName (kind : SubmissionKind) :
    ContractName.interface? kind.contractName = some kind.interface := by
  cases kind <;> rfl

theorem distinct_interface : ∀ kind : SubmissionKind, kind.interface.Distinct
  | prices => ⟨by decide, by decide +kernel⟩
  | balances => ⟨by decide, by decide +kernel⟩

/-- The event of a submission names the sender. -/
theorem namesSender (kind : SubmissionKind) {e : Event} (he : e ∈ kind.interface.events)
    (hname : e.name = kind.eventName) : e.NamesSender := by
  cases kind with
  | prices =>
    simp only [interface, Interface.networkPrices, List.mem_cons, List.not_mem_nil, or_false] at he
    rcases he with rfl | rfl
    · exact ⟨_, rfl, by decide⟩
    · exact absurd hname (by decide)
  | balances =>
    simp only [interface, Interface.networkBalances, List.mem_cons, List.not_mem_nil, or_false]
      at he
    rcases he with rfl | rfl
    · exact ⟨_, rfl, by decide⟩
    · exact absurd hname (by decide)

/-- The first topic of the logs of submissions, as the known interface has it. -/
def topic? (kind : SubmissionKind) : Option Word :=
  (kind.interface.event? kind.eventName).map Event.selector

theorem topic?_prices_ne : topic? prices ≠ topic? balances := by decide +kernel

/-- Submissions of the two kinds have different topics. -/
theorem topic?_injective {kind other : SubmissionKind} (h : kind.topic? = other.topic?) :
    kind = other := by
  cases kind <;> cases other
  · rfl
  · exact absurd h topic?_prices_ne
  · exact absurd h.symm topic?_prices_ne
  · rfl

end SubmissionKind

namespace Submissions

variable {s : Submissions}

/-- The contract that takes the submissions has the interface that is known by its name. -/
def Known (s : Submissions) : Prop :=
  ContractName.interface? s.kind.contractName = some s.contract.interface

theorem Known.interface_eq (known : s.Known) : s.contract.interface = s.kind.interface :=
  Option.some.inj (known.symm.trans s.kind.interface?_contractName)

/-- A log of a submission that can be decoded says who sent it. -/
theorem Known.get_from (known : s.Known) {log : Log}
    (hemits : s.contract.Emits s.kind.eventName log) {decoded : DecodedEvent}
    (hdecode : s.contract.decodeEvent log = .ok decoded) :
    ∃ sender : Address, decoded.get "from" = .ok sender := by
  have distinct : s.contract.interface.Distinct := by
    rw [known.interface_eq]
    exact s.kind.distinct_interface
  obtain ⟨e, he, hname, hevent⟩ := Contract.exists_event_of_emits distinct hemits
  rw [known.interface_eq] at he
  rw [hevent] at hdecode
  exact (s.kind.namesSender he hname).get_from hdecode

/-- The first topic of a submission is that of the known interface. -/
theorem Known.head?_topics (known : s.Known) {log : Log}
    (hemits : s.contract.Emits s.kind.eventName log) : log.topics.head? = s.kind.topic? := by
  obtain ⟨-, topic, htopic, hhead⟩ := hemits
  rw [hhead, SubmissionKind.topic?, ← known.interface_eq]
  obtain ⟨e, he, rfl⟩ := map_eq_ok_iff.1 htopic
  rw [Contract.event] at he
  split at he
  · rename_i e' hfind
    cases he
    rw [hfind, Option.map_some]
  · cases he

/-- No log is of submissions of both kinds. -/
theorem Known.kind_eq (known : s.Known) {other : Submissions} (known' : other.Known) {log : Log}
    (hemits : s.contract.Emits s.kind.eventName log)
    (hemits' : other.contract.Emits other.kind.eventName log) : s.kind = other.kind :=
  SubmissionKind.topic?_injective
    ((known.head?_topics hemits).symm.trans (known'.head?_topics hemits'))

end Submissions

end Oracle

end ContractReads
