import Mathlib
import ContractReads.Proofs.LogScans

/-!
# How filters are built

A filter is built from parts: contracts and values of topic positions, one after the other.  It is of no
importance in which order.

* `LogFilter.ofParts` puts parts together.  `LogFilter.Wants` says which logs are wanted, and mentions
  only which parts there are.
* `LogFilter.valuesAt_topic` is the step of the table of topics: a position gets the values behind those
  that it has, and the positions that are made for it have none.  `LogFilter.mem_addresses_ofParts` and
  `LogFilter.mem_valuesAt_ofParts` are about any number of steps.
* `LogFilter.topicsMatch_iff` says which topics are accepted, position by position.
* `LogFilter.wants_congr` is about two ways of giving the same, and `LogFilter.ofParts_order_free` puts
  these together.
-/

namespace ContractReads.LogFilter

/-- One step of building a filter. -/
inductive Part
  | address (a : Address)
  | topic (position : Nat) (values : List Word)

/-- Adds what a part gives. -/
def add (f : LogFilter) : Part → LogFilter
  | .address a => f.address a
  | .topic position values => f.topic position values

/-- The filter that is built from nothing, part by part. -/
def ofParts (parts : List Part) : LogFilter := parts.foldl add any

/-- The value is given for the position, by any of the parts. -/
def Given (parts : List Part) (position : Nat) (value : Word) : Prop :=
  ∃ values, .topic position values ∈ parts ∧ value ∈ values

/-- The log is of one of the contracts, if there are any, and at each position that values are given for
it has one of them. -/
structure Wants (parts : List Part) (log : Log) : Prop where
  address : (∀ a, .address a ∉ parts) ∨ .address log.address ∈ parts
  topics : ∀ position, (∃ value, Given parts position value) →
    ∃ topic, log.topics[position]? = some topic ∧ Given parts position topic

/-- The same logs are accepted. -/
def SameLogs (f g : LogFilter) : Prop := ∀ log, f.accepts log = g.accepts log

/-- The accepted values of a topic position; any value is accepted if there are none. -/
def valuesAt (f : LogFilter) (position : Nat) : List Word := f.topics[position]?.getD []

/-! ## Building -/

theorem getElem?_addValues (values : List Word) (p q : Nat) (ts : List (List Word)) :
    (addValues values p ts)[q]?.getD [] = ts[q]?.getD [] ++ if p = q then values else [] := by
  induction p generalizing q ts with
  | zero => cases ts <;> cases q <;> simp [addValues]
  | succ p ih => cases ts <;> cases q <;> simp [addValues, ih]

@[simp]
theorem valuesAt_any (q : Nat) : any.valuesAt q = [] := by
  simp [valuesAt, any]

@[simp]
theorem valuesAt_address (f : LogFilter) (a : Address) (q : Nat) :
    (f.address a).valuesAt q = f.valuesAt q := rfl

@[simp]
theorem valuesAt_topic (f : LogFilter) (p q : Nat) (values : List Word) :
    (f.topic p values).valuesAt q = f.valuesAt q ++ if p = q then values else [] :=
  getElem?_addValues values p q f.topics

theorem mem_addresses_add (f : LogFilter) (part : Part) (a : Address) :
    a ∈ (f.add part).addresses ↔ a ∈ f.addresses ∨ .address a = part := by
  cases part with
  | address b => simp [add, address]
  | topic p values => simp [add, topic]

theorem mem_valuesAt_add (f : LogFilter) (part : Part) (p : Nat) (v : Word) :
    v ∈ (f.add part).valuesAt p ↔
      v ∈ f.valuesAt p ∨ ∃ values, .topic p values = part ∧ v ∈ values := by
  cases part with
  | address b => simp [add]
  | topic q values =>
    by_cases h : q = p
    · subst h
      simp [add]
    · simp [add, h, Ne.symm h]

theorem mem_addresses_foldl (parts : List Part) (f : LogFilter) (a : Address) :
    a ∈ (parts.foldl add f).addresses ↔ a ∈ f.addresses ∨ .address a ∈ parts := by
  induction parts generalizing f with
  | nil => simp
  | cons part parts ih => rw [List.foldl_cons, ih, mem_addresses_add, List.mem_cons, or_assoc]

theorem mem_valuesAt_foldl (parts : List Part) (f : LogFilter) (p : Nat) (v : Word) :
    v ∈ (parts.foldl add f).valuesAt p ↔ v ∈ f.valuesAt p ∨ Given parts p v := by
  induction parts generalizing f with
  | nil => simp [Given]
  | cons part parts ih =>
    rw [List.foldl_cons, ih, mem_valuesAt_add, or_assoc]
    simp only [Given, List.mem_cons, or_and_right, exists_or]

theorem mem_addresses_ofParts (parts : List Part) (a : Address) :
    a ∈ (ofParts parts).addresses ↔ .address a ∈ parts := by
  simp [ofParts, mem_addresses_foldl, any]

theorem mem_valuesAt_ofParts (parts : List Part) (p : Nat) (v : Word) :
    v ∈ (ofParts parts).valuesAt p ↔ Given parts p v := by
  simp [ofParts, mem_valuesAt_foldl]

/-! ## Accepting -/

/-- Topics are accepted if they have an accepted value at each position that asks for some. -/
theorem topicsMatch_iff (accepted : List (List Word)) (topics : List Word) :
    topicsMatch accepted topics = true ↔ ∀ p : Nat, accepted[p]?.getD [] ≠ [] →
      ∃ t, topics[p]? = some t ∧ t ∈ accepted[p]?.getD [] := by
  induction accepted generalizing topics with
  | nil => simp [topicsMatch]
  | cons values accepted ih =>
    -- The first position stands apart from those behind it.
    have hsplit : (∀ p : Nat, (values :: accepted)[p]?.getD [] ≠ [] →
          ∃ t, topics[p]? = some t ∧ t ∈ (values :: accepted)[p]?.getD []) ↔
        (values ≠ [] → ∃ t, topics[0]? = some t ∧ t ∈ values) ∧
          topicsMatch accepted (topics.drop 1) = true := by
      rw [ih]
      constructor
      · intro h
        refine ⟨h 0, fun p hp => ?_⟩
        simpa [Nat.add_comm] using h (p + 1) hp
      · intro h p hp
        cases p with
        | zero => exact h.1 hp
        | succ p => simpa [Nat.add_comm] using h.2 p hp
    rw [hsplit]
    cases values with
    | nil => simp [topicsMatch]
    | cons v values =>
      rw [topicsMatch_cons (List.cons_ne_nil v values)]
      cases topics with
      | nil => simp
      | cons t topics => simp

theorem accepts_iff (f : LogFilter) (log : Log) : f.accepts log = true ↔
    (f.addresses = [] ∨ log.address ∈ f.addresses) ∧ ∀ p, f.valuesAt p ≠ [] →
      ∃ t, log.topics[p]? = some t ∧ t ∈ f.valuesAt p := by
  rw [accepts, Bool.and_eq_true, topicsMatch_iff]
  simp [valuesAt]

theorem accepts_ofParts (parts : List Part) (log : Log) :
    (ofParts parts).accepts log = true ↔ Wants parts log := by
  have haddresses : (ofParts parts).addresses = [] ↔ ∀ a, .address a ∉ parts := by
    simp only [List.eq_nil_iff_forall_not_mem, mem_addresses_ofParts]
  have hvalues (p : Nat) : (ofParts parts).valuesAt p ≠ [] ↔ ∃ v, Given parts p v := by
    simp only [ne_eq, List.eq_nil_iff_forall_not_mem, not_forall, not_not, mem_valuesAt_ofParts]
  rw [accepts_iff]
  simp only [haddresses, hvalues, mem_addresses_ofParts, mem_valuesAt_ofParts]
  constructor
  · intro h
    exact ⟨h.1, h.2⟩
  · intro h
    exact ⟨h.address, h.topics⟩

/-! ## Giving the same -/

theorem wants_congr {parts parts' : List Part} (haddress : ∀ a, .address a ∈ parts ↔ .address a ∈ parts')
    (hgiven : ∀ p v, Given parts p v ↔ Given parts' p v) :
    SameLogs (ofParts parts) (ofParts parts') := by
  intro log
  rw [Bool.eq_iff_iff, accepts_ofParts, accepts_ofParts]
  constructor
  · intro h
    refine ⟨?_, ?_⟩
    · simpa only [haddress] using h.address
    · simpa only [hgiven] using h.topics
  · intro h
    refine ⟨?_, ?_⟩
    · simpa only [haddress] using h.address
    · simpa only [hgiven] using h.topics

theorem given_perm {parts parts' : List Part} (h : parts.Perm parts') (p : Nat) (v : Word) :
    Given parts p v ↔ Given parts' p v := by
  simp only [Given, h.mem_iff]

theorem sameLogs_of_perm {parts parts' : List Part} (h : parts.Perm parts') :
    SameLogs (ofParts parts) (ofParts parts') :=
  wants_congr (fun _ => h.mem_iff) (given_perm h)

theorem given_append (parts parts' : List Part) (p : Nat) (v : Word) :
    Given (parts ++ parts') p v ↔ Given parts p v ∨ Given parts' p v := by
  simp [Given, or_and_right, exists_or]

/-- Values that are given together are given one part after the other. -/
theorem given_map_topic (p : Nat) (pieces : List (List Word)) (q : Nat) (v : Word) :
    Given (pieces.map (.topic p)) q v ↔ Given [.topic p pieces.flatten] q v := by
  by_cases h : p = q
  · subst h
    simp [Given]
  · simp [Given, h, Ne.symm h]

/-- The values of a position may be given in pieces, anywhere among the other parts. -/
theorem sameLogs_of_pieces {p : Nat} {pieces : List (List Word)} {rest parts parts' : List Part}
    (h : parts.Perm (.topic p pieces.flatten :: rest))
    (h' : parts'.Perm (pieces.map (.topic p) ++ rest)) :
    SameLogs (ofParts parts) (ofParts parts') := by
  refine wants_congr (fun a => ?_) fun q v => ?_
  · rw [h.mem_iff, h'.mem_iff]
    simp
  · rw [given_perm h, given_perm h', ← List.singleton_append, given_append, given_append,
      given_map_topic]

/-- A part without values may be left out. -/
theorem sameLogs_without (p : Nat) (before after : List Part) :
    SameLogs (ofParts (before ++ .topic p [] :: after)) (ofParts (before ++ after)) := by
  -- No values at all are no pieces.
  have h : (before ++ .topic p [] :: after).Perm
      (.topic p (List.flatten []) :: (before ++ after)) := List.perm_middle
  have h' : (before ++ after).Perm (List.map (.topic p) [] ++ (before ++ after)) := .refl _
  exact sameLogs_of_pieces h h'

/-- A filter accepts the logs that its parts want.  So it accepts the same logs in whatever order the
parts are added, whether the values of a position are given together or in pieces anywhere among the
other parts, and with or without parts that give no value. -/
theorem ofParts_order_free :
    (∀ parts log, (ofParts parts).accepts log = true ↔ Wants parts log) ∧
      (∀ parts parts' : List Part, parts.Perm parts' → SameLogs (ofParts parts) (ofParts parts')) ∧
      (∀ (p : Nat) (pieces : List (List Word)) (rest parts parts' : List Part),
        parts.Perm (.topic p pieces.flatten :: rest) → parts'.Perm (pieces.map (.topic p) ++ rest) →
          SameLogs (ofParts parts) (ofParts parts')) ∧
      ∀ (p : Nat) (before after : List Part),
        SameLogs (ofParts (before ++ .topic p [] :: after)) (ofParts (before ++ after)) := by
  refine ⟨accepts_ofParts, ?_, ?_, sameLogs_without⟩
  · intro parts parts' h
    exact sameLogs_of_perm h
  · intro p pieces rest parts parts' h h'
    exact sameLogs_of_pieces h h'

end ContractReads.LogFilter
