import Mathlib
import ContractReads.Proofs.KeptFields

/-!
# Logs that are read back

A log of an event holds the values of the indexed inputs in its topics and those of the others in its
data.  Both are put together again in the order of the declaration.

* `AbiValue.topic` is the topic of a value that takes one word; `Event.topicValue_topic` reads it.
* `Filled` is an input with its type and a value, and `Event.Writes` says which logs hold the values
  of all inputs.  `Filled.takes` is the induction on the inputs.
* `Event.Takes.countP_le`: there are topics for all indexed inputs, and values in the data for all
  others.
* `Contract.decodeEvent_written` puts these together.
-/

namespace ContractReads

open DecodedEvent (setFields)

/-! ## Topics -/

/-- Whether values of a type are written into a topic as they are. -/
def AbiType.isWord : AbiType → Bool
  | bool | int _ | uint _ | address | fixedBytes _ => true
  | _ => false

namespace AbiValue

/-- The topic that a value of one word is written into. -/
def topic (v : AbiValue) : Word := .ofFront 32 (encodeParams [v])

theorem toBytes_ofFront {n : Nat} {bs : Bytes} (h : bs.length = n) :
    (FixedBytes.ofFront n bs).toBytes = bs :=
  List.take_left' h

/-- A value of one word is written as its body. -/
theorem encodeParams_singleton {v : AbiValue} (static : v.part.dynamic = false) :
    encodeParams [v] = v.part.body := by
  have htails : Part.tails [v.part] = [] := Part.tails_of_static (by simp [static])
  rw [encodeParams, parts, parts, Part.assemble, htails, Part.heads, static,
    if_neg Bool.false_ne_true, Part.heads, List.append_nil, List.append_nil]

theorem OfType.length_encodeParams {room : Nat} {t : AbiType} {v : AbiValue} (h : OfType room t v)
    (word : t.isWord = true) : (encodeParams [v]).length = 32 := by
  have hbody : v.part.dynamic = false ∧ v.part.body.length = 32 := by
    cases h with
    | bool | uint | int => exact ⟨rfl, Bytes.length_ofNat 32 _⟩
    | fixedBytes size w => exact ⟨rfl, w.length_toBytes⟩
    | address a => exact ⟨rfl, a.toWord.length_toBytes⟩
    | function | bytes | string | array | fixedArray | tuple => cases word
  rw [encodeParams_singleton hbody.1, hbody.2]

end AbiValue

namespace Event

theorem topicValue_of_decodeParams {t : AbiType} {w : Word} {v : AbiValue} (word : t.isWord = true)
    (h : Abi.decodeParams [t] w.toBytes = .ok [v]) : topicValue t w = .ok v := by
  cases t with
  | bool | int | uint | address | fixedBytes => simp only [topicValue, h]
  | function | bytes | string | array | fixedArray | tuple => cases word

/-- A value of one word is read from its topic. -/
theorem topicValue_topic {t : AbiType} {v : AbiValue} (h : AbiValue.OfType Abi.maxPlaces t v)
    (word : t.isWord = true) : topicValue t v.topic = .ok v := by
  have hlength := h.length_encodeParams word
  refine topicValue_of_decodeParams word ?_
  rw [AbiValue.topic, AbiValue.toBytes_ofFront hlength]
  have hone : AbiType.nestingAll [t] = 0 ∧ AbiType.placesAll [t] = 1 ∧
      AbiType.allEmpty [t] = false := by
    cases t with
    | bool | int | uint | address | fixedBytes => exact ⟨rfl, rfl, rfl⟩
    | function | bytes | string | array | fixedArray | tuple => cases word
  obtain ⟨hnesting, hplaces, hfull⟩ := hone
  refine AbiValue.decodeParams_encodeParams rfl ?_ (by omega) (by omega) ?_ hfull
  · exact List.forall_mem_singleton.2 h
  · rw [hplaces]
    decide

end Event

/-! ## Inputs with values -/

/-- An input of an event with its type and a value. -/
structure Filled where
  input : EventInput
  type : AbiType
  value : AbiValue

namespace Filled

/-- The value is of the input's type, and takes one word if it is written into a topic. -/
structure Valid (f : Filled) : Prop where
  type : f.input.param.type = .ok f.type
  value : AbiValue.OfType Abi.maxPlaces f.type f.value
  word : f.input.indexed = true → f.type.isWord = true

theorem Valid.plain {f : Filled} (plain : f.input.indexed = false)
    (type : f.input.param.type = .ok f.type) (value : AbiValue.OfType Abi.maxPlaces f.type f.value) :
    f.Valid :=
  ⟨type, value, fun indexed => absurd (plain.symm.trans indexed) Bool.false_ne_true⟩

/-- Those that are written into the topics. -/
def inTopics (fs : List Filled) : List Filled := fs.filter fun f => f.input.indexed

/-- Those that are written into the data. -/
def inData (fs : List Filled) : List Filled := fs.filter fun f => !f.input.indexed

/-- The values are those that belong to the inputs, whatever topics follow. -/
theorem takes {fs : List Filled} (valid : ∀ f ∈ fs, f.Valid) (more : List Word) :
    Event.Takes (fs.map input) ((inTopics fs).map (fun f => f.value.topic) ++ more)
      ((inData fs).map value) (fs.map value) := by
  induction fs with
  | nil => exact .nil _ _
  | cons f fs ih =>
    have hf := valid f List.mem_cons_self
    have hfs := ih fun g hg => valid g (List.mem_cons_of_mem f hg)
    cases hindexed : f.input.indexed with
    | true =>
      have htopics : inTopics (f :: fs) = f :: inTopics fs := List.filter_cons_of_pos hindexed
      have hdata : inData (f :: fs) = inData fs := List.filter_cons_of_neg (by simp [hindexed])
      rw [htopics, hdata]
      exact .indexed hindexed hf.type (Event.topicValue_topic hf.value (hf.word hindexed)) hfs
    | false =>
      have htopics : inTopics (f :: fs) = inTopics fs :=
        List.filter_cons_of_neg (by simp [hindexed])
      have hdata : inData (f :: fs) = f :: inData fs := List.filter_cons_of_pos (by simp [hindexed])
      rw [htopics, hdata]
      exact .plain hindexed hfs

theorem types {fs : List Filled} (valid : ∀ f ∈ fs, f.Valid) :
    Param.types (fs.map fun f => f.input.param) = .ok (fs.map type) := by
  induction fs with
  | nil => rfl
  | cons f fs ih =>
    have hf := (valid f List.mem_cons_self).type
    have hfs := ih fun g hg => valid g (List.mem_cons_of_mem f hg)
    exact bind_eq_ok_iff.2 ⟨_, hf, bind_eq_ok_iff.2 ⟨_, hfs, rfl⟩⟩

theorem valid_inData {fs : List Filled} (valid : ∀ f ∈ fs, f.Valid) : ∀ f ∈ inData fs, f.Valid :=
  fun f hf => valid f (List.mem_of_mem_filter hf)

end Filled

namespace Event

/-! ## Logs of an event -/

/-- A log that holds values of all inputs of an event: its first topic names the event, the further
ones are those of the indexed values, and the data starts with the others. -/
structure Writes (e : Event) (fs : List Filled) (log : Log) : Prop where
  inputs : e.inputs = fs.map Filled.input
  valid : ∀ f ∈ fs, f.Valid
  topics : ∃ more, log.topics = e.selector :: (Filled.inTopics fs).map (fun f => f.value.topic) ++ more
  data : ∃ more, log.data = AbiValue.encodeParams ((Filled.inData fs).map Filled.value) ++ more

/-- What is read from the data of a log that holds values. -/
theorem Writes.decodeData_eq {e : Event} {fs : List Filled} {log : Log} (h : e.Writes fs log)
    (short : (AbiValue.encodeParams ((Filled.inData fs).map Filled.value)).length < 2 ^ 64)
    (depth : AbiType.nestingAll ((Filled.inData fs).map Filled.type) ≤ 16)
    (places : AbiType.placesAll ((Filled.inData fs).map Filled.type) ≤ Abi.maxPlaces) :
    e.bodyTypes = .ok ((Filled.inData fs).map Filled.type) ∧
    decodeData ((Filled.inData fs).map Filled.type) log.data =
      .ok (if AbiType.allEmpty ((Filled.inData fs).map Filled.type) then []
        else (Filled.inData fs).map Filled.value) := by
  have hvalid := Filled.valid_inData h.valid
  constructor
  · have hinputs : (e.inputs.filter fun i => !i.indexed).map EventInput.param =
        (Filled.inData fs).map fun f => f.input.param := by
      rw [h.inputs, List.filter_map, List.map_map]
      rfl
    rw [bodyTypes, hinputs, Filled.types hvalid]
  · obtain ⟨more, hdata⟩ := h.data
    rw [hdata]
    refine decodeData_encodeParams_append (by rw [List.length_map, List.length_map]) ?_ short depth
      places more
    rw [List.zip_map']
    exact List.forall_mem_map.2 fun f hf => (hvalid f hf).value

/-- There are topics for all indexed inputs, and values in the data for all others. -/
theorem Takes.countP_le {inputs : List EventInput} {topics : List Word}
    {body values : List AbiValue} (h : Takes inputs topics body values) :
    inputs.countP EventInput.indexed ≤ topics.length ∧
      (inputs.countP fun input => !input.indexed) ≤ body.length := by
  induction h with
  | nil => simp
  | indexed hindexed _ _ _ ih => simp [hindexed, ih]
  | plain hplain _ ih => simp [hplain, ih]

section Writes

variable {e : Event} {fs : List Filled} {log : Log} (h : e.Writes fs log)
  (short : (AbiValue.encodeParams ((Filled.inData fs).map Filled.value)).length < 2 ^ 64)
  (depth : AbiType.nestingAll ((Filled.inData fs).map Filled.type) ≤ 16)
  (places : AbiType.placesAll ((Filled.inData fs).map Filled.type) ≤ Abi.maxPlaces)

include h short depth places

/-- The values are read back, if there is something to be read from the data or nothing in it. -/
theorem Writes.decode_eq (names : e.fieldNames.Nodup)
    (full : AbiType.allEmpty ((Filled.inData fs).map Filled.type) = true → Filled.inData fs = []) :
    e.decode log = .ok ⟨e.name, log.address, log.blockNumber,
      e.fieldNames.zip (fs.map Filled.value)⟩ := by
  obtain ⟨htypes, hbody⟩ := h.decodeData_eq short depth places
  have hvalues : (if AbiType.allEmpty ((Filled.inData fs).map Filled.type) then []
      else (Filled.inData fs).map Filled.value) = (Filled.inData fs).map Filled.value := by
    split
    · rename_i hempty
      rw [full hempty, List.map_nil]
    · rfl
  rw [hvalues] at hbody
  obtain ⟨more, htopics⟩ := h.topics
  have htakes : Takes e.inputs (log.topics.drop 1) ((Filled.inData fs).map Filled.value)
      (fs.map Filled.value) := by
    rw [h.inputs, htopics]
    exact Filled.takes h.valid more
  have hlength : e.fieldNames.length = (fs.map Filled.value).length := by
    rw [htakes.length_eq, fieldNames, length_namesFrom]
  have hkept : setFields [] (e.fieldNames.zip (fs.map Filled.value)) =
      e.fieldNames.zip (fs.map Filled.value) := by
    refine DecodedEvent.setFields_of_nodup ?_
    rwa [List.map_fst_zip (Nat.le_of_eq hlength)]
  exact decode_eq_ok_iff.2 ⟨_, _, _, htypes, hbody, htakes, by rw [hkept]⟩

/-- If no type in the data takes room, nothing is read from the data, so that its inputs are
missing. -/
theorem Writes.decode_ne (empty : AbiType.allEmpty ((Filled.inData fs).map Filled.type) = true)
    (some : Filled.inData fs ≠ []) (decoded : DecodedEvent) : e.decode log ≠ .ok decoded := by
  intro hdecode
  obtain ⟨htypes, hbody⟩ := h.decodeData_eq short depth places
  obtain ⟨types, body, values, htypes', hbody', htakes, -⟩ := decode_eq_ok_iff.1 hdecode
  cases htypes.symm.trans htypes'
  rw [hbody, if_pos empty] at hbody'
  cases hbody'
  have hcount : (e.inputs.countP fun input => !input.indexed) = (Filled.inData fs).length := by
    rw [h.inputs, List.countP_map, List.countP_eq_length_filter]
    rfl
  have hle := htakes.countP_le.2
  rw [hcount, List.length_nil, Nat.le_zero, List.length_eq_zero_iff] at hle
  exact some hle

end Writes

end Event

/-- An event that is named by the first topic of its logs, and no event in front of it is named by the
same topic. -/
structure Interface.NamesFirst (i : Interface) (e : Event) : Prop where
  named : e.anonymous = false
  first : ∃ before after, i.events = before ++ e :: after ∧
    ∀ other ∈ before, other.anonymous = false → other.selector ≠ e.selector

theorem Interface.NamesFirst.eventOfTopic? {i : Interface} {e : Event} (h : i.NamesFirst e) :
    i.eventOfTopic? e.selector = some e := by
  obtain ⟨before, after, hevents, hbefore⟩ := h.first
  rw [Interface.eventOfTopic?, List.find?_eq_some_iff_append]
  refine ⟨by simp [h.named], before, after, hevents, fun other hother => ?_⟩
  cases hanonymous : other.anonymous with
  | true => rfl
  | false => simpa using hbefore other hother hanonymous

namespace Contract

/-- What is never decoded is refused. -/
theorem exists_error_of_forall_ne {ε α : Type} {x : Except ε α} (h : ∀ a, x ≠ .ok a) :
    ∃ e, x = .error e := by
  cases x with
  | ok a => exact absurd rfl (h a)
  | error e => exact ⟨e, rfl⟩

/-- The values that a log of an event was written with are read back from it, under the names of the
inputs and in their order, whatever topics and whatever data follow: if these names differ, the bytes
can be counted, the types in the data nest no deeper than sixteen child cursors, and there is room for
what is made for them.  Only where there are inputs in the data and none of them takes room is the log
refused.  A log of the event with fewer topics than it has indexed inputs, besides the one that names
it, is refused always. -/
theorem decodeEvent_written {c : Contract} {e : Event} (first : c.interface.NamesFirst e) :
    (∀ fs log, e.Writes fs log → e.fieldNames.Nodup →
      (AbiValue.encodeParams ((Filled.inData fs).map Filled.value)).length < 2 ^ 64 →
      AbiType.nestingAll ((Filled.inData fs).map Filled.type) ≤ 16 →
      AbiType.placesAll ((Filled.inData fs).map Filled.type) ≤ Abi.maxPlaces →
      if Filled.inData fs ≠ [] ∧ AbiType.allEmpty ((Filled.inData fs).map Filled.type) = true then
        ∃ cause, c.decodeEvent log = .error cause
      else
        c.decodeEvent log = .ok ⟨e.name, log.address, log.blockNumber,
          e.fieldNames.zip (fs.map Filled.value)⟩) ∧
    ∀ log, (∀ topic ∈ log.topics.head?, topic = e.selector) →
      log.topics.length < 1 + e.inputs.countP EventInput.indexed →
      ∃ cause, c.decodeEvent log = .error cause := by
  constructor
  · intro fs log hwrites names short depth places
    obtain ⟨more, htopics⟩ := hwrites.topics
    rw [decodeEvent_of_topic htopics first.eventOfTopic?]
    split
    · rename_i hnone
      exact exists_error_of_forall_ne (hwrites.decode_ne short depth places hnone.2 hnone.1)
    · rename_i hsome
      refine hwrites.decode_eq short depth places names fun hempty => ?_
      by_contra hdata
      exact hsome ⟨hdata, hempty⟩
  · intro log htopic hshort
    refine exists_error_of_forall_ne fun decoded hdecode => ?_
    obtain ⟨topic, e', hhead, he, hdecode⟩ := exists_event_of_decodeEvent hdecode
    rw [htopic topic hhead, first.eventOfTopic?] at he
    cases he
    obtain ⟨_, _, _, _, _, htakes, -⟩ := Event.decode_eq_ok_iff.1 hdecode
    have hpositive := List.length_pos_of_mem (List.mem_of_head? hhead)
    have hle := htakes.countP_le.1
    rw [List.length_drop] at hle
    omega

/-! ### Events with four inputs, and events that cannot be read back -/

/-- Inputs in the topics and in the data by turns, one of them without a name. -/
def fourInputs : Event where
  name := "Changed"
  inputs := [Interface.indexed "owner" "address", Interface.plain "" "bytes",
    Interface.indexed "done" "bool", Interface.plain "sizes" "uint8[]"]
  anonymous := false

def fourFilled : List Filled := [
  ⟨Interface.indexed "owner" "address", .address, .address (.ofNat 20 7)⟩,
  ⟨Interface.plain "" "bytes", .bytes, .bytes [1, 2, 3]⟩,
  ⟨Interface.indexed "done" "bool", .bool, .bool true⟩,
  ⟨Interface.plain "sizes" "uint8[]", .array (.uint 8), .array [.uint 4 8, .uint 5 8]⟩]

/-- A log with values, in front of one more topic and one more byte. -/
def logOf (e : Event) (fs : List Filled) : Log where
  address := .ofNat 20 9
  topics := e.selector :: (Filled.inTopics fs).map (fun f => f.value.topic) ++ [.ofNat 32 1]
  data := AbiValue.encodeParams ((Filled.inData fs).map Filled.value) ++ [255]
  blockNumber := 5
  logIndex := 0
  transactionHash := none
  removed := false

theorem writes_logOf {e : Event} {fs : List Filled} (inputs : e.inputs = fs.map Filled.input)
    (valid : ∀ f ∈ fs, f.Valid) : e.Writes fs (logOf e fs) :=
  ⟨inputs, valid, ⟨_, rfl⟩, _, rfl⟩

theorem namesFirst_emitter {e : Event} (named : e.anonymous = false) :
    (emitter e).interface.NamesFirst e :=
  ⟨named, [], [], rfl, nofun⟩

theorem type_simple {name text : String} {t : AbiType} (h : AbiType.ofText? text = some t) :
    (Interface.simple name text).type = .ok t := by
  rw [Param.type, Interface.simple, Param.type?, h]

theorem valid_fourFilled : ∀ f ∈ fourFilled, f.Valid := by
  simp only [fourFilled, List.forall_mem_cons]
  refine ⟨⟨type_simple rfl, .address _, fun _ => rfl⟩, .plain rfl (type_simple rfl) (.bytes _),
    ⟨type_simple rfl, .bool _, fun _ => rfl⟩, .plain rfl (type_simple (by cbv)) (.array ?_ ?_),
    List.forall_mem_nil _⟩
  · simp only [List.forall_mem_cons]
    exact ⟨.uint _ _, .uint _ _, List.forall_mem_nil _⟩
  · exact fun h => absurd h Nat.one_ne_zero

/-- All four values are read back.  With one topic of two the log is refused. -/
theorem decodeEvent_written_four :
    (emitter fourInputs).decodeEvent (logOf fourInputs fourFilled) =
      .ok ⟨"Changed", .ofNat 20 9, 5, [("owner", .address (.ofNat 20 7)),
        ("arg1", .bytes [1, 2, 3]), ("done", .bool true),
        ("sizes", .array [.uint 4 8, .uint 5 8])]⟩ ∧
    ∃ cause, (emitter fourInputs).decodeEvent ⟨default, [fourInputs.selector, .ofNat 32 7], [], 5, 0,
      none, false⟩ = .error cause := by
  obtain ⟨hread, hshort⟩ := decodeEvent_written (namesFirst_emitter (e := fourInputs) rfl)
  constructor
  · have hdecode := hread fourFilled _ (writes_logOf rfl valid_fourFilled) (by decide)
      (by decide +kernel) (by decide) (by decide)
    rw [if_neg (fun h => Bool.false_ne_true h.2)] at hdecode
    exact hdecode
  · refine hshort _ (fun topic htopic => ?_) (by decide)
    cases htopic
    rfl

/-- An input in the data and its value. -/
def alone (typeText : String) (t : AbiType) (v : AbiValue) : Filled :=
  ⟨Interface.plain "a" typeText, t, v⟩

/-- An event with one input. -/
def oneInput (f : Filled) : Event where
  name := "Changed"
  inputs := [f.input]
  anonymous := false

def emptyTuple : Filled := alone "()" (.tuple []) (.tuple [])

/-- No array of many flags. -/
def noManyFlags : Filled := alone "bool[1152921504606846976][]" manyFlags (.array [])

theorem writes_oneInput {f : Filled} (valid : f.Valid) :
    (oneInput f).Writes [f] (logOf (oneInput f) [f]) :=
  writes_logOf rfl (List.forall_mem_singleton.2 valid)

theorem decodeEvent_emptyTuple :
    (emitter (oneInput emptyTuple)).decodeEvent (logOf (oneInput emptyTuple) [emptyTuple]) =
      .error (.missingField "Changed" 0) := by
  rw [decodeEvent_of_topic rfl (eventOfTopic?_emitter rfl)]
  rfl

theorem decodeEvent_noManyFlags :
    (emitter (oneInput noManyFlags)).decodeEvent (logOf (oneInput noManyFlags) [noManyFlags]) =
      .error (.undecodableData .tooLong) := by
  have htypes : (oneInput noManyFlags).bodyTypes = .ok [manyFlags] := rfl
  have hdata : decodeData [manyFlags] (logOf (oneInput noManyFlags) [noManyFlags]).data =
      .error (.undecodableData .tooLong) := by
    rw [decodeData, Abi.decodeParams, Abi.decodeWithin, if_neg (by decide),
      if_neg (by decide +kernel), if_pos (by decide +kernel)]
  rw [decodeEvent_of_topic rfl (eventOfTopic?_emitter rfl), Event.decode, htypes]
  simp only [bind, Except.bind, hdata]

/-- Not every log of an event is read back.  Where no type in the data takes room its inputs are
missing, and where a type asks for too much room the data is refused, even if the array that it is
the element of is empty. -/
theorem not_decodeEvent_written :
    ¬(∀ e fs log, e.anonymous = false → e.Writes fs log → e.fieldNames.Nodup →
      (AbiValue.encodeParams ((Filled.inData fs).map Filled.value)).length < 2 ^ 64 →
      AbiType.nestingAll ((Filled.inData fs).map Filled.type) ≤ 16 →
      (emitter e).decodeEvent log = .ok ⟨e.name, log.address, log.blockNumber,
        e.fieldNames.zip (fs.map Filled.value)⟩) ∧
    emptyTuple.Valid ∧ (emitter (oneInput emptyTuple)).decodeEvent
      (logOf (oneInput emptyTuple) [emptyTuple]) = .error (.missingField "Changed" 0) ∧
    noManyFlags.Valid ∧ (emitter (oneInput noManyFlags)).decodeEvent
      (logOf (oneInput noManyFlags) [noManyFlags]) = .error (.undecodableData .tooLong) := by
  have hempty : emptyTuple.Valid := .plain rfl (type_simple rfl) (.tuple rfl nofun)
  have hmany : noManyFlags.Valid := .plain rfl (type_simple rfl) (.array nofun nofun)
  refine ⟨fun h => ?_, hempty, decodeEvent_emptyTuple, hmany, decodeEvent_noManyFlags⟩
  have hdecode := h _ _ _ rfl (writes_oneInput hempty) (by decide) (by decide +kernel) (by decide)
  cases decodeEvent_emptyTuple.symm.trans hdecode

end Contract

end ContractReads
