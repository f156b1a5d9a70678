import Mathlib
import ContractReads.Proofs.NodeLogs

/-!
# Requests for logs, read back

What a node is asked for names the filter and the range that it was made from.

* `LogFilter.ofParams?` reads the parameters of a request with the readers of texts that a node
  writes.
* `Quantity.prefixed_render`, `Hex.prefixed_hex` and `Address.prefixed_checksummed` are about the
  texts in a request.  Writing a digit in upper case does not change its value.
* `LogFilter.ofTopicParam?_topicParam` is about one topic position; `LogFilter.Asks` says which
  members a request has, in any order, and `LogFilter.ofParams?_eq` that they are read back.
* `LogFilter.params_lossless` puts these together.
-/

namespace ContractReads

/-! ## Texts in a request -/

namespace Hex

theorem hexDigit?_digit {d : Nat} (h : d < 16) : Text.hexDigit? (digit d) = some d := by
  interval_cases d <;> rfl

theorem hexDigit?_toUpper_digit {d : Nat} (h : d < 16) :
    Text.hexDigit? (digit d).toUpper = some d := by
  interval_cases d <;> rfl

theorem lt_of_mem_nibbles {bs : Bytes} {d : Nat} (h : d ∈ Address.nibbles bs) : d < 16 := by
  obtain ⟨b, -, hd⟩ := List.mem_flatMap.1 h
  have hb := b.toNat_lt
  simp only [List.mem_cons, List.not_mem_nil, or_false] at hd
  omega

theorem toList_encode (bs : Bytes) : (encode bs).toList = (Address.nibbles bs).map digit := by
  rw [encode, String.toList_ofList, Address.nibbles, List.map_flatMap]
  rfl

theorem spells_encode (bs : Bytes) : Spells (encode bs) bs := by
  rw [Spells, Digits, toList_encode, List.map_map]
  exact List.map_congr_left fun d hd => hexDigit?_digit (lt_of_mem_nibbles hd)

theorem prefixed_hex {n : Nat} (b : FixedBytes n) : Prefixed b.hex b.toBytes :=
  ⟨encode b.toBytes, rfl, spells_encode b.toBytes⟩

end Hex

namespace Quantity

theorem toList_hexDigits (n : Nat) : (Text.hexDigits n).toList =
    if n < 16 then [Hex.digit n]
    else (Text.hexDigits (n / 16)).toList ++ [Hex.digit (n % 16)] := by
  rw [Text.hexDigits, Text.hexDigits, String.toList_ofList, String.toList_ofList,
    Nat.toDigits_eq_if (by decide)]
  rfl

/-- The last digit is the remainder, and the digits before it are those of the quotient. -/
theorem spells_hexDigits (n : Nat) : Spells (Text.hexDigits n) n := by
  induction n using Nat.strongRecOn with
  | ind n ih =>
    have htext := toList_hexDigits n
    by_cases hn : n < 16
    · refine ⟨[n], by simp, ?_, by simp⟩
      rw [Hex.Digits, htext, if_pos hn, List.map_singleton, Hex.hexDigit?_digit hn]
      rfl
    · obtain ⟨values, -, hdigits, hvalue⟩ := ih (n / 16) (by omega)
      refine ⟨values ++ [n % 16], by simp, ?_, ?_⟩
      · rw [Hex.Digits] at hdigits
        rw [Hex.Digits, htext, if_neg hn, List.map_append, List.map_append, hdigits,
          List.map_singleton, Hex.hexDigit?_digit (Nat.mod_lt n (by decide))]
        rfl
      · rw [List.reverse_append, List.reverse_singleton, List.singleton_append, Nat.ofDigits_cons,
          hvalue]
        exact Nat.mod_add_div n 16

theorem prefixed_render (n : UInt64) : Prefixed (render n) n :=
  ⟨Text.hexDigits n.toNat, rfl, spells_hexDigits n.toNat⟩

end Quantity

namespace Address

/-- There is a mark for every digit of an address. -/
theorem length_digits_le_marks (a : Address) (marks : Word) :
    (nibbles a.toBytes).length ≤ (nibbles marks.toBytes).length := by
  rw [Hex.length_nibbles, Hex.length_nibbles, a.length_toBytes, marks.length_toBytes]
  decide

/-- Digits keep their values, whichever of them are written in upper case. -/
theorem map_hexDigit?_zipWith {digits marks : List Nat} (h : ∀ d ∈ digits, d < 16)
    (hlength : digits.length ≤ marks.length) :
    (List.zipWith (fun c n => if 8 ≤ n then c.toUpper else c) (digits.map Hex.digit) marks).map
      Text.hexDigit? = digits.map some := by
  induction digits generalizing marks with
  | nil => rfl
  | cons d digits ih =>
    cases marks with
    | nil => simp at hlength
    | cons n marks =>
      obtain ⟨hd, hdigits⟩ := List.forall_mem_cons.1 h
      rw [List.map_cons, List.zipWith_cons_cons, List.map_cons, List.map_cons,
        ih hdigits (Nat.le_of_succ_le_succ hlength)]
      split
      · rw [Hex.hexDigit?_toUpper_digit hd]
      · rw [Hex.hexDigit?_digit hd]

theorem prefixed_checksummed (a : Address) : Hex.Prefixed a.checksummed a.toBytes := by
  refine ⟨_, rfl, ?_⟩
  rw [Hex.Spells, Hex.Digits, String.toList_ofList, Hex.toList_encode]
  exact map_hexDigit?_zipWith (fun d => Hex.lt_of_mem_nibbles) (length_digits_le_marks a _)

end Address

/-! ## Reading a request -/

namespace LogFilter

/-- The values that are asked of a topic position; null asks for none. -/
def ofTopicParam? : Json → Option (List Word)
  | .null => some []
  | j => (RawLog.texts? j).bind fun texts => (RawLog.words texts).toOption

/-- The addresses that are asked for, each read from its text; none if there is no member. -/
def addresses? : Option Json → Option (List Address)
  | none => some []
  | some j => (RawLog.texts? j).bind fun texts => (texts.mapM RawLog.addressOf).toOption

def blockNumber? (member : Option Json) : Option UInt64 :=
  member.bind fun j => (RawLog.quantityOfJson j).toOption

def topics? (member : Option Json) : Option (List (List Word)) :=
  (member.bind Json.array?).bind (List.mapM ofTopicParam?)

/-- The filter and the range of a request. -/
def ofParams? : Json → Option (LogFilter × UInt64 × UInt64)
  | .object members => do
    let first ← blockNumber? (Json.member? "fromBlock" members)
    let last ← blockNumber? (Json.member? "toBlock" members)
    let topics ← topics? (Json.member? "topics" members)
    let addresses ← addresses? (Json.member? "address" members)
    return (⟨addresses, topics⟩, first, last)
  | _ => none

/-! ## Members that are read back -/

theorem texts?_ofList_map {α : Type} (write : α → String) (xs : List α) :
    RawLog.texts? (.ofList (fun x => .string (write x)) xs) = some (xs.map write) := by
  rw [← RawLog.texts?_ofList, Json.ofList, Json.ofList, List.map_map]
  rfl

theorem forall₂_map_left {α β : Type} {R : β → α → Prop} {write : α → β} (h : ∀ x, R (write x) x)
    (xs : List α) : List.Forall₂ R (xs.map write) xs :=
  List.forall₂_map_left_iff.2 (List.forall₂_same.2 fun x _ => h x)

theorem ofTopicParam?_topicParam (values : List Word) :
    ofTopicParam? (topicParam values) = some values := by
  cases values with
  | nil => rfl
  | cons w values =>
    have hwords : RawLog.words ((w :: values).map FixedBytes.hex) = .ok (w :: values) :=
      RawLog.words_eq (forall₂_map_left Hex.prefixed_hex (w :: values))
    show (RawLog.texts? (.ofList (fun w : Word => .string w.hex) (w :: values))).bind _ = _
    rw [texts?_ofList_map, Option.bind_some, hwords]
    rfl

theorem topics?_ofList (topics : List (List Word)) :
    topics? (some (.ofList topicParam topics)) = some topics :=
  mapM_eq_some (forall₂_map_left ofTopicParam?_topicParam topics)

theorem mapM_addressOf (addresses : List Address) :
    (addresses.map Address.checksummed).mapM RawLog.addressOf = .ok addresses := by
  induction addresses with
  | nil => rfl
  | cons a addresses ih =>
    rw [List.map_cons, List.mapM_cons, RawLog.addressOf_eq a.prefixed_checksummed, ih]
    rfl

theorem addresses?_ofList (addresses : List Address) :
    addresses? (some (.ofList (fun a => .string a.checksummed) addresses)) = some addresses := by
  rw [addresses?, texts?_ofList_map, Option.bind_some, mapM_addressOf]
  rfl

theorem blockNumber?_render (n : UInt64) :
    blockNumber? (some (.string (Quantity.render n))) = some n := by
  rw [blockNumber?, Option.bind_some, RawLog.quantityOfJson,
    RawLog.quantity_eq (Quantity.prefixed_render n)]
  rfl

/-! ## Whole requests -/

/-- The members that a request for the logs of a range has, in any order. -/
structure Asks (f : LogFilter) (first last : UInt64) (members : List (String × Json)) : Prop where
  perm : members.Perm (("fromBlock", .string (Quantity.render first)) ::
    ("toBlock", .string (Quantity.render last)) :: ("topics", .ofList topicParam f.topics) ::
    if f.addresses.isEmpty then []
    else [("address", .ofList (fun a => .string a.checksummed) f.addresses)])

section Asks

variable {f : LogFilter} {first last : UInt64} {members : List (String × Json)}

/-- Every name stands once. -/
theorem Asks.once (h : Asks f first last members) (name : String) :
    Json.countMember name members ≤ 1 := by
  have hnodup : (members.map Prod.fst).Nodup := by
    rw [(h.perm.map Prod.fst).nodup_iff]
    split <;> simp
  have hcount := List.nodup_iff_count_le_one.1 hnodup name
  rw [List.count, List.countP_map] at hcount
  exact hcount

theorem Asks.member?_eq (h : Asks f first last members) {name : String} {j : Json}
    (hmem : (name, j) ∈ members) : Json.member? name members = some j :=
  Json.member?_of_mem hmem (h.once name)

theorem Asks.addresses?_eq (h : Asks f first last members) :
    addresses? (Json.member? "address" members) = some f.addresses := by
  cases haddresses : f.addresses with
  | nil =>
    have hnone : Json.member? "address" members = none := by
      refine Json.member?_eq_none fun m hm => ?_
      have hm := h.perm.mem_iff.1 hm
      simp only [haddresses, List.isEmpty_nil, if_true, List.mem_cons, List.not_mem_nil,
        or_false] at hm
      rcases hm with rfl | rfl | rfl <;> simp
    rw [hnone]
    rfl
  | cons a addresses =>
    have hmem : ("address", .ofList (fun a => .string a.checksummed) f.addresses) ∈ members := by
      refine h.perm.mem_iff.2 ?_
      simp [haddresses]
    rw [h.member?_eq hmem, addresses?_ofList, haddresses]

/-- The filter and the range are read back from the members of a request. -/
theorem ofParams?_eq (h : Asks f first last members) :
    ofParams? (.object members) = some (f, first, last) := by
  have hfirst : Json.member? "fromBlock" members = some (.string (Quantity.render first)) :=
    h.member?_eq (h.perm.mem_iff.2 (by simp))
  have hlast : Json.member? "toBlock" members = some (.string (Quantity.render last)) :=
    h.member?_eq (h.perm.mem_iff.2 (by simp))
  have htopics : Json.member? "topics" members = some (.ofList topicParam f.topics) :=
    h.member?_eq (h.perm.mem_iff.2 (by simp))
  rw [ofParams?, hfirst, hlast, htopics, h.addresses?_eq, blockNumber?_render, blockNumber?_render,
    topics?_ofList]
  rfl

end Asks

/-- The members of two objects are the same, up to their order. -/
def SameMembers (j j' : Json) : Prop :=
  ∃ members members', j = .object members ∧ j' = .object members' ∧ members.Perm members'

theorem exists_asks (f : LogFilter) (first last : UInt64) :
    ∃ members, f.params first last = .object members ∧ Asks f first last members := by
  refine ⟨_, rfl, ⟨?_⟩⟩
  split <;> rfl

theorem ofParams?_of_sameMembers {f : LogFilter} {first last : UInt64} {j : Json}
    (h : SameMembers j (f.params first last)) : ofParams? j = some (f, first, last) := by
  obtain ⟨shown, members, rfl, hmembers, hperm⟩ := h
  obtain ⟨members', hmembers', hasks⟩ := exists_asks f first last
  obtain rfl : members = members' := Json.object.inj (hmembers.symm.trans hmembers')
  exact ofParams?_eq ⟨hperm.trans hasks.perm⟩

theorem sameMembers_params (f : LogFilter) (first last : UInt64) :
    SameMembers (f.params first last) (f.params first last) :=
  ⟨_, _, rfl, rfl, .refl _⟩

/-- The filter and the range of a request are read back from it, in whatever order its members
stand, and so requests with the same members ask for the same logs of the same range. -/
theorem params_lossless (f : LogFilter) (first last : UInt64) :
    ofParams? (f.params first last) = some (f, first, last) ∧
      (∀ j, SameMembers j (f.params first last) → ofParams? j = some (f, first, last)) ∧
      ∀ (g : LogFilter) (first' last' : UInt64),
        SameMembers (g.params first' last') (f.params first last) →
          g = f ∧ first' = first ∧ last' = last := by
  refine ⟨ofParams?_of_sameMembers (sameMembers_params f first last),
    fun j => ofParams?_of_sameMembers, fun g first' last' h => ?_⟩
  have hg := ofParams?_of_sameMembers (sameMembers_params g first' last')
  rw [ofParams?_of_sameMembers h, Option.some.injEq, Prod.mk.injEq, Prod.mk.injEq] at hg
  exact ⟨hg.1.symm, hg.2.1.symm, hg.2.2.symm⟩

end LogFilter

end ContractReads
