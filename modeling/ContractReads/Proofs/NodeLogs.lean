import Mathlib
import ContractReads.Log.Request
import ContractReads.Proofs.HexTexts
import ContractReads.Rpc.Script

/-!
# Logs that a node lists

A node lists logs as objects whose members are texts.  They are all read, also those of removed logs,
and the first text that is malformed refuses the list.

* `RawLog.Lists` says which texts an object holds, and `RawLog.Renders` that they spell a log;
  `RawLog.ofJson?_eq` and `RawLog.liveLogs_eq` are about what is read then.
* `FieldText` is a text with what is read from it, and `FieldText.WellFormed` says which texts are
  readable.  `Checks` is about computations that read texts one after the other: `Checks.bind` puts
  two together, and `RawLog.checks_liveLogs` is the induction on the list.
* `LogSource.ofTransport_logs` puts these together.
-/

namespace ContractReads

/-! ## Members of objects -/

namespace Json

variable {name : String} {members : List (String × Json)}

theorem member?_eq_none (h : ∀ m ∈ members, m.1 ≠ name) : member? name members = none := by
  induction members with
  | nil => rfl
  | cons m members ih =>
    obtain ⟨hm, hmembers⟩ := List.forall_mem_cons.1 h
    rw [member?, ih hmembers]
    exact if_neg hm

/-- A member whose name stands once is found. -/
theorem member?_of_mem {value : Json} (h : (name, value) ∈ members)
    (once : countMember name members ≤ 1) : member? name members = some value := by
  induction members with
  | nil => cases h
  | cons m members ih =>
    rw [countMember, List.countP_cons] at once
    obtain rfl | hmem := List.mem_cons.1 h
    · have hnone : members.countP (fun m => m.1 = name) = 0 := by simpa using once
      have hne : ∀ m ∈ members, m.1 ≠ name := by simpa using List.countP_eq_zero.1 hnone
      rw [member?, member?_eq_none hne]
      exact if_pos rfl
    · rw [member?, ih hmem (Nat.le_trans (Nat.le_add_right _ _) once)]

theorem record?_object {names : List String} (once : ∀ name ∈ names, countMember name members ≤ 1) :
    record? names (.object members) = some (names.map fun name => member? name members) :=
  if_pos (List.all_eq_true.2 fun name hname => decide_eq_true (once name hname))

/-- Members give a value a name, where null and no member at all stand for nothing. -/
def Gives {α : Type} (write : α → Json) (name : String) (members : List (String × Json)) :
    Option α → Prop
  | some a => (name, write a) ∈ members
  | none => ∀ j, (name, j) ∈ members → j = .null

theorem nullable?_member? {α : Type} {write : α → Json} {read : Json → Option α} {a : Option α}
    (reads : ∀ a, optional? read (write a) = some (some a)) (h : Gives write name members a)
    (once : countMember name members ≤ 1) : nullable? read (member? name members) = some a := by
  cases a with
  | some a =>
    rw [member?_of_mem h once]
    exact reads a
  | none =>
    by_cases hmem : ∃ j, (name, j) ∈ members
    · obtain ⟨j, hj⟩ := hmem
      have hnull := h j hj
      rw [member?_of_mem hj once, hnull]
      rfl
    · rw [member?_eq_none fun m hm hname => hmem ⟨m.2, by rwa [← hname]⟩]
      rfl

end Json

/-- Items that are read one by one are read as a list. -/
theorem mapM_eq_some {α β : Type} {f : α → Option β} {xs : List α} {ys : List β}
    (h : List.Forall₂ (fun x y => f x = some y) xs ys) : xs.mapM f = some ys := by
  induction h with
  | nil => rfl
  | cons hx _ ih =>
    rw [List.mapM_cons, hx, ih]
    rfl

/-! ## Texts that a node writes -/

/-- The text is `0x` and two digits a byte. -/
def Hex.Prefixed (text : String) (bs : Bytes) : Prop := ∃ t, text = "0x" ++ t ∧ Hex.Spells t bs

/-- The text is `0x` and the digits of a number. -/
def Quantity.Prefixed (text : String) (n : UInt64) : Prop :=
  ∃ t, text = "0x" ++ t ∧ Quantity.Spells t n.toNat

section Prefixed

variable {text : String}

theorem Hex.Prefixed.fixed?_eq {n : Nat} {b : FixedBytes n} (h : Hex.Prefixed text b.toBytes) :
    Hex.fixed? n text = .ok b := by
  obtain ⟨t, htext, hspells⟩ := h
  exact Hex.fixed?_eq_ok_iff.2 ⟨t, .inr ⟨"0x", by simp, htext⟩, hspells⟩

theorem Hex.Prefixed.payload?_eq {bs : Bytes} (h : Hex.Prefixed text bs) :
    Hex.payload? text = .ok bs := by
  obtain ⟨t, htext, hspells⟩ := h
  exact Hex.payload?_eq_ok_iff.2 ⟨t, .inr ⟨"0x", by simp, htext⟩, hspells⟩

theorem Quantity.Prefixed.ofText_eq {n : UInt64} (h : Quantity.Prefixed text n) :
    Quantity.ofText text = .ok n := by
  obtain ⟨t, htext, hspells⟩ := h
  exact Quantity.ofText_eq_ok_iff.2 ⟨t, t, .inr ⟨"0x", by simp, htext⟩, .inl rfl, hspells⟩

end Prefixed

/-! ## Objects that are logs -/

namespace RawLog

/-- The names of the members that are read. -/
def names : List String :=
  ["address", "topics", "data", "blockNumber", "transactionHash", "logIndex", "removed"]

/-- Members of an object that are the texts of a log.  Others may stand beside them. -/
structure Members (r : RawLog) (members : List (String × Json)) : Prop where
  once : ∀ name ∈ names, Json.countMember name members ≤ 1
  address : ("address", .string r.address) ∈ members
  topics : ("topics", .ofList .string r.topics) ∈ members
  data : ("data", .string r.data) ∈ members
  blockNumber : ("blockNumber", .string r.blockNumber) ∈ members
  transactionHash : Json.Gives .string "transactionHash" members r.transactionHash
  logIndex : ("logIndex", .string r.logIndex) ∈ members
  removed : Json.Gives .bool "removed" members r.removed

/-- An object lists a log as these texts. -/
def Lists (r : RawLog) (j : Json) : Prop := ∃ members, j = .object members ∧ r.Members members

/-- The texts spell a log, with digits of either case.  A log that is not said to be removed is not. -/
structure Renders (r : RawLog) (log : Log) : Prop where
  address : Hex.Prefixed r.address log.address.toBytes
  topics : List.Forall₂ (fun text topic => Hex.Prefixed text topic.toBytes) r.topics log.topics
  data : Hex.Prefixed r.data log.data
  blockNumber : Quantity.Prefixed r.blockNumber log.blockNumber
  transactionHash : Option.Rel (fun text hash => Hex.Prefixed text hash.toBytes) r.transactionHash
    log.transactionHash
  logIndex : Quantity.Prefixed r.logIndex log.logIndex
  removed : log.removed = r.removed.getD false

theorem texts?_ofList (texts : List String) : texts? (.ofList .string texts) = some texts := by
  have htexts : List.Forall₂ (fun j text => Json.string? j = some text)
      (texts.map Json.string) texts := by
    rw [List.forall₂_map_left_iff]
    exact List.forall₂_same.2 fun _ _ => rfl
  exact mapM_eq_some htexts

theorem ofJson?_eq {r : RawLog} {j : Json} (h : r.Lists j) : ofJson? j = some r := by
  obtain ⟨members, rfl, h⟩ := h
  have honce := h.once
  simp only [names, List.forall_mem_cons] at honce
  obtain ⟨haddress, htopics, hdata, hnumber, hhash, hindex, hremoved, -⟩ := honce
  have hhash' : Json.nullable? Json.string? (Json.member? "transactionHash" members) =
      some r.transactionHash := Json.nullable?_member? (fun _ => rfl) h.transactionHash hhash
  have hremoved' : Json.nullable? Json.bool? (Json.member? "removed" members) = some r.removed :=
    Json.nullable?_member? (fun _ => rfl) h.removed hremoved
  rw [ofJson?, ← names, Json.record?_object h.once]
  simp only [names, List.map_cons, List.map_nil, Json.member?_of_mem h.address haddress,
    Json.member?_of_mem h.topics htopics, Json.member?_of_mem h.data hdata,
    Json.member?_of_mem h.blockNumber hnumber, hhash', Json.member?_of_mem h.logIndex hindex,
    hremoved', Json.required?, Option.bind_eq_bind, Option.bind_some, Json.string?, texts?_ofList]
  rfl

theorem listOfJson?_eq {raws : List RawLog} {js : List Json} (h : List.Forall₂ Lists raws js) :
    listOfJson? (.array js) = some raws :=
  mapM_eq_some (h.flip.imp fun _ _ => ofJson?_eq)

/-! ## Logs that are spelled -/

theorem word_eq {text : String} {w : Word} (h : Hex.Prefixed text w.toBytes) : word text = .ok w := by
  rw [word, h.fixed?_eq]

theorem addressOf_eq {text : String} {a : Address} (h : Hex.Prefixed text a.toBytes) :
    addressOf text = .ok a := by
  rw [addressOf, h.fixed?_eq]

theorem payload_eq {text : String} {bs : Bytes} (h : Hex.Prefixed text bs) :
    Rpc.payload (.string text) = .ok bs := by
  rw [Rpc.payload, h.payload?_eq]

theorem quantity_eq {text : String} {n : UInt64} (h : Quantity.Prefixed text n) :
    quantity text = .ok n := by
  rw [quantity, h.ofText_eq]

theorem words_eq {texts : List String} {topics : List Word}
    (h : List.Forall₂ (fun text topic => Hex.Prefixed text topic.toBytes) texts topics) :
    words texts = .ok topics := by
  induction h with
  | nil => rfl
  | cons hword _ ih => exact bind_eq_ok_iff.2 ⟨_, word_eq hword, bind_eq_ok_iff.2 ⟨_, ih, rfl⟩⟩

theorem word?_eq {text : Option String} {hash : Option Word}
    (h : Option.Rel (fun text hash => Hex.Prefixed text hash.toBytes) text hash) :
    word? text = .ok hash := by
  cases h with
  | none => rfl
  | some hword => exact map_eq_ok_iff.2 ⟨_, word_eq hword, rfl⟩

theorem toLog_eq {r : RawLog} {log : Log} (h : r.Renders log) : r.toLog = .ok log := by
  rw [toLog, words_eq h.topics, addressOf_eq h.address, payload_eq h.data, quantity_eq h.blockNumber,
    quantity_eq h.logIndex, word?_eq h.transactionHash]
  simp only [bind, Except.bind, ← h.removed]
  rfl

/-- Logs that are spelled are read in their order, those that are not removed. -/
theorem liveLogs_eq {raws : List RawLog} {logs : List Log} (h : List.Forall₂ Renders raws logs) :
    liveLogs raws = .ok (logs.filter fun log => !log.removed) := by
  induction h with
  | nil => rfl
  | @cons r log raws logs hlog _ ih =>
    refine bind_eq_ok_iff.2 ⟨log, toLog_eq hlog, bind_eq_ok_iff.2 ⟨_, ih, ?_⟩⟩
    cases hremoved : log.removed <;> simp [hremoved, pure, Except.pure]

end RawLog

/-! ## Texts that are readable -/

/-- A text of a log, with what is read from it. -/
inductive FieldText
  | word (text : String)
  | address (text : String)
  | data (text : String)
  | quantity (text : String)

namespace FieldText

/-- The text can be read.  Prefixes and the plus sign of a number may be missing. -/
def WellFormed : FieldText → Prop
  | word text => ∃ (w : Word) (t : String), Hex.Behind ["0x", "0X"] text t ∧ Hex.Spells t w.toBytes
  | address text =>
    ∃ (a : Address) (t : String), Hex.Behind ["0x", "0X"] text t ∧ Hex.Spells t a.toBytes
  | data text => ∃ (bs : Bytes) (t : String), Hex.Behind ["0x"] text t ∧ Hex.Spells t bs
  | quantity text => ∃ (n : UInt64) (t u : String), Hex.Behind ["0x"] text t ∧
      Hex.Behind ["+"] t u ∧ Quantity.Spells u n.toNat

/-- The error that a text is refused with. -/
def Refuses : FieldText → TransportError → Prop
  | word text, e => ∃ cause, Hex.fixed? 32 text = .error cause ∧
      e = .other (.badLogField "word" text cause.message)
  | address text, e => ∃ cause, Hex.fixed? 20 text = .error cause ∧
      e = .other (.badLogField "address" text cause.message)
  | data text, e => ∃ cause, Hex.payload? text = .error cause ∧ e = .other (.badHex cause)
  | quantity text, e => ∃ cause, Quantity.ofText text = .error cause ∧
      e = .other (.badLogField "quantity" text cause.message)

end FieldText

/-- The error of the first malformed text of a list. -/
def FirstRefused (xs : List FieldText) (e : TransportError) : Prop :=
  ∃ before x after, xs = before ++ x :: after ∧ (∀ y ∈ before, y.WellFormed) ∧
    ¬x.WellFormed ∧ x.Refuses e

/-- What comes of reading texts one after the other. -/
inductive Checks {α : Type} (xs : List FieldText) : Except TransportError α → Prop
  | ok (a : α) (all : ∀ x ∈ xs, x.WellFormed) : Checks xs (.ok a)
  | error {e : TransportError} (first : FirstRefused xs e) : Checks xs (.error e)

namespace Checks

variable {α β : Type} {xs ys : List FieldText} {q : Except TransportError α}

theorem pure (a : α) : Checks [] (.ok a : Except TransportError α) := .ok a nofun

/-- Texts that are read behind others. -/
theorem bind {k : α → Except TransportError β} (hq : Checks xs q) (hk : ∀ a, Checks ys (k a)) :
    Checks (xs ++ ys) (q >>= k) := by
  cases hq with
  | error first =>
    obtain ⟨before, x, after, rfl, hbefore, hx⟩ := first
    exact .error ⟨before, x, after ++ ys, by simp, hbefore, hx⟩
  | ok a all =>
    have hka := hk a
    show Checks (xs ++ ys) (k a)
    generalize k a = r at hka
    cases hka with
    | ok b all' => exact .ok b (List.forall_mem_append.2 ⟨all, all'⟩)
    | error first =>
      obtain ⟨before, x, after, rfl, hbefore, hx⟩ := first
      exact .error ⟨xs ++ before, x, after, by simp, List.forall_mem_append.2 ⟨all, hbefore⟩, hx⟩

/-- A computation on what was read reads nothing more. -/
theorem map (hq : Checks xs q) (f : α → β) : Checks xs (q.map f) := by
  cases hq with
  | ok a all => exact .ok (f a) all
  | error first => exact .error first

/-- A single text is read if its reader accepts exactly the well-formed ones, and its refusals are
those of the text. -/
theorem single {ε : Type} {x : FieldText} {read : Except ε α} {wrap : ε → TransportError}
    (wellFormed : x.WellFormed ↔ ∃ a, read = .ok a)
    (refuses : ∀ cause, read = .error cause → x.Refuses (wrap cause)) :
    Checks [x] (read.mapError wrap) := by
  cases read with
  | ok a => exact .ok a (List.forall_mem_singleton.2 (wellFormed.2 ⟨a, rfl⟩))
  | error cause =>
    refine .error ⟨[], x, [], rfl, List.forall_mem_nil _, fun h => ?_, refuses cause rfl⟩
    obtain ⟨a, ha⟩ := wellFormed.1 h
    cases ha

/-- If a text is malformed, the first one that is malformed is reported. -/
theorem exists_error (h : Checks xs q) (malformed : ∃ x ∈ xs, ¬x.WellFormed) :
    ∃ e, FirstRefused xs e ∧ q = .error e := by
  cases h with
  | error first => exact ⟨_, first, rfl⟩
  | ok a all =>
    obtain ⟨x, hx, hmalformed⟩ := malformed
    exact absurd (all x hx) hmalformed

end Checks

namespace RawLog

theorem checks_word (text : String) : Checks [.word text] (word text) := by
  have hread : (FieldText.word text).WellFormed ↔ ∃ w : Word, Hex.fixed? 32 text = .ok w :=
    exists_congr fun _ => Hex.fixed?_eq_ok_iff.symm
  have hmap : word text = (Hex.fixed? 32 text).mapError fun cause =>
      malformed "word" text cause.message := by
    rw [word]
    cases Hex.fixed? 32 text <;> rfl
  rw [hmap]
  exact .single hread fun cause h => ⟨cause, h, rfl⟩

theorem checks_addressOf (text : String) : Checks [.address text] (addressOf text) := by
  have hread : (FieldText.address text).WellFormed ↔ ∃ a : Address, Hex.fixed? 20 text = .ok a :=
    exists_congr fun _ => Hex.fixed?_eq_ok_iff.symm
  have hmap : addressOf text = (Hex.fixed? 20 text).mapError fun cause =>
      malformed "address" text cause.message := by
    rw [addressOf]
    cases Hex.fixed? 20 text <;> rfl
  rw [hmap]
  exact .single hread fun cause h => ⟨cause, h, rfl⟩

theorem checks_payload (text : String) : Checks [.data text] (Rpc.payload (.string text)) := by
  have hread : (FieldText.data text).WellFormed ↔ ∃ bs, Hex.payload? text = .ok bs :=
    exists_congr fun _ => Hex.payload?_eq_ok_iff.symm
  have hmap : Rpc.payload (.string text) = (Hex.payload? text).mapError fun cause =>
      .other (.badHex cause) := by
    rw [Rpc.payload]
    cases Hex.payload? text <;> rfl
  rw [hmap]
  exact .single hread fun cause h => ⟨cause, h, rfl⟩

theorem checks_quantity (text : String) : Checks [.quantity text] (quantity text) := by
  have hread : (FieldText.quantity text).WellFormed ↔ ∃ n, Quantity.ofText text = .ok n :=
    exists_congr fun _ => Quantity.ofText_eq_ok_iff.symm
  have hmap : quantity text = (Quantity.ofText text).mapError fun cause =>
      malformed "quantity" text cause.message := by
    rw [quantity]
    cases Quantity.ofText text <;> rfl
  rw [hmap]
  exact .single hread fun cause h => ⟨cause, h, rfl⟩

theorem checks_words (texts : List String) : Checks (texts.map .word) (words texts) := by
  induction texts with
  | nil => exact .pure []
  | cons text texts ih =>
    exact (checks_word text).bind fun w => ih.map (w :: ·)

/-- The texts of a log in the order in which they are read. -/
def fieldTexts (r : RawLog) : List FieldText :=
  r.topics.map .word ++ [.address r.address, .data r.data, .quantity r.blockNumber,
    .quantity r.logIndex] ++ r.transactionHash.toList.map .word

theorem checks_word? (text : Option String) :
    Checks (text.toList.map .word) (word? text) := by
  cases text with
  | none => exact .pure none
  | some text => exact (checks_word text).map some

theorem checks_toLog (r : RawLog) : Checks r.fieldTexts r.toLog := by
  rw [fieldTexts, List.append_assoc]
  refine (checks_words r.topics).bind fun topics => ?_
  refine (checks_addressOf r.address).bind fun address => ?_
  refine (checks_payload r.data).bind fun data => ?_
  refine (checks_quantity r.blockNumber).bind fun number => ?_
  refine (checks_quantity r.logIndex).bind fun index => ?_
  exact (checks_word? r.transactionHash).map fun hash =>
    Log.mk address topics data number index hash (r.removed.getD false)

/-- The texts of all logs are read in their order, also those of removed logs. -/
theorem checks_liveLogs (raws : List RawLog) :
    Checks (raws.flatMap fieldTexts) (liveLogs raws) := by
  induction raws with
  | nil => exact .pure []
  | cons r raws ih =>
    exact (checks_toLog r).bind fun log => ih.map fun logs =>
      if log.removed then logs else log :: logs

end RawLog

/-! ## Logs of a range -/

/-- The node's object for a log. -/
def Log.RenderedAs (log : Log) (j : Json) : Prop := ∃ r : RawLog, r.Lists j ∧ r.Renders log

theorem Log.RenderedAs.exists_raws {logs : List Log} {js : List Json}
    (h : List.Forall₂ Log.RenderedAs logs js) :
    ∃ raws, List.Forall₂ RawLog.Lists raws js ∧ List.Forall₂ RawLog.Renders raws logs := by
  induction h with
  | nil => exact ⟨[], .nil, .nil⟩
  | cons hlog _ ih =>
    obtain ⟨r, hlists, hrenders⟩ := hlog
    obtain ⟨raws, hraws, hlogs⟩ := ih
    exact ⟨r :: raws, .cons hlists hraws, .cons hrenders hlogs⟩

namespace LogSource

variable {w : Type} {t : Transport w} {filter : LogFilter} {first last : UInt64} {s : Numbered w}
  {js : List Json} {after : w}

/-- What is made of a node's list of objects. -/
theorem logs_eq (hcall : t.call s.nextId "eth_getLogs" [filter.params first last] s.inner =
    (.ok (.array js), after)) {raws : List RawLog} (hraws : List.Forall₂ RawLog.Lists raws js) :
    (ofTransport t).logs filter first last s = (RawLog.liveLogs raws, ⟨after, s.nextId + 1⟩) := by
  have hresult : Numbered.call t "eth_getLogs" [filter.params first last] s =
      (.ok (.array js), ⟨after, s.nextId + 1⟩) := by
    rw [Numbered.call, hcall]
  show ((Numbered.call t "eth_getLogs" [filter.params first last] >>= fun result =>
    ofTransport.liftExcept (RawLog.logsOfJson result)) : TransportM (Numbered w) (List Log)) s = _
  rw [TransportM.bind_apply, hresult]
  show (RawLog.logsOfJson (.array js), _) = _
  rw [RawLog.logsOfJson, RawLog.listOfJson?_eq hraws]

/-- If a node lists logs, with digits of either case and whatever other members its objects have, then
these are the logs of the range, in their order and without those that are removed.  If it lists
objects whose members are texts, and some text is malformed, then the first of them is reported and
there are no logs, even if the text belongs to a removed log. -/
theorem ofTransport_logs (hcall : t.call s.nextId "eth_getLogs" [filter.params first last] s.inner =
    (.ok (.array js), after)) :
    (∀ logs, List.Forall₂ Log.RenderedAs logs js →
      (ofTransport t).logs filter first last s =
        (.ok (logs.filter fun log => !log.removed), ⟨after, s.nextId + 1⟩)) ∧
    ∀ raws, List.Forall₂ RawLog.Lists raws js →
      (∃ r ∈ raws, ∃ x ∈ r.fieldTexts, ¬x.WellFormed) →
      ∃ e, FirstRefused (raws.flatMap RawLog.fieldTexts) e ∧
        (ofTransport t).logs filter first last s = (.error e, ⟨after, s.nextId + 1⟩) := by
  constructor
  · intro logs hlogs
    obtain ⟨raws, hraws, hrenders⟩ := Log.RenderedAs.exists_raws hlogs
    rw [logs_eq hcall hraws, RawLog.liveLogs_eq hrenders]
  · intro raws hraws hmalformed
    have hmem : ∃ x ∈ raws.flatMap RawLog.fieldTexts, ¬x.WellFormed := by
      obtain ⟨r, hr, x, hx, hmalformed⟩ := hmalformed
      exact ⟨x, List.mem_flatMap.2 ⟨r, hr, hx⟩, hmalformed⟩
    obtain ⟨e, hfirst, he⟩ := (RawLog.checks_liveLogs raws).exists_error hmem
    exact ⟨e, hfirst, by rw [logs_eq hcall hraws, he]⟩

/-! ### A log and a removed one -/

/-- A node that answers its first request with these objects. -/
def answers (js : List Json) : Numbered Script where
  inner := { replies := [.ok ⟨Rpc.version, .number 1, some (.array js), none⟩] }

theorem call_answers (js params : List Json) :
    Script.transport.call (answers js).nextId "eth_getLogs" params (answers js).inner =
      (.ok (.array js), { sent := [.make (.number 1) "eth_getLogs" params] }) :=
  rfl

/-- An object with a member that is not read. -/
def objectOf (r : RawLog) : Json :=
  .object [("blockHash", .string "0x00"), ("address", .string r.address),
    ("topics", .ofList .string r.topics), ("data", .string r.data),
    ("blockNumber", .string r.blockNumber),
    ("transactionHash", .ofOption .string r.transactionHash), ("logIndex", .string r.logIndex),
    ("removed", .ofOption .bool r.removed)]

theorem lists_objectOf (r : RawLog) : r.Lists (objectOf r) := by
  refine ⟨_, rfl, ?_, by simp, by simp, by simp, by simp, ?_, by simp, ?_⟩
  · simp [RawLog.names, Json.countMember]
  · cases r.transactionHash <;> simp [Json.Gives, Json.ofOption]
  · cases r.removed <;> simp [Json.Gives, Json.ofOption]

/-- The texts of a log, with digits of both cases. -/
def mixedTexts (removed : Option Bool) : RawLog where
  address := "0x00000000000000000000000000000000000000aB"
  topics := ["0x00000000000000000000000000000000000000000000000000000000000000Cd"]
  data := "0x0aFF"
  blockNumber := "0x01F"
  transactionHash := none
  logIndex := "0x5"
  removed := removed

def mixedLog (removed : Bool) : Log where
  address := .ofNat 20 0xab
  topics := [.ofNat 32 0xcd]
  data := [10, 255]
  blockNumber := 31
  logIndex := 5
  transactionHash := none
  removed := removed

theorem renders_mixed (removed : Option Bool) :
    (mixedTexts removed).Renders (mixedLog (removed.getD false)) where
  address := ⟨"00000000000000000000000000000000000000aB", rfl, rfl⟩
  topics := .cons ⟨"00000000000000000000000000000000000000000000000000000000000000Cd", rfl, rfl⟩ .nil
  data := ⟨"0aFF", rfl, rfl⟩
  blockNumber := ⟨"01F", rfl, [0, 1, 15], nofun, rfl, rfl⟩
  transactionHash := .none
  logIndex := ⟨"5", rfl, [5], nofun, rfl, rfl⟩
  removed := rfl

theorem not_wellFormed_zz : ¬(FieldText.data "0xzz").WellFormed := by
  have hpayload : Hex.payload? "0xzz" = .error (.badCharacter 122 0) := by
    rw [Hex.payload?, Hex.textBytes_eq]
    rfl
  rintro ⟨bs, ht⟩
  cases hpayload.symm.trans (Hex.payload?_eq_ok_iff.2 ht)

/-- A removed log whose data is malformed. -/
def brokenTexts : RawLog := { mixedTexts (some true) with data := "0xzz" }

/-- A removed log is left out, but if its data is malformed there are no logs at all. -/
theorem ofTransport_logs_mixed :
    (∃ after, (ofTransport Script.transport).logs .any 0 9
      (answers [objectOf (mixedTexts none), objectOf (mixedTexts (some true))]) =
        (.ok [mixedLog false], after)) ∧
    ∃ e after, FirstRefused ((mixedTexts none).fieldTexts ++ brokenTexts.fieldTexts) e ∧
      (ofTransport Script.transport).logs .any 0 9
        (answers [objectOf (mixedTexts none), objectOf brokenTexts]) = (.error e, after) := by
  have hcall := fun js => call_answers js [LogFilter.any.params 0 9]
  constructor
  · have hrendered := fun removed =>
      (⟨_, lists_objectOf (mixedTexts removed), renders_mixed removed⟩ : Log.RenderedAs _ _)
    exact ⟨_, (ofTransport_logs (hcall _)).1 [mixedLog false, mixedLog true]
      (.cons (hrendered none) (.cons (hrendered (some true)) .nil))⟩
  · obtain ⟨e, hfirst, he⟩ := (ofTransport_logs (hcall [objectOf (mixedTexts none),
      objectOf brokenTexts])).2 [mixedTexts none, brokenTexts]
      (.cons (lists_objectOf _) (.cons (lists_objectOf _) .nil))
      ⟨brokenTexts, by simp, .data "0xzz", by simp [brokenTexts, RawLog.fieldTexts], not_wellFormed_zz⟩
    exact ⟨e, _, by simpa using hfirst, he⟩

end LogSource

end ContractReads
