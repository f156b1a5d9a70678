import ContractReads.Oracle.Participation
import ContractReads.Proofs.LogScans

/-!
# Rows of submissions

A member's row has one entry for each interval of a window, and an entry is set if and only if a
submission for its block is logged.

* `Window.make_spec` and `Window.indexOf?_eq_some_iff` are the arithmetic of windows, in natural
  numbers: nothing overflows as long as one more interval fits behind the baseline.
  `toNat_lookbackFloor` is that of the earliest block, which never overflows.
* `Submissions.fields_yields` reads a field of the logs that a scan finds, and
  `Submissions.blocksOf_yields` the blocks that a member submitted for.
* `Calculator.getElem?_markRow` says which entries are set, and `Calculator.readRows_yields` that
  every member gets a row, in the order of the members.
-/

namespace ContractReads

/-- Addresses are told apart by their words. -/
theorem Address.toWord_injective {a b : Address} (h : a.toWord = b.toWord) : a = b := by
  have hbytes : Bytes.zeros 12 ++ a.toBytes = Bytes.zeros 12 ++ b.toBytes :=
    congrArg FixedBytes.toBytes h
  exact FixedBytes.ext (List.append_cancel_left hbytes)

namespace Oracle

variable {w α : Type}

/-! ## Windows -/

namespace Window

/-- A window starts at the first multiple behind the baseline, and has the multiples up to the
block, unless the block does not lie behind the first one. -/
theorem make_spec (block : UInt64) {baseline frequency : UInt64} (positive : frequency ≠ 0)
    (room : baseline.toNat + frequency.toNat < 2 ^ 64) :
    ∃ win, make baseline block frequency = .ok win ∧ win.frequency = frequency ∧
      win.startBlock.toNat = (baseline.toNat / frequency.toNat + 1) * frequency.toNat ∧
      win.intervals.toNat = if win.startBlock.toNat < block.toNat
        then (block.toNat - win.startBlock.toNat) / frequency.toNat + 1 else 0 := by
  have hpositive : 0 < frequency.toNat := Nat.pos_of_ne_zero fun h => positive (UInt64.toNat.inj h)
  have hstart : ((baseline / frequency + 1) * frequency).toNat =
      (baseline.toNat / frequency.toNat + 1) * frequency.toNat := by
    have hmul : baseline.toNat / frequency.toNat * frequency.toNat ≤ baseline.toNat :=
      Nat.div_mul_le_self _ _
    -- The start lies at most one interval behind the baseline, which is where the room is needed.
    have hbound : (baseline.toNat / frequency.toNat + 1) * frequency.toNat < 2 ^ 64 := by
      rw [Nat.add_mul, Nat.one_mul]
      omega
    have hquotient : baseline.toNat / frequency.toNat + 1 < 2 ^ 64 :=
      Nat.lt_of_le_of_lt (Nat.le_mul_of_pos_right _ hpositive) hbound
    rw [UInt64.toNat_mul, UInt64.toNat_add, UInt64.toNat_div, UInt64.toNat_one,
      Nat.mod_eq_of_lt hquotient, Nat.mod_eq_of_lt hbound]
  refine ⟨_, if_neg positive, rfl, hstart, ?_⟩
  show (ite _ _ _ : UInt64).toNat = _
  generalize (baseline / frequency + 1) * frequency = start at hstart
  by_cases hbehind : start < block
  · have hlt := UInt64.lt_iff_toNat_lt.1 hbehind
    have hstartPositive : 0 < start.toNat := by
      rw [hstart]
      exact Nat.mul_pos (Nat.succ_pos _) hpositive
    have hquotient : (block.toNat - start.toNat) / frequency.toNat ≤ block.toNat - start.toNat :=
      Nat.div_le_self _ _
    have hbound := block.toNat_lt
    rw [if_pos hbehind, if_pos hlt, UInt64.toNat_add, UInt64.toNat_div,
      UInt64.toNat_sub_of_le _ _ (UInt64.le_of_lt hbehind), UInt64.toNat_one]
    exact Nat.mod_eq_of_lt (by omega)
  · rw [if_neg hbehind, if_neg fun h => hbehind (UInt64.lt_iff_toNat_lt.2 h)]
    rfl

/-- The block of an interval, by its index. -/
theorem indexOf?_eq_some_iff {win : Window} (positive : win.frequency ≠ 0)
    (aligned : win.frequency.toNat ∣ win.startBlock.toNat) {block : UInt64} {k : Nat} :
    win.indexOf? block = some k ↔ k < win.intervals.toNat ∧
      block.toNat = win.startBlock.toNat + k * win.frequency.toNat := by
  have hpositive : 0 < win.frequency.toNat :=
    Nat.pos_of_ne_zero fun h => positive (UInt64.toNat.inj h)
  obtain ⟨first, hfirst⟩ := aligned
  have hzero : block % win.frequency = 0 ↔ win.frequency.toNat ∣ block.toNat := by
    rw [← UInt64.toNat_inj, UInt64.toNat_mod]
    exact (Nat.dvd_iff_mod_eq_zero).symm
  unfold indexOf?
  split
  · rename_i hout
    refine ⟨nofun, fun ⟨_, hblock⟩ => ?_⟩
    rcases hout with hout | hout
    · refine absurd (hzero.2 ?_) hout
      rw [hblock, hfirst, Nat.mul_comm k]
      exact Nat.dvd_add (Nat.dvd_mul_right _ _) (Nat.dvd_mul_right _ _)
    · rw [UInt64.lt_iff_toNat_lt] at hout
      omega
  · rename_i hin
    obtain ⟨hdvd, hle⟩ := not_or.1 hin
    rw [not_not, hzero] at hdvd
    rw [UInt64.not_lt, UInt64.le_iff_toNat_le] at hle
    obtain ⟨q, hq⟩ := hdvd
    -- Both blocks are multiples of the frequency, so the index is how many lie between them.
    have hindex : (block / win.frequency - win.startBlock / win.frequency).toNat = q - first := by
      have hquotients : win.startBlock / win.frequency ≤ block / win.frequency := by
        rw [UInt64.le_iff_toNat_le, UInt64.toNat_div, UInt64.toNat_div]
        exact Nat.div_le_div_right hle
      rw [UInt64.toNat_sub_of_le _ _ hquotients, UInt64.toNat_div, UInt64.toNat_div, hq, hfirst,
        Nat.mul_div_cancel_left _ hpositive, Nat.mul_div_cancel_left _ hpositive]
    have hfirst_le : first ≤ q := by
      rw [hq, hfirst] at hle
      exact Nat.le_of_mul_le_mul_left hle hpositive
    have hblock : block.toNat = win.startBlock.toNat + k * win.frequency.toNat ↔ q - first = k := by
      rw [hq, hfirst, Nat.mul_comm k, ← Nat.mul_add, Nat.mul_right_inj (Nat.ne_of_gt hpositive)]
      omega
    have hlt : block / win.frequency - win.startBlock / win.frequency < win.intervals ↔
        q - first < win.intervals.toNat := by
      rw [UInt64.lt_iff_toNat_lt, hindex]
    rw [hblock]
    show (if _ then some (_ : UInt64).toNat else none) = some k ↔ _
    rw [hindex]
    by_cases hbelow : q - first < win.intervals.toNat
    · rw [if_pos (hlt.2 hbelow), Option.some.injEq]
      exact ⟨fun h => ⟨h ▸ hbelow, h⟩, And.right⟩
    · rw [if_neg fun h => hbelow (hlt.1 h)]
      exact ⟨nofun, fun h => absurd (h.2 ▸ h.1) hbelow⟩

end Window

/-- The earliest block that a lookback reaches, in natural numbers. -/
theorem toNat_lookbackFloor (block frequency lookback : UInt64) :
    (lookbackFloor block frequency lookback).toNat =
      (block.toNat / frequency.toNat - lookback.toNat) * frequency.toNat := by
  unfold lookbackFloor
  split
  · rename_i hzero
    rw [hzero]
    rfl
  · show (if lookback < block / frequency then _ else _ : UInt64).toNat = _
    split
    · rename_i hback
      have hle : (block.toNat / frequency.toNat - lookback.toNat) * frequency.toNat ≤ block.toNat :=
        Nat.le_trans (Nat.mul_le_mul_right _ (Nat.sub_le _ _)) (Nat.div_mul_le_self _ _)
      rw [UInt64.toNat_mul, UInt64.toNat_sub_of_le _ _ (UInt64.le_of_lt hback), UInt64.toNat_div,
        Nat.mod_eq_of_lt (Nat.lt_of_le_of_lt hle block.toNat_lt)]
    · rename_i hback
      rw [UInt64.not_lt, UInt64.le_iff_toNat_le, UInt64.toNat_div] at hback
      rw [Nat.sub_eq_zero_of_le hback, Nat.zero_mul]
      rfl

theorem lookbackFloor_le (block frequency lookback : UInt64) :
    lookbackFloor block frequency lookback ≤ block := by
  rw [UInt64.le_iff_toNat_le, toNat_lookbackFloor]
  exact Nat.le_trans (Nat.mul_le_mul_right _ (Nat.sub_le _ _)) (Nat.div_mul_le_self _ _)

/-! ## Logs of submissions -/

namespace Submissions

variable {s : Submissions}

/-- A log of a member's submission. -/
def IsBy (s : Submissions) (member : Address) (log : Log) : Prop :=
  s.contract.Emits s.kind.eventName log ∧ log.topics[1]? = some member.toWord

/-- A member has submitted for a block: the log of it is in a range, and is not removed. -/
def Submitted (s : Submissions) (logs : List Log) (first last : UInt64) (member : Address)
    (block : UInt64) : Prop :=
  ∃ log ∈ logs, log.removed = false ∧ s.IsBy member log ∧ log.InRange first last ∧
    ∃ e, s.contract.decodeEvent log = .ok e ∧ e.get "block" = .ok block

/-- The logs of a member's submissions in a range can be decoded. -/
def Readable (s : Submissions) (logs : List Log) (first last : UInt64) (member : Address) : Prop :=
  ∀ log ∈ logs, log.removed = false → s.IsBy member log → log.InRange first last →
    ∃ e, s.contract.decodeEvent log = .ok e ∧ ∃ block : UInt64, e.get "block" = .ok block

/-- The interface of the contract declares the event. -/
def Declared (s : Submissions) : Prop := ∃ topic, s.contract.eventTopic s.kind.eventName = .ok topic

/-- A log is of the submission of one member. -/
theorem IsBy.unique {member other : Address} {log : Log} (h : s.IsBy member log)
    (h' : s.IsBy other log) : member = other :=
  Address.toWord_injective (Option.some.inj (h.2.symm.trans h'.2))

theorem accepts_filter (declared : s.Declared) (member : Address) :
    ∃ filter, s.filter (some member) = .ok filter ∧
      ∀ log, filter.accepts log = true ↔ s.IsBy member log := by
  obtain ⟨topic, htopic⟩ := declared
  refine ⟨⟨[s.contract.address], [[topic], [member.toWord]]⟩, ?_, ?_⟩
  · rw [filter, htopic]
    rfl
  · intro log
    rw [LogFilter.accepts_topics, LogFilter.topicsMatch_cons (List.cons_ne_nil _ _)]
    constructor
    · rintro ⟨haddress, t, ts, htopics, ht, hrest⟩
      obtain ⟨t', ts', rfl, ht', -⟩ :=
        (LogFilter.topicsMatch_cons (List.cons_ne_nil _ _)).1 hrest
      rw [List.mem_singleton] at ht ht'
      subst ht ht'
      refine ⟨⟨haddress, t, htopic, ?_⟩, ?_⟩
      · rw [htopics, List.head?_cons]
      · rw [htopics]
        rfl
    · rintro ⟨⟨haddress, t, ht, hhead⟩, hmember⟩
      rw [htopic, Except.ok.injEq] at ht
      subst ht
      obtain ⟨ts, htopics⟩ := List.head?_eq_some_iff.1 hhead
      rw [htopics, List.getElem?_cons_succ, ← List.head?_eq_getElem?,
        List.head?_eq_some_iff] at hmember
      obtain ⟨ts', rfl⟩ := hmember
      refine ⟨haddress, topic, _, htopics, List.mem_singleton_self _, ?_⟩
      rw [LogFilter.topicsMatch_cons (List.cons_ne_nil _ _)]
      exact ⟨_, ts', rfl, List.mem_singleton_self _, rfl⟩

/-- The fields of the logs that are not removed. -/
theorem fields_eq_ok [FromAbi α] {field : String} {logs : List Log}
    (readable : ∀ log ∈ logs, log.removed = false →
      ∃ e, s.contract.decodeEvent log = .ok e ∧ ∃ a : α, e.get field = .ok a) :
    ∃ values : List α, s.fields field logs = .ok values ∧
      ∀ a, a ∈ values ↔ ∃ log ∈ logs, log.removed = false ∧
        ∃ e, s.contract.decodeEvent log = .ok e ∧ e.get field = .ok a := by
  induction logs with
  | nil => exact ⟨[], rfl, by simp⟩
  | cons log logs ih =>
    obtain ⟨values, hvalues, hmem⟩ := ih fun log hlog => readable log (List.mem_cons_of_mem _ hlog)
    cases hremoved : log.removed with
    | true =>
      refine ⟨values, ?_, ?_⟩
      · rw [fields, if_pos hremoved, hvalues]
      · intro a
        rw [hmem, List.exists_mem_cons_iff]
        simp [hremoved]
    | false =>
      obtain ⟨e, he, a, ha⟩ := readable log List.mem_cons_self hremoved
      refine ⟨a :: values, ?_, ?_⟩
      · rw [fields, if_neg (by simp [hremoved]), he]
        simp only [bind, Except.bind, ha, hvalues]
        rfl
      · intro other
        have hlog : (log.removed = false ∧ ∃ e', s.contract.decodeEvent log = .ok e' ∧
            e'.get field = .ok other) ↔ other = a := by
          simp only [hremoved, he, Except.ok.injEq, true_and, exists_eq_left', ha]
          exact eq_comm
        rw [List.mem_cons, hmem, List.exists_mem_cons_iff, hlog]

/-- A field of the logs that a scan for logs of some kind finds among stored ones. -/
theorem fields_yields [FromAbi α] {source : LogSource w} {W : w → Prop} {store : LogStore}
    (holds : source.Holds W store) {filter : LogFilter} {P : Log → Prop}
    (haccepts : ∀ log, filter.accepts log = true ↔ P log) {field : String} {first last : UInt64}
    (readable : ∀ log ∈ store.logs, log.removed = false → P log → log.InRange first last →
      ∃ e, s.contract.decodeEvent log = .ok e ∧ ∃ a : α, e.get field = .ok a)
    {maxRange : Option UInt64} (hrange : maxRange ≠ some 0) {β : Type}
    {k : List α → QueryM (w × Nat) β} {Q : β → Prop}
    (hk : ∀ values : List α, (∀ a, a ∈ values ↔ ∃ log ∈ store.logs, log.removed = false ∧ P log ∧
      log.InRange first last ∧ ∃ e, s.contract.decodeEvent log = .ok e ∧ e.get field = .ok a) →
      Yields (fun s => W s.1) (k values) Q) :
    Yields (fun s => W s.1) (do
      let logs ← asQuery (source.scan filter first (some last) maxRange)
      let values ← decoding (s.fields field logs)
      k values) Q := by
  refine (holds.scan filter first last hrange).asQuery.bind fun logs hlogs => ?_
  have hfound : ∀ log, log ∈ logs ↔ log ∈ store.logs ∧ log.InRange first last ∧ P log := by
    intro log
    rw [hlogs.mem_iff, LogStore.mem_select, haccepts]
  have hreadable : ∀ log ∈ logs, log.removed = false →
      ∃ e, s.contract.decodeEvent log = .ok e ∧ ∃ a : α, e.get field = .ok a := by
    intro log hlog hremoved
    obtain ⟨hstored, hinRange, hlog⟩ := (hfound log).1 hlog
    exact readable log hstored hremoved hlog hinRange
  obtain ⟨values, hvalues, hmem⟩ := fields_eq_ok hreadable
  refine (yields_ofExcept (P := (· = values)) (congrArg Contract.asQueryError hvalues) rfl).bind ?_
  rintro values rfl
  refine hk values fun a => ?_
  rw [hmem]
  constructor
  · rintro ⟨log, hlog, hremoved, hvalue⟩
    obtain ⟨hstored, hinRange, hlog⟩ := (hfound log).1 hlog
    exact ⟨log, hstored, hremoved, hlog, hinRange, hvalue⟩
  · rintro ⟨log, hstored, hremoved, hlog, hinRange, hvalue⟩
    exact ⟨log, (hfound log).2 ⟨hstored, hinRange, hlog⟩, hremoved, hvalue⟩

/-- The blocks that a member submitted for. -/
theorem blocksOf_yields {source : LogSource w} {W : w → Prop} {store : LogStore}
    (holds : source.Holds W store) (declared : s.Declared) {member : Address} {first last : UInt64}
    (readable : s.Readable store.logs first last member) {maxRange : Option UInt64}
    (hrange : maxRange ≠ some 0) :
    Yields (fun s => W s.1) (s.blocksOf source member first last maxRange)
      fun blocks => ∀ block, block ∈ blocks ↔ s.Submitted store.logs first last member block := by
  obtain ⟨filter, hfilter, haccepts⟩ := accepts_filter declared member
  rw [blocksOf]
  refine (yields_ofExcept (P := (· = filter)) (congrArg Contract.asQueryError hfilter) rfl).bind ?_
  rintro filter rfl
  have hblocks := fields_yields holds haccepts readable hrange
    (k := fun blocks : List UInt64 => pure blocks) fun blocks hmem => yields_pure hmem
  simp only [bind_pure] at hblocks
  exact hblocks

end Submissions

/-! ## Rows -/

namespace Calculator

/-- One step of `markRow`. -/
def markBlock (win : Window) (row : List Bool) (block : UInt64) : List Bool :=
  match win.indexOf? block with
  | some i => row.set i true
  | none => row

theorem markRow_eq_foldl (win : Window) (blocks : List UInt64) :
    markRow win blocks = blocks.foldl (markBlock win) (List.replicate win.intervals.toNat false) :=
  rfl

@[simp] theorem length_markBlock (win : Window) (row : List Bool) (block : UInt64) :
    (markBlock win row block).length = row.length := by
  unfold markBlock
  split <;> simp

theorem getElem?_markBlock {win : Window} {row : List Bool} {block : UInt64} {k : Nat} :
    (markBlock win row block)[k]? = some true ↔
      row[k]? = some true ∨ k < row.length ∧ win.indexOf? block = some k := by
  unfold markBlock
  split
  · rename_i i hi
    rw [hi, Option.some.injEq, List.getElem?_set]
    by_cases hik : i = k
    · subst hik
      rw [if_pos rfl]
      by_cases hlt : i < row.length
      · simp [hlt]
      · simp [hlt]
    · simp [hik]
  · rename_i hnone
    rw [hnone]
    simp

theorem length_foldl_markBlock (win : Window) (blocks : List UInt64) (row : List Bool) :
    (blocks.foldl (markBlock win) row).length = row.length := by
  induction blocks generalizing row with
  | nil => rfl
  | cons block blocks ih => rw [List.foldl_cons, ih, length_markBlock]

/-- An entry is set if it was before, or if one of the blocks belongs to it. -/
theorem getElem?_foldl_markBlock {win : Window} {blocks : List UInt64} {row : List Bool} {k : Nat} :
    (blocks.foldl (markBlock win) row)[k]? = some true ↔
      row[k]? = some true ∨ k < row.length ∧ ∃ block ∈ blocks, win.indexOf? block = some k := by
  induction blocks generalizing row with
  | nil => simp
  | cons block blocks ih =>
    rw [List.foldl_cons, ih, getElem?_markBlock, length_markBlock, List.exists_mem_cons_iff]
    tauto

@[simp] theorem length_markRow (win : Window) (blocks : List UInt64) :
    (markRow win blocks).length = win.intervals.toNat := by
  rw [markRow_eq_foldl, length_foldl_markBlock, List.length_replicate]

theorem getElem?_markRow {win : Window} {blocks : List UInt64} {k : Nat} :
    (markRow win blocks)[k]? = some true ↔
      k < win.intervals.toNat ∧ ∃ block ∈ blocks, win.indexOf? block = some k := by
  rw [markRow_eq_foldl, getElem?_foldl_markBlock, List.length_replicate, List.getElem?_replicate]
  simp

/-- The row of a member: an entry for each interval, set for the blocks of submissions. -/
structure IsRow (s : Submissions) (logs : List Log) (win : Window) (last : UInt64)
    (member : Address) (row : List Bool) : Prop where
  length : row.length = win.intervals.toNat
  entry : ∀ k < win.intervals.toNat, row[k]? = some true ↔
    ∃ block, s.Submitted logs win.startBlock last member block ∧
      block.toNat = win.startBlock.toNat + k * win.frequency.toNat

/-- The blocks that a member submitted for make up the member's row. -/
theorem isRow_markRow {s : Submissions} {logs : List Log} {win : Window} {last : UInt64}
    {member : Address} {blocks : List UInt64} (positive : win.frequency ≠ 0)
    (aligned : win.frequency.toNat ∣ win.startBlock.toNat)
    (hmem : win.intervals ≠ 0 → ∀ block, block ∈ blocks ↔
      s.Submitted logs win.startBlock last member block) :
    IsRow s logs win last member (markRow win blocks) := by
  refine ⟨length_markRow win blocks, fun k hk => ?_⟩
  have hintervals : win.intervals ≠ 0 := by
    intro h
    rw [h] at hk
    cases hk
  rw [getElem?_markRow]
  simp only [hmem hintervals, Window.indexOf?_eq_some_iff positive aligned, hk, true_and]

/-- The row of a member who is not there yet comes last. -/
theorem setRow_of_not_mem {member : Address} {row : List Bool} {rows : List (Address × List Bool)}
    (h : member ∉ rows.map Prod.fst) : setRow member row rows = rows ++ [(member, row)] := by
  induction rows with
  | nil => rfl
  | cons r rows ih =>
    rw [List.map_cons, List.mem_cons, not_or] at h
    rw [setRow, if_neg (Ne.symm h.1), ih h.2]
    rfl

/-- Every member gets a row, in the order of the members. -/
theorem readRows_yields {c : Calculator w} {kind : SubmissionKind} {W : w → Prop} {store : LogStore}
    (holds : c.logs.Holds W store) (declared : (c.submissions kind).Declared)
    (hrange : c.maxRange ≠ some 0) {win : Window} (positive : win.frequency ≠ 0)
    (aligned : win.frequency.toNat ∣ win.startBlock.toNat) {last : UInt64} {members : List Address}
    {rows : List (Address × List Bool)} (distinct : (rows.map Prod.fst ++ members).Nodup)
    (readable : win.intervals ≠ 0 → ∀ member ∈ members,
      (c.submissions kind).Readable store.logs win.startBlock last member) :
    Yields (fun s => W s.1) (c.readRows kind win last members rows) fun all =>
      ∃ new, all = rows ++ new ∧ new.map Prod.fst = members ∧
        ∀ r ∈ new, IsRow (c.submissions kind) store.logs win last r.1 r.2 := by
  induction members generalizing rows with
  | nil => exact yields_pure ⟨[], (List.append_nil rows).symm, rfl, nofun⟩
  | cons member members ih =>
    -- What comes after the blocks of one member have been read.
    have hrest : ∀ blocks : List UInt64,
        (win.intervals ≠ 0 → ∀ block, block ∈ blocks ↔
          (c.submissions kind).Submitted store.logs win.startBlock last member block) →
        Yields (fun s => W s.1)
          (c.readRows kind win last members (setRow member (markRow win blocks) rows)) fun all =>
          ∃ new, all = rows ++ new ∧ new.map Prod.fst = member :: members ∧
            ∀ r ∈ new, IsRow (c.submissions kind) store.logs win last r.1 r.2 := by
      intro blocks hmem
      have hfresh : member ∉ rows.map Prod.fst := fun h =>
        (List.nodup_append.1 distinct).2.2 member h member List.mem_cons_self rfl
      have hnodup : ((rows ++ [(member, markRow win blocks)]).map Prod.fst ++ members).Nodup := by
        rw [List.map_append, List.append_assoc]
        exact distinct
      rw [setRow_of_not_mem hfresh]
      refine (ih hnodup fun hintervals m hm =>
        readable hintervals m (List.mem_cons_of_mem _ hm)).mono ?_
      rintro all ⟨new, rfl, hmembers, hnew⟩
      refine ⟨(member, markRow win blocks) :: new, ?_, ?_, ?_⟩
      · rw [List.append_assoc, List.singleton_append]
      · rw [List.map_cons, hmembers]
      · exact List.forall_mem_cons.2 ⟨isRow_markRow positive aligned hmem, hnew⟩
    rw [readRows]
    split
    · rename_i hempty
      refine (yields_pure (P := (· = [])) rfl).bind ?_
      rintro blocks rfl
      exact hrest [] fun h => absurd hempty h
    · rename_i hintervals
      have hblocks := Submissions.blocksOf_yields holds declared
        (readable hintervals member List.mem_cons_self) hrange
      exact hblocks.bind fun blocks hmem => hrest blocks fun _ => hmem

end Calculator

end Oracle

end ContractReads
