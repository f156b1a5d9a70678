import Mathlib
import ContractReads.Log.Memory

/-!
# The ranges of a scan

A scan asks for its blocks in ranges that lie side by side, and each block is asked for once.

* `Tiles` says which lists of ranges these are: the first range starts with the first block, each
  further one starts right behind the one before, the last one ends with the last block, and all
  but the last one have as many blocks as they may.  `exists_tiles`, `Tiles.length_eq` and
  `Tiles.count_contains` say that there is such a list, how long it is, and that no block is left
  out or asked for twice.  All bounds are bounds of natural numbers, so nothing wraps around.
* `LogSource.InTurn` says what asking for ranges in turn comes to, in terms of `LogSource.Asked`:
  the answers put together, or the first failure, after which nothing is asked for.
* `LogSource.scanPieces_inTurn` connects the two by induction on the ranges.
* `LogSource.Splits` and `LogStore.select_split` are about sources for which it makes no difference
  how a range is cut.
* `LogSource.scan_covers_range` puts everything together.
-/

namespace ContractReads

variable {w : Type}

namespace LogSource

/-! ## Ranges side by side -/

/-- Ranges of at most `span` blocks that lie side by side, from a first block up to `last`. -/
inductive Tiles (span last : UInt64) : (first : UInt64) → List (UInt64 × UInt64) → Prop
  | last {first : UInt64} (nonempty : first ≤ last)
    (short : last.toNat - first.toNat + 1 ≤ span.toNat) : Tiles span last first [(first, last)]
  | cons {first stop next : UInt64} {ranges : List (UInt64 × UInt64)} (nonempty : first ≤ stop)
    (full : stop.toNat - first.toNat + 1 = span.toNat) (more : stop < last)
    (adjacent : next.toNat = stop.toNat + 1) (rest : Tiles span last next ranges) :
    Tiles span last first ((first, stop) :: ranges)

/-- A piece has as many blocks as it may, up to the end of the range. -/
theorem toNat_pieceEnd {span start last : UInt64} (hspan : span ≠ 0) :
    (pieceEnd span start last).toNat = min (start.toNat + (span.toNat - 1)) last.toNat := by
  have hpositive : span.toNat ≠ 0 := fun h => hspan (UInt64.toNat.inj h)
  have hbound := last.toNat_lt
  rw [pieceEnd]
  split
  · omega
  · have hlast : (span - 1).toNat = span.toNat - 1 := by
      rw [UInt64.toNat_sub_of_le]
      · rfl
      · rw [UInt64.le_iff_toNat_le]
        exact Nat.one_le_iff_ne_zero.2 hpositive
    rw [UInt64.toNat_add, hlast, Nat.mod_eq_of_lt (by omega)]
    omega

/-- The block behind one that is not the last is the next number. -/
theorem toNat_succ {stop last : UInt64} (h : stop < last) : (stop + 1).toNat = stop.toNat + 1 := by
  have hbound := last.toNat_lt
  rw [UInt64.lt_iff_toNat_lt] at h
  rw [UInt64.toNat_add, UInt64.toNat_one, Nat.mod_eq_of_lt (by omega)]

theorem eq_succ {stop last next : UInt64} (h : stop < last)
    (adjacent : next.toNat = stop.toNat + 1) : next = stop + 1 :=
  UInt64.toNat.inj (by rw [toNat_succ h, adjacent])

theorem Tiles.first_le_last {span last first : UInt64} {ranges : List (UInt64 × UInt64)}
    (h : Tiles span last first ranges) : first ≤ last := by
  cases h with
  | last nonempty short => exact nonempty
  | cons nonempty full more adjacent rest =>
    exact UInt64.le_of_lt (UInt64.lt_of_le_of_lt nonempty more)

/-- Any range that is not empty can be cut up. -/
theorem exists_tiles {span : UInt64} (hspan : span ≠ 0) (last : UInt64) {first : UInt64}
    (h : first ≤ last) : ∃ ranges, Tiles span last first ranges := by
  have hpositive : span.toNat ≠ 0 := fun h => hspan (UInt64.toNat.inj h)
  have hend : (pieceEnd span first last).toNat = _ := toNat_pieceEnd hspan
  rw [UInt64.le_iff_toNat_le] at h
  by_cases hshort : last.toNat - first.toNat + 1 ≤ span.toNat
  · exact ⟨_, .last (UInt64.le_iff_toNat_le.2 h) hshort⟩
  · have hmore : pieceEnd span first last < last := by
      rw [UInt64.lt_iff_toNat_lt]
      omega
    have hnext := toNat_succ hmore
    have hrest : pieceEnd span first last + 1 ≤ last := by
      rw [UInt64.le_iff_toNat_le]
      omega
    obtain ⟨ranges, hranges⟩ := exists_tiles hspan last hrest
    have hfirst : first ≤ pieceEnd span first last := by
      rw [UInt64.le_iff_toNat_le]
      omega
    exact ⟨_, .cons hfirst (by omega) hmore hnext hranges⟩
termination_by last.toNat - first.toNat
decreasing_by omega

section Tiles

variable {span last first : UInt64} {ranges : List (UInt64 × UInt64)}

/-- There is only one way to cut a range up. -/
theorem Tiles.unique (h : Tiles span last first ranges) {ranges' : List (UInt64 × UInt64)}
    (h' : Tiles span last first ranges') : ranges = ranges' := by
  induction h generalizing ranges' with
  | last nonempty short =>
    cases h' with
    | last => rfl
    | cons nonempty' full more =>
      simp only [UInt64.le_iff_toNat_le, UInt64.lt_iff_toNat_lt] at nonempty' more
      omega
  | @cons first stop next ranges nonempty full more adjacent rest ih =>
    simp only [UInt64.le_iff_toNat_le, UInt64.lt_iff_toNat_lt] at nonempty more
    cases h' with
    | last nonempty' short => omega
    | @cons first stop' next' ranges' nonempty' full' more' adjacent' rest' =>
      rw [UInt64.le_iff_toNat_le] at nonempty'
      obtain rfl : stop = stop' := UInt64.toNat.inj (by omega)
      obtain rfl : next = next' := UInt64.toNat.inj (by omega)
      rw [ih rest']

/-- There are as many ranges as it takes to hold all blocks. -/
theorem Tiles.length_eq (h : Tiles span last first ranges) :
    ranges.length = (last.toNat - first.toNat + span.toNat) / span.toNat := by
  induction h with
  | @last first nonempty short =>
    rw [Nat.add_div_right _ (by omega), Nat.div_eq_of_lt (by omega)]
    rfl
  | @cons first stop next ranges nonempty full more adjacent rest ih =>
    have hle := rest.first_le_last
    rw [UInt64.le_iff_toNat_le] at nonempty hle
    have hfirst : last.toNat - first.toNat = last.toNat - next.toNat + span.toNat := by omega
    rw [List.length_cons, ih, hfirst]
    exact (Nat.add_div_right _ (by omega)).symm

/-- Each block is in one of the ranges, and only in one. -/
theorem Tiles.count_contains (h : Tiles span last first ranges) (block : UInt64) :
    ranges.countP (fun range => range.1 ≤ block ∧ block ≤ range.2) =
      if first ≤ block ∧ block ≤ last then 1 else 0 := by
  induction h with
  | last nonempty short => simp [List.countP_cons]
  | @cons first stop next ranges nonempty full more adjacent rest ih =>
    rw [List.countP_cons, ih]
    simp only [UInt64.le_iff_toNat_le, UInt64.lt_iff_toNat_lt, decide_eq_true_eq] at *
    split_ifs <;> omega

end Tiles

/-! ## Asking in turn -/

/-- Ranges asked for one after the other, each in the world that the one before has left, and what
was answered. -/
inductive Asked (s : LogSource w) (filter : LogFilter) :
    List (UInt64 × UInt64) → w → List (List Log) → w → Prop
  | none {world : w} : Asked s filter [] world [] world
  | cons {first last : UInt64} {ranges : List (UInt64 × UInt64)} {world world' world'' : w}
    {answer : List Log} {answers : List (List Log)}
    (answered : s.logs filter first last world = (.ok answer, world'))
    (rest : Asked s filter ranges world' answers world'') :
    Asked s filter ((first, last) :: ranges) world (answer :: answers) world''

/-- What asking for ranges in turn comes to: all answers in order, or the failure of the first
range that fails, and then the ranges behind it are not asked for. -/
def InTurn (s : LogSource w) (filter : LogFilter) (ranges : List (UInt64 × UInt64)) (world : w)
    (outcome : Except TransportError (List Log) × w) : Prop :=
  (∃ answers world', s.Asked filter ranges world answers world' ∧
    outcome = (.ok answers.flatten, world')) ∨
  ∃ done first last rest answers world' e world'', ranges = done ++ (first, last) :: rest ∧
    s.Asked filter done world answers world' ∧
    s.logs filter first last world' = (.error e, world'') ∧ outcome = (.error e, world'')

section InTurn

variable {s : LogSource w} {filter : LogFilter} {world : w}

/-- A scan of blocks that fit into one range asks for it. -/
theorem scanPieces_last (s : LogSource w) (filter : LogFilter) {span last first : UInt64}
    (nonempty : first ≤ last) (short : last.toNat - first.toNat + 1 ≤ span.toNat) :
    s.scanPieces filter span last first = s.logs filter first last := by
  have hspan : span ≠ 0 := by
    rintro rfl
    simp at short
  have hend : pieceEnd span first last = last := by
    rw [UInt64.le_iff_toNat_le] at nonempty
    exact UInt64.toNat.inj (by rw [toNat_pieceEnd hspan]; omega)
  rw [scanPieces, hend]
  simp

/-- A scan of further blocks asks for a full range and goes on behind it. -/
theorem scanPieces_cons (s : LogSource w) (filter : LogFilter) {span last first stop : UInt64}
    (nonempty : first ≤ stop) (full : stop.toNat - first.toNat + 1 = span.toNat)
    (more : stop < last) :
    s.scanPieces filter span last first = do
      let piece ← s.logs filter first stop
      let behind ← s.scanPieces filter span last (stop + 1)
      return piece ++ behind := by
  have hspan : span ≠ 0 := by
    rintro rfl
    simp at full
  rw [UInt64.le_iff_toNat_le] at nonempty
  rw [UInt64.lt_iff_toNat_lt] at more
  have hend : pieceEnd span first last = stop :=
    UInt64.toNat.inj (by rw [toNat_pieceEnd hspan]; omega)
  rw [scanPieces, hend]
  simp [nonempty, more]

/-- A scan asks for the ranges that tile its blocks.  The induction is on the ranges. -/
theorem scanPieces_inTurn {span last first : UInt64} {ranges : List (UInt64 × UInt64)}
    (tiles : Tiles span last first ranges) (world : w) :
    s.InTurn filter ranges world (s.scanPieces filter span last first world) := by
  induction tiles generalizing world with
  | @last first nonempty short =>
    rw [scanPieces_last s filter nonempty short]
    rcases hlogs : s.logs filter first last world with ⟨e | piece, world'⟩
    · exact .inr ⟨[], first, last, [], [], world, e, world', rfl, .none, hlogs, rfl⟩
    · exact .inl ⟨[piece], world', .cons hlogs .none, by simp⟩
  | @cons first stop next ranges nonempty full more adjacent rest ih =>
    rw [scanPieces_cons s filter nonempty full more, ← eq_succ more adjacent,
      TransportM.bind_apply]
    rcases hlogs : s.logs filter first stop world with ⟨e | piece, world'⟩
    · exact .inr ⟨[], first, stop, ranges, [], world, e, world', rfl, .none, hlogs, rfl⟩
    · simp only [TransportM.bind_apply]
      rcases ih world' with ⟨answers, world'', hasked, hbehind⟩ |
        ⟨done, start, stop', behind, answers, last', e, world'', rfl, hasked, hfails, hbehind⟩
      · rw [hbehind]
        exact .inl ⟨piece :: answers, world'', .cons hlogs hasked, rfl⟩
      · rw [hbehind]
        exact .inr ⟨(first, stop) :: done, start, stop', behind, piece :: answers, last', e,
          world'', rfl, .cons hlogs hasked, hfails, rfl⟩

end InTurn

/-! ## Scans -/

section Scan

variable (s : LogSource w) (filter : LogFilter)

/-- Without a last block the head is asked for first. -/
theorem scan_head (first : UInt64) (maxRange : Option UInt64) :
    s.scan filter first none maxRange =
      s.head >>= fun last => s.scan filter first (some last) maxRange := by
  simp [scan]

/-- Of a range without blocks nothing is asked for. -/
theorem scan_empty {first last : UInt64} (h : last < first) (maxRange : Option UInt64) :
    s.scan filter first (some last) maxRange = pure [] := by
  simp [scan, h]

/-- Without a limit the whole range is asked for at once. -/
theorem scan_whole {first last : UInt64} (h : first ≤ last) :
    s.scan filter first (some last) none = s.logs filter first last := by
  simp [scan, UInt64.not_lt.2 h]

theorem scan_pieces {first last span : UInt64} (h : first ≤ last) (hspan : span ≠ 0) :
    s.scan filter first (some last) (some span) = s.scanPieces filter span last first := by
  simp [scan, UInt64.not_lt.2 h, hspan]

end Scan

/-- A source whose answers depend on the range alone, as long as the world has a property, which it
keeps, and whose answer for a range is the answer for its blocks up to one, followed by the answer
for the blocks behind that. -/
structure Splits (s : LogSource w) (filter : LogFilter) (W : w → Prop)
    (answer : (first last : UInt64) → Except TransportError (List Log)) : Prop where
  answers : ∀ first last world, W world →
    (s.logs filter first last world).1 = answer first last ∧ W (s.logs filter first last world).2
  splits : ∀ first middle last, first ≤ middle → middle < last →
    answer first last = do
      let low ← answer first middle
      let high ← answer (middle + 1) last
      return low ++ high

/-- For such a source it makes no difference how a range is cut. -/
theorem Splits.scanPieces {s : LogSource w} {filter : LogFilter} {W : w → Prop}
    {answer : UInt64 → UInt64 → Except TransportError (List Log)}
    (splits : s.Splits filter W answer) {span last first : UInt64}
    {ranges : List (UInt64 × UInt64)} (tiles : Tiles span last first ranges) {world : w}
    (hworld : W world) : (s.scanPieces filter span last first world).1 = answer first last := by
  induction tiles generalizing world with
  | @last first nonempty short =>
    rw [scanPieces_last s filter nonempty short]
    exact (splits.answers first last world hworld).1
  | @cons first stop next ranges nonempty full more adjacent rest ih =>
    obtain rfl := eq_succ more adjacent
    rw [scanPieces_cons s filter nonempty full more, splits.splits first stop last nonempty more,
      TransportM.bind_apply]
    obtain ⟨hpiece, hkept⟩ := splits.answers first stop world hworld
    rcases hlogs : s.logs filter first stop world with ⟨e | piece, world'⟩
    · rw [hlogs] at hpiece
      rw [← hpiece]
      rfl
    · rw [hlogs] at hpiece hkept
      rw [← hpiece, ← ih hkept]
      simp only [TransportM.bind_apply]
      rcases s.scanPieces filter span last (stop + 1) world' with ⟨e | behind, world''⟩
      · rfl
      · rfl

end LogSource

namespace LogStore

open LogSource

section Split

variable (s : LogStore) (filter : LogFilter) {first middle next last : UInt64}

/-- The logs of a range up to one of its blocks. -/
theorem select_upTo (hlast : middle < last) :
    s.select filter first middle =
      (s.select filter first last).filter fun log => log.blockNumber ≤ middle := by
  rw [select, select, List.filter_filter]
  refine List.filter_congr fun log _ => ?_
  have hle : log.blockNumber ≤ middle → log.blockNumber ≤ last := by
    simp only [UInt64.le_iff_toNat_le, UInt64.lt_iff_toNat_lt] at *
    omega
  by_cases h : log.blockNumber ≤ middle
  · simp [h, hle h]
  · simp [h]

/-- The logs of a range behind one of its blocks. -/
theorem select_behind (hfirst : first ≤ middle) (hnext : next.toNat = middle.toNat + 1) :
    s.select filter next last =
      (s.select filter first last).filter fun log => !decide (log.blockNumber ≤ middle) := by
  rw [select, select, List.filter_filter]
  refine List.filter_congr fun log _ => ?_
  have hnext : next ≤ log.blockNumber ↔ ¬log.blockNumber ≤ middle := by
    simp only [UInt64.le_iff_toNat_le] at *
    omega
  have hle : next ≤ log.blockNumber → first ≤ log.blockNumber := by
    simp only [UInt64.le_iff_toNat_le] at *
    omega
  by_cases h : log.blockNumber ≤ middle
  · simp [h, hnext]
  · simp [h, hnext.2 h, hle (hnext.2 h)]

/-- The logs of a range of blocks are its logs up to a block and those behind it. -/
theorem select_split (hfirst : first ≤ middle) (hlast : middle < last)
    (hnext : next.toNat = middle.toNat + 1) :
    (s.select filter first middle ++ s.select filter next last).Perm
      (s.select filter first last) := by
  rw [select_upTo s filter hlast, select_behind s filter hfirst hnext]
  exact List.filter_append_perm _ _

/-- In a list in which nothing that has a property comes behind what does not have it, what has the
property stands in front. -/
theorem filter_append_filter_not {β : Type} {p : β → Bool} {xs : List β}
    (h : xs.Pairwise fun a b => p b = true → p a = true) :
    xs.filter p ++ xs.filter (fun x => !p x) = xs := by
  induction xs with
  | nil => rfl
  | cons x xs ih =>
    obtain ⟨hx, hxs⟩ := List.pairwise_cons.1 h
    by_cases hp : p x = true
    · simp [hp, ih hxs]
    · have hnone : xs.filter p = [] := by
        rw [List.filter_eq_nil_iff]
        intro y hy hpy
        exact hp (hx y hy hpy)
      have hall : xs.filter (fun x => !p x) = xs := by
        rw [List.filter_eq_self]
        intro y hy
        simpa using fun hpy => hp (hx y hy hpy)
      simp [hp, hnone, hall]

/-- If logs are stored in the order of their blocks, the order is kept as well. -/
theorem select_append (hsorted : s.logs.Pairwise fun a b => a.blockNumber ≤ b.blockNumber)
    (hfirst : first ≤ middle) (hlast : middle < last) (hnext : next.toNat = middle.toNat + 1) :
    s.select filter first middle ++ s.select filter next last = s.select filter first last := by
  rw [select_upTo s filter hlast, select_behind s filter hfirst hnext]
  apply filter_append_filter_not
  have hselected : (s.select filter first last).Pairwise fun a b => a.blockNumber ≤ b.blockNumber :=
    hsorted.filter _
  refine hselected.imp fun hab hb => ?_
  simp only [decide_eq_true_eq] at hb ⊢
  exact UInt64.le_trans hab hb

end Split

/-- What the ranges that tile some blocks give. -/
theorem flatMap_select_perm (s : LogStore) (filter : LogFilter) {span last first : UInt64}
    {ranges : List (UInt64 × UInt64)} (tiles : Tiles span last first ranges) :
    (ranges.flatMap fun range => s.select filter range.1 range.2).Perm
      (s.select filter first last) := by
  induction tiles with
  | last nonempty short => simp
  | cons nonempty full more adjacent rest ih =>
    rw [List.flatMap_cons]
    exact (List.Perm.append_left _ ih).trans (s.select_split filter nonempty more adjacent)

/-- A store gives the logs of each range, and notes the ranges. -/
theorem scanPieces_source (s : LogStore) (filter : LogFilter) {span last first : UInt64}
    {ranges : List (UInt64 × UInt64)} (tiles : Tiles span last first ranges) :
    source.scanPieces filter span last first s =
      (.ok (ranges.flatMap fun range => s.select filter range.1 range.2),
        { s with requests := s.requests ++ ranges }) := by
  induction tiles generalizing s with
  | @last first nonempty short =>
    rw [scanPieces_last source filter nonempty short]
    simp [source]
  | @cons first stop next ranges nonempty full more adjacent rest ih =>
    rw [scanPieces_cons source filter nonempty full more, ← eq_succ more adjacent,
      TransportM.bind_apply]
    show (source.scanPieces filter span last next >>= fun behind => pure (_ ++ behind)) _ = _
    rw [TransportM.bind_apply, ih]
    simp only [select, List.flatMap_cons, List.append_assoc, List.singleton_append]
    rfl

/-- A store with its logs in the order of their blocks may be asked in any ranges. -/
theorem splits_source {s : LogStore} (filter : LogFilter)
    (hsorted : s.logs.Pairwise fun a b => a.blockNumber ≤ b.blockNumber) :
    source.Splits filter (fun t => t.logs = s.logs)
      fun first last => .ok (s.select filter first last) where
  answers first last t ht := by
    refine ⟨?_, ht⟩
    show Except.ok (t.select filter first last) = _
    rw [select, ht]
    rfl
  splits first middle last hfirst hlast := by
    show _ = Except.ok _
    rw [s.select_append filter hsorted hfirst hlast (toNat_succ hlast)]

end LogStore

/-- A scan covers its range exactly once.  The last block is the given one or the head, and of a
range without blocks nothing is asked for.  Any other range is cut into as few ranges of at most
`span` blocks as possible, each block in one of them; they are asked for in turn, up to the first
that fails, and their answers are put together.  So a source that does not care how a range is cut
gives the same as for the whole range at once; a store gives the same logs, and in the same order
if they are stored in the order of their blocks, and has been asked for just these ranges. -/
theorem LogSource.scan_covers_range (s : LogSource w) (filter : LogFilter) (first : UInt64)
    {span : UInt64} (hspan : 1 ≤ span) :
    (∀ maxRange, s.scan filter first none maxRange =
      s.head >>= fun last => s.scan filter first (some last) maxRange) ∧
    (∀ last maxRange world, last < first →
      s.scan filter first (some last) maxRange world = (.ok [], world)) ∧
    ∀ last, first ≤ last → ∃ ranges, Tiles span last first ranges ∧
      ranges.length = (last.toNat - first.toNat + 1) ⌈/⌉ span.toNat ∧
      (∀ block, ranges.countP (fun range => range.1 ≤ block ∧ block ≤ range.2) =
        if first ≤ block ∧ block ≤ last then 1 else 0) ∧
      (∀ world, s.InTurn filter ranges world
        (s.scan filter first (some last) (some span) world)) ∧
      (∀ W answer, s.Splits filter W answer → ∀ world, W world →
        (s.scan filter first (some last) (some span) world).1 = answer first last ∧
        (s.scan filter first (some last) none world).1 = answer first last) ∧
      ∀ store : LogStore, ∃ found,
        LogStore.source.scan filter first (some last) (some span) store =
          (.ok found, { store with requests := store.requests ++ ranges }) ∧
        (LogStore.source.scan filter first (some last) none store).1 =
          .ok (store.select filter first last) ∧
        found.Perm (store.select filter first last) ∧
        (store.logs.Pairwise (fun a b => a.blockNumber ≤ b.blockNumber) →
          found = store.select filter first last) := by
  have hpositive : 0 < span.toNat := by
    rw [UInt64.le_iff_toNat_le] at hspan
    exact hspan
  have hne : span ≠ 0 := by
    rintro rfl
    cases hpositive
  refine ⟨s.scan_head filter first, ?_, ?_⟩
  · intro last maxRange world hempty
    rw [s.scan_empty filter hempty]
    rfl
  · intro last hle
    obtain ⟨ranges, tiles⟩ := exists_tiles hne last hle
    refine ⟨ranges, tiles, ?_, tiles.count_contains, ?_, ?_, ?_⟩
    · rw [tiles.length_eq, Nat.ceilDiv_eq_add_pred_div]
      congr 1
      omega
    · intro world
      rw [s.scan_pieces filter hle hne]
      exact scanPieces_inTurn tiles world
    · intro W answer splits world hworld
      rw [s.scan_pieces filter hle hne, s.scan_whole filter hle]
      exact ⟨splits.scanPieces tiles hworld, (splits.answers first last world hworld).1⟩
    · intro store
      rw [LogStore.source.scan_pieces filter hle hne, LogStore.source.scan_whole filter hle]
      have hscan := store.scanPieces_source filter tiles
      refine ⟨_, hscan, rfl, store.flatMap_select_perm filter tiles, fun hsorted => ?_⟩
      have hsplits := (LogStore.splits_source filter hsorted).scanPieces tiles rfl
      rw [hscan] at hsplits
      exact Except.ok.inj hsplits

/-- A log of a block. -/
def logAt (block : UInt64) : Log := ⟨default, [], [], block, 0, none, false⟩

/-- Logs of the last three blocks that there can be, the latest first. -/
def topStore : LogStore where
  logs := [logAt 0xffffffffffffffff, logAt 0xfffffffffffffffe, logAt 0xfffffffffffffffd]

/-- A scan up to the last block that there can be, where the blocks that may be asked for at once
reach beyond it. -/
theorem LogSource.scan_covers_range_top :
    ∃ found, LogStore.source.scan .any 0xfffffffffffffffd (some 0xffffffffffffffff) (some 2)
        topStore =
      (.ok found, { topStore with requests :=
        [(0xfffffffffffffffd, 0xfffffffffffffffe), (0xffffffffffffffff, 0xffffffffffffffff)] }) ∧
      found.Perm topStore.logs := by
  obtain ⟨-, -, hcovers⟩ := LogStore.source.scan_covers_range .any 0xfffffffffffffffd
    (by decide : (1 : UInt64) ≤ 2)
  obtain ⟨ranges, tiles, -, -, -, -, hstore⟩ := hcovers 0xffffffffffffffff (by decide)
  obtain ⟨found, hscan, -, hperm, -⟩ := hstore topStore
  have hlast : Tiles 2 0xffffffffffffffff 0xffffffffffffffff
      [(0xffffffffffffffff, 0xffffffffffffffff)] := .last (by decide) (by decide)
  have hranges : Tiles 2 0xffffffffffffffff 0xfffffffffffffffd
      [(0xfffffffffffffffd, 0xfffffffffffffffe), (0xffffffffffffffff, 0xffffffffffffffff)] :=
    .cons (by decide) (by decide) (by decide) (by decide) hlast
  obtain rfl := tiles.unique hranges
  exact ⟨found, hscan, hperm⟩

end ContractReads
