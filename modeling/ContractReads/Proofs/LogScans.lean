import ContractReads.Oracle.Submission
import ContractReads.Proofs.ScanRanges
import ContractReads.Proofs.ServedQueries

/-!
# What scans find

A scan of a source that holds stored logs finds those of its range that the filter accepts, each
as often as it is stored, and however the range is divided into pieces.

* `LogStore.mem_select`, `LogFilter.accepts_topics` and `LogFilter.accepts_firstTopic` say which
  logs are found, in terms of their blocks, their contract and their topics.
* `LogSource.Holds.scanPieces` goes from range to range, `LogSource.Holds.scan` is about any way
  of scanning.
-/

namespace ContractReads

variable {w α : Type}

/-- The block of a log lies in a range. -/
def Log.InRange (first last : UInt64) (log : Log) : Prop :=
  first ≤ log.blockNumber ∧ log.blockNumber ≤ last

/-- A log of an event of a contract. -/
def Contract.Emits (c : Contract) (event : String) (log : Log) : Prop :=
  log.address = c.address ∧ ∃ topic, c.eventTopic event = .ok topic ∧ log.topics.head? = some topic

/-- A log is decoded as one of the event that its first topic names. -/
theorem Contract.decodeEvent_of_topic {c : Contract} {log : Log} {topic : Word}
    {topics : List Word} {e : Event} (htopics : log.topics = topic :: topics)
    (he : c.interface.eventOfTopic? topic = some e) : c.decodeEvent log = e.decode log := by
  rw [decodeEvent, htopics]
  simp only [he]

namespace LogFilter

theorem topicsMatch_cons {values : List Word} (h : values ≠ []) {accepted : List (List Word)}
    {topics : List Word} : topicsMatch (values :: accepted) topics = true ↔
      ∃ t ts, topics = t :: ts ∧ t ∈ values ∧ topicsMatch accepted ts = true := by
  obtain ⟨v, vs, rfl⟩ := List.exists_cons_of_ne_nil h
  cases topics with
  | nil => simp [topicsMatch]
  | cons t ts => simp [topicsMatch]

/-- A filter for the logs of one contract. -/
theorem accepts_topics {a : Address} {accepted : List (List Word)} {log : Log} :
    accepts ⟨[a], accepted⟩ log = true ↔
      log.address = a ∧ topicsMatch accepted log.topics = true := by
  simp [accepts]

/-- A filter for the logs of one contract that start with certain topics. -/
theorem accepts_firstTopic {a : Address} {topics : List Word} (h : topics ≠ []) {log : Log} :
    accepts ⟨[a], [topics]⟩ log = true ↔
      log.address = a ∧ ∃ topic ∈ topics, log.topics.head? = some topic := by
  rw [accepts_topics, topicsMatch_cons h]
  refine and_congr_right fun _ => ?_
  constructor
  · rintro ⟨t, ts, htopics, ht, -⟩
    exact ⟨t, ht, by rw [htopics, List.head?_cons]⟩
  · rintro ⟨t, ht, hhead⟩
    obtain ⟨ts, htopics⟩ := List.head?_eq_some_iff.1 hhead
    exact ⟨t, ts, htopics, ht, rfl⟩

end LogFilter

/-- A source that gives the logs of a store, as long as the world has a property, which it keeps. -/
structure LogSource.Holds (s : LogSource w) (W : w → Prop) (store : LogStore) : Prop where
  head : Yields W s.head (· = store.head)
  logs : ∀ filter first last,
    Yields W (s.logs filter first last) (· = store.select filter first last)

/-- A question for logs, as a step of a query. -/
theorem Yields.asQuery {W : w → Prop} {q : TransportM w α} {P : α → Prop} (h : Yields W q P) :
    Yields (fun s => W s.1) (Oracle.asQuery q) P := by
  rintro ⟨world, now⟩ hs
  obtain ⟨a, world', hq, ha, hworld'⟩ := h world hs
  refine ⟨a, (world', now), ?_, ha, hworld'⟩
  show ((q world).1.mapError QueryError.transport, (q world).2, now) = _
  rw [hq]
  rfl

namespace LogStore

theorem mem_select {s : LogStore} {filter : LogFilter} {first last : UInt64} {log : Log} :
    log ∈ s.select filter first last ↔
      log ∈ s.logs ∧ log.InRange first last ∧ filter.accepts log = true := by
  simp [select, Log.InRange]

/-- A store gives its own logs. -/
theorem holds_source (store : LogStore) :
    source.Holds (fun s => s.head = store.head ∧ s.logs = store.logs) store where
  head s h := ⟨_, s, rfl, h.1, h⟩
  logs filter first last s h := by
    refine ⟨_, _, rfl, ?_, h⟩
    show s.select filter first last = _
    rw [select, select, h.2]

end LogStore

namespace LogSource

variable {s : LogSource w} {W : w → Prop} {store : LogStore}

/-- The ranges of a scan find the logs of all its blocks. -/
theorem Holds.scanPieces (holds : s.Holds W store) (filter : LogFilter) {span last first : UInt64}
    {ranges : List (UInt64 × UInt64)} (tiles : Tiles span last first ranges) :
    Yields W (s.scanPieces filter span last first)
      (List.Perm · (store.select filter first last)) := by
  induction tiles with
  | @last first nonempty short =>
    rw [scanPieces_last s filter nonempty short]
    exact (holds.logs filter first last).mono fun found hfound => hfound ▸ List.Perm.refl _
  | @cons first stop next ranges nonempty full more adjacent rest ih =>
    rw [scanPieces_cons s filter nonempty full more, ← eq_succ more adjacent]
    refine (holds.logs filter first stop).bind fun piece hpiece => ih.bind fun behind hbehind =>
      yields_pure ?_
    rw [hpiece]
    exact (List.Perm.append_left _ hbehind).trans
      (store.select_split filter nonempty more adjacent)

/-- A scan finds the logs of its range. -/
theorem Holds.scan (holds : s.Holds W store) (filter : LogFilter) (first last : UInt64)
    {maxRange : Option UInt64} (hrange : maxRange ≠ some 0) :
    Yields W (s.scan filter first (some last) maxRange)
      (List.Perm · (store.select filter first last)) := by
  by_cases hempty : last < first
  · have hnone : store.select filter first last = [] := by
      rw [LogStore.select, List.filter_eq_nil_iff]
      intro log _ hlog
      simp only [Bool.and_eq_true, decide_eq_true_eq] at hlog
      exact UInt64.not_lt.2 (UInt64.le_trans hlog.1.1 hlog.1.2) hempty
    rw [s.scan_empty filter hempty, hnone]
    exact yields_pure (List.Perm.refl [])
  · have hle : first ≤ last := UInt64.not_lt.1 hempty
    cases maxRange with
    | none =>
      rw [s.scan_whole filter hle]
      exact (holds.logs filter first last).mono fun found hfound => hfound ▸ List.Perm.refl _
    | some span =>
      have hspan : span ≠ 0 := fun h => hrange (congrArg some h)
      obtain ⟨ranges, tiles⟩ := exists_tiles hspan last hle
      rw [s.scan_pieces filter hle hspan]
      exact holds.scanPieces filter tiles

end LogSource

end ContractReads
