import ContractReads.Log.Memory
import ContractReads.Oracle.Dao
import ContractReads.Proofs.LogScans

/-!
# When the members last changed

The latest change in a range of blocks is found whatever the order in which logs are stored and
however the range is divided.

* `Dao.Changed` says what a change is, in terms of a log; `Dao.LatestChange` says which block is
  that of the latest one.
* `Dao.accepts_membershipFilter`: the filter accepts the logs of the four events.
* `Dao.latestFirst_sorted` and `Dao.firstChange_latest`: behind a sorted list's first change no
  later one follows.
* `Dao.latestChange_yields` puts them together.
-/

namespace ContractReads.Oracle

variable {w : Type}

namespace Dao

variable {d : Dao}

/-- Someone joined, left, was kicked or lost a challenge, and the log of it is not removed. -/
structure Changed (d : Dao) (log : Log) : Prop where
  current : log.removed = false
  logged : ∃ event ∈ membershipEvents, d.actions.Emits event log
  effective : ∃ e, d.actions.decodeEvent log = .ok e ∧
    (e.name = challengeDecided → e.get "success" = .ok true)

/-- The latest block of a range in which the members changed, or its start if they did not. -/
def LatestChange (d : Dao) (logs : List Log) (first last block : UInt64) : Prop :=
  (∃ log ∈ logs, d.Changed log ∧ log.InRange first last ∧ log.blockNumber = block ∧
    ∀ other ∈ logs, d.Changed other → other.InRange first last → other.blockNumber ≤ block) ∨
  (block = first ∧ ∀ log ∈ logs, d.Changed log → ¬log.InRange first last)

/-- The logs of a range that tell of changes can be decoded. -/
def Readable (d : Dao) (logs : List Log) (first last : UInt64) : Prop :=
  ∀ log ∈ logs, log.removed = false → (∃ event ∈ membershipEvents, d.actions.Emits event log) →
    log.InRange first last →
    ∃ e, d.actions.decodeEvent log = .ok e ∧
      (e.name = challengeDecided → ∃ success : Bool, e.get "success" = .ok success)

/-- The interface of the actions declares the four events. -/
def Declared (d : Dao) : Prop :=
  ∀ event ∈ membershipEvents, ∃ topic, d.actions.eventTopic event = .ok topic

theorem LatestChange.le_last {logs : List Log} {first last block : UInt64}
    (h : d.LatestChange logs first last block) (hle : first ≤ last) : block ≤ last := by
  rcases h with ⟨log, -, -, hrange, rfl, -⟩ | ⟨rfl, -⟩
  · exact hrange.2
  · exact hle

theorem LatestChange.first_le {logs : List Log} {first last block : UInt64}
    (h : d.LatestChange logs first last block) : first ≤ block := by
  rcases h with ⟨log, -, -, hrange, rfl, -⟩ | ⟨rfl, -⟩
  · exact hrange.1
  · exact UInt64.le_refl _

/-- The latest change is that of the logs that are not removed. -/
theorem LatestChange.of_current {logs logs' : List Log} {first last block : UInt64}
    (h : d.LatestChange logs first last block)
    (same : ∀ log, log.removed = false → (log ∈ logs' ↔ log ∈ logs)) :
    d.LatestChange logs' first last block := by
  have hsame : ∀ log, d.Changed log → (log ∈ logs' ↔ log ∈ logs) := fun log changed =>
    same log changed.current
  rcases h with ⟨log, hlog, changed, hrange, hblock, hlatest⟩ | ⟨hfirst, hnone⟩
  · refine .inl ⟨log, (hsame log changed).2 hlog, changed, hrange, hblock, ?_⟩
    exact fun other hother changed => hlatest other ((hsame other changed).1 hother) changed
  · exact .inr ⟨hfirst, fun log hlog changed => hnone log ((hsame log changed).1 hlog) changed⟩

/-- There is one latest change. -/
theorem LatestChange.unique {logs : List Log} {first last block other : UInt64}
    (h : d.LatestChange logs first last block) (h' : d.LatestChange logs first last other) :
    block = other := by
  rcases h with ⟨log, hlog, changed, hrange, rfl, hlatest⟩ | ⟨rfl, hnone⟩
  · rcases h' with ⟨log', hlog', changed', hrange', rfl, hlatest'⟩ | ⟨rfl, hnone'⟩
    · exact UInt64.le_antisymm (hlatest' log hlog changed hrange)
        (hlatest log' hlog' changed' hrange')
    · exact absurd hrange (hnone' log hlog changed)
  · rcases h' with ⟨log', hlog', changed', hrange', rfl, -⟩ | ⟨rfl, -⟩
    · exact absurd hrange' (hnone log' hlog' changed')
    · rfl

/-! ## The filter -/

theorem mapM_eq_ok {α β ε : Type} {f : α → Except ε β} {xs : List α}
    (h : ∀ x ∈ xs, ∃ y, f x = .ok y) :
    ∃ ys, xs.mapM f = .ok ys ∧ ys.length = xs.length ∧ ∀ y, y ∈ ys ↔ ∃ x ∈ xs, f x = .ok y := by
  induction xs with
  | nil => exact ⟨[], rfl, rfl, by simp⟩
  | cons x xs ih =>
    obtain ⟨y, hy⟩ := h x List.mem_cons_self
    obtain ⟨ys, hys, hlength, hmem⟩ := ih fun x hx => h x (List.mem_cons_of_mem _ hx)
    refine ⟨y :: ys, ?_, ?_, ?_⟩
    · rw [List.mapM_cons, hy, hys]
      rfl
    · rw [List.length_cons, hlength, List.length_cons]
    · intro z
      rw [List.mem_cons, hmem, List.exists_mem_cons_iff, hy, Except.ok.injEq, eq_comm]

theorem accepts_membershipFilter (declared : d.Declared) :
    ∃ filter, d.membershipFilter = .ok filter ∧
      ∀ log, filter.accepts log = true ↔ ∃ event ∈ membershipEvents, d.actions.Emits event log := by
  obtain ⟨topics, htopics, hlength, hmem⟩ := mapM_eq_ok declared
  refine ⟨⟨[d.actions.address], [topics]⟩, ?_, ?_⟩
  · rw [membershipFilter, htopics]
    rfl
  · intro log
    have hne : topics ≠ [] := by
      rintro rfl
      cases hlength
    rw [LogFilter.accepts_firstTopic hne]
    constructor
    · rintro ⟨haddress, t, ht, hhead⟩
      obtain ⟨event, hevent, htopic⟩ := (hmem t).1 ht
      exact ⟨event, hevent, haddress, t, htopic, hhead⟩
    · rintro ⟨event, hevent, haddress, t, htopic, hhead⟩
      exact ⟨haddress, t, (hmem t).2 ⟨event, hevent, htopic⟩, hhead⟩

/-! ## From the latest log to the earliest -/

theorem notBefore_iff {a b : Log} : notBefore a b = true ↔
    b.blockNumber.toNat < a.blockNumber.toNat ∨
      a.blockNumber = b.blockNumber ∧ b.logIndex.toNat ≤ a.logIndex.toNat := by
  simp [notBefore, UInt64.lt_iff_toNat_lt, UInt64.le_iff_toNat_le]

theorem perm_latestFirst (logs : List Log) : (latestFirst logs).Perm logs :=
  (List.mergeSort_perm _ _).trans (List.reverse_perm logs)

/-- No later block follows behind a log. -/
theorem latestFirst_sorted (logs : List Log) :
    (latestFirst logs).Pairwise fun a b => b.blockNumber ≤ a.blockNumber := by
  have htrans : ∀ a b c : Log, notBefore a b = true → notBefore b c = true →
      notBefore a c = true := by
    simp only [notBefore_iff, ← UInt64.toNat_inj]
    omega
  have htotal : ∀ a b : Log, (notBefore a b || notBefore b a) = true := by
    simp only [Bool.or_eq_true, notBefore_iff, ← UInt64.toNat_inj]
    omega
  refine (List.pairwise_mergeSort htrans htotal logs.reverse).imp fun {a b} h => ?_
  rw [notBefore_iff, ← UInt64.toNat_inj] at h
  rw [UInt64.le_iff_toNat_le]
  omega

/-- An event that is known to be a change or none. -/
theorem changesMembers_eq_ok {e : DecodedEvent}
    (h : e.name = challengeDecided → ∃ success : Bool, e.get "success" = .ok success) :
    ∃ changes, changesMembers e = .ok changes ∧
      (changes = true ↔ (e.name = challengeDecided → e.get "success" = .ok true)) := by
  by_cases hname : e.name = challengeDecided
  · obtain ⟨success, hsuccess⟩ := h hname
    refine ⟨success, ?_, ?_⟩
    · rw [changesMembers, if_pos hname, hsuccess]
    · rw [hsuccess]
      simp [hname]
  · refine ⟨true, ?_, ?_⟩
    · rw [changesMembers, if_neg hname]
    · simp [hname]

/-- The block of the latest change among logs, if there is any. -/
def LatestAmong (d : Dao) (logs : List Log) : Option UInt64 → Prop
  | some block => (∃ log ∈ logs, d.Changed log ∧ log.blockNumber = block) ∧
    ∀ log ∈ logs, d.Changed log → log.blockNumber ≤ block
  | none => ∀ log ∈ logs, ¬d.Changed log

theorem LatestAmong.cons_of_not {log : Log} {logs : List Log} {change : Option UInt64}
    (hlog : ¬d.Changed log) (h : d.LatestAmong logs change) :
    d.LatestAmong (log :: logs) change := by
  cases change <;> simpa [LatestAmong, hlog] using h

/-- The first change in a list that is sorted from the latest block to the earliest is the latest
one. -/
theorem firstChange_latest {logs : List Log}
    (sorted : logs.Pairwise fun a b => b.blockNumber ≤ a.blockNumber)
    (logged : ∀ log ∈ logs, ∃ event ∈ membershipEvents, d.actions.Emits event log)
    (readable : ∀ log ∈ logs, log.removed = false →
      ∃ e, d.actions.decodeEvent log = .ok e ∧
        (e.name = challengeDecided → ∃ success : Bool, e.get "success" = .ok success)) :
    ∃ change, d.firstChange logs = .ok change ∧ d.LatestAmong logs change := by
  induction logs with
  | nil => exact ⟨none, rfl, nofun⟩
  | cons log logs ih =>
    obtain ⟨hbehind, hsorted⟩ := List.pairwise_cons.1 sorted
    obtain ⟨change, hchange, hlatest⟩ := ih hsorted
      (fun log hlog => logged log (List.mem_cons_of_mem _ hlog))
      (fun log hlog => readable log (List.mem_cons_of_mem _ hlog))
    cases hremoved : log.removed with
    | true =>
      refine ⟨change, ?_, hlatest.cons_of_not fun h => ?_⟩
      · rw [firstChange, if_pos hremoved, hchange]
      · rw [h.current] at hremoved
        cases hremoved
    | false =>
      obtain ⟨e, he, hsuccess⟩ := readable log List.mem_cons_self hremoved
      obtain ⟨changes, hchanges, hiff⟩ := changesMembers_eq_ok hsuccess
      have hfirst : d.firstChange (log :: logs) =
          if changes = true then .ok (some log.blockNumber) else d.firstChange logs := by
        rw [firstChange, if_neg (by simp [hremoved]), he]
        simp only [bind, Except.bind, hchanges]
        rfl
      cases changes with
      | true =>
        refine ⟨some log.blockNumber, hfirst, ⟨log, List.mem_cons_self, ?_, rfl⟩, ?_⟩
        · exact ⟨hremoved, logged log List.mem_cons_self, e, he, hiff.1 rfl⟩
        · -- The walk ends here: no log behind this one has a later block.
          intro other hother _
          rcases List.mem_cons.1 hother with rfl | hother
          · exact UInt64.le_refl _
          · exact hbehind other hother
      | false =>
        refine ⟨change, hfirst.trans hchange, hlatest.cons_of_not fun h => ?_⟩
        obtain ⟨e', he', heffective⟩ := h.effective
        rw [he] at he'
        cases he'
        exact nomatch hiff.2 heffective

/-! ## The latest change -/

/-- Among the logs of a range that the filter accepts is the latest change of the range. -/
theorem latestChange_of_among {store : LogStore} {filter : LogFilter} {first last : UInt64}
    (haccepts : ∀ log, filter.accepts log = true ↔
      ∃ event ∈ membershipEvents, d.actions.Emits event log) {logs : List Log}
    (found : logs.Perm (store.select filter first last)) {change : Option UInt64}
    (h : d.LatestAmong logs change) :
    d.LatestChange store.logs first last (change.getD first) := by
  have hmem : ∀ log, d.Changed log →
      (log ∈ logs ↔ log ∈ store.logs ∧ log.InRange first last) := by
    intro log hlog
    rw [found.mem_iff, LogStore.mem_select, haccepts]
    exact and_congr_right fun _ => and_iff_left hlog.logged
  cases change with
  | some block =>
    obtain ⟨⟨log, hlog, hchanged, hblock⟩, hlatest⟩ := h
    obtain ⟨hstored, hrange⟩ := (hmem log hchanged).1 hlog
    exact .inl ⟨log, hstored, hchanged, hrange, hblock, fun other hother hchanged hrange =>
      hlatest other ((hmem other hchanged).2 ⟨hother, hrange⟩) hchanged⟩
  | none =>
    exact .inr ⟨rfl, fun log hlog hchanged hrange =>
      h log ((hmem log hchanged).2 ⟨hlog, hrange⟩) hchanged⟩

/-- The latest change of a range of blocks is found. -/
theorem latestChange_yields {source : LogSource w} {W : w → Prop} {store : LogStore}
    (holds : source.Holds W store) (declared : d.Declared) {first last : UInt64}
    (readable : d.Readable store.logs first last) {maxRange : Option UInt64}
    (hrange : maxRange ≠ some 0) :
    Yields (fun s => W s.1) (d.latestChange source first last maxRange)
      (d.LatestChange store.logs first last) := by
  obtain ⟨filter, hfilter, haccepts⟩ := accepts_membershipFilter declared
  rw [latestChange]
  refine (yields_ofExcept (P := (· = filter)) ?_ rfl).bind ?_
  · rw [hfilter]
    rfl
  rintro filter rfl
  refine (holds.scan filter first last hrange).asQuery.bind fun logs hlogs => ?_
  have hfound := (perm_latestFirst logs).trans hlogs
  have hselected : ∀ log ∈ latestFirst logs,
      log ∈ store.logs ∧ log.InRange first last ∧
        ∃ event ∈ membershipEvents, d.actions.Emits event log := by
    intro log hlog
    rw [← haccepts]
    exact LogStore.mem_select.1 (hfound.mem_iff.1 hlog)
  obtain ⟨change, hchange, hlatest⟩ := firstChange_latest (latestFirst_sorted logs)
    (fun log hlog => (hselected log hlog).2.2)
    (fun log hlog hremoved => readable log (hselected log hlog).1 hremoved (hselected log hlog).2.2
      (hselected log hlog).2.1)
  refine (yields_ofExcept (P := (· = change)) ?_ rfl).bind ?_
  · rw [hchange]
    rfl
  rintro change rfl
  exact yields_pure (latestChange_of_among haccepts hfound hlatest)

end Dao

end ContractReads.Oracle
