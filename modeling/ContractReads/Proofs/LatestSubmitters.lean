import Mathlib
import ContractReads.Proofs.CalculatedParticipation
import ContractReads.Proofs.EventFields

/-!
# Who submitted in the latest interval

Each member is marked by whether a log tells of a submission of theirs in the interval of a block.
What else the submissions say, and how often someone submitted, makes no difference.

* `Submissions.mem_distinct` and `Submissions.pairwise_distinct`: everyone is kept once, in the
  order of first places.
* `Submissions.SentBy` says which logs count, and `Submissions.Marks` what the marks are;
  `Submissions.Marks.unique`: it says everything about them.
* `Submissions.submitters_yields` and `Calculator.latest_yields` are the steps of the query.
* `Calculator.latest_marks_submitters`: the marks are found on every chain in memory on which the
  same members submitted, whatever the settings.
-/

namespace ContractReads.Oracle

variable {w : Type}

namespace Submissions

variable {s : Submissions}

/-! ## Everyone once -/

theorem distinct_concat (as : List Address) (a : Address) :
    distinct (as ++ [a]) = if a ∈ distinct as then distinct as else distinct as ++ [a] := by
  simp only [distinct, List.foldl_append, List.foldl_cons, List.foldl_nil, List.contains_iff_mem]

theorem mem_distinct {as : List Address} {a : Address} : a ∈ distinct as ↔ a ∈ as := by
  induction as using List.reverseRecOn with
  | nil => rfl
  | append_singleton as b ih =>
    rw [distinct_concat, List.mem_append, List.mem_singleton, ← ih]
    split
    · rename_i hb
      exact ⟨.inl, fun h => h.elim id fun hab => hab ▸ hb⟩
    · rw [List.mem_append, List.mem_singleton]

/-- Those who are kept stand in the order of their first places. -/
theorem pairwise_distinct (as : List Address) :
    (distinct as).Pairwise fun a b => as.idxOf a < as.idxOf b := by
  induction as using List.reverseRecOn with
  | nil => exact List.Pairwise.nil
  | append_singleton as b ih =>
    have hidx : ∀ a ∈ distinct as, (as ++ [b]).idxOf a = as.idxOf a := fun a ha =>
      List.idxOf_append_of_mem (mem_distinct.1 ha)
    have hkept : (distinct as).Pairwise fun a a' => (as ++ [b]).idxOf a < (as ++ [b]).idxOf a' := by
      refine ih.imp_of_mem fun {a a'} ha ha' h => ?_
      rw [hidx a ha, hidx a' ha']
      exact h
    rw [distinct_concat]
    split
    · exact hkept
    · rename_i hb
      refine List.pairwise_append.2 ⟨hkept, List.pairwise_singleton _ b, ?_⟩
      rintro a ha b' hb'
      obtain rfl := List.mem_singleton.1 hb'
      rw [mem_distinct] at hb
      rw [hidx a ha, List.idxOf_append_of_notMem hb]
      exact Nat.lt_add_right _ (List.idxOf_lt_length_of_mem (mem_distinct.1 ha))

/-! ## Marks -/

/-- A log counts for a member in the interval of a block: it is not removed, it lies between the
start of the interval and the block, and it tells of a submission of the member. -/
structure SentBy (s : Submissions) (frequency block : UInt64) (member : Address) (log : Log) :
    Prop where
  current : log.removed = false
  emitted : s.contract.Emits s.kind.eventName log
  since : block.toNat / frequency.toNat * frequency.toNat ≤ log.blockNumber.toNat
  upTo : log.blockNumber.toNat ≤ block.toNat
  sender : ∃ e, s.contract.decodeEvent log = .ok e ∧ e.get "from" = .ok member

/-- The logs of submissions in the interval of a block can be decoded.  An interface that is not
known has to name senders, too. -/
def Legible (s : Submissions) (logs : List Log) (frequency block : UInt64) : Prop :=
  ∀ log ∈ logs, log.removed = false → s.contract.Emits s.kind.eventName log →
    block.toNat / frequency.toNat * frequency.toNat ≤ log.blockNumber.toNat →
    log.blockNumber.toNat ≤ block.toNat →
    ∃ e, s.contract.decodeEvent log = .ok e ∧
      (s.Known ∨ ∃ sender : Address, e.get "from" = .ok sender)

/-- Every member once, in the order of first places, and whether there is a log that counts. -/
structure Marks (s : Submissions) (logs : List Log) (frequency block : UInt64)
    (members : List Address) (marks : List (Address × Bool)) : Prop where
  mem_iff : ∀ member, member ∈ marks.map Prod.fst ↔ member ∈ members
  inOrder : (marks.map Prod.fst).Pairwise fun a b => members.idxOf a < members.idxOf b
  marked_iff : ∀ mark ∈ marks,
    mark.2 = true ↔ ∃ log ∈ logs, s.SentBy frequency block mark.1 log

section Marks

variable {logs : List Log} {frequency block : UInt64} {members : List Address}
  {marks : List (Address × Bool)}

/-- There are no other marks, as long as the same members submitted. -/
theorem Marks.unique {logs' : List Log} {marks' : List (Address × Bool)}
    (h : s.Marks logs frequency block members marks)
    (h' : s.Marks logs' frequency block members marks')
    (same : ∀ member ∈ members, (∃ log ∈ logs, s.SentBy frequency block member log) ↔
      ∃ log ∈ logs', s.SentBy frequency block member log) : marks = marks' := by
  let before (a b : Address) : Prop := members.idxOf a < members.idxOf b
  have hirrefl : Std.Irrefl before := ⟨fun _ => Nat.lt_irrefl _⟩
  have hantisymm : Std.Antisymm before := ⟨fun _ _ h h' => absurd h' (Nat.lt_asymm h)⟩
  have hkeys : marks.map Prod.fst = marks'.map Prod.fst :=
    h.inOrder.eq_of_mem_iff h'.inOrder fun member =>
      (h.mem_iff member).trans (h'.mem_iff member).symm
  refine rows_ext hkeys fun mark hmark mark' hmark' hmember => ?_
  have hmem : mark.1 ∈ members := (h.mem_iff _).1 (List.mem_map_of_mem hmark)
  rw [Bool.eq_iff_iff, h.marked_iff mark hmark, h'.marked_iff mark' hmark', ← hmember]
  exact same mark.1 hmem

/-- Members are marked by whether they are among the senders. -/
theorem marks_setSubmitted {senders : List Address} (hsenders : ∀ member ∈ members,
    member ∈ senders ↔ ∃ log ∈ logs, s.SentBy frequency block member log) :
    s.Marks logs frequency block members (Calculator.setSubmitted senders members) := by
  have hkeys : (Calculator.setSubmitted senders members).map Prod.fst = distinct members := by
    rw [Calculator.setSubmitted, List.map_map]
    exact List.map_id _
  refine ⟨fun member => ?_, ?_, ?_⟩
  · rw [hkeys, mem_distinct]
  · rw [hkeys]
    exact pairwise_distinct members
  · intro mark hmark
    obtain ⟨member, hmember, rfl⟩ := List.mem_map.1 hmark
    rw [List.contains_iff_mem]
    exact hsenders member (mem_distinct.1 hmember)

end Marks

/-! ## Senders -/

/-- The filter of all submissions accepts the logs of the event. -/
theorem accepts_filter_none (declared : s.Declared) :
    ∃ filter, s.filter none = .ok filter ∧
      ∀ log, filter.accepts log = true ↔ s.contract.Emits s.kind.eventName log := by
  obtain ⟨topic, htopic⟩ := declared
  refine ⟨⟨[s.contract.address], [[topic]]⟩, ?_, ?_⟩
  · rw [filter, htopic]
    rfl
  · intro log
    rw [LogFilter.accepts_firstTopic (List.cons_ne_nil _ _)]
    refine and_congr_right fun _ => exists_congr fun t => and_congr_left fun _ => ?_
    rw [htopic, List.mem_singleton, Except.ok.injEq, eq_comm]

/-- The start of the interval of a block, in natural numbers. -/
theorem toNat_intervalStart (block frequency : UInt64) :
    (block / frequency * frequency).toNat = block.toNat / frequency.toNat * frequency.toNat := by
  have hle : block.toNat / frequency.toNat * frequency.toNat ≤ block.toNat :=
    Nat.div_mul_le_self _ _
  rw [UInt64.toNat_mul, UInt64.toNat_div, Nat.mod_eq_of_lt (Nat.lt_of_le_of_lt hle block.toNat_lt)]

theorem inRange_interval_iff {block frequency : UInt64} {log : Log} :
    log.InRange (block / frequency * frequency) block ↔
      block.toNat / frequency.toNat * frequency.toNat ≤ log.blockNumber.toNat ∧
        log.blockNumber.toNat ≤ block.toNat := by
  rw [Log.InRange, UInt64.le_iff_toNat_le, UInt64.le_iff_toNat_le, toNat_intervalStart]

/-- Those are found who sent a log that counts. -/
theorem submitters_yields {source : LogSource w} {W : w → Prop} {store : LogStore}
    (holds : source.Holds W store) (declared : s.Declared) {frequency block : UInt64}
    (legible : s.Legible store.logs frequency block) {maxRange : Option UInt64}
    (hrange : maxRange ≠ some 0) :
    Yields (fun s => W s.1) (s.submitters source (block / frequency * frequency) block maxRange)
      fun senders => ∀ a, a ∈ senders ↔ ∃ log ∈ store.logs, s.SentBy frequency block a log := by
  obtain ⟨filter, hfilter, haccepts⟩ := accepts_filter_none declared
  rw [submitters]
  refine (yields_ofExcept (P := (· = filter)) (congrArg Contract.asQueryError hfilter) rfl).bind ?_
  rintro filter rfl
  refine fields_yields holds haccepts ?_ hrange fun senders hsenders => yields_pure fun a => ?_
  · intro log hlog current hemits hinRange
    obtain ⟨since, upTo⟩ := inRange_interval_iff.1 hinRange
    obtain ⟨e, he, known | hsender⟩ := legible log hlog current hemits since upTo
    · exact ⟨e, he, known.get_from hemits he⟩
    · exact ⟨e, he, hsender⟩
  · rw [mem_distinct, hsenders]
    constructor
    · rintro ⟨log, hlog, current, hemits, hinRange, hsender⟩
      obtain ⟨since, upTo⟩ := inRange_interval_iff.1 hinRange
      exact ⟨log, hlog, current, hemits, since, upTo, hsender⟩
    · rintro ⟨log, hlog, current, hemits, since, upTo, hsender⟩
      exact ⟨log, hlog, current, hemits, inRange_interval_iff.2 ⟨since, upTo⟩, hsender⟩

/-- A log of a submission of another kind does not count for anyone, if the other contract is at
another address, or if the interfaces of both are known. -/
theorem SentBy.not_emits {frequency block : UInt64} {member : Address} {log : Log}
    (h : s.SentBy frequency block member log) {other : Submissions} (hkind : other.kind ≠ s.kind)
    (apart : other.contract.address ≠ s.contract.address ∨ s.Known ∧ other.Known) :
    ¬other.contract.Emits other.kind.eventName log := by
  intro hemits
  rcases apart with haddress | ⟨known, known'⟩
  · exact haddress (hemits.1.symm.trans h.emitted.1)
  · exact hkind (known'.kind_eq known hemits h.emitted)

end Submissions

/-! ## The marks of a calculator -/

namespace Calculator

/-- What results of calls hold for the latest interval: the methods return a frequency, the number
of members and the members, and the interface of the submissions declares their event. -/
structure Polled (c : Calculator w) (memory : Memory) (kind : SubmissionKind)
    (frequency : UInt64) (members : List Address) : Prop where
  up : memory.down = false
  ready : memory.notReady = false
  frequency : memory.Gives c.settings "getSettingUint" [.string kind.frequencyPath] frequency
  count : ∃ count : UInt64, count.toNat = members.length ∧
    memory.Gives c.dao.members "getMemberCount" [] count
  member : ∀ i (h : i < members.length),
    memory.Gives c.dao.members "getMemberAt" [.ofNat i] members[i]
  declared : (c.submissions kind).Declared

/-- A calculator marks the members by what its source holds and its endpoint returns. -/
theorem latest_yields {c : Calculator w} {g : Engine w} {logs : LogSource w}
    {special : SpecialFunction} (made : c.Made g logs special) {W : w → Prop} {m : Memory}
    {store : LogStore} (serves : g.endpoint.Serves W m.outcome) (holds : logs.Holds W store)
    (room : 2 ≤ g.config.maxBatchSize) {kind : SubmissionKind} {frequency : UInt64}
    {members : List Address} (polled : c.Polled m kind frequency members)
    (positive : 1 ≤ frequency) (nonempty : members ≠ []) (block : Option UInt64)
    (legible : (c.submissions kind).Legible store.logs frequency (block.getD store.head)) :
    Yields (fun s => W s.1) (c.latest kind block)
      ((c.submissions kind).Marks store.logs frequency (block.getD store.head) members) := by
  obtain ⟨rfl, rfl, rfl, -, hsize, hfits, hrange⟩ := made
  obtain ⟨count, hcount, hgives⟩ := polled.count
  have hfrequency : frequency ≠ 0 := by
    rintro rfl
    exact absurd positive (by decide)
  have hcountPositive : count ≠ 0 := by
    rintro rfl
    exact nonempty (List.length_eq_zero_iff.1 hcount.symm)
  rw [latest]
  refine (resolveBlock_yields holds block).bind ?_
  rintro block rfl
  refine (readParameters_yields serves room polled.frequency hgives hfrequency hcountPositive
    _).bind ?_
  rintro _ rfl
  generalize block.getD store.head = block at *
  refine (members_yields serves polled.member hsize hfits hcount (.number block)).bind ?_
  rintro members rfl
  refine (Submissions.submitters_yields holds polled.declared legible hrange).bind ?_
  exact fun senders hsenders =>
    yields_pure (Submissions.marks_setSubmitted fun member _ => hsenders member)

/-- The marks of an interval depend on the members and on who of them submitted, and on nothing
else.  A calculator finds them on every chain in memory that returns the frequency and the members
and on which the same members submitted, at the given block or at the head.  The other logs may be
any, as long as those of submissions in the interval can be decoded: neither removed logs, nor those
of others or of other submissions, nor the order of the logs makes a difference, nor how many calls,
members or blocks one request is for, or how many requests are in flight. -/
theorem latest_marks_submitters (s : Submissions) {frequency : UInt64} (block : UInt64)
    (positive : 1 ≤ frequency) {members : List Address} (nonempty : members ≠ [])
    (logs : List Log) :
    (∃ marks, s.Marks logs frequency block members marks ∧
      ∀ {g : Engine Chain} {r : Registry} {config : ParticipationConfig}
        {special : SpecialFunction} {c : Calculator Chain},
        make g Chain.source r config special = .ok c → g.endpoint = Chain.endpoint →
        2 ≤ g.config.maxBatchSize → ∀ kind, c.submissions kind = s →
        ∀ chain : Chain, c.Polled chain.memory kind frequency members →
        s.Legible chain.store.logs frequency block →
        (∀ member ∈ members, (∃ log ∈ chain.store.logs, s.SentBy frequency block member log) ↔
          ∃ log ∈ logs, s.SentBy frequency block member log) →
        ∀ at? : Option UInt64, at?.getD chain.store.head = block → ∀ now,
          ∃ after, c.latest kind at? (chain, now) = (.ok marks, after)) ∧
    ∀ other : Submissions, other.kind ≠ s.kind →
      (other.contract.address ≠ s.contract.address ∨ s.Known ∧ other.Known) →
      ∀ log, other.contract.Emits other.kind.eventName log →
        ∀ member, ¬s.SentBy frequency block member log := by
  refine ⟨?_, fun other hkind apart log hemits member hsent => hsent.not_emits hkind apart hemits⟩
  classical
  let senders := members.filter fun member => ∃ log ∈ logs, s.SentBy frequency block member log
  have hmarks : s.Marks logs frequency block members (setSubmitted senders members) := by
    refine Submissions.marks_setSubmitted fun member hmember => ?_
    simp only [senders, List.mem_filter, hmember, true_and, decide_eq_true_iff]
  refine ⟨_, hmarks, ?_⟩
  rintro g r config special c made endpoint room kind rfl chain polled legible same at? rfl now
  have serves : g.endpoint.Serves chain.Agrees chain.memory.outcome := by
    rw [endpoint]
    exact Chain.serves_endpoint polled.up polled.ready
  obtain ⟨found, after, hlatest, hfound, -⟩ := latest_yields (made_of_make made) serves
    chain.holds_source room polled positive nonempty at? legible (chain, now)
    (Chain.Agrees.refl chain)
  obtain rfl : found = setSubmitted senders members := hfound.unique hmarks same
  exact ⟨after, hlatest⟩

end Calculator

/-! ## A chain with two members -/

namespace TwoMembers

/-- Up to block 125, the first member has submitted in the interval that starts at block 120. -/
theorem sentBy_iff {m : Address} {log : Log} (h : log ∈ chain.store.logs) :
    (calculator.submissions .prices).SentBy 10 125 m log ↔ log = submission ∧ m = member 0 := by
  obtain ⟨e, he, -, hfrom⟩ := decodeEvent_submission
  constructor
  · rintro ⟨current, -, -, -, e', he', hfrom'⟩
    rcases List.mem_pair.1 h with rfl | rfl
    · cases current
    · obtain rfl : e = e' := Except.ok.inj (he.symm.trans he')
      exact ⟨rfl, Except.ok.inj (hfrom'.symm.trans hfrom)⟩
  · rintro ⟨rfl, rfl⟩
    exact ⟨rfl, ⟨rfl, pricesSubmitted.selector, rfl, rfl⟩, by decide, by decide, e, he, hfrom⟩

theorem polled : calculator.Polled chain.memory .prices 10 [member 0, member 1] where
  up := served.up
  ready := served.ready
  frequency := served.frequency
  count := ⟨2, rfl, served.count⟩
  member := served.member
  declared := served.submissions

theorem legible : (calculator.submissions .prices).Legible chain.store.logs 10 125 := by
  intro log hlog current _ _ _
  rcases List.mem_pair.1 hlog with rfl | rfl
  · cases current
  · obtain ⟨e, he, -, -⟩ := decodeEvent_submission
    exact ⟨e, he, .inl rfl⟩

/-- The first member is marked, whether or not the removed log is there. -/
theorem marks_two : (calculator.submissions .prices).Marks [submission] 10 125
    [member 0, member 1] [(member 0, true), (member 1, false)] := by
  have hmem : submission ∈ chain.store.logs := List.mem_pair.2 (.inr rfl)
  refine ⟨fun _ => Iff.rfl, by decide, ?_⟩
  simp only [List.mem_cons, List.not_mem_nil, or_false, forall_eq_or_imp, forall_eq,
    exists_eq_left, sentBy_iff hmem, true_and]
  decide

theorem latest_marks_submitters_two : (1 : UInt64) ≤ 10 ∧ [member 0, member 1] ≠ [] ∧ ∃ after,
    calculator.latest .prices (some 125) (chain, 0) =
      (.ok [(member 0, true), (member 1, false)], after) := by
  have positive : (1 : UInt64) ≤ 10 := by decide
  have nonempty : [member 0, member 1] ≠ [] := List.cons_ne_nil _ _
  obtain ⟨⟨marks, hmarks, hfound⟩, -⟩ := Calculator.latest_marks_submitters
    (calculator.submissions .prices) 125 positive nonempty [submission]
  obtain rfl := hmarks.unique marks_two fun _ _ => Iff.rfl
  refine ⟨positive, nonempty, hfound made rfl (by decide) .prices rfl chain polled legible ?_
    (some 125) rfl 0⟩
  intro m _
  constructor
  · rintro ⟨log, hlog, hsent⟩
    obtain ⟨rfl, -⟩ := (sentBy_iff hlog).1 hsent
    exact ⟨submission, List.mem_singleton_self _, hsent⟩
  · rintro ⟨log, hlog, hsent⟩
    obtain rfl := List.mem_singleton.1 hlog
    exact ⟨submission, List.mem_pair.2 (.inr rfl), hsent⟩

end TwoMembers

end ContractReads.Oracle
