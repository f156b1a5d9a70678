import ContractReads.Proofs.CalculatedParticipation

/-!
# How far a lookback reaches

A window has no more intervals than the lookback, since no change of the members is looked for any
earlier.

* `Window.intervals_eq` counts the intervals by quotients; `Window.intervals_le_lookback` and
  `Window.intervals_antitone` follow from it.
* `Ensures` is about steps that may fail: whenever one succeeds, its value has a property.
* `LogSource.Confined`: a source gives no logs outside of the range that it is asked for.  From such
  a source, a latest change lies in the range in which it is looked for
  (`Dao.latestChange_ensures`).
* `Calculator.lookback_bounds_intervals` puts them together: whatever a calculator is set to and
  whatever its endpoint answers, a participation that it calculates is bounded by the lookback.
-/

namespace ContractReads

variable {σ w α β ε : Type}

/-! ## Numbers -/

namespace Oracle.Window

variable {baseline block frequency : UInt64} {win : Window}

/-- The intervals, by how many multiples there are up to the baseline and up to the block. -/
theorem intervals_eq (positive : frequency ≠ 0)
    (room : baseline.toNat + frequency.toNat < 2 ^ 64)
    (h : make baseline block frequency = .ok win) :
    win.intervals.toNat = if win.startBlock < block
      then block.toNat / frequency.toNat - baseline.toNat / frequency.toNat else 0 := by
  have hpositive : 0 < frequency.toNat := Nat.pos_of_ne_zero fun h => positive (UInt64.toNat.inj h)
  obtain ⟨_, hmake, -, hstart, hintervals⟩ := make_spec block positive room
  obtain rfl := Except.ok.inj (h.symm.trans hmake)
  by_cases hlt : win.startBlock.toNat < block.toNat
  · have hle : (baseline.toNat / frequency.toNat + 1) * frequency.toNat ≤ block.toNat := by omega
    have hquotient := (Nat.le_div_iff_mul_le hpositive).2 hle
    rw [hintervals, if_pos hlt, if_pos (UInt64.lt_iff_toNat_lt.2 hlt), hstart, Nat.mul_comm,
      Nat.sub_mul_div]
    omega
  · rw [hintervals, if_neg hlt, if_neg (mt UInt64.lt_iff_toNat_lt.1 hlt)]

/-- Behind a baseline that the lookback reaches there are no more intervals than it has. -/
theorem intervals_le_lookback (positive : frequency ≠ 0)
    (room : baseline.toNat + frequency.toNat < 2 ^ 64) {lookback : UInt64}
    (reached : lookbackFloor block frequency lookback ≤ baseline)
    (h : make baseline block frequency = .ok win) :
    win.intervals.toNat ≤ min lookback.toNat (block.toNat / frequency.toNat) := by
  have hpositive : 0 < frequency.toNat := Nat.pos_of_ne_zero fun h => positive (UInt64.toNat.inj h)
  rw [UInt64.le_iff_toNat_le, toNat_lookbackFloor] at reached
  have hquotient := (Nat.le_div_iff_mul_le hpositive).2 reached
  rw [intervals_eq positive room h]
  generalize block.toNat / frequency.toNat = q at hquotient ⊢
  split <;> omega

/-- Behind a later baseline there are no more intervals than behind an earlier one. -/
theorem intervals_antitone (positive : frequency ≠ 0) {later : UInt64} (hle : baseline ≤ later)
    (room : later.toNat + frequency.toNat < 2 ^ 64) {win' : Window}
    (h : make baseline block frequency = .ok win) (h' : make later block frequency = .ok win') :
    win'.intervals ≤ win.intervals := by
  rw [UInt64.le_iff_toNat_le] at hle ⊢
  have room' : baseline.toNat + frequency.toNat < 2 ^ 64 := by omega
  have hquotient : baseline.toNat / frequency.toNat ≤ later.toNat / frequency.toNat :=
    Nat.div_le_div_right hle
  -- The window behind the later baseline starts no earlier.
  have hstart : win.startBlock.toNat ≤ win'.startBlock.toNat := by
    obtain ⟨_, hmake, -, hstart, -⟩ := make_spec block positive room'
    obtain ⟨_, hmake', -, hstart', -⟩ := make_spec block positive room
    obtain rfl := Except.ok.inj (h.symm.trans hmake)
    obtain rfl := Except.ok.inj (h'.symm.trans hmake')
    rw [hstart, hstart']
    exact Nat.mul_le_mul_right _ (by omega)
  rw [intervals_eq positive room' h, intervals_eq positive room h']
  simp only [UInt64.lt_iff_toNat_lt]
  split <;> split <;> omega

end Oracle.Window

/-! ## Steps that may fail -/

/-- Whenever a step succeeds, its value has a property. -/
def Ensures (q : ExceptT ε (StateM σ) α) (P : α → Prop) : Prop :=
  ∀ s a s', q s = (.ok a, s') → P a

section Ensures

variable {q : ExceptT ε (StateM σ) α} {P : α → Prop}

theorem Ensures.bind {k : α → ExceptT ε (StateM σ) β} {Q : β → Prop} (h : Ensures q P)
    (hk : ∀ a, P a → Ensures (k a) Q) : Ensures (q >>= k) Q := by
  intro s b s'' hb
  replace hb : ExceptT.bindCont k (q s).1 (q s).2 = (.ok b, s'') := hb
  rcases hq : q s with ⟨e | a, s'⟩
  · rw [hq] at hb
    cases hb
  · rw [hq] at hb
    exact hk a (h s a s' hq) s' b s'' hb

theorem ensures_true (q : ExceptT ε (StateM σ) α) : Ensures q fun _ => True :=
  fun _ _ _ _ => trivial

theorem ensures_pure {a : α} (h : P a) : Ensures (pure a : ExceptT ε (StateM σ) α) P := by
  intro s a' s' ha
  cases ha
  exact h

theorem ensures_throw (e : ε) : Ensures (throw e : ExceptT ε (StateM σ) α) P := by
  intro s a s' ha
  cases ha

theorem ensures_ofExcept {r : Except QueryError α} (h : ∀ a, r = .ok a → P a) :
    Ensures (QueryM.ofExcept r : QueryM σ α) P :=
  fun _ a _ ha => h a (congrArg Prod.fst ha)

theorem ensures_decoding {r : Except EncodingError α} (h : ∀ a, r = .ok a → P a) :
    Ensures (Oracle.decoding r : QueryM (w × Nat) α) P := by
  refine ensures_ofExcept fun a ha => h a ?_
  cases r with
  | ok b => exact congrArg Except.ok (Except.ok.inj ha)
  | error e => cases ha

theorem Ensures.asQuery {q : TransportM w α} (h : Ensures q P) : Ensures (Oracle.asQuery q) P := by
  rintro ⟨world, now⟩ a s' ha
  rcases hq : q world with ⟨e | b, world'⟩
  · replace ha : ((q world).1.mapError QueryError.transport, (q world).2, now) = (.ok a, s') := ha
    rw [hq] at ha
    cases ha
  · replace ha : ((q world).1.mapError QueryError.transport, (q world).2, now) = (.ok a, s') := ha
    rw [hq] at ha
    cases ha
    exact h world a world' hq

end Ensures

/-! ## Sources that keep to the range -/

namespace LogSource

variable {s : LogSource w}

/-- A source gives logs of the range that it is asked for, and no others. -/
def Confined (s : LogSource w) : Prop :=
  ∀ filter first last, Ensures (s.logs filter first last) fun logs =>
    ∀ log ∈ logs, log.InRange first last

theorem Confined.within {v : Type} {get : v → w} {put : w → v → v} (confined : s.Confined) :
    (s.within get put).Confined := by
  intro filter first last world logs world' hlogs
  rcases hinner : s.logs filter first last (get world) with ⟨answer, inner⟩
  replace hlogs : ((s.logs filter first last (get world)).1,
    put (s.logs filter first last (get world)).2 world) = (.ok logs, world') := hlogs
  rw [hinner] at hlogs
  cases hlogs
  exact confined filter first last (get world) logs inner hinner

theorem Confined.scanPieces (confined : s.Confined) (filter : LogFilter)
    {span last first : UInt64} {ranges : List (UInt64 × UInt64)}
    (tiles : Tiles span last first ranges) :
    Ensures (s.scanPieces filter span last first) fun logs =>
      ∀ log ∈ logs, log.InRange first last := by
  induction tiles with
  | @last first nonempty short =>
    rw [scanPieces_last s filter nonempty short]
    exact confined filter first last
  | @cons first stop next ranges nonempty full more adjacent rest ih =>
    rw [scanPieces_cons s filter nonempty full more, ← eq_succ more adjacent]
    refine (confined filter first stop).bind fun piece hpiece => ih.bind fun behind hbehind =>
      ensures_pure fun log hlog => ?_
    rcases List.mem_append.1 hlog with hlog | hlog
    · exact ⟨(hpiece log hlog).1, UInt64.le_trans (hpiece log hlog).2 (UInt64.le_of_lt more)⟩
    · refine ⟨?_, (hbehind log hlog).2⟩
      have hnext : first ≤ next := by
        rw [UInt64.le_iff_toNat_le] at nonempty ⊢
        omega
      exact UInt64.le_trans hnext (hbehind log hlog).1

/-- A scan finds no logs outside of its range. -/
theorem Confined.scan (confined : s.Confined) (filter : LogFilter) (first last : UInt64)
    (maxRange : Option UInt64) :
    Ensures (s.scan filter first (some last) maxRange) fun logs =>
      ∀ log ∈ logs, log.InRange first last := by
  by_cases hempty : last < first
  · rw [s.scan_empty filter hempty]
    exact ensures_pure nofun
  · have hle : first ≤ last := UInt64.not_lt.1 hempty
    cases maxRange with
    | none =>
      rw [s.scan_whole filter hle]
      exact confined filter first last
    | some span =>
      by_cases hspan : span = 0
      · have hthrow : s.scan filter first (some last) (some span) =
            throw (.other .emptyScanRange) := by
          simp [LogSource.scan, hempty, hspan]
        rw [hthrow]
        exact ensures_throw _
      · obtain ⟨ranges, tiles⟩ := exists_tiles hspan last hle
        rw [s.scan_pieces filter hle hspan]
        exact confined.scanPieces filter tiles

end LogSource

theorem LogStore.confined_source : source.Confined := by
  intro filter first last s logs s' hlogs
  cases hlogs
  exact fun log hlog => (mem_select.1 hlog).2.1

theorem Chain.confined_source : source.Confined := LogStore.confined_source.within

namespace Oracle

/-! ## What a calculator reads -/

/-- A change that is found is the block of one of the logs. -/
theorem Dao.exists_log_of_firstChange {d : Dao} {logs : List Log} {block : UInt64}
    (h : d.firstChange logs = .ok (some block)) : ∃ log ∈ logs, log.blockNumber = block := by
  induction logs with
  | nil => cases h
  | cons log logs ih =>
    have hrest : d.firstChange logs = .ok (some block) →
        ∃ log' ∈ log :: logs, log'.blockNumber = block := by
      intro h
      obtain ⟨log', hlog', hblock⟩ := ih h
      exact ⟨log', List.mem_cons_of_mem _ hlog', hblock⟩
    rw [firstChange] at h
    split at h
    · exact hrest h
    · obtain ⟨event, -, h⟩ := bind_eq_ok_iff.1 h
      obtain ⟨changes, -, h⟩ := bind_eq_ok_iff.1 h
      cases changes with
      | true =>
        cases h
        exact ⟨log, List.mem_cons_self, rfl⟩
      | false => exact hrest h

/-- The latest change lies in the range in which it is looked for. -/
theorem Dao.latestChange_ensures {d : Dao} {source : LogSource w} (confined : source.Confined)
    {first last : UInt64} (hle : first ≤ last) (maxRange : Option UInt64) :
    Ensures (d.latestChange source first last maxRange) fun block =>
      first ≤ block ∧ block ≤ last := by
  rw [latestChange]
  refine (ensures_true _).bind fun filter _ => ?_
  refine (confined.scan filter first last maxRange).asQuery.bind fun logs hlogs => ?_
  refine (ensures_decoding fun change hchange => hchange).bind fun change hchange =>
    ensures_pure ?_
  cases change with
  | none => exact ⟨UInt64.le_refl first, hle⟩
  | some block =>
    obtain ⟨log, hlog, rfl⟩ := exists_log_of_firstChange hchange
    exact hlogs log ((perm_latestFirst logs).mem_iff.1 hlog)

namespace Calculator

variable {c : Calculator w} {kind : SubmissionKind}

/-- A frequency that is read is positive. -/
theorem readParameters_ensures (block : BlockTag) :
    Ensures (c.readParameters kind block) fun r => r.1 ≠ 0 := by
  rw [readParameters]
  refine (ensures_true _).bind fun r _ => ensures_ofExcept fun parameters h => ?_
  rw [checkParameters] at h
  obtain ⟨frequency, -, h⟩ := bind_eq_ok_iff.1 h
  obtain ⟨members, -, h⟩ := bind_eq_ok_iff.1 h
  split at h
  · cases h
  · split at h
    · cases h
    · cases h
      assumption

theorem mem_setRow {member : Address} {row : List Bool} {rows : List (Address × List Bool)}
    {r : Address × List Bool} (h : r ∈ setRow member row rows) : r.2 = row ∨ r ∈ rows := by
  induction rows with
  | nil =>
    rw [setRow, List.mem_singleton] at h
    exact .inl (congrArg Prod.snd h)
  | cons first rows ih =>
    rw [setRow] at h
    split at h
    · rcases List.mem_cons.1 h with rfl | h
      · exact .inl rfl
      · exact .inr (List.mem_cons_of_mem _ h)
    · rcases List.mem_cons.1 h with rfl | h
      · exact .inr List.mem_cons_self
      · exact (ih h).imp_right (List.mem_cons_of_mem _)

/-- Rows have an entry for each interval. -/
theorem readRows_ensures (win : Window) (last : UInt64) (members : List Address)
    {rows : List (Address × List Bool)} (hrows : ∀ r ∈ rows, r.2.length = win.intervals.toNat) :
    Ensures (c.readRows kind win last members rows) fun all =>
      ∀ r ∈ all, r.2.length = win.intervals.toNat := by
  induction members generalizing rows with
  | nil => exact ensures_pure hrows
  | cons member members ih =>
    rw [readRows]
    have hset : ∀ blocks, ∀ r ∈ setRow member (markRow win blocks) rows,
        r.2.length = win.intervals.toNat := by
      intro blocks r hr
      rcases mem_setRow hr with hrow | hr
      · rw [hrow, length_markRow]
      · exact hrows r hr
    split <;> exact (ensures_true _).bind fun blocks _ => ih (hset blocks)

/-- A participation that is calculated from logs of the ranges that are asked for has no more
intervals than the lookback, and rows of this length. -/
theorem calculate_ensures (confined : c.logs.Confined) (at? : Option UInt64) :
    Ensures (c.calculate kind at?) fun p =>
      p.block.toNat + p.updateFrequency.toNat < 2 ^ 64 →
        p.updateCount.toNat ≤ min c.config.lookbackIntervals.toNat
          (p.block.toNat / p.updateFrequency.toNat) ∧
        ∀ r ∈ p.rows, r.2.length = p.updateCount.toNat := by
  rw [calculate]
  refine (ensures_true _).bind fun block _ => ?_
  refine (readParameters_ensures (.number block)).bind ?_
  rintro ⟨frequency, count⟩ positive
  have hfloor := lookbackFloor_le block frequency c.config.lookbackIntervals
  refine (Dao.latestChange_ensures confined hfloor c.maxRange).bind ?_
  rintro baseline ⟨reached, hbaseline⟩
  refine (ensures_ofExcept fun win hwin => hwin).bind fun win hwin => ?_
  refine (ensures_true _).bind fun members _ => ?_
  refine (readRows_ensures win block members (by simp)).bind fun rows hrows => ?_
  refine (ensures_true _).bind fun fitted _ => ensures_pure fun room => ⟨?_, hrows⟩
  have hroom : baseline.toNat + frequency.toNat < 2 ^ 64 := by
    replace room : block.toNat + frequency.toNat < 2 ^ 64 := room
    rw [UInt64.le_iff_toNat_le] at hbaseline
    omega
  exact Window.intervals_le_lookback positive hroom reached hwin

/-- The earliest block that a lookback reaches is a multiple of the frequency and does not lie
behind the block; it is computed without overflow.  A window behind it, or behind any later
baseline, has no more intervals than the lookback, and no more than there are multiples up to the
block; the later the baseline, the fewer.  So no participation that is calculated from logs of the
ranges that are asked for has more intervals, or longer rows. -/
theorem lookback_bounds_intervals (block frequency lookback : UInt64) :
    ((lookbackFloor block frequency lookback).toNat =
        (block.toNat / frequency.toNat - lookback.toNat) * frequency.toNat ∧
      lookbackFloor block frequency lookback ≤ block ∧
      frequency.toNat ∣ (lookbackFloor block frequency lookback).toNat) ∧
    (1 ≤ frequency → block.toNat + frequency.toNat < 2 ^ 64 →
      ∀ baseline, lookbackFloor block frequency lookback ≤ baseline → baseline ≤ block →
        ∃ win, Window.make baseline block frequency = .ok win ∧
          win.intervals.toNat ≤ min lookback.toNat (block.toNat / frequency.toNat)) ∧
    (1 ≤ frequency → ∀ earlier later : UInt64, earlier ≤ later →
      later.toNat + frequency.toNat < 2 ^ 64 →
        ∃ win win', Window.make earlier block frequency = .ok win ∧
          Window.make later block frequency = .ok win' ∧ win'.intervals ≤ win.intervals) ∧
    ∀ {w : Type} (c : Calculator w), c.logs.Confined → c.config.lookbackIntervals = lookback →
      ∀ kind at? s p s', c.calculate kind at? s = (.ok p, s') → p.block = block →
        p.updateFrequency = frequency → block.toNat + frequency.toNat < 2 ^ 64 →
          p.updateCount.toNat ≤ min lookback.toNat (block.toNat / frequency.toNat) ∧
          (∀ r ∈ p.rows, r.2.length ≤ lookback.toNat) ∧
          (lookback = 0 → p.updateCount = 0) := by
  have hmake : ∀ baseline : UInt64, frequency ≠ 0 → baseline.toNat + frequency.toNat < 2 ^ 64 →
      ∃ win, Window.make baseline block frequency = .ok win := by
    intro baseline positive room
    obtain ⟨win, hwin, -⟩ := Window.make_spec block positive room
    exact ⟨win, hwin⟩
  have hne : 1 ≤ frequency → frequency ≠ 0 := by
    rintro hle rfl
    exact absurd hle (by decide)
  refine ⟨⟨toNat_lookbackFloor block frequency lookback, lookbackFloor_le block frequency lookback,
    ?_⟩, ?_, ?_, ?_⟩
  · rw [toNat_lookbackFloor]
    exact Nat.dvd_mul_left _ _
  · intro positive room baseline reached hle
    have hroom : baseline.toNat + frequency.toNat < 2 ^ 64 := by
      rw [UInt64.le_iff_toNat_le] at hle
      omega
    obtain ⟨win, hwin⟩ := hmake baseline (hne positive) hroom
    exact ⟨win, hwin, Window.intervals_le_lookback (hne positive) hroom reached hwin⟩
  · intro positive earlier later hle room
    have hroom : earlier.toNat + frequency.toNat < 2 ^ 64 := by
      rw [UInt64.le_iff_toNat_le] at hle
      omega
    obtain ⟨win, hwin⟩ := hmake earlier (hne positive) hroom
    obtain ⟨win', hwin'⟩ := hmake later (hne positive) room
    exact ⟨win, win', hwin, hwin', Window.intervals_antitone (hne positive) hle room hwin hwin'⟩
  · rintro w c confined rfl kind at? s p s' hp rfl rfl room
    obtain ⟨hcount, hrows⟩ := calculate_ensures confined at? s p s' hp room
    refine ⟨hcount, fun r hr => ?_, fun hzero => ?_⟩
    · rw [hrows r hr]
      exact Nat.le_trans hcount (Nat.min_le_left _ _)
    · rw [hzero] at hcount
      exact UInt64.toNat.inj (Nat.le_zero.1 (Nat.le_trans hcount (Nat.min_le_left _ _)))

end Calculator

/-- With a lookback of two, the chain with two members has a participation at block 125, of no more
than two intervals. -/
theorem TwoMembers.lookback_bounds_intervals_two :
    calculator.logs.Confined ∧ ∃ p after,
      calculator.calculate .prices (some 125) (chain, 0) = (.ok p, after) ∧
        p.updateCount.toNat ≤ 2 ∧ ∀ r ∈ p.rows, r.2.length ≤ 2 := by
  have confined : calculator.logs.Confined := Chain.confined_source
  have up : chain.memory.down = false := rfl
  have ready : chain.memory.notReady = false := rfl
  obtain ⟨p, after, hp, reports, -⟩ := Calculator.calculate_yields (Calculator.made_of_make made)
    (Chain.serves_endpoint up ready) chain.holds_source (by decide)
    (fun _ _ => ⟨1, rfl⟩) served (by decide) (List.cons_ne_nil _ _) distinct (by decide) (some 125)
    (by decide) readable (chain, 0) (Chain.Agrees.refl chain)
  obtain ⟨-, -, -, hbounds⟩ := Calculator.lookback_bounds_intervals 125 10 2
  obtain ⟨hcount, hrows, -⟩ := hbounds calculator confined rfl .prices (some 125) (chain, 0) p after
    hp reports.block_eq reports.updateFrequency_eq (by decide)
  exact ⟨confined, p, after, hp, Nat.le_trans hcount (Nat.min_le_left _ _), hrows⟩

end Oracle

end ContractReads
