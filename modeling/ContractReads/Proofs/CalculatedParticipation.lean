import ContractReads.Contract.Known
import ContractReads.Proofs.CallEncoding
import ContractReads.Proofs.ChainReads
import ContractReads.Proofs.GoodnessOfFit
import ContractReads.Proofs.MembershipChanges
import ContractReads.Proofs.SubmissionRows

/-!
# The participation that is calculated

`Participation.Reports` says what a participation is, in terms of a chain: of the results of three
methods and of the stored logs.  Neither the settings of the engine, nor how reads are divided,
nor the order of the logs appear in it.

* `Calculator.made_of_make`: what is known of the settings of a calculator.
* `Participation.Reports.unique`: it says everything about a participation.
* `Calculator.lookbackFloor_eq` is the arithmetic beside that of windows, `Calculator.fit_spec` is
  about the statistic and its probability.
* `Calculator.reports_of_rows` puts a report together from a window and rows.
* `Calculator.calculate_reports`: a calculator reports on its chain.
-/

namespace ContractReads.Oracle

variable {w : Type}

/-! ## Settings -/

theorem ParticipationConfig.check_eq_ok {config : ParticipationConfig}
    (h : config.check = .ok ()) :
    0 < config.memberBatchSize ∧ config.logIntervalSize ≠ some 0 := by
  unfold check at h
  split at h
  · cases h
  · rename_i hsize
    split at h
    · cases h
    · rename_i hinterval
      exact ⟨Nat.pos_of_ne_zero hsize, hinterval⟩

theorem Submissions.kind_ofRegistry {r : Registry} {kind : SubmissionKind} {s : Submissions}
    (h : Submissions.ofRegistry r kind = .ok s) : s.kind = kind := by
  obtain ⟨contract, -, rfl⟩ := map_eq_ok_iff.1 h
  rfl

namespace Calculator

/-- What is known of a calculator that has been made. -/
structure Made (c : Calculator w) (g : Engine w) (logs : LogSource w)
    (special : SpecialFunction) : Prop where
  engine_eq : c.engine = g
  logs_eq : c.logs = logs
  special_eq : c.special = special
  kind_submissions : ∀ kind, (c.submissions kind).kind = kind
  memberBatchSize_pos : 0 < c.config.memberBatchSize
  memberBatchSize_le : c.config.memberBatchSize ≤ g.config.maxBatchSize
  maxRange_ne : c.maxRange ≠ some 0

/-- A calculator is made of the contracts of its registry, if the settings fit. -/
theorem make_eq_ok {g : Engine w} {logs : LogSource w} {r : Registry}
    {config : ParticipationConfig} {special : SpecialFunction} {c : Calculator w}
    (h : make g logs r config special = .ok c) :
    ∃ dao settings prices balances, config.check = .ok () ∧
      config.memberBatchSize ≤ g.config.maxBatchSize ∧ Dao.ofRegistry r = .ok dao ∧
      r.get ContractName.networkSettings = .ok settings ∧
      Submissions.ofRegistry r .prices = .ok prices ∧
      Submissions.ofRegistry r .balances = .ok balances ∧
      c = ⟨g, logs, dao, settings, prices, balances, config, special⟩ := by
  rw [make] at h
  obtain ⟨_, hcheck, h⟩ := bind_eq_ok_iff.1 h
  have hcheck : config.check = .ok () := by
    cases hresult : config.check with
    | ok _ => rfl
    | error cause =>
      rw [hresult] at hcheck
      cases hcheck
  by_cases hlarge : g.config.maxBatchSize < config.memberBatchSize
  · simp only [if_pos hlarge] at h
    cases h
  · simp only [if_neg hlarge] at h
    obtain ⟨dao, hdao, h⟩ := bind_eq_ok_iff.1 h
    obtain ⟨settings, hsettings, h⟩ := bind_eq_ok_iff.1 h
    obtain ⟨prices, hprices, h⟩ := bind_eq_ok_iff.1 h
    obtain ⟨balances, hbalances, h⟩ := bind_eq_ok_iff.1 h
    cases h
    exact ⟨dao, settings, prices, balances, hcheck, Nat.le_of_not_lt hlarge, hdao, hsettings,
      hprices, hbalances, rfl⟩

theorem made_of_make {g : Engine w} {logs : LogSource w} {r : Registry}
    {config : ParticipationConfig} {special : SpecialFunction} {c : Calculator w}
    (h : make g logs r config special = .ok c) : c.Made g logs special := by
  obtain ⟨_, _, _, _, hcheck, hfits, -, -, hprices, hbalances, rfl⟩ := make_eq_ok h
  obtain ⟨hpositive, hinterval⟩ := ParticipationConfig.check_eq_ok hcheck
  refine ⟨rfl, rfl, rfl, ?_, hpositive, hfits, ?_⟩
  · rintro (_ | _)
    · exact Submissions.kind_ofRegistry hprices
    · exact Submissions.kind_ofRegistry hbalances
  · show (config.logIntervalSize <|> g.config.logIntervalSize) ≠ some 0
    cases hsize : config.logIntervalSize with
    | none => exact (EngineConfig.inRange_of_check g.check_config).logIntervalSize
    | some span =>
      rw [hsize] at hinterval
      exact hinterval

end Calculator

/-! ## What a participation is -/

/-- The earliest block at which a change of the members is looked for. -/
def Calculator.floor (c : Calculator w) (block frequency : UInt64) : UInt64 :=
  .ofNat ((block.toNat / frequency.toNat - c.config.lookbackIntervals.toNat) * frequency.toNat)

/-- A participation in submissions of a kind at a block, as a chain has it whose methods return
the frequency of submissions and the members, and which stores the logs. -/
structure Participation.Reports (p : Participation) (c : Calculator w) (logs : List Log)
    (kind : SubmissionKind) (block frequency : UInt64) (members : List Address) : Prop where
  kind_eq : p.kind = kind
  submissions_kind : (c.submissions kind).kind = kind
  block_eq : p.block = block
  updateFrequency_eq : p.updateFrequency = frequency
  /-- The window starts behind the latest change of the members. -/
  startBlock_eq : ∃ baseline, c.dao.LatestChange logs (c.floor block frequency) block baseline ∧
    p.startBlock.toNat = (baseline.toNat / frequency.toNat + 1) * frequency.toNat
  updateCount_eq : p.updateCount.toNat = if p.startBlock.toNat < block.toNat
    then (block.toNat - p.startBlock.toNat) / frequency.toNat + 1 else 0
  /-- Every member has a row and a count, in the order of the members. -/
  members_rows : p.rows.map Prod.fst = members
  members_actual : p.actualSubmissions.map Prod.fst = members
  length_row : ∀ r ∈ p.rows, r.2.length = p.updateCount.toNat
  /-- An entry is set if and only if a submission for the block of its interval is logged. -/
  entry : ∀ r ∈ p.rows, ∀ k < p.updateCount.toNat, r.2[k]? = some true ↔
    ∃ submitted, (c.submissions kind).Submitted logs p.startBlock block r.1 submitted ∧
      submitted.toNat = p.startBlock.toNat + k * frequency.toNat
  /-- The entries that are set are counted. -/
  actual : p.actualSubmissions.map (fun a => a.2.toNat) = p.rows.map fun r => r.2.count true
  expected : p.expectedSubmissions =
    p.updateCount.toFloat * (UInt64.ofNat (members.length / 2 + 1)).toFloat /
      (UInt64.ofNat members.length).toFloat
  /-- In an empty window nothing is expected, and it fits. -/
  fit_empty : p.updateCount = 0 → p.expectedSubmissions = 0 ∧ p.chiSquare = 0 ∧ p.probability = 1
  /-- Otherwise the deviations of the counts from what is expected are squared, divided by what is
  expected and summed, from the first member to the last. -/
  statistic : p.updateCount ≠ 0 → p.chiSquare =
    (p.actualSubmissions.map fun a => (a.2.toFloat - p.expectedSubmissions) *
      (a.2.toFloat - p.expectedSubmissions) / p.expectedSubmissions).foldl (· + ·) 0
  /-- A single member and a perfect fit are certain.  Else the probability is what the special
  function has for half the degrees of freedom and half the statistic. -/
  fit : p.updateCount ≠ 0 →
    if members.length ≤ 1 ∨ p.chiSquare ≤ 0 then p.probability = 1
    else c.special ((UInt64.ofNat (members.length - 1)).toFloat / 2) (p.chiSquare / 2) =
      .ok p.probability

/-! ## A report says everything -/

theorem row_ext {n : Nat} {row other : List Bool} (h : row.length = n) (h' : other.length = n)
    (hentry : ∀ k < n, row[k]? = some true ↔ other[k]? = some true) : row = other := by
  refine List.ext_getElem (h.trans h'.symm) fun k hk hk' => ?_
  have hiff := hentry k (h ▸ hk)
  rw [List.getElem?_eq_getElem hk, List.getElem?_eq_getElem hk', Option.some.injEq,
    Option.some.injEq] at hiff
  exact Bool.eq_iff_iff.2 hiff

theorem rows_ext {β : Type} {rows others : List (Address × β)}
    (hmembers : rows.map Prod.fst = others.map Prod.fst)
    (hrow : ∀ r ∈ rows, ∀ r' ∈ others, r.1 = r'.1 → r.2 = r'.2) : rows = others := by
  have hlength : rows.length = others.length := by
    simpa using congrArg List.length hmembers
  refine List.ext_getElem hlength fun i hi hi' => ?_
  have hfst : rows[i].1 = others[i].1 := by
    have hget := congrArg (fun members => members[i]?) hmembers
    simpa [hi, hi'] using hget
  exact Prod.ext hfst (hrow _ (List.getElem_mem hi) _ (List.getElem_mem hi') hfst)

/-- There is no other report on the same chain. -/
theorem Participation.Reports.unique {p q : Participation} {c : Calculator w} {logs : List Log}
    {kind : SubmissionKind} {block frequency : UInt64} {members : List Address}
    (hp : p.Reports c logs kind block frequency members)
    (hq : q.Reports c logs kind block frequency members) : p = q := by
  have hstart : p.startBlock = q.startBlock := by
    obtain ⟨baseline, hbaseline, hp⟩ := hp.startBlock_eq
    obtain ⟨baseline', hbaseline', hq⟩ := hq.startBlock_eq
    rw [← hbaseline.unique hbaseline', ← hp] at hq
    exact UInt64.toNat.inj hq.symm
  have hcount : p.updateCount = q.updateCount := by
    have hq := hq.updateCount_eq
    rw [← hstart, ← hp.updateCount_eq] at hq
    exact UInt64.toNat.inj hq.symm
  have hrows : p.rows = q.rows := by
    refine rows_ext (hp.members_rows.trans hq.members_rows.symm) fun r hr r' hr' hmember => ?_
    have hlength' := hq.length_row r' hr'
    have hentry' := hq.entry r' hr'
    rw [← hcount] at hlength' hentry'
    rw [← hstart, ← hmember] at hentry'
    exact row_ext (hp.length_row r hr) hlength' fun k hk =>
      (hp.entry r hr k hk).trans (hentry' k hk).symm
  have hactual : p.actualSubmissions = q.actualSubmissions := by
    rw [Participation.actualSubmissions, hrows]
    rfl
  have hexpected : p.expectedSubmissions = q.expectedSubmissions := by
    rw [hp.expected, hcount, ← hq.expected]
  have hfit : p.chiSquare = q.chiSquare ∧ p.probability = q.probability := by
    by_cases hempty : p.updateCount = 0
    · obtain ⟨-, hchi, hprobability⟩ := hp.fit_empty hempty
      obtain ⟨-, hchi', hprobability'⟩ := hq.fit_empty (hcount ▸ hempty)
      exact ⟨hchi.trans hchi'.symm, hprobability.trans hprobability'.symm⟩
    · have hsame : p.chiSquare = q.chiSquare := by
        rw [hp.statistic hempty, hq.statistic (hcount ▸ hempty), hactual, hexpected]
      have hprobability := fitProbability_eq_ok_iff.2 (hp.fit hempty)
      have hprobability' := fitProbability_eq_ok_iff.2 (hq.fit (hcount ▸ hempty))
      rw [← hsame, hprobability] at hprobability'
      exact ⟨hsame, Except.ok.inj hprobability'⟩
  cases p
  cases q
  obtain ⟨hchi, hprobability⟩ := hfit
  have hkind := hp.kind_eq.trans hq.kind_eq.symm
  have hblock := hp.block_eq.trans hq.block_eq.symm
  have hfrequency := hp.updateFrequency_eq.trans hq.updateFrequency_eq.symm
  simp only at hkind hblock hfrequency hstart hcount hrows hexpected hchi hprobability
  subst hkind hblock hfrequency hstart hcount hrows hexpected hchi hprobability
  rfl

namespace Calculator

/-- What results of calls hold for a calculator: its methods return a frequency and the members,
and the interfaces of its contracts declare the events. -/
structure Served (c : Calculator w) (memory : Memory) (kind : SubmissionKind)
    (frequency : UInt64) (members : List Address) : Prop where
  up : memory.down = false
  ready : memory.notReady = false
  frequency : memory.Gives c.settings "getSettingUint" [.string kind.frequencyPath] frequency
  count : memory.Gives c.dao.members "getMemberCount" [] (UInt64.ofNat members.length)
  member : ∀ i (h : i < members.length),
    memory.Gives c.dao.members "getMemberAt" [.ofNat i] members[i]
  changes : c.dao.Declared
  submissions : (c.submissions kind).Declared

/-- The logs that a calculator looks at can be decoded: those of changes from the earliest block
on, and those of the members' submissions from the start of the window on. -/
structure Readable (c : Calculator w) (logs : List Log) (kind : SubmissionKind)
    (block frequency : UInt64) (members : List Address) : Prop where
  changes : c.dao.Readable logs (c.floor block frequency) block
  submissions : ∀ baseline start : UInt64,
    c.dao.LatestChange logs (c.floor block frequency) block baseline →
    start.toNat = (baseline.toNat / frequency.toNat + 1) * frequency.toNat →
    ∀ member ∈ members, (c.submissions kind).Readable logs start block member

/-! ## Numbers -/

/-- The earliest block, in natural numbers. -/
theorem lookbackFloor_eq (c : Calculator w) (block frequency : UInt64) :
    lookbackFloor block frequency c.config.lookbackIntervals = c.floor block frequency := by
  rw [floor, ← toNat_lookbackFloor, UInt64.ofNat_toNat]

/-- A row that is as long as a number of 64 bits says is counted without overflow. -/
theorem toNat_countOf {row : List Bool} {n : UInt64} (h : row.length = n.toNat) :
    (Participation.countOf row).toNat = row.count true := by
  have hle : row.count true ≤ row.length := List.count_le_length
  have hbound : row.count true < 2 ^ 64 := by
    have := n.toNat_lt
    omega
  exact UInt64.toNat_ofNat_of_lt hbound

/-- There is a statistic and a probability, if the special function has values. -/
theorem fit_spec {c : Calculator w} (succeeds : ∀ a x, ∃ q, c.special a x = .ok q) (win : Window)
    (members : Nat) (counts : List UInt64) (expected : Float) :
    ∃ chi q, c.fit win members counts expected = .ok (chi, q) ∧
      (win.intervals = 0 → chi = 0 ∧ q = 1) ∧
      (win.intervals ≠ 0 → chi = Oracle.chiSquare counts expected ∧
        fitProbability c.special members chi = .ok q) := by
  by_cases hempty : win.intervals = 0
  · exact ⟨0, 1, if_pos hempty, fun _ => ⟨rfl, rfl⟩, fun h => absurd hempty h⟩
  · obtain ⟨q, hq⟩ := exists_fitProbability succeeds members (Oracle.chiSquare counts expected)
    refine ⟨_, q, ?_, fun h => absurd h hempty, fun _ => ⟨rfl, hq⟩⟩
    rw [fit, if_neg hempty]
    show (fitProbability c.special members _).map _ = _
    rw [hq]
    rfl

/-! ## The report -/

theorem resolveBlock_yields {c : Calculator w} {W : w → Prop} {store : LogStore}
    (holds : c.logs.Holds W store) (block : Option UInt64) :
    Yields (fun s => W s.1) (c.resolveBlock block) (· = block.getD store.head) := by
  cases block with
  | some block => exact yields_pure rfl
  | none => exact holds.head.asQuery

/-- A window behind the latest change and the rows of all members make up a report. -/
theorem reports_of_rows {c : Calculator w} {logs : List Log} {kind : SubmissionKind}
    (hkind : (c.submissions kind).kind = kind)
    {block frequency baseline : UInt64} {members : List Address} {win : Window}
    (latest : c.dao.LatestChange logs (c.floor block frequency) block baseline)
    (hfrequency : win.frequency = frequency)
    (hstart : win.startBlock.toNat = (baseline.toNat / frequency.toNat + 1) * frequency.toNat)
    (hintervals : win.intervals.toNat = if win.startBlock.toNat < block.toNat
      then (block.toNat - win.startBlock.toNat) / frequency.toNat + 1 else 0)
    {rows : List (Address × List Bool)} (hmembers : rows.map Prod.fst = members)
    (hrows : ∀ r ∈ rows, IsRow (c.submissions kind) logs win block r.1 r.2)
    (nonempty : members ≠ []) (few : members.length < 2 ^ 64) {chi q : Float}
    (hempty : win.intervals = 0 → chi = 0 ∧ q = 1)
    (hfit : win.intervals ≠ 0 →
      chi = Oracle.chiSquare (rows.map fun r => Participation.countOf r.2)
        (expectedSubmissions win.intervals (.ofNat members.length)) ∧
      fitProbability c.special members.length chi = .ok q) :
    Participation.Reports ⟨kind, block, win.startBlock, frequency, win.intervals,
      expectedSubmissions win.intervals (.ofNat members.length), chi, q, rows⟩ c logs kind block
      frequency members := by
  have positive := List.length_pos_iff.2 nonempty
  subst hfrequency
  refine ⟨rfl, hkind, rfl, rfl, ⟨baseline, latest, hstart⟩, hintervals, hmembers, ?_,
    fun r hr => (hrows r hr).length, fun r hr => (hrows r hr).entry, ?_,
    expectedSubmissions_ofNat _ positive few, ?_, ?_, ?_⟩
  · rw [← hmembers, Participation.actualSubmissions, List.map_map]
    rfl
  · rw [Participation.actualSubmissions, List.map_map]
    exact List.map_congr_left fun r hr => toNat_countOf (hrows r hr).length
  · intro h
    show expectedSubmissions win.intervals _ = 0 ∧ _
    rw [show win.intervals = 0 from h]
    exact ⟨expectedSubmissions_zero _, hempty h⟩
  · intro h
    show chi = _
    rw [(hfit h).1, chiSquare_eq_sum _ (expectedSubmissions_pos h (ofNat_ne_zero positive few)),
      Participation.actualSubmissions, List.map_map, List.map_map]
    rfl
  · intro h
    exact fitProbability_eq_ok_iff.1 (hfit h).2

/-- A calculator reports on what its source holds and its endpoint returns. -/
theorem calculate_yields {c : Calculator w} {g : Engine w} {logs : LogSource w}
    {special : SpecialFunction} (made : c.Made g logs special) {W : w → Prop} {m : Memory}
    {store : LogStore} (serves : g.endpoint.Serves W m.outcome) (holds : logs.Holds W store)
    (room : 2 ≤ g.config.maxBatchSize) (succeeds : ∀ a x, ∃ q, special a x = .ok q)
    {kind : SubmissionKind} {frequency : UInt64} {members : List Address}
    (served : c.Served m kind frequency members) (positive : frequency ≠ 0)
    (nonempty : members ≠ []) (distinct : members.Nodup) (few : members.length < 2 ^ 64)
    (block : Option UInt64) (bound : (block.getD store.head).toNat + frequency.toNat < 2 ^ 64)
    (readable : c.Readable store.logs kind (block.getD store.head) frequency members) :
    Yields (fun s => W s.1) (c.calculate kind block)
      fun p => p.Reports c store.logs kind (block.getD store.head) frequency members := by
  obtain ⟨rfl, rfl, rfl, hkind, hsize, hfits, hrange⟩ := made
  have hcount : (UInt64.ofNat members.length).toNat = members.length :=
    UInt64.toNat_ofNat_of_lt few
  have hcountPositive := ofNat_ne_zero (List.length_pos_iff.2 nonempty) few
  rw [calculate]
  refine (resolveBlock_yields holds block).bind ?_
  rintro block rfl
  refine (readParameters_yields serves room served.frequency served.count positive hcountPositive
    _).bind ?_
  rintro _ rfl
  -- From here on it does not matter whether the block was given or is the head.
  generalize block.getD store.head = block at *
  have hfloor := lookbackFloor_eq c block frequency
  have hfloor_le : c.floor block frequency ≤ block := hfloor ▸ lookbackFloor_le block frequency _
  simp only [hfloor]
  refine (Dao.latestChange_yields holds served.changes readable.changes hrange).bind ?_
  intro baseline hbaseline
  have hroom : baseline.toNat + frequency.toNat < 2 ^ 64 := by
    have hle := UInt64.le_iff_toNat_le.1 (hbaseline.le_last hfloor_le)
    omega
  obtain ⟨win, hwin, rfl, hstart, hintervals⟩ := Window.make_spec block positive hroom
  refine (yields_ofExcept (P := (· = win)) hwin rfl).bind ?_
  rintro win rfl
  refine (members_yields serves served.member hsize hfits hcount (.number block)).bind ?_
  rintro members rfl
  have aligned : win.frequency.toNat ∣ win.startBlock.toNat := ⟨_, hstart.trans (Nat.mul_comm _ _)⟩
  have hreadable := readable.submissions baseline win.startBlock hbaseline hstart
  have hdistinct : (([] : List (Address × List Bool)).map Prod.fst ++ members).Nodup := distinct
  refine (readRows_yields holds served.submissions hrange positive aligned hdistinct
    fun _ => hreadable).bind ?_
  rintro rows ⟨_, rfl, hkeys, hrows⟩
  obtain ⟨chi, q, hfit, hempty, hnotEmpty⟩ := fit_spec succeeds win members.length
    (rows.map fun r => Participation.countOf r.2)
    (expectedSubmissions win.intervals (.ofNat members.length))
  refine (yields_ofExcept (P := (· = (chi, q))) hfit rfl).bind ?_
  rintro _ rfl
  exact yields_pure (reports_of_rows (hkind kind) hbaseline rfl hstart hintervals hkeys hrows
    nonempty few hempty hnotEmpty)

end Calculator

/-! ## A chain with two members -/

namespace TwoMembers

def dao : Contract := ⟨ContractName.trustedDao, .ofNat 20 1, .trustedDao, 1⟩

def actions : Contract := ⟨ContractName.trustedDaoActions, .ofNat 20 2, .trustedDaoActions, 1⟩

def settings : Contract := ⟨ContractName.networkSettings, .ofNat 20 3, .networkSettings, 1⟩

def prices : Contract := ⟨ContractName.networkPrices, .ofNat 20 4, .networkPrices, 1⟩

def balances : Contract := ⟨ContractName.networkBalances, .ofNat 20 5, .networkBalances, 1⟩

def registry : Registry := ⟨.ofAddress (.zero 20), [dao, actions, settings, prices, balances]⟩

/-- Batches of two calls, two of them in flight, and seven blocks for a request for logs. -/
def engine : Engine Chain where
  endpoint := Chain.endpoint
  config :=
    { concurrentCallLimit := 2, addressBatchSize := 1, contractVersionBatchSize := 1,
      maxBatchSize := 2, logIntervalSize := some 7 }
  check_config := rfl

/-- Members are read one by one, and changes looked for in the last two intervals. -/
def calculator : Calculator Chain where
  engine := engine
  logs := Chain.source
  dao := ⟨dao, actions⟩
  settings := settings
  prices := ⟨.prices, prices⟩
  balances := ⟨.balances, balances⟩
  config := { lookbackIntervals := 2, memberBatchSize := 1 }
  special := fun _ _ => .ok 1

def member (i : Nat) : Address := .ofNat 20 (7 + i)

def getSettingUint : Function :=
  ⟨"getSettingUint", [⟨"_settingPath", "string", []⟩], [⟨"", "uint256", []⟩]⟩

def getMemberCount : Function := ⟨"getMemberCount", [], [⟨"", "uint256", []⟩]⟩

def getMemberAt : Function := ⟨"getMemberAt", [⟨"_index", "uint256", []⟩], [⟨"", "address", []⟩]⟩

def frequencyCall : EncodedCall :=
  ⟨settings.address, getSettingUint.selector ++
    AbiValue.encodeParams [.string "network.submit.prices.frequency"]⟩

def countCall : EncodedCall := ⟨dao.address, getMemberCount.selector ++ AbiValue.encodeParams []⟩

def memberCall (i : Nat) : EncodedCall :=
  ⟨dao.address, getMemberAt.selector ++ AbiValue.encodeParams [.uint (.ofNat 256 i) 256]⟩

def pricesSubmitted : Event where
  name := "PricesSubmitted"
  inputs := [Interface.indexed "from" "address", Interface.plain "block" "uint256",
    Interface.plain "slotTimestamp" "uint256", Interface.plain "rplPrice" "uint256",
    Interface.plain "time" "uint256"]
  anonymous := false

/-- What the first member submitted for block 120. -/
def submittedData : List AbiValue := [.uint 120 256, .uint 1 256, .uint 2 256, .uint 3 256]

def submittedFields : List (String × AbiValue) :=
  [("from", .address (member 0)), ("block", .uint 120 256), ("slotTimestamp", .uint 1 256),
    ("rplPrice", .uint 2 256), ("time", .uint 3 256)]

def submission : Log where
  address := prices.address
  topics := [pricesSubmitted.selector, (member 0).toWord]
  data := AbiValue.encodeParams submittedData
  blockNumber := 123
  logIndex := 0
  transactionHash := none
  removed := false

/-- A removed log, which could not be decoded. -/
def removedLog : Log := ⟨actions.address, [], [], 124, 0, none, true⟩

/-- One submission is due every ten blocks. -/
def chain : Chain where
  memory := ((((({} : Memory).respond frequencyCall
    (.success (AbiValue.encodeParams [.uint 10 256]))).respond countCall
    (.success (AbiValue.encodeParams [.uint 2 256]))).respond (memberCall 0)
    (.success (AbiValue.encodeParams [.address (member 0)]))).respond (memberCall 1)
    (.success (AbiValue.encodeParams [.address (member 1)])))
  store := { head := 200, logs := [removedLog, submission] }

theorem types_uint256 (name : String) : Param.types [⟨name, "uint256", []⟩] = .ok [.uint 256] :=
  Param.types_cons AbiType.ofText_uint256 rfl

theorem made : Calculator.make engine Chain.source registry calculator.config calculator.special =
    .ok calculator :=
  rfl

theorem memberCall_ne : memberCall 1 ≠ memberCall 0 := by
  simp only [memberCall, ne_eq, EncodedCall.mk.injEq, true_and, List.append_cancel_left_eq]
  decide

theorem memberCall_ne_countCall {i : Nat}
    (hmember : (AbiValue.encodeParams [.uint (.ofNat 256 i) 256]).length = 32) :
    memberCall i ≠ countCall := by
  intro h
  have hlength := congrArg (fun call => call.calldata.length) h
  have hcount : (AbiValue.encodeParams []).length = 0 := rfl
  simp only [memberCall, countCall, List.length_append, Function.length_selector, hmember,
    hcount] at hlength
  omega

theorem memberCall_ne_frequencyCall (i : Nat) : memberCall i ≠ frequencyCall := by
  intro h
  have haddress : dao.address = settings.address := congrArg EncodedCall.target h
  revert haddress
  decide

theorem countCall_ne_frequencyCall : countCall ≠ frequencyCall := by
  intro h
  have haddress : dao.address = settings.address := congrArg EncodedCall.target h
  revert haddress
  decide

theorem outcome_chain (call : EncodedCall) : chain.memory.outcome call =
    if memberCall 1 = call then .success (AbiValue.encodeParams [.address (member 1)])
    else if memberCall 0 = call then .success (AbiValue.encodeParams [.address (member 0)])
    else if countCall = call then .success (AbiValue.encodeParams [.uint 2 256])
    else if frequencyCall = call then .success (AbiValue.encodeParams [.uint 10 256])
    else .failure := by
  simp only [chain, Memory.outcome_respond]
  rfl

theorem gives_frequency : chain.memory.Gives settings "getSettingUint"
    [.string "network.submit.prices.frequency"] (10 : UInt64) := by
  refine ⟨frequencyCall.calldata, [.uint 256], AbiValue.encodeParams [.uint 10 256], ?_, ?_, rfl⟩
  · have hfunction : settings.function "getSettingUint" 1 = .ok getSettingUint := rfl
    have hinputs : Param.types getSettingUint.inputs = .ok [.string] := rfl
    have houtputs : Param.types getSettingUint.outputs = .ok [.uint 256] := types_uint256 ""
    rw [Contract.prepare, List.length_singleton, hfunction]
    simp only [Function.encode, hinputs, houtputs, bind, Except.bind]
    rfl
  · show chain.memory.outcome frequencyCall = _
    rw [outcome_chain, if_neg (memberCall_ne_frequencyCall 1),
      if_neg (memberCall_ne_frequencyCall 0), if_neg countCall_ne_frequencyCall, if_pos rfl]

theorem gives_count : chain.memory.Gives dao "getMemberCount" [] (2 : UInt64) := by
  refine ⟨countCall.calldata, [.uint 256], AbiValue.encodeParams [.uint 2 256], ?_, ?_, rfl⟩
  · have hfunction : dao.function "getMemberCount" 0 = .ok getMemberCount := rfl
    have hinputs : Param.types getMemberCount.inputs = .ok [] := rfl
    have houtputs : Param.types getMemberCount.outputs = .ok [.uint 256] := types_uint256 ""
    rw [Contract.prepare, List.length_nil, hfunction]
    simp only [Function.encode, hinputs, houtputs, bind, Except.bind]
    rfl
  · show chain.memory.outcome countCall = _
    rw [outcome_chain, if_neg (memberCall_ne_countCall (i := 1) (by decide)),
      if_neg (memberCall_ne_countCall (i := 0) (by decide)),
      if_pos rfl]

theorem gives_member (i : Nat) (h : i < [member 0, member 1].length) :
    chain.memory.Gives dao "getMemberAt" [.ofNat i] [member 0, member 1][i] := by
  have hprepare : dao.prepare "getMemberAt" [.ofNat i] =
      .ok ((memberCall i).calldata, [.address]) := by
    have hfunction : dao.function "getMemberAt" 1 = .ok getMemberAt := rfl
    have hinputs : Param.types getMemberAt.inputs = .ok [.uint 256] := types_uint256 "_index"
    have houtputs : Param.types getMemberAt.outputs = .ok [.address] := rfl
    rw [Contract.prepare, List.length_singleton, hfunction]
    simp only [Function.encode, hinputs, houtputs, bind, Except.bind]
    rfl
  obtain rfl | rfl : i = 0 ∨ i = 1 := by simp only [List.length_cons, List.length_nil] at h; omega
  · refine ⟨_, _, AbiValue.encodeParams [.address (member 0)], hprepare, ?_, rfl⟩
    show chain.memory.outcome (memberCall 0) = _
    rw [outcome_chain, if_neg memberCall_ne, if_pos rfl]
  · refine ⟨_, _, AbiValue.encodeParams [.address (member 1)], hprepare, ?_, rfl⟩
    show chain.memory.outcome (memberCall 1) = _
    rw [outcome_chain, if_pos rfl]

theorem served :
    calculator.Served chain.memory .prices 10 [member 0, member 1] where
  up := rfl
  ready := rfl
  frequency := gives_frequency
  count := gives_count
  member := gives_member
  changes := by
    intro event hevent
    simp only [Dao.membershipEvents, Dao.challengeDecided, List.mem_cons, List.not_mem_nil,
      or_false] at hevent
    rcases hevent with rfl | rfl | rfl | rfl
    all_goals exact ⟨_, rfl⟩
  submissions := ⟨pricesSubmitted.selector, rfl⟩

theorem distinct : [member 0, member 1].Nodup := by decide

theorem decodeEvent_submission : ∃ e, prices.decodeEvent submission = .ok e ∧
    e.get "block" = .ok (120 : UInt64) ∧ e.get "from" = .ok (member 0) := by
  have hevent : prices.interface.eventOfTopic? pricesSubmitted.selector = some pricesSubmitted := by
    show List.find? _ (pricesSubmitted :: _) = _
    rw [List.find?_cons_of_pos]
    simp [pricesSubmitted]
  have hbody : decodeData [.uint 256, .uint 256, .uint 256, .uint 256] submission.data =
      .ok submittedData := by
    refine decodeData_encodeParams rfl ?_ (by decide +kernel) (by decide) (by decide) rfl
    simp only [submittedData, List.zip_cons_cons, List.zip_nil_right, List.mem_cons,
      List.not_mem_nil, or_false, forall_eq_or_imp, forall_eq]
    exact ⟨.uint _ _, .uint _ _, .uint _ _, .uint _ _⟩
  have htypes : pricesSubmitted.bodyTypes = .ok [.uint 256, .uint 256, .uint 256, .uint 256] :=
    Param.types_cons AbiType.ofText_uint256 <| Param.types_cons AbiType.ofText_uint256 <|
      Param.types_cons AbiType.ofText_uint256 (types_uint256 _)
  have hfrom : Param.type (Interface.simple "from" "address") = .ok .address := rfl
  have htopic : Event.topicValue .address (member 0).toWord = .ok (.address (member 0)) := rfl
  have hfields : pricesSubmitted.takeFields 0 pricesSubmitted.inputs
      (submission.topics.drop 1) submittedData [] = .ok submittedFields := by
    show pricesSubmitted.takeFields 0 pricesSubmitted.inputs [(member 0).toWord] submittedData []
      = _
    simp [pricesSubmitted, submittedData, Interface.indexed, Interface.plain, Event.takeFields,
      hfrom, htopic, bind, Except.bind]
    simp [submittedFields, Interface.simple, Event.fieldName, DecodedEvent.setField]
  refine ⟨⟨"PricesSubmitted", prices.address, 123, submittedFields⟩, ?_, rfl, rfl⟩
  rw [Contract.decodeEvent_of_topic (rfl : submission.topics = _ :: _) hevent, Event.decode, htypes]
  simp only [bind, Except.bind, hbody, hfields]
  rfl

/-- No log is one of a change of the members. -/
theorem not_emits {event : String} {log : Log} (h : log ∈ chain.store.logs)
    (current : log.removed = false) : ¬actions.Emits event log := by
  rintro ⟨haddress, -⟩
  rcases List.mem_pair.1 h with rfl | rfl
  · cases current
  · revert haddress
    decide

theorem readable : calculator.Readable chain.store.logs .prices 125 10 [member 0, member 1] where
  changes log hlog current hemits _ := by
    obtain ⟨event, -, hemits⟩ := hemits
    exact absurd hemits (not_emits hlog current)
  submissions _ _ _ _ _ _ log hlog current _ _ := by
    rcases List.mem_pair.1 hlog with rfl | rfl
    · cases current
    · obtain ⟨e, he, hblock, -⟩ := decodeEvent_submission
      exact ⟨e, he, 120, hblock⟩

end TwoMembers

end ContractReads.Oracle
