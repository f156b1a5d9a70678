import ContractReads.Proofs.CalculatedParticipation

/-!
# Settings that make no difference

Calculators of one registry that look back as far and use the same special function come to the
same participation, if they read the same results and logs.  How many calls a batch has, how many
members a shard, how many blocks a request for logs, how many requests are in flight, what happens
when one of them fails, and in which order the logs are stored makes no difference.

* `Calculator.Alike` is what has to be the same.
* `Participation.Reports.of_alike`: a report of one calculator is one of the other.
* `Calculator.readsFrom_of_make`: what calculators read from can be a chain in memory.
* `Calculator.calculate_eq_of_alike`: both come to the same, as there is only one report.
-/

namespace ContractReads.Oracle

variable {w v : Type}

/-! ## The order of the logs -/

section Perm

variable {logs logs' : List Log} {first last block : UInt64}

theorem Dao.LatestChange.of_perm {d : Dao} (h : d.LatestChange logs first last block)
    (perm : logs.Perm logs') : d.LatestChange logs' first last block :=
  h.of_current fun _ _ => perm.mem_iff.symm

theorem Submissions.submitted_of_perm {s : Submissions} (perm : logs.Perm logs')
    {member : Address} :
    s.Submitted logs first last member block ↔ s.Submitted logs' first last member block := by
  unfold Submissions.Submitted
  simp only [perm.mem_iff]

end Perm

/-! ## Calculators that are alike -/

/-- Calculators that read the same contracts, look back as far and use the same function. -/
structure Calculator.Alike (c : Calculator w) (c' : Calculator v) : Prop where
  dao : c'.dao = c.dao
  settings : c'.settings = c.settings
  submissions : ∀ kind, c'.submissions kind = c.submissions kind
  lookback : c'.config.lookbackIntervals = c.config.lookbackIntervals
  special : c'.special = c.special

/-- Calculators of one registry are alike, whatever else they are set to. -/
theorem Calculator.alike_of_make {g : Engine w} {g' : Engine v} {logs : LogSource w}
    {logs' : LogSource v} {r : Registry} {config config' : ParticipationConfig}
    {special : SpecialFunction} {c : Calculator w} {c' : Calculator v}
    (made : make g logs r config special = .ok c)
    (made' : make g' logs' r config' special = .ok c')
    (lookback : config'.lookbackIntervals = config.lookbackIntervals) : c.Alike c' := by
  obtain ⟨dao, settings, prices, balances, -, -, hdao, hsettings, hprices, hbalances, rfl⟩ :=
    make_eq_ok made
  obtain ⟨dao', settings', prices', balances', -, -, hdao', hsettings', hprices', hbalances',
    rfl⟩ := make_eq_ok made'
  rw [hdao, Except.ok.injEq] at hdao'
  rw [hsettings, Except.ok.injEq] at hsettings'
  rw [hprices, Except.ok.injEq] at hprices'
  rw [hbalances, Except.ok.injEq] at hbalances'
  subst hdao' hsettings' hprices' hbalances'
  exact ⟨rfl, rfl, fun | .prices | .balances => rfl, lookback, rfl⟩

section Alike

variable {c : Calculator w} {c' : Calculator v} {kind : SubmissionKind}
  {block frequency : UInt64} {members : List Address}

theorem Calculator.Alike.floor_eq (alike : c.Alike c') (block frequency : UInt64) :
    c'.floor block frequency = c.floor block frequency := by
  rw [floor, floor, alike.lookback]

theorem Calculator.Served.of_alike {m : Memory} (h : c.Served m kind frequency members)
    (alike : c.Alike c') : c'.Served m kind frequency members where
  up := h.up
  ready := h.ready
  frequency := by
    rw [alike.settings]
    exact h.frequency
  count := by
    rw [alike.dao]
    exact h.count
  member := by
    rw [alike.dao]
    exact h.member
  changes := by
    rw [alike.dao]
    exact h.changes
  submissions := by
    rw [alike.submissions]
    exact h.submissions

theorem Calculator.Readable.of_alike {logs logs' : List Log}
    (h : c.Readable logs kind block frequency members) (alike : c.Alike c')
    (perm : logs.Perm logs') : c'.Readable logs' kind block frequency members where
  changes := by
    rw [alike.dao, alike.floor_eq]
    exact fun log hlog => h.changes log (perm.mem_iff.2 hlog)
  submissions := by
    rw [alike.dao, alike.floor_eq, alike.submissions]
    intro baseline start latest hstart member hmember log hlog
    exact h.submissions baseline start (latest.of_perm perm.symm) hstart member hmember log
      (perm.mem_iff.2 hlog)

/-- What one calculator reports the other reports. -/
theorem Participation.Reports.of_alike {p : Participation} {logs logs' : List Log}
    (h : p.Reports c logs kind block frequency members) (alike : c.Alike c')
    (perm : logs.Perm logs') : p.Reports c' logs' kind block frequency members := by
  obtain ⟨baseline, latest, hstart⟩ := h.startBlock_eq
  have hlatest : c'.dao.LatestChange logs' (c'.floor block frequency) block baseline := by
    rw [alike.dao, alike.floor_eq]
    exact latest.of_perm perm
  exact { h with
    submissions_kind := by rw [alike.submissions, h.submissions_kind]
    startBlock_eq := ⟨baseline, hlatest, hstart⟩
    entry := by
      simp only [alike.submissions, ← Submissions.submitted_of_perm perm]
      exact h.entry
    fit := by
      rw [alike.special]
      exact h.fit }

end Alike

/-! ## The same participation -/

namespace Calculator

/-- A calculator that has been made reads results of calls and stored logs, as long as the world
has a property. -/
structure ReadsFrom (c : Calculator w) (W : w → Prop) (m : Memory) (store : LogStore) : Prop where
  made : c.Made c.engine c.logs c.special
  serves : c.engine.endpoint.Serves W m.outcome
  holds : c.logs.Holds W store
  room : 2 ≤ c.engine.config.maxBatchSize

/-- A calculator that is made for a chain that is up and ready reads from it. -/
theorem readsFrom_of_make {g : Engine Chain} {r : Registry} {config : ParticipationConfig}
    {special : SpecialFunction} {c : Calculator Chain}
    (made : make g Chain.source r config special = .ok c) (endpoint : g.endpoint = Chain.endpoint)
    (room : 2 ≤ g.config.maxBatchSize) {chain : Chain} (up : chain.memory.down = false)
    (ready : chain.memory.notReady = false) :
    c.ReadsFrom chain.Agrees chain.memory chain.store := by
  obtain ⟨rfl, hlogs, rfl, -, -, -, -⟩ := made_of_make made
  refine ⟨hlogs ▸ made_of_make made, ?_, ?_, room⟩
  · rw [endpoint]
    exact Chain.serves_endpoint up ready
  · rw [hlogs]
    exact chain.holds_source

/-- Calculators that are alike come to the same participation, from the same results and the same
logs in any order. -/
theorem calculate_eq_of_alike {c : Calculator w} {c' : Calculator v} (alike : c.Alike c')
    {W : w → Prop} {W' : v → Prop} {m : Memory} {store store' : LogStore}
    (reads : c.ReadsFrom W m store) (reads' : c'.ReadsFrom W' m store')
    (perm : store.logs.Perm store'.logs) (head : store'.head = store.head)
    (succeeds : ∀ a x, ∃ q, c.special a x = .ok q) {kind : SubmissionKind} {frequency : UInt64}
    {members : List Address} (served : c.Served m kind frequency members)
    (positive : frequency ≠ 0) (nonempty : members ≠ []) (distinct : members.Nodup)
    (few : members.length < 2 ^ 64) (block : Option UInt64)
    (bound : (block.getD store.head).toNat + frequency.toNat < 2 ^ 64)
    (readable : c.Readable store.logs kind (block.getD store.head) frequency members)
    {s : w × Nat} {s' : v × Nat} (hs : W s.1) (hs' : W' s'.1) :
    (c.calculate kind block s).1 = (c'.calculate kind block s').1 := by
  have readable' := readable.of_alike alike perm
  have succeeds' : ∀ a x, ∃ q, c'.special a x = .ok q := alike.special ▸ succeeds
  rw [← head] at bound readable'
  obtain ⟨p, after, hp, hreports, -⟩ := calculate_yields reads.made reads.serves reads.holds
    reads.room succeeds served positive nonempty distinct few block (head ▸ bound) readable s hs
  obtain ⟨p', after', hp', hreports', -⟩ := calculate_yields reads'.made reads'.serves
    reads'.holds reads'.room succeeds' (served.of_alike alike) positive nonempty distinct few block
    bound readable' s' hs'
  rw [head] at hreports'
  have hsame : p = p' := (hreports.of_alike alike perm).unique hreports'
  rw [hp, hp', hsame]

end Calculator

end ContractReads.Oracle
