import Mathlib
import ContractReads.Proofs.Registrations
import ContractReads.Proofs.ShardedQuery

/-!
# Why queries fail

An error of a query comes from its endpoint, from a registration or from a call.

* `Engine.Fails` lists the causes for a query of one batch and `Scheduler.Job.Fails` those for a
  shard; `Engine.fails_of_single` and `Run.fails_after` say that there are no others, whatever the
  interleaving.
* `ReadsFail` is for queries that register nothing but reads, which `Reading.addEach` puts into one
  batch and `Scheduler.readEach` into shards.  `Engine.readsFail_of_query` and
  `Scheduler.MayReturn.readsFail` are about such queries.
-/

namespace ContractReads

variable {w α : Type}

/-! ## One batch -/

/-- Why a query of one batch fails. -/
inductive Engine.Fails (g : Engine w) (register : Batch α → Except QueryError (Batch α))
    (mode : Mode) : QueryError → Prop
  | notReady (cause : TransportError) : Fails g register mode (.transport cause)
  | refused {cause : QueryError} (h : register g.batch = .error cause) : Fails g register mode cause
  | rejected {b : Batch α} {answer : Answer} {cause : QueryError}
    (registered : register g.batch = .ok b)
    (rejects : b.Rejects mode g.endpoint.name answer cause) : Fails g register mode cause

/-- A batch fails for its answer only. -/
theorem Batch.rejects_of_execute {b : Batch α} {e : Endpoint w} {mode : Mode} {block : BlockTag}
    {s s' : Scene w α} {cause : QueryError} (h : b.execute e mode block s = (.error cause, s')) :
    ∃ answer, b.Rejects mode e.name answer cause := by
  by_cases hcalls : b.calls = []
  · rw [execute, if_pos (by simp [isEmpty, hcalls])] at h
    cases h
  · obtain ⟨now, hexecute⟩ := execute_of_ne_nil hcalls e mode block s
    rw [hexecute] at h
    cases hsettled : b.settleAnswer mode e.name (b.ask e mode block s.world).1 with
    | ok done =>
      rw [hsettled] at h
      cases h
    | error own =>
      rw [hsettled] at h
      cases h
      exact ⟨_, rejects_of_settleAnswer_eq hsettled⟩

section

variable {g : Engine w} {register : Batch α → Except QueryError (Batch α)} {mode : Mode}
  {block : BlockTag} {s s' : Scene w α} {cause : QueryError}

theorem Engine.fails_of_single (h : g.single register mode block s = (.error cause, s')) :
    g.Fails register mode cause := by
  rw [single] at h
  split at h
  · cases h
    exact .notReady _
  · split at h
    · rename_i own hown
      cases h
      exact .refused hown
    · rename_i b hb
      obtain ⟨answer, rejects⟩ := Batch.rejects_of_execute h
      exact .rejected hb rejects

theorem Engine.fails_of_query (h : g.query register block s = (.error cause, s')) :
    g.Fails register .strict cause := by
  rw [query_eq] at h
  rcases hsingle : g.single register .strict block s with ⟨own | flags, after⟩
  · rw [hsingle] at h
    cases h
    exact fails_of_single hsingle
  · rw [hsingle] at h
    cases h

end

/-! ## Shards -/

namespace Scheduler

/-- Why a shard fails. -/
inductive Job.Fails (job : Job w α) (shard : Nat) : QueryError → Prop
  | notReady (cause : TransportError) : Fails job shard (.shardDispatch shard cause.message)
  | refused {fault : Fault} (h : job.shipment shard = .error fault) :
    Fails job shard fault.toQueryError
  | rejected {s : Shipment α} {answer : Answer} {cause : QueryError}
    (registered : job.shipment shard = .ok s)
    (rejects : s.batch.Rejects job.mode job.endpoint.name answer cause) : Fails job shard cause

section

variable {job : Job w α} {i : Nat} {cause : QueryError}

theorem Job.fails_of_load {world : w} (h : job.load world i = .error cause) :
    job.Fails i cause := by
  rw [load] at h
  split at h
  · cases h
    exact .notReady _
  · split at h
    · rename_i fault hfault
      cases h
      exact .refused hfault
    · cases h

theorem Job.fails_of_completion {world world' : w}
    (h : job.completion world world' i = .error cause) : job.Fails i cause := by
  cases hload : job.load world i with
  | error own =>
    rw [completion_of_error hload] at h
    cases h
    exact fails_of_load hload
  | ok s =>
    cases hs : s.batch.isEmpty with
    | true =>
      rw [completion_of_empty hload hs] at h
      cases h
    | false =>
      rw [completion_of_calls hload hs] at h
      have hsettled := map_eq_error_iff.1 h
      exact .rejected (shipment_of_load hload) (Batch.rejects_of_settleAnswer_eq hsettled)

/-- Whatever the interleaving, the error of a run is one for which one of its shards fails. -/
theorem Run.fails_after (job : Job w α) (permits : Nat) (scene : Scene w α) (moves : List Move)
    (h : ((start job permits scene).after job moves).result = .error cause) :
    ∃ i < job.plan.count, job.Fails i cause := by
  have recorded := recorded_after job permits scene moves
  obtain ⟨log, sound⟩ := sound_after (job.keeps_meets scene.world) permits Job.Meets.first moves
  obtain ⟨i, -, hphase⟩ := recorded.first cause (result_eq_error_iff.1 h)
  have hi := sound.lt_count_of_error hphase
  have hreached := sound.reached i hi
  rw [hphase] at hreached
  obtain ⟨world, world', -, -, hcompletion, -⟩ := hreached.eq_completion (.inr rfl)
  exact ⟨i, hi, Job.fails_of_completion (map_eq_error_iff.1 hcompletion.symm)⟩

end

theorem MayReturn.fails {s : Scheduler} {e : Endpoint w} {plan : ShardPlan} {mode : Mode}
    {block : BlockTag} {register : Registrar α} {scene : Scene w α} {cause : QueryError}
    {slots : Slots α}
    (h : s.MayReturn e plan mode block register scene (.error cause) slots) :
    ∃ i < plan.count, (s.job e plan mode block register).Fails i cause := by
  obtain ⟨moves, r, rfl, -, hresult, -⟩ := h
  exact Run.fails_after _ _ _ moves hresult

/-- What a scheduler returns is one of the things that the query can come to, unless its shards
would be empty. -/
theorem run_cases {s : Scheduler} (hs : 0 < s.concurrency) (e : Endpoint w) (total shardSize : Nat)
    (mode : Mode) (block : BlockTag) (register : Registrar α) (scene : Scene w α) :
    (∃ positive : 0 < shardSize,
      s.MayReturn e ⟨total, shardSize, positive⟩ mode block register scene
        (s.run e total shardSize mode block register scene).1
        (s.run e total shardSize mode block register scene).2.slots) ∨
    s.run e total shardSize mode block register scene =
      (.error (.invalidConfig (.belowOne "shard size")), scene) := by
  by_cases positive : 0 < shardSize
  · let plan : ShardPlan := ⟨total, shardSize, positive⟩
    have hreturn : s.MayReturn e plan mode block register scene _ _ := run_mayReturn hs
    exact .inl ⟨positive, hreturn⟩
  · right
    have hplan : ShardPlan.make total shardSize =
        .error (.invalidConfig (.belowOne "shard size")) := dif_neg positive
    rw [run, hplan]

end Scheduler

/-! ## Reads -/

namespace Reading

/-- Why a read fails: it is not registered, or what is returned cannot be read. -/
inductive Fails (r : Reading α) : QueryError → Prop
  | refused {b : Batch α} {cause : QueryError} (h : r.Refused b cause) : Fails r cause
  | undecodable {c : Call α} {data : Bytes} {cause : QueryError} (prepared : r.prepared = .ok c)
    (bad : c.decode data = .error cause) : Fails r cause

/-- Registers reads, one after the other. -/
def addEach : List (Reading α) → Batch α → Except QueryError (Batch α)
  | [], b => .ok b
  | r :: rs, b => r.add b >>= addEach rs

variable {rs : List (Reading α)} {b b' : Batch α}

theorem exists_refused_of_addEach {cause : QueryError} (h : addEach rs b = .error cause) :
    ∃ r ∈ rs, ∃ b, r.Refused b cause := by
  induction rs generalizing b with
  | nil => cases h
  | cons r rs ih =>
    obtain h | ⟨b', -, h⟩ := bind_eq_error_iff.1 h
    · exact ⟨r, List.mem_cons_self, b, add_eq_error_iff.1 h⟩
    · obtain ⟨r', hr', refused⟩ := ih h
      exact ⟨r', List.mem_cons_of_mem r hr', refused⟩

/-- Each read puts its call behind the calls that are there. -/
theorem calls_of_addEach (h : addEach rs b = .ok b') :
    ∃ calls, b'.calls = b.calls ++ calls ∧ rs.map prepared = calls.map .ok := by
  induction rs generalizing b with
  | nil =>
    cases h
    exact ⟨[], (List.append_nil _).symm, rfl⟩
  | cons r rs ih =>
    obtain ⟨middle, hr, h⟩ := bind_eq_ok_iff.1 h
    obtain ⟨c, prepared, -, rfl⟩ := add_eq_ok_iff.1 hr
    obtain ⟨calls, hcalls, hprepared⟩ := ih h
    refine ⟨c :: calls, ?_, ?_⟩
    · rw [hcalls, List.append_assoc, List.singleton_append]
    · rw [List.map_cons, List.map_cons, prepared, hprepared]

section

variable {limit : Nat} (h : addEach rs (Batch.empty limit) = .ok b)
include h

/-- A batch holds one call for each read. -/
theorem map_prepared_of_addEach : rs.map prepared = b.calls.map .ok := by
  obtain ⟨calls, hcalls, hprepared⟩ := calls_of_addEach h
  rw [hprepared, hcalls]
  rfl

theorem exists_reading_of_addEach {c : Call α} (hc : c ∈ b.calls) :
    ∃ r ∈ rs, r.prepared = .ok c := by
  have hmem : (.ok c : Except EncodingError (Call α)) ∈ b.calls.map .ok := List.mem_map_of_mem hc
  rw [← map_prepared_of_addEach h] at hmem
  exact List.mem_map.1 hmem

theorem exists_call_of_addEach {r : Reading α} (hr : r ∈ rs) :
    ∃ c ∈ b.calls, r.prepared = .ok c := by
  have hmem : r.prepared ∈ rs.map prepared := List.mem_map_of_mem hr
  rw [map_prepared_of_addEach h] at hmem
  obtain ⟨c, hc, hr⟩ := List.mem_map.1 hmem
  exact ⟨c, hc, hr.symm⟩

end

end Reading

/-- Why a query of such reads fails: for its endpoint, for the size of its shards, or for one of the
reads. -/
inductive ReadsFail (rs : List (Reading α)) : QueryError → Prop
  | endpoint (cause : TransportError) : ReadsFail rs (.transport cause)
  | shard (shard : Nat) (reason : String) : ReadsFail rs (.shardDispatch shard reason)
  | emptyShards : ReadsFail rs (.invalidConfig (.belowOne "shard size"))
  | call (index total : Nat) : ReadsFail rs (.partialFailure index total)
  | read {r : Reading α} {cause : QueryError} (mem : r ∈ rs) (fails : r.Fails cause) :
    ReadsFail rs cause

section ReadsFail

variable {rs : List (Reading α)} {cause : QueryError}

theorem readsFail_of_refused {b : Batch α} (h : Reading.addEach rs b = .error cause) :
    ReadsFail rs cause := by
  obtain ⟨r, hr, b, refused⟩ := Reading.exists_refused_of_addEach h
  exact .read hr (.refused refused)

theorem readsFail_of_rejects {limit : Nat} {b : Batch α}
    (registered : Reading.addEach rs (Batch.empty limit) = .ok b) {mode : Mode} {name : String}
    {answer : Answer} (h : b.Rejects mode name answer cause) : ReadsFail rs cause := by
  cases h with
  | roundTrip t => exact .endpoint t
  | count _ => exact .endpoint _
  | failedCall _ _ _ _ _ => exact .call _ _
  | undecodable _ _ _ call _ bad _ =>
    obtain ⟨r, hr, prepared⟩ :=
      Reading.exists_reading_of_addEach registered (List.mem_of_getElem? call)
    exact .read hr (.undecodable prepared bad)

/-- A query of one batch of reads fails for its endpoint or for one of the reads. -/
theorem Engine.readsFail_of_query {g : Engine w} {block : BlockTag} {s s' : Scene w α}
    (h : g.query (Reading.addEach rs) block s = (.error cause, s')) : ReadsFail rs cause := by
  cases fails_of_query h with
  | notReady t => exact .endpoint t
  | refused h => exact readsFail_of_refused h
  | rejected registered rejects => exact readsFail_of_rejects registered rejects

theorem ReadsFail.mono {rs' : List (Reading α)} (h : ReadsFail rs cause)
    (hmem : ∀ r ∈ rs, r ∈ rs') : ReadsFail rs' cause := by
  cases h with
  | endpoint t => exact .endpoint t
  | shard i reason => exact .shard i reason
  | emptyShards => exact .emptyShards
  | call i total => exact .call i total
  | read mem fails => exact .read (hmem _ mem) fails

end ReadsFail

theorem mapError_eq_error_iff {ε ε' α : Type} {x : Except ε α} {f : ε → ε'} {e : ε'} :
    x.mapError f = .error e ↔ ∃ cause, x = .error cause ∧ f cause = e := by
  cases x <;> simp [Except.mapError]

namespace Scheduler

/-- Registers one read for each item. -/
def readEach (reading : Nat → Reading α) : Registrar α := fun i b =>
  ((reading i).add b).mapError .error

variable {reading : Nat → Reading α}

/-- The batch of a shard holds the reads of its items. -/
theorem map_batch_register_readEach (reading : Nat → Reading α) (items : List Nat) (b : Batch α) :
    (Shipment.register (readEach reading) b items).map Shipment.batch =
      (Reading.addEach (items.map reading) b).mapError .error := by
  induction items generalizing b with
  | nil => rfl
  | cons i items ih =>
    rw [Shipment.register, readEach, List.map_cons, Reading.addEach]
    cases (reading i).add b with
    | error cause => rfl
    | ok b' =>
      show (Shipment.register (readEach reading) b' items >>= _).map Shipment.batch =
        (Reading.addEach (items.map reading) b').mapError .error
      rw [← ih b']
      cases Shipment.register (readEach reading) b' items <;> rfl

section

variable {items : List Nat} {b : Batch α}

theorem addEach_of_readEach {s : Shipment α}
    (h : Shipment.register (readEach reading) b items = .ok s) :
    Reading.addEach (items.map reading) b = .ok s.batch := by
  have hbatch := map_batch_register_readEach reading items b
  rw [h] at hbatch
  exact mapError_eq_ok_iff.1 hbatch.symm

theorem addEach_of_readEach_error {fault : Fault}
    (h : Shipment.register (readEach reading) b items = .error fault) :
    Reading.addEach (items.map reading) b = .error fault.toQueryError := by
  have hbatch := map_batch_register_readEach reading items b
  rw [h] at hbatch
  obtain ⟨cause, hcause, rfl⟩ := mapError_eq_error_iff.1 hbatch.symm
  exact hcause

end

/-- Whatever the interleaving, a query of one read for each item fails for its endpoint or for one
of the reads. -/
theorem MayReturn.readsFail {s : Scheduler} {e : Endpoint w} {plan : ShardPlan} {mode : Mode}
    {block : BlockTag} {scene : Scene w α} {cause : QueryError} {slots : Slots α}
    (h : s.MayReturn e plan mode block (readEach reading) scene (.error cause) slots) :
    ReadsFail ((List.range plan.total).map reading) cause := by
  obtain ⟨i, hi, fails⟩ := h.fails
  have hmem : ∀ r ∈ (plan.items i).map reading, r ∈ (List.range plan.total).map reading := by
    intro r hr
    obtain ⟨item, hitem, rfl⟩ := List.mem_map.1 hr
    exact List.mem_map_of_mem (List.mem_range.2 (plan.lt_total_of_mem_items hi hitem))
  cases fails with
  | notReady t => exact .shard i t.message
  | refused hfault => exact (readsFail_of_refused (addEach_of_readEach_error hfault)).mono hmem
  | rejected registered rejects =>
    exact (readsFail_of_rejects (addEach_of_readEach registered) rejects).mono hmem

end Scheduler

end ContractReads
