import ContractReads.Oracle.Submission
import ContractReads.Proofs.ShardedQuery

/-!
# Queries that are served

What a query comes to at an endpoint that takes every batch and answers the calls that it is sent.

* `Yields` says that a step succeeds, what is true of its value, and which property of its state
  it keeps.  `Yields.bind` puts steps together; every other lemma here is about one step.
* `Batch.execute_serves` and `Engine.query_serves` are about one strict batch.
* `Engine.batchQuery_serves` is about a strict query in shards: whatever the size of the shards,
  the permits and the policy, it writes what all its calls return.
-/

namespace ContractReads

variable {σ w α β ε : Type}

/-- From every state with a property a step succeeds with a value of another property, and the
state keeps its own. -/
def Yields (W : σ → Prop) (q : ExceptT ε (StateM σ) α) (P : α → Prop) : Prop :=
  ∀ s, W s → ∃ a s', q s = (.ok a, s') ∧ P a ∧ W s'

section Yields

variable {W : σ → Prop} {q : ExceptT ε (StateM σ) α} {P : α → Prop}

theorem Yields.bind {k : α → ExceptT ε (StateM σ) β} {Q : β → Prop} (h : Yields W q P)
    (hk : ∀ a, P a → Yields W (k a) Q) : Yields W (q >>= k) Q := by
  intro s hs
  obtain ⟨a, s', hq, ha, hs'⟩ := h s hs
  obtain ⟨b, s'', hb⟩ := hk a ha s' hs'
  refine ⟨b, s'', ?_⟩
  show ExceptT.bindCont k (q s).1 (q s).2 = _ ∧ _
  rw [hq]
  exact hb

theorem Yields.mono {Q : α → Prop} (h : Yields W q P) (hPQ : ∀ a, P a → Q a) : Yields W q Q := by
  intro s hs
  obtain ⟨a, s', hq, ha, hs'⟩ := h s hs
  exact ⟨a, s', hq, hPQ a ha, hs'⟩

theorem yields_pure {a : α} (h : P a) : Yields W (pure a : ExceptT ε (StateM σ) α) P :=
  fun s hs => ⟨a, s, rfl, h, hs⟩

theorem yields_ofExcept {e : Except QueryError α} {a : α} (he : e = .ok a) (h : P a) :
    Yields W (QueryM.ofExcept e) P := by
  subst he
  exact fun s hs => ⟨a, s, rfl, h, hs⟩

end Yields

namespace QueryM

/-- From every scene whose world has a property a query succeeds, writes the given values, and the
world keeps the property. -/
def Writes (W : w → Prop) (q : QueryM (Scene w α) β) (writes : List (Nat × α)) : Prop :=
  ∀ s, W s.world → ∃ b s', q s = (.ok b, s') ∧ W s'.world ∧ s'.slots = s.slots.write writes

/-- A query with slots of its own gives back what it writes. -/
theorem Writes.withSlots {W : w → Prop} {q : QueryM (Scene w α) β} {writes : List (Nat × α)}
    (h : q.Writes W writes) (slots : Slots α) :
    Yields (fun s => W s.1) (q.withSlots slots) fun r => r.2 = slots.write writes := by
  rintro ⟨world, now⟩ hs
  obtain ⟨b, s', hq, hs', hslots⟩ := h ⟨world, now, slots⟩ hs
  refine ⟨(b, s'.slots), (s'.world, s'.now), ?_, hslots, hs'⟩
  show ((q ⟨world, now, slots⟩).1.map fun a => (a, (q ⟨world, now, slots⟩).2.slots), _, _) = _
  rw [hq]
  rfl

end QueryM

/-- An endpoint that takes every batch, and answers those whose calls all succeed, as long as the
world has a property, which it keeps. -/
structure Endpoint.Serves (e : Endpoint w) (W : w → Prop) (f : EncodedCall → Outcome) : Prop where
  ready : ∀ world, W world → e.ready world = .ok ()
  submit : ∀ trip world, W world → W (e.submit trip world).2
  answer : ∀ trip world, W world → W (e.answer trip world).2.2
  replies : ∀ trip world, W world → (∀ c ∈ trip.calls, (f c).isSuccess = true) →
    (e.answer trip world).1 = .ok (trip.calls.map f)

section Calls

variable {W : w → Prop} {f : EncodedCall → Outcome}

theorem Call.isSuccess_of_succeeds {c : Call α} (h : c.succeeds f = true) :
    (f c.encoded).isSuccess = true := by
  obtain ⟨a, ha⟩ := Option.isSome_iff_exists.1 h
  exact (Call.value?_eq_some_iff.1 ha).1

/-- A batch of calls that succeed is answered with what they return. -/
theorem Endpoint.Serves.replies_encoded {e : Endpoint w} (serves : e.Serves W f)
    {calls : List (Call α)} (hall : ∀ c ∈ calls, c.succeeds f = true) {trip : RoundTrip}
    (htrip : trip.calls = calls.map Call.encoded) {world : w} (hworld : W world) :
    (e.answer trip world).1 = .ok ((calls.map Call.encoded).map f) := by
  rw [← htrip]
  apply serves.replies trip world hworld
  intro c hc
  rw [htrip] at hc
  obtain ⟨c, hmem, rfl⟩ := List.mem_map.1 hc
  exact Call.isSuccess_of_succeeds (hall c hmem)

/-! ## One batch -/

/-- A strict batch of calls that succeed writes what they return. -/
theorem Batch.execute_serves {e : Endpoint w} (serves : e.Serves W f) {b : Batch α}
    (hall : ∀ c ∈ b.calls, c.succeeds f = true) (block : BlockTag) :
    (b.execute e .strict block).Writes W (b.calls.filterMap (Call.write? f)) := by
  intro s hs
  by_cases hempty : b.calls = []
  · have hb : b.isEmpty = true := by simp [isEmpty, hempty]
    refine ⟨[], s, ?_, hs, ?_⟩
    · rw [execute, hb]
      rfl
    · rw [hempty]
      rfl
  · obtain ⟨now, hexecute⟩ := execute_of_ne_nil hempty e .strict block s
    have hworld : W (b.ask e .strict block s.world).2 :=
      serves.answer _ _ (serves.submit _ _ hs)
    have hanswer : (b.ask e .strict block s.world).1 = .ok ((b.calls.map Call.encoded).map f) :=
      serves.replies_encoded hall rfl (serves.submit _ _ hs)
    refine ⟨b.calls.map (Call.succeeds f), ⟨(b.ask e .strict block s.world).2, now,
      s.slots.write (b.calls.filterMap (Call.write? f))⟩, ?_, hworld, rfl⟩
    rw [hexecute, hanswer, settleAnswer_each.2 ⟨fun _ => hall, rfl⟩]
    rfl

/-- A strict query of one batch writes what its calls return. -/
theorem Engine.query_serves {g : Engine w} (serves : g.endpoint.Serves W f)
    {register : Batch α → Except QueryError (Batch α)} {b : Batch α}
    (hregister : register g.batch = .ok b) (hall : ∀ c ∈ b.calls, c.succeeds f = true)
    (block : BlockTag) :
    (g.query register block).Writes W (b.calls.filterMap (Call.write? f)) := by
  intro s hs
  obtain ⟨flags, s', hexecute, hs', hslots⟩ := Batch.execute_serves serves hall block s hs
  refine ⟨(), s', ?_, hs', hslots⟩
  have hsingle : g.single register .strict block s = (.ok flags, s') := by
    rw [single, serves.ready s.world hs, hregister]
    exact hexecute
  rw [query, QueryM.bind_apply, hsingle]
  rfl

/-! ## Shards -/

namespace Scheduler

variable {job : Job w α} {calls : Nat → List (Call α)}

/-- Shards of calls that succeed come to what they return, in all worlds with the property. -/
theorem fixedResults_serves (serves : job.endpoint.Serves W f) (ships : job.Ships calls)
    (hall : ∀ c ∈ (List.range job.plan.total).flatMap calls, c.succeeds f = true) :
    job.FixedResults W (job.eachResult f calls) where
  keeps := ⟨serves.submit, serves.answer⟩
  completion i hi world world' hworld hworld' := by
    have hshard : ∀ c ∈ (job.plan.items i).flatMap calls, c.succeeds f = true := by
      intro c hc
      apply hall
      rw [← ShardPlan.flatMap_items, List.flatMap_assoc]
      exact List.mem_flatMap.2 ⟨i, List.mem_range.2 hi, hc⟩
    exact completion_each ships hi (serves.ready _ hworld)
      (serves.replies_encoded hshard rfl hworld')

/-- A strict query in shards whose calls all succeed writes what they return.  No shard can fail,
so it does not matter what would happen to the others. -/
theorem run_serves {s : Scheduler} (hs : 0 < s.concurrency) {e : Endpoint w}
    (serves : e.Serves W f) (plan : ShardPlan) (block : BlockTag) {register : Registrar α}
    (ships : (s.job e plan .strict block register).Ships calls)
    (nodup : (((List.range plan.total).flatMap calls).map Call.slot).Nodup)
    (hall : ∀ c ∈ (List.range plan.total).flatMap calls, c.succeeds f = true) :
    (s.run e plan.total plan.shardSize .strict block register).Writes W
      (((List.range plan.total).flatMap calls).filterMap (Call.write? f)) := by
  intro scene hscene
  let job := s.job e plan .strict block register
  have fixed : job.FixedResults W (job.eachResult f calls) :=
    fixedResults_serves serves ships hall
  have hok : ∀ i < job.plan.count, ∃ done, job.eachResult f calls i = .ok done :=
    forall_eachResult_ok_iff.2 fun _ => hall
  obtain ⟨moves, r, now, rfl, hover, hrun⟩ :=
    run_is_interleaving hs e plan .strict block register scene
  obtain ⟨log, sound⟩ := Run.sound_after fixed.keeps s.concurrency hscene moves
  -- Nothing is cancelled under either policy, as no shard fails.
  have haborted := sound.not_aborted_of_ok fixed (Run.recorded_after job s.concurrency scene moves)
    hok
  have completes :=
    Run.completes_of_over fixed (disjointSlots_of_nodup ships nodup) hscene hover haborted
  refine ⟨_, _, hrun.trans (Prod.ext ((completes.ok_iff _).2 ⟨hok, rfl⟩) rfl), sound.world, ?_⟩
  exact completes.slots.trans (congrArg scene.slots.write (flatMap_okWrites hok))

end Scheduler

/-- Items of one call each, bound to the slot of the same number.  Read in shards that fit into a
batch, they come to what all calls return. -/
theorem Engine.batchQuery_serves {g : Engine w} (serves : g.endpoint.Serves W f)
    {count shardSize : Nat} (positive : 0 < shardSize)
    (fits : shardSize ≤ g.config.maxBatchSize) {register : Scheduler.Registrar α}
    {call : Nat → Call α} (hslot : ∀ i < count, (call i).slot = i)
    (adds : ∀ i < count, ∀ b : Batch α, b.size < b.limit →
      register i b = .ok { b with calls := b.calls ++ [call i] })
    (hall : ∀ i < count, (call i).succeeds f = true) (block : BlockTag) :
    (g.batchQuery count shardSize register block).Writes W
      (((List.range count).map call).filterMap (Call.write? f)) := by
  let plan : ShardPlan := ⟨count, shardSize, positive⟩
  have hcalls : (List.range plan.total).flatMap (fun i => [call i]) = (List.range count).map call :=
    List.map_eq_flatMap.symm
  have hships : (g.scheduler.job g.endpoint plan .strict block register).Ships
      fun i => [call i] :=
    Scheduler.ships_of_adds (fun item hitem b room => adds item hitem b room)
      (Scheduler.fits_of_one_call plan fits)
  have hsucceeds : ∀ c ∈ (List.range plan.total).flatMap (fun i => [call i]),
      c.succeeds f = true := by
    rw [hcalls]
    intro c hc
    obtain ⟨i, hi, rfl⟩ := List.mem_map.1 hc
    exact hall i (List.mem_range.1 hi)
  have hrun := Scheduler.run_serves g.concurrency_pos serves plan block hships
    (Scheduler.nodup_slots_of_one_call hslot) hsucceeds
  rw [hcalls] at hrun
  intro s hs
  obtain ⟨flags, s', hflags, hs', hslots⟩ := hrun s hs
  refine ⟨(), s', ?_, hs', hslots⟩
  have hflags : g.scheduler.run g.endpoint count shardSize .strict block register s =
      (.ok flags, s') := hflags
  rw [batchQuery, QueryM.bind_apply, hflags]
  rfl

end Calls

end ContractReads
