import Mathlib
import ContractReads.Proofs.QueryFailures

/-!
# The slots of strict queries

A strict query that succeeds has written a value for every call that it registered.

* `Batch.exists_write` is about one batch: an answer that does not fail it gives each call a value.
* `Engine.filled_of_query` carries this over to a query of one batch, and `Run.filled_after` to a
  sharded one: in a run that is over and has no failure every shard was carried out to its end,
  whatever the interleaving, and what other shards write does not empty a slot.
* `MayReturn.exists_value` is for one read per item: every item has its value.
-/

namespace ContractReads

variable {w α : Type}

/-! ## One batch -/

/-- A slot that a list writes to holds a value afterwards.  The last value counts, so the induction
is from the end of the list. -/
theorem Slots.isSet_write {s : Slots α} {xs : List (Nat × α)} {x : Nat × α} (hx : x ∈ xs)
    (hsize : x.1 < s.size) : (s.write xs).isSet x.1 = true := by
  induction xs using List.reverseRecOn with
  | nil => cases hx
  | append_singleton xs y ih =>
    rw [write_append, write_cons, write_nil, isSet]
    by_cases hxy : y.1 = x.1
    · rw [hxy, get?_set_self (by rwa [size_write])]
      rfl
    · rw [get?_set_of_ne _ hxy]
      apply ih
      rcases List.mem_append.1 hx with hx | hx
      · exact hx
      · rw [List.mem_singleton.1 hx] at hxy
        exact absurd rfl hxy

/-- The slots of all calls of a batch hold values. -/
def Batch.Filled (b : Batch α) (slots : Slots α) : Prop :=
  ∀ c ∈ b.calls, c.slot < slots.size → slots.isSet c.slot = true

/-- The slots of reads hold values. -/
theorem Batch.Filled.exists_value {b : Batch α} {slots : Slots α} (h : b.Filled slots)
    {rs : List (Reading α)} {limit : Nat}
    (registered : Reading.addEach rs (Batch.empty limit) = .ok b) {r : Reading α} (hr : r ∈ rs)
    (hslot : r.slot < slots.size) : ∃ a, slots.get? r.slot = some a := by
  obtain ⟨c, hc, prepared⟩ := Reading.exists_call_of_addEach registered hr
  obtain ⟨-, -, hc_slot⟩ := Reading.prepared_eq_ok prepared
  rw [← hc_slot] at hslot ⊢
  exact Option.isSome_iff_exists.1 (h c hc hslot)

theorem Batch.filled_write {b : Batch α} {s : Slots α} {xs : List (Nat × α)}
    (h : ∀ c ∈ b.calls, ∃ x ∈ xs, x.1 = c.slot) : b.Filled (s.write xs) := by
  intro c hc hslot
  obtain ⟨x, hx, hxc⟩ := h c hc
  rw [← hxc] at hslot ⊢
  rw [Slots.size_write] at hslot
  exact Slots.isSet_write hx hslot

/-- An answer that does not fail a strict batch gives every call a value. -/
theorem Batch.exists_write {b : Batch α} {endpoint : String} {answer : Answer}
    {done : Settlement α} (h : b.settleAnswer .strict endpoint answer = .ok done) :
    ∀ c ∈ b.calls, ∃ x ∈ done.writes, x.1 = c.slot := by
  have hflags := flags_of_settleAnswer_strict h
  obtain ⟨outcomes, -, hlength, rfl⟩ := settleAnswer_eq_ok h
  intro c hc
  obtain ⟨i, hi, rfl⟩ := List.getElem_of_mem hc
  have hflag : i < (settlement b.calls outcomes).flags.length := by
    rw [length_flags_settlement hlength]
    exact hi
  have hset : (settlement b.calls outcomes).flags[i]? = some true := by
    rw [List.getElem?_eq_getElem hflag, hflags _ (List.getElem_mem hflag)]
  obtain ⟨c, o, a, hcall, ho, hsuccess, ha⟩ := flag_settlement_iff.1 hset
  have hzip : (b.calls.zip outcomes)[i]? = some (c, o) := List.getElem?_zip_eq_some.2 ⟨hcall, ho⟩
  obtain ⟨_, rfl⟩ := List.getElem?_eq_some_iff.1 hcall
  refine ⟨(b.calls[i].slot, a), mem_writes_iff.2 ?_, rfl⟩
  refine ⟨_, List.mem_of_getElem? hzip, rfl, ?_⟩
  exact Call.value?_eq_some_iff.2 ⟨hsuccess, ha⟩

theorem Batch.filled_of_execute {b : Batch α} {e : Endpoint w} {block : BlockTag}
    {s s' : Scene w α} {flags : List Bool} (h : b.execute e .strict block s = (.ok flags, s')) :
    b.Filled s'.slots ∧ s'.slots.size = s.slots.size := by
  by_cases hcalls : b.calls = []
  · rw [execute, if_pos (by simp [isEmpty, hcalls])] at h
    cases h
    exact ⟨by simp [Filled, hcalls], rfl⟩
  · obtain ⟨now, hexecute⟩ := execute_of_ne_nil hcalls e .strict block s
    rw [hexecute] at h
    cases hsettled : b.settleAnswer .strict e.name (b.ask e .strict block s.world).1 with
    | error cause =>
      rw [hsettled] at h
      cases h
    | ok done =>
      rw [hsettled] at h
      cases h
      exact ⟨filled_write (exists_write hsettled), Slots.size_write _ _⟩

/-- A strict query of one batch that succeeds has filled the slots of its calls. -/
theorem Engine.filled_of_query {g : Engine w} {register : Batch α → Except QueryError (Batch α)}
    {block : BlockTag} {s s' : Scene w α} (h : g.query register block s = (.ok (), s')) :
    ∃ b, register g.batch = .ok b ∧ b.Filled s'.slots ∧ s'.slots.size = s.slots.size := by
  rw [query_eq] at h
  rcases hsingle : g.single register .strict block s with ⟨cause | flags, after⟩
  · rw [hsingle] at h
    cases h
  · rw [hsingle] at h
    cases h
    rw [single] at hsingle
    split at hsingle
    · cases hsingle
    · split at hsingle
      · cases hsingle
      · rename_i b hb
        exact ⟨b, hb, Batch.filled_of_execute hsingle⟩

/-! ## Shards -/

namespace Scheduler

/-- All shards of a plan can be registered, and the slots of their calls hold values. -/
def FillsShards (register : Registrar α) (limit : Nat) (plan : ShardPlan) (slots : Slots α) :
    Prop :=
  ∀ i < plan.count, ∃ shipment,
    Shipment.register register (Batch.empty limit) (plan.items i) = .ok shipment ∧
      shipment.batch.Filled slots

/-- A strict shard that comes to a result has a value for each of its calls. -/
theorem Job.exists_write_of_completion {job : Job w α} (strict : job.mode = .strict)
    {world world' : w} {i : Nat} {done : Settlement α}
    (h : job.completion world world' i = .ok done) :
    ∃ shipment, job.shipment i = .ok shipment ∧
      ∀ c ∈ shipment.batch.calls, ∃ x ∈ done.writes, x.1 = c.slot := by
  cases hload : job.load world i with
  | error cause =>
    rw [completion_of_error hload] at h
    cases h
  | ok s =>
    refine ⟨s, shipment_of_load hload, ?_⟩
    cases hs : s.batch.isEmpty with
    | true =>
      have hnone : s.batch.calls = [] := by simpa [Batch.isEmpty] using hs
      simp [hnone]
    | false =>
      rw [completion_of_calls hload hs] at h
      obtain ⟨settled, hsettled, rfl⟩ := settle_eq_ok h
      rw [strict] at hsettled
      intro c hc
      exact Batch.exists_write hsettled c hc

namespace Run

/-- A strict run that succeeds has filled the slots of all its calls: no shard has failed and none
was stopped, so each has written all that it came to. -/
theorem filled_after {job : Job w α} (strict : job.mode = .strict) {permits : Nat}
    {scene : Scene w α} {moves : List Move} {flags : List Bool}
    (hover : ((start job permits scene).after job moves).IsOver)
    (hok : ((start job permits scene).after job moves).result = .ok flags) :
    FillsShards job.register job.limit job.plan
      ((start job permits scene).after job moves).scene.slots := by
  have concludes := concludes_of_over hover
  obtain ⟨log, -, hslots, hatomic⟩ := concludes.atomic
  intro i hi
  obtain ⟨own, hphase⟩ := (concludes.ok flags hok).1 i hi
  have hatomic := (hatomic i hi).1
  rw [hphase] at hatomic
  generalize hwritten : writtenBy i log = written at hatomic
  cases hatomic with
  | succeeded _ _ completion =>
    obtain ⟨shipment, hshipment, hwrites⟩ := Job.exists_write_of_completion strict completion
    refine ⟨shipment, hshipment, ?_⟩
    rw [hslots]
    apply Batch.filled_write
    intro c hc
    obtain ⟨x, hx, hslot⟩ := hwrites c hc
    rw [← hwritten] at hx
    obtain ⟨entry, hentry, rfl⟩ := List.mem_map.1 hx
    exact ⟨entry.2, List.mem_map_of_mem (List.mem_of_mem_filter hentry), hslot⟩

theorem size_slots_after (job : Job w α) (permits : Nat) (scene : Scene w α) (moves : List Move) :
    ((start job permits scene).after job moves).scene.slots.size = scene.slots.size := by
  obtain ⟨log, sound⟩ := sound_after (job.keeps_meets scene.world) permits Job.Meets.first moves
  rw [sound.slots, Slots.size_write]

end Run

/-! ## Whole queries -/

theorem concurrency_make_pos (concurrency limit : Nat) (policy : FailurePolicy) :
    0 < (make concurrency limit policy).concurrency :=
  Nat.lt_of_lt_of_le Nat.one_pos (Nat.le_max_right concurrency 1)

namespace MayReturn

variable {s : Scheduler} {e : Endpoint w} {plan : ShardPlan} {mode : Mode} {block : BlockTag}
  {register : Registrar α} {scene : Scene w α} {result : Except QueryError (List Bool)}
  {flags : List Bool} {slots : Slots α}

theorem size_slots (h : s.MayReturn e plan mode block register scene result slots) :
    slots.size = scene.slots.size := by
  obtain ⟨moves, r, rfl, -, -, rfl⟩ := h
  exact Run.size_slots_after _ _ _ moves

section

variable (hs : 0 < s.concurrency)
include hs

/-- A query that succeeds has one flag for each item. -/
theorem length_flags (h : s.MayReturn e plan mode block register scene (.ok flags) slots) :
    flags.length = plan.total := by
  obtain ⟨moves, r, rfl, stuck, hresult, -⟩ := h
  exact ((Run.concludes_of_over (Run.isOver_after_of_stuck hs stuck)).ok flags hresult).2.1

theorem filled (h : s.MayReturn e plan .strict block register scene (.ok flags) slots) :
    FillsShards register s.limit plan slots := by
  obtain ⟨moves, r, rfl, stuck, hresult, rfl⟩ := h
  exact Run.filled_after rfl (Run.isOver_after_of_stuck hs stuck) hresult

/-- After a strict query of one read for each item every item has its value. -/
theorem exists_value {reading : Nat → Reading α}
    (h : s.MayReturn e plan .strict block (readEach reading) scene (.ok flags) slots) {item : Nat}
    (hitem : item < plan.total) (hslot : (reading item).slot < slots.size) :
    ∃ a, slots.get? (reading item).slot = some a := by
  have hmem : item ∈ (List.range plan.count).flatMap plan.items := by
    rw [ShardPlan.flatMap_items]
    exact List.mem_range.2 hitem
  obtain ⟨i, hi, hitem⟩ := List.mem_flatMap.1 hmem
  obtain ⟨shipment, hshipment, hfilled⟩ := h.filled hs i (List.mem_range.1 hi)
  have registered := addEach_of_readEach hshipment
  exact hfilled.exists_value registered (List.mem_map_of_mem hitem) hslot

end

end MayReturn

end Scheduler

theorem Engine.filled_of_batchQuery {g : Engine w} {count shardSize : Nat}
    {register : Scheduler.Registrar α} {block : BlockTag} {s s' : Scene w α}
    (h : g.batchQuery count shardSize register block s = (.ok (), s')) :
    ∃ positive : 0 < shardSize, Scheduler.FillsShards register g.config.maxBatchSize
      ⟨count, shardSize, positive⟩ s'.slots := by
  rw [batchQuery, QueryM.bind_apply] at h
  obtain ⟨positive, hreturn⟩ | hempty :=
    Scheduler.run_cases g.concurrency_pos g.endpoint count shardSize .strict block register s
  · rcases hrun : g.scheduler.run g.endpoint count shardSize .strict block register s with
      ⟨cause | flags, after⟩
    · rw [hrun] at h
      cases h
    · rw [hrun] at h hreturn
      cases h
      exact ⟨positive, hreturn.filled g.concurrency_pos⟩
  · rw [hempty] at h
    cases h

end ContractReads
