import ContractReads.Engine.Basic
import ContractReads.Proofs.FailurePolicies
import ContractReads.Proofs.TimelineInterleaving

/-!
# Sharded queries and single batches

At an endpoint that answers each call on its own, a sharded query comes to the same as one batch
of all its calls.

* `settleAnswer_each` says what a batch comes to at such an endpoint: every call is flagged and
  written on its own account.
* `Shipment.register_of_adds` and `itemFlags_map` are the bookkeeping of the items: the calls of
  items that are registered in turn follow each other, and each item gets back the flags of its
  own calls.
* `eachResult_eq_ok_iff` puts both together for a shard.  The shards' items are all items in order,
  so what the shards come to, one after the other, is what the single batch comes to.
-/

namespace ContractReads

variable {w α : Type}

/-! ## Calls that are answered on their own -/

/-- An endpoint that takes every batch and answers each call on its own. -/
structure Endpoint.AnswersEach (e : Endpoint w) (f : EncodedCall → Outcome) : Prop where
  ready : ∀ world, e.ready world = .ok ()
  answer : ∀ trip world, (e.answer trip world).1 = .ok (trip.calls.map f)

/-- An endpoint that takes every batch, and answers each call on its own in the round trips of one
mode and block, as long as the world has a property, which it keeps. -/
structure Endpoint.AnswersIn (e : Endpoint w) (mode : Mode) (block : BlockTag) (W : w → Prop)
    (f : EncodedCall → Outcome) : Prop where
  ready : ∀ world, W world → e.ready world = .ok ()
  submit : ∀ trip world, W world → W (e.submit trip world).2
  answer : ∀ trip world, W world → W (e.answer trip world).2.2
  replies : ∀ calls world, W world →
    (e.answer ⟨calls, mode = .strict, block⟩ world).1 = .ok (calls.map f)

theorem Endpoint.AnswersEach.answersIn {e : Endpoint w} {f : EncodedCall → Outcome}
    (h : e.AnswersEach f) (mode : Mode) (block : BlockTag) :
    e.AnswersIn mode block (fun _ => True) f where
  ready world _ := h.ready world
  submit _ _ _ := trivial
  answer _ _ _ := trivial
  replies _ world _ := h.answer _ world

/-- Whether a call gets a value. -/
def Call.succeeds (f : EncodedCall → Outcome) (c : Call α) : Bool :=
  (c.value? (f c.encoded)).isSome

/-- What is written for a call. -/
def Call.write? (f : EncodedCall → Outcome) (c : Call α) : Option (Nat × α) :=
  (c.value? (f c.encoded)).map (c.slot, ·)

namespace Batch

variable {f : EncodedCall → Outcome}

theorem settlement_each (f : EncodedCall → Outcome) (cs : List (Call α)) :
    settlement cs ((cs.map Call.encoded).map f) =
      ⟨cs.map (Call.succeeds f), cs.filterMap (Call.write? f)⟩ := by
  have hzip : cs.zip ((cs.map Call.encoded).map f) = cs.map fun c => (c, f c.encoded) := by
    rw [List.map_map]
    exact List.map_prod_left_eq_zip.symm
  rw [settlement, hzip, List.map_map, List.filterMap_map]
  rfl

/-- A flexible batch settles, and a strict one does if every call gets a value. -/
theorem settleAnswer_each {b : Batch α} {mode : Mode} {name : String} {done : Settlement α} :
    b.settleAnswer mode name (.ok ((b.calls.map Call.encoded).map f)) = .ok done ↔
      (mode = .strict → ∀ c ∈ b.calls, c.succeeds f = true) ∧
        done = ⟨b.calls.map (Call.succeeds f), b.calls.filterMap (Call.write? f)⟩ := by
  constructor
  · intro h
    obtain ⟨outcomes, houtcomes, hlen, hdone⟩ := settleAnswer_eq_ok h
    cases houtcomes
    rw [settlement_each] at hdone
    refine ⟨?_, hdone⟩
    rintro rfl c hc
    have hflags := flags_of_settleAnswer_strict h
    rw [hdone] at hflags
    exact hflags _ (List.mem_map_of_mem hc)
  · rintro ⟨hall, rfl⟩
    cases h : b.settleAnswer mode name (.ok ((b.calls.map Call.encoded).map f)) with
    | ok done =>
      obtain ⟨outcomes, houtcomes, -, rfl⟩ := settleAnswer_eq_ok h
      cases houtcomes
      rw [settlement_each]
    | error cause =>
      exfalso
      have hvalue : ∀ (i : Nat) (c : Call α) (o : Outcome), mode = .strict → b.calls[i]? = some c →
          ((b.calls.map Call.encoded).map f)[i]? = some o → ∃ a, c.value? o = some a := by
        intro i c o hmode hc ho
        simp only [List.getElem?_map, hc, Option.map_some, Option.some.injEq] at ho
        subst ho
        exact Option.isSome_iff_exists.1 (hall hmode c (List.mem_of_getElem? hc))
      cases settleAnswer_eq_error_iff.1 h with
      | count hlen => simp at hlen
      | @failedCall _ i o hmode hlen here failed first =>
        have hi : i < b.calls.length := by
          rw [← hlen]
          exact (List.getElem?_eq_some_iff.1 here).1
        obtain ⟨a, ha⟩ := hvalue i _ o hmode (List.getElem?_eq_getElem hi) here
        have hsuccess := (Call.value?_eq_some_iff.1 ha).1
        rw [failed] at hsuccess
        cases hsuccess
      | @undecodable _ i c o _ hmode hlen succeeded call here bad first =>
        obtain ⟨a, ha⟩ := hvalue i c o hmode call here
        have hdecode := (Call.value?_eq_some_iff.1 ha).2
        rw [bad] at hdecode
        cases hdecode

end Batch

namespace Scheduler

/-! ## The calls of items -/

/-- Registration adds the calls of an item to any batch that has room for them. -/
def Adds (register : Registrar α) (calls : Nat → List (Call α)) : Prop :=
  ∀ item (b : Batch α), b.size + (calls item).length ≤ b.limit →
    register item b = .ok { b with calls := b.calls ++ calls item }

/-- Registration does so for one item. -/
def AddsItem (register : Registrar α) (calls : Nat → List (Call α)) (item : Nat) : Prop :=
  ∀ b : Batch α, b.size + (calls item).length ≤ b.limit →
    register item b = .ok { b with calls := b.calls ++ calls item }

theorem Adds.item {register : Registrar α} {calls : Nat → List (Call α)} (h : Adds register calls)
    (item : Nat) : AddsItem register calls item :=
  h item

section Items

variable {register : Registrar α} {calls : Nat → List (Call α)}

/-- The calls of items in one batch, and how many each item has. -/
def Shipment.ofItems (calls : Nat → List (Call α)) (limit : Nat) (items : List Nat) :
    Shipment α :=
  ⟨⟨items.flatMap calls, limit⟩, items.map fun item => (calls item).length⟩

/-- The calls of items that are registered in turn follow each other. -/
theorem Shipment.register_of_adds {b : Batch α} {items : List Nat}
    (adds : ∀ item ∈ items, AddsItem register calls item)
    (room : b.size + (items.flatMap calls).length ≤ b.limit) :
    Shipment.register register b items =
      .ok ⟨{ b with calls := b.calls ++ items.flatMap calls },
        items.map fun item => (calls item).length⟩ := by
  induction items generalizing b with
  | nil => simp [Shipment.register]
  | cons item items ih =>
    rw [List.flatMap_cons, List.length_append] at room
    have hitem := adds item List.mem_cons_self b (by omega)
    have hsize : Batch.size { b with calls := b.calls ++ calls item } =
        b.size + (calls item).length := by
      simp [Batch.size]
    have hrest := ih (b := { b with calls := b.calls ++ calls item })
      (fun item hitem => adds item (List.mem_cons_of_mem _ hitem)) (by
      rw [hsize]
      show b.size + (calls item).length + (items.flatMap calls).length ≤ b.limit
      omega)
    rw [Shipment.register, hitem]
    simp only [bind, Except.bind, hrest, pure, Except.pure, hsize, List.flatMap_cons,
      List.append_assoc, List.map_cons, Nat.add_sub_cancel_left]

theorem Shipment.register_empty (adds : Adds register calls) {limit : Nat} {items : List Nat}
    (room : (items.flatMap calls).length ≤ limit) :
    Shipment.register register (Batch.empty limit) items = .ok (.ofItems calls limit items) := by
  rw [Shipment.register_of_adds fun item _ => adds.item item]
  · rfl
  · show 0 + _ ≤ limit
    omega

/-- Each item gets the flags of its own calls. -/
theorem itemFlags_map (p : Call α → Bool) (items : List Nat) :
    itemFlags (items.map fun item => (calls item).length) ((items.flatMap calls).map p) =
      items.map fun item => (calls item).all p := by
  induction items with
  | nil => rfl
  | cons item items ih =>
    have hlength : ((calls item).map p).length = (calls item).length := List.length_map p
    rw [List.map_cons, List.flatMap_cons, List.map_append, itemFlags, List.map_cons,
      ← hlength, List.take_left, List.drop_left, ih, List.all_map]
    rfl

end Items

/-! ## What a shard comes to -/

/-- What a shard comes to when its calls are answered on their own. -/
def Job.eachResult (job : Job w α) (f : EncodedCall → Outcome) (calls : Nat → List (Call α))
    (shard : Nat) : Except QueryError (Settlement α) :=
  let s := Shipment.ofItems calls job.limit (job.plan.items shard)
  job.settle s (.ok ((s.batch.calls.map Call.encoded).map f))

section Shards

variable {job : Job w α} {W : w → Prop} {f : EncodedCall → Outcome}
  {calls : Nat → List (Call α)}

/-- A shard succeeds, unless it is strict and one of its calls has no value, and then it flags and
writes item by item. -/
theorem eachResult_eq_ok_iff {shard : Nat} {done : Settlement α} :
    job.eachResult f calls shard = .ok done ↔
      (job.mode = .strict → ∀ item ∈ job.plan.items shard, ∀ c ∈ calls item, c.succeeds f = true) ∧
        done = ⟨(job.plan.items shard).map fun item => (calls item).all (Call.succeeds f),
          (job.plan.items shard).flatMap fun item => (calls item).filterMap (Call.write? f)⟩ := by
  have hall : (∀ c ∈ (job.plan.items shard).flatMap calls, c.succeeds f = true) ↔
      ∀ item ∈ job.plan.items shard, ∀ c ∈ calls item, c.succeeds f = true := by
    simp only [List.mem_flatMap, forall_exists_index, and_imp]
    exact ⟨fun h item hitem c hc => h c item hitem hc, fun h c item hitem hc => h item hitem c hc⟩
  rw [← hall, ← itemFlags_map, ← List.filterMap_flatMap]
  constructor
  · intro h
    obtain ⟨settled, hsettled, rfl⟩ := Job.settle_eq_ok h
    obtain ⟨hstrict, rfl⟩ := Batch.settleAnswer_each.1 hsettled
    exact ⟨hstrict, rfl⟩
  · rintro ⟨hstrict, rfl⟩
    rw [Job.eachResult, Job.settle, Batch.settleAnswer_each.2 ⟨hstrict, rfl⟩]
    rfl

/-- Every shard ships the calls of its items. -/
def Job.Ships (job : Job w α) (calls : Nat → List (Call α)) : Prop :=
  ∀ i < job.plan.count, job.shipment i = .ok (.ofItems calls job.limit (job.plan.items i))

theorem ships_of_adds (adds : ∀ item < job.plan.total, AddsItem job.register calls item)
    (fits : ∀ i < job.plan.count, ((job.plan.items i).flatMap calls).length ≤ job.limit) :
    job.Ships calls := by
  intro i hi
  rw [Job.shipment, Shipment.register_of_adds fun item hitem =>
    adds item (job.plan.lt_total_of_mem_items hi hitem)]
  · rfl
  · show 0 + _ ≤ job.limit
    have := fits i hi
    omega

/-- A shard that is taken and whose calls are answered on their own comes to what they do. -/
theorem completion_each (ships : job.Ships calls) {i : Nat} (hi : i < job.plan.count)
    {world world' : w} (ready : job.endpoint.ready world = .ok ())
    (answer : (job.endpoint.answer
        (job.trip (.ofItems calls job.limit (job.plan.items i))) world').1 =
      .ok ((((job.plan.items i).flatMap calls).map Call.encoded).map f)) :
    job.completion world world' i = job.eachResult f calls i := by
  have hload : job.load world i = .ok (.ofItems calls job.limit (job.plan.items i)) := by
    rw [Job.load, ready, ships i hi]
  by_cases hempty : (job.plan.items i).flatMap calls = []
  · have hisEmpty :
        (Shipment.ofItems calls job.limit (job.plan.items i)).batch.isEmpty = true := by
      rw [Shipment.ofItems, Batch.isEmpty, hempty]
      rfl
    rw [Job.completion_of_empty hload hisEmpty, eq_comm, eachResult_eq_ok_iff,
      ← itemFlags_map, ← List.filterMap_flatMap, hempty]
    refine ⟨fun _ item hitem c hc => ?_, rfl⟩
    have hmem : c ∈ (job.plan.items i).flatMap calls := List.mem_flatMap.2 ⟨item, hitem, hc⟩
    rw [hempty] at hmem
    cases hmem
  · have hcalls :
        (Shipment.ofItems calls job.limit (job.plan.items i)).batch.isEmpty = false := by
      rw [Shipment.ofItems, Batch.isEmpty]
      simpa using hempty
    rw [Job.completion_of_calls hload hcalls, answer]
    rfl

/-- Each shard has this result in every world with the property. -/
theorem fixedResults_each (each : job.endpoint.AnswersIn job.mode job.block W f)
    (ships : job.Ships calls) : job.FixedResults W (job.eachResult f calls) where
  keeps := ⟨each.submit, each.answer⟩
  completion _ hi _ _ hworld hworld' :=
    completion_each ships hi (each.ready _ hworld) (each.replies _ _ hworld')

/-- Calls that are all bound to slots of their own make shards that have no slot in common. -/
theorem disjointSlots_of_nodup (ships : job.Ships calls)
    (nodup : (((List.range job.plan.total).flatMap calls).map Call.slot).Nodup) :
    job.DisjointSlots := by
  have hslots : ∀ i < job.plan.count,
      job.slots i = ((job.plan.items i).flatMap calls).map Call.slot := by
    intro i hi
    rw [Job.slots, ships i hi]
    rfl
  rw [← ShardPlan.flatMap_items, List.flatMap_assoc, List.map_flatMap, List.nodup_flatMap] at nodup
  have hlt : ∀ i < job.plan.count, ∀ j < job.plan.count, i < j →
      ∀ k ∈ job.slots i, k ∉ job.slots j := by
    intro i hi j hj hij k hki hkj
    have hpair := List.pairwise_iff_getElem.1 nodup.2 i j (by simpa using hi) (by simpa using hj)
      hij
    rw [hslots i hi] at hki
    rw [hslots j hj] at hkj
    exact hpair (by simpa using hki) (by simpa using hkj)
  intro i hi j hj hij k hki hkj
  rcases Nat.lt_or_gt_of_ne hij with h | h
  · exact hlt i hi j hj h k hki hkj
  · exact hlt j hj i hi h k hkj hki

/-- Shard by shard, the flags are those of all items in order. -/
theorem flatMap_okFlags (hok : ∀ i < job.plan.count, ∃ done, job.eachResult f calls i = .ok done) :
    ((List.range job.plan.count).flatMap fun i => okFlags (job.eachResult f calls i)) =
      (List.range job.plan.total).map fun item => (calls item).all (Call.succeeds f) := by
  rw [← ShardPlan.flatMap_items, List.map_flatMap]
  refine List.flatMap_congr fun i hi => ?_
  obtain ⟨done, hdone⟩ := hok i (List.mem_range.1 hi)
  rw [hdone, (eachResult_eq_ok_iff.1 hdone).2]
  rfl

/-- Shard by shard, what is written is what the calls of all items in order write. -/
theorem flatMap_okWrites
    (hok : ∀ i < job.plan.count, ∃ done, job.eachResult f calls i = .ok done) :
    ((List.range job.plan.count).flatMap fun i => okWrites (job.eachResult f calls i)) =
      ((List.range job.plan.total).flatMap calls).filterMap (Call.write? f) := by
  rw [← ShardPlan.flatMap_items, List.flatMap_assoc, List.filterMap_flatMap]
  refine List.flatMap_congr fun i hi => ?_
  obtain ⟨done, hdone⟩ := hok i (List.mem_range.1 hi)
  rw [hdone, (eachResult_eq_ok_iff.1 hdone).2, List.filterMap_flatMap]
  rfl

/-- All shards succeed if and only if all calls do that have to. -/
theorem forall_eachResult_ok_iff :
    (∀ i < job.plan.count, ∃ done, job.eachResult f calls i = .ok done) ↔
      (job.mode = .strict → ∀ c ∈ (List.range job.plan.total).flatMap calls,
        c.succeeds f = true) := by
  rw [← ShardPlan.flatMap_items, List.flatMap_assoc]
  constructor
  · intro hok hmode c hc
    obtain ⟨i, hi, hc⟩ := List.mem_flatMap.1 hc
    obtain ⟨item, hitem, hc⟩ := List.mem_flatMap.1 hc
    obtain ⟨done, hdone⟩ := hok i (List.mem_range.1 hi)
    exact (eachResult_eq_ok_iff.1 hdone).1 hmode item hitem c hc
  · intro hall i hi
    refine ⟨_, eachResult_eq_ok_iff.2 ⟨fun hmode item hitem c hc => hall hmode c ?_, rfl⟩⟩
    exact List.mem_flatMap.2 ⟨i, List.mem_range.2 hi, List.mem_flatMap.2 ⟨item, hitem, hc⟩⟩

/-- A run that has joined all its shards gives the flags of all items, and has written what the
calls of all items write. -/
theorem each_of_over (job : Job w α) (answers : job.endpoint.AnswersIn job.mode job.block W f)
    (adds : Adds job.register calls)
    (nodup : (((List.range job.plan.total).flatMap calls).map Call.slot).Nodup)
    (fits : ∀ i < job.plan.count, ((job.plan.items i).flatMap calls).length ≤ job.limit)
    (hpolicy : job.mode = .strict → job.policy = .runToCompletion) {permits : Nat}
    {scene : Scene w α} (hworld : W scene.world) {moves : List Move}
    (hover : ((Run.start job permits scene).after job moves).IsOver) :
    (∀ flags, ((Run.start job permits scene).after job moves).result = .ok flags ↔
      (job.mode = .strict → ∀ c ∈ (List.range job.plan.total).flatMap calls,
        c.succeeds f = true) ∧
        flags = (List.range job.plan.total).map fun item => (calls item).all (Call.succeeds f)) ∧
      ∀ flags, ((Run.start job permits scene).after job moves).result = .ok flags →
        ((Run.start job permits scene).after job moves).scene.slots = scene.slots.write
          (((List.range job.plan.total).flatMap calls).filterMap (Call.write? f)) := by
  have ships := ships_of_adds (fun item _ => adds.item item) fits
  have fixed := fixedResults_each answers ships
  have disjoint := disjointSlots_of_nodup ships nodup
  have haborted : ((Run.start job permits scene).after job moves).aborted = false := by
    obtain ⟨log, hsound⟩ := Run.sound_after fixed.keeps permits hworld moves
    have recorded := Run.recorded_after job permits scene moves
    by_cases hmode : job.mode = .strict
    · exact recorded.not_aborted_of_policy (hpolicy hmode)
    · exact hsound.not_aborted_of_ok fixed recorded
        (forall_eachResult_ok_iff.2 fun hstrict => absurd hstrict hmode)
  have completes := Run.completes_of_over fixed disjoint hworld hover haborted
  have hiff : ∀ flags, ((Run.start job permits scene).after job moves).result = .ok flags ↔
      (job.mode = .strict → ∀ c ∈ (List.range job.plan.total).flatMap calls,
        c.succeeds f = true) ∧
        flags = (List.range job.plan.total).map fun item =>
          (calls item).all (Call.succeeds f) := by
    intro flags
    rw [completes.ok_iff, ← forall_eachResult_ok_iff]
    constructor
    · rintro ⟨hok, rfl⟩
      exact ⟨hok, flatMap_okFlags hok⟩
    · rintro ⟨hok, rfl⟩
      exact ⟨hok, (flatMap_okFlags hok).symm⟩
  refine ⟨hiff, ?_⟩
  intro flags hflags
  rw [completes.slots, flatMap_okWrites ((completes.ok_iff flags).1 hflags).1]

end Shards

/-! ## Items of one call each -/

section OneCall

variable {f : EncodedCall → Outcome} {call : Nat → Call α} {count : Nat}

/-- The calls of a shard that is no larger than a batch fit into it. -/
theorem fits_of_one_call (plan : ShardPlan) {limit : Nat} (h : plan.shardSize ≤ limit) :
    ∀ i < plan.count, ((plan.items i).flatMap fun item => [call item]).length ≤ limit := by
  intro i hi
  rw [← List.map_eq_flatMap, List.length_map]
  exact Nat.le_trans (plan.length_items_le hi) h

section

variable (hslot : ∀ i < count, (call i).slot = i)
include hslot

/-- No slot is bound twice, if each item has the slot of its number. -/
theorem nodup_slots_of_one_call :
    (((List.range count).flatMap fun i => [call i]).map Call.slot).Nodup := by
  have hslots : ((List.range count).map call).map Call.slot = List.range count := by
    rw [List.map_map]
    conv => rhs; rw [← List.map_id (List.range count)]
    exact List.map_congr_left fun i hi => hslot i (List.mem_range.1 hi)
  rw [← List.map_eq_flatMap, hslots]
  exact List.nodup_range

/-- The items fill a row of slots with what their calls come to. -/
theorem write_of_one_call : (Slots.empty count : Slots α).write
      (((List.range count).map call).filterMap (Call.write? f)) =
    ⟨(List.range count).map fun i => (call i).value? (f (call i).encoded)⟩ := by
  have hwrites : ((List.range count).map call).filterMap (Call.write? f) =
      (List.range' 0 count).filterMap fun i =>
        ((call i).value? (f (call i).encoded)).map (i, ·) := by
    rw [List.filterMap_map, ← List.range_eq_range']
    refine List.filterMap_congr fun i hi => ?_
    rw [Function.comp_apply, Call.write?, hslot i (List.mem_range.1 hi)]
  rw [hwrites, List.range_eq_range']
  exact Slots.write_row (fun i => (call i).value? (f (call i).encoded)) count []

end

end OneCall

/-! ## Whole queries -/

/-- What a sharded query can come to: the result and the slots of one of its runs in which no
shard can move any more. -/
def MayReturn (s : Scheduler) (e : Endpoint w) (plan : ShardPlan) (mode : Mode) (block : BlockTag)
    (register : Registrar α) (scene : Scene w α) (result : Except QueryError (List Bool))
    (slots : Slots α) : Prop :=
  ∃ moves r, r = (Run.start (s.job e plan mode block register) s.concurrency scene).after
      (s.job e plan mode block register) moves ∧
    r.IsStuck (s.job e plan mode block register) ∧ r.result = result ∧ r.scene.slots = slots

section Queries

variable {e : Endpoint w} {plan : ShardPlan} {mode : Mode} {block : BlockTag}
  {register : Registrar α} {scene : Scene w α}

/-- What a scheduler returns is one of the things that the query can come to. -/
theorem run_mayReturn {s : Scheduler} (hs : 0 < s.concurrency) :
    s.MayReturn e plan mode block register scene
      (s.run e plan.total plan.shardSize mode block register scene).1
      (s.run e plan.total plan.shardSize mode block register scene).2.slots := by
  obtain ⟨moves, r, now, hr, hover, hrun⟩ :=
    run_is_interleaving hs e plan mode block register scene
  rw [hrun]
  exact ⟨moves, r, hr, hover.isStuck, rfl, rfl⟩

theorem mayReturn_of_run {s : Scheduler} (hs : 0 < s.concurrency)
    {result : Except QueryError (List Bool)} {after : Scene w α}
    (h : s.run e plan.total plan.shardSize mode block register scene = (result, after)) :
    s.MayReturn e plan mode block register scene result after.slots := by
  have hreturn : s.MayReturn e plan mode block register scene _ _ := run_mayReturn hs
  rwa [h] at hreturn

/-- Whatever the interleaving, a sharded query of calls that are answered on their own comes to
the flags of all items and writes what the calls of all items write. -/
theorem MayReturn.each {f : EncodedCall → Outcome} {calls : Nat → List (Call α)}
    {concurrency limit : Nat} {policy : FailurePolicy} {result : Except QueryError (List Bool)}
    {slots : Slots α} (answers : e.AnswersEach f) (adds : Adds register calls)
    (nodup : (((List.range plan.total).flatMap calls).map Call.slot).Nodup)
    (fits : ∀ i < plan.count, ((plan.items i).flatMap calls).length ≤ limit)
    (hmode : mode = .strict → policy = .runToCompletion)
    (h : (make concurrency limit policy).MayReturn e plan mode block register scene result slots) :
    (∀ flags, result = .ok flags ↔
      (mode = .strict → ∀ c ∈ (List.range plan.total).flatMap calls, c.succeeds f = true) ∧
        flags = (List.range plan.total).map fun item => (calls item).all (Call.succeeds f)) ∧
      ∀ flags, result = .ok flags →
        slots = scene.slots.write
          (((List.range plan.total).flatMap calls).filterMap (Call.write? f)) := by
  obtain ⟨moves, r, rfl, stuck, rfl, rfl⟩ := h
  have hconcurrency : 0 < (make concurrency limit policy).concurrency := by
    show 0 < max concurrency 1
    omega
  exact each_of_over ((make concurrency limit policy).job e plan mode block register)
    (answers.answersIn mode block) adds nodup fits hmode trivial
    (Run.isOver_after_of_stuck hconcurrency stuck)

end Queries

end Scheduler

/-- An engine lets at least one round trip be in flight. -/
theorem Engine.concurrency_pos (g : Engine w) : 0 < g.scheduler.concurrency :=
  Nat.lt_of_lt_of_le Nat.one_pos (Nat.le_max_right _ _)

/-! ## Handlers -/

namespace Scheduler

/-! ## One query, sharded or not -/

/-- Two calls that return what they are sent, which the second one cannot decode, in the first and
the last of three items. -/
def threeItems (item : Nat) : List (Call Bytes) :=
  match item with
  | 0 => [⟨default, [7], 0, .ok⟩]
  | 2 => [⟨default, [8], 1, .ok⟩, ⟨default, [9], 2, fun _ => .error (.panicked "no number")⟩]
  | _ => []

/-- Registers the calls of three items. -/
def registerThree : Registrar Bytes := fun item b =>
  if b.size + (threeItems item).length ≤ b.limit then
    .ok { b with calls := b.calls ++ threeItems item }
  else .error (.error (.batchFull b.limit))

/-- Shards of two items. -/
def twoShards : ShardPlan := ⟨3, 2, by decide⟩

theorem adds_registerThree : Adds registerThree threeItems := fun _ _ room => if_pos room

theorem fits_twoShards :
    ∀ i < twoShards.count, ((twoShards.items i).flatMap threeItems).length ≤ 2 := by
  intro i hi
  have hcount : twoShards.count = 2 := by simp [twoShards, ShardPlan.count]
  rw [hcount] at hi
  obtain rfl | rfl : i = 0 ∨ i = 1 := by omega
  · decide
  · decide

end Scheduler

end ContractReads
