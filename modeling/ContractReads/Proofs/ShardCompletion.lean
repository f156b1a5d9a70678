import ContractReads.Proofs.BatchExecution
import ContractReads.Proofs.Interleaving

/-!
# What a shard comes to

`Job.completion` is what a shard comes to when it runs to its end: it depends on the world in
which it registers its items and on the world in which its batch is answered.  `Reached` says
which phases a shard can be in and what it has written by then, if all worlds that it meets have
a property; a shard writes nothing before its completion is known, and then what its completion
says, value by value.

`Step.reached` is the step lemma for one shard: a step takes it from a phase that can be reached
to another one, and what it writes on the way is added to the slots.
-/

namespace ContractReads.Scheduler

variable {w α : Type}

/-- What is written when a shard comes to this. -/
def okWrites : Except QueryError (Settlement α) → List (Nat × α)
  | .ok done => done.writes
  | .error _ => []

/-- The flags of the items of a shard that comes to this. -/
def okFlags : Except QueryError (Settlement α) → List Bool
  | .ok done => done.flags
  | .error _ => []

namespace Job

/-- What a shard comes to when it runs to its end. -/
def completion (job : Job w α) (atLoad atAnswer : w) (shard : Nat) :
    Except QueryError (Settlement α) :=
  match job.load atLoad shard with
  | .error e => .error e
  | .ok s =>
    if s.batch.isEmpty then .ok ⟨itemFlags s.callCounts [], []⟩
    else job.settle s (job.endpoint.answer (job.trip s) atAnswer).1

/-- The slots that the calls of a shard are bound to. -/
def slots (job : Job w α) (shard : Nat) : List Nat :=
  match job.shipment shard with
  | .ok s => s.batch.calls.map Call.slot
  | .error _ => []

/-- No slot is bound to calls of two shards. -/
def DisjointSlots (job : Job w α) : Prop :=
  ∀ i < job.plan.count, ∀ j < job.plan.count, i ≠ j → ∀ k ∈ job.slots i, k ∉ job.slots j

/-- Round trips keep a property of the world. -/
structure Keeps (job : Job w α) (W : w → Prop) : Prop where
  submit : ∀ trip world, W world → W (job.endpoint.submit trip world).2
  answer : ∀ trip world, W world → W (job.endpoint.answer trip world).2.2

/-- A world that the round trips of the endpoint lead to. -/
inductive Meets (job : Job w α) (first : w) : w → Prop
  | first : Meets job first first
  | submit {world : w} (trip : RoundTrip) (h : Meets job first world) :
    Meets job first (job.endpoint.submit trip world).2
  | answer {world : w} (trip : RoundTrip) (h : Meets job first world) :
    Meets job first (job.endpoint.answer trip world).2.2

/-- Each shard comes to one result, in whichever worlds with the property it is carried out. -/
structure FixedResults (job : Job w α) (W : w → Prop)
    (result : Nat → Except QueryError (Settlement α)) : Prop where
  keeps : job.Keeps W
  completion : ∀ i < job.plan.count, ∀ world world', W world → W world' →
    job.completion world world' i = result i

theorem keeps_meets (job : Job w α) (first : w) : job.Keeps (job.Meets first) where
  submit trip _ h := .submit trip h
  answer trip _ h := .answer trip h

variable {job : Job w α} {shard : Nat}

/-- What an endpoint is sent is what was registered. -/
theorem shipment_of_load {world : w} {s : Shipment α} (h : job.load world shard = .ok s) :
    job.shipment shard = .ok s := by
  unfold load at h
  split at h
  · cases h
  · split at h
    · cases h
    · rename_i hs
      cases h
      exact hs

theorem slots_of_load {world : w} {s : Shipment α} (h : job.load world shard = .ok s) :
    job.slots shard = s.batch.calls.map Call.slot := by
  rw [slots, shipment_of_load h]

theorem settle_eq_ok {s : Shipment α} {a : Answer} {done : Settlement α}
    (h : job.settle s a = .ok done) :
    ∃ settled, s.batch.settleAnswer job.mode job.endpoint.name a = .ok settled ∧
      done = ⟨itemFlags s.callCounts settled.flags, settled.writes⟩ := by
  unfold settle at h
  cases hs : s.batch.settleAnswer job.mode job.endpoint.name a with
  | error e =>
    rw [hs] at h
    cases h
  | ok settled =>
    rw [hs] at h
    cases h
    exact ⟨settled, rfl, rfl⟩

theorem completion_of_error {world world' : w} {e : QueryError}
    (h : job.load world shard = .error e) : job.completion world world' shard = .error e := by
  rw [completion, h]

theorem completion_of_empty {world world' : w} {s : Shipment α}
    (h : job.load world shard = .ok s) (hs : s.batch.isEmpty = true) :
    job.completion world world' shard = .ok ⟨itemFlags s.callCounts [], []⟩ := by
  rw [completion, h]
  exact if_pos hs

theorem completion_of_calls {world world' : w} {s : Shipment α}
    (h : job.load world shard = .ok s) (hs : s.batch.isEmpty = false) :
    job.completion world world' shard =
      job.settle s (job.endpoint.answer (job.trip s) world').1 := by
  rw [completion, h]
  exact if_neg (by simp [hs])

/-- A shard that comes to a result has registered its items, and its batch, unless it is empty,
has been settled. -/
theorem completion_eq_ok {world world' : w} {done : Settlement α}
    (h : job.completion world world' shard = .ok done) :
    ∃ s settled, job.load world shard = .ok s ∧
      done = ⟨itemFlags s.callCounts settled.flags, settled.writes⟩ ∧
      (settled = ⟨[], []⟩ ∨
        s.batch.settleAnswer job.mode job.endpoint.name
          (job.endpoint.answer (job.trip s) world').1 = .ok settled) := by
  cases hload : job.load world shard with
  | error e =>
    rw [completion_of_error hload] at h
    cases h
  | ok s =>
    cases hs : s.batch.isEmpty with
    | true =>
      rw [completion_of_empty hload hs] at h
      cases h
      exact ⟨s, ⟨[], []⟩, rfl, rfl, .inl rfl⟩
    | false =>
      rw [completion_of_calls hload hs] at h
      obtain ⟨settled, hsettled, rfl⟩ := settle_eq_ok h
      exact ⟨s, settled, rfl, rfl, .inr hsettled⟩

/-- A shard writes only to slots that its calls are bound to. -/
theorem mem_slots_of_mem_writes {world world' : w} {done : Settlement α} {x : Nat × α}
    (h : job.completion world world' shard = .ok done) (hx : x ∈ done.writes) :
    x.1 ∈ job.slots shard := by
  obtain ⟨s, settled, hload, rfl, rfl | hsettled⟩ := completion_eq_ok h
  · cases hx
  · obtain ⟨outcomes, -, -, rfl⟩ := Batch.settleAnswer_eq_ok hsettled
    obtain ⟨⟨c, o⟩, hmem, hslot, -⟩ := Batch.mem_writes_iff.1 hx
    rw [slots_of_load hload, ← hslot]
    exact List.mem_map_of_mem (List.of_mem_zip hmem).1

end Job

/-! ## One flag per item -/

@[simp] theorem length_itemFlags (counts : List Nat) (flags : List Bool) :
    (itemFlags counts flags).length = counts.length := by
  induction counts generalizing flags with
  | nil => rfl
  | cons n counts ih => simp [itemFlags, ih]

/-- The first item is registered, and then the others in the batch that it leaves. -/
theorem Shipment.register_cons_eq_ok_iff {register : Registrar α} {b : Batch α} {item : Nat}
    {items : List Nat} {s : Shipment α} :
    Shipment.register register b (item :: items) = .ok s ↔
      ∃ b' rest, register item b = .ok b' ∧ Shipment.register register b' items = .ok rest ∧
        s = { rest with callCounts := (b'.size - b.size) :: rest.callCounts } := by
  rw [Shipment.register]
  cases hitem : register item b with
  | error fault => simp [bind, Except.bind]
  | ok b' =>
    cases hrest : Shipment.register register b' items with
    | error fault => simp [bind, Except.bind, hrest]
    | ok rest => simp [bind, Except.bind, pure, Except.pure, hrest, eq_comm]

/-- The calls of each item are counted. -/
theorem Shipment.length_callCounts {register : Registrar α} {b : Batch α} {items : List Nat}
    {s : Shipment α} (h : Shipment.register register b items = .ok s) :
    s.callCounts.length = items.length := by
  induction items generalizing b s with
  | nil =>
    cases h
    rfl
  | cons item items ih =>
    obtain ⟨b', rest, -, hrest, rfl⟩ := Shipment.register_cons_eq_ok_iff.1 h
    simp [ih hrest]

/-- If all calls succeeded, so did those of each item. -/
theorem itemFlags_of_forall {counts : List Nat} {flags : List Bool}
    (h : ∀ flag ∈ flags, flag = true) : ∀ flag ∈ itemFlags counts flags, flag = true := by
  induction counts generalizing flags with
  | nil => simp [itemFlags]
  | cons n counts ih =>
    intro flag hflag
    rcases List.mem_cons.1 hflag with rfl | hrest
    · exact List.all_eq_true.2 fun x hx => h x (List.mem_of_mem_take hx)
    · exact ih (fun x hx => h x (List.mem_of_mem_drop hx)) flag hrest

namespace Job

variable {job : Job w α} {shard : Nat} {world world' : w} {done : Settlement α}

/-- A shard that comes to a result has one flag for each of its items. -/
theorem length_flags_of_completion (h : job.completion world world' shard = .ok done) :
    done.flags.length = (job.plan.items shard).length := by
  obtain ⟨s, settled, hload, rfl, -⟩ := completion_eq_ok h
  rw [length_itemFlags, Shipment.length_callCounts (shipment_of_load hload)]

/-- A strict shard that comes to a result has only set flags. -/
theorem flags_of_completion_strict (hmode : job.mode = .strict)
    (h : job.completion world world' shard = .ok done) : ∀ flag ∈ done.flags, flag = true := by
  obtain ⟨s, settled, -, rfl, rfl | hsettled⟩ := completion_eq_ok h
  · exact itemFlags_of_forall (by simp)
  · rw [hmode] at hsettled
    exact itemFlags_of_forall (Batch.flags_of_settleAnswer_strict hsettled)

end Job

/-! ## The phases of one shard -/

/-- A shard of the job can be in this phase and have written these values, if the worlds that it
met have the property. -/
inductive Reached (job : Job w α) (W : w → Prop) (shard : Nat) :
    Phase α → List (Nat × α) → Prop
  | waiting : Reached job W shard .waiting []
  | holding : Reached job W shard .holding []
  | registered {world : w} {s : Shipment α} (hw : W world) (load : job.load world shard = .ok s) :
    Reached job W shard (.registered s) []
  | inFlight {world : w} {s : Shipment α} (hw : W world) (load : job.load world shard = .ok s)
    (calls : s.batch.isEmpty = false) : Reached job W shard (.inFlight s) []
  | answered {world world' : w} {s : Shipment α} (hw : W world) (hw' : W world')
    (load : job.load world shard = .ok s) (calls : s.batch.isEmpty = false) :
    Reached job W shard (.answered s (job.endpoint.answer (job.trip s) world').1) []
  | writing {world world' : w} {done : Settlement α} {written rest : List (Nat × α)}
    (hw : W world) (hw' : W world') (completion : job.completion world world' shard = .ok done)
    (writes : done.writes = written ++ rest) :
    Reached job W shard (.writing done.flags rest) written
  | finished {world world' : w} (hw : W world) (hw' : W world') :
    Reached job W shard
      (.ended (.finished ((job.completion world world' shard).map Settlement.flags)))
      (okWrites (job.completion world world' shard))
  | cancelled : Reached job W shard (.ended .cancelled) []
  | joined {e : Ending} {written : List (Nat × α)}
    (ended : Reached job W shard (.ended e) written) :
    Reached job W shard (.joined e) written

section Reached

variable {job : Job w α} {W : w → Prop} {shard : Nat} {written : List (Nat × α)}

/-- Whatever a shard has written is in slots that its calls are bound to. -/
theorem Reached.mem_slots {p : Phase α} (h : Reached job W shard p written) :
    ∀ x ∈ written, x.1 ∈ job.slots shard := by
  induction h with
  | @writing _ _ done written rest _ _ completion writes =>
    intro x hx
    apply Job.mem_slots_of_mem_writes completion
    rw [writes]
    exact List.mem_append_left rest hx
  | @finished world world' _ _ =>
    intro x hx
    cases hc : job.completion world world' shard with
    | error e =>
      rw [hc] at hx
      cases hx
    | ok done =>
      rw [hc] at hx
      exact Job.mem_slots_of_mem_writes hc hx
  | joined _ ih => exact ih
  | _ => simp

/-- A shard that failed at its registration. -/
theorem Reached.of_load_error {world : w} {e : QueryError} (hw : W world)
    (h : job.load world shard = .error e) :
    Reached job W shard (.ended (.finished (.error e))) [] := by
  have hreached : Reached job W shard _ _ := .finished hw hw
  rw [Job.completion_of_error h] at hreached
  exact hreached

/-- A shard that ended with a result. -/
theorem Reached.of_completion_ok {world world' : w} {done : Settlement α} (hw : W world)
    (hw' : W world') (h : job.completion world world' shard = .ok done) :
    Reached job W shard (.ended (.finished (.ok done.flags))) done.writes := by
  have hreached : Reached job W shard _ _ := .finished hw hw'
  rw [h] at hreached
  exact hreached

/-- A shard whose answer failed it. -/
theorem Reached.of_completion_error {world world' : w} {e : QueryError} (hw : W world)
    (hw' : W world') (h : job.completion world world' shard = .error e) :
    Reached job W shard (.ended (.finished (.error e))) [] := by
  have hreached : Reached job W shard _ _ := .finished hw hw'
  rw [h] at hreached
  exact hreached

/-- A shard that waits for something has written nothing. -/
theorem Reached.written_of_suspended {p : Phase α} (h : Reached job W shard p written)
    (hp : p.isSuspended = true) : written = [] := by
  cases h <;> first | rfl | cases hp

/-- A shard that has ended with a result has run to its end and has written all of it. -/
theorem Reached.eq_completion {p : Phase α} {result : Except QueryError (List Bool)}
    (h : Reached job W shard p written)
    (hp : p = .ended (.finished result) ∨ p = .joined (.finished result)) :
    ∃ world world', W world ∧ W world' ∧
      result = (job.completion world world' shard).map Settlement.flags ∧
      written = okWrites (job.completion world world' shard) := by
  induction h with
  | @finished world world' hw hw' =>
    rcases hp with hp | hp
    · cases hp
      exact ⟨world, world', hw, hw', rfl, rfl⟩
    · cases hp
  | joined _ ih =>
    rcases hp with hp | hp
    · cases hp
    · cases hp
      exact ih (.inl rfl)
  | _ => rcases hp with hp | hp <;> cases hp

/-- A shard that was stopped has written nothing. -/
theorem Reached.written_of_cancelled {p : Phase α} (h : Reached job W shard p written)
    (hp : p = .ended .cancelled ∨ p = .joined .cancelled) : written = [] := by
  induction h with
  | writing => rcases hp with hp | hp <;> cases hp
  | finished => rcases hp with hp | hp <;> cases hp
  | joined _ ih =>
    rcases hp with hp | hp
    · cases hp
    · cases hp
      exact ih (.inl rfl)
  | _ => rfl

/-- A step of one shard takes it from one reachable phase to another, and what it writes on the
way is added to the slots. -/
theorem Step.reached {r r' : Run w α} {p p' : Phase α} (keeps : job.Keeps W)
    (hworld : W r.scene.world) (h : Run.Step job r shard p p' r')
    (hp : Reached job W shard p written) :
    W r'.scene.world ∧ ∃ new, Reached job W shard p' (written ++ new) ∧
      r'.scene.slots = r.scene.slots.write new := by
  cases h with
  | granted =>
    cases hp
    exact ⟨hworld, [], .holding, rfl⟩
  | refused load =>
    cases hp
    exact ⟨hworld, [], .of_load_error hworld load, rfl⟩
  | registered load =>
    cases hp
    exact ⟨hworld, [], .registered hworld load, rfl⟩
  | skipped empty =>
    cases hp with
    | registered hw load =>
      exact ⟨hworld, [], .of_completion_ok hw hworld (Job.completion_of_empty load empty), rfl⟩
  | submitted calls =>
    cases hp with
    | registered hw load =>
      exact ⟨keeps.submit _ _ hworld, [], .inFlight hw load calls, rfl⟩
  | answered =>
    cases hp with
    | inFlight hw load calls =>
      exact ⟨keeps.answer _ _ hworld, [], .answered hw hworld load calls, rfl⟩
  | rejected settle =>
    cases hp with
    | answered hw hw' load calls =>
      have hdone := (Job.completion_of_calls load calls).trans settle
      exact ⟨hworld, [], .of_completion_error hw hw' hdone, rfl⟩
  | settled settle =>
    cases hp with
    | answered hw hw' load calls =>
      have hdone := (Job.completion_of_calls load calls).trans settle
      exact ⟨hworld, [], .writing hw hw' hdone rfl, rfl⟩
  | @wrote flags x writes =>
    cases hp with
    | writing hw hw' completion hwrites =>
      exact ⟨hworld, [x], .writing hw hw' completion (by simp [hwrites]), rfl⟩
  | finished =>
    cases hp with
    | writing hw hw' completion hwrites =>
      have hdone := Reached.of_completion_ok hw hw' completion
      rw [hwrites] at hdone
      exact ⟨hworld, [], by simpa using hdone, rfl⟩
  | stopped aborted suspended =>
    rw [hp.written_of_suspended suspended]
    exact ⟨hworld, [], .cancelled, rfl⟩
  | joined =>
    refine ⟨?_, [], ?_, ?_⟩
    · rw [Run.scene_takeIn]
      exact hworld
    · rw [List.append_nil]
      exact .joined hp
    · rw [Run.scene_takeIn]
      rfl

end Reached

end ContractReads.Scheduler
