import ContractReads.Proofs.RunInvariant

/-!
# Failure policies

What a run comes to when no shard can move any more, whatever the interleaving.

* `Sound.phase_eq`, `Sound.slots_eq_results` and `flags_eq_results`: a run in which no shard is
  stopped comes to what its shards come to, shard by shard.
* `runToCompletion_confluent`: without cancellation only the error that is reported depends on
  the interleaving, and it is that of the failed shard that was joined first.
* `cancellation_sound`: with cancellation each shard still writes all or nothing, and a run that
  reports no failure has carried out all its shards.
-/

namespace ContractReads.Scheduler

variable {w α : Type}

/-- How a shard that is joined has ended, and what it has written by then: all that it came to, or
nothing. -/
inductive Atomic (job : Job w α) (W : w → Prop) (shard : Nat) : Phase α → List (Nat × α) → Prop
  | succeeded {world world' : w} {done : Settlement α} (hw : W world) (hw' : W world')
    (completion : job.completion world world' shard = .ok done) :
    Atomic job W shard (.joined (.finished (.ok done.flags))) done.writes
  | failed {world world' : w} {cause : QueryError} (hw : W world) (hw' : W world')
    (completion : job.completion world world' shard = .error cause) :
    Atomic job W shard (.joined (.finished (.error cause))) []
  | cancelled : Atomic job W shard (.joined .cancelled) []

section Shards

variable {job : Job w α} {W : w → Prop} {shard : Nat} {written : List (Nat × α)}

theorem Reached.atomic {e : Ending} (h : Reached job W shard (.joined e) written) :
    Atomic job W shard (.joined e) written := by
  cases e with
  | cancelled =>
    rw [h.written_of_cancelled (.inr rfl)]
    exact .cancelled
  | finished own =>
    obtain ⟨world, world', hw, hw', rfl, rfl⟩ := h.eq_completion (.inr rfl)
    cases hc : job.completion world world' shard with
    | error cause => exact .failed hw hw' hc
    | ok done => exact .succeeded hw hw' hc

/-- A shard with a fixed result has come to it and has written what it says. -/
theorem Reached.eq_result {result : Nat → Except QueryError (Settlement α)}
    (fixed : job.FixedResults W result) (hi : shard < job.plan.count)
    {own : Except QueryError (List Bool)}
    (h : Reached job W shard (.joined (.finished own)) written) :
    own = (result shard).map Settlement.flags ∧ written = okWrites (result shard) := by
  obtain ⟨world, world', hw, hw', rfl, rfl⟩ := h.eq_completion (.inr rfl)
  rw [fixed.completion shard hi world world' hw hw']
  exact ⟨rfl, rfl⟩

end Shards

namespace Run

theorem IsOver.exists_joined {r : Run w α} (h : r.IsOver) {i : Nat} (hi : i < r.phases.length) :
    ∃ e, r.phase i = .joined e := by
  have hjoined := isOver_iff.1 h i hi
  cases hp : r.phase i with
  | joined e => exact ⟨e, rfl⟩
  | _ =>
    rw [hp] at hjoined
    cases hjoined

theorem result_eq_error_iff {r : Run w α} {cause : QueryError} :
    r.result = .error cause ↔ r.firstError = some cause := by
  unfold result
  cases r.firstError <;> simp

theorem result_eq_ok_iff {r : Run w α} {flags : List Bool} :
    r.result = .ok flags ↔ r.firstError = none ∧ r.flags = flags := by
  unfold result
  cases r.firstError <;> simp

/-! ## Runs in which no shard is stopped -/

section Finished

variable {job : Job w α} {W : w → Prop} {result : Nat → Except QueryError (Settlement α)}
  {before : Slots α} {r : Run w α} {log : List (Nat × Nat × α)}

/-- If no shard is stopped, each comes to its result. -/
theorem Sound.phase_eq (fixed : job.FixedResults W result) (h : Sound job W before r log)
    (recorded : Recorded job r) (hover : r.IsOver) (haborted : r.aborted = false) {i : Nat}
    (hi : i < job.plan.count) :
    r.phase i = .joined (.finished ((result i).map Settlement.flags)) ∧
      writtenBy i log = okWrites (result i) := by
  have hlt : i < r.phases.length := h.length_phases.symm ▸ hi
  obtain ⟨e, he⟩ := hover.exists_joined hlt
  have hreached := h.reached i hi
  cases e with
  | cancelled =>
    have hstopped := recorded.cancelled i hlt (.inr he)
    rw [haborted] at hstopped
    cases hstopped
  | finished own =>
    rw [he] at hreached
    obtain ⟨rfl, hwritten⟩ := hreached.eq_result fixed hi
    exact ⟨he, hwritten⟩

/-- If no shard is stopped, the slots are as if the shards had written one after the other. -/
theorem Sound.slots_eq_results (fixed : job.FixedResults W result)
    (disjoint : job.DisjointSlots) (h : Sound job W before r log) (recorded : Recorded job r)
    (hover : r.IsOver) (haborted : r.aborted = false) :
    r.scene.slots =
      before.write ((List.range job.plan.count).flatMap fun i => okWrites (result i)) := by
  rw [h.slots_eq disjoint]
  congr 1
  refine List.flatMap_congr fun i hi => ?_
  exact (h.phase_eq fixed recorded hover haborted (List.mem_range.1 hi)).2

/-- The flags of a run whose shards have all succeeded. -/
theorem flags_eq_results (placed : Placed job r)
    (hphase : ∀ i < job.plan.count,
      r.phase i = .joined (.finished ((result i).map Settlement.flags)))
    (hok : ∀ i < job.plan.count, ∃ done, result i = .ok done) :
    r.flags = (List.range job.plan.count).flatMap fun i => okFlags (result i) := by
  rw [placed]
  refine List.flatMap_congr fun i hi => ?_
  have hi := List.mem_range.1 hi
  obtain ⟨done, hdone⟩ := hok i hi
  have hp := hphase i hi
  rw [hdone] at hp
  rw [flagsOf_of_joined hp, hdone]
  rfl

/-- No failure is recorded if and only if no shard has failed. -/
theorem firstError_eq_none_iff (recorded : Recorded job r)
    (hlength : r.phases.length = job.plan.count)
    (hphase : ∀ i < job.plan.count,
      r.phase i = .joined (.finished ((result i).map Settlement.flags))) :
    r.firstError = none ↔ ∀ i < job.plan.count, ∃ done, result i = .ok done := by
  constructor
  · intro hnone i hi
    cases hresult : result i with
    | ok done => exact ⟨done, rfl⟩
    | error cause =>
      have hp := hphase i hi
      rw [hresult] at hp
      have hsome := recorded.failed i cause hp
      rw [hnone] at hsome
      cases hsome
  · intro hok
    cases hfirst : r.firstError with
    | none => rfl
    | some cause =>
      obtain ⟨i, hi, hp⟩ := recorded.first cause hfirst
      rw [hlength] at hi
      obtain ⟨done, hdone⟩ := hok i hi
      rw [hphase i hi, hdone] at hp
      cases hp

/-- A run that is not to be cancelled is not aborted. -/
theorem Recorded.not_aborted_of_policy (h : Recorded job r)
    (policy : job.policy = .runToCompletion) : r.aborted = false := by
  by_contra haborted
  have hpolicy := (h.aborted.1 (by simpa using haborted)).2
  rw [policy] at hpolicy
  cases hpolicy

/-- A run is not aborted if none of its shards can fail. -/
theorem Sound.not_aborted_of_ok (fixed : job.FixedResults W result) (h : Sound job W before r log)
    (recorded : Recorded job r) (hok : ∀ i < job.plan.count, ∃ done, result i = .ok done) :
    r.aborted = false := by
  by_contra haborted
  have hsome := (recorded.aborted.1 (by simpa using haborted)).1
  obtain ⟨cause, hcause⟩ := Option.isSome_iff_exists.1 hsome
  obtain ⟨i, hi, hp⟩ := recorded.first cause hcause
  rw [h.length_phases] at hi
  have hreached := h.reached i hi
  rw [hp] at hreached
  obtain ⟨done, hdone⟩ := hok i hi
  have hresult := (hreached.eq_result fixed hi).1
  rw [hdone] at hresult
  cases hresult

end Finished

/-! ## Without cancellation -/

/-- What a run comes to in which every shard runs to its end.  `failures` are the failed shards in
the order in which they were joined. -/
structure Completes (job : Job w α) (result : Nat → Except QueryError (Settlement α))
    (before : Slots α) (failures : List (Nat × QueryError)) (r : Run w α) : Prop where
  /-- Every shard has come to its result. -/
  phase : ∀ i < job.plan.count, r.phase i = .joined (.finished ((result i).map Settlement.flags))
  /-- The slots are as if the shards had written one after the other. -/
  slots : r.scene.slots =
    before.write ((List.range job.plan.count).flatMap fun i => okWrites (result i))
  /-- In the slots of a shard is what it came to; those of a failed one are untouched. -/
  slot : ∀ i < job.plan.count, ∀ k ∈ job.slots i,
    r.scene.slots.get? k = (before.write (okWrites (result i))).get? k
  /-- The run succeeds if and only if no shard fails, and then it gives the flags of all. -/
  ok_iff : ∀ flags, r.result = .ok flags ↔
    (∀ i < job.plan.count, ∃ done, result i = .ok done) ∧
      flags = (List.range job.plan.count).flatMap fun i => okFlags (result i)
  /-- It fails with the error of the failed shard that was joined first. -/
  error_iff : ∀ cause, r.result = .error cause ↔ ∃ i, failures.head? = some (i, cause)
  /-- The failed shards are failed ones. -/
  failed : ∀ i cause, (i, cause) ∈ failures → i < job.plan.count ∧ result i = .error cause

/-- An error that is a shard's own is the error of one of the shards. -/
theorem Sound.lt_count_of_error {job : Job w α} {W : w → Prop} {before : Slots α} {r : Run w α}
    {log : List (Nat × Nat × α)} (h : Sound job W before r log) {i : Nat} {cause : QueryError}
    (hp : r.phase i = .joined (.finished (.error cause))) : i < job.plan.count := by
  by_contra hi
  rw [phase_of_length_le (h.length_phases ▸ Nat.le_of_not_lt hi)] at hp
  cases hp

/-- A run in which no shard is stopped completes. -/
theorem completes_of_over {job : Job w α} {W : w → Prop}
    {result : Nat → Except QueryError (Settlement α)} (fixed : job.FixedResults W result)
    (disjoint : job.DisjointSlots) {permits : Nat} {scene : Scene w α} (hscene : W scene.world)
    {moves : List Move} (hover : ((start job permits scene).after job moves).IsOver)
    (haborted : ((start job permits scene).after job moves).aborted = false) :
    Completes job result scene.slots ((start job permits scene).failures job moves)
      ((start job permits scene).after job moves) := by
  obtain ⟨log, hsound⟩ := sound_after fixed.keeps permits hscene moves
  have recorded := recorded_after job permits scene moves
  have placed := placed_after job permits scene moves
  have hfirst := firstError_after job (start job permits scene) moves
  have hfailed : ∀ i cause, (i, cause) ∈ (start job permits scene).failures job moves →
      ((start job permits scene).after job moves).phase i = .joined (.finished (.error cause)) :=
    fun i cause => phase_of_mem_failures
  generalize (start job permits scene).after job moves = r at *
  generalize (start job permits scene).failures job moves = failures at *
  have hphase := fun i (hi : i < job.plan.count) =>
    (hsound.phase_eq fixed recorded hover haborted hi).1
  refine ⟨hphase, hsound.slots_eq_results fixed disjoint recorded hover haborted, ?_, ?_, ?_, ?_⟩
  · intro i hi k hk
    rw [hsound.get?_slots fun j hj hji hkj => disjoint i hi j hj (Ne.symm hji) k hk hkj,
      (hsound.phase_eq fixed recorded hover haborted hi).2]
  · intro flags
    have hnone := firstError_eq_none_iff recorded hsound.length_phases hphase
    rw [result_eq_ok_iff, hnone]
    constructor
    · rintro ⟨hok, rfl⟩
      exact ⟨hok, flags_eq_results placed hphase hok⟩
    · rintro ⟨hok, rfl⟩
      exact ⟨hok, flags_eq_results placed hphase hok⟩
  · intro cause
    have hstart : (start job permits scene).firstError = none := rfl
    rw [result_eq_error_iff, hfirst, hstart, Option.none_or, Option.map_eq_some_iff]
    simp
  · intro i cause hmem
    have hp := hfailed i cause hmem
    have hi := hsound.lt_count_of_error hp
    refine ⟨hi, ?_⟩
    rw [hphase i hi] at hp
    cases hresult : result i with
    | ok done =>
      rw [hresult] at hp
      cases hp
    | error own =>
      rw [hresult] at hp
      cases hp
      rfl

/-- Without cancellation a run does not depend on its interleaving.  Shards that have fixed
results and no slot in common do not move for ever, and when none can move any more, every shard
has come to its result, the slots hold what the shards that succeed have written, and the run
gives the flags of all shards or the error of the failed one that was joined first. -/
theorem runToCompletion_confluent {job : Job w α} (policy : job.policy = .runToCompletion)
    {W : w → Prop} {result : Nat → Except QueryError (Settlement α)}
    (fixed : job.FixedResults W result) (disjoint : job.DisjointSlots) (concurrency : Nat)
    (scene : Scene w α) (hscene : W scene.world) :
    (∀ schedule : Nat → Move, ∃ n,
      ((start job (max concurrency 1) scene).after job ((List.range n).map schedule)).move job
          (schedule n) =
        (start job (max concurrency 1) scene).after job ((List.range n).map schedule)) ∧
    ∀ moves, ((start job (max concurrency 1) scene).after job moves).IsStuck job →
      Completes job result scene.slots ((start job (max concurrency 1) scene).failures job moves)
        ((start job (max concurrency 1) scene).after job moves) := by
  refine ⟨exists_idle_move job _, fun moves stuck => ?_⟩
  have hover := isOver_after_of_stuck (by omega) stuck
  have recorded := recorded_after job (max concurrency 1) scene moves
  exact completes_of_over fixed disjoint hscene hover (recorded.not_aborted_of_policy policy)

end Run

/-- An endpoint at which every call returns what it was sent. -/
def echo : Endpoint Unit where
  name := "echo"
  ready _ := .ok ()
  submit _ _ := (0, ())
  answer trip _ := (.ok (trip.calls.map fun c => .success c.calldata), 0, ())

/-- Two items in shards of their own.  The first has one call; the registration of the second is
torn down. -/
def tornJob (policy : FailurePolicy) : Job Unit Bytes where
  endpoint := echo
  plan := ⟨2, 1, by decide⟩
  mode := .strict
  block := .latest
  limit := 1
  policy := policy
  register item b :=
    if item = 0 then .ok { b with calls := b.calls ++ [⟨default, [7], 0, .ok⟩] }
    else .error (.panic "torn down")

/-- What the two shards come to. -/
def tornResult (shard : Nat) : Except QueryError (Settlement Bytes) :=
  if shard = 0 then .ok ⟨[true], [(0, [7])]⟩ else .error (.panicked "torn down")

/-- The second shard goes first. -/
def tornMoves : List Move :=
  [⟨.grant, 1⟩, ⟨.register, 1⟩, ⟨.grant, 0⟩, ⟨.register, 0⟩, ⟨.submit, 0⟩, ⟨.join, 1⟩, ⟨.answer, 0⟩,
    ⟨.settle, 0⟩, ⟨.write, 0⟩, ⟨.write, 0⟩, ⟨.join, 0⟩]

theorem count_torn (policy : FailurePolicy) : (tornJob policy).plan.count = 2 := by
  simp [tornJob, ShardPlan.count]

theorem fixedResults_torn (policy : FailurePolicy) :
    (tornJob policy).FixedResults (fun _ => True) tornResult where
  keeps := ⟨fun _ _ _ => trivial, fun _ _ _ => trivial⟩
  completion i hi _ _ _ _ := by
    match i, (count_torn policy ▸ hi : i < 2) with
    | 0, _ => rfl
    | 1, _ => rfl

/-- Only the first shard has a call. -/
theorem disjointSlots_torn (policy : FailurePolicy) : (tornJob policy).DisjointSlots := by
  intro i hi j hj hij k hk
  match i, (count_torn policy ▸ hi : i < 2), j, (count_torn policy ▸ hj : j < 2) with
  | 0, _, 1, _ => exact List.not_mem_nil
  | 1, _, 0, _ => cases hk
  | 0, _, 0, _ => exact absurd rfl hij
  | 1, _, 1, _ => exact absurd rfl hij

/-- One empty slot. -/
def tornScene : Scene Unit Bytes := ⟨(), 0, .empty 1⟩

theorem isOver_torn :
    ((Run.start (tornJob .runToCompletion) 1 tornScene).after (tornJob .runToCompletion)
      tornMoves).IsOver := by
  decide

/-- The second shard is torn down and joined first, and still the first one is carried out. -/
theorem runToCompletion_confluent_torn :
    Run.Completes (tornJob .runToCompletion) tornResult tornScene.slots
      [(1, .panicked "torn down")]
      ((Run.start (tornJob .runToCompletion) 1 tornScene).after (tornJob .runToCompletion)
        tornMoves) := by
  have confluent := Run.runToCompletion_confluent rfl (fixedResults_torn .runToCompletion)
    (disjointSlots_torn .runToCompletion) 1 tornScene trivial
  exact confluent.2 tornMoves isOver_torn.isStuck

namespace Run

/-! ## With cancellation -/

/-- What holds of a run at any moment.  `failures` are the failed shards that were joined so far,
in the order in which they were. -/
structure Guarded (job : Job w α) (failures : List (Nat × QueryError)) (r : Run w α) : Prop where
  /-- The first failure aborts the run, if it is to be aborted. -/
  aborted : r.aborted = true ↔ failures ≠ [] ∧ job.policy = .cancelOnFirstError
  /-- A shard is stopped only after a failure. -/
  stopped : ∀ i < job.plan.count,
    r.phase i = .ended .cancelled ∨ r.phase i = .joined .cancelled → failures ≠ []
  /-- The first failure is recorded. -/
  recorded : r.firstError = failures.head?.map Prod.snd
  /-- Nothing that happens later replaces or clears it. -/
  stays : ∀ cause, r.firstError = some cause →
    ∀ more, (r.after job more).firstError = some cause
  /-- The failed shards have failed. -/
  failed : ∀ i cause, (i, cause) ∈ failures → r.phase i = .joined (.finished (.error cause))

/-- What a run comes to when no shard can move any more. -/
structure Concludes (job : Job w α) (scene : Scene w α) (failures : List (Nat × QueryError))
    (r : Run w α) : Prop where
  /-- The slots hold what the shards have written, one value after the other, and each shard has
  written all that it came to or nothing.  This is what is seen in a slot that calls of no other
  shard are bound to. -/
  atomic : ∃ log : List (Nat × Nat × α), (∀ x ∈ log, x.1 < job.plan.count) ∧
    r.scene.slots = scene.slots.write (log.map Prod.snd) ∧
    ∀ i < job.plan.count, Atomic job (job.Meets scene.world) i (r.phase i) (writtenBy i log) ∧
      ∀ k, (∀ j < job.plan.count, j ≠ i → k ∉ job.slots j) →
        r.scene.slots.get? k = (scene.slots.write (writtenBy i log)).get? k
  /-- A run that succeeds has carried out every shard, and gives one flag per item. -/
  ok : ∀ flags, r.result = .ok flags →
    (∀ i < job.plan.count, ∃ own, r.phase i = .joined (.finished (.ok own))) ∧
      flags.length = job.plan.total ∧ (job.mode = .strict → ∀ flag ∈ flags, flag = true)
  /-- It fails with the error of the failed shard that was joined first. -/
  error_iff : ∀ cause, r.result = .error cause ↔ ∃ i, failures.head? = some (i, cause)

section Stopped

variable {job : Job w α} {W : w → Prop} {before : Slots α} {r : Run w α}
  {log : List (Nat × Nat × α)}

/-- If no failure is recorded, every shard that is joined has succeeded. -/
theorem Recorded.finished_ok (h : Recorded job r) (hnone : r.firstError = none) {i : Nat}
    (hi : i < r.phases.length) {e : Ending} (he : r.phase i = .joined e) :
    ∃ own, e = .finished (.ok own) := by
  cases e with
  | cancelled =>
    have hsome := (h.aborted.1 (h.cancelled i hi (.inr he))).1
    rw [hnone] at hsome
    cases hsome
  | finished own =>
    cases own with
    | ok flags => exact ⟨flags, rfl⟩
    | error cause =>
      have hsome := h.failed i cause he
      rw [hnone] at hsome
      cases hsome

/-- The flags of a strict shard that has succeeded are set. -/
theorem Sound.flagsOf_strict (h : Sound job W before r log) (hmode : job.mode = .strict) {i : Nat}
    (hi : i < job.plan.count) {own : List Bool}
    (hp : r.phase i = .joined (.finished (.ok own))) : ∀ flag ∈ own, flag = true := by
  obtain ⟨world, world', -, -, hown, -⟩ := (h.reached i hi).eq_completion (.inr hp)
  cases hc : job.completion world world' i with
  | error cause =>
    rw [hc] at hown
    cases hown
  | ok done =>
    rw [hc] at hown
    cases hown
    exact Job.flags_of_completion_strict hmode hc

end Stopped

/-- A recorded failure is one that was joined, and stays. -/
theorem guarded_after (job : Job w α) (permits : Nat) (scene : Scene w α) (moves : List Move) :
    Guarded job ((start job permits scene).failures job moves)
      ((start job permits scene).after job moves) := by
  have recorded := recorded_after job permits scene moves
  have hlength := length_phases_after job (start job permits scene) moves
  rw [length_phases_start] at hlength
  have hfirst := firstError_after job (start job permits scene) moves
  have hstart : (start job permits scene).firstError = none := rfl
  rw [hstart, Option.none_or] at hfirst
  have hfailed : ∀ i cause, (i, cause) ∈ (start job permits scene).failures job moves →
      ((start job permits scene).after job moves).phase i = .joined (.finished (.error cause)) :=
    fun i cause => phase_of_mem_failures
  generalize (start job permits scene).after job moves = r at *
  generalize (start job permits scene).failures job moves = failures at *
  have hsome : r.firstError.isSome = true ↔ failures ≠ [] := by
    rw [hfirst]
    cases failures <;> simp
  refine ⟨?_, ?_, hfirst, ?_, hfailed⟩
  · rw [recorded.aborted, hsome]
  · intro i hi hp
    exact hsome.1 (recorded.aborted.1 (recorded.cancelled i (hlength.symm ▸ hi) hp)).1
  · intro cause hcause more
    rw [firstError_after, hcause]
    rfl

/-- What a run comes to when every shard is joined. -/
theorem concludes_of_over {job : Job w α} {permits : Nat} {scene : Scene w α} {moves : List Move}
    (hover : ((start job permits scene).after job moves).IsOver) :
    Concludes job scene ((start job permits scene).failures job moves)
      ((start job permits scene).after job moves) := by
  obtain ⟨log, hsound⟩ := sound_after (job.keeps_meets scene.world) permits .first moves
  have recorded := recorded_after job permits scene moves
  have placed := placed_after job permits scene moves
  have hfirst := (guarded_after job permits scene moves).recorded
  generalize (start job permits scene).after job moves = r at *
  generalize (start job permits scene).failures job moves = failures at *
  have hjoined : ∀ i < job.plan.count, ∃ e, r.phase i = .joined e := fun i hi =>
    hover.exists_joined (hsound.length_phases.symm ▸ hi)
  refine ⟨⟨log, hsound.shards, hsound.slots, ?_⟩, ?_, ?_⟩
  · intro i hi
    obtain ⟨e, he⟩ := hjoined i hi
    have hreached := hsound.reached i hi
    rw [he] at hreached ⊢
    exact ⟨hreached.atomic, fun k own => hsound.get?_slots own⟩
  · intro flags hflags
    obtain ⟨hnone, rfl⟩ := result_eq_ok_iff.1 hflags
    have hok : ∀ i < job.plan.count, ∃ own, r.phase i = .joined (.finished (.ok own)) := by
      intro i hi
      obtain ⟨e, he⟩ := hjoined i hi
      obtain ⟨own, rfl⟩ := recorded.finished_ok hnone (hsound.length_phases.symm ▸ hi) he
      exact ⟨own, he⟩
    refine ⟨hok, placed.length_flags hsound, ?_⟩
    intro hmode flag hflag
    rw [placed] at hflag
    obtain ⟨i, hi, hflag⟩ := List.mem_flatMap.1 hflag
    have hi := List.mem_range.1 hi
    obtain ⟨own, hp⟩ := hok i hi
    rw [flagsOf_of_joined hp] at hflag
    exact hsound.flagsOf_strict hmode hi hp flag hflag
  · intro cause
    rw [result_eq_error_iff, hfirst, Option.map_eq_some_iff]
    simp

/-- Stopping shards is safe, under either policy and whatever the interleaving.  At any moment a
shard has been stopped only if a failure was joined, and the first one that was joined stays
recorded.  When no shard can move any more, every shard has written all or nothing, and the run
either has carried out all of them or fails with the first failure. -/
theorem cancellation_sound (job : Job w α) (concurrency : Nat) (scene : Scene w α)
    (moves : List Move) :
    Guarded job ((start job (max concurrency 1) scene).failures job moves)
        ((start job (max concurrency 1) scene).after job moves) ∧
      (((start job (max concurrency 1) scene).after job moves).IsStuck job →
        Concludes job scene ((start job (max concurrency 1) scene).failures job moves)
          ((start job (max concurrency 1) scene).after job moves)) := by
  refine ⟨guarded_after job (max concurrency 1) scene moves, fun stuck => ?_⟩
  exact concludes_of_over (isOver_after_of_stuck (by omega) stuck)

end Run

end ContractReads.Scheduler
