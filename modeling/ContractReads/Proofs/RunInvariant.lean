import ContractReads.Proofs.ShardCompletion
import ContractReads.Proofs.ShardPartition

/-!
# Invariants of a run

Three invariants hold after any list of moves.

* `Sound`: every shard is in a phase that it can reach, and the slots hold what the shards have
  written, in the order in which they did.  If the slots of different shards are disjoint the
  order does not show: `Sound.slots_eq` sorts the values by shard.
* `Placed`: the flags of a joined shard are at the places of its items, and all others are unset.
* `Recorded`: shards are stopped only after a failure was recorded, and one is recorded if and
  only if a failed shard was joined.  `firstError_after` says which one: the first that was
  joined.
-/

namespace ContractReads.Scheduler.Run

variable {w α : Type}

/-! ## What has been written -/

/-- The values that one shard has written, of those that all shards have. -/
def writtenBy (i : Nat) (log : List (Nat × Nat × α)) : List (Nat × α) :=
  (log.filter fun x => x.1 == i).map Prod.snd

/-- Every shard is in a phase that it can reach, and the slots hold what the shards have written
one after the other. -/
structure Sound (job : Job w α) (W : w → Prop) (before : Slots α) (r : Run w α)
    (log : List (Nat × Nat × α)) : Prop where
  length_phases : r.phases.length = job.plan.count
  world : W r.scene.world
  reached : ∀ i < job.plan.count, Reached job W i (r.phase i) (writtenBy i log)
  slots : r.scene.slots = before.write (log.map Prod.snd)
  shards : ∀ x ∈ log, x.1 < job.plan.count

section Sound

variable {job : Job w α} {W : w → Prop} {before : Slots α} {r r' : Run w α}
  {log : List (Nat × Nat × α)}

theorem writtenBy_append (i : Nat) (xs ys : List (Nat × Nat × α)) :
    writtenBy i (xs ++ ys) = writtenBy i xs ++ writtenBy i ys := by
  simp [writtenBy]

theorem writtenBy_self (i : Nat) (new : List (Nat × α)) :
    writtenBy i (new.map fun x => (i, x)) = new := by
  simp [writtenBy, List.filter_map, Function.comp_def]

theorem writtenBy_of_ne {i j : Nat} (h : j ≠ i) (new : List (Nat × α)) :
    writtenBy j (new.map fun x => (i, x)) = [] := by
  simp [writtenBy, List.filter_map, Function.comp_def, Ne.symm h]

theorem sound_start (job : Job w α) (permits : Nat) {scene : Scene w α} (h : W scene.world) :
    Sound job W scene.slots (start job permits scene) [] where
  length_phases := length_phases_start job permits scene
  world := h
  reached i hi := by
    rw [phase_start job permits scene hi]
    exact .waiting
  slots := rfl
  shards := nofun

/-- A step of one shard keeps the invariant: what it writes comes last. -/
theorem Sound.step (keeps : job.Keeps W) {i : Nat} {p' : Phase α} (h : Sound job W before r log)
    (hstep : Step job r i (r.phase i) p' r') : ∃ log', Sound job W before r' log' := by
  have hi : i < job.plan.count := h.length_phases ▸ hstep.lt_length
  obtain ⟨hworld, new, hreached, hslots⟩ := Step.reached keeps h.world hstep (h.reached i hi)
  refine ⟨log ++ new.map fun x => (i, x), ?_, hworld, ?_, ?_, ?_⟩
  · rw [hstep.length_phases, h.length_phases]
  · intro j hj
    rw [writtenBy_append]
    by_cases hij : j = i
    · subst hij
      rw [hstep.phase_self, writtenBy_self]
      exact hreached
    · rw [hstep.phase_of_ne (Ne.symm hij), writtenBy_of_ne hij, List.append_nil]
      exact h.reached j hj
  · rw [hslots, h.slots, List.map_append, Slots.write_append, List.map_map]
    simp [Function.comp_def]
  · intro x hx
    rcases List.mem_append.1 hx with hx | hx
    · exact h.shards x hx
    · obtain ⟨y, -, rfl⟩ := List.mem_map.1 hx
      exact hi

/-- The invariant holds after any list of moves. -/
theorem sound_after (keeps : job.Keeps W) (permits : Nat) {scene : Scene w α}
    (hscene : W scene.world) (moves : List Move) :
    ∃ log, Sound job W scene.slots ((start job permits scene).after job moves) log :=
  after_induction (P := fun r => ∃ log, Sound job W scene.slots r log)
    ⟨_, sound_start job permits hscene⟩ (fun _ _ _ _ ⟨_, h⟩ hstep => h.step keeps hstep) moves

/-- A value that goes to the end of what its shard has written may as well come last of all, if
no shard behind it writes to its slot. -/
theorem write_flatMap_range {f g : Nat → List (Nat × α)} {i n : Nat} {x : Nat × α}
    (hi : i < n) (hself : g i = f i ++ [x]) (hother : ∀ j, j ≠ i → g j = f j)
    (hdisjoint : ∀ j < n, j ≠ i → ∀ y ∈ f j, y.1 ≠ x.1) (s : Slots α) :
    s.write ((List.range n).flatMap g) = (s.write ((List.range n).flatMap f)).write [x] := by
  have hcomm : ∀ y ∈ (List.range' (i + 1) (n - i - 1)).flatMap f, ∀ z ∈ [x], y.1 ≠ z.1 := by
    intro y hy z hz
    obtain ⟨j, hj, hyj⟩ := List.mem_flatMap.1 hy
    have := List.mem_range'_1.1 hj
    obtain rfl := List.mem_singleton.1 hz
    exact hdisjoint j (by omega) (by omega) y hyj
  rw [flatMap_range_of_ne hi hother, flatMap_range_split f hi, hself]
  simp only [Slots.write_append]
  exact (Slots.write_comm hcomm).symm

/-- Values of shards that have no slot in common may be written shard by shard. -/
theorem write_sorted {n : Nat} {log : List (Nat × Nat × α)} (hshards : ∀ x ∈ log, x.1 < n)
    (hdisjoint : ∀ x ∈ log, ∀ y ∈ log, x.1 ≠ y.1 → x.2.1 ≠ y.2.1) (s : Slots α) :
    s.write (log.map Prod.snd) = s.write ((List.range n).flatMap fun i => writtenBy i log) := by
  induction log using List.reverseRecOn with
  | nil =>
    have hnone : ((List.range n).flatMap fun i => writtenBy i ([] : List (Nat × Nat × α))) = [] :=
      List.flatMap_eq_nil_iff.2 fun _ _ => rfl
    rw [hnone]
    rfl
  | append_singleton log x ih =>
    have hlog : ∀ y ∈ log, y ∈ log ++ [x] := fun y hy => List.mem_append_left _ hy
    have hx : x ∈ log ++ [x] := List.mem_append_right _ (List.mem_singleton_self x)
    rw [List.map_append, Slots.write_append,
      ih (fun y hy => hshards y (hlog y hy))
        (fun y hy z hz => hdisjoint y (hlog y hy) z (hlog z hz))]
    symm
    refine write_flatMap_range (f := fun i => writtenBy i log) (i := x.1) (hshards x hx) ?_ ?_ ?_ s
    · rw [writtenBy_append]
      congr 1
      exact writtenBy_self x.1 [x.2]
    · intro j hj
      rw [writtenBy_append]
      have hnone : writtenBy j [x] = [] := writtenBy_of_ne hj [x.2]
      rw [hnone, List.append_nil]
    · intro j hj hjx y hy
      obtain ⟨z, hz, rfl⟩ := List.mem_map.1 hy
      obtain ⟨hz, hzj⟩ := List.mem_filter.1 hz
      have hzj : z.1 = j := by simpa using hzj
      exact hdisjoint z (hlog z hz) x hx (by rw [hzj]; exact hjx)

/-- What a shard has written is in slots that its calls are bound to. -/
theorem Sound.mem_slots (h : Sound job W before r log) {x : Nat × Nat × α} (hx : x ∈ log) :
    x.2.1 ∈ job.slots x.1 := by
  apply (h.reached x.1 (h.shards x hx)).mem_slots x.2
  exact List.mem_map.2 ⟨x, List.mem_filter.2 ⟨hx, by simp⟩, rfl⟩

/-- If no two shards have a slot in common, the slots are as if the shards had written one after
the other. -/
theorem Sound.slots_eq (disjoint : job.DisjointSlots) (h : Sound job W before r log) :
    r.scene.slots =
      before.write ((List.range job.plan.count).flatMap fun i => writtenBy i log) := by
  rw [h.slots]
  refine write_sorted h.shards ?_ before
  intro x hx y hy hne hslot
  have hxs := h.mem_slots hx
  have hys := h.mem_slots hy
  rw [hslot] at hxs
  exact disjoint x.1 (h.shards x hx) y.1 (h.shards y hy) hne y.2.1 hxs hys

/-- In a slot that only one shard writes to is what that shard has written. -/
theorem get?_write_writtenBy {i k : Nat} {log : List (Nat × Nat × α)} {s t : Slots α}
    (own : ∀ x ∈ log, x.2.1 = k → x.1 = i) (hsize : s.size = t.size) (h : s.get? k = t.get? k) :
    (s.write (log.map Prod.snd)).get? k = (t.write (writtenBy i log)).get? k := by
  induction log generalizing s t with
  | nil => exact h
  | cons x log ih =>
    have hrest : ∀ y ∈ log, y.2.1 = k → y.1 = i := fun y hy => own y (List.mem_cons_of_mem x hy)
    by_cases hx : x.1 = i
    · have hwritten : writtenBy i (x :: log) = x.2 :: writtenBy i log := by simp [writtenBy, hx]
      rw [hwritten, List.map_cons, Slots.write_cons, Slots.write_cons]
      exact ih hrest (by simpa using hsize) (Slots.get?_set_congr hsize h x.2.1 x.2.2)
    · have hwritten : writtenBy i (x :: log) = writtenBy i log := by simp [writtenBy, hx]
      rw [hwritten, List.map_cons, Slots.write_cons]
      apply ih hrest (by simpa using hsize)
      rw [Slots.get?_set_of_ne s fun hk => hx (own x List.mem_cons_self hk), h]

/-- In a slot that calls of no other shard are bound to is what the shard has written. -/
theorem Sound.get?_slots (h : Sound job W before r log) {i k : Nat}
    (own : ∀ j < job.plan.count, j ≠ i → k ∉ job.slots j) :
    r.scene.slots.get? k = (before.write (writtenBy i log)).get? k := by
  rw [h.slots]
  refine get?_write_writtenBy (fun x hx hxk => ?_) rfl rfl
  by_contra hxi
  have hslot := h.mem_slots hx
  rw [hxk] at hslot
  exact own x.1 (h.shards x hx) hxi hslot

end Sound

/-! ## What joining changes -/

section Joining

variable {job : Job w α} {r r' : Run w α} {i : Nat} {p p' : Phase α}

/-- Only joining changes the flags of the run, its first error and whether it is aborted. -/
theorem Step.joins (h : Step job r i p p' r') :
    (∃ e, p' = .joined e ∧ r'.flags = (r.takeIn job i e).flags ∧
      r'.firstError = (r.takeIn job i e).firstError ∧
      r'.aborted = (r.takeIn job i e).aborted) ∨
    (p'.isJoined = false ∧ r'.flags = r.flags ∧ r'.firstError = r.firstError ∧
      r'.aborted = r.aborted) := by
  cases h with
  | @joined e =>
    refine .inl ⟨e, rfl, ?_⟩
    unfold takeIn recordFailure
    cases e with
    | cancelled => exact ⟨rfl, rfl, rfl⟩
    | finished result =>
      cases result with
      | ok flags => exact ⟨rfl, rfl, rfl⟩
      | error cause =>
        simp only [setPhase]
        split <;> exact ⟨rfl, rfl, rfl⟩
  | _ => exact .inr ⟨rfl, rfl, rfl, rfl⟩

/-- The first failure stays. -/
theorem takeIn_error_of_some {e first : QueryError} (h : r.firstError = some first) :
    r.takeIn job i (.finished (.error e)) = r := by
  simp [takeIn, recordFailure, h]

/-- The first failure is recorded, and may abort the run. -/
theorem takeIn_error_of_none {e : QueryError} (h : r.firstError = none) :
    r.takeIn job i (.finished (.error e)) =
      { r with firstError := some e, aborted := job.policy == .cancelOnFirstError } := by
  simp [takeIn, recordFailure, h]

end Joining

/-! ## Where the flags are -/

/-- The flags that stand at the places of a shard's items. -/
def flagsOf (job : Job w α) (r : Run w α) (i : Nat) : List Bool :=
  match r.phase i with
  | .joined (.finished (.ok flags)) => flags
  | _ => List.replicate (job.plan.items i).length false

/-- The flags of the run are those of its shards, one shard after the other. -/
def Placed (job : Job w α) (r : Run w α) : Prop :=
  r.flags = (List.range job.plan.count).flatMap (r.flagsOf job)

section Placed

variable {job : Job w α} {W : w → Prop} {before : Slots α} {r r' : Run w α}
  {log : List (Nat × Nat × α)} {i : Nat} {p' : Phase α}

theorem flagsOf_of_joined {flags : List Bool} (h : r.phase i = .joined (.finished (.ok flags))) :
    r.flagsOf job i = flags := by
  rw [flagsOf, h]

/-- Until flags are joined, those of all items are unset. -/
theorem flagsOf_of_not_finished (h : ∀ flags, r.phase i ≠ .joined (.finished (.ok flags))) :
    r.flagsOf job i = List.replicate (job.plan.items i).length false := by
  unfold flagsOf
  split
  · rename_i flags hp
    exact absurd hp (h flags)
  · rfl

theorem flagsOf_of_not_joined (h : (r.phase i).isJoined = false) :
    r.flagsOf job i = List.replicate (job.plan.items i).length false := by
  refine flagsOf_of_not_finished fun flags hp => ?_
  rw [hp] at h
  cases h

theorem flagsOf_congr {j : Nat} (h : r'.phase j = r.phase j) :
    r'.flagsOf job j = r.flagsOf job j := by
  rw [flagsOf, flagsOf, h]

/-- A shard has one flag for each of its items, joined or not. -/
theorem Sound.length_flagsOf (h : Sound job W before r log) (hi : i < job.plan.count) :
    (r.flagsOf job i).length = (job.plan.items i).length := by
  by_cases hp : ∃ flags, r.phase i = .joined (.finished (.ok flags))
  · obtain ⟨flags, hp⟩ := hp
    obtain ⟨world, world', -, -, hflags, -⟩ := (h.reached i hi).eq_completion (.inr hp)
    rw [flagsOf_of_joined hp]
    cases hc : job.completion world world' i with
    | error e =>
      rw [hc] at hflags
      cases hflags
    | ok done =>
      rw [hc] at hflags
      cases hflags
      exact Job.length_flags_of_completion hc
  · rw [flagsOf_of_not_finished fun flags hflags => hp ⟨flags, hflags⟩, List.length_replicate]

/-- The middle of three parts is replaced by a list of its length. -/
theorem splice_append {β : Type} (xs ys zs ys' : List β) (h : ys'.length = ys.length) :
    splice (xs ++ ys ++ zs) xs.length ys' = xs ++ ys' ++ zs := by
  rw [splice, h, ← List.length_append, List.drop_left, List.append_assoc xs ys zs, List.take_left]

theorem placed_start (job : Job w α) (permits : Nat) (scene : Scene w α) :
    Placed job (start job permits scene) := by
  have hflags : ∀ i ∈ List.range job.plan.count, (start job permits scene).flagsOf job i =
      (job.plan.items i).map fun _ => false := by
    intro i hi
    rw [flagsOf_of_not_joined, List.map_const']
    rw [phase_start job permits scene (List.mem_range.1 hi)]
    rfl
  rw [Placed, List.flatMap_congr hflags, ← List.map_flatMap, ShardPlan.flatMap_items,
    List.map_const', List.length_range]
  rfl

/-- The first shards have one flag for each of their items. -/
theorem Sound.length_flatMap_flagsOf (h : Sound job W before r log) {n : Nat}
    (hn : n ≤ job.plan.count) :
    ((List.range n).flatMap (r.flagsOf job)).length =
      ((List.range n).flatMap job.plan.items).length := by
  rw [List.length_flatMap, List.length_flatMap]
  congr 1
  refine List.map_congr_left fun j hj => h.length_flagsOf ?_
  exact Nat.lt_of_lt_of_le (List.mem_range.1 hj) hn

/-- There is one flag for each item. -/
theorem Placed.length_flags (h : Placed job r) (hsound : Sound job W before r log) :
    r.flags.length = job.plan.total := by
  rw [h, hsound.length_flatMap_flagsOf (Nat.le_refl _), ShardPlan.flatMap_items,
    List.length_range]

/-- Joining a shard puts its flags to the places of its items, and no other flag changes. -/
theorem Placed.step (h : Placed job r) (hsound : Sound job W before r log)
    (hsound' : ∃ log', Sound job W before r' log')
    (hstep : Step job r i (r.phase i) p' r') : Placed job r' := by
  obtain ⟨log', hsound'⟩ := hsound'
  have hi : i < job.plan.count := hsound.length_phases ▸ hstep.lt_length
  have hother : ∀ j, j ≠ i → r'.flagsOf job j = r.flagsOf job j := fun j hj =>
    flagsOf_congr (hstep.phase_of_ne (Ne.symm hj))
  have hunset : r.flagsOf job i = List.replicate (job.plan.items i).length false :=
    flagsOf_of_not_joined hstep.not_joined
  -- A step that leaves the flags of the run leaves those of its shard unset.
  have hkeep : (∀ flags, p' ≠ .joined (.finished (.ok flags))) → r'.flags = r.flags →
      Placed job r' := by
    intro hp' hflags
    have hsame : ∀ j ∈ List.range job.plan.count, r'.flagsOf job j = r.flagsOf job j := by
      intro j _
      by_cases hj : j = i
      · subst hj
        rw [hunset, flagsOf_of_not_finished]
        rw [hstep.phase_self]
        exact hp'
      · exact hother j hj
    rw [Placed, hflags, List.flatMap_congr hsame]
    exact h
  rcases hstep.joins with ⟨e, rfl, hflags, -, -⟩ | ⟨hp', hflags, -, -⟩
  · cases e with
    | cancelled => exact hkeep nofun hflags
    | finished result =>
      cases result with
      | error cause =>
        refine hkeep nofun (hflags.trans ?_)
        simp only [takeIn, recordFailure]
        split <;> rfl
      | ok flags =>
        have hself : r'.flagsOf job i = flags := flagsOf_of_joined hstep.phase_self
        have hlength : flags.length = (r.flagsOf job i).length := by
          rw [← hself, hsound'.length_flagsOf hi, hsound.length_flagsOf hi]
        rw [Placed, flatMap_range_of_ne hi hother, hself, hflags]
        simp only [takeIn]
        rw [h, flatMap_range_split (r.flagsOf job) hi, ← ShardPlan.length_flatMap_items _ hi,
          ← hsound.length_flatMap_flagsOf (Nat.le_of_lt hi)]
        exact splice_append _ _ _ _ hlength
  · refine hkeep ?_ hflags
    rintro flags rfl
    cases hp'

/-- The flags are at their places after any list of moves. -/
theorem placed_after (job : Job w α) (permits : Nat) (scene : Scene w α) (moves : List Move) :
    Placed job ((start job permits scene).after job moves) := by
  have keeps : job.Keeps fun _ => True := ⟨fun _ _ _ => trivial, fun _ _ _ => trivial⟩
  have hboth := after_induction
    (P := fun r => (∃ log, Sound job (fun _ => True) scene.slots r log) ∧ Placed job r)
    ⟨⟨_, sound_start job permits trivial⟩, placed_start job permits scene⟩
    (fun _ _ _ _ ⟨⟨_, hsound⟩, hplaced⟩ hstep =>
      have hsound' := hsound.step keeps hstep
      ⟨hsound', hplaced.step hsound hsound' hstep⟩) moves
  exact hboth.2

end Placed

/-! ## What has been recorded -/

/-- The first failure aborts the run if it is to, shards are stopped only then, and a failure is
recorded if and only if a failed shard was joined. -/
structure Recorded (job : Job w α) (r : Run w α) : Prop where
  aborted : r.aborted = true ↔ r.firstError.isSome = true ∧ job.policy = .cancelOnFirstError
  cancelled : ∀ i < r.phases.length,
    r.phase i = .ended .cancelled ∨ r.phase i = .joined .cancelled → r.aborted = true
  failed : ∀ i e, r.phase i = .joined (.finished (.error e)) → r.firstError.isSome = true
  first : ∀ e, r.firstError = some e → ∃ i < r.phases.length,
    r.phase i = .joined (.finished (.error e))

section Recorded

variable {job : Job w α} {r r' : Run w α} {i : Nat} {p' : Phase α}

theorem recorded_start (job : Job w α) (permits : Nat) (scene : Scene w α) :
    Recorded job (start job permits scene) := by
  have hphase : ∀ i < (start job permits scene).phases.length,
      (start job permits scene).phase i = .waiting := fun i hi =>
    phase_start job permits scene (length_phases_start job permits scene ▸ hi)
  refine ⟨by simp [start], ?_, ?_, nofun⟩
  · intro i hi hp
    rw [hphase i hi] at hp
    rcases hp with hp | hp <;> cases hp
  · intro i e hp
    by_cases hi : i < (start job permits scene).phases.length
    · rw [hphase i hi] at hp
      cases hp
    · rw [phase_of_length_le (Nat.le_of_not_lt hi)] at hp
      cases hp

/-- A shard is stopped only when the run is aborted. -/
theorem Step.aborted_of_cancelled {p : Phase α} (h : Step job r i p (.ended .cancelled) r') :
    r.aborted = true := by
  cases h with
  | stopped aborted _ => exact aborted

/-- A shard is joined when it has ended. -/
theorem Step.ended_of_joined {p : Phase α} {e : Ending} (h : Step job r i p (.joined e) r') :
    p = .ended e := by
  cases h
  rfl

/-- A step that records nothing keeps the records right. -/
theorem Recorded.of_same (h : Recorded job r) (hstep : Step job r i (r.phase i) p' r')
    (hfirst : r'.firstError = r.firstError) (haborted : r'.aborted = r.aborted)
    (hfailed : ∀ e, p' = .joined (.finished (.error e)) → r.firstError.isSome = true)
    (hcancelled : p' = .ended .cancelled ∨ p' = .joined .cancelled → r.aborted = true) :
    Recorded job r' := by
  refine ⟨?_, ?_, ?_, ?_⟩
  · rw [haborted, hfirst]
    exact h.aborted
  · intro j hj hphase
    rw [haborted]
    by_cases hij : i = j
    · subst hij
      rw [hstep.phase_self] at hphase
      exact hcancelled hphase
    · rw [hstep.phase_of_ne hij] at hphase
      exact h.cancelled j (hstep.length_phases ▸ hj) hphase
  · intro j e hphase
    rw [hfirst]
    by_cases hij : i = j
    · subst hij
      rw [hstep.phase_self] at hphase
      exact hfailed e hphase
    · rw [hstep.phase_of_ne hij] at hphase
      exact h.failed j e hphase
  · intro e he
    rw [hfirst] at he
    obtain ⟨j, hj, hphase⟩ := h.first e he
    exact ⟨j, hstep.length_phases.symm ▸ hj, hstep.phase_of_joined hphase⟩

theorem Recorded.step (h : Recorded job r) (hstep : Step job r i (r.phase i) p' r') :
    Recorded job r' := by
  rcases hstep.joins with ⟨e, rfl, -, hfirst, haborted⟩ | ⟨hp', -, hfirst, haborted⟩
  · have hended := hstep.ended_of_joined
    cases e with
    | cancelled =>
      exact h.of_same hstep hfirst haborted nofun
        fun _ => h.cancelled i hstep.lt_length (.inl hended)
    | finished result =>
      cases result with
      | ok flags => exact h.of_same hstep hfirst haborted nofun (by rintro (hp | hp) <;> cases hp)
      | error e =>
        cases hr : r.firstError with
        | some first =>
          rw [takeIn_error_of_some hr] at hfirst haborted
          exact h.of_same hstep hfirst haborted (fun _ _ => by rw [hr]; rfl)
            (by rintro (hp | hp) <;> cases hp)
        | none =>
          rw [takeIn_error_of_none hr] at hfirst haborted
          have hsome : r'.firstError.isSome = true := by
            rw [hfirst]
            rfl
          -- Before its first failure the run was not aborted, so no shard had been stopped.
          have hnot : r.aborted ≠ true := by
            intro hr'
            have hrecorded := (h.aborted.1 hr').1
            rw [hr] at hrecorded
            cases hrecorded
          refine ⟨?_, ?_, fun _ _ _ => hsome, ?_⟩
          · rw [haborted, beq_iff_eq]
            exact ⟨fun hpolicy => ⟨hsome, hpolicy⟩, And.right⟩
          · intro j hj hphase
            have hij : i ≠ j := by
              rintro rfl
              rw [hstep.phase_self] at hphase
              rcases hphase with hp | hp <;> cases hp
            rw [hstep.phase_of_ne hij] at hphase
            exact absurd (h.cancelled j (hstep.length_phases ▸ hj) hphase) hnot
          · intro e' he'
            rw [hfirst] at he'
            cases he'
            exact ⟨i, hstep.length_phases.symm ▸ hstep.lt_length, hstep.phase_self⟩
  · refine h.of_same hstep hfirst haborted ?_ ?_
    · rintro e rfl
      cases hp'
    · rintro (rfl | rfl)
      · exact hstep.aborted_of_cancelled
      · cases hp'

/-- The records are right after any list of moves. -/
theorem recorded_after (job : Job w α) (permits : Nat) (scene : Scene w α) (moves : List Move) :
    Recorded job ((start job permits scene).after job moves) :=
  after_induction (P := Recorded job) (recorded_start job permits scene)
    (fun _ _ _ _ h hstep => h.step hstep) moves

/-- A move records the failure that it joins, unless there is one already. -/
theorem firstError_move (job : Job w α) (r : Run w α) (m : Move) :
    (r.move job m).firstError = r.firstError.or ((r.failureOf m).map Prod.snd) := by
  obtain ⟨action, i⟩ := m
  cases action with
  | join =>
    simp only [move, join, failureOf]
    cases r.phase i with
    | ended e =>
      cases e with
      | cancelled => simp [takeIn, setPhase]
      | finished result =>
        cases result with
        | ok flags => simp [takeIn, setPhase]
        | error e => cases hr : r.firstError <;> simp [takeIn, recordFailure, setPhase, hr]
    | _ => simp
  | grant => simp only [move, grant, failureOf]; split <;> simp [setPhase]
  | register =>
    simp only [move, register, failureOf]
    split
    · split <;> simp [finish, setPhase]
    · simp
  | submit =>
    simp only [move, submit, failureOf]
    split
    · split <;> simp [finish, setPhase]
    · simp
  | answer => simp only [move, answer, failureOf]; split <;> simp [setPhase]
  | settle =>
    simp only [move, settle, failureOf]
    split
    · split <;> simp [finish, setPhase]
    · simp
  | write => simp only [move, write, failureOf]; split <;> simp [finish, setPhase]
  | stop => simp only [move, stop, failureOf]; split <;> simp [setPhase]

/-- The failed shard that a move joins is joined then. -/
theorem phase_move_of_failureOf (job : Job w α) {r : Run w α} {m : Move} {i : Nat}
    {e : QueryError} (h : r.failureOf m = some (i, e)) :
    (r.move job m).phase i = .joined (.finished (.error e)) := by
  obtain ⟨action, shard⟩ := m
  unfold failureOf at h
  split at h
  · rename_i hjoin hp
    cases h
    cases hjoin
    exact phase_join job hp
  · cases h

/-- A joined shard stays as it is. -/
theorem phase_after_of_joined (job : Job w α) {r : Run w α} {i : Nat} {e : Ending}
    (h : r.phase i = .joined e) (moves : List Move) : (r.after job moves).phase i = .joined e :=
  after_induction (P := fun r => r.phase i = .joined e) h
    (fun _ _ _ _ hp hstep => hstep.phase_of_joined hp) moves

/-- The failed shards that were joined have failed. -/
theorem phase_of_mem_failures {job : Job w α} {r : Run w α} {moves : List Move} {i : Nat}
    {e : QueryError} (h : (i, e) ∈ r.failures job moves) :
    (r.after job moves).phase i = .joined (.finished (.error e)) := by
  induction moves generalizing r with
  | nil => cases h
  | cons m moves ih =>
    rcases List.mem_append.1 h with hhere | hlater
    · rw [Option.mem_toList] at hhere
      exact phase_after_of_joined job (phase_move_of_failureOf job hhere) moves
    · exact ih hlater

/-- The first error of a run is the first failure that was joined. -/
theorem firstError_after (job : Job w α) (r : Run w α) (moves : List Move) :
    (r.after job moves).firstError =
      r.firstError.or ((r.failures job moves).head?.map Prod.snd) := by
  induction moves generalizing r with
  | nil => simp [failures]
  | cons m moves ih =>
    rw [after_cons, ih, firstError_move, failures]
    cases r.firstError with
    | some e => rfl
    | none => cases r.failureOf m <;> rfl

end Recorded

end ContractReads.Scheduler.Run
