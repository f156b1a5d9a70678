import Mathlib
import ContractReads.Scheduler.Run

/-!
# Interleavings of shards

A run goes on by moves: one shard takes one action.  Any list of moves is an interleaving of the
shards; an action that a shard cannot take changes nothing.  `Run.after` is the run after such a
list and `Run.failures` are the failed shards that are joined on the way, in the order of the
joins.

* `Step` says what a move can do, with everything it depends on.  `step_of_move` is the only place
  where the actions are opened; every invariant below and in other modules is shown for a `Step`
  and carried along a list of moves by `after_induction`.
* `permits_after`: free permits and held permits are as many as at the start.
* `exists_next_of_unfinished`: as long as a shard has not ended, one can go on.
* `isOver_of_stuck`: a run in which no shard can move has joined every shard.
* `exists_idle_move`: shards cannot move for ever.
-/

namespace ContractReads.Scheduler

variable {w α : Type}

/-- What a shard can do. -/
inductive Action
  | grant
  | register
  | submit
  | answer
  | settle
  | write
  | stop
  | join
deriving DecidableEq, Repr

/-- One shard takes one action. -/
structure Move where
  action : Action
  shard : Nat
deriving DecidableEq, Repr

/-- What a shard in this phase does next of its own accord. -/
def Phase.next : Phase α → Option Action
  | waiting => some .grant
  | holding => some .register
  | registered _ => some .submit
  | inFlight _ => some .answer
  | answered _ _ => some .settle
  | writing _ _ => some .write
  | ended _ => some .join
  | joined _ => none

/-- Whether a shard in this phase has not ended: it waits for a permit or holds one. -/
def Phase.isUnfinished : Phase α → Bool
  | ended _ | joined _ => false
  | _ => true

namespace Run

/-- The run after a move. -/
def move (job : Job w α) (r : Run w α) (m : Move) : Run w α :=
  match m.action with
  | .grant => r.grant m.shard
  | .register => r.register job m.shard
  | .submit => (r.submit job m.shard).2
  | .answer => (r.answer job m.shard).2
  | .settle => r.settle job m.shard
  | .write => r.write m.shard
  | .stop => r.stop m.shard
  | .join => r.join job m.shard

/-- The run after a list of moves. -/
def after (job : Job w α) (r : Run w α) (moves : List Move) : Run w α :=
  moves.foldl (move job) r

/-- The shard that a move joins, and its error, if it has failed. -/
def failureOf (r : Run w α) (m : Move) : Option (Nat × QueryError) :=
  match m.action, r.phase m.shard with
  | .join, .ended (.finished (.error e)) => some (m.shard, e)
  | _, _ => none

/-- The failed shards that are joined on the way and their errors, in the order of the joins. -/
def failures (job : Job w α) (r : Run w α) : List Move → List (Nat × QueryError)
  | [] => []
  | m :: moves => (r.failureOf m).toList ++ failures job (r.move job m) moves

/-- No shard can move. -/
def IsStuck (job : Job w α) (r : Run w α) : Prop := ∀ m, r.move job m = r

/-- Every shard is joined. -/
def IsOver (r : Run w α) : Prop := ∀ p ∈ r.phases, p.isJoined = true

instance (r : Run w α) : Decidable r.IsOver := inferInstanceAs (Decidable (∀ p ∈ r.phases, _))

@[simp] theorem after_nil (job : Job w α) (r : Run w α) : r.after job [] = r := rfl

@[simp] theorem after_cons (job : Job w α) (r : Run w α) (m : Move) (moves : List Move) :
    r.after job (m :: moves) = (r.move job m).after job moves := rfl

theorem after_append (job : Job w α) (r : Run w α) (xs ys : List Move) :
    r.after job (xs ++ ys) = (r.after job xs).after job ys :=
  List.foldl_append

/-! ## Phases -/

theorem phase_eq_getElem {r : Run w α} {i : Nat} (h : i < r.phases.length) :
    r.phase i = r.phases[i] := by
  simp [phase, h]

/-- Behind the last shard every phase counts as joined. -/
theorem phase_of_length_le {r : Run w α} {i : Nat} (h : r.phases.length ≤ i) :
    r.phase i = .joined .cancelled := by
  simp [phase, h]

/-- Only the shards of the run are anywhere else. -/
theorem lt_length_of_not_joined {r : Run w α} {i : Nat} (h : (r.phase i).isJoined = false) :
    i < r.phases.length := by
  by_contra hi
  rw [phase_of_length_le (Nat.le_of_not_lt hi)] at h
  cases h

theorem lt_length_of_phase_eq {r : Run w α} {i : Nat} {p : Phase α} (h : r.phase i = p)
    (hp : p.isJoined = false) : i < r.phases.length := by
  apply lt_length_of_not_joined
  rw [h, hp]

theorem phase_of_phases_set_self {r r' : Run w α} {i : Nat} {p : Phase α}
    (h : r'.phases = r.phases.set i p) (hi : i < r.phases.length) : r'.phase i = p := by
  simp [phase, h, hi]

theorem phase_of_phases_set_of_ne {r r' : Run w α} {i j : Nat} {p : Phase α}
    (h : r'.phases = r.phases.set i p) (hij : i ≠ j) : r'.phase j = r.phase j := by
  simp [phase, h, hij]

theorem isOver_iff {r : Run w α} :
    r.IsOver ↔ ∀ i < r.phases.length, (r.phase i).isJoined = true := by
  constructor
  · intro h i hi
    rw [phase_eq_getElem hi]
    exact h _ (List.getElem_mem hi)
  · intro h p hp
    obtain ⟨i, hi, rfl⟩ := List.getElem_of_mem hp
    rw [← phase_eq_getElem hi]
    exact h i hi

/-- Taking in an ending changes the flags, the first error and whether the run is aborted. -/
theorem takeIn_eq (job : Job w α) (r : Run w α) (i : Nat) (e : Ending) :
    ∃ flags first aborted, r.takeIn job i e =
      { r with flags := flags, firstError := first, aborted := aborted } := by
  unfold takeIn recordFailure
  split
  · exact ⟨_, r.firstError, r.aborted, rfl⟩
  · split
    · exact ⟨r.flags, r.firstError, r.aborted, rfl⟩
    · exact ⟨r.flags, _, _, rfl⟩
  · exact ⟨r.flags, r.firstError, r.aborted, rfl⟩

@[simp] theorem phases_takeIn (job : Job w α) (r : Run w α) (i : Nat) (e : Ending) :
    (r.takeIn job i e).phases = r.phases := by
  obtain ⟨_, _, _, h⟩ := takeIn_eq job r i e
  rw [h]

@[simp] theorem scene_takeIn (job : Job w α) (r : Run w α) (i : Nat) (e : Ending) :
    (r.takeIn job i e).scene = r.scene := by
  obtain ⟨_, _, _, h⟩ := takeIn_eq job r i e
  rw [h]

@[simp] theorem freePermits_takeIn (job : Job w α) (r : Run w α) (i : Nat) (e : Ending) :
    (r.takeIn job i e).freePermits = r.freePermits := by
  obtain ⟨_, _, _, h⟩ := takeIn_eq job r i e
  rw [h]

/-! ## What a move can do -/

/-- A shard goes from one phase to another, and the run changes with it. -/
inductive Step (job : Job w α) (r : Run w α) (i : Nat) : Phase α → Phase α → Run w α → Prop
  | granted {free : Nat} (permit : r.freePermits = free + 1) :
    Step job r i .waiting .holding { r.setPhase i .holding with freePermits := free }
  | refused {e : QueryError} (load : job.load r.scene.world i = .error e) :
    Step job r i .holding (.ended (.finished (.error e))) (r.finish i (.error e))
  | registered {s : Shipment α} (load : job.load r.scene.world i = .ok s) :
    Step job r i .holding (.registered s) (r.setPhase i (.registered s))
  | skipped {s : Shipment α} (empty : s.batch.isEmpty = true) :
    Step job r i (.registered s) (.ended (.finished (.ok (itemFlags s.callCounts []))))
      (r.finish i (.ok (itemFlags s.callCounts [])))
  | submitted {s : Shipment α} (calls : s.batch.isEmpty = false) :
    Step job r i (.registered s) (.inFlight s)
      { r.setPhase i (.inFlight s) with
        scene := { r.scene with world := (job.endpoint.submit (job.trip s) r.scene.world).2 } }
  | answered {s : Shipment α} :
    Step job r i (.inFlight s)
      (.answered s (job.endpoint.answer (job.trip s) r.scene.world).1)
      { r.setPhase i (.answered s (job.endpoint.answer (job.trip s) r.scene.world).1) with
        scene := { r.scene with world := (job.endpoint.answer (job.trip s) r.scene.world).2.2 } }
  | rejected {s : Shipment α} {a : Answer} {e : QueryError} (settle : job.settle s a = .error e) :
    Step job r i (.answered s a) (.ended (.finished (.error e))) (r.finish i (.error e))
  | settled {s : Shipment α} {a : Answer} {done : Settlement α}
    (settle : job.settle s a = .ok done) :
    Step job r i (.answered s a) (.writing done.flags done.writes)
      (r.setPhase i (.writing done.flags done.writes))
  | wrote {flags : List Bool} {x : Nat × α} {writes : List (Nat × α)} :
    Step job r i (.writing flags (x :: writes)) (.writing flags writes)
      { r.setPhase i (.writing flags writes) with
        scene := { r.scene with slots := r.scene.slots.set x.1 x.2 } }
  | finished {flags : List Bool} :
    Step job r i (.writing flags []) (.ended (.finished (.ok flags))) (r.finish i (.ok flags))
  | stopped {p : Phase α} (aborted : r.aborted = true) (suspended : p.isSuspended = true) :
    Step job r i p (.ended .cancelled)
      { r.setPhase i (.ended .cancelled) with
        freePermits := r.freePermits + p.holdsPermit.toNat }
  | joined {e : Ending} :
    Step job r i (.ended e) (.joined e) ((r.setPhase i (.joined e)).takeIn job i e)

/-- A move changes nothing or is a step. -/
theorem step_of_move (job : Job w α) (r : Run w α) (m : Move) :
    r.move job m = r ∨ ∃ p', Step job r m.shard (r.phase m.shard) p' (r.move job m) := by
  obtain ⟨action, i⟩ := m
  generalize hp : r.phase i = p
  cases action with
  | grant =>
    simp only [move, grant, hp]
    split
    · rename_i free hfree
      exact .inr ⟨_, .granted hfree⟩
    · exact .inl rfl
  | register =>
    simp only [move, register, hp]
    split
    · split
      · rename_i e hload
        exact .inr ⟨_, .refused hload⟩
      · rename_i s hload
        exact .inr ⟨_, .registered hload⟩
    · exact .inl rfl
  | submit =>
    simp only [move, submit, hp]
    split
    · split
      · rename_i hempty
        exact .inr ⟨_, .skipped hempty⟩
      · rename_i hempty
        exact .inr ⟨_, .submitted (by simpa using hempty)⟩
    · exact .inl rfl
  | answer =>
    simp only [move, answer, hp]
    split
    · exact .inr ⟨_, .answered⟩
    · exact .inl rfl
  | settle =>
    simp only [move, settle, hp]
    split
    · split
      · rename_i e hsettle
        exact .inr ⟨_, .rejected hsettle⟩
      · rename_i done hsettle
        exact .inr ⟨_, .settled hsettle⟩
    · exact .inl rfl
  | write =>
    simp only [move, write, hp]
    split
    · exact .inr ⟨_, .finished⟩
    · exact .inr ⟨_, .wrote⟩
    · exact .inl rfl
  | stop =>
    simp only [move, stop, hp]
    split
    · rename_i hstop
      obtain ⟨haborted, hsuspended⟩ := Bool.and_eq_true_iff.1 hstop
      exact .inr ⟨_, .stopped haborted hsuspended⟩
    · exact .inl rfl
  | join =>
    simp only [move, join, hp]
    split
    · exact .inr ⟨_, .joined⟩
    · exact .inl rfl

section Step

variable {job : Job w α} {r r' : Run w α} {i : Nat} {p p' : Phase α}

/-- Only the phase of the shard changes. -/
theorem Step.phases_eq (h : Step job r i p p' r') : r'.phases = r.phases.set i p' := by
  cases h <;> first | rfl | simp [setPhase]

/-- A joined shard takes no step. -/
theorem Step.not_joined (h : Step job r i p p' r') : p.isJoined = false := by
  cases h with
  | stopped _ suspended => cases p <;> first | rfl | cases suspended
  | _ => rfl

theorem Step.lt_length (h : Step job r i (r.phase i) p' r') : i < r.phases.length :=
  lt_length_of_not_joined h.not_joined

theorem Step.phase_self (h : Step job r i (r.phase i) p' r') : r'.phase i = p' :=
  phase_of_phases_set_self h.phases_eq h.lt_length

theorem Step.phase_of_ne (h : Step job r i p p' r') {j : Nat} (hij : i ≠ j) :
    r'.phase j = r.phase j :=
  phase_of_phases_set_of_ne h.phases_eq hij

theorem Step.length_phases (h : Step job r i p p' r') : r'.phases.length = r.phases.length := by
  rw [h.phases_eq, List.length_set]

/-- A joined shard stays as it is. -/
theorem Step.phase_of_joined (h : Step job r i (r.phase i) p' r') {j : Nat} {e : Ending}
    (hj : r.phase j = .joined e) : r'.phase j = .joined e := by
  have hij : i ≠ j := by
    rintro rfl
    have hnot := h.not_joined
    rw [hj] at hnot
    cases hnot
  rw [h.phase_of_ne hij, hj]

end Step

/-- What steps preserve holds after any list of moves. -/
theorem after_induction {job : Job w α} {P : Run w α → Prop} {r : Run w α} (start : P r)
    (step : ∀ r i p' r', P r → Step job r i (r.phase i) p' r' → P r') (moves : List Move) :
    P (r.after job moves) := by
  induction moves generalizing r with
  | nil => exact start
  | cons m moves ih =>
    apply ih
    rcases step_of_move job r m with hsame | ⟨p', hstep⟩
    · rw [hsame]
      exact start
    · exact step r m.shard p' _ start hstep

/-- The number of shards stays. -/
theorem length_phases_after (job : Job w α) (r : Run w α) (moves : List Move) :
    (r.after job moves).phases.length = r.phases.length :=
  after_induction (P := fun r' => r'.phases.length = r.phases.length) rfl
    (fun _ _ _ _ h hstep => hstep.length_phases.trans h) moves

@[simp] theorem length_phases_start (job : Job w α) (permits : Nat) (scene : Scene w α) :
    (start job permits scene).phases.length = job.plan.count := by
  simp [start]

@[simp] theorem phase_start (job : Job w α) (permits : Nat) (scene : Scene w α) {i : Nat}
    (h : i < job.plan.count) : (start job permits scene).phase i = .waiting := by
  simp [phase, start, h]

/-! ## Permits -/

/-- Free and held permits. -/
def permits (r : Run w α) : Nat := r.freePermits + r.phases.countP Phase.holdsPermit

/-- Replacing an entry of a list counts the new one in place of the old one. -/
theorem countP_set_add {β : Type} (q : β → Bool) {xs : List β} {i : Nat} (h : i < xs.length)
    (x : β) : (xs.set i x).countP q + (q xs[i]).toNat = xs.countP q + (q x).toNat := by
  have hle : (if q xs[i] then 1 else 0) ≤ xs.countP q := List.boole_getElem_le_countP h
  have hold : (q xs[i]).toNat = if q xs[i] then 1 else 0 := by cases q xs[i] <;> rfl
  have hnew : (q x).toNat = if q x then 1 else 0 := by cases q x <;> rfl
  rw [List.countP_set h, hold, hnew]
  omega

/-- A shard that comes to hold a permit takes it from the free ones, and one that no longer holds
it gives it back. -/
theorem Step.freePermits_eq {job : Job w α} {r r' : Run w α} {i : Nat} {p p' : Phase α}
    (h : Step job r i p p' r') :
    r'.freePermits + p'.holdsPermit.toNat = r.freePermits + p.holdsPermit.toNat := by
  cases h with
  | granted permit => exact permit.symm
  | joined => simp [setPhase, Phase.holdsPermit]
  | _ => rfl

/-- A step hands on permits and makes none. -/
theorem Step.permits_eq {job : Job w α} {r r' : Run w α} {i : Nat} {p' : Phase α}
    (h : Step job r i (r.phase i) p' r') : r'.permits = r.permits := by
  have hfree := h.freePermits_eq
  have hcount := countP_set_add Phase.holdsPermit h.lt_length p'
  rw [← phase_eq_getElem h.lt_length] at hcount
  rw [permits, permits, h.phases_eq]
  omega

/-- Free permits and held permits are as many as there were at the start. -/
theorem permits_after (job : Job w α) (permits : Nat) (scene : Scene w α) (moves : List Move) :
    ((start job permits scene).after job moves).permits = permits := by
  refine after_induction (P := fun r => r.permits = permits) ?_
    (fun _ _ _ _ h hstep => hstep.permits_eq.trans h) moves
  simp [Run.permits, start, List.countP_replicate, Phase.holdsPermit]

/-! ## Where a shard goes -/

theorem phase_setPhase {r : Run w α} {i : Nat} (h : i < r.phases.length) (p : Phase α) :
    (r.setPhase i p).phase i = p :=
  phase_of_phases_set_self rfl h

theorem phase_finish {r : Run w α} {i : Nat} (h : i < r.phases.length)
    (result : Except QueryError (List Bool)) :
    (r.finish i result).phase i = .ended (.finished result) :=
  phase_of_phases_set_self rfl h

section Goes

variable {r : Run w α} {i : Nat}

theorem phase_grant (h : r.phase i = .waiting) (hfree : r.freePermits ≠ 0) :
    (r.grant i).phase i = .holding := by
  have hi := lt_length_of_phase_eq h rfl
  obtain ⟨free, hfree⟩ := Nat.exists_eq_succ_of_ne_zero hfree
  simp only [grant, h, hfree]
  exact phase_setPhase hi .holding

theorem phase_register (job : Job w α) (h : r.phase i = .holding) :
    (∃ s, (r.register job i).phase i = .registered s) ∨
      ∃ e, (r.register job i).phase i = .ended (.finished (.error e)) := by
  have hi := lt_length_of_phase_eq h rfl
  simp only [register, h]
  split
  · exact .inr ⟨_, phase_finish hi _⟩
  · exact .inl ⟨_, phase_setPhase hi _⟩

theorem phase_submit (job : Job w α) {s : Shipment α} (h : r.phase i = .registered s) :
    (r.submit job i).2.phase i = .inFlight s ∨
      ∃ flags, (r.submit job i).2.phase i = .ended (.finished (.ok flags)) := by
  have hi := lt_length_of_phase_eq h rfl
  simp only [submit, h]
  split
  · exact .inr ⟨_, phase_finish hi _⟩
  · exact .inl (phase_setPhase hi (.inFlight s))

theorem phase_answer (job : Job w α) {s : Shipment α} (h : r.phase i = .inFlight s) :
    ∃ a, (r.answer job i).2.phase i = .answered s a := by
  have hi := lt_length_of_phase_eq h rfl
  simp only [answer, h]
  exact ⟨_, phase_setPhase hi (.answered s _)⟩

theorem phase_settle (job : Job w α) {s : Shipment α} {a : Answer}
    (h : r.phase i = .answered s a) :
    (∃ flags writes, (r.settle job i).phase i = .writing flags writes) ∨
      ∃ e, (r.settle job i).phase i = .ended (.finished (.error e)) := by
  have hi := lt_length_of_phase_eq h rfl
  simp only [settle, h]
  split
  · exact .inr ⟨_, phase_finish hi _⟩
  · exact .inl ⟨_, _, phase_setPhase hi _⟩

theorem phase_write_nil {flags : List Bool} (h : r.phase i = .writing flags []) :
    (r.write i).phase i = .ended (.finished (.ok flags)) := by
  have hi := lt_length_of_phase_eq h rfl
  simp only [write, h]
  exact phase_finish hi (.ok flags)

theorem phase_write_cons {flags : List Bool} {x : Nat × α} {writes : List (Nat × α)}
    (h : r.phase i = .writing flags (x :: writes)) :
    (r.write i).phase i = .writing flags writes := by
  have hi := lt_length_of_phase_eq h rfl
  simp only [write, h]
  exact phase_setPhase hi (.writing flags writes)

theorem phase_stop (haborted : r.aborted = true) (h : (r.phase i).isSuspended = true) :
    (r.stop i).phase i = .ended .cancelled := by
  have hi : i < r.phases.length := by
    apply lt_length_of_not_joined
    cases hp : r.phase i <;> first | rfl | (rw [hp] at h; cases h)
  simp only [stop, haborted, h]
  exact phase_setPhase hi (.ended .cancelled)

theorem phase_join (job : Job w α) {e : Ending} (h : r.phase i = .ended e) :
    (r.join job i).phase i = .joined e := by
  have hi := lt_length_of_phase_eq h rfl
  simp only [join, h]
  exact phase_of_phases_set_self (phases_takeIn job _ i e) hi

end Goes

/-! ## Runs do not get stuck -/

/-- A shard goes on by its next action; one that waits needs a free permit for it. -/
theorem move_next_ne (job : Job w α) {r : Run w α} {i : Nat} {a : Action}
    (h : (r.phase i).next = some a) (hfree : r.phase i = .waiting → r.freePermits ≠ 0) :
    (r.move job ⟨a, i⟩).phase i ≠ r.phase i := by
  generalize hp : r.phase i = p at h hfree
  cases p with
  | waiting =>
    obtain rfl : Action.grant = a := Option.some.inj h
    show (r.grant i).phase i ≠ _
    rw [phase_grant hp (hfree rfl)]
    nofun
  | holding =>
    obtain rfl : Action.register = a := Option.some.inj h
    show (r.register job i).phase i ≠ _
    rcases phase_register job hp with ⟨s, hs⟩ | ⟨e, he⟩
    · rw [hs]
      nofun
    · rw [he]
      nofun
  | registered s =>
    obtain rfl : Action.submit = a := Option.some.inj h
    show (r.submit job i).2.phase i ≠ _
    rcases phase_submit job hp with hs | ⟨flags, hflags⟩
    · rw [hs]
      nofun
    · rw [hflags]
      nofun
  | inFlight s =>
    obtain rfl : Action.answer = a := Option.some.inj h
    show (r.answer job i).2.phase i ≠ _
    obtain ⟨answer, hanswer⟩ := phase_answer job hp
    rw [hanswer]
    nofun
  | answered s answer =>
    obtain rfl : Action.settle = a := Option.some.inj h
    show (r.settle job i).phase i ≠ _
    rcases phase_settle job hp with ⟨flags, writes, hwriting⟩ | ⟨e, he⟩
    · rw [hwriting]
      nofun
    · rw [he]
      nofun
  | writing flags writes =>
    obtain rfl : Action.write = a := Option.some.inj h
    show (r.write i).phase i ≠ _
    cases writes with
    | nil =>
      rw [phase_write_nil hp]
      nofun
    | cons x writes =>
      rw [phase_write_cons hp]
      simp
  | ended e =>
    obtain rfl : Action.join = a := Option.some.inj h
    show (r.join job i).phase i ≠ _
    rw [phase_join job hp]
    nofun
  | joined e => cases h

/-- As long as a shard has not ended, one that has not ended can go on: the shard itself, unless
it waits and no permit is free, and then another shard holds one. -/
theorem exists_next_of_unfinished (job : Job w α) {r : Run w α} (hpermits : 0 < r.permits)
    {i : Nat} (h : (r.phase i).isUnfinished = true) :
    ∃ j a, (r.phase j).isUnfinished = true ∧ (r.phase j).next = some a ∧
      (r.move job ⟨a, j⟩).phase j ≠ r.phase j := by
  by_cases hwait : r.phase i = .waiting ∧ r.freePermits = 0
  · have hheld : 0 < r.phases.countP Phase.holdsPermit := by
      rw [permits, hwait.2] at hpermits
      omega
    obtain ⟨p, hp, hholds⟩ := List.countP_pos_iff.1 hheld
    obtain ⟨j, hj, rfl⟩ := List.getElem_of_mem hp
    rw [← phase_eq_getElem hj] at hholds
    obtain ⟨hunfinished, a, ha⟩ :
        (r.phase j).isUnfinished = true ∧ ∃ a, (r.phase j).next = some a := by
      cases hp : r.phase j <;> first | exact ⟨rfl, _, rfl⟩ | (rw [hp] at hholds; cases hholds)
    refine ⟨j, a, hunfinished, ha, move_next_ne job ha fun hwaiting => ?_⟩
    rw [hwaiting] at hholds
    cases hholds
  · obtain ⟨a, ha⟩ : ∃ a, (r.phase i).next = some a := by
      cases hp : r.phase i <;> first | exact ⟨_, rfl⟩ | (rw [hp] at h; cases h)
    exact ⟨i, a, h, ha, move_next_ne job ha fun hwaiting hfree => hwait ⟨hwaiting, hfree⟩⟩

/-- A run in which no shard can move is over: a shard that is not joined has ended and can be
joined, or has not ended, and then a shard can go on. -/
theorem isOver_of_stuck {job : Job w α} {r : Run w α} (hpermits : 0 < r.permits)
    (h : r.IsStuck job) : r.IsOver := by
  have hstill : ∀ m i, ¬ (r.move job m).phase i ≠ r.phase i := by
    intro m i hm
    rw [h m] at hm
    exact hm rfl
  rw [isOver_iff]
  intro i hi
  cases hp : r.phase i with
  | joined e => rfl
  | ended e =>
    refine absurd (move_next_ne job (i := i) (a := .join) ?_ ?_) (hstill _ _)
    · rw [hp]
      rfl
    · rw [hp]
      nofun
  | _ =>
    obtain ⟨j, a, -, -, hmoves⟩ := exists_next_of_unfinished job hpermits (i := i) (by rw [hp]; rfl)
    exact absurd hmoves (hstill _ _)

/-- A run that starts with a permit and in which no shard can move any more is over. -/
theorem isOver_after_of_stuck {job : Job w α} {permits : Nat} {scene : Scene w α}
    {moves : List Move} (hpermits : 0 < permits)
    (h : ((start job permits scene).after job moves).IsStuck job) :
    ((start job permits scene).after job moves).IsOver := by
  apply isOver_of_stuck (h := h)
  rw [permits_after]
  exact hpermits

/-- When all shards are joined, none can move. -/
theorem IsOver.isStuck {job : Job w α} {r : Run w α} (h : r.IsOver) : r.IsStuck job := by
  intro m
  rcases step_of_move job r m with hsame | ⟨p', hstep⟩
  · exact hsame
  · have hjoined := isOver_iff.1 h m.shard hstep.lt_length
    rw [hstep.not_joined] at hjoined
    cases hjoined

/-! ## Runs do not go on for ever -/

end Run

/-- How many phases a shard has ahead. -/
def Phase.rank : Phase α → Nat
  | waiting => 7
  | holding => 6
  | registered _ => 5
  | inFlight _ => 4
  | answered _ _ => 3
  | writing _ _ => 2
  | ended _ => 1
  | joined _ => 0

/-- How many values a shard has still to write. -/
def Phase.unwritten : Phase α → Nat
  | writing _ writes => writes.length
  | _ => 0

namespace Run

/-- A sum over a list in which an entry is replaced. -/
theorem sum_map_set_add {β : Type} (f : β → Nat) {xs : List β} {i : Nat} (h : i < xs.length)
    (x : β) : ((xs.set i x).map f).sum + f xs[i] = (xs.map f).sum + f x := by
  induction xs generalizing i with
  | nil => cases h
  | cons y ys ih =>
    cases i with
    | zero =>
      simp only [List.set_cons_zero, List.map_cons, List.sum_cons, List.getElem_cons_zero]
      omega
    | succ i =>
      have hi := ih (Nat.lt_of_succ_lt_succ h)
      simp only [List.set_cons_succ, List.map_cons, List.sum_cons, List.getElem_cons_succ]
      omega

/-- The phases that all shards have ahead. -/
def rank (r : Run w α) : Nat := (r.phases.map Phase.rank).sum

/-- The values that all shards have still to write. -/
def unwritten (r : Run w α) : Nat := (r.phases.map Phase.unwritten).sum

section Ends

variable {job : Job w α} {r r' : Run w α} {i : Nat} {p p' : Phase α}

/-- A step takes a shard to a later phase or writes one of its values. -/
theorem Step.rank_lt_or (h : Step job r i p p' r') :
    p'.rank < p.rank ∨ p'.rank = p.rank ∧ p'.unwritten < p.unwritten := by
  cases h with
  | wrote => exact .inr ⟨rfl, Nat.lt_succ_self _⟩
  | stopped _ suspended =>
    left
    cases p <;> simp [Phase.rank, Phase.isSuspended] at suspended ⊢
  | _ => exact .inl (by simp [Phase.rank])

/-- What all shards have ahead gets less with every step. -/
theorem Step.measure_lt (h : Step job r i (r.phase i) p' r') :
    Prod.Lex (· < ·) (· < ·) (r'.rank, r'.unwritten) (r.rank, r.unwritten) := by
  have hrank := sum_map_set_add Phase.rank h.lt_length p'
  have hunwritten := sum_map_set_add Phase.unwritten h.lt_length p'
  rw [← phase_eq_getElem h.lt_length, ← h.phases_eq] at hrank hunwritten
  rcases h.rank_lt_or with hlt | ⟨heq, hlt⟩
  · apply Prod.Lex.left
    rw [rank, rank]
    omega
  · have hsame : r'.rank = r.rank := by
      rw [rank, rank]
      omega
    rw [hsame]
    apply Prod.Lex.right
    rw [unwritten, unwritten]
    omega

/-- Shards cannot move for ever: however the moves are chosen, there is one that changes
nothing. -/
theorem exists_idle_move (job : Job w α) (r : Run w α) (schedule : Nat → Move) :
    ∃ n, (r.after job ((List.range n).map schedule)).move job (schedule n) =
      r.after job ((List.range n).map schedule) := by
  generalize hm : (r.rank, r.unwritten) = measure
  induction measure using (Prod.lex Nat.lt_wfRel Nat.lt_wfRel).wf.induction
    generalizing r schedule with
  | _ measure ih =>
    subst hm
    rcases step_of_move job r (schedule 0) with hsame | ⟨p', hstep⟩
    · exact ⟨0, hsame⟩
    · obtain ⟨n, hn⟩ := ih _ hstep.measure_lt (r.move job (schedule 0)) (fun k => schedule (k + 1))
        rfl
      refine ⟨n + 1, ?_⟩
      rw [List.range_succ_eq_map, List.map_cons, List.map_map, after_cons]
      exact hn

end Ends

end Run

end ContractReads.Scheduler
