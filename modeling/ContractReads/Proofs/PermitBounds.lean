import Mathlib
import ContractReads.Proofs.FailurePolicies
import ContractReads.Proofs.TimelineInterleaving

/-!
# Round trips in flight

A shard holds a permit from the moment it is given one until it ends, and its round trip lies in
between.  This module bounds the round trips by the permits, in every run that a scheduler can go
through, and shows that no such run gets stuck.

* `Turn` is one turn of a run.  A shard takes one of its steps, or a shard that holds a permit is
  torn down where it stands: its registration, its round trip or its decoding may panic at any
  point.  The semaphore takes the permit back in every case.
* `Turn.permits_eq` and `Turn.measure_lt` are what every turn keeps and what it lowers.  The first
  is carried over a run by `Turns.permits_eq`, the second shows that runs end.
* `exists_turn` and `isOver_of_no_turn` say that a run only stops when every shard is joined.
* `round_trips_within_permits` puts these together for schedulers.
-/

namespace ContractReads.Scheduler

variable {w α : Type}

/-- Whether a batch of this shard is sent and its answer has not arrived. -/
def Phase.onRoundTrip : Phase α → Bool
  | inFlight _ | answered _ _ => true
  | _ => false

/-- A shard on its round trip holds a permit. -/
theorem Phase.holdsPermit_of_onRoundTrip {p : Phase α} (h : p.onRoundTrip = true) :
    p.holdsPermit = true := by
  cases p <;> first | rfl | cases h

/-- A shard that holds a permit is not joined. -/
theorem Phase.not_joined_of_holdsPermit {p : Phase α} (h : p.holdsPermit = true) :
    p.isJoined = false := by
  cases p <;> first | rfl | cases h

namespace Run

/-- How many shards hold a permit. -/
def heldPermits (r : Run w α) : Nat := r.phases.countP Phase.holdsPermit

/-- How many round trips are in flight. -/
def roundTrips (r : Run w α) : Nat := r.phases.countP Phase.onRoundTrip

theorem roundTrips_le_heldPermits (r : Run w α) : r.roundTrips ≤ r.heldPermits :=
  List.countP_mono_left fun _ _ h => Phase.holdsPermit_of_onRoundTrip h

theorem permits_eq_add (r : Run w α) : r.permits = r.freePermits + r.heldPermits := rfl

/-- One turn of a run. -/
inductive Turn (job : Job w α) (r : Run w α) : Run w α → Prop
  /-- A shard takes a step. -/
  | step {i : Nat} {p' : Phase α} {r' : Run w α} (taken : Step job r i (r.phase i) p' r') :
    Turn job r r'
  /-- A shard that holds a permit is torn down. -/
  | torn {i : Nat} (message : String) (holds : (r.phase i).holdsPermit = true) :
    Turn job r (r.finish i (.error (.panicked message)))

/-- Any number of turns. -/
def Turns (job : Job w α) : Run w α → Run w α → Prop := Relation.ReflTransGen (Turn job)

section Turn

variable {job : Job w α} {r r' : Run w α}

/-- A torn shard gives back the one permit that it holds. -/
theorem permits_finish {i : Nat} (h : (r.phase i).holdsPermit = true)
    (result : Except QueryError (List Bool)) : (r.finish i result).permits = r.permits := by
  have hi : i < r.phases.length :=
    lt_length_of_not_joined (Phase.not_joined_of_holdsPermit h)
  have hcount := countP_set_add Phase.holdsPermit hi (.ended (.finished result))
  rw [← phase_eq_getElem hi, h] at hcount
  simp only [Bool.toNat_true, Phase.holdsPermit, Bool.toNat_false] at hcount
  simp only [permits, finish, setPhase]
  omega

/-- A turn hands on permits and makes none. -/
theorem Turn.permits_eq (h : Turn job r r') : r'.permits = r.permits := by
  cases h with
  | step taken => exact taken.permits_eq
  | torn message holds => exact permits_finish holds _

/-- A torn shard has less ahead than before. -/
theorem rank_finish_lt {i : Nat} (h : (r.phase i).holdsPermit = true)
    (result : Except QueryError (List Bool)) : (r.finish i result).rank < r.rank := by
  have hi : i < r.phases.length :=
    lt_length_of_not_joined (Phase.not_joined_of_holdsPermit h)
  have hsum := sum_map_set_add Phase.rank hi (.ended (.finished result))
  rw [← phase_eq_getElem hi] at hsum
  have hrank : Phase.rank (.ended (.finished result) : Phase α) < (r.phase i).rank := by
    cases hp : r.phase i <;> simp [hp, Phase.holdsPermit] at h <;> simp [Phase.rank]
  simp only [rank, finish, setPhase]
  omega

/-- What all shards have ahead gets less with every turn. -/
theorem Turn.measure_lt (h : Turn job r r') :
    Prod.Lex (· < ·) (· < ·) (r'.rank, r'.unwritten) (r.rank, r.unwritten) := by
  cases h with
  | step taken => exact taken.measure_lt
  | torn message holds => exact Prod.Lex.left _ _ (rank_finish_lt holds _)

/-- Every run of turns ends. -/
theorem wellFounded_turn (job : Job w α) : WellFounded fun r' r : Run w α => Turn job r r' :=
  Subrelation.wf (fun h => Turn.measure_lt h)
    (InvImage.wf (fun r : Run w α => (r.rank, r.unwritten))
      (WellFounded.prod_lex Nat.lt_wfRel.wf Nat.lt_wfRel.wf))

theorem Turns.permits_eq (h : Turns job r r') : r'.permits = r.permits := by
  induction h with
  | refl => rfl
  | tail _ turn ih => exact turn.permits_eq.trans ih

/-- A move that changes the run is a turn. -/
theorem turn_of_move {m : Move} (h : r.move job m ≠ r) : Turn job r (r.move job m) := by
  rcases step_of_move job r m with hsame | ⟨p', hstep⟩
  · exact absurd hsame h
  · exact .step hstep

/-- Any list of moves is a run of turns. -/
theorem turns_after (job : Job w α) (r : Run w α) (moves : List Move) :
    Turns job r (r.after job moves) :=
  after_induction .refl (fun _ _ _ _ h hstep => h.tail (.step hstep)) moves

/-- As long as a shard has not ended, one that has not ended can take a step. -/
theorem exists_turn (hpermits : 0 < r.permits) {i : Nat}
    (h : (r.phase i).isUnfinished = true) :
    ∃ j a, (r.phase j).isUnfinished = true ∧ (r.phase j).next = some a ∧
      Turn job r (r.move job ⟨a, j⟩) := by
  obtain ⟨j, a, hunfinished, hnext, hmoves⟩ := exists_next_of_unfinished job hpermits h
  refine ⟨j, a, hunfinished, hnext, turn_of_move fun hsame => hmoves ?_⟩
  rw [hsame]

/-- A run that has no turn left has joined every shard. -/
theorem isOver_of_no_turn (hpermits : 0 < r.permits) (h : ∀ r', ¬ Turn job r r') : r.IsOver := by
  have hstuck : r.IsStuck job := by
    intro m
    by_contra hmove
    exact h _ (turn_of_move hmove)
  exact isOver_of_stuck hpermits hstuck

/-- A run that has joined every shard has no turn left. -/
theorem IsOver.no_turn (h : r.IsOver) : ¬ Turn job r r' := by
  intro turn
  cases turn with
  | step taken =>
    have hjoined := isOver_iff.1 h _ taken.lt_length
    rw [taken.not_joined] at hjoined
    cases hjoined
  | torn message holds =>
    have hnot := Phase.not_joined_of_holdsPermit holds
    have hjoined := isOver_iff.1 h _ (lt_length_of_not_joined hnot)
    rw [hnot] at hjoined
    cases hjoined

end Turn

theorem permits_start (job : Job w α) (permits : Nat) (scene : Scene w α) :
    (start job permits scene).permits = permits :=
  permits_after job permits scene []

end Run

open Run in
/-- At most as many round trips are in flight as the scheduler allows, whatever the shards do and
however they end: each one holds a permit, and free and held permits are together as many as at
the start.  As long as a shard has not ended, one can go on; no run goes on for ever, and one that
cannot be continued has joined every shard.  The scheduler's own run is one of them. -/
theorem round_trips_within_permits (concurrency limit : Nat) (policy : FailurePolicy)
    (e : Endpoint w) (plan : ShardPlan) (mode : Mode) (block : BlockTag) (register : Registrar α)
    (scene : Scene w α) :
    let s := Scheduler.make concurrency limit policy
    let job := s.job e plan mode block register
    let first := Run.start job s.concurrency scene
    (∀ r, Turns job first r →
      r.roundTrips ≤ r.heldPermits ∧ r.heldPermits ≤ max concurrency 1 ∧
      r.freePermits + r.heldPermits = max concurrency 1 ∧
      (∀ i, (r.phase i).isUnfinished = true →
        ∃ j a, (r.phase j).isUnfinished = true ∧ (r.phase j).next = some a ∧
          Turn job r (r.move job ⟨a, j⟩)) ∧
      ((∀ r', ¬ Turn job r r') ↔ r.IsOver)) ∧
    (¬ ∃ runs : Nat → Run w α, runs 0 = first ∧ ∀ n, Turn job (runs n) (runs (n + 1))) ∧
    ∃ r now, Turns job first r ∧ r.IsOver ∧
      s.run e plan.total plan.shardSize mode block register scene =
        (r.result, { r.scene with now := now }) := by
  intro s job first
  have hconcurrency : 0 < s.concurrency := Nat.lt_of_lt_of_le Nat.one_pos (Nat.le_max_right _ _)
  refine ⟨fun r hturns => ?_, ?_, ?_⟩
  · have hpermits : r.permits = max concurrency 1 :=
      hturns.permits_eq.trans (permits_start job s.concurrency scene)
    have hpositive : 0 < r.permits := hpermits ▸ hconcurrency
    have hsum := r.permits_eq_add
    refine ⟨r.roundTrips_le_heldPermits, by omega, by omega, ?_, ?_⟩
    · intro i hi
      exact exists_turn hpositive hi
    · exact ⟨isOver_of_no_turn hpositive, fun hover r' => hover.no_turn⟩
  · intro ⟨runs, _, hturns⟩
    exact (wellFounded_iff_isEmpty_descending_chain.1 (wellFounded_turn job)).elim ⟨runs, hturns⟩
  · obtain ⟨moves, r, now, hr, hover, hrun⟩ :=
      run_is_interleaving hconcurrency e plan mode block register scene
    refine ⟨r, now, ?_, hover, hrun⟩
    rw [hr]
    exact turns_after job first moves

/-- Three items in shards of their own, each with one call. -/
def threeShards : ShardPlan := ⟨3, 1, Nat.one_pos⟩

/-- Adds one call with the slot of the item. -/
def registerOne : Registrar Bytes := fun item b =>
  if b.size < b.limit then .ok { b with calls := b.calls ++ [⟨default, [7], item, .ok⟩] }
  else .error (.error (.batchFull b.limit))

/-- A scheduler that is asked for no round trip at once. -/
def oneByOne : Job Unit Bytes :=
  (make 0 1 .runToCompletion).job echo threeShards .flexible .latest registerOne

/-- The first of three shards is on its round trip. -/
def oneSent : Run Unit Bytes :=
  (Run.start oneByOne 1 ⟨(), 0, .empty 3⟩).after oneByOne
    [⟨.grant, 1⟩, ⟨.grant, 0⟩, ⟨.register, 1⟩, ⟨.submit, 1⟩]

/-- The other two wait, and one can go on: the one that has been sent. -/
theorem round_trips_within_permits_one :
    oneSent.roundTrips = 1 ∧ oneSent.heldPermits = 1 ∧ oneSent.freePermits = 0 ∧
      (oneSent.phase 0).isUnfinished = true ∧
      (∃ j a, (oneSent.phase j).isUnfinished = true ∧ (oneSent.phase j).next = some a ∧
        Run.Turn oneByOne oneSent (oneSent.move oneByOne ⟨a, j⟩)) ∧
      ¬ oneSent.IsOver := by
  have hturns : Run.Turns oneByOne (Run.start oneByOne 1 ⟨(), 0, .empty 3⟩) oneSent :=
    Run.turns_after _ _ _
  obtain ⟨hreached, -⟩ := round_trips_within_permits 0 1 .runToCompletion echo threeShards .flexible
    .latest registerOne ⟨(), 0, .empty 3⟩
  obtain ⟨hle, hbound, hsum, hgoes, -⟩ := hreached oneSent hturns
  have htrips : oneSent.roundTrips = 1 := by decide
  have hunfinished : (oneSent.phase 0).isUnfinished = true := by decide
  have hone : max 0 1 = 1 := rfl
  exact ⟨htrips, by omega, by omega, hunfinished, hgoes 0 hunfinished, by decide⟩

end ContractReads.Scheduler
