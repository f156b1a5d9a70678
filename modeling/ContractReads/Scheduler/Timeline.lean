import ContractReads.Scheduler.Run

/-!
# The order of steps

A `Timeline` carries out a run on a single thread and a clock.  Shards that can move stand in a
queue and move one after the other, each as far as it can; a shard without a permit goes to the
end of a second queue, and a permit that is given back goes to its head.  Only when no shard can
move, however many there are, are ended shards joined, in the order in which they ended.  Only when
none is left to be joined does the clock go on, to the earliest time at which a sleeping shard
wakes; shards that wake at one time move in the order in which they fell asleep.

Every step lowers the weight of the queues, so a run comes to its end.
-/

namespace ContractReads.Scheduler

variable {w α : Type}

/-- What a shard does when it moves. -/
inductive Errand
  /-- Asks for a permit. -/
  | request
  /-- Registers its items and sends its batch. -/
  | send
  /-- Has its batch answered. -/
  | answer
  | deliver
deriving DecidableEq, Repr

/-- A shard that moves at a time. -/
structure Sleeper where
  wakes : Nat
  shard : Nat
  errand : Errand

/-- A run, the time, and the queues of its shards. -/
structure Timeline (w α : Type) where
  run : Run w α
  now : Nat
  /-- Shards that can move. -/
  ready : List (Nat × Errand)
  /-- Shards without a permit. -/
  queued : List Nat
  /-- Shards that move later, the earliest first. -/
  asleep : List Sleeper
  /-- Ended shards that are not joined. -/
  ended : List Nat

namespace Errand

/-- Steps that a ready shard has at most ahead. -/
def weight : Errand → Nat
  | request => 8
  | send => 6
  | answer => 4
  | deliver => 2

/-- Steps of a sleeping shard: it wakes first. -/
def asleepWeight (e : Errand) : Nat := e.weight + 1

end Errand

def total {β : Type} (weight : β → Nat) : List β → Nat
  | [] => 0
  | x :: xs => weight x + total weight xs

@[simp] theorem total_append {β : Type} (weight : β → Nat) (xs ys : List β) :
    total weight (xs ++ ys) = total weight xs + total weight ys := by
  induction xs with
  | nil => simp [total]
  | cons x xs ih => simp [total, ih, Nat.add_assoc]

/-- Puts a sleeper behind those that wake no later. -/
def insertSleeper (s : Sleeper) : List Sleeper → List Sleeper
  | [] => [s]
  | t :: ts => if t.wakes ≤ s.wakes then t :: insertSleeper s ts else s :: t :: ts

namespace Timeline

/-- The total weight of the queues. -/
def weight (t : Timeline w α) : Nat :=
  total (fun r => r.2.weight) t.ready + 7 * t.queued.length
    + total (fun s => s.errand.asleepWeight) t.asleep + t.ended.length

/-- All shards asking for a permit, in order. -/
def start (job : Job w α) (permits : Nat) (scene : Scene w α) : Timeline w α where
  run := .start job permits scene
  now := scene.now
  ready := (List.range job.plan.count).map fun shard => (shard, .request)
  queued := []
  asleep := []
  ended := []

/-- A shard goes on at once or later. -/
def goOn (t : Timeline w α) (ms shard : Nat) (e : Errand) : Timeline w α :=
  if ms = 0 then { t with ready := (shard, e) :: t.ready }
  else { t with asleep := insertSleeper ⟨t.now + ms, shard, e⟩ t.asleep }

/-- A shard has ended; its permit goes to the shard that waits longest. -/
def passOn (t : Timeline w α) (shard : Nat) : Timeline w α :=
  match t.queued with
  | [] => { t with ended := t.ended ++ [shard] }
  | next :: queued =>
    { t with
      run := t.run.grant next
      ready := t.ready ++ [(next, .send)]
      queued := queued
      ended := t.ended ++ [shard] }

/-- A shard that is ready moves; it is no longer on the list of ready shards. -/
def move (job : Job w α) (t : Timeline w α) (shard : Nat) : Errand → Timeline w α
  | .request =>
    if t.run.freePermits = 0 then { t with queued := t.queued ++ [shard] }
    else { t with run := t.run.grant shard }.goOn 0 shard .send
  | .send =>
    let (ms, run) := (t.run.register job shard).submit job shard
    match run.phase shard with
    | .inFlight _ => { t with run := run }.goOn ms shard .answer
    | _ => { t with run := run }.passOn shard
  | .answer =>
    let (ms, run) := t.run.answer job shard
    { t with run := run }.goOn ms shard .deliver
  | .deliver => { t with run := t.run.deliver job shard }.passOn shard

/-- The shards that have not ended. -/
def unfinished (t : Timeline w α) : List Nat :=
  t.ready.map Prod.fst ++ t.queued ++ t.asleep.map Sleeper.shard

def stopAll (t : Timeline w α) : Timeline w α :=
  { t with
    run := t.unfinished.foldl Run.stop t.run
    ready := []
    queued := []
    asleep := []
    ended := t.ended ++ t.unfinished }

/-- Joins an ended shard; it is no longer on the list of ended shards. -/
def joinNext (job : Job w α) (t : Timeline w α) (shard : Nat) : Timeline w α :=
  let t := { t with run := t.run.join job shard }
  if t.run.aborted then t.stopAll else t

/-- The clock goes on to a time, and the shards that wake by then are ready. -/
def wakeAt (t : Timeline w α) (time : Nat) : Timeline w α :=
  { t with
    now := time
    ready := (t.asleep.takeWhile fun s => s.wakes ≤ time).map fun s => (s.shard, s.errand)
    asleep := t.asleep.dropWhile fun s => s.wakes ≤ time }

/-- The next step; nothing when no shard is left. -/
def step? (job : Job w α) (t : Timeline w α) : Option (Timeline w α) :=
  match t.ready, t.ended, t.asleep with
  | (shard, e) :: ready, _, _ => some ({ t with ready := ready }.move job shard e)
  | [], shard :: ended, _ => some ({ t with ended := ended }.joinNext job shard)
  | [], [], s :: _ => some (t.wakeAt s.wakes)
  | [], [], [] => none

/-! ## Every step lowers the weight -/

/-- A sleeper adds its own weight, wherever it is put. -/
theorem total_insertSleeper (s : Sleeper) (ts : List Sleeper) :
    total (fun s => s.errand.asleepWeight) (insertSleeper s ts)
      = s.errand.asleepWeight + total (fun s => s.errand.asleepWeight) ts := by
  induction ts with
  | nil => rfl
  | cons t ts ih =>
    unfold insertSleeper
    split
    · simp only [total, ih]; omega
    · rfl

/-- A shard that goes on adds at most the weight that it has asleep. -/
theorem weight_goOn_le (t : Timeline w α) (ms shard : Nat) (e : Errand) :
    (t.goOn ms shard e).weight ≤ t.weight + e.asleepWeight := by
  unfold goOn weight
  split
  · simp only [total, Errand.asleepWeight]; omega
  · simp only [total_insertSleeper]; omega

/-- A permit that is passed on takes a shard from a heavier queue than the one it joins. -/
theorem weight_passOn_le (t : Timeline w α) (shard : Nat) :
    (t.passOn shard).weight ≤ t.weight + 1 := by
  unfold passOn weight
  split
  · simp only [List.length_append, List.length_cons, List.length_nil]; omega
  · rename_i h
    simp only [h, total_append, total, List.length_append, List.length_cons, List.length_nil,
      Errand.weight]
    omega

/-- A shard that goes on at once adds the weight of what it does next. -/
theorem weight_goOn_zero (t : Timeline w α) (shard : Nat) (e : Errand) :
    (t.goOn 0 shard e).weight = t.weight + e.weight := by
  simp only [goOn, weight, if_true, total]; omega

/-- Only the queues have a weight. -/
theorem weight_run (t : Timeline w α) (r : Run w α) : { t with run := r }.weight = t.weight := rfl

/-- A move leaves less than the shard weighed. -/
theorem weight_move_lt (job : Job w α) (t : Timeline w α) (shard : Nat) (e : Errand) :
    (t.move job shard e).weight < t.weight + e.weight := by
  cases e with
  | request =>
    simp only [move]
    split
    · simp only [weight, Errand.weight, List.length_append, List.length_cons, List.length_nil]
      omega
    · rw [weight_goOn_zero, weight_run]; simp [Errand.weight]
  | send =>
    simp only [move]
    split
    · refine Nat.lt_of_le_of_lt (weight_goOn_le ..) ?_
      simp [weight_run, Errand.weight, Errand.asleepWeight]
    · refine Nat.lt_of_le_of_lt (weight_passOn_le ..) ?_
      simp [weight_run, Errand.weight]
  | answer =>
    refine Nat.lt_of_le_of_lt (weight_goOn_le ..) ?_
    simp [weight_run, Errand.weight, Errand.asleepWeight]
  | deliver =>
    refine Nat.lt_of_le_of_lt (weight_passOn_le ..) ?_
    simp [weight_run, Errand.weight]

/-- Every item of a list has a weight. -/
theorem length_le_total {β : Type} {weight : β → Nat} (h : ∀ x, 0 < weight x) (xs : List β) :
    xs.length ≤ total weight xs := by
  induction xs with
  | nil => exact Nat.le_refl 0
  | cons x xs ih =>
    have := h x
    simp only [total, List.length_cons]
    omega

/-- A shard that is stopped weighed at least as much as an ended one. -/
theorem weight_stopAll_le (t : Timeline w α) : t.stopAll.weight ≤ t.weight := by
  have hr : t.ready.length ≤ total (fun r => r.2.weight) t.ready :=
    length_le_total (fun r => by cases r.2 <;> decide) _
  have ha : t.asleep.length ≤ total (fun s => s.errand.asleepWeight) t.asleep :=
    length_le_total (fun s => Nat.succ_pos _) _
  simp only [stopAll, unfinished, weight, total, List.length_append, List.length_map,
    List.length_nil]
  omega

/-- A joined shard adds nothing. -/
theorem weight_joinNext_le (job : Job w α) (t : Timeline w α) (shard : Nat) :
    (t.joinNext job shard).weight ≤ t.weight := by
  simp only [joinNext]
  split
  · exact weight_stopAll_le _
  · exact Nat.le_refl _

/-- The first ready shard takes its weight along when it moves. -/
theorem weight_moveNext_lt {job : Job w α} {t : Timeline w α} {shard : Nat} {e : Errand}
    {ready : List (Nat × Errand)} (h : t.ready = (shard, e) :: ready) :
    ({ t with ready := ready }.move job shard e).weight < t.weight := by
  refine Nat.lt_of_lt_of_le (weight_move_lt ..) ?_
  simp only [weight, h, total]; omega

/-- The first ended shard leaves its list when it is joined. -/
theorem weight_joinFirst_lt {job : Job w α} {t : Timeline w α} {shard : Nat} {ended : List Nat}
    (h : t.ended = shard :: ended) :
    ({ t with ended := ended }.joinNext job shard).weight < t.weight := by
  refine Nat.lt_of_le_of_lt (weight_joinNext_le ..) ?_
  simp only [weight, h, List.length_cons]; omega

/-- Waking takes weight away from every shard that wakes. -/
theorem total_takeWhile_le (p : Sleeper → Bool) (ts : List Sleeper) :
    total (fun r => r.2.weight) ((ts.takeWhile p).map fun s => (s.shard, s.errand))
        + total (fun s => s.errand.asleepWeight) (ts.dropWhile p)
      ≤ total (fun s => s.errand.asleepWeight) ts := by
  induction ts with
  | nil => simp [total]
  | cons t ts ih =>
    have ht : t.errand.asleepWeight = t.errand.weight + 1 := rfl
    by_cases h : p t
    · simp [h, total]; omega
    · simp [h, total]

/-- Every step lowers the weight. -/
theorem weight_step_lt {job : Job w α} {t t' : Timeline w α} (h : t.step? job = some t') :
    t'.weight < t.weight := by
  unfold step? at h
  split at h
  · rename_i hr
    cases h
    exact weight_moveNext_lt hr
  · rename_i _ he
    cases h
    exact weight_joinFirst_lt he
  · rename_i s rest hr he ha
    cases h
    have hs := total_takeWhile_le (fun x => decide (x.wakes ≤ s.wakes)) rest
    simp only [wakeAt, weight, hr, he, ha, List.takeWhile_cons, List.dropWhile_cons, Nat.le_refl,
      decide_true, if_true, List.map_cons, total, Errand.asleepWeight] at hs ⊢
    omega
  · cases h

/-- The timeline when no shard is left. -/
def complete (job : Job w α) (t : Timeline w α) : Timeline w α :=
  match _h : t.step? job with
  | none => t
  | some t' => t'.complete job
termination_by t.weight
decreasing_by exact weight_step_lt _h

end Timeline

end ContractReads.Scheduler
