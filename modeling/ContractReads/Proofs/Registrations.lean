import Mathlib
import ContractReads.Engine.Basic
import ContractReads.Proofs.RefusedReads

/-!
# Registrations that fail

A registration that fails leaves no trace: neither in the batch that it was for, nor at the endpoint
that the batch would have gone to.

* `Reading.registerAll` tries reads one after the other; `Reading.Holds` says what a batch holds
  then, and `Reading.holds_registerAll` is the induction.
* `Engine.single_of_register_error` is about queries of one batch.
* `Shipment.FailsAt` says which item of a shard fails, and `Unsent` where a shard with such an item
  can stand; `Run.unsent_after` and `Run.trips_eventsOf_of_fault` carry that along any moves, and
  `Run.Discards` is what an interleaving makes of the shard.
* `failed_registration_leaves_no_trace` puts these together, and `SecondTorn` has a query of one
  batch and a shard that are given up with a call in the batch.
-/

namespace ContractReads

variable {w α : Type}

namespace Reading

variable {r : Reading α} {b b' : Batch α} {c : Call α}

/-! ## Reads that are tried one after the other -/

/-- Tries to register reads in place, one after the other; a refusal does not keep the next one from
being tried. -/
def registerAll : List (Reading α) → Batch α → List (Except QueryError Unit) × Batch α
  | [], b => ([], b)
  | r :: rs, b =>
    let (result, b') := r.register b
    let (results, b'') := registerAll rs b'
    (result :: results, b'')

/-- The reads that were not refused. -/
def succeeded (rs : List (Reading α)) (results : List (Except QueryError Unit)) :
    List (Reading α) :=
  ((rs.zip results).filter fun x => x.2.isOk).map Prod.fst

/-- What a batch holds after reads were tried: the calls that were there, and behind them, in their
order, those of the reads that were not refused. -/
structure Holds (rs : List (Reading α)) (results : List (Except QueryError Unit))
    (b b' : Batch α) : Prop where
  length_results : results.length = rs.length
  limit_eq : b'.limit = b.limit
  calls_eq : ∃ added, List.Forall₂ (fun r c => r.prepared = .ok c) (succeeded rs results) added ∧
    b'.calls = b.calls ++ added
  size_le : b.size ≤ b.limit → b'.size ≤ b'.limit

section Holds

variable {rs : List (Reading α)} {results : List (Except QueryError Unit)}

theorem Holds.nil (b : Batch α) : Holds [] [] b b :=
  ⟨rfl, rfl, ⟨[], .nil, (List.append_nil _).symm⟩, id⟩

theorem Holds.accepted (prepared : r.prepared = .ok c) (room : b.size < b.limit)
    (h : Holds rs results { b with calls := b.calls ++ [c] } b') :
    Holds (r :: rs) (.ok () :: results) b b' where
  length_results := congrArg (· + 1) h.length_results
  limit_eq := h.limit_eq
  calls_eq := by
    obtain ⟨added, hadded, hcalls⟩ := h.calls_eq
    refine ⟨c :: added, .cons prepared hadded, ?_⟩
    rw [hcalls, List.append_assoc, List.singleton_append]
  size_le _ := by
    refine h.size_le ?_
    rw [Batch.size, List.length_append, List.length_singleton]
    exact room

theorem Holds.refused {e : QueryError} (h : Holds rs results b b') :
    Holds (r :: rs) (.error e :: results) b b' where
  length_results := congrArg (· + 1) h.length_results
  limit_eq := h.limit_eq
  calls_eq := h.calls_eq
  size_le := h.size_le

/-- A batch holds what was there and the calls of the reads that were not refused. -/
theorem holds_registerAll (rs : List (Reading α)) (b : Batch α) :
    Holds rs (registerAll rs b).1 b (registerAll rs b).2 := by
  induction rs generalizing b with
  | nil => exact .nil b
  | cons r rs ih =>
    rw [registerAll, register_apply]
    cases hadd : r.add b with
    | error e => exact (ih b).refused
    | ok b' =>
      obtain ⟨c, prepared, room, rfl⟩ := add_eq_ok_iff.1 hadd
      exact (ih _).accepted prepared room

end Holds

end Reading

/-! ## Queries of one batch -/

/-- If the registration fails, a query of one batch returns its error and changes nothing; if the
endpoint is not ready, there is no registration. -/
theorem Engine.single_of_register_error (g : Engine w)
    {register : Batch α → Except QueryError (Batch α)} {e : QueryError}
    (h : register g.batch = .error e) (mode : Mode) (block : BlockTag) (s : Scene w α) :
    g.single register mode block s =
      match g.endpoint.ready s.world with
      | .error cause => (.error (.transport cause), s)
      | .ok () => (.error e, s) := by
  rw [single]
  cases g.endpoint.ready s.world with
  | error cause => rfl
  | ok _ => rw [h]

theorem Engine.query_eq (g : Engine w) (register : Batch α → Except QueryError (Batch α))
    (block : BlockTag) (s : Scene w α) :
    g.query register block s =
      ((g.single register .strict block s).1.map fun _ => (),
        (g.single register .strict block s).2) := by
  rw [query, QueryM.bind_apply]
  obtain ⟨result, s'⟩ := g.single register .strict block s
  cases result <;> rfl

/-! ## Shards with an item that fails -/

namespace Scheduler

/-- The items of a list are registered in order, and this is the first that fails, with what the
items before it have put into the batch. -/
structure Shipment.FailsAt (register : Registrar α) (b : Batch α) (items : List Nat)
    (before : List Nat) (item : Nat) (shipment : Shipment α) (fault : Fault) : Prop where
  split : ∃ after, items = before ++ item :: after
  registered : Shipment.register register b before = .ok shipment
  fails : register item shipment.batch = .error fault

/-- Items cannot be registered if and only if one of them fails; the calls of the items before it
are dropped. -/
theorem Shipment.register_eq_error_iff {register : Registrar α} {b : Batch α} {items : List Nat}
    {fault : Fault} :
    Shipment.register register b items = .error fault ↔
      ∃ before item shipment, FailsAt register b items before item shipment fault := by
  induction items generalizing b with
  | nil =>
    refine iff_of_false nofun ?_
    rintro ⟨before, item, shipment, ⟨after, h⟩, -⟩
    simp at h
  | cons first items ih =>
    rw [Shipment.register, bind_eq_error_iff]
    constructor
    · rintro (hfirst | ⟨b', hfirst, h⟩)
      · exact ⟨[], first, ⟨b, []⟩, ⟨items, rfl⟩, rfl, hfirst⟩
      · obtain h | ⟨rest, -, h⟩ := bind_eq_error_iff.1 h
        · obtain ⟨before, item, shipment, ⟨after, rfl⟩, hbefore, hitem⟩ := ih.1 h
          have hcons := Shipment.register_cons_eq_ok_iff.2 ⟨b', shipment, hfirst, hbefore, rfl⟩
          exact ⟨first :: before, item, _, ⟨after, rfl⟩, hcons, hitem⟩
        · cases h
    · rintro ⟨before, item, shipment, ⟨after, hitems⟩, hbefore, hitem⟩
      cases before with
      | nil =>
        cases hbefore
        obtain ⟨rfl, -⟩ := List.cons.inj hitems
        exact .inl hitem
      | cons x before =>
        obtain ⟨rfl, rfl⟩ := List.cons.inj hitems
        obtain ⟨b', rest, hfirst, hrest, rfl⟩ := Shipment.register_cons_eq_ok_iff.1 hbefore
        have htail := ih.2 ⟨before, item, rest, ⟨after, rfl⟩, hrest, hitem⟩
        exact .inr ⟨b', hfirst, bind_eq_error_iff.2 (.inl htail)⟩

/-- The error that a shard is refused with: that of its registration, unless the endpoint is not
ready, when the registration is not asked at all. -/
def Job.refusal (job : Job w α) (world : w) (shard : Nat) (fault : Fault) : QueryError :=
  match job.endpoint.ready world with
  | .error e => .shardDispatch shard e.message
  | .ok () => fault.toQueryError

/-- What a shard whose items cannot be registered has come to: it has not got to its batch. -/
inductive Unsent (job : Job w α) (W : w → Prop) (shard : Nat) (fault : Fault) : Phase α → Prop
  | waiting : Unsent job W shard fault .waiting
  | holding : Unsent job W shard fault .holding
  | ended {world : w} (hw : W world) :
    Unsent job W shard fault (.ended (.finished (.error (job.refusal world shard fault))))
  | cancelled : Unsent job W shard fault (.ended .cancelled)
  | joined {ending : Ending} (h : Unsent job W shard fault (.ended ending)) :
    Unsent job W shard fault (.joined ending)

section Unsent

variable {job : Job w α} {W : w → Prop} {i : Nat} {fault : Fault} {p : Phase α}
  {written : List (Nat × α)}

theorem Job.load_of_fault (h : job.shipment i = .error fault) (world : w) :
    job.load world i = .error (job.refusal world i fault) := by
  rw [load, refusal]
  cases job.endpoint.ready world with
  | error e => rfl
  | ok _ => rw [h]

/-- A shard whose items cannot be registered has written nothing. -/
theorem Reached.unsent (h : job.shipment i = .error fault) (reached : Reached job W i p written) :
    Unsent job W i fault p ∧ written = [] := by
  have hload := Job.load_of_fault h
  induction reached with
  | waiting => exact ⟨.waiting, rfl⟩
  | holding => exact ⟨.holding, rfl⟩
  | registered _ load | inFlight _ load | answered _ _ load =>
    rw [hload] at load
    cases load
  | writing _ _ completion =>
    rw [Job.completion_of_error (hload _)] at completion
    cases completion
  | finished hw =>
    rw [Job.completion_of_error (hload _)]
    exact ⟨.ended hw, rfl⟩
  | cancelled => exact ⟨.cancelled, rfl⟩
  | joined _ ih => exact ⟨.joined ih.1, ih.2⟩

/-- Nothing is sent from where such a shard stands. -/
theorem Unsent.trips_passage (h : Unsent job W i fault p) (world : w) (p' : Phase α) :
    Event.trips (job.passage world i p p') = [] := by
  cases h with
  | holding => exact job.trips_passage_holding world i p'
  | _ => rfl

end Unsent

namespace Run

section Discards

variable {job : Job w α} {permits : Nat} {scene : Scene w α} {moves : List Move} {i : Nat}
  {fault : Fault}

/-- What becomes of a shard whose items cannot be registered. -/
structure Discards (job : Job w α) (scene : Scene w α) (i : Nat) (fault : Fault)
    (events : List (Nat × Event)) (r : Run w α) : Prop where
  /-- It sends nothing. -/
  sends : Event.trips (eventsOf i events) = []
  /-- What is written is written by other shards, into slots that their calls are bound to. -/
  writes : ∃ log : List (Nat × Nat × α), r.scene.slots = scene.slots.write (log.map Prod.snd) ∧
    ∀ x ∈ log, x.1 ≠ i ∧ x.2.1 ∈ job.slots x.1
  /-- It ends with the error of its registration, unless it is stopped before. -/
  ending : ∀ ending, r.phase i = .ended ending ∨ r.phase i = .joined ending →
    (ending = .cancelled ∧ r.aborted = true) ∨
      ∃ world, job.Meets scene.world world ∧
        ending = .finished (.error (job.refusal world i fault))
  /-- The query fails with the error of a shard, which is this one if no other one fails. -/
  fails : r.IsOver → ∃ j cause, r.result = .error cause ∧
    r.phase j = .joined (.finished (.error cause))
  own : r.IsOver → (∀ j cause, r.phase j = .joined (.finished (.error cause)) → j = i) →
    ∃ world, job.Meets scene.world world ∧ r.result = .error (job.refusal world i fault)

/-- A shard that cannot be registered has an item, and so is one of the plan. -/
theorem lt_count_of_fault (h : job.shipment i = .error fault) : i < job.plan.count := by
  by_contra hi
  have hitems : job.plan.items i = [] := by
    rw [ShardPlan.items, ShardPlan.shard?_of_le _ (Nat.le_of_not_lt hi)]
    rfl
  rw [Job.shipment, hitems] at h
  cases h

/-- After any list of moves such a shard stands before its batch and has written nothing. -/
theorem unsent_after (h : job.shipment i = .error fault) (permits : Nat) (scene : Scene w α)
    (moves : List Move) :
    Unsent job (job.Meets scene.world) i fault
        (((start job permits scene).after job moves).phase i) ∧
      ∃ log, Sound job (job.Meets scene.world) scene.slots
        ((start job permits scene).after job moves) log ∧ writtenBy i log = [] := by
  obtain ⟨log, hsound⟩ := sound_after (job.keeps_meets scene.world) permits .first moves
  obtain ⟨hunsent, hwritten⟩ := (hsound.reached i (lt_count_of_fault h)).unsent h
  exact ⟨hunsent, log, hsound, hwritten⟩

/-- Such a shard sends nothing. -/
theorem trips_eventsOf_of_fault (h : job.shipment i = .error fault) (permits : Nat)
    (scene : Scene w α) (moves : List Move) :
    Event.trips (eventsOf i ((start job permits scene).events job moves)) = [] := by
  induction moves using List.reverseRecOn with
  | nil => rfl
  | append_singleton moves m ih =>
    have hunsent := (unsent_after h permits scene moves).1
    rw [events_append, events_singleton, eventsOf_append, Event.trips_append, ih, List.nil_append]
    by_cases hm : i = m.shard
    · subst hm
      rw [eventsOf_self]
      exact hunsent.trips_passage _ _
    · rw [eventsOf_of_ne hm]
      rfl

/-- Whatever the interleaving, nothing comes of such a shard but its error. -/
theorem discards_after (h : job.shipment i = .error fault) (permits : Nat) (scene : Scene w α)
    (moves : List Move) :
    Discards job scene i fault ((start job permits scene).events job moves)
      ((start job permits scene).after job moves) := by
  have hsends := trips_eventsOf_of_fault h permits scene moves
  obtain ⟨hunsent, log, hsound, hwritten⟩ := unsent_after h permits scene moves
  have recorded := recorded_after job permits scene moves
  generalize (start job permits scene).after job moves = r at *
  have hlt : i < r.phases.length := hsound.length_phases ▸ lt_count_of_fault h
  have hending : ∀ ending, r.phase i = .ended ending ∨ r.phase i = .joined ending →
      (ending = .cancelled ∧ r.aborted = true) ∨ ∃ world, job.Meets scene.world world ∧
        ending = .finished (.error (job.refusal world i fault)) := by
    intro ending hp
    have hended : Unsent job (job.Meets scene.world) i fault (.ended ending) := by
      rcases hp with hp | hp
      · rwa [hp] at hunsent
      · rw [hp] at hunsent
        cases hunsent with
        | joined h => exact h
    cases hended with
    | ended hw => exact .inr ⟨_, hw, rfl⟩
    | cancelled => exact .inl ⟨rfl, recorded.cancelled i hlt hp⟩
  have hfails : r.IsOver → ∃ j cause, r.result = .error cause ∧
      r.phase j = .joined (.finished (.error cause)) := by
    intro hover
    obtain ⟨ending, hp⟩ := hover.exists_joined hlt
    have hsome : r.firstError.isSome = true := by
      rcases hending ending (.inr hp) with ⟨-, haborted⟩ | ⟨world, -, rfl⟩
      · exact (recorded.aborted.1 haborted).1
      · exact recorded.failed i _ hp
    obtain ⟨cause, hcause⟩ := Option.isSome_iff_exists.1 hsome
    obtain ⟨j, -, hj⟩ := recorded.first cause hcause
    exact ⟨j, cause, result_eq_error_iff.2 hcause, hj⟩
  refine ⟨hsends, ⟨log, hsound.slots, fun x hx => ⟨?_, hsound.mem_slots hx⟩⟩, hending, hfails, ?_⟩
  · rintro rfl
    have hmem : x.2 ∈ writtenBy x.1 log :=
      List.mem_map.2 ⟨x, List.mem_filter.2 ⟨hx, by simp⟩, rfl⟩
    rw [hwritten] at hmem
    cases hmem
  · intro hover honly
    obtain ⟨j, cause, hresult, hj⟩ := hfails hover
    obtain rfl := honly j cause hj
    rcases hending _ (.inr hj) with ⟨hcancelled, -⟩ | ⟨world, hw, hcause⟩
    · cases hcancelled
    · cases hcause
      exact ⟨world, hw, hresult⟩

end Discards

end Run

/-- A sharded query with an item that cannot be registered fails. -/
theorem run_of_fault {s : Scheduler} (hs : 0 < s.concurrency) {e : Endpoint w} {plan : ShardPlan}
    {mode : Mode} {block : BlockTag} {register : Registrar α} {scene : Scene w α} {i : Nat}
    {fault : Fault} (h : (s.job e plan mode block register).shipment i = .error fault) :
    ∃ moves r, r = (Run.start (s.job e plan mode block register) s.concurrency scene).after
        (s.job e plan mode block register) moves ∧ r.IsOver ∧
      (s.run e plan.total plan.shardSize mode block register scene).1 = r.result ∧
      (s.run e plan.total plan.shardSize mode block register scene).2.slots = r.scene.slots ∧
      ∃ cause, r.result = .error cause := by
  obtain ⟨moves, r, now, rfl, hover, hrun⟩ :=
    run_is_interleaving hs e plan mode block register scene
  obtain ⟨-, cause, hcause, -⟩ := (Run.discards_after h s.concurrency scene moves).fails hover
  rw [hrun]
  exact ⟨moves, _, rfl, hover, rfl, rfl, cause, hcause⟩

end Scheduler

/-- A registration that fails leaves no trace.  A read either puts one call behind those of the
batch, or is refused and leaves the batch as it was; and so a batch holds the calls of the reads
that were not refused, in order and within its limit.  A query whose registration fails makes no
round trip, writes nothing and returns the error of the registration, and so does a shard with an
item that fails, whatever the items before it have registered. -/
theorem failed_registration_leaves_no_trace :
    (∀ (r : Reading α) (b : Batch α),
      (∃ c, r.prepared = .ok c ∧ c.target = r.contract.address ∧
        r.contract.encodeCall r.method r.args = .ok c.calldata ∧
        r.add b = .ok { b with calls := b.calls ++ [c] } ∧
        r.register b = (.ok (), { b with calls := b.calls ++ [c] })) ∨
      ∃ e, r.Refused b e ∧ r.add b = .error e ∧ r.register b = (.error e, b)) ∧
    (∀ (rs : List (Reading α)) (b : Batch α),
      Reading.Holds rs (Reading.registerAll rs b).1 b (Reading.registerAll rs b).2) ∧
    (∀ (g : Engine w) (register : Registration α) (e : QueryError) (dropped : Batch α),
      register g.batch = (.error e, dropped) → ∀ block (s : Scene w α),
      (g.endpoint.ready s.world = .ok () →
        g.query register.result block s = (.error e, s) ∧
          g.flexQuery register.result block s = (.error e, s)) ∧
      ∀ cause, g.endpoint.ready s.world = .error cause →
        g.query register.result block s = (.error (.transport cause), s) ∧
          g.flexQuery register.result block s = (.error (.transport cause), s)) ∧
    ∀ (s : Scheduler) (e : Endpoint w) (plan : ShardPlan) (mode : Mode) (block : BlockTag)
      (register : Scheduler.Registrar α) (scene : Scene w α) (i : Nat) (before : List Nat)
      (item : Nat) (dropped : Scheduler.Shipment α) (fault : Scheduler.Fault),
      Scheduler.Shipment.FailsAt register (Batch.empty s.limit) (plan.items i) before item dropped
        fault →
      (∀ permits moves, Scheduler.Run.Discards (s.job e plan mode block register) scene i fault
        ((Scheduler.Run.start (s.job e plan mode block register) permits scene).events
          (s.job e plan mode block register) moves)
        ((Scheduler.Run.start (s.job e plan mode block register) permits scene).after
          (s.job e plan mode block register) moves)) ∧
      (0 < s.concurrency → ∃ moves r,
        r = (Scheduler.Run.start (s.job e plan mode block register) s.concurrency scene).after
          (s.job e plan mode block register) moves ∧ r.IsOver ∧
        (s.run e plan.total plan.shardSize mode block register scene).1 = r.result ∧
        (s.run e plan.total plan.shardSize mode block register scene).2.slots = r.scene.slots ∧
        ∃ cause, r.result = .error cause) := by
  refine ⟨fun r b => ?_, Reading.holds_registerAll, fun g register e dropped h block s => ?_,
    fun s e plan mode block register scene i before item dropped fault h => ?_⟩
  · rw [Reading.register_apply]
    cases hadd : r.add b with
    | ok b' =>
      obtain ⟨c, prepared, -, rfl⟩ := Reading.add_eq_ok_iff.1 hadd
      obtain ⟨htarget, hcalldata, -⟩ := Reading.prepared_eq_ok prepared
      exact .inl ⟨c, prepared, htarget, hcalldata, rfl, rfl⟩
    | error e => exact .inr ⟨e, Reading.add_eq_error_iff.1 hadd, rfl, rfl⟩
  · have hresult : register.result g.batch = .error e := by rw [Registration.result, h]
    have hsingle := fun mode => g.single_of_register_error hresult mode block s
    constructor
    · intro ready
      rw [Engine.query_eq, Engine.flexQuery, hsingle, hsingle, ready]
      exact ⟨rfl, rfl⟩
    · intro cause ready
      rw [Engine.query_eq, Engine.flexQuery, hsingle, hsingle, ready]
      exact ⟨rfl, rfl⟩
  · have hfault : (s.job e plan mode block register).shipment i = .error fault :=
      Scheduler.Shipment.register_eq_error_iff.2 ⟨before, item, dropped, h⟩
    exact ⟨fun permits => Scheduler.Run.discards_after hfault permits scene,
      fun hs => Scheduler.run_of_fault hs hfault⟩

/-! ## The second of three items is torn down -/

namespace SecondTorn

open Scheduler (Move Registrar Run)

/-- An engine whose endpoint keeps the batches that it is handed. -/
def engine : Engine (List RoundTrip) := ⟨Scheduler.keeper, {}, rfl⟩

/-- An engine whose endpoint is not there yet. -/
def absent : Engine (List RoundTrip) :=
  { engine with
    endpoint := { Scheduler.keeper with ready := fun _ => .error (.timeout 5) } }

def scene : Scene (List RoundTrip) Bytes := ⟨[], 0, .empty 3⟩

def call : Call Bytes := ⟨default, [7], 0, .ok⟩

/-- Puts a call into the batch and is torn down. -/
def registration : QueryM (Batch Bytes) Unit :=
  Batch.push call >>= fun _ => .ofExcept (.error (.panicked "torn down"))

/-- The registration of the second item is torn down. -/
def register : Registrar Bytes := fun item b =>
  if item = 1 then .error (.panic "torn down") else Scheduler.registerThree item b

/-- The first shard has the first two items, and the second shard the third. -/
def job : Scheduler.Job (List RoundTrip) Bytes :=
  (Scheduler.make 2 2 .runToCompletion).job Scheduler.keeper Scheduler.twoShards .flexible .latest
    register

def moves : List Move :=
  [⟨.grant, 0⟩, ⟨.grant, 1⟩, ⟨.register, 0⟩, ⟨.register, 1⟩, ⟨.submit, 1⟩, ⟨.answer, 1⟩,
    ⟨.settle, 1⟩, ⟨.write, 1⟩, ⟨.write, 1⟩, ⟨.join, 0⟩, ⟨.join, 1⟩]

def run : Run (List RoundTrip) Bytes := (Run.start job 2 scene).after job moves

/-- When the second item fails, the call of the first one is in the batch. -/
theorem failsAt : Scheduler.Shipment.FailsAt register (Batch.empty 2) (Scheduler.twoShards.items 0)
    [0] 1 ⟨⟨[call], 2⟩, [1]⟩ (.panic "torn down") :=
  ⟨⟨[], by decide⟩, rfl, rfl⟩

/-- The second shard is carried out. -/
theorem phase_one : run.phase 1 = .joined (.finished (.ok [false])) := rfl

theorem eq_zero_of_fails {j : Nat} {cause : QueryError}
    (h : run.phase j = .joined (.finished (.error cause))) : j = 0 := by
  rcases j with _ | _ | j
  · rfl
  · rw [phase_one] at h
    cases h
  · have hlength : run.phases.length ≤ j + 2 := by
      show 2 ≤ j + 2
      omega
    rw [Run.phase_of_length_le hlength] at h
    cases h

/-- Both queries of one batch and the first shard drop the call that was registered before the
failure.  The second shard is sent. -/
theorem failed_registration_leaves_no_trace_torn :
    registration engine.batch = (.error (.panicked "torn down"), ⟨[call], 2000⟩) ∧
    engine.query (Registration.result registration) .latest scene =
      (.error (.panicked "torn down"), scene) ∧
    engine.flexQuery (Registration.result registration) .latest scene =
      (.error (.panicked "torn down"), scene) ∧
    absent.query (Registration.result registration) .latest scene =
      (.error (.transport (.timeout 5)), scene) ∧
    Scheduler.Event.trips (Run.eventsOf 0 ((Run.start job 2 scene).events job moves)) = [] ∧
    run.result = .error (.panicked "torn down") ∧ run.scene.world.length = 1 ∧
    ∃ cause, ((Scheduler.make 2 2 .runToCompletion).run Scheduler.keeper 3 2 .flexible .latest
      register scene).1 = .error cause := by
  obtain ⟨-, -, single, sharded⟩ :=
    @failed_registration_leaves_no_trace (List RoundTrip) Bytes
  have hfails : registration engine.batch = (.error (.panicked "torn down"), ⟨[call], 2000⟩) := rfl
  obtain ⟨hready, -⟩ := single engine registration _ _ hfails .latest scene
  obtain ⟨-, habsent⟩ := single absent registration _ _ hfails .latest scene
  obtain ⟨discards, fails⟩ := sharded (Scheduler.make 2 2 .runToCompletion) Scheduler.keeper
    Scheduler.twoShards .flexible .latest register scene 0 _ _ _ _ failsAt
  have hdiscards : Run.Discards job scene 0 (.panic "torn down")
      ((Run.start job 2 scene).events job moves) run := discards 2 moves
  have hover : run.IsOver := by decide
  obtain ⟨world, -, hresult⟩ := hdiscards.own hover fun j cause => eq_zero_of_fails
  obtain ⟨-, r, -, -, hrun, -, cause, hcause⟩ := fails (by decide)
  exact ⟨hfails, (hready rfl).1, (hready rfl).2, (habsent _ rfl).1, hdiscards.sends, hresult,
    by decide, cause, hrun.trans hcause⟩

end SecondTorn

end ContractReads
