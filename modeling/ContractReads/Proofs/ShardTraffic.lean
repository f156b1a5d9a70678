import ContractReads.Proofs.ShardedQuery

/-!
# What shards send

A run asks the registration for the calls of items and hands batches to the endpoint.
`Run.events` lists both, each with its shard, in the order of the moves.

* `Batch.Grows` says what a registration can do to a batch: register calls, one after the other.
  `calls_shipment` puts the calls of a shard's items together, item by item.
* `Course` says which events a shard has behind it in each of its phases, if the endpoint is
  ready and no item fails.  `Course.step` is the step lemma, `course_after` carries it along a list
  of moves.
* `perm_eventsOf` puts the shards back together: no event belongs to no shard.
* `kept_after` says that the batches of the events are those that the endpoint is handed.

`runToCompletion_conveys` says what follows for a run that is over: nothing is lost, sent twice,
reordered inside its shard or sent in a batch that is too large.
-/

namespace ContractReads

variable {w α : Type}

/-! ## Batches that calls are registered in -/

namespace Batch

/-- A batch that calls were registered in, one after the other. -/
inductive Grows (b : Batch α) : Batch α → Prop
  | same : Grows b b
  | add {b' b'' : Batch α} {c : Call α} (grows : Grows b b') (added : b'.add c = .ok b'') :
    Grows b b''

theorem add_eq_ok_iff {b b' : Batch α} {c : Call α} :
    b.add c = .ok b' ↔ b.size < b.limit ∧ b' = { b with calls := b.calls ++ [c] } := by
  unfold add
  split
  · rename_i room
    simp [room, eq_comm]
  · rename_i full
    simp [full]

/-- The calls that were there stay in front, and the limit stays. -/
theorem Grows.calls_eq {b b' : Batch α} (h : b.Grows b') :
    b'.limit = b.limit ∧ ∃ new, b'.calls = b.calls ++ new := by
  induction h with
  | same => exact ⟨rfl, [], by simp⟩
  | add _ added ih =>
    obtain ⟨hlimit, new, hcalls⟩ := ih
    obtain ⟨-, rfl⟩ := add_eq_ok_iff.1 added
    exact ⟨hlimit, _, by rw [hcalls, List.append_assoc]⟩

/-- A batch does not grow beyond its limit. -/
theorem Grows.size_le {b b' : Batch α} (h : b.Grows b') (hb : b.size ≤ b.limit) :
    b'.size ≤ b'.limit := by
  induction h with
  | same => exact hb
  | add _ added _ =>
    obtain ⟨room, rfl⟩ := add_eq_ok_iff.1 added
    rw [size, List.length_append, List.length_singleton]
    exact room

theorem Grows.trans {b b' b'' : Batch α} (h : b.Grows b') (h' : b'.Grows b'') : b.Grows b'' := by
  induction h' with
  | same => exact h
  | add _ added ih => exact .add ih added

/-- Calls that there is room for can be registered. -/
theorem grows_of_room {b : Batch α} {new : List (Call α)} (room : b.size + new.length ≤ b.limit) :
    b.Grows { b with calls := b.calls ++ new } := by
  induction new using List.reverseRecOn with
  | nil =>
    rw [List.append_nil]
    exact .same
  | append_singleton new c ih =>
    rw [List.length_append, List.length_singleton] at room
    refine .add (c := c) (ih (by omega)) (add_eq_ok_iff.2 ⟨?_, ?_⟩)
    · show (b.calls ++ new).length < b.limit
      rw [List.length_append]
      exact Nat.lt_of_succ_le room
    · rw [List.append_assoc]

end Batch

/-- An endpoint whose world keeps the batches that it is handed. -/
structure Endpoint.Records (e : Endpoint w) (kept : w → List RoundTrip) : Prop where
  submit : ∀ trip world, kept (e.submit trip world).2 = kept world ++ [trip]
  answer : ∀ trip world, kept (e.answer trip world).2.2 = kept world

namespace Scheduler

/-- A registration reaches batches only by registering calls in them. -/
def OnlyAdds (register : Registrar α) : Prop :=
  ∀ item (b b' : Batch α), register item b = .ok b' → b.Grows b'

section Shipments

variable {register : Registrar α} {b : Batch α}

/-- Items are registered in two parts. -/
theorem Shipment.register_append {xs ys : List Nat} {s : Shipment α}
    (h : Shipment.register register b (xs ++ ys) = .ok s) :
    ∃ first second, Shipment.register register b xs = .ok first ∧
      Shipment.register register first.batch ys = .ok second ∧ s.batch = second.batch := by
  induction xs generalizing b s with
  | nil => exact ⟨⟨b, []⟩, s, rfl, h, rfl⟩
  | cons item xs ih =>
    obtain ⟨b', rest, hitem, hrest, rfl⟩ := Shipment.register_cons_eq_ok_iff.1 h
    obtain ⟨first, second, hfirst, hsecond, hbatch⟩ := ih hrest
    have hcons := Shipment.register_cons_eq_ok_iff.2 ⟨b', first, hitem, hfirst, rfl⟩
    exact ⟨_, second, hcons, hsecond, hbatch⟩

theorem Shipment.register_singleton {item : Nat} {s : Shipment α}
    (h : Shipment.register register b [item] = .ok s) : register item b = .ok s.batch := by
  obtain ⟨b', rest, hitem, hrest, rfl⟩ := Shipment.register_cons_eq_ok_iff.1 h
  cases hrest
  exact hitem

theorem Shipment.grows_of_register (adds : OnlyAdds register) {items : List Nat} {s : Shipment α}
    (h : Shipment.register register b items = .ok s) : b.Grows s.batch := by
  induction items generalizing b s with
  | nil =>
    cases h
    exact .same
  | cons item items ih =>
    obtain ⟨b', rest, hitem, hrest, rfl⟩ := Shipment.register_cons_eq_ok_iff.1 h
    have hgrows : b'.Grows rest.batch := ih hrest
    exact (adds item b b' hitem).trans hgrows

/-- The items that the registration is asked for: all up to the first that fails. -/
def Shipment.asked (register : Registrar α) (b : Batch α) : List Nat → List Nat
  | [] => []
  | item :: items =>
    item ::
      match register item b with
      | .ok b' => Shipment.asked register b' items
      | .error _ => []

/-- If no item fails, the registration is asked for each of them. -/
theorem Shipment.asked_of_ok {items : List Nat} {s : Shipment α}
    (h : Shipment.register register b items = .ok s) :
    Shipment.asked register b items = items := by
  induction items generalizing b s with
  | nil => rfl
  | cons item items ih =>
    obtain ⟨b', rest, hitem, hrest, rfl⟩ := Shipment.register_cons_eq_ok_iff.1 h
    rw [Shipment.asked, hitem]
    show item :: Shipment.asked register b' items = item :: items
    rw [ih hrest]

end Shipments

/-! ## The calls of an item -/

namespace Job

variable {job : Job w α}

/-- The calls that the registration of an item adds to the batch of its shard, which holds those
of the items before it. -/
def itemCalls (job : Job w α) (item : Nat) : List (Call α) :=
  let first := item / job.plan.shardSize * job.plan.shardSize
  match Shipment.register job.register (Batch.empty job.limit)
      (List.range' first (item - first)) with
  | .error _ => []
  | .ok before =>
    match job.register item before.batch with
    | .error _ => []
    | .ok b => b.calls.drop before.batch.size

theorem itemCalls_eq {i n : Nat} (hn : n < job.plan.shardSize) {before : Shipment α} {b : Batch α}
    (hbefore : Shipment.register job.register (Batch.empty job.limit)
      (List.range' (i * job.plan.shardSize) n) = .ok before)
    (hb : job.register (i * job.plan.shardSize + n) before.batch = .ok b) :
    job.itemCalls (i * job.plan.shardSize + n) = b.calls.drop before.batch.size := by
  have hdiv : (i * job.plan.shardSize + n) / job.plan.shardSize = i := by
    rw [Nat.add_comm, Nat.add_mul_div_right _ _ job.plan.shardSize_pos, Nat.div_eq_of_lt hn,
      Nat.zero_add]
  simp only [itemCalls, hdiv, Nat.add_sub_cancel_left, hbefore, hb]

/-- The batch of the first items of a shard holds their calls, item by item. -/
theorem calls_of_first_items (adds : OnlyAdds job.register) {i n : Nat}
    (hn : n ≤ job.plan.shardSize) {s : Shipment α}
    (h : Shipment.register job.register (Batch.empty job.limit)
      (List.range' (i * job.plan.shardSize) n) = .ok s) :
    s.batch.calls = (List.range' (i * job.plan.shardSize) n).flatMap job.itemCalls := by
  induction n generalizing s with
  | zero =>
    cases h
    rfl
  | succ n ih =>
    rw [List.range'_1_concat] at h ⊢
    obtain ⟨before, own, hbefore, hown, hbatch⟩ := Shipment.register_append h
    have hitem := Shipment.register_singleton hown
    obtain ⟨-, new, hnew⟩ := (adds _ _ _ hitem).calls_eq
    rw [List.flatMap_append, List.flatMap_singleton, ← ih (Nat.le_of_succ_le hn) hbefore,
      itemCalls_eq hn hbefore hitem, hbatch, hnew, Batch.size, List.drop_left]

/-- The batch of a shard holds the calls of its items, item by item, and keeps to the limit. -/
theorem calls_shipment (adds : OnlyAdds job.register) {i : Nat} (hi : i < job.plan.count)
    {s : Shipment α} (h : job.shipment i = .ok s) :
    s.batch.calls = (job.plan.items i).flatMap job.itemCalls ∧ s.batch.size ≤ job.limit := by
  have hgrows := Shipment.grows_of_register adds h
  refine ⟨?_, ?_⟩
  · rw [shipment, ShardPlan.items_of_lt _ hi] at h
    rw [ShardPlan.items_of_lt _ hi]
    exact calls_of_first_items adds (by omega) h
  · rw [← show s.batch.limit = job.limit from hgrows.calls_eq.1]
    exact hgrows.size_le (Nat.zero_le _)

end Job

/-! ## Events -/

/-- What a shard has to do with the registration and the endpoint. -/
inductive Event
  /-- The registration is asked for the calls of an item. -/
  | asks (item : Nat)
  /-- A batch is handed to the endpoint. -/
  | sends (trip : RoundTrip)

namespace Event

/-- The items that the registration is asked for. -/
def items (events : List Event) : List Nat :=
  events.filterMap fun
    | asks item => some item
    | sends _ => none

/-- The batches that are handed to the endpoint. -/
def trips (events : List Event) : List RoundTrip :=
  events.filterMap fun
    | asks _ => none
    | sends trip => some trip

@[simp] theorem items_append (xs ys : List Event) : items (xs ++ ys) = items xs ++ items ys :=
  List.filterMap_append

@[simp] theorem trips_append (xs ys : List Event) : trips (xs ++ ys) = trips xs ++ trips ys :=
  List.filterMap_append

theorem items_flatMap {β : Type} (xs : List β) (f : β → List Event) :
    items (xs.flatMap f) = xs.flatMap fun x => items (f x) :=
  List.filterMap_flatMap

theorem trips_flatMap {β : Type} (xs : List β) (f : β → List Event) :
    trips (xs.flatMap f) = xs.flatMap fun x => trips (f x) :=
  List.filterMap_flatMap

@[simp] theorem items_map_asks (xs : List Nat) : items (xs.map asks) = xs := by
  simp [items, List.filterMap_map]

@[simp] theorem trips_map_asks (xs : List Nat) : trips (xs.map asks) = [] := by
  simp [trips, List.filterMap_map]

@[simp] theorem items_map_sends (xs : List RoundTrip) : items (xs.map sends) = [] := by
  simp [items, List.filterMap_map]

@[simp] theorem trips_map_sends (xs : List RoundTrip) : trips (xs.map sends) = xs := by
  simp [trips, List.filterMap_map]

end Event

namespace Job

/-- What a shard does on its way from one phase to another: it asks for the calls of its items
when it goes on with its permit, and sends its batch when that is in flight. -/
def passage (job : Job w α) (world : w) (shard : Nat) : Phase α → Phase α → List Event
  | .holding, .registered _ | .holding, .ended (.finished _) =>
    match job.endpoint.ready world with
    | .ok () =>
      (Shipment.asked job.register (Batch.empty job.limit) (job.plan.items shard)).map .asks
    | .error _ => []
  | .registered s, .inFlight _ => [.sends (job.trip s)]
  | _, _ => []

@[simp] theorem passage_self (job : Job w α) (world : w) (shard : Nat) (p : Phase α) :
    job.passage world shard p p = [] := by
  cases p <;> rfl

/-- With its permit a shard asks for calls and sends nothing. -/
theorem trips_passage_holding (job : Job w α) (world : w) (shard : Nat) (p : Phase α) :
    Event.trips (job.passage world shard .holding p) = [] := by
  rw [passage.eq_def]
  split
  · split
    · exact Event.trips_map_asks _
    · rfl
  · split
    · exact Event.trips_map_asks _
    · rfl
  · rename_i hholding
    cases hholding
  · rfl

/-- The batch of a shard, unless it is empty. -/
def tripsOf (job : Job w α) (shard : Nat) : List RoundTrip :=
  match job.shipment shard with
  | .ok s => if s.batch.isEmpty then [] else [job.trip s]
  | .error _ => []

/-- All events of a shard whose items can be registered. -/
def allEvents (job : Job w α) (shard : Nat) : List Event :=
  (job.plan.items shard).map .asks ++ (job.tripsOf shard).map .sends

theorem items_allEvents (job : Job w α) (shard : Nat) :
    Event.items (job.allEvents shard) = job.plan.items shard := by
  rw [allEvents, Event.items_append, Event.items_map_asks, Event.items_map_sends, List.append_nil]

theorem trips_allEvents (job : Job w α) (shard : Nat) :
    Event.trips (job.allEvents shard) = job.tripsOf shard := by
  rw [allEvents, Event.trips_append, Event.trips_map_asks, Event.trips_map_sends, List.nil_append]

theorem length_tripsOf_le (job : Job w α) (shard : Nat) : (job.tripsOf shard).length ≤ 1 := by
  rw [tripsOf]
  split
  · split <;> simp
  · exact Nat.zero_le 1

/-- What a shard sends is its batch, which has a call. -/
theorem mem_tripsOf {job : Job w α} {shard : Nat} {trip : RoundTrip}
    (h : trip ∈ job.tripsOf shard) :
    ∃ s, job.shipment shard = .ok s ∧ s.batch.calls ≠ [] ∧ trip = job.trip s := by
  rw [tripsOf] at h
  split at h
  · rename_i s hs
    cases hcalls : s.batch.calls with
    | nil => simp [Batch.isEmpty, hcalls] at h
    | cons c cs =>
      refine ⟨s, hs, by simp [hcalls], ?_⟩
      simpa [Batch.isEmpty, hcalls] using h
  · cases h

section Registered

variable {job : Job w α} {i : Nat} {s : Shipment α}

/-- A shard sends the calls of its items, item by item. -/
theorem calls_tripsOf (adds : OnlyAdds job.register) (hi : i < job.plan.count)
    (h : job.shipment i = .ok s) :
    (job.tripsOf i).flatMap RoundTrip.calls =
      ((job.plan.items i).flatMap job.itemCalls).map fun c => ⟨c.target, c.calldata⟩ := by
  rw [← (calls_shipment adds hi h).1, tripsOf, h]
  cases hcalls : s.batch.calls with
  | nil => simp [Batch.isEmpty, hcalls]
  | cons c cs => simp [Batch.isEmpty, hcalls, trip, Batch.roundTrip, Call.encoded]

/-- A shard sends a batch if one of its items has a call. -/
theorem length_tripsOf (adds : OnlyAdds job.register) (hi : i < job.plan.count)
    (h : job.shipment i = .ok s) :
    (job.tripsOf i).length =
      if (job.plan.items i).all fun item => (job.itemCalls item).isEmpty then 0 else 1 := by
  have hnone : ((job.plan.items i).all fun item => (job.itemCalls item).isEmpty) =
      s.batch.isEmpty := by
    rw [Batch.isEmpty, (calls_shipment adds hi h).1, Bool.eq_iff_iff]
    simp
  rw [tripsOf, h, hnone]
  cases hempty : s.batch.isEmpty <;> simp [hempty]

end Registered

end Job

namespace Run

/-- What the moves of a list have to do with the registration and the endpoint, each event with
its shard. -/
def events (job : Job w α) (r : Run w α) : List Move → List (Nat × Event)
  | [] => []
  | m :: moves =>
    (job.passage r.scene.world m.shard (r.phase m.shard) ((r.move job m).phase m.shard)).map
        (m.shard, ·) ++
      events job (r.move job m) moves

/-- The events of one shard. -/
def eventsOf (i : Nat) (events : List (Nat × Event)) : List Event :=
  (events.filter fun x => x.1 == i).map Prod.snd

section Events

variable {job : Job w α} {r r' : Run w α}

theorem events_append (job : Job w α) (r : Run w α) (xs ys : List Move) :
    r.events job (xs ++ ys) = r.events job xs ++ (r.after job xs).events job ys := by
  induction xs generalizing r with
  | nil => rfl
  | cons m xs ih => rw [List.cons_append, events, events, ih, List.append_assoc, after_cons]

theorem eventsOf_append (i : Nat) (xs ys : List (Nat × Event)) :
    eventsOf i (xs ++ ys) = eventsOf i xs ++ eventsOf i ys := by
  simp [eventsOf]

theorem eventsOf_self (i : Nat) (es : List Event) : eventsOf i (es.map (i, ·)) = es := by
  simp [eventsOf, List.filter_map, Function.comp_def]

theorem eventsOf_of_ne {i j : Nat} (h : j ≠ i) (es : List Event) :
    eventsOf j (es.map (i, ·)) = [] := by
  simp [eventsOf, List.filter_map, Function.comp_def, Ne.symm h]

/-- Shard by shard, the events are all events in another order. -/
theorem perm_eventsOf {n : Nat} {events : List (Nat × Event)} (h : ∀ x ∈ events, x.1 < n) :
    (events.map Prod.snd).Perm ((List.range n).flatMap fun i => eventsOf i events) := by
  induction events with
  | nil =>
    have hnone : ((List.range n).flatMap fun i => eventsOf i []) = [] :=
      List.flatMap_eq_nil_iff.2 fun _ _ => rfl
    rw [hnone]
    exact .refl _
  | cons x events ih =>
    have hx : x.1 < n := h x List.mem_cons_self
    have hself : eventsOf x.1 (x :: events) = x.2 :: eventsOf x.1 events := by
      simp [eventsOf]
    have hother : ∀ j, j ≠ x.1 → eventsOf j (x :: events) = eventsOf j events := by
      intro j hj
      simp [eventsOf, Ne.symm hj]
    rw [flatMap_range_of_ne (f := fun i => eventsOf i events) hx hother, hself, List.map_cons,
      List.append_assoc, List.cons_append]
    refine .trans (.cons _ (ih fun y hy => h y (List.mem_cons_of_mem x hy))) ?_
    rw [flatMap_range_split _ hx, List.append_assoc]
    exact List.perm_middle.symm

end Events

end Run

/-! ## The events behind a shard -/

/-- The events that a shard has behind it in each phase, if it is not stopped. -/
inductive Course (job : Job w α) (shard : Nat) : Phase α → List Event → Prop
  | waiting : Course job shard .waiting []
  | holding : Course job shard .holding []
  | registered {s : Shipment α} (shipment : job.shipment shard = .ok s) :
    Course job shard (.registered s) ((job.plan.items shard).map .asks)
  | inFlight {s : Shipment α} : Course job shard (.inFlight s) (job.allEvents shard)
  | answered {s : Shipment α} {a : Answer} :
    Course job shard (.answered s a) (job.allEvents shard)
  | writing {flags : List Bool} {writes : List (Nat × α)} :
    Course job shard (.writing flags writes) (job.allEvents shard)
  | ended {result : Except QueryError (List Bool)} :
    Course job shard (.ended (.finished result)) (job.allEvents shard)
  | joined {result : Except QueryError (List Bool)} :
    Course job shard (.joined (.finished result)) (job.allEvents shard)

section Course

variable {job : Job w α} {i : Nat} {p p' : Phase α} {events : List Event}

theorem Job.load_of_ready {world : w} (ready : job.endpoint.ready world = .ok ()) {s : Shipment α}
    (h : job.shipment i = .ok s) : job.load world i = .ok s := by
  rw [load, ready, h]

/-- A shard whose batch is empty has only asked for calls. -/
theorem Job.allEvents_of_isEmpty {s : Shipment α} (h : job.shipment i = .ok s)
    (empty : s.batch.isEmpty = true) : job.allEvents i = (job.plan.items i).map .asks := by
  simp [allEvents, tripsOf, h, empty]

/-- A shard with calls sends them last. -/
theorem Job.allEvents_of_calls {s : Shipment α} (h : job.shipment i = .ok s)
    (calls : s.batch.isEmpty = false) :
    job.allEvents i = (job.plan.items i).map .asks ++ [.sends (job.trip s)] := by
  simp [allEvents, tripsOf, h, calls]

/-- A step of a shard that is not stopped adds the events of its passage. -/
theorem Course.step {r r' : Run w α} {shipment : Shipment α}
    (ready : job.endpoint.ready r.scene.world = .ok ()) (registers : job.shipment i = .ok shipment)
    (haborted : r.aborted = false) (hstep : Run.Step job r i p p' r')
    (h : Course job i p events) :
    Course job i p' (events ++ job.passage r.scene.world i p p') := by
  have hload := Job.load_of_ready ready registers
  cases hstep with
  | granted =>
    cases h
    exact .holding
  | refused load =>
    rw [hload] at load
    cases load
  | registered load =>
    cases h
    rw [hload] at load
    cases load
    have hasked := Shipment.asked_of_ok registers
    simp only [Job.passage, ready, hasked, List.nil_append]
    exact .registered registers
  | skipped empty =>
    cases h with
    | registered own =>
      rw [← Job.allEvents_of_isEmpty own empty]
      simp only [Job.passage, List.append_nil]
      exact .ended
  | submitted calls =>
    cases h with
    | registered own =>
      simp only [Job.passage]
      rw [← Job.allEvents_of_calls own calls]
      exact .inFlight
  | answered =>
    cases h
    simp only [Job.passage, List.append_nil]
    exact .answered
  | rejected =>
    cases h
    simp only [Job.passage, List.append_nil]
    exact .ended
  | settled =>
    cases h
    simp only [Job.passage, List.append_nil]
    exact .writing
  | wrote =>
    cases h
    simp only [Job.passage, List.append_nil]
    exact .writing
  | finished =>
    cases h
    simp only [Job.passage, List.append_nil]
    exact .ended
  | stopped aborted =>
    rw [haborted] at aborted
    cases aborted
  | joined =>
    cases h
    simp only [Job.passage, List.append_nil]
    exact .joined

/-- A shard that is joined has all its events behind it. -/
theorem Course.eq_allEvents (h : Course job i p events) (hp : p.isJoined = true) :
    events = job.allEvents i := by
  cases h <;> first | rfl | cases hp

end Course

namespace Run

section Course

variable {job : Job w α} {permits : Nat} {scene : Scene w α}

/-- The events of a move are those of its shard's passage. -/
theorem events_singleton (job : Job w α) (r : Run w α) (m : Move) :
    r.events job [m] =
      (job.passage r.scene.world m.shard (r.phase m.shard) ((r.move job m).phase m.shard)).map
        (m.shard, ·) := by
  simp [events]

/-- After any list of moves each shard has the events behind it that its phase tells, and there are
no others. -/
theorem course_after (policy : job.policy = .runToCompletion)
    (ready : ∀ world, job.Meets scene.world world → job.endpoint.ready world = .ok ())
    (registers : ∀ i < job.plan.count, ∃ s, job.shipment i = .ok s) (moves : List Move) :
    (∀ i < job.plan.count, Course job i (((start job permits scene).after job moves).phase i)
      (eventsOf i ((start job permits scene).events job moves))) ∧
    ∀ x ∈ (start job permits scene).events job moves, x.1 < job.plan.count := by
  induction moves using List.reverseRecOn with
  | nil =>
    refine ⟨fun i hi => ?_, nofun⟩
    rw [after_nil, phase_start job permits scene hi]
    exact .waiting
  | append_singleton moves m ih =>
    obtain ⟨hcourse, hshards⟩ := ih
    obtain ⟨log, hsound⟩ := sound_after (job.keeps_meets scene.world) permits .first moves
    have haborted := (recorded_after job permits scene moves).not_aborted_of_policy policy
    rw [after_append, events_append, events_singleton]
    generalize (start job permits scene).after job moves = r at *
    generalize (start job permits scene).events job moves = events at *
    rw [after_cons, after_nil]
    rcases step_of_move job r m with hsame | ⟨p', hstep⟩
    · rw [hsame, Job.passage_self, List.map_nil, List.append_nil]
      exact ⟨hcourse, hshards⟩
    · have hm : m.shard < job.plan.count := hsound.length_phases ▸ hstep.lt_length
      obtain ⟨shipment, hshipment⟩ := registers m.shard hm
      have hown := (hcourse m.shard hm).step (ready _ hsound.world) hshipment haborted hstep
      rw [hstep.phase_self]
      refine ⟨fun i hi => ?_, fun x hx => ?_⟩
      · rw [eventsOf_append]
        by_cases hi' : i = m.shard
        · subst hi'
          rw [hstep.phase_self, eventsOf_self]
          exact hown
        · rw [hstep.phase_of_ne (Ne.symm hi'), eventsOf_of_ne hi', List.append_nil]
          exact hcourse i hi
      · rcases List.mem_append.1 hx with hx | hx
        · exact hshards x hx
        · obtain ⟨e, -, rfl⟩ := List.mem_map.1 hx
          exact hm

end Course

/-! ## What is kept at the endpoint -/

section Kept

variable {job : Job w α}

/-- A step adds the batches of its passage to those that the endpoint keeps. -/
theorem Step.kept_eq {kept : w → List RoundTrip} (records : job.endpoint.Records kept)
    {r r' : Run w α} {i : Nat} {p p' : Phase α} (h : Step job r i p p' r') :
    kept r'.scene.world =
      kept r.scene.world ++ Event.trips (job.passage r.scene.world i p p') := by
  cases h with
  | refused load | registered load =>
    rw [Job.trips_passage_holding, List.append_nil]
    rfl
  | submitted calls => exact records.submit _ _
  | answered => exact (records.answer _ _).trans (List.append_nil _).symm
  | joined =>
    rw [scene_takeIn]
    exact (List.append_nil _).symm
  | granted | skipped | rejected | settled | wrote | finished => exact (List.append_nil _).symm
  | @stopped p aborted suspended => cases p <;> exact (List.append_nil _).symm

/-- The events of a run send what the endpoint has been handed. -/
theorem kept_after {kept : w → List RoundTrip} (records : job.endpoint.Records kept)
    (r : Run w α) (moves : List Move) :
    kept (r.after job moves).scene.world =
      kept r.scene.world ++ Event.trips ((r.events job moves).map Prod.snd) := by
  induction moves generalizing r with
  | nil => exact (List.append_nil _).symm
  | cons m moves ih =>
    have hmove : kept (r.move job m).scene.world = kept r.scene.world ++
        Event.trips (job.passage r.scene.world m.shard (r.phase m.shard)
          ((r.move job m).phase m.shard)) := by
      rcases step_of_move job r m with hsame | ⟨p', hstep⟩
      · rw [hsame, Job.passage_self]
        exact (List.append_nil _).symm
      · rw [hstep.phase_self]
        exact hstep.kept_eq records
    rw [after_cons, ih, hmove, events, List.map_append, Event.trips_append, List.map_map,
      List.append_assoc]
    have hevents : ∀ es : List Event, es.map (Prod.snd ∘ (m.shard, ·)) = es :=
      fun es => List.map_id es
    rw [hevents]

end Kept

/-! ## Everything is conveyed once -/

/-- What a log of events conveys: everything that is registered, once, in order and in batches
that are not too large. -/
structure Conveys (job : Job w α) (log : List (Nat × Event)) : Prop where
  /-- Shard by shard, the calls that are sent are those of all items in order, each with the target
  and the calldata that it was registered with. -/
  calls : ((List.range job.plan.count).flatMap fun i =>
      (Event.trips (eventsOf i log)).flatMap RoundTrip.calls) =
    ((List.range job.plan.total).flatMap job.itemCalls).map fun c => ⟨c.target, c.calldata⟩
  /-- A shard sends one batch if one of its items has a call, and none otherwise. -/
  trips : ∀ i < job.plan.count, (Event.trips (eventsOf i log)).length =
    if (job.plan.items i).all fun item => (job.itemCalls item).isEmpty then 0 else 1
  /-- There are no other batches, and so at most one for each shard. -/
  total : (Event.trips (log.map Prod.snd)).Perm
      ((List.range job.plan.count).flatMap fun i => Event.trips (eventsOf i log)) ∧
    (Event.trips (log.map Prod.snd)).length ≤
      (job.plan.total + job.plan.shardSize - 1) / job.plan.shardSize
  /-- Each batch has a call and keeps to the limit. -/
  sizes : ∀ trip ∈ Event.trips (log.map Prod.snd),
    1 ≤ trip.calls.length ∧ trip.calls.length ≤ job.limit
  /-- Each batch has the mode and the block of the query. -/
  terms : ∀ trip ∈ Event.trips (log.map Prod.snd),
    trip.requireSuccess = (job.mode = .strict : Bool) ∧ trip.block = job.block
  /-- The registration is asked once for each item. -/
  asked : (Event.items (log.map Prod.snd)).Perm (List.range job.plan.total)

/-- A log in which every shard has all its events conveys everything once. -/
theorem conveys_of_allEvents {job : Job w α} {log : List (Nat × Event)}
    (adds : OnlyAdds job.register)
    (registers : ∀ i < job.plan.count, ∃ s, job.shipment i = .ok s)
    (hlog : ∀ i < job.plan.count, eventsOf i log = job.allEvents i)
    (hshards : ∀ x ∈ log, x.1 < job.plan.count) : Conveys job log := by
  have htrips : ∀ i < job.plan.count, Event.trips (eventsOf i log) = job.tripsOf i := by
    intro i hi
    rw [hlog i hi, Job.trips_allEvents]
  have hall : (Event.trips (log.map Prod.snd)).Perm
      ((List.range job.plan.count).flatMap fun i => Event.trips (eventsOf i log)) := by
    rw [← Event.trips_flatMap]
    exact (perm_eventsOf hshards).filterMap _
  have hmem : ∀ trip ∈ Event.trips (log.map Prod.snd), ∃ i s, i < job.plan.count ∧
      job.shipment i = .ok s ∧ s.batch.calls ≠ [] ∧ trip = job.trip s := by
    intro trip htrip
    obtain ⟨i, hi, htrip⟩ := List.mem_flatMap.1 (hall.mem_iff.1 htrip)
    have hi := List.mem_range.1 hi
    rw [htrips i hi] at htrip
    obtain ⟨s, hs, hcalls, htrip⟩ := Job.mem_tripsOf htrip
    exact ⟨i, s, hi, hs, hcalls, htrip⟩
  refine ⟨?_, ?_, ⟨hall, ?_⟩, ?_, ?_, ?_⟩
  · rw [← ShardPlan.flatMap_items, List.flatMap_assoc, List.map_flatMap]
    refine List.flatMap_congr fun i hi => ?_
    have hi := List.mem_range.1 hi
    obtain ⟨s, hs⟩ := registers i hi
    rw [htrips i hi, Job.calls_tripsOf adds hi hs]
  · intro i hi
    obtain ⟨s, hs⟩ := registers i hi
    rw [htrips i hi, Job.length_tripsOf adds hi hs]
  · have hone : ∀ n ∈ (List.range job.plan.count).map
        (fun i => (Event.trips (eventsOf i log)).length), n ≤ 1 := by
      intro n hn
      obtain ⟨i, hi, rfl⟩ := List.mem_map.1 hn
      rw [htrips i (List.mem_range.1 hi)]
      exact Job.length_tripsOf_le job i
    rw [hall.length_eq, List.length_flatMap]
    refine (List.sum_le_card_nsmul _ 1 hone).trans ?_
    simp [ShardPlan.count]
  · intro trip htrip
    obtain ⟨i, s, hi, hs, hcalls, rfl⟩ := hmem trip htrip
    have hsize := (Job.calls_shipment adds hi hs).2
    have hlength : (job.trip s).calls.length = s.batch.calls.length := List.length_map _
    rw [hlength]
    exact ⟨List.length_pos_iff.2 hcalls, hsize⟩
  · intro trip htrip
    obtain ⟨i, s, -, -, -, rfl⟩ := hmem trip htrip
    exact ⟨rfl, rfl⟩
  · have hitems : (Event.items (log.map Prod.snd)).Perm
        ((List.range job.plan.count).flatMap fun i => Event.items (eventsOf i log)) := by
      rw [← Event.items_flatMap]
      exact (perm_eventsOf hshards).filterMap _
    have hown : ((List.range job.plan.count).flatMap fun i => Event.items (eventsOf i log)) =
        (List.range job.plan.count).flatMap job.plan.items := by
      refine List.flatMap_congr fun i hi => ?_
      rw [hlog i (List.mem_range.1 hi), Job.items_allEvents]
    rw [hown, ShardPlan.flatMap_items] at hitems
    exact hitems

/-- When no shard can move any more, everything is conveyed. -/
theorem conveys_of_stuck {job : Job w α} {permits : Nat} {scene : Scene w α} {moves : List Move}
    (policy : job.policy = .runToCompletion)
    (ready : ∀ world, job.Meets scene.world world → job.endpoint.ready world = .ok ())
    (adds : OnlyAdds job.register)
    (registers : ∀ i < job.plan.count, ∃ s, job.shipment i = .ok s) (hpermits : 0 < permits)
    (stuck : ((start job permits scene).after job moves).IsStuck job) :
    Conveys job ((start job permits scene).events job moves) := by
  have hover := isOver_after_of_stuck hpermits stuck
  have hlength := length_phases_after job (start job permits scene) moves
  rw [length_phases_start] at hlength
  obtain ⟨hcourse, hshards⟩ := course_after policy ready registers moves
  refine conveys_of_allEvents adds registers (fun i hi => ?_) hshards
  refine (hcourse i hi).eq_allEvents ?_
  obtain ⟨ending, hending⟩ := hover.exists_joined (hlength.symm ▸ hi)
  rw [hending]
  rfl

end Run

/-- Without cancellation no call is lost, sent twice, reordered inside its shard or sent in a batch
that is too large, if the endpoint is ready and no item fails.  This holds for every number of
permits and every interleaving: shards do not move for ever, and when none can move any more, the
events of the run convey everything once, and an endpoint that keeps the batches it is handed has
kept those of the events.  What a scheduler does is one of the interleavings. -/
theorem runToCompletion_conveys (e : Endpoint w) (plan : ShardPlan) (mode : Mode)
    (block : BlockTag) {register : Registrar α} (adds : OnlyAdds register)
    (concurrency limit : Nat) (scene : Scene w α) {job : Job w α}
    (hjob : job = (make concurrency limit .runToCompletion).job e plan mode block register)
    (ready : ∀ world, job.Meets scene.world world → e.ready world = .ok ())
    (registers : ∀ i < plan.count, ∃ s, job.shipment i = .ok s) :
    (∀ schedule : Nat → Move, ∃ n,
      ((Run.start job (max concurrency 1) scene).after job ((List.range n).map schedule)).move job
          (schedule n) =
        (Run.start job (max concurrency 1) scene).after job ((List.range n).map schedule)) ∧
    (∀ moves, ((Run.start job (max concurrency 1) scene).after job moves).IsStuck job →
      Run.Conveys job ((Run.start job (max concurrency 1) scene).events job moves) ∧
      ∀ kept, e.Records kept →
        kept ((Run.start job (max concurrency 1) scene).after job moves).scene.world =
          kept scene.world ++ Event.trips
            (((Run.start job (max concurrency 1) scene).events job moves).map Prod.snd)) ∧
    ∃ moves, ((Run.start job (max concurrency 1) scene).after job moves).IsStuck job ∧
      ((make concurrency limit .runToCompletion).run e plan.total plan.shardSize mode block
          register scene).2.world =
        ((Run.start job (max concurrency 1) scene).after job moves).scene.world := by
  subst hjob
  refine ⟨Run.exists_idle_move _ _, fun moves stuck => ⟨?_, fun kept records => ?_⟩, ?_⟩
  · exact Run.conveys_of_stuck rfl ready adds registers (by omega) stuck
  · exact Run.kept_after records _ moves
  · have hconcurrency : 0 < (make concurrency limit .runToCompletion).concurrency := by
      show 0 < max concurrency 1
      omega
    obtain ⟨moves, r, now, rfl, hover, hrun⟩ :=
      run_is_interleaving hconcurrency e plan mode block register scene
    refine ⟨moves, hover.isStuck, ?_⟩
    rw [hrun]
    rfl

/-- An endpoint that keeps the batches it is handed; every call returns what it was sent. -/
def keeper : Endpoint (List RoundTrip) where
  name := "keeper"
  ready _ := .ok ()
  submit trip kept := (0, kept ++ [trip])
  answer trip kept := (.ok (trip.calls.map fun c => .success c.calldata), 0, kept)

theorem records_keeper : keeper.Records id := ⟨fun _ _ => rfl, fun _ _ => rfl⟩

theorem onlyAdds_registerThree : OnlyAdds registerThree := by
  intro item b b' h
  rw [registerThree] at h
  split at h
  · rename_i room
    cases h
    exact Batch.grows_of_room room
  · cases h

/-- Two shards, of which each can have a permit. -/
def keeperJob : Job (List RoundTrip) Bytes :=
  (make 2 2 .runToCompletion).job keeper twoShards .flexible .latest registerThree

/-- The second shard sends its batch first. -/
def keeperMoves : List Move :=
  [⟨.grant, 1⟩, ⟨.grant, 0⟩, ⟨.register, 1⟩, ⟨.submit, 1⟩, ⟨.register, 0⟩, ⟨.submit, 0⟩,
    ⟨.answer, 0⟩, ⟨.settle, 0⟩, ⟨.write, 0⟩, ⟨.write, 0⟩, ⟨.answer, 1⟩, ⟨.settle, 1⟩, ⟨.write, 1⟩,
    ⟨.write, 1⟩, ⟨.join, 0⟩, ⟨.join, 1⟩]

theorem isOver_keeper :
    ((Run.start keeperJob 2 ⟨[], 0, .empty 3⟩).after keeperJob keeperMoves).IsOver := by
  decide

theorem registers_keeper : ∀ i < twoShards.count, ∃ s, keeperJob.shipment i = .ok s := fun i hi =>
  ⟨_, Shipment.register_empty adds_registerThree (fits_twoShards i hi)⟩

/-- Three items in two shards: one batch with one call and one with two, and the endpoint keeps
both. -/
theorem runToCompletion_conveys_three :
    Run.Conveys keeperJob ((Run.start keeperJob 2 ⟨[], 0, .empty 3⟩).events keeperJob keeperMoves) ∧
      ((Run.start keeperJob 2 ⟨[], 0, .empty 3⟩).after keeperJob keeperMoves).scene.world =
        Event.trips
          (((Run.start keeperJob 2 ⟨[], 0, .empty 3⟩).events keeperJob keeperMoves).map
            Prod.snd) := by
  obtain ⟨-, conveys, -⟩ := runToCompletion_conveys keeper twoShards .flexible .latest
    onlyAdds_registerThree 2 2 ⟨[], 0, .empty 3⟩ (rfl : keeperJob = _) (fun _ _ => rfl)
    registers_keeper
  obtain ⟨hconveys, hkept⟩ := conveys keeperMoves isOver_keeper.isStuck
  exact ⟨hconveys, hkept id records_keeper⟩

end Scheduler

end ContractReads
