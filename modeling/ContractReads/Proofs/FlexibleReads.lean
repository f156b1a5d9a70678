import ContractReads.Proofs.ShardedQuery

/-!
# Reading one value per item

A list of items is read with one call per item, in a flexible query in shards.

* `Endpoint.Leads` follows the world of an endpoint through round trips, and says which calls they
  ask.  `Run.leads_after` says so of a run: it asks the calls of its items and no others.
* `Engine.flexBatchQuery_each` is what a flexible query comes to: its handler gets a flag for each
  item, in order, and finds the slots written.
* `Engine.flexReads_each` is for handlers that check items and leave everything as it is.  The query
  fails for the first item that is refused, or else gives the values of all items.
-/

namespace ContractReads

variable {w α β : Type}

/-! ## What an endpoint is asked -/

/-- The worlds that an endpoint comes to in round trips that ask only such calls. -/
inductive Endpoint.Leads (e : Endpoint w) (asked : EncodedCall → Prop) (first : w) : w → Prop
  | stays : Leads e asked first first
  | submit {world : w} {trip : RoundTrip} (before : Leads e asked first world)
    (calls : ∀ c ∈ trip.calls, asked c) : Leads e asked first (e.submit trip world).2
  | answer {world : w} {trip : RoundTrip} (before : Leads e asked first world)
    (calls : ∀ c ∈ trip.calls, asked c) : Leads e asked first (e.answer trip world).2.2

namespace Endpoint.Leads

variable {e : Endpoint w} {asked : EncodedCall → Prop} {first world : w}

theorem mono {asked' : EncodedCall → Prop} (h : e.Leads asked first world)
    (hasked : ∀ c, asked c → asked' c) : e.Leads asked' first world := by
  induction h with
  | stays => exact .stays
  | submit _ calls ih => exact .submit ih fun c hc => hasked c (calls c hc)
  | answer _ calls ih => exact .answer ih fun c hc => hasked c (calls c hc)

theorem trans {last : w} (h : e.Leads asked first world) (h' : e.Leads asked world last) :
    e.Leads asked first last := by
  induction h' with
  | stays => exact h
  | submit _ calls ih => exact .submit ih calls
  | answer _ calls ih => exact .answer ih calls

/-- What round trips keep is kept. -/
theorem keeps {mode : Mode} {block : BlockTag} {W : w → Prop} {f : EncodedCall → Outcome}
    (h : e.Leads asked first world) (answers : e.AnswersIn mode block W f) (hfirst : W first) :
    W world := by
  induction h with
  | stays => exact hfirst
  | submit _ _ ih => exact answers.submit _ _ ih
  | answer _ _ ih => exact answers.answer _ _ ih

end Endpoint.Leads

namespace Scheduler

section Runs

variable {job : Job w α} {calls : Nat → List (Call α)}

/-- The calls of all items. -/
def Job.asks (job : Job w α) (calls : Nat → List (Call α)) (c : EncodedCall) : Prop :=
  ∃ item < job.plan.total, ∃ own ∈ calls item, own.encoded = c

/-- A shard sends calls of its items. -/
theorem Job.asks_of_load (ships : job.Ships calls) {i : Nat} (hi : i < job.plan.count) {world : w}
    {s : Shipment α} (h : job.load world i = .ok s) :
    ∀ c ∈ (job.trip s).calls, job.asks calls c := by
  have hshipment := (ships i hi).symm.trans (shipment_of_load h)
  obtain rfl := Except.ok.inj hshipment
  intro c hc
  obtain ⟨own, hown, rfl⟩ := List.mem_map.1 hc
  obtain ⟨item, hitem, hmem⟩ := List.mem_flatMap.1 hown
  exact ⟨item, job.plan.lt_total_of_mem_items hi hitem, own, hmem, rfl⟩

/-- A run asks the calls of its items and no others.  A shard in flight has registered its batch,
so this is carried along with the phases that shards can reach. -/
theorem Run.leads_after (ships : job.Ships calls) (permits : Nat) (scene : Scene w α)
    (moves : List Move) :
    job.endpoint.Leads (job.asks calls) scene.world
      ((Run.start job permits scene).after job moves).scene.world := by
  have keeps : job.Keeps fun _ => True := ⟨fun _ _ _ => trivial, fun _ _ _ => trivial⟩
  suffices hboth : (∃ log, Sound job (fun _ => True) scene.slots
      ((Run.start job permits scene).after job moves) log) ∧
        job.endpoint.Leads (job.asks calls) scene.world
          ((Run.start job permits scene).after job moves).scene.world from hboth.2
  refine after_induction (P := fun r => (∃ log, Sound job (fun _ => True) scene.slots r log) ∧
    job.endpoint.Leads (job.asks calls) scene.world r.scene.world)
    ⟨⟨_, sound_start job permits trivial⟩, .stays⟩ ?_ moves
  intro r i p' r' ⟨⟨log, sound⟩, leads⟩ hstep
  refine ⟨sound.step keeps hstep, ?_⟩
  have hi : i < job.plan.count := sound.length_phases ▸ hstep.lt_length
  have hreached := sound.reached i hi
  generalize r.phase i = p at hstep hreached
  generalize writtenBy i log = written at hreached
  cases hstep with
  | submitted _ =>
    cases hreached with
    | registered _ load => exact .submit leads (Job.asks_of_load ships hi load)
  | answered =>
    cases hreached with
    | inFlight _ load _ => exact .answer leads (Job.asks_of_load ships hi load)
  | joined =>
    rw [scene_takeIn]
    exact leads
  | _ => exact leads

end Runs

end Scheduler

/-! ## Flexible queries -/

namespace Engine

variable {g : Engine w} {block : BlockTag} {W : w → Prop} {f : EncodedCall → Outcome}
  {count shardSize : Nat} {register : Scheduler.Registrar α}

/-- Items of one call each, bound to the slot of the same number, are read in shards that fit into
a batch.  The handler is given their flags in order, and the slots are written by then. -/
theorem flexBatchQuery_each (answers : g.endpoint.AnswersIn .flexible block W f)
    (positive : 0 < shardSize) (fits : shardSize ≤ g.config.maxBatchSize) {call : Nat → Call α}
    (hslot : ∀ i < count, (call i).slot = i) (adds : Scheduler.Adds register fun i => [call i])
    (handle : Bool → Nat → QueryM (Scene w α) Unit) {s : Scene w α} (hworld : W s.world) :
    ∃ world now, g.endpoint.Leads (fun c => ∃ i < count, (call i).encoded = c) s.world world ∧
      g.flexBatchQuery count shardSize register handle block s =
        handleFlags handle 0 ((List.range count).map fun i => (call i).succeeds f)
          ⟨world, now, s.slots.write (((List.range count).map call).filterMap (Call.write? f))⟩ := by
  let plan : ShardPlan := ⟨count, shardSize, positive⟩
  let job := g.scheduler.job g.endpoint plan .flexible block register
  have hcalls : (List.range job.plan.total).flatMap (fun i => [call i]) =
      (List.range count).map call :=
    List.map_eq_flatMap.symm
  have hfits : ∀ i < plan.count,
      ((plan.items i).flatMap fun item => [call item]).length ≤ g.config.maxBatchSize :=
    Scheduler.fits_of_one_call plan fits
  have hnodup := Scheduler.nodup_slots_of_one_call hslot
  obtain ⟨moves, r, now, rfl, hover, hrun⟩ :=
    Scheduler.run_is_interleaving g.concurrency_pos g.endpoint plan .flexible block register s
  have ships : job.Ships fun i => [call i] :=
    Scheduler.ships_of_adds (fun item _ => adds.item item) hfits
  have hleads := Scheduler.Run.leads_after ships g.scheduler.concurrency s moves
  obtain ⟨hok, hslots⟩ := Scheduler.each_of_over job answers adds hnodup hfits nofun hworld hover
  have hresult := (hok _).2 ⟨nofun, rfl⟩
  refine ⟨_, now, hleads.mono ?_, ?_⟩
  · rintro c ⟨i, hi, own, hown, rfl⟩
    rw [List.mem_singleton.1 hown]
    exact ⟨i, hi, rfl⟩
  · have hflags : ((List.range job.plan.total).map fun i => [call i].all (Call.succeeds f)) =
        (List.range count).map fun i => (call i).succeeds f := by
      simp only [List.all_cons, List.all_nil, Bool.and_true]
      rfl
    have hwritten := hslots _ hresult
    rw [hflags] at hresult
    rw [hcalls] at hwritten
    have hrun : g.scheduler.run g.endpoint count shardSize .flexible block register s = _ := hrun
    rw [flexBatchQuery, QueryM.bind_apply, hrun, hresult, ← hwritten]

/-- A handler that checks items and changes nothing stops at the first item that it refuses. -/
theorem handleFlags_forM {handle : Bool → Nat → QueryM (Scene w α) Unit} {s : Scene w α}
    {flag : β → Bool} {check : β → Except QueryError Unit} {items : List β} {first : Nat}
    (h : ∀ i (hi : i < items.length),
      handle (flag items[i]) (first + i) s = (check items[i], s)) :
    handleFlags handle first (items.map flag) s = (forM items check, s) := by
  induction items generalizing first with
  | nil => rfl
  | cons item items ih =>
    have hitem : handle (flag item) first s = (check item, s) := h 0 (Nat.zero_lt_succ _)
    rw [List.map_cons, handleFlags, QueryM.bind_apply, hitem, List.forM_cons]
    cases check item with
    | error cause => rfl
    | ok u =>
      apply ih
      intro i hi
      have hnext := h (i + 1) (Nat.succ_lt_succ hi)
      rw [← Nat.add_assoc, Nat.add_right_comm] at hnext
      exact hnext

end Engine

/-- The same call, bound to another slot. -/
def Call.inSlot (c : Call α) (slot : Nat) : Call α := { c with slot := slot }

/-- What is said of the items of a list, by their positions. -/
theorem range_map_getD (xs : List β) (default : β) {γ : Type} (f : β → γ) :
    ((List.range xs.length).map fun i => f (xs.getD i default)) = xs.map f := by
  apply List.ext_getElem
  · simp
  · intro i h₁ h₂
    rw [List.length_map] at h₂
    simp [h₂]

/-- The items of a list are read, each with its own call.  The query fails for the first item that
the handler refuses.  Otherwise it gives the values of all items in order. -/
theorem Engine.flexReads_each {g : Engine w} {block : BlockTag} {W : w → Prop}
    {f : EncodedCall → Outcome} (answers : g.endpoint.AnswersIn .flexible block W f)
    {shardSize : Nat} (positive : 0 < shardSize) (fits : shardSize ≤ g.config.maxBatchSize)
    {items : List β} {default : β} {ask : β → Call α} {register : Scheduler.Registrar α}
    (adds : Scheduler.Adds register fun i => [(ask (items.getD i default)).inSlot i])
    {handle : Bool → Nat → QueryM (Scene w α) Unit} {check : β → Except QueryError Unit}
    (checks : ∀ s : Scene w α,
      s.slots = ⟨items.map fun x => (ask x).value? (f (ask x).encoded)⟩ →
      ∀ i (hi : i < items.length),
        handle ((ask items[i]).succeeds f) i s = (check items[i], s))
    {world : w} (hworld : W world) (now : Nat) :
    ∃ world' now',
      g.endpoint.Leads (fun c => ∃ x ∈ items, (ask x).encoded = c) world world' ∧
      (g.flexBatchQuery items.length shardSize register handle block).withSlots
          (Slots.empty items.length) (world, now) =
        ((forM items check).map fun _ =>
          ((), ⟨items.map fun x => (ask x).value? (f (ask x).encoded)⟩), world', now') := by
  obtain ⟨world', now', hleads, hquery⟩ := flexBatchQuery_each answers positive fits
    (fun i _ => rfl) adds handle (s := ⟨world, now, .empty items.length⟩) hworld
  refine ⟨world', now', hleads.mono ?_, ?_⟩
  · rintro c ⟨i, hi, rfl⟩
    refine ⟨_, List.getElem_mem hi, ?_⟩
    show (ask items[i]).encoded = (ask (items.getD i default)).encoded
    rw [List.getD_eq_getElem _ _ hi]
  · have hflags : ((List.range items.length).map fun i =>
        ((ask (items.getD i default)).inSlot i).succeeds f) =
          items.map fun x => (ask x).succeeds f :=
      range_map_getD items default fun x => (ask x).succeeds f
    have hvalues : ((List.range items.length).map fun i =>
        ((ask (items.getD i default)).inSlot i).value?
          (f ((ask (items.getD i default)).inSlot i).encoded)) =
            items.map fun x => (ask x).value? (f (ask x).encoded) :=
      range_map_getD items default fun x => (ask x).value? (f (ask x).encoded)
    rw [Scheduler.write_of_one_call fun i _ => rfl, hvalues, hflags, handleFlags_forM] at hquery
    · rw [QueryM.withSlots, hquery]
    · intro i hi
      rw [Nat.zero_add]
      exact checks _ rfl i hi

end ContractReads
