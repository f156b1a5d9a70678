import Mathlib
import ContractReads.Proofs.CalculatedParticipation
import ContractReads.Proofs.QueryFailures

/-!
# Queries within the limit of a batch

A batch refuses calls beyond its limit.  This module says which of the library's own queries can
run into that, for settings that are in their ranges.

* `NotFull` and `NeverFull`: a result, or a query in any state, is not the failure of a full batch.
  `NeverFull.bind` puts steps together.
* `Batch.Within` bounds the calls of a batch, and `AddsOne` says that a registration adds one of
  them; `Contract.addsOne_addCall` is the only kind of registration in the library.
* `Engine.query_neverFull` is about a single batch, `Engine.batchQuery_neverFull` and
  `Engine.flexBatchQuery_neverFull` about shards that are no larger than a batch.
* `Calculator.library_neverFull`: registries are built without a full batch, and participations are
  calculated without one if a batch holds two calls.  If it holds one call, which is accepted as
  well, none is calculated at all; `TwoMembers.calculate_narrow_batchFull` is such a case.
-/

namespace ContractReads

variable {σ w α β : Type}

/-! ## Failures of full batches -/

/-- A result that is not the failure of a full batch. -/
def NotFull (r : Except QueryError α) : Prop := ∀ limit, r ≠ .error (.batchFull limit)

/-- A query that never fails because a batch is full. -/
def NeverFull (q : QueryM σ α) : Prop := ∀ s, NotFull (q s).1

theorem notFull_ok (a : α) : NotFull (.ok a) := nofun

/-- An error of another kind is no full batch. -/
theorem notFull_error {e : QueryError} (h : ∀ limit, e ≠ .batchFull limit) :
    NotFull (.error e : Except QueryError α) := by
  intro limit hfull
  exact h limit (Except.error.inj hfull)

theorem NotFull.map {r : Except QueryError α} (h : NotFull r) (f : α → β) : NotFull (r.map f) := by
  intro limit hfull
  cases r with
  | ok a => cases hfull
  | error e =>
    cases hfull
    exact h limit rfl

theorem NotFull.bind {r : Except QueryError α} {k : α → Except QueryError β} (h : NotFull r)
    (hk : ∀ a, r = .ok a → NotFull (k a)) : NotFull (r >>= k) := by
  intro limit hfull
  cases r with
  | ok a => exact hk a rfl limit hfull
  | error e =>
    cases hfull
    exact h limit rfl

/-- What cannot be encoded or decoded is no full batch. -/
theorem notFull_asQueryError (r : Except EncodingError α) : NotFull (Contract.asQueryError r) := by
  cases r <;> nofun

theorem NeverFull.bind {q : QueryM σ α} {k : α → QueryM σ β} (h : NeverFull q)
    (hk : ∀ a, NeverFull (k a)) : NeverFull (q >>= k) := by
  intro s
  have hq := h s
  rw [QueryM.bind_apply]
  rcases hresult : q s with ⟨e | a, s'⟩
  · rw [hresult] at hq
    intro limit hfull
    cases hfull
    exact hq limit rfl
  · exact hk a s'

theorem neverFull_pure (a : α) : NeverFull (pure a : QueryM σ α) := fun _ => notFull_ok a

theorem neverFull_ofExcept {r : Except QueryError α} (h : NotFull r) :
    NeverFull (QueryM.ofExcept r : QueryM σ α) :=
  fun _ => h

theorem NeverFull.withSlots {q : QueryM (Scene w β) α} (h : NeverFull q) (slots : Slots β) :
    NeverFull (q.withSlots slots) :=
  fun s => (h ⟨s.1, s.2, slots⟩).map _

theorem neverFull_decoding (r : Except EncodingError α) :
    NeverFull (Oracle.decoding r : QueryM (w × Nat) α) :=
  neverFull_ofExcept (notFull_asQueryError r)

theorem neverFull_asQuery (q : TransportM w α) : NeverFull (Oracle.asQuery q) := by
  intro s limit hfull
  have hmap : (q s.1).1.mapError QueryError.transport = .error (.batchFull limit) := hfull
  cases hq : (q s.1).1 with
  | ok a =>
    rw [hq] at hmap
    cases hmap
  | error e =>
    rw [hq] at hmap
    cases hmap

/-! ## Registrations -/

/-- A batch of at most `count` calls, whose results are read without a batch. -/
structure Batch.Within (b : Batch α) (limit count : Nat) : Prop where
  limit_eq : b.limit = limit
  size_le : b.size ≤ count
  decode : ∀ c ∈ b.calls, ∀ data, NotFull (c.decode data)

theorem Batch.within_empty (limit : Nat) : (Batch.empty limit : Batch α).Within limit 0 :=
  ⟨rfl, Nat.le_refl 0, nofun⟩

/-- A registration adds one call at most, and does not find a batch full that has room. -/
def AddsOne (add : Batch α → Except QueryError (Batch α)) : Prop :=
  ∀ b limit count, b.Within limit count → count < limit →
    NotFull (add b) ∧ ∀ b', add b = .ok b' → b'.Within limit (count + 1)

theorem Batch.addsOne_add {c : Call α} (h : ∀ data, NotFull (c.decode data)) :
    AddsOne (Batch.add · c) := by
  intro b limit count within hroom
  show NotFull (b.add c) ∧ ∀ b', b.add c = .ok b' → b'.Within limit (count + 1)
  have hadd : b.add c = .ok { b with calls := b.calls ++ [c] } := by
    rw [Batch.add, if_pos]
    have hsize := within.size_le
    rw [within.limit_eq]
    omega
  rw [hadd]
  refine ⟨notFull_ok _, ?_⟩
  intro b' hb'
  cases hb'
  refine ⟨within.limit_eq, ?_, ?_⟩
  · have hsize := within.size_le
    simp only [Batch.size, List.length_append, List.length_singleton] at hsize ⊢
    omega
  · intro c' hc'
    rcases List.mem_append.1 hc' with hold | hnew
    · exact within.decode c' hold
    · rw [List.mem_singleton.1 hnew]
      exact h

/-- A call of a contract is added, unless it cannot be encoded. -/
theorem Contract.addsOne_addCall (c : Contract) (slot : Nat)
    (read : AbiValue → Except EncodingError α) (method : String) (args : List AbiValue) :
    AddsOne (c.addCall slot read method args) := by
  intro b limit count within hroom
  rw [Contract.addCall]
  split
  · refine ⟨notFull_error fun limit => QueryError.noConfusion, ?_⟩
    intro b' hb'
    cases hb'
  · exact Batch.addsOne_add (fun data => notFull_asQueryError _) b limit count within hroom

/-! ## Batches and shards -/

/-- A batch whose results are read without another one is not failed by a full batch. -/
theorem Batch.Rejects.ne_batchFull {b : Batch α} {mode : Mode} {endpoint : String}
    {answer : Answer} {cause : QueryError} (rejects : b.Rejects mode endpoint answer cause)
    (h : ∀ c ∈ b.calls, ∀ data, NotFull (c.decode data)) (limit : Nat) :
    cause ≠ .batchFull limit := by
  rintro rfl
  cases rejects with
  | undecodable _ _ _ call _ bad _ => exact h _ (List.mem_of_getElem? call) _ limit bad

/-- A query of one batch, if its registration does not find the batch full. -/
theorem Engine.query_neverFull {g : Engine w} {register : Batch α → Except QueryError (Batch α)}
    (hregister : NotFull (register g.batch))
    (hdecode : ∀ b, register g.batch = .ok b → ∀ c ∈ b.calls, ∀ data, NotFull (c.decode data))
    (block : BlockTag) : NeverFull (g.query register block) := by
  intro s limit hfull
  have hquery : g.query register block s = (.error (.batchFull limit), _) := Prod.ext hfull rfl
  cases fails_of_query hquery with
  | refused h => exact hregister limit h
  | rejected registered rejects =>
    exact rejects.ne_batchFull (hdecode _ registered) limit rfl

namespace Scheduler

/-- What registering came to: a result with a property, or a fault that is not a full batch. -/
inductive Registered {β : Type} (P : β → Prop) : Except Fault β → Prop
  | ok {b : β} (h : P b) : Registered P (.ok b)
  | fault {fault : Fault} (h : ∀ limit, fault.toQueryError ≠ .batchFull limit) :
    Registered P (.error fault)

/-- A registration that adds one call for every item. -/
def Registrar.AddsOne (register : Registrar α) : Prop :=
  ∀ i b limit count, b.Within limit count → count < limit →
    Registered (fun b' : Batch α => b'.Within limit (count + 1)) (register i b)

theorem Registrar.addsOne_mapError {add : Nat → Batch α → Except QueryError (Batch α)}
    (h : ∀ i, ContractReads.AddsOne (add i)) :
    Registrar.AddsOne fun i b => (add i b).mapError Fault.error := by
  intro i b limit count within hroom
  obtain ⟨hfull, hok⟩ := h i b limit count within hroom
  show Registered _ ((add i b).mapError Fault.error)
  cases hadd : add i b with
  | error e =>
    refine .fault fun n he => hfull n ?_
    rw [hadd]
    exact congrArg Except.error he
  | ok b' => exact .ok (hok b' hadd)

section Shards

variable {register : Registrar α} (adds : register.AddsOne)
include adds

/-- The calls of items fit into a batch that has room for them.  The induction is on the items. -/
theorem Shipment.within_register {limit : Nat} (items : List Nat) {b : Batch α} {count : Nat}
    (within : b.Within limit count) (hroom : count + items.length ≤ limit) :
    Registered (fun s : Shipment α => s.batch.Within limit (count + items.length))
      (Shipment.register register b items) := by
  induction items generalizing b count with
  | nil => exact .ok within
  | cons item items ih =>
    rw [List.length_cons] at hroom ⊢
    have hitem := adds item b limit count within (by omega)
    rw [Shipment.register]
    generalize register item b = added at hitem ⊢
    cases hitem with
    | fault h => exact .fault h
    | @ok b' hb' =>
      have hitems := ih hb' (by omega)
      show Registered _ (Shipment.register register b' items >>= _)
      generalize Shipment.register register b' items = rest at hitems ⊢
      cases hitems with
      | fault h => exact .fault h
      | ok hrest =>
        refine .ok ?_
        rw [Nat.add_comm items.length, ← Nat.add_assoc]
        exact hrest

/-- No shard finds its batch full, if a batch holds a call for each of its items. -/
theorem Job.Fails.ne_batchFull {job : Job w α} (hregister : job.register = register)
    (hfits : job.plan.shardSize ≤ job.limit) {i : Nat} (hi : i < job.plan.count)
    {cause : QueryError} (h : job.Fails i cause) (limit : Nat) : cause ≠ .batchFull limit := by
  have hroom : 0 + (job.plan.items i).length ≤ job.limit := by
    have hlength := job.plan.length_items_le hi
    omega
  have hshipment : Registered _ (job.shipment i) := Shipment.within_register (hregister ▸ adds)
    (job.plan.items i) (Batch.within_empty job.limit) hroom
  cases h with
  | notReady _ => exact QueryError.noConfusion
  | refused hfault =>
    rw [hfault] at hshipment
    cases hshipment with
    | fault h => exact h limit
  | rejected registered rejects =>
    rw [registered] at hshipment
    cases hshipment with
    | ok within => exact rejects.ne_batchFull within.decode limit

/-- A sharded query of items with one call each, whose shards are no larger than a batch. -/
theorem run_neverFull {s : Scheduler} (hs : 0 < s.concurrency) (e : Endpoint w)
    (total : Nat) {shardSize : Nat} (hfits : shardSize ≤ s.limit) (mode : Mode) (block : BlockTag) :
    NeverFull (s.run e total shardSize mode block register) := by
  intro scene n hfull
  obtain ⟨positive, hreturn⟩ | hempty := run_cases hs e total shardSize mode block register scene
  · rw [hfull] at hreturn
    obtain ⟨i, hi, fails⟩ := hreturn.fails
    exact fails.ne_batchFull adds rfl hfits hi n rfl
  · rw [hempty] at hfull
    cases hfull

end Shards

end Scheduler

namespace Engine

variable {g : Engine w} {register : Scheduler.Registrar α} {shardSize : Nat}

/-- A strict query in shards that are no larger than a batch. -/
theorem batchQuery_neverFull (adds : register.AddsOne) (count : Nat)
    (hfits : shardSize ≤ g.config.maxBatchSize) (block : BlockTag) :
    NeverFull (g.batchQuery count shardSize register block) :=
  (Scheduler.run_neverFull adds g.concurrency_pos g.endpoint count hfits .strict block).bind
    fun _ => neverFull_pure ()

theorem handleFlags_neverFull {handle : Bool → Nat → QueryM (Scene w α) Unit}
    (h : ∀ flag i, NeverFull (handle flag i)) (first : Nat) (flags : List Bool) :
    NeverFull (handleFlags handle first flags) := by
  induction flags generalizing first with
  | nil => exact neverFull_pure ()
  | cons flag flags ih => exact (h flag first).bind fun _ => ih (first + 1)

/-- A flexible query in shards that are no larger than a batch, with a handler that does not deal
with batches. -/
theorem flexBatchQuery_neverFull (adds : register.AddsOne) (count : Nat)
    (hfits : shardSize ≤ g.config.maxBatchSize) {handle : Bool → Nat → QueryM (Scene w α) Unit}
    (h : ∀ flag i, NeverFull (handle flag i)) (block : BlockTag) :
    NeverFull (g.flexBatchQuery count shardSize register handle block) :=
  (Scheduler.run_neverFull adds g.concurrency_pos g.endpoint count hfits .flexible block).bind
    fun flags => handleFlags_neverFull h 0 flags

end Engine

/-! ## Registries -/

namespace Registry.Builder

/-- Addresses are looked up in shards that fit into a batch. -/
theorem lookUp_neverFull (g : Engine w) (storage : Storage) (names : List String)
    (block : BlockTag) : NeverFull (lookUp g storage names block) := by
  have inRange := EngineConfig.inRange_of_check g.check_config
  rw [lookUp]
  split
  · exact neverFull_pure _
  · refine NeverFull.bind (NeverFull.withSlots ?_ _) fun _ => neverFull_pure _
    refine Engine.flexBatchQuery_neverFull ?_ _ inRange.addressBatchSize.2 ?_ block
    · refine Scheduler.Registrar.addsOne_mapError fun i => ?_
      exact Contract.addsOne_addCall storage.contract i fromAbi "getAddress" _
    · intro flag i s
      show NotFull (checkAddress _ _ _)
      unfold checkAddress
      split <;> nofun

theorem notFull_fill (ds : List Definition) (found : List (Option Address)) :
    NotFull (fill ds found) := by
  fun_induction fill ds found with
  | case1 => exact notFull_ok []
  | case2 ds found d a hd ih => exact ih.map _
  | case3 ds d a found hd ih => exact ih.map _
  | case4 => nofun

/-- Versions are read in shards that fit into a batch. -/
theorem readVersions_neverFull (g : Engine w) (targets : List Address) (block : BlockTag) :
    NeverFull (readVersions g targets block) := by
  have inRange := EngineConfig.inRange_of_check g.check_config
  refine NeverFull.bind (NeverFull.withSlots ?_ _) fun _ => neverFull_pure _
  refine Engine.flexBatchQuery_neverFull ?_ _ inRange.contractVersionBatchSize.2
    (fun _ _ => neverFull_pure ()) block
  refine Scheduler.Registrar.addsOne_mapError fun i => ?_
  exact Batch.addsOne_add fun data => notFull_asQueryError (decodeVersion data)

theorem build_neverFull (b : Builder) (g : Engine w) (block : BlockTag) :
    NeverFull (b.build g block) := by
  refine NeverFull.bind ?_ fun addresses => (readVersions_neverFull g addresses block).bind
    fun _ => neverFull_pure _
  exact (lookUp_neverFull g _ _ block).bind fun slots => neverFull_ofExcept (notFull_fill _ _)

end Registry.Builder

/-! ## Participations -/

/-- Two registrations, one after the other. -/
theorem AddsOne.then {first second : Batch α → Except QueryError (Batch α)} (hfirst : AddsOne first)
    (hsecond : AddsOne second) {b : Batch α} {limit : Nat} (within : b.Within limit 0)
    (hroom : 2 ≤ limit) :
    NotFull (first b >>= second) ∧ ∀ b', (first b >>= second) = .ok b' → b'.Within limit 2 := by
  obtain ⟨hnot, hok⟩ := hfirst b limit 0 within (by omega)
  refine ⟨hnot.bind fun b' hb' => (hsecond b' limit 1 (hok b' hb') hroom).1, ?_⟩
  intro b' hb'
  obtain ⟨middle, hmiddle, hb'⟩ := bind_eq_ok_iff.1 hb'
  exact (hsecond middle limit 1 (hok middle hmiddle) hroom).2 b' hb'

namespace Oracle

theorem Dao.latestChange_neverFull (d : Dao) (source : LogSource w) (first last : UInt64)
    (maxRange : Option UInt64) : NeverFull (d.latestChange source first last maxRange) :=
  (neverFull_decoding _).bind fun _ => (neverFull_asQuery _).bind fun _ =>
    (neverFull_decoding _).bind fun _ => neverFull_pure _

/-- Members are read in shards that fit into a batch. -/
theorem Dao.memberAddresses_neverFull (d : Dao) {g : Engine w} (count : Nat) {shardSize : Nat}
    (hfits : shardSize ≤ g.config.maxBatchSize) (block : BlockTag) :
    NeverFull (d.memberAddresses g count shardSize block) := by
  refine NeverFull.bind (NeverFull.withSlots ?_ _) fun _ => neverFull_decoding _
  refine Engine.batchQuery_neverFull ?_ count hfits block
  refine Scheduler.Registrar.addsOne_mapError fun i => ?_
  exact Contract.addsOne_addCall d.members i fromAbi "getMemberAt" _

theorem Submissions.blocksOf_neverFull (s : Submissions) (source : LogSource w) (member : Address)
    (first last : UInt64) (maxRange : Option UInt64) :
    NeverFull (s.blocksOf source member first last maxRange) :=
  (neverFull_decoding _).bind fun _ => (neverFull_asQuery _).bind fun _ => neverFull_decoding _

theorem Submissions.submitters_neverFull (s : Submissions) (source : LogSource w)
    (first last : UInt64) (maxRange : Option UInt64) :
    NeverFull (s.submitters source first last maxRange) :=
  (neverFull_decoding _).bind fun _ => (neverFull_asQuery _).bind fun _ =>
    (neverFull_decoding _).bind fun _ => neverFull_pure _

theorem Window.notFull_make (baseline block frequency : UInt64) :
    NotFull (Window.make baseline block frequency) := by
  unfold make
  split <;> nofun

namespace Calculator

variable (c : Calculator w)

theorem resolveBlock_neverFull (block : Option UInt64) : NeverFull (c.resolveBlock block) := by
  cases block with
  | some block => exact neverFull_pure block
  | none => exact neverFull_asQuery _

theorem notFull_checkParameters (kind : SubmissionKind) (slots : Slots UInt64) :
    NotFull (checkParameters kind slots) := by
  refine (notFull_asQueryError _).bind fun frequency _ => (notFull_asQueryError _).bind
    fun members _ => ?_
  split
  · nofun
  · split <;> nofun

/-- The frequency and the number of members are read in one batch of two calls. -/
theorem readParameters_neverFull (hroom : 2 ≤ c.engine.config.maxBatchSize)
    (kind : SubmissionKind) (block : BlockTag) : NeverFull (c.readParameters kind block) := by
  refine NeverFull.bind (NeverFull.withSlots ?_ _) fun _ =>
    neverFull_ofExcept (notFull_checkParameters kind _)
  obtain ⟨hnot, hwithin⟩ := AddsOne.then
    (Contract.addsOne_addCall c.settings 0 (fromAbi : AbiValue → Except _ UInt64)
      "getSettingUint" [.string kind.frequencyPath])
    (Contract.addsOne_addCall c.dao.members 1 fromAbi "getMemberCount" [])
    (Batch.within_empty c.engine.config.maxBatchSize) hroom
  exact Engine.query_neverFull hnot (fun b hb => (hwithin b hb).decode) block

theorem readRows_neverFull (kind : SubmissionKind) (win : Window) (block : UInt64)
    (members : List Address) (rows : List (Address × List Bool)) :
    NeverFull (c.readRows kind win block members rows) := by
  induction members generalizing rows with
  | nil => exact neverFull_pure rows
  | cons member members ih =>
    rw [readRows]
    split
    · exact (neverFull_pure []).bind fun blocks => ih _
    · refine NeverFull.bind ?_ fun blocks => ih _
      exact Submissions.blocksOf_neverFull _ c.logs member win.startBlock block c.maxRange

theorem notFull_fit (win : Window) (members : Nat) (counts : List UInt64) (expected : Float) :
    NotFull (c.fit win members counts expected) := by
  unfold fit
  split
  · nofun
  · refine NotFull.map ?_ _
    unfold fitProbability
    split
    · nofun
    · cases c.special _ _ <;> nofun

theorem calculate_neverFull (hroom : 2 ≤ c.engine.config.maxBatchSize)
    (hfits : c.config.memberBatchSize ≤ c.engine.config.maxBatchSize) (kind : SubmissionKind)
    (block : Option UInt64) : NeverFull (c.calculate kind block) := by
  refine (c.resolveBlock_neverFull block).bind fun block => ?_
  refine (c.readParameters_neverFull hroom kind _).bind fun parameters => ?_
  refine (c.dao.latestChange_neverFull c.logs _ block c.maxRange).bind fun baseline => ?_
  refine (neverFull_ofExcept (Window.notFull_make baseline block parameters.1)).bind fun win => ?_
  refine (c.dao.memberAddresses_neverFull _ hfits _).bind fun members => ?_
  refine (c.readRows_neverFull kind win block members []).bind fun rows => ?_
  exact (neverFull_ofExcept (c.notFull_fit win _ _ _)).bind fun _ => neverFull_pure _

theorem latest_neverFull (hroom : 2 ≤ c.engine.config.maxBatchSize)
    (hfits : c.config.memberBatchSize ≤ c.engine.config.maxBatchSize) (kind : SubmissionKind)
    (block : Option UInt64) : NeverFull (c.latest kind block) := by
  refine (c.resolveBlock_neverFull block).bind fun block => ?_
  refine (c.readParameters_neverFull hroom kind _).bind fun parameters => ?_
  refine (c.dao.memberAddresses_neverFull _ hfits _).bind fun members => ?_
  exact (Submissions.submitters_neverFull _ c.logs _ block c.maxRange).bind fun _ => neverFull_pure _

end Calculator

end Oracle

/-! ## Batches of one call -/

/-- A query that does not succeed in any state. -/
def AlwaysFails (q : QueryM σ α) : Prop := ∀ s, ∃ e, (q s).1 = .error e

theorem AlwaysFails.bind {q : QueryM σ α} (h : AlwaysFails q) (k : α → QueryM σ β) :
    AlwaysFails (q >>= k) := by
  intro s
  obtain ⟨e, he⟩ := h s
  rw [QueryM.bind_apply]
  rcases hresult : q s with ⟨e' | a, s'⟩
  · exact ⟨e', rfl⟩
  · rw [hresult] at he
    cases he

theorem AlwaysFails.of_bind {k : α → QueryM σ β} (h : ∀ a, AlwaysFails (k a)) (q : QueryM σ α) :
    AlwaysFails (q >>= k) := by
  intro s
  rw [QueryM.bind_apply]
  rcases q s with ⟨e | a, s'⟩
  · exact ⟨e, rfl⟩
  · exact h a s'

theorem AlwaysFails.withSlots {q : QueryM (Scene w β) α} (h : AlwaysFails q) (slots : Slots β) :
    AlwaysFails (q.withSlots slots) := by
  intro s
  obtain ⟨e, he⟩ := h ⟨s.1, s.2, slots⟩
  refine ⟨e, ?_⟩
  show (q ⟨s.1, s.2, slots⟩).1.map _ = _
  rw [he]
  rfl

/-- Two calls do not fit into a batch of one. -/
theorem Contract.addCall_addCall_ne_ok (c d : Contract) {i j : Nat}
    {read read' : AbiValue → Except EncodingError α} {method method' : String}
    {args args' : List AbiValue} (b : Batch α) :
    (c.addCall i read method args (Batch.empty 1) >>= d.addCall j read' method' args') ≠ .ok b := by
  intro h
  obtain ⟨first, hfirst, hsecond⟩ := bind_eq_ok_iff.1 h
  have hfull : first.size = 1 ∧ first.limit = 1 := by
    rw [addCall] at hfirst
    split at hfirst
    · cases hfirst
    · cases hfirst
      exact ⟨rfl, rfl⟩
  rw [addCall] at hsecond
  split at hsecond
  · cases hsecond
  · rw [Batch.add, if_neg (by omega)] at hsecond
    cases hsecond

/-- A query of one batch whose calls cannot be registered. -/
theorem Engine.query_alwaysFails {g : Engine w} {register : Batch α → Except QueryError (Batch α)}
    (h : ∀ b, register g.batch ≠ .ok b) (block : BlockTag) :
    AlwaysFails (g.query register block) := by
  refine AlwaysFails.bind ?_ _
  intro s
  rw [single]
  split
  · exact ⟨_, rfl⟩
  · split
    · exact ⟨_, rfl⟩
    · rename_i b hb
      exact absurd hb (h b)

namespace Oracle.Calculator

theorem readParameters_alwaysFails {c : Calculator w} (hsmall : c.engine.config.maxBatchSize = 1)
    (kind : SubmissionKind) (block : BlockTag) : AlwaysFails (c.readParameters kind block) := by
  refine ((Engine.query_alwaysFails ?_ block).withSlots _).bind _
  intro b
  rw [Engine.batch, hsmall]
  exact Contract.addCall_addCall_ne_ok c.settings c.dao.members b

/-- Registries are built without a full batch.  Participations are calculated without one if a
batch holds two calls, and not at all if it holds one, which is the only other size that is
accepted. -/
theorem library_neverFull (g : Engine w) :
    (∀ (b : Registry.Builder) (block : BlockTag), NeverFull (b.build g block)) ∧
    0 < g.config.maxBatchSize ∧
    ∀ logs registry config special c, make g logs registry config special = .ok c →
      ∀ kind block,
        (2 ≤ g.config.maxBatchSize →
          NeverFull (c.calculate kind block) ∧ NeverFull (c.latest kind block)) ∧
        (g.config.maxBatchSize = 1 →
          AlwaysFails (c.calculate kind block) ∧ AlwaysFails (c.latest kind block)) := by
  refine ⟨fun b block => b.build_neverFull g block,
    (EngineConfig.inRange_of_check g.check_config).maxBatchSize, ?_⟩
  intro logs registry config special c hmake kind block
  obtain ⟨rfl, -, -, -, -, hfits, -⟩ := made_of_make hmake
  refine ⟨?_, ?_⟩
  · intro hroom
    exact ⟨c.calculate_neverFull hroom hfits kind block, c.latest_neverFull hroom hfits kind block⟩
  · intro hsmall
    refine ⟨AlwaysFails.of_bind (fun block => ?_) _, AlwaysFails.of_bind (fun block => ?_) _⟩
    · exact (readParameters_alwaysFails hsmall kind _).bind _
    · exact (readParameters_alwaysFails hsmall kind _).bind _

end Oracle.Calculator

namespace Oracle.TwoMembers

/-- A batch of two calls is enough. -/
theorem library_neverFull_two : Calculator.make engine Chain.source registry calculator.config
      calculator.special = .ok calculator ∧
    NeverFull (calculator.calculate .prices none) ∧ NeverFull (calculator.latest .prices none) := by
  obtain ⟨-, -, hmade⟩ := Calculator.library_neverFull engine
  obtain ⟨henough, -⟩ := hmade _ _ _ _ _ made .prices none
  exact ⟨made, henough (Nat.le_refl 2)⟩

/-- Batches of one call. -/
def narrowEngine : Engine Chain where
  endpoint := Chain.endpoint
  config :=
    { concurrentCallLimit := 1, addressBatchSize := 1, contractVersionBatchSize := 1,
      maxBatchSize := 1 }
  check_config := rfl

/-- The same calculator, with batches of one call. -/
def narrow : Calculator Chain := { calculator with engine := narrowEngine }

theorem readParameters_narrow (block : BlockTag) (now : Nat) :
    narrow.readParameters .prices block (chain, now) = (.error (.batchFull 1), (chain, now)) := by
  obtain ⟨frequency, outputs, _, hfrequency, -⟩ := gives_frequency
  obtain ⟨count, outputs', _, hcount, -⟩ := gives_count
  have hfirst : ∃ c : Call UInt64,
      addSubmitFrequency narrow.settings .prices 0 fromAbi (Batch.empty 1) = .ok ⟨[c], 1⟩ := by
    have hsettings : narrow.settings = settings := rfl
    have hpath : SubmissionKind.prices.frequencyPath = "network.submit.prices.frequency" := rfl
    rw [addSubmitFrequency, Contract.addCall, hsettings, hpath, hfrequency]
    exact ⟨_, rfl⟩
  obtain ⟨c, hfirst⟩ := hfirst
  have hsecond : narrow.dao.addMemberCount 1 fromAbi ⟨[c], 1⟩ = .error (.batchFull 1) := by
    have hmembers : narrow.dao.members = dao := rfl
    rw [Dao.addMemberCount, Contract.addCall, hmembers, hcount]
    rfl
  have hquery : ∀ slots : Slots UInt64, narrow.engine.query (fun b => do
      let b ← addSubmitFrequency narrow.settings .prices 0 fromAbi b
      narrow.dao.addMemberCount 1 fromAbi b) block ⟨chain, now, slots⟩ =
        (.error (.batchFull 1), ⟨chain, now, slots⟩) := by
    intro slots
    have hready : narrow.engine.endpoint.ready chain = .ok () := rfl
    have hbatch : (narrow.engine.batch : Batch UInt64) = Batch.empty 1 := rfl
    rw [Engine.query, QueryM.bind_apply, Engine.single, hready, hbatch, hfirst]
    simp only [bind, Except.bind, hsecond]
  rw [Calculator.readParameters, QueryM.bind_apply, QueryM.withSlots, hquery]
  rfl

/-- The settings are accepted, and still the frequency and the number of members do not fit into a
batch. -/
theorem calculate_narrow_batchFull :
    Calculator.make narrowEngine Chain.source registry calculator.config calculator.special =
      .ok narrow ∧
    (narrow.calculate .prices none (chain, 0)).1 = .error (.batchFull 1) ∧
    (narrow.latest .prices none (chain, 0)).1 = .error (.batchFull 1) := by
  have hblock : narrow.resolveBlock none (chain, 0) = (.ok 200, (chain, 0)) := rfl
  refine ⟨rfl, ?_, ?_⟩
  · rw [Calculator.calculate, QueryM.bind_apply, hblock]
    simp only [QueryM.bind_apply, readParameters_narrow]
  · rw [Calculator.latest, QueryM.bind_apply, hblock]
    simp only [QueryM.bind_apply, readParameters_narrow]

end Oracle.TwoMembers

end ContractReads
