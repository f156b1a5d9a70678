import Mathlib
import ContractReads.Proofs.BuiltRegistries
import ContractReads.Proofs.CalculatedParticipation
import ContractReads.Proofs.ChainReads
import ContractReads.Proofs.FilledSlots

/-!
# Values that are never missing

Where the library reads a slot that a query has written, it has an error for an empty one.  This
module shows that these errors do not occur.

* `Fallback` lists them, and `Complete` says of a result that it has a property or is another error.
* `ReadsFail.not_fallback`: no query of reads fails with such an error, since neither a registration
  nor an endpoint nor the reading of numbers and addresses has them.
* `Dao.complete_membersAfter` and `Builder.complete_resolvedAfter` are about sharded reads, whatever
  the interleaving.  The addresses are read in a flexible query, which may leave slots empty; its
  handler rejects those.
* `no_missing_values` puts these together with what strict queries write.  At the end two members are
  read, and the address of one of two contracts is looked up.
-/

namespace ContractReads

variable {w α β γ : Type}

/-! ## The errors for missing values -/

/-- The errors for values that a query should have written. -/
inductive Fallback : QueryError → Prop
  | member (index : Nat) : Fallback (.encoding (.memberMissing index))
  | slot (content : String) : Fallback (.encoding (.slotEmpty content))
  | address : Fallback (.invalidConfig .addressesOutOfStep)

/-- A result with a property, or an error that no missing value is the cause of. -/
inductive Complete (P : β → Prop) : Except QueryError β → Prop
  | ok {b : β} (h : P b) : Complete P (.ok b)
  | error {cause : QueryError} (h : ¬Fallback cause) : Complete P (.error cause)

theorem Param.eq_of_type_error {p : Param} {cause : EncodingError} (h : p.type = .error cause) :
    cause = .unsupportedType p.typeText := by
  unfold type at h
  split at h
  · cases h
  · cases h
    rfl

/-- What a read says of a value that it cannot take is no such error. -/
def Reading.Plain (r : Reading α) : Prop :=
  ∀ v cause, r.read v = .error cause → ¬Fallback (.encoding cause)

theorem not_fallback_fromAbi_address (v : AbiValue) (cause : EncodingError)
    (h : (fromAbi v : Except EncodingError Address) = .error cause) :
    ¬Fallback (.encoding cause) := by
  cases v <;> cases h <;> nofun

theorem not_fallback_fromAbi_uint64 (v : AbiValue) (cause : EncodingError)
    (h : (fromAbi v : Except EncodingError UInt64) = .error cause) :
    ¬Fallback (.encoding cause) := by
  have h := map_eq_error_iff.1 h
  unfold FromAbi.bounded at h
  split at h
  · split at h
    · cases h
    · cases h
      nofun
  · cases h
    nofun

section Reads

variable {r : Reading α}

theorem Reading.Unprepared.not_fallback {cause : EncodingError} (h : r.Unprepared cause) :
    ¬Fallback (.encoding cause) := by
  cases h with
  | noMethod _ | noOverload _ _ | argument _ _ _ => nofun
  | inputType _ untyped | outputType _ _ untyped =>
    obtain ⟨p, after, -, -, hp⟩ := untyped
    rw [Param.eq_of_type_error hp]
    nofun

theorem asQueryError_eq_error_iff {x : Except EncodingError α} {cause : QueryError} :
    Contract.asQueryError x = .error cause ↔ ∃ own, x = .error own ∧ cause = .encoding own := by
  cases x <;> simp [Contract.asQueryError, eq_comm]

theorem not_fallback_of_decodeData {types : List AbiType} {data : Bytes} {cause : EncodingError}
    (h : decodeData types data = .error cause) : ¬Fallback (.encoding cause) := by
  rw [decodeData] at h
  split at h
  · cases h
  · cases h
    intro hfallback
    cases hfallback

/-- Bytes are refused by the decoder or by the read itself. -/
theorem Reading.Plain.not_fallback_of_decode (plain : r.Plain) {c : Call α} {data : Bytes}
    {cause : QueryError} (prepared : r.prepared = .ok c) (h : c.decode data = .error cause) :
    ¬Fallback cause := by
  obtain ⟨⟨calldata, outputs⟩, -, rfl⟩ := map_eq_ok_iff.1 prepared
  obtain ⟨own, hown, rfl⟩ := asQueryError_eq_error_iff.1 h
  split at hown
  · obtain hdata | ⟨vs, -, hread⟩ := bind_eq_error_iff.1 hown
    · exact not_fallback_of_decodeData hdata
    · exact plain _ own hread
  · obtain hdata | ⟨vs, -, hread⟩ := bind_eq_error_iff.1 hown
    · exact not_fallback_of_decodeData hdata
    · split at hread
      · exact plain _ own hread
      · cases hread
        nofun

theorem Reading.Fails.not_fallback (plain : r.Plain) {cause : QueryError} (h : r.Fails cause) :
    ¬Fallback cause := by
  cases h with
  | refused h =>
    cases h with
    | unprepared h => exact h.not_fallback
    | full _ _ => nofun
  | undecodable prepared bad => exact plain.not_fallback_of_decode prepared bad

theorem ReadsFail.not_fallback {rs : List (Reading α)} (plain : ∀ r ∈ rs, r.Plain)
    {cause : QueryError} (h : ReadsFail rs cause) : ¬Fallback cause := by
  cases h with
  | endpoint _ | shard _ _ | emptyShards | call _ _ => nofun
  | read mem fails => exact fails.not_fallback (plain _ mem)

end Reads

/-! ## Queries of one batch -/

theorem QueryM.withSlots_bind_apply (q : QueryM (Scene w β) α) (slots : Slots β)
    (k : α × Slots β → QueryM (w × Nat) γ) (before : w × Nat) :
    (q.withSlots slots >>= k) before =
      match q ⟨before.1, before.2, slots⟩ with
      | (.ok a, s) => k (a, s.slots) (s.world, s.now)
      | (.error cause, s) => (.error cause, s.world, s.now) := by
  rw [bind_apply, withSlots]
  obtain ⟨result, s⟩ := q ⟨before.1, before.2, slots⟩
  cases result <;> rfl

/-- What follows a strict query of reads finds the values of all of them. -/
theorem Engine.complete_query {g : Engine w} {rs : List (Reading β)} (plain : ∀ r ∈ rs, r.Plain)
    {block : BlockTag} {slots : Slots β} {k : Unit × Slots β → QueryM (w × Nat) γ} {P : γ → Prop}
    (h : ∀ filled : Slots β, filled.size = slots.size →
      (∀ r ∈ rs, r.slot < filled.size → ∃ a, filled.get? r.slot = some a) →
      ∀ after, Complete P (k ((), filled) after).1) (before : w × Nat) :
    Complete P (((g.query (Reading.addEach rs) block).withSlots slots >>= k) before).1 := by
  rw [QueryM.withSlots_bind_apply]
  rcases hquery : g.query (Reading.addEach rs) block ⟨before.1, before.2, slots⟩ with
    ⟨cause | u, s⟩
  · exact .error ((readsFail_of_query hquery).not_fallback plain)
  · obtain ⟨b, registered, filled, hsize⟩ := filled_of_query hquery
    exact h s.slots hsize (fun r hr => filled.exists_value registered hr) _

theorem Reading.addEach_singleton (r : Reading α) : addEach [r] = r.add := by
  funext b
  rw [addEach]
  cases r.add b <;> rfl

namespace Oracle

theorem Dao.slotValue_of_get? {slots : Slots α} {slot : Nat} {a : α} (h : slots.get? slot = some a)
    (missing : EncodingError) : slotValue slots slot missing = .ok a := by
  rw [slotValue, h]

/-- The read of the number of members. -/
def Dao.readCount (d : Dao) (slot : Nat) : Reading UInt64 where
  contract := d.members
  slot := slot
  method := "getMemberCount"
  args := []
  whole := false
  read := fromAbi

/-- The read of the number of blocks between submissions. -/
def readFrequency (settings : Contract) (kind : SubmissionKind) (slot : Nat) : Reading UInt64 where
  contract := settings
  slot := slot
  method := "getSettingUint"
  args := [.string kind.frequencyPath]
  whole := false
  read := fromAbi

theorem Dao.complete_memberCount (d : Dao) (g : Engine w) (block : BlockTag) (before : w × Nat) :
    Complete (fun _ => True) (d.memberCount g block before).1 := by
  have hregister : d.addMemberCount 0 fromAbi = Reading.addEach [d.readCount 0] :=
    (Reading.addEach_singleton (d.readCount 0)).symm
  have plain : ∀ r ∈ [d.readCount 0], r.Plain := by
    intro r hr
    rw [List.mem_singleton.1 hr]
    exact not_fallback_fromAbi_uint64
  rw [memberCount, hregister]
  refine Engine.complete_query plain ?_ before
  intro filled hsize hfilled after
  obtain ⟨count, hcount⟩ := hfilled _ (List.mem_singleton_self _) (hsize ▸ Nat.one_pos)
  have hcount : filled.get? 0 = some count := hcount
  show Complete _ (Contract.asQueryError (slotValue filled 0 _))
  rw [slotValue_of_get? hcount]
  exact .ok trivial

/-- The frequency and the number of members are there, and if they are returned neither is zero. -/
theorem Calculator.complete_readParameters (c : Calculator w) (kind : SubmissionKind)
    (block : BlockTag) (before : w × Nat) :
    Complete (fun p => p.1 ≠ 0 ∧ p.2 ≠ 0) (c.readParameters kind block before).1 := by
  let rs : List (Reading UInt64) := [readFrequency c.settings kind 0, c.dao.readCount 1]
  have hregister : (fun b => do
      let b ← addSubmitFrequency c.settings kind 0 fromAbi b
      c.dao.addMemberCount 1 fromAbi b) = Reading.addEach rs := by
    funext b
    rw [Reading.addEach, Reading.addEach_singleton]
    rfl
  have plain : ∀ r ∈ rs, r.Plain := by
    intro r hr
    rcases List.mem_pair.1 hr with rfl | rfl
    · exact not_fallback_fromAbi_uint64
    · exact not_fallback_fromAbi_uint64
  rw [readParameters, hregister]
  refine Engine.complete_query plain ?_ before
  intro filled hsize hfilled after
  have hsize : filled.size = 2 := hsize
  obtain ⟨frequency, hfrequency⟩ := hfilled (readFrequency c.settings kind 0)
    (List.mem_pair.2 (.inl rfl)) (hsize ▸ Nat.two_pos)
  obtain ⟨count, hcount⟩ := hfilled (c.dao.readCount 1)
    (List.mem_pair.2 (.inr rfl)) (hsize ▸ Nat.one_lt_two)
  have hfrequency : filled.get? 0 = some frequency := hfrequency
  have hcount : filled.get? 1 = some count := hcount
  show Complete _ (checkParameters kind filled)
  rw [checkParameters, Dao.slotValue_of_get? hfrequency, Dao.slotValue_of_get? hcount]
  show Complete _ (if frequency = 0 then _ else if count = 0 then _ else _)
  split
  · refine .error ?_
    intro hfallback
    cases hfallback
  · rename_i hpositive
    split
    · refine .error ?_
      intro hfallback
      cases hfallback
    · rename_i hcount
      exact .ok ⟨hpositive, hcount⟩

/-! ## Members -/

/-- The read of one member. -/
def Dao.readMember (d : Dao) (index : Nat) : Reading Address where
  contract := d.members
  slot := index
  method := "getMemberAt"
  args := [.ofNat index]
  whole := false
  read := fromAbi

/-- What the members come to after a query with this result and these slots. -/
def Dao.membersAfter (result : Except QueryError (List Bool)) (slots : Slots Address) :
    Except QueryError (List Address) := do
  let _ ← result
  Contract.asQueryError (allMembers 0 slots.cells)

end Oracle

/-- A row in which no slot is empty and every value has a property. -/
theorem Slots.exists_values {slots : Slots α} {P : α → Prop}
    (h : ∀ i < slots.size, ∃ a, slots.get? i = some a ∧ P a) :
    ∃ values : List α, slots.cells = values.map some ∧ ∀ a ∈ values, P a := by
  have hrange : slots.cells ∈ Set.range (List.map fun a : { a // P a } => some a.1) := by
    rw [Set.range_list_map]
    intro cell hcell
    obtain ⟨i, hi, rfl⟩ := List.getElem_of_mem hcell
    obtain ⟨a, ha, hP⟩ := h i hi
    have hcell : slots.cells[i] = some a := by simpa [get?, hi] using ha
    exact ⟨⟨a, hP⟩, hcell.symm⟩
  obtain ⟨values, hvalues⟩ := hrange
  refine ⟨values.map Subtype.val, ?_, ?_⟩
  · rw [List.map_map, ← hvalues]
    rfl
  · intro a ha
    obtain ⟨value, -, rfl⟩ := List.mem_map.1 ha
    exact value.2

namespace Oracle

variable {s : Scheduler} {e : Endpoint w} {plan : ShardPlan} {block : BlockTag}
  {result : Except QueryError (List Bool)} {slots : Slots Address}

/-- Whatever the interleaving, a query of members that succeeds gives as many as it was asked
for. -/
theorem Dao.exists_members (d : Dao) (hs : 0 < s.concurrency) {world : w} {now : Nat}
    {flags : List Bool} (h : s.MayReturn e plan .strict block (Scheduler.readEach d.readMember)
      ⟨world, now, .empty plan.total⟩ (.ok flags) slots) :
    ∃ members, members.length = plan.total ∧ membersAfter (.ok flags) slots = .ok members := by
  have hsize : slots.size = plan.total := by
    rw [h.size_slots]
    exact List.length_replicate
  have hvalue : ∀ i < slots.size, ∃ a, slots.get? i = some a ∧ True := by
    intro i hi
    obtain ⟨a, ha⟩ := h.exists_value hs (hsize ▸ hi) hi
    exact ⟨a, ha, trivial⟩
  obtain ⟨members, hmembers, -⟩ := Slots.exists_values hvalue
  refine ⟨members, ?_, ?_⟩
  · rw [← hsize, Slots.size, hmembers, List.length_map]
  · show Contract.asQueryError (allMembers 0 slots.cells) = .ok members
    rw [hmembers, allMembers_map_some]
    rfl

theorem Dao.complete_membersAfter (d : Dao) (hs : 0 < s.concurrency) {world : w} {now : Nat}
    (h : s.MayReturn e plan .strict block (Scheduler.readEach d.readMember)
      ⟨world, now, .empty plan.total⟩ result slots) :
    Complete (fun members => members.length = plan.total) (membersAfter result slots) := by
  cases result with
  | error cause =>
    refine .error (h.readsFail.not_fallback ?_)
    intro r hr
    obtain ⟨i, -, rfl⟩ := List.mem_map.1 hr
    exact not_fallback_fromAbi_address
  | ok flags =>
    obtain ⟨members, hlength, hmembers⟩ := d.exists_members hs h
    rw [hmembers]
    exact .ok hlength

theorem Dao.memberAddresses_eq (d : Dao) (g : Engine w) (count shardSize : Nat) (block : BlockTag)
    (world : w) (now : Nat) :
    (d.memberAddresses g count shardSize block (world, now)).1 =
      membersAfter
        (g.scheduler.run g.endpoint count shardSize .strict block (Scheduler.readEach d.readMember)
          ⟨world, now, .empty count⟩).1
        (g.scheduler.run g.endpoint count shardSize .strict block (Scheduler.readEach d.readMember)
          ⟨world, now, .empty count⟩).2.slots := by
  have hregister : (fun i b => (d.addMemberAt i fromAbi i b).mapError Scheduler.Fault.error) =
      Scheduler.readEach d.readMember := rfl
  rw [memberAddresses, QueryM.withSlots_bind_apply, Engine.batchQuery, QueryM.bind_apply, hregister]
  dsimp only
  obtain ⟨result, after⟩ := g.scheduler.run g.endpoint count shardSize .strict block
    (Scheduler.readEach d.readMember) ⟨world, now, .empty count⟩
  cases result <;> rfl

theorem Dao.complete_memberAddresses (d : Dao) (g : Engine w) (count shardSize : Nat)
    (block : BlockTag) (before : w × Nat) :
    Complete (fun members => members.length = count)
      (d.memberAddresses g count shardSize block before).1 := by
  obtain ⟨world, now⟩ := before
  rw [memberAddresses_eq]
  obtain ⟨positive, hreturn⟩ | hempty := Scheduler.run_cases g.concurrency_pos g.endpoint count
    shardSize .strict block (Scheduler.readEach d.readMember) ⟨world, now, .empty count⟩
  · exact d.complete_membersAfter g.concurrency_pos hreturn
  · rw [hempty]
    exact .error nofun

end Oracle

/-! ## Addresses -/

namespace Registry

/-- What a definition is resolved to: its own address, or one that was looked up and is not zero. -/
def Definition.Resolves (d : Definition) (a : Address) : Prop :=
  d.address = some a ∨ d.address = none ∧ a ≠ .zero 20

namespace Builder

/-- The definitions without an address. -/
def pending (ds : List Definition) : List Definition := ds.filter fun d => d.address.isNone

/-- The read of the address of a name. -/
def readAddress (storage : Storage) (names : List String) (i : Nat) : Reading Address where
  contract := storage.contract
  slot := i
  method := "getAddress"
  args := [.ofWord (Storage.addressKey (names.getD i ""))]
  whole := false
  read := fromAbi

/-- Registers the reads of the addresses that are missing. -/
def readMissing (storage : Storage) (ds : List Definition) : Scheduler.Registrar Address :=
  Scheduler.readEach (readAddress storage ((pending ds).map Definition.name))

/-- The handler of addresses that were looked up. -/
def rejectMissing (names : List String) (success : Bool) (i : Nat) :
    QueryM (Scene w Address) Unit := fun s =>
  (checkAddress (names.getD i "") success (s.slots.get? i), s)

/-- What the addresses come to after a query with this result, from the scene that it leaves. -/
def resolvedAfter (ds : List Definition) (result : Except QueryError (List Bool))
    (s : Scene w Address) : Except QueryError (List Address) := do
  let flags ← result
  (Engine.handleFlags (rejectMissing ((pending ds).map Definition.name)) 0 flags s).1
  fill ds s.slots.cells

theorem checkAddress_cases (name : String) (success : Bool) (found : Option Address) :
    checkAddress name success found = .error (.unknownContract name) ∨
      checkAddress name success found = .ok () ∧ ∃ a, found = some a ∧ a ≠ .zero 20 := by
  rw [checkAddress]
  split
  · exact .inl rfl
  · rename_i haccepted
    refine .inr ⟨rfl, ?_⟩
    rw [Bool.or_eq_true, not_or] at haccepted
    cases found with
    | none => exact absurd (by simp [FixedBytes.isZero]) haccepted.2
    | some a => exact ⟨a, rfl, by simpa [FixedBytes.isZero] using haccepted.2⟩

/-- The handler stops at the first address that is missing or zero. -/
theorem handleFlags_rejectMissing (names : List String) (first : Nat) (flags : List Bool)
    (s : Scene w Address) :
    (∃ name, Engine.handleFlags (rejectMissing names) first flags s =
      (.error (.unknownContract name), s)) ∨
    Engine.handleFlags (rejectMissing names) first flags s = (.ok (), s) ∧
      ∀ i < flags.length, ∃ a, s.slots.get? (first + i) = some a ∧ a ≠ .zero 20 := by
  induction flags generalizing first with
  | nil => exact .inr ⟨rfl, nofun⟩
  | cons flag flags ih =>
    rw [Engine.handleFlags, QueryM.bind_apply, rejectMissing]
    obtain hcheck | ⟨hcheck, hfound⟩ :=
      checkAddress_cases (names.getD first "") flag (s.slots.get? first)
    · rw [hcheck]
      exact .inl ⟨_, rfl⟩
    · rw [hcheck]
      obtain ⟨name, hrest⟩ | ⟨hrest, hall⟩ := ih (first + 1)
      · exact .inl ⟨name, hrest⟩
      · refine .inr ⟨hrest, fun i hi => ?_⟩
        cases i with
        | zero => exact hfound
        | succ i =>
          rw [← Nat.add_assoc, Nat.add_right_comm]
          exact hall i (Nat.lt_of_succ_lt_succ hi)

/-- If an address other than zero was found for every definition without one, all are resolved. -/
theorem exists_fill {ds : List Definition} {found : List Address}
    (hlength : found.length = (pending ds).length) (hfound : ∀ a ∈ found, a ≠ .zero 20) :
    ∃ as, fill ds (found.map some) = .ok as ∧ List.Forall₂ Definition.Resolves ds as := by
  induction ds generalizing found with
  | nil => exact ⟨[], rfl, .nil⟩
  | cons d ds ih =>
    cases hd : d.address with
    | some own =>
      have hpending : pending (d :: ds) = pending ds := by simp [pending, hd]
      obtain ⟨as, hfill, hresolves⟩ := ih (hpending ▸ hlength) hfound
      refine ⟨own :: as, ?_, .cons (.inl hd) hresolves⟩
      simp [fill, hd, hfill, Except.map]
    | none =>
      have hpending : pending (d :: ds) = d :: pending ds := by simp [pending, hd]
      rw [hpending] at hlength
      cases found with
      | nil => cases hlength
      | cons a found =>
        obtain ⟨ha, hfound⟩ := List.forall_mem_cons.1 hfound
        obtain ⟨as, hfill, hresolves⟩ := ih (Nat.succ.inj hlength) hfound
        refine ⟨a :: as, ?_, .cons (.inr ⟨hd, ha⟩) hresolves⟩
        simp [fill, hd, hfill, Except.map]

/-- Whatever the interleaving of the lookups, every definition has its own address or one that is
not zero. -/
theorem complete_resolvedAfter {storage : Storage} {ds : List Definition} {s : Scheduler}
    (hs : 0 < s.concurrency) {e : Endpoint w} {plan : ShardPlan}
    (htotal : plan.total = (pending ds).length) {block : BlockTag} {world : w} {now : Nat}
    {result : Except QueryError (List Bool)} {after : Scene w Address}
    (h : s.MayReturn e plan .flexible block (readMissing storage ds)
      ⟨world, now, .empty plan.total⟩ result after.slots) :
    Complete (List.Forall₂ Definition.Resolves ds) (resolvedAfter ds result after) := by
  have hsize : after.slots.size = plan.total := by
    rw [h.size_slots]
    exact List.length_replicate
  cases result with
  | error cause =>
    refine .error (h.readsFail.not_fallback ?_)
    intro r hr
    obtain ⟨i, -, rfl⟩ := List.mem_map.1 hr
    exact not_fallback_fromAbi_address
  | ok flags =>
    show Complete _
      ((Engine.handleFlags (rejectMissing ((pending ds).map Definition.name)) 0 flags after).1 >>=
        fun _ => fill ds after.slots.cells)
    obtain ⟨name, hhandle⟩ | ⟨hhandle, hall⟩ :=
      handleFlags_rejectMissing ((pending ds).map Definition.name) 0 flags after
    · rw [hhandle]
      exact .error nofun
    · have hfound : ∀ i < after.slots.size, ∃ a, after.slots.get? i = some a ∧ a ≠ .zero 20 := by
        intro i hi
        have hfound := hall i (h.length_flags hs ▸ hsize ▸ hi)
        rwa [Nat.zero_add] at hfound
      obtain ⟨found, hcells, hnonzero⟩ := Slots.exists_values hfound
      have hlength : found.length = (pending ds).length := by
        rw [← htotal, ← hsize, Slots.size, hcells, List.length_map]
      obtain ⟨as, hfill, hresolves⟩ := exists_fill hlength hnonzero
      rw [hhandle, hcells, hfill]
      exact .ok hresolves

/-- Addresses are looked up if any are missing. -/
theorem resolveAddresses_eq (b : Builder) (g : Engine w) (block : BlockTag) (world : w) (now : Nat)
    (h : pending b.definitions ≠ []) :
    ∃ (result : Except QueryError (List Bool)) (after : Scene w Address),
      g.scheduler.run g.endpoint (pending b.definitions).length g.config.addressBatchSize .flexible
        block (readMissing (.ofAddress b.storage) b.definitions)
        ⟨world, now, .empty (pending b.definitions).length⟩ = (result, after) ∧
      (b.resolveAddresses g block (world, now)).1 = resolvedAfter b.definitions result after := by
  let names := (pending b.definitions).map Definition.name
  have hnames : ¬names.isEmpty = true := by simpa [names] using h
  have hlength : names.length = (pending b.definitions).length := List.length_map _
  have hlookUp : b.resolveAddresses g block (world, now) =
      (lookUp g (.ofAddress b.storage) names block >>= fun slots =>
        .ofExcept (fill b.definitions slots.cells)) (world, now) := rfl
  have hregister : (fun (i : Nat) (batch : Batch Address) =>
      ((Storage.ofAddress b.storage).addContractAddress i fromAbi (names.getD i "") batch).mapError
        Scheduler.Fault.error) = readMissing (.ofAddress b.storage) b.definitions := rfl
  have hhandler : (fun (success : Bool) (i : Nat) (s : Scene w Address) =>
      (checkAddress (names.getD i "") success (s.slots.get? i), s)) = rejectMissing names := rfl
  rw [hlookUp, lookUp, if_neg hnames, bind_assoc, QueryM.withSlots_bind_apply,
    Engine.flexBatchQuery, QueryM.bind_apply, hlength, hregister, hhandler]
  dsimp only
  obtain ⟨result, after⟩ := g.scheduler.run g.endpoint (pending b.definitions).length
    g.config.addressBatchSize .flexible block (readMissing (.ofAddress b.storage) b.definitions)
    ⟨world, now, .empty (pending b.definitions).length⟩
  refine ⟨result, after, rfl, ?_⟩
  cases result with
  | error cause => rfl
  | ok flags =>
    have hafter : resolvedAfter b.definitions (.ok flags) after =
        ((Engine.handleFlags (rejectMissing names) 0 flags after).1 >>= fun _ =>
          fill b.definitions after.slots.cells) := rfl
    rw [hafter]
    dsimp only
    -- The handler leaves the slots as they are, so it does not matter which scene is read.
    obtain ⟨name, hhandle⟩ | ⟨hhandle, -⟩ := handleFlags_rejectMissing names 0 flags after
    · rw [hhandle]
      rfl
    · rw [hhandle]
      rfl

theorem complete_resolveAddresses (b : Builder) (g : Engine w) (block : BlockTag)
    (before : w × Nat) :
    Complete (List.Forall₂ Definition.Resolves b.definitions)
      (b.resolveAddresses g block before).1 := by
  obtain ⟨world, now⟩ := before
  by_cases h : pending b.definitions = []
  · have hnothing : b.resolveAddresses g block (world, now) =
        (lookUp g (.ofAddress b.storage) ((pending b.definitions).map Definition.name) block >>=
          fun slots => .ofExcept (fill b.definitions slots.cells)) (world, now) := rfl
    have hlength : ([] : List Address).length = (pending b.definitions).length := by
      rw [h]
      rfl
    obtain ⟨as, hfill, hresolves⟩ := exists_fill hlength nofun
    have hresult : (b.resolveAddresses g block (world, now)).1 = .ok as := by
      rw [hnothing, h]
      exact hfill
    rw [hresult]
    exact .ok hresolves
  · obtain ⟨result, after, hrun, hresolve⟩ := b.resolveAddresses_eq g block world now h
    rw [hresolve]
    obtain ⟨positive, hreturn⟩ | hempty := Scheduler.run_cases g.concurrency_pos g.endpoint
      (pending b.definitions).length g.config.addressBatchSize .flexible block
      (readMissing (.ofAddress b.storage) b.definitions)
      ⟨world, now, .empty (pending b.definitions).length⟩
    · rw [hrun] at hreturn
      exact complete_resolvedAfter g.concurrency_pos rfl hreturn
    · rw [hrun] at hempty
      cases hempty
      exact .error nofun

end Builder

end Registry

/-! ## Putting the parts together -/

section

open Oracle (Dao Calculator SubmissionKind)
open Registry (Builder Definition)
open Scheduler (FailurePolicy Registrar FillsShards)

/-- A strict query that succeeds has filled the slots of all calls that it registered: a query of
one batch, and a query in shards, whatever the permits, the policy and the interleaving.

So the errors for missing values do not occur.  The number of members, the frequency and the members
themselves are there whenever the query of them succeeds, and there are as many members as were
asked for.  The addresses of a registry are looked up in a flexible query; every definition gets its
own address, or one that was found and is not zero. -/
theorem no_missing_values :
    (∀ (g : Engine w) (register : Batch α → Except QueryError (Batch α)) (block : BlockTag)
      (s s' : Scene w α), g.query register block s = (.ok (), s') →
      ∃ b, register g.batch = .ok b ∧ b.Filled s'.slots) ∧
    (∀ (g : Engine w) (count shardSize : Nat) (register : Registrar α) (block : BlockTag)
      (s s' : Scene w α), g.batchQuery count shardSize register block s = (.ok (), s') →
      ∃ positive : 0 < shardSize,
        FillsShards register g.config.maxBatchSize ⟨count, shardSize, positive⟩ s'.slots) ∧
    (∀ (concurrency limit : Nat) (policy : FailurePolicy) (e : Endpoint w) (plan : ShardPlan)
      (block : BlockTag) (register : Registrar α) (scene : Scene w α) (flags : List Bool)
      (slots : Slots α),
      (Scheduler.make concurrency limit policy).MayReturn e plan .strict block register scene
        (.ok flags) slots →
      FillsShards register limit plan slots) ∧
    (∀ (d : Dao) (g : Engine w) (block : BlockTag) (before : w × Nat),
      Complete (fun _ => True) (d.memberCount g block before).1) ∧
    (∀ (c : Calculator w) (kind : SubmissionKind) (block : BlockTag) (before : w × Nat),
      Complete (fun p => p.1 ≠ 0 ∧ p.2 ≠ 0) (c.readParameters kind block before).1) ∧
    (∀ (d : Dao) (g : Engine w) (count shardSize : Nat) (block : BlockTag) (before : w × Nat),
      Complete (fun members => members.length = count)
        (d.memberAddresses g count shardSize block before).1) ∧
    (∀ (d : Dao) (concurrency limit : Nat) (policy : FailurePolicy) (e : Endpoint w)
      (plan : ShardPlan) (block : BlockTag) (world : w) (now : Nat)
      (result : Except QueryError (List Bool)) (slots : Slots Address),
      (Scheduler.make concurrency limit policy).MayReturn e plan .strict block
        (Scheduler.readEach d.readMember) ⟨world, now, .empty plan.total⟩ result slots →
      Complete (fun members => members.length = plan.total) (Dao.membersAfter result slots) ∧
        ∀ flags, result = .ok flags → ∃ members, Dao.membersAfter result slots = .ok members) ∧
    (∀ (b : Builder) (g : Engine w) (block : BlockTag) (before : w × Nat),
      Complete (List.Forall₂ Definition.Resolves b.definitions)
        (b.resolveAddresses g block before).1) ∧
    ∀ (storage : Storage) (ds : List Definition) (concurrency limit : Nat) (policy : FailurePolicy)
      (e : Endpoint w) (plan : ShardPlan) (block : BlockTag) (world : w) (now : Nat)
      (result : Except QueryError (List Bool)) (after : Scene w Address),
      plan.total = (Builder.pending ds).length →
      (Scheduler.make concurrency limit policy).MayReturn e plan .flexible block
        (Builder.readMissing storage ds) ⟨world, now, .empty plan.total⟩ result after.slots →
      Complete (List.Forall₂ Definition.Resolves ds) (Builder.resolvedAfter ds result after) := by
  refine ⟨fun g register block s s' h => ?_,
    fun g count shardSize register block s s' h => Engine.filled_of_batchQuery h,
    fun concurrency limit policy e plan block register scene flags slots h =>
      h.filled (Scheduler.concurrency_make_pos concurrency limit policy),
    Dao.complete_memberCount, Calculator.complete_readParameters, Dao.complete_memberAddresses,
    fun d concurrency limit policy e plan block world now result slots h => ?_,
    Builder.complete_resolveAddresses,
    fun storage ds concurrency limit policy e plan block world now result after htotal h =>
      Builder.complete_resolvedAfter (Scheduler.concurrency_make_pos concurrency limit policy)
        htotal h⟩
  · obtain ⟨b, registered, filled, -⟩ := Engine.filled_of_query h
    exact ⟨b, registered, filled⟩
  · have hs := Scheduler.concurrency_make_pos concurrency limit policy
    refine ⟨d.complete_membersAfter hs h, ?_⟩
    rintro flags rfl
    obtain ⟨members, -, hmembers⟩ := d.exists_members hs h
    exact ⟨members, hmembers⟩

end

/-! ## Queries that succeed -/

namespace Oracle.TwoMembers

open Scheduler (FillsShards readEach)

def readMember : Nat → Reading Address := calculator.dao.readMember

/-- A slot for each member. -/
def scene : Scene Chain Address := ⟨chain, 0, .empty 2⟩

theorem serves : engine.endpoint.Serves chain.Agrees chain.memory.outcome :=
  Chain.serves_endpoint rfl rfl

theorem query_readMember : ∃ after, engine.query (readMember 0).add .latest scene = (.ok (), after) ∧
    after.slots.size = 2 := by
  have hgives := gives_member 0 (by decide)
  have hadd : (readMember 0).add engine.batch = _ := hgives.addCall 0 (by decide)
  have hquery := Engine.query_serves serves hadd (fun c hc => by
    rw [List.mem_singleton.1 hc]
    exact hgives.succeeds_callFor 0) .latest
  obtain ⟨_, after, hok, -, hslots⟩ := hquery scene (Chain.Agrees.refl chain)
  refine ⟨after, hok, ?_⟩
  rw [hslots, Slots.size_write]
  rfl

theorem exists_flags_of_membersAfter {result : Except QueryError (List Bool)}
    {slots : Slots Address} {members : List Address}
    (h : Dao.membersAfter result slots = .ok members) : ∃ flags, result = .ok flags := by
  cases result with
  | error cause => cases h
  | ok flags => exact ⟨flags, rfl⟩

theorem run_readMember : ∃ flags after,
    engine.scheduler.run engine.endpoint 2 1 .strict .latest (readEach readMember) scene =
      (.ok flags, after) := by
  obtain ⟨members, _, hok, -, -⟩ := Dao.memberAddresses_yields (d := calculator.dao) serves
    gives_member Nat.one_pos (by decide) .latest (chain, 0) (Chain.Agrees.refl chain)
  have hmembers := congrArg Prod.fst hok
  rw [Dao.memberAddresses_eq] at hmembers
  obtain ⟨flags, hflags⟩ := exists_flags_of_membersAfter hmembers
  exact ⟨flags, _, Prod.ext hflags rfl⟩

theorem mayReturn_readMember {flags : List Bool} {after : Scene Chain Address}
    (h : engine.scheduler.run engine.endpoint 2 1 .strict .latest (readEach readMember) scene =
      (.ok flags, after)) :
    (Scheduler.make 2 2 .runToCompletion).MayReturn Chain.endpoint ⟨2, 1, Nat.one_pos⟩ .strict
      .latest (readEach readMember) scene (.ok flags) after.slots :=
  Scheduler.mayReturn_of_run engine.concurrency_pos h

end Oracle.TwoMembers

namespace Registry.TwoContracts

/-- A slot for the one address that is looked up. -/
def scene : Scene Chain Address := ⟨chain, 0, .empty 1⟩

theorem resolveAddresses_builder :
    (builder.resolveAddresses engine .latest (chain, 0)).1 = .ok [given, found] := by
  obtain ⟨world, now, -, hresolve⟩ :=
    Builder.resolveAddresses_each answers builder (Chain.Agrees.refl chain) 0
  have hnone :
      firstWithoutAddress chain.memory.outcome builder.storage builder.definitions = none :=
    firstWithoutAddress_none
  have haddresses : builder.definitions.map
      (fun d => (d.addressIn chain.memory.outcome store).getD (.zero 20)) = [given, found] := by
    simp [builder, addressIn_custom, addressIn_prices]
  rw [hresolve, hnone]
  exact congrArg Except.ok haddresses

/-- The address of the second contract is looked up. -/
theorem mayReturn_readMissing : ∃ result, ∃ after : Scene Chain Address,
    (Scheduler.make 2 2000 .runToCompletion).MayReturn Chain.endpoint ⟨1, 1, Nat.one_pos⟩ .flexible
      .latest (Builder.readMissing (.ofAddress builder.storage) builder.definitions) scene result
      after.slots ∧
    Builder.resolvedAfter builder.definitions result after = .ok [given, found] := by
  obtain ⟨result, after, hrun, hresolve⟩ :=
    builder.resolveAddresses_eq engine .latest chain 0 (List.cons_ne_nil _ _)
  have hreturn : engine.scheduler.MayReturn engine.endpoint ⟨1, 1, Nat.one_pos⟩ .flexible .latest
      (Builder.readMissing (.ofAddress builder.storage) builder.definitions) scene result
      after.slots :=
    Scheduler.mayReturn_of_run engine.concurrency_pos hrun
  exact ⟨result, after, hreturn, hresolve.symm.trans resolveAddresses_builder⟩

end Registry.TwoContracts

theorem Complete.of_ok {P : β → Prop} {b : β} (h : Complete P (.ok b)) : P b := by
  cases h with
  | ok h => exact h

section

open Oracle (Dao)
open Oracle.TwoMembers (calculator readMember)
open Registry (Builder Definition)
open Registry.TwoContracts (builder given found)
open Scheduler (FillsShards readEach)

/-- Members are read in one batch and in shards, and one of two contracts is looked up. -/
theorem no_missing_values_two :
    (∃ after, Oracle.TwoMembers.engine.query (readMember 0).add .latest Oracle.TwoMembers.scene =
        (.ok (), after) ∧ after.slots.isSet 0 = true) ∧
    (∃ after, Oracle.TwoMembers.engine.batchQuery 2 1 (readEach readMember) .latest
        Oracle.TwoMembers.scene = (.ok (), after) ∧
      FillsShards (readEach readMember) 2 ⟨2, 1, Nat.one_pos⟩ after.slots) ∧
    (∃ flags slots, (Scheduler.make 2 2 .runToCompletion).MayReturn Chain.endpoint
        ⟨2, 1, Nat.one_pos⟩ .strict .latest (readEach readMember) Oracle.TwoMembers.scene
        (.ok flags) slots ∧
      FillsShards (readEach readMember) 2 ⟨2, 1, Nat.one_pos⟩ slots ∧
      ∃ members, Dao.membersAfter (.ok flags) slots = .ok members ∧ members.length = 2) ∧
    ∃ result, ∃ after : Scene Chain Address,
      (Scheduler.make 2 2000 .runToCompletion).MayReturn Chain.endpoint ⟨1, 1, Nat.one_pos⟩
        .flexible .latest (Builder.readMissing (.ofAddress builder.storage) builder.definitions)
        Registry.TwoContracts.scene result after.slots ∧
      Builder.resolvedAfter builder.definitions result after = .ok [given, found] ∧
      List.Forall₂ Definition.Resolves builder.definitions [given, found] := by
  obtain ⟨single, sharded, fills, -, -, -, members, -, addresses⟩ := @no_missing_values Chain Address
  obtain ⟨after, hquery, hsize⟩ := Oracle.TwoMembers.query_readMember
  obtain ⟨flags, scene, hrun⟩ := Oracle.TwoMembers.run_readMember
  have hbatch : Oracle.TwoMembers.engine.batchQuery 2 1 (readEach readMember) .latest
      Oracle.TwoMembers.scene = (.ok (), scene) := by
    rw [Engine.batchQuery, QueryM.bind_apply, hrun]
    rfl
  have hreturn := Oracle.TwoMembers.mayReturn_readMember hrun
  refine ⟨⟨after, hquery, ?_⟩, ⟨scene, hbatch, ?_⟩, ⟨flags, scene.slots, hreturn, ?_, ?_⟩, ?_⟩
  · obtain ⟨b, registered, filled⟩ := single _ _ _ _ _ hquery
    obtain ⟨c, prepared, -, rfl⟩ := Reading.add_eq_ok_iff.1 registered
    obtain ⟨-, -, hslot⟩ := Reading.prepared_eq_ok prepared
    have hslot : c.slot = 0 := hslot
    have hset := filled c (List.mem_append_right _ List.mem_cons_self)
    rw [hslot, hsize] at hset
    exact hset (by decide)
  · obtain ⟨_, hfilled⟩ := sharded _ _ _ _ _ _ _ hbatch
    exact hfilled
  · exact fills 2 2 .runToCompletion Chain.endpoint _ _ _ _ _ _ hreturn
  · obtain ⟨hcomplete, hmembers⟩ := members calculator.dao 2 2 .runToCompletion Chain.endpoint _ _ _
      _ _ _ hreturn
    obtain ⟨found, hfound⟩ := hmembers flags rfl
    rw [hfound] at hcomplete
    exact ⟨found, hfound, hcomplete.of_ok⟩
  · obtain ⟨result, after, hreturn, hresolved⟩ := Registry.TwoContracts.mayReturn_readMissing
    have hcomplete := addresses (.ofAddress builder.storage) builder.definitions 2 2000
      .runToCompletion Chain.endpoint _ _ _ _ _ _ rfl hreturn
    rw [hresolved] at hcomplete
    exact ⟨result, after, hreturn, hresolved, hcomplete.of_ok⟩

end

end ContractReads
