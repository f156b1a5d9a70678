import ContractReads.Endpoint.Memory
import ContractReads.Oracle.Participation
import ContractReads.Proofs.LogScans

/-!
# Reading from a chain in memory

A `Chain` knows results of calls and stores logs.  Queries to it change only what it remembers of
them: `Chain.Agrees` says that two chains know the same.

* `Chain.serves_endpoint` and `Chain.holds_source`: a chain that is up and ready answers.
* `Memory.Gives` says what a method returns.  `Contract.callFor` is the call that asks for it, and
  `Memory.Gives.write?_callFor` what is written for that call.
* `Calculator.readParameters_yields` and `Calculator.members_yields` are the reads of a calculator:
  one batch of two calls, and a query in shards with one call per member
  (`Dao.memberAddresses_yields`).
-/

namespace ContractReads

variable {w α : Type}

/-- Results of calls, and logs. -/
structure Chain where
  memory : Memory
  store : LogStore

namespace Chain

/-- The results of the calls, as an endpoint. -/
def endpoint : Endpoint Chain :=
  Memory.endpoint.within memory fun m chain => { chain with memory := m }

/-- The logs, as a source. -/
def source : LogSource Chain :=
  LogStore.source.within store fun s chain => { chain with store := s }

/-- Another chain that knows the same results and logs. -/
structure Agrees (chain other : Chain) : Prop where
  table : other.memory.table = chain.memory.table
  down : other.memory.down = chain.memory.down
  notReady : other.memory.notReady = chain.memory.notReady
  head : other.store.head = chain.store.head
  logs : other.store.logs = chain.store.logs

theorem Agrees.refl (chain : Chain) : chain.Agrees chain := ⟨rfl, rfl, rfl, rfl, rfl⟩

variable {chain : Chain}

/-- Chains that agree know the same of every call. -/
theorem Agrees.outcome_eq {other : Chain} (h : chain.Agrees other) :
    other.memory.outcome = chain.memory.outcome := by
  funext call
  rw [Memory.outcome, Memory.outcome, h.table]

/-- A chain that is up and ready answers batches. -/
theorem serves_endpoint (up : chain.memory.down = false) (ready : chain.memory.notReady = false) :
    endpoint.Serves chain.Agrees chain.memory.outcome where
  ready other h := by
    have hready : other.memory.notReady = false := h.notReady.trans ready
    show (if other.memory.notReady then _ else _) = _
    rw [hready]
    rfl
  submit _ _ h := ⟨h.table, h.down, h.notReady, h.head, h.logs⟩
  answer _ _ h := ⟨h.table, h.down, h.notReady, h.head, h.logs⟩
  replies trip other h hall := by
    have hup : other.memory.down = false := h.down.trans up
    have hnone : (trip.calls.map chain.memory.outcome).any (fun o => !o.isSuccess) = false := by
      rw [List.any_eq_false]
      intro o ho
      obtain ⟨call, hcall, rfl⟩ := List.mem_map.1 ho
      simp [hall call hcall]
    show other.memory.reply trip = _
    rw [Memory.reply, h.outcome_eq, hup, hnone, Bool.and_false]
    rfl

/-- In flexible batches, it answers each call on its own. -/
theorem answersIn_endpoint (up : chain.memory.down = false)
    (ready : chain.memory.notReady = false) (block : BlockTag) :
    endpoint.AnswersIn .flexible block chain.Agrees chain.memory.outcome where
  ready := (serves_endpoint up ready).ready
  submit := (serves_endpoint up ready).submit
  answer := (serves_endpoint up ready).answer
  replies calls other h := by
    have hup : other.memory.down = false := h.down.trans up
    show other.memory.reply _ = _
    rw [Memory.reply, h.outcome_eq, hup]
    rfl

/-- A chain gives its logs. -/
theorem holds_source (chain : Chain) : source.Holds chain.Agrees chain.store where
  head other h := ⟨_, other, rfl, h.head, h⟩
  logs filter first last other h := by
    refine ⟨_, _, rfl, ?_, h.table, h.down, h.notReady, h.head, h.logs⟩
    show other.store.select filter first last = _
    rw [LogStore.select, LogStore.select, h.logs]

end Chain

/-! ## Results of methods -/

/-- The call that was set last is answered so; any other as before. -/
theorem Memory.outcome_respond (m : Memory) (call : EncodedCall) (data : Bytes)
    (other : EncodedCall) : (m.respond call (.success data)).outcome other =
      if call = other then .success data else m.outcome other := by
  rw [outcome, respond, List.find?_cons]
  by_cases h : call = other
  · simp [h, Outcome.success]
  · simp [h, outcome]

/-- A method of a contract is known to return a value. -/
def Memory.Gives [FromAbi α] (m : Memory) (c : Contract) (method : String) (args : List AbiValue)
    (a : α) : Prop :=
  ∃ calldata outputs data, c.prepare method args = .ok (calldata, outputs) ∧
    m.outcome ⟨c.address, calldata⟩ = .success data ∧
    c.readFirst method outputs fromAbi data = .ok a

namespace Contract

/-- The call that reads the first result of a method into a slot. -/
def callFor [FromAbi α] (c : Contract) (slot : Nat) (method : String) (args : List AbiValue) :
    Call α :=
  match c.prepare method args with
  | .ok (calldata, outputs) =>
    ⟨c.address, calldata, slot, fun data => asQueryError (c.readFirst method outputs fromAbi data)⟩
  | .error cause => ⟨c.address, [], slot, fun _ => .error (.encoding cause)⟩

@[simp] theorem slot_callFor [FromAbi α] (c : Contract) (slot : Nat) (method : String)
    (args : List AbiValue) : (c.callFor slot method args : Call α).slot = slot := by
  unfold callFor
  split <;> rfl

end Contract

section Gives

variable [FromAbi α] {m : Memory} {c : Contract} {method : String} {args : List AbiValue} {a : α}

/-- The call is registered if the batch has room. -/
theorem Memory.Gives.addCall (h : m.Gives c method args a) (slot : Nat) {b : Batch α}
    (room : b.size < b.limit) : c.addCall slot fromAbi method args b =
      .ok { b with calls := b.calls ++ [c.callFor slot method args] } := by
  obtain ⟨calldata, outputs, data, hprepare, -, -⟩ := h
  rw [Contract.addCall, Contract.callFor, hprepare]
  exact if_pos room

/-- The call comes to the value. -/
theorem Memory.Gives.value?_callFor (h : m.Gives c method args a) (slot : Nat) :
    (c.callFor slot method args : Call α).value?
      (m.outcome (c.callFor slot method args : Call α).encoded) = some a := by
  obtain ⟨calldata, outputs, data, hprepare, houtcome, hread⟩ := h
  have hcall : (c.callFor slot method args : Call α) = ⟨c.address, calldata, slot,
      fun data => Contract.asQueryError (c.readFirst method outputs fromAbi data)⟩ := by
    rw [Contract.callFor, hprepare]
  rw [hcall, Call.encoded, houtcome, Call.value?_eq_some_iff]
  refine ⟨rfl, ?_⟩
  show Contract.asQueryError (c.readFirst method outputs fromAbi data) = _
  rw [hread]
  rfl

/-- The value is written into the slot. -/
theorem Memory.Gives.write?_callFor (h : m.Gives c method args a) (slot : Nat) :
    (c.callFor slot method args).write? m.outcome = some (slot, a) := by
  rw [Call.write?, h.value?_callFor, Option.map_some, Contract.slot_callFor]

theorem Memory.Gives.succeeds_callFor (h : m.Gives c method args a) (slot : Nat) :
    (c.callFor slot method args : Call α).succeeds m.outcome = true := by
  rw [Call.succeeds, h.value?_callFor]
  rfl

end Gives

/-! ## The reads of a calculator -/

namespace Oracle

variable {W : w → Prop} {m : Memory}

theorem Dao.allMembers_map_some (members : List Address) (i : Nat) :
    Dao.allMembers i (members.map some) = .ok members := by
  induction members generalizing i with
  | nil => rfl
  | cons member members ih =>
    rw [List.map_cons, Dao.allMembers, ih]
    rfl

/-- All members are read, whatever the size of the shards. -/
theorem Dao.memberAddresses_yields {d : Dao} {g : Engine w}
    (serves : g.endpoint.Serves W m.outcome) {members : List Address}
    (given : ∀ i (h : i < members.length), m.Gives d.members "getMemberAt" [.ofNat i] members[i])
    {shardSize : Nat} (positive : 0 < shardSize) (fits : shardSize ≤ g.config.maxBatchSize)
    (block : BlockTag) :
    Yields (fun s => W s.1) (d.memberAddresses g members.length shardSize block) (· = members) := by
  let call (i : Nat) : Call Address := d.members.callFor i "getMemberAt" [.ofNat i]
  let register (i : Nat) (b : Batch Address) : Except Scheduler.Fault (Batch Address) :=
    (d.addMemberAt i fromAbi i b).mapError .error
  have hslot : ∀ i < members.length, (call i).slot = i :=
    fun i _ => Contract.slot_callFor d.members i _ _
  have hquery : (g.batchQuery members.length shardSize register block).Writes W
      (((List.range members.length).map call).filterMap (Call.write? m.outcome)) :=
    Engine.batchQuery_serves serves positive fits hslot
      (fun i hi _ room => congrArg (Except.mapError Scheduler.Fault.error)
        ((given i hi).addCall i room))
      (fun i hi => (given i hi).succeeds_callFor i) block
  have hvalues : ((List.range members.length).map fun i =>
      (call i).value? (m.outcome (call i).encoded)) = members.map some := by
    apply List.ext_getElem
    · simp
    · intro i h₁ h₂
      rw [List.length_map] at h₂
      rw [List.getElem_map, List.getElem_map, List.getElem_range, (given i h₂).value?_callFor]
  rw [Dao.memberAddresses]
  refine (hquery.withSlots (.empty members.length)).bind fun r hr => ?_
  have hcells : allMembers 0 r.2.cells = .ok members := by
    rw [hr, Scheduler.write_of_one_call hslot, hvalues]
    exact allMembers_map_some members 0
  exact yields_ofExcept (congrArg Contract.asQueryError hcells) rfl

/-- A calculator reads all members if the count is theirs. -/
theorem Calculator.members_yields {c : Calculator w}
    (serves : c.engine.endpoint.Serves W m.outcome) {members : List Address}
    (given : ∀ i (h : i < members.length),
      m.Gives c.dao.members "getMemberAt" [.ofNat i] members[i])
    (positive : 0 < c.config.memberBatchSize)
    (fits : c.config.memberBatchSize ≤ c.engine.config.maxBatchSize) {count : UInt64}
    (hcount : count.toNat = members.length) (block : BlockTag) :
    Yields (fun s => W s.1) (c.members count block) (· = members) := by
  rw [Calculator.members, hcount]
  exact Dao.memberAddresses_yields serves given positive fits block

/-- The frequency and the number of members are read in one batch. -/
theorem Calculator.readParameters_yields {c : Calculator w} {kind : SubmissionKind}
    (serves : c.engine.endpoint.Serves W m.outcome) (room : 2 ≤ c.engine.config.maxBatchSize)
    {frequency count : UInt64}
    (hfrequency : m.Gives c.settings "getSettingUint" [.string kind.frequencyPath] frequency)
    (hcount : m.Gives c.dao.members "getMemberCount" [] count) (frequencyPositive : frequency ≠ 0)
    (countPositive : count ≠ 0) (block : BlockTag) :
    Yields (fun s => W s.1) (c.readParameters kind block) (· = (frequency, count)) := by
  let calls : List (Call UInt64) :=
    [c.settings.callFor 0 "getSettingUint" [.string kind.frequencyPath],
      c.dao.members.callFor 1 "getMemberCount" []]
  let register (b : Batch UInt64) : Except QueryError (Batch UInt64) := do
    let b ← addSubmitFrequency c.settings kind 0 fromAbi b
    c.dao.addMemberCount 1 fromAbi b
  have hregister : register c.engine.batch = .ok ⟨calls, c.engine.config.maxBatchSize⟩ := by
    have hfirst := hfrequency.addCall 0 (b := c.engine.batch) (by
      show 0 < c.engine.config.maxBatchSize
      omega)
    show (c.settings.addCall 0 fromAbi "getSettingUint" [.string kind.frequencyPath]
      c.engine.batch >>= c.dao.addMemberCount 1 fromAbi) = _
    rw [hfirst]
    exact hcount.addCall 1 (by
      show 1 < c.engine.config.maxBatchSize
      omega)
  have hall : ∀ call ∈ calls, call.succeeds m.outcome = true := by
    intro call hcall
    simp only [calls, List.mem_cons, List.not_mem_nil, or_false] at hcall
    rcases hcall with rfl | rfl
    · exact hfrequency.succeeds_callFor 0
    · exact hcount.succeeds_callFor 1
  have hwrites : calls.filterMap (Call.write? m.outcome) = [(0, frequency), (1, count)] := by
    simp [calls, hfrequency.write?_callFor, hcount.write?_callFor]
  have hquery : (c.engine.query register block).Writes W
      (calls.filterMap (Call.write? m.outcome)) :=
    Engine.query_serves serves hregister hall block
  rw [hwrites] at hquery
  rw [readParameters]
  refine (hquery.withSlots (.empty 2)).bind fun r hr => yields_ofExcept ?_ rfl
  rw [hr]
  show (if frequency = 0 then _ else if count = 0 then _ else _) = _
  rw [if_neg frequencyPositive, if_neg countPositive]
  rfl

end Oracle

end ContractReads
