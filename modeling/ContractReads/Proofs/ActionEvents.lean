import ContractReads.Contract.Known
import ContractReads.Proofs.DecodedShapes
import ContractReads.Proofs.MembershipChanges

/-!
# What the contract of the members' actions logs

With the known interface of the actions, the latest change of the members is told by the names and
fields of decoded events alone.

* `Interface.Distinct`: the events of an interface have different topics.  Then a log is decoded as
  one of the event that it was written for (`Contract.exists_event_of_emits`).
* `trustedDaoActions_distinct` evaluates the hashes of the five events.
* `Dao.get_success`: a decided challenge that can be decoded says whether it succeeded.
* `Dao.Recorded` and `Dao.LatestRecorded` say what the latest change is; `Dao.recorded_iff`
  connects them with `Dao.Changed`.
* `Dao.latestChange_latestRecorded` is the main result: the latest change is found, and no other
  order, no removed log and no other division of the range makes a difference.
-/

namespace ContractReads

/-! ## Events by their topics -/

/-- All events are named in the first topic of their logs, each by a topic of its own. -/
structure Interface.Distinct (i : Interface) : Prop where
  named : ∀ e ∈ i.events, e.anonymous = false
  nodup : (i.events.map Event.selector).Nodup

theorem Interface.Distinct.eventOfTopic?_selector {i : Interface} (distinct : i.Distinct)
    {e : Event} (he : e ∈ i.events) : i.eventOfTopic? e.selector = some e := by
  cases hfind : i.eventOfTopic? e.selector with
  | none =>
    have hnot := List.find?_eq_none.1 hfind e he
    simp [distinct.named e he] at hnot
  | some found =>
    have hmem := List.mem_of_find?_eq_some hfind
    have hselector : found.selector = e.selector := by
      have hfound := List.find?_some hfind
      simpa [distinct.named found hmem] using hfound
    rw [List.inj_on_of_nodup_map distinct.nodup hmem he hselector]

/-- What the fields of a decoded log are taken from. -/
theorem Event.decode_eq_ok {e : Event} {log : Log} {decoded : DecodedEvent}
    (h : e.decode log = .ok decoded) :
    ∃ types body fields, e.bodyTypes = .ok types ∧ decodeData types log.data = .ok body ∧
      e.takeFields 0 e.inputs (log.topics.drop 1) body [] = .ok fields ∧
      decoded = ⟨e.name, log.address, log.blockNumber, fields⟩ := by
  obtain ⟨types, htypes, h⟩ := bind_eq_ok_iff.1 h
  obtain ⟨body, hbody, h⟩ := bind_eq_ok_iff.1 h
  obtain ⟨fields, hfields, h⟩ := bind_eq_ok_iff.1 h
  cases h
  exact ⟨types, body, fields, htypes, hbody, hfields, rfl⟩

namespace Contract

/-- A log is decoded as one of some event of the contract. -/
theorem decodeEvent_eq_ok {c : Contract} {log : Log} {decoded : DecodedEvent}
    (h : c.decodeEvent log = .ok decoded) :
    ∃ e ∈ c.interface.events, e.decode log = .ok decoded := by
  rw [decodeEvent] at h
  split at h
  · cases h
  · split at h
    · rename_i e hfind
      exact ⟨e, List.mem_of_find?_eq_some hfind, h⟩
    · cases h

/-- A log of an event is decoded as one of this event. -/
theorem exists_event_of_emits {c : Contract} (distinct : c.interface.Distinct) {event : String}
    {log : Log} (hemits : c.Emits event log) :
    ∃ e ∈ c.interface.events, e.name = event ∧ c.decodeEvent log = e.decode log := by
  obtain ⟨-, topic, htopic, hhead⟩ := hemits
  obtain ⟨e, he, rfl⟩ := map_eq_ok_iff.1 htopic
  rw [Contract.event] at he
  split at he
  · rename_i e' hfind
    cases he
    have hmem := List.mem_of_find?_eq_some hfind
    obtain ⟨topics, htopics⟩ := List.head?_eq_some_iff.1 hhead
    exact ⟨e, hmem, by simpa using List.find?_some hfind,
      decodeEvent_of_topic htopics (distinct.eventOfTopic?_selector hmem)⟩
  · cases he

end Contract

/-! ## The events of the actions -/

theorem trustedDaoActions_distinct : Interface.trustedDaoActions.Distinct where
  named := by decide
  nodup := by decide +kernel

/-- The event of a decided challenge, as the interface declares it. -/
def challengeDecidedEvent : Event where
  name := "ActionChallengeDecided"
  inputs := [Interface.indexed "nodeChallengedAddress" "address",
    Interface.indexed "nodeChallengeDeciderAddress" "address", Interface.plain "success" "bool",
    Interface.plain "time" "uint256"]
  anonymous := false

theorem eq_challengeDecidedEvent {e : Event} (he : e ∈ Interface.trustedDaoActions.events)
    (hname : e.name = challengeDecidedEvent.name) : e = challengeDecidedEvent := by
  simp only [Interface.trustedDaoActions, List.mem_cons, List.not_mem_nil, or_false] at he
  rcases he with rfl | rfl | rfl | rfl | rfl
  · rfl
  all_goals exact absurd hname (by decide)

theorem bodyTypes_challengeDecidedEvent :
    challengeDecidedEvent.bodyTypes = .ok [.bool, .uint 256] :=
  Param.types_cons rfl (Param.types_cons AbiType.ofText_uint256 rfl)

/-- The data of a decided challenge starts with a flag. -/
theorem body_challengeDecidedEvent {data : Bytes} {body : List AbiValue}
    (h : decodeData [.bool, .uint 256] data = .ok body) :
    ∃ success time, body = [.bool success, time] := by
  obtain ⟨⟨arity, -⟩, each⟩ := decodeData_hasShape rfl h
  obtain ⟨flag, time, rfl⟩ := List.length_eq_two.1 arity.symm
  obtain ⟨hflag, -⟩ := each
  cases flag <;> try exact hflag.1.elim
  exact ⟨_, _, rfl⟩

/-- The flag is found under its name. -/
theorem takeFields_challengeDecidedEvent {topics : List Word} {success time : AbiValue}
    {fields : List (String × AbiValue)}
    (h : challengeDecidedEvent.takeFields 0 challengeDecidedEvent.inputs topics [success, time] []
      = .ok fields) :
    ∃ challenged decider, fields = [("nodeChallengedAddress", challenged),
      ("nodeChallengeDeciderAddress", decider), ("success", success), ("time", time)] := by
  match topics with
  | [] => cases h
  | [_] =>
    obtain ⟨_, -, h⟩ := bind_eq_ok_iff.1 h
    obtain ⟨_, -, h⟩ := bind_eq_ok_iff.1 h
    cases h
  | _ :: _ :: _ =>
    obtain ⟨_, -, h⟩ := bind_eq_ok_iff.1 h
    obtain ⟨challenged, -, h⟩ := bind_eq_ok_iff.1 h
    obtain ⟨_, -, h⟩ := bind_eq_ok_iff.1 h
    obtain ⟨decider, -, h⟩ := bind_eq_ok_iff.1 h
    cases h
    exact ⟨challenged, decider, rfl⟩

namespace Oracle.Dao

variable {d : Dao}

/-- A decided challenge that can be decoded says whether it succeeded. -/
theorem get_success (known : d.actions.interface = .trustedDaoActions) {log : Log}
    {e : DecodedEvent} (h : d.actions.decodeEvent log = .ok e) (hname : e.name = challengeDecided) :
    ∃ success : Bool, e.get "success" = .ok success := by
  obtain ⟨event, hmem, h⟩ := Contract.decodeEvent_eq_ok h
  obtain ⟨types, body, fields, htypes, hbody, hfields, rfl⟩ := Event.decode_eq_ok h
  rw [known] at hmem
  obtain rfl := eq_challengeDecidedEvent hmem hname
  rw [bodyTypes_challengeDecidedEvent] at htypes
  cases htypes
  obtain ⟨success, time, rfl⟩ := body_challengeDecidedEvent hbody
  obtain ⟨challenged, decider, rfl⟩ := takeFields_challengeDecidedEvent hfields
  exact ⟨success, rfl⟩

/-- A log of one of the contract's events is decoded under the name of this event. -/
theorem name_of_emits (known : d.actions.interface = .trustedDaoActions) {event : String}
    {log : Log} {e : DecodedEvent} (hemits : d.actions.Emits event log)
    (h : d.actions.decodeEvent log = .ok e) : e.name = event := by
  obtain ⟨declared, -, rfl, hdecode⟩ :=
    Contract.exists_event_of_emits (known ▸ trustedDaoActions_distinct) hemits
  rw [hdecode] at h
  obtain ⟨_, _, _, -, -, -, rfl⟩ := Event.decode_eq_ok h
  rfl

/-- The four events are declared. -/
theorem declared_of_known (known : d.actions.interface = .trustedDaoActions) : d.Declared := by
  intro event hevent
  simp only [membershipEvents, challengeDecided, List.mem_cons, List.not_mem_nil, or_false]
    at hevent
  rw [Contract.eventTopic, Contract.event, known]
  rcases hevent with rfl | rfl | rfl | rfl
  all_goals exact ⟨_, rfl⟩

/-! ## The latest change -/

/-- A log of a range tells that the members changed: it is not removed, a filter selects it, and it
is of someone who joined, left or was kicked, or of a challenge that succeeded. -/
structure Recorded (d : Dao) (filter : LogFilter) (first last : UInt64) (log : Log) : Prop where
  current : log.removed = false
  selected : filter.accepts log = true
  inRange : log.InRange first last
  effective : ∃ e, d.actions.decodeEvent log = .ok e ∧
    (e.name ∈ ["ActionJoined", "ActionLeave", "ActionKick"] ∨
      e.name = "ActionChallengeDecided" ∧ e.get "success" = .ok true)

/-- The latest block with a log that tells of a change, or the first one if there is none. -/
def LatestRecorded (d : Dao) (filter : LogFilter) (logs : List Log) (first last block : UInt64) :
    Prop :=
  (∃ log ∈ logs, d.Recorded filter first last log ∧ log.blockNumber = block ∧
    ∀ other ∈ logs, d.Recorded filter first last other → other.blockNumber ≤ block) ∨
  (block = first ∧ ∀ log ∈ logs, ¬d.Recorded filter first last log)

/-- With the known interface, logs that tell of changes are known by the names of their events. -/
theorem recorded_iff (known : d.actions.interface = .trustedDaoActions) {filter : LogFilter}
    (haccepts : ∀ log, filter.accepts log = true ↔
      ∃ event ∈ membershipEvents, d.actions.Emits event log) {first last : UInt64} {log : Log} :
    d.Recorded filter first last log ↔ d.Changed log ∧ log.InRange first last := by
  constructor
  · rintro ⟨current, selected, hrange, e, he, heffective⟩
    refine ⟨⟨current, (haccepts log).1 selected, e, he, fun hname => ?_⟩, hrange⟩
    rcases heffective with hother | ⟨-, hsuccess⟩
    · rw [hname] at hother
      exact absurd hother (by decide)
    · exact hsuccess
  · rintro ⟨⟨current, ⟨event, hevent, hemits⟩, e, he, heffective⟩, hrange⟩
    refine ⟨current, (haccepts log).2 ⟨event, hevent, hemits⟩, hrange, e, he, ?_⟩
    obtain rfl := name_of_emits known hemits he
    simp only [membershipEvents, List.mem_cons, List.not_mem_nil, or_false] at hevent ⊢
    rcases hevent with hname | hname | hname | hname
    · exact .inl (.inl hname)
    · exact .inl (.inr (.inl hname))
    · exact .inl (.inr (.inr hname))
    · exact .inr ⟨hname, heffective hname⟩

theorem latestRecorded_iff (known : d.actions.interface = .trustedDaoActions) {filter : LogFilter}
    (haccepts : ∀ log, filter.accepts log = true ↔
      ∃ event ∈ membershipEvents, d.actions.Emits event log) {logs : List Log}
    {first last block : UInt64} :
    d.LatestRecorded filter logs first last block ↔ d.LatestChange logs first last block := by
  simp only [LatestRecorded, LatestChange, recorded_iff known haccepts, not_and, and_imp, and_assoc]

/-- With the known interface, the block of the latest change is found: the latest one with a log of
the range that is not removed, that the filter selects, and that tells of a change.  All that has to
be known is that the logs which are asked for can be decoded.  The block lies in the range, and every
source gives it that holds these logs, removed ones aside, in whatever order it holds them and
however the range is divided. -/
theorem latestChange_latestRecorded (known : d.actions.interface = .trustedDaoActions) :
    ∃ filter, d.membershipFilter = .ok filter ∧
      ∀ (logs : List Log) (first last : UInt64), first ≤ last →
        (∀ log ∈ logs, log.removed = false → log.InRange first last →
          filter.accepts log = true → ∃ e, d.actions.decodeEvent log = .ok e) →
        ∃ block, d.LatestRecorded filter logs first last block ∧ first ≤ block ∧ block ≤ last ∧
          ∀ {w : Type} {source : LogSource w} {W : w → Prop} {store : LogStore},
            source.Holds W store →
            (∀ log, log.removed = false → (log ∈ store.logs ↔ log ∈ logs)) →
            ∀ maxRange, maxRange ≠ some 0 →
              Yields (fun s => W s.1) (d.latestChange source first last maxRange) (· = block) := by
  have declared := declared_of_known known
  obtain ⟨filter, hfilter, haccepts⟩ := accepts_membershipFilter declared
  refine ⟨filter, hfilter, fun logs first last hle decodes => ?_⟩
  have readable : ∀ logs' : List Log,
      (∀ log, log.removed = false → (log ∈ logs' ↔ log ∈ logs)) → d.Readable logs' first last := by
    intro logs' same log hlog hremoved hemits hrange
    obtain ⟨e, he⟩ :=
      decodes log ((same log hremoved).1 hlog) hremoved hrange ((haccepts log).2 hemits)
    exact ⟨e, he, get_success known he⟩
  -- A store in memory that holds these logs gives the block.
  let store : LogStore := { logs := logs }
  obtain ⟨block, _, -, hlatest, -⟩ := latestChange_yields store.holds_source declared
    (readable logs fun _ _ => Iff.rfl) (Option.some_ne_none 0).symm (store, 0) ⟨rfl, rfl⟩
  refine ⟨block, (latestRecorded_iff known haccepts).2 hlatest, hlatest.first_le,
    hlatest.le_last hle, fun holds same maxRange hrange => ?_⟩
  have hyields := latestChange_yields holds declared (readable _ same) hrange
  exact hyields.mono fun other hother => hother.unique (hlatest.of_current same)

end Oracle.Dao

/-! ## A member that joined -/

namespace Oracle.OneJoined

def dao : Dao where
  members := default
  actions := ⟨ContractName.trustedDaoActions, .ofNat 20 2, .trustedDaoActions, 1⟩

def joinedEvent : Event where
  name := "ActionJoined"
  inputs := [Interface.indexed "nodeAddress" "address", Interface.plain "rplBondAmount" "uint256",
    Interface.plain "time" "uint256"]
  anonymous := false

def member : Address := .ofNat 20 7

def joined : Log where
  address := dao.actions.address
  topics := [joinedEvent.selector, member.toWord]
  data := AbiValue.encodeParams [.uint 1 256, .uint 2 256]
  blockNumber := 300
  logIndex := 0
  transactionHash := none
  removed := false

/-- A later log, which was removed and could not be decoded. -/
def removedLog : Log := ⟨dao.actions.address, [joinedEvent.selector], [], 800, 0, none, true⟩

theorem joinedEvent_mem : joinedEvent ∈ dao.actions.interface.events := by
  show joinedEvent ∈ Interface.trustedDaoActions.events
  simp [Interface.trustedDaoActions, joinedEvent]

theorem emits_joined : dao.actions.Emits "ActionJoined" joined :=
  ⟨rfl, joinedEvent.selector, rfl, rfl⟩

theorem decodeEvent_joined : ∃ e, dao.actions.decodeEvent joined = .ok e := by
  have hfind := trustedDaoActions_distinct.eventOfTopic?_selector joinedEvent_mem
  have htypes : joinedEvent.bodyTypes = .ok [.uint 256, .uint 256] :=
    Param.types_cons AbiType.ofText_uint256 (Param.types_cons AbiType.ofText_uint256 rfl)
  have hbody : decodeData [.uint 256, .uint 256] joined.data = .ok [.uint 1 256, .uint 2 256] := by
    refine decodeData_encodeParams rfl ?_ (by decide +kernel) (by decide) (by decide) rfl
    simp only [List.zip_cons_cons, List.zip_nil_right, List.mem_cons, List.not_mem_nil, or_false,
      forall_eq_or_imp, forall_eq]
    exact ⟨.uint _ _, .uint _ _⟩
  refine ⟨⟨"ActionJoined", joined.address, 300, [("nodeAddress", .address member),
    ("rplBondAmount", .uint 1 256), ("time", .uint 2 256)]⟩, ?_⟩
  rw [Contract.decodeEvent_of_topic (rfl : joined.topics = _ :: _) hfind, Event.decode, htypes]
  simp only [bind, Except.bind, hbody]
  rfl

/-- The member joined at block 300; the removed log of block 800 does not count. -/
theorem latestChange_latestRecorded_joined : ∃ after,
    dao.latestChange LogStore.source 0 1000 (some 250)
      ({ logs := [removedLog, joined] }, 0) = (.ok 300, after) := by
  have known : dao.actions.interface = .trustedDaoActions := rfl
  obtain ⟨filter, hfilter, hfound⟩ := Dao.latestChange_latestRecorded known
  obtain ⟨_, hfilter', haccepts⟩ := Dao.accepts_membershipFilter (Dao.declared_of_known known)
  cases hfilter.symm.trans hfilter'
  obtain ⟨e, he⟩ := decodeEvent_joined
  have hrecorded : dao.Recorded filter 0 1000 joined := by
    have hname := Dao.name_of_emits known emits_joined he
    refine ⟨rfl, (haccepts joined).2 ⟨"ActionJoined", by decide, emits_joined⟩,
      ⟨by decide, by decide⟩, e, he, .inl ?_⟩
    rw [hname]
    exact List.mem_cons_self
  obtain ⟨block, hlatest, -, -, hyields⟩ := hfound [removedLog, joined] 0 1000 (by decide) (by
    intro log hlog hremoved _ _
    rcases List.mem_pair.1 hlog with rfl | rfl
    · cases hremoved
    · exact ⟨e, he⟩)
  have hblock : block = 300 := by
    rcases hlatest with ⟨log, hlog, hrecorded, rfl, -⟩ | ⟨-, hnone⟩
    · rcases List.mem_pair.1 hlog with rfl | rfl
      · cases hrecorded.current
      · rfl
    · exact absurd hrecorded (hnone joined (by simp))
  let store : LogStore := { logs := [removedLog, joined] }
  obtain ⟨found, after, hrun, hfound, -⟩ := hyields store.holds_source (fun _ _ => Iff.rfl)
    (some 250) (by decide) (store, 0) ⟨rfl, rfl⟩
  subst hfound hblock
  exact ⟨after, hrun⟩

end Oracle.OneJoined

end ContractReads
