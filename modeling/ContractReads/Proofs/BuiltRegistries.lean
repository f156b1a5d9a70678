import Mathlib
import ContractReads.Contract.Registry
import ContractReads.Proofs.CallEncoding
import ContractReads.Proofs.ChainReads
import ContractReads.Proofs.FlexibleReads

/-!
# Building a registry

A registry pairs every name with its own interface, address and version, at an endpoint that
answers each call on its own.

* `lastOfEachName` says which definitions count, and `Builder.definitions_of_foldlM` that these are
  the ones that a builder keeps.
* `storedAddress` and `versionAt` say what the endpoint knows of a name and of an address.
  `lookUp_each` and `readVersions_each` are the two queries in shards.
* `fill_pending` and `contractsOf_map` put names, addresses and versions together again, whatever
  the order of definitions with and without an address.
* `build_pairs` is the whole: the first definition without any address fails the build, and if
  there is none, every definition makes a contract.
-/

namespace ContractReads.Registry

variable {w : Type}

/-! ## Which definitions count -/

/-- Of each name the last definition, where that stands. -/
def lastOfEachName : List Definition → List Definition
  | [] => []
  | d :: ds =>
    if ds.any fun e => e.name = d.name then lastOfEachName ds else d :: lastOfEachName ds

/-- A further definition takes the last place, and those of its name go. -/
theorem lastOfEachName_concat (ds : List Definition) (d : Definition) :
    lastOfEachName (ds ++ [d]) =
      (lastOfEachName ds).filter (fun e => e.name ≠ d.name) ++ [d] := by
  induction ds with
  | nil => rfl
  | cons e ds ih =>
    rw [List.cons_append, lastOfEachName, lastOfEachName, List.any_append, ih]
    by_cases hlater : (ds.any fun e' => e'.name = e.name) = true
    · simp [hlater]
    · by_cases hname : d.name = e.name
      · simp [hlater, hname]
      · simp [hlater, hname, Ne.symm hname]

theorem mem_names_lastOfEachName {ds : List Definition} {name : String} :
    name ∈ (lastOfEachName ds).map Definition.name ↔ name ∈ ds.map Definition.name := by
  induction ds with
  | nil => rfl
  | cons d ds ih =>
    rw [lastOfEachName]
    split
    · rename_i hlater
      obtain ⟨e, he, hname⟩ := List.any_eq_true.1 hlater
      have hname : e.name = d.name := by simpa using hname
      rw [ih, List.map_cons, List.mem_cons, or_iff_right_of_imp]
      rintro rfl
      exact List.mem_map.2 ⟨e, he, hname⟩
    · rw [List.map_cons, List.map_cons, List.mem_cons, List.mem_cons, ih]

/-- Every name is left once. -/
theorem nodup_names_lastOfEachName (ds : List Definition) :
    ((lastOfEachName ds).map Definition.name).Nodup := by
  induction ds with
  | nil => exact List.nodup_nil
  | cons d ds ih =>
    rw [lastOfEachName]
    split
    · exact ih
    · rename_i hlater
      rw [List.map_cons, List.nodup_cons, mem_names_lastOfEachName]
      refine ⟨?_, ih⟩
      intro hmem
      obtain ⟨e, he, hname⟩ := List.mem_map.1 hmem
      exact hlater (List.any_eq_true.2 ⟨e, he, by simpa using hname⟩)

namespace Builder

/-- One of the calls by which a builder is told of a contract. -/
inductive Addition
  /-- The address is looked up. -/
  | contract (name text : String)
  | contractAt (name : String) (address : Address) (text : String)
  /-- The interface is one that the library knows. -/
  | bundled (name : String)

/-- What a call defines, if its interface can be read or is known. -/
inductive Addition.Defines : Addition → Definition → Prop
  | contract {name text : String} {i : Interface} (read : Interface.ofText text = .ok i) :
    Defines (.contract name text) ⟨name, i, none⟩
  | contractAt {name text : String} {address : Address} {i : Interface}
    (read : Interface.ofText text = .ok i) :
    Defines (.contractAt name address text) ⟨name, i, some address⟩
  | bundled {name : String} {i : Interface} (known : ContractName.interface? name = some i) :
    Defines (.bundled name) ⟨name, i, none⟩

/-- Carries out one call. -/
def perform (b : Builder) : Addition → Except QueryError Builder
  | .contract name text => (Contract.asQueryError (Interface.ofText text)).map (b.contract name)
  | .contractAt name address text =>
    (Contract.asQueryError (Interface.ofText text)).map (b.contractAt name address)
  | .bundled name => b.bundled name

/-- The interface that a call is given can be read. -/
theorem ofText_of_asQueryError {text : String} {i : Interface}
    (h : Contract.asQueryError (Interface.ofText text) = .ok i) : Interface.ofText text = .ok i := by
  cases hread : Interface.ofText text with
  | error cause =>
    rw [hread] at h
    cases h
  | ok j =>
    rw [hread] at h
    exact congrArg Except.ok (Except.ok.inj h)

/-- A call that succeeds adds what it defines. -/
theorem exists_define_of_perform {b b' : Builder} {a : Addition} (h : b.perform a = .ok b') :
    ∃ d, a.Defines d ∧ b' = b.define d := by
  cases a with
  | contract name text =>
    obtain ⟨i, hread, hadded⟩ := map_eq_ok_iff.1 h
    exact ⟨_, .contract (ofText_of_asQueryError hread), hadded⟩
  | contractAt name address text =>
    obtain ⟨i, hread, hadded⟩ := map_eq_ok_iff.1 h
    exact ⟨_, .contractAt (ofText_of_asQueryError hread), hadded⟩
  | bundled name =>
    rw [perform, bundled] at h
    split at h
    · rename_i i hknown
      exact ⟨_, .bundled hknown, (Except.ok.inj h).symm⟩
    · cases h

/-- A builder keeps the last definition of each name.  The induction is on the calls; before them
the builder has kept those of `before`. -/
theorem definitions_of_foldlM {additions : List Addition} {b b' : Builder}
    {before : List Definition} (hb : b.definitions = lastOfEachName before)
    (h : additions.foldlM perform b = .ok b') :
    b'.storage = b.storage ∧ ∃ ds, List.Forall₂ Addition.Defines additions ds ∧
      b'.definitions = lastOfEachName (before ++ ds) := by
  induction additions generalizing b before with
  | nil =>
    cases h
    exact ⟨rfl, [], .nil, by rw [List.append_nil, hb]⟩
  | cons a additions ih =>
    rw [List.foldlM_cons] at h
    obtain ⟨b₁, hperform, hrest⟩ := bind_eq_ok_iff.1 h
    obtain ⟨d, hd, rfl⟩ := exists_define_of_perform hperform
    have hdefine : (b.define d).definitions = lastOfEachName (before ++ [d]) := by
      rw [lastOfEachName_concat, ← hb]
      rfl
    obtain ⟨hstorage, ds, hds, hkept⟩ := ih hdefine hrest
    refine ⟨hstorage, d :: ds, .cons hd hds, ?_⟩
    rw [hkept, List.append_assoc, List.singleton_append]

end Builder

/-! ## What an endpoint knows -/

variable {f : EncodedCall → Outcome}

/-- The call that asks the store for the address of a name: the selector of `getAddress(bytes32)`,
and behind it the Keccak hash of `contract.address` and the name. -/
def lookupOf (storage : Address) (name : String) : EncodedCall :=
  ⟨storage, [0x21, 0xf8, 0xa7, 0x21] ++
    (Keccak.hash ("contract.address" ++ name).toUTF8.toList).toBytes⟩

/-- The call that asks a contract for its version: the selector of `version()`. -/
def versionOf (a : Address) : EncodedCall := ⟨a, [0x54, 0xfd, 0x4d, 0x50]⟩

/-- The address that is stored under a name: what the lookup returns, if it succeeds and returns an
address other than zero. -/
def storedAddress (f : EncodedCall → Outcome) (storage : Address) (name : String) :
    Option Address :=
  match f (lookupOf storage name) with
  | ⟨false, _⟩ => none
  | ⟨true, data⟩ =>
    match Abi.decodeParams [.address] data with
    | .ok (.address a :: _) => if a.isZero then none else some a
    | _ => none

/-- The version of the contract at an address: what it returns, if it returns a number below 256,
and else 1. -/
def versionAt (f : EncodedCall → Outcome) (a : Address) : UInt8 :=
  match f (versionOf a) with
  | ⟨false, _⟩ => 1
  | ⟨true, data⟩ =>
    match Abi.decodeParams [.uint 8] data with
    | .ok (.uint n _ :: _) => if n.toNat ≤ 255 then UInt8.ofNat n.toNat else 1
    | _ => 1

namespace Definition

/-- The address of a definition: its own, or the one that is stored under its name. -/
def addressIn (f : EncodedCall → Outcome) (storage : Address) (d : Definition) : Option Address :=
  d.address.or (storedAddress f storage d.name)

/-- The contract that a definition becomes once its address is known. -/
def contractIn (f : EncodedCall → Outcome) (storage : Address) (d : Definition) : Contract :=
  let a := (d.addressIn f storage).getD (.zero 20)
  ⟨d.name, a, d.interface, versionAt f a⟩

/-- What a contract has from its definition and from the chain. -/
structure Makes (f : EncodedCall → Outcome) (storage : Address) (d : Definition) (c : Contract) :
    Prop where
  name : c.name = d.name
  interface : c.interface = d.interface
  address : d.addressIn f storage = some c.address
  /-- An address that was looked up is not zero. -/
  nonzero : d.address = none → c.address ≠ .zero 20
  version : c.version = versionAt f c.address

/-- The address of a definition decides about its contract. -/
theorem Makes.eq_of_address {storage a : Address} {d : Definition} {c : Contract}
    (h : d.Makes f storage c) (ha : d.addressIn f storage = some a) :
    c = ⟨d.name, a, d.interface, versionAt f a⟩ := by
  have haddress : c.address = a := Option.some.inj (h.address.symm.trans ha)
  rw [← haddress, ← h.name, ← h.interface, ← h.version]

end Definition

/-- The first definition that has no address. -/
def firstWithoutAddress (f : EncodedCall → Outcome) (storage : Address) (ds : List Definition) :
    Option Definition :=
  ds.find? fun d => (d.addressIn f storage).isNone

theorem exists_address {storage : Address} {ds : List Definition}
    (h : firstWithoutAddress f storage ds = none) {d : Definition} (hd : d ∈ ds) :
    ∃ a, d.addressIn f storage = some a := by
  have hsome := List.find?_eq_none.1 h d hd
  cases haddress : d.addressIn f storage with
  | none => simp [haddress] at hsome
  | some a => exact ⟨a, rfl⟩

theorem storedAddress_ne_zero {storage a : Address} {name : String}
    (h : storedAddress f storage name = some a) : a ≠ .zero 20 := by
  unfold storedAddress at h
  split at h
  · cases h
  · split at h
    · split at h
      · cases h
      · rename_i hzero
        cases h
        simpa [FixedBytes.isZero] using hzero
    · cases h

namespace Builder

/-! ## Looking up addresses -/

/-- The call that reads the address of a name. -/
def lookupCall (storage : Address) (name : String) : Call Address where
  target := storage
  calldata := (lookupOf storage name).calldata
  slot := 0
  decode data := Contract.asQueryError
    ((Storage.ofAddress storage).contract.readFirst "getAddress" [.address] fromAbi data)

theorem selectorOf_getAddress : selectorOf "getAddress(bytes32)" = [0x21, 0xf8, 0xa7, 0x21] := by
  decide +kernel

theorem prepare_getAddress (storage : Address) (key : Word) :
    (Storage.ofAddress storage).contract.prepare "getAddress" [.ofWord key] =
      .ok ([0x21, 0xf8, 0xa7, 0x21] ++ key.toBytes, [.address]) := by
  let getAddress : Function :=
    ⟨"getAddress", [Interface.simple "_key" "bytes32"], [Interface.simple "r" "address"]⟩
  have hfunction : (Storage.ofAddress storage).contract.function "getAddress" 1 = .ok getAddress :=
    rfl
  have htype : AbiType.ofText? "bytes32" = some (.fixedBytes 32) := by cbv
  have hinputs : Param.types getAddress.inputs = .ok [.fixedBytes 32] :=
    Param.types_cons htype rfl
  have houtputs : Param.types getAddress.outputs = .ok [.address] := rfl
  have hencoded : AbiValue.encodeParams [.fixedBytes key 32] = key.toBytes := by
    simp [AbiValue.encodeParams, AbiValue.parts, AbiValue.part, Part.assemble, Part.heads,
      Part.tails]
  have hsignature : signature getAddress.name getAddress.inputs = "getAddress(bytes32)" := rfl
  rw [Contract.prepare, List.length_singleton, hfunction]
  simp only [Function.encode, hinputs, houtputs, bind, Except.bind]
  show Except.ok (getAddress.selector ++ AbiValue.encodeParams [.fixedBytes key 32], _) = _
  rw [hencoded, Function.selector, hsignature, selectorOf_getAddress]

/-- A lookup is registered with one call. -/
theorem adds_lookUp (storage : Address) (names : List String) :
    Scheduler.Adds (fun i (b : Batch Address) =>
        ((Storage.ofAddress storage).addContractAddress i fromAbi (names.getD i "") b).mapError
          Scheduler.Fault.error)
      fun i => [(lookupCall storage (names.getD i "")).inSlot i] := by
  intro i b room
  have hroom : b.size < b.limit := room
  show ((Storage.ofAddress storage).contract.addCall i fromAbi "getAddress"
    [.ofWord (Storage.addressKey (names.getD i ""))] b).mapError _ = _
  rw [Contract.addCall, prepare_getAddress]
  exact congrArg (Except.mapError Scheduler.Fault.error) (if_pos hroom)

/-- The stored address is what the lookup comes to, unless that is zero. -/
theorem storedAddress_eq (f : EncodedCall → Outcome) (storage : Address) (name : String) :
    storedAddress f storage name =
      ((lookupCall storage name).value? (f (lookupOf storage name))).filter fun a => !a.isZero := by
  rw [storedAddress, Call.value?]
  generalize f (lookupOf storage name) = o
  obtain ⟨success, data⟩ := o
  cases success with
  | false => rfl
  | true =>
    simp only [if_true, lookupCall, Contract.readFirst, decodeData]
    cases Abi.decodeParams [.address] data with
    | error cause => rfl
    | ok vs =>
      cases vs with
      | nil => rfl
      | cons v vs =>
        cases v with
        | address a =>
          show _ = Option.filter _ (some a)
          cases hzero : a.isZero <;> simp [Option.filter, hzero]
        | _ => rfl

/-- A lookup is refused if and only if no address is stored. -/
theorem checkAddress_eq (f : EncodedCall → Outcome) (storage : Address) (name : String) :
    checkAddress name ((lookupCall storage name).succeeds f)
        ((lookupCall storage name).value? (f (lookupOf storage name))) =
      if (storedAddress f storage name).isNone then .error (.unknownContract name) else .ok () := by
  have hsucceeds : (lookupCall storage name).succeeds f =
      ((lookupCall storage name).value? (f (lookupOf storage name))).isSome := rfl
  rw [hsucceeds, storedAddress_eq]
  cases (lookupCall storage name).value? (f (lookupOf storage name)) with
  | none => rfl
  | some a => cases hzero : a.isZero <;> simp [checkAddress, Option.filter, hzero]

/-- The first item that is bad is refused. -/
theorem forM_refusals {β : Type} (bad : β → Bool) (cause : β → QueryError) (items : List β) :
    forM items (fun x => if bad x then Except.error (cause x) else .ok ()) =
      match items.find? bad with
      | some x => .error (cause x)
      | none => .ok () := by
  induction items with
  | nil => rfl
  | cons x items ih =>
    rw [List.forM_cons, List.find?_cons]
    cases bad x with
    | true => rfl
    | false => exact ih

/-! ## Reading versions -/

/-- The call that reads the version of the contract at an address. -/
def versionCall (a : Address) : Call UInt8 where
  target := a
  calldata := (versionOf a).calldata
  slot := 0
  decode data := Contract.asQueryError (decodeVersion data)

theorem versionSelector_eq : versionSelector = [0x54, 0xfd, 0x4d, 0x50] := by decide +kernel

/-- A version is registered with one call. -/
theorem adds_readVersions (targets : List Address) :
    Scheduler.Adds (fun i (b : Batch UInt8) =>
        (b.add ⟨targets.getD i (.zero 20), versionSelector, i, fun data =>
          Contract.asQueryError (decodeVersion data)⟩).mapError Scheduler.Fault.error)
      fun i => [(versionCall (targets.getD i (.zero 20))).inSlot i] := by
  intro i b room
  have hroom : b.size < b.limit := room
  rw [versionSelector_eq]
  exact congrArg (Except.mapError Scheduler.Fault.error) (if_pos hroom)

/-- The version is what the call comes to, and else 1. -/
theorem versionAt_eq (f : EncodedCall → Outcome) (a : Address) :
    versionAt f a = ((versionCall a).value? (f (versionOf a))).getD 1 := by
  rw [versionAt, Call.value?]
  generalize f (versionOf a) = o
  obtain ⟨success, data⟩ := o
  cases success with
  | false => rfl
  | true =>
    simp only [if_true, versionCall, decodeVersion, decodeData]
    cases Abi.decodeParams [.uint 8] data with
    | error cause => rfl
    | ok vs =>
      cases vs with
      | nil => rfl
      | cons v vs =>
        cases v with
        | uint n bits =>
          have hbound : n.toNat ≤ 255 ↔ n.toNat < UInt8.size := Nat.lt_succ_iff.symm
          simp only [hbound, bind, Except.bind, fromAbi, FromAbi.bounded]
          by_cases hsmall : n.toNat < UInt8.size
          · rw [if_pos hsmall, if_pos hsmall]
            rfl
          · rw [if_neg hsmall, if_neg hsmall]
            rfl
        | _ => rfl

section Build

variable {g : Engine w} {block : BlockTag} {W : w → Prop}
  (answers : g.endpoint.AnswersIn .flexible block W f)
include answers

/-- The addresses of names are looked up: the first name without a stored address fails the
query, and otherwise all of them are found. -/
theorem lookUp_each (storage : Address) (names : List String) {world : w} (hworld : W world)
    (now : Nat) :
    ∃ world' now',
      g.endpoint.Leads (fun c => ∃ name ∈ names, lookupOf storage name = c) world world' ∧
      lookUp g (.ofAddress storage) names block (world, now) =
        (match names.find? fun name => (storedAddress f storage name).isNone with
          | some name => .error (.unknownContract name)
          | none => .ok ⟨names.map (storedAddress f storage)⟩,
          world', now') := by
  cases names with
  | nil => exact ⟨world, now, .stays, rfl⟩
  | cons name names =>
    generalize hall : name :: names = all
    have hsome : all.isEmpty = false := hall ▸ rfl
    have inRange := EngineConfig.inRange_of_check g.check_config
    let handle (success : Bool) (i : Nat) : QueryM (Scene w Address) Unit := fun s =>
      (checkAddress (all.getD i "") success (s.slots.get? i), s)
    let check (name : String) : Except QueryError Unit :=
      if (storedAddress f storage name).isNone then .error (.unknownContract name) else .ok ()
    have checks : ∀ s : Scene w Address,
        s.slots = ⟨all.map fun name =>
          (lookupCall storage name).value? (f (lookupCall storage name).encoded)⟩ →
        ∀ i (hi : i < all.length),
          handle ((lookupCall storage all[i]).succeeds f) i s = (check all[i], s) := by
      intro s hs i hi
      have hname : all.getD i "" = all[i] := List.getD_eq_getElem _ _ hi
      have hvalue : s.slots.get? i =
          (lookupCall storage all[i]).value? (f (lookupOf storage all[i])) := by
        rw [hs, Slots.get?, List.getElem?_map, List.getElem?_eq_getElem hi]
        rfl
      show (checkAddress _ _ _, s) = _
      rw [hname, hvalue, checkAddress_eq]
    obtain ⟨world', now', hleads, hquery⟩ := Engine.flexReads_each answers
      inRange.addressBatchSize.1 inRange.addressBatchSize.2 (adds_lookUp storage all) checks
      hworld now
    refine ⟨world', now', hleads, ?_⟩
    rw [show forM all check = _ from forM_refusals _ _ all] at hquery
    rw [lookUp, hsome]
    show (QueryM.withSlots _ _ >>= _) _ = _
    rw [QueryM.bind_apply, hquery]
    cases hfind : all.find? fun name => (storedAddress f storage name).isNone with
    | some name => rfl
    | none =>
      have hfound : all.map (fun name =>
          (lookupCall storage name).value? (f (lookupCall storage name).encoded)) =
            all.map (storedAddress f storage) := by
        refine List.map_congr_left fun name hname => ?_
        have hstored := List.find?_eq_none.1 hfind name hname
        obtain ⟨a, ha⟩ := Option.ne_none_iff_exists'.1 (mt Option.isNone_iff_eq_none.2 hstored)
        rw [ha]
        rw [storedAddress_eq, Option.filter_eq_some_iff] at ha
        exact ha.1
      rw [hfound]
      rfl

/-- The version of the contract at each address is read.  No answer fails the query. -/
theorem readVersions_each (targets : List Address) {world : w} (hworld : W world) (now : Nat) :
    ∃ world' now',
      g.endpoint.Leads (fun c => ∃ a ∈ targets, versionOf a = c) world world' ∧
      readVersions g targets block (world, now) =
        (.ok (targets.map (versionAt f)), world', now') := by
  have inRange := EngineConfig.inRange_of_check g.check_config
  let handle (_ : Bool) (_ : Nat) : QueryM (Scene w UInt8) Unit := return ()
  let check (_ : Address) : Except QueryError Unit := .ok ()
  have checks : ∀ s : Scene w UInt8,
      s.slots = ⟨targets.map fun a => (versionCall a).value? (f (versionCall a).encoded)⟩ →
      ∀ i (hi : i < targets.length),
        handle ((versionCall targets[i]).succeeds f) i s = (check targets[i], s) :=
    fun _ _ _ _ => rfl
  have hnone : ∀ as : List Address, forM as check = .ok () := by
    intro as
    induction as with
    | nil => rfl
    | cons a as ih => exact ih
  obtain ⟨world', now', hleads, hquery⟩ := Engine.flexReads_each answers
    inRange.contractVersionBatchSize.1 inRange.contractVersionBatchSize.2
    (adds_readVersions targets) checks hworld now
  refine ⟨world', now', hleads, ?_⟩
  rw [hnone] at hquery
  rw [readVersions, QueryM.bind_apply, hquery]
  have hversions : versionAt f = fun a => ((versionCall a).value? (f (versionOf a))).getD 1 :=
    funext (versionAt_eq f)
  rw [hversions]
  show (Except.ok ((targets.map _).map _), _) = _
  rw [List.map_map]
  rfl

end Build

/-! ## Putting the parts together -/

/-- Every definition gets its own address or the one that was found for it. -/
theorem fill_pending (found : Definition → Option Address) (ds : List Definition) :
    fill ds ((ds.filter fun d => d.address.isNone).map found) =
      .ok (ds.map fun d => (d.address.or (found d)).getD (.zero 20)) := by
  induction ds with
  | nil => rfl
  | cons d ds ih =>
    cases hd : d.address with
    | some a => simp [hd, fill, ih, Except.map]
    | none => simp [hd, fill, ih, Except.map]

theorem contractsOf_map (address : Definition → Address) (version : Address → UInt8)
    (ds : List Definition) :
    contractsOf ds (ds.map address) ((ds.map address).map version) =
      ds.map fun d => ⟨d.name, address d, d.interface, version (address d)⟩ := by
  induction ds with
  | nil => rfl
  | cons d ds ih => rw [List.map_cons, List.map_cons, contractsOf, ih, List.map_cons]

/-- The first pending name without a stored address belongs to the first definition that has no
address at all. -/
theorem find?_pending (storage : Address) (ds : List Definition) :
    (((ds.filter fun d => d.address.isNone).map Definition.name).find? fun name =>
        (storedAddress f storage name).isNone) =
      (firstWithoutAddress f storage ds).map Definition.name := by
  rw [firstWithoutAddress, List.find?_map, List.find?_filter]
  congr 2
  funext d
  rw [Definition.addressIn]
  cases hd : d.address with
  | some a => simp
  | none => cases hstored : storedAddress f storage d.name <;> simp [hstored]

section Build

variable {g : Engine w} {block : BlockTag} {W : w → Prop}
  (answers : g.endpoint.AnswersIn .flexible block W f)
include answers

/-- The calls by which a registry is built: lookups for definitions without an address of their own,
and reads of versions. -/
def Asked (f : EncodedCall → Outcome) (storage : Address) (ds : List Definition)
    (c : EncodedCall) : Prop :=
  (∃ d ∈ ds, d.address = none ∧ lookupOf storage d.name = c) ∨
    ∃ d ∈ ds, ∃ a, d.addressIn f storage = some a ∧ versionOf a = c

/-- Every definition gets its address, unless one has none. -/
theorem resolveAddresses_each (b : Builder) {world : w} (hworld : W world) (now : Nat) :
    ∃ world' now',
      g.endpoint.Leads (Asked f b.storage b.definitions) world world' ∧
      b.resolveAddresses g block (world, now) =
        (match firstWithoutAddress f b.storage b.definitions with
          | some d => .error (.unknownContract d.name)
          | none => .ok (b.definitions.map fun d => (d.addressIn f b.storage).getD (.zero 20)),
          world', now') := by
  obtain ⟨world', now', hleads, hlookUp⟩ := lookUp_each answers b.storage
    ((b.definitions.filter fun d => d.address.isNone).map Definition.name) hworld now
  refine ⟨world', now', hleads.mono ?_, ?_⟩
  · rintro c ⟨name, hname, rfl⟩
    obtain ⟨d, hd, rfl⟩ := List.mem_map.1 hname
    obtain ⟨hmem, hpending⟩ := List.mem_filter.1 hd
    exact .inl ⟨d, hmem, Option.isNone_iff_eq_none.1 hpending, rfl⟩
  · rw [find?_pending] at hlookUp
    rw [resolveAddresses, QueryM.bind_apply, hlookUp]
    cases firstWithoutAddress f b.storage b.definitions with
    | some d => rfl
    | none =>
      show (fill b.definitions (((b.definitions.filter _).map _).map _), _) = _
      rw [List.map_map, fill_pending]
      rfl

/-- What a builder with any definitions comes to. -/
theorem build_each (b : Builder) {world : w} (hworld : W world) (now : Nat) :
    ∃ world' now',
      g.endpoint.Leads (Asked f b.storage b.definitions) world world' ∧
      b.build g block (world, now) =
        (match firstWithoutAddress f b.storage b.definitions with
          | some d => .error (.unknownContract d.name)
          | none => .ok ⟨.ofAddress b.storage, b.definitions.map fun d => d.contractIn f b.storage⟩,
          world', now') := by
  obtain ⟨world', now', hleads, hresolve⟩ := resolveAddresses_each answers b hworld now
  cases hmissing : firstWithoutAddress f b.storage b.definitions with
  | some d =>
    rw [hmissing] at hresolve
    refine ⟨world', now', hleads, ?_⟩
    rw [build, QueryM.bind_apply, hresolve]
  | none =>
    rw [hmissing] at hresolve
    obtain ⟨world'', now'', hleads', hversions⟩ := readVersions_each answers
      (b.definitions.map fun d => (d.addressIn f b.storage).getD (.zero 20))
      (hleads.keeps answers hworld) now'
    refine ⟨world'', now'', hleads.trans (hleads'.mono ?_), ?_⟩
    · rintro c ⟨a, ha, rfl⟩
      obtain ⟨d, hd, rfl⟩ := List.mem_map.1 ha
      obtain ⟨a, ha⟩ := exists_address hmissing hd
      refine .inr ⟨d, hd, a, ha, ?_⟩
      rw [ha]
      rfl
    · rw [build, QueryM.bind_apply, hresolve]
      show (readVersions g _ block >>= _) _ = _
      rw [QueryM.bind_apply, hversions]
      show (Except.ok (Registry.mk _ (contractsOf _ _ _)), _) = _
      rw [contractsOf_map]
      rfl

end Build

end Builder

/-! ## The registry -/

/-- In a list of contracts with different names each one is found by its name. -/
theorem find?_contract {contracts : List Contract} (h : (contracts.map Contract.name).Nodup)
    {c : Contract} (hc : c ∈ contracts) :
    (contracts.find? fun c' => c'.name = c.name) = some c := by
  induction contracts with
  | nil => cases hc
  | cons c' contracts ih =>
    rw [List.map_cons, List.nodup_cons] at h
    rcases List.mem_cons.1 hc with rfl | hc
    · simp
    · have hne : c'.name ≠ c.name := by
        intro hname
        exact h.1 (hname ▸ List.mem_map_of_mem hc)
      rw [List.find?_cons_of_neg (by simpa using hne)]
      exact ih h.2 hc

/-- A registry of definitions: it has one contract for each, finds it by its name, and finds no
other. -/
structure Pairs (f : EncodedCall → Outcome) (storage : Address) (ds : List Definition)
    (r : Registry) : Prop where
  store : r.storage = .ofAddress storage
  contracts : List.Forall₂ (Definition.Makes f storage) ds r.contracts
  get : ∀ d ∈ ds, ∃ c, d.Makes f storage c ∧ r.get d.name = .ok c
  absent : ∀ name, name ∉ ds.map Definition.name → r.get name = .error (.unknownContract name)

/-- If every definition has an address, the contracts that are built pair with the definitions. -/
theorem pairs_of_addresses {storage : Address} {ds : List Definition}
    (nodup : (ds.map Definition.name).Nodup) (found : firstWithoutAddress f storage ds = none) :
    Pairs f storage ds ⟨.ofAddress storage, ds.map fun d => d.contractIn f storage⟩ := by
  let make (d : Definition) : Contract := d.contractIn f storage
  have makes : ∀ d ∈ ds, d.Makes f storage (make d) := by
    intro d hd
    obtain ⟨a, ha⟩ := exists_address found hd
    have haddress : (make d).address = a := by
      show (d.addressIn f storage).getD (.zero 20) = a
      rw [ha]
      rfl
    refine ⟨rfl, rfl, haddress ▸ ha, ?_, rfl⟩
    intro hpending
    rw [haddress]
    rw [Definition.addressIn, hpending] at ha
    exact storedAddress_ne_zero ha
  have hnames : (ds.map make).map Contract.name = ds.map Definition.name := by
    rw [List.map_map]
    rfl
  refine ⟨rfl, List.forall₂_map_right_iff.2 (List.forall₂_same.2 makes), ?_, ?_⟩
  · intro d hd
    refine ⟨make d, makes d hd, ?_⟩
    have hfind : ((ds.map make).find? fun c => c.name = d.name) = some (make d) :=
      find?_contract (hnames ▸ nodup) (List.mem_map_of_mem hd)
    rw [Registry.get, Registry.find?, hfind]
  · intro name hname
    have hfind : ((ds.map make).find? fun c => c.name = name) = none := by
      rw [List.find?_eq_none]
      intro c hc hmatch
      have hmatch : c.name = name := by simpa using hmatch
      exact hname (hnames ▸ hmatch ▸ List.mem_map_of_mem hc)
    rw [Registry.get, Registry.find?, hfind]

/-- A builder is told of contracts in any order and with names repeated in any way.  At an endpoint
that answers each call on its own, it builds a registry of the last definition of each name, in
that order, whatever the settings of the engine.  The first of them that has no address, neither of
its own nor in the store, fails the build by its name.  If there is none, each makes a contract.
The store is asked for names of definitions without an address of their own, and for no others. -/
theorem build_pairs {g : Engine w} {block : BlockTag} {W : w → Prop}
    (answers : g.endpoint.AnswersIn .flexible block W f) {storage : Address}
    {additions : List Builder.Addition} {b : Builder}
    (added : additions.foldlM Builder.perform (Builder.empty storage) = .ok b) {world : w}
    (hworld : W world) (now : Nat) :
    ∃ ds result world' now',
      List.Forall₂ Builder.Addition.Defines additions ds ∧
      b.definitions = lastOfEachName ds ∧
      (∀ name, name ∈ b.definitions.map Definition.name ↔ name ∈ ds.map Definition.name) ∧
      (b.definitions.map Definition.name).Nodup ∧
      b.build g block (world, now) = (result, world', now') ∧
      g.endpoint.Leads (Builder.Asked f storage b.definitions) world world' ∧
      (∀ d, firstWithoutAddress f storage b.definitions = some d →
        result = .error (.unknownContract d.name)) ∧
      (firstWithoutAddress f storage b.definitions = none →
        ∃ r, result = .ok r ∧ Pairs f storage b.definitions r) := by
  have hempty : (Builder.empty storage).definitions = lastOfEachName [] := rfl
  obtain ⟨hstorage, ds, hds, hkept⟩ := Builder.definitions_of_foldlM hempty added
  rw [List.nil_append] at hkept
  obtain rfl : b.storage = storage := hstorage
  have nodup : (b.definitions.map Definition.name).Nodup :=
    hkept ▸ nodup_names_lastOfEachName ds
  obtain ⟨world', now', hleads, hbuild⟩ := Builder.build_each answers b hworld now
  refine ⟨ds, _, world', now', hds, hkept, ?_, nodup, hbuild, hleads, ?_, ?_⟩
  · intro name
    rw [hkept]
    exact mem_names_lastOfEachName
  · intro d hd
    rw [hd]
  · intro hnone
    refine ⟨_, ?_, pairs_of_addresses nodup hnone⟩
    rw [hnone]

namespace TwoContracts

def store : Address := .ofNat 20 9

def found : Address := .ofNat 20 1

def given : Address := .ofNat 20 2

/-- The store knows one contract, which knows its version. -/
def chain : Chain where
  memory := (({} : Memory).respond (lookupOf store ContractName.networkPrices)
    (.success (AbiValue.encodeParams [.address found]))).respond (versionOf found)
      (.success (AbiValue.encodeParams [.uint 4 8]))
  store := { head := 0, logs := [] }

def engine : Engine Chain where
  endpoint := Chain.endpoint
  config := { concurrentCallLimit := 2, addressBatchSize := 1, contractVersionBatchSize := 1 }
  check_config := rfl

/-- The first one is replaced by the last one. -/
def additions : List Builder.Addition :=
  [.contract ContractName.networkPrices "[]", .contractAt "custom" given "[]",
    .bundled ContractName.networkPrices]

def builder : Builder where
  storage := store
  definitions := [⟨"custom", ⟨[], []⟩, some given⟩,
    ⟨ContractName.networkPrices, .networkPrices, none⟩]

theorem ofText_nothing : Interface.ofText "[]" = .ok ⟨[], []⟩ := by cbv

theorem added : additions.foldlM Builder.perform (Builder.empty store) = .ok builder := by
  simp only [additions, List.foldlM_cons, Builder.perform, ofText_nothing]
  rfl

theorem outcome_chain (call : EncodedCall) : chain.memory.outcome call =
    if versionOf found = call then .success (AbiValue.encodeParams [.uint 4 8])
    else if lookupOf store ContractName.networkPrices = call then
      .success (AbiValue.encodeParams [.address found])
    else .failure := by
  simp only [chain, Memory.outcome_respond]
  rfl

/-- A call to another contract is another call. -/
theorem ne_of_target {c c' : EncodedCall} (h : c.target ≠ c'.target) : c ≠ c' :=
  fun hc => h (congrArg EncodedCall.target hc)

theorem storedAddress_prices :
    storedAddress chain.memory.outcome store ContractName.networkPrices = some found := by
  have houtcome : chain.memory.outcome (lookupOf store ContractName.networkPrices) =
      .success (AbiValue.encodeParams [.address found]) := by
    rw [outcome_chain, if_neg (ne_of_target (by decide)), if_pos rfl]
  rw [storedAddress, houtcome]
  rfl

theorem versionAt_found : versionAt chain.memory.outcome found = 4 := by
  rw [versionAt, outcome_chain, if_pos rfl]
  rfl

theorem versionAt_given : versionAt chain.memory.outcome given = 1 := by
  rw [versionAt, outcome_chain, if_neg (ne_of_target (by decide)),
    if_neg (ne_of_target (by decide))]
  rfl

theorem answers : engine.endpoint.AnswersIn .flexible .latest chain.Agrees chain.memory.outcome :=
  Chain.answersIn_endpoint rfl rfl .latest

theorem addressIn_custom : Definition.addressIn chain.memory.outcome store
    ⟨"custom", ⟨[], []⟩, some given⟩ = some given := by
  rw [Definition.addressIn, Option.some_or]

theorem addressIn_prices : Definition.addressIn chain.memory.outcome store
    ⟨ContractName.networkPrices, .networkPrices, none⟩ = some found := by
  rw [Definition.addressIn, Option.none_or, storedAddress_prices]

theorem firstWithoutAddress_none :
    firstWithoutAddress chain.memory.outcome store builder.definitions = none := by
  simp [firstWithoutAddress, builder, addressIn_custom, addressIn_prices]

/-- A contract with a given address and one whose address is looked up. -/
theorem build_pairs_two : additions.foldlM Builder.perform (Builder.empty store) = .ok builder ∧
    ∃ r world now, builder.build engine .latest (chain, 0) = (.ok r, world, now) ∧
      r.get "custom" = .ok ⟨"custom", given, ⟨[], []⟩, 1⟩ ∧
      r.get ContractName.networkPrices =
        .ok ⟨ContractName.networkPrices, found, .networkPrices, 4⟩ := by
  obtain ⟨-, result, world, now, -, -, -, -, hbuild, -, -, hok⟩ :=
    build_pairs answers added (Chain.Agrees.refl chain) 0
  obtain ⟨r, rfl, pairs⟩ := hok firstWithoutAddress_none
  refine ⟨added, r, world, now, hbuild, ?_, ?_⟩
  · obtain ⟨c, makes, hget⟩ := pairs.get ⟨"custom", ⟨[], []⟩, some given⟩ List.mem_cons_self
    rw [hget, makes.eq_of_address addressIn_custom, versionAt_given]
  · obtain ⟨c, makes, hget⟩ := pairs.get ⟨ContractName.networkPrices, .networkPrices, none⟩
      (List.mem_cons_of_mem _ List.mem_cons_self)
    rw [hget, makes.eq_of_address addressIn_prices, versionAt_found]

end TwoContracts

end ContractReads.Registry
