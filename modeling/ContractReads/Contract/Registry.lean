import ContractReads.Contract.Storage

/-!
# Registries

A registry holds contracts by name.  It is built from definitions, a name and an interface each,
with or without an address: addresses that are missing are looked up in the central store, then
the version of every contract is read.  The last definition of a name counts.
-/

namespace ContractReads

/-! ## The names of the contracts whose interfaces are known -/

namespace ContractName

def storage : String := "rocketStorage"
def trustedDao : String := "rocketDAONodeTrusted"
def trustedDaoActions : String := "rocketDAONodeTrustedActions"
def trustedDaoProposals : String := "rocketDAONodeTrustedProposals"
def memberSettings : String := "rocketDAONodeTrustedSettingsMembers"
def networkSettings : String := "rocketDAOProtocolSettingsNetwork"
def networkPrices : String := "rocketNetworkPrices"
def networkBalances : String := "rocketNetworkBalances"

/-- The names with a known interface, the store left out. -/
def known : List String :=
  [trustedDao, trustedDaoActions, trustedDaoProposals, memberSettings, networkSettings,
    networkPrices, networkBalances]

/-- The known interface of a name. -/
def interface? (name : String) : Option Interface :=
  if name = storage then some .storage
  else if name = trustedDao then some .trustedDao
  else if name = trustedDaoActions then some .trustedDaoActions
  else if name = trustedDaoProposals then some .trustedDaoProposals
  else if name = memberSettings then some .memberSettings
  else if name = networkSettings then some .networkSettings
  else if name = networkPrices then some .networkPrices
  else if name = networkBalances then some .networkBalances
  else none

end ContractName

/-- Contracts by name. -/
structure Registry where
  storage : Storage
  contracts : List Contract

namespace Registry

/-- The contract of a name, if there is one. -/
def find? (r : Registry) (name : String) : Option Contract :=
  r.contracts.find? fun c => c.name = name

def get (r : Registry) (name : String) : Except QueryError Contract :=
  match r.find? name with
  | some c => .ok c
  | none => .error (.unknownContract name)

def contains (r : Registry) (name : String) : Bool := (r.find? name).isSome

def size (r : Registry) : Nat := r.contracts.length

/-- What a contract is defined by; its address is looked up if it is not given. -/
structure Definition where
  name : String
  interface : Interface
  address : Option Address

/-- Definitions of contracts, and the address of the store. -/
structure Builder where
  storage : Address
  definitions : List Definition

namespace Builder

def empty (storage : Address) : Builder := ⟨storage, []⟩

/-- Adds a definition, in place of an earlier one of the same name. -/
def define (b : Builder) (d : Definition) : Builder :=
  { b with definitions := b.definitions.filter (fun e => e.name ≠ d.name) ++ [d] }

/-- Adds a contract whose address is looked up. -/
def contract (b : Builder) (name : String) (interface : Interface) : Builder :=
  b.define ⟨name, interface, none⟩

def contractAt (b : Builder) (name : String) (address : Address) (interface : Interface) :
    Builder :=
  b.define ⟨name, interface, some address⟩

/-- Adds a contract with a known interface, whose address is looked up. -/
def bundled (b : Builder) (name : String) : Except QueryError Builder :=
  match ContractName.interface? name with
  | some i => .ok (b.contract name i)
  | none => .error (.unknownContract name)

/-- Adds every contract with a known interface, the store left out. -/
def withKnown (b : Builder) : Except QueryError Builder := ContractName.known.foldlM bundled b

variable {w : Type}

/-- Whether an address may be used: one that was found and is not zero. -/
def checkAddress (name : String) (success : Bool) (found : Option Address) :
    Except QueryError Unit :=
  if !success || (found.getD (.zero 20)).isZero then .error (.unknownContract name) else .ok ()

/-- Looks up the addresses of names in the store. -/
def lookUp (g : Engine w) (storage : Storage) (names : List String) (block : BlockTag) :
    QueryM (w × Nat) (Slots Address) := do
  if names.isEmpty then return Slots.empty 0
  else
    let register (i : Nat) (b : Batch Address) : Except Scheduler.Fault (Batch Address) :=
      (storage.addContractAddress i fromAbi (names.getD i "") b).mapError .error
    let handle (success : Bool) (i : Nat) : QueryM (Scene w Address) Unit := fun s =>
      (checkAddress (names.getD i "") success (s.slots.get? i), s)
    let ((), slots) ← (g.flexBatchQuery names.length g.config.addressBatchSize register handle
      block).withSlots (Slots.empty names.length)
    return slots

/-- Gives every definition its own address, or the next one that was looked up. -/
def fill : List Definition → (found : List (Option Address)) → Except QueryError (List Address)
  | [], _ => .ok []
  | d :: ds, found =>
    match d.address, found with
    | some a, found => (fill ds found).map (a :: ·)
    | none, a :: found => (fill ds found).map (a.getD (.zero 20) :: ·)
    | none, [] => .error (.invalidConfig .addressesOutOfStep)

/-- The address of every definition. -/
def resolveAddresses (b : Builder) (g : Engine w) (block : BlockTag) :
    QueryM (w × Nat) (List Address) := do
  let pending := b.definitions.filter fun d => d.address.isNone
  let slots ← lookUp g (.ofAddress b.storage) (pending.map Definition.name) block
  .ofExcept (fill b.definitions slots.cells)

/-- What asks a contract for its version. -/
def versionSelector : Bytes := selectorOf "version()"

/-- The version that returned bytes hold. -/
def decodeVersion (data : Bytes) : Except EncodingError UInt8 := do
  match ← decodeData [.uint 8] data with
  | v :: _ => fromAbi v
  | [] => .error (.reason "empty version")

/-- The version of the contract at each address; one that cannot be read is 1. -/
def readVersions (g : Engine w) (targets : List Address) (block : BlockTag) :
    QueryM (w × Nat) (List UInt8) := do
  let register (i : Nat) (b : Batch UInt8) : Except Scheduler.Fault (Batch UInt8) :=
    (b.add ⟨targets.getD i (.zero 20), versionSelector, i, fun data =>
      Contract.asQueryError (decodeVersion data)⟩).mapError .error
  let ((), slots) ← (g.flexBatchQuery targets.length g.config.contractVersionBatchSize register
    (fun _ _ => return ()) block).withSlots (Slots.empty targets.length)
  return slots.cells.map fun v => v.getD 1

/-- The contracts of definitions, their addresses and versions. -/
def contractsOf : List Definition → List Address → List UInt8 → List Contract
  | d :: ds, a :: as, v :: vs => ⟨d.name, a, d.interface, v⟩ :: contractsOf ds as vs
  | _, _, _ => []

/-- Looks up the missing addresses, then reads the versions. -/
def build (b : Builder) (g : Engine w) (block : BlockTag) : QueryM (w × Nat) Registry := do
  let addresses ← b.resolveAddresses g block
  let versions ← readVersions g addresses block
  return ⟨.ofAddress b.storage, contractsOf b.definitions addresses versions⟩

end Builder

end Registry

end ContractReads
