import ContractReads.Contract.Registry

/-!
# Settings of the DAO

A setting has a path inside a contract of settings.  It is read there; a change is proposed to
the DAO, or made directly while the DAO is being set up.  Changes are transactions that nothing
here sends.
-/

namespace ContractReads

/-- What settings hold. -/
inductive SettingKind
  | flag
  | number
deriving DecidableEq, Repr

/-- How a kind is named in methods. -/
def SettingKind.suffix : SettingKind → String
  | flag => "Bool"
  | number => "Uint"

/-- The value of a setting. -/
inductive SettingValue
  | flag (value : Bool)
  | number (value : BitVec 256)
  /-- A number that is known to need no more than 64 bits. -/
  | small (value : UInt64)
deriving DecidableEq

namespace SettingValue

def kind : SettingValue → SettingKind
  | flag _ => .flag
  | number _ | small _ => .number

def toAbi : SettingValue → AbiValue
  | flag b => .bool b
  | number n => .uint n 256
  | small n => .ofUInt64 n

end SettingValue

/-- A setting, and the contracts that can change it. -/
structure Setting where
  settings : Contract
  dao : Contract
  proposals : Contract
  path : String

namespace Setting

/-- A setting of a contract, managed by the DAO. -/
def ofRegistry (r : Registry) (contract path : String) : Except QueryError Setting := do
  let settings ← r.get contract
  let dao ← r.get ContractName.trustedDao
  let proposals ← r.get ContractName.trustedDaoProposals
  return ⟨settings, dao, proposals, path⟩

/-- The name of the contract that the setting belongs to. -/
def contractName (s : Setting) : String := s.settings.name

/-- Registers a read of the current value. -/
def addRead {α : Type} (s : Setting) (kind : SettingKind) (slot : Nat)
    (read : AbiValue → Except EncodingError α) (b : Batch α) : Except QueryError (Batch α) :=
  s.settings.addCall slot read ("getSetting" ++ kind.suffix) [.string s.path] b

/-- The arguments of a change: contract, path and value. -/
def changeArgs (s : Setting) (v : SettingValue) : List AbiValue :=
  [.string s.contractName, .string s.path, v.toAbi]

/-- The message of a proposal; an empty one is replaced. -/
def proposalMessage (s : Setting) (message : String) : String :=
  if message = "" then "set " ++ s.path else message

/-- A proposal to change the setting. -/
def propose (s : Setting) (message : String) (v : SettingValue) :
    Except EncodingError Transaction := do
  let payload ← s.proposals.encodeCall ("proposalSetting" ++ v.kind.suffix) (s.changeArgs v)
  s.proposals.transaction "propose" [.string (s.proposalMessage message), .bytes payload]

/-- A change while the DAO is being set up. -/
def bootstrap (s : Setting) (v : SettingValue) : Except EncodingError Transaction :=
  s.dao.transaction ("bootstrapSetting" ++ v.kind.suffix) (s.changeArgs v)

def render (s : Setting) : String :=
  Text.fields "Setting" [("contract", Text.quoted s.contractName), ("path", Text.quoted s.path)]

end Setting

end ContractReads
