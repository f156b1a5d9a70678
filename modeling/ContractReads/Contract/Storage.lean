import ContractReads.Contract.Basic
import ContractReads.Contract.Known
import ContractReads.Engine.Basic

/-!
# The central store

One contract keeps the addresses of all others, and numbers and flags, under keys that are hashes.
-/

namespace ContractReads

/-- The contract that keeps addresses and numbers under keys. -/
structure Storage where
  contract : Contract

namespace Storage

/-- The key of the address of a contract. -/
def addressKey (name : String) : Word := keccakText ("contract.address" ++ name)

/-- The key of the block at which everything was deployed. -/
def deployBlockKey : Word := keccakText "deploy.block"

/-- The store at an address. -/
def ofAddress (a : Address) : Storage :=
  ⟨{ name := "rocketStorage", address := a, interface := .storage }⟩

def address (s : Storage) : Address := s.contract.address

variable {α w : Type}

/-- Registers a read of one key with a method of the store. -/
def addGet (s : Storage) (method : String) (slot : Nat)
    (read : AbiValue → Except EncodingError α) (key : Word) (b : Batch α) :
    Except QueryError (Batch α) :=
  s.contract.addCall slot read method [.ofWord key] b

def addGetAddress (s : Storage) (slot : Nat) (read : AbiValue → Except EncodingError α)
    (key : Word) (b : Batch α) : Except QueryError (Batch α) :=
  s.addGet "getAddress" slot read key b

def addGetUint (s : Storage) (slot : Nat) (read : AbiValue → Except EncodingError α)
    (key : Word) (b : Batch α) : Except QueryError (Batch α) :=
  s.addGet "getUint" slot read key b

def addGetBool (s : Storage) (slot : Nat) (read : AbiValue → Except EncodingError α)
    (key : Word) (b : Batch α) : Except QueryError (Batch α) :=
  s.addGet "getBool" slot read key b

/-- Registers a read of the address of a contract. -/
def addContractAddress (s : Storage) (slot : Nat) (read : AbiValue → Except EncodingError α)
    (name : String) (b : Batch α) : Except QueryError (Batch α) :=
  s.addGetAddress slot read (addressKey name) b

/-- The block at which everything was deployed. -/
def deployBlock (s : Storage) (g : Engine w) (block : BlockTag) : QueryM (w × Nat) UInt64 := do
  let ((), slots) ← (g.query (s.addGetUint 0 fromAbi deployBlockKey) block).withSlots
    (Slots.empty 1 : Slots (BitVec 256))
  let value := ((slots.get? 0).getD 0).toNat
  if value < UInt64.size then return UInt64.ofNat value
  else throw (.encoding (.deployBlockTooLarge value))

end Storage

end ContractReads
