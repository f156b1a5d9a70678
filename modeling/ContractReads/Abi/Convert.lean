import ContractReads.Error

/-!
# Reading values as Lean types

`FromAbi.fromAbi` takes a decoded value for a number, an address, a list and so on, or says what
it expected instead.  A list may come from an array of either kind, a pair from a tuple of two.
-/

namespace ContractReads

/-- Types that a decoded value can be read as. -/
class FromAbi (α : Type) where
  fromAbi : AbiValue → Except EncodingError α

export FromAbi (fromAbi)

namespace FromAbi

/-- A number below `bound`, the range of a kind. -/
def bounded (kind : String) (bound : Nat) (v : AbiValue) : Except EncodingError Nat :=
  match v with
  | .uint n _ => if n.toNat < bound then .ok n.toNat else .error (.tooLarge n.toNat kind)
  | v => .error (.expected "uint" v)

/-- All elements, up to the first that cannot be read. -/
def each {α : Type} [FromAbi α] : List AbiValue → Except EncodingError (List α)
  | [] => .ok []
  | v :: vs => do
    let a ← fromAbi v
    let as ← each vs
    return a :: as

instance : FromAbi AbiValue := ⟨.ok⟩

instance : FromAbi Bool where
  fromAbi
    | .bool b => .ok b
    | v => .error (.expected "bool" v)

instance : FromAbi (BitVec 256) where
  fromAbi
    | .uint n _ => .ok n
    | v => .error (.expected "uint" v)

instance : FromAbi UInt8 := ⟨fun v => (bounded "u8" UInt8.size v).map UInt8.ofNat⟩

instance : FromAbi UInt32 := ⟨fun v => (bounded "u32" UInt32.size v).map UInt32.ofNat⟩

instance : FromAbi UInt64 := ⟨fun v => (bounded "u64" UInt64.size v).map UInt64.ofNat⟩

instance : FromAbi (BitVec 128) := ⟨fun v => (bounded "u128" (1 <<< 128) v).map (BitVec.ofNat 128)⟩

instance : FromAbi Address where
  fromAbi
    | .address a => .ok a
    | v => .error (.expected "address" v)

instance : FromAbi String where
  fromAbi
    | .string s => .ok s
    | v => .error (.expected "string" v)

instance : FromAbi Word where
  fromAbi
    | .fixedBytes w 32 => .ok w
    | v => .error (.expected "bytes32" v)

instance {α : Type} [FromAbi α] : FromAbi (List α) where
  fromAbi
    | .array vs => each vs
    | .fixedArray vs => each vs
    | v => .error (.expected "array" v)

instance {α β : Type} [FromAbi α] [FromAbi β] : FromAbi (α × β) where
  fromAbi
    | .tuple [a, b] => do return (← fromAbi a, ← fromAbi b)
    | v => .error (.expected "(T, U)" v)

/-- A list of bytes is a byte string, and no array. -/
instance : FromAbi Bytes where
  fromAbi
    | .bytes bs => .ok bs
    | v => .error (.expected "bytes" v)

end FromAbi

end ContractReads
