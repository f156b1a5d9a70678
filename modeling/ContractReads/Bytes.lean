/-!
# Byte strings and fixed-width byte strings

`Bytes` is a list of bytes, most significant byte first where it stands for a number.
`FixedBytes n` is a byte string of exactly `n` bytes.  Addresses, words and function
pointers are the three widths that contracts use.
-/

namespace ContractReads

/-- A byte string. -/
abbrev Bytes := List UInt8

namespace Bytes

/-- The number that a byte string spells, most significant byte first. -/
def toNat (bs : Bytes) : Nat :=
  bs.foldl (fun n b => n * 256 + b.toNat) 0

/-- The last `width` bytes of `n`, most significant byte first. -/
def ofNat : (width n : Nat) → Bytes
  | 0, _ => []
  | width + 1, n => ofNat width (n / 256) ++ [UInt8.ofNat (n % 256)]

@[simp] theorem length_ofNat (width n : Nat) : (ofNat width n).length = width := by
  induction width generalizing n with
  | zero => rfl
  | succ w ih => simp [ofNat, ih]

def zeros (n : Nat) : Bytes := List.replicate n 0

end Bytes

/-- A byte string of exactly `n` bytes. -/
structure FixedBytes (n : Nat) where
  toBytes : Bytes
  length_toBytes : toBytes.length = n

namespace FixedBytes

variable {n : Nat}

@[ext] theorem ext {a b : FixedBytes n} (h : a.toBytes = b.toBytes) : a = b := by
  cases a; cases b; cases h; rfl

instance : DecidableEq (FixedBytes n) := fun a b =>
  if h : a.toBytes = b.toBytes then isTrue (ext h) else isFalse fun e => h (e ▸ rfl)

def zero (n : Nat) : FixedBytes n := ⟨Bytes.zeros n, by simp [Bytes.zeros]⟩

instance : Inhabited (FixedBytes n) := ⟨zero n⟩

/-- The same bytes, if there are exactly `n` of them. -/
def ofBytes? (n : Nat) (bs : Bytes) : Option (FixedBytes n) :=
  if h : bs.length = n then some ⟨bs, h⟩ else none

def ofNat (n value : Nat) : FixedBytes n := ⟨Bytes.ofNat n value, Bytes.length_ofNat n value⟩

def toNat (b : FixedBytes n) : Nat := b.toBytes.toNat

def isZero (b : FixedBytes n) : Bool := b == zero n

/-- The first `n` of at least `n` bytes; missing bytes are zero. -/
def ofFront (n : Nat) (bs : Bytes) : FixedBytes n :=
  ⟨(bs ++ Bytes.zeros n).take n, by simp [Bytes.zeros]⟩

/-- The last `n` of at least `n` bytes; missing bytes are zero. -/
def ofBack (n : Nat) (bs : Bytes) : FixedBytes n :=
  ⟨(Bytes.zeros n ++ bs).drop bs.length, by simp [Bytes.zeros]⟩

end FixedBytes

/-- The address of a contract or an account. -/
abbrev Address := FixedBytes 20

/-- One machine word: a topic, a hash, a storage key. -/
abbrev Word := FixedBytes 32

/-- An address followed by a selector. -/
abbrev FunctionPointer := FixedBytes 24

namespace Word

/-- The unsigned number that a word holds. -/
def toBitVec (w : Word) : BitVec 256 := BitVec.ofNat 256 w.toNat

end Word

/-- The word that holds an address: twelve zero bytes, then the address. -/
def Address.toWord (a : Address) : Word :=
  ⟨Bytes.zeros 12 ++ a.toBytes, by simp [Bytes.zeros, a.length_toBytes]⟩

end ContractReads
