import ContractReads.Abi.Value
import ContractReads.Text.Utf8

/-!
# Decoding values

A `Cursor` reads a buffer word by word.  Offsets count from the start of the buffer; what they
point at is read by a child cursor, whose buffer starts there.  Children nest at most sixteen
deep.  Decoding is lenient: padding, the upper bytes of offsets and lengths, and whatever follows
the values are not looked at.

Elements without words, such as empty tuples, can be counted without limit.  Data may count no more
of them than there is room for, and what is made for the types themselves needs room, too.
-/

namespace ContractReads.Abi

/-- Why data holds no value of a type. -/
inductive DecodeError
  /-- The data ends too early. -/
  | overrun
  /-- Offsets lead too deep. -/
  | tooDeep
  /-- There are more elements than there is room for. -/
  | tooLong
deriving DecidableEq, Repr

def DecodeError.message : DecodeError → String
  | .overrun => "the data ends too early"
  | .tooDeep => "offsets lead too deep"
  | .tooLong => "there are too many elements"

/-- A place in a buffer. -/
structure Cursor where
  /-- What offsets count from. -/
  buffer : Bytes
  /-- What is read next. -/
  rest : Bytes
  depth : Nat

namespace Cursor

def maxDepth : Nat := 16

def start (data : Bytes) : Cursor := ⟨data, data, 0⟩

def word (c : Cursor) : Except DecodeError (Word × Cursor) :=
  match FixedBytes.ofBytes? 32 (c.rest.take 32) with
  | some w => .ok (w, { c with rest := c.rest.drop 32 })
  | none => .error .overrun

/-- The next word as an offset or a length: its last eight bytes. -/
def size (c : Cursor) : Except DecodeError (Nat × Cursor) := do
  let (w, c) ← c.word
  return (Bytes.toNat (w.toBytes.drop 24), c)

/-- A child whose buffer is `data`. -/
def childOf (c : Cursor) (data : Bytes) : Except DecodeError Cursor :=
  if c.depth < maxDepth then .ok ⟨data, data, c.depth + 1⟩ else .error .tooDeep

/-- A child at the place that the next word points to, and the cursor behind that word. -/
def follow (c : Cursor) : Except DecodeError (Cursor × Cursor) := do
  let (offset, c) ← c.size
  if c.buffer.length < offset then .error .overrun
  else return (← c.childOf (c.buffer.drop offset), c)

/-- A child at the cursor itself. -/
def here (c : Cursor) : Except DecodeError Cursor := c.childOf c.rest

def take (c : Cursor) (n : Nat) : Except DecodeError Bytes :=
  if c.rest.length < n then .error .overrun else .ok (c.rest.take n)

/-- A counted byte string behind an offset. -/
def counted (c : Cursor) : Except DecodeError (Bytes × Cursor) := do
  let (child, c) ← c.follow
  let (n, child) ← child.size
  return (← child.take n, c)

/-- Reads `n` times; `before` are the values read so far, the last first. -/
def repeatedFrom (read : Cursor → Except DecodeError (AbiValue × Cursor)) :
    (n : Nat) → (before : List AbiValue) → Cursor → Except DecodeError (List AbiValue × Cursor)
  | 0, before, c => .ok (before.reverse, c)
  | n + 1, before, c =>
    match read c with
    | .ok (v, c) => repeatedFrom read n (v :: before) c
    | .error e => .error e

/-- Reads `n` times. -/
def repeated (read : Cursor → Except DecodeError (AbiValue × Cursor)) (n : Nat) (c : Cursor) :
    Except DecodeError (List AbiValue × Cursor) :=
  repeatedFrom read n [] c

/-- Reads a composite value, behind an offset if it is dynamic. -/
def within {α : Type} (dynamic : Bool)
    (read : Cursor → Except DecodeError (α × Cursor)) (c : Cursor) :
    Except DecodeError (α × Cursor) := do
  if dynamic then
    let (child, c) ← c.follow
    let (a, _) ← read child
    return (a, c)
  else
    let child ← c.here
    let (a, child) ← read child
    return (a, { c with rest := child.rest })

def wordValue (make : Word → AbiValue) (c : Cursor) : Except DecodeError (AbiValue × Cursor) := do
  let (w, c) ← c.word
  return (make w, c)

variable (room : Nat)

mutual

/-- The next value of a type, where there is room for so many values. -/
def value : AbiType → Cursor → Except DecodeError (AbiValue × Cursor)
  | .bool, c => c.wordValue fun w => .bool !w.isZero
  | .uint bits, c => c.wordValue fun w => .uint w.toBitVec bits
  | .int bits, c => c.wordValue fun w => .int w.toBitVec bits
  | .fixedBytes size, c => c.wordValue fun w => .fixedBytes w size
  | .address, c => c.wordValue fun w => .address (.ofBack 20 w.toBytes)
  | .function, c => c.wordValue fun w => .function (.ofFront 24 w.toBytes)
  | .bytes, c => do
    let (bs, c) ← c.counted
    return (.bytes bs, c)
  | .string, c => do
    let (bs, c) ← c.counted
    return (.string (Utf8.decodeLossy bs), c)
  | .array t, c => do
    let (child, c) ← c.follow
    let (n, child) ← child.size
    if n = 0 then return (.array [], c)
    else
      let elements ← child.here
      if elements.rest.length / 32 < n * t.minWords then .error .overrun
      else if t.minWords = 0 ∧ room < n * t.places then .error .tooLong
      else
        let (vs, _) ← repeated (value t) n elements
        return (.array vs, c)
  | .fixedArray t n, c => do
    let (vs, c) ← c.within t.isDynamic (repeated (value t) n)
    return (.fixedArray vs, c)
  | .tuple ts, c => do
    let (vs, c) ← c.within (AbiType.anyDynamic ts) (values ts)
    return (.tuple vs, c)

def values : List AbiType → Cursor → Except DecodeError (List AbiValue × Cursor)
  | [], c => .ok ([], c)
  | t :: ts, c => do
    let (v, c) ← value t c
    let (vs, c) ← values ts c
    return (v :: vs, c)

end

end Cursor

/-- The values of a parameter list, where there is room for so many.  Types that take no room have
no values. -/
def decodeWithin (room : Nat) (types : List AbiType) (data : Bytes) :
    Except DecodeError (List AbiValue) :=
  if AbiType.allEmpty types then .ok []
  else if data.length / 32 < AbiType.minWordsAll types then .error .overrun
  else if room < AbiType.placesAll types then .error .tooLong
  else (Cursor.values room types (Cursor.start data)).map Prod.fst

/-- How many values there is room for. -/
def maxPlaces : Nat := 1 <<< 24

/-- The values of a parameter list. -/
def decodeParams : List AbiType → Bytes → Except DecodeError (List AbiValue) :=
  decodeWithin maxPlaces

end ContractReads.Abi
