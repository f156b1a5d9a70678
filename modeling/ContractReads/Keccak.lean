import ContractReads.Bytes

/-!
# Keccak-256

The hash behind selectors, event topics, storage keys and address checksums.  The state is
twenty-five lanes of 64 bits; lane `(x, y)` stands at index `5 * y + x`.  A message is padded
with `1`, zeros and a final `1` bit to a multiple of 136 bytes and absorbed block by block.
-/

namespace ContractReads.Keccak

/-- Twenty-five lanes. -/
abbrev State := List UInt64

/-- The lane at a place; zero where there is none. -/
def lane : State → (i : Nat) → UInt64
  | [], _ => 0
  | v :: _, 0 => v
  | _ :: a, i + 1 => lane a i

/-- A state from its lanes. -/
def tabulate (f : Nat → UInt64) : State := (List.range 25).map f

/-- Rotates a lane to the left by fewer than 64 bits. -/
def rotateLeft (v : UInt64) (n : Nat) : UInt64 :=
  if n = 0 then v else (v <<< UInt64.ofNat n) ||| (v >>> UInt64.ofNat (64 - n))

/-- Every lane takes in the parities of its two neighbouring columns. -/
def theta (a : State) : State :=
  let parity : State := (List.range 5).map fun x =>
    lane a x ^^^ lane a (x + 5) ^^^ lane a (x + 10) ^^^ lane a (x + 15) ^^^ lane a (x + 20)
  let d : State := (List.range 5).map fun x =>
    lane parity ((x + 4) % 5) ^^^ rotateLeft (lane parity ((x + 1) % 5)) 1
  tabulate fun i => lane a i ^^^ lane d (i % 5)

/-- How far each lane turns. -/
def rotations : Array Nat :=
  #[0, 1, 62, 28, 27, 36, 44, 6, 55, 20, 3, 10, 43, 25, 39, 41, 45, 15, 21, 8, 18, 2, 61, 56, 14]

/-- The lanes turn, and lane `(x, y)` moves to `(y, 2x + 3y)`. -/
def rhoPi (a : State) : State :=
  tabulate fun i =>
    let x := i % 5
    let y := i / 5
    let j := 5 * x + (x + 3 * y) % 5
    rotateLeft (lane a j) (rotations.getD j 0)

/-- Every lane takes in its two right neighbours in its row. -/
def chi (a : State) : State :=
  tabulate fun i =>
    let row := i / 5 * 5
    let x := i % 5
    lane a i ^^^ (~~~ lane a (row + (x + 1) % 5) &&& lane a (row + (x + 2) % 5))

/-- The constants of the twenty-four rounds. -/
def roundConstants : List UInt64 :=
  [0x0000000000000001, 0x0000000000008082, 0x800000000000808A, 0x8000000080008000,
   0x000000000000808B, 0x0000000080000001, 0x8000000080008081, 0x8000000000008009,
   0x000000000000008A, 0x0000000000000088, 0x0000000080008009, 0x000000008000000A,
   0x000000008000808B, 0x800000000000008B, 0x8000000000008089, 0x8000000000008003,
   0x8000000000008002, 0x8000000000000080, 0x000000000000800A, 0x800000008000000A,
   0x8000000080008081, 0x8000000000008080, 0x0000000080000001, 0x8000000080008008]

def round (a : State) (constant : UInt64) : State :=
  let b := chi (rhoPi (theta a))
  b.set 0 (lane b 0 ^^^ constant)

def permute (a : State) : State := roundConstants.foldl round a

/-- Bytes absorbed at a time. -/
def rate : Nat := 136

/-- The message with its padding; the result has a multiple of 136 bytes. -/
def pad (message : Bytes) : Bytes :=
  let missing := rate - message.length % rate
  if missing = 1 then message ++ [0x81]
  else message ++ [0x01] ++ Bytes.zeros (missing - 2) ++ [0x80]

/-- Eight bytes as a lane, least significant byte first. -/
def laneOfBytes (bs : Bytes) : UInt64 :=
  bs.foldr (fun b v => v <<< 8 ||| b.toUInt64) 0

/-- The lanes of a block. -/
def blockLanes : (count : Nat) → Bytes → List UInt64
  | 0, _ => []
  | n + 1, bs => laneOfBytes (bs.take 8) :: blockLanes n (bs.drop 8)

/-- Takes one block into the state. -/
def absorbBlock (a : State) (block : Bytes) : State :=
  let lanes := blockLanes (rate / 8) block
  permute (tabulate fun i => lane a i ^^^ lane lanes i)

/-- Takes `count` blocks into the state. -/
def absorb : (count : Nat) → State → Bytes → State
  | 0, a, _ => a
  | n + 1, a, bs => absorb n (absorbBlock a (bs.take rate)) (bs.drop rate)

/-- The eight bytes of a lane, least significant byte first. -/
def bytesOfLane (v : UInt64) : Bytes :=
  (List.range 8).map fun i => (v >>> UInt64.ofNat (8 * i)).toUInt8

def hash (message : Bytes) : Word :=
  let padded := pad message
  let a := absorb (padded.length / rate) (tabulate fun _ => 0) padded
  FixedBytes.ofFront 32 ((List.range 4).flatMap fun i => bytesOfLane (lane a i))

end ContractReads.Keccak

namespace ContractReads

def keccakText (s : String) : Word := Keccak.hash s.toUTF8.toList

end ContractReads
