import ContractReads.Bytes
import ContractReads.Text.Quoted

/-!
# Hexadecimal text

`Hex.encode` writes two lower-case digits per byte.  `Hex.decode` reads digits of either case,
given as the bytes of a text, and says what is wrong with the first text that it refuses: an odd
number of digits first, then the first byte that is no digit.
-/

namespace ContractReads.Hex

def digit (n : Nat) : Char := Nat.digitChar n

def byteDigits (b : UInt8) : List Char := [digit (b.toNat / 16), digit (b.toNat % 16)]

/-- Two digits per byte. -/
def encode (bs : Bytes) : String := String.ofList (bs.flatMap byteDigits)

/-- Two digits per byte behind `0x`. -/
def encode0x (bs : Bytes) : String := "0x" ++ encode bs

/-- The value of a digit of either case, given as a byte of text. -/
def digitValue? (b : UInt8) : Option Nat :=
  let n := b.toNat
  if 48 ≤ n ∧ n ≤ 57 then some (n - 48)
  else if 97 ≤ n ∧ n ≤ 102 then some (n - 87)
  else if 65 ≤ n ∧ n ≤ 70 then some (n - 55)
  else none

/-- Why a text is no hexadecimal byte string. -/
inductive Error
  /-- The digits do not pair up. -/
  | oddLength
  /-- There are not as many digits as the width asks for. -/
  | wrongLength
  /-- A byte that is no digit, and where it stands. -/
  | badCharacter (byte : UInt8) (position : Nat)
deriving DecidableEq, Repr

/-- The text of a refusal, as a part of a sentence. -/
def Error.message : Error → String
  | .oddLength => "odd number of digits"
  | .wrongLength => "invalid string length"
  | .badCharacter b i =>
    "invalid character " ++ Text.quotedChar (Char.ofNat b.toNat) ++ " at position " ++ toString i

/-- The text of a refusal, as a sentence of its own. -/
def Error.sentence (e : Error) : String := e.message.capitalize

/-- The digits of `text` two by two; `position` is that of the first. -/
def decodePairs : (position : Nat) → (text : Bytes) → Except Error Bytes
  | _, [] => .ok []
  | _, [_] => .error .oddLength
  | i, a :: b :: rest =>
    match digitValue? a, digitValue? b with
    | none, _ => .error (.badCharacter a i)
    | some _, none => .error (.badCharacter b (i + 1))
    | some x, some y => (decodePairs (i + 2) rest).map (UInt8.ofNat (16 * x + y) :: ·)

/-- The bytes that a text spells. -/
def decode (text : Bytes) : Except Error Bytes :=
  if text.length % 2 = 1 then .error .oddLength else decodePairs 0 text

/-- Exactly `n` bytes. -/
def decodeFixed (n : Nat) (text : Bytes) : Except Error (FixedBytes n) :=
  if text.length % 2 = 1 then .error .oddLength
  else if text.length ≠ 2 * n then .error .wrongLength
  else (decodePairs 0 text).bind fun bs =>
    match FixedBytes.ofBytes? n bs with
    | some b => .ok b
    | none => .error .wrongLength

def textBytes (s : String) : Bytes := s.toUTF8.toList

def dropPrefix0x : Bytes → Bytes
  | 48 :: 120 :: rest => rest
  | bs => bs

/-- Drops one leading `0x` or `0X`. -/
def dropPrefixAnyCase : Bytes → Bytes
  | 48 :: 120 :: rest => rest
  | 48 :: 88 :: rest => rest
  | bs => bs

/-- A byte string of width `n`, its prefix `0x` or `0X` optional. -/
def fixed? (n : Nat) (s : String) : Except Error (FixedBytes n) :=
  decodeFixed n (dropPrefixAnyCase (textBytes s))

/-- A byte string of any length, its prefix `0x` optional. -/
def payload? (s : String) : Except Error Bytes :=
  decode (dropPrefix0x (textBytes s))

end ContractReads.Hex

namespace ContractReads.FixedBytes

/-- Two lower-case digits per byte behind `0x`. -/
def hex {n : Nat} (b : FixedBytes n) : String := Hex.encode0x b.toBytes

end ContractReads.FixedBytes
