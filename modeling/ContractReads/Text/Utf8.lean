import ContractReads.Bytes

/-!
# Text from bytes that may not be text

`Utf8.decodeLossy` reads a byte string as UTF-8 and writes one replacement character for every
maximal part that begins no character.  The reader takes one character, or one such part, at a
time; each takes at least one byte.
-/

namespace ContractReads.Utf8

def replacement : Char := '\uFFFD'

/-- What the bytes after a leading byte have to be: the range of the next one, and how many
more continuation bytes follow it. -/
structure Lead where
  low : Nat
  high : Nat
  more : Nat
  /-- The bits that the leading byte gives. -/
  bits : Nat

/-- The leading bytes of two, three and four byte characters. -/
def lead? (b : Nat) : Option Lead :=
  if 0xC2 ≤ b ∧ b ≤ 0xDF then some ⟨0x80, 0xBF, 0, b - 0xC0⟩
  else if b = 0xE0 then some ⟨0xA0, 0xBF, 1, 0⟩
  else if b = 0xED then some ⟨0x80, 0x9F, 1, b - 0xE0⟩
  else if 0xE1 ≤ b ∧ b ≤ 0xEF then some ⟨0x80, 0xBF, 1, b - 0xE0⟩
  else if b = 0xF0 then some ⟨0x90, 0xBF, 2, 0⟩
  else if 0xF1 ≤ b ∧ b ≤ 0xF3 then some ⟨0x80, 0xBF, 2, b - 0xF0⟩
  else if b = 0xF4 then some ⟨0x80, 0x8F, 2, 4⟩
  else none

/-- Reads continuation bytes into `acc`: the character, or the replacement where one is missing,
and the bytes that are left. -/
def continuation : (low high more acc : Nat) → Bytes → Char × Bytes
  | _, _, _, _, [] => (replacement, [])
  | low, high, more, acc, b :: rest =>
    if low ≤ b.toNat ∧ b.toNat ≤ high then
      match more with
      | 0 => (Char.ofNat (acc * 64 + b.toNat % 64), rest)
      | more + 1 => continuation 0x80 0xBF more (acc * 64 + b.toNat % 64) rest
    else (replacement, b :: rest)

/-- A sequence takes only bytes from the front. -/
theorem length_continuation_le (low high more acc : Nat) (bs : Bytes) :
    (continuation low high more acc bs).2.length ≤ bs.length := by
  fun_induction continuation low high more acc bs <;> simp_all
  omega

/-- One character and the bytes after it. -/
def next (b : UInt8) (rest : Bytes) : Char × Bytes :=
  if b.toNat < 0x80 then (Char.ofNat b.toNat, rest)
  else match lead? b.toNat with
    | some l => continuation l.low l.high l.more l.bits rest
    | none => (replacement, rest)

/-- A character takes at least its first byte. -/
theorem length_next_le (b : UInt8) (rest : Bytes) : (next b rest).2.length ≤ rest.length := by
  unfold next
  split
  · simp
  · split
    · exact length_continuation_le ..
    · simp

/-- The characters of a byte string. -/
def decodeLossyChars : Bytes → List Char
  | [] => []
  | b :: rest => (next b rest).1 :: decodeLossyChars (next b rest).2
termination_by bs => bs.length
decreasing_by
  have := length_next_le b rest
  simp only [List.length_cons]
  omega

/-- The text of a byte string. -/
def decodeLossy (bs : Bytes) : String := String.ofList (decodeLossyChars bs)

end ContractReads.Utf8
