import Mathlib.Tactic.Ring
import ContractReads.Bytes

/-!
# Numbers as bytes

What `Bytes.ofNat` writes `Bytes.toNat` reads, up to the width.  From this it follows that a word
gives back the number, the address or the function pointer that it was made of.
-/

namespace ContractReads

namespace Bytes

theorem toNat_append_singleton (bs : Bytes) (b : UInt8) :
    toNat (bs ++ [b]) = toNat bs * 256 + b.toNat := by
  simp [toNat, List.foldl_append]

/-- The number is read back, as far as it fits into the width. -/
theorem toNat_ofNat (width n : Nat) : toNat (ofNat width n) = n % 256 ^ width := by
  induction width generalizing n with
  | zero => simp [ofNat, toNat, Nat.mod_one]
  | succ width ih =>
    have hbyte : (UInt8.ofNat (n % 256)).toNat = n % 256 := by simp
    rw [ofNat, toNat_append_singleton, ih, hbyte, Nat.pow_succ, Nat.mul_comm (256 ^ width),
      Nat.mod_mul]
    ring

/-- The last bytes of a number are those of a smaller width. -/
theorem drop_ofNat (k width n : Nat) : (ofNat (k + width) n).drop k = ofNat width n := by
  induction width generalizing n with
  | zero => simp [ofNat]
  | succ width ih =>
    rw [← Nat.add_assoc, ofNat, ofNat, List.drop_append_of_le_length (by simp), ih]

@[simp] theorem length_zeros (n : Nat) : (zeros n).length = n := List.length_replicate

end Bytes

namespace FixedBytes

theorem ofBytes?_of_length {n : Nat} {bs : Bytes} (h : bs.length = n) :
    ofBytes? n bs = some ⟨bs, h⟩ :=
  dif_pos h

/-- A byte string is found in front of what follows it. -/
theorem ofFront_append {n : Nat} (b : FixedBytes n) (more : Bytes) :
    ofFront n (b.toBytes ++ more) = b := by
  refine ext ?_
  show (b.toBytes ++ more ++ Bytes.zeros n).take n = b.toBytes
  rw [List.append_assoc, List.take_left' b.length_toBytes]

/-- A byte string is found behind what stands in front of it. -/
theorem ofBack_append {n : Nat} (front : Bytes) (b : FixedBytes n) :
    ofBack n (front ++ b.toBytes) = b := by
  refine ext ?_
  show (Bytes.zeros n ++ (front ++ b.toBytes)).drop (front ++ b.toBytes).length = b.toBytes
  rw [← List.append_assoc]
  refine List.drop_left' ?_
  rw [List.length_append, List.length_append, Bytes.length_zeros, b.length_toBytes, Nat.add_comm]

/-- Only the number zero makes the zero word. -/
theorem isZero_ofNat {n value : Nat} (h : value < 256 ^ n) :
    (ofNat n value).isZero = decide (value = 0) := by
  have hzero : ∀ width, Bytes.ofNat width 0 = Bytes.zeros width := by
    intro width
    induction width with
    | zero => rfl
    | succ width ih =>
      rw [Bytes.ofNat, Nat.zero_div, ih, Bytes.zeros, Bytes.zeros, List.replicate_succ']
      rfl
  rw [isZero, Bool.eq_iff_iff, beq_iff_eq, decide_eq_true_iff]
  constructor
  · intro heq
    have hbytes : Bytes.ofNat n value = Bytes.ofNat n 0 := by
      rw [hzero]
      exact congrArg toBytes heq
    have hvalue := congrArg Bytes.toNat hbytes
    rwa [Bytes.toNat_ofNat, Bytes.toNat_ofNat, Nat.mod_eq_of_lt h, Nat.zero_mod] at hvalue
  · rintro rfl
    exact ext (hzero n)

end FixedBytes

/-- A word gives back the number that it was made of. -/
theorem Word.toBitVec_ofNat (v : BitVec 256) : Word.toBitVec (FixedBytes.ofNat 32 v.toNat) = v := by
  have hlt : v.toNat < 256 ^ 32 := v.isLt
  rw [toBitVec, FixedBytes.toNat, FixedBytes.ofNat, Bytes.toNat_ofNat, Nat.mod_eq_of_lt hlt,
    BitVec.ofNat_toNat, BitVec.setWidth_eq]

/-- A word gives back the address that it was made of. -/
theorem Address.ofBack_toWord (a : Address) : FixedBytes.ofBack 20 a.toWord.toBytes = a :=
  FixedBytes.ofBack_append _ a

end ContractReads
