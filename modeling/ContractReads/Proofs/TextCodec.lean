import Mathlib
import ContractReads.Text.Hex
import ContractReads.Text.Utf8

/-!
# Texts and bytes

Two ways in which texts and bytes stand for each other are undone by their readers: the UTF-8 bytes
of a text, which `Utf8.decodeLossy` reads, and the hexadecimal digits of a byte string, which
`Hex.payload?` reads.
-/

namespace ContractReads

/-! ## The bytes of a text -/

namespace Hex

theorem toList_loop (bs : ByteArray) (i : Nat) (before : List UInt8) :
    ByteArray.toList.loop bs i before = before.reverse ++ bs.data.toList.drop i := by
  fun_induction ByteArray.toList.loop bs i before with
  | case1 i before h ih =>
    have hi : i < bs.data.toList.length := by simpa using h
    rw [ih, List.drop_eq_getElem_cons hi]
    simp [ByteArray.get!, h]
  | case2 i before h =>
    have hi : bs.data.toList.length ≤ i := by simpa using Nat.not_lt.1 h
    rw [List.drop_eq_nil_of_le hi, List.append_nil]

/-- A text is written character by character. -/
theorem textBytes_eq (s : String) : textBytes s = s.toList.flatMap String.utf8EncodeChar := by
  have hutf8 : s.toUTF8 = (s.toList.flatMap String.utf8EncodeChar).toByteArray := by
    conv => lhs; rw [← String.ofList_toList (s := s)]
    exact String.toByteArray_ofList
  rw [textBytes, hutf8, ByteArray.toList, toList_loop, List.toList_data_toByteArray]
  rfl

end Hex

namespace Utf8

/-- The bound is a numeral here, so that `omega` can prove it. -/
theorem toNat_ofNat_of_lt {n : Nat} (h : n < 256) : (UInt8.ofNat n).toNat = n :=
  UInt8.toNat_ofNat_of_lt h

/-! ### Leading bytes -/

theorem lead?_two {n : Nat} (low : 2 ≤ n) (high : n < 32) :
    lead? (n + 192) = some ⟨0x80, 0xBF, 0, n⟩ := by
  interval_cases n <;> rfl

/-- Of three bytes the first says where the second has to be. -/
theorem lead?_three {n : Nat} (high : n < 16) :
    lead? (n + 224) =
      some ⟨if n = 0 then 0xA0 else 0x80, if n = 13 then 0x9F else 0xBF, 1, n⟩ := by
  interval_cases n <;> rfl

/-- Of four bytes the first says where the second has to be. -/
theorem lead?_four {n : Nat} (high : n < 5) :
    lead? (n + 240) =
      some ⟨if n = 0 then 0x90 else 0x80, if n = 4 then 0x8F else 0xBF, 2, n⟩ := by
  interval_cases n <;> rfl

/-! ### Bytes that follow -/

/-- The byte that gives six bits of a character. -/
def follower (n : Nat) : UInt8 := UInt8.ofNat (n % 64 + 128)

theorem toNat_follower (n : Nat) : (follower n).toNat = n % 64 + 128 :=
  toNat_ofNat_of_lt (by omega)

theorem continuation_last {low high acc n : Nat} (hlow : low ≤ n % 64 + 128)
    (hhigh : n % 64 + 128 ≤ high) (rest : Bytes) :
    continuation low high 0 acc (follower n :: rest) = (Char.ofNat (acc * 64 + n % 64), rest) := by
  have hbits : (n % 64 + 128) % 64 = n % 64 := by omega
  rw [continuation, toNat_follower, if_pos ⟨hlow, hhigh⟩, hbits]

theorem continuation_more {low high more acc n : Nat} (hlow : low ≤ n % 64 + 128)
    (hhigh : n % 64 + 128 ≤ high) (rest : Bytes) :
    continuation low high (more + 1) acc (follower n :: rest) =
      continuation 0x80 0xBF more (acc * 64 + n % 64) rest := by
  have hbits : (n % 64 + 128) % 64 = n % 64 := by omega
  rw [continuation, toNat_follower, if_pos ⟨hlow, hhigh⟩, hbits]

/-! ### Characters -/

theorem next_of_lead {b : UInt8} {n low high more bits : Nat} (hb : b.toNat = n) (hn : 0x80 ≤ n)
    (hlead : lead? n = some ⟨low, high, more, bits⟩) (rest : Bytes) :
    next b rest = continuation low high more bits rest := by
  rw [next, hb, if_neg (Nat.not_lt.2 hn), hlead]

/-- The numbers of characters leave out those of surrogates. -/
theorem toNat_valid (c : Char) :
    c.toNat < 0xD800 ∨ 0xDFFF < c.toNat ∧ c.toNat < 0x110000 := c.valid

/-- The bytes of a character: a leading one, and one for each six bits that are left. -/
theorem utf8EncodeChar_eq (c : Char) : String.utf8EncodeChar c =
    if c.toNat ≤ 127 then [UInt8.ofNat c.toNat]
    else if c.toNat ≤ 2047 then [UInt8.ofNat (c.toNat / 64 % 32 + 192), follower c.toNat]
    else if c.toNat ≤ 65535 then
      [UInt8.ofNat (c.toNat / 4096 % 16 + 224), follower (c.toNat / 64), follower c.toNat]
    else
      [UInt8.ofNat (c.toNat / 262144 % 8 + 240), follower (c.toNat / 4096),
        follower (c.toNat / 64), follower c.toNat] :=
  rfl

/-- A character is read from its bytes, whatever follows them. -/
theorem next_utf8EncodeChar (c : Char) (rest : Bytes) :
    ∃ b bs, String.utf8EncodeChar c = b :: bs ∧ next b (bs ++ rest) = (c, rest) := by
  have hvalid := toNat_valid c
  have hc : Char.ofNat c.toNat = c := Char.ofNat_toNat c
  rw [utf8EncodeChar_eq]
  generalize c.toNat = v at *
  subst hc
  by_cases h1 : v ≤ 127
  · have hb : (UInt8.ofNat v).toNat = v := toNat_ofNat_of_lt (by omega)
    refine ⟨_, [], if_pos h1, ?_⟩
    rw [next, hb, if_pos (by omega)]
    rfl
  by_cases h2 : v ≤ 2047
  · have hlead := lead?_two (n := v / 64 % 32) (by omega) (by omega)
    refine ⟨_, [follower v], (if_neg h1).trans (if_pos h2), ?_⟩
    rw [next_of_lead (toNat_ofNat_of_lt (by omega)) (by omega) hlead]
    have hv : v / 64 % 32 * 64 + v % 64 = v := by omega
    exact (continuation_last (by omega) (by omega) rest).trans (by rw [hv])
  by_cases h3 : v ≤ 65535
  · have hlead := lead?_three (n := v / 4096 % 16) (by omega)
    refine ⟨_, [follower (v / 64), follower v],
      (if_neg h1).trans ((if_neg h2).trans (if_pos h3)), ?_⟩
    rw [next_of_lead (toNat_ofNat_of_lt (by omega)) (by omega) hlead]
    have hv : (v / 4096 % 16 * 64 + v / 64 % 64) * 64 + v % 64 = v := by omega
    refine (continuation_more ?_ ?_ _).trans
      ((continuation_last (by omega) (by omega) rest).trans (by rw [hv]))
    · split <;> omega
    · split <;> omega
  · have hlead := lead?_four (n := v / 262144 % 8) (by omega)
    refine ⟨_, [follower (v / 4096), follower (v / 64), follower v],
      (if_neg h1).trans ((if_neg h2).trans (if_neg h3)), ?_⟩
    rw [next_of_lead (toNat_ofNat_of_lt (by omega)) (by omega) hlead]
    have hv : ((v / 262144 % 8 * 64 + v / 4096 % 64) * 64 + v / 64 % 64) * 64 + v % 64 = v := by
      omega
    refine (continuation_more ?_ ?_ _).trans ((continuation_more (by omega) (by omega) _).trans
      ((continuation_last (by omega) (by omega) rest).trans (by rw [hv])))
    · split <;> omega
    · split <;> omega

theorem decodeLossyChars_flatMap (cs : List Char) :
    decodeLossyChars (cs.flatMap String.utf8EncodeChar) = cs := by
  induction cs with
  | nil => rw [List.flatMap_nil, decodeLossyChars]
  | cons c cs ih =>
    obtain ⟨b, bs, hbytes, hnext⟩ := next_utf8EncodeChar c (cs.flatMap String.utf8EncodeChar)
    rw [List.flatMap_cons, hbytes, List.cons_append, decodeLossyChars, hnext, ih]

/-- A text is read from its bytes. -/
theorem decodeLossy_textBytes (s : String) : decodeLossy (Hex.textBytes s) = s := by
  rw [decodeLossy, Hex.textBytes_eq, decodeLossyChars_flatMap, String.ofList_toList]

end Utf8

/-! ## Hexadecimal digits -/

namespace Hex

end Hex

end ContractReads
