import Mathlib
import ContractReads.Proofs.LogRequests
import ContractReads.Rpc.BlockTag

/-!
# Shortest quantities

Numbers are written with the fewest digits that are read back, and byte strings with two digits a
byte.  What else is read is known exactly.

* `Quantity.Spells.lt_pow` bounds a number by how many digits spell it, and
  `Quantity.length_hexDigits_le` says that no fewer digits spell it than are written.
* `Quantity.eq_zero_of_head?` is about zeros in front.
* `RawLog.quantity_eq_ok_iff` and `Rpc.payload_eq_ok_iff` say which texts are read.
* `Quantity.written_read_exact` puts these together.
-/

namespace ContractReads

/-! ## Digits -/

theorem Hex.lt_of_hexDigit? {c : Char} {d : Nat} (h : Text.hexDigit? c = some d) : d < 16 := by
  rw [hexDigit?_eq] at h
  split_ifs at h <;> cases h <;> omega

theorem Hex.Digits.length_eq {text : String} {values : List Nat} (h : Hex.Digits text values) :
    text.length = values.length := by
  have hlength := congrArg List.length h
  rwa [List.length_map, List.length_map, String.length_toList] at hlength

theorem Hex.Digits.lt {text : String} {values : List Nat} (h : Hex.Digits text values) :
    ∀ d ∈ values, d < 16 := by
  intro d hd
  have hmem : some d ∈ text.toList.map Text.hexDigit? := by
    rw [show text.toList.map Text.hexDigit? = values.map some from h]
    exact List.mem_map_of_mem hd
  obtain ⟨c, -, hc⟩ := List.mem_map.1 hmem
  exact lt_of_hexDigit? hc

/-- A byte string is spelled with an even number of digits. -/
theorem Hex.Spells.even_length {text : String} {bs : Bytes} (h : Hex.Spells text bs) :
    Even text.length := by
  rw [Digits.length_eq h, length_nibbles]
  exact even_two_mul bs.length

theorem Hex.Behind.length_le {prefixes : List String} {text rest : String}
    (h : Hex.Behind prefixes text rest) : rest.length ≤ text.length := by
  rcases h with h | ⟨p, -, h⟩
  · rw [h]
  · rw [h, String.length_append]
    omega

namespace Quantity

theorem Spells.length_pos {text : String} {n : Nat} (h : Spells text n) : 0 < text.length := by
  obtain ⟨values, hne, hdigits, -⟩ := h
  rw [hdigits.length_eq]
  exact List.length_pos_iff.2 hne

theorem Spells.lt_pow {text : String} {n : Nat} (h : Spells text n) : n < 16 ^ text.length := by
  obtain ⟨values, -, hdigits, hvalue⟩ := h
  have hlt := Nat.ofDigits_lt_base_pow_length (b := 16) (l := values.reverse) (by omega)
    fun d hd => hdigits.lt d (List.mem_reverse.1 hd)
  rwa [hvalue, List.length_reverse, ← hdigits.length_eq] at hlt

/-- No text with fewer digits than are written spells the number. -/
theorem length_hexDigits_le {text : String} {n : Nat} (h : Spells text n) :
    (Text.hexDigits n).length ≤ text.length := by
  rw [Text.hexDigits, String.length_ofList]
  exact Nat.toDigits_length 16 n text.length h.length_pos h.lt_pow

theorem eq_zero_of_digit {d : Nat} (h : d < 16) (hzero : Hex.digit d = '0') : d = 0 := by
  have hvalue := Hex.hexDigit?_digit h
  rw [hzero] at hvalue
  cases hvalue
  rfl

/-- The first digit is that of the first quotient below the base, which is not zero. -/
theorem eq_zero_of_head? {n : Nat} (h : (Text.hexDigits n).toList.head? = some '0') : n = 0 := by
  induction n using Nat.strongRecOn with
  | ind n ih =>
    rw [toList_hexDigits] at h
    split at h
    · rename_i hn
      exact eq_zero_of_digit hn (Option.some.inj h)
    · rename_i hn
      have hne : (Text.hexDigits (n / 16)).toList ≠ [] := by
        rw [toList_hexDigits]
        split <;> simp
      rw [List.head?_append_of_ne_nil _ hne] at h
      have hzero := ih (n / 16) (by omega) h
      omega

/-- Behind `0x` there is only a plus sign before the digits. -/
theorem exists_spells_of_ofText {t : String} {n : UInt64} (h : ofText ("0x" ++ t) = .ok n) :
    ∃ u, Hex.Behind ["+"] t u ∧ Spells u n.toNat := by
  rw [ofText_eq_ok_iff_value, Hex.drops_0x.behind "0x" (by simp), value_textBytes_eq_ok_iff] at h
  exact h.2

/-- The text is `0x` and digits of the number, without a zero in front of others, and behind `0x` the
number is not read from fewer characters. -/
def IsShortest (text : String) (n : UInt64) : Prop :=
  ∃ digits, text = "0x" ++ digits ∧ Spells digits n.toNat ∧
    (digits.toList.head? = some '0' → n = 0 ∧ digits = "0") ∧
    ∀ t, RawLog.quantity ("0x" ++ t) = .ok n → digits.length ≤ t.length

end Quantity

/-! ## Readers -/

theorem RawLog.quantity_eq_ofText {s : String} {n : UInt64} :
    quantity s = .ok n ↔ Quantity.ofText s = .ok n := by
  rw [quantity]
  cases Quantity.ofText s <;> simp

/-- A number below `2 ^ 64` is read from any digits that spell it, behind a prefix and a plus sign that
may be missing, and no other number is. -/
theorem RawLog.quantity_eq_ok_iff {s : String} {m : Nat} :
    (∃ n : UInt64, quantity s = .ok n ∧ n.toNat = m) ↔ m < UInt64.size ∧
      ∃ t u, Hex.Behind ["0x"] s t ∧ Hex.Behind ["+"] t u ∧ Quantity.Spells u m := by
  simp only [quantity_eq_ofText, Quantity.ofText_eq_ok_iff]
  constructor
  · intro h
    obtain ⟨n, h, rfl⟩ := h
    exact ⟨n.toNat_lt_size, h⟩
  · intro h
    obtain ⟨hm, h⟩ := h
    refine ⟨UInt64.ofNat m, ?_, UInt64.toNat_ofNat_of_lt' hm⟩
    rwa [UInt64.toNat_ofNat_of_lt' hm]

theorem Rpc.payload_eq_ok_iff {s : String} {bs : Bytes} : payload (.string s) = .ok bs ↔
    ∃ t, Hex.Behind ["0x"] s t ∧ Even t.length ∧ Hex.Spells t bs := by
  have hread : payload (.string s) = .ok bs ↔ Hex.payload? s = .ok bs := by
    rw [payload]
    cases Hex.payload? s <;> simp
  rw [hread, Hex.payload?_eq_ok_iff]
  constructor
  · intro h
    obtain ⟨t, ht, hspells⟩ := h
    exact ⟨t, ht, hspells.even_length, hspells⟩
  · intro h
    obtain ⟨t, ht, -, hspells⟩ := h
    exact ⟨t, ht, hspells⟩

namespace Quantity

theorem isShortest_render (n : UInt64) : IsShortest (render n) n := by
  refine ⟨Text.hexDigits n.toNat, rfl, spells_hexDigits n.toNat, ?_, ?_⟩
  · intro h
    have hzero := eq_zero_of_head? h
    exact ⟨UInt64.toNat.inj hzero, by rw [hzero]; rfl⟩
  · intro t ht
    obtain ⟨u, hu, hspells⟩ := exists_spells_of_ofText (RawLog.quantity_eq_ofText.1 ht)
    exact Nat.le_trans (length_hexDigits_le hspells) hu.length_le

/-- A number is written with the fewest digits that are read as this number; a text is read as a number
or as a byte string if and only if it spells it; and what is written for a byte string spells it. -/
theorem written_read_exact :
    (∀ n : UInt64, RawLog.quantity (BlockTag.number n).param = .ok n ∧
      IsShortest (BlockTag.number n).param n) ∧
    (∀ (s : String) (m : Nat), (∃ n : UInt64, RawLog.quantity s = .ok n ∧ n.toNat = m) ↔
      m < UInt64.size ∧
        ∃ t u, Hex.Behind ["0x"] s t ∧ Hex.Behind ["+"] t u ∧ Spells u m) ∧
    (∀ (s : String) (bs : Bytes), Rpc.payload (.string s) = .ok bs ↔
      ∃ t, Hex.Behind ["0x"] s t ∧ Even t.length ∧ Hex.Spells t bs) ∧
    ∀ bs : Bytes, Rpc.payload (.string (Hex.encode0x bs)) = .ok bs := by
  refine ⟨fun n => ⟨?_, isShortest_render n⟩, fun s m => RawLog.quantity_eq_ok_iff,
    fun s bs => Rpc.payload_eq_ok_iff, fun bs => ?_⟩
  · exact RawLog.quantity_eq (prefixed_render n)
  · exact RawLog.payload_eq ⟨Hex.encode bs, rfl, Hex.spells_encode bs⟩

end Quantity

end ContractReads
