import Mathlib
import ContractReads.Proofs.CallEncoding
import ContractReads.Proofs.TextCodec
import ContractReads.Address
import ContractReads.Rpc.Quantity
import ContractReads.Text.Digits

/-!
# Texts that spell bytes and numbers

Which texts the readers of hexadecimal texts accept, and what they read from them.

* `Hex.Digits` says of characters that they are digits of either case.  The readers see bytes:
  `Hex.map_digitValue?_textBytes` carries digits over to the bytes of a text, and
  `Hex.textBytes_eq_append_iff` takes characters off its front.
* `Hex.Drops` says which prefixes a reader takes off; `Hex.Drops.iff` is about everything that is
  asked of the rest.
* `Hex.fixed?_eq_ok_iff` and `Hex.payload?_eq_ok_iff` are about byte strings: two digits a byte.
* `Quantity.ofText_eq_ok_iff` is about numbers: any number of digits but none.
-/

namespace ContractReads

namespace Hex

open Address (nibbles)

/-- The characters of a text are digits of either case with these values. -/
def Digits (text : String) (values : List Nat) : Prop :=
  text.toList.map Text.hexDigit? = values.map some

/-- The text spells a byte string with two digits a byte. -/
def Spells (text : String) (bs : Bytes) : Prop := Digits text (nibbles bs)

/-- The text is `rest`, or it is `rest` behind one of the prefixes. -/
def Behind (prefixes : List String) (text rest : String) : Prop :=
  text = rest ∨ ∃ p ∈ prefixes, text = p ++ rest

/-! ## Characters and bytes -/

/-- A digit with its bounds as numbers. -/
theorem hexDigit?_eq (c : Char) : Text.hexDigit? c =
    if 48 ≤ c.toNat ∧ c.toNat ≤ 57 then some (c.toNat - 48)
    else if 97 ≤ c.toNat ∧ c.toNat ≤ 102 then some (c.toNat - 87)
    else if 65 ≤ c.toNat ∧ c.toNat ≤ 70 then some (c.toNat - 55)
    else none :=
  rfl

theorem hexDigit?_of_le {c : Char} (h : 128 ≤ c.toNat) : Text.hexDigit? c = none := by
  rw [hexDigit?_eq, if_neg (by omega), if_neg (by omega), if_neg (by omega)]

theorem digitValue?_of_le {b : UInt8} (h : 128 ≤ b.toNat) : digitValue? b = none := by
  simp only [digitValue?]
  rw [if_neg (by omega), if_neg (by omega), if_neg (by omega)]

theorem digitValue?_ofNat {c : Char} (h : c.toNat < 128) :
    digitValue? (UInt8.ofNat c.toNat) = Text.hexDigit? c := by
  have hbyte : (UInt8.ofNat c.toNat).toNat = c.toNat := Utf8.toNat_ofNat_of_lt (by omega)
  simp only [digitValue?, hbyte, hexDigit?_eq]

theorem utf8EncodeChar_of_lt {c : Char} (h : c.toNat < 128) :
    String.utf8EncodeChar c = [UInt8.ofNat c.toNat] := by
  rw [Utf8.utf8EncodeChar_eq, if_pos (by omega)]

/-- The bytes of any other character start with a large one. -/
theorem utf8EncodeChar_of_le {c : Char} (h : 128 ≤ c.toNat) :
    ∃ b bs, String.utf8EncodeChar c = b :: bs ∧ 128 ≤ b.toNat := by
  have hvalid := Utf8.toNat_valid c
  have hlarge {n : Nat} (hn : 128 ≤ n) (hn' : n < 256) : 128 ≤ (UInt8.ofNat n).toNat := by
    rwa [Utf8.toNat_ofNat_of_lt hn']
  rw [Utf8.utf8EncodeChar_eq, if_neg (by omega)]
  split
  · exact ⟨_, _, rfl, hlarge (by omega) (by omega)⟩
  split
  · exact ⟨_, _, rfl, hlarge (by omega) (by omega)⟩
  · exact ⟨_, _, rfl, hlarge (by omega) (by omega)⟩

/-- The bytes of a text are digits if and only if its characters are. -/
theorem map_digitValue?_flatMap (cs : List Char) (values : List Nat) :
    (cs.flatMap String.utf8EncodeChar).map digitValue? = values.map some ↔
      cs.map Text.hexDigit? = values.map some := by
  induction cs generalizing values with
  | nil => rw [List.flatMap_nil, List.map_nil, List.map_nil]
  | cons c cs ih =>
    rw [List.flatMap_cons, List.map_append, List.map_cons]
    by_cases hc : c.toNat < 128
    · rw [utf8EncodeChar_of_lt hc, List.map_singleton, digitValue?_ofNat hc, List.singleton_append]
      cases values with
      | nil => simp
      | cons d values => rw [List.map_cons, List.cons.injEq, List.cons.injEq, ih]
    · obtain ⟨b, bs, hbytes, hb⟩ := utf8EncodeChar_of_le (Nat.not_lt.1 hc)
      rw [hbytes, List.map_cons, digitValue?_of_le hb, hexDigit?_of_le (Nat.not_lt.1 hc)]
      cases values <;> simp

theorem map_digitValue?_textBytes (text : String) (values : List Nat) :
    (textBytes text).map digitValue? = values.map some ↔ Digits text values := by
  rw [textBytes_eq, map_digitValue?_flatMap, Digits]

theorem textBytes_append (s t : String) : textBytes (s ++ t) = textBytes s ++ textBytes t := by
  rw [textBytes_eq, textBytes_eq, textBytes_eq, String.toList_append, List.flatMap_append]

theorem flatMap_eq_append {ps : List Char} (ascii : ∀ c ∈ ps, c.toNat < 128) {cs : List Char}
    {rest : Bytes} (h : cs.flatMap String.utf8EncodeChar = ps.flatMap String.utf8EncodeChar ++ rest) :
    ∃ cs', cs = ps ++ cs' ∧ cs'.flatMap String.utf8EncodeChar = rest := by
  induction ps generalizing cs with
  | nil => exact ⟨cs, rfl, h⟩
  | cons p ps ih =>
    have hp := ascii p List.mem_cons_self
    rw [List.flatMap_cons, utf8EncodeChar_of_lt hp, List.append_assoc, List.singleton_append] at h
    cases cs with
    | nil => cases h
    | cons c cs =>
      rw [List.flatMap_cons] at h
      -- A character with such a first byte has no other bytes.
      have hc : c.toNat < 128 := by
        by_contra hc
        obtain ⟨b, bs, hbytes, hb⟩ := utf8EncodeChar_of_le (Nat.not_lt.1 hc)
        rw [hbytes, List.cons_append, List.cons.injEq] at h
        rw [h.1, Utf8.toNat_ofNat_of_lt (by omega)] at hb
        omega
      rw [utf8EncodeChar_of_lt hc, List.singleton_append, List.cons.injEq] at h
      have hsame := congrArg UInt8.toNat h.1
      rw [Utf8.toNat_ofNat_of_lt (by omega), Utf8.toNat_ofNat_of_lt (by omega)] at hsame
      obtain ⟨cs', rfl, hrest⟩ := ih (fun c hc => ascii c (List.mem_cons_of_mem p hc)) h.2
      exact ⟨cs', by rw [Char.toNat_inj.1 hsame]; rfl, hrest⟩

/-- The bytes of small characters at the front of a text are those of these characters. -/
theorem exists_of_textBytes_eq_append {p : String} {bs : Bytes} (hp : textBytes p = bs)
    (ascii : ∀ c ∈ p.toList, c.toNat < 128) {s : String} {rest : Bytes}
    (h : textBytes s = bs ++ rest) : ∃ t, s = p ++ t ∧ textBytes t = rest := by
  rw [← hp, textBytes_eq, textBytes_eq] at h
  obtain ⟨cs, hcs, hrest⟩ := flatMap_eq_append ascii h
  refine ⟨String.ofList cs, String.toList_inj.1 ?_, ?_⟩
  · rw [hcs, String.toList_append, String.toList_ofList]
  · rw [textBytes_eq, String.toList_ofList, hrest]

/-! ## Prefixes -/

/-- What is done to the bytes of a text takes one of the prefixes off it, if there is one. -/
structure Drops (drop : Bytes → Bytes) (prefixes : List String) : Prop where
  behind : ∀ p ∈ prefixes, ∀ t, drop (textBytes (p ++ t)) = textBytes t
  alone : ∀ s, drop (textBytes s) = textBytes s ∨ ∃ p ∈ prefixes, ∃ t, s = p ++ t

/-- A property that no text with a prefix has holds of what is left of a text if and only if it holds
of what stands behind a prefix that may be missing. -/
theorem Drops.iff {drop : Bytes → Bytes} {prefixes : List String} (h : Drops drop prefixes)
    {P : Bytes → Prop} (hP : ∀ p ∈ prefixes, ∀ t, ¬P (textBytes (p ++ t))) (s : String) :
    P (drop (textBytes s)) ↔ ∃ t, Behind prefixes s t ∧ P (textBytes t) := by
  constructor
  · intro hs
    obtain halone | ⟨p, hp, t, rfl⟩ := h.alone s
    · rw [halone] at hs
      exact ⟨s, .inl rfl, hs⟩
    · rw [h.behind p hp] at hs
      exact ⟨t, .inr ⟨p, hp, rfl⟩, hs⟩
  · rintro ⟨t, rfl | ⟨p, hp, rfl⟩, ht⟩
    · obtain halone | ⟨p, hp, t, rfl⟩ := h.alone s
      · rwa [halone]
      · exact absurd ht (hP p hp t)
    · rwa [h.behind p hp]

theorem textBytes_0x : textBytes "0x" = [48, 120] := by
  rw [textBytes_eq]
  rfl

theorem textBytes_0X : textBytes "0X" = [48, 88] := by
  rw [textBytes_eq]
  rfl

theorem drops_0x : Drops dropPrefix0x ["0x"] where
  behind := by
    simp only [List.forall_mem_singleton, textBytes_append, textBytes_0x]
    exact fun _ => rfl
  alone s := by
    unfold dropPrefix0x
    split
    · rename_i h
      obtain ⟨t, ht, -⟩ := exists_of_textBytes_eq_append textBytes_0x (by simp) h
      exact .inr ⟨"0x", by simp, t, ht⟩
    · exact .inl rfl

theorem drops_anyCase : Drops dropPrefixAnyCase ["0x", "0X"] where
  behind := by
    simp only [List.forall_mem_cons, textBytes_append, textBytes_0x, textBytes_0X]
    exact ⟨fun _ => rfl, fun _ => rfl, nofun⟩
  alone s := by
    unfold dropPrefixAnyCase
    split
    · rename_i h
      obtain ⟨t, ht, -⟩ := exists_of_textBytes_eq_append textBytes_0x (by simp) h
      exact .inr ⟨"0x", by simp, t, ht⟩
    · rename_i h
      obtain ⟨t, ht, -⟩ := exists_of_textBytes_eq_append textBytes_0X (by simp) h
      exact .inr ⟨"0X", by simp, t, ht⟩
    · exact .inl rfl

/-- A prefix is not made of digits. -/
theorem not_map_digitValue?_0x {values : List Nat} :
    ∀ p ∈ ["0x", "0X"], ∀ t, ¬(textBytes (p ++ t)).map digitValue? = values.map some := by
  have hdigits (b : UInt8) (hb : digitValue? b = none) (rest : Bytes) :
      ¬(48 :: b :: rest).map digitValue? = values.map some := by
    intro h
    have hmem : digitValue? b ∈ values.map some := by
      rw [← h]
      simp
    simp [hb] at hmem
  simp only [List.forall_mem_cons, textBytes_append, textBytes_0x, textBytes_0X]
  exact ⟨fun t => hdigits 120 rfl _, fun t => hdigits 88 rfl _, nofun⟩

/-! ## Byte strings -/

theorem length_nibbles (bs : Bytes) : (nibbles bs).length = 2 * bs.length := by
  simp [nibbles, List.length_flatMap, Nat.mul_comm]

theorem lt_of_digitValue? {b : UInt8} {d : Nat} (h : digitValue? b = some d) : d < 16 := by
  simp only [digitValue?] at h
  split at h
  · cases h
    omega
  split at h
  · cases h
    omega
  split at h
  · cases h
    omega
  · cases h

/-- Two digits make a byte if and only if they are its halves. -/
theorem ofNat_eq_iff {x y : Nat} (hx : x < 16) (hy : y < 16) (b : UInt8) :
    UInt8.ofNat (16 * x + y) = b ↔ x = b.toNat / 16 ∧ y = b.toNat % 16 := by
  rw [← UInt8.toNat_inj, Utf8.toNat_ofNat_of_lt (by omega)]
  omega

theorem map_nibbles_cons (b : UInt8) (bs : Bytes) : (nibbles (b :: bs)).map some =
    some (b.toNat / 16) :: some (b.toNat % 16) :: (nibbles bs).map some :=
  rfl

/-- Bytes are read from pairs of digits, and from nothing else. -/
theorem decodePairs_eq_ok_iff {position : Nat} {text bs : Bytes} :
    decodePairs position text = .ok bs ↔ text.map digitValue? = (nibbles bs).map some := by
  induction position, text using decodePairs.induct generalizing bs with
  | case1 => cases bs <;> simp [decodePairs, nibbles]
  | case2 => cases bs <;> simp [decodePairs, nibbles]
  | case3 position a b rest ha => cases bs <;> simp [decodePairs, nibbles, ha]
  | case4 position a b rest x hb ha => cases bs <;> simp [decodePairs, nibbles, ha, hb]
  | case5 position a b rest x y hb ha ih =>
    have hbyte := ofNat_eq_iff (lt_of_digitValue? ha) (lt_of_digitValue? hb)
    rw [decodePairs, ha, hb, map_eq_ok_iff, List.map_cons, List.map_cons, ha, hb]
    cases bs with
    | nil => simp [nibbles]
    | cons c bs =>
      rw [map_nibbles_cons]
      constructor
      · rintro ⟨bs', hrest, hcons⟩
        obtain ⟨hc, rfl⟩ := List.cons.inj hcons
        obtain ⟨rfl, rfl⟩ := (hbyte c).1 hc.symm
        rw [ih.1 hrest]
      · intro h
        simp only [List.cons.injEq, Option.some.injEq] at h
        exact ⟨bs, ih.2 h.2.2, by rw [(hbyte c).2 ⟨h.1, h.2.1⟩]⟩

theorem decode_eq_ok_iff {text bs : Bytes} :
    decode text = .ok bs ↔ text.map digitValue? = (nibbles bs).map some := by
  rw [decode]
  split
  · rename_i hodd
    refine iff_of_false (by simp) fun h => ?_
    have hlength := congrArg List.length h
    rw [List.length_map, List.length_map, length_nibbles] at hlength
    omega
  · exact decodePairs_eq_ok_iff

theorem decodeFixed_eq_ok_iff {n : Nat} {text : Bytes} {b : FixedBytes n} :
    decodeFixed n text = .ok b ↔ text.map digitValue? = (nibbles b.toBytes).map some := by
  have hlength (h : text.map digitValue? = (nibbles b.toBytes).map some) : text.length = 2 * n := by
    have hlength := congrArg List.length h
    rwa [List.length_map, List.length_map, length_nibbles, b.length_toBytes] at hlength
  rw [decodeFixed]
  split
  · rename_i hodd
    refine iff_of_false nofun fun h => ?_
    have := hlength h
    omega
  split
  · rename_i hwrong
    exact iff_of_false nofun fun h => hwrong (hlength h)
  constructor
  · intro h
    obtain ⟨bs, hbs, h⟩ := bind_eq_ok_iff.1 h
    rw [FixedBytes.ofBytes?] at h
    split at h
    · rename_i heq
      split at heq
      · cases heq
        cases h
        exact decodePairs_eq_ok_iff.1 hbs
      · cases heq
    · cases h
  · intro h
    refine bind_eq_ok_iff.2 ⟨b.toBytes, decodePairs_eq_ok_iff.2 h, ?_⟩
    rw [FixedBytes.ofBytes?, dif_pos b.length_toBytes]

/-- A byte string of a width is read from the digits that spell it, behind a prefix in either case
that may be missing. -/
theorem fixed?_eq_ok_iff {n : Nat} {s : String} {b : FixedBytes n} :
    fixed? n s = .ok b ↔ ∃ t, Behind ["0x", "0X"] s t ∧ Spells t b.toBytes := by
  rw [fixed?, decodeFixed_eq_ok_iff]
  simp only [drops_anyCase.iff not_map_digitValue?_0x (P := fun bs =>
    bs.map digitValue? = (nibbles b.toBytes).map some), map_digitValue?_textBytes, Spells]

/-- A byte string of any length is read from the digits that spell it, behind a prefix that may be
missing. -/
theorem payload?_eq_ok_iff {s : String} {bs : Bytes} :
    payload? s = .ok bs ↔ ∃ t, Behind ["0x"] s t ∧ Spells t bs := by
  have h0x : ∀ p ∈ ["0x"], ∀ t, ¬(textBytes (p ++ t)).map digitValue? = (nibbles bs).map some :=
    List.forall_mem_singleton.2 (not_map_digitValue?_0x "0x" (by simp))
  rw [payload?, decode_eq_ok_iff]
  simp only [drops_0x.iff h0x (P := fun text => text.map digitValue? = (nibbles bs).map some),
    map_digitValue?_textBytes, Spells]

end Hex

namespace Quantity

/-- The text spells a number: there are digits, and this is their number. -/
def Spells (text : String) (n : Nat) : Prop :=
  ∃ values, values ≠ [] ∧ Hex.Digits text values ∧ Nat.ofDigits 16 values.reverse = n

/-! ## Numbers -/

/-- The number of digits behind a number. -/
def numberFrom (n : Nat) (values : List Nat) : Nat := values.foldl (fun n d => n * 16 + d) n

theorem le_numberFrom (n : Nat) (values : List Nat) : n ≤ numberFrom n values := by
  induction values generalizing n with
  | nil => exact Nat.le_refl n
  | cons d values ih => exact Nat.le_trans (by omega) (ih (n * 16 + d))

theorem numberFrom_zero (values : List Nat) :
    numberFrom 0 values = Nat.ofDigits 16 values.reverse := by
  induction values using List.reverseRecOn with
  | nil => rfl
  | append_singleton values d ih =>
    rw [List.reverse_append, List.reverse_singleton, List.singleton_append, Nat.ofDigits_cons, ← ih,
      numberFrom, List.foldl_append]
    exact (Nat.add_comm _ _).trans (congrArg (d + ·) (Nat.mul_comm _ _))

/-- Digits are read as long as the number stays in 64 bits, where it only grows. -/
theorem digits_eq_ok_iff {n m : Nat} {text : Bytes} (hn : n < UInt64.size) :
    digits n text = .ok m ↔ m < UInt64.size ∧ ∃ values : List Nat,
      text.map Hex.digitValue? = values.map some ∧ numberFrom n values = m := by
  induction text generalizing n with
  | nil =>
    rw [digits]
    constructor
    · rintro ⟨⟩
      exact ⟨hn, [], rfl, rfl⟩
    · rintro ⟨-, values, hvalues, rfl⟩
      rw [List.map_nil, List.nil_eq, List.map_eq_nil_iff] at hvalues
      rw [hvalues]
      rfl
  | cons b text ih =>
    rw [digits, List.map_cons]
    cases hb : Hex.digitValue? b with
    | none =>
      refine iff_of_false nofun ?_
      rintro ⟨-, values, hvalues, -⟩
      cases values <;> simp at hvalues
    | some d =>
      have hcons : (∃ values : List Nat, some d :: text.map Hex.digitValue? = values.map some ∧
          numberFrom n values = m) ↔ ∃ values : List Nat,
          text.map Hex.digitValue? = values.map some ∧ numberFrom (n * 16 + d) values = m := by
        constructor
        · rintro ⟨values, hvalues, hm⟩
          cases values with
          | nil => cases hvalues
          | cons d' values =>
            obtain ⟨hd, htail⟩ := List.cons.inj hvalues
            cases hd
            exact ⟨values, htail, hm⟩
        · rintro ⟨values, hvalues, hm⟩
          exact ⟨d :: values, congrArg (some d :: ·) hvalues, hm⟩
      rw [hcons]
      dsimp only
      split
      · rename_i hsmall
        exact ih hsmall
      · rename_i hlarge
        refine iff_of_false nofun ?_
        rintro ⟨hm, values, -, rfl⟩
        exact hlarge (Nat.lt_of_le_of_lt (le_numberFrom _ values) hm)

/-- Takes a plus sign off the front. -/
def dropPlus : Bytes → Bytes
  | 43 :: rest => rest
  | text => text

theorem textBytes_plus : Hex.textBytes "+" = [43] := by
  rw [Hex.textBytes_eq]
  rfl

theorem drops_plus : Hex.Drops dropPlus ["+"] where
  behind := by
    simp only [List.forall_mem_singleton, Hex.textBytes_append, textBytes_plus]
    exact fun _ => rfl
  alone s := by
    unfold dropPlus
    split
    · rename_i h
      obtain ⟨t, ht, -⟩ := Hex.exists_of_textBytes_eq_append textBytes_plus (by simp) h
      exact .inr ⟨"+", by simp, t, ht⟩
    · exact .inl rfl

theorem value_eq_digits (text : Bytes) :
    (dropPlus text = [] → ∃ e, value text = .error e) ∧
      (dropPlus text ≠ [] → value text = digits 0 (dropPlus text)) := by
  unfold value
  split
  · exact ⟨fun _ => ⟨_, rfl⟩, fun h => absurd rfl h⟩
  · exact ⟨fun _ => ⟨_, rfl⟩, fun h => absurd rfl h⟩
  · rename_i rest hrest
    exact ⟨fun h => absurd h hrest, fun _ => rfl⟩
  · rename_i hempty _ hplus
    have htext : dropPlus text = text := by
      unfold dropPlus
      split
      · exact absurd rfl (hplus _)
      · rfl
    rw [htext]
    exact ⟨fun h => absurd h hempty, fun _ => rfl⟩

theorem value_eq_ok_iff {m : Nat} {text : Bytes} :
    value text = .ok m ↔ m < UInt64.size ∧ ∃ values : List Nat, values ≠ [] ∧
      (dropPlus text).map Hex.digitValue? = values.map some ∧
        Nat.ofDigits 16 values.reverse = m := by
  simp only [← numberFrom_zero]
  obtain ⟨hempty, hdigits⟩ := value_eq_digits text
  by_cases htext : dropPlus text = []
  · obtain ⟨e, he⟩ := hempty htext
    rw [he, htext]
    refine iff_of_false nofun ?_
    rintro ⟨-, values, hne, hvalues, -⟩
    exact hne (List.map_eq_nil_iff.1 hvalues.symm)
  · rw [hdigits htext, digits_eq_ok_iff (by decide)]
    refine and_congr_right fun _ => exists_congr fun values => ⟨?_, And.right⟩
    rintro ⟨hvalues, hm⟩
    refine ⟨?_, hvalues, hm⟩
    rintro rfl
    exact htext (List.map_eq_nil_iff.1 hvalues)

/-- A number is read from the digits that spell it, behind a plus sign that may be missing. -/
theorem value_textBytes_eq_ok_iff {m : Nat} {t : String} :
    value (Hex.textBytes t) = .ok m ↔ m < UInt64.size ∧ ∃ u, Hex.Behind ["+"] t u ∧ Spells u m := by
  have hplus {values : List Nat} : ∀ p ∈ ["+"], ∀ u,
      ¬(Hex.textBytes (p ++ u)).map Hex.digitValue? = values.map some := by
    simp only [List.forall_mem_singleton, Hex.textBytes_append, textBytes_plus]
    intro u
    cases values <;> exact nofun
  rw [value_eq_ok_iff]
  simp only [drops_plus.iff hplus (P := fun bs => bs.map Hex.digitValue? = List.map some _),
    Hex.map_digitValue?_textBytes, Spells]
  refine and_congr_right fun _ => ?_
  constructor
  · rintro ⟨values, hne, ⟨u, hu, hdigits⟩, hm⟩
    exact ⟨u, hu, values, hne, hdigits, hm⟩
  · rintro ⟨u, hu, values, hne, hdigits, hm⟩
    exact ⟨values, hne, ⟨u, hu, hdigits⟩, hm⟩

theorem ofText_eq_ok_iff_value {s : String} {n : UInt64} :
    ofText s = .ok n ↔ value (Hex.dropPrefix0x (Hex.textBytes s)) = .ok n.toNat := by
  rw [ofText, map_eq_ok_iff]
  constructor
  · rintro ⟨m, hm, rfl⟩
    have hsmall := (value_eq_ok_iff.1 hm).1
    rw [hm, UInt64.toNat_ofNat_of_lt' hsmall]
  · intro h
    exact ⟨n.toNat, h, UInt64.ofNat_toNat.symm⟩

/-- A number of 64 bits is read from the digits that spell it, behind a prefix and a plus sign that may
be missing. -/
theorem ofText_eq_ok_iff {s : String} {n : UInt64} :
    ofText s = .ok n ↔ ∃ t u, Hex.Behind ["0x"] s t ∧ Hex.Behind ["+"] t u ∧ Spells u n.toNat := by
  have h0x : ∀ p ∈ ["0x"], ∀ t, ¬value (Hex.textBytes (p ++ t)) = .ok n.toNat := by
    simp only [List.forall_mem_singleton, Hex.textBytes_append, Hex.textBytes_0x]
    exact fun t => nofun
  rw [ofText_eq_ok_iff_value, Hex.drops_0x.iff h0x (P := fun text => value text = .ok n.toNat)]
  simp only [value_textBytes_eq_ok_iff, n.toNat_lt_size, true_and, exists_and_left]

end Quantity

end ContractReads
