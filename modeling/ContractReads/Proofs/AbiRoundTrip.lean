import ContractReads.Proofs.AbiLayout
import ContractReads.Proofs.TextCodec

/-!
# Values that are read back

What `AbiValue.encodeParams` writes `Abi.decodeWithin` reads, whatever follows it.  The encoder
follows the values and the decoder the types, so that this is about values of given types:
`OfType`.

* `OfType.dynamic_eq` and `OfType.minWords_le` say that values and types agree on what is dynamic
  and on how many words there are at least.
* `OfType.reads` is the induction on types: every value is read from its part.
* `decodeWithin_encodeParams` puts a parameter list together, `decodeParams_encodeParams` is the
  case with nothing behind it.
-/

namespace ContractReads

namespace AbiType

mutual

/-- How deep the child cursors nest that values of a type are read with. -/
def nesting : AbiType → Nat
  | bytes | string => 1
  | array t => t.nesting + 2
  | fixedArray t _ => t.nesting + 1
  | tuple ts => nestingAll ts + 1
  | _ => 0

/-- How deep the child cursors nest that values of several types are read with. -/
def nestingAll : List AbiType → Nat
  | [] => 0
  | t :: ts => max t.nesting (nestingAll ts)

end

theorem nesting_le_nestingAll {t : AbiType} {ts : List AbiType} (h : t ∈ ts) :
    t.nesting ≤ nestingAll ts := by
  induction ts with
  | nil => cases h
  | cons t' ts ih =>
    rw [nestingAll]
    rcases List.mem_cons.1 h with rfl | h
    · exact Nat.le_max_left _ _
    · exact (ih h).trans (Nat.le_max_right _ _)

end AbiType

/-- Two lists that agree entry by entry. -/
theorem map_eq_map_of_zip {α β γ : Type} {xs : List α} {ys : List β} {f : α → γ} {g : β → γ}
    (length : xs.length = ys.length) (each : ∀ x ∈ xs.zip ys, g x.2 = f x.1) :
    ys.map g = xs.map f := by
  have hxs := List.map_fst_zip (Nat.le_of_eq length)
  have hys := List.map_snd_zip (Nat.le_of_eq length.symm)
  conv => lhs; rw [← hys]
  conv => rhs; rw [← hxs]
  rw [List.map_map, List.map_map]
  exact List.map_congr_left each

namespace AbiValue

/-- A value as a type asks for it, widths included.  A fixed array has an element, and an array of
elements without words has no more than can be counted and than there is room for. -/
inductive OfType (room : Nat) : AbiType → AbiValue → Prop
  | bool (b : Bool) : OfType room .bool (.bool b)
  | uint (bits : Nat) (v : BitVec 256) : OfType room (.uint bits) (.uint v bits)
  | int (bits : Nat) (v : BitVec 256) : OfType room (.int bits) (.int v bits)
  | fixedBytes (size : Nat) (w : Word) : OfType room (.fixedBytes size) (.fixedBytes w size)
  | address (a : Address) : OfType room .address (.address a)
  | function (f : FunctionPointer) : OfType room .function (.function f)
  | bytes (bs : Bytes) : OfType room .bytes (.bytes bs)
  | string (s : String) : OfType room .string (.string s)
  | array {t : AbiType} {vs : List AbiValue} (each : ∀ v ∈ vs, OfType room t v)
    (counted : t.minWords = 0 → vs.length < 2 ^ 64 ∧ vs.length * t.places ≤ room) :
    OfType room (.array t) (.array vs)
  | fixedArray {t : AbiType} {vs : List AbiValue} (each : ∀ v ∈ vs, OfType room t v)
    (element : vs ≠ []) : OfType room (.fixedArray t vs.length) (.fixedArray vs)
  | tuple {ts : List AbiType} {vs : List AbiValue} (arity : ts.length = vs.length)
    (each : ∀ x ∈ ts.zip vs, OfType room x.1 x.2) : OfType room (.tuple ts) (.tuple vs)

theorem parts_eq_map (vs : List AbiValue) : parts vs = vs.map part := by
  induction vs with
  | nil => rfl
  | cons v vs ih => rw [parts, ih, List.map_cons]

theorem any_dynamic_parts (vs : List AbiValue) :
    (parts vs).any Part.dynamic = (vs.map fun v => v.part.dynamic).any id := by
  rw [parts_eq_map, List.any_map, List.any_map]
  rfl

theorem anyDynamic_eq (ts : List AbiType) :
    AbiType.anyDynamic ts = (ts.map AbiType.isDynamic).any id := by
  induction ts with
  | nil => rfl
  | cons t ts ih => rw [AbiType.anyDynamic, ih, List.map_cons, List.any_cons, id]

theorem minWordsAll_eq (ts : List AbiType) :
    AbiType.minWordsAll ts = (ts.map AbiType.minWords).sum := by
  induction ts with
  | nil => rfl
  | cons t ts ih => rw [AbiType.minWordsAll, ih, List.map_cons, List.sum_cons]

/-! ## Sizes of parts -/

theorem length_counted (bs : Bytes) : (counted bs).length = 32 + bs.padded.length := by
  rw [counted, List.length_append, Bytes.length_ofNat]

mutual

/-- Every value is written in whole words. -/
theorem dvd_length_body : (v : AbiValue) → 32 ∣ v.part.body.length
  | bool _ | uint _ _ | int _ _ => ⟨1, Bytes.length_ofNat 32 _⟩
  | fixedBytes w _ => ⟨1, w.length_toBytes⟩
  | address a => ⟨1, a.toWord.length_toBytes⟩
  | function f => ⟨1, by rw [part, List.length_append, f.length_toBytes, Bytes.length_zeros]⟩
  | bytes bs => by
    rw [part, length_counted, Bytes.length_padded]
    omega
  | string s => by
    rw [part, length_counted, Bytes.length_padded]
    omega
  | array vs => by
    rw [part, List.length_append, Bytes.length_ofNat]
    exact Nat.dvd_add ⟨1, rfl⟩ (Part.dvd_length_assemble (dvd_length_bodies vs))
  | fixedArray vs => Part.dvd_length_assemble (dvd_length_bodies vs)
  | tuple vs => Part.dvd_length_assemble (dvd_length_bodies vs)

theorem dvd_length_bodies : (vs : List AbiValue) → ∀ p ∈ parts vs, 32 ∣ p.body.length
  | [], _, h => nomatch h
  | v :: vs, p, h => by
    rcases List.mem_cons.1 h with rfl | h
    · exact dvd_length_body v
    · exact dvd_length_bodies vs p h

end

/-- A parameter list is written in whole words. -/
theorem dvd_length_encodeParams (vs : List AbiValue) : 32 ∣ (encodeParams vs).length :=
  Part.dvd_length_assemble (dvd_length_bodies vs)

variable {room : Nat}

/-- Values of a type are dynamic if the type is. -/
theorem OfType.dynamic_eq {t : AbiType} {v : AbiValue} (h : OfType room t v) :
    v.part.dynamic = t.isDynamic := by
  induction h with
  | bool | uint | int | fixedBytes | address | function | bytes | string | array => rfl
  | @fixedArray t vs each element ih =>
    rw [part, any_dynamic_parts, AbiType.isDynamic, List.any_map, Bool.eq_iff_iff,
      List.any_eq_true]
    constructor
    · rintro ⟨v, hv, hdynamic⟩
      exact (ih v hv).symm.trans hdynamic
    · intro hdynamic
      obtain ⟨v, hv⟩ := List.exists_mem_of_ne_nil vs element
      exact ⟨v, hv, (ih v hv).trans hdynamic⟩
  | @tuple ts vs arity each ih =>
    rw [part, any_dynamic_parts, AbiType.isDynamic, anyDynamic_eq, map_eq_map_of_zip arity ih]

/-- An assembly has at least the words of its values' types. -/
theorem minWords_le_assemble {xs : List (AbiType × AbiValue)}
    (each : ∀ x ∈ xs, 32 * x.1.minWords ≤ x.2.part.body.length) :
    32 * (xs.map fun x => x.1.minWords).sum ≤
      (Part.assemble (parts (xs.map Prod.snd))).length := by
  refine Nat.le_trans ?_ (Part.length_bodies_le _)
  rw [parts_eq_map, List.map_map, List.map_map]
  induction xs with
  | nil => exact Nat.le_refl 0
  | cons x xs ih =>
    have hx := each x List.mem_cons_self
    have hxs := ih fun y hy => each y (List.mem_cons_of_mem x hy)
    rw [List.map_cons, List.map_cons, List.sum_cons, List.sum_cons, Nat.mul_add]
    exact Nat.add_le_add hx hxs

theorem minWords_le_assemble_of_array {t : AbiType} {vs : List AbiValue}
    (each : ∀ v ∈ vs, 32 * t.minWords ≤ v.part.body.length) :
    32 * (vs.length * t.minWords) ≤ (Part.assemble (parts vs)).length := by
  have hpairs : ∀ x ∈ vs.map (fun v => (t, v)), 32 * x.1.minWords ≤ x.2.part.body.length := by
    simpa using each
  simpa [Function.comp_def, List.map_const', List.sum_replicate_nat] using
    minWords_le_assemble hpairs

theorem minWords_le_assemble_of_tuple {ts : List AbiType} {vs : List AbiValue}
    (arity : ts.length = vs.length)
    (each : ∀ x ∈ ts.zip vs, 32 * x.1.minWords ≤ x.2.part.body.length) :
    32 * AbiType.minWordsAll ts ≤ (Part.assemble (parts vs)).length := by
  have h := minWords_le_assemble each
  have hts := List.map_fst_zip (Nat.le_of_eq arity)
  rw [List.map_snd_zip (Nat.le_of_eq arity.symm)] at h
  rw [minWordsAll_eq, ← hts, List.map_map]
  exact h

/-- Values take at least the words that their type needs. -/
theorem OfType.minWords_le {t : AbiType} {v : AbiValue} (h : OfType room t v) :
    32 * t.minWords ≤ v.part.body.length := by
  have hword : ∀ n, 32 ≤ (Bytes.ofNat 32 n).length := fun n => by rw [Bytes.length_ofNat]
  induction h with
  | bool | uint | int => exact hword _
  | fixedBytes size w => exact w.length_toBytes.ge
  | address a => exact a.toWord.length_toBytes.ge
  | function f =>
    rw [part, List.length_append, f.length_toBytes, Bytes.length_zeros]
    exact Nat.le_refl 32
  | bytes | string =>
    rw [part, length_counted]
    exact Nat.le_add_right 32 _
  | array =>
    rw [part, List.length_append, Bytes.length_ofNat]
    exact Nat.le_add_right 32 _
  | fixedArray each element ih => exact minWords_le_assemble_of_array ih
  | tuple arity each ih => exact minWords_le_assemble_of_tuple arity ih

/-! ## Reading values -/

open Abi Abi.Cursor

/-- Values that are read from their parts are read as a list, each by its type. -/
theorem reads_values {ts : List AbiType} {vs : List AbiValue} {levels : Nat}
    (arity : ts.length = vs.length)
    (each : ∀ x ∈ ts.zip vs, Reads (value room x.1) x.2 [x.2.part] levels) :
    Reads (values room ts) vs (parts vs) levels := by
  induction ts generalizing vs with
  | nil =>
    obtain rfl := List.length_eq_zero_iff.1 arity.symm
    exact reads_pure [] levels
  | cons t ts ih =>
    cases vs with
    | nil => cases arity
    | cons v vs =>
      have hv := each (t, v) List.mem_cons_self
      have hvs := ih (Nat.succ_inj.1 arity) fun x hx => each x (List.mem_cons_of_mem _ hx)
      exact hv.seq hvs (· :: ·)

/-- An array is read from its part, if its elements are. -/
theorem reads_array {t : AbiType} {vs : List AbiValue} (each : ∀ v ∈ vs, OfType room t v)
    (counted : t.minWords = 0 → vs.length < 2 ^ 64 ∧ vs.length * t.places ≤ room)
    (reads : ∀ v ∈ vs, Reads (value room t) v [v.part] t.nesting) :
    Reads (value room (.array t)) (.array vs) [(AbiValue.array vs).part] (t.nesting + 2) := by
  intro c ps offset after hfaces hdepth
  replace hfaces : c.Faces (⟨true, Bytes.ofNat 32 vs.length ++ Part.assemble (parts vs)⟩ :: ps)
    offset after := hfaces
  obtain ⟨more, hfollow, hshort, hfaces⟩ := hfaces.dynamic (by omega)
  refine ⟨_, ?_, hfaces⟩
  rw [List.length_append, Bytes.length_ofNat] at hshort
  have hwords := minWords_le_assemble_of_array fun v hv => (each v hv).minWords_le
  have hlength : vs.length < 2 ^ 64 := by
    by_cases hzero : t.minWords = 0
    · exact (counted hzero).1
    · have hle : vs.length ≤ vs.length * t.minWords :=
        Nat.le_mul_of_pos_right _ (Nat.pos_of_ne_zero hzero)
      omega
  -- Behind the count stand the elements.
  have hsize := size_of_rest (c := ⟨Bytes.ofNat 32 vs.length ++ Part.assemble (parts vs) ++ more,
    Bytes.ofNat 32 vs.length ++ Part.assemble (parts vs) ++ more, c.depth + 1⟩) hlength
    (List.append_assoc _ _ _)
  by_cases hempty : vs.length = 0
  · have hvs : AbiValue.array vs = .array [] := congrArg _ (List.length_eq_zero_iff.1 hempty)
    rw [hvs]
    simp only [value, hfollow, hsize, bind, Except.bind, pure, Except.pure, if_pos hempty]
  · have hhere : here ⟨Bytes.ofNat 32 vs.length ++ Part.assemble (parts vs) ++ more,
        Part.assemble (parts vs) ++ more, c.depth + 1⟩ =
        .ok ⟨Part.assemble (parts vs) ++ more, Part.assemble (parts vs) ++ more, c.depth + 2⟩ :=
      childOf_of_lt (by show c.depth + 1 < maxDepth; omega) _
    have hfull : ¬(Part.assemble (parts vs) ++ more).length / 32 < vs.length * t.minWords := by
      rw [List.length_append]
      omega
    have hroom : ¬(t.minWords = 0 ∧ room < vs.length * t.places) := fun h =>
      Nat.not_lt.2 (counted h.1).2 h.2
    have hread := (reads_repeated reads).of_assemble (by omega) more
      (show c.depth + 2 + t.nesting ≤ maxDepth by omega)
    simp only [value, hfollow, hsize, hhere, hread, bind, Except.bind, pure, Except.pure,
      if_neg hempty, if_neg hfull, if_neg hroom]

/-- A value of a type is read from its part. -/
theorem OfType.reads {t : AbiType} {v : AbiValue} (h : OfType room t v) :
    Reads (value room t) v [v.part] t.nesting := by
  induction h with
  | bool b =>
    have hbit : (if b then 1 else 0) < 256 ^ 32 := by split <;> decide
    have hread := reads_word (fun w => .bool !w.isZero) (FixedBytes.ofNat 32 (if b then 1 else 0))
    rw [FixedBytes.isZero_ofNat hbit] at hread
    cases b <;> exact hread
  | uint bits v =>
    have hread := reads_word (fun w => .uint w.toBitVec bits) (FixedBytes.ofNat 32 v.toNat)
    rwa [Word.toBitVec_ofNat] at hread
  | int bits v =>
    have hread := reads_word (fun w => .int w.toBitVec bits) (FixedBytes.ofNat 32 v.toNat)
    rwa [Word.toBitVec_ofNat] at hread
  | fixedBytes size w => exact reads_word (fun w => .fixedBytes w size) w
  | address a =>
    have hread := reads_word (fun w => .address (.ofBack 20 w.toBytes)) a.toWord
    rwa [Address.ofBack_toWord] at hread
  | function f =>
    have hread := reads_word (fun w => .function (.ofFront 24 w.toBytes))
      ⟨f.toBytes ++ Bytes.zeros 8, by rw [List.length_append, f.length_toBytes,
        Bytes.length_zeros]⟩
    rwa [FixedBytes.ofFront_append] at hread
  | bytes bs => exact (reads_counted bs).map AbiValue.bytes
  | string s =>
    have hread := (reads_counted (Hex.textBytes s)).map fun bs =>
      AbiValue.string (Utf8.decodeLossy bs)
    rwa [Utf8.decodeLossy_textBytes] at hread
  | array each counted ih => exact reads_array each counted ih
  | @fixedArray t vs each element ih =>
    have hdynamic : (parts vs).any Part.dynamic = t.isDynamic :=
      (OfType.fixedArray each element).dynamic_eq
    have hread := (reads_repeated ih).within.map AbiValue.fixedArray
    show Reads _ _ [⟨(parts vs).any Part.dynamic, Part.assemble (parts vs)⟩] _
    rw [hdynamic] at hread ⊢
    exact hread
  | @tuple ts vs arity each ih =>
    have hdynamic : (parts vs).any Part.dynamic = AbiType.anyDynamic ts :=
      (OfType.tuple arity each).dynamic_eq
    have hvalues := reads_values arity fun x hx =>
      (ih x hx).mono (AbiType.nesting_le_nestingAll (List.of_mem_zip hx).1)
    have hread := hvalues.within.map AbiValue.tuple
    show Reads _ _ [⟨(parts vs).any Part.dynamic, Part.assemble (parts vs)⟩] _
    rw [hdynamic] at hread ⊢
    exact hread

/-- The values of a parameter list are read back, whatever follows them, if their types nest not
too deep and there is room for what is made for the types.  Types that take no room have no
values. -/
theorem decodeWithin_encodeParams {ts : List AbiType} {vs : List AbiValue}
    (arity : ts.length = vs.length) (each : ∀ x ∈ ts.zip vs, OfType room x.1 x.2)
    (short : (encodeParams vs).length < 2 ^ 64) (depth : AbiType.nestingAll ts ≤ maxDepth)
    (places : AbiType.placesAll ts ≤ room) (more : Bytes) :
    decodeWithin room ts (encodeParams vs ++ more) =
      .ok (if AbiType.allEmpty ts then [] else vs) := by
  cases hempty : AbiType.allEmpty ts with
  | true =>
    rw [decodeWithin, if_pos hempty]
    rfl
  | false =>
    have hwords := minWords_le_assemble_of_tuple arity fun x hx => (each x hx).minWords_le
    have hfull : ¬(encodeParams vs ++ more).length / 32 < AbiType.minWordsAll ts := by
      rw [List.length_append, encodeParams]
      omega
    have hreads := reads_values arity fun x hx =>
      (each x hx).reads.mono (AbiType.nesting_le_nestingAll (List.of_mem_zip hx).1)
    have hread := hreads.of_assemble short more (show 0 + AbiType.nestingAll ts ≤ maxDepth by omega)
    rw [decodeWithin, hempty, if_neg nofun, if_neg hfull, if_neg (Nat.not_lt.2 places),
      Cursor.start, encodeParams, hread]
    rfl

/-- With nothing behind them and some type that takes room, the values themselves are read back. -/
theorem decodeParams_encodeParams {ts : List AbiType} {vs : List AbiValue}
    (arity : ts.length = vs.length) (each : ∀ x ∈ ts.zip vs, OfType maxPlaces x.1 x.2)
    (short : (encodeParams vs).length < 2 ^ 64) (depth : AbiType.nestingAll ts ≤ maxDepth)
    (places : AbiType.placesAll ts ≤ maxPlaces) (full : AbiType.allEmpty ts = false) :
    decodeParams ts (encodeParams vs) = .ok vs := by
  have hread := decodeWithin_encodeParams arity each short depth places []
  rw [List.append_nil, full] at hread
  exact hread

end AbiValue

end ContractReads
