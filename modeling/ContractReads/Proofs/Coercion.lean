import ContractReads.Proofs.CallEncoding

/-!
# What fitting does to a value

`AbiValue.Coerces` says what fitting a value to a type can do, case by case, and `coerce_eq_ok_iff`
that it does this and nothing else.  All further lemmas are inductions on `Coerces`.

* `Coerces.untagged_eq` and `Coerces.part_eq`: only widths change, so that nothing changes in what
  is encoded.
* `Coerces.coerces_self`: a value that was fitted stays as it is.
* `exists_coerces` says which values can be fitted, by what is true `Throughout` them.
* `coerce_retags` puts these together.
-/

namespace ContractReads

namespace AbiValue

/-! ## The relation -/

/-- A value is fitted to a type, with a result.  The components of composite values stand in a
list, together with what they come to and, in a tuple, with their types.  A tuple that has more or
fewer components than the type is not changed at all. -/
inductive Coerces : AbiType → AbiValue → AbiValue → Prop
  | bool (b : Bool) : Coerces .bool (.bool b) (.bool b)
  | uint {bits : Nat} {v : BitVec 256} (tag : Nat) (fits : bits < 256 → v.toNat < 2 ^ bits) :
    Coerces (.uint bits) (.uint v tag) (.uint v bits)
  | int (bits : Nat) (v : BitVec 256) (tag : Nat) :
    Coerces (.int bits) (.int v tag) (.int v bits)
  | fixedBytes (size : Nat) (w : Word) (tag : Nat) :
    Coerces (.fixedBytes size) (.fixedBytes w tag) (.fixedBytes w size)
  | address (a : Address) : Coerces .address (.address a) (.address a)
  | function (f : FunctionPointer) : Coerces .function (.function f) (.function f)
  | bytes (bs : Bytes) : Coerces .bytes (.bytes bs) (.bytes bs)
  | string (s : String) : Coerces .string (.string s) (.string s)
  | array {t : AbiType} {xs : List (AbiValue × AbiValue)}
    (each : ∀ x ∈ xs, Coerces t x.1 x.2) :
    Coerces (.array t) (.array (xs.map Prod.fst)) (.array (xs.map Prod.snd))
  | fixedArray {t : AbiType} {xs : List (AbiValue × AbiValue)}
    (each : ∀ x ∈ xs, Coerces t x.1 x.2) :
    Coerces (.fixedArray t xs.length) (.fixedArray (xs.map Prod.fst))
      (.fixedArray (xs.map Prod.snd))
  | tuple {xs : List (AbiType × AbiValue × AbiValue)}
    (each : ∀ x ∈ xs, Coerces x.1 x.2.1 x.2.2) :
    Coerces (.tuple (xs.map fun x => x.1)) (.tuple (xs.map fun x => x.2.1))
      (.tuple (xs.map fun x => x.2.2))
  | otherArity {ts : List AbiType} {vs : List AbiValue} (arity : ts.length ≠ vs.length)
    (fits : (AbiType.tuple ts).fits (.tuple vs) = true) :
    Coerces (.tuple ts) (.tuple vs) (.tuple vs)

/-- Two lists that agree entry by entry are one list of pairs. -/
theorem exists_pairs {α β γ : Type} {f : α → γ} {g : β → γ} {as : List α} {bs : List β}
    (h : as.map f = bs.map g) :
    ∃ xs : List (α × β), xs.map Prod.fst = as ∧ xs.map Prod.snd = bs ∧
      ∀ x ∈ xs, f x.1 = g x.2 := by
  induction as generalizing bs with
  | nil =>
    obtain rfl := List.map_eq_nil_iff.1 h.symm
    exact ⟨[], rfl, rfl, nofun⟩
  | cons a as ih =>
    obtain ⟨b, bs, rfl, hab, hrest⟩ := List.map_eq_cons_iff.1 h.symm
    obtain ⟨xs, rfl, rfl, each⟩ := ih hrest.symm
    exact ⟨(a, b) :: xs, rfl, rfl, List.forall_mem_cons.2 ⟨hab.symm, each⟩⟩

theorem coerces_array {t : AbiType} {vs ws : List AbiValue}
    (each : ∀ v w, coerce t v = .ok w → Coerces t v w)
    (h : eachOk (coerce t) vs = .ok ws) :
    ∃ xs : List (AbiValue × AbiValue), xs.map Prod.fst = vs ∧ xs.map Prod.snd = ws ∧
      ∀ x ∈ xs, Coerces t x.1 x.2 := by
  obtain ⟨xs, rfl, rfl, hxs⟩ := exists_pairs (eachOk_eq_ok h)
  exact ⟨xs, rfl, rfl, fun x hx => each _ _ (hxs x hx)⟩

mutual

/-- What `coerce` gives is a result of the type. -/
theorem coerces_of_coerce (t : AbiType) {v w : AbiValue} (h : coerce t v = .ok w) :
    Coerces t v w := by
  cases t with
  | bool | address | function | bytes | string =>
    cases v <;> simp [coerce, AbiType.fits] at h
    subst h
    constructor
  | uint bits =>
    cases v <;> simp [coerce, AbiType.fits] at h
    rename_i v tag
    split at h <;> cases h
    rename_i hfits
    refine .uint tag fun hbits => ?_
    rw [Nat.one_shiftLeft] at hfits
    omega
  | int bits =>
    cases v <;> simp [coerce, AbiType.fits] at h
    subst h
    exact .int bits _ _
  | fixedBytes size =>
    cases v <;> simp [coerce, AbiType.fits] at h
    subst h
    exact .fixedBytes size _ _
  | array t =>
    cases v with
    | array vs =>
      obtain ⟨ws, hws, rfl⟩ := map_eq_ok_iff.1 h
      obtain ⟨xs, rfl, rfl, each⟩ := coerces_array (fun _ _ => coerces_of_coerce t) hws
      exact .array each
    | _ => simp [coerce, AbiType.fits] at h
  | fixedArray t n =>
    cases v with
    | fixedArray vs =>
      rw [coerce] at h
      split at h
      · rename_i hn
        obtain ⟨ws, hws, rfl⟩ := map_eq_ok_iff.1 h
        obtain ⟨xs, rfl, rfl, each⟩ := coerces_array (fun _ _ => coerces_of_coerce t) hws
        rw [← hn, List.length_map]
        exact .fixedArray each
      · cases h
    | _ => simp [coerce, AbiType.fits] at h
  | tuple ts =>
    cases v with
    | tuple vs =>
      rw [coerce] at h
      split at h
      · rename_i arity
        obtain ⟨ws, hfitted, rfl⟩ := map_eq_ok_iff.1 h
        obtain ⟨xs, hts, hvs, hws, each⟩ := coerces_of_coerceEach ts arity hfitted
        rw [← hts, ← hvs, ← hws]
        exact .tuple each
      · rename_i arity
        split at h <;> cases h
        rename_i hfits
        exact .otherArity arity hfits
    | _ => simp [coerce, AbiType.fits] at h

theorem coerces_of_coerceEach (ts : List AbiType) {vs ws : List AbiValue}
    (arity : ts.length = vs.length) (h : coerceEach ts vs = .ok ws) :
    ∃ xs : List (AbiType × AbiValue × AbiValue), xs.map (fun x => x.1) = ts ∧
      xs.map (fun x => x.2.1) = vs ∧ xs.map (fun x => x.2.2) = ws ∧
      ∀ x ∈ xs, Coerces x.1 x.2.1 x.2.2 := by
  cases ts with
  | nil =>
    obtain rfl := List.length_eq_zero_iff.1 arity.symm
    cases h
    exact ⟨[], rfl, rfl, rfl, nofun⟩
  | cons t ts =>
    cases vs with
    | nil => cases arity
    | cons v vs =>
      obtain ⟨w, hw, h⟩ := bind_eq_ok_iff.1 h
      obtain ⟨ws, hws, h⟩ := bind_eq_ok_iff.1 h
      cases h
      obtain ⟨xs, hts, hvs, hws, each⟩ := coerces_of_coerceEach ts (Nat.succ_inj.1 arity) hws
      refine ⟨(t, v, w) :: xs, congrArg _ hts, congrArg _ hvs, congrArg _ hws, ?_⟩
      exact List.forall_mem_cons.2 ⟨coerces_of_coerce t hw, each⟩

end

theorem eachOk_of_pairs {f : AbiValue → Except EncodingError AbiValue}
    {xs : List (AbiValue × AbiValue)} (each : ∀ x ∈ xs, f x.1 = .ok x.2) :
    eachOk f (xs.map Prod.fst) = .ok (xs.map Prod.snd) := by
  induction xs with
  | nil => rfl
  | cons x xs ih =>
    obtain ⟨hx, hxs⟩ := List.forall_mem_cons.1 each
    simp only [List.map_cons, eachOk, hx, ih hxs, bind, Except.bind]
    rfl

theorem coerceEach_of_triples {xs : List (AbiType × AbiValue × AbiValue)}
    (each : ∀ x ∈ xs, coerce x.1 x.2.1 = .ok x.2.2) :
    coerceEach (xs.map fun x => x.1) (xs.map fun x => x.2.1) = .ok (xs.map fun x => x.2.2) := by
  induction xs with
  | nil => rfl
  | cons x xs ih =>
    obtain ⟨hx, hxs⟩ := List.forall_mem_cons.1 each
    simp only [List.map_cons, coerceEach, hx, ih hxs, bind, Except.bind]
    rfl

/-- `coerce` gives every result of the type. -/
theorem coerce_of_coerces {t : AbiType} {v w : AbiValue} (h : Coerces t v w) :
    coerce t v = .ok w := by
  induction h with
  | bool | int | fixedBytes | address | function | bytes | string => rfl
  | @uint bits v tag fits =>
    rw [coerce, if_neg]
    rintro ⟨hbits, hlarge⟩
    rw [Nat.one_shiftLeft] at hlarge
    exact Nat.not_le.2 (fits hbits) hlarge
  | array each ih => rw [coerce, eachOk_of_pairs ih, Except.map]
  | fixedArray each ih => rw [coerce, if_pos (List.length_map _), eachOk_of_pairs ih, Except.map]
  | tuple each ih =>
    rw [coerce, if_pos (by rw [List.length_map, List.length_map]), coerceEach_of_triples ih,
      Except.map]
  | otherArity arity fits => rw [coerce, if_neg arity, if_pos fits]

/-- Everything that fitting does. -/
theorem coerce_eq_ok_iff {t : AbiType} {v w : AbiValue} : coerce t v = .ok w ↔ Coerces t v w :=
  ⟨coerces_of_coerce t, coerce_of_coerces⟩

/-! ## Widths alone change -/

mutual

/-- The value without the widths that it is tagged with. -/
def untagged : AbiValue → AbiValue
  | uint v _ => uint v 0
  | int v _ => int v 0
  | fixedBytes w _ => fixedBytes w 0
  | array vs => array (untaggedAll vs)
  | fixedArray vs => fixedArray (untaggedAll vs)
  | tuple vs => tuple (untaggedAll vs)
  | v => v

def untaggedAll : List AbiValue → List AbiValue
  | [] => []
  | v :: vs => v.untagged :: untaggedAll vs

end

theorem untaggedAll_eq_map (vs : List AbiValue) : untaggedAll vs = vs.map untagged := by
  induction vs with
  | nil => rfl
  | cons v vs ih => rw [untaggedAll, ih, List.map_cons]

/-- Without widths, a value is the same before and after. -/
theorem Coerces.untagged_eq {t : AbiType} {v w : AbiValue} (h : Coerces t v w) :
    w.untagged = v.untagged := by
  induction h with
  | bool | uint | int | fixedBytes | address | function | bytes | string | otherArity => rfl
  | array each ih | fixedArray each ih | tuple each ih =>
    simp only [untagged, untaggedAll_eq_map, List.map_map]
    exact congrArg _ (List.map_congr_left ih)

mutual

/-- Widths are not encoded. -/
theorem part_untagged : (v : AbiValue) → v.untagged.part = v.part
  | bool _ | uint _ _ | int _ _ | fixedBytes _ _ | address _ | function _ | bytes _ | string _ => rfl
  | array vs => by
    rw [untagged, part, part, parts_untaggedAll vs, untaggedAll_eq_map, List.length_map]
  | fixedArray vs | tuple vs => by rw [untagged, part, part, parts_untaggedAll vs]

theorem parts_untaggedAll : (vs : List AbiValue) → parts (untaggedAll vs) = parts vs
  | [] => rfl
  | v :: vs => by rw [untaggedAll, parts, parts, part_untagged v, parts_untaggedAll vs]

end

/-- A value is encoded as it was before. -/
theorem Coerces.part_eq {t : AbiType} {v w : AbiValue} (h : Coerces t v w) : w.part = v.part := by
  rw [← part_untagged w, h.untagged_eq, part_untagged v]

/-- One value in place of another, at any depth of a third. -/
inductive Replaced (v w : AbiValue) : AbiValue → AbiValue → Prop
  | here : Replaced v w v w
  | array (before after : List AbiValue) {a b : AbiValue} (inside : Replaced v w a b) :
    Replaced v w (.array (before ++ a :: after)) (.array (before ++ b :: after))
  | fixedArray (before after : List AbiValue) {a b : AbiValue} (inside : Replaced v w a b) :
    Replaced v w (.fixedArray (before ++ a :: after)) (.fixedArray (before ++ b :: after))
  | tuple (before after : List AbiValue) {a b : AbiValue} (inside : Replaced v w a b) :
    Replaced v w (.tuple (before ++ a :: after)) (.tuple (before ++ b :: after))

theorem parts_replaced {a b : AbiValue} (h : b.part = a.part) (before after : List AbiValue) :
    parts (before ++ b :: after) = parts (before ++ a :: after) := by
  simp only [parts_eq_map, List.map_append, List.map_cons, h]

/-- Values of the same part can stand for each other, wherever they are. -/
theorem Replaced.part_eq {v w a b : AbiValue} (h : Replaced v w a b) (same : w.part = v.part) :
    b.part = a.part := by
  induction h with
  | here => exact same
  | array before after inside ih =>
    simp only [part, parts_replaced ih, List.length_append, List.length_cons]
  | fixedArray before after inside ih | tuple before after inside ih =>
    simp only [part, parts_replaced ih]

/-- A value that was fitted to a type fits it as it is. -/
theorem Coerces.coerces_self {t : AbiType} {v w : AbiValue} (h : Coerces t v w) : Coerces t w w := by
  induction h with
  | bool b => exact .bool b
  | uint tag fits => exact .uint _ fits
  | int bits v tag => exact .int bits v bits
  | fixedBytes size w tag => exact .fixedBytes size w size
  | address a => exact .address a
  | function f => exact .function f
  | bytes bs => exact .bytes bs
  | string s => exact .string s
  | @array t xs each ih =>
    have h := @Coerces.array t (xs.map fun x => (x.2, x.2)) (List.forall_mem_map.2 ih)
    rwa [List.map_map, List.map_map] at h
  | @fixedArray t xs each ih =>
    have h := @Coerces.fixedArray t (xs.map fun x => (x.2, x.2)) (List.forall_mem_map.2 ih)
    rwa [List.map_map, List.map_map, List.length_map] at h
  | @tuple xs each ih =>
    have h := @Coerces.tuple (xs.map fun x => (x.1, x.2.2, x.2.2)) (List.forall_mem_map.2 ih)
    rwa [List.map_map, List.map_map, List.map_map] at h
  | otherArity arity fits => exact .otherArity arity fits

/-! ## What can be fitted -/

mutual

/-- Something is true of a type and a value, and of all types and values at the same place inside
them. -/
def Throughout (p : AbiType → AbiValue → Prop) : AbiType → AbiValue → Prop
  | .array t, .array vs => p (.array t) (.array vs) ∧ ∀ v ∈ vs, Throughout p t v
  | .fixedArray t n, .fixedArray vs =>
    p (.fixedArray t n) (.fixedArray vs) ∧ ∀ v ∈ vs, Throughout p t v
  | .tuple ts, .tuple vs => p (.tuple ts) (.tuple vs) ∧ ThroughoutEach p ts vs
  | t, v => p t v

def ThroughoutEach (p : AbiType → AbiValue → Prop) : List AbiType → List AbiValue → Prop
  | t :: ts, v :: vs => Throughout p t v ∧ ThroughoutEach p ts vs
  | _, _ => True

end

/-- A value is of the kind of a type, and has as many elements or components as the type
declares. -/
def SameKind : AbiType → AbiValue → Prop
  | .bool, .bool _ | .uint _, .uint _ _ | .int _, .int _ _ | .fixedBytes _, .fixedBytes _ _
  | .address, .address _ | .function, .function _ | .bytes, .bytes _ | .string, .string _
  | .array _, .array _ => True
  | .fixedArray _ n, .fixedArray vs => vs.length = n
  | .tuple ts, .tuple vs => ts.length = vs.length
  | _, _ => False

/-- An unsigned number is below the bound that the width of its type sets. -/
def UnsignedFits : AbiType → AbiValue → Prop
  | .uint bits, .uint v _ => bits < 256 → v.toNat < 2 ^ bits
  | _, _ => True

/-- A value of the kind of a type, the widths it is tagged with aside. -/
def Acceptable (t : AbiType) (v : AbiValue) : Prop := SameKind t v ∧ UnsignedFits t v

theorem exists_coerces_of_forall {t : AbiType} {vs : List AbiValue}
    (h : ∀ v ∈ vs, ∃ w, Coerces t v w) :
    ∃ xs : List (AbiValue × AbiValue), xs.map Prod.fst = vs ∧ ∀ x ∈ xs, Coerces t x.1 x.2 := by
  induction vs with
  | nil => exact ⟨[], rfl, nofun⟩
  | cons v vs ih =>
    obtain ⟨⟨w, hw⟩, hvs⟩ := List.forall_mem_cons.1 h
    obtain ⟨xs, rfl, each⟩ := ih hvs
    exact ⟨(v, w) :: xs, rfl, List.forall_mem_cons.2 ⟨hw, each⟩⟩

mutual

/-- Values of the shape of a type whose unsigned numbers fit can be fitted. -/
theorem exists_coerces (t : AbiType) {v : AbiValue} (h : Throughout Acceptable t v) :
    ∃ w, Coerces t v w := by
  cases t with
  | bool | address | function | bytes | string =>
    cases v <;> try exact h.1.elim
    exact ⟨_, by constructor⟩
  | uint bits =>
    cases v <;> try exact h.1.elim
    exact ⟨_, .uint _ h.2⟩
  | int bits =>
    cases v <;> try exact h.1.elim
    exact ⟨_, .int bits _ _⟩
  | fixedBytes size =>
    cases v <;> try exact h.1.elim
    exact ⟨_, .fixedBytes size _ _⟩
  | array t =>
    cases v with
    | array vs =>
      obtain ⟨xs, rfl, each⟩ := exists_coerces_of_forall fun v hv => exists_coerces t (h.2 v hv)
      exact ⟨_, .array each⟩
    | _ => exact h.1.elim
  | fixedArray t n =>
    cases v with
    | fixedArray vs =>
      obtain ⟨⟨hlength, -⟩, helements⟩ := h
      obtain ⟨xs, rfl, each⟩ := exists_coerces_of_forall fun v hv =>
        exists_coerces t (helements v hv)
      have hlength : xs.length = n := (List.length_map _).symm.trans hlength
      subst hlength
      exact ⟨_, .fixedArray each⟩
    | _ => exact h.1.elim
  | tuple ts =>
    cases v with
    | tuple vs =>
      obtain ⟨⟨arity, -⟩, hcomponents⟩ := h
      obtain ⟨xs, hts, hvs, each⟩ := exists_coercesEach ts arity hcomponents
      rw [← hts, ← hvs]
      exact ⟨_, .tuple each⟩
    | _ => exact h.1.elim

theorem exists_coercesEach (ts : List AbiType) {vs : List AbiValue}
    (arity : ts.length = vs.length) (h : ThroughoutEach Acceptable ts vs) :
    ∃ xs : List (AbiType × AbiValue × AbiValue), xs.map (fun x => x.1) = ts ∧
      xs.map (fun x => x.2.1) = vs ∧ ∀ x ∈ xs, Coerces x.1 x.2.1 x.2.2 := by
  cases ts with
  | nil =>
    obtain rfl := List.length_eq_zero_iff.1 arity.symm
    exact ⟨[], rfl, rfl, nofun⟩
  | cons t ts =>
    cases vs with
    | nil => cases arity
    | cons v vs =>
      obtain ⟨w, hw⟩ := exists_coerces t h.1
      obtain ⟨xs, hts, hvs, each⟩ := exists_coercesEach ts (Nat.succ_inj.1 arity) h.2
      refine ⟨(t, v, w) :: xs, congrArg _ hts, congrArg _ hvs, ?_⟩
      exact List.forall_mem_cons.2 ⟨hw, each⟩

end

/-- Fitting only changes widths.  What comes of a value equals it without widths, is encoded as it
wherever it stands in its place, and stays as it is when it is fitted again; and every value of the
shape of the type is taken, whatever widths it is tagged with, if its unsigned numbers fit. -/
theorem coerce_retags (t : AbiType) (v : AbiValue) :
    (∀ w, coerce t v = .ok w →
      w.untagged = v.untagged ∧
      (∀ a b, Replaced v w a b → ∀ before after,
        encodeParams (before ++ b :: after) = encodeParams (before ++ a :: after)) ∧
      coerce t w = .ok w) ∧
    (Throughout Acceptable t v → ∃ w, coerce t v = .ok w) := by
  refine ⟨fun w h => ?_, fun h => ?_⟩
  · have hcoerces := coerce_eq_ok_iff.1 h
    refine ⟨hcoerces.untagged_eq, fun a b hreplaced before after => ?_, ?_⟩
    · have hpart := hreplaced.part_eq hcoerces.part_eq
      rw [encodeParams, encodeParams, parts_replaced hpart]
    · exact coerce_of_coerces hcoerces.coerces_self
  · obtain ⟨w, hw⟩ := exists_coerces t h
    exact ⟨w, coerce_of_coerces hw⟩

/-- A pair of a byte string and two bytes in a list is tagged with their width.  Behind a flag, the
list is encoded as before, and tagged once more it is the same. -/
theorem coerce_retags_onePair :
    coerce (.array (.tuple [.bytes, .fixedArray (.uint 8) 2])) (Contract.onePair 256) =
        .ok (Contract.onePair 8) ∧
      encodeParams [.bool true, .fixedArray [Contract.onePair 8]] =
        encodeParams [.bool true, .fixedArray [Contract.onePair 256]] ∧
      coerce (.array (.tuple [.bytes, .fixedArray (.uint 8) 2])) (Contract.onePair 8) =
        .ok (Contract.onePair 8) := by
  have hshape : Throughout Acceptable (.array (.tuple [.bytes, .fixedArray (.uint 8) 2]))
      (Contract.onePair 256) := by
    simp [Contract.onePair, Throughout, ThroughoutEach, Acceptable, SameKind, UnsignedFits]
  obtain ⟨hretags, hexists⟩ :=
    coerce_retags (.array (.tuple [.bytes, .fixedArray (.uint 8) 2])) (Contract.onePair 256)
  obtain ⟨w, hw⟩ := hexists hshape
  obtain rfl : Contract.onePair 8 = w := Except.ok.inj hw
  obtain ⟨-, hencoded, hself⟩ := hretags _ hw
  exact ⟨hw, hencoded _ _ (.fixedArray [] [] .here) [.bool true] [], hself⟩

end AbiValue

end ContractReads
