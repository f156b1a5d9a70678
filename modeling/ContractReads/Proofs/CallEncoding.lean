import ContractReads.Contract.Basic
import ContractReads.Proofs.AbiRoundTrip

/-!
# Calls that are read back

The bytes of a call are a selector and the arguments as a parameter list, fitted to the types of
the method.

* `coerce_ofType` says that a fitted argument is a value of its type, if it is built as the type
  asks for (`AbiType.WellBuilt`); fitting changes widths alone.
* `encodeCall_eq_ok` takes an encoded call apart.
* `decodeWithin_encodeCall` puts both together: behind the selector stand whole words, from which
  the fitted arguments are read back, whatever follows them.
-/

namespace ContractReads

namespace AbiType

mutual

/-- Whether the lists inside an argument are as a type asks for: a tuple has the components that
the type declares, a fixed array has an element, and an array of elements without words has no more
than can be counted and than there is room for. -/
def WellBuilt (room : Nat) : AbiType → AbiValue → Prop
  | array t, .array vs =>
    (t.minWords = 0 → vs.length < 2 ^ 64 ∧ vs.length * t.places ≤ room) ∧
      ∀ v ∈ vs, WellBuilt room t v
  | fixedArray t _, .fixedArray vs => vs ≠ [] ∧ ∀ v ∈ vs, WellBuilt room t v
  | tuple ts, .tuple vs => ts.length = vs.length ∧ WellBuiltEach room ts vs
  | _, _ => True

/-- Whether arguments are built as the types at their positions ask for. -/
def WellBuiltEach (room : Nat) : List AbiType → List AbiValue → Prop
  | t :: ts, v :: vs => WellBuilt room t v ∧ WellBuiltEach room ts vs
  | _, _ => True

end

theorem WellBuiltEach.of_mem {room : Nat} {ts : List AbiType} {vs : List AbiValue}
    (h : WellBuiltEach room ts vs) {x : AbiType × AbiValue} (hx : x ∈ ts.zip vs) :
    WellBuilt room x.1 x.2 := by
  induction ts generalizing vs with
  | nil => cases hx
  | cons t ts ih =>
    cases vs with
    | nil => cases hx
    | cons v vs =>
      rcases List.mem_cons.1 hx with rfl | hx
      · exact h.1
      · exact ih h.2 hx

end AbiType

/-- What comes in two steps comes in each of them. -/
theorem bind_eq_ok_iff {ε α β : Type} {x : Except ε α} {f : α → Except ε β} {b : β} :
    (x >>= f) = .ok b ↔ ∃ a, x = .ok a ∧ f a = .ok b := by
  cases x <;> simp [bind, Except.bind]

theorem map_eq_ok_iff {ε α β : Type} {x : Except ε α} {f : α → β} {b : β} :
    x.map f = .ok b ↔ ∃ a, x = .ok a ∧ b = f a := by
  cases x <;> simp [Except.map, eq_comm]

theorem mapError_eq_ok_iff {ε ε' α : Type} {x : Except ε α} {f : ε → ε'} {a : α} :
    x.mapError f = .ok a ↔ x = .ok a := by
  cases x <;> simp [Except.mapError]

/-! ## Fitting -/

namespace AbiValue

theorem eachOk_eq_ok {f : AbiValue → Except EncodingError AbiValue} {vs ws : List AbiValue}
    (h : eachOk f vs = .ok ws) : vs.map f = ws.map .ok := by
  induction vs generalizing ws with
  | nil =>
    cases h
    rfl
  | cons v vs ih =>
    obtain ⟨w, hw, h⟩ := bind_eq_ok_iff.1 h
    obtain ⟨ws, hws, h⟩ := bind_eq_ok_iff.1 h
    cases h
    rw [List.map_cons, List.map_cons, hw, ih hws]

theorem coerceEach_eq_ok {ts : List AbiType} {vs ws : List AbiValue}
    (h : coerceEach ts vs = .ok ws) :
    (ts.zip vs).map (fun x => coerce x.1 x.2) = ws.map .ok := by
  induction ts generalizing vs ws with
  | nil =>
    cases h
    rfl
  | cons t ts ih =>
    cases vs with
    | nil =>
      cases h
      rfl
    | cons v vs =>
      obtain ⟨w, hw, h⟩ := bind_eq_ok_iff.1 h
      obtain ⟨ws, hws, h⟩ := bind_eq_ok_iff.1 h
      cases h
      rw [List.zip_cons_cons, List.map_cons, List.map_cons, hw, ih hws]

/-- What is fitted entry by entry is of the types at its positions. -/
theorem ofType_of_map {room : Nat} {ts : List AbiType} {vs ws : List AbiValue}
    (arity : ts.length = vs.length)
    (fitted : (ts.zip vs).map (fun x => coerce x.1 x.2) = ws.map .ok)
    (each : ∀ x ∈ ts.zip vs, ∀ w, coerce x.1 x.2 = .ok w → OfType room x.1 w) :
    ts.length = ws.length ∧ ∀ x ∈ ts.zip ws, OfType room x.1 x.2 := by
  induction ts generalizing vs ws with
  | nil =>
    obtain rfl := List.map_eq_nil_iff.1 fitted.symm
    exact ⟨rfl, nofun⟩
  | cons t ts ih =>
    cases vs with
    | nil => cases arity
    | cons v vs =>
      cases ws with
      | nil => cases fitted
      | cons w ws =>
        rw [List.zip_cons_cons, List.map_cons, List.map_cons] at fitted
        obtain ⟨hw, hws⟩ := List.cons.inj fitted
        obtain ⟨hlength, hrest⟩ := ih (Nat.succ_inj.1 arity) hws fun x hx =>
          each x (List.mem_cons_of_mem _ hx)
        refine ⟨congrArg (· + 1) hlength, fun x hx => ?_⟩
        rcases List.mem_cons.1 hx with rfl | hx
        · exact each (t, v) List.mem_cons_self w hw
        · exact hrest x hx

/-- What is fitted to one type is of that type. -/
theorem ofType_of_map_array {room : Nat} {t : AbiType} {vs ws : List AbiValue}
    (fitted : vs.map (coerce t) = ws.map .ok)
    (each : ∀ v ∈ vs, ∀ w, coerce t v = .ok w → OfType room t w) : ∀ w ∈ ws, OfType room t w := by
  intro w hw
  have hmem : Except.ok w ∈ vs.map (coerce t) := fitted ▸ List.mem_map_of_mem hw
  obtain ⟨v, hv, hvw⟩ := List.mem_map.1 hmem
  exact each v hv w hvw

mutual

/-- A fitted argument is a value of its type. -/
theorem coerce_ofType {room : Nat} (t : AbiType) {v w : AbiValue} (h : coerce t v = .ok w)
    (built : t.WellBuilt room v) : OfType room t w := by
  cases t with
  | bool | address | function | bytes | string =>
    cases v <;> simp [coerce, AbiType.fits] at h
    subst h
    constructor
  | uint bits =>
    cases v <;> simp [coerce, AbiType.fits] at h
    split at h <;> cases h
    constructor
  | int bits =>
    cases v <;> simp [coerce, AbiType.fits] at h
    subst h
    constructor
  | fixedBytes size =>
    cases v <;> simp [coerce, AbiType.fits] at h
    subst h
    constructor
  | array t =>
    cases v with
    | array vs =>
      obtain ⟨ws, hws, rfl⟩ := map_eq_ok_iff.1 h
      have hfitted := eachOk_eq_ok hws
      have hlength : vs.length = ws.length := by simpa using congrArg List.length hfitted
      refine .array ?_ (hlength ▸ built.1)
      exact ofType_of_map_array hfitted fun v hv w hw => coerce_ofType t hw (built.2 v hv)
    | _ => simp [coerce, AbiType.fits] at h
  | fixedArray t n =>
    cases v with
    | fixedArray vs =>
      rw [coerce] at h
      split at h
      · rename_i hn
        obtain ⟨ws, hws, rfl⟩ := map_eq_ok_iff.1 h
        have hfitted := eachOk_eq_ok hws
        have hlength : vs.length = ws.length := by simpa using congrArg List.length hfitted
        rw [← hn, hlength]
        refine .fixedArray ?_ ?_
        · exact ofType_of_map_array hfitted fun v hv w hw => coerce_ofType t hw (built.2 v hv)
        · rintro rfl
          exact built.1 (List.length_eq_zero_iff.1 hlength)
      · cases h
    | _ => simp [coerce, AbiType.fits] at h
  | tuple ts =>
    cases v with
    | tuple vs =>
      obtain ⟨arity, each⟩ := built
      rw [coerce, if_pos arity] at h
      obtain ⟨ws, hws, rfl⟩ := map_eq_ok_iff.1 h
      obtain ⟨hlength, hvalues⟩ := ofType_of_map arity (coerceEach_eq_ok hws) fun x hx w hw =>
        coerce_ofType_mem ts x.1 (List.of_mem_zip hx).1 hw (each.of_mem hx)
      exact .tuple hlength hvalues
    | _ => simp [coerce, AbiType.fits] at h

theorem coerce_ofType_mem {room : Nat} (ts : List AbiType) (t : AbiType) (ht : t ∈ ts)
    {v w : AbiValue} (h : coerce t v = .ok w) (built : t.WellBuilt room v) : OfType room t w := by
  cases ts with
  | nil => cases ht
  | cons t' ts =>
    rcases List.mem_cons.1 ht with heq | ht
    · subst heq
      exact coerce_ofType _ h built
    · exact coerce_ofType_mem ts t ht h built

end

end AbiValue

/-! ## Calls -/

/-- Encoded values are read back from data that starts with them.  Types that take no room have no
values. -/
theorem decodeData_encodeParams_append {ts : List AbiType} {vs : List AbiValue}
    (arity : ts.length = vs.length)
    (each : ∀ x ∈ ts.zip vs, AbiValue.OfType Abi.maxPlaces x.1 x.2)
    (short : (AbiValue.encodeParams vs).length < 2 ^ 64)
    (depth : AbiType.nestingAll ts ≤ Abi.Cursor.maxDepth)
    (places : AbiType.placesAll ts ≤ Abi.maxPlaces) (more : Bytes) :
    decodeData ts (AbiValue.encodeParams vs ++ more) =
      .ok (if AbiType.allEmpty ts then [] else vs) := by
  rw [decodeData, Abi.decodeParams, AbiValue.decodeWithin_encodeParams arity each short depth places]

/-- Encoded values are read back from data. -/
theorem decodeData_encodeParams {ts : List AbiType} {vs : List AbiValue}
    (arity : ts.length = vs.length)
    (each : ∀ x ∈ ts.zip vs, AbiValue.OfType Abi.maxPlaces x.1 x.2)
    (short : (AbiValue.encodeParams vs).length < 2 ^ 64)
    (depth : AbiType.nestingAll ts ≤ Abi.Cursor.maxDepth)
    (places : AbiType.placesAll ts ≤ Abi.maxPlaces) (full : AbiType.allEmpty ts = false) :
    decodeData ts (AbiValue.encodeParams vs) = .ok vs := by
  rw [decodeData, AbiValue.decodeParams_encodeParams arity each short depth places full]

theorem Param.length_types {ps : List Param} {ts : List AbiType} (h : Param.types ps = .ok ts) :
    ts.length = ps.length := by
  induction ps generalizing ts with
  | nil =>
    cases h
    rfl
  | cons p ps ih =>
    obtain ⟨t, -, h⟩ := bind_eq_ok_iff.1 h
    obtain ⟨ts, hts, h⟩ := bind_eq_ok_iff.1 h
    cases h
    rw [List.length_cons, List.length_cons, ih hts]

/-- The type of a parameter without components is the one that its text names. -/
theorem Param.types_cons {name text : String} {t : AbiType} {ps : List Param} {ts : List AbiType}
    (ht : AbiType.ofText? text = some t) (hts : Param.types ps = .ok ts) :
    Param.types (⟨name, text, []⟩ :: ps) = .ok (t :: ts) := by
  have htype : Param.type ⟨name, text, []⟩ = .ok t := by rw [Param.type, Param.type?, ht]
  exact bind_eq_ok_iff.2 ⟨t, htype, bind_eq_ok_iff.2 ⟨ts, hts, rfl⟩⟩

theorem AbiType.ofText_uint256 : AbiType.ofText? "uint256" = some (.uint 256) := by cbv

namespace Function

theorem length_selector (f : Function) : f.selector.length = 4 := length_selectorOf _

/-- Arguments are fitted to the types at their positions. -/
theorem coerceArgs_eq_ok {name : String} {i : Nat} {ts : List AbiType} {vs ws : List AbiValue}
    (h : coerceArgs name i ts vs = .ok ws) :
    (ts.zip vs).map (fun x => AbiValue.coerce x.1 x.2) = ws.map .ok := by
  induction ts generalizing i vs ws with
  | nil =>
    cases h
    rfl
  | cons t ts ih =>
    cases vs with
    | nil =>
      cases h
      rfl
    | cons v vs =>
      rw [coerceArgs] at h
      split at h
      · cases h
      · rename_i w hw
        obtain ⟨ws, hws, rfl⟩ := map_eq_ok_iff.1 h
        rw [List.zip_cons_cons, List.map_cons, List.map_cons, hw, ih hws]

end Function

namespace Contract

/-- A function that is found takes so many arguments. -/
theorem length_inputs_of_function {c : Contract} {method : String} {arity : Nat} {f : Function}
    (h : c.function method arity = .ok f) : f.inputs.length = arity := by
  rw [function] at h
  split at h
  · cases h
  · split at h
    · rename_i hfind
      cases h
      simpa using List.find?_some hfind
    · cases h

/-- An encoded call is the selector of the function and the fitted arguments. -/
theorem encodeCall_eq_ok {c : Contract} {method : String} {args : List AbiValue} {data : Bytes}
    (h : c.encodeCall method args = .ok data) :
    ∃ f types values, c.function method args.length = .ok f ∧ Param.types f.inputs = .ok types ∧
      types.length = args.length ∧
      (types.zip args).map (fun x => AbiValue.coerce x.1 x.2) = values.map .ok ∧
      data = f.selector ++ AbiValue.encodeParams values := by
  obtain ⟨f, hf, h⟩ := bind_eq_ok_iff.1 h
  obtain ⟨types, htypes, h⟩ := bind_eq_ok_iff.1 h
  obtain ⟨values, hvalues, h⟩ := bind_eq_ok_iff.1 h
  cases h
  refine ⟨f, types, values, hf, htypes, ?_, Function.coerceArgs_eq_ok hvalues, rfl⟩
  rw [Param.length_types htypes, length_inputs_of_function hf]

/-- Every encoded call is a selector of four bytes and whole words behind it.  From these the
arguments are read back, fitted to the types of the method, whatever follows them: if they are built
as the types ask for, the bytes can be counted, the types nest no deeper than sixteen child cursors,
and there is room for what is made for the types.  Only where no type takes room there are no
values. -/
theorem decodeWithin_encodeCall {c : Contract} {method : String} {args : List AbiValue}
    {data : Bytes} (h : c.encodeCall method args = .ok data) :
    ∃ f types values, c.function method args.length = .ok f ∧ Param.types f.inputs = .ok types ∧
      types.length = args.length ∧
      (types.zip args).map (fun x => AbiValue.coerce x.1 x.2) = values.map .ok ∧
      data.take 4 = f.selector ∧ (∃ words, data.length = 4 + 32 * words) ∧
      ∀ room, AbiType.WellBuiltEach room types args → data.length < 2 ^ 64 →
        AbiType.nestingAll types ≤ 16 → AbiType.placesAll types ≤ room → ∀ more,
        Abi.decodeWithin room types (data.drop 4 ++ more) =
          .ok (if AbiType.allEmpty types then [] else values) := by
  obtain ⟨f, types, values, hf, htypes, arity, fitted, rfl⟩ := encodeCall_eq_ok h
  have hselector := f.length_selector
  refine ⟨f, types, values, hf, htypes, arity, fitted, List.take_left' hselector, ?_, ?_⟩
  · obtain ⟨words, hwords⟩ := AbiValue.dvd_length_encodeParams values
    exact ⟨words, by rw [List.length_append, hselector, hwords]⟩
  · intro room built short depth places more
    obtain ⟨hlength, hvalues⟩ := AbiValue.ofType_of_map arity fitted fun x hx w hw =>
      AbiValue.coerce_ofType x.1 hw (built.of_mem hx)
    rw [List.length_append] at short
    rw [List.drop_left' hselector]
    exact AbiValue.decodeWithin_encodeParams hlength hvalues (by omega) depth places more

/-- A contract with one method `f`, which takes one argument. -/
def taker (typeText : String) : Contract where
  name := "taker"
  address := default
  interface := ⟨[⟨"f", [⟨"a", typeText, []⟩], []⟩], []⟩

theorem function_taker (typeText : String) :
    (taker typeText).function "f" 1 = .ok ⟨"f", [⟨"a", typeText, []⟩], []⟩ := by
  simp [function, taker, Interface.overloads]

theorem types_taker {typeText : String} {t : AbiType} (h : AbiType.ofText? typeText = some t) :
    Param.types [⟨"a", typeText, []⟩] = .ok [t] :=
  Param.types_cons h rfl

/-- What `f` is sent for one argument. -/
theorem encodeCall_taker {typeText : String} {t : AbiType} {v w : AbiValue}
    (ht : AbiType.ofText? typeText = some t) (hw : AbiValue.coerce t v = .ok w) :
    (taker typeText).encodeCall "f" [v] =
      .ok (Function.selector ⟨"f", [⟨"a", typeText, []⟩], []⟩ ++ AbiValue.encodeParams [w]) := by
  rw [encodeCall, List.length_singleton, function_taker]
  simp [Function.encode, types_taker ht, Function.coerceArgs, hw, bind, Except.bind, pure,
    Except.pure, Except.map]

/-- A list of one pair, whose numbers are tagged with a width. -/
def onePair (bits : Nat) : AbiValue :=
  .array [.tuple [.bytes [1, 2, 3], .fixedArray [.uint 7 bits, .uint 8 bits]]]

/-- A dynamic array of tuples of byte strings and fixed arrays is read back with the declared
widths, in front of three more bytes. -/
theorem decodeWithin_encodeCall_onePair :
    ∃ data, (taker "(bytes,uint[2])[]").encodeCall "f" [onePair 8] = .ok data ∧
      Abi.decodeParams [.array (.tuple [.bytes, .fixedArray (.uint 256) 2])]
        (data.drop 4 ++ [1, 2, 3]) = .ok [onePair 256] := by
  have htype : AbiType.ofText? "(bytes,uint[2])[]" =
      some (.array (.tuple [.bytes, .fixedArray (.uint 256) 2])) := rfl
  have hcall := encodeCall_taker htype (v := onePair 8) (w := onePair 256) rfl
  refine ⟨_, hcall, ?_⟩
  obtain ⟨f, types, values, hf, htypes, -, hvalues, -, -, hread⟩ := decodeWithin_encodeCall hcall
  rw [List.length_singleton, function_taker] at hf
  cases hf
  rw [types_taker htype] at htypes
  cases htypes
  have hfitted : Except.ok (onePair 256) :: [] = values.map Except.ok := hvalues
  obtain ⟨w, rfl, hw⟩ := List.map_eq_singleton_iff.1 hfitted.symm
  cases hw
  refine hread Abi.maxPlaces ?_ ?_ (by decide) (by decide) [1, 2, 3]
  · simp [AbiType.WellBuiltEach, AbiType.WellBuilt, onePair, AbiType.minWords,
      AbiType.minWordsAll]
  · rw [List.length_append, Function.length_selector]
    decide +kernel

/-- An array of many flags in each element, and none of it. -/
def manyFlags : AbiType := .array (.fixedArray .bool (2 ^ 60))

/-- Not every argument is read back.  Where no type takes room there are no values, and where a
type asks for too much room there is an error, even if the array that it is the element of is
empty. -/
theorem decodeParams_encodeCall_ne :
    (∃ data, (taker "()").encodeCall "f" [.tuple []] = .ok data ∧ data.length = 4 ∧
      AbiType.ofText? "()" = some (.tuple []) ∧
      AbiValue.coerce (.tuple []) (.tuple []) = .ok (.tuple []) ∧
      AbiType.WellBuilt 0 (.tuple []) (.tuple []) ∧ (AbiType.tuple []).nesting ≤ 16 ∧
      Abi.decodeParams [.tuple []] (data.drop 4) = .ok [] ∧ [] ≠ [AbiValue.tuple []]) ∧
    ∃ data, (taker "bool[1152921504606846976][]").encodeCall "f" [.array []] = .ok data ∧
      data.length = 68 ∧ AbiType.ofText? "bool[1152921504606846976][]" = some manyFlags ∧
      AbiValue.coerce manyFlags (.array []) = .ok (.array []) ∧
      AbiType.WellBuilt 0 manyFlags (.array []) ∧ manyFlags.nesting ≤ 16 ∧
      Abi.decodeParams [manyFlags] (data.drop 4) = .error .tooLong := by
  have hempty : AbiType.ofText? "()" = some (.tuple []) := rfl
  have hmany : AbiType.ofText? "bool[1152921504606846976][]" = some manyFlags := rfl
  refine ⟨⟨_, encodeCall_taker hempty rfl, ?_, hempty, rfl, ⟨rfl, trivial⟩, by decide, ?_, nofun⟩,
    _, encodeCall_taker hmany rfl, ?_, hmany, rfl, ⟨?_, nofun⟩, by decide, ?_⟩
  · rw [List.length_append, Function.length_selector]
    rfl
  · rfl
  · rw [List.length_append, Function.length_selector]
    rfl
  · intro hzero
    cases hzero
  · rw [List.drop_left' (Function.length_selector _), Abi.decodeParams, Abi.decodeWithin,
      if_neg (by decide), if_neg (by decide +kernel), if_pos (by decide +kernel)]

end Contract

end ContractReads
