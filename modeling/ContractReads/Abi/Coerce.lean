import ContractReads.Error

/-!
# Fitting values to declared types

Arguments are built with default widths.  `AbiValue.coerce` tags them with the widths that a type
declares, and refuses a value of another kind or an unsigned number that is too wide.
-/

namespace ContractReads

namespace AbiType

mutual

/-- Whether a value is of a type as it stands, widths included.  Of a tuple only the components
that both the type and the value have are compared. -/
def fits : AbiType → AbiValue → Bool
  | .bool, .bool _ => true
  | .uint n, .uint _ m => n == m
  | .int n, .int _ m => n == m
  | .fixedBytes n, .fixedBytes _ m => n == m
  | .address, .address _ => true
  | .function, .function _ => true
  | .bytes, .bytes _ => true
  | .string, .string _ => true
  | .array t, .array vs => fitAll t vs
  | .fixedArray t n, .fixedArray vs => vs.length == n && fitAll t vs
  | .tuple ts, .tuple vs => fitEach ts vs
  | _, _ => false

/-- Whether all values are of one type. -/
def fitAll (t : AbiType) : List AbiValue → Bool
  | [] => true
  | v :: vs => t.fits v && fitAll t vs

/-- Whether values are of the types at their positions. -/
def fitEach : List AbiType → List AbiValue → Bool
  | t :: ts, v :: vs => t.fits v && fitEach ts vs
  | _, _ => true

end

end AbiType

namespace AbiValue

/-- The values that `f` gives, up to its first refusal. -/
def eachOk (f : AbiValue → Except EncodingError AbiValue) :
    List AbiValue → Except EncodingError (List AbiValue)
  | [] => .ok []
  | v :: vs => do
    let w ← f v
    let ws ← eachOk f vs
    return w :: ws

mutual

/-- The value with the widths that the type declares. -/
def coerce : AbiType → AbiValue → Except EncodingError AbiValue
  | .uint bits, .uint v _ =>
    if bits < 256 ∧ 1 <<< bits ≤ v.toNat then
      .error (.tooLarge v.toNat ("uint" ++ toString bits))
    else .ok (.uint v bits)
  | .int bits, .int v _ => .ok (.int v bits)
  | .fixedBytes size, .fixedBytes w _ => .ok (.fixedBytes w size)
  | .array t, .array vs => (eachOk (coerce t) vs).map .array
  | .fixedArray t n, .fixedArray vs =>
    if vs.length = n then (eachOk (coerce t) vs).map .fixedArray
    else .error (.mismatch (.fixedArray vs) (.fixedArray t n))
  | .tuple ts, .tuple vs =>
    if ts.length = vs.length then (coerceEach ts vs).map .tuple
    else if (AbiType.tuple ts).fits (.tuple vs) then .ok (.tuple vs)
    else .error (.mismatch (.tuple vs) (.tuple ts))
  | t, v => if t.fits v then .ok v else .error (.mismatch v t)

/-- Each value with the widths of the type at its position. -/
def coerceEach : List AbiType → List AbiValue → Except EncodingError (List AbiValue)
  | t :: ts, v :: vs => do
    let w ← coerce t v
    let ws ← coerceEach ts vs
    return w :: ws
  | _, _ => .ok []

end

end AbiValue

end ContractReads
