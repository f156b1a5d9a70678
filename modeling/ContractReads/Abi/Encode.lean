import ContractReads.Abi.Value

/-!
# Encoding values

Each value becomes a part.  `Part.assemble` writes a list of parts: first their heads, then the
bodies of the dynamic ones.  The head of a static part is its body, that of a dynamic part the
offset of its body from the first head.  Encoding follows the value alone and checks nothing.
-/

namespace ContractReads

/-- A value on its way into a list of parts. -/
structure Part where
  /-- Whether the list's heads hold only an offset of the body. -/
  dynamic : Bool
  body : Bytes

namespace Part

/-- Bytes among the heads. -/
def headLength (p : Part) : Nat := if p.dynamic then 32 else p.body.length

/-- The heads, where the bodies of dynamic parts begin at `offset`. -/
def heads : (offset : Nat) → List Part → Bytes
  | _, [] => []
  | offset, p :: ps =>
    if p.dynamic then Bytes.ofNat 32 offset ++ heads (offset + p.body.length) ps
    else p.body ++ heads offset ps

/-- The bodies of the dynamic parts. -/
def tails : List Part → Bytes
  | [] => []
  | p :: ps => if p.dynamic then p.body ++ tails ps else tails ps

def headsLength : List Part → Nat
  | [] => 0
  | p :: ps => p.headLength + headsLength ps

def assemble (ps : List Part) : Bytes := heads (headsLength ps) ps ++ tails ps

end Part

/-- A byte string, filled up with zeros to a multiple of 32. -/
def Bytes.padded (bs : Bytes) : Bytes := bs ++ Bytes.zeros ((32 - bs.length % 32) % 32)

namespace AbiValue

/-- A length and the bytes, filled up. -/
def counted (bs : Bytes) : Bytes := Bytes.ofNat 32 bs.length ++ bs.padded

mutual

/-- The part that a value becomes. -/
def part : AbiValue → Part
  | bool b => ⟨false, Bytes.ofNat 32 (if b then 1 else 0)⟩
  | uint v _ => ⟨false, Bytes.ofNat 32 v.toNat⟩
  | int v _ => ⟨false, Bytes.ofNat 32 v.toNat⟩
  | fixedBytes w _ => ⟨false, w.toBytes⟩
  | address a => ⟨false, a.toWord.toBytes⟩
  | function f => ⟨false, f.toBytes ++ Bytes.zeros 8⟩
  | bytes bs => ⟨true, counted bs⟩
  | string s => ⟨true, counted (Hex.textBytes s)⟩
  | array vs => ⟨true, Bytes.ofNat 32 vs.length ++ Part.assemble (parts vs)⟩
  | fixedArray vs => ⟨(parts vs).any Part.dynamic, Part.assemble (parts vs)⟩
  | tuple vs => ⟨(parts vs).any Part.dynamic, Part.assemble (parts vs)⟩

def parts : List AbiValue → List Part
  | [] => []
  | v :: vs => v.part :: parts vs

end

def encodeParams (vs : List AbiValue) : Bytes := Part.assemble (parts vs)

end AbiValue

end ContractReads
