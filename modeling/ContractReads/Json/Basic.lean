import ContractReads.Decimal.Shortest

/-!
# JSON values

Numbers are whole (from `-2 ^ 63` to `2 ^ 64 - 1`) or doubles, and the two are never equal: `1`
and `1.0` differ.  Objects keep their members in order; `canonical` sorts them by name and keeps
the last of those with one name.
-/

namespace ContractReads

inductive Json
  | null
  | bool (value : Bool)
  | whole (value : Int)
  /-- A double, given by its bits. -/
  | double (bits : UInt64)
  | string (value : String)
  | array (items : List Json)
  | object (members : List (String × Json))
deriving Inhabited

namespace Json

/-- A whole number. -/
def ofNat (n : Nat) : Json := whole n

/-- A whole number of 64 bits. -/
def ofUInt64 (n : UInt64) : Json := whole n.toNat

/-- The value of an optional one; nothing is null. -/
def ofOption {α : Type} (f : α → Json) : Option α → Json
  | some a => f a
  | none => null

/-- The items' values. -/
def ofList {α : Type} (f : α → Json) (xs : List α) : Json := array (xs.map f)

/-- The last member of a name. -/
def member? (name : String) : List (String × Json) → Option Json
  | [] => none
  | (n, v) :: rest =>
    match member? name rest with
    | some w => some w
    | none => if n = name then some v else none

/-- The member of a name; null if there is none. -/
def get (j : Json) (name : String) : Json :=
  match j with
  | object members => (member? name members).getD null
  | _ => null

def isNull : Json → Bool
  | null => true
  | _ => false

def string? : Json → Option String
  | string s => some s
  | _ => none

def bool? : Json → Option Bool
  | bool b => some b
  | _ => none

def array? : Json → Option (List Json)
  | array xs => some xs
  | _ => none

def uint64? : Json → Option UInt64
  | whole n => if 0 ≤ n ∧ n.toNat < UInt64.size then some (UInt64.ofNat n.toNat) else none
  | _ => none

def uint32? : Json → Option UInt32
  | whole n => if 0 ≤ n ∧ n.toNat < UInt32.size then some (UInt32.ofNat n.toNat) else none
  | _ => none

def int64? : Json → Option Int64
  | whole n =>
    if Int64.minValue.toInt ≤ n ∧ n ≤ Int64.maxValue.toInt then some (Int64.ofInt n) else none
  | _ => none

/-- A size: a whole number of 64 bits, as a natural number. -/
def size? (j : Json) : Option Nat := j.uint64?.map UInt64.toNat

/-- Null is nothing; else the value has to be read. -/
def optional? {α : Type} (read : Json → Option α) : Json → Option (Option α)
  | null => some none
  | j => (read j).map some

/-- Puts a member into a list sorted by name; a member of the same name gives way. -/
def insertMember (name : String) (value : Json) : List (String × Json) → List (String × Json)
  | [] => [(name, value)]
  | (n, v) :: rest =>
    if name < n then (name, value) :: (n, v) :: rest
    else if name = n then (name, value) :: rest
    else (n, v) :: insertMember name value rest

mutual

/-- The same value with every object's members sorted by name, the last of one name kept. -/
def canonical : Json → Json
  | array xs => array (canonicalItems xs)
  | object ms => object (canonicalMembers [] ms)
  | j => j

def canonicalItems : List Json → List Json
  | [] => []
  | x :: xs => canonical x :: canonicalItems xs

/-- The canonical members, put into those that came before. -/
def canonicalMembers (before : List (String × Json)) : List (String × Json) → List (String × Json)
  | [] => before
  | (n, v) :: rest => canonicalMembers (insertMember n (canonical v) before) rest

end

end Json

end ContractReads
