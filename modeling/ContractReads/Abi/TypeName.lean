import ContractReads.Abi.Type
import ContractReads.Text.Digits

/-!
# Names of types

`TypeName.ofText?` reads the text of a type: a name, or a list of types in parentheses, with any
number of suffixes `[]` and `[k]`.  The word `tuple` may stand before the parentheses, and blanks
inside them, before a type and before the closing one.  Types nest at most `maxNesting` deep.
Whether a name is that of a type is asked only by `resolve?`.
-/

namespace ContractReads

/-- The text of a type, taken apart. -/
inductive TypeName
  | named (name : String)
  | tuple (components : List TypeName)
  | array (element : TypeName)
  | fixedArray (element : TypeName) (length : Nat)
deriving Inhabited

namespace TypeName

def isNameStart (c : Char) : Bool := c.isAlpha || c = '_' || c = '$'

def isNameRest (c : Char) : Bool := c.isAlphanum || c = '_' || c = '$'

/-- Whether a text is a letter, `_` or `$`, then letters, digits, `_` and `$`. -/
def isIdentifier (s : String) : Bool :=
  match s.toList with
  | [] => false
  | c :: cs => isNameStart c && cs.all isNameRest

/-- A name that a text starts with, and the text behind: an identifier, which a dot and the name
of a member may follow. -/
def name? : List Char → Option (String × List Char)
  | [] => none
  | c :: cs =>
    if isNameStart c then
      let owner := c :: cs.takeWhile isNameRest
      match cs.dropWhile isNameRest with
      | '.' :: d :: rest =>
        if isNameStart d then
          some (String.ofList (owner ++ '.' :: d :: rest.takeWhile isNameRest),
            rest.dropWhile isNameRest)
        else some (String.ofList (owner ++ ['.']), d :: rest)
      | ['.'] => some (String.ofList (owner ++ ['.']), [])
      | rest => some (String.ofList owner, rest)
    else none

/-- The text behind its leading spaces and tabs. -/
def skipBlanks (s : List Char) : List Char := s.dropWhile fun c => c = ' ' || c = '\t'

/-- The text behind an opening parenthesis, before which `tuple` may stand. -/
def opened? : List Char → Option (List Char)
  | '(' :: rest | 't' :: 'u' :: 'p' :: 'l' :: 'e' :: '(' :: rest => some rest
  | _ => none

/-- One suffix: the length between the brackets, if there is one, and the text behind. -/
def suffix? : List Char → Option (Option Nat × List Char)
  | '[' :: ']' :: rest => some (none, rest)
  | '[' :: rest =>
    let ds := rest.takeWhile Char.isDigit
    match rest.dropWhile Char.isDigit with
    | ']' :: rest =>
      let n := Text.digitsValue ds
      if ds ≠ [] ∧ 1 ≤ n ∧ n < UInt64.size then some (some n, rest) else none
    | _ => none
  | _ => none

def withSuffix (t : TypeName) : Option Nat → TypeName
  | none => array t
  | some n => fixedArray t n

/-- At most `fuel` suffixes behind a type. -/
def suffixes? : (fuel : Nat) → TypeName → List Char → Option (TypeName × List Char)
  | fuel + 1, t, '[' :: rest =>
    match suffix? ('[' :: rest) with
    | some (n, rest) => suffixes? fuel (t.withSuffix n) rest
    | none => none
  | _, t, rest => some (t, rest)

/-- The types up to a closing parenthesis, each read by `front?`; a comma may stand behind the last
one.  Every step takes a character. -/
def components? (front? : List Char → Option (TypeName × List Char)) :
    (fuel : Nat) → List Char → Option (List TypeName × List Char)
  | 0, _ => none
  | fuel + 1, s =>
    match skipBlanks s with
    | ')' :: rest => some ([], rest)
    | s => do
      let (t, rest) ← front? s
      match rest with
      | ',' :: rest => (components? front? fuel rest).map fun (ts, rest) => (t :: ts, rest)
      | rest =>
        match skipBlanks rest with
        | ')' :: rest => some ([t], rest)
        | _ => none

/-- The type that a text starts with, if it nests at most `depth` deep. -/
def front? : (depth : Nat) → List Char → Option (TypeName × List Char)
  | 0, _ => none
  | depth + 1, s =>
    match opened? s with
    | some rest => do
      let (ts, rest) ← components? (front? depth) (rest.length + 1) rest
      suffixes? rest.length (.tuple ts) rest
    | none => do
      let (name, rest) ← name? s
      suffixes? rest.length (.named name) rest

def maxNesting : Nat := 80

/-- The type that a whole text names. -/
def ofText? (s : String) : Option TypeName :=
  match front? maxNesting s.toList with
  | some (t, []) => some t
  | _ => none

/-- A width behind a name: a whole number of bytes up to 256 bits. -/
def width? (ds : List Char) : Option Nat :=
  let n := Text.digitsValue ds
  if ds ≠ [] ∧ ds.all Char.isDigit ∧ n ≠ 0 ∧ n ≤ 256 ∧ n % 8 = 0 then some n else none

/-- The type of a name without suffixes.  A name with a dot is an enumeration, kept in a byte. -/
def basic? (name : String) : Option AbiType :=
  match name with
  | "bool" => some .bool
  | "address" => some .address
  | "function" => some .function
  | "bytes" => some .bytes
  | "string" => some .string
  | "uint" => some (.uint 256)
  | "int" => some (.int 256)
  | _ =>
    if name.contains '.' then some (.uint 8)
    else match name.toList with
      | 'u' :: 'i' :: 'n' :: 't' :: ds => (width? ds).map .uint
      | 'i' :: 'n' :: 't' :: ds => (width? ds).map .int
      | 'b' :: 'y' :: 't' :: 'e' :: 's' :: ds =>
        let n := Text.digitsValue ds
        if ds ≠ [] ∧ ds.all Char.isDigit ∧ n ≠ 0 ∧ n ≤ 32 then some (.fixedBytes n) else none
      | _ => none

mutual

/-- The type of a name; nothing where some name is not that of a type. -/
def resolve? : TypeName → Option AbiType
  | named name => basic? name
  | tuple ts => (resolveAll? ts).map .tuple
  | array t => t.resolve?.map .array
  | fixedArray t n => t.resolve?.map (.fixedArray · n)

def resolveAll? : List TypeName → Option (List AbiType)
  | [] => some []
  | t :: ts => do
    let t ← t.resolve?
    let ts ← resolveAll? ts
    return t :: ts

end

/-- The suffixes of a name put behind another type. -/
def wrap : TypeName → AbiType → AbiType
  | array t, inner => .array (t.wrap inner)
  | fixedArray t n, inner => .fixedArray (t.wrap inner) n
  | _, inner => inner

end TypeName

def AbiType.ofText? (s : String) : Option AbiType := (TypeName.ofText? s).bind TypeName.resolve?

end ContractReads
