import ContractReads.Json.Token

/-!
# Reading JSON text

`Json.ofText?` reads the tokens of a text one at a time.  What is open at a moment is a stack of
frames, the innermost first; each token either opens a frame, adds to the innermost one, or
closes it.  Arrays and objects nest at most 127 deep.
-/

namespace ContractReads.Json

/-- An array or object that is not closed yet.  What it holds so far is listed last first. -/
inductive Frame
  | array (items : List Json)
  /-- The members, and the name of the member whose value comes next. -/
  | object (members : List (String × Json)) (name : String)

/-- What the next token may be. -/
inductive Expect
  | value
  /-- A value, or the end of the array just opened. -/
  | firstItem
  /-- A name; the frame waiting for it is not on the stack. -/
  | name (members : List (String × Json))
  /-- A name, or the end of the object just opened. -/
  | firstName
  /-- A colon behind a name. -/
  | colon (members : List (String × Json)) (name : String)
  /-- A comma or an end, behind a value. -/
  | separator (value : Json)

/-- How far a text has been read. -/
structure Reading where
  stack : List Frame
  expect : Expect

def maxDepth : Nat := 127

/-- A value where one is expected. -/
def Reading.push (r : Reading) (t : Token) : Option Reading :=
  match t with
  | .scalar v => some ⟨r.stack, .separator v⟩
  | .openArray =>
    if r.stack.length < maxDepth then some ⟨.array [] :: r.stack, .firstItem⟩ else none
  | .openObject =>
    if r.stack.length < maxDepth then some ⟨.object [] "" :: r.stack, .firstName⟩ else none
  | _ => none

/-- The innermost frame takes one token. -/
def Reading.step (r : Reading) (t : Token) : Option Reading :=
  match r.expect, t, r.stack with
  | .firstItem, .closeArray, .array _ :: stack => some ⟨stack, .separator (.array [])⟩
  | .firstItem, t, _ => r.push t
  | .value, t, _ => r.push t
  | .firstName, .closeObject, _ :: stack => some ⟨stack, .separator (.object [])⟩
  | .firstName, .scalar (.string n), _ :: stack => some ⟨stack, .colon [] n⟩
  | .name ms, .scalar (.string n), stack => some ⟨stack, .colon ms n⟩
  | .colon ms n, .colon, stack => some ⟨.object ms n :: stack, .value⟩
  | .separator v, .comma, .array xs :: stack => some ⟨.array (v :: xs) :: stack, .value⟩
  | .separator v, .closeArray, .array xs :: stack =>
    some ⟨stack, .separator (.array (v :: xs).reverse)⟩
  | .separator v, .comma, .object ms n :: stack => some ⟨stack, .name ((n, v) :: ms)⟩
  | .separator v, .closeObject, .object ms n :: stack =>
    some ⟨stack, .separator (.object ((n, v) :: ms).reverse)⟩
  | _, _, _ => none

/-- The value that a list of tokens spells. -/
def ofTokens? (ts : List Token) : Option Json :=
  match ts.foldlM Reading.step ⟨[], .value⟩ with
  | some ⟨[], .separator v⟩ => some v
  | _ => none

/-- The value that a text spells; objects keep their members as they stand. -/
def ofText? (s : String) : Option Json := (Token.ofChars? s.toList).bind ofTokens?

end ContractReads.Json
