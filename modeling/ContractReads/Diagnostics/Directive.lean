import ContractReads.Diagnostics.Pattern

/-!
# Directives

A directive says what is logged: a level, or a target, a span between brackets with fields between
braces, and a level behind `=`.  Whether a text is one is found by a walk through its characters,
one `Stage` after another.

Blanks around a directive are left out of the walk, but not of the text that the places in it count
from: with blanks in front, levels and fields are cut that far to the left.
-/

namespace ContractReads.Diagnostics

def levels : List String := ["off", "error", "warn", "info", "debug", "trace"]

/-- Whether a text is a level: a name in any case, or a number up to five, before which a plus may
stand. -/
def isLevel (s : String) : Bool :=
  let ds := match s.toList with
    | '+' :: ds => ds
    | ds => ds
  levels.contains s.toLower ||
    (ds ≠ [] && ds.all Char.isDigit &&
      ds.foldl (fun n c => min 6 (n * 10 + Text.digitValue c)) 0 ≤ 5)

/-- Whether a text is a number without a sign: digits, with a point or an exponent. -/
def isUnsigned (s : List Char) : Bool :=
  let digits := s.takeWhile fun c => c.isDigit || c = '.'
  digits.any Char.isDigit && digits.count '.' ≤ 1 &&
    match s.drop digits.length with
    | [] => true
    | 'e' :: ds | 'E' :: ds =>
      let ds := match ds with
        | '+' :: ds | '-' :: ds => ds
        | ds => ds
      ds ≠ [] && ds.all Char.isDigit
    | _ => false

/-- Whether a text is a number behind a plus.  Other numbers are patterns. -/
def isPlusNumber : List Char → Bool
  | '+' :: s =>
    isUnsigned s || ["inf", "infinity", "nan"].contains (String.ofList s).toLower
  | _ => false

/-- Whether a text is a field: a name, or a name and behind `=` a number or a pattern.  What stands
behind another `=` does not matter. -/
def isField (s : String) : Bool :=
  s ≠ "" && match s.splitOn "=" with
    | _ :: value :: _ => isPlusNumber value.toList || Pattern.isWellFormed value.toList
    | _ => true

def isTargetStart (c : Char) : Bool := c = '_' || c = ':' || c = '-' || Text.isAlphanumeric c

/-- Which part of a directive is being read, and where it starts. -/
inductive Stage
  | front
  /-- A target, or a level alone. -/
  | target
  /-- The name of a span. -/
  | span
  | field (start : Nat)
  /-- Behind the fields. -/
  | fieldsEnd
  /-- Behind the span. -/
  | spanEnd
  /-- A level behind `=`. -/
  | level (start : Nat)

/-- The stage behind the character `c` at `place`, if it may stand there; `cut` gives the text from
one place up to another. -/
def Stage.next? (cut : Nat → Nat → Option String) (place : Nat) (c : Char) : Stage → Option Stage
  | front => if c = '[' then some span else if isTargetStart c then some target else none
  | target => some (if c = '=' then level (place + 1) else if c = '[' then span else target)
  | span => some (if c = ']' then spanEnd else if c = '\x7b' then field (place + 1) else span)
  | field start =>
    if c = '\x7d' then if (cut start place).any isField then some fieldsEnd else none
    else some (field start)
  | fieldsEnd => if c = ']' then some spanEnd else none
  | spanEnd => if c = '=' then some (level (place + 1)) else none
  | level start => some (level start)

/-- Whether a directive may end; a level may be left out behind its `=`. -/
def Stage.mayEnd (cut : Nat → Nat → Option String) (size : Nat) : Stage → Bool
  | target | spanEnd => true
  | level start => (cut start size).any fun s => s = "" || isLevel s
  | _ => false

/-- The stage behind a text whose first character stands at `place`. -/
def Stage.after? (cut : Nat → Nat → Option String) :
    (place : Nat) → Stage → List Char → Option Stage
  | _, stage, [] => some stage
  | place, stage, c :: rest => do
    let stage ← stage.next? cut place c
    stage.after? cut (place + c.utf8Size) rest

/-- The text without the blanks around it. -/
def withoutBlanks (s : List Char) : List Char :=
  ((s.dropWhile Text.isBlank).reverse.dropWhile Text.isBlank).reverse

def isDirective (s : String) : Bool :=
  let bytes := s.toUTF8
  let cut (i j : Nat) := String.fromUTF8? (bytes.extract i j)
  match Stage.front.after? cut 0 (withoutBlanks s.toList) with
  | some stage => stage.mayEnd cut bytes.size
  | none => false

/-- Whether every directive between the commas is one; empty ones do not matter. -/
def accepts (directives : String) : Bool :=
  (directives.splitOn ",").all fun d => d = "" || isDirective d

end ContractReads.Diagnostics
