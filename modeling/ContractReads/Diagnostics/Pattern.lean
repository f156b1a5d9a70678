import ContractReads.Text.Classes
import ContractReads.Text.Digits

/-!
# Patterns

A directive may ask for the value of a field by a pattern: a regular expression.
`Pattern.isWellFormed` says whether a text is one.

There are groups, alternatives, the repetitions `?`, `*` and `+`, classes between brackets,
escapes, and flags.  Classes and cases are known for ASCII only, so that named classes such as
`\d`, boundaries of words, and letters whose case does not matter need the flag `u` off.  What could
match a part of a character is refused.  A counted repetition needs a closing brace, which ends a
field, so there is none.

A pattern nests at most `maxNesting` deep: groups, repetitions and brackets are one deeper than what
is in them, and so are two or more parts, alternatives or members of a class side by side.
-/

namespace ContractReads.Diagnostics.Pattern

/-- The flags that decide what is well formed. -/
structure Flags where
  /-- Flag `i`: the case of letters does not matter. -/
  ignoreCase : Bool := false
  /-- Flag `u`: characters are matched, not bytes. -/
  unicode : Bool := true
  /-- Flag `x`: blanks do not matter, nor what follows a `#` on its line. -/
  spaced : Bool := false

/-- The text behind blanks and comments. -/
def skipSpaced : (inComment : Bool) → List Char → List Char
  | _, [] => []
  | true, c :: rest => skipSpaced (c != '\n') rest
  | false, c :: rest =>
    if c = '#' then skipSpaced true rest
    else if Text.isBlank c then skipSpaced false rest
    else c :: rest

/-- The text behind what does not matter. -/
def Flags.skip (f : Flags) (s : List Char) : List Char := if f.spaced then skipSpaced false s else s

/-- The text from the character on that tells whether a dash makes a range.  In a spaced pattern
this is the first that is no blank; one in a comment counts as well. -/
def Flags.lookAhead (f : Flags) (s : List Char) : List Char :=
  if f.spaced then
    match s.dropWhile Text.isBlank with
    | '#' :: rest => rest.dropWhile Text.isBlank
    | s => s
  else s

def maxNesting : Nat := 250

/-- How deep parts side by side nest, of how deep each does. -/
def joined : List Nat → Nat
  | [] => 0
  | [d] => d
  | ds => ds.foldl max 0 + 1

/-- Whether characters may be matched one by one. -/
def Flags.allowsLiteral (f : Flags) : Bool := !(f.unicode && f.ignoreCase)

/-! ## Escapes -/

/-- What a backslash and the text behind it stand for. -/
inductive Escape
  | char (code : Nat)
  /-- Two hexadecimal digits: a byte where bytes are matched. -/
  | byte (code : Nat)
  /-- Digits, blanks or the characters of words, or all others. -/
  | named (negated : Bool)
  /-- The start or the end of the text. -/
  | edge
  /-- A boundary of a word, or none. -/
  | wordEdge

/-- The number that so many hexadecimal digits spell. -/
def hexDigits? (f : Flags) : (count value : Nat) → List Char → Option (Nat × List Char)
  | 0, value, s => some (value, s)
  | count + 1, value, s =>
    match f.skip s with
    | [] => none
    | c :: rest => do
      let d ← Text.hexDigit? c
      hexDigits? f count (value * 16 + d) rest

/-- A character given by so many hexadecimal digits. -/
def code? (f : Flags) (count : Nat) (s : List Char) : Option (Escape × List Char) := do
  let (n, rest) ← hexDigits? f count 0 s
  if n.isValidChar then some (.char n, rest) else none

/-- The escape behind a backslash.  Other than the letters and digits with a meaning, all of ASCII
stands for itself. -/
def escape? (f : Flags) : List Char → Option (Escape × List Char)
  | [] => none
  | c :: rest =>
    match c with
    | 'x' => (hexDigits? f 2 0 rest).map fun (n, rest) => (.byte n, rest)
    | 'u' => code? f 4 rest
    | 'U' => code? f 8 rest
    | 'd' | 's' | 'w' => some (.named false, rest)
    | 'D' | 'S' | 'W' => some (.named true, rest)
    | 'a' => some (.char 7, rest)
    | 't' => some (.char 9, rest)
    | 'n' => some (.char 10, rest)
    | 'v' => some (.char 11, rest)
    | 'f' => some (.char 12, rest)
    | 'r' => some (.char 13, rest)
    | 'A' | 'z' => some (.edge, rest)
    | 'b' | 'B' | '<' | '>' => some (.wordEdge, rest)
    | _ => if c.isAlphanum || 128 ≤ c.toNat then none else some (.char c.toNat, rest)

/-- Whether an escape may stand in a pattern, outside of classes. -/
def Escape.isAllowed (f : Flags) : Escape → Bool
  | .char _ => f.allowsLiteral
  | .byte n => f.allowsLiteral && (f.unicode || n < 128)
  | .named negated => !f.unicode && !negated
  | .edge => true
  | .wordEdge => !f.unicode

/-! ## Classes -/

/-- Whether a character may be a member of a class, given by its code. -/
def Flags.allowsMember (f : Flags) (code : Nat) : Bool :=
  f.allowsLiteral && (f.unicode || code < 128)

/-- A member of a class: a character, by its code, or all of a named class. -/
inductive Member
  | char (code : Nat)
  | named

/-- The member that a text starts with. -/
def member? (f : Flags) : List Char → Option (Member × List Char)
  | [] => none
  | '\\' :: rest => do
    match ← escape? f rest with
    | (.char n, rest) | (.byte n, rest) =>
      if f.allowsMember n then some (.char n, rest) else none
    | (.named negated, rest) => if f.unicode || negated then none else some (.named, rest)
    | _ => none
  | c :: rest => if f.allowsMember c.toNat then some (.char c.toNat, rest) else none

/-- The text behind a member, or behind a range from one character up to another. -/
def range? (f : Flags) (s : List Char) : Option (List Char) := do
  let (first, rest) ← member? f s
  match f.skip rest with
  | '-' :: behind =>
    match f.lookAhead behind with
    | ']' :: _ | '-' :: _ => some ('-' :: behind)
    | _ =>
      match first, ← member? f (f.skip behind) with
      | .char a, (.char b, rest) => if a ≤ b then some rest else none
      | _, _ => none
  | rest => some rest

/-- The named classes of ASCII. -/
def classNames : List String :=
  ["alnum", "alpha", "ascii", "blank", "cntrl", "digit", "graph", "lower", "print", "punct",
    "space", "upper", "word", "xdigit"]

/-- A named class behind its opening bracket: whether it is negated, and the text behind. -/
def namedClass? : List Char → Option (Bool × List Char)
  | ':' :: rest =>
    let (negated, rest) := match rest with
      | '^' :: rest => (true, rest)
      | rest => (false, rest)
    match rest.dropWhile (· != ':') with
    | ':' :: ']' :: behind =>
      if classNames.contains (String.ofList (rest.takeWhile (· != ':'))) then some (negated, behind)
      else none
    | _ => none
  | _ => none

/-- A class that is not closed yet. -/
structure OpenClass where
  /-- How deep what stands before the last operator nests, if there is one. -/
  operand : Option Nat := none
  /-- How deep each member behind it nests. -/
  members : List Nat := []

/-- How deep the members and operators of a class nest. -/
def OpenClass.depth (c : OpenClass) : Nat :=
  match c.operand with
  | none => joined c.members
  | some d => max d (joined c.members) + 1

def OpenClass.push (c : OpenClass) (depth : Nat) : OpenClass :=
  { c with members := depth :: c.members }

def OpenClass.operator (c : OpenClass) : OpenClass := { operand := some c.depth }

/-- The dashes that a class starts with, and the text behind them. -/
def classDashes (f : Flags) : (fuel : Nat) → OpenClass → List Char → OpenClass × List Char
  | fuel + 1, c, '-' :: rest => classDashes f fuel (c.push 0) (f.skip rest)
  | _, c, s => (c, s)

/-- The start of a class, and the text behind it.  A caret negates the class; dashes, or else a
closing bracket stand for themselves there. -/
def classStart? (f : Flags) (s : List Char) : Option (OpenClass × List Char) :=
  let (negated, s) := match f.skip s with
    | '^' :: rest => (true, f.skip rest)
    | s => (false, s)
  if negated && !f.unicode then none
  else
    match s with
    | ']' :: rest => if f.allowsLiteral then some (OpenClass.push {} 0, rest) else none
    | '-' :: _ => if f.allowsLiteral then some (classDashes f s.length {} s) else none
    | s => some ({}, s)

/-- How deep a class nests, and the text behind it; `outer` are the classes around it.  Every step
takes a character. -/
def classRest? (f : Flags) : (fuel : Nat) → OpenClass → (outer : List OpenClass) → List Char →
    Option (Nat × List Char)
  | 0, _, _, _ => none
  | fuel + 1, c, outer, s =>
    match f.skip s with
    | '[' :: rest =>
      match namedClass? rest with
      | some (negated, rest) =>
        if (negated && !f.unicode) || !f.allowsLiteral then none
        else classRest? f fuel (c.push 0) outer rest
      | none => do
        let (inner, rest) ← classStart? f rest
        classRest? f fuel inner (c :: outer) rest
    | ']' :: rest =>
      match outer with
      | [] => some (c.depth + 1, rest)
      | around :: outer => classRest? f fuel (around.push (c.depth + 1)) outer rest
    | '&' :: '&' :: rest | '-' :: '-' :: rest | '~' :: '~' :: rest =>
      classRest? f fuel c.operator outer rest
    | s => do
      let rest ← range? f s
      classRest? f fuel (c.push 0) outer rest

/-- How deep a class nests, and the text behind it, of the text behind its opening bracket. -/
def class? (f : Flags) (s : List Char) : Option (Nat × List Char) := do
  let (c, rest) ← classStart? f s
  classRest? f (s.length + 1) c [] rest

/-! ## Groups and flags -/

/-- What stands before an open group: the flags, and how deep the parts and alternatives nest. -/
structure Before where
  flags : Flags
  parts : List Nat
  alternatives : List Nat

/-- What is known of a pattern up to some place. -/
structure Scan where
  flags : Flags := {}
  /-- How deep each part of the last alternative nests, the last first. -/
  parts : List Nat := []
  /-- How deep each alternative before it nests. -/
  alternatives : List Nat := []
  /-- Whether a repetition may follow. -/
  repeatable : Bool := false
  /-- What stands before each open group, the innermost first. -/
  outer : List Before := []
  names : List (List Char) := []

/-- How deep the innermost open group nests inside. -/
def Scan.depth (scan : Scan) : Nat := joined (joined scan.parts :: scan.alternatives)

/-- Behind one more part. -/
def Scan.push (scan : Scan) (depth : Nat) : Scan :=
  { scan with parts := depth :: scan.parts, repeatable := true }

def Scan.repeated? (scan : Scan) : Option Scan :=
  match scan.parts with
  | d :: ds => if scan.repeatable then some { scan with parts := (d + 1) :: ds } else none
  | [] => none

/-- Behind a bar. -/
def Scan.alternative (scan : Scan) : Scan :=
  { scan with
    parts := [], alternatives := joined scan.parts :: scan.alternatives, repeatable := false }

/-- Inside a group that starts here. -/
def Scan.inside (scan : Scan) : Scan :=
  { scan with
    parts := [], alternatives := [], repeatable := false
    outer := ⟨scan.flags, scan.parts, scan.alternatives⟩ :: scan.outer }

/-- Behind the group that ends here. -/
def Scan.close? (scan : Scan) : Option Scan :=
  match scan.outer with
  | ⟨flags, parts, alternatives⟩ :: outer =>
    some ({ scan with flags, parts, alternatives, outer }.push (scan.depth + 1))
  | [] => none

/-- The flags after a change such as `i-x`. -/
def Flags.change? (f : Flags) (text : List Char) : Option Flags :=
  let on := text.takeWhile (· != '-')
  let off := (text.dropWhile (· != '-')).drop 1
  let named := on ++ off
  if named.all "imsUuxR".toList.contains && named.eraseDups.length == named.length
      && text.getLast? != some '-' then
    let set (c : Char) (old : Bool) := on.contains c || (old && !off.contains c)
    some ⟨set 'i' f.ignoreCase, set 'u' f.unicode, set 'x' f.spaced⟩
  else none

def isGroupName : List Char → Bool
  | [] => false
  | c :: rest =>
    (c = '_' || Text.isLetter c)
      && rest.all fun c => c = '_' || c = '.' || c = '[' || c = ']' || Text.isAlphanumeric c

/-- A group that is named, of the text behind the angle bracket. -/
def Scan.nameGroup? (inside : Scan) (s : List Char) : Option (Scan × List Char) :=
  let name := s.takeWhile (· != '>')
  match s.dropWhile (· != '>') with
  | '>' :: rest =>
    if isGroupName name && !inside.names.contains name then
      some ({ inside with names := name :: inside.names }, rest)
    else none
  | _ => none

/-- What an opening parenthesis starts: a group, one with a name or with flags of its own, or a
change of the flags up to the end of the group around it. -/
def Scan.open? (scan : Scan) (s : List Char) : Option (Scan × List Char) :=
  match scan.flags.skip s with
  | '?' :: 'P' :: '<' :: rest | '?' :: '<' :: rest => scan.inside.nameGroup? rest
  | '?' :: rest =>
    let text := rest.takeWhile fun c => c != ':' && c != ')'
    match rest.dropWhile fun c => c != ':' && c != ')' with
    | ':' :: rest => (scan.flags.change? text).map fun f => ({ scan.inside with flags := f }, rest)
    | ')' :: rest =>
      if text.isEmpty then none
      else (scan.flags.change? text).map fun f =>
        ({ scan.push 0 with flags := f, repeatable := false }, rest)
    | _ => none
  | rest => some (scan.inside, rest)

/-- One character of a pattern and what belongs to it: a class, an escape, any character, an edge of
the text or of a line, or a character that stands for itself.  Gives how deep it nests, and the text
behind. -/
def atom? (f : Flags) (c : Char) (rest : List Char) : Option (Nat × List Char) :=
  match c with
  | '[' => class? f rest
  | '\\' => do
    let (e, rest) ← escape? f rest
    if e.isAllowed f then some (0, rest) else none
  | '.' => if f.unicode then some (0, rest) else none
  | '^' | '$' => some (0, rest)
  | _ => if f.allowsLiteral then some (0, rest) else none

/-- The text behind the mark of a repetition that takes as little as it can. -/
def skipLazy : List Char → List Char
  | '?' :: rest => rest
  | s => s

/-- Whether the rest of a pattern is well formed.  Every step takes a character. -/
def isRest : (fuel : Nat) → Scan → List Char → Bool
  | 0, _, _ => false
  | fuel + 1, scan, s =>
    match scan.flags.skip s with
    | [] => scan.outer.isEmpty && scan.depth ≤ maxNesting
    | '(' :: rest =>
      match scan.open? rest with
      | some (scan, rest) => isRest fuel scan rest
      | none => false
    | ')' :: rest =>
      match scan.close? with
      | some scan => isRest fuel scan rest
      | none => false
    | '|' :: rest => isRest fuel scan.alternative rest
    | '?' :: rest | '*' :: rest | '+' :: rest =>
      match scan.repeated? with
      | some scan => isRest fuel scan (skipLazy rest)
      | none => false
    | '\x7b' :: _ => false
    | c :: rest =>
      match atom? scan.flags c rest with
      | some (depth, rest) => isRest fuel (scan.push depth) rest
      | none => false

/-- Whether a text is a pattern. -/
def isWellFormed (s : List Char) : Bool := isRest (s.length + 1) {} s

end ContractReads.Diagnostics.Pattern
