import ContractReads.Diagnostics.Directive
import ContractReads.Json.Record

/-!
# Diagnostics

Which messages are logged: a level for all components, and levels for single ones.  The settings
are put into directives, a list of levels and `component=level` between commas, which are checked
when logging is installed.
-/

namespace ContractReads.Diagnostics

/-- Settings of the messages that are logged. -/
structure Config where
  /-- The level of components without one of their own. -/
  level : String := "info"
  /-- Levels of single components, sorted by name. -/
  components : List (String × String) := []
  /-- Whether messages are written as JSON. -/
  json : Bool := false
  /-- Whether messages are coloured. -/
  ansi : Bool := true
deriving DecidableEq, Repr, Inhabited

/-- Sets the level of a component. -/
def insertComponent (name level : String) : List (String × String) → List (String × String)
  | [] => [(name, level)]
  | (n, l) :: rest =>
    if name < n then (name, level) :: (n, l) :: rest
    else if name = n then (name, level) :: rest
    else (n, l) :: insertComponent name level rest

namespace Config

def withComponent (c : Config) (name level : String) : Config :=
  { c with components := insertComponent name level c.components }

def toJson (c : Config) : Json :=
  .object [("level", .string c.level),
    ("components", .object (c.components.map fun p => (p.1, .string p.2))),
    ("json", .bool c.json), ("ansi", .bool c.ansi)]

/-- The levels of components, given as an object. -/
def components? : Json → Option (List (String × String))
  | .object ms => do
    let pairs ← ms.mapM fun m => m.2.string?.map fun l => (m.1, l)
    return pairs.foldl (fun cs p => insertComponent p.1 p.2 cs) []
  | _ => none

def ofJson? (j : Json) : Option Config := do
  match ← j.record? ["level", "components", "json", "ansi"] with
  | [level, components, json, ansi] =>
    let c : Config := {}
    return {
      level := ← Json.withDefault? c.level Json.string? level
      components := ← Json.withDefault? c.components components? components
      json := ← Json.withDefault? c.json Json.bool? json
      ansi := ← Json.withDefault? c.ansi Json.bool? ansi }
  | _ => none

def directiveName (component : String) : String :=
  String.ofList (component.toList.map fun c => if c = '-' then '_' else c)

def directives (c : Config) : String :=
  ",".intercalate (c.level :: c.components.map fun p => directiveName p.1 ++ "=" ++ p.2)

end Config

/-! ## Installing -/

/-- Why logging is not installed. -/
inductive Error
  /-- A directive is none. -/
  | filter (directives : String)
  | alreadyInstalled
deriving DecidableEq, Repr

def Error.message : Error → String
  | .filter directives => "invalid log directives " ++ directives
  | .alreadyInstalled => "a global tracing subscriber is already installed"

/-- The directives of settings, if they are all well formed. -/
def Config.filter (c : Config) : Except Error String :=
  if accepts c.directives then .ok c.directives else .error (.filter c.directives)

/-- Installs logging, unless it is installed; the state says whether it is. -/
def install (c : Config) : ExceptT Error (StateM Bool) Unit := fun installed =>
  match c.filter with
  | .error e => (.error e, installed)
  | .ok _ => if installed then (.error .alreadyInstalled, true) else (.ok (), true)

end ContractReads.Diagnostics
