import ContractReads.Json.Basic

/-!
# Records

A record is written as an object, or as an array of its members in their order.  `Json.record?`
finds the members of a list of names in either.  Members that are not on the list do not matter;
one that is on it may stand only once.
-/

namespace ContractReads.Json

/-- How many members have a name. -/
def countMember (name : String) (members : List (String × Json)) : Nat :=
  members.countP fun m => m.1 = name

/-- The members of the names, in the order of the names; nothing where one is missing. -/
def record? (names : List String) : Json → Option (List (Option Json))
  | object members =>
    if names.all fun n => countMember n members ≤ 1 then
      some (names.map fun n => member? n members)
    else none
  | array items =>
    if items.length ≤ names.length then
      some (items.map some ++ List.replicate (names.length - items.length) none)
    else none
  | _ => none

/-- A member that must be there. -/
def required? {α : Type} (read : Json → Option α) (member : Option Json) : Option α :=
  member.bind read

/-- A member that may be missing, but not null. -/
def withDefault? {α : Type} (fallback : α) (read : Json → Option α) : Option Json → Option α
  | none => some fallback
  | some j => read j

/-- A member that may be missing or null. -/
def nullable? {α : Type} (read : Json → Option α) : Option Json → Option (Option α)
  | none => some none
  | some j => optional? read j

/-- A value that stands for one of several names: the name itself, or an object that gives null
for it. -/
def variant? : Json → Option String
  | string s => some s
  | object [(s, null)] => some s
  | _ => none

end ContractReads.Json
