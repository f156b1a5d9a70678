import ContractReads.Text.Quoted

/-!
# Named fields

How a record is shown inside a message: its name, and its fields between braces.
-/

namespace ContractReads.Text

def optional {α : Type} (f : α → String) : Option α → String
  | none => "None"
  | some a => "Some(" ++ f a ++ ")"

def field (f : String × String) : String := f.1 ++ ": " ++ f.2

/-- A record with all its fields. -/
def fields (name : String) (fs : List (String × String)) : String :=
  name ++ " \x7b " ++ ", ".intercalate (fs.map field) ++ " \x7d"

/-- A record that has more fields than are shown. -/
def someFields (name : String) (fs : List (String × String)) : String :=
  name ++ " \x7b " ++ ", ".intercalate (fs.map field ++ [".."]) ++ " \x7d"

/-- A list between brackets. -/
def items (xs : List String) : String := "[" ++ ", ".intercalate xs ++ "]"

end ContractReads.Text
