/-
How diagnostics show a value: a record by its name and its members, what may be
missing, and a list.
-/
import ClusterOutput.Text.Quoted

namespace ClusterOutput.Text

/-- A record. -/
def shownRecord (name : String) (members : List (String × String)) : String :=
  name ++ " \x7b " ++ ", ".intercalate (members.map fun m => m.1 ++ ": " ++ m.2) ++ " \x7d"

/-- What may be missing. -/
def shownOption : Option String → String
  | none => "None"
  | some text => "Some(" ++ text ++ ")"

/-- A list. -/
def shownList (items : List String) : String := "[" ++ ", ".intercalate items ++ "]"

end ClusterOutput.Text
