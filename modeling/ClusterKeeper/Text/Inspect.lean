/-
# Values shown for inspection

How a value is shown in a log: a record by its name and its fields in braces, an optional
value as `Some` or `None`.
-/

import ClusterKeeper.Text.Quoted

namespace ClusterKeeper.Text

/-- A record by its name and the texts of its fields. -/
def inspectRecord (name : String) (fields : List (String × String)) : String :=
  name ++ " \x7b " ++ ", ".intercalate (fields.map fun f => f.1 ++ ": " ++ f.2) ++ " \x7d"

/-- An optional value by the text of its content. -/
def inspectOption {α : Type} (content : α → String) : Option α → String
  | none => "None"
  | some x => "Some(" ++ content x ++ ")"

/-- A truth value. -/
def inspectBool (b : Bool) : String := if b then "true" else "false"

end ClusterKeeper.Text
