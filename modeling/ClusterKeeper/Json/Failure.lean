/-
# Why a document cannot be read

Reading goes once through the text and stops at the first fault. The text may be malformed,
it may end too early, or a part that is well formed so far may not fit what is wanted in
its place.
-/

import ClusterKeeper.Json.Text
import ClusterKeeper.Text.Quoted

namespace ClusterKeeper.Json

/-- What was found where something else was wanted. -/
inductive Found where
  | null
  | bool (b : Bool)
  | integer (i : Int)
  | double (x : Binary64)
  | string (s : String)
  | array
  | object
  deriving DecidableEq, Repr

/-- Why a part of a document does not fit. -/
inductive Misfit where
  | missingField (name : String)
  | duplicateField (name : String)
  | wrongType (found : Found) (wanted : String)
  | wrongValue (found : Found) (wanted : String)
  /-- An array stands for a record and ends before a member that cannot be left out. -/
  | wrongLength (length : Nat) (record : String) (members : Nat)
  | unknownVariant (name : String) (variants : List String)
  deriving DecidableEq, Repr

/-- Why a document cannot be read. -/
inductive Failure where
  | malformed
  | truncated
  | misfit (m : Misfit)
  deriving DecidableEq, Repr

/-- How a thing that was found is named. -/
def Found.text : Found → String
  | .null => "null"
  | .bool true => "boolean `true`"
  | .bool false => "boolean `false`"
  | .integer i => "integer `" ++ toString i ++ "`"
  | .double x => "floating point `" ++ String.ofList x.text ++ "`"
  | .string s => "string " ++ Text.quoted s
  | .array => "sequence"
  | .object => "map"

/-- A choice of names in backquotes. -/
def choiceText (names : List String) : String :=
  let ticked := names.map fun n => "`" ++ n ++ "`"
  match ticked with
  | [] => "there are no variants"
  | [a] => "expected " ++ a
  | [a, b] => "expected " ++ a ++ " or " ++ b
  | _ => "expected one of " ++ ", ".intercalate ticked

/-- The message for a part that does not fit. -/
def Misfit.message : Misfit → String
  | .missingField f => "missing field `" ++ f ++ "`"
  | .duplicateField f => "duplicate field `" ++ f ++ "`"
  | .wrongType found wanted => "invalid type: " ++ found.text ++ ", expected " ++ wanted
  | .wrongValue found wanted => "invalid value: " ++ found.text ++ ", expected " ++ wanted
  | .wrongLength n record members =>
    "invalid length " ++ toString n ++ ", expected struct " ++ record ++ " with "
      ++ toString members ++ (if members = 1 then " element" else " elements")
  | .unknownVariant name variants =>
    "unknown variant `" ++ name ++ "`, " ++ choiceText variants

/-- The message of a failure. -/
def Failure.message : Failure → String
  | .malformed => "malformed document"
  | .truncated => "document ends too early"
  | .misfit m => m.message

end ClusterKeeper.Json
