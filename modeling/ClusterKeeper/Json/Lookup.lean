/-
# Looking into documents

What a document holds under a name. Each function has an answer for every document: what is
missing is empty, and so is what is of another type.
-/

import ClusterKeeper.Json.Tree

namespace ClusterKeeper.Json.Lookup

/-- The first member of a name, `null` if there is none. -/
def field (t : Tree) (name : String) : Tree :=
  match t with
  | .object ms => (ms.lookup name).getD .null
  | _ => .null

/-- Whether there is a member of a name. -/
def has (t : Tree) (name : String) : Bool :=
  match t with
  | .object ms => (ms.lookup name).isSome
  | _ => false

/-- The text of a string. -/
def asString? : Tree → Option String
  | .string s => some s
  | _ => none

/-- The value of a whole number. -/
def asInt? : Tree → Option Int
  | .number n => n.int?
  | _ => none

/-- The items of an array. -/
def asList : Tree → List Tree
  | .array ts => ts
  | _ => []

/-- A member that is a string. -/
def text? (t : Tree) (name : String) : Option String := asString? (field t name)

/-- A member that is a string, or the empty string. -/
def text (t : Tree) (name : String) : String := (text? t name).getD ""

/-- A member that is a whole number. -/
def int? (t : Tree) (name : String) : Option Int := asInt? (field t name)

/-- A member that is a whole number, or zero if it is less. -/
def nat? (t : Tree) (name : String) : Option Nat := (int? t name).map Int.toNat

/-- A member that is a natural number, or zero. -/
def nat (t : Tree) (name : String) : Nat := (nat? t name).getD 0

/-- Whether a member is true. -/
def isTrue (t : Tree) (name : String) : Bool := field t name == .bool true

/-- The items of a member that is an array. -/
def items (t : Tree) (name : String) : List Tree := asList (field t name)

/-- The members of a member that is an object. -/
def members (t : Tree) (name : String) : List (String × Tree) :=
  match field t name with
  | .object ms => ms
  | _ => []

end ClusterKeeper.Json.Lookup
