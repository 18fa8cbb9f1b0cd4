/-
# Documents as trees

A document as it is written: members of an object stand in the order in which they are
written, repeated keys included. Whole numbers keep their exact 64-bit value, all other
numbers are finite doubles. A tree has two texts, a compact one without any blank and a
pretty one with one item a line, indented by two blanks a level.
-/

import ClusterKeeper.Decimal.Shortest

namespace ClusterKeeper.Json

/-- A number of a document. Whole numbers from `-2 ^ 63` to `2 ^ 64 - 1` are exact. -/
inductive Number where
  | natural (n : UInt64)
  /-- The number `-n - 1`. -/
  | negative (n : Fin 0x8000000000000000)
  | double (x : Binary64)
  deriving DecidableEq, Repr

namespace Number

instance : Inhabited Number := ⟨.natural 0⟩

/-- The value of a number that is whole by its form. -/
def int? : Number → Option Int
  | .natural n => some n.toNat
  | .negative n => some (-(n.val : Int) - 1)
  | .double _ => none

/-- A whole number in its exact form, if it has one. -/
def ofInt? (i : Int) : Option Number :=
  if 0 ≤ i then
    if i < UInt64.size then some (.natural (UInt64.ofNat i.toNat)) else none
  else if h : (-i - 1).toNat < 0x8000000000000000 then some (.negative ⟨(-i - 1).toNat, h⟩)
  else none

/-- The text of a number. -/
def text : Number → List Char
  | .natural n => Nat.toDigits 10 n.toNat
  | .negative n => '-' :: Nat.toDigits 10 (n.val + 1)
  | .double x => x.text

end Number

/-- A document as it is written. -/
inductive Tree where
  | null
  | bool (b : Bool)
  | number (n : Number)
  | string (s : String)
  | array (items : List Tree)
  | object (members : List (String × Tree))
  deriving Inhabited, Repr

namespace Tree

mutual

/-- Equality of trees is decided member by member. -/
def decEq : (s t : Tree) → Decidable (s = t)
  | .null, t => by
    cases t <;> first | exact .isTrue rfl | exact .isFalse (by simp)
  | .bool a, t => by
    cases t with
    | bool b => exact decidable_of_iff (a = b) (by simp)
    | _ => exact .isFalse (by simp)
  | .number a, t => by
    cases t with
    | number b => exact decidable_of_iff (a = b) (by simp)
    | _ => exact .isFalse (by simp)
  | .string a, t => by
    cases t with
    | string b => exact decidable_of_iff (a = b) (by simp)
    | _ => exact .isFalse (by simp)
  | .array a, t => by
    cases t with
    | array b => exact @decidable_of_iff _ (a = b) (by simp) (decEqItems a b)
    | _ => exact .isFalse (by simp)
  | .object a, t => by
    cases t with
    | object b => exact @decidable_of_iff _ (a = b) (by simp) (decEqMembers a b)
    | _ => exact .isFalse (by simp)

/-- Equality of lists of trees. -/
def decEqItems : (s t : List Tree) → Decidable (s = t)
  | [], [] => .isTrue rfl
  | [], _ :: _ => .isFalse (by simp)
  | _ :: _, [] => .isFalse (by simp)
  | x :: xs, y :: ys =>
    match decEq x y, decEqItems xs ys with
    | .isTrue h, .isTrue h' => .isTrue (by rw [h, h'])
    | .isFalse h, _ => .isFalse (by simp [h])
    | _, .isFalse h => .isFalse (by simp [h])

/-- Equality of lists of members. -/
def decEqMembers : (s t : List (String × Tree)) → Decidable (s = t)
  | [], [] => .isTrue rfl
  | [], _ :: _ => .isFalse (by simp)
  | _ :: _, [] => .isFalse (by simp)
  | (k, x) :: xs, (l, y) :: ys =>
    if hk : k = l then
      match decEq x y, decEqMembers xs ys with
      | .isTrue h, .isTrue h' => .isTrue (by rw [hk, h, h'])
      | .isFalse h, _ => .isFalse (by simp [h])
      | _, .isFalse h => .isFalse (by simp [h])
    else .isFalse (by simp [hk])

end

instance : DecidableEq Tree := decEq

mutual

/-- How many arrays and objects stand inside one another. -/
def levels : Tree → Nat
  | .array items => levelsOfItems items + 1
  | .object members => levelsOfMembers members + 1
  | _ => 0

/-- The most levels among items. -/
def levelsOfItems : List Tree → Nat
  | [] => 0
  | t :: ts => max t.levels (levelsOfItems ts)

/-- The most levels among members. -/
def levelsOfMembers : List (String × Tree) → Nat
  | [] => 0
  | (_, t) :: ms => max t.levels (levelsOfMembers ms)

end

end Tree

end ClusterKeeper.Json
