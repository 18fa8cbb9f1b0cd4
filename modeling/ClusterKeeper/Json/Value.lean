/-
# Values

A value is a tree whose objects list their members in increasing order of their names, no
name twice, at every level. Every tree has such a form, in which a repeated name keeps its
last member. Two values are equal exactly if their texts are those of the same tree.
-/

import ClusterKeeper.Json.Codec

namespace ClusterKeeper.Json

namespace Tree

mutual

/-- Objects list their members in order of their names, at every level. -/
def Canonical : Tree → Prop
  | .array items => CanonicalItems items
  | .object members =>
    (members.Pairwise fun a b => compare a.1 b.1 = .lt) ∧ CanonicalMembers members
  | _ => True

/-- All items are canonical. -/
def CanonicalItems : List Tree → Prop
  | [] => True
  | t :: ts => t.Canonical ∧ CanonicalItems ts

/-- All members are canonical. -/
def CanonicalMembers : List (String × Tree) → Prop
  | [] => True
  | (_, t) :: ms => t.Canonical ∧ CanonicalMembers ms

end

theorem canonicalMembers_iff {ms : List (String × Tree)} :
    CanonicalMembers ms ↔ ∀ m ∈ ms, m.2.Canonical := by
  induction ms with
  | nil => simp [CanonicalMembers]
  | cons m ms ih => simp [CanonicalMembers, ih]

mutual

/-- The tree with the members of every object in order of their names; a repeated name
keeps its last member. -/
def canonical : Tree → Tree
  | .array items => .array (canonicalItems items)
  | .object members => .object (SortedMap.ofList (canonicalMembers members)).entries
  | .null => .null
  | .bool b => .bool b
  | .number n => .number n
  | .string s => .string s

/-- The items, each in canonical form. -/
def canonicalItems : List Tree → List Tree
  | [] => []
  | t :: ts => t.canonical :: canonicalItems ts

/-- The members in the order in which they stand, each in canonical form. -/
def canonicalMembers : List (String × Tree) → List (String × Tree)
  | [] => []
  | (k, t) :: ms => (k, t.canonical) :: canonicalMembers ms

end

mutual

theorem canonical_canonical : (t : Tree) → t.canonical.Canonical
  | .array items => by
    simpa [canonical, Canonical] using canonicalItems_canonical items
  | .object members => by
    simp only [canonical, Canonical]
    exact ⟨SortedMap.sorted _, canonicalMembers_iff.2
      (SortedMap.forall_mem_ofList (canonicalMembers_iff.1 (canonicalMembers_canonical members)))⟩
  | .null => trivial
  | .bool _ => trivial
  | .number _ => trivial
  | .string _ => trivial

theorem canonicalItems_canonical : (ts : List Tree) → CanonicalItems (canonicalItems ts)
  | [] => trivial
  | t :: ts => ⟨canonical_canonical t, canonicalItems_canonical ts⟩

theorem canonicalMembers_canonical :
    (ms : List (String × Tree)) → CanonicalMembers (canonicalMembers ms)
  | [] => trivial
  | (_, t) :: ms => ⟨canonical_canonical t, canonicalMembers_canonical ms⟩

end

end Tree

/-- A tree in canonical form. -/
structure Value where
  tree : Tree
  canonical : tree.Canonical
  deriving DecidableEq

namespace Value

/-- The value that a tree denotes. -/
def ofTree (t : Tree) : Value := ⟨t.canonical, t.canonical_canonical⟩

instance : Inhabited Value := ⟨.null, trivial⟩

/-- The value that a document holds. -/
def parse (text : String) : Except Failure Value := (Tree.parse text).map ofTree

/-- The compact text of a value. -/
def compact (v : Value) : String := String.ofList v.tree.compact

/-- Values with at most a number of levels. -/
def codec (levels : Nat) : Codec Value where
  read := fun cs => (readTree levels cs).map fun (t, rest) => (ofTree t, rest)
  tree := Value.tree

/-! ## What a value is read as -/

/-- A string. -/
def string? (v : Value) : Option String :=
  match v.tree with
  | .string s => some s
  | _ => none

/-- A truth value. -/
def bool? (v : Value) : Option Bool :=
  match v.tree with
  | .bool b => some b
  | _ => none

/-- A whole number from `low` to `high`. -/
def int? (low high : Int) (v : Value) : Option Int :=
  match v.tree with
  | .number n => n.int?.filter fun i => low ≤ i && i ≤ high
  | _ => none

/-- A whole number of 32 bits. -/
def uint32? (v : Value) : Option Int := v.int? 0 0xFFFFFFFF

/-- A signed whole number of 64 bits. -/
def int64? (v : Value) : Option Int := v.int? (-0x8000000000000000) 0x7FFFFFFFFFFFFFFF

/-- A whole number of 64 bits. -/
def uint64? (v : Value) : Option Int := v.int? 0 0xFFFFFFFFFFFFFFFF

/-- A list of strings. -/
def strings? (v : Value) : Option (List String) :=
  match v.tree with
  | .array items => items.mapM fun t =>
    match t with
    | .string s => some s
    | _ => none
  | _ => none

/-- Nothing if the value is `null`, else what `read` gives. -/
def optional? {α : Type} (read : Value → Option α) (v : Value) : Option (Option α) :=
  match v.tree with
  | .null => some none
  | _ => (read v).map some

end Value

end ClusterKeeper.Json
