/-
# Values of documents

What the nodes of a document stand for: texts, natural numbers, values that may be null, and
records, whose members may be left out. What a text says counts, and not the tag before it.
-/

import ClusterKeeper.Yaml.Node

namespace ClusterKeeper.Yaml

/-! ## Numerals -/

/-- The number of some digits below a base. There has to be one digit at least. -/
def natural? (base : Nat) (cs : List Char) : Option Nat :=
  if cs.isEmpty then none
  else cs.foldlM (fun n c => (hexDigit? c).bind fun d =>
    if d < base then some (base * n + d) else none) 0

/-- The number of a numeral: digits with a plus sign or none in front. They are decimal and
begin with no idle zero, or have another base announced. -/
def numeral? (text : String) : Option Nat :=
  let cs := text.toList
  -- A sign may stand in front of the announcement of a base too.
  let digits := if cs.head? = some '+' then cs.tail else cs
  let announced := match digits with
    | '0' :: 'x' :: ds => natural? 16 ds
    | '0' :: 'o' :: ds => natural? 8 ds
    | '0' :: 'b' :: ds => natural? 2 ds
    | _ => none
  announced.or (if digits.head? = some '0' ∧ digits.length ≠ 1 then none else natural? 10 digits)

/-! ## Scalars -/

/-- The spellings of null. -/
def nulls : List String := ["null", "Null", "NULL", "~"]

/-- The tag of a kind of values that the language defines. -/
def coreTag (kind : String) : List UInt8 := asciiBytes (coreTags ++ kind)

/-- The number that a scalar stands for. It is written plain, or as a literal with the tag of
numbers. -/
def Scalar.natural? (s : Scalar) : Option Nat :=
  if s.style = .plain ∨ s.style = .literal ∧ s.tag = some (coreTag "int") then numeral? s.text
  else none

/-- Whether a scalar stands for a value, or for null. Only a plain one may stand for null; one
that has the tag of null has to. -/
def Scalar.isPresent? (s : Scalar) : Option Bool :=
  if s.style ≠ .plain then some true
  else
    match s.tag with
    | none => some (!s.text.isEmpty && !nulls.contains s.text)
    | some tag =>
      if tag ≠ coreTag "null" then some true
      else if nulls.contains s.text then some false
      else none

namespace Document

variable {α : Type} (d : Document)

/-- Reads a value of a type from a node. -/
abbrev Decoder (α : Type) := Node → Option α

/-- Any scalar, as its text. -/
def text? : Decoder String := fun n =>
  match d.target n with
  | .scalar _ s => some s.text
  | _ => none

/-- A number below a bound. -/
def natural? (bound : Nat) : Decoder Nat := fun n => do
  match d.target n with
  | .scalar _ s =>
    let k ← s.natural?
    if k < bound then some k else none
  | _ => none

/-- A number of 32 bits. -/
def uint32? : Decoder UInt32 := fun n => (d.natural? UInt32.size n).map UInt32.ofNat

/-- A number of 64 bits. -/
def uint64? : Decoder UInt64 := fun n => (d.natural? UInt64.size n).map UInt64.ofNat

/-- A value or null. -/
def optional? (decode : Decoder α) : Decoder (Option α) := fun n => do
  match d.target n with
  | .scalar _ s => if ← s.isPresent? then return some (← decode n) else return none
  | _ => return some (← decode n)

/-- The members of a record that are known by name. Each of them may come once, others as often
as they like. A plain scalar that is left out is a record without members. -/
def members? (names : List String) : Decoder (List (String × Node)) := fun n =>
  match d.target n with
  | .mapping _ entries =>
    entries.foldlM (fun members (key, value) => do
      let name ← d.text? key
      if !names.contains name then some members
      else if (members.lookup name).isSome then none
      else some ((name, value) :: members)) []
  | .scalar _ s => if s.style = .plain ∧ s.text.isEmpty then some [] else none
  | _ => none

/-- The value of a member, or a default where it is left out. -/
def member? (members : List (String × Node)) (name : String) (decode : Decoder α)
    (default : α) : Option α :=
  match members.lookup name with
  | none => some default
  | some n => decode n

end Document

end ClusterKeeper.Yaml
