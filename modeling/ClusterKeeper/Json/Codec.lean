/-
# Codecs

A codec reads values of a type from the text of a document and writes them as trees. Where
the text holds something else, the failure names what was found and what was wanted; a
fault within what was found comes first.
-/

import ClusterKeeper.Json.Reader
import ClusterKeeper.SortedMap

namespace ClusterKeeper.Json

/-- How values of a type are read from a text and written as a tree. -/
structure Codec (α : Type) where
  read : Reader α
  tree : α → Tree

namespace Codec

variable {α β : Type}

/-- The value that a whole text holds. -/
def parse (c : Codec α) (text : String) : Except Failure α := readAll c.read text

/-- The compact text of a value. -/
def compact (c : Codec α) (x : α) : String := String.ofList (c.tree x).compact

/-- The text of a value with one item a line. -/
def pretty (c : Codec α) (x : α) : String := String.ofList (c.tree x).pretty

/-- What stands at the front of a text, up to its first bracket. -/
def found (cs : List Char) : Except Failure Found := do
  match cs with
  | [] => .error .truncated
  | c :: cs =>
    if c = 'n' then let _ ← readWord ['u', 'l', 'l'] cs; return .null
    else if c = 't' then let _ ← readWord ['r', 'u', 'e'] cs; return .bool true
    else if c = 'f' then let _ ← readWord ['a', 'l', 's', 'e'] cs; return .bool false
    else if c = '"' then return .string (← stringBody [] .plain cs).1
    else if c = '[' then return .array
    else if c = '{' then return .object
    else if startsNumber c then
      match (← readNumber (c :: cs)).1 with
      | .double x => return .double x
      | n => return .integer (n.int?.getD 0)
    else .error .malformed

/-- The failure where the front of a text is not of the type that is wanted. -/
def mismatch (wanted : String) (cs : List Char) : Failure :=
  match found cs with
  | .error e => e
  | .ok f => .misfit (.wrongType f wanted)

/-- A string, wanted under a name of its own. -/
def readString (wanted : String) : Reader String := fun cs =>
  match skipBlanks cs with
  | '"' :: cs => stringBody [] .plain cs
  | cs => .error (mismatch wanted cs)

/-- Nothing but `null`. -/
def readNull (wanted : String) : Reader Unit := fun cs => do
  match skipBlanks cs with
  | 'n' :: cs => return ((), ← readWord ['u', 'l', 'l'] cs)
  | cs => .error (mismatch wanted cs)

/-- Strings. -/
def string : Codec String where
  read := readString "a string"
  tree := .string

/-- Whole numbers below a bound, wanted under the name of their type. -/
def natural (wanted : String) (bound : Nat) (ofNat : Nat → α) (toNat : α → Nat) : Codec α where
  read := fun cs => do
    match skipBlanks cs with
    | [] => .error .truncated
    | c :: cs =>
      if startsNumber c then
        let (n, rest) ← readNumber (c :: cs)
        match n with
        | .natural n =>
          if n.toNat < bound then return (ofNat n.toNat, rest)
          else .error (.misfit (.wrongValue (.integer n.toNat) wanted))
        | .negative k => .error (.misfit (.wrongValue (.integer (-(k.val : Int) - 1)) wanted))
        | .double x => .error (.misfit (.wrongType (.double x) wanted))
      else .error (mismatch wanted (c :: cs))
  tree x := .number (.natural (UInt64.ofNat (toNat x)))

/-- Whole numbers of 16 bits. -/
def uint16 : Codec UInt16 := natural "u16" UInt16.size UInt16.ofNat UInt16.toNat

/-- Whole numbers of 32 bits. -/
def uint32 : Codec UInt32 := natural "u32" UInt32.size UInt32.ofNat UInt32.toNat

/-- Whole numbers of 64 bits. -/
def uint64 : Codec UInt64 := natural "u64" UInt64.size UInt64.ofNat UInt64.toNat

/-- A value or `null`. -/
def option (c : Codec α) : Codec (Option α) where
  read := fun cs => do
    match skipBlanks cs with
    | 'n' :: cs => return (none, ← readWord ['u', 'l', 'l'] cs)
    | cs =>
      let (x, rest) ← c.read cs
      return (some x, rest)
  tree
    | none => .null
    | some x => c.tree x

/-- Any number of values. -/
def list (c : Codec α) : Codec (List α) where
  read := fun cs =>
    match skipBlanks cs with
    | '[' :: cs => readItems c.read (cs.length + 1) true [] cs
    | cs => .error (mismatch "a sequence" cs)
  tree xs := .array (xs.map c.tree)

/-- Any number of named values. A repeated name keeps its last value. -/
def map (c : Codec α) : Codec (SortedMap String α) where
  read := fun cs => do
    match skipBlanks cs with
    | '{' :: cs =>
      let (members, rest) ← readMembers c.read (cs.length + 1) true [] cs
      return (SortedMap.ofList members, rest)
    | cs => .error (mismatch "a map" cs)
  tree m := .object (m.entries.map fun e => (e.1, c.tree e.2))

/-- The variant of a name. -/
def variant (variants : List (String × α)) (name : String) : Except Failure α :=
  match variants.lookup name with
  | some x => .ok x
  | none => .error (.misfit (.unknownVariant name (variants.map (·.1))))

/-- One of a list of named values, as its name or as an object that binds its name to
`null`. -/
def choice (variants : List (String × α)) (name : α → String) : Codec α where
  read := fun cs => do
    match skipBlanks cs with
    | [] => .error .truncated
    | c :: cs =>
      if c = '"' then
        let (s, rest) ← stringBody [] .plain cs
        return (← variant variants s, rest)
      else if c = '{' then
        let (s, rest) ← readString "variant identifier" cs
        let x ← variant variants s
        let (_, rest) ← readNull "unit" (← readColon rest)
        match skipBlanks rest with
        | [] => .error .truncated
        | c :: rest => if c = '}' then return (x, rest) else .error .malformed
      else .error .malformed
  tree x := .string (name x)

/-- The values of a codec under another type. -/
def imap (c : Codec α) (f : α → β) (g : β → α) : Codec β where
  read := fun cs => (c.read cs).map fun (x, rest) => (f x, rest)
  tree x := c.tree (g x)

end Codec

end ClusterKeeper.Json
