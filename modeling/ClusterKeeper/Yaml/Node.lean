/-
# Nodes

The values of a document: scalars, sequences and mappings. A node may have an anchor, and an
alias stands for the node of its anchor; anchors are known by numbers. A scalar that is left
out is an empty plain one.
-/

import ClusterKeeper.SortedMap
import ClusterKeeper.Yaml.Layout

namespace ClusterKeeper.Yaml

/-- A scalar with its tag. -/
structure Scalar where
  style : ScalarStyle := .plain
  text : String := ""
  tag : Option (List UInt8) := none
  deriving DecidableEq, Repr

/-- A node, with the number of its anchor if it has one. -/
inductive Node where
  | alias (number : Nat)
  | scalar (anchor : Option Nat) (value : Scalar)
  | sequence (anchor : Option Nat) (items : List Node)
  | mapping (anchor : Option Nat) (entries : List (Node × Node))
  deriving Inhabited

/-- A scalar that is left out. -/
def Node.missing : Node := .scalar none {}

/-- The bytes of a text of ASCII characters. -/
def asciiBytes (s : String) : List UInt8 := s.toList.map fun c => UInt8.ofNat c.toNat

/-- The space of the tags that the language itself defines. -/
def coreTags : String := "tag:yaml.org,2002:"

/-- A document that is being read: the tokens to come, the anchors so far and the spaces
that handles stand for. -/
structure Reading where
  tokens : List Token
  anchors : SortedMap String Nat := .empty
  spaces : List (String × List UInt8) := []

/-- What is read off the front of the tokens. -/
abbrev Read := StateT Reading Option

namespace Read

/-- The next token. There is none at the end. -/
def peek : Read (Option Token) := do return (← get).tokens.head?

/-- Leaves out the next token. -/
def skip : Read Unit := modify fun r => { r with tokens := r.tokens.tail }

/-- Leaves out the next token if it is the one given. -/
def accept (t : Token) : Read Bool := do
  if (← peek) == some t then
    skip
    return true
  else return false

/-- Numbers the anchor of a node. Numbers count the names in use, so that a name that is
taken a second time leaves its number to the next new one as well. -/
def number (anchor : Option String) : Read (Option Nat) := do
  match anchor with
  | none => return none
  | some name =>
    let n := (← get).anchors.entries.length
    modify fun r => { r with anchors := r.anchors.insert name n }
    return some n

/-- The bytes of a tag. -/
def resolve (tag : TagName) : Read (List UInt8) := do
  if tag.handle.isEmpty then return tag.suffix
  let space ← (← get).spaces.lookup tag.handle
  return space ++ tag.suffix

/-- What may stand in front of a node, in either order. -/
structure Properties where
  anchor : Option String := none
  tag : Option (List UInt8) := none

/-- Reads an anchor if one is next. -/
def anchor? : Read (Option String) := do
  match ← peek with
  | some (.anchor name) => skip; return some name
  | _ => return none

/-- Reads a tag if one is next. -/
def tag? : Read (Option (List UInt8)) := do
  match ← peek with
  | some (.tag tag) => skip; return some (← resolve tag)
  | _ => return none

/-- Reads the anchor and the tag of a node. -/
def properties : Read Properties := do
  match ← anchor? with
  | some name => return ⟨some name, ← tag?⟩
  | none =>
    match ← tag? with
    | some tag => return ⟨← anchor?, some tag⟩
    | none => return {}

/-- Where a node stands: within brackets, in a block, or in a block mapping, where the items
of a sequence need not be further in. -/
inductive Place where
  | flow
  | block
  | entry
  deriving DecidableEq, Repr

/-- The tokens before which a node may be left out. -/
def gapsInSequence : List Token := [.blockItem, .blockEnd]

/-- The tokens before which a node of a block mapping may be left out. -/
def gapsInMapping : List Token := [.key, .value, .blockEnd]

/-- The tag that says nothing. -/
def plainTag : List UInt8 := asciiBytes "!"

/-- A scalar with the tag it is given. -/
def scalar (p : Properties) (style : ScalarStyle) (text : String) : Scalar :=
  { style, text, tag := if p.tag = some plainTag then none else p.tag }

mutual

/-- Reads a node. Each function uses up the fuel by one a call, and of four calls in a row one
takes a token at least. -/
def node : (fuel : Nat) → Place → Read Node
  | 0, _ => failure
  | fuel + 1, place => do
    -- An alias has no properties of its own.
    if let some (.alias name) ← peek then
      skip
      return .alias (← (← get).anchors.find? name)
    let p ← properties
    let opens := (← peek).getD .documentEnd
    match opens with
    | .scalar style text =>
      skip
      -- Anchors are numbered in the order in which their nodes begin, before what is within them.
      return .scalar (← number p.anchor) (scalar p style text)
    | .openSequence =>
      skip
      let anchor ← number p.anchor
      return .sequence anchor (← flowItems fuel true [])
    | .openMapping =>
      skip
      let anchor ← number p.anchor
      return .mapping anchor (← flowEntries fuel true [])
    | _ =>
      -- A sequence in a mapping may stand at the column of its key, and then no block is opened.
      if opens = .blockItem ∧ place = .entry then
        let anchor ← number p.anchor
        return .sequence anchor (← looseItems fuel [])
      else if opens = .blockSequence ∧ place ≠ .flow then
        skip
        let anchor ← number p.anchor
        return .sequence anchor (← blockItems fuel [])
      else if opens = .blockMapping ∧ place ≠ .flow then
        skip
        let anchor ← number p.anchor
        return .mapping anchor (← blockEntries fuel [])
      -- Properties alone stand for an empty scalar.
      else if p.anchor.isSome ∨ p.tag.isSome then
        return .scalar (← number p.anchor) { tag := p.tag }
      else failure

/-- Reads a node unless it is left out before one of the tokens. -/
def nodeOrGap : (fuel : Nat) → Place → (gaps : List Token) → Read Node
  | 0, _, _ => failure
  | fuel + 1, place, gaps => do
    if (← peek).any gaps.contains then return .missing else node fuel place

/-- Reads the items of a block sequence. -/
def blockItems : (fuel : Nat) → (seen : List Node) → Read (List Node)
  | 0, _ => failure
  | fuel + 1, seen => do
    if ← accept .blockItem then
      let item ← nodeOrGap fuel .block gapsInSequence
      blockItems fuel (item :: seen)
    else if ← accept .blockEnd then return seen.reverse
    else failure

/-- Reads the items of a sequence that is no further in than the mapping around it. -/
def looseItems : (fuel : Nat) → (seen : List Node) → Read (List Node)
  | 0, _ => failure
  | fuel + 1, seen => do
    if ← accept .blockItem then
      let item ← nodeOrGap fuel .block (.blockItem :: gapsInMapping)
      looseItems fuel (item :: seen)
    else return seen.reverse

/-- Reads the entries of a block mapping. -/
def blockEntries : (fuel : Nat) → (seen : List (Node × Node)) → Read (List (Node × Node))
  | 0, _ => failure
  | fuel + 1, seen => do
    if ← accept .key then
      let key ← nodeOrGap fuel .entry gapsInMapping
      let value ← do
        if ← accept .value then nodeOrGap fuel .entry gapsInMapping else pure .missing
      blockEntries fuel ((key, value) :: seen)
    else if ← accept .blockEnd then return seen.reverse
    else failure

/-- Reads the items of a sequence in brackets. An item may be a mapping of one entry. -/
def flowItems : (fuel : Nat) → (first : Bool) → (seen : List Node) → Read (List Node)
  | 0, _, _ => failure
  | fuel + 1, first, seen => do
    if ← accept .closeSequence then return seen.reverse
    if !first then
      if !(← accept .flowItem) then failure
    if ← accept .closeSequence then return seen.reverse
    if ← accept .key then
      -- The key of a mapping without braces may be left out.
      let stops := [.value, .flowItem, .closeSequence]
      let key ← do
        if (← peek).any stops.contains then
          skip
          pure .missing
        else node fuel .flow
      let value ← do
        if ← accept .value then nodeOrGap fuel .flow [.flowItem, .closeSequence]
        else pure .missing
      flowItems fuel false (.mapping none [(key, value)] :: seen)
    else
      let item ← node fuel .flow
      flowItems fuel false (item :: seen)

/-- Reads the entries of a mapping in braces. -/
def flowEntries : (fuel : Nat) → (first : Bool) → (seen : List (Node × Node)) →
    Read (List (Node × Node))
  | 0, _, _ => failure
  | fuel + 1, first, seen => do
    if ← accept .closeMapping then return seen.reverse
    if !first then
      if !(← accept .flowItem) then failure
    if ← accept .closeMapping then return seen.reverse
    if ← accept .key then
      let key ← nodeOrGap fuel .flow [.value, .flowItem, .closeMapping]
      let value ← do
        if ← accept .value then nodeOrGap fuel .flow [.flowItem, .closeMapping]
        else pure .missing
      flowEntries fuel false ((key, value) :: seen)
    else
      let key ← node fuel .flow
      -- Without a mark the node is a key that has no value.
      flowEntries fuel false ((key, .missing) :: seen)

end

/-! ## Documents -/

/-- The directives in front of a document. -/
structure Directives where
  hasVersion : Bool := false
  spaces : List (String × List UInt8) := []

/-- Reads directives. Each may come once, and of the versions those of one major number. -/
def directives : (fuel : Nat) → Directives → Read Directives
  | 0, _ => failure
  | fuel + 1, ds => do
    match ← peek with
    | some (.version major minor) =>
      skip
      if ds.hasVersion || major != 1 || !(minor == 1 || minor == 2) then failure
      directives fuel { ds with hasVersion := true }
    | some (.tagSpace handle space) =>
      skip
      if (ds.spaces.lookup handle).isSome then failure
      directives fuel { ds with spaces := (handle, space) :: ds.spaces }
    | _ => return ds

/-- Whether a token stands in front of a document that begins with a line of its own. -/
def opensDocument : Token → Bool
  | .version _ _ => true
  | .tagSpace _ _ => true
  | .documentStart => true
  | _ => false

/-- The spaces of the handles that need no directive. -/
def defaultSpaces : List (String × List UInt8) :=
  [("!", asciiBytes "!"), ("!!", asciiBytes coreTags)]

/-- Reads the only document, which may be empty or missing. -/
def document (fuel : Nat) : Read Node := do
  match ← peek with
  | none => return .missing
  | some t =>
    let opened := opensDocument t
    let ds ← directives fuel {}
    modify fun r => { r with spaces := ds.spaces ++ defaultSpaces }
    if opened then
      if !(← accept .documentStart) then failure
    let root ← match ← peek with
      | none => pure .missing
      | some t =>
        if opened && (opensDocument t || t == .documentEnd) then pure .missing
        else node fuel .block
    -- Marks of an end may be repeated, and nothing may stand behind them.
    modify fun r => { r with tokens := r.tokens.dropWhile (· == .documentEnd) }
    if (← peek).isSome then failure
    return root

end Read

namespace Node

mutual

/-- The nodes with an anchor within a node, in the order in which they begin. -/
def anchored : Node → List (Nat × Node)
  | .alias _ => []
  | .scalar anchor value => (anchor.map (·, .scalar anchor value)).toList
  | .sequence anchor items =>
    (anchor.map (·, .sequence anchor items)).toList ++ anchoredItems items
  | .mapping anchor entries =>
    (anchor.map (·, .mapping anchor entries)).toList ++ anchoredEntries entries

/-- The nodes with an anchor within the items of a sequence. -/
def anchoredItems : List Node → List (Nat × Node)
  | [] => []
  | item :: items => item.anchored ++ anchoredItems items

/-- The nodes with an anchor within the entries of a mapping. -/
def anchoredEntries : List (Node × Node) → List (Nat × Node)
  | [] => []
  | (key, value) :: entries => key.anchored ++ value.anchored ++ anchoredEntries entries

end

end Node

/-- A document: its root and what its aliases stand for. -/
structure Document where
  root : Node
  anchored : List (Nat × Node)

namespace Document

/-- The document of a text. A text without any is like one with an empty document; a text
with two has none. -/
def parse? (text : String) : Option Document := do
  let tokens ← tokens? text
  let (root, _) ← (Read.document (4 * tokens.length + 4)).run { tokens }
  return { root, anchored := root.anchored.reverse }

/-- The node that an alias stands for. Any other node stands for itself. -/
def target (d : Document) : Node → Node
  | .alias number => (d.anchored.lookup number).getD .missing
  | n => n

end Document

end ClusterKeeper.Yaml
