/-
# Names, tags and directives

The small pieces of a document: names of anchors, tags with their percent signs resolved to
bytes, and the directives that stand in front of a document.
-/

import ClusterKeeper.Yaml.Spot
import ClusterKeeper.Yaml.Token

namespace ClusterKeeper.Yaml

/-- Whether a character may stand in a name. -/
def isNameChar (c : Char) : Bool := c.isAlphanum || c == '_' || c == '-'

/-- A name that is followed by a gap or by one of a few signs. -/
def name? (spots : List Spot) : Option (String × List Spot) :=
  let (cs, rest) := spanChars isNameChar spots
  let ended := match rest with
    | [] => true
    | s :: _ => atGap rest || "?:,]\x7d%@\u0060".toList.contains s.char
  if cs.isEmpty || !ended then none else some (String.ofList cs, rest)

/-- The value of a hexadecimal digit. -/
def hexDigit? (c : Char) : Option Nat :=
  if c.isDigit then some (c.toNat - '0'.toNat)
  else if 'a' ≤ c ∧ c ≤ 'f' then some (c.toNat - 'a'.toNat + 10)
  else if 'A' ≤ c ∧ c ≤ 'F' then some (c.toNat - 'A'.toNat + 10)
  else none

/-- How many bytes follow the first one of a character. -/
def followers? (byte : Nat) : Option Nat :=
  if byte < 0x80 then some 0
  else if byte < 0xC0 then none
  else if byte < 0xE0 then some 1
  else if byte < 0xF0 then some 2
  else if byte < 0xF8 then some 3
  else none

/-- Whether a character may stand in a tag; within angle brackets a few more may. -/
def isTagChar (bracketed : Bool) (c : Char) : Bool :=
  isNameChar c || ";/?:@&=+$.%!~*'()".toList.contains c
    || bracketed && ",[]".toList.contains c

/-- The bytes that the characters of a tag stand for. A percent sign and two digits are one
byte, and the bytes of a character are written one behind the other; `left` of them are
outstanding. -/
def tagBytes? : (left : Nat) → List Char → Option (List UInt8)
  | 0, [] => some []
  | _ + 1, [] => none
  | left, c :: cs =>
    if c = '%' then
      match cs with
      | a :: b :: cs => do
        let byte := 16 * (← hexDigit? a) + (← hexDigit? b)
        let left ← match left with
          | 0 => followers? byte
          | left + 1 => if byte / 0x40 = 2 then some left else none
        return UInt8.ofNat byte :: (← tagBytes? left cs)
      | _ => none
    else
      match left with
      | 0 => do return UInt8.ofNat c.toNat :: (← tagBytes? 0 cs)
      | _ + 1 => none

/-- The text of a tag, whatever its length. -/
def tagText? (bracketed : Bool) (spots : List Spot) : Option (List UInt8 × List Spot) :=
  let (cs, rest) := spanChars (isTagChar bracketed) spots
  (tagBytes? 0 cs).map (·, rest)

/-- What stands in front of the suffix of a tag: an exclamation mark and a name, and whether
another exclamation mark closed it. -/
def tagHandle? : List Spot → Option (List Char × Bool × List Spot)
  | [] => none
  | s :: rest =>
    if s.char = '!' then
      let (cs, rest) := spanChars isNameChar rest
      match rest with
      | t :: behind => if t.char = '!' then some (cs, true, behind) else some (cs, false, rest)
      | [] => some (cs, false, [])
    else none

/-- The handle of a name between exclamation marks. -/
def closedHandle (cs : List Char) : String := String.ofList ('!' :: cs ++ ['!'])

/-- A tag. A gap has to follow it, or within brackets a comma. -/
def tag? (flow : Bool) (spots : List Spot) : Option (TagName × List Spot) := do
  let (tag, rest) ←
    match spots with
    | _ :: s :: rest =>
      if s.char = '<' then do
        let (suffix, rest) ← tagText? true rest
        if suffix.isEmpty || !startsWith '>' rest then none
        return (⟨"", suffix⟩, rest.tail)
      else handled spots
    | _ => handled spots
  if atGap rest || flow && startsWith ',' rest then some (tag, rest) else none
where
  /-- A tag with a handle, or without one. -/
  handled (spots : List Spot) : Option (TagName × List Spot) := do
    let (cs, closed, rest) ← tagHandle? spots
    let (suffix, rest) ← tagText? false rest
    if closed then
      if suffix.isEmpty then none
      return (⟨closedHandle cs, suffix⟩, rest)
    let suffix := cs.map (fun c => UInt8.ofNat c.toNat) ++ suffix
    -- An exclamation mark alone is a tag of its own.
    if suffix.isEmpty then return (⟨"", [33]⟩, rest)
    return (⟨"!", suffix⟩, rest)

/-! ## Directives -/

/-- A number of at most nine digits. -/
def shortNumber? (spots : List Spot) : Option (Nat × List Spot) :=
  let (ds, rest) := spanChars Char.isDigit spots
  if ds.isEmpty || 9 < ds.length then none
  else some (ds.foldl (fun n d => 10 * n + (d.toNat - '0'.toNat)) 0, rest)

/-- The version behind its directive's name. -/
def version? (spots : List Spot) : Option (Token × List Spot) := do
  let (major, rest) ← shortNumber? (skipBlanks spots)
  if !startsWith '.' rest then none
  let (minor, rest) ← shortNumber? rest.tail
  return (.version major minor, rest)

/-- The handle and the space that a directive binds to it. -/
def tagSpace? (spots : List Spot) : Option (Token × List Spot) := do
  let (cs, closed, rest) ← tagHandle? (skipBlanks spots)
  if !closed && !cs.isEmpty then none
  let behind := skipBlanks rest
  -- At least one blank stands between the handle and its space.
  if rest.isEmpty || rest.length = behind.length then none
  let (space, rest) ← tagText? true behind
  if space.isEmpty || !atGap rest then none
  return (.tagSpace (if closed then closedHandle cs else "!") space, rest)

/-- A directive, from behind its percent sign to the end of its line. -/
def directive? (spots : List Spot) : Option (Token × List Spot) := do
  let (cs, rest) := spanChars isNameChar spots
  if !atGap rest then none
  let (token, rest) ←
    if cs = "YAML".toList then version? rest
    else if cs = "TAG".toList then tagSpace? rest
    else none
  return (token, ← nextLine? (skipToLineEnd rest))

end ClusterKeeper.Yaml
