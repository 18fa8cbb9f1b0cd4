/-
# Scalars

The texts of a document in their five styles. In all but the literal one, a single line
break between two lines is folded into a space, and of several the first is left out.
-/

import ClusterKeeper.Yaml.Tag

namespace ClusterKeeper.Yaml

/-- What lies between the last visible character of a scalar and the next: blanks within a
line, or line breaks. All characters are kept in reverse. -/
inductive Gap where
  | blanks (seen : List Char)
  | breaks (first more : List Char)
  deriving DecidableEq, Repr

namespace Gap

/-- Nothing in between. -/
def none : Gap := .blanks []

/-- Whether the gap spans lines. -/
def isMultiline : Gap → Bool
  | .blanks _ => false
  | .breaks _ _ => true

/-- Blanks at the start of a line do not count. -/
def addBlank (c : Char) : Gap → Gap
  | .blanks seen => .blanks (c :: seen)
  | gap => gap

/-- Blanks at the end of a line do not count either. -/
def addBreak (c : Char) : Gap → Gap
  | .blanks _ => .breaks [c] []
  | .breaks first more => .breaks first (c :: more)

/-- The text that the gap stands for, in reverse. -/
def text : Gap → List Char
  | .blanks seen => seen
  | .breaks first more =>
    if first = ['\n'] then if more.isEmpty then [' '] else more
    else more ++ first

end Gap

/-- A scalar that has been read, and the spots behind it. -/
abbrev ScalarRead := Option (String × List Spot)

/-! ## Quoted scalars -/

/-- A scalar in single quotes, from behind the opening one. A quote in it is written twice. -/
def singleQuoted (seen : List Char) (gap : Gap) (afterQuote : Bool) : List Spot → ScalarRead
  | [] => if afterQuote then some (String.ofList seen.reverse, []) else none
  | s :: rest =>
    if afterQuote then
      if s.char = '\'' then singleQuoted ('\'' :: seen) .none false rest
      else some (String.ofList seen.reverse, s :: rest)
    else if atDocumentBound (s :: rest) then none
    else if isBlank s.char then singleQuoted seen (gap.addBlank s.char) false rest
    else if isBreak s.char then singleQuoted seen (gap.addBreak s.char) false rest
    else if s.char = '\'' then singleQuoted (gap.text ++ seen) .none true rest
    else singleQuoted (s.char :: gap.text ++ seen) .none false rest

/-- What a backslash and a letter stand for: a character, or a code of a number of digits. -/
inductive Escape where
  | char (c : Char)
  | code (digits : Nat)

/-- The meaning of the letter behind a backslash. -/
def escape? (c : Char) : Option Escape :=
  match c with
  | '0' => some (.char '\x00')
  | 'a' => some (.char '\x07')
  | 'b' => some (.char '\x08')
  | 't' => some (.char '\t')
  | '\t' => some (.char '\t')
  | 'n' => some (.char '\n')
  | 'v' => some (.char '\x0b')
  | 'f' => some (.char '\x0c')
  | 'r' => some (.char '\r')
  | 'e' => some (.char '\x1b')
  | ' ' => some (.char ' ')
  | '"' => some (.char '"')
  | '/' => some (.char '/')
  | '\\' => some (.char '\\')
  | 'N' => some (.char '\u0085')
  | '_' => some (.char '\u00a0')
  | 'L' => some (.char '\u2028')
  | 'P' => some (.char '\u2029')
  | 'x' => some (.code 2)
  | 'u' => some (.code 4)
  | 'U' => some (.code 8)
  | _ => none

/-- Where a scalar in double quotes stands that is being read. -/
inductive QuoteState where
  | plain
  | escaped
  | code (left value : Nat)
  deriving DecidableEq, Repr

/-- A scalar in double quotes, from behind the opening one. A backslash at the end of a line
joins it to the next. -/
def doubleQuoted (seen : List Char) (gap : Gap) : QuoteState → List Spot → ScalarRead
  | _, [] => none
  | .plain, s :: rest =>
    if atDocumentBound (s :: rest) then none
    else if isBlank s.char then doubleQuoted seen (gap.addBlank s.char) .plain rest
    else if isBreak s.char then doubleQuoted seen (gap.addBreak s.char) .plain rest
    else
      -- Blanks and breaks count only once something follows them.
      let seen := gap.text ++ seen
      if s.char = '"' then some (String.ofList seen.reverse, rest)
      else if s.char = '\\' then doubleQuoted seen .none .escaped rest
      else doubleQuoted (s.char :: seen) .none .plain rest
  | .escaped, s :: rest =>
    -- The escaped break leaves nothing, and the blanks of the next line are left out.
    if isBreak s.char then doubleQuoted seen (.breaks [] []) .plain rest
    else
      match escape? s.char with
      | some (.char c) => doubleQuoted (c :: seen) .none .plain rest
      | some (.code digits) => doubleQuoted seen .none (.code digits 0) rest
      | none => none
  | .code left value, s :: rest =>
    match hexDigit? s.char with
    | none => none
    | some d =>
      let value := 16 * value + d
      if 1 < left then doubleQuoted seen .none (.code (left - 1) value) rest
      else if value.isValidChar then doubleQuoted (Char.ofNat value :: seen) .none .plain rest
      else none

/-! ## Plain scalars -/

/-- Whether a plain scalar ends at a sign: at a colon with a gap behind it, and within
brackets at a bracket or comma. A colon right in front of one of these is an error. -/
def endsPlain? (flow : Bool) (c : Char) (rest : List Spot) : Option Bool :=
  let signs := ",[]\x7b\x7d".toList
  if c = ':' then
    if flow && rest.head?.any (fun s => s.char == '?' || signs.contains s.char) then none
    else some (atGap rest)
  else some (flow && signs.contains c)

/-- A plain scalar with its lines indented to a column at least, and whether it ended on a
line of its own. -/
def plainScalar (flow : Bool) (margin : Nat) (seen : List Char) (gap : Gap) :
    List Spot → Option (String × Bool × List Spot)
  | [] => some (String.ofList seen.reverse, gap.isMultiline, [])
  | s :: rest =>
    let ended := some (String.ofList seen.reverse, gap.isMultiline, s :: rest)
    if isBlank s.char then
      -- A tab must not take the place of the indentation.
      if gap.isMultiline ∧ s.column < margin ∧ s.char = '\t' then none
      else plainScalar flow margin seen (gap.addBlank s.char) rest
    else if isBreak s.char then plainScalar flow margin seen (gap.addBreak s.char) rest
    -- A comment needs a gap in front of it; a number sign within a word is part of it.
    else if gap ≠ .none ∧ ((flow = false ∧ s.column < margin) ∨ s.char = '#') then ended
    else if atDocumentBound (s :: rest) then ended
    else
      match endsPlain? flow s.char rest with
      | none => none
      | some true => ended
      | some false => plainScalar flow margin (s.char :: gap.text ++ seen) .none rest

/-! ## Blocks of text -/

/-- What becomes of the line breaks at the end of a block. -/
inductive Chomping where
  | strip
  | clip
  | keep
  deriving DecidableEq, Repr

/-- The head of a block of text: what to chomp, and by how many columns it is indented. -/
structure BlockHead where
  chomping : Chomping := .clip
  indent : Option Nat := none
  deriving DecidableEq, Repr

namespace BlockHead

/-- The sign of a way to chomp. -/
def chomping? (c : Char) : Option Chomping :=
  if c = '+' then some .keep else if c = '-' then some .strip else none

/-- Reads one sign of a head into what is read so far. Each kind of sign may come once. -/
def add? (head : BlockHead) (chomped : Bool) (c : Char) : Option BlockHead :=
  match chomping? c with
  | some chomping => if chomped then none else some { head with chomping }
  | none =>
    if c.isDigit && c != '0' && head.indent.isNone then
      some { head with indent := some (c.toNat - '0'.toNat) }
    else none

/-- Reads the head of a block and leaves the lines behind it. -/
def read? (spots : List Spot) : Option (BlockHead × List Spot) := do
  let (signs, rest) := spanChars (fun c => c == '+' || c == '-' || c.isDigit) spots
  let head ←
    match signs with
    | [] => some {}
    | [a] => add? {} false a
    | [a, b] => do add? (← add? {} false a) (chomping? a).isSome b
    | _ => none
  return (head, ← nextLine? (skipToLineEnd rest))

end BlockHead

/-- The lines of a block that have been read: the text, the break that ended its last line
and the breaks of the empty lines since then, all in reverse. -/
structure Block where
  text : List Char := []
  lastBreak : List Char := []
  emptyLines : List Char := []
  /-- Whether the last line began with a blank. -/
  blankLine : Bool := false
  deriving DecidableEq, Repr

namespace Block

/-- Begins a line with a character. Breaks are folded between two lines that begin with no
blank. -/
def beginLine (folded : Bool) (c : Char) (b : Block) : Block :=
  let joined :=
    -- Only a line feed folds; the separators of lines and paragraphs are kept.
    if folded && b.lastBreak == ['\n'] && !b.blankLine && !isBlank c then
      if b.emptyLines.isEmpty then [' '] else b.emptyLines
    else b.emptyLines ++ b.lastBreak
  { text := c :: joined ++ b.text, blankLine := isBlank c }

/-- The whole text. -/
def chomp (chomping : Chomping) (b : Block) : String :=
  let ending := match chomping with
    | .strip => []
    | .clip => b.lastBreak
    | .keep => b.emptyLines ++ b.lastBreak
  String.ofList (ending ++ b.text).reverse

end Block

/-- Where a block of text stands that is being read: in the margin of a line, the furthest
column reached there so far being known, or behind it. -/
inductive BlockState where
  | margin (furthest : Nat)
  | line
  deriving DecidableEq, Repr

/-- A block of text, read on from a state. Its first line that is not empty sets the column
where all lines begin if the head does not, `least` columns in at least. -/
def blockLines (folded : Bool) (chomping : Chomping) (least : Nat) (indent : Option Nat)
    (b : Block) : BlockState → List Spot → ScalarRead
  | _, [] => some (b.chomp chomping, [])
  | .line, s :: rest =>
    if isBreak s.char then
      blockLines folded chomping least indent { b with lastBreak := [s.char] } (.margin 0) rest
    else
      blockLines folded chomping least indent { b with text := s.char :: b.text } .line rest
  | .margin furthest, s :: rest =>
    let furthest := max furthest s.column
    let inMargin := indent.all (s.column < ·)
    if inMargin && s.char == ' ' then
      blockLines folded chomping least indent b (.margin furthest) rest
    else if inMargin && s.char == '\t' then none
    else if isBreak s.char then
      let b := { b with emptyLines := s.char :: b.emptyLines }
      blockLines folded chomping least indent b (.margin furthest) rest
    else
      -- The first line that holds something sets the indentation, and the blanks of empty lines
      -- before it count.
      let column := indent.getD (max furthest (max least 1))
      if s.column = column then
        blockLines folded chomping least (some column) (b.beginLine folded s.char) .line rest
      -- A line that is not as far in ends the block and belongs to what follows.
      else some (b.chomp chomping, s :: rest)

/-- A block of text, from behind its opening sign, within a block at a column or none. -/
def blockScalar (folded : Bool) (parent : Option Nat) (spots : List Spot) : ScalarRead := do
  let (head, rest) ← BlockHead.read? spots
  let indent := head.indent.map (· + parent.getD 0)
  blockLines folded head.chomping ((parent.map (· + 1)).getD 0) indent {} (.margin 0) rest

end ClusterKeeper.Yaml
