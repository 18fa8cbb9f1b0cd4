/-
# Characters in place

Layout gives a text its structure, so each character is kept together with its line and
column. The ways to break a line are made one before, and a text with a character that may
not stand in a document has no spots at all.
-/

namespace ClusterKeeper.Yaml

/-- A character at its place in a text. -/
structure Spot where
  char : Char
  line : Nat
  column : Nat
  deriving DecidableEq, Repr

/-- The code points that may stand in a text, as closed ranges. -/
def allowedRanges : List (Nat × Nat) :=
  [(0x09, 0x0a), (0x0d, 0x0d), (0x20, 0x7e), (0x85, 0x85), (0xa0, 0xd7ff), (0xe000, 0xfffd),
    (0x10000, 0x10ffff)]

/-- Whether a character may stand in a text. -/
def isAllowed (c : Char) : Bool :=
  allowedRanges.any fun r => r.1 ≤ c.toNat && c.toNat ≤ r.2

/-- Makes a carriage return, with or without a line feed behind it, and a next-line character
a line feed. -/
def unifyBreaks : List Char → List Char
  | [] => []
  | '\r' :: '\n' :: cs => '\n' :: unifyBreaks cs
  | c :: cs => (if c = '\r' ∨ c = '\u0085' then '\n' else c) :: unifyBreaks cs

/-- Whether a character breaks the line, once the ways to do so are made one. Separators of
lines and paragraphs stay apart from line feeds. -/
def isBreak (c : Char) : Bool := c == '\n' || c == '\u2028' || c == '\u2029'

/-- Whether a character is a blank within a line. -/
def isBlank (c : Char) : Bool := c == ' ' || c == '\t'

/-- The spots of characters from a place on. -/
def placeFrom : (line column : Nat) → List Char → List Spot
  | _, _, [] => []
  | line, column, c :: cs =>
    ⟨c, line, column⟩ ::
      if isBreak c then placeFrom (line + 1) 0 cs else placeFrom line (column + 1) cs

/-- The spots of a text. A byte order mark in front of it takes a column but is no spot. -/
def spots? (text : String) : Option (List Spot) :=
  let cs := text.toList
  if cs.all isAllowed then
    match unifyBreaks cs with
    -- A block that begins on its first line is one column in.
    | '\uFEFF' :: cs => some (placeFrom 0 1 cs)
    | cs => some (placeFrom 0 0 cs)
  else none

/-- Whether nothing or a blank or a break comes next. -/
def atGap : List Spot → Bool
  | [] => true
  | s :: _ => isBlank s.char || isBreak s.char

/-- Whether a character comes next. -/
def startsWith (c : Char) : List Spot → Bool
  | [] => false
  | s :: _ => s.char == c

/-- The spots behind three equal characters at the start of a line with a gap behind them. -/
def tripleAtMargin? (c : Char) : List Spot → Option (List Spot)
  | a :: b :: d :: rest =>
    if a.column = 0 ∧ a.char = c ∧ b.char = c ∧ d.char = c ∧ atGap rest = true then some rest
    else none
  | _ => none

/-- Whether a line that bounds a document comes next. -/
def atDocumentBound (spots : List Spot) : Bool :=
  (tripleAtMargin? '-' spots).isSome || (tripleAtMargin? '.' spots).isSome

/-- The leading spots whose characters are of a kind, as characters, and the rest. -/
def spanChars (p : Char → Bool) : List Spot → List Char × List Spot
  | [] => ([], [])
  | s :: rest =>
    if p s.char then
      let (cs, rest) := spanChars p rest
      (s.char :: cs, rest)
    else ([], s :: rest)

/-- Leaves out blanks. -/
def skipBlanks (spots : List Spot) : List Spot := (spanChars isBlank spots).2

/-- Leaves out blanks and a comment, up to the end of the line. -/
def skipToLineEnd (spots : List Spot) : List Spot :=
  let rest := skipBlanks spots
  if startsWith '#' rest then (spanChars (fun c => !isBreak c) rest).2 else rest

/-- The next line, if the present one is at its end. -/
def nextLine? : List Spot → Option (List Spot)
  | [] => some []
  | s :: rest => if isBreak s.char then some rest else none

end ClusterKeeper.Yaml
