/-
# Layout

The tokens of a text. Blocks are not bracketed, so a block begins where a column is reached
that is further in than the block around it, and ends with the next token that is not. A key
is known as one only by the colon behind it: until then the place before it is kept, and
the tokens that open the mapping and the key are put there.
-/

import ClusterKeeper.Yaml.Scalar

namespace ClusterKeeper.Yaml

/-- A token that may turn out to begin a key. -/
structure KeyPlace where
  line : Nat
  column : Nat
  /-- Whether nothing else can stand here. -/
  required : Bool
  /-- The number of tokens before it. -/
  position : Nat
  deriving DecidableEq, Repr

/-- How far a key may reach. -/
def maxKeyLength : Nat := 1024

/-- Whether a key that began at a place could still go on at a spot. -/
def KeyPlace.reaches (k : KeyPlace) (s : Spot) : Bool :=
  s.line ≤ k.line && s.column ≤ k.column + maxKeyLength

/-- What is known of a text in front of a spot. -/
structure Layout where
  /-- The columns of the open blocks, the innermost first. -/
  blocks : List Nat := []
  /-- The possible key in the innermost brackets, or outside of all. -/
  key : Option KeyPlace := none
  /-- The possible keys around each of the open brackets, the innermost first. -/
  outerKeys : List (Option KeyPlace) := []
  /-- Whether a key may begin here. -/
  keyAllowed : Bool := true
  /-- The tokens so far, in reverse. -/
  tokens : List Token := []
  deriving DecidableEq, Repr

namespace Layout

/-- Whether the spot is within brackets. -/
def inBrackets (l : Layout) : Bool := !l.outerKeys.isEmpty

/-- Adds a token. -/
def emit (t : Token) (l : Layout) : Layout := { l with tokens := t :: l.tokens }

/-- Puts a token behind a number of the tokens so far. -/
def emitAt (position : Nat) (t : Token) (l : Layout) : Layout :=
  -- The tokens are in reverse, so those behind the position come first.
  let later := l.tokens.length - position
  { l with tokens := l.tokens.take later ++ t :: l.tokens.drop later }

/-- Gives up a possible key. -/
def giveUp : Option KeyPlace → Option (Option KeyPlace)
  | none => some none
  | some k => if k.required then none else some none

/-- Gives up the innermost possible key. -/
def dropKey (l : Layout) : Option Layout := do return { l with key := ← giveUp l.key }

/-- Gives up all keys that cannot reach a spot. -/
def dropStaleKeys (s : Spot) (l : Layout) : Option Layout := do
  let check (key : Option KeyPlace) : Option (Option KeyPlace) :=
    if key.all (·.reaches s) then some key else giveUp key
  return { l with key := ← check l.key, outerKeys := ← l.outerKeys.mapM check }

/-- Notes that a key may begin at a spot. -/
def saveKey (s : Spot) (l : Layout) : Option Layout := do
  if !l.keyAllowed then return l
  let l ← l.dropKey
  -- At the column of the block around it nothing but a key can stand.
  let required := !l.inBrackets && l.blocks.head? == some s.column
  return { l with key := some ⟨s.line, s.column, required, l.tokens.length⟩ }

/-- Opens a block if a column is further in than the block around it. -/
def openBlock (column position : Nat) (t : Token) (l : Layout) : Layout :=
  if !l.inBrackets && l.blocks.head?.all (· < column) then
    { l.emitAt position t with blocks := column :: l.blocks }
  else l

/-- Ends all blocks that are further in than is allowed. Within brackets none ends. -/
def closeBlocks (tooFar : Nat → Bool) (l : Layout) : Layout :=
  if l.inBrackets then l
  else
    { l with
      blocks := l.blocks.dropWhile tooFar
      tokens := (l.blocks.takeWhile tooFar).map (fun _ => .blockEnd) ++ l.tokens }

/-- Ends all blocks, as directives and the bounds of documents do. -/
def closeAll (l : Layout) : Option Layout := do
  let l ← (l.closeBlocks fun _ => true).dropKey
  return { l with keyAllowed := false }

/-! ## The tokens that a sign begins -/

/-- A layout and the spots behind a token. -/
abbrev Step := Option (Layout × List Spot)

/-- A bracket that opens. -/
def openBracket (t : Token) (s : Spot) (rest : List Spot) (l : Layout) : Step := do
  let l ← l.saveKey s
  let l := { l.emit t with key := none, outerKeys := l.key :: l.outerKeys, keyAllowed := true }
  return (l, rest)

/-- A bracket that closes. One that was not opened is left to the reader of the tokens. -/
def closeBracket (t : Token) (rest : List Spot) (l : Layout) : Step := do
  let l ← l.dropKey
  let l := match l.outerKeys with
    | [] => l
    | key :: outerKeys => { l with key, outerKeys }
  return ({ l.emit t with keyAllowed := false }, rest)

/-- A comma within brackets. -/
def comma (rest : List Spot) (l : Layout) : Step := do
  let l ← l.dropKey
  return ({ l.emit .flowItem with keyAllowed := true }, rest)

/-- Opens a block at a spot where one may begin; within brackets nothing is opened. -/
def beginBlock (t : Token) (s : Spot) (l : Layout) : Option Layout :=
  if l.inBrackets then some l
  else if l.keyAllowed then some (l.openBlock s.column l.tokens.length t)
  else none

/-- The dash in front of an item. -/
def dash (s : Spot) (rest : List Spot) (l : Layout) : Step := do
  let l ← (← l.beginBlock .blockSequence s).dropKey
  return ({ l.emit .blockItem with keyAllowed := true }, rest)

/-- The question mark in front of a key. -/
def questionMark (s : Spot) (rest : List Spot) (l : Layout) : Step := do
  let l ← (← l.beginBlock .blockMapping s).dropKey
  return ({ l.emit .key with keyAllowed := !l.inBrackets }, rest)

/-- The colon behind a key. -/
def colon (s : Spot) (rest : List Spot) (l : Layout) : Step := do
  match l.key with
  | some k =>
    -- The token that opens the mapping is put at the same place later, and so in front of the key.
    let l := (l.emitAt k.position .key).openBlock k.column k.position .blockMapping
    return ({ l.emit .value with key := none, keyAllowed := false }, rest)
  | none =>
    -- A colon with nothing in front of it stands behind an empty key.
    let l ← l.beginBlock .blockMapping s
    return ({ l.emit .value with keyAllowed := !l.inBrackets }, rest)

/-- A piece that may be all or part of a key. -/
def piece (s : Spot) (read : Option (Token × List Spot)) (l : Layout) : Step := do
  let l ← l.saveKey s
  let (t, rest) ← read
  return ({ l.emit t with keyAllowed := false }, rest)

/-- A block of text. -/
def textBlock (style : ScalarStyle) (rest : List Spot) (l : Layout) : Step := do
  let l ← l.dropKey
  let (text, rest) ← blockScalar (style == .folded) l.blocks.head? rest
  return ({ l.emit (.scalar style text) with keyAllowed := true }, rest)

/-- A plain scalar. A key may begin on the line behind it. -/
def plain (s : Spot) (rest : List Spot) (l : Layout) : Step := do
  let l ← l.saveKey s
  -- Lines that go on have to be further in than the block around the scalar.
  let margin := (l.blocks.head?.map (· + 1)).getD 0
  let (text, ended, rest) ← plainScalar l.inBrackets margin [] .none (s :: rest)
  return ({ l.emit (.scalar .plain text) with keyAllowed := ended }, rest)

/-- The signs that a plain scalar does not begin with, a few exceptions apart. -/
def indicators : List Char := "-?:,[]\x7b\x7d#&*!|>'\"%@\u0060".toList

/-- Whether a plain scalar begins with a character in front of the rest. -/
def startsPlain (l : Layout) (c : Char) (rest : List Spot) : Bool :=
  !(isBlank c || isBreak c || indicators.contains c)
    -- A dash that is part of a word begins one, and outside of brackets the other two signs do.
    || c == '-' && !(rest.head?.any fun s => isBlank s.char)
    || !l.inBrackets && (c == '?' || c == ':') && !atGap rest

/-- The token that begins at a spot. -/
def token (s : Spot) (rest : List Spot) (l : Layout) : Step :=
  let c := s.char
  match tripleAtMargin? '-' (s :: rest), tripleAtMargin? '.' (s :: rest) with
  -- The bounds of a document come before all else, within brackets too.
  | some rest, _ => do return ((← l.closeAll).emit .documentStart, rest)
  | _, some rest => do return ((← l.closeAll).emit .documentEnd, rest)
  | none, none =>
    if c = '%' ∧ s.column = 0 then do
      let l ← l.closeAll
      let (t, rest) ← directive? rest
      return (l.emit t, rest)
    else if c = '[' then l.openBracket .openSequence s rest
    else if c = '{' then l.openBracket .openMapping s rest
    else if c = ']' then l.closeBracket .closeSequence rest
    else if c = '}' then l.closeBracket .closeMapping rest
    else if c = ',' then l.comma rest
    else if c = '-' ∧ atGap rest then l.dash s rest
    else if c = '?' ∧ (l.inBrackets ∨ atGap rest) then l.questionMark s rest
    else if c = ':' ∧ (l.inBrackets ∨ atGap rest) then l.colon s rest
    else if c = '*' then l.piece s ((name? rest).map fun (n, r) => (.alias n, r))
    else if c = '&' then l.piece s ((name? rest).map fun (n, r) => (.anchor n, r))
    else if c = '!' then
      l.piece s ((tag? l.inBrackets (s :: rest)).map fun (t, r) => (.tag t, r))
    else if c = '|' ∧ !l.inBrackets then l.textBlock .literal rest
    else if c = '>' ∧ !l.inBrackets then l.textBlock .folded rest
    else if c = '\'' then
      l.piece s ((singleQuoted [] .none false rest).map fun (t, r) => (.scalar .quoted t, r))
    else if c = '"' then
      l.piece s ((doubleQuoted [] .none .plain rest).map fun (t, r) => (.scalar .quoted t, r))
    else if l.startsPlain c rest then l.plain s rest
    else none

/-- The spots from the next token on, and whether a key may begin there: outside of brackets
one may at the start of each line. A tab does not count as a blank where a key may begin. -/
def skipGap (inBrackets : Bool) : (keyAllowed inComment : Bool) → List Spot → Bool × List Spot
  | keyAllowed, _, [] => (keyAllowed, [])
  | keyAllowed, inComment, s :: rest =>
    -- A comment ends with its line.
    if isBreak s.char then skipGap inBrackets (keyAllowed || !inBrackets) false rest
    else if inComment then skipGap inBrackets keyAllowed true rest
    else if s.char = ' ' ∨ (s.char = '\t' ∧ (inBrackets ∨ !keyAllowed)) then
      skipGap inBrackets keyAllowed false rest
    else if s.char = '#' then skipGap inBrackets keyAllowed true rest
    else (keyAllowed, s :: rest)

/-- The tokens of the spots behind a layout. Each token takes one spot at least, so their
number is fuel enough. -/
def finish (l : Layout) : (fuel : Nat) → List Spot → Option (List Token)
  | 0, _ => none
  | fuel + 1, spots => do
    let (keyAllowed, spots) := skipGap l.inBrackets l.keyAllowed false spots
    let l := { l with keyAllowed }
    match spots with
    | [] => return (← l.closeAll).tokens.reverse
    | s :: rest =>
      let l ← l.dropStaleKeys s
      let (l, rest) ← (l.closeBlocks (s.column < ·)).token s rest
      l.finish fuel rest

end Layout

/-- The tokens of a text. -/
def tokens? (text : String) : Option (List Token) := do
  let spots ← spots? text
  Layout.finish {} (spots.length + 1) spots

end ClusterKeeper.Yaml
