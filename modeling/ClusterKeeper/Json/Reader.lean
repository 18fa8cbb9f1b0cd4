/-
# Reading documents

A reader takes a value off the front of a text and leaves the rest. The readers here take
strings, numbers, whole trees and values that are skipped unseen, and step through the
items of an array and the members of an object. A tree is read only down to a number of
levels; what is skipped may be nested to any depth.
-/

import ClusterKeeper.Json.Numeral

namespace ClusterKeeper.Json

/-- Takes a value off the front of a text, or says why there is none. -/
abbrev Reader (α : Type) := List Char → Except Failure (α × List Char)

/-- The blanks that may stand between the parts of a document. -/
def isBlank (c : Char) : Bool := c == ' ' || c == '\t' || c == '\n' || c == '\r'

/-- The text from its first character on that is not a blank. -/
def skipBlanks (cs : List Char) : List Char := cs.dropWhile isBlank

/-- The rest behind a word. -/
def readWord : (word : List Char) → List Char → Except Failure (List Char)
  | [], cs => .ok cs
  | _ :: _, [] => .error .truncated
  | w :: word, c :: cs => if c = w then readWord word cs else .error .malformed

/-! ## Strings -/

/-- The value of a hexadecimal digit. -/
def hexDigit? (c : Char) : Option Nat :=
  if c.isDigit then some (c.toNat - '0'.toNat)
  else if 'a' ≤ c ∧ c ≤ 'f' then some (c.toNat - 'a'.toNat + 10)
  else if 'A' ≤ c ∧ c ≤ 'F' then some (c.toNat - 'A'.toNat + 10)
  else none

/-- Whether a text has at least a number of bytes. -/
def hasBytes : Nat → List Char → Bool
  | 0, _ => true
  | _ + 1, [] => false
  | n + 1, c :: cs => hasBytes (n + 1 - c.utf8Size) cs

/-- The character that a letter behind a backslash stands for. -/
def unescape? (c : Char) : Option Char :=
  match c with
  | '"' => some '"'
  | '\\' => some '\\'
  | '/' => some '/'
  | 'b' => some '\x08'
  | 'f' => some '\x0c'
  | 'n' => some '\n'
  | 'r' => some '\r'
  | 't' => some '\t'
  | _ => none

/-- Where a string that is being read stands. A code unit that opens a surrogate pair is
kept until its partner is there. -/
inductive StringState where
  | plain
  | escaped
  | code (left : Nat) (value : Nat) (opener : Option Nat)
  | opened (opener : Nat)
  | openedEscaped (opener : Nat)
  deriving DecidableEq, Repr

/-- What a code unit comes to behind an opener or none. -/
inductive CodeUnit where
  | char (c : Char)
  | opener (n : Nat)
  | lone

/-- The meaning of a code unit. -/
def codeUnit (value : Nat) : (opener : Option Nat) → CodeUnit
  | none =>
    if 0xDC00 ≤ value ∧ value ≤ 0xDFFF then .lone
    else if 0xD800 ≤ value ∧ value ≤ 0xDBFF then .opener value
    else .char (Char.ofNat value)
  | some first =>
    if 0xDC00 ≤ value ∧ value ≤ 0xDFFF then
      .char (Char.ofNat (0x10000 + (first - 0xD800) * 0x400 + (value - 0xDC00)))
    else .lone

/-- Reads the rest of a string, behind the characters read so far in reverse. Where a code
unit begins, four bytes must be left, whatever they are. -/
def stringBody (seen : List Char) : StringState → Reader String
  | _, [] => .error .truncated
  | .plain, c :: cs =>
    if c = '"' then .ok (String.ofList seen.reverse, cs)
    else if c = '\\' then stringBody seen .escaped cs
    else if c.toNat < 0x20 then .error .malformed
    else stringBody (c :: seen) .plain cs
  | .escaped, c :: cs =>
    if c = 'u' then
      -- The text is said to be truncated even if the bytes that are left are no digits.
      if hasBytes 4 cs then stringBody seen (.code 4 0 none) cs else .error .truncated
    else
      match unescape? c with
      | some d => stringBody (d :: seen) .plain cs
      | none => .error .malformed
  | .code left value opener, c :: cs =>
    match hexDigit? c with
    | none => .error .malformed
    | some d =>
      if 1 < left then stringBody seen (.code (left - 1) (16 * value + d) opener) cs
      else
        match codeUnit (16 * value + d) opener with
        | .char c => stringBody (c :: seen) .plain cs
        | .opener n => stringBody seen (.opened n) cs
        | .lone => .error .malformed
  | .opened n, c :: cs =>
    if c = '\\' then stringBody seen (.openedEscaped n) cs else .error .malformed
  | .openedEscaped n, c :: cs =>
    if c = 'u' then
      if hasBytes 4 cs then stringBody seen (.code 4 0 (some n)) cs else .error .truncated
    else .error .malformed

/-- The rest of a string whose text does not matter. Code units need not pair up. -/
def skipString : StringState → List Char → Except Failure (List Char)
  | _, [] => .error .truncated
  | .escaped, c :: cs =>
    if c = 'u' then
      if hasBytes 4 cs then skipString (.code 4 0 none) cs else .error .truncated
    else if (unescape? c).isSome then skipString .plain cs
    else .error .malformed
  | .code left _ _, c :: cs =>
    if (hexDigit? c).isNone then .error .malformed
    else skipString (if 1 < left then .code (left - 1) 0 none else .plain) cs
  | _, c :: cs =>
    if c = '"' then .ok cs
    else if c = '\\' then skipString .escaped cs
    else if c.toNat < 0x20 then .error .malformed
    else skipString .plain cs

/-! ## Numbers -/

/-- A text that ends within a numeral is truncated. A numeral out of range is malformed. -/
def readNumber : Reader Number := fun cs =>
  match Numeral.scan cs with
  | .error .broken => .error .malformed
  | .error .ended => .error .truncated
  | .ok (x, rest) =>
    match x.number? with
    | some n => .ok (n, rest)
    | none => .error .malformed

/-- The rest behind a numeral of whatever size. -/
def skipNumber (cs : List Char) : Except Failure (List Char) :=
  match Numeral.scan cs with
  | .error _ => .error .malformed
  | .ok (_, rest) => .ok rest

/-- Whether a numeral begins with the character. -/
def startsNumber (c : Char) : Bool := c == '-' || c.isDigit

/-! ## Items and members -/

/-- Whether an array or object goes on. -/
inductive Step where
  | closed (rest : List Char)
  | more (rest : List Char)

/-- The step to the next item of an array. Items have a comma between them. -/
def nextItem (first : Bool) (cs : List Char) : Except Failure Step :=
  match skipBlanks cs with
  | [] => .error .truncated
  | c :: cs =>
    if c = ']' then .ok (.closed cs)
    else if first then .ok (.more (c :: cs))
    else if c = ',' then
      match skipBlanks cs with
      | [] => .error .truncated
      | c :: cs => if c = ']' then .error .malformed else .ok (.more (c :: cs))
    else .error .malformed

/-- The step to the next member of an object, into its quoted name. -/
def nextName (first : Bool) (cs : List Char) : Except Failure Step :=
  match skipBlanks cs with
  | [] => .error .truncated
  | c :: cs =>
    if c = '}' then .ok (.closed cs)
    else if first then if c = '"' then .ok (.more cs) else .error .malformed
    else if c = ',' then
      match skipBlanks cs with
      | [] => .error .truncated
      | c :: cs => if c = '"' then .ok (.more cs) else .error .malformed
    else .error .malformed

/-- The rest behind the colon of a member. -/
def readColon (cs : List Char) : Except Failure (List Char) :=
  match skipBlanks cs with
  | [] => .error .truncated
  | c :: cs => if c = ':' then .ok cs else .error .malformed

/-- The items of an array from its next one on, behind those read so far in reverse. The
fuel is used up by one an item; the length of the text is enough. -/
def readItems {α : Type} (item : Reader α) :
    (fuel : Nat) → (first : Bool) → (seen : List α) → Reader (List α)
  | 0, _, _, _ => .error .truncated
  | fuel + 1, first, seen, cs => do
    match ← nextItem first cs with
    | .closed rest => return (seen.reverse, rest)
    | .more rest =>
      let (x, rest) ← item rest
      readItems item fuel false (x :: seen) rest

/-- The members of an object from its next one on, behind those read so far in reverse. -/
def readMembers {α : Type} (value : Reader α) :
    (fuel : Nat) → (first : Bool) → (seen : List (String × α)) → Reader (List (String × α))
  | 0, _, _, _ => .error .truncated
  | fuel + 1, first, seen, cs => do
    match ← nextName first cs with
    | .closed rest => return (seen.reverse, rest)
    | .more rest =>
      let (name, rest) ← stringBody [] .plain rest
      let rest ← readColon rest
      let (x, rest) ← value rest
      readMembers value fuel false ((name, x) :: seen) rest

/-! ## Whole values -/

/-- A value of any kind, with at most a number of arrays and objects inside one another. -/
def readTree : (levels : Nat) → Reader Tree
  | levels, cs => do
    match skipBlanks cs with
    | [] => .error .truncated
    | c :: cs =>
      if c = 'n' then return (.null, ← readWord ['u', 'l', 'l'] cs)
      else if c = 't' then return (.bool true, ← readWord ['r', 'u', 'e'] cs)
      else if c = 'f' then return (.bool false, ← readWord ['a', 'l', 's', 'e'] cs)
      else if c = '"' then
        let (s, rest) ← stringBody [] .plain cs
        return (.string s, rest)
      else if startsNumber c then
        let (n, rest) ← readNumber (c :: cs)
        return (.number n, rest)
      else
        match levels with
        | 0 => .error .malformed
        | levels + 1 =>
          if c = '[' then
            let (items, rest) ← readItems (readTree levels) (cs.length + 1) true [] cs
            return (.array items, rest)
          else if c = '{' then
            let (members, rest) ← readMembers (readTree levels) (cs.length + 1) true [] cs
            return (.object members, rest)
          else .error .malformed

/-- An array or object that is being skipped. -/
inductive Bracket where
  | square
  | curly
  deriving DecidableEq, Repr

/-- What comes next in a text that is being skipped: a value, or what stands behind the
opening of a bracket or behind a value. -/
inductive SkipState where
  | value
  | opened
  | behindValue
  deriving DecidableEq, Repr

/-- The rest behind the name and colon of a member that is being skipped. -/
def skipName (cs : List Char) : Except Failure (List Char) := do
  match skipBlanks cs with
  | [] => .error .truncated
  | c :: cs =>
    if c = '"' then readColon (← skipString .plain cs) else .error .malformed

/-- The rest behind a value, behind the closing of all brackets around it. Each step takes
at least one character, and the fuel is used up by two a character. -/
def skipFrom : (fuel : Nat) → SkipState → List Bracket → List Char → Except Failure (List Char)
  | 0, _, _, _ => .error .truncated
  | _ + 1, .behindValue, [], cs => .ok cs
  | _ + 1, .opened, [], cs => .ok cs
  | fuel + 1, .value, stack, cs => do
    match skipBlanks cs with
    | [] => .error .truncated
    | c :: cs =>
      if c = '[' then skipFrom fuel .opened (.square :: stack) cs
      else if c = '{' then skipFrom fuel .opened (.curly :: stack) cs
      else
        -- A value that is no array and no object is over at once.
        let rest ←
          if c = 'n' then readWord ['u', 'l', 'l'] cs
          else if c = 't' then readWord ['r', 'u', 'e'] cs
          else if c = 'f' then readWord ['a', 'l', 's', 'e'] cs
          else if c = '"' then skipString .plain cs
          else if startsNumber c then skipNumber (c :: cs)
          else .error .malformed
        skipFrom fuel .behindValue stack rest
  | fuel + 1, state, bracket :: stack, cs => do
    match skipBlanks cs with
    | [] => .error .truncated
    | c :: cs =>
      if c = (match bracket with | .square => ']' | .curly => '}') then
        skipFrom fuel .behindValue stack cs
      else if state = .behindValue ∧ c ≠ ',' then .error .malformed
      else
        -- Behind an opening the character belongs to the first item, behind a value it is the
        -- comma.
        let cs := if state = .behindValue then cs else c :: cs
        let rest ← match bracket with
          | .square => .ok cs
          | .curly => skipName cs
        skipFrom fuel .value (bracket :: stack) rest

/-- The rest behind a value of any kind and depth. -/
def skipValue (cs : List Char) : Except Failure (List Char) :=
  skipFrom (2 * cs.length + 2) .value [] cs

/-- Runs a reader on a whole text; only blanks may stand behind what it takes. -/
def readAll {α : Type} (reader : Reader α) (text : String) : Except Failure α := do
  let (x, rest) ← reader text.toList
  if (skipBlanks rest).isEmpty then return x else .error .malformed

/-- How many levels a document may have. -/
def maxLevels : Nat := 127

/-- The tree of a document. -/
def Tree.parse (text : String) : Except Failure Tree := readAll (readTree maxLevels) text

end ClusterKeeper.Json
