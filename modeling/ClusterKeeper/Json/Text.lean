/-
# Texts of documents

The compact text of a tree has no blank outside strings. The pretty text puts every item
and member on a line of its own, indented by two blanks a level; an empty array or object
stays on one line. In both a string stands in quotes, with quotes, backslashes and control
characters escaped and every other character as it is.
-/

import ClusterKeeper.Json.Tree

namespace ClusterKeeper.Json

/-- How a character is written inside a string. -/
def escape (c : Char) : List Char :=
  match c with
  | '"' => ['\\', '"']
  | '\\' => ['\\', '\\']
  | '\x08' => ['\\', 'b']
  | '\x0c' => ['\\', 'f']
  | '\n' => ['\\', 'n']
  | '\r' => ['\\', 'r']
  | '\t' => ['\\', 't']
  | _ =>
    if c.toNat < 0x20 then
      ['\\', 'u', '0', '0', Nat.digitChar (c.toNat / 16), Nat.digitChar (c.toNat % 16)]
    else [c]

/-- A string in quotes. -/
def quote (s : String) : List Char := '"' :: s.toList.flatMap escape ++ ['"']

namespace Tree

mutual

/-- The text without blanks. -/
def compact : Tree → List Char
  | .null => ['n', 'u', 'l', 'l']
  | .bool true => ['t', 'r', 'u', 'e']
  | .bool false => ['f', 'a', 'l', 's', 'e']
  | .number n => n.text
  | .string s => quote s
  | .array items => '[' :: compactItems items ++ [']']
  | .object members => '{' :: compactMembers members ++ ['}']

/-- Items with commas between them. -/
def compactItems : List Tree → List Char
  | [] => []
  | [t] => t.compact
  | t :: ts => t.compact ++ ',' :: compactItems ts

/-- Members with commas between them. -/
def compactMembers : List (String × Tree) → List Char
  | [] => []
  | [(k, t)] => quote k ++ ':' :: t.compact
  | (k, t) :: ms => quote k ++ ':' :: t.compact ++ ',' :: compactMembers ms

end

/-- A new line at a level of indentation. -/
def newline (level : Nat) : List Char := '\n' :: List.replicate (2 * level) ' '

mutual

/-- The text with one item a line, of a tree that stands at a level of indentation. -/
def prettyAt (level : Nat) : Tree → List Char
  | .null => ['n', 'u', 'l', 'l']
  | .bool true => ['t', 'r', 'u', 'e']
  | .bool false => ['f', 'a', 'l', 's', 'e']
  | .number n => n.text
  | .string s => quote s
  | .array [] => ['[', ']']
  | .object [] => ['{', '}']
  | .array (t :: ts) => '[' :: prettyItems (level + 1) (t :: ts) ++ newline level ++ [']']
  | .object (m :: ms) => '{' :: prettyMembers (level + 1) (m :: ms) ++ newline level ++ ['}']

/-- Items on lines of their own, with commas between them. -/
def prettyItems (level : Nat) : List Tree → List Char
  | [] => []
  | [t] => newline level ++ t.prettyAt level
  | t :: ts => newline level ++ t.prettyAt level ++ ',' :: prettyItems level ts

/-- Members on lines of their own, with commas between them. -/
def prettyMembers (level : Nat) : List (String × Tree) → List Char
  | [] => []
  | [(k, t)] => newline level ++ quote k ++ ':' :: ' ' :: t.prettyAt level
  | (k, t) :: ms =>
    newline level ++ quote k ++ ':' :: ' ' :: t.prettyAt level ++ ',' :: prettyMembers level ms

end

/-- The text with one item a line. -/
def pretty (t : Tree) : List Char := t.prettyAt 0

end Tree

end ClusterKeeper.Json
