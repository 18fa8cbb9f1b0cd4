/-
# Quoted text

A text shown for a reader: in double quotes, with quotes and backslashes escaped, the
common controls by their letter, and every other character that is not printable by its
code point in lower case hexadecimal.
-/

import ClusterKeeper.Text.Printable

namespace ClusterKeeper.Text

/-- A character by its code point, for instance `\u{7f}`. -/
def codePoint (c : Char) : List Char :=
  '\\' :: 'u' :: '{' :: Nat.toDigits 16 c.toNat ++ ['}']

/-- How a character is shown between quotes. -/
def shown (c : Char) : List Char :=
  match c with
  | '\x00' => ['\\', '0']
  | '\t' => ['\\', 't']
  | '\r' => ['\\', 'r']
  | '\n' => ['\\', 'n']
  | '"' => ['\\', '"']
  | '\\' => ['\\', '\\']
  | _ => if isPrintable c then [c] else codePoint c

/-- A text in quotes. -/
def quoted (s : String) : String :=
  String.ofList ('"' :: s.toList.flatMap shown ++ ['"'])

/-- Texts in quotes, in brackets. -/
def quotedList (ss : List String) : String :=
  "[" ++ ", ".intercalate (ss.map quoted) ++ "]"

end ClusterKeeper.Text
