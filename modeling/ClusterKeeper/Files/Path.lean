/-
# Paths

A path leads from the root of the file system, or from the working directory, through the
parts that slashes separate. Empty parts do not count; the path with no part at all that is
not absolute leads nowhere. Behind a slash at the end there can only be a directory.
-/

namespace ClusterKeeper

/-- A path. -/
structure Path where
  absolute : Bool := false
  parts : List String
  /-- Whether a slash stands at the end. -/
  slashed : Bool := false
  deriving DecidableEq, Repr, Inhabited

namespace Path

/-- The parts between slashes, empty ones included. -/
def splitSlashes : List Char → List (List Char)
  | [] => [[]]
  | c :: cs =>
    if c = '/' then [] :: splitSlashes cs
    else
      match splitSlashes cs with
      | [] => [[c]]
      | p :: ps => (c :: p) :: ps

/-- The parts of a text that count. -/
def partsOf (text : String) : List String :=
  ((splitSlashes text.toList).filter fun p => !p.isEmpty).map String.ofList

/-- Whether a text is a path from the root. -/
def isAbsoluteText (text : String) : Bool := text.toList.head? == some '/'

/-- Whether a text ends in a slash. -/
def endsInSlash (text : String) : Bool := text.toList.getLast? == some '/'

/-- The path of a text. -/
def ofText (text : String) : Path where
  absolute := isAbsoluteText text
  parts := partsOf text
  slashed := endsInSlash text

/-- The text of a path. -/
def text (p : Path) : String :=
  (if p.absolute then "/" else "") ++ "/".intercalate p.parts
    ++ (if p.slashed && !p.parts.isEmpty then "/" else "")

/-- The path that goes on as a text says, from a directory. An absolute text starts anew. -/
def join (p : Path) (text : String) : Path :=
  if isAbsoluteText text then ofText text
  else
    { p with
      parts := p.parts ++ partsOf text
      slashed := text.isEmpty || endsInSlash text }

/-- The path of a file in a directory. -/
def child (p : Path) (name : String) : Path :=
  { p with parts := p.parts ++ [name], slashed := false }

/-- The path that leads nowhere. -/
def isEmpty (p : Path) : Bool := !p.absolute && p.parts.isEmpty

/-- The path to the directory of what a path leads to. Single dots at the end do not count;
the root and the empty path have no parent. -/
def parent? (p : Path) : Option Path :=
  let withoutDots (parts : List String) := (parts.reverse.dropWhile (· == ".")).reverse
  match withoutDots p.parts with
  | [] => none
  | parts => some { p with parts := withoutDots parts.dropLast, slashed := false }

/-- The text of a file in a directory. -/
def joinText (directory name : String) : String :=
  if isAbsoluteText name then name
  else if directory.isEmpty || directory.endsWith "/" then directory ++ name
  else directory ++ "/" ++ name

end Path

end ClusterKeeper
