/-
# File trees

What a file system holds: files and directories by their location, the names of the
directories that lead to them from the root. A path leads to a location by way of directories
that have to exist; what it leads to need not.
-/

import ClusterKeeper.Calendar.Moment
import ClusterKeeper.Files.Path
import ClusterKeeper.SortedMap
import ClusterKeeper.Text.Utf8

namespace ClusterKeeper

/-- Why something could not be done with files. -/
inductive FileFault where
  | notFound
  | alreadyExists
  | notADirectory
  | isADirectory
  | notEmpty
  /-- A name that no file can have, or a path that ends in a dot where that is not allowed. -/
  | badName
  /-- A file whose content is no text. -/
  | notText
  /-- The device failed. -/
  | broken
  deriving DecidableEq, Repr

/-- The message of a fault. -/
def FileFault.message : FileFault → String
  | .notFound => "no such file or directory"
  | .alreadyExists => "file exists"
  | .notADirectory => "not a directory"
  | .isADirectory => "is a directory"
  | .notEmpty => "directory not empty"
  | .badName => "invalid file name"
  | .notText => "file holds no valid text"
  | .broken => "file system failed"

/-- What a file holds: a text, or bytes that are none. -/
inductive Content where
  | text (s : String)
  | bytes (bs : List UInt8)
  deriving DecidableEq, Repr

namespace Content

/-- The content of some bytes. -/
def ofBytes (bs : List UInt8) : Content :=
  match String.fromUTF8? (ByteArray.mk bs.toArray) with
  | some s => .text s
  | none => .bytes bs

/-- The content as a text for a reader. -/
def shown : Content → String
  | .text s => s
  | .bytes bs => String.ofList (Text.decode none bs)

end Content

/-- The names that lead from the root to a file. -/
abbrev Location := List String

/-- Tells files apart, whatever their location. -/
abbrev FileId := Nat

/-- A file or a directory. -/
inductive FileNode where
  | file (id : FileId) (content : Content) (modified : Moment)
  | directory
  deriving DecidableEq, Repr

/-- Whether something is a directory. -/
def FileNode.isDirectory : FileNode → Bool
  | .directory => true
  | .file .. => false

/-- Files and directories by their location. The root is a directory in any case. -/
abbrev FileTree := SortedMap Location FileNode

namespace FileTree

/-- What is at a location. -/
def at? (t : FileTree) (l : Location) : Option FileNode :=
  if l.isEmpty then some .directory else t.find? l

/-- The longest name that a file can have, in bytes. -/
def maxNameBytes : Nat := 255

/-- One step of a path from a location, which has to be a directory. -/
def step (t : FileTree) (l : Location) (part : String) : Except FileFault Location :=
  match t.at? l with
  | none => .error .notFound
  | some (.file ..) => .error .notADirectory
  | some .directory =>
    if part = "." then .ok l
    -- The root is the directory above itself.
    else if part = ".." then .ok l.dropLast
    else if maxNameBytes < part.utf8ByteSize then .error .badName
    else .ok (l ++ [part])

/-- The location that a path leads to from a working directory. -/
def resolve (t : FileTree) (workingDirectory : Location) (p : Path) : Except FileFault Location :=
  if p.parts.any fun part => part.toList.contains '\x00' then .error .badName
  else if p.isEmpty then .error .notFound
  else p.parts.foldlM t.step (if p.absolute then [] else workingDirectory)

/-- Whether a location is strictly below another. -/
def isBelow (l directory : Location) : Bool :=
  directory.isPrefixOf l && directory.length < l.length

/-- The names of what is in a directory, in order. -/
def names (t : FileTree) (directory : Location) : List String :=
  t.keys.filterMap fun l =>
    if isBelow l directory && l.length == directory.length + 1 then l.getLast? else none

/-- The tree without anything below a location. -/
def clear (t : FileTree) (directory : Location) : FileTree :=
  t.filter fun l _ => !isBelow l directory

/-- Moves what is at a location, and all that is below it. -/
def move (t : FileTree) (source target : Location) : FileTree :=
  let moved := t.entries.filterMap fun (l, n) =>
    if source.isPrefixOf l then some (target ++ l.drop source.length, n) else none
  -- A file or an empty directory at the target gives way.
  let kept := (t.clear source).erase source
  moved.foldl (fun t (l, n) => t.insert l n) (kept.erase target)

/-- Replaces the content of the file of an identity, wherever it is. -/
def fill (t : FileTree) (id : FileId) (content : Content) (now : Moment) : FileTree :=
  t.map fun
    | .file i c m => if i = id then .file i content now else .file i c m
    | .directory => .directory

end FileTree

end ClusterKeeper
