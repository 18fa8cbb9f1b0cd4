/-
# Requests to a file system

What a program asks of a file system and of a clock, one step at a time. Between two steps
others may change the files, and each step may fail.
-/

import ClusterKeeper.Dialogue
import ClusterKeeper.Duration
import ClusterKeeper.Files.Tree

namespace ClusterKeeper

/-- A step. -/
inductive FileRequest where
  /-- Tells whether a path leads to a directory. -/
  | isDirectory (p : Path)
  /-- Makes one directory. -/
  | makeDirectory (p : Path)
  /-- Makes an empty file where there is none. -/
  | createNew (p : Path)
  /-- Makes an empty file, or empties the one that is there. -/
  | createEmpty (p : Path)
  /-- Fills a file that was made before. -/
  | write (id : FileId) (text : String)
  | readText (p : Path)
  /-- Tells when a file was last written. -/
  | modified (p : Path)
  /-- Removes a file. -/
  | removeFile (p : Path)
  /-- Removes a directory with all that is in it. -/
  | removeDirectory (p : Path)
  | rename (source target : Path)
  /-- Tells the names of what is in a directory. -/
  | list (p : Path)
  /-- Tells the time. -/
  | now
  | wait (d : Duration)
  deriving DecidableEq

namespace FileRequest

/-- The answers to a step. -/
abbrev Answer : FileRequest → Type
  | isDirectory _ => Except FileFault Bool
  | makeDirectory _ => Except FileFault Unit
  | createNew _ => Except FileFault FileId
  | createEmpty _ => Except FileFault FileId
  | write _ _ => Except FileFault Unit
  | readText _ => Except FileFault String
  | modified _ => Except FileFault Moment
  | removeFile _ => Except FileFault Unit
  | removeDirectory _ => Except FileFault Unit
  | rename _ _ => Except FileFault Unit
  | list _ => Except FileFault (List String)
  | now => Moment
  | wait _ => Unit

end FileRequest

/-- A program that works with files. -/
abbrev FileDialogue := Dialogue FileRequest.Answer

namespace FileDialogue

/-- Takes one step. -/
def ask (r : FileRequest) : FileDialogue r.Answer := Dialogue.question r

/-- Whether a path leads to anything, as far as can be told. -/
def pathExists (p : Path) : FileDialogue Bool := do
  return (← ask (.isDirectory p)) matches .ok _

/-- Whether a path leads to anything, or why that cannot be told. -/
def pathExists? (p : Path) : FileDialogue (Except FileFault Bool) := do
  match ← ask (.isDirectory p) with
  | .ok _ => return .ok true
  | .error .notFound => return .ok false
  | .error e => return .error e

/-- Whether a path leads to a directory. -/
def leadsToDirectory (p : Path) : FileDialogue Bool := do
  return (← ask (.isDirectory p)) matches .ok true

/-- Whether a path leads to a file. -/
def leadsToFile (p : Path) : FileDialogue Bool := do
  return (← ask (.isDirectory p)) matches .ok false

/-- Makes a directory and those on the way to it, of which there are at most as many as the
fuel says. -/
def makeDirectoriesWithin : (fuel : Nat) → Path → FileDialogue (Except FileFault Unit)
  | 0, _ => return .error .notFound
  | fuel + 1, p => do
    if p.isEmpty then return .ok ()
    let settle (fault : FileFault) : FileDialogue (Except FileFault Unit) := do
      if ← leadsToDirectory p then return .ok () else return .error fault
    match ← ask (.makeDirectory p) with
    | .ok () => return .ok ()
    | .error .notFound =>
      match p.parent? with
      | none => return .error .notFound
      | some parent =>
        match ← makeDirectoriesWithin fuel parent with
        | .error e => return .error e
        | .ok () =>
          match ← ask (.makeDirectory p) with
          | .ok () => return .ok ()
          | .error e => settle e
    | .error e => settle e

/-- Makes a directory and those on the way to it. -/
def makeDirectories (p : Path) : FileDialogue (Except FileFault Unit) :=
  makeDirectoriesWithin (p.parts.length + 1) p

/-- Writes a file, whether it is there or not. -/
def writeFile (p : Path) (text : String) : FileDialogue (Except FileFault Unit) := do
  match ← ask (.createEmpty p) with
  | .error e => return .error e
  | .ok id => ask (.write id text)

end FileDialogue

end ClusterKeeper
