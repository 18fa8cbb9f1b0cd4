/-
# A machine with files

A file system that answers requests one at a time, with a clock that moves only by waits.
While a program waits, others may remove files at times set before.
-/

import ClusterKeeper.Files.Request

namespace ClusterKeeper

/-- A file system, its clock and what is yet to happen to it from outside. -/
structure Machine where
  files : FileTree := .empty
  workingDirectory : Location := []
  /-- The identity of the next file that is made. -/
  nextId : FileId := 0
  /-- The milliseconds that have been waited for. -/
  clock : Nat := 0
  /-- The time of the calendar. -/
  today : Moment
  /-- Whether the calendar stands still while the clock moves. -/
  calendarStopped : Bool := false
  /-- Files that will be removed from outside, by the clock. -/
  removals : List (Nat × Path) := []
  deriving DecidableEq

namespace Machine

/-- Where a path leads on this machine. -/
def resolve (m : Machine) (p : Path) : Except FileFault Location :=
  m.files.resolve m.workingDirectory p

/-- What a path leads to, and where. -/
def find (m : Machine) (p : Path) : Except FileFault (Location × FileNode) := do
  let l ← m.resolve p
  match m.files.at? l with
  | some n => if p.slashed && !n.isDirectory then throw .notADirectory else return (l, n)
  | none => throw .notFound

/-- Makes an empty file at a location. -/
def addFile (m : Machine) (l : Location) (id : FileId) : Machine :=
  { m with files := m.files.insert l (.file id (.text "") m.today) }

/-- Sets up a directory with those on the way to it, over anything that is there. -/
def putDirectory (m : Machine) (l : Location) : Machine :=
  { m with files := (List.range l.length).foldl (fun files n =>
      files.insert (l.take (n + 1)) .directory) m.files }

/-- Sets up a file with the directories on the way to it, over anything that is there. -/
def putFile (m : Machine) (l : Location) (content : Content) : Machine :=
  let m := m.putDirectory l.dropLast
  { m with files := m.files.insert l (.file m.nextId content m.today), nextId := m.nextId + 1 }

/-- Makes a directory. -/
def makeDirectory (m : Machine) (p : Path) : Except FileFault Machine := do
  let l ← m.resolve p
  match m.files.at? l with
  | some _ => throw .alreadyExists
  | none => return { m with files := m.files.insert l .directory }

/-- Makes a file where there is none. -/
def createNew (m : Machine) (p : Path) : Except FileFault (FileId × Machine) := do
  let l ← m.resolve p
  match m.files.at? l with
  | some _ => throw .alreadyExists
  | none => return (m.nextId, { m.addFile l m.nextId with nextId := m.nextId + 1 })

/-- Makes a file, or empties it. -/
def createEmpty (m : Machine) (p : Path) : Except FileFault (FileId × Machine) := do
  let l ← m.resolve p
  match m.files.at? l with
  | some .directory => throw .isADirectory
  | some (.file id ..) => return (id, m.addFile l id)
  | none => return (m.nextId, { m.addFile l m.nextId with nextId := m.nextId + 1 })

/-- The text of a file. -/
def readText (m : Machine) (p : Path) : Except FileFault String := do
  match ← m.find p with
  | (_, .directory) => throw .isADirectory
  | (_, .file _ (.bytes _) _) => throw .notText
  | (_, .file _ (.text s) _) => return s

/-- When a file was last written. That is not kept of directories. -/
def modified (m : Machine) (p : Path) : Except FileFault Moment := do
  match ← m.find p with
  | (_, .directory) => return m.today
  | (_, .file _ _ modified) => return modified

/-- Removes a file. -/
def removeFile (m : Machine) (p : Path) : Except FileFault Machine := do
  match ← m.find p with
  | (_, .directory) => throw .isADirectory
  | (l, .file ..) => return { m with files := m.files.erase l }

/-- Removes a directory: what is in it first, and then itself if its path still leads to it
and ends in a name. -/
def removeDirectory (m : Machine) (p : Path) : Machine × Except FileFault Unit :=
  match m.find p with
  | .error e => (m, .error e)
  | .ok (_, .file ..) => (m, .error .notADirectory)
  | .ok (l, .directory) =>
    let m := { m with files := m.files.clear l }
    match m.find p with
    | .error .notFound => (m, .ok ())
    | .error e => (m, .error e)
    | .ok _ =>
      -- What was in it is gone even if the directory itself cannot be removed.
      match p.parts.getLast? with
      | none => (m, .error .badName)
      | some part =>
        if part = "." then (m, .error .badName)
        else if part = ".." then (m, .error .notEmpty)
        else ({ m with files := m.files.erase l }, .ok ())

/-- Moves a file or a directory to a path, over a file or an empty directory that is there. -/
def rename (m : Machine) (source target : Path) : Except FileFault Machine := do
  let (l, n) ← m.find source
  let k ← m.resolve target
  match n.isDirectory, m.files.at? k with
  | true, some (.file ..) => throw .notADirectory
  | false, some .directory => throw .isADirectory
  | true, some .directory =>
    if (m.files.names k).isEmpty then return { m with files := m.files.move l k }
    else throw .notEmpty
  | _, _ => return { m with files := m.files.move l k }

/-- The names in a directory. -/
def list (m : Machine) (p : Path) : Except FileFault (List String) := do
  match ← m.find p with
  | (_, .file ..) => throw .notADirectory
  | (l, .directory) => return m.files.names l

/-- Removes from outside the files whose time has come. -/
def removeDue (m : Machine) : Machine :=
  let m' := { m with removals := m.removals.filter fun r => m.clock < r.1 }
  let due := m.removals.filter fun r => r.1 ≤ m.clock
  due.foldl (fun m r => (m.removeFile r.2).toOption.getD m) m'

/-- Lets time pass. -/
def wait (m : Machine) (d : Duration) : Machine :=
  let ms := d.waitMillis
  let nanos : Nat := m.today.nanos + ms % 1000 * nanosPerMilli
  let seconds : Nat := ms / 1000 + nanos / nanosPerSecond
  let today : Moment := { seconds := m.today.seconds + seconds, nanos := nanos % nanosPerSecond }
  { m with
    clock := m.clock + ms
    today := if m.calendarStopped then m.today else today }.removeDue

/-- The outcome of a change that may fail and then changes nothing. -/
def outcome {α : Type} (m : Machine) : Except FileFault (α × Machine) → Except FileFault α × Machine
  | .ok (x, m) => (.ok x, m)
  | .error e => (.error e, m)

/-- Takes one step. -/
def respond : (r : FileRequest) → Machine → r.Answer × Machine
  | .isDirectory p, m => ((m.find p).map (·.2.isDirectory), m)
  | .makeDirectory p, m => m.outcome ((m.makeDirectory p).map ((), ·))
  | .createNew p, m => m.outcome (m.createNew p)
  | .createEmpty p, m => m.outcome (m.createEmpty p)
  | .write id text, m => (.ok (), { m with files := m.files.fill id (.text text) m.today })
  | .readText p, m => (m.readText p, m)
  | .modified p, m => (m.modified p, m)
  | .removeFile p, m => m.outcome ((m.removeFile p).map ((), ·))
  | .removeDirectory p, m =>
    let (m, result) := m.removeDirectory p
    (result, m)
  | .rename source target, m => m.outcome ((m.rename source target).map ((), ·))
  | .list p, m => (m.list p, m)
  | .now, m => (m.today, m)
  | .wait d, m => ((), m.wait d)

/-- Runs a program on a machine. -/
def run {α : Type} (m : Machine) (d : FileDialogue α) : Option α × Machine :=
  Dialogue.run respond d m

end Machine

end ClusterKeeper
