/-
# The program

Runs a command on the files of this machine. All that is decided is decided elsewhere; here
each step is taken, and what came of it is printed.
-/

import ClusterKeeper.Cli.Command
import Std.Time.DateTime.Timestamp

namespace ClusterKeeper.Cli

/-- Why a step failed. -/
def faultOf : IO.Error → FileFault
  | .noFileOrDirectory .. => .notFound
  | .alreadyExists .. => .alreadyExists
  | .inappropriateType .. => .notADirectory
  | .unsatisfiedConstraints .. => .notEmpty
  | .invalidArgument .. => .badName
  | _ => .broken

/-- Acts, and takes a failure for an answer. -/
def attempt {α : Type} (action : IO α) : IO (Except FileFault α) := do
  match ← action.toBaseIO with
  | .ok x => return .ok x
  | .error e => return .error (faultOf e)

/-- Makes a file that is to be filled later. -/
def makeFile (made : IO.Ref (Array (Option IO.FS.Handle))) (p : Path) (mode : IO.FS.Mode) :
    IO FileId := do
  let handle ← IO.FS.Handle.mk p.text mode
  made.modifyGet fun handles => (handles.size, handles.push (some handle))

/-- Fills a file that was made before. -/
def fillFile (made : IO.Ref (Array (Option IO.FS.Handle))) (id : FileId) (text : String) :
    IO Unit := do
  if let some handle := (← made.get)[id]?.join then
    handle.putStr text
    handle.flush
    made.modify fun handles => handles.setIfInBounds id none

/-- The text of a file. -/
def readWhole (p : Path) : IO (Except FileFault String) := do
  match ← attempt (IO.FS.readBinFile p.text) with
  | .error e => return .error e
  | .ok bytes => return (String.fromUTF8? bytes).elim (.error .notText) .ok

/-- The time. -/
def currentMoment : IO Moment := do
  let nanos := (← Std.Time.Timestamp.now).toNanosecondsSinceUnixEpoch.toInt
  return { seconds := nanos / nanosPerSecond, nanos := (nanos % nanosPerSecond).toNat }

/-- The milliseconds of a day. -/
def millisOfDay : Nat := 86400000

/-- Lets time pass, a day at a time if need be. -/
def pause (millis : Nat) : IO Unit := do
  for _ in [0 : millis / millisOfDay] do
    IO.sleep millisOfDay.toUInt32
  IO.sleep (millis % millisOfDay).toUInt32

/-- Takes one step. -/
def perform (made : IO.Ref (Array (Option IO.FS.Handle))) : (r : FileRequest) → IO r.Answer
  | .isDirectory p =>
    attempt do return (← (← IO.FS.realPath p.text).metadata).type == .dir
  | .makeDirectory p => attempt (IO.FS.createDir p.text)
  | .createNew p => attempt (makeFile made p .writeNew)
  | .createEmpty p => attempt (makeFile made p .write)
  | .write id text => attempt (fillFile made id text)
  | .readText p => readWhole p
  | .modified p => attempt do
      let time := (← (← IO.FS.realPath p.text).metadata).modified
      return { seconds := time.1, nanos := time.2.toNat }
  | .removeFile p => attempt (IO.FS.removeFile p.text)
  | .removeDirectory p => attempt (IO.FS.removeDirAll p.text)
  | .rename source target => attempt (IO.FS.rename source.text target.text)
  | .list p =>
    attempt do return (← (← IO.FS.realPath p.text).readDir).toList.map fun entry => entry.2
  | .now => currentMoment
  | .wait d => pause d.waitMillis

/-- The variables that a command may look at. -/
def variableNames : List String :=
  ["CLUSTERFLOW_CONFIG_PATH", "CLUSTERFLOW_STATE_DIR", "XDG_CONFIG_HOME", "HOME", "HOSTNAME",
    "HOST"]

/-- What the program finds around it. -/
def lookAround : IO Surroundings := do
  let environment ← variableNames.filterMapM fun name => do
    return (← IO.getEnv name).map fun value => (name, value)
  return { environment, workingDirectory := (← IO.currentDir).toString }

/-- What can be written on the command line. -/
def usage : String :=
  "Inspect and manage clusterflow cluster documents\n\n"
    ++ "Usage: cflow [--state-dir <STATE_DIR>] <COMMAND>\n\n"
    ++ "Commands:\n"
    ++ "  list            List stored clusters\n"
    ++ "  get NAME        Print a cluster document as JSON\n"
    ++ "  validate NAME   Check a stored cluster document\n"
    ++ "  delete NAME     Remove a stored cluster document (with -y or --yes)\n"
    ++ "  version         Show version information\n"

end ClusterKeeper.Cli

open ClusterKeeper ClusterKeeper.Cli in
/-- Runs the command of some words. -/
def main (words : List String) : IO UInt32 := do
  let here ← lookAround
  match Cli.parse here words with
  | .error .help =>
    IO.print usage
    return 0
  | .error .misuse =>
    IO.eprint usage
    return Outcome.misuseCode
  | .ok invocation =>
    let made ← IO.mkRef #[]
    match ← (Cli.run here invocation).runIn (perform made) with
    | none => return 1
    | some outcome =>
      IO.print outcome.text
      if let some failure := outcome.failure then IO.eprint failure.report
      return outcome.exitCode
