/-
# The settings file

Where settings are looked for, and what is taken for granted if there are none. A file that
is named outright has to be there; after that the working directory is searched, and then
the directory where the user keeps settings.
-/

import ClusterKeeper.Files.Request
import ClusterKeeper.Settings.Yaml

namespace ClusterKeeper

open FileDialogue

/-- What a program finds around it when it is started. -/
structure Surroundings where
  environment : List (String × String) := []
  workingDirectory : String
  deriving DecidableEq, Repr

namespace Surroundings

/-- The value of a variable. -/
def valueOf? (s : Surroundings) (name : String) : Option String := s.environment.lookup name

/-- The directory where the user keeps settings. One that is named has to be absolute. -/
def userSettings? (s : Surroundings) : Option String :=
  match (s.valueOf? "XDG_CONFIG_HOME").filter Path.isAbsoluteText with
  | some directory => some directory
  | none =>
    match (s.valueOf? "HOME").filter (!·.isEmpty) with
    | some home => some (Path.joinText home ".config")
    | none => none

/-- Where a settings file may be if none is named, in the order of search. -/
def settingsFiles (s : Surroundings) : List String :=
  ["clusterflow.local.yaml", "clusterflow.yaml"].map (Path.joinText s.workingDirectory)
    ++ s.userSettings?.toList.map fun directory =>
      Path.joinText (Path.joinText directory "clusterflow") "config.yaml"

/-- The first path that leads to anything. -/
def firstThere : List String → FileDialogue (Option String)
  | [] => return none
  | path :: paths => do
    if ← pathExists (.ofText path) then return some path else firstThere paths

/-- The settings file, if there is one. -/
def findSettingsFile (s : Surroundings) : FileDialogue (Except ConfigError (Option String)) := do
  match s.valueOf? "CLUSTERFLOW_CONFIG_PATH" with
  | some path =>
    if ← pathExists (.ofText path) then return .ok (some path)
    else return .error (.fileNotFound path)
  | none => return .ok (← firstThere s.settingsFiles)

end Surroundings

/-- The settings of a file. -/
def Settings.ofFile (path : String) : FileDialogue (Except ConfigError Settings) := do
  match ← ask (.readText (.ofText path)) with
  | .error e => return .error (.files e)
  | .ok text =>
    match parseYaml? text with
    | none => return .error (.unreadable path)
    | some settings => return settings.validate.map fun () => settings

/-- The settings of the settings file, or the defaults if there is none. -/
def Settings.load (s : Surroundings) : FileDialogue (Except ConfigError Settings) := do
  match ← s.findSettingsFile with
  | .error e => return .error e
  | .ok none => return .ok {}
  | .ok (some path) => ofFile path

end ClusterKeeper
