/-
# Settings

What can be tuned: where documents are kept, how long to wait before a delete is tried
again, how often an operation is retried, and how long a batch may take.
-/

import ClusterKeeper.Files.Tree

namespace ClusterKeeper

/-- The directory of the state if none is set, below the working directory. -/
def defaultStateDir : String := ".clusterflow"

/-- The fewest units to begin a backoff with for which squaring makes it grow. -/
def minBackoffUnits : UInt64 := 2

/-- Waiting before a delete is tried again. -/
structure BackoffSettings where
  unitMillis : UInt64 := 1000
  initialUnits : UInt64 := minBackoffUnits
  capSecs : Option UInt64 := none
  maxAttempts : Option UInt32 := none
  deriving DecidableEq, Inhabited

/-- Retrying at a fixed interval. -/
structure RetrySettings where
  attempts : UInt32 := 5
  intervalMillis : UInt64 := 3000
  deriving DecidableEq, Inhabited

/-- Applying many resources at once. -/
structure ConcurrentSettings where
  timeoutSecs : UInt64 := 600
  deriving DecidableEq, Inhabited

/-- All settings. -/
structure Settings where
  stateDir : Option String := none
  backoff : BackoffSettings := {}
  retry : RetrySettings := {}
  concurrent : ConcurrentSettings := {}
  deriving DecidableEq, Inhabited

/-- Why there are no settings. -/
inductive ConfigError where
  | fileNotFound (path : String)
  | unreadable (path : String)
  | invalid (field reason : String)
  | files (fault : FileFault)
  deriving DecidableEq, Repr

/-- The message of an error. -/
def ConfigError.message : ConfigError → String
  | .fileNotFound path =>
    "Config file not found: " ++ path ++ " (set by CLUSTERFLOW_CONFIG_PATH)"
  | .unreadable path => "Invalid config file " ++ path ++ ": no valid settings"
  | .invalid field reason => "Invalid setting " ++ field ++ ": " ++ reason
  | .files f => "IO error: " ++ f.message

/-- A backoff needs a unit and has to grow. -/
def BackoffSettings.validate (s : BackoffSettings) : Except ConfigError Unit :=
  if s.unitMillis = 0 then .error (.invalid "backoff.unit_ms" "must be greater than 0")
  else if s.initialUnits < minBackoffUnits then
    .error (.invalid "backoff.initial_units" ("must be at least "
      ++ toString minBackoffUnits.toNat ++ ", got " ++ toString s.initialUnits.toNat))
  else .ok ()

namespace Settings

/-- Refuses settings that cannot be worked with. -/
def validate (s : Settings) : Except ConfigError Unit := s.backoff.validate

/-- The directory of the state. -/
def stateDirectory (s : Settings) : String := s.stateDir.getD defaultStateDir

end Settings

end ClusterKeeper
