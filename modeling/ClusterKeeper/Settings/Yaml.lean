/-
# Settings in a settings file

A settings file names what is to differ from the defaults. Sections and settings that it
does not know are passed over.
-/

import ClusterKeeper.Settings.Basic
import ClusterKeeper.Yaml.Decode

namespace ClusterKeeper

open Yaml Yaml.Document

variable (d : Yaml.Document)

/-- The settings of a backoff. -/
def BackoffSettings.ofYaml? : Decoder BackoffSettings := fun n => do
  let ms ← d.members? ["unit_ms", "initial_units", "cap_secs", "max_attempts"] n
  let default : BackoffSettings := {}
  return {
    unitMillis := ← member? ms "unit_ms" d.uint64? default.unitMillis
    initialUnits := ← member? ms "initial_units" d.uint64? default.initialUnits
    capSecs := ← member? ms "cap_secs" (d.optional? d.uint64?) default.capSecs
    maxAttempts := ← member? ms "max_attempts" (d.optional? d.uint32?) default.maxAttempts }

/-- The settings of retries. -/
def RetrySettings.ofYaml? : Decoder RetrySettings := fun n => do
  let ms ← d.members? ["attempts", "interval_ms"] n
  let default : RetrySettings := {}
  return {
    attempts := ← member? ms "attempts" d.uint32? default.attempts
    intervalMillis := ← member? ms "interval_ms" d.uint64? default.intervalMillis }

/-- The settings of batches. -/
def ConcurrentSettings.ofYaml? : Decoder ConcurrentSettings := fun n => do
  let ms ← d.members? ["timeout_secs"] n
  let default : ConcurrentSettings := {}
  return { timeoutSecs := ← member? ms "timeout_secs" d.uint64? default.timeoutSecs }

/-- All settings. -/
def Settings.ofYaml? : Decoder Settings := fun n => do
  let ms ← d.members? ["state_dir", "backoff", "retry", "concurrent"] n
  let default : Settings := {}
  return {
    stateDir := ← member? ms "state_dir" (d.optional? d.text?) default.stateDir
    backoff := ← member? ms "backoff" (BackoffSettings.ofYaml? d) default.backoff
    retry := ← member? ms "retry" (RetrySettings.ofYaml? d) default.retry
    concurrent := ← member? ms "concurrent" (ConcurrentSettings.ofYaml? d) default.concurrent }

/-- The settings that a text states, whether one can work with them or not. -/
def Settings.parseYaml? (text : String) : Option Settings := do
  let d ← Yaml.Document.parse? text
  ofYaml? d d.root

end ClusterKeeper
