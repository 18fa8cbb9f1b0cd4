/-
# Settings as documents

Every setting may be left out.
-/

import ClusterKeeper.Settings.Basic
import ClusterKeeper.Json.Record

namespace ClusterKeeper

open Json

/-- The document of backoff settings. -/
def BackoffSettings.codec : Codec BackoffSettings :=
  .record "BackoffSettings"
    (.cons "unit_ms" .uint64 (.anywhere 1000)
      (.cons "initial_units" .uint64 (.anywhere minBackoffUnits)
      (.cons "cap_secs" (.option .uint64) (.anywhere none)
      (.cons "max_attempts" (.option .uint32) (.anywhere none) .nil))))
    (fun (unitMillis, initialUnits, capSecs, maxAttempts, _) =>
      { unitMillis, initialUnits, capSecs, maxAttempts })
    (fun s => (s.unitMillis, s.initialUnits, s.capSecs, s.maxAttempts, ()))

/-- The document of retry settings. -/
def RetrySettings.codec : Codec RetrySettings :=
  .record "RetrySettings"
    (.cons "attempts" .uint32 (.anywhere 5)
      (.cons "interval_ms" .uint64 (.anywhere 3000) .nil))
    (fun (attempts, intervalMillis, _) => { attempts, intervalMillis })
    (fun s => (s.attempts, s.intervalMillis, ()))

/-- The document of the settings for batches. -/
def ConcurrentSettings.codec : Codec ConcurrentSettings :=
  .record "ConcurrentSettings"
    (.cons "timeout_secs" .uint64 (.anywhere 600) .nil)
    (fun (timeoutSecs, _) => { timeoutSecs })
    (fun s => (s.timeoutSecs, ()))

/-- Paths are strings that are wanted under a name of their own. -/
def pathCodec : Codec String where
  read := Codec.readString "path string"
  tree := .string

/-- The document of all settings. -/
def Settings.codec : Codec Settings :=
  .record "Settings"
    (.cons "state_dir" (.option pathCodec) (.anywhere none)
      (.cons "backoff" BackoffSettings.codec (.anywhere {})
      (.cons "retry" RetrySettings.codec (.anywhere {})
      (.cons "concurrent" ConcurrentSettings.codec (.anywhere {}) .nil))))
    (fun (stateDir, backoff, retry, concurrent, _) => { stateDir, backoff, retry, concurrent })
    (fun s => (s.stateDir, s.backoff, s.retry, s.concurrent, ()))

end ClusterKeeper
