/-
# Retrying

An operation is tried a number of times, at least once, with a fixed interval between two
attempts, until it succeeds.
-/

import ClusterKeeper.Duration
import ClusterKeeper.Settings.Basic
import ClusterKeeper.Text.Inspect

namespace ClusterKeeper

/-- How often to try, and how long to wait in between. -/
structure Retrier where
  attempts : Nat
  interval : Duration
  attempts_pos : 0 < attempts
  deriving DecidableEq

/-- An operation that failed at every attempt. -/
structure RetryError (ε : Type) where
  operation : String
  attempts : Nat
  lastError : ε
  deriving DecidableEq, Repr

/-- The message of a retry error, given that of the last error. -/
def RetryError.message {ε : Type} (describe : ε → String) (e : RetryError ε) : String :=
  e.operation ++ " did not succeed after " ++ toString e.attempts ++ " attempt(s): "
    ++ describe e.lastError

namespace Retrier

/-- At least one attempt. -/
def of (attempts : Nat) (interval : Duration) : Retrier where
  attempts := max attempts 1
  interval := interval
  attempts_pos := by omega

/-- The retrier that the settings ask for. -/
def ofSettings (s : RetrySettings) : Retrier :=
  of s.attempts.toNat (.ofMillis s.intervalMillis)

instance : Inhabited Retrier := ⟨ofSettings {}⟩

/-- The retrier for inspection. -/
def inspect (r : Retrier) : String :=
  Text.inspectRecord "Retrier"
    [("attempts", toString r.attempts), ("interval", r.interval.text)]

variable {m : Type → Type} [Monad m] {ε α : Type}

/-- Tries the operation once, and again for as long as attempts are left. -/
def attempt (wait : m Unit) (operation : String) (action : m (Except ε α)) (made : Nat) :
    (left : Nat) → m (Except (RetryError ε) α)
  | 0 => do
    match ← action with
    | .ok x => return .ok x
    | .error e => return .error ⟨operation, made + 1, e⟩
  | left + 1 => do
    match ← action with
    | .ok x => return .ok x
    | .error _ =>
      wait
      attempt wait operation action (made + 1) left

/-- Tries the operation until it succeeds or no attempt is left. -/
def run (r : Retrier) (wait : Duration → m Unit) (operation : String)
    (action : m (Except ε α)) : m (Except (RetryError ε) α) :=
  attempt (wait r.interval) operation action 0 (r.attempts - 1)

end Retrier

end ClusterKeeper
