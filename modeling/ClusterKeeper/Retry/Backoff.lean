/-
# Backoff

Waits that grow: a backoff counts its waits in units and squares their number after each
one. The number of units saturates at 64 bits, the factor that is used at 32, and a wait is
never longer than the cap.
-/

import ClusterKeeper.Duration
import ClusterKeeper.Settings.Basic
import ClusterKeeper.Text.Inspect

namespace ClusterKeeper

/-- How to wait between attempts. -/
structure BackoffPolicy where
  unit : Duration
  initialUnits : UInt64
  cap : Option Duration := none
  maxAttempts : Option Nat := none
  deriving DecidableEq, Inhabited

/-- The waits so far of one operation. -/
structure Backoff where
  policy : BackoffPolicy
  units : Nat
  attempts : Nat := 0
  deriving DecidableEq, Inhabited

namespace BackoffPolicy

/-- The policy that the settings ask for. -/
def ofSettings (s : BackoffSettings) : BackoffPolicy where
  unit := .ofMillis s.unitMillis
  initialUnits := s.initialUnits
  cap := s.capSecs.map .ofSecs
  maxAttempts := s.maxAttempts.map UInt32.toNat

/-- A backoff before its first wait. -/
def start (p : BackoffPolicy) : Backoff where
  policy := p
  units := max p.initialUnits.toNat minBackoffUnits.toNat

/-- The policy for inspection. -/
def inspect (p : BackoffPolicy) : String :=
  Text.inspectRecord "BackoffPolicy"
    [("unit", p.unit.text), ("initial_units", toString p.initialUnits.toNat),
      ("cap", Text.inspectOption Duration.text p.cap),
      ("max_attempts", Text.inspectOption toString p.maxAttempts)]

end BackoffPolicy

namespace Backoff

/-- Whether no further attempt is allowed. -/
def exhausted (b : Backoff) : Bool := b.policy.maxAttempts.any (· ≤ b.attempts)

/-- The length of the next wait. -/
def delay (b : Backoff) : Duration :=
  let wait := b.policy.unit.mul (min b.units (UInt32.size - 1))
  match b.policy.cap with
  | none => wait
  | some cap => wait.min cap

/-- The backoff behind its next wait. -/
def next (b : Backoff) : Backoff :=
  { b with units := min (b.units * b.units) (UInt64.size - 1), attempts := b.attempts + 1 }

end Backoff

end ClusterKeeper
