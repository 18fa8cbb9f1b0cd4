/-
# Interrupts

A monitor records that an interrupt was asked for, until it is seen between two calls to
the cloud. A first request to abort is recorded; a second one, and a request to terminate,
insist on an exit. A phase that ends puts the monitor back to idle.
-/

namespace ClusterKeeper

/-- What a monitor has recorded. -/
inductive Signal where
  | idle
  | abortRequested
  | terminateRequested
  deriving DecidableEq, Inhabited, Repr

namespace Signal

/-- Whether anything was asked for. -/
def isRequested (s : Signal) : Bool := s != .idle

/-- A signal in words. -/
def text : Signal → String
  | .idle => "idle"
  | .abortRequested => "abort requested"
  | .terminateRequested => "terminate requested"

/-- The symbol of a signal. -/
def symbol : Signal → String
  | .idle => "Idle"
  | .abortRequested => "AbortRequested"
  | .terminateRequested => "TerminateRequested"

end Signal

/-- What becomes of a request. -/
inductive Escalation where
  /-- The signal was recorded and will be seen at the next poll. -/
  | recorded (s : Signal)
  /-- Exit at once, without cleaning up. -/
  | forceExit
  deriving DecidableEq, Repr

/-- What is asked of a monitor. -/
inductive InterruptRequest where
  | abort
  | terminate
  | reset
  deriving DecidableEq, Repr

/-- A recorded signal, and how often a signal was sent to whoever watches. -/
structure Monitor where
  signal : Signal := .idle
  sent : Nat := 0
  deriving DecidableEq, Inhabited, Repr

namespace Monitor

/-- Records a signal and sends it. -/
def send (m : Monitor) (s : Signal) : Monitor := { signal := s, sent := m.sent + 1 }

/-- A request to abort is recorded if it is the first request of all. -/
def requestAbort (m : Monitor) : Escalation × Monitor :=
  if m.signal = .idle then (.recorded .abortRequested, m.send .abortRequested)
  else (.forceExit, m)

/-- A request to terminate always insists on an exit. -/
def requestTerminate (m : Monitor) : Escalation × Monitor :=
  (.forceExit, m.send .terminateRequested)

/-- Back to idle. -/
def reset (m : Monitor) : Monitor := m.send .idle

/-- Hands a request to the monitor. -/
def request (m : Monitor) : InterruptRequest → Monitor
  | .abort => m.requestAbort.2
  | .terminate => m.requestTerminate.2
  | .reset => m.reset

/-- What becomes of a request; a reset is not answered. -/
def escalation? (m : Monitor) : InterruptRequest → Option Escalation
  | .abort => some m.requestAbort.1
  | .terminate => some m.requestTerminate.1
  | .reset => none

end Monitor

end ClusterKeeper
