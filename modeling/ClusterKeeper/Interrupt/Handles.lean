/-
# Handles on monitors

Several handles may share one monitor: what is asked of one of them shows in all its
clones. A phase is held open by a guard, and its end resets the monitor that it was begun
on. A watcher sees a change if a signal was sent since it last looked.
-/

import ClusterKeeper.Interrupt.Monitor
import ClusterKeeper.Text.Inspect

namespace ClusterKeeper

/-- What the listener for the signals of the operating system does on an escalation. -/
structure SignalPolicy where
  exitOnSecondInterrupt : Bool := true
  exitOnTerminate : Bool := true
  deriving DecidableEq, Inhabited

/-- A monitor that handles share, with its listener's policy if it listens at all. -/
structure SharedMonitor where
  monitor : Monitor := {}
  listen : Option SignalPolicy := none
  deriving DecidableEq, Inhabited

/-- The policy for inspection. -/
def SignalPolicy.inspect (p : SignalPolicy) : String :=
  Text.inspectRecord "SignalPolicy"
    [("exit_on_second_interrupt", Text.inspectBool p.exitOnSecondInterrupt),
      ("exit_on_terminate", Text.inspectBool p.exitOnTerminate)]

/-- The monitor for inspection. -/
def SharedMonitor.inspect (m : SharedMonitor) : String :=
  Text.inspectRecord "InterruptMonitor"
    [("state", m.monitor.signal.symbol),
      ("listen", Text.inspectOption SignalPolicy.inspect m.listen)]

/-- A number of monitors and the handles on them. Handles, guards and watchers refer to a
monitor by its position. -/
structure Handles where
  monitors : List SharedMonitor
  handles : List Nat
  guards : List (String × Nat) := []
  /-- A watcher knows how many signals its monitor had sent when it last looked. -/
  watchers : List (String × Nat × Nat) := []
  deriving DecidableEq, Inhabited

namespace Handles

/-- One handle on a monitor of its own. -/
def single (listen : Option SignalPolicy) : Handles where
  monitors := [{ listen }]
  handles := [0]

/-- The monitor at a position. -/
def monitorAt (h : Handles) (i : Nat) : SharedMonitor := h.monitors.getD i {}

/-- The monitor that a handle is on. -/
def ofHandle (h : Handles) (handle : Nat) : Nat := h.handles.getD handle 0

/-- Changes the monitor at a position. -/
def modifyAt (h : Handles) (i : Nat) (f : Monitor → Monitor) : Handles :=
  { h with monitors := h.monitors.modify i fun s => { s with monitor := f s.monitor } }

/-- Hands a request to the monitor of a handle, and tells what becomes of it. -/
def request (h : Handles) (handle : Nat) (r : InterruptRequest) : Option Escalation × Handles :=
  let i := h.ofHandle handle
  ((h.monitorAt i).monitor.escalation? r, h.modifyAt i fun m => m.request r)

/-- One more handle on the monitor of a handle. -/
def clone (h : Handles) (handle : Nat) : Handles :=
  { h with handles := h.handles ++ [h.ofHandle handle] }

/-- One more handle, on a monitor of its own that does not listen. -/
def detached (h : Handles) : Handles :=
  { h with monitors := h.monitors ++ [{}], handles := h.handles ++ [h.monitors.length] }

/-- Ends the phase that a guard holds open, if there is one. -/
def endPhase (h : Handles) (guard : String) : Bool × Handles :=
  match h.guards.lookup guard with
  | none => (false, h)
  | some i =>
    (true, { h.modifyAt i Monitor.reset with
      guards := h.guards.filter (·.1 != guard) })

/-- Begins a phase and holds it open with a guard. A guard of the same name is let go. -/
def beginPhase (h : Handles) (handle : Nat) (guard : String) : Handles :=
  let i := h.ofHandle handle
  let (_, h) := h.endPhase guard
  { h with guards := (guard, i) :: h.guards }

/-- The signal that a handle shows. -/
def signal (h : Handles) (handle : Nat) : Signal :=
  (h.monitorAt (h.ofHandle handle)).monitor.signal

/-- Begins to watch the monitor of a handle. -/
def watch (h : Handles) (handle : Nat) (watcher : String) : Handles :=
  let i := h.ofHandle handle
  let others := h.watchers.filter (·.1 != watcher)
  { h with watchers := (watcher, i, (h.monitorAt i).monitor.sent) :: others }

/-- Whether a watcher sees a change. -/
def changed? (h : Handles) (watcher : String) : Option Bool :=
  (h.watchers.lookup watcher).map fun (i, seen) => (h.monitorAt i).monitor.sent != seen

/-- A watcher looks at its monitor. -/
def look (h : Handles) (watcher : String) : Option Signal × Handles :=
  match h.watchers.lookup watcher with
  | none => (none, h)
  | some (i, _) =>
    let m := (h.monitorAt i).monitor
    let others := h.watchers.filter (·.1 != watcher)
    (some m.signal, { h with watchers := (watcher, i, m.sent) :: others })

end Handles

end ClusterKeeper
