/-
# The engine

The engine holds a walk with a cloud: it keeps the clock, the interrupt monitor and a
journal of the calls. While a call runs, time may pass and interrupts may be requested.
-/

import ClusterKeeper.Reconcile.Walk

namespace ClusterKeeper

/-- What a call comes to: its answer, the interrupts that were requested while it ran, and
the milliseconds that it took. -/
structure Reply (α : Type) where
  answer : α
  requests : List InterruptRequest := []
  elapsed : Nat := 0

/-- How a cloud of states `σ` behaves. -/
abbrev Cloud (σ : Type) := (c : CloudCall) → σ → Reply c.Answer × σ

/-- A cloud's state with the clock in milliseconds, the monitor, and the calls so far with
the time of each, the latest first. -/
structure Engine (σ : Type) where
  cloud : σ
  monitor : Monitor := {}
  clock : Nat := 0
  journal : List (Nat × CloudCall) := []

namespace Engine

variable {σ α : Type}

/-- Answers one question of a walk. -/
def answer (cloud : Cloud σ) : (q : WalkQuestion) → Engine σ → q.Answer × Engine σ
  | .call c, e =>
    let (reply, s) := cloud c e.cloud
    (reply.answer,
      { cloud := s
        monitor := reply.requests.foldl Monitor.request e.monitor
        clock := e.clock + reply.elapsed
        journal := (e.clock, c) :: e.journal })
  | .wait d, e => ((), { e with clock := e.clock + d.waitMillis })
  | .poll, e => (e.monitor.signal, e)
  | .endPhase, e => ((), { e with monitor := e.monitor.reset })

/-- Holds a walk with a cloud. -/
def run (cloud : Cloud σ) (w : Walk α) (e : Engine σ) : Option α × Engine σ :=
  w.run (answer cloud) e

end Engine

end ClusterKeeper
