/-
# What walks ask

A pass and a teardown call resources, wait as the backoff of a resource says, and end their phase;
a pass also looks at the interrupt monitor. What holds of these questions holds of all that such a
walk asks, whatever the answers are.
-/

import ClusterKeeper.Proofs.Records
import ClusterKeeper.Proofs.Retry.Backoff
import ClusterKeeper.Reconcile.Pass
import ClusterKeeper.Reconcile.Teardown

namespace ClusterKeeper.Reconciler

open Dialogue (asks_pure asks_question Asks)

variable {P : WalkQuestion → Prop} {r : Reconciler} {b : Backoff}

theorem asks_call (hcall : ∀ c, P (.call c)) (c : CloudCall) : (Walk.call c).Asks P :=
  asks_question (hcall c)

/-- A walk that is held as a phase asks for the end of the phase, too. -/
theorem asks_phase {α : Type} {w : Walk α} (h : w.Asks P) (hend : P .endPhase) :
    w.phase.Asks P := by
  refine h.bind fun x => ?_
  have hlast : (Walk.ask .endPhase).Asks P := asks_question hend
  exact hlast.bind fun _ => asks_pure x

/-- What holds of the waits of a backoff holds of those behind the first one. -/
theorem forall_wait_next (hwait : ∀ k, P (.wait (Backoff.next^[k] b).delay)) :
    ∀ k, P (.wait (Backoff.next^[k] b.next).delay) :=
  fun k => hwait (k + 1)

/-! ## Cleanups and passes -/

theorem asks_remove (hcall : ∀ c, P (.call c))
    (hwait : ∀ k, P (.wait (Backoff.next^[k] b).delay)) (place : Place) (state : ResourceState)
    (c : Cluster) (patience : Nat) : (remove place state c patience b).Asks P := by
  induction patience generalizing b with
  | zero => trivial
  | succ patience ih =>
    refine (asks_call hcall _).bind fun answer => ?_
    cases answer with
    | ok next => exact asks_pure _
    | error e =>
      dsimp only
      split
      -- What is tried again is asked with the next backoff, and there all waits are later ones.
      · have hfirst : (Walk.wait b.delay).Asks P := asks_question (hwait 0)
        exact hfirst.bind fun _ => ih (forall_wait_next hwait)
      · exact asks_pure _

theorem asks_removeAll (hcall : ∀ c, P (.call c)) (hwait : ∀ k, P (.wait (r.policy.delayAt k)))
    (entries : List (Nat × ResourceState)) (c : Cluster) : (r.removeAll entries c).Asks P := by
  induction entries generalizing c with
  | nil => exact asks_pure _
  | cons entry rest ih =>
    refine (asks_remove hcall hwait _ _ _ _).bind fun result => ?_
    cases result with
    | ok next => exact ih next
    | error e => exact asks_pure _

theorem asks_applyOne (hcall : ∀ c, P (.call c)) (resource : Resource) (index : Nat)
    (q : Progress) : (applyOne resource index q).Asks P := by
  refine (asks_call hcall _).bind fun answer => ?_
  cases answer with
  | error e => exact asks_pure _
  | ok expected =>
    have hlook : (lookUp resource index q.observed).Asks P := by
      refine (asks_call hcall _).bind fun answer => ?_
      cases answer with
      | ok found => exact asks_pure _
      | error e =>
        dsimp only
        split <;> exact asks_pure _
    refine hlook.bind fun found => ?_
    cases found with
    | error e => exact asks_pure _
    | ok found =>
      refine (asks_call hcall _).bind fun answer => ?_
      cases answer with
      | error e => exact asks_pure _
      | ok applied =>
        refine (asks_call hcall _).bind fun answer => ?_
        cases answer <;> exact asks_pure _

theorem asks_applyFrom (hcall : ∀ c, P (.call c)) (hwait : ∀ k, P (.wait (r.policy.delayAt k)))
    (hpoll : P .poll) (resources : List Resource) (index : Nat) (q : Progress) :
    (r.applyFrom resources index q).Asks P := by
  have hclean (q : Progress) : (r.cleanUp q).Asks P := asks_removeAll hcall hwait _ _
  induction resources generalizing index q with
  | nil => exact asks_pure _
  | cons resource rest ih =>
    have hlook : Walk.poll.Asks P := asks_question hpoll
    refine hlook.bind fun signal => ?_
    split
    · have hbreak : (r.breakOff signal index q).Asks P := by
        refine (hclean q).bind fun result => ?_
        cases result <;> exact asks_pure _
      exact hbreak.bind fun _ => asks_pure _
    · refine (asks_applyOne hcall _ _ _).bind fun result => ?_
      cases result with
      | ok q => exact ih _ q
      | error failure =>
        have hroll : (r.rollBack failure.1 ⟨index, resource.label⟩ failure.2.1
            failure.2.2).Asks P := by
          refine (hclean _).bind fun result => ?_
          cases result <;> exact asks_pure _
        exact hroll.bind fun _ => asks_pure _

/-- What a pass asks. -/
theorem asks_reconcile (hcall : ∀ c, P (.call c)) (hwait : ∀ k, P (.wait (r.policy.delayAt k)))
    (hpoll : P .poll) (hend : P .endPhase) (actual expected : Cluster) :
    (r.reconcile actual expected).Asks P := by
  refine asks_phase ?_ hend
  split
  · exact asks_pure _
  · exact asks_applyFrom hcall hwait hpoll _ _ _

/-! ## Teardowns -/

theorem asks_tearDown (hcall : ∀ c, P (.call c))
    (hwait : ∀ k, P (.wait (Backoff.next^[k] b).delay)) (known : Cluster) (place : Place)
    (c : Cluster) (patience : Nat) : (tearDown known place c patience b).Asks P := by
  induction patience generalizing b with
  | zero => trivial
  | succ patience ih =>
    refine (asks_call hcall _).bind fun answer => ?_
    cases answer with
    | error e =>
      dsimp only
      split <;> exact asks_pure _
    | ok found =>
      refine (asks_call hcall _).bind fun answer => ?_
      cases answer with
      | ok next => exact asks_pure _
      | error e =>
        dsimp only
        split
        · split
          · exact asks_pure _
          · have hfirst : (Walk.wait b.delay).Asks P := asks_question (hwait 0)
            exact hfirst.bind fun _ => ih (forall_wait_next hwait)
        · exact asks_pure _

/-- What a teardown asks. It never looks at the monitor. -/
theorem asks_destroy (hcall : ∀ c, P (.call c)) (hwait : ∀ k, P (.wait (r.policy.delayAt k)))
    (hend : P .endPhase) : r.destroy.Asks P := by
  have hall (places : List Place) (c : Cluster) : (r.tearDownAll places c).Asks P := by
    induction places generalizing c with
    | nil => exact asks_pure _
    | cons place rest ih =>
      refine (asks_tearDown hcall hwait _ _ _ _).bind fun result => ?_
      cases result with
      | ok next => exact ih next
      | error e => exact asks_pure _
  exact asks_phase (hall _ _) hend

end ClusterKeeper.Reconciler
