/-
# What the record of a walk shows

The record of a walk tells which resources were applied with success, which deletes were
made and what came of each, which resources were settled, and what made a pass give up.
-/

import ClusterKeeper.Reconcile.Walk

namespace ClusterKeeper

/-- A question of a walk with the answer it got. -/
abbrev WalkExchange := Dialogue.Exchange WalkQuestion.Answer

/-- The exchanges of a walk, the earliest first. -/
abbrev WalkRecord := List WalkExchange

/-! ## Single exchanges -/

/-- An apply that succeeded: the state of the resource and the cluster that it returned. -/
structure Application where
  index : Nat
  state : ResourceState
  applied : Cluster

/-- A delete and what came of it. -/
structure Deletion where
  index : Nat
  state : ResourceState
  known : Cluster
  answer : Except CloudError Cluster

namespace Deletion

/-- A delete of a resource that failed with an error that may pass. -/
def Retried (index : Nat) (state : ResourceState) (known : Cluster) (d : Deletion) : Prop :=
  ∃ e, d = ⟨index, state, known, .error e⟩ ∧ e.isRetryable = true

/-- Deletes by which a resource was removed: the last one succeeded, and all before it failed
with an error that may pass. -/
def Removes (index : Nat) (state : ResourceState) (deletes : List Deletion) : Prop :=
  ∃ known fails next, deletes = fails ++ [⟨index, state, known, .ok next⟩] ∧
    ∀ d ∈ fails, d.Retried index state known

theorem Removes.exists_ok {index : Nat} {state : ResourceState} {dels : List Deletion}
    (h : Removes index state (dels.filter (·.index == index))) :
    ∃ d ∈ dels, d.index = index ∧ ∃ next, d.answer = .ok next := by
  obtain ⟨known, fails, next, hdels, -⟩ := h
  have hlast : ⟨index, state, known, .ok next⟩ ∈ dels.filter (·.index == index) := by
    rw [hdels]
    exact List.mem_append_right _ (List.mem_singleton_self _)
  exact ⟨_, (List.mem_filter.1 hlast).1, rfl, next, rfl⟩

/-- The cluster behind a delete: what it returned, or what it was passed if it failed. -/
def leaves (d : Deletion) : Cluster :=
  match d.answer with
  | .ok next => next
  | .error _ => d.known

/-- The first delete gets the cluster, and each later one what the one before it left. -/
def Threaded : Cluster → List Deletion → Prop
  | _, [] => True
  | c, d :: ds => d.known = c ∧ Threaded d.leaves ds

end Deletion

/-- What makes a pass give up. A failure to render counts as a failure to apply. -/
inductive Setback where
  | failure (phase : Phase) (error : CloudError)
  | interrupt (signal : Signal)
  deriving DecidableEq

/-- What a pass fails with that gave up at a place, by what its cleanup came to. -/
def Setback.report (place : Place) : Setback → Except CleanupError Cluster → ReconcileError
  | .failure phase e, .ok _ => .rolledBack phase place e
  | .failure phase e, .error c => .cleanupFailed phase place e c
  | .interrupt signal, .ok _ => .interrupted signal place.index
  | .interrupt signal, .error c => .interruptedCleanupFailed signal place.index c

/-- The error of the cleanup, if it failed. -/
def ReconcileError.cleanup? : ReconcileError → Option CleanupError
  | .cleanupFailed _ _ _ c => some c
  | .interruptedCleanupFailed _ _ c => some c
  | _ => none

/-- Questions that a cleanup asks, up to the end of its phase. -/
def WalkQuestion.isCleanup : WalkQuestion → Bool
  | .call (.delete _ _ _) => true
  | .wait _ => true
  | .endPhase => true
  | _ => false

namespace WalkExchange

/-- What an exchange makes a pass give up for. That a resource is not there is no reason. -/
def setback? : WalkExchange → Option Setback
  | ⟨.call (.expected _ _), .error e⟩ => some (.failure .expected e)
  | ⟨.call (.actual _ _), .error e⟩ =>
    if e.isNotFound then none else some (.failure .actual e)
  | ⟨.call (.apply _ _ _ _), .error e⟩ => some (.failure .apply e)
  | ⟨.call (.render _ _ _), .error e⟩ => some (.failure .apply e)
  | ⟨.poll, signal⟩ => if signal.isRequested then some (.interrupt signal) else none
  | _ => none

/-- The apply that succeeded, if the exchange is one. -/
def application? : WalkExchange → Option Application
  | ⟨.call (.apply index _ _ _), .ok (applied, state)⟩ => some ⟨index, state, applied⟩
  | _ => none

/-- The delete, if the exchange is one. -/
def deletion? : WalkExchange → Option Deletion
  | ⟨.call (.delete index state known), answer⟩ => some ⟨index, state, known, answer⟩
  | _ => none

/-- The index of a resource that was rendered with success, which is the last that a pass
does with it. -/
def settled? : WalkExchange → Option Nat
  | ⟨.call (.render index _ _), .ok _⟩ => some index
  | _ => none

/-- Whether a look tells that the resource is there, unless the look fails. -/
def presence? : Except CloudError (Cluster × ResourceState) → Option Bool
  | .ok (_, state) => some state.Exists
  | .error e => if e.isNotFound then some false else none

/-- The index of a resource that was looked up, and whether it is there. -/
def look? : WalkExchange → Option (Nat × Bool)
  | ⟨.call (.actual index _), answer⟩ => (presence? answer).map (index, ·)
  | _ => none

/-- An exchange of a cleanup is a delete, a wait or the end of the phase. -/
theorem cleanup_cases {x : WalkExchange} (h : x.question.isCleanup = true) :
    (∃ i s k a, x = ⟨.call (.delete i s k), a⟩) ∨ (∃ d, x = ⟨.wait d, ()⟩) ∨
      x = ⟨.endPhase, ()⟩ := by
  obtain ⟨q, a⟩ := x
  rcases q with c | d | _ | _
  · cases c with
    | delete i s k => exact .inl ⟨i, s, k, a, rfl⟩
    | _ => simp [WalkQuestion.isCleanup] at h
  · exact .inr (.inl ⟨d, rfl⟩)
  · simp [WalkQuestion.isCleanup] at h
  · exact .inr (.inr rfl)

end WalkExchange

namespace WalkRecord

/-! ## Whole records -/

/-- The applies that succeeded, in order. -/
def applications (log : WalkRecord) : List Application :=
  log.filterMap WalkExchange.application?

/-- The deletes, in order. -/
def deletions (log : WalkRecord) : List Deletion := log.filterMap WalkExchange.deletion?

/-- The deletes of one resource, in order. -/
def deletionsOf (log : WalkRecord) (index : Nat) : List Deletion :=
  log.deletions.filter (·.index == index)

/-- The indices of the resources that were settled, in order. -/
def settled (log : WalkRecord) : List Nat := log.filterMap WalkExchange.settled?

/-- The indices of the resources that were looked up, in order, and whether each is there. -/
def looks (log : WalkRecord) : List (Nat × Bool) := log.filterMap WalkExchange.look?

/-- Nothing in the record makes a pass give up. -/
def Quiet (log : WalkRecord) : Prop := ∀ x ∈ log, WalkExchange.setback? x = none

variable {log log' : WalkRecord}

@[simp] theorem applications_append :
    applications (log ++ log') = applications log ++ applications log' :=
  List.filterMap_append

@[simp] theorem deletions_append :
    deletions (log ++ log') = deletions log ++ deletions log' :=
  List.filterMap_append

@[simp] theorem settled_append : settled (log ++ log') = settled log ++ settled log' :=
  List.filterMap_append

@[simp] theorem looks_append : looks (log ++ log') = looks log ++ looks log' :=
  List.filterMap_append

theorem quiet_append : Quiet (log ++ log') ↔ Quiet log ∧ Quiet log' :=
  List.forall_mem_append

/-- The first exchange that makes a pass give up is determined by the record. -/
theorem setback_unique {before before' after after' : WalkRecord} {x x' : WalkExchange}
    (h : before ++ x :: after = before' ++ x' :: after') (hb : Quiet before)
    (hb' : Quiet before') (hx : WalkExchange.setback? x ≠ none)
    (hx' : WalkExchange.setback? x' ≠ none) : before = before' ∧ x = x' ∧ after = after' := by
  rcases List.append_eq_append_iff.1 h with ⟨mid, rfl, hmid⟩ | ⟨mid, rfl, hmid⟩
  · cases mid with
    | nil => simpa using hmid
    | cons y mid =>
      obtain ⟨rfl, -⟩ := List.cons.inj hmid
      exact absurd (hb' x (by simp)) hx
  · cases mid with
    | nil => simpa [eq_comm] using hmid
    | cons y mid =>
      obtain ⟨rfl, -⟩ := List.cons.inj hmid
      exact absurd (hb x' (by simp)) hx'

/-! ## Cleanups -/

/-- A cleanup does nothing but delete, wait and end the phase. -/
def OnlyCleans (log : WalkRecord) : Prop := ∀ x ∈ log, x.question.isCleanup = true

theorem onlyCleans_append : OnlyCleans (log ++ log') ↔ OnlyCleans log ∧ OnlyCleans log' :=
  List.forall_mem_append

theorem OnlyCleans.applications_eq (h : OnlyCleans log) : applications log = [] := by
  refine List.filterMap_eq_nil_iff.2 fun x hx => ?_
  rcases WalkExchange.cleanup_cases (h x hx) with ⟨i, s, k, a, rfl⟩ | ⟨d, rfl⟩ | rfl <;> rfl

theorem OnlyCleans.looks_eq (h : OnlyCleans log) : looks log = [] := by
  refine List.filterMap_eq_nil_iff.2 fun x hx => ?_
  rcases WalkExchange.cleanup_cases (h x hx) with ⟨i, s, k, a, rfl⟩ | ⟨d, rfl⟩ | rfl <;> rfl

end WalkRecord

end ClusterKeeper
