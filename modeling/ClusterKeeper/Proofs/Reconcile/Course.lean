/-
# The course of a pass

A pass settles resources one after another until it is through or gives up. Here every record
of a pass is taken apart into what settles resources, what makes the pass give up, and the
cleanup behind it.
-/

import ClusterKeeper.Proofs.Reconcile.Removal

namespace ClusterKeeper

open Dialogue (ends_question_bind_iff ends_bind_iff ends_done_iff)

/-! ## One resource -/

/-- What a look at a resource finds. One that is not there has an empty state and leaves the
observed cluster as it is. -/
def Resource.found (resource : Resource) (observed : Cluster) :
    Except CloudError (Cluster × ResourceState) → Except CloudError (Cluster × ResourceState)
  | .ok found => .ok found
  | .error e =>
    if e.isNotFound then .ok (observed, { kind := resource.kind, name := resource.name })
    else .error e

/-- The exchanges that settle a resource, and how far the pass has come by then. -/
inductive Settles (resource : Resource) (index : Nat) (p : Progress) :
    WalkRecord → Progress → Prop
  | intro {c found applied observed : Cluster} {expected actual state : ResourceState}
      {answer : Except CloudError (Cluster × ResourceState)}
      (h : resource.found p.observed answer = .ok (found, actual)) :
      Settles resource index p
        [⟨.poll, .idle⟩,
          ⟨.call (.expected index p.applied), .ok (c, expected)⟩,
          ⟨.call (.actual index p.observed), answer⟩,
          ⟨.call (.apply index actual expected p.applied), .ok (applied, state)⟩,
          ⟨.call (.render index state found), .ok observed⟩]
        { applied, observed, ledger := Ledger.record p.ledger index state }

/-- The exchanges with a resource at which a pass gives up, what it gives up for, and how far
it has come by then. -/
inductive GivesUp (resource : Resource) (index : Nat) (p : Progress) :
    WalkRecord → Setback → Progress → Prop
  | interrupted {signal : Signal} (h : signal.isRequested = true) :
      GivesUp resource index p [⟨.poll, signal⟩] (.interrupt signal) p
  | expected {e : CloudError} :
      GivesUp resource index p
        [⟨.poll, .idle⟩, ⟨.call (.expected index p.applied), .error e⟩]
        (.failure .expected e) p
  | actual {c : Cluster} {expected : ResourceState} {e : CloudError}
      (h : e.isNotFound = false) :
      GivesUp resource index p
        [⟨.poll, .idle⟩,
          ⟨.call (.expected index p.applied), .ok (c, expected)⟩,
          ⟨.call (.actual index p.observed), .error e⟩]
        (.failure .actual e) p
  | apply {c found : Cluster} {expected actual : ResourceState}
      {answer : Except CloudError (Cluster × ResourceState)} {e : CloudError}
      (h : resource.found p.observed answer = .ok (found, actual)) :
      GivesUp resource index p
        [⟨.poll, .idle⟩,
          ⟨.call (.expected index p.applied), .ok (c, expected)⟩,
          ⟨.call (.actual index p.observed), answer⟩,
          ⟨.call (.apply index actual expected p.applied), .error e⟩]
        (.failure .apply e) p
  | render {c found applied : Cluster} {expected actual state : ResourceState}
      {answer : Except CloudError (Cluster × ResourceState)} {e : CloudError}
      (h : resource.found p.observed answer = .ok (found, actual)) :
      GivesUp resource index p
        [⟨.poll, .idle⟩,
          ⟨.call (.expected index p.applied), .ok (c, expected)⟩,
          ⟨.call (.actual index p.observed), answer⟩,
          ⟨.call (.apply index actual expected p.applied), .ok (applied, state)⟩,
          ⟨.call (.render index state found), .error e⟩]
        (.failure .apply e)
        { applied, observed := found, ledger := Ledger.record p.ledger index state }

/-- Only an error other than that the resource is not there makes a look fail. -/
theorem Resource.eq_error_of_found {resource : Resource} {observed : Cluster}
    {answer : Except CloudError (Cluster × ResourceState)} {e : CloudError}
    (h : resource.found observed answer = .error e) :
    answer = .error e ∧ e.isNotFound = false := by
  cases answer with
  | ok found => cases h
  | error e' =>
    simp only [found] at h
    split at h
    · cases h
    · next he =>
      cases h
      exact ⟨rfl, by simpa using he⟩

theorem Resource.isNotFound_of_found {resource : Resource} {observed : Cluster} {e : CloudError}
    {x : Cluster × ResourceState} (h : resource.found observed (.error e) = .ok x) :
    e.isNotFound = true := by
  simp only [found] at h
  split at h
  · next he => exact he
  · cases h

namespace Reconciler

theorem ends_lookUp {resource : Resource} {index : Nat} {observed : Cluster} {log : WalkRecord}
    {o : Option (Except CloudError (Cluster × ResourceState))}
    (h : (lookUp resource index observed).Ends log o) :
    ∃ answer, log = [⟨.call (.actual index observed), answer⟩] ∧
      o = some (resource.found observed answer) := by
  obtain ⟨answer, rest, rfl, hrest⟩ := ends_question_bind_iff.1 h
  refine ⟨answer, ?_⟩
  cases answer with
  | ok found =>
    obtain ⟨rfl, rfl⟩ := ends_done_iff.1 hrest
    exact ⟨rfl, rfl⟩
  | error e =>
    dsimp only at hrest
    simp only [Resource.found]
    split at hrest
    · next he =>
      obtain ⟨rfl, rfl⟩ := ends_done_iff.1 hrest
      exact ⟨rfl, by rw [if_pos he]⟩
    · next he =>
      obtain ⟨rfl, rfl⟩ := ends_done_iff.1 hrest
      exact ⟨rfl, by rw [if_neg he]⟩

/-- Applying one resource behind a poll that saw nothing settles it or makes the pass give
up. -/
theorem ends_applyOne {resource : Resource} {index : Nat} {p : Progress} {log : WalkRecord}
    {o : Option (Except (Phase × CloudError × Progress) Progress)}
    (h : (applyOne resource index p).Ends log o) :
    (∃ q, o = some (.ok q) ∧ Settles resource index p (⟨.poll, .idle⟩ :: log) q) ∨
      ∃ phase e q, o = some (.error (phase, e, q)) ∧
        GivesUp resource index p (⟨.poll, .idle⟩ :: log) (.failure phase e) q := by
  -- The cases follow the calls: what is expected, the look, the apply and the render.
  obtain ⟨a, log₁, rfl, h₁⟩ := ends_question_bind_iff.1 h
  rcases a with e | ⟨c, expected⟩
  · obtain ⟨rfl, rfl⟩ := ends_done_iff.1 h₁
    exact .inr ⟨_, e, p, rfl, .expected⟩
  · rcases ends_bind_iff.1 h₁ with ⟨x, front, log₂, rfl, hlook, h₂⟩ | ⟨hlook, -⟩
    · obtain ⟨answer, rfl, hx⟩ := ends_lookUp hlook
      cases hx
      rcases hfound : resource.found p.observed answer with e | ⟨found, actual⟩
      · rw [hfound] at h₂
        obtain ⟨rfl, rfl⟩ := ends_done_iff.1 h₂
        obtain ⟨rfl, he⟩ := Resource.eq_error_of_found hfound
        exact .inr ⟨_, e, p, rfl, .actual he⟩
      · rw [hfound] at h₂
        obtain ⟨a, log₃, rfl, h₃⟩ := ends_question_bind_iff.1 h₂
        rcases a with e | ⟨applied, state⟩
        · obtain ⟨rfl, rfl⟩ := ends_done_iff.1 h₃
          exact .inr ⟨_, e, p, rfl, .apply hfound⟩
        · obtain ⟨a, log₄, rfl, h₄⟩ := ends_question_bind_iff.1 h₃
          rcases a with e | observed
          · obtain ⟨rfl, rfl⟩ := ends_done_iff.1 h₄
            exact .inr ⟨_, e, _, rfl, .render hfound⟩
          · obtain ⟨rfl, rfl⟩ := ends_done_iff.1 h₄
            exact .inl ⟨_, rfl, .intro hfound⟩
    · obtain ⟨answer, -, hx⟩ := ends_lookUp hlook
      cases hx

end Reconciler

/-! ## The whole pass -/

/-- A pass settles resources one after another: from those that are left, an index and how
far it has come, to those that are left then. -/
inductive Advances :
    List Resource → Nat → Progress → WalkRecord → List Resource → Nat → Progress → Prop
  | refl (rest : List Resource) (index : Nat) (p : Progress) :
      Advances rest index p [] rest index p
  | step {resource : Resource} {rest rest' : List Resource} {index n : Nat}
      {p q p' : Progress} {front log : WalkRecord} (h : Settles resource index p front q)
      (hs : Advances rest (index + 1) q log rest' n p') :
      Advances (resource :: rest) index p (front ++ log) rest' n p'

/-- How a pass ends, with the resources that are left: it is through, or it gives up at the
next one and cleans up. -/
inductive Concludes (r : Reconciler) : List Resource → Nat → Progress → WalkRecord →
    Option (Except ReconcileError Cluster) → Prop
  | finished {n : Nat} {p : Progress} : Concludes r [] n p [] (some (.ok p.applied))
  | gaveUp {resource : Resource} {rest : List Resource} {n : Nat} {p q : Progress}
      {front back : WalkRecord} {b : Setback} {o : Option (Except CleanupError Cluster)}
      (h : GivesUp resource n p front b q) (hc : (r.cleanUp q).Ends back o) :
      Concludes r (resource :: rest) n p (front ++ back)
        (o.map fun y => .error (b.report ⟨n, resource.label⟩ y))

namespace Reconciler

variable {r : Reconciler}

theorem ends_rollBack {phase : Phase} {place : Place} {e : CloudError} {p : Progress}
    {log : WalkRecord} {o : Option ReconcileError} (h : (r.rollBack phase place e p).Ends log o) :
    ∃ y, (r.cleanUp p).Ends log y ∧ o = y.map ((Setback.failure phase e).report place) :=
  h.of_bind_done fun x => by cases x <;> rfl

theorem ends_breakOff {signal : Signal} (place : Place) {p : Progress} {log : WalkRecord}
    {o : Option ReconcileError} (h : (r.breakOff signal place.index p).Ends log o) :
    ∃ y, (r.cleanUp p).Ends log y ∧ o = y.map ((Setback.interrupt signal).report place) :=
  h.of_bind_done fun x => by cases x <;> rfl

/-- Every record of the rest of a pass settles resources and then concludes. -/
theorem ends_applyFrom {rest : List Resource} {index : Nat} {p : Progress} {log : WalkRecord}
    {res : Option (Except ReconcileError Cluster)}
    (h : (r.applyFrom rest index p).Ends log res) :
    ∃ front back rest' n q, log = front ++ back ∧ Advances rest index p front rest' n q ∧
      Concludes r rest' n q back res := by
  induction rest generalizing index p log with
  | nil =>
    obtain ⟨rfl, rfl⟩ := ends_done_iff.1 h
    exact ⟨[], [], [], index, p, rfl, .refl _ _ _, .finished⟩
  | cons resource rest ih =>
    obtain ⟨signal, log₁, rfl, h₁⟩ := ends_question_bind_iff.1 h
    split at h₁
    · next hs =>
      obtain ⟨o, hbreak, rfl⟩ := h₁.of_bind_done fun e => rfl
      obtain ⟨y, hclean, rfl⟩ := ends_breakOff ⟨index, resource.label⟩ hbreak
      refine ⟨[], _, _, index, p, rfl, .refl _ _ _, ?_⟩
      rw [Option.map_map]
      exact .gaveUp (.interrupted hs) hclean
    · next hs =>
      have hidle : signal = .idle := by simpa [Signal.isRequested] using hs
      subst hidle
      rcases ends_bind_iff.1 h₁ with ⟨x, front, log₂, rfl, hone, h₂⟩ | ⟨hone, rfl⟩
      · rcases ends_applyOne hone with ⟨q, hx, hsettles⟩ | ⟨phase, e, q, hx, hgives⟩ <;>
          cases hx
        · -- The resource is settled, and the pass goes on with the rest.
          obtain ⟨front', back, rest', n, q', rfl, hadv, hend⟩ := ih h₂
          exact ⟨_, back, rest', n, q', by simp, .step hsettles hadv, hend⟩
        · -- It gives up here, and all that follows is the cleanup.
          obtain ⟨o, hroll, rfl⟩ := h₂.of_bind_done fun e => rfl
          obtain ⟨y, hclean, rfl⟩ := ends_rollBack hroll
          refine ⟨[], _, _, index, p, rfl, .refl _ _ _, ?_⟩
          rw [Option.map_map]
          exact .gaveUp hgives hclean
      · rcases ends_applyOne hone with ⟨q, hx, -⟩ | ⟨phase, e, q, hx, -⟩ <;> cases hx

end Reconciler

end ClusterKeeper
