/-
# Requests that are lost

Only a pass looks at the interrupt monitor. The two snapshots and the teardown never do:
whatever is requested while one of them is held, it makes the same calls and comes to the same
result. Its end then puts the monitor back to idle, so what is held next does not learn of the
request either.
-/

import ClusterKeeper.Proofs.Reconcile.Interruption
import ClusterKeeper.Proofs.Reconcile.Questions

namespace ClusterKeeper

variable {α : Type} {r : Reconciler} {log : WalkRecord}

/-! ## Walks that never look -/

/-- The walk never looks at the interrupt monitor, whatever the answers are. -/
def Walk.NeverLooks (w : Walk α) : Prop := w.Asks fun q => q ≠ .poll

namespace Walk

theorem neverLooks_call (c : CloudCall) : (call c).NeverLooks :=
  Dialogue.asks_question nofun

/-- The end of a phase resets the monitor without a look at it. -/
theorem NeverLooks.phase {w : Walk α} (h : w.NeverLooks) : w.phase.NeverLooks :=
  Reconciler.asks_phase h nofun

end Walk

namespace Reconciler

open Walk (neverLooks_call)

theorem neverLooks_observeFrom (places : List Place) (c : Cluster) :
    (observeFrom places c).NeverLooks := by
  induction places generalizing c with
  | nil => exact Dialogue.asks_pure _
  | cons p places ih =>
    apply (neverLooks_call _).bind
    intro answer
    cases answer with
    | ok found => exact ih found.1
    | error e =>
      change Walk.NeverLooks (if e.isNotFound then observeFrom places c else _)
      split
      · exact ih c
      · exact Dialogue.asks_pure _

theorem neverLooks_expectFrom (places : List Place) (c : Cluster) :
    (expectFrom places c).NeverLooks := by
  induction places generalizing c with
  | nil => exact Dialogue.asks_pure _
  | cons p places ih =>
    apply (neverLooks_call _).bind
    intro answer
    cases answer with
    | ok found => exact ih found.1
    | error e => exact Dialogue.asks_pure _

/-- Of the phases, only a pass looks at the monitor. -/
theorem neverLooks_of_mem {known : Cluster} {w : Walk (Except ReconcileError Cluster)}
    (hw : w ∈ [r.actual known, r.expected known, r.destroy]) : w.NeverLooks := by
  simp only [List.mem_cons, List.not_mem_nil, or_false] at hw
  rcases hw with rfl | rfl | rfl
  · exact (neverLooks_observeFrom _ _).phase
  · exact (neverLooks_expectFrom _ _).phase
  · exact asks_destroy (fun _ => nofun) (fun _ => nofun) nofun

end Reconciler

/-! ## The same run, whatever is requested -/

/-- The cloud without its requests. -/
def Cloud.silent {σ : Type} (cloud : Cloud σ) : Cloud σ := fun c s =>
  let (reply, s) := cloud c s
  ({ reply with requests := [] }, s)

theorem Cloud.answersAlike_silent {σ : Type} (cloud : Cloud σ) :
    cloud.AnswersAlike cloud.silent :=
  fun _ _ => ⟨rfl, rfl⟩

namespace Engine

variable {σ : Type} {cloud cloud' : Cloud σ} {e e' e₁ : Engine σ} {w : Walk α} {o : Option α}

/-- Clouds that answer alike lead a walk that never looks to the same calls and the same
result. -/
theorem play_of_neverLooks (hw : w.NeverLooks) (halike : cloud.AnswersAlike cloud')
    (hrun : w.play (answer cloud) e = (o, log, e')) (hcloud : e₁.cloud = e.cloud) :
    ∃ e₁', w.play (answer cloud') e₁ = (o, log, e₁') ∧ e₁'.cloud = e'.cloud := by
  obtain ⟨hends, hanswered, rfl⟩ := Dialogue.play_eq_iff.1 hrun
  have hanswered' := answered_of_no_poll halike (hw.of_ends hends) hcloud hanswered
  exact ⟨_, Dialogue.play_eq_iff.2 ⟨hends, hanswered', rfl⟩, cloud_stateAfter halike hcloud⟩

/-- A walk goes the same way from every engine with the same signal, as long as the same is
requested on the way. -/
theorem play_of_requestsAlike (halike : cloud.AnswersAlike cloud')
    (hrun : w.play (answer cloud) e = (o, log, e'))
    (hrequests : RequestsAlike cloud cloud' log e) (hcloud : e₁.cloud = e.cloud)
    (hsignal : e₁.monitor.signal = e.monitor.signal) :
    ∃ e₁', w.play (answer cloud') e₁ = (o, log, e₁') := by
  obtain ⟨hends, hanswered, -⟩ := Dialogue.play_eq_iff.1 hrun
  have hanswered' := answered_of_requestsAlike halike hrequests hcloud hsignal hanswered
  exact ⟨_, Dialogue.play_eq_iff.2 ⟨hends, hanswered', rfl⟩⟩

/-- The monitor is idle behind a snapshot and behind a teardown. -/
theorem idle_of_mem {r : Reconciler} {known : Cluster}
    {w : Walk (Except ReconcileError Cluster)}
    (hw : w ∈ [r.actual known, r.expected known, r.destroy]) {x : Except ReconcileError Cluster}
    (hrun : w.play (answer cloud) e = (some x, log, e')) : e'.monitor.signal = .idle := by
  simp only [List.mem_cons, List.not_mem_nil, or_false] at hw
  rcases hw with rfl | rfl | rfl <;> exact idle_of_phase hrun

/-- A snapshot and a teardown lose every interrupt. They never look at the monitor, and they
leave it idle. In all clouds that answer alike, from every engine in the same state of the
cloud, whatever the monitor has recorded and whatever is requested, they make the same calls
and come to the same result; and what is held behind them goes the same way too, as long as
the same is requested while it is held. -/
theorem requests_unheeded {r : Reconciler} {known : Cluster}
    {w : Walk (Except ReconcileError Cluster)} {o : Option (Except ReconcileError Cluster)}
    (hw : w ∈ [r.actual known, r.expected known, r.destroy])
    (hrun : w.play (answer cloud) e = (o, log, e')) :
    (∀ x ∈ log, x.question ≠ .poll) ∧
      (o ≠ none → e'.monitor.signal = .idle) ∧
      ∀ (cloud' : Cloud σ) (e₁ : Engine σ), cloud.AnswersAlike cloud' → e₁.cloud = e.cloud →
        ∃ e₁', w.play (answer cloud') e₁ = (o, log, e₁') ∧
          (o ≠ none → ∀ {β : Type} (w₂ : Walk β) o₂ log₂ e₂,
            w₂.play (answer cloud) e' = (o₂, log₂, e₂) →
            RequestsAlike cloud cloud' log₂ e' →
            ∃ e₂', w₂.play (answer cloud') e₁' = (o₂, log₂, e₂')) := by
  have hnever := r.neverLooks_of_mem hw
  refine ⟨hnever.of_ends (.of_play hrun), ?_, ?_⟩
  · intro hend
    obtain ⟨x, rfl⟩ := Option.ne_none_iff_exists'.1 hend
    exact idle_of_mem hw hrun
  · intro cloud' e₁ halike hcloud
    obtain ⟨e₁', hrun', hcloud'⟩ := play_of_neverLooks hnever halike hrun hcloud
    refine ⟨e₁', hrun', ?_⟩
    intro hend β w₂ o₂ log₂ e₂ hrun₂ hrequests
    obtain ⟨x, rfl⟩ := Option.ne_none_iff_exists'.1 hend
    -- Both monitors are idle, however differently they came to be so.
    have hsignal := (idle_of_mem hw hrun').trans (idle_of_mem hw hrun).symm
    exact play_of_requestsAlike halike hrun₂ hrequests hcloud' hsignal

end Engine

/-! ## An abort that nobody sees -/

/-- A cloud in which nothing is there and everything is to be at one location. An abort is
requested once, while the first resource is looked at. -/
def impatientCloud : Cloud Bool
  | .actual i known, asked =>
    ({ obliging (.actual i known) with requests := if asked then [] else [.abort] }, true)
  | .expected _ known, asked =>
    ({ answer := .ok ({ known with location := "local" }, { kind := .network, name := "net" }) },
      asked)
  | c, asked => (obliging c, asked)

namespace impatientCloud

/-- The observed snapshot of two networks. -/
def observation : Option (Except ReconcileError Cluster) × WalkRecord × Engine Bool :=
  (twoNetworks.actual twoNetworks.known).play (Engine.answer impatientCloud) { cloud := false }

/-- The expected snapshot, behind the observed one. -/
def expectation : Option (Except ReconcileError Cluster) × WalkRecord × Engine Bool :=
  (twoNetworks.expected twoNetworks.known).play (Engine.answer impatientCloud) observation.2.2

/-- The pass behind the two snapshots. -/
def pass : Option (Except ReconcileError Cluster) × WalkRecord × Engine Bool :=
  (twoNetworks.reconcile twoNetworks.known twoNetworks.moved).play (Engine.answer impatientCloud)
    expectation.2.2

/-- The abort is recorded before the second network is looked at, and yet that network is
looked at, the snapshot succeeds, and the pass that follows applies both networks. -/
theorem applied_behind_abort :
    (∃ before answer after, observation.2.1 =
        before ++ ⟨.call (.actual 1 twoNetworks.known), answer⟩ :: after ∧
      (Dialogue.stateAfter (Engine.answer impatientCloud) before
        { cloud := false }).monitor.signal = .abortRequested) ∧
    observation.1 = some (.ok twoNetworks.known) ∧
    expectation.1 = some (.ok twoNetworks.moved) ∧
    pass.1 = some (.ok twoNetworks.moved) ∧
    pass.2.1.applications.map (·.index) = [0, 1] := by
  refine ⟨⟨[⟨.call (.actual 0 twoNetworks.known), .error (.resourceNotFound "net")⟩],
    .error (.resourceNotFound "net"), [⟨.endPhase, ()⟩], rfl, rfl⟩, rfl, rfl, ?_⟩
  rw [pass, Reconciler.reconcile_of_sameAs_eq_false twoNetworks.sameAs_moved]
  exact ⟨rfl, rfl⟩

/-- The snapshot looks at the same resources, with the same result, if nobody requests
anything. -/
theorem observation_silent :
    ∃ e', (twoNetworks.actual twoNetworks.known).play (Engine.answer impatientCloud.silent)
        { cloud := false } = (observation.1, observation.2.1, e') ∧
      observation.2.2.monitor.signal = .idle := by
  have hrun : (twoNetworks.actual twoNetworks.known).play (Engine.answer impatientCloud)
      { cloud := false } = (observation.1, observation.2.1, observation.2.2) := rfl
  obtain ⟨-, hidle, hsame⟩ := Engine.requests_unheeded List.mem_cons_self hrun
  obtain ⟨e', hrun', -⟩ := hsame impatientCloud.silent { cloud := false }
    (Cloud.answersAlike_silent _) rfl
  exact ⟨e', hrun', hidle nofun⟩

end impatientCloud

end ClusterKeeper
