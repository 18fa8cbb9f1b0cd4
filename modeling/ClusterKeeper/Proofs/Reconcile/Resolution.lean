/-
# Snapshots

A snapshot calls the resources of a graph in order and hands each the cluster that the one before
it returned, the first one what the known cluster declares. An observed snapshot passes over a
resource that is not there; every other error ends the snapshot, and so does every error in an
expected one. What the cloud once assigned to the known cluster leaves no trace in a snapshot.
-/

import ClusterKeeper.Proofs.Reconcile.Rollback
import ClusterKeeper.Reconcile.Snapshot

namespace ClusterKeeper

open Dialogue (Answered stateAfter ends_question_bind_iff ends_done_iff)
open Reconciler (ends_phase)

variable {phase : Phase} {log : WalkRecord} {x : Except ReconcileError Cluster}

/-! ## One resource -/

/-- The call by which a snapshot learns of the resource at an index, and its answer. -/
def WalkExchange.resolution (phase : Phase) (index : Nat) (known : Cluster)
    (answer : Except CloudError (Cluster × ResourceState)) : WalkExchange :=
  match phase with
  | .actual => ⟨.call (.actual index known), answer⟩
  | _ => ⟨.call (.expected index known), answer⟩

/-- The snapshot goes on behind an answer, with the cluster that the resource returned or, if it
is found not to be there, with the cluster as it was. -/
inductive Phase.Passes (phase : Phase) (known : Cluster) :
    Except CloudError (Cluster × ResourceState) → Cluster → Prop
  | resolved {next : Cluster} {state : ResourceState} : Passes phase known (.ok (next, state)) next
  | absent {e : CloudError} (hp : phase = .actual) (he : e.isNotFound = true) :
      Passes phase known (.error e) known

/-- The error ends the snapshot. -/
def Phase.EndsAt (phase : Phase) (e : CloudError) : Prop :=
  phase = .actual → e.isNotFound = false

/-! ## All resources -/

/-- A snapshot of the resources from an index on, with the cluster that the first of them gets. -/
inductive ResolvesFrom (phase : Phase) :
    List Resource → Nat → Cluster → WalkRecord → Except ReconcileError Cluster → Prop
  | nil {index : Nat} {known : Cluster} : ResolvesFrom phase [] index known [] (.ok known)
  | pass {resource : Resource} {rest : List Resource} {index : Nat} {known next : Cluster}
      {answer : Except CloudError (Cluster × ResourceState)} {log : WalkRecord}
      {x : Except ReconcileError Cluster} (h : phase.Passes known answer next)
      (hs : ResolvesFrom phase rest (index + 1) next log x) :
      ResolvesFrom phase (resource :: rest) index known
        (.resolution phase index known answer :: log) x
  | fail {resource : Resource} {rest : List Resource} {index : Nat} {known : Cluster}
      {e : CloudError} (h : phase.EndsAt e) :
      ResolvesFrom phase (resource :: rest) index known [.resolution phase index known (.error e)]
        (.error (.resolve phase ⟨index, resource.label⟩ e))

namespace Reconciler

theorem ends_observeFrom {rest : List Resource} {index : Nat} {known : Cluster}
    {o : Option (Except ReconcileError Cluster)}
    (h : (observeFrom (placesFrom index rest) known).Ends log o) :
    ∃ x, o = some x ∧ ResolvesFrom .actual rest index known log x := by
  induction rest generalizing index known log with
  | nil =>
    obtain ⟨rfl, rfl⟩ := ends_done_iff.1 h
    exact ⟨_, rfl, .nil⟩
  | cons resource rest ih =>
    obtain ⟨answer, log', rfl, hrest⟩ := ends_question_bind_iff.1 h
    cases answer with
    | ok found =>
      obtain ⟨x, ho, hx⟩ := ih hrest
      exact ⟨x, ho, .pass .resolved hx⟩
    | error e =>
      dsimp only at hrest
      split at hrest
      · next he =>
        obtain ⟨x, ho, hx⟩ := ih hrest
        exact ⟨x, ho, .pass (.absent rfl he) hx⟩
      · next he =>
        obtain ⟨rfl, rfl⟩ := ends_done_iff.1 hrest
        exact ⟨_, rfl, .fail fun _ => Bool.eq_false_iff.2 he⟩

theorem ends_expectFrom {rest : List Resource} {index : Nat} {known : Cluster}
    {o : Option (Except ReconcileError Cluster)}
    (h : (expectFrom (placesFrom index rest) known).Ends log o) :
    ∃ x, o = some x ∧ ResolvesFrom .expected rest index known log x := by
  induction rest generalizing index known log with
  | nil =>
    obtain ⟨rfl, rfl⟩ := ends_done_iff.1 h
    exact ⟨_, rfl, .nil⟩
  | cons resource rest ih =>
    obtain ⟨answer, log', rfl, hrest⟩ := ends_question_bind_iff.1 h
    cases answer with
    | ok found =>
      obtain ⟨x, ho, hx⟩ := ih hrest
      exact ⟨x, ho, .pass .resolved hx⟩
    | error e =>
      obtain ⟨rfl, rfl⟩ := ends_done_iff.1 hrest
      exact ⟨_, rfl, .fail nofun⟩

end Reconciler

/-! ## The calls, one by one -/

/-- A sequence behind a first element. -/
def Reconciler.behind {α : Type} (x : α) (f : Nat → α) : Nat → α
  | 0 => x
  | i + 1 => f i

namespace WalkRecord

open Reconciler (behind)

/-- The calls of a number of resources from an index on: the resource at a distance `i` gets the
cluster `k i` and answers `a i`. -/
def resolutions (phase : Phase) (index : Nat) (k : Nat → Cluster)
    (a : Nat → Except CloudError (Cluster × ResourceState)) (n : Nat) : WalkRecord :=
  (List.range n).map fun i => .resolution phase (index + i) (k i) (a i)

theorem resolutions_behind (phase : Phase) (index : Nat) (known : Cluster)
    (answer : Except CloudError (Cluster × ResourceState)) (k : Nat → Cluster)
    (a : Nat → Except CloudError (Cluster × ResourceState)) (n : Nat) :
    resolutions phase index (behind known k) (behind answer a) (n + 1) =
      .resolution phase index known answer :: resolutions phase (index + 1) k a n := by
  simp only [resolutions, List.range_succ_eq_map, List.map_cons, List.map_map, Nat.add_zero]
  refine congrArg _ (List.map_congr_left fun i _ => ?_)
  simp only [Function.comp_apply, Nat.succ_eq_add_one, Nat.add_right_comm index 1 i]
  rfl

/-- Each cluster behind the first comes of the answer to the one before. -/
def Threads (phase : Phase) (k : Nat → Cluster)
    (a : Nat → Except CloudError (Cluster × ResourceState)) (n : Nat) : Prop :=
  ∀ i < n, phase.Passes (k i) (a i) (k (i + 1))

theorem Threads.behind {known : Cluster} {answer : Except CloudError (Cluster × ResourceState)}
    {k : Nat → Cluster} {a : Nat → Except CloudError (Cluster × ResourceState)} {n : Nat}
    (h : phase.Passes known answer (k 0)) (hs : Threads phase k a n) :
    Threads phase (behind known k) (behind answer a) (n + 1) := by
  intro i hi
  cases i with
  | zero => exact h
  | succ i => exact hs i (Nat.lt_of_succ_lt_succ hi)

/-- The record is that of a snapshot of a graph from an index on, whose clusters `k` begin with a
seed. It is through and comes to the last of them, or it fails with the first error that ends
it. -/
inductive Resolves (phase : Phase) (graph : Graph) (index : Nat) (seed : Cluster) :
    WalkRecord → Except ReconcileError Cluster → Prop
  | through {k : Nat → Cluster} {a : Nat → Except CloudError (Cluster × ResourceState)}
      (hseed : k 0 = seed) (hs : Threads phase k a graph.length) :
      Resolves phase graph index seed (resolutions phase index k a graph.length)
        (.ok (k graph.length))
  | failed {k : Nat → Cluster} {a : Nat → Except CloudError (Cluster × ResourceState)}
      {n : Nat} {e : CloudError} (hn : n < graph.length) (hseed : k 0 = seed)
      (hs : Threads phase k a n) (herror : a n = .error e) (hend : phase.EndsAt e) :
      Resolves phase graph index seed (resolutions phase index k a (n + 1))
        (.error (.resolve phase ⟨index + n, graph[n].label⟩ e))

/-- A snapshot of more resources passes the first one and goes on with the rest. -/
theorem Resolves.cons {resource : Resource} {rest : Graph} {index : Nat} {known next : Cluster}
    {answer : Except CloudError (Cluster × ResourceState)}
    (h : phase.Passes known answer next) (hrest : Resolves phase rest (index + 1) next log x) :
    Resolves phase (resource :: rest) index known
      (.resolution phase index known answer :: log) x := by
  -- the clusters and answers of the rest are moved up by one place, behind those of the first
  cases hrest with
  | @through k a hseed hs =>
    subst hseed
    rw [← resolutions_behind]
    exact .through (k := behind known k) (a := behind answer a) rfl (hs.behind h)
  | @failed k a n e hn hseed hs herror hend =>
    subst hseed
    rw [← resolutions_behind, Nat.add_right_comm index 1 n]
    have hn' : n + 1 < (resource :: rest).length := Nat.succ_lt_succ hn
    exact .failed (k := behind known k) (a := behind answer a) hn' rfl (hs.behind h) herror hend

end WalkRecord

theorem ResolvesFrom.resolves {rest : List Resource} {index : Nat} {seed : Cluster}
    (h : ResolvesFrom phase rest index seed log x) :
    WalkRecord.Resolves phase rest index seed log x := by
  induction h with
  | @nil index known =>
    -- no resource answers, so any answers will do
    exact .through (k := fun _ => known) (a := fun _ => .error default) rfl nofun
  | pass h hs ih => exact ih.cons h
  | @fail resource rest index known e h =>
    have hn : 0 < (resource :: rest).length := Nat.zero_lt_succ _
    exact .failed (k := fun _ => known) (a := fun _ => .error e) hn rfl nofun rfl h

/-! ## Every run -/

section Runs

variable {σ : Type} {world : (q : WalkQuestion) → σ → q.Answer × σ} {s : σ}

/-- Held with a world, the walk makes the calls of a snapshot of a graph, which begins with a
seed, ends its phase, and comes to what the snapshot comes to. -/
def Walk.Snapshots (w : Walk (Except ReconcileError Cluster)) (phase : Phase) (graph : Graph)
    (seed : Cluster) (world : (q : WalkQuestion) → σ → q.Answer × σ) (s : σ) : Prop :=
  ∃ (calls log : WalkRecord) (x : Except ReconcileError Cluster),
    calls.Resolves phase graph 0 seed x ∧ log = calls ++ [⟨.endPhase, ()⟩] ∧
      w.play world s = (some x, log, stateAfter world log s) ∧ Answered world log s

theorem Walk.snapshots_phase {w : Walk (Except ReconcileError Cluster)} {graph : Graph}
    {seed : Cluster}
    (hw : ∀ {log o}, w.Ends log o → ∃ x, o = some x ∧ ResolvesFrom phase graph 0 seed log x) :
    w.phase.Snapshots phase graph seed world s := by
  rcases hrun : w.phase.play world s with ⟨o, log, s'⟩
  obtain ⟨hends, hanswered, rfl⟩ := Dialogue.play_eq_iff.1 hrun
  obtain ⟨calls, hcalls, hlog⟩ := ends_phase hends
  obtain ⟨x, rfl, hx⟩ := hw hcalls
  obtain rfl | ⟨-, ho⟩ := hlog
  · exact ⟨calls, _, x, hx.resolves, rfl, hrun, hanswered⟩
  · cases ho

namespace Reconciler

/-- With every world, the observed and the expected snapshot call the resources in order, from
what the known cluster declares, and end with the last cluster or with the first error that ends
them; only the observed one passes over resources that are not there. Known clusters that declare
the same lead to the same calls and the same result. -/
theorem snapshots_resolve (r : Reconciler) (known : Cluster) :
    (r.actual known).Snapshots .actual r.graph known.declared world s ∧
      (r.expected known).Snapshots .expected r.graph known.declared world s ∧
      ∀ known' : Cluster, known'.declared = known.declared →
        (r.actual known').play world s = (r.actual known).play world s ∧
          (r.expected known').play world s = (r.expected known).play world s := by
  refine ⟨Walk.snapshots_phase ends_observeFrom, Walk.snapshots_phase ends_expectFrom, ?_⟩
  intro known' h
  rw [actual, actual, expected, expected, h]
  exact ⟨rfl, rfl⟩

end Reconciler

end Runs

/-! ## A cloud that trusts identifiers -/

/-- A cloud in which a network is there if the cluster has an identifier for it. -/
def trustingCloud : Cloud Unit
  | .actual _ known, s =>
    match known.network.identifier with
    | some id =>
      ({ answer := .ok (known, { kind := .network, name := "net", identifier := some id }) }, s)
    | none => ({ answer := .error (.resourceNotFound "net") }, s)
  | c, s => (obliging c, s)

namespace trustingCloud

/-- The known cluster with the identifier of a network that is gone. -/
def stale : Cluster := { twoNetworks.known with network := { identifier := some "net-0" } }

/-- The observed snapshot of two networks. -/
def observation (known : Cluster) :
    Option (Except ReconcileError Cluster) × WalkRecord × Engine Unit :=
  (twoNetworks.actual known).play (Engine.answer trustingCloud) { cloud := () }

/-- The old identifier is not shown to the cloud, so the networks are not there. -/
theorem observation_stale :
    stale ≠ twoNetworks.known ∧ observation stale = observation twoNetworks.known ∧
      (observation stale).1 = some (.ok twoNetworks.known) := by
  obtain ⟨-, -, hforgets⟩ := @Reconciler.snapshots_resolve _ (Engine.answer trustingCloud)
    { cloud := () } twoNetworks twoNetworks.known
  have hsame : observation stale = observation twoNetworks.known := (hforgets stale rfl).1
  refine ⟨by decide, hsame, ?_⟩
  rw [hsame]
  rfl

end trustingCloud

end ClusterKeeper
