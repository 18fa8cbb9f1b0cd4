/-
# The two snapshots of a pass

A pass that succeeds is a fold over the graph with two clusters. The applied cluster goes from
apply to apply and is what the pass returns; the observed cluster goes from look to render, and
each resource is looked up in it. Here the records of successful passes are spelled out, call by
call, and conversely every record of that form is one of a successful pass.
-/

import ClusterKeeper.Proofs.Reconcile.Interruption

namespace ClusterKeeper

open Dialogue (Answered stateAfter ends_question_bind_iff ends_bind_iff)

variable {graph : Graph} {actual expected c : Cluster} {log : WalkRecord}

/-! ## Stages -/

/-- What passes between a pass and one resource. -/
structure Stage where
  /-- The applied cluster before the resource. -/
  applied : Cluster
  /-- The observed cluster before the resource. -/
  observed : Cluster
  /-- What the resource should be; the cluster beside the state is not used. -/
  expected : Cluster × ResourceState
  /-- What the look at the resource answered. -/
  answer : Except CloudError (Cluster × ResourceState)
  /-- The observed cluster behind the look. -/
  found : Cluster
  /-- What the resource is taken to be before it is applied. -/
  actual : ResourceState
  /-- What the resource is behind its apply. -/
  state : ResourceState

namespace Stage

/-- What the pass makes of the look: a resource that is not there has an empty state and leaves
the observed cluster as it is. -/
def Looked (resource : Resource) (t : Stage) : Prop :=
  t.answer = .ok (t.found, t.actual) ∨
    (∃ e, t.answer = .error e ∧ e.isNotFound = true) ∧ t.found = t.observed ∧
      t.actual = { kind := resource.kind, name := resource.name }

/-- The exchanges with the resource at an index, which lead to the next stage. -/
def exchanges (index : Nat) (t next : Stage) : WalkRecord :=
  [⟨.poll, .idle⟩,
    ⟨.call (.expected index t.applied), .ok t.expected⟩,
    ⟨.call (.actual index t.observed), t.answer⟩,
    ⟨.call (.apply index t.actual t.expected.2 t.applied), .ok (next.applied, t.state)⟩,
    ⟨.call (.render index t.state t.found), .ok next.observed⟩]

/-- The exchanges with a number of resources from an index on, one stage after the other. -/
def exchangesFrom (index n : Nat) (t : Nat → Stage) : WalkRecord :=
  (List.range n).flatMap fun i => (t i).exchanges (index + i) (t (i + 1))

theorem exchangesFrom_succ (index n : Nat) (t : Nat → Stage) :
    exchangesFrom index (n + 1) t =
      (t 0).exchanges index (t 1) ++ exchangesFrom (index + 1) n fun i => t (i + 1) := by
  simp only [exchangesFrom, List.range_succ_eq_map, List.flatMap_cons, List.flatMap_map,
    Nat.add_zero, Nat.succ_eq_add_one]
  refine congrArg _ (congrArg (List.flatMap · _) (funext fun i => ?_))
  rw [← Nat.add_assoc index i 1, Nat.add_right_comm index i 1]

theorem looked_iff {resource : Resource} {t : Stage} :
    t.Looked resource ↔ resource.found t.observed t.answer = .ok (t.found, t.actual) := by
  rw [Looked]
  cases t.answer with
  | ok x => simp [Resource.found]
  | error e =>
    cases he : e.isNotFound with
    | false => simp [Resource.found, he]
    | true => simp [Resource.found, he, eq_comm (a := t.found), eq_comm (a := t.actual)]

end Stage

/-- The record is the fold over the graph with the two clusters, the applied one starting as what
is expected and the observed one as what is actual; it ends with the applied one. -/
def WalkRecord.FoldsTo (log : WalkRecord) (graph : Graph) (actual expected c : Cluster) : Prop :=
  ∃ t : Nat → Stage, (t 0).applied = expected ∧ (t 0).observed = actual ∧
    (∀ i (h : i < graph.length), (t i).Looked graph[i]) ∧
    log = ((List.range graph.length).flatMap fun i => (t i).exchanges i (t (i + 1))) ++
      [⟨.endPhase, ()⟩] ∧
    c = (t graph.length).applied

/-! ## Passes that are through -/

theorem Settles.exists_stage {resource : Resource} {index : Nat} {p q : Progress}
    (h : Settles resource index p log q) {next : Stage} (ha : next.applied = q.applied)
    (ho : next.observed = q.observed) :
    ∃ t : Stage, t.applied = p.applied ∧ t.observed = p.observed ∧ t.Looked resource ∧
      log = t.exchanges index next := by
  obtain ⟨h⟩ := h
  rename_i c found applied observed expected actual state answer
  refine ⟨⟨p.applied, p.observed, (c, expected), answer, found, actual, state⟩, rfl, rfl,
    Stage.looked_iff.2 h, ?_⟩
  rw [Stage.exchanges, ha, ho]

namespace Advances

variable {rest : List Resource} {index n : Nat} {p q : Progress}

/-- A pass that is through went from stage to stage. -/
theorem exists_stages (h : Advances rest index p log [] n q) :
    ∃ t : Nat → Stage, (t 0).applied = p.applied ∧ (t 0).observed = p.observed ∧
      (∀ i (h : i < rest.length), (t i).Looked rest[i]) ∧
      log = Stage.exchangesFrom index rest.length t ∧ (t rest.length).applied = q.applied := by
  generalize hrest' : ([] : List Resource) = rest' at h
  induction h with
  | refl rest index p =>
    subst hrest'
    exact ⟨fun _ => ⟨p.applied, p.observed, default, .error default, default, default, default⟩,
      rfl, rfl, nofun, rfl, rfl⟩
  | @step resource rest rest' index n p q p' front log h hs ih =>
    obtain ⟨t, happlied, hobserved, hlooked, rfl, hlast⟩ := ih hrest'
    obtain ⟨stage, ha, ho, hl, rfl⟩ := h.exists_stage happlied hobserved
    -- The stage of this resource stands before those of the resources behind it.
    refine ⟨fun i => i.casesOn stage t, ha, ho, ?_, ?_, hlast⟩
    · intro i hi
      cases i with
      | zero => exact hl
      | succ i => exact hlooked i (Nat.lt_of_succ_lt_succ hi)
    · exact (Stage.exchangesFrom_succ index rest.length fun i => i.casesOn stage t).symm

/-- Whoever goes from stage to stage is through. -/
theorem of_stages (index : Nat) {t : Nat → Stage} (ha : (t 0).applied = p.applied)
    (ho : (t 0).observed = p.observed) (hl : ∀ i (h : i < rest.length), (t i).Looked rest[i]) :
    ∃ q : Progress, q.applied = (t rest.length).applied ∧
      Advances rest index p (Stage.exchangesFrom index rest.length t) []
        (index + rest.length) q := by
  induction rest generalizing index p t with
  | nil => exact ⟨p, ha.symm, .refl _ _ _⟩
  | cons resource rest ih =>
    -- What the pass holds behind this resource is what the next stage begins with.
    let next : Progress :=
      { applied := (t 1).applied, observed := (t 1).observed,
        ledger := Ledger.record p.ledger index (t 0).state }
    have hsettles : Settles resource index p ((t 0).exchanges index (t 1)) next := by
      have hfound := Stage.looked_iff.1 (hl 0 (Nat.zero_lt_succ _))
      rw [ho] at hfound
      rw [Stage.exchanges, ha, ho]
      exact .intro hfound
    obtain ⟨q, hq, hadv⟩ := @ih next (index + 1) (fun i => t (i + 1)) rfl rfl
      fun i hi => hl (i + 1) (Nat.succ_lt_succ hi)
    refine ⟨q, hq, ?_⟩
    rw [List.length_cons, Stage.exchangesFrom_succ, Nat.add_comm rest.length, ← Nat.add_assoc]
    exact .step hsettles hadv

end Advances

namespace Reconciler

variable {r : Reconciler}

theorem ends_lookUp_of_found {resource : Resource} {index : Nat} {observed : Cluster}
    {answer : Except CloudError (Cluster × ResourceState)} {x : Cluster × ResourceState}
    (h : resource.found observed answer = .ok x) :
    (lookUp resource index observed).Ends [⟨.call (.actual index observed), answer⟩]
      (some (.ok x)) := by
  refine ends_question_bind_iff.2 ⟨_, _, rfl, ?_⟩
  cases answer with
  | ok found =>
    cases h
    exact .done _
  | error e =>
    have he := Resource.isNotFound_of_found h
    simp only [Resource.found, he, if_true] at h
    cases h
    simp only [he, if_true]
    exact .done _

theorem ends_applyOne_of_settles {resource : Resource} {index : Nat} {p q : Progress}
    (h : Settles resource index p (⟨.poll, .idle⟩ :: log) q) :
    (applyOne resource index p).Ends log (some (.ok q)) := by
  obtain ⟨hfound⟩ := h
  refine ends_question_bind_iff.2 ⟨_, _, rfl, ?_⟩
  refine ends_bind_iff.2 (.inl ⟨_, [_], _, rfl, ends_lookUp_of_found hfound, ?_⟩)
  refine ends_question_bind_iff.2 ⟨_, _, rfl, ?_⟩
  exact ends_question_bind_iff.2 ⟨_, _, rfl, .done _⟩

/-- A pass ends with success if it settles all resources. -/
theorem ends_applyFrom_of_advances {rest : List Resource} {index n : Nat} {p q : Progress}
    (h : Advances rest index p log [] n q) :
    (r.applyFrom rest index p).Ends log (some (.ok q.applied)) := by
  generalize hrest' : ([] : List Resource) = rest' at h
  induction h with
  | refl rest index p =>
    subst hrest'
    exact .done _
  | step h hs ih =>
    obtain ⟨h⟩ := h
    refine ends_question_bind_iff.2 ⟨_, _, rfl, ?_⟩
    rw [if_neg (by decide)]
    exact ends_bind_iff.2
      (.inl ⟨_, _, _, rfl, ends_applyOne_of_settles (.intro h), ih hrest'⟩)

/-- The records of a pass that succeeds are the folds over the graph with the two clusters. -/
theorem ends_reconcile_ok_iff (hne : actual.sameAs expected = false) :
    (r.reconcile actual expected).Ends log (some (.ok c)) ↔
      log.FoldsTo r.graph actual expected c := by
  have hfrom (t : Nat → Stage) : Stage.exchangesFrom 0 r.graph.length t =
      (List.range r.graph.length).flatMap fun i => (t i).exchanges i (t (i + 1)) := by
    simp only [Stage.exchangesFrom, Nat.zero_add]
  rw [reconcile_of_sameAs_eq_false hne]
  constructor
  · intro h
    obtain ⟨front, hw, rfl | ⟨-, ho⟩⟩ := ends_phase h
    · obtain ⟨settling, back, rest, n, q, rfl, hadv, hend⟩ := ends_applyFrom hw
      generalize hres : some (Except.ok c) = res at hend
      cases hend with
      | finished =>
        cases hres
        obtain ⟨t, ha, ho, hl, rfl, hlast⟩ := hadv.exists_stages
        exact ⟨t, ha, ho, hl, by rw [List.append_nil, hfrom], hlast.symm⟩
      | @gaveUp resource rest n p q front back b o hgives hclean =>
        -- Whatever the cleanup comes to, it is no success.
        cases o <;> cases hres
    · cases ho
  · rintro ⟨t, ha, ho, hl, rfl, rfl⟩
    obtain ⟨q, hq, hadv⟩ := Advances.of_stages 0
      (p := { applied := expected, observed := actual }) ha ho hl
    rw [← hq, ← hfrom]
    exact ends_bind_iff.2 (.inl ⟨_, _, _, rfl, ends_applyFrom_of_advances hadv,
      ends_question_bind_iff.2 ⟨(), [], rfl, .done _⟩⟩)

end Reconciler

/-! ## What a look goes by -/

/-- The cluster that a render returns shows its resource, and neither a look nor a render loses
what the cluster that it got shows. -/
structure WalkRecord.Accumulates (log : WalkRecord) (Shows : Nat → Cluster → Prop) : Prop where
  enters : ∀ i s k k', (⟨.call (.render i s k), .ok k'⟩ : WalkExchange) ∈ log → Shows i k'
  renders : ∀ i s k k', (⟨.call (.render i s k), .ok k'⟩ : WalkExchange) ∈ log →
    ∀ j, Shows j k → Shows j k'
  looks : ∀ i k k' s, (⟨.call (.actual i k), .ok (k', s)⟩ : WalkExchange) ∈ log →
    ∀ j, Shows j k → Shows j k'

section Accumulates

variable {Shows : Nat → Cluster → Prop} {rest rest' : List Resource} {index n : Nat}
  {p q : Progress}

theorem WalkRecord.Accumulates.of_subset {log log' : WalkRecord} (h : log.Accumulates Shows)
    (hs : log' ⊆ log) : log'.Accumulates Shows where
  enters i s k k' hx := h.enters i s k k' (hs hx)
  renders i s k k' hx := h.renders i s k k' (hs hx)
  looks i k k' s hx := h.looks i k k' s (hs hx)

/-- A resource that is settled is looked up in the observed cluster, and its render leaves what
that cluster shows and enters the resource. -/
theorem Settles.shows {resource : Resource} (h : Settles resource index p log q)
    (hacc : log.Accumulates Shows) (hp : ∀ j < index, Shows j p.observed) :
    (∀ i known answer, (⟨.call (.actual i known), answer⟩ : WalkExchange) ∈ log →
      ∀ j < i, Shows j known) ∧ ∀ j < index + 1, Shows j q.observed := by
  obtain ⟨h⟩ := h
  rename_i c found applied observed expected actual state answer
  constructor
  · -- Only the first of the calls is a look.
    intro i known answer hx
    simp only [List.mem_cons, List.not_mem_nil, or_false] at hx
    rcases hx with hx | hx | hx | hx | hx <;> cases hx
    exact hp
  · intro j hj
    rcases Nat.lt_succ_iff_lt_or_eq.1 hj with hj | rfl
    · -- The look has kept what was shown before, and so has the render.
      refine hacc.renders index state found observed (by simp) j ?_
      cases answer with
      | ok x =>
        cases h
        exact hacc.looks index p.observed found actual (by simp) j (hp j hj)
      | error e =>
        simp only [Resource.found, Resource.isNotFound_of_found h, if_true] at h
        cases h
        exact hp j hj
    · exact hacc.enters j state found observed (by simp)

theorem Advances.shows (h : Advances rest index p log rest' n q)
    (hacc : log.Accumulates Shows) (hp : ∀ j < index, Shows j p.observed) :
    ∀ i known answer, (⟨.call (.actual i known), answer⟩ : WalkExchange) ∈ log →
      ∀ j < i, Shows j known := by
  induction h with
  | refl rest index p => exact fun i known answer hx => absurd hx List.not_mem_nil
  | step h hs ih =>
    obtain ⟨hfront, hnext⟩ := h.shows (hacc.of_subset (List.subset_append_left _ _)) hp
    intro i known answer hx
    rcases List.mem_append.1 hx with hx | hx
    · exact hfront i known answer hx
    · exact ih (hacc.of_subset (List.subset_append_right _ _)) hnext i known answer hx

end Accumulates

/-! ## Every run -/

namespace Reconciler

variable {r : Reconciler} {σ : Type} {world : (q : WalkQuestion) → σ → q.Answer × σ} {s s' : σ}

/-- A pass succeeds exactly when its record is the fold over the graph with the applied and the
observed cluster. Then it deletes nothing and applies every resource once, in order, and each
resource is looked up in a cluster that shows all resources before it, in whatever sense the
renders enter a resource and the looks and renders keep what is entered. -/
theorem reconcile_ok_iff (hne : actual.sameAs expected = false) :
    ((r.reconcile actual expected).play world s = (some (.ok c), log, s') ↔
      log.FoldsTo r.graph actual expected c ∧ Answered world log s ∧
        s' = stateAfter world log s) ∧
    ((r.reconcile actual expected).play world s = (some (.ok c), log, s') →
      log.deletions = [] ∧
        log.applications.map (·.index) = List.range r.graph.length ∧
        ∀ Shows : Nat → Cluster → Prop, log.Accumulates Shows →
          ∀ i known answer, (⟨.call (.actual i known), answer⟩ : WalkExchange) ∈ log →
            ∀ j < i, Shows j known) := by
  constructor
  · rw [Dialogue.play_eq_iff, ends_reconcile_ok_iff hne]
  · intro hrun
    have hends := Dialogue.Ends.of_play hrun
    obtain ⟨t, ha, ho, hl, rfl, -⟩ := (ends_reconcile_ok_iff hne).1 hends
    obtain ⟨q, -, hadv⟩ := Advances.of_stages 0
      (p := { applied := expected, observed := actual }) ha ho hl
    simp only [Stage.exchangesFrom, Nat.zero_add] at hadv
    obtain ⟨hq, hlen⟩ := hadv.tracks rfl (Progress.Tracks.begin expected actual)
    refine ⟨?_, ?_, fun Shows hacc i known answer hx => ?_⟩
    · rw [WalkRecord.deletions_append, hadv.deletions_eq]
      rfl
    · rw [WalkRecord.applications_append]
      refine (congrArg _ (List.append_nil _)).trans ?_
      rw [List.nil_append] at hq hlen
      exact hq.indices.trans (congrArg List.range hlen)
    · rcases List.mem_append.1 hx with hx | hx
      · exact hadv.shows (hacc.of_subset (List.subset_append_left _ _)) nofun i known answer hx
      · cases List.mem_singleton.1 hx

end Reconciler

/-! ## A cloud that tags -/

/-- A cloud in which the first resource is there; every render tags the cluster with the index
of its resource. -/
def taggingCloud : Cloud Unit
  | .actual 0 known, s =>
    ({ answer := .ok (known,
        { kind := .network, name := "net", identifier := some "net-0", status := .running }) }, s)
  | .render index state known, s =>
    ({ answer := .ok (known.setTag (toString index) state.name) }, s)
  | c, s => (obliging c, s)

namespace taggingCloud

/-- The cluster has the tag of the resource at an index. -/
def Tagged (index : Nat) (known : Cluster) : Prop :=
  (known.tags.find? (toString index)).isSome = true

theorem accumulates_tagged {e : Engine Unit}
    (h : Answered (Engine.answer taggingCloud) log e) : log.Accumulates Tagged where
  enters i s k k' hx := by
    obtain ⟨e', he'⟩ := h.exists_answer hx
    cases he'
    simp [Tagged, Cluster.setTag, SortedMap.find?_insert]
  renders i s k k' hx j hj := by
    obtain ⟨e', he'⟩ := h.exists_answer hx
    cases he'
    simp only [Tagged, Cluster.setTag, SortedMap.find?_insert]
    split
    · rfl
    · exact hj
  looks i k k' s hx j hj := by
    obtain ⟨e', he'⟩ := h.exists_answer hx
    cases i with
    | zero =>
      cases he'
      exact hj
    | succ i => cases he'

/-- A pass of two networks. -/
def pass : Option (Except ReconcileError Cluster) × WalkRecord × Engine Unit :=
  (twoNetworks.reconcile twoNetworks.known twoNetworks.moved).play (Engine.answer taggingCloud)
    { cloud := () }

/-- The first network is adopted and the second one created, and the look at the second one goes
by a cluster with the tag of the first. -/
theorem folds_pass :
    ∃ log e', pass = (some (.ok twoNetworks.moved), log, e') ∧
      log.FoldsTo twoNetworks.graph twoNetworks.known twoNetworks.moved twoNetworks.moved ∧
      log.applications.map (·.index) = [0, 1] ∧
      ∀ known answer, (⟨.call (.actual 1 known), answer⟩ : WalkExchange) ∈ log →
        Tagged 0 known := by
  have hres : pass.1 = some (.ok twoNetworks.moved) := by
    rw [pass, Reconciler.reconcile_of_sameAs_eq_false twoNetworks.sameAs_moved]
    rfl
  rcases hrun : pass with ⟨o, log, e'⟩
  rw [hrun] at hres
  subst hres
  have hplay : (twoNetworks.reconcile twoNetworks.known twoNetworks.moved).play
      (Engine.answer taggingCloud) { cloud := () } =
        (some (.ok twoNetworks.moved), log, e') := hrun
  obtain ⟨hiff, hthen⟩ := Reconciler.reconcile_ok_iff twoNetworks.sameAs_moved
  obtain ⟨hfolds, hanswered, -⟩ := hiff.1 hplay
  obtain ⟨-, hindices, hshows⟩ := hthen hplay
  refine ⟨log, e', rfl, hfolds, hindices, fun known answer hx => ?_⟩
  exact hshows Tagged (accumulates_tagged hanswered) 1 known answer hx 0 Nat.one_pos

end taggingCloud

end ClusterKeeper
