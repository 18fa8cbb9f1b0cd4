/-
# Adopted resources

A pass also applies what was there before it. Its cleanup does not tell the resources that it
adopted from those that it created: it deletes whatever was applied, as far as it gets. So it
deletes only what the pass created exactly when it reaches nothing adopted, and a pass that
rolled back leaves what is live as it was exactly when nothing it applied was live.
-/

import Mathlib.Data.List.Nodup
import Mathlib.Order.BooleanAlgebra.Set
import ClusterKeeper.Proofs.Reconcile.Rollback

namespace ClusterKeeper

variable {log before after : WalkRecord} {trigger : WalkExchange} {n : Nat} {b : Setback}
  {r : Reconciler} {start : Cluster} {graph : Graph}

/-! ## Looks -/

namespace WalkRecord

/-- A look at the resource tells whether it is there. -/
def Finds (log : WalkRecord) (index : Nat) (there : Bool) : Prop :=
  ∃ (known : Cluster) (answer : Except CloudError (Cluster × ResourceState)),
    (⟨.call (.actual index known), answer⟩ : WalkExchange) ∈ log ∧
      WalkExchange.presence? answer = some there

/-- The look at the resource answered that it is not there, or with a state of something that
does not exist. What is applied then is created. -/
def Created (log : WalkRecord) (index : Nat) : Prop := log.Finds index false

/-- The look at the resource found it. What is applied then is adopted. -/
def Adopted (log : WalkRecord) (index : Nat) : Prop := log.Finds index true

theorem finds_iff {index : Nat} {there : Bool} :
    log.Finds index there ↔ (index, there) ∈ log.looks := by
  constructor
  · rintro ⟨known, answer, hmem, hthere⟩
    exact List.mem_filterMap.2 ⟨_, hmem, congrArg (Option.map _) hthere⟩
  · intro h
    obtain ⟨⟨q, answer⟩, hmem, hlook⟩ := List.mem_filterMap.1 h
    rcases q with c | d | _ | _
    · cases c with
      | actual i known =>
        obtain ⟨there', hthere, hpair⟩ := Option.map_eq_some_iff.1 hlook
        cases hpair
        exact ⟨known, answer, hmem, hthere⟩
      | _ => cases hlook
    all_goals cases hlook

end WalkRecord

namespace GivenUp

variable {o : Option (Except CleanupError Cluster)}

/-- A resource that was applied was looked up just once: it was created or adopted. -/
theorem created_iff (h : GivenUp r start before trigger after n b o) :
    ∀ a ∈ WalkRecord.applications (before ++ trigger :: after),
      WalkRecord.Created (before ++ trigger :: after) a.index ↔
        ¬ WalkRecord.Adopted (before ++ trigger :: after) a.index := by
  intro a ha
  obtain ⟨m, hlooks, hle⟩ := h.looks
  have hall : WalkRecord.looks (before ++ trigger :: after) = (before ++ [trigger]).looks := by
    rw [List.append_cons, WalkRecord.looks_append, h.cleans.looks_eq, List.append_nil]
  have hlooked : a.index ∈ (before ++ [trigger]).looks.map (·.1) := by
    rw [h.applications_eq] at ha
    have hlt : a.index < (before ++ [trigger]).applications.length :=
      entry_fst_lt h.indices a.entry (List.mem_map_of_mem ha)
    rw [hlooks]
    exact List.mem_range.2 (Nat.lt_of_lt_of_le hlt hle)
  -- No index is looked up twice, so that a resource is not found both there and missing.
  have hnodup : ((before ++ [trigger]).looks.map (·.1)).Nodup := by
    rw [hlooks]
    exact List.nodup_range
  simp only [WalkRecord.Created, WalkRecord.Adopted, WalkRecord.finds_iff, hall]
  constructor
  · intro hfalse htrue
    have heq := List.inj_on_of_nodup_map hnodup hfalse htrue rfl
    cases heq
  · intro htrue
    obtain ⟨⟨index, there⟩, hmem, rfl⟩ := List.mem_map.1 hlooked
    cases there with
    | false => exact hmem
    | true => exact absurd hmem htrue

/-- The cleanup deletes what was applied, as far as it gets. -/
theorem deleted_iff {y : Except CleanupError Cluster}
    (h : GivenUp r start before trigger after n b (some y)) (index : Nat) :
    (∃ d ∈ WalkRecord.deletions (before ++ trigger :: after), d.index = index) ↔
      (∃ a ∈ WalkRecord.applications (before ++ trigger :: after), a.index = index) ∧
        ∀ c, y = .error c → c.place.index ≤ index := by
  have hentries (as : List Application) :
      (∃ x ∈ (as.map Application.entry).reverse, x.1 = index) ↔ ∃ a ∈ as, a.index = index := by
    simp only [List.mem_reverse, List.mem_map]
    constructor
    · rintro ⟨x, ⟨a, ha, rfl⟩, hindex⟩
      exact ⟨a, ha, hindex⟩
    · rintro ⟨a, ha, hindex⟩
      exact ⟨a.entry, ⟨a, ha, rfl⟩, hindex⟩
  rw [h.deletions_eq, h.applications_eq, h.unwinds.deletes_iff (entries_descending h.indices),
    hentries]

end GivenUp

/-! ## What is live -/

namespace WalkRecord

/-- The resources that were applied. -/
def appliedIn (graph : Graph) (log : WalkRecord) : Set Resource :=
  {resource | ∃ a ∈ log.applications, graph[a.index]? = some resource}

/-- The resources of which a delete succeeded. -/
def removedIn (graph : Graph) (log : WalkRecord) : Set Resource :=
  {resource | ∃ d ∈ log.deletions, (∃ next, d.answer = .ok next) ∧
    graph[d.index]? = some resource}

/-- What is live behind a record: an apply that succeeds creates the resource if it is
missing, a delete that succeeds removes it, and nothing else has an effect. -/
def liveAfter (graph : Graph) (log : WalkRecord) (live : Set Resource) : Set Resource :=
  log.foldl (fun live x => (live ∪ appliedIn graph [x]) \ removedIn graph [x]) live

theorem appliedIn_append (log' : WalkRecord) :
    appliedIn graph (log ++ log') = appliedIn graph log ∪ appliedIn graph log' := by
  ext resource
  simp [appliedIn, or_and_right, exists_or]

theorem removedIn_append (log' : WalkRecord) :
    removedIn graph (log ++ log') = removedIn graph log ∪ removedIn graph log' := by
  ext resource
  simp [removedIn, or_and_right, exists_or]

theorem appliedIn_eq_empty (h : log.applications = []) : appliedIn graph log = ∅ := by
  simp [appliedIn, h]

theorem removedIn_eq_empty (h : log.deletions = []) : removedIn graph log = ∅ := by
  simp [removedIn, h]

theorem liveAfter_of_deletions_eq_nil {live : Set Resource} (h : log.deletions = []) :
    liveAfter graph log live = live ∪ appliedIn graph log := by
  induction log generalizing live with
  | nil => simp [liveAfter, appliedIn, applications]
  | cons x log ih =>
    have hsplit : deletions [x] = [] ∧ deletions log = [] := by
      rw [← List.singleton_append, deletions_append] at h
      exact List.append_eq_nil_iff.1 h
    calc liveAfter graph (x :: log) live
        = liveAfter graph log ((live ∪ appliedIn graph [x]) \ removedIn graph [x]) := rfl
      _ = liveAfter graph log (live ∪ appliedIn graph [x]) := by
        rw [removedIn_eq_empty hsplit.1, Set.sdiff_empty]
      _ = live ∪ appliedIn graph [x] ∪ appliedIn graph log := ih hsplit.2
      _ = live ∪ appliedIn graph (x :: log) := by
        rw [Set.union_assoc, ← appliedIn_append, List.singleton_append]

theorem OnlyCleans.liveAfter_eq {live : Set Resource} (h : log.OnlyCleans) :
    liveAfter graph log live = live \ removedIn graph log := by
  induction log generalizing live with
  | nil => simp [liveAfter, removedIn, deletions]
  | cons x log ih =>
    obtain ⟨hx, hlog⟩ := onlyCleans_append.1 (List.singleton_append ▸ h)
    calc liveAfter graph (x :: log) live
        = liveAfter graph log ((live ∪ appliedIn graph [x]) \ removedIn graph [x]) := rfl
      _ = liveAfter graph log (live \ removedIn graph [x]) := by
        rw [appliedIn_eq_empty (OnlyCleans.applications_eq hx), Set.union_empty]
      _ = (live \ removedIn graph [x]) \ removedIn graph log := ih hlog
      _ = live \ removedIn graph (x :: log) := by
        rw [Set.sdiff_sdiff, ← removedIn_append, List.singleton_append]

theorem liveAfter_eq_self {live : Set Resource} (ha : log.applications = [])
    (hd : log.deletions = []) : liveAfter graph log live = live := by
  rw [liveAfter_of_deletions_eq_nil hd, appliedIn_eq_empty ha, Set.union_empty]

theorem liveAfter_apply {live : Set Resource} {index : Nat} {actual expected : ResourceState}
    {applied : Cluster} {x : Cluster × ResourceState} :
    liveAfter graph [⟨.call (.apply index actual expected applied), .ok x⟩] live =
      live ∪ {resource | graph[index]? = some resource} := by
  rw [liveAfter_of_deletions_eq_nil rfl]
  ext resource
  simp [appliedIn, applications, WalkExchange.application?]

theorem liveAfter_delete {live : Set Resource} {index : Nat} {state : ResourceState}
    {known next : Cluster} :
    liveAfter graph [⟨.call (.delete index state known), .ok next⟩] live =
      live \ {resource | graph[index]? = some resource} := by
  rw [OnlyCleans.liveAfter_eq (List.forall_mem_singleton.2 rfl)]
  ext resource
  simp [removedIn, deletions, WalkExchange.deletion?]

/-- What is removed again is what was applied. -/
theorem RolledBack.removedIn_eq (graph : Graph) (h : log.RolledBack start) :
    removedIn graph log = appliedIn graph log := by
  ext resource
  constructor
  · rintro ⟨d, hd, -, hget⟩
    have hmem : d.index ∈ log.applications.map (·.index) := by
      rw [h.applied]
      exact List.mem_range.2 (h.only d hd)
    obtain ⟨a, ha, hindex⟩ := List.mem_map.1 hmem
    exact ⟨a, ha, hindex ▸ hget⟩
  · rintro ⟨a, ha, hget⟩
    obtain ⟨d, hd, hindex, hok⟩ := (h.removed a ha).exists_ok
    exact ⟨d, hd, hok, hindex ▸ hget⟩

end WalkRecord

theorem GivenUp.liveAfter_eq {left : Cluster} {live : Set Resource}
    (h : GivenUp r start before trigger after n b (some (.ok left))) :
    WalkRecord.liveAfter graph (before ++ trigger :: after) live =
      live \ WalkRecord.appliedIn graph (before ++ trigger :: after) := by
  have hsplit : before ++ trigger :: after = (before ++ [trigger]) ++ after := List.append_cons ..
  -- What was applied comes before the cleanup, and what was removed is in it.
  have hremoved : WalkRecord.removedIn graph after =
      WalkRecord.appliedIn graph (before ++ [trigger]) := by
    have hall := h.rolledBack.removedIn_eq graph
    rwa [hsplit, WalkRecord.removedIn_append, WalkRecord.appliedIn_append,
      WalkRecord.removedIn_eq_empty h.untouched, Set.empty_union,
      WalkRecord.appliedIn_eq_empty h.cleans.applications_eq, Set.union_empty] at hall
  calc WalkRecord.liveAfter graph (before ++ trigger :: after) live
      = WalkRecord.liveAfter graph after
          (WalkRecord.liveAfter graph (before ++ [trigger]) live) := by
        rw [hsplit]
        exact List.foldl_append
    _ = (live ∪ WalkRecord.appliedIn graph (before ++ [trigger])) \
          WalkRecord.removedIn graph after := by
        rw [WalkRecord.liveAfter_of_deletions_eq_nil h.untouched, h.cleans.liveAfter_eq]
    _ = live \ WalkRecord.appliedIn graph (before ++ [trigger]) := by
        rw [hremoved, Set.union_sdiff_right]
    _ = live \ WalkRecord.appliedIn graph (before ++ trigger :: after) := by
        rw [hsplit, WalkRecord.appliedIn_append after,
          WalkRecord.appliedIn_eq_empty h.cleans.applications_eq, Set.union_empty]

/-- A cloud keeps account of its resources if each exchange changes what is live as its answer
says. -/
def KeepsAccount {σ : Type} (graph : Graph) (world : (q : WalkQuestion) → σ → q.Answer × σ)
    (live : σ → Set Resource) : Prop :=
  ∀ q s, live (world q s).2 = WalkRecord.liveAfter graph [⟨q, (world q s).1⟩] (live s)

section Runs

variable {σ α : Type} {world : (q : WalkQuestion) → σ → q.Answer × σ} {live : σ → Set Resource}
  {s s' : σ}

theorem KeepsAccount.live_of_play (h : KeepsAccount graph world live) {w : Walk α}
    {o : Option α} (hrun : w.play world s = (o, log, s')) :
    live s' = log.liveAfter graph (live s) := by
  induction w generalizing s log with
  | done x =>
    cases hrun
    rfl
  | brokenOff =>
    cases hrun
    rfl
  | ask q next ih =>
    cases hrun
    rw [ih _ rfl, h]
    rfl

/-! ## Every run -/

/-- The cleanup of a pass that failed got as far as the resource. -/
def ReconcileError.Reaches (e : ReconcileError) (index : Nat) : Prop :=
  ∀ c, e.cleanup? = some c → c.place.index ≤ index

namespace Reconciler

variable {actual expected : Cluster} {e : ReconcileError}

/-- A pass that fails deletes what it applied, whether it created or adopted it, as far as its
cleanup gets. So it deletes only what it created if and only if the cleanup reaches nothing
that was adopted. If it rolled back everything, then what it applied is gone, and what is live
is as it was before if and only if nothing that was applied was live then. -/
theorem reconcile_deletes_created_iff
    (hrun : (r.reconcile actual expected).play world s = (some (.error e), log, s')) :
    (∀ index, (∃ d ∈ log.deletions, d.index = index) ↔
      (∃ a ∈ log.applications, a.index = index) ∧ e.Reaches index) ∧
    ((∀ d ∈ log.deletions, log.Created d.index) ↔
      ∀ a ∈ log.applications, e.Reaches a.index → ¬ log.Adopted a.index) ∧
    (e.isAbandoned = false → ∀ live : σ → Set Resource, KeepsAccount r.graph world live →
      live s' = live s \ log.appliedIn r.graph ∧
        (live s' = live s ↔ ∀ resource ∈ log.appliedIn r.graph, resource ∉ live s)) := by
  obtain ⟨before, trigger, after, n, b, y, rfl, hgiven, rfl⟩ := givenUp_of_ends (.of_play hrun)
  have hreaches (index : Nat) : (b.report (r.placeAt n) y).Reaches index ↔
      ∀ c, y = .error c → c.place.index ≤ index := by
    cases b <;> cases y <;> simp [ReconcileError.Reaches, Setback.report, ReconcileError.cleanup?]
  simp only [hreaches]
  refine ⟨hgiven.deleted_iff, ⟨fun hcreated a ha hle => ?_, fun hadopted d hd => ?_⟩, ?_⟩
  · obtain ⟨d, hd, hindex⟩ := (hgiven.deleted_iff a.index).2 ⟨⟨a, ha, rfl⟩, hle⟩
    exact (hgiven.created_iff a ha).1 (hindex ▸ hcreated d hd)
  · obtain ⟨⟨a, ha, hindex⟩, hle⟩ := (hgiven.deleted_iff d.index).1 ⟨d, hd, rfl⟩
    rw [← hindex] at hle ⊢
    exact (hgiven.created_iff a ha).2 (hadopted a ha hle)
  · intro hkept live hlive
    cases y with
    | error c => cases b <;> cases hkept
    | ok left =>
      have heq := (hlive.live_of_play hrun).trans hgiven.liveAfter_eq
      refine ⟨heq, ?_⟩
      rw [heq, sdiff_eq_left]
      exact Set.disjoint_right

end Reconciler

end Runs

/-! ## A network that was there before -/

/-- A cloud in which only the first of two networks can be live; the state tells whether it
is. -/
def fullCloud : Cloud Bool
  | .actual 0 known, true =>
    ({ answer := .ok (known,
        { identifier := some "net-0", kind := .network, name := "net", status := .running }) },
      true)
  | .apply 0 actual expected applied, _ => (obliging (.apply 0 actual expected applied), true)
  | .apply _ _ _ _, s => ({ answer := .error (.api "quota exceeded") }, s)
  | .delete 0 state known, _ => (obliging (.delete 0 state known), false)
  | c, s => (obliging c, s)

namespace fullCloud

/-- What is live in the cloud. -/
def live (e : Engine Bool) : Set Resource := {resource | e.cloud ∧ resource = ⟨.network, "net"⟩}

theorem keepsAccount : KeepsAccount twoNetworks.graph (Engine.answer fullCloud) live := by
  rintro (c | d | _ | _) ⟨s, monitor, clock, journal⟩
  · cases c with
    | expected index known => exact (WalkRecord.liveAfter_eq_self rfl rfl).symm
    | actual index known =>
      cases index <;> cases s <;> exact (WalkRecord.liveAfter_eq_self rfl rfl).symm
    | apply index actual expected applied =>
      cases index with
      | zero =>
        refine Eq.trans ?_ WalkRecord.liveAfter_apply.symm
        ext resource
        simp [live, Engine.answer, fullCloud, obliging, twoNetworks, eq_comm]
      | succ index => exact (WalkRecord.liveAfter_eq_self rfl rfl).symm
    | delete index state known =>
      rcases index with _ | _ | index
      all_goals
        refine Eq.trans ?_ WalkRecord.liveAfter_delete.symm
        ext resource
      · simp [live, Engine.answer, fullCloud, obliging, twoNetworks, eq_comm]
      · -- The second network is never live.
        simp [live, Engine.answer, fullCloud, obliging, twoNetworks]
      · simp [live, Engine.answer, fullCloud, obliging, twoNetworks]
    | render index state known => exact (WalkRecord.liveAfter_eq_self rfl rfl).symm
  all_goals exact (WalkRecord.liveAfter_eq_self rfl rfl).symm

/-- A pass that adopts the first network and cannot apply the second. -/
def pass : Option (Except ReconcileError Cluster) × WalkRecord × Engine Bool :=
  (twoNetworks.reconcile twoNetworks.known twoNetworks.moved).play (Engine.answer fullCloud)
    { cloud := true }

/-- The pass reports that it rolled back, and it has deleted the network that it adopted. -/
theorem adopted_network_deleted :
    ∃ log e', pass = (some (.error (.rolledBack .apply ⟨1, "network 'backup'"⟩
        (.api "quota exceeded"))), log, e') ∧
      log.Adopted 0 ∧ ¬ log.Created 0 ∧ (∃ d ∈ log.deletions, d.index = 0) ∧
      live { cloud := true } = {⟨.network, "net"⟩} ∧ live e' = ∅ := by
  have hpass : pass.1 = some (.error (.rolledBack .apply ⟨1, "network 'backup'"⟩
        (.api "quota exceeded"))) ∧ pass.2.1.looks = [(0, true), (1, false)] ∧
      pass.2.1.deletions.map (·.index) = [0] ∧ pass.2.2.cloud = false := by
    rw [pass, Reconciler.reconcile_of_sameAs_eq_false twoNetworks.sameAs_moved]
    exact ⟨rfl, rfl, rfl, rfl⟩
  rcases hrun : pass with ⟨res, log, e'⟩
  rw [hrun] at hpass
  obtain ⟨rfl, hlooks, hdels, hcloud⟩ := hpass
  refine ⟨log, e', rfl, ?_, ?_, ?_, ?_, ?_⟩
  · exact WalkRecord.finds_iff.2 (by simp [hlooks])
  · exact fun h => absurd (WalkRecord.finds_iff.1 h) (by simp [hlooks])
  · exact List.mem_map.1 (hdels ▸ List.mem_singleton_self 0)
  · simp [live]
  · have hdead : e'.cloud = false := hcloud
    simp [live, hdead]

/-- What the pass applied is gone. -/
theorem live_after_pass :
    ∃ log e', pass = (some (.error (.rolledBack .apply ⟨1, "network 'backup'"⟩
        (.api "quota exceeded"))), log, e') ∧
      live e' = live { cloud := true } \ log.appliedIn twoNetworks.graph := by
  have hres : pass.1 = some (.error (.rolledBack .apply ⟨1, "network 'backup'"⟩
      (.api "quota exceeded"))) := by
    rw [pass, Reconciler.reconcile_of_sameAs_eq_false twoNetworks.sameAs_moved]
    rfl
  rcases hrun : pass with ⟨res, log, e'⟩
  rw [hrun] at hres
  subst hres
  obtain ⟨-, -, hlive⟩ := Reconciler.reconcile_deletes_created_iff hrun
  exact ⟨log, e', rfl, (hlive rfl live keepsAccount).1⟩

end fullCloud

end ClusterKeeper
