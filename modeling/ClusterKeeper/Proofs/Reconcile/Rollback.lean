/-
# Rollbacks

A pass that gives up and reports that it cleaned up has undone every apply of its own, the
last one first; a pass that reports that it abandoned resources has left one behind. Both
hold of every run, whatever the world answers to each question.
-/

import ClusterKeeper.Proofs.Reconcile.Outcome
import ClusterKeeper.Reconcile.Engine

namespace ClusterKeeper

variable {log before after : WalkRecord} {trigger : WalkExchange} {n : Nat} {b : Setback}
  {r : Reconciler} {start : Cluster}

namespace WalkRecord

/-- Everything that was applied was removed again: the applies that succeeded are those of the
first resources, they are removed from the last to the first with the states that their
applies returned, and the deletes start from the cluster behind the last apply. -/
structure RolledBack (start : Cluster) (log : WalkRecord) : Prop where
  applied : log.applications.map (·.index) = List.range log.applications.length
  removed : ∀ a ∈ log.applications, Deletion.Removes a.index a.state (log.deletionsOf a.index)
  only : ∀ d ∈ log.deletions, d.index < log.applications.length
  descending : log.deletions.Pairwise fun d d' => d'.index ≤ d.index
  threaded : Deletion.Threaded (lastApplied start log.applications) log.deletions

/-- Something that was applied was left behind: the applies that succeeded are those of the
first resources, those behind the place of the error were removed, all deletes of the resource
at that place failed, the last one with the error's source, and none before it was tried. -/
structure LeftBehind (log : WalkRecord) (e : CleanupError) : Prop where
  applied : log.applications.map (·.index) = List.range log.applications.length
  reached : e.place.index < log.applications.length
  removed : ∀ a ∈ log.applications, e.place.index < a.index →
    Deletion.Removes a.index a.state (log.deletionsOf a.index)
  stuck : ∃ a ∈ log.applications, a.index = e.place.index ∧ ∃ known fails,
    log.deletionsOf e.place.index = fails ++ [⟨e.place.index, a.state, known, .error e.source⟩] ∧
      ∀ d ∈ fails, d.Retried e.place.index a.state known
  untouched : ∀ d ∈ log.deletions, e.place.index ≤ d.index

end WalkRecord

/-! ## From the course of a pass -/

namespace GivenUp

theorem rolledBack {left : Cluster}
    (h : GivenUp r start before trigger after n b (some (.ok left))) :
    WalkRecord.RolledBack start (before ++ trigger :: after) := by
  have hs := entries_descending h.indices
  constructor <;> simp only [h.applications_eq, h.deletions_eq, WalkRecord.deletionsOf]
  · exact h.indices
  · intro a ha
    have hentry : a.entry ∈ ((before ++ [trigger]).applications.map Application.entry).reverse :=
      List.mem_reverse.2 (List.mem_map_of_mem ha)
    exact h.unwinds.removes hs a.entry hentry nofun
  · intro d hd
    exact entry_fst_lt h.indices _ (List.mem_reverse.1 (h.unwinds.mem_entries d hd))
  · exact h.unwinds.descending hs
  · exact h.unwinds.threaded

theorem leftBehind {e : CleanupError}
    (h : GivenUp r start before trigger after n b (some (.error e))) :
    WalkRecord.LeftBehind (before ++ trigger :: after) e := by
  have hs := entries_descending h.indices
  obtain ⟨⟨state, known, fails, hmem, hfilter, hretried⟩, hle⟩ := h.unwinds.stuck_of_error hs
  have hentry := List.mem_reverse.1 hmem
  constructor <;> simp only [h.applications_eq, h.deletions_eq, WalkRecord.deletionsOf]
  · exact h.indices
  · exact entry_fst_lt h.indices _ hentry
  · -- What was applied later was removed before the cleanup got stuck.
    intro a ha hlt
    refine h.unwinds.removes hs a.entry (List.mem_reverse.2 (List.mem_map_of_mem ha)) ?_
    rintro e' ⟨⟩
    exact hlt
  · obtain ⟨a, ha, hx⟩ := List.mem_map.1 hentry
    obtain ⟨hindex, rfl⟩ := Prod.mk.inj hx
    exact ⟨a, ha, hindex, known, fails, hfilter, hretried⟩
  · exact hle

end GivenUp

/-! ## Every run -/

namespace WalkRecord

/-- No delete of the resource succeeded. -/
def NeverRemoved (log : WalkRecord) (index : Nat) : Prop :=
  ∀ d ∈ log.deletionsOf index, ∀ next, d.answer ≠ .ok next

theorem RolledBack.removed_all (h : log.RolledBack start) :
    ∀ a ∈ log.applications, ¬ log.NeverRemoved a.index := by
  intro a ha hnever
  obtain ⟨d, hd, hindex, next, hnext⟩ := (h.removed a ha).exists_ok
  refine hnever d (List.mem_filter.2 ⟨hd, ?_⟩) next hnext
  rw [hindex]
  exact beq_self_eq_true _

theorem LeftBehind.left {e : CleanupError} (h : log.LeftBehind e) :
    ∃ a ∈ log.applications, log.NeverRemoved a.index := by
  obtain ⟨a, ha, hindex, known, fails, hdels, hretried⟩ := h.stuck
  refine ⟨a, ha, fun d hd next hnext => ?_⟩
  rw [hindex, hdels] at hd
  rcases List.mem_append.1 hd with hd | hd
  · obtain ⟨e', rfl, -⟩ := hretried d hd
    cases hnext
  · rw [List.mem_singleton.1 hd] at hnext
    cases hnext

end WalkRecord

namespace Reconciler

variable {σ : Type} {world : (q : WalkQuestion) → σ → q.Answer × σ} {s s' : σ}
  {actual expected : Cluster} {e : ReconcileError}

theorem reconcile_of_sameAs_eq_false (h : actual.sameAs expected = false) :
    r.reconcile actual expected =
      Walk.phase (r.applyFrom r.graph 0 { applied := expected, observed := actual }) := by
  rw [reconcile, h]
  rfl

/-- A pass that fails and does not report that it abandoned resources, so one that reports
that it rolled back or was interrupted, has undone all that it applied. It did so at the first
exchange at which anything went wrong, which its error names, and did nothing else from then
on. -/
theorem reconcile_rolledBack
    (hrun : (r.reconcile actual expected).play world s = (some (.error e), log, s'))
    (hkept : e.isAbandoned = false) :
    ∃ (before : WalkRecord) (trigger : WalkExchange) (after : WalkRecord) (n : Nat)
      (b : Setback) (left : Cluster), log = before ++ trigger :: after ∧
      GaveUpAt before trigger n b ∧ e = b.report (r.placeAt n) (.ok left) ∧
      (before ++ [trigger]).deletions = [] ∧ after.OnlyCleans ∧ log.RolledBack expected := by
  obtain ⟨before, trigger, after, n, b, y, rfl, hgiven, rfl⟩ := givenUp_of_ends (.of_play hrun)
  cases y with
  | error c => cases b <;> cases hkept
  | ok left =>
    exact ⟨before, trigger, after, n, b, left, rfl, hgiven.toGaveUpAt, rfl, hgiven.untouched,
      hgiven.cleans, hgiven.rolledBack⟩

/-- An error reports that resources were abandoned if and only if one that was applied was
never removed. It then carries the error of the cleanup, which tells where the cleanup got
stuck, beside what the pass gave up for. -/
theorem reconcile_isAbandoned_iff
    (hrun : (r.reconcile actual expected).play world s = (some (.error e), log, s')) :
    (e.isAbandoned = true ↔ ∃ a ∈ log.applications, log.NeverRemoved a.index) ∧
      (e.isAbandoned = true →
        ∃ (before : WalkRecord) (trigger : WalkExchange) (after : WalkRecord) (n : Nat)
          (b : Setback) (c : CleanupError), log = before ++ trigger :: after ∧
          GaveUpAt before trigger n b ∧ e = b.report (r.placeAt n) (.error c) ∧
          e.cleanup? = some c ∧ log.LeftBehind c) := by
  obtain ⟨before, trigger, after, n, b, y, rfl, hgiven, rfl⟩ := givenUp_of_ends (.of_play hrun)
  cases y with
  | ok left =>
    have hno : (b.report (r.placeAt n) (.ok left)).isAbandoned = false := by
      cases b <;> rfl
    rw [hno]
    -- Nothing is abandoned, since a cleanup that is through has removed all that was applied.
    refine ⟨⟨nofun, ?_⟩, nofun⟩
    rintro ⟨a, ha, hnever⟩
    exact absurd hnever (hgiven.rolledBack.removed_all a ha)
  | error c =>
    have hyes : (b.report (r.placeAt n) (.error c)).isAbandoned = true := by
      cases b <;> rfl
    have hcleanup : (b.report (r.placeAt n) (.error c)).cleanup? = some c := by
      cases b <;> rfl
    refine ⟨iff_of_true hyes hgiven.leftBehind.left, fun _ => ?_⟩
    exact ⟨before, trigger, after, n, b, c, rfl, hgiven.toGaveUpAt, rfl, hcleanup,
      hgiven.leftBehind⟩

end Reconciler

/-! ## A cloud short of quota -/

/-- What a cloud answers in which nothing is there and every call succeeds. -/
def obliging : (c : CloudCall) → Reply c.Answer
  | .expected _ known => { answer := .ok (known, { kind := .network, name := "net" }) }
  | .actual _ _ => { answer := .error (.resourceNotFound "net") }
  | .apply _ _ expected applied => { answer := .ok (applied, expected) }
  | .delete _ _ known => { answer := .ok known }
  | .render _ _ known => { answer := .ok known }

/-- A cloud in which the second resource cannot be applied and the first delete fails. -/
def shortOfQuota (failure : CloudError) : Cloud Nat
  | .apply (_ + 1) _ _ _, n => ({ answer := .error (.api "quota exceeded") }, n)
  | .delete _ _ _, 0 => ({ answer := .error failure }, 1)
  | c, n => (obliging c, n)

/-- A reconciler for two networks. -/
def twoNetworks : Reconciler where
  known := { name := "demo", cloud := "fake" }
  graph := [⟨.network, "net"⟩, ⟨.network, "backup"⟩]
  policy := { unit := .ofMillis 1000, initialUnits := 2 }
  patience := 3

/-- The known cluster at a location. -/
def twoNetworks.moved : Cluster := { twoNetworks.known with location := "local" }

theorem twoNetworks.sameAs_moved : twoNetworks.known.sameAs twoNetworks.moved = false := by
  decide +kernel

namespace Reconciler

/-- A pass of the two networks in the cloud short of quota. -/
def passShortOfQuota (failure : CloudError) :
    Option (Except ReconcileError Cluster) × WalkRecord × Engine Nat :=
  (twoNetworks.reconcile twoNetworks.known twoNetworks.moved).play
    (Engine.answer (shortOfQuota failure)) { cloud := 0 }

/-- The first network is removed at the second try. -/
theorem rolledBack_of_transient_delete :
    ∃ log s', passShortOfQuota (.transient "busy") = (some (.error (.rolledBack .apply
      ⟨1, "network 'backup'"⟩ (.api "quota exceeded"))), log, s') ∧
      log.RolledBack twoNetworks.moved := by
  have hres : (passShortOfQuota (.transient "busy")).1 =
      some (.error (.rolledBack .apply ⟨1, "network 'backup'"⟩ (.api "quota exceeded"))) := by
    rw [passShortOfQuota, reconcile_of_sameAs_eq_false twoNetworks.sameAs_moved]
    rfl
  rcases hrun : passShortOfQuota (.transient "busy") with ⟨res, log, s'⟩
  rw [hrun] at hres
  subst hres
  obtain ⟨before, trigger, after, n, b, left, -, -, -, -, -, hrolled⟩ :=
    reconcile_rolledBack hrun rfl
  exact ⟨log, s', rfl, hrolled⟩

/-- The first network is not removed at the first try, and it is left behind. -/
theorem leftBehind_of_fatal_delete :
    ∃ log s', passShortOfQuota (.api "denied") = (some (.error (.cleanupFailed .apply
      ⟨1, "network 'backup'"⟩ (.api "quota exceeded")
      ⟨⟨0, "network 'net'"⟩, 1, .api "denied"⟩)), log, s') ∧
      log.LeftBehind ⟨⟨0, "network 'net'"⟩, 1, .api "denied"⟩ := by
  have hres : (passShortOfQuota (.api "denied")).1 =
      some (.error (.cleanupFailed .apply ⟨1, "network 'backup'"⟩ (.api "quota exceeded")
        ⟨⟨0, "network 'net'"⟩, 1, .api "denied"⟩)) := by
    rw [passShortOfQuota, reconcile_of_sameAs_eq_false twoNetworks.sameAs_moved]
    rfl
  rcases hrun : passShortOfQuota (.api "denied") with ⟨res, log, s'⟩
  rw [hrun] at hres
  subst hres
  obtain ⟨before, trigger, after, n, b, c, -, -, -, hc, hleft⟩ :=
    (reconcile_isAbandoned_iff hrun).2 rfl
  cases hc
  exact ⟨log, s', rfl, hleft⟩

end Reconciler

end ClusterKeeper
