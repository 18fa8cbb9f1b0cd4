/-
# Retries and the time between them

No delete is tried again at once: between two deletes of one resource there is a wait of its
backoff. With settings that were accepted, the unit of that wait is some time and its factor is not
zero, so the wait takes time, unless the settings cap all waits at no time at all.
-/

import ClusterKeeper.Proofs.Reconcile.Questions
import ClusterKeeper.Proofs.Reconcile.RetriedRuns

namespace ClusterKeeper

variable {α : Type} {p q : α → Prop} {a w : α} {l front back : List α}

/-! ## Lists with something in between -/

/-- Between any two elements with `p` there is one with `q`. -/
def Spaced (p q : α → Prop) (l : List α) : Prop :=
  ∀ front x between y back, l = front ++ x :: (between ++ y :: back) → p x → p y →
    ∃ z ∈ between, q z

theorem spaced_cons : Spaced p q (a :: l) ↔ Spaced p q l ∧
    (p a → ∀ between y back, l = between ++ y :: back → p y → ∃ z ∈ between, q z) := by
  constructor
  · intro h
    refine ⟨fun front x between y back hl => ?_, fun ha between y back hl => ?_⟩
    · exact h (a :: front) x between y back (congrArg (a :: ·) hl)
    · exact h [] a between y back (congrArg (a :: ·) hl) ha
  · rintro ⟨hl, ha⟩ front x between y back heq hx hy
    cases front with
    | nil =>
      obtain ⟨rfl, hrest⟩ := List.cons.inj heq
      exact ha hx between y back hrest hy
    | cons b front =>
      obtain ⟨rfl, hrest⟩ := List.cons.inj heq
      exact hl front x between y back hrest hx hy

theorem spaced_nil : Spaced p q [] := fun front x between y back h => by
  cases front <;> cases h

theorem spaced_singleton : Spaced p q [a] :=
  spaced_cons.2 ⟨spaced_nil, fun _ between y back h => by cases between <;> cases h⟩

namespace Spaced

theorem cons (h : Spaced p q l) (ha : ¬ p a) : Spaced p q (a :: l) :=
  spaced_cons.2 ⟨h, fun hp => absurd hp ha⟩

/-- What comes behind an element may come there if something is put in between. -/
theorem cons_cons (h : Spaced p q l) (hq : q w) (hp : ¬ p w) : Spaced p q (a :: w :: l) := by
  refine spaced_cons.2 ⟨h.cons hp, fun _ between y back hl hy => ?_⟩
  cases between with
  | nil =>
    obtain ⟨rfl, -⟩ := List.cons.inj hl
    exact absurd hy hp
  | cons z between =>
    obtain ⟨rfl, -⟩ := List.cons.inj hl
    exact ⟨w, List.mem_cons_self, hq⟩

theorem of_forall_not (h : ∀ x ∈ l, ¬ p x) : Spaced p q l := by
  rintro front x between y back rfl hx
  exact absurd hx (h x (by simp))

theorem append_left (h : Spaced p q back) (hf : ∀ x ∈ front, ¬ p x) :
    Spaced p q (front ++ back) := by
  induction front with
  | nil => exact h
  | cons b front ih =>
    obtain ⟨hb, hf⟩ := List.forall_mem_cons.1 hf
    exact (ih hf).cons hb

theorem append_right (h : Spaced p q front) (hb : ∀ x ∈ back, ¬ p x) :
    Spaced p q (front ++ back) := by
  induction front with
  | nil => exact of_forall_not hb
  | cons b front ih =>
    obtain ⟨hfront, hhead⟩ := spaced_cons.1 h
    refine spaced_cons.2 ⟨ih hfront, fun hp between y rest hl hy => ?_⟩
    -- The second of two such elements is not among those behind.
    rcases List.append_eq_append_iff.1 hl with ⟨mid, rfl, hmid⟩ | ⟨mid, rfl, hmid⟩
    · exact absurd hy (hb y (hmid ▸ List.mem_append_right mid List.mem_cons_self))
    · cases mid with
      | nil =>
        rw [List.nil_append] at hmid
        exact absurd hy (hb y (hmid ▸ List.mem_cons_self))
      | cons z mid =>
        obtain ⟨rfl, -⟩ := List.cons.inj hmid
        exact hhead hp between y mid rfl hy

end Spaced

/-! ## Deletes of one resource -/

variable {r : Reconciler} {log loop last : WalkRecord} {i : Nat} {b b' : Backoff} {c : Cluster}

namespace WalkExchange

/-- The exchange is a delete of the resource. -/
def Deletes (i : Nat) (x : WalkExchange) : Prop := ∃ d, x.deletion? = some d ∧ d.index = i

/-- The exchange is a wait. -/
def IsWait (x : WalkExchange) : Prop := ∃ d, x.question = .wait d

theorem not_deletes (x : WalkExchange) (h : x.deletion? = none) : ¬ x.Deletes i := by
  rintro ⟨d, hd, -⟩
  cases h.symm.trans hd

end WalkExchange

open WalkExchange (Deletes IsWait not_deletes)

namespace WalkRecord

/-- Between any two deletes of the resource there is a wait. -/
def Pauses (log : WalkRecord) (i : Nat) : Prop := Spaced (Deletes i) IsWait log

theorem deletionsOf_eq_nil_iff : log.deletionsOf i = [] ↔ ∀ x ∈ log, ¬ Deletes i x := by
  simp only [deletionsOf, List.filter_eq_nil_iff, deletions, List.mem_filterMap, beq_iff_eq]
  constructor
  · rintro h x hx ⟨d, hd, rfl⟩
    exact h d ⟨x, hx, hd⟩ rfl
  · rintro h d ⟨x, hx, hd⟩ rfl
    exact h x hx ⟨d, hd, rfl⟩

/-- The deletes of a resource are those of its loop. -/
theorem Pauses.of_hasLoop (hhas : log.HasLoop loop i) (h : loop.Pauses i) : log.Pauses i := by
  obtain ⟨before, after, rfl, hbefore, hafter⟩ := hhas
  exact (Spaced.append_left h (deletionsOf_eq_nil_iff.1 hbefore)).append_right
    (deletionsOf_eq_nil_iff.1 hafter)

end WalkRecord

theorem Retries.pauses {state : ResourceState} (h : Retries i state c b log b')
    (hlast : last.Pauses i) : WalkRecord.Pauses (log ++ last) i := by
  induction h with
  | none b => exact hlast
  | again he hb h ih => exact Spaced.cons_cons ih ⟨_, rfl⟩ (not_deletes _ rfl)

theorem Rereads.pauses {known : Cluster} (h : Rereads known i c b log b')
    (hlast : last.Pauses i) : WalkRecord.Pauses (log ++ last) i := by
  induction h with
  | none b => exact hlast
  | again found state he hb h ih =>
    exact (Spaced.cons_cons ih ⟨_, rfl⟩ (not_deletes _ rfl)).cons (not_deletes _ rfl)

namespace Reconciler

variable {actual expected : Cluster}

theorem pauses_removeEntry {x : Nat × ResourceState} {o : Option (Except CleanupError Cluster)}
    (h : (r.removeEntry x c).Ends log o) : log.Pauses x.1 := by
  obtain ⟨tries, b, htries, hend⟩ := ends_remove h
  rcases hend with ⟨rfl, -⟩ | ⟨next, rfl, -⟩ | ⟨e, rfl, -⟩
  · rw [← List.append_nil log]
    exact htries.pauses spaced_nil
  · exact htries.pauses spaced_singleton
  · exact htries.pauses spaced_singleton

theorem pauses_tearDownPlace {place : Place} {o : Option (Except ReconcileError Cluster)}
    (h : (r.tearDownPlace place c).Ends log o) : log.Pauses place.index := by
  obtain ⟨tries, b, htries, ⟨rfl, -⟩ | ⟨last, res, rfl, hlast, -⟩⟩ := ends_tearDown h
  · rw [← List.append_nil log]
    exact htries.pauses spaced_nil
  · refine htries.pauses ?_
    -- A last try is a look, and a delete behind it if the resource was found.
    cases hlast
    case gone => exact spaced_singleton
    case unreadable => exact spaced_singleton
    all_goals exact spaced_singleton.cons (not_deletes _ rfl)

/-- No delete of a cleanup is tried again without a wait. -/
theorem pauses_of_ends_reconcile {o : Option (Except ReconcileError Cluster)}
    (h : (r.reconcile actual expected).Ends log o) (i : Nat) : log.Pauses i := by
  by_cases hi : log.deletionsOf i = []
  · exact .of_forall_not (WalkRecord.deletionsOf_eq_nil_iff.1 hi)
  -- A resource that is deleted has one loop of its own in the cleanup.
  · rcases holdsCleanup_of_ends h with
      ⟨-, hdels, -⟩ | ⟨front, back, tail, entries, c, y, s, n, hclean, -⟩
    · rw [WalkRecord.deletionsOf, hdels] at hi
      exact absurd rfl hi
    · rw [hclean.deletionsOf_eq] at hi
      obtain ⟨x, -, c', loop, o', rfl, hloop, hhas, -⟩ :=
        hclean.inTurn.exists_loop deletesOwn_removeEntry hclean.pairwise_ne hi
      exact .of_hasLoop (hclean.hasLoop hhas) (pauses_removeEntry hloop)

/-- Nor is one of a teardown. -/
theorem pauses_of_ends_destroy {o : Option (Except ReconcileError Cluster)}
    (h : r.destroy.Ends log o) (i : Nat) : log.Pauses i := by
  by_cases hi : log.deletionsOf i = []
  · exact .of_forall_not (WalkRecord.deletionsOf_eq_nil_iff.1 hi)
  · obtain ⟨c, loop, o', hloop, hhas, -⟩ := exists_loop_of_destroy h hi
    exact .of_hasLoop hhas (pauses_tearDownPlace hloop)

end Reconciler

/-! ## Waits -/

/-- A question that is a wait is one of a backoff that was just started. -/
def BackoffPolicy.Allows (p : BackoffPolicy) (q : WalkQuestion) : Prop :=
  ∀ d, q = .wait d → ∃ k, d = p.delayAt k

namespace Reconciler

theorem asks_allowed_reconcile (r : Reconciler) (actual expected : Cluster) :
    (r.reconcile actual expected).Asks r.policy.Allows :=
  asks_reconcile (fun _ => nofun) (fun k _ hd => ⟨k, (WalkQuestion.wait.inj hd).symm⟩) nofun nofun
    actual expected

theorem asks_allowed_destroy (r : Reconciler) : r.destroy.Asks r.policy.Allows :=
  asks_destroy (fun _ => nofun) (fun k _ hd => ⟨k, (WalkQuestion.wait.inj hd).symm⟩) nofun

end Reconciler

/-- Whoever asks for nothing but what a policy allows waits as it says. -/
theorem exists_delayAt_of_mem_waits {policy : BackoffPolicy}
    (h : ∀ x ∈ log, policy.Allows x.question) : ∀ d ∈ log.waits, ∃ k, d = policy.delayAt k := by
  intro d hd
  obtain ⟨⟨question, answer⟩, hx, hwait⟩ := List.mem_filterMap.1 hd
  cases question with
  | wait d' =>
    cases hwait
    exact h _ hx d rfl
  | _ => cases hwait

/-! ## Settings that were accepted -/

namespace BackoffSettings

variable {s : BackoffSettings}

theorem unitMillis_ne_zero_of_validate (h : s.validate = .ok ()) : s.unitMillis ≠ 0 := by
  intro hzero
  rw [validate, if_pos hzero] at h
  cases h

theorem ceiling_pos_iff : 0 < (BackoffPolicy.ofSettings s).ceiling ↔ s.capSecs ≠ some 0 := by
  have hmax : 0 < Duration.max.nanos := by decide
  rw [BackoffPolicy.ceiling, lt_min_iff, and_iff_left hmax, BackoffPolicy.ofSettings]
  cases s.capSecs with
  | none => exact iff_of_true hmax (by simp)
  | some n =>
    have hzero : n = 0 ↔ n.toNat = 0 := UInt64.toNat_inj.symm
    have hnanos : (Duration.ofSecs n).nanos = n.toNat * nanosPerSecond := rfl
    simp [hnanos, nanosPerSecond, hzero, Nat.pos_iff_ne_zero]

/-- The waits that accepted settings ask for take time, unless they are capped at none. -/
theorem delayAt_pos_iff (h : s.validate = .ok ()) (k : Nat) :
    0 < ((BackoffPolicy.ofSettings s).delayAt k).nanos ↔ s.capSecs ≠ some 0 := by
  have hunit : 0 < (BackoffPolicy.ofSettings s).unit.nanos := by
    have hmillis : 0 < s.unitMillis.toNat := by
      rw [Nat.pos_iff_ne_zero, ne_eq, ← UInt64.toNat_zero, UInt64.toNat_inj]
      exact unitMillis_ne_zero_of_validate h
    exact Nat.mul_pos hmillis (by decide)
  have hfactor : 0 < min (max (BackoffPolicy.ofSettings s).initialUnits.toNat 2 ^ 2 ^ k)
      (UInt32.size - 1) :=
    lt_min (Nat.pow_pos (by omega)) (by decide)
  rw [BackoffPolicy.nanos_delayAt, lt_min_iff, and_iff_left (Nat.mul_pos hunit hfactor),
    ceiling_pos_iff]

end BackoffSettings

/-- How the retries of a record are paced that was made with settings. -/
structure PacedBy (s : Settings) (log : WalkRecord) : Prop where
  /-- A delete of a resource that was deleted before comes behind a wait. -/
  pauses : ∀ i, log.Pauses i
  /-- A wait takes time, unless the settings cap it at none. -/
  waits : ∀ d ∈ log.waits, 0 < d.nanos ↔ s.backoff.capSecs ≠ some 0

theorem PacedBy.of_asks {s : Settings} {β : Type} {walk : Walk β} {o : Option β}
    (hs : s.validate = .ok ()) (hasks : walk.Asks (BackoffPolicy.ofSettings s.backoff).Allows)
    (hends : walk.Ends log o) (hpauses : ∀ i, log.Pauses i) : PacedBy s log where
  pauses := hpauses
  waits d hd := by
    obtain ⟨k, rfl⟩ := exists_delayAt_of_mem_waits (hasks.of_ends hends) d hd
    exact BackoffSettings.delayAt_pos_iff hs k

namespace Reconciler

variable {s : Settings} {actual expected : Cluster} {σ τ : Type}
  {world : (q : WalkQuestion) → σ → q.Answer × σ} {t t' : σ}
  {world' : (q : WalkQuestion) → τ → q.Answer × τ} {u u' : τ} {log' : WalkRecord}
  {o o' : Option (Except ReconcileError Cluster)}

/-- With settings that were accepted, every retry of a delete comes behind a wait, in a rollback as
in a teardown, and the wait takes time exactly if the settings do not cap it at none. -/
theorem retries_paced (hs : s.validate = .ok ()) (hr : r.policy = .ofSettings s.backoff)
    (hpass : (r.reconcile actual expected).play world t = (o, log, t'))
    (hdown : r.destroy.play world' u = (o', log', u')) : PacedBy s log ∧ PacedBy s log' := by
  have hpassEnds := Dialogue.Ends.of_play hpass
  have hdownEnds := Dialogue.Ends.of_play hdown
  have hpassAsks := r.asks_allowed_reconcile actual expected
  have hdownAsks := r.asks_allowed_destroy
  rw [hr] at hpassAsks hdownAsks
  exact ⟨.of_asks hs hpassAsks hpassEnds (pauses_of_ends_reconcile hpassEnds),
    .of_asks hs hdownAsks hdownEnds (pauses_of_ends_destroy hdownEnds)⟩

end Reconciler

/-! ## Waits of no length -/

/-- Settings for one retry, with all waits capped at a number of seconds. -/
def Settings.cappedAt (secs : UInt64) : Settings :=
  { backoff := { capSecs := some secs, maxAttempts := some 1 } }

/-- The reconciler for two networks, with settings. -/
def twoNetworks.under (s : Settings) : Reconciler :=
  { twoNetworks with policy := .ofSettings s.backoff }

namespace busyCloud

open twoNetworks

/-- A pass of the two networks with settings. -/
def passUnder (s : Settings) : Option (Except ReconcileError Cluster) × WalkRecord × Engine Unit :=
  ((under s).reconcile twoNetworks.known moved).play (Engine.answer busyCloud) { cloud := () }

/-- A teardown of the two networks with settings. -/
def teardownUnder (s : Settings) :
    Option (Except ReconcileError Cluster) × WalkRecord × Engine Unit :=
  (under s).destroy.play (Engine.answer busyCloud) { cloud := () }

/-- With a cap of a second, both the pass and the teardown wait a second before their retry. -/
theorem retries_after_second :
    (Settings.cappedAt 1).validate = .ok () ∧ ∃ o log e o' log' e',
      passUnder (.cappedAt 1) = (o, log, e) ∧ teardownUnder (.cappedAt 1) = (o', log', e') ∧
      log.waits = [.ofSecs 1] ∧ log'.waits = [.ofSecs 1] ∧
      PacedBy (.cappedAt 1) log ∧ PacedBy (.cappedAt 1) log' := by
  have hpass : (passUnder (.cappedAt 1)).2.1.waits = [.ofSecs 1] := by
    rw [passUnder, Reconciler.reconcile_of_sameAs_eq_false twoNetworks.sameAs_moved]
    rfl
  have hdown : (teardownUnder (.cappedAt 1)).2.1.waits = [.ofSecs 1] := rfl
  rcases hrun : passUnder (.cappedAt 1) with ⟨o, log, e⟩
  rcases hrun' : teardownUnder (.cappedAt 1) with ⟨o', log', e'⟩
  rw [hrun] at hpass
  rw [hrun'] at hdown
  exact ⟨rfl, o, log, e, o', log', e', rfl, rfl, hpass, hdown,
    Reconciler.retries_paced rfl rfl hrun hrun'⟩

/-- With a cap of no seconds, which is accepted as well, the delete is tried again at once. -/
theorem retries_at_once :
    (Settings.cappedAt 0).validate = .ok () ∧
      (teardownUnder (.cappedAt 0)).2.1 = [
        ⟨.call (.actual 1 twoNetworks.known),
          .ok (twoNetworks.known, { kind := .network, name := "net", status := .running })⟩,
        ⟨.call (.delete 1 { kind := .network, name := "net", status := .running }
          twoNetworks.known), .error (.transient "busy")⟩,
        ⟨.wait .zero, ()⟩,
        ⟨.call (.actual 1 twoNetworks.known),
          .ok (twoNetworks.known, { kind := .network, name := "net", status := .running })⟩,
        ⟨.call (.delete 1 { kind := .network, name := "net", status := .running }
          twoNetworks.known), .error (.transient "busy")⟩,
        ⟨.endPhase, ()⟩] ∧
      (teardownUnder (.cappedAt 0)).2.2.clock = 0 :=
  ⟨rfl, rfl, rfl⟩

end busyCloud

end ClusterKeeper
