/-
# Removals

How the removal of what a pass has applied can go, whatever the cloud answers: each resource
is deleted until a delete succeeds, every delete before that failed with an error that may
pass, and the first resource that cannot be removed ends it.
-/

import ClusterKeeper.Proofs.Records
import ClusterKeeper.Proofs.Reconcile.Exchanges
import ClusterKeeper.Reconcile.Pass

namespace ClusterKeeper

/-! ## Tries -/

/-- Deletes of one resource that fail with an error that may pass, each followed by the wait
of the backoff, lead from one backoff to another. -/
inductive Retries (index : Nat) (state : ResourceState) (known : Cluster) :
    Backoff → WalkRecord → Backoff → Prop
  | none (b : Backoff) : Retries index state known b [] b
  | again {b b' : Backoff} {e : CloudError} {log : WalkRecord}
      (he : e.isRetryable = true) (hb : b.exhausted = false)
      (h : Retries index state known b.next log b') :
      Retries index state known b
        (⟨.call (.delete index state known), .error e⟩ :: ⟨.wait b.delay, ()⟩ :: log) b'

namespace Retries

variable {index : Nat} {state : ResourceState} {known : Cluster} {b b' : Backoff}
  {log : WalkRecord}

theorem onlyCleans (h : Retries index state known b log b') : log.OnlyCleans := by
  induction h with
  | none b => exact List.forall_mem_nil _
  | again he hb h ih =>
    exact List.forall_mem_cons.2 ⟨rfl, List.forall_mem_cons.2 ⟨rfl, ih⟩⟩

theorem retried (h : Retries index state known b log b') :
    ∀ d ∈ log.deletions, d.Retried index state known := by
  induction h with
  | none b => exact List.forall_mem_nil _
  | again he hb h ih => exact List.forall_mem_cons.2 ⟨⟨_, rfl, he⟩, ih⟩

/-- A backoff counts the deletes that failed. -/
theorem attempts_eq (h : Retries index state known b log b') :
    b'.attempts = b.attempts + log.deletions.length := by
  induction h with
  | none b => rfl
  | again he hb h ih =>
    rw [ih]
    simp only [WalkRecord.deletions, List.filterMap_cons, WalkExchange.deletion?, Backoff.next,
      List.length_cons]
    omega

/-- No more deletes are tried again than the policy allows. -/
theorem attempts_le (h : Retries index state known b log b') {m : Nat}
    (hm : b.policy.maxAttempts = some m) (hb : b.attempts ≤ m) : b'.attempts ≤ m := by
  induction h with
  | none b => exact hb
  | @again b b' e log he hx h ih =>
    have hlt : b.attempts < m := by simpa [Backoff.exhausted, hm] using hx
    exact ih hm hlt

end Retries

/-! ## One resource -/

namespace Reconciler

variable {place : Place} {state : ResourceState} {known : Cluster} {b : Backoff}
  {log : WalkRecord}

/-- The removal of a resource ends with the first delete that succeeds or that is not tried
again, and it runs out of patience if there is none. -/
theorem ends_remove {patience : Nat} {o : Option (Except CleanupError Cluster)}
    (h : (remove place state known patience b).Ends log o) :
    ∃ tries b', Retries place.index state known b tries b' ∧
      (log = tries ∧ o = none ∧ tries.deletions.length = patience ∨
        (∃ next, log = tries ++ [⟨.call (.delete place.index state known), .ok next⟩] ∧
          o = some (.ok next) ∧ tries.deletions.length < patience) ∨
        ∃ e, log = tries ++ [⟨.call (.delete place.index state known), .error e⟩] ∧
          (e.isRetryable = true → b'.exhausted = true) ∧
          o = some (.error ⟨place, b'.attempts + 1, e⟩) ∧ tries.deletions.length < patience) := by
  induction patience generalizing b log with
  | zero =>
    obtain ⟨rfl, rfl⟩ := Dialogue.ends_brokenOff_iff.1 h
    exact ⟨[], b, .none b, .inl ⟨rfl, rfl, rfl⟩⟩
  | succ patience ih =>
    obtain ⟨a, rest, rfl, hrest⟩ := Dialogue.ends_question_bind_iff.1 h
    cases a with
    | ok next =>
      obtain ⟨rfl, rfl⟩ := Dialogue.ends_done_iff.1 hrest
      exact ⟨[], b, .none b, .inr (.inl ⟨next, rfl, rfl, Nat.succ_pos _⟩)⟩
    | error e =>
      dsimp only at hrest
      split at hrest
      · next hagain =>
        obtain ⟨he, hb⟩ : e.isRetryable = true ∧ b.exhausted = false := by simpa using hagain
        obtain ⟨u, later, rfl, hlater⟩ := Dialogue.ends_question_bind_iff.1 hrest
        obtain ⟨tries, b', htries, hend⟩ := ih hlater
        refine ⟨_, b', .again he hb htries, ?_⟩
        rcases hend with ⟨rfl, rfl, hlen⟩ | ⟨next, rfl, rfl, hlt⟩ | ⟨e', rfl, hx, rfl, hlt⟩
        · exact .inl ⟨rfl, rfl, congrArg (· + 1) hlen⟩
        · exact .inr (.inl ⟨next, rfl, rfl, Nat.succ_lt_succ hlt⟩)
        · exact .inr (.inr ⟨e', rfl, hx, rfl, Nat.succ_lt_succ hlt⟩)
      · next hstop =>
        obtain ⟨rfl, rfl⟩ := Dialogue.ends_done_iff.1 hrest
        refine ⟨[], b, .none b, .inr (.inr ⟨e, rfl, fun he => ?_, rfl, Nat.succ_pos _⟩)⟩
        simpa [he] using hstop

end Reconciler

/-! ## All resources -/

/-- Deletes of one resource that were tried again, as often as the policy allows. -/
structure Reconciler.Tries (r : Reconciler) (index : Nat) (state : ResourceState)
    (known : Cluster) (fails : List Deletion) : Prop where
  retried : ∀ d ∈ fails, d.Retried index state known
  bounded : ∀ m, r.policy.maxAttempts = some m → fails.length ≤ m

/-- How a cleanup deletes resources, in the order of the entries, and what it comes to. -/
inductive Unwinds (r : Reconciler) :
    List (Nat × ResourceState) → Cluster → List Deletion →
      Option (Except CleanupError Cluster) → Prop
  | done (c : Cluster) : Unwinds r [] c [] (some (.ok c))
  | removed {index state rest c fails next dels o} (hf : r.Tries index state c fails)
      (h : Unwinds r rest next dels o) :
      Unwinds r ((index, state) :: rest) c (fails ++ ⟨index, state, c, .ok next⟩ :: dels) o
  | stuck {index state rest c fails} (hf : r.Tries index state c fails) (e : CloudError) :
      Unwinds r ((index, state) :: rest) c (fails ++ [⟨index, state, c, .error e⟩])
        (some (.error ⟨r.placeAt index, fails.length + 1, e⟩))
  /-- A resource that fails to be deleted for as long as the patience lasts. -/
  | pending {index state rest c fails} (hf : r.Tries index state c fails)
      (hp : fails.length = r.patience) :
      Unwinds r ((index, state) :: rest) c fails none

namespace Reconciler.Tries

variable {r : Reconciler} {index : Nat} {state : ResourceState} {known : Cluster}
  {fails : List Deletion}

/-- Among deletes of other resources behind it, those of the resource are its tries and the
delete that ends them. -/
theorem filter_append_self (h : r.Tries index state known fails)
    {answer : Except CloudError Cluster} {dels : List Deletion}
    (hd : ∀ d ∈ dels, index ≠ d.index) :
    (fails ++ ⟨index, state, known, answer⟩ :: dels).filter (·.index == index) =
      fails ++ [⟨index, state, known, answer⟩] := by
  have hfails : fails.filter (·.index == index) = fails := by
    refine List.filter_eq_self.2 fun d hd => ?_
    obtain ⟨e, rfl, -⟩ := h.retried d hd
    exact beq_self_eq_true index
  have hdels : dels.filter (·.index == index) = [] := by
    refine List.filter_eq_nil_iff.2 fun d hm => ?_
    simpa using (hd d hm).symm
  rw [List.filter_append, hfails, List.filter_cons_of_pos (by simp), hdels]

theorem filter_append_of_ne (h : r.Tries index state known fails)
    {answer : Except CloudError Cluster} {dels : List Deletion} {i : Nat} (hi : index ≠ i) :
    (fails ++ ⟨index, state, known, answer⟩ :: dels).filter (·.index == i) =
      dels.filter (·.index == i) := by
  have hfails : fails.filter (·.index == i) = [] := by
    refine List.filter_eq_nil_iff.2 fun d hd => ?_
    obtain ⟨e, rfl, -⟩ := h.retried d hd
    simpa using hi
  rw [List.filter_append, hfails, List.filter_cons_of_neg (by simpa using hi), List.nil_append]

theorem pairwise (h : r.Tries index state known fails) :
    fails.Pairwise fun d d' => d'.index ≤ d.index := by
  refine List.pairwise_of_forall_mem_list fun d hd d' hd' => ?_
  obtain ⟨e, rfl, -⟩ := h.retried d hd
  obtain ⟨e', rfl, -⟩ := h.retried d' hd'
  exact Nat.le_refl _

/-- Deletes that failed pass their cluster on to those behind them. -/
theorem threaded_append (h : r.Tries index state known fails) {dels : List Deletion}
    (hd : Deletion.Threaded known dels) : Deletion.Threaded known (fails ++ dels) := by
  obtain ⟨hf, -⟩ := h
  induction fails with
  | nil => exact hd
  | cons d fails ih =>
    obtain ⟨⟨e, rfl, -⟩, hrest⟩ := List.forall_mem_cons.1 hf
    exact ⟨rfl, ih hrest⟩

end Reconciler.Tries

namespace Unwinds

variable {r : Reconciler} {entries : List (Nat × ResourceState)} {c : Cluster}
  {dels : List Deletion} {o : Option (Except CleanupError Cluster)}

/-- Only what is entered is deleted, and with the state that is entered. -/
theorem mem_entries (h : Unwinds r entries c dels o) :
    ∀ d ∈ dels, (d.index, d.state) ∈ entries := by
  induction h with
  | done c => exact List.forall_mem_nil _
  | removed hf h ih =>
    intro d hd
    rcases List.mem_append.1 hd with hd | hd
    · obtain ⟨e, rfl, -⟩ := hf.retried d hd
      exact List.mem_cons_self
    · rcases List.mem_cons.1 hd with rfl | hd
      · exact List.mem_cons_self
      · exact List.mem_cons_of_mem _ (ih d hd)
  | stuck hf e =>
    intro d hd
    rcases List.mem_append.1 hd with hd | hd
    · obtain ⟨e, rfl, -⟩ := hf.retried d hd
      exact List.mem_cons_self
    · rw [List.mem_singleton.1 hd]
      exact List.mem_cons_self
  | pending hf hp =>
    intro d hd
    obtain ⟨e, rfl, -⟩ := hf.retried d hd
    exact List.mem_cons_self

/-- The deletes of a resource come before those of the entries behind it. -/
theorem descending (h : Unwinds r entries c dels o)
    (hs : entries.Pairwise fun x y => y.1 < x.1) :
    dels.Pairwise fun d d' => d'.index ≤ d.index := by
  induction h with
  | done c => exact .nil
  | @removed index state rest c fails next dels o hf h ih =>
    obtain ⟨hlt, hs⟩ := List.pairwise_cons.1 hs
    -- The tries at this entry are all of its index, and the entries behind it are smaller.
    refine List.pairwise_append.2 ⟨hf.pairwise, List.pairwise_cons.2 ⟨?_, ih hs⟩, ?_⟩
    · intro d hd
      exact Nat.le_of_lt (hlt _ (h.mem_entries d hd))
    · intro d hd d' hd'
      obtain ⟨e, rfl, -⟩ := hf.retried d hd
      rcases List.mem_cons.1 hd' with rfl | hd'
      · exact Nat.le_refl _
      · exact Nat.le_of_lt (hlt _ (h.mem_entries d' hd'))
  | stuck hf e =>
    refine List.pairwise_append.2 ⟨hf.pairwise, List.pairwise_singleton _ _, ?_⟩
    intro d hd d' hd'
    obtain ⟨e, rfl, -⟩ := hf.retried d hd
    obtain rfl := List.mem_singleton.1 hd'
    exact Nat.le_refl _
  | pending hf hp => exact hf.pairwise

/-- Each delete gets the cluster that the one before it left. -/
theorem threaded (h : Unwinds r entries c dels o) : Deletion.Threaded c dels := by
  induction h with
  | done c => trivial
  | removed hf h ih => exact hf.threaded_append ⟨rfl, ih⟩
  | stuck hf e => exact hf.threaded_append ⟨rfl, trivial⟩
  | @pending index state rest c fails hf hp =>
    have hnil : Deletion.Threaded c [] := trivial
    have h := hf.threaded_append hnil
    rwa [List.append_nil] at h

/-- A cleanup has removed every entry, if it fails every one behind the place it fails at. -/
theorem removes {y : Except CleanupError Cluster} (h : Unwinds r entries c dels (some y))
    (hs : entries.Pairwise fun x y => y.1 < x.1) :
    ∀ x ∈ entries, (∀ e, y = .error e → e.place.index < x.1) →
      Deletion.Removes x.1 x.2 (dels.filter (·.index == x.1)) := by
  generalize ho : some y = o at h
  induction h with
  | done c => exact List.forall_mem_nil _
  | @removed index state rest c fails next dels o hf h ih =>
    obtain ⟨hlt, hs⟩ := List.pairwise_cons.1 hs
    refine List.forall_mem_cons.2 ⟨fun _ => ⟨c, fails, next, ?_, hf.retried⟩, ?_⟩
    · exact hf.filter_append_self fun d hd => Nat.ne_of_gt (hlt _ (h.mem_entries d hd))
    · intro x hx hy
      rw [hf.filter_append_of_ne (Nat.ne_of_gt (hlt x hx))]
      exact ih hs ho x hx hy
  | @stuck index state rest c fails hf e =>
    cases ho
    obtain ⟨hlt, hs⟩ := List.pairwise_cons.1 hs
    intro x hx hy
    have hbehind : index < x.1 := hy _ rfl
    rcases List.mem_cons.1 hx with rfl | hx
    · exact absurd hbehind (Nat.lt_irrefl _)
    · exact absurd hbehind (Nat.lt_asymm (hlt x hx))
  | pending hf hp => cases ho

/-- A cleanup that fails has tried to delete the entry at the place of its error, in vain, and
none behind it in the order of the cleanup. -/
theorem stuck_of_error {e : CleanupError} (h : Unwinds r entries c dels (some (.error e)))
    (hs : entries.Pairwise fun x y => y.1 < x.1) :
    (∃ state known fails, (e.place.index, state) ∈ entries ∧
      dels.filter (·.index == e.place.index) =
        fails ++ [⟨e.place.index, state, known, .error e.source⟩] ∧
      ∀ d ∈ fails, d.Retried e.place.index state known) ∧
    ∀ d ∈ dels, e.place.index ≤ d.index := by
  generalize ho : some (Except.error e) = o at h
  induction h with
  | done c => cases ho
  | @removed index state rest c fails next dels o hf h ih =>
    obtain ⟨hlt, hs⟩ := List.pairwise_cons.1 hs
    obtain ⟨⟨state', known, fails', hmem, hfilter, hretried⟩, hle⟩ := ih hs ho
    -- The cleanup goes down, so the resource it is stuck at is none of those removed before.
    have hbehind : e.place.index < index := hlt _ hmem
    refine ⟨⟨state', known, fails', List.mem_cons_of_mem _ hmem, ?_, hretried⟩, ?_⟩
    · rw [hf.filter_append_of_ne (Nat.ne_of_gt hbehind)]
      exact hfilter
    · intro d hd
      rcases List.mem_append.1 hd with hd | hd
      · obtain ⟨e', rfl, -⟩ := hf.retried d hd
        exact Nat.le_of_lt hbehind
      · rcases List.mem_cons.1 hd with rfl | hd
        · exact Nat.le_of_lt hbehind
        · exact hle d hd
  | @stuck index state rest c fails hf e' =>
    cases ho
    refine ⟨⟨state, c, fails, List.mem_cons_self, ?_, hf.retried⟩, ?_⟩
    · exact hf.filter_append_self fun d hd => absurd hd List.not_mem_nil
    · intro d hd
      rcases List.mem_append.1 hd with hd | hd
      · obtain ⟨e'', rfl, -⟩ := hf.retried d hd
        exact Nat.le_refl _
      · rw [List.mem_singleton.1 hd]
        exact Nat.le_refl _
  | pending hf hp => cases ho

/-- What is deleted are the entries up to the place at which the cleanup fails, if it does. -/
theorem deletes_iff {y : Except CleanupError Cluster} (h : Unwinds r entries c dels (some y))
    (hs : entries.Pairwise fun x y => y.1 < x.1) (index : Nat) :
    (∃ d ∈ dels, d.index = index) ↔
      (∃ x ∈ entries, x.1 = index) ∧ ∀ e, y = .error e → e.place.index ≤ index := by
  constructor
  · rintro ⟨d, hd, rfl⟩
    refine ⟨⟨_, h.mem_entries d hd, rfl⟩, ?_⟩
    rintro e rfl
    exact (h.stuck_of_error hs).2 d hd
  · rintro ⟨⟨x, hx, rfl⟩, hle⟩
    -- The entry at which the cleanup fails was deleted too, though without success.
    by_cases hlt : ∀ e, y = .error e → e.place.index < x.1
    · obtain ⟨d, hd, hindex, -⟩ := (h.removes hs x hx hlt).exists_ok
      exact ⟨d, hd, hindex⟩
    · cases y with
      | ok left => exact absurd nofun hlt
      | error e =>
        obtain ⟨⟨state, known, fails, -, hfilter, -⟩, -⟩ := h.stuck_of_error hs
        have hlast : ⟨e.place.index, state, known, .error e.source⟩ ∈
            dels.filter (·.index == e.place.index) := by
          rw [hfilter]
          exact List.mem_append_right _ (List.mem_singleton_self _)
        refine ⟨_, (List.mem_filter.1 hlast).1, ?_⟩
        refine Nat.le_antisymm (hle e rfl) (Nat.not_lt.1 fun hgt => hlt ?_)
        rintro e' ⟨⟩
        exact hgt

/-- A cleanup that has come to nothing is still deleting one resource. -/
theorem pending_of_none (h : Unwinds r entries c dels none) :
    ∃ index state known done fails, r.Tries index state known fails ∧
      fails.length = r.patience ∧ dels = done ++ fails := by
  generalize ho : none = o at h
  induction h with
  | done c => cases ho
  | @removed index state rest c fails next dels o hf h ih =>
    obtain ⟨index', state', known, done, fails', hf', hp, rfl⟩ := ih ho
    exact ⟨index', state', known, fails ++ ⟨index, state, c, .ok next⟩ :: done, fails', hf', hp,
      by simp⟩
  | stuck hf e => cases ho
  | @pending index state rest c fails hf hp =>
    exact ⟨index, state, c, [], fails, hf, hp, rfl⟩

end Unwinds

namespace Reconciler

variable {r : Reconciler} {entries : List (Nat × ResourceState)} {c : Cluster}
  {log : WalkRecord} {o : Option (Except CleanupError Cluster)}

theorem tries_of_retries {index : Nat} {state : ResourceState} {b : Backoff}
    (h : Retries index state c r.policy.start log b) : r.Tries index state c log.deletions where
  retried := h.retried
  bounded m hm := by
    have hle : b.attempts ≤ m := h.attempts_le hm (Nat.zero_le m)
    have hstart : r.policy.start.attempts = 0 := rfl
    rw [h.attempts_eq, hstart] at hle
    omega

/-- What the removal of all entries can come to. -/
theorem ends_removeAll (h : (r.removeAll entries c).Ends log o) :
    log.OnlyCleans ∧ Unwinds r entries c log.deletions o := by
  induction entries generalizing c log with
  | nil =>
    obtain ⟨rfl, rfl⟩ := Dialogue.ends_done_iff.1 h
    exact ⟨List.forall_mem_nil _, .done c⟩
  | cons entry rest ih =>
    obtain ⟨index, state⟩ := entry
    rcases Dialogue.ends_bind_iff.1 h with ⟨x, front, back, rfl, hone, hnext⟩ | ⟨hone, rfl⟩
    all_goals
      obtain ⟨tries, b, htries, hend⟩ := ends_remove hone
      have hf := tries_of_retries htries
      have hclean := htries.onlyCleans
    · rcases hend with ⟨-, ho, -⟩ | ⟨next, rfl, ho, -⟩ | ⟨e, rfl, -, ho, -⟩ <;> cases ho
      · -- The resource was removed, and the next one comes.
        obtain ⟨hback, hrest⟩ := ih hnext
        refine ⟨?_, ?_⟩
        · simp only [WalkRecord.onlyCleans_append]
          exact ⟨⟨hclean, List.forall_mem_singleton.2 rfl⟩, hback⟩
        · rw [WalkRecord.deletions_append, WalkRecord.deletions_append, List.append_assoc]
          exact .removed hf hrest
      · -- It could not be removed, and nothing follows.
        obtain ⟨rfl, rfl⟩ := Dialogue.ends_done_iff.1 hnext
        rw [List.append_nil]
        refine ⟨?_, ?_⟩
        · exact WalkRecord.onlyCleans_append.2 ⟨hclean, List.forall_mem_singleton.2 rfl⟩
        · rw [WalkRecord.deletions_append, htries.attempts_eq]
          have hstart : r.policy.start.attempts = 0 := rfl
          rw [hstart, Nat.zero_add]
          exact .stuck hf e
    · rcases hend with ⟨rfl, -, hlen⟩ | ⟨next, -, ho, -⟩ | ⟨e, -, -, ho, -⟩
      · exact ⟨hclean, .pending hf hlen⟩
      · cases ho
      · cases ho

end Reconciler

end ClusterKeeper
