/-
# Retries over a whole run

A cleanup deletes the entries of a ledger in turn, and a teardown deletes the resources at places
in turn, each with a loop and a backoff of its own. So every delete of a run belongs to the one
loop of its resource, and with a limit on the retries, a pass and a teardown make a bounded number
of calls.
-/

import ClusterKeeper.Proofs.Reconcile.Interruption
import ClusterKeeper.Proofs.Reconcile.Retrying

namespace ClusterKeeper

open Dialogue (ends_bind_iff ends_done_iff)

variable {r : Reconciler} {p : BackoffPolicy} {log loop : WalkRecord} {i n patience : Nat}
  {c : Cluster} {b b' : Backoff} {α ε : Type}

/-! ## Resources in turn -/

/-- Walks with single resources are held one after the other, for as long as they succeed. -/
inductive EndsInTurn (step : α → Cluster → Walk (Except ε Cluster)) :
    List α → Cluster → WalkRecord → Option (Except ε Cluster) → Prop
  | done (c : Cluster) : EndsInTurn step [] c [] (some (.ok c))
  | next {x : α} {xs : List α} {c next : Cluster} {front back : WalkRecord}
      {o : Option (Except ε Cluster)} (h : (step x c).Ends front (some (.ok next)))
      (hs : EndsInTurn step xs next back o) : EndsInTurn step (x :: xs) c (front ++ back) o
  | last {x : α} {xs : List α} {c : Cluster} {log : WalkRecord} {o : Option (Except ε Cluster)}
      (h : (step x c).Ends log o) (ho : ∀ next, o ≠ some (.ok next)) :
      EndsInTurn step (x :: xs) c log o

/-- A walk that goes on with the rest behind a success, and fails otherwise. -/
theorem EndsInTurn.of_bind {step : α → Cluster → Walk (Except ε Cluster)} {x : α} {xs : List α}
    {f : Except ε Cluster → Walk (Except ε Cluster)} {o : Option (Except ε Cluster)}
    (h : (step x c >>= f).Ends log o) (hf : ∀ e, f (.error e) = .done (.error e))
    (hs : ∀ next back, (f (.ok next)).Ends back o → EndsInTurn step xs next back o) :
    EndsInTurn step (x :: xs) c log o := by
  rcases ends_bind_iff.1 h with ⟨y, front, back, rfl, hone, hnext⟩ | ⟨hone, rfl⟩
  · cases y with
    | ok next => exact .next hone (hs next back hnext)
    | error e =>
      rw [hf] at hnext
      obtain ⟨rfl, rfl⟩ := ends_done_iff.1 hnext
      rw [List.append_nil]
      exact .last hone (by rintro next ⟨⟩)
  · exact .last hone (by rintro next ⟨⟩)

/-- All deletes of the resource that the record shows are made in the loop. -/
def WalkRecord.HasLoop (log loop : WalkRecord) (i : Nat) : Prop :=
  ∃ before after, log = before ++ loop ++ after ∧ before.deletionsOf i = [] ∧
    after.deletionsOf i = []

/-- The calls of a record, in order. -/
def WalkRecord.calls (log : WalkRecord) : List CloudCall :=
  log.filterMap fun
    | ⟨.call q, _⟩ => some q
    | _ => none

theorem WalkRecord.calls_append (log log' : WalkRecord) :
    (log ++ log').calls = log.calls ++ log'.calls := List.filterMap_append

namespace WalkRecord.HasLoop

variable {front back : WalkRecord}

theorem refl (loop : WalkRecord) (i : Nat) : loop.HasLoop loop i :=
  ⟨[], [], (List.append_nil _).symm, rfl, rfl⟩

theorem append_left (h : back.HasLoop loop i) (hf : front.deletionsOf i = []) :
    (front ++ back).HasLoop loop i := by
  obtain ⟨before, after, rfl, hb, ha⟩ := h
  refine ⟨front ++ before, after, by simp, ?_, ha⟩
  rw [deletionsOf_append, hf, hb, List.append_nil]

theorem append_right (h : front.HasLoop loop i) (hb : back.deletionsOf i = []) :
    (front ++ back).HasLoop loop i := by
  obtain ⟨before, after, rfl, hf, ha⟩ := h
  refine ⟨before, after ++ back, List.append_assoc .., hf, ?_⟩
  rw [deletionsOf_append, ha, hb, List.append_nil]

theorem deletionsOf_eq (h : log.HasLoop loop i) : log.deletionsOf i = loop.deletionsOf i := by
  obtain ⟨before, after, rfl, hb, ha⟩ := h
  rw [deletionsOf_append, deletionsOf_append, hb, ha, List.append_nil, List.nil_append]

end WalkRecord.HasLoop

namespace EndsInTurn

variable {step : α → Cluster → Walk (Except ε Cluster)} {items : List α} {index : α → Nat}
  {o : Option (Except ε Cluster)}

/-- The walk with an item makes deletes of its own resource only. -/
def DeletesOwn (step : α → Cluster → Walk (Except ε Cluster)) (index : α → Nat) : Prop :=
  ∀ x c (log : WalkRecord) o, (step x c).Ends log o → ∀ d ∈ log.deletions, d.index = index x

theorem DeletesOwn.deletionsOf_eq_nil (hown : DeletesOwn step index) {x : α}
    (h : (step x c).Ends log o) (hi : index x ≠ i) : log.deletionsOf i = [] := by
  refine List.filter_eq_nil_iff.2 fun d hd => ?_
  rw [hown x c log o h d hd]
  simpa using hi

/-- A resource without an item is not deleted. -/
theorem deletionsOf_eq_nil (h : EndsInTurn step items c log o) (hown : DeletesOwn step index)
    (hi : ∀ x ∈ items, index x ≠ i) : log.deletionsOf i = [] := by
  induction h with
  | done c => rfl
  | next h hs ih =>
    obtain ⟨hx, hxs⟩ := List.forall_mem_cons.1 hi
    rw [WalkRecord.deletionsOf_append, hown.deletionsOf_eq_nil h hx, ih hxs]
    rfl
  | last h ho => exact hown.deletionsOf_eq_nil h (hi _ List.mem_cons_self)

/-- All deletes of a resource are made in the walk with its item. -/
theorem exists_loop (h : EndsInTurn step items c log o) (hown : DeletesOwn step index)
    (hs : items.Pairwise fun x y => index x ≠ index y) (hi : log.deletionsOf i ≠ []) :
    ∃ x ∈ items, ∃ c' loop o', index x = i ∧ (step x c').Ends loop o' ∧ log.HasLoop loop i ∧
      ((∃ next, o' = some (.ok next)) ∨ o' = o) := by
  induction h with
  | done c => exact absurd rfl hi
  | @next x xs c next front back o h hrest ih =>
    obtain ⟨hne, hs⟩ := List.pairwise_cons.1 hs
    by_cases hx : index x = i
    · -- The items behind it are those of other resources.
      subst hx
      have hback := hrest.deletionsOf_eq_nil hown fun y hy => (hne y hy).symm
      exact ⟨x, List.mem_cons_self, c, front, _, rfl, h,
        (WalkRecord.HasLoop.refl front _).append_right hback, .inl ⟨next, rfl⟩⟩
    · -- The first walk deletes another resource.
      have hfront := hown.deletionsOf_eq_nil h hx
      rw [WalkRecord.deletionsOf_append, hfront, List.nil_append] at hi
      obtain ⟨y, hy, c', loop, o', hindex, hloop, hhas, ho⟩ := ih hs hi
      exact ⟨y, List.mem_cons_of_mem x hy, c', loop, o', hindex, hloop, hhas.append_left hfront,
        ho⟩
  | @last x xs c log o h ho =>
    have hx : index x = i := by
      by_contra hx
      exact hi (hown.deletionsOf_eq_nil h hx)
    exact ⟨x, List.mem_cons_self, c, log, o, hx, h, .refl log i, .inr rfl⟩

/-- The walk that fails is the one with the item at which all of it fails. -/
theorem exists_loop_of_error {e : ε} (h : EndsInTurn step items c log (some (.error e)))
    (hown : DeletesOwn step index) (hs : items.Pairwise fun x y => index x ≠ index y) :
    ∃ x ∈ items, ∃ c' loop, (step x c').Ends loop (some (.error e)) ∧
      log.HasLoop loop (index x) := by
  generalize ho : some (Except.error e) = o at h
  induction h with
  | done c => cases ho
  | @next x xs c next front back o h hrest ih =>
    obtain ⟨hne, hs⟩ := List.pairwise_cons.1 hs
    obtain ⟨y, hy, c', loop, hloop, hhas⟩ := ih hs ho
    have hfront := hown.deletionsOf_eq_nil h (hne y hy)
    exact ⟨y, List.mem_cons_of_mem x hy, c', loop, hloop, hhas.append_left hfront⟩
  | @last x xs c log o h _ =>
    subst ho
    exact ⟨x, List.mem_cons_self, c, log, h, .refl log _⟩

theorem length_calls_le {m : Nat} (h : EndsInTurn step items c log o)
    (hm : ∀ x c (log : WalkRecord) o, (step x c).Ends log o → log.calls.length ≤ m) :
    log.calls.length ≤ items.length * m := by
  induction h with
  | done c => exact Nat.zero_le _
  | @next x xs c next front back o h hrest ih =>
    have hfront := hm x c front _ h
    rw [WalkRecord.calls_append, List.length_append, List.length_cons, Nat.succ_mul]
    omega
  | @last x xs c log o h ho =>
    have hlog := hm x c log o h
    rw [List.length_cons, Nat.succ_mul]
    omega

end EndsInTurn

/-! ## Entries and places -/

theorem Retries.length_calls {state : ResourceState} (h : Retries i state c b log b') :
    log.calls.length = log.deletions.length := by
  induction h with
  | none b => rfl
  | again he hx h ih => exact congrArg (· + 1) ih

theorem Rereads.length_calls {known : Cluster} (h : Rereads known i c b log b') :
    log.calls.length = 2 * log.deletions.length := by
  induction h with
  | none b => rfl
  | again found state he hx h ih => exact congrArg (· + 2) ih

theorem Rereads.index_eq {known : Cluster} (h : Rereads known i c b log b') :
    ∀ d ∈ log.deletions, d.index = i := by
  induction h with
  | none b => exact List.forall_mem_nil _
  | again found state he hx h ih => exact List.forall_mem_cons.2 ⟨rfl, ih⟩

/-- No more deletes are tried again than the policy allows. -/
theorem Rereads.attempts_le {known : Cluster} (h : Rereads known i c b log b') {m : Nat}
    (hm : b.policy.maxAttempts = some m) (hb : b.attempts ≤ m) : b'.attempts ≤ m := by
  induction h with
  | none b => exact hb
  | @again b b' found state e log he hx h ih =>
    have hlt : b.attempts < m := by simpa [Backoff.exhausted, hm] using hx
    exact ih hm hlt

namespace Reconciler

/-- The removal of one entry, with a backoff that is started for it. -/
def removeEntry (r : Reconciler) (x : Nat × ResourceState) (c : Cluster) :
    Walk (Except CleanupError Cluster) :=
  remove (r.placeAt x.1) x.2 c r.patience r.policy.start

/-- The teardown of one place, with a backoff that is started for it. -/
def tearDownPlace (r : Reconciler) (place : Place) (c : Cluster) :
    Walk (Except ReconcileError Cluster) :=
  tearDown r.known place c r.patience r.policy.start

theorem endsInTurn_removeAll {entries : List (Nat × ResourceState)}
    {o : Option (Except CleanupError Cluster)} (h : (r.removeAll entries c).Ends log o) :
    EndsInTurn r.removeEntry entries c log o := by
  induction entries generalizing c log with
  | nil =>
    obtain ⟨rfl, rfl⟩ := ends_done_iff.1 h
    exact .done c
  | cons entry rest ih =>
    exact .of_bind h (fun e => rfl) fun next back => ih

theorem endsInTurn_tearDownAll {places : List Place}
    {o : Option (Except ReconcileError Cluster)} (h : (r.tearDownAll places c).Ends log o) :
    EndsInTurn r.tearDownPlace places c log o := by
  induction places generalizing c log with
  | nil =>
    obtain ⟨rfl, rfl⟩ := ends_done_iff.1 h
    exact .done c
  | cons place rest ih =>
    exact .of_bind h (fun e => rfl) fun next back => ih

theorem deletesOwn_removeEntry : EndsInTurn.DeletesOwn r.removeEntry Prod.fst := by
  intro x c log o h
  obtain ⟨tries, b, htries, hend⟩ := ends_remove h
  have hindex : ∀ d ∈ tries.deletions, d.index = x.1 := by
    intro d hd
    obtain ⟨e, rfl, -⟩ := htries.retried d hd
    rfl
  rcases hend with ⟨rfl, -⟩ | ⟨next, rfl, -⟩ | ⟨e, rfl, -⟩
  · exact hindex
  all_goals
    rw [WalkRecord.deletions_append]
    exact List.forall_mem_append.2 ⟨hindex, List.forall_mem_singleton.2 rfl⟩

theorem deletesOwn_tearDownPlace : EndsInTurn.DeletesOwn r.tearDownPlace Place.index := by
  intro place c log o h
  obtain ⟨tries, b, htries, ⟨rfl, -⟩ | ⟨last, res, rfl, hlast, -⟩⟩ := ends_tearDown h
  · exact htries.index_eq
  · rw [WalkRecord.deletions_append]
    refine List.forall_mem_append.2 ⟨htries.index_eq, ?_⟩
    cases hlast
    case gone => exact List.forall_mem_nil _
    case unreadable => exact List.forall_mem_nil _
    all_goals exact List.forall_mem_singleton.2 rfl

/-- With a limit, a cleanup of a resource makes a bounded number of calls. -/
theorem length_calls_removeEntry {m : Nat} (hm : r.policy.maxAttempts = some m) :
    ∀ x c (log : WalkRecord) o, (r.removeEntry x c).Ends log o → log.calls.length ≤ m + 1 := by
  intro x c log o h
  obtain ⟨tries, b, htries, hend⟩ := ends_remove h
  have hle := (tries_of_retries htries).bounded m hm
  rw [← htries.length_calls] at hle
  rcases hend with ⟨rfl, -⟩ | ⟨next, rfl, -⟩ | ⟨e, rfl, -⟩
  · exact Nat.le_succ_of_le hle
  all_goals
    rw [WalkRecord.calls_append, List.length_append]
    exact Nat.succ_le_succ hle

/-- So does a teardown of a resource. -/
theorem length_calls_tearDownPlace {m : Nat} (hm : r.policy.maxAttempts = some m) :
    ∀ place c (log : WalkRecord) o, (r.tearDownPlace place c).Ends log o →
      log.calls.length ≤ 2 * (m + 1) := by
  intro place c log o h
  obtain ⟨tries, b, htries, hend⟩ := ends_tearDown h
  have hle := htries.attempts_le hm (Nat.zero_le m)
  have hstart : r.policy.start.attempts = 0 := rfl
  rw [htries.attempts_eq, hstart, Nat.zero_add] at hle
  have hcalls := htries.length_calls
  rcases hend with ⟨rfl, -⟩ | ⟨last, res, rfl, hlast, -⟩
  · omega
  · have hlen : last.calls.length ≤ 2 := by cases hlast <;> simp [WalkRecord.calls]
    rw [WalkRecord.calls_append, List.length_append]
    omega

end Reconciler

/-! ## The cleanup of a pass -/

theorem Settles.length_calls {resource : Resource} {q q' : Progress}
    (h : Settles resource i q log q') : log.calls.length = 4 := by
  obtain ⟨h⟩ := h
  rfl

theorem GivesUp.length_calls_le {resource : Resource} {q q' : Progress} {s : Setback}
    (h : GivesUp resource i q log s q') : log.calls.length ≤ 4 := by
  cases h <;> simp [WalkRecord.calls]

theorem GivesUp.length_applications_le {resource : Resource} {q q' : Progress} {s : Setback}
    (h : GivesUp resource i q log s q') : log.applications.length ≤ 1 := by
  rcases h.looks_eq with ⟨-, hle⟩ | ⟨-, hnone⟩
  · exact hle
  · rw [hnone]
    exact Nat.zero_le 1

theorem Advances.length_calls {rest rest' : List Resource} {q q' : Progress}
    (h : Advances rest i q log rest' n q') : 4 * i + log.calls.length = 4 * n := by
  induction h with
  | refl rest i q => rfl
  | step h hs ih =>
    have hcalls := h.length_calls
    rw [WalkRecord.calls_append, List.length_append]
    omega

theorem Advances.add_length_eq {rest rest' : List Resource} {q q' : Progress}
    (h : Advances rest i q log rest' n q') : n + rest'.length = i + rest.length := by
  induction h with
  | refl rest i q => rfl
  | step h hs ih =>
    rw [ih, List.length_cons]
    omega

/-- The record of a pass with the cleanup that it ends with. -/
structure HoldsCleanup (r : Reconciler) (log front back tail : WalkRecord)
    (entries : List (Nat × ResourceState)) (c : Cluster)
    (y : Option (Except CleanupError Cluster)) : Prop where
  log_eq : log = front ++ back ++ tail
  untouched : front.deletions = []
  calls_le : front.calls.length ≤ 4 * r.graph.length
  tail_calls : tail.calls = []
  tail_deletions : tail.deletions = []
  descending : entries.Pairwise fun x y => y.1 < x.1
  length_le : entries.length ≤ r.graph.length
  inTurn : EndsInTurn r.removeEntry entries c back y

namespace HoldsCleanup

variable {front back tail : WalkRecord} {entries : List (Nat × ResourceState)}
  {y : Option (Except CleanupError Cluster)}

theorem hasLoop (h : HoldsCleanup r log front back tail entries c y)
    (hback : back.HasLoop loop i) : log.HasLoop loop i := by
  rw [h.log_eq]
  refine (hback.append_left ?_).append_right ?_
  · rw [WalkRecord.deletionsOf, h.untouched]
    rfl
  · rw [WalkRecord.deletionsOf, h.tail_deletions]
    rfl

/-- All deletes of a pass are made in its cleanup. -/
theorem deletionsOf_eq (h : HoldsCleanup r log front back tail entries c y) (i : Nat) :
    log.deletionsOf i = back.deletionsOf i :=
  (h.hasLoop (.refl back i)).deletionsOf_eq

theorem pairwise_ne (h : HoldsCleanup r log front back tail entries c y) :
    entries.Pairwise fun x y => x.1 ≠ y.1 :=
  h.descending.imp Nat.ne_of_gt

/-- With a limit, a pass with its cleanup makes a bounded number of calls. -/
theorem length_calls_le (h : HoldsCleanup r log front back tail entries c y) {m : Nat}
    (hm : r.policy.maxAttempts = some m) : log.calls.length ≤ r.graph.length * (m + 5) := by
  have hback := h.inTurn.length_calls_le (Reconciler.length_calls_removeEntry hm)
  have hentries := Nat.mul_le_mul_right (m + 1) h.length_le
  have hfront := h.calls_le
  rw [h.log_eq, WalkRecord.calls_append, WalkRecord.calls_append, h.tail_calls,
    List.append_nil, List.length_append]
  calc front.calls.length + back.calls.length
      ≤ 4 * r.graph.length + r.graph.length * (m + 1) := by omega
    _ = r.graph.length * (4 + (m + 1)) := by rw [Nat.mul_comm 4, ← Nat.mul_add]
    _ = r.graph.length * (m + 5) := by rw [Nat.add_comm 4]

end HoldsCleanup

namespace Reconciler

variable {actual expected : Cluster} {o : Option (Except ReconcileError Cluster)}

/-- Behind the walk of a phase there is nothing but its end. -/
theorem exists_tail_of_phase {w : Walk α} {o : Option α} (h : w.phase.Ends log o) :
    ∃ front tail, w.Ends front o ∧ log = front ++ tail ∧ WalkRecord.calls tail = [] ∧
      WalkRecord.deletions tail = [] := by
  obtain ⟨front, hw, rfl | ⟨rfl, -⟩⟩ := ends_phase h
  · exact ⟨front, _, hw, rfl, rfl, rfl⟩
  · exact ⟨log, [], hw, (List.append_nil _).symm, rfl, rfl⟩

/-- A pass that does not succeed ends with a cleanup. -/
theorem holdsCleanup_of_ends (h : (r.reconcile actual expected).Ends log o) :
    ((∃ c, o = some (.ok c)) ∧ log.deletions = [] ∧ log.calls.length ≤ 4 * r.graph.length) ∨
      ∃ front back tail entries c y s n, HoldsCleanup r log front back tail entries c y ∧
        o = y.map fun y => .error (Setback.report (r.placeAt n) s y) := by
  obtain ⟨front, tail, hw, rfl, htailCalls, htailDels⟩ := exists_tail_of_phase h
  split at hw
  · obtain ⟨rfl, rfl⟩ := ends_done_iff.1 hw
    refine .inl ⟨⟨expected, rfl⟩, htailDels, ?_⟩
    rw [List.nil_append, htailCalls]
    exact Nat.zero_le _
  · obtain ⟨settling, back, rest, n, q, rfl, hadv, hend⟩ := ends_applyFrom hw
    have hcalls := hadv.length_calls
    have hlen := hadv.add_length_eq
    cases hend with
    | finished =>
      refine .inl ⟨⟨_, rfl⟩, ?_, ?_⟩
      · rw [List.append_nil, WalkRecord.deletions_append, hadv.deletions_eq, htailDels]
        rfl
      · rw [List.append_nil, WalkRecord.calls_append, htailCalls, List.append_nil]
        rw [List.length_nil] at hlen
        omega
    | @gaveUp resource rest n q q' front back s y hgives hclean =>
      rw [← placeAt_eq (hadv.drop_eq rfl)]
      obtain ⟨hp, hn⟩ := hadv.tracks rfl (Progress.Tracks.begin expected actual)
      rw [List.length_cons] at hlen
      -- Up to there, the ledger has the applies of the settled resources and at most one more.
      have hq' : q'.Tracks expected (settling.applications ++ front.applications) := by
        subst hn
        exact hgives.tracks hp
      refine .inr ⟨settling ++ front, back, tail, _, _, y, s, n, ⟨?_, ?_, ?_, htailCalls,
        htailDels, ?_, ?_, endsInTurn_removeAll hclean⟩, rfl⟩
      · simp
      · rw [WalkRecord.deletions_append, hadv.deletions_eq, hgives.deletions_eq]
        rfl
      · have hfront := hgives.length_calls_le
        rw [WalkRecord.calls_append, List.length_append]
        omega
      · rw [hq'.latestFirst_eq]
        exact entries_descending hq'.indices
      · have hfront := hgives.length_applications_le
        rw [hq'.latestFirst_eq, List.length_reverse, List.length_map, List.length_append]
        rw [List.nil_append] at hn
        omega

end Reconciler

/-! ## Every run -/

/-- How a pass retries the deletes of its cleanup, and how many calls that lets it make. -/
structure PassRetries (r : Reconciler) (log : WalkRecord)
    (o : Option (Except ReconcileError Cluster)) : Prop where
  /-- The deletes of each resource are those of one loop, whose backoff is started for it. The
  pass comes to nothing if the loop does, and it fails with the error of the loop. -/
  retried : ∀ i, log.deletionsOf i ≠ [] → ∃ loop state c o', log.HasLoop loop i ∧
    (∀ outcomes, Follows outcomes 0 loop.deleteAnswers →
      Retried r.policy r.patience outcomes (removalAttempt i state c outcomes)
        (removalFailure (r.placeAt i)) loop o') ∧
    (o' = none → o = none) ∧
    ∀ x, o' = some (.error x) → ∃ e, o = some (.error e) ∧ e.cleanup? = some x
  /-- The error of a cleanup counts the deletes that were made. -/
  attempts : ∀ e x, o = some (.error e) → e.cleanup? = some x →
    (log.deletionsOf x.place.index).length = x.attempts
  bounded : ∀ m, r.policy.maxAttempts = some m → log.calls.length ≤ r.graph.length * (m + 5)
  ends : ∀ m, r.policy.maxAttempts = some m → m < r.patience → o ≠ none

/-- How a teardown retries its deletes, and how many calls that lets it make. -/
structure TeardownRetries (r : Reconciler) (log : WalkRecord)
    (o : Option (Except ReconcileError Cluster)) : Prop where
  /-- The deletes of each resource are those of one loop, whose backoff is started for it. If
  the loop does not succeed, the teardown comes to what the loop comes to. -/
  retried : ∀ i, log.deletionsOf i ≠ [] → ∃ loop c o', log.HasLoop loop i ∧
    (∀ found outcomes, Follows (fun q => .ok (found q)) 0 loop.lookAnswers →
      Follows outcomes 0 loop.deleteAnswers →
      Retried r.policy r.patience outcomes (teardownAttempt i r.known found c outcomes)
        (teardownFailure (r.placeAt i)) loop o') ∧
    ((∃ next, o' = some (.ok next)) ∨ o' = o)
  /-- The error of retries that are used up counts all deletes that were made but the first. -/
  attempts : ∀ place a e, o = some (.error (.retriesExhausted place a e)) →
    r.policy.maxAttempts = some a ∧ (log.deletionsOf place.index).length = a + 1
  bounded : ∀ m, r.policy.maxAttempts = some m →
    log.calls.length ≤ r.graph.length * (2 * (m + 1))
  ends : ∀ m, r.policy.maxAttempts = some m → m < r.patience → o ≠ none

namespace Reconciler

variable {actual expected : Cluster} {o : Option (Except ReconcileError Cluster)}

theorem cleanup?_report {s : Setback} {place : Place} {y : Except CleanupError Cluster}
    {x : CleanupError} : (s.report place y).cleanup? = some x ↔ y = .error x := by
  cases s <;> cases y <;> simp [Setback.report, ReconcileError.cleanup?]

/-- The error of a removal names its place and counts its deletes. -/
theorem attempts_of_remove {place : Place} {state : ResourceState} {x : CleanupError}
    (h : (remove place state c patience p.start).Ends loop (some (.error x))) :
    x.place = place ∧ x.attempts = loop.deletions.length := by
  obtain ⟨tries, b, htries, ⟨-, ho, -⟩ | ⟨next, -, ho, -⟩ | ⟨e, rfl, -, ho, -⟩⟩ := ends_remove h
  · cases ho
  · cases ho
  · cases ho
    rw [htries.attempts_eq, WalkRecord.deletions_append, List.length_append]
    exact ⟨rfl, congrArg (· + 1) (Nat.zero_add _)⟩

theorem passRetries_of_ends (h : (r.reconcile actual expected).Ends log o) :
    PassRetries r log o := by
  have hends : ∀ m, r.policy.maxAttempts = some m → m < r.patience → o ≠ none := by
    rintro m hm hlt rfl
    obtain ⟨index, state, known, done, fails, htries, hlen, -⟩ := stillDeleting_of_ends h
    exact absurd (htries.bounded m hm) (Nat.not_le.2 (hlen ▸ hlt))
  rcases holdsCleanup_of_ends h with
    ⟨⟨c, rfl⟩, hdels, hcalls⟩ | ⟨front, back, tail, entries, c, y, s, n, hclean, rfl⟩
  · refine ⟨fun i hi => ?_, fun e x he => ?_, fun m hm => ?_, hends⟩
    · rw [WalkRecord.deletionsOf, hdels] at hi
      exact absurd rfl hi
    · cases he
    · rw [Nat.mul_comm] at hcalls
      exact hcalls.trans (Nat.mul_le_mul_left _ (by omega))
  · refine ⟨fun i hi => ?_, fun e x he hx => ?_, fun m hm => hclean.length_calls_le hm, hends⟩
    · -- The loop is the walk with the entry of the resource.
      rw [hclean.deletionsOf_eq] at hi
      obtain ⟨x, -, c', loop, o', rfl, hremove, hhas, ho⟩ :=
        hclean.inTurn.exists_loop deletesOwn_removeEntry hclean.pairwise_ne hi
      refine ⟨loop, x.2, c', o', hclean.hasLoop hhas, fun outcomes => retried_of_remove hremove,
        ?_, ?_⟩
      · rintro rfl
        rcases ho with ⟨next, ho⟩ | rfl
        · cases ho
        · rfl
      · rintro e rfl
        rcases ho with ⟨next, ho⟩ | rfl
        · cases ho
        · exact ⟨_, rfl, cleanup?_report.2 rfl⟩
    · -- The entry at which the cleanup fails is the one that its error names.
      obtain ⟨y, rfl, he⟩ := Option.map_eq_some_iff.1 he
      cases he
      obtain rfl := cleanup?_report.1 hx
      obtain ⟨entry, -, c', loop, hremove, hhas⟩ :=
        hclean.inTurn.exists_loop_of_error deletesOwn_removeEntry hclean.pairwise_ne
      obtain ⟨hplace, hattempts⟩ := attempts_of_remove hremove
      have hindex : x.place.index = entry.1 := congrArg Place.index hplace
      rw [hindex, (hclean.hasLoop hhas).deletionsOf_eq, hattempts]
      refine congrArg List.length (List.filter_eq_self.2 fun d hd => ?_)
      exact beq_iff_eq.2 (deletesOwn_removeEntry _ _ _ _ hremove d hd)

/-- A teardown is the walks with the places, the last one first, and the end of its phase. -/
theorem endsInTurn_destroy (h : r.destroy.Ends log o) :
    ∃ front tail, log = front ++ tail ∧ WalkRecord.calls tail = [] ∧
      (∀ i, WalkRecord.deletionsOf tail i = []) ∧
      EndsInTurn r.tearDownPlace ((List.range r.graph.length).reverse.map r.placeAt) r.known
        front o := by
  obtain ⟨front, tail, hw, rfl, hcalls, hdels⟩ := exists_tail_of_phase h
  rw [places_eq, ← List.map_reverse] at hw
  refine ⟨front, tail, rfl, hcalls, fun i => ?_, endsInTurn_tearDownAll hw⟩
  rw [WalkRecord.deletionsOf, hdels]
  rfl

/-- All deletes of a resource that a teardown makes are made in the walk with its place. -/
theorem exists_loop_of_destroy (h : r.destroy.Ends log o) (hi : log.deletionsOf i ≠ []) :
    ∃ c loop o', (r.tearDownPlace (r.placeAt i) c).Ends loop o' ∧ log.HasLoop loop i ∧
      ((∃ next, o' = some (.ok next)) ∨ o' = o) := by
  obtain ⟨front, tail, rfl, -, hnone, hturns⟩ := endsInTurn_destroy h
  have hs : ((List.range r.graph.length).reverse.map r.placeAt).Pairwise
      fun x y => x.index ≠ y.index := by
    rw [List.pairwise_map]
    exact List.nodup_reverse.2 List.nodup_range
  rw [WalkRecord.deletionsOf_append, hnone, List.append_nil] at hi
  obtain ⟨place, hplace, c, loop, o', rfl, hloop, hhas, ho⟩ :=
    hturns.exists_loop deletesOwn_tearDownPlace hs hi
  obtain ⟨i, -, rfl⟩ := List.mem_map.1 hplace
  exact ⟨c, loop, o', hloop, hhas.append_right (hnone _), ho⟩

theorem teardownRetries_of_ends (h : r.destroy.Ends log o) : TeardownRetries r log o := by
  have htorn := tornDown_of_ends h
  constructor
  · intro i hi
    obtain ⟨c, loop, o', hloop, hhas, ho⟩ := exists_loop_of_destroy h hi
    exact ⟨loop, c, o', hhas, fun found outcomes => retried_of_tearDown hloop, ho⟩
  · intro place a e ho
    obtain ⟨before, i, x, hlog, hfails, -⟩ := htorn.failed _ ho
    cases hfails with
    | @exhausted m state known e he hm hd =>
      refine ⟨hm, ?_⟩
      have hlast : WalkRecord.deletionsOf
          [⟨.call (.delete i state known), .error e⟩, ⟨.endPhase, ()⟩] i =
          [⟨i, state, known, .error e⟩] := List.filter_cons_of_pos (beq_self_eq_true i)
      rw [hlog, WalkRecord.deletionsOf_append, List.length_append]
      exact congrArg₂ (· + ·) hd (congrArg List.length hlast)
  · intro m hm
    obtain ⟨front, tail, rfl, hcalls, -, hturns⟩ := endsInTurn_destroy h
    have hle := hturns.length_calls_le (length_calls_tearDownPlace hm)
    rw [List.length_map, List.length_reverse, List.length_range] at hle
    rwa [WalkRecord.calls_append, hcalls, List.append_nil]
  · rintro m hm hlt rfl
    obtain ⟨i, -, -, -, hle⟩ := htorn.pending rfl
    exact absurd (hle m hm) (Nat.not_le.2 hlt)

variable {σ τ : Type} {world : (q : WalkQuestion) → σ → q.Answer × σ} {s s' : σ}
  {world' : (q : WalkQuestion) → τ → q.Answer × τ} {t t' : τ} {log' : WalkRecord}
  {o' : Option (Except ReconcileError Cluster)}

/-- A cleanup and a teardown retry their deletes by one rule: a delete is made again while what
comes of it may pass and the policy allows it, each time behind the next wait of a backoff that
was started for the resource. With a limit on the retries, a pass and a teardown make a bounded
number of calls. -/
theorem deletes_retried (hpass : (r.reconcile actual expected).play world s = (o, log, s'))
    (hdown : r.destroy.play world' t = (o', log', t')) :
    PassRetries r log o ∧ TeardownRetries r log' o' :=
  ⟨passRetries_of_ends (.of_play hpass), teardownRetries_of_ends (.of_play hdown)⟩

end Reconciler

/-! ## A cloud that stays busy -/

/-- A cloud in which everything is there; the second resource cannot be applied, and no delete
ever succeeds. -/
def busyCloud : Cloud Unit
  | .actual _ known, s =>
    ({ answer := .ok (known, { kind := .network, name := "net", status := .running }) }, s)
  | .apply (_ + 1) _ _ _, s => ({ answer := .error (.api "quota exceeded") }, s)
  | .delete _ _ _, s => ({ answer := .error (.transient "busy") }, s)
  | call, s => (obliging call, s)

/-- The reconciler for two networks, with one retry. -/
def twoNetworks.retryingOnce : Reconciler :=
  { twoNetworks with policy := { twoNetworks.policy with maxAttempts := some 1 } }

namespace busyCloud

open twoNetworks

/-- A pass of the two networks. -/
def pass : Option (Except ReconcileError Cluster) × WalkRecord × Engine Unit :=
  (retryingOnce.reconcile twoNetworks.known moved).play (Engine.answer busyCloud) { cloud := () }

/-- A teardown of the two networks. -/
def teardown : Option (Except ReconcileError Cluster) × WalkRecord × Engine Unit :=
  retryingOnce.destroy.play (Engine.answer busyCloud) { cloud := () }

/-- Both make two deletes: the error of the pass counts both, that of the teardown the retry. -/
theorem gives_up_after_retry :
    ∃ log e log' e',
      pass = (some (.error (.cleanupFailed .apply ⟨1, "network 'backup'"⟩ (.api "quota exceeded")
        ⟨⟨0, "network 'net'"⟩, 2, .transient "busy"⟩)), log, e) ∧
      teardown = (some (.error (.retriesExhausted ⟨1, "network 'backup'"⟩ 1 (.transient "busy"))),
        log', e') ∧
      (log.deletionsOf 0).length = 2 ∧ log.calls.length ≤ 12 ∧
      (log'.deletionsOf 1).length = 2 ∧ log'.calls.length ≤ 8 := by
  have hpass : pass.1 = some (.error (.cleanupFailed .apply ⟨1, "network 'backup'"⟩
      (.api "quota exceeded") ⟨⟨0, "network 'net'"⟩, 2, .transient "busy"⟩)) := by
    rw [pass, Reconciler.reconcile_of_sameAs_eq_false twoNetworks.sameAs_moved]
    rfl
  have hdown : teardown.1 =
      some (.error (.retriesExhausted ⟨1, "network 'backup'"⟩ 1 (.transient "busy"))) := rfl
  rcases hrun : pass with ⟨o, log, e⟩
  rcases hrun' : teardown with ⟨o', log', e'⟩
  rw [hrun] at hpass
  rw [hrun'] at hdown
  subst hpass hdown
  obtain ⟨hretries, hretries'⟩ := Reconciler.deletes_retried hrun hrun'
  exact ⟨log, e, log', e', rfl, rfl, hretries.attempts _ _ rfl rfl, hretries.bounded 1 rfl,
    (hretries'.attempts _ _ _ rfl).2, hretries'.bounded 1 rfl⟩

end busyCloud

end ClusterKeeper
