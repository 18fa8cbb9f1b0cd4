/-
# Retrying a delete

A cleanup and a teardown each have a loop that deletes one resource. Both loops obey one rule:
the delete is made again for as long as its outcomes are errors that may pass and the policy
allows it, and before each further delete comes the next wait of a backoff that was started for
the resource.
-/

import Mathlib.Data.ENat.Lattice
import ClusterKeeper.Proofs.Reconcile.Teardown
import ClusterKeeper.Proofs.Retry.Attempts
import ClusterKeeper.Proofs.Retry.Backoff

namespace ClusterKeeper

variable {r : Reconciler} {p : BackoffPolicy} {log loop : WalkRecord} {i k n patience : Nat}
  {c : Cluster} {b b' : Backoff} {outcomes : Nat → Except CloudError Cluster}
  {attempt : Nat → WalkRecord} {α ε : Type}

/-! ## Policies and outcomes -/

namespace BackoffPolicy

/-- How many retries a policy allows; without a limit they are infinitely many. -/
def limit (p : BackoffPolicy) : ℕ∞ := p.maxAttempts.elim ⊤ (↑)

/-- A backoff is exhausted behind as many waits as the policy allows. -/
theorem exhausted_iterate_next (p : BackoffPolicy) (q : Nat) :
    (Backoff.next^[q] p.start).exhausted = true ↔ p.limit ≤ q := by
  obtain ⟨hattempts, hpolicy⟩ := p.iterate_next q
  rw [Backoff.exhausted, hattempts, hpolicy, limit]
  cases p.maxAttempts <;> simp

end BackoffPolicy

/-- Whether a delete with this outcome may be made again. -/
def MayPass : Except CloudError Cluster → Prop
  | .ok _ => False
  | .error e => e.isRetryable = true

/-- The number of leading outcomes that may pass, which is infinite if all may. -/
noncomputable def leadingRetries (outcomes : Nat → Except CloudError Cluster) : ℕ∞ :=
  ⨅ (q : Nat) (_ : ¬ MayPass (outcomes q)), (q : ℕ∞)

theorem natCast_le_leadingRetries_iff :
    (n : ℕ∞) ≤ leadingRetries outcomes ↔ ∀ q < n, MayPass (outcomes q) :=
  natCast_le_least_iff.trans (forall₂_congr fun _ _ => not_not)

theorem leadingRetries_le (h : ¬ MayPass (outcomes n)) : leadingRetries outcomes ≤ n :=
  least_le h

/-- How often a delete is made again: while its outcomes may pass and the policy allows it. -/
noncomputable def BackoffPolicy.retries (p : BackoffPolicy)
    (outcomes : Nat → Except CloudError Cluster) : ℕ∞ :=
  min (leadingRetries outcomes) p.limit

namespace BackoffPolicy

/-- The retries end at a delete that may not be made again. -/
theorem retries_eq (hpass : ∀ q < n, MayPass (outcomes q)) (hlimit : (n : ℕ∞) ≤ p.limit)
    (hlast : MayPass (outcomes n) → p.limit ≤ n) : (n : ℕ∞) = p.retries outcomes := by
  refine le_antisymm (le_min (natCast_le_leadingRetries_iff.2 hpass) hlimit) ?_
  by_cases h : MayPass (outcomes n)
  · exact (min_le_right _ _).trans (hlast h)
  · exact (min_le_left _ _).trans (leadingRetries_le h)

end BackoffPolicy

/-! ## Attempts -/

/-- The list has the values of the sequence, from the `k`-th on. -/
def Follows (values : Nat → α) (k : Nat) (l : List α) : Prop :=
  l = (List.range' k l.length).map values

theorem follows_cons {values : Nat → α} {x : α} {l : List α} :
    Follows values k (x :: l) ↔ x = values k ∧ Follows values (k + 1) l := by
  rw [Follows, List.length_cons, List.range'_succ, List.map_cons, List.cons.injEq]
  rfl

theorem follows_append {values : Nat → α} {l l' : List α} :
    Follows values k (l ++ l') ↔ Follows values k l ∧ Follows values (k + l.length) l' := by
  induction l generalizing k with
  | nil => exact (and_iff_right rfl).symm
  | cons x l ih =>
    rw [List.cons_append, follows_cons, follows_cons, ih, and_assoc, List.length_cons,
      Nat.add_right_comm, Nat.add_assoc]

namespace WalkRecord

/-- The waits of a record, in order. -/
def waits (log : WalkRecord) : List Duration :=
  log.filterMap fun
    | ⟨.wait d, _⟩ => some d
    | _ => none

/-- What came of the deletes of a record, in order. -/
def deleteAnswers (log : WalkRecord) : List (Except CloudError Cluster) :=
  log.deletions.map (·.answer)

/-- What came of the looks of a record, in order. -/
def lookAnswers (log : WalkRecord) : List (Except CloudError (Cluster × ResourceState)) :=
  log.filterMap fun
    | ⟨.call (.actual _ _), answer⟩ => some answer
    | _ => none

theorem waits_append (log log' : WalkRecord) : (log ++ log').waits = log.waits ++ log'.waits :=
  List.filterMap_append

theorem lookAnswers_append (log log' : WalkRecord) :
    (log ++ log').lookAnswers = log.lookAnswers ++ log'.lookAnswers :=
  List.filterMap_append

/-- The answer to the last delete is the value of the sequence behind those of the others. -/
theorem follows_of_last {values : Nat → Except CloudError Cluster} {tries last : WalkRecord}
    {answer : Except CloudError Cluster} (h : Follows values 0 (tries ++ last).deleteAnswers)
    (hlast : last.deleteAnswers = [answer]) :
    Follows values 0 tries.deleteAnswers ∧ values tries.deletions.length = answer := by
  rw [deleteAnswers, deletions_append, List.map_append, ← deleteAnswers, ← deleteAnswers,
    hlast] at h
  obtain ⟨htries, hrest⟩ := follows_append.1 h
  obtain ⟨hanswer, -⟩ := follows_cons.1 hrest
  rw [deleteAnswers, List.length_map, Nat.zero_add] at hanswer
  exact ⟨htries, hanswer.symm⟩

end WalkRecord

/-- Attempts from the `k`-th on, each followed by its wait. -/
def waited (p : BackoffPolicy) (attempt : Nat → WalkRecord) (k n : Nat) : WalkRecord :=
  (List.range' k n).flatMap fun q => attempt q ++ [⟨.wait (p.delayAt q), ()⟩]

/-- The record is that of attempts from the `k`-th on, all of which are made again. -/
structure Repeated (p : BackoffPolicy) (attempt : Nat → WalkRecord)
    (outcomes : Nat → Except CloudError Cluster) (k n : Nat) (log : WalkRecord) (b : Backoff) :
    Prop where
  log_eq : log = waited p attempt k n
  backoff_eq : b = Backoff.next^[k + n] p.start
  mayPass : ∀ q, k ≤ q → q < k + n → MayPass (outcomes q)
  allowed : ∀ q, k ≤ q → q < k + n → ¬ p.limit ≤ q

namespace Repeated

theorem zero : Repeated p attempt outcomes k 0 [] (Backoff.next^[k] p.start) :=
  ⟨rfl, rfl, fun _ hq hlt => absurd hlt (Nat.not_lt.2 hq),
    fun _ hq hlt => absurd hlt (Nat.not_lt.2 hq)⟩

theorem succ (h : Repeated p attempt outcomes (k + 1) n log b) (hpass : MayPass (outcomes k))
    (hk : ¬ p.limit ≤ k) :
    Repeated p attempt outcomes k (n + 1) (attempt k ++ ⟨.wait (p.delayAt k), ()⟩ :: log) b where
  log_eq := by
    rw [h.log_eq, waited, waited, List.range'_succ, List.flatMap_cons, List.append_assoc]
    rfl
  backoff_eq := by rw [h.backoff_eq, Nat.add_right_comm, Nat.add_assoc]
  mayPass q hq hlt := by
    rcases Nat.eq_or_lt_of_le hq with rfl | hq
    · exact hpass
    · exact h.mayPass q hq (by omega)
  allowed q hq hlt := by
    rcases Nat.eq_or_lt_of_le hq with rfl | hq
    · exact hk
    · exact h.allowed q hq (by omega)

end Repeated

/-- An attempt at a delete, within a cleanup. -/
def removalAttempt (i : Nat) (state : ResourceState) (c : Cluster)
    (outcomes : Nat → Except CloudError Cluster) (q : Nat) : WalkRecord :=
  [⟨.call (.delete i state c), outcomes q⟩]

/-- An attempt at a delete, within a teardown: it comes behind a look at the resource. -/
def teardownAttempt (i : Nat) (known : Cluster) (found : Nat → Cluster × ResourceState)
    (c : Cluster) (outcomes : Nat → Except CloudError Cluster) (q : Nat) : WalkRecord :=
  [⟨.call (.actual i known), .ok (found q)⟩, ⟨.call (.delete i (found q).2 c), outcomes q⟩]

section Repeating

variable {state : ResourceState} {known : Cluster} {found : Nat → Cluster × ResourceState}

/-- The retries of a cleanup are attempts at the delete. -/
theorem Retries.repeated (h : Retries i state c b log b') (hb : b = Backoff.next^[k] p.start)
    (ho : Follows outcomes k log.deleteAnswers) :
    Repeated p (removalAttempt i state c outcomes) outcomes k log.deletions.length log b' := by
  induction h generalizing k with
  | none b =>
    subst hb
    exact .zero
  | @again b b' e log he hx h ih =>
    subst hb
    obtain ⟨(hfirst : .error e = outcomes k), hrest⟩ := follows_cons.1 ho
    -- Not exhausted behind `k` waits, the policy allows one more.
    have hk : ¬ p.limit ≤ k := by simpa [← p.exhausted_iterate_next] using hx
    rw [hfirst]
    refine .succ (ih (Function.iterate_succ_apply' ..).symm hrest) ?_ hk
    rw [← hfirst]
    exact he

/-- So are those of a teardown, if the resource is found each time. -/
theorem Rereads.repeated (h : Rereads known i c b log b') (hb : b = Backoff.next^[k] p.start)
    (hf : Follows (fun q => .ok (found q)) k log.lookAnswers)
    (ho : Follows outcomes k log.deleteAnswers) :
    Repeated p (teardownAttempt i known found c outcomes) outcomes k log.deletions.length log
      b' := by
  induction h generalizing k with
  | none b =>
    subst hb
    exact .zero
  | @again b b' found' state e log he hx h ih =>
    subst hb
    obtain ⟨hlook, hlooks⟩ := follows_cons.1 hf
    obtain ⟨(hfirst : .error e = outcomes k), hrest⟩ := follows_cons.1 ho
    have hfound : (found', state) = found k := Except.ok.inj hlook
    obtain ⟨rfl, rfl⟩ : found' = (found k).1 ∧ state = (found k).2 := Prod.ext_iff.1 hfound
    have hk : ¬ p.limit ≤ k := by simpa [← p.exhausted_iterate_next] using hx
    rw [hfirst]
    refine .succ (ih (Function.iterate_succ_apply' ..).symm hlooks hrest) ?_ hk
    rw [← hfirst]
    exact he

end Repeating

/-! ## Loops -/

/-- How a loop retries a delete whose outcomes would be the given ones. The deletes and waits are
counted up to the patience, which a loop that is broken off has used up. -/
structure Retried (p : BackoffPolicy) (patience : Nat)
    (outcomes : Nat → Except CloudError Cluster) (attempt : Nat → WalkRecord)
    (failure : Nat → CloudError → ε) (loop : WalkRecord) (o : Option (Except ε Cluster)) :
    Prop where
  deletes : (loop.deletions.length : ℕ∞) = min (p.retries outcomes + 1) patience
  waits : (loop.waits.length : ℕ∞) = min (p.retries outcomes) patience
  /-- The wait between two attempts is the one with the number of the first of them. -/
  record : loop = (List.range loop.deletions.length).flatMap fun q =>
    attempt q ++ if q < loop.waits.length then [⟨.wait (p.delayAt q), ()⟩] else []
  succeeds : ∀ c, o = some (.ok c) ↔ ∃ k : Nat, leadingRetries outcomes = k ∧ k ≤ p.limit ∧
    k < patience ∧ outcomes k = .ok c
  fails : ∀ x, o = some (.error x) ↔ ∃ (n : Nat) (e : CloudError), p.retries outcomes = n ∧
    n < patience ∧ outcomes n = .error e ∧ x = failure n e
  pending : o = none ↔ (patience : ℕ∞) ≤ p.retries outcomes

/-- An attempt deletes once and does not wait. -/
def IsAttempt (attempt : Nat → WalkRecord) : Prop :=
  ∀ q, (attempt q).deletions.length = 1 ∧ (attempt q).waits = []

theorem isAttempt_removalAttempt {state : ResourceState} :
    IsAttempt (removalAttempt i state c outcomes) := fun _ => ⟨rfl, rfl⟩

theorem isAttempt_teardownAttempt {known : Cluster} {found : Nat → Cluster × ResourceState} :
    IsAttempt (teardownAttempt i known found c outcomes) := fun _ => ⟨rfl, rfl⟩

/-- What is in each attempt with its wait once is in `n` of them `n` times. -/
theorem length_filterMap_waited {f : WalkExchange → Option α}
    (hf : ∀ q, (List.filterMap f (attempt q ++ [⟨.wait (p.delayAt q), ()⟩])).length = 1) :
    ((waited p attempt k n).filterMap f).length = n := by
  induction n generalizing k with
  | zero => rfl
  | succ n ih =>
    have hrest : ((waited p attempt (k + 1) n).filterMap f).length = n := ih
    rw [waited, List.range'_succ, List.flatMap_cons, ← waited, List.filterMap_append,
      List.length_append, hf, hrest]
    exact Nat.add_comm 1 n

theorem length_deletions_waited (ha : IsAttempt attempt) :
    (waited p attempt k n).deletions.length = n := by
  refine length_filterMap_waited fun q => ?_
  rw [List.filterMap_append, ← WalkRecord.deletions, List.length_append, (ha q).1]
  rfl

theorem length_waits_waited (ha : IsAttempt attempt) :
    (waited p attempt k n).waits.length = n := by
  refine length_filterMap_waited fun q => ?_
  rw [List.filterMap_append, ← WalkRecord.waits, (ha q).2]
  rfl

/-- Of attempts that are all made again, each is followed by its wait. -/
theorem waited_eq (p : BackoffPolicy) (attempt : Nat → WalkRecord) (n : Nat) :
    waited p attempt 0 n = (List.range n).flatMap fun q =>
      attempt q ++ if q < n then [⟨.wait (p.delayAt q), ()⟩] else [] := by
  rw [waited, ← List.range_eq_range']
  refine List.flatMap_congr fun q hq => ?_
  rw [if_pos (List.mem_range.1 hq)]

theorem mapError_eq_ok_iff {outcome : Except CloudError Cluster} {f : CloudError → ε} :
    outcome.mapError f = .ok c ↔ outcome = .ok c := by
  cases outcome <;> simp [Except.mapError]

theorem mapError_eq_error_iff {outcome : Except CloudError Cluster} {f : CloudError → ε} {x : ε} :
    outcome.mapError f = .error x ↔ ∃ e, outcome = .error e ∧ x = f e := by
  cases outcome <;> simp [Except.mapError, eq_comm]

/-- Each attempt that is made again begins with a look. -/
theorem Rereads.length_lookAnswers {known : Cluster} (h : Rereads known i c b log b') :
    log.lookAnswers.length = log.deletions.length := by
  induction h with
  | none b => rfl
  | again found state he hx h ih => exact congrArg (· + 1) ih

namespace Repeated

variable {failure : Nat → CloudError → ε} {o : Option (Except ε Cluster)}

theorem le_leadingRetries (h : Repeated p attempt outcomes 0 n log b) :
    (n : ℕ∞) ≤ leadingRetries outcomes :=
  natCast_le_leadingRetries_iff.2 fun q hq => h.mayPass q (Nat.zero_le q) (by omega)

theorem le_limit (h : Repeated p attempt outcomes 0 n log b) : (n : ℕ∞) ≤ p.limit := by
  cases n with
  | zero => exact zero_le
  | succ n =>
    have hlast := h.allowed n (Nat.zero_le n) (by omega)
    exact Order.add_one_le_of_lt (not_le.1 hlast)

/-- A loop that makes every attempt again until it is broken off. -/
theorem retried_of_brokenOff (h : Repeated p attempt outcomes 0 n log b) (ha : IsAttempt attempt) :
    Retried p n outcomes attempt failure log none := by
  have hle : (n : ℕ∞) ≤ p.retries outcomes := le_min h.le_leadingRetries h.le_limit
  have hdeletes : log.deletions.length = n := by
    rw [h.log_eq]
    exact length_deletions_waited ha
  have hwaits : log.waits.length = n := by
    rw [h.log_eq]
    exact length_waits_waited ha
  constructor
  · rw [hdeletes, min_eq_right]
    exact hle.trans le_self_add
  · rw [hwaits, min_eq_right hle]
  · rw [hdeletes, hwaits, ← waited_eq]
    exact h.log_eq
  · intro c
    refine ⟨nofun, ?_⟩
    rintro ⟨k, hk, hlimit, hlt, -⟩
    have hle' : (n : ℕ∞) ≤ k := hk ▸ h.le_leadingRetries
    exact absurd (Nat.cast_le.1 hle') (Nat.not_le.2 hlt)
  · intro x
    refine ⟨nofun, ?_⟩
    rintro ⟨k, e, hk, hlt, -⟩
    rw [hk] at hle
    exact absurd (Nat.cast_le.1 hle) (Nat.not_le.2 hlt)
  · exact iff_of_true rfl hle

/-- The retries end at an attempt that is not made again: all before it were made again. -/
theorem retries_eq_of_last (h : Repeated p attempt outcomes 0 n log b)
    (hlast : MayPass (outcomes n) → b.exhausted = true) : p.retries outcomes = n := by
  rw [h.backoff_eq, Nat.zero_add, p.exhausted_iterate_next] at hlast
  have hpass := natCast_le_leadingRetries_iff.1 h.le_leadingRetries
  exact (BackoffPolicy.retries_eq hpass h.le_limit hlast).symm

/-- A loop whose last attempt is not made again, because of what came of it or because the
policy does not allow it. -/
theorem retried_of_last (h : Repeated p attempt outcomes 0 n log b) (ha : IsAttempt attempt)
    (hlast : MayPass (outcomes n) → b.exhausted = true) (hn : n < patience) :
    Retried p patience outcomes attempt failure (log ++ attempt n)
      (some ((outcomes n).mapError (failure n))) := by
  have hretries := h.retries_eq_of_last hlast
  have hdeletes : (log ++ attempt n).deletions.length = n + 1 := by
    rw [WalkRecord.deletions_append, List.length_append, (ha n).1, h.log_eq,
      length_deletions_waited ha]
  have hwaits : (log ++ attempt n).waits.length = n := by
    rw [WalkRecord.waits_append, (ha n).2, List.append_nil, h.log_eq, length_waits_waited ha]
  constructor
  · rw [hdeletes, hretries, min_eq_left]
    · rfl
    · exact Nat.cast_le.2 hn
  · rw [hwaits, hretries, min_eq_left]
    exact Nat.cast_le.2 hn.le
  · rw [hdeletes, hwaits, List.range_succ, List.flatMap_append, List.flatMap_singleton,
      if_neg (Nat.lt_irrefl n), List.append_nil, ← waited_eq, ← h.log_eq]
  · intro c
    rw [Option.some_inj, mapError_eq_ok_iff]
    constructor
    · intro hok
      -- The first outcome that is not retried stands behind the retries that lead to it.
      have hstop : ¬ MayPass (outcomes n) := by
        rw [hok]
        exact id
      exact ⟨n, le_antisymm (leadingRetries_le hstop) h.le_leadingRetries, h.le_limit, hn, hok⟩
    · rintro ⟨k, hk, hlimit, -, hok⟩
      have hmin : p.retries outcomes = k := by rw [BackoffPolicy.retries, hk, min_eq_left hlimit]
      obtain rfl : n = k := Nat.cast_inj.1 (hretries.symm.trans hmin)
      exact hok
  · intro x
    rw [Option.some_inj, mapError_eq_error_iff]
    constructor
    · rintro ⟨e, he, rfl⟩
      exact ⟨n, e, hretries, hn, he, rfl⟩
    · rintro ⟨k, e, hk, -, he, rfl⟩
      obtain rfl : n = k := Nat.cast_inj.1 (hretries.symm.trans hk)
      exact ⟨e, he, rfl⟩
  · refine iff_of_false nofun ?_
    rw [hretries, not_le]
    exact Nat.cast_lt.2 hn

end Repeated

/-! ## The two loops -/

/-- What a cleanup fails with at a place, by how often it has tried before. -/
def removalFailure (place : Place) (n : Nat) (e : CloudError) : CleanupError := ⟨place, n + 1, e⟩

/-- What a teardown fails with at a place, by how often it has tried before. -/
def teardownFailure (place : Place) (n : Nat) (e : CloudError) : ReconcileError :=
  if e.isRetryable then .retriesExhausted place n e else .delete place e

namespace Reconciler

variable {place : Place} {state : ResourceState} {known : Cluster}

/-- The cleanup of a resource retries its delete. -/
theorem retried_of_remove {o : Option (Except CleanupError Cluster)}
    (h : (remove place state c patience p.start).Ends loop o)
    (ho : Follows outcomes 0 loop.deleteAnswers) :
    Retried p patience outcomes (removalAttempt place.index state c outcomes)
      (removalFailure place) loop o := by
  obtain ⟨tries, b, htries, hend⟩ := ends_remove h
  -- The last delete is the attempt behind the tries.
  have hlast {answer : Except CloudError Cluster}
      (hlog : loop = tries ++ [⟨.call (.delete place.index state c), answer⟩])
      (hx : MayPass answer → b.exhausted = true) (hlt : tries.deletions.length < patience) :
      Retried p patience outcomes (removalAttempt place.index state c outcomes)
        (removalFailure place) loop
        (some (answer.mapError (removalFailure place tries.deletions.length))) := by
    subst hlog
    obtain ⟨htried, rfl⟩ := WalkRecord.follows_of_last ho rfl
    exact (htries.repeated (k := 0) rfl htried).retried_of_last isAttempt_removalAttempt hx hlt
  rcases hend with ⟨rfl, rfl, rfl⟩ | ⟨next, hlog, rfl, hlt⟩ | ⟨e, hlog, hx, rfl, hlt⟩
  · exact (htries.repeated (k := 0) rfl ho).retried_of_brokenOff isAttempt_removalAttempt
  · exact hlast hlog nofun hlt
  · have hattempts : b.attempts = tries.deletions.length := by
      rw [htries.attempts_eq]
      exact Nat.zero_add _
    rw [hattempts]
    exact hlast hlog hx hlt

/-- A last try that finds the resource is an attempt at its delete. -/
theorem exists_of_lastTry {last : WalkRecord} {res : Except ReconcileError Cluster}
    (h : LastTry known place c b last res) {x : Cluster × ResourceState}
    (hf : last.lookAnswers = [.ok x]) :
    ∃ answer, last =
        [⟨.call (.actual place.index known), .ok x⟩, ⟨.call (.delete place.index x.2 c), answer⟩] ∧
      (MayPass answer → b.exhausted = true) ∧
      res = answer.mapError (teardownFailure place b.attempts) := by
  cases h with
  | gone he => cases hf
  | unreadable he => cases hf
  | @removed found next state =>
    cases hf
    exact ⟨.ok next, rfl, nofun, rfl⟩
  | @exhausted found state e he hb =>
    cases hf
    refine ⟨.error e, rfl, fun _ => hb, ?_⟩
    exact congrArg Except.error (if_pos he).symm
  | @refused found state e he =>
    cases hf
    refine ⟨.error e, rfl, fun hpass => ?_, ?_⟩
    · exact absurd hpass (Bool.eq_false_iff.1 he)
    · exact congrArg Except.error (if_neg (Bool.eq_false_iff.1 he)).symm

/-- So does the teardown of a resource, if it is found each time. -/
theorem retried_of_tearDown {o : Option (Except ReconcileError Cluster)}
    {found : Nat → Cluster × ResourceState}
    (h : (tearDown known place c patience p.start).Ends loop o)
    (hf : Follows (fun q => .ok (found q)) 0 loop.lookAnswers)
    (ho : Follows outcomes 0 loop.deleteAnswers) :
    Retried p patience outcomes (teardownAttempt place.index known found c outcomes)
      (teardownFailure place) loop o := by
  obtain ⟨tries, b, htries, ⟨rfl, rfl, rfl⟩ | ⟨last, res, rfl, hlast, rfl, hlt⟩⟩ :=
    ends_tearDown h
  · exact (htries.repeated (k := 0) rfl hf ho).retried_of_brokenOff isAttempt_teardownAttempt
  · -- The last try begins with a look of its own, which has found the resource too.
    rw [WalkRecord.lookAnswers_append] at hf
    obtain ⟨hlooks, hlook⟩ := follows_append.1 hf
    have hone : last.lookAnswers.length = 1 := by cases hlast <;> rfl
    rw [Follows, hone, htries.length_lookAnswers, Nat.zero_add] at hlook
    obtain ⟨answer, rfl, hx, rfl⟩ := exists_of_lastTry hlast hlook
    obtain ⟨htried, rfl⟩ := WalkRecord.follows_of_last ho rfl
    have hattempts : b.attempts = tries.deletions.length := by
      rw [htries.attempts_eq]
      exact Nat.zero_add _
    rw [hattempts]
    exact (htries.repeated (k := 0) rfl hlooks htried).retried_of_last isAttempt_teardownAttempt
      hx hlt

end Reconciler

end ClusterKeeper
