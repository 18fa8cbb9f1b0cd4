/-
# Teardowns

A teardown goes through the graph from the last resource to the first. It looks at a resource
and deletes what it found, and goes back to a resource only behind a delete that failed with an
error that may pass. It goes on to the next one when a resource is gone or was deleted, and it
stops at the first error of any other sort.

What a teardown calls is said call by call: each is the one that the record before it asks for.
-/

import ClusterKeeper.Proofs.Reconcile.Rollback
import ClusterKeeper.Reconcile.Teardown

namespace ClusterKeeper

open Dialogue (ends_question_bind_iff ends_bind_iff ends_done_iff ends_brokenOff_iff)

variable {log log' before : WalkRecord} {r : Reconciler} {i j : Nat} {c known : Cluster}
  {b b' : Backoff}

/-! ## One resource -/

/-- Looks that found a resource and deletes of it that failed with an error that may pass, each
followed by the wait of the backoff, lead from one backoff to another. -/
inductive Rereads (known : Cluster) (index : Nat) (cluster : Cluster) :
    Backoff → WalkRecord → Backoff → Prop
  | none (b : Backoff) : Rereads known index cluster b [] b
  | again {b b' : Backoff} (found : Cluster) (state : ResourceState) {e : CloudError}
      {log : WalkRecord} (he : e.isRetryable = true) (hb : b.exhausted = false)
      (h : Rereads known index cluster b.next log b') :
      Rereads known index cluster b
        (⟨.call (.actual index known), .ok (found, state)⟩ ::
          ⟨.call (.delete index state cluster), .error e⟩ :: ⟨.wait b.delay, ()⟩ :: log) b'

/-- The look at a resource, and the delete behind it, with which a teardown is done with the
resource, and what that comes to. -/
inductive LastTry (known : Cluster) (place : Place) (cluster : Cluster) (b : Backoff) :
    WalkRecord → Except ReconcileError Cluster → Prop
  | gone {e : CloudError} (he : e.isNotFound = true) :
      LastTry known place cluster b [⟨.call (.actual place.index known), .error e⟩] (.ok cluster)
  | unreadable {e : CloudError} (he : e.isNotFound = false) :
      LastTry known place cluster b [⟨.call (.actual place.index known), .error e⟩]
        (.error (.resolve .actual place e))
  | removed {found next : Cluster} {state : ResourceState} :
      LastTry known place cluster b
        [⟨.call (.actual place.index known), .ok (found, state)⟩,
          ⟨.call (.delete place.index state cluster), .ok next⟩] (.ok next)
  | exhausted {found : Cluster} {state : ResourceState} {e : CloudError}
      (he : e.isRetryable = true) (hb : b.exhausted = true) :
      LastTry known place cluster b
        [⟨.call (.actual place.index known), .ok (found, state)⟩,
          ⟨.call (.delete place.index state cluster), .error e⟩]
        (.error (.retriesExhausted place b.attempts e))
  | refused {found : Cluster} {state : ResourceState} {e : CloudError}
      (he : e.isRetryable = false) :
      LastTry known place cluster b
        [⟨.call (.actual place.index known), .ok (found, state)⟩,
          ⟨.call (.delete place.index state cluster), .error e⟩]
        (.error (.delete place e))

/-- A backoff counts the deletes that failed. -/
theorem Rereads.attempts_eq (h : Rereads known i c b log b') :
    b'.attempts = b.attempts + log.deletions.length := by
  induction h with
  | none b => rfl
  | again found state he hb h ih =>
    rw [ih]
    simp only [WalkRecord.deletions, List.filterMap_cons, WalkExchange.deletion?, Backoff.next,
      List.length_cons]
    omega

namespace Reconciler

/-- A resource is tried again and again until it is done with, and the patience runs out if it
never is. -/
theorem ends_tearDown {place : Place} {patience : Nat}
    {o : Option (Except ReconcileError Cluster)}
    (h : (tearDown known place c patience b).Ends log o) :
    ∃ tries b', Rereads known place.index c b tries b' ∧
      (log = tries ∧ o = none ∧ tries.deletions.length = patience ∨
        ∃ last res, log = tries ++ last ∧ LastTry known place c b' last res ∧ o = some res ∧
          tries.deletions.length < patience) := by
  -- One round is a look and, if that found something, a delete. Only a delete that may be tried
  -- again leads to the next round; every other answer is the last try.
  induction patience generalizing b log with
  | zero =>
    obtain ⟨rfl, rfl⟩ := ends_brokenOff_iff.1 h
    exact ⟨[], b, .none b, .inl ⟨rfl, rfl, rfl⟩⟩
  | succ patience ih =>
    obtain ⟨a, rest, rfl, hrest⟩ := ends_question_bind_iff.1 h
    rcases a with e | ⟨found, state⟩
    · dsimp only at hrest
      split at hrest
      · next he =>
        obtain ⟨rfl, rfl⟩ := ends_done_iff.1 hrest
        exact ⟨[], b, .none b, .inr ⟨_, _, rfl, .gone he, rfl, Nat.succ_pos _⟩⟩
      · next he =>
        obtain ⟨rfl, rfl⟩ := ends_done_iff.1 hrest
        exact ⟨[], b, .none b,
          .inr ⟨_, _, rfl, .unreadable (by simpa using he), rfl, Nat.succ_pos _⟩⟩
    · obtain ⟨a, later, rfl, hlater⟩ := ends_question_bind_iff.1 hrest
      rcases a with e | next
      · dsimp only at hlater
        split at hlater
        · next he =>
          split at hlater
          · next hb =>
            obtain ⟨rfl, rfl⟩ := ends_done_iff.1 hlater
            exact ⟨[], b, .none b, .inr ⟨_, _, rfl, .exhausted he hb, rfl, Nat.succ_pos _⟩⟩
          · next hb =>
            obtain ⟨u, last, rfl, hlast⟩ := ends_question_bind_iff.1 hlater
            obtain ⟨tries, b', htries, hend⟩ := ih hlast
            refine ⟨_, b', .again found state he (by simpa using hb) htries, ?_⟩
            rcases hend with ⟨rfl, rfl, hlen⟩ | ⟨last, res, rfl, htry, rfl, hlt⟩
            · exact .inl ⟨rfl, rfl, congrArg (· + 1) hlen⟩
            · exact .inr ⟨last, res, rfl, htry, rfl, Nat.succ_lt_succ hlt⟩
        · next he =>
          obtain ⟨rfl, rfl⟩ := ends_done_iff.1 hlater
          exact ⟨[], b, .none b,
            .inr ⟨_, _, rfl, .refused (by simpa using he), rfl, Nat.succ_pos _⟩⟩
      · obtain ⟨rfl, rfl⟩ := ends_done_iff.1 hlater
        exact ⟨[], b, .none b, .inr ⟨_, _, rfl, .removed, rfl, Nat.succ_pos _⟩⟩

end Reconciler

/-! ## What a record asks for -/

/-- Whether the exchange is a call to the resource at an index. -/
def WalkExchange.isWith (index : Nat) : WalkExchange → Bool
  | ⟨.call c, _⟩ => c.index == index
  | _ => false

/-- The exchange tells that a resource is not there, or that it was deleted. -/
def WalkExchange.Clears : WalkExchange → Prop
  | ⟨.call (.actual _ _), .error e⟩ => e.isNotFound = true
  | ⟨.call (.delete _ _ _), .ok _⟩ => True
  | _ => False

namespace WalkRecord

/-- The calls to one resource with their answers, in order. -/
def exchangesWith (log : WalkRecord) (index : Nat) : WalkRecord :=
  log.filter (WalkExchange.isWith index)

/-- The last call to the resource told that it is not there, or deleted it. -/
def Cleared (log : WalkRecord) (index : Nat) : Prop :=
  ∃ x, (log.exchangesWith index).getLast? = some x ∧ x.Clears

/-- The cluster that the last delete with success returned, if there is one. -/
def lastRemoved (start : Cluster) (log : WalkRecord) : Cluster :=
  (log.deletions.filterMap (·.answer.toOption)).getLast?.getD start

theorem exchangesWith_eq_nil (h : ∀ x ∈ log, ∀ q, x.question = .call q → q.index ≠ i) :
    log.exchangesWith i = [] := by
  refine List.filter_eq_nil_iff.2 fun x hx => ?_
  obtain ⟨q, a⟩ := x
  cases q with
  | call q => simpa [WalkExchange.isWith] using h _ hx q rfl
  | _ => simp [WalkExchange.isWith]

/-- The deletes of a resource are among the calls to it. -/
theorem deletionsOf_eq (log : WalkRecord) (index : Nat) :
    log.deletionsOf index = (log.exchangesWith index).deletions := by
  rw [deletionsOf, deletions, deletions, exchangesWith, List.filter_filterMap,
    List.filterMap_filter]
  refine congrArg (List.filterMap · log) (funext fun x => ?_)
  obtain ⟨q, a⟩ := x
  rcases q with q | _ | _ | _
  · cases q <;> simp [WalkExchange.deletion?, WalkExchange.isWith, CloudCall.index, Option.filter]
  all_goals rfl

theorem Cleared.append (h : log.Cleared i)
    (hn : ∀ x ∈ log', ∀ q, x.question = .call q → q.index ≠ i) : (log ++ log').Cleared i := by
  obtain ⟨x, hlast, hx⟩ := h
  refine ⟨x, ?_, hx⟩
  rw [exchangesWith, List.filter_append]
  rw [← exchangesWith, ← exchangesWith, exchangesWith_eq_nil hn, List.append_nil, hlast]

theorem cleared_append_singleton {x : WalkExchange} (hi : x.isWith i = true) (hx : x.Clears) :
    (log ++ [x]).Cleared i := by
  refine ⟨x, ?_, hx⟩
  rw [exchangesWith, List.filter_append, List.filter_cons_of_pos hi, List.filter_nil,
    List.getLast?_append]
  rfl

theorem lastRemoved_append (start : Cluster) (log log' : WalkRecord) :
    (log ++ log').lastRemoved start = log'.lastRemoved (log.lastRemoved start) := by
  simp only [lastRemoved, deletions_append, List.filterMap_append, List.getLast?_append]
  cases (log'.deletions.filterMap (·.answer.toOption)).getLast? <;> rfl

theorem deletionsOf_append (log log' : WalkRecord) (index : Nat) :
    (log ++ log').deletionsOf index = log.deletionsOf index ++ log'.deletionsOf index := by
  rw [deletionsOf, deletions_append, List.filter_append]
  rfl

end WalkRecord

/-! ## What a teardown may call -/

/-- Whose turn it is behind a record: a resource is looked at if it was not called before, or if
its delete has just failed with an error that may pass, no more often than the policy allows;
and it is deleted behind a look that found it, with the state that was found. -/
inductive Turn (r : Reconciler) (before : WalkRecord) : CloudCall → Prop
  | look {i : Nat} (hn : before.exchangesWith i = []) : Turn r before (.actual i r.known)
  | lookAgain {front : WalkRecord} {i : Nat} {state : ResourceState} {cluster : Cluster}
      {e : CloudError} {d : Duration}
      (hb : before = front ++ [⟨.call (.delete i state cluster), .error e⟩, ⟨.wait d, ()⟩])
      (he : e.isRetryable = true)
      (hm : ∀ m, r.policy.maxAttempts = some m → (before.deletionsOf i).length ≤ m) :
      Turn r before (.actual i r.known)
  | delete {front : WalkRecord} {i : Nat} {found : Cluster} {state : ResourceState}
      (hb : before = front ++ [⟨.call (.actual i r.known), .ok (found, state)⟩]) :
      Turn r before (.delete i state (before.lastRemoved r.known))

/-- A call that the record before it asks for: it is its turn, no resource before that of the
call was called, and all resources behind it are cleared. -/
structure CalledFor (r : Reconciler) (before : WalkRecord) (q : CloudCall) : Prop where
  turn : Turn r before q
  index_lt : q.index < r.graph.length
  index_le : ∀ x ∈ before, ∀ q', x.question = .call q' → q.index ≤ q'.index
  cleared : ∀ j, q.index < j → j < r.graph.length → before.Cleared j

/-- The exchange with the resource makes a teardown fail: a look with any error but that the
resource is not there, a delete with an error that does not pass, or one with an error that may
pass behind as many as the policy allows. -/
inductive Fails (r : Reconciler) (before : WalkRecord) (i : Nat) :
    WalkExchange → ReconcileError → Prop
  | resolve {known : Cluster} {e : CloudError} (he : e.isNotFound = false) :
      Fails r before i ⟨.call (.actual i known), .error e⟩ (.resolve .actual (r.placeAt i) e)
  | delete {state : ResourceState} {known : Cluster} {e : CloudError}
      (he : e.isRetryable = false) :
      Fails r before i ⟨.call (.delete i state known), .error e⟩ (.delete (r.placeAt i) e)
  | exhausted {m : Nat} {state : ResourceState} {known : Cluster} {e : CloudError}
      (he : e.isRetryable = true) (hm : r.policy.maxAttempts = some m)
      (hd : (before.deletionsOf i).length = m) :
      Fails r before i ⟨.call (.delete i state known), .error e⟩
        (.retriesExhausted (r.placeAt i) m e)

/-- An exchange makes a teardown fail in one way only. -/
theorem Fails.unique {x : WalkExchange} {e e' : ReconcileError} (h : Fails r before i x e)
    (h' : Fails r before j x e') : e = e' := by
  cases h with
  | resolve he =>
    cases h' with
    | resolve he' => rfl
  | delete he =>
    cases h' with
    | delete he' => rfl
    | exhausted he' hm' hd' => simp [he] at he'
  | exhausted he hm hd =>
    cases h' with
    | delete he' => simp [he] at he'
    | exhausted he' hm' hd' =>
      rw [hm] at hm'
      cases hm'
      rfl

/-- An exchange that is called for, and that does not make the teardown fail. -/
structure Proper (r : Reconciler) (before : WalkRecord) (x : WalkExchange) : Prop where
  calledFor : ∀ q, x.question = .call q → CalledFor r before q
  passes : ∀ i e, ¬ Fails r before i x e

/-- Only calls have to be called for. -/
theorem Proper.of_no_call {x : WalkExchange} (h : ∀ q, x.question ≠ .call q) :
    Proper r before x where
  calledFor q hq := absurd hq (h q)
  passes i e hf := by cases hf <;> exact h _ rfl

namespace WalkRecord

/-- Every exchange of a record that goes on behind another one is proper. -/
def ProperFrom (r : Reconciler) : WalkRecord → WalkRecord → Prop
  | _, [] => True
  | before, x :: log => Proper r before x ∧ ProperFrom r (before ++ [x]) log

theorem properFrom_append :
    ProperFrom r before (log ++ log') ↔
      ProperFrom r before log ∧ ProperFrom r (before ++ log) log' := by
  induction log generalizing before with
  | nil => simp [ProperFrom]
  | cons x log ih => simp [ProperFrom, ih, and_assoc]

theorem ProperFrom.proper {front back : WalkRecord} {x : WalkExchange}
    (h : ProperFrom r before (front ++ x :: back)) : Proper r (before ++ front) x :=
  (properFrom_append.1 h).2.1

end WalkRecord

/-! ## Along a teardown -/

/-- Everything from an index on is cleared, and nothing before it was called. -/
structure Behind (r : Reconciler) (before : WalkRecord) (k : Nat) (c : Cluster) : Prop where
  cleared : ∀ j, k ≤ j → j < r.graph.length → before.Cleared j
  index_le : ∀ x ∈ before, ∀ q, x.question = .call q → k ≤ q.index
  lastRemoved : before.lastRemoved r.known = c

/-- A teardown is about to look at the resource at an index, with a backoff that counts the
deletes of it that failed. -/
structure AtLook (r : Reconciler) (before : WalkRecord) (i : Nat) (c : Cluster) (b : Backoff) :
    Prop where
  calledFor : CalledFor r before (.actual i r.known)
  lastRemoved : before.lastRemoved r.known = c
  retried : ∀ d ∈ before.deletionsOf i, ∃ e, d.answer = .error e ∧ e.isRetryable = true
  attempts : (before.deletionsOf i).length = b.attempts
  policy : b.policy = r.policy
  attempts_le : ∀ m, r.policy.maxAttempts = some m → b.attempts ≤ m

theorem Behind.atLook (h : Behind r before (i + 1) c) (hi : i < r.graph.length) :
    AtLook r before i c r.policy.start := by
  have hnone : before.exchangesWith i = [] :=
    WalkRecord.exchangesWith_eq_nil fun x hx q hq => Nat.ne_of_gt (h.index_le x hx q hq)
  have hdels : before.deletionsOf i = [] := by
    rw [WalkRecord.deletionsOf_eq, hnone]
    rfl
  exact {
    calledFor := {
      turn := .look hnone
      index_lt := hi
      index_le := fun x hx q hq => Nat.le_of_succ_le (h.index_le x hx q hq)
      cleared := h.cleared }
    lastRemoved := h.lastRemoved
    retried := by simp [hdels]
    attempts := by simp [hdels, BackoffPolicy.start]
    policy := rfl
    attempts_le := fun m _ => Nat.zero_le m }

/-- All calls of a record are to one resource. -/
def WalkRecord.CallsOnly (log : WalkRecord) (i : Nat) : Prop :=
  ∀ x ∈ log, ∀ q, x.question = .call q → q.index = i

/-- Calls to the resource whose turn it is leave all else as it was. -/
theorem CalledFor.append {q : CloudCall} (h : CalledFor r before q)
    (hlog : log.CallsOnly q.index) {q' : CloudCall} (hq : q'.index = q.index)
    (ht : Turn r (before ++ log) q') : CalledFor r (before ++ log) q' where
  turn := ht
  index_lt := hq ▸ h.index_lt
  index_le := by
    rw [hq]
    refine List.forall_mem_append.2 ⟨h.index_le, fun x hx q'' hx' => ?_⟩
    exact Nat.le_of_eq (hlog x hx q'' hx').symm
  cleared := by
    rw [hq]
    intro j hj hn
    refine (h.cleared j hj hn).append fun x hx q'' hx' => ?_
    rw [hlog x hx q'' hx']
    exact Nat.ne_of_lt hj

namespace AtLook

variable {found next : Cluster} {state : ResourceState} {e : CloudError} {d : Duration}

/-- A look is called for, and it does not make the teardown fail if it finds the resource or
tells that it is not there. -/
theorem proper_look (h : AtLook r before i c b)
    {answer : Except CloudError (Cluster × ResourceState)}
    (ha : ∀ e, answer = .error e → e.isNotFound = true) :
    Proper r before ⟨.call (.actual i r.known), answer⟩ where
  calledFor := by
    rintro q ⟨⟩
    exact h.calledFor
  passes := by
    intro j e' hf
    cases hf with
    | resolve he => simp [ha _ rfl] at he

theorem proper_found (h : AtLook r before i c b) (found : Cluster) (state : ResourceState) :
    Proper r before ⟨.call (.actual i r.known), .ok (found, state)⟩ :=
  h.proper_look fun e he => by cases he

/-- What was found is deleted next. -/
theorem calledFor_delete (h : AtLook r before i c b) (found : Cluster) (state : ResourceState) :
    CalledFor r (before ++ [⟨.call (.actual i r.known), .ok (found, state)⟩])
      (.delete i state c) := by
  refine h.calledFor.append (List.forall_mem_singleton.2 ?_) rfl ?_
  · rintro q ⟨⟩
    rfl
  · have hc : WalkRecord.lastRemoved r.known
        (before ++ [⟨.call (.actual i r.known), .ok (found, state)⟩]) = c := by
      rw [WalkRecord.lastRemoved_append, h.lastRemoved]
      rfl
    rw [← hc]
    exact .delete rfl

/-- A policy that does not end the retries allows one more. -/
theorem attempts_lt (h : AtLook r before i c b) (hb : b.exhausted = false) {m : Nat}
    (hm : r.policy.maxAttempts = some m) : b.attempts < m := by
  rw [Backoff.exhausted, h.policy, hm] at hb
  simpa using hb

/-- A delete that is tried again does not make the teardown fail. -/
theorem proper_delete (h : AtLook r before i c b) (found : Cluster) (state : ResourceState)
    {answer : Except CloudError Cluster}
    (ha : ∀ e, answer = .error e → e.isRetryable = true ∧ b.exhausted = false) :
    Proper r (before ++ [⟨.call (.actual i r.known), .ok (found, state)⟩])
      ⟨.call (.delete i state c), answer⟩ where
  calledFor := by
    rintro q ⟨⟩
    exact h.calledFor_delete found state
  passes := by
    intro j e' hf
    cases hf with
    | delete he => simp [(ha _ rfl).1] at he
    | exhausted he hm hd =>
      rw [WalkRecord.deletionsOf_append, List.length_append, h.attempts] at hd
      exact absurd hd (Nat.ne_of_lt (h.attempts_lt (ha _ rfl).2 hm))

/-- Behind a delete that is to be tried again and the wait, the teardown is about to look at the
resource again. -/
theorem again (h : AtLook r before i c b) (found : Cluster) (state : ResourceState)
    (he : e.isRetryable = true) (hb : b.exhausted = false) :
    WalkRecord.ProperFrom r before
        [⟨.call (.actual i r.known), .ok (found, state)⟩,
          ⟨.call (.delete i state c), .error e⟩, ⟨.wait b.delay, ()⟩] ∧
      AtLook r (before ++
        [⟨.call (.actual i r.known), .ok (found, state)⟩,
          ⟨.call (.delete i state c), .error e⟩, ⟨.wait b.delay, ()⟩]) i c b.next := by
  have hdels : WalkRecord.deletionsOf
      [⟨.call (.actual i r.known), .ok (found, state)⟩,
        ⟨.call (.delete i state c), .error e⟩, ⟨.wait b.delay, ()⟩] i =
      [⟨i, state, c, .error e⟩] := List.filter_cons_of_pos (beq_self_eq_true i)
  constructor
  · refine ⟨h.proper_found found state, h.proper_delete found state ?_, ?_, trivial⟩
    · rintro e' ⟨⟩
      exact ⟨he, hb⟩
    · exact .of_no_call fun q hq => by cases hq
  · have hlen : (before.deletionsOf i).length + 1 = b.next.attempts := by
      rw [h.attempts]
      rfl
    constructor
    · refine h.calledFor.append ?_ rfl (.lookAgain (List.append_cons ..) he fun m hm => ?_)
      · intro x hx q hq
        simp only [List.mem_cons, List.not_mem_nil, or_false] at hx
        rcases hx with rfl | rfl | rfl <;> cases hq <;> rfl
      · rw [WalkRecord.deletionsOf_append, hdels, List.length_append]
        exact hlen ▸ h.attempts_lt hb hm
    · rw [WalkRecord.lastRemoved_append, h.lastRemoved]
      rfl
    · rw [WalkRecord.deletionsOf_append, hdels]
      exact List.forall_mem_append.2 ⟨h.retried, List.forall_mem_singleton.2 ⟨e, rfl, he⟩⟩
    · rw [WalkRecord.deletionsOf_append, hdels, List.length_append]
      exact hlen
    · exact h.policy
    · intro m hm
      exact h.attempts_lt hb hm

theorem rereads (h : AtLook r before i c b) (ht : Rereads r.known i c b log b') :
    WalkRecord.ProperFrom r before log ∧ AtLook r (before ++ log) i c b' := by
  induction ht generalizing before with
  | none b => exact ⟨trivial, by rwa [List.append_nil]⟩
  | again found state he hb ht ih =>
    obtain ⟨hproper, hlook⟩ := h.again found state he hb
    obtain ⟨hrest, hend⟩ := ih hlook
    rw [List.append_assoc] at hend
    exact ⟨WalkRecord.properFrom_append.2 ⟨hproper, hrest⟩, hend⟩

/-- When a resource is gone or deleted, everything from it on is cleared. -/
theorem behind (h : AtLook r before i c b) (init : WalkRecord) {x : WalkExchange}
    (hcalls : (init ++ [x]).CallsOnly i) (hi : x.isWith i = true) (hx : x.Clears)
    (hc : (init ++ [x]).lastRemoved c = next) : Behind r (before ++ (init ++ [x])) i next where
  cleared j hj hn := by
    rcases Nat.eq_or_lt_of_le hj with rfl | hj
    · rw [← List.append_assoc]
      exact WalkRecord.cleared_append_singleton hi hx
    · refine (h.calledFor.cleared j hj hn).append fun y hy q hq => ?_
      rw [hcalls y hy q hq]
      exact Nat.ne_of_lt hj
  index_le := by
    refine List.forall_mem_append.2 ⟨h.calledFor.index_le, fun y hy q hq => ?_⟩
    exact Nat.le_of_eq (hcalls y hy q hq).symm
  lastRemoved := by rw [WalkRecord.lastRemoved_append, h.lastRemoved, hc]

end AtLook

/-- A stretch of a teardown behind a record: it is through down to an index, or it failed at its
last exchange, or it is still at a resource when the patience is used up. -/
inductive Stretch (r : Reconciler) (before : WalkRecord) (k : Nat) :
    WalkRecord → Option (Except ReconcileError Cluster) → Prop
  | through {log : WalkRecord} {next : Cluster} (hp : WalkRecord.ProperFrom r before log)
      (hb : Behind r (before ++ log) k next) : Stretch r before k log (some (.ok next))
  | failed (front : WalkRecord) {i : Nat} {q : CloudCall} {a : q.Answer} {e : ReconcileError}
      (hp : WalkRecord.ProperFrom r before front) (hq : q.index = i)
      (hc : CalledFor r (before ++ front) q) (hf : Fails r (before ++ front) i ⟨.call q, a⟩ e) :
      Stretch r before k (front ++ [⟨.call q, a⟩]) (some (.error e))
  | pending {log : WalkRecord} {i : Nat} {c : Cluster} {b : Backoff}
      (hp : WalkRecord.ProperFrom r before log) (ha : AtLook r (before ++ log) i c b)
      (hb : b.attempts = r.patience) : Stretch r before k log none

/-- Proper exchanges may come before a stretch. -/
theorem Stretch.prepend {k : Nat} {o : Option (Except ReconcileError Cluster)}
    (hp : WalkRecord.ProperFrom r before log) (h : Stretch r (before ++ log) k log' o) :
    Stretch r before k (log ++ log') o := by
  cases h with
  | through hp' hb =>
    exact .through (WalkRecord.properFrom_append.2 ⟨hp, hp'⟩) (List.append_assoc .. ▸ hb)
  | failed front hp' hq hc hf =>
    rw [List.append_assoc] at hc hf
    rw [← List.append_assoc]
    exact .failed _ (WalkRecord.properFrom_append.2 ⟨hp, hp'⟩) hq hc hf
  | pending hp' ha hb =>
    exact .pending (WalkRecord.properFrom_append.2 ⟨hp, hp'⟩) (List.append_assoc .. ▸ ha) hb

/-- A resource that is not tried again ends a stretch. -/
theorem AtLook.stretch_of_lastTry (h : AtLook r before i c b) {res : Except ReconcileError Cluster}
    (ht : LastTry r.known (r.placeAt i) c b log res) : Stretch r before i log (some res) := by
  have hlook (found : Cluster) (state : ResourceState) :
      WalkRecord.ProperFrom r before [⟨.call (.actual i r.known), .ok (found, state)⟩] :=
    ⟨h.proper_found found state, trivial⟩
  cases ht with
  | @gone e he =>
    refine .through ⟨h.proper_look ?_, trivial⟩ ?_
    · rintro e' ⟨⟩
      exact he
    · have hcalls : WalkRecord.CallsOnly [⟨.call (.actual i r.known), .error e⟩] i := by
        refine List.forall_mem_singleton.2 ?_
        rintro q ⟨⟩
        rfl
      exact h.behind [] hcalls (beq_self_eq_true i) he rfl
  | unreadable he =>
    refine .failed [] trivial rfl ?_ (.resolve he)
    rw [List.append_nil]
    exact h.calledFor
  | @removed found next state =>
    have hdelete : Proper r _ ⟨.call (.delete i state c), .ok next⟩ :=
      h.proper_delete found state fun e he => by cases he
    refine .through ⟨h.proper_found found state, hdelete, trivial⟩ ?_
    refine h.behind [_] ?_ (beq_self_eq_true i) trivial rfl
    intro x hx q hq
    simp only [List.cons_append, List.nil_append, List.mem_cons, List.not_mem_nil,
      or_false] at hx
    rcases hx with rfl | rfl <;> cases hq <;> rfl
  | @exhausted found state e he hb =>
    -- The backoff counts the deletes, and it never goes beyond the limit: it stands right at it.
    obtain ⟨m, hm, hle⟩ : ∃ m, r.policy.maxAttempts = some m ∧ m ≤ b.attempts := by
      rw [Backoff.exhausted, h.policy, Option.any_eq_true] at hb
      simpa using hb
    obtain rfl : b.attempts = m := Nat.le_antisymm (h.attempts_le m hm) hle
    have hd : (WalkRecord.deletionsOf
        (before ++ [⟨.call (.actual i r.known), .ok (found, state)⟩]) i).length = b.attempts := by
      rw [WalkRecord.deletionsOf_append, List.length_append, h.attempts]
      rfl
    exact .failed [_] (hlook found state) rfl (h.calledFor_delete found state)
      (.exhausted he hm hd)
  | @refused found state e he =>
    exact .failed [_] (hlook found state) rfl (h.calledFor_delete found state)
      (.delete he)

namespace Reconciler

/-- The teardown of one resource is a stretch that leads down to its index. -/
theorem stretch_of_tearDown {o : Option (Except ReconcileError Cluster)}
    (h : Behind r before (i + 1) c) (hi : i < r.graph.length)
    (hw : (tearDown r.known (r.placeAt i) c r.patience r.policy.start).Ends log o) :
    Stretch r before i log o := by
  obtain ⟨tries, b, htries, ⟨rfl, rfl, hlen⟩ | ⟨last, res, rfl, hlast, rfl, -⟩⟩ :=
    ends_tearDown hw
  · obtain ⟨hproper, hlook⟩ := (h.atLook hi).rereads htries
    refine .pending hproper hlook ?_
    rw [htries.attempts_eq, hlen]
    exact Nat.zero_add _
  · obtain ⟨hproper, hlook⟩ := (h.atLook hi).rereads htries
    exact .prepend hproper (hlook.stretch_of_lastTry hlast)

/-- The teardown of the resources below an index is a stretch that leads down to the first. -/
theorem stretch_of_tearDownAll {k : Nat} {o : Option (Except ReconcileError Cluster)}
    (h : Behind r before k c) (hk : k ≤ r.graph.length)
    (hw : (r.tearDownAll ((List.range k).reverse.map r.placeAt) c).Ends log o) :
    Stretch r before 0 log o := by
  induction k generalizing before c log with
  | zero =>
    obtain ⟨rfl, rfl⟩ := ends_done_iff.1 hw
    exact .through trivial (by rwa [List.append_nil])
  | succ k ih =>
    rw [List.range_succ, List.reverse_append, List.reverse_singleton, List.singleton_append,
      List.map_cons] at hw
    rcases ends_bind_iff.1 hw with ⟨x, front, back, rfl, hone, hnext⟩ | ⟨hone, rfl⟩
    · generalize hx : some x = y at hone
      cases stretch_of_tearDown h hk hone with
      | through hp hb =>
        cases hx
        exact .prepend hp (ih hb (Nat.le_of_lt hk) hnext)
      | failed front hp hq hc hf =>
        cases hx
        obtain ⟨rfl, rfl⟩ := ends_done_iff.1 hnext
        rw [List.append_nil]
        exact .failed front hp hq hc hf
      | pending hp ha hb => cases hx
    · -- The teardown of the resource was broken off, and so is the whole.
      generalize hx : none = y at hone
      cases stretch_of_tearDown h hk hone with
      | through hp hb => cases hx
      | failed front hp hq hc hf => cases hx
      | pending hp ha hb => exact .pending hp ha hb

/-- The places of a graph are those of its indices. -/
theorem placesFrom_eq {index : Nat} {rest : List Resource} (h : r.graph.drop index = rest) :
    placesFrom index rest = (List.range' index rest.length).map r.placeAt := by
  induction rest generalizing index with
  | nil => rfl
  | cons resource rest ih =>
    have hrest : r.graph.drop (index + 1) = rest := by
      rw [← List.tail_drop, h]
      rfl
    rw [placesFrom, ih hrest, ← placeAt_eq h]
    rfl

theorem places_eq : r.places = (List.range r.graph.length).map r.placeAt := by
  rw [places, placesFrom_eq (List.drop_zero ..), List.range_eq_range']

end Reconciler

/-! ## Every run -/

/-- The deletes of one resource fail with errors that may pass until the patience is used up,
which is no more than the policy allows if it sets a limit. -/
def WalkRecord.KeepsFailing (log : WalkRecord) (r : Reconciler) : Prop :=
  ∃ i, i < r.graph.length ∧ (log.deletionsOf i).length = r.patience ∧
    (∀ d ∈ log.deletionsOf i, ∃ e, d.answer = .error e ∧ e.isRetryable = true) ∧
    ∀ m, r.policy.maxAttempts = some m → r.patience ≤ m

/-- What a teardown does and what it comes to. -/
structure TornDown (r : Reconciler) (log : WalkRecord)
    (o : Option (Except ReconcileError Cluster)) : Prop where
  /-- Every call is the one that the record before it asks for. -/
  calledFor : ∀ before x after, log = before ++ x :: after →
    ∀ q, x.question = .call q → CalledFor r before q
  /-- A teardown that succeeds has cleared every resource, and it returns what the last delete
  left. -/
  cleared : ∀ c, o = some (.ok c) →
    (∀ i < r.graph.length, log.Cleared i) ∧ c = log.lastRemoved r.known
  /-- A teardown that fails does so at its last call, and it calls no resource before that one. -/
  failed : ∀ e, o = some (.error e) → ∃ before i x, log = before ++ [x, ⟨.endPhase, ()⟩] ∧
    Fails r before i x e ∧ ∀ y ∈ log, ∀ q, y.question = .call q → i ≤ q.index
  /-- A teardown fails with the first exchange that makes it fail, and calls nothing from then
  on. -/
  stops : ∀ before x after i e, log = before ++ x :: after → Fails r before i x e →
    o = some (.error e) ∧ after = [⟨.endPhase, ()⟩]
  /-- A teardown comes to nothing only while one resource keeps failing. -/
  pending : o = none → log.KeepsFailing r

/-- Where an exchange stands in a record that has another one marked. -/
theorem WalkRecord.split_cases {front tail before after : WalkRecord} {x y : WalkExchange}
    (h : front ++ x :: tail = before ++ y :: after) :
    (∃ mid, front = before ++ y :: mid) ∨ (before = front ∧ y = x ∧ after = tail) ∨ y ∈ tail := by
  rcases List.append_eq_append_iff.1 h with ⟨mid, rfl, hmid⟩ | ⟨mid, rfl, hmid⟩
  · cases mid with
    | nil =>
      obtain ⟨rfl, rfl⟩ := List.cons.inj hmid
      exact .inr (.inl ⟨List.append_nil _, rfl, rfl⟩)
    | cons z mid =>
      obtain ⟨rfl, rfl⟩ := List.cons.inj hmid
      exact .inr (.inr (List.mem_append_right _ List.mem_cons_self))
  · cases mid with
    | nil =>
      obtain ⟨rfl, rfl⟩ := List.cons.inj hmid
      exact .inr (.inl ⟨(List.append_nil _).symm, rfl, rfl⟩)
    | cons z mid =>
      obtain ⟨rfl, -⟩ := List.cons.inj hmid
      exact .inl ⟨mid, rfl⟩

namespace TornDown

variable {front : WalkRecord} {o : Option (Except ReconcileError Cluster)}

/-- A record in which everything is proper has nothing to stop at. -/
theorem of_properFrom (hp : WalkRecord.ProperFrom r [] log) (he : ∀ e, o ≠ some (.error e))
    (hcleared : ∀ c, o = some (.ok c) →
      (∀ i < r.graph.length, log.Cleared i) ∧ c = log.lastRemoved r.known)
    (hpending : o = none → log.KeepsFailing r) : TornDown r log o where
  calledFor := by
    rintro before x after rfl
    exact hp.proper.calledFor
  cleared := hcleared
  failed e ho := absurd ho (he e)
  stops := by
    rintro before x after i e rfl hf
    exact absurd hf (hp.proper.passes i e)
  pending := hpending

/-- The end of its phase is no call. -/
theorem endPhase_ne_call (q : CloudCall) :
    (⟨.endPhase, ()⟩ : WalkExchange).question ≠ .call q := by
  rintro ⟨⟩

/-- An exchange of a record that fails is a proper one, or it is the call that fails, behind which
the phase ends. -/
theorem proper_or_last {front before after : WalkRecord} {x y : WalkExchange}
    (hp : WalkRecord.ProperFrom r [] front)
    (h : front ++ [y] ++ [⟨.endPhase, ()⟩] = before ++ x :: after) :
    Proper r before x ∨ before = front ∧ x = y ∧ after = [⟨.endPhase, ()⟩] := by
  rw [List.append_assoc] at h
  rcases WalkRecord.split_cases h with ⟨mid, rfl⟩ | hlast | hx
  · exact .inl hp.proper
  · exact .inr hlast
  · rw [List.mem_singleton.1 hx]
    exact .inl (.of_no_call endPhase_ne_call)

/-- A record that ends with the call that fails, and with the end of the phase. -/
theorem of_fails {front : WalkRecord} {q : CloudCall} {a : q.Answer} {e : ReconcileError}
    (hp : WalkRecord.ProperFrom r [] front) (hc : CalledFor r front q)
    (hf : Fails r front q.index ⟨.call q, a⟩ e) :
    TornDown r (front ++ [⟨.call q, a⟩] ++ [⟨.endPhase, ()⟩]) (some (.error e)) where
  calledFor := by
    intro before x after h q' hq'
    rcases proper_or_last hp h with hx | ⟨rfl, rfl, -⟩
    · exact hx.calledFor q' hq'
    · cases hq'
      exact hc
  cleared := by
    rintro c ⟨⟩
  failed := by
    rintro e' ⟨⟩
    refine ⟨front, q.index, _, List.append_assoc .., hf, ?_⟩
    simp only [List.forall_mem_append, List.forall_mem_singleton]
    refine ⟨⟨hc.index_le, ?_⟩, fun q' hq' => absurd hq' (endPhase_ne_call q')⟩
    rintro q' ⟨⟩
    exact Nat.le_refl _
  stops := by
    intro before x after j e' h hf'
    rcases proper_or_last hp h with hx | ⟨rfl, rfl, rfl⟩
    · exact absurd hf' (hx.passes j e')
    · rw [hf.unique hf']
      exact ⟨rfl, rfl⟩
  pending := by
    rintro ⟨⟩

/-- A teardown that goes through all resources has done so when its phase ends. -/
theorem of_stretch (h : Stretch r [] 0 front o) {tail : WalkRecord}
    (htail : tail = [⟨.endPhase, ()⟩] ∨ tail = [] ∧ o = none) :
    TornDown r (front ++ tail) o := by
  have hproper (before : WalkRecord) : WalkRecord.ProperFrom r before tail := by
    rcases htail with rfl | ⟨rfl, -⟩
    · exact ⟨.of_no_call endPhase_ne_call, trivial⟩
    · exact trivial
  -- The tail calls nothing, so what was cleared and deleted before it stays as it was.
  have hcall : ∀ x ∈ tail, ∀ q, x.question ≠ .call q := by
    rcases htail with rfl | ⟨rfl, -⟩
    · exact List.forall_mem_singleton.2 endPhase_ne_call
    · exact List.forall_mem_nil _
  have hdels : tail.deletions = [] := by
    rcases htail with rfl | ⟨rfl, -⟩ <;> rfl
  cases h with
  | @through front next hp hb =>
    refine of_properFrom (WalkRecord.properFrom_append.2 ⟨hp, hproper _⟩) ?_ ?_ ?_
    · rintro e ⟨⟩
    · rintro c ⟨⟩
      refine ⟨fun i hi => ?_, ?_⟩
      · exact (hb.cleared i (Nat.zero_le i) hi).append fun x hx q hq => absurd hq (hcall x hx q)
      · rw [WalkRecord.lastRemoved_append]
        have hlast : front.lastRemoved r.known = next := hb.lastRemoved
        rw [hlast, WalkRecord.lastRemoved, hdels]
        rfl
    · rintro ⟨⟩
  | @pending front i c b hp ha hb =>
    refine of_properFrom (WalkRecord.properFrom_append.2 ⟨hp, hproper _⟩) ?_ ?_ fun _ => ?_
    · rintro e ⟨⟩
    · rintro c ⟨⟩
    have hnone : tail.deletionsOf i = [] := by
      rw [WalkRecord.deletionsOf, hdels]
      rfl
    refine ⟨i, ha.calledFor.index_lt, ?_⟩
    rw [WalkRecord.deletionsOf_append, hnone, List.append_nil]
    exact ⟨ha.attempts.trans hb, ha.retried, fun m hm => hb ▸ ha.attempts_le m hm⟩
  | @failed front i q a e hp hq hc hf =>
    obtain rfl : tail = [⟨.endPhase, ()⟩] := by
      rcases htail with rfl | ⟨-, ho⟩
      · rfl
      · cases ho
    subst hq
    exact of_fails hp hc hf

end TornDown

namespace Reconciler

variable {σ : Type} {world : (q : WalkQuestion) → σ → q.Answer × σ} {s s' : σ}
  {o : Option (Except ReconcileError Cluster)}

theorem tornDown_of_ends (h : r.destroy.Ends log o) : TornDown r log o := by
  have hstart : Behind r [] r.graph.length r.known := by
    refine ⟨fun j hj hn => ?_, List.forall_mem_nil _, rfl⟩
    exact absurd hn (Nat.not_lt.2 hj)
  obtain ⟨front, hw, hlog⟩ := ends_phase h
  rw [places_eq, ← List.map_reverse] at hw
  have hstretch := stretch_of_tearDownAll hstart (Nat.le_refl _) hw
  rcases hlog with rfl | ⟨rfl, ho⟩
  · exact .of_stretch hstretch (.inl rfl)
  · rw [← List.append_nil log]
    exact .of_stretch hstretch (.inr ⟨rfl, ho⟩)

/-- A teardown walks the graph backwards: each of its calls is the one that the record before it
asks for, it succeeds only with all resources cleared, and it stops dead at the first exchange
that makes it fail, with an error that names the resource and what happened there. -/
theorem destroy_tornDown (hrun : r.destroy.play world s = (o, log, s')) : TornDown r log o :=
  tornDown_of_ends (.of_play hrun)

end Reconciler

/-! ## A cloud in which a resource vanishes -/

/-- A cloud in which everything is there, but the second resource is gone once a delete of it has
failed. -/
def vanishingCloud : Cloud Bool
  | .actual 1 _, true => ({ answer := .error (.resourceNotFound "backup") }, true)
  | .actual _ known, gone =>
    ({ answer := .ok (known, { kind := .network, name := "net", status := .running }) }, gone)
  | .delete 1 _ _, _ => ({ answer := .error (.transient "busy") }, true)
  | call, gone => (obliging call, gone)

/-- The teardown waits, finds the second network gone, and goes on to delete the first. -/
theorem vanishingCloud.tornDown_twoNetworks :
    ∃ (log : WalkRecord) (e' : Engine Bool),
      twoNetworks.destroy.play (Engine.answer vanishingCloud) { cloud := false } =
        (some (.ok twoNetworks.known), log, e') ∧
      TornDown twoNetworks log (some (.ok twoNetworks.known)) ∧
      log.Cleared 0 ∧ log.Cleared 1 ∧ e'.clock = 2000 := by
  rcases hrun : twoNetworks.destroy.play (Engine.answer vanishingCloud) { cloud := false } with
    ⟨o, log, e'⟩
  have hres : o = some (.ok twoNetworks.known) ∧ e'.clock = 2000 := by
    have hall : (twoNetworks.destroy.play (Engine.answer vanishingCloud) { cloud := false }).1 =
        some (.ok twoNetworks.known) ∧ (twoNetworks.destroy.play (Engine.answer vanishingCloud)
          { cloud := false }).2.2.clock = 2000 := ⟨rfl, rfl⟩
    rwa [hrun] at hall
  obtain ⟨rfl, hclock⟩ := hres
  have htorn := Reconciler.destroy_tornDown hrun
  obtain ⟨hcleared, -⟩ := htorn.cleared _ rfl
  exact ⟨log, e', rfl, htorn, hcleared 0 (by decide), hcleared 1 (by decide), hclock⟩

end ClusterKeeper
