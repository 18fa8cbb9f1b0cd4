/-
# How a batch is completed

The tasks of a batch and its timer report in any order, and some tasks may never report. Whatever
the order, each task that ends reports its own result, and nobody who reports has to wait for room
in the queue. The receiver takes the reports in the order in which they were sent and counts down
the tasks that are left without ever counting too far, and what the batch comes to is decided by
the first reports that it takes.
-/

import ClusterKeeper.Batch.Queue

namespace ClusterKeeper

/-- Whether a report tells of a task that succeeded. -/
def Report.isApplied : Report → Bool
  | .applied _ => true
  | _ => false

/-- The task whose call comes back at an event. -/
def BatchEvent.task? : BatchEvent → Option Nat
  | .finish task _ => some task
  | .ring => none
  | .receive => none

/-- What there is to report of an event: of a task its own result, under its own label, and of the
timer that it ran out. -/
def BatchEvent.report? (labels : List String) : BatchEvent → Option Report
  | .finish task (.ok ()) => labels[task]?.map .applied
  | .finish task (.error e) => labels[task]?.map (.failed · e)
  | .ring => some .timedOut
  | .receive => none

theorem BatchEvent.filterMap_singleton {α : Type} (f : BatchEvent → Option α) (e : BatchEvent) :
    [e].filterMap f = (f e).toList := by
  cases h : f e <;> simp [h]

namespace Batch

variable {labels : List String} {limit : Duration} {events : List BatchEvent}
  {sent taken : List Report} {b b' : Batch} {e : BatchEvent} {n : Nat}

/-! ## Runs -/

/-- What an event puts into the queue. -/
def sends (b : Batch) : BatchEvent → List Report
  | .finish task result => [b.report task result]
  | .ring => [.timedOut]
  | .receive => []

/-- What the receiver takes from the queue at an event. -/
def takes (b : Batch) : BatchEvent → List Report
  | .finish _ _ => []
  | .ring => []
  | .receive => b.queue.take 1

/-- What a batch that was started can come to by events in any order, with the reports that were
sent and those that were taken until then. -/
inductive Reaches (labels : List String) (limit : Duration) :
    List BatchEvent → List Report → List Report → Batch → Prop
  | start : Reaches labels limit [] [] [] (start labels limit)
  | step {events : List BatchEvent} {sent taken : List Report} {b b' : Batch} {e : BatchEvent}
      (h : Reaches labels limit events sent taken b) (he : b.step e = some b') :
      Reaches labels limit (events ++ [e]) (sent ++ b.sends e) (taken ++ b.takes e) b'

theorem send_eq_some {m : Report} (h : b.send m = some b') :
    b.queue.length < b.capacity ∧ b' = { b with queue := b.queue ++ [m] } := by
  rw [send] at h
  split at h
  · next hroom =>
    cases h
    exact ⟨hroom, rfl⟩
  · cases h

/-- All that can happen in a batch: a task or the timer reports while there is room, the receiver
takes a report, or it finds that no one is left who could report. -/
theorem step_cases (h : b.step e = some b') :
    (∃ task result, e = .finish task result ∧ task ∈ b.running ∧
      b' = { b with running := b.running.erase task, queue := b.queue ++ [b.report task result] }) ∨
    (e = .ring ∧ b.timer = true ∧
      b' = { b with timer := false, queue := b.queue ++ [.timedOut] }) ∨
    (∃ m rest, e = .receive ∧ b.outcome = none ∧ b.queue = m :: rest ∧
      b' = { b with queue := rest }.consume m) ∨
    (e = .receive ∧ b.outcome = none ∧ b.queue = [] ∧ b.running = [] ∧ b.timer = false ∧
      b' = { b with outcome := some (.error (.incomplete b.remaining)) }) := by
  cases e with
  | finish task result =>
    simp only [step] at h
    split at h
    · next htask =>
      obtain ⟨-, rfl⟩ := send_eq_some h
      exact .inl ⟨task, result, rfl, htask, rfl⟩
    · cases h
  | ring =>
    simp only [step] at h
    split at h
    · next htimer =>
      obtain ⟨-, rfl⟩ := send_eq_some h
      exact .inr (.inl ⟨rfl, htimer, rfl⟩)
    · cases h
  | receive =>
    simp only [step] at h
    split at h
    · cases h
    · next ho =>
      -- With nothing in the queue the receiver goes on waiting as long as anyone may report.
      split at h
      · next m rest hq =>
        cases h
        exact .inr (.inr (.inl ⟨m, rest, rfl, ho, hq, rfl⟩))
      · next hq =>
        split at h
        · next hnone =>
          cases h
          simp only [Bool.and_eq_true, List.isEmpty_iff, Bool.not_eq_true'] at hnone
          exact .inr (.inr (.inr ⟨rfl, ho, hq, hnone.1, hnone.2, rfl⟩))
        · cases h

/-- A report that is taken changes only the count and the outcome. -/
theorem consume_eq (b : Batch) (m : Report) :
    b.consume m =
      { b with remaining := (b.consume m).remaining, outcome := (b.consume m).outcome } := by
  cases m <;> rfl

/-! ## What tasks report -/

theorem labels_of_step (he : b.step e = some b') : b'.labels = b.labels := by
  rcases step_cases he with ⟨task, result, -, -, rfl⟩ | ⟨-, -, rfl⟩ | ⟨m, rest, -, -, -, rfl⟩ |
    ⟨-, -, -, -, -, rfl⟩
  · rfl
  · rfl
  · rw [consume_eq]
  · rfl

/-- Only a task that comes back leaves those that are running. -/
theorem perm_of_step (he : b.step e = some b') : (e.task?.toList ++ b'.running).Perm b.running := by
  rcases step_cases he with ⟨task, result, rfl, htask, rfl⟩ | ⟨rfl, -, rfl⟩ |
    ⟨m, rest, rfl, -, -, rfl⟩ | ⟨rfl, -, -, -, -, rfl⟩
  · exact (List.perm_cons_erase htask).symm
  · exact .refl _
  · rw [consume_eq]
    exact .refl _
  · exact .refl _

/-- A task that can end reports its own result. -/
theorem sends_of_step (he : b.step e = some b')
    (hrunning : ∀ task ∈ b.running, task < b.labels.length) :
    b.sends e = (e.report? b.labels).toList := by
  rcases step_cases he with ⟨task, result, rfl, htask, -⟩ | ⟨rfl, -, -⟩ | ⟨m, rest, rfl, -, -, -⟩ |
    ⟨rfl, -, -, -, -, -⟩
  · have hlabel := List.getElem?_eq_getElem (hrunning task htask)
    cases result with
    | ok => simp [sends, report, BatchEvent.report?, hlabel]
    | error e => simp [sends, report, BatchEvent.report?, hlabel]
  · rfl
  · rfl
  · rfl

namespace Reaches

theorem labels_eq (h : Reaches labels limit events sent taken b) : b.labels = labels := by
  induction h with
  | start => rfl
  | step h he ih => exact (labels_of_step he).trans ih

/-- The tasks whose calls have come back and those that are still running are all tasks, each
of them once. -/
theorem perm_range (h : Reaches labels limit events sent taken b) :
    (events.filterMap BatchEvent.task? ++ b.running).Perm (List.range labels.length) := by
  induction h with
  | start => exact .refl _
  | step h he ih =>
    rw [List.filterMap_append, BatchEvent.filterMap_singleton, List.append_assoc]
    exact ((perm_of_step he).append_left _).trans ih

theorem running_lt (h : Reaches labels limit events sent taken b) :
    ∀ task ∈ b.running, task < labels.length := fun _ htask =>
  List.mem_range.1 (h.perm_range.subset (List.mem_append_right _ htask))

/-- What was sent are the reports of the events, one after the other. -/
theorem sent_eq (h : Reaches labels limit events sent taken b) :
    sent = events.filterMap (BatchEvent.report? labels) := by
  induction h with
  | start => rfl
  | step h he ih =>
    rw [List.filterMap_append, BatchEvent.filterMap_singleton, ← ih,
      sends_of_step he (h.labels_eq.symm ▸ h.running_lt), h.labels_eq]

end Reaches

/-! ## What reports decide -/

/-- What a batch of `n` tasks has come to behind the reports that were taken: nothing while all of
them are successes and some are missing. -/
inductive Verdict (limit : Duration) (n : Nat) :
    List Report → Option (Except ReconcileError Unit) → Prop
  | waiting {taken : List Report} (h : ∀ m ∈ taken, m.isApplied = true)
      (hn : taken.length < n) : Verdict limit n taken none
  | completed {taken : List Report} (h : ∀ m ∈ taken, m.isApplied = true)
      (hn : taken.length = n) : Verdict limit n taken (some (.ok ()))
  | failed {front : List Report} (h : ∀ m ∈ front, m.isApplied = true) (hn : front.length < n)
      (label : String) (e : CloudError) :
      Verdict limit n (front ++ [.failed label e]) (some (.error (.concurrentApply label e)))
  | timedOut {front : List Report} (h : ∀ m ∈ front, m.isApplied = true)
      (hn : front.length < n) :
      Verdict limit n (front ++ [.timedOut])
        (some (.error (.timeout limit (n - front.length))))

/-- The first report of a list that is not a success is determined by the list. -/
theorem first_unique {front front' rest rest' : List Report} {m m' : Report}
    (h : front ++ m :: rest = front' ++ m' :: rest') (hf : ∀ x ∈ front, x.isApplied = true)
    (hf' : ∀ x ∈ front', x.isApplied = true) (hm : m.isApplied = false)
    (hm' : m'.isApplied = false) : front = front' ∧ m = m' ∧ rest = rest' := by
  have hwhile := congrArg (List.takeWhile Report.isApplied) h
  rw [List.takeWhile_append_of_pos hf, List.takeWhile_append_of_pos hf',
    List.takeWhile_cons_of_neg (by simp [hm]), List.takeWhile_cons_of_neg (by simp [hm']),
    List.append_nil, List.append_nil] at hwhile
  subst hwhile
  obtain ⟨hm, hrest⟩ := List.cons.inj (List.append_cancel_left h)
  exact ⟨rfl, hm, hrest⟩

theorem not_forall_isApplied {front rest : List Report} {m : Report} (hm : m.isApplied = false) :
    ¬ ∀ x ∈ front ++ m :: rest, x.isApplied = true := fun h =>
  absurd (h m (List.mem_append_right _ List.mem_cons_self)) (Bool.eq_false_iff.1 hm)

namespace Verdict

variable {o : Option (Except ReconcileError Unit)}

/-- Before the receiver takes a report, all that it has taken are successes. -/
theorem of_none (h : Verdict limit n taken none) :
    (∀ m ∈ taken, m.isApplied = true) ∧ taken.length < n := by
  cases h with
  | waiting h hn => exact ⟨h, hn⟩

/-- One more report decides, or it leaves one task fewer to wait for. -/
theorem consume (h : Verdict limit n taken none) (hb : b.remaining + taken.length = n)
    (hl : b.limit = limit) (m : Report) :
    Verdict limit n (taken ++ [m]) (b.consume m).outcome := by
  obtain ⟨happlied, hlt⟩ := h.of_none
  cases m with
  | applied label =>
    have hall : ∀ m ∈ taken ++ [.applied label], m.isApplied = true :=
      List.forall_mem_append.2 ⟨happlied, List.forall_mem_singleton.2 rfl⟩
    rw [Batch.consume]
    dsimp only
    split
    · exact .completed hall (by rw [List.length_append, List.length_singleton]; omega)
    · exact .waiting hall (by rw [List.length_append, List.length_singleton]; omega)
  | failed label e => exact .failed happlied hlt label e
  | timedOut =>
    have hremaining : b.remaining = n - taken.length := by omega
    rw [Batch.consume, hl, hremaining]
    exact .timedOut happlied hlt

theorem none_iff (h : Verdict limit n taken o) :
    o = none ↔ taken.length < n ∧ ∀ m ∈ taken, m.isApplied = true := by
  cases h with
  | waiting h hn => exact iff_of_true rfl ⟨hn, h⟩
  | completed h hn => exact iff_of_false (by rintro ⟨⟩) fun h => absurd hn (Nat.ne_of_lt h.1)
  | failed h hn label e =>
    exact iff_of_false (by rintro ⟨⟩) fun h => not_forall_isApplied rfl h.2
  | timedOut h hn => exact iff_of_false (by rintro ⟨⟩) fun h => not_forall_isApplied rfl h.2

theorem ok_iff (h : Verdict limit n taken o) :
    o = some (.ok ()) ↔ n ≤ taken.length ∧ ∀ m ∈ taken.take n, m.isApplied = true := by
  -- A report that is no success is among the first `n` that were taken.
  have hstop {front : List Report} {m : Report} (hm : m.isApplied = false)
      (hn : front.length < n) : ¬ ∀ x ∈ (front ++ [m]).take n, x.isApplied = true := by
    rw [List.take_of_length_le (by rwa [List.length_append, List.length_singleton])]
    exact not_forall_isApplied hm
  cases h with
  | waiting h hn => exact iff_of_false (by rintro ⟨⟩) fun h => absurd hn (Nat.not_lt.2 h.1)
  | completed h hn =>
    exact iff_of_true rfl ⟨Nat.le_of_eq hn.symm, fun m hm => h m (List.mem_of_mem_take hm)⟩
  | failed h hn label e => exact iff_of_false (by rintro ⟨⟩) fun h => hstop rfl hn h.2
  | timedOut h hn => exact iff_of_false (by rintro ⟨⟩) fun h => hstop rfl hn h.2

/-- The first report that is no success decides. -/
theorem of_first {front rest : List Report} {m : Report}
    (h : Verdict limit n (front ++ m :: rest) o) (hfront : ∀ x ∈ front, x.isApplied = true)
    (hm : m.isApplied = false) :
    (∃ label e, m = .failed label e ∧ o = some (.error (.concurrentApply label e))) ∨
      m = .timedOut ∧ o = some (.error (.timeout limit (n - front.length))) := by
  generalize hfirst : front ++ m :: rest = taken at h
  cases h with
  | waiting h hn => exact absurd (hfirst ▸ h) (not_forall_isApplied hm)
  | completed h hn => exact absurd (hfirst ▸ h) (not_forall_isApplied hm)
  | failed h hn label e =>
    obtain ⟨rfl, rfl, -⟩ := first_unique hfirst hfront h hm rfl
    exact .inl ⟨label, e, rfl, rfl⟩
  | timedOut h hn =>
    obtain ⟨rfl, rfl, -⟩ := first_unique hfirst hfront h hm rfl
    exact .inr ⟨rfl, rfl⟩

theorem concurrentApply_iff (h : Verdict limit n taken o) {label : String} {e : CloudError} :
    o = some (.error (.concurrentApply label e)) ↔ ∃ front rest,
      taken = front ++ .failed label e :: rest ∧ ∀ m ∈ front, m.isApplied = true := by
  constructor
  · rintro rfl
    generalize ho : some (Except.error (ReconcileError.concurrentApply label e)) = o at h
    cases h with
    | failed h hn label e =>
      cases ho
      exact ⟨_, [], rfl, h⟩
    | _ => cases ho
  · rintro ⟨front, rest, rfl, hfront⟩
    obtain ⟨label', e', hm, rfl⟩ | ⟨hm, -⟩ := h.of_first hfront rfl <;> cases hm
    rfl

theorem timeout_iff (h : Verdict limit n taken o) {d : Duration} {k : Nat} :
    o = some (.error (.timeout d k)) ↔ d = limit ∧ ∃ front rest,
      taken = front ++ .timedOut :: rest ∧ (∀ m ∈ front, m.isApplied = true) ∧
        k + front.length = n := by
  constructor
  · rintro rfl
    generalize ho : some (Except.error (ReconcileError.timeout d k)) = o at h
    cases h with
    | timedOut h hn =>
      cases ho
      exact ⟨rfl, _, [], rfl, h, Nat.sub_add_cancel (Nat.le_of_lt hn)⟩
    | _ => cases ho
  · rintro ⟨rfl, front, rest, rfl, hfront, rfl⟩
    obtain ⟨label, e, hm, -⟩ | ⟨-, rfl⟩ := h.of_first hfront rfl
    · cases hm
    · rw [Nat.add_sub_cancel]

theorem ne_incomplete (h : Verdict limit n taken o) (k : Nat) :
    o ≠ some (.error (.incomplete k)) := by
  cases h <;> rintro ⟨⟩

end Verdict

/-! ## Every run -/

/-- The books of a batch: every report that was sent was taken or is in the queue, whoever has not
reported still can, and the receiver waits for as many tasks as have not succeeded. -/
structure Accounts (labels : List String) (limit : Duration) (sent taken : List Report)
    (b : Batch) : Prop where
  limit_eq : b.limit = limit
  capacity_eq : b.capacity = labels.length + 1
  sent_eq : sent = taken ++ b.queue
  senders : sent.length + b.running.length + b.timer.toNat = labels.length + 1
  rung : b.timer = false → .timedOut ∈ sent
  counted : b.remaining + taken.countP Report.isApplied = labels.length
  verdict : Verdict limit labels.length taken b.outcome

namespace Accounts

theorem start (hne : labels ≠ []) : Accounts labels limit [] [] (start labels limit) where
  limit_eq := rfl
  capacity_eq := rfl
  sent_eq := rfl
  senders := by
    have htimer : labels.isEmpty = false := List.isEmpty_eq_false_iff.2 hne
    simp [Batch.start, htimer]
  rung htimer := by
    have hempty : labels.isEmpty = true := by simpa [Batch.start] using htimer
    exact absurd (List.isEmpty_iff.1 hempty) hne
  counted := rfl
  verdict := by
    have hnone : (Batch.start labels limit).outcome = none :=
      if_neg (by simpa [List.isEmpty_iff] using hne)
    rw [hnone]
    exact .waiting (List.forall_mem_nil _) (List.length_pos_iff.2 hne)

/-- While nothing is decided, the receiver has taken the successes of some tasks only. -/
theorem remaining_add_length (h : Accounts labels limit sent taken b) (ho : b.outcome = none) :
    b.remaining + taken.length = labels.length := by
  have hverdict := h.verdict
  rw [ho] at hverdict
  rw [← h.counted, List.countP_eq_length.2 hverdict.of_none.1]

/-- Who reports keeps the books. -/
theorem send (h : Accounts labels limit sent taken b) (m : Report) {running : List Nat}
    {timer : Bool} (hs : running.length + timer.toNat + 1 = b.running.length + b.timer.toNat)
    (ht : timer = b.timer ∨ m = .timedOut) :
    Accounts labels limit (sent ++ [m]) taken
      { b with running, timer, queue := b.queue ++ [m] } where
  limit_eq := h.limit_eq
  capacity_eq := h.capacity_eq
  sent_eq := by rw [h.sent_eq, List.append_assoc]
  senders := by
    have hsenders := h.senders
    rw [List.length_append, List.length_singleton]
    dsimp only
    omega
  rung hfalse := by
    rcases ht with rfl | rfl
    · exact List.mem_append_left _ (h.rung hfalse)
    · exact List.mem_append_right _ (List.mem_singleton_self _)
  counted := h.counted
  verdict := h.verdict

/-- The receiver keeps the books when it takes a report. -/
theorem receive (h : Accounts labels limit sent taken b) (ho : b.outcome = none) {m : Report}
    {rest : List Report} (hqueue : b.queue = m :: rest) :
    Accounts labels limit sent (taken ++ [m]) ({ b with queue := rest }.consume m) := by
  have hverdict := h.verdict
  rw [ho] at hverdict
  have hremaining := h.remaining_add_length ho
  have hsent : sent = taken ++ [m] ++ rest := by rw [h.sent_eq, hqueue, List.append_cons]
  refine ⟨?_, ?_, ?_, ?_, ?_, ?_, ?_⟩
  · rw [consume_eq]
    exact h.limit_eq
  · rw [consume_eq]
    exact h.capacity_eq
  · rw [consume_eq]
    exact hsent
  · rw [consume_eq]
    exact h.senders
  · rw [consume_eq]
    exact h.rung
  · -- Of the reports only that of an applied resource is counted.
    have hlt := hverdict.of_none.2
    have hcounted := h.counted
    rw [List.countP_append]
    cases m with
    | applied label =>
      simp only [consume, List.countP_singleton, Report.isApplied, if_true]
      omega
    | failed label e => exact hcounted
    | timedOut => exact hcounted
  · exact hverdict.consume (b := { b with queue := rest }) hremaining h.limit_eq m

/-- Events keep the books. -/
theorem step (h : Accounts labels limit sent taken b) (he : b.step e = some b') :
    Accounts labels limit (sent ++ b.sends e) (taken ++ b.takes e) b' := by
  rcases step_cases he with ⟨task, result, rfl, htask, rfl⟩ | ⟨rfl, htimer, rfl⟩ |
    ⟨m, rest, rfl, ho, hqueue, rfl⟩ | ⟨rfl, ho, hqueue, hrunning, htimer, rfl⟩
  · -- A task that has reported is not running any more.
    rw [takes, List.append_nil]
    refine h.send _ ?_ (.inl rfl)
    have hpos := List.length_pos_of_mem htask
    rw [List.length_erase_of_mem htask]
    omega
  · rw [takes, List.append_nil]
    refine h.send _ ?_ (.inr rfl)
    rw [htimer]
    rfl
  · rw [sends, List.append_nil, takes, hqueue]
    exact h.receive ho hqueue
  · -- All reports would have been taken, so more than there are tasks to wait for.
    have hsenders := h.senders
    have hremaining := h.remaining_add_length ho
    rw [h.sent_eq, hqueue, List.append_nil, hrunning, htimer] at hsenders
    simp only [List.length_nil, Bool.toNat_false] at hsenders
    omega

theorem of_reaches (hne : labels ≠ []) (h : Reaches labels limit events sent taken b) :
    Accounts labels limit sent taken b := by
  induction h with
  | start => exact .start hne
  | step h he ih => exact ih.step he

/-- There is room in the queue for whoever still can report. -/
theorem queue_lt (h : Accounts labels limit sent taken b)
    (hs : 0 < b.running.length + b.timer.toNat) : b.queue.length < b.capacity := by
  have hsenders := h.senders
  rw [h.sent_eq, List.length_append] at hsenders
  rw [h.capacity_eq]
  omega

end Accounts

/-- How a batch completes. -/
structure Completes (labels : List String) (limit : Duration) (events : List BatchEvent)
    (sent taken : List Report) (b : Batch) : Prop where
  /-- Each task ends once at most, and the tasks that have not ended are running. -/
  tasks_perm : (events.filterMap BatchEvent.task? ++ b.running).Perm (List.range labels.length)
  /-- The result of every task that has ended is sent under the label of the task, and nothing else
  but that the timer ran out, all in the order in which it happened. -/
  sent_eq : sent = events.filterMap (BatchEvent.report? labels)
  /-- The receiver takes what is sent in that order. -/
  taken_append_queue : taken ++ b.queue = sent
  /-- The receiver waits for as many tasks as there are but for the successes it has taken. -/
  remaining_eq : b.remaining + taken.countP Report.isApplied = labels.length
  remaining_pos : b.outcome = none → 1 ≤ b.remaining
  sent_le : sent.length ≤ labels.length + 1
  /-- No task has to wait until it can report. -/
  finish_isSome : ∀ task ∈ b.running, ∀ result, (b.step (.finish task result)).isSome = true
  /-- Nor does the timer. -/
  ring_isSome : b.timer = true → (b.step .ring).isSome = true
  waiting_iff : b.outcome = none ↔
    taken.length < labels.length ∧ ∀ m ∈ taken, m.isApplied = true
  ok_iff : b.outcome = some (.ok ()) ↔
    labels.length ≤ taken.length ∧ ∀ m ∈ taken.take labels.length, m.isApplied = true
  concurrentApply_iff : ∀ label e, b.outcome = some (.error (.concurrentApply label e)) ↔
    ∃ front rest, taken = front ++ .failed label e :: rest ∧ ∀ m ∈ front, m.isApplied = true
  timeout_iff : ∀ d k, b.outcome = some (.error (.timeout d k)) ↔ d = limit ∧
    ∃ front rest, taken = front ++ .timedOut :: rest ∧ (∀ m ∈ front, m.isApplied = true) ∧
      k + front.length = labels.length
  ne_incomplete : ∀ k, b.outcome ≠ some (.error (.incomplete k))
  /-- While nothing is decided, the receiver has a report to take, or the timer is still to run
  out. -/
  live : b.outcome = none → (b.step .receive).isSome = true ∨ b.timer = true

theorem Reaches.completes (hreaches : Reaches labels limit events sent taken b)
    (hne : labels ≠ []) : Completes labels limit events sent taken b := by
  have h := Accounts.of_reaches hne hreaches
  constructor
  · exact hreaches.perm_range
  · exact hreaches.sent_eq
  · exact h.sent_eq.symm
  · exact h.counted
  · intro ho
    have hremaining := h.remaining_add_length ho
    have hlt := (h.verdict.none_iff.1 ho).1
    omega
  · have hsenders := h.senders
    omega
  · intro task htask result
    have hroom := h.queue_lt (Nat.add_pos_left (List.length_pos_of_mem htask) _)
    simp [Batch.step, Batch.send, htask, hroom]
  · intro htimer
    have hroom := h.queue_lt (by simp [htimer])
    simp [Batch.step, Batch.send, htimer, hroom]
  · exact h.verdict.none_iff
  · exact h.verdict.ok_iff
  · exact fun label e => h.verdict.concurrentApply_iff
  · exact fun d k => h.verdict.timeout_iff
  · exact h.verdict.ne_incomplete
  · intro ho
    cases hqueue : b.queue with
    | cons m rest => exact .inl (by simp [Batch.step, ho, hqueue])
    | nil =>
      -- The receiver has taken all that was sent, and the timer's report would have decided.
      refine .inr (Decidable.byContradiction fun htimer => ?_)
      have hrung := h.rung (Bool.eq_false_iff.2 htimer)
      rw [h.sent_eq, hqueue, List.append_nil] at hrung
      exact absurd ((h.verdict.none_iff.1 ho).2 _ hrung) (by decide)

/-- A batch that runs in time is one of those that the events can lead to. -/
theorem Reaches.stepOrStay (h : Reaches labels limit events sent taken b) (e : BatchEvent) :
    ∃ done sent taken, done.Sublist [e] ∧
      Reaches labels limit (events ++ done) sent taken (b.stepOrStay e) := by
  rw [Batch.stepOrStay]
  cases hstep : b.step e with
  | none => exact ⟨[], sent, taken, List.nil_sublist _, (List.append_nil events).symm ▸ h⟩
  | some b' => exact ⟨[e], _, _, .refl _, h.step hstep⟩

/-- Of the events and of the steps of the receiver behind them, those take place that can. -/
theorem Reaches.runTimed (h : Reaches labels limit events sent taken b)
    (timed : List (Nat × BatchEvent)) (clock : Nat) :
    ∃ done sent taken, done.Sublist (timed.flatMap fun x => [x.2, .receive]) ∧
      Reaches labels limit (events ++ done) sent taken (runTimed timed b clock).1 := by
  induction timed generalizing events sent taken b clock with
  | nil => exact ⟨[], sent, taken, .refl _, (List.append_nil events).symm ▸ h⟩
  | cons x rest ih =>
    rw [Batch.runTimed]
    split
    · exact ⟨[], sent, taken, List.nil_sublist _, (List.append_nil events).symm ▸ h⟩
    · obtain ⟨front, sent', taken', hfront, hsent⟩ := h.stepOrStay x.2
      obtain ⟨middle, sent'', taken'', hmiddle, hdelivered⟩ := hsent.stepOrStay .receive
      obtain ⟨back, sent, taken, hback, hrun⟩ := ih hdelivered x.1
      refine ⟨front ++ middle ++ back, sent, taken, (hfront.append hmiddle).append hback, ?_⟩
      rw [← List.append_assoc, ← List.append_assoc]
      exact hrun

/-- Whatever its tasks do and when, a batch that runs in time completes like that. -/
theorem exists_completes_runTimed (hne : labels ≠ []) (timed : List (Nat × BatchEvent))
    (clock : Nat) :
    ∃ done sent taken, done.Sublist (timed.flatMap fun x => [x.2, .receive]) ∧
      Completes labels limit done sent taken (runTimed timed (start labels limit) clock).1 := by
  obtain ⟨done, sent, taken, hdone, h⟩ := Reaches.start.runTimed timed clock
  exact ⟨done, sent, taken, hdone, h.completes hne⟩

/-- The completion of a batch is exact, in whatever order its tasks and its timer report. -/
theorem completes_of_reaches (hne : labels ≠ [])
    (h : Reaches labels limit events sent taken b) :
    Completes labels limit events sent taken b :=
  h.completes hne

/-- Of two tasks, one succeeds before the timer runs out, and the other one never ends. -/
theorem timeout_behind_success :
    ∃ b, Reaches ["network 'net'", "network 'backup'"] (.ofSecs 1)
        [.finish 1 (.ok ()), .ring, .receive, .receive]
        [.applied "network 'backup'", .timedOut] [.applied "network 'backup'", .timedOut] b ∧
      b.remaining = 1 ∧ b.outcome = some (.error (.timeout (.ofSecs 1) 1)) := by
  have hstart := @Reaches.start ["network 'net'", "network 'backup'"] (.ofSecs 1)
  have hsent := (hstart.step (e := .finish 1 (.ok ())) rfl).step (e := .ring) rfl
  have hrun := (hsent.step (e := .receive) rfl).step (e := .receive) rfl
  have hcompletes := completes_of_reaches (by decide) hrun
  exact ⟨_, hrun, Nat.succ_inj.1 hcompletes.remaining_eq,
    (hcompletes.timeout_iff _ _).2 ⟨rfl, [.applied "network 'backup'"], [], rfl,
      List.forall_mem_singleton.2 rfl, rfl⟩⟩

end Batch

end ClusterKeeper
