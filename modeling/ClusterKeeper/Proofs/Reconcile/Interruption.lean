/-
# Interrupts

A pass looks at the interrupt monitor before each resource and nowhere else. It is broken off
at the first look that finds a request, and then it calls nothing of that resource or of those
behind it. What is requested behind the last look changes nothing, and every phase that ends
leaves the monitor idle.
-/

import ClusterKeeper.Proofs.Reconcile.Rollback
import ClusterKeeper.Reconcile.Snapshot
import ClusterKeeper.Reconcile.Teardown

namespace ClusterKeeper

open Dialogue (stateAfter Answered)

variable {log log' before after : WalkRecord} {trigger : WalkExchange} {n i : Nat} {b : Setback}
  {signal : Signal} {r : Reconciler} {start : Cluster}

/-- The signal and the index, if an interrupt ended the pass. -/
def ReconcileError.interruption? : ReconcileError → Option (Signal × Nat)
  | .interrupted signal index => some (signal, index)
  | .interruptedCleanupFailed signal index _ => some (signal, index)
  | _ => none

/-! ## Resources that were settled -/

/-- Only a look at the monitor makes a pass give up for an interrupt. -/
theorem WalkExchange.eq_poll {x : WalkExchange}
    (h : WalkExchange.setback? x = some (.interrupt signal)) :
    x = ⟨.poll, signal⟩ ∧ signal.isRequested = true := by
  obtain ⟨q, a⟩ := x
  rcases q with c | d | _ | _
  · cases c with
    | actual index known =>
      cases a with
      | ok found => cases h
      | error e =>
        simp only [setback?] at h
        split at h <;> cases h
    | _ => cases a <;> cases h
  · cases h
  · simp only [setback?] at h
    split at h
    · next hs =>
      cases h
      exact ⟨rfl, hs⟩
    · cases h
  · cases h

namespace SettledUpTo

theorem quiet (h : SettledUpTo log n) : log.Quiet := by
  induction h with
  | zero => exact List.forall_mem_nil _
  | @succ log n c₁ c₂ c₃ c₄ c₅ actual expected state x y answer h ha ih =>
    refine WalkRecord.quiet_append.2 ⟨ih, ?_⟩
    have hlook : WalkExchange.setback? ⟨.call (.actual n c₂), answer⟩ = none := by
      cases answer with
      | ok found => rfl
      | error e => exact if_pos (ha e rfl)
    simp only [WalkRecord.Quiet, List.forall_mem_cons]
    exact ⟨rfl, rfl, hlook, rfl, rfl, List.forall_mem_nil _⟩

theorem settled_eq (h : SettledUpTo log n) : log.settled = List.range n := by
  induction h with
  | zero => rfl
  | succ h ha ih =>
    rw [WalkRecord.settled_append, ih, List.range_succ]
    rfl

theorem length_applications (h : SettledUpTo log n) : log.applications.length = n := by
  induction h with
  | zero => rfl
  | succ h ha ih =>
    rw [WalkRecord.applications_append, List.length_append, ih]
    rfl

theorem index_lt (h : SettledUpTo log n) :
    ∀ x ∈ log, ∀ c, x.question = .call c → c.index < n := by
  induction h with
  | zero => exact List.forall_mem_nil _
  | @succ log n c₁ c₂ c₃ c₄ c₅ actual expected state x y answer h ha ih =>
    refine List.forall_mem_append.2 ⟨fun x hx c hc => ?_, ?_⟩
    · exact Nat.lt_succ_of_lt (ih x hx c hc)
    · simp only [List.forall_mem_cons]
      refine ⟨?_, ?_, ?_, ?_, ?_, List.forall_mem_nil _⟩
      all_goals
        intro c hc
        cases hc
      all_goals exact Nat.lt_succ_self n

end SettledUpTo

namespace GivenUp

variable {o : Option (Except CleanupError Cluster)}

/-- A pass that gave up for an interrupt calls only resources before the one at which it looked
at the monitor. -/
theorem index_lt (h : GivenUp r start before ⟨.poll, signal⟩ after n b o) :
    ∀ x ∈ before ++ (⟨.poll, signal⟩ : WalkExchange) :: after,
      ∀ c, x.question = .call c → c.index < n := by
  have hsettled := h.settledUpTo rfl
  have hlen : (before ++ [(⟨.poll, signal⟩ : WalkExchange)]).applications.length = n := by
    rw [WalkRecord.applications_append, List.length_append, hsettled.length_applications]
    rfl
  refine List.forall_mem_append.2 ⟨hsettled.index_lt, List.forall_mem_cons.2 ⟨?_, ?_⟩⟩
  · intro c hc
    cases hc
  -- Behind the look at the monitor, only what was applied before it is called, to delete it.
  intro x hx c hc
  rcases WalkExchange.cleanup_cases (h.cleans x hx) with
    ⟨index, state, known, answer, rfl⟩ | ⟨d, rfl⟩ | rfl
  · cases hc
    have hdel : ⟨index, state, known, answer⟩ ∈ after.deletions :=
      List.mem_filterMap.2 ⟨_, hx, rfl⟩
    have hentry := List.mem_reverse.1 (h.unwinds.mem_entries _ hdel)
    have hlt := entry_fst_lt h.indices _ hentry
    rwa [hlen] at hlt
  · cases hc
  · cases hc

end GivenUp

/-! ## Requests behind the last look -/

/-- The clouds give the same answers, whatever they request and however long they take. -/
def Cloud.AnswersAlike {σ : Type} (cloud cloud' : Cloud σ) : Prop :=
  ∀ c s, (cloud' c s).1.answer = (cloud c s).1.answer ∧ (cloud' c s).2 = (cloud c s).2

/-- What a monitor makes of a request depends on its signal alone. -/
theorem Monitor.signal_foldl_request {m m' : Monitor} (h : m'.signal = m.signal)
    (requests : List InterruptRequest) :
    (requests.foldl Monitor.request m').signal = (requests.foldl Monitor.request m).signal := by
  induction requests generalizing m m' with
  | nil => exact h
  | cons q requests ih =>
    refine ih ?_
    cases q with
    | abort =>
      simp only [Monitor.request, Monitor.requestAbort, h]
      split
      · rfl
      · exact h
    | terminate => rfl
    | reset => rfl

namespace Engine

variable {σ α : Type} {cloud cloud' : Cloud σ} {e e' : Engine σ}

/-- The clouds request the same while they answer the calls of the record. -/
def RequestsAlike (cloud cloud' : Cloud σ) : WalkRecord → Engine σ → Prop
  | [], _ => True
  | x :: log, e =>
    (∀ c, x.question = .call c → (cloud' c e.cloud).1.requests = (cloud c e.cloud).1.requests) ∧
      RequestsAlike cloud cloud' log (answer cloud x.question e).2

/-- Clouds that answer alike take the same steps; if they request the same in a step, so does
the monitor. -/
theorem answer_alike (halike : cloud.AnswersAlike cloud') (q : WalkQuestion)
    (hcloud : e'.cloud = e.cloud) :
    (answer cloud' q e').2.cloud = (answer cloud q e).2.cloud ∧
      (q ≠ .poll → (answer cloud' q e').1 = (answer cloud q e).1) ∧
      (e'.monitor.signal = e.monitor.signal →
        (∀ c, q = .call c → (cloud' c e.cloud).1.requests = (cloud c e.cloud).1.requests) →
        (answer cloud' q e').1 = (answer cloud q e).1 ∧
          (answer cloud' q e').2.monitor.signal = (answer cloud q e).2.monitor.signal) := by
  rcases q with c | d | _ | _
  · obtain ⟨hanswer, hstate⟩ := halike c e.cloud
    simp only [answer, hcloud]
    refine ⟨hstate, fun _ => hanswer, fun hsignal hrequests => ⟨hanswer, ?_⟩⟩
    rw [hrequests c rfl]
    exact Monitor.signal_foldl_request hsignal _
  · exact ⟨hcloud, fun _ => rfl, fun hsignal _ => ⟨rfl, hsignal⟩⟩
  · exact ⟨hcloud, fun h => absurd rfl h, fun hsignal _ => ⟨hsignal, hsignal⟩⟩
  · exact ⟨hcloud, fun _ => rfl, fun _ _ => ⟨rfl, rfl⟩⟩

/-- Clouds that answer alike are in the same state behind the same questions. -/
theorem cloud_stateAfter (halike : cloud.AnswersAlike cloud') (hcloud : e'.cloud = e.cloud) :
    (stateAfter (answer cloud') log e').cloud = (stateAfter (answer cloud) log e).cloud := by
  induction log generalizing e e' with
  | nil => exact hcloud
  | cons x log ih => exact ih (answer_alike halike x.question hcloud).1

/-- Up to the last look, the same requests lead to the same answers. -/
theorem answered_of_requestsAlike (halike : cloud.AnswersAlike cloud')
    (hrequests : RequestsAlike cloud cloud' log e) (hcloud : e'.cloud = e.cloud)
    (hsignal : e'.monitor.signal = e.monitor.signal) (h : Answered (answer cloud) log e) :
    Answered (answer cloud') log e' := by
  induction log generalizing e e' with
  | nil => trivial
  | cons x log ih =>
    obtain ⟨hsame, hrest⟩ := hrequests
    obtain ⟨hx, hlog⟩ := h
    obtain ⟨hcloud', -, hboth⟩ := answer_alike halike x.question hcloud
    obtain ⟨hanswer, hsignal'⟩ := hboth hsignal hsame
    exact ⟨hx.trans hanswer.symm, ih hrest hcloud' hsignal' hlog⟩

/-- Where nobody looks at the monitor, the requests do not matter. -/
theorem answered_of_no_poll (halike : cloud.AnswersAlike cloud')
    (hpoll : ∀ x ∈ log, x.question ≠ .poll) (hcloud : e'.cloud = e.cloud)
    (h : Answered (answer cloud) log e) : Answered (answer cloud') log e' := by
  induction log generalizing e e' with
  | nil => trivial
  | cons x log ih =>
    obtain ⟨hx, hlog⟩ := h
    obtain ⟨hne, hrest⟩ := List.forall_mem_cons.1 hpoll
    obtain ⟨hcloud', hanswer, -⟩ := answer_alike halike x.question hcloud
    exact ⟨hx.trans (hanswer hne).symm, ih hrest hcloud' hlog⟩

/-- What is requested behind the last look at the monitor changes neither the record nor the
result. -/
theorem play_of_late_requests {w : Walk α} {o : Option α} {e₁ : Engine σ}
    (hrun : w.play (answer cloud) e = (o, log ++ log', e₁)) (halike : cloud.AnswersAlike cloud')
    (hrequests : RequestsAlike cloud cloud' log e) (hpoll : ∀ x ∈ log', x.question ≠ .poll) :
    ∃ e₂, w.play (answer cloud') e = (o, log ++ log', e₂) := by
  obtain ⟨hends, hanswered, -⟩ := Dialogue.play_eq_iff.1 hrun
  obtain ⟨hfront, hback⟩ := Dialogue.answered_append.1 hanswered
  have hfront' := answered_of_requestsAlike halike hrequests rfl rfl hfront
  have hback' := answered_of_no_poll halike hpoll (cloud_stateAfter halike rfl) hback
  exact ⟨_, Dialogue.play_eq_iff.2
    ⟨hends, Dialogue.answered_append.2 ⟨hfront', hback'⟩, rfl⟩⟩

/-- The monitor is idle behind a phase, unless the phase is broken off. -/
theorem idle_of_phase {w : Walk α} {x : α}
    (hrun : w.phase.play (answer cloud) e = (some x, log, e')) : e'.monitor.signal = .idle := by
  obtain ⟨hends, -, rfl⟩ := Dialogue.play_eq_iff.1 hrun
  obtain ⟨front, -, ⟨rfl⟩ | ⟨-, ho⟩⟩ := Reconciler.ends_phase hends
  · rw [stateAfter, List.foldl_append]
    rfl
  · cases ho

end Engine

/-! ## Every run -/

/-- An interrupt ended the pass before the resource. -/
def InterruptedBefore (o : Option (Except ReconcileError Cluster)) (signal : Signal) (i : Nat) :
    Prop :=
  ∃ e : ReconcileError, o = some (.error e) ∧ e.interruption? = some (signal, i)

/-- The record ends with deletes of one resource that keep failing with errors that may pass,
until the patience is used up. -/
def WalkRecord.StillDeleting (log : WalkRecord) (r : Reconciler) : Prop :=
  ∃ index state known done fails, r.Tries index state known fails ∧
    fails.length = r.patience ∧ log.deletions = done ++ fails

namespace Reconciler

variable {actual expected : Cluster} {o : Option (Except ReconcileError Cluster)}

theorem interruption?_report {place : Place} {y : Except CleanupError Cluster} :
    (b.report place y).interruption? = some (signal, i) ↔
      b = .interrupt signal ∧ place.index = i := by
  cases b <;> cases y <;> simp [Setback.report, ReconcileError.interruption?]

/-- A pass that was interrupted gave up at a look at the monitor that found the request. -/
theorem givenUp_of_interruptedBefore (h : (r.reconcile actual expected).Ends log o)
    (hi : InterruptedBefore o signal i) :
    ∃ before after y, log = before ++ ⟨.poll, signal⟩ :: after ∧ signal.isRequested = true ∧
      GivenUp r expected before ⟨.poll, signal⟩ after i (.interrupt signal) (some y) := by
  obtain ⟨e, rfl, he⟩ := hi
  obtain ⟨before, trigger, after, n, b, y, rfl, hgiven, rfl⟩ := givenUp_of_ends h
  obtain ⟨rfl, rfl⟩ := interruption?_report.1 he
  obtain ⟨rfl, hsignal⟩ := WalkExchange.eq_poll hgiven.setback
  exact ⟨before, after, y, rfl, hsignal, hgiven⟩

/-- A pass that comes to an end is interrupted if and only if one of its looks at the monitor
finds a request, which is then the first thing that goes wrong. -/
theorem interruptedBefore_iff (h : (r.reconcile actual expected).Ends log o) (hend : o ≠ none) :
    InterruptedBefore o signal i ↔
      ∃ before after, log = before ++ ⟨.poll, signal⟩ :: after ∧ SettledUpTo before i ∧
        signal.isRequested = true := by
  constructor
  · intro hi
    obtain ⟨before, after, y, rfl, hsignal, hgiven⟩ := givenUp_of_interruptedBefore h hi
    exact ⟨before, after, rfl, hgiven.settledUpTo rfl, hsignal⟩
  · rintro ⟨before, after, rfl, hsettled, hsignal⟩
    have hpoll : WalkExchange.setback? ⟨.poll, signal⟩ = some (.interrupt signal) :=
      if_pos hsignal
    rcases ends_reconcile h with
      ⟨c, -, hquiet, -⟩ | ⟨before', trigger, after', n, b, y, hlog, hgiven, rfl⟩
    · have hnone := hquiet ⟨.poll, signal⟩ (by simp)
      rw [hpoll] at hnone
      cases hnone
    · -- Both are the first exchange at which anything went wrong.
      obtain ⟨rfl, rfl, rfl⟩ := WalkRecord.setback_unique hlog hsettled.quiet hgiven.quiet
        (by simp [hpoll]) (by simp [hgiven.setback])
      have hb : b = .interrupt signal := Option.some.inj (hgiven.setback.symm.trans hpoll)
      have hn : n = i := by
        have hrange := hgiven.settled.symm.trans hsettled.settled_eq
        simpa using congrArg List.length hrange
      cases y with
      | none => exact absurd rfl hend
      | some y => exact ⟨_, rfl, interruption?_report.2 ⟨hb, hn⟩⟩

theorem index_lt_of_interruptedBefore (h : (r.reconcile actual expected).Ends log o)
    (hi : InterruptedBefore o signal i) :
    ∀ x ∈ log, ∀ c, x.question = .call c → c.index < i := by
  obtain ⟨before, after, y, rfl, -, hgiven⟩ := givenUp_of_interruptedBefore h hi
  exact hgiven.index_lt

/-- A pass comes to nothing only while a cleanup keeps failing. -/
theorem stillDeleting_of_ends (h : (r.reconcile actual expected).Ends log none) :
    log.StillDeleting r := by
  rcases ends_reconcile h with ⟨c, ho, -⟩ | ⟨before, trigger, after, n, b, y, rfl, hgiven, ho⟩
  · cases ho
  · cases y with
    | some y => cases ho
    | none =>
      rw [WalkRecord.StillDeleting, hgiven.deletions_eq]
      exact hgiven.unwinds.pending_of_none

variable {σ : Type} {cloud : Cloud σ} {e e' : Engine σ}

/-- Interrupts are honoured at the next resource. A pass that comes to an end is interrupted
before a resource if and only if all resources before it were settled and the look at the
monitor behind them is the first that finds a request, and then no call is made to that
resource or those behind it; what is requested behind the last look changes nothing. Each phase
that comes to an end leaves the monitor idle. A pass comes to an end unless a delete keeps
failing with errors that may pass until the patience is used up, which takes a policy that allows
as many retries. -/
theorem reconcile_honours_interrupts
    (hrun : (r.reconcile actual expected).play (Engine.answer cloud) e = (o, log, e')) :
    (o ≠ none → ∀ signal i, InterruptedBefore o signal i ↔
      ∃ before after, log = before ++ ⟨.poll, signal⟩ :: after ∧ SettledUpTo before i ∧
        signal = (stateAfter (Engine.answer cloud) before e).monitor.signal ∧
        signal.isRequested = true) ∧
    (∀ signal i, InterruptedBefore o signal i →
      ∀ x ∈ log, ∀ c, x.question = .call c → c.index < i) ∧
    (∀ before after, log = before ++ after → (∀ x ∈ after, x.question ≠ .poll) →
      ∀ cloud' : Cloud σ, cloud.AnswersAlike cloud' →
        Engine.RequestsAlike cloud cloud' before e →
        ∃ e'', (r.reconcile actual expected).play (Engine.answer cloud') e = (o, log, e'')) ∧
    (∀ known, ∀ w ∈ [r.reconcile actual expected, r.actual known, r.expected known, r.destroy],
      ∀ e₁ x log₁ e₂, w.play (Engine.answer cloud) e₁ = (some x, log₁, e₂) →
        e₂.monitor.signal = .idle) ∧
    (o = none → log.StillDeleting r ∧ ∀ m, r.policy.maxAttempts = some m → r.patience ≤ m) := by
  obtain ⟨hends, hanswered, -⟩ := Dialogue.play_eq_iff.1 hrun
  refine ⟨fun hend signal i => ?_, fun signal i => index_lt_of_interruptedBefore hends, ?_, ?_,
    ?_⟩
  · rw [interruptedBefore_iff hends hend]
    constructor
    · rintro ⟨before, after, rfl, hsettled, hsignal⟩
      obtain ⟨-, hpoll, -⟩ := Dialogue.answered_append.1 hanswered
      exact ⟨before, after, rfl, hsettled, hpoll, hsignal⟩
    · rintro ⟨before, after, hlog, hsettled, -, hsignal⟩
      exact ⟨before, after, hlog, hsettled, hsignal⟩
  · rintro before after rfl hpoll cloud' halike hrequests
    exact Engine.play_of_late_requests hrun halike hrequests hpoll
  · intro known w hw e₁ x log₁ e₂ hphase
    simp only [List.mem_cons, List.not_mem_nil, or_false] at hw
    rcases hw with rfl | rfl | rfl | rfl <;> exact Engine.idle_of_phase hphase
  · rintro rfl
    have hstill := stillDeleting_of_ends hends
    refine ⟨hstill, fun m hm => ?_⟩
    obtain ⟨index, state, known, done, fails, htries, hlen, -⟩ := hstill
    rw [← hlen]
    exact htries.bounded m hm

end Reconciler

/-! ## A cloud that asks for an abort -/

/-- A cloud in which nothing is there; while a resource is applied, an abort is requested. -/
def abortingCloud : Cloud Unit
  | .apply index actual expected applied, s =>
    ({ obliging (.apply index actual expected applied) with requests := [.abort] }, s)
  | c, s => (obliging c, s)

namespace abortingCloud

/-- A pass of two networks. -/
def pass : Option (Except ReconcileError Cluster) × WalkRecord × Engine Unit :=
  (twoNetworks.reconcile twoNetworks.known twoNetworks.moved).play (Engine.answer abortingCloud)
    { cloud := () }

/-- The abort is seen before the second network, and that network is not called. -/
theorem interrupted_pass :
    ∃ log e', pass = (some (.error (.interrupted .abortRequested 1)), log, e') ∧
      (∀ x ∈ log, ∀ c, x.question = .call c → c.index < 1) ∧ e'.monitor.signal = .idle := by
  have hres : pass.1 = some (.error (.interrupted .abortRequested 1)) := by
    rw [pass, Reconciler.reconcile_of_sameAs_eq_false twoNetworks.sameAs_moved]
    rfl
  rcases hrun : pass with ⟨o, log, e'⟩
  rw [hrun] at hres
  subst hres
  obtain ⟨-, hindex, -, hidle, -⟩ := Reconciler.reconcile_honours_interrupts hrun
  refine ⟨log, e', rfl, hindex _ _ ⟨_, rfl, rfl⟩, ?_⟩
  exact hidle twoNetworks.known (twoNetworks.reconcile twoNetworks.known twoNetworks.moved)
    List.mem_cons_self { cloud := () } (.error (.interrupted .abortRequested 1)) log e' hrun

end abortingCloud

end ClusterKeeper
