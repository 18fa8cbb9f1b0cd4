/-
# Applying all or nothing

An applier lists what every pool needs before it applies anything, and it returns the expected
cluster only if all that was listed has been applied. Here its records are spelled out question by
question, and the batch at their end event by event: each assignment is one task, whose call comes
back once at most.
-/

import ClusterKeeper.Batch.Applier
import ClusterKeeper.Proofs.Batch.Completion
import ClusterKeeper.Proofs.Cluster.Document
import ClusterKeeper.Proofs.Records
import Mathlib.Data.List.Nodup
import Mathlib.Data.List.Perm.Subperm

namespace ClusterKeeper

open Dialogue (ends_question_bind_iff ends_bind_iff ends_done_iff)

/-! ## The calls of a batch -/

/-- The task whose call comes back with success at an event. -/
def BatchEvent.success? : BatchEvent → Option Nat
  | .finish task (.ok ()) => some task
  | _ => none

theorem BatchEvent.success?_sublist (events : List BatchEvent) :
    (events.filterMap success?).Sublist (events.filterMap task?) := by
  induction events with
  | nil => exact .slnil
  | cons e events ih =>
    cases e with
    | finish task result =>
      cases result with
      | ok => exact ih.cons_cons task
      | error e => exact ih.cons task
    | ring => exact ih
    | receive => exact ih

namespace Batch

variable {labels : List String} {limit : Duration} {events : List BatchEvent} {b : Batch}

/-- What a batch comes to by some events, from its start on. -/
def Ran (labels : List String) (limit : Duration) (events : List BatchEvent) (b : Batch) : Prop :=
  ∃ sent taken, Reaches labels limit events sent taken b

/-- A report of success is sent for every call that comes back with one. -/
theorem Reaches.countP_isApplied {sent taken : List Report}
    (h : Reaches labels limit events sent taken b) :
    sent.countP Report.isApplied = (events.filterMap BatchEvent.success?).length := by
  induction h with
  | start => rfl
  | @step events sent taken b b' e h he ih =>
    rw [List.countP_append, List.filterMap_append, List.length_append, ih]
    refine congrArg _ ?_
    cases e with
    | finish task result => cases result <;> rfl
    | ring => rfl
    | receive => rfl

namespace Ran

theorem perm_range (h : Ran labels limit events b) :
    (events.filterMap BatchEvent.task? ++ b.running).Perm (List.range labels.length) := by
  obtain ⟨sent, taken, h⟩ := h
  exact h.perm_range

/-- No call comes back twice. -/
theorem nodup_tasks (h : Ran labels limit events b) :
    (events.filterMap BatchEvent.task?).Nodup :=
  List.Nodup.of_append_left (h.perm_range.nodup_iff.2 List.nodup_range)

theorem task_lt (h : Ran labels limit events b) {task : Nat}
    (ht : task ∈ events.filterMap BatchEvent.task?) : task < labels.length :=
  List.mem_range.1 (h.perm_range.subset (List.mem_append_left _ ht))

/-- A batch that succeeds has applied everything: each of its calls came back with success. -/
theorem success_of_ok (h : Ran labels limit events b) (ho : b.outcome = some (.ok ()))
    {task : Nat} (ht : task < labels.length) : .finish task (.ok ()) ∈ events := by
  have hne : labels ≠ [] := List.ne_nil_of_length_pos (Nat.zero_lt_of_lt ht)
  have ⟨sent, taken, hreaches⟩ := h
  have hcompletes := hreaches.completes hne
  obtain ⟨hlen, happlied⟩ := hcompletes.ok_iff.1 ho
  have hsub := BatchEvent.success?_sublist events
  have hsubperm : (events.filterMap BatchEvent.success?).Subperm (List.range labels.length) :=
    List.subperm_of_subset (hsub.nodup h.nodup_tasks) fun i hi =>
      List.mem_range.2 (h.task_lt (hsub.subset hi))
  -- As many tasks as there are have succeeded, so none is missing.
  have hall : labels.length ≤ (events.filterMap BatchEvent.success?).length := by
    have htaken : labels.length ≤ taken.countP Report.isApplied := by
      calc labels.length = (taken.take labels.length).countP Report.isApplied := by
            rw [List.countP_eq_length.2 happlied, List.length_take, Nat.min_eq_left hlen]
        _ ≤ taken.countP Report.isApplied := (List.take_sublist _ _).countP_le
    rw [← hreaches.countP_isApplied, ← hcompletes.taken_append_queue, List.countP_append]
    omega
  have hmem : task ∈ events.filterMap BatchEvent.success? :=
    (hsubperm.perm_of_length_le (by rwa [List.length_range])).mem_iff.2 (List.mem_range.2 ht)
  obtain ⟨e, he, hsome⟩ := List.mem_filterMap.1 hmem
  match e, hsome with
  | .finish _ (.ok ()), hsome =>
    cases hsome
    exact he

end Ran

end Batch

/-! ## What an applier asks -/

/-- A record of what an applier asked. -/
abbrev BatchRecord (φ : Type) := List (Dialogue.Exchange (BatchQuestion.Answer (φ := φ)))

namespace BatchRecord

variable {φ : Type}

/-- Every pool is listed, one after the other. -/
def listings (found : List (ServerPool × List Resource)) : BatchRecord φ :=
  found.map fun x => ⟨.list x.1, .ok x.2⟩

/-- The batch that was asked for came to its answer by these events; nothing happens in a batch
that was not asked for. -/
structure RunsBatch (log : BatchRecord φ) (events : List BatchEvent) : Prop where
  ran : ∀ work limit outcome, (⟨.applyAll work limit, outcome⟩ :
    Dialogue.Exchange (BatchQuestion.Answer (φ := φ))) ∈ log →
      ∃ b, Batch.Ran (work.map (·.resource.label)) limit events b ∧ b.outcome = some outcome
  quiet : (∀ work limit outcome, (⟨.applyAll work limit, outcome⟩ :
    Dialogue.Exchange (BatchQuestion.Answer (φ := φ))) ∉ log) → events = []

namespace RunsBatch

variable {log : BatchRecord φ} {events : List BatchEvent}

/-- A record in which no batch is asked for goes with no events. -/
theorem eq_nil_of_forall (hb : log.RunsBatch events)
    (h : ∀ x ∈ log, ∀ work limit, x.question ≠ .applyAll work limit) : events = [] :=
  hb.quiet fun work limit _ hmem => h _ hmem work limit rfl

theorem eq_nil_of_unconnected {f : φ} {e : CloudError}
    (hb : RunsBatch [⟨.connect f, .error e⟩] events) : events = [] := by
  refine hb.eq_nil_of_forall (List.forall_mem_singleton.2 ?_)
  rintro work limit ⟨⟩

theorem eq_nil_of_refused {f : φ} {provider : String}
    {found : List (ServerPool × List Resource)} {pool : ServerPool} {e : CloudError}
    (hb : RunsBatch
      (⟨.connect f, .ok provider⟩ :: (listings found ++ [⟨.list pool, .error e⟩]))
      events) : events = [] := by
  refine hb.eq_nil_of_forall (List.forall_mem_cons.2 ⟨?_, List.forall_mem_append.2
    ⟨fun x hx => ?_, List.forall_mem_singleton.2 ?_⟩⟩)
  · rintro work limit ⟨⟩
  · obtain ⟨y, -, rfl⟩ := List.mem_map.1 hx
    rintro work limit ⟨⟩
  · rintro work limit ⟨⟩

end RunsBatch

end BatchRecord

namespace Applier

variable {φ : Type} {a : Applier φ} {actual expected : Cluster} {log : BatchRecord φ}
  {events : List BatchEvent} {provider : String}

/-- All that was found for pools, pool by pool, as the work of a provider. -/
def work (provider : String) (found : List (ServerPool × List Resource)) : List Assignment :=
  found.flatMap fun x => x.2.map (Assignment.mk provider)

/-- How an applier goes about making a cluster what is expected: what it asks, what happens in
its batch, and what it returns. -/
inductive Conducts (a : Applier φ) (actual expected : Cluster) :
    BatchRecord φ → List BatchEvent → Except ReconcileError Cluster → Prop
  /-- Nothing is to be done. -/
  | upToDate (h : actual.sameAs expected = true) : Conducts a actual expected [] [] (.ok actual)
  /-- No factory is registered for the cloud. -/
  | unknown (h : actual.sameAs expected = false)
      (hf : a.providers.factories.lookup expected.cloud = none) :
      Conducts a actual expected [] []
        (.error (.provider expected.cloud (.providerNotFound expected.cloud)))
  /-- The factory fails. -/
  | unconnected (h : actual.sameAs expected = false) {f : φ}
      (hf : a.providers.factories.lookup expected.cloud = some f) (e : CloudError) :
      Conducts a actual expected [⟨.connect f, .error e⟩] [] (.error (.provider expected.cloud e))
  /-- A pool cannot be listed, and those behind it are not. -/
  | unlisted (h : actual.sameAs expected = false) {f : φ}
      (hf : a.providers.factories.lookup expected.cloud = some f) (provider : String)
      {found : List (ServerPool × List Resource)} {pool : ServerPool} {back : List ServerPool}
      (hpools : expected.pools = found.map (·.1) ++ pool :: back) (e : CloudError) :
      Conducts a actual expected
        (⟨.connect f, .ok provider⟩ :: BatchRecord.listings found ++ [⟨.list pool, .error e⟩]) []
        (.error (.provider provider e))
  /-- All pools are listed, and all that was found is applied in one batch. -/
  | ran (h : actual.sameAs expected = false) {f : φ}
      (hf : a.providers.factories.lookup expected.cloud = some f) (provider : String)
      {found : List (ServerPool × List Resource)} (hpools : expected.pools = found.map (·.1))
      {events : List BatchEvent} {b : Batch} {outcome : Except ReconcileError Unit}
      (hran : Batch.Ran ((work provider found).map (·.resource.label)) a.limit events b)
      (ho : b.outcome = some outcome) :
      Conducts a actual expected
        (⟨.connect f, .ok provider⟩ :: BatchRecord.listings found ++
          [⟨.applyAll (work provider found) a.limit, outcome⟩]) events
        (outcome.map fun _ => expected)

/-- Pools are listed one after the other, up to the first that is refused. -/
theorem ends_assignments {pools : List ServerPool}
    {o : Option (Except ReconcileError (List Assignment))}
    (h : (assignments provider pools).Ends log o) :
    (∃ found, pools = found.map (·.1) ∧ log = BatchRecord.listings found ∧
      o = some (.ok (work provider found))) ∨
    ∃ found pool back e, pools = found.map (·.1) ++ pool :: back ∧
      log = BatchRecord.listings found ++ [⟨.list pool, .error e⟩] ∧
      o = some (.error (.provider provider e)) := by
  induction pools generalizing log o with
  | nil =>
    obtain ⟨rfl, rfl⟩ := ends_done_iff.1 h
    exact .inl ⟨[], rfl, rfl, rfl⟩
  | cons pool pools ih =>
    obtain ⟨answer, rest, rfl, hanswer⟩ := ends_question_bind_iff.1 h
    cases answer with
    | error e =>
      obtain ⟨rfl, rfl⟩ := ends_done_iff.1 hanswer
      exact .inr ⟨[], pool, pools, e, rfl, rfl, rfl⟩
    | ok resources =>
      -- What is found for this pool stands before all that is found for those behind it.
      rcases ends_bind_iff.1 hanswer with ⟨x, front, back, rfl, hrest, hend⟩ | ⟨hrest, -⟩
      · rcases ih hrest with ⟨found, rfl, rfl, hx⟩ | ⟨found, p, back', e, rfl, rfl, hx⟩
        · cases hx
          obtain ⟨rfl, rfl⟩ := ends_done_iff.1 hend
          refine .inl ⟨(pool, resources) :: found, rfl, ?_, rfl⟩
          rw [List.append_nil]
          rfl
        · cases hx
          obtain ⟨rfl, rfl⟩ := ends_done_iff.1 hend
          refine .inr ⟨(pool, resources) :: found, p, back', e, rfl, ?_, rfl⟩
          rw [List.append_nil]
          rfl
      · rcases ih hrest with ⟨found, -, -, hx⟩ | ⟨found, p, back', e, -, -, hx⟩ <;> cases hx

/-- An applier that ends has conducted itself in one of these ways. -/
theorem conducts_of_ends {o : Option (Except ReconcileError Cluster)}
    (h : (a.reconcile actual expected).Ends log o) (hb : log.RunsBatch events) :
    ∃ result, o = some result ∧ a.Conducts actual expected log events result := by
  rw [reconcile] at h
  split at h
  · next hsame =>
    obtain ⟨rfl, rfl⟩ := ends_done_iff.1 h
    obtain rfl := hb.eq_nil_of_forall (List.forall_mem_nil _)
    exact ⟨_, rfl, .upToDate hsame⟩
  · next hne =>
    replace hne := Bool.eq_false_iff.2 hne
    rw [connect] at h
    cases hf : a.providers.factories.lookup expected.cloud with
    | none =>
      rw [hf] at h
      obtain ⟨rfl, rfl⟩ := ends_done_iff.1 h
      obtain rfl := hb.eq_nil_of_forall (List.forall_mem_nil _)
      exact ⟨_, rfl, .unknown hne hf⟩
    | some f =>
      rw [hf] at h
      obtain ⟨answer, rest, rfl, hanswer⟩ := ends_question_bind_iff.1 h
      cases answer with
      | error e =>
        obtain ⟨rfl, rfl⟩ := ends_done_iff.1 hanswer
        obtain rfl := hb.eq_nil_of_unconnected
        exact ⟨_, rfl, .unconnected hne hf e⟩
      | ok provider =>
        rcases ends_bind_iff.1 hanswer with ⟨x, front, back, rfl, hlist, hend⟩ | ⟨hlist, -⟩
        · rcases ends_assignments hlist with
            ⟨found, hpools, rfl, hx⟩ | ⟨found, pool, back', e, hpools, rfl, hx⟩
          · cases hx
            -- The batch is the one question left, and its record says how it ended.
            obtain ⟨outcome, rest, rfl, hbatch⟩ := ends_question_bind_iff.1 hend
            obtain ⟨b, hran, ho⟩ := hb.ran (work provider found) a.limit outcome
              (List.mem_cons_of_mem _ (List.mem_append_right _ List.mem_cons_self))
            have hconducts := Conducts.ran hne hf provider hpools hran ho
            cases outcome with
            | ok u =>
              obtain ⟨rfl, rfl⟩ := ends_done_iff.1 hbatch
              exact ⟨_, rfl, hconducts⟩
            | error e =>
              obtain ⟨rfl, rfl⟩ := ends_done_iff.1 hbatch
              exact ⟨_, rfl, hconducts⟩
          · cases hx
            obtain ⟨rfl, rfl⟩ := ends_done_iff.1 hend
            rw [List.append_nil] at hb ⊢
            obtain rfl := hb.eq_nil_of_refused
            exact ⟨_, rfl, .unlisted hne hf provider hpools e⟩
        · rcases ends_assignments hlist with ⟨found, -, -, hx⟩ | ⟨found, p, back', e, -, -, hx⟩ <;>
            cases hx

/-- How applying ends: with all of it done, or with an error. -/
structure AllOrNothing (a : Applier φ) (actual expected : Cluster) (log : BatchRecord φ)
    (events : List BatchEvent) (result : Except ReconcileError Cluster) : Prop where
  conducts : a.Conducts actual expected log events result
  /-- No assignment is applied twice, and nothing else is applied. -/
  once : (events.filterMap BatchEvent.task?).Nodup ∧
    ∀ task ∈ events.filterMap BatchEvent.task?, ∃ work limit outcome,
      (⟨.applyAll work limit, outcome⟩ : Dialogue.Exchange (BatchQuestion.Answer (φ := φ))) ∈ log ∧
        task < work.length
  /-- Behind a cluster that is not up to date without it, everything has been applied. -/
  of_ok : ∀ c, result = .ok c → actual.sameAs expected = true ∧ c = actual ∨
    c = expected ∧ ∃ found provider, expected.pools = found.map (·.1) ∧
      (⟨.applyAll (work provider found) a.limit, .ok ()⟩ :
        Dialogue.Exchange (BatchQuestion.Answer (φ := φ))) ∈ log ∧
      ∀ task < (work provider found).length, .finish task (.ok ()) ∈ events

theorem Conducts.allOrNothing {result : Except ReconcileError Cluster}
    (h : a.Conducts actual expected log events result) :
    AllOrNothing a actual expected log events result where
  conducts := h
  once := by
    cases h with
    | ran hne hf provider hpools hran ho =>
      refine ⟨hran.nodup_tasks, fun task htask => ⟨_, _, _, List.mem_append_right _
        (List.mem_singleton_self _), ?_⟩⟩
      have hlt := hran.task_lt htask
      rwa [List.length_map] at hlt
    | _ => exact ⟨.nil, fun task htask => absurd htask List.not_mem_nil⟩
  of_ok c hc := by
    cases h with
    | upToDate hsame =>
      cases hc
      exact .inl ⟨hsame, rfl⟩
    | @ran f hne hf provider found hpools events b outcome hran ho =>
      cases outcome with
      | error e => cases hc
      | ok u =>
        cases hc
        refine .inr ⟨rfl, found, provider, hpools, List.mem_append_right _
          (List.mem_singleton_self _), fun task htask => hran.success_of_ok ho ?_⟩
        rwa [List.length_map]
    | _ => cases hc

/-- Applying resolves everything before it touches anything. Then all that was found is applied,
each assignment once at most, and the expected cluster is returned only if all of them succeeded.
In all other cases there is an error, unless nothing was to be done from the start. -/
theorem reconcile_allOrNothing {o : Option (Except ReconcileError Cluster)}
    (h : (a.reconcile actual expected).Ends log o) (hb : log.RunsBatch events) :
    ∃ result, o = some result ∧ AllOrNothing a actual expected log events result := by
  obtain ⟨result, ho, hconducts⟩ := conducts_of_ends h hb
  exact ⟨result, ho, hconducts.allOrNothing⟩

end Applier

/-! ## A cluster of two pools -/

/-- An applier that knows one cloud. -/
def oneCloud : Applier Unit where
  providers := { factories := [("fake", ())] }
  limit := .ofSecs 1

namespace oneCloud

/-- A cluster without pools. -/
def known : Cluster := { name := "demo", cloud := "fake" }

/-- The cluster with two pools. -/
def grown : Cluster := { known with pools := [{ name := "master" }, { name := "node" }] }

/-- What is found for the two pools. -/
def found : List (ServerPool × List Resource) :=
  [({ name := "master" }, [⟨.instanceGroup, "master"⟩]),
    ({ name := "node" }, [⟨.firewall, "node"⟩, ⟨.instanceGroup, "node"⟩])]

/-- The record of applying the two pools. -/
def record : BatchRecord Unit :=
  ⟨.connect (), .ok "fake"⟩ :: BatchRecord.listings found ++
    [⟨.applyAll (Applier.work "fake" found) (.ofSecs 1), .ok ()⟩]

/-- The assignments succeed in another order than they are listed in. -/
def events : List BatchEvent :=
  [.finish 2 (.ok ()), .receive, .finish 0 (.ok ()), .finish 1 (.ok ()), .receive, .receive]

theorem sameAs_grown : known.sameAs grown = false :=
  Bool.eq_false_iff.2 fun h => absurd (Cluster.sameAs_iff.1 h) (by decide)

theorem ends_record : (oneCloud.reconcile known grown).Ends record (some (.ok grown)) := by
  rw [Applier.reconcile, if_neg (Bool.eq_false_iff.1 sameAs_grown)]
  exact .ask (.ask (.ask (.ask (.done _))))

theorem exists_ran : ∃ b, Batch.Ran ((Applier.work "fake" found).map (·.resource.label)) (.ofSecs 1)
    events b ∧ b.outcome = some (.ok ()) :=
  ⟨_, ⟨_, _, .step (.step (.step (.step (.step (.step .start rfl) rfl) rfl) rfl) rfl) rfl⟩, rfl⟩

theorem runsBatch_record : record.RunsBatch events where
  ran work limit outcome h := by
    simp only [record, found, BatchRecord.listings, List.map_cons, List.map_nil, List.cons_append,
      List.nil_append, List.mem_cons, List.not_mem_nil, or_false] at h
    rcases h with h | h | h | h <;> cases h
    exact exists_ran
  quiet h := absurd (List.mem_append_right _ (List.mem_singleton_self _)) (h _ _ _)

/-- The cluster with two pools is returned behind a batch in which everything has been applied. -/
theorem applies_grown : oneCloud.AllOrNothing known grown record events (.ok grown) := by
  obtain ⟨result, ho, h⟩ := Applier.reconcile_allOrNothing ends_record runsBatch_record
  cases ho
  exact h

end oneCloud

end ClusterKeeper
