/-
# The outcome of a pass

What the record of a pass shows of its outcome. A pass that gave up did so at the first
exchange at which anything went wrong; until then it deleted nothing, and what it does from
then on is to remove what it applied, the last one first.
-/

import ClusterKeeper.Proofs.Reconcile.Course

namespace ClusterKeeper

open Dialogue (ends_question_bind_iff ends_bind_iff ends_done_iff)

/-! ## What a cleanup starts from -/

/-- The cluster behind applies, which is what the last one returned. -/
def lastApplied (start : Cluster) (as : List Application) : Cluster :=
  (as.getLast?.map (·.applied)).getD start

/-- The entry that an apply makes in the ledger. -/
def Application.entry (a : Application) : Nat × ResourceState := (a.index, a.state)

/-- The entries are at the first places. -/
theorem entry_fst_lt {as : List Application} (h : as.map (·.index) = List.range as.length) :
    ∀ x ∈ as.map Application.entry, x.1 < as.length := by
  intro x hx
  obtain ⟨a, ha, rfl⟩ := List.mem_map.1 hx
  have hmem : a.index ∈ as.map (·.index) := List.mem_map_of_mem ha
  rw [h] at hmem
  exact List.mem_range.1 hmem

/-- From the last entry to the first, the places descend. -/
theorem entries_descending {as : List Application}
    (h : as.map (·.index) = List.range as.length) :
    (as.map Application.entry).reverse.Pairwise fun x y => y.1 < x.1 := by
  rw [List.pairwise_reverse, List.pairwise_map]
  have hrange : (as.map (·.index)).Pairwise (· < ·) := by
    rw [h]
    exact List.pairwise_lt_range
  exact List.pairwise_map.1 hrange

/-- A pass has come as far as its applies: they are those of the first resources in order,
the ledger has their states, and the applied cluster is what the last one returned. -/
structure Progress.Tracks (start : Cluster) (as : List Application) (p : Progress) : Prop where
  indices : as.map (·.index) = List.range as.length
  entries : p.ledger.entries = as.map Application.entry
  applied : p.applied = lastApplied start as

namespace Progress.Tracks

variable {start : Cluster} {as : List Application} {p : Progress}

theorem begin (start observed : Cluster) :
    Tracks start [] { applied := start, observed } where
  indices := rfl
  entries := rfl
  applied := rfl

/-- One more apply is entered behind those before it. -/
theorem record (h : p.Tracks start as) (applied observed : Cluster) (state : ResourceState) :
    Tracks start (as ++ [⟨as.length, state, applied⟩])
      { applied, observed, ledger := Ledger.record p.ledger as.length state } where
  indices := by
    rw [List.map_append, h.indices, List.length_append]
    exact List.range_succ.symm
  entries := by
    have hgt : ∀ x ∈ p.ledger.entries, compare as.length x.1 = .gt := by
      rw [h.entries]
      intro x hx
      exact Nat.compare_eq_gt.2 (entry_fst_lt h.indices x hx)
    rw [List.map_append, ← h.entries]
    exact SortedMap.insertEntry_of_forall_gt hgt
  applied := by simp [lastApplied]

/-- The cleanup goes through the applies from the last to the first. -/
theorem latestFirst_eq (h : p.Tracks start as) :
    Ledger.latestFirst p.ledger = (as.map Application.entry).reverse := by
  rw [Ledger.latestFirst, h.entries]

end Progress.Tracks

variable {resource : Resource} {index n : Nat} {start : Cluster} {as : List Application}
  {p q : Progress} {log : WalkRecord} {b : Setback}

theorem Resource.setback?_eq_none (index : Nat) {observed : Cluster}
    {answer : Except CloudError (Cluster × ResourceState)} {x : Cluster × ResourceState}
    (h : resource.found observed answer = .ok x) :
    WalkExchange.setback? ⟨.call (.actual index observed), answer⟩ = none := by
  cases answer with
  | ok found => rfl
  | error e => exact if_pos (isNotFound_of_found h)

theorem Resource.look?_eq_some (index : Nat) {observed : Cluster}
    {answer : Except CloudError (Cluster × ResourceState)} {x : Cluster × ResourceState}
    (h : resource.found observed answer = .ok x) :
    ∃ there, WalkExchange.look? ⟨.call (.actual index observed), answer⟩ =
      some (index, there) := by
  cases answer with
  | ok found => exact ⟨_, rfl⟩
  | error e =>
    have hnone : WalkExchange.presence? (.error e) = some false :=
      if_pos (isNotFound_of_found h)
    exact ⟨false, congrArg (Option.map _) hnone⟩

namespace Settles

theorem quiet (h : Settles resource index p log q) : log.Quiet := by
  obtain ⟨h⟩ := h
  have hlook := Resource.setback?_eq_none index h
  simp only [WalkRecord.Quiet, List.forall_mem_cons]
  exact ⟨rfl, rfl, hlook, rfl, rfl, List.forall_mem_nil _⟩

theorem deletions_eq (h : Settles resource index p log q) : log.deletions = [] := by
  obtain ⟨h⟩ := h
  rfl

theorem settled_eq (h : Settles resource index p log q) : log.settled = [index] := by
  obtain ⟨h⟩ := h
  rfl

theorem looks_eq (h : Settles resource index p log q) : log.looks.map (·.1) = [index] := by
  obtain ⟨h⟩ := h
  obtain ⟨there, hlook⟩ := Resource.look?_eq_some index h
  rw [WalkRecord.looks, List.filterMap_cons_none rfl, List.filterMap_cons_none rfl,
    List.filterMap_cons_some hlook]
  rfl

theorem tracks (h : Settles resource as.length p log q) (hp : p.Tracks start as) :
    q.Tracks start (as ++ log.applications) ∧
      (as ++ log.applications).length = as.length + 1 := by
  obtain ⟨h⟩ := h
  exact ⟨hp.record _ _ _, List.length_append⟩

end Settles

namespace GivesUp

/-- The exchange that makes the pass give up comes last, and it is with the resource. -/
theorem eq_append (h : GivesUp resource index p log b q) :
    ∃ (init : WalkRecord) (x : WalkExchange), log = init ++ [x] ∧ init.Quiet ∧
      WalkExchange.setback? x = some b ∧
      (∀ c, x.question = .call c → c.index = index) ∧
      (x.question = .poll → init = []) := by
  cases h with
  | @interrupted signal h =>
    refine ⟨[], _, rfl, List.forall_mem_nil _, ?_, fun c hc => ?_, fun _ => rfl⟩
    · exact if_pos h
    · cases hc
  | expected =>
    refine ⟨[_], _, rfl, ?_, rfl, fun c hc => ?_, fun hq => ?_⟩
    · exact List.forall_mem_singleton.2 rfl
    · cases hc
      rfl
    · cases hq
  | actual h =>
    refine ⟨[_, _], _, rfl, ?_, ?_, fun c hc => ?_, fun hq => ?_⟩
    · simp only [WalkRecord.Quiet, List.forall_mem_cons]
      exact ⟨rfl, rfl, List.forall_mem_nil _⟩
    · simp [WalkExchange.setback?, h]
    · cases hc
      rfl
    · cases hq
  | apply h =>
    have hlook := Resource.setback?_eq_none index h
    refine ⟨[_, _, _], _, rfl, ?_, rfl, fun c hc => ?_, fun hq => ?_⟩
    · simp only [WalkRecord.Quiet, List.forall_mem_cons]
      exact ⟨rfl, rfl, hlook, List.forall_mem_nil _⟩
    · cases hc
      rfl
    · cases hq
  | render h =>
    have hlook := Resource.setback?_eq_none index h
    refine ⟨[_, _, _, _], _, rfl, ?_, rfl, fun c hc => ?_, fun hq => ?_⟩
    · simp only [WalkRecord.Quiet, List.forall_mem_cons]
      exact ⟨rfl, rfl, hlook, rfl, List.forall_mem_nil _⟩
    · cases hc
      rfl
    · cases hq

theorem deletions_eq (h : GivesUp resource index p log b q) : log.deletions = [] := by
  cases h <;> rfl

theorem settled_eq (h : GivesUp resource index p log b q) : log.settled = [] := by
  cases h <;> rfl

/-- A resource that was applied was looked up before. -/
theorem looks_eq (h : GivesUp resource index p log b q) :
    log.looks.map (·.1) = [index] ∧ log.applications.length ≤ 1 ∨
      log.looks.map (·.1) = [] ∧ log.applications = [] := by
  cases h with
  | interrupted h => exact .inr ⟨rfl, rfl⟩
  | expected => exact .inr ⟨rfl, rfl⟩
  | @actual c expected e h =>
    have hnone : WalkExchange.presence? (.error e) = none := if_neg (by simp [h])
    have hlook : WalkExchange.look? ⟨.call (.actual index p.observed), .error e⟩ = none :=
      congrArg (Option.map _) hnone
    refine .inr ⟨?_, rfl⟩
    rw [WalkRecord.looks, List.filterMap_cons_none rfl, List.filterMap_cons_none rfl,
      List.filterMap_cons_none hlook]
    rfl
  | apply h =>
    obtain ⟨there, hlook⟩ := Resource.look?_eq_some index h
    refine .inl ⟨?_, Nat.zero_le 1⟩
    rw [WalkRecord.looks, List.filterMap_cons_none rfl, List.filterMap_cons_none rfl,
      List.filterMap_cons_some hlook]
    rfl
  | render h =>
    obtain ⟨there, hlook⟩ := Resource.look?_eq_some index h
    refine .inl ⟨?_, Nat.le_refl 1⟩
    rw [WalkRecord.looks, List.filterMap_cons_none rfl, List.filterMap_cons_none rfl,
      List.filterMap_cons_some hlook]
    rfl

theorem tracks (h : GivesUp resource as.length p log b q) (hp : p.Tracks start as) :
    q.Tracks start (as ++ log.applications) := by
  cases h with
  | render h => exact hp.record _ _ _
  | _ =>
    change p.Tracks start (as ++ [])
    rwa [List.append_nil]

end GivesUp

/-! ## Records of whole passes -/

/-- The record brings the resources below an index to what they should be, one after the
other: each poll is idle, and no call to a resource fails, unless a look finds that it is not
there. -/
inductive SettledUpTo : WalkRecord → Nat → Prop
  | zero : SettledUpTo [] 0
  | succ {log : WalkRecord} {n : Nat} {c₁ c₂ c₃ c₄ c₅ : Cluster}
      {actual expected state : ResourceState} {x y : Cluster × ResourceState}
      {answer : Except CloudError (Cluster × ResourceState)} (h : SettledUpTo log n)
      (ha : ∀ e, answer = .error e → e.isNotFound = true) :
      SettledUpTo (log ++
        [⟨.poll, .idle⟩, ⟨.call (.expected n c₁), .ok x⟩, ⟨.call (.actual n c₂), answer⟩,
          ⟨.call (.apply n actual expected c₃), .ok y⟩,
          ⟨.call (.render n state c₄), .ok c₅⟩]) (n + 1)

namespace Advances

variable {rest rest' : List Resource} {front : WalkRecord}

theorem quiet (h : Advances rest index p log rest' n q) : log.Quiet := by
  induction h with
  | refl rest index p => exact List.forall_mem_nil _
  | step h hs ih => exact WalkRecord.quiet_append.2 ⟨h.quiet, ih⟩

theorem deletions_eq (h : Advances rest index p log rest' n q) : log.deletions = [] := by
  induction h with
  | refl rest index p => rfl
  | step h hs ih => rw [WalkRecord.deletions_append, h.deletions_eq, ih, List.append_nil]

theorem settled_eq (h : Advances rest index p log rest' n q) :
    List.range index ++ log.settled = List.range n := by
  induction h with
  | refl rest index p => exact List.append_nil _
  | step h hs ih =>
    rw [WalkRecord.settled_append, h.settled_eq, ← List.append_assoc, ← List.range_succ]
    exact ih

theorem looks_eq (h : Advances rest index p log rest' n q) :
    List.range index ++ log.looks.map (·.1) = List.range n := by
  induction h with
  | refl rest index p => exact List.append_nil _
  | step h hs ih =>
    rw [WalkRecord.looks_append, List.map_append, h.looks_eq, ← List.append_assoc,
      ← List.range_succ]
    exact ih

theorem tracks (h : Advances rest index p log rest' n q) (hi : as.length = index)
    (hp : p.Tracks start as) :
    q.Tracks start (as ++ log.applications) ∧ (as ++ log.applications).length = n := by
  induction h generalizing as with
  | refl rest index p =>
    change p.Tracks start (as ++ []) ∧ (as ++ []).length = index
    rw [List.append_nil]
    exact ⟨hp, hi⟩
  | step h hs ih =>
    subst hi
    obtain ⟨hq, hlen⟩ := h.tracks hp
    rw [WalkRecord.applications_append, ← List.append_assoc]
    exact ih hlen hq

/-- The resources that are left are those of the graph from the index on. -/
theorem drop_eq {graph : Graph} (h : Advances rest index p log rest' n q)
    (hd : graph.drop index = rest) : graph.drop n = rest' := by
  induction h with
  | refl rest index p => exact hd
  | @step resource rest rest' index n p q p' front log h hs ih =>
    refine ih ?_
    rw [← List.tail_drop, hd]
    rfl

theorem settledUpTo (h : Advances rest index p log rest' n q) (hf : SettledUpTo front index) :
    SettledUpTo (front ++ log) n := by
  induction h generalizing front with
  | refl rest index p => simpa using hf
  | step h hs ih =>
    rw [← List.append_assoc]
    refine ih ?_
    obtain ⟨h⟩ := h
    refine .succ hf fun e he => ?_
    subst he
    exact Resource.isNotFound_of_found h

end Advances

/-- Where a pass gave up, and for what: at an exchange with the resource `n` behind which the
resources before it were settled and nothing had gone wrong. -/
structure GaveUpAt (before : WalkRecord) (trigger : WalkExchange) (n : Nat) (b : Setback) :
    Prop where
  quiet : before.Quiet
  settled : before.settled = List.range n
  setback : WalkExchange.setback? trigger = some b
  index_eq : ∀ c, trigger.question = .call c → c.index = n
  settledUpTo : trigger.question = .poll → SettledUpTo before n

/-- The record of a pass that gave up. Up to there nothing was deleted; behind it the applies
are undone from the last to the first, as far as that goes. -/
structure GivenUp (r : Reconciler) (start : Cluster) (before : WalkRecord)
    (trigger : WalkExchange) (after : WalkRecord) (n : Nat) (b : Setback)
    (o : Option (Except CleanupError Cluster)) : Prop extends GaveUpAt before trigger n b where
  untouched : (before ++ [trigger]).deletions = []
  cleans : after.OnlyCleans
  looks : ∃ m, (before ++ [trigger]).looks.map (·.1) = List.range m ∧
    (before ++ [trigger]).applications.length ≤ m
  indices : (before ++ [trigger]).applications.map (·.index) =
    List.range (before ++ [trigger]).applications.length
  unwinds : Unwinds r ((before ++ [trigger]).applications.map Application.entry).reverse
    (lastApplied start (before ++ [trigger]).applications) after.deletions o

namespace GivenUp

variable {r : Reconciler} {before after : WalkRecord} {trigger : WalkExchange}
  {o : Option (Except CleanupError Cluster)}

theorem endPhase (h : GivenUp r start before trigger after n b o) :
    GivenUp r start before trigger (after ++ [⟨.endPhase, ()⟩]) n b o where
  toGaveUpAt := h.toGaveUpAt
  untouched := h.untouched
  cleans := WalkRecord.onlyCleans_append.2 ⟨h.cleans, List.forall_mem_singleton.2 rfl⟩
  looks := h.looks
  indices := h.indices
  unwinds := by
    have hdels : WalkRecord.deletions (after ++ [⟨.endPhase, ()⟩]) = after.deletions := by
      rw [WalkRecord.deletions_append]
      exact List.append_nil _
    rw [hdels]
    exact h.unwinds

/-- All applies come before the cleanup. -/
theorem applications_eq (h : GivenUp r start before trigger after n b o) :
    WalkRecord.applications (before ++ trigger :: after) =
      (before ++ [trigger]).applications := by
  rw [List.append_cons, WalkRecord.applications_append, h.cleans.applications_eq,
    List.append_nil]

/-- All deletes come after the exchange at which the pass gave up. -/
theorem deletions_eq (h : GivenUp r start before trigger after n b o) :
    WalkRecord.deletions (before ++ trigger :: after) = after.deletions := by
  rw [List.append_cons, WalkRecord.deletions_append, h.untouched, List.nil_append]

end GivenUp

namespace Reconciler

variable {r : Reconciler} {actual expected : Cluster}

theorem placeAt_eq {rest : List Resource} (h : r.graph.drop n = resource :: rest) :
    r.placeAt n = ⟨n, resource.label⟩ := by
  have hget : r.graph[n]? = some resource := by
    rw [← List.head?_drop, h]
    rfl
  simp [placeAt, List.getD_eq_getElem?_getD, hget]

theorem givenUp_of_advances {rest : List Resource} {settling front back : WalkRecord}
    {p' : Progress} {o : Option (Except CleanupError Cluster)}
    (hadv : Advances r.graph 0 { applied := expected, observed := actual } settling rest n p)
    (hgives : GivesUp resource n p front b p') (hclean : (r.cleanUp p').Ends back o) :
    ∃ before trigger, settling ++ front = before ++ [trigger] ∧
      GivenUp r expected before trigger back n b o := by
  obtain ⟨hp, hn⟩ := hadv.tracks rfl (Progress.Tracks.begin expected actual)
  obtain ⟨init, trigger, hfront, hinit, htrigger, hindex, hpoll⟩ := hgives.eq_append
  obtain ⟨hback, hunwinds⟩ := ends_removeAll hclean
  have hsplit : settling ++ front = (settling ++ init) ++ [trigger] := by
    rw [hfront, List.append_assoc]
  have hp' : p'.Tracks expected ((settling ++ init) ++ [trigger]).applications := by
    subst hn
    rw [← hsplit, WalkRecord.applications_append]
    exact hgives.tracks hp
  refine ⟨settling ++ init, trigger, hsplit, ⟨?_, ?_, htrigger, hindex, ?_⟩, ?_, hback, ?_,
    hp'.indices, ?_⟩
  · exact WalkRecord.quiet_append.2 ⟨hadv.quiet, hinit⟩
  · -- What is done with the resource at which the pass gives up does not settle it.
    have hsettled := hgives.settled_eq
    rw [hfront, WalkRecord.settled_append] at hsettled
    rw [WalkRecord.settled_append, (List.append_eq_nil_iff.1 hsettled).1, List.append_nil]
    exact hadv.settled_eq
  · intro hq
    rw [hpoll hq, List.append_nil]
    exact hadv.settledUpTo .zero
  · rw [← hsplit, WalkRecord.deletions_append, hadv.deletions_eq, hgives.deletions_eq]
    rfl
  · have hlooks : settling.looks.map (·.1) = List.range n := hadv.looks_eq
    have hlen : settling.applications.length = n := hn
    rw [← hsplit, WalkRecord.looks_append, List.map_append, hlooks,
      WalkRecord.applications_append, List.length_append, hlen]
    rcases hgives.looks_eq with ⟨hlook, hle⟩ | ⟨hlook, happs⟩
    · refine ⟨n + 1, ?_, by omega⟩
      rw [hlook]
      exact List.range_succ.symm
    · refine ⟨n, ?_, ?_⟩
      · rw [hlook]
        exact List.append_nil _
      · exact Nat.le_of_eq (congrArg (n + List.length ·) happs)
  · rw [← hp'.latestFirst_eq, ← hp'.applied]
    exact hunwinds

/-- The end of a phase comes last in its record, unless the phase is broken off. -/
theorem ends_phase {α : Type} {w : Walk α} {o : Option α} (h : w.phase.Ends log o) :
    ∃ front, w.Ends front o ∧
      (log = front ++ [⟨.endPhase, ()⟩] ∨ log = front ∧ o = none) := by
  rcases ends_bind_iff.1 h with ⟨x, front, back, rfl, hw, hend⟩ | ⟨hw, rfl⟩
  · obtain ⟨u, rest, rfl, hdone⟩ := ends_question_bind_iff.1 hend
    obtain ⟨rfl, rfl⟩ := ends_done_iff.1 hdone
    exact ⟨front, hw, .inl rfl⟩
  · exact ⟨log, hw, .inr ⟨rfl, rfl⟩⟩

/-- Every record of a pass that does not succeed has an exchange at which the pass gave up,
and a cleanup behind it. -/
theorem ends_reconcile {res : Option (Except ReconcileError Cluster)}
    (h : (r.reconcile actual expected).Ends log res) :
    (∃ c, res = some (.ok c) ∧ log.Quiet ∧ log.deletions = []) ∨ ∃
      before trigger after n b o, log = before ++ trigger :: after ∧
        GivenUp r expected before trigger after n b o ∧
        res = o.map fun y => .error (b.report (r.placeAt n) y) := by
  obtain ⟨front, hw, hlog⟩ := ends_phase h
  split at hw
  · -- Without a difference nothing is done, and the phase ends.
    obtain ⟨rfl, rfl⟩ := ends_done_iff.1 hw
    rcases hlog with rfl | ⟨-, ho⟩
    · exact .inl ⟨expected, rfl, List.forall_mem_singleton.2 rfl, rfl⟩
    · cases ho
  · obtain ⟨settling, back, rest, n, p, rfl, hadv, hend⟩ := ends_applyFrom hw
    cases hend with
    | finished =>
      rcases hlog with rfl | ⟨-, ho⟩
      · refine .inl ⟨_, rfl, ?_, ?_⟩
        · rw [List.append_nil]
          exact WalkRecord.quiet_append.2 ⟨hadv.quiet, List.forall_mem_singleton.2 rfl⟩
        · rw [List.append_nil, WalkRecord.deletions_append, hadv.deletions_eq]
          rfl
      · cases ho
    | @gaveUp resource rest n p q front back b o hgives hclean =>
      obtain ⟨before, trigger, hfront, hgiven⟩ := givenUp_of_advances hadv hgives hclean
      rw [← List.append_assoc, hfront] at hlog
      rw [← placeAt_eq (hadv.drop_eq rfl)]
      -- The end of the phase belongs to the cleanup, unless that was broken off.
      rcases hlog with rfl | ⟨rfl, -⟩
      · exact .inr ⟨before, trigger, _, n, b, o, by simp, hgiven.endPhase, rfl⟩
      · exact .inr ⟨before, trigger, back, n, b, o, by simp, hgiven, rfl⟩

/-- A pass that fails gave up somewhere, and its error tells where, what for, and what its
cleanup came to. -/
theorem givenUp_of_ends {e : ReconcileError}
    (h : (r.reconcile actual expected).Ends log (some (.error e))) :
    ∃ before trigger after n b y, log = before ++ trigger :: after ∧
      GivenUp r expected before trigger after n b (some y) ∧ e = b.report (r.placeAt n) y := by
  rcases ends_reconcile h with
    ⟨c, hres, -⟩ | ⟨before, trigger, after, n, b, o, rfl, hgiven, hres⟩
  · cases hres
  · cases o with
    | none => cases hres
    | some y =>
      cases hres
      exact ⟨before, trigger, after, n, b, y, rfl, hgiven, rfl⟩

end Reconciler

end ClusterKeeper
