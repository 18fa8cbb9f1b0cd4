/-
# Building the graph of a cluster

A registry knows the factory that was registered last for each cloud and kind. The graph of a
cluster is what its cloud's factories build in the order in which resources depend on one another:
what comes before the pools, then pool by pool what a pool has, then what comes behind the pools.
The resources are then tagged in that order. Both go on up to the first failure, which is what
building the graph comes to.
-/

import ClusterKeeper.Graph.Registry
import ClusterKeeper.Proofs.Records
import Mathlib.Data.List.Induction

namespace ClusterKeeper

open Dialogue (Answered stateAfter ends_question_bind_iff ends_bind_iff ends_done_iff)

variable {φ : Type}

/-! ## Registrations -/

/-- A factory is registered for a cloud and a kind. -/
structure Registration (φ : Type) where
  cloud : String
  kind : ResourceKind
  factory : φ

namespace Registration

variable {registrations : List (Registration φ)} {cloud : String} {kind : ResourceKind}

/-- The factory that was registered last for a cloud and kind. -/
def latest? (registrations : List (Registration φ)) (cloud : String) (kind : ResourceKind) :
    Option φ :=
  (registrations.filter fun x => x.cloud = cloud ∧ x.kind = kind).getLast?.map (·.factory)

theorem exists_of_latest? {f : φ} (h : latest? registrations cloud kind = some f) :
    ∃ x ∈ registrations, x.cloud = cloud ∧ x.kind = kind ∧ x.factory = f := by
  obtain ⟨x, hx, rfl⟩ := Option.map_eq_some_iff.1 h
  obtain ⟨hmem, hkey⟩ := List.mem_filter.1 (List.mem_of_getLast? hx)
  obtain ⟨hcloud, hkind⟩ := of_decide_eq_true hkey
  exact ⟨x, hmem, hcloud, hkind, rfl⟩

theorem isSome_latest?_iff : (latest? registrations cloud kind).isSome = true ↔
    ∃ x ∈ registrations, x.cloud = cloud ∧ x.kind = kind := by
  simp [latest?]

end Registration

namespace Registry

open Registration (latest?)

/-- A lookup passes over the entries of another key. -/
theorem lookup_filter_ne {κ α : Type} [BEq κ] [LawfulBEq κ] {key other : κ} (h : key ≠ other)
    (entries : List (κ × α)) :
    (entries.filter (·.1 != other)).lookup key = entries.lookup key := by
  induction entries with
  | nil => rfl
  | cons x entries ih =>
    obtain ⟨k, a⟩ := x
    by_cases hk : k = other
    · -- the entry is left out on the left and passed over on the right
      rw [List.filter_cons_of_neg (by simp [hk]), ih, List.lookup_cons, hk,
        beq_eq_false_iff_ne.2 h]
    · rw [List.filter_cons_of_pos (by simp [hk]), List.lookup_cons, List.lookup_cons, ih]

theorem factory?_register (r : Registry φ) (cloud cloud' : String) (kind kind' : ResourceKind)
    (factory : φ) :
    (r.register cloud kind factory).factory? cloud' kind' =
      if cloud = cloud' ∧ kind = kind' then some factory else r.factory? cloud' kind' := by
  rw [register, factory?, List.lookup_cons]
  by_cases h : (cloud', kind') = (cloud, kind)
  · obtain ⟨rfl, rfl⟩ := Prod.mk.inj h
    simp
  · rw [beq_eq_false_iff_ne.2 h, lookup_filter_ne h, if_neg]
    · rfl
    · rintro ⟨rfl, rfl⟩
      exact h rfl

/-- A cloud is supported if one of its kinds is. -/
theorem supportsCloud_iff (r : Registry φ) (cloud : String) :
    r.supportsCloud cloud = true ↔ ∃ kind, r.supports cloud kind = true := by
  simp only [supportsCloud, List.any_eq_true, beq_iff_eq, supports, factory?,
    List.lookup_isSome_iff]
  constructor
  · rintro ⟨x, hx, rfl⟩
    exact ⟨x.1.2, x, hx, rfl⟩
  · rintro ⟨kind, x, hx, hkey⟩
    exact ⟨x, hx, congrArg Prod.fst hkey.symm⟩

/-- The registry behind registrations, the earliest first. -/
def ofRegistrations (registrations : List (Registration φ)) : Registry φ :=
  registrations.foldl (fun r x => r.register x.cloud x.kind x.factory) {}

theorem factory?_ofRegistrations (registrations : List (Registration φ)) (cloud : String)
    (kind : ResourceKind) :
    (ofRegistrations registrations).factory? cloud kind = latest? registrations cloud kind := by
  induction registrations using List.reverseRecOn with
  | nil => rfl
  | append_singleton registrations x ih =>
    rw [ofRegistrations, latest?] at ih
    rw [ofRegistrations, List.foldl_append, List.foldl_cons, List.foldl_nil, factory?_register,
      latest?, List.filter_append]
    by_cases h : x.cloud = cloud ∧ x.kind = kind
    · rw [if_pos h, List.filter_cons_of_pos (by simp [h]), List.filter_nil, List.getLast?_concat]
      rfl
    · rw [if_neg h, ih, List.filter_cons_of_neg (by simp [h]), List.filter_nil, List.append_nil]

theorem supportsCloud_ofRegistrations (registrations : List (Registration φ)) (cloud : String) :
    (ofRegistrations registrations).supportsCloud cloud = true ↔
      ∃ x ∈ registrations, x.cloud = cloud := by
  simp only [supportsCloud_iff, supports, factory?_ofRegistrations,
    Registration.isSome_latest?_iff]
  constructor
  · rintro ⟨kind, x, hx, hcloud, -⟩
    exact ⟨x, hx, hcloud⟩
  · rintro ⟨x, hx, hcloud⟩
    exact ⟨x.kind, x, hx, hcloud, rfl⟩

end Registry

/-! ## The order of a graph -/

namespace ResourceKind

/-- What a pool has, in order. -/
def poolSlots (p : ServerPool) : List (ResourceKind × Option ServerPool) :=
  [(.subnet, some p), (.firewall, some p), (.iamRole, some p), (.instanceGroup, some p)]

/-- What a cluster with some pools has, in the order in which it depends on one another: each
kind with the pool that it is for. -/
def slots (pools : List ServerPool) : List (ResourceKind × Option ServerPool) :=
  [(.keyPair, none), (.network, none)] ++ pools.flatMap poolSlots ++ [(.loadBalancer, none)]

end ResourceKind

open ResourceKind (slots)

theorem Registry.order_eq (r : Registry φ) (c : Cluster) :
    r.order c = (slots c.pools).filterMap fun slot =>
      (r.factory? c.cloud slot.1).map (·, slot.2) := by
  have hpool (p : ServerPool) : ResourceKind.poolSlots p =
      ResourceKind.perPool.map (·, some p) := rfl
  rw [order, slots, List.filterMap_append, List.filterMap_append, List.filterMap_flatMap]
  simp only [hpool, List.filterMap_map]
  rfl

/-! ## Attempts one after the other -/

/-- Attempts are made in order, up to the first that fails, and what each of them gives is
kept. -/
inductive InTurn {ι β X : Type} (attempt : ι → Except CloudError β → X) :
    List ι → List X → Except CloudError (List β) → Prop
  | through (items : List ι) (results : List β) (h : results.length = items.length) :
      InTurn attempt items (List.zipWith (fun i b => attempt i (.ok b)) items results)
        (.ok results)
  | failed (before : List ι) (i : ι) (rest : List ι) (results : List β) (e : CloudError)
      (h : results.length = before.length) :
      InTurn attempt (before ++ i :: rest)
        (List.zipWith (fun i b => attempt i (.ok b)) before results ++ [attempt i (.error e)])
        (.error e)

namespace InTurn

variable {ι β X : Type} {attempt : ι → Except CloudError β → X} {items : List ι} {log : List X}

theorem nil : InTurn attempt [] [] (.ok []) := through [] [] rfl

theorem fails (i : ι) (rest : List ι) (e : CloudError) :
    InTurn attempt (i :: rest) [attempt i (.error e)] (.error e) :=
  failed [] i rest [] e rfl

theorem cons {x : Except CloudError (List β)} (h : InTurn attempt items log x) (i : ι) (b : β) :
    InTurn attempt (i :: items) (attempt i (.ok b) :: log) (x.map (b :: ·)) := by
  cases h with
  | through items results h =>
    exact through (i :: items) (b :: results) (congrArg (· + 1) h)
  | failed before j rest results e h =>
    exact failed (i :: before) j rest (b :: results) e (congrArg (· + 1) h)

end InTurn

/-- A question that is asked while a graph is built, with its answer. -/
abbrev GraphExchange (φ : Type) := Dialogue.Exchange (GraphQuestion.Answer (φ := φ))

namespace GraphExchange

/-- A factory is called for a cluster and perhaps one of its pools. -/
def building (c : Cluster) (call : φ × Option ServerPool) (answer : Except CloudError Resource) :
    GraphExchange φ :=
  ⟨.build call.1 c call.2, answer⟩

/-- A resource is tagged. -/
def tagging (tags : Tags) (resource : Resource) (answer : Except CloudError Unit) :
    GraphExchange φ :=
  ⟨.tag resource tags, answer⟩

end GraphExchange

open GraphExchange (building tagging)

variable {c : Cluster} {calls : List (φ × Option ServerPool)} {graph : Graph}
  {log : List (GraphExchange φ)}

theorem Registry.ends_buildAll {o : Option (Except CloudError Graph)}
    (h : (buildAll c calls).Ends log o) : ∃ x, o = some x ∧ InTurn (building c) calls log x := by
  induction calls generalizing log o with
  | nil =>
    obtain ⟨rfl, rfl⟩ := ends_done_iff.1 h
    exact ⟨_, rfl, .nil⟩
  | cons call rest ih =>
    obtain ⟨answer, log', rfl, hrest⟩ := ends_question_bind_iff.1 h
    cases answer with
    | error e =>
      obtain ⟨rfl, rfl⟩ := ends_done_iff.1 hrest
      exact ⟨_, rfl, .fails call rest e⟩
    | ok resource =>
      -- putting the resource in front of the others asks nothing more
      obtain ⟨o', hall, rfl⟩ := Dialogue.Ends.of_bind_done (g := Except.map (resource :: ·))
        (fun x => by cases x <;> rfl) hrest
      obtain ⟨x, rfl, hx⟩ := ih hall
      exact ⟨_, rfl, hx.cons call resource⟩

theorem Graph.ends_tag {tags : Tags} {o : Option (Except CloudError Unit)}
    (h : (graph.tag tags).Ends log o) :
    ∃ x, o = some (x.map fun _ => ()) ∧ InTurn (tagging tags) graph log x := by
  induction graph generalizing log with
  | nil =>
    obtain ⟨rfl, rfl⟩ := ends_done_iff.1 h
    exact ⟨_, rfl, .nil⟩
  | cons resource rest ih =>
    obtain ⟨answer, log', rfl, hrest⟩ := ends_question_bind_iff.1 h
    cases answer with
    | error e =>
      obtain ⟨rfl, rfl⟩ := ends_done_iff.1 hrest
      exact ⟨.error e, rfl, .fails resource rest e⟩
    | ok u =>
      obtain ⟨x, rfl, hx⟩ := ih hrest
      exact ⟨x.map (() :: ·), by cases x <;> rfl, hx.cons resource ()⟩

/-! ## Whole graphs -/

/-- A graph is built by calls of factories: one of them fails, or the graph is what they built,
unless it is to be tagged and that fails. -/
inductive Builds (c : Cluster) (calls : List (φ × Option ServerPool)) :
    List (GraphExchange φ) → Except CloudError Graph → Prop
  | failed {log : List (GraphExchange φ)} {e : CloudError}
      (h : InTurn (building c) calls log (.error e)) : Builds c calls log (.error e)
  | untagged {log : List (GraphExchange φ)} {graph : Graph}
      (h : InTurn (building c) calls log (.ok graph)) (ht : c.tags = ∅) :
      Builds c calls log (.ok graph)
  | tagged {log more : List (GraphExchange φ)} {graph : Graph}
      {x : Except CloudError (List Unit)} (h : InTurn (building c) calls log (.ok graph))
      (ht : c.tags ≠ ∅) (hs : InTurn (tagging c.tags) graph more x) :
      Builds c calls (log ++ more) (x.map fun _ => graph)

namespace Registry

theorem ends_buildGraph {r : Registry φ} {o : Option (Except CloudError Graph)}
    (hcloud : r.supportsCloud c.cloud = true) (h : (r.buildGraph c).Ends log o) :
    ∃ x, o = some x ∧ Builds c (r.order c) log x := by
  rw [buildGraph, if_pos hcloud] at h
  rcases ends_bind_iff.1 h with ⟨built, front, back, rfl, hfront, hback⟩ | ⟨hfront, -⟩
  · obtain ⟨x, hx, hbuilt⟩ := ends_buildAll hfront
    cases hx
    cases built with
    | error e =>
      obtain ⟨rfl, rfl⟩ := ends_done_iff.1 hback
      rw [List.append_nil]
      exact ⟨_, rfl, .failed hbuilt⟩
    | ok graph =>
      dsimp only at hback
      split at hback
      · next ht =>
        obtain ⟨rfl, rfl⟩ := ends_done_iff.1 hback
        rw [List.append_nil]
        exact ⟨_, rfl, .untagged hbuilt (SortedMap.isEmpty_iff.1 ht)⟩
      · next ht =>
        obtain ⟨o', htag, rfl⟩ := Dialogue.Ends.of_bind_done (g := Except.map fun _ => graph)
          (fun x => by cases x <;> rfl) hback
        obtain ⟨x, rfl, hx⟩ := Graph.ends_tag htag
        refine ⟨x.map fun _ => graph, by cases x <;> rfl, ?_⟩
        exact .tagged hbuilt (mt SortedMap.isEmpty_iff.2 ht) hx
  · -- factories are called to the end, so the building is not broken off
    obtain ⟨x, hx, -⟩ := ends_buildAll hfront
    cases hx

/-- Without a factory for its cloud, a cluster has no graph, and nobody is asked. -/
theorem buildGraph_of_unsupported {r : Registry φ} (h : r.supportsCloud c.cloud = false) :
    r.buildGraph c = .done (.error (.providerNotFound c.cloud)) := by
  rw [buildGraph, h]
  rfl

/-- What a cluster has that a cloud has factories for, in order: the latest factory for each kind,
and the pool that it is to build for. -/
def canonicalCalls (registrations : List (Registration φ)) (c : Cluster) :
    List (φ × Option ServerPool) :=
  (slots c.pools).filterMap fun slot =>
    (Registration.latest? registrations c.cloud slot.1).map (·, slot.2)

/-- Building a graph comes to an end with every world, whatever factories were registered and
however they and the resources behave. If none is registered for the cluster's cloud, nobody is
asked; otherwise the factories are called in the order of what the cluster has, and what they
built is tagged in that order, up to the first failure. -/
theorem buildGraph_builds {σ : Type} (world : (q : GraphQuestion φ) → σ → q.Answer × σ) (s : σ)
    (registrations : List (Registration φ)) (c : Cluster) :
    ∃ log x, ((ofRegistrations registrations).buildGraph c).play world s =
        (some x, log, stateAfter world log s) ∧ Answered world log s ∧
      ((∀ y ∈ registrations, y.cloud ≠ c.cloud) ∧ log = [] ∧
          x = .error (.providerNotFound c.cloud) ∨
        (∃ y ∈ registrations, y.cloud = c.cloud) ∧
          Builds c (canonicalCalls registrations c) log x) := by
  rcases hrun : ((ofRegistrations registrations).buildGraph c).play world s with ⟨o, log, s'⟩
  obtain ⟨hends, hanswered, rfl⟩ := Dialogue.play_eq_iff.1 hrun
  have hsupports := supportsCloud_ofRegistrations registrations c.cloud
  cases hcloud : (ofRegistrations registrations).supportsCloud c.cloud with
  | false =>
    -- A cloud that is not supported is one that no registration is for.
    rw [buildGraph_of_unsupported hcloud] at hends
    obtain ⟨rfl, rfl⟩ := ends_done_iff.1 hends
    refine ⟨[], _, rfl, hanswered, .inl ⟨fun y hy hcl => ?_, rfl, rfl⟩⟩
    rw [hcloud] at hsupports
    cases hsupports.2 ⟨y, hy, hcl⟩
  | true =>
    obtain ⟨x, rfl, hbuilds⟩ := ends_buildGraph hcloud hends
    rw [order_eq] at hbuilds
    simp only [factory?_ofRegistrations] at hbuilds
    exact ⟨log, x, rfl, hanswered, .inr ⟨hsupports.1 hcloud, hbuilds⟩⟩

end Registry

end ClusterKeeper
