/-
# Resources that are told apart

Kinds are told apart by their place in the order of a graph, and resources of one kind by their
names. If factories build the kinds that they are registered for and name what they build for a
pool after the pool, the names of a kind in a graph are those of the pools. So no resource is in
the graph twice if no two pools have the same name, as in every valid cluster, and otherwise some
resource is, if the cloud has any factory for pools.
-/

import ClusterKeeper.Proofs.Cluster.Validity
import ClusterKeeper.Proofs.Graph.Building
import Mathlib.Data.List.Forall2
import Mathlib.Data.List.Nodup

namespace ClusterKeeper

open ResourceKind (slots)

variable {φ σ : Type} {c : Cluster} {r : Registry φ} {graph : Graph} {k : ResourceKind} {f : φ}

/-! ## Names by kind -/

namespace Graph

/-- The names of the resources of a kind, in order. -/
def namesOf (g : Graph) (k : ResourceKind) : List String :=
  (g.filter (·.kind = k)).map (·.name)

/-- What resources are told apart by. -/
def keys (g : Graph) : List (ResourceKind × String) := g.map fun x => (x.kind, x.name)

/-- Resources are told apart if those of each kind are. -/
theorem nodup_keys_iff (g : Graph) : g.keys.Nodup ↔ ∀ k, (g.namesOf k).Nodup := by
  simp only [keys, namesOf, List.Nodup, List.pairwise_map, List.pairwise_filter]
  -- both sides compare a resource with a later one, the right one only if the kinds are equal
  simp only [List.pairwise_iff_forall_sublist, decide_eq_true_eq]
  constructor
  · intro h k x y hxy hx hy hname
    exact h hxy (Prod.ext (hx.trans hy.symm) hname)
  · intro h x y hxy hkey
    obtain ⟨hkind, hname⟩ := Prod.mk.inj hkey
    exact h y.kind hxy hkind rfl hname

end Graph

/-! ## Slots by kind -/

namespace ResourceKind

theorem filter_poolSlots (p : ServerPool) (k : ResourceKind) :
    (poolSlots p).filter (·.1 = k) = if k.scope = .serverPool then [(k, some p)] else [] := by
  cases k <;> rfl

/-- Of a kind, a cluster has one resource for each pool, in the order of the pools, or one for
itself. -/
theorem filter_slots (pools : List ServerPool) (k : ResourceKind) :
    (slots pools).filter (·.1 = k) =
      if k.scope = .serverPool then pools.map fun p => (k, some p) else [(k, none)] := by
  rw [slots, List.filter_append, List.filter_append, List.filter_flatMap]
  simp only [filter_poolSlots, List.map_eq_flatMap]
  cases k <;> simp [scope]

end ResourceKind

namespace Registry

/-- What a graph has of a cluster, slot by slot, with the factories that build it. -/
def plan (r : Registry φ) (c : Cluster) : List (ResourceKind × φ × Option ServerPool) :=
  (slots c.pools).filterMap fun slot => (r.factory? c.cloud slot.1).map (slot.1, ·, slot.2)

theorem map_plan (r : Registry φ) (c : Cluster) : (r.plan c).map Prod.snd = r.order c := by
  rw [plan, order_eq, List.map_filterMap]
  simp only [Option.map_map]
  rfl

theorem factory?_of_mem_plan {x : ResourceKind × φ × Option ServerPool} (h : x ∈ r.plan c) :
    r.factory? c.cloud x.1 = some x.2.1 := by
  obtain ⟨slot, -, hslot⟩ := List.mem_filterMap.1 h
  obtain ⟨f, hf, rfl⟩ := Option.map_eq_some_iff.1 hslot
  exact hf

theorem filter_plan (r : Registry φ) (c : Cluster) (k : ResourceKind) :
    (r.plan c).filter (·.1 = k) = ((slots c.pools).filter (·.1 = k)).filterMap fun slot =>
      (r.factory? c.cloud k).map (k, ·, slot.2) := by
  rw [plan, List.filter_filterMap, List.filterMap_filter]
  refine List.filterMap_congr fun slot _ => ?_
  by_cases h : slot.1 = k
  · rw [h, if_pos (decide_eq_true rfl)]
    cases r.factory? c.cloud k <;> simp
  · rw [if_neg (by simp [h])]
    cases r.factory? c.cloud slot.1 <;> simp [h]

end Registry

/-! ## What was built -/

theorem InTurn.forall₂ {ι β X : Type} {attempt : ι → Except CloudError β → X} {items : List ι}
    {log : List X} {results : List β} (h : InTurn attempt items log (.ok results)) :
    List.Forall₂ (fun i b => attempt i (.ok b) ∈ log) items results := by
  cases h with
  | through _ _ hlen =>
    refine List.forall₂_iff_zip.2 ⟨hlen.symm, fun {i b} hib => ?_⟩
    rw [← List.map_uncurry_zip_eq_zipWith]
    exact List.mem_map_of_mem (f := Function.uncurry fun i b => attempt i (.ok b)) hib

open GraphExchange (building)

/-- Each resource of a graph is what one of the calls gave. -/
theorem Builds.forall₂ {calls : List (φ × Option ServerPool)} {log : List (GraphExchange φ)}
    (h : Builds c calls log (.ok graph)) :
    List.Forall₂ (fun call resource => building c call (.ok resource) ∈ log) calls graph := by
  generalize hx : Except.ok graph = x at h
  cases h with
  | failed h => cases hx
  | untagged h ht =>
    cases hx
    exact h.forall₂
  | @tagged log more graph' x h ht hs =>
    cases x with
    | error e => cases hx
    | ok u =>
      cases hx
      exact h.forall₂.imp fun call resource hmem => List.mem_append_left more hmem

namespace Registry

variable {world : (q : GraphQuestion φ) → σ → q.Answer × σ}
  {nameOf : ResourceKind → String → String}

/-- The factories for a cluster's cloud build the kinds that they are registered for, and what
they build for a pool has a name made of the name of the pool, different ones for different
names. -/
structure NamesByPool (r : Registry φ) (c : Cluster)
    (world : (q : GraphQuestion φ) → σ → q.Answer × σ)
    (nameOf : ResourceKind → String → String) : Prop where
  kind : ∀ k f, r.factory? c.cloud k = some f → ∀ pool s resource,
    (world (.build f c pool) s).1 = .ok resource → resource.kind = k
  name : ∀ k f, r.factory? c.cloud k = some f → k.scope = .serverPool → ∀ p s resource,
    (world (.build f c (some p)) s).1 = .ok resource → resource.name = nameOf k p.name
  injective : ∀ k : ResourceKind, k.scope = .serverPool → Function.Injective (nameOf k)

/-- The resource is of the kind that was planned and, if it is for a pool, named after it. -/
def Named (nameOf : ResourceKind → String → String)
    (x : ResourceKind × φ × Option ServerPool) (resource : Resource) : Prop :=
  resource.kind = x.1 ∧
    (x.1.scope = .serverPool → ∀ p, x.2.2 = some p → resource.name = nameOf x.1 p.name)

/-- A graph is what was planned, resource by resource. -/
theorem NamesByPool.forall₂ {s s' : σ} {log : List (GraphExchange φ)}
    (hn : r.NamesByPool c world nameOf)
    (hrun : (r.buildGraph c).play world s = (some (.ok graph), log, s')) :
    List.Forall₂ (Named nameOf) (r.plan c) graph := by
  obtain ⟨hends, hanswered, -⟩ := Dialogue.play_eq_iff.1 hrun
  have hcloud : r.supportsCloud c.cloud = true := by
    by_contra h
    rw [buildGraph_of_unsupported (Bool.eq_false_iff.2 h)] at hends
    obtain ⟨-, hx⟩ := Dialogue.ends_done_iff.1 hends
    cases hx
  obtain ⟨x, hx, hbuilds⟩ := ends_buildGraph hcloud hends
  cases hx
  have hbuilt := hbuilds.forall₂
  -- the calls are the plan without its kinds, which say what each factory is registered for
  rw [← map_plan, List.forall₂_map_left_iff] at hbuilt
  have hplan := (List.forall₂_and_left _ _).2 ⟨fun x => factory?_of_mem_plan, hbuilt⟩
  refine hplan.imp fun x resource hx => ?_
  obtain ⟨k, f, pool⟩ := x
  obtain ⟨hf, hmem⟩ := hx
  obtain ⟨s₁, hanswer⟩ := hanswered.exists_answer hmem
  refine ⟨hn.kind k f hf pool s₁ resource hanswer.symm, fun hk p hp => ?_⟩
  cases hp
  exact hn.name k f hf hk p s₁ resource hanswer.symm

/-- The resources of one kind are those that were planned of it. -/
theorem forall₂_filter {plan : List (ResourceKind × φ × Option ServerPool)}
    (h : List.Forall₂ (Named nameOf) plan graph) (k : ResourceKind) :
    List.Forall₂ (Named nameOf) (plan.filter (·.1 = k)) (graph.filter (·.kind = k)) :=
  List.rel_filter (fun x resource hx => by simp [hx.1]) h

/-- Of a kind that the cluster has for itself, there is one resource at most. -/
theorem nodup_namesOf (h : List.Forall₂ (Named nameOf) (r.plan c) graph)
    (hk : k.scope ≠ .serverPool) : (graph.namesOf k).Nodup := by
  have hlen : (graph.namesOf k).length ≤ 1 :=
    calc
      (graph.namesOf k).length = ((r.plan c).filter (·.1 = k)).length := by
        rw [Graph.namesOf, List.length_map, (forall₂_filter h k).length_eq]
      _ ≤ ((slots c.pools).filter (·.1 = k)).length := by
        rw [filter_plan]
        exact List.length_filterMap_le _ _
      _ = 1 := by
        rw [ResourceKind.filter_slots, if_neg hk]
        rfl
  match hnames : graph.namesOf k with
  | [] => exact List.nodup_nil
  | [name] => exact List.nodup_singleton name
  | _ :: _ :: _ =>
    rw [hnames] at hlen
    simp at hlen

/-- Of a kind that the cloud has no factory for, there is none. -/
theorem namesOf_of_unsupported (h : List.Forall₂ (Named nameOf) (r.plan c) graph)
    (hf : r.factory? c.cloud k = none) : graph.namesOf k = [] := by
  have hkind := forall₂_filter h k
  rw [filter_plan] at hkind
  simp only [hf, Option.map_none, List.filterMap_none, List.forall₂_nil_left_iff] at hkind
  rw [Graph.namesOf, hkind, List.map_nil]

/-- Of a kind that there is for every pool, the names are those of the pools. -/
theorem namesOf_of_supported (h : List.Forall₂ (Named nameOf) (r.plan c) graph)
    (hk : k.scope = .serverPool) (hf : r.factory? c.cloud k = some f) :
    graph.namesOf k = (c.pools.map (·.name)).map (nameOf k) := by
  have hplan : (r.plan c).filter (·.1 = k) = c.pools.map fun p => (k, f, some p) := by
    rw [filter_plan, ResourceKind.filter_slots, if_pos hk, List.filterMap_map]
    simp only [hf, Option.map_some, Function.comp_def, List.filterMap_eq_map']
  have hkind := forall₂_filter h k
  rw [hplan, List.forall₂_map_left_iff] at hkind
  have hnames : List.Forall₂ (fun p resource => nameOf k p.name = Resource.name resource)
      c.pools (graph.filter (·.kind = k)) :=
    hkind.imp fun p resource hx => (hx.2 hk p rfl).symm
  rw [Graph.namesOf, List.map_map, eq_comm, ← List.forall₂_eq_eq_eq,
    List.forall₂_map_left_iff, List.forall₂_map_right_iff]
  exact hnames

/-- Resources are told apart unless the cloud has a factory for pools and two pools have the same
name. -/
theorem NamesByPool.nodup_keys_iff {s s' : σ} {log : List (GraphExchange φ)}
    (hn : r.NamesByPool c world nameOf)
    (hrun : (r.buildGraph c).play world s = (some (.ok graph), log, s')) :
    graph.keys.Nodup ↔ ∀ k : ResourceKind, k.scope = .serverPool →
      r.supports c.cloud k = true → (c.pools.map (·.name)).Nodup := by
  have hnamed := hn.forall₂ hrun
  rw [Graph.nodup_keys_iff]
  refine forall_congr' fun k => ?_
  by_cases hk : k.scope = .serverPool
  · cases hf : r.factory? c.cloud k with
    | none => simp [namesOf_of_unsupported hnamed hf, supports, hf]
    | some f =>
      rw [namesOf_of_supported hnamed hk hf, List.nodup_map_iff (hn.injective k hk)]
      simp [hk, supports, hf]
  · simp [nodup_namesOf hnamed hk, hk]

end Registry

/-! ## Valid clusters -/

namespace Registry

/-- Of a valid cluster, a graph has no resource twice. If a cluster has two pools of the same
name and its cloud a factory for pools, some resource is in the graph twice. -/
theorem distinct_resources {s s' : σ} {log : List (GraphExchange φ)}
    (hn : r.NamesByPool c world nameOf)
    (hrun : (r.buildGraph c).play world s = (some (.ok graph), log, s')) :
    (c.validate = .ok () → graph.keys.Nodup) ∧
      (¬ (c.pools.map (·.name)).Nodup →
        (∃ k : ResourceKind, k.scope = .serverPool ∧ r.supports c.cloud k = true) →
          ¬ graph.keys.Nodup) := by
  have hkeys := hn.nodup_keys_iff hrun
  refine ⟨fun hvalid => hkeys.2 fun _ _ _ => Cluster.nodup_of_validate hvalid, ?_⟩
  rintro hpools ⟨k, hk, hsupports⟩ hnodup
  exact hpools (hkeys.1 hnodup k hk hsupports)

end Registry

/-! ## What is named after its pool -/

/-- What a factory for a kind builds has the name of the pool, or of the cluster if it is not
for a pool. -/
def namingWorld : (q : GraphQuestion ResourceKind) → Unit → q.Answer × Unit
  | .build k c pool, _ => (.ok { kind := k, name := pool.elim c.name (·.name) }, ())
  | .tag _ _, _ => (.ok (), ())

namespace namingWorld

open Registry (ofRegistrations)

/-- Registrations of factories for the kinds that they are registered for. -/
def registrations (cloud : String) (kinds : List ResourceKind) :
    List (Registration ResourceKind) :=
  kinds.map fun k => ⟨cloud, k, k⟩

theorem namesByPool (cloud : String) (kinds : List ResourceKind) (c : Cluster) :
    (ofRegistrations (registrations cloud kinds)).NamesByPool c namingWorld
      fun _ name => name := by
  have hfactory (k f) (h : (ofRegistrations (registrations cloud kinds)).factory? c.cloud k =
      some f) : f = k := by
    rw [Registry.factory?_ofRegistrations] at h
    obtain ⟨x, hx, -, rfl, rfl⟩ := Registration.exists_of_latest? h
    obtain ⟨k, -, rfl⟩ := List.mem_map.1 hx
    rfl
  constructor
  · intro k f hf pool s resource hresource
    cases hresource
    exact hfactory k f hf
  · intro k f hf _ p s resource hresource
    cases hresource
    rfl
  · exact fun k _ => Function.injective_id

/-- Factories for five kinds, in an order of their own. -/
def registry : Registry ResourceKind :=
  ofRegistrations (registrations "fake"
    [.loadBalancer, .instanceGroup, .subnet, .network, .keyPair])

/-- A cluster of two pools. -/
def twoPools (first second : String) : Cluster :=
  { name := "demo", cloud := "fake", pools := [{ name := first }, { name := second }] }

/-- The graph of a cluster of two pools. -/
def twoPoolGraph (first second : String) : Graph :=
  [{ kind := .keyPair, name := "demo" }, { kind := .network, name := "demo" },
    { kind := .subnet, name := first }, { kind := .instanceGroup, name := first },
    { kind := .subnet, name := second }, { kind := .instanceGroup, name := second },
    { kind := .loadBalancer, name := "demo" }]

theorem order_twoPools (first second : String) :
    registry.order (twoPools first second) =
      [(.keyPair, none), (.network, none),
        (.subnet, some { name := first }), (.instanceGroup, some { name := first }),
        (.subnet, some { name := second }), (.instanceGroup, some { name := second }),
        (.loadBalancer, none)] := by
  simp [registry, twoPools, registrations, Registry.order_eq, Registry.factory?_ofRegistrations,
    Registration.latest?, ResourceKind.slots, ResourceKind.poolSlots]

theorem play_twoPools (first second : String) :
    ∃ log, (registry.buildGraph (twoPools first second)).play namingWorld () =
      (some (.ok (twoPoolGraph first second)), log, ()) := by
  have hcloud : registry.supportsCloud (twoPools first second).cloud = true := rfl
  rw [Registry.buildGraph, hcloud, order_twoPools]
  exact ⟨_, rfl⟩

/-- The resources of two pools of different names are told apart, and those of two pools of one
name are not. -/
theorem distinct_twoPools :
    (twoPoolGraph "master" "node").keys.Nodup ∧ ¬ (twoPoolGraph "node" "node").keys.Nodup := by
  obtain ⟨log, hrun⟩ := play_twoPools "master" "node"
  obtain ⟨log', hrun'⟩ := play_twoPools "node" "node"
  refine ⟨(Registry.distinct_resources (namesByPool _ _ _) hrun).1 ?_,
    (Registry.distinct_resources (namesByPool _ _ _) hrun').2 ?_ ?_⟩
  · decide
  · decide
  · exact ⟨.subnet, rfl, by decide⟩

end namingWorld

end ClusterKeeper
