/-
# What a cluster declares

Of a cluster, the cloud assigns the identifiers and the endpoint and load balancer of the API;
all else is declared. Dropping what the cloud assigned is a projection: the clusters that declare
the same become the same cluster, which is the only one of them without anything assigned. The
projections of the parts are put together over lists and optional parts.
-/

import ClusterKeeper.Cluster.Validity
import Mathlib.Data.List.Forall2

namespace ClusterKeeper

/-! ## Projections -/

/-- `erase` leaves the bare elements alone and makes elements equal exactly if they are the
same. -/
structure IsErasure {α : Type} (erase : α → α) (Same : α → α → Prop) (Bare : α → Prop) : Prop where
  idempotent : ∀ x, erase (erase x) = erase x
  eq_iff : ∀ x y, erase x = erase y ↔ Same x y
  eq_self_iff : ∀ x, erase x = x ↔ Bare x

namespace IsErasure

variable {α : Type} {erase : α → α} {Same : α → α → Prop} {Bare : α → Prop}

theorem bare (h : IsErasure erase Same Bare) (x : α) : Bare (erase x) :=
  (h.eq_self_iff _).1 (h.idempotent x)

theorem same (h : IsErasure erase Same Bare) (x : α) : Same x (erase x) :=
  (h.eq_iff _ _).1 (h.idempotent x).symm

/-- Of the elements that are the same, exactly one is bare. -/
theorem eq_erase_iff (h : IsErasure erase Same Bare) (x y : α) :
    y = erase x ↔ Same x y ∧ Bare y := by
  constructor
  · rintro rfl
    exact ⟨h.same x, h.bare x⟩
  · rintro ⟨hsame, hbare⟩
    calc
      y = erase y := ((h.eq_self_iff y).2 hbare).symm
      _ = erase x := ((h.eq_iff x y).2 hsame).symm

/-- Lists are the same if they are the same place by place. -/
theorem list (h : IsErasure erase Same Bare) :
    IsErasure (List.map erase) (List.Forall₂ Same) fun xs => ∀ x ∈ xs, Bare x where
  idempotent xs := by
    rw [List.map_map]
    exact List.map_congr_left fun x _ => h.idempotent x
  eq_iff xs ys := by
    rw [← List.forall₂_eq_eq_eq, List.forall₂_map_left_iff, List.forall₂_map_right_iff]
    exact ⟨.imp fun x y => (h.eq_iff x y).1, .imp fun x y => (h.eq_iff x y).2⟩
  eq_self_iff xs := by
    -- as `map id`, the list on the right is compared place by place
    conv_lhs => rhs; rw [← List.map_id xs]
    rw [List.map_inj_left]
    exact forall₂_congr fun x _ => h.eq_self_iff x

/-- Both optional elements are there, and the same, or neither is there. -/
theorem option (h : IsErasure erase Same Bare) :
    IsErasure (Option.map erase) (Option.Rel Same) fun o => ∀ x ∈ o, Bare x where
  idempotent o := by
    cases o with
    | none => rfl
    | some x => exact congrArg some (h.idempotent x)
  eq_iff o p := by
    cases o <;> cases p <;> simp [h.eq_iff]
  eq_self_iff o := by
    cases o <;> simp [h.eq_self_iff]

end IsErasure

/-! ## The parts of a cluster -/

/-- The networks are declared the same. -/
@[mk_iff]
structure Network.DeclaresSame (m n : Network) : Prop where
  name : m.name = n.name
  cidr : m.cidr = n.cidr

theorem Network.isErasure :
    IsErasure declared DeclaresSame fun n : Network => n.identifier = none where
  idempotent _ := rfl
  eq_iff m n := by simp [declared, declaresSame_iff]
  eq_self_iff n := by cases n; simp [declared, eq_comm]

/-- The subnets are declared the same. -/
@[mk_iff]
structure Subnet.DeclaresSame (s t : Subnet) : Prop where
  name : s.name = t.name
  cidr : s.cidr = t.cidr
  zone : s.zone = t.zone

theorem Subnet.isErasure :
    IsErasure declared DeclaresSame fun s : Subnet => s.identifier = none where
  idempotent _ := rfl
  eq_iff s t := by simp [declared, declaresSame_iff]
  eq_self_iff s := by cases s; simp [declared, eq_comm]

/-- The firewalls are declared the same, with all their rules. -/
@[mk_iff]
structure Firewall.DeclaresSame (f g : Firewall) : Prop where
  name : f.name = g.name
  ingress : f.ingress = g.ingress
  egress : f.egress = g.egress

theorem Firewall.isErasure :
    IsErasure declared DeclaresSame fun f : Firewall => f.identifier = none where
  idempotent _ := rfl
  eq_iff f g := by simp [declared, declaresSame_iff]
  eq_self_iff f := by cases f; simp [declared, eq_comm]

/-- The profiles are declared the same. -/
@[mk_iff]
structure InstanceProfile.DeclaresSame (p q : InstanceProfile) : Prop where
  name : p.name = q.name
  roleName : p.roleName = q.roleName
  policies : p.policies = q.policies

theorem InstanceProfile.isErasure :
    IsErasure declared DeclaresSame fun p : InstanceProfile => p.identifier = none where
  idempotent _ := rfl
  eq_iff p q := by simp [declared, declaresSame_iff]
  eq_self_iff p := by cases p; simp [declared, eq_comm]

/-- The accesses are declared the same. -/
@[mk_iff]
structure SshAccess.DeclaresSame (s t : SshAccess) : Prop where
  user : s.user = t.user
  publicKeyPath : s.publicKeyPath = t.publicKeyPath
  publicKeyFingerprint : s.publicKeyFingerprint = t.publicKeyFingerprint
  port : s.port = t.port

theorem SshAccess.isErasure :
    IsErasure declared DeclaresSame fun s : SshAccess => s.identifier = none where
  idempotent _ := rfl
  eq_iff s t := by simp [declared, declaresSame_iff]
  eq_self_iff s := by cases s; simp [declared, eq_comm]

/-- Of an API, the port alone is declared. -/
theorem KubernetesApi.isErasure :
    IsErasure declared (fun k l : KubernetesApi => k.port = l.port)
      fun k => k.endpoint = none ∧ k.loadBalancer = none where
  idempotent _ := rfl
  eq_iff k l := by simp [declared]
  eq_self_iff k := by cases k; simp [declared, eq_comm]

/-- The pools are declared the same, with all that belongs to them. -/
@[mk_iff]
structure ServerPool.DeclaresSame (p q : ServerPool) : Prop where
  name : p.name = q.name
  role : p.role = q.role
  image : p.image = q.image
  size : p.size = q.size
  minCount : p.minCount = q.minCount
  maxCount : p.maxCount = q.maxCount
  bootstrapScripts : p.bootstrapScripts = q.bootstrapScripts
  subnets : p.subnets.Forall₂ Subnet.DeclaresSame q.subnets
  firewalls : p.firewalls.Forall₂ Firewall.DeclaresSame q.firewalls
  instanceProfile : p.instanceProfile.Rel InstanceProfile.DeclaresSame q.instanceProfile

/-- Nothing in the pool was assigned by the cloud. -/
@[mk_iff]
structure ServerPool.Unassigned (p : ServerPool) : Prop where
  identifier : p.identifier = none
  subnets : ∀ s ∈ p.subnets, s.identifier = none
  firewalls : ∀ f ∈ p.firewalls, f.identifier = none
  instanceProfile : ∀ i ∈ p.instanceProfile, i.identifier = none

theorem ServerPool.isErasure : IsErasure declared DeclaresSame Unassigned where
  idempotent p := by
    simp only [declared, Subnet.isErasure.list.idempotent, Firewall.isErasure.list.idempotent,
      InstanceProfile.isErasure.option.idempotent]
  eq_iff p q := by
    simp only [declared, mk.injEq, Subnet.isErasure.list.eq_iff, Firewall.isErasure.list.eq_iff,
      InstanceProfile.isErasure.option.eq_iff, true_and, declaresSame_iff]
  eq_self_iff p := by
    -- a field that is dropped stands as `none = p.identifier` here
    cases p
    simp only [declared, mk.injEq, Subnet.isErasure.list.eq_self_iff,
      Firewall.isErasure.list.eq_self_iff, InstanceProfile.isErasure.option.eq_self_iff, true_and,
      unassigned_iff, @eq_comm _ none]

namespace Cluster

/-! ## Whole clusters -/

/-- The clusters are declared the same: they agree in everything that the cloud does not
assign. -/
@[mk_iff]
structure DeclaresSame (c d : Cluster) : Prop where
  version : c.version = d.version
  name : c.name = d.name
  cloud : c.cloud = d.cloud
  location : c.location = d.location
  network : c.network.DeclaresSame d.network
  pools : c.pools.Forall₂ ServerPool.DeclaresSame d.pools
  ssh : c.ssh.DeclaresSame d.ssh
  port : c.api.port = d.api.port
  tags : c.tags = d.tags

/-- Nothing in the cluster was assigned by the cloud. -/
@[mk_iff]
structure Unassigned (c : Cluster) : Prop where
  network : c.network.identifier = none
  pools : ∀ p ∈ c.pools, p.Unassigned
  ssh : c.ssh.identifier = none
  api : c.api.endpoint = none ∧ c.api.loadBalancer = none

theorem isErasure : IsErasure declared DeclaresSame Unassigned where
  idempotent c := by
    simp only [declared, Network.isErasure.idempotent, ServerPool.isErasure.list.idempotent,
      SshAccess.isErasure.idempotent, KubernetesApi.isErasure.idempotent]
  eq_iff c d := by
    simp only [declared, mk.injEq, Network.isErasure.eq_iff, ServerPool.isErasure.list.eq_iff,
      SshAccess.isErasure.eq_iff, KubernetesApi.isErasure.eq_iff, declaresSame_iff]
  eq_self_iff c := by
    cases c
    simp only [declared, mk.injEq, Network.isErasure.eq_self_iff,
      ServerPool.isErasure.list.eq_self_iff, SshAccess.isErasure.eq_self_iff,
      KubernetesApi.isErasure.eq_self_iff, true_and, and_true, unassigned_iff]

/-- Pools are checked by what they declare. -/
theorem checkPools_map_declared (earlier : List String) (pools : List ServerPool) :
    checkPools earlier (pools.map ServerPool.declared) = checkPools earlier pools := by
  induction pools generalizing earlier with
  | nil => rfl
  | cons p pools ih =>
    -- the check reads the name and the counts of a pool, which `declared` keeps
    rw [List.map_cons, checkPools, checkPools, ih]
    rfl

theorem validate_declared (c : Cluster) : c.declared.validate = c.validate := by
  unfold validate
  rw [declared, checkPools_map_declared]
  rfl

/-- What a cluster declares is the one cluster that declares the same and has nothing assigned.
Declaring it again changes nothing, two clusters have it in common exactly if they agree in all
that the cloud does not assign, and it is as valid as the cluster. -/
theorem declared_projects (c : Cluster) :
    c.declared.Unassigned ∧ c.DeclaresSame c.declared ∧
      (∀ d, d = c.declared ↔ c.DeclaresSame d ∧ d.Unassigned) ∧
      c.declared.declared = c.declared ∧
      (∀ d, c.declared = d.declared ↔ c.DeclaresSame d) ∧
      c.declared.validate = c.validate :=
  ⟨isErasure.bare c, isErasure.same c, isErasure.eq_erase_iff c, isErasure.idempotent c,
    isErasure.eq_iff c, validate_declared c⟩

end Cluster

end ClusterKeeper
