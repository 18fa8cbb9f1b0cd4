/-
# Clusters

The description of a cluster: a network, pools of like machines with their subnets and
firewalls, access over SSH and the Kubernetes API. One type serves for what is declared
and for what was observed; an observed cluster also carries the identifiers that the cloud
assigned.
-/

import ClusterKeeper.SortedMap

namespace ClusterKeeper

/-- Labels put on what a cluster is made of. -/
abbrev Tags := SortedMap String String

/-- The newest layout of cluster documents that is understood. -/
def supportedVersion : UInt32 := 1

/-- The network that a cluster lives in. -/
structure Network where
  identifier : Option String := none
  name : String := ""
  cidr : String := ""
  deriving DecidableEq, Inhabited

/-- A part of the network that a pool is attached to. -/
structure Subnet where
  identifier : Option String := none
  name : String
  cidr : String
  zone : Option String := none
  deriving DecidableEq, Inhabited

/-- What a firewall lets through. -/
structure FirewallRule where
  protocol : String
  ports : Option String := none
  cidr : String
  deriving DecidableEq, Inhabited

/-- A firewall in front of a pool. -/
structure Firewall where
  identifier : Option String := none
  name : String
  ingress : List FirewallRule := []
  egress : List FirewallRule := []
  deriving DecidableEq, Inhabited

/-- What the machines of a pool are for. -/
inductive PoolRole where
  | master
  | node
  deriving DecidableEq, Inhabited

/-- The rights that the machines of a pool have. -/
structure InstanceProfile where
  identifier : Option String := none
  name : String
  roleName : String
  policies : List String := []
  deriving DecidableEq, Inhabited

/-- A group of like machines. -/
structure ServerPool where
  identifier : Option String := none
  name : String
  role : PoolRole := .node
  image : String := ""
  size : String := ""
  minCount : UInt32 := 0
  maxCount : UInt32 := 0
  bootstrapScripts : List String := []
  subnets : List Subnet := []
  firewalls : List Firewall := []
  instanceProfile : Option InstanceProfile := none
  deriving DecidableEq, Inhabited

/-- How machines are logged in to. -/
structure SshAccess where
  identifier : Option String := none
  user : String := "root"
  publicKeyPath : Option String := none
  publicKeyFingerprint : Option String := none
  port : UInt16 := 22
  deriving DecidableEq, Inhabited

/-- Where the Kubernetes API answers. -/
structure KubernetesApi where
  endpoint : Option String := none
  port : UInt16 := 443
  loadBalancer : Option String := none
  deriving DecidableEq, Inhabited

/-- A cluster, declared or observed. -/
structure Cluster where
  version : UInt32 := supportedVersion
  name : String
  cloud : String
  location : String := ""
  network : Network := {}
  pools : List ServerPool := []
  ssh : SshAccess := {}
  api : KubernetesApi := {}
  tags : Tags := ∅
  deriving DecidableEq, Inhabited

namespace PoolRole

/-- The name of a role. -/
def name : PoolRole → String
  | .master => "master"
  | .node => "node"

end PoolRole

/-! ## What the cloud did not assign -/

/-- The network as it is declared. -/
def Network.declared (n : Network) : Network := { n with identifier := none }

/-- The subnet as it is declared. -/
def Subnet.declared (s : Subnet) : Subnet := { s with identifier := none }

/-- The firewall as it is declared. -/
def Firewall.declared (f : Firewall) : Firewall := { f with identifier := none }

/-- The profile as it is declared. -/
def InstanceProfile.declared (p : InstanceProfile) : InstanceProfile :=
  { p with identifier := none }

/-- The pool as it is declared, with all that belongs to it. -/
def ServerPool.declared (p : ServerPool) : ServerPool :=
  { p with
    identifier := none
    subnets := p.subnets.map Subnet.declared
    firewalls := p.firewalls.map Firewall.declared
    instanceProfile := p.instanceProfile.map InstanceProfile.declared }

/-- The access as it is declared. -/
def SshAccess.declared (s : SshAccess) : SshAccess := { s with identifier := none }

/-- The API as it is declared: its port alone. -/
def KubernetesApi.declared (k : KubernetesApi) : KubernetesApi :=
  { k with endpoint := none, loadBalancer := none }

namespace Cluster

/-- The cluster as it is declared, without anything that the cloud assigned. -/
def declared (c : Cluster) : Cluster :=
  { c with
    network := c.network.declared
    pools := c.pools.map ServerPool.declared
    ssh := c.ssh.declared
    api := c.api.declared }

/-! ## Pools and tags -/

/-- The first pool of a name. -/
def pool? (c : Cluster) (name : String) : Option ServerPool := c.pools.find? (·.name == name)

/-- Changes the first element that satisfies `p`. -/
def modifyFirst {α : Type} (p : α → Bool) (f : α → α) : List α → List α
  | [] => []
  | x :: xs => if p x then f x :: xs else x :: modifyFirst p f xs

/-- Changes the first pool of a name, if there is one. -/
def modifyPool (c : Cluster) (name : String) (f : ServerPool → ServerPool) : Cluster :=
  { c with pools := modifyFirst (·.name == name) f c.pools }

/-- The cluster with one more pool behind the others. -/
def addPool (c : Cluster) (p : ServerPool) : Cluster := { c with pools := c.pools ++ [p] }

/-- The cluster with a tag set. -/
def setTag (c : Cluster) (key value : String) : Cluster :=
  { c with tags := c.tags.insert key value }

end Cluster

end ClusterKeeper
