/-
# Kinds of resources

What a cluster is made of on the cloud's side. A cluster has its key pair and network
before its pools, its load balancer behind them, and one resource of each other kind for
every pool.
-/

import ClusterKeeper.Json.Value

namespace ClusterKeeper

/-- A kind of resource, in the order in which the kinds depend on one another. -/
inductive ResourceKind where
  | keyPair
  | network
  | subnet
  | firewall
  | iamRole
  | instanceGroup
  | loadBalancer
  deriving DecidableEq, Inhabited, Repr

/-- Whether there is one resource of a kind for the cluster or one for every pool. -/
inductive Scope where
  | cluster
  | serverPool
  deriving DecidableEq, Repr

/-- A scope for inspection. -/
def Scope.inspect : Scope → String
  | .cluster => "Cluster"
  | .serverPool => "ServerPool"

namespace ResourceKind

/-- All kinds, in order. -/
def all : List ResourceKind :=
  [.keyPair, .network, .subnet, .firewall, .iamRole, .instanceGroup, .loadBalancer]

/-- The cluster's kinds that come before its pools. -/
def beforePools : List ResourceKind := [.keyPair, .network]

/-- The kinds of a pool, in order. -/
def perPool : List ResourceKind := [.subnet, .firewall, .iamRole, .instanceGroup]

/-- The cluster's kinds that come behind its pools. -/
def behindPools : List ResourceKind := [.loadBalancer]

/-- The scope of a kind. -/
def scope : ResourceKind → Scope
  | .keyPair => .cluster
  | .network => .cluster
  | .loadBalancer => .cluster
  | _ => .serverPool

/-- The name of a kind. -/
def name : ResourceKind → String
  | .keyPair => "key-pair"
  | .network => "network"
  | .subnet => "subnet"
  | .firewall => "firewall"
  | .iamRole => "iam-role"
  | .instanceGroup => "instance-group"
  | .loadBalancer => "load-balancer"

/-- A kind for inspection. -/
def inspect : ResourceKind → String
  | .keyPair => "KeyPair"
  | .network => "Network"
  | .subnet => "Subnet"
  | .firewall => "Firewall"
  | .iamRole => "IamRole"
  | .instanceGroup => "InstanceGroup"
  | .loadBalancer => "LoadBalancer"

instance : Ord ResourceKind := ⟨fun a b => compare a.ctorIdx b.ctorIdx⟩

/-- The names of all kinds. -/
def named : List (String × ResourceKind) := all.map fun k => (k.name, k)

/-- The document of a kind is its name. -/
def codec : Json.Codec ResourceKind := .choice named name

/-- The kind that a value names: a string, or an object of one member, bound to `null`. -/
def ofValue (v : Json.Value) : Except Json.Misfit ResourceKind :=
  let ofName (s : String) : Except Json.Misfit ResourceKind :=
    match named.lookup s with
    | some k => .ok k
    | none => .error (.unknownVariant s (named.map (·.1)))
  let wanted := "string or map"
  match v.tree with
  | .string s => ofName s
  | .object [(s, t)] => do
    let k ← ofName s
    match found t with
    | .null => return k
    | f => .error (.wrongType f "unit")
  | .object _ => .error (.wrongValue .object "map with a single key")
  | t => .error (.wrongType (found t) wanted)
where
  /-- What a tree is found to be. -/
  found : Json.Tree → Json.Found
    | .null => .null
    | .bool b => .bool b
    | .number (.double x) => .double x
    | .number n => .integer (n.int?.getD 0)
    | .string s => .string s
    | .array _ => .array
    | .object _ => .object

end ResourceKind

end ClusterKeeper
