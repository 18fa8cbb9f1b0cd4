/-
# Cluster documents

The document of a cluster lists every field in a fixed order. When it is read, fields that
have a default may be left out. Two clusters are the same if their documents are.
-/

import ClusterKeeper.Cluster.Basic
import ClusterKeeper.Json.Record

namespace ClusterKeeper

open Json

/-- The document of a network. -/
def Network.codec : Codec Network :=
  .record "Network"
    (.cons "identifier" (.option .string) (.anywhere none)
      (.cons "name" .string (.anywhere "")
      (.cons "cidr" .string (.anywhere "") .nil)))
    (fun (identifier, name, cidr, _) => { identifier, name, cidr })
    (fun n => (n.identifier, n.name, n.cidr, ()))

/-- The document of a subnet. -/
def Subnet.codec : Codec Subnet :=
  .record "Subnet"
    (.cons "identifier" (.option .string) (.anywhere none)
      (.cons "name" .string .never
      (.cons "cidr" .string .never
      (.cons "zone" (.option .string) (.anywhere none) .nil))))
    (fun (identifier, name, cidr, zone, _) => { identifier, name, cidr, zone })
    (fun s => (s.identifier, s.name, s.cidr, s.zone, ()))

/-- The document of a firewall rule. -/
def FirewallRule.codec : Codec FirewallRule :=
  .record "FirewallRule"
    (.cons "protocol" .string .never
      (.cons "ports" (.option .string) (.anywhere none)
      (.cons "cidr" .string .never .nil)))
    (fun (protocol, ports, cidr, _) => { protocol, ports, cidr })
    (fun r => (r.protocol, r.ports, r.cidr, ()))

/-- The document of a firewall. -/
def Firewall.codec : Codec Firewall :=
  .record "Firewall"
    (.cons "identifier" (.option .string) (.anywhere none)
      (.cons "name" .string .never
      (.cons "ingress_rules" (.list FirewallRule.codec) (.anywhere [])
      (.cons "egress_rules" (.list FirewallRule.codec) (.anywhere []) .nil))))
    (fun (identifier, name, ingress, egress, _) => { identifier, name, ingress, egress })
    (fun f => (f.identifier, f.name, f.ingress, f.egress, ()))

/-- The document of an instance profile. -/
def InstanceProfile.codec : Codec InstanceProfile :=
  .record "InstanceProfile"
    (.cons "identifier" (.option .string) (.anywhere none)
      (.cons "name" .string .never
      (.cons "role_name" .string .never
      (.cons "policies" (.list .string) (.anywhere []) .nil))))
    (fun (identifier, name, roleName, policies, _) => { identifier, name, roleName, policies })
    (fun p => (p.identifier, p.name, p.roleName, p.policies, ()))

/-- The document of a role is its name. -/
def PoolRole.codec : Codec PoolRole :=
  .choice [(PoolRole.master.name, .master), (PoolRole.node.name, .node)] PoolRole.name

/-- The document of a pool. -/
def ServerPool.codec : Codec ServerPool :=
  .record "ServerPool"
    (.cons "identifier" (.option .string) (.anywhere none)
      (.cons "name" .string .never
      (.cons "role" PoolRole.codec (.anywhere .node)
      (.cons "image" .string (.anywhere "")
      (.cons "size" .string (.anywhere "")
      (.cons "min_count" .uint32 (.anywhere 0)
      (.cons "max_count" .uint32 (.anywhere 0)
      (.cons "bootstrap_scripts" (.list .string) (.anywhere [])
      (.cons "subnets" (.list Subnet.codec) (.anywhere [])
      (.cons "firewalls" (.list Firewall.codec) (.anywhere [])
      (.cons "instance_profile" (.option InstanceProfile.codec) (.anywhere none) .nil)))))))))))
    (fun (identifier, name, role, image, size, minCount, maxCount, bootstrapScripts, subnets,
        firewalls, instanceProfile, _) =>
      { identifier, name, role, image, size, minCount, maxCount, bootstrapScripts, subnets,
        firewalls, instanceProfile })
    (fun p => (p.identifier, p.name, p.role, p.image, p.size, p.minCount, p.maxCount,
      p.bootstrapScripts, p.subnets, p.firewalls, p.instanceProfile, ()))

/-- The document of SSH access. -/
def SshAccess.codec : Codec SshAccess :=
  .record "SshConfig"
    (.cons "identifier" (.option .string) (.anywhere none)
      (.cons "user" .string (.anywhere "root")
      (.cons "public_key_path" (.option .string) (.anywhere none)
      (.cons "public_key_fingerprint" (.option .string) (.anywhere none)
      (.cons "port" .uint16 (.anywhere 22) .nil)))))
    (fun (identifier, user, publicKeyPath, publicKeyFingerprint, port, _) =>
      { identifier, user, publicKeyPath, publicKeyFingerprint, port })
    (fun s => (s.identifier, s.user, s.publicKeyPath, s.publicKeyFingerprint, s.port, ()))

/-- The document of the Kubernetes API. -/
def KubernetesApi.codec : Codec KubernetesApi :=
  .record "KubernetesApi"
    (.cons "endpoint" (.option .string) (.anywhere none)
      (.cons "port" .uint16 (.anywhere 443)
      (.cons "load_balancer" (.option .string) (.anywhere none) .nil)))
    (fun (endpoint, port, loadBalancer, _) => { endpoint, port, loadBalancer })
    (fun k => (k.endpoint, k.port, k.loadBalancer, ()))

namespace Cluster

/-- The document of a cluster. -/
def codec : Codec Cluster :=
  .record "Cluster"
    (.cons "version" .uint32 (.anywhere supportedVersion)
      (.cons "name" .string .never
      (.cons "cloud" .string .never
      (.cons "location" .string (.anywhere "")
      (.cons "network" Network.codec (.anywhere {})
      (.cons "server_pools" (.list ServerPool.codec) (.anywhere [])
      (.cons "ssh" SshAccess.codec (.anywhere {})
      (.cons "kubernetes_api" KubernetesApi.codec (.anywhere {})
      (.cons "tags" (.map .string) (.anywhere ∅) .nil)))))))))
    (fun (version, name, cloud, location, network, pools, ssh, api, tags, _) =>
      { version, name, cloud, location, network, pools, ssh, api, tags })
    (fun c => (c.version, c.name, c.cloud, c.location, c.network, c.pools, c.ssh, c.api,
      c.tags, ()))

/-- The cluster that a document describes. -/
def parse (text : String) : Except Failure Cluster := codec.parse text

/-- The compact document. -/
def compact (c : Cluster) : String := codec.compact c

/-- The document with one item a line. -/
def pretty (c : Cluster) : String := codec.pretty c

/-- Whether two clusters have the same document. -/
def sameAs (c d : Cluster) : Bool := c.compact == d.compact

end Cluster

end ClusterKeeper
