/-
# Cluster documents read back

Every cluster is read back from its document as it was, so clusters with the same document are
the same cluster. It is also read from its document without what has the value that is taken in
its place, in all parts of the cluster.
-/

import ClusterKeeper.Cluster.Document
import ClusterKeeper.Proofs.Json.Omission

namespace ClusterKeeper

open Json

/-- An optional string is never written like the beginning of `null`. -/
theorem faithful_optionString : (Codec.option .string).Faithful :=
  .option .string fun h => by cases h; exact nofun

namespace Json.Schema

/-- Strings. -/
def string : Schema .string := .single .string

/-- Strings that need not be there. -/
def optionString : Schema (.option .string) := .single faithful_optionString

end Json.Schema

def Network.schema : Schema Network.codec :=
  .record (.cons .optionString <| .cons .string <| .cons .string .nil) (by decide) fun _ => rfl

def Subnet.schema : Schema Subnet.codec :=
  .record (.cons .optionString <| .cons .string <| .cons .string <| .cons .optionString .nil)
    (by decide) fun _ => rfl

def FirewallRule.schema : Schema FirewallRule.codec :=
  .record (.cons .string <| .cons .optionString <| .cons .string .nil) (by decide) fun _ => rfl

def Firewall.schema : Schema Firewall.codec :=
  .record (.cons .optionString <| .cons .string <| .cons (.list FirewallRule.schema) <|
    .cons (.list FirewallRule.schema) .nil) (by decide) fun _ => rfl

def InstanceProfile.schema : Schema InstanceProfile.codec :=
  .record (.cons .optionString <| .cons .string <| .cons .string <| .cons (.list .string) .nil)
    (by decide) fun _ => rfl

theorem PoolRole.faithful_codec : PoolRole.codec.Faithful :=
  .choice fun role => by cases role <;> rfl

def ServerPool.schema : Schema ServerPool.codec :=
  .record (.cons .optionString <| .cons .string <| .cons (.single PoolRole.faithful_codec) <|
    .cons .string <| .cons .string <| .cons (.single .uint32) <| .cons (.single .uint32) <|
    .cons (.list .string) <| .cons (.list Subnet.schema) <| .cons (.list Firewall.schema) <|
    .cons (.option InstanceProfile.schema fun _ => ⟨_, rfl⟩) .nil) (by decide) fun _ => rfl

def SshAccess.schema : Schema SshAccess.codec :=
  .record (.cons .optionString <| .cons .string <| .cons .optionString <| .cons .optionString <|
    .cons (.single .uint16) .nil) (by decide) fun _ => rfl

def KubernetesApi.schema : Schema KubernetesApi.codec :=
  .record (.cons .optionString <| .cons (.single .uint16) <| .cons .optionString .nil)
    (by decide) fun _ => rfl

namespace Cluster

/-- What a cluster is made of, down to strings, numbers, roles and tags. -/
def schema : Schema codec :=
  .record (.cons (.single .uint32) <| .cons .string <| .cons .string <| .cons .string <|
    .cons Network.schema <| .cons (.list ServerPool.schema) <| .cons SshAccess.schema <|
    .cons KubernetesApi.schema <| .cons (.single (.map .string)) .nil) (by decide) fun _ => rfl

theorem faithful_codec : codec.Faithful := schema.faithful

/-- A cluster is read back from its document. -/
theorem parse_pretty (c : Cluster) : parse c.pretty = .ok c := faithful_codec.parse_pretty c

/-- A cluster is read back from both layouts of its document. -/
theorem parse_layouts (c : Cluster) : parse c.compact = .ok c ∧ parse c.pretty = .ok c :=
  ⟨faithful_codec.parse_compact c, c.parse_pretty⟩

/-- Clusters with the same document are the same cluster. -/
theorem sameAs_iff {c d : Cluster} : c.sameAs d = true ↔ c = d := by
  constructor
  · intro h
    exact faithful_codec.compact_inj (beq_iff_eq.1 h)
  · rintro rfl
    exact beq_self_eq_true _

end Cluster

end ClusterKeeper
