/-
# Defaults left out of documents

What has its default value may be left out of the document of a cluster and of the document of
settings, at any depth and in any layout. It does not matter whether a section that is all defaults
is left out as a whole, or its members are.
-/

import ClusterKeeper.Proofs.Cluster.Document
import ClusterKeeper.Settings.Document

namespace ClusterKeeper

open Json

theorem faithful_optionUInt64 : (Codec.option .uint64).Faithful :=
  .option .uint64 fun h => by
    cases h
    exact head?_text_natural_ne _

theorem faithful_optionUInt32 : (Codec.option .uint32).Faithful :=
  .option .uint32 fun h => by
    cases h
    exact head?_text_natural_ne _

theorem faithful_optionPath : (Codec.option pathCodec).Faithful :=
  .option (.readString "path string") fun h => by cases h; exact nofun

def BackoffSettings.schema : Schema BackoffSettings.codec :=
  .record (.cons (.single .uint64) <| .cons (.single .uint64) <|
    .cons (.single faithful_optionUInt64) <| .cons (.single faithful_optionUInt32) .nil)
    (by decide) fun _ => rfl

def RetrySettings.schema : Schema RetrySettings.codec :=
  .record (.cons (.single .uint32) <| .cons (.single .uint64) .nil) (by decide) fun _ => rfl

def ConcurrentSettings.schema : Schema ConcurrentSettings.codec :=
  .record (.cons (.single .uint64) .nil) (by decide) fun _ => rfl

/-- What all settings are made of, down to paths and numbers. -/
def Settings.schema : Schema Settings.codec :=
  .record (.cons (.single faithful_optionPath) <| .cons BackoffSettings.schema <|
    .cons RetrySettings.schema <| .cons ConcurrentSettings.schema .nil) (by decide) fun _ => rfl

/-- The members of a cluster document but for the name, the cloud and the location. -/
def Cluster.furtherMembers : List String :=
  ["version", "network", "server_pools", "ssh", "kubernetes_api", "tags"]

/-- A new cluster has its defaults in all that is not said of it. -/
theorem Cluster.omits_furtherMembers (name cloud location : String) (p : Pointer)
    (hp : (furtherMembers.any fun key => p == [.member key]) = true) :
    schema.Omits { name, cloud, location } p := by
  simp only [furtherMembers, List.any_cons, List.any_nil, Bool.or_false, Bool.or_eq_true,
    beq_iff_eq] at hp
  rcases hp with rfl | rfl | rfl | rfl | rfl | rfl <;>
    simp [schema, Schema.Omits, Fields.Omits, Omission.value?]

/-- Members of documents that have their defaults for values may be left out, and the documents
still hold the cluster and the settings. So a name, a cloud and a location make a document. -/
theorem parse_without_defaults :
    (∀ (c : Cluster) (gone : Pointer → Bool), (∀ p, gone p = true → Cluster.schema.Omits c p) →
      ∀ text : List Char, Spells ((Cluster.codec.tree c).without gone) text →
        Cluster.parse (String.ofList text) = .ok c) ∧
    (∀ (name cloud location : String) (text : List Char),
      Spells (.object [("name", .string name), ("cloud", .string cloud),
        ("location", .string location)]) text →
        Cluster.parse (String.ofList text) = .ok { name, cloud, location }) ∧
    ∀ (s : Settings) (gone : Pointer → Bool), (∀ p, gone p = true → Settings.schema.Omits s p) →
      ∀ text : List Char, Spells ((Settings.codec.tree s).without gone) text →
        Settings.codec.parse (String.ofList text) = .ok s := by
  refine ⟨fun c gone hgone text => (Cluster.schema.reads_without c hgone).parse_of_spells,
    fun name cloud location text hs => ?_,
    fun s gone hgone text => (Settings.schema.reads_without s hgone).parse_of_spells⟩
  have hreads := Cluster.schema.reads_without { name, cloud, location }
    (Cluster.omits_furtherMembers name cloud location)
  exact hreads.parse_of_spells hs

/-- A cluster with a pool of machines in one subnet. -/
def webCluster : Cluster where
  name := "web"
  cloud := "simulated"
  network := { name := "web-net" }
  pools := [{
    name := "front"
    maxCount := 2
    subnets := [{ name := "front-a", cidr := "10.0.1.0/24" }]
    instanceProfile := some { name := "front-profile", roleName := "front" } }]

/-- Some of what has its default in that cluster, sections and single members. -/
def webDefaults (p : Pointer) : Bool :=
  p == [.member "ssh"] || p == [.member "ssh", .member "port"]
    || p == [.member "network", .member "cidr"]
    || p == [.member "server_pools", .item 0, .member "role"]
    || p == [.member "server_pools", .item 0, .member "subnets", .item 0, .member "zone"]
    || p == [.member "server_pools", .item 0, .member "instance_profile", .member "policies"]

/-- A section of settings, and a member of another one. -/
def patientDefaults (p : Pointer) : Bool :=
  p == [.member "backoff"] || p == [.member "retry", .member "interval_ms"]

/-- A cluster and settings are read from their documents without some of their defaults. -/
theorem parse_web_and_patient :
    Cluster.parse (String.ofList ((Cluster.codec.tree webCluster).without webDefaults).compact) =
      .ok webCluster ∧
    Cluster.parse (String.ofList (Tree.object [("name", .string "web"),
      ("cloud", .string "simulated"), ("location", .string "")]).pretty) =
      .ok { name := "web", cloud := "simulated" } ∧
    Settings.codec.parse (String.ofList
      ((Settings.codec.tree { retry := { attempts := 9 } }).without patientDefaults).compact) =
      .ok { retry := { attempts := 9 } } := by
  refine ⟨parse_without_defaults.1 _ _ ?_ _ (spells_compact _),
    parse_without_defaults.2.1 _ _ _ _ (spells_prettyAt 0 _),
    parse_without_defaults.2.2 _ _ ?_ _ (spells_compact _)⟩
  · intro p hp
    simp only [webDefaults, Bool.or_eq_true, beq_iff_eq] at hp
    rcases hp with ((((rfl | rfl) | rfl) | rfl) | rfl) | rfl <;>
      simp [webCluster, Cluster.schema, SshAccess.schema, Network.schema, ServerPool.schema,
        Subnet.schema, InstanceProfile.schema, Schema.Omits, Fields.Omits, Omission.value?]
  · intro p hp
    simp only [patientDefaults, Bool.or_eq_true, beq_iff_eq] at hp
    rcases hp with rfl | rfl <;>
      simp [Settings.schema, RetrySettings.schema, Schema.Omits, Fields.Omits, Omission.value?]

end ClusterKeeper
