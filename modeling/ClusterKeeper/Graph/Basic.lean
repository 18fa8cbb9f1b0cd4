/-
# Graphs of resources

The resources of a cluster in the order in which they depend on one another: a resource may
rely on every one before it. Tagging goes through the graph in order and stops at the first
error.
-/

import ClusterKeeper.Cloud.Error
import ClusterKeeper.Cloud.Kind
import ClusterKeeper.Cluster.Basic
import ClusterKeeper.Dialogue
import ClusterKeeper.Text.Inspect

namespace ClusterKeeper

/-- A resource, by its kind and a name that no other resource of that kind has. -/
structure Resource where
  kind : ResourceKind
  name : String
  deriving DecidableEq, Inhabited, Repr

/-- A resource in words. -/
def Resource.label (r : Resource) : String := r.kind.name ++ " '" ++ r.name ++ "'"

/-- The resources of a cluster, in the order in which they depend on one another. -/
abbrev Graph := List Resource

/-- What is asked while a graph is built: that a factory builds a resource of a cluster, for one
of its pools or for the cluster itself, and that a resource is tagged. -/
inductive GraphQuestion (φ : Type) where
  | build (factory : φ) (cluster : Cluster) (pool : Option ServerPool)
  | tag (resource : Resource) (tags : Tags)
  deriving DecidableEq

/-- The answers to each question. -/
@[reducible]
def GraphQuestion.Answer {φ : Type} : GraphQuestion φ → Type
  | .build _ _ _ => Except CloudError Resource
  | .tag _ _ => Except CloudError Unit

namespace Graph

variable {φ : Type}

/-- The labels of all resources, in order. -/
def labels (g : Graph) : List String := g.map Resource.label

/-- The graph for inspection. -/
def inspect (g : Graph) : String :=
  Text.inspectRecord "ResourceGraph" [("resources", Text.quotedList g.labels)]

/-- Tags every resource in order, up to the first error. -/
def tag (tags : Tags) :
    Graph → Dialogue (GraphQuestion.Answer (φ := φ)) (Except CloudError Unit)
  | [] => return .ok ()
  | r :: rs => do
    match ← Dialogue.question (A := GraphQuestion.Answer) (.tag r tags) with
    | .ok () => tag tags rs
    | .error e => return .error e

end Graph

end ClusterKeeper
