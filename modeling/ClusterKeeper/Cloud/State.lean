/-
# States of resources

What is known of one resource: the identifier that the cloud assigned, if any, its status,
and attributes of any form.
-/

import ClusterKeeper.Cloud.Kind
import ClusterKeeper.Cluster.Document

namespace ClusterKeeper

open Json

/-- How a resource is doing. -/
inductive ResourceStatus where
  | running
  /-- The cloud has removed it; its identifier may still be known. -/
  | deleted
  | unknown
  deriving DecidableEq, Inhabited, Repr

namespace ResourceStatus

/-- The name of a status. -/
def name : ResourceStatus → String
  | .running => "running"
  | .deleted => "deleted"
  | .unknown => "unknown"

/-- The document of a status is its name. -/
def codec : Codec ResourceStatus :=
  .choice ([running, deleted, unknown].map fun s => (s.name, s)) name

end ResourceStatus

/-- What is known of one resource. -/
structure ResourceState where
  identifier : Option String := none
  kind : ResourceKind
  name : String
  status : ResourceStatus := .unknown
  attributes : SortedMap String Value := ∅
  tags : Tags := ∅
  deriving DecidableEq, Inhabited

namespace ResourceState

/-- How many levels a value may have within the document of a state. -/
def attributeLevels : Nat := maxLevels - 2

/-- The document of a state. -/
def codec : Codec ResourceState :=
  .record "ResourceState"
    (.cons "identifier" (.option .string) (.inObjects none)
      (.cons "kind" ResourceKind.codec .never
      (.cons "name" .string .never
      (.cons "status" ResourceStatus.codec .never
      (.cons "attributes" (.map (Value.codec attributeLevels)) .never
      (.cons "tags" (.map .string) .never .nil))))))
    (fun (identifier, kind, name, status, attributes, tags, _) =>
      { identifier, kind, name, status, attributes, tags })
    (fun s => (s.identifier, s.kind, s.name, s.status, s.attributes, s.tags, ()))

/-- Whether the cloud has assigned an identifier and not removed the resource. -/
def Exists (s : ResourceState) : Bool := s.identifier.isSome && s.status != .deleted

/-- The state with an attribute set. -/
def setAttribute (s : ResourceState) (key : String) (v : Value) : ResourceState :=
  { s with attributes := s.attributes.insert key v }

/-- An attribute, if it is there and can be read. -/
def attribute? {α : Type} (s : ResourceState) (read : Value → Option α) (key : String) :
    Option α :=
  (s.attributes.find? key).bind read

end ResourceState

end ClusterKeeper
