/-
# A store in memory

Documents by their names. Each operation is made in the name of one cluster.
-/

import ClusterKeeper.Store.Error

namespace ClusterKeeper

/-- Documents by their names. -/
abbrev MemoryStore := SortedMap String Cluster

namespace MemoryStore

/-- Whether there is a document. -/
def hasDocument (s : MemoryStore) (name : String) : Bool := s.contains name

/-- Keeps a document, which has to be of the cluster that is named. -/
def commit (s : MemoryStore) (name : String) (c : Cluster) : Except StoreError MemoryStore :=
  if c.name = name then .ok (s.insert name c) else .error (.nameMismatch name c.name)

/-- Forgets a document. -/
def destroy (s : MemoryStore) (name : String) : MemoryStore := s.erase name

/-- The document of a cluster. -/
def get (s : MemoryStore) (name : String) : Except StoreError Cluster :=
  match s.find? name with
  | some c => .ok c
  | none => .error (.notFound name)

/-- The names of all clusters that have documents, in order. -/
def list (s : MemoryStore) : List String := s.keys

end MemoryStore

end ClusterKeeper
