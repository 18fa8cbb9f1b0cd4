/-
# Store errors

Why a store of documents could not do what it was asked to.
-/

import ClusterKeeper.Calendar.Moment
import ClusterKeeper.Cluster.Validity
import ClusterKeeper.Files.Tree
import ClusterKeeper.Json.Failure

namespace ClusterKeeper

/-- Why a lock could not be had. -/
inductive LockFault where
  /-- Another holds the lock since a moment. -/
  | held (holder : String) (since : Moment)
  /-- Another took the lock over when it was abandoned. -/
  | takenOver
  /-- The lock was let go and taken again while it was looked at. -/
  | changedHands
  deriving DecidableEq, Repr

/-- Why a store failed. -/
inductive StoreError where
  | notFound (name : String)
  | nameMismatch (store cluster : String)
  | locked (name : String) (fault : LockFault)
  | files (fault : FileFault)
  | malformed (failure : Json.Failure)
  | unusable (error : ClusterError)
  deriving DecidableEq

/-- What is the matter with the lock of a store. -/
def LockFault.message (name : String) : LockFault → String
  | .held holder since =>
    "State of " ++ name ++ " is locked by " ++ holder ++ " since " ++ since.text
  | .takenOver => "State of " ++ name ++ " was taken over by another process"
  | .changedHands => "State of " ++ name ++ " changed hands while locking"

/-- The message of an error. -/
def StoreError.message : StoreError → String
  | .notFound name => "Cluster not found in state store: " ++ name
  | .nameMismatch store cluster =>
    "State store for '" ++ store ++ "' cannot hold cluster '" ++ cluster ++ "'"
  | .locked name fault => "Lock acquisition failed: " ++ fault.message name
  | .files f => "IO error: " ++ f.message
  | .malformed f => "JSON error: " ++ f.message
  | .unusable e => "Cluster error: " ++ e.message

end ClusterKeeper
