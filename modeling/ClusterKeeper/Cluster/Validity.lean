/-
# Valid clusters

A cluster is valid if its document's layout is understood, it has a name and a cloud, its
pools have different names and none wants more machines at least than at most. The first
fault is reported.
-/

import ClusterKeeper.Cluster.Basic
import ClusterKeeper.Text.Blank

namespace ClusterKeeper

/-- A way in which a cluster is not well formed. -/
inductive ClusterFault where
  | noName
  | noCloud (cluster : String)
  | repeatedPool (pool : String)
  | reversedCounts (pool : String) (min max : UInt32)
  deriving DecidableEq, Repr

/-- A fault in words. -/
def ClusterFault.reason : ClusterFault → String
  | .noName => "name must not be empty"
  | .noCloud cluster => "cluster '" ++ cluster ++ "' has no cloud"
  | .repeatedPool pool => "duplicate server pool '" ++ pool ++ "'"
  | .reversedCounts pool min max =>
    "server pool '" ++ pool ++ "' has min_count " ++ toString min.toNat
      ++ " greater than max_count " ++ toString max.toNat

/-- What is wrong with a cluster. -/
inductive ClusterError where
  | invalid (reason : String)
  | poolNotFound (name : String)
  | unsupportedVersion (found supported : UInt32)
  deriving DecidableEq, Repr

/-- A fault as an error. -/
def ClusterError.fault (f : ClusterFault) : ClusterError := .invalid f.reason

/-- The name of a cluster error, for programs. -/
def ClusterError.code : ClusterError → String
  | .invalid _ => "InvalidCluster"
  | .poolNotFound _ => "ServerPoolNotFound"
  | .unsupportedVersion _ _ => "UnsupportedVersion"

/-- The message of a cluster error. -/
def ClusterError.message : ClusterError → String
  | .invalid reason => "Invalid cluster: " ++ reason
  | .poolNotFound name => "Server pool not found: " ++ name
  | .unsupportedVersion found supported =>
    "Cluster document version " ++ toString found.toNat ++ " is newer than supported version "
      ++ toString supported.toNat

namespace Cluster

/-- The first pool of a name is changed; there has to be one. -/
def updatePool (c : Cluster) (name : String) (f : ServerPool → ServerPool) :
    Except ClusterError Cluster :=
  match c.pool? name with
  | some _ => .ok (c.modifyPool name f)
  | none => .error (.poolNotFound name)

/-- Refuses documents of a layout that is too new. -/
def checkVersion (c : Cluster) : Except ClusterError Unit :=
  if supportedVersion < c.version then
    .error (.unsupportedVersion c.version supportedVersion)
  else .ok ()

/-- The first pool that has the name of an earlier one or wants more machines at least than
at most. -/
def checkPools : (earlier : List String) → List ServerPool → Except ClusterError Unit
  | _, [] => .ok ()
  | earlier, p :: ps =>
    if p.name ∈ earlier then
      .error (.fault (.repeatedPool p.name))
    else if p.maxCount < p.minCount then
      .error (.fault (.reversedCounts p.name p.minCount p.maxCount))
    else checkPools (p.name :: earlier) ps

/-- The first fault of a cluster. -/
def validate (c : Cluster) : Except ClusterError Unit := do
  c.checkVersion
  if Text.isBlank c.name then
    .error (.fault .noName)
  else if Text.isBlank c.cloud then
    .error (.fault (.noCloud c.name))
  else checkPools [] c.pools

end Cluster

end ClusterKeeper
