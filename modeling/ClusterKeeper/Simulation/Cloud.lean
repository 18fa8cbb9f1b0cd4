/-
# Simulated clouds

A cloud that keeps a list of what is live and follows scripts. It creates a resource only
if it is not there, gives identifiers out by a counter, and enters every identifier into
the cluster under a tag and where the cluster has a place for it. Every call takes the next
entry of its script, which may let time pass, request an interrupt and fail, before or
after the call has had its effect.
-/

import ClusterKeeper.Reconcile.Engine

namespace ClusterKeeper.Simulation

open Json (Value)

/-- The calls that scripts are written for. -/
inductive CallName where
  | actual
  | expected
  | apply
  | delete
  | render
  | tag
  deriving DecidableEq, Repr

/-- The name of a call. -/
def CallName.text : CallName → String
  | .actual => "actual"
  | .expected => "expected"
  | .apply => "apply"
  | .delete => "delete"
  | .render => "render"
  | .tag => "tag"

/-- What a script has a call do. -/
structure Script where
  waitMillis : Nat := 0
  request : Option InterruptRequest := none
  error : Option CloudError := none
  /-- The interrupt and the error come after the call has had its effect. -/
  late : Bool := false
  deriving Inhabited

/-- A resource of the simulation. -/
structure Actor where
  resource : Resource
  status : ResourceStatus := .running
  needsTag : Option String := none
  attributes : SortedMap String Value := ∅
  deriving Inhabited

/-- The state of a simulated cloud. -/
structure World where
  actors : List Actor := []
  live : List (Resource × String) := []
  created : Nat := 0
  scripts : List ((Resource × CallName) × List Script) := []
  deriving Inhabited

/-- The name of a resource within tags. -/
def path (r : Resource) : String := r.kind.name ++ "/" ++ r.name

/-- Enters the identifier of a resource into a cluster, or takes it out. -/
def enter (r : Resource) (identifier : Option String) (c : Cluster) : Cluster :=
  let key := "id/" ++ path r
  let c := { c with tags := match identifier with
    | some id => c.tags.insert key id
    | none => c.tags.erase key }
  match r.kind with
  | .keyPair => { c with ssh := { c.ssh with identifier } }
  | .network => { c with network := { c.network with identifier } }
  | .loadBalancer => { c with api := { c.api with loadBalancer := identifier } }
  | .instanceGroup => c.modifyPool r.name fun p => { p with identifier }
  | _ => c

namespace World

/-- The actor at a place of the graph. -/
def actorAt (w : World) (index : Nat) : Actor := w.actors.getD index default

/-- The identifier of a resource that is live. -/
def identifier? (w : World) (r : Resource) : Option String := w.live.lookup r

/-- The world in which a resource is live under an identifier. -/
def create (w : World) (r : Resource) (identifier : String) : World :=
  { w with live := (r, identifier) :: w.live.filter (·.1 != r) }

/-- The world in which a resource is not live. -/
def destroy (w : World) (r : Resource) : World :=
  { w with live := w.live.filter (·.1 != r) }

/-- Adds entries to the script of a call. -/
def addScripts (w : World) (r : Resource) (call : CallName) (more : List Script) : World :=
  match w.scripts.lookup (r, call) with
  | none => { w with scripts := ((r, call), more) :: w.scripts }
  | some _ => { w with scripts := w.scripts.map fun s =>
      if s.1 = (r, call) then (s.1, s.2 ++ more) else s }

/-- Takes the next entry of a script; one that has run out asks for nothing. -/
def takeScript (w : World) (r : Resource) (call : CallName) : Script × World :=
  match w.scripts.lookup (r, call) with
  | some (s :: rest) =>
    (s, { w with scripts := w.scripts.map fun t =>
      if t.1 = (r, call) then (t.1, rest) else t })
  | _ => ({}, w)

end World

/-- What a call comes to without its script. -/
def effect : (c : CloudCall) → World → c.Answer × World
  | .expected i known, w =>
    let a := w.actorAt i
    let state : ResourceState :=
      { kind := a.resource.kind, name := a.resource.name, status := .running,
        attributes := a.attributes }
    (.ok (known.setTag ("expected/" ++ path a.resource) "1", state), w)
  | .actual i known, w =>
    let a := w.actorAt i
    let missing := "id/" ++ path a.resource
    match w.identifier? a.resource with
    | none => (.error (.resourceNotFound missing), w)
    | some id =>
      match a.needsTag.filter fun t => !known.tags.contains t with
      -- A resource whose tag is not known counts as one that is not there.
      | some t => (.error (.resourceNotFound (missing ++ " needs " ++ t)), w)
      | none =>
        let state : ResourceState :=
          { identifier := some id, kind := a.resource.kind, name := a.resource.name,
            status := a.status }
        (.ok (enter a.resource (some id) known, state), w)
  | .apply i actual expected applied, w =>
    let r := (w.actorAt i).resource
    if actual.Exists then (.ok (enter r actual.identifier applied, actual), w)
    else
      let id := r.kind.name ++ "-" ++ r.name ++ "-" ++ toString (w.created + 1)
      let state := { expected with identifier := some id }
      (.ok (enter r (some id) applied, state), { w.create r id with created := w.created + 1 })
  | .delete i _ known, w =>
    let r := (w.actorAt i).resource
    (.ok (enter r none known), w.destroy r)
  | .render i state known, w =>
    (.ok (enter (w.actorAt i).resource state.identifier known), w)

/-- The script that a call follows. -/
def callName : CloudCall → CallName
  | .expected _ _ => .expected
  | .actual _ _ => .actual
  | .apply _ _ _ _ => .apply
  | .delete _ _ _ => .delete
  | .render _ _ _ => .render

/-- A call that fails. -/
def refusal : (c : CloudCall) → CloudError → c.Answer
  | .expected _ _, e => .error e
  | .actual _ _, e => .error e
  | .apply _ _ _ _, e => .error e
  | .delete _ _ _, e => .error e
  | .render _ _ _, e => .error e

/-- Whether the call is one that has an effect on the cloud. -/
def changesCloud : CloudCall → Bool
  | .apply _ _ _ _ => true
  | .delete _ _ _ => true
  | _ => false

/-- Whether time may pass during the call. -/
def takesTime : CloudCall → Bool
  | .render _ _ _ => false
  | _ => true

/-- The simulated cloud. -/
def cloud : Cloud World := fun c w =>
  let r := (w.actorAt c.index).resource
  let (script, w) := w.takeScript r (callName c)
  -- A late error is answered although the call had its effect.
  let late := script.late && changesCloud c
  let (answer, w) : c.Answer × World :=
    match script.error with
    | some e => if late then (refusal c e, (effect c w).2) else (refusal c e, w)
    | none => effect c w
  ({ answer
     requests := script.request.toList
     elapsed := if takesTime c then script.waitMillis else 0 }, w)

end ClusterKeeper.Simulation
