/-
# Applying at once

For resources that do not depend on one another: the provider of a cluster's cloud lists
what every pool needs, and all of it is applied in one batch with a limit on its time.
Nothing is applied before everything is listed, and nothing is removed if the batch fails.
-/

import ClusterKeeper.Batch.Queue
import ClusterKeeper.Cluster.Document
import ClusterKeeper.Graph.Basic
import ClusterKeeper.Settings.Basic

namespace ClusterKeeper

/-- A resource with the name of the provider that applies it. -/
structure Assignment where
  provider : String
  resource : Resource
  deriving DecidableEq, Inhabited

/-- An assignment for inspection. -/
def Assignment.inspect (a : Assignment) : String :=
  Text.inspectRecord "ReconcilePair"
    [("provider", Text.quoted a.provider), ("resource", Text.quoted a.resource.label)]

/-- Providers by cloud, each known by what builds it. The one that was registered last
counts. -/
structure Providers (φ : Type) where
  factories : List (String × φ) := []

namespace Providers

variable {φ : Type}

/-- Registers a factory in place of the one for the same cloud. -/
def register (p : Providers φ) (cloud : String) (factory : φ) : Providers φ :=
  ⟨(cloud, factory) :: p.factories.filter (·.1 != cloud)⟩

/-- The registry for inspection. -/
def inspect (p : Providers φ) : String :=
  let clouds := (p.factories.map (·.1)).mergeSort fun a b => decide (a ≤ b)
  Text.inspectRecord "ProviderRegistry" [("clouds", Text.quotedList clouds)]

end Providers

/-- What is asked while a cluster is applied at once. -/
inductive BatchQuestion (φ : Type) where
  /-- That a provider is built, which gives its name. -/
  | connect (factory : φ)
  /-- What a pool needs. -/
  | list (pool : ServerPool)
  /-- That a batch is run. -/
  | applyAll (work : List Assignment) (limit : Duration)
  deriving DecidableEq

/-- The answers to each question. -/
@[reducible]
def BatchQuestion.Answer {φ : Type} : BatchQuestion φ → Type
  | .connect _ => Except CloudError String
  | .list _ => Except CloudError (List Resource)
  | .applyAll _ _ => Except ReconcileError Unit

/-- Providers and the limit on the time of a batch. -/
structure Applier (φ : Type) where
  providers : Providers φ
  limit : Duration

namespace Applier

variable {φ : Type}

/-- The applier that the settings ask for. -/
def ofSettings (providers : Providers φ) (s : ConcurrentSettings) : Applier φ :=
  ⟨providers, .ofSecs s.timeoutSecs⟩

/-- The applier for inspection. -/
def inspect (a : Applier φ) : String :=
  Text.inspectRecord "ConcurrentApplier"
    [("providers", a.providers.inspect), ("timeout", a.limit.text)]

/-- Asks one question. -/
def ask (q : BatchQuestion φ) : Dialogue (BatchQuestion.Answer (φ := φ)) q.Answer :=
  Dialogue.question (A := BatchQuestion.Answer) q

/-- The name of the provider for a cluster. -/
def connect (a : Applier φ) (c : Cluster) :
    Dialogue (BatchQuestion.Answer (φ := φ)) (Except CloudError String) :=
  match a.providers.factories.lookup c.cloud with
  | none => return .error (.providerNotFound c.cloud)
  | some f => ask (.connect f)

/-- What pools need, pool by pool, up to the first refusal. -/
def assignments (provider : String) : List ServerPool →
    Dialogue (BatchQuestion.Answer (φ := φ)) (Except ReconcileError (List Assignment))
  | [] => return .ok []
  | p :: ps => do
    match ← ask (.list p) with
    | .error e => return .error (.provider provider e)
    | .ok resources =>
      match ← assignments provider ps with
      | .error e => return .error e
      | .ok rest => return .ok (resources.map (Assignment.mk provider) ++ rest)

/-- Makes the cluster what is expected, unless that is what it is already. -/
def reconcile (a : Applier φ) (actual expected : Cluster) :
    Dialogue (BatchQuestion.Answer (φ := φ)) (Except ReconcileError Cluster) := do
  if actual.sameAs expected then return .ok actual
  else
    match ← a.connect expected with
    | .error e => return .error (.provider expected.cloud e)
    | .ok provider =>
      match ← assignments provider expected.pools with
      | .error e => return .error e
      | .ok work =>
        match ← ask (.applyAll work a.limit) with
        | .error e => return .error e
        | .ok () => return .ok expected

end Applier

end ClusterKeeper
