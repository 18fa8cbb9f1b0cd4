/-
# Commands

What each command does and prints. Commands only look at the state, but for a delete that is
confirmed.
-/

import ClusterKeeper.Cli.Arguments
import ClusterKeeper.Store.File

namespace ClusterKeeper.Cli

/-- Why a command failed. -/
inductive Failure where
  | settings (error : ConfigError)
  | store (error : StoreError)
  | invalid (name : String) (error : ClusterError)
  | notStored (name stateDir : String)
  | unconfirmed (name : String)
  deriving DecidableEq

namespace Failure

/-- The message of a failure. -/
def message : Failure → String
  | .settings e => e.message
  | .store e => e.message
  | .invalid name _ => "cluster '" ++ name ++ "' is invalid"
  | .notStored name stateDir => "cluster '" ++ name ++ "' not found in " ++ stateDir
  | .unconfirmed name =>
    "refusing to delete the document of '" ++ name
      ++ "' without --yes (cloud resources are not touched)"

/-- The message of what is behind a failure, where it is of interest. -/
def cause? : Failure → Option String
  | .invalid _ e => some e.message
  | .store (.unusable e) => some e.message
  | _ => none

/-- A text with all its lines indented. -/
def indented (text : String) : String :=
  String.ofList (text.toList.flatMap fun c => if c = '\n' then "\n    ".toList else [c])

/-- The failure for a reader. -/
def report (f : Failure) : String :=
  "Error: " ++ f.message ++ "\n"
    ++ match f.cause? with
      | none => ""
      | some cause => "\nCaused by:\n    " ++ indented cause ++ "\n"

end Failure

/-- What came of a command: what it printed, and why it failed if it did. -/
structure Outcome where
  output : List String := []
  failure : Option Failure := none
  deriving DecidableEq

namespace Outcome

/-- The whole output. -/
def text (o : Outcome) : String := String.join (o.output.map (· ++ "\n"))

/-- The exit code. -/
def exitCode (o : Outcome) : UInt32 := if o.failure.isSome then 1 else 0

/-- The exit code for words that ask for nothing that can be done. -/
def misuseCode : UInt32 := 2

end Outcome

/-- The version of the program. -/
def versionText : String := "clusterflow 0.3.0"

/-- Who holds the locks that are taken here. -/
def lockHolder (s : Surroundings) : String :=
  ((s.valueOf? "HOSTNAME").or (s.valueOf? "HOST")).getD "unknown"

/-- One pool in the summary of a cluster. -/
def poolLine (p : ServerPool) : String :=
  let size := if p.size.isEmpty then "(unset)" else p.size
  "    - " ++ p.name ++ " (" ++ p.role.name ++ ", " ++ toString p.minCount.toNat ++ ".."
    ++ toString p.maxCount.toNat ++ " x " ++ size ++ ")"

/-- The summary of a cluster. -/
def summary (c : Cluster) : List String :=
  ["✓ Cluster document is valid", "", "Summary:",
      "  Cloud: " ++ c.cloud ++ " (" ++ c.location ++ ")",
      "  Server pools: " ++ toString c.pools.length]
    ++ c.pools.map poolLine
    ++ if c.tags.isEmpty then [] else ["  Tags: " ++ toString c.tags.size]

/-- The outcome of something that prints lines or fails in the store. -/
def printed (output : List String) : Except StoreError (List String) → Outcome
  | .ok lines => { output := output ++ lines }
  | .error e => { output, failure := some (.store e) }

/-- Lists the clusters. -/
def list (store : FileStore) (stateDir : String) : FileDialogue Outcome := do
  return printed [] ((← store.list).map fun names =>
    if names.isEmpty then ["No clusters in " ++ stateDir] else names)

/-- Shows a document. -/
def get (store : FileStore) : FileDialogue Outcome := do
  return printed [] ((← store.get).map fun c => [c.pretty])

/-- Checks a document. -/
def validate (store : FileStore) : FileDialogue Outcome := do
  let output := ["Validating cluster '" ++ store.name ++ "'..."]
  match ← store.get with
  | .error e => return { output, failure := some (.store e) }
  | .ok c =>
    match c.validate with
    | .error e => return { output, failure := some (.invalid store.name e) }
    | .ok () => return { output := output ++ summary c }

/-- Removes a document. -/
def delete (store : FileStore) (stateDir : String) (confirmed : Bool) : FileDialogue Outcome := do
  if !(← store.hasDocument) then
    return { failure := some (.notStored store.name stateDir) }
  if !confirmed then return { failure := some (.unconfirmed store.name) }
  return printed [] ((← store.destroy).map fun () =>
    ["✓ Removed cluster document '" ++ store.name ++ "'"])

/-- Runs a command. -/
def run (s : Surroundings) (i : Invocation) : FileDialogue Outcome := do
  if i.command = .version then return { output := [versionText] }
  match ← Settings.load s with
  | .error e => return { failure := some (.settings e) }
  | .ok settings =>
    let stateDir := i.stateDir.getD settings.stateDirectory
    let store (name : String) : FileStore :=
      { root := .ofText stateDir, name, holder := lockHolder s }
    match i.command with
    | .version => return { output := [versionText] }
    | .list => list (store "") stateDir
    | .get name => get (store name)
    | .validate name => validate (store name)
    | .delete name confirmed =>
      delete { store name with lockRetry := .ofSettings settings.retry } stateDir confirmed

end ClusterKeeper.Cli
