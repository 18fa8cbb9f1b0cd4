/-
# What commands change

Commands only look at the files of a machine, but for a delete that is confirmed. That one either
fails with nothing changed, or what was kept of the cluster is gone and nothing else. So behind any
commands the documents that are listed are those that there were at first, without those that were
deleted.
-/

import ClusterKeeper.Cli.Command
import ClusterKeeper.Proofs.Store.Isolation
import ClusterKeeper.Proofs.Store.Removal

namespace ClusterKeeper

open FileTree (IsFileName)
open FileDialogue
open Machine (run_bind run_pathExists)

variable {m m' : Machine} {d l : Location}

/-! ## Looking for settings -/

section Looking

variable {P : ∀ {α : Type}, FileDialogue α → Prop}

theorem Surroundings.looks_firstThere (h : Looking P) (paths : List String) :
    P (firstThere paths) := by
  induction paths with
  | nil => exact h.pure _
  | cons path paths ih =>
    refine h.bind (h.pathExists _) fun found => ?_
    split
    · exact h.pure _
    · exact ih

theorem Settings.looks_load (h : Looking P) (s : Surroundings) : P (Settings.load s) := by
  have hfind : P s.findSettingsFile := by
    rw [Surroundings.findSettingsFile]
    split
    · refine h.bind (h.pathExists _) fun found => ?_
      split <;> exact h.pure _
    · exact h.bind (Surroundings.looks_firstThere h _) fun _ => h.pure _
  refine h.bind hfind fun found => ?_
  split
  · exact h.pure _
  · exact h.pure _
  · refine h.bind (h.look (.readText _) rfl) fun answer => ?_
    split
    · exact h.pure _
    · split <;> exact h.pure _

end Looking

namespace Cli

/-! ## Commands that only look -/

/-- All commands but a delete that is confirmed are made of looks. -/
theorem looks_run {P : ∀ {α : Type}, FileDialogue α → Prop} (h : Looking P) (s : Surroundings)
    {i : Invocation} (hi : ∀ name, i.command ≠ .delete name true) : P (run s i) := by
  rw [run]
  split
  · exact h.pure _
  refine h.bind (Settings.looks_load h s) fun loaded => ?_
  split
  · exact h.pure _
  · simp only
    split
    · exact h.pure _
    · exact h.bind (FileStore.looks_list h) fun _ => h.pure _
    · exact h.bind (FileStore.looks_readDocument h _) fun _ => h.pure _
    · refine h.bind (FileStore.looks_readDocument h _) fun found => ?_
      split
      · exact h.pure _
      · split <;> exact h.pure _
    · next name confirmed heq =>
      cases confirmed with
      | true => exact absurd heq (hi name)
      | false =>
        refine h.bind (h.pathExists _) fun found => ?_
        split <;> exact h.pure _

/-- A command that only looks comes to something and changes nothing. -/
theorem exists_run_of_looks (m : Machine) (s : Surroundings) {i : Invocation}
    (hi : ∀ name, i.command ≠ .delete name true) : ∃ o, m.run (run s i) = (some o, m) :=
  (looks_run looking_onlyLooks s hi).exists_run (looks_run looking_unbroken s hi) m

/-! ## A delete that is confirmed -/

/-- The directory of the state that a command is for, where the settings can be loaded. -/
def stateDir? (m : Machine) (s : Surroundings) (i : Invocation) : Option String :=
  match (m.run (Settings.load s)).1 with
  | some (.ok settings) => some (i.stateDir.getD settings.stateDirectory)
  | _ => none

/-- The path of the directory of a cluster. -/
def clusterPath (dir name : String) : Path := (Path.ofText dir).join name

/-- What comes of a delete that is confirmed: it fails and nothing has changed, or there was a
document and what was kept of the cluster is gone. -/
inductive Deletes (m : Machine) (dir? : Option String) (name : String) (o : Outcome)
    (m' : Machine) : Prop
  | failed (hexit : o.exitCode = 1) (h : m.Later m')
  | done {dir : String} {d : Location} (hexit : o.exitCode = 0) (hdir : dir? = some dir)
    (henters : m.Enters (clusterPath dir name) d)
    (hdocument : (m.files.at? (d ++ ["cluster.json"])).isSome)
    (hrid : m.Rid (clusterPath dir name) d m')

/-- A document that is found is in a directory of its cluster. -/
theorem enters_of_find {s : FileStore} {n : FileNode} (hname : Path.IsNormal s.name)
    (h : m.find s.documentPath = .ok (l, n)) :
    ∃ d, m.Enters s.directory d ∧ (m.files.at? (d ++ ["cluster.json"])).isSome := by
  obtain ⟨hresolve, hn⟩ := Machine.eq_ok_of_find h
  have hempty : s.directory.isEmpty = false := by
    rw [FileStore.directory, hname.join_eq_child]
    exact Path.isEmpty_child _ _
  rw [FileStore.documentPath, Machine.resolve_child hempty isFileName_document] at hresolve
  obtain ⟨d, hd, hstep⟩ := exists_ok_of_bind hresolve
  have hl := Machine.eq_of_step (.inr isFileName_document) hstep
  refine ⟨d, ⟨hd, Machine.at?_of_step hstep⟩, ?_⟩
  have hdocument : l = d ++ ["cluster.json"] := hl
  rw [← hdocument, hn]
  rfl

theorem run_delete {s : FileStore} (hm : m.Sound) (hname : Path.IsNormal s.name) {dir : String}
    (hroot : s.root = .ofText dir) : ∃ o m', m.run (delete s dir true) = (some o, m') ∧
      Deletes m (some dir) s.name o m' := by
  rw [delete, FileStore.hasDocument, run_bind (run_pathExists _)]
  cases hfind : m.find s.documentPath with
  | error e => exact ⟨_, m, rfl, .failed rfl (.refl m)⟩
  | ok x =>
    obtain ⟨d, henters, hdocument⟩ := enters_of_find hname (l := x.1) (n := x.2) hfind
    have hpath : s.directory = clusterPath dir s.name := by
      rw [FileStore.directory, hroot, clusterPath]
    have hfound : (Except.ok x : Except FileFault _).isOk = true := rfl
    simp only [hfound, Bool.not_true, Bool.false_eq_true, if_false]
    rcases FileStore.run_destroy_cases hm hname henters with
      ⟨e, m', hrun, hlater⟩ | ⟨m', hrun, hrid⟩
    · rw [run_bind hrun]
      exact ⟨_, m', rfl, .failed rfl hlater⟩
    · rw [run_bind hrun]
      exact ⟨_, m', rfl, .done rfl rfl (hpath ▸ henters) hdocument (hpath ▸ hrid)⟩

/-- Loading settings comes to something and changes nothing. -/
theorem exists_run_load (m : Machine) (s : Surroundings) :
    ∃ loaded, m.run (Settings.load s) = (some loaded, m) :=
  (Settings.looks_load looking_onlyLooks s).exists_run (Settings.looks_load looking_unbroken s) m

/-- A delete that is confirmed comes to one of these. -/
theorem exists_run_delete (hm : m.Sound) (s : Surroundings) {i : Invocation} {name : String}
    (hname : Path.IsNormal name) (hi : i.command = .delete name true) :
    ∃ o m', m.run (run s i) = (some o, m') ∧ Deletes m (stateDir? m s i) name o m' := by
  obtain ⟨loaded, hloaded⟩ := exists_run_load m s
  rw [run, hi, if_neg nofun, run_bind hloaded, stateDir?, hloaded]
  cases loaded with
  | error e => exact ⟨_, m, rfl, .failed rfl (.refl m)⟩
  | ok settings =>
    let store : FileStore :=
      { root := .ofText (i.stateDir.getD settings.stateDirectory), name, holder := lockHolder s,
        lockRetry := .ofSettings settings.retry }
    exact run_delete (s := store) hm hname rfl

/-! ## Commands one after the other -/

/-- A command at a time, with what the program finds around it. -/
structure Visit where
  time : Moment
  surroundings : Surroundings
  invocation : Invocation

/-- Runs the command of a visit. -/
def serve (m : Machine) (v : Visit) : Option Outcome × Machine :=
  (m.atTime v.time).run (run v.surroundings v.invocation)

/-- The machine behind visits one after the other. -/
def serveAll (m : Machine) (vs : List Visit) : Machine := vs.foldl (fun m v => (serve m v).2) m

/-- The cluster that a visit has deleted. -/
def deleted? (m : Machine) (v : Visit) : Option String :=
  match v.invocation.command with
  | .delete name true => if (serve m v).1.any (·.exitCode = 0) then some name else none
  | _ => none

/-- The clusters that visits have deleted one after the other. -/
def deleted : Machine → List Visit → List String
  | _, [] => []
  | m, v :: vs => (deleted? m v).toList ++ deleted (serve m v).2 vs

/-- The cluster that a command names. -/
def Command.name? : Command → Option String
  | .get name | .validate name | .delete name _ => some name
  | .list | .version => none

/-- All visits are for one directory of the state, and the clusters that they name have names that
are single parts of a path. -/
def Within (dir : String) : Machine → List Visit → Prop
  | _, [] => True
  | m, v :: vs => (∀ d ∈ stateDir? (m.atTime v.time) v.surroundings v.invocation, d = dir) ∧
    (∀ name ∈ v.invocation.command.name?, Path.IsNormal name) ∧ Within dir (serve m v).2 vs

/-- Visits that give the directory are for it, whatever the settings say. -/
theorem within_of_given {dir : String} {vs : List Visit}
    (h : ∀ v ∈ vs, v.invocation.stateDir = some dir ∧
      ∀ name ∈ v.invocation.command.name?, Path.IsNormal name) : Within dir m vs := by
  induction vs generalizing m with
  | nil => trivial
  | cons v vs ih =>
    obtain ⟨⟨hdir, hname⟩, hvs⟩ := List.forall_mem_cons.1 h
    refine ⟨fun d hd => ?_, hname, ih hvs⟩
    rw [stateDir?, hdir] at hd
    split at hd
    · exact (Option.some.inj hd).symm
    · cases hd

/-- The names of the clusters that have documents below a directory of the state, in order. -/
def namesBelow (m : Machine) (dir : String) : List String :=
  match m.find (.ofText dir) with
  | .ok (l, .directory) => FileStore.listed m.files l
  | _ => []

/-- The machine is one on which a directory of the state, if there is one, is reached by way of
nothing that is in it. -/
structure Orderly (m : Machine) (dir : String) : Prop where
  sound : m.Sound
  outside : ∀ l, m.Enters (.ofText dir) l → m.Reaches (.ofText dir) l

theorem namesBelow_of_enters {dir : String} (h : m.Enters (.ofText dir) l) :
    namesBelow m dir = FileStore.listed m.files l := by
  rw [namesBelow, h.find]

theorem namesBelow_of_not_enters {dir : String} (h : ∀ l, ¬ m.Enters (.ofText dir) l) :
    namesBelow m dir = [] := by
  rw [namesBelow]
  split
  · next l hfind =>
    obtain ⟨hresolve, hl⟩ := Machine.eq_ok_of_find hfind
    exact absurd ⟨hresolve, hl⟩ (h l)
  · rfl

namespace Orderly

variable {dir name : String}

theorem later (h : Orderly m dir) (hm' : m.Later m') :
    Orderly m' dir ∧ namesBelow m' dir = namesBelow m dir := by
  obtain ⟨clock, today, rfl⟩ := hm'
  refine ⟨⟨⟨h.sound.wellFormed, h.sound.fresh, h.sound.quiet⟩, fun l hl => ?_⟩, rfl⟩
  obtain ⟨hresolve, hd⟩ := h.outside l ⟨hl.resolve, hl.directory⟩
  exact ⟨hresolve, hd⟩

/-- Where a cluster is gone, its name is listed no more, and the others are as they were. -/
theorem rid (h : Orderly m dir) (hname : Path.IsNormal name)
    (hd : m.Enters (clusterPath dir name) d) (hrid : m.Rid (clusterPath dir name) d m') :
    Orderly m' dir ∧ namesBelow m' dir = (namesBelow m dir).filter (· ≠ name) := by
  rw [clusterPath, hname.join_eq_child] at hd hrid
  obtain ⟨hfile, -⟩ := Machine.exists_of_resolve_child hname hd.resolve
  by_cases hroot : ∃ l, m.Enters (.ofText dir) l
  -- Nothing that is gone was on the way to the directory of the state, so it is still reached.
  · obtain ⟨l, hl⟩ := hroot
    have hreaches := h.outside l hl
    obtain rfl : l ++ [name] = d :=
      Except.ok.inj ((hl.resolve_child hfile).symm.trans hd.resolve)
    have hreaches' : m'.Reaches (.ofText dir) l :=
      hreaches.of_agree hrid.workingDirectory fun k hk hdir => by
        rw [hrid.elsewhere, hdir]
        rintro ⟨tail, rfl⟩
        refine hk (FileTree.isBelow_iff.2 ⟨?_, by simp⟩)
        rw [List.append_assoc]
        exact List.prefix_append _ _
    refine ⟨⟨hrid.sound, fun k hk => ?_⟩, ?_⟩
    · obtain rfl := Except.ok.inj (hreaches'.enters.resolve.symm.trans hk.resolve)
      exact hreaches'
    · rw [namesBelow_of_enters hreaches'.enters, namesBelow_of_enters hl]
      refine FileStore.listed_eq ((FileStore.pairwise_listed _ _).filter _)
        ((FileStore.nodup_listed _ _).filter _) fun other => ?_
      rw [List.mem_filter, FileStore.mem_listed hrid.sound.wellFormed,
        FileStore.mem_listed h.sound.wellFormed, decide_eq_true_iff]
      by_cases hother : other = name
      · subst hother
        have hdocument : m'.files.at? (l ++ [other] ++ ["cluster.json"]) = none :=
          hrid.below _ (FileTree.isBelow_iff.2 ⟨List.prefix_append _ _, by simp⟩)
        rw [FileStore.isFileAt, hdocument]
        simp
      · have hdocument : m'.files.at? (l ++ [other] ++ ["cluster.json"]) =
            m.files.at? (l ++ [other] ++ ["cluster.json"]) := by
          refine hrid.elsewhere _ fun hprefix => hother ?_
          rw [List.append_assoc, List.prefix_append_right_inj] at hprefix
          exact (List.cons_prefix_cons.1 hprefix).1.symm
        rw [FileStore.isFileAt, hdocument, FileStore.isFileAt, and_iff_left hother]
  -- An empty path leads nowhere, and yet the name of a cluster behind it may lead somewhere.
  · have hnot : ∀ l, ¬ m.Enters (.ofText dir) l := fun l hl => hroot ⟨l, hl⟩
    have hnot' : ∀ l, ¬ m'.Enters (.ofText dir) l := fun l hl =>
      hnot l (hl.mono hrid.workingDirectory.symm fun k => hrid.directory hd.directory)
    refine ⟨⟨hrid.sound, fun l hl => absurd hl (hnot' l)⟩, ?_⟩
    rw [namesBelow_of_not_enters hnot, namesBelow_of_not_enters hnot']
    rfl

/-- The calendar may have moved on. -/
theorem atTime (h : Orderly m dir) (t : Moment) :
    Orderly (m.atTime t) dir ∧ namesBelow (m.atTime t) dir = namesBelow m dir :=
  h.later ⟨m.clock, t, rfl⟩

/-- Behind a visit those names are listed that were listed before, but for one that was deleted. -/
theorem serve {v : Visit} (h : Orderly m dir)
    (hdir : ∀ d ∈ stateDir? (m.atTime v.time) v.surroundings v.invocation, d = dir)
    (hname : ∀ name ∈ v.invocation.command.name?, Path.IsNormal name) :
    Orderly (Cli.serve m v).2 dir ∧ namesBelow (Cli.serve m v).2 dir =
      (namesBelow m dir).filter (· ∉ deleted? m v) := by
  obtain ⟨hm, hnames⟩ := h.atTime v.time
  rw [← hnames]
  by_cases hv : ∃ name, v.invocation.command = .delete name true
  · obtain ⟨name, hv⟩ := hv
    have hnormal : Path.IsNormal name := hname name (by rw [hv]; rfl)
    obtain ⟨o, m', hrun, hdeletes⟩ := exists_run_delete hm.sound v.surroundings hnormal hv
    rw [deleted?, hv, Cli.serve, hrun]
    cases hdeletes with
    | failed hexit hlater =>
      obtain ⟨hm', hnames'⟩ := hm.later hlater
      refine ⟨hm', ?_⟩
      simp [hnames', hexit]
    | @done dir' d hexit hdir' henters hdocument hrid =>
      obtain rfl := hdir dir' hdir'
      obtain ⟨hm', hnames'⟩ := hm.rid hnormal henters hrid
      refine ⟨hm', ?_⟩
      simp [hnames', hexit, eq_comm]
  · -- Any other command only looks at the files.
    have hlooks := exists_run_of_looks (m.atTime v.time) v.surroundings (not_exists.1 hv)
    obtain ⟨o, hrun⟩ := hlooks
    have hnone : deleted? m v = none := by
      rw [deleted?]
      split
      · next name heq => exact absurd ⟨name, heq⟩ hv
      · rfl
    rw [Cli.serve, hrun, hnone]
    exact ⟨hm, by simp⟩

/-- Behind visits those names are listed that were listed at first, without those that were
deleted. -/
theorem serveAll {vs rest : List Visit} (h : Orderly m dir) (hvs : Within dir m (vs ++ rest)) :
    Orderly (Cli.serveAll m vs) dir ∧ Within dir (Cli.serveAll m vs) rest ∧
      namesBelow (Cli.serveAll m vs) dir = (namesBelow m dir).filter (· ∉ deleted m vs) := by
  induction vs generalizing m with
  | nil => exact ⟨h, hvs, (List.filter_eq_self.2 fun _ _ => by simp [deleted]).symm⟩
  | cons v vs ih =>
    obtain ⟨hdir, hname, hvs⟩ := hvs
    obtain ⟨hm, hnames⟩ := h.serve hdir hname
    obtain ⟨hm', hrest, hnames'⟩ := ih hm hvs
    refine ⟨hm', hrest, hnames'.trans ?_⟩
    rw [hnames, List.filter_filter]
    refine List.filter_congr fun name _ => ?_
    simp only [deleted, List.mem_append, Option.mem_toList, not_or, Bool.decide_and]
    exact Bool.and_comm _ _

end Orderly

/-! ## Listing -/

/-- What a list prints. -/
def listing (dir : String) (names : List String) : List String :=
  if names.isEmpty then ["No clusters in " ++ dir] else names

/-- A store lists what there is below its root, unless its root cannot be looked into. -/
theorem exists_run_store_list {s : FileStore} {dir : String} (h : Orderly m dir)
    (hroot : s.root = .ofText dir) :
    ∃ r, m.run s.list = (some r, m) ∧ ∀ names, r = .ok names → names = namesBelow m dir := by
  by_cases henters : ∃ l, m.Enters s.root l
  · obtain ⟨l, hl⟩ := henters
    refine ⟨_, FileStore.run_list_of_enters hl h.sound, fun names hnames => ?_⟩
    rw [namesBelow_of_enters (hroot ▸ hl)]
    exact (Except.ok.inj hnames).symm
  · have hnot (l : Location) : m.find s.root ≠ .ok (l, .directory) := by
      intro hfind
      obtain ⟨hresolve, hl⟩ := Machine.eq_ok_of_find hfind
      exact henters ⟨l, hresolve, hl⟩
    have hrun : m.run s.list = (some _, m) := Prod.ext (FileStore.run_list_of_not_directory hnot)
      ((FileStore.looks_list looking_onlyLooks).run m)
    refine ⟨_, hrun, fun names hnames => ?_⟩
    rw [namesBelow_of_not_enters fun l hl => henters ⟨l, hroot ▸ hl⟩]
    split at hnames
    · cases hnames
    · exact (Except.ok.inj hnames).symm
    · cases hnames

/-- A list prints the names that there are, or nothing where it fails. -/
theorem exists_run_list {dir : String} {s : Surroundings} {i : Invocation} (h : Orderly m dir)
    (hdir : ∀ d ∈ stateDir? m s i, d = dir) (hi : i.command = .list) :
    ∃ o, m.run (run s i) = (some o, m) ∧
      (o.exitCode = 0 → o.output = listing dir (namesBelow m dir)) ∧
      (o.exitCode = 1 → o.output = []) := by
  obtain ⟨loaded, hloaded⟩ := exists_run_load m s
  rw [stateDir?, hloaded] at hdir
  rw [run, hi, if_neg nofun, run_bind hloaded]
  cases loaded with
  | error e => exact ⟨_, rfl, nofun, fun _ => rfl⟩
  | ok settings =>
    obtain rfl := hdir _ rfl
    let store : FileStore :=
      { root := .ofText (i.stateDir.getD settings.stateDirectory), name := "",
        holder := lockHolder s }
    obtain ⟨r, hrun, hnames⟩ := exists_run_store_list (s := store) h rfl
    simp only
    rw [list, run_bind hrun]
    cases r with
    | error e => exact ⟨_, rfl, nofun, fun _ => rfl⟩
    | ok names =>
      obtain rfl := hnames names rfl
      exact ⟨_, rfl, fun _ => rfl, nofun⟩

/-- Commands change nothing, but for a delete that is confirmed. That one fails with nothing
changed, or there was a document of the cluster and exactly what was kept of the cluster is gone. So
the names that a list prints behind any commands for a directory are those that there were at first
without those that were deleted. -/
theorem only_confirmed_deletes_change :
    (∀ (m : Machine) (s : Surroundings) (i : Invocation),
      (∀ name, i.command ≠ .delete name true) → ∃ o, m.run (run s i) = (some o, m)) ∧
    (∀ (m : Machine) (s : Surroundings) (i : Invocation) (name : String), m.Sound →
      Path.IsNormal name → i.command = .delete name true →
      ∃ o m', m.run (run s i) = (some o, m') ∧ Deletes m (stateDir? m s i) name o m') ∧
    ∀ (m : Machine) (dir : String) (vs : List Visit) (w : Visit), Orderly m dir →
      Within dir m (vs ++ [w]) → w.invocation.command = .list →
      ∃ o, (serve (serveAll m vs) w).1 = some o ∧
        (o.exitCode = 0 →
          o.output = listing dir ((namesBelow m dir).filter (· ∉ deleted m vs))) ∧
        (o.exitCode = 1 → o.output = []) := by
  refine ⟨fun m s i => exists_run_of_looks m s, fun m s i name hm => exists_run_delete hm s,
    fun m dir vs w h hwithin hw => ?_⟩
  obtain ⟨hm, ⟨hdir, -, -⟩, hnames⟩ := h.serveAll hwithin
  obtain ⟨hm', hnames'⟩ := hm.atTime w.time
  obtain ⟨o, hrun, hlists, hfails⟩ := exists_run_list hm' hdir hw
  rw [hnames', hnames] at hlists
  exact ⟨o, by rw [serve, hrun], hlists, hfails⟩

/-! ## A directory of the state by two paths -/

namespace demoShell

/-- A machine with two clusters, one of which keeps something more in its directory. -/
def machine : Machine :=
  let empty : Machine := { today := ⟨0, 0⟩ }
  let demo := ((empty.addDirectory ["st"]).addDirectory ["st", "demo"]).put
    ["st", "demo", "cluster.json"] "kept"
  let notes := (demo.addDirectory ["st", "demo", "sub"]).put ["st", "demo", "sub", "notes"] ""
  (notes.addDirectory ["st", "other"]).put ["st", "other", "cluster.json"] "kept too"

theorem sound_machine : machine.Sound := by
  have hst : IsFileName "st" := by constructor <;> decide
  have hdemo : IsFileName "demo" := by constructor <;> decide
  have hsub : IsFileName "sub" := by constructor <;> decide
  have hnotes : IsFileName "notes" := by constructor <;> decide
  have hother : IsFileName "other" := by constructor <;> decide
  have hempty : ({ today := ⟨0, 0⟩ } : Machine).Sound := Machine.sound_of_empty rfl rfl
  have h₁ := hempty.addDirectory (d := []) rfl hst (by decide)
  have h₂ := h₁.addDirectory (d := ["st"]) (by decide) hdemo (by decide)
  have h₃ := h₂.put (d := ["st", "demo"]) (by decide) isFileName_document (by decide) "kept"
  have h₄ := h₃.addDirectory (d := ["st", "demo"]) (by decide) hsub (by decide)
  have h₅ := h₄.put (d := ["st", "demo", "sub"]) (by decide) hnotes (by decide) ""
  have h₆ := h₅.addDirectory (d := ["st"]) (by decide) hother (by decide)
  exact h₆.put (d := ["st", "other"]) (by decide) isFileName_document (by decide) "kept too"

/-- What is found around the program. -/
def shell : Surroundings := { workingDirectory := "/" }

/-- A command for a directory of the state. -/
def visit (dir : String) (command : Command) : Visit := ⟨⟨0, 0⟩, shell, ⟨some dir, command⟩⟩

/-- A delete that is not confirmed, one that is, and that one once more. -/
def visits (dir : String) : List Visit :=
  [visit dir (.delete "demo" false), visit dir (.validate "other"),
    visit dir (.delete "demo" true), visit dir (.delete "demo" true)]

theorem isNormal_demo : Path.IsNormal "demo" := by constructor <;> decide

theorem isNormal_other : Path.IsNormal "other" := by constructor <;> decide

theorem orderly_machine : Orderly machine "st" where
  sound := sound_machine
  outside l hl := by
    have hst : machine.resolve (.ofText "st") = .ok ["st"] := by decide +kernel
    obtain rfl := Except.ok.inj (hst.symm.trans hl.resolve)
    exact ⟨by decide +kernel, by decide⟩

theorem listed_machine : FileStore.listed machine.files ["st"] = ["demo", "other"] := by
  have hnames : ((machine.files.names ["st"]).filter fun name =>
      FileStore.isFileAt machine.files (["st"] ++ [name] ++ ["cluster.json"])) =
        ["demo", "other"] := by decide +kernel
  rw [FileStore.listed, hnames]
  exact List.mergeSort_of_pairwise (by simp +decide)

theorem namesBelow_machine {dir : String} (h : machine.resolve (.ofText dir) = .ok ["st"]) :
    namesBelow machine dir = ["demo", "other"] :=
  (namesBelow_of_enters ⟨h, by decide⟩).trans listed_machine

theorem within_visits : Within "st" machine (visits "st" ++ [visit "st" .list]) :=
  within_of_given (by simp [visits, visit, Command.name?, isNormal_demo, isNormal_other])

/-- A list looks, a delete deletes, and behind some visits the cluster that was deleted is listed no
more. -/
theorem served_machine :
    (∃ o, machine.run (run shell ⟨some "st", .list⟩) = (some o, machine)) ∧
    (∃ o m', machine.run (run shell ⟨some "st", .delete "demo" true⟩) = (some o, m') ∧
      Deletes machine (some "st") "demo" o m') ∧
    ∃ o, (serve (serveAll machine (visits "st")) (visit "st" .list)).1 = some o ∧
      (o.exitCode = 0 → o.output = ["other"]) := by
  obtain ⟨hlooks, hdeletes, hlists⟩ := only_confirmed_deletes_change
  have hdir : stateDir? machine shell ⟨some "st", .delete "demo" true⟩ = some "st" := by
    decide +kernel
  have hnames : listing "st" ((namesBelow machine "st").filter
      (· ∉ deleted machine (visits "st"))) = ["other"] := by
    have hdeleted : deleted machine (visits "st") = ["demo"] := by decide +kernel
    rw [namesBelow_machine (by decide +kernel), hdeleted]
    decide
  refine ⟨hlooks _ _ _ nofun, ?_, ?_⟩
  · have hdemo := hdeletes machine shell ⟨some "st", .delete "demo" true⟩ "demo" sound_machine
      isNormal_demo rfl
    rwa [hdir] at hdemo
  · obtain ⟨o, ho, hprints, -⟩ :=
      hlists machine "st" (visits "st") (visit "st" .list) orderly_machine within_visits rfl
    exact ⟨o, ho, fun hexit => (hprints hexit).trans hnames⟩

/-- A path to the directory of the state through the directory of a cluster. -/
def winding : String := "st/demo/sub/../.."

/-- A machine of which it is said that it has a settings file which is not there. -/
def unsettled : Surroundings :=
  { shell with environment := [("CLUSTERFLOW_CONFIG_PATH", "settings.yaml")] }

/-- By that path a delete leaves the directory of the cluster, and a list behind it finds none of
the documents that are left. Neither does a list for which the settings cannot be loaded. -/
theorem directory_left :
    (serve machine (visit winding (.delete "demo" true))).1.map (·.exitCode) = some 0 ∧
      (serve machine (visit winding (.delete "demo" true))).2.files.at? ["st", "demo"] =
        some .directory ∧
      namesBelow machine winding = ["demo", "other"] ∧
      deleted machine (visits winding) = ["demo"] ∧
      (serve (serveAll machine (visits winding)) (visit winding .list)).1.map (·.output) =
        some ["No clusters in st/demo/sub/../.."] ∧
      (serve machine ⟨⟨0, 0⟩, unsettled, ⟨some "st", .list⟩⟩).1.map (·.output) = some [] :=
  ⟨by decide +kernel, by decide +kernel, namesBelow_machine (by decide +kernel),
    by decide +kernel, by decide +kernel, by decide +kernel⟩

end demoShell

end Cli

end ClusterKeeper
