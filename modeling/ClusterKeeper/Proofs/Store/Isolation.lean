/-
# Clusters beside each other

Whatever a call through a store comes to, it touches nothing but the directory of its own cluster
and what is made on the way to it. Stores below one root therefore leave each other's documents
alone as long as their names lead to places apart, as names without slashes do. A name with slashes
may lead into the directory of another cluster, or to one of its documents.
-/

import ClusterKeeper.Proofs.Store.Archive
import ClusterKeeper.Proofs.Store.FailedCommit

namespace ClusterKeeper

open FileTree (IsFileName)
open FileDialogue
open Machine (run_bind run_bind_of_none run_ask run_pathExists)

variable {α β : Type} {m m' m₁ : Machine} {d k l : Location} {p root : Path} {s : FileStore}
variable {name other : String}

namespace FileStore

section Looking

variable {P : ∀ {α : Type}, FileDialogue α → Prop}

theorem looks_readDocument (h : Looking P) (p : Path) : P (s.readDocument p) := by
  refine h.bind (h.pathExists p) fun found => ?_
  cases found with
  | false => exact h.pure _
  | true =>
    refine h.bind (h.look (.readText p) rfl) fun answer => ?_
    split
    · exact h.pure _
    · split
      · exact h.pure _
      · split <;> exact h.pure _

theorem looks_list (h : Looking P) : P s.list := by
  refine h.bind (h.pathExists? s.root) fun answer => ?_
  split
  · exact h.pure _
  · exact h.pure _
  · refine h.bind (h.look (.list s.root) rfl) fun answer => ?_
    split
    · exact h.pure _
    · exact h.bind (h.filterM (fun _ => h.leadsToFile _) _) fun _ => h.pure _

end Looking

/-! ## Where a store works -/

/-- The names that lead from the root of all clusters to the directory of one. -/
def route (name : String) : List String := Path.onward (Path.partsOf name)

/-- Where the directory of the cluster is, below the place of the root. -/
def place (s : FileStore) (l : Location) : Location := l ++ route s.name

/-- The directory under the first name is neither above the one under the second, nor in the place
of its document or its backup or below that. -/
def Apart (name other : String) : Prop :=
  ¬ route name <+: route other ∧
    ∀ f ∈ ["cluster.json", "cluster.json.backup"], ¬ route other ++ [f] <+: route name

theorem route_name (h : IsFileName name) : route name = [name] := by
  rw [route, Path.partsOf_name h, Path.onward_cons h.ne_dot]
  rfl

/-- Names of directories are apart unless they are the same. -/
theorem apart_of_ne (h : IsFileName name) (h' : IsFileName other) (hne : name ≠ other) :
    Apart name other := by
  rw [Apart, route_name h, route_name h']
  refine ⟨fun hle => hne ?_, fun f _ hle => absurd hle.length_le (by simp)⟩
  simpa using hle

/-- The root does not lead anywhere by names. -/
theorem Apart.route_ne_nil (h : Apart name other) : route name ≠ [] :=
  fun hnil => h.1 (hnil ▸ List.nil_prefix)

/-- A document under the second name is not in the directory under the first, and not on the way
to it. -/
theorem Apart.place (h : Apart s.name other) {f : String}
    (hf : f ∈ ["cluster.json", "cluster.json.backup"]) :
    ¬ s.place l <+: l ++ route other ++ [f] ∧ ¬ l ++ route other ++ [f] <+: s.place l := by
  rw [FileStore.place, List.append_assoc, List.prefix_append_right_inj,
    List.prefix_append_right_inj, List.prefix_concat_iff]
  refine ⟨?_, h.2 f hf⟩
  rintro (heq | hle)
  · exact h.2 f hf (heq ▸ List.prefix_refl _)
  · exact h.1 hle

theorem isBelow_of_place (hroute : route s.name ≠ []) (hk : s.place l <+: k) :
    FileTree.isBelow k l = true := by
  obtain ⟨rest, rfl⟩ := hk
  have hlength := List.length_pos_iff.2 hroute
  rw [FileTree.isBelow_iff, place, List.append_assoc]
  exact ⟨List.prefix_append _ _, by simp only [List.length_append]; omega⟩

/-- Every request of the dialogue being served, nothing changes but what is in the directory of the
cluster and what is made on the way to it. -/
def KeepsTo (s : FileStore) (l : Location) (c : FileDialogue α) : Prop :=
  ∀ m : Machine, m.Sound → m.Aims s.root l →
    m.SameApart (s.place l) (fun k => s.place l <+: k) (m.run c).2

section

variable {c : FileDialogue α}

theorem keepsTo_of_onlyLooks (hc : c.OnlyLooks) : s.KeepsTo l c := by
  intro m hm _
  rw [hc.run]
  exact .refl hm

theorem keepsTo_of_spares {S : Location → Prop} (hname : Path.Descends s.name)
    (hc : Spares s.directory (s.place l) S c) (hS : ∀ k, S k → s.place l <+: k) :
    s.KeepsTo l c := by
  intro m hm hroot
  obtain ⟨log, hends, hunder⟩ := m.exists_record c
  exact (hc hm (hroot.join hname) hends hunder).1.mono hS

/-- What goes on behind a dialogue may rely on what it comes to. -/
theorem KeepsTo.bind {P : α → Prop} {g : α → FileDialogue β} (hroute : route s.name ≠ [])
    (hc : s.KeepsTo l c) (hyields : c.Yields P) (hg : ∀ x, P x → s.KeepsTo l (g x)) :
    s.KeepsTo l (c >>= g) := by
  intro m hm hroot
  have hsame := hc m hm hroot
  obtain ⟨log, hends, -⟩ := m.exists_record c
  rcases hrun : m.run c with ⟨o, m₁⟩
  rw [hrun] at hsame hends
  cases o with
  | none =>
    rw [run_bind_of_none hrun]
    exact hsame
  | some x =>
    rw [run_bind hrun]
    have hroot₁ := hsame.aims (fun k => isBelow_of_place hroute) hroot
    exact hsame.trans (hg x (hyields hends) m₁ hsame.sound hroot₁)

end

/-! ## Calls on a store -/

/-- When the former document has been moved, there is none until the new one is written. -/
theorem document_of_rotate (hm : m.Sound) (hp : m.Aims s.directory d)
    (hrun : m.run s.rotate = (some (.ok ()), m')) :
    m'.files.at? (d ++ ["cluster.json"]) = none := by
  -- Whatever comes before it, the last step is the move.
  have hrename {m₁ : Machine} (hm₁ : m₁.Sound) (hp₁ : m₁.Aims s.directory d)
      (h : m₁.run (ask (.rename s.documentPath s.backupPath)) = (some (.ok ()), m')) :
      m'.files.at? (d ++ ["cluster.json"]) = none := by
    have hanswer : m₁.MayAnswer (.rename s.documentPath s.backupPath) (.ok ()) m' := by
      rw [run_ask] at h
      obtain ⟨hok, rfl⟩ := Prod.mk.inj h
      rw [← Option.some.inj hok]
      exact .served _ m₁.today
    rcases hanswer.of_rename (S := fun _ => False) hm₁ hp₁ isFileName_document
      isFileName_backup (by simp) with ⟨⟨e, he⟩, -⟩ | ⟨-, -, -, -, hnone⟩
    · cases he
    · exact hnone
  rw [rotate, run_bind (run_pathExists _)] at hrun
  rcases hp.find_child_cases hm isFileName_document with ⟨e, hfind, hn⟩ | ⟨n, hfind, hn⟩
  · rw [documentPath, hfind] at hrun
    cases hrun
    exact hn
  · rw [documentPath, hfind] at hrun
    simp only [Except.isOk, Except.toBool, if_true] at hrun
    rw [run_bind (run_pathExists _)] at hrun
    by_cases hbackup : (m.find s.backupPath).isOk = true
    · rw [hbackup, if_pos rfl, run_bind (run_ask _)] at hrun
      have hsame : m.SameApart d (· = d ++ ["cluster.json.backup"])
          (Machine.respond (.removeFile s.backupPath) m).2 :=
        Machine.sameApart_removeFile hm hp isFileName_backup
      rcases hremove : Machine.respond (.removeFile s.backupPath) m with ⟨a, m₁⟩
      rw [hremove] at hrun hsame
      cases a with
      | error e => cases hrun
      | ok => exact hrename hsame.sound (hsame.aims (isBelow_child d _) hp) hrun
    · rw [if_neg hbackup] at hrun
      exact hrename hm hp hrun

/-- The former document is moved before the new one is written, and no other file changes with
it. -/
theorem keepsTo_keep (hname : Path.Descends s.name) (hroute : route s.name ≠ []) (c : Cluster) :
    s.KeepsTo l (s.keep c) := by
  intro m hm hroot
  have hp : m.Aims s.directory (s.place l) := hroot.join hname
  have hdocuments (k : Location) (hk : InDocuments (s.place l) k) : s.place l <+: k :=
    hk.elim (List.prefix_append _ _).trans (List.prefix_append _ _).trans
  have hrotated : m.SameApart (s.place l) (fun k => s.place l <+: k) (m.run s.rotate).2 := by
    obtain ⟨log, hends, hunder⟩ := m.exists_record s.rotate
    rcases rotated_of_ends hm hp hends hunder with ⟨hsame, -⟩ | haside
    · exact hsame.mono fun k hk => hk ▸ List.prefix_append _ _
    · exact haside.same.mono hdocuments
  rcases hrun : m.run s.rotate with ⟨o, m₁⟩
  rw [hrun] at hrotated
  rw [keep]
  rcases o with _ | e | ⟨⟩
  · rw [run_bind_of_none hrun]
    exact hrotated
  · rw [run_bind hrun]
    exact hrotated
  · rw [run_bind hrun]
    have hp₁ : m₁.Aims s.directory (s.place l) :=
      Machine.Aims.join (hrotated.aims (fun k => isBelow_of_place hroute) hroot) hname
    obtain ⟨log, hends, hunder⟩ := m₁.exists_record (writeFile s.documentPath c.pretty)
    refine hrotated.trans ?_
    rcases rewritten_of_ends hrotated.sound hp₁ hends hunder with ⟨hsame, -⟩ | hrewritten
    · exact hsame.mono fun _ => False.elim
    · -- With the former document out of the way, the new one is a file of its own.
      exact (hrewritten.same (document_of_rotate hm hp hrun)).mono fun k hk =>
        hk ▸ List.prefix_append _ _

theorem keepsTo_removeDirectory (hname : Path.Descends s.name) (hroute : route s.name ≠ []) :
    s.KeepsTo l (ask (.removeDirectory s.directory)) := by
  intro m hm hroot
  have hp : m.Aims s.directory (s.place l) := hroot.join hname
  have hne : s.place l ≠ [] := List.append_ne_nil_of_right_ne_nil _ hroute
  have hemptied : m.SameApart (s.place l) (fun k => s.place l <+: k) (m.emptied (s.place l)) :=
    .of_eq (hm.emptied _) rfl fun k hk =>
      (Machine.at?_emptied _ _ _).trans (if_neg fun hbelow => hk (FileTree.isBelow_iff.1 hbelow).1)
  have hcut : m.SameApart (s.place l) (fun k => s.place l <+: k) (m.cut (s.place l)) :=
    .of_eq (hm.cut hne) rfl fun k hk => (Machine.at?_cut hne k).trans (if_neg hk)
  have hrun : (m.run (ask (.removeDirectory s.directory))).2 = (m.removeDirectory s.directory).1 :=
    rfl
  rw [hrun]
  rcases hfind : m.find s.directory with e | ⟨k, _ | _⟩
  · rw [Machine.removeDirectory, hfind]
    exact .refl hm
  · rw [Machine.removeDirectory, hfind]
    exact .refl hm
  · -- What was in the directory is gone, and the directory itself may be.
    rcases (hp.enters_of_find hfind).removeDirectory with hremoved | hremoved <;> rw [hremoved]
    · exact hemptied
    · exact hcut

/-- What is done with the lock held keeps to the directory, and so does what is done with the
lock. -/
theorem keepsTo_whileLocked {action : FileDialogue (Except FileFault Unit)}
    (hname : Path.Descends s.name) (hroute : route s.name ≠ []) (haction : s.KeepsTo l action) :
    s.KeepsTo l (s.whileLocked action) := by
  have hlock (k : Location) (hk : k = s.place l ++ ["lock.json"]) : s.place l <+: k :=
    hk ▸ List.prefix_append _ _
  have hany {γ : Type} (c : FileDialogue γ) : c.Yields fun _ => True := fun _ _ _ => trivial
  refine (keepsTo_of_spares hname onlyLocks_lock hlock).bind hroute yields_lock fun x hx => ?_
  cases x with
  | error e => exact keepsTo_of_onlyLooks (Dialogue.asks_pure _)
  | ok h =>
    obtain rfl := hx h rfl
    refine haction.bind hroute (hany _) fun x _ => ?_
    cases x with
    | error e =>
      exact (keepsTo_of_spares hname onlyLocks_drop hlock).bind hroute (hany _) fun _ _ =>
        keepsTo_of_onlyLooks (Dialogue.asks_pure _)
    | ok => exact keepsTo_of_spares hname onlyLocks_release hlock

theorem keepsTo_perform (hname : Path.Descends s.name) (hroute : route s.name ≠ [])
    (call : StoreCall) : s.KeepsTo l (s.perform call) := by
  have hany {γ : Type} (c : FileDialogue γ) : c.Yields fun _ => True := fun _ _ _ => trivial
  cases call with
  | commit c =>
    by_cases hof : c.name = s.name
    · rw [perform, commit_eq hof]
      exact keepsTo_whileLocked hname hroute (keepsTo_keep hname hroute c)
    · rw [perform, commit, if_pos hof]
      exact keepsTo_of_onlyLooks (Dialogue.asks_pure _)
  | destroy =>
    refine (keepsTo_of_onlyLooks (looking_onlyLooks.pathExists? _)).bind hroute (hany _)
      fun x _ => ?_
    split
    · exact keepsTo_of_onlyLooks (Dialogue.asks_pure _)
    · exact keepsTo_of_onlyLooks (Dialogue.asks_pure _)
    · exact keepsTo_whileLocked hname hroute (keepsTo_removeDirectory hname hroute)
  | get => exact keepsTo_of_onlyLooks (looks_readDocument looking_onlyLooks _)
  | getBackup => exact keepsTo_of_onlyLooks (looks_readDocument looking_onlyLooks _)
  | hasDocument => exact keepsTo_of_onlyLooks (looking_onlyLooks.pathExists _)
  | list => exact keepsTo_of_onlyLooks (looks_list looking_onlyLooks)

/-! ## Answers beside calls -/

end FileStore

/-- The call asks for one of the documents of its cluster. -/
def StoreCall.looksUp : StoreCall → Bool
  | .get => true
  | .getBackup => true
  | .hasDocument => true
  | _ => false

/-- The visit is to a cluster below a root whose name leads down from there. -/
def StoreVisit.Within (root : Path) (v : StoreVisit) : Prop :=
  v.store.root = root ∧ Path.Descends v.store.name

namespace FileStore

/-- What is answered about the documents of a cluster depends on what is in their places. -/
theorem perform_congr {call : StoreCall} (hcall : call.looksUp = true) (hm : m.Sound)
    (hm' : m'.Sound) (hp : m.Aims s.directory d) (hp' : m'.Aims s.directory d)
    (hat : ∀ f ∈ ["cluster.json", "cluster.json.backup"],
      m'.files.at? (d ++ [f]) = m.files.at? (d ++ [f])) :
    (m'.run (s.perform call)).1 = (m.run (s.perform call)).1 := by
  have hdocument := hat "cluster.json" (by simp)
  have hbackup := hat "cluster.json.backup" (by simp)
  cases call with
  | get =>
    rw [perform, get, documentPath, run_readDocument_of_aims hm' hp' isFileName_document,
      run_readDocument_of_aims hm hp isFileName_document, hdocument]
  | getBackup =>
    rw [perform, getBackup, backupPath, run_readDocument_of_aims hm' hp' isFileName_backup,
      run_readDocument_of_aims hm hp isFileName_backup, hbackup]
  | hasDocument =>
    rw [perform, run_hasDocument_of_aims hm' hp', run_hasDocument_of_aims hm hp, hdocument]
  | _ => cases hcall

end FileStore

namespace StoreVisit

variable {v w : StoreVisit} {vs : List StoreVisit}

/-- A visit keeps to the directory of its cluster. -/
theorem Within.sameApart (hv : v.Within root) (hroute : FileStore.route v.store.name ≠ [])
    (hm : m.Sound) (hroot : m.Aims root l) :
    m.SameApart (v.store.place l) (fun k => v.store.place l <+: k) (m.visit v).2 := by
  obtain ⟨rfl, hname⟩ := hv
  have htime : m.SameApart (v.store.place l) (fun k => v.store.place l <+: k) (m.atTime v.time) :=
    .atTime hm v.time
  exact htime.trans (FileStore.keepsTo_perform hname hroute v.call _ htime.sound
    (hroot.of_agree rfl fun _ _ hk => hk))

/-- A visit to a cluster apart is no matter for a visit that looks a document up. -/
theorem Within.visit_eq (hw : w.Within root) (hcall : w.call.looksUp = true) (hv : v.Within root)
    (hapart : FileStore.Apart v.store.name w.store.name) (hm : m.Sound) (hroot : m.Aims root l) :
    ((m.visit v).2.visit w).1 = (m.visit w).1 := by
  have hsame := hv.sameApart hapart.route_ne_nil hm hroot
  have hroot' := hsame.aims (fun k => FileStore.isBelow_of_place hapart.route_ne_nil) hroot
  obtain ⟨rfl, hname⟩ := hw
  have htime {m : Machine} (hroot : m.Aims w.store.root l) :
      (m.atTime w.time).Aims w.store.directory (l ++ FileStore.route w.store.name) :=
    Machine.Aims.join (hroot.of_agree rfl fun _ _ hk => hk) hname
  have hsound {m : Machine} (hm : m.Sound) : (m.atTime w.time).Sound :=
    ⟨hm.wellFormed, hm.fresh, hm.quiet⟩
  refine FileStore.perform_congr hcall (hsound hm) (hsound hsame.sound) (htime hroot)
    (htime hroot') fun f hf => ?_
  obtain ⟨hbelow, habove⟩ := hapart.place (l := l) hf
  exact hsame.at?_eq_of_not_onWay hbelow habove

end StoreVisit

namespace MemoryStore

/-- A call in memory changes nothing under another name. -/
theorem find?_visit (docs : MemoryStore) {v : StoreVisit} (hne : v.store.name ≠ name) :
    (docs.visit v).2.find? name = docs.find? name := by
  obtain ⟨time, s, call⟩ := v
  cases call with
  | commit c =>
    rw [visit, perform, commit]
    by_cases hname : c.name = s.name
    · rw [if_pos hname]
      exact (SortedMap.find?_insert docs s.name name c).trans (if_neg (Ne.symm hne))
    · rw [if_neg hname]
  | destroy => exact (SortedMap.find?_erase docs s.name name).trans (if_neg (Ne.symm hne))
  | _ => rfl

theorem find?_visits (docs : MemoryStore) {vs : List StoreVisit}
    (hne : ∀ v ∈ vs, v.store.name ≠ name) : (docs.visits vs).find? name = docs.find? name := by
  induction vs generalizing docs with
  | nil => rfl
  | cons v vs ih =>
    obtain ⟨hv, hvs⟩ := List.forall_mem_cons.1 hne
    exact (ih _ hvs).trans (docs.find?_visit hv)

theorem visit_congr {docs docs' : MemoryStore} {w : StoreVisit} (hcall : w.call.looksUp = true)
    (h : docs'.find? w.store.name = docs.find? w.store.name) :
    (docs'.visit w).1 = (docs.visit w).1 := by
  obtain ⟨time, s, call⟩ := w
  cases call with
  | get =>
    change some (MemoryStore.get docs' s.name) = some (MemoryStore.get docs s.name)
    rw [get, get, h]
  | getBackup => rfl
  | hasDocument => exact congrArg (fun o => some (Option.isSome o)) h
  | _ => cases hcall

end MemoryStore

/-- Clusters below one root are kept apart. Whatever is on the machine, no visits to clusters whose
names lead to places apart change what a visit that looks up the documents of a cluster is answered,
whatever those visits come to. Names of directories lead to places apart if they are different; in
memory any two different names do. -/
theorem StoreVisit.Within.visits_apart {w : StoreVisit} {vs : List StoreVisit}
    (hm : m.Sound) (hroot : m.Aims root l) (hw : w.Within root) (hcall : w.call.looksUp = true) :
    ((∀ v ∈ vs, v.Within root ∧ FileStore.Apart v.store.name w.store.name) →
        ((m.visits vs).visit w).1 = (m.visit w).1) ∧
      ((∀ v ∈ vs, v.Below root ∧ v.store.name ≠ w.store.name) → IsFileName w.store.name →
        ((m.visits vs).visit w).1 = (m.visit w).1) ∧
      ((∀ v ∈ vs, v.store.name ≠ w.store.name) →
        ∀ docs : MemoryStore, ((docs.visits vs).visit w).1 = (docs.visit w).1) := by
  have hapart (hvs : ∀ v ∈ vs, v.Within root ∧ FileStore.Apart v.store.name w.store.name) :
      ((m.visits vs).visit w).1 = (m.visit w).1 := by
    induction vs generalizing m with
    | nil => rfl
    | cons v vs ih =>
      obtain ⟨⟨hv, hvw⟩, hvs⟩ := List.forall_mem_cons.1 hvs
      have hsame := hv.sameApart hvw.route_ne_nil hm hroot
      have hroot' := hsame.aims (fun k => FileStore.isBelow_of_place hvw.route_ne_nil) hroot
      exact (ih hsame.sound hroot' hvs).trans (hw.visit_eq hcall hv hvw hm hroot)
  refine ⟨hapart, fun hvs hname => hapart fun v hv => ?_, fun hvs docs => ?_⟩
  · obtain ⟨⟨hvroot, hvname⟩, hne⟩ := hvs v hv
    exact ⟨⟨hvroot, Path.descends_name hvname⟩, FileStore.apart_of_ne hvname hname hne⟩
  · exact MemoryStore.visit_congr hcall (docs.find?_visits hvs)

/-! ## Names that lead into each other -/

namespace nestedStores

open demoStore (machine visitAt demo)

/-- A visit to a cluster of a name. -/
abbrev visitTo (name : String) (call : StoreCall) : StoreVisit := visitAt demoStore.root name call

/-- Commits of the clusters of some names. -/
abbrev commitsOf (names : List String) : List StoreVisit :=
  names.map fun name => visitTo name (.commit { demo with name })

/-- The machine behind the commits. -/
def behind (names : List String) : Machine := machine.visits (commitsOf names)

/-- The map in memory behind the same commits. -/
def documentsBehind (names : List String) : MemoryStore := MemoryStore.visits ∅ (commitsOf names)

/-- To destroy a cluster is to lose one whose name goes on from its own, and to commit a cluster is
to find one in the place of whose document its directory is. In memory none of that happens. -/
theorem not_apart :
    ((behind ["demo", "demo/edge"]).visit (visitTo "demo/edge" .hasDocument)).1 = some true ∧
      (((behind ["demo", "demo/edge"]).visit (visitTo "demo" .destroy)).2.visit
        (visitTo "demo/edge" .hasDocument)).1 = some false ∧
      (((documentsBehind ["demo", "demo/edge"]).visit (visitTo "demo" .destroy)).2.visit
        (visitTo "demo/edge" .hasDocument)).1 = some true ∧
      ((behind []).visit (visitTo "demo" .hasDocument)).1 = some false ∧
      ((behind ["demo/cluster.json"]).visit (visitTo "demo" .hasDocument)).1 = some true ∧
      ((documentsBehind ["demo/cluster.json"]).visit (visitTo "demo" .hasDocument)).1 =
        some false := by
  decide +kernel

/-- A cluster beside the one that is destroyed is found as before. -/
theorem kept_beside :
    (((behind ["demo", "other"]).visits [visitTo "demo" .destroy]).visit (visitTo "other" .get)).1 =
      some (.ok { demo with name := "other" }) := by
  have hdemo : IsFileName "demo" := by constructor <;> decide
  have hother : IsFileName "other" := by constructor <;> decide
  have hbelow : ∀ v ∈ commitsOf ["demo", "other"], v.Below demoStore.root := by
    simp [commitsOf, StoreVisit.Below, hdemo, hother]
  have hstored := demoStore.storedAt.visits hbelow
  have hroot : (behind ["demo", "other"]).Aims demoStore.root ["clusters"] :=
    ⟨[], [], ["clusters"], rfl, List.forall_mem_nil _, rfl, rfl,
      List.forall_mem_singleton.2 (.inr (by constructor <;> decide)), rfl⟩
  have hkept : ((behind ["demo", "other"]).visit (visitTo "other" .get)).1 =
      some (.ok { demo with name := "other" }) :=
    (hstored.visit (v := visitTo "other" .get) ⟨rfl, hother⟩).1
  have hw : (visitTo "other" .get).Within demoStore.root := ⟨rfl, Path.descends_name hother⟩
  calc (((behind ["demo", "other"]).visits [visitTo "demo" .destroy]).visit
      (visitTo "other" .get)).1
    _ = ((behind ["demo", "other"]).visit (visitTo "other" .get)).1 := by
      refine (hw.visits_apart hstored.sound hroot rfl).1 (List.forall_mem_singleton.2 ?_)
      exact ⟨⟨rfl, Path.descends_name hdemo⟩, FileStore.apart_of_ne hdemo hother (by decide)⟩
    _ = some (.ok { demo with name := "other" }) := hkept

end nestedStores

end ClusterKeeper
