/-
# Stores as maps

A store in files is a map from names to documents, each with the one before it. What a machine holds
below a root stands for such a map, every call on a store turns it into what stands for the next
map, and so all answers to any sequence of calls are those of the map. A store in memory is the same
map without the documents before.
-/

import ClusterKeeper.Proofs.Cluster.Document
import ClusterKeeper.Proofs.Store.Calls
import ClusterKeeper.Store.Memory

namespace ClusterKeeper

open FileTree (IsFileName ne_directory_of_none ne_directory_of_file)

/-! ## Calls -/

/-- A call on the store of a cluster. -/
inductive StoreCall where
  | commit (c : Cluster)
  | destroy
  | get
  | getBackup
  | hasDocument
  | list
  deriving DecidableEq

/-- What a call answers. -/
abbrev StoreCall.Answer : StoreCall → Type
  | commit _ => Except StoreError Unit
  | destroy => Except StoreError Unit
  | get => Except StoreError Cluster
  | getBackup => Except StoreError Cluster
  | hasDocument => Bool
  | list => Except StoreError (List String)

/-- The program of a call. -/
def FileStore.perform (s : FileStore) : (call : StoreCall) → FileDialogue call.Answer
  | .commit c => s.commit c
  | .destroy => s.destroy
  | .get => s.get
  | .getBackup => s.getBackup
  | .hasDocument => s.hasDocument
  | .list => s.list

/-- A call on a store at a time. -/
structure StoreVisit where
  time : Moment
  store : FileStore
  call : StoreCall

/-- The visit is to a cluster below a root whose name is that of a directory. -/
def StoreVisit.Below (root : Path) (v : StoreVisit) : Prop :=
  v.store.root = root ∧ IsFileName v.store.name

namespace Machine

/-- Answers a visit. -/
def visit (m : Machine) (v : StoreVisit) : Option v.call.Answer × Machine :=
  Machine.run { m with today := v.time } (v.store.perform v.call)

/-- The machine behind visits one after the other. -/
def visits (m : Machine) (vs : List StoreVisit) : Machine := vs.foldl (fun m v => (m.visit v).2) m

end Machine

/-! ## Maps of documents -/

/-- What is kept of a cluster: its document and the one before. -/
structure Kept where
  current : Cluster
  previous : Option Cluster

/-- What is kept of all clusters. -/
abbrev Archive := SortedMap String Kept

namespace Archive

/-- A document, if it is of a version that is understood. -/
def opened (c : Cluster) : Except StoreError Cluster :=
  match c.checkVersion with
  | .error e => .error (.unusable e)
  | .ok () => .ok c

/-- Answers a call on the cluster of a name. -/
def perform (name : String) : (call : StoreCall) → Archive → call.Answer × Archive
  | .commit c, a =>
    if c.name = name then (.ok (), a.insert name ⟨c, (a.find? name).map (·.current)⟩)
    else (.error (.nameMismatch name c.name), a)
  | .destroy, a => (.ok (), a.erase name)
  | .get, a => (((a.find? name).map (·.current)).elim (.error (.notFound name)) opened, a)
  | .getBackup, a => (((a.find? name).bind (·.previous)).elim (.error (.notFound name)) opened, a)
  | .hasDocument, a => (a.contains name, a)
  | .list, a => (.ok a.keys, a)

/-- Answers a visit. -/
def visit (a : Archive) (v : StoreVisit) : v.call.Answer × Archive := perform v.store.name v.call a

/-- The map behind visits one after the other. -/
def visits (a : Archive) (vs : List StoreVisit) : Archive := vs.foldl (fun a v => (a.visit v).2) a

/-- The documents without those before. -/
def currents (a : Archive) : MemoryStore := a.map (·.current)

/-- All documents are of versions that are understood. -/
def Supported (a : Archive) : Prop :=
  ∀ e ∈ a.entries, e.2.current.version ≤ supportedVersion

end Archive

namespace MemoryStore

/-- Answers a call on the cluster of a name. There are no documents before. -/
def perform (name : String) : (call : StoreCall) → MemoryStore → Option call.Answer × MemoryStore
  | .commit c, s =>
    match s.commit name c with
    | .ok s => (some (.ok ()), s)
    | .error e => (some (.error e), s)
  | .destroy, s => (some (.ok ()), s.destroy name)
  | .get, s => (some (s.get name), s)
  | .getBackup, s => (none, s)
  | .hasDocument, s => (some (s.hasDocument name), s)
  | .list, s => (some (.ok s.list), s)

/-- Answers a visit. -/
def visit (s : MemoryStore) (v : StoreVisit) : Option v.call.Answer × MemoryStore :=
  perform v.store.name v.call s

/-- The store behind visits one after the other. -/
def visits (s : MemoryStore) (vs : List StoreVisit) : MemoryStore :=
  vs.foldl (fun s v => (s.visit v).2) s

end MemoryStore

/-! ## What stands for a map -/

/-- A document is in the file at a location, or nothing is there. -/
def HoldsDocument (t : FileTree) (l : Location) : Option Cluster → Prop
  | none => t.at? l = none
  | some c => ∃ id text modified,
    t.at? l = some (.file id (.text text) modified) ∧ Cluster.parse text = .ok c

/-- What is kept of a cluster is in the files of a directory. -/
structure StandsFor (t : FileTree) (d : Location) (kept : Option Kept) : Prop where
  noFile : ∀ id content modified, t.at? d ≠ some (.file id content modified)
  document : HoldsDocument t (d ++ ["cluster.json"]) (kept.map (·.current))
  backup : HoldsDocument t (d ++ ["cluster.json.backup"]) (kept.bind (·.previous))
  unlocked : t.at? (d ++ ["lock.json"]) = none

/-- A map is what the directories below the place of a root stand for. -/
structure Archive.StoredAt (a : Archive) (root : Path) (m : Machine) (l : Location) : Prop where
  sound : m.Sound
  place : m.PlacedAt root l
  names : ∀ name, (a.find? name).isSome → IsFileName name
  stands : ∀ name, IsFileName name → StandsFor m.files (l ++ [name]) (a.find? name)

section

variable {a : Archive} {m m' m₁ : Machine} {d l : Location} {root : Path} {s : FileStore}
variable {c : Cluster} {kept : Option Kept} {name : String}

theorem SortedMap.pairwise_keys {α : Type} (m : SortedMap String α) : m.keys.Pairwise (· < ·) := by
  rw [keys, List.pairwise_map]
  exact m.sorted.imp compareOfLessAndEq_eq_lt.1

namespace HoldsDocument

theorem ne_directory {t : FileTree} {o : Option Cluster} (h : HoldsDocument t l o) :
    t.at? l ≠ some .directory := by
  cases o with
  | none => exact ne_directory_of_none h
  | some c =>
    obtain ⟨id, text, modified, hl, -⟩ := h
    exact ne_directory_of_file hl

theorem isSome_at? {t : FileTree} {o : Option Cluster} (h : HoldsDocument t l o) :
    (t.at? l).isSome = o.isSome := by
  cases o with
  | none => rw [h]; rfl
  | some c =>
    obtain ⟨id, text, modified, hl, -⟩ := h
    rw [hl]
    rfl

theorem isFileAt {t : FileTree} {o : Option Cluster} (h : HoldsDocument t l o) :
    FileStore.isFileAt t l = o.isSome := by
  cases o with
  | none => rw [FileStore.isFileAt, h]; rfl
  | some c =>
    obtain ⟨id, text, modified, hl, -⟩ := h
    rw [FileStore.isFileAt, hl]
    rfl

theorem congr {t t' : FileTree} {o : Option Cluster} (h : HoldsDocument t l o)
    (hl : t'.at? d = t.at? l) : HoldsDocument t' d o := by
  cases o with
  | none => exact hl.trans h
  | some c =>
    obtain ⟨id, text, modified, hl', hc⟩ := h
    exact ⟨id, text, modified, hl.trans hl', hc⟩

end HoldsDocument

/-! ## Looking -/

theorem FileStore.run_readDocument_of_holds {p : Path} {o : Option Cluster}
    (hfind : m.find p = match m.files.at? l with
      | some n => .ok (l, n)
      | none => .error .notFound) (ho : HoldsDocument m.files l o) :
    m.run (s.readDocument p) = (some (o.elim (.error (.notFound s.name)) Archive.opened), m) := by
  cases o with
  | none =>
    rw [ho] at hfind
    exact run_readDocument_of_missing hfind
  | some c =>
    obtain ⟨id, text, modified, hl, hc⟩ := ho
    rw [hl] at hfind
    exact run_readDocument hfind hc

namespace Archive.StoredAt

theorem find_child (h : a.StoredAt s.root m l) (hs : IsFileName s.name) {f : String}
    (hf : IsFileName f) : m.find (s.directory.child f) =
      match m.files.at? (l ++ [s.name] ++ [f]) with
      | some n => .ok (l ++ [s.name] ++ [f], n)
      | none => .error .notFound := by
  rw [FileStore.directory_eq hs]
  exact (h.place.child h.sound hs (h.stands _ hs).noFile).find_child h.sound hf

theorem run_get (h : a.StoredAt s.root m l) (hs : IsFileName s.name) :
    m.run s.get = (some (perform s.name .get a).1, m) :=
  FileStore.run_readDocument_of_holds (h.find_child hs isFileName_document) (h.stands _ hs).document

theorem run_getBackup (h : a.StoredAt s.root m l) (hs : IsFileName s.name) :
    m.run s.getBackup = (some (perform s.name .getBackup a).1, m) :=
  FileStore.run_readDocument_of_holds (h.find_child hs isFileName_backup) (h.stands _ hs).backup

theorem run_hasDocument (h : a.StoredAt s.root m l) (hs : IsFileName s.name) :
    m.run s.hasDocument = (some (perform s.name .hasDocument a).1, m) := by
  have hsome := (h.stands _ hs).document.isSome_at?
  rw [FileStore.hasDocument, FileStore.documentPath, Machine.run_pathExists,
    h.find_child hs isFileName_document]
  rw [Option.isSome_map] at hsome
  rw [perform, SortedMap.contains, ← hsome]
  cases m.files.at? (l ++ [s.name] ++ ["cluster.json"]) <;> rfl

/-- The names that are listed are those of the map. -/
theorem listed_eq (h : a.StoredAt root m l) : FileStore.listed m.files l = a.keys := by
  refine FileStore.listed_eq (a.pairwise_keys.imp fun hlt => String.not_lt.1 (String.lt_asymm hlt))
    (a.pairwise_keys.imp String.ne_of_lt) fun name => ?_
  rw [FileStore.mem_listed h.sound.wellFormed, SortedMap.mem_keys_iff]
  by_cases hname : IsFileName name
  · rw [(h.stands name hname).document.isFileAt, Option.isSome_map]
  · -- Nothing can be under a name that no file can have.
    have hnone : m.files.at? (l ++ [name]) = none := by
      refine Option.eq_none_iff_forall_ne_some.2 fun n hn => hname ?_
      rw [FileTree.at?_of_ne_nil (by simp)] at hn
      obtain ⟨d, part, heq, -, hpart⟩ := h.sound.wellFormed hn
      rwa [(List.cons.inj (List.append_inj' heq rfl).2).1]
    rw [FileStore.isFileAt, h.sound.wellFormed.at?_child (ne_directory_of_none hnone)]
    exact ⟨fun hfalse => absurd hfalse Bool.false_ne_true,
      fun hsome => absurd (h.names name hsome) hname⟩

theorem run_list (h : a.StoredAt s.root m l) :
    m.run s.list = (some (perform s.name .list a).1, m) := by
  rcases h.place.outside with hreaches | hmissing
  · rw [FileStore.run_list_of_enters hreaches.enters h.sound, h.listed_eq]
    rfl
  · rw [FileStore.run_list_of_missing (h.place.find_of_missing h.sound hmissing)]
    have hlisted : FileStore.listed m.files l = [] := by
      refine List.eq_nil_iff_forall_not_mem.2 fun name hname => ?_
      rw [FileStore.mem_listed h.sound.wellFormed, FileStore.isFileAt, List.append_assoc,
        h.sound.wellFormed.at?_append (ne_directory_of_none hmissing) (by simp)] at hname
      cases hname
    rw [perform, ← h.listed_eq, hlisted]

/-! ## Changing -/

theorem congr (h : a.StoredAt root m l) {a' : Archive}
    (ha : ∀ key, a'.find? key = a.find? key) : a'.StoredAt root m l where
  sound := h.sound
  place := h.place
  names key := by
    rw [ha]
    exact h.names key
  stands key hkey := by
    rw [ha]
    exact h.stands key hkey

/-- What is done in the directory of one cluster changes what is kept of that cluster alone. -/
theorem update (h : a.StoredAt root m l) (hs : IsFileName name) {a' : Archive}
    (ha : ∀ key, a'.find? key = if key = name then kept else a.find? key) (hm' : m'.Sound)
    (hroot : m'.Reaches root l) (hself : StandsFor m'.files (l ++ [name]) kept)
    (hother : ∀ key, key ≠ name → ∀ tail,
      m'.files.at? (l ++ [key] ++ tail) = m.files.at? (l ++ [key] ++ tail)) :
    a'.StoredAt root m' l where
  sound := hm'
  place := hroot.placedAt hm'
  names key := by
    rw [ha]
    split
    · next heq => exact fun _ => heq ▸ hs
    · exact h.names key
  stands key hkey := by
    rw [ha]
    split
    · next heq => exact heq ▸ hself
    · next hne =>
      have hstands := h.stands key hkey
      have hdirectory := hother key hne []
      rw [List.append_nil] at hdirectory
      exact ⟨by rw [hdirectory]; exact hstands.noFile, hstands.document.congr (hother key hne _),
        hstands.backup.congr (hother key hne _), (hother key hne _).trans hstands.unlocked⟩

/-- Where a document was kept and the former one became the backup, both stand for what is kept. -/
theorem standsFor_of_kept {id : FileId} {modified : Moment}
    (hd : m₁.files.at? d = some .directory)
    (hdocument : HoldsDocument m₁.files (d ++ ["cluster.json"]) (kept.map (·.current)))
    (hbackup : HoldsDocument m₁.files (d ++ ["cluster.json.backup"]) (kept.bind (·.previous)))
    (hlock : m₁.files.at? (d ++ ["lock.json"]) = none)
    (hat : ∀ k, m'.files.at? k =
      if k = d ++ ["cluster.json"] then some (.file id (.text c.pretty) modified)
      else if k = d ++ ["cluster.json.backup"] then
        (m₁.files.at? (d ++ ["cluster.json"])).or (m₁.files.at? k)
      else m₁.files.at? k) : StandsFor m'.files d (some ⟨c, kept.map (·.current)⟩) where
  noFile id content modified := by
    rw [hat, if_neg (by simp), if_neg (by simp), hd]
    exact (ne_directory_of_file rfl).symm
  document := ⟨id, c.pretty, modified, (hat _).trans (if_pos rfl), c.parse_pretty⟩
  backup := by
    have hmoved : m'.files.at? (d ++ ["cluster.json.backup"]) =
        (m₁.files.at? (d ++ ["cluster.json"])).or
          (m₁.files.at? (d ++ ["cluster.json.backup"])) := by
      rw [hat, if_neg (by simp), if_pos rfl]
    cases kept with
    | none => exact hmoved.trans (by rw [hdocument, Option.none_or]; exact hbackup)
    | some kept =>
      obtain ⟨id, text, modified, hfile, hparse⟩ := hdocument
      exact ⟨id, text, modified, hmoved.trans (by rw [hfile]; rfl), hparse⟩
  unlocked := by rw [hat, if_neg (by simp), if_neg (by simp), hlock]

/-- A document of its cluster is kept, and the one that was kept is the one before. -/
theorem run_commit (h : a.StoredAt s.root m l) (hs : IsFileName s.name) (hname : c.name = s.name) :
    ∃ m', m.run (s.commit c) = (some (.ok ()), m') ∧ Archive.StoredAt
      (a.insert s.name ⟨c, (a.find? s.name).map (·.current)⟩) s.root m' l := by
  have hstands := h.stands _ hs
  obtain ⟨m₁, hrun, hmade, henters⟩ := FileStore.run_ensureDirectory h.place h.sound hs
    hstands.noFile
  have hbelow (f : String) : m₁.files.at? (l ++ [s.name] ++ [f]) =
      m.files.at? (l ++ [s.name] ++ [f]) := by
    rw [hmade.at?_eq, if_neg fun hle => absurd hle.length_le (by simp)]
  have hdocument := hstands.document.congr (hbelow _)
  have hbackup := hstands.backup.congr (hbelow _)
  have hroot := h.place.reaches_of_made h.sound hmade (List.prefix_append _ _)
  have hlock := (hbelow _).trans hstands.unlocked
  obtain ⟨m', id, modified, hcommit, hm', hcwd, hat⟩ := FileStore.run_commit_of_opens hrun
    henters.opens hmade.sound hname hdocument.ne_directory hbackup.ne_directory hlock
  refine ⟨m', hcommit, h.update hs (SortedMap.find?_insert a s.name · _) hm' ?_
    (standsFor_of_kept henters.directory hdocument hbackup hlock hat) ?_⟩
  · refine hroot.of_agree hcwd fun k hk hdir => ?_
    rw [hat, if_neg, if_neg, hdir]
    · rintro rfl
      exact hbackup.ne_directory hdir
    · rintro rfl
      exact hdocument.ne_directory hdir
  · -- What is in the directories of other clusters is none of the two files.
    intro key hne tail
    have hapart (f : List String) : l ++ [key] ++ tail ≠ l ++ [s.name] ++ f := by
      simp [hne]
    rw [hat, if_neg (hapart _), if_neg (hapart _), hmade.at?_eq, if_neg]
    rintro ⟨rest, hrest⟩
    simp [hne] at hrest

/-- Nothing is kept of a cluster any more. -/
theorem run_destroy (h : a.StoredAt s.root m l) (hs : IsFileName s.name) :
    ∃ m', m.run s.destroy = (some (.ok ()), m') ∧
      Archive.StoredAt (a.erase s.name) s.root m' l := by
  have hstands := h.stands _ hs
  rcases hn : m.files.at? (l ++ [s.name]) with _ | (⟨id, content, modified⟩ | _)
  · -- Without a directory there is no document either.
    have hnone : a.find? s.name = none := by
      have hsome := hstands.document.isSome_at?
      rw [h.sound.wellFormed.at?_child (ne_directory_of_none hn), Option.isSome_map] at hsome
      exact Option.not_isSome_iff_eq_none.1 (Bool.eq_false_iff.1 hsome.symm)
    refine ⟨m, FileStore.run_destroy_of_missing ?_, h.congr fun key => ?_⟩
    · rw [FileStore.directory_eq hs]
      exact (h.place.child h.sound hs hstands.noFile).find_of_missing h.sound hn
    · rw [SortedMap.find?_erase]
      split
      · next heq => rw [heq, hnone]
      · rfl
  · exact absurd hn (hstands.noFile _ _ _)
  · have hreaches := h.place.reaches (h.sound.wellFormed.at?_of_child hn)
    obtain ⟨m', hdestroy, hm', hcwd, hat⟩ := FileStore.run_destroy_of_reaches hreaches h.sound hs hn
      hstands.unlocked
    have hgone (tail : List String) : m'.files.at? (l ++ [s.name] ++ tail) = none := by
      rw [hat, if_pos (List.prefix_append _ _)]
    have hself := hgone []
    rw [List.append_nil] at hself
    have hvacant : StandsFor m'.files (l ++ [s.name]) none :=
      ⟨fun _ _ _ => Option.eq_none_iff_forall_ne_some.1 hself _, hgone _, hgone _, hgone _⟩
    refine ⟨m', hdestroy, h.update hs (SortedMap.find?_erase a s.name ·) hm' ?_ hvacant ?_⟩
    · refine hreaches.of_agree hcwd fun k hk hdir => ?_
      rw [hat, if_neg, hdir]
      rintro ⟨tail, rfl⟩
      exact hk (FileTree.isBelow_iff.2 ⟨by rw [List.append_assoc]; exact List.prefix_append _ _,
        by simp⟩)
    · intro key hne tail
      rw [hat, if_neg]
      rintro ⟨rest, hrest⟩
      have hkey := congrArg (·[l.length]?) hrest
      simp [Ne.symm hne] at hkey

/-- The calendar may have moved on. -/
theorem at_time (h : a.StoredAt root m l) (time : Moment) :
    a.StoredAt root { m with today := time } l where
  sound := ⟨h.sound.wellFormed, h.sound.fresh, h.sound.quiet⟩
  place := by
    obtain ⟨start, rest, hmake, hl⟩ := h.place.leads
    exact ⟨⟨start, rest, hmake.mono rfl (fun _ hk => hk) hmake.clear, hl⟩,
      h.place.outside.imp_left (·.of_agree rfl fun _ _ hk => hk)⟩
  names := h.names
  stands := h.stands

/-- A visit is answered as by the map and leaves behind what stands for the next map. -/
theorem visit {v : StoreVisit} (h : a.StoredAt root m l) (hv : v.Below root) :
    (m.visit v).1 = some (a.visit v).1 ∧ (a.visit v).2.StoredAt root (m.visit v).2 l := by
  obtain ⟨time, s, call⟩ := v
  obtain ⟨rfl, hs⟩ := hv
  have h := h.at_time time
  cases call with
  | commit c =>
    by_cases hname : c.name = s.name
    · obtain ⟨m', hrun, hm'⟩ := h.run_commit hs hname
      rw [Machine.visit, FileStore.perform, hrun, visit, perform, if_pos hname]
      exact ⟨rfl, hm'⟩
    · rw [Machine.visit, FileStore.perform, FileStore.run_commit_of_ne hname, visit, perform,
        if_neg hname]
      exact ⟨rfl, h⟩
  | destroy =>
    obtain ⟨m', hrun, hm'⟩ := h.run_destroy hs
    rw [Machine.visit, FileStore.perform, hrun]
    exact ⟨rfl, hm'⟩
  | get =>
    rw [Machine.visit, FileStore.perform, h.run_get hs]
    exact ⟨rfl, h⟩
  | getBackup =>
    rw [Machine.visit, FileStore.perform, h.run_getBackup hs]
    exact ⟨rfl, h⟩
  | hasDocument =>
    rw [Machine.visit, FileStore.perform, h.run_hasDocument hs]
    exact ⟨rfl, h⟩
  | list =>
    rw [Machine.visit, FileStore.perform, h.run_list]
    exact ⟨rfl, h⟩

theorem visits {vs : List StoreVisit} (h : a.StoredAt root m l) (hvs : ∀ v ∈ vs, v.Below root) :
    (a.visits vs).StoredAt root (m.visits vs) l := by
  induction vs generalizing a m with
  | nil => exact h
  | cons v vs ih =>
    obtain ⟨hv, hvs⟩ := List.forall_mem_cons.1 hvs
    exact ih (h.visit hv).2 hvs

end Archive.StoredAt

/-! ## Stores in memory -/

namespace SortedMap

variable {α β : Type}

theorem map_insertEntry (f : α → β) (key : String) (value : α) (es : List (String × α)) :
    (insertEntry key value es).map (fun e => (e.1, f e.2)) =
      insertEntry key (f value) (es.map fun e => (e.1, f e.2)) := by
  induction es with
  | nil => rfl
  | cons e es ih =>
    cases hkey : compare key e.1 <;> simp only [insertEntry, List.map_cons, hkey, ih]

theorem map_insert (f : α → β) (m : SortedMap String α) (key : String) (value : α) :
    (m.insert key value).map f = (m.map f).insert key (f value) :=
  SortedMap.ext (map_insertEntry f key value m.entries)

theorem map_erase (f : α → β) (m : SortedMap String α) (key : String) :
    (m.erase key).map f = (m.map f).erase key := by
  refine SortedMap.ext ?_
  simp only [erase, filter, map, List.filter_map]
  rfl

end SortedMap

namespace Archive

/-- A store in memory forgets nothing but the documents before. -/
theorem currents_visit (a : Archive) (v : StoreVisit) :
    (a.currents.visit v).2 = (a.visit v).2.currents := by
  obtain ⟨time, s, call⟩ := v
  cases call with
  | commit c =>
    rw [MemoryStore.visit, MemoryStore.perform, MemoryStore.commit, visit, perform]
    by_cases hname : c.name = s.name
    · rw [if_pos hname, if_pos hname]
      exact (SortedMap.map_insert (·.current) a s.name
        ⟨c, (a.find? s.name).map (·.current)⟩).symm
    · rw [if_neg hname, if_neg hname]
  | destroy => exact (SortedMap.map_erase _ _ _).symm
  | _ => rfl

theorem currents_visits (a : Archive) (vs : List StoreVisit) :
    a.currents.visits vs = (a.visits vs).currents := by
  induction vs generalizing a with
  | nil => rfl
  | cons v vs ih => exact (congrArg (MemoryStore.visits · vs) (a.currents_visit v)).trans (ih _)

/-- As long as all documents are of versions that are understood, a store in memory answers as a
store in files does, backups aside. -/
theorem currents_answer (h : a.Supported) {v : StoreVisit} (hv : v.call ≠ .getBackup) :
    (a.currents.visit v).1 = some (a.visit v).1 := by
  obtain ⟨time, s, call⟩ := v
  have hfind : a.currents.find? s.name = (a.find? s.name).map (·.current) :=
    SortedMap.find?_map _ _ _
  cases call with
  | commit c =>
    rw [MemoryStore.visit, MemoryStore.perform, MemoryStore.commit, visit, perform]
    by_cases hname : c.name = s.name
    · rw [if_pos hname, if_pos hname]
    · rw [if_neg hname, if_neg hname]
  | destroy => rfl
  | get =>
    rw [MemoryStore.visit, MemoryStore.perform, MemoryStore.get, visit, perform, hfind]
    cases hkept : a.find? s.name with
    | none => rfl
    | some kept =>
      -- A store in memory does not look at the version.
      have hversion := h _ (SortedMap.find?_eq_some_iff.1 hkept)
      have hopened : opened kept.current = .ok kept.current := by
        rw [opened, Cluster.checkVersion, if_neg (UInt32.not_lt.2 hversion)]
      simp only [Option.map_some, Option.elim_some, hopened]
  | getBackup => exact absurd rfl hv
  | hasDocument =>
    rw [MemoryStore.visit, MemoryStore.perform, MemoryStore.hasDocument, SortedMap.contains, hfind,
      Option.isSome_map]
    rfl
  | list =>
    have hkeys : a.currents.keys = a.keys := by
      rw [currents, SortedMap.keys, SortedMap.map, List.map_map]
      rfl
    rw [MemoryStore.visit, MemoryStore.perform, MemoryStore.list, hkeys]
    rfl

end Archive

/-- A store in files answers every visit behind any others as the map does that its files stand
for, and so does a store in memory as long as it is asked for no backup and keeps no document of a
version to come. -/
theorem Archive.StoredAt.answers (h : a.StoredAt root m l) {vs : List StoreVisit}
    (hvs : ∀ w ∈ vs, w.Below root) {v : StoreVisit} (hv : v.Below root) :
    ((m.visits vs).visit v).1 = some ((a.visits vs).visit v).1 ∧
      (v.call ≠ .getBackup → (a.visits vs).Supported →
        ((a.currents.visits vs).visit v).1 = some ((a.visits vs).visit v).1) := by
  refine ⟨((h.visits hvs).visit hv).1, fun hcall hsupported => ?_⟩
  rw [a.currents_visits]
  exact currents_answer hsupported hcall

end

/-! ## Two roots -/

namespace demoStore

/-- A machine without files. -/
def machine : Machine := { today := ⟨0, 0⟩ }

/-- A visit to a cluster below a root. -/
abbrev visitAt (root : Path) (name : String) (call : StoreCall) : StoreVisit :=
  ⟨⟨0, 0⟩, { root, name, holder := "host" }, call⟩

/-- A root that is yet to be made. -/
def root : Path := { parts := ["clusters"] }

/-- A cluster. -/
def demo : Cluster := { name := "demo", cloud := "fake" }

/-- The cluster in another place. -/
def moved : Cluster := { demo with location := "local" }

/-- Both are committed. -/
def commits : List StoreVisit :=
  [visitAt root "demo" (.commit demo), visitAt root "demo" (.commit moved)]

theorem storedAt : Archive.StoredAt ∅ root machine ["clusters"] where
  sound := Machine.sound_of_empty rfl rfl
  place := ⟨⟨[], ["clusters"], ⟨⟨[], rfl, List.forall_mem_nil _, rfl⟩, rfl,
    List.forall_mem_singleton.2 (.inr (by constructor <;> decide)),
    fun k _ => by cases k <;> exact nofun⟩, rfl⟩, .inr rfl⟩
  names _ := nofun
  stands name _ := ⟨nofun, rfl, rfl, rfl⟩

/-- Behind both commits the first document is the backup. -/
theorem getBackup_answered :
    ((machine.visits commits).visit (visitAt root "demo" .getBackup)).1 = some (.ok demo) := by
  have hname : IsFileName "demo" := by constructor <;> decide
  have hbelow : ∀ w ∈ commits, w.Below root := by
    simp [commits, visitAt, StoreVisit.Below, hname]
  exact (storedAt.answers hbelow ⟨rfl, hname⟩).1

/-- A root that leads through the directory of a cluster. -/
def looped : Path := { parts := ["demo", ".."] }

/-- Two clusters are committed, and one of them is destroyed. -/
def calls : List StoreVisit :=
  [visitAt looped "demo" (.commit demo),
    visitAt looped "other" (.commit { demo with name := "other" }), visitAt looped "demo" .destroy]

/-- Behind that the other one is not found any more. -/
theorem hasDocument_lost :
    ((machine.visits calls).visit (visitAt looped "other" .hasDocument)).1 = some false ∧
      (Archive.visit (Archive.visits ∅ calls) (visitAt looped "other" .hasDocument)).1 = true := by
  decide +kernel

/-- Not below every root a store in files is a map. -/
theorem not_answered_below_every_root :
    ¬ ∀ root vs v, (∀ w ∈ vs, w.Below root) → v.Below root →
      ((machine.visits vs).visit v).1 = some (Archive.visit (Archive.visits ∅ vs) v).1 := by
  intro h
  have hdemo : IsFileName "demo" := by constructor <;> decide
  have hother : IsFileName "other" := by constructor <;> decide
  have hanswer := h looped calls (visitAt looped "other" .hasDocument)
    (by simp [calls, visitAt, StoreVisit.Below, hdemo, hother]) ⟨rfl, hother⟩
  rw [hasDocument_lost.1, hasDocument_lost.2] at hanswer
  cases hanswer

end demoStore

end ClusterKeeper
