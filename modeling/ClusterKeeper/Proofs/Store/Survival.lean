/-
# Documents that survive

A commit moves the former document aside before it writes its own, so that wherever it is stopped
one of the two is whole, in its place or as the backup. What a commit that was stopped leaves in the
place of the document need not be whole, though, and the next commit moves it aside all the same,
over the backup: until that commit has written its own document, there is none.
-/

import ClusterKeeper.Proofs.Files.Crashes
import ClusterKeeper.Proofs.Store.FailedCommit
import ClusterKeeper.Proofs.Store.Waiting

namespace ClusterKeeper

open FileTree (IsFileName ne_directory_of_none ne_directory_of_file)
open FileDialogue
open Machine (respond)

variable {m m' : Machine} {d l : Location} {p : Path} {s : FileStore} {c : Cluster}
variable {log : List FileExchange} {docs : List Cluster} {document backup : Option FileNode}
variable {id : FileId} {content : Content} {modified : Moment}

/-- A request to open a file to write it anew. -/
def FileRequest.isOpening : FileRequest → Bool
  | .createEmpty _ => true
  | _ => false

theorem FileRequest.isOpening_of_isLook {r : FileRequest} (h : r.isLook = true) :
    r.isOpening = false := by
  cases r <;> first | rfl | cases h

namespace FileStore

/-! ## What is in the two places -/

/-- What is in the places of the document and of the backup. -/
structure Stays (s : FileStore) (d : Location) (document backup : Option FileNode) (m : Machine) :
    Prop where
  sound : m.Sound
  opens : m.Opens s.directory d
  document : m.files.at? (d ++ ["cluster.json"]) = document
  backup : m.files.at? (d ++ ["cluster.json.backup"]) = backup

namespace Stays

theorem atTime (h : s.Stays d document backup m) (t : Moment) :
    s.Stays d document backup (m.atTime t) :=
  ⟨h.sound.atTime t, h.opens.mono rfl fun _ => id, h.document, h.backup⟩

/-- What happens elsewhere does not matter. -/
theorem of_sameApart {S : Location → Prop} (h : s.Stays d document backup m)
    (hsame : m.SameApart d S m') (hS : ∀ k, S k → m.files.at? k ≠ some .directory)
    (hdocument : ¬ S (d ++ ["cluster.json"])) (hbackup : ¬ S (d ++ ["cluster.json.backup"])) :
    s.Stays d document backup m' where
  sound := hsame.sound
  opens := h.opens.mono hsame.workingDirectory fun k hk =>
    hsame.at?_directory (fun hSk => hS k hSk hk) hk
  document := by
    rw [hsame.at?_child_eq hdocument, h.document]
  backup := by
    rw [hsame.at?_child_eq hbackup, h.backup]

theorem opens_fill (h : s.Stays d document backup m) (t : Moment) (id : FileId) (left : Content)
    (t' : Moment) :
    Machine.Opens { m.atTime t with files := m.files.fill id left t' } s.directory d :=
  h.opens.mono rfl fun k hk => by
    rw [FileTree.at?_fill_of_ne (fun _ _ hfile => ne_directory_of_file hfile hk), hk]

/-- A file is written that is in neither place. -/
theorem fill (h : s.Stays d document backup m) (t : Moment)
    (hdocument : ∀ content modified, document ≠ some (.file id content modified))
    (hbackup : ∀ content modified, backup ≠ some (.file id content modified))
    (left : Content) (t' : Moment) :
    s.Stays d document backup { m.atTime t with files := m.files.fill id left t' } where
  sound := h.sound.fill t id left t'
  opens := h.opens_fill t id left t'
  document := by rw [FileTree.at?_fill_of_ne (h.document ▸ hdocument), h.document]
  backup := by rw [FileTree.at?_fill_of_ne (h.backup ▸ hbackup), h.backup]

/-- The file is written that is in the place of the document. -/
theorem fillDocument (h : s.Stays d (some (.file id content modified)) backup m) (t : Moment)
    (hbackup : ∀ content modified, backup ≠ some (.file id content modified))
    (left : Content) (t' : Moment) :
    s.Stays d (some (.file id left t')) backup
      { m.atTime t with files := m.files.fill id left t' } where
  sound := h.sound.fill t id left t'
  opens := h.opens_fill t id left t'
  document := FileTree.at?_fill_file h.document left t'
  backup := by rw [FileTree.at?_fill_of_ne (h.backup ▸ hbackup), h.backup]

/-- A new file comes to neither place. -/
theorem addLock (h : s.Stays d document backup m)
    (hnone : m.files.at? (d ++ ["lock.json"]) = none) :
    s.Stays d document backup (m.addEmpty (d ++ ["lock.json"])) := by
  have hne := ne_directory_of_none hnone
  have hsame : m.SameApart d (· = d ++ ["lock.json"]) (m.addEmpty (d ++ ["lock.json"])) :=
    Machine.sameApart_addFile m (h.sound.addEmpty h.opens.directory isFileName_lock hne) (by simp)
      rfl rfl
  exact h.of_sameApart hsame (fun k hk => hk ▸ hne) (by simp) (by simp)

/-- The files that are in the two places are older than a file that is made now. -/
theorem ne_nextId (h : s.Stays d document backup m) (content : Content) (modified : Moment) :
    document ≠ some (.file m.nextId content modified) ∧
      backup ≠ some (.file m.nextId content modified) :=
  ⟨fun hfile => Nat.lt_irrefl _ (h.sound.fresh (h.document.trans hfile)),
    fun hfile => Nat.lt_irrefl _ (h.sound.fresh (h.backup.trans hfile))⟩

/-- A document is made where there is none. -/
theorem addDocument (h : s.Stays d none backup m) :
    s.Stays d (some (.file m.nextId (.text "") m.today)) backup
      (m.addEmpty (d ++ ["cluster.json"])) := by
  have hne := ne_directory_of_none h.document
  have hat (k : Location) : (m.addEmpty (d ++ ["cluster.json"])).files.at? k = _ :=
    FileTree.at?_insert (by simp) k
  refine ⟨h.sound.addEmpty h.opens.directory isFileName_document hne,
    h.opens.mono rfl fun k hk => ?_, (hat _).trans (if_pos rfl), ?_⟩
  · rw [hat, if_neg, hk]
    rintro rfl
    exact hne hk
  · rw [hat, if_neg (by simp), h.backup]

/-- The backup is removed. -/
theorem removeBackup (h : s.Stays d document (some (.file id content modified)) m) :
    s.Stays d document none (m.remove (d ++ ["cluster.json.backup"])) := by
  have hat := Machine.at?_remove h.backup
  refine ⟨h.sound.remove h.backup, h.opens.mono rfl fun k hk => ?_, ?_, (hat _).trans (if_pos rfl)⟩
  · rw [hat, if_neg, hk]
    rintro rfl
    exact ne_directory_of_file h.backup hk
  · rw [hat, if_neg (by simp), h.document]

/-- The document is moved to the place of the backup. -/
theorem shift (h : s.Stays d (some (.file id content modified)) none m) :
    s.Stays d none (some (.file id content modified))
      (m.shift (d ++ ["cluster.json"]) (d ++ ["cluster.json.backup"])) := by
  have hne := ne_directory_of_none h.backup
  have hat := h.sound.at?_shift_file h.document hne
  refine ⟨h.sound.shift (by simp) h.opens.directory isFileName_backup
    (h.sound.wellFormed.at?_child hne) (by simp), h.opens.mono rfl fun k hk => ?_, ?_, ?_⟩
  · rw [hat, if_neg, if_neg, hk]
    · rintro rfl
      exact ne_directory_of_file h.document hk
    · rintro rfl
      exact hne hk
  · rw [hat, if_neg (by simp), if_pos rfl]
  · rw [hat, if_pos rfl]

end Stays

/-! ## Locking -/

/-- A machine stays sound whatever a store does with its lock. -/
theorem lockSteps_sound (hroot : s.root.Proper) :
    s.LockSteps fun {α : Type} (c : FileDialogue α) => Minds (fun _ m => m.Sound) c where
  toClosed := closed_minds
  look r hr := minds_ask (FileRequest.isWrite_of_isLook hr) fun log m t hm => by
    rw [Machine.respond_of_isLook hr]
    exact hm.atTime t
  wait t := minds_ask rfl fun log m t' hm => (hm.atTime t').respond_wait t
  make hq := minds_ask rfl fun log m t hm =>
    (hm.atTime t).respond_makeDirectory ((hroot.join s.name).along hq)
  create text := by
    refine Minds.bind (minds_ask rfl fun log m t hm =>
      (hm.atTime t).respond_createNew isFileName_lock) fun answer => ?_
    cases answer with
    | error e => exact minds_pure _
    | ok id => exact minds_write fun log m t left t' hm =>
        ⟨hm.fill m.today id left t', hm.fill t id left t'⟩
  remove := minds_ask rfl fun log m t hm => (hm.atTime t).respond_removeFile s.lockPath

namespace Stays

variable {q : Path}

/-- There is nothing left to be made on the way to the two places. -/
theorem respond_makeDirectory (h : s.Stays d document backup m) (hq : q.Along s.directory) :
    s.Stays d document backup (respond (.makeDirectory q) m).2 := by
  rw [respond]
  cases hok : m.makeDirectory q with
  | error e => exact h
  | ok m' =>
    obtain ⟨l, hl, hnone, rfl⟩ := Machine.eq_ok_of_makeDirectory hok
    have hd := h.opens.at?_of_along isFileName_lock hq hl
    rw [hnone] at hd
    cases hd

theorem respond_removeLock (h : s.Stays d document backup m) :
    s.Stays d document backup (respond (.removeFile s.lockPath) m).2 := by
  rw [respond]
  cases hok : m.removeFile s.lockPath with
  | error e => exact h
  | ok m' =>
    obtain ⟨l, id, content, modified, hfind, rfl⟩ := Machine.eq_ok_of_removeFile hok
    obtain ⟨hresolve, hfile⟩ := Machine.eq_ok_of_find hfind
    obtain rfl := Except.ok.inj (hresolve.symm.trans (h.opens.resolve_child isFileName_lock))
    have hsame : m.SameApart d (· = d ++ ["lock.json"]) (m.remove (d ++ ["lock.json"])) :=
      .of_eq (h.sound.remove hfile) rfl
        fun k hk => (Machine.at?_remove hfile k).trans (if_neg hk)
    exact h.of_sameApart hsame (fun k hk => hk ▸ ne_directory_of_file hfile) (by simp) (by simp)

end Stays

section Locking

variable {L : List FileExchange → Prop}

/-- A lock is made and filled beside the two places. -/
theorem minds_createLock (hL : ∀ log (r : FileRequest) (a : r.Answer), r.isOpening = false →
    L log → L (log ++ [⟨r, a⟩])) (text : String) :
    Minds (fun log m => s.Stays d document backup m ∧ L log) (s.createLock text) := by
  rintro log m ⟨h, hlog⟩
  have h' (t : Moment) := h.atTime t
  have hasked (answer : (FileRequest.createNew s.lockPath).Answer) := hL log _ answer rfl hlog
  rw [createLock]
  refine Throughout.bind (throughout_ask rfl ⟨h, hlog⟩ fun t => ?_)
  rcases (h' t).opens.respond_createNew_cases isFileName_lock with
    ⟨e, hanswer⟩ | ⟨hnone, hanswer⟩ <;> rw [lockPath, hanswer]
  · exact ⟨⟨h' t, hasked _⟩, Throughout.pure ⟨h' t, hasked _⟩ ⟨h' t, hasked _⟩⟩
  · -- What is written then is in the new file alone.
    have hmade := (h' t).addLock hnone
    have hwritten (t' : Moment) (left : Content) (modified : Moment) :=
      hmade.fill t' (fun _ _ => ((h' t).ne_nextId _ _).1) (fun _ _ => ((h' t).ne_nextId _ _).2)
        left modified
    have hwrite : Throughout (fun log m => s.Stays d document backup m ∧ L log)
        (fun _ log m => s.Stays d document backup m ∧ L log) (ask (.write m.nextId text))
        (log ++ [⟨.createNew s.lockPath, .ok m.nextId⟩])
        ((m.atTime t).addEmpty (d ++ ["lock.json"])) := by
      apply throughout_write ⟨hmade, hasked _⟩
      · exact fun left t' => ⟨hwritten t left t', hasked _⟩
      · intro t'
        have hfilled := hwritten t' (.text text) t'
        exact ⟨⟨hfilled, hL _ _ _ rfl (hasked _)⟩, hfilled, hL _ _ _ rfl (hasked _)⟩
    exact ⟨⟨hmade, hasked _⟩, hwrite⟩

/-- What is in the two places stays there whatever a store does with its lock. -/
theorem lockSteps_stays (hL : ∀ log (r : FileRequest) (a : r.Answer), r.isOpening = false →
    L log → L (log ++ [⟨r, a⟩])) :
    s.LockSteps fun {α : Type} (c : FileDialogue α) =>
      Minds (fun log m => s.Stays d document backup m ∧ L log) c where
  toClosed := closed_minds
  look r hr := minds_ask (FileRequest.isWrite_of_isLook hr) fun log m t h => by
    rw [Machine.respond_of_isLook hr]
    exact ⟨h.1.atTime t, hL log r _ (FileRequest.isOpening_of_isLook hr) h.2⟩
  wait t := minds_ask rfl fun log m t' h => by
    have hsame := Machine.sameApart_wait (d := d) (S := fun _ => False) (h.1.atTime t').sound t
    exact ⟨(h.1.atTime t').of_sameApart hsame (fun _ => False.elim) id id, hL log _ _ rfl h.2⟩
  make hq := minds_ask rfl fun log m t h =>
    ⟨(h.1.atTime t).respond_makeDirectory hq, hL log _ _ rfl h.2⟩
  create := minds_createLock hL
  remove := minds_ask rfl fun log m t h =>
    ⟨(h.1.atTime t).respond_removeLock, hL log _ _ rfl h.2⟩

end Locking

/-- What is done with the lock held is done behind the steps that take the lock and before those
that let go of it. -/
theorem throughout_whileLocked {I K D : List FileExchange → Machine → Prop}
    {action : FileDialogue (Except FileFault Unit)}
    (hK : ∀ log m, K log m → I log m)
    (hsteps : s.LockSteps fun {α : Type} (c : FileDialogue α) => Minds K c)
    (haction : ∀ log m, K log m → Throughout I (OnOutcome D K) action log m)
    (hrelease : ∀ log m, D log m →
      Throughout I (fun _ => D) (StoreLock.release ⟨s.lockPath⟩) log m) (h : K log m) :
    Throughout I (fun x log m => x = .ok () → D log m) (s.whileLocked action) log m := by
  have hpass {α : Type} {c : FileDialogue α} (hc : Minds K c) {log : List FileExchange}
      {m : Machine} (h : K log m) : Throughout I (fun _ => K) c log m :=
    (hc log m h).imp hK fun _ _ _ => id
  have hfailed {e : StoreError} {log : List FileExchange} {m : Machine} (h : K log m) :
      Throughout I (fun x log m => x = .ok () → D log m)
        (pure (.error e) : FileDialogue (Except StoreError Unit)) log m :=
    .pure (hK log m h) (by rintro ⟨⟩)
  refine ((hpass hsteps.lock h).and_yields yields_lock).seq ?_
  intro x log m hx
  obtain ⟨h, hx⟩ := hx
  cases x with
  | error e => exact hfailed h
  | ok l =>
    -- The lock that was taken is that of the store.
    obtain rfl := hx l rfl
    refine (haction log m h).seq ?_
    intro x log m h
    cases x with
    | error e =>
      -- The lock is let go of all the same.
      exact (hpass hsteps.drop h).seq fun _ _ _ h => hfailed h
    | ok => exact (hrelease log m h).mono fun _ _ _ hD _ => hD

/-! ## Commits that come to their end -/

/-- Where the document is the one that is written, in full. -/
def Keeps (s : FileStore) (c : Cluster) (m : Machine) : Prop :=
  ∃ d id modified backup, s.Stays d (some (.file id (.text c.pretty) modified)) backup m

/-- A machine stays sound while the former document is moved aside. -/
theorem minds_rotate : Minds (fun _ m => m.Sound) s.rotate := by
  refine rotate_of_rewrites closed_minds.toComposes fun r hr => ?_
  cases hr with
  | look p => exact minds_ask rfl fun log m t hm => hm.atTime t
  | clear => exact minds_ask rfl fun log m t hm => (hm.atTime t).respond_removeFile s.backupPath
  | setAside => exact minds_ask rfl fun log m t hm =>
      (hm.atTime t).respond_rename isFileName_document isFileName_backup (by simp)
  | renew => exact minds_ask rfl fun log m t hm =>
      (hm.atTime t).respond_createEmpty isFileName_document
  | fill id text => exact minds_write fun log m t left t' hm =>
      ⟨hm.fill m.today id left t', hm.fill t id left t'⟩

/-- A document that could be made and written is there. -/
theorem throughout_writeFile_sound (hm : m.Sound) :
    Throughout (fun _ m => m.Sound) (OnOutcome (fun _ => s.Keeps c) fun _ m => m.Sound)
      (writeFile s.documentPath c.pretty) log m := by
  rw [writeFile]
  refine Throughout.bind (throughout_ask rfl hm fun t => ?_)
  cases hok : (m.atTime t).createEmpty s.documentPath with
  | error e =>
    have hanswer : respond (.createEmpty s.documentPath) (m.atTime t) = (.error e, m.atTime t) := by
      rw [respond, hok]
      rfl
    rw [hanswer]
    exact ⟨hm.atTime t, Throughout.pure (hm.atTime t) (hm.atTime t)⟩
  | ok x =>
    obtain ⟨id, m₁⟩ := x
    have hanswer : respond (.createEmpty s.documentPath) (m.atTime t) = (.ok id, m₁) := by
      rw [respond, hok]
      rfl
    obtain ⟨hm₁, d, hopens, hdocument⟩ := (hm.atTime t).createEmpty isFileName_document hok
    -- Wherever the path leads, it leads there still when the file has been written.
    have hmade : s.Stays d _ _ m₁ := ⟨hm₁, hopens, hdocument, rfl⟩
    have hwrite (log : List FileExchange) : Throughout (fun _ m => m.Sound)
        (OnOutcome (fun _ => s.Keeps c) fun _ m => m.Sound) (ask (.write id c.pretty)) log m₁ := by
      apply throughout_write hm₁
      · exact fun left t' => hm₁.fill m₁.today id left t'
      · intro t'
        exact ⟨hm₁.fill t' id (.text c.pretty) t', d, id, t', _, hm₁.fill t' id _ t',
          hmade.opens_fill t' id _ t', FileTree.at?_fill_file hdocument _ t', rfl⟩
    rw [hanswer]
    exact ⟨hm₁, hwrite (log ++ [⟨.createEmpty s.documentPath, .ok id⟩])⟩

/-- Wherever a commit is stopped, the machine is sound, and where it succeeds, the document is there
in full. -/
theorem throughout_commit_sound (hroot : s.root.Proper) (hm : m.Sound) :
    Throughout (fun _ m => m.Sound) (fun x _ m => x = .ok () → s.Keeps c m) (s.commit c) log m := by
  by_cases hname : c.name = s.name
  · rw [commit_eq hname]
    refine throughout_whileLocked (fun _ _ => id) (lockSteps_sound hroot) ?_ ?_ hm
    · intro log m hm
      refine (minds_rotate log m hm).seq ?_
      intro x log m hm
      cases x with
      | error e => exact Throughout.pure hm hm
      | ok => exact throughout_writeFile_sound hm
    · rintro log m ⟨d, id, modified, backup, hstays⟩
      have hsteps : s.LockSteps fun {α : Type} (c' : FileDialogue α) => Minds (fun _ m =>
          s.Stays d (some (.file id (.text c.pretty) modified)) backup m ∧ True) c' :=
        lockSteps_stays fun _ _ _ _ _ => trivial
      -- Letting go of the lock leaves both documents where they are.
      exact (hsteps.release log m ⟨hstays, trivial⟩).imp (fun _ _ h => h.1.sound)
        fun _ _ _ h => ⟨d, id, modified, backup, h.1⟩
  · rw [commit, if_pos hname]
    exact Throughout.pure hm (by rintro ⟨⟩)

theorem sound_of_stopped (hroot : s.root.Proper) (hm : m.Sound)
    (hc : (s.commit c).Stopped m log m') : m'.Sound := by
  have hcommit : Throughout _ _ (s.commit c) [] m := throughout_commit_sound hroot hm
  exact hcommit.of_stopped hc

theorem Keeps.of_finished (hroot : s.root.Proper) (hm : m.Sound)
    (hc : (s.commit c).Finished m (.ok ()) m') : s.Keeps c m' := by
  have hcommit : Throughout _ _ (s.commit c) [] m := throughout_commit_sound hroot hm
  obtain ⟨log, hkeeps⟩ := hcommit.of_finished hc
  exact hkeeps rfl

/-! ## Commits that are stopped -/

/-- One of some documents is read from what is in a place. -/
def Holds (s : FileStore) (docs : List Cluster) (n : Option FileNode) : Prop :=
  ∃ c ∈ docs, s.documentAt n = .ok c

/-- The backup was removed. -/
def Cleared (s : FileStore) (log : List FileExchange) : Prop :=
  ⟨.removeFile s.backupPath, .ok ()⟩ ∈ log

/-- One of some documents is in its place or is the backup, unless none was found in its place, the
backup was removed for what was there, and the new document has not been written. -/
def Endures (s : FileStore) (d : Location) (c : Cluster) (docs : List Cluster) (found : Prop)
    (log : List FileExchange) (m : Machine) : Prop :=
  ∃ document backup, s.Stays d document backup m ∧ document ≠ some .directory ∧
    (s.Holds docs document ∨ s.Holds docs backup ∨
      ¬ found ∧ s.Cleared log ∧ ¬ s.Written c log)

theorem Holds.mono {docs' : List Cluster} {n : Option FileNode} (h : s.Holds docs n)
    (hdocs : docs ⊆ docs') : s.Holds docs' n := by
  obtain ⟨c, hc, hn⟩ := h
  exact ⟨c, hdocs hc, hn⟩

theorem holds_pretty (hc : c ∈ docs) (hversion : c.checkVersion = .ok ()) :
    s.Holds docs (some (.file id (.text c.pretty) modified)) := by
  refine ⟨c, hc, ?_⟩
  rw [documentAt_pretty, hversion]

theorem not_holds_none : ¬ s.Holds docs none := by
  rintro ⟨c, -, hnone⟩
  cases hnone

/-- A document that was opened last has not been written yet. -/
theorem not_written_of_last (h : ¬ s.Opened log) (x : FileExchange) :
    ¬ s.Written c (log ++ [x]) := by
  rintro ⟨id, front, back, heq⟩
  refine h ⟨id, ?_⟩
  have hfront := congrArg List.dropLast heq
  rw [List.dropLast_concat, List.dropLast_append_of_ne_nil (List.cons_ne_nil _ _),
    List.dropLast_cons_of_ne_nil (List.cons_ne_nil _ _)] at hfront
  rw [hfront]
  exact List.mem_append_right _ List.mem_cons_self

theorem not_opened_concat {r : FileRequest} {a : r.Answer} (h : ¬ s.Opened log)
    (hr : r.isOpening = false) : ¬ s.Opened (log ++ [⟨r, a⟩]) := by
  rw [opened_append]
  rintro (hopened | ⟨id, hid⟩)
  · exact h hopened
  · cases List.mem_singleton.1 hid
    cases hr

section Stopped

variable {found : Prop} {f : String}

/-- What is in the two places, before the document has been opened. -/
def Rests (s : FileStore) (d : Location) (document backup : Option FileNode)
    (log : List FileExchange) (m : Machine) : Prop :=
  s.Stays d document backup m ∧ ¬ s.Opened log

namespace Rests

theorem endures (h : s.Rests d document backup log m) (hdocument : document ≠ some .directory)
    (hwhole : s.Holds docs document ∨ s.Holds docs backup ∨ ¬ found ∧ s.Cleared log) :
    s.Endures d c docs found log m := by
  refine ⟨document, backup, h.1, hdocument, hwhole.imp_right (Or.imp_right fun hlost => ?_)⟩
  exact ⟨hlost.1, hlost.2, fun hwritten => h.2 hwritten.opened⟩

/-- An answer that changes nothing. -/
theorem concat (h : s.Rests d document backup log m) (t : Moment) {r : FileRequest} (a : r.Answer)
    (hr : r.isOpening = false) : s.Rests d document backup (log ++ [⟨r, a⟩]) (m.atTime t) :=
  ⟨h.1.atTime t, not_opened_concat h.2 hr⟩

/-- Looking for a file tells whether it is there. -/
theorem throughout_pathExists (h : s.Rests d document backup log m) (hf : IsFileName f)
    {n : Option FileNode} (hn : m.files.at? (d ++ [f]) = n) :
    Throughout (s.Rests d document backup)
      (fun x log m => x = n.isSome ∧ s.Rests d document backup log m)
      (pathExists (s.directory.child f)) log m := by
  refine Throughout.bind (throughout_ask rfl h fun t => ⟨h.concat t _ rfl, ?_⟩)
  refine Throughout.pure (h.concat t _ rfl) ⟨?_, h.concat t _ rfl⟩
  have hfind := (h.1.atTime t).opens.find_child hf
  have hat : (m.atTime t).files.at? (d ++ [f]) = n := hn
  rw [hat] at hfind
  rw [respond, hfind]
  cases n <;> rfl

/-- A file in the place of the backup is removed, and the record shows it. -/
theorem throughout_removeBackup {I : List FileExchange → Machine → Prop}
    (h : s.Rests d document (some (.file id content modified)) log m) (hnow : I log m)
    (hremoved : ∀ log m, s.Rests d document none log m → s.Cleared log → I log m) :
    Throughout I (fun x log m => x = .ok () ∧ s.Rests d document none log m ∧ s.Cleared log)
      (ask (.removeFile s.backupPath)) log m := by
  refine throughout_ask rfl hnow fun t => ?_
  have hanswer : respond (.removeFile s.backupPath) (m.atTime t) =
      (.ok (), (m.atTime t).remove (d ++ ["cluster.json.backup"])) :=
    (h.1.atTime t).opens.respond_removeFile isFileName_backup h.1.backup
  have hrests : s.Rests d document none (log ++ [⟨.removeFile s.backupPath, .ok ()⟩])
      ((m.atTime t).remove (d ++ ["cluster.json.backup"])) :=
    ⟨(h.1.atTime t).removeBackup, not_opened_concat h.2 rfl⟩
  have hcleared : s.Cleared (log ++ [⟨.removeFile s.backupPath, .ok ()⟩]) :=
    List.mem_append_right _ List.mem_cons_self
  rw [hanswer]
  exact ⟨hremoved _ _ hrests hcleared, rfl, hrests, hcleared⟩

/-- A directory in the place of the backup is not removed. -/
theorem throughout_removeBackup_of_directory (h : s.Rests d document (some .directory) log m) :
    Throughout (s.Rests d document (some .directory))
      (fun x log m => x = .error .isADirectory ∧ s.Rests d document (some .directory) log m)
      (ask (.removeFile s.backupPath)) log m := by
  refine throughout_ask rfl h fun t => ?_
  have hanswer : respond (.removeFile s.backupPath) (m.atTime t) =
      (.error .isADirectory, m.atTime t) := by
    rw [respond, Machine.removeFile, backupPath,
      (h.1.atTime t).opens.find_child isFileName_backup, (h.1.atTime t).backup]
    rfl
  have hrests := h.concat t (r := .removeFile s.backupPath) (.error .isADirectory) rfl
  rw [hanswer]
  exact ⟨hrests, rfl, hrests⟩

end Rests

theorem lockSteps_rests : s.LockSteps fun {α : Type} (c : FileDialogue α) =>
    Minds (s.Rests d document backup) c :=
  lockSteps_stays fun _ _ _ hr hlog => not_opened_concat hlog hr

/-- There is no document, and the new one has not been opened. -/
def Vacant (s : FileStore) (d : Location) (docs : List Cluster) (found : Prop)
    (log : List FileExchange) (m : Machine) : Prop :=
  ∃ backup, s.Rests d none backup log m ∧ (s.Holds docs backup ∨ ¬ found ∧ s.Cleared log)

theorem Vacant.endures (h : s.Vacant d docs found log m) : s.Endures d c docs found log m := by
  obtain ⟨backup, hrests, hbackup⟩ := h
  exact hrests.endures (by simp) (.inr hbackup)

/-- Where there is no backup, a document can be moved aside. -/
theorem throughout_rename (h : s.Rests d (some (.file id content modified)) none log m)
    (hwhole : s.Holds docs (some (.file id content modified)) ∨ ¬ found ∧ s.Cleared log) :
    Throughout (s.Endures d c docs found)
      (OnOutcome (s.Vacant d docs found) (s.Rests d document backup))
      (ask (.rename s.documentPath s.backupPath)) log m := by
  apply throughout_ask rfl
  · exact h.endures (by simp) (hwhole.imp_right .inr)
  · intro t
    have hstays := h.1.atTime t
    have hanswer : respond (.rename s.documentPath s.backupPath) (m.atTime t) =
        (.ok (), (m.atTime t).shift (d ++ ["cluster.json"]) (d ++ ["cluster.json.backup"])) :=
      hstays.opens.respond_rename isFileName_document isFileName_backup hstays.document
        (ne_directory_of_none hstays.backup)
    have hvacant : s.Vacant d docs found
        (log ++ [⟨.rename s.documentPath s.backupPath, .ok ()⟩])
        ((m.atTime t).shift (d ++ ["cluster.json"]) (d ++ ["cluster.json.backup"])) := by
      refine ⟨_, ⟨hstays.shift, not_opened_concat h.2 rfl⟩, hwhole.imp_right fun hlost => ?_⟩
      exact ⟨hlost.1, List.mem_append_left _ hlost.2⟩
    rw [hanswer]
    exact ⟨hvacant.endures, hvacant⟩

/-- A document that was found is moved aside, and nothing is moved over a directory. -/
theorem throughout_rotate (hdocument : document ≠ some .directory)
    (hfound : found → s.Holds docs document)
    (hwhole : s.Holds docs document ∨ s.Holds docs backup)
    (h : s.Rests d document backup log m) :
    Throughout (s.Endures d c docs found)
      (OnOutcome (s.Vacant d docs found) (s.Rests d document backup)) s.rotate log m := by
  have hendures (log : List FileExchange) (m : Machine) (h : s.Rests d document backup log m) :
      s.Endures d c docs found log m := h.endures hdocument (hwhole.imp_right .inl)
  rw [rotate]
  refine Throughout.bind ((h.throughout_pathExists isFileName_document h.1.document).imp
    hendures ?_)
  rintro x log m ⟨rfl, h⟩
  rcases document with _ | (⟨id, content, modified⟩ | _)
  · -- Without a document there is nothing to move.
    exact Throughout.pure (hendures _ _ h) ⟨backup, h, .inl (hwhole.resolve_left not_holds_none)⟩
  · refine Throughout.bind ((h.throughout_pathExists isFileName_backup h.1.backup).imp
      hendures ?_)
    rintro x log m ⟨rfl, h⟩
    rcases backup with _ | (⟨id', content', modified'⟩ | _)
    · rw [if_neg (by simp)]
      exact Throughout.bind (Throughout.pure (hendures _ _ h)
        (throughout_rename h (.inl (hwhole.resolve_right not_holds_none))))
    · -- From here on there is no backup until the document has been moved.
      have hstill (log : List FileExchange) (hcleared : s.Cleared log) :
          s.Holds docs (some (.file id content modified)) ∨ ¬ found ∧ s.Cleared log := by
        by_cases h : found
        · exact .inl (hfound h)
        · exact .inr ⟨h, hcleared⟩
      rw [if_pos (by simp)]
      refine (h.throughout_removeBackup (hendures _ _ h) fun log m hrests hcleared =>
        hrests.endures (by simp) ((hstill log hcleared).imp_right .inr)).seq ?_
      rintro x log m ⟨rfl, hrests, hcleared⟩
      exact throughout_rename hrests (hstill log hcleared)
    · rw [if_pos (by simp)]
      refine (h.throughout_removeBackup_of_directory.imp hendures fun _ _ _ h => h).seq ?_
      rintro x log m ⟨rfl, hrests⟩
      exact Throughout.pure (hendures log m hrests) hrests
  · exact absurd rfl hdocument

/-- Until the new document is written in full, what was moved aside is the backup. -/
theorem throughout_writeFile (hc : c ∈ docs) (hversion : c.checkVersion = .ok ())
    (h : s.Vacant d docs found log m) :
    Throughout (s.Endures d c docs found) (fun x log m => x = .ok () ∧ s.Written c log ∧
      ∃ id modified backup, s.Stays d (some (.file id (.text c.pretty) modified)) backup m)
      (writeFile s.documentPath c.pretty) log m := by
  have hendures : s.Endures d c docs found log m := h.endures
  obtain ⟨backup, ⟨hstays, hlog⟩, hbackup⟩ := h
  rw [writeFile]
  refine Throughout.bind (throughout_ask rfl hendures fun t => ?_)
  have hmade := (hstays.atTime t).addDocument
  have hanswer : respond (.createEmpty s.documentPath) (m.atTime t) =
      (.ok m.nextId, (m.atTime t).addEmpty (d ++ ["cluster.json"])) :=
    (hstays.atTime t).opens.respond_createEmpty isFileName_document hstays.document
  have hfill (t' : Moment) (left : Content) (modified : Moment) :=
    hmade.fillDocument t' (fun _ _ => ((hstays.atTime t).ne_nextId _ _).2) left modified
  -- The record so far ends in the opening of the document.
  obtain ⟨log', hlog'⟩ : ∃ log', log' = log ++
    [(⟨.createEmpty s.documentPath, .ok m.nextId⟩ : FileExchange)] := ⟨_, rfl⟩
  have hbehind {document : Option FileNode} {m' : Machine}
      (hstays' : s.Stays d document backup m') (hfile : document ≠ some .directory) :
      s.Endures d c docs found log' m' := by
    refine ⟨document, backup, hstays', hfile, .inr (hbackup.imp_right fun hlost => ?_)⟩
    refine ⟨hlost.1, ?_, ?_⟩ <;> rw [hlog']
    · exact List.mem_append_left _ hlost.2
    · exact not_written_of_last hlog _
  have hwrite : Throughout (s.Endures d c docs found) (fun x log m => x = .ok () ∧
      s.Written c log ∧ ∃ id modified backup,
        s.Stays d (some (.file id (.text c.pretty) modified)) backup m)
      (ask (.write m.nextId c.pretty)) log' ((m.atTime t).addEmpty (d ++ ["cluster.json"])) := by
    apply throughout_write (hbehind hmade (by simp))
    · exact fun left t' => hbehind (hfill t left t') (by simp)
    · intro t'
      have hwritten : s.Written c (log' ++ [⟨.write m.nextId c.pretty, .ok ()⟩]) :=
        ⟨m.nextId, log, [], by rw [hlog', List.append_assoc]; rfl⟩
      have hfilled := hfill t' (.text c.pretty) t'
      exact ⟨⟨_, _, hfilled, by simp, .inl (holds_pretty hc hversion)⟩, rfl, hwritten, _, _, _,
        hfilled⟩
  rw [hanswer]
  exact ⟨hlog' ▸ hbehind hmade (by simp), hlog' ▸ hwrite⟩

/-- Wherever a commit is stopped that found one of some documents, one of them or the new one can be
read, unless only the backup held one, and it was removed for what was in the place of the
document. -/
theorem throughout_commit (hc : c ∈ docs) (hversion : c.checkVersion = .ok ())
    (hdocument : document ≠ some .directory)
    (hwhole : s.Holds docs document ∨ s.Holds docs backup)
    (h : s.Rests d document backup log m) :
    Throughout (s.Endures d c docs (s.Holds docs document)) (fun _ _ _ => True) (s.commit c)
      log m := by
  have hendures (log : List FileExchange) (m : Machine) (h : s.Rests d document backup log m) :
      s.Endures d c docs (s.Holds docs document) log m :=
    h.endures hdocument (hwhole.imp_right .inl)
  by_cases hname : c.name = s.name
  · rw [commit_eq hname]
    refine (throughout_whileLocked (D := fun log m => s.Written c log ∧
      ∃ id modified backup, s.Stays d (some (.file id (.text c.pretty) modified)) backup m)
      hendures lockSteps_rests ?_ ?_ h).mono fun _ _ _ _ => trivial
    · intro log m h
      refine (throughout_rotate hdocument id hwhole h).seq ?_
      intro x log m h
      cases x with
      | error e => exact Throughout.pure (hendures log m h) h
      | ok =>
        refine (throughout_writeFile hc hversion h).mono ?_
        rintro x log m ⟨rfl, hwritten⟩
        exact hwritten
    · -- The new document is whole, and no step that lets go of the lock opens it again.
      rintro log m ⟨hwritten, id, modified, backup, hstays⟩
      have hstill (log : List FileExchange) (r : FileRequest) (a : r.Answer)
          (_ : r.isOpening = false) (h : s.Written c log) : s.Written c (log ++ [⟨r, a⟩]) := by
        obtain ⟨id, front, back, rfl⟩ := h
        exact ⟨id, front, back ++ [⟨r, a⟩], by simp only [List.append_assoc, List.cons_append]⟩
      exact ((lockSteps_stays hstill).release log m ⟨hstays, hwritten⟩).imp
        (fun _ _ h => ⟨_, _, h.1, by simp, .inl (holds_pretty hc hversion)⟩)
        fun _ _ _ h => ⟨h.2, _, _, _, h.1⟩
  · rw [commit, if_pos hname]
    exact Throughout.pure (hendures log m h) trivial

end Stopped

/-! ## Histories of commits -/

namespace Stays

theorem run_get (h : s.Stays d document backup m) :
    (m.run s.get).1 = some (s.documentAt document) := by
  rw [get, documentPath, run_readDocument_of_opens h.opens isFileName_document, h.document]

theorem run_getBackup (h : s.Stays d document backup m) :
    (m.run s.getBackup).1 = some (s.documentAt backup) := by
  rw [getBackup, backupPath, run_readDocument_of_opens h.opens isFileName_backup, h.backup]

end Stays

theorem Keeps.run_get (h : s.Keeps c m) :
    (m.run s.get).1 = some (match c.checkVersion with
      | .error e => .error (.unusable e)
      | .ok () => .ok c) := by
  obtain ⟨d, id, modified, backup, hstays⟩ := h
  exact hstays.run_get.trans (congrArg some (s.documentAt_pretty c id modified))

/-- One of some documents is in its place or is the backup. -/
def Safe (s : FileStore) (docs : List Cluster) (m : Machine) : Prop :=
  ∃ d document backup, s.Stays d document backup m ∧ document ≠ some .directory ∧
    (s.Holds docs document ∨ s.Holds docs backup)

/-- The backup was not removed for what was none of some documents, or the new document was written
in full. -/
def Prudent (s : FileStore) (docs : List Cluster) (c : Cluster) (m : Machine)
    (log : List FileExchange) : Prop :=
  s.Cleared log → (∃ doc ∈ docs, (m.run s.get).1 = some (.ok doc)) ∨ s.Written c log

/-- A commit that finds the document of one that succeeded may be stopped anywhere. -/
theorem Keeps.prudent (h : s.Keeps c m) (hc : c ∈ docs) (hversion : c.checkVersion = .ok ())
    (c' : Cluster) (log : List FileExchange) : s.Prudent docs c' m log := by
  intro _
  have hget := h.run_get
  rw [hversion] at hget
  exact .inl ⟨c, hc, hget⟩

/-- Commits to a store, each of which begins where the one before it ended or was stopped: the
document of the last one that succeeded, and those of the later ones, which failed or were stopped.
Of the later ones something may be known, each time of the documents before, the new document, the
machine on which the commit began and its record. -/
inductive History (s : FileStore)
    (P : List Cluster → Cluster → Machine → List FileExchange → Prop) (m₀ : Machine) :
    Option Cluster → List Cluster → Machine → Prop
  | start : History s P m₀ none [] m₀
  | completed {kept : Option Cluster} {later : List Cluster} {c : Cluster} {m m' : Machine}
    (h : History s P m₀ kept later m) (hc : (s.commit c).Finished m (.ok ()) m') :
    History s P m₀ (some c) [] m'
  | stopped {kept : Option Cluster} {later : List Cluster} {c : Cluster} {m m' : Machine}
    {log : List FileExchange} (h : History s P m₀ kept later m)
    (hc : (s.commit c).Stopped m log m')
    (hstop : ∀ c₀, kept = some c₀ → P (c₀ :: later) c m log) :
    History s P m₀ kept (later ++ [c]) m'

variable {m₀ : Machine} {kept : Option Cluster} {later : List Cluster}
variable {P : List Cluster → Cluster → Machine → List FileExchange → Prop}

theorem Safe.of_keeps (h : s.Keeps c m) (hc : c ∈ docs) (hversion : c.checkVersion = .ok ()) :
    s.Safe docs m := by
  obtain ⟨d, id, modified, backup, hstays⟩ := h
  exact ⟨d, _, _, hstays, by simp, .inl (holds_pretty hc hversion)⟩

/-- Wherever a prudent commit is stopped, one of the documents before it or its own is safe. -/
theorem Safe.of_stopped (h : s.Safe docs m) (hversion : c.checkVersion = .ok ())
    (hstop : (s.commit c).Stopped m log m') (hprudent : s.Prudent docs c m log) :
    s.Safe (docs ++ [c]) m' := by
  obtain ⟨d, document, backup, hstays, hdocument, hwhole⟩ := h
  have hdocs : docs ⊆ docs ++ [c] := List.subset_append_left docs [c]
  have hrests : s.Rests d document backup [] m := ⟨hstays, not_opened_nil⟩
  obtain ⟨document', backup', hstays', hdocument', hwhole'⟩ :=
    (throughout_commit (List.mem_append_right docs List.mem_cons_self) hversion hdocument
      (hwhole.imp (·.mono hdocs) (·.mono hdocs)) hrests).of_stopped hstop
  refine ⟨d, document', backup', hstays', hdocument', ?_⟩
  rcases hwhole' with hwhole' | hwhole' | ⟨hfound, hcleared, hwritten⟩
  · exact .inl hwhole'
  · exact .inr hwhole'
  · -- The document was found, or it has been written.
    rcases hprudent hcleared with ⟨doc, hdoc, hget⟩ | hnew
    · rw [hstays.run_get] at hget
      exact absurd ⟨doc, hdocs hdoc, Option.some.inj hget⟩ hfound
    · exact absurd hnew hwritten

theorem History.sound (h : s.History P m₀ kept later m) (hroot : s.root.Proper)
    (hm₀ : m₀.Sound) : m.Sound := by
  induction h with
  | start => exact hm₀
  | completed _ hc ih =>
    obtain ⟨d, id, modified, backup, hstays⟩ := Keeps.of_finished hroot ih hc
    exact hstays.sound
  | stopped _ hc _ ih => exact sound_of_stopped hroot ih hc

theorem History.safe (h : s.History s.Prudent m₀ kept later m) (hroot : s.root.Proper)
    (hm₀ : m₀.Sound) {c₀ : Cluster} (hkept : kept = some c₀)
    (hversions : ∀ c ∈ c₀ :: later, c.checkVersion = .ok ()) : s.Safe (c₀ :: later) m := by
  induction h with
  | start => cases hkept
  | completed h hc _ =>
    -- What was there before does not matter any more.
    cases hkept
    have hkeeps : s.Keeps c₀ _ := .of_finished hroot (h.sound hroot hm₀) hc
    exact .of_keeps hkeeps List.mem_cons_self (hversions c₀ List.mem_cons_self)
  | @stopped kept later c m m' log h hc hstop ih =>
    rw [← List.cons_append] at hversions ⊢
    obtain ⟨hbefore, hc'⟩ := List.forall_mem_append.1 hversions
    exact (ih hkept hbefore).of_stopped (hc' c List.mem_cons_self) hc (hstop c₀ hkept)

/-- While no commit removes the backup for what is none of the documents and is stopped before it
has written its own, the last document that was committed can be read, or one that was to be kept
later. -/
theorem document_survives {c₀ : Cluster} (hroot : s.root.Proper) (hm₀ : m₀.Sound)
    (h : s.History s.Prudent m₀ (some c₀) later m)
    (hversions : ∀ c ∈ c₀ :: later, c.checkVersion = .ok ()) :
    ∃ c ∈ c₀ :: later,
      (m.run s.get).1 = some (.ok c) ∨ (m.run s.getBackup).1 = some (.ok c) := by
  obtain ⟨d, document, backup, hstays, -, hwhole⟩ := h.safe hroot hm₀ rfl hversions
  rw [hstays.run_get, hstays.run_getBackup]
  rcases hwhole with ⟨c, hc, hdocument⟩ | ⟨c, hc, hbackup⟩
  · exact ⟨c, hc, .inl (congrArg some hdocument)⟩
  · exact ⟨c, hc, .inr (congrArg some hbackup)⟩

end FileStore

/-! ## A host that goes down -/

namespace failingHost

/-- A machine without files. -/
def machine : Machine := { today := ⟨0, 0⟩ }

/-- A store below a root that is yet to be made. -/
def store : FileStore := { root := .ofText "clusters", name := "demo", holder := "host" }

/-- A cluster. -/
def demo : Cluster := { name := "demo", cloud := "fake" }

/-- The cluster at another place. -/
def moved : Cluster := { demo with location := "local" }

/-- A cluster of a version to come. -/
def coming : Cluster := { demo with version := 2 }

/-- The machine behind a commit. -/
def behind (c : Cluster) (m : Machine) : Machine := (m.run (store.commit c)).2

/-- The machine when a commit has made some requests at a time. -/
def within (t : Moment) (n : Nat) (c : Cluster) (m : Machine) : Machine :=
  ((store.commit c).advance t n m).2

theorem sound_machine : machine.Sound := Machine.sound_of_empty rfl rfl

theorem proper_root : store.root.Proper := Path.proper_ofText "clusters"

theorem finished_behind (h : (m.run (store.commit c)).1 = some (.ok ())) :
    (store.commit c).Finished m (.ok ()) (behind c m) :=
  finished_of_run (Prod.ext h rfl)

theorem keeps_behind (hm : m.Sound) (h : (m.run (store.commit c)).1 = some (.ok ())) :
    store.Keeps c (behind c m) :=
  .of_finished proper_root hm (finished_behind h)

/-- A commit that is stopped when it has opened the new document removed the backup before, which it
may. -/
theorem kept_through_stop : ∃ c ∈ [moved, demo],
    ((within ⟨0, 0⟩ 9 demo (behind moved (behind demo machine))).run store.get).1 =
        some (.ok c) ∨
      ((within ⟨0, 0⟩ 9 demo (behind moved (behind demo machine))).run store.getBackup).1 =
        some (.ok c) := by
  have hdemo : store.History store.Prudent machine (some demo) [] (behind demo machine) :=
    .completed .start (finished_behind (by decide +kernel))
  have hcommit : ((behind demo machine).run (store.commit moved)).1 = some (.ok ()) := by
    decide +kernel
  have hkeeps : store.Keeps moved (behind moved (behind demo machine)) :=
    keeps_behind (hdemo.sound proper_root sound_machine) hcommit
  have hstopped : store.History store.Prudent machine (some moved) [demo]
      (within ⟨0, 0⟩ 9 demo (behind moved (behind demo machine))) := by
    apply (hdemo.completed (finished_behind hcommit)).stopped (stopped_advance ⟨0, 0⟩ 9 _ _)
    rintro c ⟨⟩
    exact hkeeps.prudent List.mem_cons_self (by decide) demo _
  exact FileStore.document_survives proper_root sound_machine hstopped (by decide)

/-- The machine when a commit was stopped before it had written its document and another one, two
hours later, when it had removed the backup. -/
def stripped : Machine := within ⟨7200, 0⟩ 11 demo (within ⟨0, 0⟩ 8 moved (behind demo machine))

/-- A document of a version to come is kept but not read, and when the backup has been removed for a
document that was not written, there is none. -/
theorem document_lost :
    (store.History (fun _ _ _ _ => True) machine (some coming) [] (behind coming machine) ∧
      ((behind coming machine).run store.get).1 =
        some (.error (.unusable (.unsupportedVersion 2 1))) ∧
      ((behind coming machine).run store.getBackup).1 = some (.error (.notFound "demo"))) ∧
    store.History (fun _ _ _ _ => True) machine (some demo) [moved, demo] stripped ∧
      (stripped.run store.get).1 = some (.error (.malformed .truncated)) ∧
      (stripped.run store.getBackup).1 = some (.error (.notFound "demo")) := by
  have hcommit : (machine.run (store.commit coming)).1 = some (.ok ()) := by decide +kernel
  have hdemo : store.History (fun _ _ _ _ => True) machine (some demo) [] (behind demo machine) :=
    .completed .start (finished_behind (by decide +kernel))
  refine ⟨⟨.completed .start (finished_behind hcommit), ?_, by decide +kernel⟩, ?_, ?_⟩
  · exact (keeps_behind sound_machine hcommit).run_get
  · exact (hdemo.stopped (stopped_advance _ _ _ _) fun _ _ => trivial).stopped
      (stopped_advance _ _ _ _) fun _ _ => trivial
  · decide +kernel

end failingHost

end ClusterKeeper
