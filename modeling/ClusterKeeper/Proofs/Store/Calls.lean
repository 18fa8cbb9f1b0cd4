/-
# What the calls of a store in files do

On a machine that nothing disturbs, a call on a store finds what is in the directory of the cluster
and leaves its traces nowhere else. The lock that a call takes is gone when the call is over.
-/

import ClusterKeeper.Proofs.Cluster.Document
import ClusterKeeper.Proofs.Files.Ways
import ClusterKeeper.Store.File

namespace ClusterKeeper

open FileTree (IsFileName ne_directory_of_none)
open FileDialogue (ask)
open Machine (run_bind run_ask run_pathExists)

variable {m m' m₁ : Machine} {d l : Location} {p : Path}
variable {s : FileStore} {c : Cluster} {id : FileId} {text : String} {modified : Moment}

theorem isFileName_document : IsFileName "cluster.json" := by constructor <;> decide

theorem isFileName_backup : IsFileName "cluster.json.backup" := by constructor <;> decide

theorem isFileName_lock : IsFileName "lock.json" := by constructor <;> decide

/-- An operation that succeeds is not tried again. -/
theorem Retrier.run_attempt_of_ok {ε α : Type} {wait : FileDialogue Unit} {operation : String}
    {action : FileDialogue (Except ε α)} {x : α} (h : m.run action = (some (.ok x), m'))
    {made left : Nat} :
    m.run (attempt wait operation action made left) = (some (.ok x), m') := by
  cases left <;> rw [Retrier.attempt, Machine.run_bind h] <;> rfl

namespace FileStore

theorem directory_eq (hs : IsFileName s.name) : s.directory = s.root.child s.name :=
  Path.join_eq_child hs _

theorem paves_ensureDirectory : s.ensureDirectory.Asks (FileRequest.Paves s.directory) := by
  refine (FileDialogue.paves_pathExists s.directory s.directory).bind fun found => ?_
  split
  · exact Dialogue.asks_pure _
  · exact FileDialogue.paves_makeDirectoriesWithin (.refl _) _

theorem run_ensureDirectory_of_enters (h : m.Enters s.directory d) :
    m.run s.ensureDirectory = (some (.ok ()), m) := by
  rw [ensureDirectory, run_bind (run_pathExists _), h.find]
  rfl

/-! ## The steps of locking -/

/-- A property of dialogues that the steps have by which a store takes its lock and lets go of
it. -/
structure LockSteps (s : FileStore) (P : ∀ {α : Type}, FileDialogue α → Prop) : Prop
    extends Dialogue.Closed P where
  look : ∀ r : FileRequest, r.isLook = true → P (ask r)
  wait : ∀ t, P (ask (.wait t))
  make : ∀ {q : Path}, q.Along s.directory → P (ask (.makeDirectory q))
  create : ∀ text, P (s.createLock text)
  remove : P (ask (.removeFile s.lockPath))

namespace LockSteps

variable {P : ∀ {α : Type}, FileDialogue α → Prop}

theorem pathExists (h : s.LockSteps P) (p : Path) : P (FileDialogue.pathExists p) :=
  h.bind (h.look (.isDirectory p) rfl) fun _ => h.pure _

theorem ensureDirectory (h : s.LockSteps P) : P s.ensureDirectory := by
  refine h.of_asks paves_ensureDirectory fun r hr => ?_
  cases hr with
  | look q => exact h.look _ rfl
  | make hq => exact h.make hq

theorem lockHolder (h : s.LockSteps P) : P s.lockHolder := by
  refine h.bind (h.look (.readText s.lockPath) rfl) fun answer => ?_
  split
  · exact h.pure _
  · exact h.pure _
  · split
    · exact h.pure _
    · refine h.bind (h.look (.modified s.lockPath) rfl) fun answer => ?_
      cases answer <;> exact h.pure _

theorem takeOver (h : s.LockSteps P) (text : String) : P (s.takeOver text) := by
  refine h.bind h.remove fun answer => ?_
  split
  case h_3 => exact h.pure _
  -- The file may be gone already.
  all_goals
    refine h.bind (h.create text) fun answer => ?_
    split <;> exact h.pure _

theorem acquire (h : s.LockSteps P) : P s.acquire := by
  refine h.bind h.ensureDirectory fun answer => ?_
  split
  · exact h.pure _
  refine h.bind (h.look .now rfl) fun now => h.bind (h.create _) fun answer => ?_
  split
  · exact h.pure _
  · refine h.bind h.lockHolder fun answer => ?_
    split
    · exact h.pure _
    · refine h.bind (h.look .now rfl) fun later => ?_
      split
      · exact h.pure _
      · exact h.takeOver _
  · exact h.pure _

theorem lock (h : s.LockSteps P) : P s.lock := by
  have hattempt (made left : Nat) : P (Retrier.attempt (ask (.wait s.lockRetry.interval))
      "acquire state lock" s.acquire made left) := by
    induction left generalizing made with
    | zero => exact h.bind h.acquire fun x => by cases x <;> exact h.pure _
    | succ left ih =>
      refine h.bind h.acquire fun x => ?_
      cases x with
      | ok x => exact h.pure _
      | error e => exact h.bind (h.wait _) fun _ => ih _
  exact h.bind (hattempt _ _) fun _ => h.pure _

theorem drop (h : s.LockSteps P) : P (StoreLock.drop ⟨s.lockPath⟩) := by
  refine h.bind (h.pathExists _) fun found => ?_
  split
  · exact h.bind h.remove fun _ => h.pure _
  · exact h.pure _

theorem release (h : s.LockSteps P) : P (StoreLock.release ⟨s.lockPath⟩) := by
  refine h.bind (h.pathExists _) fun found => ?_
  split
  · refine h.bind h.remove fun answer => ?_
    split
    · exact h.pure _
    · exact h.bind h.drop fun _ => h.pure _
  · exact h.pure _

end LockSteps

/-! ## Committing -/

/-- The directory of the cluster is there before anything is done in it. -/
theorem run_ensureDirectory (h : m.PlacedAt s.root l) (hm : m.Sound) (hs : IsFileName s.name)
    (hfile : ∀ id content modified,
      m.files.at? (l ++ [s.name]) ≠ some (.file id content modified)) :
    ∃ m₁, m.run s.ensureDirectory = (some (.ok ()), m₁) ∧ m.MadeUpTo m₁ (l ++ [s.name]) ∧
      m₁.Enters s.directory (l ++ [s.name]) := by
  have hchild := directory_eq hs ▸ h.child hm hs hfile
  rw [ensureDirectory, run_bind (run_pathExists _)]
  rcases hn : m.files.at? (l ++ [s.name]) with _ | (_ | _)
  · rw [hchild.find_of_missing hm hn]
    obtain ⟨start, rest, hmake, rfl⟩ := h.leads
    obtain ⟨m₁, hrun, hmade⟩ := (directory_eq hs ▸ hmake.child hs hfile).run_makeDirectoriesWithin
      hm hs.ne_dot (Nat.le_succ s.directory.parts.length)
    exact ⟨m₁, hrun, hmade, (hchild.reaches_of_made hm hmade (List.prefix_refl _)).enters⟩
  · exact absurd hn (hfile _ _ _)
  · have henters := (hchild.reaches hn).enters
    rw [henters.find]
    exact ⟨m, rfl, .refl hm hn, henters⟩

/-- Where the names behind the path of the cluster are those in a directory, nothing has to be
made. -/
theorem run_ensureDirectory_of_opens (h : m.Opens s.directory d) :
    m.run s.ensureDirectory = (some (.ok ()), m) := by
  by_cases hempty : s.directory.isEmpty = true
  · have hfind : m.find s.directory = .error .notFound ∨ m.find s.directory = .error .badName := by
      rw [Machine.find, Machine.resolve, FileTree.resolve, hempty]
      split
      · exact .inr rfl
      · exact .inl rfl
    have hmissing : (m.find s.directory).isOk = false := by
      rcases hfind with hfind | hfind <;> rw [hfind] <;> rfl
    rw [ensureDirectory, run_bind (run_pathExists _), hmissing, if_neg Bool.false_ne_true,
      FileDialogue.makeDirectories, FileDialogue.makeDirectoriesWithin, if_pos hempty]
    rfl
  · -- The path of a child goes on from where this path leads.
    have hchild := h.resolve_child isFileName_lock
    rw [Machine.resolve_child (Bool.not_eq_true _ ▸ hempty) isFileName_lock] at hchild
    obtain ⟨e, he, hstep⟩ := exists_ok_of_bind hchild
    have hd := Machine.eq_of_step (.inr isFileName_lock) hstep
    obtain rfl : d = e := (List.append_inj' hd rfl).1
    exact run_ensureDirectory_of_enters ⟨he, h.directory⟩

theorem run_createLock (h : m.Opens s.directory d)
    (hlock : m.files.at? (d ++ ["lock.json"]) = none) (text : String) :
    m.run (s.createLock text) = (some (.ok ()), m.put (d ++ ["lock.json"]) text) := by
  rw [createLock, run_bind (run_ask _), lockPath, h.respond_createNew isFileName_lock hlock]
  rfl

/-- A lock that nobody holds is taken. -/
theorem run_acquire (hrun : m.run s.ensureDirectory = (some (.ok ()), m₁))
    (h : m₁.Opens s.directory d) (hlock : m₁.files.at? (d ++ ["lock.json"]) = none) :
    m.run s.acquire = (some (.ok ⟨s.lockPath⟩), m₁.put (d ++ ["lock.json"])
      (LockInfo.codec.pretty ⟨s.holder, m₁.today⟩)) := by
  rw [acquire, run_bind hrun]
  simp only
  rw [run_bind (run_ask _)]
  simp only [Machine.respond]
  rw [run_bind (run_createLock h hlock _)]
  rfl

theorem run_lock (hrun : m.run s.ensureDirectory = (some (.ok ()), m₁))
    (h : m₁.Opens s.directory d) (hlock : m₁.files.at? (d ++ ["lock.json"]) = none) :
    m.run s.lock = (some (.ok ⟨s.lockPath⟩), m₁.put (d ++ ["lock.json"])
      (LockInfo.codec.pretty ⟨s.holder, m₁.today⟩)) := by
  rw [lock, Retrier.run,
    run_bind (Retrier.run_attempt_of_ok (run_acquire hrun h hlock))]
  rfl

/-- The place of a file is made free before a dialogue goes on. -/
theorem run_removeFile_if_exists {f : String} (h : m.Opens p d) (hm : m.Sound)
    (hf : IsFileName f) (hfile : m.files.at? (d ++ [f]) ≠ some .directory) :
    ∃ m' : Machine, (∀ {α : Type} (g : Except FileFault Unit → FileDialogue α),
        m.run (FileDialogue.pathExists (p.child f) >>= fun found =>
          if found = true then ask (.removeFile (p.child f)) >>= g
          else pure (.ok ()) >>= g) = m'.run (g (.ok ()))) ∧ m'.Sound ∧
      m'.workingDirectory = m.workingDirectory ∧
      ∀ k, m'.files.at? k = if k = d ++ [f] then none else m.files.at? k := by
  rcases hn : m.files.at? (d ++ [f]) with _ | (⟨id, content, modified⟩ | _)
  · refine ⟨m, fun g => ?_, hm, rfl, fun k => ?_⟩
    · rw [run_bind (h.run_pathExists_child hf), hn]
      rfl
    · split
      · next hk => rw [hk, hn]
      · rfl
  · refine ⟨m.remove (d ++ [f]), fun g => ?_, hm.remove hn, rfl, Machine.at?_remove hn⟩
    rw [run_bind (h.run_pathExists_child hf), hn]
    simp only [Option.isSome_some, if_true]
    rw [run_bind (run_ask _), h.respond_removeFile hf hn]
  · exact absurd hn hfile

/-- The document takes the place of the backup. -/
theorem run_rotate (h : m.Opens s.directory d) (hm : m.Sound)
    (hdocument : m.files.at? (d ++ ["cluster.json"]) ≠ some .directory)
    (hbackup : m.files.at? (d ++ ["cluster.json.backup"]) ≠ some .directory) :
    ∃ m', m.run s.rotate = (some (.ok ()), m') ∧ m'.Sound ∧
      m'.workingDirectory = m.workingDirectory ∧ ∀ k, m'.files.at? k =
        if k = d ++ ["cluster.json"] then none
        else if k = d ++ ["cluster.json.backup"] then
          (m.files.at? (d ++ ["cluster.json"])).or (m.files.at? k)
        else m.files.at? k := by
  have hne : d ++ ["cluster.json"] ≠ d ++ ["cluster.json.backup"] := by simp
  rw [rotate, documentPath, backupPath, run_bind (h.run_pathExists_child isFileName_document)]
  rcases hn : m.files.at? (d ++ ["cluster.json"]) with _ | (⟨id, content, modified⟩ | _)
  · -- Without a document nothing is moved, and the backup stays where it is.
    refine ⟨m, rfl, hm, rfl, fun k => ?_⟩
    rw [Option.none_or, ite_self]
    split
    · next hk => rw [hk, hn]
    · rfl
  · -- The place of the backup is made free, and then the document is moved there.
    obtain ⟨m', hrun, hm', hcwd, hat⟩ :=
      run_removeFile_if_exists h hm isFileName_backup hbackup
    have h' : m'.Opens s.directory d := h.mono hcwd fun k hk => by
      rw [hat, if_neg, hk]
      rintro rfl
      exact hbackup hk
    have hn' : m'.files.at? (d ++ ["cluster.json"]) = some (.file id content modified) := by
      rw [hat, if_neg hne, hn]
    have hvacant : m'.files.at? (d ++ ["cluster.json.backup"]) ≠ some .directory :=
      ne_directory_of_none (by rw [hat, if_pos rfl])
    refine ⟨m'.shift (d ++ ["cluster.json"]) (d ++ ["cluster.json.backup"]), ?_,
      hm'.shift (by simp) h'.directory isFileName_backup (hm'.wellFormed.at?_child hvacant)
        (by simp), hcwd, fun k => ?_⟩
    · simp only [Option.isSome_some, if_true]
      rw [hrun]
      simp only
      rw [run_ask, h'.respond_rename isFileName_document isFileName_backup hn' hvacant]
    · rw [hm'.at?_shift_file hn' hvacant, hat]
      by_cases hk : k = d ++ ["cluster.json"]
      · rw [if_neg (hk ▸ hne), if_pos hk, if_pos hk]
      · by_cases hk' : k = d ++ ["cluster.json.backup"]
        · rw [if_pos hk', if_neg hk, if_pos hk']
          rfl
        · simp only [if_neg hk, if_neg hk']
  · exact absurd hn hdocument

/-- What a commit does with the lock held. -/
def keep (s : FileStore) (c : Cluster) : FileDialogue (Except FileFault Unit) := do
  match ← s.rotate with
  | .error e => return .error e
  | .ok () => FileDialogue.writeFile s.documentPath c.pretty

theorem commit_eq (hname : c.name = s.name) : s.commit c = s.whileLocked (s.keep c) := by
  rw [commit, if_neg (not_not_intro hname)]
  rfl

/-- What is done with the lock that nobody holds is done before the lock is let go of. -/
theorem run_whileLocked {action : FileDialogue (Except FileFault Unit)}
    (hrun : m.run s.ensureDirectory = (some (.ok ()), m₁)) (h : m₁.Opens s.directory d)
    (hlock : m₁.files.at? (d ++ ["lock.json"]) = none)
    (haction : (m₁.put (d ++ ["lock.json"])
      (LockInfo.codec.pretty ⟨s.holder, m₁.today⟩)).run action = (some (.ok ()), m')) :
    m.run (s.whileLocked action) = m'.run (StoreLock.release ⟨s.lockPath⟩) := by
  rw [whileLocked, run_bind (run_lock hrun h hlock)]
  simp only
  rw [run_bind haction]

/-- With the lock held, the document is kept and the former one becomes the backup. -/
theorem run_keep (h : m.Opens s.directory d) (hm : m.Sound)
    (hdocument : m.files.at? (d ++ ["cluster.json"]) ≠ some .directory)
    (hbackup : m.files.at? (d ++ ["cluster.json.backup"]) ≠ some .directory) :
    ∃ m' id modified, m.run (s.keep c) = (some (.ok ()), m') ∧ m'.Sound ∧
      m'.Opens s.directory d ∧ m'.workingDirectory = m.workingDirectory ∧
      ∀ k, m'.files.at? k =
        if k = d ++ ["cluster.json"] then some (.file id (.text c.pretty) modified)
        else if k = d ++ ["cluster.json.backup"] then
          (m.files.at? (d ++ ["cluster.json"])).or (m.files.at? k)
        else m.files.at? k := by
  obtain ⟨m₁, hrotate, hm₁, hcwd, hat⟩ := run_rotate h hm hdocument hbackup
  have h₁ : m₁.Opens s.directory d := h.mono hcwd fun k hk => by
    rw [hat, if_neg, if_neg, hk]
    · rintro rfl
      exact hbackup hk
    · rintro rfl
      exact hdocument hk
  have hvacant : m₁.files.at? (d ++ ["cluster.json"]) = none := by rw [hat, if_pos rfl]
  have hvacant' : m₁.files.at? (d ++ ["cluster.json"]) ≠ some .directory :=
    ne_directory_of_none hvacant
  refine ⟨m₁.put (d ++ ["cluster.json"]) c.pretty, m₁.nextId, m₁.today, ?_,
    hm₁.put h₁.directory isFileName_document hvacant' c.pretty,
    hm₁.opens_put h₁ hvacant' c.pretty, hcwd, fun k => ?_⟩
  · rw [keep, run_bind hrotate]
    exact h₁.run_writeFile isFileName_document hvacant
  · rw [hm₁.at?_put (Machine.ne_nil_of_at? hvacant'), hat]
    by_cases hk : k = d ++ ["cluster.json"] <;> simp [hk]

/-- A lock whose file is there is let go of. -/
theorem run_release_of_find {content : Content}
    (hm : m.find p = .ok (l, .file id content modified)) :
    m.run (StoreLock.release ⟨p⟩) = (some (.ok ()), m.remove l) := by
  rw [StoreLock.release, run_bind (run_pathExists _), hm]
  simp only [Except.isOk, Except.toBool, if_true]
  rw [run_bind (run_ask _), Machine.respond, Machine.removeFile, hm]
  rfl

/-- With its directory there, the document is kept, the former one becomes the backup, and nothing
else has changed. -/
theorem run_commit_of_opens (hrun : m.run s.ensureDirectory = (some (.ok ()), m₁))
    (h : m₁.Opens s.directory d) (hm₁ : m₁.Sound) (hname : c.name = s.name)
    (hdocument : m₁.files.at? (d ++ ["cluster.json"]) ≠ some .directory)
    (hbackup : m₁.files.at? (d ++ ["cluster.json.backup"]) ≠ some .directory)
    (hlock : m₁.files.at? (d ++ ["lock.json"]) = none) :
    ∃ m' id modified, m.run (s.commit c) = (some (.ok ()), m') ∧ m'.Sound ∧
      m'.workingDirectory = m₁.workingDirectory ∧ ∀ k, m'.files.at? k =
        if k = d ++ ["cluster.json"] then some (.file id (.text c.pretty) modified)
        else if k = d ++ ["cluster.json.backup"] then
          (m₁.files.at? (d ++ ["cluster.json"])).or (m₁.files.at? k)
        else m₁.files.at? k := by
  have hlock' : m₁.files.at? (d ++ ["lock.json"]) ≠ some .directory :=
    ne_directory_of_none hlock
  have hput := hm₁.at?_put (Machine.ne_nil_of_at? hlock')
    (LockInfo.codec.pretty ⟨s.holder, m₁.today⟩)
  -- The lock is there while the document and the backup change places.
  obtain ⟨m₂, id, modified, hkeep, hm₂, h₂, hcwd, hat⟩ := run_keep (c := c)
    (hm₁.opens_put h hlock' (LockInfo.codec.pretty ⟨s.holder, m₁.today⟩))
    (hm₁.put h.directory isFileName_lock hlock' _) (by rw [hput]; simpa using hdocument)
    (by rw [hput]; simpa using hbackup)
  simp only [hput] at hat
  have hlocked : m₂.files.at? (d ++ ["lock.json"]) =
      some (.file m₁.nextId (.text (LockInfo.codec.pretty ⟨s.holder, m₁.today⟩)) m₁.today) := by
    rw [hat]
    simp
  have hfind : m₂.find s.lockPath = .ok (d ++ ["lock.json"], _) :=
    (h₂.find_child isFileName_lock).trans (by rw [hlocked])
  refine ⟨m₂.remove (d ++ ["lock.json"]), id, modified, ?_, hm₂.remove hlocked, hcwd, fun k => ?_⟩
  · rw [commit_eq hname, run_whileLocked hrun h hlock hkeep]
    exact run_release_of_find hfind
  · rw [Machine.at?_remove hlocked, hat]
    by_cases hk : k = d ++ ["lock.json"]
    · subst hk
      simp [hlock]
    · simp [hk]

/-- A document of another cluster is turned away at once. -/
theorem run_commit_of_ne (hname : c.name ≠ s.name) :
    m.run (s.commit c) = (some (.error (.nameMismatch s.name c.name)), m) := by
  rw [commit, if_pos hname]
  rfl

/-! ## Looking at what is there -/

/-- What reading a document comes to, by what is there. -/
def documentAt (s : FileStore) : Option FileNode → Except StoreError Cluster
  | none => .error (.notFound s.name)
  | some .directory => .error (.files .isADirectory)
  | some (.file _ (.bytes _) _) => .error (.files .notText)
  | some (.file _ (.text text) _) =>
    match Cluster.parse text with
    | .error e => .error (.malformed e)
    | .ok c =>
      match c.checkVersion with
      | .error e => .error (.unusable e)
      | .ok () => .ok c

theorem documentAt_pretty (s : FileStore) (c : Cluster) (id : FileId) (modified : Moment) :
    s.documentAt (some (.file id (.text c.pretty) modified)) =
      match c.checkVersion with
      | .error e => .error (.unusable e)
      | .ok () => .ok c := by
  simp only [documentAt, c.parse_pretty]

theorem run_readDocument_of_error {e : FileFault} (hm : m.find p = .error e) :
    m.run (s.readDocument p) = (some (s.documentAt none), m) := by
  rw [readDocument, run_bind (run_pathExists _), hm]
  rfl

theorem run_readDocument_of_ok {n : FileNode} (hm : m.find p = .ok (l, n)) :
    m.run (s.readDocument p) = (some (s.documentAt (some n)), m) := by
  rw [readDocument, run_bind (run_pathExists _), hm]
  simp only [Except.isOk, Except.toBool, if_true]
  rw [run_bind (run_ask _), Machine.respond, Machine.readText, hm]
  obtain ⟨id, text | bytes, modified⟩ | _ := n
  · simp only [documentAt, Bind.bind, Except.bind, pure, Except.pure]
    cases Cluster.parse text with
    | error e => rfl
    | ok c =>
      simp only
      cases c.checkVersion <;> rfl
  · rfl
  · rfl

/-- What is under a name in a directory is read. -/
theorem run_readDocument_of_opens {f : String} (h : m.Opens p d) (hf : IsFileName f) :
    m.run (s.readDocument (p.child f)) = (some (s.documentAt (m.files.at? (d ++ [f]))), m) := by
  have hfind := h.find_child hf
  cases hn : m.files.at? (d ++ [f]) <;> rw [hn] at hfind
  · exact run_readDocument_of_error hfind
  · exact run_readDocument_of_ok hfind

/-- A document is read from the file that holds it. -/
theorem run_readDocument (hm : m.find p = .ok (l, .file id (.text text) modified))
    (hc : Cluster.parse text = .ok c) :
    m.run (s.readDocument p) =
      (some (match c.checkVersion with
        | .error e => .error (.unusable e)
        | .ok () => .ok c), m) := by
  rw [run_readDocument_of_ok hm]
  simp only [documentAt, hc]

theorem run_readDocument_of_missing (hm : m.find p = .error .notFound) :
    m.run (s.readDocument p) = (some (.error (.notFound s.name)), m) :=
  run_readDocument_of_error hm

/-! ## Listing -/

/-- Whether a file is at a location. -/
def isFileAt (t : FileTree) (l : Location) : Bool := (t.at? l).any (!·.isDirectory)

theorem run_leadsToFile (h : m.Enters p l) (hm : m.Sound) {name : String}
    (hname : IsFileName name) :
    m.run (FileDialogue.leadsToFile ((p.child name).child "cluster.json")) =
      (some (isFileAt m.files (l ++ [name] ++ ["cluster.json"])), m) := by
  rw [FileDialogue.leadsToFile, run_bind (run_ask _), Machine.respond, isFileAt]
  by_cases hn : m.files.at? (l ++ [name]) = some .directory
  · have hopens : m.Opens (p.child name) (l ++ [name]) :=
      Machine.Enters.opens ⟨h.resolve_child hname, hn⟩
    rw [hopens.find_child isFileName_document]
    cases m.files.at? (l ++ [name] ++ ["cluster.json"]) with
    | none => rfl
    | some n => cases n <;> rfl
  · -- No path leads on from what is not a directory, and nothing is below it.
    have hempty := p.isEmpty_child name
    obtain ⟨e, he⟩ : ∃ e, m.files.step (l ++ [name]) "cluster.json" = .error e := by
      rw [FileTree.step]
      split
      · exact ⟨_, rfl⟩
      · exact ⟨_, rfl⟩
      · next hd => exact absurd hd hn
    rw [Machine.find, Machine.resolve_child hempty isFileName_document, h.resolve_child hname,
      hm.wellFormed.at?_child hn]
    simp only [Except.bind, he]
    rfl

theorem run_filterM {f : String → FileDialogue Bool} {g : String → Bool} (names : List String)
    (h : ∀ name ∈ names, m.run (f name) = (some (g name), m)) :
    m.run (names.filterM f) = (some (names.filter g), m) := by
  have haux (acc : List String) :
      m.run (names.filterAuxM f acc) = (some ((names.filter g).reverse ++ acc), m) := by
    induction names generalizing acc with
    | nil => rfl
    | cons name names ih =>
      obtain ⟨hname, hnames⟩ := List.forall_mem_cons.1 h
      rw [List.filterAuxM, run_bind hname, ih hnames, List.filter_cons]
      cases g name <;> simp
  rw [List.filterM, run_bind (haux [])]
  simp only [List.append_nil, List.reverse_reverse]
  rfl

/-- The names of the directories in a directory that have documents, in order. -/
def listed (t : FileTree) (l : Location) : List String :=
  ((t.names l).filter fun name => isFileAt t (l ++ [name] ++ ["cluster.json"])).mergeSort
    fun a b => a ≤ b

theorem mem_listed {t : FileTree} (ht : t.WellFormed) {name : String} :
    name ∈ listed t l ↔ isFileAt t (l ++ [name] ++ ["cluster.json"]) = true := by
  rw [listed, List.mem_mergeSort, List.mem_filter, and_iff_right_iff_imp]
  intro hfile
  obtain ⟨n, hn⟩ := Option.isSome_iff_exists.1 (Option.isSome_of_any hfile)
  have hdirectory := ht.at?_of_child hn
  rw [FileTree.at?_of_ne_nil (by simp)] at hdirectory
  exact FileTree.mem_names.2 ⟨_, hdirectory⟩

theorem pairwise_listed (t : FileTree) (l : Location) : (listed t l).Pairwise (· ≤ ·) := by
  have hsorted (names : List String) : (names.mergeSort fun a b => decide (a ≤ b)).Pairwise
      fun a b => decide (a ≤ b) = true :=
    List.pairwise_mergeSort (fun _ _ _ => by simpa using String.le_trans)
      (fun a b => by simpa using String.le_total a b) names
  rw [listed]
  simpa only [decide_eq_true_eq] using hsorted _

theorem nodup_listed (t : FileTree) (l : Location) : (listed t l).Nodup :=
  (List.mergeSort_perm _ _).nodup_iff.2 ((FileTree.nodup_names t l).filter _)

/-- Names in order are those that are listed if they are the same. -/
theorem listed_eq {t : FileTree} {names : List String} (hsorted : names.Pairwise (· ≤ ·))
    (hnodup : names.Nodup) (h : ∀ name, name ∈ listed t l ↔ name ∈ names) : listed t l = names :=
  List.Perm.eq_of_pairwise (fun _ _ _ _ => String.le_antisymm) (pairwise_listed t l) hsorted
    ((List.perm_ext_iff_of_nodup (nodup_listed t l) hnodup).2 h)

/-- The names of all directories with a document are listed. -/
theorem run_list_of_enters (h : m.Enters s.root l) (hm : m.Sound) :
    m.run s.list = (some (.ok (listed m.files l)), m) := by
  have hexists : m.run (FileDialogue.pathExists? s.root) = (some (.ok true), m) := by
    rw [FileDialogue.pathExists?, run_bind (run_ask _), Machine.respond, h.find]
    rfl
  have hnames : m.list s.root = .ok (m.files.names l) := by
    rw [Machine.list, h.find]
    rfl
  have hfilter := run_filterM (m.files.names l) fun name hname => by
    -- What stands in a directory has a name of one part, so that its path leads there.
    obtain ⟨n, hn⟩ := FileTree.mem_names.1 hname
    obtain ⟨d, part, heq, -, hpart⟩ := hm.wellFormed hn
    obtain ⟨rfl, rfl⟩ := List.append_inj' heq rfl |>.imp_right (List.cons.inj · |>.1)
    exact run_leadsToFile h hm hpart
  rw [list, run_bind hexists]
  simp only
  rw [run_bind (run_ask _), Machine.respond, hnames]
  simp only
  rw [run_bind hfilter]
  rfl

/-- Where there is no directory, nothing is listed. -/
theorem run_list_of_not_directory (h : ∀ k, m.find s.root ≠ .ok (k, .directory)) :
    (m.run s.list).1 = some (match m.find s.root with
      | .ok _ => .error (.files .notADirectory)
      | .error .notFound => .ok []
      | .error e => .error (.files e)) := by
  have hexists : m.run (FileDialogue.pathExists? s.root) = (some (match m.find s.root with
      | .ok _ => .ok true
      | .error .notFound => .ok false
      | .error e => .error e), m) := by
    rw [FileDialogue.pathExists?, run_bind (run_ask _), Machine.respond]
    cases m.find s.root with
    | ok n => rfl
    | error e => cases e <;> rfl
  rw [list, run_bind hexists]
  cases hroot : m.find s.root with
  | error e => cases e <;> rfl
  | ok n =>
    obtain ⟨k, _ | _⟩ := n
    · have hlist : m.list s.root = .error .notADirectory := by
        rw [Machine.list, hroot]
        rfl
      simp only
      rw [run_bind (run_ask _), Machine.respond, hlist]
      rfl
    · exact absurd hroot (h k)

theorem run_list_of_missing (hm : m.find s.root = .error .notFound) :
    m.run s.list = (some (.ok []), m) := by
  have hexists : m.run (FileDialogue.pathExists? s.root) = (some (.ok false), m) := by
    rw [FileDialogue.pathExists?, run_bind (run_ask _), Machine.respond, hm]
    rfl
  rw [list, run_bind hexists]
  rfl

/-! ## Removing everything -/

/-- A lock that is not there any more is let go of. -/
theorem run_release_of_error {e : FileFault} (hm : m.find p = .error e) :
    m.run (StoreLock.release ⟨p⟩) = (some (.ok ()), m) := by
  rw [StoreLock.release, run_bind (run_pathExists _), hm]
  rfl

theorem run_destroy_of_missing (hm : m.find s.directory = .error .notFound) :
    m.run s.destroy = (some (.ok ()), m) := by
  have hexists : m.run (FileDialogue.pathExists? s.directory) = (some (.ok false), m) := by
    rw [FileDialogue.pathExists?, run_bind (run_ask _), Machine.respond, hm]
    rfl
  rw [destroy, run_bind hexists]
  rfl

theorem run_destroy_of_enters (h : m.Enters s.directory d) :
    m.run s.destroy = m.run (s.whileLocked (ask (.removeDirectory s.directory))) := by
  have hexists : m.run (FileDialogue.pathExists? s.directory) = (some (.ok true), m) := by
    rw [FileDialogue.pathExists?, run_bind (run_ask _), Machine.respond, h.find]
    rfl
  rw [destroy, run_bind hexists]

/-- The directory is removed with all that is in it, and nothing else has changed. -/
theorem run_destroy_of_reaches (hroot : m.Reaches s.root l) (hm : m.Sound) (hs : IsFileName s.name)
    (hd : m.files.at? (l ++ [s.name]) = some .directory)
    (hlock : m.files.at? (l ++ [s.name] ++ ["lock.json"]) = none) :
    ∃ m', m.run s.destroy = (some (.ok ()), m') ∧ m'.Sound ∧
      m'.workingDirectory = m.workingDirectory ∧ ∀ k, m'.files.at? k =
        if l ++ [s.name] <+: k then none else m.files.at? k := by
  have hdirectory := directory_eq hs
  have hne : l ++ [s.name] ≠ [] := by simp
  have hlock' : m.files.at? (l ++ [s.name] ++ ["lock.json"]) ≠ some .directory :=
    ne_directory_of_none hlock
  have henters : m.Enters s.directory (l ++ [s.name]) :=
    hdirectory ▸ ⟨hroot.enters.resolve_child hs, hd⟩
  -- The lock is in the directory and goes with it.
  obtain ⟨m₁, hm₁⟩ : ∃ m₁, m₁ = m.put (l ++ [s.name] ++ ["lock.json"])
    (LockInfo.codec.pretty ⟨s.holder, m.today⟩) := ⟨_, rfl⟩
  have hput := hm.at?_put (l := l ++ [s.name] ++ ["lock.json"]) (by simp)
    (LockInfo.codec.pretty ⟨s.holder, m.today⟩)
  have hsound₁ := hm.put henters.directory isFileName_lock hlock'
    (LockInfo.codec.pretty ⟨s.holder, m.today⟩)
  have hroot₁ := hroot.put (l := l ++ [s.name] ++ ["lock.json"]) hm
    (FileTree.isBelow_iff.2 ⟨by simp [List.prefix_append], by simp⟩)
    (LockInfo.codec.pretty ⟨s.holder, m.today⟩)
  rw [← hm₁] at hput hsound₁ hroot₁
  have hremove := hroot₁.respond_removeDirectory hs (by rw [hput]; simpa using hd)
  have hcut := Machine.at?_cut (m := m₁) hne
  have hsound₂ := hsound₁.cut hne
  have hroot₂ := hroot₁.cut (l := l ++ [s.name])
    (FileTree.isBelow_iff.2 ⟨List.prefix_append _ _, by simp⟩)
  -- Nothing is left of the directory, so that the path of the lock leads nowhere.
  have hgone (tail : List String) : (m₁.cut (l ++ [s.name])).files.at? (l ++ [s.name] ++ tail) =
      none := by
    rw [hcut, if_pos (List.prefix_append _ _)]
  have hself := hgone []
  rw [List.append_nil] at hself
  have hplaced := directory_eq hs ▸ (hroot₂.placedAt hsound₂).child hsound₂ hs
    fun _ _ _ => Option.eq_none_iff_forall_ne_some.1 hself _
  have hreleased := hplaced.find_child hsound₂ isFileName_lock
  rw [hgone] at hreleased
  refine ⟨m₁.cut (l ++ [s.name]), ?_, hsound₂, by rw [hm₁]; rfl, fun k => ?_⟩
  · rw [run_destroy_of_enters henters,
      run_whileLocked (run_ensureDirectory_of_enters henters) henters.opens hlock
        (by rw [← hm₁, run_ask, hdirectory, hremove])]
    exact run_release_of_error hreleased
  · rw [hcut, hput]
    split
    · rfl
    · next hk =>
      rw [if_neg]
      rintro rfl
      exact hk (List.prefix_append _ _)

end FileStore

end ClusterKeeper
