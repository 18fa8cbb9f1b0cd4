/-
# Commits that fail

Every step of a commit may fail. As long as the former document has not been moved and the new one
not been opened, a commit that fails leaves nothing behind that can be told from what was there
before; from then on the former document is whole under the path of the backup.
-/

import ClusterKeeper.Proofs.Files.Faults
import ClusterKeeper.Proofs.Store.Calls

namespace ClusterKeeper

open FileTree (IsFileName ne_directory_of_none)
open FileDialogue

variable {m m' m₁ m₂ : Machine} {d k l : Location} {p : Path} {s : FileStore} {c : Cluster}
variable {log : List FileExchange} {S : Location → Prop}

theorem isBelow_child (d : Location) (f : String) (k : Location) (hk : k = d ++ [f]) :
    FileTree.isBelow k d = true := by
  rw [FileTree.isBelow_iff, hk]
  simp

/-- What is there once in a list is there in one way. -/
theorem eq_of_append_cons_eq {α : Type} {P : α → Prop} {a a' b b' : List α}
    {x x' : α} (h : a ++ x :: b = a' ++ x' :: b') (hx : P x)
    (ha : ∀ y ∈ a', ¬ P y) (hb : ∀ y ∈ b', ¬ P y) :
    x = x' ∧ b = b' := by
  rcases List.append_eq_append_iff.1 h with ⟨mid, rfl, hmid⟩ | ⟨mid, rfl, hmid⟩
  · cases mid with
    | nil => simpa using hmid
    | cons y mid =>
      obtain ⟨rfl, -⟩ := List.cons.inj hmid
      exact absurd hx (ha x (by simp))
  · cases mid with
    | nil => simpa [eq_comm] using hmid
    | cons y mid =>
      obtain ⟨-, rfl⟩ := List.cons.inj hmid
      exact absurd hx (hb x (by simp))

/-- What is got by trying several times is got by one of the tries. -/
theorem Retrier.yields_run {ε α : Type} (r : Retrier) {wait : Duration → FileDialogue Unit}
    {operation : String} {action : FileDialogue (Except ε α)} {P : α → Prop}
    (haction : action.Yields fun o => ∀ x, o = .ok x → P x) :
    (r.run wait operation action).Yields fun o => ∀ x, o = .ok x → P x := by
  have hattempt (made left : Nat) : (attempt (wait r.interval) operation action made left).Yields
      fun o => ∀ x, o = .ok x → P x := by
    induction left generalizing made with
    | zero =>
      refine haction.bind fun x hx => ?_
      cases x with
      | ok x => exact Dialogue.yields_pure fun y hy => hx y (by cases hy; rfl)
      | error e => exact Dialogue.yields_pure nofun
    | succ left ih =>
      refine haction.bind fun x hx => ?_
      cases x with
      | ok x => exact Dialogue.yields_pure fun y hy => hx y (by cases hy; rfl)
      | error e => exact Dialogue.yields_bind fun _ => ih _
  exact hattempt _ _

namespace FileStore

/-- A dialogue that touches no more than the lock. -/
abbrev OnlyLocks (s : FileStore) (d : Location) {α : Type} (c : FileDialogue α) : Prop :=
  Spares s.directory d (· = d ++ ["lock.json"]) c

theorem onlyLocks_createLock (text : String) : s.OnlyLocks d (s.createLock text) := by
  intro m log o m' hm hp hends hunder
  rw [createLock] at hends
  obtain ⟨a, rest, rfl, hrest⟩ := Dialogue.ends_question_bind_iff.1 hends
  obtain ⟨m₁, hanswer, hunder'⟩ := Machine.undergoes_cons_iff.1 hunder
  have hcreate : s.OnlyLocks d (ask (.createNew s.lockPath)) :=
    spares_ask rfl fun _ hm hp => Machine.sameApart_createNew hm hp isFileName_lock
  obtain ⟨hsame, hlog⟩ := hcreate hm hp (.ask (.done a)) (.cons hanswer (.nil m₁))
  cases a with
  | error e =>
    obtain ⟨rfl, -⟩ := Dialogue.ends_done_iff.1 hrest
    obtain rfl := Machine.undergoes_nil_iff.1 hunder'
    exact ⟨hsame, hlog⟩
  | ok id =>
    obtain ⟨b, rest, rfl, hend⟩ := Dialogue.ends_ask_iff.1 hrest
    obtain ⟨rfl, -⟩ := Dialogue.ends_done_iff.1 hend
    obtain ⟨m₂, hwrite, hunder'⟩ := Machine.undergoes_cons_iff.1 hunder'
    obtain rfl := Machine.undergoes_nil_iff.1 hunder'
    -- What is written is in the file that has just been made, and in no other.
    refine ⟨hsame.trans (hwrite.sameApart_of_write hsame.sound fun k content modified hk => ?_), ?_⟩
    · exact hanswer.only_of_createNew hm hp isFileName_lock hk
    · exact List.forall_mem_cons.2 ⟨hlog _ List.mem_cons_self, List.forall_mem_singleton.2 rfl⟩

theorem lockSteps_onlyLocks : s.LockSteps (s.OnlyLocks d) where
  pure := spares_pure
  brokenOff {_} := spares_brokenOff
  bind hc hg := hc.bind (isBelow_child d "lock.json") hg
  look r hr := spares_ask (by cases r <;> first | rfl | cases hr) fun m hm _ => by
    rw [Machine.respond_of_isLook hr]
    exact .refl hm
  wait t := spares_ask rfl fun _ hm _ => Machine.sameApart_wait hm t
  make hq := spares_ask rfl fun _ hm hp => Machine.sameApart_makeDirectory hm hp hq
  create := onlyLocks_createLock
  remove := spares_ask rfl fun _ hm hp => Machine.sameApart_removeFile hm hp isFileName_lock

theorem onlyLocks_lock : s.OnlyLocks d s.lock := lockSteps_onlyLocks.lock

theorem yields_takeOver (text : String) :
    (s.takeOver text).Yields fun o => ∀ h, o = .ok h → h = ⟨s.lockPath⟩ := by
  refine Dialogue.yields_bind fun answer => ?_
  split
  · refine Dialogue.yields_bind fun answer => ?_
    split <;> refine Dialogue.yields_pure fun h hh => ?_ <;> cases hh
    rfl
  · refine Dialogue.yields_bind fun answer => ?_
    split <;> refine Dialogue.yields_pure fun h hh => ?_ <;> cases hh
    rfl
  · exact Dialogue.yields_pure nofun

/-- The lock that is taken is that of the store. -/
theorem yields_acquire : s.acquire.Yields fun o => ∀ h, o = .ok h → h = ⟨s.lockPath⟩ := by
  refine Dialogue.yields_bind fun answer => ?_
  split
  · exact Dialogue.yields_pure nofun
  refine Dialogue.yields_bind fun now => Dialogue.yields_bind fun answer => ?_
  split
  · exact Dialogue.yields_pure fun h hh => by cases hh; rfl
  · refine Dialogue.yields_bind fun answer => ?_
    split
    · exact Dialogue.yields_pure nofun
    · refine Dialogue.yields_bind fun later => ?_
      split
      · exact Dialogue.yields_pure nofun
      · exact yields_takeOver _
  · exact Dialogue.yields_pure nofun

theorem yields_lock : s.lock.Yields fun o => ∀ h, o = .ok h → h = ⟨s.lockPath⟩ := by
  refine (s.lockRetry.yields_run yields_acquire).bind fun x hx =>
    Dialogue.yields_pure fun h hh => ?_
  cases x with
  | ok x => exact hx h (by cases hh; rfl)
  | error e => cases hh

theorem onlyLocks_drop : s.OnlyLocks d (StoreLock.drop ⟨s.lockPath⟩) := lockSteps_onlyLocks.drop

theorem onlyLocks_release : s.OnlyLocks d (StoreLock.release ⟨s.lockPath⟩) :=
  lockSteps_onlyLocks.release

/-! ## What a commit replaces -/

/-- The document was moved to the place of the backup. -/
def Moved (s : FileStore) (log : List FileExchange) : Prop :=
  ⟨.rename s.documentPath s.backupPath, .ok ()⟩ ∈ log

/-- The document was opened to be written anew. -/
def Opened (s : FileStore) (log : List FileExchange) : Prop :=
  ∃ id, ⟨.createEmpty s.documentPath, .ok id⟩ ∈ log

/-- The document was opened and then written in full. -/
def Written (s : FileStore) (c : Cluster) (log : List FileExchange) : Prop :=
  ∃ id front back, log = front ++
    ⟨.createEmpty s.documentPath, .ok id⟩ :: ⟨.write id c.pretty, .ok ()⟩ :: back

/-- A location of the document or the backup, or of something in them. -/
def InDocuments (d k : Location) : Prop :=
  d ++ ["cluster.json"] <+: k ∨ d ++ ["cluster.json.backup"] <+: k

theorem isBelow_mono (h : l <+: d) (hk : FileTree.isBelow k d = true) :
    FileTree.isBelow k l = true := by
  rw [FileTree.isBelow_iff] at hk ⊢
  exact ⟨h.trans hk.1, Nat.lt_of_le_of_lt h.length_le hk.2⟩

theorem opened_append {log log' : List FileExchange} :
    s.Opened (log ++ log') ↔ s.Opened log ∨ s.Opened log' := by
  simp only [Opened, List.mem_append, exists_or]

theorem isBelow_of_inDocuments (h : InDocuments d k) : FileTree.isBelow k d = true := by
  rw [FileTree.isBelow_iff]
  rcases h with ⟨rest, rfl⟩ | ⟨rest, rfl⟩ <;> simp [List.append_assoc, List.prefix_append]

theorem not_moved_of_untouched (h : Untouched log) : ¬ s.Moved log := fun hmoved =>
  nomatch h _ hmoved

theorem not_opened_of_untouched (h : Untouched log) : ¬ s.Opened log := fun ⟨_, hopened⟩ =>
  nomatch h _ hopened

theorem not_opened_nil : ¬ s.Opened [] := not_opened_of_untouched (List.forall_mem_nil _)

/-- The document has become the backup. -/
structure SetAside (s : FileStore) (d : Location) (m : Machine) (log : List FileExchange)
    (m' : Machine) : Prop where
  moved : s.Moved log
  notOpened : ¬ s.Opened log
  same : m.SameApart d (InDocuments d) m'
  isSome : (m.files.at? (d ++ ["cluster.json"])).isSome
  backup : m'.files.at? (d ++ ["cluster.json.backup"]) = m.files.at? (d ++ ["cluster.json"])
  document : m'.files.at? (d ++ ["cluster.json"]) = none

theorem SetAside.before {front back : List FileExchange} (h : s.SetAside d m front m₁)
    (hsame : m₁.SameApart d (fun _ => False) m') (hback : Untouched back) :
    s.SetAside d m (front ++ back) m' := by
  refine ⟨List.mem_append_left _ h.moved, ?_, h.same.trans (hsame.mono fun _ => False.elim),
    h.isSome, (hsame.at?_child_eq id).trans h.backup, (hsame.at?_child_eq id).trans h.document⟩
  exact fun hopened => (opened_append.1 hopened).elim h.notOpened (not_opened_of_untouched hback)

/-- The document is where it was, or it has become the backup. -/
def Rotated (s : FileStore) (d : Location) (m : Machine) (log : List FileExchange)
    (m' : Machine) : Prop :=
  m.SameApart d (· = d ++ ["cluster.json.backup"]) m' ∧ Untouched log ∨ s.SetAside d m log m'

theorem Rotated.after {front back : List FileExchange} (h : s.Rotated d m₁ back m')
    (hsame : m.SameApart d (· = d ++ ["cluster.json.backup"]) m₁) (hfront : Untouched front) :
    s.Rotated d m (front ++ back) m' := by
  rcases h with ⟨hback, hlog⟩ | h
  · exact .inl ⟨hsame.trans hback, untouched_append.2 ⟨hfront, hlog⟩⟩
  have hdocument : m₁.files.at? (d ++ ["cluster.json"]) = m.files.at? (d ++ ["cluster.json"]) :=
    hsame.at?_child_eq (by simp)
  refine .inr ⟨List.mem_append_right _ h.moved, ?_, ?_, hdocument ▸ h.isSome,
    h.backup.trans hdocument, h.document⟩
  · exact fun hopened => (opened_append.1 hopened).elim (not_opened_of_untouched hfront) h.notOpened
  · exact (hsame.mono fun k hk => .inr (hk ▸ List.prefix_refl _)).trans h.same

theorem rotated_of_rename {o : Option (Except FileFault Unit)} (hm : m.Sound)
    (hp : m.Aims s.directory d)
    (hends : (ask (.rename s.documentPath s.backupPath)).Ends log o) (hunder : m.Undergoes log m') :
    s.Rotated d m log m' := by
  obtain ⟨a, rest, rfl, hrest⟩ := Dialogue.ends_ask_iff.1 hends
  obtain ⟨rfl, -⟩ := Dialogue.ends_done_iff.1 hrest
  obtain ⟨m₁, hanswer, hunder⟩ := Machine.undergoes_cons_iff.1 hunder
  obtain rfl := Machine.undergoes_nil_iff.1 hunder
  rcases hanswer.of_rename hm hp isFileName_document isFileName_backup (by simp) with
    ⟨⟨e, rfl⟩, hsame⟩ | ⟨rfl, hsame, hsome, hbackup, hdocument⟩
  · exact .inl ⟨hsame, List.forall_mem_singleton.2 rfl⟩
  · refine .inr ⟨List.mem_cons_self, ?_, hsame, hsome, hbackup, hdocument⟩
    rintro ⟨id, hid⟩
    cases List.mem_singleton.1 hid

/-- Whatever fails, the document is nowhere else than in its place or in that of the backup. -/
theorem rotated_of_ends {o : Option (Except FileFault Unit)} (hm : m.Sound)
    (hp : m.Aims s.directory d) (hends : s.rotate.Ends log o) (hunder : m.Undergoes log m') :
    s.Rotated d m log m' := by
  have hS := isBelow_child d "cluster.json.backup"
  -- Each step may be refused, and then it was the last one. Until the document is moved, nothing
  -- but the backup is touched.
  rw [rotate] at hends
  rcases (spares_pathExists hS s.documentPath).cases_bind hS hm hp hends hunder with
    ⟨hsame, hlog, -⟩ | ⟨found, front, back, m₁, rfl, hsame, hfront, hp₁, -, hback, hunder⟩
  · exact .inl ⟨hsame, hlog⟩
  refine Rotated.after ?_ hsame hfront
  have hm₁ := hsame.sound
  cases found with
  | false => exact .inl (spares_pure _ hm₁ hp₁ hback hunder)
  | true =>
    rcases (spares_pathExists hS s.backupPath).cases_bind hS hm₁ hp₁ hback hunder with
      ⟨hsame, hlog, -⟩ | ⟨found, front, back, m₂, rfl, hsame, hfront, hp₂, -, hback, hunder⟩
    · exact .inl ⟨hsame, hlog⟩
    refine Rotated.after ?_ hsame hfront
    have hm₂ := hsame.sound
    cases found with
    | false => exact rotated_of_rename hm₂ hp₂ hback hunder
    | true =>
      have hremove : Spares s.directory d (· = d ++ ["cluster.json.backup"])
          (ask (.removeFile s.backupPath)) := spares_ask rfl fun _ hm hp =>
        Machine.sameApart_removeFile hm hp isFileName_backup
      rcases hremove.cases_bind hS hm₂ hp₂ hback hunder with
        ⟨hsame, hlog, -⟩ | ⟨answer, front, back, m₃, rfl, hsame, hfront, hp₃, -, hback, hunder⟩
      · exact .inl ⟨hsame, hlog⟩
      refine Rotated.after ?_ hsame hfront
      cases answer with
      | error e => exact .inl (spares_pure _ hsame.sound hp₃ hback hunder)
      | ok => exact rotated_of_rename hsame.sound hp₃ hback hunder

/-! ## Writing the document -/

theorem isFileAt_fill (t : FileTree) (id : FileId) (content : Content) (now : Moment)
    (k : Location) : isFileAt (t.fill id content now) k = isFileAt t k := by
  rw [isFileAt, isFileAt, FileTree.at?_fill]
  rcases t.at? k with _ | (_ | _)
  · rfl
  · simp only [Option.map_some, Option.any_some]
    split <;> rfl
  · rfl

theorem isFileAt_eq_of_sameApart (h : m.SameApart d S m') (hk : ¬ S k) :
    isFileAt m'.files k = isFileAt m.files k := by
  rcases h.at?_eq k hk with heq | ⟨hnone, hd, -⟩
  · rw [isFileAt, isFileAt, heq]
  · rw [isFileAt, isFileAt, hnone, hd]
    rfl

/-- A write changes what is in files, whether it succeeds or not, and nothing else. -/
theorem shape_of_write {id : FileId} {text : String} {a : Except FileFault Unit} (hm : m.Sound)
    (h : m.MayAnswer (.write id text) a m') :
    m'.Sound ∧ m'.workingDirectory = m.workingDirectory ∧
      (∀ k, m.files.at? k = some .directory → m'.files.at? k = some .directory) ∧
      ∀ k, isFileAt m'.files k = isFileAt m.files k := by
  rcases h.of_write with rfl | ⟨t, content, modified, rfl⟩
  · exact ⟨hm, rfl, fun k hk => hk, fun k => rfl⟩
  · refine ⟨hm.fill t id content modified, rfl, fun k hk => ?_, fun k => isFileAt_fill _ _ _ _ _⟩
    rw [FileTree.at?_fill, hk]
    rfl

/-- The document was opened to be written. No other file comes or goes, and what is in other files
changes only if they are the same as the former document. -/
structure Rewritten (s : FileStore) (d : Location) (text : String) (m : Machine)
    (log : List FileExchange) (m' : Machine) : Prop where
  exchanges : ∃ id a, log = [⟨.createEmpty s.documentPath, .ok id⟩, ⟨.write id text, a⟩] ∧
    (a = .ok () → ∃ modified,
      m'.files.at? (d ++ ["cluster.json"]) = some (.file id (.text text) modified))
  sound : m'.Sound
  workingDirectory : m'.workingDirectory = m.workingDirectory
  directory : ∀ k, m.files.at? k = some .directory → m'.files.at? k = some .directory
  isFileAt_eq : ∀ k, k ≠ d ++ ["cluster.json"] → isFileAt m'.files k = isFileAt m.files k
  same : m.files.at? (d ++ ["cluster.json"]) = none →
    m.SameApart d (· = d ++ ["cluster.json"]) m'

theorem rewritten_of_ends {text : String} {o : Option (Except FileFault Unit)} (hm : m.Sound)
    (hp : m.Aims s.directory d) (hends : (writeFile s.documentPath text).Ends log o)
    (hunder : m.Undergoes log m') :
    m.SameApart d (fun _ => False) m' ∧ Untouched log ∨ s.Rewritten d text m log m' := by
  rw [writeFile] at hends
  obtain ⟨a, rest, rfl, hrest⟩ := Dialogue.ends_question_bind_iff.1 hends
  obtain ⟨m₁, hcreate, hafter⟩ := Machine.undergoes_cons_iff.1 hunder
  rcases hcreate.of_createEmpty hm hp isFileName_document with
    ⟨⟨e, rfl⟩, hsame⟩ | ⟨id, t, rfl, hm₁, hcwd, hfiles, hne, hfresh⟩
  · obtain ⟨rfl, -⟩ := Dialogue.ends_done_iff.1 hrest
    obtain rfl := Machine.undergoes_nil_iff.1 hafter
    exact .inl ⟨hsame, List.forall_mem_singleton.2 rfl⟩
  obtain ⟨b, rest, rfl, hend⟩ := Dialogue.ends_ask_iff.1 hrest
  obtain ⟨rfl, -⟩ := Dialogue.ends_done_iff.1 hend
  obtain ⟨m₂, hwrite, hend⟩ := Machine.undergoes_cons_iff.1 hafter
  obtain rfl := Machine.undergoes_nil_iff.1 hend
  have hat (k : Location) : m₁.files.at? k =
      if k = d ++ ["cluster.json"] then some (.file id (.text "") t) else m.files.at? k := by
    rw [hfiles, FileTree.at?_insert (by simp)]
  have hkeep (k : Location) (hk : m.files.at? k = some .directory) :
      m₁.files.at? k = some .directory := by
    rw [hat, if_neg, hk]
    rintro rfl
    exact hne hk
  have hfile (k : Location) (hk : k ≠ d ++ ["cluster.json"]) :
      isFileAt m₁.files k = isFileAt m.files k := by
    rw [isFileAt, isFileAt, hat, if_neg hk]
  have hwritten : b = .ok () → ∃ modified,
      m'.files.at? (d ++ ["cluster.json"]) = some (.file id (.text text) modified) := by
    rintro rfl
    obtain ⟨t', rfl⟩ := hwrite.of_write_ok
    refine ⟨t', ?_⟩
    rw [FileTree.at?_fill, hat, if_pos rfl]
    simp
  have hsame (hnone : m.files.at? (d ++ ["cluster.json"]) = none) :
      m.SameApart d (· = d ++ ["cluster.json"]) m' := by
    have hfirst : m.SameApart d (· = d ++ ["cluster.json"]) m₁ :=
      .of_eq hm₁ hcwd fun k hk => (hat k).trans (if_neg hk)
    refine hfirst.trans (hwrite.sameApart_of_write hm₁ fun k content modified hk => ?_)
    -- The file that was made is new, so no other path leads to what is written.
    rw [hat] at hk
    split at hk
    · assumption
    · rw [hfresh hnone] at hk
      exact absurd (hm.fresh hk) (Nat.lt_irrefl _)
  obtain ⟨hm', hcwd', hkeep', hfile'⟩ := shape_of_write hm₁ hwrite
  exact .inr ⟨⟨id, b, rfl, hwritten⟩, hm', hcwd'.trans hcwd, fun k hk => hkeep' k (hkeep k hk),
    fun k hk => (hfile' k).trans (hfile k hk), hsame⟩

/-! ## Replacing the document -/

theorem Written.opened (h : s.Written c log) : s.Opened log := by
  obtain ⟨id, front, back, rfl⟩ := h
  exact ⟨id, List.mem_append_right _ List.mem_cons_self⟩

/-- The document was moved or opened. What is asked for before and after may be more than this, as
long as the document is not opened there. -/
structure Replaced (s : FileStore) (d : Location) (c : Cluster) (m : Machine)
    (log : List FileExchange) (m' : Machine) : Prop where
  replaced : s.Moved log ∨ s.Opened log
  sound : m'.Sound
  workingDirectory : m'.workingDirectory = m.workingDirectory
  directory : ∀ k, ¬ FileTree.isBelow k d → m.files.at? k = some .directory →
    m'.files.at? k = some .directory
  isFileAt_eq : ∀ k, ¬ InDocuments d k → k ≠ d ++ ["lock.json"] →
    isFileAt m'.files k = isFileAt m.files k
  backedUp : s.Moved log → (m.files.at? (d ++ ["cluster.json"])).isSome ∧
    m'.files.at? (d ++ ["cluster.json.backup"]) = m.files.at? (d ++ ["cluster.json"])
  written : ∀ ⦃before after⦄, ¬ s.Opened before → ¬ s.Opened after →
    s.Written c (before ++ log ++ after) → ∃ id modified,
      m'.files.at? (d ++ ["cluster.json"]) = some (.file id (.text c.pretty) modified)

theorem SetAside.replaced (h : s.SetAside d m log m') : s.Replaced d c m log m' where
  replaced := .inl h.moved
  sound := h.same.sound
  workingDirectory := h.same.workingDirectory
  directory k hk := h.same.at?_directory fun hk' => hk (isBelow_of_inDocuments hk')
  isFileAt_eq k hk _ := isFileAt_eq_of_sameApart h.same hk
  backedUp _ := ⟨h.isSome, h.backup⟩
  written before after hbefore hafter hwritten := by
    rcases opened_append.1 hwritten.opened with hopened | hopened
    · rcases opened_append.1 hopened with hopened | hopened
      · exact absurd hopened hbefore
      · exact absurd hopened h.notOpened
    · exact absurd hopened hafter

/-- Where the document is opened once, it is written in full only if the write behind that is
served. -/
theorem eq_ok_of_written {front before after : List FileExchange} {id : FileId} {text : String}
    {a : Except FileFault Unit} (hfront : ¬ s.Opened (before ++ front)) (hafter : ¬ s.Opened after)
    (h : s.Written c (before ++
      (front ++ [⟨.createEmpty s.documentPath, .ok id⟩, ⟨.write id text, a⟩]) ++ after)) :
    a = .ok () := by
  obtain ⟨id', before', after', heq⟩ := h
  rw [← List.append_assoc before, List.append_assoc _ _ after] at heq
  have hfirst (x : FileExchange) (hx : x ∈ before ++ front) :
      ¬ ∃ id, x = ⟨.createEmpty s.documentPath, .ok id⟩ := by
    rintro ⟨i, rfl⟩
    exact hfront ⟨i, hx⟩
  have hlast (x : FileExchange) (hx : x ∈ ⟨.write id text, a⟩ :: after) :
      ¬ ∃ id, x = ⟨.createEmpty s.documentPath, .ok id⟩ := by
    rintro ⟨i, rfl⟩
    rcases List.mem_cons.1 hx with hx | hx
    · cases hx
    · exact hafter ⟨i, hx⟩
  obtain ⟨hopen, hwrite⟩ := eq_of_append_cons_eq heq.symm ⟨id', rfl⟩ hfirst hlast
  cases hopen
  cases (List.cons.inj hwrite).1
  rfl

/-- Behind what left the document where it was or made it the backup, the new one is written. -/
theorem Rewritten.replaced {front back : List FileExchange} (hfront : s.Rotated d m front m₁)
    (h : s.Rewritten d c.pretty m₁ back m') : s.Replaced d c m (front ++ back) m' := by
  obtain ⟨id, a, rfl, hwritten⟩ := h.exchanges
  have hdocument {k : Location} (hk : ¬ InDocuments d k) : k ≠ d ++ ["cluster.json"] := by
    rintro rfl
    exact hk (.inl (List.prefix_refl _))
  have hnotOpened : ¬ s.Opened front := hfront.elim (fun h => not_opened_of_untouched h.2)
    (·.notOpened)
  have hsame : m.SameApart d (InDocuments d) m₁ :=
    hfront.elim (fun h => h.1.mono fun k hk => .inr (hk ▸ List.prefix_refl _)) (·.same)
  refine ⟨.inr ⟨id, by simp⟩, h.sound, h.workingDirectory.trans hsame.workingDirectory,
    fun k hk hd => h.directory k
      (hsame.at?_directory (fun hk' => hk (isBelow_of_inDocuments hk')) hd),
    fun k hk _ => (h.isFileAt_eq k (hdocument hk)).trans (isFileAt_eq_of_sameApart hsame hk),
    ?_, ?_⟩
  · -- If the document was moved, then before the new one was opened.
    intro hmoved
    rcases List.mem_append.1 hmoved with hmoved | hmoved
    · rcases hfront with ⟨-, hlog⟩ | hfront
      · exact absurd hmoved (not_moved_of_untouched hlog)
      · have hbackup := (h.same hfront.document).at?_child_eq (f := "cluster.json.backup") (by simp)
        exact ⟨hfront.isSome, hbackup.trans hfront.backup⟩
    · simp at hmoved
  · intro before after hbefore hafter hall
    have hfirst : ¬ s.Opened (before ++ front) := fun hopened =>
      (opened_append.1 hopened).elim hbefore hnotOpened
    exact ⟨id, hwritten (eq_ok_of_written hfirst hafter hall)⟩

/-- The former document gives way to the new one, or everything is where it was but for the
backup. -/
theorem replaced_of_ends {r : Except FileFault Unit} (hm : m.Sound) (hp : m.Aims s.directory d)
    (hends : (s.keep c).Ends log (some r))
    (hunder : m.Undergoes log m') :
    m.SameApart d (· = d ++ ["cluster.json.backup"]) m' ∧ Untouched log ∨
      s.Replaced d c m log m' := by
  rcases Dialogue.ends_bind_iff.1 hends with ⟨x, front, back, rfl, hfront, hback⟩ | ⟨-, hnone⟩
  · obtain ⟨m₁, hunder, hunder'⟩ := Machine.undergoes_append_iff.1 hunder
    have hrotated := rotated_of_ends hm hp hfront hunder
    cases x with
    | error e =>
      obtain ⟨rfl, -⟩ := Dialogue.ends_done_iff.1 hback
      obtain rfl := Machine.undergoes_nil_iff.1 hunder'
      rw [List.append_nil]
      exact hrotated.imp_right (·.replaced)
    | ok =>
      have hm₁ : m₁.Sound := hrotated.elim (·.1.sound) (·.same.sound)
      have hp₁ : m₁.Aims s.directory d := by
        rcases hrotated with ⟨hsame, -⟩ | haside
        · exact hsame.aims (isBelow_child d _) hp
        · exact haside.same.aims (fun k hk => isBelow_of_inDocuments hk) hp
      rcases rewritten_of_ends hm₁ hp₁ hback hunder' with ⟨hsame, hlog⟩ | hrewritten
      · -- The document was not opened: what counts is whether it was moved.
        rcases hrotated with ⟨hsame₁, hlog₁⟩ | haside
        · exact .inl ⟨hsame₁.trans (hsame.mono fun _ => False.elim),
            untouched_append.2 ⟨hlog₁, hlog⟩⟩
        · exact .inr (haside.before hsame hlog).replaced
      · exact .inr (hrewritten.replaced hrotated)
  · cases hnone

/-- The lock is taken before the document is replaced, and let go of behind it. -/
theorem Replaced.whileLocked {before during after : List FileExchange}
    (h : s.Replaced d c m₁ during m₂) (hbefore : m.SameApart d (· = d ++ ["lock.json"]) m₁)
    (hlog : Untouched before) (hafter : m₂.SameApart d (· = d ++ ["lock.json"]) m')
    (hlog' : Untouched after) : s.Replaced d c m (before ++ during ++ after) m' where
  replaced := h.replaced.imp (fun hmoved => List.mem_append_left _ (List.mem_append_right _ hmoved))
    fun hopened => opened_append.2 (.inl (opened_append.2 (.inr hopened)))
  sound := hafter.sound
  workingDirectory := hafter.workingDirectory.trans
    (h.workingDirectory.trans hbefore.workingDirectory)
  directory k hk hd := by
    have hlock : ¬ k = d ++ ["lock.json"] := fun hk' => hk (isBelow_child d _ k hk')
    exact hafter.at?_directory hlock (h.directory k hk (hbefore.at?_directory hlock hd))
  isFileAt_eq k hk hlock := (isFileAt_eq_of_sameApart hafter hlock).trans
    ((h.isFileAt_eq k hk hlock).trans (isFileAt_eq_of_sameApart hbefore hlock))
  backedUp hmoved := by
    have hmoved : s.Moved during := by
      rcases List.mem_append.1 hmoved with hmoved | hmoved
      · exact (List.mem_append.1 hmoved).resolve_left (not_moved_of_untouched hlog)
      · exact absurd hmoved (not_moved_of_untouched hlog')
    obtain ⟨hsome, hbackup⟩ := h.backedUp hmoved
    have hdocument := hbefore.at?_child_eq (f := "cluster.json") (by simp)
    have hbackup' := hafter.at?_child_eq (f := "cluster.json.backup") (by simp)
    exact ⟨hdocument ▸ hsome, hbackup'.trans (hbackup.trans hdocument)⟩
  written before' after' hbefore' hafter' hwritten := by
    rw [hafter.at?_child_eq (by simp)]
    have hfront : ¬ s.Opened (before' ++ before) := fun hopened =>
      (opened_append.1 hopened).elim hbefore' (not_opened_of_untouched hlog)
    have hback : ¬ s.Opened (after ++ after') := fun hopened =>
      (opened_append.1 hopened).elim (not_opened_of_untouched hlog') hafter'
    exact h.written hfront hback (by simpa only [List.append_assoc] using hwritten)

/-- What is done with the lock held is done between taking it and letting go of it, unless taking it
fails. -/
theorem cases_of_whileLocked {action : FileDialogue (Except FileFault Unit)} {e : StoreError}
    (hm : m.Sound) (hp : m.Aims s.directory d)
    (hends : (s.whileLocked action).Ends log (some (.error e))) (hunder : m.Undergoes log m') :
    m.SameApart d (· = d ++ ["lock.json"]) m' ∧ Untouched log ∨
      ∃ before during after m₁ m₂ r, log = before ++ during ++ after ∧
        m.SameApart d (· = d ++ ["lock.json"]) m₁ ∧ Untouched before ∧ m₁.Aims s.directory d ∧
        action.Ends during (some r) ∧ m₁.Undergoes during m₂ ∧
        (m₂.Sound → m₂.Aims s.directory d →
          m₂.SameApart d (· = d ++ ["lock.json"]) m' ∧ Untouched after) := by
  have hS := isBelow_child d "lock.json"
  rw [whileLocked] at hends
  rcases onlyLocks_lock.cases_bind hS hm hp hends hunder with ⟨-, -, hnone⟩ |
    ⟨x, before, rest, m₁, rfl, hsame, hbefore, hp₁, hlock, hrest, hunder₁⟩
  · cases hnone
  cases x with
  | error e' =>
    obtain ⟨hsame', hlog⟩ := spares_pure _ hsame.sound hp₁ hrest hunder₁
    exact .inl ⟨hsame.trans hsame', untouched_append.2 ⟨hbefore, hlog⟩⟩
  | ok h =>
    obtain rfl := yields_lock hlock h rfl
    rcases Dialogue.ends_bind_iff.1 hrest with ⟨r, during, after, rfl, hduring, hafter⟩ | ⟨-, hnone⟩
    · obtain ⟨m₂, hunder₂, hunder₃⟩ := Machine.undergoes_append_iff.1 hunder₁
      refine .inr ⟨before, during, after, m₁, m₂, r, (List.append_assoc _ _ _).symm, hsame, hbefore,
        hp₁, hduring, hunder₂, fun hm₂ hp₂ => ?_⟩
      -- Whatever came of the action, the lock is let go of behind it.
      cases r with
      | error e' =>
        exact (onlyLocks_drop.bind hS fun _ => spares_pure _) hm₂ hp₂ hafter hunder₃
      | ok => exact onlyLocks_release hm₂ hp₂ hafter hunder₃
    · cases hnone

/-- A commit that fails has replaced the document, or it has touched no more than the lock and the
backup. -/
theorem replaced_of_commit {e : StoreError} (hm : m.Sound) (hp : m.Aims s.directory d)
    (hends : (s.commit c).Ends log (some (.error e))) (hunder : m.Undergoes log m') :
    m.SameApart d (fun k => k = d ++ ["lock.json"] ∨ k = d ++ ["cluster.json.backup"]) m' ∧
      Untouched log ∨ s.Replaced d c m log m' := by
  rw [commit] at hends
  split at hends
  · obtain ⟨rfl, -⟩ := Dialogue.ends_done_iff.1 hends
    obtain rfl := Machine.undergoes_nil_iff.1 hunder
    exact .inl ⟨.refl hm, List.forall_mem_nil _⟩
  -- Without the lock nothing is touched; with it, letting go follows whatever was done.
  rcases cases_of_whileLocked hm hp hends hunder with ⟨hsame, hlog⟩ |
    ⟨before, during, after, m₁, m₂, r, rfl, hbefore, hlog, hp₁, hduring, hunder₁, hafter⟩
  · exact .inl ⟨hsame.mono fun _ => .inl, hlog⟩
  rcases replaced_of_ends hbefore.sound hp₁ hduring hunder₁ with ⟨hsame, hlog'⟩ | hreplaced
  · obtain ⟨hsame', hlog''⟩ := hafter hsame.sound (hsame.aims (isBelow_child d _) hp₁)
    exact .inl ⟨((hbefore.mono fun _ => .inl).trans (hsame.mono fun _ => .inr)).trans
      (hsame'.mono fun _ => .inl),
      untouched_append.2 ⟨untouched_append.2 ⟨hlog, hlog'⟩, hlog''⟩⟩
  · obtain ⟨hsame', hlog'⟩ := hafter hreplaced.sound
      (hp₁.of_agree hreplaced.workingDirectory hreplaced.directory)
    exact .inr (hreplaced.whileLocked hbefore hlog hsame' hlog')

/-! ## What is answered -/

theorem run_readDocument_of_aims {f : String} (hm : m.Sound) (hp : m.Aims p d) (hf : IsFileName f) :
    m.run (s.readDocument (p.child f)) = (some (s.documentAt (m.files.at? (d ++ [f]))), m) := by
  rcases hp.find_child_cases hm hf with ⟨e, hfind, hn⟩ | ⟨n, hfind, hn⟩ <;> rw [hn]
  · exact run_readDocument_of_error hfind
  · exact run_readDocument_of_ok hfind

theorem run_hasDocument_of_aims (hm : m.Sound) (hp : m.Aims s.directory d) :
    m.run s.hasDocument = (some (m.files.at? (d ++ ["cluster.json"])).isSome, m) := by
  rw [hasDocument, documentPath, Machine.run_pathExists]
  rcases hp.find_child_cases hm isFileName_document with ⟨e, hfind, hn⟩ | ⟨n, hfind, hn⟩ <;>
    rw [hfind, hn] <;> rfl

/-- A name is listed. -/
def Lists (s : FileStore) (m : Machine) (name : String) : Prop :=
  ∃ names, (m.run s.list).1 = some (.ok names) ∧ name ∈ names

theorem lists_iff (hm : m.Sound) (hroot : m.Aims s.root l) {name : String} :
    s.Lists m name ↔ s.root.isEmpty = false ∧
      isFileAt m.files (l ++ [name] ++ ["cluster.json"]) = true := by
  constructor
  · rintro ⟨names, hnames, hname⟩
    by_cases hdirectory : ∃ k, m.find s.root = .ok (k, .directory)
    · have henters := hroot.enters_of_find hdirectory.choose_spec
      rw [run_list_of_enters henters hm] at hnames
      cases hnames
      exact ⟨henters.isEmpty, (mem_listed hm.wellFormed).1 hname⟩
    · rw [run_list_of_not_directory (not_exists.1 hdirectory)] at hnames
      split at hnames <;> cases hnames
      cases hname
  · rintro ⟨hempty, hfile⟩
    obtain ⟨n, hn⟩ := Option.isSome_iff_exists.1 (Option.isSome_of_any hfile)
    have henters := hroot.enters hm hempty
      (hm.wellFormed.at?_of_child (hm.wellFormed.at?_of_child hn))
    exact ⟨_, congrArg (·.1) (run_list_of_enters henters hm), (mem_listed hm.wellFormed).2 hfile⟩

/-- The list is the same if no file of a name that it could have has come or gone, and nothing but
directories has come up on the way to the root. -/
theorem run_list_congr (hm : m.Sound) (hm' : m'.Sound) (hroot : m.Aims s.root l)
    (hcwd : m'.workingDirectory = m.workingDirectory)
    (hkeep : ∀ k, ¬ FileTree.isBelow k l → m.files.at? k = some .directory →
      m'.files.at? k = some .directory)
    (hgrown : ∀ k, k <+: l → m.GrownAt m' k)
    (hfile : ∀ name, isFileAt m'.files (l ++ [name] ++ ["cluster.json"]) =
      isFileAt m.files (l ++ [name] ++ ["cluster.json"])) :
    (m'.run s.list).1 = (m.run s.list).1 := by
  have hlisted : listed m'.files l = listed m.files l :=
    listed_eq (pairwise_listed _ _) (nodup_listed _ _) fun name => by
      rw [mem_listed hm'.wellFormed, mem_listed hm.wellFormed, hfile]
  rcases hroot.find_of_grown hm hcwd (fun k hd hk => hkeep k hk hd) hgrown with
    hfind | ⟨hfind, hne, henters⟩
  · by_cases hdirectory : ∃ k, m.find s.root = .ok (k, .directory)
    · obtain ⟨k, hk⟩ := hdirectory
      rw [run_list_of_enters ((hroot.of_agree hcwd hkeep).enters_of_find (hfind.trans hk)) hm',
        run_list_of_enters (hroot.enters_of_find hk) hm, hlisted]
    · have hdirectory := not_exists.1 hdirectory
      rw [run_list_of_not_directory (hfind ▸ hdirectory), run_list_of_not_directory hdirectory,
        hfind]
  · -- Nothing was below the root before, so that nothing is listed there now.
    have hnil : listed m.files l = [] := List.eq_nil_iff_forall_not_mem.2 fun name hname => by
      rw [mem_listed hm.wellFormed, isFileAt, List.append_assoc,
        hm.wellFormed.at?_append hne (by simp)] at hname
      cases hname
    rw [run_list_of_enters henters hm', run_list_of_missing hfind, hlisted, hnil]

/-- What a commit that failed leaves behind. -/
structure CommitFailed (s : FileStore) (c : Cluster) (m : Machine) (log : List FileExchange)
    (m' : Machine) : Prop where
  /-- A document that was neither moved nor opened is found as before, and so are the others. -/
  unchanged : ¬ s.Moved log → ¬ s.Opened log →
    (m'.run s.hasDocument).1 = (m.run s.hasDocument).1 ∧ (m'.run s.get).1 = (m.run s.get).1 ∧
      (m'.run s.list).1 = (m.run s.list).1
  /-- A document that was moved is found under the path of the backup. -/
  backedUp : s.Moved log → (m.run s.hasDocument).1 = some true ∧
    (m'.run s.getBackup).1 = (m.run s.get).1
  /-- A document that was written is found in place of the former one. -/
  written : s.Written c log → (m'.run s.get).1 = some (match c.checkVersion with
    | .error e => .error (.unusable e)
    | .ok () => .ok c)
  /-- Other names are listed as before. -/
  others : IsFileName s.name → ∀ name ≠ s.name, s.Lists m' name ↔ s.Lists m name

theorem commitFailed_of_sameApart (hm : m.Sound) (hroot : m.Aims s.root l)
    (hp : m.Aims s.directory d) (hd : l <+: d)
    (hsame : m.SameApart d (fun k => k = d ++ ["lock.json"] ∨ k = d ++ ["cluster.json.backup"]) m')
    (hlog : Untouched log) : s.CommitFailed c m log m' := by
  have hbelow (k : Location) (hk : k = d ++ ["lock.json"] ∨ k = d ++ ["cluster.json.backup"]) :
      FileTree.isBelow k d = true := hk.elim (isBelow_child d _ k) (isBelow_child d _ k)
  have hp' := hsame.aims hbelow hp
  have hdocument := hsame.at?_child_eq (f := "cluster.json") (by simp)
  have hlist : (m'.run s.list).1 = (m.run s.list).1 := by
    refine run_list_congr hm hsame.sound hroot hsame.workingDirectory
      (fun k hk => hsame.at?_directory fun hk' => hk (isBelow_mono hd (hbelow k hk')))
      (fun k hk => hsame.grownAt fun hk' => ?_)
      fun name => isFileAt_eq_of_sameApart hsame fun hk => ?_
    · exact absurd (FileTree.isBelow_iff.1 (hbelow k hk')).2 (Nat.not_lt.2 (hk.trans hd).length_le)
    · rcases hk with hk | hk <;> exact absurd (List.append_inj' hk rfl).2 (by simp)
  refine ⟨fun _ _ => ⟨?_, ?_, hlist⟩, fun hmoved => absurd hmoved (not_moved_of_untouched hlog),
    fun hwritten => absurd hwritten.opened (not_opened_of_untouched hlog), fun _ name _ => ?_⟩
  · rw [run_hasDocument_of_aims hsame.sound hp', run_hasDocument_of_aims hm hp, hdocument]
  · rw [get, documentPath, run_readDocument_of_aims hsame.sound hp' isFileName_document,
      run_readDocument_of_aims hm hp isFileName_document, hdocument]
  · rw [Lists, hlist, Lists]

theorem commitFailed_of_replaced (hm : m.Sound) (hroot : m.Aims s.root l)
    (hp : m.Aims s.directory d) (hd : l <+: d) (hself : IsFileName s.name → d = l ++ [s.name])
    (hreplaced : s.Replaced d c m log m') : s.CommitFailed c m log m' := by
  have hp' := hp.of_agree hreplaced.workingDirectory hreplaced.directory
  have hroot' : m'.Aims s.root l := hroot.of_agree hreplaced.workingDirectory fun k hk =>
    hreplaced.directory k fun hk' => hk (isBelow_mono hd hk')
  refine ⟨fun hmoved hopened => absurd hreplaced.replaced (not_or.2 ⟨hmoved, hopened⟩),
    fun hmoved => ?_, fun hwritten => ?_, fun hname name hne => ?_⟩
  · obtain ⟨hsome, hbackup⟩ := hreplaced.backedUp hmoved
    rw [run_hasDocument_of_aims hm hp, hsome, getBackup, backupPath,
      run_readDocument_of_aims hreplaced.sound hp' isFileName_backup, get, documentPath,
      run_readDocument_of_aims hm hp isFileName_document, hbackup]
    exact ⟨rfl, rfl⟩
  · obtain ⟨id, modified, hdocument⟩ := hreplaced.written not_opened_nil not_opened_nil
      (by rwa [List.nil_append, List.append_nil])
    rw [get, documentPath, run_readDocument_of_aims hreplaced.sound hp' isFileName_document,
      hdocument]
    exact congrArg some (s.documentAt_pretty c id modified)
  · -- The document of another name is in another directory.
    obtain rfl := hself hname
    rw [lists_iff hreplaced.sound hroot', lists_iff hm hroot, hreplaced.isFileAt_eq]
    · rintro (⟨rest, hrest⟩ | ⟨rest, hrest⟩) <;> simp [hne.symm] at hrest
    · simp

/-- Whatever step of a commit fails, a document that was neither moved nor opened is as it was, one
that was moved is under the path of the backup, one that was written is the new one, and other names
are listed as before. -/
theorem commitFailed_of_ends {e : StoreError} (hm : m.Sound) (hroot : m.Aims s.root l)
    (hname : Path.Descends s.name) (hends : (s.commit c).Ends log (some (.error e)))
    (hunder : m.Undergoes log m') : s.CommitFailed c m log m' := by
  have hp : m.Aims s.directory (l ++ Path.onward (Path.partsOf s.name)) := hroot.join hname
  rcases replaced_of_commit hm hp hends hunder with ⟨hsame, hlog⟩ | hreplaced
  · exact commitFailed_of_sameApart hm hroot hp (List.prefix_append _ _) hsame hlog
  · refine commitFailed_of_replaced hm hroot hp (List.prefix_append _ _) (fun hself => ?_) hreplaced
    rw [Path.partsOf_name hself, Path.onward_cons hself.ne_dot]
    rfl

end FileStore

/-! ## A disk that fails -/

namespace failingDisk

/-- A machine without files. -/
def machine : Machine := { today := ⟨0, 0⟩ }

/-- A store below a root that is yet to be made. -/
def store : FileStore := { root := { parts := ["clusters"] }, name := "demo", holder := "host" }

/-- A cluster. -/
def demo : Cluster := { name := "demo", cloud := "fake" }

/-- The machine behind a commit. -/
def kept : Machine := (machine.run (store.commit demo)).2

/-- A file system that moves nothing. -/
def refusing : (r : FileRequest) → Machine → r.Answer × Machine
  | .rename _ _, m => (.error .broken, m)
  | r, m => Machine.respond r m

/-- A file system that opens nothing to write it anew. -/
def full : (r : FileRequest) → Machine → r.Answer × Machine
  | .createEmpty _, m => (.error .broken, m)
  | r, m => Machine.respond r m

/-- A commit that fails to move the document. -/
def refused : Option (Except StoreError Unit) × List FileExchange × Machine :=
  (store.commit { demo with location := "local" }).play refusing kept

theorem isFileName_demo : IsFileName "demo" := by constructor <;> decide

/-- The machine is sound, and the document is there. -/
theorem kept_spec : kept.Sound ∧ ∃ id modified,
    kept.files.at? ["clusters", "demo", "cluster.json"] =
      some (.file id (.text demo.pretty) modified) := by
  have hm : machine.Sound := Machine.sound_of_empty rfl rfl
  have hplaced : machine.PlacedAt store.root ["clusters"] :=
    ⟨⟨[], ["clusters"], ⟨⟨[], rfl, List.forall_mem_nil _, rfl⟩, rfl,
      List.forall_mem_singleton.2 (.inr (by constructor <;> decide)),
      fun k _ => by cases k <;> exact nofun⟩, rfl⟩, .inr rfl⟩
  obtain ⟨m₁, hrun, hmade, henters⟩ :=
    FileStore.run_ensureDirectory hplaced hm isFileName_demo nofun
  have hnone (f : String) : m₁.files.at? (["clusters"] ++ [store.name] ++ [f]) = none := by
    rw [hmade.at?_eq, if_neg fun hle => absurd hle.length_le (by simp)]
    rfl
  have hne (f : String) : m₁.files.at? (["clusters"] ++ [store.name] ++ [f]) ≠ some .directory :=
    ne_directory_of_none (hnone f)
  obtain ⟨m', id, modified, hcommit, hm', -, hat⟩ :=
    FileStore.run_commit_of_opens (c := demo) hrun henters.opens hmade.sound rfl (hne _) (hne _)
      (hnone _)
  rw [kept, hcommit]
  exact ⟨hm', id, modified, (hat _).trans (if_pos rfl)⟩

theorem aims_root : kept.Aims store.root ["clusters"] :=
  ⟨[], [], ["clusters"], rfl, List.forall_mem_nil _, rfl, by decide +kernel,
    List.forall_mem_singleton.2 (.inr (by constructor <;> decide)), rfl⟩

theorem mayAnswer_refusing (r : FileRequest) (m : Machine) :
    m.MayAnswer r (refusing r m).1 (refusing r m).2 := by
  cases r <;> first | exact .refused rfl | exact .served _ m.today

/-- The document is found as before. -/
theorem get_refused : (refused.2.2.run store.get).1 = some (.ok demo) := by
  obtain ⟨hm, id, modified, hdocument⟩ := kept_spec
  have hrun : refused = (some (.error (.files .broken)), refused.2.1, refused.2.2) :=
    Prod.ext (by decide +kernel) (Prod.eta refused.2).symm
  have hlog : Untouched refused.2.1 := by
    unfold Untouched
    decide +kernel
  have hfailed := FileStore.commitFailed_of_ends hm aims_root (Path.descends_name isFileName_demo)
    (.of_play hrun) (Machine.undergoes_of_play mayAnswer_refusing hrun)
  have haims : kept.Aims store.directory (["clusters"] ++ Path.onward (Path.partsOf "demo")) :=
    aims_root.join (Path.descends_name isFileName_demo)
  have hkept : (kept.run store.get).1 = some (.ok demo) := by
    rw [FileStore.get, FileStore.documentPath,
      FileStore.run_readDocument_of_aims hm haims isFileName_document,
      Path.partsOf_name isFileName_demo]
    have hplace : ["clusters"] ++ Path.onward ["demo"] ++ ["cluster.json"] =
        ["clusters", "demo", "cluster.json"] := rfl
    rw [hplace, hdocument, FileStore.documentAt_pretty]
    rfl
  exact (hfailed.unchanged (FileStore.not_moved_of_untouched hlog)
    (FileStore.not_opened_of_untouched hlog)).2.1.trans hkept

/-- A commit that fails to open the new document. -/
def cutShort : Option (Except StoreError Unit) × List FileExchange × Machine :=
  (store.commit { demo with location := "local" }).play full kept

/-- The document is not found any more in its place. -/
theorem hasDocument_cutShort : cutShort.1 = some (.error (.files .broken)) ∧
    (kept.run store.hasDocument).1 = some true ∧
      (cutShort.2.2.run store.hasDocument).1 = some false := by
  decide +kernel

/-- A name that leads through the document of another store. -/
def winding : FileStore := { store with name := "demo/cluster.json/.." }

/-- The document of the other store is a directory. -/
def directories : Machine := machine.putDirectory ["clusters", "demo", "cluster.json"]

/-- Even if the file system serves every request, a document that was there may be gone when a
commit has failed. -/
theorem hasDocument_gone_behind_failure :
    (directories.run winding.hasDocument).1 = some true ∧
      (directories.run (winding.commit { demo with name := "demo/cluster.json/.." })).1 =
        some (.error (.files .notFound)) ∧
      ((directories.run (winding.commit { demo with name := "demo/cluster.json/.." })).2.run
        winding.hasDocument).1 = some false := by
  decide +kernel

end failingDisk

end ClusterKeeper
