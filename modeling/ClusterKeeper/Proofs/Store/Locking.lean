/-
# How a process comes to a lock

The requests of a process and their answers tell how it stands with the lock of its store: whether
it has found the lock taken, how old it thinks that lock is, whether it holds the lock or has let go
of it. In each standing only some requests are in order. All operations of a store keep to that
order, whatever the answers are, and an attempt to take the lock succeeds exactly where it ends in
holding it.
-/

import ClusterKeeper.Proofs.Calendar.RoundTrip
import ClusterKeeper.Proofs.Json.RoundTrip
import ClusterKeeper.Proofs.Store.Calls

namespace ClusterKeeper

open FileDialogue

/-! ## The text of a lock -/

/-- A moment that a clock can show is read back from documents. -/
theorem Moment.readsBack_codec {t : Moment} (h : t.OnClock) : Moment.codec.ReadsBack t := by
  have hspells {cs : List Char} (hs : Json.Spells (Moment.codec.tree t) cs) :
      cs = Json.quote t.stamp := by
    change Json.Spells (.string t.stamp) cs at hs
    generalize t.stamp = text at hs ⊢
    cases hs
    rfl
  refine ⟨fun hs => hspells hs ▸ ⟨'"', _, rfl, rfl, by decide⟩, fun {gap cs rest} hg hs _ => ?_⟩
  obtain ⟨tail, htail, hread⟩ := Json.quote_append t.stamp rest
  have hskip : Json.skipBlanks (gap ++ '"' :: tail) = '"' :: tail :=
    Json.skipBlanks_append_cons hg rfl
  rw [hspells hs, Moment.codec, htail]
  simp only [Json.Codec.readString, hskip, hread, Bind.bind, Except.bind, Moment.parse?_stamp h]
  rfl

theorem LockInfo.readsBack_codec {i : LockInfo} (h : i.acquiredAt.OnClock) :
    LockInfo.codec.ReadsBack i := by
  rw [LockInfo.codec]
  exact .record ⟨Json.Codec.Faithful.string.readsBack _, by decide, Moment.readsBack_codec h,
    by decide, trivial⟩ rfl

/-- A lock says who holds it and since when. -/
theorem LockInfo.parse_pretty {i : LockInfo} (h : i.acquiredAt.OnClock) :
    LockInfo.codec.parse (LockInfo.codec.pretty i) = .ok i :=
  (readsBack_codec h).parse_pretty

/-! ## Standings -/

/-- How a process stands with the lock of its store. -/
inductive Standing where
  /-- It has no part in it. -/
  | apart
  /-- It has dated a lock of its own, which it is about to make. -/
  | dated (since : Moment)
  /-- It has found that there is a lock. -/
  | refused (since : Moment)
  /-- It has read a lock that does not say its date. -/
  | puzzled (since : Moment)
  /-- It knows a date of the lock, and which file that is the date of. -/
  | informed (since : Moment) (found : Option FileId) (date : Moment)
  /-- It takes that lock to be abandoned and is about to remove it. -/
  | clearing (since : Moment) (found : Option FileId)
  /-- It has found the place of the lock free, or has made it so. -/
  | cleared (since : Moment)
  /-- It has made its lock, in which nothing is written yet. -/
  | made (own : FileId) (since : Moment)
  /-- It holds the lock, and may have opened another file to write it anew. -/
  | holding (own : FileId) (since : Moment) (opened : Option FileId)
  /-- It holds the lock and has removed the directory that the lock was in. -/
  | bereft (own : FileId)
  deriving DecidableEq

namespace Standing

/-- The standing behind a request and its answer, where `found` is the lock that is there. -/
def after (s : FileStore) (found : Option FileId) :
    Standing → (r : FileRequest) → r.Answer → Standing
  | .apart, .now, t => .dated t
  | .dated t, .createNew _, .ok id => .made id t
  | .dated t, .createNew _, .error .alreadyExists => .refused t
  | .dated _, .createNew _, .error _ => .apart
  | .refused t, .readText _, .ok text =>
    match LockInfo.codec.parse text with
    | .ok info => .informed t found info.acquiredAt
    | .error _ => .puzzled t
  | .refused _, .readText _, .error _ => .apart
  | .puzzled t, .modified _, .ok date => .informed t found date
  | .puzzled _, .modified _, .error _ => .apart
  | .informed t found date, .now, now =>
    if now.hoursSince date < staleLockHours then .apart else .clearing t found
  | .clearing t _, .removeFile _, .ok () => .cleared t
  | .clearing t _, .removeFile _, .error .notFound => .cleared t
  | .clearing _ _, .removeFile _, .error _ => .apart
  | .cleared t, .createNew _, .ok id => .made id t
  | .cleared _, .createNew _, .error _ => .apart
  | .made own t, .write _ _, .ok () => .holding own t none
  | .made _ _, .write _ _, .error _ => .apart
  | .holding own t _, .createEmpty _, .ok id => .holding own t (some id)
  | .holding own t opened, .removeFile p, .ok () =>
    if p = s.lockPath then .apart else .holding own t opened
  | .holding own _ _, .removeDirectory _, _ => .bereft own
  | .bereft _, .removeFile _, .ok () => .apart
  | φ, _, _ => φ

/-- The requests that are in order in a standing. In any of them a process may look whether
something is there, make directories and wait. -/
inductive Admits (s : FileStore) : Standing → FileRequest → Prop
  | look (φ : Standing) (p : Path) : Admits s φ (.isDirectory p)
  | makeDirectory (φ : Standing) (p : Path) : Admits s φ (.makeDirectory p)
  | wait (φ : Standing) (t : Duration) : Admits s φ (.wait t)
  | date : Admits s .apart .now
  | make (t : Moment) : Admits s (.dated t) (.createNew s.lockPath)
  | read (t : Moment) : Admits s (.refused t) (.readText s.lockPath)
  | readDate (t : Moment) : Admits s (.puzzled t) (.modified s.lockPath)
  | judge (t : Moment) (found : Option FileId) (date : Moment) :
    Admits s (.informed t found date) .now
  | clear (t : Moment) (found : Option FileId) :
    Admits s (.clearing t found) (.removeFile s.lockPath)
  | makeAgain (t : Moment) : Admits s (.cleared t) (.createNew s.lockPath)
  | sign (own : FileId) (t : Moment) :
    Admits s (.made own t) (.write own (LockInfo.codec.pretty ⟨s.holder, t⟩))
  | removeBackup (own : FileId) (t : Moment) (opened : Option FileId) :
    Admits s (.holding own t opened) (.removeFile s.backupPath)
  | rotate (own : FileId) (t : Moment) (opened : Option FileId) :
    Admits s (.holding own t opened) (.rename s.documentPath s.backupPath)
  | openDocument (own : FileId) (t : Moment) (opened : Option FileId) :
    Admits s (.holding own t opened) (.createEmpty s.documentPath)
  | writeDocument (own : FileId) (t : Moment) (id : FileId) (text : String) :
    Admits s (.holding own t (some id)) (.write id text)
  | wipe (own : FileId) (t : Moment) (opened : Option FileId) :
    Admits s (.holding own t opened) (.removeDirectory s.directory)
  | release (own : FileId) (t : Moment) (opened : Option FileId) :
    Admits s (.holding own t opened) (.removeFile s.lockPath)
  | releaseBereft (own : FileId) : Admits s (.bereft own) (.removeFile s.lockPath)

/-- The process holds the lock. -/
inductive Holds : Standing → Prop
  | holding (own : FileId) (since : Moment) (opened : Option FileId) :
    Holds (.holding own since opened)
  | bereft (own : FileId) : Holds (.bereft own)

end Standing

/-! ## Dialogues that keep to the order -/

namespace FileDialogue

variable {α β : Type} {s : FileStore} {φ : Standing} {c : FileDialogue α}

/-- A request may have this answer. A file that is open is written. -/
def Serves : (r : FileRequest) → r.Answer → Prop
  | .write _ _, a => a = .ok ()
  | _, _ => True

/-- From a standing on, every request of the dialogue is in order, and at its end its result and the
standing then fit together. -/
def Conforms (s : FileStore) {α : Type} : FileDialogue α → Standing → (α → Standing → Prop) → Prop
  | Dialogue.done x, φ, P => P x φ
  | Dialogue.brokenOff, _, _ => True
  | Dialogue.ask r next, φ, P =>
    φ.Admits s r ∧ ∀ found a, Serves r a → Conforms s (next a) (φ.after s found r a) P

variable {P P' : α → Standing → Prop} {R : β → Standing → Prop}

theorem conforms_pure {x : α} (h : P x φ) : Conforms s (pure x) φ P := h

theorem conforms_ask {r : FileRequest} {P : r.Answer → Standing → Prop} (hr : φ.Admits s r)
    (h : ∀ found a, Serves r a → P a (φ.after s found r a)) : Conforms s (ask r) φ P := ⟨hr, h⟩

theorem conforms_ask_bind {r : FileRequest} {f : r.Answer → FileDialogue β} (hr : φ.Admits s r)
    (h : ∀ found a, Serves r a → Conforms s (f a) (φ.after s found r a) R) :
    Conforms s (ask r >>= f) φ R := ⟨hr, h⟩

theorem Conforms.bind {f : α → FileDialogue β} (hc : Conforms s c φ P)
    (hf : ∀ x φ', P x φ' → Conforms s (f x) φ' R) : Conforms s (c >>= f) φ R := by
  rw [Dialogue.bind_eq_bind]
  induction c generalizing φ with
  | done x => exact hf x φ hc
  | brokenOff => trivial
  | ask r next ih => exact ⟨hc.1, fun found a ha => ih a (hc.2 found a ha)⟩

/-- The dialogue does nothing that would change a standing. -/
def StandsBy (s : FileStore) {α : Type} (c : FileDialogue α) : Prop :=
  ∀ φ, Conforms s c φ fun _ φ' => φ' = φ

theorem standsBy_pure (x : α) : StandsBy s (pure x : FileDialogue α) := fun _ => rfl

theorem StandsBy.bind {f : α → FileDialogue β} (hc : StandsBy s c) (hf : ∀ x, StandsBy s (f x)) :
    StandsBy s (c >>= f) := fun φ =>
  (hc φ).bind fun x φ' h => h ▸ hf x φ'

theorem StandsBy.conforms_bind {f : α → FileDialogue β} (hc : StandsBy s c)
    (hf : ∀ x, Conforms s (f x) φ R) : Conforms s (c >>= f) φ R :=
  (hc φ).bind fun x _ h => h ▸ hf x

theorem after_isDirectory (φ : Standing) (found : Option FileId) (p : Path)
    (a : Except FileFault Bool) : φ.after s found (.isDirectory p) a = φ := by
  cases φ <;> rfl

theorem after_makeDirectory (φ : Standing) (found : Option FileId) (p : Path)
    (a : Except FileFault Unit) : φ.after s found (.makeDirectory p) a = φ := by
  cases φ <;> rfl

theorem after_wait (φ : Standing) (found : Option FileId) (t : Duration) (a : Unit) :
    φ.after s found (.wait t) a = φ := by
  cases φ <;> rfl

theorem standsBy_isDirectory (p : Path) : StandsBy s (ask (.isDirectory p)) := fun φ =>
  conforms_ask (.look φ p) fun found a _ => after_isDirectory φ found p a

theorem standsBy_makeDirectory (p : Path) : StandsBy s (ask (.makeDirectory p)) := fun φ =>
  conforms_ask (.makeDirectory φ p) fun found a _ => after_makeDirectory φ found p a

theorem standsBy_wait (t : Duration) : StandsBy s (ask (.wait t)) := fun φ =>
  conforms_ask (.wait φ t) fun found a _ => after_wait φ found t a

theorem standsBy_pathExists (p : Path) : StandsBy s (pathExists p) :=
  (standsBy_isDirectory p).bind fun _ => standsBy_pure _

theorem standsBy_pathExists? (p : Path) : StandsBy s (pathExists? p) :=
  (standsBy_isDirectory p).bind fun x => by
    split <;> exact standsBy_pure _

/-- To look for directories and to make them does not change a standing. -/
theorem standsBy_of_paves {p : Path} (hc : c.Asks (FileRequest.Paves p)) : StandsBy s c := by
  intro φ
  induction c generalizing φ with
  | done x => rfl
  | brokenOff => trivial
  | ask r next ih =>
    obtain ⟨hr, hnext⟩ := hc
    have hstep : StandsBy s (ask r) := by
      cases hr with
      | look q => exact standsBy_isDirectory q
      | @make q _ => exact standsBy_makeDirectory q
    exact hstep.conforms_bind fun a => ih a (hnext a) φ

end FileDialogue

/-! ## Operations of a store -/

namespace FileStore

variable {s : FileStore} {φ : Standing} {c : Cluster} {own : FileId} {t : Moment}

theorem backupPath_ne_lockPath (s : FileStore) : s.backupPath ≠ s.lockPath := by
  intro h
  have hparts := congrArg (fun p => p.parts.getLast?) h
  simp [backupPath, lockPath, Path.child] at hparts

theorem standsBy_ensureDirectory : StandsBy s s.ensureDirectory :=
  standsBy_of_paves paves_ensureDirectory

/-- The attempt succeeded exactly if the process holds the lock now, and else it has no part in
it. -/
def Takes (s : FileStore) : Except StoreError StoreLock → Standing → Prop
  | .ok l, φ => l = ⟨s.lockPath⟩ ∧ ∃ own since, φ = .holding own since none
  | .error _, φ => φ = .apart

/-- The lock is made and signed, or the answer tells why not. -/
theorem conforms_createLock (hmake : φ.Admits s (.createNew s.lockPath))
    (hok : ∀ found id, φ.after s found (.createNew s.lockPath) (.ok id) = .made id t) :
    Conforms s (s.createLock (LockInfo.codec.pretty ⟨s.holder, t⟩)) φ fun o φ' =>
      (o = .ok () ∧ ∃ own, φ' = .holding own t none) ∨
        ∃ e, o = .error e ∧ ∃ found, φ' = φ.after s found (.createNew s.lockPath) (.error e) := by
  refine conforms_ask_bind hmake fun found a _ => ?_
  cases a with
  | error e => exact conforms_pure (.inr ⟨e, rfl, found, rfl⟩)
  | ok id =>
    rw [hok found id]
    refine conforms_ask (.sign id t) fun _ a ha => ?_
    obtain rfl : a = .ok () := ha
    exact .inl ⟨rfl, id, rfl⟩

/-- Where the place of the lock is free, the lock is made, or the answer tells why not. -/
theorem conforms_createLock_bind
    {f : Except FileFault Unit → FileDialogue (Except StoreError StoreLock)}
    (hok : f (.ok ()) = pure (.ok ⟨s.lockPath⟩))
    (herror : ∀ e, ∃ e', f (.error e) = pure (.error e')) :
    Conforms s (s.createLock (LockInfo.codec.pretty ⟨s.holder, t⟩) >>= f) (.cleared t) s.Takes := by
  refine (conforms_createLock (t := t) (.makeAgain t) fun _ _ => rfl).bind fun o φ' h => ?_
  rcases h with ⟨rfl, own, rfl⟩ | ⟨e, rfl, -, rfl⟩
  · rw [hok]
    exact conforms_pure ⟨rfl, own, t, rfl⟩
  · obtain ⟨e', he'⟩ := herror e
    rw [he']
    exact conforms_pure rfl

theorem conforms_takeOver (found : Option FileId) :
    Conforms s (s.takeOver (LockInfo.codec.pretty ⟨s.holder, t⟩)) (.clearing t found) s.Takes := by
  refine conforms_ask_bind (.clear t found) fun _ a _ => ?_
  rcases a with e | _
  · cases e with
    | notFound => exact conforms_createLock_bind rfl fun e => by cases e <;> exact ⟨_, rfl⟩
    | _ => exact conforms_pure rfl
  · exact conforms_createLock_bind rfl fun e => by cases e <;> exact ⟨_, rfl⟩

theorem conforms_lockHolder : Conforms s s.lockHolder (.refused t) fun o φ =>
    (∃ info found, o = .ok info ∧ φ = .informed t found info.acquiredAt) ∨
      (∃ e, o = .error e) ∧ φ = .apart := by
  refine conforms_ask_bind (.read t) fun found a _ => ?_
  cases a with
  | error e => cases e <;> exact conforms_pure (.inr ⟨⟨_, rfl⟩, rfl⟩)
  | ok text =>
    dsimp only [Standing.after]
    cases LockInfo.codec.parse text with
    | ok info => exact conforms_pure (.inl ⟨info, found, rfl, rfl⟩)
    | error e =>
      refine conforms_ask_bind (.readDate t) fun found a _ => ?_
      cases a with
      | error e => exact conforms_pure (.inr ⟨⟨_, rfl⟩, rfl⟩)
      | ok date => exact conforms_pure (.inl ⟨_, found, rfl, rfl⟩)

/-- An attempt to take the lock keeps to the order. -/
theorem conforms_acquire : Conforms s s.acquire .apart s.Takes := by
  refine standsBy_ensureDirectory.conforms_bind fun made => ?_
  split
  · exact conforms_pure rfl
  refine conforms_ask_bind .date fun _ t _ => ?_
  refine (conforms_createLock (t := t) (.make t) fun _ _ => rfl).bind fun o φ' h => ?_
  rcases h with ⟨rfl, own, rfl⟩ | ⟨e, rfl, -, rfl⟩
  · exact conforms_pure ⟨rfl, own, t, rfl⟩
  · cases e with
    | alreadyExists =>
      -- Only a lock that is there already is looked at, and perhaps taken over.
      refine conforms_lockHolder.bind fun o φ' h => ?_
      rcases h with ⟨info, found, rfl, rfl⟩ | ⟨⟨e, rfl⟩, rfl⟩
      · refine conforms_ask_bind (.judge t found info.acquiredAt) fun _ now _ => ?_
        dsimp only [Standing.after]
        split
        · exact conforms_pure rfl
        · exact conforms_takeOver found
      · exact conforms_pure rfl
    | _ => exact conforms_pure rfl

theorem conforms_attempt (left made : Nat) :
    Conforms s (Retrier.attempt (ask (.wait s.lockRetry.interval)) "acquire state lock" s.acquire
      made left) .apart fun o φ => s.Takes (o.mapError RetryError.lastError) φ := by
  induction left generalizing made with
  | zero =>
    refine conforms_acquire.bind fun o φ' h => ?_
    cases o <;> exact conforms_pure h
  | succ left ih =>
    refine conforms_acquire.bind fun o φ' h => ?_
    cases o with
    | ok l => exact conforms_pure h
    | error e =>
      obtain rfl : φ' = .apart := h
      exact (standsBy_wait _).conforms_bind fun _ => ih _

theorem conforms_lock : Conforms s s.lock .apart s.Takes :=
  (conforms_attempt _ _).bind fun _ _ h => conforms_pure h

/-- Whatever it holds, a process may let go of it. -/
theorem conforms_removeLock (h : φ.Holds) : Conforms s (ask (.removeFile s.lockPath)) φ fun o φ' =>
    (∃ e, o = .error e) → φ' = φ := by
  cases h with
  | holding own t opened =>
    refine conforms_ask (.release own t opened) fun _ a _ => ?_
    rintro ⟨e, rfl⟩
    rfl
  | bereft own =>
    refine conforms_ask (.releaseBereft own) fun _ a _ => ?_
    rintro ⟨e, rfl⟩
    rfl

theorem conforms_drop (h : φ.Holds) :
    Conforms s (StoreLock.drop ⟨s.lockPath⟩) φ fun _ _ => True := by
  refine (standsBy_pathExists _).conforms_bind fun found => ?_
  split
  · exact (conforms_removeLock h).bind fun _ _ _ => conforms_pure trivial
  · exact conforms_pure trivial

theorem conforms_release (h : φ.Holds) :
    Conforms s (StoreLock.release ⟨s.lockPath⟩) φ fun _ _ => True := by
  refine (standsBy_pathExists _).conforms_bind fun found => ?_
  split
  · refine (conforms_removeLock h).bind fun o φ' hφ => ?_
    cases o with
    | ok => exact conforms_pure trivial
    | error e =>
      rw [hφ ⟨e, rfl⟩]
      exact (conforms_drop h).bind fun _ _ _ => conforms_pure trivial
  · exact conforms_pure trivial

/-- What is done with the lock held leaves the process with the lock. -/
theorem conforms_whileLocked {action : FileDialogue (Except FileFault Unit)}
    (h : ∀ own since, Conforms s action (.holding own since none) fun _ φ => φ.Holds) :
    Conforms s (s.whileLocked action) .apart fun _ _ => True := by
  refine conforms_lock.bind fun o φ' ho => ?_
  cases o with
  | error e => exact conforms_pure trivial
  | ok l =>
    obtain ⟨rfl, own, since, rfl⟩ := ho
    refine (h own since).bind fun o φ' hφ => ?_
    cases o with
    | error e => exact (conforms_drop hφ).bind fun _ _ _ => conforms_pure trivial
    | ok => exact conforms_release hφ

theorem conforms_rotate : Conforms s s.rotate (.holding own t none) fun _ φ =>
    φ = .holding own t none := by
  have hrename : Conforms s (ask (.rename s.documentPath s.backupPath)) (.holding own t none)
      fun _ φ => φ = .holding own t none := conforms_ask (.rotate own t none) fun _ _ _ => rfl
  refine (standsBy_pathExists _).conforms_bind fun found => ?_
  split
  · refine (standsBy_pathExists _).conforms_bind fun found => ?_
    -- The document is moved where there is no backup, or where it could be removed.
    split
    · refine (conforms_ask (P := fun _ φ => φ = .holding own t none) (.removeBackup own t none)
        fun _ a _ => ?_).bind fun o φ' hφ => ?_
      · cases a with
        | error e => rfl
        | ok => exact if_neg s.backupPath_ne_lockPath
      · subst hφ
        cases o with
        | error e => exact conforms_pure rfl
        | ok => exact hrename
    · exact hrename
  · exact conforms_pure rfl

theorem conforms_writeDocument (text : String) :
    Conforms s (writeFile s.documentPath text) (.holding own t none) fun _ φ => φ.Holds := by
  refine conforms_ask_bind (.openDocument own t none) fun _ a _ => ?_
  cases a with
  | error e => exact conforms_pure (.holding own t none)
  | ok id => exact conforms_ask (.writeDocument own t id text) fun _ _ _ => .holding own t (some id)

/-- A commit keeps to the order. -/
theorem conforms_commit (c : Cluster) : Conforms s (s.commit c) .apart fun _ _ => True := by
  rw [commit]
  split
  · exact conforms_pure trivial
  · refine conforms_whileLocked fun own since => conforms_rotate.bind fun o φ' hφ => ?_
    subst hφ
    cases o with
    | error e => exact conforms_pure (.holding own since none)
    | ok => exact conforms_writeDocument _

/-- The removal of a cluster keeps to the order. -/
theorem conforms_destroy : Conforms s s.destroy .apart fun _ _ => True := by
  refine (standsBy_pathExists? _).conforms_bind fun found => ?_
  rcases found with e | _ | _
  · exact conforms_pure trivial
  · exact conforms_pure trivial
  · exact conforms_whileLocked fun own since =>
      conforms_ask (.wipe own since none) fun _ _ _ => .bereft own

end FileStore

end ClusterKeeper
