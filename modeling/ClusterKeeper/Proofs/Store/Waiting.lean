/-
# Waiting for a lock

A store that needs its lock tries to take it at fixed intervals. A lock younger than an hour is
respected: the store waits, and in the end gives up without having changed anything. The first lock
that is older gives way, and so the work is done at the first try at which there is none that is
respected. When the work is over, whatever it came to, there is no lock.
-/

import ClusterKeeper.Proofs.Files.Faults
import ClusterKeeper.Proofs.Store.Calls
import Mathlib.Data.Nat.Find

namespace ClusterKeeper

open FileTree (IsFileName ne_directory_of_none ne_directory_of_file)
open FileDialogue
open Machine (run_bind run_bind_congr run_ask run_pathExists)

variable {α ε : Type} {m m' m₁ m₂ : Machine} {d k l : Location} {p : Path} {s : FileStore}
variable {c : Cluster} {info : LockInfo} {t : Duration} {f : String}

/-! ## While time passes -/

namespace Machine

/-- Some files may have gone, and nothing else has happened. -/
structure Thinned (m m' : Machine) : Prop where
  workingDirectory : m'.workingDirectory = m.workingDirectory
  at?_eq : ∀ k, m'.files.at? k = m.files.at? k ∨
    (∃ id content modified, m.files.at? k = some (.file id content modified)) ∧
      m'.files.at? k = none
  wellFormed : m.files.WellFormed → m'.files.WellFormed

namespace Thinned

theorem refl (m : Machine) : m.Thinned m := ⟨rfl, fun _ => .inl rfl, id⟩

theorem trans (h : m.Thinned m₁) (h' : m₁.Thinned m') : m.Thinned m' where
  workingDirectory := h'.workingDirectory.trans h.workingDirectory
  at?_eq k := by
    rcases h'.at?_eq k with heq' | ⟨⟨id, content, modified, hfile⟩, hnone⟩
    · rw [heq']
      exact h.at?_eq k
    · refine .inr ⟨?_, hnone⟩
      rcases h.at?_eq k with heq | ⟨hfile', -⟩
      · exact ⟨id, content, modified, heq ▸ hfile⟩
      · exact hfile'
  wellFormed hm := h'.wellFormed (h.wellFormed hm)

theorem directory (h : m.Thinned m') (hk : m.files.at? k = some .directory) :
    m'.files.at? k = some .directory := by
  rcases h.at?_eq k with heq | ⟨⟨id, content, modified, hfile⟩, -⟩
  · exact heq.trans hk
  · rw [hk] at hfile
    cases hfile

theorem enters (h : m.Thinned m') (hp : m.Enters p d) : m'.Enters p d :=
  hp.mono h.workingDirectory fun _ => h.directory

end Thinned

/-- A file that is removed from outside is there no more, or there was none. -/
theorem thinned_removeFile (m : Machine) (p : Path) :
    m.Thinned ((m.removeFile p).toOption.getD m) := by
  cases hok : m.removeFile p with
  | error e => exact .refl m
  | ok m' =>
    obtain ⟨l, id, content, modified, hfind, rfl⟩ := eq_ok_of_removeFile hok
    have hl := (eq_ok_of_find hfind).2
    refine ⟨rfl, fun k => ?_, fun hm => ?_⟩
    · have hat : (m.remove l).files.at? k = _ := at?_remove hl k
      by_cases hk : k = l
      · exact .inr ⟨⟨id, content, modified, hk ▸ hl⟩, hat.trans (if_pos hk)⟩
      · exact .inl (hat.trans (if_neg hk))
    · exact hm.erase (ne_nil_of_at? (ne_directory_of_file hl))
        (hm.at?_child (ne_directory_of_file hl))

/-- Whatever is removed from outside by then, a wait ends when the clock says so. -/
theorem thinned_wait (m : Machine) (t : Duration) :
    m.Thinned (m.wait t) ∧ (m.wait t).clock = m.clock + t.waitMillis := by
  -- The files whose time has come are removed one by one, at the moment the wait ends.
  have hremovals (due : List (Nat × Path)) (m₁ : Machine) :
      m₁.Thinned (due.foldl (fun m r => (m.removeFile r.2).toOption.getD m) m₁) ∧
        (due.foldl (fun m r => (m.removeFile r.2).toOption.getD m) m₁).clock = m₁.clock := by
    induction due generalizing m₁ with
    | nil => exact ⟨.refl m₁, rfl⟩
    | cons r due ih =>
      obtain ⟨hrest, hclock⟩ := ih ((m₁.removeFile r.2).toOption.getD m₁)
      refine ⟨(thinned_removeFile m₁ r.2).trans hrest, hclock.trans ?_⟩
      cases hok : m₁.removeFile r.2 with
      | error e => rfl
      | ok m' =>
        obtain ⟨l, id, content, modified, -, rfl⟩ := eq_ok_of_removeFile hok
        rfl
  obtain ⟨hthinned, hclock⟩ := hremovals _ _
  exact ⟨⟨hthinned.workingDirectory, hthinned.at?_eq, hthinned.wellFormed⟩, hclock⟩

/-- The machine behind waits of the same length. -/
def waits (m : Machine) (t : Duration) : Nat → Machine
  | 0 => m
  | n + 1 => (m.wait t).waits t n

theorem thinned_waits (m : Machine) (t : Duration) (n : Nat) :
    m.Thinned (m.waits t n) ∧ (m.waits t n).clock = m.clock + n * t.waitMillis := by
  induction n generalizing m with
  | zero => exact ⟨.refl m, by simp [waits]⟩
  | succ n ih =>
    obtain ⟨hwait, hclock⟩ := thinned_wait m t
    obtain ⟨hrest, hclock'⟩ := ih (m.wait t)
    refine ⟨hwait.trans hrest, hclock'.trans ?_⟩
    rw [hclock, Nat.succ_mul]
    omega

end Machine

/-! ## Tries one after the other -/

/-- A try that fails without leaving anything behind is followed by a wait and the next try. -/
theorem Retrier.run_attempt {operation : String} {action : FileDialogue (Except ε α)}
    {n made left : Nat}
    (hfails : ∀ j < n, ∃ e, (m.waits t j).run action = (some (.error e), m.waits t j)) :
    m.run (attempt (ask (.wait t)) operation action made (n + left)) =
      (m.waits t n).run (attempt (ask (.wait t)) operation action (made + n) left) := by
  induction n generalizing m made with
  | zero => rw [Nat.zero_add, Nat.add_zero, Machine.waits]
  | succ n ih =>
    obtain ⟨e, hfirst⟩ : ∃ e, m.run action = (some (.error e), m) := hfails 0 (Nat.succ_pos n)
    have hrest : (m.wait t).run (attempt (ask (.wait t)) operation action (made + 1) (n + left)) =
        ((m.wait t).waits t n).run
          (attempt (ask (.wait t)) operation action (made + 1 + n) left) :=
      ih fun j hj => hfails (j + 1) (Nat.succ_lt_succ hj)
    have hwait : m.run (ask (.wait t)) = (some (), m.wait t) := run_ask _
    rw [Nat.add_right_comm, attempt, run_bind hfirst]
    simp only
    rw [run_bind hwait, hrest, Nat.add_right_comm, Nat.add_assoc]
    rfl

/-! ## Locks that are respected -/

/-- What is known of a lock from its file: what its text says or, if that cannot be understood, when
it was written. -/
def LockInfo.ofFile (text : String) (modified : Moment) : LockInfo :=
  match LockInfo.codec.parse text with
  | .ok info => info
  | .error _ => ⟨unknownHolder, modified⟩

/-- The lock at a location, if it is less than an hour old. -/
def Machine.respectedLock (m : Machine) (l : Location) : Option LockInfo :=
  match m.files.at? l with
  | some (.file _ (.text text) modified) =>
    let info := LockInfo.ofFile text modified
    if m.today.toNanos - info.acquiredAt.toNanos < 3600 * nanosPerSecond then some info else none
  | _ => none

/-- Less than one whole hour is less than an hour. -/
theorem Moment.hoursSince_lt (now since : Moment) : now.hoursSince since < staleLockHours ↔
    now.toNanos - since.toNanos < 3600 * nanosPerSecond := by
  have hmono {a b : Int} (h : a ≤ b) : Int.tdiv a (3600 * nanosPerSecond) ≤
      Int.tdiv b (3600 * nanosPerSecond) := Int.tdiv_le_tdiv (by decide) h
  constructor
  · intro hlt
    refine Int.not_le.1 fun hge => ?_
    exact absurd (hmono hge) (Int.not_le.2 hlt)
  · intro hlt
    exact Int.lt_of_le_of_lt (hmono (Int.le_sub_one_of_lt hlt)) (by decide)

namespace FileStore

/-- What is under the path of the lock is a text, if it is anything. -/
structure Lockable (s : FileStore) (d : Location) (m : Machine) : Prop where
  opens : m.Opens s.directory d
  text : ∀ n, m.files.at? (d ++ ["lock.json"]) = some n →
    ∃ id text modified, n = .file id (.text text) modified

theorem Lockable.ne_directory (h : s.Lockable d m) :
    m.files.at? (d ++ ["lock.json"]) ≠ some .directory := by
  intro hd
  obtain ⟨id, text, modified, hfile⟩ := h.text _ hd
  cases hfile

/-- The machine when the store has taken its lock. -/
def locked (s : FileStore) (d : Location) (m : Machine) : Machine :=
  (m.remove (d ++ ["lock.json"])).put (d ++ ["lock.json"])
    (LockInfo.codec.pretty ⟨s.holder, m.today⟩)

theorem Lockable.thinned (h : s.Lockable d m) (hm' : m.Thinned m') : s.Lockable d m' where
  opens := h.opens.mono hm'.workingDirectory fun _ => hm'.directory
  text n hn := by
    rcases hm'.at?_eq (d ++ ["lock.json"]) with heq | ⟨-, hnone⟩
    · exact h.text n (heq ▸ hn)
    · rw [hnone] at hn
      cases hn

section Taken

variable {id : FileId} {text : String} {modified : Moment}

/-- No lock is made where there is something. -/
theorem run_createLock_of_lock {n : FileNode} (h : m.Opens s.directory d)
    (hlock : m.files.at? (d ++ ["lock.json"]) = some n) (own : String) :
    m.run (s.createLock own) = (some (.error .alreadyExists), m) := by
  have hanswer : Machine.respond (.createNew s.lockPath) m = (.error .alreadyExists, m) := by
    rw [Machine.respond, Machine.createNew, lockPath, h.resolve_child isFileName_lock]
    simp only [Bind.bind, Except.bind, hlock]
    rfl
  rw [createLock, run_bind (run_ask _), hanswer]
  rfl

/-- Who holds a lock is read from it, or guessed from its date. -/
theorem run_lockHolder_of_lock (h : m.Opens s.directory d)
    (hlock : m.files.at? (d ++ ["lock.json"]) = some (.file id (.text text) modified)) :
    m.run s.lockHolder = (some (.ok (LockInfo.ofFile text modified)), m) := by
  have hfind := h.find_child isFileName_lock
  rw [hlock] at hfind
  have htext : Machine.respond (.readText s.lockPath) m = (.ok text, m) := by
    rw [Machine.respond, Machine.readText, lockPath, hfind]
    rfl
  have hmodified : Machine.respond (.modified s.lockPath) m = (.ok modified, m) := by
    rw [Machine.respond, Machine.modified, lockPath, hfind]
    rfl
  rw [lockHolder, run_bind (run_ask _), htext]
  simp only [LockInfo.ofFile]
  -- The date is asked for only where the text says nothing.
  cases LockInfo.codec.parse text with
  | ok info => rfl
  | error e =>
    simp only
    rw [run_bind (run_ask _), hmodified]
    rfl

/-- An abandoned lock is removed, and so there is room for another. -/
theorem run_takeOver_of_lock (h : m.Opens s.directory d)
    (hlock : m.files.at? (d ++ ["lock.json"]) = some (.file id (.text text) modified))
    (own : String) : m.run (s.takeOver own) =
      (some (.ok ⟨s.lockPath⟩), (m.remove (d ++ ["lock.json"])).put (d ++ ["lock.json"]) own) := by
  have hremove : Machine.respond (.removeFile s.lockPath) m =
      (.ok (), m.remove (d ++ ["lock.json"])) := h.respond_removeFile isFileName_lock hlock
  have hopens : (m.remove (d ++ ["lock.json"])).Opens s.directory d :=
    h.mono rfl fun k hk => by
      rw [Machine.at?_remove hlock, if_neg, hk]
      rintro rfl
      exact ne_directory_of_file hlock hk
  have hgone : (m.remove (d ++ ["lock.json"])).files.at? (d ++ ["lock.json"]) = none :=
    (Machine.at?_remove hlock _).trans (if_pos rfl)
  rw [takeOver, run_bind (run_ask _), hremove]
  simp only
  rw [run_bind (run_createLock hopens hgone _)]
  rfl

/-- What a try comes to while there is a lock. -/
theorem run_acquire_of_lock (h : s.Lockable d m)
    (hlock : m.files.at? (d ++ ["lock.json"]) = some (.file id (.text text) modified)) :
    m.run s.acquire =
      if m.today.hoursSince (LockInfo.ofFile text modified).acquiredAt < staleLockHours then
        (some (.error (.locked s.name (.held (LockInfo.ofFile text modified).holder
          (LockInfo.ofFile text modified).acquiredAt))), m)
      else (some (.ok ⟨s.lockPath⟩), s.locked d m) := by
  have hnow : m.run (ask .now) = (some m.today, m) := run_ask _
  rw [acquire, run_bind (run_ensureDirectory_of_opens h.opens)]
  simp only
  rw [run_bind hnow, run_bind (run_createLock_of_lock h.opens hlock _)]
  simp only
  rw [run_bind (run_lockHolder_of_lock h.opens hlock)]
  simp only
  rw [run_bind hnow]
  by_cases hyoung : m.today.hoursSince (LockInfo.ofFile text modified).acquiredAt < staleLockHours
  · rw [if_pos hyoung, if_pos hyoung]
    rfl
  · rw [if_neg hyoung, if_neg hyoung]
    exact run_takeOver_of_lock h.opens hlock _

end Taken

theorem run_acquire_of_respected (h : s.Lockable d m)
    (hrespected : m.respectedLock (d ++ ["lock.json"]) = some info) :
    m.run s.acquire = (some (.error (.locked s.name (.held info.holder info.acquiredAt))), m) := by
  rw [Machine.respectedLock] at hrespected
  split at hrespected
  · next hlock =>
    obtain ⟨hyoung, ⟨⟩⟩ := Option.ite_none_right_eq_some.1 hrespected
    rw [run_acquire_of_lock h hlock, if_pos ((Moment.hoursSince_lt _ _).2 hyoung)]
  · cases hrespected

theorem run_acquire_of_free (h : s.Lockable d m)
    (hfree : m.respectedLock (d ++ ["lock.json"]) = none) :
    m.run s.acquire = (some (.ok ⟨s.lockPath⟩), s.locked d m) := by
  cases hn : m.files.at? (d ++ ["lock.json"]) with
  | none =>
    rw [run_acquire (run_ensureDirectory_of_opens h.opens) h.opens hn, locked,
      Machine.remove_of_none (by simp) hn]
  | some n =>
    obtain ⟨id, text, modified, rfl⟩ := h.text n hn
    rw [Machine.respectedLock, hn] at hfree
    simp only [ite_eq_right_iff, reduceCtorEq, imp_false] at hfree
    rw [run_acquire_of_lock h hn, if_neg fun hyoung => hfree ((Moment.hoursSince_lt _ _).1 hyoung)]

/-! ## The lock that a call waits for -/

/-- The locks that are found at the first tries are respected. -/
def Respects (s : FileStore) (d : Location) (m : Machine) (n : Nat) : Prop :=
  ∀ k < n, ((m.waits s.lockRetry.interval k).respectedLock (d ++ ["lock.json"])).isSome

/-- While the locks that are found are respected, nothing happens but waits. -/
theorem run_lock_of_respects {n : Nat} (h : s.Lockable d m) (hrespects : s.Respects d m n)
    (hn : n < s.lockRetry.attempts) : m.run s.lock = (m.waits s.lockRetry.interval n).run
      (Retrier.attempt (ask (.wait s.lockRetry.interval)) "acquire state lock" s.acquire n
          (s.lockRetry.attempts - 1 - n) >>= fun result =>
        return result.mapError RetryError.lastError) := by
  have hfails (k : Nat) (hk : k < n) : ∃ e, (m.waits s.lockRetry.interval k).run s.acquire =
      (some (.error e), m.waits s.lockRetry.interval k) := by
    obtain ⟨info, hinfo⟩ := Option.isSome_iff_exists.1 (hrespects k hk)
    exact ⟨_, run_acquire_of_respected (h.thinned (Machine.thinned_waits m _ k).1) hinfo⟩
  have htries : m.run (Retrier.attempt (ask (.wait s.lockRetry.interval)) "acquire state lock"
      s.acquire 0 (n + (s.lockRetry.attempts - 1 - n))) = _ := Retrier.run_attempt hfails
  rw [Nat.add_sub_of_le (Nat.le_sub_one_of_lt hn), Nat.zero_add] at htries
  exact run_bind_congr htries _

/-- The lock is taken at the first try at which none is respected. -/
theorem run_lock_of_free {n : Nat} (h : s.Lockable d m) (hrespects : s.Respects d m n)
    (hn : n < s.lockRetry.attempts)
    (hfree : (m.waits s.lockRetry.interval n).respectedLock (d ++ ["lock.json"]) = none) :
    m.run s.lock = (some (.ok ⟨s.lockPath⟩), s.locked d (m.waits s.lockRetry.interval n)) := by
  have hacquire := run_acquire_of_free (h.thinned (Machine.thinned_waits m _ n).1) hfree
  rw [run_lock_of_respects h hrespects hn, run_bind (Retrier.run_attempt_of_ok hacquire)]
  rfl

/-- If there is no such try, it is the last one that tells what is the matter. -/
theorem run_lock_of_taken {info : LockInfo} (h : s.Lockable d m)
    (hrespects : s.Respects d m s.lockRetry.attempts)
    (hlast : (m.waits s.lockRetry.interval (s.lockRetry.attempts - 1)).respectedLock
      (d ++ ["lock.json"]) = some info) :
    m.run s.lock = (some (.error (.locked s.name (.held info.holder info.acquiredAt))),
      m.waits s.lockRetry.interval (s.lockRetry.attempts - 1)) := by
  have hn := Nat.sub_one_lt_of_lt s.lockRetry.attempts_pos
  have hacquire := run_acquire_of_respected (h.thinned (Machine.thinned_waits m _ _).1) hlast
  rw [run_lock_of_respects h (fun k hk => hrespects k (Nat.lt_trans hk hn)) hn, Nat.sub_self,
    Retrier.attempt, bind_assoc, run_bind hacquire]
  rfl

/-- There is a first try at which no lock is respected, or there is no such try. -/
theorem respects_or_exists_free (s : FileStore) (d : Location) (m : Machine) :
    s.Respects d m s.lockRetry.attempts ∨ ∃ n < s.lockRetry.attempts, s.Respects d m n ∧
      (m.waits s.lockRetry.interval n).respectedLock (d ++ ["lock.json"]) = none := by
  by_cases hfree : ∃ n < s.lockRetry.attempts,
      (m.waits s.lockRetry.interval n).respectedLock (d ++ ["lock.json"]) = none
  · obtain ⟨n, ⟨hn, hfree⟩, hfirst⟩ :
        ∃ n, (n < s.lockRetry.attempts ∧ (m.waits s.lockRetry.interval n).respectedLock
          (d ++ ["lock.json"]) = none) ∧ ∀ k < n, ¬ (k < s.lockRetry.attempts ∧
            (m.waits s.lockRetry.interval k).respectedLock (d ++ ["lock.json"]) = none) :=
      ⟨_, Nat.find_spec hfree, fun _ => Nat.find_min hfree⟩
    refine .inr ⟨n, hn, fun k hk => Option.isSome_iff_ne_none.2 fun hnone => ?_, hfree⟩
    exact hfirst k hk ⟨Nat.lt_trans hk hn, hnone⟩
  · exact .inl fun k hk => Option.isSome_iff_ne_none.2 fun hnone => hfree ⟨k, hk, hnone⟩

/-- What a call comes to that does something with the lock held. -/
inductive TakesTurn (s : FileStore) (d : Location) (m : Machine)
    (action : FileDialogue (Except FileFault Unit)) :
    Option (Except StoreError Unit) × Machine → Prop
  /-- At every try there was a lock that was respected, and nothing has happened but waits. -/
  | turnedAway {info : LockInfo} (hrespects : s.Respects d m s.lockRetry.attempts)
    (hlast : (m.waits s.lockRetry.interval (s.lockRetry.attempts - 1)).respectedLock
      (d ++ ["lock.json"]) = some info) :
    TakesTurn s d m action (some (.error (.locked s.name (.held info.holder info.acquiredAt))),
      m.waits s.lockRetry.interval (s.lockRetry.attempts - 1))
  /-- The first try at which there was no such lock had the lock, and then it was let go of. -/
  | carriedOut {n : Nat} {result : Except FileFault Unit} {m₁ m' : Machine}
    (hrespects : s.Respects d m n) (hn : n < s.lockRetry.attempts)
    (hfree : (m.waits s.lockRetry.interval n).respectedLock (d ++ ["lock.json"]) = none)
    (hrun : (s.locked d (m.waits s.lockRetry.interval n)).run action = (some result, m₁))
    (hgone : m'.files.at? (d ++ ["lock.json"]) = none)
    (hrest : m' = m₁.remove (d ++ ["lock.json"])) :
    TakesTurn s d m action (some (result.mapError .files), m')

/-- The path of the lock leads to a file in its place, or to nothing if there is nothing. -/
def FindsLock (s : FileStore) (d : Location) (m : Machine) : Prop :=
  (∃ id content modified, m.find s.lockPath =
      .ok (d ++ ["lock.json"], .file id content modified)) ∨
    (∃ e, m.find s.lockPath = .error e) ∧ m.files.at? (d ++ ["lock.json"]) = none

/-- A lock that is let go of is there no more. -/
theorem run_letGo (h : s.FindsLock d m) :
    m.run (StoreLock.drop ⟨s.lockPath⟩) = (some (), m.remove (d ++ ["lock.json"])) ∧
      m.run (StoreLock.release ⟨s.lockPath⟩) =
        (some (.ok ()), m.remove (d ++ ["lock.json"])) := by
  have hne : d ++ ["lock.json"] ≠ [] := by simp
  rcases h with ⟨id, content, modified, hfind⟩ | ⟨⟨e, hfind⟩, hnone⟩
  · have hexists : m.run (pathExists s.lockPath) = (some true, m) := by
      rw [run_pathExists, hfind]
      rfl
    have hremove : m.run (ask (.removeFile s.lockPath)) =
        (some (.ok ()), m.remove (d ++ ["lock.json"])) := by
      rw [run_ask, Machine.respond, Machine.removeFile, hfind]
      rfl
    refine ⟨?_, run_release_of_find hfind⟩
    rw [StoreLock.drop, run_bind hexists]
    simp only [if_true]
    rw [run_bind hremove]
    rfl
  · have hexists : m.run (pathExists s.lockPath) = (some false, m) := by
      rw [run_pathExists, hfind]
      rfl
    rw [Machine.remove_of_none hne hnone]
    refine ⟨?_, run_release_of_error hfind⟩
    rw [StoreLock.drop, run_bind hexists]
    rfl

/-- A call waits for the lock and lets go of it, if what it does with the lock held neither moves
the lock nor hides it. -/
theorem takesTurn_whileLocked {action : FileDialogue (Except FileFault Unit)}
    (h : s.Lockable d m)
    (haction : ∀ n, ∃ result m₁, (s.locked d (m.waits s.lockRetry.interval n)).run action =
      (some result, m₁) ∧ s.FindsLock d m₁) :
    s.TakesTurn d m action (m.run (s.whileLocked action)) := by
  rcases respects_or_exists_free s d m with hrespects | ⟨n, hn, hrespects, hfree⟩
  · obtain ⟨info, hinfo⟩ := Option.isSome_iff_exists.1
      (hrespects _ (Nat.sub_one_lt_of_lt s.lockRetry.attempts_pos))
    rw [whileLocked, run_bind (run_lock_of_taken h hrespects hinfo)]
    exact .turnedAway hrespects hinfo
  · obtain ⟨result, m₁, hrun, hfinds⟩ := haction n
    -- Whether the action succeeds or not, the lock is removed.
    obtain ⟨hdrop, hrelease⟩ := run_letGo hfinds
    have hgone : (m₁.remove (d ++ ["lock.json"])).files.at? (d ++ ["lock.json"]) = none :=
      (FileTree.at?_erase (by simp) _).trans (if_pos rfl)
    have hcall : m.run (s.whileLocked action) =
        (some (result.mapError .files), m₁.remove (d ++ ["lock.json"])) := by
      rw [whileLocked, run_bind (run_lock_of_free h hrespects hn hfree)]
      simp only
      rw [run_bind hrun]
      cases result with
      | error e =>
        simp only
        rw [run_bind hdrop]
        rfl
      | ok => exact hrelease
    rw [hcall]
    exact .carriedOut hrespects hn hfree hrun hgone rfl

end FileStore

/-! ## What is done with the lock held -/

/-- A request to replace the document of a store. -/
inductive FileRequest.Rewrites (s : FileStore) : FileRequest → Prop
  | look (p : Path) : Rewrites s (.isDirectory p)
  | clear : Rewrites s (.removeFile s.backupPath)
  | setAside : Rewrites s (.rename s.documentPath s.backupPath)
  | renew : Rewrites s (.createEmpty s.documentPath)
  | fill (id : FileId) (text : String) : Rewrites s (.write id text)

namespace FileStore

open FileRequest (Rewrites)

section Rewrites

variable {P : ∀ {α : Type}, FileDialogue α → Prop}

/-- What each request to replace the document has, moving the document aside has. -/
theorem rotate_of_rewrites (h : Dialogue.Composes P) (hask : ∀ r, Rewrites s r → P (ask r)) :
    P s.rotate := by
  have hexists (p : Path) : P (pathExists p) := h.bind (hask _ (.look p)) fun _ => h.pure _
  refine h.bind (hexists s.documentPath) fun found => ?_
  cases found with
  | false => exact h.pure _
  | true =>
    refine h.bind (hexists s.backupPath) fun found => ?_
    cases found with
    | false => exact hask _ .setAside
    | true =>
      refine h.bind (hask _ .clear) fun answer => ?_
      cases answer with
      | error e => exact h.pure _
      | ok => exact hask _ .setAside

/-- What each request to replace the document has, replacing it has. -/
theorem keep_of_rewrites (h : Dialogue.Composes P) (hask : ∀ r, Rewrites s r → P (ask r))
    (c : Cluster) : P (s.keep c) := by
  refine h.bind (rotate_of_rewrites h hask) fun answer => ?_
  cases answer with
  | error e => exact h.pure _
  | ok =>
    refine h.bind (hask _ .renew) fun answer => ?_
    cases answer with
    | error e => exact h.pure _
    | ok id => exact hask _ (.fill id _)

end Rewrites

/-- The lock of a store is there, and the way to it does not lead through the document. -/
structure Secured (s : FileStore) (d : Location) (m : Machine) : Prop where
  wellFormed : m.files.WellFormed
  opens : (m.cut (d ++ ["cluster.json"])).Opens s.directory d
  lock : ∃ id content modified,
    m.files.at? (d ++ ["lock.json"]) = some (.file id content modified)

namespace Secured

theorem now_opens (h : s.Secured d m) : m.Opens s.directory d :=
  h.opens.mono rfl fun _ hk => ((Machine.at?_cut_eq_some_iff (by simp)).1 hk).2

theorem findsLock (h : s.Secured d m) : s.FindsLock d m := by
  obtain ⟨id, content, modified, hlock⟩ := h.lock
  refine .inl ⟨id, content, modified, ?_⟩
  rw [lockPath, h.now_opens.find_child isFileName_lock, hlock]

/-- What happens to the document does not matter. -/
theorem of_agree (h : s.Secured d m) (hm' : m'.files.WellFormed)
    (hcwd : m'.workingDirectory = m.workingDirectory)
    (hkeep : ∀ k, ¬ d ++ ["cluster.json"] <+: k → m.files.at? k = some .directory →
      m'.files.at? k = some .directory)
    (hlock : m'.files.at? (d ++ ["lock.json"]) = m.files.at? (d ++ ["lock.json"])) :
    s.Secured d m' where
  wellFormed := hm'
  opens := h.opens.mono hcwd fun k hk => by
    rw [Machine.at?_cut_eq_some_iff (by simp)] at hk ⊢
    exact ⟨hk.1, hkeep k hk.1 hk.2⟩
  lock := hlock ▸ h.lock

theorem clear (h : s.Secured d m) (hok : m.removeFile s.backupPath = .ok m') :
    s.Secured d m' := by
  obtain ⟨l, id, content, modified, hfind, rfl⟩ := Machine.eq_ok_of_removeFile hok
  obtain ⟨hresolve, hfile⟩ := Machine.eq_ok_of_find hfind
  obtain rfl := Except.ok.inj (hresolve.symm.trans (h.now_opens.resolve_child isFileName_backup))
  have hne := ne_directory_of_file hfile
  refine h.of_agree (h.wellFormed.erase (by simp) (h.wellFormed.at?_child hne)) rfl
    (fun k _ hk => ?_) ((Machine.at?_remove hfile _).trans (if_neg (by simp)))
  rw [Machine.at?_remove hfile, if_neg, hk]
  rintro rfl
  exact hne hk

/-- Wherever the document is a directory, it takes its place as the backup with all that is in it,
and nothing else moves. -/
theorem setAside (h : s.Secured d m) (hok : m.rename s.documentPath s.backupPath = .ok m') :
    s.Secured d m' := by
  obtain ⟨l, n, k, hfind, hresolve', rfl, hempty⟩ := Machine.eq_ok_of_rename hok
  obtain ⟨hresolve, hn⟩ := Machine.eq_ok_of_find hfind
  obtain rfl := Except.ok.inj (hresolve.symm.trans (h.now_opens.resolve_child isFileName_document))
  obtain rfl := Except.ok.inj (hresolve'.symm.trans (h.now_opens.resolve_child isFileName_backup))
  have hbelow := Machine.at?_child_of_rename h.wellFormed hempty
  have hapart : ¬ d ++ ["cluster.json"] <+: d ++ ["cluster.json.backup"] :=
    FileTree.not_prefix_of_ne d (by simp)
  have hne : d ++ ["cluster.json"] ≠ [] := by simp
  have hat := h.wellFormed.at?_move hne (by simp) hbelow
  refine h.of_agree (h.wellFormed.move (by simp) h.now_opens.directory isFileName_backup hbelow
    hapart) rfl (fun k hk hd => ?_) ?_
  · refine (hat k).trans ?_
    by_cases hbackup : d ++ ["cluster.json.backup"] <+: k
    · -- The directory that is there is empty, and another takes its place.
      obtain ⟨rest, rfl⟩ := hbackup
      cases rest with
      | nil =>
        rw [List.append_nil] at hd ⊢
        rw [if_pos (List.prefix_refl _), List.drop_length, List.append_nil, hn, (hempty hd).1]
      | cons name rest =>
        rw [h.wellFormed.at?_below hbelow (List.cons_ne_nil _ _)] at hd
        cases hd
    · rw [if_neg hbackup, if_neg hk, hd]
  · refine (hat _).trans ?_
    rw [if_neg, if_neg] <;> exact FileTree.not_prefix_of_ne d (by simp)

theorem renew (h : s.Secured d m) {id : FileId}
    (hok : m.createEmpty s.documentPath = .ok (id, m')) : s.Secured d m' := by
  obtain ⟨l, hresolve, hne, hcwd, hfiles, -⟩ := Machine.eq_insert_of_createEmpty hok
  obtain rfl := Except.ok.inj (hresolve.symm.trans (h.now_opens.resolve_child isFileName_document))
  have hat (k : Location) : m'.files.at? k = _ :=
    hfiles ▸ FileTree.at?_insert (List.concat_ne_nil _ d) k
  refine h.of_agree ?_ hcwd (fun k hk hd => ?_) ((hat _).trans (if_neg (by simp)))
  · rw [hfiles]
    exact h.wellFormed.insert h.now_opens.directory isFileName_document hne _
  · rw [hat, if_neg, hd]
    rintro rfl
    exact hk (List.prefix_refl _)

theorem fill (h : s.Secured d m) (id : FileId) (content : Content) (now : Moment) :
    s.Secured d { m with files := m.files.fill id content now } where
  wellFormed := h.wellFormed.fill id content now
  opens := h.opens.mono rfl fun k hk => by
    rw [Machine.at?_cut_eq_some_iff (by simp)] at hk ⊢
    refine ⟨hk.1, ?_⟩
    rw [FileTree.at?_fill, hk.2]
    rfl
  lock := by
    obtain ⟨id', content', modified, hlock⟩ := h.lock
    simp only [FileTree.at?_fill, hlock, Option.map_some]
    split <;> exact ⟨_, _, _, rfl⟩

/-- Whatever comes of a request to replace the document, the lock stays where it is. -/
theorem respond (h : s.Secured d m) {r : FileRequest} (hr : Rewrites s r) :
    s.Secured d (Machine.respond r m).2 := by
  cases hr with
  | look p => exact h
  | clear =>
    rw [Machine.respond]
    cases hok : m.removeFile s.backupPath with
    | error e => exact h
    | ok m' => exact h.clear hok
  | setAside =>
    rw [Machine.respond]
    cases hok : m.rename s.documentPath s.backupPath with
    | error e => exact h
    | ok m' => exact h.setAside hok
  | renew =>
    rw [Machine.respond]
    cases hok : m.createEmpty s.documentPath with
    | error e => exact h
    | ok x => exact h.renew hok
  | fill id text => exact h.fill id _ _

/-- A commit comes to something without losing sight of the lock. -/
theorem keep (h : s.Secured d m) (c : Cluster) :
    ∃ result m', m.run (s.keep c) = (some result, m') ∧ s.FindsLock d m' := by
  have hunbroken : (s.keep c).Unbroken :=
    keep_of_rewrites Dialogue.composes_unbroken (fun r _ => Dialogue.unbroken_question r) c
  have hasks : (s.keep c).Asks (Rewrites s) :=
    keep_of_rewrites Dialogue.composes_asks (fun _ => Dialogue.asks_question) c
  obtain ⟨result, hresult⟩ : ∃ result, (m.run (s.keep c)).1 = some result :=
    hunbroken.exists_run m
  have hkept : s.Secured d (m.run (s.keep c)).2 :=
    Machine.run_of_asks (I := s.Secured d) hasks (fun _ _ hr hm => hm.respond hr) h
  exact ⟨result, _, Prod.ext hresult rfl, hkept.findsLock⟩

end Secured

/-- A lock that is taken is there, and the directories are as before. -/
theorem locked_spec (m : Machine) :
    (∃ id content modified,
      (s.locked d m).files.at? (d ++ ["lock.json"]) = some (.file id content modified)) ∧
      ∀ k, k ≠ d ++ ["lock.json"] → m.files.at? k = some .directory →
        (s.locked d m).files.at? k = some .directory := by
  have hne : d ++ ["lock.json"] ≠ [] := by simp
  have hat (k : Location) : (s.locked d m).files.at? k = _ := FileTree.at?_fill _ _ _ _ k
  simp only [Machine.addFile, FileTree.at?_insert hne] at hat
  refine ⟨?_, fun k hk hd => ?_⟩
  · simp only [hat, if_true, Option.map_some]
    exact ⟨_, _, _, rfl⟩
  · rw [hat, if_neg hk, Machine.remove, FileTree.at?_erase hne, if_neg hk, hd]
    rfl

/-- There may be a commit to a store in a directory: the way there does not lead through the place
of the document, and what is under the path of the lock is a text, if it is anything. -/
structure Ready (s : FileStore) (d : Location) (m : Machine) : Prop where
  wellFormed : m.files.WellFormed
  opens : (m.cut (d ++ ["cluster.json"])).Opens s.directory d
  text : ∀ n, m.files.at? (d ++ ["lock.json"]) = some n →
    ∃ id text modified, n = .file id (.text text) modified

namespace Ready

theorem lockable (h : s.Ready d m) : s.Lockable d m where
  opens := h.opens.mono rfl fun _ hk => ((Machine.at?_cut_eq_some_iff (by simp)).1 hk).2
  text := h.text

theorem thinned (h : s.Ready d m) (hm' : m.Thinned m') : s.Ready d m' where
  wellFormed := hm'.wellFormed h.wellFormed
  opens := h.opens.mono hm'.workingDirectory fun k hk => by
    rw [Machine.at?_cut_eq_some_iff (by simp)] at hk ⊢
    exact ⟨hk.1, hm'.directory hk.2⟩
  text := (h.lockable.thinned hm').text

/-- A store that has taken its lock keeps sight of it. -/
theorem secured (h : s.Ready d m) : s.Secured d (s.locked d m) := by
  obtain ⟨hlock, hkeep⟩ := locked_spec (s := s) (d := d) m
  have hne : d ++ ["lock.json"] ≠ [] := by simp
  have hd := h.lockable.opens.directory
  have hfile := h.lockable.ne_directory
  have hremoved : (m.remove (d ++ ["lock.json"])).files.WellFormed :=
    h.wellFormed.erase hne (h.wellFormed.at?_child hfile)
  have hat (k : Location) : (m.remove (d ++ ["lock.json"])).files.at? k = _ :=
    FileTree.at?_erase hne k
  refine ⟨(hremoved.insert ?_ isFileName_lock ?_ _).fill _ _ _, h.opens.mono rfl fun k hk => ?_,
    hlock⟩
  · rw [hat, if_neg (by simp), hd]
  · exact ne_directory_of_none ((hat _).trans (if_pos rfl))
  · rw [Machine.at?_cut_eq_some_iff (by simp)] at hk ⊢
    refine ⟨hk.1, hkeep k ?_ hk.2⟩
    rintro rfl
    exact hfile hk.2

end Ready

/-- A directory that is removed takes the lock with it. -/
theorem findsLock_removeDirectory (h : m.Enters s.directory d) :
    s.FindsLock d (m.removeDirectory s.directory).1 := by
  have hgone : (m.removeDirectory s.directory).1.files.at? (d ++ ["lock.json"]) = none := by
    refine Option.eq_none_iff_forall_ne_some.2 fun n hn => ?_
    have hbelow : FileTree.isBelow (d ++ ["lock.json"]) d = true :=
      FileTree.isBelow_iff.2 ⟨List.prefix_append _ _, by simp⟩
    exact absurd hbelow (Bool.eq_false_iff.1 (h.of_removeDirectory hn).1)
  have hcwd : m.workingDirectory = (m.removeDirectory s.directory).1.workingDirectory := by
    rcases h.removeDirectory with heq | heq <;> rw [heq] <;> rfl
  refine .inr ⟨?_, hgone⟩
  cases hfind : (m.removeDirectory s.directory).1.find s.lockPath with
  | error e => exact ⟨e, rfl⟩
  | ok x =>
    -- The path could lead to nothing else than the place of the lock.
    obtain ⟨l, n⟩ := x
    obtain ⟨hresolve, hn⟩ := Machine.eq_ok_of_find hfind
    have hbefore : m.resolve s.lockPath = .ok l :=
      Machine.resolve_mono hcwd (fun k hk => (h.of_removeDirectory hk).2) hresolve
    obtain rfl := Except.ok.inj (hbefore.symm.trans (h.resolve_child isFileName_lock))
    rw [hgone] at hn
    cases hn

/-- Making the directory of a cluster changes no file. -/
theorem file_ensureDirectory (m : Machine) (l : Location) (id : FileId) (content : Content)
    (modified : Moment) :
    (m.run s.ensureDirectory).2.files.at? l = some (.file id content modified) ↔
      m.files.at? l = some (.file id content modified) := by
  refine Machine.run_of_asks (I := fun m' : Machine =>
    m'.files.at? l = some (.file id content modified) ↔
      m.files.at? l = some (.file id content modified)) paves_ensureDirectory
    (fun r m₁ hr hm₁ => ?_) Iff.rfl
  cases hr with
  | look p => exact hm₁
  | make hq =>
    rw [Machine.respond]
    cases hok : m₁.makeDirectory _ with
    | error e => exact hm₁
    | ok m₂ =>
      obtain ⟨k, -, hnone, rfl⟩ := Machine.eq_ok_of_makeDirectory hok
      rw [← hm₁]
      have hat := FileTree.at?_insert (t := m₁.files) (n := .directory)
        (Machine.ne_nil_of_at? (ne_directory_of_none hnone)) l
      refine (Eq.congr_left hat).trans ?_
      by_cases hl : l = k
      · subst hl
        simp [hnone]
      · rw [if_neg hl]

theorem run_whileLocked_congr {action : FileDialogue (Except FileFault Unit)}
    (hrun : m.run s.ensureDirectory = (some (.ok ()), m₁)) (h : m₁.Opens s.directory d) :
    m.run (s.whileLocked action) = m₁.run (s.whileLocked action) := by
  have hacquire : m.run s.acquire = m₁.run s.acquire := by
    rw [acquire, run_bind hrun, run_bind (run_ensureDirectory_of_opens h)]
  refine run_bind_congr (run_bind_congr ?_ _) _
  rw [Retrier.run]
  cases s.lockRetry.attempts - 1 <;> exact run_bind_congr hacquire _

/-- A commit to a store and a removal of what is there wait for the lock: at every try at which
there is one that is less than an hour old they do nothing but wait, and behind the last of them
they give up; at the first try at which there is none they do their work, and when they are done
there is no lock. A document of another cluster changes nothing. -/
theorem calls_take_turns (s : FileStore) :
    (∀ (m : Machine) (c : Cluster), c.name ≠ s.name →
      m.run (s.commit c) = (some (.error (.nameMismatch s.name c.name)), m)) ∧
    (∀ (m m₁ : Machine) (d : Location) (c : Cluster), c.name = s.name →
      m.run s.ensureDirectory = (some (.ok ()), m₁) → s.Ready d m₁ →
      (∀ l id content modified, m₁.files.at? l = some (.file id content modified) ↔
        m.files.at? l = some (.file id content modified)) ∧
      s.TakesTurn d m₁ (s.keep c) (m.run (s.commit c))) ∧
    (∀ (m : Machine) (d : Location), m.Enters s.directory d → s.Lockable d m →
      s.TakesTurn d m (ask (.removeDirectory s.directory)) (m.run s.destroy)) ∧
    ∀ (m : Machine) (t : Duration) (n : Nat),
      m.Thinned (m.waits t n) ∧ (m.waits t n).clock = m.clock + n * t.waitMillis := by
  refine ⟨fun m c => run_commit_of_ne, fun m m₁ d c hname hrun hready => ⟨?_, ?_⟩,
    fun m d henters hlockable => ?_, Machine.thinned_waits⟩
  · intro l id content modified
    have hfile := file_ensureDirectory (s := s) m l id content modified
    rw [hrun] at hfile
    exact hfile
  · rw [commit_eq hname, run_whileLocked_congr hrun hready.lockable.opens]
    exact takesTurn_whileLocked hready.lockable fun n =>
      ((hready.thinned (Machine.thinned_waits m₁ _ n).1).secured).keep c
  · rw [run_destroy_of_enters henters]
    refine takesTurn_whileLocked hlockable fun n => ⟨_, _, run_ask _, ?_⟩
    have hthinned := (Machine.thinned_waits m s.lockRetry.interval n).1
    refine findsLock_removeDirectory ((hthinned.enters henters).mono rfl fun k hk => ?_)
    refine (locked_spec _).2 k ?_ hk
    rintro rfl
    exact (hlockable.thinned hthinned).ne_directory hk

end FileStore

/-! ## A lock that is waited for, and one that is left behind -/

namespace busyStore

/-- A machine without files. -/
def empty : Machine := { today := ⟨0, 0⟩ }

/-- The place of the lock. -/
def lock : Location := ["clusters", "demo", "lock.json"]

/-- A store that tries three times. -/
def store : FileStore where
  root := { parts := ["clusters"] }
  name := "demo"
  holder := "host"
  lockRetry := .of 3 (.ofMillis 100)

/-- A machine on which another has begun to write the lock and will be gone before the third try. -/
def machine : Machine :=
  { ((empty.addDirectory ["clusters"]).addDirectory ["clusters", "demo"]).put lock "" with
    removals := [(150, store.lockPath)] }

/-- A cluster. -/
def demo : Cluster := { name := "demo", cloud := "fake" }

theorem ready : store.Ready ["clusters", "demo"] machine := by
  have hclusters : IsFileName "clusters" := by constructor <;> decide
  have hdemo : IsFileName "demo" := by constructor <;> decide
  have hempty : empty.Sound := Machine.sound_of_empty rfl rfl
  have hroot : (empty.addDirectory ["clusters"]).Sound :=
    hempty.addDirectory (d := []) rfl hclusters (by decide)
  have hplace : ((empty.addDirectory ["clusters"]).addDirectory ["clusters", "demo"]).Sound :=
    hroot.addDirectory (d := ["clusters"]) (by decide) hdemo (by decide)
  have hlock := hplace.put (d := ["clusters", "demo"]) (by decide) isFileName_lock (by decide) ""
  have hat : machine.files.at? (["clusters", "demo"] ++ ["lock.json"]) =
      some (.file 0 (.text "") ⟨0, 0⟩) := by decide
  refine ⟨hlock.wellFormed, Machine.Enters.opens ⟨by decide +kernel, by decide⟩, fun n hn => ?_⟩
  exact ⟨0, "", ⟨0, 0⟩, (Option.some.inj (hat.symm.trans hn)).symm⟩

theorem enters : machine.Enters store.directory ["clusters", "demo"] :=
  ⟨by decide +kernel, by decide⟩

/-- Two tries find the lock, and the third finds none. -/
theorem calls_wait :
    machine.run (store.commit { demo with name := "other" }) =
      (some (.error (.nameMismatch "demo" "other")), machine) ∧
    store.TakesTurn ["clusters", "demo"] machine (store.keep demo)
      (machine.run (store.commit demo)) ∧
    store.TakesTurn ["clusters", "demo"] machine (ask (.removeDirectory store.directory))
      (machine.run store.destroy) ∧
    store.Respects ["clusters", "demo"] machine 2 ∧
    (machine.waits store.lockRetry.interval 2).respectedLock lock = none := by
  obtain ⟨hother, hcommit, hdestroy, -⟩ := FileStore.calls_take_turns store
  refine ⟨hother machine _ (by decide), ?_, hdestroy machine _ enters ready.lockable, ?_, ?_⟩
  · exact (hcommit machine machine _ demo rfl
      (FileStore.run_ensureDirectory_of_opens ready.lockable.opens) ready).2
  · unfold FileStore.Respects
    decide +kernel
  · decide +kernel

/-- A store whose path leads through the place of its own document. -/
def winding : FileStore := { store with name := "demo/cluster.json/.." }

/-- When the document has been moved, the path of the lock leads nowhere, and the lock is left
behind. -/
theorem lock_left_behind :
    (empty.run winding.ensureDirectory).2.resolve winding.lockPath = .ok lock ∧
      (empty.run (winding.commit { demo with name := "demo/cluster.json/.." })).1 =
        some (.error (.files .notFound)) ∧
      ((empty.run (winding.commit { demo with name := "demo/cluster.json/.." })).2.files.at?
        lock).isSome = true := by
  decide +kernel

end busyStore

end ClusterKeeper
