/-
# A store in files

Each cluster has a directory of its own with its document, the document before that one, and
a lock for as long as someone writes. A lock that is an hour old is taken to be abandoned.
Every operation is a program of single steps on files, so that it can be looked at between
any two of them.
-/

import ClusterKeeper.Calendar.Reading
import ClusterKeeper.Cluster.Document
import ClusterKeeper.Files.Request
import ClusterKeeper.Retry.Retrier
import ClusterKeeper.Store.Error

namespace ClusterKeeper

open Json FileDialogue

/-! ## What a lock says -/

/-- Who holds a lock, and since when. -/
structure LockInfo where
  holder : String
  acquiredAt : Moment
  deriving DecidableEq, Repr

/-- Moments in documents. -/
def Moment.codec : Codec Moment where
  read cs := do
    let (text, rest) ← Codec.readString "a formatted date and time string or a unix timestamp" cs
    match parse? text with
    | some m => return (m, rest)
    | none => .error .malformed
  tree m := .string m.stamp

/-- The document of a lock. -/
def LockInfo.codec : Codec LockInfo :=
  .record "LockInfo"
    (.cons "holder" .string .never (.cons "acquired_at" Moment.codec .never .nil))
    (fun (holder, acquiredAt, _) => { holder, acquiredAt })
    (fun i => (i.holder, i.acquiredAt, ()))

/-- The age in hours from which on a lock is taken to be abandoned. -/
def staleLockHours : Int := 1

/-- Who is said to hold a lock that cannot be read. -/
def unknownHolder : String := "an unknown holder"

/-! ## Stores -/

/-- A store of documents for one cluster among those below a root. -/
structure FileStore where
  root : Path
  name : String
  /-- Who holds the locks that this store takes. -/
  holder : String
  lockRetry : Retrier := .of 1 .zero
  deriving DecidableEq

/-- A lock that is held. -/
structure StoreLock where
  path : Path
  deriving DecidableEq

namespace StoreLock

/-- Lets go of a lock without a word if that fails. -/
def drop (l : StoreLock) : FileDialogue Unit := do
  if ← pathExists l.path then
    let _ ← ask (.removeFile l.path)

/-- Lets go of a lock. If that fails it is tried once more. -/
def release (l : StoreLock) : FileDialogue (Except StoreError Unit) := do
  if ← pathExists l.path then
    match ← ask (.removeFile l.path) with
    | .ok () => return .ok ()
    | .error e =>
      l.drop
      return .error (.files e)
  else return .ok ()

end StoreLock

namespace FileStore

variable (s : FileStore)

/-- The directory of the cluster. -/
def directory : Path := s.root.join s.name

/-- The document. -/
def documentPath : Path := s.directory.child "cluster.json"

/-- The document before the last commit. -/
def backupPath : Path := s.directory.child "cluster.json.backup"

/-- The lock. -/
def lockPath : Path := s.directory.child "lock.json"

/-! ## Locking -/

/-- Makes the directory of the cluster if it is missing. -/
def ensureDirectory : FileDialogue (Except FileFault Unit) := do
  if ← pathExists s.directory then return .ok () else makeDirectories s.directory

/-- Makes a file with a text where there is none. -/
def createLock (text : String) : FileDialogue (Except FileFault Unit) := do
  match ← ask (.createNew s.lockPath) with
  | .error e => return .error e
  | .ok id => ask (.write id text)

/-- Who holds the lock that is there. A lock that cannot be understood, or is still being
written, is dated by its file. -/
def lockHolder : FileDialogue (Except StoreError LockInfo) := do
  match ← ask (.readText s.lockPath) with
  -- Its holder let go of it in the meantime.
  | .error .notFound => return .error (.locked s.name .changedHands)
  | .error e => return .error (.files e)
  | .ok text =>
    match LockInfo.codec.parse text with
    | .ok info => return .ok info
    | .error _ =>
      match ← ask (.modified s.lockPath) with
      | .error e => return .error (.files e)
      | .ok modified => return .ok ⟨unknownHolder, modified⟩

/-- Takes an abandoned lock away and puts another in its place. -/
def takeOver (text : String) : FileDialogue (Except StoreError StoreLock) := do
  match ← ask (.removeFile s.lockPath) with
  | .ok () | .error .notFound =>
    match ← s.createLock text with
    | .ok () => return .ok ⟨s.lockPath⟩
    -- Someone else was quicker.
    | .error .alreadyExists => return .error (.locked s.name .takenOver)
    | .error e => return .error (.files e)
  | .error e => return .error (.files e)

/-- Tries to take the lock. -/
def acquire : FileDialogue (Except StoreError StoreLock) := do
  match ← s.ensureDirectory with
  | .error e => return .error (.files e)
  | .ok () =>
    -- The text of the lock is dated before it is known whether the lock is free.
    let text := LockInfo.codec.pretty ⟨s.holder, ← ask .now⟩
    match ← s.createLock text with
    | .ok () => return .ok ⟨s.lockPath⟩
    | .error .alreadyExists =>
      match ← s.lockHolder with
      | .error e => return .error e
      | .ok info =>
        let now ← ask .now
        if now.hoursSince info.acquiredAt < staleLockHours then
          return .error (.locked s.name (.held info.holder info.acquiredAt))
        else s.takeOver text
    | .error e => return .error (.files e)

/-- Takes the lock, and tries again as often as the store is told to. -/
def lock : FileDialogue (Except StoreError StoreLock) := do
  let result ← s.lockRetry.run (fun d => ask (.wait d)) "acquire state lock" s.acquire
  return result.mapError RetryError.lastError

/-! ## Documents -/

/-- The document in a file. It must not be of a version to come. -/
def readDocument (p : Path) : FileDialogue (Except StoreError Cluster) := do
  if ← pathExists p then
    match ← ask (.readText p) with
    | .error e => return .error (.files e)
    | .ok text =>
      match Cluster.parse text with
      | .error e => return .error (.malformed e)
      | .ok c =>
        match c.checkVersion with
        | .error e => return .error (.unusable e)
        | .ok () => return .ok c
  else return .error (.notFound s.name)

/-- Whether there is a document, as far as can be told. -/
def hasDocument : FileDialogue Bool := pathExists s.documentPath

/-- The document. -/
def get : FileDialogue (Except StoreError Cluster) := s.readDocument s.documentPath

/-- The document before the last commit. -/
def getBackup : FileDialogue (Except StoreError Cluster) := s.readDocument s.backupPath

/-- Moves the document to the place of the one before it. -/
def rotate : FileDialogue (Except FileFault Unit) := do
  if ← pathExists s.documentPath then
    let cleared ←
      if ← pathExists s.backupPath then ask (.removeFile s.backupPath) else pure (.ok ())
    match cleared with
    | .error e => return .error e
    | .ok () => ask (.rename s.documentPath s.backupPath)
  else return .ok ()

/-- Does something on files with the lock held, and lets go of it in any case. -/
def whileLocked (action : FileDialogue (Except FileFault Unit)) :
    FileDialogue (Except StoreError Unit) := do
  match ← s.lock with
  | .error e => return .error e
  | .ok l =>
    match ← action with
    | .error e =>
      l.drop
      return .error (.files e)
    | .ok () => l.release

/-- Keeps a document, which has to be of the cluster of the store. -/
def commit (c : Cluster) : FileDialogue (Except StoreError Unit) := do
  if c.name ≠ s.name then return .error (.nameMismatch s.name c.name)
  else
    s.whileLocked do
      -- Stopped behind this step, the former document is left under the backup path.
      match ← s.rotate with
      | .error e => return .error e
      | .ok () => writeFile s.documentPath c.pretty

/-- Removes all that is kept of the cluster. -/
def destroy : FileDialogue (Except StoreError Unit) := do
  match ← pathExists? s.directory with
  | .error e => return .error (.files e)
  | .ok false => return .ok ()
  | .ok true => s.whileLocked (ask (.removeDirectory s.directory))

/-- The names of all clusters below the root that have documents, in order. -/
def list : FileDialogue (Except StoreError (List String)) := do
  match ← pathExists? s.root with
  | .error e => return .error (.files e)
  | .ok false => return .ok []
  | .ok true =>
    match ← ask (.list s.root) with
    | .error e => return .error (.files e)
    | .ok names =>
      let held ← names.filterM fun name =>
        leadsToFile ((s.root.child name).child "cluster.json")
      return .ok (held.mergeSort fun a b => a ≤ b)

end FileStore

end ClusterKeeper
