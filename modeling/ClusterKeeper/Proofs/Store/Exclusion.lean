/-
# Processes that share a store

Several processes work on one machine, each with a store of its own for the same cluster, and take
their steps in any order while time goes on. A lock that is removed by a process that has found it
abandoned must be the one that it has looked at, and nobody may make a lock where another has
removed the directory and is about to let go: as long as that is so, and nobody holds a lock for an
hour, no two processes hold the lock, and the lock of a holder stays where it is. Neither condition
is kept by the processes themselves: without the first, or without the second, two of them may hold
the lock.
-/

import ClusterKeeper.Proofs.Files.Shared
import ClusterKeeper.Proofs.Store.Locking
import Mathlib.Data.Fintype.Basic

namespace ClusterKeeper

open FileDialogue

variable {ι : Type}

/-! ## Processes -/

/-- What a process does with its store. A process that goes on to use the store while it keeps the
lock counts as one more process. -/
inductive Call where
  /-- It takes the lock, keeps it for a while, and then releases it or lets it drop. -/
  | session (drops : Bool)
  | commit (c : Cluster)
  | destroy

/-- The steps of a call. -/
def Call.dialogue (s : FileStore) : Call → FileDialogue Unit
  | .session drops => do
    match ← s.acquire with
    | .error _ => return ()
    | .ok l =>
      if drops then l.drop
      else
        let _ ← l.release
  | .commit c => do
    let _ ← s.commit c
  | .destroy => do
    let _ ← s.destroy

theorem Call.conforms (s : FileStore) (c : Call) :
    Conforms s (c.dialogue s) .apart fun _ _ => True := by
  cases c with
  | session drops =>
    refine FileStore.conforms_acquire.bind fun o φ' ho => ?_
    cases o with
    | error e => exact conforms_pure trivial
    | ok l =>
      obtain ⟨rfl, own, since, rfl⟩ := ho
      cases drops with
      | false =>
        exact (FileStore.conforms_release (.holding own since none)).bind
          fun _ _ _ => conforms_pure trivial
      | true => exact FileStore.conforms_drop (.holding own since none)
  | commit c => exact (FileStore.conforms_commit c).bind fun _ _ _ => conforms_pure trivial
  | destroy => exact FileStore.conforms_destroy.bind fun _ _ _ => conforms_pure trivial

/-- A process with its store, what is left of its call, and how it stands with the lock. -/
structure Process where
  store : FileStore
  rest : FileDialogue Unit := .done ()
  standing : Standing := .apart

/-- Whether nothing is left of a dialogue. -/
def FileDialogue.isOver {α : Type} : FileDialogue α → Bool
  | Dialogue.ask _ _ => false
  | _ => true

/-- The process behind an answer. A process whose call is over has no part in the lock. -/
def Process.goOn (p : Process) (found : Option FileId) (r : FileRequest) (a : r.Answer)
    (next : FileDialogue Unit) : Process :=
  { p with
    rest := next
    standing := if isOver next then .apart else p.standing.after p.store found r a }

/-- A machine and the processes on it. -/
structure Scene (ι : Type) where
  machine : Machine
  process : ι → Process

/-- What may happen next. -/
inductive Move (ι : Type) where
  /-- A process that is not in a call begins one. -/
  | start (i : ι) (c : Call)
  /-- A process takes one step. -/
  | act (i : ι)
  /-- Time goes on. -/
  | elapse (t : Moment)

namespace Scene

/-- The lock that is there. -/
def lock? (σ : Scene ι) (s : FileStore) : Option (FileId × Content × Moment) :=
  σ.machine.files.fileAt? (σ.machine.target s.lockPath)

variable [DecidableEq ι]

/-- The scene with another process and another machine. -/
def update (σ : Scene ι) (i : ι) (p : Process) (m : Machine) : Scene ι where
  machine := m
  process j := if j = i then p else σ.process j

/-- The scene behind a move. -/
def step (σ : Scene ι) : Move ι → Scene ι
  | .start i c =>
    if isOver (σ.process i).rest then
      σ.update i
        { store := (σ.process i).store, rest := c.dialogue (σ.process i).store } σ.machine
    else σ
  | .act i =>
    match (σ.process i).rest with
    | Dialogue.ask r next =>
      let (a, m) := Machine.respond r σ.machine
      σ.update i
        ((σ.process i).goOn ((σ.lock? (σ.process i).store).map (·.1)) r a (next a)) m
    | _ => σ
  | .elapse t =>
    if σ.machine.today.toNanos ≤ t.toNanos then { σ with machine := σ.machine.atTime t } else σ

/-- The scene behind moves one after the other. -/
def play (σ : Scene ι) (moves : List (Move ι)) : Scene ι := moves.foldl step σ

end Scene

/-! ## Holders and others -/

namespace Standing

/-- The process has made a lock that is to be there, and has dated it. -/
inductive Guards : Standing → FileId → Moment → Prop
  | made (own : FileId) (since : Moment) : Guards (.made own since) own since
  | holding (own : FileId) (since : Moment) (opened : Option FileId) :
    Guards (.holding own since opened) own since

/-- The process has made a lock and has not let go of it. -/
inductive Live : Standing → Prop
  | guards {φ : Standing} {own : FileId} {since : Moment} (h : φ.Guards own since) : Live φ
  | bereft (own : FileId) : Live (.bereft own)

theorem Holds.live {φ : Standing} (h : φ.Holds) : φ.Live := by
  cases h with
  | holding own since opened => exact .guards (.holding own since opened)
  | bereft own => exact .bereft own

/-- The process does not take a certain lock to be older than it is. -/
def Spares (own : FileId) (since : Moment) : Standing → Prop
  | .informed _ found date => found = some own → since.toNanos ≤ date.toNanos
  | .clearing _ found => found ≠ some own
  | _ => True

theorem Guards.spares {φ : Standing} {own own' : FileId} {since since' : Moment}
    (h : φ.Guards own since) : φ.Spares own' since' := by
  cases h <;> trivial

/-- When the process has read the clock for a lock that it guards. -/
def since? : Standing → Option Moment
  | .made _ since => some since
  | .holding _ since _ => some since
  | _ => none

/-- A lock that the process guards is not an hour old. The hour counts from when the process has
read the clock, which it does before it finds the place of the lock free. -/
def Young (now : Moment) (φ : Standing) : Prop :=
  ∀ since ∈ φ.since?, now.hoursSince since < staleLockHours

instance (now : Moment) (φ : Standing) : Decidable (φ.Young now) :=
  inferInstanceAs (Decidable (∀ since ∈ φ.since?, now.hoursSince since < staleLockHours))

theorem Guards.young {φ : Standing} {own : FileId} {since now : Moment} (h : φ.Guards own since)
    (hφ : φ.Young now) : now.hoursSince since < staleLockHours := by
  cases h <;> exact hφ _ rfl

/-- Whether a lock that the process removes as abandoned is the one that it has looked at. -/
def clears (lock : Option (FileId × Content × Moment)) : Standing → FileRequest → Bool
  | .clearing _ found, .removeFile _ => lock.all fun x => found == some x.1
  | _, _ => true

/-- Whether the process holds the lock and has removed the directory. -/
def isBereft : Standing → Bool
  | .bereft _ => true
  | _ => false

end Standing

/-- A whole hour later is no less than a whole hour later than before. -/
theorem Moment.hoursSince_le {now t t' : Moment} (h : t.toNanos ≤ t'.toNanos) :
    now.hoursSince t' ≤ now.hoursSince t :=
  Int.tdiv_le_tdiv (by decide) (Int.sub_le_sub_left h _)

namespace Machine

variable {m m' : Machine} {d l : Location} {s : FileStore} {holder : String} {φ ψ : Standing}
variable {own : FileId} {since t : Moment} {r : FileRequest}

/-- A lock of an identity is there, and there alone. -/
structure Has (m : Machine) (l : Location) (own : FileId) (text : String) (since : Moment) :
    Prop where
  only : ∀ {k x}, m.files.fileAt? k = some x → x.1 = own → k = l
  there : ∃ modified, m.files.fileAt? l = some (own, .text text, modified) ∧
    since.toNanos ≤ modified.toNanos

theorem Has.lt (h : m.Has l own text since) (hm : m.Settled) : own < m.nextId := by
  obtain ⟨modified, hl, -⟩ := h.there
  exact hm.fresh hl

theorem Has.of_becomes (h : m.Has l own text since) (hm : m.Settled) (hb : m.Becomes l m')
    (hl : m'.files.fileAt? l = m.files.fileAt? l) : m'.Has l own text since where
  only := hb.eq_of_only (h.lt hm) h.only
  there := hl ▸ h.there

/-- A moment that the clock has shown. -/
structure Shown (m : Machine) (t : Moment) : Prop where
  onClock : t.OnClock
  le_today : t.toNanos ≤ m.today.toNanos

theorem Shown.of_becomes (h : m.Shown t) (hb : m.Becomes l m') : m'.Shown t :=
  ⟨h.onClock, Int.le_trans h.le_today hb.today_le⟩

/-- What is so on the machine when a process stands with the lock as it does. -/
def Bears (m : Machine) (l : Location) (holder : String) : Standing → Prop
  | .dated t => m.Shown t
  | .refused t => m.Shown t
  | .puzzled t => m.Shown t
  | .informed t found _ => m.Shown t ∧ ∀ id, found = some id → id < m.nextId
  | .clearing t found => m.Shown t ∧ ∀ id, found = some id → id < m.nextId
  | .cleared t => m.Shown t
  | .made own t => m.Shown t ∧ m.Has l own "" t
  | .holding own t opened =>
    m.Shown t ∧ m.Has l own (LockInfo.codec.pretty ⟨holder, t⟩) t ∧ opened ≠ some own
  | _ => True

/-- It stays so as long as nobody touches the lock that a process has made. -/
theorem Bears.of_becomes (h : m.Bears l holder φ) (hm : m.Settled) (hb : m.Becomes l m')
    (hl : ∀ own since, φ.Guards own since → m'.files.fileAt? l = m.files.fileAt? l) :
    m'.Bears l holder φ := by
  have hfound {found : Option FileId} (hfound : ∀ id, found = some id → id < m.nextId) (id : FileId)
      (hid : found = some id) : id < m'.nextId := Nat.lt_of_lt_of_le (hfound id hid) hb.nextId_le
  cases φ with
  | apart => trivial
  | dated t => exact Shown.of_becomes h hb
  | refused t => exact Shown.of_becomes h hb
  | puzzled t => exact Shown.of_becomes h hb
  | informed t found date => exact ⟨h.1.of_becomes hb, hfound h.2⟩
  | clearing t found => exact ⟨h.1.of_becomes hb, hfound h.2⟩
  | cleared t => exact Shown.of_becomes h hb
  | made own t => exact ⟨h.1.of_becomes hb, h.2.of_becomes hm hb (hl _ _ (.made own t))⟩
  | holding own t opened =>
    exact ⟨h.1.of_becomes hb, h.2.1.of_becomes hm hb (hl _ _ (.holding own t opened)), h.2.2⟩
  | bereft own => trivial

/-- The lock of a process that guards it is there. What it says is its date, or nothing. -/
theorem Bears.exists_of_guards (h : m.Bears l holder φ) (hg : φ.Guards own since) :
    ∃ text modified, m.files.fileAt? l = some (own, .text text, modified) ∧
      since.toNanos ≤ modified.toNanos ∧
      ∀ info, LockInfo.codec.parse text = .ok info → since.toNanos ≤ info.acquiredAt.toNanos := by
  cases hg with
  | made own since =>
    obtain ⟨-, -, modified, hl, hle⟩ := h
    refine ⟨"", modified, hl, hle, fun info hinfo => ?_⟩
    cases hinfo
  | holding own since opened =>
    obtain ⟨ht, ⟨-, modified, hl, hle⟩, -⟩ := h
    refine ⟨_, modified, hl, hle, fun info hinfo => ?_⟩
    rw [LockInfo.parse_pretty ht.onClock] at hinfo
    cases hinfo
    exact Int.le_refl _

/-! ## One request -/

/-- Whether the request makes a file where there is none. -/
def makes (m : Machine) : FileRequest → Bool
  | .createNew p => (respond (.createNew p) m).1.isOk
  | _ => false

/-- What a request of a process does to the machine, to its standing and to others. -/
structure Proceeds (m : Machine) (l : Location) (s : FileStore) (φ : Standing) (r : FileRequest) :
    Prop where
  serves : Serves r (respond r m).1
  becomes : m.Becomes l (respond r m).2
  bears : (respond r m).2.Bears l s.holder
    (φ.after s ((m.files.fileAt? l).map (·.1)) r (respond r m).1)
  /-- A lock that another guards is left alone, unless the process has a lock itself. -/
  others : φ.Live ∨ ∀ {ψ holder own since}, ψ.Guards own since → m.Bears l holder ψ →
    φ.Spares own since → (respond r m).2.files.fileAt? l = m.files.fileAt? l
  /-- A lock is made where there was none. -/
  live : (φ.after s ((m.files.fileAt? l).map (·.1)) r (respond r m).1).Live →
    φ.Live ∨ m.files.fileAt? l = none ∧ m.makes r = true
  guards : ∀ {own since},
    (φ.after s ((m.files.fileAt? l).map (·.1)) r (respond r m).1).Guards own since →
      φ.Guards own since ∨ own = m.nextId
  spares : ∀ {ψ holder own since}, ψ.Guards own since → m.Bears l holder ψ →
    m.today.hoursSince since < staleLockHours → φ.Spares own since →
      (φ.after s ((m.files.fileAt? l).map (·.1)) r (respond r m).1).Spares own since

/-- A request that leaves the lock alone, and after which the process has no lock that it did not
have before. -/
theorem Proceeds.of_keeps (hm : m.Settled) (hφ : m.Bears l s.holder φ)
    (hserves : Serves r (respond r m).1) (hkeeps : m.Keeps l (respond r m).2)
    (hafter : φ.after s ((m.files.fileAt? l).map (·.1)) r (respond r m).1 = φ) :
    m.Proceeds l s φ r where
  serves := hserves
  becomes := hkeeps.toBecomes
  bears := by
    rw [hafter]
    exact hφ.of_becomes hm hkeeps.toBecomes fun _ _ _ => hkeeps.fileAt?_eq
  others := .inr fun _ _ _ => hkeeps.fileAt?_eq
  live h := .inl (hafter ▸ h)
  guards h := .inl (hafter ▸ h)
  spares _ _ _ h := hafter.symm ▸ h

/-- A request that leaves the lock alone, and after which the process has no lock. -/
theorem Proceeds.of_keeps_of_not_live {ψ : Standing}
    (hserves : Serves r (respond r m).1) (hkeeps : m.Keeps l (respond r m).2)
    (hafter : φ.after s ((m.files.fileAt? l).map (·.1)) r (respond r m).1 = ψ)
    (hψ : ¬ ψ.Live) (hbears : (respond r m).2.Bears l s.holder ψ)
    (hspares : ∀ {χ holder own since}, χ.Guards own since → m.Bears l holder χ →
      m.today.hoursSince since < staleLockHours → φ.Spares own since → ψ.Spares own since) :
    m.Proceeds l s φ r where
  serves := hserves
  becomes := hkeeps.toBecomes
  bears := hafter.symm ▸ hbears
  others := .inr fun _ _ _ => hkeeps.fileAt?_eq
  live h := absurd (hafter ▸ h) hψ
  guards h := absurd (.guards (hafter ▸ h)) hψ
  spares := hafter.symm ▸ hspares

variable {found : Option FileId}

theorem lockPath_target (hd : m.target s.directory = d) :
    m.target s.lockPath = d ++ ["lock.json"] := by
  rw [FileStore.lockPath, target_child _ _ isFileName_lock, hd]

theorem documentPath_target (hd : m.target s.directory = d) :
    m.target s.documentPath = d ++ ["cluster.json"] := by
  rw [FileStore.documentPath, target_child _ _ isFileName_document, hd]

theorem backupPath_target (hd : m.target s.directory = d) :
    m.target s.backupPath = d ++ ["cluster.json.backup"] := by
  rw [FileStore.backupPath, target_child _ _ isFileName_backup, hd]

/-- A lock is made, dated before it was known to be free, or nothing happens. -/
theorem proceeds_make (hm : m.Settled) (hl : m.target s.lockPath = l) (ht : m.Shown t)
    (hok : ∀ found id, φ.after s found (.createNew s.lockPath) (.ok id) = .made id t)
    (herror : ∀ found e, let ψ := φ.after s found (.createNew s.lockPath) (.error e)
      ¬ ψ.Live ∧ (∀ m : Machine, m.Shown t → m.Bears l s.holder ψ) ∧
        ∀ own since, ψ.Spares own since) :
    m.Proceeds l s φ (.createNew s.lockPath) := by
  obtain ⟨hbecomes, ⟨⟨e, he⟩, hm'⟩ | ⟨hanswer, hnone, hnext, htoday, hfiles⟩⟩ :=
    becomes_createNew (l := l) hm s.lockPath
  · obtain ⟨hlive, hbears, hspares⟩ := herror ((m.files.fileAt? l).map (·.1)) e
    exact .of_keeps_of_not_live trivial (hm'.symm ▸ hm.keeps) (by rw [he]) hlive
      (hbears _ (ht.of_becomes hbecomes)) fun _ _ _ _ => hspares _ _
  · rw [hl] at hnone hfiles
    have hvacant : m.files.fileAt? l = none := FileTree.fileAt?_of_none hnone
    have hafter : φ.after s ((m.files.fileAt? l).map (·.1)) (.createNew s.lockPath)
        (respond (.createNew s.lockPath) m).1 = .made m.nextId t := by
      rw [hanswer]
      exact hok _ _
    refine ⟨trivial, hbecomes, ?_, .inr fun hg hb _ => ?_, fun _ => ?_, fun h => ?_, ?_⟩
    · rw [hafter]
      refine ⟨ht.of_becomes hbecomes, fun {k x} hk hx => ?_, m.today, ?_, ht.le_today⟩
      · rw [hfiles] at hk
        split at hk
        · assumption
        · exact absurd (hx ▸ hm.fresh hk) (Nat.lt_irrefl _)
      · rw [hfiles, if_pos rfl]
    · -- A lock that is guarded is there, but the place was found vacant.
      obtain ⟨text, modified, hthere, -⟩ := hb.exists_of_guards hg
      rw [hvacant] at hthere
      cases hthere
    · exact .inr ⟨hvacant, by rw [makes, hanswer]; rfl⟩
    · rw [hafter] at h
      cases h
      exact .inr rfl
    · intro _ _ _ _ _ _ _ _
      rw [hafter]
      trivial

/-- A request of a process that has a lock. -/
theorem Proceeds.of_live (hφ : φ.Live) (hserves : Serves r (respond r m).1)
    (hbecomes : m.Becomes l (respond r m).2) {ψ : Standing}
    (hafter : φ.after s ((m.files.fileAt? l).map (·.1)) r (respond r m).1 = ψ)
    (hbears : (respond r m).2.Bears l s.holder ψ)
    (hguards : ∀ {own since}, ψ.Guards own since → φ.Guards own since)
    (hspares : ∀ own since, ψ.Spares own since) : m.Proceeds l s φ r where
  serves := hserves
  becomes := hbecomes
  bears := hafter.symm ▸ hbears
  others := .inl hφ
  live _ := .inl hφ
  guards h := .inl (hguards (hafter ▸ h))
  spares _ _ _ _ := hafter.symm ▸ hspares _ _

/-- A process that holds the lock lets go of it, or nothing happens. -/
theorem proceeds_release (hm : m.Settled) (hφ : m.Bears l s.holder φ) (h : φ.Holds) :
    m.Proceeds l s φ (.removeFile s.lockPath) := by
  have hafter (found : Option FileId) :
      φ.after s found (.removeFile s.lockPath) (.ok ()) = .apart ∧
        ∀ e, φ.after s found (.removeFile s.lockPath) (.error e) = φ := by
    cases h with
    | holding own since opened => exact ⟨if_pos rfl, fun e => rfl⟩
    | bereft own => exact ⟨rfl, fun e => rfl⟩
  have hspares (own : FileId) (since : Moment) : φ.Spares own since := by cases h <;> trivial
  obtain ⟨hok, herror⟩ := hafter ((m.files.fileAt? l).map (·.1))
  obtain ⟨hbecomes, ⟨⟨e, he⟩, hm'⟩ | ⟨hanswer, -⟩⟩ := becomes_removeFile (l := l) hm s.lockPath
  · exact .of_live h.live trivial hbecomes (he ▸ herror e) (hm'.symm ▸ hφ) (fun hg => hg) hspares
  · exact .of_live (ψ := .apart) h.live trivial hbecomes (hanswer ▸ hok) trivial
      (fun hg => nomatch hg) fun _ _ => trivial

/-- The lock that a process has looked at is removed, or nothing happens. -/
theorem proceeds_clear (hm : m.Settled) (ht : m.Shown t)
    (hfound : (m.files.fileAt? l).all (fun x => found == some x.1) = true) :
    m.Proceeds l s (.clearing t found) (.removeFile s.lockPath) := by
  have hafter (found' : Option FileId) (a : Except FileFault Unit) :
      (Standing.clearing t found).after s found' (.removeFile s.lockPath) a = .cleared t ∨
        (Standing.clearing t found).after s found' (.removeFile s.lockPath) a = .apart := by
    rcases a with e | _
    · cases e <;> first | exact .inl rfl | exact .inr rfl
    · exact .inl rfl
  obtain ⟨hbecomes, -⟩ := becomes_removeFile (l := l) hm s.lockPath
  have hcleared := hafter ((m.files.fileAt? l).map (·.1)) (respond (.removeFile s.lockPath) m).1
  refine ⟨trivial, hbecomes, ?_, .inr fun hg hb hspares => ?_, fun h => ?_, fun h => ?_, ?_⟩
  · rcases hcleared with h | h <;> rw [h]
    · exact ht.of_becomes hbecomes
    · trivial
  · -- The lock that is removed is the one that was looked at, and that is no guarded one.
    obtain ⟨text, modified, hthere, -⟩ := hb.exists_of_guards hg
    rw [hthere] at hfound
    exact absurd (beq_iff_eq.1 hfound) hspares
  · rcases hcleared with h' | h' <;> rw [h'] at h <;> cases h <;> contradiction
  · rcases hcleared with h' | h' <;> rw [h'] at h <;> cases h
  · intro _ _ _ _ _ _ _ _
    rcases hcleared with h | h <;> rw [h] <;> trivial

/-- A process reads the date of a lock that says it. -/
theorem proceeds_read (hm : m.Settled) (hl : m.target s.lockPath = l) (ht : m.Shown t) :
    m.Proceeds l s (.refused t) (.readText s.lockPath) := by
  have hapart : ¬ Standing.apart.Live := by rintro ⟨⟨⟩⟩
  cases hread : m.readText s.lockPath with
  | error e =>
    exact .of_keeps_of_not_live (ψ := .apart) trivial hm.keeps (by rw [respond, hread]; rfl) hapart
      trivial fun _ _ _ _ => trivial
  | ok text =>
    obtain ⟨id, modified, hfile⟩ := fileAt?_of_readText hread
    rw [hl] at hfile
    cases hparse : LockInfo.codec.parse text with
    | error e =>
      refine .of_keeps_of_not_live (ψ := .puzzled t) trivial hm.keeps ?_ (by rintro ⟨⟨⟩⟩) ht
        fun _ _ _ _ => trivial
      rw [respond, hread]
      simp only [Standing.after, hparse]
    | ok info =>
      refine .of_keeps_of_not_live (ψ := .informed t (some id) info.acquiredAt) trivial hm.keeps ?_
        (by rintro ⟨⟨⟩⟩) ⟨ht, ?_⟩ fun hg hb _ _ hown => ?_
      · rw [respond, hread, hfile]
        simp only [Standing.after, hparse]
        rfl
      · rintro _ ⟨⟩
        exact hm.fresh hfile
      · -- A lock that is guarded says since when, or nothing that could be read.
        obtain ⟨text', modified', hthere, -, hdate⟩ := hb.exists_of_guards hg
        rw [hfile] at hthere
        cases hthere
        exact hdate info hparse

/-- A process takes the date of the file for that of a lock. -/
theorem proceeds_readDate (hm : m.Settled) (hl : m.target s.lockPath = l) (ht : m.Shown t) :
    m.Proceeds l s (.puzzled t) (.modified s.lockPath) := by
  have hapart : ¬ Standing.apart.Live := by rintro ⟨⟨⟩⟩
  cases hread : m.modified s.lockPath with
  | error e =>
    exact .of_keeps_of_not_live (ψ := .apart) trivial hm.keeps (by rw [respond, hread]; rfl) hapart
      trivial fun _ _ _ _ => trivial
  | ok date =>
    refine .of_keeps_of_not_live
      (ψ := .informed t ((m.files.fileAt? l).map (·.1)) date) trivial hm.keeps
      (by rw [respond, hread]; rfl) (by rintro ⟨⟨⟩⟩) ⟨ht, fun id hid => ?_⟩
      fun hg hb _ _ hown => ?_
    · obtain ⟨x, hx, rfl⟩ := Option.map_eq_some_iff.1 hid
      exact hm.fresh hx
    · obtain ⟨text, modified, hthere, hle, -⟩ := hb.exists_of_guards hg
      rw [← hl] at hthere
      obtain rfl : modified = date := eq_of_modified hread hthere
      exact hle

/-- A process that goes by a date finds no lock abandoned that is younger than an hour. -/
theorem proceeds_judge (hm : m.Settled) {date : Moment}
    (hφ : m.Bears l s.holder (.informed t found date)) :
    m.Proceeds l s (.informed t found date) .now := by
  by_cases hfresh : m.today.hoursSince date < staleLockHours
  · exact .of_keeps_of_not_live (ψ := .apart) trivial hm.keeps (if_pos hfresh)
      (by rintro ⟨⟨⟩⟩) trivial fun _ _ _ _ => trivial
  · refine .of_keeps_of_not_live (ψ := .clearing t found) trivial hm.keeps (if_neg hfresh)
      (by rintro ⟨⟨⟩⟩) hφ fun _ _ hyoung hspares hown => ?_
    exact hfresh (Int.lt_of_le_of_lt (Moment.hoursSince_le (hspares hown)) hyoung)

theorem proceeds_sign (hm : m.Settled) (hφ : m.Bears l s.holder (.made own t)) :
    m.Proceeds l s (.made own t) (.write own (LockInfo.codec.pretty ⟨s.holder, t⟩)) := by
  obtain ⟨ht, hhas⟩ := hφ
  obtain ⟨modified, hthere, -⟩ := hhas.there
  have hbecomes := becomes_write (l := l) hm own (LockInfo.codec.pretty ⟨s.holder, t⟩)
  refine .of_live (ψ := .holding own t none) (.guards (.made own t)) rfl hbecomes rfl
    ⟨ht.of_becomes hbecomes, ⟨hbecomes.eq_of_only (hhas.lt hm) hhas.only, m.today, ?_,
      ht.le_today⟩, nofun⟩ (fun hg => ?_) fun _ _ => trivial
  · refine (FileTree.fileAt?_fill _ _ _ _ _).trans ?_
    rw [hthere]
    exact congrArg some (if_pos rfl)
  · cases hg
    exact .made own t

theorem proceeds_openDocument (hm : m.Settled) {opened : Option FileId}
    (hl : m.target s.documentPath ≠ l) (hφ : m.Bears l s.holder (.holding own t opened)) :
    m.Proceeds l s (.holding own t opened) (.createEmpty s.documentPath) := by
  obtain ⟨hkeeps, hid⟩ := keeps_createEmpty hm hl
  have hbears := hφ.of_becomes hm hkeeps.toBecomes fun _ _ _ => hkeeps.fileAt?_eq
  cases hanswer : (respond (.createEmpty s.documentPath) m).1 with
  | error e => exact .of_keeps hm hφ trivial hkeeps (by rw [hanswer]; rfl)
  | ok id =>
    refine .of_live (ψ := .holding own t (some id)) (.guards (.holding own t opened)) trivial
      hkeeps.toBecomes (by rw [hanswer]; rfl) ⟨hbears.1, hbears.2.1, ?_⟩ (fun hg => ?_)
      fun _ _ => trivial
    · rintro ⟨⟩
      obtain ⟨-, hhas, -⟩ := hφ
      rcases hid _ hanswer with hnew | ⟨x, hx, heq⟩
      · exact absurd (hnew ▸ hhas.lt hm) (Nat.lt_irrefl _)
      · exact hl (hhas.only hx heq)
    · cases hg
      exact .holding own t opened

/-- Whatever a process asks for in order, it proceeds. -/
theorem proceeds_of_admits (hm : m.Settled) (hd : m.target s.directory = d)
    (hclock : m.today.OnClock) (hφ : m.Bears (d ++ ["lock.json"]) s.holder φ)
    (h : φ.Admits s r)
    (hclears : φ.clears (m.files.fileAt? (d ++ ["lock.json"])) r = true) :
    m.Proceeds (d ++ ["lock.json"]) s φ r := by
  have hlock := lockPath_target hd
  have hdocument : m.target s.documentPath ≠ d ++ ["lock.json"] := by
    rw [documentPath_target hd]
    simp
  have hbackup : m.target s.backupPath ≠ d ++ ["lock.json"] := by
    rw [backupPath_target hd]
    simp
  have hshown : m.Shown m.today := ⟨hclock, Int.le_refl _⟩
  -- Only the requests that make, sign or remove a lock, or that find out about one, are any
  -- concern of others; the rest leave the place of the lock alone.
  cases h with
  | look _ p => exact .of_keeps hm hφ trivial hm.keeps (after_isDirectory _ _ _ _)
  | makeDirectory _ p =>
    exact .of_keeps hm hφ trivial (keeps_makeDirectory hm p) (after_makeDirectory _ _ _ _)
  | wait _ t => exact .of_keeps hm hφ trivial (keeps_wait hm t) (after_wait _ _ _ _)
  | date =>
    exact .of_keeps_of_not_live (ψ := .dated m.today) trivial hm.keeps rfl (by rintro ⟨⟨⟩⟩) hshown
      fun _ _ _ _ => trivial
  | make t =>
    refine proceeds_make hm hlock hφ (fun _ _ => rfl) fun _ e => ?_
    cases e <;> exact ⟨by rintro ⟨⟨⟩⟩, fun _ h => by first | exact h | trivial, fun _ _ => trivial⟩
  | read t => exact proceeds_read hm hlock hφ
  | readDate t => exact proceeds_readDate hm hlock hφ
  | judge t found date => exact proceeds_judge hm hφ
  | clear t found => exact proceeds_clear hm hφ.1 hclears
  | makeAgain t =>
    exact proceeds_make hm hlock hφ (fun _ _ => rfl) fun _ e =>
      ⟨by rintro ⟨⟨⟩⟩, fun _ _ => trivial, fun _ _ => trivial⟩
  | sign own t => exact proceeds_sign hm hφ
  | removeBackup own t opened =>
    refine .of_keeps hm hφ trivial (keeps_removeFile hm hbackup) ?_
    cases (respond (.removeFile s.backupPath) m).1 with
    | error e => rfl
    | ok => exact if_neg s.backupPath_ne_lockPath
  | rotate own t opened =>
    refine .of_keeps hm hφ trivial (keeps_rename hm ?_ ?_) rfl
    · rw [documentPath_target hd]
      exact FileTree.not_prefix_of_ne d (by decide)
    · rw [backupPath_target hd]
      exact FileTree.not_prefix_of_ne d (by decide)
  | openDocument own t opened => exact proceeds_openDocument hm hdocument hφ
  | writeDocument own t id text =>
    -- The document that was opened is another file than the lock, wherever it is by now.
    refine .of_keeps hm hφ rfl (keeps_write hm fun x hx heq => hφ.2.2 ?_) rfl
    obtain ⟨modified, hthere, -⟩ := hφ.2.1.there
    rw [hthere] at hx
    cases hx
    rw [← heq]
  | wipe own t opened =>
    exact .of_live (ψ := .bereft own) (.guards (.holding own t opened)) trivial
      (becomes_removeDirectory hm _).1 rfl trivial (fun hg => nomatch hg) fun _ _ => trivial
  | release own t opened => exact proceeds_release hm hφ (.holding own t opened)
  | releaseBereft own => exact proceeds_release hm hφ (.bereft own)

end Machine

/-! ## Scenes in order -/

namespace Scene

variable {σ : Scene ι} {d : Location} {i j : ι} {own : FileId} {since : Moment}

/-- Nobody has had a lock for an hour, on a clock that can be read. -/
structure Timely (σ : Scene ι) : Prop where
  onClock : σ.machine.today.OnClock
  young : ∀ i, (σ.process i).standing.Young σ.machine.today

instance [Fintype ι] (σ : Scene ι) : Decidable σ.Timely :=
  decidable_of_iff
    (σ.machine.today.OnClock ∧ ∀ i, (σ.process i).standing.Young σ.machine.today)
    ⟨fun h => ⟨h.1, h.2⟩, fun h => ⟨h.1, h.2⟩⟩

/-- A move does not get in the way of a holder: a lock that is taken for abandoned is the one that
is removed, and no lock is made while another process has removed the directory and not yet let
go. -/
def Undisturbing (σ : Scene ι) : Move ι → Prop
  | .act i =>
    match (σ.process i).rest with
    | Dialogue.ask r _ =>
      (σ.process i).standing.clears (σ.lock? (σ.process i).store) r = true ∧
        (σ.machine.makes r = true → ∀ j, (σ.process j).standing.isBereft = false)
    | _ => True
  | _ => True

instance [Fintype ι] (σ : Scene ι) (m : Move ι) : Decidable (σ.Undisturbing m) := by
  unfold Undisturbing
  split
  · split <;> infer_instance
  · infer_instance

/-- What is so on a machine whose processes share a directory. -/
structure InOrder (σ : Scene ι) (d : Location) : Prop where
  settled : σ.machine.Settled
  directory : ∀ i, σ.machine.target (σ.process i).store.directory = d
  conforms : ∀ i, Conforms (σ.process i).store (σ.process i).rest (σ.process i).standing
    fun _ _ => True
  bears : ∀ i, σ.machine.Bears (d ++ ["lock.json"]) (σ.process i).store.holder
    (σ.process i).standing
  /-- Only one process has a lock. -/
  one : ∀ {i j}, (σ.process i).standing.Live → (σ.process j).standing.Live → i = j
  spares : ∀ {i j own since}, (σ.process j).standing.Guards own since →
    (σ.process i).standing.Spares own since

theorem conforms_of_isOver {s : FileStore} {c : FileDialogue Unit} {φ : Standing}
    (h : isOver c = true) : Conforms s c φ fun _ _ => True := by
  cases c with
  | done x => trivial
  | brokenOff => trivial
  | ask r next => cases h

/-- Where there is no lock, and nobody is about to let go of one that is gone, nobody has one. -/
theorem InOrder.not_live (h : σ.InOrder d)
    (hnone : σ.machine.files.fileAt? (d ++ ["lock.json"]) = none)
    (hbereft : (σ.process j).standing.isBereft = false) : ¬ (σ.process j).standing.Live := by
  intro hlive
  have hj := h.bears j
  generalize (σ.process j).standing = φ at hlive hbereft hj
  cases hlive with
  | guards hguards =>
    obtain ⟨text, modified, hthere, -⟩ := hj.exists_of_guards hguards
    rw [hnone] at hthere
    cases hthere
  | bereft own => cases hbereft

/-- A lock that is new is none that a process has looked at. -/
theorem InOrder.spares_new (h : σ.InOrder d) (j : ι) (since : Moment) :
    (σ.process j).standing.Spares σ.machine.nextId since := by
  have hj := h.bears j
  generalize (σ.process j).standing = φ at hj
  cases φ with
  | informed t found date => exact fun hfound => absurd (hj.2 _ hfound) (Nat.lt_irrefl _)
  | clearing t found => exact fun hfound => Nat.lt_irrefl _ (hj.2 _ hfound)
  | _ => trivial

/-- A machine in any state, and on it processes with stores of the same root and name that have not
begun with anything. -/
structure AtRest (σ : Scene ι) (root : Path) (name : String) : Prop where
  settled : σ.machine.Settled
  root : ∀ i, (σ.process i).store.root = root
  name : ∀ i, (σ.process i).store.name = name
  idle : ∀ i, isOver (σ.process i).rest = true
  apart : ∀ i, (σ.process i).standing = .apart

theorem AtRest.inOrder {root : Path} {name : String} (h : σ.AtRest root name) :
    σ.InOrder (σ.machine.target (root.join name)) where
  settled := h.settled
  directory i := by rw [FileStore.directory, h.root, h.name]
  conforms i := conforms_of_isOver (h.idle i)
  bears i := by
    rw [h.apart]
    trivial
  one {i j} hi := by
    rw [h.apart] at hi
    rcases hi with ⟨⟨⟩⟩
  spares {i j own since} hj := by
    rw [h.apart] at hj
    cases hj

/-- Nobody shares the lock with a holder, and the lock that a holder has written is there, unless
the holder has removed the directory. -/
structure Exclusive (σ : Scene ι) : Prop where
  one : ∀ {i j}, (σ.process i).standing.Holds → (σ.process j).standing.Holds → i = j
  there : ∀ {i own since opened}, (σ.process i).standing = .holding own since opened →
    ∃ modified, σ.lock? (σ.process i).store = some (own,
      .text (LockInfo.codec.pretty ⟨(σ.process i).store.holder, since⟩), modified)

theorem InOrder.exclusive (h : σ.InOrder d) : σ.Exclusive where
  one hi hj := h.one hi.live hj.live
  there {i own since opened} hi := by
    have hbears := h.bears i
    rw [hi] at hbears
    obtain ⟨modified, hthere, -⟩ := hbears.2.1.there
    exact ⟨modified, by rw [lock?, Machine.lockPath_target (h.directory i), hthere]⟩

variable [DecidableEq ι]

/-- A process of a scene in which one has gone on is that one, or it is as it was. -/
theorem update_cases (σ : Scene ι) (i : ι) (p : Process) (m : Machine) (j : ι) :
    j = i ∧ (σ.update i p m).process j = p ∨
      j ≠ i ∧ (σ.update i p m).process j = σ.process j := by
  by_cases h : j = i
  · exact .inl ⟨h, if_pos h⟩
  · exact .inr ⟨h, if_neg h⟩

/-- One process goes on, and the others find nothing changed that matters to them. -/
theorem InOrder.update {p : Process} {m : Machine} (h : σ.InOrder d)
    (hstore : p.store = (σ.process i).store)
    (hbecomes : σ.machine.Becomes (d ++ ["lock.json"]) m)
    (hconforms : Conforms p.store p.rest p.standing fun _ _ => True)
    (hbears : m.Bears (d ++ ["lock.json"]) p.store.holder p.standing)
    (hothers : ∀ j own since, j ≠ i → (σ.process j).standing.Guards own since →
      m.files.fileAt? (d ++ ["lock.json"]) = σ.machine.files.fileAt? (d ++ ["lock.json"]))
    (hone : p.standing.Live → ∀ j, j ≠ i → ¬ (σ.process j).standing.Live)
    (hspared : ∀ j own since, j ≠ i → p.standing.Guards own since →
      (σ.process j).standing.Spares own since)
    (hspares : ∀ j own since, j ≠ i → (σ.process j).standing.Guards own since →
      p.standing.Spares own since) : (σ.update i p m).InOrder d := by
  refine ⟨hbecomes.settled, fun j => ?_, fun j => ?_, fun j => ?_, fun {j k} hj hk => ?_,
    fun {j k own since} hk => ?_⟩
  · refine (Machine.target_congr hbecomes.workingDirectory _).trans ?_
    rcases σ.update_cases i p m j with ⟨-, hj⟩ | ⟨-, hj⟩ <;> rw [hj]
    · exact hstore ▸ h.directory i
    · exact h.directory j
  · rcases σ.update_cases i p m j with ⟨-, hj⟩ | ⟨-, hj⟩ <;> rw [hj]
    · exact hconforms
    · exact h.conforms j
  · rcases σ.update_cases i p m j with ⟨-, hj⟩ | ⟨hji, hj⟩ <;> rw [hj]
    · exact hbears
    · exact (h.bears j).of_becomes h.settled hbecomes fun own since => hothers j own since hji
  -- What is said of two processes is new only if just one of them is the process that went on.
  · rcases σ.update_cases i p m j with ⟨hji, hpj⟩ | ⟨hji, hpj⟩ <;> rw [hpj] at hj <;>
      rcases σ.update_cases i p m k with ⟨hki, hpk⟩ | ⟨hki, hpk⟩ <;> rw [hpk] at hk
    · exact hji.trans hki.symm
    · exact absurd hk (hone hj k hki)
    · exact absurd hj (hone hk j hji)
    · exact h.one hj hk
  · rcases σ.update_cases i p m k with ⟨-, hpk⟩ | ⟨hki, hpk⟩ <;> rw [hpk] at hk <;>
      rcases σ.update_cases i p m j with ⟨-, hpj⟩ | ⟨hji, hpj⟩ <;> rw [hpj]
    · exact hk.spares
    · exact hspared j own since hji hk
    · exact hspares k own since hki hk
    · exact h.spares hk

/-- A process begins a call. -/
theorem InOrder.start (h : σ.InOrder d) (i : ι) (c : Call) : (σ.step (.start i c)).InOrder d := by
  rw [step]
  split
  · exact h.update rfl h.settled.keeps.toBecomes (c.conforms _) trivial (fun _ _ _ _ _ => rfl)
      (fun hlive => nomatch hlive) (fun _ _ _ _ hguards => nomatch hguards)
      fun _ _ _ _ _ => trivial
  · exact h

/-- Time goes on. -/
theorem InOrder.elapse (h : σ.InOrder d) (t : Moment) : (σ.step (.elapse t)).InOrder d := by
  rw [step]
  split
  · next hle =>
    have hkeeps {l : Location} : σ.machine.Keeps l (σ.machine.atTime t) :=
      Machine.keeps_of_fileAt?_eq h.settled rfl rfl hle h.settled.quiet fun _ => rfl
    exact ⟨⟨h.settled.fresh, h.settled.quiet⟩, h.directory, h.conforms, fun i =>
      (h.bears i).of_becomes h.settled hkeeps.toBecomes fun _ _ _ => hkeeps.fileAt?_eq, h.one,
      h.spares⟩
  · exact h

/-- A process takes a step. -/
theorem InOrder.act (h : σ.InOrder d) (ht : σ.Timely) (hi : σ.Undisturbing (.act i)) :
    (σ.step (.act i)).InOrder d := by
  rw [step]
  split
  · next r next hrest =>
    have hlock : σ.lock? (σ.process i).store =
        σ.machine.files.fileAt? (d ++ ["lock.json"]) := by
      rw [lock?, Machine.lockPath_target (h.directory i)]
    have hconforms := h.conforms i
    rw [hrest] at hconforms
    obtain ⟨hadmits, hnext⟩ := hconforms
    rw [Undisturbing, hrest, hlock] at hi
    obtain ⟨hclears, hmakes⟩ := hi
    have hproceeds := Machine.proceeds_of_admits h.settled (h.directory i) ht.onClock (h.bears i)
      hadmits hclears
    -- A process that has a lock is the only one that has; any other leaves the locks alone.
    have hothers (j : ι) (own : FileId) (since : Moment) (hj : j ≠ i)
        (hguards : (σ.process j).standing.Guards own since) :
        (Machine.respond r σ.machine).2.files.fileAt? (d ++ ["lock.json"]) =
          σ.machine.files.fileAt? (d ++ ["lock.json"]) := by
      rcases hproceeds.others with hlive | hothers
      · exact absurd (h.one (.guards hguards) hlive) hj
      · exact hothers hguards (h.bears j) (h.spares hguards)
    rw [hlock]
    refine h.update rfl hproceeds.becomes ?_ ?_ hothers ?_ ?_ ?_
    -- A process whose call is over has no part in the lock; one that goes on proceeds.
    all_goals
      simp only [Process.goOn]
      split
    · next hover => exact conforms_of_isOver hover
    · exact hnext _ _ hproceeds.serves
    · trivial
    · exact hproceeds.bears
    · exact fun hlive => nomatch hlive
    · intro hlive j hj hlive'
      rcases hproceeds.live hlive with hlive | ⟨hnone, hmade⟩
      · exact hj (h.one hlive' hlive)
      · exact h.not_live hnone (hmakes hmade j) hlive'
    · exact fun _ _ _ _ hguards => nomatch hguards
    · intro j own since hj hguards
      rcases hproceeds.guards hguards with hguards | rfl
      · exact h.spares hguards
      · exact h.spares_new j since
    · exact fun _ _ _ _ _ => trivial
    · exact fun j own since hj hguards =>
        hproceeds.spares hguards (h.bears j) (hguards.young (ht.young j))
          (h.spares hguards)
  · exact h

/-! ## Runs -/

/-- Nobody has a lock for an hour in the course of some moves. -/
def TimelyAlong (σ : Scene ι) : List (Move ι) → Prop
  | [] => σ.Timely
  | m :: moves => σ.Timely ∧ (σ.step m).TimelyAlong moves

/-- Nobody gets in the way of a holder in the course of some moves. -/
def UndisturbedAlong (σ : Scene ι) : List (Move ι) → Prop
  | [] => True
  | m :: moves => σ.Undisturbing m ∧ (σ.step m).UndisturbedAlong moves

theorem InOrder.play (h : σ.InOrder d) {moves : List (Move ι)} (ht : σ.TimelyAlong moves)
    (hu : σ.UndisturbedAlong moves) : (σ.play moves).InOrder d := by
  induction moves generalizing σ with
  | nil => exact h
  | cons m moves ih =>
    obtain ⟨hnow, ht⟩ := ht
    obtain ⟨hm, hu⟩ := hu
    refine ih ?_ ht hu
    cases m with
    | start i c => exact h.start i c
    | act i => exact h.act hnow hm
    | elapse t => exact h.elapse t

instance decidableTimelyAlong [Fintype ι] (σ : Scene ι) :
    (moves : List (Move ι)) → Decidable (σ.TimelyAlong moves)
  | [] => inferInstanceAs (Decidable σ.Timely)
  | m :: moves =>
    have := decidableTimelyAlong (σ.step m) moves
    inferInstanceAs (Decidable (σ.Timely ∧ (σ.step m).TimelyAlong moves))

instance decidableUndisturbedAlong [Fintype ι] (σ : Scene ι) :
    (moves : List (Move ι)) → Decidable (σ.UndisturbedAlong moves)
  | [] => .isTrue trivial
  | m :: moves =>
    have := decidableUndisturbedAlong (σ.step m) moves
    inferInstanceAs (Decidable (σ.Undisturbing m ∧ (σ.step m).UndisturbedAlong moves))

/-- However the steps of processes come one after the other, as long as nobody gets in the way of a
holder and nobody has a lock for an hour, the lock is exclusive. -/
theorem exclusive_play {root : Path} {name : String} {moves : List (Move ι)}
    (h : σ.AtRest root name) (ht : σ.TimelyAlong moves) (hu : σ.UndisturbedAlong moves) :
    (σ.play moves).Exclusive :=
  (h.inOrder.play ht hu).exclusive

end Scene

/-! ## Two processes -/

namespace twoProcesses

open Scene

/-- A store of one cluster, with the name of a holder. -/
def store (holder : String) : FileStore :=
  { root := { parts := ["clusters"] }, name := "demo", holder }

/-- Two processes on a machine that have not begun with anything. -/
def scene (m : Machine) : Scene Bool where
  machine := m
  process b := { store := store (if b then "first" else "second") }

/-- The machine has a directory for the cluster. -/
def tidy : Machine := ({ today := ⟨0, 0⟩ } : Machine).putDirectory ["clusters", "demo"]

/-- There is a lock in the directory that was made two hours ago. -/
def abandoned : Machine :=
  (tidy.putFile ["clusters", "demo", "lock.json"] (.text "")).atTime ⟨7200, 0⟩

/-- A number of steps of a process. -/
def acts (n : Nat) (i : Bool) : List (Move Bool) := List.replicate n (.act i)

def demo : Cluster := { name := "demo", cloud := "fake" }

theorem settled_of_entries {m : Machine}
    (h : ∀ e ∈ m.files.entries, ∀ x ∈ e.2.file?, x.1 < m.nextId) (hquiet : m.removals = []) :
    m.Settled where
  fresh {l x} hl := by
    obtain ⟨n, hn, hx⟩ := Option.bind_eq_some_iff.1 hl
    have hne : l ≠ [] := by
      rintro rfl
      cases hn
      cases hx
    rw [FileTree.at?_of_ne_nil hne, SortedMap.find?_eq_some_iff] at hn
    exact h _ hn x hx
  quiet := hquiet

theorem atRest_scene {m : Machine} (h : m.Settled) :
    (scene m).AtRest { parts := ["clusters"] } "demo" :=
  ⟨h, fun _ => rfl, fun _ => rfl, fun _ => rfl, fun _ => rfl⟩

theorem atRest_tidy : (scene tidy).AtRest { parts := ["clusters"] } "demo" :=
  atRest_scene (settled_of_entries (by decide +kernel) rfl)

theorem atRest_abandoned : (scene abandoned).AtRest { parts := ["clusters"] } "demo" :=
  atRest_scene (settled_of_entries (by decide +kernel) rfl)

/-- Where both processes hold the lock, it is not exclusive. -/
theorem not_exclusive {σ : Scene Bool} (htrue : (σ.process true).standing.Holds)
    (hfalse : (σ.process false).standing.Holds) : ¬ σ.Exclusive := fun h =>
  Bool.true_eq_false.mp (h.one htrue hfalse)

/-- One process takes the abandoned lock over and releases it, the other removes the cluster, and
then the first one keeps a document while the other is refused. -/
def inTurn : List (Move Bool) :=
  .start true (.session false) :: acts 11 true ++ .start false .destroy :: acts 7 false ++
    .start true (.commit demo) :: acts 8 true ++ .start false (.session true) :: acts 3 false

theorem exclusive_inTurn :
    (scene abandoned).AtRest { parts := ["clusters"] } "demo" ∧
      (scene abandoned).TimelyAlong inTurn ∧ (scene abandoned).UndisturbedAlong inTurn ∧
      ((scene abandoned).play inTurn).Exclusive ∧
      ((scene abandoned).play inTurn |>.process true).standing = .holding 3 ⟨7200, 0⟩ (some 4) ∧
      ((scene abandoned).play inTurn |>.process false).standing = .refused ⟨7200, 0⟩ := by
  have htimely : (scene abandoned).TimelyAlong inTurn := by decide +kernel
  have hundisturbed : (scene abandoned).UndisturbedAlong inTurn := by decide +kernel
  exact ⟨atRest_abandoned, htimely, hundisturbed,
    exclusive_play atRest_abandoned htimely hundisturbed, by decide +kernel, by decide +kernel⟩

/-- Both processes find the lock abandoned. Then one of them takes it over, and so does the
other. -/
def race : List (Move Bool) :=
  .start true (.session false) :: acts 6 true ++ .start false (.session false) :: acts 6 false ++
    acts 3 true ++ acts 3 false

/-- A process that has found a lock abandoned may remove the one that another has put in its
place. -/
theorem held_twice_by_race :
    (scene abandoned).AtRest { parts := ["clusters"] } "demo" ∧
      (scene abandoned).TimelyAlong race ∧ ¬ ((scene abandoned).play race).Exclusive := by
  refine ⟨atRest_abandoned, by decide +kernel, ?_⟩
  have htrue : ((scene abandoned).play race |>.process true).standing =
      .holding 1 ⟨7200, 0⟩ none := by decide +kernel
  have hfalse : ((scene abandoned).play race |>.process false).standing =
      .holding 2 ⟨7200, 0⟩ none := by decide +kernel
  exact not_exclusive (htrue ▸ .holding _ _ _) (hfalse ▸ .holding _ _ _)

/-- One process holds the lock and removes the directory that the lock is in. Before it lets go, the
other makes both anew. -/
def removal : List (Move Bool) :=
  .start true .destroy :: acts 6 true ++ .start false (.session false) :: acts 5 false

theorem held_twice_by_removal :
    (scene tidy).AtRest { parts := ["clusters"] } "demo" ∧
      (scene tidy).TimelyAlong removal ∧ ¬ ((scene tidy).play removal).Exclusive := by
  refine ⟨atRest_tidy, by decide +kernel, ?_⟩
  have htrue : ((scene tidy).play removal |>.process true).standing = .bereft 0 := by
    decide +kernel
  have hfalse : ((scene tidy).play removal |>.process false).standing =
      .holding 1 ⟨0, 0⟩ none := by decide +kernel
  exact not_exclusive (htrue ▸ .bereft _) (hfalse ▸ .holding _ _ _)

/-- When the process that has removed the directory lets go, it removes the lock of the other. -/
theorem lost_by_release :
    (scene tidy).TimelyAlong (removal ++ acts 2 true) ∧
      ¬ ((scene tidy).play (removal ++ acts 2 true)).Exclusive := by
  refine ⟨by decide +kernel, fun h => ?_⟩
  have hfalse : ((scene tidy).play (removal ++ acts 2 true) |>.process false).standing =
      .holding 1 ⟨0, 0⟩ none := by decide +kernel
  have hnone : ((scene tidy).play (removal ++ acts 2 true)).lock? (store "second") = none := by
    decide +kernel
  obtain ⟨modified, hthere⟩ := h.there hfalse
  exact nomatch hnone.symm.trans hthere

end twoProcesses

end ClusterKeeper
