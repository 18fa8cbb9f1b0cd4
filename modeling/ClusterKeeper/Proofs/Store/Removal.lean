/-
# Removing whatever is kept

To remove what is kept of a cluster either fails before it has changed anything, or it does not fail
at all. Then everything is gone that was in the directory of the cluster, and the directory with it,
unless the path to the directory led through something in it. Everything else is as it was.
-/

import ClusterKeeper.Proofs.Store.Waiting

namespace ClusterKeeper

open FileTree (IsFileName ne_directory_of_none)
open FileDialogue
open Machine (run_bind run_bind_congr run_ask)

variable {m m' m₁ : Machine} {d k l : Location} {p : Path} {s : FileStore} {name : String}

namespace Machine

/-! ## Another time -/

/-- Time has passed, and nothing else has happened. -/
def Later (m m' : Machine) : Prop :=
  ∃ (clock : Nat) (today : Moment), m' = { m with clock, today }

namespace Later

theorem refl (m : Machine) : m.Later m := ⟨m.clock, m.today, rfl⟩

theorem trans (h : m.Later m₁) (h' : m₁.Later m') : m.Later m' := by
  obtain ⟨clock, today, rfl⟩ := h
  obtain ⟨clock', today', rfl⟩ := h'
  exact ⟨clock', today', rfl⟩

theorem sound (h : m.Later m') (hm : m.Sound) : m'.Sound := by
  obtain ⟨clock, today, rfl⟩ := h
  exact ⟨hm.wellFormed, hm.fresh, hm.quiet⟩

theorem files_eq (h : m.Later m') : m'.files = m.files := by
  obtain ⟨clock, today, rfl⟩ := h
  rfl

theorem workingDirectory_eq (h : m.Later m') : m'.workingDirectory = m.workingDirectory := by
  obtain ⟨clock, today, rfl⟩ := h
  rfl

theorem enters (h : m.Later m') (hp : m.Enters p d) : m'.Enters p d := by
  obtain ⟨clock, today, rfl⟩ := h
  exact ⟨hp.resolve, hp.directory⟩

end Later

/-- A wait is nothing but time on a machine that nothing disturbs. -/
theorem later_waits (hm : m.Sound) (t : Duration) (n : Nat) : m.Later (m.waits t n) := by
  induction n generalizing m with
  | zero => exact .refl m
  | succ n ih =>
    have hwait : m.Later (m.wait t) := by
      obtain ⟨files, cwd, nextId, clock, today, stopped, removals⟩ := m
      obtain ⟨-, -, rfl⟩ := hm
      exact ⟨_, _, rfl⟩
    exact hwait.trans (ih (hwait.sound hm))

/-! ## Removing a directory by its path -/

/-- A path that ends in a name leads to something of that name. -/
theorem exists_of_resolve_child (hname : Path.IsNormal name)
    (h : m.resolve (p.child name) = .ok d) : IsFileName name ∧ ∃ l, d = l ++ [name] := by
  rw [resolve, FileTree.resolve] at h
  split at h
  · cases h
  · next hnull =>
    rw [Path.isEmpty_child, if_neg Bool.false_ne_true, Path.child, List.foldlM_append] at h
    obtain ⟨l, -, h⟩ := exists_ok_of_bind h
    obtain ⟨j, hstep, h⟩ := exists_ok_of_bind h
    cases h
    -- Wherever the parts before it lead, the last step is by the name itself.
    have hl := at?_of_step hstep
    rw [FileTree.step, hl] at hstep
    simp only [if_neg hname.ne_dot, if_neg hname.ne_dots] at hstep
    split at hstep
    · cases hstep
    · next hshort =>
      cases hstep
      have hnull : '\x00' ∉ name.toList := by
        intro hmem
        refine hnull (List.any_eq_true.2 ⟨name, ?_, List.contains_iff_mem.2 hmem⟩)
        exact List.mem_append_right _ List.mem_cons_self
      exact ⟨⟨hname.ne_empty, hname.noSlash, hnull, hname.ne_dot, hname.ne_dots,
        Nat.not_lt.1 hshort⟩, l, rfl⟩

/-- Where something is gone, a path leads where it led before or to nothing. -/
theorem resolve_of_fewer (hcwd : m'.workingDirectory = m.workingDirectory)
    (h : ∀ k, m'.files.at? k = m.files.at? k ∨ m'.files.at? k = none) (hp : m.resolve p = .ok l) :
    m'.resolve p = .ok l ∨ m'.resolve p = .error .notFound := by
  have hfold (parts : List String) (k : Location) (hk : parts.foldlM m.files.step k = .ok l) :
      parts.foldlM m'.files.step k = .ok l ∨
        parts.foldlM m'.files.step k = .error .notFound := by
    induction parts generalizing k with
    | nil => exact .inl hk
    | cons part parts ih =>
      obtain ⟨j, hstep, hj⟩ := exists_of_foldlM_step_cons hk
      rw [List.foldlM_cons]
      rcases h k with heq | hnone
      · have hstep' : m'.files.step k part = .ok j := by
          rw [FileTree.step] at hstep ⊢
          rwa [heq]
        rw [hstep']
        exact ih j hj
      -- It ends at the first directory on its way that is gone.
      · rw [step_of_none hnone]
        exact .inr rfl
  rw [resolve, FileTree.resolve] at hp ⊢
  split at hp
  · cases hp
  · next hnull =>
    rw [if_neg hnull]
    split at hp
    · cases hp
    · next hempty =>
      rw [if_neg hempty, hcwd]
      exact hfold _ _ hp

/-- The directory to which a path led has been removed with all that was in it. The directory itself
is left, and empty, if the path led through something in it. -/
structure Rid (m : Machine) (p : Path) (d : Location) (m' : Machine) : Prop where
  sound : m'.Sound
  workingDirectory : m'.workingDirectory = m.workingDirectory
  below : ∀ k, FileTree.isBelow k d → m'.files.at? k = none
  self : m.Reaches p d → m'.files.at? d = none
  left : ¬ m.Reaches p d → m'.files.at? d = some .directory
  elsewhere : ∀ k, ¬ d <+: k → m'.files.at? k = m.files.at? k

/-- No directory has come up. -/
theorem Rid.directory (h : m.Rid p d m') (hd : m.files.at? d = some .directory)
    (hk : m'.files.at? k = some .directory) : m.files.at? k = some .directory := by
  by_cases hle : d <+: k
  · by_cases heq : k = d
    · rw [heq, hd]
    · have hlength := Nat.lt_of_le_of_ne hle.length_le fun he => heq (hle.eq_of_length he).symm
      rw [h.below k (FileTree.isBelow_iff.2 ⟨hle, hlength⟩)] at hk
      cases hk
  · rw [← h.elsewhere k hle, hk]

/-- What was in the directory does not matter. -/
theorem Rid.of_agree (h : m₁.Rid p d m') (hcwd : m₁.workingDirectory = m.workingDirectory)
    (hagree : ∀ k, ¬ FileTree.isBelow k d → m₁.files.at? k = m.files.at? k) : m.Rid p d m' where
  sound := h.sound
  workingDirectory := h.workingDirectory.trans hcwd
  below := h.below
  self hreaches := h.self (hreaches.of_agree hcwd fun k hk hdir => (hagree k hk).trans hdir)
  left hnot := h.left fun hreaches =>
    hnot (hreaches.of_agree hcwd.symm fun k hk hdir => (hagree k hk).symm.trans hdir)
  elsewhere k hk :=
    (h.elsewhere k hk).trans (hagree k fun hbelow => hk (FileTree.isBelow_iff.1 hbelow).1)

/-- To remove a directory does not fail where its path ends in a name. -/
theorem Enters.respond_removeDirectory (h : m.Enters (p.child name) d) (hm : m.Sound)
    (hname : Path.IsNormal name) :
    ∃ m', respond (.removeDirectory (p.child name)) m = (.ok (), m') ∧
      m.Rid (p.child name) d m' := by
  obtain ⟨-, l, rfl⟩ := exists_of_resolve_child hname h.resolve
  have hne : l ++ [name] ≠ [] := by simp
  have hemptied := at?_emptied m (l ++ [name])
  have hself : (m.emptied (l ++ [name])).files.at? (l ++ [name]) = some .directory := by
    rw [hemptied, if_neg fun h => absurd (FileTree.isBelow_iff.1 h).2 (Nat.lt_irrefl _),
      h.directory]
  have hresolve : (m.emptied (l ++ [name])).resolve (p.child name) = .ok (l ++ [name]) ∨
      (m.emptied (l ++ [name])).resolve (p.child name) = .error .notFound :=
    resolve_of_fewer (m := m) rfl (fun k => by rw [hemptied]; split <;> simp) h.resolve
  have hremove : respond (.removeDirectory (p.child name)) m =
      ((m.removeDirectory (p.child name)).2, (m.removeDirectory (p.child name)).1) := rfl
  rcases hresolve with hok | hmissing
  -- The path still leads to the directory when all in it is gone, or else leads to nothing.
  · have hreaches : m.Reaches (p.child name) (l ++ [name]) := ⟨hok, hself⟩
    have hcut := at?_cut (m := m) hne
    have hdone : respond (.removeDirectory (p.child name)) m = (.ok (), m.cut (l ++ [name])) := by
      rw [hremove, hreaches.removeDirectory hname]
    refine ⟨m.cut (l ++ [name]), hdone, hm.cut hne, rfl, fun k hk => ?_, fun _ => ?_,
      fun h => absurd hreaches h, fun k hk => ?_⟩
    · rw [hcut, if_pos (FileTree.isBelow_iff.1 hk).1]
    · rw [hcut, if_pos (List.prefix_refl _)]
    · rw [hcut, if_neg hk]
  · have hremoved : m.removeDirectory (p.child name) = (m.emptied (l ++ [name]), .ok ()) := by
      rw [Machine.removeDirectory, h.find]
      simp only
      rw [← emptied, Machine.find, hmissing]
      rfl
    refine ⟨m.emptied (l ++ [name]), by rw [hremove, hremoved], hm.emptied _, rfl, fun k hk => ?_,
      fun hreaches => ?_, fun _ => hself, fun k hk => ?_⟩
    · rw [hemptied, if_pos hk]
    · rw [hreaches.resolve] at hmissing
      cases hmissing
    · rw [hemptied, if_neg fun hbelow => hk (FileTree.isBelow_iff.1 hbelow).1]

end Machine

namespace FileStore

/-! ## Locks that are in the way -/

/-- A lock whose text cannot be read has no holder. -/
theorem run_lockHolder_of_error {e : FileFault}
    (hread : m.run (ask (.readText s.lockPath)) = (some (.error e), m)) (he : e ≠ .notFound) :
    m.run s.lockHolder = (some (.error (.files e)), m) := by
  rw [lockHolder, run_bind hread]
  cases e with
  | notFound => exact absurd rfl he
  | _ => rfl

/-- What is no text cannot be read as a lock, and is not taken for an abandoned one. -/
theorem exists_run_acquire_error {n : FileNode} (h : m.Opens s.directory d)
    (hlock : m.files.at? (d ++ ["lock.json"]) = some n)
    (hn : ∀ id text modified, n ≠ .file id (.text text) modified) :
    ∃ e, m.run s.acquire = (some (.error e), m) := by
  have hnow : m.run (ask .now) = (some m.today, m) := run_ask _
  obtain ⟨e, hholder⟩ : ∃ e, m.run s.lockHolder = (some (.error (.files e)), m) := by
    have hfind := h.find_child isFileName_lock
    rw [hlock] at hfind
    have hread : m.run (ask (.readText s.lockPath)) = (some (m.readText s.lockPath), m) := run_ask _
    rw [Machine.readText, lockPath, hfind] at hread
    cases n with
    | directory => exact ⟨.isADirectory, run_lockHolder_of_error hread (by simp)⟩
    | file id content modified =>
      cases content with
      | text text => exact absurd rfl (hn id text modified)
      | bytes bytes => exact ⟨.notText, run_lockHolder_of_error hread (by simp)⟩
  refine ⟨.files e, ?_⟩
  rw [acquire, run_bind (run_ensureDirectory_of_opens h)]
  simp only
  rw [run_bind hnow, run_bind (run_createLock_of_lock h hlock _)]
  simp only
  rw [run_bind hholder]
  rfl

/-- A lock that cannot be taken at any try is not taken. -/
theorem exists_run_lock_error
    (hfails : ∀ j < s.lockRetry.attempts, ∃ e, (m.waits s.lockRetry.interval j).run s.acquire =
      (some (.error e), m.waits s.lockRetry.interval j)) :
    ∃ e, m.run s.lock =
      (some (.error e), m.waits s.lockRetry.interval (s.lockRetry.attempts - 1)) := by
  have hlast := Nat.sub_one_lt_of_lt s.lockRetry.attempts_pos
  obtain ⟨e, he⟩ := hfails _ hlast
  have htries : m.run (Retrier.attempt (ask (.wait s.lockRetry.interval)) "acquire state lock"
      s.acquire 0 (s.lockRetry.attempts - 1 + 0)) = _ :=
    Retrier.run_attempt fun j hj => hfails j (Nat.lt_trans hj hlast)
  refine ⟨e, ?_⟩
  rw [lock, Retrier.run, ← Nat.add_zero (s.lockRetry.attempts - 1), run_bind_congr htries,
    Retrier.attempt, bind_assoc, run_bind he]
  rfl

/-- The lock that a store has taken is all that is new. -/
theorem Lockable.locked_spec (h : s.Lockable d m) (hm : m.Sound) : (s.locked d m).Sound ∧
    ∀ k, k ≠ d ++ ["lock.json"] → (s.locked d m).files.at? k = m.files.at? k := by
  have hremoved : (m.remove (d ++ ["lock.json"])).Sound ∧ ∀ k,
      (m.remove (d ++ ["lock.json"])).files.at? k =
        if k = d ++ ["lock.json"] then none else m.files.at? k := by
    cases hn : m.files.at? (d ++ ["lock.json"]) with
    | none =>
      rw [Machine.remove_of_none (by simp) hn]
      refine ⟨hm, fun k => ?_⟩
      split
      · next hk => rw [hk, hn]
      · rfl
    | some n =>
      obtain ⟨id, text, modified, rfl⟩ := h.text n hn
      exact ⟨hm.remove hn, Machine.at?_remove hn⟩
  obtain ⟨hsound, hat⟩ := hremoved
  -- The new lock is made where the abandoned one was removed, if there was one.
  have hgone : (m.remove (d ++ ["lock.json"])).files.at? (d ++ ["lock.json"]) ≠ some .directory :=
    ne_directory_of_none ((hat _).trans (if_pos rfl))
  have hd : (m.remove (d ++ ["lock.json"])).files.at? d = some .directory := by
    rw [hat, if_neg (by simp), h.opens.directory]
  refine ⟨hsound.put hd isFileName_lock hgone _, fun k hk => ?_⟩
  rw [locked, hsound.at?_put (by simp), if_neg hk, hat, if_neg hk]

/-! ## Removing -/

/-- With a lock that can be read, the removal waits for its turn and does not fail then. -/
theorem run_destroy_of_lockable (hm : m.Sound) (hname : Path.IsNormal s.name)
    (h : m.Enters s.directory d) (hlockable : s.Lockable d m) :
    (∃ e m', m.run s.destroy = (some (.error e), m') ∧ m.Later m') ∨
      ∃ m', m.run s.destroy = (some (.ok ()), m') ∧ m.Rid s.directory d m' := by
  have hlater := Machine.later_waits hm s.lockRetry.interval
  have hready (n : Nat) : (s.locked d (m.waits s.lockRetry.interval n)).Sound ∧
      (s.locked d (m.waits s.lockRetry.interval n)).Enters s.directory d ∧
      ∀ k, ¬ FileTree.isBelow k d →
        (s.locked d (m.waits s.lockRetry.interval n)).files.at? k = m.files.at? k := by
    obtain ⟨hsound, hat⟩ := (hlockable.thinned (Machine.thinned_waits m _ n).1).locked_spec
      ((hlater n).sound hm)
    rw [(hlater n).files_eq] at hat
    have hnot {k : Location} (hk : ¬ FileTree.isBelow k d) : k ≠ d ++ ["lock.json"] := by
      rintro rfl
      exact hk (FileTree.isBelow_iff.2 ⟨List.prefix_append _ _, by simp⟩)
    refine ⟨hsound, ((hlater n).enters h).mono rfl fun k hk => ?_, fun k hk => hat k (hnot hk)⟩
    rw [(hlater n).files_eq] at hk
    rw [hat k, hk]
    rintro rfl
    exact hlockable.ne_directory hk
  have hturn : s.TakesTurn d m (ask (.removeDirectory s.directory)) _ :=
    takesTurn_whileLocked hlockable fun n =>
      ⟨_, _, run_ask _, findsLock_removeDirectory (hready n).2.1⟩
  rw [run_destroy_of_enters h]
  generalize m.run (s.whileLocked (ask (.removeDirectory s.directory))) = x at hturn
  cases hturn with
  | turnedAway hrespects hlast => exact .inl ⟨_, _, rfl, hlater _⟩
  | @carriedOut n result m₁ m' hrespects hn hfree hrun hgone hrest =>
    obtain ⟨hsound, henters, hagree⟩ := hready n
    rw [directory, hname.join_eq_child] at henters hrun ⊢
    obtain ⟨m₂, hremove, hrid⟩ := henters.respond_removeDirectory hsound hname
    rw [run_ask, hremove] at hrun
    obtain ⟨rfl, rfl⟩ : .ok () = result ∧ m₂ = m₁ := by
      cases hrun
      exact ⟨rfl, rfl⟩
    -- The lock was in the directory.
    have hlock : m₂.files.at? (d ++ ["lock.json"]) = none :=
      hrid.below _ (FileTree.isBelow_iff.2 ⟨List.prefix_append _ _, by simp⟩)
    rw [Machine.remove_of_none (by simp) hlock] at hrest
    subst hrest
    exact .inr ⟨_, rfl, hrid.of_agree (hlater n).workingDirectory_eq hagree⟩

/-- To remove what is kept of a cluster fails before anything has changed, or it is gone. -/
theorem run_destroy_cases (hm : m.Sound) (hname : Path.IsNormal s.name)
    (h : m.Enters s.directory d) :
    (∃ e m', m.run s.destroy = (some (.error e), m') ∧ m.Later m') ∨
      ∃ m', m.run s.destroy = (some (.ok ()), m') ∧ m.Rid s.directory d m' := by
  by_cases htext : ∀ n, m.files.at? (d ++ ["lock.json"]) = some n →
      ∃ id text modified, n = .file id (.text text) modified
  · exact run_destroy_of_lockable hm hname h ⟨h.opens, htext⟩
  · simp only [not_forall] at htext
    obtain ⟨n, hlock, hn⟩ := htext
    have hlater := Machine.later_waits hm s.lockRetry.interval
    have hfails (j : Nat) : ∃ e, (m.waits s.lockRetry.interval j).run s.acquire =
        (some (.error e), m.waits s.lockRetry.interval j) := by
      refine exists_run_acquire_error (n := n) ((hlater j).enters h).opens ?_ ?_
      · rw [(hlater j).files_eq, hlock]
      · rintro id text modified rfl
        exact hn ⟨id, text, modified, rfl⟩
    obtain ⟨e, he⟩ := exists_run_lock_error fun j _ => hfails j
    refine .inl ⟨e, m.waits s.lockRetry.interval (s.lockRetry.attempts - 1), ?_, hlater _⟩
    rw [run_destroy_of_enters h, whileLocked, run_bind he]
    rfl

end FileStore

end ClusterKeeper
