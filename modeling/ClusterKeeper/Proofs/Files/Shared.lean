/-
# Files that several programs work on

A path leads to one location or nowhere, whatever there is on the way. So a program that knows the
path of a file knows which requests of others may touch it: what they leave of the files at a
location is told here request by request, and where a file of a given identity may be then.
-/

import ClusterKeeper.Proofs.Files.Faults

namespace ClusterKeeper

open FileTree (IsFileName ne_directory_of_none ne_directory_of_file)

/-- Where a part of a path leads to from a location, if it leads anywhere. -/
def Path.follow (l : Location) (part : String) : Location :=
  if part = "." then l else if part = ".." then l.dropLast else l ++ [part]

/-! ## Files at locations -/

/-- The identity of a file, its content and when it was last written. -/
def FileNode.file? : FileNode → Option (FileId × Content × Moment)
  | .file id content modified => some (id, content, modified)
  | .directory => none

namespace FileTree

variable {t : FileTree} {k l : Location} {id : FileId} {content : Content} {modified : Moment}

/-- The file at a location. -/
def fileAt? (t : FileTree) (l : Location) : Option (FileId × Content × Moment) :=
  (t.at? l).bind FileNode.file?

theorem fileAt?_eq_some :
    t.fileAt? l = some (id, content, modified) ↔ t.at? l = some (.file id content modified) := by
  rw [fileAt?, Option.bind_eq_some_iff]
  constructor
  · rintro ⟨_ | _, hn, hfile⟩ <;> cases hfile
    exact hn
  · intro h
    exact ⟨_, h, rfl⟩

theorem fileAt?_of_none (h : t.at? l = none) : t.fileAt? l = none := by
  rw [fileAt?, h]
  rfl

theorem fileAt?_insert (h : k ≠ []) (n : FileNode) (l : Location) :
    FileTree.fileAt? (t.insert k n) l = if l = k then n.file? else t.fileAt? l := by
  rw [fileAt?, at?_insert h]
  split <;> rfl

theorem fileAt?_erase (h : k ≠ []) (l : Location) :
    FileTree.fileAt? (t.erase k) l = if l = k then none else t.fileAt? l := by
  rw [fileAt?, at?_erase h]
  split <;> rfl

theorem fileAt?_of_erase {x : FileId × Content × Moment}
    (h : FileTree.fileAt? (t.erase k) l = some x) : t.fileAt? l = some x := by
  by_cases hl : l = []
  · subst hl
    cases h
  · rw [fileAt?, at?_of_ne_nil hl] at h ⊢
    rw [SortedMap.find?_erase] at h
    split at h
    · cases h
    · exact h

theorem fileAt?_clear (t : FileTree) (k l : Location) :
    (t.clear k).fileAt? l = if isBelow l k then none else t.fileAt? l := by
  rw [fileAt?, at?_clear]
  split <;> rfl

theorem fileAt?_fill (t : FileTree) (id : FileId) (content : Content) (now : Moment)
    (l : Location) : (t.fill id content now).fileAt? l =
      (t.fileAt? l).map fun x => if x.1 = id then (id, content, now) else x := by
  rw [fileAt?, fileAt?, at?_fill]
  rcases t.at? l with _ | ⟨i, c, modified⟩ | _
  · rfl
  · by_cases hi : i = id
    · simp [FileNode.file?, hi]
    · simp [FileNode.file?, hi]
  · rfl

/-- What is moved is found in its new place. -/
theorem exists_of_fileAt?_move {source target : Location} (hs : source ≠ []) (ht : target ≠ [])
    {x : FileId × Content × Moment} (h : (t.move source target).fileAt? k = some x) :
    target <+: k ∧ t.fileAt? (source ++ k.drop target.length) = some x ∨ t.fileAt? k = some x := by
  obtain ⟨n, hn, hx⟩ := Option.bind_eq_some_iff.1 h
  rw [at?_move hs ht, Option.or_eq_some_iff, Option.ite_none_right_eq_some] at hn
  rcases hn with ⟨hk, hn⟩ | ⟨-, hn⟩
  · rw [← at?_of_ne_nil (List.append_ne_nil_of_left_ne_nil hs _)] at hn
    exact .inl ⟨hk, Option.bind_eq_some_iff.2 ⟨n, hn, hx⟩⟩
  · rw [Option.ite_none_left_eq_some] at hn
    exact .inr (Option.bind_eq_some_iff.2 ⟨n, hn.2, hx⟩)

/-- What is neither in the old place nor in the new one stays. -/
theorem fileAt?_move {source target : Location} (hs : source ≠ []) (ht : target ≠ [])
    (hl : ¬ source <+: l) (hl' : ¬ target <+: l) :
    (t.move source target).fileAt? l = t.fileAt? l := by
  have hne : l ≠ target := by
    rintro rfl
    exact hl' (List.prefix_refl _)
  rw [fileAt?, at?_move hs ht, if_neg hl', if_neg (not_or.2 ⟨hl, hne⟩)]
  rfl

end FileTree

namespace Machine

variable {m m' : Machine} {p q : Path} {d k l : Location} {f : String} {id : FileId}
variable {content : Content} {modified : Moment} {x : FileId × Content × Moment}

/-! ## The target of a path -/

/-- The location that a path leads to, if it leads anywhere. -/
def target (m : Machine) (p : Path) : Location := p.parts.foldl Path.follow (m.origin p)

theorem eq_follow_of_step {part : String} (h : m.files.step l part = .ok k) :
    k = Path.follow l part := by
  rw [FileTree.step] at h
  split at h
  · cases h
  · cases h
  · rw [Path.follow]
    split at h
    · next hdot =>
      cases h
      rw [if_pos hdot]
    · next hdot =>
      rw [if_neg hdot]
      split at h
      · next hdots =>
        cases h
        rw [if_pos hdots]
      · next hdots =>
        rw [if_neg hdots]
        split at h <;> cases h
        rfl

theorem eq_foldl_follow {parts : List String} (h : parts.foldlM m.files.step l = .ok k) :
    k = parts.foldl Path.follow l := by
  induction parts generalizing l with
  | nil =>
    cases h
    rfl
  | cons part parts ih =>
    obtain ⟨j, hstep, hrest⟩ := exists_of_foldlM_step_cons h
    rw [List.foldl_cons, ← eq_follow_of_step hstep]
    exact ih hrest

theorem eq_target_of_resolve (h : m.resolve p = .ok l) : l = m.target p := by
  rw [resolve, FileTree.resolve] at h
  split at h
  · cases h
  · split at h
    · cases h
    · exact eq_foldl_follow h

theorem eq_target_of_find {n : FileNode} (h : m.find p = .ok (l, n)) :
    l = m.target p ∧ m.files.at? l = some n := by
  obtain ⟨hl, hn⟩ := eq_ok_of_find h
  exact ⟨eq_target_of_resolve hl, hn⟩

theorem target_child (m : Machine) (p : Path) (hf : IsFileName f) :
    m.target (p.child f) = m.target p ++ [f] := by
  rw [target, Path.child, List.foldl_append]
  simp only [List.foldl_cons, List.foldl_nil]
  rw [Path.follow, if_neg hf.ne_dot, if_neg hf.ne_dots]
  rfl

theorem target_congr (h : m'.workingDirectory = m.workingDirectory) (p : Path) :
    m'.target p = m.target p := by
  rw [target, target, origin, origin, h]

/-! ## Machines one behind the other -/

/-- No file has the identity of one that is yet to be made, and nothing will be removed from
outside. -/
structure Settled (m : Machine) : Prop where
  fresh : ∀ {l x}, m.files.fileAt? l = some x → x.1 < m.nextId
  quiet : m.removals = []

/-- Time has gone on, and the file at a location has come to no other place. -/
structure Becomes (m : Machine) (l : Location) (m' : Machine) : Prop where
  settled : m'.Settled
  workingDirectory : m'.workingDirectory = m.workingDirectory
  nextId_le : m.nextId ≤ m'.nextId
  today_le : m.today.toNanos ≤ m'.today.toNanos
  /-- A file that is not new was there before, and not at the location unless it still is. -/
  origin : ∀ {k x}, m'.files.fileAt? k = some x → m.nextId ≤ x.1 ∨
    ∃ k' y, m.files.fileAt? k' = some y ∧ y.1 = x.1 ∧ (k' = l → k = l)

/-- The file at the location has not changed either. -/
structure Keeps (m : Machine) (l : Location) (m' : Machine) : Prop extends m.Becomes l m' where
  fileAt?_eq : m'.files.fileAt? l = m.files.fileAt? l

/-- A file that is nowhere else is nowhere else afterwards. -/
theorem Becomes.eq_of_only (h : m.Becomes l m') (hid : id < m.nextId)
    (honly : ∀ {k x}, m.files.fileAt? k = some x → x.1 = id → k = l)
    (hk : m'.files.fileAt? k = some x) (hx : x.1 = id) : k = l := by
  rcases h.origin hk with hnew | ⟨k', y, hk', heq, hplace⟩
  · exact absurd (hx ▸ hid) (Nat.not_lt.2 hnew)
  · exact hplace (honly hk' (heq.trans hx))

/-- Files stay where they are or go away. -/
theorem becomes_of_fewer (hm : m.Settled) (hcwd : m'.workingDirectory = m.workingDirectory)
    (hid : m'.nextId = m.nextId) (htoday : m.today.toNanos ≤ m'.today.toNanos)
    (hquiet : m'.removals = [])
    (h : ∀ {k x}, m'.files.fileAt? k = some x → ∃ y, m.files.fileAt? k = some y ∧ y.1 = x.1) :
    m.Becomes l m' where
  settled.fresh hk := by
    obtain ⟨y, hy, heq⟩ := h hk
    rw [hid, ← heq]
    exact hm.fresh hy
  settled.quiet := hquiet
  workingDirectory := hcwd
  nextId_le := Nat.le_of_eq hid.symm
  today_le := htoday
  origin {k _} hk := by
    obtain ⟨y, hy, heq⟩ := h hk
    exact .inr ⟨k, y, hy, heq, fun hl => hl⟩

theorem keeps_of_fileAt?_eq (hm : m.Settled) (hcwd : m'.workingDirectory = m.workingDirectory)
    (hid : m'.nextId = m.nextId) (htoday : m.today.toNanos ≤ m'.today.toNanos)
    (hquiet : m'.removals = []) (h : ∀ k, m'.files.fileAt? k = m.files.fileAt? k) :
    m.Keeps l m' where
  toBecomes := becomes_of_fewer hm hcwd hid htoday hquiet fun {k x} hk => ⟨x, h k ▸ hk, rfl⟩
  fileAt?_eq := h l

theorem Settled.keeps (hm : m.Settled) : m.Keeps l m :=
  keeps_of_fileAt?_eq hm rfl rfl (Int.le_refl _) hm.quiet fun _ => rfl

/-! ## Requests -/

theorem keeps_makeDirectory (hm : m.Settled) (q : Path) :
    m.Keeps l (respond (.makeDirectory q) m).2 := by
  rw [respond]
  cases hok : m.makeDirectory q with
  | error e => exact hm.keeps
  | ok m' =>
    obtain ⟨k, -, hnone, rfl⟩ := eq_ok_of_makeDirectory hok
    have hk : k ≠ [] := ne_nil_of_at? (ne_directory_of_none hnone)
    refine keeps_of_fileAt?_eq hm rfl rfl (Int.le_refl _) hm.quiet fun j => ?_
    refine (FileTree.fileAt?_insert hk _ _).trans ?_
    split
    · next hj => rw [hj, FileTree.fileAt?_of_none hnone]; rfl
    · rfl

/-- Time passes on a machine that nothing disturbs. -/
theorem keeps_wait (hm : m.Settled) (t : Duration) : m.Keeps l (respond (.wait t) m).2 := by
  obtain ⟨files, cwd, nextId, clock, today, stopped, removals⟩ := m
  obtain ⟨hfresh, rfl⟩ := hm
  refine keeps_of_fileAt?_eq ⟨hfresh, rfl⟩ rfl rfl ?_ rfl fun _ => rfl
  simp only [respond, wait, removeDue, List.filter_nil, List.foldl_nil]
  cases stopped
  · simp only [Moment.toNanos, nanosPerSecond, Bool.false_eq_true, if_false]
    omega
  · exact Int.le_refl _

/-- A file is made anew, or emptied where it is. -/
theorem becomes_insert (hm : m.Settled) (hk : k ≠ [])
    (hcwd : m'.workingDirectory = m.workingDirectory) (htoday : m'.today = m.today)
    (hquiet : m'.removals = []) (hnext : m.nextId ≤ m'.nextId) (hid : id < m'.nextId)
    (hold : id = m.nextId ∨ ∃ x, m.files.fileAt? k = some x ∧ x.1 = id)
    (hfiles : m'.files = m.files.insert k (.file id content modified)) : m.Becomes l m' where
  settled.fresh {j x} hj := by
    rw [hfiles, FileTree.fileAt?_insert hk] at hj
    split at hj
    · cases hj
      exact hid
    · exact Nat.lt_of_lt_of_le (hm.fresh hj) hnext
  settled.quiet := hquiet
  workingDirectory := hcwd
  nextId_le := hnext
  today_le := Int.le_of_eq (congrArg Moment.toNanos htoday.symm)
  origin {j x} hj := by
    rw [hfiles, FileTree.fileAt?_insert hk] at hj
    split at hj
    · next heq =>
      cases hj
      rcases hold with rfl | ⟨y, hy, heq'⟩
      · exact .inl (Nat.le_refl _)
      · exact .inr ⟨k, y, hy, heq', fun hl => heq.trans hl⟩
    · exact .inr ⟨j, x, hj, rfl, fun hl => hl⟩

/-- A new file is made where there was nothing, or nothing happens. -/
theorem becomes_createNew (hm : m.Settled) (q : Path) :
    m.Becomes l (respond (.createNew q) m).2 ∧
      ((∃ e, (respond (.createNew q) m).1 = .error e) ∧ (respond (.createNew q) m).2 = m ∨
        (respond (.createNew q) m).1 = .ok m.nextId ∧ m.files.at? (m.target q) = none ∧
          m.nextId < (respond (.createNew q) m).2.nextId ∧
          (respond (.createNew q) m).2.today = m.today ∧
          ∀ j, (respond (.createNew q) m).2.files.fileAt? j =
            if j = m.target q then some (m.nextId, .text "", m.today) else m.files.fileAt? j) := by
  rw [respond]
  cases hok : m.createNew q with
  | error e => exact ⟨hm.keeps.toBecomes, .inl ⟨⟨e, rfl⟩, rfl⟩⟩
  | ok y =>
    obtain ⟨id, m'⟩ := y
    obtain ⟨k, hresolve, hnone, rfl, rfl⟩ := eq_ok_of_createNew hok
    obtain rfl := eq_target_of_resolve hresolve
    have hne : m.target q ≠ [] := ne_nil_of_at? (ne_directory_of_none hnone)
    exact ⟨becomes_insert hm hne rfl rfl hm.quiet (Nat.le_succ _) (Nat.lt_succ_self _) (.inl rfl)
      rfl, .inr ⟨rfl, hnone, Nat.lt_succ_self _, rfl, FileTree.fileAt?_insert hne _⟩⟩

/-- A file is removed, or nothing happens. -/
theorem becomes_removeFile (hm : m.Settled) (q : Path) :
    m.Becomes l (respond (.removeFile q) m).2 ∧
      ((∃ e, (respond (.removeFile q) m).1 = .error e) ∧ (respond (.removeFile q) m).2 = m ∨
        (respond (.removeFile q) m).1 = .ok () ∧ ∀ j,
          (respond (.removeFile q) m).2.files.fileAt? j =
            if j = m.target q then none else m.files.fileAt? j) := by
  rw [respond]
  cases hok : m.removeFile q with
  | error e => exact ⟨hm.keeps.toBecomes, .inl ⟨⟨e, rfl⟩, rfl⟩⟩
  | ok m' =>
    obtain ⟨k, id, content, modified, hfind, rfl⟩ := eq_ok_of_removeFile hok
    obtain ⟨rfl, hk⟩ := eq_target_of_find hfind
    have hne : m.target q ≠ [] := ne_nil_of_at? (ne_directory_of_file hk)
    have hfile (j : Location) := FileTree.fileAt?_erase (t := m.files) hne j
    refine ⟨becomes_of_fewer hm rfl rfl (Int.le_refl _) hm.quiet fun {j x} hj => ?_,
      .inr ⟨rfl, hfile⟩⟩
    have hj := (hfile j).symm.trans hj
    rw [Option.ite_none_left_eq_some] at hj
    exact ⟨x, hj.2, rfl⟩

/-- A directory is removed with what is in it, or some of that is, or nothing happens. -/
theorem becomes_removeDirectory (hm : m.Settled) (q : Path) :
    m.Becomes l (respond (.removeDirectory q) m).2 ∧
      ∀ {j x}, (respond (.removeDirectory q) m).2.files.fileAt? j = some x →
        m.files.fileAt? j = some x := by
  suffices hfewer : (m.removeDirectory q).1.workingDirectory = m.workingDirectory ∧
      (m.removeDirectory q).1.nextId = m.nextId ∧ (m.removeDirectory q).1.today = m.today ∧
      (m.removeDirectory q).1.removals = m.removals ∧
      ∀ {j x}, (m.removeDirectory q).1.files.fileAt? j = some x → m.files.fileAt? j = some x by
    obtain ⟨hcwd, hid, htoday, hquiet, hfiles⟩ := hfewer
    exact ⟨becomes_of_fewer hm hcwd hid (Int.le_of_eq (congrArg _ htoday.symm))
      (hquiet.trans hm.quiet) fun {j x} hj => ⟨x, hfiles hj, rfl⟩, hfiles⟩
  -- Whether the directory goes too or only what is in it, no file comes up anywhere.
  have hclear {k j : Location} {x : FileId × Content × Moment}
      (hj : (m.files.clear k).fileAt? j = some x) : m.files.fileAt? j = some x := by
    rw [FileTree.fileAt?_clear, Option.ite_none_left_eq_some] at hj
    exact hj.2
  have hcut {k j : Location} {x : FileId × Content × Moment}
      (hj : FileTree.fileAt? ((m.files.clear k).erase k) j = some x) :
      m.files.fileAt? j = some x := hclear (FileTree.fileAt?_of_erase hj)
  rw [removeDirectory]
  split
  · exact ⟨rfl, rfl, rfl, rfl, fun hj => hj⟩
  · exact ⟨rfl, rfl, rfl, rfl, fun hj => hj⟩
  · dsimp only
    split
    · exact ⟨rfl, rfl, rfl, rfl, hclear⟩
    · exact ⟨rfl, rfl, rfl, rfl, hclear⟩
    · split
      · exact ⟨rfl, rfl, rfl, rfl, hclear⟩
      · split
        · exact ⟨rfl, rfl, rfl, rfl, hclear⟩
        · split
          · exact ⟨rfl, rfl, rfl, rfl, hclear⟩
          · exact ⟨rfl, rfl, rfl, rfl, hcut⟩

/-- A write fills the file of its identity wherever that is. -/
theorem becomes_write (hm : m.Settled) (id : FileId) (text : String) :
    m.Becomes l (respond (.write id text) m).2 := by
  refine becomes_of_fewer hm rfl rfl (Int.le_refl _) hm.quiet fun {j x} hj => ?_
  have hj := (FileTree.fileAt?_fill _ _ _ _ _).symm.trans hj
  obtain ⟨y, hy, heq⟩ := Option.map_eq_some_iff.1 hj
  refine ⟨y, hy, ?_⟩
  split at heq
  · next hid => rw [← heq, hid]
  · rw [heq]

/-- Another file than the one at the location is opened to be written anew, and it is of another
identity than a file that is nowhere else. -/
theorem keeps_createEmpty (hm : m.Settled) (hq : m.target q ≠ l) :
    m.Keeps l (respond (.createEmpty q) m).2 ∧
      ∀ id, (respond (.createEmpty q) m).1 = .ok id →
        id = m.nextId ∨ ∃ x, m.files.fileAt? (m.target q) = some x ∧ x.1 = id := by
  rw [respond]
  cases hok : m.createEmpty q with
  | error e => exact ⟨hm.keeps, fun id hid => by cases hid⟩
  | ok y =>
    obtain ⟨id, m'⟩ := y
    obtain ⟨k, hresolve, hcases⟩ := eq_ok_of_createEmpty hok
    obtain rfl := eq_target_of_resolve hresolve
    rcases hcases with ⟨content, modified, hfile, rfl⟩ | ⟨hnone, rfl, rfl⟩
    · have hne : m.target q ≠ [] := ne_nil_of_at? (ne_directory_of_file hfile)
      have hold := FileTree.fileAt?_eq_some.2 hfile
      refine ⟨⟨becomes_insert hm hne rfl rfl hm.quiet (Nat.le_refl _) (hm.fresh hold)
        (.inr ⟨_, hold, rfl⟩) rfl, ?_⟩, ?_⟩
      · exact (FileTree.fileAt?_insert hne _ _).trans (if_neg (Ne.symm hq))
      · rintro _ ⟨⟩
        exact .inr ⟨_, hold, rfl⟩
    · have hne : m.target q ≠ [] := ne_nil_of_at? (ne_directory_of_none hnone)
      refine ⟨⟨becomes_insert hm hne rfl rfl hm.quiet (Nat.le_succ _) (Nat.lt_succ_self _)
        (.inl rfl) rfl, ?_⟩, ?_⟩
      · exact (FileTree.fileAt?_insert hne _ _).trans (if_neg (Ne.symm hq))
      · rintro _ ⟨⟩
        exact .inl rfl

theorem keeps_rename (hm : m.Settled) (hp : ¬ m.target p <+: l) (hq : ¬ m.target q <+: l) :
    m.Keeps l (respond (.rename p q) m).2 := by
  rw [respond]
  cases hok : m.rename p q with
  | error e => exact hm.keeps
  | ok m' =>
    obtain ⟨j, n, k, hfind, hresolve, rfl, -⟩ := eq_ok_of_rename hok
    obtain ⟨rfl, -⟩ := eq_target_of_find hfind
    obtain rfl := eq_target_of_resolve hresolve
    have hne {k : Location} (hk : ¬ k <+: l) : k ≠ [] := by
      rintro rfl
      exact hk (List.nil_prefix)
    -- A file that is somewhere behind the move was there before, or at the source.
    have hmoved {i : Location} {x : FileId × Content × Moment}
        (hi : (m.files.move (m.target p) (m.target q)).fileAt? i = some x) :=
      FileTree.exists_of_fileAt?_move (hne hp) (hne hq) hi
    refine ⟨⟨⟨fun hi => ?_, hm.quiet⟩, rfl, Nat.le_refl _, Int.le_refl _, fun {i x} hi => ?_⟩, ?_⟩
    · rcases hmoved hi with ⟨-, hi⟩ | hi <;> exact hm.fresh hi
    · refine .inr ?_
      rcases hmoved hi with ⟨-, hi⟩ | hi
      · exact ⟨_, x, hi, rfl, fun hl => absurd (hl ▸ List.prefix_append _ _) hp⟩
      · exact ⟨i, x, hi, rfl, fun hl => hl⟩
    · exact FileTree.fileAt?_move (hne hp) (hne hq) hp hq

theorem fileAt?_of_readText {text : String} (h : m.readText q = .ok text) :
    ∃ id modified, m.files.fileAt? (m.target q) = some (id, .text text, modified) := by
  obtain ⟨⟨k, ⟨id, _ | _, modified⟩ | _⟩, hfind, h⟩ := exists_ok_of_bind h <;> cases h
  obtain ⟨rfl, hk⟩ := eq_target_of_find hfind
  exact ⟨id, modified, FileTree.fileAt?_eq_some.2 hk⟩

theorem eq_of_modified {t : Moment} (h : m.modified q = .ok t)
    (hx : m.files.fileAt? (m.target q) = some x) : x.2.2 = t := by
  obtain ⟨id, content, modified⟩ := x
  have hx := FileTree.fileAt?_eq_some.1 hx
  obtain ⟨⟨k, n⟩, hfind, h⟩ := exists_ok_of_bind h
  obtain ⟨rfl, hk⟩ := eq_target_of_find hfind
  rw [hk] at hx
  cases hx
  cases h
  rfl

theorem keeps_removeFile (hm : m.Settled) (hq : m.target q ≠ l) :
    m.Keeps l (respond (.removeFile q) m).2 := by
  obtain ⟨hbecomes, ⟨-, hm'⟩ | ⟨-, hfile⟩⟩ := becomes_removeFile (l := l) hm q
  · rw [hm']
    exact hm.keeps
  · exact ⟨hbecomes, (hfile l).trans (if_neg (Ne.symm hq))⟩

theorem keeps_write (hm : m.Settled) {text : String}
    (hl : ∀ x, m.files.fileAt? l = some x → x.1 ≠ id) :
    m.Keeps l (respond (.write id text) m).2 := by
  refine ⟨becomes_write hm id text, ?_⟩
  refine (FileTree.fileAt?_fill _ _ _ _ _).trans ?_
  cases hx : m.files.fileAt? l with
  | none => rfl
  | some x => exact congrArg some (if_neg (hl x hx))

end Machine

end ClusterKeeper
