/-
# File systems that fail

A file system that may refuse every request and break off every write, with time passing between
two requests. What a program does with it is followed by what stays the same: everything apart from
some locations and from directories that come up on the way to one.
-/

import ClusterKeeper.Proofs.Files.Ways

namespace ClusterKeeper

open FileTree (IsFileName ne_directory_of_none ne_directory_of_file)
open FileDialogue (ask)

/-- Answers can be compared. -/
instance decidableEqAnswer {ε α : Type} [DecidableEq ε] [DecidableEq α] : DecidableEq (Except ε α)
  | .ok x, .ok y => decidable_of_iff (x = y) ⟨congrArg _, Except.ok.inj⟩
  | .error e, .error e' => decidable_of_iff (e = e') ⟨congrArg _, Except.error.inj⟩
  | .ok _, .error _ => isFalse nofun
  | .error _, .ok _ => isFalse nofun

/-- A request with the answer it got. -/
abbrev FileExchange := Dialogue.Exchange FileRequest.Answer

/-- The answer by which a request is refused. Time is told and passes in any case. -/
def FileRequest.refusal (e : FileFault) : (r : FileRequest) → Option r.Answer
  | .isDirectory _ => some (.error e)
  | .makeDirectory _ => some (.error e)
  | .createNew _ => some (.error e)
  | .createEmpty _ => some (.error e)
  | .write _ _ => some (.error e)
  | .readText _ => some (.error e)
  | .modified _ => some (.error e)
  | .removeFile _ => some (.error e)
  | .removeDirectory _ => some (.error e)
  | .rename _ _ => some (.error e)
  | .list _ => some (.error e)
  | .now => none
  | .wait _ => none

namespace Machine

variable {m m' m₁ : Machine} {p q : Path} {d k l : Location} {f g : String} {id : FileId}
variable {log log' : List FileExchange} {S S' : Location → Prop}

/-- The machine at another time of the calendar. -/
def atTime (m : Machine) (t : Moment) : Machine := { m with today := t }

/-- What may come of a request. -/
inductive MayAnswer (m : Machine) : (r : FileRequest) → r.Answer → Machine → Prop
  | served (r : FileRequest) (t : Moment) :
    MayAnswer m r (respond r (m.atTime t)).1 (respond r (m.atTime t)).2
  | refused {r : FileRequest} {e : FileFault} {a : r.Answer} (h : r.refusal e = some a) :
    MayAnswer m r a m
  /-- Of a write that fails anything may be left in the file. -/
  | cut (id : FileId) (text : String) (left : Content) (t : Moment) (e : FileFault) :
    MayAnswer m (.write id text) (.error e) { m with files := m.files.fill id left t }

/-- What may come of requests one after the other. -/
inductive Undergoes : Machine → List FileExchange → Machine → Prop
  | nil (m : Machine) : Undergoes m [] m
  | cons {m m₁ m' : Machine} {r : FileRequest} {a : r.Answer} {log : List FileExchange}
    (h : m.MayAnswer r a m₁) (hlog : Undergoes m₁ log m') : Undergoes m (⟨r, a⟩ :: log) m'

theorem undergoes_nil_iff : m.Undergoes [] m' ↔ m' = m := by
  constructor
  · rintro ⟨⟩
    rfl
  · rintro rfl
    exact .nil _

theorem undergoes_cons_iff {r : FileRequest} {a : r.Answer} :
    m.Undergoes (⟨r, a⟩ :: log) m' ↔ ∃ m₁, m.MayAnswer r a m₁ ∧ m₁.Undergoes log m' := by
  constructor
  · rintro (_ | ⟨h, hlog⟩)
    exact ⟨_, h, hlog⟩
  · rintro ⟨m₁, h, hlog⟩
    exact .cons h hlog

theorem undergoes_append_iff :
    m.Undergoes (log ++ log') m' ↔ ∃ m₁, m.Undergoes log m₁ ∧ m₁.Undergoes log' m' := by
  induction log generalizing m with
  | nil => simp only [List.nil_append, undergoes_nil_iff, exists_eq_left]
  | cons x log ih =>
    obtain ⟨r, a⟩ := x
    simp only [List.cons_append, undergoes_cons_iff, ih]
    constructor
    · rintro ⟨m₁, h, m₂, hlog, hlog'⟩
      exact ⟨m₂, ⟨m₁, h, hlog⟩, hlog'⟩
    · rintro ⟨m₂, ⟨m₁, h, hlog⟩, hlog'⟩
      exact ⟨m₁, h, m₂, hlog, hlog'⟩

/-- A world that answers as the file system may is one way for it to behave. -/
theorem undergoes_of_play {α : Type} {world : (r : FileRequest) → Machine → r.Answer × Machine}
    (hworld : ∀ (r : FileRequest) (m : Machine), m.MayAnswer r (world r m).1 (world r m).2)
    {c : FileDialogue α} {o : Option α} (h : c.play world m = (o, log, m')) :
    m.Undergoes log m' := by
  induction c generalizing m log with
  | done x =>
    cases h
    exact .nil _
  | brokenOff =>
    cases h
    exact .nil _
  | ask r next ih =>
    cases h
    exact .cons (hworld r m) (ih _ rfl)

/-- A run in which every request is served has a record. -/
theorem exists_record {α : Type} (m : Machine) (c : FileDialogue α) :
    ∃ log, c.Ends log (m.run c).1 ∧ m.Undergoes log (m.run c).2 := by
  have hserved (r : FileRequest) (m : Machine) :
      m.MayAnswer r (respond r m).1 (respond r m).2 := .served r m.today
  rw [run, Dialogue.run_eq_play]
  exact ⟨_, .of_play rfl, undergoes_of_play hserved rfl⟩

/-! ## What stays the same -/

/-- Nothing has changed apart from some locations and from directories that have come up on the way
to one. -/
structure SameApart (m : Machine) (d : Location) (S : Location → Prop) (m' : Machine) : Prop where
  sound : m'.Sound
  workingDirectory : m'.workingDirectory = m.workingDirectory
  at?_eq : ∀ k, ¬ S k → m'.files.at? k = m.files.at? k ∨
    m.files.at? k = none ∧ m'.files.at? k = some .directory ∧ k <+: d

namespace SameApart

theorem of_eq (hm' : m'.Sound) (hcwd : m'.workingDirectory = m.workingDirectory)
    (h : ∀ k, ¬ S k → m'.files.at? k = m.files.at? k) : m.SameApart d S m' :=
  ⟨hm', hcwd, fun k hk => .inl (h k hk)⟩

theorem refl (hm : m.Sound) : m.SameApart d S m := of_eq hm rfl fun _ _ => rfl

theorem atTime (hm : m.Sound) (t : Moment) : m.SameApart d S (m.atTime t) :=
  of_eq ⟨hm.wellFormed, hm.fresh, hm.quiet⟩ rfl fun _ _ => rfl

theorem trans (h : m.SameApart d S m₁) (h' : m₁.SameApart d S m') : m.SameApart d S m' where
  sound := h'.sound
  workingDirectory := h'.workingDirectory.trans h.workingDirectory
  at?_eq k hk := by
    rcases h'.at?_eq k hk with heq' | ⟨hnone', hd', hle⟩
    · rcases h.at?_eq k hk with heq | ⟨hnone, hd, hle⟩
      · exact .inl (heq'.trans heq)
      · exact .inr ⟨hnone, heq'.trans hd, hle⟩
    · rcases h.at?_eq k hk with heq | ⟨hnone, hd, -⟩
      · exact .inr ⟨heq.symm.trans hnone', hd', hle⟩
      · rw [hd] at hnone'
        cases hnone'

theorem mono (h : m.SameApart d S m') (hS : ∀ k, S k → S' k) : m.SameApart d S' m' :=
  ⟨h.sound, h.workingDirectory, fun k hk => h.at?_eq k fun hk' => hk (hS k hk')⟩

theorem grownAt (h : m.SameApart d S m') (hk : ¬ S k) : m.GrownAt m' k :=
  (h.at?_eq k hk).imp_right fun h => ⟨h.1, h.2.1⟩

theorem at?_directory (h : m.SameApart d S m') (hk : ¬ S k)
    (hd : m.files.at? k = some .directory) : m'.files.at? k = some .directory := by
  rcases h.at?_eq k hk with heq | ⟨hnone, -⟩
  · exact heq.trans hd
  · rw [hnone] at hd
    cases hd

/-- What is not on the way is the same. -/
theorem at?_eq_of_not_onWay (h : m.SameApart d S m') (hk : ¬ S k) (hd : ¬ k <+: d) :
    m'.files.at? k = m.files.at? k :=
  (h.at?_eq k hk).resolve_right fun h => hd h.2.2

/-- So is a file in the directory itself. -/
theorem at?_child_eq (h : m.SameApart d S m') {f : String} (hf : ¬ S (d ++ [f])) :
    m'.files.at? (d ++ [f]) = m.files.at? (d ++ [f]) :=
  h.at?_eq_of_not_onWay hf fun hle => absurd hle.length_le (by simp)

theorem aims (h : m.SameApart d S m') (hS : ∀ k, S k → FileTree.isBelow k l) (hp : m.Aims p l) :
    m'.Aims p l :=
  hp.of_agree h.workingDirectory fun k hk => h.at?_directory fun hSk => hk (hS k hSk)

end SameApart

/-! ## Requests that are served -/

variable {content : Content} {modified : Moment}

/-- Time passes on a machine that nothing disturbs. -/
theorem sameApart_wait (hm : m.Sound) (t : Duration) :
    m.SameApart d S (respond (.wait t) m).2 := by
  obtain ⟨files, cwd, nextId, clock, today, stopped, removals⟩ := m
  obtain ⟨hwell, hfresh, rfl⟩ := hm
  exact .of_eq ⟨hwell, hfresh, rfl⟩ rfl fun _ _ => rfl

theorem eq_ok_of_makeDirectory (h : m.makeDirectory p = .ok m') :
    ∃ l, m.resolve p = .ok l ∧ m.files.at? l = none ∧ m' = m.addDirectory l := by
  obtain ⟨l, hl, h⟩ := exists_ok_of_bind h
  split at h
  · cases h
  · next hnone =>
    cases h
    exact ⟨l, hl, hnone, rfl⟩

theorem eq_ok_of_createNew (h : m.createNew p = .ok (id, m')) :
    ∃ l, m.resolve p = .ok l ∧ m.files.at? l = none ∧ id = m.nextId ∧
      m' = { m.addFile l m.nextId with nextId := m.nextId + 1 } := by
  obtain ⟨l, hl, h⟩ := exists_ok_of_bind h
  split at h
  · cases h
  · next hnone =>
    cases h
    exact ⟨l, hl, hnone, rfl, rfl⟩

theorem eq_ok_of_createEmpty (h : m.createEmpty p = .ok (id, m')) :
    ∃ l, m.resolve p = .ok l ∧
      ((∃ content modified, m.files.at? l = some (.file id content modified) ∧
        m' = m.addFile l id) ∨
        m.files.at? l = none ∧ id = m.nextId ∧
          m' = { m.addFile l m.nextId with nextId := m.nextId + 1 }) := by
  obtain ⟨l, hl, h⟩ := exists_ok_of_bind h
  split at h
  · cases h
  · next hfile =>
    cases h
    exact ⟨l, hl, .inl ⟨_, _, hfile, rfl⟩⟩
  · next hnone =>
    cases h
    exact ⟨l, hl, .inr ⟨hnone, rfl, rfl⟩⟩

/-- Whether it was there or not, a file that is opened to be written is empty. -/
theorem eq_insert_of_createEmpty (h : m.createEmpty p = .ok (id, m')) :
    ∃ l, m.resolve p = .ok l ∧ m.files.at? l ≠ some .directory ∧
      m'.workingDirectory = m.workingDirectory ∧
      m'.files = m.files.insert l (.file id (.text "") m.today) ∧
      (m.files.at? l = none → id = m.nextId) := by
  obtain ⟨l, hl, ⟨content, modified, hfile, rfl⟩ | ⟨hnone, rfl, rfl⟩⟩ := eq_ok_of_createEmpty h
  · refine ⟨l, hl, ne_directory_of_file hfile, rfl, rfl, fun hnone => ?_⟩
    rw [hfile] at hnone
    cases hnone
  · exact ⟨l, hl, ne_directory_of_none hnone, rfl, rfl, fun _ => rfl⟩

theorem eq_ok_of_removeFile (h : m.removeFile p = .ok m') :
    ∃ l id content modified, m.find p = .ok (l, .file id content modified) ∧ m' = m.remove l := by
  obtain ⟨⟨l, _ | _⟩, hl, h⟩ := exists_ok_of_bind h <;> cases h
  exact ⟨l, _, _, _, hl, rfl⟩

/-- A directory may be moved over an empty directory, and nothing else is moved over one. -/
theorem eq_ok_of_rename (h : m.rename p q = .ok m') :
    ∃ l n k, m.find p = .ok (l, n) ∧ m.resolve q = .ok k ∧ m' = m.shift l k ∧
      (m.files.at? k = some .directory → n = .directory ∧ m.files.names k = []) := by
  obtain ⟨⟨l, n⟩, hl, h⟩ := exists_ok_of_bind h
  obtain ⟨k, hk, h⟩ := exists_ok_of_bind h
  refine ⟨l, n, k, hl, hk, ?_⟩
  -- A file is not moved over a directory, nor a directory over a file.
  split at h
  · cases h
  · cases h
  · next hdirectory _ =>
    split at h
    · next hempty =>
      cases h
      refine ⟨rfl, fun _ => ⟨?_, List.isEmpty_iff.1 hempty⟩⟩
      cases n with
      | file id content modified => cases hdirectory
      | directory => rfl
    · cases h
  · next hfile hdirectory =>
    cases h
    refine ⟨rfl, fun hd => ?_⟩
    cases hn : n.isDirectory
    · exact absurd hd (hfile hn)
    · exact absurd hd (hdirectory hn)

/-- So there is nothing below the place that something is moved to. -/
theorem at?_child_of_rename {n : FileNode} (hm : m.files.WellFormed)
    (h : m.files.at? k = some .directory → n = .directory ∧ m.files.names k = [])
    (name : String) : m.files.at? (k ++ [name]) = none := by
  by_cases hd : m.files.at? k = some .directory
  · rw [FileTree.at?_of_ne_nil (by simp), Option.eq_none_iff_forall_ne_some]
    intro n hn
    have hmem := FileTree.mem_names.2 ⟨n, hn⟩
    rw [(h hd).2] at hmem
    cases hmem
  · exact hm.at?_child hd name

theorem sameApart_makeDirectory (hm : m.Sound) (hp : m.Aims p d) (hq : q.Along p) :
    m.SameApart d S (respond (.makeDirectory q) m).2 := by
  rw [respond]
  cases hok : m.makeDirectory q with
  | error e => exact .refl hm
  | ok m' =>
    obtain ⟨l, hl, hnone, rfl⟩ := eq_ok_of_makeDirectory hok
    obtain ⟨hle, e, name, rfl, he, hname⟩ := hp.exists_of_along hq hl hnone
    refine ⟨hm.addDirectory he hname (ne_directory_of_none hnone), rfl, fun k _ => ?_⟩
    simp only [Except.map, outcome, addDirectory]
    rw [FileTree.at?_insert (by simp)]
    by_cases hk : k = e ++ [name]
    · exact .inr ⟨hk ▸ hnone, if_pos hk, hk ▸ hle⟩
    · exact .inl (if_neg hk)

/-- The machine with a new empty file at a location. -/
def addEmpty (m : Machine) (l : Location) : Machine :=
  { m.addFile l m.nextId with nextId := m.nextId + 1 }

theorem Sound.addFile (hm : m.Sound) (hd : m.files.at? d = some .directory) (hf : IsFileName f)
    (hl : m.files.at? (d ++ [f]) ≠ some .directory) (hid : id < m.nextId) :
    (m.addFile (d ++ [f]) id).Sound where
  wellFormed := hm.wellFormed.insert hd hf hl _
  fresh {k id' content modified} hk := by
    rw [Machine.addFile, FileTree.at?_insert (by simp)] at hk
    split at hk
    · cases hk
      exact hid
    · exact hm.fresh hk
  quiet := hm.quiet

theorem Sound.addEmpty (hm : m.Sound) (hd : m.files.at? d = some .directory) (hf : IsFileName f)
    (hl : m.files.at? (d ++ [f]) ≠ some .directory) : (m.addEmpty (d ++ [f])).Sound :=
  Sound.addFile (m := { m with nextId := m.nextId + 1 })
    ⟨hm.wellFormed, fun hk => Nat.lt_succ_of_lt (hm.fresh hk), hm.quiet⟩ hd hf hl
    (Nat.lt_succ_self _)

/-- A file that is made or emptied is all that changes. -/
theorem Sound.of_createEmpty (hm : m.Sound) (h : m.createEmpty p = .ok (id, m'))
    (hl : m.resolve p = .ok (d ++ [f])) (hd : m.files.at? d = some .directory)
    (hf : IsFileName f) : m'.Sound := by
  obtain ⟨l, hl', ⟨content, modified, hfile, rfl⟩ | ⟨hnone, -, rfl⟩⟩ := eq_ok_of_createEmpty h <;>
    obtain rfl := Except.ok.inj (hl'.symm.trans hl)
  · exact hm.addFile hd hf (ne_directory_of_file hfile) (hm.fresh hfile)
  · exact hm.addEmpty hd hf (ne_directory_of_none hnone)

theorem sameApart_addFile (m : Machine) (hm' : m'.Sound) (hl : l ≠ [])
    (hcwd : m'.workingDirectory = m.workingDirectory) {n : FileNode}
    (hfiles : m'.files = m.files.insert l n) : m.SameApart d (· = l) m' :=
  .of_eq hm' hcwd fun k hk => by rw [hfiles, FileTree.at?_insert hl, if_neg hk]

theorem sameApart_createNew (hm : m.Sound) (hp : m.Aims p d) (hf : IsFileName f) :
    m.SameApart d (· = d ++ [f]) (respond (.createNew (p.child f)) m).2 := by
  rw [respond]
  cases hok : m.createNew (p.child f) with
  | error e => exact .refl hm
  | ok x =>
    obtain ⟨l, hl, hnone, hid, hm'⟩ := eq_ok_of_createNew hok
    obtain ⟨hd, rfl⟩ := (hp.resolve_child hm hf).1 hl
    simp only [outcome, hm']
    exact sameApart_addFile m (hm.addEmpty hd hf (ne_directory_of_none hnone)) (by simp) rfl rfl

theorem sameApart_removeFile (hm : m.Sound) (hp : m.Aims p d) (hf : IsFileName f) :
    m.SameApart d (· = d ++ [f]) (respond (.removeFile (p.child f)) m).2 := by
  rw [respond]
  cases hok : m.removeFile (p.child f) with
  | error e => exact .refl hm
  | ok m' =>
    obtain ⟨l, id, content, modified, hl, rfl⟩ := eq_ok_of_removeFile hok
    obtain ⟨hn, rfl⟩ := (hp.find_child hm hf).1 hl
    exact .of_eq (hm.remove hn) rfl fun k hk => (at?_remove hn k).trans (if_neg hk)

/-- A file or a directory that is moved is found in its new place, and nothing else is touched than
what was in the two places. -/
theorem sameApart_rename (hm : m.Sound) (hp : m.Aims p d) (hf : IsFileName f) (hg : IsFileName g)
    (hne : f ≠ g) (h : m.rename (p.child f) (p.child g) = .ok m') :
    m.SameApart d (fun k => d ++ [f] <+: k ∨ d ++ [g] <+: k) m' ∧
      (m.files.at? (d ++ [f])).isSome ∧
      m'.files.at? (d ++ [g]) = m.files.at? (d ++ [f]) ∧ m'.files.at? (d ++ [f]) = none := by
  obtain ⟨l, n, k, hl, hk, rfl, hempty⟩ := eq_ok_of_rename h
  replace hempty := at?_child_of_rename hm.wellFormed hempty
  obtain ⟨hn, rfl⟩ := (hp.find_child hm hf).1 hl
  obtain ⟨hd, rfl⟩ := (hp.resolve_child hm hg).1 hk
  have hchild (f : String) : d ++ [f] ≠ [] := List.concat_ne_nil f d
  have hat := hm.wellFormed.at?_move (hchild f) (hchild g) hempty
  refine ⟨.of_eq (hm.shift (hchild f) hd hg hempty (FileTree.not_prefix_of_ne d hne))
      rfl fun k hk => ?_,
    by rw [hn]; rfl, ?_, ?_⟩
  · exact (hat k).trans ((if_neg (not_or.1 hk).2).trans (if_neg (not_or.1 hk).1))
  · refine (hat _).trans ((if_pos (List.prefix_refl _)).trans ?_)
    rw [List.drop_length, List.append_nil]
  · exact (hat _).trans ((if_neg (FileTree.not_prefix_of_ne d hne.symm)).trans (if_pos (List.prefix_refl _)))

/-! ## Requests that may fail -/

/-- Apart from writes, a request is served or it changes nothing. -/
theorem MayAnswer.served_or_refused {r : FileRequest} {a : r.Answer} (h : m.MayAnswer r a m')
    (hr : ∀ id text, r ≠ .write id text) :
    (∃ t, respond r (m.atTime t) = (a, m')) ∨ m' = m ∧ ∃ e, r.refusal e = some a := by
  cases h with
  | served r t => exact .inl ⟨t, rfl⟩
  | refused h => exact .inr ⟨rfl, _, h⟩
  | cut id text => exact absurd rfl (hr id text)

/-- A file that was made is the only one of its identity. -/
theorem MayAnswer.only_of_createNew (h : m.MayAnswer (.createNew (p.child f)) (.ok id) m')
    (hm : m.Sound) (hp : m.Aims p d) (hf : IsFileName f) {content : Content} {modified : Moment}
    (hk : m'.files.at? k = some (.file id content modified)) : k = d ++ [f] := by
  rcases h.served_or_refused nofun with ⟨t, hserved⟩ | ⟨-, e, hrefused⟩
  · rw [respond] at hserved
    cases hok : (m.atTime t).createNew (p.child f) with
    | error e =>
      rw [hok] at hserved
      cases hserved
    | ok x =>
      obtain ⟨l, hl, -, hid, hm'⟩ := eq_ok_of_createNew hok
      obtain ⟨-, rfl⟩ := (hp.resolve_child hm hf).1 hl
      rw [hok] at hserved
      obtain ⟨id', m''⟩ := x
      cases hserved
      simp only at hid hm'
      rw [hm', addFile, FileTree.at?_insert (by simp)] at hk
      split at hk
      · assumption
      · rw [hid] at hk
        exact absurd (hm.fresh hk) (Nat.lt_irrefl _)
  · cases hrefused

/-- A file is moved with all that is in it, or nothing happens. -/
theorem MayAnswer.of_rename {a : (FileRequest.rename (p.child f) (p.child g)).Answer}
    (h : m.MayAnswer (.rename (p.child f) (p.child g)) a m') (hm : m.Sound) (hp : m.Aims p d)
    (hf : IsFileName f) (hg : IsFileName g) (hne : f ≠ g) :
    (∃ e, a = .error e) ∧ m.SameApart d S m' ∨
      a = .ok () ∧ m.SameApart d (fun k => d ++ [f] <+: k ∨ d ++ [g] <+: k) m' ∧
        (m.files.at? (d ++ [f])).isSome ∧
        m'.files.at? (d ++ [g]) = m.files.at? (d ++ [f]) ∧ m'.files.at? (d ++ [f]) = none := by
  rcases h.served_or_refused nofun with ⟨t, hserved⟩ | ⟨rfl, e, hrefused⟩
  · have htime {S : Location → Prop} : m.SameApart d S (m.atTime t) := .atTime hm t
    have hm' : (m.atTime t).Sound := (htime (S := S)).sound
    rw [respond] at hserved
    cases hok : (m.atTime t).rename (p.child f) (p.child g) with
    | error e =>
      rw [hok] at hserved
      cases hserved
      exact .inl ⟨⟨e, rfl⟩, htime⟩
    | ok m'' =>
      rw [hok] at hserved
      cases hserved
      obtain ⟨hsame, hsome, htarget, hsource⟩ := sameApart_rename hm'
        (hp.of_agree rfl fun _ _ hk => hk) hf hg hne hok
      exact .inr ⟨rfl, htime.trans hsame, hsome, htarget, hsource⟩
  · cases hrefused
    exact .inl ⟨⟨e, rfl⟩, .refl hm⟩

/-- A file is made or emptied, or nothing happens. A file that is made is of a new identity. -/
theorem MayAnswer.of_createEmpty {a : (FileRequest.createEmpty (p.child f)).Answer}
    (h : m.MayAnswer (.createEmpty (p.child f)) a m') (hm : m.Sound) (hp : m.Aims p d)
    (hf : IsFileName f) :
    (∃ e, a = .error e) ∧ m.SameApart d S m' ∨
      ∃ id t, a = .ok id ∧ m'.Sound ∧ m'.workingDirectory = m.workingDirectory ∧
        m'.files = m.files.insert (d ++ [f]) (.file id (.text "") t) ∧
        m.files.at? (d ++ [f]) ≠ some .directory ∧
        (m.files.at? (d ++ [f]) = none → id = m.nextId) := by
  rcases h.served_or_refused nofun with ⟨t, hserved⟩ | ⟨rfl, e, hrefused⟩
  · have hm' : (m.atTime t).Sound := ⟨hm.wellFormed, hm.fresh, hm.quiet⟩
    rw [respond] at hserved
    cases hok : (m.atTime t).createEmpty (p.child f) with
    | error e =>
      rw [hok] at hserved
      cases hserved
      exact .inl ⟨⟨e, rfl⟩, .atTime hm t⟩
    | ok x =>
      obtain ⟨id, m''⟩ := x
      rw [hok] at hserved
      cases hserved
      obtain ⟨l, hl, hne, hcwd, hfiles, hnew⟩ := eq_insert_of_createEmpty hok
      obtain ⟨hd, rfl⟩ := (hp.resolve_child hm hf).1 hl
      exact .inr ⟨id, t, rfl, hm'.of_createEmpty hok hl hd hf, hcwd, hfiles, hne, hnew⟩
  · cases hrefused
    exact .inl ⟨⟨e, rfl⟩, .refl hm⟩

/-- A write changes no more than the content of files of the identity. -/
theorem MayAnswer.of_write {text : String} {a : (FileRequest.write id text).Answer}
    (h : m.MayAnswer (.write id text) a m') : m' = m ∨
      ∃ t content modified, m' = { m.atTime t with files := m.files.fill id content modified } := by
  cases h with
  | served r t => exact .inr ⟨t, _, _, rfl⟩
  | refused h => exact .inl rfl
  | cut id text left t e => exact .inr ⟨m.today, left, t, rfl⟩

/-- A write that succeeds leaves the text. -/
theorem MayAnswer.of_write_ok {text : String} (h : m.MayAnswer (.write id text) (.ok ()) m') :
    ∃ t, m' = { m.atTime t with files := m.files.fill id (.text text) t } := by
  cases h with
  | served r t => exact ⟨t, rfl⟩
  | refused h => cases h

theorem Sound.fill (hm : m.Sound) (t : Moment) (id : FileId) (content : Content)
    (modified : Moment) :
    Sound { m.atTime t with files := m.files.fill id content modified } where
  wellFormed := hm.wellFormed.fill _ _ _
  fresh {k id' content' modified'} hk := by
    rw [FileTree.at?_fill, Option.map_eq_some_iff] at hk
    obtain ⟨_ | _, hn, heq⟩ := hk
    · simp only at heq
      split at heq <;> cases heq <;> exact hm.fresh hn
    · cases heq
  quiet := hm.quiet

/-- A write touches nothing but the places of the file. -/
theorem MayAnswer.sameApart_of_write {text : String} {a : (FileRequest.write id text).Answer}
    (h : m.MayAnswer (.write id text) a m') (hm : m.Sound)
    (honly : ∀ k content modified, m.files.at? k = some (.file id content modified) → S k) :
    m.SameApart d S m' := by
  rcases h.of_write with rfl | ⟨t, content, modified, rfl⟩
  · exact .refl hm
  refine .of_eq (hm.fill t id content modified) rfl fun k hk => ?_
  exact FileTree.at?_fill_of_ne (fun content modified hn => hk (honly k _ _ hn)) _ _

end Machine

/-! ## Dialogues that leave things alone -/

/-- A request that neither moves a file nor opens one to write it anew, nor fills one. -/
def FileRequest.isPlain : FileRequest → Bool
  | .createEmpty _ => false
  | .write _ _ => false
  | .rename _ _ => false
  | _ => true

/-- A file was moved, or was opened to be written anew. -/
def FileExchange.replaces : FileExchange → Bool
  | ⟨.createEmpty _, .ok _⟩ => true
  | ⟨.rename _ _, .ok _⟩ => true
  | _ => false

/-- Nothing was moved or opened to be written anew. -/
def Untouched (log : List FileExchange) : Prop := ∀ x ∈ log, FileExchange.replaces x = false

theorem untouched_append {log log' : List FileExchange} :
    Untouched (log ++ log') ↔ Untouched log ∧ Untouched log' := List.forall_mem_append

namespace FileDialogue

variable {α β : Type} {p q : Path} {d : Location} {S : Location → Prop} {c : FileDialogue α}

/-- Whatever fails on the way of a dialogue, nothing is replaced, and nothing changes apart from
some locations and from directories on the way of a path. -/
def Spares (p : Path) (d : Location) (S : Location → Prop) (c : FileDialogue α) : Prop :=
  ∀ ⦃m : Machine⦄ ⦃log o⦄ ⦃m' : Machine⦄, m.Sound → m.Aims p d → c.Ends log o → m.Undergoes log m' →
    m.SameApart d S m' ∧ Untouched log

theorem spares_pure (x : α) : Spares p d S (pure x : FileDialogue α) := by
  intro m log o m' hm _ hends hunder
  obtain ⟨rfl, -⟩ := Dialogue.ends_done_iff.1 hends
  obtain rfl := Machine.undergoes_nil_iff.1 hunder
  exact ⟨.refl hm, List.forall_mem_nil _⟩

theorem spares_ask {r : FileRequest} (hr : r.isPlain = true)
    (hserved : ∀ m : Machine, m.Sound → m.Aims p d → m.SameApart d S (Machine.respond r m).2) :
    Spares p d S (ask r) := by
  intro m log o m' hm hp hends hunder
  obtain ⟨a, rest, rfl, hrest⟩ := Dialogue.ends_ask_iff.1 hends
  obtain ⟨rfl, -⟩ := Dialogue.ends_done_iff.1 hrest
  obtain ⟨m₁, hanswer, hrest⟩ := Machine.undergoes_cons_iff.1 hunder
  obtain rfl := Machine.undergoes_nil_iff.1 hrest
  refine ⟨?_, List.forall_mem_singleton.2 ?_⟩
  · rcases hanswer.served_or_refused (by rintro id text rfl; cases hr) with ⟨t, heq⟩ | ⟨rfl, -⟩
    · have htime : m.SameApart d S (m.atTime t) := .atTime hm t
      have hstep := hserved _ htime.sound (hp.of_agree rfl fun _ _ hk => hk)
      rw [heq] at hstep
      exact htime.trans hstep
    · exact .refl hm
  · cases r <;> first | rfl | cases hr

/-- What goes on behind a dialogue that leaves things alone finds them as they were. -/
theorem Spares.cases_bind (hc : Spares p d S c) (hS : ∀ k, S k → FileTree.isBelow k d)
    {g : α → FileDialogue β} {m m' : Machine} {log : List FileExchange} {o : Option β}
    (hm : m.Sound) (hp : m.Aims p d) (hends : (c >>= g).Ends log o) (hunder : m.Undergoes log m') :
    m.SameApart d S m' ∧ Untouched log ∧ o = none ∨
      ∃ x front back m₁, log = front ++ back ∧ m.SameApart d S m₁ ∧ Untouched front ∧
        m₁.Aims p d ∧ c.Ends front (some x) ∧ (g x).Ends back o ∧ m₁.Undergoes back m' := by
  rcases Dialogue.ends_bind_iff.1 hends with ⟨x, front, back, rfl, hfront, hback⟩ | ⟨hfront, rfl⟩
  · obtain ⟨m₁, hunder, hunder'⟩ := Machine.undergoes_append_iff.1 hunder
    obtain ⟨hsame, hlog⟩ := hc hm hp hfront hunder
    exact .inr ⟨x, front, back, m₁, rfl, hsame, hlog, hsame.aims hS hp, hfront, hback, hunder'⟩
  · obtain ⟨hsame, hlog⟩ := hc hm hp hfront hunder
    exact .inl ⟨hsame, hlog, rfl⟩

theorem Spares.bind (hc : Spares p d S c) (hS : ∀ k, S k → FileTree.isBelow k d)
    {g : α → FileDialogue β} (hg : ∀ x, Spares p d S (g x)) : Spares p d S (c >>= g) := by
  intro m log o m' hm hp hends hunder
  rcases hc.cases_bind hS hm hp hends hunder with ⟨hsame, hlog, -⟩ |
    ⟨x, front, back, m₁, rfl, hsame, hlog, hp₁, -, hback, hunder⟩
  · exact ⟨hsame, hlog⟩
  · obtain ⟨hsame', hlog'⟩ := hg x hsame.sound hp₁ hback hunder
    exact ⟨hsame.trans hsame', untouched_append.2 ⟨hlog, hlog'⟩⟩

/-- A dialogue that only looks at one thing. -/
theorem spares_isDirectory (q : Path) : Spares p d S (ask (.isDirectory q)) :=
  spares_ask rfl fun _ hm _ => .refl hm

theorem spares_pathExists (hS : ∀ k, S k → FileTree.isBelow k d) (q : Path) :
    Spares p d S (pathExists q) :=
  (spares_isDirectory q).bind hS fun _ => spares_pure _

theorem spares_brokenOff : Spares p d S (.brokenOff : FileDialogue α) := by
  intro m log o m' hm _ hends hunder
  obtain ⟨rfl, -⟩ := Dialogue.ends_brokenOff_iff.1 hends
  obtain rfl := Machine.undergoes_nil_iff.1 hunder
  exact ⟨.refl hm, List.forall_mem_nil _⟩

end FileDialogue

end ClusterKeeper
