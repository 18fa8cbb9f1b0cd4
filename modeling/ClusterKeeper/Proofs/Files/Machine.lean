/-
# Working in a directory

What the requests of a program come to when their paths go on from a path that leads to a
directory: a file that is made, filled, moved or removed there changes nothing but what is under its
own name. A directory that is missing is made with those on the way to it.
-/

import ClusterKeeper.Files.Machine
import ClusterKeeper.Proofs.Files.Tree
import ClusterKeeper.Proofs.Records

namespace ClusterKeeper

open FileTree (IsFileName ne_directory_of_none ne_directory_of_file)
open FileDialogue (ask)

namespace Path

/-- The parts of a path that lead on. -/
def onward (parts : List String) : List String := parts.filter (· ≠ ".")

theorem onward_append (parts rest : List String) :
    onward (parts ++ rest) = onward parts ++ onward rest :=
  List.filter_append ..

theorem onward_dot (parts : List String) : onward ("." :: parts) = onward parts := rfl

theorem onward_cons {part : String} (h : part ≠ ".") (parts : List String) :
    onward (part :: parts) = part :: onward parts :=
  List.filter_cons_of_pos (decide_eq_true h)

/-- The parent of a path is without single dots at its end. -/
theorem exists_parent {p : Path} {front parts : List String} {name : String}
    (hp : p.parts = front ++ (parts ++ [name])) (hname : name ≠ ".") (hparts : onward parts ≠ []) :
    ∃ parts' name' dots,
      p.parent? = some { p with parts := front ++ (parts' ++ [name']), slashed := false } ∧
      name' ≠ "." ∧ parts = parts' ++ [name'] ++ dots ∧ onward dots = [] := by
  -- The parts are cut behind the last one that is not a dot.
  have hsplit : parts = (parts.reverse.dropWhile (· == ".")).reverse ++
      (parts.reverse.takeWhile (· == ".")).reverse := by
    rw [← List.reverse_append, List.takeWhile_append_dropWhile, List.reverse_reverse]
  have hdots : onward (parts.reverse.takeWhile (· == ".")).reverse = [] := by
    rw [onward, List.filter_eq_nil_iff]
    intro part hpart
    have hdot := List.all_eq_true.1 List.all_takeWhile part (List.mem_reverse.1 hpart)
    simpa using hdot
  rcases hrest : parts.reverse.dropWhile (· == ".") with _ | ⟨name', rest⟩
  · rw [hrest, List.reverse_nil, List.nil_append] at hsplit
    rw [← hsplit] at hdots
    exact absurd hdots hparts
  · rw [hrest, List.reverse_cons] at hsplit
    have hname' : name' ≠ "." := by
      have hhead := List.head?_dropWhile_not (· == ".") parts.reverse
      rw [hrest] at hhead
      simpa using hhead
    refine ⟨rest.reverse, name', _, ?_, hname', hsplit, hdots⟩
    have hlast : ((front ++ (parts ++ [name])).reverse.dropWhile (· == ".")).reverse =
        front ++ parts ++ [name] := by
      rw [← List.append_assoc, List.reverse_concat,
        List.dropWhile_cons_of_neg (by simpa using hname), List.reverse_cons,
        List.reverse_reverse]
    have hfront : ((front ++ parts).reverse.dropWhile (· == ".")).reverse =
        front ++ (rest.reverse ++ [name']) := by
      rw [List.reverse_append, List.dropWhile_append, hrest, List.isEmpty_cons]
      simp
    simp only [parent?, hp, hlast]
    split
    · next heq => simp at heq
    · rw [List.dropLast_concat, hfront]

/-- A text that goes down by a single name, whether a file can have that name or not. -/
structure IsNormal (name : String) : Prop where
  ne_empty : name ≠ ""
  noSlash : '/' ∉ name.toList
  ne_dot : name ≠ "."
  ne_dots : name ≠ ".."

theorem isNormal_name {name : String} (h : IsFileName name) : IsNormal name :=
  ⟨h.ne_empty, h.noSlash, h.ne_dot, h.ne_dots⟩

theorem IsNormal.partsOf {name : String} (h : IsNormal name) : Path.partsOf name = [name] := by
  have hsplit (cs : List Char) (hcs : '/' ∉ cs) : splitSlashes cs = [cs] := by
    induction cs with
    | nil => rfl
    | cons c cs ih =>
      obtain ⟨hc, hcs⟩ := not_or.1 (fun hmem => hcs (List.mem_cons.2 hmem))
      rw [splitSlashes, if_neg (Ne.symm hc), ih hcs]
  have hne : name.toList ≠ [] := fun he => h.ne_empty (String.toList_eq_nil_iff.1 he)
  rw [Path.partsOf, hsplit _ h.noSlash, List.filter_cons_of_pos (by simpa using hne),
    List.filter_nil, List.map_singleton, String.ofList_toList]

theorem IsNormal.isAbsoluteText {name : String} (h : IsNormal name) :
    Path.isAbsoluteText name = false := by
  rw [Path.isAbsoluteText, Bool.eq_false_iff, ne_eq, beq_iff_eq]
  exact fun hhead => h.noSlash (List.mem_of_head? hhead)

theorem partsOf_name {name : String} (h : IsFileName name) : partsOf name = [name] :=
  (isNormal_name h).partsOf

theorem isAbsoluteText_name {name : String} (h : IsFileName name) :
    isAbsoluteText name = false :=
  (isNormal_name h).isAbsoluteText

theorem isEmpty_of_parts_ne_nil {p : Path} (h : p.parts ≠ []) : p.isEmpty = false := by
  rw [isEmpty, List.isEmpty_eq_false_iff.2 h, Bool.and_false]

theorem isEmpty_child (p : Path) (name : String) : (p.child name).isEmpty = false :=
  isEmpty_of_parts_ne_nil (List.concat_ne_nil name p.parts)

/-- A name goes on from a directory as a child of it. -/
theorem IsNormal.join_eq_child {name : String} (h : IsNormal name) (p : Path) :
    p.join name = p.child name := by
  have hslashed : endsInSlash name = false := by
    rw [endsInSlash, Bool.eq_false_iff, ne_eq, beq_iff_eq]
    exact fun hlast => h.noSlash (List.mem_of_getLast? hlast)
  have hempty : name.isEmpty = false := by
    rw [Bool.eq_false_iff, ne_eq, String.isEmpty_iff]
    exact h.ne_empty
  rw [join, h.isAbsoluteText, h.partsOf, hslashed, hempty, child]
  rfl

theorem join_eq_child {name : String} (h : IsFileName name) (p : Path) :
    p.join name = p.child name :=
  (isNormal_name h).join_eq_child p

end Path

namespace Machine

variable {m m' : Machine} {p : Path} {d k l : Location} {n : FileNode} {f name : String}

/-! ## Where paths lead -/

/-- A path leads to a directory. -/
structure Enters (m : Machine) (p : Path) (d : Location) : Prop where
  resolve : m.resolve p = .ok d
  directory : m.files.at? d = some .directory

/-- The names behind a path are those of what is in a directory. The path itself leads there, or it
is empty. -/
structure Opens (m : Machine) (p : Path) (d : Location) : Prop where
  resolve_child : ∀ {f}, IsFileName f → m.resolve (p.child f) = .ok (d ++ [f])
  directory : m.files.at? d = some .directory

theorem step_of_directory (hd : m.files.at? d = some .directory) (hf : IsFileName f) :
    m.files.step d f = .ok (d ++ [f]) := by
  rw [FileTree.step, hd]
  simp only [if_neg hf.ne_dot, if_neg hf.ne_dots, if_neg (Nat.not_lt.2 hf.short)]

theorem step_dot (hd : m.files.at? d = some .directory) : m.files.step d "." = .ok d := by
  rw [FileTree.step, hd]
  rfl

theorem step_of_none (hd : m.files.at? d = none) (part : String) :
    m.files.step d part = .error .notFound := by
  rw [FileTree.step, hd]

/-- The path of a child is resolved from where the path of its directory leads. -/
theorem resolve_child (hp : p.isEmpty = false) (hf : IsFileName f) :
    m.resolve (p.child f) = (m.resolve p).bind (m.files.step · f) := by
  have hnull : (f.toList.contains '\x00') = false := by
    rw [Bool.eq_false_iff, ne_eq, List.contains_iff_mem]
    exact hf.noNull
  unfold Machine.resolve FileTree.resolve
  rw [hp, Path.isEmpty_child]
  simp only [Path.child, List.any_append, List.any_cons, List.any_nil, hnull, Bool.or_false,
    List.foldlM_append, List.foldlM_cons, List.foldlM_nil, bind_pure]
  split
  · rfl
  · rfl

/-- The empty path leads nowhere. -/
theorem isEmpty_of_resolve (h : m.resolve p = .ok d) : p.isEmpty = false := by
  rw [Bool.eq_false_iff]
  intro hempty
  rw [Machine.resolve, FileTree.resolve, hempty] at h
  split at h <;> cases h

theorem Enters.isEmpty (h : m.Enters p d) : p.isEmpty = false := isEmpty_of_resolve h.resolve

theorem Enters.resolve_child (h : m.Enters p d) (hf : IsFileName f) :
    m.resolve (p.child f) = .ok (d ++ [f]) := by
  rw [Machine.resolve_child h.isEmpty hf, h.resolve]
  exact step_of_directory h.directory hf

theorem Enters.opens (h : m.Enters p d) : m.Opens p d := ⟨h.resolve_child, h.directory⟩

/-- A path of a child leads to what is under the name of the child. -/
theorem Opens.find_child (h : m.Opens p d) (hf : IsFileName f) :
    m.find (p.child f) =
      match m.files.at? (d ++ [f]) with
      | some n => .ok (d ++ [f], n)
      | none => .error .notFound := by
  rw [find, h.resolve_child hf]
  simp only [Bind.bind, Except.bind]
  cases m.files.at? (d ++ [f]) <;> rfl

theorem step_mono {part : String}
    (h : ∀ k, m.files.at? k = some .directory → m'.files.at? k = some .directory)
    (hs : m.files.step k part = .ok l) : m'.files.step k part = .ok l := by
  rw [FileTree.step] at hs ⊢
  split at hs
  · cases hs
  · cases hs
  · next hk =>
    rw [h k hk]
    exact hs

theorem foldlM_step_mono {parts : List String}
    (h : ∀ k, m.files.at? k = some .directory → m'.files.at? k = some .directory)
    (hs : parts.foldlM m.files.step k = .ok l) : parts.foldlM m'.files.step k = .ok l := by
  induction parts generalizing k with
  | nil => exact hs
  | cons part parts ih =>
    rw [List.foldlM_cons] at hs ⊢
    cases hk : m.files.step k part with
    | error e =>
      rw [hk] at hs
      cases hs
    | ok j =>
      rw [hk] at hs
      rw [step_mono h hk]
      exact ih hs

/-- A path leads to the same place for as long as the directories on its way are there. -/
theorem resolve_mono (hcwd : m'.workingDirectory = m.workingDirectory)
    (h : ∀ k, m.files.at? k = some .directory → m'.files.at? k = some .directory)
    (hp : m.resolve p = .ok l) : m'.resolve p = .ok l := by
  rw [resolve, FileTree.resolve] at hp ⊢
  split at hp
  · cases hp
  · next hnull =>
    rw [if_neg hnull]
    split at hp
    · cases hp
    · next hempty =>
      rw [if_neg hempty, hcwd]
      exact foldlM_step_mono h hp

theorem Enters.mono (h : m.Enters p d) (hcwd : m'.workingDirectory = m.workingDirectory)
    (hkeep : ∀ k, m.files.at? k = some .directory → m'.files.at? k = some .directory) :
    m'.Enters p d :=
  ⟨resolve_mono hcwd hkeep h.resolve, hkeep d h.directory⟩

theorem Opens.mono (h : m.Opens p d) (hcwd : m'.workingDirectory = m.workingDirectory)
    (hkeep : ∀ k, m.files.at? k = some .directory → m'.files.at? k = some .directory) :
    m'.Opens p d :=
  ⟨fun hf => resolve_mono hcwd hkeep (h.resolve_child hf), hkeep d h.directory⟩

/-! ## Sound machines -/

/-- Everything on the machine has a place, no file has the identity of one that is yet to be made,
and nothing will be removed from outside. -/
structure Sound (m : Machine) : Prop where
  wellFormed : m.files.WellFormed
  fresh : ∀ {l id content modified}, m.files.at? l = some (.file id content modified) →
    id < m.nextId
  quiet : m.removals = []

theorem sound_of_empty (h : m.files = .empty) (hquiet : m.removals = []) : m.Sound where
  wellFormed := h ▸ .empty
  fresh {l id content modified} hl := by
    rw [h, FileTree.at?] at hl
    split at hl <;> cases hl
  quiet := hquiet

/-- The machine with a new file of a text at a location. -/
def put (m : Machine) (l : Location) (text : String) : Machine :=
  { m.addFile l m.nextId with
    files := (m.addFile l m.nextId).files.fill m.nextId (.text text) m.today
    nextId := m.nextId + 1 }

/-- The machine without the file at a location. -/
def remove (m : Machine) (l : Location) : Machine := { m with files := m.files.erase l }

/-- The machine with the file at a location moved to another. -/
def shift (m : Machine) (l k : Location) : Machine := { m with files := m.files.move l k }

/-- The machine with a new directory at a location. -/
def addDirectory (m : Machine) (l : Location) : Machine :=
  { m with files := m.files.insert l .directory }

theorem ne_nil_of_at? (h : m.files.at? l ≠ some .directory) : l ≠ [] := by
  rintro rfl
  exact h rfl

theorem Sound.at?_put (h : m.Sound) (hl : l ≠ []) (text : String) (k : Location) :
    (m.put l text).files.at? k =
      if k = l then some (.file m.nextId (.text text) m.today) else m.files.at? k := by
  rw [put, addFile, FileTree.at?_fill, FileTree.at?_insert hl]
  split
  · simp
  · cases hk : m.files.at? k with
    | none => rfl
    | some n =>
      cases n with
      | directory => rfl
      | file id content modified =>
        have hne : id ≠ m.nextId := Nat.ne_of_lt (h.fresh hk)
        simp [hne]

theorem Sound.put (h : m.Sound) (hd : m.files.at? d = some .directory) (hf : IsFileName f)
    (hl : m.files.at? (d ++ [f]) ≠ some .directory) (text : String) :
    (m.put (d ++ [f]) text).Sound where
  wellFormed := (h.wellFormed.insert hd hf hl _).fill _ _ _
  fresh {k id content modified} hk := by
    rw [h.at?_put (ne_nil_of_at? hl)] at hk
    split at hk
    · cases hk
      exact Nat.lt_succ_self _
    · exact Nat.lt_succ_of_lt (h.fresh hk)
  quiet := h.quiet

theorem Sound.opens_put (h : m.Sound) (hp : m.Opens p d)
    (hl : m.files.at? l ≠ some .directory) (text : String) : (m.put l text).Opens p d :=
  hp.mono rfl fun k hk => by
    rw [h.at?_put (ne_nil_of_at? hl), if_neg, hk]
    rintro rfl
    exact hl hk

theorem Sound.at?_child_of_file (h : m.Sound) {id : FileId} {content : Content} {modified : Moment}
    (hl : m.files.at? l = some (.file id content modified)) (name : String) :
    m.files.at? (l ++ [name]) = none :=
  h.wellFormed.at?_child (ne_directory_of_file hl) name

theorem Sound.remove (h : m.Sound) {id : FileId} {content : Content} {modified : Moment}
    (hl : m.files.at? l = some (.file id content modified)) : (m.remove l).Sound where
  wellFormed := h.wellFormed.erase (ne_nil_of_at? (ne_directory_of_file hl))
    (h.at?_child_of_file hl)
  fresh {k id content modified} hk := by
    rw [Machine.remove, FileTree.at?_erase (ne_nil_of_at? (ne_directory_of_file hl))] at hk
    split at hk
    · cases hk
    · exact h.fresh hk
  quiet := h.quiet

theorem Sound.shift (h : m.Sound) (hl : l ≠ []) (hd : m.files.at? d = some .directory)
    (hf : IsFileName f) (hempty : ∀ name, m.files.at? (d ++ [f] ++ [name]) = none)
    (hne : ¬ l <+: d ++ [f]) : (m.shift l (d ++ [f])).Sound where
  wellFormed := h.wellFormed.move hl hd hf hempty hne
  fresh {k id content modified} hk := by
    rw [Machine.shift, h.wellFormed.at?_move hl (by simp) hempty] at hk
    split at hk
    · exact h.fresh hk
    · split at hk
      · cases hk
      · exact h.fresh hk
  quiet := h.quiet

theorem at?_remove {id : FileId} {content : Content} {modified : Moment}
    (hl : m.files.at? l = some (.file id content modified)) (k : Location) :
    (m.remove l).files.at? k = if k = l then none else m.files.at? k :=
  FileTree.at?_erase (ne_nil_of_at? (ne_directory_of_file hl)) k

theorem remove_of_none (hne : l ≠ []) (hl : m.files.at? l = none) : m.remove l = m := by
  rw [FileTree.at?_of_ne_nil hne] at hl
  rw [remove, SortedMap.erase_of_not_bound hl]

theorem Sound.at?_shift_file (h : m.Sound) {id : FileId} {content : Content} {modified : Moment}
    (hl : m.files.at? l = some (.file id content modified))
    (hd : m.files.at? d ≠ some .directory) (k : Location) :
    (m.shift l d).files.at? k =
      if k = d then some (.file id content modified)
      else if k = l then none else m.files.at? k :=
  h.wellFormed.at?_move_file hl hd k

theorem Sound.addDirectory (h : m.Sound) (hd : m.files.at? d = some .directory)
    (hf : IsFileName f) (hl : m.files.at? (d ++ [f]) ≠ some .directory) :
    (m.addDirectory (d ++ [f])).Sound where
  wellFormed := h.wellFormed.insert hd hf hl _
  fresh {k id content modified} hk := by
    rw [Machine.addDirectory, FileTree.at?_insert (ne_nil_of_at? hl)] at hk
    split at hk
    · cases hk
    · exact h.fresh hk
  quiet := h.quiet

/-! ## Running dialogues -/

section Run

variable {α β : Type} {x : α}

/-- A dialogue whose end is known goes on from there. -/
theorem run_bind {c : FileDialogue α} (h : m.run c = (some x, m')) (g : α → FileDialogue β) :
    m.run (c >>= g) = m'.run (g x) := by
  rw [run] at h
  rw [run, Dialogue.bind_eq_bind, Dialogue.run_bind, h]
  rfl

/-- A dialogue that is broken off does not go on. -/
theorem run_bind_of_none {c : FileDialogue α} (h : m.run c = (none, m'))
    (g : α → FileDialogue β) : m.run (c >>= g) = (none, m') := by
  rw [run] at h
  rw [run, Dialogue.bind_eq_bind, Dialogue.run_bind, h]

theorem run_ask (r : FileRequest) : m.run (ask r) = (some (respond r m).1, (respond r m).2) := rfl

/-- Dialogues that go the same way from two machines go on alike. -/
theorem run_bind_congr {c c' : FileDialogue α} (h : m.run c = m'.run c')
    (g : α → FileDialogue β) : m.run (c >>= g) = m'.run (c' >>= g) := by
  rw [run, run] at h
  rw [run, run, Dialogue.bind_eq_bind, Dialogue.bind_eq_bind, Dialogue.run_bind,
    Dialogue.run_bind, h]

/-- What each request of a dialogue keeps is kept by the dialogue. -/
theorem run_of_asks {P : FileRequest → Prop} {I : Machine → Prop} {c : FileDialogue α}
    (hc : c.Asks P) (hstep : ∀ r m, P r → I m → I (respond r m).2) (hm : I m) :
    I (m.run c).2 := by
  induction c generalizing m with
  | done x => exact hm
  | brokenOff => exact hm
  | ask r next ih =>
    obtain ⟨hr, hnext⟩ := hc
    exact ih _ (hnext _) (hstep r m hr hm)

theorem run_pathExists (p : Path) :
    m.run (FileDialogue.pathExists p) = (some (m.find p).isOk, m) := by
  rw [FileDialogue.pathExists, run_bind (run_ask _), respond]
  cases m.find p <;> rfl

end Run

/-! ## Requests in a directory -/

/-- The path itself leads to the directory. -/
theorem Enters.find (h : m.Enters p d) : m.find p = .ok (d, .directory) := by
  rw [Machine.find, h.resolve]
  simp only [Bind.bind, Except.bind, h.directory, FileNode.isDirectory, Bool.not_true,
    Bool.and_false]
  rfl

namespace Opens

theorem run_pathExists_child (h : m.Opens p d) (hf : IsFileName f) :
    m.run (FileDialogue.pathExists (p.child f)) =
      (some (m.files.at? (d ++ [f])).isSome, m) := by
  rw [run_pathExists, h.find_child hf]
  cases m.files.at? (d ++ [f]) <;> rfl

variable {g text : String} {id : FileId} {modified : Moment}

theorem respond_createNew (h : m.Opens p d) (hf : IsFileName f)
    (hl : m.files.at? (d ++ [f]) = none) :
    respond (.createNew (p.child f)) m =
      (.ok m.nextId, { m.addFile (d ++ [f]) m.nextId with nextId := m.nextId + 1 }) := by
  rw [respond, createNew, h.resolve_child hf]
  simp only [Bind.bind, Except.bind, hl]
  rfl

/-- A file is made where there is nothing, and otherwise nothing happens. -/
theorem respond_createNew_cases (h : m.Opens p d) (hf : IsFileName f) :
    (∃ e, respond (.createNew (p.child f)) m = (.error e, m)) ∨
      m.files.at? (d ++ [f]) = none ∧ respond (.createNew (p.child f)) m =
        (.ok m.nextId, { m.addFile (d ++ [f]) m.nextId with nextId := m.nextId + 1 }) := by
  cases hl : m.files.at? (d ++ [f]) with
  | none => exact .inr ⟨rfl, h.respond_createNew hf hl⟩
  | some n =>
    refine .inl ⟨.alreadyExists, ?_⟩
    rw [respond, createNew, h.resolve_child hf]
    simp only [Bind.bind, Except.bind, hl]
    rfl

theorem respond_createEmpty (h : m.Opens p d) (hf : IsFileName f)
    (hl : m.files.at? (d ++ [f]) = none) :
    respond (.createEmpty (p.child f)) m =
      (.ok m.nextId, { m.addFile (d ++ [f]) m.nextId with nextId := m.nextId + 1 }) := by
  rw [respond, createEmpty, h.resolve_child hf]
  simp only [Bind.bind, Except.bind, hl]
  rfl

theorem respond_removeFile (h : m.Opens p d) (hf : IsFileName f) {content : Content}
    (hl : m.files.at? (d ++ [f]) = some (.file id content modified)) :
    respond (.removeFile (p.child f)) m = (.ok (), m.remove (d ++ [f])) := by
  rw [respond, removeFile, h.find_child hf, hl]
  rfl

/-- A file may be moved to any name that no directory has. -/
theorem respond_rename (h : m.Opens p d) (hf : IsFileName f) (hg : IsFileName g)
    {content : Content} (hl : m.files.at? (d ++ [f]) = some (.file id content modified))
    (hk : m.files.at? (d ++ [g]) ≠ some .directory) :
    respond (.rename (p.child f) (p.child g)) m = (.ok (), m.shift (d ++ [f]) (d ++ [g])) := by
  rw [respond, rename, h.find_child hf, hl, h.resolve_child hg]
  simp only [Bind.bind, Except.bind, FileNode.isDirectory]
  split
  · next heq _ => cases heq
  · next heq => exact absurd heq hk
  · next heq _ => cases heq
  · rfl

/-- A file that is written where there is none is there with its text. -/
theorem run_writeFile (h : m.Opens p d) (hf : IsFileName f)
    (hl : m.files.at? (d ++ [f]) = none) :
    m.run (FileDialogue.writeFile (p.child f) text) =
      (some (.ok ()), m.put (d ++ [f]) text) := by
  rw [FileDialogue.writeFile, run_bind (run_ask _), h.respond_createEmpty hf hl]
  rfl

end Opens

/-! ## Making directories -/

/-- Where a path starts. -/
def origin (m : Machine) (p : Path) : Location := if p.absolute then [] else m.workingDirectory

/-- A path that leads to a location is resolved from there on. -/
theorem resolve_eq_foldlM {start : Location} {front rest : List String} (hp : p.isEmpty = false)
    (hparts : p.parts = front ++ rest) (hfront : ∀ part ∈ front, '\x00' ∉ part.toList)
    (hrest : ∀ part ∈ rest, part = "." ∨ IsFileName part)
    (hstart : front.foldlM m.files.step (m.origin p) = .ok start) :
    m.resolve p = rest.foldlM m.files.step start := by
  have hnull : (p.parts.any fun part => part.toList.contains '\x00') = false := by
    rw [List.any_eq_false, hparts, List.forall_mem_append]
    refine ⟨fun part hpart hmem => hfront part hpart (List.contains_iff_mem.1 hmem),
      fun part hpart hmem => ?_⟩
    rw [List.contains_iff_mem] at hmem
    rcases hrest part hpart with rfl | hname
    · exact absurd hmem (by decide)
    · exact hname.noNull hmem
  rw [origin] at hstart
  rw [resolve, FileTree.resolve, hnull, hp, hparts, List.foldlM_append, hstart]
  rfl

/-- A path leads to a directory and from there on to names that may yet have to be made, with no
file in the way. -/
structure Makeable (m : Machine) (p : Path) (start : Location) (rest : List String) : Prop where
  leads : ∃ front, p.parts = front ++ rest ∧ (∀ part ∈ front, '\x00' ∉ part.toList) ∧
    front.foldlM m.files.step (m.origin p) = .ok start
  directory : m.files.at? start = some .directory
  plain : ∀ part ∈ rest, part = "." ∨ IsFileName part
  clear : ∀ k, k <+: start ++ Path.onward rest → ∀ id content modified,
    m.files.at? k ≠ some (.file id content modified)

section Fold

variable {parts : List String}

/-- Single dots stay where they are and names lead on. -/
theorem foldlM_step_plain (hm : m.Sound) (hplain : ∀ part ∈ parts, part = "." ∨ IsFileName part)
    (hl : m.files.at? (l ++ Path.onward parts) = some .directory) :
    parts.foldlM m.files.step l = .ok (l ++ Path.onward parts) := by
  induction parts generalizing l with
  | nil => exact congrArg _ (List.append_nil l).symm
  | cons part parts ih =>
    obtain ⟨hpart, hparts⟩ := List.forall_mem_cons.1 hplain
    -- What is on the way to a directory is a directory.
    have hdir : m.files.at? l = some .directory := by
      by_cases hne : l = l ++ Path.onward (part :: parts)
      · rw [← hne] at hl
        exact hl
      · exact hm.wellFormed.at?_prefix hl (List.prefix_append _ _) hne
    rw [List.foldlM_cons]
    rcases hpart with rfl | hpart
    · rw [step_dot hdir]
      exact ih hparts hl
    · rw [Path.onward_cons hpart.ne_dot, List.append_cons] at hl ⊢
      rw [step_of_directory hdir hpart]
      exact ih hparts hl

/-- No path goes on behind what is not there. -/
theorem foldlM_step_missing (hplain : ∀ part ∈ parts, part = "." ∨ IsFileName part)
    (hclear : ∀ k, k <+: l ++ Path.onward parts → ∀ id content modified,
      m.files.at? k ≠ some (.file id content modified))
    (hl : m.files.at? (l ++ Path.onward parts) = none) (x : String) :
    (parts ++ [x]).foldlM m.files.step l = .error .notFound := by
  induction parts generalizing l with
  | nil =>
    rw [Path.onward, List.filter_nil, List.append_nil] at hl
    rw [List.nil_append, List.foldlM_cons, step_of_none hl]
    rfl
  | cons part parts ih =>
    obtain ⟨hpart, hparts⟩ := List.forall_mem_cons.1 hplain
    rw [List.cons_append, List.foldlM_cons]
    cases hn : m.files.at? l with
    | none =>
      rw [step_of_none hn]
      rfl
    | some n =>
      cases n with
      | file id content modified => exact absurd hn (hclear l (List.prefix_append _ _) _ _ _)
      | directory =>
        -- A dot stays where it is, and any other part is one more name.
        rcases hpart with rfl | hpart
        · rw [step_dot hn]
          exact ih hparts hclear hl
        · rw [Path.onward_cons hpart.ne_dot, List.append_cons] at hl hclear
          rw [step_of_directory hn hpart]
          exact ih hparts hclear hl

end Fold

namespace Makeable

variable {start : Location} {parts rest : List String}

theorem resolve_eq (h : m.Makeable p start rest) (hp : p.parts ≠ []) :
    m.resolve p = rest.foldlM m.files.step start := by
  obtain ⟨front, hparts, hfront, hstart⟩ := h.leads
  exact resolve_eq_foldlM (Path.isEmpty_of_parts_ne_nil hp) hparts hfront h.plain hstart

/-- Where a path leads to is missing, or it is a directory as are all on the way. -/
theorem at?_of_prefix (h : m.Makeable p start rest) (hk : k <+: start ++ Path.onward rest) :
    m.files.at? k = none ∨ m.files.at? k = some .directory := by
  rcases hn : m.files.at? k with _ | (⟨id, content, modified⟩ | _)
  · exact .inl rfl
  · exact absurd hn (h.clear k hk _ _ _)
  · exact .inr rfl

theorem onward_concat (hname : name ≠ ".") :
    Path.onward (parts ++ [name]) = Path.onward parts ++ [name] := by
  rw [Path.onward_append, Path.onward_cons hname]
  rfl

theorem parts_ne_nil (h : m.Makeable p start (parts ++ [name])) : p.parts ≠ [] := by
  obtain ⟨front, hparts, -⟩ := h.leads
  rw [hparts]
  simp

/-- A path into what is there leads to its name. -/
theorem resolve_of_directory (h : m.Makeable p start (parts ++ [name])) (hm : m.Sound)
    (hname : name ≠ ".") (hd : m.files.at? (start ++ Path.onward parts) = some .directory) :
    m.resolve p = .ok (start ++ Path.onward parts ++ [name]) := by
  obtain ⟨hplain, hlast⟩ := List.forall_mem_append.1 h.plain
  have hlast : IsFileName name := (hlast name List.mem_cons_self).resolve_left hname
  rw [h.resolve_eq h.parts_ne_nil, List.foldlM_append, foldlM_step_plain hm hplain hd]
  simp only [Bind.bind, Except.bind, List.foldlM_cons, List.foldlM_nil,
    step_of_directory hd hlast]
  rfl

theorem resolve_of_missing (h : m.Makeable p start (parts ++ [name]))
    (hd : m.files.at? (start ++ Path.onward parts) = none) : m.resolve p = .error .notFound := by
  have hle : start ++ Path.onward parts <+: start ++ Path.onward (parts ++ [name]) := by
    rw [Path.onward_append, ← List.append_assoc]
    exact List.prefix_append _ _
  rw [h.resolve_eq h.parts_ne_nil]
  exact foldlM_step_missing (List.forall_mem_append.1 h.plain).1
    (fun k hk => h.clear k (hk.trans hle)) hd name

theorem exists_concat (h : m.Makeable p start rest)
    (hmissing : m.files.at? (start ++ Path.onward rest) = none) :
    ∃ parts name, rest = parts ++ [name] := by
  have hrest : rest ≠ [] := by
    rintro rfl
    rw [Path.onward, List.filter_nil, List.append_nil, h.directory] at hmissing
    cases hmissing
  exact ⟨_, _, (List.dropLast_concat_getLast hrest).symm⟩

/-- A path that has yet to be made leads to nothing. -/
theorem find (h : m.Makeable p start rest) (hm : m.Sound)
    (hmissing : m.files.at? (start ++ Path.onward rest) = none) : m.find p = .error .notFound := by
  obtain ⟨parts, name, rfl⟩ := h.exists_concat hmissing
  have hle : start ++ Path.onward parts <+: start ++ Path.onward (parts ++ [name]) := by
    rw [Path.onward_append, ← List.append_assoc]
    exact List.prefix_append _ _
  rw [Machine.find]
  rcases h.at?_of_prefix hle with hd | hd
  · rw [h.resolve_of_missing hd]
    rfl
  · have hname : name ≠ "." := by
      rintro rfl
      rw [Path.onward_append, Path.onward_dot] at hmissing
      rw [← List.append_nil (Path.onward parts)] at hd
      exact ne_directory_of_none hmissing hd
    rw [onward_concat hname, ← List.append_assoc] at hmissing
    rw [h.resolve_of_directory hm hname hd]
    simp only [Bind.bind, Except.bind, hmissing]
    rfl

end Makeable

theorem respond_makeDirectory (hp : m.resolve p = .ok l) (hl : m.files.at? l = none) :
    respond (.makeDirectory p) m = (.ok (), m.addDirectory l) := by
  rw [respond, makeDirectory, hp]
  simp only [Bind.bind, Except.bind, hl]
  rfl

theorem respond_makeDirectory_of_directory (hp : m.resolve p = .ok l)
    (hl : m.files.at? l = some .directory) :
    respond (.makeDirectory p) m = (.error .alreadyExists, m) := by
  rw [respond, makeDirectory, hp]
  simp only [Bind.bind, Except.bind, hl]
  rfl

theorem respond_makeDirectory_of_error {e : FileFault} (hp : m.resolve p = .error e) :
    respond (.makeDirectory p) m = (.error e, m) := by
  rw [respond, makeDirectory, hp]
  rfl

theorem Enters.run_leadsToDirectory (h : m.Enters p d) :
    m.run (FileDialogue.leadsToDirectory p) = (some true, m) := by
  rw [FileDialogue.leadsToDirectory, run_bind (run_ask _), respond, h.find]
  rfl

/-- The directories on the way to a place are there, and nothing else has changed. -/
structure MadeUpTo (m m' : Machine) (l : Location) : Prop where
  sound : m'.Sound
  workingDirectory : m'.workingDirectory = m.workingDirectory
  at?_eq : ∀ k, m'.files.at? k = if k <+: l then some .directory else m.files.at? k

theorem MadeUpTo.refl (hm : m.Sound) (hl : m.files.at? l = some .directory) : m.MadeUpTo m l where
  sound := hm
  workingDirectory := rfl
  at?_eq k := by
    split
    · next hk =>
      by_cases hne : k = l
      · rw [hne, hl]
      · exact hm.wellFormed.at?_prefix hl hk hne
    · rfl

theorem MadeUpTo.add (h : m.MadeUpTo m' d) (hname : IsFileName name)
    (hl : m'.files.at? (d ++ [name]) = none) :
    m.MadeUpTo (m'.addDirectory (d ++ [name])) (d ++ [name]) where
  sound := by
    have hd := h.at?_eq d
    rw [if_pos (List.prefix_refl d)] at hd
    exact h.sound.addDirectory hd hname (ne_directory_of_none hl)
  workingDirectory := h.workingDirectory
  at?_eq k := by
    rw [addDirectory, FileTree.at?_insert (ne_nil_of_at? (ne_directory_of_none hl)), h.at?_eq]
    simp only [List.prefix_concat_iff]
    by_cases hk : k = d ++ [name] <;> simp [hk]

theorem MadeUpTo.mono (h : m.MadeUpTo m' l) (hk : m.files.at? k = some .directory) :
    m'.files.at? k = some .directory := by
  rw [h.at?_eq, hk, ite_self]

variable {start : Location} {rest : List String}

theorem Makeable.mono (h : m.Makeable p start rest)
    (hcwd : m'.workingDirectory = m.workingDirectory)
    (hkeep : ∀ k, m.files.at? k = some .directory → m'.files.at? k = some .directory)
    (hclear : ∀ k, k <+: start ++ Path.onward rest → ∀ id content modified,
      m'.files.at? k ≠ some (.file id content modified)) : m'.Makeable p start rest where
  leads := by
    obtain ⟨front, hparts, hfront, hstart⟩ := h.leads
    refine ⟨front, hparts, hfront, foldlM_step_mono hkeep ?_⟩
    rwa [origin, hcwd]
  directory := hkeep _ h.directory
  plain := h.plain
  clear := hclear

theorem Makeable.of_madeUpTo (h : m.Makeable p start rest) (hm' : m.MadeUpTo m' l) :
    m'.Makeable p start rest :=
  h.mono hm'.workingDirectory (fun _ => hm'.mono) fun k hk id content modified => by
    rw [hm'.at?_eq]
    split
    · exact (ne_directory_of_file rfl).symm
    · exact h.clear k hk id content modified

/-- The parent of a path whose directory is missing is a path to that directory, which can be made
too. -/
theorem Makeable.exists_parent {parts : List String} (h : m.Makeable p start (parts ++ [name]))
    (hname : name ≠ ".") (hd : m.files.at? (start ++ Path.onward parts) = none) :
    ∃ q parts' name', p.parent? = some q ∧ name' ≠ "." ∧ q.parts.length < p.parts.length ∧
      m.Makeable q start (parts' ++ [name']) ∧
      Path.onward (parts' ++ [name']) = Path.onward parts := by
  obtain ⟨front, hp, hfront, hstart⟩ := h.leads
  have honward : Path.onward parts ≠ [] := by
    intro hnil
    rw [hnil, List.append_nil, h.directory] at hd
    cases hd
  -- The parent ends in the last part that is no dot, and leads as far.
  obtain ⟨parts', name', dots, hparent, hname', hparts, hdots⟩ :=
    Path.exists_parent hp hname honward
  have hsame : Path.onward (parts' ++ [name']) = Path.onward parts := by
    rw [hparts, Path.onward_append (parts' ++ [name']), hdots, List.append_nil]
  have hplain := (List.forall_mem_append.1 h.plain).1
  refine ⟨_, parts', name', hparent, hname', ?_,
    ⟨⟨front, rfl, hfront, hstart⟩, h.directory, ?_, ?_⟩, hsame⟩
  · simp only [hp, hparts, List.length_append, List.length_singleton]
    omega
  · exact fun part hpart => hplain part (hparts ▸ List.mem_append_left _ hpart)
  · intro k hk
    refine h.clear k ((hsame ▸ hk : k <+: start ++ Path.onward parts).trans ?_)
    rw [Path.onward_append, ← List.append_assoc]
    exact List.prefix_append _ _

/-- A path that can be made is made. -/
theorem Makeable.run_makeDirectoriesWithin {parts : List String}
    (h : m.Makeable p start (parts ++ [name])) (hm : m.Sound) (hname : name ≠ ".") {fuel : Nat}
    (hfuel : p.parts.length ≤ fuel) :
    ∃ m', m.run (FileDialogue.makeDirectoriesWithin fuel p) = (some (.ok ()), m') ∧
      m.MadeUpTo m' (start ++ Path.onward parts ++ [name]) := by
  induction fuel generalizing p parts name with
  | zero => exact absurd (List.length_eq_zero_iff.1 (Nat.le_zero.1 hfuel)) h.parts_ne_nil
  | succ fuel ih =>
    have hempty := Path.isEmpty_of_parts_ne_nil h.parts_ne_nil
    have hlast : IsFileName name :=
      (h.plain name (List.mem_append_right _ List.mem_cons_self)).resolve_left hname
    have hend : start ++ Path.onward parts ++ [name] <+:
        start ++ Path.onward (parts ++ [name]) := by
      simp only [onward_concat hname, List.append_assoc, List.prefix_refl]
    have hclear := h.at?_of_prefix hend
    rw [FileDialogue.makeDirectoriesWithin, hempty]
    simp only [Bool.false_eq_true, if_false]
    rw [run_bind (run_ask _)]
    rcases h.at?_of_prefix (k := start ++ Path.onward parts)
      (by rw [onward_concat hname, ← List.append_assoc]; exact List.prefix_append _ _) with hd | hd
    · -- The directory above is made first.
      obtain ⟨q, parts', name', hparent, hname', hlength, hmakeable, hsame⟩ :=
        h.exists_parent hname hd
      obtain ⟨m', hrun, hmade⟩ := ih hmakeable hname' (by omega)
      rw [List.append_assoc, ← onward_concat hname', hsame] at hmade
      have hmade' : m'.files.at? (start ++ Path.onward parts) = some .directory := by
        rw [hmade.at?_eq, if_pos (List.prefix_refl _)]
      have hvacant : m'.files.at? (start ++ Path.onward parts ++ [name]) = none := by
        have hlonger : ¬ start ++ Path.onward parts ++ [name] <+: start ++ Path.onward parts :=
          fun hle => absurd hle.length_le (by simp)
        rw [hmade.at?_eq, if_neg hlonger]
        exact hm.wellFormed.at?_child (ne_directory_of_none hd) name
      have hresolve := (h.of_madeUpTo hmade).resolve_of_directory hmade.sound hname hmade'
      rw [respond_makeDirectory_of_error (h.resolve_of_missing hd)]
      simp only [hparent]
      rw [run_bind hrun]
      simp only
      rw [run_bind (run_ask _), respond_makeDirectory hresolve hvacant]
      exact ⟨_, rfl, hmade.add hlast hvacant⟩
    · -- The directory above is there, and perhaps so is the one that is asked for.
      have hresolve := h.resolve_of_directory hm hname hd
      rcases hclear with hl | hl
      · rw [respond_makeDirectory hresolve hl]
        exact ⟨_, rfl, (MadeUpTo.refl hm hd).add hlast hl⟩
      · rw [respond_makeDirectory_of_directory hresolve hl]
        refine ⟨m, ?_, .refl hm hl⟩
        simp only
        rw [run_bind (Enters.run_leadsToDirectory ⟨hresolve, hl⟩)]
        rfl

theorem Makeable.resolve_of_made (h : m.Makeable p start rest) (hm : m.Sound) (hp : p.parts ≠ [])
    (hl : m.files.at? (start ++ Path.onward rest) = some .directory) :
    m.resolve p = .ok (start ++ Path.onward rest) := by
  rw [h.resolve_eq hp]
  exact foldlM_step_plain hm h.plain hl

/-- A name in a directory that is there can be made. -/
theorem Enters.makeable (h : m.Enters p d) (hm : m.Sound) : m.Makeable p d [] where
  leads := by
    have hresolve := h.resolve
    rw [Machine.resolve, FileTree.resolve, h.isEmpty] at hresolve
    split at hresolve
    · cases hresolve
    · next hnull =>
      refine ⟨p.parts, (List.append_nil _).symm, fun part hpart hmem => ?_, hresolve⟩
      exact hnull (List.any_eq_true.2 ⟨part, hpart, List.contains_iff_mem.2 hmem⟩)
  directory := h.directory
  plain := List.forall_mem_nil _
  clear k hk id content modified hn := by
    rw [Path.onward, List.filter_nil, List.append_nil] at hk
    by_cases hne : k = d
    · rw [hne, h.directory] at hn
      cases hn
    · rw [hm.wellFormed.at?_prefix h.directory hk hne] at hn
      cases hn

theorem Makeable.child (h : m.Makeable p start rest) (hf : IsFileName f)
    (hfile : ∀ id content modified,
      m.files.at? (start ++ Path.onward rest ++ [f]) ≠ some (.file id content modified)) :
    m.Makeable (p.child f) start (rest ++ [f]) where
  leads := by
    obtain ⟨front, hparts, hfront, hstart⟩ := h.leads
    refine ⟨front, ?_, hfront, hstart⟩
    rw [Path.child, hparts, List.append_assoc]
  directory := h.directory
  plain := List.forall_mem_append.2 ⟨h.plain, fun part hpart => by
    obtain rfl := List.mem_singleton.1 hpart
    exact .inr hf⟩
  clear k hk := by
    rw [Makeable.onward_concat hf.ne_dot, ← List.append_assoc, List.prefix_concat_iff] at hk
    rcases hk with rfl | hk
    · exact hfile
    · exact h.clear k hk

/-! ## Ways from outside -/

/-- The machine with nothing in a directory. -/
def emptied (m : Machine) (d : Location) : Machine := { m with files := m.files.clear d }

/-- A path leads to a directory by way of nothing that is in the directory. -/
def Reaches (m : Machine) (p : Path) (d : Location) : Prop := (m.emptied d).Enters p d

theorem at?_emptied (m : Machine) (d k : Location) :
    (m.emptied d).files.at? k = if FileTree.isBelow k d then none else m.files.at? k :=
  FileTree.at?_clear _ _ _

theorem at?_emptied_eq_some_iff : (m.emptied d).files.at? k = some n ↔
    ¬ FileTree.isBelow k d = true ∧ m.files.at? k = some n := by
  rw [at?_emptied, Option.ite_none_left_eq_some]

theorem at?_of_emptied (h : (m.emptied d).files.at? k = some n) : m.files.at? k = some n :=
  (at?_emptied_eq_some_iff.1 h).2

/-- Machines that agree outside a directory agree when there is nothing in it. -/
theorem directory_emptied_of_agree
    (hagree : ∀ k, ¬ FileTree.isBelow k d → m.files.at? k = some .directory →
      m'.files.at? k = some .directory) (k : Location)
    (hk : (m.emptied d).files.at? k = some .directory) :
    (m'.emptied d).files.at? k = some .directory := by
  obtain ⟨houtside, hdirectory⟩ := at?_emptied_eq_some_iff.1 hk
  exact at?_emptied_eq_some_iff.2 ⟨houtside, hagree k houtside hdirectory⟩

theorem Sound.emptied (h : m.Sound) (d : Location) : (m.emptied d).Sound where
  wellFormed := h.wellFormed.clear d
  fresh hk := h.fresh (at?_of_emptied hk)
  quiet := h.quiet

theorem Reaches.enters (h : m.Reaches p d) : m.Enters p d :=
  Enters.mono h rfl fun _ => at?_of_emptied

/-- What happens in a directory does not matter for the ways to it from outside. -/
theorem Reaches.of_agree (h : m.Reaches p d) (hcwd : m'.workingDirectory = m.workingDirectory)
    (hagree : ∀ k, ¬ FileTree.isBelow k d → m.files.at? k = some .directory →
      m'.files.at? k = some .directory) : m'.Reaches p d :=
  Enters.mono h hcwd (directory_emptied_of_agree hagree)

/-- So does a file that is made in it. -/
theorem Reaches.put (h : m.Reaches p d) (hm : m.Sound) (hl : FileTree.isBelow l d = true)
    (text : String) : (m.put l text).Reaches p d :=
  h.of_agree rfl fun k hk hdir => by
    have hne : l ≠ [] := List.ne_nil_of_length_pos (Nat.zero_lt_of_lt (FileTree.isBelow_iff.1 hl).2)
    rw [hm.at?_put hne, if_neg, hdir]
    rintro rfl
    exact hk hl

/-- A directory in one that is reached is reached by its name. -/
theorem Reaches.child (h : m.Reaches p d) (hf : IsFileName f)
    (hd : m.files.at? (d ++ [f]) = some .directory) : m.Reaches (p.child f) (d ++ [f]) := by
  have hself : (m.emptied (d ++ [f])).files.at? (d ++ [f]) = some .directory := by
    rw [at?_emptied, if_neg fun hbelow => absurd (FileTree.isBelow_iff.1 hbelow).2
      (Nat.lt_irrefl _), hd]
  have houter : (m.emptied (d ++ [f])).Reaches p d := h.of_agree rfl fun k hk hdir => by
    rw [at?_emptied, if_neg, hdir]
    intro hbelow
    obtain ⟨⟨tail, rfl⟩, -⟩ := FileTree.isBelow_iff.1 hbelow
    exact hk (FileTree.isBelow_iff.2
      ⟨by rw [List.append_assoc]; exact List.prefix_append _ _, by simp⟩)
  exact ⟨houter.enters.resolve_child hf, hself⟩

/-- The machine without a directory and what is in it. -/
def cut (m : Machine) (d : Location) : Machine := { m with files := (m.files.clear d).erase d }

theorem at?_cut (hd : d ≠ []) (k : Location) :
    (m.cut d).files.at? k = if d <+: k then none else m.files.at? k := by
  rw [cut, FileTree.at?_erase hd, FileTree.at?_clear]
  by_cases hk : k = d
  · rw [if_pos hk, if_pos (hk ▸ List.prefix_refl k)]
  · have hbelow : FileTree.isBelow k d = true ↔ d <+: k := by
      rw [FileTree.isBelow_iff, and_iff_left_iff_imp]
      exact fun h => Nat.lt_of_le_of_ne h.length_le fun he => hk (h.eq_of_length he).symm
    simp only [hk, hbelow, if_false]

theorem at?_cut_eq_some_iff (hd : d ≠ []) :
    (m.cut d).files.at? k = some n ↔ ¬ d <+: k ∧ m.files.at? k = some n := by
  rw [at?_cut hd, Option.ite_none_left_eq_some]

theorem Sound.cut (h : m.Sound) (hd : d ≠ []) : (m.cut d).Sound where
  wellFormed := (h.wellFormed.clear d).erase hd fun name => by
    rw [FileTree.at?_clear, if_pos]
    exact FileTree.isBelow_iff.2 ⟨List.prefix_append _ _, by simp⟩
  fresh hk := h.fresh ((at?_cut_eq_some_iff hd).1 hk).2
  quiet := h.quiet

/-- What is reached is reached without what was in it. -/
theorem Reaches.cut (h : m.Reaches p d) (hl : FileTree.isBelow l d = true) :
    (m.cut l).Reaches p d :=
  h.of_agree rfl fun k hk hdir => by
    obtain ⟨hle, hlength⟩ := FileTree.isBelow_iff.1 hl
    refine (at?_cut_eq_some_iff (List.ne_nil_of_length_pos (Nat.zero_lt_of_lt hlength))).2
      ⟨fun hlk => hk (FileTree.isBelow_iff.2 ⟨hle.trans hlk, ?_⟩), hdir⟩
    exact Nat.lt_of_lt_of_le hlength hlk.length_le

/-- A directory is removed with all that is in it, if the path that ends in its name does not lead
through that. -/
theorem Reaches.removeDirectory (h : m.Reaches (p.child name) d) (hname : Path.IsNormal name) :
    m.removeDirectory (p.child name) = (m.cut d, .ok ()) := by
  have hfind : (m.emptied d).find (p.child name) = .ok (d, .directory) := Enters.find h
  have hlast : (p.child name).parts.getLast? = some name := List.getLast?_concat
  rw [Machine.removeDirectory, h.enters.find]
  simp only
  rw [← emptied, hfind, hlast]
  simp only [if_neg hname.ne_dot, if_neg hname.ne_dots]
  rfl

theorem Reaches.respond_removeDirectory (h : m.Reaches p d) (hf : IsFileName f)
    (hd : m.files.at? (d ++ [f]) = some .directory) :
    respond (.removeDirectory (p.child f)) m = (.ok (), m.cut (d ++ [f])) := by
  rw [respond, (h.child hf hd).removeDirectory (Path.isNormal_name hf)]

/-- Of a directory that is removed nothing is left, or the directory itself. -/
theorem Enters.removeDirectory (h : m.Enters p d) :
    (m.removeDirectory p).1 = m.emptied d ∨ (m.removeDirectory p).1 = m.cut d := by
  rw [Machine.removeDirectory, h.find]
  simp only
  split
  · exact .inl rfl
  · exact .inl rfl
  · split
    · exact .inl rfl
    · split
      · exact .inl rfl
      · split
        · exact .inl rfl
        · exact .inr rfl

/-- What is left when a directory was removed is not in it and was there before. -/
theorem Enters.of_removeDirectory (h : m.Enters p d)
    (hk : (m.removeDirectory p).1.files.at? k = some n) :
    FileTree.isBelow k d = false ∧ m.files.at? k = some n := by
  have hemptied (hk : (m.emptied d).files.at? k = some n) :
      FileTree.isBelow k d = false ∧ m.files.at? k = some n := by
    rwa [at?_emptied_eq_some_iff, Bool.not_eq_true] at hk
  rcases h.removeDirectory with heq | heq <;> rw [heq] at hk
  · exact hemptied hk
  · refine hemptied ?_
    by_cases hnil : k = []
    · subst hnil
      exact hk
    · rw [FileTree.at?_of_ne_nil hnil, cut, SortedMap.find?_erase,
        Option.ite_none_left_eq_some] at hk
      rw [FileTree.at?_of_ne_nil hnil]
      exact hk.2

/-- A path that has been made reaches its place. -/
theorem Makeable.reaches (h : m.Makeable p start rest) (hm : m.Sound)
    (hmissing : m.files.at? (start ++ Path.onward rest) = none) (hmade : m.MadeUpTo m' l)
    (hl : start ++ Path.onward rest <+: l) : m'.Reaches p (start ++ Path.onward rest) := by
  have hp : p.parts ≠ [] := by
    obtain ⟨parts, name, rfl⟩ := h.exists_concat hmissing
    exact h.parts_ne_nil
  have hkeep (k : Location) (hk : m.files.at? k = some .directory) :
      (m'.emptied (start ++ Path.onward rest)).files.at? k = some .directory := by
    rw [at?_emptied, if_neg, hmade.mono hk]
    -- Nothing was in what was not there.
    intro hbelow
    obtain ⟨⟨tail, rfl⟩, hlength⟩ := FileTree.isBelow_iff.1 hbelow
    have htail : tail ≠ [] := by
      rintro rfl
      simp at hlength
    rw [hm.wellFormed.at?_append (ne_directory_of_none hmissing) htail] at hk
    cases hk
  have hdirectory : (m'.emptied (start ++ Path.onward rest)).files.at? (start ++ Path.onward rest) =
      some .directory := by
    rw [at?_emptied,
      if_neg fun hbelow => absurd (FileTree.isBelow_iff.1 hbelow).2 (Nat.lt_irrefl _),
      hmade.at?_eq, if_pos hl]
  refine ⟨?_, hdirectory⟩
  have hmakeable : (m'.emptied (start ++ Path.onward rest)).Makeable p start rest :=
    h.mono hmade.workingDirectory hkeep fun k hk id content modified hn => by
      have hn' := at?_of_emptied hn
      rw [hmade.at?_eq, if_pos (hk.trans hl)] at hn'
      cases hn'
  exact hmakeable.resolve_of_made (hmade.sound.emptied _) hp hdirectory

/-! ## Places -/

/-- A path has a place: it leads there by way of nothing that is in it or, as long as nothing is
there, by names that can be made. -/
structure PlacedAt (m : Machine) (p : Path) (l : Location) : Prop where
  leads : ∃ start rest, m.Makeable p start rest ∧ start ++ Path.onward rest = l
  outside : m.Reaches p l ∨ m.files.at? l = none

theorem Reaches.placedAt (h : m.Reaches p l) (hm : m.Sound) : m.PlacedAt p l :=
  ⟨⟨l, [], h.enters.makeable hm, List.append_nil l⟩, .inl h⟩

namespace PlacedAt

theorem noFile (h : m.PlacedAt p l) (id : FileId) (content : Content) (modified : Moment) :
    m.files.at? l ≠ some (.file id content modified) := by
  obtain ⟨start, rest, hmake, rfl⟩ := h.leads
  exact hmake.clear _ (List.prefix_refl _) _ _ _

theorem reaches (h : m.PlacedAt p l) (hl : m.files.at? l = some .directory) : m.Reaches p l :=
  h.outside.resolve_right fun hnone => ne_directory_of_none hnone hl

theorem find_of_missing (h : m.PlacedAt p l) (hm : m.Sound) (hl : m.files.at? l = none) :
    m.find p = .error .notFound := by
  obtain ⟨start, rest, hmake, rfl⟩ := h.leads
  exact hmake.find hm hl

/-- What is under a name in the directory of a place, whether there is a directory or not. -/
theorem find_child (h : m.PlacedAt p l) (hm : m.Sound) (hf : IsFileName f) :
    m.find (p.child f) =
      match m.files.at? (l ++ [f]) with
      | some n => .ok (l ++ [f], n)
      | none => .error .notFound := by
  rcases hl : m.files.at? l with _ | (_ | _)
  · have hvacant := hm.wellFormed.at?_child (ne_directory_of_none hl) f
    obtain ⟨start, rest, hmake, rfl⟩ := h.leads
    rw [hvacant]
    exact (hmake.child hf fun _ _ _ => Option.eq_none_iff_forall_ne_some.1 hvacant _).find hm
      (by rw [Makeable.onward_concat hf.ne_dot, ← List.append_assoc, hvacant])
  · exact absurd hl (h.noFile _ _ _)
  · exact (h.reaches hl).enters.opens.find_child hf

theorem child (h : m.PlacedAt p l) (hm : m.Sound) (hf : IsFileName f)
    (hfile : ∀ id content modified, m.files.at? (l ++ [f]) ≠ some (.file id content modified)) :
    m.PlacedAt (p.child f) (l ++ [f]) where
  leads := by
    obtain ⟨start, rest, hmake, rfl⟩ := h.leads
    refine ⟨start, rest ++ [f], hmake.child hf hfile, ?_⟩
    rw [Makeable.onward_concat hf.ne_dot, List.append_assoc]
  outside := by
    rcases hl : m.files.at? (l ++ [f]) with _ | (_ | _)
    · exact .inr rfl
    · exact absurd hl (hfile _ _ _)
    · exact .inl ((h.reaches (hm.wellFormed.at?_of_child hl)).child hf hl)

/-- A place that has been made is reached. -/
theorem reaches_of_made (h : m.PlacedAt p l) (hm : m.Sound) (hmade : m.MadeUpTo m' d)
    (hd : l <+: d) : m'.Reaches p l := by
  rcases h.outside with hreaches | hl
  · exact hreaches.of_agree hmade.workingDirectory fun k _ => hmade.mono
  · obtain ⟨start, rest, hmake, rfl⟩ := h.leads
    exact hmake.reaches hm hl hmade hd

end PlacedAt

end Machine

end ClusterKeeper
