/-
# Ways to places that may be missing

A path that leads to a directory and goes on by names aims at one location, whatever there is on
the way. What it leads to is what is at that location, and nothing else can be made along it than
the directories on the way. Others that grow there do not lead it astray.
-/

import ClusterKeeper.Proofs.Files.Machine

namespace ClusterKeeper

open FileTree (IsFileName ne_directory_of_none)

/-- What succeeds has succeeded in each of its parts. -/
theorem exists_ok_of_bind {ε α β : Type} {x : Except ε α} {f : α → Except ε β} {y : β}
    (h : x >>= f = .ok y) : ∃ a, x = .ok a ∧ f a = .ok y := by
  cases x with
  | error e => cases h
  | ok a => exact ⟨a, rfl, h⟩

/-- What a path leads to is at the location that it leads to. -/
theorem Machine.eq_ok_of_find {m : Machine} {p : Path} {l : Location} {n : FileNode}
    (h : m.find p = .ok (l, n)) : m.resolve p = .ok l ∧ m.files.at? l = some n := by
  obtain ⟨k, hk, h⟩ := exists_ok_of_bind h
  split at h
  · next hn =>
    split at h <;> cases h
    exact ⟨hk, hn⟩
  · cases h

/-! ## Dialogues that only look -/

/-- A request that neither changes anything nor lets time pass. -/
def FileRequest.isLook : FileRequest → Bool
  | .isDirectory _ => true
  | .readText _ => true
  | .modified _ => true
  | .list _ => true
  | .now => true
  | _ => false

theorem Machine.respond_of_isLook {r : FileRequest} (h : r.isLook = true) (m : Machine) :
    (respond r m).2 = m := by
  cases r <;> first | rfl | cases h

variable {α : Type}

/-- A dialogue that only looks at what is there. -/
def FileDialogue.OnlyLooks (c : FileDialogue α) : Prop := c.Asks fun r => r.isLook = true

namespace FileDialogue

theorem OnlyLooks.run {c : FileDialogue α} (hc : c.OnlyLooks) (m : Machine) :
    (m.run c).2 = m :=
  Machine.run_of_asks (I := fun m' => m' = m) hc
    (fun _ m' hlook hm' => (Machine.respond_of_isLook hlook m').trans hm') rfl

/-- A dialogue that only looks changes nothing and, if it is not broken off, comes to something. -/
theorem OnlyLooks.exists_run {c : FileDialogue α} (hc : c.OnlyLooks) (h : c.Unbroken)
    (m : Machine) : ∃ x, m.run c = (some x, m) := by
  obtain ⟨x, hx⟩ : ∃ x, (m.run c).1 = some x := h.exists_run m
  exact ⟨x, Prod.ext hx (hc.run m)⟩

/-- A property of dialogues that looking has, and that two dialogues held one after the other have
if each of them has it. -/
structure Looking (P : ∀ {α : Type}, FileDialogue α → Prop) : Prop
    extends Dialogue.Composes P where
  look : ∀ r : FileRequest, r.isLook = true → P (ask r)

theorem looking_onlyLooks : Looking fun {α : Type} (c : FileDialogue α) => c.OnlyLooks where
  pure := Dialogue.asks_pure
  bind := Dialogue.Asks.bind
  look _ h := Dialogue.asks_question h

theorem looking_unbroken : Looking fun {α : Type} (c : FileDialogue α) => c.Unbroken where
  toComposes := Dialogue.composes_unbroken
  look r _ := Dialogue.unbroken_question r

namespace Looking

variable {P : ∀ {α : Type}, FileDialogue α → Prop}

theorem pathExists (h : Looking P) (p : Path) : P (pathExists p) :=
  h.bind (h.look (.isDirectory p) rfl) fun _ => h.pure _

theorem pathExists? (h : Looking P) (p : Path) : P (pathExists? p) := by
  refine h.bind (h.look (.isDirectory p) rfl) fun answer => ?_
  split <;> exact h.pure _

theorem leadsToFile (h : Looking P) (p : Path) : P (leadsToFile p) :=
  h.bind (h.look (.isDirectory p) rfl) fun _ => h.pure _

theorem filterM (h : Looking P) {f : String → FileDialogue Bool} (hf : ∀ name, P (f name))
    (names : List String) : P (names.filterM f) := by
  have hkept (kept : List String) : P (names.filterAuxM f kept) := by
    induction names generalizing kept with
    | nil => exact h.pure _
    | cons name names ih => exact h.bind (hf name) fun found => ih _
  exact h.bind (hkept []) fun _ => h.pure _

end Looking

end FileDialogue

/-! ## Texts and paths that go on by names -/

/-- A text that goes down from a directory by names. -/
def Path.Descends (text : String) : Prop :=
  isAbsoluteText text = false ∧ ∀ part ∈ partsOf text, part = "." ∨ IsFileName part

theorem Path.descends_name {name : String} (h : IsFileName name) : Path.Descends name :=
  ⟨isAbsoluteText_name h, by
    rw [partsOf_name h]
    exact List.forall_mem_singleton.2 (.inr h)⟩

/-- A path goes along another as far as it goes. -/
def Path.Along (q p : Path) : Prop := q.absolute = p.absolute ∧ q.parts <+: p.parts

namespace Path.Along

theorem refl (p : Path) : p.Along p := ⟨rfl, List.prefix_refl _⟩

theorem trans {p q r : Path} (h : r.Along q) (h' : q.Along p) : r.Along p :=
  ⟨h.1.trans h'.1, h.2.trans h'.2⟩

theorem of_parent {p q : Path} (h : p.parent? = some q) : q.Along p := by
  have hdots (parts : List String) :
      (parts.reverse.dropWhile (· == ".")).reverse <+: parts := by
    rw [← List.reverse_suffix, List.reverse_reverse]
    exact List.dropWhile_suffix _
  rw [Path.parent?] at h
  split at h
  · cases h
  · cases h
    exact ⟨rfl, (hdots _).trans ((List.dropLast_prefix _).trans (hdots _))⟩

end Path.Along

/-- A request that looks for a directory, or makes one along a path. -/
inductive FileRequest.Paves (p : Path) : FileRequest → Prop
  | look (q : Path) : Paves p (.isDirectory q)
  | make {q : Path} (h : q.Along p) : Paves p (.makeDirectory q)

namespace FileDialogue

open FileRequest (Paves)

theorem paves_pathExists (p q : Path) : (pathExists q).Asks (Paves p) :=
  Dialogue.Asks.bind (Dialogue.asks_question (.look q)) fun _ => Dialogue.asks_pure _

theorem paves_leadsToDirectory (p q : Path) : (leadsToDirectory q).Asks (Paves p) :=
  Dialogue.Asks.bind (Dialogue.asks_question (.look q)) fun _ => Dialogue.asks_pure _

/-- To make a directory with those on the way to it is to look for them and to make them. -/
theorem paves_makeDirectoriesWithin {p q : Path} (hq : q.Along p) (fuel : Nat) :
    (makeDirectoriesWithin fuel q).Asks (Paves p) := by
  induction fuel generalizing q with
  | zero => exact Dialogue.asks_pure _
  | succ fuel ih =>
    have hmake : (ask (.makeDirectory q)).Asks (Paves p) := Dialogue.asks_question (.make hq)
    have hsettle (e : FileFault) : Dialogue.Asks (Paves p) (do
        if ← leadsToDirectory q then return Except.ok () else return .error e) :=
      (paves_leadsToDirectory p q).bind fun b => by cases b <;> exact Dialogue.asks_pure _
    -- The directory above is only made if the first try tells that it is missing.
    rw [makeDirectoriesWithin]
    split
    · exact Dialogue.asks_pure _
    refine hmake.bind fun answer => ?_
    split
    · exact Dialogue.asks_pure _
    · split
      · exact Dialogue.asks_pure _
      · next parent hparent =>
        refine (ih (.trans (.of_parent hparent) hq)).bind fun answer => ?_
        split
        · exact Dialogue.asks_pure _
        · refine hmake.bind fun answer => ?_
          split
          · exact Dialogue.asks_pure _
          · exact hsettle _
    · exact hsettle _

end FileDialogue

namespace Machine

variable {m m' : Machine} {p q : Path} {d k l start : Location} {n : FileNode} {f name : String}
variable {parts : List String}

/-! ## Steps of a path -/

theorem exists_of_foldlM_step_append {rest : List String}
    (h : (parts ++ rest).foldlM m.files.step l = .ok k) :
    ∃ j, parts.foldlM m.files.step l = .ok j ∧ rest.foldlM m.files.step j = .ok k := by
  rw [List.foldlM_append] at h
  exact exists_ok_of_bind h

theorem exists_of_foldlM_step_cons {part : String}
    (h : (part :: parts).foldlM m.files.step l = .ok k) :
    ∃ j, m.files.step l part = .ok j ∧ parts.foldlM m.files.step j = .ok k := by
  rw [List.foldlM_cons] at h
  exact exists_ok_of_bind h

theorem at?_of_step {part : String} (h : m.files.step l part = .ok k) :
    m.files.at? l = some .directory := by
  rw [FileTree.step] at h
  split at h
  · cases h
  · cases h
  · assumption

theorem eq_of_step {part : String} (hpart : part = "." ∨ IsFileName part)
    (h : m.files.step l part = .ok k) : k = l ++ Path.onward [part] := by
  have hd := at?_of_step h
  rcases hpart with rfl | hpart
  · rw [FileTree.step, hd] at h
    cases h
    exact (List.append_nil _).symm
  · rw [step_of_directory hd hpart] at h
    cases h
    rw [Path.onward_cons hpart.ne_dot]
    rfl

theorem eq_of_foldlM_step (hplain : ∀ part ∈ parts, part = "." ∨ IsFileName part)
    (h : parts.foldlM m.files.step l = .ok k) : k = l ++ Path.onward parts := by
  induction parts generalizing l with
  | nil =>
    cases h
    exact (List.append_nil _).symm
  | cons part parts ih =>
    obtain ⟨hpart, hparts⟩ := List.forall_mem_cons.1 hplain
    obtain ⟨j, hstep, hrest⟩ := exists_of_foldlM_step_cons h
    rw [ih hparts hrest, eq_of_step hpart hstep, List.append_assoc, ← Path.onward_append]
    rfl

/-- On the way of a path there are directories. -/
theorem directory_of_foldlM_step (h : parts.foldlM m.files.step l = .ok k)
    (hk : m.files.at? k = some .directory) : m.files.at? l = some .directory := by
  cases parts with
  | nil =>
    cases h
    exact hk
  | cons part parts =>
    obtain ⟨j, hstep, -⟩ := exists_of_foldlM_step_cons h
    exact at?_of_step hstep

/-- Where names lead to from a directory and nothing is, is a name in a directory. -/
theorem exists_concat_of_foldlM_step (hplain : ∀ part ∈ parts, part = "." ∨ IsFileName part)
    (h : parts.foldlM m.files.step l = .ok k) (hl : m.files.at? l = some .directory)
    (hk : m.files.at? k = none) :
    ∃ d name, k = d ++ [name] ∧ m.files.at? d = some .directory ∧ IsFileName name := by
  rcases List.eq_nil_or_concat parts with rfl | ⟨parts, name, rfl⟩
  · cases h
    exact absurd hl (ne_directory_of_none hk)
  rw [List.concat_eq_append] at h hplain
  obtain ⟨j, -, hlast⟩ := exists_of_foldlM_step_append h
  obtain ⟨i, hstep, hi⟩ := exists_of_foldlM_step_cons hlast
  cases hi
  rcases hplain name (List.mem_append_right _ List.mem_cons_self) with rfl | hname
  · -- A dot leads back to the directory itself.
    rw [eq_of_step (.inl rfl) hstep, Path.onward, List.filter_cons_of_neg (by simp),
      List.filter_nil, List.append_nil, at?_of_step hstep] at hk
    cases hk
  · refine ⟨j, name, ?_, at?_of_step hstep, hname⟩
    rw [eq_of_step (.inr hname) hstep, Path.onward_cons hname.ne_dot]
    rfl

theorem find_of_error {e : FileFault} (h : m.resolve p = .error e) : m.find p = .error e := by
  rw [find, h]
  rfl

theorem find_of_none (h : m.resolve p = .ok k) (hk : m.files.at? k = none) :
    m.find p = .error .notFound := by
  rw [find, h]
  simp only [Bind.bind, Except.bind, hk]
  rfl

theorem find_congr (h : m'.resolve p = m.resolve p)
    (hat : ∀ k, m.resolve p = .ok k → m'.files.at? k = m.files.at? k) : m'.find p = m.find p := by
  rw [find, find, h]
  cases hk : m.resolve p with
  | error e => rfl
  | ok k => simp only [Bind.bind, Except.bind, hat k hk]

/-- What there is on another machine is there on this one, or it is a directory where there was
nothing. -/
def GrownAt (m m' : Machine) (k : Location) : Prop :=
  m'.files.at? k = m.files.at? k ∨ m.files.at? k = none ∧ m'.files.at? k = some .directory

/-- Where there was nothing, only directories have come up. -/
theorem foldlM_step_of_missing (hm : m.Sound)
    (hplain : ∀ part ∈ parts, part = "." ∨ IsFileName part) (hl : m.files.at? l = none)
    (hgrown : ∀ k, k <+: l ++ Path.onward parts → m.GrownAt m' k) :
    parts.foldlM m'.files.step l = .ok (l ++ Path.onward parts) ∨
      parts.foldlM m'.files.step l = .error .notFound := by
  induction parts generalizing l with
  | nil => exact .inl (congrArg _ (List.append_nil l).symm)
  | cons part parts ih =>
    obtain ⟨hpart, hparts⟩ := List.forall_mem_cons.1 hplain
    rw [List.foldlM_cons]
    have hl' := hgrown l (List.prefix_append _ _)
    rw [GrownAt, hl] at hl'
    rcases hl' with hl' | ⟨-, hl'⟩
    · refine .inr ?_
      rw [step_of_none hl']
      rfl
    -- A directory has come up, so that the path goes one part further.
    rcases hpart with rfl | hpart
    · rw [step_dot hl']
      exact ih hparts hl hgrown
    · rw [Path.onward_cons hpart.ne_dot, List.append_cons] at hgrown ⊢
      rw [step_of_directory hl' hpart]
      exact ih hparts (hm.wellFormed.at?_child (ne_directory_of_none hl) part) hgrown

/-- A path goes on as before past directories that have come up, or it has led nowhere before. -/
theorem foldlM_step_of_grown (hm : m.Sound)
    (hplain : ∀ part ∈ parts, part = "." ∨ IsFileName part)
    (hgrown : ∀ k, k <+: l ++ Path.onward parts → m.GrownAt m' k) :
    parts.foldlM m'.files.step l = parts.foldlM m.files.step l ∨
      parts.foldlM m.files.step l = .error .notFound ∧
        m.files.at? (l ++ Path.onward parts) = none ∧
        parts.foldlM m'.files.step l = .ok (l ++ Path.onward parts) := by
  induction parts generalizing l with
  | nil => exact .inl rfl
  | cons part parts ih =>
    have hl' := hgrown l (List.prefix_append _ _)
    cases hl : m.files.at? l with
    | none =>
      have herror : (part :: parts).foldlM m.files.step l = .error .notFound := by
        rw [List.foldlM_cons, step_of_none hl]
        rfl
      rw [herror]
      rcases foldlM_step_of_missing hm hplain hl hgrown with hok | hmissing
      · refine .inr ⟨rfl, ?_, hok⟩
        by_cases hnil : Path.onward (part :: parts) = []
        · rw [hnil, List.append_nil, hl]
        · exact hm.wellFormed.at?_append (ne_directory_of_none hl) hnil
      · exact .inl hmissing
    | some n =>
      -- What was there is there still, and both paths take the same step.
      rw [GrownAt, hl] at hl'
      have hl' := hl'.resolve_right fun h => Option.some_ne_none _ h.1
      have hstep : m'.files.step l part = m.files.step l part := by
        rw [FileTree.step, FileTree.step, hl, hl']
      rw [List.foldlM_cons, List.foldlM_cons, hstep]
      obtain ⟨hpart, hparts⟩ := List.forall_mem_cons.1 hplain
      cases hj : m.files.step l part with
      | error e => exact .inl rfl
      | ok j =>
        have heq : l ++ Path.onward (part :: parts) = j ++ Path.onward parts := by
          rw [eq_of_step hpart hj, List.append_assoc, ← Path.onward_append]
          rfl
        rw [heq] at hgrown ⊢
        exact ih hparts hgrown

/-! ## Paths that aim at a location -/

/-- A path leads to a directory by way of nothing that is below a location, and from there on by
names to that location. Not all that is on the way needs to be there. -/
def Aims (m : Machine) (p : Path) (l : Location) : Prop :=
  ∃ front start rest, p.parts = front ++ rest ∧ (∀ part ∈ front, '\x00' ∉ part.toList) ∧
    (m.emptied l).files.at? start = some .directory ∧
    front.foldlM (m.emptied l).files.step (m.origin p) = .ok start ∧
    (∀ part ∈ rest, part = "." ∨ IsFileName part) ∧ start ++ Path.onward rest = l

namespace Aims

/-- What happens below the location does not matter. -/
theorem of_agree (h : m.Aims p l) (hcwd : m'.workingDirectory = m.workingDirectory)
    (hagree : ∀ k, ¬ FileTree.isBelow k l → m.files.at? k = some .directory →
      m'.files.at? k = some .directory) : m'.Aims p l := by
  have hkeep := directory_emptied_of_agree hagree
  obtain ⟨front, start, rest, hparts, hfront, hdirectory, hstart, hplain, hl⟩ := h
  refine ⟨front, start, rest, hparts, hfront, hkeep _ hdirectory, foldlM_step_mono hkeep ?_, hplain,
    hl⟩
  rwa [origin, hcwd]

/-- The way of a path, and where it goes on by names. -/
theorem exists_start (h : m.Aims p l) : ∃ front start rest, p.parts = front ++ rest ∧
    (∀ part ∈ front, '\x00' ∉ part.toList) ∧ m.files.at? start = some .directory ∧
    front.foldlM m.files.step (m.origin p) = .ok start ∧
    (∀ part ∈ rest, part = "." ∨ IsFileName part) ∧ start ++ Path.onward rest = l := by
  obtain ⟨front, start, rest, hparts, hfront, hdirectory, hstart, hplain, hl⟩ := h
  exact ⟨front, start, rest, hparts, hfront, at?_of_emptied hdirectory,
    foldlM_step_mono (fun _ => at?_of_emptied) hstart, hplain, hl⟩

theorem eq_of_resolve (h : m.Aims p l) (hresolve : m.resolve p = .ok k) : k = l := by
  obtain ⟨front, start, rest, hparts, hfront, -, hstart, hplain, rfl⟩ := h.exists_start
  rw [resolve_eq_foldlM (isEmpty_of_resolve hresolve) hparts hfront hplain hstart] at hresolve
  exact eq_of_foldlM_step hplain hresolve

/-- The path leads to the directory at its location. -/
theorem enters (h : m.Aims p l) (hm : m.Sound) (hp : p.isEmpty = false)
    (hl : m.files.at? l = some .directory) : m.Enters p l := by
  obtain ⟨front, start, rest, hparts, hfront, -, hstart, hplain, rfl⟩ := h.exists_start
  refine ⟨?_, hl⟩
  rw [resolve_eq_foldlM hp hparts hfront hplain hstart]
  exact foldlM_step_plain hm hplain hl

theorem enters_of_find (h : m.Aims p l) (hfind : m.find p = .ok (k, .directory)) :
    m.Enters p l := by
  obtain ⟨hj, hn⟩ := eq_ok_of_find hfind
  obtain rfl := h.eq_of_resolve hj
  exact ⟨hj, hn⟩

/-- A text that goes down from the location aims at what is below it. -/
theorem join (h : m.Aims p l) {text : String} (htext : Path.Descends text) :
    m.Aims (p.join text) (l ++ Path.onward (Path.partsOf text)) := by
  -- What is not below the location is not below what is in it.
  have hkeep (k : Location) (hk : (m.emptied l).files.at? k = some .directory) :
      (m.emptied (l ++ Path.onward (Path.partsOf text))).files.at? k = some .directory := by
    obtain ⟨houtside, hdirectory⟩ := at?_emptied_eq_some_iff.1 hk
    refine at?_emptied_eq_some_iff.2 ⟨fun hbelow => ?_, hdirectory⟩
    obtain ⟨hle, hlength⟩ := FileTree.isBelow_iff.1 hbelow
    rw [List.length_append] at hlength
    exact houtside (FileTree.isBelow_iff.2 ⟨(List.prefix_append _ _).trans hle, by omega⟩)
  obtain ⟨front, start, rest, hparts, hfront, hdirectory, hstart, hplain, rfl⟩ := h
  have hjoin : p.join text = { p with
      parts := p.parts ++ Path.partsOf text
      slashed := text.isEmpty || Path.endsInSlash text } := by
    rw [Path.join, htext.1]
    rfl
  rw [hjoin]
  refine ⟨front, start, rest ++ Path.partsOf text, ?_, hfront, hkeep _ hdirectory,
    foldlM_step_mono hkeep hstart, List.forall_mem_append.2 ⟨hplain, htext.2⟩, ?_⟩
  · simp only [hparts, List.append_assoc]
  · rw [Path.onward_append, List.append_assoc]

/-- The path of a child is resolved if there is a directory for it. -/
theorem resolve_child (h : m.Aims p l) (hm : m.Sound) (hf : IsFileName f) :
    m.resolve (p.child f) = .ok k ↔ m.files.at? l = some .directory ∧ k = l ++ [f] := by
  obtain ⟨front, start, rest, hparts, hfront, -, hstart, hplain, rfl⟩ := h.exists_start
  have hplain' : ∀ part ∈ rest ++ [f], part = "." ∨ IsFileName part :=
    List.forall_mem_append.2 ⟨hplain, List.forall_mem_singleton.2 (.inr hf)⟩
  have hparts' : (p.child f).parts = front ++ (rest ++ [f]) := by
    rw [Path.child, hparts, List.append_assoc]
  rw [resolve_eq_foldlM (p.isEmpty_child f) hparts' hfront hplain' hstart]
  constructor
  · intro hk
    refine ⟨?_, by rw [eq_of_foldlM_step hplain' hk, Path.onward_append, Path.onward_cons hf.ne_dot,
      ← List.append_assoc]; rfl⟩
    obtain ⟨j, hrest, hlast⟩ := exists_of_foldlM_step_append hk
    obtain ⟨i, hstep, -⟩ := exists_of_foldlM_step_cons hlast
    rw [← eq_of_foldlM_step hplain hrest]
    exact at?_of_step hstep
  · rintro ⟨hd, rfl⟩
    rw [List.foldlM_append, foldlM_step_plain hm hplain hd]
    simp only [Bind.bind, Except.bind, List.foldlM_cons, List.foldlM_nil, step_of_directory hd hf]
    rfl

/-- The path of a child leads to what is there. -/
theorem find_child (h : m.Aims p l) (hm : m.Sound) (hf : IsFileName f) :
    m.find (p.child f) = .ok (k, n) ↔ m.files.at? (l ++ [f]) = some n ∧ k = l ++ [f] := by
  constructor
  · intro hok
    obtain ⟨hj, hn⟩ := eq_ok_of_find hok
    obtain ⟨-, rfl⟩ := (h.resolve_child hm hf).1 hj
    exact ⟨hn, rfl⟩
  · rintro ⟨hn, rfl⟩
    rw [find, (h.resolve_child hm hf).2 ⟨hm.wellFormed.at?_of_child hn, rfl⟩]
    simp only [Bind.bind, Except.bind, hn]
    rfl

theorem find_child_cases (h : m.Aims p l) (hm : m.Sound) (hf : IsFileName f) :
    (∃ e, m.find (p.child f) = .error e ∧ m.files.at? (l ++ [f]) = none) ∨
      ∃ n, m.find (p.child f) = .ok (l ++ [f], n) ∧ m.files.at? (l ++ [f]) = some n := by
  cases hn : m.files.at? (l ++ [f]) with
  | none =>
    cases hfind : m.find (p.child f) with
    | error e => exact .inl ⟨e, rfl, rfl⟩
    | ok x =>
      rw [((h.find_child hm hf).1 hfind).1] at hn
      cases hn
  | some n => exact .inr ⟨n, (h.find_child hm hf).2 ⟨hn, rfl⟩, rfl⟩

/-- What can be made along the path is in a directory on the way to the location. -/
theorem exists_of_along (h : m.Aims p l) (hq : q.Along p) (hresolve : m.resolve q = .ok k)
    (hk : m.files.at? k = none) :
    k <+: l ∧ ∃ d name, k = d ++ [name] ∧ m.files.at? d = some .directory ∧ IsFileName name := by
  obtain ⟨front, start, rest, hparts, hfront, hdirectory, hstart, hplain, rfl⟩ := h.exists_start
  have horigin : m.origin q = m.origin p := by rw [origin, origin, hq.1]
  have hempty := isEmpty_of_resolve hresolve
  have hle := hq.2
  rw [hparts] at hle
  -- The path that is gone along ends before the directory or goes on from it by names.
  rcases List.prefix_or_prefix_of_prefix hle (List.prefix_append front rest) with
    ⟨more, hmore⟩ | ⟨rest', hrest'⟩
  · rw [← hmore] at hfront hstart
    obtain ⟨j, hj, hrest⟩ := exists_of_foldlM_step_append hstart
    rw [resolve_eq_foldlM hempty (List.append_nil _).symm
      (fun part hpart => hfront part (List.mem_append_left _ hpart)) (List.forall_mem_nil _)
      (horigin ▸ hj)] at hresolve
    cases hresolve
    exact absurd (directory_of_foldlM_step hrest hdirectory) (ne_directory_of_none hk)
  · have hrest : rest' <+: rest := by
      rw [← hrest', List.prefix_append_right_inj] at hle
      exact hle
    have hplain' : ∀ part ∈ rest', part = "." ∨ IsFileName part :=
      fun part hpart => hplain part (hrest.subset hpart)
    rw [resolve_eq_foldlM hempty hrest'.symm hfront hplain' (horigin ▸ hstart)] at hresolve
    refine ⟨?_, exists_concat_of_foldlM_step hplain' hresolve hdirectory hk⟩
    obtain ⟨more, rfl⟩ := hrest
    rw [eq_of_foldlM_step hplain' hresolve, Path.onward_append, ← List.append_assoc]
    exact List.prefix_append _ _

/-- A path leads to what it led to before past directories that have come up on its way, or to
nothing before and to such a directory now. -/
theorem find_of_grown (h : m.Aims p l) (hm : m.Sound)
    (hcwd : m'.workingDirectory = m.workingDirectory)
    (hkeep : ∀ k, m.files.at? k = some .directory → ¬ FileTree.isBelow k l →
      m'.files.at? k = some .directory)
    (hgrown : ∀ k, k <+: l → m.GrownAt m' k) :
    m'.find p = m.find p ∨
      m.find p = .error .notFound ∧ m.files.at? l ≠ some .directory ∧ m'.Enters p l := by
  have hmissing (hl : m.files.at? l = none) (hfind : m.find p = .error .notFound)
      (hresolve : m'.resolve p = .ok l) : m'.find p = m.find p ∨
        m.find p = .error .notFound ∧ m.files.at? l ≠ some .directory ∧ m'.Enters p l := by
    rcases hgrown l (List.prefix_refl _) with hl' | ⟨-, hl'⟩
    · exact .inl ((find_of_none hresolve (hl'.trans hl)).trans hfind.symm)
    · exact .inr ⟨hfind, ne_directory_of_none hl, hresolve, hl'⟩
  by_cases hempty : p.isEmpty = true
  · refine .inl ?_
    simp only [find, resolve, FileTree.resolve, hempty, if_true]
    split <;> rfl
  rw [Bool.not_eq_true] at hempty
  obtain ⟨front, start, rest, hparts, hfront, hdirectory, hstart, hplain, rfl⟩ := h
  have hkeep' (k : Location) (hk : (m.emptied (start ++ Path.onward rest)).files.at? k =
      some .directory) : m'.files.at? k = some .directory := by
    obtain ⟨houtside, hdirectory⟩ := at?_emptied_eq_some_iff.1 hk
    exact hkeep k hdirectory houtside
  have hstart₀ : front.foldlM m.files.step (m.origin p) = .ok start :=
    foldlM_step_mono (fun _ => at?_of_emptied) hstart
  have hstart' : front.foldlM m'.files.step (m'.origin p) = .ok start := by
    rw [origin, hcwd]
    exact foldlM_step_mono hkeep' hstart
  have hresolve := resolve_eq_foldlM hempty hparts hfront hplain hstart₀
  have hresolve' := resolve_eq_foldlM hempty hparts hfront hplain hstart'
  rcases foldlM_step_of_grown hm hplain hgrown with heq | ⟨herror, hl, hok⟩
  · rw [heq, ← hresolve] at hresolve'
    -- The path leads where it has led to before, but a directory may have come up right there.
    by_cases hvacant : m.resolve p = .ok (start ++ Path.onward rest) ∧
        m.files.at? (start ++ Path.onward rest) = none
    · obtain ⟨hthere, hl⟩ := hvacant
      exact hmissing hl (find_of_none hthere hl) (hresolve'.trans hthere)
    · refine .inl (find_congr hresolve' fun k hk => ?_)
      obtain rfl := eq_of_foldlM_step hplain (hresolve.symm.trans hk)
      exact (hgrown _ (List.prefix_refl _)).resolve_right fun hl => hvacant ⟨hk, hl.1⟩
  · exact hmissing hl (find_of_error (hresolve.trans herror)) (hresolve'.trans hok)

end Aims

end Machine

end ClusterKeeper
