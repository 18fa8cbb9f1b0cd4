/-
# Programs that are stopped

A program may be stopped between any two of its requests, and in the middle of a write. What is then
on the machine is found by going through the program once: a condition on the record and the machine
that holds at first and that every request keeps holds wherever the program is stopped.
-/

import ClusterKeeper.Proofs.Files.Faults

namespace ClusterKeeper

open FileTree (IsFileName ne_directory_of_none ne_directory_of_file)

variable {α β : Type} {m m' : Machine} {p q : Path} {d l : Location} {f g : String}

/-! ## Stopping -/

/-- A request to fill a file. -/
def FileRequest.isWrite : FileRequest → Bool
  | .write _ _ => true
  | _ => false

theorem FileRequest.isWrite_of_isLook {r : FileRequest} (h : r.isLook = true) :
    r.isWrite = false := by
  cases r <;> first | rfl | cases h

/-- What a request may leave behind in whose middle the program is stopped: of a write anything. -/
inductive Machine.Torn (m : Machine) : FileRequest → Machine → Prop
  | write (id : FileId) (text : String) (left : Content) (t : Moment) :
    Torn m (.write id text) { m with files := m.files.fill id left t }

namespace FileDialogue

open Machine (respond)

/-- The program is stopped behind some requests that were served at any times. -/
inductive Stopped : FileDialogue α → Machine → List FileExchange → Machine → Prop
  | here (c : FileDialogue α) (m : Machine) : Stopped c m [] m
  | torn {r : FileRequest} {next : r.Answer → FileDialogue α} {m m' : Machine}
    (h : m.Torn r m') : Stopped (Dialogue.ask r next) m [] m'
  | served {r : FileRequest} {next : r.Answer → FileDialogue α} {m : Machine}
    {log : List FileExchange} {m' : Machine} (t : Moment)
    (h : Stopped (next (respond r (m.atTime t)).1) (respond r (m.atTime t)).2 log m') :
    Stopped (Dialogue.ask r next) m (⟨r, (respond r (m.atTime t)).1⟩ :: log) m'

/-- The program comes to its end, every request being served at any time. -/
inductive Finished : FileDialogue α → Machine → α → Machine → Prop
  | done (x : α) (m : Machine) : Finished (Dialogue.done x) m x m
  | served {r : FileRequest} {next : r.Answer → FileDialogue α} {m : Machine} {x : α}
    {m' : Machine} (t : Moment)
    (h : Finished (next (respond r (m.atTime t)).1) (respond r (m.atTime t)).2 x m') :
    Finished (Dialogue.ask r next) m x m'

/-- A run is one way to the end. -/
theorem finished_of_run {c : FileDialogue α} {x : α} (h : m.run c = (some x, m')) :
    c.Finished m x m' := by
  induction c generalizing m with
  | done y =>
    cases h
    exact .done _ _
  | brokenOff => cases h
  | ask r next ih => exact .served m.today (ih _ h)

/-- To come to the end, with whatever result, is to be stopped there. -/
theorem Finished.stopped {c : FileDialogue α} {x : α} (h : c.Finished m x m') :
    ∃ log, c.Stopped m log m' := by
  induction h with
  | done x m => exact ⟨[], .here _ m⟩
  | served t _ ih =>
    obtain ⟨log, hstopped⟩ := ih
    exact ⟨_, .served t hstopped⟩

/-- The record and the machine when a number of requests have been served at one time. -/
def advance (t : Moment) : Nat → FileDialogue α → Machine → List FileExchange × Machine
  | n + 1, Dialogue.ask r next, m =>
    let (answer, m) := respond r (m.atTime t)
    let (log, m) := advance t n (next answer) m
    (⟨r, answer⟩ :: log, m)
  | _, _, m => ([], m)

theorem stopped_advance (t : Moment) (n : Nat) (c : FileDialogue α) (m : Machine) :
    c.Stopped m (c.advance t n m).1 (c.advance t n m).2 := by
  induction n generalizing c m with
  | zero => exact .here c m
  | succ n ih =>
    cases c with
    | done x => exact .here _ m
    | brokenOff => exact .here _ m
    | ask r next => exact .served t (ih _ _)

/-! ## What holds throughout -/

/-- A condition on the record and the machine holds wherever the program is stopped, and another on
its result where it ends. -/
def Throughout (I : List FileExchange → Machine → Prop)
    (R : α → List FileExchange → Machine → Prop) :
    FileDialogue α → List FileExchange → Machine → Prop
  | .done x, log, m => I log m ∧ R x log m
  | .brokenOff, log, m => I log m
  -- Before a request, in its middle, and then wherever its answer leads, whenever it was given.
  | Dialogue.ask r next, log, m => I log m ∧ (∀ m', m.Torn r m' → I log m') ∧
    ∀ t, Throughout I R (next (respond r (m.atTime t)).1)
      (log ++ [⟨r, (respond r (m.atTime t)).1⟩]) (respond r (m.atTime t)).2

namespace Throughout

variable {I J : List FileExchange → Machine → Prop} {c : FileDialogue α}
variable {R S : α → List FileExchange → Machine → Prop} {log log' : List FileExchange}

theorem now (h : Throughout I R c log m) : I log m := by
  cases c with
  | done x => exact h.1
  | brokenOff => exact h
  | ask r next => exact h.1

theorem of_stopped (h : Throughout I R c log m) (hc : c.Stopped m log' m') :
    I (log ++ log') m' := by
  induction hc generalizing log with
  | here c m =>
    rw [List.append_nil]
    exact h.now
  | torn htorn =>
    rw [List.append_nil]
    exact h.2.1 _ htorn
  | served t hrest ih =>
    -- What was served before is the beginning of the record.
    rw [List.append_cons]
    exact ih (h.2.2 t)

theorem of_finished {x : α} (h : Throughout I R c log m) (hc : c.Finished m x m') :
    ∃ log', R x log' m' := by
  induction hc generalizing log with
  | done x m => exact ⟨log, h.2⟩
  | served t hrest ih => exact ih (h.2.2 t)

theorem imp (h : Throughout I R c log m) (hI : ∀ log m, I log m → J log m)
    (hR : ∀ x log m, R x log m → S x log m) : Throughout J S c log m := by
  induction c generalizing log m with
  | done x => exact ⟨hI _ _ h.1, hR _ _ _ h.2⟩
  | brokenOff => exact hI _ _ h
  | ask r next ih =>
    obtain ⟨hnow, htorn, hserved⟩ := h
    exact ⟨hI _ _ hnow, fun m' h => hI _ _ (htorn m' h), fun t => ih _ (hserved t)⟩

/-- What a program comes to may be known from elsewhere. -/
theorem and_yields {P : α → Prop} (h : Throughout I R c log m) (hc : c.Yields P) :
    Throughout I (fun x log m => R x log m ∧ P x) c log m := by
  induction c generalizing log m with
  | done x => exact ⟨h.1, h.2, hc (.done x)⟩
  | brokenOff => exact h
  | ask r next ih =>
    obtain ⟨hnow, htorn, hserved⟩ := h
    exact ⟨hnow, htorn, fun t => ih _ (hserved t) fun _ _ hends => hc (.ask hends)⟩

/-- The second program is stopped only where the first one has ended. -/
theorem bind {g : α → FileDialogue β} {S : β → List FileExchange → Machine → Prop}
    (h : Throughout I (fun x => Throughout I S (g x)) c log m) :
    Throughout I S (c >>= g) log m := by
  rw [Dialogue.bind_eq_bind]
  induction c generalizing log m with
  | done x =>
    -- Here the condition on the result says how the second program goes on.
    exact h.2
  | brokenOff => exact h
  | ask r next ih =>
    obtain ⟨hnow, htorn, hserved⟩ := h
    exact ⟨hnow, htorn, fun t => ih _ (hserved t)⟩

theorem mono (h : Throughout I R c log m) (hR : ∀ x log m, R x log m → S x log m) :
    Throughout I S c log m := h.imp (fun _ _ hI => hI) hR

/-- The second program is looked at where the condition on the result of the first one holds. -/
theorem seq {g : α → FileDialogue β} {S : β → List FileExchange → Machine → Prop}
    (h : Throughout I R c log m) (hg : ∀ x log m, R x log m → Throughout I S (g x) log m) :
    Throughout I S (c >>= g) log m := bind (h.mono hg)

theorem pure {x : α} (hI : I log m) (hR : R x log m) : Throughout I R (pure x) log m := ⟨hI, hR⟩

end Throughout

section Ask

variable {I : List FileExchange → Machine → Prop} {log : List FileExchange} {r : FileRequest}
variable {R : r.Answer → List FileExchange → Machine → Prop}

/-- A request other than a write is served or not made at all. -/
theorem throughout_ask (hr : r.isWrite = false) (hnow : I log m)
    (hserved : ∀ t, I (log ++ [⟨r, (respond r (m.atTime t)).1⟩]) (respond r (m.atTime t)).2 ∧
      R (respond r (m.atTime t)).1 (log ++ [⟨r, (respond r (m.atTime t)).1⟩])
        (respond r (m.atTime t)).2) :
    Throughout I R (ask r) log m := by
  refine ⟨hnow, fun m' htorn => ?_, hserved⟩
  -- Only a write can be torn.
  cases htorn
  cases hr

/-- Of a write anything may be left behind, until it has been served. -/
theorem throughout_write {id : FileId} {text : String}
    {R : Except FileFault Unit → List FileExchange → Machine → Prop} (hnow : I log m)
    (htorn : ∀ left t, I log { m with files := m.files.fill id left t })
    (hserved : ∀ t, I (log ++ [⟨.write id text, .ok ()⟩])
        { m.atTime t with files := m.files.fill id (.text text) t } ∧
      R (.ok ()) (log ++ [⟨.write id text, .ok ()⟩])
        { m.atTime t with files := m.files.fill id (.text text) t }) :
    Throughout I R (ask (.write id text)) log m := by
  refine ⟨hnow, fun m' h => ?_, hserved⟩
  cases h with
  | write id text left t => exact htorn left t

end Ask

/-- One condition where something succeeded, and another one where it failed. -/
def OnOutcome {ε : Type} (D K : List FileExchange → Machine → Prop) :
    Except ε α → List FileExchange → Machine → Prop
  | .ok _ => D
  | .error _ => K

/-! ## Conditions that a program keeps -/

/-- The program keeps a condition on the record and the machine with every request. -/
def Minds (K : List FileExchange → Machine → Prop) (c : FileDialogue α) : Prop :=
  ∀ log m, K log m → Throughout K (fun _ => K) c log m

variable {K : List FileExchange → Machine → Prop}

theorem minds_pure (x : α) : Minds K (pure x : FileDialogue α) := fun _ _ h => ⟨h, h⟩

theorem Minds.bind {c : FileDialogue α} {g : α → FileDialogue β} (hc : Minds K c)
    (hg : ∀ x, Minds K (g x)) : Minds K (c >>= g) := fun log m h =>
  (hc log m h).seq fun x log m => hg x log m

theorem closed_minds : Dialogue.Closed fun {α : Type} (c : FileDialogue α) => Minds K c where
  pure := minds_pure
  brokenOff _ _ h := h
  bind := Minds.bind

theorem minds_ask {r : FileRequest} (hr : r.isWrite = false)
    (hserved : ∀ log m t, K log m →
      K (log ++ [⟨r, (respond r (m.atTime t)).1⟩]) (respond r (m.atTime t)).2) :
    Minds K (ask r) := fun log m h =>
  throughout_ask hr h fun t => ⟨hserved log m t h, hserved log m t h⟩

theorem minds_write {id : FileId} {text : String}
    (h : ∀ log m (t : Moment) left t', K log m →
      K log { m with files := m.files.fill id left t' } ∧
      K (log ++ [⟨.write id text, .ok ()⟩])
        { m.atTime t with files := m.files.fill id left t' }) :
    Minds K (ask (.write id text)) := fun log m hK =>
  throughout_write hK (fun left t => (h log m t left t hK).1)
    fun t => ⟨(h log m t (.text text) t hK).2, (h log m t (.text text) t hK).2⟩

end FileDialogue

/-! ## Paths of files -/

/-- Every part of the path is one that a slash may end. -/
def Path.Proper (p : Path) : Prop := ∀ part ∈ p.parts, part ≠ "" ∧ '/' ∉ part.toList

namespace Path

theorem proper_partsOf (text : String) : ∀ part ∈ partsOf text, part ≠ "" ∧ '/' ∉ part.toList := by
  -- By induction on the characters: each of them is a slash or goes to the part behind it.
  have hsplit (cs : List Char) : ∀ part ∈ splitSlashes cs, '/' ∉ part := by
    induction cs with
    | nil => simp [splitSlashes]
    | cons c cs ih =>
      rw [splitSlashes]
      split
      · exact List.forall_mem_cons.2 ⟨by simp, ih⟩
      · next hc =>
        split
        · exact List.forall_mem_singleton.2 (by simpa using Ne.symm hc)
        · next part parts heq =>
          rw [heq] at ih
          obtain ⟨hpart, hparts⟩ := List.forall_mem_cons.1 ih
          refine List.forall_mem_cons.2 ⟨fun hmem => ?_, hparts⟩
          rcases List.mem_cons.1 hmem with heq | hmem
          · exact hc heq.symm
          · exact hpart hmem
  intro part hpart
  obtain ⟨cs, hcs, rfl⟩ := List.mem_map.1 hpart
  obtain ⟨hmem, hne⟩ := List.mem_filter.1 hcs
  refine ⟨fun hempty => ?_, ?_⟩
  · rw [String.ofList_eq_empty_iff] at hempty
    rw [hempty] at hne
    cases hne
  · rw [String.toList_ofList]
    exact hsplit _ _ hmem

theorem proper_ofText (text : String) : (ofText text).Proper := proper_partsOf text

theorem Proper.join (h : p.Proper) (text : String) : (p.join text).Proper := by
  rw [Path.join]
  split
  · exact proper_ofText text
  · exact List.forall_mem_append.2 ⟨h, proper_partsOf text⟩

theorem Proper.along (h : p.Proper) (hq : q.Along p) : q.Proper :=
  fun part hpart => h part (hq.2.subset hpart)

end Path

namespace Machine

/-- Where a path of a child leads anywhere, the names behind the path are those in a directory. -/
theorem opens_of_resolve (hf : IsFileName f) (h : m.resolve (p.child f) = .ok l) :
    ∃ d, m.Opens p d ∧ l = d ++ [f] := by
  have hchild {f : String} (hf : IsFileName f) : m.resolve (p.child f) =
      if p.parts.any (fun part => part.toList.contains '\x00') then .error .badName
      else (p.parts.foldlM m.files.step (m.origin p)).bind (m.files.step · f) := by
    have hnull : f.toList.contains '\x00' = false := by
      rw [Bool.eq_false_iff, ne_eq, List.contains_iff_mem]
      exact hf.noNull
    rw [resolve, FileTree.resolve, Path.isEmpty_child]
    simp only [Path.child, List.any_append, List.any_cons, List.any_nil, hnull, Bool.or_false,
      List.foldlM_append, List.foldlM_cons, List.foldlM_nil, bind_pure]
    rfl
  -- All names behind the path are resolved alike, up to the last step.
  rw [hchild hf] at h
  split at h
  · cases h
  · next hnull =>
    obtain ⟨d, hd, hstep⟩ := exists_ok_of_bind h
    have hdirectory := at?_of_step hstep
    refine ⟨d, ⟨fun hg => ?_, hdirectory⟩, ?_⟩
    · rw [hchild hg, if_neg hnull, hd]
      exact step_of_directory hdirectory hg
    · exact Except.ok.inj (hstep.symm.trans (step_of_directory hdirectory hf))

/-- Everything along a path behind which there are names is there. -/
theorem Opens.at?_of_along (h : m.Opens p d) (hf : IsFileName f) (hq : q.Along p)
    (hresolve : m.resolve q = .ok l) : m.files.at? l = some .directory := by
  have hchild := h.resolve_child hf
  rw [resolve, FileTree.resolve] at hresolve hchild
  split at hresolve
  · cases hresolve
  split at hresolve
  · cases hresolve
  split at hchild
  · cases hchild
  split at hchild
  · cases hchild
  -- The path with a name behind it goes on from where the shorter one leads.
  obtain ⟨rest, hrest⟩ := hq.2
  rw [hq.1] at hresolve
  rw [Path.child, ← hrest, List.append_assoc] at hchild
  obtain ⟨k, hk, hback⟩ := exists_of_foldlM_step_append hchild
  obtain rfl := Except.ok.inj (hresolve.symm.trans hk)
  rcases rest with _ | ⟨part, rest⟩
  all_goals
    obtain ⟨j, hstep, -⟩ := exists_of_foldlM_step_cons hback
    exact at?_of_step hstep

namespace Sound

theorem atTime (hm : m.Sound) (t : Moment) : (m.atTime t).Sound :=
  ⟨hm.wellFormed, hm.fresh, hm.quiet⟩

/-- What a proper path leads to and is not there could be there. -/
theorem exists_name_of_resolve (hm : m.Sound) (hp : p.Proper) (h : m.resolve p = .ok l)
    (hl : m.files.at? l = none) :
    ∃ d name, l = d ++ [name] ∧ m.files.at? d = some .directory ∧ IsFileName name := by
  rw [resolve, FileTree.resolve] at h
  split at h
  · cases h
  next hnull =>
  split at h
  · cases h
  next hempty =>
  -- It is the last part of the path that leads to where nothing is.
  rcases List.eq_nil_or_concat p.parts with hparts | ⟨front, part, hparts⟩
  · have habsolute : p.absolute = true := by
      rw [Path.isEmpty, hparts] at hempty
      simpa using hempty
    rw [hparts, habsolute] at h
    cases h
    cases hl
  rw [List.concat_eq_append] at hparts
  rw [hparts] at h
  obtain ⟨d, -, hlast⟩ := exists_of_foldlM_step_append h
  obtain ⟨k, hstep, hk⟩ := exists_of_foldlM_step_cons hlast
  cases hk
  have hd := at?_of_step hstep
  have hmem : part ∈ p.parts := hparts ▸ List.mem_append_right _ List.mem_cons_self
  rw [FileTree.step, hd] at hstep
  simp only at hstep
  split at hstep
  · cases hstep
    exact absurd hd (ne_directory_of_none hl)
  next hdot =>
  split at hstep
  · -- What is above a directory is there.
    cases hstep
    refine absurd ?_ (ne_directory_of_none hl)
    rcases List.eq_nil_or_concat d with rfl | ⟨e, name, rfl⟩
    · exact hd
    · rw [List.concat_eq_append] at hd ⊢
      rw [List.dropLast_concat]
      exact hm.wellFormed.at?_of_child hd
  next hdots =>
  split at hstep
  · cases hstep
  next hshort =>
  cases hstep
  refine ⟨d, part, rfl, hd, (hp part hmem).1, (hp part hmem).2, fun hnul => hnull ?_, hdot, hdots,
    Nat.not_lt.1 hshort⟩
  exact List.any_eq_true.2 ⟨part, hmem, List.contains_iff_mem.2 hnul⟩

theorem respond_makeDirectory (hm : m.Sound) (hp : p.Proper) :
    (respond (.makeDirectory p) m).2.Sound := by
  rw [respond]
  cases hok : m.makeDirectory p with
  | error e => exact hm
  | ok m' =>
    obtain ⟨l, hl, hnone, rfl⟩ := eq_ok_of_makeDirectory hok
    obtain ⟨d, name, rfl, hd, hname⟩ := hm.exists_name_of_resolve hp hl hnone
    exact hm.addDirectory hd hname (ne_directory_of_none hnone)

theorem respond_createNew (hm : m.Sound) (hf : IsFileName f) :
    (respond (.createNew (p.child f)) m).2.Sound := by
  rw [respond]
  cases hok : m.createNew (p.child f) with
  | error e => exact hm
  | ok x =>
    obtain ⟨l, hl, hnone, -, hm'⟩ := eq_ok_of_createNew hok
    obtain ⟨d, hopens, rfl⟩ := opens_of_resolve hf hl
    simp only [outcome, hm']
    exact hm.addEmpty hopens.directory hf (ne_directory_of_none hnone)

/-- A file that is opened to be written is there. -/
theorem createEmpty (hm : m.Sound) (hf : IsFileName f) {id : FileId}
    (hok : m.createEmpty (p.child f) = .ok (id, m')) :
    m'.Sound ∧ ∃ d, m'.Opens p d ∧
      m'.files.at? (d ++ [f]) = some (.file id (.text "") m.today) := by
  obtain ⟨l, hl, hne, hcwd, hfiles, -⟩ := eq_insert_of_createEmpty hok
  obtain ⟨d, hopens, rfl⟩ := opens_of_resolve hf hl
  have hat (k : Location) : m'.files.at? k = _ :=
    hfiles ▸ FileTree.at?_insert (List.concat_ne_nil f d) k
  refine ⟨hm.of_createEmpty hok hl hopens.directory hf, d, hopens.mono hcwd fun k hk => ?_,
    (hat _).trans (if_pos rfl)⟩
  rw [hat, if_neg, hk]
  rintro rfl
  exact hne hk

theorem respond_createEmpty (hm : m.Sound) (hf : IsFileName f) :
    (respond (.createEmpty (p.child f)) m).2.Sound := by
  rw [respond]
  cases hok : m.createEmpty (p.child f) with
  | error e => exact hm
  | ok x => exact (hm.createEmpty hf hok).1

theorem respond_removeFile (hm : m.Sound) (p : Path) : (respond (.removeFile p) m).2.Sound := by
  rw [respond]
  cases hok : m.removeFile p with
  | error e => exact hm
  | ok m' =>
    obtain ⟨l, id, content, modified, hfind, rfl⟩ := eq_ok_of_removeFile hok
    exact hm.remove (eq_ok_of_find hfind).2

theorem respond_rename (hm : m.Sound) (hf : IsFileName f) (hg : IsFileName g) (hne : f ≠ g) :
    (respond (.rename (p.child f) (p.child g)) m).2.Sound := by
  rw [respond]
  cases hok : m.rename (p.child f) (p.child g) with
  | error e => exact hm
  | ok m' =>
    obtain ⟨l, n, k, hfind, hk, rfl, hempty⟩ := eq_ok_of_rename hok
    obtain ⟨d, hopens, rfl⟩ := opens_of_resolve hf (eq_ok_of_find hfind).1
    obtain rfl := Except.ok.inj (hk.symm.trans (hopens.resolve_child hg))
    exact hm.shift (by simp) hopens.directory hg (at?_child_of_rename hm.wellFormed hempty)
      (FileTree.not_prefix_of_ne d hne)

theorem respond_wait (hm : m.Sound) (t : Duration) : (respond (.wait t) m).2.Sound :=
  (sameApart_wait (d := []) (S := fun _ => False) hm t).sound

end Sound

end Machine

end ClusterKeeper
