/-
# What is where in a file tree

The effect of every change to a file tree on what is at a location, and the trees in which each
file and directory is in a directory and has a name that a path can lead to.
-/

import ClusterKeeper.Files.Tree

namespace ClusterKeeper

variable {α β κ : Type}

/-! ## Looking up what is left of a map -/

namespace SortedMap

variable [Ord κ] [Std.TransOrd κ] [Std.LawfulEqOrd κ]

theorem find?_filter_eq_some {p : κ → α → Bool} {m : SortedMap κ α} {key : κ} {value : α} :
    (m.filter p).find? key = some value ↔ m.find? key = some value ∧ p key value = true := by
  rw [find?_eq_some_iff, find?_eq_some_iff, filter, List.mem_filter]

omit [Std.TransOrd κ] [Std.LawfulEqOrd κ] in
/-- There is nothing to take out at a key that is not bound. -/
theorem erase_of_not_bound {m : SortedMap κ α} {key : κ} (h : m.find? key = none) :
    m.erase key = m := by
  rw [find?, Option.map_eq_none_iff, List.find?_eq_none] at h
  refine SortedMap.ext (List.filter_eq_self.2 fun e he => ?_)
  simpa using h e he

omit [Std.TransOrd κ] [Std.LawfulEqOrd κ] in
theorem find?_map (f : α → β) (m : SortedMap κ α) (key : κ) :
    (m.map f).find? key = (m.find? key).map f := by
  rw [find?, find?, map, List.find?_map, Option.map_map, Option.map_map]
  rfl

theorem mem_keys_iff {m : SortedMap κ α} {key : κ} : key ∈ m.keys ↔ (m.find? key).isSome := by
  simp only [keys, List.mem_map, Option.isSome_iff_exists, find?_eq_some_iff, Prod.exists]
  constructor
  · rintro ⟨_, value, h, rfl⟩
    exact ⟨value, h⟩
  · rintro ⟨value, h⟩
    exact ⟨key, value, h, rfl⟩

/-- Entries with different keys are all found behind what a map held before. -/
theorem find?_foldl_insert [DecidableEq κ] {es : List (κ × α)} (h : (es.map (·.1)).Nodup)
    (m : SortedMap κ α) {key : κ} {value : α} :
    (es.foldl (fun m e => m.insert e.1 e.2) m).find? key = some value ↔
      (key, value) ∈ es ∨ key ∉ es.map (·.1) ∧ m.find? key = some value := by
  induction es generalizing m with
  | nil => simp
  | cons e es ih =>
    obtain ⟨hfirst, hrest⟩ := List.nodup_cons.1 h
    rw [List.foldl_cons, ih hrest, find?_insert, List.map_cons, List.mem_cons, List.mem_cons]
    by_cases hkey : key = e.1
    · subst hkey
      have hmem : (e.1, value) ∉ es := fun he => hfirst (List.mem_map.2 ⟨_, he, rfl⟩)
      simp [hfirst, hmem, Prod.ext_iff, eq_comm]
    · simp [hkey, Prod.ext_iff]

end SortedMap

namespace FileTree

variable {t : FileTree} {d k l : Location} {n : FileNode} {name : String}

/-! ## What is at a location -/

theorem ne_directory_of_none {o : Option FileNode} (h : o = none) : o ≠ some .directory :=
  Option.eq_none_iff_forall_ne_some.1 h _

theorem ne_directory_of_file {o : Option FileNode} {id : FileId} {content : Content}
    {modified : Moment} (h : o = some (.file id content modified)) : o ≠ some .directory := by
  rintro hd
  cases h.symm.trans hd

@[simp] theorem at?_nil (t : FileTree) : t.at? [] = some .directory := rfl

theorem at?_of_ne_nil (h : l ≠ []) : t.at? l = t.find? l :=
  if_neg fun he => h (List.isEmpty_iff.1 he)

theorem at?_insert (h : l ≠ []) (k : Location) :
    FileTree.at? (t.insert l n) k = if k = l then some n else t.at? k := by
  by_cases hk : k = []
  · subst hk
    rw [at?_nil, at?_nil, if_neg (Ne.symm h)]
  · rw [at?_of_ne_nil hk, at?_of_ne_nil hk, SortedMap.find?_insert]

theorem at?_erase (h : l ≠ []) (k : Location) :
    FileTree.at? (t.erase l) k = if k = l then none else t.at? k := by
  by_cases hk : k = []
  · subst hk
    rw [at?_nil, at?_nil, if_neg (Ne.symm h)]
  · rw [at?_of_ne_nil hk, at?_of_ne_nil hk, SortedMap.find?_erase]

theorem isBelow_iff : isBelow l d = true ↔ d <+: l ∧ d.length < l.length := by
  rw [isBelow, Bool.and_eq_true, List.isPrefixOf_iff_prefix, decide_eq_true_iff]

/-- No file is on the way to another one beside it. -/
theorem not_prefix_of_ne (d : Location) {f g : String} (h : f ≠ g) :
    ¬ d ++ [f] <+: d ++ [g] := by
  rw [List.prefix_append_right_inj]
  simpa using h

theorem find?_clear (t : FileTree) (d k : Location) :
    (t.clear d).find? k = if isBelow k d then none else t.find? k := by
  ext n
  rw [clear, SortedMap.find?_filter_eq_some]
  cases isBelow k d <;> simp

theorem at?_clear (t : FileTree) (d k : Location) :
    (t.clear d).at? k = if isBelow k d then none else t.at? k := by
  by_cases hk : k = []
  · subst hk
    have hbelow : isBelow [] d = false :=
      Bool.eq_false_iff.2 fun h => Nat.not_lt_zero _ (isBelow_iff.1 h).2
    rw [at?_nil, at?_nil, hbelow]
    rfl
  · rw [at?_of_ne_nil hk, at?_of_ne_nil hk, find?_clear]

theorem at?_fill (t : FileTree) (id : FileId) (content : Content) (now : Moment) (k : Location) :
    (t.fill id content now).at? k = (t.at? k).map fun
      | .file i c m => if i = id then .file i content now else .file i c m
      | .directory => .directory := by
  by_cases hk : k = []
  · subst hk
    rfl
  · rw [at?_of_ne_nil hk, at?_of_ne_nil hk]
    exact SortedMap.find?_map _ _ _

theorem at?_fill_file {id : FileId} {content : Content} {modified : Moment}
    (h : t.at? k = some (.file id content modified)) (left : Content) (now : Moment) :
    (t.fill id left now).at? k = some (.file id left now) := by
  rw [at?_fill, h]
  simp only [Option.map_some, if_true]

/-- Where there is no file of an identity, nothing is filled. -/
theorem at?_fill_of_ne {id : FileId}
    (h : ∀ content modified, t.at? k ≠ some (.file id content modified)) (left : Content)
    (now : Moment) : (t.fill id left now).at? k = t.at? k := by
  rw [at?_fill]
  rcases hn : t.at? k with _ | (⟨i, content, modified⟩ | _)
  · rfl
  · have hne : i ≠ id := by
      rintro rfl
      exact h _ _ hn
    simp only [Option.map_some, if_neg hne]
  · rfl

/-- The entries that a move puts in their new places. -/
def moved (t : FileTree) (source target : Location) : List (Location × FileNode) :=
  t.entries.filterMap fun (l, n) =>
    if source.isPrefixOf l then some (target ++ l.drop source.length, n) else none

theorem mem_moved {source target : Location} : (k, n) ∈ t.moved source target ↔
    target <+: k ∧ t.find? (source ++ k.drop target.length) = some n := by
  simp only [moved, List.mem_filterMap, Option.ite_none_right_eq_some, Option.some.injEq,
    Prod.mk.injEq, List.isPrefixOf_iff_prefix, SortedMap.find?_eq_some_iff, Prod.exists]
  constructor
  · rintro ⟨l, n, hl, ⟨rest, rfl⟩, rfl, rfl⟩
    rw [List.drop_left, List.drop_left]
    exact ⟨List.prefix_append _ _, hl⟩
  · rintro ⟨⟨rest, rfl⟩, hl⟩
    rw [List.drop_left] at hl
    exact ⟨_, n, hl, List.prefix_append _ _, by rw [List.drop_left], rfl⟩

theorem nodup_moved (t : FileTree) (source target : Location) :
    ((t.moved source target).map (·.1)).Nodup := by
  rw [List.nodup_iff_pairwise_ne, List.pairwise_map, moved, List.pairwise_filterMap]
  refine t.sorted.imp ?_
  rintro ⟨k, n⟩ ⟨l, o⟩ hlt e he e' he' heq
  simp only [Option.ite_none_right_eq_some, List.isPrefixOf_iff_prefix, Option.some.injEq] at he he'
  obtain ⟨⟨k, rfl⟩, rfl⟩ := he
  obtain ⟨⟨l, rfl⟩, rfl⟩ := he'
  simp only [List.drop_left, List.append_cancel_left_eq] at heq
  subst heq
  simp at hlt

/-- Behind a move the target leads to what the source led to before, and the source to nothing. -/
theorem find?_move (source target k : Location) :
    (t.move source target).find? k =
      (if target <+: k then t.find? (source ++ k.drop target.length) else none).or
        (if source <+: k ∨ k = target then none else t.find? k) := by
  -- First what stays where it is, then what is put in the new place on top of that.
  have hkept : ((((t.clear source).erase source).erase target).find? k) =
      if source <+: k ∨ k = target then none else t.find? k := by
    rw [SortedMap.find?_erase, SortedMap.find?_erase, find?_clear]
    by_cases htarget : k = target
    · simp [htarget]
    by_cases hsource : k = source
    · simp [hsource]
    have hbelow : isBelow k source = true ↔ source <+: k := by
      rw [isBelow_iff, and_iff_left_iff_imp]
      exact fun h => Nat.lt_of_le_of_ne h.length_le fun he => hsource (h.eq_of_length he).symm
    simp only [htarget, hsource, hbelow, or_false, if_false]
  have hmem : k ∉ (t.moved source target).map (·.1) ↔
      (if target <+: k then t.find? (source ++ k.drop target.length) else none) = none := by
    simp [List.mem_map, mem_moved, Option.eq_none_iff_forall_ne_some]
  ext n
  rw [move, ← moved, SortedMap.find?_foldl_insert (nodup_moved t source target), hkept, mem_moved,
    Option.or_eq_some_iff, hmem]
  by_cases htarget : target <+: k <;> simp [htarget]

theorem at?_move {source target : Location} (hs : source ≠ []) (ht : target ≠ []) (k : Location) :
    (t.move source target).at? k =
      (if target <+: k then t.find? (source ++ k.drop target.length) else none).or
        (if source <+: k ∨ k = target then none else t.at? k) := by
  by_cases hk : k = []
  · subst hk
    simp [ht, hs, Ne.symm ht]
  · rw [at?_of_ne_nil hk, at?_of_ne_nil hk, find?_move]

/-! ## The names in a directory -/

/-- A location that is one name below a directory. -/
theorem child_iff : (isBelow l d && l.length == d.length + 1) = true ∧ l.getLast? = some name ↔
    l = d ++ [name] := by
  rw [Bool.and_eq_true, isBelow_iff, beq_iff_eq]
  constructor
  · rintro ⟨⟨⟨⟨rest, rfl⟩, -⟩, hlength⟩, hlast⟩
    rw [List.length_append, Nat.add_left_cancel_iff] at hlength
    obtain ⟨part, rfl⟩ := List.length_eq_one_iff.1 hlength
    rw [List.getLast?_concat] at hlast
    cases hlast
    rfl
  · rintro rfl
    simp

theorem mem_names : name ∈ t.names d ↔ ∃ n, t.find? (d ++ [name]) = some n := by
  simp only [names, List.mem_filterMap, Option.ite_none_right_eq_some, child_iff,
    SortedMap.find?_eq_some_iff, SortedMap.keys, List.mem_map, Prod.exists]
  constructor
  · rintro ⟨_, ⟨l, n, hl, rfl⟩, rfl⟩
    exact ⟨n, hl⟩
  · rintro ⟨n, hl⟩
    exact ⟨_, ⟨_, n, hl, rfl⟩, rfl⟩

theorem nodup_names (t : FileTree) (d : Location) : (t.names d).Nodup := by
  rw [List.nodup_iff_pairwise_ne, names, List.pairwise_filterMap, SortedMap.keys,
    List.pairwise_map]
  refine t.sorted.imp fun {a b} hlt name hname name' hname' heq => ?_
  rw [Option.ite_none_right_eq_some, child_iff] at hname hname'
  rw [hname, hname', heq] at hlt
  simp at hlt

/-! ## Trees in which everything has a place -/

/-- A name that a file or a directory can have. -/
structure IsFileName (name : String) : Prop where
  ne_empty : name ≠ ""
  noSlash : '/' ∉ name.toList
  noNull : '\x00' ∉ name.toList
  ne_dot : name ≠ "."
  ne_dots : name ≠ ".."
  short : name.utf8ByteSize ≤ maxNameBytes

/-- Everything is in a directory, under a name that a path can lead to. -/
def WellFormed (t : FileTree) : Prop :=
  ∀ ⦃l n⦄, t.find? l = some n →
    ∃ d name, l = d ++ [name] ∧ t.at? d = some .directory ∧ IsFileName name

namespace WellFormed

theorem empty : WellFormed .empty := nofun

/-- What is in something is in a directory. -/
theorem at?_of_child (h : t.WellFormed) (hn : t.at? (d ++ [name]) = some n) :
    t.at? d = some .directory := by
  rw [at?_of_ne_nil (List.append_ne_nil_of_right_ne_nil _ (List.cons_ne_nil _ _))] at hn
  obtain ⟨d', name', heq, hd', -⟩ := h hn
  rwa [(List.append_inj' heq rfl).1]

/-- There is nothing in what is no directory. -/
theorem at?_child (h : t.WellFormed) (hd : t.at? d ≠ some .directory) (name : String) :
    t.at? (d ++ [name]) = none :=
  Option.eq_none_iff_forall_ne_some.2 fun _ hn => hd (h.at?_of_child hn)

theorem insert (h : t.WellFormed) (hd : t.at? d = some .directory) (hname : IsFileName name)
    (hl : t.at? (d ++ [name]) ≠ some .directory) (n : FileNode) :
    WellFormed (t.insert (d ++ [name]) n) := by
  have hne : d ++ [name] ≠ [] := List.append_ne_nil_of_right_ne_nil _ (List.cons_ne_nil _ _)
  have hkeep {k : Location} (hk : t.at? k = some .directory) :
      FileTree.at? (t.insert (d ++ [name]) n) k = some .directory := by
    rw [at?_insert hne, if_neg fun he : k = d ++ [name] => hl (he ▸ hk), hk]
  intro k o hk
  rw [SortedMap.find?_insert] at hk
  split at hk
  · next he => exact ⟨d, name, he, hkeep hd, hname⟩
  · obtain ⟨e, part, rfl, he, hpart⟩ := h hk
    exact ⟨e, part, rfl, hkeep he, hpart⟩

/-- Something may be taken away that nothing is in. -/
theorem erase (h : t.WellFormed) (hl : l ≠ []) (hempty : ∀ name, t.at? (l ++ [name]) = none) :
    WellFormed (t.erase l) := by
  intro k n hk
  rw [SortedMap.find?_erase, Option.ite_none_left_eq_some] at hk
  obtain ⟨d, name, rfl, hd, hname⟩ := h hk.2
  refine ⟨d, name, rfl, ?_, hname⟩
  rw [at?_erase hl, if_neg, hd]
  rintro rfl
  have hfind := hempty name
  rw [at?_of_ne_nil (List.append_ne_nil_of_right_ne_nil _ (List.cons_ne_nil _ _)), hk.2] at hfind
  cases hfind

/-- There is nothing below what has nothing in it. -/
theorem at?_below (h : t.WellFormed) (hempty : ∀ name, t.at? (l ++ [name]) = none)
    {rest : Location} (hrest : rest ≠ []) : t.at? (l ++ rest) = none := by
  induction rest generalizing l with
  | nil => exact absurd rfl hrest
  | cons name rest ih =>
    cases rest with
    | nil => exact hempty name
    | cons part rest =>
      rw [List.append_cons]
      exact ih (h.at?_child (ne_directory_of_none (hempty _))) (List.cons_ne_nil _ _)

/-- There is nothing below what is no directory. -/
theorem at?_append (h : t.WellFormed) (hl : t.at? l ≠ some .directory) {rest : Location}
    (hrest : rest ≠ []) : t.at? (l ++ rest) = none :=
  h.at?_below (h.at?_child hl) hrest

/-- Everything above what is there is a directory. -/
theorem at?_prefix (h : t.WellFormed) (hl : t.at? l = some n) (hk : k <+: l) (hne : k ≠ l) :
    t.at? k = some .directory := by
  refine Decidable.byContradiction fun hd => ?_
  obtain ⟨rest, rfl⟩ := hk
  have hrest : rest ≠ [] := fun he => hne (by rw [he, List.append_nil])
  rw [h.at?_append hd hrest] at hl
  cases hl

/-- What is moved to a place with nothing in it is found there with all that is in it, and nowhere
else. -/
theorem at?_move (h : t.WellFormed) {source target : Location} (hs : source ≠ []) (ht : target ≠ [])
    (hempty : ∀ name, t.at? (target ++ [name]) = none) (k : Location) :
    (t.move source target).at? k =
      if target <+: k then t.at? (source ++ k.drop target.length)
      else if source <+: k then none else t.at? k := by
  rw [FileTree.at?_move hs ht, ← at?_of_ne_nil (List.append_ne_nil_of_left_ne_nil hs _)]
  by_cases htarget : target <+: k
  · have hkept : (if source <+: k ∨ k = target then none else t.at? k) = none := by
      split
      · rfl
      · next hk =>
        obtain ⟨rest, rfl⟩ := htarget
        exact h.at?_below hempty fun hrest => hk (.inr (by rw [hrest, List.append_nil]))
    rw [if_pos htarget, if_pos htarget, hkept, Option.or_none]
  · have hne : k ≠ target := fun he => htarget (he ▸ List.prefix_refl _)
    simp only [htarget, hne, if_false, or_false, Option.none_or]

/-- A file that is moved is found in its new place alone. -/
theorem at?_move_file (h : t.WellFormed) {source target : Location} {id : FileId}
    {content : Content} {modified : Moment}
    (hs : t.at? source = some (.file id content modified))
    (ht : t.at? target ≠ some .directory) (k : Location) :
    (t.move source target).at? k =
      if k = target then some (.file id content modified)
      else if k = source then none else t.at? k := by
  have hsource : t.at? source ≠ some .directory := ne_directory_of_file hs
  have hne {l : Location} (hl : t.at? l ≠ some .directory) : l ≠ [] := by
    rintro rfl
    exact hl rfl
  have hbelow {l : Location} (hl : t.at? l ≠ some .directory) (hk : k ≠ l) (hle : l <+: k) :
      ∃ rest, k = l ++ rest ∧ rest ≠ [] := by
    obtain ⟨rest, rfl⟩ := hle
    exact ⟨rest, rfl, fun hrest => hk (by rw [hrest, List.append_nil])⟩
  rw [h.at?_move (hne hsource) (hne ht) (h.at?_child ht)]
  by_cases htarget : k = target
  · rw [if_pos (htarget ▸ List.prefix_refl _), if_pos htarget, htarget, List.drop_length,
      List.append_nil, hs]
  rw [if_neg htarget]
  -- There is nothing below a file, neither in its old place nor in its new one.
  split
  · next hle =>
    obtain ⟨rest, rfl, hrest⟩ := hbelow ht htarget hle
    rw [List.drop_left, h.at?_append hsource hrest, h.at?_append ht hrest, ite_self]
  · by_cases hk : k = source
    · rw [if_pos hk, if_pos (hk ▸ List.prefix_refl _)]
    rw [if_neg hk]
    split
    · next hle =>
      obtain ⟨rest, rfl, hrest⟩ := hbelow hsource hk hle
      rw [h.at?_append hsource hrest]
    · rfl

theorem clear (h : t.WellFormed) (l : Location) : (t.clear l).WellFormed := by
  intro k n hk
  rw [FileTree.clear, SortedMap.find?_filter_eq_some, Bool.not_eq_true'] at hk
  obtain ⟨d, name, rfl, hd, hname⟩ := h hk.1
  refine ⟨d, name, rfl, ?_, hname⟩
  rw [at?_clear, if_neg, hd]
  intro hbelow
  have hle := isBelow_iff.1 hbelow
  exact Bool.eq_false_iff.1 hk.2 (isBelow_iff.2 ⟨hle.1.trans (List.prefix_append _ _),
    Nat.lt_of_lt_of_le hle.2 (List.length_append ▸ Nat.le_add_right _ _)⟩)

theorem move (h : t.WellFormed) {source : Location} (hs : source ≠ [])
    (hd : t.at? d = some .directory) (hname : IsFileName name)
    (hempty : ∀ part, t.at? (d ++ [name] ++ [part]) = none) (hne : ¬ source <+: d ++ [name]) :
    (t.move source (d ++ [name])).WellFormed := by
  have htarget : d ++ [name] ≠ [] := List.append_ne_nil_of_right_ne_nil _ (List.cons_ne_nil _ _)
  have hat := h.at?_move hs htarget hempty
  intro k n hk
  have hknil : k ≠ [] := by
    rintro rfl
    simp only [find?_move, List.prefix_nil, htarget, hs, Ne.symm htarget, if_false, or_false,
      Option.none_or] at hk
    obtain ⟨e, part, he, -⟩ := h hk
    exact absurd he.symm (List.append_ne_nil_of_right_ne_nil _ (List.cons_ne_nil _ _))
  rw [← at?_of_ne_nil hknil, hat] at hk
  split at hk
  · next hle =>
    obtain ⟨rest, rfl⟩ := hle
    rw [List.drop_left] at hk
    rcases List.eq_nil_or_concat rest with rfl | ⟨rest, part, rfl⟩
    · -- The target is in a directory that stays where it is.
      refine ⟨d, name, List.append_nil _, ?_, hname⟩
      rw [hat, if_neg fun hle => absurd hle.length_le (by simp),
        if_neg fun hle => hne (hle.trans (List.prefix_append _ _)), hd]
    · -- What was in a directory of the source is in the same one of the target.
      rw [List.concat_eq_append, ← List.append_assoc,
        at?_of_ne_nil (List.append_ne_nil_of_right_ne_nil _ (List.cons_ne_nil _ _))] at hk
      obtain ⟨e, part', heq, he, hpart⟩ := h hk
      obtain ⟨rfl, hlast⟩ := List.append_inj' heq rfl
      obtain rfl := (List.cons.inj hlast).1
      refine ⟨d ++ [name] ++ rest, part,
        by rw [List.concat_eq_append, List.append_assoc _ rest], ?_, hpart⟩
      rw [hat, if_pos (List.prefix_append _ _), List.drop_left, he]
  · next hapart =>
    split at hk
    · cases hk
    · next hsource =>
      -- What is in neither place is in a directory that is in neither.
      rw [at?_of_ne_nil hknil] at hk
      obtain ⟨e, part, rfl, he, hpart⟩ := h hk
      refine ⟨e, part, rfl, ?_, hpart⟩
      rw [hat, if_neg fun hle => hapart (hle.trans (List.prefix_append _ _)),
        if_neg fun hle => hsource (hle.trans (List.prefix_append _ _)), he]

theorem fill (h : t.WellFormed) (id : FileId) (content : Content) (now : Moment) :
    (t.fill id content now).WellFormed := by
  intro k n hk
  rw [FileTree.fill, SortedMap.find?_map, Option.map_eq_some_iff] at hk
  obtain ⟨o, ho, -⟩ := hk
  obtain ⟨d, name, rfl, hd, hname⟩ := h ho
  exact ⟨d, name, rfl, by rw [at?_fill, hd]; rfl, hname⟩

end WellFormed

end FileTree

end ClusterKeeper
