/-
# Sorted maps

A finite map kept as its list of entries in strictly increasing key order. Two maps
with the same content are the same list, so equality of maps is equality of entries,
and writing a map out lists its keys in order.
-/

namespace ClusterKeeper

variable {κ α β : Type} [Ord κ]

/-- The entries of a map, keys strictly increasing. -/
structure SortedMap (κ α : Type) [Ord κ] where
  entries : List (κ × α)
  sorted : entries.Pairwise fun a b => compare a.1 b.1 = .lt
  deriving DecidableEq

namespace SortedMap

/-- The map that binds nothing. -/
def empty : SortedMap κ α := ⟨[], .nil⟩

instance : EmptyCollection (SortedMap κ α) := ⟨empty⟩
instance : Inhabited (SortedMap κ α) := ⟨empty⟩

@[ext] theorem ext {m n : SortedMap κ α} (h : m.entries = n.entries) : m = n := by
  cases m; cases n; cases h; rfl

/-- Puts `key` in its place, over an entry of the same key if there is one. -/
def insertEntry (key : κ) (value : α) : List (κ × α) → List (κ × α)
  | [] => [(key, value)]
  | e :: es =>
    match compare key e.1 with
    | .lt => (key, value) :: e :: es
    | .eq => (key, value) :: es
    | .gt => e :: insertEntry key value es

theorem mem_insertEntry {key : κ} {value : α} {e : κ × α} {es : List (κ × α)}
    (h : e ∈ insertEntry key value es) : e = (key, value) ∨ e ∈ es := by
  induction es with
  | nil => simpa [insertEntry] using h
  | cons d ds ih =>
    rw [insertEntry] at h
    split at h
    · simpa using h
    · rcases List.mem_cons.1 h with rfl | h
      · exact .inl rfl
      · exact .inr (List.mem_cons_of_mem _ h)
    · rcases List.mem_cons.1 h with rfl | h
      · exact .inr List.mem_cons_self
      · exact (ih h).imp id (List.mem_cons_of_mem _)

theorem pairwise_insertEntry [Std.TransOrd κ] {key : κ} {value : α} {es : List (κ × α)}
    (h : es.Pairwise fun a b => compare a.1 b.1 = .lt) :
    (insertEntry key value es).Pairwise fun a b => compare a.1 b.1 = .lt := by
  induction es with
  | nil => exact List.pairwise_singleton _ _
  | cons d ds ih =>
    obtain ⟨hd, hds⟩ := List.pairwise_cons.1 h
    rw [insertEntry]
    split
    · next hlt =>
      refine List.pairwise_cons.2 ⟨fun e he => ?_, h⟩
      rcases List.mem_cons.1 he with rfl | he
      · exact hlt
      · exact Std.TransCmp.lt_trans hlt (hd e he)
    · next heq =>
      exact List.pairwise_cons.2
        ⟨fun e he => (Std.TransCmp.congr_left heq).trans (hd e he), hds⟩
    · next hgt =>
      refine List.pairwise_cons.2 ⟨fun e he => ?_, ih hds⟩
      rcases mem_insertEntry he with rfl | he
      · exact Std.OrientedCmp.lt_of_gt hgt
      · exact hd e he

/-- A key behind all others comes last. -/
theorem insertEntry_of_forall_gt {key : κ} {value : α} {es : List (κ × α)}
    (h : ∀ e ∈ es, compare key e.1 = .gt) : insertEntry key value es = es ++ [(key, value)] := by
  induction es with
  | nil => rfl
  | cons d ds ih =>
    obtain ⟨hd, hds⟩ := List.forall_mem_cons.1 h
    rw [insertEntry, hd, List.cons_append]
    exact congrArg _ (ih hds)

/-- The map with `key` bound to `value`. -/
def insert [Std.TransOrd κ] (m : SortedMap κ α) (key : κ) (value : α) : SortedMap κ α where
  entries := insertEntry key value m.entries
  sorted := pairwise_insertEntry m.sorted

/-- The value bound to `key`. -/
def find? (m : SortedMap κ α) (key : κ) : Option α :=
  (m.entries.find? fun e => compare e.1 key == .eq).map (·.2)

/-- Whether `key` is bound. -/
def contains (m : SortedMap κ α) (key : κ) : Bool := (m.find? key).isSome

/-- The entries that satisfy `p`. -/
def filter (p : κ → α → Bool) (m : SortedMap κ α) : SortedMap κ α where
  entries := m.entries.filter fun e => p e.1 e.2
  sorted := m.sorted.filter _

/-- The map without `key`. -/
def erase (m : SortedMap κ α) (key : κ) : SortedMap κ α :=
  m.filter fun k _ => compare k key != .eq

/-- The map with every value passed through `f`. -/
def map (f : α → β) (m : SortedMap κ α) : SortedMap κ β where
  entries := m.entries.map fun e => (e.1, f e.2)
  sorted := by
    rw [List.pairwise_map]
    exact m.sorted

/-- The keys, in order. -/
def keys (m : SortedMap κ α) : List κ := m.entries.map (·.1)

/-- The number of keys. -/
def size (m : SortedMap κ α) : Nat := m.entries.length

/-- Whether no key is bound. -/
def isEmpty (m : SortedMap κ α) : Bool := m.entries.isEmpty

theorem isEmpty_iff {m : SortedMap κ α} : m.isEmpty = true ↔ m = ∅ :=
  List.isEmpty_iff.trans ⟨fun h => ext h, fun h => congrArg entries h⟩

/-- Binds the entries one after the other; a key that is repeated keeps its last value. -/
def ofList [Std.TransOrd κ] (es : List (κ × α)) : SortedMap κ α :=
  es.foldl (fun m e => m.insert e.1 e.2) empty

theorem forall_mem_foldl_insert [Std.TransOrd κ] {p : κ × α → Prop} {es : List (κ × α)}
    {m : SortedMap κ α} (hm : ∀ e ∈ m.entries, p e) (h : ∀ e ∈ es, p e) :
    ∀ e ∈ (es.foldl (fun m e => m.insert e.1 e.2) m).entries, p e := by
  induction es generalizing m with
  | nil => exact hm
  | cons d ds ih =>
    refine ih (fun e he => ?_) fun e he => h e (List.mem_cons_of_mem _ he)
    rcases mem_insertEntry he with rfl | he
    · exact h _ List.mem_cons_self
    · exact hm e he

/-- What holds of all entries put into a map holds of all its entries. -/
theorem forall_mem_ofList [Std.TransOrd κ] {p : κ × α → Prop} {es : List (κ × α)}
    (h : ∀ e ∈ es, p e) : ∀ e ∈ (ofList es).entries, p e :=
  forall_mem_foldl_insert (by simp [empty]) h

/-! ## Looking keys up -/

/-- No key is bound twice. -/
theorem eq_of_mem_of_compare_eq [Std.TransOrd κ] {m : SortedMap κ α} {a b : κ × α}
    (ha : a ∈ m.entries) (hb : b ∈ m.entries) (h : compare a.1 b.1 = .eq) : a = b := by
  obtain ⟨es, hes⟩ := m
  induction es with
  | nil => cases ha
  | cons d ds ih =>
    obtain ⟨hd, hds⟩ := List.pairwise_cons.1 hes
    rcases List.mem_cons.1 ha with ha' | ha' <;> rcases List.mem_cons.1 hb with hb' | hb'
    · rw [ha', hb']
    · rw [ha', hd b hb'] at h
      cases h
    · rw [hb', Std.OrientedCmp.gt_of_lt (hd a ha')] at h
      cases h
    · exact ih hds ha' hb'

/-- Looking a key up finds the value that an entry binds it to. -/
theorem find?_eq_some_iff [Std.TransOrd κ] [Std.LawfulEqOrd κ] {m : SortedMap κ α} {key : κ}
    {value : α} : m.find? key = some value ↔ (key, value) ∈ m.entries := by
  rw [find?, Option.map_eq_some_iff]
  constructor
  · rintro ⟨e, he, rfl⟩
    have hkey : e.1 = key := by simpa using List.find?_some he
    exact hkey ▸ List.mem_of_find?_eq_some he
  · intro h
    cases hf : m.entries.find? fun e => compare e.1 key == .eq with
    | none => simpa using List.find?_eq_none.1 hf _ h
    | some e =>
      have he := eq_of_mem_of_compare_eq (List.mem_of_find?_eq_some hf) h
        (by simpa using List.find?_some hf)
      exact ⟨e, rfl, by rw [he]⟩

theorem mem_insertEntry_iff [Std.TransOrd κ] [Std.LawfulEqOrd κ] {key : κ} {value : α}
    {e : κ × α} {es : List (κ × α)} (h : es.Pairwise fun a b => compare a.1 b.1 = .lt) :
    e ∈ insertEntry key value es ↔ e = (key, value) ∨ e ∈ es ∧ e.1 ≠ key := by
  induction es with
  | nil => simp [insertEntry]
  | cons d ds ih =>
    obtain ⟨hd, hds⟩ := List.pairwise_cons.1 h
    have later (he : e ∈ ds) (hkey : compare key d.1 ≠ .gt) : e.1 ≠ key := by
      rintro rfl
      exact hkey (Std.OrientedCmp.gt_of_lt (hd e he))
    rw [insertEntry]
    split
    · next hlt =>
      have hne : d.1 ≠ key := fun h => by simp [h] at hlt
      simp only [List.mem_cons]
      refine or_congr_right ⟨fun he => ⟨he, ?_⟩, And.left⟩
      rcases he with rfl | he
      · exact hne
      · exact later he (by simp [hlt])
    · next heq =>
      have hkey : key = d.1 := Std.LawfulEqCmp.eq_of_compare heq
      simp only [List.mem_cons]
      refine or_congr_right ⟨fun he => ⟨.inr he, later he (by simp [heq])⟩, ?_⟩
      rintro ⟨rfl | he, hne⟩
      · exact absurd hkey.symm hne
      · exact he
    · next hgt =>
      have hne : d.1 ≠ key := fun h => by simp [h] at hgt
      simp only [List.mem_cons, ih hds]
      constructor
      · rintro (rfl | rfl | ⟨he, hk⟩)
        · exact .inr ⟨.inl rfl, hne⟩
        · exact .inl rfl
        · exact .inr ⟨.inr he, hk⟩
      · rintro (rfl | ⟨rfl | he, hk⟩)
        · exact .inr (.inl rfl)
        · exact .inl rfl
        · exact .inr (.inr ⟨he, hk⟩)

theorem find?_insert [Std.TransOrd κ] [Std.LawfulEqOrd κ] [DecidableEq κ] (m : SortedMap κ α)
    (key k : κ) (value : α) :
    (m.insert key value).find? k = if k = key then some value else m.find? k := by
  ext v
  rw [find?_eq_some_iff, insert, mem_insertEntry_iff m.sorted]
  split
  · next h => simp [h, eq_comm]
  · next h => simp [h, find?_eq_some_iff]

theorem find?_erase [Std.TransOrd κ] [Std.LawfulEqOrd κ] [DecidableEq κ] (m : SortedMap κ α)
    (key k : κ) : (m.erase key).find? k = if k = key then none else m.find? k := by
  ext v
  rw [find?_eq_some_iff, erase, filter, List.mem_filter]
  split
  · next h => simp [h]
  · next h => simp [h, find?_eq_some_iff]

end SortedMap

end ClusterKeeper
