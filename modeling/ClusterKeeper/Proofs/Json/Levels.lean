/-
# Levels of documents

A tree of whole numbers is read back from all its spellings if it has no more levels than may be
read. A tree with more levels is refused, whatever its numbers are: each part of it is taken up to
its end or found malformed, and the first part that is nested too deep is not taken. What is
refused within a record or a map makes the whole document malformed.
-/

import ClusterKeeper.Json.Value
import ClusterKeeper.Proofs.Json.Numbers

namespace ClusterKeeper.Json

variable {α β : Type} {c : Codec α} {p : Prop} {levels fuel : Nat} {first : Bool}
  {gap cs rest : List Char}

/-! ## Trees -/

/-- A text of a tree begins with a character that is not a blank and does not close an array. -/
theorem Spells.solid {t : Tree} (h : Spells t cs) : Solid cs := by
  cases h with
  | null => exact ⟨'n', _, rfl, rfl, by decide⟩
  | true => exact ⟨'t', _, rfl, rfl, by decide⟩
  | false => exact ⟨'f', _, rfl, rfl, by decide⟩
  | string s => exact ⟨'"', _, rfl, rfl, by decide⟩
  | array h => exact ⟨'[', _, rfl, rfl, by decide⟩
  | object h => exact ⟨'{', _, rfl, rfl, by decide⟩
  | number n =>
    obtain ⟨c, tail, htail, hc⟩ := exists_head_text n
    rw [htail]
    rcases hc with hc | rfl | rfl
    · rw [startsNumber, Bool.or_eq_true, beq_iff_eq] at hc
      rcases hc with rfl | hc
      · exact ⟨'-', _, rfl, rfl, by decide⟩
      · refine ⟨c, tail, rfl, isBlank_of_isDigit hc, ?_⟩
        rintro rfl
        exact absurd hc (by decide)
    · exact ⟨'.', _, rfl, rfl, by decide⟩
    · exact ⟨'e', _, rfl, rfl, by decide⟩

theorem readTree_blanks (levels : Nat) (hg : Blanks gap) (cs : List Char) :
    readTree levels (gap ++ cs) = readTree levels cs := by
  rw [readTree.eq_def, readTree.eq_def levels cs]
  simp only [skipBlanks_append hg]

theorem readTree_null (levels : Nat) (rest : List Char) :
    readTree levels (['n', 'u', 'l', 'l'] ++ rest) = .ok (.null, rest) := by
  rw [readTree.eq_def]
  rfl

theorem readTree_true (levels : Nat) (rest : List Char) :
    readTree levels (['t', 'r', 'u', 'e'] ++ rest) = .ok (.bool true, rest) := by
  rw [readTree.eq_def]
  rfl

theorem readTree_false (levels : Nat) (rest : List Char) :
    readTree levels (['f', 'a', 'l', 's', 'e'] ++ rest) = .ok (.bool false, rest) := by
  rw [readTree.eq_def]
  rfl

theorem readTree_quote (levels : Nat) (s : String) (rest : List Char) :
    readTree levels (quote s ++ rest) = .ok (.string s, rest) := by
  obtain ⟨tail, htail, hs⟩ := quote_append s rest
  have hskip : skipBlanks ('"' :: tail) = '"' :: tail := skipBlanks_cons rfl
  rw [htail, readTree.eq_def]
  simp only [hskip, hs]
  rfl

theorem readTree_number (levels : Nat) {c : Char} {cs : List Char} (hc : startsNumber c = true) :
    readTree levels (c :: cs) = (readNumber (c :: cs)).map fun x => (.number x.1, x.2) := by
  have hne {d : Char} (hd : startsNumber d = false) : c ≠ d := by
    rintro rfl
    rw [hc] at hd
    cases hd
  have hblank : isBlank c = false := by
    simp only [isBlank, Bool.or_eq_false_iff, beq_eq_false_iff_ne]
    exact ⟨⟨⟨hne rfl, hne rfl⟩, hne rfl⟩, hne rfl⟩
  rw [readTree.eq_def]
  simp only [skipBlanks_cons hblank, if_neg (hne (d := 'n') rfl), if_neg (hne (d := 't') rfl),
    if_neg (hne (d := 'f') rfl), if_neg (hne (d := '"') rfl), if_pos hc]
  cases readNumber (c :: cs) <;> rfl

/-- Where a number is written, a number is read. -/
theorem readTree_text (levels : Nat) (n : Number) (rest : List Char) :
    readTree levels (n.text ++ rest) =
      (readNumber (n.text ++ rest)).map fun x => (.number x.1, x.2) := by
  have hbroken (tail : List Char) : readNumber ('.' :: tail) = .error .malformed ∧
      readNumber ('e' :: tail) = .error .malformed := ⟨rfl, rfl⟩
  obtain ⟨c, tail, htail, hc⟩ := exists_head_text n
  rw [htail, List.cons_append]
  rcases hc with hc | rfl | rfl
  · exact readTree_number levels hc
  · rw [(hbroken _).1]
    cases levels <;> (rw [readTree.eq_def]; rfl)
  · rw [(hbroken _).2]
    cases levels <;> (rw [readTree.eq_def]; rfl)

/-- Where no more levels are left, no array and no object is read. -/
theorem readTree_zero {c : Char} (hc : c = '[' ∨ c = '{') (cs : List Char) :
    readTree 0 (c :: cs) = .error .malformed := by
  rcases hc with rfl | rfl <;> (rw [readTree.eq_def]; rfl)

theorem readTree_array (levels : Nat) (cs : List Char) :
    readTree (levels + 1) ('[' :: cs) =
      (readItems (readTree levels) (cs.length + 1) true [] cs).map fun x => (.array x.1, x.2) := by
  rw [readTree.eq_def]
  rfl

theorem readTree_object (levels : Nat) (cs : List Char) :
    readTree (levels + 1) ('{' :: cs) =
      (readMembers (readTree levels) (cs.length + 1) true [] cs).map
        fun x => (.object x.1, x.2) := by
  rw [readTree.eq_def]
  rfl

/-! ## Documents that are read back -/

namespace Tree

mutual

/-- Every number of the tree is whole by its form. -/
def Exact : Tree → Prop
  | .array items => ExactItems items
  | .object members => ExactMembers members
  | .number (.double _) => False
  | _ => True

/-- All items are exact. -/
def ExactItems : List Tree → Prop
  | [] => True
  | t :: ts => t.Exact ∧ ExactItems ts

/-- All members are exact. -/
def ExactMembers : List (String × Tree) → Prop
  | [] => True
  | (_, t) :: ms => t.Exact ∧ ExactMembers ms

end

theorem exactItems_iff {ts : List Tree} : ExactItems ts ↔ ∀ t ∈ ts, t.Exact := by
  induction ts with
  | nil => simp [ExactItems]
  | cons t ts ih => simp [ExactItems, ih]

theorem exactMembers_iff {ms : List (String × Tree)} :
    ExactMembers ms ↔ ∀ m ∈ ms, m.2.Exact := by
  induction ms with
  | nil => simp [ExactMembers]
  | cons m ms ih => simp [ExactMembers, ih]

theorem levelsOfItems_le_iff {ts : List Tree} {n : Nat} :
    levelsOfItems ts ≤ n ↔ ∀ t ∈ ts, t.levels ≤ n := by
  induction ts with
  | nil => simp [levelsOfItems]
  | cons t ts ih => rw [levelsOfItems, Nat.max_le, ih, List.forall_mem_cons]

theorem levelsOfMembers_le_iff {ms : List (String × Tree)} {n : Nat} :
    levelsOfMembers ms ≤ n ↔ ∀ m ∈ ms, m.2.levels ≤ n := by
  induction ms with
  | nil => simp [levelsOfMembers]
  | cons m ms ih => rw [levelsOfMembers, Nat.max_le, ih, List.forall_mem_cons]

/-- An object has more levels than any of its members. -/
theorem levels_lt_of_mem {ms : List (String × Tree)} {m : String × Tree} (h : m ∈ ms) :
    m.2.levels < (Tree.object ms).levels :=
  Nat.lt_succ_of_le (levelsOfMembers_le_iff.1 (Nat.le_refl _) m h)

end Tree

/-- An exact number is read back. -/
theorem readNumber_text {n : Number} (hn : (Tree.number n).Exact) (hrest : Delimited rest) :
    readNumber (n.text ++ rest) = .ok (n, rest) := by
  cases n with
  | natural n => exact readNumber_natural n hrest
  | negative n => exact readNumber_negative n hrest
  | double x => exact hn.elim

/-- The trees with at most a number of levels, as they stand. -/
def Tree.codec (levels : Nat) : Codec Tree where
  read := readTree levels
  tree := id

theorem Tree.reads_codec {t : Tree}
    (h : ∀ {cs rest : List Char}, Spells t cs → Delimited rest →
      readTree levels (cs ++ rest) = .ok (t, rest)) : (Tree.codec levels).Reads t t where
  solid := Spells.solid
  reads hg hs hrest := (readTree_blanks levels hg _).trans (h hs hrest)

/-- A tree of whole numbers is read back if it has no more levels than may be read. -/
theorem readTree_of_spells {t : Tree} (ht : t.Exact) (hl : t.levels ≤ levels) (hs : Spells t cs)
    (hrest : Delimited rest) : readTree levels (cs ++ rest) = .ok (t, rest) := by
  -- The items of an array are read with one level less, and so are the members of an object.
  induction levels using Nat.strongRecOn generalizing t cs rest with
  | _ levels ih =>
    cases hs with
    | null => exact readTree_null levels rest
    | true => exact readTree_true levels rest
    | false => exact readTree_false levels rest
    | string s => exact readTree_quote levels s rest
    | number n =>
      rw [readTree_text, readNumber_text ht hrest]
      rfl
    | @array ts cs hs =>
      obtain ⟨levels, rfl⟩ := Nat.exists_eq_add_one.2 (Nat.lt_of_lt_of_le (Nat.succ_pos _) hl)
      have hts := Tree.exactItems_iff.1 ht
      have hlevels := Tree.levelsOfItems_le_iff.1 (Nat.le_of_succ_le_succ hl)
      have hread : List.Forall₂ (Tree.codec levels).Reads ts ts :=
        List.forall₂_same.2 fun t ht => Tree.reads_codec fun hs hrest =>
          ih levels (Nat.lt_succ_self levels) (hts t ht) (hlevels t ht) hs hrest
      have hitems : readItems (readTree levels) ((cs ++ rest).length + 1) true [] (cs ++ rest) =
          .ok (ts, rest) := readItems_of_spells hread [] rest hs (hs.length_lt_fuel rest)
      rw [List.cons_append, readTree_array, hitems]
      rfl
    | @object ms cs hs =>
      obtain ⟨levels, rfl⟩ := Nat.exists_eq_add_one.2 (Nat.lt_of_lt_of_le (Nat.succ_pos _) hl)
      have hms := Tree.exactMembers_iff.1 ht
      have hlevels := Tree.levelsOfMembers_le_iff.1 (Nat.le_of_succ_le_succ hl)
      have hread : ∀ m ∈ ms, (Tree.codec levels).ReadsBack m.2 :=
        fun m hm => Tree.reads_codec fun hs hrest =>
          ih levels (Nat.lt_succ_self levels) (hms m hm) (hlevels m hm) hs hrest
      have hmembers : readMembers (readTree levels) ((cs ++ rest).length + 1) true [] (cs ++ rest) =
          .ok (ms, rest) := by
        refine readMembers_of_spells hread [] rest ?_ (hs.length_lt_fuel rest)
        exact (List.map_id ms).symm ▸ hs
      rw [List.cons_append, readTree_object, hmembers]
      rfl

namespace Tree

mutual

/-- A tree in canonical form is its own canonical form. -/
theorem canonical_eq_self : {t : Tree} → t.Canonical → t.canonical = t
  | .array items, h => congrArg array (canonicalItems_eq_self h)
  | .object members, ⟨hsorted, h⟩ => by
    have hmembers : SortedMap.ofList (canonicalMembers members) = ⟨members, hsorted⟩ := by
      rw [canonicalMembers_eq_self h]
      exact ofList_entries ⟨members, hsorted⟩
    rw [canonical, hmembers]
  | .null, _ | .bool _, _ | .number _, _ | .string _, _ => rfl

theorem canonicalItems_eq_self : {ts : List Tree} → CanonicalItems ts → canonicalItems ts = ts
  | [], _ => rfl
  | _ :: _, ⟨h, hs⟩ => congrArg₂ List.cons (canonical_eq_self h) (canonicalItems_eq_self hs)

theorem canonicalMembers_eq_self :
    {ms : List (String × Tree)} → CanonicalMembers ms → canonicalMembers ms = ms
  | [], _ => rfl
  | (k, _) :: _, ⟨h, hs⟩ =>
    congrArg₂ List.cons (congrArg (k, ·) (canonical_eq_self h)) (canonicalMembers_eq_self hs)

end

end Tree

/-- A value of whole numbers is read back if it has no more levels than may be read. -/
theorem Value.readsBack_codec {v : Value} (hv : v.tree.Exact) (hl : v.tree.levels ≤ levels) :
    (Value.codec levels).ReadsBack v where
  solid := Spells.solid
  reads {gap cs rest} hg hs hrest := by
    have hread : readTree levels (gap ++ (cs ++ rest)) = .ok (v.tree, rest) :=
      (readTree_blanks levels hg _).trans (readTree_of_spells hv hl hs hrest)
    have hvalue : ofTree v.tree = v := by
      obtain ⟨t, ht⟩ := v
      simp only [ofTree, Tree.canonical_eq_self ht]
    simp only [codec, hread, Except.map, hvalue]

/-! ## Documents that are refused -/

/-- A codec takes the texts of a tree only if a condition holds, and finds them malformed else. -/
structure Codec.TakesOnlyIf (c : Codec α) (t : Tree) (p : Prop) : Prop where
  takes : ∀ {gap cs rest : List Char}, Blanks gap → Spells t cs → Delimited rest → rest ≠ [] →
    TakenOnlyIf .malformed p rest (c.read (gap ++ (cs ++ rest)))

theorem SpellsItems.append_ne_nil {ts : List Tree} (h : SpellsItems false ts cs)
    (rest : List Char) : cs ++ rest ≠ [] :=
  List.append_ne_nil_of_left_ne_nil (List.ne_nil_of_length_pos (Nat.zero_lt_of_lt h.length_lt)) rest

theorem SpellsMembers.append_ne_nil {ms : List (String × Tree)} (h : SpellsMembers first ms cs)
    (rest : List Char) : cs ++ rest ≠ [] :=
  List.append_ne_nil_of_left_ne_nil (List.ne_nil_of_length_pos (Nat.zero_lt_of_lt h.length_lt)) rest

/-- The items of an array are taken only if each of them may be. -/
theorem takenOnlyIf_readItems {ts : List Tree} {P : Tree → Prop}
    (hread : ∀ t ∈ ts, c.TakesOnlyIf t (P t)) (seen : List α) (rest : List Char)
    (h : SpellsItems first ts cs) (hfuel : ts.length < fuel) :
    TakenOnlyIf .malformed (∀ t ∈ ts, P t) rest
      (readItems c.read fuel first seen (cs ++ rest)) := by
  induction ts generalizing first fuel seen cs with
  | nil =>
    obtain ⟨fuel, rfl⟩ := Nat.exists_eq_succ_of_ne_zero (Nat.ne_of_gt hfuel)
    cases h with
    | nil hg =>
      rw [List.append_assoc, readItems]
      simp only [List.singleton_append, nextItem_closed hg]
      exact .taken _ (List.forall_mem_nil _)
  | cons t ts ih =>
    obtain ⟨fuel, rfl⟩ := Nat.exists_eq_succ_of_ne_zero (Nat.ne_of_gt (Nat.zero_lt_of_lt hfuel))
    obtain ⟨ht, hmore⟩ := List.forall_mem_cons.1 hread
    cases h with
    | cons hl hs hts =>
      have hitem := ht.takes blanks_nil hs (hts.delimited rest) (hts.append_ne_nil rest)
      rw [List.append_assoc, List.append_assoc, readItems]
      simp only [nextItem_append hl hs.solid.append]
      refine hitem.bind fun x hx => ?_
      exact (ih hmore (x :: seen) hts (Nat.lt_of_succ_lt_succ hfuel)).mono
        fun hrest => List.forall_mem_cons.2 ⟨hx, hrest⟩

/-- The members of an object are taken only if each of them may be. -/
theorem takenOnlyIf_readMembers {ms : List (String × Tree)} {P : Tree → Prop}
    (hread : ∀ m ∈ ms, c.TakesOnlyIf m.2 (P m.2)) (seen : List (String × α)) (rest : List Char)
    (h : SpellsMembers first ms cs) (hfuel : ms.length < fuel) :
    TakenOnlyIf .malformed (∀ m ∈ ms, P m.2) rest
      (readMembers c.read fuel first seen (cs ++ rest)) := by
  induction ms generalizing first fuel seen cs with
  | nil =>
    obtain ⟨fuel, rfl⟩ := Nat.exists_eq_succ_of_ne_zero (Nat.ne_of_gt hfuel)
    cases h with
    | nil hg =>
      rw [List.append_assoc, readMembers]
      simp only [List.singleton_append, nextName_closed hg]
      exact .taken _ (List.forall_mem_nil _)
  | cons m ms ih =>
    obtain ⟨fuel, rfl⟩ := Nat.exists_eq_succ_of_ne_zero (Nat.ne_of_gt (Nat.zero_lt_of_lt hfuel))
    obtain ⟨hm, hmore⟩ := List.forall_mem_cons.1 hread
    cases h with
    | cons hl hg hg' hs hms =>
      have hvalue := hm.takes hg' hs (hms.delimited rest) (hms.append_ne_nil rest)
      obtain ⟨tail, htail, hname⟩ := quote_append _ _
      simp only [List.append_assoc, List.cons_append]
      rw [htail, readMembers]
      simp only [nextName_append hl, hname, readColon_append hg, Bind.bind, Except.bind]
      refine hvalue.bind fun x hx => ?_
      exact (ih hmore (_ :: seen) hms (Nat.lt_of_succ_lt_succ hfuel)).mono
        fun hrest => List.forall_mem_cons.2 ⟨hx, hrest⟩

theorem Tree.takesOnlyIf_codec {t : Tree}
    (h : ∀ {cs rest : List Char}, Spells t cs → Delimited rest → rest ≠ [] →
      TakenOnlyIf .malformed p rest (readTree levels (cs ++ rest))) :
    (Tree.codec levels).TakesOnlyIf t p where
  takes {gap cs rest} hg hs hrest hne := by
    change TakenOnlyIf .malformed p rest (readTree levels (gap ++ (cs ++ rest)))
    rw [readTree_blanks levels hg]
    exact h hs hrest hne

/-- A tree is taken only if it has no more levels than may be read. -/
theorem takenOnlyIf_readTree {t : Tree} (hs : Spells t cs) (hrest : Delimited rest)
    (hne : rest ≠ []) :
    TakenOnlyIf .malformed (t.levels ≤ levels) rest (readTree levels (cs ++ rest)) := by
  -- by the levels that may still be read, of which each array and each object takes one
  induction levels using Nat.strongRecOn generalizing t cs rest with
  | _ levels ih =>
    have hread (k : Nat) (hk : k < levels) (t : Tree) :
        (Tree.codec k).TakesOnlyIf t (t.levels ≤ k) := Tree.takesOnlyIf_codec (ih k hk)
    cases hs with
    | null =>
      rw [readTree_null levels rest]
      exact .taken _ (Nat.zero_le _)
    | true =>
      rw [readTree_true levels rest]
      exact .taken _ (Nat.zero_le _)
    | false =>
      rw [readTree_false levels rest]
      exact .taken _ (Nat.zero_le _)
    | string s =>
      rw [readTree_quote levels s rest]
      exact .taken _ (Nat.zero_le _)
    | number n =>
      rw [readTree_text]
      exact ((takenOnlyIf_readNumber n hrest hne).map Tree.number).mono fun _ => Nat.zero_le _
    | @array ts cs hs =>
      cases levels with
      | zero =>
        rw [List.cons_append, readTree_zero (.inl rfl)]
        exact .refused
      | succ levels =>
        have hitems := takenOnlyIf_readItems (c := Tree.codec levels) (P := (·.levels ≤ levels))
          (fun t _ => hread levels (Nat.lt_succ_self _) t) [] rest hs (hs.length_lt_fuel rest)
        rw [List.cons_append, readTree_array]
        exact (hitems.map Tree.array).mono fun h =>
          Nat.succ_le_succ (Tree.levelsOfItems_le_iff.2 h)
    | @object ms cs hs =>
      cases levels with
      | zero =>
        rw [List.cons_append, readTree_zero (.inr rfl)]
        exact .refused
      | succ levels =>
        have hmembers := takenOnlyIf_readMembers (c := Tree.codec levels) (P := (·.levels ≤ levels))
          (fun m _ => hread levels (Nat.lt_succ_self _) m.2) [] rest hs (hs.length_lt_fuel rest)
        rw [List.cons_append, readTree_object]
        exact (hmembers.map Tree.object).mono fun h =>
          Nat.succ_le_succ (Tree.levelsOfMembers_le_iff.2 h)

namespace Codec.TakesOnlyIf

/-- A value is taken only if it has no more levels than may be read. -/
theorem value (levels : Nat) (t : Tree) :
    (Value.codec levels).TakesOnlyIf t (t.levels ≤ levels) where
  takes hg hs hrest hne :=
    ((Tree.takesOnlyIf_codec takenOnlyIf_readTree).takes hg hs hrest hne).map Value.ofTree

/-- A map is taken only if each of its values may be. -/
theorem map {ms : List (String × Tree)} {P : Tree → Prop}
    (h : ∀ m ∈ ms, c.TakesOnlyIf m.2 (P m.2)) :
    (Codec.map c).TakesOnlyIf (.object ms) (∀ m ∈ ms, P m.2) where
  takes {gap cs rest} hg hs hrest hne := by
    cases hs with
    | @object _ cs hs =>
      have hmembers := takenOnlyIf_readMembers h [] rest hs (hs.length_lt_fuel rest)
      have hskip : skipBlanks (gap ++ '{' :: (cs ++ rest)) = '{' :: (cs ++ rest) :=
        skipBlanks_append_cons hg rfl
      rw [Codec.map, List.cons_append]
      simp only [hskip]
      exact hmembers.bind fun xs hxs => .taken _ hxs

theorem mono {t : Tree} {q : Prop} (h : c.TakesOnlyIf t p) (hpq : p → q) : c.TakesOnlyIf t q where
  takes hg hs hrest hne := (h.takes hg hs hrest hne).mono hpq

end Codec.TakesOnlyIf

namespace Members

/-- The member of a name takes no text of a tree. -/
def Refuses : {β : Type} → Members β → String → Tree → Prop
  | _, .nil, _, _ => False
  | _, .cons name codec _ rest, key, t =>
    key = name ∧ codec.TakesOnlyIf t False ∨ rest.Refuses key t

variable {m : Members β} {x : β} {key : String} {keys : List String} {t : Tree}

theorem Refuses.mem_names (h : m.Refuses key t) : key ∈ m.names := by
  induction m with
  | nil => exact h.elim
  | cons name codec omission rest ih =>
    rcases h with ⟨rfl, -⟩ | h
    · exact List.mem_cons_self
    · exact List.mem_cons_of_mem _ (ih h)

/-- A member that was not read before has a vacant slot, and the text of a tree that it refuses is
found malformed there. -/
theorem slot_of_refuses (hm : m.names.Nodup) (ht : m.Refuses key t) (hkey : key ∉ keys) :
    ∃ read, m.slot key (m.draft keys x) = .vacant read ∧
      ∀ {gap cs rest : List Char}, Blanks gap → Spells t cs → Delimited rest → rest ≠ [] →
        read (gap ++ (cs ++ rest)) = .error .malformed := by
  induction m with
  | nil => exact ht.elim
  | cons name codec omission rest ih =>
    obtain ⟨x, xs⟩ := x
    obtain ⟨hname, hrest⟩ := List.nodup_cons.1 hm
    rcases ht with ⟨rfl, hcodec⟩ | ht
    · simp only [slot, draft, if_true, if_neg hkey]
      refine ⟨_, rfl, fun hg hs hd hne => ?_⟩
      rw [(hcodec.takes hg hs hd hne).eq_error id]
      rfl
    · have hne : key ≠ name := fun he => hname (he ▸ ht.mem_names)
      obtain ⟨read, hslot, hread⟩ := ih (x := xs) hrest ht
      simp only [slot, draft, if_neg hne, hslot]
      refine ⟨_, rfl, fun hg hs hd hne => ?_⟩
      rw [hread hg hs hd hne]
      rfl

/-- A member that refuses what is written for it makes an object malformed, whatever comes behind
it. -/
theorem readObject_of_refuses (hm : m.names.Nodup) (keys : List String) (rest : List Char)
    {done more : List (String × Tree)} (hdone : ∀ e ∈ done, m.Fits x e.1 e.2)
    (hnodup : (key :: (done.map (·.1) ++ keys)).Nodup) (ht : m.Refuses key t)
    (h : SpellsMembers first (done ++ (key, t) :: more) cs) (hfuel : done.length < fuel) :
    m.readObject fuel first (m.draft keys x) (cs ++ rest) = .error .malformed := by
  -- The members before the one that is refused are read one by one into the draft.
  induction done generalizing first fuel keys cs with
  | nil =>
    obtain ⟨fuel, rfl⟩ := Nat.exists_eq_succ_of_ne_zero (Nat.ne_of_gt hfuel)
    cases h with
    | cons hl hg hg' hs hms =>
      have hkey : key ∉ keys := (List.nodup_cons.1 hnodup).1
      obtain ⟨read, hslot, hread⟩ := slot_of_refuses (x := x) hm ht hkey
      obtain ⟨tail, htail, hname⟩ := quote_append key _
      simp only [List.append_assoc, List.cons_append]
      rw [htail, readObject]
      simp only [nextName_append hl, hname, hslot, readColon_append hg,
        hread hg' hs (hms.delimited rest) (hms.append_ne_nil rest), Bind.bind, Except.bind]
  | cons e done ih =>
    obtain ⟨fuel, rfl⟩ := Nat.exists_eq_succ_of_ne_zero (Nat.ne_of_gt (Nat.zero_lt_of_lt hfuel))
    cases h with
    | @cons _ _ _ _ _ _ k t _ hl hg hg' hs hms =>
      obtain ⟨hfits, hdone⟩ := List.forall_mem_cons.1 hdone
      have hperm : (key :: (((k, t) :: done).map (·.1) ++ keys)).Perm
          (key :: (done.map (·.1) ++ k :: keys)) := List.perm_middle.symm.cons key
      have hkey : k ∉ keys := fun hk =>
        (List.nodup_cons.1 (List.nodup_cons.1 hnodup).2).1 (List.mem_append_right _ hk)
      have hrest := ih _ hdone (hperm.nodup_iff.1 hnodup) hms (Nat.lt_of_succ_lt_succ hfuel)
      simp only [List.append_assoc, List.cons_append]
      exact (readObject_member hm hfits hkey hl hg hg' hs (hms.delimited rest)).trans hrest

end Members

/-- A document of a record is malformed if one of its members refuses what is written for it and
all before it are read. -/
theorem Codec.parse_record_of_refuses {name : String} {m : Members β} {ofMembers : β → α}
    {toMembers : α → β} {x : β} {key : String} {t : Tree} {done more : List (String × Tree)}
    (hm : m.names.Nodup) (hdone : ∀ e ∈ done, m.Fits x e.1 e.2)
    (hnodup : (key :: done.map (·.1)).Nodup) (ht : m.Refuses key t)
    (h : Spells (.object (done ++ (key, t) :: more)) cs) :
    (Codec.record name m ofMembers toMembers).parse (String.ofList cs) = .error .malformed := by
  cases h with
  | @object _ cs h =>
    have hfuel : done.length < (cs ++ []).length + 1 := by
      have hlt := h.length_lt_fuel []
      rw [List.length_append] at hlt
      omega
    have hread := Members.readObject_of_refuses hm [] [] hdone (by rwa [List.append_nil]) ht h
      hfuel
    have hskip : skipBlanks ('{' :: cs) = '{' :: cs := skipBlanks_cons rfl
    rw [Members.draft_nil, List.append_nil] at hread
    rw [parse, readAll, String.toList_ofList, Codec.record]
    simp only [hskip, hread, Bind.bind, Except.bind]

end ClusterKeeper.Json
