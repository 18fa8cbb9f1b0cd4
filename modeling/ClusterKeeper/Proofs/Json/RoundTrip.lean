/-
# Documents read back

A codec reads a value from a tree if it does so from all spellings of the tree, and it is faithful
if it reads every value back from the tree that it writes. The codecs of strings, bounded numbers,
options, maps and named choices are faithful. An array is read if its items are, and an object if
its members are, each of them once: they may stand in any order, and those that have the value that
is taken in their place may be missing.
-/

import ClusterKeeper.Json.Record
import ClusterKeeper.Proofs.Json.Spelling
import Mathlib.Data.List.Forall2

namespace ClusterKeeper.Json

variable {α β : Type} {c : Codec α} {first : Bool} {fuel : Nat} {cs gap rest : List Char}

/-- A codec reads a value from a tree. -/
structure Codec.Reads (c : Codec α) (t : Tree) (x : α) : Prop where
  solid : ∀ {cs : List Char}, Spells t cs → Solid cs
  reads : ∀ {gap cs rest : List Char}, Blanks gap → Spells t cs → Delimited rest →
    c.read (gap ++ (cs ++ rest)) = .ok (x, rest)

/-- A codec reads a value back from what it writes. -/
abbrev Codec.ReadsBack (c : Codec α) (x : α) : Prop := c.Reads (c.tree x) x

/-- A codec reads back whatever it writes. -/
structure Codec.Faithful (c : Codec α) : Prop where
  solid : ∀ {x : α} {cs : List Char}, Spells (c.tree x) cs → Solid cs
  reads : ∀ {x : α} {gap cs rest : List Char}, Blanks gap → Spells (c.tree x) cs →
    Delimited rest → c.read (gap ++ (cs ++ rest)) = .ok (x, rest)

theorem Codec.Faithful.readsBack (h : c.Faithful) (x : α) : c.ReadsBack x := ⟨h.solid, h.reads⟩

/-- The texts of a tree are documents of the value that is read from it. -/
theorem Codec.Reads.parse_of_spells {t : Tree} {x : α} (h : c.Reads t x) (hs : Spells t cs) :
    c.parse (String.ofList cs) = .ok x := by
  have hread := h.reads blanks_nil hs delimited_nil
  rw [List.nil_append, List.append_nil] at hread
  rw [parse, readAll, String.toList_ofList, hread]
  rfl

/-- The pretty document of a value holds the value. -/
theorem Codec.ReadsBack.parse_pretty {x : α} (h : c.ReadsBack x) :
    c.parse (c.pretty x) = .ok x :=
  h.parse_of_spells (spells_prettyAt 0 (c.tree x))

theorem Codec.Faithful.parse_pretty (h : c.Faithful) (x : α) : c.parse (c.pretty x) = .ok x :=
  (h.readsBack x).parse_pretty

/-- The compact document of a value holds the value. -/
theorem Codec.Faithful.parse_compact (h : c.Faithful) (x : α) :
    c.parse (c.compact x) = .ok x :=
  (h.readsBack x).parse_of_spells (spells_compact (c.tree x))

/-- Different values have different compact documents. -/
theorem Codec.Faithful.compact_inj (h : c.Faithful) {x y : α} (hxy : c.compact x = c.compact y) :
    x = y :=
  Except.ok.inj ((h.parse_compact x).symm.trans (hxy ▸ h.parse_compact y))

/-! ## Lists and maps -/

theorem SpellsItems.length_lt {ts : List Tree} (h : SpellsItems false ts cs) :
    ts.length < cs.length := by
  induction ts generalizing cs with
  | nil =>
    cases h
    simp
  | cons t ts ih =>
    cases h with
    | cons hl ht hts =>
      cases hl
      have hlt := ih hts
      simp only [List.length_append, List.length_cons]
      omega

theorem SpellsItems.length_le {ts : List Tree} (h : SpellsItems first ts cs) :
    ts.length ≤ cs.length := by
  cases h with
  | nil => exact Nat.zero_le _
  | cons hl ht hts =>
    have hlt := hts.length_lt
    simp only [List.length_append, List.length_cons]
    omega

theorem SpellsMembers.length_lt {ms : List (String × Tree)} (h : SpellsMembers first ms cs) :
    ms.length < cs.length := by
  induction ms generalizing first cs with
  | nil =>
    cases h
    simp
  | cons m ms ih =>
    cases h with
    | cons hl hg hg' ht hms =>
      have hlt := ih hms
      simp only [List.length_append, List.length_cons]
      omega

/-- An array has fewer items than the fuel that it is read with. -/
theorem SpellsItems.length_lt_fuel {ts : List Tree} (h : SpellsItems first ts cs)
    (rest : List Char) : ts.length < (cs ++ rest).length + 1 := by
  have hle := h.length_le
  rw [List.length_append]
  omega

/-- An object has fewer members than the fuel that it is read with. -/
theorem SpellsMembers.length_lt_fuel {ms : List (String × Tree)} (h : SpellsMembers first ms cs)
    (rest : List Char) : ms.length < (cs ++ rest).length + 1 := by
  have hlt := h.length_lt
  rw [List.length_append]
  omega

/-- The items of an array are read one after the other. -/
theorem readItems_of_spells {ts : List Tree} {xs : List α} (hread : List.Forall₂ c.Reads ts xs)
    (seen : List α) (rest : List Char) (h : SpellsItems first ts cs) (hfuel : ts.length < fuel) :
    readItems c.read fuel first seen (cs ++ rest) = .ok (seen.reverse ++ xs, rest) := by
  induction hread generalizing first fuel seen cs with
  | nil =>
    obtain ⟨fuel, rfl⟩ := Nat.exists_eq_succ_of_ne_zero (Nat.ne_of_gt hfuel)
    cases h with
    | nil hg =>
      rw [List.append_assoc, List.append_nil, readItems]
      simp only [List.singleton_append, nextItem_closed hg]
      rfl
  | @cons t x ts xs hx hxs ih =>
    obtain ⟨fuel, rfl⟩ := Nat.exists_eq_succ_of_ne_zero (Nat.ne_of_gt (Nat.zero_lt_of_lt hfuel))
    cases h with
    | cons hl ht hts =>
      have hread := hx.reads blanks_nil ht (hts.delimited rest)
      have hrest := ih (x :: seen) hts (Nat.lt_of_succ_lt_succ hfuel)
      rw [List.nil_append] at hread
      rw [List.append_assoc, List.append_assoc, readItems]
      simp only [nextItem_append hl (hx.solid ht).append, hread, hrest, Bind.bind, Except.bind]
      rw [List.reverse_cons, List.append_assoc, List.singleton_append]

/-- The members of an object are read back one after the other. -/
theorem readMembers_of_spells {es : List (String × α)} (hes : ∀ e ∈ es, c.ReadsBack e.2)
    (seen : List (String × α)) (rest : List Char)
    (h : SpellsMembers first (es.map fun e => (e.1, c.tree e.2)) cs)
    (hfuel : es.length < fuel) :
    readMembers c.read fuel first seen (cs ++ rest) = .ok (seen.reverse ++ es, rest) := by
  induction es generalizing first fuel seen cs with
  | nil =>
    obtain ⟨fuel, rfl⟩ := Nat.exists_eq_succ_of_ne_zero (Nat.ne_of_gt hfuel)
    cases h with
    | nil hg =>
      rw [List.append_assoc, List.append_nil, readMembers]
      simp only [List.singleton_append, nextName_closed hg]
      rfl
  | cons e es ih =>
    obtain ⟨fuel, rfl⟩ := Nat.exists_eq_succ_of_ne_zero (Nat.ne_of_gt (Nat.zero_lt_of_lt hfuel))
    cases h with
    | cons hl hg hg' ht hms =>
      obtain ⟨he, hes⟩ := List.forall_mem_cons.1 hes
      have hread := he.reads hg' ht (hms.delimited rest)
      have hrest := ih hes (e :: seen) hms (Nat.lt_of_succ_lt_succ hfuel)
      obtain ⟨tail, htail, hname⟩ := quote_append e.1 _
      simp only [List.append_assoc, List.cons_append]
      rw [htail, readMembers]
      simp only [nextName_append hl, hname, readColon_append hg, hread, hrest, Bind.bind,
        Except.bind]
      rw [List.reverse_cons, List.append_assoc, List.singleton_append]

/-- Binding the entries of a map anew, in order, gives the map. -/
theorem ofList_entries (m : SortedMap String α) : SortedMap.ofList m.entries = m := by
  have hfold (es : List (String × α)) (n : SortedMap String α)
      (h : (n.entries ++ es).Pairwise fun a b => compare a.1 b.1 = .lt) :
      (es.foldl (fun n e => n.insert e.1 e.2) n).entries = n.entries ++ es := by
    induction es generalizing n with
    | nil => exact (List.append_nil _).symm
    | cons e es ih =>
      have hlast : (n.insert e.1 e.2).entries = n.entries ++ [e] :=
        SortedMap.insertEntry_of_forall_gt fun d hd =>
          Std.OrientedCmp.gt_of_lt ((List.pairwise_append.1 h).2.2 d hd e List.mem_cons_self)
      have hsplit : (n.insert e.1 e.2).entries ++ es = n.entries ++ e :: es := by
        rw [hlast, List.append_assoc, List.singleton_append]
      rw [List.foldl_cons, ih _ (hsplit ▸ h), hsplit]
  exact SortedMap.ext ((hfold m.entries ∅ m.sorted).trans (List.nil_append _))

theorem exists_digit_text (n : UInt64) : ∃ d ds, (Number.natural n).text = d :: ds ∧ d.isDigit := by
  obtain ⟨d, ds, hds⟩ := List.exists_cons_of_ne_nil (Nat.toDigits_ne_nil (b := 10) (n := n.toNat))
  exact ⟨d, ds, hds, isDigit_toDigits (hds ▸ List.mem_cons_self)⟩

/-- A number is not written like the beginning of `null`. -/
theorem head?_text_natural_ne (n : UInt64) : (Number.natural n).text.head? ≠ some 'n' := by
  obtain ⟨d, ds, hds, hd⟩ := exists_digit_text n
  rw [hds]
  rintro ⟨⟩
  exact absurd hd (by decide)

theorem isBlank_of_isDigit (h : d.isDigit = true) : isBlank d = false := by
  rw [Bool.eq_false_iff]
  intro hblank
  simp only [isBlank, Bool.or_eq_true, beq_iff_eq] at hblank
  rcases hblank with ((rfl | rfl) | rfl) | rfl <;> exact absurd h (by decide)

/-- An array is read if its items are. -/
theorem Codec.Reads.list {ts : List Tree} {xs : List α} (h : List.Forall₂ c.Reads ts xs) :
    (Codec.list c).Reads (.array ts) xs where
  solid h := by
    cases h
    exact ⟨'[', _, rfl, rfl, by decide⟩
  reads {gap cs rest} hg hs hrest := by
    cases hs with
    | @array _ cs hs =>
      have hread := readItems_of_spells h [] rest hs (hs.length_lt_fuel rest)
      have hskip : skipBlanks (gap ++ '[' :: (cs ++ rest)) = '[' :: (cs ++ rest) :=
        skipBlanks_append_cons hg rfl
      rw [Codec.list, List.cons_append]
      simp only [hskip]
      exact hread

/-- A map is read back if its values are. -/
theorem Codec.ReadsBack.map {m : SortedMap String α} (hm : ∀ e ∈ m.entries, c.ReadsBack e.2) :
    (Codec.map c).ReadsBack m where
  solid h := by
    cases h
    exact ⟨'{', _, rfl, rfl, by decide⟩
  reads {gap cs rest} hg h hrest := by
    cases h with
    | @object _ cs h =>
      have hlength := h.length_lt_fuel rest
      rw [List.length_map] at hlength
      have hread := readMembers_of_spells hm [] rest h hlength
      have hskip : skipBlanks (gap ++ '{' :: (cs ++ rest)) = '{' :: (cs ++ rest) :=
        skipBlanks_append_cons hg rfl
      rw [Codec.map, List.cons_append]
      simp only [hskip, hread, Bind.bind, Except.bind]
      rw [List.reverse_nil, List.nil_append, ofList_entries]
      rfl

namespace Codec.Faithful

theorem map (hc : c.Faithful) : (Codec.map c).Faithful :=
  have hread (m : SortedMap String α) : (Codec.map c).ReadsBack m :=
    .map fun e _ => hc.readsBack e.2
  ⟨fun h => (hread _).solid h, (hread _).reads⟩

/-! ## Single values -/

/-- Strings are read back under whatever name they are wanted. -/
theorem readString (wanted : String) :
    (Codec.mk (Codec.readString wanted) Tree.string).Faithful where
  solid h := by
    cases h
    exact ⟨'"', _, rfl, rfl, by decide⟩
  reads {s gap cs rest} hg h hrest := by
    cases h
    obtain ⟨tail, htail, hs⟩ := quote_append s rest
    have hskip : skipBlanks (gap ++ '"' :: tail) = '"' :: tail := skipBlanks_append_cons hg rfl
    rw [htail]
    simp only [Codec.readString, hskip]
    exact hs

theorem string : Codec.string.Faithful := readString "a string"

/-- A number below a bound that 64 bits can hold is read back. -/
theorem natural {wanted : String} {bound : Nat} {ofNat : Nat → α} {toNat : α → Nat}
    (hbound : bound ≤ UInt64.size) (hlt : ∀ x, toNat x < bound)
    (hinv : ∀ x, ofNat (toNat x) = x) :
    (Codec.natural wanted bound ofNat toNat).Faithful where
  solid h := by
    cases h
    obtain ⟨d, ds, hds, hd⟩ := exists_digit_text (UInt64.ofNat (toNat _))
    refine ⟨d, ds, hds, isBlank_of_isDigit hd, ?_⟩
    rintro rfl
    exact absurd hd (by decide)
  reads {x gap cs rest} hg h hrest := by
    cases h
    have hvalue : (UInt64.ofNat (toNat x)).toNat = toNat x :=
      UInt64.toNat_ofNat_of_lt (Nat.lt_of_lt_of_le (hlt x) hbound)
    -- The reader decides by the first digit that there is a number.
    obtain ⟨d, ds, hds, hd⟩ := exists_digit_text (UInt64.ofNat (toNat x))
    have hread := readNumber_natural (UInt64.ofNat (toNat x)) hrest
    have hskip : skipBlanks (gap ++ d :: (ds ++ rest)) = d :: (ds ++ rest) :=
      skipBlanks_append_cons hg (isBlank_of_isDigit hd)
    have hstart : startsNumber d = true := by rw [startsNumber, hd, Bool.or_true]
    rw [← Number.text, hds, List.cons_append] at hread
    rw [Codec.natural, hds, List.cons_append]
    simp only [hskip, hstart, hread, hvalue, hlt x, hinv, if_true, Bind.bind, Except.bind]
    rfl

theorem uint16 : Codec.uint16.Faithful :=
  natural (by decide) UInt16.toNat_lt_size fun _ => UInt16.ofNat_toNat

theorem uint32 : Codec.uint32.Faithful :=
  natural (by decide) UInt32.toNat_lt_size fun _ => UInt32.ofNat_toNat

theorem uint64 : Codec.uint64.Faithful :=
  natural (Nat.le_refl _) UInt64.toNat_lt_size fun _ => UInt64.ofNat_toNat

end Codec.Faithful

theorem Codec.Reads.none (c : Codec α) : (Codec.option c).Reads .null none where
  solid h := by
    cases h
    exact ⟨'n', _, rfl, rfl, by decide⟩
  reads {gap cs rest} hg h hrest := by
    cases h
    have hskip : skipBlanks (gap ++ 'n' :: 'u' :: 'l' :: 'l' :: rest) =
        'n' :: 'u' :: 'l' :: 'l' :: rest := skipBlanks_append_cons hg rfl
    rw [Codec.option]
    simp only [List.cons_append, List.nil_append, hskip]
    rfl

/-- What is not written like the beginning of nothing is something. -/
theorem Codec.Reads.some {t : Tree} {x : α} (h : c.Reads t x)
    (hn : ∀ {cs : List Char}, Spells t cs → cs.head? ≠ some 'n') :
    (Codec.option c).Reads t (some x) where
  solid := h.solid
  reads {gap cs rest} hg hs hrest := by
    have hread := h.reads blanks_nil hs hrest
    obtain ⟨d, ds, rfl, hd, -⟩ := h.solid hs
    have hne : d ≠ 'n' := fun hd => hn hs (congrArg Option.some hd)
    have hskip : skipBlanks (gap ++ d :: (ds ++ rest)) = d :: (ds ++ rest) :=
      skipBlanks_append_cons hg hd
    rw [Codec.option, List.cons_append]
    simp only [hskip]
    split
    · next heq => exact absurd (List.cons.inj heq).1 hne
    · rw [List.nil_append, List.cons_append] at hread
      simp only [hread, Bind.bind, Except.bind]
      rfl

namespace Codec.Faithful

/-- Only nothing may be written like the beginning of nothing. -/
theorem option (hc : c.Faithful)
    (hn : ∀ {x : α} {cs : List Char}, Spells (c.tree x) cs → cs.head? ≠ some 'n') :
    (Codec.option c).Faithful := by
  have hread (x : Option α) : (Codec.option c).ReadsBack x := by
    cases x with
    | none => exact .none c
    | some x => exact .some (hc.readsBack x) hn
  exact ⟨fun h => (hread _).solid h, (hread _).reads⟩

theorem choice {variants : List (String × α)} {name : α → String}
    (h : ∀ x, variants.lookup (name x) = some x) : (Codec.choice variants name).Faithful where
  solid h := by
    cases h
    exact ⟨'"', _, rfl, rfl, by decide⟩
  reads {x gap cs rest} hg hs hrest := by
    cases hs
    obtain ⟨tail, htail, hread⟩ := quote_append (name x) rest
    have hskip : skipBlanks (gap ++ '"' :: tail) = '"' :: tail := skipBlanks_append_cons hg rfl
    rw [Codec.choice, htail]
    simp only [hskip, if_true, hread, variant, h x, Bind.bind, Except.bind]
    rfl

end Codec.Faithful

/-! ## Records -/

/-- The value that is taken where a member is left out of an object. -/
def Omission.value? : Omission α → Option α
  | .never => none
  | .inObjects x => some x
  | .anywhere x => some x

namespace Members

/-- The names of the members. -/
def names : {β : Type} → Members β → List String
  | _, .nil => []
  | _, .cons name _ _ rest => name :: rest.names

/-- Every member reads back its value in a record, and no two of them share a name. -/
def ReadsBack : {β : Type} → Members β → β → Prop
  | _, .nil, _ => True
  | _, .cons name codec _ rest, (x, xs) =>
    codec.ReadsBack x ∧ name ∉ rest.names ∧ rest.ReadsBack xs

/-- The member of a name reads its value in a record from a tree. -/
def Fits : {β : Type} → Members β → β → String → Tree → Prop
  | _, .nil, _, _, _ => False
  | _, .cons name codec _ rest, (x, xs), key, t =>
    key = name ∧ codec.Reads t x ∨ rest.Fits xs key t

/-- All members but those of some names have the values that are taken in their places. -/
def Spares (keys : List String) : {β : Type} → Members β → β → Prop
  | _, .nil, _ => True
  | _, .cons name _ omission rest, (x, xs) =>
    (name ∈ keys ∨ omission.value? = some x) ∧ rest.Spares keys xs

/-- The members of some names have been read, and had the values of a record. -/
def draft (keys : List String) : {β : Type} → (m : Members β) → β → m.Draft
  | _, .nil, _ => ()
  | _, .cons name _ _ rest, (x, xs) =>
    (if name ∈ keys then some x else none, rest.draft keys xs)

variable {m : Members β} {x : β} {key : String} {keys : List String}

theorem ReadsBack.nodup_names (hm : m.ReadsBack x) : m.names.Nodup := by
  induction m with
  | nil => exact List.nodup_nil
  | cons name codec omission rest ih => exact List.nodup_cons.2 ⟨hm.2.1, ih hm.2.2⟩

theorem ReadsBack.fits (hm : m.ReadsBack x) : ∀ e ∈ m.trees x, m.Fits x e.1 e.2 := by
  induction m with
  | nil => exact List.forall_mem_nil _
  | cons name codec omission rest ih =>
    obtain ⟨hcodec, -, hrest⟩ := hm
    exact List.forall_mem_cons.2 ⟨.inl ⟨rfl, hcodec⟩, fun e he => .inr (ih hrest e he)⟩

theorem Fits.mem_names {t : Tree} (h : m.Fits x key t) : key ∈ m.names := by
  induction m with
  | nil => exact h.elim
  | cons name codec omission rest ih =>
    rcases h with ⟨rfl, -⟩ | h
    · exact List.mem_cons_self
    · exact List.mem_cons_of_mem _ (ih h)

theorem spares_of_subset (h : ∀ name ∈ m.names, name ∈ keys) : m.Spares keys x := by
  induction m with
  | nil => trivial
  | cons name codec omission rest ih =>
    obtain ⟨hname, hrest⟩ := List.forall_mem_cons.1 h
    exact ⟨.inl hname, ih hrest⟩

theorem Spares.mono {more : List String} (h : m.Spares keys x)
    (hmore : ∀ name ∈ keys, name ∈ more) : m.Spares more x := by
  induction m with
  | nil => trivial
  | cons name codec omission rest ih => exact ⟨h.1.imp_left (hmore name), ih h.2⟩

theorem draft_nil (m : Members β) (x : β) : m.draft [] x = m.blank := by
  induction m with
  | nil => rfl
  | cons name codec omission rest ih =>
    obtain ⟨x, xs⟩ := x
    rw [draft, blank, ih xs, if_neg List.not_mem_nil]

/-- A name that is no member's changes nothing. -/
theorem draft_cons_of_notMem (h : key ∉ m.names) : m.draft (key :: keys) x = m.draft keys x := by
  induction m with
  | nil => rfl
  | cons name codec omission rest ih =>
    obtain ⟨hname, hrest⟩ := not_or.1 (fun hmem => h (List.mem_cons.2 hmem))
    have hmem : name ∈ key :: keys ↔ name ∈ keys :=
      List.mem_cons.trans (or_iff_right fun he => hname he.symm)
    obtain ⟨x, xs⟩ := x
    simp only [draft, hmem, ih hrest]
    rfl

theorem names_eq_map_trees (m : Members β) (x : β) : m.names = (m.trees x).map (·.1) := by
  induction m with
  | nil => rfl
  | cons name codec omission rest ih => exact congrArg _ (ih x.2)

/-- A member that was not read before has a vacant slot, and reading it from its text puts the
value of the record there. -/
theorem slot_draft {t : Tree} (hm : m.names.Nodup) (ht : m.Fits x key t) (hkey : key ∉ keys) :
    ∃ read, m.slot key (m.draft keys x) = .vacant read ∧
      ∀ {gap cs rest : List Char}, Blanks gap → Spells t cs → Delimited rest →
        read (gap ++ (cs ++ rest)) = .ok (m.draft (key :: keys) x, rest) := by
  induction m with
  | nil => exact ht.elim
  | cons name codec omission rest ih =>
    obtain ⟨x, xs⟩ := x
    obtain ⟨hname, hrest⟩ := List.nodup_cons.1 hm
    rcases ht with ⟨rfl, hcodec⟩ | ht
    · have hxs : rest.draft (key :: keys) xs = rest.draft keys xs := draft_cons_of_notMem hname
      simp only [slot, draft, if_true, if_neg hkey, hxs, List.mem_cons_self]
      refine ⟨_, rfl, fun hg hs hd => ?_⟩
      rw [hcodec.reads hg hs hd]
      rfl
    · -- The field stands further on, and this one keeps what the draft has of it.
      have hne : key ≠ name := fun he => hname (he ▸ ht.mem_names)
      have hmem : name ∈ key :: keys ↔ name ∈ keys :=
        List.mem_cons.trans (or_iff_right fun he => hne he.symm)
      obtain ⟨read, hslot, hread⟩ := ih hrest ht
      simp only [slot, draft, if_neg hne, hslot, hmem]
      refine ⟨_, rfl, fun hg hs hd => ?_⟩
      rw [hread hg hs hd]
      rfl

/-- All members of a record have been read, but for those that may be missing. -/
theorem complete_draft (h : m.Spares keys x) : m.complete (m.draft keys x) = .ok x := by
  induction m with
  | nil => rfl
  | cons name codec omission rest ih =>
    obtain ⟨x, xs⟩ := x
    obtain ⟨hname, hrest⟩ := h
    simp only [complete, draft, ih hrest, Bind.bind, Except.bind]
    by_cases hmem : name ∈ keys
    · rw [if_pos hmem]
      rfl
    · rw [if_neg hmem]
      cases omission with
      | never => cases hname.resolve_left hmem
      | _ =>
        cases hname.resolve_left hmem
        rfl

/-- The next member goes from those that are to be read to those that have been read. -/
theorem readObject_member {lead gap' : List Char} {t : Tree} (hm : m.names.Nodup)
    (hfits : m.Fits x key t) (hkey : key ∉ keys) (hl : Lead first lead) (hg : Blanks gap)
    (hg' : Blanks gap') (ht : Spells t cs) (hrest : Delimited rest) :
    m.readObject (fuel + 1) first (m.draft keys x)
        (lead ++ (quote key ++ (gap ++ ':' :: (gap' ++ (cs ++ rest))))) =
      m.readObject fuel false (m.draft (key :: keys) x) rest := by
  obtain ⟨read, hslot, hread⟩ := slot_draft hm hfits hkey
  obtain ⟨tail, htail, hname⟩ := quote_append key _
  rw [htail, readObject]
  simp only [nextName_append hl, hname, hslot, readColon_append hg, hread hg' ht hrest, Bind.bind,
    Except.bind]

/-- Members that are written in any order, and make a record with those read before and those that
may be missing, are read to the record. -/
theorem readObject_of_spells (hm : m.names.Nodup) (keys : List String) (rest : List Char)
    {todo : List (String × Tree)} (htodo : ∀ e ∈ todo, m.Fits x e.1 e.2)
    (hnodup : (todo.map (·.1) ++ keys).Nodup) (hall : m.Spares (todo.map (·.1) ++ keys) x)
    (h : SpellsMembers first todo cs) (hfuel : todo.length < fuel) :
    m.readObject fuel first (m.draft keys x) (cs ++ rest) = .ok (x, rest) := by
  -- The draft holds the fields of the names read so far, and at the end of all that are not spared.
  induction todo generalizing first fuel keys cs with
  | nil =>
    obtain ⟨fuel, rfl⟩ := Nat.exists_eq_succ_of_ne_zero (Nat.ne_of_gt hfuel)
    cases h with
    | nil hg =>
      have hcomplete : m.complete (m.draft keys x) = .ok x := complete_draft hall
      rw [List.append_assoc, readObject]
      simp only [List.singleton_append, nextName_closed hg, hcomplete]
      rfl
  | cons e todo ih =>
    obtain ⟨fuel, rfl⟩ := Nat.exists_eq_succ_of_ne_zero (Nat.ne_of_gt (Nat.zero_lt_of_lt hfuel))
    cases h with
    | @cons _ _ _ _ _ _ k t _ hl hg hg' ht hms =>
      obtain ⟨hfits, htodo⟩ := List.forall_mem_cons.1 htodo
      have hperm : (((k, t) :: todo).map (·.1) ++ keys).Perm (todo.map (·.1) ++ k :: keys) :=
        List.perm_middle.symm
      have hkey : k ∉ keys := fun hk =>
        (List.nodup_cons.1 hnodup).1 (List.mem_append_right _ hk)
      have hrest := ih _ htodo (hperm.nodup_iff.1 hnodup)
        (hall.mono fun name => hperm.mem_iff.1) hms (Nat.lt_of_succ_lt_succ hfuel)
      simp only [List.append_assoc, List.cons_append]
      exact (readObject_member hm hfits hkey hl hg hg' ht (hms.delimited rest)).trans hrest

end Members

/-- A record is read if the members that are there are, each of them once, and the others have the
values that are taken in their places. -/
theorem Codec.Reads.record {name : String} {m : Members β} {ofMembers : β → α}
    {toMembers : α → β} {x : α} {ms : List (String × Tree)} (hm : m.names.Nodup)
    (hfits : ∀ e ∈ ms, m.Fits (toMembers x) e.1 e.2) (hnodup : (ms.map (·.1)).Nodup)
    (hall : m.Spares (ms.map (·.1)) (toMembers x)) (hinv : ofMembers (toMembers x) = x) :
    (Codec.record name m ofMembers toMembers).Reads (.object ms) x where
  solid h := by
    cases h
    exact ⟨'{', _, rfl, rfl, by decide⟩
  reads {gap cs rest} hg h hrest := by
    cases h with
    | @object _ cs h =>
      have hread := Members.readObject_of_spells hm [] rest hfits
        (by rwa [List.append_nil]) (by rwa [List.append_nil]) h (h.length_lt_fuel rest)
      have hskip : skipBlanks (gap ++ '{' :: (cs ++ rest)) = '{' :: (cs ++ rest) :=
        skipBlanks_append_cons hg rfl
      rw [Members.draft_nil] at hread
      rw [Codec.record, List.cons_append]
      simp only [hskip, hread, hinv, Bind.bind, Except.bind]
      rfl

/-- A record is read back if the values of its members are. -/
theorem Codec.ReadsBack.record {name : String} {m : Members β} {ofMembers : β → α}
    {toMembers : α → β} {x : α} (hm : m.ReadsBack (toMembers x))
    (hinv : ofMembers (toMembers x) = x) :
    (Codec.record name m ofMembers toMembers).ReadsBack x := by
  have hnames := Members.names_eq_map_trees m (toMembers x)
  refine Codec.Reads.record hm.nodup_names hm.fits (hnames ▸ hm.nodup_names)
    (Members.spares_of_subset fun _ hname => ?_) hinv
  rwa [← hnames]

end ClusterKeeper.Json
