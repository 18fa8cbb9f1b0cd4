/-
# Members left out of documents

A schema tells what a codec is made of: options, lists and records, down to single values. With it
a pointer into the document of a value leads to a member that may be left out, if the member has
the value that is taken in its place. Without any number of such members, at any depth, the
document still holds the value.
-/

import ClusterKeeper.Proofs.Json.RoundTrip

namespace ClusterKeeper.Json

variable {α β : Type}

/-! ## Parts of documents -/

/-- A step from a document into one of its parts. -/
inductive Key where
  | member (name : String)
  | item (position : Nat)
  deriving DecidableEq, Repr

/-- The steps from a document to one of its parts. -/
abbrev Pointer := List Key

namespace Tree

mutual

/-- A document without the members that are gone. -/
def without (gone : Pointer → Bool) : Tree → Tree
  | .array items => .array (itemsWithout gone 0 items)
  | .object members => .object (membersWithout gone members)
  | t => t

/-- The items of an array from a position on. -/
def itemsWithout (gone : Pointer → Bool) (position : Nat) : List Tree → List Tree
  | [] => []
  | t :: ts =>
    t.without (fun p => gone (.item position :: p)) :: itemsWithout gone (position + 1) ts

/-- The members of an object that are not gone. -/
def membersWithout (gone : Pointer → Bool) : List (String × Tree) → List (String × Tree)
  | [] => []
  | (name, t) :: ms =>
    if gone [.member name] then membersWithout gone ms
    else (name, t.without fun p => gone (.member name :: p)) :: membersWithout gone ms

end

mutual

/-- Nothing is gone, so the document is the same. -/
theorem without_eq_self {gone : Pointer → Bool} (h : ∀ p, gone p = false) :
    ∀ t : Tree, t.without gone = t
  | .array items => congrArg array (itemsWithout_eq_self h 0 items)
  | .object members => congrArg object (membersWithout_eq_self h members)
  | .null | .bool _ | .number _ | .string _ => rfl

theorem itemsWithout_eq_self {gone : Pointer → Bool} (h : ∀ p, gone p = false) (position : Nat) :
    ∀ ts : List Tree, itemsWithout gone position ts = ts
  | [] => rfl
  | t :: ts =>
    congrArg₂ List.cons (without_eq_self (fun _ => h _) t) (itemsWithout_eq_self h _ ts)

theorem membersWithout_eq_self {gone : Pointer → Bool} (h : ∀ p, gone p = false) :
    ∀ ms : List (String × Tree), membersWithout gone ms = ms
  | [] => rfl
  | (name, t) :: ms => by
    rw [membersWithout, if_neg (Bool.eq_false_iff.1 (h _)), without_eq_self (fun _ => h _) t,
      membersWithout_eq_self h ms]

end

/-- The names that are left are those that are not gone, in order. -/
theorem names_membersWithout (gone : Pointer → Bool) (ms : List (String × Tree)) :
    (membersWithout gone ms).map (·.1) =
      (ms.map (·.1)).filter fun name => !gone [.member name] := by
  induction ms with
  | nil => rfl
  | cons m ms ih =>
    rw [membersWithout, List.map_cons, List.filter_cons]
    by_cases h : gone [.member m.1] = true
    · rw [if_pos h, h]
      exact ih
    · rw [if_neg h, Bool.eq_false_iff.2 h]
      exact congrArg _ ih

end Tree

/-! ## Schemas -/

mutual

/-- What a codec is made of. Every part of it reads back what it writes. -/
inductive Schema : {α : Type} → Codec α → Type 1
  | single {α : Type} {c : Codec α} (hc : c.Faithful) : Schema c
  /-- Nothing is not written like any value. -/
  | option {α : Type} {c : Codec α} (schema : Schema c) (hc : ∀ x, ∃ ms, c.tree x = .object ms) :
      Schema (.option c)
  | list {α : Type} {c : Codec α} (schema : Schema c) : Schema (.list c)
  | record {α β : Type} {name : String} {m : Members β} {ofMembers : β → α} {toMembers : α → β}
      (fields : Fields m) (hm : m.names.Nodup) (hinv : ∀ x, ofMembers (toMembers x) = x) :
      Schema (.record name m ofMembers toMembers)

/-- What the members of a record are made of. -/
inductive Fields : {β : Type} → Members β → Type 1
  | nil : Fields .nil
  | cons {α β : Type} {name : String} {c : Codec α} {omission : Omission α} {m : Members β}
      (schema : Schema c) (rest : Fields m) : Fields (.cons name c omission m)

end

mutual

/-- A pointer leads to a member of the document of a value that may be left out, and that has what
is taken in its place. -/
def Schema.Omits : {α : Type} → {c : Codec α} → Schema c → α → Pointer → Prop
  | _, _, .single _, _, _ => False
  | _, _, .option _ _, none, _ => False
  | _, _, .option s _, some x, p => s.Omits x p
  | _, _, .list s, xs, .item i :: p => ∃ x, xs[i]? = some x ∧ s.Omits x p
  | _, _, .list _, _, _ => False
  | _, _, @Schema.record _ _ _ _ _ toMembers fields _ _, x, .member name :: p =>
    fields.Omits (toMembers x) name p
  | _, _, .record _ _ _, _, _ => False

/-- The member of a name may be left out with its value, or there is such a member within it. -/
def Fields.Omits : {β : Type} → {m : Members β} → Fields m → β → String → Pointer → Prop
  | _, _, .nil, _, _, _ => False
  | _, _, @Fields.cons _ _ name _ omission _ s rest, (x, xs), key, p =>
    key = name ∧ (p = [] ∧ omission.value? = some x ∨ s.Omits x p) ∨ rest.Omits xs key p

end

/-- The whole document is no member of it. -/
theorem Schema.not_omits_nil : ∀ {α : Type} {c : Codec α} (s : Schema c) (x : α), ¬s.Omits x []
  | _, _, .single _, _, h => h
  | _, _, .option _ _, none, h => h
  | _, _, .option s _, some x, h => s.not_omits_nil x h
  | _, _, .list _, _, h => h
  | _, _, .record _ _ _, _, h => h

theorem Fields.mem_names_of_omits {key : String} {p : Pointer} :
    ∀ {β : Type} {m : Members β} (fields : Fields m) {xs : β},
      fields.Omits xs key p → key ∈ m.names
  | _, _, .nil, _, h => h.elim
  | _, _, .cons _ rest, _, h => by
    rcases h with ⟨rfl, -⟩ | h
    · exact List.mem_cons_self
    · exact List.mem_cons_of_mem _ (rest.mem_names_of_omits h)

/-- What is gone from a record may be left out of its first member. -/
theorem Fields.omits_head {name : String} {c : Codec α} {omission : Omission α} {m : Members β}
    {s : Schema c} {rest : Fields m} {x : α} {xs : β} {p : Pointer} (hname : name ∉ m.names)
    (h : (@Fields.cons _ _ name _ omission _ s rest).Omits (x, xs) name p) :
    p = [] ∧ omission.value? = some x ∨ s.Omits x p := by
  rcases h with ⟨-, h⟩ | h
  · exact h
  · exact absurd (rest.mem_names_of_omits h) hname

/-- What is gone from a record and not from its first member may be left out of the others. -/
theorem Fields.omits_tail {name key : String} {c : Codec α} {omission : Omission α}
    {m : Members β} {s : Schema c} {rest : Fields m} {x : α} {xs : β} {p : Pointer}
    (hname : name ∉ m.names) (hkey : key ∈ m.names)
    (h : (@Fields.cons _ _ name _ omission _ s rest).Omits (x, xs) key p) :
    rest.Omits xs key p := by
  rcases h with ⟨rfl, -⟩ | h
  · exact absurd hkey hname
  · exact h

/-- A record may do without all members that may be left out with their values. -/
theorem Fields.spares {keys : List String} : ∀ {β : Type} {m : Members β} (fields : Fields m)
    (xs : β), m.names.Nodup → (∀ key ∈ m.names, key ∉ keys → fields.Omits xs key []) →
      m.Spares keys xs
  | _, _, .nil, _, _, _ => trivial
  | _, _, @Fields.cons _ _ name _ _ _ s rest, (x, xs), hm, h => by
    obtain ⟨hname, hm⟩ := List.nodup_cons.1 hm
    constructor
    · by_cases hmem : name ∈ keys
      · exact .inl hmem
      · rcases Fields.omits_head hname (h name List.mem_cons_self hmem) with ⟨-, hx⟩ | hx
        · exact .inr hx
        · exact absurd hx (s.not_omits_nil x)
    · exact rest.spares xs hm fun key hkey hgone =>
        Fields.omits_tail hname hkey (h key (List.mem_cons_of_mem _ hkey) hgone)

/-- The items of an array are read without what is gone from them. -/
theorem forall₂_itemsWithout {c : Codec α} {P : α → Pointer → Prop}
    (hread : ∀ (x : α) (gone : Pointer → Bool), (∀ p, gone p = true → P x p) →
      c.Reads ((c.tree x).without gone) x)
    {gone : Pointer → Bool} (xs : List α) (position : Nat)
    (h : ∀ i p, gone (.item (position + i) :: p) = true → ∃ x, xs[i]? = some x ∧ P x p) :
    List.Forall₂ c.Reads (Tree.itemsWithout gone position (xs.map c.tree)) xs := by
  induction xs generalizing position with
  | nil => exact .nil
  | cons x xs ih =>
    refine .cons (hread x _ fun p hp => ?_) (ih (position + 1) fun i p hp => ?_)
    · obtain ⟨y, hy, hP⟩ := h 0 p hp
      cases hy
      exact hP
    · rw [Nat.add_assoc, Nat.add_comm 1] at hp
      exact h (i + 1) p hp

mutual

/-- The document of a value still holds it without members that may be left out. -/
theorem Schema.reads_without : ∀ {α : Type} {c : Codec α} (s : Schema c) (x : α)
    {gone : Pointer → Bool}, (∀ p, gone p = true → s.Omits x p) →
      c.Reads ((c.tree x).without gone) x
  | _, c, .single hc, x, gone, h => by
    have hgone (p : Pointer) : gone p = false := Bool.eq_false_iff.2 (h p)
    rw [Tree.without_eq_self hgone]
    exact hc.readsBack x
  | _, _, @Schema.option _ c _ _, none, _, _ => .none c
  | _, _, @Schema.option _ c s hc, some x, _, h => by
    -- What is left of an object is an object, and so is not taken for `null`.
    refine .some (s.reads_without x h) fun {cs} hs => ?_
    obtain ⟨ms, hms⟩ := hc x
    have htree : (Codec.option c).tree (some x) = .object ms := hms
    rw [htree, Tree.without] at hs
    cases hs
    exact nofun
  | _, _, .list s, xs, _, h => by
    refine .list (forall₂_itemsWithout (fun x _ => s.reads_without x) xs 0 fun i p hp => ?_)
    rw [Nat.zero_add] at hp
    exact h _ hp
  | _, _, @Schema.record _ _ _ m _ toMembers fields hm hinv, x, gone, h => by
    have hnames : ((Tree.membersWithout gone (m.trees (toMembers x))).map (·.1)) =
        m.names.filter fun name => !gone [.member name] := by
      rw [Tree.names_membersWithout, ← Members.names_eq_map_trees]
    refine .record hm (fields.fits_without (toMembers x) hm fun key _ p hp => h _ hp) ?_ ?_ (hinv x)
    · rw [hnames]
      exact hm.filter _
    · rw [hnames]
      refine fields.spares (toMembers x) hm fun key hkey hgone => h [.member key] ?_
      by_contra hne
      exact hgone (List.mem_filter.2 ⟨hkey, by rw [Bool.eq_false_iff.2 hne]; rfl⟩)

/-- The members that are left of a record are read without what is gone from them. -/
theorem Fields.fits_without : ∀ {β : Type} {m : Members β} (fields : Fields m) (xs : β)
    {gone : Pointer → Bool}, m.names.Nodup →
      (∀ key ∈ m.names, ∀ p, gone (.member key :: p) = true → fields.Omits xs key p) →
      ∀ e ∈ Tree.membersWithout gone (m.trees xs), m.Fits xs e.1 e.2
  | _, _, .nil, _, _, _, _ => List.forall_mem_nil _
  | _, _, @Fields.cons _ _ name c _ m s rest, (x, xs), gone, hm, h => by
    obtain ⟨hname, hm⟩ := List.nodup_cons.1 hm
    have hrest := rest.fits_without xs hm fun key hkey p hp =>
      Fields.omits_tail hname hkey (h key (List.mem_cons_of_mem _ hkey) p hp)
    by_cases hgone : gone [.member name] = true
    -- What is gone from a member that is gone itself does not matter.
    · intro e he
      rw [Members.trees, Tree.membersWithout, if_pos hgone] at he
      exact .inr (hrest e he)
    · have hx : c.Reads ((c.tree x).without fun p => gone (.member name :: p)) x := by
        refine s.reads_without x fun p hp => ?_
        rcases Fields.omits_head hname (h name List.mem_cons_self p hp) with ⟨rfl, -⟩ | hx
        · exact absurd hp hgone
        · exact hx
      intro e he
      rw [Members.trees, Tree.membersWithout, if_neg hgone] at he
      rcases List.mem_cons.1 he with rfl | he
      · exact .inl ⟨rfl, hx⟩
      · exact .inr (hrest e he)

end

/-- The codec of a schema reads back whatever it writes. -/
theorem Schema.faithful {c : Codec α} (s : Schema c) : c.Faithful := by
  have hread (x : α) : c.ReadsBack x := by
    have h : c.Reads ((c.tree x).without fun _ => false) x := s.reads_without x fun _ => nofun
    rwa [Tree.without_eq_self fun _ => rfl] at h
  exact ⟨fun h => (hread _).solid h, (hread _).reads⟩

end ClusterKeeper.Json
