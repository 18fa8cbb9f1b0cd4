/-
# States of resources read back

A state whose attributes hold whole numbers only is read back from its document if no attribute has
more than 125 levels: the document itself has two, and the reader goes down to 127. With one more
level the document is still written, but nothing can read it.
-/

import ClusterKeeper.Cloud.State
import ClusterKeeper.Proofs.Cluster.Document
import ClusterKeeper.Proofs.Json.Levels

namespace ClusterKeeper

open Json

theorem ResourceKind.faithful_codec : ResourceKind.codec.Faithful :=
  .choice fun kind => by cases kind <;> rfl

theorem ResourceStatus.faithful_codec : ResourceStatus.codec.Faithful :=
  .choice fun status => by cases status <;> rfl

namespace ResourceState

variable {s : ResourceState}

/-- A state is read back if its attributes are. -/
theorem readsBack_codec
    (h : ∀ e ∈ s.attributes.entries, (Value.codec attributeLevels).ReadsBack e.2) :
    codec.ReadsBack s := by
  rw [codec]
  exact .record ⟨faithful_optionString.readsBack _, by decide,
    ResourceKind.faithful_codec.readsBack _, by decide, Codec.Faithful.string.readsBack _,
    by decide, ResourceStatus.faithful_codec.readsBack _, by decide, .map h, by decide,
    (Codec.Faithful.map .string).readsBack _, by decide, trivial⟩ rfl

/-- The document of attributes is refused if one of them has too many levels. -/
theorem refuses_attributes {attributes : SortedMap String Value}
    (h : ∃ e ∈ attributes.entries, attributeLevels < e.2.tree.levels) :
    (Codec.map (Value.codec attributeLevels)).TakesOnlyIf
      ((Codec.map (Value.codec attributeLevels)).tree attributes) False := by
  obtain ⟨e, he, hdeep⟩ := h
  have htakes : (Codec.map (Value.codec attributeLevels)).TakesOnlyIf
      (.object (attributes.entries.map fun e => (e.1, e.2.tree)))
      (∀ m ∈ attributes.entries.map fun e => (e.1, e.2.tree), m.2.levels ≤ attributeLevels) :=
    .map (P := (·.levels ≤ attributeLevels)) fun m _ => .value attributeLevels m.2
  exact htakes.mono fun hall => Nat.not_le_of_lt hdeep (hall _ (List.mem_map_of_mem he))

/-- The document of a state, with its attributes behind four other members. -/
theorem tree_codec (s : ResourceState) :
    codec.tree s = .object ([("identifier", (Codec.option .string).tree s.identifier),
      ("kind", ResourceKind.codec.tree s.kind), ("name", Codec.string.tree s.name),
      ("status", ResourceStatus.codec.tree s.status)] ++
      ("attributes", (Codec.map (Value.codec attributeLevels)).tree s.attributes) ::
        [("tags", (Codec.map .string).tree s.tags)]) := rfl

/-- A state with an attribute of too many levels has a document that cannot be read: all members
before the attributes are read, and the attributes are refused. -/
theorem parse_of_deep (h : ∃ e ∈ s.attributes.entries, attributeLevels < e.2.tree.levels) :
    codec.parse (codec.compact s) = .error .malformed := by
  have hspells := spells_compact (codec.tree s)
  have hidentifier := faithful_optionString.readsBack s.identifier
  have hkind := ResourceKind.faithful_codec.readsBack s.kind
  have hname := Codec.Faithful.string.readsBack s.name
  have hstatus := ResourceStatus.faithful_codec.readsBack s.status
  have hnames : ["attributes", "identifier", "kind", "name", "status"].Nodup := by decide
  rw [tree_codec] at hspells
  refine Codec.parse_record_of_refuses (by decide)
    (x := (s.identifier, s.kind, s.name, s.status, s.attributes, s.tags, ())) ?_ hnames ?_ hspells
  · simp only [List.forall_mem_cons]
    exact ⟨.inl ⟨rfl, hidentifier⟩, .inr (.inl ⟨rfl, hkind⟩), .inr (.inr (.inl ⟨rfl, hname⟩)),
      .inr (.inr (.inr (.inl ⟨rfl, hstatus⟩))), List.forall_mem_nil _⟩
  · exact .inr (.inr (.inr (.inr (.inl ⟨rfl, refuses_attributes h⟩))))

/-- The document of a state has two levels more than any of its attributes. -/
theorem levels_add_two_le {e : String × Value} (he : e ∈ s.attributes.entries) :
    e.2.tree.levels + 2 ≤ (codec.tree s).levels := by
  have hmem : (e.1, e.2.tree) ∈ s.attributes.entries.map fun e => (e.1, e.2.tree) :=
    List.mem_map_of_mem he
  have hattribute : e.2.tree.levels <
      ((Codec.map (Value.codec attributeLevels)).tree s.attributes).levels :=
    Tree.levels_lt_of_mem hmem
  rw [tree_codec]
  exact Nat.lt_of_le_of_lt hattribute
    (Tree.levels_lt_of_mem (m := ("attributes", _)) (List.mem_append_right _ List.mem_cons_self))

/-- A state of whole numbers is read back from its document, and so are all its attributes in
whatever form, if none of them has more than 125 levels. If one has, the document is written all
the same, with its 128 levels or more, and cannot be read. -/
theorem comes_back_within_levels (s : ResourceState) :
    ((∀ e ∈ s.attributes.entries, e.2.tree.Exact ∧ e.2.tree.levels ≤ 125) →
      codec.parse (codec.compact s) = .ok s ∧
        ∀ {α : Type} (read : Value → Option α) (key : String),
          (codec.parse (codec.compact s)).map (·.attribute? read key) =
            .ok (s.attribute? read key)) ∧
    ((∃ e ∈ s.attributes.entries, 125 < e.2.tree.levels) →
      Spells (codec.tree s) (codec.compact s).toList ∧ 128 ≤ (codec.tree s).levels ∧
        codec.parse (codec.compact s) = .error .malformed) := by
  constructor
  · intro h
    have hvalues (e : String × Value) (he : e ∈ s.attributes.entries) :
        (Value.codec attributeLevels).ReadsBack e.2 :=
      Value.readsBack_codec (h e he).1 (h e he).2
    have hparse : codec.parse (codec.compact s) = .ok s :=
      (readsBack_codec hvalues).parse_of_spells (spells_compact _)
    refine ⟨hparse, fun read key => ?_⟩
    rw [hparse]
    rfl
  · intro h
    obtain ⟨e, he, hdeep⟩ := h
    refine ⟨?_, Nat.le_trans (Nat.add_le_add_right hdeep 2) (levels_add_two_le he),
      parse_of_deep ⟨e, he, hdeep⟩⟩
    rw [Codec.compact, String.toList_ofList]
    exact spells_compact _

end ResourceState

/-! ## A number within arrays -/

namespace Json.Tree

/-- The least number of all within arrays of some levels. -/
def nested : Nat → Tree
  | 0 => .number (.negative ⟨0x7FFFFFFFFFFFFFFF, by decide⟩)
  | n + 1 => .array [nested n]

theorem levels_nested (n : Nat) : (nested n).levels = n := by
  induction n with
  | zero => rfl
  | succ n ih => simp [nested, levels, levelsOfItems, ih]

theorem exact_nested (n : Nat) : (nested n).Exact := by
  induction n with
  | zero => trivial
  | succ n ih => exact ⟨ih, trivial⟩

theorem canonical_nested (n : Nat) : (nested n).Canonical := by
  induction n with
  | zero => trivial
  | succ n ih => exact ⟨ih, trivial⟩

end Json.Tree

namespace ResourceState

/-- A subnet with an attribute of some levels. -/
def nested (n : Nat) : ResourceState where
  kind := .subnet
  name := "edge"
  attributes := SortedMap.insert ∅ "routes" ⟨.nested n, Tree.canonical_nested n⟩

/-- An attribute of 125 levels comes back, and one of 126 does not. -/
theorem nested_comes_back :
    (∀ e ∈ (nested 125).attributes.entries, e.2.tree.Exact ∧ e.2.tree.levels ≤ 125) ∧
      codec.parse (codec.compact (nested 125)) = .ok (nested 125) ∧
      (∃ e ∈ (nested 126).attributes.entries, 125 < e.2.tree.levels) ∧
      codec.parse (codec.compact (nested 126)) = .error .malformed := by
  have hshallow : ∀ e ∈ (nested 125).attributes.entries,
      e.2.tree.Exact ∧ e.2.tree.levels ≤ 125 :=
    List.forall_mem_singleton.2 ⟨Tree.exact_nested 125, Nat.le_of_eq (Tree.levels_nested 125)⟩
  have hdeep : ∃ e ∈ (nested 126).attributes.entries, 125 < e.2.tree.levels :=
    ⟨_, List.mem_singleton_self _, Nat.le_of_eq (Tree.levels_nested 126).symm⟩
  exact ⟨hshallow, ((comes_back_within_levels (nested 125)).1 hshallow).1, hdeep,
    ((comes_back_within_levels (nested 126)).2 hdeep).2.2⟩

end ResourceState

end ClusterKeeper
