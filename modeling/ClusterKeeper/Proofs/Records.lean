/-
# Records of dialogues

What a dialogue can come to, whatever the world answers: a relation between a dialogue, the
record of its exchanges and its result. Every run of a dialogue with a world is an instance,
so what is proved of all records is proved of all worlds.
-/

import ClusterKeeper.Dialogue

namespace ClusterKeeper.Dialogue

variable {Q : Type} {A : Q → Type} {α β σ : Type}
variable {d : Dialogue A α} {f : α → Dialogue A β} {log : List (Exchange A)} {o : Option α}

/-- The dialogue comes to `o` when its questions get the answers of the record. It comes to
nothing when it is broken off. -/
inductive Ends : Dialogue A α → List (Exchange A) → Option α → Prop
  | done (x : α) : Ends (.done x) [] (some x)
  | brokenOff : Ends .brokenOff [] none
  | ask {q : Q} {next : A q → Dialogue A α} {a : A q} {log : List (Exchange A)} {o : Option α}
      (h : Ends (next a) log o) : Ends (.ask q next) (⟨q, a⟩ :: log) o

theorem ends_done_iff {x : α} : (done x : Dialogue A α).Ends log o ↔ log = [] ∧ o = some x := by
  constructor
  · rintro ⟨⟩
    exact ⟨rfl, rfl⟩
  · rintro ⟨rfl, rfl⟩
    exact .done x

theorem ends_brokenOff_iff :
    (brokenOff : Dialogue A α).Ends log o ↔ log = [] ∧ o = none := by
  constructor
  · rintro ⟨⟩
    exact ⟨rfl, rfl⟩
  · rintro ⟨rfl, rfl⟩
    exact .brokenOff

theorem ends_ask_iff {q : Q} {next : A q → Dialogue A α} :
    (ask q next).Ends log o ↔ ∃ a rest, log = ⟨q, a⟩ :: rest ∧ (next a).Ends rest o := by
  constructor
  · rintro (_ | _ | h)
    exact ⟨_, _, rfl, h⟩
  · rintro ⟨a, rest, rfl, h⟩
    exact .ask h

/-- A question comes first in the record, and then what its answer leads to. -/
theorem ends_question_bind_iff {q : Q} {f : A q → Dialogue A β} {o : Option β} :
    (question q >>= f).Ends log o ↔ ∃ a rest, log = ⟨q, a⟩ :: rest ∧ (f a).Ends rest o :=
  ends_ask_iff

/-- The record of two dialogues held one after the other falls into two, unless the first one
is broken off. -/
theorem ends_bind_iff {o : Option β} :
    (d >>= f).Ends log o ↔
      (∃ x front back, log = front ++ back ∧ d.Ends front (some x) ∧ (f x).Ends back o) ∨
        d.Ends log none ∧ o = none := by
  rw [bind_eq_bind]
  induction d generalizing log with
  | done x =>
    simp only [bind, ends_done_iff]
    constructor
    · intro h
      exact .inl ⟨x, [], log, rfl, ⟨rfl, rfl⟩, h⟩
    · rintro (⟨y, front, back, rfl, ⟨rfl, hy⟩, h⟩ | ⟨⟨-, h⟩, -⟩)
      · cases hy
        exact h
      · cases h
  | brokenOff => simp [bind, ends_brokenOff_iff]
  | ask q next ih =>
    -- The first exchange is one of the first dialogue, on either side.
    simp only [bind, ends_ask_iff, ih]
    constructor
    · rintro ⟨a, rest, rfl, ⟨x, front, back, rfl, hd, hf⟩ | ⟨hd, ho⟩⟩
      · exact .inl ⟨x, ⟨q, a⟩ :: front, back, rfl, ⟨a, front, rfl, hd⟩, hf⟩
      · exact .inr ⟨⟨a, rest, rfl, hd⟩, ho⟩
    · rintro (⟨x, front, back, rfl, ⟨a, rest, rfl, hd⟩, hf⟩ | ⟨⟨a, rest, rfl, hd⟩, ho⟩)
      · exact ⟨a, rest ++ back, rfl, .inl ⟨x, rest, back, rfl, hd, hf⟩⟩
      · exact ⟨a, rest, rfl, .inr ⟨hd, ho⟩⟩

/-- What only computes from the end of a dialogue adds nothing to its record. -/
theorem Ends.of_bind_done {g : α → β} (hf : ∀ x, f x = .done (g x)) {o : Option β}
    (h : (d >>= f).Ends log o) : ∃ o', d.Ends log o' ∧ o = o'.map g := by
  rcases ends_bind_iff.1 h with ⟨x, front, back, rfl, hd, hback⟩ | ⟨hd, rfl⟩
  · rw [hf] at hback
    obtain ⟨rfl, rfl⟩ := ends_done_iff.1 hback
    rw [List.append_nil]
    exact ⟨some x, hd, rfl⟩
  · exact ⟨none, hd, rfl⟩

/-- The dialogue comes to nothing but what has a property. -/
def Yields (P : α → Prop) (d : Dialogue A α) : Prop := ∀ ⦃log x⦄, d.Ends log (some x) → P x

theorem yields_pure {P : α → Prop} {x : α} (h : P x) : Yields P (pure x : Dialogue A α) := by
  intro log y hends
  obtain ⟨-, hy⟩ := ends_done_iff.1 hends
  cases hy
  exact h

theorem Yields.bind {P : α → Prop} {R : β → Prop} (hd : d.Yields P)
    (hf : ∀ x, P x → Yields R (f x)) : Yields R (d >>= f) := by
  intro log y hends
  rcases ends_bind_iff.1 hends with ⟨x, front, back, -, hfront, hback⟩ | ⟨-, hnone⟩
  · exact hf x (hd hfront) hback
  · cases hnone

/-- What a dialogue comes to is decided at its end. -/
theorem yields_bind {R : β → Prop} (hf : ∀ x, Yields R (f x)) : Yields R (d >>= f) :=
  Yields.bind (P := fun _ => True) (fun _ _ _ => trivial) fun x _ => hf x

/-! ## What a dialogue asks -/

/-- A property that two dialogues held one after the other have if each of them has it. -/
structure Composes (P : ∀ {α : Type}, Dialogue A α → Prop) : Prop where
  pure : ∀ {α : Type} (x : α), P (pure x : Dialogue A α)
  bind : ∀ {α β : Type} {d : Dialogue A α} {f : α → Dialogue A β}, P d → (∀ x, P (f x)) →
    P (d >>= f)

/-- All questions of the dialogue have a property, whatever the answers are. -/
def Asks (P : Q → Prop) : Dialogue A α → Prop
  | .done _ => True
  | .brokenOff => True
  | .ask q next => P q ∧ ∀ a, (next a).Asks P

section Asks

variable {P : Q → Prop}

theorem asks_pure (x : α) : (pure x : Dialogue A α).Asks P := trivial

theorem asks_question {q : Q} (h : P q) : (question q : Dialogue A (A q)).Asks P :=
  ⟨h, fun _ => trivial⟩

theorem Asks.bind (hd : d.Asks P) (hf : ∀ x, (f x).Asks P) : (d >>= f).Asks P := by
  rw [bind_eq_bind]
  induction d with
  | done x => exact hf x
  | brokenOff => trivial
  | ask q next ih =>
    obtain ⟨hq, hnext⟩ := hd
    exact ⟨hq, fun a => ih a (hnext a)⟩

theorem composes_asks : Composes fun {α : Type} (d : Dialogue A α) => d.Asks P where
  pure := asks_pure
  bind := Asks.bind

theorem Asks.of_ends (hd : d.Asks P) (h : d.Ends log o) : ∀ x ∈ log, P x.question := by
  induction h with
  | done x => exact List.forall_mem_nil _
  | brokenOff => exact List.forall_mem_nil _
  | ask h ih =>
    obtain ⟨hq, hnext⟩ := hd
    exact List.forall_mem_cons.2 ⟨hq, ih (hnext _)⟩

end Asks

/-- A property of that kind that a dialogue has when it is broken off. -/
structure Closed (P : ∀ {α : Type}, Dialogue A α → Prop) : Prop extends Composes P where
  brokenOff : ∀ {α : Type}, P (brokenOff : Dialogue A α)

/-- Such a property is had if each question has it. -/
theorem Closed.of_asks {P : ∀ {α : Type}, Dialogue A α → Prop} {R : Q → Prop} {α : Type}
    {d : Dialogue A α} (h : Closed P) (hd : d.Asks R) (hq : ∀ q, R q → P (question q)) : P d := by
  induction d with
  | done x => exact h.pure x
  | brokenOff => exact h.brokenOff
  | ask q next ih =>
    obtain ⟨hR, hnext⟩ := hd
    exact h.bind (hq q hR) fun a => ih a (hnext a)

/-- The dialogue is never broken off. -/
def Unbroken : Dialogue A α → Prop
  | .done _ => True
  | .brokenOff => False
  | .ask _ next => ∀ a, (next a).Unbroken

theorem unbroken_pure (x : α) : (pure x : Dialogue A α).Unbroken := trivial

theorem unbroken_question (q : Q) : (question q : Dialogue A (A q)).Unbroken := fun _ => trivial

theorem Unbroken.bind (hd : d.Unbroken) (hf : ∀ x, (f x).Unbroken) : (d >>= f).Unbroken := by
  rw [bind_eq_bind]
  induction d with
  | done x => exact hf x
  | brokenOff => exact hd.elim
  | ask q next ih => exact fun a => ih a (hd a)

theorem composes_unbroken : Composes fun {α : Type} (d : Dialogue A α) => d.Unbroken where
  pure := unbroken_pure
  bind := Unbroken.bind

/-- A dialogue that is not broken off comes to something with every world. -/
theorem Unbroken.exists_run {world : (q : Q) → σ → A q × σ} (hd : d.Unbroken) (s : σ) :
    ∃ x, (d.run world s).1 = some x := by
  induction d generalizing s with
  | done x => exact ⟨x, rfl⟩
  | brokenOff => exact hd.elim
  | ask q next ih => exact ih _ (hd _) _

/-! ## Records with a world -/

section World

variable {world : (q : Q) → σ → A q × σ} {s s' : σ} {log' : List (Exchange A)}

/-- The state of a world behind the questions of a record. -/
def stateAfter (world : (q : Q) → σ → A q × σ) (log : List (Exchange A)) (s : σ) : σ :=
  log.foldl (fun s x => (world x.question s).2) s

/-- The answers in the record are those that the world gives. -/
def Answered (world : (q : Q) → σ → A q × σ) : List (Exchange A) → σ → Prop
  | [], _ => True
  | x :: log, s => x.answer = (world x.question s).1 ∧ Answered world log (world x.question s).2

/-- The runs with a world are the records of the dialogue with the answers of the world. -/
theorem play_eq_iff :
    d.play world s = (o, log, s') ↔
      d.Ends log o ∧ Answered world log s ∧ s' = stateAfter world log s := by
  constructor
  · intro h
    induction d generalizing s log with
    | done x =>
      cases h
      exact ⟨.done x, trivial, rfl⟩
    | brokenOff =>
      cases h
      exact ⟨.brokenOff, trivial, rfl⟩
    | ask q next ih =>
      cases h
      obtain ⟨hends, hanswered, hstate⟩ := ih _ rfl
      exact ⟨.ask hends, ⟨rfl, hanswered⟩, hstate⟩
  · rintro ⟨hends, hanswered, rfl⟩
    induction hends generalizing s with
    | done x => rfl
    | brokenOff => rfl
    | @ask q next a log o h ih =>
      obtain ⟨(ha : a = (world q s).1), (hrest : Answered world log (world q s).2)⟩ := hanswered
      subst ha
      simp only [play, ih hrest]
      rfl

theorem answered_append :
    Answered world (log ++ log') s ↔
      Answered world log s ∧ Answered world log' (stateAfter world log s) := by
  induction log generalizing s with
  | nil => exact (and_iff_right trivial).symm
  | cons x log ih =>
    simp only [List.cons_append, Answered, ih, and_assoc]
    rfl

/-- Every answer in the record is one that the world gave in some state. -/
theorem Answered.exists_answer (h : Answered world log s) {x : Exchange A} (hx : x ∈ log) :
    ∃ s', x.answer = (world x.question s').1 := by
  induction log generalizing s with
  | nil => cases hx
  | cons y log ih =>
    obtain ⟨hy, hlog⟩ := h
    rcases List.mem_cons.1 hx with rfl | hx
    · exact ⟨s, hy⟩
    · exact ih hlog hx

/-- The record that is kept of a run is a record of the dialogue. -/
theorem Ends.of_play (h : d.play world s = (o, log, s')) : d.Ends log o := (play_eq_iff.1 h).1

end World

end ClusterKeeper.Dialogue
