/-
# Dialogues

A program that acts on the world by asking it: each question has a type of answers, and
how the program goes on depends on the answer alone. What the world answers is left open,
so one dialogue can be held with a cloud, with a script or with an adversary. A dialogue
that would go on without bound is broken off when its patience is used up.
-/

namespace ClusterKeeper

/-- A dialogue that asks questions of `Q` and ends in a value of `α`. -/
inductive Dialogue {Q : Type} (A : Q → Type) (α : Type) where
  | done (result : α)
  /-- The dialogue was broken off before its end. -/
  | brokenOff
  | ask (question : Q) (next : A question → Dialogue A α)

namespace Dialogue

variable {Q : Type} {A : Q → Type} {α β σ : Type}

/-- Goes on with `f` where the dialogue ends. -/
def bind : Dialogue A α → (α → Dialogue A β) → Dialogue A β
  | .done x, f => f x
  | .brokenOff, _ => .brokenOff
  | .ask q next, f => .ask q fun a => (next a).bind f

instance : Monad (Dialogue A) where
  pure := .done
  bind := bind

/-- Asks one question and ends with its answer. -/
def question (q : Q) : Dialogue A (A q) := .ask q .done

/-- A question with the answer it got. -/
structure Exchange {Q : Type} (A : Q → Type) where
  question : Q
  answer : A question

/-- Holds a dialogue with a world of states `σ`. -/
def run (world : (q : Q) → σ → A q × σ) : Dialogue A α → σ → Option α × σ
  | .done x, s => (some x, s)
  | .brokenOff, s => (none, s)
  | .ask q next, s =>
    let (a, s) := world q s
    (next a).run world s

/-- Holds a dialogue with a world that answers by acting. -/
def runIn {m : Type → Type} [Monad m] (world : (q : Q) → m (A q)) : Dialogue A α → m (Option α)
  | .done x => return some x
  | .brokenOff => return none
  | .ask q next => do (next (← world q)).runIn world

/-- Holds a dialogue with a world of states `σ` and keeps a record of all exchanges. -/
def play (world : (q : Q) → σ → A q × σ) :
    Dialogue A α → σ → Option α × List (Exchange A) × σ
  | .done x, s => (some x, [], s)
  | .brokenOff, s => (none, [], s)
  | .ask q next, s =>
    let (a, s) := world q s
    let (x, log, s) := (next a).play world s
    (x, ⟨q, a⟩ :: log, s)

@[simp] theorem pure_eq_done (x : α) : (pure x : Dialogue A α) = .done x := rfl

@[simp] theorem bind_eq_bind (d : Dialogue A α) (f : α → Dialogue A β) :
    (d >>= f) = d.bind f := rfl

theorem bind_done (d : Dialogue A α) : d.bind .done = d := by
  induction d with
  | done x => rfl
  | brokenOff => rfl
  | ask q next ih => simp [bind, ih]

theorem bind_assoc {γ : Type} (d : Dialogue A α) (f : α → Dialogue A β)
    (g : β → Dialogue A γ) : (d.bind f).bind g = d.bind fun x => (f x).bind g := by
  induction d with
  | done x => rfl
  | brokenOff => rfl
  | ask q next ih => simp [bind, ih]

instance : LawfulMonad (Dialogue A) := LawfulMonad.mk' _
  (fun d => bind_done d) (fun _ _ => rfl) (fun d f g => bind_assoc d f g)

/-! ## Dialogues held one after the other -/

variable {world : (q : Q) → σ → A q × σ}

@[simp] theorem run_done (x : α) (s : σ) : (done x : Dialogue A α).run world s = (some x, s) := rfl

@[simp] theorem run_question (q : Q) (s : σ) :
    (question q : Dialogue A (A q)).run world s = (some (world q s).1, (world q s).2) := rfl

/-- The second dialogue goes on in the state in which the first one ended. -/
theorem run_bind (d : Dialogue A α) (f : α → Dialogue A β) (s : σ) :
    (d.bind f).run world s =
      match d.run world s with
      | (some x, s) => (f x).run world s
      | (none, s) => (none, s) := by
  induction d generalizing s with
  | done x => rfl
  | brokenOff => rfl
  | ask q next ih => exact ih _ _

/-- A record changes neither the result of a dialogue nor the state in which it ends. -/
theorem run_eq_play (d : Dialogue A α) (s : σ) :
    d.run world s = ((d.play world s).1, (d.play world s).2.2) := by
  induction d generalizing s with
  | done x => rfl
  | brokenOff => rfl
  | ask q next ih => exact ih _ _

/-- The record of two dialogues is that of the first and then that of the second. -/
theorem play_bind (d : Dialogue A α) (f : α → Dialogue A β) (s : σ) :
    (d.bind f).play world s =
      match d.play world s with
      | (some x, log, s) =>
        let (y, more, s) := (f x).play world s
        (y, log ++ more, s)
      | (none, log, s) => (none, log, s) := by
  induction d generalizing s with
  | done x => rfl
  | brokenOff => rfl
  | ask q next ih =>
    simp only [bind, play, ih]
    rcases (next (world q s).1).play world (world q s).2 with ⟨_ | x, log, s⟩ <;> rfl

end Dialogue

end ClusterKeeper
