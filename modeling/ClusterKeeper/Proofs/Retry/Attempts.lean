/-
# Attempts at an operation

A retrier, in whatever monad it runs, asks for two things only: an attempt, and a wait. So what it
does with an operation that has a state is what it does with a world that answers attempts and
waits. Tried over and over, the operation would have a sequence of outcomes; the retrier takes them
up to the first success, or as many as it has attempts, and waits once between two of them.
-/

import Mathlib.Data.ENat.Lattice
import ClusterKeeper.Dialogue
import ClusterKeeper.Retry.Retrier

namespace ClusterKeeper

/-! ## The least number of a kind -/

/-- The least number with a property, which is infinite if there is none. -/
noncomputable def least (P : Nat → Prop) : ℕ∞ := ⨅ (q : Nat) (_ : P q), (q : ℕ∞)

theorem natCast_le_least_iff {P : Nat → Prop} {n : Nat} :
    (n : ℕ∞) ≤ least P ↔ ∀ q < n, ¬ P q := by
  rw [least, le_iInf₂_iff]
  constructor
  · intro h q hq hP
    exact absurd (Nat.cast_le.1 (h q hP)) (Nat.not_le.2 hq)
  · intro h q hP
    by_contra hlt
    exact h q (Nat.cast_lt.1 (not_le.1 hlt)) hP

theorem least_le {P : Nat → Prop} {n : Nat} (h : P n) : least P ≤ n :=
  iInf₂_le n h

/-! ## Attempts and waits -/

/-- What a retrier asks for. -/
inductive RetryQuestion where
  | attempt
  | wait (d : Duration)
  deriving DecidableEq

/-- The answer to an attempt is its outcome. -/
@[reducible]
def RetryQuestion.Answer (ε α : Type) : RetryQuestion → Type
  | .attempt => Except ε α
  | .wait _ => Unit

/-- The attempts and waits of a retrier, with their outcomes. -/
abbrev RetryRecord (ε α : Type) := List (Dialogue.Exchange (RetryQuestion.Answer ε α))

/-- The number of attempts. -/
def RetryRecord.attempts {ε α : Type} (log : RetryRecord ε α) : Nat :=
  log.countP (·.question = .attempt)

namespace Retrier

variable {ε α σ : Type} {r : Retrier} {t : Duration} {operation : String} {made left n N : Nat}

/-- The attempts that are left, as questions. -/
def asks (t : Duration) (operation : String) (made left : Nat) :
    Dialogue (RetryQuestion.Answer ε α) (Except (RetryError ε) α) :=
  attempt (Dialogue.question (RetryQuestion.wait t)) operation
    (Dialogue.question RetryQuestion.attempt) made left

/-- What a retrier asks for, whatever the outcomes are. -/
def plan (r : Retrier) (operation : String) :
    Dialogue (RetryQuestion.Answer ε α) (Except (RetryError ε) α) :=
  r.run (fun d => Dialogue.question (RetryQuestion.wait d)) operation
    (Dialogue.question RetryQuestion.attempt)

/-- What the last attempt comes to, by the number of those before it. -/
def lastly (operation : String) (made : Nat) : Except ε α → Except (RetryError ε) α :=
  Except.mapError (⟨operation, made + 1, ·⟩)

theorem asks_zero : (asks t operation made 0 : Dialogue (RetryQuestion.Answer ε α) _) =
    .ask .attempt fun outcome => .done (lastly operation made outcome) := by
  refine congrArg (Dialogue.ask RetryQuestion.attempt) (funext fun outcome => ?_)
  cases outcome <;> rfl

theorem asks_succ : (asks t operation made (left + 1) : Dialogue (RetryQuestion.Answer ε α) _) =
    .ask .attempt fun
      | .ok x => .done (.ok x)
      | .error _ => .ask (.wait t) fun _ => asks t operation (made + 1) left := by
  refine congrArg (Dialogue.ask RetryQuestion.attempt) (funext fun outcome => ?_)
  cases outcome <;> rfl

/-- What is asked for is done in a monad. -/
def serve {m : Type → Type} (wait : Duration → m Unit) (action : m (Except ε α)) :
    (q : RetryQuestion) → m (q.Answer ε α)
  | .attempt => action
  | .wait d => wait d

/-- In any monad, a retrier does what it asks for. -/
theorem runIn_plan {m : Type → Type} [Monad m] [LawfulMonad m] (wait : Duration → m Unit)
    (action : m (Except ε α)) :
    (r.plan operation).runIn (serve wait action) = some <$> r.run wait operation action := by
  -- The attempts that are left decide whether there is anything to ask for behind a failure.
  have hasks (made left : Nat) : (asks r.interval operation made left).runIn (serve wait action) =
      some <$> attempt (wait r.interval) operation action made left := by
    induction left generalizing made with
    | zero =>
      rw [asks_zero, attempt, map_bind]
      refine bind_congr fun outcome => ?_
      cases outcome <;> simp [Dialogue.runIn, lastly, Except.mapError]
    | succ left ih =>
      rw [asks_succ, attempt, map_bind]
      refine bind_congr fun outcome => ?_
      cases outcome with
      | ok x => simp [Dialogue.runIn]
      | error e =>
        simp only [Dialogue.runIn, map_bind]
        exact bind_congr fun _ => ih (made + 1)
  exact hasks 0 (r.attempts - 1)

/-! ## Outcomes -/

variable {world : (q : RetryQuestion) → σ → q.Answer ε α × σ} {s : σ}
  {outcomes : Nat → Except ε α}

/-- The state behind an attempt and a wait. -/
def stateBehind (world : (q : RetryQuestion) → σ → q.Answer ε α × σ) (t : Duration) (s : σ) : σ :=
  (world (.wait t) (world .attempt s).2).2

/-- The outcome of an attempt, by its number from zero on, if an attempt is made after every wait. -/
def outcomeAt (world : (q : RetryQuestion) → σ → q.Answer ε α × σ) (t : Duration) (s : σ)
    (q : Nat) : Except ε α :=
  (world .attempt ((stateBehind world t)^[q] s)).1

/-- The number of the first attempt that succeeds, from one on, which is infinite if none does. -/
noncomputable def firstSuccess (outcomes : Nat → Except ε α) : ℕ∞ :=
  least fun f => 0 < f ∧ (outcomes (f - 1)).isOk = true

/-- Attempts with the outcomes of a sequence, and a wait between any two of them. -/
def spacedAttempts (outcomes : Nat → Except ε α) (t : Duration) (n : Nat) : RetryRecord ε α :=
  (List.range n).flatMap fun q =>
    ⟨.attempt, outcomes q⟩ :: if q + 1 < n then [⟨.wait t, ()⟩] else []

/-- Attempts with the outcomes of a sequence, and a wait behind each of them. -/
def waitedAttempts (outcomes : Nat → Except ε α) (t : Duration) (n : Nat) : RetryRecord ε α :=
  (List.range n).flatMap fun q => [⟨.attempt, outcomes q⟩, ⟨.wait t, ()⟩]

theorem waitedAttempts_succ : waitedAttempts outcomes t (n + 1) =
    ⟨.attempt, outcomes 0⟩ :: ⟨.wait t, ()⟩ :: waitedAttempts (fun q => outcomes (q + 1)) t n := by
  rw [waitedAttempts, List.range_succ_eq_map, List.flatMap_cons, List.flatMap_map]
  rfl

/-- Behind the last attempt there is no wait. -/
theorem spacedAttempts_succ : spacedAttempts outcomes t (n + 1) =
    waitedAttempts outcomes t n ++ [⟨.attempt, outcomes n⟩] := by
  rw [spacedAttempts, List.range_succ, List.flatMap_append, List.flatMap_singleton,
    if_neg (Nat.lt_irrefl _)]
  refine congrArg (· ++ _) (List.flatMap_congr fun q hq => ?_)
  rw [if_pos (Nat.succ_lt_succ (List.mem_range.1 hq))]

theorem attempts_waitedAttempts : (waitedAttempts outcomes t n).attempts = n := by
  induction n generalizing outcomes with
  | zero => rfl
  | succ n ih =>
    have hrest : List.countP (fun x => decide (x.question = .attempt))
        (waitedAttempts (fun q => outcomes (q + 1)) t n) = n := ih
    rw [waitedAttempts_succ, RetryRecord.attempts, List.countP_cons_of_pos (by simp),
      List.countP_cons_of_neg (by simp), hrest]

theorem attempts_spacedAttempts : (spacedAttempts outcomes t (n + 1)).attempts = n + 1 := by
  rw [spacedAttempts_succ, RetryRecord.attempts, List.countP_append, ← RetryRecord.attempts,
    attempts_waitedAttempts]
  rfl

/-! ## Runs -/

/-- An attempt that succeeds is the last one, and so is one behind which none is left. -/
theorem play_asks_last (operation : String) (made : Nat)
    (h : (outcomeAt world t s 0).isOk = true ∨ left = 0) :
    (asks t operation made left).play world s =
      (some (lastly operation made (outcomeAt world t s 0)), [⟨.attempt, outcomeAt world t s 0⟩],
        (world .attempt s).2) := by
  cases left with
  | zero =>
    rw [asks_zero]
    rfl
  | succ left =>
    rw [asks_succ]
    rcases hw : world .attempt s with ⟨_ | x, s'⟩
    · simp [outcomeAt, hw, Except.isOk, Except.toBool] at h
    · simp only [Dialogue.play, outcomeAt, Function.iterate_zero_apply, hw]
      rfl

/-- One that fails is followed by a wait and the next attempt. -/
theorem play_asks_next (h : (outcomeAt world t s 0).isOk = false) :
    (asks t operation made (left + 1)).play world s =
      let (x, log, s') := (asks t operation (made + 1) left).play world (stateBehind world t s)
      (x, ⟨.attempt, outcomeAt world t s 0⟩ :: ⟨.wait t, ()⟩ :: log, s') := by
  rw [asks_succ]
  rcases hw : world .attempt s with ⟨e | x, s'⟩
  · simp only [Dialogue.play, outcomeAt, Function.iterate_zero_apply, stateBehind, hw]
  · simp [outcomeAt, hw, Except.isOk, Except.toBool] at h

theorem play_asks (hfails : ∀ q < n, (outcomeAt world t s q).isOk = false) :
    (asks t operation made (n + left)).play world s =
      let (x, log, s') := (asks t operation (made + n) left).play world
        ((stateBehind world t)^[n] s)
      (x, waitedAttempts (outcomeAt world t s) t n ++ log, s') := by
  -- The first attempt is taken off, so the others start in the state behind it.
  induction n generalizing made s with
  | zero =>
    rw [Nat.zero_add]
    rfl
  | succ n ih =>
    have hrest : (asks t operation (made + 1) (n + left)).play world (stateBehind world t s) = _ :=
      ih fun q hq => hfails (q + 1) (Nat.succ_lt_succ hq)
    rw [waitedAttempts_succ, Nat.add_right_comm, play_asks_next (hfails 0 (Nat.succ_pos n)), hrest,
      Nat.add_right_comm made, Nat.add_assoc made]
    rfl

/-- The attempts end with the first that succeeds or with the last one. -/
theorem exists_last_attempt (outcomes : Nat → Except ε α) (hN : 0 < N) :
    ∃ n, n < N ∧ (∀ q < n, (outcomes q).isOk = false) ∧
      ((outcomes n).isOk = true ∨ n + 1 = N) := by
  have hex : ∃ n, (outcomes n).isOk = true ∨ n + 1 = N := ⟨N - 1, .inr (by omega)⟩
  have hmin (q : Nat) (hq : q < Nat.find hex) := not_or.1 (Nat.find_min hex hq)
  refine ⟨Nat.find hex, ?_, fun q hq => Bool.eq_false_iff.2 (hmin q hq).1, Nat.find_spec hex⟩
  by_contra hle
  exact (hmin (N - 1) (by omega)).2 (by omega)

theorem play_plan (operation : String) (hn : n < r.attempts)
    (hfails : ∀ q < n, (outcomeAt world r.interval s q).isOk = false)
    (hlast : (outcomeAt world r.interval s n).isOk = true ∨ n + 1 = r.attempts) :
    ∃ s', (r.plan operation).play world s =
      (some (lastly operation n (outcomeAt world r.interval s n)),
        spacedAttempts (outcomeAt world r.interval s) r.interval (n + 1), s') := by
  have hplan : r.plan operation =
      (asks r.interval operation 0 (n + (r.attempts - 1 - n)) :
        Dialogue (RetryQuestion.Answer ε α) _) := by
    rw [Nat.add_sub_of_le (by omega)]
    rfl
  have hleft : (outcomeAt world r.interval s n).isOk = true ∨ r.attempts - 1 - n = 0 :=
    hlast.imp_right fun _ => by omega
  rw [hplan, play_asks hfails, play_asks_last operation _ hleft, spacedAttempts_succ, Nat.zero_add]
  exact ⟨_, rfl⟩

/-- How often an operation is tried whose outcomes would be the given ones, and what that comes
to. -/
structure Tried (outcomes : Nat → Except ε α) (attempts : Nat) (t : Duration) (operation : String)
    (log : RetryRecord ε α) (o : Option (Except (RetryError ε) α)) : Prop where
  calls : (RetryRecord.attempts log : ℕ∞) = min (firstSuccess outcomes) attempts
  /-- There is one wait between two attempts, and none behind the last. -/
  record : log = spacedAttempts outcomes t (RetryRecord.attempts log)
  succeeds : ∀ f : Nat, firstSuccess outcomes = f → f ≤ attempts →
    ∃ x, outcomes (f - 1) = .ok x ∧ o = some (.ok x)
  fails : attempts < firstSuccess outcomes →
    ∃ e, outcomes (attempts - 1) = .error e ∧ o = some (.error ⟨operation, attempts, e⟩)

/-- No attempt up to a number is the first that succeeds if all of them fail. -/
theorem lt_firstSuccess (hfails : ∀ q < n, (outcomes q).isOk = false) :
    (n : ℕ∞) < firstSuccess outcomes := by
  have hle : ((n + 1 : Nat) : ℕ∞) ≤ firstSuccess outcomes := by
    refine natCast_le_least_iff.2 fun f hf => ?_
    rintro ⟨hpos, hok⟩
    rw [hfails (f - 1) (by omega)] at hok
    cases hok
  exact (Nat.cast_lt.2 (Nat.lt_succ_self n)).trans_le hle

theorem firstSuccess_eq (hok : (outcomes n).isOk = true)
    (hfails : ∀ q < n, (outcomes q).isOk = false) : firstSuccess outcomes = (n + 1 : Nat) :=
  le_antisymm (least_le ⟨Nat.succ_pos n, hok⟩) (Order.add_one_le_of_lt (lt_firstSuccess hfails))

theorem tried_of_last (hn : n < N) (hfails : ∀ q < n, (outcomes q).isOk = false)
    (hlast : (outcomes n).isOk = true ∨ n + 1 = N) :
    Tried outcomes N t operation (spacedAttempts outcomes t (n + 1))
      (some (lastly operation n (outcomes n))) := by
  cases hout : outcomes n with
  | ok x =>
    have hfirst := firstSuccess_eq (congrArg Except.isOk hout) hfails
    constructor
    · rw [attempts_spacedAttempts, hfirst, min_eq_left (Nat.cast_le.2 hn)]
    · rw [attempts_spacedAttempts]
    · intro f hf _
      obtain rfl : n + 1 = f := Nat.cast_inj.1 (hfirst.symm.trans hf)
      exact ⟨x, hout, rfl⟩
    · intro hlt
      rw [hfirst] at hlt
      exact absurd (Nat.cast_lt.1 hlt) (Nat.not_lt.2 hn)
  | error e =>
    -- An attempt that fails and is the last one has the number of all attempts.
    have hfail : (outcomes n).isOk = false := congrArg Except.isOk hout
    obtain rfl : n + 1 = N := hlast.resolve_left (Bool.eq_false_iff.1 hfail)
    have hlt : ((n + 1 : Nat) : ℕ∞) < firstSuccess outcomes := by
      refine lt_firstSuccess fun q hq => ?_
      rcases Nat.lt_succ_iff_lt_or_eq.1 hq with hq | rfl
      · exact hfails q hq
      · exact hfail
    constructor
    · rw [attempts_spacedAttempts, min_eq_right hlt.le]
    · rw [attempts_spacedAttempts]
    · intro f hf hle
      rw [hf] at hlt
      exact absurd (Nat.cast_lt.1 hlt) (Nat.not_lt.2 hle)
    · intro _
      exact ⟨e, hout, rfl⟩

/-- A retrier tries an operation until it succeeds or as often as it is set to, but once at least,
and waits for its interval between two attempts. In every monad it does what it asks for, and that
is said for every world, so for every operation with a state. The attempts fit 32 bits. -/
theorem run_tries (attempts : UInt32) (interval : Duration) (operation : String) :
    (∀ {m : Type → Type} [Monad m] [LawfulMonad m] (wait : Duration → m Unit)
      (action : m (Except ε α)),
      some <$> (Retrier.of attempts.toNat interval).run wait operation action =
        ((Retrier.of attempts.toNat interval).plan operation).runIn (serve wait action)) ∧
    ∀ {σ : Type} (world : (q : RetryQuestion) → σ → q.Answer ε α × σ) (s : σ), ∃ o log s',
      ((Retrier.of attempts.toNat interval).plan operation).play world s = (o, log, s') ∧
        Tried (outcomeAt world interval s) (max attempts.toNat 1) interval operation log o ∧
        RetryRecord.attempts log < UInt32.size := by
  refine ⟨fun wait action => (runIn_plan wait action).symm, fun world s => ?_⟩
  have hpos : 0 < max attempts.toNat 1 := by omega
  obtain ⟨n, hn, hfails, hlast⟩ := exists_last_attempt (outcomeAt world interval s) hpos
  obtain ⟨s', hplay⟩ := play_plan (r := Retrier.of attempts.toNat interval) operation hn hfails
    hlast
  have hbound := attempts.toNat_lt
  refine ⟨_, _, s', hplay, tried_of_last hn hfails hlast, ?_⟩
  rw [attempts_spacedAttempts, UInt32.size]
  omega

/-- An operation that succeeds at the third attempt. Waits leave its state alone. -/
def thirdTime : (q : RetryQuestion) → Nat → q.Answer String Nat × Nat
  | .attempt, n => (if n < 2 then .error "refused" else .ok (n + 1), n + 1)
  | .wait _, n => ((), n)

/-- With five attempts, three are made of it, in the monad of its states, too. -/
theorem tries_thirdTime :
    (∃ log s', ((Retrier.of 5 (.ofSecs 1)).plan "fetch").play thirdTime 0 =
        (some (.ok 3), log, s') ∧
      Tried (outcomeAt thirdTime (.ofSecs 1) 0) 5 (.ofSecs 1) "fetch" log (some (.ok 3)) ∧
      RetryRecord.attempts log = 3) ∧
    some <$> (Retrier.of 5 (.ofSecs 1)).run (fun _ => (pure () : StateM Nat Unit)) "fetch"
        (thirdTime .attempt) =
      ((Retrier.of 5 (.ofSecs 1)).plan "fetch").runIn
        (serve (fun _ => (pure () : StateM Nat Unit)) (thirdTime .attempt)) := by
  obtain ⟨hmonad, hworld⟩ := run_tries 5 (.ofSecs 1) "fetch"
  obtain ⟨o, log, s', hplay, htried, -⟩ := hworld thirdTime 0
  have hrun : ((Retrier.of 5 (.ofSecs 1)).plan "fetch").play thirdTime 0 = (o, log, s') := hplay
  have hresult : (((Retrier.of 5 (.ofSecs 1)).plan "fetch").play thirdTime 0).1 =
      some (.ok 3) := rfl
  have hattempts : RetryRecord.attempts
      (((Retrier.of 5 (.ofSecs 1)).plan "fetch").play thirdTime 0).2.1 = 3 := rfl
  rw [hrun] at hresult hattempts
  subst hresult
  exact ⟨⟨log, s', hrun, htried, hattempts⟩, hmonad _ _⟩

end Retrier

end ClusterKeeper
