/-
# How a backoff grows

The units of a backoff saturate at one bound, the factor that is made of them at a smaller one, and
the wait at the longest duration and at the cap. Saturating on the way does not show in the waits:
each is what the exact power of the first number of units comes to, cut once at the end. So the
waits never get shorter, and each is longer than the one before it until the bound is reached.
-/

import Mathlib.Data.ENat.Lattice
import ClusterKeeper.Retry.Backoff

namespace ClusterKeeper

namespace Duration

theorem nanos_min (d e : Duration) : (d.min e).nanos = d.nanos ⊓ e.nanos := by
  rw [Duration.min]
  split <;> omega

/-- A multiple is cut at the longest duration. -/
theorem nanos_mul (d : Duration) (factor : Nat) :
    (d.mul factor).nanos = Duration.max.nanos ⊓ (d.nanos * factor) := by
  have hmax : Duration.max.nanos + 1 = Duration.bound := rfl
  rw [mul, ofNanos]
  split
  · dsimp only
    omega
  · omega

end Duration

/-- A square that saturates is the square of a number that saturates. -/
theorem min_mul_self_min (x bound : Nat) :
    min (min x bound * min x bound) bound = min (x * x) bound := by
  rcases Nat.le_total x bound with hx | hx
  · rw [Nat.min_eq_left hx]
  · -- Both squares are at least the bound.
    rw [Nat.min_eq_right hx, Nat.min_eq_right (Nat.le_mul_self bound),
      Nat.min_eq_right ((Nat.le_mul_self bound).trans (Nat.mul_le_mul hx hx))]

namespace BackoffPolicy

variable {p : BackoffPolicy} {k : Nat}

/-! ## The waits of a policy -/

/-- The length of a wait, by its number from zero on, of a backoff that was just started. -/
def delayAt (p : BackoffPolicy) (q : Nat) : Duration := (Backoff.next^[q] p.start).delay

/-- What no wait is longer than, in nanoseconds: the cap, if there is one, and the longest
duration. -/
def ceiling (p : BackoffPolicy) : Nat := min (p.cap.getD .max).nanos Duration.max.nanos

theorem iterate_next (p : BackoffPolicy) (q : Nat) :
    (Backoff.next^[q] p.start).attempts = q ∧ (Backoff.next^[q] p.start).policy = p := by
  induction q with
  | zero => exact ⟨rfl, rfl⟩
  | succ q ih =>
    rw [Function.iterate_succ_apply']
    exact ⟨congrArg (· + 1) ih.1, ih.2⟩

theorem nanos_delay (b : Backoff) :
    b.delay.nanos =
      min b.policy.ceiling (b.policy.unit.nanos * min b.units (UInt32.size - 1)) := by
  rw [Backoff.delay, ceiling]
  cases b.policy.cap with
  | none =>
    rw [Option.getD_none, Nat.min_self]
    exact Duration.nanos_mul _ _
  | some cap =>
    rw [Option.getD_some]
    dsimp only
    rw [Duration.nanos_min, Duration.nanos_mul]
    omega

/-! ## The units -/

/-- The first number of units, squared over and over, is cut at the largest number of 64 bits. -/
theorem units_iterate_next (p : BackoffPolicy) (k : Nat) :
    (Backoff.next^[k] p.start).units =
      min (max p.initialUnits.toNat 2 ^ 2 ^ k) (UInt64.size - 1) := by
  induction k with
  | zero =>
    have hlt := p.initialUnits.toNat_lt
    have hfirst : p.start.units = max p.initialUnits.toNat 2 := rfl
    rw [Function.iterate_zero_apply, hfirst, pow_zero, pow_one, Nat.min_eq_left]
    simp only [UInt64.size]
    omega
  | succ k ih =>
    have hnext (b : Backoff) : b.next.units = min (b.units * b.units) (UInt64.size - 1) := rfl
    rw [Function.iterate_succ_apply', hnext, ih, min_mul_self_min, pow_succ 2, pow_mul, pow_two]

/-- The factor, which is cut at the largest number of 32 bits, does not tell where the units were
cut. -/
theorem min_units_iterate_next (p : BackoffPolicy) (k : Nat) :
    min (Backoff.next^[k] p.start).units (UInt32.size - 1) =
      min (max p.initialUnits.toNat 2 ^ 2 ^ k) (UInt32.size - 1) := by
  rw [units_iterate_next, min_assoc, Nat.min_eq_right (by decide : UInt32.size - 1 ≤ UInt64.size - 1)]

/-- The wait of a number: the unit times a power, cut once. -/
theorem nanos_delayAt (p : BackoffPolicy) (k : Nat) :
    (p.delayAt k).nanos = min p.ceiling
      (p.unit.nanos * min (max p.initialUnits.toNat 2 ^ 2 ^ k) (UInt32.size - 1)) := by
  rw [delayAt, nanos_delay, (p.iterate_next k).2, min_units_iterate_next]

theorem ceiling_le_cap {cap : Duration} (h : p.cap = some cap) : p.ceiling ≤ cap.nanos := by
  rw [ceiling, h]
  exact Nat.min_le_left _ _

/-! ## Growth -/

/-- How the waits of a backoff that was just started grow. -/
structure Squares (p : BackoffPolicy) : Prop where
  /-- The number of units is squared from each wait to the next, and the wait is cut once. -/
  delay_eq : ∀ k, (p.delayAt k).nanos = min p.ceiling
    (p.unit.nanos * min (max p.initialUnits.toNat 2 ^ 2 ^ k) (UInt32.size - 1))
  /-- The units fit 64 bits behind any number of waits. -/
  units_lt : ∀ k, (Backoff.next^[k] p.start).units < UInt64.size
  /-- The number of waits fits 32 bits for as long as it can. -/
  attempts_lt : ∀ k, k < UInt32.size - 1 →
    (Backoff.next^[k + 1] p.start).attempts < UInt32.size
  monotone : Monotone fun k => (p.delayAt k).nanos
  le_cap : ∀ cap, p.cap = some cap → ∀ k, (p.delayAt k).nanos ≤ cap.nanos
  /-- Each wait is longer than the one before it, up to the longest of all. -/
  lt_succ : 0 < p.unit.nanos → ∀ k,
    (p.delayAt k).nanos < min p.ceiling (p.unit.nanos * (UInt32.size - 1)) →
    (p.delayAt k).nanos < (p.delayAt (k + 1)).nanos

/-- A power of the units grows with each squaring. -/
theorem units_pow_lt (p : BackoffPolicy) (k : Nat) :
    max p.initialUnits.toNat 2 ^ 2 ^ k < max p.initialUnits.toNat 2 ^ 2 ^ (k + 1) :=
  Nat.pow_lt_pow_right (by omega) (Nat.pow_lt_pow_right (by decide) (Nat.lt_succ_self k))

theorem monotone_delayAt (p : BackoffPolicy) : Monotone fun k => (p.delayAt k).nanos := by
  refine monotone_nat_of_le_succ fun k => ?_
  rw [nanos_delayAt, nanos_delayAt]
  exact min_le_min_left _ (Nat.mul_le_mul_left _ (min_le_min_right _ (p.units_pow_lt k).le))

/-- A wait that is shorter than the longest one is cut nowhere. -/
theorem delayAt_lt_succ (hunit : 0 < p.unit.nanos)
    (h : (p.delayAt k).nanos < min p.ceiling (p.unit.nanos * (UInt32.size - 1))) :
    (p.delayAt k).nanos < (p.delayAt (k + 1)).nanos := by
  obtain ⟨hceiling, hfactor⟩ := lt_min_iff.1 h
  -- Below the ceiling the product is exact, and below the largest factor the power is.
  have hpow := p.units_pow_lt k
  rw [nanos_delayAt] at hceiling hfactor
  have hexact := (min_lt_iff.1 hceiling).resolve_left (Nat.lt_irrefl _)
  rw [Nat.min_eq_right hexact.le] at hfactor
  have hsmall := (min_lt_iff.1 (Nat.lt_of_mul_lt_mul_left hfactor)).resolve_right (Nat.lt_irrefl _)
  -- The next wait is the ceiling, which is above this one, or comes of a greater factor.
  rw [nanos_delayAt, nanos_delayAt, Nat.min_eq_right hexact.le]
  exact lt_min hexact (Nat.mul_lt_mul_of_pos_left (lt_min (by omega) (by omega)) hunit)

/-- The waits of a backoff that was just started are the unit times the powers of the first number
of units, cut at the cap and at the longest duration. -/
theorem squares (p : BackoffPolicy) : p.Squares where
  delay_eq := p.nanos_delayAt
  units_lt k := by
    rw [units_iterate_next]
    exact (Nat.min_le_right _ _).trans_lt (by decide)
  attempts_lt k hk := by
    rw [(p.iterate_next (k + 1)).1]
    omega
  monotone := p.monotone_delayAt
  le_cap cap hcap k := by
    rw [nanos_delayAt]
    exact (Nat.min_le_left _ _).trans (ceiling_le_cap hcap)
  lt_succ hunit _ := delayAt_lt_succ hunit

end BackoffPolicy

end ClusterKeeper
