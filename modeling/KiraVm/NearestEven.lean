import Mathlib.Algebra.Order.Field.Basic
import Mathlib.Algebra.Ring.Int.Parity
import Mathlib.Algebra.Order.Ring.Abs
import Mathlib.Data.Int.Cast.Lemmas
import Mathlib.Data.Rat.Cast.Order
import Mathlib.Tactic.Linarith
import Mathlib.Tactic.FieldSimp
import Mathlib.Tactic.Ring

/-!
# The nearest integer

Rounding to the nearest integer, a tie going to the even neighbour.  The rounding
of a quotient of integers is decided by its remainder alone.
-/

namespace Rounding

variable {K : Type*} [Field K] [LinearOrder K] [IsStrictOrderedRing K]

/-- An integer nearest to a number, and an even one where two are equally near. -/
def NearestEven (number : K) (nearest : ℤ) : Prop :=
  2 * |number - nearest| ≤ 1 ∧ (2 * |number - nearest| = 1 → Even nearest)

theorem nearestEven_intCast (number : ℤ) : NearestEven (number : K) number := by
  constructor
  · simp
  · intro tie
    simp at tie

/-- Two integers at most half away from a number are at most one apart. -/
theorem NearestEven.close {number : K} {one other : ℤ} (first : NearestEven number one)
    (second : NearestEven number other) : |one - other| ≤ 1 := by
  have apart : |(one : K) - other| ≤ |number - one| + |number - other| := by
    rw [abs_sub_comm number one]
    have triangle := abs_add_le ((one : K) - number) (number - other)
    rwa [sub_add_sub_cancel] at triangle
  have firstNear := first.1
  have secondNear := second.1
  have within : |(one : K) - other| ≤ 1 := by linarith
  exact_mod_cast within

theorem NearestEven.unique {number : K} {one other : ℤ} (first : NearestEven number one)
    (second : NearestEven number other) : one = other := by
  by_contra differ
  have close := first.close second
  have apart : |one - other| = 1 := by
    have positive : 0 < |one - other| := abs_pos.mpr (sub_ne_zero.mpr differ)
    omega
  have distance : |(one : K) - other| = 1 := by exact_mod_cast apart
  have triangle : |(one : K) - other| ≤ |number - one| + |number - other| := by
    rw [abs_sub_comm number one]
    have sum := abs_add_le ((one : K) - number) (number - other)
    rwa [sub_add_sub_cancel] at sum
  have firstNear := first.1
  have secondNear := second.1
  have oneEven : Even one := first.2 (by linarith)
  have otherEven : Even other := second.2 (by linarith)
  rw [Int.even_iff] at oneEven otherEven
  rcases abs_eq (zero_le_one) |>.mp apart with up | down <;> omega

/-- The rounding of a quotient, said of its remainder. -/
theorem nearestEven_div_iff {numerator denominator quotient : ℤ} (nonzero : denominator ≠ 0) :
    NearestEven ((numerator : K) / denominator) quotient ↔
      2 * |numerator - quotient * denominator| ≤ |denominator| ∧
        (2 * |numerator - quotient * denominator| = |denominator| → Even quotient) := by
  have castNonzero : (denominator : K) ≠ 0 := by exact_mod_cast nonzero
  have positive : 0 < |(denominator : K)| := abs_pos.mpr castNonzero
  have distance : 2 * |(numerator : K) / denominator - quotient| =
      ((2 * |numerator - quotient * denominator| : ℤ) : K) / ((|denominator| : ℤ) : K) := by
    push_cast
    rw [div_sub' castNonzero, abs_div, mul_comm (denominator : K), mul_div_assoc]
  have castPositive : (0 : K) < ((|denominator| : ℤ) : K) := by
    push_cast
    exact positive
  unfold NearestEven
  rw [distance, div_le_one castPositive, div_eq_one_iff_eq castPositive.ne', Int.cast_le,
    Int.cast_inj]

end Rounding
