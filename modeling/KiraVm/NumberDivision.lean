import KiraVm.NumberRounding
import Mathlib.Tactic.LinearCombination

/-!
# Decimal division

A quotient is tried at one scale after another, from the largest one down.  At
each scale the exact rational is rounded once, and a scale is passed over only when
the rounded mantissa has no place in 64 bits.
-/

namespace KiraVm

namespace Decimal

/-- The rational that a decimal stands for. -/
def value (self : Decimal) : ℚ :=
  (self.mantissa.toInt : ℚ) / 10 ^ self.scale.toNat

def Holds (number : ℚ) (mantissa : Int) : Prop :=
  FitsI64 mantissa ∧ Rounding.NearestEven number mantissa

theorem pow10_of_le {power : Nat} (small : power ≤ 38) : pow10 power = some (10 ^ power) := by
  induction power with
  | zero => rfl
  | succ power ih =>
    have fits : FitsI128 ((10 : Int) ^ power * 10) := by
      have positive : (0 : Int) < 10 ^ power := by positivity
      have bounded : (10 : Int) ^ power ≤ 10 ^ 37 :=
        pow_le_pow_right₀ (by decide) (by omega)
      unfold FitsI128
      omega
    rw [pow10, ih (by omega), Option.bind_some, checked_of_fits fits, pow_succ]

section Quotient

variable {self other : Decimal} {scale : Nat}

/-- The quotient at a scale as a quotient of integers. -/
theorem value_div_value {numeratorPower denominatorPower : Nat}
    (powers : numeratorPower + self.scale.toNat =
      denominatorPower + (other.scale.toNat + scale)) :
    self.value / other.value * 10 ^ scale =
      ((self.mantissa.toInt * 10 ^ numeratorPower : Int) : ℚ) /
        (other.mantissa.toInt * 10 ^ denominatorPower : Int) := by
  have lifted : (10 : ℚ) ^ numeratorPower * 10 ^ self.scale.toNat =
      10 ^ denominatorPower * (10 ^ other.scale.toNat * 10 ^ scale) := by
    rw [← pow_add, ← pow_add, ← pow_add, powers]
  have ten (power : Nat) : (10 : ℚ) ^ power ≠ 0 := by positivity
  unfold value
  push_cast
  by_cases zero : (other.mantissa.toInt : ℚ) = 0
  · simp [zero]
  · rw [div_div_div_eq, div_mul_eq_mul_div, div_eq_div_iff
      (mul_ne_zero (ten _) zero) (mul_ne_zero zero (ten _))]
    linear_combination (self.mantissa.toInt : ℚ) * other.mantissa.toInt * (-lifted)

theorem not_holds_of_lifted {numerator denominator : Int} (tooLarge : ¬ FitsI128 numerator)
    (nonzero : denominator ≠ 0) (denominatorFits : FitsI64 denominator) (mantissa : Int) :
    ¬ Holds ((numerator : ℚ) / denominator) mantissa := by
  rintro ⟨fits, nearest⟩
  rw [nearest_div_iff nonzero] at nearest
  have near := nearest.1
  unfold FitsI128 at tooLarge
  unfold FitsI64 at fits denominatorFits
  have product : (mantissa * denominator).natAbs ≤ 2 ^ 63 * 2 ^ 63 := by
    rw [Int.natAbs_mul]
    exact Nat.mul_le_mul (by omega) (by omega)
  omega

variable (selfScale : self.scale.toNat ≤ maxScale) (otherScale : other.scale.toNat ≤ maxScale)
  (nonzero : other.mantissa.toInt ≠ 0) (scaleLe : scale ≤ maxScale)

include selfScale otherScale nonzero scaleLe

theorem liftedOperands_some {numerator denominator : Int}
    (lifted : liftedOperands self.mantissa.toInt other.mantissa.toInt
      ((other.scale.toNat - self.scale.toNat : Int) + scale) = some (numerator, denominator)) :
    FitsI128 numerator ∧ FitsI128 denominator ∧ denominator ≠ 0 ∧
      ¬ (numerator = -2 ^ 127 ∧ denominator = -1) ∧
      self.value / other.value * 10 ^ scale = (numerator : ℚ) / denominator := by
  have selfFits := fitsI64_mantissa self.mantissa
  have otherFits := fitsI64_mantissa other.mantissa
  unfold FitsI64 at selfFits otherFits
  unfold maxScale at selfScale otherScale scaleLe
  unfold liftedOperands at lifted
  split at lifted
  · next upward =>
      rw [pow10_of_le (by omega), Option.bind_some, Option.map_eq_some_iff] at lifted
      obtain ⟨_, raised, pair⟩ := lifted
      rw [checked_eq_some_iff] at raised
      obtain ⟨fits, rfl⟩ := raised
      injection pair with numeratorEq denominatorEq
      subst numeratorEq denominatorEq
      refine ⟨fits, ?_, nonzero, ?_, ?_⟩
      · unfold FitsI128
        omega
      · rintro ⟨least, -⟩
        -- the least integer of 128 bits is no multiple of ten
        cases power : ((other.scale.toNat - self.scale.toNat : Int) + scale).toNat with
        | zero =>
          rw [power, pow_zero, Int.mul_one] at least
          omega
        | succ smaller =>
          rw [power, pow_succ, ← Int.mul_assoc] at least
          omega
      · have quotient := @value_div_value self other scale
          ((other.scale.toNat - self.scale.toNat : Int) + scale).toNat 0 (by omega)
        rw [quotient, pow_zero, Int.mul_one]
  · next downward =>
      rw [pow10_of_le (by omega), Option.bind_some, Option.map_eq_some_iff] at lifted
      obtain ⟨_, raised, pair⟩ := lifted
      rw [checked_eq_some_iff] at raised
      obtain ⟨fits, rfl⟩ := raised
      injection pair with numeratorEq denominatorEq
      subst numeratorEq denominatorEq
      refine ⟨?_, fits, mul_ne_zero nonzero (by positivity), ?_, ?_⟩
      · unfold FitsI128
        omega
      · omega
      · have quotient := @value_div_value self other scale 0
          (-((other.scale.toNat - self.scale.toNat : Int) + scale)).toNat (by omega)
        rw [quotient, pow_zero, Int.mul_one]

theorem liftedOperands_none
    (lifted : liftedOperands self.mantissa.toInt other.mantissa.toInt
      ((other.scale.toNat - self.scale.toNat : Int) + scale) = none) (mantissa : Int) :
    ¬ Holds (self.value / other.value * 10 ^ scale) mantissa := by
  have otherFits := fitsI64_mantissa other.mantissa
  unfold maxScale at selfScale otherScale scaleLe
  unfold liftedOperands at lifted
  split at lifted
  · next upward =>
      rw [pow10_of_le (by omega), Option.bind_some, Option.map_eq_none_iff,
        checked_eq_none_iff] at lifted
      have quotient := @value_div_value self other scale
        ((other.scale.toNat - self.scale.toNat : Int) + scale).toNat 0 (by omega)
      rw [quotient, pow_zero, Int.mul_one]
      exact not_holds_of_lifted lifted nonzero otherFits mantissa
  · next downward =>
      rw [pow10_of_le (by omega), Option.bind_some, Option.map_eq_none_iff,
        checked_eq_none_iff] at lifted
      refine absurd ?_ lifted
      generalize powerEq : (-((other.scale.toNat - self.scale.toNat : Int) + scale)).toNat = power
      have bounded : (10 : Int) ^ power ≤ 10 ^ 18 := pow_le_pow_right₀ (by decide) (by omega)
      have positive : (0 : Int) < 10 ^ power := by positivity
      have product : (other.mantissa.toInt * 10 ^ power).natAbs ≤ 2 ^ 63 * 10 ^ 18 := by
        rw [Int.natAbs_mul]
        unfold FitsI64 at otherFits
        exact Nat.mul_le_mul (by omega) (by omega)
      unfold FitsI128
      omega

/-- A scale is tried with one rounding of the exact quotient, and no hint changes
what comes of it. -/
theorem candidate_spec (estimate : Int → Int → Option Int) :
    ∃ found, candidate estimate self other scale = .ok found ∧
      (∀ decimal, found = some decimal → decimal.scale = UInt32.ofNat scale ∧
        Holds (self.value / other.value * 10 ^ scale) decimal.mantissa.toInt) ∧
      (found = none → ∀ mantissa, ¬ Holds (self.value / other.value * 10 ^ scale) mantissa) := by
  unfold candidate quotientAtScale
  simp only
  split
  · next lifted =>
      refine ⟨none, rfl, by simp, ?_⟩
      intro _
      exact liftedOperands_none selfScale otherScale nonzero scaleLe lifted
  · next numerator denominator lifted =>
      obtain ⟨fits, denominatorFits, denominatorNonzero, inside, quotient⟩ :=
        liftedOperands_some selfScale otherScale nonzero scaleLe lifted
      obtain ⟨hinted, run, -, agrees⟩ := divideRoundHalfEvenHinted_answers
        (estimate numerator denominator) fits denominatorFits denominatorNonzero
      obtain ⟨rounded, answer, nearest⟩ :=
        divideRoundHalfEven_nearest fits denominatorFits denominatorNonzero inside
      refine ⟨(toI64 rounded).map fun mantissa => ⟨mantissa, UInt32.ofNat scale⟩, ?_, ?_, ?_⟩
      · rw [run]
        rcases hinted with _ | hint
        · rw [answer]
          rfl
        · have same : rounded = hint := by
            have exact := answer.symm.trans (agrees hint rfl)
            injection exact with exact
            injection exact
          rw [same]
          rfl
      · intro decimal found
        rw [Option.map_eq_some_iff] at found
        obtain ⟨mantissa, narrowed, rfl⟩ := found
        rw [toI64_eq_some_iff] at narrowed
        refine ⟨rfl, ?_⟩
        rw [quotient, narrowed.2]
        exact ⟨narrowed.1, nearest⟩
      · intro missing mantissa
        rw [Option.map_eq_none_iff, toI64_eq_none_iff] at missing
        rintro ⟨mantissaFits, mantissaNearest⟩
        rw [quotient] at mantissaNearest
        rw [nearest.unique mantissaNearest] at missing
        exact missing mantissaFits

end Quotient

/-! ## The search -/

variable {self : Decimal}

theorem divideFrom_spec (estimate : Int → Int → Option Int) {other : Decimal}
    (selfScale : self.scale.toNat ≤ maxScale) (otherScale : other.scale.toNat ≤ maxScale)
    (nonzero : other.mantissa.toInt ≠ 0) {top : Nat} (topLe : top ≤ maxScale) :
    (∃ quotient, divideFrom estimate self other top = .ok (.ok quotient) ∧
        quotient.scale.toNat ≤ top ∧
        Holds (self.value / other.value * 10 ^ quotient.scale.toNat) quotient.mantissa.toInt ∧
        ∀ scale, quotient.scale.toNat < scale → scale ≤ top →
          ∀ mantissa, ¬ Holds (self.value / other.value * 10 ^ scale) mantissa) ∨
      (divideFrom estimate self other top = .ok (.error .overflow) ∧
        ∀ scale ≤ top, ∀ mantissa, ¬ Holds (self.value / other.value * 10 ^ scale) mantissa) := by
  have scaleEq (scale : Nat) (small : scale ≤ maxScale) : (UInt32.ofNat scale).toNat = scale := by
    exact UInt32.toNat_ofNat_of_lt' (lt_of_le_of_lt small (by decide))
  induction top with
  | zero =>
    obtain ⟨found, run, fits, missing⟩ :=
      candidate_spec selfScale otherScale nonzero topLe estimate
    unfold divideFrom
    rw [run]
    rcases found with _ | decimal
    · right
      refine ⟨rfl, ?_⟩
      intro scale small
      rw [Nat.le_zero.mp small]
      exact missing rfl
    · left
      obtain ⟨scale, holds⟩ := fits decimal rfl
      refine ⟨decimal, rfl, ?_, ?_, ?_⟩
      · rw [scale, scaleEq 0 topLe]
      · rw [scale, scaleEq 0 topLe]
        exact holds
      · intro larger above below
        omega
  | succ top ih =>
    obtain ⟨found, run, fits, missing⟩ :=
      candidate_spec selfScale otherScale nonzero topLe estimate
    unfold divideFrom
    rw [run]
    rcases found with _ | decimal
    · rcases ih (by omega) with ⟨quotient, answer, within, holds, largest⟩ | ⟨answer, none⟩
      · left
        refine ⟨quotient, answer, by omega, holds, ?_⟩
        intro scale above below
        rcases Nat.lt_or_eq_of_le below with less | equal
        · exact largest scale above (by omega)
        · rw [equal]
          exact missing rfl
      · right
        refine ⟨answer, ?_⟩
        intro scale below
        rcases Nat.lt_or_eq_of_le below with less | equal
        · exact none scale (by omega)
        · rw [equal]
          exact missing rfl
    · left
      obtain ⟨scale, holds⟩ := fits decimal rfl
      refine ⟨decimal, rfl, ?_, ?_, ?_⟩
      · rw [scale, scaleEq _ topLe]
      · rw [scale, scaleEq _ topLe]
        exact holds
      · intro larger above below
        rw [scale, scaleEq _ topLe] at above
        omega

theorem eq_of_toInt {other : Decimal} (mantissa : self.mantissa.toInt = other.mantissa.toInt)
    (scale : self.scale.toNat = other.scale.toNat) : self = other := by
  cases self
  cases other
  congr
  · exact Int64.toInt_inj.mp mantissa
  · exact UInt32.toNat_inj.mp scale

theorem value_eq_zero_iff : self.value = 0 ↔ self.mantissa.toInt = 0 := by
  unfold value
  rw [div_eq_zero_iff, Int.cast_eq_zero]
  constructor
  · rintro (zero | power)
    · exact zero
    · exact absurd power (by positivity)
  · exact Or.inl

/-- Division, whatever the floating-point estimates.  It never leaves the range of
its intermediates.  It answers the nearest mantissa, a tie going to the even one, at
the largest scale that has one in 64 bits; it overflows exactly when no scale has
one, and fails on a zero divisor exactly when the divisor is zero. -/
theorem divide_rounds_once (estimate : Int → Int → Option Int) (self other : Decimal)
    (selfScale : self.scale.toNat ≤ maxScale) (otherScale : other.scale.toNat ≤ maxScale) :
    ∃ answer, divide estimate self other = .ok answer ∧
      (answer = .error .divideByZero ↔ other.value = 0) ∧
      (answer = .error .overflow ↔ other.value ≠ 0 ∧
        ∀ scale ≤ maxScale, ∀ mantissa,
          ¬ Holds (self.value / other.value * 10 ^ scale) mantissa) ∧
      (∀ quotient, answer = .ok quotient ↔ other.value ≠ 0 ∧ quotient.scale.toNat ≤ maxScale ∧
        Holds (self.value / other.value * 10 ^ quotient.scale.toNat) quotient.mantissa.toInt ∧
        ∀ scale, quotient.scale.toNat < scale → scale ≤ maxScale →
          ∀ mantissa, ¬ Holds (self.value / other.value * 10 ^ scale) mantissa) ∧
      answer ≠ .error .parse := by
  unfold divide
  by_cases zero : other.mantissa = 0
  · have isZero : other.value = 0 := by
      rw [value_eq_zero_iff, zero]
      rfl
    rw [if_pos zero]
    refine ⟨_, rfl, ?_⟩
    simp [isZero]
  · have nonzero : other.mantissa.toInt ≠ 0 := by
      intro equal
      exact zero (Int64.toInt_inj.mp equal)
    have isNonzero : other.value ≠ 0 := by
      rw [ne_eq, value_eq_zero_iff]
      exact nonzero
    rw [if_neg zero]
    rcases divideFrom_spec estimate selfScale otherScale nonzero (le_refl maxScale) with
      ⟨quotient, answer, within, holds, largest⟩ | ⟨answer, none⟩
    · refine ⟨_, answer, by simp [isNonzero], ?_, ?_, by simp⟩
      · simp only [reduceCtorEq, false_iff, not_and]
        intro _ none
        exact none quotient.scale.toNat within quotient.mantissa.toInt holds
      · intro other'
        simp only [Except.ok.injEq]
        constructor
        · rintro rfl
          exact ⟨isNonzero, within, holds, largest⟩
        · rintro ⟨-, otherWithin, otherHolds, otherLargest⟩
          have scale : quotient.scale.toNat = other'.scale.toNat := by
            rcases lt_trichotomy quotient.scale.toNat other'.scale.toNat with less | equal | more
            · exact absurd otherHolds (largest _ less otherWithin _)
            · exact equal
            · exact absurd holds (otherLargest _ more within _)
          rw [← scale] at otherHolds
          exact eq_of_toInt (holds.2.unique otherHolds.2) scale
    · refine ⟨_, answer, by simp [isNonzero], ?_, ?_, by simp⟩
      · simp only [true_iff]
        exact ⟨isNonzero, none⟩
      · intro other'
        simp only [reduceCtorEq, false_iff, not_and]
        intro _ otherWithin otherHolds
        exact absurd otherHolds (none _ otherWithin _)

/-- One quarter keeps all eighteen digits. -/
theorem divide_rounds_once_quarter :
    ∃ answer, divide (fun _ _ => none) ⟨1, 0⟩ ⟨4, 0⟩ = .ok answer ∧
      (answer = .error .divideByZero ↔ value ⟨4, 0⟩ = 0) ∧
      (answer = .error .overflow ↔ value ⟨4, 0⟩ ≠ 0 ∧
        ∀ scale ≤ maxScale, ∀ mantissa,
          ¬ Holds (value ⟨1, 0⟩ / value ⟨4, 0⟩ * 10 ^ scale) mantissa) ∧
      (∀ quotient, answer = .ok quotient ↔
        value ⟨4, 0⟩ ≠ 0 ∧ quotient.scale.toNat ≤ maxScale ∧
        Holds (value ⟨1, 0⟩ / value ⟨4, 0⟩ * 10 ^ quotient.scale.toNat)
          quotient.mantissa.toInt ∧
        ∀ scale, quotient.scale.toNat < scale → scale ≤ maxScale →
          ∀ mantissa, ¬ Holds (value ⟨1, 0⟩ / value ⟨4, 0⟩ * 10 ^ scale) mantissa) ∧
      answer ≠ .error .parse :=
  divide_rounds_once (fun _ _ => none) ⟨1, 0⟩ ⟨4, 0⟩ (by decide) (by decide)

/-- The trailing zeros of a quotient stay. -/
theorem divide_keeps_trailing_zeros :
    divide (fun _ _ => none) ⟨1, 0⟩ ⟨4, 0⟩ = .ok (.ok ⟨250000000000000000, 18⟩) := by
  decide

end Decimal

end KiraVm
