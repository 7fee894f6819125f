import KiraVm.NumberModel
import KiraVm.NearestEven
import Mathlib.Tactic.NormNum

/-!
# Rounded quotients

A truncated division is settled by its equation, the size of its remainder and
the sign of its remainder.  The exact division and the correction of an estimate
both reach it, and rounding it gives the nearest integer to the quotient.
-/

namespace KiraVm

namespace Decimal

/-! ## Ranges -/

variable {value numerator denominator : Int}

theorem checked_of_fits (fits : FitsI128 value) : checked value = some value :=
  if_pos fits

theorem unchecked_of_fits (fits : FitsI128 value) : unchecked value = .ok value :=
  if_pos fits

theorem checked_eq_some_iff {result : Int} :
    checked value = some result ↔ FitsI128 value ∧ result = value := by
  unfold checked
  split <;> simp_all [eq_comm]

theorem checked_eq_none_iff : checked value = none ↔ ¬ FitsI128 value := by
  unfold checked
  split <;> simp_all

theorem toI64_eq_some_iff {result : Int64} :
    toI64 value = some result ↔ FitsI64 value ∧ result.toInt = value := by
  unfold toI64
  constructor
  · intro narrowed
    split at narrowed
    · next fits =>
        have exact : (Int64.ofInt value).toInt = value :=
          Int64.toInt_ofInt_of_le fits.1 fits.2
        exact ⟨fits, by rw [← Option.some.inj narrowed, exact]⟩
    · cases narrowed
  · rintro ⟨fits, value⟩
    rw [if_pos fits, ← value, Int64.ofInt_toInt]

theorem toI64_eq_none_iff : toI64 value = none ↔ ¬ FitsI64 value := by
  unfold toI64
  split <;> simp_all

theorem fitsI64_mantissa (word : Int64) : FitsI64 word.toInt :=
  ⟨word.le_toInt, word.toInt_lt⟩

/-! ## Truncated division -/

theorem nearest_div_iff {quotient : Int} (nonzero : denominator ≠ 0) :
    Rounding.NearestEven ((numerator : ℚ) / denominator) quotient ↔
      2 * (numerator - quotient * denominator).natAbs ≤ denominator.natAbs ∧
        (2 * (numerator - quotient * denominator).natAbs = denominator.natAbs →
          quotient % 2 = 0) := by
  rw [Rounding.nearestEven_div_iff nonzero, Int.even_iff, Int.abs_eq_natAbs, Int.abs_eq_natAbs]
  omega

theorem tmod_two_eq_zero_iff : value.tmod 2 = 0 ↔ value % 2 = 0 := by
  rw [← Int.dvd_iff_tmod_eq_zero, Int.dvd_iff_emod_eq_zero]

/-- A division that truncates toward zero. -/
structure Truncates (numerator denominator quotient remainder : Int) : Prop where
  equation : numerator = quotient * denominator + remainder
  small : remainder.natAbs < denominator.natAbs
  sign : remainder = 0 ∨ (remainder < 0 ↔ numerator < 0)

theorem truncates_tdiv {numerator denominator : Int} (nonzero : denominator ≠ 0) :
    Truncates numerator denominator (numerator.tdiv denominator)
      (numerator.tmod denominator) where
  equation := by
    rw [mul_comm]
    exact (Int.mul_tdiv_add_tmod numerator denominator).symm
  small := by
    rw [Int.natAbs_tmod]
    exact Nat.mod_lt _ (Int.natAbs_pos.mpr nonzero)
  sign := by
    by_cases positive : 0 ≤ numerator
    · have signed := Int.tmod_nonneg denominator positive
      omega
    · have signed := Int.tmod_nonneg denominator (show 0 ≤ -numerator by omega)
      rw [Int.neg_tmod] at signed
      omega

theorem validDivision_iff {remainder : Int} :
    validDivision numerator denominator remainder = true ↔
      remainder.natAbs < denominator.natAbs ∧
        (remainder = 0 ∨ (remainder < 0 ↔ numerator < 0)) := by
  simp only [validDivision, Bool.and_eq_true, decide_eq_true_eq, Bool.or_eq_true, beq_iff_eq,
    decide_eq_decide]

namespace Truncates

variable {numerator denominator quotient remainder : Int}

/-- The remainders of two truncated divisions differ by less than the denominator. -/
theorem unique {otherQuotient otherRemainder : Int}
    (one : Truncates numerator denominator quotient remainder)
    (other : Truncates numerator denominator otherQuotient otherRemainder) :
    quotient = otherQuotient ∧ remainder = otherRemainder := by
  have same : (quotient - otherQuotient) * denominator = otherRemainder - remainder := by
    have equations := one.equation.symm.trans other.equation
    rw [Int.sub_mul]
    omega
  have small : (otherRemainder - remainder).natAbs < denominator.natAbs := by
    have oneSmall := one.small
    have otherSmall := other.small
    rcases one.sign with zero | sign
    · omega
    · rcases other.sign with zero | otherSign <;> omega
  have equal : quotient - otherQuotient = 0 := by
    by_contra differ
    have atLeast : denominator.natAbs ≤ (otherRemainder - remainder).natAbs := by
      rw [← same, Int.natAbs_mul]
      exact Nat.le_mul_of_pos_left _ (Int.natAbs_pos.mpr differ)
    omega
  rw [equal, Int.zero_mul] at same
  omega

/-- What is left over tells on which side of the quotient a wrong one is. -/
theorem side {wrong left : Int} (division : Truncates numerator denominator quotient remainder)
    (equation : numerator = wrong * denominator + left)
    (invalid : ¬ (left.natAbs < denominator.natAbs ∧ (left = 0 ∨ (left < 0 ↔ numerator < 0)))) :
    if 0 < left ↔ 0 < denominator then wrong < quotient else quotient < wrong := by
  have small := division.small
  have sign := division.sign
  have same : (quotient - wrong) * denominator = left - remainder := by
    have equations := equation.symm.trans division.equation
    rw [Int.sub_mul]
    omega
  rcases lt_trichotomy 0 denominator with positive | zero | negative
  · split
    · by_contra past
      have below : (quotient - wrong) * denominator ≤ 0 :=
        mul_nonpos_of_nonpos_of_nonneg (by omega) positive.le
      omega
    · by_contra past
      have above : 0 ≤ (quotient - wrong) * denominator := mul_nonneg (by omega) positive.le
      omega
  · omega
  · split
    · by_contra past
      have above : 0 ≤ (quotient - wrong) * denominator :=
        mul_nonneg_of_nonpos_of_nonpos (by omega) negative.le
      omega
    · by_contra past
      have below : (quotient - wrong) * denominator ≤ 0 :=
        mul_nonpos_of_nonneg_of_nonpos (by omega) negative.le
      omega

theorem quotient_le (division : Truncates numerator denominator quotient remainder)
    (leaves : remainder ≠ 0) : 2 * quotient.natAbs ≤ numerator.natAbs := by
  have small := division.small
  have product : (quotient * denominator).natAbs ≤ numerator.natAbs := by
    have equation := division.equation
    have sign := division.sign.resolve_left leaves
    by_cases flat : quotient = 0
    · simp [flat]
    · have large : denominator.natAbs ≤ (quotient * denominator).natAbs := by
        rw [Int.natAbs_mul]
        exact Nat.le_mul_of_pos_left _ (Int.natAbs_pos.mpr flat)
      omega
  rw [Int.natAbs_mul, Nat.mul_comm] at product
  have twice : 2 * quotient.natAbs ≤ denominator.natAbs * quotient.natAbs :=
    Nat.mul_le_mul_right _ (by omega)
  omega

theorem nearest_of_le (division : Truncates numerator denominator quotient remainder)
    (near : 2 * remainder.natAbs ≤ denominator.natAbs)
    (tie : 2 * remainder.natAbs = denominator.natAbs → quotient.tmod 2 = 0) :
    Rounding.NearestEven ((numerator : ℚ) / denominator) quotient := by
  have small := division.small
  have distance : numerator - quotient * denominator = remainder := by
    have equation := division.equation
    omega
  rw [nearest_div_iff (by omega), distance]
  constructor
  · exact near
  · intro equal
    exact tmod_two_eq_zero_iff.mp (tie equal)

theorem nearest_of_ge (division : Truncates numerator denominator quotient remainder)
    (leaves : remainder ≠ 0) (far : denominator.natAbs ≤ 2 * remainder.natAbs)
    (tie : 2 * remainder.natAbs = denominator.natAbs → quotient.tmod 2 ≠ 0) :
    Rounding.NearestEven ((numerator : ℚ) / denominator)
      (quotient + if (decide (numerator < 0) ^^ decide (denominator < 0)) then -1 else 1) := by
  have small := division.small
  have sign := division.sign.resolve_left leaves
  have distance (step : Int) : numerator - (quotient + step) * denominator =
      remainder - step * denominator := by
    have equation := division.equation
    rw [Int.add_mul]
    omega
  rw [ne_eq, tmod_two_eq_zero_iff] at tie
  rw [nearest_div_iff (by omega), distance]
  by_cases negative : numerator < 0 <;> by_cases below : denominator < 0 <;>
    simp only [negative, below, decide_true, decide_false, Bool.xor_self, Bool.xor_true,
      Bool.xor_false, Bool.not_false, if_true, if_false, Bool.false_eq_true] <;>
    omega

theorem rounds (division : Truncates numerator denominator quotient remainder)
    (fits : FitsI128 numerator) (denominatorFits : FitsI128 denominator) :
    ∃ rounded, roundQuotientHalfEven quotient remainder numerator denominator = .ok rounded ∧
      Rounding.NearestEven ((numerator : ℚ) / denominator) rounded := by
  have small := division.small
  unfold roundQuotientHalfEven
  by_cases exact : remainder = 0
  · refine ⟨quotient, if_pos exact, division.nearest_of_le ?_ ?_⟩ <;> omega
  · have half := division.quotient_le exact
    unfold FitsI128 at fits denominatorFits
    rw [if_neg exact]
    simp only
    rw [if_neg (by omega)]
    -- the neighbour is in range because the quotient is at most half of the numerator
    have neighbour : FitsI128 (quotient +
        if (decide (numerator < 0) ^^ decide (denominator < 0)) then -1 else 1) := by
      unfold FitsI128
      split <;> omega
    rw [checked_of_fits neighbour]
    rcases lt_trichotomy (2 * remainder.natAbs) denominator.natAbs with less | tie | more
    · rw [compare_lt_iff_lt.mpr less]
      refine ⟨quotient, rfl, division.nearest_of_le ?_ ?_⟩ <;> omega
    · rw [compare_eq_iff_eq.mpr tie]
      by_cases even : quotient.tmod 2 = 0
      · refine ⟨quotient, by simp [even], division.nearest_of_le ?_ ?_⟩ <;> omega
      · refine ⟨_, by simp only [ne_eq, even, not_false_eq_true, decide_true, if_true],
          division.nearest_of_ge exact ?_ ?_⟩ <;> omega
    · rw [compare_gt_iff_gt.mpr more]
      refine ⟨_, rfl, division.nearest_of_ge exact ?_ ?_⟩ <;> omega

end Truncates

/-! ## The exact division -/

section Division

variable {numerator denominator : Int} (fits : FitsI128 numerator)
  (denominatorFits : FitsI128 denominator) (nonzero : denominator ≠ 0)

include nonzero

theorem divideRoundHalfEven_of_fits (quotientFits : FitsI128 (numerator.tdiv denominator)) :
    divideRoundHalfEven numerator denominator =
      .ok (roundQuotientHalfEven (numerator.tdiv denominator) (numerator.tmod denominator)
        numerator denominator) := by
  have quotient : wideQuotient numerator denominator = .ok (numerator.tdiv denominator) := by
    rw [wideQuotient, if_neg nonzero, unchecked_of_fits quotientFits]
  unfold divideRoundHalfEven wideRemainder
  rw [quotient]
  rfl

include fits

/-- Only the least integer has a quotient out of range, by minus one. -/
theorem tdiv_fits (inside : ¬ (numerator = -2 ^ 127 ∧ denominator = -1)) :
    FitsI128 (numerator.tdiv denominator) := by
  have division := @truncates_tdiv numerator _ nonzero
  unfold FitsI128 at fits ⊢
  by_cases exact : numerator.tmod denominator = 0
  · have equation := division.equation
    rw [exact, Int.add_zero] at equation
    by_cases unit : denominator.natAbs = 1
    · rcases Int.natAbs_eq_iff.mp unit with one | minus
      · rw [one] at equation ⊢
        omega
      · rw [minus] at equation inside ⊢
        omega
    · have half : 2 * (numerator.tdiv denominator).natAbs ≤ numerator.natAbs := by
        have product : numerator.natAbs =
            (numerator.tdiv denominator).natAbs * denominator.natAbs := by
          rw [← Int.natAbs_mul, ← equation]
        rw [product, Nat.mul_comm]
        exact Nat.mul_le_mul_left _ (by omega)
      omega
  · have half := division.quotient_le exact
    omega

include denominatorFits

theorem divideRoundHalfEven_nearest (inside : ¬ (numerator = -2 ^ 127 ∧ denominator = -1)) :
    ∃ rounded, divideRoundHalfEven numerator denominator = .ok (.ok rounded) ∧
      Rounding.NearestEven ((numerator : ℚ) / denominator) rounded := by
  obtain ⟨rounded, answer, nearest⟩ :=
    (@truncates_tdiv numerator _ nonzero).rounds fits denominatorFits
  refine ⟨rounded, ?_, nearest⟩
  rw [divideRoundHalfEven_of_fits nonzero (tdiv_fits fits nonzero inside), answer]

end Division

/-! ## The corrected estimate -/

/-- Each unit step keeps the equation of the division, and no step leaves the
range: the remainder moves toward zero. -/
theorem correctQuotient_truncates (denominatorFits : FitsI128 denominator) (budget : Nat)
    {quotient remainder : Int} (equation : numerator = quotient * denominator + remainder)
    (remainderFits : FitsI128 remainder) (room : quotient.natAbs + budget ≤ 2 ^ 126) :
    ∃ found, correctQuotient numerator denominator budget quotient remainder = .ok found ∧
      (∀ pair, found = some pair → Truncates numerator denominator pair.1 pair.2 ∧
        pair.1.natAbs ≤ quotient.natAbs + budget) ∧
      ∀ exact left, Truncates numerator denominator exact left →
        (found.isSome = true ↔ (exact - quotient).natAbs ≤ budget) := by
  have here {quotient remainder : Int} (budget : Nat)
      (equation : numerator = quotient * denominator + remainder)
      (valid : remainder.natAbs < denominator.natAbs ∧
        (remainder = 0 ∨ (remainder < 0 ↔ numerator < 0))) :
      (∀ pair, some (quotient, remainder) = some pair →
        Truncates numerator denominator pair.1 pair.2 ∧
          pair.1.natAbs ≤ quotient.natAbs + budget) ∧
      ∀ exact left, Truncates numerator denominator exact left →
        ((some (quotient, remainder)).isSome = true ↔ (exact - quotient).natAbs ≤ budget) := by
    have division : Truncates numerator denominator quotient remainder :=
      ⟨equation, valid.1, valid.2⟩
    refine ⟨?_, fun exact left truncates => ?_⟩
    · rintro pair ⟨⟩
      exact ⟨division, Nat.le_add_right _ _⟩
    · rw [(division.unique truncates).1]
      simp
  induction budget generalizing quotient remainder with
  | zero =>
    unfold correctQuotient
    split
    · next valid =>
        rw [validDivision_iff] at valid
        exact ⟨_, rfl, here _ equation valid⟩
    · next invalid =>
        rw [validDivision_iff] at invalid
        refine ⟨none, rfl, by simp, fun exact left truncates => ?_⟩
        have side := truncates.side equation invalid
        simp only [Option.isSome_none, Bool.false_eq_true, false_iff]
        split at side <;> omega
  | succ budget ih =>
    unfold correctQuotient
    split
    · next valid =>
        rw [validDivision_iff] at valid
        exact ⟨_, rfl, here _ equation valid⟩
    · next invalid =>
        rw [validDivision_iff] at invalid
        unfold FitsI128 at denominatorFits remainderFits
        simp only
        split
        · next toward =>
            rw [beq_iff_eq, decide_eq_decide] at toward
            have stepFits : FitsI128 (remainder - denominator) := by
              unfold FitsI128
              omega
            have nextFits : FitsI128 (quotient + 1) := by
              unfold FitsI128
              omega
            obtain ⟨found, run, truncates, reach⟩ := @ih (quotient + 1) (remainder - denominator)
              (by rw [Int.add_mul]; omega) stepFits (by omega)
            refine ⟨found, ?_, ?_, fun exact left division => ?_⟩
            · rw [checked_of_fits nextFits, unchecked_of_fits stepFits]
              exact run
            · intro pair reached
              have division := truncates pair reached
              exact ⟨division.1, by omega⟩
            · have side := division.side equation invalid
              rw [if_pos toward] at side
              rw [reach exact left division]
              omega
        · next away =>
            rw [beq_iff_eq, decide_eq_decide] at away
            have stepFits : FitsI128 (remainder + denominator) := by
              unfold FitsI128
              omega
            have nextFits : FitsI128 (quotient - 1) := by
              unfold FitsI128
              omega
            obtain ⟨found, run, truncates, reach⟩ := @ih (quotient - 1) (remainder + denominator)
              (by rw [Int.sub_mul]; omega) stepFits (by omega)
            refine ⟨found, ?_, ?_, fun exact left division => ?_⟩
            · rw [checked_of_fits nextFits, unchecked_of_fits stepFits]
              exact run
            · intro pair reached
              have division := truncates pair reached
              exact ⟨division.1, by omega⟩
            · have side := division.side equation invalid
              rw [if_neg away] at side
              rw [reach exact left division]
              omega

/-- The estimates that are corrected: small ones, at most four steps off the truncated
quotient, whose products and differences are in range. -/
def InReach (estimate : Option Int) (numerator denominator : Int) : Prop :=
  ∃ quotient, estimate = some quotient ∧ |quotient| < hintBound ∧
    FitsI128 (quotient * denominator) ∧ FitsI128 (numerator - quotient * denominator) ∧
    (numerator.tdiv denominator - quotient).natAbs ≤ 4

theorem divideRoundHalfEvenHinted_answers (estimate : Option Int) (fits : FitsI128 numerator)
    (denominatorFits : FitsI128 denominator) (nonzero : denominator ≠ 0) :
    ∃ hinted, divideRoundHalfEvenHinted estimate numerator denominator = .ok hinted ∧
      (hinted.isSome = true ↔ InReach estimate numerator denominator) ∧
      ∀ rounded, hinted = some rounded →
        divideRoundHalfEven numerator denominator = .ok (.ok rounded) := by
  unfold divideRoundHalfEvenHinted InReach
  rcases estimate with _ | quotient
  · exact ⟨none, rfl, by simp, by simp⟩
  · simp only [Option.some.injEq, exists_eq_left']
    split
    · next large => exact ⟨none, rfl, by simp [large.not_gt], by simp⟩
    · next near =>
        have reachable := Int.not_le.mp near
        rw [hintBound, Int.abs_eq_natAbs] at near
        split
        · next missing =>
            rw [Option.bind_eq_none_iff] at missing
            refine ⟨none, rfl, ?_, by simp⟩
            simp only [Option.isSome_none, Bool.false_eq_true, false_iff, not_and]
            intro _ productFits differenceFits
            have nothing := missing _ (checked_of_fits productFits)
            rw [checked_of_fits differenceFits] at nothing
            cases nothing
        · next remainder multiplied =>
            rw [Option.bind_eq_some_iff] at multiplied
            obtain ⟨product, productFits, difference⟩ := multiplied
            rw [checked_eq_some_iff] at productFits difference
            have equation : numerator = quotient * denominator + remainder := by omega
            obtain ⟨found, run, truncates, reach⟩ := correctQuotient_truncates denominatorFits 4
              equation (by rw [difference.2]; exact difference.1) (by omega)
            rw [run]
            have exact := @truncates_tdiv numerator _ nonzero
            have near := reach _ _ exact
            have inRange : FitsI128 (quotient * denominator) ∧
                FitsI128 (numerator - quotient * denominator) := by
              refine ⟨productFits.1, ?_⟩
              rw [← productFits.2]
              exact difference.1
            simp only [reachable, inRange, true_and]
            rcases found with _ | ⟨corrected, left⟩
            · exact ⟨none, rfl, near, by simp⟩
            · obtain ⟨division, small⟩ := truncates _ rfl
              simp only at division small
              obtain ⟨rounded, answer, nearest⟩ := division.rounds fits denominatorFits
              refine ⟨some rounded, ?_, near, ?_⟩
              · change Except.ok
                    (roundQuotientHalfEven corrected left numerator denominator).toOption = _
                rw [answer]
                rfl
              · rintro _ ⟨⟩
                obtain ⟨sameQuotient, sameRemainder⟩ := exact.unique division
                have quotientFits : FitsI128 (numerator.tdiv denominator) := by
                  rw [sameQuotient]
                  unfold FitsI128
                  omega
                rw [divideRoundHalfEven_of_fits nonzero quotientFits, sameQuotient, sameRemainder,
                  answer]

/-- A hint is never a wrong answer.  Whatever the estimate, the hinted division ends
with no overflow, it answers just the estimates that are in reach, and what it answers is the
answer of the exact division; where it answers nothing the exact division is still there, and it finds the nearest integer
for every pair but the least integer by minus one. -/
theorem divideRoundHalfEvenHinted_exact (estimate : Option Int) {numerator denominator : Int}
    (fits : FitsI128 numerator) (denominatorFits : FitsI128 denominator)
    (nonzero : denominator ≠ 0) :
    (∃ hinted, divideRoundHalfEvenHinted estimate numerator denominator = .ok hinted ∧
        (hinted.isSome = true ↔ InReach estimate numerator denominator) ∧
        ∀ rounded, hinted = some rounded →
          divideRoundHalfEven numerator denominator = .ok (.ok rounded)) ∧
      (¬ (numerator = -2 ^ 127 ∧ denominator = -1) →
        ∃ rounded, divideRoundHalfEven numerator denominator = .ok (.ok rounded) ∧
          Rounding.NearestEven ((numerator : ℚ) / denominator) rounded) :=
  ⟨divideRoundHalfEvenHinted_answers estimate fits denominatorFits nonzero,
    divideRoundHalfEven_nearest fits denominatorFits nonzero⟩

/-- The estimate of 7 / 2 may be off by one. -/
theorem divideRoundHalfEvenHinted_exact_seven :
    (∃ hinted, divideRoundHalfEvenHinted (some 5) 7 2 = .ok hinted ∧
        (hinted.isSome = true ↔ InReach (some 5) 7 2) ∧
        ∀ rounded, hinted = some rounded → divideRoundHalfEven 7 2 = .ok (.ok rounded)) ∧
      (¬ ((7 : Int) = -2 ^ 127 ∧ (2 : Int) = -1) →
        ∃ rounded, divideRoundHalfEven 7 2 = .ok (.ok rounded) ∧
          Rounding.NearestEven (((7 : Int) : ℚ) / (2 : Int)) rounded) :=
  divideRoundHalfEvenHinted_exact (some 5) (by decide) (by decide) (by decide)

/-- Without a finite estimate the hinted division has no result of its own. -/
theorem divideRoundHalfEvenHinted_declines :
    divideRoundHalfEvenHinted none 1 1 = .ok none ∧ divideRoundHalfEven 1 1 = .ok (.ok 1) := by
  decide

end Decimal

end KiraVm
