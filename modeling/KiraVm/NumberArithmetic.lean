import KiraVm.NumberDivision

/-!
# Sums, differences and products of decimals

Mixed scales are aligned through 128 bits and the zeros are shed again, so there a
sum is as representable as its value.  Where the scales agree, and in a product, the
mantissa has to fit at the scale that the operands happen to have.
-/

namespace KiraVm

namespace Decimal

/-! ## Values -/

theorem ten_pow_ne_zero (power : Nat) : (10 : ℚ) ^ power ≠ 0 := by positivity

/-- Some decimal in range stands for the number. -/
def Representable (number : ℚ) : Prop :=
  ∃ decimal : Decimal, decimal.scale.toNat ≤ maxScale ∧ decimal.value = number

/-- A mantissa that has no fractional zero to shed. -/
def Reduced (mantissa : Int) (scale : Nat) : Prop :=
  scale = 0 ∨ ¬ (10 : Int) ∣ mantissa

variable {scale : Nat} {mantissa : Int} {number : ℚ} {one other : Except DecimalError Decimal}

theorem fraction_eq_iff {one other : Int} {otherScale : Nat} :
    (one : ℚ) / 10 ^ scale = (other : ℚ) / 10 ^ otherScale ↔
      one * 10 ^ otherScale = other * 10 ^ scale := by
  rw [div_eq_div_iff (ten_pow_ne_zero _) (ten_pow_ne_zero _)]
  norm_cast

theorem fraction_raise {mantissa : Int} {scale more : Nat} :
    ((mantissa * 10 ^ more : Int) : ℚ) / 10 ^ (scale + more) = (mantissa : ℚ) / 10 ^ scale := by
  rw [fraction_eq_iff, pow_add]
  ring

theorem Reduced.divides {other : Int} {otherScale : Nat}
    (reduced : Reduced mantissa scale)
    (same : (mantissa : ℚ) / 10 ^ scale = (other : ℚ) / 10 ^ otherScale) :
    ∃ more, otherScale = scale + more ∧ other = mantissa * 10 ^ more := by
  rw [fraction_eq_iff] at same
  rcases Nat.le_total scale otherScale with below | above
  · obtain ⟨more, rfl⟩ := Nat.exists_eq_add_of_le below
    refine ⟨more, rfl, ?_⟩
    have positive : (10 : Int) ^ scale ≠ 0 := by positivity
    apply mul_right_cancel₀ positive
    rw [← same, pow_add]
    ring
  · obtain ⟨more, rfl⟩ := Nat.exists_eq_add_of_le above
    have positive : (10 : Int) ^ otherScale ≠ 0 := by positivity
    have shorter : mantissa = other * 10 ^ more := by
      apply mul_right_cancel₀ positive
      rw [same, pow_add]
      ring
    cases more with
    | zero => exact ⟨0, rfl, by rw [shorter]; ring⟩
    | succ more =>
      rcases reduced with flat | indivisible
      · omega
      · refine absurd ?_ indivisible
        rw [shorter, pow_succ, ← mul_assoc]
        exact Dvd.intro_left _ rfl

/-- A number whose reduced mantissa is out of range has no decimal at all. -/
theorem representable_iff (reduced : Reduced mantissa scale) (small : scale ≤ maxScale) :
    Representable ((mantissa : ℚ) / 10 ^ scale) ↔ FitsI64 mantissa := by
  constructor
  · rintro ⟨decimal, -, value⟩
    obtain ⟨more, -, multiple⟩ := reduced.divides value.symm
    have fits := fitsI64_mantissa decimal.mantissa
    rw [multiple] at fits
    cases more with
    | zero => simpa using fits
    | succ more =>
      rw [pow_succ, ← mul_assoc] at fits
      have larger : mantissa.natAbs ≤ (mantissa * 10 ^ more).natAbs := by
        rw [Int.natAbs_mul]
        exact Nat.le_mul_of_pos_right _ (Int.natAbs_pos.mpr (by positivity))
      unfold FitsI64 at fits ⊢
      omega
  · intro fits
    obtain ⟨word, narrowed⟩ : ∃ word, toI64 mantissa = some word := by
      unfold toI64
      exact ⟨_, if_pos fits⟩
    rw [toI64_eq_some_iff] at narrowed
    have scaleEq : (UInt32.ofNat scale).toNat = scale :=
      UInt32.toNat_ofNat_of_lt' (lt_of_le_of_lt small (by decide))
    refine ⟨⟨word, UInt32.ofNat scale⟩, ?_, ?_⟩
    · rw [scaleEq]
      exact small
    · unfold value
      rw [scaleEq, narrowed.2]

/-! ## Shedding zeros -/

theorem shed_spec (mantissa : Int) (scale : Nat) :
    (shed mantissa scale).2 ≤ scale ∧
      Reduced (shed mantissa scale).1 (shed mantissa scale).2 ∧
      ((shed mantissa scale).1 : ℚ) / 10 ^ (shed mantissa scale).2 =
        (mantissa : ℚ) / 10 ^ scale := by
  induction scale generalizing mantissa with
  | zero => exact ⟨le_refl _, Or.inl rfl, rfl⟩
  | succ scale ih =>
    unfold shed
    split
    · next divisible =>
        obtain ⟨smaller, reduced, same⟩ := ih (mantissa.tdiv 10)
        refine ⟨by omega, reduced, ?_⟩
        have whole : mantissa.tdiv 10 * 10 ^ 1 = mantissa :=
          Int.tdiv_mul_cancel (Int.dvd_of_tmod_eq_zero divisible)
        rw [same, ← @fraction_raise (mantissa.tdiv 10) scale 1, whole]
    · next indivisible =>
        refine ⟨le_refl _, Or.inr ?_, rfl⟩
        intro divisible
        exact indivisible (Int.tmod_eq_zero_of_dvd divisible)

def Exact (answer : Except DecimalError Decimal) (number : ℚ) : Prop :=
  (∀ decimal, answer = .ok decimal → decimal.value = number) ∧
    ((∃ decimal, answer = .ok decimal) ↔ Representable number)

theorem narrow_spec {mantissa : Int} {scale : Nat} (small : scale ≤ maxScale) :
    (∃ decimal, narrow mantissa scale = .ok decimal ∧ FitsI64 mantissa ∧
        decimal.mantissa.toInt = mantissa ∧ decimal.scale.toNat = scale) ∨
      (narrow mantissa scale = .error .overflow ∧ ¬ FitsI64 mantissa) := by
  unfold narrow
  cases narrowed : toI64 mantissa with
  | none => exact Or.inr ⟨rfl, toI64_eq_none_iff.mp narrowed⟩
  | some word =>
    rw [toI64_eq_some_iff] at narrowed
    exact Or.inl ⟨_, rfl, narrowed.1, narrowed.2,
      UInt32.toNat_ofNat_of_lt' (lt_of_le_of_lt small (by decide))⟩

theorem narrowReduced_exact (mantissa : Int) (small : scale ≤ maxScale) :
    Exact (narrowReduced mantissa scale) ((mantissa : ℚ) / 10 ^ scale) := by
  obtain ⟨smaller, reduced, same⟩ := shed_spec mantissa scale
  have below : (shed mantissa scale).2 ≤ maxScale := le_trans smaller small
  have narrowed : narrowReduced mantissa scale =
      narrow (shed mantissa scale).1 (shed mantissa scale).2 := rfl
  unfold Exact
  rw [narrowed, ← same, representable_iff reduced below]
  rcases @narrow_spec (shed mantissa scale).1 _ below with
    ⟨decimal, answer, fits, word, scaleEq⟩ | ⟨answer, outside⟩
  · rw [answer]
    constructor
    · rintro _ ⟨⟩
      rw [value, word, scaleEq]
    · exact ⟨fun _ => fits, fun _ => ⟨decimal, rfl⟩⟩
  · rw [answer]
    constructor
    · rintro decimal ⟨⟩
    · exact ⟨fun ⟨decimal, isOk⟩ => (nomatch isOk), fun fits => absurd fits outside⟩

/-! ## Alignment -/

section Operands

variable {self other : Decimal} (selfScale : self.scale.toNat ≤ maxScale)
  (otherScale : other.scale.toNat ≤ maxScale)

theorem raised_le (word : Int64) {power : Nat} (small : power ≤ maxScale) :
    (word.toInt * 10 ^ power).natAbs ≤ 2 ^ 63 * 10 ^ 18 := by
  have fits := fitsI64_mantissa word
  have bounded : (10 : Int) ^ power ≤ 10 ^ 18 := pow_le_pow_right₀ (by decide) small
  have positive : (0 : Int) < 10 ^ power := by positivity
  rw [Int.natAbs_mul]
  unfold FitsI64 at fits
  exact Nat.mul_le_mul (by omega) (by omega)

theorem wideAt_eq {target : Nat} (small : target ≤ maxScale) :
    self.wideAt target = some (self.mantissa.toInt * 10 ^ (target - self.scale.toNat)) := by
  have bounded := @raised_le self.mantissa (target - self.scale.toNat) (by omega)
  have fits : FitsI128 (self.mantissa.toInt * 10 ^ (target - self.scale.toNat)) := by
    unfold FitsI128
    omega
  unfold maxScale at small
  rw [wideAt, pow10_of_le (by omega), Option.bind_some, checked_of_fits fits]

theorem raised_value {target : Nat} (above : self.scale.toNat ≤ target) :
    ((self.mantissa.toInt * 10 ^ (target - self.scale.toNat) : Int) : ℚ) / 10 ^ target =
      self.value := by
  obtain ⟨more, rfl⟩ := Nat.exists_eq_add_of_le above
  rw [Nat.add_sub_cancel_left, fraction_raise, value]

include selfScale otherScale

theorem align_eq : ∃ left right scale, align self other = .ok (left, right, scale) ∧
    scale ≤ maxScale ∧ left.natAbs ≤ 2 ^ 63 * 10 ^ 18 ∧ right.natAbs ≤ 2 ^ 63 * 10 ^ 18 ∧
    (left : ℚ) / 10 ^ scale = self.value ∧ (right : ℚ) / 10 ^ scale = other.value := by
  have small : max self.scale.toNat other.scale.toNat ≤ maxScale := max_le selfScale otherScale
  refine ⟨_, _, max self.scale.toNat other.scale.toNat, ?_, small, ?_, ?_,
    raised_value (le_max_left _ _), raised_value (le_max_right _ _)⟩
  · unfold align
    simp only [wideAt_eq small]
  · exact raised_le _ (by omega)
  · exact raised_le _ (by omega)

theorem compare_eq : compare self other = .ok (Ord.compare self.value other.value) := by
  obtain ⟨left, right, scale, aligned, -, -, -, leftValue, rightValue⟩ :=
    align_eq selfScale otherScale
  have positive : (0 : ℚ) < 10 ^ scale := by positivity
  have order : Ord.compare left right = Ord.compare self.value other.value := by
    rw [← leftValue, ← rightValue]
    rcases lt_trichotomy left right with less | equal | more
    · rw [compare_lt_iff_lt.mpr less, eq_comm, compare_lt_iff_lt]
      exact div_lt_div_of_pos_right (by exact_mod_cast less) positive
    · rw [equal, compare_eq_iff_eq.mpr rfl, compare_eq_iff_eq.mpr rfl]
    · rw [compare_gt_iff_gt.mpr more, eq_comm, compare_gt_iff_gt]
      exact div_lt_div_of_pos_right (by exact_mod_cast more) positive
  unfold compare
  rw [aligned, ← order]
  rfl

theorem equals_eq : equals self other = .ok (decide (self.value = other.value)) := by
  unfold equals
  rw [compare_eq selfScale otherScale]
  change Except.ok _ = _
  congr 1
  rw [Bool.eq_iff_iff, beq_iff_eq, compare_eq_iff_eq, decide_eq_true_eq]

end Operands

/-! ## Sums and differences -/

/-- Where the scales agree, the mantissas join within 64 bits or the result has no
zero to shed. -/
def JoinsExactly (join : Int → Int → Int) (self other : Decimal) : Prop :=
  self.scale = other.scale → self.scale = 0 ∨
    FitsI64 (join self.mantissa.toInt other.mantissa.toInt) ∨
    ¬ (10 : Int) ∣ join self.mantissa.toInt other.mantissa.toInt

/-- A mantissa just out of range fits once a zero is shed. -/
theorem representable_of_divisible (small : scale ≤ maxScale) (scaled : scale ≠ 0)
    (divisible : (10 : Int) ∣ mantissa) (bounded : mantissa.natAbs ≤ 2 ^ 64) :
    Representable ((mantissa : ℚ) / 10 ^ scale) := by
  obtain ⟨tenth, rfl⟩ := divisible
  obtain ⟨smaller, rfl⟩ := Nat.exists_eq_succ_of_ne_zero scaled
  have fits : FitsI64 tenth := by
    unfold FitsI64
    omega
  cases narrowed : toI64 tenth with
  | none => exact absurd fits (toI64_eq_none_iff.mp narrowed)
  | some word =>
    rw [toI64_eq_some_iff] at narrowed
    have scaleEq : (UInt32.ofNat smaller).toNat = smaller :=
      UInt32.toNat_ofNat_of_lt' (lt_of_lt_of_le (by omega) (by decide : maxScale ≤ UInt32.size))
    refine ⟨⟨word, UInt32.ofNat smaller⟩, by rw [scaleEq]; omega, ?_⟩
    have raised := @fraction_raise tenth smaller 1
    rw [value, scaleEq, narrowed.2, ← raised, pow_one, Int.mul_comm]

section Combine

variable {join : Int → Int → Int} {sign : Int} (signed : sign = 1 ∨ sign = -1)
  (joins : ∀ left right, join left right = left + sign * right)
  {self other : Decimal} (selfScale : self.scale.toNat ≤ maxScale)
  (otherScale : other.scale.toNat ≤ maxScale)

include joins

theorem join_value {left right : Int} {scale : Nat} :
    ((join left right : Int) : ℚ) / 10 ^ scale =
      (left : ℚ) / 10 ^ scale + sign * ((right : ℚ) / 10 ^ scale) := by
  rw [joins]
  push_cast
  ring

include signed selfScale otherScale

/-- A sum or a difference is exact unless it is one of the mantissas that a shared
scale keeps out of range. -/
theorem combine_exact_iff :
    Exact (combine join self other) (self.value + sign * other.value) ↔
      JoinsExactly join self other := by
  unfold combine JoinsExactly
  by_cases shared : self.scale = other.scale
  · simp only [shared, if_true, true_implies]
    have exact : self.value + sign * other.value =
        ((join self.mantissa.toInt other.mantissa.toInt : Int) : ℚ) / 10 ^ other.scale.toNat := by
      rw [join_value joins, value, value, shared]
    have selfFits := fitsI64_mantissa self.mantissa
    have otherFits := fitsI64_mantissa other.mantissa
    rw [exact]
    generalize result : join self.mantissa.toInt other.mantissa.toInt = mantissa
    have bounded : mantissa.natAbs ≤ 2 ^ 64 := by
      rw [joins] at result
      unfold FitsI64 at selfFits otherFits
      rcases signed with plus | minus
      · rw [plus] at result
        omega
      · rw [minus] at result
        omega
    cases narrowed : toI64 mantissa with
    | some word =>
      rw [toI64_eq_some_iff] at narrowed
      have holds : Decimal.value ⟨word, other.scale⟩ =
          (mantissa : ℚ) / 10 ^ other.scale.toNat := by
        rw [value, narrowed.2]
      simp only [narrowed.1, true_or, or_true, iff_true]
      constructor
      · rintro _ ⟨⟩
        exact holds
      · exact ⟨fun _ => ⟨⟨word, other.scale⟩, otherScale, holds⟩, fun _ => ⟨_, rfl⟩⟩
    | none =>
      rw [toI64_eq_none_iff] at narrowed
      simp only [narrowed, false_or]
      constructor
      · intro answers
        by_contra condition
        rw [not_or, not_not] at condition
        have scaled : other.scale.toNat ≠ 0 := by
          intro zero
          exact condition.1 (UInt32.toNat_inj.mp zero)
        obtain ⟨decimal, isOk⟩ := answers.2.mpr
          (representable_of_divisible otherScale scaled condition.2 bounded)
        cases isOk
      · intro reduced
        have isReduced : Reduced mantissa other.scale.toNat := by
          rcases reduced with flat | indivisible
          · exact Or.inl (by rw [flat]; rfl)
          · exact Or.inr indivisible
        constructor
        · rintro decimal ⟨⟩
        · rw [representable_iff isReduced otherScale]
          constructor
          · rintro ⟨decimal, isOk⟩
            cases isOk
          · exact fun fits => absurd fits narrowed
  · simp only [shared, if_false, false_implies, iff_true]
    obtain ⟨left, right, scale, aligned, small, leftBound, rightBound, leftValue, rightValue⟩ :=
      align_eq selfScale otherScale
    have fits : FitsI128 (join left right) := by
      rw [joins]
      unfold FitsI128
      rcases signed with plus | minus
      · rw [plus]
        omega
      · rw [minus]
        omega
    rw [aligned]
    simp only [bind, Except.bind, checked_of_fits fits]
    rw [← leftValue, ← rightValue, ← join_value joins]
    exact narrowReduced_exact _ small

end Combine

/-! ## Products -/

theorem roundI128ToScale_nearest {target : Nat} (fits : FitsI128 mantissa)
    (lower : target < scale) (drop : scale - target ≤ 38) :
    ∃ rounded, roundI128ToScale mantissa scale target = .ok rounded ∧
      Rounding.NearestEven ((mantissa : ℚ) / 10 ^ (scale - target)) rounded := by
  obtain ⟨more, dropped⟩ := Nat.exists_eq_succ_of_ne_zero (Nat.sub_ne_zero_of_lt lower)
  have divisorEven : (10 : Int) ^ (scale - target) = 2 * (5 * 10 ^ more) := by
    rw [dropped, pow_succ]
    ring
  have positive : (0 : Int) < 10 ^ more := by positivity
  have cast : (10 : ℚ) ^ (scale - target) = (((10 : Int) ^ (scale - target) : Int) : ℚ) := by
    push_cast
    rfl
  unfold roundI128ToScale
  rw [if_neg (Nat.not_le.mpr lower), pow10_of_le drop, cast]
  generalize divisorEq : (10 : Int) ^ (scale - target) = divisor at divisorEven ⊢
  have nonzero : divisor ≠ 0 := by omega
  have division := @truncates_tdiv mantissa _ nonzero
  have half : divisor.tdiv 2 = 5 * 10 ^ more := by
    rw [divisorEven]
    exact Int.mul_tdiv_cancel_left _ (by decide)
  have small := division.small
  simp only [half, Int.abs_eq_natAbs]
  generalize quotientEq : mantissa.tdiv divisor = quotient at division ⊢
  generalize remainderEq : mantissa.tmod divisor = remainder at division small ⊢
  by_cases exact : remainder = 0
  · rw [exact, compare_lt_iff_lt.mpr (by simp [positive])]
    refine ⟨quotient, rfl, division.nearest_of_le ?_ ?_⟩ <;> omega
  · have bound := division.quotient_le exact
    have away (far : divisor.natAbs ≤ 2 * remainder.natAbs)
        (tie : 2 * remainder.natAbs = divisor.natAbs → quotient.tmod 2 ≠ 0) :
        Rounding.NearestEven ((mantissa : ℚ) / divisor)
          (quotient + if mantissa < 0 then -1 else 1) := by
      have nearest := division.nearest_of_ge exact far tie
      have above : decide (divisor < 0) = false := decide_eq_false (by omega)
      simpa only [above, Bool.xor_false, decide_eq_true_eq] using nearest
    have neighbour : FitsI128 (quotient + if mantissa < 0 then -1 else 1) := by
      unfold FitsI128 at fits ⊢
      split <;> omega
    rw [checked_of_fits neighbour]
    rcases lt_trichotomy (remainder.natAbs : Int) (5 * 10 ^ more) with less | tie | more
    · rw [compare_lt_iff_lt.mpr less]
      refine ⟨quotient, rfl, division.nearest_of_le ?_ ?_⟩ <;> omega
    · rw [compare_eq_iff_eq.mpr tie]
      by_cases even : quotient.tmod 2 = 0
      · refine ⟨quotient, by simp [even], division.nearest_of_le ?_ ?_⟩ <;> omega
      · refine ⟨_, by simp only [ne_eq, even, not_false_eq_true, decide_true, if_true],
          away ?_ ?_⟩ <;> omega
    · rw [compare_gt_iff_gt.mpr more]
      refine ⟨_, rfl, away ?_ ?_⟩ <;> omega

def productScale (self other : Decimal) : Nat :=
  min (self.scale.toNat + other.scale.toNat) maxScale

def productMantissa (self other : Decimal) : Int :=
  self.mantissa.toInt * other.mantissa.toInt

def RoundsAt (answer : Except DecimalError Decimal) (number : ℚ) (scale : Nat) : Prop :=
  (∀ decimal, answer = .ok decimal →
      decimal.scale.toNat = scale ∧ Holds (number * 10 ^ scale) decimal.mantissa.toInt) ∧
    (∀ error, answer = .error error →
      error = .overflow ∧ ∀ mantissa, ¬ Holds (number * 10 ^ scale) mantissa)

theorem narrow_rounds (small : scale ≤ maxScale)
    (nearest : Rounding.NearestEven (number * 10 ^ scale) mantissa) :
    RoundsAt (narrow mantissa scale) number scale := by
  rcases @narrow_spec mantissa scale small with
    ⟨decimal, answer, fits, word, scaleEq⟩ | ⟨answer, outside⟩
  · rw [answer]
    constructor
    · rintro _ ⟨⟩
      rw [word]
      exact ⟨scaleEq, fits, nearest⟩
    · rintro error ⟨⟩
  · rw [answer]
    constructor
    · rintro decimal ⟨⟩
    · rintro _ ⟨⟩
      refine ⟨rfl, ?_⟩
      rintro other ⟨fits, otherNearest⟩
      rw [nearest.unique otherNearest] at outside
      exact outside fits

section Product

variable {self other : Decimal} (selfScale : self.scale.toNat ≤ maxScale)
  (otherScale : other.scale.toNat ≤ maxScale)

theorem product_value : self.value * other.value =
    (productMantissa self other : ℚ) / 10 ^ (self.scale.toNat + other.scale.toNat) := by
  unfold value productMantissa
  push_cast
  rw [pow_add, div_mul_div_comm]

include selfScale otherScale

theorem multiply_rounds : ∃ answer, multiply self other = .ok answer ∧
    RoundsAt answer (self.value * other.value) (productScale self other) := by
  have selfFits := fitsI64_mantissa self.mantissa
  have otherFits := fitsI64_mantissa other.mantissa
  have productFits : FitsI128 (productMantissa self other) := by
    have bounded : (productMantissa self other).natAbs ≤ 2 ^ 63 * 2 ^ 63 := by
      unfold productMantissa FitsI64 at *
      rw [Int.natAbs_mul]
      exact Nat.mul_le_mul (by omega) (by omega)
    unfold FitsI128
    omega
  unfold maxScale at selfScale otherScale
  unfold multiply productScale
  rw [product_value]
  simp only
  have isProduct : self.mantissa.toInt * other.mantissa.toInt = productMantissa self other := rfl
  rw [if_neg (by omega), isProduct]
  generalize productMantissa self other = product at productFits ⊢
  generalize scaleEq : self.scale.toNat + other.scale.toNat = scale
  by_cases within : scale ≤ maxScale
  · rw [if_pos within, min_eq_left within]
    have nearest : Rounding.NearestEven ((product : ℚ) / 10 ^ scale * 10 ^ scale) product := by
      rw [div_mul_cancel₀ _ (ten_pow_ne_zero _)]
      exact Rounding.nearestEven_intCast product
    cases narrowed : toI64 product with
    | some word =>
      have answer : narrow product scale = .ok ⟨word, UInt32.ofNat scale⟩ := by
        rw [narrow, narrowed]
      have holds := narrow_rounds within nearest
      rw [answer] at holds
      exact ⟨_, rfl, holds⟩
    | none =>
      have same : roundI128ToScale product scale scale = .ok product := by
        unfold roundI128ToScale
        rw [if_pos (le_refl _), Nat.sub_self, pow10, Option.bind_some, Int.mul_one,
          checked_of_fits productFits]
      rw [same]
      exact ⟨_, rfl, narrow_rounds within nearest⟩
  · have above : maxScale < scale := Nat.lt_of_not_le within
    have dropped : scale - maxScale + maxScale = scale := Nat.sub_add_cancel above.le
    obtain ⟨rounded, answer, nearest⟩ := roundI128ToScale_nearest productFits above
      (by unfold maxScale; omega)
    have exact : (product : ℚ) / 10 ^ scale * 10 ^ maxScale =
        (product : ℚ) / 10 ^ (scale - maxScale) := by
      rw [div_mul_eq_mul_div, div_eq_div_iff (ten_pow_ne_zero _) (ten_pow_ne_zero _), mul_assoc,
        ← pow_add, Nat.add_comm, dropped]
    rw [← exact] at nearest
    rw [if_neg within, min_eq_right above.le, answer]
    exact ⟨_, rfl, narrow_rounds (le_refl _) nearest⟩

/-- Decimals of any two scales are ordered by what they denote, and a product is rounded
once, to the nearest mantissa at the sum of the scales or at the largest scale; it overflows
just when there is no such mantissa. -/
theorem order_and_product_are_exact :
    compare self other = .ok (Ord.compare self.value other.value) ∧
      equals self other = .ok (decide (self.value = other.value)) ∧
      ∃ answer, multiply self other = .ok answer ∧
        RoundsAt answer (self.value * other.value) (productScale self other) :=
  ⟨compare_eq selfScale otherScale, equals_eq selfScale otherScale,
    multiply_rounds selfScale otherScale⟩

end Product

/-- `1.5` below `3`, and `0.000000001` times `0.0000000005`, which is rounded. -/
theorem two_decimals_are_exact :
    compare ⟨15, 1⟩ ⟨3, 0⟩ = .ok (Ord.compare (value ⟨15, 1⟩) (value ⟨3, 0⟩)) ∧
      RoundsAt (.ok ⟨0, 18⟩) (value ⟨1, 9⟩ * value ⟨5, 10⟩) 18 := by
  refine ⟨(order_and_product_are_exact (by decide) (by decide)).1, ?_⟩
  obtain ⟨answer, multiplied, rounds⟩ :=
    (@order_and_product_are_exact ⟨1, 9⟩ ⟨5, 10⟩ (by decide) (by decide)).2.2
  have zero : multiply ⟨1, 9⟩ ⟨5, 10⟩ = .ok (.ok ⟨0, 18⟩) := by rfl
  rw [zero, Except.ok.injEq] at multiplied
  rw [← multiplied] at rounds
  exact rounds

/-! ## Equal operands -/

/-- Two answers that are both errors, or both the same value. -/
def Agree : Except DecimalError Decimal → Except DecimalError Decimal → Prop
  | .ok one, .ok other => one.value = other.value
  | .error _, .error _ => True
  | _, _ => False

/-- What equal operands, at whatever scales, may expect of the three operations. -/
structure RespectsEquality (left left' right right' : Decimal) : Prop where
  sums : Agree (add left right) (add left' right')
  differences : Agree (subtract left right) (subtract left' right')
  products : ∃ one other, multiply left right = .ok one ∧ multiply left' right' = .ok other ∧
    Agree one other
  sumExact : Exact (add left right) (left.value + right.value)
  differenceExact : Exact (subtract left right) (left.value - right.value)

/-- A mantissa that fits at a scale still fits at a larger one. -/
def RaisesWithin (mantissa : Int) (low high : Nat) : Prop :=
  low < high → FitsI64 mantissa → FitsI64 (mantissa * 10 ^ (high - low))

/-- The operands at which all three operations respect equality: sums and
differences that no shared scale keeps out of range, and products that fit at the
larger of their two scales when they fit at the smaller one. -/
structure Compatible (left left' right right' : Decimal) : Prop where
  sum : JoinsExactly (fun one other => one + other) left right
  sum' : JoinsExactly (fun one other => one + other) left' right'
  difference : JoinsExactly (fun one other => one - other) left right
  difference' : JoinsExactly (fun one other => one - other) left' right'
  product : RaisesWithin (productMantissa left right) (productScale left right)
    (productScale left' right')
  product' : RaisesWithin (productMantissa left' right') (productScale left' right')
    (productScale left right)

theorem Exact.agree (first : Exact one number) (second : Exact other number) : Agree one other := by
  rcases one with error | decimal
  · rcases other with otherError | otherDecimal
    · trivial
    · obtain ⟨decimal, isOk⟩ := first.2.mpr (second.2.mp ⟨otherDecimal, rfl⟩)
      cases isOk
  · rcases other with otherError | otherDecimal
    · obtain ⟨otherDecimal, isOk⟩ := second.2.mpr (first.2.mp ⟨decimal, rfl⟩)
      cases isOk
    · exact (first.1 _ rfl).trans (second.1 _ rfl).symm

theorem Agree.exact (agree : Agree one other) (first : Exact one number) : Exact other number := by
  rcases one with error | decimal
  · rcases other with otherError | otherDecimal
    · refine ⟨fun decimal isOk => (nomatch isOk), ?_⟩
      rw [← first.2]
      constructor
      · rintro ⟨decimal, isOk⟩
        cases isOk
      · rintro ⟨decimal, isOk⟩
        cases isOk
    · exact absurd agree id
  · rcases other with otherError | otherDecimal
    · exact absurd agree id
    · have same : decimal.value = otherDecimal.value := agree
      constructor
      · rintro _ ⟨⟩
        rw [← same]
        exact first.1 _ rfl
      · exact ⟨fun _ => first.2.mp ⟨_, rfl⟩, fun _ => ⟨_, rfl⟩⟩

theorem Agree.symm (agree : Agree one other) : Agree other one := by
  rcases one with error | decimal <;> rcases other with otherError | otherDecimal
  · trivial
  · exact absurd agree id
  · exact absurd agree id
  · exact Eq.symm agree

theorem agree_comm : Agree one other ↔ Agree other one :=
  ⟨Agree.symm, Agree.symm⟩

theorem holds_intCast_iff {number : Int} :
    Holds (number : ℚ) mantissa ↔ mantissa = number ∧ FitsI64 number := by
  constructor
  · rintro ⟨fits, nearest⟩
    have same := nearest.unique (Rounding.nearestEven_intCast number)
    exact ⟨same, by rw [← same]; exact fits⟩
  · rintro ⟨rfl, fits⟩
    exact ⟨fits, Rounding.nearestEven_intCast _⟩

theorem RoundsAt.agree (first : RoundsAt one number scale) (second : RoundsAt other number scale) :
    Agree one other := by
  rcases one with error | decimal
  · rcases other with otherError | otherDecimal
    · trivial
    · exact absurd (second.1 _ rfl).2 ((first.2 _ rfl).2 _)
  · rcases other with otherError | otherDecimal
    · exact absurd (first.1 _ rfl).2 ((second.2 _ rfl).2 _)
    · obtain ⟨scaleEq, holds⟩ := first.1 _ rfl
      obtain ⟨otherScaleEq, otherHolds⟩ := second.1 _ rfl
      rw [eq_of_toInt (holds.2.unique otherHolds.2) (scaleEq.trans otherScaleEq.symm)]
      rfl

theorem RoundsAt.whole_iff {answer : Except DecimalError Decimal}
    (rounds : RoundsAt answer number scale) (whole : number * 10 ^ scale = mantissa) :
    ((∃ decimal, answer = .ok decimal) ↔ FitsI64 mantissa) ∧
      ∀ decimal, answer = .ok decimal → decimal.value = number := by
  unfold RoundsAt at rounds
  simp only [whole, holds_intCast_iff] at rounds
  constructor
  · constructor
    · rintro ⟨decimal, isOk⟩
      exact (rounds.1 decimal isOk).2.2
    · intro fits
      rcases answer with error | decimal
      · exact absurd ⟨rfl, fits⟩ ((rounds.2 error rfl).2 mantissa)
      · exact ⟨decimal, rfl⟩
  · intro decimal isOk
    obtain ⟨scaleEq, word, -⟩ := rounds.1 decimal isOk
    rw [value, word, scaleEq, ← whole, mul_div_cancel_right₀ _ (ten_pow_ne_zero _)]

theorem agree_iff_raisesWithin {low high : Nat} (first : RoundsAt one number low)
    (second : RoundsAt other number high) (less : low < high)
    (whole : number * 10 ^ low = mantissa) : Agree one other ↔ RaisesWithin mantissa low high := by
  have raised : number * 10 ^ high = ((mantissa * 10 ^ (high - low) : Int) : ℚ) := by
    push_cast
    rw [← whole, mul_assoc, ← pow_add, Nat.add_sub_cancel' less.le]
  obtain ⟨firstOk, firstValue⟩ := first.whole_iff whole
  obtain ⟨secondOk, secondValue⟩ := second.whole_iff raised
  have lowered (fits : FitsI64 (mantissa * 10 ^ (high - low))) : FitsI64 mantissa := by
    have larger : mantissa.natAbs ≤ (mantissa * 10 ^ (high - low)).natAbs := by
      rw [Int.natAbs_mul]
      exact Nat.le_mul_of_pos_right _ (Int.natAbs_pos.mpr (by positivity))
    have sign : 0 ≤ mantissa → 0 ≤ mantissa * 10 ^ (high - low) :=
      fun positive => mul_nonneg positive (by positivity)
    unfold FitsI64 at fits ⊢
    omega
  unfold RaisesWithin
  rw [← firstOk, ← secondOk]
  rcases one with error | decimal
  · rcases other with otherError | otherDecimal
    · simp [Agree]
    · exact absurd (firstOk.mpr (lowered (secondOk.mp ⟨_, rfl⟩))) (by simp)
  · rcases other with otherError | otherDecimal
    · simp [Agree, less]
    · have same : decimal.value = otherDecimal.value :=
        (firstValue _ rfl).trans (secondValue _ rfl).symm
      simp [Agree, same]

section Equal

variable {left left' right right' : Decimal} (leftScale : left.scale.toNat ≤ maxScale)
  (leftScale' : left'.scale.toNat ≤ maxScale) (rightScale : right.scale.toNat ≤ maxScale)
  (rightScale' : right'.scale.toNat ≤ maxScale) (leftSame : left.value = left'.value)
  (rightSame : right.value = right'.value)

include leftScale leftScale' rightScale rightScale' leftSame rightSame

theorem productsAgree_iff :
    (∃ one other, multiply left right = .ok one ∧ multiply left' right' = .ok other ∧
        Agree one other) ↔
      RaisesWithin (productMantissa left right) (productScale left right)
          (productScale left' right') ∧
        RaisesWithin (productMantissa left' right') (productScale left' right')
          (productScale left right) := by
  obtain ⟨one, answer, rounds⟩ := multiply_rounds leftScale rightScale
  obtain ⟨other, otherAnswer, otherRounds⟩ := multiply_rounds leftScale' rightScale'
  have only : (∃ one other, multiply left right = .ok one ∧ multiply left' right' = .ok other ∧
      Agree one other) ↔ Agree one other := by
    rw [answer, otherAnswer]
    constructor
    · rintro ⟨_, _, ⟨⟩, ⟨⟩, agree⟩
      exact agree
    · intro agree
      exact ⟨one, other, rfl, rfl, agree⟩
  rw [only]
  rw [← leftSame, ← rightSame] at otherRounds
  rcases lt_trichotomy (productScale left right) (productScale left' right') with
    less | equal | more
  · have whole : left.value * right.value * 10 ^ productScale left right =
        productMantissa left right := by
      have under : productScale left right = left.scale.toNat + right.scale.toNat := by
        unfold productScale at less ⊢
        omega
      rw [product_value, under, div_mul_cancel₀ _ (ten_pow_ne_zero _)]
    rw [agree_iff_raisesWithin rounds otherRounds less whole]
    exact ⟨fun raises => ⟨raises, fun more => absurd more less.asymm⟩, And.left⟩
  · rw [← equal] at otherRounds
    have agree := rounds.agree otherRounds
    refine ⟨fun _ => ⟨fun less => ?_, fun less => ?_⟩, fun _ => agree⟩ <;> omega
  · have whole : left.value * right.value * 10 ^ productScale left' right' =
        productMantissa left' right' := by
      have under : productScale left' right' = left'.scale.toNat + right'.scale.toNat := by
        unfold productScale at more ⊢
        omega
      rw [leftSame, rightSame, product_value, under, div_mul_cancel₀ _ (ten_pow_ne_zero _)]
    rw [agree_comm, agree_iff_raisesWithin otherRounds rounds more whole]
    exact ⟨fun raises => ⟨fun less => absurd less more.asymm, raises⟩, And.right⟩

/-- Sums, differences and products respect the equality of their operands, and sums
and differences are exact, at the compatible operands and at no others. -/
theorem respectsEquality_iff :
    RespectsEquality left left' right right' ↔ Compatible left left' right right' := by
  have sum := @combine_exact_iff (fun one other => one + other) 1 (Or.inl rfl)
    (fun one other => by simp) left right leftScale rightScale
  have sum' := @combine_exact_iff (fun one other => one + other) 1 (Or.inl rfl)
    (fun one other => by simp) left' right' leftScale' rightScale'
  have difference := @combine_exact_iff (fun one other => one - other) (-1) (Or.inr rfl)
    (fun one other => by ring) left right leftScale rightScale
  have difference' := @combine_exact_iff (fun one other => one - other) (-1) (Or.inr rfl)
    (fun one other => by ring) left' right' leftScale' rightScale'
  have products := productsAgree_iff leftScale leftScale' rightScale rightScale' leftSame rightSame
  rw [← leftSame, ← rightSame] at sum' difference'
  have plus : left.value + ((1 : Int) : ℚ) * right.value = left.value + right.value := by
    push_cast
    ring
  have minus : left.value + ((-1 : Int) : ℚ) * right.value = left.value - right.value := by
    push_cast
    ring
  rw [plus] at sum sum'
  rw [minus] at difference difference'
  constructor
  · intro respects
    exact ⟨sum.mp respects.sumExact, sum'.mp (respects.sums.exact respects.sumExact),
      difference.mp respects.differenceExact,
      difference'.mp (respects.differences.exact respects.differenceExact),
      (products.mp respects.products).1, (products.mp respects.products).2⟩
  · intro compatible
    have sumExact := sum.mpr compatible.sum
    have differenceExact := difference.mpr compatible.difference
    exact ⟨sumExact.agree (sum'.mpr compatible.sum'),
      differenceExact.agree (difference'.mpr compatible.difference'),
      products.mpr ⟨compatible.product, compatible.product'⟩, sumExact, differenceExact⟩

end Equal

/-- One and two, at two scales. -/
theorem respectsEquality_iff_one_two :
    RespectsEquality ⟨1, 0⟩ ⟨10, 1⟩ ⟨2, 0⟩ ⟨20, 1⟩ ↔
      Compatible ⟨1, 0⟩ ⟨10, 1⟩ ⟨2, 0⟩ ⟨20, 1⟩ :=
  respectsEquality_iff (by decide) (by decide) (by decide) (by decide) (by decide +kernel)
    (by decide +kernel)

/-- Two equal sums and two equal products, of which one overflows. -/
theorem answers_depend_on_scales :
    value ⟨9000000000000000000, 1⟩ = value ⟨900000000000000000, 0⟩ ∧
      value ⟨1000000000000000000, 1⟩ = value ⟨100000000000000000, 0⟩ ∧
      add ⟨9000000000000000000, 1⟩ ⟨1000000000000000000, 1⟩ = .error .overflow ∧
      add ⟨900000000000000000, 0⟩ ⟨100000000000000000, 0⟩ = .ok ⟨1000000000000000000, 0⟩ ∧
      value ⟨1000000000000000000, 18⟩ = value ⟨1, 0⟩ ∧
      multiply ⟨10, 0⟩ ⟨1000000000000000000, 18⟩ = .ok (.error .overflow) ∧
      multiply ⟨10, 0⟩ ⟨1, 0⟩ = .ok (.ok ⟨10, 0⟩) := by
  decide +kernel

end Decimal

end KiraVm
