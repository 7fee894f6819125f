import KiraVm.JsonNumber

/-!
# Mantissas

A decimal text is converted digit by digit.  The conversion stops the program exactly
when the text dips: a byte below the digits stands where the mantissa is still taken.
-/

namespace KiraVm

namespace Foundation

def digitsOnto (mantissa : Int) (bytes : List UInt8) : Int :=
  (bytes.filter (· ≠ 46)).foldl (fun number byte => number * 10 + digitOf byte) mantissa

def IsMantissaByte (byte : UInt8) : Prop :=
  byte ≠ 101 ∧ byte ≠ 69 ∧ (byte = 46 ∨ 48 ≤ byte)

/-- A byte below the digits stands where the mantissa is still taken. -/
def Dips (mantissa : Int) (text : List UInt8) : Prop :=
  ∃ before byte after, text = before ++ byte :: after ∧ byte < 48 ∧ byte ≠ 46 ∧
    (∀ earlier ∈ before, IsMantissaByte earlier) ∧ digitsOnto mantissa before ≤ intMax

theorem not_dips_nil (mantissa : Int) : ¬ Dips mantissa [] := by
  rintro ⟨before, byte, after, same, -⟩
  cases before <;> cases same

theorem digitsOnto_point (mantissa : Int) (bytes : List UInt8) :
    digitsOnto mantissa (46 :: bytes) = digitsOnto mantissa bytes := by
  unfold digitsOnto
  rw [List.filter_cons_of_neg (by decide)]

variable {byte : UInt8} {mantissa : Int}

theorem digitsOnto_digit (notPoint : byte ≠ 46) (mantissa : Int) (bytes : List UInt8) :
    digitsOnto mantissa (byte :: bytes) = digitsOnto (mantissa * 10 + digitOf byte) bytes := by
  unfold digitsOnto
  rw [List.filter_cons_of_pos (by simpa using notPoint), List.foldl_cons]

theorem digitOf_nonneg (digit : 48 ≤ byte) : 0 ≤ digitOf byte := by
  have least : 48 ≤ byte.toNat := UInt8.le_iff_toNat_le.mp digit
  unfold digitOf
  omega

theorem le_digitsOnto (positive : 0 ≤ mantissa) {bytes : List UInt8}
    (taken : ∀ byte ∈ bytes, IsMantissaByte byte) : mantissa ≤ digitsOnto mantissa bytes := by
  induction bytes generalizing mantissa with
  | nil => exact Int.le_refl mantissa
  | cons byte bytes ih =>
    have rest : ∀ later ∈ bytes, IsMantissaByte later :=
      fun later among => taken later (List.mem_cons_of_mem byte among)
    by_cases point : byte = 46
    · rw [point, digitsOnto_point]
      exact ih positive rest
    · have digit := digitOf_nonneg ((taken byte List.mem_cons_self).2.2.resolve_left point)
      rw [digitsOnto_digit point]
      have onward := @ih (mantissa * 10 + digitOf byte) (by omega) rest
      omega

theorem not_dips_full (positive : 0 ≤ mantissa) (full : intMax < mantissa) (text : List UInt8) :
    ¬ Dips mantissa text := by
  rintro ⟨before, byte, after, -, -, -, taken, room⟩
  have grown := le_digitsOnto positive taken
  omega

theorem dips_point (mantissa : Int) (text : List UInt8) :
    Dips mantissa (46 :: text) ↔ Dips mantissa text := by
  constructor
  · rintro ⟨before, byte, after, same, low, notPoint, taken, room⟩
    cases before with
    | nil =>
      injection same with first
      exact absurd first.symm notPoint
    | cons first before =>
      injection same with isPoint rest
      rw [← isPoint, digitsOnto_point] at room
      exact ⟨before, byte, after, rest, low, notPoint,
        fun later among => taken later (List.mem_cons_of_mem first among), room⟩
  · rintro ⟨before, byte, after, same, low, notPoint, taken, room⟩
    refine ⟨46 :: before, byte, after, by rw [same, List.cons_append], low, notPoint, ?_, ?_⟩
    · intro earlier among
      rcases List.mem_cons.mp among with isPoint | later
      · rw [isPoint]
        exact ⟨by decide, by decide, Or.inl rfl⟩
      · exact taken earlier later
    · rw [digitsOnto_point]
      exact room

theorem not_dips_exponent (exponent : byte = 101 ∨ byte = 69) (mantissa : Int) (text : List UInt8) :
    ¬ Dips mantissa (byte :: text) := by
  rintro ⟨before, low, after, same, isLow, -, taken, -⟩
  cases before with
  | nil =>
    injection same with first
    rw [← first] at isLow
    rcases exponent with small | large
    · rw [small] at isLow
      exact absurd isLow (by decide)
    · rw [large] at isLow
      exact absurd isLow (by decide)
  | cons first before =>
    injection same with isFirst
    have allowed := taken first List.mem_cons_self
    rw [← isFirst] at allowed
    exact exponent.elim allowed.1 allowed.2.1

theorem dips_low (low : byte < 48) (notPoint : byte ≠ 46) (room : mantissa ≤ intMax)
    (text : List UInt8) : Dips mantissa (byte :: text) :=
  ⟨[], byte, text, rfl, low, notPoint, fun _ among => absurd among List.not_mem_nil, room⟩

theorem dips_digit (digit : 48 ≤ byte) (notExponent : ¬ (byte = 101 ∨ byte = 69)) (mantissa : Int)
    (text : List UInt8) :
    Dips mantissa (byte :: text) ↔ Dips (mantissa * 10 + digitOf byte) text := by
  have notPoint : byte ≠ 46 := by
    intro isPoint
    rw [isPoint] at digit
    exact absurd digit (by decide)
  constructor
  · rintro ⟨before, low, after, same, isLow, lowNotPoint, taken, room⟩
    cases before with
    | nil =>
      injection same with first
      rw [← first] at isLow
      exact absurd digit (UInt8.not_le.mpr isLow)
    | cons first before =>
      injection same with isFirst rest
      rw [← isFirst, digitsOnto_digit notPoint] at room
      exact ⟨before, low, after, rest, isLow, lowNotPoint,
        fun later among => taken later (List.mem_cons_of_mem first among), room⟩
  · rintro ⟨before, low, after, same, isLow, lowNotPoint, taken, room⟩
    refine ⟨byte :: before, low, after, by rw [same, List.cons_append], isLow, lowNotPoint, ?_, ?_⟩
    · intro earlier among
      rcases List.mem_cons.mp among with isFirst | later
      · rw [isFirst]
        exact ⟨fun isE => notExponent (Or.inl isE), fun isE => notExponent (Or.inr isE),
          Or.inr digit⟩
      · exact taken earlier later
    · rw [digitsOnto_digit notPoint]
      exact room

theorem jsonMantissaFrom_full (bytes : List UInt8) (mantissa : Int) (dropped index : Nat) :
    ∃ total, jsonMantissaFrom bytes mantissa true dropped index = .ok (mantissa, total) := by
  induction left : bytes.length - index using Nat.strong_induction_on
    generalizing dropped index with
  | _ size ih =>
    have onward (dropped : Nat) (inside : index < bytes.length) : ∃ total,
        jsonMantissaFrom bytes mantissa true dropped (index + 1) = .ok (mantissa, total) :=
      ih (bytes.length - (index + 1)) (by omega) dropped (index + 1) rfl
    unfold jsonMantissaFrom
    by_cases inside : index < bytes.length
    · rw [if_pos inside, byteAt_inside inside, ok_bind]
      split
      · exact onward dropped inside
      split
      · exact ⟨dropped, rfl⟩
      · exact onward (dropped + 1) inside
    · rw [if_neg inside]
      exact ⟨dropped, rfl⟩

/-- The mantissa of a text: it stops the program exactly when the text dips. -/
theorem jsonMantissaFrom_spec (bytes : List UInt8) (positive : 0 ≤ mantissa)
    (room : mantissa ≤ intMax) (dropped index : Nat) :
    Dips mantissa (bytes.drop index) ∧
        jsonMantissaFrom bytes mantissa false dropped index = .error .integerOverflow ∨
      ¬ Dips mantissa (bytes.drop index) ∧ ∃ taken total,
        jsonMantissaFrom bytes mantissa false dropped index = .ok (taken, total) ∧
          0 ≤ taken ∧ taken ≤ intMax := by
  induction left : bytes.length - index using Nat.strong_induction_on
    generalizing mantissa dropped index with
  | _ size ih =>
    unfold jsonMantissaFrom
    by_cases inside : index < bytes.length
    · have shorter : bytes.length - (index + 1) < size := by
        omega
      rw [List.drop_eq_getElem_cons inside, if_pos inside, byteAt_inside inside, ok_bind]
      generalize bytes[index] = byte
      by_cases point : byte = 46
      · rw [point, dips_point, if_pos rfl]
        exact ih _ shorter positive room dropped (index + 1) rfl
      rw [if_neg point]
      by_cases exponent : byte = 101 ∨ byte = 69
      · rw [if_pos exponent]
        exact Or.inr ⟨not_dips_exponent exponent mantissa _, mantissa, dropped, rfl, positive,
          room⟩
      rw [if_neg exponent, if_neg (by decide)]
      by_cases digit : 48 ≤ byte
      · have least := digitOf_nonneg digit
        have most : digitOf byte ≤ 207 := by
          have bound := byte.toNat_lt
          unfold digitOf
          omega
        have big : (207 : Int) ≤ intMax := by
          decide
        rw [dips_digit digit exponent,
          checkedInt_ok (by unfold intMin; omega) (by omega), ok_bind]
        have quotient : (intMax - digitOf byte).tdiv 10 = (intMax - digitOf byte) / 10 :=
          Int.tdiv_eq_ediv_of_nonneg (by omega)
        rw [quotient]
        by_cases full : (intMax - digitOf byte) / 10 < mantissa
        · rcases jsonMantissaFrom_full bytes mantissa (dropped + 1) (index + 1) with
            ⟨total, ran⟩
          rw [if_pos full, ran]
          exact Or.inr ⟨not_dips_full (by omega) (by omega) _, mantissa, total, rfl, positive,
            room⟩
        · rw [if_neg full, checkedInt_ok (by unfold intMin; omega) (by omega), ok_bind,
            checkedInt_ok (by unfold intMin; omega) (by omega), ok_bind]
          exact ih _ shorter (by omega) (by omega) dropped (index + 1) rfl
      · have low : byte < 48 := UInt8.not_le.mp digit
        have under : digitOf byte < 0 := by
          have below : byte.toNat < 48 := UInt8.lt_iff_toNat_lt.mp low
          unfold digitOf
          omega
        have overflows : checkedInt (intMax - digitOf byte) = .error .integerOverflow :=
          checkedInt_error (by omega)
        rw [overflows]
        exact Or.inl ⟨dips_low low point room _, rfl⟩
    · rw [if_neg inside, List.drop_eq_nil_of_le (Nat.not_lt.mp inside)]
      exact Or.inr ⟨not_dips_nil mantissa, mantissa, dropped, rfl, positive, room⟩

theorem jsonScaleWhole_total (scale : Nat) (positive : 0 ≤ mantissa) :
    ∃ result, jsonScaleWhole scale mantissa = .ok result := by
  induction scale generalizing mantissa with
  | zero => exact ⟨_, rfl⟩
  | succ scale ih =>
    unfold jsonScaleWhole
    by_cases small : mantissa ≠ 0 ∧ mantissa ≤ jsonIntCeiling
    · have ceiling : jsonIntCeiling * 10 ≤ intMax := by
        decide
      rw [if_pos small, checkedInt_ok (by unfold intMin; omega) (by omega), ok_bind]
      exact ih (by omega)
    · rw [if_neg small]
      exact ⟨_, rfl⟩

end Foundation

end KiraVm
