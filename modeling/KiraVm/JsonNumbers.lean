import KiraVm.JsonTexts

/-!
# The integers of literals

What `jsonWholeNumber` makes of the digits of a literal: the `Int` that it spells, when
there is one.
-/

namespace KiraVm

namespace Foundation

open StateLogic

open Json

namespace JsonReader

def AllDigits (bytes : List UInt8) : Prop :=
  ∀ byte ∈ bytes, 48 ≤ byte ∧ byte ≤ 57

theorem digitOf_bounds {byte : UInt8} (digit : 48 ≤ byte ∧ byte ≤ 57) :
    0 ≤ digitOf byte ∧ digitOf byte ≤ 9 := by
  have least : 48 ≤ byte.toNat := UInt8.le_iff_toNat_le.mp digit.1
  have most : byte.toNat ≤ 57 := UInt8.le_iff_toNat_le.mp digit.2
  unfold digitOf
  omega

def decimalOnto (number : Int) (digits : List UInt8) : Int :=
  digits.foldl (fun number digit => number * 10 + digitOf digit) number

theorem decimalOnto_cons (number : Int) (digit : UInt8) (digits : List UInt8) :
    decimalOnto number (digit :: digits) = decimalOnto (number * 10 + digitOf digit) digits :=
  rfl

variable {digits : List UInt8}

theorem le_decimalOnto {number : Int} (positive : 0 ≤ number) (decimal : AllDigits digits) :
    number ≤ decimalOnto number digits := by
  induction digits generalizing number with
  | nil => exact Int.le_refl number
  | cons digit digits ih =>
    have bounds := digitOf_bounds (decimal digit List.mem_cons_self)
    rw [decimalOnto_cons]
    have onward := @ih (number * 10 + digitOf digit) (by omega)
      fun later among => decimal later (List.mem_cons_of_mem digit among)
    omega

theorem jsonWholeFrom_spec {bytes digits : List UInt8} {number : Int} {index : Nat}
    (left : bytes.drop index = digits) (decimal : AllDigits digits) (positive : 0 ≤ number)
    (fits : number ≤ 2 ^ 63) :
    jsonWholeFrom bytes (-number) index =
      .ok (if decimalOnto number digits ≤ 2 ^ 63 then some (-decimalOnto number digits)
        else none) := by
  induction digits generalizing number index with
  | nil =>
    have ended : ¬ index < bytes.length := Nat.not_lt.mpr (List.drop_eq_nil_iff.mp left)
    have same : decimalOnto number [] = number := rfl
    unfold jsonWholeFrom
    rw [if_neg ended, same, if_pos fits]
  | cons digit digits ih =>
    have bounds := digitOf_bounds (decimal digit List.mem_cons_self)
    have rest : AllDigits digits :=
      fun later among => decimal later (List.mem_cons_of_mem digit among)
    have here : bytes[index]? = some digit := by
      rw [← List.head?_drop, left]
      rfl
    have inside : index < bytes.length := (List.getElem?_eq_some_iff.mp here).1
    have behind : bytes.drop (index + 1) = digits := by
      rw [← List.drop_drop, left]
      rfl
    have grown := le_decimalOnto (show 0 ≤ number * 10 + digitOf digit by omega) rest
    unfold jsonWholeFrom
    rw [if_pos inside, byteAt_ok here, ok_bind, decimalOnto_cons]
    by_cases past : -number < -jsonIntCeiling
    · have beyond : ¬ decimalOnto (number * 10 + digitOf digit) digits ≤ 2 ^ 63 := by
        unfold jsonIntCeiling at past
        omega
      rw [if_pos past, if_neg beyond]
    · have scaled : checkedInt (-number * 10) = .ok (-number * 10) := by
        unfold jsonIntCeiling at past
        exact checkedInt_ok (by unfold intMin; omega) (by unfold intMax; omega)
      have limit : checkedInt (intMin + digitOf digit) = .ok (intMin + digitOf digit) :=
        checkedInt_ok (by omega) (by unfold intMin intMax; omega)
      rw [if_neg past, scaled, ok_bind, limit, ok_bind]
      by_cases beyond : -number * 10 < intMin + digitOf digit
      · have tooLarge : ¬ decimalOnto (number * 10 + digitOf digit) digits ≤ 2 ^ 63 := by
          unfold intMin at beyond
          omega
        rw [if_pos beyond, if_neg tooLarge]
      · have next : checkedInt (-number * 10 - digitOf digit) =
            .ok (-(number * 10 + digitOf digit)) := by
          have same : -number * 10 - digitOf digit = -(number * 10 + digitOf digit) := by
            omega
          rw [same]
          exact checkedInt_ok (by unfold intMin at beyond ⊢; omega) (by unfold intMax; omega)
        rw [if_neg beyond, next, ok_bind]
        exact ih behind rest (by omega) (by unfold intMin at beyond; omega)

/-- A literal without fraction and exponent is the `Int` that it spells, when there is one. -/
theorem jsonWholeNumber_spec {negative : Bool} {whole : List UInt8} (digits : Digits whole) :
    jsonWholeNumber ((if negative then [45] else []) ++ whole) =
      .ok (if intMin ≤ (if negative then -decimalOf whole else decimalOf whole) ∧
          (if negative then -decimalOf whole else decimalOf whole) ≤ intMax
        then some (if negative then -decimalOf whole else decimalOf whole) else none) := by
  have grown : 0 ≤ decimalOf whole := le_decimalOnto (Int.le_refl 0) digits.2
  have zero : -(0 : Int) = 0 := rfl
  unfold jsonWholeNumber
  cases negative with
  | true =>
    have first : byteAt ([45] ++ whole) 0 = .ok 45 := rfl
    have accumulated := @jsonWholeFrom_spec ([45] ++ whole) whole 0 1 rfl digits.2
      (Int.le_refl 0) (by decide)
    rw [zero, show decimalOnto 0 whole = decimalOf whole from rfl] at accumulated
    simp only [if_true]
    rw [first, ok_bind]
    simp only [if_true]
    rw [accumulated, ok_bind]
    by_cases fits : decimalOf whole ≤ 2 ^ 63
    · rw [if_pos fits, if_pos ⟨by unfold intMin; omega, by unfold intMax; omega⟩]
    · rw [if_neg fits, if_neg fun bounds => fits (by unfold intMin at bounds; omega)]
  | false =>
    have some : whole ≠ [] := digits.1
    rcases List.exists_cons_of_ne_nil some with ⟨digit, rest, rfl⟩
    have first : byteAt (digit :: rest) 0 = .ok digit := rfl
    have notMinus : ¬ digit = 45 := by
      intro minus
      have least := (digits.2 digit List.mem_cons_self).1
      rw [minus] at least
      exact absurd least (by decide)
    have accumulated := @jsonWholeFrom_spec (digit :: rest) (digit :: rest) 0 0 rfl digits.2
      (Int.le_refl 0) (by decide)
    rw [zero, show decimalOnto 0 (digit :: rest) = decimalOf (digit :: rest) from rfl]
      at accumulated
    simp only [Bool.false_eq_true, if_false, List.nil_append]
    rw [first, ok_bind]
    simp only [notMinus, if_false]
    rw [accumulated, ok_bind]
    by_cases fits : decimalOf (digit :: rest) ≤ 2 ^ 63
    · rw [if_pos fits]
      simp only
      by_cases least : -decimalOf (digit :: rest) = intMin
      · rw [if_pos least, if_neg fun bounds => by unfold intMin intMax at *; omega]
      · have positive : checkedInt (0 - -decimalOf (digit :: rest)) =
            .ok (decimalOf (digit :: rest)) := by
          rw [Int.zero_sub, Int.neg_neg]
          exact checkedInt_ok (by unfold intMin; omega) (by unfold intMin intMax at *; omega)
        rw [if_neg least, positive, ok_bind,
          if_pos ⟨by unfold intMin; omega, by unfold intMin intMax at *; omega⟩]
    · rw [if_neg fits, if_neg fun bounds => fits (by unfold intMax at bounds; omega)]

end JsonReader

end Foundation

end KiraVm
