import KiraVm.NumberArithmetic
import Mathlib.Data.List.TakeWhile

/-!
# Decimal texts

A spelling is a sign, integer digits and a fraction.  What a text is read as is what
its spelling denotes, and the text of a decimal is the shortest spelling of it that
has an integer digit.
-/

namespace KiraVm

namespace Decimal

/-! ## Spellings -/

/-- A sign (whether it is negative), integer digits, and the digits after a point. -/
structure Spelling where
  sign : Option Bool
  integer : List Char
  fraction : Option (List Char)

namespace Spelling

def signText (spelling : Spelling) : List Char :=
  match spelling.sign with
  | some true => ['-']
  | some false => ['+']
  | none => []

def fractionText (spelling : Spelling) : List Char :=
  match spelling.fraction with
  | some digits => '.' :: digits
  | none => []

def fractionDigits (spelling : Spelling) : List Char :=
  spelling.fraction.getD []

/-- What follows the sign. -/
def unsigned (spelling : Spelling) : List Char :=
  spelling.integer ++ spelling.fractionText

def text (spelling : Spelling) : List Char :=
  spelling.signText ++ spelling.unsigned

def negative (spelling : Spelling) : Bool :=
  spelling.sign == some true

/-- There is a digit, and only digits. -/
structure Valid (spelling : Spelling) : Prop where
  integer : ∀ character ∈ spelling.integer, character.isDigit = true
  fraction : ∀ character ∈ spelling.fractionDigits, character.isDigit = true
  some : spelling.integer ++ spelling.fractionDigits ≠ []

/-- The rational that a spelling denotes. -/
def value (spelling : Spelling) : ℚ :=
  (if spelling.negative then -1 else 1) *
    (Nat.ofDigitChars 10 spelling.integer 0 +
      Nat.ofDigitChars 10 spelling.fractionDigits 0 / 10 ^ spelling.fractionDigits.length)

/-- The digits of a spelling as one mantissa. -/
def magnitude (spelling : Spelling) : Nat :=
  Nat.ofDigitChars 10 (spelling.integer ++ spelling.fractionDigits) 0

def mantissa (spelling : Spelling) : Int :=
  if spelling.negative then -spelling.magnitude else spelling.magnitude

theorem value_eq (spelling : Spelling) :
    spelling.value = (spelling.mantissa : ℚ) / 10 ^ spelling.fractionDigits.length := by
  have whole : (spelling.magnitude : ℚ) =
      10 ^ spelling.fractionDigits.length * Nat.ofDigitChars 10 spelling.integer 0 +
        Nat.ofDigitChars 10 spelling.fractionDigits 0 := by
    unfold magnitude
    rw [Nat.ofDigitChars_append, Nat.ofDigitChars_eq_ofDigitChars_zero]
    push_cast
    rfl
  unfold value mantissa
  split
  · push_cast
    rw [whole]
    field_simp [ten_pow_ne_zero]
  · push_cast
    rw [whole]
    field_simp [ten_pow_ne_zero]

end Spelling

/-- A text, less the blanks around it, is a spelling of the number. -/
def Denotes (text : List Char) (number : ℚ) : Prop :=
  ∃ before after : List Char, ∃ spelling : Spelling,
    (∀ character ∈ before ++ after, isWhitespace character = true) ∧ spelling.Valid ∧
      text = before ++ spelling.text ++ after ∧ number = spelling.value

/-! ## Digits -/

theorem digit_ne {character other : Char} (digit : character.isDigit = true)
    (different : other.isDigit = false) : character ≠ other := by
  rintro rfl
  rw [digit] at different
  cases different

theorem digit_not_whitespace {character : Char} (digit : character.isDigit = true) :
    isWhitespace character = false := by
  unfold Char.isDigit at digit
  simp only [Bool.and_eq_true, decide_eq_true_eq, ge_iff_le, UInt32.le_iff_toNat_le] at digit
  have low : 48 ≤ character.toNat := digit.1
  have high : character.toNat ≤ 57 := digit.2
  simp only [isWhitespace, Bool.or_eq_false_iff, Bool.and_eq_false_iff, decide_eq_false_iff_not,
    beq_eq_false_iff_ne]
  omega

theorem le_ofDigitChars (digits : List Char) (number : Nat) :
    number ≤ Nat.ofDigitChars 10 digits number := by
  rw [Nat.ofDigitChars_eq_ofDigitChars_zero]
  have scaled : number ≤ 10 ^ digits.length * number :=
    Nat.le_mul_of_pos_left _ (by positivity)
  omega

theorem accumulate_cons {number : Nat} {digit : Char} {digits : List Char}
    (isDigit : digit.isDigit = true) :
    accumulate number (digit :: digits) =
      if 10 * number + (digit.toNat - '0'.toNat) < 2 ^ 127 then
        accumulate ((10 * number + (digit.toNat - '0'.toNat) : Nat) : Int) digits
      else .error .overflow := by
  have product : ((number : Int) * 10) = ((10 * number : Nat) : Int) := by
    push_cast
    ring
  rw [accumulate, if_pos isDigit]
  generalize digit.toNat - '0'.toNat = added
  split
  · next next scaled =>
      rw [Option.bind_eq_some_iff] at scaled
      obtain ⟨tens, first, second⟩ := scaled
      rw [checked_eq_some_iff] at first second
      obtain ⟨-, rfl⟩ := first
      obtain ⟨fits, rfl⟩ := second
      unfold FitsI128 at fits
      rw [if_pos (by omega), product]
      push_cast
      rfl
  · next missing =>
      rw [Option.bind_eq_none_iff] at missing
      rw [if_neg]
      intro small
      have tens : FitsI128 ((number : Int) * 10) := by
        unfold FitsI128
        omega
      have overflow := missing _ (checked_of_fits tens)
      rw [checked_eq_none_iff] at overflow
      apply overflow
      unfold FitsI128
      omega

theorem accumulate_digits {digits : List Char} {number : Nat}
    (all : ∀ character ∈ digits, character.isDigit = true)
    (small : Nat.ofDigitChars 10 digits number < 2 ^ 127) :
    accumulate number digits = .ok (Nat.ofDigitChars 10 digits number) := by
  induction digits generalizing number with
  | nil => rfl
  | cons digit digits ih =>
    rw [Nat.ofDigitChars_cons] at small ⊢
    have bound := le_ofDigitChars digits (10 * number + (digit.toNat - '0'.toNat))
    rw [accumulate_cons (all digit (by simp)), if_pos (by omega)]
    exact ih (fun character member => all character (by simp [member])) small

theorem accumulate_ok {digits : List Char} {number : Nat} {result : Int}
    (ok : accumulate number digits = .ok result) :
    (∀ character ∈ digits, character.isDigit = true) ∧
      result = Nat.ofDigitChars 10 digits number := by
  induction digits generalizing number with
  | nil =>
    injection ok with same
    exact ⟨by simp, same.symm⟩
  | cons digit digits ih =>
    by_cases isDigit : digit.isDigit = true
    · rw [accumulate_cons isDigit] at ok
      split at ok
      · obtain ⟨all, same⟩ := ih ok
        refine ⟨?_, by rw [same, Nat.ofDigitChars_cons]⟩
        simp only [List.mem_cons, forall_eq_or_imp]
        exact ⟨isDigit, all⟩
      · cases ok
    · rw [accumulate, if_neg isDigit] at ok
      cases ok

/-! ## Trimming -/

theorem dropWhile_append_all {before rest : List Char}
    (blank : ∀ character ∈ before, isWhitespace character = true)
    (starts : ∀ character ∈ rest.head?, isWhitespace character = false) :
    (before ++ rest).dropWhile isWhitespace = rest := by
  rw [List.dropWhile_append_of_pos blank]
  cases rest with
  | nil => rfl
  | cons first rest =>
    rw [List.dropWhile_cons_of_neg]
    rw [starts first rfl]
    simp

theorem trim_eq {before after text : List Char}
    (blank : ∀ character ∈ before ++ after, isWhitespace character = true)
    (starts : ∀ character ∈ text.head?, isWhitespace character = false)
    (ends : ∀ character ∈ text.getLast?, isWhitespace character = false)
    (some : text ≠ []) :
    trim (before ++ text ++ after) = text := by
  simp only [List.mem_append] at blank
  have first : (before ++ text ++ after).dropWhile isWhitespace = text ++ after := by
    rw [List.append_assoc]
    apply dropWhile_append_all (fun character member => blank character (Or.inl member))
    rw [List.head?_append_of_ne_nil _ some]
    exact starts
  unfold trim
  rw [first, List.reverse_append, dropWhile_append_all, List.reverse_reverse]
  · intro character member
    exact blank character (Or.inr (List.mem_reverse.mp member))
  · rw [List.head?_reverse]
    exact ends

/-- Trimming takes blanks off both ends. -/
theorem trim_spec (text : List Char) : ∃ before after,
    (∀ character ∈ before ++ after, isWhitespace character = true) ∧
      text = before ++ trim text ++ after := by
  have front := @List.takeWhile_append_dropWhile _ isWhitespace text
  generalize middleEq : text.dropWhile isWhitespace = middle at front
  have back := @List.takeWhile_append_dropWhile _ isWhitespace middle.reverse
  refine ⟨text.takeWhile isWhitespace, (middle.reverse.takeWhile isWhitespace).reverse, ?_, ?_⟩
  · intro character member
    rw [List.mem_append, List.mem_reverse] at member
    rcases member with member | member
    · exact List.mem_takeWhile_imp member
    · exact List.mem_takeWhile_imp member
  · unfold trim
    rw [middleEq, List.append_assoc, ← List.reverse_append, back, List.reverse_reverse, front]

/-! ## Reading a spelling -/

theorem stripSign_spec (text : List Char) : ∃ sign : Option Bool, ∀ spelling : Spelling,
    spelling.sign = sign → spelling.unsigned = (stripSign text).2 →
      text = spelling.text ∧ (stripSign text).1 = spelling.negative := by
  unfold stripSign Spelling.text Spelling.signText Spelling.negative
  split
  · next rest =>
      refine ⟨some true, ?_⟩
      intro spelling sign same
      rw [sign, same]
      exact ⟨rfl, rfl⟩
  · next rest =>
      refine ⟨some false, ?_⟩
      intro spelling sign same
      rw [sign, same]
      exact ⟨rfl, rfl⟩
  · refine ⟨none, ?_⟩
    intro spelling sign same
    rw [sign, same]
    exact ⟨rfl, rfl⟩

/-- A text before and after its first point. -/
theorem point_spec (rest : List Char) : ∃ fraction : Option (List Char),
    ∀ spelling : Spelling, spelling.integer = rest.takeWhile (· ≠ '.') →
      spelling.fraction = fraction → spelling.unsigned = rest ∧
        spelling.fractionDigits = (rest.dropWhile (· ≠ '.')).drop 1 := by
  have parts := @List.takeWhile_append_dropWhile _ (· ≠ '.') rest
  unfold Spelling.unsigned Spelling.fractionText Spelling.fractionDigits
  cases after : rest.dropWhile (· ≠ '.') with
  | nil =>
    refine ⟨none, ?_⟩
    intro spelling integer fraction
    rw [after] at parts
    rw [integer, fraction]
    exact ⟨parts, rfl⟩
  | cons point digits =>
    have isPoint : point = '.' := by
      have stopped := List.head?_dropWhile_not (· ≠ '.') rest
      rw [after] at stopped
      simpa using stopped
    refine ⟨some digits, ?_⟩
    intro spelling integer fraction
    rw [after, isPoint] at parts
    rw [integer, fraction]
    exact ⟨parts, rfl⟩

theorem parseDigits_ok_iff {negative : Bool} {integer fraction : List Char} {decimal : Decimal} :
    parseDigits negative integer fraction = .ok decimal ↔
      (∀ character ∈ integer ++ fraction, character.isDigit = true) ∧
        fraction.length ≤ maxScale ∧ decimal.scale.toNat = fraction.length ∧
        decimal.mantissa.toInt =
          if negative then -(Nat.ofDigitChars 10 (integer ++ fraction) 0 : Int)
          else Nat.ofDigitChars 10 (integer ++ fraction) 0 := by
  have scaleEq (short : fraction.length ≤ maxScale) :
      (UInt32.ofNat fraction.length).toNat = fraction.length :=
    UInt32.toNat_ofNat_of_lt' (lt_of_le_of_lt short (by decide))
  unfold parseDigits
  constructor
  · intro ok
    cases digits : accumulate 0 (integer ++ fraction) with
    | error error =>
      rw [digits] at ok
      cases ok
    | ok magnitude =>
      obtain ⟨all, rfl⟩ := @accumulate_ok _ 0 _ digits
      rw [digits] at ok
      simp only [bind, Except.bind] at ok
      split at ok
      · cases ok
      · split at ok
        · cases ok
        · next short =>
            split at ok
            · next word narrowed =>
                injection ok with same
                rw [toI64_eq_some_iff] at narrowed
                rw [← same]
                exact ⟨all, by omega, scaleEq (by omega), narrowed.2⟩
            · cases ok
  · rintro ⟨all, short, scale, mantissa⟩
    have fits := fitsI64_mantissa decimal.mantissa
    have small : Nat.ofDigitChars 10 (integer ++ fraction) 0 < 2 ^ 127 := by
      rw [mantissa] at fits
      unfold FitsI64 at fits
      split at fits <;> omega
    have digits := accumulate_digits all small
    have narrowed : toI64 (if negative then -(Nat.ofDigitChars 10 (integer ++ fraction) 0 : Int)
        else Nat.ofDigitChars 10 (integer ++ fraction) 0) = some decimal.mantissa := by
      rw [← mantissa, toI64_eq_some_iff]
      exact ⟨fits, rfl⟩
    change (do
      let mantissa ← accumulate ((0 : Nat) : Int) (integer ++ fraction)
      _) = _
    rw [digits]
    simp only [bind, Except.bind]
    have below : fraction.length < 2 ^ 32 := lt_of_le_of_lt short (by decide)
    rw [if_neg (by omega), if_neg (by omega), narrowed]
    exact congrArg Except.ok (eq_of_toInt rfl ((scaleEq short).trans scale.symm))

theorem parse_eq {text : String} {spelling : Spelling}
    (sign : stripSign (trim text.toList) = (spelling.negative, spelling.unsigned))
    (integer : spelling.unsigned.takeWhile (· ≠ '.') = spelling.integer)
    (fraction : (spelling.unsigned.dropWhile (· ≠ '.')).drop 1 = spelling.fractionDigits)
    (some : spelling.integer ++ spelling.fractionDigits ≠ []) :
    parse text =
      parseDigits spelling.negative spelling.integer spelling.fractionDigits := by
  have starts : spelling.unsigned ≠ [] := by
    intro empty
    rw [empty] at integer fraction
    rw [← integer, ← fraction] at some
    exact some rfl
  have either : ¬ (spelling.integer = [] ∧ spelling.fractionDigits = []) := by
    rintro ⟨noInteger, noFraction⟩
    rw [noInteger, noFraction] at some
    exact some rfl
  unfold parse
  rw [sign]
  simp only [integer, fraction, List.isEmpty_iff, Bool.and_eq_true, starts, either, if_false]

theorem denotes_of_parse {text : String} {decimal : Decimal} (ok : parse text = .ok decimal) :
    Denotes text.toList decimal.value ∧ decimal.scale.toNat ≤ maxScale := by
  obtain ⟨before, after, blank, trimmed⟩ := trim_spec text.toList
  obtain ⟨sign, signed⟩ := stripSign_spec (trim text.toList)
  obtain ⟨fraction, pointed⟩ := point_spec (stripSign (trim text.toList)).2
  generalize spellingEq : (⟨sign, (stripSign (trim text.toList)).2.takeWhile (· ≠ '.'),
    fraction⟩ : Spelling) = spelling
  obtain ⟨unsigned, fractionDigits⟩ := pointed spelling (by rw [← spellingEq]) (by rw [← spellingEq])
  obtain ⟨spelled, negative⟩ := signed spelling (by rw [← spellingEq]) unsigned
  have integer : spelling.unsigned.takeWhile (· ≠ '.') = spelling.integer := by
    rw [unsigned, ← spellingEq]
  rw [← unsigned] at fractionDigits
  have stripped : stripSign (trim text.toList) = (spelling.negative, spelling.unsigned) := by
    rw [unsigned, ← negative]
  have some : spelling.integer ++ spelling.fractionDigits ≠ [] := by
    intro empty
    rw [List.append_eq_nil_iff] at empty
    unfold parse at ok
    rw [stripped] at ok
    simp only [integer, ← fractionDigits, empty.1, empty.2] at ok
    split at ok <;> cases ok
  rw [parse_eq stripped integer fractionDigits.symm some, parseDigits_ok_iff] at ok
  obtain ⟨all, short, scale, mantissa⟩ := ok
  simp only [List.mem_append] at all
  refine ⟨⟨before, after, spelling, blank, ⟨?_, ?_, some⟩, ?_, ?_⟩, by rw [scale]; exact short⟩
  · exact fun character member => all character (Or.inl member)
  · exact fun character member => all character (Or.inr member)
  · rw [← spelled]
    exact trimmed
  · rw [spelling.value_eq, value, scale, mantissa]
    rfl

namespace Spelling

variable {spelling : Spelling} (valid : spelling.Valid)

include valid

theorem Valid.unsigned_chars : ∀ character ∈ spelling.unsigned,
    character.isDigit = true ∨ character = '.' := by
  intro character member
  unfold unsigned fractionText at member
  rw [List.mem_append] at member
  rcases member with member | member
  · exact Or.inl (valid.integer character member)
  · have fraction := valid.fraction
    unfold fractionDigits at fraction
    split at member
    · next digits isSome =>
        rw [isSome] at fraction
        rcases List.mem_cons.mp member with point | member
        · exact Or.inr point
        · exact Or.inl (fraction character member)
    · cases member

theorem Valid.unsigned_ne_nil : spelling.unsigned ≠ [] := by
  have some := valid.some
  unfold unsigned fractionText
  unfold fractionDigits at some
  intro empty
  rw [List.append_eq_nil_iff] at empty
  rw [empty.1] at some
  split at empty
  · cases empty.2
  · next isNone =>
      rw [isNone] at some
      exact some rfl

theorem Valid.pointed :
    spelling.unsigned.takeWhile (· ≠ '.') = spelling.integer ∧
      (spelling.unsigned.dropWhile (· ≠ '.')).drop 1 = spelling.fractionDigits := by
  have before : ∀ character ∈ spelling.integer, decide (character ≠ '.') = true := by
    intro character member
    exact decide_eq_true (digit_ne (valid.integer character member) rfl)
  unfold unsigned fractionText fractionDigits
  rw [List.takeWhile_append_of_pos before, List.dropWhile_append_of_pos before]
  cases spelling.fraction with
  | none => exact ⟨List.append_nil _, rfl⟩
  | some digits => exact ⟨List.append_nil _, rfl⟩

/-- The sign is what stands before the first digit or point. -/
theorem Valid.signed :
    stripSign spelling.text = (spelling.negative, spelling.unsigned) := by
  have chars := valid.unsigned_chars
  unfold text signText negative
  cases sign : spelling.sign with
  | some negative => cases negative <;> rfl
  | none =>
    cases spelled : spelling.unsigned with
    | nil => rfl
    | cons first rest =>
      have start := chars first (by rw [spelled]; exact List.mem_cons_self)
      have notMinus : first ≠ '-' := by
        rintro rfl
        rcases start with digit | point
        · cases digit
        · cases point
      have notPlus : first ≠ '+' := by
        rintro rfl
        rcases start with digit | point
        · cases digit
        · cases point
      change stripSign (first :: rest) = _
      unfold stripSign
      split
      · next same => exact absurd (List.cons.inj same).1 notMinus
      · next same => exact absurd (List.cons.inj same).1 notPlus
      · rfl

theorem Valid.trimmed : trim spelling.text = spelling.text := by
  have visible : ∀ character ∈ spelling.text, isWhitespace character = false := by
    intro character member
    unfold text at member
    rw [List.mem_append] at member
    rcases member with member | member
    · unfold signText at member
      split at member
      · rw [List.mem_singleton.mp member]
        rfl
      · rw [List.mem_singleton.mp member]
        rfl
      · cases member
    · rcases valid.unsigned_chars character member with digit | point
      · exact digit_not_whitespace digit
      · rw [point]
        rfl
  have some : spelling.text ≠ [] := by
    intro empty
    exact valid.unsigned_ne_nil (List.append_eq_nil_iff.mp empty).2
  have trimmed := @trim_eq [] [] spelling.text (by simp)
    (fun character first => visible character (List.mem_of_mem_head? first))
    (fun character last => visible character (List.mem_of_getLast? last)) some
  rwa [List.nil_append, List.append_nil] at trimmed

theorem Valid.parse_ok {decimal : Decimal} (short : spelling.fractionDigits.length ≤ maxScale)
    (scale : decimal.scale.toNat = spelling.fractionDigits.length)
    (mantissa : decimal.mantissa.toInt = spelling.mantissa) :
    parse (String.ofList spelling.text) = .ok decimal := by
  have stripped : stripSign (trim (String.ofList spelling.text).toList) =
      (spelling.negative, spelling.unsigned) := by
    rw [String.toList_ofList, valid.trimmed, valid.signed]
  rw [parse_eq stripped valid.pointed.1 valid.pointed.2 valid.some, parseDigits_ok_iff]
  refine ⟨?_, short, scale, mantissa⟩
  intro character member
  rcases List.mem_append.mp member with member | member
  · exact valid.integer character member
  · exact valid.fraction character member

end Spelling

/-! ## The spelling of a decimal -/

def spellingOf (mantissa : Int) (scale : Nat) : Spelling :=
  let digits := Nat.toDigits 10 mantissa.natAbs
  let sign := if mantissa < 0 then some true else none
  if scale = 0 then ⟨sign, digits, none⟩
  else if scale < digits.length then
    ⟨sign, digits.take (digits.length - scale), some (digits.drop (digits.length - scale))⟩
  else ⟨sign, ['0'], some (List.replicate (scale - digits.length) '0' ++ digits)⟩

theorem toDecimalString_eq (self : Decimal) :
    self.toDecimalString =
      String.ofList
        (spellingOf self.withoutTrailingZeros.1 self.withoutTrailingZeros.2).text := by
  unfold toDecimalString spellingOf
  generalize self.withoutTrailingZeros = reduced
  rcases reduced with ⟨mantissa, scale⟩
  simp only
  have sign : (if mantissa < 0 then ['-'] else []) =
      match (if mantissa < 0 then some true else none : Option Bool) with
      | some true => ['-']
      | some false => ['+']
      | none => [] := by
    split <;> rfl
  rw [sign]
  split
  · unfold Spelling.text Spelling.unsigned Spelling.signText Spelling.fractionText
    simp only [List.append_nil]
  · split
    · unfold Spelling.text Spelling.unsigned Spelling.signText Spelling.fractionText
      simp only [List.append_assoc]
    · unfold Spelling.text Spelling.unsigned Spelling.signText Spelling.fractionText
      simp only [List.append_assoc, List.cons_append, List.nil_append]

section SpellingOf

variable (mantissa : Int) (scale : Nat)

theorem digits_isDigit (number : Nat) :
    ∀ character ∈ Nat.toDigits 10 number, character.isDigit = true :=
  fun _ member => Nat.isDigit_of_mem_toDigits (by decide) (by decide) member

theorem spellingOf_digits : ∃ zeros,
    (spellingOf mantissa scale).integer ++ (spellingOf mantissa scale).fractionDigits =
      List.replicate zeros '0' ++ Nat.toDigits 10 mantissa.natAbs := by
  unfold spellingOf Spelling.fractionDigits
  simp only
  split
  · exact ⟨0, List.append_nil _⟩
  · split
    · exact ⟨0, List.take_append_drop _ _⟩
    · exact ⟨_ + 1, rfl⟩

theorem spellingOf_valid : (spellingOf mantissa scale).Valid := by
  obtain ⟨zeros, digits⟩ := spellingOf_digits mantissa scale
  have all : ∀ character ∈ (spellingOf mantissa scale).integer ++
      (spellingOf mantissa scale).fractionDigits, character.isDigit = true := by
    intro character member
    rw [digits] at member
    rcases List.mem_append.mp member with zero | digit
    · rw [List.eq_of_mem_replicate zero]
      rfl
    · exact digits_isDigit _ character digit
  refine ⟨fun character member => all character (List.mem_append.mpr (Or.inl member)),
    fun character member => all character (List.mem_append.mpr (Or.inr member)), ?_⟩
  rw [digits]
  intro empty
  exact Nat.toDigits_ne_nil (List.append_eq_nil_iff.mp empty).2

theorem spellingOf_fraction : (spellingOf mantissa scale).fractionDigits.length = scale := by
  have positive := @Nat.length_toDigits_pos 10 mantissa.natAbs
  unfold spellingOf Spelling.fractionDigits
  simp only
  split
  · next flat => exact flat.symm
  · split
    · simp only [Option.getD_some, List.length_drop]
      omega
    · simp only [Option.getD_some, List.length_append, List.length_replicate]
      omega

theorem spellingOf_sign :
    (spellingOf mantissa scale).sign = if mantissa < 0 then some true else none := by
  unfold spellingOf
  simp only
  split
  · rfl
  · split <;> rfl

theorem spellingOf_negative : (spellingOf mantissa scale).negative = decide (mantissa < 0) := by
  unfold Spelling.negative
  rw [spellingOf_sign]
  by_cases negative : mantissa < 0 <;> simp [negative]

theorem spellingOf_mantissa : (spellingOf mantissa scale).mantissa = mantissa := by
  obtain ⟨zeros, digits⟩ := spellingOf_digits mantissa scale
  have magnitude : (spellingOf mantissa scale).magnitude = mantissa.natAbs := by
    unfold Spelling.magnitude
    rw [digits, Nat.ofDigitChars_append, Nat.ofDigitChars_replicate_zero, Nat.mul_zero,
      Nat.ofDigitChars_ten_toDigits]
  unfold Spelling.mantissa
  rw [magnitude, spellingOf_negative]
  by_cases negative : mantissa < 0 <;> simp only [negative, decide_true, decide_false, if_true,
    Bool.false_eq_true, if_false] <;> omega

end SpellingOf

theorem Spelling.length_text (spelling : Spelling) :
    spelling.text.length = spelling.signText.length + spelling.integer.length +
      spelling.fractionText.length := by
  unfold Spelling.text Spelling.unsigned
  rw [List.length_append, List.length_append, Nat.add_assoc]

theorem spellingOf_length (mantissa : Int) (scale : Nat) :
    (spellingOf mantissa scale).text.length = (if mantissa < 0 then 1 else 0) +
      if scale = 0 then (Nat.toDigits 10 mantissa.natAbs).length
      else max (Nat.toDigits 10 mantissa.natAbs).length (scale + 1) + 1 := by
  have sign : (spellingOf mantissa scale).signText.length = if mantissa < 0 then 1 else 0 := by
    unfold Spelling.signText
    rw [spellingOf_sign]
    by_cases negative : mantissa < 0 <;> simp [negative]
  rw [Spelling.length_text, sign, Nat.add_assoc]
  congr 1
  unfold spellingOf Spelling.fractionText
  simp only
  split
  · rfl
  · split
    · simp only [List.length_take, List.length_cons, List.length_drop]
      omega
    · simp only [List.length_cons, List.length_nil, List.length_append, List.length_replicate]
      omega

theorem ofDigitChars_lt {digits : List Char}
    (all : ∀ character ∈ digits, character.isDigit = true) :
    Nat.ofDigitChars 10 digits 0 < 10 ^ digits.length := by
  induction digits with
  | nil => simp
  | cons digit digits ih =>
    have rest := ih fun character member => all character (List.mem_cons_of_mem _ member)
    have high : digit.toNat ≤ 57 := by
      have isDigit := all digit List.mem_cons_self
      unfold Char.isDigit at isDigit
      simp only [Bool.and_eq_true, decide_eq_true_eq, UInt32.le_iff_toNat_le] at isDigit
      exact isDigit.2
    have low : '0'.toNat = 48 := rfl
    have scaled : 10 ^ digits.length * (digit.toNat - 48) ≤ 10 ^ digits.length * 9 :=
      Nat.mul_le_mul_left _ (by omega)
    rw [Nat.ofDigitChars_cons, Nat.ofDigitChars_eq_ofDigitChars_zero, List.length_cons, pow_succ,
      low, Nat.mul_zero, Nat.zero_add]
    omega

theorem spellingOf_shortest {mantissa : Int} {scale : Nat} (reduced : Reduced mantissa scale)
    {spelling : Spelling} (valid : spelling.Valid) (starts : spelling.integer ≠ [])
    (same : spelling.value = (mantissa : ℚ) / 10 ^ scale) :
    (spellingOf mantissa scale).text.length ≤ spelling.text.length := by
  rw [spelling.value_eq] at same
  obtain ⟨more, longer, multiple⟩ := reduced.divides same.symm
  have first : 0 < spelling.integer.length := List.length_pos_iff.mpr starts
  have magnitude : spelling.mantissa.natAbs = spelling.magnitude := by
    unfold Spelling.mantissa
    split <;> omega
  -- the mantissa has no more digits than the spelling
  have digits : (Nat.toDigits 10 mantissa.natAbs).length ≤
      spelling.integer.length + spelling.fractionDigits.length := by
    rw [Nat.length_toDigits_le_iff (by decide) (by omega), ← List.length_append]
    have bound := @ofDigitChars_lt (spelling.integer ++ spelling.fractionDigits) (by
      intro character member
      rcases List.mem_append.mp member with member | member
      · exact valid.integer character member
      · exact valid.fraction character member)
    have divides : mantissa.natAbs ≤ spelling.magnitude := by
      rw [← magnitude, multiple, Int.natAbs_mul]
      exact Nat.le_mul_of_pos_right _ (Int.natAbs_pos.mpr (by positivity))
    exact lt_of_le_of_lt divides bound
  -- a number below zero is spelled with its sign
  have sign : (if mantissa < 0 then 1 else 0) ≤ spelling.signText.length := by
    split
    · next negative =>
        have below : spelling.mantissa < 0 := by
          rw [multiple]
          exact mul_neg_of_neg_of_pos negative (by positivity)
        have isNegative : spelling.sign = some true := by
          unfold Spelling.mantissa Spelling.negative at below
          split at below
          · next equal => exact beq_iff_eq.mp equal
          · omega
        unfold Spelling.signText
        rw [isNegative]
        exact le_refl _
    · exact Nat.zero_le _
  -- a fraction is spelled behind a point
  have point : spelling.fractionDigits.length + (if scale = 0 then 0 else 1) ≤
      spelling.fractionText.length := by
    unfold Spelling.fractionDigits at longer ⊢
    unfold Spelling.fractionText
    cases fraction : spelling.fraction with
    | none =>
      rw [fraction, Option.getD_none, List.length_nil] at longer
      simp only [Option.getD_none, List.length_nil]
      split <;> omega
    | some after =>
      simp only [Option.getD_some, List.length_cons]
      split <;> omega
  rw [spellingOf_length, spelling.length_text]
  by_cases flat : scale = 0
  · rw [if_pos flat] at point ⊢
    omega
  · rw [if_neg flat] at point ⊢
    omega

theorem withoutTrailingZeros_spec (self : Decimal) :
    self.withoutTrailingZeros.2 ≤ self.scale.toNat ∧
      Reduced self.withoutTrailingZeros.1 self.withoutTrailingZeros.2 ∧
      self.value = (self.withoutTrailingZeros.1 : ℚ) / 10 ^ self.withoutTrailingZeros.2 := by
  obtain ⟨smaller, reduced, same⟩ := shed_spec self.mantissa.toInt self.scale.toNat
  exact ⟨smaller, reduced, same.symm⟩

theorem withoutTrailingZeros_unique {self other : Decimal} (same : self.value = other.value) :
    self.withoutTrailingZeros = other.withoutTrailingZeros := by
  obtain ⟨-, reduced, value⟩ := withoutTrailingZeros_spec self
  obtain ⟨-, otherReduced, otherValue⟩ := withoutTrailingZeros_spec other
  rw [value, otherValue] at same
  obtain ⟨more, longer, multiple⟩ := reduced.divides same
  obtain ⟨otherMore, otherLonger, -⟩ := otherReduced.divides same.symm
  have none : more = 0 := by omega
  rw [none, pow_zero, Int.mul_one] at multiple
  exact Prod.ext multiple.symm (by omega)

theorem parse_toDecimalString {self : Decimal} (small : self.scale.toNat ≤ maxScale) :
    ∃ again, parse self.toDecimalString = .ok again ∧ again.scale.toNat ≤ maxScale ∧
      again.value = self.value := by
  obtain ⟨smaller, reduced, value⟩ := withoutTrailingZeros_spec self
  rw [toDecimalString_eq, value]
  generalize self.withoutTrailingZeros.1 = mantissa at reduced value ⊢
  generalize self.withoutTrailingZeros.2 = scale at smaller reduced value ⊢
  have short : scale ≤ maxScale := le_trans smaller small
  have fits : FitsI64 mantissa := (representable_iff reduced short).mp ⟨self, small, value⟩
  cases narrowed : toI64 mantissa with
  | none => exact absurd fits (toI64_eq_none_iff.mp narrowed)
  | some word =>
    rw [toI64_eq_some_iff] at narrowed
    have scaleEq : (UInt32.ofNat scale).toNat = scale :=
      UInt32.toNat_ofNat_of_lt' (lt_of_le_of_lt short (by decide))
    refine ⟨⟨word, UInt32.ofNat scale⟩, (spellingOf_valid mantissa scale).parse_ok ?_ ?_ ?_,
      ?_, ?_⟩
    · rw [spellingOf_fraction]
      exact short
    · rw [spellingOf_fraction, scaleEq]
    · rw [spellingOf_mantissa]
      exact narrowed.2
    · rw [scaleEq]
      exact short
    · rw [Decimal.value, scaleEq, narrowed.2]

/-- Reading the text of a decimal gives its value back; equal decimals have one text,
and no literal with an integer digit that denotes the value is shorter.  What is read
from any text is what the text denotes. -/
theorem toDecimalString_round_trip (self : Decimal) (small : self.scale.toNat ≤ maxScale) :
    (∃ again, parse self.toDecimalString = .ok again ∧ equals again self = .ok true) ∧
      (∀ other : Decimal, other.scale.toNat ≤ maxScale → equals other self = .ok true →
        other.toDecimalString = self.toDecimalString) ∧
      (∀ spelling : Spelling, spelling.Valid → spelling.integer ≠ [] →
        spelling.value = self.value → self.toDecimalString.length ≤ spelling.text.length) ∧
      ∀ text read, parse text = .ok read → Denotes text.toList read.value := by
  refine ⟨?_, ?_, ?_, ?_⟩
  · obtain ⟨again, read, short, same⟩ := parse_toDecimalString small
    refine ⟨again, read, ?_⟩
    rw [equals_eq short small, same, decide_eq_true rfl]
  · intro other otherSmall equal
    rw [equals_eq otherSmall small] at equal
    have same : other.value = self.value := of_decide_eq_true (Except.ok.inj equal)
    rw [toDecimalString_eq, toDecimalString_eq, withoutTrailingZeros_unique same]
  · intro spelling valid starts same
    obtain ⟨-, reduced, value⟩ := withoutTrailingZeros_spec self
    rw [toDecimalString_eq, String.length_ofList]
    exact spellingOf_shortest reduced valid starts (same.trans value)
  · intro text read ok
    exact (denotes_of_parse ok).1

/-- The text of minus five hundredths, at three digits. -/
theorem toDecimalString_round_trip_small :
    (∃ again, parse (toDecimalString ⟨-50, 3⟩) = .ok again ∧
        equals again ⟨-50, 3⟩ = .ok true) ∧
      (∀ other : Decimal, other.scale.toNat ≤ maxScale → equals other ⟨-50, 3⟩ = .ok true →
        other.toDecimalString = toDecimalString ⟨-50, 3⟩) ∧
      (∀ spelling : Spelling, spelling.Valid → spelling.integer ≠ [] →
        spelling.value = value ⟨-50, 3⟩ →
          (toDecimalString ⟨-50, 3⟩).length ≤ spelling.text.length) ∧
      ∀ text read, parse text = .ok read → Denotes text.toList read.value :=
  toDecimalString_round_trip ⟨-50, 3⟩ (by decide)

end Decimal

end KiraVm
