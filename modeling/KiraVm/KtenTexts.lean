import KiraVm.KtenRoundTrip
import KiraVm.JsonMantissa

/-!
# Texts that a Kten document carries

Rebuilding a text from bytes always answers.  Reading a text as a `Float` stops the
program exactly when the text dips: a byte below the digits stands where the
mantissa is still taken.
-/

namespace KiraVm

namespace Foundation

/-! ## Rebuilding -/

theorem ktenBytesToStringFrom_total (bytes : List UInt8) (out : String) (index : Nat) :
    ∃ text, ktenBytesToStringFrom bytes out index = .ok text := by
  induction left : bytes.length - index using Nat.strong_induction_on generalizing out index with
  | _ size ih =>
    unfold ktenBytesToStringFrom
    by_cases inside : index < bytes.length
    · have onward (later : Nat) (out : String) (after : index < later) :
          ∃ text, ktenBytesToStringFrom bytes out later = .ok text :=
        ih (bytes.length - later) (by omega) out later rfl
      rw [if_pos inside, byteAt_inside inside, ok_bind]
      split
      · exact onward _ _ (by omega)
      split
      · split
        · exact ⟨out, rfl⟩
        · rename_i within
          rw [byteAt_inside (by omega), ok_bind, byteAt_inside (by omega), ok_bind,
            byteAt_inside (Nat.not_le.mp within), ok_bind]
          exact onward _ _ (by omega)
      split
      · split
        · exact ⟨out, rfl⟩
        · rename_i within
          rw [byteAt_inside (by omega), ok_bind, byteAt_inside (Nat.not_le.mp within), ok_bind]
          exact onward _ _ (by omega)
      · split
        · exact ⟨out, rfl⟩
        · rename_i within
          rw [byteAt_inside (Nat.not_le.mp within), ok_bind]
          exact onward _ _ (by omega)
    · rw [if_neg inside]
      exact ⟨out, rfl⟩

theorem ktenBytesToString_total (bytes : List UInt8) :
    ∃ text, ktenBytesToString bytes = .ok text :=
  ktenBytesToStringFrom_total bytes "" 0

theorem fractionDigitsFrom_total (bytes : List UInt8) (seenDot : Bool) (digits index : Nat) :
    ∃ count, fractionDigitsFrom bytes seenDot digits index = .ok count := by
  induction left : bytes.length - index using Nat.strong_induction_on
    generalizing seenDot digits index with
  | _ size ih =>
    unfold fractionDigitsFrom
    by_cases inside : index < bytes.length
    · rw [if_pos inside, byteAt_inside inside, ok_bind]
      split
      · exact ⟨digits, rfl⟩
      · exact ih (bytes.length - (index + 1)) (by omega) _ _ _ rfl
    · rw [if_neg inside]
      exact ⟨digits, rfl⟩

/-! ## Numbers -/

/-- The bytes of a text behind its sign. -/
def unsigned : List UInt8 → List UInt8
  | 45 :: rest => rest
  | text => text

/-- A text that stops the program when it is read as a `Float`. -/
def IsHostileNumber (text : List UInt8) : Prop :=
  Dips 0 (unsigned text)

theorem unsigned_eq_drop (text : List UInt8) :
    unsigned text = text.drop (if text.head? = some 45 then 1 else 0) := by
  cases text with
  | nil => rfl
  | cons byte rest =>
    by_cases sign : byte = 45
    · rw [sign]
      rfl
    · have notSign : ¬ (byte :: rest).head? = some 45 := by
        simpa using sign
      rw [if_neg notSign]
      unfold unsigned
      split
      · rename_i same
        injection same with first
        exact absurd first sign
      · rfl

theorem ktenParseFloat_spec (text : String) :
    IsHostileNumber (textBytes text) ∧ ktenParseFloat text = .error .integerOverflow ∨
      ¬ IsHostileNumber (textBytes text) ∧ ∃ number, ktenParseFloat text = .ok number := by
  rcases fractionDigitsFrom_total (textBytes text) false 0 0 with ⟨digits, counted⟩
  have spec := jsonMantissaFrom_spec (textBytes text) (Int.le_refl 0) (by decide) 0
    (if (textBytes text).head? = some 45 then 1 else 0)
  rw [← unsigned_eq_drop] at spec
  simp only [ktenParseFloat, counted, ok_bind, jsonDecimalToFloat, decide_eq_true_eq]
  rcases spec with ⟨dips, ran⟩ | ⟨level, mantissa, dropped, ran, positive, -⟩
  · rw [ran]
    exact Or.inl ⟨dips, rfl⟩
  · rcases jsonScaleWhole_total (max (-scaleBound) (min scaleBound (0 - digits + dropped))).toNat
      positive with ⟨⟨whole, rising⟩, scaled⟩
    rw [ran, ok_bind]
    simp only [scaled]
    exact Or.inr ⟨level, _, rfl⟩

end Foundation

end KiraVm
