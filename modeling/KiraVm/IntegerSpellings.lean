import KiraVm.Operators

/-!
# Integer spellings

What a word says under a spelling, which words are held in a spelling, and how
results in 64 bits relate to the exact results of the spelling.
-/

namespace KiraVm

namespace IntWidth

/-- A word that denotes a value of the spelling. -/
def Word (width : IntWidth) : Type :=
  { word : Int64 // width.holds (width.valueOf word) = true }

def Word.value {width : IntWidth} (word : Word width) : Int :=
  width.valueOf word.val

/-- The word of a value that is in range. -/
def exactly (width : IntWidth) (value : Int) : Option Int64 :=
  if width.holds value then some (width.wordOf value) else none

/-- The value of the spelling that is congruent modulo two to the width. -/
def reduce (width : IntWidth) (value : Int) : Int :=
  if width.isSigned then Int.bmod value (2 ^ width.bits) else value % 2 ^ width.bits

variable {width : IntWidth} {value : Int} {word : Int64}

theorem wordOf_valueOf (width : IntWidth) (word : Int64) : width.wordOf (width.valueOf word) = word := by
  unfold wordOf
  cases width with
  | u64 =>
    apply Int64.toBitVec.inj
    simp [valueOf]
  | _ => simp [valueOf]

theorem valueOf_of_not_u64 (signed : width ≠ .u64) : width.valueOf word = word.toInt := by
  cases width <;> first | rfl | exact absurd rfl signed

theorem plain_holds_of_narrow (narrow : width.bits < 64) (held : width.holds value = true) :
    plain.holds value = true := by
  cases width <;> simp [holds, range, isSigned, bits] at narrow held ⊢ <;> omega

theorem toInt_ofInt_of_holds (held : plain.holds value = true) :
    (Int64.ofInt value).toInt = value := by
  simp [holds, range, isSigned, bits] at held
  exact Int64.toInt_ofInt_of_le (by omega) (by omega)

/-- The signed and the unsigned reading of a word. -/
theorem toInt_cases (word : Int64) :
    0 ≤ word.toInt ∧ (word.toUInt64.toNat : Int) = word.toInt ∨
      word.toInt < 0 ∧ 2 ^ 63 ≤ word.toUInt64.toNat := by
  have split := BitVec.toInt_eq_toNat_cond word.toBitVec
  have small := word.toBitVec.isLt
  change word.toInt = _ at split
  change 0 ≤ word.toInt ∧ (word.toBitVec.toNat : Int) = word.toInt ∨
    word.toInt < 0 ∧ 2 ^ 63 ≤ word.toBitVec.toNat
  split at split <;> omega

theorem toNat_eq_toInt (nonneg : 0 ≤ word.toInt) : (word.toUInt64.toNat : Int) = word.toInt := by
  rcases toInt_cases word with ⟨-, same⟩ | ⟨negative, -⟩
  · exact same
  · omega

theorem valueOf_unsigned (unsigned : width.isSigned = false)
    (held : width.holds (width.valueOf word) = true) :
    width.valueOf word = word.toUInt64.toNat := by
  cases width with
  | u64 => rfl
  | plain | i8 | i16 | i32 => cases unsigned
  | u8 | u16 | u32 =>
    simp only [holds, range, isSigned, bits, valueOf, Bool.false_eq_true, if_false,
      decide_eq_true_eq] at held ⊢
    exact (toNat_eq_toInt held.1).symm

theorem checkedInt_narrow (narrow : width.bits < 64) (value : Int) :
    ((checkedInt value).bind fun word => if width.holds word.toInt then some word else none) =
      width.exactly value := by
  unfold checkedInt exactly
  by_cases held : width.holds value = true
  · have wide := plain_holds_of_narrow narrow held
    rw [if_pos wide, if_pos held, Option.bind_some, toInt_ofInt_of_holds wide, if_pos held]
    rfl
  · rw [if_neg held]
    by_cases wide : plain.holds value = true
    · rw [if_pos wide, Option.bind_some, toInt_ofInt_of_holds wide, if_neg held]
    · rw [if_neg wide]
      rfl

/-! ## Reduction -/

theorem wrap_ofInt (width : IntWidth) (value : Int) :
    width.wrap (Int64.ofInt value) = width.wordOf (width.reduce value) := by
  unfold wrap wordOf reduce
  rw [Int64.toInt_ofInt]
  cases width with
  | plain =>
    apply Int64.toInt.inj
    simp [bits, isSigned]
  | u64 =>
    apply Int64.toInt.inj
    simp only [bits, isSigned, if_true, Bool.false_eq_true, if_false, Int64.toInt_ofInt]
    exact (Int.emod_bmod value Int64.size).symm
  | i8 | i16 | i32 =>
    simp only [bits, isSigned, if_true, Nat.reduceEqDiff, if_false]
    rw [Int.bmod_bmod_of_dvd (by decide)]
  | u8 | u16 | u32 =>
    simp only [bits, isSigned, Nat.reduceEqDiff, if_false, Bool.false_eq_true]
    congr 1
    rw [← Int.emod_emod_of_dvd (value.bmod Int64.size) (by decide : (_ : Int) ∣ (Int64.size : Nat)),
      Int.bmod_emod, Int.emod_emod_of_dvd value (by decide)]

theorem wrap_of_wide (wide : ¬ width.bits < 64) : width.wrap word = word := by
  cases width <;> simp [bits] at wide <;> rfl

/-! ## Words of exact results -/

theorem wordOf_add (lhs rhs : Int64) :
    lhs + rhs = width.wordOf (width.valueOf lhs + width.valueOf rhs) := by
  have left := wordOf_valueOf width lhs
  have right := wordOf_valueOf width rhs
  unfold wordOf at left right ⊢
  rw [Int64.ofInt_add, left, right]

theorem wordOf_sub (lhs rhs : Int64) :
    lhs - rhs = width.wordOf (width.valueOf lhs - width.valueOf rhs) := by
  have left := wordOf_valueOf width lhs
  have right := wordOf_valueOf width rhs
  unfold wordOf at left right ⊢
  rw [Int64.ofInt_sub, left, right]

theorem wordOf_mul (lhs rhs : Int64) :
    lhs * rhs = width.wordOf (width.valueOf lhs * width.valueOf rhs) := by
  have left := wordOf_valueOf width lhs
  have right := wordOf_valueOf width rhs
  unfold wordOf at left right ⊢
  rw [Int64.ofInt_mul, left, right]

theorem wordOf_toNat (word : UInt64) (width : IntWidth) :
    width.wordOf (word.toNat : Int) = word.toInt64 := by
  have same := wordOf_valueOf u64 word.toInt64
  simpa [valueOf, wordOf] using same

theorem valueOf_eq_zero_iff : width.valueOf word = 0 ↔ word = 0 := by
  constructor
  · intro zero
    have same := wordOf_valueOf width word
    rw [zero] at same
    exact same.symm
  · rintro rfl
    cases width <;> rfl

theorem holds_toward_zero {result : Int} (held : width.holds value = true)
    (positive : 0 ≤ value → 0 ≤ result ∧ result ≤ value)
    (negative : value < 0 → value ≤ result ∧ result ≤ 0) : width.holds result = true := by
  rcases Int.lt_or_le value 0 with below | above
  · have bounds := negative below
    cases width <;> simp [holds, range, isSigned, bits] at held ⊢ <;> omega
  · have bounds := positive above
    cases width <;> simp [holds, range, isSigned, bits] at held ⊢ <;> omega

/-- A remainder lies between zero and the dividend. -/
theorem tmod_holds (held : width.holds value = true) (divisor : Int) :
    width.holds (value.tmod divisor) = true := by
  have size : (value.tmod divisor).natAbs ≤ value.natAbs := by
    rw [Int.natAbs_tmod]
    exact Nat.mod_le _ _
  apply holds_toward_zero held
  · intro nonneg
    have sign := Int.tmod_nonneg divisor nonneg
    omega
  · intro negative
    have sign := Int.tmod_nonneg divisor (by omega : 0 ≤ -value)
    rw [Int.neg_tmod] at sign
    omega

theorem tdiv_holds (held : width.holds value = true) {divisor : Int} (nonneg : 0 ≤ value)
    (positive : 0 ≤ divisor) : width.holds (value.tdiv divisor) = true := by
  apply holds_toward_zero held
  · intro _
    exact ⟨Int.tdiv_nonneg nonneg positive, Int.tdiv_le_self divisor nonneg⟩
  · intro negative
    omega

theorem shiftRight_holds (held : width.holds value = true) (count : Nat) :
    width.holds (value / 2 ^ count) = true := by
  have positive : (0 : Int) < 2 ^ count := Int.pow_pos (by decide)
  apply holds_toward_zero held
  · intro nonneg
    exact ⟨Int.ediv_nonneg nonneg (by omega), Int.ediv_le_self _ nonneg⟩
  · intro negative
    have quotient := Int.ediv_neg_of_neg_of_pos negative positive
    have further : value * 2 ^ count ≤ value * 1 :=
      Int.mul_le_mul_of_nonpos_left (by omega) (by omega)
    rw [Int.mul_one] at further
    exact ⟨(Int.le_ediv_iff_mul_le positive).mpr further, by omega⟩

/-! ## Shifts -/

/-- The count of a shift, read from its word. -/
theorem toBitVec_smod {count : Int64} (low : 0 ≤ count.toInt) (high : count.toInt < 64) :
    (count.toBitVec.smod 64).toNat = count.toInt.toNat := by
  have signed : (count.toBitVec.smod 64).toInt = count.toInt := by
    rw [BitVec.toInt_smod]
    change count.toInt.fmod 64 = count.toInt
    rw [Int.fmod_eq_emod_of_nonneg _ (by decide)]
    exact Int.emod_eq_of_lt low high
  have split := BitVec.toInt_eq_toNat_cond (count.toBitVec.smod 64)
  have small := (count.toBitVec.smod 64).isLt
  rw [signed] at split
  split at split <;> omega

theorem wordOf_shiftLeft {count : Int64} (low : 0 ≤ count.toInt) (high : count.toInt < 64)
    (lhs : Int64) :
    lhs <<< count = width.wordOf (width.valueOf lhs * 2 ^ count.toInt.toNat) := by
  have left := wordOf_valueOf width lhs
  unfold wordOf at left ⊢
  rw [Int64.ofInt_mul, left]
  apply Int64.toBitVec.inj
  change lhs.toBitVec <<< (count.toBitVec.smod 64) =
    lhs.toBitVec * BitVec.ofInt 64 (2 ^ count.toInt.toNat)
  rw [BitVec.shiftLeft_eq', toBitVec_smod low high, BitVec.shiftLeft_eq_mul_twoPow]
  congr 1
  apply BitVec.eq_of_toNat_eq
  rw [BitVec.toNat_twoPow, BitVec.toNat_ofInt]
  norm_cast

theorem toInt_shiftRight {count : Int64} (low : 0 ≤ count.toInt) (high : count.toInt < 64)
    (lhs : Int64) : (lhs >>> count).toInt = lhs.toInt / 2 ^ count.toInt.toNat := by
  change (lhs.toBitVec.sshiftRight' (count.toBitVec.smod 64)).toInt = _
  rw [BitVec.toInt_sshiftRight', toBitVec_smod low high, Int.shiftRight_eq_div_pow]
  norm_cast

end IntWidth

end KiraVm
