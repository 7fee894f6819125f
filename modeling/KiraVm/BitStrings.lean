import Mathlib.Data.Nat.Bitwise
import Mathlib.Tactic.Ring
import Mathlib.Tactic.Linarith

/-!
# Bit strings

Numbers spelled bit by bit, from the low end or from the high end.  A number that
is spelled from the low end can be cut and joined at any width.
-/

namespace BitStrings

def lowFirst : Nat → Nat → List Bool
  | 0, _ => []
  | width + 1, value => value.testBit 0 :: lowFirst width (value / 2)

def highFirst : Nat → Nat → List Bool
  | 0, _ => []
  | width + 1, value => value.testBit width :: highFirst width value

def bitsOf (bytes : List UInt8) : List Bool :=
  bytes.flatMap fun byte => lowFirst 8 byte.toNat

@[simp] theorem lowFirst_zero (value : Nat) : lowFirst 0 value = [] := rfl

@[simp] theorem length_lowFirst (width value : Nat) : (lowFirst width value).length = width := by
  induction width generalizing value with
  | zero => rfl
  | succ width ih => rw [lowFirst, List.length_cons, ih]

@[simp] theorem length_highFirst (width value : Nat) :
    (highFirst width value).length = width := by
  induction width with
  | zero => rfl
  | succ width ih => rw [highFirst, List.length_cons, ih]

@[simp] theorem bitsOf_nil : bitsOf [] = [] := rfl

@[simp] theorem bitsOf_cons (byte : UInt8) (bytes : List UInt8) :
    bitsOf (byte :: bytes) = lowFirst 8 byte.toNat ++ bitsOf bytes :=
  rfl

@[simp] theorem bitsOf_append (first second : List UInt8) :
    bitsOf (first ++ second) = bitsOf first ++ bitsOf second := by
  unfold bitsOf
  rw [List.flatMap_append]

@[simp] theorem length_bitsOf (bytes : List UInt8) : (bitsOf bytes).length = 8 * bytes.length := by
  induction bytes with
  | nil => rfl
  | cons byte bytes ih =>
    rw [bitsOf_cons, List.length_append, length_lowFirst, ih, List.length_cons]
    omega

/-- A spelled number, cut in two. -/
theorem lowFirst_add (width more value : Nat) :
    lowFirst (width + more) value = lowFirst width value ++ lowFirst more (value >>> width) := by
  induction width generalizing value with
  | zero => rw [Nat.zero_add, lowFirst_zero, List.nil_append, Nat.shiftRight_zero]
  | succ width ih =>
    rw [Nat.succ_add, lowFirst, lowFirst, ih, List.cons_append, Nat.add_comm width 1,
      Nat.shiftRight_add, Nat.shiftRight_one]

theorem lowFirst_mod (width value : Nat) :
    lowFirst width (value % 2 ^ width) = lowFirst width value := by
  induction width generalizing value with
  | zero => rfl
  | succ width ih =>
    have halved : value % 2 ^ (width + 1) / 2 = value / 2 % 2 ^ width := by
      rw [Nat.pow_succ, Nat.mul_comm, Nat.mod_mul_right_div_self]
    rw [lowFirst, lowFirst, halved, ih, Nat.testBit_mod_two_pow]
    simp

/-- Two numbers spelled one behind the other, joined. -/
theorem lowFirst_join {width more low high : Nat} (small : low < 2 ^ width) :
    lowFirst (width + more) (low ||| high <<< width) =
      lowFirst width low ++ lowFirst more high := by
  have lower : (low ||| high <<< width) % 2 ^ width = low := by
    rw [Nat.or_mod_two_pow, Nat.shiftLeft_eq, Nat.mul_mod_left, Nat.or_zero,
      Nat.mod_eq_of_lt small]
  have upper : (low ||| high <<< width) >>> width = high := by
    rw [Nat.shiftRight_or_distrib, Nat.shiftLeft_shiftRight, Nat.shiftRight_eq_div_pow,
      Nat.div_eq_of_lt small, Nat.zero_or]
  rw [lowFirst_add, upper, ← lowFirst_mod width (low ||| high <<< width), lower]

/-- A number that is small enough is spelled in one way. -/
theorem lowFirst_injective {width first second : Nat} (firstSmall : first < 2 ^ width)
    (secondSmall : second < 2 ^ width) (same : lowFirst width first = lowFirst width second) :
    first = second := by
  induction width generalizing first second with
  | zero => omega
  | succ width ih =>
    rw [lowFirst, lowFirst, List.cons.injEq] at same
    have halves : first / 2 = second / 2 := by
      apply ih _ _ same.2
      · omega
      · omega
    have lowest := same.1
    rw [Nat.testBit_zero, Nat.testBit_zero, decide_eq_decide] at lowest
    omega

theorem shiftRight_succ_two (value width : Nat) :
    value >>> width = 2 * (value >>> (width + 1)) + (value.testBit width).toNat := by
  have bit := Nat.toNat_testBit value width
  rw [Nat.shiftRight_eq_div_pow, Nat.shiftRight_eq_div_pow, Nat.pow_succ, ← Nat.div_div_eq_div_mul,
    bit]
  omega

/-- What starts with the bits of bytes starts with the bytes. -/
theorem bitsOf_front {whole front : List UInt8} {rest : List Bool}
    (same : bitsOf whole = bitsOf front ++ rest) :
    ∃ back, whole = front ++ back ∧ rest = bitsOf back := by
  induction front generalizing whole with
  | nil => exact ⟨whole, rfl, same.symm⟩
  | cons byte front ih =>
    cases whole with
    | nil =>
      have lengths := congrArg List.length same
      rw [bitsOf_cons, List.length_append, List.length_append, length_lowFirst] at lengths
      rw [bitsOf_nil, List.length_nil] at lengths
      omega
    | cons first whole =>
      rw [bitsOf_cons, bitsOf_cons, List.append_assoc] at same
      have parts := List.append_inj same (by rw [length_lowFirst, length_lowFirst])
      have equal := lowFirst_injective (UInt8.toNat_lt first) (UInt8.toNat_lt byte) parts.1
      rcases ih parts.2 with ⟨back, rfl, ends⟩
      exact ⟨back, by rw [UInt8.toNat_inj.mp equal, List.cons_append], ends⟩

/-- A number of two bytes. -/
theorem bitsOf_pair {value : Nat} :
    bitsOf [UInt8.ofNat value, UInt8.ofNat (value >>> 8)] = lowFirst 16 value := by
  rw [bitsOf_cons, bitsOf_cons, bitsOf_nil, List.append_nil, lowFirst_add 8 8 value,
    UInt8.toNat_ofNat', UInt8.toNat_ofNat', lowFirst_mod 8, lowFirst_mod 8]

theorem joined_pair {value : Nat} (small : value < 2 ^ 16) :
    (UInt8.ofNat value).toNat ||| (UInt8.ofNat (value >>> 8)).toNat <<< 8 = value := by
  have low := UInt8.toNat_lt (UInt8.ofNat value)
  have high := UInt8.toNat_lt (UInt8.ofNat (value >>> 8))
  have bounded : (UInt8.ofNat value).toNat ||| (UInt8.ofNat (value >>> 8)).toNat <<< 8 < 2 ^ 16 := by
    apply Nat.or_lt_two_pow
    · omega
    · rw [Nat.shiftLeft_eq]
      omega
  apply lowFirst_injective bounded small
  have pair : bitsOf [UInt8.ofNat value, UInt8.ofNat (value >>> 8)] = lowFirst 16 value :=
    bitsOf_pair
  rw [bitsOf_cons, bitsOf_cons, bitsOf_nil, List.append_nil] at pair
  exact (@lowFirst_join 8 8 _ _ low).trans pair

/-- Every bit turned over. -/
theorem lowFirst_complement (width value : Nat) :
    (lowFirst width value).map not = lowFirst width (value ^^^ (2 ^ width - 1)) := by
  induction width generalizing value with
  | zero => rfl
  | succ width ih =>
    have half : (2 ^ (width + 1) - 1) / 2 = 2 ^ width - 1 := by
      rw [Nat.pow_succ]
      omega
    have lowest : (2 ^ (width + 1) - 1).testBit 0 = true := by
      rw [Nat.testBit_two_pow_sub_one]
      simp
    rw [lowFirst, lowFirst, List.map_cons, ih, Nat.testBit_xor, lowest, Nat.xor_div_two, half,
      Bool.xor_true]

end BitStrings
