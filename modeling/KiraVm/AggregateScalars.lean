import KiraVm.AggregateContract
import KiraVm.ValueRebuilding

/-!
# Scalars in C storage

A scalar in range of its C type is written as the low bytes of its word, and those bytes
read back as the scalar.
-/

namespace KiraVm

namespace Aggregates

def scalarValue : Content → Value
  | .int value => .int value
  | .float bits => .float bits
  | .bool value => .bool value
  | .word word => .rawPtr word
  | _ => .void

def scalarContent : Value → Content
  | .int value => .int value
  | .float bits => .float bits
  | .bool value => .bool value
  | .rawPtr word => .word word
  | _ => .void

/-- The integers of a C type: 64 bits hold any. -/
def IntFits (ty : ForeignType) (value : Int64) : Prop :=
  match ty with
  | .i8 => -2 ^ 7 ≤ value.toInt ∧ value.toInt < 2 ^ 7
  | .u8 => 0 ≤ value.toInt ∧ value.toInt < 2 ^ 8
  | .i16 => -2 ^ 15 ≤ value.toInt ∧ value.toInt < 2 ^ 15
  | .u16 => 0 ≤ value.toInt ∧ value.toInt < 2 ^ 16
  | .i32 => -2 ^ 31 ≤ value.toInt ∧ value.toInt < 2 ^ 31
  | .u32 => 0 ≤ value.toInt ∧ value.toInt < 2 ^ 32
  | .i64 | .u64 => True
  | _ => False

def ScalarFits (floats : Floats) (width : ForeignPointerWidth) : ForeignType → Content → Prop
  | ty, .int value => IntFits ty value
  | .f32, .float bits => floats.widen (floats.narrow bits) = bits
  | .f64, .float _ => True
  | .bool, .bool _ => True
  | .rawPtr, .word word | .cString, .word word => word.toNat < 256 ^ width.bytes
  | _, _ => False

def encodeContent (floats : Floats) (width : ForeignPointerWidth) (ty : ForeignType)
    (content : Content) : Option (List UInt8) :=
  encodeScalar floats width ty (scalarValue content)

/-! ## Words and their low bytes -/

theorem leBytes_take {width more : Nat} (shorter : width ≤ more) (number : Nat) :
    (ByteReader.leBytes more number).take width = ByteReader.leBytes width number := by
  induction width generalizing more number with
  | zero => rfl
  | succ width ih =>
    cases more with
    | zero => omega
    | succ more =>
      rw [ByteReader.leBytes, ByteReader.leBytes, List.take_succ_cons, ih (by omega)]

theorem leValue_leBytes_mod (width number : Nat) :
    ByteReader.leValue (ByteReader.leBytes width number) = number % 256 ^ width := by
  induction width generalizing number with
  | zero => simp [ByteReader.leBytes, ByteReader.leValue, Nat.mod_one]
  | succ width ih =>
    have power : 256 ^ (width + 1) = 256 * 256 ^ width := by ring
    rw [ByteReader.leBytes, ByteReader.leValue, ih, UInt8.toNat_ofNat', power, Nat.mod_mul]

variable {size : Nat} {value : Int64} {word : UInt64} {ty : ForeignType}

theorem low_bytes (small : size ≤ 8) (word : UInt64) :
    (ByteReader.u64Bytes word).take size = ByteReader.leBytes size word.toNat :=
  leBytes_take small word.toNat

theorem scalarSize_le (width : ForeignPointerWidth) (ty : ForeignType) :
    scalarSize width ty ≤ 8 := by
  cases width <;> cases ty <;> decide

theorem toNat_toUInt64 (value : Int64) : (value.toUInt64.toNat : Int) = value.toInt % 2 ^ 64 := by
  have bound := value.toBitVec.isLt
  change (value.toBitVec.toNat : Int) = _
  rw [← Int64.toInt_toBitVec, BitVec.toInt_eq_toNat_bmod, Int.bmod_def]
  split <;> omega

theorem signExtend_low {bits : Nat} (word_eq : (word.toNat : Int) = value.toInt % 2 ^ 64)
    (sized : 256 ^ size = 2 ^ bits) (narrow : bits = 8 ∨ bits = 16 ∨ bits = 32)
    (low : -2 ^ (bits - 1) ≤ value.toInt) (high : value.toInt < 2 ^ (bits - 1)) :
    signExtend bits (UInt64.ofNat (word.toNat % 256 ^ size)) = value := by
  have bound : word.toNat % 256 ^ size < 2 ^ 64 := by
    rw [sized]
    rcases narrow with rfl | rfl | rfl <;> omega
  have wordNat : (UInt64.ofNat (word.toNat % 256 ^ size)).toNat = word.toNat % 256 ^ size :=
    UInt64.toNat_ofNat_of_lt' bound
  unfold signExtend
  rw [wordNat, sized]
  have back : Int.bmod (((word.toNat % 2 ^ bits : Nat) : Int) % 2 ^ bits) (2 ^ bits) =
      value.toInt := by
    rw [Int.bmod_def]
    rcases narrow with rfl | rfl | rfl <;> split <;> omega
  rw [← Int64.ofInt_toInt value, ← back]

theorem cutWord_low (sized : 2 ^ (8 * scalarSize .host ty) = 256 ^ size)
    (inside : word.toNat < 256 ^ size) :
    cutWord ty (UInt64.ofNat (word.toNat % 256 ^ size)) = word := by
  rw [Nat.mod_eq_of_lt inside, UInt64.ofNat_toNat, cutWord, sized, Nat.mod_eq_of_lt inside,
    UInt64.ofNat_toNat]

theorem word_lt {bound : Nat} (low : 0 ≤ value.toInt) (high : value.toInt < bound) :
    value.toUInt64.toNat < bound := by
  have word := toNat_toUInt64 value
  have small := Int64.toInt_lt value
  omega

/-! ## Reading back what was written -/

/-- A scalar's bytes, as many as its C type has, that read back as the scalar. -/
structure Coded (floats : Floats) (width : ForeignPointerWidth) (ty : ForeignType)
    (content : Content) (bytes : List UInt8) : Prop where
  encoded : encodeContent floats width ty content = some bytes
  sized : bytes.length = scalarSize width ty
  decoded : decodeScalar floats width ty bytes = some (scalarValue content)

theorem word_mod (word : UInt64) : UInt64.ofNat (word.toNat % 256 ^ 8) = word := by
  have small : word.toNat < 256 ^ 8 := word.toNat_lt
  rw [Nat.mod_eq_of_lt small, UInt64.ofNat_toNat]

variable {floats : Floats} {width : ForeignPointerWidth}

theorem decode_int (fits : IntFits ty value) :
    decodeScalar floats width ty
        (ByteReader.leBytes (scalarSize width ty) value.toUInt64.toNat) =
      some (.int value) := by
  have word := toNat_toUInt64 value
  cases ty with
  | i8 =>
    simp only [decodeScalar, ByteReader.leBytes_length, leValue_leBytes_mod, foreignScalarValue]
    rw [signExtend_low word rfl (Or.inl rfl) fits.1 fits.2]
    rfl
  | i16 =>
    simp only [decodeScalar, ByteReader.leBytes_length, leValue_leBytes_mod, foreignScalarValue]
    rw [signExtend_low word rfl (Or.inr (Or.inl rfl)) fits.1 fits.2]
    rfl
  | i32 =>
    simp only [decodeScalar, ByteReader.leBytes_length, leValue_leBytes_mod, foreignScalarValue]
    rw [signExtend_low word rfl (Or.inr (Or.inr rfl)) fits.1 fits.2]
    rfl
  | u8 =>
    simp only [decodeScalar, ByteReader.leBytes_length, leValue_leBytes_mod, foreignScalarValue]
    rw [cutWord_low rfl (word_lt fits.1 fits.2)]
    rfl
  | u16 =>
    simp only [decodeScalar, ByteReader.leBytes_length, leValue_leBytes_mod, foreignScalarValue]
    rw [cutWord_low rfl (word_lt fits.1 fits.2)]
    rfl
  | u32 =>
    simp only [decodeScalar, ByteReader.leBytes_length, leValue_leBytes_mod, foreignScalarValue]
    rw [cutWord_low rfl (word_lt fits.1 fits.2)]
    rfl
  | i64 =>
    simp only [decodeScalar, ByteReader.leBytes_length, leValue_leBytes_mod, foreignScalarValue]
    rw [show scalarSize width .i64 = 8 from rfl, word_mod]
    rfl
  | u64 =>
    simp only [decodeScalar, ByteReader.leBytes_length, leValue_leBytes_mod, foreignScalarValue]
    rw [show scalarSize width .u64 = 8 from rfl, word_mod]
    rfl
  | _ => exact fits.elim

theorem encode_int (fits : IntFits ty value) :
    encodeScalar floats width ty (.int value) =
      some (ByteReader.leBytes (scalarSize width ty) value.toUInt64.toNat) := by
  have low := low_bytes (scalarSize_le width ty) value.toUInt64
  cases ty with
  | i8 | i16 | i32 | i64 | u8 | u16 | u32 | u64 => exact congrArg some low
  | _ => exact fits.elim

/-- A pointer is as wide as the target's. -/
theorem decode_word (isPointer : ty = .rawPtr ∨ ty = .cString)
    (fits : word.toNat < 256 ^ width.bytes) :
    decodeScalar floats width ty (ByteReader.leBytes (scalarSize width ty) word.toNat) =
      some (.rawPtr word) := by
  have size : scalarSize width ty = width.bytes := by
    rcases isPointer with rfl | rfl <;> rfl
  have wide : width.bytes = 4 ∨ width.bytes = 8 := by
    cases width with
    | bits32 => exact Or.inl rfl
    | bits64 => exact Or.inr rfl
  have back : UInt64.ofNat (ByteReader.leValue (ByteReader.leBytes (scalarSize width ty)
      word.toNat)) = word := by
    rw [leValue_leBytes_mod, size, Nat.mod_eq_of_lt fits, UInt64.ofNat_toNat]
  rcases isPointer with rfl | rfl
  · simp only [decodeScalar, ByteReader.leBytes_length, back]
    rw [size, if_pos wide]
  · simp only [decodeScalar, ByteReader.leBytes_length, back]
    rw [size, if_pos wide]

theorem encode_word (isPointer : ty = .rawPtr ∨ ty = .cString) :
    encodeScalar floats width ty (.rawPtr word) =
      some (ByteReader.leBytes (scalarSize width ty) word.toNat) := by
  have low := low_bytes (scalarSize_le width ty) word
  rcases isPointer with rfl | rfl <;> exact congrArg some low

theorem coded_float {bits : UInt64} (kept : floats.widen (floats.narrow bits) = bits) :
    Coded floats width .f32 (.float bits)
      (ByteReader.leBytes 4 (floats.narrow bits).toUInt64.toNat) := by
  have low := low_bytes (scalarSize_le width .f32) (floats.narrow bits).toUInt64
  constructor
  · exact congrArg some low
  · exact ByteReader.leBytes_length _ _
  · have small : (floats.narrow bits).toUInt64.toNat < 256 ^ 4 := (floats.narrow bits).toNat_lt
    simp only [decodeScalar, ByteReader.leBytes_length, leValue_leBytes_mod, foreignScalarValue,
      scalarValue]
    rw [Nat.mod_eq_of_lt small, UInt64.ofNat_toNat]
    change some (Value.float (floats.widen (floats.narrow bits).toUInt64.toUInt32)) = _
    rw [UInt32.toUInt32_toUInt64, kept]

theorem coded_double (bits : UInt64) :
    Coded floats width .f64 (.float bits) (ByteReader.leBytes 8 bits.toNat) := by
  constructor
  · exact congrArg some (low_bytes (scalarSize_le width .f64) bits)
  · exact ByteReader.leBytes_length _ _
  · simp only [decodeScalar, ByteReader.leBytes_length, leValue_leBytes_mod, foreignScalarValue,
      scalarValue]
    rw [word_mod]
    rfl

theorem coded_bool (value : Bool) :
    Coded floats width .bool (.bool value) [if value then 1 else 0] := by
  cases value <;> exact ⟨rfl, rfl, rfl⟩

/-- Every scalar in range is written, and reads back as itself. -/
theorem coded_of_fits {content : Content} (fits : ScalarFits floats width ty content) :
    ∃ bytes, Coded floats width ty content bytes := by
  cases content with
  | int value =>
    have inRange : IntFits ty value := by
      cases ty <;> exact fits
    exact ⟨_, encode_int inRange, ByteReader.leBytes_length _ _, decode_int inRange⟩
  | float bits =>
    cases ty with
    | f32 => exact ⟨_, coded_float fits⟩
    | f64 => exact ⟨_, coded_double bits⟩
    | _ => exact fits.elim
  | bool value =>
    cases ty with
    | bool => exact ⟨_, coded_bool value⟩
    | _ => exact fits.elim
  | word word =>
    cases ty with
    | rawPtr =>
      exact ⟨_, encode_word (Or.inl rfl), ByteReader.leBytes_length _ _,
        decode_word (Or.inl rfl) fits⟩
    | cString =>
      exact ⟨_, encode_word (Or.inr rfl), ByteReader.leBytes_length _ _,
        decode_word (Or.inr rfl) fits⟩
    | _ => exact fits.elim
  | _ => cases ty <;> exact fits.elim

theorem scalarContent_scalarValue {content : Content} (fits : ScalarFits floats width ty content) :
    scalarContent (scalarValue content) = content := by
  cases content with
  | int value => rfl
  | float bits => rfl
  | bool value => rfl
  | word word => rfl
  | _ => cases ty <;> exact fits.elim

theorem reads_scalar {heap : Heap} {value : Value}
    (isScalar : value = scalarValue (scalarContent value)) (notVoid : value ≠ .void) :
    heap.Reads value (scalarContent value) := by
  use 1
  cases value with
  | int value => exact ⟨⟨trivial, by simp [Heap.parts]⟩, rfl, rfl⟩
  | float bits => exact ⟨⟨trivial, by simp [Heap.parts]⟩, rfl, rfl⟩
  | bool value => exact ⟨⟨trivial, by simp [Heap.parts]⟩, rfl, rfl⟩
  | rawPtr word => exact ⟨⟨trivial, by simp [Heap.parts]⟩, rfl, rfl⟩
  | void => exact absurd rfl notVoid
  | _ => cases isScalar

theorem decodes {bytes : List UInt8} (notVoid : ty ≠ .void)
    (sized : bytes.length = scalarSize width ty) :
    ∃ value, decodeScalar floats width ty bytes = some value ∧
      value = scalarValue (scalarContent value) ∧ value ≠ .void := by
  cases ty with
  | void => exact absurd rfl notVoid
  | bool =>
    cases bytes with
    | nil => cases sized
    | cons byte rest => exact ⟨_, rfl, rfl, by simp⟩
  | rawPtr =>
    have wide : bytes.length = 4 ∨ bytes.length = 8 := by
      cases width with
      | bits32 => exact Or.inl sized
      | bits64 => exact Or.inr sized
    exact ⟨_, if_pos wide, rfl, by simp⟩
  | cString =>
    have wide : bytes.length = 4 ∨ bytes.length = 8 := by
      cases width with
      | bits32 => exact Or.inl sized
      | bits64 => exact Or.inr sized
    exact ⟨_, if_pos wide, rfl, by simp⟩
  | _ => exact ⟨_, if_pos sized, rfl, by simp [foreignScalarValue]⟩

end Aggregates

end KiraVm
