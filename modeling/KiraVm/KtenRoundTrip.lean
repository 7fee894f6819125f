import Mathlib.Data.Nat.Bitwise
import KiraVm.KtenModel

/-!
# Kten values come back

What the reader takes from the bytes that the writer put.  An operation takes a
list of bytes when it consumes exactly these bytes, whatever follows them.
-/

namespace KiraVm

namespace Foundation

open StateLogic

/-! ## Taking bytes -/

/-- The reader has not failed and the bytes from its cursor on are these. -/
def Stands (reader : KtenReader) (rest : List UInt8) : Prop :=
  reader.failed = false ∧ reader.bytes.drop reader.cursor = rest

def Takes {α : Type} (operation : OnReader α) (consumed : List UInt8) (value : α) : Prop :=
  ∀ (reader : KtenReader) (rest : List UInt8), Stands reader (consumed ++ rest) →
    ∃ work, operation reader =
      .ok value { reader with cursor := reader.cursor + consumed.length, work := work }

section Rules

variable {α β : Type} {operation : OnReader α} {next : α → OnReader β}
  {first second : List UInt8} {value : α} {answer : β}

theorem Takes.pure (value : α) : Takes (Pure.pure value) [] value :=
  fun reader _ _ => ⟨reader.work, rfl⟩

theorem Stands.advance {reader : KtenReader} {consumed rest : List UInt8}
    (stands : Stands reader (consumed ++ rest)) (work : Nat) :
    Stands { reader with cursor := reader.cursor + consumed.length, work := work } rest := by
  refine ⟨stands.1, ?_⟩
  change reader.bytes.drop (reader.cursor + consumed.length) = rest
  rw [← List.drop_drop, stands.2, List.drop_left]

theorem Takes.bind (takes : Takes operation first value) (rest : Takes (next value) second answer) :
    Takes (operation >>= next) (first ++ second) answer := by
  intro reader suffix stands
  rw [List.append_assoc] at stands
  rcases takes reader _ stands with ⟨work, ran⟩
  rcases rest _ suffix (stands.advance work) with ⟨later, ranRest⟩
  refine ⟨later, ?_⟩
  rw [bind_run_ok ran, ranRest]
  simp [Nat.add_assoc]

/-- Nothing is consumed after the operation. -/
theorem Takes.andPure {result : α → β} (takes : Takes operation first value) :
    Takes (operation >>= fun answer => Pure.pure (result answer)) first (result value) := by
  have both : Takes (operation >>= fun answer => Pure.pure (result answer)) (first ++ [])
      (result value) := takes.bind (Takes.pure _)
  rw [List.append_nil] at both
  exact both

theorem Takes.orTrap {result : Except KiraTrap α} (known : result = .ok value)
    (rest : Takes (next value) second answer) :
    Takes (Foundation.orTrap result >>= next) second answer := by
  rw [known]
  exact rest

theorem Takes.unlessFailed {operation other : OnReader β} (takes : Takes operation first answer) :
    Takes (do let reader ← get; if reader.failed then other else operation) first answer := by
  intro reader rest stands
  have goesOn : (if reader.failed then other else operation) = operation := by
    rw [stands.1]
    rfl
  rw [bind_run_ok (get_run reader), goesOn]
  exact takes reader rest stands

theorem Takes.congr (takes : Takes operation first value) (same : first = second) :
    Takes operation second value := by
  rw [← same]
  exact takes

end Rules

theorem countWork_run (reader : KtenReader) : countWork reader = .ok () reader.worked :=
  rfl

variable {reader : KtenReader} {rest bytes : List UInt8} {result : UInt64} {shift : Nat}
  {groups : List UInt8} {word : UInt64} {count frames : Nat} {value : Kten}

theorem Stands.byte {byte : UInt8} (stands : Stands reader (byte :: rest)) :
    reader.cursor < reader.bytes.length ∧ byteAt reader.bytes reader.cursor = .ok byte := by
  have here : reader.bytes[reader.cursor]? = some byte := by
    have head := congrArg List.head? stands.2
    rw [List.head?_drop] at head
    exact head
  exact ⟨(List.getElem?_eq_some_iff.mp here).1, byteAt_ok here⟩

theorem Stands.step {byte : UInt8} (stands : Stands reader (byte :: bytes)) :
    Stands reader.worked.moved bytes :=
  @Stands.advance reader [byte] bytes stands (reader.work + 1)

theorem takeByte_run {byte : UInt8} (stands : Stands reader (byte :: bytes)) :
    takeByte (frames + 1) reader = .ok byte reader.worked.moved := by
  rcases stands.byte with ⟨within, read⟩
  have inside : ¬ reader.worked.bytes.length ≤ reader.worked.cursor := Nat.not_le.mpr within
  have readWorked : byteAt reader.worked.bytes reader.worked.cursor = .ok byte := read
  simp only [takeByte]
  rw [bind_run_ok (countWork_run reader), bind_run_ok (get_run reader.worked), if_neg inside,
    readWorked]
  rfl

theorem takes_byte (byte : UInt8) : Takes (takeByte (frames + 1)) [byte] byte :=
  fun reader _ stands => ⟨reader.work + 1, takeByte_run stands⟩

theorem takeRawFrom_step {after : KtenReader} {byte : UInt8} {raw : List UInt8}
    {turns : Nat} (stands : Stands reader (byte :: bytes))
    (ran : takeRawFrom frames turns reader.worked.moved = .ok raw after) :
    takeRawFrom frames (turns + 1) reader = .ok (byte :: raw) after := by
  rcases stands.byte with ⟨within, read⟩
  have inside : ¬ reader.worked.bytes.length ≤ reader.worked.cursor := Nat.not_le.mpr within
  have readWorked : byteAt reader.worked.bytes reader.worked.cursor = .ok byte := read
  have moving : (modify KtenReader.moved : OnReader Unit) reader.worked =
      .ok () reader.worked.moved := rfl
  simp only [takeRawFrom]
  rw [bind_run_ok (countWork_run reader), bind_run_ok (get_run reader.worked), if_neg inside,
    readWorked, bind_run_ok (show orTrap (.ok byte) reader.worked = .ok byte reader.worked from rfl),
    bind_run_ok moving, bind_run_ok ran, pure_run]

theorem takeRawFrom_run {raw : List UInt8} (stands : Stands reader (raw ++ rest)) :
    takeRawFrom frames raw.length reader = .ok raw
      { reader with cursor := reader.cursor + raw.length, work := reader.work + raw.length } := by
  induction raw generalizing reader with
  | nil => rfl
  | cons byte raw ih =>
    rw [List.length_cons, takeRawFrom_step stands (ih stands.step)]
    simp only [KtenReader.moved, KtenReader.worked]
    rw [Nat.add_assoc, Nat.add_comm 1, Nat.add_assoc, Nat.add_comm 1]

theorem takes_raw (raw : List UInt8) : Takes (takeRaw (frames + 1) raw.length) raw raw := by
  rw [takeRaw, if_neg (by omega), Int.toNat_natCast]
  exact fun reader rest stands => ⟨reader.work + raw.length, takeRawFrom_run stands⟩

/-! ## Varints -/

theorem and127_toNat (byte : UInt8) : (byte &&& 127).toNat = byte.toNat % 128 := by
  rw [UInt8.toNat_and]
  exact Nat.and_two_pow_sub_one_eq_mod byte.toNat 7

theorem and128_iff (byte : UInt8) : byte &&& 128 ≠ 0 ↔ 128 ≤ byte.toNat := by
  have bound := byte.toNat_lt
  have masked : (byte &&& 128).toNat = 2 ^ 7 * (byte.toNat.testBit 7).toNat := by
    rw [UInt8.toNat_and]
    rw [Nat.and_comm]
    exact Nat.two_pow_and byte.toNat 7
  rw [Ne, ← UInt8.toNat_inj, masked, Nat.testBit_eq_decide_div_mod_eq]
  by_cases high : byte.toNat / 2 ^ 7 % 2 = 1
  · simp only [high, decide_true, Bool.toNat_true, UInt8.toNat_ofNat]
    omega
  · simp only [high, decide_false, Bool.toNat_false, UInt8.toNat_ofNat]
    omega

theorem lowGroup_toNat (value : UInt64) :
    ((value &&& 127) ||| 128).toUInt8.toNat = value.toNat % 128 + 128 := by
  have low : (value &&& 127).toNat = value.toNat % 128 := by
    rw [UInt64.toNat_and]
    exact Nat.and_two_pow_sub_one_eq_mod value.toNat 7
  have small : value.toNat % 128 < 2 ^ 7 := Nat.mod_lt _ (by decide)
  have joined : ((value &&& 127) ||| 128).toNat = value.toNat % 128 + 128 := by
    rw [UInt64.toNat_or, low, Nat.or_comm, Nat.add_comm]
    exact (Nat.two_pow_add_eq_or_of_lt small 1).symm
  rw [UInt64.toNat_toUInt8, joined]
  omega

/-- A group above the groups before it; what does not fit the word is lost. -/
theorem shifted_or_toNat {group : UInt64} (below : result.toNat < 2 ^ shift)
    (inRange : shift < 64) :
    (result ||| group <<< UInt64.ofNat shift).toNat =
      result.toNat + group.toNat * 2 ^ shift % 2 ^ 64 := by
  have amount : (UInt64.ofNat shift).toNat % 64 = shift := by
    rw [UInt64.toNat_ofNat']
    omega
  have kept : group.toNat * 2 ^ shift % 2 ^ 64 = 2 ^ shift * (group.toNat % 2 ^ (64 - shift)) := by
    rw [← Nat.mul_mod_mul_left, ← Nat.pow_add, Nat.add_sub_of_le (Nat.le_of_lt inRange),
      Nat.mul_comm]
  rw [UInt64.toNat_or, UInt64.toNat_shiftLeft, amount, Nat.shiftLeft_eq, kept, Nat.or_comm,
    ← Nat.two_pow_add_eq_or_of_lt below, Nat.add_comm]

/-- The groups of a varint, at most so many. -/
inductive Varint : Nat → List UInt8 → Prop
  | last {room : Nat} {byte : UInt8} (ends : byte.toNat < 128) : Varint (room + 1) [byte]
  | more {room : Nat} {byte : UInt8} {groups : List UInt8} (goesOn : 128 ≤ byte.toNat)
      (rest : Varint room groups) : Varint (room + 1) (byte :: groups)

def varintNumber : List UInt8 → Nat
  | [] => 0
  | byte :: groups => byte.toNat % 128 + 128 * varintNumber groups

/-- One turn of the varint loop, when its byte is there. -/
theorem takes_varUIntFrom_step {byte : UInt8} {answer : UInt64} (inRange : shift < 64)
    (goesOn : Takes (if byte &&& 128 ≠ 0 then
        takeVarUIntFrom (frames + 1) (result ||| (byte &&& 127).toUInt64 <<< UInt64.ofNat shift)
          (shift + 7)
      else pure (result ||| (byte &&& 127).toUInt64 <<< UInt64.ofNat shift)) rest answer) :
    Takes (takeVarUIntFrom (frames + 1) result shift) (byte :: rest) answer := by
  unfold takeVarUIntFrom
  rw [if_neg (by omega)]
  exact (takes_byte byte).bind goesOn.unlessFailed

theorem group_toNat (byte : UInt8) (below : result.toNat < 2 ^ shift) (inRange : shift < 64) :
    (result ||| (byte &&& 127).toUInt64 <<< UInt64.ofNat shift).toNat =
      result.toNat + byte.toNat % 128 * 2 ^ shift % 2 ^ 64 := by
  rw [shifted_or_toNat below inRange, UInt8.toNat_toUInt64, and127_toNat]

theorem group_below (byte : UInt8) (below : result.toNat < 2 ^ shift) (inRange : shift < 64) :
    (result ||| (byte &&& 127).toUInt64 <<< UInt64.ofNat shift).toNat < 2 ^ (shift + 7) := by
  have atMost : byte.toNat % 128 * 2 ^ shift ≤ 127 * 2 ^ shift :=
    Nat.mul_le_mul_right _ (by omega)
  have wrapped := Nat.mod_le (byte.toNat % 128 * 2 ^ shift) (2 ^ 64)
  rw [group_toNat byte below inRange, Nat.pow_add]
  omega

/-- The groups of a varint are taken above those that were taken before. -/
theorem takes_varUIntFrom {room : Nat} (varint : Varint room groups) (result : UInt64)
    (shift : Nat) (below : result.toNat < 2 ^ shift) (turns : shift + 7 * room ≤ 70) :
    Takes (takeVarUIntFrom (frames + 1) result shift) groups
      (UInt64.ofNat (result.toNat + varintNumber groups * 2 ^ shift)) := by
  induction varint generalizing result shift with
  | @last room byte ends =>
    have inRange : shift < 64 := by
      omega
    have ended : ¬ (byte &&& 128 ≠ 0) := by
      rw [and128_iff]
      exact Nat.not_le.mpr ends
    have next : result ||| (byte &&& 127).toUInt64 <<< UInt64.ofNat shift =
        UInt64.ofNat (result.toNat + varintNumber [byte] * 2 ^ shift) := by
      rw [← UInt64.toNat_inj, UInt64.toNat_ofNat', ← Nat.mod_eq_of_lt (UInt64.toNat_lt _),
        group_toNat byte below inRange]
      simp only [varintNumber, Nat.mul_zero, Nat.add_zero, Nat.add_mod_mod]
    apply takes_varUIntFrom_step inRange
    rw [if_neg ended, next]
    exact Takes.pure _
  | @more room byte groups goesOn rest ih =>
    have inRange : shift < 64 := by
      cases rest <;> omega
    have onward := ih _ (shift + 7) (group_below byte below inRange) (by omega)
    have number : UInt64.ofNat
        ((result ||| (byte &&& 127).toUInt64 <<< UInt64.ofNat shift).toNat +
          varintNumber groups * 2 ^ (shift + 7)) =
        UInt64.ofNat (result.toNat + varintNumber (byte :: groups) * 2 ^ shift) := by
      have parts : varintNumber (byte :: groups) * 2 ^ shift =
          byte.toNat % 128 * 2 ^ shift + varintNumber groups * 2 ^ (shift + 7) := by
        rw [varintNumber, Nat.add_mul, Nat.pow_add, Nat.mul_comm 128, Nat.mul_assoc,
          Nat.mul_comm 128]
      rw [← UInt64.toNat_inj, UInt64.toNat_ofNat', UInt64.toNat_ofNat',
        group_toNat byte below inRange, parts]
      omega
    rw [number] at onward
    apply takes_varUIntFrom_step inRange
    rw [if_pos ((and128_iff byte).mpr goesOn)]
    exact onward

theorem takes_varint (varint : Varint 10 groups) :
    Takes (takeVarUInt (frames + 2)) groups (UInt64.ofNat (varintNumber groups)) := by
  have taken := @takes_varUIntFrom _ frames _ varint 0 0 (by decide) (by decide)
  rw [UInt64.toNat_zero, Nat.zero_add, Nat.pow_zero, Nat.mul_one] at taken
  exact taken

/-- What is written for a word is a varint that spells the word. -/
theorem varint_putVarUInt (value : UInt64) (room : Nat) (fits : value.toNat < 128 ^ (room + 1)) :
    Varint (room + 1) (putVarUInt value) ∧ varintNumber (putVarUInt value) = value.toNat := by
  induction value using putVarUInt.induct generalizing room with
  | case1 value large ih =>
    have big : 128 ≤ value.toNat := UInt64.le_iff_toNat_le.mp large
    have highPart : (value >>> 7).toNat = value.toNat / 128 := by
      rw [UInt64.toNat_shiftRight]
      simp only [UInt64.reduceToNat, Nat.reduceMod, Nat.shiftRight_eq_div_pow, Nat.reducePow]
    have split : 128 * (value.toNat / 128) + value.toNat % 128 = value.toNat :=
      Nat.div_add_mod value.toNat 128
    have lowGroup := lowGroup_toNat value
    cases room with
    | zero =>
      rw [Nat.zero_add, Nat.pow_one] at fits
      omega
    | succ room =>
      have highFits : (value >>> 7).toNat < 128 ^ (room + 1) := by
        rw [Nat.pow_succ] at fits
        omega
      have rest := ih room highFits
      unfold putVarUInt
      rw [if_pos large, varintNumber, rest.2, lowGroup, highPart]
      exact ⟨Varint.more (by omega) rest.1, by omega⟩
  | case2 value small =>
    have little : value.toNat < 128 := by
      rw [UInt64.le_iff_toNat_le] at small
      exact Nat.not_le.mp small
    have byte : value.toUInt8.toNat = value.toNat := by
      rw [UInt64.toNat_toUInt8]
      omega
    unfold putVarUInt
    rw [if_neg small, varintNumber, varintNumber, byte]
    exact ⟨Varint.last (by omega), by omega⟩

theorem takes_varUInt (value : UInt64) :
    Takes (takeVarUInt (frames + 2)) (putVarUInt value) value := by
  have bound := value.toNat_lt
  have spelled := varint_putVarUInt value 9 (by omega)
  have taken := @takes_varint _ frames spelled.1
  rw [spelled.2, UInt64.ofNat_toNat] at taken
  exact taken

/-- An integer that is not negative, as a word. -/
theorem toUInt64_toNat {number : Int64} (positive : 0 ≤ number) :
    (number.toUInt64.toNat : Int) = number.toInt := by
  have least : (0 : Int) ≤ number.toInt := Int64.le_iff_toInt_le.mp positive
  rw [Int64.toNat_toUInt64_of_le positive]
  exact Int.toNat_of_nonneg least

theorem mirrored_toInt {number : Int64} (negative : number.toInt < 0) :
    (0 - (number + 1)).toInt = -(number.toInt + 1) := by
  have least := number.le_toInt
  have successor : (number + 1).toInt = number.toInt + 1 := by
    rw [Int64.toInt_add]
    apply Int.bmod_eq_of_le
    · change -((2 ^ 64 : Nat) : Int) / 2 ≤ number.toInt + 1
      omega
    · change number.toInt + 1 < (((2 ^ 64 : Nat) : Int) + 1) / 2
      omega
  rw [Int64.toInt_sub, successor]
  change (0 - (number.toInt + 1)).bmod (2 ^ 64) = _
  rw [Int.zero_sub]
  apply Int.bmod_eq_of_le
  · omega
  · omega

theorem and1_eq_zero_iff (word : UInt64) : word &&& 1 = 0 ↔ word.toNat % 2 = 0 := by
  have masked : (word &&& 1).toNat = word.toNat % 2 := by
    rw [UInt64.toNat_and]
    exact Nat.and_two_pow_sub_one_eq_mod word.toNat 1
  rw [← UInt64.toNat_inj, masked]
  rfl

theorem half_toNat (word : UInt64) : (word >>> 1).toNat = word.toNat / 2 := by
  rw [UInt64.toNat_shiftRight]
  simp only [UInt64.reduceToNat, Nat.reduceMod, Nat.shiftRight_eq_div_pow, Nat.pow_one]

theorem intOfU64_ok (small : word.toNat < 2 ^ 63) : intOfU64 word = .ok word.toNat := by
  unfold intOfU64
  rw [if_pos small]

theorem intOfU64_half (word : UInt64) : intOfU64 (word >>> 1) = .ok ((word.toNat / 2 : Nat) : Int) := by
  have bound := word.toNat_lt
  have half := half_toNat word
  rw [intOfU64_ok (by omega), half]

/-- The integer whose sign stands in the last bit of the word. -/
def signedOf (word : UInt64) : Int :=
  if word.toNat % 2 = 0 then (word.toNat / 2 : Nat) else -((word.toNat / 2 : Nat) : Int) - 1

theorem takeVarInt_run {after : KtenReader} (ran : takeVarUInt frames reader = .ok word after) :
    takeVarInt (frames + 1) reader = .ok (Int64.ofInt (signedOf word)) after := by
  have bound := word.toNat_lt
  rw [takeVarInt]
  unfold signedOf
  rw [bind_run_ok ran, intOfU64_half]
  by_cases even : word.toNat % 2 = 0
  · rw [if_pos even]
    simp only [orTrap]
    rw [bind_run_ok (pure_run _ _), if_pos ((and1_eq_zero_iff word).mpr even)]
    rfl
  · have negated : checkedInt (0 - ((word.toNat / 2 : Nat) : Int)) =
        .ok (-((word.toNat / 2 : Nat) : Int)) := by
      rw [Int.zero_sub]
      exact checkedInt_ok (by unfold intMin; omega) (by unfold intMax; omega)
    have lowered : checkedInt (-((word.toNat / 2 : Nat) : Int) - 1) =
        .ok (-((word.toNat / 2 : Nat) : Int) - 1) :=
      checkedInt_ok (by unfold intMin; omega) (by unfold intMax; omega)
    rw [if_neg even]
    simp only [orTrap]
    rw [bind_run_ok (pure_run _ _), if_neg (mt (and1_eq_zero_iff word).mp even), negated]
    simp only
    rw [bind_run_ok (pure_run _ _), lowered]
    rfl

theorem takes_signed (takes : Takes (takeVarUInt frames) groups word) :
    Takes (takeVarInt (frames + 1)) groups (Int64.ofInt (signedOf word)) := by
  intro reader rest stands
  rcases takes reader rest stands with ⟨work, ran⟩
  exact ⟨work, takeVarInt_run ran⟩

/-- The written word of an integer spells the integer. -/
theorem takes_varInt (number : Int64) :
    Takes (takeVarInt (frames + 3)) (putVarInt number) number := by
  have least := number.le_toInt
  have most := number.toInt_lt
  unfold putVarInt
  by_cases positive : 0 ≤ number
  · have word := toUInt64_toNat positive
    have doubled : (number.toUInt64 * 2).toNat = number.toUInt64.toNat * 2 := by
      rw [UInt64.toNat_mul]
      apply Nat.mod_eq_of_lt
      change number.toUInt64.toNat * 2 < 2 ^ 64
      omega
    have spelled : signedOf (number.toUInt64 * 2) = number.toInt := by
      unfold signedOf
      rw [if_pos (by omega)]
      omega
    have taken := takes_signed (@takes_varUInt frames (number.toUInt64 * 2))
    rw [spelled, Int64.ofInt_toInt] at taken
    rw [if_pos positive]
    exact taken
  · have below : number.toInt < 0 := by
      rw [Int64.le_iff_toInt_le] at positive
      exact Int.not_le.mp positive
    have mirrored := mirrored_toInt below
    have notBelow : 0 ≤ 0 - (number + 1) := by
      rw [Int64.le_iff_toInt_le, mirrored]
      change 0 ≤ -(number.toInt + 1)
      omega
    have word := toUInt64_toNat notBelow
    rw [mirrored] at word
    have doubled : ((0 - (number + 1)).toUInt64 * 2 + 1).toNat =
        (0 - (number + 1)).toUInt64.toNat * 2 + 1 := by
      rw [UInt64.toNat_add, UInt64.toNat_mul]
      change ((0 - (number + 1)).toUInt64.toNat * 2 % 2 ^ 64 + 1) % 2 ^ 64 = _
      omega
    have spelled : signedOf ((0 - (number + 1)).toUInt64 * 2 + 1) = number.toInt := by
      unfold signedOf
      rw [if_neg (by omega)]
      omega
    have taken := takes_signed (@takes_varUInt frames ((0 - (number + 1)).toUInt64 * 2 + 1))
    rw [spelled, Int64.ofInt_toInt] at taken
    rw [if_neg positive]
    exact taken

/-! ## Texts -/

theorem or_group {high low width : Nat} (fits : low < 2 ^ width) :
    high * 2 ^ width ||| low = high * 2 ^ width + low := by
  rw [Nat.mul_comm]
  exact (Nat.two_pow_add_eq_or_of_lt fits high).symm

theorem two_groups {a b : Nat} (small : b < 64) : a <<< 6 ||| b = a * 64 + b := by
  rw [Nat.shiftLeft_eq]
  exact or_group small

theorem three_groups {a b c : Nat} (smallB : b < 64) (smallC : c < 64) :
    a <<< 12 ||| b <<< 6 ||| c = (a * 64 + b) * 64 + c := by
  have front : a <<< 12 ||| b <<< 6 = (a * 64 + b) * 2 ^ 6 := by
    rw [Nat.shiftLeft_eq, Nat.shiftLeft_eq, or_group (by omega)]
    omega
  rw [front]
  exact or_group smallC

theorem four_groups {a b c d : Nat} (smallB : b < 64) (smallC : c < 64) (smallD : d < 64) :
    a <<< 18 ||| b <<< 12 ||| c <<< 6 ||| d = ((a * 64 + b) * 64 + c) * 64 + d := by
  have front : a <<< 18 ||| b <<< 12 = (a * 64 + b) * 2 ^ 12 := by
    rw [Nat.shiftLeft_eq, Nat.shiftLeft_eq, or_group (by omega)]
    omega
  have middle : (a * 64 + b) * 2 ^ 12 ||| c <<< 6 = ((a * 64 + b) * 64 + c) * 2 ^ 6 := by
    rw [Nat.shiftLeft_eq, or_group (by omega)]
    omega
  rw [front, middle]
  exact or_group smallD

theorem and63 (word : Nat) : word &&& 63 = word % 64 :=
  Nat.and_two_pow_sub_one_eq_mod word 6

theorem and31 (word : Nat) : word &&& 31 = word % 32 :=
  Nat.and_two_pow_sub_one_eq_mod word 5

theorem and15 (word : Nat) : word &&& 15 = word % 16 :=
  Nat.and_two_pow_sub_one_eq_mod word 4

theorem and7 (word : Nat) : word &&& 7 = word % 8 :=
  Nat.and_two_pow_sub_one_eq_mod word 3

section Rebuild

variable {bytes rest : List UInt8} {out : String} {index : Nat} {b0 b1 b2 b3 : UInt8}

theorem byteAt_drop {tail : List UInt8} {byte : UInt8} (stands : bytes.drop index = tail)
    (offset : Nat) (here : tail[offset]? = some byte) :
    index + offset < bytes.length ∧ byteAt bytes (index + offset) = .ok byte := by
  rw [← stands, List.getElem?_drop] at here
  exact ⟨(List.getElem?_eq_some_iff.mp here).1, byteAt_ok here⟩

theorem byteAt_front {byte : UInt8} (stands : bytes.drop index = byte :: rest) :
    index < bytes.length ∧ byteAt bytes index = .ok byte :=
  byteAt_drop stands 0 rfl

theorem rebuild_one (stands : bytes.drop index = b0 :: rest) (ascii : b0.toNat < 128) :
    ktenBytesToStringFrom bytes out index =
      ktenBytesToStringFrom bytes (out ++ scalarText b0.toNat) (index + 1) := by
  rcases byteAt_front stands with ⟨inside, first⟩
  have low : b0 < 128 := UInt8.lt_iff_toNat_lt.mpr ascii
  conv => lhs; unfold ktenBytesToStringFrom
  rw [if_pos inside, first, ok_bind, if_pos low]

theorem rebuild_two (stands : bytes.drop index = b0 :: b1 :: rest) (least : 128 ≤ b0.toNat)
    (most : b0.toNat < 224) :
    ktenBytesToStringFrom bytes out index =
      ktenBytesToStringFrom bytes
        (out ++ scalarText (b0.toNat % 32 * 64 + b1.toNat % 64)) (index + 2) := by
  rcases byteAt_front stands with ⟨inside, first⟩
  rcases byteAt_drop stands 1 rfl with ⟨within, second⟩
  have notAscii : ¬ b0 < 128 := by
    rw [UInt8.lt_iff_toNat_lt]
    exact Nat.not_lt.mpr least
  have notFour : ¬ 240 ≤ b0 := by
    rw [UInt8.le_iff_toNat_le]
    exact Nat.not_le.mpr (by change b0.toNat < 240; omega)
  have notThree : ¬ 224 ≤ b0 := by
    rw [UInt8.le_iff_toNat_le]
    exact Nat.not_le.mpr most
  conv => lhs; unfold ktenBytesToStringFrom
  rw [if_pos inside, first, ok_bind, if_neg notAscii, if_neg notFour, if_neg notThree,
    if_neg (Nat.not_le.mpr within), second, ok_bind]
  simp only [and31, and63]
  rw [two_groups (Nat.mod_lt _ (by decide))]

theorem rebuild_three (stands : bytes.drop index = b0 :: b1 :: b2 :: rest)
    (least : 224 ≤ b0.toNat) (most : b0.toNat < 240) :
    ktenBytesToStringFrom bytes out index =
      ktenBytesToStringFrom bytes
        (out ++ scalarText ((b0.toNat % 16 * 64 + b1.toNat % 64) * 64 + b2.toNat % 64))
        (index + 3) := by
  rcases byteAt_front stands with ⟨inside, first⟩
  rcases byteAt_drop stands 1 rfl with ⟨-, second⟩
  rcases byteAt_drop stands 2 rfl with ⟨within, third⟩
  have notAscii : ¬ b0 < 128 := by
    rw [UInt8.lt_iff_toNat_lt]
    exact Nat.not_lt.mpr (by change 128 ≤ b0.toNat; omega)
  have notFour : ¬ 240 ≤ b0 := by
    rw [UInt8.le_iff_toNat_le]
    exact Nat.not_le.mpr most
  have isThree : 224 ≤ b0 := UInt8.le_iff_toNat_le.mpr least
  conv => lhs; unfold ktenBytesToStringFrom
  rw [if_pos inside, first, ok_bind, if_neg notAscii, if_neg notFour, if_pos isThree,
    if_neg (Nat.not_le.mpr within), second, ok_bind, third, ok_bind]
  simp only [and15, and63]
  rw [three_groups (Nat.mod_lt _ (by decide)) (Nat.mod_lt _ (by decide))]

theorem rebuild_four (stands : bytes.drop index = b0 :: b1 :: b2 :: b3 :: rest)
    (least : 240 ≤ b0.toNat) :
    ktenBytesToStringFrom bytes out index =
      ktenBytesToStringFrom bytes
        (out ++ scalarText (((b0.toNat % 8 * 64 + b1.toNat % 64) * 64 + b2.toNat % 64) * 64 +
          b3.toNat % 64)) (index + 4) := by
  rcases byteAt_front stands with ⟨inside, first⟩
  rcases byteAt_drop stands 1 rfl with ⟨-, second⟩
  rcases byteAt_drop stands 2 rfl with ⟨-, third⟩
  rcases byteAt_drop stands 3 rfl with ⟨within, fourth⟩
  have notAscii : ¬ b0 < 128 := by
    rw [UInt8.lt_iff_toNat_lt]
    exact Nat.not_lt.mpr (by change 128 ≤ b0.toNat; omega)
  have isFour : 240 ≤ b0 := UInt8.le_iff_toNat_le.mpr least
  conv => lhs; unfold ktenBytesToStringFrom
  rw [if_pos inside, first, ok_bind, if_neg notAscii, if_pos isFour,
    if_neg (Nat.not_le.mpr within), second, ok_bind, third, ok_bind, fourth, ok_bind]
  simp only [and7, and63]
  rw [four_groups (Nat.mod_lt _ (by decide)) (Nat.mod_lt _ (by decide))
    (Nat.mod_lt _ (by decide))]

theorem val_lt (c : Char) : c.val.toNat < 0x110000 := by
  rcases c.valid with low | high
  · change c.val.toNat < 0xd800 at low
    omega
  · exact high.2

theorem rebuild_char (c : Char) (stands : bytes.drop index = String.utf8EncodeChar c ++ rest) :
    ktenBytesToStringFrom bytes out index =
      ktenBytesToStringFrom bytes (out ++ String.singleton c)
        (index + (String.utf8EncodeChar c).length) := by
  have bound := val_lt c
  rw [← scalarText_toNat c]
  unfold Char.toNat
  unfold String.utf8EncodeChar at stands ⊢
  simp only at stands ⊢
  by_cases one : c.val.toNat ≤ 0x7f
  · rw [if_pos one] at stands
    rw [if_pos one]
    have byte := @UInt8.toNat_ofNat_of_lt' c.val.toNat (by change _ < 256; omega)
    rw [rebuild_one stands (by omega), byte]
    rfl
  by_cases two : c.val.toNat ≤ 0x7ff
  · rw [if_neg one, if_pos two] at stands
    rw [if_neg one, if_pos two]
    have lead := @UInt8.toNat_ofNat_of_lt' (c.val.toNat / 64 % 32 + 192) (by change _ < 256; omega)
    have tail := @UInt8.toNat_ofNat_of_lt' (c.val.toNat % 64 + 128) (by change _ < 256; omega)
    have scalar : (c.val.toNat / 64 % 32 + 192) % 32 * 64 + (c.val.toNat % 64 + 128) % 64 =
        c.val.toNat := by
      omega
    rw [rebuild_two stands (by omega) (by omega), lead, tail, scalar]
    rfl
  by_cases three : c.val.toNat ≤ 0xffff
  · rw [if_neg one, if_neg two, if_pos three] at stands
    rw [if_neg one, if_neg two, if_pos three]
    have lead := @UInt8.toNat_ofNat_of_lt' (c.val.toNat / 4096 % 16 + 224)
      (by change _ < 256; omega)
    have middle := @UInt8.toNat_ofNat_of_lt' (c.val.toNat / 64 % 64 + 128)
      (by change _ < 256; omega)
    have tail := @UInt8.toNat_ofNat_of_lt' (c.val.toNat % 64 + 128) (by change _ < 256; omega)
    have scalar : ((c.val.toNat / 4096 % 16 + 224) % 16 * 64 +
        (c.val.toNat / 64 % 64 + 128) % 64) * 64 + (c.val.toNat % 64 + 128) % 64 =
        c.val.toNat := by
      omega
    rw [rebuild_three stands (by omega) (by omega), lead, middle, tail, scalar]
    rfl
  · rw [if_neg one, if_neg two, if_neg three] at stands
    rw [if_neg one, if_neg two, if_neg three]
    have lead := @UInt8.toNat_ofNat_of_lt' (c.val.toNat / 262144 % 8 + 240)
      (by change _ < 256; omega)
    have upper := @UInt8.toNat_ofNat_of_lt' (c.val.toNat / 4096 % 64 + 128)
      (by change _ < 256; omega)
    have middle := @UInt8.toNat_ofNat_of_lt' (c.val.toNat / 64 % 64 + 128)
      (by change _ < 256; omega)
    have tail := @UInt8.toNat_ofNat_of_lt' (c.val.toNat % 64 + 128) (by change _ < 256; omega)
    have scalar : (((c.val.toNat / 262144 % 8 + 240) % 8 * 64 +
        (c.val.toNat / 4096 % 64 + 128) % 64) * 64 + (c.val.toNat / 64 % 64 + 128) % 64) * 64 +
        (c.val.toNat % 64 + 128) % 64 = c.val.toNat := by
      omega
    rw [rebuild_four stands (by omega), lead, upper, middle, tail, scalar]
    rfl

theorem rebuild_chars (chars : List Char)
    (stands : bytes.drop index = chars.flatMap String.utf8EncodeChar) :
    ktenBytesToStringFrom bytes out index = .ok (out ++ String.ofList chars) := by
  induction chars generalizing out index with
  | nil =>
    have ended : ¬ index < bytes.length := by
      intro inside
      have empty := congrArg List.length stands
      rw [List.length_drop, List.flatMap_nil, List.length_nil] at empty
      omega
    unfold ktenBytesToStringFrom
    rw [if_neg ended]
    simp
  | cons c chars ih =>
    rw [List.flatMap_cons] at stands
    have onward : bytes.drop (index + (String.utf8EncodeChar c).length) =
        chars.flatMap String.utf8EncodeChar := by
      rw [← List.drop_drop, stands, List.drop_left]
    rw [rebuild_char c stands, ih onward, String.append_assoc]
    congr 2
    simp [String.ofList_cons]

end Rebuild

theorem ktenBytesToString_textBytes (text : String) :
    ktenBytesToString (textBytes text) = .ok text := by
  have whole : (textBytes text).drop 0 = text.toList.flatMap String.utf8EncodeChar :=
    textBytes_toList text
  unfold ktenBytesToString
  rw [rebuild_chars text.toList whole, String.ofList_toList]
  simp

theorem ofNat_count (isCount : count < 2 ^ 63) : (UInt64.ofNat count).toNat = count := by
  apply UInt64.toNat_ofNat_of_lt'
  change count < 2 ^ 64
  omega

theorem intOfU64_count (isCount : count < 2 ^ 63) : intOfU64 (UInt64.ofNat count) = .ok count := by
  have word := ofNat_count isCount
  rw [intOfU64_ok (by omega), word]

theorem takes_string {text : String} (isCount : (textBytes text).length < 2 ^ 63) :
    Takes (takeString (frames + 3)) (putString text) text := by
  unfold takeString putString
  apply (takes_varUInt _).bind
  apply Takes.orTrap (intOfU64_count isCount)
  apply Takes.unlessFailed
  apply ((takes_raw (textBytes text)).bind ?_).congr (List.append_nil _)
  rw [ktenBytesToString_textBytes]
  exact Takes.pure text

theorem takes_count (isCount : count < 2 ^ 63) :
    Takes (takeCount (frames + 2)) (putVarUInt (UInt64.ofNat count)) count := by
  unfold takeCount
  rw [← List.append_nil (putVarUInt _)]
  apply (takes_varUInt _).bind
  apply Takes.orTrap (intOfU64_count isCount)
  exact Takes.pure count

/-! ## Values -/

theorem takes_countWork : Takes countWork [] () :=
  fun reader _ _ => ⟨reader.work + 1, rfl⟩

theorem takes_each_cons {α : Type} {take : OnReader α} {turns : Nat} {first : List UInt8}
    {item : α} {items : List α} (takesFirst : Takes take first item)
    (takesRest : Takes (takeEach take turns) rest items) :
    Takes (takeEach take (turns + 1)) (first ++ rest) (item :: items) := by
  unfold takeEach
  apply Takes.unlessFailed
  exact takes_countWork.bind (takesFirst.bind takesRest.andPure)

mutual

def Kten.Every (property : Kten → Prop) : Kten → Prop
  | .list items => property (.list items) ∧ everyValue property items
  | .object tag fields => property (.object tag fields) ∧ everyField property fields
  | .case name payload => property (.case name payload) ∧ everyValue property payload
  | value => property value

def everyValue (property : Kten → Prop) : List Kten → Prop
  | [] => True
  | value :: values => value.Every property ∧ everyValue property values

def everyField (property : Kten → Prop) : List KtenField → Prop
  | [] => True
  | .mk _ value :: fields => value.Every property ∧ everyField property fields

end

mutual

theorem Kten.Every.and {p q : Kten → Prop} : ∀ {value : Kten},
    value.Every p → value.Every q → value.Every fun node => p node ∧ q node
  | .null, first, second | .bool _, first, second | .int _, first, second
  | .float _, first, second | .text _, first, second | .bytes _, first, second =>
    ⟨first, second⟩
  | .list _, first, second => ⟨⟨first.1, second.1⟩, everyValue_and first.2 second.2⟩
  | .object _ _, first, second => ⟨⟨first.1, second.1⟩, everyField_and first.2 second.2⟩
  | .case _ _, first, second => ⟨⟨first.1, second.1⟩, everyValue_and first.2 second.2⟩

theorem everyValue_and {p q : Kten → Prop} : ∀ {values : List Kten},
    everyValue p values → everyValue q values → everyValue (fun node => p node ∧ q node) values
  | [], _, _ => trivial
  | _ :: _, first, second => ⟨first.1.and second.1, everyValue_and first.2 second.2⟩

theorem everyField_and {p q : Kten → Prop} : ∀ {fields : List KtenField},
    everyField p fields → everyField q fields → everyField (fun node => p node ∧ q node) fields
  | [], _, _ => trivial
  | .mk _ _ :: _, first, second => ⟨first.1.and second.1, everyField_and first.2 second.2⟩

end

/-- The lengths and counts that the value itself holds are `Int`s, as every count of the
language is. -/
def Kten.Counted : Kten → Prop
  | .text content => (textBytes content).length < 2 ^ 63
  | .bytes raw => raw.length < 2 ^ 63
  | .list items => items.length < 2 ^ 63
  | .object tag fields =>
    (textBytes tag).length < 2 ^ 63 ∧ fields.length < 2 ^ 63 ∧
      ∀ field ∈ fields, (textBytes field.name).length < 2 ^ 63
  | .case name payload => (textBytes name).length < 2 ^ 63 ∧ payload.length < 2 ^ 63
  | _ => True

def Kten.IsNotFloat : Kten → Prop
  | .float _ => False
  | _ => True

/-- A node of a value that comes back. -/
def Kten.Exact (value : Kten) : Prop :=
  value.IsNotFloat ∧ value.Counted

section Nodes

variable {floatText : Float → String} {frames : Nat}

theorem takes_null : Takes (takeValue (frames + 4)) (putValue floatText .null) .null :=
  (takes_byte ktenTagNull).bind (Takes.unlessFailed (Takes.pure Kten.null))

theorem takes_bool (flag : Bool) :
    Takes (takeValue (frames + 4)) (putValue floatText (.bool flag)) (.bool flag) := by
  have read : Takes (do
      let byte ← takeByte (frames + 3)
      pure (Kten.bool (byte != 0))) [if flag then 1 else 0] (.bool flag) := by
    cases flag with
    | false => exact (takes_byte 0).andPure
    | true => exact (takes_byte 1).andPure
  exact (takes_byte ktenTagBool).bind (Takes.unlessFailed read)

theorem takes_int (number : Int64) :
    Takes (takeValue (frames + 4)) (putValue floatText (.int number)) (.int number) :=
  (takes_byte ktenTagInt).bind (Takes.unlessFailed (takes_varInt number).andPure)

theorem takes_text {text : String} (isCount : (textBytes text).length < 2 ^ 63) :
    Takes (takeValue (frames + 4)) (putValue floatText (.text text)) (.text text) :=
  (takes_byte ktenTagText).bind (Takes.unlessFailed (takes_string isCount).andPure)

theorem takes_bytes {raw : List UInt8} (isCount : raw.length < 2 ^ 63) :
    Takes (takeValue (frames + 4)) (putValue floatText (.bytes raw)) (.bytes raw) := by
  have read : Takes (do
      let declared ← takeVarUInt (frames + 3)
      let length ← orTrap (intOfU64 declared)
      let taken ← takeRaw (frames + 3) length
      pure (Kten.bytes taken)) (putVarUInt (UInt64.ofNat raw.length) ++ raw) (.bytes raw) := by
    apply (takes_varUInt _).bind
    apply Takes.orTrap (intOfU64_count isCount)
    exact (takes_raw raw).andPure
  exact (takes_byte ktenTagBytes).bind (Takes.unlessFailed read)

theorem takes_list {items : List Kten} (isCount : items.length < 2 ^ 63)
    (takes : Takes (takeEach (takeValue (frames + 3)) items.length) (putValues floatText items) items) :
    Takes (takeValue (frames + 4)) (putValue floatText (.list items)) (.list items) :=
  (takes_byte ktenTagList).bind
    (Takes.unlessFailed ((takes_count isCount).bind takes.andPure))

theorem takes_object {tag : String} {fields : List KtenField}
    (tagIsCount : (textBytes tag).length < 2 ^ 63) (isCount : fields.length < 2 ^ 63)
    (takes : Takes (takeEach (takeField (frames + 3) (takeValue (frames + 3))) fields.length)
      (putFields floatText fields) fields) :
    Takes (takeValue (frames + 4)) (putValue floatText (.object tag fields))
      (.object tag fields) :=
  (takes_byte ktenTagObject).bind
    (Takes.unlessFailed ((takes_string tagIsCount).bind ((takes_count isCount).bind takes.andPure)))

theorem takes_case {name : String} {payload : List Kten}
    (nameIsCount : (textBytes name).length < 2 ^ 63) (isCount : payload.length < 2 ^ 63)
    (takes : Takes (takeEach (takeValue (frames + 3)) payload.length) (putValues floatText payload)
      payload) :
    Takes (takeValue (frames + 4)) (putValue floatText (.case name payload))
      (.case name payload) :=
  (takes_byte ktenTagCase).bind
    (Takes.unlessFailed ((takes_string nameIsCount).bind
      ((takes_count isCount).bind takes.andPure)))

theorem takes_field {name : String} {value : Kten}
    (isCount : (textBytes name).length < 2 ^ 63)
    (takes : Takes (takeValue (frames + 3)) (putValue floatText value) value) :
    Takes (takeField (frames + 3) (takeValue (frames + 3))) (putString name ++ putValue floatText value)
      (.mk name value) :=
  (takes_string isCount).bind takes.andPure

end Nodes

theorem putValue_length_pos (floatText : Float → String) (value : Kten) :
    0 < (putValue floatText value).length := by
  cases value <;> simp [putValue]

mutual

/-- A value without a `Float` comes back, when there is a frame for each of its bytes and three
for the calls inside the last one. -/
theorem takes_value (floatText : Float → String) (frames : Nat) :
    ∀ value : Kten, value.Every Kten.Exact → (putValue floatText value).length ≤ frames →
      Takes (takeValue (frames + 3)) (putValue floatText value) value
  | value, exact, enough => by
    have some := putValue_length_pos floatText value
    rcases Nat.exists_eq_succ_of_ne_zero (Nat.ne_of_gt (Nat.lt_of_lt_of_le some enough)) with
      ⟨inner, rfl⟩
    match value, exact, enough with
    | .null, _, _ => exact takes_null
    | .bool flag, _, _ => exact takes_bool flag
    | .int number, _, _ => exact takes_int number
    | .float number, exact, _ => exact exact.1.elim
    | .text text, exact, _ => exact takes_text exact.2
    | .bytes raw, exact, _ => exact takes_bytes exact.2
    | .list items, exact, enough =>
      have rest : (putValues floatText items).length ≤ inner := by
        simp only [putValue, List.length_cons, List.length_append] at enough
        omega
      exact takes_list exact.1.2 (takes_values floatText inner items exact.2 rest)
    | .object tag fields, exact, enough =>
      have rest : (putFields floatText fields).length ≤ inner := by
        simp only [putValue, List.length_cons, List.length_append] at enough
        omega
      exact takes_object exact.1.2.1 exact.1.2.2.1
        (takes_fields floatText inner fields exact.1.2.2.2 exact.2 rest)
    | .case name payload, exact, enough =>
      have rest : (putValues floatText payload).length ≤ inner := by
        simp only [putValue, List.length_cons, List.length_append] at enough
        omega
      exact takes_case exact.1.2.1 exact.1.2.2
        (takes_values floatText inner payload exact.2 rest)

theorem takes_values (floatText : Float → String) (frames : Nat) :
    ∀ values : List Kten, everyValue Kten.Exact values →
      (putValues floatText values).length ≤ frames →
      Takes (takeEach (takeValue (frames + 3)) values.length) (putValues floatText values) values
  | [], _, _ => Takes.pure []
  | value :: values, exact, enough => by
    simp only [putValues, List.length_append] at enough
    exact takes_each_cons (takes_value floatText frames value exact.1 (by omega))
      (takes_values floatText frames values exact.2 (by omega))

theorem takes_fields (floatText : Float → String) (frames : Nat) :
    ∀ fields : List KtenField, (∀ field ∈ fields, (textBytes field.name).length < 2 ^ 63) →
      everyField Kten.Exact fields → (putFields floatText fields).length ≤ frames →
      Takes (takeEach (takeField (frames + 3) (takeValue (frames + 3))) fields.length)
        (putFields floatText fields) fields
  | [], _, _, _ => Takes.pure []
  | .mk name value :: fields, counted, exact, enough => by
    simp only [putFields, List.length_append] at enough
    have first := takes_field (counted (.mk name value) List.mem_cons_self)
      (takes_value floatText frames value exact.1 (by omega))
    have rest := takes_fields floatText frames fields
      (fun field among => counted field (List.mem_cons_of_mem _ among)) exact.2 (by omega)
    exact (takes_each_cons first rest).congr (List.append_assoc _ _ _)

end

/-! ## Documents -/

theorem readerOf_stands (bytes : List UInt8) : Stands (readerOf bytes) bytes :=
  ⟨rfl, List.drop_zero⟩

/-- The reader of a document stops behind the value, whatever follows. -/
theorem ktenDecode_run (floatText : Float → String) (exact : value.Every Kten.Exact)
    (suffix : List UInt8) (enough : (ktenEncode floatText value).length + 3 ≤ frames) : ∃ work,
      takeValue frames (readerOf (ktenEncode floatText value ++ suffix)) =
        .ok value ⟨ktenEncode floatText value ++ suffix, (ktenEncode floatText value).length,
          false, work⟩ := by
  rcases Nat.exists_eq_add_of_le' (Nat.le_of_add_left_le enough) with ⟨inner, rfl⟩
  rcases takes_value floatText inner value exact (Nat.le_of_add_le_add_right enough) _ suffix
    (readerOf_stands _) with ⟨work, ran⟩
  refine ⟨work, ?_⟩
  unfold ktenEncode
  rw [ran]
  simp [readerOf]

theorem ktenDecode_encoded (floatText : Float → String) (exact : value.Every Kten.Exact)
    (suffix : List UInt8) :
    ktenDecode (ktenEncode floatText value ++ suffix) = .ok (.ok value) := by
  have enough : (ktenEncode floatText value).length + 3 ≤
      (ktenEncode floatText value ++ suffix).length + 5 := by
    rw [List.length_append]
    omega
  rcases ktenDecode_run floatText exact suffix enough with ⟨work, ran⟩
  unfold ktenDecode ktenDecodeWithin
  rw [ran]
  rfl

/-- No encoding begins another one. -/
theorem ktenEncode_unextended (floatText : Float → String) {other : Kten}
    (exact : value.Every Kten.Exact) (otherExact : other.Every Kten.Exact) {suffix : List UInt8}
    (extended : ktenEncode floatText other = ktenEncode floatText value ++ suffix) :
    other = value ∧ suffix = [] := by
  have enough : (ktenEncode floatText value).length + 3 ≤
      (ktenEncode floatText value ++ suffix).length + 3 := by
    rw [List.length_append]
    omega
  rcases ktenDecode_run floatText exact suffix enough with ⟨work, ran⟩
  rcases ktenDecode_run floatText otherExact [] (Nat.le_refl _) with ⟨otherWork, otherRan⟩
  rw [List.append_nil, extended, ran] at otherRan
  injection otherRan with sameValue sameReader
  injection sameReader with _ sameCursor
  rw [List.length_append] at sameCursor
  have empty : suffix.length = 0 := by
    omega
  exact ⟨sameValue.symm, List.eq_nil_of_length_eq_zero empty⟩

/-- A value without a `Float` comes back from its bytes, and what follows these bytes is
neither read nor needed. -/
theorem kten_round_trip (floatText : Float → String) (value : Kten)
    (noFloat : value.Every Kten.IsNotFloat) (counted : value.Every Kten.Counted) :
    ktenDecode (ktenEncode floatText value) = .ok (.ok value) ∧
      (∀ suffix, ktenDecode (ktenEncode floatText value ++ suffix) = .ok (.ok value) ∧
        ∀ frames, (ktenEncode floatText value).length + 3 ≤ frames → ∃ work,
          takeValue frames (readerOf (ktenEncode floatText value ++ suffix)) =
            .ok value ⟨ktenEncode floatText value ++ suffix, (ktenEncode floatText value).length,
              false, work⟩) ∧
      ∀ other : Kten, other.Every Kten.IsNotFloat → other.Every Kten.Counted →
        ∀ suffix, ktenEncode floatText other = ktenEncode floatText value ++ suffix →
          other = value ∧ suffix = [] := by
  have exact : value.Every Kten.Exact := noFloat.and counted
  refine ⟨?_, ?_, ?_⟩
  · have whole := ktenDecode_encoded floatText exact []
    rw [List.append_nil] at whole
    exact whole
  · intro suffix
    exact ⟨ktenDecode_encoded floatText exact suffix,
      fun _ enough => ktenDecode_run floatText exact suffix enough⟩
  · intro other otherNoFloat otherCounted suffix extended
    exact ktenEncode_unextended floatText exact (otherNoFloat.and otherCounted) extended

theorem kten_round_trip_nested :
    ktenDecode (ktenEncode (fun _ => "") (.object "é" [.mk "n" (.list
        [.int Int64.minValue, .null, .case "A" [.bytes [255], .text "\""]])]) ++ [9]) =
      .ok (.ok (.object "é" [.mk "n" (.list
        [.int Int64.minValue, .null, .case "A" [.bytes [255], .text "\""]])])) := by
  have counted : (Kten.object "é" [.mk "n" (.list
      [.int Int64.minValue, .null, .case "A" [.bytes [255], .text "\""]])]).Every Kten.Counted := by
    simp only [Kten.Every, everyValue, everyField, Kten.Counted, List.forall_mem_singleton]
    decide
  exact ((kten_round_trip (fun _ => "") _
    (by simp only [Kten.Every, everyValue, everyField, Kten.IsNotFloat, and_self])
    counted).2.1 [9]).1

end Foundation

end KiraVm
