import KiraVm.ByteReader
import Mathlib.Data.List.Nodup
import Mathlib.Data.Nat.Basic
import Mathlib.Tactic.Ring

/-!
# Little-endian words

Fixed-width words as little-endian bytes, the readers that code them, and
lists written behind a 64-bit count.
-/

namespace ByteReader

variable {ε α : Type}

def leBytes : (width number : Nat) → List UInt8
  | 0, _ => []
  | width + 1, number => UInt8.ofNat number :: leBytes width (number / 256)

/-- The number a little-endian byte string denotes. -/
def leValue : List UInt8 → Nat
  | [] => 0
  | byte :: bytes => byte.toNat + 256 * leValue bytes

@[simp]
theorem leBytes_length (width number : Nat) :
    (leBytes width number).length = width := by
  induction width generalizing number with
  | zero => rfl
  | succ width ih => simp [leBytes, ih]

theorem leValue_lt (bytes : List UInt8) : leValue bytes < 256 ^ bytes.length := by
  induction bytes with
  | nil => simp [leValue]
  | cons byte bytes ih =>
    have := byte.toNat_lt
    simp only [leValue, List.length_cons, pow_succ]
    omega

theorem leValue_leBytes {width number : Nat} (bounded : number < 256 ^ width) :
    leValue (leBytes width number) = number := by
  induction width generalizing number with
  | zero =>
    simp only [pow_zero, Nat.lt_one_iff] at bounded
    simp [leBytes, leValue, bounded]
  | succ width ih =>
    have dividedBound : number / 256 < 256 ^ width := by
      rw [pow_succ] at bounded
      omega
    simp only [leBytes, leValue, ih dividedBound, UInt8.toNat_ofNat']
    omega

theorem leBytes_leValue (bytes : List UInt8) :
    leBytes bytes.length (leValue bytes) = bytes := by
  induction bytes with
  | nil => rfl
  | cons byte bytes ih =>
    have small := byte.toNat_lt
    have quotient : (byte.toNat + 256 * leValue bytes) / 256 = leValue bytes := by omega
    have head : UInt8.ofNat (byte.toNat + 256 * leValue bytes) = byte := by
      apply UInt8.toNat_inj.mp
      simp only [UInt8.toNat_ofNat']
      omega
    simp only [List.length_cons, leBytes, leValue, quotient, head, ih]

namespace Reader

def byte (short : Nat → ε) : Reader ε UInt8 :=
  fun cursor =>
    match cursor.rest with
    | [] => .error (short cursor.offset)
    | first :: rest => .ok (first, ⟨cursor.offset + 1, rest⟩)

/-- The next `width` bytes as a little-endian number. -/
def word (short : Nat → ε) (width : Nat) : Reader ε Nat := do
  let bytes ← take short width
  pure (leValue bytes)

def u16 (short : Nat → ε) : Reader ε UInt16 := do
  let number ← word short 2
  pure (UInt16.ofNat number)

def u32 (short : Nat → ε) : Reader ε UInt32 := do
  let number ← word short 4
  pure (UInt32.ofNat number)

def u64 (short : Nat → ε) : Reader ε UInt64 := do
  let number ← word short 8
  pure (UInt64.ofNat number)

end Reader

def u32Bytes (value : UInt32) : List UInt8 :=
  leBytes 4 value.toNat

def u64Bytes (value : UInt64) : List UInt8 :=
  leBytes 8 value.toNat

/-- A list length as the 64-bit word a count is written as. -/
def countBytes (count : Nat) : List UInt8 :=
  u64Bytes (UInt64.ofNat count)

@[simp]
theorem u32Bytes_length (value : UInt32) : (u32Bytes value).length = 4 :=
  leBytes_length _ _

@[simp]
theorem u64Bytes_length (value : UInt64) : (u64Bytes value).length = 8 :=
  leBytes_length _ _

@[simp]
theorem countBytes_length (count : Nat) : (countBytes count).length = 8 :=
  leBytes_length _ _

open Reader

variable {short : Nat → ε} {cursor after : Cursor}

@[simp]
theorem byte_ok_iff {result : UInt8} :
    byte short cursor = .ok (result, after) ↔ Spans cursor [result] after := by
  obtain ⟨offset, rest⟩ := cursor
  cases rest with
  | nil => simp [byte, Spans]
  | cons first rest =>
    obtain ⟨afterOffset, afterRest⟩ := after
    simp only [byte, Spans, Except.ok.injEq, Prod.mk.injEq, Cursor.mk.injEq, List.cons_append,
      List.nil_append, List.cons.injEq, List.length_singleton]
    tauto

theorem word_ok_iff {width result : Nat} :
    word short width cursor = .ok (result, after) ↔
      result < 256 ^ width ∧ Spans cursor (leBytes width result) after := by
  simp only [word, bind_ok_iff, take_ok_iff, pure_ok_iff]
  constructor
  · rintro ⟨bytes, middle, ⟨rfl, spans⟩, rfl, rfl⟩
    exact ⟨leValue_lt bytes, by rwa [leBytes_leValue]⟩
  · rintro ⟨bounded, spans⟩
    exact ⟨leBytes width result, after, ⟨leBytes_length _ _, spans⟩,
      leValue_leBytes bounded, rfl⟩

@[simp]
theorem u32_ok_iff {result : UInt32} :
    u32 short cursor = .ok (result, after) ↔ Spans cursor (u32Bytes result) after := by
  simp only [u32, bind_ok_iff, word_ok_iff, pure_ok_iff]
  constructor
  · rintro ⟨number, middle, ⟨bounded, spans⟩, rfl, rfl⟩
    have : (UInt32.ofNat number).toNat = number :=
      UInt32.toNat_ofNat_of_lt (by norm_num at bounded; simpa [UInt32.size] using bounded)
    rwa [u32Bytes, this]
  · intro spans
    exact ⟨result.toNat, after, ⟨result.toNat_lt, spans⟩, UInt32.ofNat_toNat, rfl⟩

@[simp]
theorem u64_ok_iff {result : UInt64} :
    u64 short cursor = .ok (result, after) ↔ Spans cursor (u64Bytes result) after := by
  simp only [u64, bind_ok_iff, word_ok_iff, pure_ok_iff]
  constructor
  · rintro ⟨number, middle, ⟨bounded, spans⟩, rfl, rfl⟩
    have : (UInt64.ofNat number).toNat = number :=
      UInt64.toNat_ofNat_of_lt (by norm_num at bounded; simpa [UInt64.size] using bounded)
    rwa [u64Bytes, this]
  · intro spans
    exact ⟨result.toNat, after, ⟨result.toNat_lt, spans⟩, UInt64.ofNat_toNat, rfl⟩

theorem toNat_ofNat_of_fits {count : Nat} (fits : count < 2 ^ 64) :
    (UInt64.ofNat count).toNat = count :=
  UInt64.toNat_ofNat_of_lt (by simpa [UInt64.size] using fits)

theorem counted_codes {read : Nat → Reader ε α} {fits : α → Prop} {write : α → List UInt8}
    (codes : ∀ index, Codes (read index) fits write) :
    Codes (do let count ← u64 short; many read 0 count.toNat)
      (fun values => values.length < 2 ^ 64 ∧ ∀ value ∈ values, fits value)
      (fun values => countBytes values.length ++ values.flatMap write) := by
  intro cursor values after
  simp only [bind_ok_iff, u64_ok_iff, many_codes codes _ _ _ _ _, spans_append]
  constructor
  · rintro ⟨count, middle, countSpans, ⟨lengthEq, allFit⟩, spans⟩
    refine ⟨⟨by rw [lengthEq]; exact count.toNat_lt, allFit⟩, middle, ?_, spans⟩
    rwa [countBytes, lengthEq, UInt64.ofNat_toNat]
  · rintro ⟨⟨short, allFit⟩, middle, countSpans, spans⟩
    exact ⟨UInt64.ofNat values.length, middle, countSpans,
      ⟨(toNat_ofNat_of_fits short).symm, allFit⟩, spans⟩

theorem tableByte_iff {table : List α} {asByte : α → UInt8}
    (bytes : table.map asByte = (List.range table.length).map UInt8.ofNat)
    (small : table.length ≤ 256) (complete : ∀ entry, entry ∈ table)
    {byte : UInt8} {entry : α} :
    table[byte.toNat]? = some entry ↔ asByte entry = byte := by
  have byteAt : ∀ index (inside : index < table.length),
      asByte table[index] = UInt8.ofNat index := by
    intro index inside
    have atIndex := congrArg (fun list => list[index]?) bytes
    simpa [inside] using atIndex
  constructor
  · intro found
    obtain ⟨inside, rfl⟩ := List.getElem?_eq_some_iff.mp found
    rw [byteAt _ inside, UInt8.ofNat_toNat]
  · rintro rfl
    obtain ⟨index, inside, rfl⟩ := List.getElem_of_mem (complete entry)
    have : (UInt8.ofNat index).toNat = index :=
      UInt8.toNat_ofNat_of_lt (by simpa [UInt8.size] using inside.trans_le small)
    rw [byteAt index inside, this, List.getElem?_eq_getElem inside]

theorem findByte_iff {table : List α} {asByte : α → UInt8}
    (distinct : (table.map asByte).Nodup) (complete : ∀ entry, entry ∈ table)
    {byte : UInt8} {entry : α} :
    (table.find? fun candidate => asByte candidate == byte) = some entry ↔
      asByte entry = byte := by
  constructor
  · intro found
    simpa using List.find?_some found
  · rintro rfl
    have isSome : (table.find? fun candidate => asByte candidate == asByte entry).isSome :=
      List.find?_isSome.mpr ⟨entry, complete entry, by simp⟩
    obtain ⟨other, found⟩ := Option.isSome_iff_exists.mp isSome
    have sameByte : asByte other = asByte entry := by simpa using List.find?_some found
    rw [found, List.inj_on_of_nodup_map distinct (complete other) (complete entry) sameByte]

end ByteReader
