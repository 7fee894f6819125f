import KiraVm.WordReader

/-!
# Fields behind 32-bit counts

Byte strings and lists written behind a little-endian 32-bit count, and a cut to
16 bits.
-/

namespace ByteReader

open Reader

variable {ε α : Type}

def u16Bytes (value : UInt16) : List UInt8 :=
  leBytes 2 value.toNat

/-- Bytes behind their length, which is cut to 32 bits. -/
def shortBytes (bytes : List UInt8) : List UInt8 :=
  u32Bytes (UInt32.ofNat bytes.length) ++ bytes

/-- A list behind its length, which is cut to 32 bits. -/
def shortList (write : α → List UInt8) (values : List α) : List UInt8 :=
  u32Bytes (UInt32.ofNat values.length) ++ values.flatMap write

namespace Reader

def shortBytes (short : Nat → ε) : Reader ε (List UInt8) := do
  let len ← u32 short
  take short len.toNat

end Reader

/-- A reader that meets a value's bytes leaves what is behind them. -/
theorem Recovers.ahead {read : Reader ε α} {fits : α → Prop} {write : α → List UInt8}
    (recovers : Recovers read fits write) {value : α} (valueFits : fits value) (offset : Nat)
    (rest : List UInt8) :
    read ⟨offset, write value ++ rest⟩ = .ok (value, ⟨offset + (write value).length, rest⟩) :=
  recovers value valueFits _ _ ⟨rfl, rfl⟩

theorem Recovers.last {read : Reader ε α} {fits : α → Prop} {write : α → List UInt8}
    (recovers : Recovers read fits write) {value : α} (valueFits : fits value) (offset : Nat) :
    read ⟨offset, write value⟩ = .ok (value, ⟨offset + (write value).length, []⟩) :=
  recovers value valueFits _ _ ⟨(List.append_nil _).symm, rfl⟩

variable {short : Nat → ε}

@[simp]
theorem u16_ok_iff {result : UInt16} {cursor after : Cursor} :
    u16 short cursor = .ok (result, after) ↔ Spans cursor (u16Bytes result) after := by
  simp only [u16, bind_ok_iff, word_ok_iff, pure_ok_iff]
  constructor
  · rintro ⟨number, middle, ⟨bounded, spans⟩, rfl, rfl⟩
    have : (UInt16.ofNat number).toNat = number :=
      UInt16.toNat_ofNat_of_lt (by norm_num at bounded; simpa [UInt16.size] using bounded)
    rwa [u16Bytes, this]
  · intro spans
    exact ⟨result.toNat, after, ⟨result.toNat_lt, spans⟩, UInt16.ofNat_toNat, rfl⟩

theorem toNat_ofNat_of_short {count : Nat} (fits : count < 2 ^ 32) :
    (UInt32.ofNat count).toNat = count :=
  UInt32.toNat_ofNat_of_lt (by simpa [UInt32.size] using fits)

theorem shortBytes_length (bytes : List UInt8) : (shortBytes bytes).length = 4 + bytes.length := by
  simp [shortBytes]

theorem u16_codes {short : Nat → ε} : Codes (u16 short) (fun _ => True) u16Bytes := by
  intro cursor value after
  simp

theorem u32_codes : Codes (u32 short) (fun _ => True) u32Bytes := by
  intro cursor value after
  simp

theorem shortBytes_codes :
    Codes (Reader.shortBytes short) (fun bytes => bytes.length < 2 ^ 32) shortBytes := by
  intro cursor bytes after
  simp only [Reader.shortBytes, bind_ok_iff, u32_ok_iff, take_ok_iff, shortBytes, spans_append]
  constructor
  · rintro ⟨len, middle, lenSpans, lengthEq, spans⟩
    have small := len.toNat_lt
    rw [← lengthEq] at small
    refine ⟨small, middle, ?_, spans⟩
    rwa [lengthEq, UInt32.ofNat_toNat]
  · rintro ⟨fits, middle, lenSpans, spans⟩
    exact ⟨UInt32.ofNat bytes.length, middle, lenSpans, (toNat_ofNat_of_short fits).symm, spans⟩

end ByteReader
