import KiraVm.InflateReads

/-!
# Decoding symbols

The walk of `decodeSymbol` through the lengths of a canonical code finds the symbol
whose code is spelled.
-/

namespace KiraVm

namespace Compression

open Foundation StateLogic BitStrings CanonicalCodes

/-! ## Stopped walks -/

theorem KeepsCut.decodeSymbol {table : HuffmanCode} (any : 1 ≤ table.counts.length) :
    KeepsCut (decodeSymbol table) := by
  unfold Compression.decodeSymbol
  rw [decodeSymbolFrom, if_pos any]
  apply KeepsCut.bind (KeepsCut.takeBits 1)
  intro bit
  exact KeepsCut.asked _ _

/-! ## Walks -/

/-- The lengths of an alphabet of the format. -/
structure Alphabet (lengths : List Nat) (longest : Nat) : Prop where
  few : lengths.length ≤ 320
  short : longest ≤ 15

theorem shorter_le (lengths : List Nat) (length : Nat) :
    shorter lengths length ≤ length * lengths.length := by
  induction length with
  | zero => exact Nat.zero_le _
  | succ length ih =>
    have few : codesOf lengths length ≤ lengths.length := codesOf_le length
    rw [shorter, Nat.succ_mul]
    omega

theorem Alphabet.shorter_held {lengths : List Nat} {longest length : Nat}
    (alphabet : Alphabet lengths longest) (within : length ≤ longest + 1) :
    shorter lengths length ≤ 5120 := by
  have bound := shorter_le lengths length
  have few := alphabet.few
  have short := alphabet.short
  calc shorter lengths length ≤ length * lengths.length := bound
    _ ≤ 16 * 320 := Nat.mul_le_mul (by omega) few
    _ = 5120 := by decide

theorem Alphabet.firstCode_held {lengths : List Nat} {longest length : Nat}
    (alphabet : Alphabet lengths longest) (within : length ≤ longest + 1) :
    firstCode lengths length ≤ 2 ^ 16 * 640 := by
  have bound : firstCode lengths length + 2 * lengths.length ≤ 2 ^ length * (2 * lengths.length) :=
    firstCode_le length
  have few := alphabet.few
  have short := alphabet.short
  calc firstCode lengths length ≤ 2 ^ length * (2 * lengths.length) := by omega
    _ ≤ 2 ^ 16 * 640 :=
        Nat.mul_le_mul (Nat.pow_le_pow_right (by decide) (by omega)) (by omega)

theorem code_bit (code width : Nat) :
    2 * (code >>> (width + 1)) ||| (code.testBit width).toNat = code >>> width := by
  rw [shiftRight_succ_two code width]
  have small : (code.testBit width).toNat < 2 ^ 1 := by
    cases code.testBit width <;> decide
  rw [show 2 * (code >>> (width + 1)) = 2 ^ 1 * (code >>> (width + 1)) from rfl,
    Nat.two_pow_add_eq_or_of_lt small]

theorem shiftLeft_one (value : Nat) : value <<< 1 = 2 * value := by
  rw [Nat.shiftLeft_eq]
  omega

theorem lowFirst_one (flag : Bool) : lowFirst 1 flag.toNat = [flag] := by
  cases flag <;> rfl

section Walk

variable {lengths : List Nat} {longest symbol length : Nat} {table : HuffmanCode}

theorem code_beyond {level more code : Nat} (positive : 0 < level)
    (above : firstCode lengths (level + more + 1) ≤ code) :
    firstCode lengths level + lengths.count level ≤ code >>> (more + 1) := by
  have passes : 2 ^ (more + 1) * (firstCode lengths level + codesOf lengths level) ≤
      firstCode lengths (level + more + 1) := firstCode_passes level more
  rw [codesOf_positive positive] at passes
  rw [Nat.shiftRight_eq_div_pow, Nat.le_div_iff_mul_le (Nat.two_pow_pos _), Nat.mul_comm]
  omega

/-- The walk, with so many bits of the code to come behind the next one. -/
theorem decodeSymbolFrom_takes (tableOf : TableOf lengths longest table)
    (alphabet : Alphabet lengths longest) (has : lengths[symbol]? = some length)
    (within : length ≤ longest)
    (fits : firstCode lengths length + rank lengths symbol length < 2 ^ length)
    {limit offset level more : Nat} {out : List UInt8} (positive : 0 < level)
    (left : length = level + more) :
    Takes limit offset out
      (decodeSymbolFrom table
        (2 * ((firstCode lengths length + rank lengths symbol length) >>> (more + 1)))
        (firstCode lengths level) (shorter lengths level) level)
      (highFirst (more + 1) (firstCode lengths length + rank lengths symbol length)) symbol out := by
  induction more generalizing limit offset level with
  | zero =>
    obtain rfl : level = length := by omega
    have counted := tableOf.counted (level - 1) (by omega)
    rw [Nat.sub_add_cancel positive] at counted
    have before := rank_lt has
    have room : shorter lengths level + rank lengths symbol level < table.symbols.length := by
      rw [tableOf.room]
      exact place_lt has positive within
    have placed := tableOf.placed symbol level has positive within
    rw [decodeSymbolFrom, if_pos (by rw [tableOf.count]; exact within), highFirst,
      ← List.singleton_append, ← lowFirst_one]
    apply Takes.bind (Takes.takeBits (by decide) _)
    · intro bit
      exact KeepsCut.asked _ _
    · intro _
      apply Takes.asked
      intro inflater _ _
      rw [code_bit, Nat.shiftRight_zero, elementAt_ok counted, orTrap_ok_bind]
      have ahead : ((firstCode lengths level + rank lengths symbol level : Nat) : Int) -
          (firstCode lengths level : Int) = (rank lengths symbol level : Int) := by
        omega
      have place : (shorter lengths level : Int) + (rank lengths symbol level : Int) =
          ((shorter lengths level + rank lengths symbol level : Nat) : Int) := by
        omega
      rw [ahead, if_pos (by omega), place, if_neg (by omega), elementAt_ok placed]
      exact Takes.pure symbol
    · cases (firstCode lengths level + rank lengths symbol level).testBit 0 <;> decide
  | succ more ih =>
    have counted := tableOf.counted (level - 1) (by omega)
    rw [Nat.sub_add_cancel positive] at counted
    have beyond : firstCode lengths level + lengths.count level ≤
        (firstCode lengths length + rank lengths symbol length) >>> (more + 1) := by
      have above : firstCode lengths (level + more + 1) ≤
          firstCode lengths length + rank lengths symbol length := by
        rw [left, ← Nat.add_assoc]
        omega
      exact code_beyond positive above
    have nextIndex : shorter lengths level + lengths.count level = shorter lengths (level + 1) := by
      rw [shorter, codesOf_positive positive]
    have nextFirst : 2 * (firstCode lengths level + lengths.count level) =
        firstCode lengths (level + 1) := by
      rw [firstCode, codesOf_positive positive]
    have indexHeld : shorter lengths (level + 1) ≤ 5120 := alphabet.shorter_held (by omega)
    have firstHeld : firstCode lengths (level + 1) ≤ 2 ^ 16 * 640 :=
      alphabet.firstCode_held (by omega)
    have codeHeld : (firstCode lengths length + rank lengths symbol length) >>> (more + 1) <
        2 ^ 15 := by
      have power : 2 ^ length ≤ 2 ^ 15 :=
        Nat.pow_le_pow_right (by decide) (Nat.le_trans within alphabet.short)
      have shrunk := Nat.shiftRight_le (firstCode lengths length + rank lengths symbol length)
        (more + 1)
      omega
    rw [decodeSymbolFrom, if_pos (by rw [tableOf.count]; omega), highFirst,
      ← List.singleton_append, ← lowFirst_one]
    apply Takes.bind (Takes.takeBits (by decide) _)
    · intro bit
      exact KeepsCut.asked _ _
    · intro _
      apply Takes.asked
      intro inflater _ _
      rw [code_bit, elementAt_ok counted, orTrap_ok_bind, if_neg (by omega),
        heldInt_ok (by omega), orTrap_ok_bind, heldInt_ok (by omega), orTrap_ok_bind,
        shiftLeft_one, heldInt_ok (by omega), orTrap_ok_bind, shiftLeft_one,
        heldInt_ok (by omega), orTrap_ok_bind, nextFirst, nextIndex]
      apply ih
      · exact Nat.succ_pos level
      · omega
    · cases (firstCode lengths length + rank lengths symbol length).testBit (more + 1) <;> decide

theorem Takes.decodeSymbol (tableOf : TableOf lengths longest table)
    (alphabet : Alphabet lengths longest) (bounded : ∀ length ∈ lengths, length ≤ longest)
    {limit offset : Nat} {out : List UInt8} {code : List Bool} (isCode : IsCode lengths symbol code) :
    Takes limit offset out (decodeSymbol table) code symbol out := by
  rcases isCode with ⟨length, has, positive, fits, rfl⟩
  have within := bounded length (List.mem_of_getElem? has)
  have start : 2 * ((firstCode lengths length + rank lengths symbol length) >>> (length - 1 + 1)) =
      0 := by
    rw [Nat.sub_add_cancel positive, Nat.shiftRight_eq_div_pow, Nat.div_eq_of_lt fits]
  have walk : Takes limit offset out (decodeSymbolFrom table _ 0 0 1) _ symbol out :=
    decodeSymbolFrom_takes tableOf alphabet has within fits Nat.one_pos
      (show length = 1 + (length - 1) by omega)
  rw [start, Nat.sub_add_cancel positive] at walk
  exact walk

end Walk

end Compression

end KiraVm
