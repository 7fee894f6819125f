import KiraVm.InflateLengths

/-!
# Blocks and streams

Each block of the format is taken, with its bytes appended to the output, and so is a
stream of blocks.
-/

namespace KiraVm

namespace Compression

open Foundation StateLogic BitStrings CanonicalCodes

/-! ## Back references -/

theorem echo_succ (tail : List UInt8) (count : Nat) :
    echo tail (count + 1) = echo tail count ++ [tail.getD (count % tail.length) 0] := by
  unfold echo
  rw [List.range_succ, List.map_append]
  rfl

/-- One byte more of a back reference is a byte that already stands in the output. -/
theorem copied_next {out : List UInt8} {distance : Nat} (positive : 0 < distance)
    (reaches : distance ≤ out.length) (count : Nat) :
    ∃ byte, (copied out distance count)[out.length - distance + count]? = some byte ∧
      copied out distance (count + 1) = copied out distance count ++ [byte] := by
  have size : (out.drop (out.length - distance)).length = distance := by
    rw [List.length_drop]
    omega
  refine ⟨(out.drop (out.length - distance)).getD (count % distance) 0, ?_, ?_⟩
  · unfold copied
    by_cases first : count < distance
    · have inside : out.length - distance + count < out.length := by omega
      have within : count < (out.drop (out.length - distance)).length := by omega
      rw [List.getElem?_append_left inside, Nat.mod_eq_of_lt first, ← List.getElem?_drop,
        List.getElem?_eq_getElem within, List.getD_eq_getElem _ _ within]
    · have place : out.length - distance + count - out.length = count - distance := by omega
      have within : count - distance < count := by omega
      have cycle : (count - distance) % distance = count % distance :=
        (Nat.mod_eq_sub_mod (Nat.not_lt.mp first)).symm
      rw [List.getElem?_append_right (by omega), place]
      unfold echo
      rw [List.getElem?_map, List.getElem?_range within, Option.map_some, size, cycle]
  · unfold copied
    rw [echo_succ, size, List.append_assoc]

/-- Copying byte by byte repeats the tail, also when the copy reaches into itself. -/
theorem Takes.copyOutput {out : List UInt8} {distance : Nat} (positive : 0 < distance)
    (reaches : distance ≤ out.length) (turns count : Nat) {limit offset : Nat} :
    Takes limit offset (copied out distance count)
      (copyOutput (out.length - distance + count) turns) [] ()
      (copied out distance (count + turns)) := by
  induction turns generalizing count limit with
  | zero => exact Takes.pure _
  | succ turns ih =>
    rcases copied_next positive reaches count with ⟨byte, here, next⟩
    rw [Compression.copyOutput]
    apply Takes.of_get
    intro inflater _ output _
    rw [output, byteAt_ok here, orTrap_ok_bind]
    apply Takes.append
    rw [← next, show count + (turns + 1) = count + 1 + turns by omega]
    exact ih (count + 1)

theorem length_ranges : ∀ index, index < 29 →
    deflateLengthBase[index]? = some (lengthRange index).1 ∧
      deflateLengthExtra[index]? = some (lengthRange index).2 ∧ (lengthRange index).2 ≤ 16 := by
  decide

theorem distance_ranges : ∀ symbol, symbol < 30 →
    deflateDistanceBase[symbol]? = some (distanceRange symbol).1 ∧
      deflateDistanceExtra[symbol]? = some (distanceRange symbol).2 ∧
      (distanceRange symbol).2 ≤ 16 ∧ 0 < (distanceRange symbol).1 := by
  decide

section Blocks

variable {literals distances : List Nat} {literalTable distanceTable : HuffmanCode}
  {limit offset : Nat} {out after : List UInt8} {bits : List Bool}

/-- Behind a length code, the rest of a match is read and copied. -/
theorem Takes.copyMatch (distancesOf : TableOf distances 15 distanceTable)
    (alphabet : Alphabet distances 15) (bounded : ∀ length ∈ distances, length ≤ 15)
    {distanceCode : List Bool} {lengthIndex lengthBits distanceSymbol distanceBits : Nat}
    (isLength : lengthIndex < 29) (lengthFits : lengthBits < 2 ^ (lengthRange lengthIndex).2)
    (isDistance : distanceSymbol < 30) (isCode : IsCode distances distanceSymbol distanceCode)
    (distanceFits : distanceBits < 2 ^ (distanceRange distanceSymbol).2)
    (reaches : (distanceRange distanceSymbol).1 + distanceBits ≤ out.length) :
    Takes limit offset out (copyMatch distanceTable (257 + lengthIndex))
      (lowFirst (lengthRange lengthIndex).2 lengthBits ++
        (distanceCode ++ lowFirst (distanceRange distanceSymbol).2 distanceBits)) ()
      (copied out ((distanceRange distanceSymbol).1 + distanceBits)
        ((lengthRange lengthIndex).1 + lengthBits)) := by
  rcases length_ranges lengthIndex isLength with ⟨lengthBase, lengthExtra, lengthSmall⟩
  rcases distance_ranges distanceSymbol isDistance with
    ⟨distanceBase, distanceExtra, distanceSmall, positive⟩
  have anyDistance : 1 ≤ distanceTable.counts.length := by
    rw [distancesOf.count]
    decide
  have lengthInside : ¬ deflateLengthBase.length ≤ lengthIndex := Nat.not_le.mpr isLength
  have distanceInside : ¬ deflateDistanceBase.length ≤ distanceSymbol :=
    Nat.not_le.mpr isDistance
  unfold Compression.copyMatch
  rw [Nat.add_sub_cancel_left, if_neg lengthInside, elementAt_ok lengthBase, orTrap_ok_bind,
    elementAt_ok lengthExtra, orTrap_ok_bind]
  apply Takes.bind (Takes.takeBits lengthSmall lengthFits)
  · intro value
    apply KeepsCut.bind (KeepsCut.decodeSymbol anyDistance)
    intro symbol
    exact KeepsCut.asked _ _
  · intro _
    apply Takes.bind (Takes.decodeSymbol distancesOf alphabet bounded isCode)
    · intro symbol
      exact KeepsCut.asked _ _
    · intro _
      apply Takes.asked
      intro inflater _ _
      rw [if_neg distanceInside, elementAt_ok distanceBase, orTrap_ok_bind,
        elementAt_ok distanceExtra, orTrap_ok_bind]
      apply Takes.congr _ (List.append_nil _)
      apply Takes.bind (Takes.takeBits distanceSmall distanceFits)
      · intro value
        exact KeepsCut.asked _ _
      · intro _
        apply Takes.asked
        intro inflater' output _
        rw [output, if_neg (by omega)]
        have start : ((out.length : Int) -
            (((distanceRange distanceSymbol).1 + distanceBits : Nat) : Int)).toNat =
            out.length - ((distanceRange distanceSymbol).1 + distanceBits) + 0 := by
          omega
        have begins : copied out ((distanceRange distanceSymbol).1 + distanceBits) 0 = out :=
          List.append_nil out
        rw [start]
        have copies : ∀ {limit offset : Nat}, Takes limit offset
            (copied out ((distanceRange distanceSymbol).1 + distanceBits) 0) _ [] () _ :=
          Takes.copyOutput (by omega) reaches ((lengthRange lengthIndex).1 + lengthBits) 0
        rw [begins, Nat.zero_add] at copies
        exact copies

theorem KeepsCut.inflateBlockTurns (turns : Nat) :
    KeepsCut (inflateBlockTurns literalTable distanceTable (turns + 1)) := by
  rw [Compression.inflateBlockTurns]
  exact KeepsCut.asked _ _

theorem Takes.inflateBlockTurns (literalsOf : TableOf literals 15 literalTable)
    (literalAlphabet : Alphabet literals 15) (literalBounded : ∀ length ∈ literals, length ≤ 15)
    (distancesOf : TableOf distances 15 distanceTable)
    (distanceAlphabet : Alphabet distances 15)
    (distanceBounded : ∀ length ∈ distances, length ≤ 15)
    (symbols : Symbols literals distances out bits after) {turns : Nat}
    (enough : limit + 2 ≤ turns) :
    Takes limit offset out (inflateBlockTurns literalTable distanceTable turns) bits () after := by
  induction symbols generalizing limit offset turns with
  | @stop out code isCode =>
    cases turns with
    | zero => omega
    | succ turns =>
      rw [Compression.inflateBlockTurns]
      apply Takes.asked
      intro inflater _ _
      apply Takes.congr _ (List.append_nil code)
      apply Takes.bind (Takes.decodeSymbol literalsOf literalAlphabet literalBounded isCode)
      · intro symbol
        exact KeepsCut.asked _ _
      · intro _
        apply Takes.asked
        intro inflater' _ _
        rw [if_neg (by decide), if_pos rfl]
        exact Takes.pure _
  | @literal out after code bits byte isCode more ih =>
    have some := isCode.positive
    cases turns with
    | zero => omega
    | succ turns =>
      rw [Compression.inflateBlockTurns]
      apply Takes.asked
      intro inflater _ fits
      apply Takes.bind (Takes.decodeSymbol literalsOf literalAlphabet literalBounded isCode)
      · intro symbol
        exact KeepsCut.asked _ _
      · intro codeFits
        apply Takes.asked
        intro inflater' _ fits'
        have small : byte.toNat < 256 := UInt8.toNat_lt byte
        have narrow : u8Of byte.toNat = .ok byte := by
          unfold u8Of
          rw [if_pos small, UInt8.ofNat_toNat]
        rw [if_pos small, narrow, orTrap_ok_bind]
        apply Takes.append
        apply ih
        omega
  | @copy out after lengthCode distanceCode bits lengthIndex lengthBits distanceSymbol distanceBits
      isLength isCode lengthFits isDistance isCode' distanceFits reaches more ih =>
      have some := isCode.positive
      cases turns with
      | zero => omega
      | succ turns =>
        rw [Compression.inflateBlockTurns]
        apply Takes.asked
        intro inflater _ fits
        apply Takes.bind (Takes.decodeSymbol literalsOf literalAlphabet literalBounded isCode)
        · intro symbol
          exact KeepsCut.asked _ _
        · intro codeFits
          apply Takes.asked
          intro inflater' _ fits'
          have matched := @Takes.copyMatch _ _ inflater'.bitsLeft (offset + lengthCode.length) _
            distancesOf distanceAlphabet distanceBounded _ _ _ _ _ isLength lengthFits isDistance
            isCode' distanceFits reaches
          have large : ¬ 257 + lengthIndex < 256 := by omega
          have other : ¬ 257 + lengthIndex = 256 := by omega
          rw [if_neg large, if_neg other]
          generalize Compression.copyMatch distanceTable (257 + lengthIndex) = operation at matched ⊢
          rw [← List.append_assoc distanceCode, ← List.append_assoc]
          apply Takes.bind matched
          · intro _
            cases turns with
            | zero => omega
            | succ turns => exact KeepsCut.inflateBlockTurns turns
          · intro _
            apply ih
            omega

/-- A block of codes is read as the symbols that the two alphabets spell. -/
theorem Takes.inflateBlock (literalsOf : TableOf literals 15 literalTable)
    (literalAlphabet : Alphabet literals 15) (literalBounded : ∀ length ∈ literals, length ≤ 15)
    (distancesOf : TableOf distances 15 distanceTable)
    (distanceAlphabet : Alphabet distances 15)
    (distanceBounded : ∀ length ∈ distances, length ≤ 15)
    (symbols : Symbols literals distances out bits after) :
    Takes limit offset out (inflateBlock literalTable distanceTable) bits () after := by
  apply Takes.of_get
  intro inflater _ _ _
  exact Takes.inflateBlockTurns literalsOf literalAlphabet literalBounded distancesOf
    distanceAlphabet distanceBounded symbols (Nat.le_refl _)

end Blocks

end Compression

end KiraVm
