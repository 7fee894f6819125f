import KiraVm.InflateBlocks

/-!
# Stored blocks and streams

A stored block starts at a byte, which the bits of its inflater tell.  A stream is
taken block by block.
-/

namespace KiraVm

namespace Compression

open Foundation StateLogic BitStrings CanonicalCodes

/-! ## Stored blocks -/

section Stored

variable {limit offset : Nat} {out bytes : List UInt8} {padding bits : List Bool}
  {inflater : Inflater}

/-- The bits in the buffer are those up to the next byte of the input. -/
theorem Stands.aligned (stands : Stands inflater offset out bits) :
    inflater.bitCount = (8 - offset % 8) % 8 := by
  have left := stands.limited
  have placed := stands.placed
  have few := stands.sound.few stands.live
  have within := stands.sound.within
  unfold Inflater.bitsLeft at left
  omega

def storedBytes (bytes : List UInt8) : List UInt8 :=
  [UInt8.ofNat bytes.length, UInt8.ofNat (bytes.length >>> 8),
    UInt8.ofNat (bytes.length ^^^ 65535), UInt8.ofNat ((bytes.length ^^^ 65535) >>> 8)] ++ bytes

theorem bitsOf_storedBytes (bytes : List UInt8) :
    bitsOf (storedBytes bytes) = lowFirst 16 bytes.length ++
      ((lowFirst 16 bytes.length).map not ++ bitsOf bytes) := by
  unfold storedBytes
  rw [lowFirst_complement, ← bitsOf_pair, ← bitsOf_pair, ← bitsOf_append, ← bitsOf_append]
  rfl

theorem getElem?_of_drop {input rest : List UInt8} {pos : Nat} (here : input.drop pos = rest)
    (index : Nat) : input[pos + index]? = rest[index]? := by
  rw [← here, List.getElem?_drop]

/-- Bytes of the input are in the output. -/
def copiedIn (inflater : Inflater) (bytes : List UInt8) : Inflater :=
  { inflater with pos := inflater.pos + bytes.length, output := inflater.output ++ bytes }

theorem copyInput_run {back : List UInt8} (here : inflater.input.drop inflater.pos = bytes ++ back) :
    copyInput bytes.length inflater = .ok () (copiedIn inflater bytes) := by
  induction bytes generalizing inflater with
  | nil =>
    unfold copiedIn
    rw [List.append_nil]
    rfl
  | cons byte bytes ih =>
    have first : inflater.input[inflater.pos]? = some byte := getElem?_of_drop here 0
    have next : (stepped inflater byte).input.drop (stepped inflater byte).pos = bytes ++ back := by
      have after := congrArg List.tail here
      rw [List.tail_drop] at after
      exact after
    rw [List.length_cons, copyInput_step bytes.length first, ih next]
    unfold copiedIn stepped Inflater.appended
    simp only [List.append_assoc, List.singleton_append, List.length_cons, Nat.add_assoc,
      Nat.add_comm 1]

theorem Takes.copyStored (aligned : padding.length = (8 - offset % 8) % 8)
    (short : bytes.length < 2 ^ 16) :
    Takes limit offset out copyStored (padding ++ bitsOf (storedBytes bytes)) () (out ++ bytes) where
  whole := by
    intro inflater rest _ stands
    have spelled := stands.spelled
    have count := stands.aligned
    unfold Inflater.bits at spelled
    rw [List.append_assoc] at spelled
    have parts := List.append_inj spelled (by rw [length_lowFirst, count, aligned])
    rcases bitsOf_front parts.2 with ⟨back, here, rfl⟩
    have bytesHere : (headed inflater).input.drop (headed inflater).pos = bytes ++ back := by
      have after := congrArg (List.drop 4) here
      rw [List.drop_drop] at after
      exact after
    have room : (headed inflater).pos + bytes.length ≤ inflater.input.length := by
      have lengths := congrArg List.length bytesHere
      rw [List.length_drop, List.length_append] at lengths
      have same : (headed inflater).input.length = inflater.input.length := rfl
      have inside : (headed inflater).pos = inflater.pos + 4 := rfl
      have whole := congrArg List.length here
      unfold storedBytes at whole
      rw [List.length_drop, List.length_append, List.length_append] at whole
      simp only [List.length_cons, List.length_nil] at whole
      omega
    have length := joined_pair short
    have complementSmall : bytes.length ^^^ 65535 < 2 ^ 16 :=
      Nat.xor_lt_two_pow short (by decide)
    have complement := joined_pair complementSmall
    have copies := copyInput_run bytesHere
    refine ⟨copiedIn (headed inflater) bytes, ?_, ?_⟩
    · have place : (headed inflater).pos = inflater.pos + 4 := rfl
      rw [copyStored_head (getElem?_of_drop here 0) (getElem?_of_drop here 1)
        (getElem?_of_drop here 2) (getElem?_of_drop here 3), length, complement,
        if_neg (not_not.mpr rfl), if_neg (by omega)]
      exact copies
    · refine ⟨⟨Nat.one_pos, room, fun _ => Nat.succ_pos 7⟩, stands.live, ?_, ?_, ?_⟩
      · exact congrArg (· ++ bytes) stands.output
      · have after := congrArg (List.drop bytes.length) bytesHere
        rw [List.drop_drop, List.drop_left] at after
        exact congrArg bitsOf after
      · have placed := stands.placed
        rw [List.length_append, ← Nat.add_assoc] at placed
        exact placed
  cut := by
    intro inflater front _ before proper stands
    have spelled := stands.spelled
    have count := stands.aligned
    unfold Inflater.bits at spelled
    have size : (storedBytes bytes).length = 4 + bytes.length := by
      unfold storedBytes
      rw [List.length_append]
      rfl
    rcases before with ⟨lacking, whole⟩
    rw [← spelled, List.append_assoc] at whole
    have parts := List.append_inj whole (by rw [length_lowFirst, count, aligned])
    rcases bitsOf_front parts.2.symm with ⟨rest, split, spells⟩
    have some : 0 < rest.length := by
      by_contra none
      rw [List.length_eq_zero_iff.mp (Nat.eq_zero_of_not_pos none), bitsOf_nil] at spells
      rw [spells, List.append_nil] at parts
      apply proper
      rw [← spelled, parts.1, parts.2]
    have sizes := congrArg List.length split
    rw [size, List.length_append, List.length_drop] at sizes
    by_cases headless : inflater.input.length < inflater.pos + 4
    · exact ⟨_, _, copyStored_short headless, rfl, rfl⟩
    · have header : ∀ index, index < 4 →
          inflater.input[inflater.pos + index]? = (storedBytes bytes)[index]? := by
        intro index inside
        rw [split, List.getElem?_append_left (by rw [List.length_drop]; omega),
          List.getElem?_drop]
      have length := joined_pair short
      have complementSmall : bytes.length ^^^ 65535 < 2 ^ 16 :=
        Nat.xor_lt_two_pow short (by decide)
      have complement := joined_pair complementSmall
      refine ⟨(), (headed inflater).failed .truncated, ?_, rfl, rfl⟩
      rw [copyStored_head (header 0 (by decide)) (header 1 (by decide)) (header 2 (by decide))
        (header 3 (by decide)), length, complement, if_neg (not_not.mpr rfl), if_pos (by omega)]
      rfl

end Stored

/-! ## Blocks -/

section Kinds

variable {limit offset kind : Nat} {out after : List UInt8} {bits : List Bool}

theorem fixedLiterals_lengths : fixedLiteralLengthsFrom [] 0 = fixedLiterals := by
  decide +kernel

theorem fixedDistances_lengths : filledInts 32 5 = fixedDistances :=
  rfl

theorem fixed_bounded :
    (∀ length ∈ fixedLiterals, length ≤ 15) ∧ ∀ length ∈ fixedDistances, length ≤ 15 := by
  decide +kernel

theorem Block.kind_small (block : Block 30 offset out kind bits after) : kind < 2 ^ 2 := by
  cases block with
  | stored padding bytes aligned short => decide
  | fixed symbols => decide
  | dynamic literals distances tables symbols => decide

theorem Takes.inflateKind (block : Block 30 offset out kind bits after) :
    Takes limit offset out (inflateKind kind) bits true after := by
  unfold Compression.inflateKind
  cases block with
  | stored padding bytes aligned short =>
    rw [if_pos rfl, ← bitsOf_storedBytes]
    exact Takes.andPure (Takes.copyStored aligned short)
  | fixed symbols =>
    rcases fixedCodes with
      ⟨literalTable, distanceTable, literalBuilt, literalAlphabet, literalsOf, distanceBuilt,
        distanceAlphabet, distancesOf⟩
    rw [fixedLiterals_lengths] at literalAlphabet literalsOf
    rw [fixedDistances_lengths] at distanceAlphabet distancesOf
    rw [if_neg (by decide), if_pos rfl, literalBuilt, orTrap_ok_bind, distanceBuilt,
      orTrap_ok_bind]
    exact Takes.andPure (Takes.inflateBlock literalsOf literalAlphabet fixed_bounded.1
      distancesOf distanceAlphabet fixed_bounded.2 symbols)
  | @dynamic head bits after literals distances tables symbols =>
    rcases huffmanCodeFromLengths_table literals 15 with ⟨literalTable, literalBuilt, literalsOf⟩
    rcases huffmanCodeFromLengths_table distances 15 with
      ⟨distanceTable, distanceBuilt, distancesOf⟩
    rcases tables.alphabets with ⟨literalAlphabet, distanceAlphabet⟩
    rcases tables.bounded with ⟨literalBounded, distanceBounded⟩
    have first : elementAt [literalTable, distanceTable] 0 = .ok literalTable := rfl
    have second : elementAt [literalTable, distanceTable] 1 = .ok distanceTable := rfl
    rw [if_neg (by decide), if_neg (by decide), if_pos rfl]
    apply Takes.bind (Takes.readDynamicTables tables literalBuilt distanceBuilt)
    · intro built
      exact KeepsCut.asked _ _
    · intro _
      apply Takes.asked
      intro inflater _ _
      rw [first, orTrap_ok_bind, second, orTrap_ok_bind]
      exact Takes.andPure (Takes.inflateBlock literalsOf literalAlphabet literalBounded
        distancesOf distanceAlphabet distanceBounded symbols)

end Kinds

/-! ## Streams -/

theorem KeepsCut.runTurns (turns : Nat) (last : Bool) : KeepsCut (runTurns (turns + 1) last) := by
  intro inflater cut
  refine ⟨(), inflater, ?_, cut⟩
  have ended : ¬ (last = false ∧ inflater.stopped = false) := fun going => cut.not_live going.2
  rw [Compression.runTurns, bind_run_ok (get_run inflater), if_neg ended]
  rfl

section Streams

variable {limit offset : Nat} {out after : List UInt8} {bits : List Bool}

theorem Takes.turn {kind turns lastBit : Nat} {middle : List UInt8} {rest : List Bool}
    (block : Block 30 (offset + 3) out kind bits middle) (isBit : lastBit < 2 ^ 1)
    (enough : limit + 2 ≤ turns + 1)
    (others : ∀ {limit : Nat}, limit + 2 ≤ turns →
      Takes limit (offset + 3 + bits.length) middle (runTurns turns (lastBit == 1)) rest () after) :
    Takes limit offset out (runTurns (turns + 1) false)
      (lowFirst 1 lastBit ++ (lowFirst 2 kind ++ (bits ++ rest))) () after := by
  have positive : 1 ≤ turns := by omega
  rw [Compression.runTurns]
  apply Takes.of_get
  intro inflater live _ fits
  rw [if_pos ⟨rfl, live⟩]
  apply Takes.bind (Takes.takeBits (by decide) isBit)
  · intro value
    apply KeepsCut.bind (KeepsCut.takeBits 2)
    intro value
    exact KeepsCut.asked _ _
  · intro lastFits
    apply Takes.bind (Takes.takeBits (by decide) block.kind_small)
    · intro value
      exact KeepsCut.asked _ _
    · intro kindFits
      apply Takes.asked
      intro inflater' _ fits'
      rw [length_lowFirst] at lastFits fits'
      rw [length_lowFirst] at kindFits fits'
      have place : offset + 3 =
          offset + (lowFirst 1 lastBit).length + (lowFirst 2 kind).length := by
        rw [length_lowFirst, length_lowFirst]
      rw [← place]
      apply Takes.bind (Takes.inflateKind block)
      · intro onward
        cases onward with
        | false => exact KeepsCut.pure _
        | true =>
          rw [if_pos rfl]
          cases turns with
          | zero => omega
          | succ turns => exact KeepsCut.runTurns turns _
      · intro blockFits
        rw [if_pos rfl]
        apply others
        omega

theorem Takes.runTurns (stream : Stream 30 offset out bits after) {turns : Nat}
    (enough : limit + 2 ≤ turns) :
    Takes limit offset out (runTurns turns false) bits () after := by
  induction stream generalizing limit turns with
  | @last offset kind out after bits block =>
    cases turns with
    | zero => omega
    | succ turns =>
      rw [← List.append_nil bits]
      apply Takes.turn block (by decide) enough
      intro limit fits
      cases turns with
      | zero => omega
      | succ turns =>
        rw [Compression.runTurns]
        apply Takes.of_get
        intro inflater _ _ _
        exact Takes.pure _
  | @more offset kind out middle after bits rest block others ih =>
    cases turns with
    | zero => omega
    | succ turns =>
      apply Takes.turn block (by decide) enough
      intro limit fits
      exact ih fits

end Streams

end Compression

end KiraVm
