import KiraVm.InflateSafety

/-!
# The decoder answers

Every input is answered: the loops of the tables, of the symbols of a block and of the
blocks of a stream stay within their arrays and end.
-/

namespace KiraVm

namespace Compression

open Foundation StateLogic BitStrings CanonicalCodes

/-! ## Dynamic tables -/

theorem codeLengthOrder_places : ∀ index, index < 19 →
    ∃ symbol, symbol < 19 ∧ codeLengthOrder[index]? = some symbol := by
  decide

theorem Total.readCodeLengths (codeLengths : List Nat) (index turns : Nat)
    (whole : codeLengths.length = 19) (within : index + turns ≤ 19) :
    Total (readCodeLengths codeLengths index turns) 0 fun all _ => all.length = 19 := by
  induction turns generalizing codeLengths index with
  | zero => exact Total.pure fun _ => whole
  | succ turns ih =>
    rcases codeLengthOrder_places index (by omega) with ⟨symbol, bounded, here⟩
    rw [Compression.readCodeLengths, elementAt_ok here, orTrap_ok_bind]
    apply @Total.bind _ _ _ _ _ _ 0 0
      ((Total.takeBits (by decide)).weaken (Nat.zero_le 3) fun _ _ has => has)
    intro length _ _
    rw [putAt_ok (by omega), orTrap_ok_bind]
    apply ih
    · rw [List.length_set]
      exact whole
    · omega

theorem repeatLength_ok (value : Nat) (lengths : List Nat) (written count : Nat)
    (within : written + count ≤ lengths.length) :
    ∃ all, repeatLength value lengths written count = .ok all ∧ all.length = lengths.length := by
  induction count generalizing lengths written with
  | zero => exact ⟨lengths, rfl, rfl⟩
  | succ count ih =>
    rcases ih (lengths.set written value) (written + 1) (by rw [List.length_set]; omega) with
      ⟨all, ran, same⟩
    rw [List.length_set] at same
    refine ⟨all, ?_, same⟩
    rw [repeatLength, putAt_ok (by omega), ok_bind]
    exact ran

theorem Total.readRepeat (symbol : Nat) (lengths : List Nat) (written : Nat)
    (within : written ≤ lengths.length) :
    Total (readRepeat symbol lengths written) 0 fun answer stopped =>
      match answer with
      | none => stopped = true
      | some (_, count) => 0 < count := by
  unfold Compression.readRepeat
  split
  · split
    · exact Total.failing _ rfl
    · rename_i positive
      have place : (written : Int) - 1 = ((written - 1 : Nat) : Int) := by omega
      rw [place, elementAt_inside (by omega), orTrap_ok_bind]
      apply @Total.bind _ _ _ _ _ _ 0 0
        ((Total.takeBits (by decide)).weaken (Nat.zero_le 2) fun _ _ has => has)
      intro more _ _
      exact Total.pure fun _ => by simp only; omega
  · split
    · apply @Total.bind _ _ _ _ _ _ 0 0
        ((Total.takeBits (by decide)).weaken (Nat.zero_le 3) fun _ _ has => has)
      intro more _ _
      exact Total.pure fun _ => by simp only; omega
    · apply @Total.bind _ _ _ _ _ _ 0 0
        ((Total.takeBits (by decide)).weaken (Nat.zero_le 7) fun _ _ has => has)
      intro more _ _
      exact Total.pure fun _ => by simp only; omega

/-- The lengths that are answered are all of them, and there are none after a failure. -/
def WholeOrStopped (total : Nat) (answer : Option (List Nat)) (stopped : Bool) : Prop :=
  match answer with
  | none => stopped = true
  | some lengths => lengths.length = total

section Lengths

variable {codeLengths : List Nat} {table : HuffmanCode}

theorem Total.readLengthsFrom (tableOf : TableOf codeLengths 7 table)
    (alphabet : Alphabet codeLengths 7) (turns : Nat) (lengths : List Nat) (written : Nat)
    (enough : lengths.length < written + turns) (positive : 0 < turns) :
    Total (readLengthsFrom table turns lengths written) 0 (WholeOrStopped lengths.length) := by
  induction turns generalizing lengths written with
  | zero => omega
  | succ turns ih =>
    rw [Compression.readLengthsFrom]
    split
    · rename_i room
      apply @Total.bind _ _ _ _ _ _ 0 0
        ((Total.decodeSymbol tableOf alphabet).weaken (Nat.zero_le 1) fun _ _ has => has)
      intro symbol _ _
      apply Total.asked (by exact rfl)
      intro inflater sound live
      split
      · rw [putAt_ok room, orTrap_ok_bind]
        have rest := ih (lengths.set written symbol) (written + 1)
          (by rw [List.length_set]; omega) (by omega)
        rw [List.length_set] at rest
        exact rest inflater sound
      · have whole : Total (Compression.readRepeat symbol lengths written >>= fun repeated =>
            match repeated with
            | none => Pure.pure none
            | some (value, count) => do
              let self ← get
              if self.stopped then Pure.pure none
              else if lengths.length < written + count then do
                Compression.fail .malformed
                Pure.pure none
              else do
                let lengths ← orTrap (repeatLength value lengths written count)
                Compression.readLengthsFrom table turns lengths (written + count)) (0 + 0)
            (WholeOrStopped lengths.length) := by
          apply Total.bindAt (Total.readRepeat symbol lengths written (by omega))
          intro repeated after soundAfter has
          cases repeated with
          | none => exact ⟨Reached.refl soundAfter, has⟩
          | some pair =>
            rcases pair with ⟨value, count⟩
            have counted : 0 < count := has
            refine Total.asked (by exact rfl) ?_ after soundAfter
            intro inflater' sound' _
            split
            · have stops : WholeOrStopped lengths.length none true := rfl
              exact Total.failing .malformed stops inflater' sound'
            · rename_i fits
              rcases repeatLength_ok value lengths written count (by omega) with
                ⟨all, ran, same⟩
              rw [ran, orTrap_ok_bind]
              have rest := ih all (written + count) (by omega) (by omega)
              rw [same] at rest
              exact rest inflater' sound'
        exact whole inflater sound
    · exact Total.pure fun _ => rfl

theorem readLengthsFrom_whole (tableOf : TableOf codeLengths 7 table)
    (alphabet : Alphabet codeLengths 7) {lengths : List Nat} {written total : Nat}
    (size : lengths.length = total) {inflater next : Inflater} {answer : Option (List Nat)}
    (sound : Sound inflater)
    (ran : readLengthsFrom table (total + 1) lengths written inflater = .ok answer next) :
    ∀ all, answer = some all → all.length = total := by
  have answers := Total.readLengthsFrom tableOf alphabet (total + 1) lengths written
    (by omega) (Nat.succ_pos _) inflater sound
  rw [ran] at answers
  rintro all rfl
  exact answers.2.trans size

end Lengths

theorem lengthsBetween_take (lengths : List Nat) (index stop : Nat)
    (within : stop ≤ lengths.length) :
    lengthsBetween lengths index stop = .ok ((lengths.drop index).take (stop - index)) := by
  induction left : stop - index generalizing index with
  | zero =>
    rw [lengthsBetween, if_neg (by omega), List.take_zero]
  | succ left ih =>
    have inside : index < lengths.length := by omega
    rw [lengthsBetween, if_pos (by omega), elementAt_inside inside, ok_bind,
      ih (index + 1) (by omega), ok_bind, List.drop_eq_getElem_cons inside, List.take_succ_cons]
    rfl

/-- The tables of both alphabets. -/
def Built (tables : List HuffmanCode) : Prop :=
  ∃ literals distances literalTable distanceTable, tables = [literalTable, distanceTable] ∧
    Alphabet literals 15 ∧ TableOf literals 15 literalTable ∧
    Alphabet distances 15 ∧ TableOf distances 15 distanceTable

theorem Total.readDynamicTables :
    Total readDynamicTables 0 fun tables stopped => stopped = false → Built tables := by
  unfold Compression.readDynamicTables
  apply @Total.bind _ _ _ _ _ _ 0 0
    ((Total.takeBits (by decide)).weaken (Nat.zero_le 5) fun _ _ has => has)
  intro literalBits _ literalSmall
  apply @Total.bind _ _ _ _ _ _ 0 0
    ((Total.takeBits (by decide)).weaken (Nat.zero_le 5) fun _ _ has => has)
  intro distanceBits _ distanceSmall
  apply @Total.bind _ _ _ _ _ _ 0 0
    ((Total.takeBits (by decide)).weaken (Nat.zero_le 4) fun _ _ has => has)
  intro lengthBits _ lengthSmall
  apply Total.asked (by intro live; cases live)
  intro inflater sound _
  split
  · refine @Total.failing _ _ 0 .malformed _ ?_ inflater sound
    intro live
    cases live
  · rename_i allowed
    refine @answers_bind _ _ _ _ _ _ 0 0 _ (Total.readCodeLengths (filledInts 19 0) 0
      (lengthBits + 4) rfl (by omega) inflater sound) ?_
    intro codeLengths after reached whole
    refine Total.asked (by intro live; cases live) ?_ after reached.sound
    intro inflater' sound' _
    rcases huffmanCodeFromLengths_table codeLengths 7 with ⟨table, built, tableOf⟩
    have alphabet : Alphabet codeLengths 7 := ⟨by omega, by decide⟩
    rw [built, orTrap_ok_bind]
    have read := Total.readLengthsFrom tableOf alphabet
      (literalBits + 257 + (distanceBits + 1) + 1)
      (filledInts (literalBits + 257 + (distanceBits + 1)) 0) 0
      (by unfold filledInts; rw [List.length_replicate]; omega) (by omega) inflater' sound'
    refine @answers_bind _ _ _ _ _ _ 0 0 _ read ?_
    intro answer last reached' has
    cases answer with
    | none =>
      refine ⟨Reached.refl reached'.sound, ?_⟩
      intro live
      have stopped : last.stopped = true := has
      rw [live] at stopped
      cases stopped
    | some lengths =>
      have size : lengths.length = literalBits + 257 + (distanceBits + 1) := by
        have same : lengths.length = (filledInts _ 0).length := has
        unfold filledInts at same
        rw [List.length_replicate] at same
        exact same
      rcases huffmanCodeFromLengths_table
        ((lengths.drop 0).take (literalBits + 257 - 0)) 15 with
        ⟨literalTable, builtLiterals, literalsOf⟩
      rcases huffmanCodeFromLengths_table
        ((lengths.drop (literalBits + 257)).take (lengths.length - (literalBits + 257))) 15 with
        ⟨distanceTable, builtDistances, distancesOf⟩
      simp only
      rw [lengthsBetween_take lengths 0 (literalBits + 257) (by omega), orTrap_ok_bind,
        lengthsBetween_take lengths (literalBits + 257) lengths.length (Nat.le_refl _),
        orTrap_ok_bind, builtLiterals, orTrap_ok_bind, builtDistances, orTrap_ok_bind]
      refine ⟨Reached.refl reached'.sound, fun _ => ⟨_, _, literalTable, distanceTable, rfl,
        ⟨?_, Nat.le_refl 15⟩, literalsOf, ⟨?_, Nat.le_refl 15⟩, distancesOf⟩⟩
      · rw [List.length_take, List.length_drop]
        omega
      · rw [List.length_take, List.length_drop]
        omega

/-! ## Blocks -/

variable {inflater : Inflater} {byte : UInt8} {spent : Nat}

theorem appended_sound (sound : Sound inflater) (byte : UInt8) : Sound (inflater.appended byte) :=
  ⟨sound.small, sound.within, sound.few⟩

theorem Reached.appended {next : Inflater} (reached : Reached (inflater.appended byte) next spent) :
    Reached inflater next spent :=
  ⟨reached.sound, reached.fewer, reached.went⟩

theorem answers_through {α : Type} {earlier : Inflater} {holds : α → Bool → Prop}
    {result : EStateM.Result KiraTrap Inflater α}
    (through : ∀ next, Reached inflater next spent → Reached earlier next spent)
    (answers : Answers inflater spent holds result) : Answers earlier spent holds result := by
  cases result with
  | ok value next => exact ⟨through next answers.1, answers.2⟩
  | error trap next => exact answers

theorem answers_appended {α : Type} {holds : α → Bool → Prop}
    {result : EStateM.Result KiraTrap Inflater α}
    (answers : Answers (inflater.appended byte) spent holds result) :
    Answers inflater spent holds result :=
  answers_through (fun _ reached => reached.appended) answers

theorem copyOutput_answers (start turns : Nat) (inflater : Inflater) (sound : Sound inflater)
    (behind : start < inflater.output.length) :
    Answers inflater 0 (fun _ _ => True) (copyOutput start turns inflater) := by
  induction turns generalizing start inflater with
  | zero => exact ⟨Reached.refl sound, trivial⟩
  | succ turns ih =>
    rw [copyOutput, bind_run_ok (get_run inflater), byteAt_inside behind, orTrap_ok_bind]
    have later := ih (start + 1) (inflater.appended inflater.output[start])
      (appended_sound sound _)
      (by simp only [Inflater.appended, List.length_append, List.length_singleton]; omega)
    exact answers_appended later

theorem deflateLengthExtra_small {index : Nat} (inside : index < deflateLengthBase.length) :
    ∃ base extra, deflateLengthBase[index]? = some base ∧
      deflateLengthExtra[index]? = some extra ∧ extra ≤ 16 := by
  have small : ∀ extra ∈ deflateLengthExtra, extra ≤ 16 := by decide
  have within : index < deflateLengthExtra.length := inside
  exact ⟨_, _, List.getElem?_eq_getElem inside, List.getElem?_eq_getElem within,
    small _ (List.getElem_mem within)⟩

theorem deflateDistanceExtra_small {symbol : Nat} (inside : symbol < deflateDistanceBase.length) :
    ∃ base extra, deflateDistanceBase[symbol]? = some base ∧
      deflateDistanceExtra[symbol]? = some extra ∧ 0 < base ∧ extra ≤ 16 := by
  have positive : ∀ base ∈ deflateDistanceBase, 0 < base := by decide
  have small : ∀ extra ∈ deflateDistanceExtra, extra ≤ 16 := by decide
  have within : symbol < deflateDistanceExtra.length := inside
  exact ⟨_, _, List.getElem?_eq_getElem inside, List.getElem?_eq_getElem within,
    positive _ (List.getElem_mem inside), small _ (List.getElem_mem within)⟩

section Blocks

variable {literals distances : List Nat} {literalTable distanceTable : HuffmanCode}

theorem Total.copyMatch (distancesOf : TableOf distances 15 distanceTable)
    (alphabet : Alphabet distances 15) (symbol : Nat) :
    Total (copyMatch distanceTable symbol) 0 fun _ _ => True := by
  unfold Compression.copyMatch
  generalize symbol - 257 = lengthIndex
  by_cases beyond : deflateLengthBase.length ≤ lengthIndex
  · rw [if_pos beyond]
    exact (Total.fail .malformed).weaken (Nat.le_refl 0) fun _ _ _ => trivial
  · rw [if_neg beyond]
    rcases deflateLengthExtra_small (Nat.not_le.mp beyond) with
      ⟨base, extra, hasBase, hasExtra, small⟩
    rw [elementAt_ok hasBase, orTrap_ok_bind, elementAt_ok hasExtra, orTrap_ok_bind]
    apply @Total.bind _ _ _ _ _ _ 0 0
      ((Total.takeBits small).weaken (Nat.zero_le _) fun _ _ has => has)
    intro lengthBits _ _
    apply @Total.bind _ _ _ _ _ _ 0 0
      ((Total.decodeSymbol distancesOf alphabet).weaken (Nat.zero_le 1) fun _ _ has => has)
    intro distanceSymbol _ _
    apply Total.asked trivial
    intro inflater sound _
    by_cases overDistance : deflateDistanceBase.length ≤ distanceSymbol
    · rw [if_pos overDistance]
      exact (Total.fail .malformed).weaken (Nat.le_refl 0) (fun _ _ _ => trivial) inflater sound
    · rw [if_neg overDistance]
      rcases deflateDistanceExtra_small (Nat.not_le.mp overDistance) with
        ⟨distanceBase, distanceExtra, hasDistance, hasDistanceExtra, positive, smallDistance⟩
      rw [elementAt_ok hasDistance, orTrap_ok_bind, elementAt_ok hasDistanceExtra, orTrap_ok_bind]
      refine @answers_bind _ _ _ _ _ _ 0 0 _ ((Total.takeBits smallDistance).weaken
        (Nat.zero_le _) (fun _ _ has => has) inflater sound) ?_
      intro distanceBits after reached _
      refine Total.asked trivial ?_ after reached.sound
      intro inflater' sound' _
      by_cases behind : ((inflater'.output.length : Int) -
          ((distanceBase + distanceBits : Nat) : Int)) < 0
      · rw [if_pos behind]
        exact (Total.fail .malformed).weaken (Nat.le_refl 0) (fun _ _ _ => trivial) inflater'
          sound'
      · rw [if_neg behind]
        exact copyOutput_answers _ _ inflater' sound' (by omega)

theorem inflateBlockTurns_answers (literalsOf : TableOf literals 15 literalTable)
    (literalAlphabet : Alphabet literals 15) (distancesOf : TableOf distances 15 distanceTable)
    (distanceAlphabet : Alphabet distances 15) (turns : Nat) (inflater : Inflater)
    (sound : Sound inflater) (positive : 0 < turns)
    (enough : inflater.stopped = false → inflater.bitsLeft + 2 ≤ turns) :
    Answers inflater 0 (fun _ _ => True)
      (inflateBlockTurns literalTable distanceTable turns inflater) := by
  induction turns generalizing inflater with
  | zero => omega
  | succ turns ih =>
    rw [inflateBlockTurns, bind_run_ok (get_run inflater)]
    by_cases stopped : inflater.stopped = true
    · rw [if_pos stopped]
      exact ⟨Reached.refl sound, trivial⟩
    · have fits := enough (Bool.eq_false_iff.mpr stopped)
      rw [if_neg stopped]
      refine answers_weaken (@answers_bind _ _ _ _ _ (fun _ _ => True) 1 0 _
        (Total.decodeSymbol literalsOf literalAlphabet inflater sound) ?_) (Nat.zero_le 1)
        (fun _ _ has => has)
      intro symbol after reached _
      rw [bind_run_ok (get_run after)]
      by_cases ended : after.stopped = true
      · rw [if_pos ended]
        exact ⟨Reached.refl reached.sound, trivial⟩
      · have went := reached.went (Bool.eq_false_iff.mpr ended)
        rw [if_neg ended]
        by_cases literal : symbol < 256
        · have narrow : u8Of symbol = .ok (UInt8.ofNat symbol) := by
            unfold u8Of
            rw [if_pos literal]
          rw [if_pos literal, narrow, orTrap_ok_bind]
          apply answers_appended
          exact ih (after.appended (UInt8.ofNat symbol)) (appended_sound reached.sound _)
            (by omega) (fun _ => by
              have same : (after.appended (UInt8.ofNat symbol)).bitsLeft = after.bitsLeft := rfl
              omega)
        · rw [if_neg literal]
          by_cases stop : symbol = 256
          · rw [if_pos stop]
            exact ⟨Reached.refl reached.sound, trivial⟩
          · rw [if_neg stop]
            have matched := @Total.copyMatch _ _ distancesOf distanceAlphabet symbol
            generalize copyMatch distanceTable symbol = operation at matched ⊢
            apply @answers_bind _ _ _ _ _ _ 0 0 _ (matched after reached.sound)
            intro _ later reachedLater _
            apply ih later reachedLater.sound
            · omega
            · intro _
              have fewer := reachedLater.fewer
              omega

theorem Total.inflateBlock (literalsOf : TableOf literals 15 literalTable)
    (literalAlphabet : Alphabet literals 15) (distancesOf : TableOf distances 15 distanceTable)
    (distanceAlphabet : Alphabet distances 15) :
    Total (inflateBlock literalTable distanceTable) 0 fun _ _ => True :=
  fun inflater sound => inflateBlockTurns_answers literalsOf literalAlphabet distancesOf
    distanceAlphabet (inflater.bitsLeft + 2) inflater sound (Nat.succ_pos _)
    fun _ => Nat.le_refl _

end Blocks

/-! ## Stored blocks -/

theorem shortAt_ok {input : List UInt8} {pos : Nat} {low high : UInt8}
    (hasLow : input[pos]? = some low) (hasHigh : input[pos + 1]? = some high) :
    shortAt input pos = .ok (low.toNat ||| high.toNat <<< 8) := by
  unfold shortAt
  rw [byteAt_ok hasLow, ok_bind, byteAt_ok hasHigh, ok_bind]
  rfl

/-- A byte of a stored block is copied. -/
def stepped (inflater : Inflater) (byte : UInt8) : Inflater :=
  { inflater.appended byte with pos := inflater.pos + 1 }

theorem copyInput_step (turns : Nat) (here : inflater.input[inflater.pos]? = some byte) :
    copyInput (turns + 1) inflater = copyInput turns (stepped inflater byte) := by
  rw [copyInput, bind_run_ok (get_run inflater), byteAt_ok here, orTrap_ok_bind]
  rfl

theorem copyInput_answers (turns : Nat) (inflater : Inflater) (sound : Sound inflater)
    (within : inflater.pos + turns ≤ inflater.input.length) :
    Answers inflater 0 (fun _ _ => True) (copyInput turns inflater) := by
  induction turns generalizing inflater with
  | zero => exact ⟨Reached.refl sound, trivial⟩
  | succ turns ih =>
    have inside : inflater.pos < inflater.input.length := by omega
    have here := List.getElem?_eq_getElem inside
    rw [copyInput_step turns here]
    have later := ih (stepped inflater inflater.input[inflater.pos])
      ⟨sound.small, inside, sound.few⟩ (by
        have next : inflater.pos + 1 + turns ≤ inflater.input.length := by omega
        exact next)
    have fewer : (stepped inflater inflater.input[inflater.pos]).bitsLeft ≤
        inflater.bitsLeft := by
      unfold stepped Inflater.bitsLeft Inflater.appended
      simp only
      omega
    apply answers_through _ later
    intro next reached
    exact ⟨reached.sound, Nat.le_trans reached.fewer fewer, fun live =>
      ⟨(reached.went live).1, Nat.le_trans (reached.went live).2 fewer⟩⟩

/-- The bits up to the next byte are passed over. -/
def cleared (inflater : Inflater) : Inflater :=
  { inflater with bitBuffer := 0, bitCount := 0 }

/-- The head of a stored block is passed over. -/
def headed (inflater : Inflater) : Inflater :=
  { cleared inflater with pos := inflater.pos + 4 }

theorem clearing_run (inflater : Inflater) :
    (modify fun self : Inflater => { self with bitBuffer := 0, bitCount := 0 } : OnInflater PUnit)
      inflater = .ok ⟨⟩ (cleared inflater) :=
  rfl

theorem heading_run (inflater : Inflater) :
    (modify fun self : Inflater => { self with pos := self.pos + 4 } : OnInflater PUnit)
      (cleared inflater) = .ok ⟨⟩ (headed inflater) :=
  rfl

theorem copyStored_short (short : inflater.input.length < inflater.pos + 4) :
    copyStored inflater = .ok () ((cleared inflater).failed .truncated) := by
  have lacking : (cleared inflater).input.length < (cleared inflater).pos + 4 := short
  unfold copyStored
  rw [bind_run_ok (clearing_run inflater), bind_run_ok (get_run (cleared inflater)),
    if_pos lacking]
  rfl

theorem copyStored_head {first second third fourth : UInt8}
    (hasFirst : inflater.input[inflater.pos]? = some first)
    (hasSecond : inflater.input[inflater.pos + 1]? = some second)
    (hasThird : inflater.input[inflater.pos + 2]? = some third)
    (hasFourth : inflater.input[inflater.pos + 2 + 1]? = some fourth) :
    copyStored inflater =
      (if (first.toNat ||| second.toNat <<< 8) ^^^ 65535 ≠ third.toNat ||| fourth.toNat <<< 8 then
        fail .malformed
      else if inflater.input.length < inflater.pos + 4 + (first.toNat ||| second.toNat <<< 8) then
        fail .truncated
      else copyInput (first.toNat ||| second.toNat <<< 8)) (headed inflater) := by
  have long : ¬ (cleared inflater).input.length < (cleared inflater).pos + 4 := by
    have inside := (List.getElem?_eq_some_iff.mp hasFourth).1
    have same : (cleared inflater).input.length = inflater.input.length := rfl
    have place : (cleared inflater).pos = inflater.pos := rfl
    omega
  have length := shortAt_ok hasFirst hasSecond
  have complement := shortAt_ok hasThird hasFourth
  have lengthAfter : shortAt (cleared inflater).input (cleared inflater).pos = _ := length
  have complementAfter : shortAt (cleared inflater).input ((cleared inflater).pos + 2) = _ :=
    complement
  unfold copyStored
  rw [bind_run_ok (clearing_run inflater), bind_run_ok (get_run (cleared inflater)), if_neg long,
    lengthAfter, orTrap_ok_bind, complementAfter, orTrap_ok_bind,
    bind_run_ok (heading_run inflater)]
  split
  · rfl
  · rw [bind_run_ok (get_run (headed inflater))]
    rfl

theorem reached_headed {next : Inflater} (reached : Reached (headed inflater) next spent) :
    Reached inflater next spent := by
  have fewer : (headed inflater).bitsLeft ≤ inflater.bitsLeft := by
    unfold headed cleared Inflater.bitsLeft
    simp only
    omega
  refine ⟨reached.sound, Nat.le_trans reached.fewer fewer, ?_⟩
  intro live
  have went := reached.went live
  exact ⟨went.1, Nat.le_trans went.2 fewer⟩

theorem Total.copyStored : Total copyStored 0 fun _ _ => True := by
  intro inflater sound
  by_cases short : inflater.input.length < inflater.pos + 4
  · rw [copyStored_short short]
    refine ⟨⟨⟨?_, sound.within, ?_⟩, ?_, ?_⟩, trivial⟩
    · exact Nat.one_pos
    · intro live
      cases live
    · unfold cleared Inflater.failed Inflater.bitsLeft
      simp only
      omega
    · intro live
      cases live
  · have soundHead : Sound (headed inflater) := by
      refine ⟨Nat.one_pos, ?_, fun _ => Nat.succ_pos 7⟩
      unfold headed cleared
      simp only
      omega
    rw [copyStored_head (List.getElem?_eq_getElem (show inflater.pos < _ by omega))
      (List.getElem?_eq_getElem (show inflater.pos + 1 < _ by omega))
      (List.getElem?_eq_getElem (show inflater.pos + 2 < _ by omega))
      (List.getElem?_eq_getElem (show inflater.pos + 2 + 1 < _ by omega))]
    generalize (inflater.input[inflater.pos].toNat ||| inflater.input[inflater.pos + 1].toNat <<< 8)
      = length
    have answered : Answers (headed inflater) 0 (fun _ _ => True)
        ((if length ^^^ 65535 ≠ inflater.input[inflater.pos + 2].toNat |||
            inflater.input[inflater.pos + 2 + 1].toNat <<< 8 then Compression.fail .malformed
          else if inflater.input.length < inflater.pos + 4 + length then Compression.fail .truncated
          else copyInput length) (headed inflater)) := by
      split
      · exact (Total.fail .malformed).weaken (Nat.le_refl 0) (fun _ _ _ => trivial) _ soundHead
      · split
        · exact (Total.fail .truncated).weaken (Nat.le_refl 0) (fun _ _ _ => trivial) _ soundHead
        · rename_i fits
          exact copyInput_answers length (headed inflater) soundHead (Nat.not_lt.mp fits)
    exact answers_through (fun _ reached => reached_headed reached) answered

/-! ## Streams -/

theorem length_fixedLiterals : (fixedLiteralLengthsFrom [] 0).length = 288 := by
  decide +kernel

theorem fixedCodes : ∃ literalTable distanceTable,
    fixedLiteralCode = .ok literalTable ∧ Alphabet (fixedLiteralLengthsFrom [] 0) 15 ∧
      TableOf (fixedLiteralLengthsFrom [] 0) 15 literalTable ∧
      fixedDistanceCode = .ok distanceTable ∧ Alphabet (filledInts 32 5) 15 ∧
      TableOf (filledInts 32 5) 15 distanceTable := by
  rcases huffmanCodeFromLengths_table (fixedLiteralLengthsFrom [] 0) 15 with
    ⟨literalTable, literalBuilt, literalsOf⟩
  rcases huffmanCodeFromLengths_table (filledInts 32 5) 15 with
    ⟨distanceTable, distanceBuilt, distancesOf⟩
  refine ⟨literalTable, distanceTable, literalBuilt, ⟨?_, Nat.le_refl 15⟩, literalsOf,
    distanceBuilt, ⟨?_, Nat.le_refl 15⟩, distancesOf⟩
  · rw [length_fixedLiterals]
    decide
  · decide

theorem Total.inflateKind (kind : Nat) : Total (inflateKind kind) 0 fun _ _ => True := by
  unfold Compression.inflateKind
  split
  · apply @Total.bind _ _ _ _ _ _ 0 0 Total.copyStored
    intro _ _ _
    exact Total.pure fun _ => trivial
  · split
    · rcases fixedCodes with
        ⟨literalTable, distanceTable, literalBuilt, literalAlphabet, literalsOf, distanceBuilt,
          distanceAlphabet, distancesOf⟩
      rw [literalBuilt, orTrap_ok_bind, distanceBuilt, orTrap_ok_bind]
      apply @Total.bind _ _ _ _ _ _ 0 0
        (Total.inflateBlock literalsOf literalAlphabet distancesOf distanceAlphabet)
      intro _ _ _
      exact Total.pure fun _ => trivial
    · split
      · apply @Total.bindAt _ _ _ _ _ _ 0 0 Total.readDynamicTables
        intro tables inflater sound built
        rw [bind_run_ok (get_run inflater)]
        by_cases stopped : inflater.stopped = true
        · rw [if_pos stopped]
          exact ⟨Reached.refl sound, trivial⟩
        · rcases built (Bool.eq_false_iff.mpr stopped) with
            ⟨literals, distances, literalTable, distanceTable, rfl, literalAlphabet, literalsOf,
              distanceAlphabet, distancesOf⟩
          have first : elementAt [literalTable, distanceTable] 0 = .ok literalTable := rfl
          have second : elementAt [literalTable, distanceTable] 1 = .ok distanceTable := rfl
          rw [if_neg stopped, first, orTrap_ok_bind, second, orTrap_ok_bind]
          refine @answers_bind _ _ _ _ _ _ 0 0 _
            (Total.inflateBlock literalsOf literalAlphabet distancesOf distanceAlphabet inflater
              sound) ?_
          intro _ after reached _
          exact ⟨Reached.refl reached.sound, trivial⟩
      · exact Total.failing _ trivial

theorem runTurns_answers (turns : Nat) (last : Bool) (inflater : Inflater)
    (sound : Sound inflater) (positive : 0 < turns)
    (enough : inflater.stopped = false → inflater.bitsLeft + 2 ≤ turns) :
    Answers inflater 0 (fun _ _ => True) (runTurns turns last inflater) := by
  induction turns generalizing last inflater with
  | zero => omega
  | succ turns ih =>
    rw [runTurns, bind_run_ok (get_run inflater)]
    by_cases going : last = false ∧ inflater.stopped = false
    · have fits := enough going.2
      rw [if_pos going]
      refine answers_weaken (@answers_bind _ _ _ _ _ (fun _ _ => True) 1 0 _
        (Total.takeBits (by decide) inflater sound) ?_) (Nat.zero_le 1) (fun _ _ has => has)
      intro lastBit first reachedFirst _
      refine answers_weaken (@answers_bind _ _ _ _ _ (fun _ _ => True) 2 0 _
        (Total.takeBits (by decide) first reachedFirst.sound) ?_) (Nat.zero_le 2)
        (fun _ _ has => has)
      intro kind after reached _
      rw [bind_run_ok (get_run after)]
      by_cases ended : after.stopped = true
      · rw [if_pos ended]
        exact ⟨Reached.refl reached.sound, trivial⟩
      · have went := reached.went (Bool.eq_false_iff.mpr ended)
        have wentFirst := reachedFirst.went went.1
        have kindTotal := @Total.inflateKind kind
        rw [if_neg ended]
        generalize inflateKind kind = operation at kindTotal ⊢
        apply @answers_bind _ _ _ _ _ _ 0 0 _ (kindTotal after reached.sound)
        intro onward later reachedLater _
        by_cases goesOn : onward = true
        · rw [if_pos goesOn]
          apply ih _ later reachedLater.sound
          · omega
          · intro _
            have fewer := reachedLater.fewer
            omega
        · rw [if_neg goesOn]
          exact ⟨Reached.refl reachedLater.sound, trivial⟩
    · rw [if_neg going]
      exact ⟨Reached.refl sound, trivial⟩

theorem inflaterOf_sound (data : List UInt8) : Sound (inflaterOf data) :=
  ⟨Nat.one_pos, Nat.zero_le _, fun _ => Nat.succ_pos 7⟩

theorem inflateRaw_answers (data : List UInt8) : ∃ answer, inflateRaw data = .ok answer := by
  have answered := runTurns_answers ((inflaterOf data).bitsLeft + 2) false (inflaterOf data)
    (inflaterOf_sound data) (Nat.succ_pos _) (fun _ => Nat.le_refl _)
  have running : run (inflaterOf data) =
    runTurns ((inflaterOf data).bitsLeft + 2) false (inflaterOf data) := rfl
  unfold inflateRaw
  rw [running]
  cases ran : runTurns ((inflaterOf data).bitsLeft + 2) false (inflaterOf data) with
  | ok value next =>
    simp only
    split
    · exact ⟨_, rfl⟩
    · exact ⟨_, rfl⟩
  | error trap next =>
    rw [ran] at answered
    exact answered.elim

end Compression

end KiraVm
