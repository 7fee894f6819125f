import KiraVm.InflateGrammar
import KiraVm.InflateTotality

/-!
# Dynamic tables

What `readDynamicTables` takes: the lengths of the code length codes, the lengths of
both alphabets run by run, and the tables of the two.
-/

namespace KiraVm

namespace Compression

open Foundation StateLogic BitStrings CanonicalCodes

/-! ## Code length codes -/

theorem alphabetOrder_places : ∀ symbol, symbol < 19 →
    alphabetOrder.idxOf symbol < 19 ∧ alphabetOrder[alphabetOrder.idxOf symbol]? = some symbol := by
  decide

theorem codeLengthOrder_symbols : ∀ index, index < 19 → ∃ symbol, symbol < 19 ∧
    codeLengthOrder[index]? = some symbol ∧ alphabetOrder.idxOf symbol = index := by
  decide

theorem length_codeLengthsOf (given : List Nat) : (codeLengthsOf given).length = 19 := by
  unfold codeLengthsOf
  rw [List.length_map, List.length_range]

theorem codeLengthsOf_none : codeLengthsOf [] = filledInts 19 0 := by
  decide

theorem codeLengthsOf_at (given : List Nat) {symbol : Nat} (bounded : symbol < 19) :
    (codeLengthsOf given)[symbol]? = some (given[alphabetOrder.idxOf symbol]?.getD 0) := by
  unfold codeLengthsOf
  rw [List.getElem?_map, List.getElem?_range bounded, Option.map_some, List.getD_eq_getElem?_getD]

theorem codeLengthsOf_one {given : List Nat} {symbol : Nat} (length : Nat)
    (bounded : symbol < 19) (here : alphabetOrder.idxOf symbol = given.length) :
    (codeLengthsOf given).set symbol length = codeLengthsOf (given ++ [length]) := by
  apply List.ext_getElem?
  intro other
  rw [List.getElem?_set, length_codeLengthsOf]
  by_cases within : other < 19
  · rw [codeLengthsOf_at given within, codeLengthsOf_at _ within]
    by_cases same : symbol = other
    · subst same
      rw [if_pos rfl, if_pos bounded, here, List.getElem?_concat_length]
      rfl
    · have apart : alphabetOrder.idxOf other ≠ given.length := by
        intro equal
        have first := (alphabetOrder_places symbol bounded).2
        have second := (alphabetOrder_places other within).2
        rw [here] at first
        rw [equal, first, Option.some.injEq] at second
        exact same second
      rw [if_neg same]
      by_cases before : alphabetOrder.idxOf other < given.length
      · rw [List.getElem?_append_left before]
      · have outside : (given ++ [length]).length ≤ alphabetOrder.idxOf other := by
          rw [List.length_append, List.length_singleton]
          omega
        rw [List.getElem?_eq_none (by omega), List.getElem?_eq_none outside]
  · have apart : symbol ≠ other := by omega
    rw [if_neg apart, List.getElem?_eq_none (by rw [length_codeLengthsOf]; omega),
      List.getElem?_eq_none (by rw [length_codeLengthsOf]; omega)]

theorem KeepsCut.readCodeLengths (codeLengths : List Nat) (index turns : Nat)
    (whole : codeLengths.length = 19) (within : index + turns ≤ 19) :
    KeepsCut (readCodeLengths codeLengths index turns) := by
  induction turns generalizing codeLengths index with
  | zero => exact KeepsCut.pure _
  | succ turns ih =>
    rcases codeLengthOrder_symbols index (by omega) with ⟨symbol, bounded, here, _⟩
    rw [Compression.readCodeLengths, elementAt_ok here, orTrap_ok_bind]
    apply KeepsCut.bind (KeepsCut.takeBits 3)
    intro length
    rw [putAt_ok (by omega), orTrap_ok_bind]
    apply ih
    · rw [List.length_set]
      exact whole
    · omega

theorem Takes.readCodeLengths (given more : List Nat) (small : ∀ length ∈ more, length < 2 ^ 3)
    (within : given.length + more.length ≤ 19) {limit offset : Nat} {out : List UInt8} :
    Takes limit offset out (readCodeLengths (codeLengthsOf given) given.length more.length)
      (more.flatMap (lowFirst 3)) (codeLengthsOf (given ++ more)) out := by
  induction more generalizing given limit offset with
  | nil =>
    rw [List.append_nil]
    exact Takes.pure _
  | cons length more ih =>
    rw [List.length_cons] at within
    rcases codeLengthOrder_symbols given.length (by omega) with ⟨symbol, bounded, here, place⟩
    rw [List.length_cons, Compression.readCodeLengths, elementAt_ok here, orTrap_ok_bind,
      List.flatMap_cons]
    apply Takes.bind (Takes.takeBits (by decide) (small length List.mem_cons_self))
    · intro value
      rw [putAt_ok (by rw [length_codeLengthsOf]; exact bounded), orTrap_ok_bind]
      apply KeepsCut.readCodeLengths
      · rw [List.length_set, length_codeLengthsOf]
      · omega
    · intro _
      rw [putAt_ok (by rw [length_codeLengthsOf]; exact bounded), orTrap_ok_bind,
        codeLengthsOf_one length bounded place, List.append_cons given length more,
        show given.length + 1 = (given ++ [length]).length by simp]
      apply ih
      · intro other found
        exact small other (List.mem_cons_of_mem _ found)
      · rw [List.length_append, List.length_singleton]
        omega

theorem codeLengthsOf_bounded {given : List Nat} (small : ∀ length ∈ given, length < 2 ^ 3) :
    ∀ length ∈ codeLengthsOf given, length ≤ 7 := by
  intro length found
  unfold codeLengthsOf at found
  rcases List.mem_map.mp found with ⟨symbol, _, rfl⟩
  rw [List.getD_eq_getElem?_getD]
  cases here : given[alphabetOrder.idxOf symbol]? with
  | none => exact Nat.zero_le 7
  | some value =>
    have bound := small value (List.mem_of_getElem? here)
    rw [Option.getD_some]
    omega

/-! ## Runs -/

/-- The array that the lengths are written to. -/
def begun (total : Nat) (lengths : List Nat) : List Nat :=
  lengths ++ List.replicate (total - lengths.length) 0

variable {total : Nat} {lengths : List Nat} {bits : List Bool} {literals distances : List Nat}

theorem length_begun (within : lengths.length ≤ total) : (begun total lengths).length = total := by
  unfold begun
  rw [List.length_append, List.length_replicate, Nat.add_sub_cancel' within]

theorem begun_one (value : Nat) (room : lengths.length < total) :
    (begun total lengths).set lengths.length value = begun total (lengths ++ [value]) := by
  unfold begun
  have rest : total - lengths.length = total - (lengths.length + 1) + 1 := by omega
  rw [List.set_append_right _ _ (Nat.le_refl _), Nat.sub_self, rest, List.replicate_succ,
    List.set_cons_zero, List.length_append, List.length_singleton, List.append_assoc]
  rfl

theorem begun_repeat (value count : Nat) (room : lengths.length + count ≤ total) :
    repeatLength value (begun total lengths) lengths.length count =
      .ok (begun total (lengths ++ List.replicate count value)) := by
  induction count generalizing lengths with
  | zero =>
    rw [List.replicate_zero, List.append_nil]
    rfl
  | succ count ih =>
    rw [repeatLength, putAt_ok (by rw [length_begun (by omega)]; omega), ok_bind,
      begun_one value (by omega), List.replicate_succ, List.append_cons lengths value (List.replicate count value),
      show lengths.length + 1 = (lengths ++ [value]).length by simp]
    apply ih
    rw [List.length_append, List.length_singleton]
    omega

theorem begun_last (total : Nat) {value : Nat} (last : lengths.getLast? = some value) :
    0 < lengths.length ∧
      elementAt (begun total lengths) ((lengths.length : Int) - 1) = .ok value := by
  have some : lengths ≠ [] := by
    rintro rfl
    cases last
  have positive : 0 < lengths.length := List.length_pos_iff.mpr some
  refine ⟨positive, ?_⟩
  rw [List.getLast?_eq_getElem?] at last
  have place : (lengths.length : Int) - 1 = ((lengths.length - 1 : Nat) : Int) := by omega
  rw [place]
  apply elementAt_ok
  unfold begun
  rw [List.getElem?_append_left (by omega)]
  exact last

theorem Runs.grow {codeLengths all : List Nat} (runs : Runs codeLengths lengths bits all) :
    lengths.length ≤ all.length := by
  induction runs with
  | done => exact Nat.le_refl _
  | one length small isCode more ih =>
    rw [List.length_append] at ih
    omega
  | again value count last fits isCode more ih =>
    rw [List.length_append] at ih
    omega
  | zeros count fits isCode more ih =>
    rw [List.length_append] at ih
    omega
  | manyZeros count fits isCode more ih =>
    rw [List.length_append] at ih
    omega

theorem Runs.bounded {codeLengths all : List Nat} (runs : Runs codeLengths lengths bits all)
    (before : ∀ length ∈ lengths, length ≤ 15) : ∀ length ∈ all, length ≤ 15 := by
  induction runs with
  | done => exact before
  | one length small isCode more ih =>
    apply ih
    intro other found
    rcases List.mem_append.mp found with old | new
    · exact before other old
    · rw [List.mem_singleton.mp new]
      omega
  | again value count last fits isCode more ih =>
    apply ih
    intro other found
    rcases List.mem_append.mp found with old | new
    · exact before other old
    · rw [List.eq_of_mem_replicate new]
      exact before value (List.mem_of_getLast? last)
  | zeros count fits isCode more ih =>
    apply ih
    intro other found
    rcases List.mem_append.mp found with old | new
    · exact before other old
    · rw [List.eq_of_mem_replicate new]
      exact Nat.zero_le 15
  | manyZeros count fits isCode more ih =>
    apply ih
    intro other found
    rcases List.mem_append.mp found with old | new
    · exact before other old
    · rw [List.eq_of_mem_replicate new]
      exact Nat.zero_le 15

section Reading

variable {table : HuffmanCode} {codeLengths lengths all : List Nat} {limit offset turns : Nat}
  {out : List UInt8} {code bits : List Bool}

/-- The loop goes on behind a run of a symbol from 16 on. -/
theorem Takes.repeated {symbol : Nat} (value count : Nat) {more : List Bool}
    (decoded : Takes limit offset out (Compression.decodeSymbol table) code symbol out)
    (large : ¬ symbol < 16) (positive : 0 < count)
    (within : lengths.length + count ≤ all.length)
    (repeated : ∀ {limit offset : Nat}, Takes limit offset out
      (readRepeat symbol (begun all.length lengths) lengths.length) more (some (value, count)) out)
    (rest : ∀ {limit offset : Nat}, Takes limit offset out
      (readLengthsFrom table turns
        (begun all.length (lengths ++ List.replicate count value))
        (lengths ++ List.replicate count value).length) bits (some all) out) :
    Takes limit offset out
      (readLengthsFrom table (turns + 1) (begun all.length lengths) lengths.length)
      (code ++ (more ++ bits)) (some all) out := by
  rw [Compression.readLengthsFrom, if_pos (by rw [length_begun (by omega)]; omega)]
  apply Takes.bind decoded
  · intro other
    exact KeepsCut.asked _ _
  · intro _
    apply Takes.asked
    intro inflater _ _
    rw [if_neg large]
    apply Takes.bind repeated
    · intro other
      cases other with
      | none => exact KeepsCut.pure _
      | some pair => exact KeepsCut.asked _ _
    · intro _
      apply Takes.asked
      intro inflater _ _
      rw [if_neg (by rw [length_begun (by omega)]; omega), begun_repeat value count within,
        orTrap_ok_bind]
      rw [show lengths.length + count = (lengths ++ List.replicate count value).length by simp]
      exact rest

theorem Takes.readLengthsFrom (tableOf : TableOf codeLengths 7 table)
    (alphabet : Alphabet codeLengths 7) (bounded : ∀ length ∈ codeLengths, length ≤ 7)
    (runs : Runs codeLengths lengths bits all) (enough : all.length < lengths.length + turns) :
    Takes limit offset out
      (readLengthsFrom table turns (begun all.length lengths) lengths.length) bits (some all)
      out := by
  induction runs generalizing limit offset turns with
  | done =>
    cases turns with
    | zero => omega
    | succ turns =>
      rw [Compression.readLengthsFrom, if_neg (by rw [length_begun (Nat.le_refl _)]; omega)]
      unfold begun
      rw [Nat.sub_self, List.replicate_zero, List.append_nil]
      exact Takes.pure _
  | @one lengths all code bits length small isCode more ih =>
    have grow := more.grow
    rw [List.length_append, List.length_singleton] at grow
    cases turns with
    | zero => omega
    | succ turns =>
      rw [Compression.readLengthsFrom, if_pos (by rw [length_begun (by omega)]; omega)]
      apply Takes.bind (Takes.decodeSymbol tableOf alphabet bounded isCode)
      · intro other
        exact KeepsCut.asked _ _
      · intro _
        apply Takes.asked
        intro inflater _ _
        rw [if_pos small, putAt_ok (by rw [length_begun (by omega)]; omega), orTrap_ok_bind,
          begun_one length (by omega),
          show lengths.length + 1 = (lengths ++ [length]).length by simp]
        apply ih
        rw [List.length_append, List.length_singleton]
        omega
  | @again lengths all code bits value count last fits isCode more ih =>
    have grow := more.grow
    rw [List.length_append, List.length_replicate] at grow
    cases turns with
    | zero => omega
    | succ turns =>
      apply Takes.repeated value (3 + count) (Takes.decodeSymbol tableOf alphabet bounded isCode)
        (by omega) (by omega) (by omega)
      · intro limit offset
        rcases begun_last all.length last with ⟨positive, read⟩
        rw [Compression.readRepeat, if_pos rfl, if_neg (by omega), read, orTrap_ok_bind]
        exact Takes.andPure (Takes.takeBits (by decide) fits)
      · intro limit offset
        apply ih
        rw [List.length_append, List.length_replicate]
        omega
  | @zeros lengths all code bits count fits isCode more ih =>
    have grow := more.grow
    rw [List.length_append, List.length_replicate] at grow
    cases turns with
    | zero => omega
    | succ turns =>
      apply Takes.repeated 0 (3 + count) (Takes.decodeSymbol tableOf alphabet bounded isCode)
        (by omega) (by omega) (by omega)
      · intro limit offset
        rw [Compression.readRepeat, if_neg (by decide), if_pos rfl]
        exact Takes.andPure (Takes.takeBits (by decide) fits)
      · intro limit offset
        apply ih
        rw [List.length_append, List.length_replicate]
        omega
  | @manyZeros lengths all code bits count fits isCode more ih =>
    have grow := more.grow
    rw [List.length_append, List.length_replicate] at grow
    cases turns with
    | zero => omega
    | succ turns =>
      apply Takes.repeated 0 (11 + count) (Takes.decodeSymbol tableOf alphabet bounded isCode)
        (by omega) (by omega) (by omega)
      · intro limit offset
        rw [Compression.readRepeat, if_neg (by decide), if_neg (by decide)]
        exact Takes.andPure (Takes.takeBits (by decide) fits)
      · intro limit offset
        apply ih
        rw [List.length_append, List.length_replicate]
        omega

end Reading

/-! ## Both tables -/

theorem Tables.bounded {most : Nat} (tables : Tables most literals distances bits) :
    (∀ length ∈ literals, length ≤ 15) ∧ ∀ length ∈ distances, length ≤ 15 := by
  cases tables with
  | spelled given least greatest small leastLiterals mostLiterals leastDistances mostDistances
      runs =>
      have all := runs.bounded (fun length found => absurd found List.not_mem_nil)
      constructor
      · intro length found
        exact all length (List.mem_append_left _ found)
      · intro length found
        exact all length (List.mem_append_right _ found)

theorem Tables.alphabets (tables : Tables 30 literals distances bits) :
    Alphabet literals 15 ∧ Alphabet distances 15 := by
  cases tables with
  | spelled given least greatest small leastLiterals mostLiterals leastDistances mostDistances
      runs =>
      exact ⟨⟨by omega, Nat.le_refl 15⟩, ⟨by omega, Nat.le_refl 15⟩⟩

theorem Takes.readDynamicTables (tables : Tables 30 literals distances bits)
    {literalTable distanceTable : HuffmanCode}
    (isLiteral : huffmanCodeFromLengths literals 15 = .ok literalTable)
    (isDistance : huffmanCodeFromLengths distances 15 = .ok distanceTable) {limit offset : Nat}
    {out : List UInt8} :
    Takes limit offset out readDynamicTables bits [literalTable, distanceTable] out := by
  cases tables with
  | @spelled bits given least greatest small leastLiterals mostLiterals leastDistances
      mostDistances runs =>
      rcases huffmanCodeFromLengths_table (codeLengthsOf given) 7 with ⟨table, built, tableOf⟩
      have alphabet : Alphabet (codeLengthsOf given) 7 :=
        ⟨by rw [length_codeLengthsOf]; decide, by decide⟩
      have any : 1 ≤ table.counts.length := by
        rw [tableOf.count]
        decide
      have literalCount : literals.length - 257 + 257 = literals.length := by omega
      have distanceCount : distances.length - 1 + 1 = distances.length := by omega
      have lengthCount : given.length - 4 + 4 = given.length := by omega
      have total : (literals ++ distances).length = literals.length + distances.length :=
        List.length_append
      unfold Compression.readDynamicTables
      apply Takes.bind (Takes.takeBits (by decide) (show literals.length - 257 < 2 ^ 5 by omega))
      · intro literalBits
        apply KeepsCut.bind (KeepsCut.takeBits 5)
        intro distanceBits
        apply KeepsCut.bind (KeepsCut.takeBits 4)
        intro lengthBits
        exact KeepsCut.asked _ _
      · intro _
        apply Takes.bind (Takes.takeBits (by decide) (show distances.length - 1 < 2 ^ 5 by omega))
        · intro distanceBits
          apply KeepsCut.bind (KeepsCut.takeBits 4)
          intro lengthBits
          exact KeepsCut.asked _ _
        · intro _
          apply Takes.bind (Takes.takeBits (by decide) (show given.length - 4 < 2 ^ 4 by omega))
          · intro lengthBits
            exact KeepsCut.asked _ _
          · intro _
            apply Takes.asked
            intro inflater _ _
            rw [literalCount, distanceCount, lengthCount, if_neg (by omega), ← codeLengthsOf_none]
            apply Takes.bind (Takes.readCodeLengths [] given small (by simpa using greatest))
            · intro codeLengths
              exact KeepsCut.asked _ _
            · intro _
              apply Takes.asked
              intro inflater' _ _
              rw [List.nil_append, built, orTrap_ok_bind, ← total]
              have both : ∀ {limit offset : Nat}, Takes limit offset out
                  (Compression.readLengthsFrom table ((literals ++ distances).length + 1)
                    (begun (literals ++ distances).length []) ([] : List Nat).length) bits
                  (some (literals ++ distances)) out :=
                Takes.readLengthsFrom tableOf alphabet (codeLengthsOf_bounded small) runs
                  (by rw [List.length_nil]; omega)
              have knows : ∀ (inflater : Inflater) (read : Option (List Nat)) (last : Inflater),
                  Sound inflater →
                  Compression.readLengthsFrom table ((literals ++ distances).length + 1)
                    (begun (literals ++ distances).length []) ([] : List Nat).length inflater =
                    .ok read last →
                  ∀ all, read = some all → all.length = (literals ++ distances).length :=
                fun _ _ _ sound ran =>
                  readLengthsFrom_whole tableOf alphabet (length_begun (Nat.zero_le _)) sound ran
              apply Takes.congr _ (List.append_nil bits)
              apply Takes.bindKnown both knows
              · intro read whole
                cases read with
                | none => exact KeepsCut.pure _
                | some lengths =>
                  have size : lengths.length = literals.length + distances.length := by
                    rw [whole lengths rfl, total]
                  rcases huffmanCodeFromLengths_table ((lengths.drop 0).take (literals.length - 0))
                    15 with ⟨first, builtFirst, _⟩
                  rcases huffmanCodeFromLengths_table ((lengths.drop literals.length).take
                    (lengths.length - literals.length)) 15 with ⟨second, builtSecond, _⟩
                  simp only
                  rw [lengthsBetween_take lengths 0 literals.length (by omega), orTrap_ok_bind,
                    lengthsBetween_take lengths literals.length lengths.length (Nat.le_refl _),
                    orTrap_ok_bind, builtFirst, orTrap_ok_bind, builtSecond, orTrap_ok_bind]
                  exact KeepsCut.pure _
              · intro _
                have front := lengthsBetween_take (literals ++ distances) 0 literals.length
                  (by omega)
                have back := lengthsBetween_take (literals ++ distances) literals.length
                  (literals ++ distances).length (Nat.le_refl _)
                rw [List.drop_zero, Nat.sub_zero, List.take_left] at front
                rw [List.drop_left, total, Nat.add_sub_cancel_left, List.take_length] at back
                simp only
                rw [front, orTrap_ok_bind, total, back, orTrap_ok_bind, isLiteral, orTrap_ok_bind,
                  isDistance, orTrap_ok_bind]
                exact Takes.pure _

end Compression

end KiraVm
