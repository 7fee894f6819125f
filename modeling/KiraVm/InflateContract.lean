import KiraVm.InflateStream

/-!
# What inflating promises

Every input is answered.  An input that begins with a stream is answered with the
bytes that the stream denotes, and a part of a stream is truncated.
-/

namespace KiraVm

namespace Compression

open Foundation StateLogic BitStrings CanonicalCodes

theorem inflaterOf_stands (data : List UInt8) : Stands (inflaterOf data) 0 [] (bitsOf data) := by
  refine ⟨inflaterOf_sound data, rfl, rfl, rfl, ?_⟩
  rw [length_bitsOf, Nat.zero_add]
  rfl

/-- What the run of the blocks leaves is the answer. -/
theorem inflateRaw_run {data : List UInt8} {next : Inflater}
    (ran : run (inflaterOf data) = .ok () next) :
    inflateRaw data =
      if next.stopped then .ok (.error next.failure) else .ok (.ok next.output) := by
  unfold inflateRaw
  rw [ran]

variable {out : List UInt8}

theorem run_takes {bits : List Bool} (stream : Stream 30 0 [] bits out) {limit : Nat} :
    Takes limit 0 [] run bits () out := by
  apply Takes.of_get
  intro inflater _ _ _
  exact Takes.runTurns stream (Nat.le_refl _)

theorem inflateRaw_whole {occupied rest : List UInt8} (denotes : Denotes 30 occupied out) :
    inflateRaw (occupied ++ rest) = .ok (.ok out) := by
  rcases denotes with ⟨bits, padding, spelled, _, stream⟩
  have stands := inflaterOf_stands (occupied ++ rest)
  rw [bitsOf_append, spelled, List.append_assoc] at stands
  rcases (run_takes stream).whole _ _ (Nat.le_refl _) stands with ⟨next, ran, after⟩
  rw [inflateRaw_run ran, after.live, after.output]
  rfl

/-- The bits of a stream end in its last byte, so that fewer bytes leave some of them out. -/
theorem inflateRaw_part {occupied part : List UInt8} (denotes : Denotes 30 occupied out)
    (before : part <+: occupied) (proper : part ≠ occupied) :
    inflateRaw part = .ok (.error .truncated) := by
  rcases denotes with ⟨bits, padding, spelled, few, stream⟩
  have stands := inflaterOf_stands part
  rcases before with ⟨lacking, rfl⟩
  have some : lacking ≠ [] := by
    rintro rfl
    exact proper (List.append_nil part).symm
  have sizes := congrArg List.length spelled
  have positive := List.length_pos_iff.mpr some
  rw [length_bitsOf, List.length_append, List.length_append] at sizes
  have shorter : (bitsOf part).length < bits.length := by
    rw [length_bitsOf]
    omega
  have front : bitsOf part <+: bits := by
    rw [bitsOf_append] at spelled
    exact List.prefix_of_prefix_length_le ⟨_, spelled⟩ (List.prefix_append bits padding)
      (Nat.le_of_lt shorter)
  have apart : bitsOf part ≠ bits := by
    intro same
    rw [same] at shorter
    exact Nat.lt_irrefl _ shorter
  rcases (run_takes stream).cut _ _ (Nat.le_refl _) front apart stands with
    ⟨value, next, ran, cut⟩
  rw [inflateRaw_run ran, cut.1, cut.2]
  rfl

/-- The table of any lengths, over-subscribed ones included, is walked without a trap on
every input; before the canonical code of a symbol, the walk answers the symbol and
consumes its code. -/
theorem canonical_codes_are_walked {lengths : List Nat} {longest : Nat}
    (alphabet : Alphabet lengths longest) :
    ∃ table, huffmanCodeFromLengths lengths longest = .ok table ∧
      (∀ inflater, Sound inflater →
        ∃ symbol next, decodeSymbol table inflater = .ok symbol next ∧ Sound next) ∧
      ((∀ length ∈ lengths, length ≤ longest) →
        ∀ symbol code rest inflater offset out, IsCode lengths symbol code →
          Stands inflater offset out (code ++ rest) →
          ∃ next, decodeSymbol table inflater = .ok symbol next ∧
            Stands next (offset + code.length) out rest) := by
  rcases huffmanCodeFromLengths_table lengths longest with ⟨table, built, tableOf⟩
  refine ⟨table, built, ?_, ?_⟩
  · intro inflater sound
    have answers := Total.decodeSymbol tableOf alphabet inflater sound
    cases ran : decodeSymbol table inflater with
    | ok symbol next =>
      rw [ran] at answers
      exact ⟨symbol, next, rfl, answers.1.sound⟩
    | error trap next =>
      rw [ran] at answers
      exact answers.elim
  · intro bounded symbol code rest inflater offset out isCode stands
    exact (Takes.decodeSymbol tableOf alphabet bounded isCode).whole inflater rest (Nat.le_refl _)
      stands

theorem pair_of_codes_is_walked :
    ∃ table, huffmanCodeFromLengths [1, 1] 1 = .ok table ∧
      (∀ inflater, Sound inflater →
        ∃ symbol next, decodeSymbol table inflater = .ok symbol next ∧ Sound next) ∧
      ∀ rest inflater offset out, Stands inflater offset out ([true] ++ rest) →
        ∃ next, decodeSymbol table inflater = .ok 1 next ∧
          Stands next (offset + 1) out rest := by
  have alphabet : Alphabet [1, 1] 1 := ⟨by decide, by decide⟩
  rcases canonical_codes_are_walked alphabet with ⟨table, built, walked, codes⟩
  have isCode : IsCode [1, 1] 1 [true] := ⟨1, by decide, by decide, by decide, by decide⟩
  exact ⟨table, built, walked, fun rest inflater offset out stands =>
    codes (by decide) 1 [true] rest inflater offset out isCode stands⟩

/-- Inflating answers every input.  It decodes what begins with a stream whose dynamic blocks
declare at most thirty distance codes, and calls every proper part of one truncated. -/
theorem inflateRaw_decodes (data : List UInt8) :
    (∃ answer, inflateRaw data = .ok answer) ∧
      (∀ occupied rest out, Denotes 30 occupied out → data = occupied ++ rest →
        inflateRaw data = .ok (.ok out)) ∧
      ∀ occupied out, Denotes 30 occupied out → data <+: occupied → data ≠ occupied →
        inflateRaw data = .ok (.error .truncated) := by
  refine ⟨inflateRaw_answers data, ?_, ?_⟩
  · rintro occupied rest out denotes rfl
    exact inflateRaw_whole denotes
  · intro occupied out denotes before proper
    exact inflateRaw_part denotes before proper

set_option maxRecDepth 20000 in
/-- A letter and three copies of it. -/
theorem four_letters_denotes : Denotes 30 [75, 4, 2, 0] [97, 97, 97, 97] := by
  have letter : IsCode fixedLiterals 97 (highFirst 8 145) :=
    ⟨8, by decide, by decide, by decide, by decide⟩
  have three : IsCode fixedLiterals (257 + 0) (highFirst 7 1) :=
    ⟨7, by decide, by decide, by decide, by decide⟩
  have one : IsCode fixedDistances 0 (highFirst 5 0) :=
    ⟨5, by decide, by decide, by decide, by decide⟩
  have stop : IsCode fixedLiterals 256 (highFirst 7 0) :=
    ⟨7, by decide, by decide, by decide, by decide⟩
  have copies : copied [97] 1 3 = [97, 97, 97, 97] := by decide
  have ends : Symbols fixedLiterals fixedDistances (copied [97] 1 3) (highFirst 7 0)
      [97, 97, 97, 97] := by
    rw [copies]
    exact Symbols.stop stop
  exact ⟨_, [false, false], by decide, by decide,
    Stream.last (Block.fixed (Symbols.literal 97 letter
      (Symbols.copy 0 0 0 0 (by decide) three (by decide) (by decide) one (by decide) (by decide)
        ends)))⟩

theorem inflateRaw_decodes_letters :
    inflateRaw ([75, 4, 2, 0] ++ [7]) = .ok (.ok [97, 97, 97, 97]) ∧
      inflateRaw [75, 4] = .ok (.error .truncated) :=
  ⟨(inflateRaw_decodes _).2.1 _ [7] _ four_letters_denotes rfl,
    (inflateRaw_decodes _).2.2 _ _ four_letters_denotes ⟨[2, 0], rfl⟩ (by decide)⟩

/-! ## More distance codes -/

/-- The lengths of the code length codes of the block below: of the symbols 1 and 18. -/
def twoLengths : List Nat :=
  [0, 0, 1, 0, 0, 0, 0, 0, 0, 0, 0, 0, 0, 0, 0, 0, 0, 1]

set_option maxRecDepth 20000 in
/-- Codes for a literal and for the end of the block, and 31 distance codes. -/
theorem many_tables :
    Tables 32 (1 :: List.replicate 255 0 ++ [1]) (1 :: 1 :: List.replicate 29 0)
      (lowFirst 5 0 ++ (lowFirst 5 30 ++ (lowFirst 4 14 ++ (twoLengths.flatMap (lowFirst 3) ++
        (highFirst 1 0 ++ (highFirst 1 1 ++ (lowFirst 7 127 ++ (highFirst 1 1 ++ (lowFirst 7 106 ++
          (highFirst 1 0 ++ (highFirst 1 0 ++ (highFirst 1 0 ++ (highFirst 1 1 ++
            (lowFirst 7 18 ++ [])))))))))))))) := by
  have one : IsCode (codeLengthsOf twoLengths) 1 (highFirst 1 0) :=
    ⟨1, by decide, by decide, by decide, by decide⟩
  have zeros : IsCode (codeLengthsOf twoLengths) 18 (highFirst 1 1) :=
    ⟨1, by decide, by decide, by decide, by decide⟩
  have all : (1 :: List.replicate 255 0 ++ [1]) ++ (1 :: 1 :: List.replicate 29 0) =
      [] ++ [1] ++ List.replicate (11 + 127) 0 ++ List.replicate (11 + 106) 0 ++ [1] ++ [1] ++ [1] ++
        List.replicate (11 + 18) 0 := by
    decide
  have literalCount : (1 :: List.replicate 255 0 ++ [1]).length - 257 = 0 := by decide
  have distanceCount : (1 :: 1 :: List.replicate 29 0).length - 1 = 30 := by decide
  have lengthCount : twoLengths.length - 4 = 14 := by decide
  have runs := @Runs.one _ [] _ _ _ 1 (by decide) one (Runs.manyZeros 127 (by decide) zeros
    (Runs.manyZeros 106 (by decide) zeros (Runs.one 1 (by decide) one
      (Runs.one 1 (by decide) one (Runs.one 1 (by decide) one
        (Runs.manyZeros 18 (by decide) zeros Runs.done))))))
  rw [← all] at runs
  have spelled := @Tables.spelled 32 _ _ _ twoLengths (by decide) (by decide) (by decide)
    (by decide) (by decide) (by decide) (by decide) runs
  rw [literalCount, distanceCount, lengthCount] at spelled
  exact spelled

set_option maxRecDepth 20000 in
theorem many_denotes : Denotes 32 [5, 222, 129, 0, 0, 0, 0, 0, 16, 255, 213, 40, 9] [] := by
  have stop : IsCode (1 :: List.replicate 255 0 ++ [1]) 256 (highFirst 1 1) :=
    ⟨1, by decide, by decide, by decide, by decide⟩
  exact ⟨_, [false, false, false, false], by decide, by decide,
    Stream.last (Block.dynamic _ _ many_tables (Symbols.stop stop))⟩

/-- Not every stream is decoded: one that declares 31 distance codes is called malformed. -/
theorem inflateRaw_refuses :
    ¬ ∀ data out, Denotes 32 data out → inflateRaw data = .ok (.ok out) := by
  intro decodes
  have answer := decodes _ _ many_denotes
  have refused : inflateRaw [5, 222, 129, 0, 0, 0, 0, 0, 16, 255, 213, 40, 9] =
      .ok (.error .malformed) := by
    rfl
  rw [refused] at answer
  cases answer

end Compression

end KiraVm
