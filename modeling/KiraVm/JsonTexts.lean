import KiraVm.JsonCursor

/-!
# Quoted texts

The reader of a quoted text takes what the grammar derives as what it denotes.
-/

namespace KiraVm

namespace Foundation

open StateLogic

open Json

namespace JsonReader

/-! ## Hex digits -/

theorem jsonHexValue_some_iff (byte : UInt8) (value : Nat) :
    jsonHexValue byte = some value ↔ HexDigit byte value := by
  unfold jsonHexValue HexDigit
  constructor
  · intro found
    split at found
    · rename_i decimal
      injection found with same
      exact Or.inl ⟨decimal.1, decimal.2, same.symm⟩
    split at found
    · rename_i small
      injection found with same
      exact Or.inr (Or.inl ⟨small.1, small.2, same.symm⟩)
    split at found
    · rename_i large
      injection found with same
      exact Or.inr (Or.inr ⟨large.1, large.2, same.symm⟩)
    · cases found
  · rintro (⟨low, high, rfl⟩ | ⟨low, high, rfl⟩ | ⟨low, high, rfl⟩)
    · rw [if_pos ⟨low, high⟩]
    · rw [if_neg fun decimal => absurd (UInt8.le_trans low decimal.2) (by decide),
        if_pos ⟨low, high⟩]
    · rw [if_neg fun decimal => absurd (UInt8.le_trans low decimal.2) (by decide),
        if_neg fun small => absurd (UInt8.le_trans small.1 high) (by decide), if_pos ⟨low, high⟩]

section Hex

variable {reader : JsonReader} {rest left : List UInt8}

theorem readHexFrom_takes {digits : List UInt8} {values : List Nat}
    (spelled : List.Forall₂ HexDigit digits values) (stands : Stands reader rest) (value index : Nat)
    (here : rest.drop index = digits ++ left) :
    readHexFrom value index digits.length reader =
      .ok (values.foldl (fun code digit => code * 16 + digit) value) (reader.advance 4) := by
  induction spelled generalizing value index with
  | nil => rfl
  | @cons byte digit digits values isDigit spelled ih =>
    have front : rest[index]? = some byte := by
      rw [← List.head?_drop, here]
      rfl
    have behind : rest.drop (index + 1) = digits ++ left := by
      rw [← List.drop_drop, here]
      rfl
    simp only [List.length_cons, readHexFrom]
    rw [bind_run_ok (get_run reader), bind_run_ok (charAt_run stands index front),
      (jsonHexValue_some_iff byte digit).mpr isDigit]
    exact ih _ (index + 1) behind

theorem readHexQuad_takes {quad : List UInt8} {code : Nat} (spelled : HexQuad quad code)
    (stands : Stands reader (quad ++ left)) (escapeAt : Nat) :
    readHexQuad escapeAt reader = .ok code (reader.advance 4) := by
  rcases spelled with ⟨values, digits, four, rfl⟩
  have counted := stands.length
  rw [List.length_append, four] at counted
  have taken := readHexFrom_takes digits stands 0 0 rfl
  rw [four] at taken
  simp only [readHexQuad]
  rw [bind_run_ok (get_run reader), if_neg (by omega), taken]

end Hex

/-! ## Escapes -/

variable {code : Nat}

theorem textBytes_scalarText (valid : code.isValidChar) :
    textBytes (scalarText code) = scalarBytes code := by
  unfold scalarText scalarBytes
  rw [if_pos valid, textBytes_toList, String.toList_singleton, List.flatMap_cons,
    List.flatMap_nil, List.append_nil]

theorem HexDigit.lt {byte : UInt8} {value : Nat} (digit : HexDigit byte value) :
    value < 16 ∧ byte < 128 := by
  unfold HexDigit at digit
  simp only [UInt8.le_iff_toNat_le] at digit
  rw [UInt8.lt_iff_toNat_lt]
  simp only [UInt8.reduceToNat] at digit ⊢
  omega

theorem hexValues_lt {digits : List UInt8} {values : List Nat}
    (spelled : List.Forall₂ HexDigit digits values) (value : Nat) :
    values.foldl (fun code digit => code * 16 + digit) value <
      (value + 1) * 16 ^ digits.length := by
  induction spelled generalizing value with
  | nil => simp
  | @cons byte digit digits values isDigit spelled ih =>
    have small := (HexDigit.lt isDigit).1
    have grown : (value * 16 + digit + 1) * 16 ^ digits.length ≤
        (value + 1) * 16 * 16 ^ digits.length :=
      Nat.mul_le_mul_right _ (by omega)
    have power : 16 ^ (digits.length + 1) = 16 * 16 ^ digits.length := by
      rw [Nat.pow_succ, Nat.mul_comm]
    rw [List.foldl_cons, List.length_cons, power, ← Nat.mul_assoc]
    exact Nat.lt_of_lt_of_le (ih _) grown

theorem HexQuad.code_lt {quad : List UInt8} (spelled : HexQuad quad code) : code < 65536 := by
  rcases spelled with ⟨values, digits, four, rfl⟩
  have bound := hexValues_lt digits 0
  rw [four] at bound
  exact bound

theorem valid_scalar {quad : List UInt8} (spelled : HexQuad quad code)
    (notHigh : ¬ IsHighHalf code) (notLow : ¬ IsLowHalf code) : code.isValidChar := by
  have bound := HexQuad.code_lt spelled
  unfold IsHighHalf at notHigh
  unfold IsLowHalf at notLow
  unfold Nat.isValidChar
  omega

theorem valid_pair {high low : Nat} (isHigh : IsHighHalf high) (isLow : IsLowHalf low) :
    (pairScalar high low).isValidChar := by
  unfold IsHighHalf at isHigh
  unfold IsLowHalf at isLow
  unfold Nat.isValidChar pairScalar
  omega

section Escapes

variable {reader : JsonReader} {rest left : List UInt8}

theorem readLowHalf_takes {lowQuad : List UInt8} {high low : Nat} (spelled : HexQuad lowQuad low)
    (isLow : IsLowHalf low) (stands : Stands reader (92 :: 117 :: (lowQuad ++ left)))
    (escapeAt : Nat) :
    readLowHalf escapeAt high reader =
      .ok (scalarText (pairScalar high low)) (reader.advance 6) := by
  have counted := stands.length
  rw [List.length_cons, List.length_cons] at counted
  have behind : Stands (reader.advance 2) (lowQuad ++ left) :=
    @Stands.advance reader [92, 117] (lowQuad ++ left) stands
  have goesOn : ¬ ((reader.advance 2).advance 4).stopped = true := by
    change ¬ reader.stopped = true
    rw [stands.goesOn]
    decide
  have inHalf : ¬ (low < 56320 ∨ 57343 < low) := by
    unfold IsLowHalf at isLow
    omega
  simp only [readLowHalf]
  rw [bind_run_ok (get_run reader), if_neg (by omega), bind_run_ok (charAt_front stands)]
  rw [if_pos rfl, bind_run_ok (charAt_run stands 1 rfl), if_neg (by decide),
    bind_run_ok (moveBy_run 2 reader), bind_run_ok (readHexQuad_takes spelled behind escapeAt),
    bind_run_ok (get_run _), if_neg goesOn, if_neg inHalf, advance_advance]
  rfl

theorem readUnicodeEscape_scalar {quad : List UInt8} {code : Nat} (spelled : HexQuad quad code)
    (notHigh : ¬ IsHighHalf code) (notLow : ¬ IsLowHalf code)
    (stands : Stands reader (quad ++ left)) (escapeAt : Nat) :
    readUnicodeEscape escapeAt reader = .ok (scalarText code) (reader.advance 4) := by
  have goesOn : ¬ (reader.advance 4).stopped = true := by
    change ¬ reader.stopped = true
    rw [stands.goesOn]
    decide
  simp only [readUnicodeEscape]
  rw [bind_run_ok (readHexQuad_takes spelled stands escapeAt), bind_run_ok (get_run _),
    if_neg goesOn, if_neg (show ¬ (55296 ≤ code ∧ code ≤ 56319) from notHigh),
    if_neg (show ¬ (56320 ≤ code ∧ code ≤ 57343) from notLow)]
  rfl

theorem readUnicodeEscape_pair {quad lowQuad : List UInt8} {high low : Nat}
    (spelled : HexQuad quad high) (isHigh : IsHighHalf high) (spelledLow : HexQuad lowQuad low)
    (isLow : IsLowHalf low) (stands : Stands reader (quad ++ 92 :: 117 :: (lowQuad ++ left)))
    (escapeAt : Nat) :
    readUnicodeEscape escapeAt reader =
      .ok (scalarText (pairScalar high low)) (reader.advance 10) := by
  have four : quad.length = 4 := by
    rcases spelled with ⟨_, _, four, _⟩
    exact four
  have behind := stands.advance
  rw [four] at behind
  have goesOn : ¬ (reader.advance 4).stopped = true := by
    rw [behind.goesOn]
    decide
  simp only [readUnicodeEscape]
  rw [bind_run_ok (readHexQuad_takes spelled stands escapeAt), bind_run_ok (get_run _),
    if_neg goesOn, if_pos (show 55296 ≤ high ∧ high ≤ 56319 from isHigh), readLowHalf_takes spelledLow isLow behind escapeAt,
    advance_advance]

def escapeBehind (letter : UInt8) (escapeAt : Nat) : OnJson String :=
  if letter = 34 then pure "\""
  else if letter = 92 then pure "\\"
  else if letter = 47 then pure "/"
  else if letter = 98 then pure (scalarText 8)
  else if letter = 102 then pure (scalarText 12)
  else if letter = 110 then pure "\n"
  else if letter = 114 then pure "\r"
  else if letter = 116 then pure "\t"
  else if letter = 117 then readUnicodeEscape escapeAt
  else refuse .invalidEscape escapeAt ""

theorem readEscape_run {letter : UInt8} (stands : Stands reader (letter :: left)) :
    readEscape reader = escapeBehind letter reader.position (reader.advance 1) := by
  simp only [readEscape]
  rw [bind_run_ok (get_run reader), if_neg (Nat.not_le.mpr stands.inside),
    bind_run_ok (charAt_front stands), bind_run_ok (moveBy_run 1 reader)]
  rfl

theorem escapeBehind_short {letter byte : UInt8} (escape : (letter, byte) ∈ shortEscapes)
    (escapeAt : Nat) : ∃ text, escapeBehind letter escapeAt = pure text ∧ textBytes text = [byte] := by
  simp only [shortEscapes, List.mem_cons, Prod.mk.injEq, List.not_mem_nil, or_false] at escape
  rcases escape with ⟨rfl, rfl⟩ | ⟨rfl, rfl⟩ | ⟨rfl, rfl⟩ | ⟨rfl, rfl⟩ | ⟨rfl, rfl⟩ | ⟨rfl, rfl⟩ |
    ⟨rfl, rfl⟩ | ⟨rfl, rfl⟩
  · exact ⟨_, rfl, by decide⟩
  · exact ⟨_, rfl, by decide⟩
  · exact ⟨_, rfl, by decide⟩
  · exact ⟨_, rfl, by decide⟩
  · exact ⟨_, rfl, by decide⟩
  · exact ⟨_, rfl, by decide⟩
  · exact ⟨_, rfl, by decide⟩
  · exact ⟨_, rfl, by decide⟩

theorem readEscape_takes {source bytes : List UInt8} (spelled : Escape source bytes)
    (stands : Stands reader (source ++ left)) :
    ∃ text, readEscape reader = .ok text (reader.advance source.length) ∧
      textBytes text = bytes := by
  cases spelled with
  | short escape =>
    rcases escapeBehind_short escape reader.position with ⟨text, selected, isText⟩
    refine ⟨text, ?_, isText⟩
    rw [readEscape_run stands, selected]
    rfl
  | @scalar quad code spelled notHigh notLow =>
    have four : quad.length = 4 := by
      rcases spelled with ⟨_, _, four, _⟩
      exact four
    refine ⟨scalarText code, ?_, textBytes_scalarText (valid_scalar spelled notHigh notLow)⟩
    rw [readEscape_run stands, List.length_cons, four]
    exact readUnicodeEscape_scalar spelled notHigh notLow stands.step _
  | @pair quad lowQuad high low spelled isHigh spelledLow isLow =>
    have four : quad.length = 4 := by
      rcases spelled with ⟨_, _, four, _⟩
      exact four
    have fourLow : lowQuad.length = 4 := by
      rcases spelledLow with ⟨_, _, four, _⟩
      exact four
    refine ⟨_, ?_, textBytes_scalarText (valid_pair isHigh isLow)⟩
    rw [List.cons_append, List.append_assoc] at stands
    rw [readEscape_run stands]
    simp only [List.length_cons, List.length_append, four, fourLow]
    exact readUnicodeEscape_pair spelled isHigh spelledLow isLow stands.step _

end Escapes

/-! ## Texts -/

theorem Escape.ends {source bytes : List UInt8} (spelled : Escape source bytes) :
    ∃ front last, source = front ++ [last] ∧ last < 128 := by
  have quadEnds {quad : List UInt8} {code : Nat} (isQuad : HexQuad quad code) :
      ∃ front last, quad = front ++ [last] ∧ last < 128 := by
    rcases isQuad with ⟨values, digits, four, -⟩
    have some : quad ≠ [] := by
      intro none
      rw [none] at four
      cases four
    refine ⟨quad.dropLast, quad.getLast some, (List.dropLast_concat_getLast some).symm, ?_⟩
    rcases List.mem_iff_getElem.mp (List.getLast_mem some) with ⟨index, inside, same⟩
    rcases List.forall₂_iff_get.mp digits with ⟨sameLength, each⟩
    have digit := each index inside (by omega)
    rw [List.get_eq_getElem, same] at digit
    exact (HexDigit.lt digit).2
  cases spelled with
  | @short letter byte escape =>
    refine ⟨[], letter, rfl, ?_⟩
    simp only [shortEscapes, List.mem_cons, Prod.mk.injEq, List.not_mem_nil, or_false] at escape
    rcases escape with ⟨rfl, -⟩ | ⟨rfl, -⟩ | ⟨rfl, -⟩ | ⟨rfl, -⟩ | ⟨rfl, -⟩ | ⟨rfl, -⟩ |
      ⟨rfl, -⟩ | ⟨rfl, -⟩
    all_goals decide
  | @scalar quad code isQuad notHigh notLow =>
    rcases quadEnds isQuad with ⟨front, last, rfl, ascii⟩
    exact ⟨117 :: front, last, rfl, ascii⟩
  | @pair quad lowQuad high low isQuad isHigh isQuadLow isLow =>
    rcases quadEnds isQuadLow with ⟨front, last, rfl, ascii⟩
    exact ⟨117 :: (quad ++ 92 :: 117 :: front), last, by simp, ascii⟩

section Texts

variable {reader : JsonReader} {runStart : Nat} {run rest left : List UInt8}

/-- The reader stands behind a run of bytes that began between characters. -/
structure Running (reader : JsonReader) (runStart : Nat) (run rest : List UInt8) : Prop where
  stands : Stands reader rest
  cut : ∃ front, textBytes reader.data = front ++ (run ++ rest) ∧ front.length = runStart
  begins : BeginsCharacter (run ++ rest)

theorem Running.position (running : Running reader runStart run rest) :
    reader.position = runStart + run.length := by
  rcases running.cut with ⟨front, whole, isStart⟩
  have counted := running.stands.length
  have total := congrArg List.length whole
  rw [List.length_append, List.length_append, ← running.stands.sized] at total
  omega

theorem Running.more {byte : UInt8} (running : Running reader runStart run (byte :: rest)) :
    Running (reader.advance 1) runStart (run ++ [byte]) rest where
  stands := running.stands.step
  cut := by
    rcases running.cut with ⟨front, whole, isStart⟩
    refine ⟨front, ?_, isStart⟩
    change textBytes reader.data = _
    rw [whole]
    simp
  begins := by
    rw [List.append_assoc]
    exact running.begins

theorem running_behind {front : List UInt8} {byte : UInt8}
    (stands : Stands reader (front ++ byte :: rest)) (ascii : byte < 128) :
    Running (reader.advance (front.length + 1)) (reader.advance (front.length + 1)).position []
      rest := by
  have whole := stands.whole
  have behind : Stands (reader.advance (front.length + 1)) rest := by
    have split : front ++ byte :: rest = (front ++ [byte]) ++ rest := by
      simp
    rw [split] at stands
    have onward := stands.advance
    rw [List.length_append, List.length_singleton] at onward
    exact onward
  refine ⟨behind, ⟨_, behind.whole, behind.front_length⟩, ?_⟩
  rw [← List.append_assoc] at whole
  exact begins_behind whole ascii

theorem Running.slice {byte : UInt8} (running : Running reader runStart run (byte :: rest))
    (ascii : byte < 128) : ∃ part,
      substring reader.data runStart reader.position = .ok part ∧ textBytes part = run := by
  have here := running.position
  rcases running.cut with ⟨front, whole, rfl⟩
  rw [here]
  exact substring_cut whole running.begins (begins_ascii ascii rest)

theorem readTextFrom_takes {source bytes : List UInt8} (content : Content source bytes)
    (out : String) (running : Running reader runStart run (source ++ 34 :: left)) (turns : Nat)
    (enough : source.length < turns) : ∃ text,
      readTextFrom out runStart turns reader =
          .ok text (reader.advance (source.length + 1)) ∧
        textBytes text = textBytes out ++ (run ++ bytes) := by
  induction content generalizing reader runStart run out turns with
  | done =>
    cases turns with
    | zero => exact absurd enough (Nat.not_lt_zero _)
    | succ turns =>
      rcases running.slice (by decide) with ⟨part, sliced, isRun⟩
      refine ⟨out ++ part, ?_, ?_⟩
      · simp only [readTextFrom]
        rw [bind_run_ok (get_run reader), if_pos running.stands.inside,
          bind_run_ok (charAt_front running.stands)]
        rw [if_pos rfl, sliced, bind_run_ok (orTrap_ok part reader),
          bind_run_ok (moveBy_run 1 reader)]
        rfl
      · rw [textBytes_append, isRun, List.append_nil]
  | @plain byte source bytes printed notQuote notSlash content ih =>
    cases turns with
    | zero => exact absurd enough (Nat.not_lt_zero _)
    | succ turns =>
      rcases ih out running.more turns (Nat.lt_of_succ_lt_succ enough) with
        ⟨text, ran, isText⟩
      refine ⟨text, ?_, ?_⟩
      · simp only [readTextFrom]
        rw [bind_run_ok (get_run reader), if_pos running.stands.inside,
          bind_run_ok (charAt_front running.stands), if_neg notQuote, if_neg notSlash,
          if_neg (UInt8.not_lt.mpr printed), bind_run_ok (moveBy_run 1 reader), ran,
          advance_advance, List.length_cons, Nat.add_comm 1]
      · rw [isText]
        simp
  | @escaped escape escapeBytes source bytes spelled content ih =>
    cases turns with
    | zero => exact absurd enough (Nat.not_lt_zero _)
    | succ turns =>
      rcases running.slice (by decide) with ⟨part, sliced, isRun⟩
      have stands : Stands (reader.advance 1) (escape ++ (source ++ 34 :: left)) := by
        rw [← List.append_assoc]
        exact running.stands.step
      rcases readEscape_takes spelled stands with ⟨escapeText, ranEscape, isEscape⟩
      rcases Escape.ends spelled with ⟨front, last, rfl, ascii⟩
      have onward := @running_behind _ (source ++ 34 :: left) front last
        (by rw [List.append_assoc] at stands; exact stands) ascii
      have goesOn : ¬ ((reader.advance 1).advance (front ++ [last]).length).stopped = true := by
        change ¬ reader.stopped = true
        rw [running.stands.goesOn]
        decide
      have fewer : source.length < turns := by
        simp only [List.length_cons, List.length_append] at enough
        omega
      rcases ih (out ++ part ++ escapeText) onward turns fewer with ⟨text, ran, isText⟩
      refine ⟨text, ?_, ?_⟩
      · simp only [readTextFrom]
        rw [bind_run_ok (get_run reader), if_pos running.stands.inside,
          bind_run_ok (charAt_front running.stands)]
        rw [if_neg (by decide), if_pos rfl, sliced, bind_run_ok (orTrap_ok part reader),
          bind_run_ok (moveBy_run 1 reader), bind_run_ok ranEscape, bind_run_ok (get_run _),
          if_neg goesOn]
        rw [List.length_append, List.length_singleton, ran]
        have counted : 1 + (front.length + 1) + (source.length + 1) =
            (92 :: (front ++ [last] ++ source)).length + 1 := by
          simp only [List.length_cons, List.length_append, List.length_nil]
          omega
        rw [advance_advance, advance_advance, ← Nat.add_assoc, counted]
      · rw [isText, textBytes_append, textBytes_append, isRun, isEscape]
        simp

theorem readText_takes {bytes : List UInt8} {text : String} (quoted : Quoted bytes text)
    (stands : Stands reader (bytes ++ left)) :
    readText reader = .ok text (reader.advance bytes.length) := by
  rcases quoted with ⟨source, rfl, content⟩
  have opened : Stands reader ([] ++ 34 :: (source ++ 34 :: left)) := by
    rw [List.cons_append, List.append_assoc] at stands
    exact stands
  have running := running_behind opened (by decide)
  rw [List.length_nil, Nat.zero_add] at running
  have enough : source.length < (reader.advance 1).turnsOf := by
    have room := running.stands.turns
    rw [List.length_append] at room
    omega
  rcases readTextFrom_takes content "" running _ enough with ⟨read, ran, isText⟩
  have same : read = text := by
    have sameBytes : textBytes read = textBytes text := by
      rw [isText]
      rfl
    exact textBytes_injective sameBytes
  simp only [readText]
  rw [bind_run_ok (moveBy_run 1 reader), bind_run_ok (get_run _), ran, same, advance_advance]
  simp only [List.length_cons, List.length_append, List.length_nil]
  congr 2
  omega

end Texts

end JsonReader

end Foundation

end KiraVm
