import KiraVm.JsonTexts

/-!
# Written texts and integers

What the writer makes of a text is a quoted text of the grammar, and what it makes
of an integer is a literal of the grammar, each with the value that was written.
-/

namespace KiraVm

namespace Foundation

open Json

/-! ## Texts -/

set_option maxRecDepth 20000 in
theorem hexDigits_slice {index : Nat} (inside : index < 16) : ∃ part digit,
    substring hexDigits index (index + 1) = .ok part ∧ textBytes part = [digit] ∧
      HexDigit digit index := by
  have known : ∀ index < 16, ∃ digit ∈ (textBytes hexDigits)[index]?, digit < 128 ∧
      (48 ≤ digit ∧ digit ≤ 57 ∧ index = digit.toNat - 48 ∨
        97 ≤ digit ∧ digit ≤ 102 ∧ index = digit.toNat - 87) := by decide
  have ascii : ∀ digit ∈ textBytes hexDigits, digit < 128 := by decide
  rcases known index inside with ⟨digit, here, small, value⟩
  rcases List.getElem?_eq_some_iff.mp here with ⟨room, isDigit⟩
  have whole : textBytes hexDigits = (textBytes hexDigits).take index ++
      ([digit] ++ (textBytes hexDigits).drop (index + 1)) := by
    rw [← isDigit, List.singleton_append, List.getElem_cons_drop, List.take_append_drop]
  have beginsAfter : BeginsCharacter ((textBytes hexDigits).drop (index + 1)) := by
    intro byte first
    exact ascii_byte (ascii byte (List.mem_of_mem_drop (List.mem_of_mem_head? first)))
  rcases substring_cut whole (begins_ascii small _) beginsAfter with ⟨part, cut, isPart⟩
  rw [List.length_take, Nat.min_eq_left (Nat.le_of_lt room)] at cut
  refine ⟨part, digit, cut, isPart, ?_⟩
  rcases value with decimal | letter
  · exact Or.inl decimal
  · exact Or.inr (Or.inl letter)

theorem jsonControlEscape_denotes {byte : Nat} (control : byte < 32) : ∃ escape source,
    jsonControlEscape byte = .ok escape ∧ textBytes escape = 92 :: source ∧
      Escape source [UInt8.ofNat byte] := by
  unfold jsonControlEscape
  by_cases isBackspace : byte = 8
  · subst isBackspace
    exact ⟨_, [98], if_pos rfl, by decide, Escape.short (by decide)⟩
  rw [if_neg isBackspace]
  by_cases isTab : byte = 9
  · subst isTab
    exact ⟨_, [116], if_pos rfl, by decide, Escape.short (by decide)⟩
  rw [if_neg isTab]
  by_cases isNewline : byte = 10
  · subst isNewline
    exact ⟨_, [110], if_pos rfl, by decide, Escape.short (by decide)⟩
  rw [if_neg isNewline]
  by_cases isFeed : byte = 12
  · subst isFeed
    exact ⟨_, [102], if_pos rfl, by decide, Escape.short (by decide)⟩
  rw [if_neg isFeed]
  by_cases isReturn : byte = 13
  · subst isReturn
    exact ⟨_, [114], if_pos rfl, by decide, Escape.short (by decide)⟩
  rw [if_neg isReturn]
  rcases hexDigits_slice (by omega : byte / 16 < 16) with ⟨high, highByte, cutHigh, isHigh, first⟩
  rcases hexDigits_slice (by omega : byte % 16 < 16) with ⟨low, lowByte, cutLow, isLow, second⟩
  have zero : HexDigit 48 0 := Or.inl ⟨by decide, by decide, rfl⟩
  have quad : HexQuad [48, 48, highByte, lowByte] byte := by
    refine ⟨[0, 0, byte / 16, byte % 16], ?_, rfl, ?_⟩
    · exact .cons zero (.cons zero (.cons first (.cons second .nil)))
    · simp only [List.foldl_cons, List.foldl_nil]
      omega
  have same : scalarBytes byte = [UInt8.ofNat byte] := by
    have small : ∀ byte < 32, scalarBytes byte = [UInt8.ofNat byte] := by decide
    exact small byte control
  have begun : textBytes "\\u00" = [92, 117, 48, 48] := by decide
  refine ⟨"\\u00" ++ high ++ low, 117 :: [48, 48, highByte, lowByte], ?_, ?_, ?_⟩
  · rw [cutHigh, cutLow]
    rfl
  · rw [textBytes_append, textBytes_append, isHigh, isLow, begun]
    rfl
  · rw [← same]
    exact Escape.scalar quad (fun half => by unfold IsHighHalf at half; omega)
      (fun half => by unfold IsLowHalf at half; omega)

theorem jsonEscapeOf_denotes (byte : UInt8) :
    (jsonEscapeOf byte = .ok "" ∧ 32 ≤ byte ∧ byte ≠ 34 ∧ byte ≠ 92) ∨
      ∃ escape source, jsonEscapeOf byte = .ok escape ∧ textBytes escape = 92 :: source ∧
        Escape source [byte] ∧ byte < 128 := by
  unfold jsonEscapeOf
  by_cases isQuote : byte = 34
  · subst isQuote
    exact Or.inr ⟨_, [34], if_pos rfl, by decide, Escape.short (by decide), by decide⟩
  rw [if_neg isQuote]
  by_cases isSlash : byte = 92
  · subst isSlash
    exact Or.inr ⟨_, [92], if_pos rfl, by decide, Escape.short (by decide), by decide⟩
  rw [if_neg isSlash]
  by_cases control : byte < 32
  · rcases jsonControlEscape_denotes (UInt8.lt_iff_toNat_lt.mp control) with
      ⟨escape, source, written, bytes, spelled⟩
    rw [UInt8.ofNat_toNat] at spelled
    refine Or.inr ⟨escape, source, ?_, bytes, spelled, UInt8.lt_trans control (by decide)⟩
    rw [if_pos control, written]
  · exact Or.inl ⟨if_neg control, UInt8.not_lt.mp control, isQuote, isSlash⟩

def Plain (bytes : List UInt8) : Prop :=
  ∀ byte ∈ bytes, 32 ≤ byte ∧ byte ≠ 34 ∧ byte ≠ 92

theorem content_plain {run source bytes : List UInt8} (plain : Plain run)
    (content : Content source bytes) : Content (run ++ source) (run ++ bytes) := by
  induction run with
  | nil => exact content
  | cons byte run ih =>
    rcases plain byte (List.mem_cons_self ..) with ⟨printed, notQuote, notSlash⟩
    exact Content.plain printed notQuote notSlash
      (ih fun other among => plain other (List.mem_cons_of_mem _ among))

theorem jsonWriteTextFrom_denotes {text : String} {front run rest : List UInt8} (out : String)
    (whole : textBytes text = front ++ (run ++ rest)) (begins : BeginsCharacter (run ++ rest))
    (plain : Plain run) : ∃ written source,
      jsonWriteTextFrom text out front.length (front.length + run.length) = .ok written ∧
        textBytes written = textBytes out ++ (source ++ [34]) ∧ Content source (run ++ rest) := by
  have quote : textBytes "\"" = [34] := by decide
  have total := congrArg List.length whole
  rw [List.length_append, List.length_append] at total
  induction rest generalizing front run out with
  | nil =>
    rcases substring_cut whole begins (fun byte first => by cases first) with ⟨part, cut, isRun⟩
    rw [List.length_nil, Nat.add_zero] at total
    refine ⟨out ++ part ++ "\"", run, ?_, ?_, ?_⟩
    · rw [jsonWriteTextFrom, if_neg (by omega), total, cut]
      rfl
    · rw [textBytes_append, textBytes_append, isRun, quote, List.append_assoc]
    · have content := content_plain plain Content.done
      rw [List.append_nil] at content ⊢
      exact content
  | cons byte rest ih =>
    rw [List.length_cons] at total
    have here : byteAt (textBytes text) (front.length + run.length) = .ok byte := by
      apply byteAt_ok
      rw [whole, ← List.append_assoc, ← List.length_append,
        List.getElem?_append_right (Nat.le_refl _), Nat.sub_self]
      rfl
    rw [jsonWriteTextFrom, if_pos (by omega), here, ok_bind]
    rcases jsonEscapeOf_denotes byte with
      ⟨copied, printed⟩ | ⟨escape, source, escaped, spelling, spelled, ascii⟩
    · rw [copied, ok_bind, if_neg (not_not.mpr rfl)]
      have plainMore : Plain (run ++ [byte]) := by
        intro other among
        rcases List.mem_append.mp among with inRun | isByte
        · exact plain other inRun
        · rw [List.mem_singleton.mp isByte]
          exact printed
      have onward := @ih front (run ++ [byte]) out
        (by rw [whole, List.append_assoc run, List.singleton_append])
        (by rw [List.append_assoc, List.singleton_append]; exact begins) plainMore
        (by rw [List.length_append, List.length_singleton]; omega)
      rw [List.length_append, List.length_singleton, List.append_assoc,
        List.singleton_append] at onward
      exact onward
    · have some : escape ≠ "" := by
        rintro rfl
        cases spelling
      rcases substring_cut whole begins (begins_ascii ascii rest) with ⟨part, cut, isRun⟩
      have behind : textBytes text = (front ++ (run ++ [byte])) ++ ([] ++ rest) := by
        rw [whole]
        simp
      have length : (front ++ (run ++ [byte])).length = front.length + run.length + 1 := by
        simp only [List.length_append, List.length_singleton]
        omega
      have begun : BeginsCharacter ([] ++ rest) := by
        have split : textBytes text = (front ++ run) ++ byte :: rest := by
          rw [whole, List.append_assoc]
        exact begins_behind split ascii
      rcases @ih (front ++ (run ++ [byte])) [] (out ++ part ++ escape) behind begun
        (fun other among => nomatch among) (by rw [length, List.length_nil]; omega) with
        ⟨written, more, ran, bytes, content⟩
      rw [length, List.length_nil, Nat.add_zero] at ran
      rw [escaped, ok_bind, if_pos some, cut, ok_bind, ran]
      refine ⟨written, run ++ 92 :: (source ++ more), rfl, ?_, ?_⟩
      · rw [bytes, textBytes_append, textBytes_append, isRun, spelling]
        simp only [List.append_assoc, List.cons_append]
      · exact content_plain plain (Content.escaped spelled content)

theorem jsonWriteText_denotes (text : String) : ∃ written, jsonWriteText text = .ok written ∧
    Quoted (textBytes written) text := by
  have whole : textBytes text = [] ++ ([] ++ textBytes text) := rfl
  have begins : BeginsCharacter ([] ++ textBytes text) := by
    rw [textBytes_toList]
    exact begins_chars text.toList
  rcases jsonWriteTextFrom_denotes "\"" whole begins (fun byte among => nomatch among) with
    ⟨written, source, ran, bytes, content⟩
  have quote : textBytes "\"" = [34] := by decide
  rw [quote] at bytes
  exact ⟨written, ran, source, bytes, content⟩

/-! ## Integers -/

def decimalBytes (number : Nat) : List UInt8 :=
  (Nat.toDigits 10 number).flatMap String.utf8EncodeChar

variable {digit : Nat}

theorem decimalBytes_digit (small : digit < 10) :
    decimalBytes digit = [UInt8.ofNat (48 + digit)] := by
  have known : ∀ digit < 10, decimalBytes digit = [UInt8.ofNat (48 + digit)] := by decide
  exact known digit small

theorem decimalBytes_more {front : Nat} (positive : 0 < front) (small : digit < 10) :
    decimalBytes (10 * front + digit) = decimalBytes front ++ [UInt8.ofNat (48 + digit)] := by
  rw [← decimalBytes_digit small]
  unfold decimalBytes
  rw [← Nat.toDigits_append_toDigits (by decide) positive small, List.flatMap_append]

/-- A number is spelled by its digits, the first of which is a zero only in `0`. -/
structure SpellsNumber (bytes : List UInt8) (number : Nat) : Prop where
  digits : Digits bytes
  value : decimalOf bytes = number
  noLeadingZero : bytes.head? = some 48 → bytes = [48] ∧ number = 0

theorem digit_byte (small : digit < 10) :
    48 ≤ UInt8.ofNat (48 + digit) ∧ UInt8.ofNat (48 + digit) ≤ 57 ∧
      digitOf (UInt8.ofNat (48 + digit)) = digit ∧
      (UInt8.ofNat (48 + digit) = 48 → digit = 0) := by
  have known : ∀ digit < 10, 48 ≤ UInt8.ofNat (48 + digit) ∧ UInt8.ofNat (48 + digit) ≤ 57 ∧
      digitOf (UInt8.ofNat (48 + digit)) = digit ∧
      (UInt8.ofNat (48 + digit) = 48 → digit = 0) := by decide
  exact known digit small

theorem decimalBytes_spells (number : Nat) : SpellsNumber (decimalBytes number) number := by
  induction number using Nat.strong_induction_on with
  | _ number ih =>
    by_cases small : number < 10
    · rcases digit_byte small with ⟨low, high, value, zero⟩
      rw [decimalBytes_digit small]
      refine ⟨⟨List.cons_ne_nil _ _, ?_⟩, ?_, ?_⟩
      · intro byte among
        rw [List.mem_singleton.mp among]
        exact ⟨low, high⟩
      · unfold decimalOf
        rw [List.foldl_cons, List.foldl_nil, value]
        omega
      · intro first
        have isZero := Option.some.inj first
        rw [isZero]
        exact ⟨rfl, zero isZero⟩
    · have positive : 0 < number / 10 := by omega
      have lastSmall : number % 10 < 10 := Nat.mod_lt _ (by decide)
      rcases digit_byte lastSmall with ⟨low, high, value, -⟩
      have front := ih (number / 10) (by omega)
      have bytes := decimalBytes_more positive lastSmall
      rw [Nat.div_add_mod] at bytes
      rw [bytes]
      refine ⟨⟨by simp, ?_⟩, ?_, ?_⟩
      · intro byte among
        rcases List.mem_append.mp among with inFront | isLast
        · exact front.digits.2 byte inFront
        · rw [List.mem_singleton.mp isLast]
          exact ⟨low, high⟩
      · have before := front.value
        unfold decimalOf at before ⊢
        rw [List.foldl_append, before, List.foldl_cons, List.foldl_nil, value]
        omega
      · intro first
        have zero : (decimalBytes (number / 10)).head? = some 48 := by
          rw [← first, List.head?_append_of_ne_nil _ front.digits.1]
        have none := (front.noLeadingZero zero).2
        omega

theorem textBytes_natural (number : Nat) : textBytes number.repr = decimalBytes number := by
  rw [textBytes_toList, Nat.toList_repr]
  rfl

theorem integer_literal (number : Int) : ∃ literal : Literal, literal.IsWell ∧
    textBytes (toString number) = literal.bytes ∧ literal.integer = number := by
  have well {negative : Bool} {bytes : List UInt8} {magnitude : Nat}
      (spells : SpellsNumber bytes magnitude) : (Literal.mk negative bytes).IsWell :=
    ⟨spells.digits, fun first => (spells.noLeadingZero first).1⟩
  cases number with
  | ofNat number =>
    have spells := decimalBytes_spells number
    exact ⟨⟨false, decimalBytes number⟩, well spells, textBytes_natural number, spells.value⟩
  | negSucc number =>
    have spells := decimalBytes_spells (number + 1)
    refine ⟨⟨true, decimalBytes (number + 1)⟩, well spells, ?_, ?_⟩
    · change textBytes ("-" ++ (number + 1).repr) = [45] ++ decimalBytes (number + 1)
      have minus : textBytes "-" = [45] := by decide
      rw [textBytes_append, textBytes_natural, minus]
    · change -decimalOf (decimalBytes (number + 1)) = _
      rw [spells.value]
      rfl

end Foundation

end KiraVm
