import KiraVm.NumberTexts
import KiraVm.ProfileModel

/-!
# Words and lines of a trace

A written word spells a text when splitting a line at it adds the text to the word in
progress.  The words of a record are the texts that its parts spell, and the lines of a
trace are the records.
-/

namespace KiraVm.Profiling

open Decimal (isWhitespace)

/-! ## Words -/

/-- A written word that stands for a text, on one line. -/
structure Spells (word : List Char) (text : String) : Prop where
  folds : ∀ (words : List String) (current : List Char) (started : Bool),
    word.foldl Splitter.step ⟨words, current, false, false, started⟩ =
      ⟨words, current ++ text.toList, false, false, true⟩
  feedless : '\n' ∉ word
  ends : ∃ last, word.getLast? = some last ∧ last ≠ '\r'

variable {character : Char} {parts : List (List Char)} {texts : List String} {key : String}

theorem bareChar_iff : bareChar character = true ↔
    isWhitespace character = false ∧ character ≠ '"' ∧ character ≠ '\\' := by
  simp [bareChar, and_assoc]

theorem not_bareChar_feed : bareChar '\n' = false := by decide

theorem not_bareChar_return : bareChar '\r' = false := by decide

theorem step_bare (bare : bareChar character = true) (words : List String) (current : List Char)
    (started : Bool) :
    Splitter.step ⟨words, current, false, false, started⟩ character =
      ⟨words, current ++ [character], false, false, true⟩ := by
  obtain ⟨visible, notQuote, -⟩ := bareChar_iff.mp bare
  simp [Splitter.step, visible, notQuote]

theorem foldl_bare {word : List Char} (bare : ∀ character ∈ word, bareChar character = true)
    (nonempty : word ≠ []) (words : List String) (current : List Char) (started : Bool) :
    word.foldl Splitter.step ⟨words, current, false, false, started⟩ =
      ⟨words, current ++ word, false, false, true⟩ := by
  induction word generalizing current started with
  | nil => exact absurd rfl nonempty
  | cons character rest ih =>
    rw [List.foldl_cons, step_bare (bare character List.mem_cons_self)]
    by_cases last : rest = []
    · subst last
      rfl
    · rw [ih (fun other member => bare other (List.mem_cons_of_mem _ member)) last,
        List.append_assoc, List.singleton_append]

theorem Spells.bare {word : List Char} (bare : ∀ character ∈ word, bareChar character = true)
    (nonempty : word ≠ []) : Spells word (String.ofList word) where
  folds := by
    intro words current started
    rw [String.toList_ofList]
    exact foldl_bare bare nonempty words current started
  feedless := by
    intro member
    have feed := bare '\n' member
    rw [not_bareChar_feed] at feed
    cases feed
  ends := by
    refine ⟨word.getLast nonempty, List.getLast?_eq_some_getLast nonempty, ?_⟩
    intro isReturn
    have last := bare _ (List.getLast_mem nonempty)
    rw [isReturn, not_bareChar_return] at last
    cases last

/-- Between quotation marks an escaped character is itself. -/
theorem foldl_escape (character : Char) (words : List String) (current : List Char) :
    (escape character).foldl Splitter.step ⟨words, current, true, false, true⟩ =
      ⟨words, current ++ [character], true, false, true⟩ := by
  unfold escape
  split
  · rfl
  · rfl
  · rfl
  · next notQuote notBackslash notFeed =>
      have isNotQuote : character ≠ '"' := notQuote
      have isNotBackslash : character ≠ '\\' := notBackslash
      simp [Splitter.step, isNotQuote, isNotBackslash]

theorem foldl_escapes (text : List Char) (words : List String) (current : List Char) :
    (text.flatMap escape).foldl Splitter.step ⟨words, current, true, false, true⟩ =
      ⟨words, current ++ text, true, false, true⟩ := by
  induction text generalizing current with
  | nil => simp
  | cons character rest ih =>
    rw [List.flatMap_cons, List.foldl_append, foldl_escape, ih, List.append_assoc,
      List.singleton_append]

theorem escape_feedless (character : Char) : '\n' ∉ escape character := by
  unfold escape
  split
  · decide
  · decide
  · decide
  · next notQuote notBackslash notFeed => simpa using fun same => notFeed same.symm

theorem Spells.quote (text : String) : Spells (quote text) text := by
  unfold Profiling.quote
  split
  · next plain =>
      rw [Bool.and_eq_true, List.all_eq_true] at plain
      have nonempty : text.toList ≠ [] := by
        intro isEmpty
        have empty : text = "" := String.toList_eq_nil_iff.mp isEmpty
        rw [empty] at plain
        exact absurd plain.1 (by decide)
      have spells := Spells.bare plain.2 nonempty
      rwa [String.ofList_toList] at spells
  · refine ⟨?_, ?_, ⟨'"', ?_, by decide⟩⟩
    · intro words current started
      have opened : Splitter.step ⟨words, current, false, false, started⟩ '"' =
          ⟨words, current, true, false, true⟩ := rfl
      rw [List.foldl_cons, opened, List.foldl_append, foldl_escapes]
      rfl
    · intro member
      rcases List.mem_cons.mp member with isQuote | inside
      · exact absurd isQuote (by decide)
      · rcases List.mem_append.mp inside with escaped | isQuote
        · obtain ⟨character, -, inEscape⟩ := List.mem_flatMap.mp escaped
          exact escape_feedless character inEscape
        · exact absurd (List.mem_singleton.mp isQuote) (by decide)
    · rw [← List.cons_append]
      exact List.getLast?_concat

theorem Spells.after {word : List Char} {text : String} (spells : Spells word text)
    {before : List Char} (bare : ∀ character ∈ before, bareChar character = true)
    (nonempty : before ≠ []) : Spells (before ++ word) (String.ofList before ++ text) where
  folds := by
    intro words current started
    rw [List.foldl_append, foldl_bare bare nonempty, spells.folds, String.toList_append,
      String.toList_ofList, List.append_assoc]
  feedless := by
    rw [List.mem_append]
    rintro (early | late)
    · exact (Spells.bare bare nonempty).feedless early
    · exact spells.feedless late
  ends := by
    obtain ⟨last, isLast, notReturn⟩ := spells.ends
    exact ⟨last, by rw [List.getLast?_append, isLast]; rfl, notReturn⟩

/-! ## Records -/

theorem foldl_blank (words : List String) (current : List Char) :
    Splitter.step ⟨words, current, false, false, true⟩ ' ' =
      ⟨words ++ [String.ofList current], [], false, false, false⟩ := by
  simp [Splitter.step]
  decide

theorem foldl_record (spells : List.Forall₂ Spells parts texts) (nonempty : parts ≠ [])
    (words : List String) :
    ((record parts).foldl Splitter.step ⟨words, [], false, false, false⟩).finish =
      words ++ texts := by
  induction spells generalizing words with
  | nil => exact absurd rfl nonempty
  | @cons part text parts texts first rest ih =>
    cases rest with
    | nil =>
      simp only [record, List.intercalate_singleton]
      rw [first.folds]
      simp [Splitter.finish]
    | @cons second secondText others otherTexts secondSpells othersSpell =>
      have split : record (part :: second :: others) = part ++ ' ' :: record (second :: others) := by
        simp [record, List.intercalate_cons_cons]
      rw [split, List.foldl_append, first.folds, List.foldl_cons, foldl_blank,
        ih (List.cons_ne_nil _ _), List.nil_append, String.ofList_toList, List.append_assoc,
        List.singleton_append]

theorem words_record (spells : List.Forall₂ Spells parts texts) (nonempty : parts ≠ []) :
    words (record parts) = texts :=
  foldl_record spells nonempty []

/-- What the lines of a trace are made of. -/
structure IsLine (line : List Char) : Prop where
  feedless : '\n' ∉ line
  ends : line.getLast? ≠ some '\r'

theorem isLine_record (spells : List.Forall₂ Spells parts texts) : IsLine (record parts) := by
  induction spells with
  | nil => exact ⟨by simp [record], by simp [record]⟩
  | @cons part text parts texts first rest ih =>
    obtain ⟨last, isLast, notReturn⟩ := first.ends
    cases rest with
    | nil =>
      simp only [record, List.intercalate_singleton]
      refine ⟨first.feedless, ?_⟩
      rw [isLast]
      intro same
      exact notReturn (Option.some.inj same)
    | @cons second secondText others otherTexts secondSpells othersSpell =>
      have split : record (part :: second :: others) =
          part ++ ' ' :: record (second :: others) := by
        simp [record, List.intercalate_cons_cons]
      rw [split]
      refine ⟨?_, ?_⟩
      · rw [List.mem_append, List.mem_cons]
        rintro (early | blank | late)
        · exact first.feedless early
        · exact absurd blank (by decide)
        · exact ih.feedless late
      · have ends := ih.ends
        rw [List.getLast?_append, List.getLast?_cons]
        cases isEnd : (record (second :: others)).getLast? with
        | none => simp
        | some last =>
          rw [isEnd] at ends
          simpa using ends

/-! ## Lines -/

theorem linesFrom_line {line : List Char} (feedless : '\n' ∉ line) (current rest : List Char) :
    linesFrom current (line ++ rest) = linesFrom (current ++ line) rest := by
  induction line generalizing current with
  | nil => simp
  | cons character others ih =>
    rw [List.mem_cons, not_or] at feedless
    rw [List.cons_append, linesFrom, if_neg fun same => feedless.1 same.symm, ih feedless.2,
      List.append_assoc, List.singleton_append]

theorem lines_unlines {written : List (List Char)} (isLines : ∀ line ∈ written, IsLine line) :
    lines (unlines written) = written := by
  induction written with
  | nil => rfl
  | cons line rest ih =>
    have isLine := isLines line List.mem_cons_self
    have rests := ih fun other member => isLines other (List.mem_cons_of_mem _ member)
    unfold lines unlines at rests ⊢
    rw [List.flatMap_cons, List.append_assoc, linesFrom_line isLine.feedless, List.nil_append,
      List.singleton_append, linesFrom, if_pos rfl, if_neg isLine.ends, rests]

/-! ## Numbers -/

theorem bareChar_digit (digit : character.isDigit = true) : bareChar character = true :=
  bareChar_iff.mpr ⟨Decimal.digit_not_whitespace digit, Decimal.digit_ne digit (by decide),
    Decimal.digit_ne digit (by decide)⟩

theorem decimal_bare (number : Nat) : ∀ character ∈ decimal number, bareChar character = true :=
  fun character member => bareChar_digit (Decimal.digits_isDigit number character member)

theorem decimal_spells (number : Nat) : Spells (decimal number) (String.ofList (decimal number)) :=
  Spells.bare (decimal_bare number) Nat.toDigits_ne_nil

theorem parseDigits_decimal (number : Nat) : parseDigits (decimal number) = some number := by
  unfold parseDigits
  rw [if_pos ⟨Nat.toDigits_ne_nil, List.all_eq_true.mpr (Decimal.digits_isDigit number)⟩]
  rw [decimal, Nat.ofDigitChars_toDigits (by decide) (by decide)]

theorem unsigned_decimal (number : Nat) :
    unsigned (String.ofList (decimal number)) = some number := by
  unfold unsigned
  rw [String.toList_ofList]
  split
  · next digits same =>
      have plus := Decimal.digits_isDigit number '+' (by
        rw [← decimal, same]
        exact List.mem_cons_self)
      exact absurd plus (by decide)
  · exact parseDigits_decimal number

theorem number_decimal (line : Nat) (value : UInt64) :
    number line (String.ofList (decimal value.toNat)) = .ok value := by
  unfold number parseU64
  rw [unsigned_decimal]
  simp only [value.toNat_lt, if_true, UInt64.ofNat_toNat]

theorem number_decimal_u32 (line : Nat) (value : UInt32) :
    number line (String.ofList (decimal value.toNat)) = .ok value.toUInt64 := by
  rw [← UInt32.toNat_toUInt64]
  exact number_decimal line value.toUInt64

theorem parseU32_decimal (value : UInt32) :
    parseU32 (String.ofList (decimal value.toNat)) = some value := by
  unfold parseU32
  rw [unsigned_decimal]
  simp only [value.toNat_lt, if_true, UInt32.ofNat_toNat]

theorem signed_bare (number : Int) : ∀ character ∈ signed number, bareChar character = true := by
  unfold signed
  split
  · intro character member
    rcases List.mem_cons.mp member with rfl | digit
    · decide
    · exact decimal_bare _ character digit
  · exact decimal_bare _

theorem signed_nonempty (number : Int) : signed number ≠ [] := by
  unfold signed
  split
  · exact List.cons_ne_nil _ _
  · exact Nat.toDigits_ne_nil

theorem parseI32_signed (value : Int32) :
    parseI32 (String.ofList (signed value.toInt)) = some value := by
  have low := value.le_toInt
  have high := value.toInt_lt
  unfold parseI32 signed
  rw [String.toList_ofList]
  by_cases negative : value.toInt < 0
  · rw [if_pos negative]
    simp only
    rw [parseDigits_decimal]
    simp only
    rw [if_pos (by omega), Int.ofNat_natAbs_of_nonpos (by omega), Int.neg_neg, Int32.ofInt_toInt]
  · rw [if_neg negative]
    split
    · next digits same =>
        have minus := Decimal.digits_isDigit value.toInt.natAbs '-' (by
          rw [← decimal, same]
          exact List.mem_cons_self)
        exact absurd minus (by decide)
    · rw [unsigned_decimal]
      simp only
      rw [if_pos (by omega), Int.natAbs_of_nonneg (by omega), Int32.ofInt_toInt]

/-! ## Fields -/

/-- The word of a field. -/
def keyed (key value : String) : String :=
  String.ofList (key.toList ++ ['=']) ++ value

theorem field_keyed (keyBare : '=' ∉ key.toList) (value : String) :
    field (keyed key value) = some (key, value) := by
  have chars : (keyed key value).toList = key.toList ++ '=' :: value.toList := by
    simp [keyed]
  have differ : ∀ character ∈ key.toList, decide (character ≠ '=') = true := by
    intro character member
    rw [decide_eq_true_eq]
    rintro rfl
    exact keyBare member
  unfold field
  rw [chars, if_pos (by simp), List.takeWhile_append_of_pos differ,
    List.dropWhile_append_of_pos differ]
  simp

theorem named_spells {word : List Char} {value : String} (spells : Spells word value)
    (keyBare : ∀ character ∈ key.toList, bareChar character = true) :
    Spells (named key word) (keyed key value) := by
  have spelled := @Spells.after word value spells (key.toList ++ ['=']) (by
    intro character member
    rcases List.mem_append.mp member with inKey | isEqual
    · exact keyBare character inKey
    · rw [List.mem_singleton.mp isEqual]
      decide) (by simp)
  rwa [List.append_assoc, List.singleton_append] at spelled

/-- The words of every trace: records, keys and labels. -/
def vocabulary : List String :=
  [magic, "meta", "profile", "thread", "frame", "sample", "command", "argument", "backend", "source",
    "started-unix-ms", "duration", "exit-code", "event", "unit", "collector", "frequency", "lost",
    "name", "kind", "object", "function", "offset", "file", "line", "time", "weight", "stack",
    "kira", "runtime", "native", "foreign", "system", "unknown", "machine", "nanoseconds", "cycles",
    "instructions", "vm", "hybrid", "llvm"]

theorem vocabulary_bare : ∀ word ∈ vocabulary, word.toList ≠ [] ∧ '=' ∉ word.toList ∧
    ∀ character ∈ word.toList, bareChar character = true := by
  have checked : (vocabulary.all fun word =>
      decide (word.toList ≠ []) && decide ('=' ∉ word.toList) && word.toList.all bareChar) = true := by
    decide
  intro word listed
  have one := List.all_eq_true.mp checked word listed
  rw [Bool.and_eq_true, Bool.and_eq_true, decide_eq_true_eq, decide_eq_true_eq,
    List.all_eq_true] at one
  exact ⟨one.1.1, one.1.2, one.2⟩

theorem known_bare {word : String} (known : word ∈ vocabulary) :
    ∀ character ∈ word.toList, bareChar character = true :=
  (vocabulary_bare word known).2.2

theorem known_spells {word : String} (known : word ∈ vocabulary) : Spells word.toList word := by
  have spells := Spells.bare (known_bare known) (vocabulary_bare word known).1
  rwa [String.ofList_toList] at spells

theorem known_field (known : key ∈ vocabulary) (value : String) :
    field (keyed key value) = some (key, value) :=
  field_keyed (vocabulary_bare key known).2.1 value

end KiraVm.Profiling
