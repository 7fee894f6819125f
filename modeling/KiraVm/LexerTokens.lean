import KiraVm.LexerTakes

/-!
# What the lexer does with a token

A token is taken as long as it is, since what follows it does not go on with it; a
literal with one report for each escape that is unknown.
-/

namespace KiraVm

namespace Lexing

open Foundation

/-! ## Bytes -/

theorem forall_bytes {holds : UInt8 → Prop} (each : ∀ number < 256, holds (UInt8.ofNat number))
    (byte : UInt8) : holds byte := by
  have here := each byte.toNat byte.toNat_lt
  rw [UInt8.ofNat_toNat] at here
  exact here

set_option maxRecDepth 20000 in
theorem letter_byte (byte : UInt8) : byte = 95 ∨ isAsciiAlphabetic byte = true →
    byte ≠ 34 ∧ isAsciiDigit byte = false ∧ isIdentifierByte byte = true ∧
      isAsciiWhitespace byte = false ∧ byte ≠ 47 := by
  revert byte
  apply forall_bytes
  decide

set_option maxRecDepth 20000 in
theorem digit_byte (byte : UInt8) : isAsciiDigit byte = true →
    byte ≠ 34 ∧ byte ≠ 120 ∧ byte ≠ 88 ∧ byte ≠ 46 ∧ isAsciiWhitespace byte = false ∧
      byte ≠ 47 := by
  revert byte
  apply forall_bytes
  decide

set_option maxRecDepth 20000 in
theorem symbol_byte (byte : UInt8) : Lexer.singleCharacter byte ≠ none →
    byte ≠ 34 ∧ isAsciiDigit byte = false ∧ ¬ (byte = 95 ∨ isAsciiAlphabetic byte = true) ∧
      isAsciiWhitespace byte = false := by
  revert byte
  apply forall_bytes
  decide

theorem two_begins {first : UInt8} {next : Option UInt8} {kind : TokenKind}
    (known : Lexer.twoCharacters first next = some kind) :
    Lexer.singleCharacter first ≠ none := by
  unfold Lexer.twoCharacters at known
  split at known
  all_goals first | decide | cases known

theorem three_begins {first : UInt8} {next after : Option UInt8} {kind : TokenKind}
    (known : Lexer.threeCharacters first next after = some kind) :
    Lexer.singleCharacter first ≠ none ∧ first ≠ 47 := by
  unfold Lexer.threeCharacters at known
  split at known
  all_goals first | decide | cases known

set_option maxRecDepth 20000 in
theorem two_noComment (second : UInt8) : Lexer.twoCharacters 47 (some second) ≠ none →
    second ≠ 47 ∧ second ≠ 42 := by
  revert second
  apply forall_bytes
  decide

namespace Lexer

variable {lexer : Lexer} {rest left : List UInt8} {byte : UInt8}

/-- Nothing is skipped where a token begins. -/
theorem skipTrivia_stops (faces : Faces lexer (byte :: rest))
    (solid : isAsciiWhitespace byte = false)
    (noComment : byte = 47 → rest.head? ≠ some 47 ∧ rest.head? ≠ some 42) :
    lexer.skipTrivia = lexer := by
  have noLine : ¬ (lexer.peek = some 47 ∧ lexer.peekAt 1 = some 47) := by
    rw [faces.peek, faces.peekAt]
    rintro ⟨slash, line⟩
    rw [List.getElem?_cons_succ, ← List.head?_eq_getElem?] at line
    exact (noComment (Option.some.inj slash)).1 line
  have noBlock : ¬ (lexer.peek = some 47 ∧ lexer.peekAt 1 = some 42) := by
    rw [faces.peek, faces.peekAt]
    rintro ⟨slash, block⟩
    rw [List.getElem?_cons_succ, ← List.head?_eq_getElem?] at block
    exact (noComment (Option.some.inj slash)).2 block
  rw [skipTrivia, dif_pos faces.inside, faces.here, solid, if_neg (by decide), dif_neg noLine,
    dif_neg noBlock]

/-- A token that has been gone past is emitted. -/
theorem emit_after (lexer : Lexer) (kind : TokenKind) (bytes : List UInt8) :
    (lexer.advance bytes.length).emit kind lexer.pos = lexer.after (.token kind bytes) := by
  unfold after
  change _ = { lexer with pos := _, tokens := _, diagnostics := lexer.diagnostics ++ [] }
  rw [List.append_nil]
  rfl

variable {first : UInt8} {digits : List UInt8} {kind : TokenKind} {parts : List Part}
  {piece : Piece}

theorem lexOne_word {text : String} (begins : first = 95 ∨ isAsciiAlphabetic first = true)
    (goesOn : ∀ byte ∈ rest, isIdentifierByte byte = true)
    (stops : ∀ byte ∈ left.head?, isIdentifierByte byte = false)
    (spelled : textBytes text = first :: rest) (faces : Faces lexer (first :: rest ++ left)) :
    lexer.lexOne = lexer.after
      (.token ((TokenKind.keywordFromText text).getD .identifier) (first :: rest)) := by
  rcases letter_byte first begins with ⟨noQuote, noDigit, inWord, -, -⟩
  have skipped : lexer.skipWhile isIdentifierByte = lexer.advance (first :: rest).length :=
    skipWhile_run (List.forall_mem_cons.mpr ⟨inWord, goesOn⟩) stops faces
  have found : String.fromUTF8? ⟨(first :: rest).toArray⟩ = some text :=
    fromUTF8_eq_some_iff.mpr spelled
  unfold lexOne
  rw [faces.peek]
  simp only [List.cons_append, List.head?_cons]
  rw [if_neg noQuote, noDigit, if_neg (by decide), if_pos begins, ← emit_after]
  unfold lexIdentifier
  simp only
  rw [skipped, faces.slice, found]
  rfl

/-! ## Numbers -/

/-- What `lexNumber` does when no hexadecimal number begins. -/
theorem lexNumber_decimal (nonempty : digits ≠ [])
    (decimal : ∀ byte ∈ digits, isAsciiDigit byte = true)
    (stops : ∀ byte ∈ left.head?, isAsciiDigit byte = false)
    (notHex : ∀ mark byte rest, digits = [48] → left = mark :: byte :: rest →
      mark = 120 ∨ mark = 88 → isAsciiHexdigit byte = false)
    (faces : Faces lexer (digits ++ left)) :
    lexer.lexNumber =
      if left.head? = some 46 ∧ left[1]?.any isAsciiDigit then
        ((lexer.advance (digits.length + 1)).skipWhile isAsciiDigit).emit .floatLiteral lexer.pos
      else (lexer.advance digits.length).emit .intLiteral lexer.pos := by
  have skipped := skipWhile_run decimal stops faces
  have behind := faces.advance
  have noHex : ¬ (lexer.peek = some 48 ∧ (lexer.peekAt 1 = some 120 ∨ lexer.peekAt 1 = some 88) ∧
      (lexer.peekAt 2).any isAsciiHexdigit = true) := by
    rw [faces.peek, faces.peekAt, faces.peekAt]
    rintro ⟨zero, mark, digit⟩
    cases digits with
    | nil => exact nonempty rfl
    | cons first digits =>
      cases digits with
      | nil =>
        rw [Option.some.inj zero] at notHex
        cases left with
        | nil => rcases mark with mark | mark <;> cases mark
        | cons letter left =>
          cases left with
          | nil => cases digit
          | cons hexadecimal left =>
            have spelled := notHex letter hexadecimal left rfl rfl
              (mark.imp Option.some.inj Option.some.inj)
            change isAsciiHexdigit hexadecimal = true at digit
            rw [spelled] at digit
            cases digit
      | cons second digits =>
        have facts := digit_byte second (decimal second (by simp))
        rcases mark with mark | mark
        · exact facts.2.1 (Option.some.inj mark)
        · exact facts.2.2.1 (Option.some.inj mark)
  unfold lexNumber
  simp only
  rw [if_neg noHex, skipped, behind.peek, behind.peekAt, advance_advance]

theorem lexOne_digit (faces : Faces lexer (byte :: rest)) (digit : isAsciiDigit byte = true) :
    lexer.lexOne = lexer.lexNumber := by
  unfold lexOne
  rw [faces.peek]
  simp only [List.head?_cons]
  rw [if_neg (digit_byte byte digit).1, if_pos digit]

theorem lexOne_digits (nonempty : digits ≠ [])
    (decimal : ∀ byte ∈ digits, isAsciiDigit byte = true) (faces : Faces lexer (digits ++ left)) :
    lexer.lexOne = lexer.lexNumber := by
  cases digits with
  | nil => exact absurd rfl nonempty
  | cons first digits => exact lexOne_digit faces (decimal first (List.mem_cons_self ..))

theorem lexOne_int (nonempty : digits ≠ []) (decimal : ∀ byte ∈ digits, isAsciiDigit byte = true)
    (stops : ∀ byte ∈ left.head?, isAsciiDigit byte = false)
    (noFraction : ∀ byte rest, left = 46 :: byte :: rest → isAsciiDigit byte = false)
    (notHex : ∀ mark byte rest, digits = [48] → left = mark :: byte :: rest →
      mark = 120 ∨ mark = 88 → isAsciiHexdigit byte = false)
    (faces : Faces lexer (digits ++ left)) :
    lexer.lexOne = lexer.after (.token .intLiteral digits) := by
  have noPoint : ¬ (left.head? = some 46 ∧ left[1]?.any isAsciiDigit = true) := by
    rintro ⟨point, digit⟩
    rcases List.head?_eq_some_iff.mp point with ⟨behind, rfl⟩
    cases behind with
    | nil => cases digit
    | cons byte behind =>
      change isAsciiDigit byte = true at digit
      rw [noFraction byte behind rfl] at digit
      cases digit
  rw [lexOne_digits nonempty decimal faces,
    lexNumber_decimal nonempty decimal stops notHex faces, if_neg noPoint, emit_after]

theorem lexOne_float {fraction : List UInt8} (nonempty : digits ≠ [])
    (decimal : ∀ byte ∈ digits, isAsciiDigit byte = true) (someFraction : fraction ≠ [])
    (decimalFraction : ∀ byte ∈ fraction, isAsciiDigit byte = true)
    (stops : ∀ byte ∈ left.head?, isAsciiDigit byte = false)
    (faces : Faces lexer (digits ++ 46 :: fraction ++ left)) :
    lexer.lexOne = lexer.after (.token .floatLiteral (digits ++ 46 :: fraction)) := by
  rw [List.append_assoc, List.cons_append] at faces
  have point : (46 :: (fraction ++ left)).head? = some 46 ∧
      (46 :: (fraction ++ left))[1]?.any isAsciiDigit = true := by
    cases fraction with
    | nil => exact absurd rfl someFraction
    | cons byte fraction => exact ⟨rfl, decimalFraction byte (List.mem_cons_self ..)⟩
  have skipped := skipWhile_run decimalFraction stops faces.advance.step
  rw [advance_advance, advance_advance] at skipped
  have spans : (digits ++ 46 :: fraction).length = digits.length + 1 + fraction.length := by
    rw [List.length_append, List.length_cons]
    omega
  rw [lexOne_digits nonempty decimal faces, lexNumber_decimal nonempty decimal ?_ ?_ faces,
    if_pos point, skipped, ← spans, emit_after]
  · intro byte first
    cases first
    decide
  · intro mark byte behind isZero split marked
    injection split with isPoint
    rw [← isPoint] at marked
    rcases marked with marked | marked <;> cases marked

theorem lexOne_hex {mark : UInt8} (marked : mark = 120 ∨ mark = 88) (nonempty : digits ≠ [])
    (hexadecimal : ∀ byte ∈ digits, isAsciiHexdigit byte = true)
    (stops : ∀ byte ∈ left.head?, isAsciiHexdigit byte = false)
    (faces : Faces lexer (48 :: mark :: digits ++ left)) :
    lexer.lexOne = lexer.after (.token .intLiteral (48 :: mark :: digits)) := by
  have isHex : lexer.peek = some 48 ∧ (lexer.peekAt 1 = some 120 ∨ lexer.peekAt 1 = some 88) ∧
      (lexer.peekAt 2).any isAsciiHexdigit = true := by
    rw [faces.peek, faces.peekAt, faces.peekAt]
    refine ⟨rfl, marked.imp (congrArg some) (congrArg some), ?_⟩
    cases digits with
    | nil => exact absurd rfl nonempty
    | cons byte digits => exact hexadecimal byte (List.mem_cons_self ..)
  have skipped := skipWhile_run hexadecimal stops faces.pair
  rw [advance_advance, Nat.add_comm 2] at skipped
  rw [lexOne_digit faces (by decide)]
  unfold lexNumber
  rw [if_pos isHex, skipped, ← emit_after]
  rfl

/-! ## Symbols -/

theorem lexOne_symbol (faces : Faces lexer (byte :: rest)) (noQuote : byte ≠ 34)
    (noDigit : isAsciiDigit byte = false)
    (noLetter : ¬ (byte = 95 ∨ isAsciiAlphabetic byte = true)) :
    lexer.lexOne =
      match threeCharacters byte rest.head? rest[1]? with
      | some kind => (lexer.advance 3).emit kind lexer.pos
      | none =>
        match twoCharacters byte rest.head? with
        | some kind => (lexer.advance 2).emit kind lexer.pos
        | none =>
          match singleCharacter byte with
          | some kind => (lexer.advance 1).emit kind lexer.pos
          | none => lexer.lexUnknown byte := by
  unfold lexOne
  rw [faces.peek]
  simp only [List.head?_cons]
  rw [if_neg noQuote, noDigit, if_neg (by decide), if_neg noLetter]
  unfold lexSymbol
  rw [faces.peek, faces.peekAt, faces.peekAt, List.getElem?_cons_succ, List.getElem?_cons_succ,
    ← List.head?_eq_getElem?]
  rfl

theorem lexOne_three {second third : UInt8}
    (known : threeCharacters first (some second) (some third) = some kind)
    (faces : Faces lexer ([first, second, third] ++ left)) :
    lexer.lexOne = lexer.after (.token kind [first, second, third]) := by
  rcases symbol_byte first (three_begins known).1 with ⟨noQuote, noDigit, noLetter, -⟩
  rw [lexOne_symbol faces noQuote noDigit noLetter]
  change (match threeCharacters first (some second) (some third) with
    | some kind => _
    | none => _) = _
  rw [known]
  exact emit_after lexer kind [first, second, third]

theorem lexOne_two {second : UInt8} (known : twoCharacters first (some second) = some kind)
    (noThree : threeCharacters first (some second) left.head? = none)
    (faces : Faces lexer ([first, second] ++ left)) :
    lexer.lexOne = lexer.after (.token kind [first, second]) := by
  rcases symbol_byte first (two_begins known) with ⟨noQuote, noDigit, noLetter, -⟩
  rw [List.head?_eq_getElem?] at noThree
  rw [lexOne_symbol faces noQuote noDigit noLetter]
  change (match threeCharacters first (some second) left[0]? with
    | some kind => _
    | none => match twoCharacters first (some second) with
      | some kind => _
      | none => _) = _
  rw [noThree, known]
  exact emit_after lexer kind [first, second]

theorem lexOne_single (known : singleCharacter first = some kind)
    (noTwo : twoCharacters first left.head? = none)
    (noThree : threeCharacters first left.head? left[1]? = none)
    (faces : Faces lexer ([first] ++ left)) : lexer.lexOne = lexer.after (.token kind [first]) := by
  have isSymbol : singleCharacter first ≠ none := by
    rw [known]
    exact Option.some_ne_none kind
  rcases symbol_byte first isSymbol with ⟨noQuote, noDigit, noLetter, -⟩
  rw [lexOne_symbol faces noQuote noDigit noLetter]
  change (match threeCharacters first left.head? left[1]? with
    | some kind => _
    | none => match twoCharacters first left.head? with
      | some kind => _
      | none => match singleCharacter first with
        | some kind => _
        | none => _) = _
  rw [noThree, noTwo, known]
  exact emit_after lexer kind [first]

/-- A character that begins no token is one unknown token. -/
theorem lexOne_stray {c : Char} (stray : Stray c)
    (faces : Faces lexer (String.utf8EncodeChar c ++ left)) :
    lexer.lexOne = lexer.after (.stray c) := by
  rcases character_bytes c with ⟨tail, shape, -, -⟩
  have length := faces.length
  rw [List.length_append] at length
  have stop : min (lexer.pos + utf8CharLen (firstByte c)) lexer.bytes.length =
      lexer.pos + (String.utf8EncodeChar c).length := by
    rw [utf8CharLen_firstByte]
    omega
  have noTwo (next : Option UInt8) : twoCharacters (firstByte c) next = none := by
    cases known : twoCharacters (firstByte c) next with
    | none => rfl
    | some kind => exact absurd stray.noSymbol (two_begins known)
  have noThree (next behind : Option UInt8) :
      threeCharacters (firstByte c) next behind = none := by
    cases known : threeCharacters (firstByte c) next behind with
    | none => rfl
    | some kind => exact absurd stray.noSymbol (three_begins known).1
  have begins := faces
  rw [shape, List.cons_append] at begins
  rw [lexOne_symbol begins stray.noQuote stray.noDigit stray.noLetter, noThree, noTwo,
    stray.noSymbol]
  unfold lexUnknown
  simp only
  rw [stop, show (lexer.bytes.drop lexer.pos).take (lexer.pos +
    (String.utf8EncodeChar c).length - lexer.pos) = String.utf8EncodeChar c from faces.slice]
  rfl

/-! ## Literals -/

/-- Bytes that stand for themselves are gone past. -/
theorem stringFrom_plain {taken : List UInt8}
    (plain : ∀ byte ∈ taken, byte ≠ 34 ∧ byte ≠ 92 ∧ byte ≠ 10)
    (faces : Faces lexer (taken ++ left)) :
    stringFrom lexer = stringFrom (lexer.advance taken.length) := by
  induction taken generalizing lexer with
  | nil => rfl
  | cons byte taken ih =>
    rcases plain byte (List.mem_cons_self ..) with ⟨noQuote, noSlash, noNewline⟩
    have others := fun other among => plain other (List.mem_cons_of_mem _ among)
    rw [stringFrom, dif_pos faces.inside, faces.here, if_neg noQuote, if_neg noSlash,
      if_neg noNewline, ih others faces.step, advance_advance, List.length_cons,
      Nat.add_comm 1]

theorem plain_bytes {c : Char} (plain : c ≠ '"' ∧ c ≠ '\\' ∧ c ≠ '\n') :
    ∀ byte ∈ String.utf8EncodeChar c, byte ≠ 34 ∧ byte ≠ 92 ∧ byte ≠ 10 := by
  rcases character_bytes c with ⟨tail, shape, inside, -⟩
  intro byte among
  rw [shape] at among
  rcases List.mem_cons.mp among with rfl | inTail
  · refine ⟨?_, ?_, ?_⟩
    · exact fun first => plain.1 (firstByte_ascii first (by decide) (by decide))
    · exact fun first => plain.2.1 (firstByte_ascii first (by decide) (by decide))
    · exact fun first => plain.2.2 (firstByte_ascii first (by decide) (by decide))
  · have continues := inside byte inTail
    refine ⟨?_, ?_, ?_⟩
    all_goals
      rintro rfl
      exact absurd continues (by decide)

theorem stringFrom_slash (faces : Faces lexer (92 :: rest)) :
    stringFrom lexer = stringFrom (escapeBehind lexer.pos (lexer.advance 1)) := by
  conv => lhs; rw [stringFrom]
  rw [dif_pos faces.inside, faces.here, if_neg (by decide), if_pos rfl]

def behindParts (lexer : Lexer) (parts : List Part) (length : Nat) : Lexer where
  source := lexer.source
  bytes := lexer.bytes
  pos := lexer.pos + length
  tokens := lexer.tokens
  diagnostics := lexer.diagnostics ++ escapeFaults lexer.source lexer.pos parts

theorem behindParts_quiet (length : Nat)
    (noFault : escapeFaults lexer.source lexer.pos parts = []) :
    lexer.behindParts parts length = lexer.advance length := by
  unfold behindParts
  rw [noFault, List.append_nil]
  rfl

theorem escapeBehind_run {escaped : UInt8} (escape : Nat) (faces : Faces lexer (escaped :: rest))
    (noNewline : escaped ≠ 10) (noReturn : escaped = 13 → rest.head? ≠ some 10) :
    escapeBehind escape lexer =
      if escaped ∉ escapeLetters then
        (lexer.report (unknownEscape lexer.source (.fromBounds (.ofNat escape)
          (.ofNat (min (escape + 1 + utf8CharLen escaped) lexer.bytes.length))))).advance 1
      else lexer.advance 1 := by
  have noPair : ¬ (escaped = 13 ∧ lexer.peekAt 1 = some 10) := by
    rw [faces.peekAt, List.getElem?_cons_succ, ← List.head?_eq_getElem?]
    exact fun pair => noReturn pair.1 pair.2
  unfold escapeBehind
  rw [faces.peek]
  simp only [List.head?_cons]
  rw [if_neg noNewline, if_neg noPair]

/-- A part of a literal is gone past, and reported when it is no known escape. -/
theorem stringFrom_part {part : Part} (stands : part.Stands left)
    (faces : Faces lexer (part.bytes ++ left)) :
    stringFrom lexer = stringFrom (lexer.behindParts [part] part.bytes.length) := by
  cases part with
  | plain c =>
    rw [behindParts_quiet _ rfl]
    exact stringFrom_plain (plain_bytes stands) faces
  | escape letter =>
    change letter ∈ escapeLetters at stands
    have known : letter ≠ 10 ∧ letter ≠ 13 := by
      constructor
      all_goals
        rintro rfl
        exact absurd stands (by decide)
    rw [behindParts_quiet _ rfl, stringFrom_slash faces,
      escapeBehind_run _ faces.step known.1 (fun isReturn => absurd isReturn known.2),
      if_neg (not_not.mpr stands), advance_advance]
    rfl
  | newline =>
    have ran : escapeBehind lexer.pos (lexer.advance 1) = (lexer.advance 1).advance 1 := by
      unfold escapeBehind
      rw [faces.step.peek]
      exact if_pos rfl
    rw [behindParts_quiet _ rfl, stringFrom_slash faces, ran, advance_advance]
    rfl
  | carriage =>
    have ran : escapeBehind lexer.pos (lexer.advance 1) = (lexer.advance 1).advance 2 := by
      unfold escapeBehind
      rw [faces.step.peek, faces.step.peekAt]
      rfl
    rw [behindParts_quiet _ rfl, stringFrom_slash faces, ran, advance_advance]
    rfl
  | unknown c =>
    rcases stands with ⟨notKnown, noNewline, noReturn⟩
    rcases character_bytes c with ⟨tail, shape, inside, short⟩
    have bytes : (Part.unknown c).bytes = 92 :: firstByte c :: tail := by
      rw [← shape]
      rfl
    have total := faces.length
    rw [bytes] at faces total ⊢
    have newline : firstByte c ≠ 10 :=
      fun first => noNewline (firstByte_ascii first (by decide) (by decide))
    have carriage : firstByte c = 13 → (tail ++ left).head? ≠ some 10 := by
      intro first
      rw [short (by rw [first]; decide), List.nil_append]
      exact noReturn (firstByte_ascii first (by decide) (by decide))
    have plain : ∀ byte ∈ tail, byte ≠ 34 ∧ byte ≠ 92 ∧ byte ≠ 10 := by
      intro byte among
      have continues := inside byte among
      refine ⟨?_, ?_, ?_⟩
      all_goals
        rintro rfl
        exact absurd continues (by decide)
    have stop : min (lexer.pos + 1 + utf8CharLen (firstByte c)) lexer.bytes.length =
        lexer.pos + (92 :: firstByte c :: tail).length := by
      rw [utf8CharLen_firstByte, shape]
      simp only [List.length_append, List.length_cons] at total ⊢
      omega
    rw [stringFrom_slash faces, escapeBehind_run _ faces.step newline carriage, if_pos notKnown]
    change stringFrom (((lexer.advance 1).report (unknownEscape lexer.source
      (.fromBounds (.ofNat lexer.pos) (.ofNat (min (lexer.pos + 1 + utf8CharLen (firstByte c))
        lexer.bytes.length))))).advance 1) = _
    have begun (diagnostic : Diagnostic) :
        Faces (((lexer.advance 1).report diagnostic).advance 1) (tail ++ left) :=
      ⟨faces.step.step.left, faces.step.step.within⟩
    rw [stop, stringFrom_plain plain (begun _)]
    congr 1
    unfold behindParts escapeFaults spanOf
    rw [bytes]
    simp only [advance, report, escapeFaults, List.length_cons, Nat.add_assoc,
      Nat.add_comm 1]

theorem escapeFaults_cons (source : SourceId) (offset : Nat) (part : Part) (parts : List Part) :
    escapeFaults source offset (part :: parts) =
      escapeFaults source offset [part] ++
        escapeFaults source (offset + part.bytes.length) parts := by
  cases part <;> rfl

theorem stringFrom_takes {ending : Ending} (stands : LiteralStands left ending parts)
    (faces : Faces lexer (insideBytes parts ending ++ left)) :
    stringFrom lexer = (decide (ending = .closed),
      lexer.behindParts parts (insideBytes parts ending).length) := by
  induction parts generalizing lexer with
  | nil =>
    cases ending with
    | closed =>
      rw [stringFrom, dif_pos faces.inside, faces.here, if_pos rfl, behindParts_quiet _ rfl]
      rfl
    | broken =>
      rw [behindParts_quiet _ rfl]
      change Faces lexer left at faces
      cases left with
      | nil =>
        rw [stringFrom, dif_neg faces.ended]
        rfl
      | cons byte left =>
        have isNewline : byte = 10 := stands byte rfl
        subst isNewline
        rw [stringFrom, dif_pos faces.inside, faces.here, if_neg (by decide),
          if_neg (by decide), if_pos rfl]
        rfl
    | dangling =>
      change left = [] at stands
      subst stands
      have nothing : escapeBehind lexer.pos (lexer.advance 1) = lexer.advance 1 := by
        unfold escapeBehind
        rw [faces.step.peek]
        rfl
      rw [stringFrom_slash faces, nothing, stringFrom, dif_neg faces.step.ended,
        behindParts_quiet _ rfl]
      rfl
  | cons part parts ih =>
    have split : insideBytes (part :: parts) ending = part.bytes ++ insideBytes parts ending := by
      unfold insideBytes
      rw [List.flatMap_cons, List.append_assoc]
    rw [split, List.append_assoc] at faces
    have behind : Faces (lexer.behindParts [part] part.bytes.length)
        (insideBytes parts ending ++ left) := ⟨faces.advance.left, faces.advance.within⟩
    rw [stringFrom_part stands.1 faces, ih stands.2 behind, split, List.length_append]
    unfold behindParts
    rw [escapeFaults_cons lexer.source lexer.pos part parts]
    simp only [Nat.add_assoc, List.append_assoc]

theorem lexOne_literal {ending : Ending} (stands : LiteralStands left ending parts)
    (faces : Faces lexer ((Piece.literal parts ending).bytes ++ left)) :
    lexer.lexOne = lexer.after (.literal parts ending) := by
  have begins : Faces lexer (34 :: (insideBytes parts ending ++ left)) := faces
  have spans : lexer.pos + 1 + (insideBytes parts ending).length =
      lexer.pos + (insideBytes parts ending).length.succ := by omega
  have dispatched : lexer.lexOne = lexer.lexString := by
    unfold lexOne
    rw [begins.peek]
    rfl
  rw [dispatched]
  unfold lexString
  rw [stringFrom_takes stands begins.step]
  unfold after Piece.tokens
  simp only [Piece.faults]
  by_cases closed : ending = .closed
  · rw [decide_eq_true closed, if_pos closed, List.append_nil]
    simp only [emit, behindParts, advance, spanFrom, spans]
    rfl
  · rw [decide_eq_false closed, if_neg closed, ← List.append_assoc]
    simp only [emit, report, behindParts, advance, spanFrom, spans]
    rfl

/-! ## Pieces -/

theorem token_begins (isToken : piece.kind ≠ none) (stands : piece.Stands left) :
    ∃ byte rest, piece.bytes = byte :: rest ∧ isAsciiWhitespace byte = false ∧
      (byte = 47 → (rest ++ left).head? ≠ some 47 ∧ (rest ++ left).head? ≠ some 42) := by
  have digits_begin {digits : List UInt8} (nonempty : digits ≠ [])
      (decimal : ∀ byte ∈ digits, isAsciiDigit byte = true) : ∃ byte rest, digits = byte :: rest ∧
      isAsciiWhitespace byte = false ∧ byte ≠ 47 := by
    cases digits with
    | nil => exact absurd rfl nonempty
    | cons byte rest =>
      have facts := digit_byte byte (decimal byte (List.mem_cons_self ..))
      exact ⟨byte, rest, rfl, facts.2.2.2.2.1, facts.2.2.2.2.2⟩
  cases piece with
  | blank byte => exact absurd rfl isToken
  | lineComment body => exact absurd rfl isToken
  | blockComment bytes => exact absurd rfl isToken
  | openComment bytes => exact absurd rfl isToken
  | literal parts ending => exact ⟨34, _, rfl, by decide, fun slash => absurd slash (by decide)⟩
  | stray c =>
    rcases character_bytes c with ⟨tail, shape, -, -⟩
    refine ⟨firstByte c, tail, shape, stands.noBlank, fun slash => ?_⟩
    have noSymbol := stands.noSymbol
    rw [slash] at noSymbol
    cases noSymbol
  | token kind bytes =>
    cases stands with
    | @word first rest text begins _ _ _ =>
      have facts := letter_byte first begins
      exact ⟨first, rest, rfl, facts.2.2.2.1, fun slash => absurd slash facts.2.2.2.2⟩
    | hex => exact ⟨48, _, rfl, by decide, fun slash => absurd slash (by decide)⟩
    | int nonempty decimal =>
      rcases digits_begin nonempty decimal with ⟨byte, rest, rfl, solid, noSlash⟩
      exact ⟨byte, rest, rfl, solid, fun slash => absurd slash noSlash⟩
    | float nonempty decimal =>
      rcases digits_begin nonempty decimal with ⟨byte, rest, rfl, solid, noSlash⟩
      exact ⟨byte, _, rfl, solid, fun slash => absurd slash noSlash⟩
    | @three first second third _ known =>
      have facts := three_begins known
      exact ⟨first, _, rfl, (symbol_byte first facts.1).2.2.2,
        fun slash => absurd slash facts.2⟩
    | @two first second _ known noThree =>
      refine ⟨first, _, rfl, (symbol_byte first (two_begins known)).2.2.2, ?_⟩
      rintro rfl
      have other := two_noComment second (by rw [known]; exact Option.some_ne_none kind)
      exact ⟨fun same => other.1 (Option.some.inj same),
        fun same => other.2 (Option.some.inj same)⟩
    | @single first _ known noTwo noThree noComment =>
      have isSymbol : singleCharacter first ≠ none := by
        rw [known]
        exact Option.some_ne_none kind
      exact ⟨first, [], rfl, (symbol_byte first isSymbol).2.2.2, noComment⟩

/-- Nothing is skipped in front of a token. -/
theorem skipTrivia_token (isToken : piece.kind ≠ none) (stands : piece.Stands left)
    (faces : Faces lexer (piece.bytes ++ left)) :
    lexer.skipTrivia = lexer ∧ lexer.pos < lexer.bytes.length := by
  rcases token_begins isToken stands with ⟨byte, rest, split, solid, noComment⟩
  rw [split, List.cons_append] at faces
  exact ⟨skipTrivia_stops faces solid noComment, faces.inside⟩

/-- A token is emitted and what is wrong with it reported. -/
theorem lexOne_piece (isToken : piece.kind ≠ none) (stands : piece.Stands left)
    (faces : Faces lexer (piece.bytes ++ left)) : lexer.lexOne = lexer.after piece := by
  cases piece with
  | blank byte => exact absurd rfl isToken
  | lineComment body => exact absurd rfl isToken
  | blockComment bytes => exact absurd rfl isToken
  | openComment bytes => exact absurd rfl isToken
  | literal parts ending => exact lexOne_literal stands faces
  | stray c => exact lexOne_stray stands faces
  | token kind bytes =>
    cases stands with
    | word begins goesOn stops spelled => exact lexOne_word begins goesOn stops spelled faces
    | hex marked nonempty hexadecimal stops =>
      exact lexOne_hex marked nonempty hexadecimal stops faces
    | int nonempty decimal stops noFraction notHex =>
      exact lexOne_int nonempty decimal stops noFraction notHex faces
    | float nonempty decimal someFraction decimalFraction stops =>
      exact lexOne_float nonempty decimal someFraction decimalFraction stops faces
    | three known => exact lexOne_three known faces
    | two known noThree => exact lexOne_two known noThree faces
    | single known noTwo noThree noComment => exact lexOne_single known noTwo noThree faces

end Lexer

end Lexing

end KiraVm
