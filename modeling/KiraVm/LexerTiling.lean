import KiraVm.LexerTokens

/-!
# Tiling a text

Every text is a sequence of pieces, each of which is as long as it can be.
-/

namespace KiraVm

namespace Lexing

open Foundation

/-! ## Running over pieces -/

namespace Lexer

variable {lexer : Lexer} {left : List UInt8}

theorem Faces.behind {piece : Piece} (faces : Faces lexer (piece.bytes ++ left)) :
    Faces (lexer.after piece) left :=
  ⟨faces.advance.left, faces.advance.within⟩

theorem lexFrom_congr {first second : Lexer} (same : first.skipTrivia = second.skipTrivia) :
    first.lexFrom = second.lexFrom := by
  conv => lhs; rw [lexFrom]
  conv => rhs; rw [lexFrom]
  rw [same]

theorem lexFrom_piece {piece : Piece} (stands : piece.Stands left)
    (faces : Faces lexer (piece.bytes ++ left)) :
    lexer.lexFrom = (lexer.after piece).lexFrom := by
  by_cases isToken : piece.kind = none
  · exact lexFrom_congr (skipTrivia_piece isToken stands faces)
  · rcases skipTrivia_token isToken stands faces with ⟨begins, inside⟩
    have here : lexer.skipTrivia.pos < lexer.skipTrivia.bytes.length := by
      rw [begins]
      exact inside
    rw [lexFrom, dif_pos here, begins, lexOne_piece isToken stands faces]

theorem lexFrom_pieces {pieces : List Piece} (munched : Munched pieces)
    (faces : Faces lexer (pieces.flatMap Piece.bytes)) :
    lexer.lexFrom = pieces.foldl after lexer := by
  induction pieces generalizing lexer with
  | nil =>
    have skipped : lexer.skipTrivia = lexer := by
      rw [skipTrivia, dif_neg faces.ended]
    have ended : ¬ lexer.skipTrivia.pos < lexer.skipTrivia.bytes.length := by
      rw [skipped]
      exact faces.ended
    rw [lexFrom, dif_neg ended, skipped]
    rfl
  | cons piece pieces ih =>
    rw [List.flatMap_cons] at faces
    rw [lexFrom_piece munched.1 faces, ih munched.2 faces.behind]
    rfl

theorem after_pieces (pieces : List Piece) (lexer : Lexer) :
    (pieces.foldl after lexer).tokens = lexer.tokens ++ tokensOf lexer.pos pieces ∧
      (pieces.foldl after lexer).diagnostics =
        lexer.diagnostics ++ faultsOf lexer.source lexer.pos pieces ∧
      (pieces.foldl after lexer).bytes = lexer.bytes := by
  induction pieces generalizing lexer with
  | nil => exact ⟨(List.append_nil _).symm, (List.append_nil _).symm, rfl⟩
  | cons piece pieces ih =>
    rcases ih (lexer.after piece) with ⟨tokens, diagnostics, bytes⟩
    refine ⟨?_, ?_, bytes⟩
    · rw [List.foldl_cons, tokens]
      exact List.append_assoc _ _ _
    · rw [List.foldl_cons, diagnostics]
      exact List.append_assoc _ _ _

end Lexer

/-! ## Finding the pieces -/

/-- The bytes of the characters. -/
def encoding (chars : List Char) : List UInt8 :=
  chars.flatMap String.utf8EncodeChar

theorem encoding_cons (c : Char) (chars : List Char) :
    encoding (c :: chars) = String.utf8EncodeChar c ++ encoding chars :=
  List.flatMap_cons

theorem encoding_head (c : Char) (chars : List Char) :
    (encoding (c :: chars)).head? = some (firstByte c) := by
  rcases character_bytes c with ⟨tail, shape, -, -⟩
  rw [encoding_cons, shape]
  rfl

theorem encoding_begins {chars : List Char} {known : Char} {byte : UInt8}
    (first : (encoding chars).head? = some byte) (ascii : byte < 128)
    (encoded : String.utf8EncodeChar known = [byte]) : ∃ rest, chars = known :: rest := by
  cases chars with
  | nil => cases first
  | cons c chars =>
    rw [encoding_head] at first
    rw [firstByte_ascii (Option.some.inj first) ascii encoded]
    exact ⟨chars, rfl⟩

theorem literal_more {part : Part} {parts : List Part} {ending : Ending} {front chars : List Char}
    {left : List UInt8} (bytes : part.bytes = encoding front)
    (stands : part.Stands (encoding chars))
    (split : encoding chars = insideBytes parts ending ++ left)
    (others : LiteralStands left ending parts) :
    encoding (front ++ chars) = insideBytes (part :: parts) ending ++ left ∧
      LiteralStands left ending (part :: parts) := by
  rw [split] at stands
  refine ⟨?_, stands, others⟩
  unfold insideBytes at split ⊢
  unfold encoding at bytes split ⊢
  rw [List.flatMap_append, ← bytes, split, List.flatMap_cons]
  simp only [List.append_assoc]

set_option maxRecDepth 20000 in
theorem literal_parts : ∀ chars : List Char, ∃ parts ending rest,
    encoding chars = insideBytes parts ending ++ encoding rest ∧
      LiteralStands (encoding rest) ending parts
  | [] => ⟨[], .broken, [], rfl, fun byte first => by cases first⟩
  | c :: chars => by
    by_cases quote : c = '"'
    · subst quote
      exact ⟨[], .closed, chars, rfl, trivial⟩
    by_cases newline : c = '\n'
    · subst newline
      refine ⟨[], .broken, '\n' :: chars, rfl, ?_⟩
      intro byte first
      rw [encoding_head] at first
      exact (Option.some.inj first).symm
    by_cases slash : c = '\\'
    · subst slash
      rcases chars with _ | ⟨d, chars⟩
      · exact ⟨[], .dangling, [], rfl, rfl⟩
      by_cases continued : d = '\n'
      · subst continued
        rcases literal_parts chars with ⟨parts, ending, rest, split, others⟩
        rcases @literal_more .newline parts ending ['\\', '\n'] chars _ rfl trivial split
          others with ⟨splitMore, stands⟩
        exact ⟨.newline :: parts, ending, rest, splitMore, stands⟩
      by_cases paired : d = '\r' ∧ ∃ behind, chars = '\n' :: behind
      · rcases paired with ⟨rfl, behind, rfl⟩
        rcases literal_parts behind with ⟨parts, ending, rest, split, others⟩
        rcases @literal_more .carriage parts ending ['\\', '\r', '\n'] behind _ rfl trivial split
          others with ⟨splitMore, stands⟩
        exact ⟨.carriage :: parts, ending, rest, splitMore, stands⟩
      rcases literal_parts chars with ⟨parts, ending, rest, split, others⟩
      rcases character_bytes d with ⟨tail, shape, -, short⟩
      by_cases known : firstByte d ∈ Lexer.escapeLetters
      · have ascii : ∀ letter ∈ Lexer.escapeLetters, letter < 128 := by
          decide
        have bytes : (Part.escape (firstByte d)).bytes = encoding ['\\', d] := by
          unfold encoding
          rw [List.flatMap_cons, List.flatMap_singleton, shape, short (ascii _ known)]
          rfl
        rcases @literal_more (.escape (firstByte d)) parts ending ['\\', d] chars _ bytes known
          split others with ⟨splitMore, stands⟩
        exact ⟨.escape (firstByte d) :: parts, ending, rest, splitMore, stands⟩
      · have bytes : (Part.unknown d).bytes = encoding ['\\', d] := by
          unfold encoding
          rw [List.flatMap_cons, List.flatMap_singleton]
          rfl
        have noReturn : d = '\r' → (encoding chars).head? ≠ some 10 := by
          intro isReturn first
          exact paired ⟨isReturn, encoding_begins first (by decide) (by decide)⟩
        rcases @literal_more (.unknown d) parts ending ['\\', d] chars _ bytes
          ⟨known, continued, noReturn⟩ split others with ⟨splitMore, stands⟩
        exact ⟨.unknown d :: parts, ending, rest, splitMore, stands⟩
    · rcases literal_parts chars with ⟨parts, ending, rest, split, others⟩
      rcases @literal_more (.plain c) parts ending [c] chars _
        (List.flatMap_singleton ..).symm ⟨quote, slash, newline⟩ split others with
        ⟨splitMore, stands⟩
      exact ⟨.plain c :: parts, ending, rest, splitMore, stands⟩
termination_by chars => chars.length

/-! ### Runs of bytes -/

theorem split_while (accepts : UInt8 → Bool) (bytes : List UInt8) : ∃ taken left,
    bytes = taken ++ left ∧ (∀ byte ∈ taken, accepts byte = true) ∧
      ∀ byte ∈ left.head?, accepts byte = false := by
  refine ⟨bytes.takeWhile accepts, bytes.dropWhile accepts,
    List.takeWhile_append_dropWhile.symm, ?_, ?_⟩
  · exact fun byte among => List.all_eq_true.mp List.all_takeWhile byte among
  · intro byte first
    have stopped := List.head?_dropWhile_not accepts bytes
    rw [Option.mem_def.mp first] at stopped
    simpa using stopped

theorem Encoded.behind_all {taken left : List UInt8} (encoded : Encoded (taken ++ left))
    (ascii : ∀ byte ∈ taken, byte < 128) : Encoded left := by
  induction taken with
  | nil => exact encoded
  | cons byte taken ih =>
    have behind := @Encoded.behind [] (taken ++ left) byte encoded
      (ascii byte (List.mem_cons_self ..))
    exact ih behind fun other among => ascii other (List.mem_cons_of_mem _ among)

set_option maxRecDepth 20000 in
theorem ascii_bytes (byte : UInt8) : isIdentifierByte byte = true ∨ isAsciiHexdigit byte = true ∨
    isAsciiDigit byte = true ∨ isAsciiWhitespace byte = true → byte < 128 := by
  revert byte
  apply forall_bytes
  decide

/-! ### The first piece -/

/-- A piece that stands in front of whole characters. -/
def Fronted (bytes : List UInt8) : Prop :=
  ∃ piece left, bytes = Piece.bytes piece ++ left ∧ piece.Stands left ∧ Encoded left ∧
    piece.bytes ≠ []

variable {byte : UInt8} {behind : List UInt8}

theorem fronted_blank (encoded : Encoded (byte :: behind)) (blank : isAsciiWhitespace byte = true) :
    Fronted (byte :: behind) :=
  ⟨.blank byte, behind, rfl, blank,
    @Encoded.behind [] behind byte encoded (ascii_bytes byte (by simp [blank])),
    List.cons_ne_nil _ _⟩

theorem fronted_line (encoded : Encoded (47 :: 47 :: behind)) : Fronted (47 :: 47 :: behind) := by
  rcases split_while (· != 10) behind with ⟨body, left, rfl, inLine, stops⟩
  have newline : ∀ byte ∈ left.head?, byte = 10 := by
    intro byte first
    have stopped := stops byte first
    rw [bne_eq_false_iff_eq] at stopped
    exact stopped
  have begins : BeginsCharacter left := by
    intro byte first
    rw [newline byte first]
    decide
  refine ⟨.lineComment body, left, rfl, ⟨?_, newline⟩, ?_, List.cons_ne_nil _ _⟩
  · intro among
    exact absurd (inLine 10 among) (by decide)
  · exact (@Encoded.cut (47 :: 47 :: body) left encoded begins).2

theorem commentBody_ends {depth : Nat} {bytes : List UInt8} (body : CommentBody depth bytes) :
    ∃ front, bytes = front ++ [47] := by
  induction body with
  | last => exact ⟨[42], rfl⟩
  | opens _ ih =>
    rcases ih with ⟨front, rfl⟩
    exact ⟨47 :: 42 :: front, rfl⟩
  | closes _ ih =>
    rcases ih with ⟨front, rfl⟩
    exact ⟨42 :: 47 :: front, rfl⟩
  | @other _ byte _ _ _ _ ih =>
    rcases ih with ⟨front, rfl⟩
    exact ⟨byte :: front, rfl⟩

theorem fronted_block (encoded : Encoded (47 :: 42 :: behind)) : Fronted (47 :: 42 :: behind) := by
  by_cases closed : ∃ front back, behind = front ++ back ∧ CommentBody 1 front
  · rcases closed with ⟨front, back, rfl, body⟩
    refine ⟨.blockComment (47 :: 42 :: front), back, rfl, ⟨front, rfl, body⟩, ?_,
      List.cons_ne_nil _ _⟩
    rcases commentBody_ends body with ⟨inside, rfl⟩
    rw [List.append_assoc] at encoded
    exact @Encoded.behind (47 :: 42 :: inside) back 47 encoded (by decide)
  · refine ⟨.openComment (47 :: 42 :: behind), [], (List.append_nil _).symm,
      ⟨⟨behind, rfl, ?_⟩, rfl⟩, ⟨[], rfl⟩, List.cons_ne_nil _ _⟩
    intro front back split body
    exact closed ⟨front, back, split, body⟩

theorem fronted_literal (encoded : Encoded (34 :: behind)) : Fronted (34 :: behind) := by
  rcases @Encoded.behind [] behind 34 encoded (by decide) with ⟨chars, rfl⟩
  rcases literal_parts chars with ⟨parts, ending, rest, split, stands⟩
  refine ⟨.literal parts ending, encoding rest, ?_, stands, ⟨rest, rfl⟩, List.cons_ne_nil _ _⟩
  exact congrArg (34 :: ·) split

theorem fronted_word (encoded : Encoded (byte :: behind))
    (begins : byte = 95 ∨ isAsciiAlphabetic byte = true) : Fronted (byte :: behind) := by
  rcases split_while isIdentifierByte behind with ⟨word, left, rfl, goesOn, stops⟩
  have inWord := (letter_byte byte begins).2.2.1
  have ascii : ∀ other ∈ byte :: word, other < 128 := by
    intro other among
    apply ascii_bytes
    rcases List.mem_cons.mp among with rfl | inRest
    · exact Or.inl inWord
    · exact Or.inl (goesOn other inRest)
  have rest := @Encoded.behind_all (byte :: word) left encoded ascii
  rcases (@Encoded.cut (byte :: word) left encoded rest.begins).1 with ⟨chars, spelled⟩
  have text : textBytes (String.ofList chars) = byte :: word := by
    rw [textBytes_ofList, spelled]
  exact ⟨.token _ (byte :: word), left, rfl, Lexeme.word begins goesOn stops text, rest,
    List.cons_ne_nil _ _⟩

theorem fronted_token {kind : TokenKind} {bytes left : List UInt8}
    (encoded : Encoded (bytes ++ left)) (lexeme : Lexeme left kind bytes)
    (ascii : ∀ other ∈ bytes, other < 128) (nonempty : bytes ≠ []) : Fronted (bytes ++ left) :=
  ⟨.token kind bytes, left, rfl, lexeme, encoded.behind_all ascii, nonempty⟩

theorem digits_ascii {digits : List UInt8} (decimal : ∀ byte ∈ digits, isAsciiDigit byte = true) :
    ∀ byte ∈ digits, byte < 128 :=
  fun byte among => ascii_bytes byte (Or.inr (Or.inr (Or.inl (decimal byte among))))

theorem fronted_hex {mark digit : UInt8} {more : List UInt8}
    (encoded : Encoded (48 :: mark :: digit :: more)) (marked : mark = 120 ∨ mark = 88)
    (hexadecimal : isAsciiHexdigit digit = true) : Fronted (48 :: mark :: digit :: more) := by
  rcases split_while isAsciiHexdigit more with ⟨others, left, rfl, goesOn, stops⟩
  have all : ∀ byte ∈ digit :: others, isAsciiHexdigit byte = true :=
    List.forall_mem_cons.mpr ⟨hexadecimal, goesOn⟩
  have ascii : ∀ byte ∈ 48 :: mark :: digit :: others, byte < 128 := by
    rw [List.forall_mem_cons, List.forall_mem_cons]
    refine ⟨by decide, ?_, fun byte among => ascii_bytes byte (Or.inr (Or.inl (all byte among)))⟩
    rcases marked with rfl | rfl <;> decide
  exact @fronted_token _ (48 :: mark :: digit :: others) left encoded
    (Lexeme.hex marked (List.cons_ne_nil _ _) all stops) ascii (List.cons_ne_nil _ _)

theorem fronted_decimal (encoded : Encoded (byte :: behind)) (digit : isAsciiDigit byte = true)
    (notHex : ∀ mark other rest, byte = 48 → behind = mark :: other :: rest →
      mark = 120 ∨ mark = 88 → isAsciiHexdigit other = false) : Fronted (byte :: behind) := by
  rcases split_while isAsciiDigit behind with ⟨others, left, rfl, goesOn, stops⟩
  have decimal : ∀ other ∈ byte :: others, isAsciiDigit other = true :=
    List.forall_mem_cons.mpr ⟨digit, goesOn⟩
  by_cases fraction : ∃ other rest, left = 46 :: other :: rest ∧ isAsciiDigit other = true
  · rcases fraction with ⟨other, rest, rfl, isDigit⟩
    rcases split_while isAsciiDigit rest with ⟨more, rest, rfl, goesOnMore, stopsMore⟩
    have decimalFraction : ∀ digit ∈ other :: more, isAsciiDigit digit = true :=
      List.forall_mem_cons.mpr ⟨isDigit, goesOnMore⟩
    have ascii : ∀ digit ∈ (byte :: others) ++ 46 :: (other :: more), digit < 128 :=
      List.forall_mem_append.mpr ⟨digits_ascii decimal,
        List.forall_mem_cons.mpr ⟨by decide, digits_ascii decimalFraction⟩⟩
    have split : byte :: (others ++ 46 :: other :: (more ++ rest)) =
        ((byte :: others) ++ 46 :: (other :: more)) ++ rest := by simp
    rw [split] at encoded ⊢
    exact fronted_token encoded (Lexeme.float (List.cons_ne_nil _ _) decimal
      (List.cons_ne_nil _ _) decimalFraction stopsMore) ascii (by simp)
  · refine @fronted_token _ (byte :: others) left encoded
      (Lexeme.int (List.cons_ne_nil _ _) decimal stops ?_ ?_) (digits_ascii decimal)
      (List.cons_ne_nil _ _)
    · intro other rest split
      by_contra isDigit
      exact fraction ⟨other, rest, split, by simpa using isDigit⟩
    · intro mark other rest zero split marked
      injection zero with isZero none
      subst none
      exact notHex mark other rest isZero split marked

theorem fronted_number (encoded : Encoded (byte :: behind)) (digit : isAsciiDigit byte = true) :
    Fronted (byte :: behind) := by
  by_cases hex : ∃ mark other rest, byte = 48 ∧ behind = mark :: other :: rest ∧
      (mark = 120 ∨ mark = 88) ∧ isAsciiHexdigit other = true
  · rcases hex with ⟨mark, other, rest, rfl, rfl, marked, hexadecimal⟩
    exact fronted_hex encoded marked hexadecimal
  · apply fronted_decimal encoded digit
    intro mark other rest isZero split marked
    by_contra hexadecimal
    exact hex ⟨mark, other, rest, isZero, split, marked, by simpa using hexadecimal⟩

/-! ### Symbols -/

theorem three_shape {first : UInt8} {next after : Option UInt8} {kind : TokenKind}
    (known : Lexer.threeCharacters first next after = some kind) : ∃ second third,
      next = some second ∧ after = some third ∧ first < 128 ∧ second < 128 ∧ third < 128 := by
  unfold Lexer.threeCharacters at known
  split at known
  · exact ⟨60, 61, rfl, rfl, by decide⟩
  · exact ⟨62, 61, rfl, rfl, by decide⟩
  · cases known

theorem two_shape {first : UInt8} {next : Option UInt8} {kind : TokenKind}
    (known : Lexer.twoCharacters first next = some kind) : ∃ second,
      next = some second ∧ first < 128 ∧ second < 128 := by
  unfold Lexer.twoCharacters at known
  split at known
  all_goals first | exact ⟨_, rfl, by decide⟩ | cases known

set_option maxRecDepth 20000 in
theorem single_ascii (byte : UInt8) : Lexer.singleCharacter byte ≠ none → byte < 128 := by
  revert byte
  apply forall_bytes
  decide

theorem fronted_symbol (encoded : Encoded (byte :: behind))
    (isSymbol : Lexer.singleCharacter byte ≠ none)
    (noComment : byte = 47 → behind.head? ≠ some 47 ∧ behind.head? ≠ some 42) :
    Fronted (byte :: behind) := by
  cases three : Lexer.threeCharacters byte behind.head? behind[1]? with
  | some kind =>
    rcases three_shape three with ⟨second, third, isSecond, isThird, ascii⟩
    rcases List.head?_eq_some_iff.mp isSecond with ⟨rest, rfl⟩
    cases rest with
    | nil => cases isThird
    | cons other left =>
      injection isThird with same
      subst same
      exact @fronted_token kind [byte, second, other] left encoded (Lexeme.three three)
        (by simpa using ascii) (List.cons_ne_nil _ _)
  | none =>
    cases two : Lexer.twoCharacters byte behind.head? with
    | some kind =>
      rcases two_shape two with ⟨second, isSecond, ascii⟩
      rcases List.head?_eq_some_iff.mp isSecond with ⟨left, rfl⟩
      rw [List.head?_cons, List.getElem?_cons_succ, ← List.head?_eq_getElem?] at three
      exact @fronted_token kind [byte, second] left encoded (Lexeme.two two three)
        (by simpa using ascii) (List.cons_ne_nil _ _)
    | none =>
      rcases Option.ne_none_iff_exists'.mp isSymbol with ⟨kind, single⟩
      exact @fronted_token kind [byte] behind encoded
        (Lexeme.single single two three noComment)
        (List.forall_mem_singleton.mpr (single_ascii byte isSymbol)) (List.cons_ne_nil _ _)

theorem fronted_stray {c : Char} {left : List UInt8} (stray : Stray c) (encoded : Encoded left) :
    Fronted (String.utf8EncodeChar c ++ left) := by
  refine ⟨.stray c, left, rfl, stray, encoded, ?_⟩
  rcases character_bytes c with ⟨tail, shape, -, -⟩
  change String.utf8EncodeChar c ≠ []
  rw [shape]
  exact List.cons_ne_nil _ _

/-- Whole characters begin with a piece. -/
theorem fronted (encoded : Encoded (byte :: behind)) : Fronted (byte :: behind) := by
  by_cases blank : isAsciiWhitespace byte = true
  · exact fronted_blank encoded blank
  by_cases line : byte = 47 ∧ behind.head? = some 47
  · rcases line with ⟨rfl, first⟩
    rcases List.head?_eq_some_iff.mp first with ⟨rest, rfl⟩
    exact fronted_line encoded
  by_cases block : byte = 47 ∧ behind.head? = some 42
  · rcases block with ⟨rfl, first⟩
    rcases List.head?_eq_some_iff.mp first with ⟨rest, rfl⟩
    exact fronted_block encoded
  by_cases quote : byte = 34
  · subst quote
    exact fronted_literal encoded
  by_cases digit : isAsciiDigit byte = true
  · exact fronted_number encoded digit
  by_cases letter : byte = 95 ∨ isAsciiAlphabetic byte = true
  · exact fronted_word encoded letter
  by_cases noSymbol : Lexer.singleCharacter byte = none
  · rcases encoded with ⟨chars, split⟩
    cases chars with
    | nil => cases split
    | cons c chars =>
      have first : firstByte c = byte := by
        have head := encoding_head c chars
        rw [encoding, ← split] at head
        exact (Option.some.inj head).symm
      have stray : Stray c := by
        constructor
        all_goals rw [first]
        · simpa using blank
        · exact quote
        · simpa using digit
        · exact letter
        · exact noSymbol
      rw [split, List.flatMap_cons]
      exact fronted_stray stray ⟨chars, rfl⟩
  · exact fronted_symbol encoded noSymbol fun slash =>
      ⟨fun first => line ⟨slash, first⟩, fun first => block ⟨slash, first⟩⟩

def Cut (pieces : List Piece) : Prop :=
  ∀ front back, pieces = front ++ back → Encoded (back.flatMap Piece.bytes)

theorem munched_pieces {bytes : List UInt8} (encoded : Encoded bytes) : ∃ pieces,
    bytes = pieces.flatMap Piece.bytes ∧ Munched pieces ∧ Cut pieces := by
  induction size : bytes.length using Nat.strong_induction_on generalizing bytes with
  | _ count ih =>
    cases bytes with
    | nil =>
      refine ⟨[], rfl, trivial, ?_⟩
      intro front back split
      rw [(List.append_eq_nil_iff.mp split.symm).2]
      exact encoded
    | cons byte behind =>
      rcases fronted encoded with ⟨piece, left, split, stands, rest, nonempty⟩
      have shorter : left.length < count := by
        have counted := congrArg List.length split
        have positive := List.length_pos_of_ne_nil nonempty
        rw [List.length_append] at counted
        omega
      rcases ih left.length shorter rest rfl with ⟨pieces, rfl, munched, cut⟩
      refine ⟨piece :: pieces, split, ⟨stands, munched⟩, ?_⟩
      intro front back divided
      cases front with
      | nil =>
        rw [← List.nil_append back, ← divided, List.flatMap_cons, ← split]
        exact encoded
      | cons first front =>
        injection divided with _ behind
        exact cut front back behind

end Lexing

end KiraVm
