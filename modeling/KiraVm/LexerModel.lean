import KiraVm.TextSlices

/-!
# The lexer

The tokenizer of Kira source: a cursor over the bytes of a text, the tokens it has
emitted and the diagnostics it has reported.  Offsets are cast to 32 bits as the
source does.  Every loop goes forward, so the lexer is a total function.
-/

namespace KiraVm

namespace Lexing

/-! ## Tokens -/

structure Span where
  start : UInt32
  len : UInt32
  deriving DecidableEq, Repr

def Span.fromBounds (start stop : UInt32) : Span :=
  ⟨start, stop - start⟩

inductive TokenKind
  | identifier
  | intLiteral
  | floatLiteral
  | stringLiteral
  | functionKeyword
  | letKeyword
  | varKeyword
  | returnKeyword
  | ifKeyword
  | elseKeyword
  | whileKeyword
  | trueKeyword
  | falseKeyword
  | infinityKeyword
  | importKeyword
  | namespaceKeyword
  | asKeyword
  | isKeyword
  | structKeyword
  | enumKeyword
  | classKeyword
  | constructKeyword
  | traitKeyword
  | extendsKeyword
  | overrideKeyword
  | publicKeyword
  | matchKeyword
  | attemptKeyword
  | tryKeyword
  | forKeyword
  | inKeyword
  | breakKeyword
  | continueKeyword
  | typeKeyword
  | distinctKeyword
  | lParen
  | rParen
  | lBrace
  | rBrace
  | lBracket
  | rBracket
  | comma
  | colon
  | dot
  | dotDot
  | at
  | question
  | arrow
  | equals
  | plusEq
  | minusEq
  | starEq
  | slashEq
  | percentEq
  | ampEq
  | pipeEq
  | caretEq
  | ltLtEq
  | gtGtEq
  | plus
  | minus
  | star
  | slash
  | percent
  | eqEq
  | bangEq
  | lt
  | ltEq
  | gt
  | gtEq
  | ampAmp
  | pipePipe
  | amp
  | pipe
  | caret
  | tilde
  | ltLt
  | gtGt
  | bang
  | unknown
  | eof
  deriving DecidableEq, Repr

structure Token where
  kind : TokenKind
  span : Span
  deriving DecidableEq, Repr

def TokenKind.keywordFromText : String → Option TokenKind
  | "function" => some .functionKeyword
  | "let" => some .letKeyword
  | "var" => some .varKeyword
  | "return" => some .returnKeyword
  | "if" => some .ifKeyword
  | "else" => some .elseKeyword
  | "while" => some .whileKeyword
  | "true" => some .trueKeyword
  | "false" => some .falseKeyword
  | "infinity" => some .infinityKeyword
  | "import" => some .importKeyword
  | "namespace" => some .namespaceKeyword
  | "as" => some .asKeyword
  | "is" => some .isKeyword
  | "struct" => some .structKeyword
  | "enum" => some .enumKeyword
  | "class" => some .classKeyword
  | "construct" => some .constructKeyword
  | "trait" => some .traitKeyword
  | "extends" => some .extendsKeyword
  | "override" => some .overrideKeyword
  | "public" => some .publicKeyword
  | "match" => some .matchKeyword
  | "attempt" => some .attemptKeyword
  | "try" => some .tryKeyword
  | "for" => some .forKeyword
  | "in" => some .inKeyword
  | "break" => some .breakKeyword
  | "continue" => some .continueKeyword
  | "type" => some .typeKeyword
  | "distinct" => some .distinctKeyword
  | _ => none

/-! ## Diagnostics -/

abbrev SourceId : Type := UInt32

structure FileSpan where
  source : SourceId
  span : Span
  deriving DecidableEq, Repr

/-- An error of the lexer: its code, its message and its label. -/
structure Diagnostic where
  code : String
  message : String
  site : FileSpan
  label : String
  deriving DecidableEq, Repr

def semicolon (source : SourceId) (span : Span) : Diagnostic where
  code := "KLEX005"
  message := "`;` is not Kira syntax"
  site := ⟨source, span⟩
  label := "a statement ends where its grammar ends; remove the `;`"

def misplacedBom (source : SourceId) (span : Span) : Diagnostic where
  code := "KLEX006"
  message := "byte-order mark inside the file"
  site := ⟨source, span⟩
  label := "a UTF-8 byte-order mark is accepted only as the first bytes of a file"

def unterminatedComment (source : SourceId) (span : Span) : Diagnostic where
  code := "KLEX004"
  message := "unterminated block comment"
  site := ⟨source, span⟩
  label := "this `/*` is never closed; block comments nest, so every `/*` needs its own `*/`"

def unknownByte (source : SourceId) (span : Span) : Diagnostic where
  code := "KLEX001"
  message := "unexpected character in source"
  site := ⟨source, span⟩
  label := "not a valid Kira token"

def unterminatedString (source : SourceId) (span : Span) : Diagnostic where
  code := "KLEX002"
  message := "unterminated string literal"
  site := ⟨source, span⟩
  label := "string is not closed before end of line"

def unknownEscape (source : SourceId) (span : Span) : Diagnostic where
  code := "KLEX003"
  message := "unknown string escape"
  site := ⟨source, span⟩
  label := "the escapes are \\n \\t \\r \\e \\0 \\\" \\\\, and a newline, which continues the string"

/-! ## Bytes -/

def isAsciiWhitespace (byte : UInt8) : Bool :=
  byte == 32 || byte == 9 || byte == 10 || byte == 12 || byte == 13

def isAsciiDigit (byte : UInt8) : Bool :=
  decide (48 ≤ byte) && decide (byte ≤ 57)

def isAsciiAlphabetic (byte : UInt8) : Bool :=
  decide (97 ≤ byte) && decide (byte ≤ 122) || decide (65 ≤ byte) && decide (byte ≤ 90)

def isAsciiHexdigit (byte : UInt8) : Bool :=
  isAsciiDigit byte || decide (97 ≤ byte) && decide (byte ≤ 102) ||
    decide (65 ≤ byte) && decide (byte ≤ 70)

def isIdentifierByte (byte : UInt8) : Bool :=
  byte == 95 || isAsciiAlphabetic byte || isAsciiDigit byte

def utf8CharLen (first : UInt8) : Nat :=
  if first ≤ 0x7f then 1
  else if 0xc0 ≤ first ∧ first ≤ 0xdf then 2
  else if 0xe0 ≤ first ∧ first ≤ 0xef then 3
  else if 0xf0 ≤ first ∧ first ≤ 0xf7 then 4
  else 1

def utf8Bom : List UInt8 := [0xef, 0xbb, 0xbf]

/-! ## The cursor -/

structure LexResult where
  tokens : List Token
  diagnostics : List Diagnostic
  deriving DecidableEq, Repr

structure Lexer where
  source : SourceId
  bytes : List UInt8
  pos : Nat
  tokens : List Token
  diagnostics : List Diagnostic
  deriving Repr

namespace Lexer

def new (source : SourceId) (text : String) : Lexer :=
  ⟨source, textBytes text, 0, [], []⟩

def peek (lexer : Lexer) : Option UInt8 :=
  lexer.bytes[lexer.pos]?

def peekAt (lexer : Lexer) (offset : Nat) : Option UInt8 :=
  lexer.bytes[lexer.pos + offset]?

def advance (lexer : Lexer) (count : Nat) : Lexer :=
  { lexer with pos := lexer.pos + count }

def report (lexer : Lexer) (diagnostic : Diagnostic) : Lexer :=
  { lexer with diagnostics := lexer.diagnostics ++ [diagnostic] }

/-- The span from an offset to the cursor. -/
def spanFrom (lexer : Lexer) (start : Nat) : Span :=
  .fromBounds (.ofNat start) (.ofNat lexer.pos)

def emit (lexer : Lexer) (kind : TokenKind) (start : Nat) : Lexer :=
  { lexer with tokens := lexer.tokens ++ [⟨kind, lexer.spanFrom start⟩] }

/-- Go past the bytes that a test accepts. -/
def skipWhile (lexer : Lexer) (accepts : UInt8 → Bool) : Lexer :=
  lexer.advance ((lexer.bytes.drop lexer.pos).takeWhile accepts).length

/-! ## Trivia -/

/-- The loop over a block comment, so many of which are open. -/
def skipBlockFrom (start depth : Nat) (lexer : Lexer) : Lexer :=
  if lexer.pos < lexer.bytes.length then
    if lexer.peek = some 47 ∧ lexer.peekAt 1 = some 42 then
      skipBlockFrom start (depth + 1) (lexer.advance 2)
    else if lexer.peek = some 42 ∧ lexer.peekAt 1 = some 47 then
      if depth - 1 = 0 then lexer.advance 2 else skipBlockFrom start (depth - 1) (lexer.advance 2)
    else skipBlockFrom start depth (lexer.advance 1)
  else lexer.report (unterminatedComment lexer.source (lexer.spanFrom start))
termination_by lexer.bytes.length - lexer.pos
decreasing_by all_goals simp only [advance]; omega

def skipBlockComment (lexer : Lexer) : Lexer :=
  skipBlockFrom lexer.pos 0 lexer

/-- The cursor has gone forward over the same bytes. -/
structure Onward (before after : Lexer) : Prop where
  bytes : after.bytes = before.bytes
  further : before.pos ≤ after.pos

theorem skipBlockFrom_onward (start depth : Nat) (lexer : Lexer) :
    Onward lexer (skipBlockFrom start depth lexer) := by
  induction depth, lexer using skipBlockFrom.induct with
  | case1 depth lexer inside opens ih =>
    rw [skipBlockFrom, if_pos inside, if_pos opens]
    exact ⟨ih.bytes, Nat.le_trans (Nat.le_add_right _ _) ih.further⟩
  | case2 depth lexer inside opens closes last =>
    rw [skipBlockFrom, if_pos inside, if_neg opens, if_pos closes, if_pos last]
    exact ⟨rfl, Nat.le_add_right _ _⟩
  | case3 depth lexer inside opens closes last ih =>
    rw [skipBlockFrom, if_pos inside, if_neg opens, if_pos closes, if_neg last]
    exact ⟨ih.bytes, Nat.le_trans (Nat.le_add_right _ _) ih.further⟩
  | case4 depth lexer inside opens closes ih =>
    rw [skipBlockFrom, if_pos inside, if_neg opens, if_neg closes]
    exact ⟨ih.bytes, Nat.le_trans (Nat.le_add_right _ _) ih.further⟩
  | case5 depth lexer inside =>
    rw [skipBlockFrom, if_neg inside]
    exact ⟨rfl, Nat.le_refl _⟩

variable {lexer : Lexer}

theorem skipBlockComment_further (opens : lexer.peek = some 47) (star : lexer.peekAt 1 = some 42) :
    Onward (lexer.advance 2) lexer.skipBlockComment := by
  have inside : lexer.pos < lexer.bytes.length := (List.getElem?_eq_some_iff.mp opens).1
  unfold skipBlockComment
  rw [skipBlockFrom, if_pos inside, if_pos ⟨opens, star⟩]
  exact skipBlockFrom_onward _ _ _

theorem skipWhile_further {byte : UInt8} {accepts : UInt8 → Bool} (here : lexer.peek = some byte)
    (accepted : accepts byte = true) : lexer.pos < (lexer.skipWhile accepts).pos := by
  rcases List.getElem?_eq_some_iff.mp here with ⟨inside, isByte⟩
  unfold skipWhile
  rw [List.drop_eq_getElem_cons inside, isByte, List.takeWhile_cons_of_pos accepted]
  simp only [advance, List.length_cons]
  omega

def skipTrivia (lexer : Lexer) : Lexer :=
  if inside : lexer.pos < lexer.bytes.length then
    if isAsciiWhitespace lexer.bytes[lexer.pos] then skipTrivia (lexer.advance 1)
    else if line : lexer.peek = some 47 ∧ lexer.peekAt 1 = some 47 then
      skipTrivia (lexer.skipWhile (· != 10))
    else if block : lexer.peek = some 47 ∧ lexer.peekAt 1 = some 42 then
      skipTrivia lexer.skipBlockComment
    else lexer
  else lexer
termination_by lexer.bytes.length - lexer.pos
decreasing_by
  · simp only [advance]
    omega
  · have further : lexer.pos < (lexer.skipWhile (· != 10)).pos :=
      skipWhile_further line.1 (by decide)
    have same : (lexer.skipWhile (· != 10)).bytes = lexer.bytes := rfl
    rw [same]
    omega
  · have onward := skipBlockComment_further block.1 block.2
    have further : lexer.pos + 2 ≤ lexer.skipBlockComment.pos := onward.further
    have same : lexer.skipBlockComment.bytes = lexer.bytes := onward.bytes
    rw [same]
    omega

/-! ## Tokens with letters and digits -/

def lexIdentifier (lexer : Lexer) : Lexer :=
  let after := lexer.skipWhile isIdentifierByte
  let text := (lexer.bytes.drop lexer.pos).take (after.pos - lexer.pos)
  let word := (String.fromUTF8? ⟨text.toArray⟩).getD ""
  after.emit ((TokenKind.keywordFromText word).getD .identifier) lexer.pos

def lexNumber (lexer : Lexer) : Lexer :=
  if lexer.peek = some 48 ∧ (lexer.peekAt 1 = some 120 ∨ lexer.peekAt 1 = some 88) ∧
      (lexer.peekAt 2).any isAsciiHexdigit then
    ((lexer.advance 2).skipWhile isAsciiHexdigit).emit .intLiteral lexer.pos
  else
    let whole := lexer.skipWhile isAsciiDigit
    if whole.peek = some 46 ∧ (whole.peekAt 1).any isAsciiDigit then
      ((whole.advance 1).skipWhile isAsciiDigit).emit .floatLiteral lexer.pos
    else whole.emit .intLiteral lexer.pos

/-! ## Strings -/

def escapeLetters : List UInt8 := [110, 116, 114, 101, 48, 34, 92]

/-- What stands behind a backslash at an offset. -/
def escapeBehind (escape : Nat) (lexer : Lexer) : Lexer :=
  match lexer.peek with
  | none => lexer
  | some escaped =>
    if escaped = 10 then lexer.advance 1
    else if escaped = 13 ∧ lexer.peekAt 1 = some 10 then lexer.advance 2
    else if escaped ∉ escapeLetters then
      let stop := min (escape + 1 + utf8CharLen escaped) lexer.bytes.length
      let span := Span.fromBounds (.ofNat escape) (.ofNat stop)
      (lexer.report (unknownEscape lexer.source span)).advance 1
    else lexer.advance 1

theorem escapeBehind_onward (escape : Nat) (lexer : Lexer) :
    Onward lexer (escapeBehind escape lexer) := by
  unfold escapeBehind
  split
  · exact ⟨rfl, Nat.le_refl _⟩
  · split_ifs
    all_goals exact ⟨rfl, Nat.le_add_right _ _⟩

/-- The loop over a literal, and whether it met the closing quote. -/
def stringFrom (lexer : Lexer) : Bool × Lexer :=
  if inside : lexer.pos < lexer.bytes.length then
    if lexer.bytes[lexer.pos] = 34 then (true, lexer.advance 1)
    else if lexer.bytes[lexer.pos] = 92 then
      stringFrom (escapeBehind lexer.pos (lexer.advance 1))
    else if lexer.bytes[lexer.pos] = 10 then (false, lexer)
    else stringFrom (lexer.advance 1)
  else (false, lexer)
termination_by lexer.bytes.length - lexer.pos
decreasing_by
  · have onward := escapeBehind_onward lexer.pos (lexer.advance 1)
    have further : lexer.pos + 1 ≤ (escapeBehind lexer.pos (lexer.advance 1)).pos := onward.further
    have same : (escapeBehind lexer.pos (lexer.advance 1)).bytes = lexer.bytes := onward.bytes
    rw [same]
    omega
  · simp only [advance]
    omega

def lexString (lexer : Lexer) : Lexer :=
  match stringFrom (lexer.advance 1) with
  | (true, after) => after.emit .stringLiteral lexer.pos
  | (false, after) =>
    (after.report (unterminatedString after.source (after.spanFrom lexer.pos))).emit
      .stringLiteral lexer.pos

/-! ## Symbols -/

def threeCharacters : UInt8 → Option UInt8 → Option UInt8 → Option TokenKind
  | 60, some 60, some 61 => some .ltLtEq
  | 62, some 62, some 61 => some .gtGtEq
  | _, _, _ => none

def twoCharacters : UInt8 → Option UInt8 → Option TokenKind
  | 45, some 62 => some .arrow
  | 61, some 61 => some .eqEq
  | 33, some 61 => some .bangEq
  | 60, some 61 => some .ltEq
  | 62, some 61 => some .gtEq
  | 38, some 38 => some .ampAmp
  | 124, some 124 => some .pipePipe
  | 60, some 60 => some .ltLt
  | 62, some 62 => some .gtGt
  | 46, some 46 => some .dotDot
  | 43, some 61 => some .plusEq
  | 45, some 61 => some .minusEq
  | 42, some 61 => some .starEq
  | 47, some 61 => some .slashEq
  | 37, some 61 => some .percentEq
  | 38, some 61 => some .ampEq
  | 124, some 61 => some .pipeEq
  | 94, some 61 => some .caretEq
  | _, _ => none

def singleCharacter : UInt8 → Option TokenKind
  | 40 => some .lParen
  | 41 => some .rParen
  | 123 => some .lBrace
  | 125 => some .rBrace
  | 91 => some .lBracket
  | 93 => some .rBracket
  | 44 => some .comma
  | 58 => some .colon
  | 46 => some .dot
  | 64 => some .at
  | 63 => some .question
  | 61 => some .equals
  | 43 => some .plus
  | 45 => some .minus
  | 42 => some .star
  | 47 => some .slash
  | 37 => some .percent
  | 60 => some .lt
  | 62 => some .gt
  | 38 => some .amp
  | 124 => some .pipe
  | 94 => some .caret
  | 126 => some .tilde
  | 33 => some .bang
  | _ => none

/-- The report on a character that begins no token. -/
def unknownReport (source : SourceId) (byte : UInt8) (text : List UInt8) (span : Span) :
    Diagnostic :=
  if byte = 59 then semicolon source span
  else if text = utf8Bom then misplacedBom source span
  else unknownByte source span

/-- A character that begins no token. -/
def lexUnknown (lexer : Lexer) (byte : UInt8) : Lexer :=
  let stop := min (lexer.pos + utf8CharLen byte) lexer.bytes.length
  let after := { lexer with pos := stop }
  let text := (lexer.bytes.drop lexer.pos).take (stop - lexer.pos)
  (after.report (unknownReport lexer.source byte text (after.spanFrom lexer.pos))).emit .unknown
    lexer.pos

def lexSymbol (lexer : Lexer) : Lexer :=
  let byte := lexer.peek.getD 0
  let next := lexer.peekAt 1
  match threeCharacters byte next (lexer.peekAt 2) with
  | some kind => (lexer.advance 3).emit kind lexer.pos
  | none =>
    match twoCharacters byte next with
    | some kind => (lexer.advance 2).emit kind lexer.pos
    | none =>
      match singleCharacter byte with
      | some kind => (lexer.advance 1).emit kind lexer.pos
      | none => lexer.lexUnknown byte

/-! ## The whole text -/

def lexOne (lexer : Lexer) : Lexer :=
  match lexer.peek with
  | none => lexer
  | some byte =>
    if byte = 34 then lexer.lexString
    else if isAsciiDigit byte then lexer.lexNumber
    else if byte = 95 ∨ isAsciiAlphabetic byte then lexer.lexIdentifier
    else lexer.lexSymbol

theorem skipTrivia_onward (lexer : Lexer) : Onward lexer lexer.skipTrivia := by
  induction lexer using skipTrivia.induct with
  | case1 lexer inside blank ih =>
    rw [skipTrivia, dif_pos inside, if_pos blank]
    exact ⟨ih.bytes, Nat.le_trans (Nat.le_add_right _ _) ih.further⟩
  | case2 lexer inside blank line ih =>
    rw [skipTrivia, dif_pos inside, if_neg blank, dif_pos line]
    exact ⟨ih.bytes, Nat.le_trans (Nat.le_add_right _ _) ih.further⟩
  | case3 lexer inside blank line block ih =>
    have onward := skipBlockComment_further block.1 block.2
    rw [skipTrivia, dif_pos inside, if_neg blank, dif_neg line, dif_pos block]
    exact ⟨ih.bytes.trans onward.bytes,
      Nat.le_trans (Nat.le_trans (Nat.le_add_right _ 2) onward.further) ih.further⟩
  | case4 lexer inside blank line block =>
    rw [skipTrivia, dif_pos inside, if_neg blank, dif_neg line, dif_neg block]
    exact ⟨rfl, Nat.le_refl _⟩
  | case5 lexer inside =>
    rw [skipTrivia, dif_neg inside]
    exact ⟨rfl, Nat.le_refl _⟩

theorem stringFrom_onward (lexer : Lexer) : Onward lexer (stringFrom lexer).2 := by
  induction lexer using stringFrom.induct with
  | case1 lexer inside quote =>
    rw [stringFrom, dif_pos inside, if_pos quote]
    exact ⟨rfl, Nat.le_add_right _ _⟩
  | case2 lexer inside quote slash ih =>
    have onward := escapeBehind_onward lexer.pos (lexer.advance 1)
    rw [stringFrom, dif_pos inside, if_neg quote, if_pos slash]
    exact ⟨ih.bytes.trans onward.bytes,
      Nat.le_trans (Nat.le_trans (Nat.le_add_right _ 1) onward.further) ih.further⟩
  | case3 lexer inside quote slash newline =>
    rw [stringFrom, dif_pos inside, if_neg quote, if_neg slash, if_pos newline]
    exact ⟨rfl, Nat.le_refl _⟩
  | case4 lexer inside quote slash newline ih =>
    rw [stringFrom, dif_pos inside, if_neg quote, if_neg slash, if_neg newline]
    exact ⟨ih.bytes, Nat.le_trans (Nat.le_add_right _ _) ih.further⟩
  | case5 lexer inside =>
    rw [stringFrom, dif_neg inside]
    exact ⟨rfl, Nat.le_refl _⟩

theorem utf8CharLen_pos (first : UInt8) : 0 < utf8CharLen first := by
  unfold utf8CharLen
  split_ifs <;> decide

theorem lexString_further (lexer : Lexer) : Onward (lexer.advance 1) lexer.lexString := by
  have onward := stringFrom_onward (lexer.advance 1)
  unfold lexString
  generalize stringFrom (lexer.advance 1) = scanned at onward
  rcases scanned with ⟨terminated, after⟩
  cases terminated with
  | true => exact ⟨onward.bytes, onward.further⟩
  | false => exact ⟨onward.bytes, onward.further⟩

theorem lexNumber_further {byte : UInt8} (here : lexer.peek = some byte)
    (digit : isAsciiDigit byte = true) : Onward (lexer.advance 1) lexer.lexNumber := by
  have whole : lexer.pos < (lexer.skipWhile isAsciiDigit).pos := skipWhile_further here digit
  unfold lexNumber
  simp only
  split_ifs
  · exact ⟨rfl, Nat.le_trans (Nat.add_le_add_left (by decide) _) (Nat.le_add_right _ _)⟩
  · exact ⟨rfl, Nat.le_trans whole (Nat.le_trans (Nat.le_add_right _ _) (Nat.le_add_right _ _))⟩
  · exact ⟨rfl, whole⟩

theorem lexSymbol_further (inside : lexer.pos < lexer.bytes.length) :
    Onward (lexer.advance 1) lexer.lexSymbol := by
  unfold lexSymbol
  simp only
  split
  · exact ⟨rfl, Nat.add_le_add_left (by decide) _⟩
  · split
    · exact ⟨rfl, Nat.add_le_add_left (by decide) _⟩
    · split
      · exact ⟨rfl, Nat.le_refl _⟩
      · refine ⟨rfl, ?_⟩
        have positive := utf8CharLen_pos (lexer.peek.getD 0)
        change lexer.pos + 1 ≤ min (lexer.pos + utf8CharLen (lexer.peek.getD 0))
          lexer.bytes.length
        omega

/-- A token is never empty. -/
theorem lexOne_further (inside : lexer.pos < lexer.bytes.length) :
    Onward (lexer.advance 1) lexer.lexOne := by
  have here : lexer.peek = some lexer.bytes[lexer.pos] := List.getElem?_eq_getElem inside
  unfold lexOne
  rw [here]
  simp only
  split_ifs with quote digit letter
  · exact lexString_further lexer
  · exact lexNumber_further here digit
  · have accepted : isIdentifierByte lexer.bytes[lexer.pos] = true := by
      unfold isIdentifierByte
      rcases letter with underscore | alphabetic
      · rw [underscore]
        decide
      · simp [alphabetic]
    exact ⟨rfl, skipWhile_further here accepted⟩
  · exact lexSymbol_further inside

/-- The loop over the tokens of a text. -/
def lexFrom (lexer : Lexer) : Lexer :=
  if _ : lexer.skipTrivia.pos < lexer.skipTrivia.bytes.length then
    lexFrom lexer.skipTrivia.lexOne
  else lexer.skipTrivia
termination_by lexer.bytes.length - lexer.pos
decreasing_by
  rename_i inside
  have before := skipTrivia_onward lexer
  have onward := lexOne_further inside
  have further : lexer.skipTrivia.pos + 1 ≤ lexer.skipTrivia.lexOne.pos := onward.further
  have same : lexer.skipTrivia.lexOne.bytes = lexer.bytes := onward.bytes.trans before.bytes
  have start := before.further
  rw [before.bytes] at inside
  rw [same]
  omega

def run (lexer : Lexer) : LexResult :=
  let begun := if utf8Bom <+: lexer.bytes then { lexer with pos := utf8Bom.length } else lexer
  let after := begun.lexFrom
  ⟨after.tokens ++ [⟨.eof, ⟨.ofNat after.bytes.length, 0⟩⟩], after.diagnostics⟩

end Lexer

/-- The tokens of a text, and what was wrong with it. -/
def lex (source : SourceId) (text : String) : LexResult :=
  (Lexer.new source text).run

end Lexing

end KiraVm
