import KiraVm.LexerModel

/-!
# The pieces of a text

A text is a sequence of pieces: blanks, comments, tokens and characters that begin
no token.  Each piece says what may follow it, so that it is as long as it can be,
and which token and which diagnostics it stands for.
-/

namespace KiraVm

namespace Lexing

/-! ## Comments -/

/-- What stands inside so many open comments, up to the close of the outermost. -/
inductive CommentBody : Nat → List UInt8 → Prop
  | last : CommentBody 1 [42, 47]
  | opens {depth : Nat} {rest : List UInt8} (inside : CommentBody (depth + 1) rest) :
      CommentBody depth (47 :: 42 :: rest)
  | closes {depth : Nat} {rest : List UInt8} (inside : CommentBody (depth + 1) rest) :
      CommentBody (depth + 2) (42 :: 47 :: rest)
  | other {depth : Nat} {byte : UInt8} {rest : List UInt8} (noOpener : ¬ [47, 42] <+: byte :: rest)
      (noCloser : ¬ [42, 47] <+: byte :: rest) (inside : CommentBody depth rest) :
      CommentBody depth (byte :: rest)

/-- Comments nest, and the outermost is closed. -/
def BlockComment (bytes : List UInt8) : Prop :=
  ∃ rest, bytes = 47 :: 42 :: rest ∧ CommentBody 1 rest

/-- The text ends inside the comment. -/
def OpenComment (bytes : List UInt8) : Prop :=
  ∃ rest, bytes = 47 :: 42 :: rest ∧ ∀ front back, rest = front ++ back → ¬ CommentBody 1 front

/-! ## Tokens -/

/-- A token and what follows it, which does not go on with it. -/
inductive Lexeme (left : List UInt8) : TokenKind → List UInt8 → Prop
  | word {first : UInt8} {rest : List UInt8} {text : String}
      (begins : first = 95 ∨ isAsciiAlphabetic first = true)
      (goesOn : ∀ byte ∈ rest, isIdentifierByte byte = true)
      (stops : ∀ byte ∈ left.head?, isIdentifierByte byte = false)
      (spelled : textBytes text = first :: rest) :
      Lexeme left ((TokenKind.keywordFromText text).getD .identifier) (first :: rest)
  | hex {mark : UInt8} {digits : List UInt8} (marked : mark = 120 ∨ mark = 88)
      (some : digits ≠ []) (hexadecimal : ∀ byte ∈ digits, isAsciiHexdigit byte = true)
      (stops : ∀ byte ∈ left.head?, isAsciiHexdigit byte = false) :
      Lexeme left .intLiteral (48 :: mark :: digits)
  | int {digits : List UInt8} (some : digits ≠ [])
      (decimal : ∀ byte ∈ digits, isAsciiDigit byte = true)
      (stops : ∀ byte ∈ left.head?, isAsciiDigit byte = false)
      (noFraction : ∀ byte rest, left = 46 :: byte :: rest → isAsciiDigit byte = false)
      (notHex : ∀ mark byte rest, digits = [48] → left = mark :: byte :: rest →
        mark = 120 ∨ mark = 88 → isAsciiHexdigit byte = false) :
      Lexeme left .intLiteral digits
  | float {digits fraction : List UInt8} (some : digits ≠ [])
      (decimal : ∀ byte ∈ digits, isAsciiDigit byte = true) (someFraction : fraction ≠ [])
      (decimalFraction : ∀ byte ∈ fraction, isAsciiDigit byte = true)
      (stops : ∀ byte ∈ left.head?, isAsciiDigit byte = false) :
      Lexeme left .floatLiteral (digits ++ 46 :: fraction)
  | three {first second third : UInt8} {kind : TokenKind}
      (known : Lexer.threeCharacters first (some second) (some third) = some kind) :
      Lexeme left kind [first, second, third]
  | two {first second : UInt8} {kind : TokenKind}
      (known : Lexer.twoCharacters first (some second) = some kind)
      (noThree : Lexer.threeCharacters first (some second) left.head? = none) :
      Lexeme left kind [first, second]
  | single {first : UInt8} {kind : TokenKind}
      (known : Lexer.singleCharacter first = some kind)
      (noTwo : Lexer.twoCharacters first left.head? = none)
      (noThree : Lexer.threeCharacters first left.head? left[1]? = none)
      (noComment : first = 47 → left.head? ≠ some 47 ∧ left.head? ≠ some 42) :
      Lexeme left kind [first]

def firstByte (c : Char) : UInt8 :=
  (String.utf8EncodeChar c).headD 0

/-- A character that begins no token and is no blank. -/
structure Stray (c : Char) : Prop where
  noBlank : isAsciiWhitespace (firstByte c) = false
  noQuote : firstByte c ≠ 34
  noDigit : isAsciiDigit (firstByte c) = false
  noLetter : ¬ (firstByte c = 95 ∨ isAsciiAlphabetic (firstByte c) = true)
  noSymbol : Lexer.singleCharacter (firstByte c) = none

/-! ## Literals -/

inductive Part
  | plain (c : Char)
  | escape (letter : UInt8)
  | newline
  | carriage
  | unknown (c : Char)

inductive Ending
  | closed
  | broken
  | dangling
  deriving DecidableEq

def Part.bytes : Part → List UInt8
  | .plain c => String.utf8EncodeChar c
  | .escape letter => [92, letter]
  | .newline => [92, 10]
  | .carriage => [92, 13, 10]
  | .unknown c => 92 :: String.utf8EncodeChar c

def Ending.bytes : Ending → List UInt8
  | .closed => [34]
  | .broken => []
  | .dangling => [92]

/-- What stands behind the opening quote. -/
def insideBytes (parts : List Part) (ending : Ending) : List UInt8 :=
  parts.flatMap Part.bytes ++ ending.bytes

/-- A part of a literal, before these bytes. -/
def Part.Stands (behind : List UInt8) : Part → Prop
  | .plain c => c ≠ '"' ∧ c ≠ '\\' ∧ c ≠ '\n'
  | .escape letter => letter ∈ Lexer.escapeLetters
  | .newline => True
  | .carriage => True
  | .unknown c => firstByte c ∉ Lexer.escapeLetters ∧ c ≠ '\n' ∧
      (c = '\r' → behind.head? ≠ some 10)

/-- A literal ends in a quote, before a line break or with the text. -/
def Ending.Stands (left : List UInt8) : Ending → Prop
  | .closed => True
  | .broken => ∀ byte ∈ left.head?, byte = 10
  | .dangling => left = []

def LiteralStands (left : List UInt8) (ending : Ending) : List Part → Prop
  | [] => ending.Stands left
  | part :: parts => part.Stands (insideBytes parts ending ++ left) ∧
      LiteralStands left ending parts

/-! ## Pieces -/

inductive Piece
  | blank (byte : UInt8)
  | lineComment (body : List UInt8)
  | blockComment (bytes : List UInt8)
  | openComment (bytes : List UInt8)
  | token (kind : TokenKind) (bytes : List UInt8)
  | literal (parts : List Part) (ending : Ending)
  | stray (c : Char)

namespace Piece

def bytes : Piece → List UInt8
  | .blank byte => [byte]
  | .lineComment body => 47 :: 47 :: body
  | .blockComment bytes => bytes
  | .openComment bytes => bytes
  | .token _ bytes => bytes
  | .literal parts ending => 34 :: insideBytes parts ending
  | .stray c => String.utf8EncodeChar c

def Stands (left : List UInt8) : Piece → Prop
  | .blank byte => isAsciiWhitespace byte = true
  | .lineComment body => (10 : UInt8) ∉ body ∧ ∀ byte ∈ left.head?, byte = 10
  | .blockComment bytes => BlockComment bytes
  | .openComment bytes => OpenComment bytes ∧ left = []
  | .token kind bytes => Lexeme left kind bytes
  | .literal parts ending => LiteralStands left ending parts
  | .stray c => Stray c

def kind : Piece → Option TokenKind
  | .blank _ => none
  | .lineComment _ => none
  | .blockComment _ => none
  | .openComment _ => none
  | .token kind _ => some kind
  | .literal _ _ => some .stringLiteral
  | .stray _ => some .unknown

end Piece

def spanOf (offset length : Nat) : Span :=
  .fromBounds (.ofNat offset) (.ofNat (offset + length))

def escapeFaults (source : SourceId) (offset : Nat) : List Part → List Diagnostic
  | [] => []
  | .unknown c :: parts =>
    unknownEscape source (spanOf offset (Part.unknown c).bytes.length) ::
      escapeFaults source (offset + (Part.unknown c).bytes.length) parts
  | part :: parts => escapeFaults source (offset + part.bytes.length) parts

namespace Piece

def tokens (offset : Nat) (piece : Piece) : List Token :=
  piece.kind.toList.map fun kind => ⟨kind, spanOf offset piece.bytes.length⟩

def faults (source : SourceId) (offset : Nat) : Piece → List Diagnostic
  | .openComment bytes => [unterminatedComment source (spanOf offset bytes.length)]
  | .literal parts ending => escapeFaults source (offset + 1) parts ++
      if ending = .closed then []
      else [unterminatedString source (spanOf offset (insideBytes parts ending).length.succ)]
  | .stray c => [Lexer.unknownReport source (firstByte c) (String.utf8EncodeChar c)
      (spanOf offset (String.utf8EncodeChar c).length)]
  | _ => []

end Piece

def Munched : List Piece → Prop
  | [] => True
  | piece :: pieces => piece.Stands (pieces.flatMap Piece.bytes) ∧ Munched pieces

def tokensOf (offset : Nat) : List Piece → List Token
  | [] => []
  | piece :: pieces => piece.tokens offset ++ tokensOf (offset + piece.bytes.length) pieces

/-- The token at the end of the text. -/
def eofToken (length : Nat) : Token :=
  ⟨.eof, ⟨.ofNat length, 0⟩⟩

def faultsOf (source : SourceId) (offset : Nat) : List Piece → List Diagnostic
  | [] => []
  | piece :: pieces =>
    piece.faults source offset ++ faultsOf source (offset + piece.bytes.length) pieces

end Lexing

end KiraVm
