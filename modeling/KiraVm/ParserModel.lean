import KiraVm.LexerModel
import KiraVm.NumberModel

/-!
# The expression parser

The recursive descent of `expr.rs`, `expr/calls.rs`, `item/type_refs.rs` and
`generics.rs`: expressions by precedence climbing, and the written types that stand
after `is` and `as`.  A token comes with the text that its span covers, and nodes
leave their spans out.

Braces begin what the model leaves out: a struct literal, a closure, a content block, a
`match`.  There the parser answers nothing, as it does when its steps run out.
-/

namespace KiraVm

namespace Parsing

open Lexing (TokenKind)

/-! ## Tokens -/

structure Token where
  kind : TokenKind
  text : String
  deriving DecidableEq, Repr

def endOfInput : Token := ⟨.eof, ""⟩

def describe : TokenKind → String
  | .identifier => "identifier"
  | .intLiteral => "integer literal"
  | .floatLiteral => "float literal"
  | .stringLiteral => "string literal"
  | .functionKeyword => "`function`"
  | .letKeyword => "`let`"
  | .varKeyword => "`var`"
  | .returnKeyword => "`return`"
  | .ifKeyword => "`if`"
  | .elseKeyword => "`else`"
  | .whileKeyword => "`while`"
  | .trueKeyword => "`true`"
  | .falseKeyword => "`false`"
  | .infinityKeyword => "`infinity`"
  | .importKeyword => "`import`"
  | .namespaceKeyword => "`namespace`"
  | .asKeyword => "`as`"
  | .isKeyword => "`is`"
  | .structKeyword => "`struct`"
  | .enumKeyword => "`enum`"
  | .classKeyword => "`class`"
  | .constructKeyword => "`construct`"
  | .traitKeyword => "`trait`"
  | .extendsKeyword => "`extends`"
  | .overrideKeyword => "`override`"
  | .publicKeyword => "`public`"
  | .matchKeyword => "`match`"
  | .attemptKeyword => "`attempt`"
  | .tryKeyword => "`try`"
  | .forKeyword => "`for`"
  | .inKeyword => "`in`"
  | .breakKeyword => "`break`"
  | .continueKeyword => "`continue`"
  | .typeKeyword => "`type`"
  | .distinctKeyword => "`distinct`"
  | .lParen => "`(`"
  | .rParen => "`)`"
  | .lBrace => "`\x7b`"
  | .rBrace => "`\x7d`"
  | .lBracket => "`[`"
  | .rBracket => "`]`"
  | .comma => "`,`"
  | .colon => "`:`"
  | .dot => "`.`"
  | .dotDot => "`..`"
  | .at => "`@`"
  | .question => "`?`"
  | .arrow => "`->`"
  | .equals => "`=`"
  | .plusEq => "`+=`"
  | .minusEq => "`-=`"
  | .starEq => "`*=`"
  | .slashEq => "`/=`"
  | .percentEq => "`%=`"
  | .ampEq => "`&=`"
  | .pipeEq => "`|=`"
  | .caretEq => "`^=`"
  | .ltLtEq => "`<<=`"
  | .gtGtEq => "`>>=`"
  | .plus => "`+`"
  | .minus => "`-`"
  | .star => "`*`"
  | .slash => "`/`"
  | .percent => "`%`"
  | .eqEq => "`==`"
  | .bangEq => "`!=`"
  | .lt => "`<`"
  | .ltEq => "`<=`"
  | .gt => "`>`"
  | .gtEq => "`>=`"
  | .ampAmp => "`&&`"
  | .pipePipe => "`||`"
  | .amp => "`&`"
  | .pipe => "`|`"
  | .caret => "`^`"
  | .tilde => "`~`"
  | .ltLt => "`<<`"
  | .gtGt => "`>>`"
  | .bang => "`!`"
  | .unknown => "unknown token"
  | .eof => "end of input"

/-! ## The syntax tree -/

inductive UnaryOp
  | neg
  | not
  | bitNot
  deriving DecidableEq, Repr

inductive BinaryOp
  | add
  | sub
  | mul
  | div
  | rem
  | eq
  | ne
  | lt
  | le
  | gt
  | ge
  | and
  | or
  | bitAnd
  | bitOr
  | bitXor
  | shl
  | shr
  deriving DecidableEq, Repr

inductive OwnershipOp
  | move
  | copy
  deriving DecidableEq, Repr

inductive OwnershipMode
  | owned
  | borrowRead
  | borrowMut
  | move
  | copy
  deriving DecidableEq, Repr

/-- A written type.  A name is its segments, which the code joins with dots. -/
inductive TypeRef
  | named (name : List String)
  | array (element : TypeRef)
  | someConstruct (family : List String)
  | generic (name : List String) (args : List TypeRef)
  | function (params : List TypeRef) (paramOwnership : List OwnershipMode) (result : TypeRef)
  | tuple (elements : List TypeRef)
  | error

/-- An expression, over the type of floating-point values. -/
inductive Expr (F : Type)
  | int (value : Int)
  | float (value : F)
  | bool (value : Bool)
  | str (value : String)
  | name (symbol : String)
  | unary (op : UnaryOp) (operand : Expr F)
  | binary (op : BinaryOp) (lhs rhs : Expr F)
  | tuple (elements : List (Expr F))
  | conditional (cond thenBranch otherwise : Expr F)
  | call (callee : String) (typeArgs : List TypeRef) (args : List (Option String × Expr F))
  | methodCall (receiver : Expr F) (method : String) (args : List (Option String × Expr F))
  | field (base : Expr F) (field : String)
  | arrayLit (elements : List (Expr F))
  | index (base index : Expr F)
  | dotMember (name : String) (args : Option (List (Expr F)))
  | tried (value : Expr F)
  | typeTest (value : Expr F) (ty : TypeRef)
  | typeCast (value : Expr F) (ty : TypeRef)
  | ownership (op : OwnershipOp) (operand : Expr F)
  | error

/-! ## The cursor -/

structure Diagnostic where
  code : String
  message : String
  deriving DecidableEq, Repr

/-- The working state: the tokens from the cursor on, the end of the input left out,
the nesting depth, and the diagnostics so far. -/
structure State where
  rest : List Token
  nesting : Nat
  diagnostics : List Diagnostic
  deriving DecidableEq, Repr

/-- How deeply expressions and types may nest. -/
def maxNestingDepth : Nat := 128

namespace State

def peek (state : State) (offset : Nat) : Token :=
  state.rest.getD offset endOfInput

def current (state : State) : Token :=
  state.peek 0

def currentKind (state : State) : TokenKind :=
  state.current.kind

def peekIsWord (state : State) (offset : Nat) (word : String) : Bool :=
  (state.peek offset).kind == .identifier && (state.peek offset).text == word

def atWord (state : State) (word : String) : Bool :=
  state.peekIsWord 0 word

def bump (state : State) : State :=
  { state with rest := state.rest.tail }

def eat (state : State) (kind : TokenKind) : Bool × State :=
  if state.currentKind = kind then (true, state.bump) else (false, state)

def error (state : State) (code message : String) : State :=
  { state with diagnostics := state.diagnostics ++ [⟨code, message⟩] }

def expect (state : State) (kind : TokenKind) : State :=
  if state.currentKind = kind then state.bump
  else state.error "KPAR001"
    ("expected " ++ describe kind ++ ", found " ++ describe state.currentKind)

/-- Goes on by one token where nothing was consumed since `before`. -/
def forceProgress (state before : State) : State :=
  if state.rest = before.rest then state.bump else state

def skipUnknown (state : State) : State :=
  { state with rest := state.rest.dropWhile fun token => token.kind == .unknown }

def balancedRest (opener closer : TokenKind) : Nat → List Token → List Token
  | _, [] => []
  | depth, token :: rest =>
    if token.kind = opener then balancedRest opener closer (depth + 1) rest
    else if token.kind = closer then
      if depth ≤ 1 then rest else balancedRest opener closer (depth - 1) rest
    else balancedRest opener closer depth rest

def skipBalanced (state : State) (opener closer : TokenKind) : State :=
  if state.currentKind = opener then
    { state with rest := balancedRest opener closer 0 state.rest }
  else state

/-- Whether descent may go on, one level deeper. -/
def enterNesting (state : State) : Bool × State :=
  let reported :=
    if state.nesting = maxNestingDepth then
      state.error "KPAR068"
        ("expression nests more than " ++ toString maxNestingDepth ++ " levels deep")
    else state
  (decide (state.nesting < maxNestingDepth), { reported with nesting := state.nesting + 1 })

def exitNesting (state : State) : State :=
  { state with nesting := state.nesting - 1 }

def recoverRefusedNesting (state : State) : State :=
  match state.currentKind with
  | .lParen => state.skipBalanced .lParen .rParen
  | .lBracket => state.skipBalanced .lBracket .rBracket
  | .lBrace => state.skipBalanced .lBrace .rBrace
  | _ => state

/-! ## Lookahead -/

/-- Whether a token of the kind can follow an ownership operator. -/
def startsOperand : TokenKind → Bool
  | .identifier | .intLiteral | .floatLiteral | .stringLiteral | .trueKeyword | .falseKeyword
  | .infinityKeyword | .minus | .bang | .tilde | .lBracket => true
  | _ => false

def ownershipOpHere (state : State) : Option OwnershipOp :=
  if state.atWord "move" then
    if startsOperand (state.peek 1).kind then some .move else none
  else if state.atWord "copy" then
    if startsOperand (state.peek 1).kind then some .copy else none
  else none

def typeArgsClose : Int → List Token → Bool
  | _, [] => false
  | depth, token :: rest =>
    let callFollows : Bool :=
      match rest.head? with
      | some next => next.kind == .lParen || next.kind == .lBrace
      | none => false
    match token.kind with
    | .lt => typeArgsClose (depth + 1) rest
    | .gt =>
      if depth - 1 = 0 then callFollows
      else if depth - 1 < 0 then false
      else typeArgsClose (depth - 1) rest
    | .gtGt =>
      if depth - 2 ≤ 0 then decide (depth - 2 = 0) && callFollows
      else typeArgsClose (depth - 2) rest
    | .identifier | .dot | .comma | .lBracket | .rBracket | .lParen | .rParen | .colon
    | .arrow => typeArgsClose depth rest
    | _ => false

def atExplicitCallTypeArgs (state : State) : Bool :=
  state.currentKind == .lt && typeArgsClose 0 state.rest

def peekStartsType (state : State) (offset : Nat) : Bool :=
  match (state.peek offset).kind with
  | .identifier | .lBracket | .lParen => true
  | _ => false

def atSomeConstruct (state : State) : Bool :=
  state.atWord "some" && (state.peek 1).kind == .identifier

/-- `at_any_construct` where a delimiter must follow the type. -/
def atAnyConstruct (state : State) : Bool :=
  state.atWord "Any" && (state.peek 1).kind == .identifier

def atGenericClose (state : State) : Bool :=
  state.currentKind == .gt || state.currentKind == .gtGt

/-- Consumes one closing `>`, and leaves the second half of a `>>`. -/
def eatGenericClose (state : State) : Bool × State :=
  match state.rest with
  | [] => (false, state)
  | token :: rest =>
    match token.kind with
    | .gt => (true, { state with rest := rest })
    | .gtGt => (true, { state with rest := ⟨.gt, ">"⟩ :: rest })
    | _ => (false, state)

def atArrayEnd (state : State) : Bool :=
  state.currentKind == .rBracket || state.currentKind == .rBrace || state.currentKind == .eof

end State

/-! ## Literals -/

/-- The standard library's reading of a floating-point text. -/
structure FloatReading (F : Type) where
  parse : String → Option F
  isFinite : F → Bool
  infinity : F
  zero : F

def digitValue (radix : Nat) (digit : Char) : Option Nat :=
  let code := digit.toNat
  let value :=
    if '0'.toNat ≤ code ∧ code ≤ '9'.toNat then some (code - '0'.toNat)
    else if 'a'.toNat ≤ code ∧ code ≤ 'z'.toNat then some (code - 'a'.toNat + 10)
    else if 'A'.toNat ≤ code ∧ code ≤ 'Z'.toNat then some (code - 'A'.toNat + 10)
    else none
  value.filter (· < radix)

/-- The number that the digits spell.  The text of a literal has no sign. -/
def fromDigits (radix : Nat) (digits : List Char) : Option Nat :=
  if digits = [] then none
  else digits.foldlM (fun value digit => (digitValue radix digit).map (value * radix + ·)) 0

/-- A hexadecimal literal is a pattern of 64 bits, a decimal one a number. -/
def readInt (text : String) : Option Int :=
  let hexadecimal (digits : List Char) : Option Int := do
    let bits ← fromDigits 16 digits
    if bits < 2 ^ 64 then some (BitVec.ofNat 64 bits).toInt else none
  match text.toList with
  | '0' :: 'x' :: digits => hexadecimal digits
  | '0' :: 'X' :: digits => hexadecimal digits
  | digits => do
    let value ← fromDigits 10 digits
    if value < 2 ^ 63 then some value else none

/-- What a continued line leaves to read. -/
def skipContinuationIndent (text : List Char) : List Char :=
  text.dropWhile Decimal.isWhitespace

theorem length_skipContinuationIndent (text : List Char) :
    (skipContinuationIndent text).length ≤ text.length :=
  (List.dropWhile_sublist _).length_le

def skipLineFeed (text : List Char) : List Char :=
  if text.head? = some '\n' then text.tail else text

theorem length_skipLineFeed (text : List Char) : (skipLineFeed text).length ≤ text.length := by
  unfold skipLineFeed
  split <;> simp

def decodeChars : List Char → Option (List Char)
  | [] => some []
  | '\\' :: escape :: rest =>
    match escape with
    | 'n' => (decodeChars rest).map ('\n' :: ·)
    | 't' => (decodeChars rest).map ('\t' :: ·)
    | 'r' => (decodeChars rest).map ('\r' :: ·)
    | 'e' => (decodeChars rest).map (Char.ofNat 0x1b :: ·)
    | '0' => (decodeChars rest).map (Char.ofNat 0 :: ·)
    | '"' => (decodeChars rest).map ('"' :: ·)
    | '\\' => (decodeChars rest).map ('\\' :: ·)
    | '\n' => decodeChars (skipContinuationIndent rest)
    | '\r' => decodeChars (skipContinuationIndent (skipLineFeed rest))
    | _ => none
  | ['\\'] => none
  | character :: rest => (decodeChars rest).map (character :: ·)
  termination_by text => text.length
  decreasing_by
    all_goals
      have indent := length_skipContinuationIndent rest
      have line := length_skipContinuationIndent (skipLineFeed rest)
      have feed := length_skipLineFeed rest
      simp only [List.length_cons]
      omega

/-- The text of a string literal without its quotes; an escape that is unknown has
been reported by the lexer. -/
def decodeStringLiteral (raw : String) : Option String :=
  let chars := raw.toList
  let inner :=
    match chars with
    | '"' :: rest => if rest.getLast? = some '"' then rest.dropLast else rest
    | _ => chars
  (decodeChars inner).map String.ofList

end Parsing

end KiraVm
