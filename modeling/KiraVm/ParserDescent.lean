import KiraVm.ParserModel

/-!
# The functions of the parser

Each function takes the state and the functions that it calls with the rest of its
steps, and a loop goes round by one such call.  `descent` closes the knot: with no step
left nothing is answered.
-/

namespace KiraVm

namespace Parsing

open Lexing (TokenKind)

abbrev CallArg (F : Type) := Option String × Expr F

/-- The functions and loops that the parser calls recursively. -/
structure Descent (F : Type) where
  typeRef : State → Option (TypeRef × State)
  typeArgs : List TypeRef → State → Option (List TypeRef × State)
  functionTypeParams :
    List TypeRef → List OwnershipMode → State →
      Option ((List TypeRef × List OwnershipMode × Bool) × State)
  expr : State → Option (Expr F × State)
  binary : Nat → State → Option (Expr F × State)
  binaryLoop : Nat → Expr F → State → Option (Expr F × State)
  unary : State → Option (Expr F × State)
  postfixLoop : Expr F → State → Option (Expr F × State)
  callArgs : List (CallArg F) → State → Option (List (CallArg F) × State)
  parenElements : List (Expr F) → State → Option (List (Expr F) × State)
  arrayElements : List (Expr F) → State → Option (List (Expr F) × State)

variable {F : Type}

/-! ## Written types -/

def parseOwnershipPrefix (state : State) : OwnershipMode × State :=
  if state.atWord "borrow" && state.peekIsWord 1 "mut" && state.peekStartsType 2 then
    (.borrowMut, state.bump.bump)
  else if state.atWord "borrow" && state.peekStartsType 1 then (.borrowRead, state.bump)
  else if state.atWord "move" && state.peekStartsType 1 then (.move, state.bump)
  else if state.atWord "copy" && state.peekStartsType 1 then (.copy, state.bump)
  else (.owned, state)

def qualifiedTail : List Token → List String × List Token
  | dot :: segment :: rest =>
    if dot.kind = .dot ∧ segment.kind = .identifier then
      let tail := qualifiedTail rest
      (segment.text :: tail.1, tail.2)
    else ([], dot :: segment :: rest)
  | rest => ([], rest)

def parseQualifiedName (state : State) : List String × State :=
  let tail := qualifiedTail state.bump.rest
  (state.current.text :: tail.1, { state with rest := tail.2 })

def parseTypeArgsLoop (deeper : Descent F) (args : List TypeRef) (state : State) :
    Option (List TypeRef × State) :=
  if state.atGenericClose || state.currentKind == .eof then some (args, state)
  else do
    let (arg, after) ← deeper.typeRef state
    deeper.typeArgs (args ++ [arg]) ((after.eat .comma).2.forceProgress state)

def parseGenericArgs (deeper : Descent F) (name : List String) (state : State) :
    Option (TypeRef × State) := do
  let (args, after) ← deeper.typeArgs [] state.bump
  let (closed, after) := after.eatGenericClose
  if ¬ closed then
    some (.error, after.error "KPAR045" "expected `>` to close a type argument list")
  else if args.isEmpty then
    some (.error, after.error "KPAR046" "a type argument list names at least one type")
  else some (.generic name args, after)

def parseCallTypeArgs (deeper : Descent F) (state : State) : Option (List TypeRef × State) := do
  let (args, after) ← deeper.typeArgs [] state.bump
  let (closed, after) := after.eatGenericClose
  let after :=
    if closed then after
    else after.error "KPAR045" "expected `>` to close a type argument list"
  let after :=
    if args.isEmpty then
      after.error "KPAR046" "a type argument list names at least one type"
    else after
  some (args, after)

/-- One round of the loop over the types in parentheses.  The last answer is whether a
comma was seen. -/
def parseFunctionTypeParamsLoop (deeper : Descent F) (params : List TypeRef)
    (modes : List OwnershipMode) (state : State) :
    Option ((List TypeRef × List OwnershipMode × Bool) × State) :=
  if state.currentKind = .rParen ∨ state.currentKind = .eof then
    some ((params, modes, false), state)
  else do
    let (mode, inner) := parseOwnershipPrefix state
    let (param, after) ← deeper.typeRef inner
    let (comma, after) := after.eat .comma
    if ¬ comma then some ((params ++ [param], modes ++ [mode], false), after)
    else do
      let ((params, modes, _), after) ←
        deeper.functionTypeParams (params ++ [param]) (modes ++ [mode])
          (after.forceProgress state)
      some ((params, modes, true), after)

/-- What the closed parenthesis makes of the types in it. -/
def parseFunctionTypeEnd (deeper : Descent F) (params : List TypeRef)
    (modes : List OwnershipMode) (sawComma : Bool) (state : State) :
    Option (TypeRef × State) :=
  let (arrow, after) := state.eat .arrow
  if arrow then do
    let (result, after) ← deeper.typeRef after
    some (.function params modes result, after)
  else
    match params, sawComma with
    | [param], false => some (param, after)
    | _, _ =>
      let after :=
        if params.length < 2 ∨ 4 < params.length then
          after.error "KPAR091"
            "tuple values and tuple types support two through four elements"
        else after
      let after :=
        if modes.any (· ≠ .owned) then
          after.error "KPAR038"
            "ownership prefixes in parentheses require a function type with `->`"
        else after
      some (.tuple params, after)

def parseFunctionType (deeper : Descent F) (state : State) : Option (TypeRef × State) := do
  let ((params, modes, sawComma), after) ← deeper.functionTypeParams [] [] state.bump
  parseFunctionTypeEnd deeper params modes sawComma (after.expect .rParen)

def parseTypeRefInner (deeper : Descent F) (state : State) : Option (TypeRef × State) :=
  match state.currentKind with
  | .lParen => parseFunctionType deeper state
  | .lBracket => do
    let (element, after) ← deeper.typeRef state.bump
    some (.array element, after.expect .rBracket)
  | .identifier =>
    if state.atSomeConstruct || state.atAnyConstruct then
      let (family, after) := parseQualifiedName state.bump
      some (.someConstruct family, after)
    else
      let (name, after) := parseQualifiedName state
      if after.currentKind = .lt then parseGenericArgs deeper name after
      else some (.named name, after)
  | _ => some (.error, state.error "KPAR006" "expected a type name")

/-- A written type that a delimiter must follow.  A refused level is not left again, as
in the source. -/
def parseTypeRef (deeper : Descent F) (state : State) : Option (TypeRef × State) :=
  let (allowed, inner) := state.enterNesting
  if allowed then do
    let (ty, after) ← parseTypeRefInner deeper inner
    some (ty, after.exitNesting)
  else some (.error, inner.recoverRefusedNesting)

/-! ## Operators -/

/-- The binding power of `is` and `as`. -/
def typeOperatorBp : Nat := 8

/-- The operator and left binding power of a token. -/
def binaryOp : TokenKind → Option (BinaryOp × Nat)
  | .pipePipe => some (.or, 1)
  | .ampAmp => some (.and, 2)
  | .pipe => some (.bitOr, 3)
  | .caret => some (.bitXor, 4)
  | .amp => some (.bitAnd, 5)
  | .eqEq => some (.eq, 6)
  | .bangEq => some (.ne, 6)
  | .lt => some (.lt, 7)
  | .ltEq => some (.le, 7)
  | .gt => some (.gt, 7)
  | .gtEq => some (.ge, 7)
  | .ltLt => some (.shl, 9)
  | .gtGt => some (.shr, 9)
  | .plus => some (.add, 10)
  | .minus => some (.sub, 10)
  | .star => some (.mul, 11)
  | .slash => some (.div, 11)
  | .percent => some (.rem, 11)
  | _ => none

/-- One level deeper for one of the functions that take a level. -/
def nested (parse : State → Option (Expr F × State)) (state : State) :
    Option (Expr F × State) :=
  let (allowed, inner) := state.enterNesting
  if allowed then do
    let (expr, after) ← parse inner
    some (expr, after.exitNesting)
  else some (.error, inner.recoverRefusedNesting.exitNesting)

def parseExprDescend (deeper : Descent F) (state : State) : Option (Expr F × State) := do
  let (cond, after) ← deeper.binary 0 state
  if after.currentKind ≠ .question then some (cond, after)
  else do
    let (thenBranch, after) ← deeper.expr after.bump
    let (otherwise, after) ← deeper.expr (after.expect .colon)
    some (.conditional cond thenBranch otherwise, after)

def parseExpr (deeper : Descent F) (state : State) : Option (Expr F × State) :=
  nested (parseExprDescend deeper) state

/-- One round of the loop that takes the operators binding tighter than `minBp`. -/
def parseBinaryLoop (deeper : Descent F) (minBp : Nat) (lhs : Expr F) (state : State) :
    Option (Expr F × State) :=
  if (state.currentKind = .isKeyword ∨ state.currentKind = .asKeyword) ∧ minBp < typeOperatorBp
  then do
    let (ty, after) ← deeper.typeRef state.bump
    let made := if state.currentKind = .isKeyword then .typeTest lhs ty else .typeCast lhs ty
    deeper.binaryLoop minBp made after
  else
    match binaryOp state.currentKind with
    | none => some (lhs, state)
    | some (op, bp) =>
      if bp ≤ minBp then some (lhs, state)
      else do
        let (rhs, after) ← deeper.binary bp state.bump
        deeper.binaryLoop minBp (.binary op lhs rhs) after

def parseBinary (deeper : Descent F) (minBp : Nat) (state : State) : Option (Expr F × State) := do
  let (lhs, after) ← deeper.unary state
  deeper.binaryLoop minBp lhs after

def parseTryOperand (deeper : Descent F) (state : State) : Option (Expr F × State) :=
  nested (deeper.binary (typeOperatorBp - 1)) state

def parseUnaryNested (deeper : Descent F) (state : State) : Option (Expr F × State) :=
  nested deeper.unary state

/-! ## Calls and primaries -/

/-- A call argument, with the label that a binder marks. -/
def parseCallArg (deeper : Descent F) (state : State) : Option (CallArg F × State) :=
  if state.currentKind = .identifier ∧
      ((state.peek 1).kind = .colon ∨ (state.peek 1).kind = .equals) then do
    let (value, after) ← deeper.expr state.bump.bump
    some ((some state.current.text, value), after)
  else do
    let (value, after) ← deeper.expr state
    some ((none, value), after)

def parseCallArgsLoop (deeper : Descent F) (args : List (CallArg F)) (state : State) :
    Option (List (CallArg F) × State) :=
  if state.currentKind = .rParen ∨ state.currentKind = .eof then some (args, state)
  else do
    let (arg, after) ← parseCallArg deeper state
    let (comma, after) := after.eat .comma
    if ¬ comma then some (args ++ [arg], after)
    else deeper.callArgs (args ++ [arg]) (after.forceProgress state)

def parseCallArgs (deeper : Descent F) (state : State) : Option (List (CallArg F) × State) := do
  let (args, after) ← deeper.callArgs [] state.bump
  some (args, after.expect .rParen)

def parseNameOrCall (deeper : Descent F) (state : State) : Option (Expr F × State) := do
  let name := state.current.text
  let after := state.bump
  let (typeArgs, after) ←
    if (name = "nativeRecover" ∧ after.currentKind = .lt) ∨ after.atExplicitCallTypeArgs then
      parseCallTypeArgs deeper after
    else some ([], after)
  match after.currentKind with
  | .lParen => do
    let (args, after) ← parseCallArgs deeper after
    some (.call name typeArgs args, after)
  | .lBrace => none
  | _ => some (.name name, after)

def parseParenElementsLoop (deeper : Descent F) (elements : List (Expr F)) (state : State) :
    Option (List (Expr F) × State) :=
  if state.currentKind = .rParen ∨ state.currentKind = .eof then some (elements, state)
  else do
    let (element, after) ← deeper.expr state
    let elements := elements ++ [element]
    let after :=
      if 4 < elements.length then
        after.error "KPAR091" "tuple values support two through four elements"
      else after
    let (comma, after) := after.eat .comma
    if ¬ comma then some (elements, after) else deeper.parenElements elements after

def parseParen (deeper : Descent F) (state : State) : Option (Expr F × State) := do
  let (first, after) ← deeper.expr state.bump
  let (comma, after) := after.eat .comma
  if ¬ comma then some (first, after.expect .rParen)
  else do
    let (elements, after) ← deeper.parenElements [first] after
    some (.tuple elements, after.expect .rParen)

/-- `eat_separator`: a comma, or refused tokens that stand for one. -/
def eatSeparator (state : State) : Bool × State :=
  if state.currentKind = .comma then (true, state.bump)
  else if state.currentKind = .unknown then (true, state.skipUnknown)
  else (false, state)

def parseArrayElementsLoop (deeper : Descent F) (elements : List (Expr F)) (state : State) :
    Option (List (Expr F) × State) :=
  if state.atArrayEnd then some (elements, state)
  else
    let inner := state.skipUnknown
    if inner.atArrayEnd then some (elements, inner)
    else do
      let (element, after) ← deeper.expr inner
      let (separated, after) := eatSeparator after
      let after :=
        if ¬ separated ∧ ¬ after.atArrayEnd then
          after.error "KPAR002"
            "expected `,` between array elements; newlines do not separate them"
        else after
      deeper.arrayElements (elements ++ [element]) (after.forceProgress state)

def parseArrayLiteral (deeper : Descent F) (state : State) : Option (Expr F × State) := do
  let (elements, after) ← deeper.arrayElements [] state.bump
  some (.arrayLit elements, after.expect .rBracket)

def parseDotMember (deeper : Descent F) (state : State) : Option (Expr F × State) :=
  let name := state.bump.current.text
  let after := state.bump.bump
  if after.currentKind = .lParen then do
    let (args, after) ← parseCallArgs deeper after
    some (.dotMember name (some (args.map Prod.snd)), after)
  else some (.dotMember name none, after)

def parseInt (state : State) : Expr F × State :=
  match readInt state.current.text with
  | some value => (.int value, state.bump)
  | none =>
    (.int 0, state.bump.error "KPAR021" "integer literal does not fit in a 64-bit integer")

def parseFloat (floats : FloatReading F) (state : State) : Expr F × State :=
  match (floats.parse state.current.text).filter floats.isFinite with
  | some value => (.float value, state.bump)
  | none => (.float floats.zero, state.bump.error "KPAR070" "float literal is out of range")

def parseStringLiteral (state : State) : Expr F × State :=
  match decodeStringLiteral state.current.text with
  | some value => (.str value, state.bump)
  | none => (.error, state.bump)

def parsePrimary (floats : FloatReading F) (deeper : Descent F) (state : State) :
    Option (Expr F × State) :=
  match state.currentKind with
  | .intLiteral => some (parseInt state)
  | .floatLiteral => some (parseFloat floats state)
  | .stringLiteral => some (parseStringLiteral state)
  | .trueKeyword => some (.bool true, state.bump)
  | .falseKeyword => some (.bool false, state.bump)
  | .infinityKeyword => some (.float floats.infinity, state.bump)
  | .identifier => parseNameOrCall deeper state
  | .lParen => parseParen deeper state
  | .lBracket => parseArrayLiteral deeper state
  | .matchKeyword | .lBrace => none
  | kind =>
    if kind = .dot ∧ (state.peek 1).kind = .identifier then parseDotMember deeper state
    else
      some (.error,
        (state.error "KPAR020" ("expected an expression, found " ++ describe kind)).bump)

/-- One `.field` or `.method(...)` step; the second answer is whether the chain goes on. -/
def parseDotPostfix (deeper : Descent F) (base : Expr F) (state : State) :
    Option ((Expr F × Bool) × State) :=
  let inner := state.bump
  match inner.currentKind with
  | .identifier | .typeKeyword | .intLiteral | .floatLiteral =>
    let field := inner.current.text
    let after := inner.bump
    match after.currentKind with
    | .lParen => do
      let (args, after) ← parseCallArgs deeper after
      some ((.methodCall base field args, true), after)
    | .lBrace => none
    | _ => some ((.field base field, true), after)
  | _ => some ((.error, false), inner.error "KPAR022" "expected a field name after `.`")

/-- One round of the loop over what follows a primary. -/
def parsePostfixLoop (deeper : Descent F) (base : Expr F) (state : State) :
    Option (Expr F × State) :=
  match state.currentKind with
  | .dot => do
    let ((next, goesOn), after) ← parseDotPostfix deeper base state
    if goesOn then deeper.postfixLoop next after else some (next, after)
  | .lBracket => do
    let (index, after) ← deeper.expr state.bump
    deeper.postfixLoop (.index base index) (after.expect .rBracket)
  | .lBrace => none
  | _ => some (base, state)

def unaryOp : TokenKind → Option UnaryOp
  | .minus => some .neg
  | .bang => some .not
  | .tilde => some .bitNot
  | _ => none

def parseUnary (floats : FloatReading F) (deeper : Descent F) (state : State) :
    Option (Expr F × State) :=
  if state.currentKind = .tryKeyword then do
    let (value, after) ← parseTryOperand deeper state.bump
    some (.tried value, after)
  else
    match state.ownershipOpHere with
    | some op => do
      let (operand, after) ← parseUnaryNested deeper state.bump
      some (.ownership op operand, after)
    | none =>
      match unaryOp state.currentKind with
      | some op => do
        let (operand, after) ← parseUnaryNested deeper state.bump
        some (.unary op operand, after)
      | none => do
        let (primary, after) ← parsePrimary floats deeper state
        deeper.postfixLoop primary after

/-! ## The whole parser -/

/-- The parser's functions with so many steps to go down. -/
def descent (floats : FloatReading F) : Nat → Descent F
  | 0 =>
    { typeRef := fun _ => none
      typeArgs := fun _ _ => none
      functionTypeParams := fun _ _ _ => none
      expr := fun _ => none
      binary := fun _ _ => none
      binaryLoop := fun _ _ _ => none
      unary := fun _ => none
      postfixLoop := fun _ _ => none
      callArgs := fun _ _ => none
      parenElements := fun _ _ => none
      arrayElements := fun _ _ => none }
  | steps + 1 =>
    let deeper := descent floats steps
    { typeRef := parseTypeRef deeper
      typeArgs := parseTypeArgsLoop deeper
      functionTypeParams := parseFunctionTypeParamsLoop deeper
      expr := parseExpr deeper
      binary := parseBinary deeper
      binaryLoop := parseBinaryLoop deeper
      unary := parseUnary floats deeper
      postfixLoop := parsePostfixLoop deeper
      callArgs := parseCallArgsLoop deeper
      parenElements := parseParenElementsLoop deeper
      arrayElements := parseArrayElementsLoop deeper }

end Parsing

end KiraVm
