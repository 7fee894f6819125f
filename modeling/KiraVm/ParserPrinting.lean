import KiraVm.ParserTypes

/-!
# Expressions as they are written

The trees of names, literals, operators and the conditional, and how each is written
with the parentheses that the documented ladder asks for and no others.  The ladder is
stated here by itself, apart from the binding powers of the parser.
-/

namespace KiraVm

namespace Parsing

open Lexing (TokenKind)

/-! ## Operators -/

def UnaryOp.token : UnaryOp → Token
  | .neg => ⟨.minus, "-"⟩
  | .not => ⟨.bang, "!"⟩
  | .bitNot => ⟨.tilde, "~"⟩

def BinaryOp.token : BinaryOp → Token
  | .add => ⟨.plus, "+"⟩
  | .sub => ⟨.minus, "-"⟩
  | .mul => ⟨.star, "*"⟩
  | .div => ⟨.slash, "/"⟩
  | .rem => ⟨.percent, "%"⟩
  | .eq => ⟨.eqEq, "=="⟩
  | .ne => ⟨.bangEq, "!="⟩
  | .lt => ⟨.lt, "<"⟩
  | .le => ⟨.ltEq, "<="⟩
  | .gt => ⟨.gt, ">"⟩
  | .ge => ⟨.gtEq, ">="⟩
  | .and => ⟨.ampAmp, "&&"⟩
  | .or => ⟨.pipePipe, "||"⟩
  | .bitAnd => ⟨.amp, "&"⟩
  | .bitOr => ⟨.pipe, "|"⟩
  | .bitXor => ⟨.caret, "^"⟩
  | .shl => ⟨.ltLt, "<<"⟩
  | .shr => ⟨.gtGt, ">>"⟩

def OwnershipOp.token : OwnershipOp → Token
  | .move => word "move"
  | .copy => word "copy"

/-- The two operators whose right side is a type. -/
inductive TypeOp
  | test
  | cast
  deriving DecidableEq, Repr

def TypeOp.token : TypeOp → Token
  | .test => ⟨.isKeyword, "is"⟩
  | .cast => ⟨.asKeyword, "as"⟩

/-- The documented rung of an operator, from `||` up to `* / %`. -/
def BinaryOp.rung : BinaryOp → Nat
  | .or => 1
  | .and => 2
  | .bitOr => 3
  | .bitXor => 4
  | .bitAnd => 5
  | .eq | .ne => 6
  | .lt | .le | .gt | .ge => 7
  | .shl | .shr => 9
  | .add | .sub => 10
  | .mul | .div | .rem => 11

/-- The rung of `is` and `as`, between the orderings and the shifts. -/
def typeRung : Nat := 8

/-- The rung of everything that binds tighter than every binary operator. -/
def prefixRung : Nat := 12

/-! ## Trees -/

def readLiteral {F : Type} (floats : FloatReading F) (token : Token) : Option (Expr F) :=
  match token.kind with
  | .intLiteral => (readInt token.text).map .int
  | .floatLiteral => ((floats.parse token.text).filter floats.isFinite).map .float
  | .stringLiteral => (decodeStringLiteral token.text).map .str
  | .trueKeyword => some (.bool true)
  | .falseKeyword => some (.bool false)
  | .infinityKeyword => some (.float floats.infinity)
  | _ => none

/-- A literal as it is written. -/
structure Literal {F : Type} (floats : FloatReading F) where
  token : Token
  value : Expr F
  reads : readLiteral floats token = some value

inductive Tree {F : Type} (floats : FloatReading F)
  | name (text : String)
  | literal (written : Literal floats)
  | unary (op : UnaryOp) (operand : Tree floats)
  | tried (value : Tree floats)
  | ownership (op : OwnershipOp) (operand : Tree floats)
  | binary (op : BinaryOp) (lhs rhs : Tree floats)
  | typed (op : TypeOp) (value : Tree floats) (ty : TypeRef)
  | conditional (cond thenBranch otherwise : Tree floats)

namespace Tree

variable {F : Type} {floats : FloatReading F}

/-- The tree as the parser builds it. -/
def expr : Tree floats → Expr F
  | name text => .name text
  | literal written => written.value
  | unary op operand => .unary op operand.expr
  | tried value => .tried value.expr
  | ownership op operand => .ownership op operand.expr
  | binary op lhs rhs => .binary op lhs.expr rhs.expr
  | typed .test value ty => .typeTest value.expr ty
  | typed .cast value ty => .typeCast value.expr ty
  | conditional cond thenBranch otherwise =>
    .conditional cond.expr thenBranch.expr otherwise.expr

def TypesWritten : Tree floats → Prop
  | name _ | literal _ => True
  | unary _ operand | tried operand | ownership _ operand => operand.TypesWritten
  | binary _ lhs rhs => lhs.TypesWritten ∧ rhs.TypesWritten
  | typed _ value ty => value.TypesWritten ∧ ty.Written
  | conditional cond thenBranch otherwise =>
    cond.TypesWritten ∧ thenBranch.TypesWritten ∧ otherwise.TypesWritten

/-! ## Parentheses -/

def rung : Tree floats → Nat
  | conditional .. => 0
  | binary op _ _ => op.rung
  | typed .. => typeRung
  | _ => prefixRung

/-- Whether an operand of a prefix operator needs parentheses. -/
def operandApart (operand : Tree floats) : Bool :=
  decide (operand.rung < prefixRung)

def lhsApart (op : BinaryOp) (lhs : Tree floats) : Bool :=
  decide (lhs.rung < op.rung)

/-- The right operand of a left-associative operator is on a higher rung. -/
def rhsApart (op : BinaryOp) (rhs : Tree floats) : Bool :=
  decide (rhs.rung ≤ op.rung)

/-- Whether the tree is written with a `try` last that would take an `is` or `as` after
it. -/
def endsInTry : Tree floats → Bool
  | tried _ => true
  | unary _ operand | ownership _ operand => !operand.operandApart && operand.endsInTry
  | binary op _ rhs => !rhsApart op rhs && rhs.endsInTry
  | _ => false

/-- Whether the value of `is` or `as` needs parentheses. -/
def valueApart (value : Tree floats) : Bool :=
  decide (value.rung < typeRung) || value.endsInTry

/-- Whether the operand of a `try` needs parentheses: it is a unary expression together
with any `is` and `as` on it. -/
def triedApart : Tree floats → Bool
  | typed _ value _ => !value.valueApart && value.triedApart
  | binary .. | conditional .. => true
  | _ => false

def condApart (cond : Tree floats) : Bool :=
  decide (cond.rung = 0)

def opening (apart : Bool) : List Token :=
  if apart then [⟨.lParen, "("⟩] else []

def closing (apart : Bool) : List Token :=
  if apart then [⟨.rParen, ")"⟩] else []

def enclosed (apart : Bool) (tokens : List Token) : List Token :=
  opening apart ++ (tokens ++ closing apart)

def print : Tree floats → List Token
  | name text => [word text]
  | literal written => [written.token]
  | unary op operand => op.token :: enclosed operand.operandApart operand.print
  | tried value => ⟨.tryKeyword, "try"⟩ :: enclosed value.triedApart value.print
  | ownership op operand => op.token :: enclosed operand.operandApart operand.print
  | binary op lhs rhs =>
    enclosed (lhsApart op lhs) lhs.print ++
      op.token :: enclosed (rhsApart op rhs) rhs.print
  | typed op value ty => enclosed value.valueApart value.print ++ op.token :: ty.tokens
  | conditional cond thenBranch otherwise =>
    enclosed cond.condApart cond.print ++
      ⟨.question, "?"⟩ :: (thenBranch.print ++ ⟨.colon, ":"⟩ :: otherwise.print)

/-! ## Nesting -/

/-- The levels of nesting that an operand takes. -/
def within (apart : Bool) (need : Nat) : Nat :=
  if apart then need + 1 else need

/-- The levels of nesting that the tree takes inside its expression. -/
def need : Tree floats → Nat
  | name _ | literal _ => 0
  | unary _ operand | ownership _ operand => within operand.operandApart operand.need + 1
  | tried value => within value.triedApart value.need + 1
  | binary op lhs rhs =>
    max (within (lhsApart op lhs) lhs.need) (within (rhsApart op rhs) rhs.need)
  | typed _ value ty => max (within value.valueApart value.need) ty.need
  | conditional cond thenBranch otherwise =>
    max (within cond.condApart cond.need) (max thenBranch.need otherwise.need + 1)

/-! ## Where the lookahead mistakes nothing -/

/-- How tight the token that comes first binds what stands before it. -/
def binding (tokens : List Token) : Nat :=
  match firstKind tokens with
  | .isKeyword | .asKeyword => typeOperatorBp
  | kind => (binaryOp kind).elim 0 Prod.snd

/-- Whether an ownership operator is taken for one before the operand. -/
def startsOperand : Tree floats → Bool
  | name _ | literal _ | unary .. | ownership .. => true
  | _ => false

/-- Whether the parser's lookahead takes nothing in the tree, which `after` follows, for
something else:

* a name before what could be an operand is neither `move` nor `copy`;
* a name is not followed by what could be the type arguments of a call;
* an ownership operator stands before an operand without parentheses, no `try`;
* a `try` is not followed by an operator that binds tighter than `is` and `as`;
* a type that ends in a bare name is not followed by `<`. -/
def Readable : Tree floats → List Token → Prop
  | name text, after =>
    ((text = "move" ∨ text = "copy") → State.startsOperand (firstKind after) = false) ∧
      (firstKind after = .lt →
        text ≠ "nativeRecover" ∧ State.typeArgsClose 0 after = false)
  | literal _, _ => True
  | unary _ operand, after => operand.Readable (closing operand.operandApart ++ after)
  | tried value, after =>
    binding after ≤ typeRung ∧ value.Readable (closing value.triedApart ++ after)
  | ownership _ operand, after =>
    operand.startsOperand = true ∧ operand.Readable (closing operand.operandApart ++ after)
  | binary op lhs rhs, after =>
    lhs.Readable (closing (lhsApart op lhs) ++
      op.token :: (enclosed (rhsApart op rhs) rhs.print ++ after)) ∧
    rhs.Readable (closing (rhsApart op rhs) ++ after)
  | typed op value ty, after =>
    value.Readable (closing value.valueApart ++ op.token :: (ty.tokens ++ after)) ∧
      (ty.endsInName = true → firstKind after ≠ .lt)
  | conditional cond thenBranch otherwise, after =>
    cond.Readable (closing cond.condApart ++
      ⟨.question, "?"⟩ :: (thenBranch.print ++ ⟨.colon, ":"⟩ :: (otherwise.print ++ after))) ∧
    thenBranch.Readable (⟨.colon, ":"⟩ :: (otherwise.print ++ after)) ∧
    otherwise.Readable after

instance decidableReadable :
    ∀ (tree : Tree floats) (after : List Token), Decidable (tree.Readable after)
  | name text, after =>
    inferInstanceAs (Decidable
      (((text = "move" ∨ text = "copy") → State.startsOperand (firstKind after) = false) ∧
        (firstKind after = .lt →
          text ≠ "nativeRecover" ∧ State.typeArgsClose 0 after = false)))
  | literal _, _ => .isTrue trivial
  | unary _ operand, after => decidableReadable operand (closing operand.operandApart ++ after)
  | tried value, after =>
    have := decidableReadable value (closing value.triedApart ++ after)
    inferInstanceAs (Decidable (binding after ≤ typeRung ∧ _))
  | ownership _ operand, after =>
    have := decidableReadable operand (closing operand.operandApart ++ after)
    inferInstanceAs (Decidable (operand.startsOperand = true ∧ _))
  | binary op lhs rhs, after =>
    have := decidableReadable lhs (closing (lhsApart op lhs) ++
      op.token :: (enclosed (rhsApart op rhs) rhs.print ++ after))
    have := decidableReadable rhs (closing (rhsApart op rhs) ++ after)
    inferInstanceAs (Decidable (_ ∧ _))
  | typed op value ty, after =>
    have := decidableReadable value (closing value.valueApart ++ op.token :: (ty.tokens ++ after))
    inferInstanceAs (Decidable (_ ∧ (ty.endsInName = true → firstKind after ≠ .lt)))
  | conditional cond thenBranch otherwise, after =>
    have := decidableReadable cond (closing cond.condApart ++
      ⟨.question, "?"⟩ :: (thenBranch.print ++ ⟨.colon, ":"⟩ :: (otherwise.print ++ after)))
    have := decidableReadable thenBranch (⟨.colon, ":"⟩ :: (otherwise.print ++ after))
    have := decidableReadable otherwise after
    inferInstanceAs (Decidable (_ ∧ _ ∧ _))

/-- The tree comes back from `parse_expr` as it was, with no diagnostic and no token
left. -/
def RoundTrips (tree : Tree floats) : Prop :=
  StepLimits.Settles (descent floats)
    (fun deeper => parseExpr deeper ⟨tree.print, 0, []⟩) (tree.expr, ⟨[], 0, []⟩)

end Tree

end Parsing

end KiraVm
