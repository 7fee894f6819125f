import KiraVm.ParserPrinting

/-!
# The ladder is what the parser climbs

Each function of the parser is followed along the tokens of a written tree.  A tree on a
rung above the least binding power is taken whole before the loop goes on, which is what
precedence climbing amounts to.
-/

namespace KiraVm

namespace Parsing

open Lexing (TokenKind)
open StepLimits (Settles)

/-- Whether a token of the kind can stand after a written tree. -/
def followsTree : TokenKind → Bool
  | .isKeyword | .asKeyword | .question | .colon | .rParen | .eof => true
  | kind => (binaryOp kind).isSome

theorem followsTree_plain {kind : TokenKind} (follows : followsTree kind = true) :
    continuesType kind = false ∧ kind ≠ .dot ∧ kind ≠ .lBracket ∧ kind ≠ .lBrace ∧
      kind ≠ .lParen ∧ kind ≠ .comma := by
  revert follows
  cases kind <;> decide

@[simp]
theorem binaryOp_token (op : BinaryOp) : binaryOp op.token.kind = some (op, op.rung) := by
  cases op <;> rfl

theorem binary_follows (op : BinaryOp) (tokens : List Token) :
    followsTree (firstKind (op.token :: tokens)) = true := by
  cases op <;> rfl

theorem binary_binding (op : BinaryOp) (tokens : List Token) :
    Tree.binding (op.token :: tokens) = op.rung := by
  cases op <;> rfl

theorem typed_binding (op : TypeOp) (tokens : List Token) :
    Tree.binding (op.token :: tokens) = typeRung := by
  cases op <;> rfl

theorem typed_follows (op : TypeOp) (tokens : List Token) :
    followsTree (firstKind (op.token :: tokens)) = true := by
  cases op <;> rfl

theorem rung_pos (op : BinaryOp) : 0 < op.rung ∧ op.rung < prefixRung := by
  cases op <;> decide

section Climbing

variable {F : Type} {floats : FloatReading F} {after tokens : List Token} {depth : Nat}
  {reports : List Diagnostic}

/-! ## One function at a time -/

theorem settles_nested {parse : Descent F → State → Option (Expr F × State)} {expr : Expr F}
    (allowed : depth < maxNestingDepth)
    (inner : Settles (descent floats) (fun deeper => parse deeper ⟨tokens, depth + 1, reports⟩)
      (expr, ⟨after, depth + 1, reports⟩)) :
    Settles (descent floats) (fun deeper => nested (parse deeper) ⟨tokens, depth, reports⟩)
      (expr, ⟨after, depth, reports⟩) := by
  filter_upwards [inner] with steps inner
  simp only [nested, State.enterNesting, if_neg allowed.ne, allowed, decide_true, if_true]
  rw [inner]
  rfl

theorem settles_postfixLoop (base : Expr F) (follows : followsTree (firstKind after) = true) :
    Settles (descent floats) (fun deeper => deeper.postfixLoop base ⟨after, depth, reports⟩)
      (base, ⟨after, depth, reports⟩) := by
  have stops : Settles (descent floats)
      (fun deeper => parsePostfixLoop deeper base ⟨after, depth, reports⟩)
      (base, ⟨after, depth, reports⟩) := by
    apply Settles.of_forall
    intro deeper
    rcases followsTree_plain follows with ⟨-, noDot, noBracket, noBrace, -⟩
    rw [parsePostfixLoop, State.currentKind_mk]
    revert noDot noBracket noBrace
    generalize firstKind after = kind
    intro noDot noBracket noBrace
    split
    · exact absurd rfl noDot
    · exact absurd rfl noBracket
    · exact absurd rfl noBrace
    · rfl
  exact stops.next fun _ => rfl

variable {least : Nat} {lhs : Expr F} {left : State} {answer : Expr F × State}

theorem settles_binaryLoop_stop (lhs : Expr F) (loose : Tree.binding after ≤ least) :
    Settles (descent floats)
      (fun deeper => deeper.binaryLoop least lhs ⟨after, depth, reports⟩)
      (lhs, ⟨after, depth, reports⟩) := by
  have stops : Settles (descent floats)
      (fun deeper => parseBinaryLoop deeper least lhs ⟨after, depth, reports⟩)
      (lhs, ⟨after, depth, reports⟩) := by
    apply Settles.of_forall
    intro deeper
    rw [parseBinaryLoop, State.currentKind_mk]
    rw [Tree.binding] at loose
    revert loose
    generalize firstKind after = kind
    intro loose
    split at loose
    · rw [if_neg fun both => absurd both.2 loose.not_gt]
      rfl
    · rw [if_neg fun both => absurd both.2 loose.not_gt]
      rfl
    · next noTest noCast =>
      rw [if_neg fun both => both.1.elim noTest noCast]
      cases known : binaryOp kind with
      | none => rfl
      | some entry =>
        rw [known] at loose
        exact if_pos loose
  exact stops.next fun _ => rfl

theorem settles_binaryLoop_binary {rhs : Expr F} {op : BinaryOp} (tighter : least < op.rung)
    (taken : Settles (descent floats)
      (fun deeper => deeper.binary op.rung ⟨tokens, depth, reports⟩) (rhs, left))
    (goesOn : Settles (descent floats)
      (fun deeper => deeper.binaryLoop least (.binary op lhs rhs) left) answer) :
    Settles (descent floats)
      (fun deeper => deeper.binaryLoop least lhs ⟨op.token :: tokens, depth, reports⟩)
      answer := by
  have round : Settles (descent floats)
      (fun deeper => parseBinaryLoop deeper least lhs ⟨op.token :: tokens, depth, reports⟩)
      answer := by
    filter_upwards [taken, goesOn] with steps taken goesOn
    have noType : ¬ (op.token.kind = .isKeyword ∨ op.token.kind = .asKeyword) := by
      cases op <;> decide
    rw [parseBinaryLoop, State.currentKind_mk, firstKind_cons,
      if_neg fun both => noType both.1, binaryOp_token]
    simp only [if_neg tighter.not_ge, State.bump, List.tail_cons, taken, Option.bind_eq_bind,
      Option.bind_some, goesOn]
  exact round.next fun _ => rfl

def typedExpr : TypeOp → Expr F → TypeRef → Expr F
  | .test, value, ty => .typeTest value ty
  | .cast, value, ty => .typeCast value ty

theorem settles_binaryLoop_typed {op : TypeOp} {ty : TypeRef} (tighter : least < typeRung)
    (taken : Settles (descent floats)
      (fun deeper => deeper.typeRef ⟨tokens, depth, reports⟩) (ty, left))
    (goesOn : Settles (descent floats)
      (fun deeper => deeper.binaryLoop least (typedExpr op lhs ty) left) answer) :
    Settles (descent floats)
      (fun deeper => deeper.binaryLoop least lhs ⟨op.token :: tokens, depth, reports⟩)
      answer := by
  have round : Settles (descent floats)
      (fun deeper => parseBinaryLoop deeper least lhs ⟨op.token :: tokens, depth, reports⟩)
      answer := by
    filter_upwards [taken, goesOn] with steps taken goesOn
    cases op with
    | test =>
      rw [parseBinaryLoop, State.currentKind_mk, if_pos ⟨Or.inl rfl, tighter⟩]
      simp only [State.bump, List.tail_cons, taken, Option.bind_eq_bind, Option.bind_some]
      exact goesOn
    | cast =>
      rw [parseBinaryLoop, State.currentKind_mk, if_pos ⟨Or.inr rfl, tighter⟩]
      simp only [State.bump, List.tail_cons, taken, Option.bind_eq_bind, Option.bind_some]
      exact goesOn
  exact round.next fun _ => rfl

theorem settles_binary
    (taken : Settles (descent floats) (fun deeper => deeper.unary ⟨tokens, depth, reports⟩)
      (lhs, left))
    (goesOn : Settles (descent floats) (fun deeper => deeper.binaryLoop least lhs left) answer) :
    Settles (descent floats) (fun deeper => deeper.binary least ⟨tokens, depth, reports⟩)
      answer := by
  have whole : Settles (descent floats)
      (fun deeper => parseBinary deeper least ⟨tokens, depth, reports⟩) answer := by
    filter_upwards [taken, goesOn] with steps taken goesOn
    rw [parseBinary, taken]
    exact goesOn
  exact whole.next fun _ => rfl

/-- An expression without a conditional. -/
theorem settles_expr_binary {expr : Expr F} (allowed : depth < maxNestingDepth)
    (noQuestion : firstKind after ≠ .question)
    (taken : Settles (descent floats)
      (fun deeper => deeper.binary 0 ⟨tokens, depth + 1, reports⟩)
      (expr, ⟨after, depth + 1, reports⟩)) :
    Settles (descent floats) (fun deeper => deeper.expr ⟨tokens, depth, reports⟩)
      (expr, ⟨after, depth, reports⟩) := by
  have whole : Settles (descent floats)
      (fun deeper => parseExprDescend deeper ⟨tokens, depth + 1, reports⟩)
      (expr, ⟨after, depth + 1, reports⟩) := by
    filter_upwards [taken] with steps taken
    simp only [parseExprDescend, taken, Option.bind_eq_bind, Option.bind_some,
      State.currentKind_mk, ne_eq, noQuestion, not_false_eq_true, if_true]
  exact (settles_nested allowed whole).next fun _ => rfl

theorem settles_expr_conditional {cond thenBranch otherwise : Expr F}
    {thenTokens elseTokens : List Token} (allowed : depth < maxNestingDepth)
    (condTaken : Settles (descent floats)
      (fun deeper => deeper.binary 0 ⟨tokens, depth + 1, reports⟩)
      (cond, ⟨⟨.question, "?"⟩ :: thenTokens, depth + 1, reports⟩))
    (thenTaken : Settles (descent floats)
      (fun deeper => deeper.expr ⟨thenTokens, depth + 1, reports⟩)
      (thenBranch, ⟨⟨.colon, ":"⟩ :: elseTokens, depth + 1, reports⟩))
    (elseTaken : Settles (descent floats)
      (fun deeper => deeper.expr ⟨elseTokens, depth + 1, reports⟩)
      (otherwise, ⟨after, depth + 1, reports⟩)) :
    Settles (descent floats) (fun deeper => deeper.expr ⟨tokens, depth, reports⟩)
      (.conditional cond thenBranch otherwise, ⟨after, depth, reports⟩) := by
  have whole : Settles (descent floats)
      (fun deeper => parseExprDescend deeper ⟨tokens, depth + 1, reports⟩)
      (.conditional cond thenBranch otherwise, ⟨after, depth + 1, reports⟩) := by
    filter_upwards [condTaken, thenTaken, elseTaken] with steps condTaken thenTaken elseTaken
    have question : ¬ State.currentKind
        ⟨⟨.question, "?"⟩ :: thenTokens, depth + 1, reports⟩ ≠ .question := fun other => other rfl
    have colon : State.expect ⟨⟨.colon, ":"⟩ :: elseTokens, depth + 1, reports⟩ .colon =
        ⟨elseTokens, depth + 1, reports⟩ := rfl
    simp only [parseExprDescend, condTaken, Option.bind_eq_bind, Option.bind_some, question,
      if_false, State.bump, List.tail_cons, thenTaken, colon, elseTaken]
  exact (settles_nested allowed whole).next fun _ => rfl

/-! ## Prefixes and primaries -/

theorem settles_unary_tried {value : Expr F} (allowed : depth < maxNestingDepth)
    (taken : Settles (descent floats)
      (fun deeper => deeper.binary (typeOperatorBp - 1) ⟨tokens, depth + 1, reports⟩)
      (value, ⟨after, depth + 1, reports⟩)) :
    Settles (descent floats)
      (fun deeper => deeper.unary ⟨⟨.tryKeyword, "try"⟩ :: tokens, depth, reports⟩)
      (.tried value, ⟨after, depth, reports⟩) := by
  have operand := settles_nested allowed taken
  have whole : Settles (descent floats)
      (fun deeper => parseUnary floats deeper ⟨⟨.tryKeyword, "try"⟩ :: tokens, depth, reports⟩)
      (.tried value, ⟨after, depth, reports⟩) := by
    filter_upwards [operand] with steps operand
    rw [parseUnary, State.currentKind_mk, firstKind_cons, if_pos rfl]
    simp only [parseTryOperand, State.bump, List.tail_cons, operand, Option.bind_eq_bind,
      Option.bind_some]
  exact whole.next fun _ => rfl

theorem settles_unary_prefix {op : UnaryOp} {operand : Expr F} (allowed : depth < maxNestingDepth)
    (taken : Settles (descent floats) (fun deeper => deeper.unary ⟨tokens, depth + 1, reports⟩)
      (operand, ⟨after, depth + 1, reports⟩)) :
    Settles (descent floats) (fun deeper => deeper.unary ⟨op.token :: tokens, depth, reports⟩)
      (.unary op operand, ⟨after, depth, reports⟩) := by
  have inner := @settles_nested F floats after tokens depth reports Descent.unary operand allowed
    taken
  have whole : Settles (descent floats)
      (fun deeper => parseUnary floats deeper ⟨op.token :: tokens, depth, reports⟩)
      (.unary op operand, ⟨after, depth, reports⟩) := by
    filter_upwards [inner] with steps inner
    have noTry : op.token.kind ≠ .tryKeyword := by cases op <;> decide
    have noWord : State.ownershipOpHere ⟨op.token :: tokens, depth, reports⟩ = none := by
      cases op <;> rfl
    have known : unaryOp op.token.kind = some op := by cases op <;> rfl
    rw [parseUnary, State.currentKind_mk, firstKind_cons, if_neg noTry, noWord]
    simp only [known, parseUnaryNested, State.bump, List.tail_cons, inner, Option.bind_eq_bind,
      Option.bind_some]
  exact whole.next fun _ => rfl

theorem settles_unary_ownership {op : OwnershipOp} {operand : Expr F}
    (allowed : depth < maxNestingDepth) (starts : State.startsOperand (firstKind tokens) = true)
    (taken : Settles (descent floats) (fun deeper => deeper.unary ⟨tokens, depth + 1, reports⟩)
      (operand, ⟨after, depth + 1, reports⟩)) :
    Settles (descent floats) (fun deeper => deeper.unary ⟨op.token :: tokens, depth, reports⟩)
      (.ownership op operand, ⟨after, depth, reports⟩) := by
  have inner := @settles_nested F floats after tokens depth reports Descent.unary operand allowed
    taken
  have whole : Settles (descent floats)
      (fun deeper => parseUnary floats deeper ⟨op.token :: tokens, depth, reports⟩)
      (.ownership op operand, ⟨after, depth, reports⟩) := by
    filter_upwards [inner] with steps inner
    have noTry : op.token.kind ≠ .tryKeyword := by cases op <;> decide
    have here : State.ownershipOpHere ⟨op.token :: tokens, depth, reports⟩ = some op := by
      cases op with
      | move =>
        rw [State.ownershipOpHere, State.peek_one, starts]
        rfl
      | copy =>
        rw [State.ownershipOpHere, State.peek_one, starts]
        rfl
    rw [parseUnary, State.currentKind_mk, firstKind_cons, if_neg noTry, here]
    simp only [parseUnaryNested, State.bump, List.tail_cons, inner, Option.bind_eq_bind,
      Option.bind_some]
  exact whole.next fun _ => rfl

theorem settles_unary_primary {token : Token} {primary : Expr F}
    (noTry : token.kind ≠ .tryKeyword)
    (noWord : State.ownershipOpHere ⟨token :: tokens, depth, reports⟩ = none)
    (noPrefix : unaryOp token.kind = none) (follows : followsTree (firstKind after) = true)
    (taken : Settles (descent floats)
      (fun deeper => parsePrimary floats deeper ⟨token :: tokens, depth, reports⟩)
      (primary, ⟨after, depth, reports⟩)) :
    Settles (descent floats) (fun deeper => deeper.unary ⟨token :: tokens, depth, reports⟩)
      (primary, ⟨after, depth, reports⟩) := by
  have stops := @settles_postfixLoop F floats after depth reports primary follows
  have whole : Settles (descent floats)
      (fun deeper => parseUnary floats deeper ⟨token :: tokens, depth, reports⟩)
      (primary, ⟨after, depth, reports⟩) := by
    filter_upwards [taken, stops] with steps taken stops
    rw [parseUnary, State.currentKind_mk, firstKind_cons, if_neg noTry, noWord]
    simp only [noPrefix, taken, Option.bind_eq_bind, Option.bind_some, stops]
  exact whole.next fun _ => rfl

theorem settles_unary_paren {expr : Expr F} (follows : followsTree (firstKind after) = true)
    (taken : Settles (descent floats) (fun deeper => deeper.expr ⟨tokens, depth, reports⟩)
      (expr, ⟨⟨.rParen, ")"⟩ :: after, depth, reports⟩)) :
    Settles (descent floats)
      (fun deeper => deeper.unary ⟨⟨.lParen, "("⟩ :: tokens, depth, reports⟩)
      (expr, ⟨after, depth, reports⟩) := by
  apply settles_unary_primary (by decide) rfl rfl follows
  filter_upwards [taken] with steps taken
  have noComma : State.eat ⟨⟨.rParen, ")"⟩ :: after, depth, reports⟩ .comma =
      (false, ⟨⟨.rParen, ")"⟩ :: after, depth, reports⟩) := rfl
  have closed : State.expect ⟨⟨.rParen, ")"⟩ :: after, depth, reports⟩ .rParen =
      ⟨after, depth, reports⟩ := rfl
  simp only [parsePrimary, State.currentKind_mk, firstKind_cons, parseParen, State.bump,
    List.tail_cons, taken, Option.bind_eq_bind, Option.bind_some, noComma, Bool.false_eq_true,
    not_false_eq_true, if_true, closed]

theorem literal_kind {token : Token} {value : Expr F}
    (reads : readLiteral floats token = some value) :
    State.startsOperand token.kind = true ∧ token.kind ≠ .tryKeyword ∧
      token.kind ≠ .identifier ∧ unaryOp token.kind = none := by
  rw [readLiteral] at reads
  revert reads
  cases token.kind <;> first | (intro _; decide) | nofun

theorem settles_unary_literal (literal : Literal floats)
    (follows : followsTree (firstKind after) = true) :
    Settles (descent floats)
      (fun deeper => deeper.unary ⟨literal.token :: after, depth, reports⟩)
      (literal.value, ⟨after, depth, reports⟩) := by
  rcases literal_kind literal.reads with ⟨-, noTry, noName, noPrefix⟩
  have noWord : State.ownershipOpHere ⟨literal.token :: after, depth, reports⟩ = none := by
    have noMatch : ∀ word, State.atWord ⟨literal.token :: after, depth, reports⟩ word = false := by
      intro word
      change (literal.token.kind == .identifier && literal.token.text == word) = false
      rw [beq_eq_false_iff_ne.mpr noName, Bool.false_and]
    simp only [State.ownershipOpHere, noMatch, Bool.false_eq_true, if_false]
  apply settles_unary_primary noTry noWord noPrefix follows
  apply Settles.of_forall
  intro deeper
  have reads := literal.reads
  have here : State.current ⟨literal.token :: after, depth, reports⟩ = literal.token := rfl
  rw [readLiteral] at reads
  rw [parsePrimary, State.currentKind_mk, firstKind_cons]
  split at reads
  · next known =>
      rcases Option.map_eq_some_iff.mp reads with ⟨number, read, made⟩
      simp only [known, parseInt, here, read, made]
      rfl
  · next known =>
      rcases Option.map_eq_some_iff.mp reads with ⟨number, read, made⟩
      simp only [known, parseFloat, here, read, made]
      rfl
  · next known =>
      rcases Option.map_eq_some_iff.mp reads with ⟨text, read, made⟩
      simp only [known, parseStringLiteral, here, read, made]
      rfl
  · next known =>
      simp only [known, Option.some.inj reads]
      rfl
  · next known =>
      simp only [known, Option.some.inj reads]
      rfl
  · next known =>
      simp only [known, Option.some.inj reads]
      rfl
  · cases reads

theorem settles_unary_name {text : String} (follows : followsTree (firstKind after) = true)
    (readable : (Tree.name text : Tree floats).Readable after) :
    Settles (descent floats) (fun deeper => deeper.unary ⟨word text :: after, depth, reports⟩)
      (.name text, ⟨after, depth, reports⟩) := by
  rcases readable with ⟨noOperand, noArgs⟩
  rcases followsTree_plain follows with ⟨-, -, -, noBrace, noParen, -⟩
  have noWord : State.ownershipOpHere ⟨word text :: after, depth, reports⟩ = none := by
    have here : ∀ other, State.atWord ⟨word text :: after, depth, reports⟩ other =
        (text == other) := fun _ => rfl
    simp only [State.ownershipOpHere, here, State.peek_one]
    by_cases move : text = "move"
    · rw [noOperand (Or.inl move), move]
      rfl
    · by_cases copy : text = "copy"
      · rw [noOperand (Or.inr copy), copy]
        rfl
      · simp [move, copy]
  have noTry : (word text).kind ≠ .tryKeyword := by
    change TokenKind.identifier ≠ .tryKeyword
    decide
  apply settles_unary_primary noTry noWord rfl follows
  apply Settles.of_forall
  intro deeper
  have plain : ¬ ((text = "nativeRecover" ∧
      State.currentKind ⟨after, depth, reports⟩ = .lt) ∨
        State.atExplicitCallTypeArgs ⟨after, depth, reports⟩ = true) := by
    rw [State.currentKind_mk]
    rintro (⟨recover, less⟩ | explicit)
    · exact (noArgs less).1 recover
    · rw [State.atExplicitCallTypeArgs, State.currentKind_mk, Bool.and_eq_true] at explicit
      have none := (noArgs (eq_of_beq explicit.1)).2
      rw [explicit.2] at none
      cases none
  have here : (State.current ⟨word text :: after, depth, reports⟩).text = text := rfl
  have behind : State.bump ⟨word text :: after, depth, reports⟩ = ⟨after, depth, reports⟩ := rfl
  change parseNameOrCall deeper _ = _
  simp only [parseNameOrCall, here, behind, Option.bind_eq_bind, Option.bind_some]
  rw [if_neg plain, State.currentKind_mk]
  revert noBrace noParen
  generalize firstKind after = kind
  intro noBrace noParen
  split
  · exact absurd rfl noParen
  · exact absurd rfl noBrace
  · rfl

end Climbing

end Parsing

end KiraVm
