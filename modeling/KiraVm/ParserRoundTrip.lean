import KiraVm.ParserLadder

/-!
# Written expressions read back

Every tree is read back as it was where the lookahead of the parser takes nothing in it
for something else.  The induction is on the tree, and says of each tree what each of the
three functions that can come upon it answers.
-/

namespace KiraVm

namespace Parsing

open Lexing (TokenKind)
open StepLimits (Settles)

variable {F : Type} {floats : FloatReading F}

namespace Tree

attribute [local simp] need print endsInTry expr

/-! ## Rungs -/

theorem rung_le (tree : Tree floats) : tree.rung ≤ prefixRung := by
  cases tree with
  | binary op lhs rhs => exact (rung_pos op).2.le
  | typed op value ty =>
    change typeRung ≤ prefixRung
    decide
  | conditional cond thenBranch otherwise => exact Nat.zero_le _
  | _ => exact le_rfl

variable {tree : Tree floats}

theorem rung_of_operandApart (whole : tree.operandApart = false) : tree.rung = prefixRung :=
  le_antisymm tree.rung_le (not_lt.mp (of_decide_eq_false whole))

theorem rung_of_triedApart (whole : tree.triedApart = false) : typeRung ≤ tree.rung := by
  cases tree with
  | binary op lhs rhs => cases whole
  | conditional cond thenBranch otherwise => cases whole
  | typed op value ty => exact le_rfl
  | _ =>
    change typeRung ≤ prefixRung
    decide

/-- What an ownership operator is taken for one before. -/
theorem startsOperand_print (starts : tree.startsOperand = true) (after : List Token) :
    tree.operandApart = false ∧ State.startsOperand (firstKind (tree.print ++ after)) = true := by
  cases tree with
  | name text => exact ⟨rfl, rfl⟩
  | literal literal => exact ⟨rfl, (literal_kind literal.reads).1⟩
  | unary op operand => cases op <;> exact ⟨rfl, rfl⟩
  | ownership op operand => cases op <;> exact ⟨rfl, rfl⟩
  | tried value => cases starts
  | binary op lhs rhs => cases starts
  | typed op value ty => cases starts
  | conditional cond thenBranch otherwise => cases starts

@[simp]
theorem enclosed_false (tokens : List Token) : enclosed false tokens = tokens := by
  simp [enclosed, opening, closing]

theorem enclosed_true (tokens after : List Token) :
    enclosed true tokens ++ after =
      ⟨.lParen, "("⟩ :: (tokens ++ ⟨.rParen, ")"⟩ :: after) := by
  simp [enclosed, opening, closing]

/-! ## What a tree is read back as -/

/-- What can stand after the tree: no `is` or `as` where a `try` would take it. -/
structure Follows (tree : Tree floats) (after : List Token) : Prop where
  plain : followsTree (firstKind after) = true
  noType : tree.endsInTry = true → binding after ≠ typeRung

def ReadsUnary (tree : Tree floats) : Prop :=
  ∀ (after : List Token) (depth : Nat) (reports : List Diagnostic),
    tree.Follows after → tree.Readable after → depth + tree.need ≤ maxNestingDepth →
    Settles (descent floats) (fun deeper => deeper.unary ⟨tree.print ++ after, depth, reports⟩)
      (tree.expr, ⟨after, depth, reports⟩)

/-- The tree is taken before the loop goes on with what follows. -/
def ReadsBinary (tree : Tree floats) : Prop :=
  ∀ (least : Nat) (after : List Token) (depth : Nat) (reports : List Diagnostic),
    least < tree.rung → tree.Follows after → binding after ≤ tree.rung →
    tree.Readable after → depth + tree.need ≤ maxNestingDepth →
    ∀ answer, Settles (descent floats)
        (fun deeper => deeper.binaryLoop least tree.expr ⟨after, depth, reports⟩) answer →
      Settles (descent floats)
        (fun deeper => deeper.binary least ⟨tree.print ++ after, depth, reports⟩) answer

def ReadsExpr (tree : Tree floats) : Prop :=
  ∀ (after : List Token) (depth : Nat) (reports : List Diagnostic),
    tree.Follows after → binding after = 0 → firstKind after ≠ .question →
    tree.Readable after → depth + tree.need < maxNestingDepth →
    Settles (descent floats) (fun deeper => deeper.expr ⟨tree.print ++ after, depth, reports⟩)
      (tree.expr, ⟨after, depth, reports⟩)

structure Reads (tree : Tree floats) : Prop where
  unary : tree.rung = prefixRung → tree.ReadsUnary
  binary : tree.ReadsBinary
  expr : tree.ReadsExpr

namespace Reads

variable {tree : Tree floats} {after : List Token} {depth : Nat} {reports : List Diagnostic}

theorem of_binary (above : 0 < tree.rung) (unary : tree.rung = prefixRung → tree.ReadsUnary)
    (binary : tree.ReadsBinary) : Reads tree where
  unary := unary
  binary := binary
  expr := by
    intro after depth reports follows loose noQuestion readable within
    apply settles_expr_binary (by omega) noQuestion
    apply binary 0 after (depth + 1) reports above follows (by omega) readable (by omega)
    exact settles_binaryLoop_stop tree.expr loose.le

/-- A tree that binds tighter than every binary operator. -/
theorem of_unary (top : tree.rung = prefixRung) (unary : tree.ReadsUnary) : Reads tree := by
  apply of_binary
  · rw [top]
    decide
  · exact fun _ => unary
  · intro least after depth reports above follows loose readable within answer goesOn
    exact settles_binary (unary after depth reports follows readable within) goesOn

/-- An operand in parentheses is a primary. -/
theorem paren (reads : Reads tree) (plain : followsTree (firstKind after) = true)
    (readable : tree.Readable (⟨.rParen, ")"⟩ :: after))
    (within : depth + (tree.need + 1) ≤ maxNestingDepth) :
    Settles (descent floats)
      (fun deeper => deeper.unary ⟨enclosed true tree.print ++ after, depth, reports⟩)
      (tree.expr, ⟨after, depth, reports⟩) := by
  have inner := reads.expr (⟨.rParen, ")"⟩ :: after) depth reports ⟨rfl, fun _ => nofun⟩ rfl nofun
    readable (by omega)
  rw [enclosed_true]
  exact settles_unary_paren plain inner

theorem unaryOperand (reads : Reads tree) {apart : Bool}
    (whole : apart = false → tree.rung = prefixRung ∧ tree.Follows after)
    (plain : followsTree (firstKind after) = true)
    (readable : tree.Readable (closing apart ++ after))
    (room : depth + within apart tree.need ≤ maxNestingDepth) :
    Settles (descent floats)
      (fun deeper => deeper.unary ⟨enclosed apart tree.print ++ after, depth, reports⟩)
      (tree.expr, ⟨after, depth, reports⟩) := by
  cases apart with
  | true => exact reads.paren plain readable room
  | false =>
    rcases whole rfl with ⟨top, follows⟩
    rw [enclosed_false]
    exact reads.unary top after depth reports follows readable room

theorem binaryOperand (reads : Reads tree) {apart : Bool} {least : Nat}
    (whole : apart = false →
      least < tree.rung ∧ binding after ≤ tree.rung ∧ tree.Follows after)
    (plain : followsTree (firstKind after) = true)
    (readable : tree.Readable (closing apart ++ after))
    (room : depth + within apart tree.need ≤ maxNestingDepth)
    {answer : Expr F × State}
    (goesOn : Settles (descent floats)
      (fun deeper => deeper.binaryLoop least tree.expr ⟨after, depth, reports⟩) answer) :
    Settles (descent floats)
      (fun deeper => deeper.binary least ⟨enclosed apart tree.print ++ after, depth, reports⟩)
      answer := by
  cases apart with
  | true => exact settles_binary (reads.paren plain readable room) goesOn
  | false =>
    rcases whole rfl with ⟨tighter, looser, follows⟩
    rw [enclosed_false]
    exact reads.binary least after depth reports tighter follows looser readable room answer
      goesOn

end Reads

/-! ## One construct at a time -/

theorem reads_name (text : String) : Reads (name text : Tree floats) := by
  apply Reads.of_unary rfl
  intro after depth reports follows readable within
  exact settles_unary_name follows.plain readable

theorem reads_literal (written : Literal floats) : Reads (literal written) := by
  apply Reads.of_unary rfl
  intro after depth reports follows readable within
  exact settles_unary_literal written follows.plain

theorem reads_unary (op : UnaryOp) {operand : Tree floats} (reads : Reads operand) :
    Reads (unary op operand) := by
  apply Reads.of_unary rfl
  intro after depth reports follows readable room
  rw [need] at room
  apply settles_unary_prefix (by omega)
  apply reads.unaryOperand _ follows.plain readable (by omega)
  intro whole
  constructor
  · exact rung_of_operandApart whole
  · constructor
    · exact follows.plain
    · intro ends
      apply follows.noType
      rw [endsInTry, whole, ends]
      rfl

theorem reads_ownership (op : OwnershipOp) {operand : Tree floats} (reads : Reads operand) :
    Reads (ownership op operand) := by
  apply Reads.of_unary rfl
  intro after depth reports follows readable room
  rcases readable with ⟨starts, readable⟩
  rcases startsOperand_print starts after with ⟨whole, first⟩
  rw [need] at room
  apply settles_unary_ownership (by omega)
  · rw [whole, enclosed_false]
    exact first
  · apply reads.unaryOperand _ follows.plain readable (by omega)
    intro _
    constructor
    · exact rung_of_operandApart whole
    · constructor
      · exact follows.plain
      · intro ends
        apply follows.noType
        rw [endsInTry, whole, ends]
        rfl

/-- A `try` stops at what binds looser than `is` and `as`. -/
theorem reads_tried {value : Tree floats} (reads : Reads value) : Reads (tried value) := by
  apply Reads.of_unary rfl
  intro after depth reports follows readable room
  rcases readable with ⟨stops, readable⟩
  have apart := follows.noType rfl
  have loose : binding after ≤ typeOperatorBp - 1 := by
    change binding after ≤ 8 at stops
    change binding after ≠ 8 at apart
    change binding after ≤ 7
    omega
  rw [need] at room
  apply settles_unary_tried (by omega)
  apply reads.binaryOperand _ follows.plain readable (by omega)
  · exact settles_binaryLoop_stop value.expr loose
  · intro whole
    have above := rung_of_triedApart whole
    constructor
    · change 7 < value.rung
      change 8 ≤ value.rung at above
      omega
    · constructor
      · exact stops.trans above
      · exact ⟨follows.plain, fun _ => apart⟩

theorem reads_rightOperand {op : BinaryOp} {lhs rhs : Tree floats} {after : List Token}
    {depth : Nat} {reports : List Diagnostic} (reads : Reads rhs)
    (follows : (binary op lhs rhs).Follows after) (loose : binding after ≤ op.rung)
    (readable : rhs.Readable (closing (rhsApart op rhs) ++ after))
    (room : depth + within (rhsApart op rhs) rhs.need ≤ maxNestingDepth) :
    Settles (descent floats)
      (fun deeper => deeper.binary op.rung
        ⟨enclosed (rhsApart op rhs) rhs.print ++ after, depth, reports⟩)
      (rhs.expr, ⟨after, depth, reports⟩) := by
  apply reads.binaryOperand _ follows.plain readable room
  · exact settles_binaryLoop_stop rhs.expr loose
  · intro whole
    have above := not_le.mp (of_decide_eq_false whole)
    constructor
    · exact above
    · constructor
      · exact loose.trans above.le
      · constructor
        · exact follows.plain
        · intro ends
          apply follows.noType
          rw [endsInTry, whole, ends]
          rfl

theorem binary_noType (op : BinaryOp) (tokens : List Token) :
    binding (op.token :: tokens) ≠ typeRung := by
  rw [binary_binding]
  cases op <;> decide

theorem reads_binary (op : BinaryOp) {lhs rhs : Tree floats} (lhsReads : Reads lhs)
    (rhsReads : Reads rhs) : Reads (binary op lhs rhs) := by
  apply Reads.of_binary
  · exact (rung_pos op).1
  · intro top
    exact absurd top (rung_pos op).2.ne
  · intro least after depth reports tighter follows loose readable room answer goesOn
    rcases readable with ⟨lhsReadable, rhsReadable⟩
    rw [need] at room
    have rhsTaken := @reads_rightOperand F floats op lhs rhs after depth reports rhsReads follows
      loose rhsReadable (by omega)
    rw [print, List.append_assoc, List.cons_append]
    apply lhsReads.binaryOperand _ (binary_follows op _) lhsReadable (by omega)
    · exact settles_binaryLoop_binary tighter rhsTaken goesOn
    · intro whole
      have above := not_lt.mp (of_decide_eq_false whole)
      rw [binary_binding]
      constructor
      · exact Nat.lt_of_lt_of_le tighter above
      · constructor
        · exact above
        · constructor
          · exact binary_follows op _
          · exact fun _ => binary_noType op _

theorem reads_typed (op : TypeOp) {value : Tree floats} {ty : TypeRef} (reads : Reads value)
    (written : ty.Written) : Reads (typed op value ty) := by
  apply Reads.of_binary
  · change 0 < typeRung
    decide
  · intro top
    change typeRung = prefixRung at top
    cases top
  · intro least after depth reports tighter follows loose readable room answer goesOn
    rcases readable with ⟨valueReadable, noArgs⟩
    rw [need] at room
    have plain := (followsTree_plain follows.plain).1
    have typeTaken := ty.reads floats written after depth reports plain noArgs (by omega)
    rw [print, List.append_assoc, List.cons_append]
    apply reads.binaryOperand _ (typed_follows op _) valueReadable (by omega)
    · apply settles_binaryLoop_typed tighter typeTaken
      cases op with
      | test => exact goesOn
      | cast => exact goesOn
    · intro whole
      rw [valueApart, Bool.or_eq_false_iff] at whole
      have above := not_lt.mp (of_decide_eq_false whole.1)
      constructor
      · exact Nat.lt_of_lt_of_le tighter above
      · constructor
        · rw [typed_binding]
          exact above
        · constructor
          · exact typed_follows op _
          · intro ends
            rw [whole.2] at ends
            cases ends

theorem reads_conditional {cond thenBranch otherwise : Tree floats} (condReads : Reads cond)
    (thenReads : Reads thenBranch) (elseReads : Reads otherwise) :
    Reads (conditional cond thenBranch otherwise) where
  unary := nofun
  binary := by
    intro least after depth reports above
    cases above
  expr := by
    intro after depth reports follows loose noQuestion readable room
    rcases readable with ⟨condReadable, thenReadable, elseReadable⟩
    rw [need] at room
    have condTaken : Settles (descent floats)
        (fun deeper => deeper.binary 0
          ⟨enclosed cond.condApart cond.print ++ ⟨.question, "?"⟩ :: (thenBranch.print ++
            ⟨.colon, ":"⟩ :: (otherwise.print ++ after)), depth + 1, reports⟩)
        (cond.expr, ⟨⟨.question, "?"⟩ :: (thenBranch.print ++
          ⟨.colon, ":"⟩ :: (otherwise.print ++ after)), depth + 1, reports⟩) := by
      apply condReads.binaryOperand _ rfl condReadable (by omega)
      · exact settles_binaryLoop_stop cond.expr le_rfl
      · intro whole
        have above := of_decide_eq_false whole
        exact ⟨Nat.pos_of_ne_zero above, Nat.zero_le _, rfl, fun _ => nofun⟩
    have thenTaken := thenReads.expr (⟨.colon, ":"⟩ :: (otherwise.print ++ after)) (depth + 1)
      reports ⟨rfl, fun _ => nofun⟩ rfl nofun thenReadable (by omega)
    have unbound : otherwise.endsInTry = true → binding after ≠ typeRung := by
      intro _
      rw [loose]
      decide
    have elseTaken := elseReads.expr after (depth + 1) reports ⟨follows.plain, unbound⟩ loose
      noQuestion elseReadable (by omega)
    rw [print, List.append_assoc, List.cons_append, List.append_assoc, List.cons_append]
    exact settles_expr_conditional (by omega) condTaken thenTaken elseTaken

theorem reads (tree : Tree floats) : tree.TypesWritten → Reads tree := by
  induction tree with
  | name text => exact fun _ => reads_name text
  | literal written => exact fun _ => reads_literal written
  | unary op operand ih => exact fun typed => reads_unary op (ih typed)
  | tried value ih => exact fun typed => reads_tried (ih typed)
  | ownership op operand ih => exact fun typed => reads_ownership op (ih typed)
  | binary op lhs rhs lhsIh rhsIh =>
    rintro ⟨lhsTyped, rhsTyped⟩
    exact reads_binary op (lhsIh lhsTyped) (rhsIh rhsTyped)
  | typed op value ty ih =>
    rintro ⟨typed, written⟩
    exact reads_typed op (ih typed) written
  | conditional cond thenBranch otherwise condIh thenIh elseIh =>
    rintro ⟨condTyped, thenTyped, elseTyped⟩
    exact reads_conditional (condIh condTyped) (thenIh thenTyped) (elseIh elseTyped)

/-- Written with the parentheses of the ladder, a tree comes back from `parse_expr` with
no diagnostic, where it is within the nesting budget and the lookahead takes nothing in
it for something else. -/
theorem roundTrips_of_readable (tree : Tree floats) (typed : tree.TypesWritten)
    (room : tree.need < maxNestingDepth) (readable : tree.Readable []) : tree.RoundTrips := by
  have read := (tree.reads typed).expr [] 0 [] ⟨rfl, fun _ => nofun⟩ rfl nofun readable (by omega)
  rw [List.append_nil] at read
  exact read.before fun _ => rfl

/-- A reading for trees without floating-point literals. -/
def noFloats : FloatReading Unit := ⟨fun _ => none, fun _ => true, (), ()⟩

/-- `a + b * -c == try d as T ? move e : f` -/
def ladderTree : Tree noFloats :=
  conditional
    (binary .eq
      (binary .add (name "a") (binary .mul (name "b") (unary .neg (name "c"))))
      (tried (typed .cast (name "d") (.named ["T"]))))
    (ownership .move (name "e")) (name "f")

theorem roundTrips_ladderTree : ladderTree.RoundTrips :=
  roundTrips_of_readable ladderTree (by simp [ladderTree, TypesWritten, TypeRef.Written])
    (by decide) (by decide)

/-- `move` before a parenthesis is the name of a function that is called. -/
theorem not_roundTrips_moved_sum :
    ¬ ∀ tree : Tree noFloats, tree.TypesWritten → tree.need < maxNestingDepth →
      tree.RoundTrips := by
  intro all
  have claimed := all (ownership .move (binary .add (name "a") (name "b"))) ⟨trivial, trivial⟩
    (by decide)
  have called : Settles (descent noFloats)
      (fun deeper => parseExpr deeper
        ⟨(ownership .move (binary .add (name "a") (name "b")) : Tree noFloats).print, 0, []⟩)
      (.call "move" [] [(none, .binary .add (.name "a") (.name "b"))], ⟨[], 0, []⟩) := by
    apply Filter.eventually_atTop.mpr
    use 20
    intro steps enough
    rcases Nat.exists_eq_add_of_le' enough with ⟨more, rfl⟩
    rfl
  cases claimed.unique called

end Tree

end Parsing

end KiraVm
