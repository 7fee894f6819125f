import KiraVm.LexerCursor

/-!
# What the lexer does with a piece

Each piece that stands at the cursor is taken whole: the cursor goes past it, its
token is emitted and its faults are reported.
-/

namespace KiraVm

namespace Lexing

open Foundation

namespace Lexer

variable {lexer : Lexer} {rest left : List UInt8} {byte : UInt8}

/-! ## Comments -/

theorem pair_iff (faces : Faces lexer rest) (first second : UInt8) :
    lexer.peek = some first ∧ lexer.peekAt 1 = some second ↔ [first, second] <+: rest := by
  rw [faces.peek, faces.peekAt]
  constructor
  · rintro ⟨begins, goesOn⟩
    rcases List.head?_eq_some_iff.mp begins with ⟨behind, rfl⟩
    cases behind with
    | nil => cases goesOn
    | cons other behind =>
      injection goesOn with same
      subst same
      exact ⟨behind, rfl⟩
  · rintro ⟨behind, rfl⟩
    exact ⟨rfl, rfl⟩

variable {bytes : List UInt8}

theorem commentBody_ne_nil {depth : Nat} (body : CommentBody depth bytes) : bytes ≠ [] := by
  cases body <;> exact List.cons_ne_nil _ _

theorem pair_append {first second : UInt8} (some : bytes ≠ []) :
    [first, second] <+: byte :: (bytes ++ left) ↔ [first, second] <+: byte :: bytes := by
  cases bytes with
  | nil => exact absurd rfl some
  | cons other bytes => simp [List.cons_prefix_cons]

theorem Faces.pair {first second : UInt8} (faces : Faces lexer (first :: second :: left)) :
    Faces (lexer.advance 2) left :=
  @Faces.advance lexer left [first, second] faces

variable {start depth : Nat}

theorem skipBlockFrom_opens (faces : Faces lexer (47 :: 42 :: rest)) :
    skipBlockFrom start depth lexer = skipBlockFrom start (depth + 1) (lexer.advance 2) := by
  have opens : lexer.peek = some 47 ∧ lexer.peekAt 1 = some 42 :=
    (pair_iff faces 47 42).mpr ⟨rest, rfl⟩
  rw [skipBlockFrom, if_pos faces.inside, if_pos opens]

theorem skipBlockFrom_closes (faces : Faces lexer (42 :: 47 :: rest)) :
    skipBlockFrom start depth lexer =
      if depth - 1 = 0 then lexer.advance 2
      else skipBlockFrom start (depth - 1) (lexer.advance 2) := by
  have closes : lexer.peek = some 42 ∧ lexer.peekAt 1 = some 47 :=
    (pair_iff faces 42 47).mpr ⟨rest, rfl⟩
  have noOpener : ¬ (lexer.peek = some 47 ∧ lexer.peekAt 1 = some 42) := by
    rw [closes.1]
    exact fun opens => absurd opens.1 (by decide)
  rw [skipBlockFrom, if_pos faces.inside, if_neg noOpener, if_pos closes]

theorem skipBlockFrom_other (faces : Faces lexer (byte :: rest))
    (noOpener : ¬ [47, 42] <+: byte :: rest) (noCloser : ¬ [42, 47] <+: byte :: rest) :
    skipBlockFrom start depth lexer = skipBlockFrom start depth (lexer.advance 1) := by
  rw [skipBlockFrom, if_pos faces.inside, if_neg (mt (pair_iff faces 47 42).mp noOpener),
    if_neg (mt (pair_iff faces 42 47).mp noCloser)]

theorem skipBlockFrom_closed (body : CommentBody depth bytes) (positive : 0 < depth)
    (faces : Faces lexer (bytes ++ left)) :
    skipBlockFrom start depth lexer = lexer.advance bytes.length := by
  induction body generalizing lexer with
  | last =>
    rw [skipBlockFrom_closes faces]
    rfl
  | @opens depth rest inside ih =>
    rw [skipBlockFrom_opens faces, ih (Nat.succ_pos _) faces.pair, advance_advance,
      List.length_cons, List.length_cons, Nat.add_comm 2]
  | @closes depth rest inside ih =>
    rw [skipBlockFrom_closes faces, if_neg (by omega)]
    change skipBlockFrom start (depth + 1) _ = _
    rw [ih (Nat.succ_pos _) faces.pair, advance_advance, List.length_cons, List.length_cons,
      Nat.add_comm 2]
  | @other depth byte rest noOpener noCloser inside ih =>
    have some := commentBody_ne_nil inside
    rw [skipBlockFrom_other faces (mt (pair_append some).mp noOpener)
      (mt (pair_append some).mp noCloser), ih positive faces.step, advance_advance,
      List.length_cons, Nat.add_comm 1]

theorem skipBlockFrom_open (positive : 0 < depth) (faces : Faces lexer rest)
    (unclosed : ∀ front back, rest = front ++ back → ¬ CommentBody depth front) :
    skipBlockFrom start depth lexer = (lexer.advance rest.length).report
      (unterminatedComment lexer.source ((lexer.advance rest.length).spanFrom start)) := by
  induction size : rest.length using Nat.strong_induction_on generalizing lexer rest depth with
  | _ count ih =>
    cases rest with
    | nil =>
      subst size
      rw [skipBlockFrom, if_neg faces.ended]
      rfl
    | cons byte behind =>
      by_cases opens : [47, 42] <+: byte :: behind
      · rcases opens with ⟨inside, same⟩
        rw [← same] at faces unclosed size
        have shorter : inside.length < count := by
          rw [← size]
          exact Nat.lt_succ_of_lt (Nat.lt_succ_self _)
        rw [skipBlockFrom_opens faces, ih _ shorter (Nat.succ_pos _) faces.pair ?_ rfl,
          advance_advance, ← size, Nat.add_comm 2]
        · rfl
        · rintro front back rfl body
          exact unclosed (47 :: 42 :: front) back rfl (CommentBody.opens body)
      by_cases closes : [42, 47] <+: byte :: behind
      · rcases closes with ⟨inside, same⟩
        rw [← same] at faces unclosed size
        have shorter : inside.length < count := by
          rw [← size]
          exact Nat.lt_succ_of_lt (Nat.lt_succ_self _)
        rcases depth with _ | _ | depth
        · exact absurd positive (Nat.lt_irrefl 0)
        · exact absurd CommentBody.last (unclosed [42, 47] inside rfl)
        · rw [skipBlockFrom_closes faces, if_neg (by omega)]
          change skipBlockFrom start (depth + 1) _ = _
          rw [ih _ shorter (Nat.succ_pos _) faces.pair ?_ rfl, advance_advance, ← size,
            Nat.add_comm 2]
          · rfl
          · rintro front back rfl body
            exact unclosed (42 :: 47 :: front) back rfl (CommentBody.closes body)
      · have shorter : behind.length < count := by
          rw [← size]
          exact Nat.lt_succ_self _
        rw [skipBlockFrom_other faces opens closes, ih _ shorter positive faces.step ?_ rfl,
          advance_advance, ← size, Nat.add_comm 1]
        · rfl
        · rintro front back rfl body
          have some := commentBody_ne_nil body
          exact unclosed (byte :: front) back rfl (CommentBody.other
            (mt (pair_append some).mpr opens) (mt (pair_append some).mpr closes) body)

/-! ## Trivia -/

def after (lexer : Lexer) (piece : Piece) : Lexer where
  source := lexer.source
  bytes := lexer.bytes
  pos := lexer.pos + piece.bytes.length
  tokens := lexer.tokens ++ piece.tokens lexer.pos
  diagnostics := lexer.diagnostics ++ piece.faults lexer.source lexer.pos

theorem after_quiet {piece : Piece} (noToken : piece.kind = none)
    (noFault : piece.faults lexer.source lexer.pos = []) :
    lexer.after piece = lexer.advance piece.bytes.length := by
  unfold after Piece.tokens
  rw [noToken, noFault, List.append_nil]
  change { lexer with pos := _, tokens := lexer.tokens ++ [] } = _
  rw [List.append_nil]
  rfl

theorem skipTrivia_blank (faces : Faces lexer (byte :: left))
    (blank : isAsciiWhitespace byte = true) :
    lexer.skipTrivia = (lexer.advance 1).skipTrivia := by
  conv => lhs; rw [skipTrivia]
  rw [dif_pos faces.inside, faces.here, if_pos blank]

theorem skipTrivia_line {body : List UInt8} (inLine : (10 : UInt8) ∉ body)
    (stops : ∀ byte ∈ left.head?, byte = 10) (faces : Faces lexer (47 :: 47 :: (body ++ left))) :
    lexer.skipTrivia = (lexer.advance (body.length + 2)).skipTrivia := by
  have line : lexer.peek = some 47 ∧ lexer.peekAt 1 = some 47 :=
    (pair_iff faces 47 47).mpr ⟨body ++ left, rfl⟩
  have skipped : lexer.skipWhile (· != 10) = lexer.advance (47 :: 47 :: body).length := by
    have whole : Faces lexer ((47 :: 47 :: body) ++ left) := faces
    refine skipWhile_run ?_ ?_ whole
    · intro byte among
      rw [bne_iff_ne]
      rintro rfl
      simp [inLine] at among
    · intro byte first
      rw [stops byte first]
      decide
  conv => lhs; rw [skipTrivia]
  rw [dif_pos faces.inside, faces.here, if_neg (by decide), dif_pos line, skipped]
  rfl

theorem skipTrivia_block (faces : Faces lexer (47 :: 42 :: rest)) :
    lexer.skipTrivia = (skipBlockFrom lexer.pos 1 (lexer.advance 2)).skipTrivia := by
  have block : lexer.peek = some 47 ∧ lexer.peekAt 1 = some 42 :=
    (pair_iff faces 47 42).mpr ⟨rest, rfl⟩
  have noLine : ¬ (lexer.peek = some 47 ∧ lexer.peekAt 1 = some 47) := by
    rw [block.2]
    exact fun line => absurd line.2 (by decide)
  conv => lhs; rw [skipTrivia]
  rw [dif_pos faces.inside, faces.here, if_neg (by decide), dif_neg noLine, dif_pos block]
  unfold skipBlockComment
  rw [skipBlockFrom_opens faces]

/-- Blanks and comments are gone past. -/
theorem skipTrivia_piece {piece : Piece} (trivial : piece.kind = none) (stands : piece.Stands left)
    (faces : Faces lexer (piece.bytes ++ left)) :
    lexer.skipTrivia = (lexer.after piece).skipTrivia := by
  cases piece with
  | blank byte =>
    rw [after_quiet trivial rfl]
    exact skipTrivia_blank faces stands
  | lineComment body =>
    rw [after_quiet trivial rfl]
    exact skipTrivia_line stands.1 stands.2 faces
  | blockComment bytes =>
    rcases stands with ⟨rest, rfl, body⟩
    rw [after_quiet trivial rfl, skipTrivia_block faces,
      skipBlockFrom_closed body (by decide) faces.pair, advance_advance]
    change _ = (lexer.advance (rest.length + 2)).skipTrivia
    rw [Nat.add_comm 2]
  | openComment bytes =>
    rcases stands with ⟨⟨rest, rfl, unclosed⟩, rfl⟩
    change Faces lexer (47 :: 42 :: rest ++ []) at faces
    rw [List.append_nil] at faces
    rw [skipTrivia_block faces, skipBlockFrom_open (by decide) faces.pair unclosed,
      advance_advance, Nat.add_comm 2]
    congr 1
    unfold after Piece.tokens
    change _ = { lexer with
      pos := _, tokens := lexer.tokens ++ [], diagnostics := lexer.diagnostics ++ [_] }
    rw [List.append_nil]
    rfl
  | token kind bytes => cases trivial
  | literal parts ending => cases trivial
  | stray c => cases trivial

end Lexer

end Lexing

end KiraVm
