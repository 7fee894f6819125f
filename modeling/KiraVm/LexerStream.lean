import KiraVm.LexerTiling

/-!
# The stream of tokens

What the lexer answers is what the pieces of the text stand for: tokens in order
that cover everything but blanks, comments and a leading mark, and one diagnostic
for each fault.
-/

namespace KiraVm

namespace Lexing

open Foundation

/-! ## The whole text -/

/-- Behind a character whole characters follow. -/
theorem Encoded.behind_char {c : Char} {rest : List UInt8}
    (encoded : Encoded (String.utf8EncodeChar c ++ rest)) : Encoded rest := by
  rcases encoded with ⟨chars, split⟩
  rcases character_bytes c with ⟨tail, shape, -, -⟩
  cases chars with
  | nil =>
    rw [shape] at split
    cases split
  | cons d chars =>
    rcases character_bytes d with ⟨tailOther, shapeOther, -, -⟩
    rw [List.flatMap_cons] at split
    have first : firstByte c = firstByte d := by
      rw [shape, shapeOther] at split
      injection split
    have lengths : (String.utf8EncodeChar c).length = (String.utf8EncodeChar d).length := by
      rw [← utf8CharLen_firstByte, ← utf8CharLen_firstByte, first]
    exact ⟨chars, (List.append_inj split lengths).2⟩

/-- Where the lexer begins: behind a mark, if there is one. -/
def beginning (bytes : List UInt8) : Nat :=
  if utf8Bom <+: bytes then utf8Bom.length else 0

theorem beginning_le (bytes : List UInt8) : beginning bytes ≤ bytes.length := by
  unfold beginning
  by_cases marked : utf8Bom <+: bytes
  · rw [if_pos marked]
    exact marked.length_le
  · rw [if_neg marked]
    exact Nat.zero_le _

/-- The mark is a character. -/
theorem encoded_beginning {bytes : List UInt8} (encoded : Encoded bytes) :
    Encoded (bytes.drop (beginning bytes)) := by
  unfold beginning
  by_cases marked : utf8Bom <+: bytes
  · rw [if_pos marked]
    rcases marked with ⟨rest, rfl⟩
    have mark : String.utf8EncodeChar '\ufeff' = utf8Bom := by decide
    rw [← mark] at encoded ⊢
    rw [List.drop_left]
    exact encoded.behind_char
  · rw [if_neg marked]
    exact encoded

theorem lex_pieces (source : SourceId) {text : String} {pieces : List Piece}
    (split : (textBytes text).drop (beginning (textBytes text)) = pieces.flatMap Piece.bytes)
    (munched : Munched pieces) : lex source text =
      ⟨tokensOf (beginning (textBytes text)) pieces ++ [eofToken (textBytes text).length],
        faultsOf source (beginning (textBytes text)) pieces⟩ := by
  have begun : (if utf8Bom <+: (Lexer.new source text).bytes then
      { Lexer.new source text with pos := utf8Bom.length } else Lexer.new source text) =
      (Lexer.new source text).advance (beginning (textBytes text)) := by
    unfold beginning
    by_cases marked : utf8Bom <+: textBytes text
    · rw [if_pos marked]
      exact if_pos marked
    · rw [if_neg marked]
      exact if_neg marked
  have faces : Lexer.Faces ((Lexer.new source text).advance (beginning (textBytes text)))
      (pieces.flatMap Piece.bytes) := by
    constructor
    · change (textBytes text).drop (0 + beginning (textBytes text)) = _
      rw [Nat.zero_add, split]
    · change 0 + beginning (textBytes text) ≤ (textBytes text).length
      rw [Nat.zero_add]
      exact beginning_le _
  rcases Lexer.after_pieces pieces ((Lexer.new source text).advance (beginning (textBytes text)))
    with ⟨tokens, diagnostics, bytes⟩
  unfold lex Lexer.run
  simp only
  rw [begun, Lexer.lexFrom_pieces munched faces, tokens, diagnostics, bytes]
  change LexResult.mk ([] ++ tokensOf (0 + _) pieces ++ _) ([] ++ faultsOf source (0 + _) pieces) = _
  rw [List.nil_append, List.nil_append, Nat.zero_add]
  rfl

/-! ## Spans -/

theorem spanOf_toNat {offset length : Nat} (small : offset + length < 2 ^ 32) :
    (spanOf offset length).start.toNat = offset ∧ (spanOf offset length).len.toNat = length := by
  have start : (UInt32.ofNat offset).toNat = offset :=
    UInt32.toNat_ofNat_of_lt' (Nat.lt_of_le_of_lt (Nat.le_add_right _ _) small)
  have stop : (UInt32.ofNat (offset + length)).toNat = offset + length :=
    UInt32.toNat_ofNat_of_lt' small
  refine ⟨start, ?_⟩
  change (UInt32.ofNat (offset + length) - UInt32.ofNat offset).toNat = length
  rw [UInt32.toNat_sub_of_le, start, stop]
  · omega
  · rw [UInt32.le_iff_toNat_le, start, stop]
    omega

/-- The span of so many bytes stands where it says. -/
def Placed (offset length : Nat) (span : Span) : Prop :=
  span.start.toNat = offset ∧ span.len.toNat = length

variable {offset : Nat} {pieces : List Piece} {source : SourceId} {fault : Diagnostic}
  {piece : Piece} {parts : List Part} {left : List UInt8}

theorem tokensOf_mem {token : Token}
    (small : offset + (pieces.flatMap Piece.bytes).length < 2 ^ 32)
    (among : token ∈ tokensOf offset pieces) : ∃ front piece back, pieces = front ++ piece :: back ∧
      piece.kind = some token.kind ∧
      Placed (offset + (front.flatMap Piece.bytes).length) piece.bytes.length token.span := by
  induction pieces generalizing offset with
  | nil => cases among
  | cons piece pieces ih =>
    rw [List.flatMap_cons, List.length_append] at small
    rcases List.mem_append.mp among with here | behind
    · rcases List.mem_map.mp here with ⟨kind, isKind, rfl⟩
      exact ⟨[], piece, pieces, rfl, Option.mem_toList.mp isKind, spanOf_toNat (by omega)⟩
    · rcases ih (by omega) behind with ⟨front, found, back, rfl, isKind, placed⟩
      refine ⟨piece :: front, found, back, rfl, isKind, ?_⟩
      rw [List.flatMap_cons, List.length_append, ← Nat.add_assoc]
      exact placed

theorem tokensOf_append (offset : Nat) (front back : List Piece) :
    tokensOf offset (front ++ back) =
      tokensOf offset front ++ tokensOf (offset + (front.flatMap Piece.bytes).length) back := by
  induction front generalizing offset with
  | nil => rfl
  | cons piece front ih =>
    rw [List.cons_append, tokensOf, tokensOf, ih, List.append_assoc, List.flatMap_cons,
      List.length_append, Nat.add_assoc]

def Between (low high : Nat) (span : Span) : Prop :=
  low ≤ span.start.toNat ∧ span.start.toNat + span.len.toNat ≤ high

theorem tokensOf_between (small : offset + (pieces.flatMap Piece.bytes).length < 2 ^ 32) :
    ∀ token ∈ tokensOf offset pieces,
      Between offset (offset + (pieces.flatMap Piece.bytes).length) token.span := by
  intro token among
  rcases tokensOf_mem small among with ⟨front, piece, back, rfl, -, start, len⟩
  rw [List.flatMap_append, List.flatMap_cons, List.length_append, List.length_append]
  unfold Between
  rw [start, len]
  omega

theorem tokensOf_ordered (small : offset + (pieces.flatMap Piece.bytes).length < 2 ^ 32) :
    (tokensOf offset pieces).Pairwise fun first second =>
      first.span.start.toNat + first.span.len.toNat ≤ second.span.start.toNat := by
  induction pieces generalizing offset with
  | nil => exact List.Pairwise.nil
  | cons piece pieces ih =>
    rw [List.flatMap_cons, List.length_append] at small
    apply List.pairwise_append.mpr
    refine ⟨?_, ih (by omega), ?_⟩
    · unfold Piece.tokens
      cases piece.kind with
      | none => exact List.Pairwise.nil
      | some kind => exact List.pairwise_singleton _ _
    · intro first isFirst second isSecond
      rcases List.mem_map.mp isFirst with ⟨kind, -, rfl⟩
      have placed := @spanOf_toNat offset piece.bytes.length (by omega)
      have behind := tokensOf_between (by omega) second isSecond
      change (spanOf offset piece.bytes.length).start.toNat +
        (spanOf offset piece.bytes.length).len.toNat ≤ _
      rw [placed.1, placed.2]
      exact behind.1

/-! ## Faults -/

theorem faultsOf_mem (among : fault ∈ faultsOf source offset pieces) : ∃ front piece back,
      pieces = front ++ piece :: back ∧
        fault ∈ piece.faults source (offset + (front.flatMap Piece.bytes).length) := by
  induction pieces generalizing offset with
  | nil => cases among
  | cons piece pieces ih =>
    rcases List.mem_append.mp among with here | behind
    · exact ⟨[], piece, pieces, rfl, here⟩
    · rcases ih behind with ⟨front, found, back, rfl, isFault⟩
      refine ⟨piece :: front, found, back, rfl, ?_⟩
      rw [List.flatMap_cons, List.length_append, ← Nat.add_assoc]
      exact isFault

theorem faultsOf_piece {front back : List Piece}
    (isFault : fault ∈ piece.faults source (offset + (front.flatMap Piece.bytes).length)) :
    fault ∈ faultsOf source offset (front ++ piece :: back) := by
  induction front generalizing offset with
  | nil => exact List.mem_append_left _ isFault
  | cons first front ih =>
    rw [List.flatMap_cons, List.length_append, ← Nat.add_assoc] at isFault
    exact List.mem_append_right _ (ih isFault)

theorem escapeFaults_mem (small : offset + (parts.flatMap Part.bytes).length < 2 ^ 32)
    (among : fault ∈ escapeFaults source offset parts) : ∃ front c back,
      parts = front ++ .unknown c :: back ∧
        Placed (offset + (front.flatMap Part.bytes).length) (Part.unknown c).bytes.length
          fault.site.span := by
  induction parts generalizing offset with
  | nil => cases among
  | cons part parts ih =>
    rw [List.flatMap_cons, List.length_append] at small
    rw [Lexer.escapeFaults_cons] at among
    rcases List.mem_append.mp among with here | behind
    · cases part with
      | unknown c =>
        rw [List.mem_singleton.mp here]
        exact ⟨[], c, parts, rfl, spanOf_toNat (by omega)⟩
      | plain c => cases here
      | escape letter => cases here
      | newline => cases here
      | carriage => cases here
    · rcases ih (by omega) behind with ⟨front, c, back, rfl, placed⟩
      refine ⟨part :: front, c, back, rfl, ?_⟩
      rw [List.flatMap_cons, List.length_append, ← Nat.add_assoc]
      exact placed

set_option maxRecDepth 20000 in
theorem literal_cut {ending : Ending} (stands : LiteralStands left ending parts)
    (encoded : Encoded (insideBytes parts ending ++ left)) (front back : List Part)
    (split : parts = front ++ back) : Encoded (insideBytes back ending ++ left) := by
  induction front generalizing parts with
  | nil =>
    rw [split] at encoded
    exact encoded
  | cons part front ih =>
    subst split
    have whole : Encoded (part.bytes ++ (insideBytes (front ++ back) ending ++ left)) := by
      unfold insideBytes at encoded ⊢
      rw [List.cons_append, List.flatMap_cons, List.append_assoc, List.append_assoc] at encoded
      rw [List.append_assoc]
      exact encoded
    refine ih stands.2 ?_ rfl
    cases part with
    | plain c => exact whole.behind_char
    | newline => exact whole.behind_all (by decide)
    | carriage => exact whole.behind_all (by decide)
    | escape letter =>
      have ascii : ∀ letter ∈ Lexer.escapeLetters, letter < 128 := by
        decide
      apply @Encoded.behind_all [92, letter] _ whole
      rw [List.forall_mem_cons, List.forall_mem_singleton]
      exact ⟨by decide, ascii letter stands.1⟩
    | unknown c =>
      have behind := @Encoded.behind [] _ 92 whole (by decide)
      exact behind.behind_char

/-- What a fault is about: whole characters of the piece. -/
def Covers (piece left : List UInt8) (offset : Nat) (span : Span) : Prop :=
  ∃ before slice after, piece = before ++ (slice ++ after) ∧ slice ≠ [] ∧
    Encoded (slice ++ (after ++ left)) ∧ Encoded (after ++ left) ∧
    Placed (offset + before.length) slice.length span

theorem covers_whole {piece : List UInt8} (nonempty : piece ≠ [])
    (encoded : Encoded (piece ++ left)) (rest : Encoded left)
    (small : offset + piece.length < 2 ^ 32) :
    Covers piece left offset (spanOf offset piece.length) :=
  ⟨[], piece, [], (List.append_nil _).symm, nonempty, encoded, rest, spanOf_toNat small⟩

theorem fault_covers (small : offset + piece.bytes.length < 2 ^ 32) (stands : piece.Stands left)
    (encoded : Encoded (piece.bytes ++ left)) (rest : Encoded left)
    (among : fault ∈ piece.faults source offset) :
    Covers piece.bytes left offset fault.site.span := by
  cases piece with
  | blank byte => cases among
  | lineComment body => cases among
  | blockComment bytes => cases among
  | token kind bytes => cases among
  | openComment bytes =>
    rw [List.mem_singleton.mp among]
    rcases stands.1 with ⟨inside, rfl, -⟩
    exact covers_whole (List.cons_ne_nil _ _) encoded rest small
  | stray c =>
    rcases character_bytes c with ⟨tail, shape, -, -⟩
    rw [List.mem_singleton.mp among]
    have site : (Lexer.unknownReport source (firstByte c) (String.utf8EncodeChar c)
        (spanOf offset (String.utf8EncodeChar c).length)).site.span =
        spanOf offset (String.utf8EncodeChar c).length := by
      unfold Lexer.unknownReport
      split_ifs <;> rfl
    rw [site]
    refine covers_whole ?_ encoded rest small
    change String.utf8EncodeChar c ≠ []
    rw [shape]
    exact List.cons_ne_nil _ _
  | literal parts ending =>
    rcases List.mem_append.mp among with inParts | atEnd
    · have inside := @Encoded.behind [] (insideBytes parts ending ++ left) 34 encoded (by decide)
      have room : offset + 1 + (parts.flatMap Part.bytes).length < 2 ^ 32 := by
        change offset + ((parts.flatMap Part.bytes ++ ending.bytes).length + 1) < _ at small
        rw [List.length_append] at small
        omega
      rcases escapeFaults_mem room inParts with ⟨front, c, back, rfl, placed⟩
      have begins := literal_cut stands inside front _ rfl
      have behind := literal_cut stands inside (front ++ [.unknown c]) back (by simp)
      refine ⟨34 :: front.flatMap Part.bytes, (Part.unknown c).bytes, insideBytes back ending,
        ?_, List.cons_ne_nil _ _, ?_, behind, ?_⟩
      · simp [Piece.bytes, insideBytes]
      · unfold insideBytes at begins ⊢
        rw [List.flatMap_cons, List.append_assoc, List.append_assoc] at begins
        rw [List.append_assoc]
        exact begins
      · rw [List.length_cons, Nat.add_comm _ 1, ← Nat.add_assoc]
        exact placed
    · by_cases closed : ending = .closed
      · rw [if_pos closed] at atEnd
        cases atEnd
      · rw [if_neg closed] at atEnd
        rw [List.mem_singleton.mp atEnd]
        exact covers_whole (List.cons_ne_nil _ _) encoded rest small

def Begins (low high : Nat) (fault : Diagnostic) : Prop :=
  low ≤ fault.site.span.start.toNat ∧ fault.site.span.start.toNat < high

theorem escapeFaults_begin (small : offset + (parts.flatMap Part.bytes).length < 2 ^ 32) :
    ∀ fault ∈ escapeFaults source offset parts,
      Begins offset (offset + (parts.flatMap Part.bytes).length) fault := by
  intro fault among
  rcases escapeFaults_mem small among with ⟨front, c, back, rfl, start, -⟩
  unfold Begins
  rw [start, List.flatMap_append, List.flatMap_cons, List.length_append, List.length_append]
  change _ ∧ _ < offset + (_ + ((_ + 1) + _))
  omega

theorem apart {low middle high : Nat} {first second : Diagnostic} (before : Begins low middle first)
    (behind : Begins middle high second) : first.site.span ≠ second.site.span := by
  intro same
  have later := behind.1
  rw [← same] at later
  exact absurd before.2 (Nat.not_lt.mpr later)

theorem escapeFaults_distinct (small : offset + (parts.flatMap Part.bytes).length < 2 ^ 32) :
    (escapeFaults source offset parts).Pairwise fun first second =>
      first.site.span ≠ second.site.span := by
  induction parts generalizing offset with
  | nil => exact List.Pairwise.nil
  | cons part parts ih =>
    rw [List.flatMap_cons, List.length_append] at small
    rw [Lexer.escapeFaults_cons]
    apply List.pairwise_append.mpr
    refine ⟨?_, ih (by omega), ?_⟩
    · cases part with
      | unknown c => exact List.pairwise_singleton _ _
      | plain c => exact List.Pairwise.nil
      | escape letter => exact List.Pairwise.nil
      | newline => exact List.Pairwise.nil
      | carriage => exact List.Pairwise.nil
    · intro first isFirst second isSecond
      have room : offset + (List.flatMap Part.bytes [part]).length < 2 ^ 32 := by
        rw [List.flatMap_singleton]
        omega
      have here := escapeFaults_begin room first isFirst
      rw [List.flatMap_singleton] at here
      exact apart here (escapeFaults_begin (by omega) second isSecond)

theorem faults_begin (small : offset + piece.bytes.length < 2 ^ 32) (stands : piece.Stands left)
    (encoded : Encoded (piece.bytes ++ left)) (rest : Encoded left) :
    ∀ fault ∈ piece.faults source offset,
      Begins offset (offset + piece.bytes.length) fault := by
  intro fault among
  rcases fault_covers small stands encoded rest among with
    ⟨before, slice, after, split, nonempty, -, -, start, -⟩
  have counted := congrArg List.length split
  have positive := List.length_pos_of_ne_nil nonempty
  rw [List.length_append, List.length_append] at counted
  unfold Begins
  rw [start]
  omega

theorem faults_distinct (small : offset + piece.bytes.length < 2 ^ 32) :
    (piece.faults source offset).Pairwise fun first second =>
      first.site.span ≠ second.site.span := by
  cases piece with
  | blank byte => exact List.Pairwise.nil
  | lineComment body => exact List.Pairwise.nil
  | blockComment bytes => exact List.Pairwise.nil
  | token kind bytes => exact List.Pairwise.nil
  | openComment bytes => exact List.pairwise_singleton _ _
  | stray c => exact List.pairwise_singleton _ _
  | literal parts ending =>
    have room : offset + 1 + (parts.flatMap Part.bytes).length < 2 ^ 32 := by
      change offset + ((parts.flatMap Part.bytes ++ ending.bytes).length + 1) < _ at small
      rw [List.length_append] at small
      omega
    apply List.pairwise_append.mpr
    refine ⟨escapeFaults_distinct room, ?_, ?_⟩
    · split_ifs
      · exact List.Pairwise.nil
      · exact List.pairwise_singleton _ _
    · intro first isFirst second isSecond
      by_cases closed : ending = .closed
      · rw [if_pos closed] at isSecond
        cases isSecond
      · rw [if_neg closed, List.mem_singleton] at isSecond
        have inside := escapeFaults_begin room first isFirst
        have placed := @spanOf_toNat offset (insideBytes parts ending).length.succ small
        have here : Begins offset (offset + 1) second := by
          rw [isSecond]
          exact ⟨Nat.le_of_eq placed.1.symm, Nat.lt_succ_of_le (Nat.le_of_eq placed.1)⟩
        exact (apart here inside).symm

theorem munched_behind {front back : List Piece} (munched : Munched (front ++ back)) :
    Munched back := by
  induction front with
  | nil => exact munched
  | cons piece front ih => exact ih munched.2

/-- What stands at a piece of the text. -/
structure At (front : List Piece) (piece : Piece) (back : List Piece) : Prop where
  stands : piece.Stands (back.flatMap Piece.bytes)
  encoded : Encoded (piece.bytes ++ back.flatMap Piece.bytes)
  rest : Encoded (back.flatMap Piece.bytes)

theorem piece_at {front back : List Piece} {piece : Piece}
    (munched : Munched (front ++ piece :: back)) (cut : Cut (front ++ piece :: back)) :
    At front piece back where
  stands := (munched_behind munched).1
  encoded := cut front (piece :: back) rfl
  rest := cut (front ++ [piece]) back (by simp)

theorem faultsOf_covers (small : offset + (pieces.flatMap Piece.bytes).length < 2 ^ 32)
    (munched : Munched pieces) (cut : Cut pieces) (among : fault ∈ faultsOf source offset pieces) :
    ∃ front piece back, pieces = front ++ piece :: back ∧
      Covers piece.bytes (back.flatMap Piece.bytes)
        (offset + (front.flatMap Piece.bytes).length) fault.site.span := by
  rcases faultsOf_mem among with ⟨front, piece, back, rfl, isFault⟩
  have here := piece_at munched cut
  rw [List.flatMap_append, List.flatMap_cons, List.length_append, List.length_append] at small
  exact ⟨front, piece, back, rfl,
    fault_covers (by omega) here.stands here.encoded here.rest isFault⟩

theorem faultsOf_distinct (small : offset + (pieces.flatMap Piece.bytes).length < 2 ^ 32)
    (munched : Munched pieces) (cut : Cut pieces) :
    (faultsOf source offset pieces).Pairwise fun first second =>
      first.site.span ≠ second.site.span := by
  induction pieces generalizing offset with
  | nil => exact List.Pairwise.nil
  | cons piece pieces ih =>
    have here := @piece_at [] pieces piece munched cut
    have cutBehind : Cut pieces := fun front back split => cut (piece :: front) back (by rw [split]; rfl)
    rw [List.flatMap_cons, List.length_append] at small
    apply List.pairwise_append.mpr
    refine ⟨faults_distinct (by omega), ih (by omega) munched.2 cutBehind, ?_⟩
    intro first isFirst second isSecond
    have before := faults_begin (by omega) here.stands here.encoded here.rest first isFirst
    rcases faultsOf_covers (by omega) munched.2 cutBehind isSecond with
      ⟨front, found, back, split, inner, slice, after, inside, nonempty, -, -, start, -⟩
    intro same
    have later := before.2
    rw [same, start] at later
    omega

/-! ## The tiling of a text -/

/-- The span is cut out of the text between characters. -/
structure Span.CutOf (span : Span) (bytes : List UInt8) : Prop where
  within : span.start.toNat + span.len.toNat ≤ bytes.length
  begins : isCharBoundary bytes span.start.toNat = true
  ends : isCharBoundary bytes (span.start.toNat + span.len.toNat) = true

def Span.slice (span : Span) (bytes : List UInt8) : List UInt8 :=
  (bytes.drop span.start.toNat).take span.len.toNat

theorem placed_cut {bytes before slice after : List UInt8} {span : Span}
    (whole : bytes = before ++ (slice ++ after)) (encoded : Encoded (slice ++ after))
    (rest : Encoded after) (placed : Placed before.length slice.length span) :
    span.CutOf bytes ∧ span.slice bytes = slice := by
  rcases placed with ⟨start, len⟩
  have total := congrArg List.length whole
  rw [List.length_append, List.length_append] at total
  refine ⟨⟨?_, ?_, ?_⟩, ?_⟩
  · rw [start, len]
    omega
  · rw [start, whole]
    exact isCharBoundary_append encoded.begins
  · rw [start, len, whole, ← List.append_assoc, ← List.length_append]
    exact isCharBoundary_append rest.begins
  · unfold Span.slice
    rw [start, len, whole, List.drop_left, List.take_left]

end Lexing

end KiraVm
