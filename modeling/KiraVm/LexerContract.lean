import KiraVm.LexerStream

/-!
# The contract of the lexer

For every text shorter than 2^32 bytes the tokens tile the text, each is lexed the
same alone, and each fault is reported once.
-/

namespace KiraVm

namespace Lexing

open Foundation

/-! ## Tokens alone -/

variable {kind : TokenKind} {first : UInt8} {bytes : List UInt8}

theorem keyword_kind {text : String} (known : TokenKind.keywordFromText text = some kind) :
    kind ≠ .unknown ∧ kind ≠ .eof := by
  unfold TokenKind.keywordFromText at known
  split at known
  all_goals
    cases known
    try decide

theorem three_kind {next after : Option UInt8}
    (known : Lexer.threeCharacters first next after = some kind) :
    kind ≠ .unknown ∧ kind ≠ .eof := by
  unfold Lexer.threeCharacters at known
  split at known
  all_goals
    cases known
    try decide

theorem two_kind {next : Option UInt8} (known : Lexer.twoCharacters first next = some kind) :
    kind ≠ .unknown ∧ kind ≠ .eof := by
  unfold Lexer.twoCharacters at known
  split at known
  all_goals
    cases known
    try decide

theorem single_kind (known : Lexer.singleCharacter first = some kind) :
    kind ≠ .unknown ∧ kind ≠ .eof := by
  unfold Lexer.singleCharacter at known
  split at known
  all_goals
    cases known
    try decide

variable {left : List UInt8}

theorem lexeme_kind (lexeme : Lexeme left kind bytes) : kind ≠ .unknown ∧ kind ≠ .eof := by
  cases lexeme with
  | @word first rest text =>
    cases known : TokenKind.keywordFromText text with
    | none => exact ⟨by decide, by decide⟩
    | some kind => exact keyword_kind known
  | hex => exact ⟨by decide, by decide⟩
  | int => exact ⟨by decide, by decide⟩
  | float => exact ⟨by decide, by decide⟩
  | three known => exact three_kind known
  | two known => exact two_kind known
  | single known => exact single_kind known

theorem three_alone (first : UInt8) (next : Option UInt8) :
    Lexer.threeCharacters first next none = none := by
  unfold Lexer.threeCharacters
  split
  all_goals first | rfl | contradiction

theorem two_alone (first : UInt8) : Lexer.twoCharacters first none = none := by
  unfold Lexer.twoCharacters
  split
  all_goals first | rfl | contradiction

/-- A token is one at the end of a text as well. -/
theorem lexeme_alone (lexeme : Lexeme left kind bytes) : Lexeme [] kind bytes := by
  have nothing {holds : UInt8 → Prop} : ∀ byte ∈ ([] : List UInt8).head?, holds byte :=
    fun byte first => by cases first
  cases lexeme with
  | word begins goesOn _ spelled => exact Lexeme.word begins goesOn nothing spelled
  | hex marked nonempty hexadecimal _ => exact Lexeme.hex marked nonempty hexadecimal nothing
  | int nonempty decimal =>
    exact Lexeme.int nonempty decimal nothing (fun _ _ split => by cases split)
      (fun _ _ _ _ split => by cases split)
  | float nonempty decimal someFraction decimalFraction =>
    exact Lexeme.float nonempty decimal someFraction decimalFraction nothing
  | three known => exact Lexeme.three known
  | two known => exact Lexeme.two known (three_alone _ _)
  | single known =>
    exact Lexeme.single known (two_alone _) (three_alone _ _)
      (fun _ => ⟨by decide, by decide⟩)

theorem literal_alone {parts : List Part} {ending : Ending}
    (stands : LiteralStands left ending parts) : LiteralStands [] ending parts := by
  induction parts with
  | nil =>
    cases ending with
    | closed => trivial
    | broken => exact fun byte first => by cases first
    | dangling => rfl
  | cons part parts ih =>
    refine ⟨?_, ih stands.2⟩
    cases part with
    | plain c => exact stands.1
    | escape letter => exact stands.1
    | newline => trivial
    | carriage => trivial
    | unknown c =>
      rcases stands.1 with ⟨notKnown, noNewline, noReturn⟩
      refine ⟨notKnown, noNewline, fun isReturn => ?_⟩
      cases inside : insideBytes parts ending with
      | nil => decide
      | cons byte rest =>
        have first := noReturn isReturn
        rw [inside] at first
        exact first

theorem lexeme_ascii (lexeme : Lexeme left kind bytes) : ∀ byte ∈ bytes.head?, byte < 128 := by
  have digits_ascii {digits rest : List UInt8} (nonempty : digits ≠ [])
      (decimal : ∀ byte ∈ digits, isAsciiDigit byte = true) :
      ∀ byte ∈ (digits ++ rest).head?, byte < 128 := by
    cases digits with
    | nil => exact absurd rfl nonempty
    | cons digit digits =>
      intro byte first
      cases first
      exact digits_ascii decimal digit (List.mem_cons_self ..)
  intro byte first
  cases lexeme with
  | word begins =>
    cases first
    exact ascii_bytes byte (Or.inl (letter_byte byte begins).2.2.1)
  | hex =>
    cases first
    decide
  | int nonempty decimal =>
    rw [← List.append_nil bytes] at first
    exact digits_ascii nonempty decimal byte first
  | float nonempty decimal => exact digits_ascii nonempty decimal byte first
  | three known =>
    cases first
    rcases three_shape known with ⟨_, _, -, -, ascii, -⟩
    exact ascii
  | two known =>
    cases first
    rcases two_shape known with ⟨_, -, ascii, -⟩
    exact ascii
  | single known =>
    cases first
    exact single_ascii byte (by rw [known]; exact Option.some_ne_none kind)

theorem relex (source : SourceId) {piece : Piece} (stands : piece.Stands left)
    (encoded : Encoded piece.bytes) (isKind : piece.kind = some kind) (known : kind ≠ .unknown) :
    ∃ own, textBytes own = piece.bytes ∧ (lex source own).tokens =
      [⟨kind, spanOf 0 piece.bytes.length⟩, eofToken piece.bytes.length] := by
  have alone : piece.Stands [] ∧ ∀ byte ∈ piece.bytes.head?, byte < 128 := by
    cases piece with
    | blank byte => cases isKind
    | lineComment body => cases isKind
    | blockComment bytes => cases isKind
    | openComment bytes => cases isKind
    | stray c => exact absurd (Option.some.inj isKind).symm known
    | token kind bytes => exact ⟨lexeme_alone stands, lexeme_ascii stands⟩
    | literal parts ending =>
      refine ⟨literal_alone stands, fun byte first => ?_⟩
      cases first
      decide
  rcases encoded with ⟨chars, spelled⟩
  have own : textBytes (String.ofList chars) = piece.bytes := by
    rw [textBytes_ofList, spelled]
  have start : beginning (textBytes (String.ofList chars)) = 0 := by
    rw [own]
    unfold beginning
    apply if_neg
    rintro ⟨rest, marked⟩
    have first := alone.2 0xef (by rw [← marked]; rfl)
    exact absurd first (by decide)
  have split : (textBytes (String.ofList chars)).drop
      (beginning (textBytes (String.ofList chars))) = [piece].flatMap Piece.bytes := by
    rw [start, own, List.flatMap_singleton, List.drop_zero]
  refine ⟨String.ofList chars, own, ?_⟩
  rw [lex_pieces source split ⟨alone.1, trivial⟩, start, own]
  unfold tokensOf Piece.tokens
  rw [isKind]
  rfl

/-! ## The tiling -/

/-- Bytes that belong to no token: a blank, a comment or a leading mark. -/
def IsTrivia (bytes : List UInt8) (start stop : Nat) : Prop :=
  (start = 0 ∧ stop = utf8Bom.length ∧ utf8Bom <+: bytes) ∨
    ∃ piece : Piece, piece.kind = none ∧ piece.Stands (bytes.drop stop) ∧
      bytes.drop start = piece.bytes ++ bytes.drop stop ∧ stop = start + piece.bytes.length

/-- The bytes of a span lie outside those between two offsets. -/
def Span.Outside (span : Span) (start stop : Nat) : Prop :=
  span.start.toNat + span.len.toNat ≤ start ∨ stop ≤ span.start.toNat

/-- The result tiles the text: it is what its pieces stand for. -/
structure Tiled (source : SourceId) (text : String) (pieces : List Piece) (result : LexResult) :
    Prop where
  whole : (textBytes text).drop (beginning (textBytes text)) = pieces.flatMap Piece.bytes
  munched : Munched pieces
  tokens : result.tokens = tokensOf (beginning (textBytes text)) pieces ++
    [eofToken (textBytes text).length]
  diagnostics : result.diagnostics = faultsOf source (beginning (textBytes text)) pieces
  nonempty : ∀ token ∈ tokensOf (beginning (textBytes text)) pieces, 0 < token.span.len.toNat
  ordered : result.tokens.Pairwise fun first second =>
    first.span.start.toNat + first.span.len.toNat ≤ second.span.start.toNat
  cut : ∀ token ∈ result.tokens, token.span.CutOf (textBytes text)
  covered : ∀ index < (textBytes text).length,
    (∃ token ∈ result.tokens, token.span.start.toNat ≤ index ∧
      index < token.span.start.toNat + token.span.len.toNat) ∨
    ∃ start stop, start ≤ index ∧ index < stop ∧ IsTrivia (textBytes text) start stop ∧
      ∀ token ∈ result.tokens, token.span.Outside start stop
  relexed : ∀ token ∈ result.tokens, token.kind ≠ .unknown →
    ∃ own, textBytes own = token.span.slice (textBytes text) ∧ (lex source own).tokens =
      (if token.kind = .eof then [] else [⟨token.kind, ⟨0, token.span.len⟩⟩]) ++
        [eofToken token.span.len.toNat]
  reported : ∀ token ∈ result.tokens, token.kind = .unknown →
    ∃ fault ∈ result.diagnostics, fault.site = ⟨source, token.span⟩
  once : result.diagnostics.Pairwise fun first second => first.site.span ≠ second.site.span
  sited : ∀ fault ∈ result.diagnostics, fault.site.span.CutOf (textBytes text)

theorem piece_containing {offset index : Nat} {pieces : List Piece} (least : offset ≤ index)
    (most : index < offset + (pieces.flatMap Piece.bytes).length) : ∃ front piece back,
      pieces = front ++ piece :: back ∧
        offset + (front.flatMap Piece.bytes).length ≤ index ∧
        index < offset + (front.flatMap Piece.bytes).length + piece.bytes.length := by
  induction pieces generalizing offset with
  | nil =>
    rw [List.flatMap_nil, List.length_nil] at most
    omega
  | cons piece pieces ih =>
    rw [List.flatMap_cons, List.length_append] at most
    by_cases here : index < offset + piece.bytes.length
    · exact ⟨[], piece, pieces, rfl, least, here⟩
    · rcases ih (Nat.not_lt.mp here) (by omega) with ⟨front, found, back, rfl, low, high⟩
      refine ⟨piece :: front, found, back, rfl, ?_⟩
      rw [List.flatMap_cons, List.length_append]
      omega

theorem tokensOf_piece {offset : Nat} {front back : List Piece} {piece : Piece}
    (isKind : piece.kind = some kind) :
    ⟨kind, spanOf (offset + (front.flatMap Piece.bytes).length) piece.bytes.length⟩ ∈
      tokensOf offset (front ++ piece :: back) := by
  rw [tokensOf_append]
  apply List.mem_append_right
  apply List.mem_append_left
  exact List.mem_map.mpr ⟨kind, Option.mem_toList.mpr isKind, rfl⟩

theorem encoded_nil : Encoded [] :=
  ⟨[], rfl⟩

section Text

variable {source : SourceId} {text : String} {pieces : List Piece}

/-- The bytes of the text are those of its pieces. -/
structure Tiling (text : String) (pieces : List Piece) : Prop where
  split : (textBytes text).drop (beginning (textBytes text)) = pieces.flatMap Piece.bytes
  munched : Munched pieces
  cut : Cut pieces
  short : (textBytes text).length < 2 ^ 32

namespace Tiling

theorem whole (tiling : Tiling text pieces) : textBytes text =
    (textBytes text).take (beginning (textBytes text)) ++ pieces.flatMap Piece.bytes := by
  rw [← tiling.split, List.take_append_drop]

theorem front_length : ((textBytes text).take (beginning (textBytes text))).length =
    beginning (textBytes text) := by
  rw [List.length_take]
  exact Nat.min_eq_left (beginning_le _)

theorem total (tiling : Tiling text pieces) :
    beginning (textBytes text) + (pieces.flatMap Piece.bytes).length =
      (textBytes text).length := by
  have counted := congrArg List.length tiling.whole
  rw [List.length_append, front_length] at counted
  exact counted.symm

theorem small (tiling : Tiling text pieces) :
    beginning (textBytes text) + (pieces.flatMap Piece.bytes).length < 2 ^ 32 := by
  rw [tiling.total]
  exact tiling.short

theorem drop_whole {bytes before after : List UInt8} (whole : bytes = before ++ after) :
    bytes.drop before.length = after := by
  rw [whole, List.drop_left]

theorem around {front back : List Piece} {piece : Piece}
    (tiling : Tiling text (front ++ piece :: back)) : textBytes text =
      ((textBytes text).take (beginning (textBytes text)) ++ front.flatMap Piece.bytes) ++
        (piece.bytes ++ back.flatMap Piece.bytes) := by
  conv => lhs; rw [tiling.whole]
  rw [List.flatMap_append, List.flatMap_cons]
  simp only [List.append_assoc]

theorem before_length (front : List Piece) :
    ((textBytes text).take (beginning (textBytes text)) ++ front.flatMap Piece.bytes).length =
      beginning (textBytes text) + (front.flatMap Piece.bytes).length := by
  rw [List.length_append, front_length]

theorem token (tiling : Tiling text pieces) {token : Token}
    (among : token ∈ tokensOf (beginning (textBytes text)) pieces) : ∃ front piece back,
      pieces = front ++ piece :: back ∧ At front piece back ∧ piece.kind = some token.kind ∧
        Placed (beginning (textBytes text) + (front.flatMap Piece.bytes).length)
          piece.bytes.length token.span ∧
        token.span.CutOf (textBytes text) ∧ token.span.slice (textBytes text) = piece.bytes := by
  rcases tokensOf_mem tiling.small among with ⟨front, piece, back, rfl, isKind, placed⟩
  have here := piece_at tiling.munched tiling.cut
  have placedThere := placed
  rw [← before_length] at placedThere
  rcases placed_cut tiling.around here.encoded here.rest placedThere with ⟨cut, slice⟩
  exact ⟨front, piece, back, rfl, here, isKind, placed, cut, slice⟩

theorem eof_placed (tiling : Tiling text pieces) :
    Placed (textBytes text).length 0 (eofToken (textBytes text).length).span :=
  ⟨UInt32.toNat_ofNat_of_lt' tiling.short, rfl⟩

theorem eof_cut (tiling : Tiling text pieces) :
    (eofToken (textBytes text).length).span.CutOf (textBytes text) ∧
      (eofToken (textBytes text).length).span.slice (textBytes text) = [] := by
  have whole : textBytes text = textBytes text ++ ([] ++ []) := by simp
  exact placed_cut whole encoded_nil encoded_nil tiling.eof_placed

theorem nonempty (tiling : Tiling text pieces) :
    ∀ token ∈ tokensOf (beginning (textBytes text)) pieces, 0 < token.span.len.toNat := by
  intro token among
  rcases tiling.token among with ⟨front, piece, back, rfl, here, isKind, placed, -, -⟩
  have isToken : piece.kind ≠ none := by
    rw [isKind]
    exact Option.some_ne_none _
  rcases Lexer.token_begins isToken here.stands with ⟨byte, rest, bytes, -, -⟩
  rw [placed.2, bytes]
  exact Nat.succ_pos _

theorem ordered (tiling : Tiling text pieces) :
    (tokensOf (beginning (textBytes text)) pieces ++
      [eofToken (textBytes text).length]).Pairwise fun first second =>
        first.span.start.toNat + first.span.len.toNat ≤ second.span.start.toNat := by
  apply List.pairwise_append.mpr
  refine ⟨tokensOf_ordered tiling.small, List.pairwise_singleton _ _, ?_⟩
  intro first isFirst second isSecond
  rcases tiling.token isFirst with ⟨-, -, -, -, -, -, -, cut, -⟩
  rw [List.mem_singleton.mp isSecond, tiling.eof_placed.1]
  exact cut.within

theorem covered (tiling : Tiling text pieces) (index : Nat)
    (inside : index < (textBytes text).length) :
    (∃ token ∈ tokensOf (beginning (textBytes text)) pieces,
      token.span.start.toNat ≤ index ∧
        index < token.span.start.toNat + token.span.len.toNat) ∨
    ∃ start stop, start ≤ index ∧ index < stop ∧ IsTrivia (textBytes text) start stop ∧
      stop ≤ (textBytes text).length ∧
      ∀ token ∈ tokensOf (beginning (textBytes text)) pieces, token.span.Outside start stop := by
  by_cases mark : index < beginning (textBytes text)
  · have marked : utf8Bom <+: textBytes text := by
      by_contra unmarked
      unfold beginning at mark
      rw [if_neg unmarked] at mark
      exact absurd mark (Nat.not_lt_zero _)
    have start : beginning (textBytes text) = utf8Bom.length := if_pos marked
    refine Or.inr ⟨0, beginning (textBytes text), Nat.zero_le _, mark,
      Or.inl ⟨rfl, start, marked⟩, beginning_le _, ?_⟩
    intro token among
    exact Or.inr (tokensOf_between tiling.small token among).1
  · have most := inside
    rw [← tiling.total] at most
    rcases piece_containing (Nat.not_lt.mp mark) most with ⟨front, piece, back, rfl, low, high⟩
    have total := tiling.total
    have small := tiling.small
    rw [List.flatMap_append, List.flatMap_cons, List.length_append, List.length_append]
      at total small
    cases isKind : piece.kind with
    | some kind =>
      have placed := @spanOf_toNat (beginning (textBytes text) +
        (front.flatMap Piece.bytes).length) piece.bytes.length (by omega)
      refine Or.inl ⟨_, tokensOf_piece isKind, ?_⟩
      rw [placed.1, placed.2]
      exact ⟨low, high⟩
    | none =>
      have here := piece_at tiling.munched tiling.cut
      have around := tiling.around
      have dropBefore : (textBytes text).drop (beginning (textBytes text) +
          (front.flatMap Piece.bytes).length) = piece.bytes ++ back.flatMap Piece.bytes := by
        rw [← before_length]
        exact drop_whole around
      have dropBehind : (textBytes text).drop (beginning (textBytes text) +
          (front.flatMap Piece.bytes).length + piece.bytes.length) =
            back.flatMap Piece.bytes := by
        rw [← List.drop_drop, dropBefore, List.drop_left]
      refine Or.inr ⟨_, _, low, high, Or.inr ⟨piece, isKind, ?_, ?_, rfl⟩, by omega, ?_⟩
      · rw [dropBehind]
        exact here.stands
      · rw [dropBefore, dropBehind]
      · intro token among
        rw [tokensOf_append] at among
        rcases List.mem_append.mp among with inFront | behind
        · exact Or.inl (tokensOf_between (by omega) token inFront).2
        · unfold tokensOf Piece.tokens at behind
          rw [isKind] at behind
          exact Or.inr (tokensOf_between (by omega) token behind).1

theorem placed_unique {offset length : Nat} {first second : Span} (one : Placed offset length first)
    (other : Placed offset length second) : first = second := by
  rcases first with ⟨start, len⟩
  rcases second with ⟨otherStart, otherLen⟩
  have starts : start = otherStart := UInt32.toNat_inj.mp (one.1.trans other.1.symm)
  have lens : len = otherLen := UInt32.toNat_inj.mp (one.2.trans other.2.symm)
  rw [starts, lens]

theorem relexed (tiling : Tiling text pieces) (source : SourceId) {token : Token}
    (among : token ∈ tokensOf (beginning (textBytes text)) pieces)
    (known : token.kind ≠ .unknown) : token.kind ≠ .eof ∧
      ∃ own, textBytes own = token.span.slice (textBytes text) ∧ (lex source own).tokens =
        [⟨token.kind, ⟨0, token.span.len⟩⟩] ++ [eofToken token.span.len.toNat] := by
  rcases tiling.token among with ⟨front, piece, back, rfl, here, isKind, placed, cut, slice⟩
  have noEof : token.kind ≠ .eof := by
    have stands := here.stands
    cases piece with
    | blank byte => cases isKind
    | lineComment body => cases isKind
    | blockComment bytes => cases isKind
    | openComment bytes => cases isKind
    | token kind bytes =>
      rw [← Option.some.inj isKind]
      exact (lexeme_kind stands).2
    | literal parts ending =>
      rw [← Option.some.inj isKind]
      decide
    | stray c => exact absurd (Option.some.inj isKind).symm known
  rcases relex source here.stands (here.encoded.cut here.rest.begins).1 isKind known with
    ⟨own, spelled, lexed⟩
  refine ⟨noEof, own, by rw [spelled, slice], ?_⟩
  have small : 0 + piece.bytes.length < 2 ^ 32 := by
    rw [← placed.2, Nat.zero_add]
    exact token.span.len.toNat_lt
  have same : spanOf 0 piece.bytes.length = ⟨0, token.span.len⟩ :=
    placed_unique (spanOf_toNat small) ⟨rfl, placed.2⟩
  rw [lexed, same, placed.2]
  rfl

theorem reported (tiling : Tiling text pieces) (source : SourceId) {token : Token}
    (among : token ∈ tokensOf (beginning (textBytes text)) pieces)
    (unknown : token.kind = .unknown) :
    ∃ fault ∈ faultsOf source (beginning (textBytes text)) pieces,
      fault.site = ⟨source, token.span⟩ := by
  rcases tiling.token among with ⟨front, piece, back, rfl, here, isKind, placed, cut, slice⟩
  have stands := here.stands
  rw [unknown] at isKind
  cases piece with
  | blank byte => cases isKind
  | lineComment body => cases isKind
  | blockComment bytes => cases isKind
  | openComment bytes => cases isKind
  | token kind bytes => exact absurd (Option.some.inj isKind) (lexeme_kind stands).1
  | literal parts ending => cases isKind
  | stray c =>
    have small := tiling.small
    rw [List.flatMap_append, List.flatMap_cons, List.length_append, List.length_append] at small
    have same := placed_unique placed (spanOf_toNat (by omega))
    refine ⟨Lexer.unknownReport source (firstByte c) (String.utf8EncodeChar c) token.span, ?_, ?_⟩
    · rw [same]
      exact faultsOf_piece (List.mem_singleton.mpr rfl)
    · unfold Lexer.unknownReport
      split_ifs <;> rfl

theorem sited (tiling : Tiling text pieces) {fault : Diagnostic}
    (among : fault ∈ faultsOf source (beginning (textBytes text)) pieces) :
    fault.site.span.CutOf (textBytes text) := by
  rcases faultsOf_covers tiling.small tiling.munched tiling.cut among with
    ⟨front, piece, back, rfl, before, slice, after, inside, -, encoded, rest, placed⟩
  have whole : textBytes text = (((textBytes text).take (beginning (textBytes text)) ++
      front.flatMap Piece.bytes) ++ before) ++ (slice ++ (after ++ back.flatMap Piece.bytes)) := by
    conv => lhs; rw [tiling.around, inside]
    simp only [List.append_assoc]
  rw [← before_length, ← List.length_append] at placed
  exact (placed_cut whole encoded rest placed).1

end Tiling

end Text

/-- The lexer answers every text, with tokens that tile it and one diagnostic for each fault. -/
theorem lex_tiles (source : SourceId) (text : String) (short : (textBytes text).length < 2 ^ 32) :
    ∃ pieces, Tiled source text pieces (lex source text) := by
  rcases munched_pieces (encoded_beginning (encoded_text text)) with ⟨pieces, split, munched, cut⟩
  have tiling : Tiling text pieces := ⟨split, munched, cut, short⟩
  have eofPlaced := tiling.eof_placed
  refine ⟨pieces, ?_⟩
  rw [lex_pieces source split munched]
  constructor
  · exact split
  · exact munched
  · rfl
  · rfl
  · exact tiling.nonempty
  · exact tiling.ordered
  · intro token among
    rcases List.mem_append.mp among with inPieces | isEof
    · rcases tiling.token inPieces with ⟨-, -, -, -, -, -, -, cut, -⟩
      exact cut
    · rw [List.mem_singleton.mp isEof]
      exact tiling.eof_cut.1
  · intro index inside
    rcases tiling.covered index inside with
      ⟨token, among, here⟩ | ⟨start, stop, low, high, trivia, within, outside⟩
    · exact Or.inl ⟨token, List.mem_append_left _ among, here⟩
    · refine Or.inr ⟨start, stop, low, high, trivia, ?_⟩
      intro token among
      rcases List.mem_append.mp among with inPieces | isEof
      · exact outside token inPieces
      · rw [List.mem_singleton.mp isEof]
        refine Or.inr ?_
        rw [eofPlaced.1]
        exact within
  · intro token among known
    rcases List.mem_append.mp among with inPieces | isEof
    · rcases tiling.relexed source inPieces known with ⟨noEof, own, spelled, lexed⟩
      rw [if_neg noEof]
      exact ⟨own, spelled, lexed⟩
    · have kind : (eofToken (textBytes text).length).kind = .eof := rfl
      rw [List.mem_singleton.mp isEof, if_pos kind]
      refine ⟨"", tiling.eof_cut.2.symm, ?_⟩
      rw [@lex_pieces source "" [] rfl trivial]
      rfl
  · intro token among unknown
    rcases List.mem_append.mp among with inPieces | isEof
    · exact tiling.reported source inPieces unknown
    · rw [List.mem_singleton.mp isEof] at unknown
      cases unknown
  · exact faultsOf_distinct tiling.small munched cut
  · exact fun fault among => tiling.sited among

/-- A text with an unknown escape, a stray character and a comment that is not closed. -/
theorem lex_tiles_faults : ∃ pieces,
    Tiled 0 "\ufefflet s = \"a\\λ\" ; /* λ" pieces (lex 0 "\ufefflet s = \"a\\λ\" ; /* λ") :=
  lex_tiles 0 "\ufefflet s = \"a\\λ\" ; /* λ" (by decide)

end Lexing

end KiraVm
