import KiraVm.JsonReads

/-!
# Reading values

Every value of the grammar is taken as what it denotes, by induction on how it is
derived; a value nests as deep as the frames and the nesting limit allow.
-/

namespace KiraVm

namespace Foundation

open StateLogic

open Json

namespace JsonReader

/-- Nothing, or what may stand behind a value in a document. -/
def Follows (bytes : List UInt8) : Prop :=
  ∀ byte ∈ bytes.head?, IsBlank byte ∨ byte = 44 ∨ byte = 93 ∨ byte = 125

theorem Follows.ends {left : List UInt8} (follows : Follows left) : Ends left := by
  have differs : ∀ byte ∈ left.head?, isDigit byte = false ∧ byte ≠ 46 ∧ byte ≠ 101 ∧ byte ≠ 69 := by
    intro byte first
    rcases follows byte first with blank | rfl | rfl | rfl
    · rcases blank with rfl | rfl | rfl | rfl <;> decide
    all_goals decide
  constructor
  · exact fun byte first => (differs byte first).1
  · exact fun first => (differs 46 first).2.1 rfl
  · rintro (first | first)
    · exact (differs 101 first).2.2.1 rfl
    · exact (differs 69 first).2.2.2 rfl

theorem follows_behind_blanks {blanks left : List UInt8} (blank : Blanks blanks)
    (follows : Follows left) : Follows (blanks ++ left) := by
  cases blanks with
  | nil => exact follows
  | cons byte blanks =>
    intro first isFirst
    cases isFirst
    exact Or.inl (blank byte (List.mem_cons_self ..))

/-! ## How a value begins -/

/-- The bytes begin with one that is no blank and closes no bracket. -/
def Opens (bytes : List UInt8) : Prop :=
  ∃ byte rest, bytes = byte :: rest ∧ ¬ IsBlank byte ∧ byte ≠ 93 ∧ byte ≠ 125

variable {bytes : List UInt8}

theorem Opens.noBlank (opens : Opens bytes) (left : List UInt8) : NoBlank (bytes ++ left) := by
  rcases opens with ⟨byte, rest, rfl, solid, -, -⟩
  intro first isFirst
  cases isFirst
  exact solid

theorem Opens.append (opens : Opens bytes) (left : List UInt8) : Opens (bytes ++ left) := by
  rcases opens with ⟨byte, rest, rfl, differs⟩
  exact ⟨byte, rest ++ left, rfl, differs⟩

theorem quoted_opens {text : String} (quoted : Quoted bytes text) : ∃ rest, bytes = 34 :: rest := by
  rcases quoted with ⟨content, rfl, -⟩
  exact ⟨_, rfl⟩

theorem literal_opens {literal : Literal} (well : literal.IsWell) :
    ∃ byte rest, literal.bytes = byte :: rest ∧ (byte = 45 ∨ isDigit byte = true) := by
  rcases literal with ⟨negative, whole⟩
  rcases well.whole with ⟨some, decimal⟩
  cases negative with
  | true => exact ⟨45, _, rfl, Or.inl rfl⟩
  | false =>
    cases whole with
    | nil => exact absurd rfl some
    | cons byte whole =>
      exact ⟨byte, _, rfl, Or.inr ((isDigit_iff byte).mpr (decimal byte (List.mem_cons_self ..)))⟩

theorem digit_solid {byte : UInt8} (begins : byte = 45 ∨ isDigit byte = true) :
    ¬ IsBlank byte ∧ byte ≠ 93 ∧ byte ≠ 125 ∧ byte ≠ 123 ∧ byte ≠ 91 ∧ byte ≠ 34 ∧ byte ≠ 116 ∧
      byte ≠ 102 ∧ byte ≠ 110 := by
  rcases begins with rfl | digit
  · decide
  · rw [isDigit_iff] at digit
    have low := UInt8.le_iff_toNat_le.mp digit.1
    have high := UInt8.le_iff_toNat_le.mp digit.2
    simp only [IsBlank, ← UInt8.toNat_inj, ne_eq]
    simp at low high ⊢
    omega

theorem value_opens {depth : Nat} {value : JsonValue}
    (denotes : Denotes depth bytes (.value value)) : Opens bytes := by
  cases denotes with
  | null | true | false => exact ⟨_, _, rfl, by decide⟩
  | integer well isInt =>
    rcases literal_opens well with ⟨byte, rest, split, begins⟩
    exact ⟨byte, rest, split, (digit_solid begins).1, (digit_solid begins).2.1,
      (digit_solid begins).2.2.1⟩
  | text quoted =>
    rcases quoted_opens quoted with ⟨rest, rfl⟩
    exact ⟨_, _, rfl, by decide⟩
  | emptyArray | array | emptyObject | object => exact ⟨_, _, rfl, by decide⟩

theorem member_opens {depth : Nat} {member : JsonMember}
    (denotes : Denotes depth bytes (.member member)) : ∃ rest, bytes = 34 :: rest := by
  cases denotes with
  | member named =>
    rcases quoted_opens named with ⟨rest, rfl⟩
    exact ⟨_, rfl⟩

/-! ## Values of one token -/

section Cursor

variable {reader : JsonReader} {rest left : List UInt8}

/-- What `readValue` does with its first byte. -/
def valueBehind (frames : Nat) (byte : UInt8) : OnJson JsonValue :=
  if byte = 123 then readObject (readValue frames)
  else if byte = 91 then readArray (readValue frames)
  else if byte = 34 then readTextValue
  else if byte = 116 then readWord "true" (.boolean true)
  else if byte = 102 then readWord "false" (.boolean false)
  else if byte = 110 then readWord "null" .null
  else if byte = 45 ∨ isDigit byte then readNumber
  else refuseHere (some byte) .null

theorem readValue_run {byte : UInt8} (frames : Nat) (stands : Stands reader (byte :: rest)) :
    readValue (frames + 1) reader = valueBehind frames byte reader := by
  simp only [readValue]
  rw [bind_run_ok (peek_run stands)]
  rfl

theorem valueBehind_number {byte : UInt8} (frames : Nat)
    (begins : byte = 45 ∨ isDigit byte = true) : valueBehind frames byte = readNumber := by
  rcases digit_solid begins with ⟨-, -, -, notObject, notArray, notQuote, notTrue, notFalse, notNull⟩
  unfold valueBehind
  rw [if_neg notObject, if_neg notArray, if_neg notQuote, if_neg notTrue, if_neg notFalse,
    if_neg notNull, if_pos begins]

variable {bytes before after : List UInt8} {depth : Nat}

theorem readTextValue_takes {text : String} (quoted : Quoted bytes text)
    (stands : Stands reader (bytes ++ left)) :
    readTextValue reader = .ok (.text text) (reader.advance bytes.length) := by
  have goesOn : (reader.advance bytes.length).stopped = false := stands.advance.goesOn
  simp only [readTextValue]
  rw [bind_run_ok (readText_takes quoted stands), bind_run_ok (get_run _), goesOn,
    if_neg (by decide)]
  rfl

theorem readWord_takes {word : String} (value : JsonValue)
    (stands : Stands reader (textBytes word ++ left)) :
    readWord word value reader = .ok value (reader.advance (textBytes word).length) := by
  simp only [readWord]
  rw [bind_run_ok (readKeyword_takes stands), if_pos rfl]
  rfl

/-! ## Members -/

/-- What `readMember` does behind its name. -/
theorem readMember_named {answer : OnJson JsonValue} {nameBytes : List UInt8} {name : String}
    (named : Quoted nameBytes name) (blankBefore : Blanks before) (stops : NoBlank left)
    (stands : Stands reader (nameBytes ++ (before ++ left))) :
    readMember answer reader =
      (if left.head? ≠ some 58 then refuseHere left.head? (.mk "" .null)
      else do
        moveBy 1
        skipWhitespace
        let value ← answer
        pure (.mk name value)) (reader.advance (nameBytes.length + before.length)) := by
  have behind := stands.advance
  have goesOn : (reader.advance nameBytes.length).stopped = false := behind.goesOn
  have quote : (nameBytes ++ (before ++ left)).head? = some 34 := by
    rcases quoted_opens named with ⟨content, rfl⟩
    rfl
  simp only [readMember]
  rw [bind_run_ok (peek_run stands), quote, if_neg (not_not.mpr rfl),
    bind_run_ok (readText_takes named stands), bind_run_ok (get_run _), goesOn,
    if_neg (by decide), bind_run_ok (skipWhitespace_takes blankBefore stops behind),
    bind_run_ok (peek_run behind.advance), advance_advance]

/-- What `readMember` does of the value behind its colon. -/
theorem readMember_value {answer : OnJson JsonValue} {nameBytes : List UInt8}
    {name : String} {value : JsonValue} {final : JsonReader} (named : Quoted nameBytes name)
    (blankBefore : Blanks before) (blankAfter : Blanks after) (opens : NoBlank left)
    (stands : Stands reader (nameBytes ++ (before ++ 58 :: (after ++ left))))
    (ran : answer (reader.advance (nameBytes.length + before.length + 1 + after.length)) =
      .ok value final) :
    readMember answer reader = .ok (.mk name value) final := by
  have colon : NoBlank (58 :: (after ++ left)) := by
    intro byte first
    cases first
    decide
  have behind := stands.advance.advance.step
  simp only [advance_advance] at behind
  rw [readMember_named named blankBefore colon stands, List.head?_cons, if_neg (not_not.mpr rfl),
    bind_run_ok (moveBy_run _ _), advance_advance,
    bind_run_ok (skipWhitespace_takes blankAfter opens behind), advance_advance, bind_run_ok ran]
  rfl

theorem member_length (nameBytes before after bytes : List UInt8) :
    (nameBytes ++ (before ++ 58 :: (after ++ bytes))).length =
      nameBytes.length + before.length + 1 + after.length + bytes.length := by
  simp only [List.length_append, List.length_cons]
  omega

/-! ## Brackets -/

section Brackets

variable {α : Type} {close : UInt8} {answer : List α → JsonValue} {readElement : OnJson α}

theorem Stands.deeper (stands : Stands reader rest) : Stands reader.deeper rest :=
  ⟨stands.goesOn, stands.sized, stands.left, stands.within⟩

/-- What `readBracketed` does behind the bracket, when the nesting limit allows it. -/
theorem readBracketed_inside {bracket : UInt8} {blanks : List UInt8}
    (room : reader.depth < jsonMaxDepth) (blank : Blanks blanks) (opens : NoBlank left)
    (stands : Stands reader (bracket :: (blanks ++ left))) :
    readBracketed close answer readElement reader =
      (if left.head? = some close then do
        moveBy 1
        modify shallower
        pure (answer [])
      else readElementsFrom close answer readElement []
        (reader.deeper.advance (1 + blanks.length)).turnsOf)
        (reader.deeper.advance (1 + blanks.length)) := by
  have inside := stands.deeper.step
  have within : ¬ jsonMaxDepth < reader.deeper.depth := Nat.not_lt.mpr room
  have entered : (modify deeper : OnJson Unit) reader = .ok () reader.deeper := rfl
  conv => lhs; simp only [readBracketed]
  rw [bind_run_ok entered, bind_run_ok (get_run _), if_neg within, bind_run_ok (moveBy_run _ _),
    bind_run_ok (skipWhitespace_takes blank opens inside),
    bind_run_ok (peek_run inside.advance), advance_advance]
  rfl

theorem readBracketed_empty {bracket : UInt8} {blanks : List UInt8}
    (room : reader.depth < jsonMaxDepth) (blank : Blanks blanks) (closing : ¬ IsBlank close)
    (stands : Stands reader (bracket :: (blanks ++ close :: left))) :
    readBracketed close answer readElement reader =
      .ok (answer []) (reader.advance (bracket :: (blanks ++ [close])).length) := by
  have shut : NoBlank (close :: left) := by
    intro byte first
    cases first
    exact closing
  have spans : (bracket :: (blanks ++ [close])).length = 1 + blanks.length + 1 := by
    rw [List.length_cons, List.length_append, List.length_singleton]
    omega
  rw [readBracketed_inside room blank shut stands, List.head?_cons, if_pos rfl,
    bind_run_ok (moveBy_run _ _), advance_advance, spans]
  rfl

theorem readBracketed_some {bracket : UInt8} {before inside : List UInt8} {elements : List α}
    (room : reader.depth < jsonMaxDepth) (blank : Blanks before) (opens : NoBlank (inside ++ left))
    (notClose : (inside ++ left).head? ≠ some close)
    (stands : Stands reader (bracket :: (before ++ (inside ++ left))))
    (ran : ∀ turns, (before ++ inside).length < turns →
      readElementsFrom close answer readElement [] turns (reader.deeper.advance 1) =
        .ok (answer elements)
          ((reader.deeper.advance 1).closed ((before ++ inside).length + 1))) :
    readBracketed close answer readElement reader =
      .ok (answer elements) (reader.advance (bracket :: (before ++ inside ++ [close])).length) := by
  have begun := stands.deeper.step
  have enough : (before ++ inside).length < reader.size + 1 := by
    have counted : (before ++ (inside ++ left)).length < reader.size + 1 := begun.turns
    rw [← List.append_assoc, List.length_append] at counted
    exact Nat.lt_of_le_of_lt (Nat.le_add_right _ _) counted
  have spans : (bracket :: (before ++ inside ++ [close])).length =
      1 + ((before ++ inside).length + 1) := by
    rw [List.length_cons, List.length_append, List.length_singleton]
    omega
  have skipped := @readElementsFrom_skipped (reader.deeper.advance 1) (inside ++ left) α close
    answer readElement before blank opens begun [] reader.size
  rw [advance_advance] at skipped
  rw [readBracketed_inside room blank opens stands, if_neg notClose]
  change readElementsFrom close answer readElement [] (reader.size + 1) _ = _
  rw [skipped, ran _ enough, spans]
  simp only [closed, advance_advance]
  rfl

end Brackets

/-! ## Phrases -/

def Takes (frames : Nat) (reader : JsonReader) (bytes left : List UInt8) : Phrase → Prop
  | .value value => Follows left →
      readValue frames reader = .ok value (reader.advance bytes.length)
  | .member member => Follows left →
      readMember (readValue frames) reader = .ok member (reader.advance bytes.length)
  | .elements items => ∀ rest acc turns, left = 93 :: rest → bytes.length < turns →
      readElementsFrom 93 .array (readValue frames) acc turns reader =
        .ok (.array (acc ++ items)) (reader.closed (bytes.length + 1))
  | .members members => ∀ rest acc turns, left = 125 :: rest → bytes.length < turns →
      readElementsFrom 125 .object (readMember (readValue frames)) acc turns reader =
        .ok (.object (acc ++ members)) (reader.closed (bytes.length + 1))

theorem elements_open {items : List JsonValue} (denotes : Denotes depth bytes (.elements items)) :
    ∃ before inside, bytes = before ++ inside ∧ Blanks before ∧ Opens inside := by
  cases denotes with
  | lastElement blankBefore denotes _ =>
    exact ⟨_, _, rfl, blankBefore, (value_opens denotes).append _⟩
  | moreElements blankBefore denotes _ _ =>
    exact ⟨_, _, rfl, blankBefore, (value_opens denotes).append _⟩

theorem opens_quote (quoted : ∃ rest, bytes = 34 :: rest) : Opens bytes := by
  rcases quoted with ⟨rest, rfl⟩
  exact ⟨34, rest, rfl, by decide⟩

theorem members_open {members : List JsonMember}
    (denotes : Denotes depth bytes (.members members)) :
    ∃ before inside, bytes = before ++ inside ∧ Blanks before ∧ Opens inside := by
  cases denotes with
  | lastMember blankBefore denotes _ =>
    exact ⟨_, _, rfl, blankBefore, (opens_quote (member_opens denotes)).append _⟩
  | moreMembers blankBefore denotes _ _ =>
    exact ⟨_, _, rfl, blankBefore, (opens_quote (member_opens denotes)).append _⟩

theorem Opens.head (opens : Opens bytes) (left : List UInt8) :
    (bytes ++ left).head? ≠ some 93 ∧ (bytes ++ left).head? ≠ some 125 := by
  rcases opens with ⟨byte, rest, rfl, -, notArray, notObject⟩
  exact ⟨fun same => notArray (Option.some.inj same), fun same => notObject (Option.some.inj same)⟩

theorem takes_last {α : Type} {close : UInt8} {answer : List α → JsonValue}
    {readElement : OnJson α} {element : α} (blankBefore : Blanks before)
    (blankAfter : Blanks after) (opens : Opens bytes) (closes : close = 93 ∨ close = 125)
    (stands : Stands reader (before ++ (bytes ++ after) ++ close :: rest))
    (ran : Follows (after ++ close :: rest) → readElement (reader.advance before.length) =
      .ok element ((reader.advance before.length).advance bytes.length)) (acc : List α)
    (turns : Nat) (enough : (before ++ (bytes ++ after)).length < turns) :
    readElementsFrom close answer readElement acc turns reader =
      .ok (answer (acc ++ [element])) (reader.closed ((before ++ (bytes ++ after)).length + 1)) := by
  have follows : Follows (after ++ close :: rest) := by
    apply follows_behind_blanks blankAfter
    intro byte first
    cases first
    exact Or.inr (Or.inr closes)
  have spans : (before ++ (bytes ++ after)).length =
      before.length + (bytes.length + after.length) := by
    rw [List.length_append, List.length_append]
  have shut : ¬ IsBlank close ∧ close ≠ 44 := by
    rcases closes with rfl | rfl <;> decide
  rw [List.append_assoc, List.append_assoc] at stands
  cases turns with
  | zero => exact absurd enough (Nat.not_lt_zero _)
  | succ turns =>
    rw [spans]
    exact readElementsFrom_last blankBefore (opens.noBlank _) stands rfl
      ((ran follows).trans (by rw [advance_advance])) blankAfter shut.1 shut.2 acc turns

/-- An element, the comma behind it and what `more` says of the rest. -/
theorem takes_more {α : Type} {close : UInt8} {answer : List α → JsonValue}
    {readElement : OnJson α} {more : List UInt8} {element : α}
    {elements : List α} (blankBefore : Blanks before) (blankAfter : Blanks after)
    (opens : Opens bytes)
    (stands : Stands reader (before ++ (bytes ++ (after ++ 44 :: more)) ++ left))
    (ran : Follows (after ++ 44 :: (more ++ left)) →
      readElement (reader.advance before.length) =
        .ok element ((reader.advance before.length).advance bytes.length))
    (acc : List α) (turns : Nat)
    (enough : (before ++ (bytes ++ (after ++ 44 :: more))).length < turns)
    (onward : ∀ turns, more.length < turns →
      readElementsFrom close answer readElement (acc ++ [element]) turns
          (reader.advance (before.length + (bytes.length + after.length) + 1)) =
        .ok (answer (acc ++ [element] ++ elements))
          ((reader.advance (before.length + (bytes.length + after.length) + 1)).closed
            (more.length + 1))) :
    readElementsFrom close answer readElement acc turns reader =
      .ok (answer (acc ++ element :: elements))
        (reader.closed ((before ++ (bytes ++ (after ++ 44 :: more))).length + 1)) := by
  have follows : Follows (after ++ 44 :: (more ++ left)) := by
    apply follows_behind_blanks blankAfter
    intro byte first
    cases first
    exact Or.inr (Or.inl rfl)
  have spans : (before ++ (bytes ++ (after ++ 44 :: more))).length + 1 =
      before.length + (bytes.length + after.length) + 1 + (more.length + 1) := by
    simp only [List.length_append, List.length_cons]
    omega
  have fewer : more.length + 1 < turns := by
    simp only [List.length_append, List.length_cons] at enough
    omega
  simp only [List.append_assoc, List.cons_append] at stands
  cases turns with
  | zero => exact absurd enough (Nat.not_lt_zero _)
  | succ turns =>
    rw [readElementsFrom_more blankBefore (opens.noBlank _) stands rfl
      ((ran follows).trans (by rw [advance_advance])) blankAfter acc turns,
      onward turns (Nat.lt_of_succ_lt_succ fewer), spans]
    simp only [closed, advance_advance, List.append_assoc, List.singleton_append]

theorem takes {phrase : Phrase} (denotes : Denotes depth bytes phrase) {frames : Nat}
    (room : depth < frames) (stands : Stands reader (bytes ++ left))
    (nested : reader.depth + depth ≤ jsonMaxDepth) : Takes frames reader bytes left phrase := by
  induction denotes generalizing frames reader left with
  | null | true | false =>
    cases frames with
    | zero => exact absurd room (Nat.not_lt_zero _)
    | succ frames => exact fun _ => (readValue_run frames stands).trans (readWord_takes _ stands)
  | integer well isInt =>
    cases frames with
    | zero => exact absurd room (Nat.not_lt_zero _)
    | succ frames =>
      intro follows
      rcases literal_opens well with ⟨byte, rest, split, begins⟩
      have here := stands
      rw [split] at here
      rw [readValue_run frames here, valueBehind_number frames begins]
      exact readNumber_takes well isInt follows.ends stands
  | text quoted =>
    cases frames with
    | zero => exact absurd room (Nat.not_lt_zero _)
    | succ frames =>
      intro follows
      rcases quoted_opens quoted with ⟨rest, split⟩
      have here := stands
      rw [split] at here
      exact (readValue_run frames here).trans (readTextValue_takes quoted stands)
  | @emptyArray depth blanks blank =>
    cases frames with
    | zero => exact absurd room (Nat.not_lt_zero _)
    | succ frames =>
      intro follows
      have within : reader.depth < jsonMaxDepth := by omega
      rw [List.cons_append, List.append_assoc] at stands
      exact (readValue_run frames stands).trans
        (readBracketed_empty within blank (by decide) stands)
  | @emptyObject depth blanks blank =>
    cases frames with
    | zero => exact absurd room (Nat.not_lt_zero _)
    | succ frames =>
      intro follows
      have within : reader.depth < jsonMaxDepth := by omega
      rw [List.cons_append, List.append_assoc] at stands
      exact (readValue_run frames stands).trans
        (readBracketed_empty within blank (by decide) stands)
  | @array depth bytes items inside ih =>
    cases frames with
    | zero => exact absurd room (Nat.not_lt_zero _)
    | succ frames =>
      intro follows
      have within : reader.depth < jsonMaxDepth := by omega
      have deep : reader.deeper.depth + depth ≤ jsonMaxDepth := by
        change reader.depth + 1 + depth ≤ jsonMaxDepth
        omega
      rcases elements_open inside with ⟨before, behind, rfl, blank, opens⟩
      rw [List.cons_append, List.append_assoc, List.append_assoc] at stands
      have begun := stands.deeper.step
      rw [← List.append_assoc] at begun
      have ran := fun turns enough =>
        ih (Nat.lt_of_succ_lt_succ room) begun deep left [] turns rfl enough
      exact (readValue_run frames stands).trans
        (readBracketed_some within blank (opens.noBlank _) (opens.head _).1 stands ran)
  | @object depth bytes members inside ih =>
    cases frames with
    | zero => exact absurd room (Nat.not_lt_zero _)
    | succ frames =>
      intro follows
      have within : reader.depth < jsonMaxDepth := by omega
      have deep : reader.deeper.depth + depth ≤ jsonMaxDepth := by
        change reader.depth + 1 + depth ≤ jsonMaxDepth
        omega
      rcases members_open inside with ⟨before, behind, rfl, blank, opens⟩
      rw [List.cons_append, List.append_assoc, List.append_assoc] at stands
      have begun := stands.deeper.step
      rw [← List.append_assoc] at begun
      have ran := fun turns enough =>
        ih (Nat.lt_of_succ_lt_succ room) begun deep left [] turns rfl enough
      exact (readValue_run frames stands).trans
        (readBracketed_some within blank (opens.noBlank _) (opens.head _).2 stands ran)
  | @member depth nameBytes before after bytes name value named blankBefore blankAfter denotes ih =>
    intro follows
    have split : nameBytes ++ (before ++ 58 :: (after ++ bytes)) ++ left =
        nameBytes ++ (before ++ 58 :: (after ++ (bytes ++ left))) := by
      simp only [List.append_assoc, List.cons_append]
    rw [split] at stands
    have begun := stands.advance.advance.step.advance
    simp only [advance_advance] at begun
    have ran := ih room begun nested follows
    rw [advance_advance] at ran
    rw [member_length]
    exact readMember_value named blankBefore blankAfter ((value_opens denotes).noBlank left)
      stands ran
  | lastElement blankBefore denotes blankAfter ih =>
    intro rest acc turns closing enough
    subst closing
    have begun := stands
    rw [List.append_assoc, List.append_assoc] at begun
    exact takes_last blankBefore blankAfter (value_opens denotes) (Or.inl rfl) stands
      (ih room begun.advance nested) acc turns enough
  | lastMember blankBefore denotes blankAfter ih =>
    intro rest acc turns closing enough
    subst closing
    have begun := stands
    rw [List.append_assoc, List.append_assoc] at begun
    exact takes_last blankBefore blankAfter (opens_quote (member_opens denotes)) (Or.inr rfl)
      stands (ih room begun.advance nested) acc turns enough
  | moreElements blankBefore denotes blankAfter more ih ihMore =>
    intro rest acc turns closing enough
    have begun := stands
    simp only [List.append_assoc, List.cons_append] at begun
    have behind := begun.advance.advance.advance.step
    simp only [advance_advance] at behind
    refine takes_more blankBefore blankAfter (value_opens denotes) stands
      (ih room begun.advance nested) acc turns enough ?_
    intro turns enough
    rw [← Nat.add_assoc]
    exact ihMore room behind nested rest _ turns closing enough
  | moreMembers blankBefore denotes blankAfter more ih ihMore =>
    intro rest acc turns closing enough
    have begun := stands
    simp only [List.append_assoc, List.cons_append] at begun
    have behind := begun.advance.advance.advance.step
    simp only [advance_advance] at behind
    refine takes_more blankBefore blankAfter (opens_quote (member_opens denotes)) stands
      (ih room begun.advance nested) acc turns enough ?_
    intro turns enough
    rw [← Nat.add_assoc]
    exact ihMore room behind nested rest _ turns closing enough

end Cursor

end JsonReader

end Foundation

end KiraVm
