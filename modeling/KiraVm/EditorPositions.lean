import KiraVm.TextSlices
import Mathlib.Order.Bounds.Basic

/-!
# Positions of an editor

An editor names a place by its line and its UTF-16 character, the compiler by its
byte offset.  `convert.rs` goes from one to the other over the line map of
`line_map.rs`; `none` stands for a panic.
-/

namespace KiraVm

namespace Editor

open Foundation

/-- A cast to 32 bits. -/
def asU32 (count : Nat) : Nat :=
  count % 2 ^ 32

structure LineMap where
  lineStarts : List Nat

/-- The starts of the lines behind the newlines among bytes, the first of which is at `index`. -/
def startsFrom (index : Nat) : List UInt8 → List Nat
  | [] => []
  | byte :: bytes =>
    if byte = 10 then (asU32 index + 1) :: startsFrom (index + 1) bytes
    else startsFrom (index + 1) bytes

namespace LineMap

def new (text : String) : LineMap :=
  ⟨0 :: startsFrom 0 (textBytes text)⟩

def lineCount (map : LineMap) : Nat :=
  map.lineStarts.length

/-- The starts are in order, so the partition point is the length of those that are not past the
offset. -/
def lineIndex (map : LineMap) (offset : Nat) : Option Nat :=
  match (map.lineStarts.takeWhile (· ≤ offset)).length with
  | 0 => none
  | passed + 1 => some passed

/-- The bounds of a line, without its newline. -/
def lineBounds (map : LineMap) (lineIndex : Nat) (text : String) : Option (Nat × Nat) :=
  let lineIndex := min lineIndex (map.lineStarts.length - 1)
  match map.lineStarts[lineIndex]? with
  | none => none
  | some start =>
    let rawEnd := (map.lineStarts[lineIndex + 1]?).getD (asU32 (textBytes text).length)
    if start < rawEnd then
      match (textBytes text)[rawEnd - 1]? with
      | none => none
      | some last => if last = 10 then some (start, rawEnd - 1) else some (start, rawEnd)
    else some (start, rawEnd)

end LineMap

/-- A text with the line map that was made of it. -/
structure SourceFile where
  text : String
  lineMap : LineMap
  mapped : lineMap = LineMap.new text

def SourceFile.new (text : String) : SourceFile :=
  ⟨text, LineMap.new text, rfl⟩

structure Position where
  line : Nat
  character : Nat
  deriving DecidableEq, Repr

def utf16Len (c : Char) : Nat :=
  if c.toNat < 0x10000 then 1 else 2

def utf16Count (chars : List Char) : Nat :=
  (chars.map utf16Len).sum

/-- The loop of `boundary`. -/
def boundaryFrom (text : String) : Nat → Nat
  | 0 => 0
  | offset + 1 =>
    if isCharBoundary (textBytes text) (offset + 1) then offset + 1 else boundaryFrom text offset

def boundary (text : String) (offset : Nat) : Nat :=
  boundaryFrom text (min offset (textBytes text).length)

/-- `&text[start..stop]`, which panics off a character boundary. -/
def slice (text : String) (start stop : Nat) : Option String :=
  (substring text start stop).toOption

def position (file : SourceFile) (offset : Nat) : Option Position := do
  let offset := boundary file.text offset
  let lineIndex ← file.lineMap.lineIndex (asU32 offset)
  let (lineStart, _) ← file.lineMap.lineBounds lineIndex file.text
  let before ← slice file.text (boundary file.text lineStart) offset
  some ⟨asU32 lineIndex, asU32 (utf16Count before.toList)⟩

/-- The loop of `offset` over the characters of a line. -/
def offsetFrom (lineStart lineEnd character : Nat) : List Char → Nat → Nat → Nat
  | [], _, _ => lineEnd
  | c :: chars, byte, units =>
    if character ≤ units then lineStart + asU32 byte
    else offsetFrom lineStart lineEnd character chars (byte + c.utf8Size) (units + utf16Len c)

def offset (file : SourceFile) (position : Position) : Option Nat := do
  let lineIndex := min position.line (file.lineMap.lineCount - 1)
  let (lineStart, lineEnd) ← file.lineMap.lineBounds lineIndex file.text
  let line ← slice file.text lineStart lineEnd
  some (offsetFrom lineStart lineEnd position.character line.toList 0 0)

example : position (.new "é😀\nx") 6 = some ⟨0, 3⟩ ∧
    offset (.new "é😀\nx") ⟨0, 2⟩ = some 6 ∧ offset (.new "é😀\nx") ⟨9, 9⟩ = some 8 := by
  decide

/-! ## Lines -/

/-- The UTF-8 bytes of characters. -/
def utf8 (chars : List Char) : List UInt8 :=
  chars.flatMap String.utf8EncodeChar

def width (chars : List Char) : Nat :=
  (utf8 chars).length

@[simp]
theorem utf8_nil : utf8 [] = [] :=
  rfl

@[simp]
theorem utf8_append (front back : List Char) : utf8 (front ++ back) = utf8 front ++ utf8 back :=
  List.flatMap_append

@[simp]
theorem width_append (front back : List Char) :
    width (front ++ back) = width front + width back := by
  simp [width]

theorem width_cons (c : Char) (chars : List Char) : width (c :: chars) = c.utf8Size + width chars := by
  simp [width, utf8]

theorem utf8_newline : utf8 ['\n'] = [10] := by
  decide

/-- The UTF-16 code units of characters: beyond the basic plane, a surrogate pair each. -/
def utf16 (chars : List Char) : List UInt16 :=
  chars.flatMap fun c =>
    if c.toNat < 0x10000 then [.ofNat c.toNat]
    else [.ofNat (0xD800 + (c.toNat - 0x10000) / 0x400),
      .ofNat (0xDC00 + (c.toNat - 0x10000) % 0x400)]

/-- The lines of a text before one of its lines, that line, and what is behind it. -/
structure Line (chars : List Char) (index : Nat) (lines line after : List Char) : Prop where
  whole : chars = lines ++ (line ++ after)
  count : lines.count '\n' = index
  unbroken : '\n' ∉ line
  begins : lines = [] ∨ ∃ front, lines = front ++ ['\n']
  ends : after = [] ∨ ∃ back, after = '\n' :: back

variable {chars lines line after column rest front back : List Char} {index : Nat}
  {bytes first second : List UInt8}

theorem newline_byte {c : Char} (among : (10 : UInt8) ∈ String.utf8EncodeChar c) : c = '\n' := by
  rcases utf8EncodeChar_shape c with ⟨lead, tail, shape, -, inside, short⟩
  rw [shape] at among
  have isLead : lead = 10 := by
    rcases List.mem_cons.mp among with same | within
    · exact same.symm
    · have inner := inside 10 within
      simp [isContinuation] at inner
  have alone : String.utf8EncodeChar c = String.utf8EncodeChar '\n' := by
    rw [shape, short (by rw [isLead]; decide), isLead]
    decide
  have texts : textBytes (String.ofList [c]) = textBytes (String.ofList ['\n']) := by
    rw [textBytes_ofList, textBytes_ofList, List.flatMap_singleton, List.flatMap_singleton, alone]
  have same := congrArg String.toList (textBytes_injective texts)
  rw [String.toList_ofList, String.toList_ofList] at same
  exact List.singleton_inj.mp same

theorem newline_unbroken (unbroken : '\n' ∉ line) : (10 : UInt8) ∉ utf8 line := by
  intro among
  rcases List.mem_flatMap.mp among with ⟨c, within, byte⟩
  rw [newline_byte byte] at within
  exact unbroken within

theorem count_newlines (chars : List Char) : (utf8 chars).count 10 = chars.count '\n' := by
  induction chars with
  | nil => rfl
  | cons c chars ih =>
    have one : (utf8 [c]).count 10 = [c].count '\n' := by
      by_cases same : c = '\n'
      · rw [same, utf8_newline]
        rfl
      · have missing : '\n' ∉ [c] := by
          simpa using fun equal => same equal.symm
        rw [List.count_eq_zero.mpr (newline_unbroken missing), List.count_eq_zero.mpr missing]
    rw [← List.singleton_append, utf8_append, List.count_append, List.count_append, one, ih]

/-- The last line break of a text. -/
theorem last_line (front : List Char) : ∃ lines column, front = lines ++ column ∧ '\n' ∉ column ∧
    (lines = [] ∨ ∃ earlier, lines = earlier ++ ['\n']) := by
  induction front with
  | nil => exact ⟨[], [], rfl, List.not_mem_nil, Or.inl rfl⟩
  | cons c front ih =>
    rcases ih with ⟨lines, column, rfl, unbroken, rfl | ⟨earlier, rfl⟩⟩
    · by_cases same : c = '\n'
      · exact ⟨['\n'], column, by rw [same]; rfl, unbroken, Or.inr ⟨[], rfl⟩⟩
      · refine ⟨[], c :: column, rfl, ?_, Or.inl rfl⟩
        simpa using ⟨fun equal => same equal.symm, unbroken⟩
    · exact ⟨c :: (earlier ++ ['\n']), column, rfl, unbroken, Or.inr ⟨c :: earlier, rfl⟩⟩

/-- The first line break of a text. -/
theorem first_line (back : List Char) : ∃ rest after, back = rest ++ after ∧ '\n' ∉ rest ∧
    (after = [] ∨ ∃ later, after = '\n' :: later) := by
  induction back with
  | nil => exact ⟨[], [], rfl, List.not_mem_nil, Or.inl rfl⟩
  | cons c back ih =>
    by_cases same : c = '\n'
    · exact ⟨[], c :: back, rfl, List.not_mem_nil, Or.inr ⟨back, by rw [same]⟩⟩
    · rcases ih with ⟨rest, after, rfl, unbroken, ends⟩
      refine ⟨c :: rest, after, rfl, ?_, ends⟩
      simpa using ⟨fun equal => same equal.symm, unbroken⟩

theorem line_of_column (columnUnbroken : '\n' ∉ column)
    (begins : lines = [] ∨ ∃ front, lines = front ++ ['\n']) (back : List Char) :
    ∃ rest after, back = rest ++ after ∧
      Line (lines ++ (column ++ back)) (lines.count '\n') lines (column ++ rest) after := by
  rcases first_line back with ⟨rest, after, rfl, restUnbroken, ends⟩
  refine ⟨rest, after, rfl, by rw [List.append_assoc], rfl, ?_, begins, ends⟩
  rw [List.mem_append]
  rintro (inColumn | inRest)
  · exact columnUnbroken inColumn
  · exact restUnbroken inRest

/-- A cut of a text is in a line. -/
theorem line_of_cut (front back : List Char) : ∃ lines column rest after,
    front = lines ++ column ∧ back = rest ++ after ∧
      Line (front ++ back) (front.count '\n') lines (column ++ rest) after := by
  rcases last_line front with ⟨lines, column, rfl, unbroken, begins⟩
  rcases line_of_column unbroken begins back with ⟨rest, after, rfl, isLine⟩
  refine ⟨lines, column, rest, after, rfl, rfl, ?_⟩
  rw [List.append_assoc, List.count_append, List.count_eq_zero.mpr unbroken]
  exact isLine

theorem exists_line (within : index ≤ chars.count '\n') :
    ∃ lines line after, Line chars index lines line after := by
  have cut : ∃ front back, chars = front ++ back ∧ front.count '\n' = index := by
    induction chars generalizing index with
    | nil => exact ⟨[], [], rfl, (Nat.le_zero.mp within).symm⟩
    | cons c chars ih =>
      cases index with
      | zero => exact ⟨[], c :: chars, rfl, rfl⟩
      | succ index =>
        rw [List.count_cons] at within
        by_cases same : c = '\n'
        · rw [if_pos (by simp [same])] at within
          rcases ih (Nat.le_of_succ_le_succ within) with ⟨front, back, rfl, rfl⟩
          exact ⟨c :: front, back, rfl, by simp [same]⟩
        · rw [if_neg (by simp [same])] at within
          rcases ih within with ⟨front, back, rfl, counted⟩
          exact ⟨c :: front, back, rfl, by rw [List.count_cons, counted, if_neg (by simp [same])]⟩
  rcases cut with ⟨front, back, rfl, rfl⟩
  rcases line_of_cut front back with ⟨lines, column, rest, after, -, -, isLine⟩
  exact ⟨lines, column ++ rest, after, isLine⟩

/-! ## The line map -/

theorem startsFrom_append (place : Nat) (first second : List UInt8) :
    startsFrom place (first ++ second) =
      startsFrom place first ++ startsFrom (place + first.length) second := by
  induction first generalizing place with
  | nil => rfl
  | cons byte first ih =>
    have further : place + 1 + first.length = place + (byte :: first).length := by
      rw [List.length_cons]
      omega
    rw [List.cons_append, startsFrom, startsFrom, ih, further]
    split <;> rfl

theorem startsFrom_unbroken (place : Nat) (unbroken : (10 : UInt8) ∉ bytes) :
    startsFrom place bytes = [] := by
  induction bytes generalizing place with
  | nil => rfl
  | cons byte bytes ih =>
    rw [List.mem_cons, not_or] at unbroken
    rw [startsFrom, if_neg (fun same => unbroken.1 same.symm), ih _ unbroken.2]

theorem startsFrom_length (place : Nat) (bytes : List UInt8) :
    (startsFrom place bytes).length = bytes.count 10 := by
  induction bytes generalizing place with
  | nil => rfl
  | cons byte bytes ih =>
    rw [startsFrom, List.count_cons]
    by_cases same : byte = 10
    · rw [if_pos same, if_pos (by simp [same]), List.length_cons, ih]
    · rw [if_neg same, if_neg (by simp [same]), ih, Nat.add_zero]

theorem mem_startsFrom {place start : Nat} (short : place + bytes.length < 2 ^ 32)
    (among : start ∈ startsFrom place bytes) : place < start ∧ start ≤ place + bytes.length := by
  induction bytes generalizing place with
  | nil => cases among
  | cons byte bytes ih =>
    rw [List.length_cons] at short ⊢
    have later (among : start ∈ startsFrom (place + 1) bytes) :
        place < start ∧ start ≤ place + (bytes.length + 1) := by
      have bounds := ih (by omega) among
      omega
    rw [startsFrom] at among
    split at among
    · rcases List.mem_cons.mp among with same | behind
      · rw [asU32, Nat.mod_eq_of_lt (by omega)] at same
        omega
      · exact later behind
    · exact later among

/-- The starts of the lines up to a line, and those behind it. -/
def startsTo (lines : List Char) : List Nat :=
  0 :: startsFrom 0 (utf8 lines)

def startsBehind (lines line after : List Char) : List Nat :=
  startsFrom (width lines + width line) (utf8 after)

theorem Line.lineStarts (isLine : Line chars index lines line after) :
    0 :: startsFrom 0 (utf8 chars) = startsTo lines ++ startsBehind lines line after := by
  rw [isLine.whole, utf8_append, utf8_append, startsFrom_append, startsFrom_append,
    startsFrom_unbroken _ (newline_unbroken isLine.unbroken), List.nil_append, Nat.zero_add]
  rfl

theorem Line.startsTo_length (isLine : Line chars index lines line after) :
    (startsTo lines).length = index + 1 := by
  rw [startsTo, List.length_cons, startsFrom_length, count_newlines, isLine.count]

theorem Line.start (isLine : Line chars index lines line after) (short : width chars < 2 ^ 32) :
    (startsTo lines)[index]? = some (width lines) := by
  have counted := isLine.count
  rcases isLine.begins with rfl | ⟨front, rfl⟩
  · rw [← counted]
    rfl
  · have bound : width front < 2 ^ 32 := by
      rw [isLine.whole, width_append, width_append] at short
      omega
    have starts : startsTo (front ++ ['\n']) = startsTo front ++ [width front + 1] := by
      have asked : asU32 (width front) = width front := Nat.mod_eq_of_lt bound
      rw [startsTo, utf8_append, utf8_newline, startsFrom_append, Nat.zero_add, startsFrom,
        if_pos rfl, startsFrom]
      change 0 :: (_ ++ [asU32 (width front) + 1]) = _
      rw [asked]
      rfl
    have place : index = (startsTo front).length := by
      rw [← counted, List.count_append, startsTo, List.length_cons, startsFrom_length,
        count_newlines]
      rfl
    have newline : width ['\n'] = 1 := by
      rw [width, utf8_newline]
      rfl
    rw [starts, place, List.getElem?_concat_length, width_append, newline]

theorem Line.next (isLine : Line chars index lines line after) (short : width chars < 2 ^ 32) :
    (startsBehind lines line after)[0]? =
      if after = [] then none else some (width lines + width line + 1) := by
  rcases isLine.ends with rfl | ⟨back, rfl⟩
  · rfl
  · have bound : width lines + width line < 2 ^ 32 := by
      rw [isLine.whole, width_append, width_append] at short
      omega
    have bytes : utf8 ('\n' :: back) = 10 :: utf8 back := by
      rw [← List.singleton_append, utf8_append, utf8_newline]
      rfl
    rw [if_neg (List.cons_ne_nil _ _), startsBehind, bytes, startsFrom, if_pos rfl,
      List.getElem?_cons_zero, asU32, Nat.mod_eq_of_lt bound]

variable {text : String}

theorem textBytes_utf8 (text : String) : textBytes text = utf8 text.toList :=
  textBytes_toList text

theorem lineCount_new (text : String) :
    (LineMap.new text).lineCount = text.toList.count '\n' + 1 := by
  rw [LineMap.lineCount, LineMap.new, List.length_cons, startsFrom_length, textBytes_utf8,
    count_newlines]

theorem lineBounds_line (isLine : Line text.toList index lines line after)
    (short : width text.toList < 2 ^ 32) :
    (LineMap.new text).lineBounds index text = some (width lines, width lines + width line) := by
  have total : width text.toList = width lines + (width line + width after) := by
    rw [isLine.whole, width_append, width_append]
  have length : (startsTo lines).length = index + 1 := isLine.startsTo_length
  have starts : (LineMap.new text).lineStarts =
      startsTo lines ++ startsBehind lines line after := by
    rw [← isLine.lineStarts, LineMap.new, textBytes_utf8]
  have clamped : min index ((LineMap.new text).lineStarts.length - 1) = index := by
    rw [starts, List.length_append, length]
    omega
  have here : (LineMap.new text).lineStarts[index]? = some (width lines) := by
    rw [starts, List.getElem?_append_left (by omega), isLine.start short]
  have next : (LineMap.new text).lineStarts[index + 1]? =
      if after = [] then none else some (width lines + width line + 1) := by
    rw [starts, List.getElem?_append_right (by omega), length, Nat.sub_self, isLine.next short]
  have bytes : textBytes text = utf8 (lines ++ line) ++ utf8 after := by
    rw [textBytes_utf8, isLine.whole, ← List.append_assoc, utf8_append]
  have inside : (utf8 (lines ++ line)).length = width lines + width line := width_append lines line
  unfold LineMap.lineBounds
  simp only [clamped, here, next]
  rcases isLine.ends with rfl | ⟨back, rfl⟩
  · -- the last line ends with the text, and its last byte is no newline
    have ending : asU32 (textBytes text).length = width lines + width line := by
      rw [textBytes_utf8]
      change width text.toList % 2 ^ 32 = _
      rw [Nat.mod_eq_of_lt short, total]
      rfl
    rw [if_pos rfl, Option.getD_none, ending]
    by_cases empty : width line = 0
    · rw [if_neg (by omega)]
    · have last : (textBytes text)[width lines + width line - 1]? =
          some ((utf8 line).getLast (fun none => empty (by rw [width, none]; rfl))) := by
        have place : width lines + width line - 1 = (utf8 lines).length + ((utf8 line).length - 1) := by
          change _ = width lines + (width line - 1)
          omega
        rw [bytes, utf8_nil, List.append_nil, utf8_append, place,
          List.getElem?_append_right (Nat.le_add_right _ _), Nat.add_sub_cancel_left,
          List.getLast_eq_getElem, List.getElem?_eq_getElem]
      rw [if_pos (by omega), last]
      refine if_neg fun same => newline_unbroken isLine.unbroken ?_
      rw [← same]
      exact List.getLast_mem _
  · have newline : (textBytes text)[width lines + width line]? = some 10 := by
      have front : utf8 ('\n' :: back) = 10 :: utf8 back := by
        rw [← List.singleton_append, utf8_append, utf8_newline]
        rfl
      rw [bytes, front, List.getElem?_append_right (by rw [inside]), inside, Nat.sub_self]
      rfl
    rw [if_neg (List.cons_ne_nil _ _), Option.getD_some, if_pos (by omega), Nat.add_sub_cancel,
      newline]
    rfl

theorem lineIndex_line (isLine : Line text.toList index lines line after)
    (short : width text.toList < 2 ^ 32) {offset : Nat} (from_ : width lines ≤ offset)
    (upto : offset ≤ width lines + width line) :
    (LineMap.new text).lineIndex offset = some index := by
  have total : width text.toList = width lines + (width line + width after) := by
    rw [isLine.whole, width_append, width_append]
  have starts : (LineMap.new text).lineStarts =
      startsTo lines ++ startsBehind lines line after := by
    rw [← isLine.lineStarts, LineMap.new, textBytes_utf8]
  have before : ∀ start ∈ startsTo lines, decide (start ≤ offset) = true := by
    intro start among
    rw [decide_eq_true_eq]
    rcases List.mem_cons.mp among with rfl | within
    · exact Nat.zero_le _
    · have bounds := mem_startsFrom (by rw [Nat.zero_add]; change width lines < _; omega) within
      change _ ∧ start ≤ 0 + width lines at bounds
      omega
  have behind : (startsBehind lines line after).takeWhile (· ≤ offset) = [] := by
    cases isBehind : startsBehind lines line after with
    | nil => rfl
    | cons start starts =>
      have among : start ∈ startsBehind lines line after := by rw [isBehind]; exact List.mem_cons_self
      have bounds := mem_startsFrom (by change _ + width after < _; omega) among
      exact List.takeWhile_cons_of_neg (by simpa using (by omega : offset < start))
  unfold LineMap.lineIndex
  rw [starts, List.takeWhile_append_of_pos before, behind, List.append_nil, isLine.startsTo_length]

/-! ## Boundaries and slices -/

theorem boundary_cut {offset : Nat} (cut : isCharBoundary (textBytes text) offset = true) :
    ∃ front back, text.toList = front ++ back ∧ width front = offset := by
  have split : textBytes text =
      (textBytes text).take offset ++ (textBytes text).drop offset :=
    (List.take_append_drop _ _).symm
  have within : offset ≤ (textBytes text).length := by
    by_contra past
    unfold isCharBoundary at cut
    rw [List.getElem?_eq_none (by omega)] at cut
    exact past (Nat.le_of_eq (of_decide_eq_true cut))
  have begins : BeginsCharacter ((textBytes text).drop offset) := by
    intro byte first
    rw [List.head?_drop] at first
    unfold isCharBoundary at cut
    rw [first] at cut
    simpa using cut
  have chars := textBytes_toList text
  rcases cut_chars (chars.symm.trans split) begins with ⟨front, back, whole, isFront, -⟩
  refine ⟨front, back, whole, ?_⟩
  rw [width, utf8, isFront, List.length_take, Nat.min_eq_left within]

theorem isCharBoundary_cut (whole : text.toList = front ++ back) :
    isCharBoundary (textBytes text) (width front) = true := by
  rw [textBytes_utf8, whole, utf8_append]
  exact isCharBoundary_append (begins_chars back)

/-- What `boundary` answers: the last boundary that is not past the offset. -/
theorem boundary_greatest (text : String) (offset : Nat) :
    IsGreatest {cut | isCharBoundary (textBytes text) cut = true ∧ cut ≤ offset}
      (boundary text offset) := by
  have loop (most : Nat) :
      IsGreatest {cut | isCharBoundary (textBytes text) cut = true ∧ cut ≤ most}
        (boundaryFrom text most) := by
    induction most with
    | zero =>
      refine ⟨⟨?_, Nat.le_refl 0⟩, fun cut isCut => isCut.2⟩
      have whole : text.toList = [] ++ text.toList := rfl
      exact isCharBoundary_cut whole
    | succ most ih =>
      unfold boundaryFrom
      split
      case isTrue isCut => exact ⟨⟨isCut, Nat.le_refl _⟩, fun cut isCut => isCut.2⟩
      case isFalse inside =>
        refine ⟨⟨ih.1.1, Nat.le_succ_of_le ih.1.2⟩, fun cut isCut => ih.2 ⟨isCut.1, ?_⟩⟩
        have other : cut ≠ most + 1 := by
          rintro rfl
          exact inside isCut.1
        have most := isCut.2
        omega
  have clamped := loop (min offset (textBytes text).length)
  refine ⟨⟨clamped.1.1, Nat.le_trans clamped.1.2 (Nat.min_le_left _ _)⟩, fun cut isCut => ?_⟩
  rcases boundary_cut isCut.1 with ⟨front, back, whole, rfl⟩
  refine clamped.2 ⟨isCut.1, Nat.le_min.mpr ⟨isCut.2, ?_⟩⟩
  rw [textBytes_utf8, whole, utf8_append, List.length_append]
  exact Nat.le_add_right _ _

theorem boundary_self {offset : Nat} (cut : isCharBoundary (textBytes text) offset = true) :
    boundary text offset = offset := by
  have greatest := boundary_greatest text offset
  exact Nat.le_antisymm greatest.1.2 (greatest.2 ⟨cut, Nat.le_refl _⟩)

theorem slice_cut (whole : text.toList = front ++ (column ++ back)) :
    slice text (width front) (width front + width column) = some (String.ofList column) := by
  have bytes : textBytes text = utf8 front ++ (utf8 column ++ utf8 back) := by
    rw [textBytes_utf8, whole, utf8_append, utf8_append]
  have begins : BeginsCharacter (utf8 column ++ utf8 back) := by
    rw [← utf8_append]
    exact begins_chars _
  rcases substring_cut bytes begins (begins_chars back) with ⟨part, taken, isPart⟩
  have same : part = String.ofList column := by
    apply textBytes_injective
    rw [isPart, textBytes_ofList, utf8]
  unfold slice
  rw [width, width, taken, same]
  rfl

/-! ## Positions -/

theorem utf16Len_pos (c : Char) : 0 < utf16Len c := by
  unfold utf16Len
  split <;> decide

theorem utf16Len_le (c : Char) : utf16Len c ≤ c.utf8Size := by
  unfold utf16Len
  split
  case isTrue => exact Char.utf8Size_pos c
  case isFalse large =>
    have bound : 0x10000 ≤ c.val.toNat := Nat.not_lt.mp large
    unfold Char.utf8Size
    simp only [UInt32.le_iff_toNat_le]
    rw [if_neg (by change ¬ _ ≤ 127; omega), if_neg (by change ¬ _ ≤ 2047; omega),
      if_neg (by change ¬ _ ≤ 65535; omega)]
    decide

@[simp]
theorem utf16Count_append (front back : List Char) :
    utf16Count (front ++ back) = utf16Count front + utf16Count back := by
  simp [utf16Count]

theorem utf16_length (chars : List Char) : (utf16 chars).length = utf16Count chars := by
  induction chars with
  | nil => rfl
  | cons c chars ih =>
    rw [utf16, List.flatMap_cons, List.length_append, ← utf16, ih, utf16Count, utf16Count,
      List.map_cons, List.sum_cons, utf16Len]
    split <;> rfl

theorem utf16Count_le (chars : List Char) : utf16Count chars ≤ width chars := by
  induction chars with
  | nil => exact Nat.le_refl 0
  | cons c chars ih =>
    have one := utf16Len_le c
    rw [width_cons, utf16Count, List.map_cons, List.sum_cons]
    exact Nat.add_le_add one ih

theorem count_le_width (chars : List Char) : chars.count '\n' ≤ width chars := by
  rw [← count_newlines]
  exact List.count_le_length

theorem position_cut {file : SourceFile} (short : width file.text.toList < 2 ^ 32)
    (isLine : Line file.text.toList index lines (column ++ rest) after) :
    position file (width lines + width column) = some ⟨index, utf16Count column⟩ := by
  have whole : file.text.toList = lines ++ (column ++ (rest ++ after)) := by
    rw [isLine.whole, List.append_assoc]
  have total : width file.text.toList =
      width lines + (width column + (width rest + width after)) := by
    rw [whole, width_append, width_append, width_append]
  have cut : isCharBoundary (textBytes file.text) (width lines + width column) = true := by
    rw [← width_append]
    exact isCharBoundary_cut (by rw [whole, List.append_assoc])
  have inLine : width (column ++ rest) = width column + width rest := width_append column rest
  have lineBelow : index < 2 ^ 32 := by
    have counted := count_le_width lines
    rw [isLine.count] at counted
    omega
  have columnBelow : utf16Count column < 2 ^ 32 := by
    have counted := utf16Count_le column
    omega
  unfold position
  simp only [boundary_self cut, file.mapped]
  rw [asU32, Nat.mod_eq_of_lt (by omega),
    lineIndex_line isLine short (Nat.le_add_right _ _) (by omega)]
  simp only [Option.bind_eq_bind, Option.bind_some, lineBounds_line isLine short,
    boundary_self (isCharBoundary_cut whole), slice_cut whole, String.toList_ofList]
  rw [asU32, asU32, Nat.mod_eq_of_lt lineBelow, Nat.mod_eq_of_lt columnBelow]

/-- The loop stops behind the first characters of the line that reach the wanted one. -/
theorem offsetFrom_stops {start stop wanted : Nat} (line : List Char) (byte units : Nat)
    (ends : stop = start + (byte + width line)) (short : byte + width line < 2 ^ 32) :
    ∃ taken rest, line = taken ++ rest ∧
      offsetFrom start stop wanted line byte units = start + (byte + width taken) ∧
      ∀ column, column <+: line → units + utf16Count column = wanted → taken = column := by
  induction line generalizing byte units with
  | nil =>
    refine ⟨[], [], rfl, ends, fun column within _ => ?_⟩
    exact (List.prefix_nil.mp within).symm
  | cons c line ih =>
    rw [width_cons] at ends short
    unfold offsetFrom
    split
    case isTrue reached =>
      refine ⟨[], c :: line, rfl, ?_, fun column within counted => ?_⟩
      · rw [asU32, Nat.mod_eq_of_lt (by omega)]
        rfl
      · cases column with
        | nil => rfl
        | cons first column =>
          have one := utf16Len_pos first
          rw [utf16Count, List.map_cons, List.sum_cons] at counted
          omega
    case isFalse before =>
      rcases ih (byte + c.utf8Size) (units + utf16Len c) (by omega) (by omega) with
        ⟨taken, rest, rfl, stopped, exactly⟩
      refine ⟨c :: taken, rest, rfl, ?_, fun column within counted => ?_⟩
      · rw [stopped, width_cons]
        omega
      · cases column with
        | nil =>
          change units + 0 = wanted at counted
          omega
        | cons first column =>
          rcases List.cons_prefix_cons.mp within with ⟨rfl, inside⟩
          rw [utf16Count, List.map_cons, List.sum_cons, ← Nat.add_assoc] at counted
          rw [exactly column inside counted]

theorem offset_line {file : SourceFile} {asked : Position}
    (short : width file.text.toList < 2 ^ 32)
    (isLine : Line file.text.toList (min asked.line (file.text.toList.count '\n')) lines line after) :
    ∃ taken rest, line = taken ++ rest ∧
      offset file asked = some (width lines + width taken) ∧
      ∀ column, column <+: line → utf16Count column = asked.character → taken = column := by
  have total : width file.text.toList = width lines + (width line + width after) := by
    rw [isLine.whole, width_append, width_append]
  rcases @offsetFrom_stops (width lines) (width lines + width line) asked.character line 0 0
    (by omega) (by omega) with ⟨taken, rest, isTaken, stopped, exactly⟩
  refine ⟨taken, rest, isTaken, ?_, fun column within counted => ?_⟩
  · unfold offset
    simp only [file.mapped, lineCount_new, Nat.add_sub_cancel, lineBounds_line isLine short,
      Option.bind_eq_bind, Option.bind_some, slice_cut isLine.whole, String.toList_ofList, stopped]
    rw [Nat.zero_add]
  · exact exactly column within (by rw [Nat.zero_add, counted])

theorem offset_position_cut {file : SourceFile} (short : width file.text.toList < 2 ^ 32)
    (isLine : Line file.text.toList index lines (column ++ rest) after) :
    offset file ⟨index, utf16Count column⟩ = some (width lines + width column) := by
  have last : min index (file.text.toList.count '\n') = index := by
    rw [← isLine.count, isLine.whole, List.count_append]
    omega
  let asked : Position := ⟨index, utf16Count column⟩
  have here : Line file.text.toList (min asked.line (file.text.toList.count '\n')) lines
      (column ++ rest) after := by
    rw [last]
    exact isLine
  rcases offset_line short here with ⟨taken, behind, -, found, exactly⟩
  rw [found, exactly column (List.prefix_append _ _) rfl]

/-- Positions in the order of the text. -/
def Position.LE (first second : Position) : Prop :=
  first.line < second.line ∨ first.line = second.line ∧ first.character ≤ second.character

theorem position_monotone {file : SourceFile} (short : width file.text.toList < 2 ^ 32)
    {nearer further : List Char} (nearerWhole : file.text.toList = nearer ++ back)
    (furtherWhole : file.text.toList = further ++ rest) (order : width nearer ≤ width further) :
    ∃ first second, position file (width nearer) = some first ∧
      position file (width further) = some second ∧ first.LE second := by
  have inside : further <+: file.text.toList := by
    rw [furtherWhole]
    exact List.prefix_append further rest
  have grown : ∃ more, further = nearer ++ more := by
    have within : nearer <+: file.text.toList := by
      rw [nearerWhole]
      exact List.prefix_append nearer back
    rcases List.prefix_or_prefix_of_prefix within inside with ⟨more, same⟩ | ⟨more, same⟩
    · exact ⟨more, same.symm⟩
    · rw [← same, width_append] at order
      cases more with
      | nil => exact ⟨[], by rw [← same, List.append_nil, List.append_nil]⟩
      | cons c more =>
        have size := Char.utf8Size_pos c
        rw [width_cons] at order
        omega
  rcases grown with ⟨more, rfl⟩
  rcases last_line nearer with ⟨lines, column, rfl, unbroken, begins⟩
  have cutAt {column back : List Char} (columnUnbroken : '\n' ∉ column)
      (whole : file.text.toList = lines ++ (column ++ back)) :
      position file (width (lines ++ column)) = some ⟨lines.count '\n', utf16Count column⟩ := by
    rcases line_of_column columnUnbroken begins back with ⟨rest, after, rfl, isLine⟩
    rw [← whole] at isLine
    rw [width_append, position_cut short isLine]
  rw [List.append_assoc] at nearerWhole
  have first := cutAt unbroken nearerWhole
  by_cases broken : '\n' ∈ more
  · rcases line_of_cut (lines ++ column ++ more) rest with
      ⟨others, otherColumn, otherRest, after, same, -, isLine⟩
    rw [← furtherWhole] at isLine
    have second := position_cut short isLine
    rw [← width_append, ← same] at second
    refine ⟨_, _, first, second, Or.inl ?_⟩
    have breaks := List.count_pos_iff.mpr broken
    simp only [List.count_append]
    omega
  · have longer : '\n' ∉ column ++ more := by
      rw [List.mem_append]
      exact fun among => among.elim unbroken broken
    rw [List.append_assoc lines column more, List.append_assoc] at furtherWhole
    have second := cutAt longer furtherWhole
    rw [← List.append_assoc] at second
    refine ⟨_, _, first, second, Or.inr ⟨rfl, ?_⟩⟩
    rw [utf16Count_append]
    exact Nat.le_add_right _ _

/-- Every boundary goes to its line and the UTF-16 units before it in the line, and back; every
other offset stands for the boundary before it, the order is kept, and every position stands for
a boundary of its line, the one it names if there is one. -/
theorem position_offset (file : SourceFile) (short : (textBytes file.text).length < 2 ^ 32) :
    (∀ cut, isCharBoundary (textBytes file.text) cut = true →
      ∃ found, position file cut = some found ∧ Editor.offset file found = some cut) ∧
    (∀ index lines column rest after, Line file.text.toList index lines (column ++ rest) after →
      position file (width (lines ++ column)) = some ⟨index, (utf16 column).length⟩) ∧
    (∀ offset, ∃ cut found,
      IsGreatest {cut | isCharBoundary (textBytes file.text) cut = true ∧ cut ≤ offset} cut ∧
        position file offset = some found ∧ position file cut = some found) ∧
    (∀ nearer further, nearer ≤ further → ∃ first second, position file nearer = some first ∧
      position file further = some second ∧ first.LE second) ∧
    ∀ asked : Position, ∃ lines line after taken rest,
      Line file.text.toList (min asked.line (file.text.toList.count '\n')) lines line after ∧
        line = taken ++ rest ∧ Editor.offset file asked = some (width (lines ++ taken)) ∧
        isCharBoundary (textBytes file.text) (width (lines ++ taken)) = true ∧
        ∀ column, column <+: line → (utf16 column).length = asked.character →
          taken = column := by
  rw [textBytes_utf8] at short
  change width file.text.toList < 2 ^ 32 at short
  have clamps (offset : Nat) : position file offset =
      position file (boundary file.text offset) := by
    unfold position
    simp only [boundary_self (boundary_greatest file.text offset).1.1]
  refine ⟨fun cut isCut => ?_, fun index lines column rest after isLine => ?_, fun offset => ?_,
    fun nearer further order => ?_, fun asked => ?_⟩
  · rcases boundary_cut isCut with ⟨front, back, whole, rfl⟩
    rcases line_of_cut front back with ⟨lines, column, rest, after, rfl, -, isLine⟩
    rw [← whole] at isLine
    rw [width_append]
    exact ⟨_, position_cut short isLine, offset_position_cut short isLine⟩
  · rw [width_append, utf16_length]
    exact position_cut short isLine
  · have greatest := boundary_greatest file.text offset
    rcases boundary_cut greatest.1.1 with ⟨front, back, whole, isFront⟩
    rcases line_of_cut front back with ⟨lines, column, rest, after, rfl, -, isLine⟩
    rw [← whole] at isLine
    have found := position_cut short isLine
    rw [← width_append, isFront] at found
    exact ⟨_, _, greatest, by rw [clamps, found], found⟩
  · have nearest := boundary_greatest file.text nearer
    have furthest := boundary_greatest file.text further
    rcases boundary_cut nearest.1.1 with ⟨front, back, nearerWhole, isNearer⟩
    rcases boundary_cut furthest.1.1 with ⟨other, rest, furtherWhole, isFurther⟩
    rw [clamps nearer, clamps further, ← isNearer, ← isFurther]
    apply position_monotone short nearerWhole furtherWhole
    rw [isNearer, isFurther]
    exact furthest.2 ⟨nearest.1.1, Nat.le_trans nearest.1.2 order⟩
  · rcases exists_line (Nat.min_le_right asked.line (file.text.toList.count '\n')) with
      ⟨lines, line, after, isLine⟩
    rcases offset_line short isLine with ⟨taken, rest, rfl, found, exactly⟩
    refine ⟨lines, _, after, taken, rest, isLine, rfl, by rw [width_append, found], ?_,
      fun column within counted => ?_⟩
    · apply isCharBoundary_cut
      rw [isLine.whole, List.append_assoc, List.append_assoc]
    · exact exactly column within (by rw [← utf16_length, counted])

theorem position_offset_mixed :
    (∃ found, position (.new "é😀\n") 6 = some found ∧
      Editor.offset (.new "é😀\n") found = some 6) ∧ (textBytes "é😀\n").length = 7 := by
  have length : (textBytes "é😀\n").length = 7 := by decide
  exact ⟨(position_offset (.new "é😀\n") (length.trans_lt (by decide))).1 6 (by decide),
    length⟩

end Editor

end KiraVm
