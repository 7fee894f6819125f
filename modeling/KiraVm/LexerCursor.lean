import KiraVm.LexerGrammar

/-!
# The cursor of the lexer

The bytes of a character, and what the lexer sees of the bytes that are left.
-/

namespace KiraVm

namespace Lexing

open Foundation

/-! ## Characters -/

theorem character_bytes (c : Char) : ∃ tail, String.utf8EncodeChar c = firstByte c :: tail ∧
    (∀ byte ∈ tail, isContinuation byte = true) ∧ (firstByte c < 128 → tail = []) := by
  rcases utf8EncodeChar_shape c with ⟨lead, tail, shape, -, inside, short⟩
  have same : firstByte c = lead := by
    unfold firstByte
    rw [shape]
    rfl
  rw [same]
  exact ⟨tail, shape, inside, short⟩

theorem encodeChar_injective {first second : Char}
    (same : String.utf8EncodeChar first = String.utf8EncodeChar second) : first = second := by
  have texts : textBytes (String.ofList [first]) = textBytes (String.ofList [second]) := by
    rw [textBytes_ofList, textBytes_ofList, List.flatMap_singleton, List.flatMap_singleton, same]
  have chars := congrArg String.toList (textBytes_injective texts)
  rw [String.toList_ofList, String.toList_ofList] at chars
  exact List.singleton_inj.mp chars

theorem firstByte_ascii {c known : Char} {byte : UInt8} (first : firstByte c = byte)
    (ascii : byte < 128) (encoded : String.utf8EncodeChar known = [byte]) : c = known := by
  rcases character_bytes c with ⟨tail, shape, -, short⟩
  rw [first] at shape short
  rw [short ascii, ← encoded] at shape
  exact encodeChar_injective shape

theorem utf8CharLen_lead {lead : Nat} (most : lead < 256) :
    utf8CharLen (UInt8.ofNat lead) =
      if lead ≤ 127 then 1
      else if 192 ≤ lead ∧ lead ≤ 223 then 2
      else if 224 ≤ lead ∧ lead ≤ 239 then 3
      else if 240 ≤ lead ∧ lead ≤ 247 then 4
      else 1 := by
  have byte : (UInt8.ofNat lead).toNat = lead := UInt8.toNat_ofNat_of_lt' most
  unfold utf8CharLen
  simp only [UInt8.le_iff_toNat_le, byte]
  rfl

theorem utf8CharLen_firstByte (c : Char) :
    utf8CharLen (firstByte c) = (String.utf8EncodeChar c).length := by
  have bound : c.val.toNat < 1114112 := by
    rcases c.valid with low | ⟨-, high⟩
    · exact Nat.lt_trans low (by decide)
    · exact high
  unfold firstByte String.utf8EncodeChar
  simp only
  split_ifs with one two three
  · rw [List.headD_cons, utf8CharLen_lead (by omega), if_pos one]
    rfl
  · rw [List.headD_cons, utf8CharLen_lead (by omega), if_neg (by omega), if_pos (by omega)]
    rfl
  · rw [List.headD_cons, utf8CharLen_lead (by omega), if_neg (by omega), if_neg (by omega),
      if_pos (by omega)]
    rfl
  · rw [List.headD_cons, utf8CharLen_lead (by omega), if_neg (by omega), if_neg (by omega),
      if_neg (by omega), if_pos (by omega)]
    rfl

/-- The bytes of whole characters. -/
def Encoded (bytes : List UInt8) : Prop :=
  ∃ chars : List Char, bytes = chars.flatMap String.utf8EncodeChar

theorem encoded_text (text : String) : Encoded (textBytes text) :=
  ⟨text.toList, textBytes_toList text⟩

/-- What stands behind whole characters, up to a character that begins, is whole characters. -/
theorem Encoded.cut {before after : List UInt8} (encoded : Encoded (before ++ after))
    (begins : BeginsCharacter after) : Encoded before ∧ Encoded after := by
  rcases encoded with ⟨chars, whole⟩
  rcases cut_chars whole.symm begins with ⟨front, back, -, isBefore, isAfter⟩
  exact ⟨⟨front, isBefore.symm⟩, ⟨back, isAfter.symm⟩⟩

theorem Encoded.begins {bytes : List UInt8} (encoded : Encoded bytes) : BeginsCharacter bytes := by
  rcases encoded with ⟨chars, rfl⟩
  exact begins_chars chars

theorem Encoded.behind {before after : List UInt8} {byte : UInt8}
    (encoded : Encoded (before ++ byte :: after)) (ascii : byte < 128) : Encoded after := by
  have split := (encoded.cut (begins_ascii ascii after)).2
  rcases split with ⟨chars, whole⟩
  cases chars with
  | nil => cases whole
  | cons c chars =>
    rcases character_bytes c with ⟨tail, shape, -, short⟩
    rw [List.flatMap_cons, shape, List.cons_append] at whole
    injection whole with first rest
    rw [← first] at short
    rw [short ascii] at rest
    exact ⟨chars, rest⟩

/-! ## What is left -/

namespace Lexer

/-- These bytes are left. -/
structure Faces (lexer : Lexer) (rest : List UInt8) : Prop where
  left : lexer.bytes.drop lexer.pos = rest
  within : lexer.pos ≤ lexer.bytes.length

variable {lexer : Lexer} {rest left : List UInt8} {byte : UInt8}

theorem Faces.length (faces : Faces lexer rest) : lexer.pos + rest.length = lexer.bytes.length := by
  have counted := congrArg List.length faces.left
  have inside := faces.within
  rw [List.length_drop] at counted
  omega

theorem Faces.advance {taken : List UInt8} (faces : Faces lexer (taken ++ left)) :
    Faces (lexer.advance taken.length) left := by
  have counted := faces.length
  rw [List.length_append] at counted
  constructor
  · change lexer.bytes.drop (lexer.pos + taken.length) = left
    rw [← List.drop_drop, faces.left, List.drop_left]
  · change lexer.pos + taken.length ≤ lexer.bytes.length
    omega

theorem Faces.step (faces : Faces lexer (byte :: left)) : Faces (lexer.advance 1) left :=
  @Faces.advance lexer left [byte] faces

theorem Faces.inside (faces : Faces lexer (byte :: left)) : lexer.pos < lexer.bytes.length := by
  have counted := faces.length
  rw [List.length_cons] at counted
  omega

theorem Faces.ended (faces : Faces lexer []) : ¬ lexer.pos < lexer.bytes.length := by
  have counted := faces.length
  rw [List.length_nil] at counted
  omega

theorem Faces.peekAt (faces : Faces lexer rest) (offset : Nat) :
    lexer.peekAt offset = rest[offset]? := by
  rw [← faces.left, List.getElem?_drop]
  rfl

theorem Faces.peek (faces : Faces lexer rest) : lexer.peek = rest.head? := by
  rw [List.head?_eq_getElem?, ← faces.peekAt 0]
  rfl

theorem Faces.here (faces : Faces lexer (byte :: left)) (inside : lexer.pos < lexer.bytes.length) :
    lexer.bytes[lexer.pos] = byte := by
  have seen := faces.peek
  unfold Lexer.peek at seen
  rw [List.getElem?_eq_getElem inside] at seen
  exact Option.some.inj seen

theorem advance_advance (lexer : Lexer) (first second : Nat) :
    (lexer.advance first).advance second = lexer.advance (first + second) := by
  simp only [Lexer.advance, Nat.add_assoc]

theorem skipWhile_run {taken : List UInt8} {accepts : UInt8 → Bool}
    (accepted : ∀ byte ∈ taken, accepts byte = true) (stops : ∀ byte ∈ left.head?, accepts byte = false)
    (faces : Faces lexer (taken ++ left)) :
    lexer.skipWhile accepts = lexer.advance taken.length := by
  have none : left.takeWhile accepts = [] := by
    cases left with
    | nil => rfl
    | cons byte left => exact List.takeWhile_cons_of_neg (by rw [stops byte rfl]; decide)
  unfold skipWhile
  rw [faces.left, List.takeWhile_append_of_pos accepted, none, List.append_nil]

/-- The bytes between the cursor and an offset behind it. -/
theorem Faces.slice {taken : List UInt8} (faces : Faces lexer (taken ++ left)) :
    (lexer.bytes.drop lexer.pos).take ((lexer.advance taken.length).pos - lexer.pos) = taken := by
  change (lexer.bytes.drop lexer.pos).take (lexer.pos + taken.length - lexer.pos) = taken
  rw [faces.left, Nat.add_sub_cancel_left, List.take_left]

end Lexer

end Lexing

end KiraVm
