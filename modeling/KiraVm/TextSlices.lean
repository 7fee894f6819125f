import KiraVm.FoundationText
import KiraVm.ModuleTables

/-!
# Slices of texts

`substring` takes the bytes between two indexes, both of which must stand between
characters.  In the bytes of a text every index on either side of a one-byte
character does.
-/

namespace KiraVm

namespace Foundation

/-- A byte inside a character, behind its first. -/
def isContinuation (byte : UInt8) : Bool :=
  decide (128 ≤ byte) && decide (byte < 192)

/-- An index between characters. -/
def isCharBoundary (bytes : List UInt8) (index : Nat) : Bool :=
  match bytes[index]? with
  | some byte => !isContinuation byte
  | none => decide (index = bytes.length)

/-- The text between two indexes. -/
def substring (text : String) (start stop : Nat) : Except KiraTrap String :=
  let bytes := textBytes text
  if start ≤ stop ∧ isCharBoundary bytes start ∧ isCharBoundary bytes stop then
    match String.fromUTF8? ⟨((bytes.drop start).take (stop - start)).toArray⟩ with
    | some slice => .ok slice
    | none => .error .substringBounds
  else .error .substringBounds

/-! ## Characters -/

theorem continuation_byte (rest : Nat) : isContinuation (UInt8.ofNat (rest % 64 + 128)) = true := by
  have byte := @UInt8.toNat_ofNat_of_lt' (rest % 64 + 128) (by change _ < 256; omega)
  unfold isContinuation
  rw [Bool.and_eq_true, decide_eq_true_eq, decide_eq_true_eq, UInt8.le_iff_toNat_le,
    UInt8.lt_iff_toNat_lt, byte]
  change 128 ≤ rest % 64 + 128 ∧ rest % 64 + 128 < 192
  omega

theorem lead_byte {lead : Nat} (least : 192 ≤ lead) (most : lead < 256) :
    isContinuation (UInt8.ofNat lead) = false := by
  have byte := @UInt8.toNat_ofNat_of_lt' lead most
  unfold isContinuation
  rw [Bool.and_eq_false_iff, decide_eq_false_iff_not, decide_eq_false_iff_not,
    UInt8.le_iff_toNat_le, UInt8.lt_iff_toNat_lt, byte]
  change ¬ 128 ≤ lead ∨ ¬ lead < 192
  omega

variable {byte : UInt8} {before after : List UInt8}

theorem ascii_byte (ascii : byte < 128) : isContinuation byte = false := by
  unfold isContinuation
  rw [Bool.and_eq_false_iff, decide_eq_false_iff_not]
  exact Or.inl (UInt8.not_le.mpr ascii)

/-- A character is a first byte and bytes inside it; an ASCII one is its byte. -/
theorem utf8EncodeChar_shape (c : Char) : ∃ lead tail,
    String.utf8EncodeChar c = lead :: tail ∧ isContinuation lead = false ∧
      (∀ byte ∈ tail, isContinuation byte = true) ∧ (lead < 128 → tail = []) := by
  have large {lead : Nat} (least : 192 ≤ lead) (most : lead < 256) {tail : List UInt8} :
      UInt8.ofNat lead < 128 → tail = [] := by
    intro ascii
    rw [UInt8.lt_iff_toNat_lt, UInt8.toNat_ofNat_of_lt' most] at ascii
    change lead < 128 at ascii
    omega
  unfold String.utf8EncodeChar
  simp only
  by_cases one : c.val.toNat ≤ 0x7f
  · rw [if_pos one]
    refine ⟨_, [], rfl, ?_, fun _ among => absurd among List.not_mem_nil, fun _ => rfl⟩
    apply ascii_byte
    rw [UInt8.lt_iff_toNat_lt, UInt8.toNat_ofNat_of_lt' (by change _ < 256; omega)]
    change c.val.toNat < 128
    omega
  rw [if_neg one]
  by_cases two : c.val.toNat ≤ 0x7ff
  · rw [if_pos two]
    refine ⟨_, _, rfl, lead_byte (by omega) (by omega), ?_, large (by omega) (by omega)⟩
    rw [List.forall_mem_singleton]
    exact continuation_byte _
  rw [if_neg two]
  by_cases three : c.val.toNat ≤ 0xffff
  · rw [if_pos three]
    refine ⟨_, _, rfl, lead_byte (by omega) (by omega), ?_, large (by omega) (by omega)⟩
    rw [List.forall_mem_cons, List.forall_mem_singleton]
    exact ⟨continuation_byte _, continuation_byte _⟩
  · rw [if_neg three]
    refine ⟨_, _, rfl, lead_byte (by omega) (by omega), ?_, large (by omega) (by omega)⟩
    rw [List.forall_mem_cons, List.forall_mem_cons, List.forall_mem_singleton]
    exact ⟨continuation_byte _, continuation_byte _, continuation_byte _⟩

/-! ## Boundaries -/

/-- A cut between characters, as one sees it from behind. -/
def BeginsCharacter (bytes : List UInt8) : Prop :=
  ∀ byte ∈ bytes.head?, isContinuation byte = false

theorem isCharBoundary_append (begins : BeginsCharacter after) :
    isCharBoundary (before ++ after) before.length = true := by
  unfold isCharBoundary
  rw [List.getElem?_append_right (Nat.le_refl _), Nat.sub_self]
  cases after with
  | nil =>
    rw [List.append_nil]
    exact decide_eq_true rfl
  | cons byte after =>
    have lead := begins byte rfl
    simp [lead]

/-- The characters of a text begin with a first byte. -/
theorem begins_chars (chars : List Char) :
    BeginsCharacter (chars.flatMap String.utf8EncodeChar) := by
  intro byte first
  cases chars with
  | nil => cases first
  | cons c chars =>
    rcases utf8EncodeChar_shape c with ⟨lead, tail, shape, isLead, -, -⟩
    rw [List.flatMap_cons, shape, List.cons_append, List.head?_cons] at first
    injection first with same
    rw [← same]
    exact isLead

theorem cut_chars {chars : List Char}
    (whole : chars.flatMap String.utf8EncodeChar = before ++ after)
    (begins : BeginsCharacter after) : ∃ front back, chars = front ++ back ∧
      front.flatMap String.utf8EncodeChar = before ∧
      back.flatMap String.utf8EncodeChar = after := by
  induction chars generalizing before with
  | nil =>
    rw [List.flatMap_nil] at whole
    rcases List.append_eq_nil_iff.mp whole.symm with ⟨rfl, rfl⟩
    exact ⟨[], [], rfl, rfl, rfl⟩
  | cons c chars ih =>
    rcases utf8EncodeChar_shape c with ⟨lead, tail, shape, isLead, inside, -⟩
    rw [List.flatMap_cons] at whole
    cases before with
    | nil => exact ⟨[], c :: chars, rfl, rfl, by rw [List.flatMap_cons, whole, List.nil_append]⟩
    | cons first before =>
      rcases List.append_eq_append_iff.mp whole with
        ⟨rest, hasFront, isRest⟩ | ⟨rest, hasFront, isAfter⟩
      · rcases ih isRest with ⟨front, back, rfl, rfl, rfl⟩
        exact ⟨c :: front, back, rfl, by rw [List.flatMap_cons, hasFront], rfl⟩
      · cases rest with
        | nil =>
          rw [List.append_nil] at hasFront
          rw [List.nil_append] at isAfter
          exact ⟨[c], chars, rfl, by simp [hasFront], isAfter.symm⟩
        | cons byte rest =>
          rw [shape, List.cons_append] at hasFront
          injection hasFront with _ behind
          have within : byte ∈ tail := by
            rw [behind]
            exact List.mem_append_right _ List.mem_cons_self
          have begun := begins byte (by rw [isAfter]; rfl)
          rw [inside byte within] at begun
          cases begun

theorem begins_behind {text : String} (whole : textBytes text = before ++ byte :: after)
    (ascii : byte < 128) : BeginsCharacter after := by
  have begins : BeginsCharacter (byte :: after) := by
    intro first isFirst
    injection isFirst with same
    rw [← same]
    exact ascii_byte ascii
  rw [textBytes_toList] at whole
  rcases cut_chars whole begins with ⟨front, back, -, -, behind⟩
  cases back with
  | nil => cases behind
  | cons c back =>
    rcases utf8EncodeChar_shape c with ⟨lead, tail, shape, -, -, short⟩
    rw [List.flatMap_cons, shape, List.cons_append] at behind
    injection behind with sameLead rest
    rw [short (by rw [sameLead]; exact ascii), List.nil_append] at rest
    rw [← rest]
    exact begins_chars back

theorem begins_ascii (ascii : byte < 128) (after : List UInt8) :
    BeginsCharacter (byte :: after) := by
  intro first isFirst
  injection isFirst with same
  rw [← same]
  exact ascii_byte ascii

theorem textBytes_injective {first second : String} (same : textBytes first = textBytes second) :
    first = second := by
  have found := fromUTF8_eq_some_iff.mpr same
  rw [fromUTF8_eq_some_iff.mpr rfl] at found
  injection found with found
  exact found.symm

theorem textBytes_ofList (chars : List Char) :
    textBytes (String.ofList chars) = chars.flatMap String.utf8EncodeChar := by
  rw [textBytes_toList, String.toList_ofList]

theorem textBytes_append (first second : String) :
    textBytes (first ++ second) = textBytes first ++ textBytes second := by
  rw [textBytes_toList, textBytes_toList, textBytes_toList, String.toList_append,
    List.flatMap_append]

theorem substring_cut {text : String} {slice : List UInt8}
    (whole : textBytes text = before ++ (slice ++ after)) (begins : BeginsCharacter (slice ++ after))
    (beginsAfter : BeginsCharacter after) : ∃ part,
      substring text before.length (before.length + slice.length) = .ok part ∧
        textBytes part = slice := by
  have startCut : isCharBoundary (textBytes text) before.length = true := by
    rw [whole]
    exact isCharBoundary_append begins
  have stopCut : isCharBoundary (textBytes text) (before.length + slice.length) = true := by
    rw [whole, ← List.append_assoc, ← List.length_append]
    exact isCharBoundary_append beginsAfter
  have taken : ((textBytes text).drop before.length).take
      (before.length + slice.length - before.length) = slice := by
    rw [whole, List.drop_left, Nat.add_sub_cancel_left, List.take_left]
  have chars := whole
  rw [textBytes_toList] at chars
  rcases cut_chars chars begins with ⟨front, back, -, -, behind⟩
  rcases cut_chars behind beginsAfter with ⟨middle, rest, -, isSlice, -⟩
  have found : String.fromUTF8? ⟨slice.toArray⟩ = some (String.ofList middle) := by
    rw [fromUTF8_eq_some_iff, textBytes_ofList, isSlice]
  refine ⟨String.ofList middle, ?_, ?_⟩
  · unfold substring
    simp only
    rw [if_pos ⟨Nat.le_add_right _ _, startCut, stopCut⟩, taken, found]
  · rw [textBytes_ofList, isSlice]

end Foundation

end KiraVm
