import KiraVm.JsonDocuments
import KiraVm.JsonWriting

/-!
# Reading what was written

Both forms of a value are documents that denote it, so the reader gives it back.
-/

namespace KiraVm

namespace Foundation

open Json

/-! ## Values that have an exact spelling -/

mutual

def JsonValue.nesting : JsonValue → Nat
  | .array items => itemsNesting items + 1
  | .object members => membersNesting members + 1
  | _ => 0

def itemsNesting : List JsonValue → Nat
  | [] => 0
  | item :: items => max item.nesting (itemsNesting items)

def JsonMember.nesting : JsonMember → Nat
  | .mk _ value => value.nesting

def membersNesting : List JsonMember → Nat
  | [] => 0
  | member :: members => max member.nesting (membersNesting members)

end

mutual

def JsonValue.NumberFree : JsonValue → Prop
  | .number _ => False
  | .array items => ItemsNumberFree items
  | .object members => MembersNumberFree members
  | _ => True

def ItemsNumberFree : List JsonValue → Prop
  | [] => True
  | item :: items => item.NumberFree ∧ ItemsNumberFree items

def JsonMember.NumberFree : JsonMember → Prop
  | .mk _ value => value.NumberFree

def MembersNumberFree : List JsonMember → Prop
  | [] => True
  | member :: members => member.NumberFree ∧ MembersNumberFree members

end

/-! ## Written values -/

theorem jsonIndent_blank (spacing : Int) (level : Nat) :
    Blanks (textBytes (jsonIndent spacing level)) := by
  unfold jsonIndent
  by_cases compact : spacing < 0
  · rw [if_pos compact]
    exact fun byte among => by cases among
  · have newline : textBytes "\n" = [10] := by decide
    have space : String.utf8EncodeChar ' ' = [32] := by decide
    rw [if_neg compact, textBytes_append, newline, textBytes_ofList]
    intro byte among
    rcases List.mem_append.mp among with isNewline | isSpace
    · rw [List.mem_singleton.mp isNewline]
      decide
    · rcases List.mem_flatMap.mp isSpace with ⟨c, repeated, encoded⟩
      rw [(List.mem_replicate.mp repeated).2, space] at encoded
      rw [List.mem_singleton.mp encoded]
      decide

def Writes (depth : Nat) (phrase : Phrase) (written : Except KiraTrap String) : Prop :=
  ∃ text, written = .ok text ∧ Denotes depth (textBytes text) phrase

theorem integer_writes (depth : Nat) (number : Int64) :
    Writes depth (.value (.integer number)) (.ok (toString number.toInt)) := by
  rcases integer_literal number.toInt with ⟨literal, well, written, value⟩
  have isInt : literal.IsInt := by
    unfold Literal.IsInt
    rw [value]
    exact ⟨number.le_toInt, number.toInt_le⟩
  refine ⟨_, rfl, ?_⟩
  rw [written]
  have denotes := @Denotes.integer depth _ well isInt
  rw [value, Int64.ofInt_toInt] at denotes
  exact denotes

section Elements

variable {α : Type} {denotes : List UInt8 → α → Prop} {many : List UInt8 → List α → Prop}

/-- What stands behind the first element, up to the closing bracket. -/
def WritesRest (denotes : List UInt8 → α → Prop) (many : List UInt8 → List α → Prop)
    (elements : List α) (written : Except KiraTrap String) : Prop :=
  ∃ rest, written = .ok rest ∧ ∀ before bytes after first, Blanks before → denotes bytes first →
    Blanks after → many (before ++ (bytes ++ (textBytes rest ++ after))) (first :: elements)

theorem writesRest_nil
    (last : ∀ {before bytes after : List UInt8} {value : α}, Blanks before → denotes bytes value →
      Blanks after → many (before ++ (bytes ++ after)) [value]) :
    WritesRest denotes many [] (.ok "") := by
  refine ⟨"", rfl, ?_⟩
  intro before bytes after first blankBefore isFirst blankAfter
  exact last blankBefore isFirst blankAfter

theorem writesRest_cons {written writtenRest : Except KiraTrap String} {element : α}
    {elements : List α} (spacing : Int) (level : Nat)
    (more : ∀ {before bytes after others : List UInt8} {value : α} {values : List α},
      Blanks before → denotes bytes value → Blanks after → many others values →
      many (before ++ (bytes ++ (after ++ 44 :: others))) (value :: values))
    (writes : ∃ text, written = .ok text ∧ denotes (textBytes text) element)
    (writesRest : WritesRest denotes many elements writtenRest) :
    WritesRest denotes many (element :: elements) (do
      let first ← written
      let rest ← writtenRest
      .ok ("," ++ jsonIndent spacing level ++ first ++ rest)) := by
  rcases writes with ⟨text, rfl, isElement⟩
  rcases writesRest with ⟨rest, rfl, isRest⟩
  have comma : textBytes "," = [44] := by decide
  refine ⟨_, rfl, ?_⟩
  intro before bytes after first blankBefore isFirst blankAfter
  have behind := isRest _ _ after element (jsonIndent_blank spacing level) isElement blankAfter
  have whole := more blankBefore isFirst (List.forall_mem_nil IsBlank) behind
  rw [textBytes_append, textBytes_append, textBytes_append, comma]
  simp only [List.append_assoc, List.cons_append, List.nil_append] at whole ⊢
  exact whole

theorem writes_elements {opening closing : String} {bracket close : UInt8} {depth : Nat}
    {written writtenRest : Except KiraTrap String} {element : α} {elements : List α}
    {value : JsonValue} (spacing : Int) (level : Nat) (opens : textBytes opening = [bracket])
    (closes : textBytes closing = [close])
    (writesRest : WritesRest denotes many elements writtenRest)
    (writes : ∃ text, written = .ok text ∧ denotes (textBytes text) element)
    (full : ∀ {inside : List UInt8}, many inside (element :: elements) →
      Denotes depth (bracket :: (inside ++ [close])) (.value value)) :
    Writes depth (.value value) (do
      let first ← written
      let rest ← writtenRest
      .ok (opening ++ jsonIndent spacing (level + 1) ++ first ++ rest ++ jsonIndent spacing level ++
        closing)) := by
  rcases writes with ⟨text, rfl, isElement⟩
  rcases writesRest with ⟨rest, rfl, isRest⟩
  have inside := isRest _ _ _ element (jsonIndent_blank spacing (level + 1)) isElement
    (jsonIndent_blank spacing level)
  refine ⟨_, rfl, ?_⟩
  have whole := full inside
  simp only [textBytes_append, opens, closes]
  simp only [List.append_assoc, List.cons_append, List.nil_append] at whole ⊢
  exact whole

end Elements

theorem writes_member {depth : Nat} {name : String} {value : JsonValue}
    {written : Except KiraTrap String} (spacing : Int)
    (writes : Writes depth (.value value) written) :
    Writes depth (.member (.mk name value)) (do
      let nameText ← jsonWriteText name
      let valueText ← written
      .ok (nameText ++ (if 0 ≤ spacing then ": " else ":") ++ valueText)) := by
  rcases jsonWriteText_denotes name with ⟨nameText, ran, quoted⟩
  rcases writes with ⟨text, rfl, isValue⟩
  have separator : ∃ blanks, Blanks blanks ∧
      textBytes (if 0 ≤ spacing then ": " else ":") = 58 :: blanks := by
    by_cases pretty : 0 ≤ spacing
    · rw [if_pos pretty]
      exact ⟨[32], List.forall_mem_singleton.mpr (by decide), by decide⟩
    · rw [if_neg pretty]
      exact ⟨[], List.forall_mem_nil IsBlank, by decide⟩
  rcases separator with ⟨blanks, blank, isSeparator⟩
  rw [ran]
  refine ⟨_, rfl, ?_⟩
  have member := Denotes.member quoted (List.forall_mem_nil IsBlank) blank isValue
  rw [textBytes_append, textBytes_append, isSeparator]
  simp only [List.append_assoc, List.cons_append, List.nil_append] at member ⊢
  exact member

/-! ## Every value -/

mutual

theorem jsonWrite_writes (floatText : Float → String) (spacing : Int) :
    ∀ (value : JsonValue) (level depth : Nat), value.nesting ≤ depth → value.NumberFree →
      Writes depth (.value value) (jsonWrite floatText spacing level value)
  | .null, _, _, _, _ => ⟨_, rfl, Denotes.null⟩
  | .boolean true, _, _, _, _ => ⟨_, rfl, Denotes.true⟩
  | .boolean false, _, _, _, _ => ⟨_, rfl, Denotes.false⟩
  | .integer number, _, depth, _, _ => integer_writes depth number
  | .number _, _, _, _, free => absurd free id
  | .text text, _, _, _, _ => by
    rcases jsonWriteText_denotes text with ⟨written, ran, quoted⟩
    exact ⟨written, ran, Denotes.text quoted⟩
  | .array [], _, depth + 1, _, _ => ⟨_, rfl, Denotes.emptyArray (List.forall_mem_nil IsBlank)⟩
  | .array (item :: items), level, depth + 1, fits, free => by
    have within := Nat.le_of_succ_le_succ fits
    have opens : textBytes "[" = [91] := by decide
    have closes : textBytes "]" = [93] := by decide
    exact writes_elements spacing level opens closes
      (jsonWriteItems_writes floatText spacing items (level + 1) depth
        (Nat.le_trans (Nat.le_max_right _ _) within) free.2)
      (jsonWrite_writes floatText spacing item (level + 1) depth
        (Nat.le_trans (Nat.le_max_left _ _) within) free.1) Denotes.array
  | .object [], _, depth + 1, _, _ => ⟨_, rfl, Denotes.emptyObject (List.forall_mem_nil IsBlank)⟩
  | .object (member :: members), level, depth + 1, fits, free => by
    have within := Nat.le_of_succ_le_succ fits
    have opens : textBytes "\x7b" = [123] := by decide
    have closes : textBytes "\x7d" = [125] := by decide
    exact writes_elements spacing level opens closes
      (jsonWriteMembers_writes floatText spacing members (level + 1) depth
        (Nat.le_trans (Nat.le_max_right _ _) within) free.2)
      (jsonWriteMember_writes floatText spacing member (level + 1) depth
        (Nat.le_trans (Nat.le_max_left _ _) within) free.1) Denotes.object
  | .array _, _, 0, fits, _ => absurd fits (Nat.not_succ_le_zero _)
  | .object _, _, 0, fits, _ => absurd fits (Nat.not_succ_le_zero _)

theorem jsonWriteItems_writes (floatText : Float → String) (spacing : Int) :
    ∀ (items : List JsonValue) (level depth : Nat), itemsNesting items ≤ depth →
      ItemsNumberFree items → WritesRest (fun bytes value => Denotes depth bytes (.value value))
        (fun bytes items => Denotes depth bytes (.elements items)) items
        (jsonWriteItems floatText spacing level items)
  | [], _, _, _, _ => writesRest_nil Denotes.lastElement
  | item :: items, level, depth, fits, free =>
    writesRest_cons spacing level Denotes.moreElements
      (jsonWrite_writes floatText spacing item level depth
        (Nat.le_trans (Nat.le_max_left _ _) fits) free.1)
      (jsonWriteItems_writes floatText spacing items level depth
        (Nat.le_trans (Nat.le_max_right _ _) fits) free.2)

theorem jsonWriteMember_writes (floatText : Float → String) (spacing : Int) :
    ∀ (member : JsonMember) (level depth : Nat), member.nesting ≤ depth → member.NumberFree →
      Writes depth (.member member) (jsonWriteMember floatText spacing level member)
  | .mk _ value, level, depth, fits, free =>
    writes_member spacing (jsonWrite_writes floatText spacing value level depth fits free)

theorem jsonWriteMembers_writes (floatText : Float → String) (spacing : Int) :
    ∀ (members : List JsonMember) (level depth : Nat), membersNesting members ≤ depth →
      MembersNumberFree members →
      WritesRest (fun bytes member => Denotes depth bytes (.member member))
        (fun bytes members => Denotes depth bytes (.members members)) members
        (jsonWriteMembers floatText spacing level members)
  | [], _, _, _, _ => writesRest_nil Denotes.lastMember
  | member :: members, level, depth, fits, free =>
    writesRest_cons spacing level Denotes.moreMembers
      (jsonWriteMember_writes floatText spacing member level depth
        (Nat.le_trans (Nat.le_max_left _ _) fits) free.1)
      (jsonWriteMembers_writes floatText spacing members level depth
        (Nat.le_trans (Nat.le_max_right _ _) fits) free.2)

end

/-- Either form of a value without a `Number` is read back as the value. -/
theorem json_round_trip (floatText : Float → String) (value : JsonValue)
    (fits : value.nesting ≤ jsonMaxDepth) (free : value.NumberFree) :
    ((writeJson floatText value).bind parseJson = .ok (.ok value)) ∧
      (writeJsonPretty floatText value).bind parseJson = .ok (.ok value) := by
  have reads (spacing : Int) :
      (jsonWrite floatText spacing 0 value).bind parseJson = .ok (.ok value) := by
    rcases jsonWrite_writes floatText spacing value 0 jsonMaxDepth fits free with
      ⟨text, written, denotes⟩
    rw [written]
    apply parseJson_document
    exact ⟨[], textBytes text, [], by simp, List.forall_mem_nil IsBlank,
      List.forall_mem_nil IsBlank, denotes⟩
  exact ⟨reads (-1), reads 2⟩

/-- An object whose members share a name. -/
def repeatedNames : JsonValue :=
  .object [.mk "\u0001\"λ" (.array [.integer Int64.minValue, .null]), .mk "\u0001\"λ" (.object [])]

theorem json_round_trip_repeated :
    ((writeJson toString repeatedNames).bind parseJson = .ok (.ok repeatedNames)) ∧
      (writeJsonPretty toString repeatedNames).bind parseJson = .ok (.ok repeatedNames) :=
  json_round_trip toString repeatedNames (by decide) ⟨⟨trivial, trivial, trivial⟩, trivial, trivial⟩

end Foundation

end KiraVm
