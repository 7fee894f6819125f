import KiraVm.JsonValues

/-!
# Documents

The reader answers every document of the grammar with the value that it denotes.
-/

namespace KiraVm

namespace Foundation

open StateLogic

open Json

namespace JsonReader

variable {reader : JsonReader} {rest : List UInt8}

/-! ## Whole texts -/

theorem jsonReaderOf_stands (text : String) : Stands (jsonReaderOf text) (textBytes text) where
  goesOn := rfl
  sized := rfl
  left := rfl
  within := Nat.zero_le _

/-- What `parseJson` answers, from what the reader ends in. -/
theorem parseJson_run {text : String} {answer : JsonValue} {after : JsonReader}
    (ran : readDocument jsonFrames (jsonReaderOf text) = .ok answer after) :
    parseJson text =
      if after.stopped then .ok (.error ⟨after.reason, after.errorAt⟩) else .ok (.ok answer) := by
  unfold parseJson
  rw [ran]

/-- What `readDocument` does behind its value. -/
def readEnd (value : JsonValue) : OnJson JsonValue := do
  skipWhitespace
  let behind ← get
  if behind.position < behind.size then refuse .trailingText behind.position .null
  else pure value

theorem readDocument_value {text : String} {before left : List UInt8} {value : JsonValue}
    {after : JsonReader} (split : textBytes text = before ++ left) (blankBefore : Blanks before)
    (opens : NoBlank left)
    (ran : readValue jsonFrames ((jsonReaderOf text).advance before.length) = .ok value after) :
    readDocument jsonFrames (jsonReaderOf text) =
      (if after.stopped then pure .null else readEnd value) after := by
  have stands := jsonReaderOf_stands text
  rw [split] at stands
  simp only [readDocument]
  rw [bind_run_ok (skipWhitespace_takes blankBefore opens stands), bind_run_ok ran,
    bind_run_ok (get_run after)]
  rfl

theorem readEnd_takes {after : List UInt8} (value : JsonValue) (blank : Blanks after)
    (stands : Stands reader after) :
    readEnd value reader = .ok value (reader.advance after.length) := by
  rw [← List.append_nil after] at stands
  have ended : ¬ (reader.advance after.length).position < (reader.advance after.length).size :=
    Nat.not_lt.mpr (Nat.le_of_eq stands.advance.ended.symm)
  simp only [readEnd]
  rw [bind_run_ok (skipWhitespace_takes blank (fun byte first => by cases first) stands),
    bind_run_ok (get_run _), if_neg ended]
  rfl

end JsonReader

open JsonReader

theorem parseJson_document {text : String} {value : JsonValue} (document : Document text value) :
    parseJson text = .ok (.ok value) := by
  rcases document with ⟨before, bytes, after, split, blankBefore, blankAfter, denotes⟩
  have stands := jsonReaderOf_stands text
  rw [split] at stands
  have nested : ((jsonReaderOf text).advance before.length).depth + jsonMaxDepth ≤ jsonMaxDepth :=
    Nat.le_of_eq (Nat.zero_add _)
  have follows : Follows after := by
    have nothing : Follows [] := fun byte first => by cases first
    rw [← List.append_nil after]
    exact follows_behind_blanks blankAfter nothing
  have ran := takes denotes (by decide : jsonMaxDepth < jsonFrames) stands.advance nested follows
  have there := stands.advance.advance
  have read := readDocument_value split blankBefore ((value_opens denotes).noBlank after) ran
  rw [there.goesOn, if_neg (by decide), readEnd_takes value blankAfter there] at read
  rw [parseJson_run read]
  exact if_neg (Bool.eq_false_iff.mp there.goesOn)

end Foundation

end KiraVm
