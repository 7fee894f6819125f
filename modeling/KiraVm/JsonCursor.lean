import KiraVm.JsonGrammar

/-!
# The cursor of the JSON reader

What the small operations do from the bytes that are left, exactly and whatever the
bytes are.
-/

namespace KiraVm

namespace Foundation

open StateLogic

namespace JsonReader

/-- The reader has not stopped and these bytes are left. -/
structure Stands (reader : JsonReader) (rest : List UInt8) : Prop where
  goesOn : reader.stopped = false
  sized : reader.size = (textBytes reader.data).length
  left : (textBytes reader.data).drop reader.position = rest
  within : reader.position ≤ reader.size

theorem Stands.advance {reader : JsonReader} {consumed rest : List UInt8}
    (stands : Stands reader (consumed ++ rest)) : Stands (reader.advance consumed.length) rest := by
  refine ⟨stands.goesOn, stands.sized, ?_, ?_⟩
  · change (textBytes reader.data).drop (reader.position + consumed.length) = rest
    rw [← List.drop_drop, stands.left, List.drop_left]
  · have counted := congrArg List.length stands.left
    rw [List.length_drop, List.length_append, ← stands.sized] at counted
    have inside := stands.within
    change reader.position + consumed.length ≤ reader.size
    omega

variable {reader : JsonReader} {rest : List UInt8}

theorem Stands.step {byte : UInt8} (stands : Stands reader (byte :: rest)) :
    Stands (reader.advance 1) rest :=
  @Stands.advance reader [byte] rest stands

theorem Stands.length (stands : Stands reader rest) :
    reader.position + rest.length = reader.size := by
  have counted := congrArg List.length stands.left
  have inside := stands.within
  rw [List.length_drop, ← stands.sized] at counted
  omega

theorem advance_advance (reader : JsonReader) (first second : Nat) :
    (reader.advance first).advance second = reader.advance (first + second) := by
  simp only [JsonReader.advance, Nat.add_assoc]

/-- The text up to the cursor and behind it. -/
theorem Stands.whole (stands : Stands reader rest) :
    textBytes reader.data = (textBytes reader.data).take reader.position ++ rest := by
  rw [← stands.left, List.take_append_drop]

theorem Stands.front_length (stands : Stands reader rest) :
    ((textBytes reader.data).take reader.position).length = reader.position := by
  rw [List.length_take, ← stands.sized]
  exact Nat.min_eq_left stands.within

theorem orTrap_ok {σ α : Type} (value : α) (state : σ) :
    orTrap (.ok value) state = .ok value state :=
  rfl

theorem moveBy_run (count : Nat) (reader : JsonReader) :
    moveBy count reader = .ok () (reader.advance count) :=
  rfl

section Bytes

variable {reader : JsonReader} {rest : List UInt8} {byte : UInt8}

theorem charAt_run (stands : Stands reader rest) (offset : Nat) (here : rest[offset]? = some byte) :
    charAt (reader.position + offset) reader = .ok byte reader := by
  rw [← stands.left, List.getElem?_drop] at here
  simp only [charAt]
  rw [bind_run_ok (get_run reader), byteAt_ok here]
  rfl

theorem charAt_front (stands : Stands reader (byte :: rest)) :
    charAt reader.position reader = .ok byte reader :=
  charAt_run stands 0 rfl

theorem charAt_anywhere (stands : Stands reader (byte :: rest)) (count : Nat) :
    charAt reader.position (reader.advance count) = .ok byte (reader.advance count) := by
  have here : (textBytes reader.data)[reader.position]? = some byte := by
    rw [← List.head?_drop, stands.left]
    rfl
  have same : byteAt (textBytes (reader.advance count).data) reader.position = .ok byte :=
    byteAt_ok here
  simp only [charAt]
  rw [bind_run_ok (get_run _), same]
  rfl

theorem Stands.inside (stands : Stands reader (byte :: rest)) : reader.position < reader.size := by
  have counted := stands.length
  rw [List.length_cons] at counted
  omega

theorem Stands.ended (stands : Stands reader []) : reader.position = reader.size :=
  stands.length

theorem peek_run (stands : Stands reader rest) : peek reader = .ok rest.head? reader := by
  simp only [peek]
  rw [bind_run_ok (get_run reader)]
  cases rest with
  | nil =>
    rw [if_pos (Nat.le_of_eq stands.ended.symm)]
    rfl
  | cons byte rest =>
    rw [if_neg (Nat.not_le.mpr stands.inside), bind_run_ok (charAt_front stands)]
    rfl

/-- A loop over the bytes that a test accepts goes past all of them. -/
theorem skipFrom_run (accepts : UInt8 → Bool) (stands : Stands reader rest) (turns : Nat)
    (enough : rest.length < turns) :
    skipFrom accepts turns reader = .ok () (reader.advance (rest.takeWhile accepts).length) := by
  induction rest generalizing reader turns with
  | nil =>
    cases turns with
    | zero => exact absurd enough (Nat.not_lt_zero _)
    | succ turns =>
      simp only [skipFrom]
      rw [bind_run_ok (get_run reader),
        if_neg (Nat.not_lt.mpr (Nat.le_of_eq stands.ended.symm))]
      rfl
  | cons byte rest ih =>
    cases turns with
    | zero => exact absurd enough (Nat.not_lt_zero _)
    | succ turns =>
      simp only [skipFrom]
      rw [bind_run_ok (get_run reader), if_pos stands.inside,
        bind_run_ok (charAt_front stands)]
      by_cases accepted : accepts byte = true
      · rw [if_pos accepted, bind_run_ok (moveBy_run 1 reader),
          ih stands.step turns (Nat.lt_of_succ_lt_succ enough), advance_advance,
          List.takeWhile_cons_of_pos accepted, List.length_cons, Nat.add_comm]
      · rw [if_neg accepted, List.takeWhile_cons_of_neg accepted]
        rfl

theorem Stands.turns (stands : Stands reader rest) : rest.length < reader.turnsOf := by
  have counted := stands.length
  unfold turnsOf
  omega

theorem skipWhitespace_run (stands : Stands reader rest) :
    skipWhitespace reader = .ok () (reader.advance (rest.takeWhile isBlank).length) := by
  simp only [skipWhitespace]
  rw [bind_run_ok (get_run reader)]
  exact skipFrom_run isBlank stands _ stands.turns

theorem readDigits_run (stands : Stands reader rest) :
    readDigits reader = .ok (decide (0 < (rest.takeWhile isDigit).length))
      (reader.advance (rest.takeWhile isDigit).length) := by
  simp only [readDigits]
  rw [bind_run_ok (get_run reader), bind_run_ok (skipFrom_run isDigit stands _ stands.turns),
    bind_run_ok (get_run _), pure_run]
  simp only [JsonReader.advance]
  congr 1
  apply decide_eq_decide.mpr
  omega

theorem skipByte_there (stands : Stands reader (byte :: rest)) :
    skipByte byte reader = .ok true (reader.advance 1) := by
  simp only [skipByte]
  rw [bind_run_ok (peek_run stands), List.head?_cons, if_pos rfl]
  rfl

theorem skipByte_absent (stands : Stands reader rest) (absent : rest.head? ≠ some byte) :
    skipByte byte reader = .ok false reader := by
  simp only [skipByte]
  rw [bind_run_ok (peek_run stands), if_neg absent]
  rfl

end Bytes

end JsonReader

end Foundation

end KiraVm
