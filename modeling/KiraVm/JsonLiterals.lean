import KiraVm.JsonNumbers

/-!
# Number literals

The reader of a number takes the literals of the grammar, each to its end.
-/

namespace KiraVm

namespace Foundation

open StateLogic

open Json

namespace JsonReader

/-! ## Reading literals -/

theorem isDigit_iff (byte : UInt8) : isDigit byte = true ↔ 48 ≤ byte ∧ byte ≤ 57 := by
  unfold isDigit
  rw [Bool.and_eq_true, decide_eq_true_eq, decide_eq_true_eq]

/-- No digit stands at the front. -/
def NoDigit (bytes : List UInt8) : Prop :=
  ∀ byte ∈ bytes.head?, isDigit byte = false

theorem takeWhile_digits {digits rest : List UInt8} (decimal : AllDigits digits)
    (stops : NoDigit rest) : (digits ++ rest).takeWhile isDigit = digits := by
  have all : ∀ byte ∈ digits, isDigit byte = true :=
    fun byte among => (isDigit_iff byte).mpr (decimal byte among)
  have none : rest.takeWhile isDigit = [] := by
    cases rest with
    | nil => rfl
    | cons byte rest =>
      have stopped := stops byte rfl
      exact List.takeWhile_cons_of_neg (by rw [stopped]; decide)
  rw [List.takeWhile_append_of_pos all, none, List.append_nil]

section Pieces

variable {reader : JsonReader} {rest left : List UInt8}

variable {digits : List UInt8}

theorem readDigits_takes (decimal : AllDigits digits) (stops : NoDigit left)
    (stands : Stands reader (digits ++ left)) :
    readDigits reader = .ok (decide (0 < digits.length)) (reader.advance digits.length) := by
  rw [readDigits_run stands, takeWhile_digits decimal stops]

theorem length_pos_of_digits (decimal : Digits digits) : 0 < digits.length :=
  List.length_pos_of_ne_nil decimal.1

theorem not_minus_of_digit (decimal : Digits digits) : (digits ++ left).head? ≠ some 45 := by
  rcases List.exists_cons_of_ne_nil decimal.1 with ⟨digit, digits, rfl⟩
  have bounds := decimal.2 digit List.mem_cons_self
  intro same
  rw [Option.some.inj same] at bounds
  exact absurd bounds.1 (by decide)

end Pieces

/-! ## Values of literals -/

theorem ascii_digit {byte : UInt8} (digit : 48 ≤ byte ∧ byte ≤ 57) : byte < 128 :=
  UInt8.lt_of_le_of_lt digit.2 (by decide)

variable {literal : Literal}

theorem literal_ascii (well : literal.IsWell) : ∀ byte ∈ literal.bytes, byte < 128 := by
  intro byte among
  unfold Literal.bytes at among
  rcases List.mem_append.mp among with inSign | inWhole
  · cases negative : literal.negative with
    | true =>
      rw [negative] at inSign
      rw [List.mem_singleton.mp inSign]
      decide
    | false =>
      rw [negative] at inSign
      exact absurd inSign List.not_mem_nil
  · exact ascii_digit (well.whole.2 byte inWhole)

theorem ascii_slice {text : String} {front slice left : List UInt8}
    (whole : textBytes text = front ++ (slice ++ left)) (ascii : ∀ byte ∈ slice, byte < 128)
    (some : slice ≠ []) : ∃ part,
      substring text front.length (front.length + slice.length) = .ok part ∧
        textBytes part = slice := by
  apply substring_cut whole
  · rcases List.exists_cons_of_ne_nil some with ⟨byte, rest, rfl⟩
    exact begins_ascii (ascii byte List.mem_cons_self) (rest ++ left)
  · have last := List.dropLast_concat_getLast some
    have split : textBytes text = (front ++ slice.dropLast) ++ slice.getLast some :: left := by
      rw [whole]
      conv => lhs; rw [← last]
      simp
    exact begins_behind split (ascii _ (List.getLast_mem some))

theorem literal_ne_nil (well : literal.IsWell) : literal.bytes ≠ [] := by
  intro empty
  exact well.whole.1 (List.append_eq_nil_iff.mp empty).2

/-- A literal that has been read to its end is the `Int` that it spells. -/
theorem numberValue_run {reader : JsonReader} {front left : List UInt8} (well : literal.IsWell)
    (isInt : literal.IsInt) (whole : textBytes reader.data = front ++ (literal.bytes ++ left))
    (here : reader.position = front.length + literal.bytes.length) :
    numberValue front.length literal.negative none none reader =
      .ok (.integer (Int64.ofInt literal.integer)) reader := by
  rcases ascii_slice whole (literal_ascii well) (literal_ne_nil well) with ⟨part, sliced, isLiteral⟩
  have spelled : jsonWholeNumber literal.bytes = .ok (some literal.integer) := by
    unfold Literal.IsInt Literal.integer at isInt
    unfold Literal.bytes Literal.integer
    rw [jsonWholeNumber_spec well.whole, if_pos isInt]
  unfold numberValue
  rw [bind_run_ok (get_run reader), here, sliced, bind_run_ok (orTrap_ok part reader), isLiteral,
    if_pos ⟨rfl, rfl⟩, spelled, bind_run_ok (orTrap_ok _ reader)]
  rfl

/-! ## The reader of literals -/

/-- A literal does not go on in what follows it. -/
structure Ends (left : List UInt8) : Prop where
  noDigit : NoDigit left
  noPoint : left.head? ≠ some 46
  noMark : ¬ (left.head? = some 101 ∨ left.head? = some 69)

section Literals

variable {reader : JsonReader} {rest left : List UInt8}

/-- What `readNumber` does behind the whole digits. -/
def readScale (start : Nat) (negative : Bool) : OnJson JsonValue := do
  let fraction ← readFraction start
  let afterFraction ← get
  if afterFraction.stopped then pure .null
  else do
    let exponent ← readExponent start
    let afterExponent ← get
    if afterExponent.stopped then pure .null
    else numberValue start negative fraction exponent

/-- What `readNumber` does behind the sign. -/
def readUnsigned (start : Nat) (negative : Bool) : OnJson JsonValue := do
  let integerStart ← get
  let any ← readDigits
  if !any then refuse .invalidNumber start .null
  else do
    let whole ← get
    let first ← charAt integerStart.position
    if 1 < whole.position - integerStart.position ∧ first = 48 then
      refuse .invalidNumber integerStart.position .null
    else readScale start negative

theorem readNumber_eq : readNumber = (do
    let reader ← get
    let negative ← skipByte 45
    readUnsigned reader.position negative) :=
  rfl

/-- The digits in front of a fraction, up to the fraction. -/
theorem readUnsigned_whole {whole : List UInt8} (decimal : Digits whole) (stops : NoDigit left)
    (noLeadingZero : whole.head? = some 48 → whole = [48])
    (stands : Stands reader (whole ++ left)) (start : Nat) (negative : Bool) :
    readUnsigned start negative reader =
      readScale start negative (reader.advance whole.length) := by
  have some := length_pos_of_digits decimal
  rcases List.exists_cons_of_ne_nil decimal.1 with ⟨digit, digits, rfl⟩
  have single : ¬ (1 < (reader.advance (digit :: digits).length).position - reader.position ∧
      digit = 48) := by
    rintro ⟨long, zero⟩
    have alone := noLeadingZero (by rw [zero]; rfl)
    rw [alone] at long
    simp only [JsonReader.advance, List.length_singleton] at long
    omega
  have front : Stands reader (digit :: (digits ++ left)) := stands
  simp only [readUnsigned]
  rw [bind_run_ok (get_run reader), bind_run_ok (readDigits_takes decimal.2 stops stands)]
  rw [decide_eq_true some]
  simp only [Bool.not_true, Bool.false_eq_true, if_false]
  rw [bind_run_ok (get_run _), bind_run_ok (charAt_anywhere front _), if_neg single]

/-- Neither a fraction nor an exponent stands behind the whole digits. -/
theorem readScale_run {front : List UInt8} (well : literal.IsWell) (isInt : literal.IsInt)
    (ends : Ends left) (stands : Stands reader left)
    (whole : textBytes reader.data = front ++ (literal.bytes ++ left))
    (here : reader.position = front.length + literal.bytes.length) :
    readScale front.length literal.negative reader =
      .ok (.integer (Int64.ofInt literal.integer)) reader := by
  have noFraction : readFraction front.length reader = .ok none reader := by
    simp only [readFraction]
    rw [bind_run_ok (skipByte_absent stands ends.noPoint)]
    rfl
  have noExponent : readExponent front.length reader = .ok none reader := by
    simp only [readExponent]
    rw [bind_run_ok (peek_run stands), if_neg ends.noMark]
    rfl
  simp only [readScale]
  rw [bind_run_ok noFraction, bind_run_ok (get_run _), if_neg (by rw [stands.goesOn]; decide),
    bind_run_ok noExponent, bind_run_ok (get_run _), if_neg (by rw [stands.goesOn]; decide),
    numberValue_run well isInt whole here]

theorem readNumber_sign {negative : Bool} (unsigned : negative = false → rest.head? ≠ some 45)
    (stands : Stands reader ((if negative then [45] else []) ++ rest)) :
    Stands (reader.advance (if negative then 1 else 0)) rest ∧
      readNumber reader = readUnsigned reader.position negative
        (reader.advance (if negative then 1 else 0)) := by
  rw [readNumber_eq]
  cases negative with
  | true =>
    have minus : Stands reader (45 :: rest) := stands
    refine ⟨minus.step, ?_⟩
    rw [bind_run_ok (get_run reader), bind_run_ok (skipByte_there minus)]
    rfl
  | false =>
    have plain : Stands reader rest := stands
    refine ⟨plain, ?_⟩
    rw [bind_run_ok (get_run reader), bind_run_ok (skipByte_absent plain (unsigned rfl))]
    rfl

theorem readNumber_takes (well : literal.IsWell) (isInt : literal.IsInt) (ends : Ends left)
    (stands : Stands reader (literal.bytes ++ left)) :
    readNumber reader =
      .ok (.integer (Int64.ofInt literal.integer)) (reader.advance literal.bytes.length) := by
  have signed := stands
  unfold Literal.bytes at signed
  rw [List.append_assoc] at signed
  rcases readNumber_sign (fun _ => not_minus_of_digit well.whole) signed with ⟨behind, ran⟩
  have length : (if literal.negative then 1 else 0) + literal.whole.length =
      literal.bytes.length := by
    unfold Literal.bytes
    cases literal.negative with
    | true => exact Nat.add_comm _ _
    | false => exact Nat.zero_add _
  have read := @readScale_run literal (reader.advance literal.bytes.length) left _ well isInt ends
    stands.advance stands.whole (by rw [stands.front_length]; rfl)
  rw [stands.front_length] at read
  rw [ran, readUnsigned_whole well.whole ends.noDigit well.noLeadingZero behind, advance_advance,
    length]
  exact read

end Literals

end JsonReader

end Foundation

end KiraVm
