import KiraVm.KtenTexts

/-!
# The shape of a Kten document

Which bytes spell a value, apart from any reader, and which bytes stop the
program: a length or a count past the signed range, the text of a `Float` that
dips, or a nesting that runs out of frames, in a place that the bytes before it lead
to.  Both are said of a value that is read while so many frames are left.
-/

namespace KiraVm

namespace Foundation

open StateLogic

/-! ## Grammar -/

def Declares (groups : List UInt8) (count : Nat) : Prop :=
  Varint 10 groups ∧ varintNumber groups % 2 ^ 64 = count

/-- A length and as many bytes. -/
def SpellsRaw (bytes raw : List UInt8) : Prop :=
  ∃ groups, bytes = groups ++ raw ∧ Declares groups raw.length ∧ raw.length < 2 ^ 63

def SpellsCount (groups : List UInt8) (count : Nat) : Prop :=
  Declares groups count ∧ count < 2 ^ 63

/-- The bytes begin with a count past the signed range. -/
def Oversized (bytes : List UInt8) : Prop :=
  ∃ groups rest count, bytes = groups ++ rest ∧ Declares groups count ∧ 2 ^ 63 ≤ count

/-- The bytes make a text that stops the program as a number. -/
def IsHostileRaw (raw : List UInt8) : Prop :=
  ∃ text, ktenBytesToString raw = .ok text ∧ IsHostileNumber (textBytes text)

/-- The bytes begin with a length, and what there is of the text behind it stops the program as
a number. -/
def HostileNumber (bytes : List UInt8) : Prop :=
  ∃ groups rest length, bytes = groups ++ rest ∧ SpellsCount groups length ∧
    IsHostileRaw (rest.take length)

inductive Item
  | value
  | values (count : Nat)
  | fields (count : Nat)

/-- A tag that a length or a count follows. -/
def declaringTags : List UInt8 :=
  [ktenTagFloat, ktenTagText, ktenTagBytes, ktenTagList, ktenTagObject, ktenTagCase]

/-- How deep the calls nest in a value of the tag that take what follows the tag. -/
def callsBehind (tag : UInt8) : Nat :=
  if tag = ktenTagBytes ∨ tag = ktenTagList then 2
  else if tag = ktenTagInt ∨ tag ∈ declaringTags then 3
  else 1

/-- The bytes end inside a varint of so many groups. -/
def EndsWithin (groups : Nat) (bytes : List UInt8) : Prop :=
  bytes.length < groups ∧ ∀ byte ∈ bytes, 128 ≤ byte.toNat

/-- The bytes end where the first of the calls behind the tag wants another. -/
def EndsBehind (tag : UInt8) (bytes : List UInt8) : Prop :=
  if tag = ktenTagBool then bytes = []
  else (tag = ktenTagInt ∨ tag ∈ declaringTags) ∧ EndsWithin 10 bytes

/-- The bytes are the item, and it is read while so many frames are left. -/
inductive Spells : Nat → Item → List UInt8 → Prop
  | null {frames : Nat} : Spells (frames + 2) .value [ktenTagNull]
  | bool {frames : Nat} (flag : UInt8) : Spells (frames + 2) .value [ktenTagBool, flag]
  | int {frames : Nat} {groups : List UInt8} (number : Varint 10 groups) :
      Spells (frames + 4) .value (ktenTagInt :: groups)
  | float {frames : Nat} {bytes raw : List UInt8} (text : SpellsRaw bytes raw)
      (level : ¬ IsHostileRaw raw) : Spells (frames + 4) .value (ktenTagFloat :: bytes)
  | text {frames : Nat} {bytes raw : List UInt8} (text : SpellsRaw bytes raw) :
      Spells (frames + 4) .value (ktenTagText :: bytes)
  | bytes {frames : Nat} {bytes raw : List UInt8} (content : SpellsRaw bytes raw) :
      Spells (frames + 3) .value (ktenTagBytes :: bytes)
  | list {frames : Nat} {groups items : List UInt8} {count : Nat}
      (counted : SpellsCount groups count) (each : Spells (frames + 2) (.values count) items) :
      Spells (frames + 3) .value (ktenTagList :: (groups ++ items))
  | object {frames : Nat} {tag raw groups fields : List UInt8} {count : Nat}
      (named : SpellsRaw tag raw) (counted : SpellsCount groups count)
      (each : Spells (frames + 3) (.fields count) fields) :
      Spells (frames + 4) .value (ktenTagObject :: (tag ++ (groups ++ fields)))
  | case {frames : Nat} {name raw groups payload : List UInt8} {count : Nat}
      (named : SpellsRaw name raw) (counted : SpellsCount groups count)
      (each : Spells (frames + 3) (.values count) payload) :
      Spells (frames + 4) .value (ktenTagCase :: (name ++ (groups ++ payload)))
  | noValues {frames : Nat} : Spells frames (.values 0) []
  | values {frames : Nat} {value values : List UInt8} {count : Nat}
      (first : Spells frames .value value) (rest : Spells frames (.values count) values) :
      Spells frames (.values (count + 1)) (value ++ values)
  | noFields {frames : Nat} : Spells frames (.fields 0) []
  | fields {frames : Nat} {name raw value fields : List UInt8} {count : Nat}
      (named : SpellsRaw name raw) (first : Spells (frames + 3) .value value)
      (rest : Spells (frames + 3) (.fields count) fields) :
      Spells (frames + 3) (.fields (count + 1)) (name ++ (value ++ fields))

/-- Reading the item from the bytes, while so many frames are left, stops the program. -/
inductive Hostile : Nat → Item → List UInt8 → Prop
  | ended {frames : Nat} (few : frames ≤ 2) : Hostile frames .value []
  | shallow {frames : Nat} {tag : UInt8} {bytes : List UInt8} (few : frames ≤ callsBehind tag) :
      Hostile frames .value (tag :: bytes)
  | cut {frames : Nat} {tag : UInt8} {bytes : List UInt8} (few : frames ≤ callsBehind tag + 1)
      (ends : EndsBehind tag bytes) : Hostile frames .value (tag :: bytes)
  | fieldCut {frames : Nat} {bytes : List UInt8} {count : Nat} (few : frames ≤ 3)
      (ends : EndsWithin 10 bytes) : Hostile frames (.fields (count + 1)) bytes
  | declared {frames : Nat} {tag : UInt8} {bytes : List UInt8} (declares : tag ∈ declaringTags)
      (oversized : Oversized bytes) : Hostile frames .value (tag :: bytes)
  | number {frames : Nat} {bytes : List UInt8} (dips : HostileNumber bytes) :
      Hostile frames .value (ktenTagFloat :: bytes)
  | listItem {frames : Nat} {groups bytes : List UInt8} {count : Nat}
      (counted : SpellsCount groups count) (inside : Hostile frames (.values count) bytes) :
      Hostile (frames + 1) .value (ktenTagList :: (groups ++ bytes))
  | objectCount {frames : Nat} {tag raw bytes : List UInt8} (named : SpellsRaw tag raw)
      (oversized : Oversized bytes) : Hostile frames .value (ktenTagObject :: (tag ++ bytes))
  | objectField {frames : Nat} {tag raw groups bytes : List UInt8} {count : Nat}
      (named : SpellsRaw tag raw) (counted : SpellsCount groups count)
      (inside : Hostile frames (.fields count) bytes) :
      Hostile (frames + 1) .value (ktenTagObject :: (tag ++ (groups ++ bytes)))
  | caseCount {frames : Nat} {name raw bytes : List UInt8} (named : SpellsRaw name raw)
      (oversized : Oversized bytes) : Hostile frames .value (ktenTagCase :: (name ++ bytes))
  | casePayload {frames : Nat} {name raw groups bytes : List UInt8} {count : Nat}
      (named : SpellsRaw name raw) (counted : SpellsCount groups count)
      (inside : Hostile frames (.values count) bytes) :
      Hostile (frames + 1) .value (ktenTagCase :: (name ++ (groups ++ bytes)))
  | firstValue {frames : Nat} {bytes : List UInt8} {count : Nat}
      (first : Hostile frames .value bytes) : Hostile frames (.values (count + 1)) bytes
  | laterValue {frames : Nat} {value bytes : List UInt8} {count : Nat}
      (first : Spells frames .value value) (later : Hostile frames (.values count) bytes) :
      Hostile frames (.values (count + 1)) (value ++ bytes)
  | fieldName {frames : Nat} {bytes : List UInt8} {count : Nat} (oversized : Oversized bytes) :
      Hostile frames (.fields (count + 1)) bytes
  | fieldValue {frames : Nat} {name raw bytes : List UInt8} {count : Nat}
      (named : SpellsRaw name raw) (first : Hostile frames .value bytes) :
      Hostile frames (.fields (count + 1)) (name ++ bytes)
  | laterField {frames : Nat} {name raw value bytes : List UInt8} {count : Nat}
      (named : SpellsRaw name raw) (first : Spells frames .value value)
      (later : Hostile frames (.fields count) bytes) :
      Hostile frames (.fields (count + 1)) (name ++ (value ++ bytes))

/-! ## What is spelled is taken -/

variable {groups : List UInt8} {count frames : Nat} {bytes : List UInt8}

theorem ofNat_declared (declares : Declares groups count) :
    (UInt64.ofNat (varintNumber groups)).toNat = count := by
  rw [UInt64.toNat_ofNat']
  exact declares.2

theorem intOfU64_declared (counted : SpellsCount groups count) :
    intOfU64 (UInt64.ofNat (varintNumber groups)) = .ok count := by
  have word := ofNat_declared counted.1
  rw [intOfU64_ok (by rw [word]; exact counted.2), word]

theorem takes_spelledCount (counted : SpellsCount groups count) :
    Takes (takeCount (frames + 2)) groups count := by
  unfold takeCount
  apply ((takes_varint counted.1.1).bind ?_).congr (List.append_nil groups)
  apply Takes.orTrap (intOfU64_declared counted)
  exact Takes.pure count

theorem takes_spelledRaw {raw : List UInt8} (spelled : SpellsRaw bytes raw) :
    Takes (do
      let declared ← takeVarUInt (frames + 2)
      let length ← orTrap (intOfU64 declared)
      let content ← takeRaw (frames + 2) length
      pure (Kten.bytes content)) bytes (.bytes raw) := by
  rcases spelled with ⟨groups, rfl, declares, small⟩
  apply (takes_varint declares.1).bind
  apply Takes.orTrap (intOfU64_declared ⟨declares, small⟩)
  exact (takes_raw raw).andPure

theorem takes_spelledString {raw : List UInt8} {text : String}
    (spelled : SpellsRaw bytes raw) (rebuilt : ktenBytesToString raw = .ok text) :
    Takes (takeString (frames + 3)) bytes text := by
  rcases spelled with ⟨groups, rfl, declares, small⟩
  apply (takes_varint declares.1).bind
  apply Takes.orTrap (intOfU64_declared ⟨declares, small⟩)
  apply Takes.unlessFailed
  apply ((takes_raw raw).bind ?_).congr (List.append_nil raw)
  rw [rebuilt]
  exact Takes.pure text

def Item.Taken (frames : Nat) (bytes : List UInt8) : Item → Prop
  | .value => ∃ value, Takes (takeValue frames) bytes value
  | .values count => ∃ values, Takes (takeEach (takeValue frames) count) bytes values
  | .fields count =>
    ∃ fields, Takes (takeEach (takeField frames (takeValue frames)) count) bytes fields

theorem spelled_taken {item : Item} (spells : Spells frames item bytes) :
    item.Taken frames bytes := by
  induction spells with
  | null => exact ⟨.null, (takes_byte ktenTagNull).bind (Takes.unlessFailed (Takes.pure _))⟩
  | bool flag =>
    exact ⟨_, (takes_byte ktenTagBool).bind (Takes.unlessFailed (takes_byte flag).andPure)⟩
  | int number =>
    exact ⟨_, (takes_byte ktenTagInt).bind
      (Takes.unlessFailed (takes_signed (takes_varint number)).andPure)⟩
  | @float frames bytes raw text level =>
    rcases ktenBytesToString_total _ with ⟨content, rebuilt⟩
    rcases ktenParseFloat_spec content with ⟨hostile, -⟩ | ⟨-, number, parsed⟩
    · exact absurd ⟨content, rebuilt, hostile⟩ level
    · have read : Takes (do
          let text ← takeString (frames + 3)
          let number ← orTrap (ktenParseFloat text)
          pure (Kten.float number)) (_ ++ []) (.float number) :=
        (takes_spelledString text rebuilt).bind (Takes.orTrap parsed (Takes.pure _))
      exact ⟨_, (takes_byte ktenTagFloat).bind
        (Takes.unlessFailed (read.congr (List.append_nil _)))⟩
  | text text =>
    rcases ktenBytesToString_total _ with ⟨content, rebuilt⟩
    exact ⟨_, (takes_byte ktenTagText).bind
      (Takes.unlessFailed (takes_spelledString text rebuilt).andPure)⟩
  | bytes content =>
    exact ⟨_, (takes_byte ktenTagBytes).bind
      (Takes.unlessFailed (takes_spelledRaw content))⟩
  | list counted each ih =>
    rcases ih with ⟨items, takes⟩
    exact ⟨_, (takes_byte ktenTagList).bind
      (Takes.unlessFailed ((takes_spelledCount counted).bind takes.andPure))⟩
  | object named counted each ih =>
    rcases ktenBytesToString_total _ with ⟨tag, rebuilt⟩
    rcases ih with ⟨fields, takes⟩
    exact ⟨_, (takes_byte ktenTagObject).bind
      (Takes.unlessFailed ((takes_spelledString named rebuilt).bind
        ((takes_spelledCount counted).bind takes.andPure)))⟩
  | case named counted each ih =>
    rcases ktenBytesToString_total _ with ⟨name, rebuilt⟩
    rcases ih with ⟨payload, takes⟩
    exact ⟨_, (takes_byte ktenTagCase).bind
      (Takes.unlessFailed ((takes_spelledString named rebuilt).bind
        ((takes_spelledCount counted).bind takes.andPure)))⟩
  | noValues => exact ⟨[], Takes.pure []⟩
  | values first rest ihFirst ihRest =>
    rcases ihFirst with ⟨value, takesFirst⟩
    rcases ihRest with ⟨values, takesRest⟩
    exact ⟨value :: values, takes_each_cons takesFirst takesRest⟩
  | noFields => exact ⟨[], Takes.pure []⟩
  | @fields frames name raw value fields count named first rest ihFirst ihRest =>
    rcases ktenBytesToString_total _ with ⟨name, rebuilt⟩
    rcases ihFirst with ⟨value, takesFirst⟩
    rcases ihRest with ⟨fields, takesRest⟩
    have takesField : Takes (takeField (frames + 3) (takeValue (frames + 3))) _ (.mk name value) :=
      (takes_spelledString named rebuilt).bind takesFirst.andPure
    exact ⟨_, (takes_each_cons takesField takesRest).congr (List.append_assoc _ _ _)⟩

/-! ## What is hostile stops the program -/

/-- A reader that has failed stands at the end. -/
def Stopped (reader : KtenReader) : Prop :=
  reader.failed = true ∧ reader.cursor = reader.bytes.length

def Traps {α : Type} (operation : OnReader α) (bytes : List UInt8) : Prop :=
  ∀ reader, Stands reader bytes → ∃ trap after, operation reader = .error trap after

/-- There is no frame for the operation, or for the first calls that it makes. -/
def Shallow {α : Type} (operation : OnReader α) : Prop :=
  ∀ reader, operation reader = .error .callDepth reader

/-- The operation runs out of frames on the bytes. -/
def Stuck {α : Type} (operation : OnReader α) (bytes : List UInt8) : Prop :=
  ∀ reader, Stands reader bytes → ∃ after, operation reader = .error .callDepth after ∧
    after.work ≤ reader.work + bytes.length + 1

section Rules

variable {α β : Type} {operation : OnReader α} {next : α → OnReader β}
  {first bytes : List UInt8} {value : α}

theorem Traps.bind (traps : Traps operation bytes) : Traps (operation >>= next) bytes := by
  intro reader stands
  rcases traps reader stands with ⟨trap, after, ran⟩
  exact ⟨trap, after, bind_run_error ran⟩

theorem Takes.traps (takes : Takes operation first value) (traps : Traps (next value) bytes) :
    Traps (operation >>= next) (first ++ bytes) := by
  intro reader stands
  rcases takes reader bytes stands with ⟨work, ran⟩
  rcases traps _ (stands.advance work) with ⟨trap, after, ranRest⟩
  exact ⟨trap, after, by rw [bind_run_ok ran, ranRest]⟩

theorem Traps.unlessFailed {other trapping : OnReader β} (traps : Traps trapping bytes) :
    Traps (do let reader ← get; if reader.failed then other else trapping) bytes := by
  intro reader stands
  have goesOn : (if reader.failed then other else trapping) = trapping := by
    rw [stands.1]
    rfl
  rw [bind_run_ok (get_run reader), goesOn]
  exact traps reader stands

theorem traps_error (trap : KiraTrap) (next : α → OnReader β) (bytes : List UInt8) :
    Traps (orTrap (.error trap) >>= next) bytes :=
  fun reader _ => ⟨trap, reader, rfl⟩

theorem Shallow.bind (shallow : Shallow operation) : Shallow (operation >>= next) :=
  fun reader => bind_run_error (shallow reader)

theorem Shallow.stuck (shallow : Shallow operation) (bytes : List UInt8) :
    Stuck operation bytes :=
  fun reader _ => ⟨reader, shallow reader, by omega⟩

theorem Stuck.bind (stuck : Stuck operation bytes) : Stuck (operation >>= next) bytes := by
  intro reader stands
  rcases stuck reader stands with ⟨after, ran, spent⟩
  exact ⟨after, bind_run_error ran, spent⟩

theorem Stuck.traps (stuck : Stuck operation bytes) : Traps operation bytes := by
  intro reader stands
  rcases stuck reader stands with ⟨after, ran, -⟩
  exact ⟨_, after, ran⟩

end Rules

theorem takeVarUInt_shallow (few : frames < 2) : Shallow (takeVarUInt frames) := by
  intro reader
  rcases Nat.le_one_iff_eq_zero_or_eq_one.mp (Nat.le_of_lt_succ few) with rfl | rfl
  · rfl
  · rw [takeVarUInt, takeVarUIntFrom, if_neg (by decide)]
    rfl

variable {reader : KtenReader}

theorem Stands.ended (stands : Stands reader []) : reader.bytes.length ≤ reader.cursor :=
  List.drop_eq_nil_iff.mp stands.2

theorem takeVarUIntFrom_run {result : UInt64} {shift : Nat} {byte : UInt8} (inRange : shift < 64)
    (stands : Stands reader (byte :: bytes)) :
    takeVarUIntFrom (frames + 1) result shift reader =
      (if byte &&& 128 ≠ 0 then
        takeVarUIntFrom (frames + 1) (result ||| (byte &&& 127).toUInt64 <<< UInt64.ofNat shift)
          (shift + 7)
      else pure (result ||| (byte &&& 127).toUInt64 <<< UInt64.ofNat shift))
        reader.worked.moved := by
  have goesOn : ¬ reader.worked.moved.failed = true := by
    rw [stands.step.1]
    decide
  conv => lhs; unfold takeVarUIntFrom
  rw [if_neg (by omega), bind_run_ok (takeByte_run stands), bind_run_ok (get_run _),
    if_neg goesOn]

theorem takeByte_stuck (few : frames ≤ 1) : Stuck (takeByte frames) [] := by
  rcases Nat.le_one_iff_eq_zero_or_eq_one.mp few with rfl | rfl
  · exact fun reader _ => ⟨reader, rfl, Nat.le_add_right _ _⟩
  · intro reader stands
    have ended : reader.worked.bytes.length ≤ reader.worked.cursor := stands.ended
    refine ⟨reader.worked, ?_, Nat.le_refl _⟩
    rw [takeByte, bind_run_ok (countWork_run reader), bind_run_ok (get_run _), if_pos ended]
    rfl

/-- Bytes that end inside a varint, where there is no frame to fail in. -/
theorem takeVarUIntFrom_stuck {room : Nat} (ends : EndsWithin room bytes) (result : UInt64)
    {shift : Nat} (turns : shift + 7 * room = 70) :
    Stuck (takeVarUIntFrom 1 result shift) bytes := by
  induction bytes generalizing room result shift with
  | nil =>
    have short := ends.1
    rw [List.length_nil] at short
    unfold takeVarUIntFrom
    rw [if_neg (by omega)]
    exact (takeByte_stuck (Nat.le_refl 1)).bind
  | cons byte bytes ih =>
    intro reader stands
    rcases room with _ | room
    · exact absurd ends.1 (Nat.not_lt_zero _)
    have goesOn : byte &&& 128 ≠ 0 := (and128_iff byte).mpr (ends.2 byte List.mem_cons_self)
    have later : EndsWithin room bytes :=
      ⟨Nat.lt_of_succ_lt_succ ends.1, fun other among => ends.2 other (List.mem_cons_of_mem _ among)⟩
    have onward : shift + 7 + 7 * room = 70 := by omega
    rw [takeVarUIntFrom_run (by omega) stands, if_pos goesOn]
    rcases ih later _ onward _ stands.step with ⟨after, ran, spent⟩
    refine ⟨after, ran, ?_⟩
    simp only [KtenReader.moved, KtenReader.worked] at spent
    rw [List.length_cons]
    omega

theorem takeVarUInt_stuck (few : frames ≤ 2) (ends : EndsWithin 10 bytes) :
    Stuck (takeVarUInt frames) bytes := by
  rcases Nat.lt_or_eq_of_le few with fewer | rfl
  · exact (takeVarUInt_shallow fewer).stuck bytes
  · exact takeVarUIntFrom_stuck ends 0 rfl

theorem takeString_stuck (few : frames ≤ 3) (ends : EndsWithin 10 bytes) :
    Stuck (takeString frames) bytes := by
  cases frames with
  | zero => exact fun reader _ => ⟨reader, rfl, by omega⟩
  | succ frames => exact (takeVarUInt_stuck (Nat.le_of_succ_le_succ few) ends).bind

theorem takeVarInt_stuck (few : frames ≤ 3) (ends : EndsWithin 10 bytes) :
    Stuck (takeVarInt frames) bytes := by
  cases frames with
  | zero => exact fun reader _ => ⟨reader, rfl, by omega⟩
  | succ frames => exact (takeVarUInt_stuck (Nat.le_of_succ_le_succ few) ends).bind

theorem takeVarInt_shallow (few : frames < 3) : Shallow (takeVarInt frames) := by
  cases frames with
  | zero => exact fun _ => rfl
  | succ frames => exact (takeVarUInt_shallow (Nat.lt_of_succ_lt_succ few)).bind

theorem takeString_shallow (few : frames < 3) : Shallow (takeString frames) := by
  cases frames with
  | zero => exact fun _ => rfl
  | succ frames => exact (takeVarUInt_shallow (Nat.lt_of_succ_lt_succ few)).bind

/-- What the tag of a node selects. -/
def takeTagged (frames : Nat) (tag : UInt8) : OnReader Kten :=
  if tag = ktenTagNull then pure .null
  else if tag = ktenTagBool then do
    let flag ← takeByte frames
    pure (.bool (flag != 0))
  else if tag = ktenTagInt then do
    let number ← takeVarInt frames
    pure (.int number)
  else if tag = ktenTagFloat then do
    let text ← takeString frames
    let number ← orTrap (ktenParseFloat text)
    pure (.float number)
  else if tag = ktenTagText then do
    let text ← takeString frames
    pure (.text text)
  else if tag = ktenTagBytes then do
    let declared ← takeVarUInt frames
    let length ← orTrap (intOfU64 declared)
    let raw ← takeRaw frames length
    pure (.bytes raw)
  else if tag = ktenTagList then do
    let count ← takeCount frames
    let items ← takeEach (takeValue frames) count
    pure (.list items)
  else if tag = ktenTagObject then do
    let objectTag ← takeString frames
    let count ← takeCount frames
    let fields ← takeEach (takeField frames (takeValue frames)) count
    pure (.object objectTag fields)
  else if tag = ktenTagCase then do
    let name ← takeString frames
    let count ← takeCount frames
    let payload ← takeEach (takeValue frames) count
    pure (.case name payload)
  else do
    fail frames
    pure .null

theorem takeValue_succ (frames : Nat) :
    takeValue (frames + 1) = (do
      let tag ← takeByte frames
      let reader ← get
      if reader.failed then pure .null else takeTagged frames tag) :=
  rfl

variable {tag : UInt8}

theorem tag_of_calls (deep : 1 < callsBehind tag) : tag = ktenTagInt ∨ tag ∈ declaringTags := by
  unfold callsBehind at deep
  split at deep
  case isTrue isEither => rcases isEither with rfl | rfl <;> decide
  case isFalse =>
    split at deep
    case isTrue either => exact either
    case isFalse => exact absurd deep (by decide)

theorem callsBehind_pos (tag : UInt8) : 1 ≤ callsBehind tag := by
  unfold callsBehind
  split
  · decide
  · split <;> decide

theorem takeTagged_shallow (few : frames < callsBehind tag) (some : 0 < frames) :
    Shallow (takeTagged frames tag) := by
  have counting := tag_of_calls (Nat.lt_of_le_of_lt some few)
  simp only [declaringTags, List.mem_cons, List.not_mem_nil, or_false] at counting
  rcases counting with rfl | rfl | rfl | rfl | rfl | rfl | rfl
  · exact (takeVarInt_shallow few).bind
  · exact (takeString_shallow few).bind
  · exact (takeString_shallow few).bind
  · exact (takeVarUInt_shallow few).bind
  · exact (takeVarUInt_shallow few).bind.bind
  · exact (takeString_shallow few).bind
  · exact (takeString_shallow few).bind

theorem shallow_stuck (few : frames ≤ callsBehind tag) :
    Stuck (takeValue frames) (tag :: bytes) := by
  rcases frames with _ | _ | frames
  · exact fun reader _ => ⟨reader, rfl, by omega⟩
  · exact fun reader _ => ⟨reader, rfl, by omega⟩
  · intro reader stands
    have goesOn : ¬ reader.worked.moved.failed = true := by
      rw [stands.step.1]
      decide
    refine ⟨reader.worked.moved, ?_, Nat.add_le_add_left (Nat.succ_pos _) _⟩
    rw [takeValue_succ, bind_run_ok (takeByte_run stands), bind_run_ok (get_run _), if_neg goesOn]
    exact takeTagged_shallow few (Nat.succ_pos _) _

/-- The bytes of a tag are taken, and what it selects stops the program. -/
theorem traps_tagged (traps : Traps (takeTagged (frames + 1) tag) bytes) :
    Traps (takeValue (frames + 2)) (tag :: bytes) :=
  (takes_byte tag).traps (Traps.unlessFailed traps)

theorem takeTagged_stuck (few : frames ≤ callsBehind tag) (ends : EndsBehind tag bytes) :
    Stuck (takeTagged frames tag) bytes := by
  unfold EndsBehind at ends
  split at ends
  case isTrue isBool =>
    rw [isBool, ends]
    rw [isBool] at few
    exact (takeByte_stuck few).bind
  case isFalse =>
    rcases ends with ⟨counting, ends⟩
    simp only [declaringTags, List.mem_cons, List.not_mem_nil, or_false] at counting
    rcases counting with rfl | rfl | rfl | rfl | rfl | rfl | rfl
    · exact (takeVarInt_stuck few ends).bind
    · exact (takeString_stuck few ends).bind
    · exact (takeString_stuck few ends).bind
    · exact (takeVarUInt_stuck few ends).bind
    · exact (takeVarUInt_stuck few ends).bind.bind
    · exact (takeString_stuck few ends).bind
    · exact (takeString_stuck few ends).bind

theorem traps_oversized {α : Type} (oversized : Oversized bytes) (next : Int → OnReader α) :
    Traps (do
      let declared ← takeVarUInt (frames + 2)
      let count ← orTrap (intOfU64 declared)
      next count) bytes := by
  rcases oversized with ⟨groups, rest, count, rfl, declares, large⟩
  have refused : intOfU64 (UInt64.ofNat (varintNumber groups)) = .error .integerRange := by
    unfold intOfU64
    rw [ofNat_declared declares, if_neg (Nat.not_lt.mpr large)]
  apply (takes_varint declares.1).traps
  rw [refused]
  exact traps_error _ _ _

theorem traps_oversizedCount (oversized : Oversized bytes) :
    Traps (takeCount (frames + 2)) bytes :=
  traps_oversized oversized _

theorem traps_oversizedString (oversized : Oversized bytes) : Traps (takeString frames) bytes := by
  rcases Nat.lt_or_ge frames 3 with few | enough
  · exact ((takeString_shallow few).stuck bytes).traps
  · rcases Nat.exists_eq_add_of_le' enough with ⟨inner, rfl⟩
    exact traps_oversized oversized _

theorem takeRawFrom_cut {turns : Nat} (stands : Stands reader bytes)
    (fewer : bytes.length < turns) : ∃ after,
      takeRawFrom (frames + 1) turns reader = .ok bytes after ∧ Stopped after ∧
        after.bytes = reader.bytes ∧ after.work = reader.work + bytes.length + 1 := by
  induction bytes generalizing turns reader with
  | nil =>
    cases turns with
    | zero => exact absurd fewer (Nat.not_lt_zero _)
    | succ turns =>
      have ended : reader.worked.bytes.length ≤ reader.worked.cursor := stands.ended
      refine ⟨reader.worked.failedNow, ?_, ⟨rfl, rfl⟩, rfl, rfl⟩
      simp only [takeRawFrom]
      rw [bind_run_ok (countWork_run reader), bind_run_ok (get_run reader.worked),
        if_pos ended]
      rfl
  | cons byte bytes ih =>
    cases turns with
    | zero => exact absurd fewer (Nat.not_lt_zero _)
    | succ turns =>
      rcases ih stands.step (Nat.lt_of_succ_lt_succ fewer) with
        ⟨after, ran, stopped, same, spent⟩
      refine ⟨after, takeRawFrom_step stands ran, stopped, same, ?_⟩
      rw [spent, List.length_cons]
      change reader.work + 1 + bytes.length + 1 = reader.work + (bytes.length + 1) + 1
      omega

theorem takeRaw_run {length : Nat} (stands : Stands reader bytes) :
    ∃ after, takeRaw (frames + 2) length reader = .ok (bytes.take length) after := by
  rw [takeRaw, if_neg (by omega), Int.toNat_natCast]
  by_cases fewer : bytes.length < length
  · rcases @takeRawFrom_cut frames _ _ _ stands fewer with ⟨after, ran, -⟩
    rw [List.take_of_length_le (Nat.le_of_lt fewer)]
    exact ⟨after, ran⟩
  · rw [← List.take_append_drop length bytes] at stands
    have taken := @takeRawFrom_run _ _ (frames + 1) _ stands
    rw [List.length_take_of_le (Nat.not_lt.mp fewer)] at taken
    exact ⟨_, taken⟩

theorem takeString_run {rest : List UInt8} {length : Nat} {text : String}
    (counted : SpellsCount groups length) (stands : Stands reader (groups ++ rest))
    (rebuilt : ktenBytesToString (rest.take length) = .ok text) :
    ∃ after, takeString (frames + 3) reader = .ok text after := by
  rcases @takes_varint _ frames counted.1.1 reader rest stands with ⟨work, ran⟩
  have onward := stands.advance work
  rcases @takeRaw_run frames _ _ length onward with ⟨after, taken⟩
  refine ⟨after, ?_⟩
  rw [takeString, bind_run_ok ran, intOfU64_declared counted]
  simp only [orTrap]
  rw [bind_run_ok (pure_run _ _), bind_run_ok (get_run _), if_neg (by rw [onward.1]; decide),
    bind_run_ok taken, rebuilt]
  rfl

/-- A text that dips stops the program, be it cut or whole. -/
theorem traps_hostileNumber {α : Type} (hostile : HostileNumber bytes) (next : Float → OnReader α) :
    Traps (do
      let text ← takeString (frames + 3)
      let number ← orTrap (ktenParseFloat text)
      next number) bytes := by
  rcases hostile with ⟨groups, rest, length, rfl, counted, text, rebuilt, dips⟩
  intro reader stands
  rcases @takeString_run _ frames _ _ _ _ counted stands rebuilt with ⟨after, ran⟩
  rcases ktenParseFloat_spec text with ⟨-, dipping⟩ | ⟨level, -⟩
  · refine ⟨.integerOverflow, after, ?_⟩
    rw [bind_run_ok ran, dipping]
    rfl
  · exact absurd dips level

/-- The reader of the item stops the program. -/
def Item.Trapped (frames : Nat) (bytes : List UInt8) : Item → Prop
  | .value => Traps (takeValue frames) bytes
  | .values count => Traps (takeEach (takeValue frames) count) bytes
  | .fields count => Traps (takeEach (takeField frames (takeValue frames)) count) bytes

theorem traps_each {α : Type} {take : OnReader α} {turns : Nat} (traps : Traps (do
      let item ← take
      let rest ← takeEach take turns
      pure (item :: rest)) bytes) : Traps (takeEach take (turns + 1)) bytes := by
  unfold takeEach
  exact Traps.unlessFailed (takes_countWork.traps traps)

/-- A text is taken, or there is no frame to take it. -/
theorem traps_named {α : Type} {name raw : List UInt8} {next : String → OnReader α}
    (named : SpellsRaw name raw) (traps : ∀ text, 3 ≤ frames → Traps (next text) bytes) :
    Traps (takeString frames >>= next) (name ++ bytes) := by
  rcases Nat.lt_or_ge frames 3 with few | enough
  · exact ((takeString_shallow few).stuck _).traps.bind
  · rcases ktenBytesToString_total raw with ⟨text, rebuilt⟩
    have rest := traps text enough
    rcases Nat.exists_eq_add_of_le' enough with ⟨inner, rfl⟩
    exact (takes_spelledString named rebuilt).traps rest

theorem traps_counted {α : Type} {next : Nat → OnReader α} (counted : SpellsCount groups count)
    (traps : Traps (next count) bytes) : Traps (takeCount frames >>= next) (groups ++ bytes) := by
  rcases Nat.lt_or_ge frames 2 with few | enough
  · exact ((takeVarUInt_shallow few).bind.stuck _).traps.bind
  · rcases Nat.exists_eq_add_of_le' enough with ⟨inner, rfl⟩
    exact (takes_spelledCount counted).traps traps

/-- The bytes of a tag are taken, or there is no frame to take them. -/
theorem traps_behind (traps : callsBehind tag ≤ frames → Traps (takeTagged frames tag) bytes) :
    Traps (takeValue (frames + 1)) (tag :: bytes) := by
  rcases Nat.lt_or_ge frames (callsBehind tag) with few | enough
  · exact (shallow_stuck few).traps
  · rcases frames with _ | frames
    · exact (shallow_stuck (callsBehind_pos tag)).traps
    · exact traps_tagged (traps enough)

/-- What the tag selects stops the program, however many frames there are. -/
theorem traps_everywhere
    (traps : ∀ inner, callsBehind tag ≤ inner → Traps (takeTagged inner tag) bytes) :
    Traps (takeValue frames) (tag :: bytes) := by
  rcases frames with _ | frames
  · exact fun reader _ => ⟨_, reader, rfl⟩
  · exact traps_behind (traps frames)

theorem traps_ended (few : frames ≤ 2) : Traps (takeValue frames) [] := by
  rcases frames with _ | frames
  · exact fun reader _ => ⟨_, reader, rfl⟩
  · exact (takeByte_stuck (Nat.le_of_succ_le_succ few)).bind.traps

theorem traps_cut (few : frames ≤ callsBehind tag + 1) (ends : EndsBehind tag bytes) :
    Traps (takeValue frames) (tag :: bytes) := by
  rcases frames with _ | frames
  · exact fun reader _ => ⟨_, reader, rfl⟩
  · apply traps_behind
    exact fun _ => (takeTagged_stuck (Nat.le_of_succ_le_succ few) ends).traps

theorem traps_firstValue {α : Type} {take : OnReader α} {turns : Nat} (traps : Traps take bytes) :
    Traps (takeEach take (turns + 1)) bytes :=
  traps_each traps.bind

theorem two_le_callsBehind (declares : tag ∈ declaringTags) : 2 ≤ callsBehind tag := by
  simp only [declaringTags, List.mem_cons, List.not_mem_nil, or_false] at declares
  rcases declares with rfl | rfl | rfl | rfl | rfl | rfl <;> decide

theorem traps_declared (declares : tag ∈ declaringTags) (oversized : Oversized bytes) :
    Traps (takeValue frames) (tag :: bytes) := by
  apply traps_everywhere
  intro inner enough
  rcases Nat.exists_eq_add_of_le' (Nat.le_trans (two_le_callsBehind declares) enough) with
    ⟨inner, rfl⟩
  simp only [declaringTags, List.mem_cons, List.not_mem_nil, or_false] at declares
  rcases declares with rfl | rfl | rfl | rfl | rfl | rfl
  · exact (traps_oversizedString oversized).bind
  · exact (traps_oversizedString oversized).bind
  · exact traps_oversized oversized _
  · exact (traps_oversizedCount oversized).bind
  · exact (traps_oversizedString oversized).bind
  · exact (traps_oversizedString oversized).bind

theorem traps_number (dips : HostileNumber bytes) :
    Traps (takeValue frames) (ktenTagFloat :: bytes) := by
  apply traps_everywhere
  intro inner enough
  rcases Nat.exists_eq_add_of_le' enough with ⟨inner, rfl⟩
  exact traps_hostileNumber dips _

/-- A count past the signed range, behind a text. -/
theorem traps_namedCount {name raw : List UInt8} {α : Type} {next : String → Nat → OnReader α}
    (named : SpellsRaw name raw) (oversized : Oversized bytes) :
    Traps (do
      let text ← takeString frames
      let count ← takeCount frames
      next text count) (name ++ bytes) := by
  apply traps_named named
  intro text enough
  rcases Nat.exists_eq_add_of_le' enough with ⟨inner, rfl⟩
  exact (traps_oversizedCount oversized).bind

theorem traps_laterField {name raw value : List UInt8} (named : SpellsRaw name raw)
    (first : Spells frames .value value)
    (later : Traps (takeEach (takeField frames (takeValue frames)) count) bytes) :
    Traps (takeEach (takeField frames (takeValue frames)) (count + 1))
      (name ++ (value ++ bytes)) := by
  rcases spelled_taken first with ⟨taken, takes⟩
  rcases Nat.lt_or_ge frames 3 with few | enough
  · exact traps_firstValue ((takeString_shallow few).stuck _).traps.bind
  rcases Nat.exists_eq_add_of_le' enough with ⟨inner, rfl⟩
  rcases ktenBytesToString_total raw with ⟨text, rebuilt⟩
  have field : Takes (takeField (inner + 3) (takeValue (inner + 3))) _ (.mk text taken) :=
    (takes_spelledString named rebuilt).bind takes.andPure
  rw [← List.append_assoc]
  exact traps_each (field.traps later.bind)

theorem hostile_trapped {item : Item} (hostile : Hostile frames item bytes) :
    item.Trapped frames bytes := by
  induction hostile with
  | ended few => exact traps_ended few
  | shallow few => exact (shallow_stuck few).traps
  | cut few ends => exact traps_cut few ends
  | fieldCut few ends => exact traps_firstValue (takeString_stuck few ends).bind.traps
  | declared declares oversized => exact traps_declared declares oversized
  | number dips => exact traps_number dips
  | listItem counted inside ih =>
    exact traps_behind fun _ => traps_counted counted ih.bind
  | objectCount named oversized =>
    exact traps_everywhere fun _ _ => traps_namedCount named oversized
  | objectField named counted inside ih =>
    exact traps_behind fun _ => traps_named named fun _ _ => traps_counted counted ih.bind
  | caseCount named oversized =>
    exact traps_everywhere fun _ _ => traps_namedCount named oversized
  | casePayload named counted inside ih =>
    exact traps_behind fun _ => traps_named named fun _ _ => traps_counted counted ih.bind
  | firstValue first ih => exact traps_firstValue ih
  | laterValue first later ih =>
    rcases spelled_taken first with ⟨value, takes⟩
    exact traps_each (takes.traps ih.bind)
  | fieldName oversized => exact traps_firstValue (traps_oversizedString oversized).bind
  | fieldValue named first ih => exact traps_firstValue (traps_named named fun _ _ => ih.bind)
  | laterField named first later ih => exact traps_laterField named first ih

end Foundation

end KiraVm
