import Mathlib.Data.List.Forall2
import Mathlib.Data.List.Basic

/-!
# Byte readers and their codes

A reader walks a byte string with a cursor and either fails with an error or
answers a value together with the cursor behind it.  A reader *codes* a writer
when it succeeds exactly on the bytes the writer produces.  Both halves of a
round trip, and the fact that cutting the input short can only fail, follow
from that one equivalence.
-/

namespace ByteReader

/-- The unread bytes, and how many were read before them. -/
structure Cursor where
  offset : Nat
  rest : List UInt8
  deriving DecidableEq, Repr

/-- A fallible computation over a cursor. -/
def Reader (ε α : Type) : Type :=
  Cursor → Except ε (α × Cursor)

variable {ε α β : Type}

instance : Monad (Reader ε) where
  pure value := fun cursor => .ok (value, cursor)
  bind read next := fun cursor =>
    match read cursor with
    | .error error => .error error
    | .ok (value, after) => next value after

namespace Reader

/-- The cursor's offset, read without moving it. -/
def position : Reader ε Nat :=
  fun cursor => .ok (cursor.offset, cursor)

/-- Whether every byte has been read. -/
def isAtEnd : Reader ε Bool :=
  fun cursor => .ok (cursor.rest.isEmpty, cursor)

/-- How many bytes are left. -/
def remaining : Reader ε Nat :=
  fun cursor => .ok (cursor.rest.length, cursor)

def fail (error : ε) : Reader ε α :=
  fun _ => .error error

def okOr (answer : Option α) (error : ε) : Reader ε α :=
  match answer with
  | some value => pure value
  | none => fail error

/-- The next `count` bytes; `short` turns the offset into the error of an
input that ends first. -/
def take (short : Nat → ε) (count : Nat) : Reader ε (List UInt8) :=
  fun cursor =>
    if count ≤ cursor.rest.length then
      .ok (cursor.rest.take count, ⟨cursor.offset + count, cursor.rest.drop count⟩)
    else
      .error (short cursor.offset)

def many (read : Nat → Reader ε α) : (start count : Nat) → Reader ε (List α)
  | _, 0 => pure []
  | start, count + 1 => do
    let value ← read start
    let values ← many read (start + 1) count
    pure (value :: values)

def each (read : α → Reader ε β) : List α → Reader ε (List β)
  | [] => pure []
  | item :: items => do
    let value ← read item
    let values ← each read items
    pure (value :: values)

/-- Run a reader unless the input has ended, when the default stands in. -/
def optional (default : α) (read : Reader ε α) : Reader ε α := do
  if ← isAtEnd then pure default else read

/-- Run a reader until the input is used up.  A reader that takes at least one
byte never runs out of as much fuel as there are bytes. -/
def untilEnd (read : Reader ε α) : (fuel : Nat) → Reader ε (List α)
  | 0 => pure []
  | fuel + 1 => do
    if ← isAtEnd then
      pure []
    else
      let value ← read
      let values ← untilEnd read fuel
      pure (value :: values)

end Reader

open Reader

variable {result : α} {cursor after : Cursor} {read : Reader ε α} {next : α → Reader ε β}
  {error : ε} {default : α} {before : Cursor} {bytes : List UInt8} {property fits : α → Prop}
  {write : α → List UInt8}

@[simp]
theorem pure_ok_iff {value : α} :
    (pure value : Reader ε α) cursor = .ok (result, after) ↔
      value = result ∧ cursor = after := by
  change (Except.ok (value, cursor) : Except ε (α × Cursor)) = _ ↔ _
  simp

@[simp]
theorem bind_ok_iff {result : β} :
    (read >>= next) cursor = .ok (result, after) ↔
      ∃ value middle, read cursor = .ok (value, middle) ∧
        next value middle = .ok (result, after) := by
  change (match read cursor with
    | .error error => (.error error : Except ε (β × Cursor))
    | .ok (value, middle) => next value middle) = _ ↔ _
  cases read cursor with
  | error error => simp
  | ok answer =>
    obtain ⟨value, middle⟩ := answer
    simp

theorem bind_of_ok {value : α} (succeeds : read cursor = .ok (value, after)) :
    (read >>= next) cursor = next value after := by
  simp only [bind, succeeds]

theorem bind_of_error (fails : read cursor = .error error) :
    (read >>= next) cursor = .error error := by
  simp only [bind, fails]

@[simp]
theorem map_ok_iff {next : α → β} {result : β} :
    (next <$> read) cursor = .ok (result, after) ↔
      ∃ value, read cursor = .ok (value, after) ∧ next value = result := by
  change (read >>= fun value => pure (next value)) cursor = _ ↔ _
  simp

@[simp]
theorem fail_ok_iff : fail error cursor = .ok (result, after) ↔ False := by
  simp [fail]

theorem ite_fail_ok_iff {condition : Prop} [Decidable condition] :
    (if condition then read else fail error) cursor = .ok (result, after) ↔
      condition ∧ read cursor = .ok (result, after) := by
  by_cases holds : condition <;> simp [holds]

theorem fail_ite_ok_iff {condition : Prop} [Decidable condition] :
    (if condition then fail error else read) cursor = .ok (result, after) ↔
      ¬ condition ∧ read cursor = .ok (result, after) := by
  by_cases holds : condition <;> simp [holds]

@[simp]
theorem okOr_ok_iff {answer : Option α} :
    okOr answer error cursor = .ok (result, after) ↔
      answer = some result ∧ cursor = after := by
  cases answer <;> simp [okOr]

@[simp]
theorem position_ok_iff {result : Nat} :
    (position : Reader ε Nat) cursor = .ok (result, after) ↔
      cursor.offset = result ∧ cursor = after := by
  simp [position]

@[simp]
theorem isAtEnd_ok_iff {result : Bool} :
    (isAtEnd : Reader ε Bool) cursor = .ok (result, after) ↔
      cursor.rest.isEmpty = result ∧ cursor = after := by
  simp [isAtEnd]

@[simp]
theorem remaining_ok_iff {result : Nat} :
    (remaining : Reader ε Nat) cursor = .ok (result, after) ↔
      cursor.rest.length = result ∧ cursor = after := by
  simp [remaining]

theorem optional_ended (ended : cursor.rest = []) :
    optional default read cursor = .ok (default, cursor) := by
  change (if cursor.rest.isEmpty then pure default else read : Reader ε α) cursor = _
  rw [ended]
  rfl

theorem optional_open (notEnded : cursor.rest ≠ []) :
    optional default read cursor = read cursor := by
  change (if cursor.rest.isEmpty then pure default else read : Reader ε α) cursor = _
  rw [if_neg (by simpa using notEnded)]

/-- Moving from one cursor to another reads exactly these bytes. -/
def Spans (before : Cursor) (bytes : List UInt8) (after : Cursor) : Prop :=
  before.rest = bytes ++ after.rest ∧ after.offset = before.offset + bytes.length

@[simp]
theorem spans_nil : Spans before [] after ↔ before = after := by
  cases before
  cases after
  simp [Spans, eq_comm, and_comm]

theorem spans_append {before after : Cursor} {first second : List UInt8} :
    Spans before (first ++ second) after ↔
      ∃ middle, Spans before first middle ∧ Spans middle second after := by
  constructor
  · rintro ⟨restEq, offsetEq⟩
    refine ⟨⟨before.offset + first.length, second ++ after.rest⟩, ⟨?_, rfl⟩, rfl, ?_⟩
    · simpa using restEq
    · simp only [List.length_append] at offsetEq
      simp only
      omega
  · rintro ⟨middle, ⟨firstRest, firstOffset⟩, secondRest, secondOffset⟩
    refine ⟨by rw [firstRest, secondRest, List.append_assoc], ?_⟩
    simp only [List.length_append]
    omega

theorem spans_cons {byte : UInt8} :
    Spans before (byte :: bytes) after ↔
      ∃ middle, Spans before [byte] middle ∧ Spans middle bytes after :=
  @spans_append before after [byte] bytes

theorem Spans.length_eq (spans : Spans before bytes after) :
    before.rest.length = bytes.length + after.rest.length := by
  simp [spans.1]

@[simp]
theorem take_ok_iff {short : Nat → ε} {count : Nat} {result : List UInt8} :
    take short count cursor = .ok (result, after) ↔
      result.length = count ∧ Spans cursor result after := by
  simp only [take, Spans]
  split
  case isTrue enough =>
    simp only [Except.ok.injEq, Prod.mk.injEq]
    constructor
    · rintro ⟨rfl, rfl⟩
      simp [enough]
    · rintro ⟨rfl, restEq, offsetEq⟩
      rw [restEq]
      cases after
      simp_all
  case isFalse short =>
    simp only [reduceCtorEq, false_iff]
    rintro ⟨rfl, restEq, -⟩
    apply short
    simp [restEq]

/-! ## Readers that code a writer -/

/-- The reader succeeds exactly on the writer's bytes of a value that fits. -/
def Codes (read : Reader ε α) (fits : α → Prop) (write : α → List UInt8) : Prop :=
  ∀ cursor value after,
    read cursor = .ok (value, after) ↔ fits value ∧ Spans cursor (write value) after

def Answers (read : Reader ε α) (property : α → Prop) : Prop :=
  ∀ cursor value after, read cursor = .ok (value, after) → property value

theorem optional_answers (defaultHolds : property default) (answers : Answers read property) :
    Answers (optional default read) property := by
  intro cursor value after succeeds
  by_cases ended : cursor.rest = []
  · rw [optional_ended ended] at succeeds
    simp only [Except.ok.injEq, Prod.mk.injEq] at succeeds
    exact succeeds.1 ▸ defaultHolds
  · rw [optional_open ended] at succeeds
    exact answers _ _ _ succeeds

theorem Codes.answers (codes : Codes read fits write) : Answers read fits :=
  fun cursor value after succeeds => ((codes cursor value after).mp succeeds).1

/-- The reader answers a fitting value wherever its bytes lie ahead. -/
def Recovers (read : Reader ε α) (fits : α → Prop) (write : α → List UInt8) : Prop :=
  ∀ value, fits value → ∀ cursor after, Spans cursor (write value) after →
    read cursor = .ok (value, after)

/-- Further bytes behind the input do not change what the reader answers. -/
def Extends (read : Reader ε α) : Prop :=
  ∀ cursor value after, read cursor = .ok (value, after) → ∀ further,
    read ⟨cursor.offset, cursor.rest ++ further⟩ =
      .ok (value, ⟨after.offset, after.rest ++ further⟩)

theorem Codes.recovers (codes : Codes read fits write) : Recovers read fits write :=
  fun _ valueFits _ _ spans => (codes _ _ _).mpr ⟨valueFits, spans⟩

theorem Codes.extends (codes : Codes read fits write) : Extends read := by
  intro cursor value after succeeds further
  obtain ⟨valueFits, restEq, offsetEq⟩ := (codes _ _ _).mp succeeds
  exact (codes _ _ _).mpr ⟨valueFits, by simp [restEq], offsetEq⟩

theorem Recovers.fails_when_cut (recovers : Recovers read fits write) (extends_ : Extends read)
    {value : α} (valueFits : fits value) {cut : List UInt8} (whole : write value = bytes ++ cut)
    (nonempty : cut ≠ []) (offset : Nat) : ∃ error, read ⟨offset, bytes⟩ = .error error := by
  cases answer : read ⟨offset, bytes⟩ with
  | error error => exact ⟨error, rfl⟩
  | ok result =>
    obtain ⟨other, after⟩ := result
    have extended := extends_ _ _ _ answer cut
    have direct := recovers value valueFits ⟨offset, bytes ++ cut⟩
      ⟨offset + (write value).length, []⟩ ⟨by simp [whole], rfl⟩
    rw [extended] at direct
    simp only [Except.ok.injEq, Prod.mk.injEq, Cursor.mk.injEq,
      List.append_eq_nil_iff] at direct
    exact absurd direct.2.2.2 nonempty

theorem Extends.pure (value : α) : Extends (pure value : Reader ε α) := by
  intro cursor result after succeeds further
  obtain ⟨rfl, rfl⟩ := pure_ok_iff.mp succeeds
  rfl

theorem Extends.fail (error : ε) : Extends (fail error : Reader ε α) :=
  fun _ _ _ succeeds => absurd succeeds (by simp)

theorem Extends.bind {read : Reader ε α} {next : α → Reader ε β} (first : Extends read)
    (second : ∀ value, Extends (next value)) : Extends (read >>= next) := by
  intro cursor result after succeeds further
  obtain ⟨value, middle, readFirst, readNext⟩ := bind_ok_iff.mp succeeds
  exact bind_ok_iff.mpr ⟨value, _, first _ _ _ readFirst further,
    second value _ _ _ readNext further⟩

theorem many_codes {read : Nat → Reader ε α} (codes : ∀ index, Codes (read index) fits write)
    (start count : Nat) :
    Codes (many read start count)
      (fun values => values.length = count ∧ ∀ value ∈ values, fits value)
      (fun values => values.flatMap write) := by
  induction count generalizing start with
  | zero =>
    intro cursor values after
    simp only [many, pure_ok_iff, List.length_eq_zero_iff]
    constructor
    · rintro ⟨rfl, rfl⟩
      simp
    · rintro ⟨⟨rfl, -⟩, spans⟩
      simpa using spans
  | succ count ih =>
    intro cursor values after
    simp only [many, bind_ok_iff, pure_ok_iff, codes start _ _ _, ih (start + 1) _ _ _]
    constructor
    · rintro ⟨value, middle, ⟨valueFits, spans⟩, rest, _, ⟨⟨rfl, restFit⟩, restSpans⟩, rfl, rfl⟩
      refine ⟨⟨rfl, by simpa using ⟨valueFits, restFit⟩⟩, ?_⟩
      rw [List.flatMap_cons, spans_append]
      exact ⟨middle, spans, restSpans⟩
    · rintro ⟨⟨lengthEq, allFit⟩, spans⟩
      cases values with
      | nil => simp at lengthEq
      | cons value rest =>
        rw [List.flatMap_cons, spans_append] at spans
        obtain ⟨middle, valueSpans, restSpans⟩ := spans
        exact ⟨value, middle, ⟨allFit value (by simp), valueSpans⟩, rest, after,
          ⟨⟨by simpa using lengthEq, fun item member =>
            allFit item (by simp [member])⟩, restSpans⟩, rfl, rfl⟩

theorem each_codes {read : α → Reader ε β} {fits : α → β → Prop}
    {write : β → List UInt8} (codes : ∀ item, Codes (read item) (fits item) write)
    (items : List α) :
    Codes (each read items) (List.Forall₂ fits items)
      (fun values => values.flatMap write) := by
  induction items with
  | nil =>
    intro cursor values after
    simp only [each, pure_ok_iff, List.forall₂_nil_left_iff]
    constructor
    · rintro ⟨rfl, rfl⟩
      simp
    · rintro ⟨rfl, spans⟩
      simpa using spans
  | cons item items ih =>
    intro cursor values after
    simp only [each, bind_ok_iff, pure_ok_iff, codes item _ _ _, ih _ _ _]
    constructor
    · rintro ⟨value, middle, ⟨valueFits, spans⟩, rest, _, ⟨restFit, restSpans⟩, rfl, rfl⟩
      refine ⟨.cons valueFits restFit, ?_⟩
      rw [List.flatMap_cons, spans_append]
      exact ⟨middle, spans, restSpans⟩
    · rintro ⟨allFit, spans⟩
      cases allFit with
      | @cons _ value _ rest valueFits restFit =>
        rw [List.flatMap_cons, spans_append] at spans
        obtain ⟨middle, valueSpans, restSpans⟩ := spans
        exact ⟨value, middle, ⟨valueFits, valueSpans⟩, rest, after,
          ⟨restFit, restSpans⟩, rfl, rfl⟩

theorem each_recovers {read : α → Reader ε β} {fits : α → β → Prop}
    {write : β → List UInt8} (recovers : ∀ item, Recovers (read item) (fits item) write)
    (items : List α) :
    Recovers (each read items) (List.Forall₂ fits items)
      (fun values => values.flatMap write) := by
  intro values allFit
  induction allFit with
  | nil =>
    intro cursor after spans
    exact pure_ok_iff.mpr ⟨rfl, spans_nil.mp spans⟩
  | @cons item value items values valueFits restFit ih =>
    intro cursor after spans
    obtain ⟨middle, valueSpans, restSpans⟩ := spans_append.mp spans
    exact bind_ok_iff.mpr ⟨value, middle, recovers item value valueFits _ _ valueSpans,
      bind_ok_iff.mpr ⟨values, after, ih _ _ restSpans, pure_ok_iff.mpr ⟨rfl, rfl⟩⟩⟩

theorem each_extends {read : α → Reader ε β} (extends_ : ∀ item, Extends (read item))
    (items : List α) : Extends (each read items) := by
  induction items with
  | nil => exact Extends.pure []
  | cons item items ih =>
    exact Extends.bind (extends_ item) fun value =>
      Extends.bind ih fun values => Extends.pure (value :: values)

theorem many_answers {read : Nat → Reader ε α} (answers : ∀ index, Answers (read index) property)
    (start count : Nat) :
    Answers (many read start count)
      (fun values => values.length = count ∧ ∀ value ∈ values, property value) := by
  induction count generalizing start with
  | zero =>
    intro cursor values after succeeds
    obtain ⟨rfl, -⟩ := pure_ok_iff.mp succeeds
    simp
  | succ count ih =>
    intro cursor values after succeeds
    simp only [many, bind_ok_iff, pure_ok_iff] at succeeds
    obtain ⟨value, middle, first, rest, _, others, rfl, rfl⟩ := succeeds
    obtain ⟨rfl, restFit⟩ := ih (start + 1) _ _ _ others
    exact ⟨rfl, by simpa using ⟨answers start _ _ _ first, restFit⟩⟩

theorem each_answers {read : α → Reader ε β} {property : α → β → Prop}
    (answers : ∀ item, Answers (read item) (property item)) (items : List α) :
    Answers (each read items) (List.Forall₂ property items) := by
  induction items with
  | nil =>
    intro cursor values after succeeds
    obtain ⟨rfl, -⟩ := pure_ok_iff.mp succeeds
    exact .nil
  | cons item items ih =>
    intro cursor values after succeeds
    simp only [each, bind_ok_iff, pure_ok_iff] at succeeds
    obtain ⟨value, middle, first, rest, _, others, rfl, rfl⟩ := succeeds
    exact .cons (answers item _ _ _ first) (ih _ _ _ others)

theorem untilEnd_succ_ok_iff {fuel : Nat} {values : List α} :
    untilEnd read (fuel + 1) cursor = .ok (values, after) ↔
      (cursor.rest = [] ∧ values = [] ∧ cursor = after) ∨
      (cursor.rest ≠ [] ∧ ∃ value middle rest, read cursor = .ok (value, middle) ∧
        untilEnd read fuel middle = .ok (rest, after) ∧ values = value :: rest) := by
  simp only [untilEnd, bind_ok_iff, isAtEnd_ok_iff]
  by_cases ended : cursor.rest = []
  · simp only [ended, List.isEmpty_nil, true_and, ne_eq, not_true_eq_false, false_and, or_false]
    constructor
    · rintro ⟨_, _, ⟨rfl, rfl⟩, succeeds⟩
      obtain ⟨rfl, rfl⟩ := pure_ok_iff.mp succeeds
      exact ⟨rfl, rfl⟩
    · rintro ⟨rfl, rfl⟩
      exact ⟨_, _, ⟨rfl, rfl⟩, pure_ok_iff.mpr ⟨rfl, rfl⟩⟩
  · simp only [ended, false_and, ne_eq, not_false_eq_true, true_and, false_or]
    constructor
    · rintro ⟨_, _, ⟨rfl, rfl⟩, succeeds⟩
      simp only [List.isEmpty_iff, ended, if_false, bind_ok_iff, pure_ok_iff] at succeeds
      obtain ⟨value, middle, first, rest, _, others, rfl, rfl⟩ := succeeds
      exact ⟨value, middle, rest, first, others, rfl⟩
    · rintro ⟨value, middle, rest, first, others, rfl⟩
      refine ⟨_, _, ⟨rfl, rfl⟩, ?_⟩
      simp only [List.isEmpty_iff, ended, if_false, bind_ok_iff, pure_ok_iff]
      exact ⟨value, middle, first, rest, after, others, rfl, rfl⟩

theorem untilEnd_codes (codes : Codes read fits write) (nonempty : ∀ value, write value ≠ [])
    {fuel : Nat} {values : List α} (enough : cursor.rest.length ≤ fuel) :
    untilEnd read fuel cursor = .ok (values, after) ↔
      (∀ value ∈ values, fits value) ∧ Spans cursor (values.flatMap write) after ∧
        after.rest = [] := by
  induction fuel generalizing cursor values with
  | zero =>
    have ended : cursor.rest = [] := List.length_eq_zero_iff.mp (by omega)
    simp only [untilEnd, pure_ok_iff]
    constructor
    · rintro ⟨rfl, rfl⟩
      exact ⟨by simp, by simp, ended⟩
    · rintro ⟨-, spans, -⟩
      cases values with
      | nil => simpa using spans
      | cons value rest =>
        have consumed := spans.length_eq
        have := List.length_pos_iff.mpr (nonempty value)
        simp only [ended, List.flatMap_cons, List.length_append, List.length_nil] at consumed
        omega
  | succ fuel ih =>
    rw [untilEnd_succ_ok_iff]
    constructor
    · rintro (⟨ended, rfl, rfl⟩ | ⟨-, value, middle, rest, first, others, rfl⟩)
      · exact ⟨by simp, by simp, ended⟩
      · obtain ⟨valueFits, spans⟩ := (codes _ _ _).mp first
        have consumed := spans.length_eq
        have := List.length_pos_iff.mpr (nonempty value)
        obtain ⟨restFit, restSpans, ended⟩ := (ih (by omega)).mp others
        exact ⟨by simpa using ⟨valueFits, restFit⟩,
          by rw [List.flatMap_cons, spans_append]; exact ⟨middle, spans, restSpans⟩, ended⟩
    · rintro ⟨allFit, spans, ended⟩
      cases values with
      | nil =>
        obtain rfl := spans_nil.mp spans
        exact .inl ⟨ended, rfl, rfl⟩
      | cons value rest =>
        rw [List.flatMap_cons, spans_append] at spans
        obtain ⟨middle, valueSpans, restSpans⟩ := spans
        have consumed := valueSpans.length_eq
        have positive := List.length_pos_iff.mpr (nonempty value)
        refine .inr ⟨?_, value, middle, rest,
          (codes _ _ _).mpr ⟨allFit value (by simp), valueSpans⟩, ?_, rfl⟩
        · apply List.ne_nil_of_length_pos
          omega
        · exact (ih (by omega)).mpr
            ⟨fun item member => allFit item (by simp [member]), restSpans, ended⟩

/-! ## Growth of re-encoded input -/

/-- What the reader answers is written with at most `factor` bytes for each
byte it read. -/
def Grows (factor : Nat) (read : Reader ε α) (write : α → List UInt8) : Prop :=
  ∀ cursor value after, read cursor = .ok (value, after) →
    (write value).length + factor * after.rest.length ≤ factor * cursor.rest.length

theorem many_grows {factor : Nat} {read : Nat → Reader ε α}
    (grows : ∀ index, Grows factor (read index) write) (start count : Nat) :
    Grows factor (many read start count) (fun values => values.flatMap write) := by
  induction count generalizing start with
  | zero =>
    intro cursor values after succeeds
    obtain ⟨rfl, rfl⟩ := pure_ok_iff.mp succeeds
    simp
  | succ count ih =>
    intro cursor values after succeeds
    simp only [many, bind_ok_iff, pure_ok_iff] at succeeds
    obtain ⟨value, middle, first, rest, _, others, rfl, rfl⟩ := succeeds
    have firstGrows := grows start _ _ _ first
    have restGrows := ih (start + 1) _ _ _ others
    simp only [List.flatMap_cons, List.length_append] at restGrows ⊢
    omega

theorem untilEnd_grows {factor : Nat} (grows : Grows factor read write) (fuel : Nat) :
    Grows factor (untilEnd read fuel) (fun values => values.flatMap write) := by
  induction fuel with
  | zero =>
    intro cursor values after succeeds
    obtain ⟨rfl, rfl⟩ := pure_ok_iff.mp succeeds
    simp
  | succ fuel ih =>
    intro cursor values after succeeds
    rw [untilEnd_succ_ok_iff] at succeeds
    obtain ⟨-, rfl, rfl⟩ | ⟨-, value, middle, rest, first, others, rfl⟩ := succeeds
    · simp
    · have firstGrows := grows _ _ _ first
      have restGrows := ih _ _ _ others
      simp only [List.flatMap_cons, List.length_append] at restGrows ⊢
      omega

theorem untilEnd_answers (answers : Answers read property) (fuel : Nat) :
    Answers (untilEnd read fuel) (fun values => ∀ value ∈ values, property value) := by
  induction fuel with
  | zero =>
    intro cursor values after succeeds
    obtain ⟨rfl, -⟩ := pure_ok_iff.mp succeeds
    simp
  | succ fuel ih =>
    intro cursor values after succeeds
    rw [untilEnd_succ_ok_iff] at succeeds
    obtain ⟨-, rfl, rfl⟩ | ⟨-, value, middle, rest, first, others, rfl⟩ := succeeds
    · simp
    · simpa using ⟨answers _ _ _ first, ih _ _ _ others⟩

end ByteReader
