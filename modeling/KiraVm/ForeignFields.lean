import KiraVm.ModuleCodec
import KiraVm.ShortFields

/-!
# Foreign types as bytes

The positions of a foreign signature and the members of an aggregate are written alike in a
module and in a hybrid manifest.  A reader of either is coded exactly, however it names its
errors.
-/

namespace KiraVm

open ByteReader ByteReader.Reader

section Fields

variable {ε : Type} (short : Nat → ε) (unknown : UInt8 → ε)

theorem scalarTag_ne {ty : ForeignType} {tag : UInt8} (high : 14 ≤ tag) : ty.tag ≠ tag := by
  rintro rfl
  revert high
  cases ty <;> decide

/-- Read one position of a signature. -/
def specReader : Reader ε ForeignTypeSpec := do
  let tag ← byte short
  if tag = ForeignTypeSpec.aggregateTag then .aggregate <$> u32 short
  else .scalar <$> okOr (ForeignType.fromTag tag) (unknown tag)

def elementReader : Reader ε ForeignArrayElement := do
  let tag ← byte short
  if tag = nestedMemberTag then .aggregate <$> u32 short
  else .scalar <$> okOr (ForeignType.fromTag tag) (unknown tag)

def memberReader : Reader ε ForeignMember := do
  let tag ← byte short
  if tag = nestedMemberTag then .aggregate <$> u32 short
  else if tag = arrayMemberTag then do
    let element ← elementReader short unknown
    .array element <$> u32 short
  else .scalar <$> okOr (ForeignType.fromTag tag) (unknown tag)

theorem specReader_codes : Codes (specReader short unknown) (fun _ => True) writeSpec := by
  intro cursor spec after
  simp only [specReader, bind_ok_iff, byte_ok_iff, true_and, writeSpec, spans_append]
  constructor
  · rintro ⟨tag, middle, tagSpans, matched⟩
    split at matched
    case isTrue isAggregate =>
      subst isAggregate
      obtain ⟨id, idSpans, rfl⟩ := map_ok_iff.mp matched
      exact ⟨middle, tagSpans, u32_ok_iff.mp idSpans⟩
    case isFalse =>
      simp only [map_ok_iff, okOr_ok_iff, ForeignType.fromTag_eq_some_iff] at matched
      obtain ⟨ty, ⟨rfl, rfl⟩, rfl⟩ := matched
      exact ⟨middle, tagSpans, spans_nil.mpr rfl⟩
  · rintro ⟨middle, tagSpans, rest⟩
    refine ⟨_, middle, tagSpans, ?_⟩
    cases spec with
    | scalar ty =>
      obtain rfl := spans_nil.mp rest
      have isScalar : (ForeignTypeSpec.scalar ty).tag ≠ ForeignTypeSpec.aggregateTag :=
        scalarTag_ne (by decide)
      rw [if_neg isScalar]
      simp [ForeignType.fromTag_eq_some_iff, ForeignTypeSpec.tag]
    | aggregate id => exact map_ok_iff.mpr ⟨id, u32_ok_iff.mpr rest, rfl⟩

theorem elementReader_codes :
    Codes (elementReader short unknown) (fun _ => True) writeElement := by
  intro cursor element after
  simp only [elementReader, bind_ok_iff, byte_ok_iff, true_and]
  constructor
  · rintro ⟨tag, middle, tagSpans, matched⟩
    split at matched
    case isTrue nested =>
      subst nested
      obtain ⟨id, idSpans, rfl⟩ := map_ok_iff.mp matched
      exact spans_append.mpr ⟨middle, tagSpans, u32_ok_iff.mp idSpans⟩
    case isFalse =>
      simp only [map_ok_iff, okOr_ok_iff, ForeignType.fromTag_eq_some_iff] at matched
      obtain ⟨ty, ⟨rfl, rfl⟩, rfl⟩ := matched
      exact tagSpans
  · intro spans
    cases element with
    | scalar ty =>
      refine ⟨_, after, spans, ?_⟩
      rw [if_neg (scalarTag_ne (by decide))]
      simp [ForeignType.fromTag_eq_some_iff]
    | aggregate id =>
      obtain ⟨middle, tagSpans, idSpans⟩ := spans_append.mp spans
      exact ⟨nestedMemberTag, middle, tagSpans,
        map_ok_iff.mpr ⟨id, u32_ok_iff.mpr idSpans, rfl⟩⟩

theorem memberReader_codes :
    Codes (memberReader short unknown) (fun _ => True) writeMember := by
  intro cursor member after
  simp only [memberReader, bind_ok_iff, byte_ok_iff, true_and]
  constructor
  · rintro ⟨tag, middle, tagSpans, matched⟩
    split at matched
    case isTrue nested =>
      subst nested
      obtain ⟨id, idSpans, rfl⟩ := map_ok_iff.mp matched
      exact spans_append.mpr ⟨middle, tagSpans, u32_ok_iff.mp idSpans⟩
    case isFalse =>
      split at matched
      case isTrue array =>
        subst array
        simp only [bind_ok_iff, map_ok_iff, elementReader_codes short unknown _ _ _,
          u32_ok_iff] at matched
        obtain ⟨element, next, ⟨-, elementSpans⟩, count, countSpans, rfl⟩ := matched
        exact spans_append.mpr ⟨middle, tagSpans,
          spans_append.mpr ⟨next, elementSpans, countSpans⟩⟩
      case isFalse =>
        simp only [map_ok_iff, okOr_ok_iff, ForeignType.fromTag_eq_some_iff] at matched
        obtain ⟨ty, ⟨rfl, rfl⟩, rfl⟩ := matched
        exact tagSpans
  · intro spans
    cases member with
    | scalar ty =>
      refine ⟨_, after, spans, ?_⟩
      rw [if_neg (scalarTag_ne (by decide)), if_neg (scalarTag_ne (by decide))]
      simp [ForeignType.fromTag_eq_some_iff]
    | aggregate id =>
      obtain ⟨middle, tagSpans, idSpans⟩ := spans_append.mp spans
      exact ⟨nestedMemberTag, middle, tagSpans,
        map_ok_iff.mpr ⟨id, u32_ok_iff.mpr idSpans, rfl⟩⟩
    | array element count =>
      obtain ⟨middle, tagSpans, spans⟩ := spans_append.mp spans
      obtain ⟨next, elementSpans, countSpans⟩ := spans_append.mp spans
      refine ⟨arrayMemberTag, middle, tagSpans, ?_⟩
      rw [if_neg (by decide), if_pos rfl]
      simp only [bind_ok_iff, map_ok_iff, elementReader_codes short unknown _ _ _, u32_ok_iff]
      exact ⟨element, next, ⟨trivial, elementSpans⟩, count, countSpans, rfl⟩

/-! ## Aggregate rows -/

/-- Read rows onto a table, each checked against the rows before it. -/
def rowsReader (row : Nat → Reader ε ForeignAggregate)
    (malformed : Nat → ForeignAggregateError → ε) :
    (index count : Nat) → ForeignAggregates → Reader ε ForeignAggregates
  | _, 0, aggregates => pure aggregates
  | index, count + 1, aggregates => do
    let next ← row index
    match aggregates.push next with
    | .error source => fail (malformed index source)
    | .ok pushed => rowsReader row malformed (index + 1) count pushed

/-- Reading rows onto a table appends them.  The table's own order is what
makes every single insertion succeed. -/
theorem rowsReader_ok_iff {row : Nat → Reader ε ForeignAggregate}
    {malformed : Nat → ForeignAggregateError → ε} {fits : ForeignAggregate → Prop}
    {write : ForeignAggregate → List UInt8} (codes : ∀ index, Codes (row index) fits write)
    {index count : Nat} {aggregates result : ForeignAggregates} {cursor after : Cursor} :
    rowsReader row malformed index count aggregates cursor = .ok (result, after) ↔
      ∃ rows, rows.length = count ∧ result.entries = aggregates.entries ++ rows ∧
        (∀ row ∈ rows, fits row) ∧ Spans cursor (rows.flatMap write) after := by
  induction count generalizing index aggregates cursor with
  | zero =>
    simp only [rowsReader, pure_ok_iff, List.length_eq_zero_iff]
    constructor
    · rintro ⟨rfl, rfl⟩
      exact ⟨[], by simp⟩
    · rintro ⟨_, rfl, entriesEq, -, spans⟩
      exact ⟨ForeignAggregates.ext_entries (by simpa using entriesEq.symm), by simpa using spans⟩
  | succ count ih =>
    simp only [rowsReader, bind_ok_iff, codes _ _ _ _]
    constructor
    · rintro ⟨row, middle, ⟨short, rowSpans⟩, matched⟩
      cases pushing : aggregates.push row with
      | error error => simp [pushing] at matched
      | ok pushed =>
        rw [pushing] at matched
        obtain ⟨rows, rfl, entriesEq, rowsShort, spans⟩ := ih.mp matched
        refine ⟨row :: rows, rfl, ?_, by simpa using ⟨short, rowsShort⟩, ?_⟩
        · rw [entriesEq, ForeignAggregates.push_ok_iff.mp pushing, List.append_assoc,
            List.singleton_append]
        · rw [List.flatMap_cons, spans_append]
          exact ⟨middle, rowSpans, spans⟩
    · rintro ⟨rows, lengthEq, entriesEq, rowsShort, spans⟩
      cases rows with
      | nil => simp at lengthEq
      | cons row rows =>
        rw [List.flatMap_cons, spans_append] at spans
        obtain ⟨middle, rowSpans, spans⟩ := spans
        refine ⟨row, middle, ⟨rowsShort row (by simp), rowSpans⟩, ?_⟩
        obtain ⟨pushed, pushing⟩ : ∃ pushed, aggregates.push row = .ok pushed := by
          refine ⟨⟨aggregates.entries ++ [row], ?_⟩, ForeignAggregates.push_ok_iff.mpr rfl⟩
          intro position found foundAt
          apply result.ordered position found
          obtain ⟨inside, -⟩ := List.getElem?_eq_some_iff.mp foundAt
          rw [entriesEq, ← List.singleton_append, ← List.append_assoc,
            List.getElem?_append_left inside]
          exact foundAt
        rw [pushing]
        exact ih.mpr ⟨rows, by simpa using lengthEq,
          by rw [entriesEq, ForeignAggregates.push_ok_iff.mp pushing]; simp,
          fun item member => rowsShort item (by simp [member]), spans⟩

end Fields

/-! ## Retained positions -/

def setPositions (flags : List Bool) : List Nat :=
  (flags.zipIdx.filter Prod.fst).map Prod.snd

theorem mem_setPositions {flags : List Bool} {position : Nat} :
    position ∈ setPositions flags ↔ flags[position]? = some true := by
  simp [setPositions, List.mem_zipIdx_iff_getElem?]

theorem setPositions_nodup (flags : List Bool) : (setPositions flags).Nodup := by
  have sublist : (setPositions flags).Sublist (flags.zipIdx.map Prod.snd) :=
    List.filter_sublist.map _
  refine sublist.nodup ?_
  rw [List.zipIdx_map_snd]
  exact List.nodup_range'

theorem setPositions_length_le (flags : List Bool) :
    (setPositions flags).length ≤ flags.length := by
  rw [setPositions, List.length_map]
  exact (List.length_filter_le _ _).trans (List.length_zipIdx).le

def setFlags (flags : List Bool) (positions : List Nat) : List Bool :=
  positions.foldl (fun flags position => flags.set position true) flags

theorem setFlags_getElem? (flags : List Bool) (positions : List Nat) (index : Nat) :
    (setFlags flags positions)[index]? =
      if index ∈ positions ∧ index < flags.length then some true else flags[index]? := by
  induction positions generalizing flags with
  | nil => simp [setFlags]
  | cons position positions ih =>
    change (setFlags (flags.set position true) positions)[index]? = _
    rw [ih, List.length_set, List.getElem?_set]
    by_cases inside : index < flags.length
    · by_cases same : position = index
      · simp [inside, same]
      · have different : index ≠ position := fun equal => same equal.symm
        simp [inside, same, different]
    · have outside : flags.length ≤ index := by omega
      simp [inside]
      omega

theorem setFlags_setPositions (flags : List Bool) :
    setFlags (List.replicate flags.length false) (setPositions flags) = flags := by
  apply List.ext_getElem?
  intro index
  simp only [setFlags_getElem?, List.length_replicate, mem_setPositions]
  cases found : flags[index]? with
  | none => simp [List.getElem?_eq_none_iff.mp found]
  | some flag =>
    obtain ⟨inside, -⟩ := List.getElem?_eq_some_iff.mp found
    cases flag <;> simp [inside]

def positionBytes (position : Nat) : List UInt8 :=
  u32Bytes (UInt32.ofNat position)

namespace ForeignSignature

/-- The signature with no parameter retained. -/
def bare (signature : ForeignSignature) : ForeignSignature :=
  .new signature.parameters signature.result

theorem retain_bare (signature : ForeignSignature) :
    signature.bare.withRetained (setFlags (List.replicate signature.parameters.length false)
      (setPositions signature.retained)) = signature := by
  obtain ⟨parameters, result, retained, shape⟩ := signature
  obtain rfl | ⟨lengthEq, kept⟩ := shape
  · simp [bare, withRetained, setPositions, setFlags, new]
  · simp only [← lengthEq, setFlags_setPositions]
    simp [bare, withRetained, new, lengthEq, kept]

theorem retained_unset (signature : ForeignSignature) {position : Nat}
    (kept : position ∈ setPositions signature.retained) :
    (List.replicate signature.parameters.length false)[position]? = some false := by
  obtain ⟨inside, -⟩ := List.getElem?_eq_some_iff.mp (mem_setPositions.mp kept)
  obtain empty | ⟨lengthEq, -⟩ := signature.retained_shape
  · simp [empty] at inside
  · simp [← lengthEq, inside]

theorem retained_length_le (signature : ForeignSignature) :
    (setPositions signature.retained).length ≤ signature.parameters.length := by
  apply (setPositions_length_le _).trans
  obtain empty | ⟨lengthEq, -⟩ := signature.retained_shape
  · simp [empty]
  · exact lengthEq.le

theorem retained_lt (signature : ForeignSignature) {position : Nat}
    (kept : position ∈ setPositions signature.retained) :
    position < signature.parameters.length := by
  have open_ := signature.retained_unset kept
  obtain ⟨inside, -⟩ := List.getElem?_eq_some_iff.mp open_
  simpa using inside

/-- What is written of a signature apart from its flags loses them. -/
theorem bare_eq_self {signature : ForeignSignature} (borrows : signature.anyRetained = false) :
    signature.bare = signature := by
  obtain ⟨parameters, result, retained, shape⟩ := signature
  have none : retained = [] := by simpa [anyRetained] using borrows
  subst none
  rfl

end ForeignSignature

section Positions

variable {ε : Type} (short : Nat → ε) (outOfRange : Nat → Nat → ε) (duplicate : Nat → ε)

def positionsReader : Nat → List Bool → Reader ε (List Bool)
  | 0, retained => pure retained
  | count + 1, retained => do
    let position ← u32 short
    match retained[position.toNat]? with
    | none => fail (outOfRange position.toNat retained.length)
    | some true => fail (duplicate position.toNat)
    | some false => positionsReader count (retained.set position.toNat true)

theorem positionsReader_spans {positions : List Nat} {flags : List Bool}
    {cursor after : Cursor} (distinct : positions.Nodup)
    (unset : ∀ position ∈ positions, position < 2 ^ 32 ∧ flags[position]? = some false)
    (spans : Spans cursor (positions.flatMap positionBytes) after) :
    positionsReader short outOfRange duplicate positions.length flags cursor =
      .ok (setFlags flags positions, after) := by
  induction positions generalizing flags cursor with
  | nil => exact pure_ok_iff.mpr ⟨rfl, by simpa using spans⟩
  | cons position positions ih =>
    rw [List.flatMap_cons, spans_append] at spans
    obtain ⟨middle, positionSpans, spans⟩ := spans
    obtain ⟨fresh, distinct⟩ := List.nodup_cons.mp distinct
    obtain ⟨small, open_⟩ := unset position (by simp)
    have narrow : (UInt32.ofNat position).toNat = position :=
      UInt32.toNat_ofNat_of_lt (by simpa [UInt32.size] using small)
    refine bind_ok_iff.mpr ⟨UInt32.ofNat position, middle, u32_ok_iff.mpr positionSpans, ?_⟩
    rw [narrow, open_]
    apply ih distinct ?_ spans
    intro other member
    obtain ⟨otherSmall, otherOpen⟩ := unset other (by simp [member])
    have different : position ≠ other := fun same => fresh (same ▸ member)
    exact ⟨otherSmall, by rwa [List.getElem?_set_ne different]⟩

theorem positionsReader_extends (count : Nat) (flags : List Bool) :
    Extends (positionsReader short outOfRange duplicate count flags) := by
  induction count generalizing flags with
  | zero => exact Extends.pure flags
  | succ count ih =>
    apply Extends.bind u32_codes.extends
    intro position
    cases flags[position.toNat]? with
    | none => exact Extends.fail _
    | some flag =>
      cases flag with
      | true => exact Extends.fail _
      | false => exact ih _

end Positions

end KiraVm
