import KiraVm.OpenSearch
import KiraVm.TypeTable

/-!
# Types whose release runs a body

Whether releasing a value runs a `drop` body is asked of its type.  The walk follows the
fields of structs and the elements of arrays.  Payloads of enums and the contents of cells
are left out: the analysis refuses those that run a body.
-/

namespace KiraVm.KiraIr

namespace TypeTable

open OpenSearch (anyOf search Holds Finds)

def fieldTypes (row : StructRow) : List Ty :=
  row.definition.fields.map FieldDef.ty

def payloadTypes (row : EnumRow) : List Ty :=
  row.definition.variants.filterMap VariantDef.payload

/-- The function that runs a type's own `drop` body. -/
def userDrop (table : TypeTable) : Ty → Option Nat
  | .struct id => (table.structs[id]?).bind fun row => row.definition.dropGlue
  | _ => none

def reachesUserDrop (table : TypeTable) : Nat → Ty → List Ty → Option (Bool × List Ty)
  | 0, _, _ => none
  | steps + 1, ty, met =>
    if ty ∈ met then some (false, met)
    else
      match ty with
      | .struct id =>
        match table.structs[id]? with
        | some row =>
          if row.definition.dropGlue.isSome then some (true, ty :: met)
          else anyOf (table.reachesUserDrop steps) (fieldTypes row) (ty :: met)
        | none => some (false, ty :: met)
      | .array id =>
        match table.arrays.rows[id]? with
        | some element => table.reachesUserDrop steps element (ty :: met)
        | none => some (false, ty :: met)
      | _ => some (false, ty :: met)

def runsUserDrop (table : TypeTable) (steps : Nat) (ty : Ty) : Option Bool :=
  (table.reachesUserDrop steps ty []).map Prod.fst

/-! ## What a type holds -/

def inlineHolds (table : TypeTable) : Ty → List Ty
  | .struct id => ((table.structs[id]?).map fieldTypes).getD []
  | .array id => (table.arrays.rows[id]?).toList
  | _ => []

/-- Everything that the release of a value's storage goes on to release. -/
def releaseHolds (table : TypeTable) : Ty → List Ty
  | .enum id => ((table.enums[id]?).map payloadTypes).getD []
  | .cell id => (table.cells.rows[id]?).toList
  | ty => table.inlineHolds ty

def hasDropGlue (table : TypeTable) (ty : Ty) : Bool :=
  (table.userDrop ty).isSome

theorem anyOf_singleton (deeper : Ty → List Ty → Option (Bool × List Ty)) (ty : Ty)
    (met : List Ty) : anyOf deeper [ty] met = deeper ty met := by
  rw [anyOf]
  cases answer : deeper ty met with
  | none => rfl
  | some result =>
    rcases result with ⟨isFound, after⟩
    cases isFound <;> rfl

theorem reachesUserDrop_eq (table : TypeTable) (steps : Nat) :
    table.reachesUserDrop steps = search table.inlineHolds table.hasDropGlue steps := by
  induction steps with
  | zero => rfl
  | succ steps ih =>
    funext ty met
    rw [search]
    by_cases known : ty ∈ met
    · cases ty <;> simp only [reachesUserDrop, if_pos known]
    · rw [if_neg known]
      cases ty with
      | struct id =>
        cases rowAt : table.structs[id]? with
        | none =>
          simp only [reachesUserDrop, if_neg known, rowAt, hasDropGlue, userDrop, inlineHolds]
          rfl
        | some row =>
          simp only [reachesUserDrop, if_neg known, ih, rowAt, hasDropGlue, userDrop,
            inlineHolds, Option.bind_some, Option.map_some, Option.getD_some]
      | array id =>
        simp only [reachesUserDrop, if_neg known, ih, inlineHolds]
        cases table.arrays.rows[id]? with
        | none => rfl
        | some element => exact (anyOf_singleton _ _ _).symm
      | _ =>
        simp only [reachesUserDrop, if_neg known]
        rfl

/-! ## The types of a table -/

def heldTypes (table : TypeTable) : List Ty :=
  table.structs.flatMap fieldTypes ++ table.arrays.rows ++ table.enums.flatMap payloadTypes

variable {ty : Ty} {table : TypeTable}

theorem inlineHolds_mem (table : TypeTable) {held : Ty} (holds : held ∈ table.inlineHolds ty) :
    held ∈ table.heldTypes := by
  unfold heldTypes
  cases ty with
  | struct id =>
    rw [inlineHolds] at holds
    cases rowAt : table.structs[id]? with
    | none => simp [rowAt] at holds
    | some row =>
      rw [rowAt] at holds
      apply List.mem_append_left
      apply List.mem_append_left
      exact List.mem_flatMap.mpr ⟨row, List.mem_of_getElem? rowAt, holds⟩
  | array id =>
    rw [inlineHolds, Option.mem_toList] at holds
    apply List.mem_append_left
    apply List.mem_append_right
    exact List.mem_of_getElem? holds
  | _ => simp [inlineHolds] at holds

def enoughSteps (table : TypeTable) : Nat :=
  table.heldTypes.length + 2

theorem search_held {holds : Ty → List Ty} {goal : Ty → Bool} (table : TypeTable)
    (held : ∀ ty inner, inner ∈ holds ty → inner ∈ table.heldTypes) (ty : Ty) {steps : Nat}
    (enough : table.enoughSteps ≤ steps) :
    ∃ isFound, (search holds goal steps ty []).map Prod.fst = some isFound ∧
      (isFound = true ↔ Finds holds goal ty) := by
  have closed : ∀ node ∈ (ty :: table.heldTypes).toFinset, ∀ inner ∈ holds node,
      inner ∈ (ty :: table.heldTypes).toFinset := by
    intro node _ inner innerIn
    exact List.mem_toFinset.mpr (List.mem_cons_of_mem ty (held node inner innerIn))
  have small : (ty :: table.heldTypes).toFinset.card < steps := by
    have card := List.toFinset_card_le (ty :: table.heldTypes)
    rw [List.length_cons] at card
    unfold enoughSteps at enough
    omega
  rcases @OpenSearch.search_answers _ _ _ goal _ closed _
    (List.mem_toFinset.mpr List.mem_cons_self) _ small with ⟨isFound, after, answer, iff⟩
  exact ⟨isFound, by rw [answer]; rfl, iff⟩

/-- The walk ends on every type, and answers whether a body is reached by fields and
elements. -/
theorem runsUserDrop_inline (table : TypeTable) (ty : Ty) {steps : Nat}
    (enough : table.enoughSteps ≤ steps) :
    ∃ answer, table.runsUserDrop steps ty = some answer ∧
      (answer = true ↔ Finds table.inlineHolds table.hasDropGlue ty) := by
  rw [runsUserDrop, reachesUserDrop_eq]
  exact table.search_held (fun _ _ => table.inlineHolds_mem) ty enough

/-! ## What a release reaches -/

/-- The analysis refuses payloads of enums and contents of captured cells that run a
body. -/
def RefusesDrop (table : TypeTable) : Prop :=
  (∀ row ∈ table.enums, ∀ payload ∈ payloadTypes row, ∀ steps,
    table.runsUserDrop steps payload ≠ some true) ∧
  ∀ inner ∈ table.cells.rows, ∀ steps, table.runsUserDrop steps inner ≠ some true

/-- The release of a type's value can run a body: a struct with one is reached. -/
def ReleaseRuns (table : TypeTable) (ty : Ty) : Prop :=
  ∃ found, Relation.ReflTransGen (Holds table.releaseHolds) ty found ∧
    (table.userDrop found).isSome = true

theorem not_finds_of_refused (refused : ∀ steps, table.runsUserDrop steps ty ≠ some true) :
    ¬ Finds table.inlineHolds table.hasDropGlue ty := by
  intro finds
  rcases table.runsUserDrop_inline ty le_rfl with ⟨answer, answerEq, iff⟩
  rw [iff.mpr finds] at answerEq
  exact refused _ answerEq

theorem releaseHolds_cases (refuses : table.RefusesDrop) {inner : Ty}
    (holds : inner ∈ table.releaseHolds ty) :
    inner ∈ table.inlineHolds ty ∨ ¬ Finds table.inlineHolds table.hasDropGlue inner := by
  cases ty with
  | enum id =>
    right
    rw [releaseHolds] at holds
    cases rowAt : table.enums[id]? with
    | none => simp [rowAt] at holds
    | some row =>
      rw [rowAt] at holds
      exact not_finds_of_refused
        (refuses.1 row (List.mem_of_getElem? rowAt) inner holds)
  | cell id =>
    right
    rw [releaseHolds, Option.mem_toList] at holds
    exact not_finds_of_refused (refuses.2 inner (List.mem_of_getElem? holds))
  | _ => exact Or.inl holds

theorem inlineHolds_release {inner : Ty} (holds : inner ∈ table.inlineHolds ty) :
    inner ∈ table.releaseHolds ty := by
  cases ty with
  | struct id => exact holds
  | array id => exact holds
  | _ => simp [inlineHolds] at holds

theorem releaseRuns_iff (refuses : table.RefusesDrop) (ty : Ty) :
    Finds table.inlineHolds table.hasDropGlue ty ↔ table.ReleaseRuns ty := by
  constructor
  · rintro ⟨found, way, glue⟩
    exact ⟨found, Relation.ReflTransGen.mono (fun _ _ holds => inlineHolds_release holds) _ _ way,
      glue⟩
  · rintro ⟨found, way, glue⟩
    induction way using Relation.ReflTransGen.head_induction_on with
    | refl => exact ⟨found, Relation.ReflTransGen.refl, glue⟩
    | head holds _ ih =>
      rcases releaseHolds_cases refuses holds with inline | refused
      · rcases ih with ⟨goal, rest, isGoal⟩
        exact ⟨goal, rest.head inline, isGoal⟩
      · exact absurd ih refused

/-- The walk ends on every type of every table.  It answers whether a struct with a body is
reached by fields and elements, which is whether a release reaches one when payloads and
cells with a body are refused. -/
theorem runsUserDrop_iff (table : TypeTable) (ty : Ty) :
    ∃ answer, (∀ steps ≥ table.enoughSteps, table.runsUserDrop steps ty = some answer) ∧
      (answer = true ↔ ∃ found, Relation.ReflTransGen (Holds table.inlineHolds) ty found ∧
        (table.userDrop found).isSome = true) ∧
      (table.RefusesDrop → (answer = true ↔ table.ReleaseRuns ty)) := by
  rcases table.runsUserDrop_inline ty le_rfl with ⟨answer, _, iff⟩
  refine ⟨answer, ?_, iff, ?_⟩
  · intro steps enough
    rcases table.runsUserDrop_inline ty enough with ⟨other, otherEq, otherIff⟩
    rw [otherEq, Option.some_inj, Bool.eq_iff_iff, otherIff, iff]
  · intro refuses
    rw [iff, releaseRuns_iff refuses]

def tracing : StructRow where
  definition := ⟨"Tracing", [⟨"tag", .bool, true⟩], false, some 0⟩
  origin := .declared
  owner := none
  declaredIn := "main.kira"
  instantiation := none

def slot (payload : Ty) : EnumRow where
  definition := ⟨"Slot", [⟨"Full", some payload⟩, ⟨"Empty", none⟩]⟩
  owner := none
  declaredIn := "main.kira"
  instantiation := none

/-- A struct that runs a body, and an enum with the given payload. -/
def slotTable (payload : Ty) : TypeTable :=
  { empty with structs := [tracing], enums := [slot payload] }

/-- The walk does not see a body behind an enum's payload. -/
theorem slotTable_missed :
    (∀ steps, (slotTable (.struct 0)).runsUserDrop (steps + 1) (.enum 0) = some false) ∧
      (slotTable (.struct 0)).ReleaseRuns (.enum 0) := by
  constructor
  · intro steps
    rfl
  · refine ⟨.struct 0, Relation.ReflTransGen.single ?_, rfl⟩
    change Ty.struct 0 ∈ [Ty.struct 0]
    exact List.mem_cons_self

theorem runsUserDrop_iff_slotTable :
    (slotTable .bool).RefusesDrop ∧
      ∃ answer, (∀ steps ≥ (slotTable .bool).enoughSteps,
          (slotTable .bool).runsUserDrop steps (.struct 0) = some answer) ∧
        (answer = true ↔ (slotTable .bool).ReleaseRuns (.struct 0)) := by
  have refuses : (slotTable .bool).RefusesDrop := by
    constructor
    · intro row rowIn payload payloadIn steps
      rw [List.mem_singleton.mp rowIn] at payloadIn
      rw [List.mem_singleton.mp payloadIn]
      cases steps <;> simp [runsUserDrop, reachesUserDrop]
    · intro inner innerIn
      cases innerIn
  rcases runsUserDrop_iff (slotTable .bool) (.struct 0) with ⟨answer, reaches, _, releases⟩
  exact ⟨refuses, answer, reaches, releases refuses⟩

end TypeTable

end KiraVm.KiraIr
