import Mathlib.Data.Finset.Card
import KiraVm.StepLimits
import KiraVm.TypeTableHistory

/-!
# Identities that outlive a table

In a table that a compilation reaches the walk ends on every type.  In two tables it writes
the same bytes for types that agree up to a renumbering of their rows.
-/

namespace KiraVm.KiraIr

open StepLimits

/-! ## The walk ends -/

namespace PackagedTable

variable {table : PackagedTable}

theorem typeName_settles {ty : Ty} (ends : table.Ends ty) :
    ∃ name, Settles table.typeName (fun deeper => deeper ty) name := by
  induction ends with
  | intro ty _ ih =>
    cases ty with
    | nativeState id =>
      cases rowAt : table.nativeStates.rows[id]? with
      | none => exact ⟨_, Settles.at_once fun steps => by simp only [TypeTable.typeName, rowAt]; rfl⟩
      | some target =>
        rcases ih target (by simp [TypeTable.mentions, TypeTable.rowMentions, rowAt]) with
          ⟨name, settles⟩
        exact ⟨_, (settles.map _).next fun steps => by simp only [TypeTable.typeName, rowAt]; rfl⟩
    | mainThreadTask result =>
      rcases ih result.valueType (by simp [TypeTable.mentions, TypeTable.rowMentions]) with
        ⟨name, settles⟩
      exact ⟨_, (settles.map _).next fun steps => rfl⟩
    | struct id =>
      cases rowAt : table.structs[id]? with
      | none => exact ⟨_, Settles.at_once fun steps => by simp only [TypeTable.typeName, rowAt]; rfl⟩
      | some row =>
        exact ⟨_, Settles.at_once fun steps => by simp only [TypeTable.typeName, rowAt]; rfl⟩
    | array id =>
      cases rowAt : table.arrays.rows[id]? with
      | none => exact ⟨_, Settles.at_once fun steps => by simp only [TypeTable.typeName, rowAt]; rfl⟩
      | some element =>
        rcases ih element (by simp [TypeTable.mentions, TypeTable.rowMentions, rowAt]) with
          ⟨name, settles⟩
        exact ⟨_, (settles.map _).next fun steps => by simp only [TypeTable.typeName, rowAt]; rfl⟩
    | enum id =>
      cases rowAt : table.enums[id]? with
      | none => exact ⟨_, Settles.at_once fun steps => by simp only [TypeTable.typeName, rowAt]; rfl⟩
      | some row =>
        exact ⟨_, Settles.at_once fun steps => by simp only [TypeTable.typeName, rowAt]; rfl⟩
    | distinct id =>
      cases rowAt : table.distincts.rows[id]? with
      | none => exact ⟨_, Settles.at_once fun steps => by simp only [TypeTable.typeName, rowAt]; rfl⟩
      | some row =>
        exact ⟨_, Settles.at_once fun steps => by simp only [TypeTable.typeName, rowAt]; rfl⟩
    | foreignPtr id =>
      cases rowAt : table.foreignPtrs[id]? with
      | none => exact ⟨_, Settles.at_once fun steps => by simp only [TypeTable.typeName, rowAt]; rfl⟩
      | some target =>
        have pointee : ∃ name, Settles table.typeName (fun deeper => deeper (.struct target))
            name := by
          cases structAt : table.structs[target]? with
          | none =>
            exact ⟨_, Settles.at_once fun steps => by
              simp only [TypeTable.typeName, structAt]; rfl⟩
          | some row =>
            exact ⟨_, Settles.at_once fun steps => by
              simp only [TypeTable.typeName, structAt]; rfl⟩
        rcases pointee with ⟨name, settles⟩
        exact ⟨_, (settles.map _).next fun steps => by simp only [TypeTable.typeName, rowAt]; rfl⟩
    | cell id =>
      cases rowAt : table.cells.rows[id]? with
      | none => exact ⟨_, Settles.at_once fun steps => by simp only [TypeTable.typeName, rowAt]; rfl⟩
      | some inner =>
        rcases ih inner (by simp [TypeTable.mentions, TypeTable.rowMentions, rowAt]) with
          ⟨name, settles⟩
        exact ⟨_, (settles.map _).next fun steps => by simp only [TypeTable.typeName, rowAt]; rfl⟩
    | _ => exact ⟨_, Settles.at_once fun steps => rfl⟩

theorem arguments_mentioned {ty : Ty} {identity : NominalIdentity}
    (nominal : table.identity ty = some identity) {argument : Ty}
    (argumentIn : argument ∈ identity.arguments) : argument ∈ table.mentions ty := by
  cases ty with
  | struct id =>
    rcases Option.map_eq_some_iff.mp nominal with ⟨row, rowAt, rfl⟩
    simpa [TypeTable.mentions, TypeTable.rowMentions, rowAt, PackagedTable.nominal,
      instanceArguments] using argumentIn
  | enum id =>
    rcases Option.map_eq_some_iff.mp nominal with ⟨row, rowAt, rfl⟩
    simpa [TypeTable.mentions, TypeTable.rowMentions, rowAt, PackagedTable.nominal,
      instanceArguments] using argumentIn
  | distinct id =>
    rcases Option.map_eq_some_iff.mp nominal with ⟨row, rowAt, rfl⟩
    simp [PackagedTable.nominal] at argumentIn
  | _ => cases nominal

theorem identityKey_settles {ty : Ty} (ends : table.Ends ty) :
    ∃ key, Settles table.identityKey (fun deeper => deeper ty) key := by
  induction ends with
  | intro ty inner ih =>
    cases identityAt : table.identity ty with
    | some identity =>
      rcases Settles.mapM fun argument argumentIn =>
        ih argument (arguments_mentioned identityAt argumentIn) with ⟨keys, settles⟩
      exact ⟨_, (settles.map _).next fun steps => by
        simp only [identityKey, identityAt]; rfl⟩
    | none =>
      cases ty with
      | array id =>
        cases rowAt : table.arrays.rows[id]? with
        | none =>
          exact ⟨_, Settles.at_once fun steps => by
            simp only [identityKey, identityAt, rowAt, TypeTable.typeName]; rfl⟩
        | some element =>
          rcases ih element (by simp [TypeTable.mentions, TypeTable.rowMentions, rowAt])
            with ⟨key, settles⟩
          exact ⟨_, (settles.map _).next fun steps => by
            simp only [identityKey, identityAt, rowAt]; rfl⟩
      | _ =>
        rcases typeName_settles (Acc.intro _ inner) with ⟨name, settles⟩
        use name
        apply Filter.Eventually.mono (settles.and (Filter.eventually_ge_atTop 1))
        intro steps gives
        cases steps with
        | zero => omega
        | succ steps =>
          simp only [identityKey, identityAt]
          exact gives.1

/-- The rows the walk can open, under the marks it keeps of them. -/
def openable (table : PackagedTable) : Finset (Nat × Nat) :=
  (Finset.range table.structs.length).image (fun id => (5, id)) ∪
    (Finset.range table.enums.length).image (fun id => (7, id)) ∪
      (Finset.range table.cells.rows.length).image (fun id => (9, id))

theorem openable_of_struct {id : Nat} {row : StructRow} (rowAt : table.structs[id]? = some row) :
    (5, id) ∈ table.openable := by
  have inside := (List.getElem?_eq_some_iff.mp rowAt).1
  simp [openable, inside]

theorem openable_of_enum {id : Nat} {row : EnumRow} (rowAt : table.enums[id]? = some row) :
    (7, id) ∈ table.openable := by
  have inside := (List.getElem?_eq_some_iff.mp rowAt).1
  simp [openable, inside]

theorem openable_of_cell {id : Nat} {inner : Ty} (rowAt : table.cells.rows[id]? = some inner) :
    (9, id) ∈ table.openable := by
  have inside := (List.getElem?_eq_some_iff.mp rowAt).1
  simp [openable, inside]

/-- Opening a row leaves fewer to open. -/
theorem fewer_openable {mark : Nat × Nat} {visiting : List (Nat × Nat)}
    (present : mark ∈ table.openable) (closed : mark ∉ visiting) :
    (table.openable \ (mark :: visiting).toFinset).card <
      (table.openable \ visiting.toFinset).card := by
  apply Finset.card_lt_card
  rw [Finset.ssubset_iff_of_subset]
  · exact ⟨mark, by simp [present, closed], by simp⟩
  · intro other otherIn
    simp only [List.toFinset_cons, Finset.mem_sdiff, Finset.mem_insert, not_or,
      List.mem_toFinset] at otherIn ⊢
    exact ⟨otherIn.1, otherIn.2.2⟩

def walks (table : PackagedTable) (steps : Nat) :
    (Ty → Option String) × (Ty → List (Nat × Nat) → Option (List UInt8)) :=
  (table.identityKey steps, table.mixNativeStateType steps)

theorem mixVariant_settles {visiting : List (Nat × Nat)} {variant : VariantDef}
    (inner : ∀ payload, ∃ shape,
      Settles (walks table) (fun deeper => deeper.2 payload visiting) shape) :
    ∃ bytes, Settles (walks table)
      (fun deeper => mixVariant (fun ty => deeper.2 ty visiting) variant) bytes := by
  unfold mixVariant
  cases variant.payload with
  | none => exact Settles.exists_const _
  | some payload => exact Settles.exists_map (inner payload)

/-- The walk ends on every type: what it opens is opened once on a path, and what it follows
without opening a row was there before. -/
theorem walk_settles (ends : ∀ ty, table.Ends ty) (left : ℕ) (visiting : List (Nat × Nat))
    (counted : (table.openable \ visiting.toFinset).card = left) (ty : Ty) :
    ∃ bytes, Settles (walks table) (fun deeper => deeper.2 ty visiting) bytes := by
  induction left using Nat.strong_induction_on generalizing visiting ty with
  | h left opened =>
    have keyed : ∀ other, ∃ key, Settles (walks table) (fun deeper => deeper.1 other) key :=
      fun other => identityKey_settles (ends other)
    have inside : ∀ mark ∈ table.openable, mark ∉ visiting → ∀ inner, ∃ bytes,
        Settles (walks table) (fun deeper => deeper.2 inner (mark :: visiting)) bytes := by
      intro mark present closed inner
      apply opened _ _ (mark :: visiting) rfl inner
      rw [← counted]
      exact fewer_openable present closed
    have tyEnds := ends ty
    induction tyEnds with
    | intro ty _ ih =>
      suffices level : ∃ bytes, Settles (walks table)
          (fun deeper => table.mixShape deeper.1 deeper.2 ty visiting) bytes by
        rcases level with ⟨bytes, settles⟩
        exact ⟨bytes, settles.next fun steps => rfl⟩
      cases ty with
      | distinct id =>
        simp only [mixShape]
        cases rowAt : table.distincts.rows[id]? with
        | none => exact Settles.exists_const _
        | some row =>
          apply Settles.exists_bind (keyed _)
          intro key
          exact Settles.exists_map
            (ih _ (by simp [TypeTable.mentions, TypeTable.rowMentions, rowAt]))
      | struct id =>
        simp only [mixShape]
        cases rowAt : table.structs[id]? with
        | none => exact Settles.exists_const _
        | some row =>
          apply Settles.exists_bind (keyed _)
          intro key
          split
          · exact Settles.exists_const _
          · split
            · exact Settles.exists_const _
            · rename_i isClosed
              apply Settles.exists_map
              apply Settles.mapM
              intro field _
              exact Settles.exists_map
                (inside (5, id) (openable_of_struct rowAt) isClosed field.ty)
      | array id =>
        simp only [mixShape]
        cases rowAt : table.arrays.rows[id]? with
        | none => exact Settles.exists_const _
        | some element =>
          exact Settles.exists_map
            (ih element (by simp [TypeTable.mentions, TypeTable.rowMentions, rowAt]))
      | enum id =>
        simp only [mixShape]
        cases rowAt : table.enums[id]? with
        | none => exact Settles.exists_const _
        | some row =>
          apply Settles.exists_bind (keyed _)
          intro key
          split
          · exact Settles.exists_const _
          · rename_i isClosed
            apply Settles.exists_map
            apply Settles.mapM
            intro variant _
            exact mixVariant_settles (inside (7, id) (openable_of_enum rowAt) isClosed)
      | cell id =>
        simp only [mixShape]
        split
        · exact Settles.exists_const _
        · rename_i isClosed
          cases rowAt : table.cells.rows[id]? with
          | none => exact Settles.exists_const _
          | some inner =>
            exact Settles.exists_map
              (inside (9, id) (openable_of_cell rowAt) isClosed inner)
      | nativeState id =>
        simp only [mixShape]
        cases rowAt : table.nativeStates.rows[id]? with
        | none => exact Settles.exists_const _
        | some target =>
          exact Settles.exists_map
            (ih target (by simp [TypeTable.mentions, TypeTable.rowMentions, rowAt]))
      | _ => exact Settles.exists_const _

end PackagedTable

/-! ## Types that agree in two tables -/

/-- Which rows of one table stand for which rows of another. -/
structure Renumbering where
  structs : Nat → Nat → Prop
  arrays : Nat → Nat → Prop
  enums : Nat → Nat → Prop
  distincts : Nat → Nat → Prop
  nativeStates : Nat → Nat → Prop
  cells : Nat → Nat → Prop
  foreignPtrs : Nat → Nat → Prop

namespace Renumbering

/-- Two types that name rows which stand for each other. -/
inductive Matches (same : Renumbering) : Ty → Ty → Prop
  | int (spelling : IntWidth) : Matches same (.int spelling) (.int spelling)
  | float (spelling : FloatSpelling) : Matches same (.float spelling) (.float spelling)
  | bool : Matches same .bool .bool
  | string : Matches same .string .string
  | number : Matches same .number .number
  | void : Matches same .void .void
  | error : Matches same .error .error
  | struct {left right : Nat} (rows : same.structs left right) :
      Matches same (.struct left) (.struct right)
  | array {left right : Nat} (rows : same.arrays left right) :
      Matches same (.array left) (.array right)
  | enum {left right : Nat} (rows : same.enums left right) :
      Matches same (.enum left) (.enum right)
  | distinct {left right : Nat} (rows : same.distincts left right) :
      Matches same (.distinct left) (.distinct right)
  | cell {left right : Nat} (rows : same.cells left right) :
      Matches same (.cell left) (.cell right)
  | rawPtr : Matches same .rawPtr .rawPtr
  | foreignPtr {left right : Nat} (rows : same.foreignPtrs left right) :
      Matches same (.foreignPtr left) (.foreignPtr right)
  | nativeState {left right : Nat} (rows : same.nativeStates left right) :
      Matches same (.nativeState left) (.nativeState right)
  | task {left right : TaskResult} (labels : left.label = right.label) :
      Matches same (.task left) (.task right)
  | mainThreadTask {left right : TaskResult}
      (results : Matches same left.valueType right.valueType) :
      Matches same (.mainThreadTask left) (.mainThreadTask right)
  | any : Matches same .any .any
  | cString : Matches same .cString .cString
  | runtimeType : Matches same .runtimeType .runtimeType
  | cBlock : Matches same .cBlock .cBlock

variable (same : Renumbering) (left right : PackagedTable)

/-- Two instances of one declaration, or two declarations that are no instance. -/
def SameInstance (first second : Option Instantiation) : Prop :=
  Option.Rel (fun one other => List.Forall₂ same.Matches one.arguments other.arguments)
    first second

def SameDeclaration (firstOwner secondOwner : Option String) (firstModule secondModule : String)
    (firstName secondName : String) : Prop :=
  firstOwner.map left.package = secondOwner.map right.package ∧ firstModule = secondModule ∧
    firstName = secondName

structure SameField (first second : FieldDef) : Prop where
  names : first.name = second.name
  mutability : first.isMutable = second.isMutable
  types : same.Matches first.ty second.ty

structure SameVariant (first second : VariantDef) : Prop where
  names : first.name = second.name
  payloads : Option.Rel same.Matches first.payload second.payload

/-- The fields of a function type are its captures, and may differ. -/
structure SameStruct (first second : StructRow) : Prop where
  declaration : SameDeclaration left right first.owner second.owner first.declaredIn
    second.declaredIn first.definition.name second.definition.name
  origins : first.origin = second.origin
  instances : same.SameInstance first.instantiation second.instantiation
  fields : first.origin = .functionType ∨
    List.Forall₂ same.SameField first.definition.fields second.definition.fields

structure SameEnum (first second : EnumRow) : Prop where
  declaration : SameDeclaration left right first.owner second.owner first.declaredIn
    second.declaredIn first.definition.name second.definition.name
  instances : same.SameInstance first.instantiation second.instantiation
  variants : List.Forall₂ same.SameVariant first.definition.variants second.definition.variants

structure SameDistinct (first second : DistinctRow) : Prop where
  declaration : SameDeclaration left right first.owner second.owner first.declaredIn
    second.declaredIn first.definition.name second.definition.name
  representations : same.Matches first.definition.representation second.definition.representation

/-- Rows that stand for each other agree, and no row the walk can open stands for two. -/
structure Agrees : Prop where
  structs : ∀ first second, same.structs first second →
    Option.Rel (same.SameStruct left right) left.structs[first]? right.structs[second]?
  arrays : ∀ first second, same.arrays first second →
    Option.Rel same.Matches left.arrays.rows[first]? right.arrays.rows[second]?
  enums : ∀ first second, same.enums first second →
    Option.Rel (same.SameEnum left right) left.enums[first]? right.enums[second]?
  distincts : ∀ first second, same.distincts first second →
    Option.Rel (same.SameDistinct left right) left.distincts.rows[first]?
      right.distincts.rows[second]?
  nativeStates : ∀ first second, same.nativeStates first second →
    Option.Rel same.Matches left.nativeStates.rows[first]? right.nativeStates.rows[second]?
  cells : ∀ first second, same.cells first second →
    Option.Rel same.Matches left.cells.rows[first]? right.cells.rows[second]?
  foreignPtrs : ∀ first second, same.foreignPtrs first second →
    Option.Rel same.structs left.foreignPtrs[first]? right.foreignPtrs[second]?
  structsOnce : Relator.BiUnique same.structs
  enumsOnce : Relator.BiUnique same.enums
  cellsOnce : Relator.BiUnique same.cells

/-! ## Equal bytes -/

section Equal

variable {same : Renumbering} {left right : PackagedTable} {first second : Ty}

theorem mapM_eq {α β γ : Type} {related : α → β → Prop} {read : α → Option γ}
    {other : β → Option γ} {items : List α} {others : List β}
    (pairs : List.Forall₂ related items others)
    (each : ∀ item partner, related item partner → read item = other partner) :
    items.mapM read = others.mapM other := by
  induction pairs with
  | nil => rfl
  | cons pair _ ih =>
    rw [List.mapM_cons, List.mapM_cons, each _ _ pair, ih]

/-- Rows that are looked up together are both missing, or are there and agree. -/
theorem rows_cases {α β : Type} {agree : α → β → Prop} {one : Option α} {other : Option β}
    (pair : Option.Rel agree one other) :
    one = none ∧ other = none ∨
      ∃ row partner, one = some row ∧ other = some partner ∧ agree row partner := by
  cases pair with
  | none => exact Or.inl ⟨rfl, rfl⟩
  | some agreeing => exact Or.inr ⟨_, _, rfl, rfl, agreeing⟩

theorem typeName_eq (agrees : same.Agrees left right) (steps : Nat)
    (matched : same.Matches first second) :
    left.typeName steps first = right.typeName steps second := by
  induction steps generalizing first second with
  | zero => rfl
  | succ steps ih =>
    cases matched with
    | struct rows =>
      rcases rows_cases (agrees.structs _ _ rows) with
        ⟨oneAt, otherAt⟩ | ⟨row, partner, oneAt, otherAt, agreeing⟩
      · simp only [TypeTable.typeName, oneAt, otherAt]
      · simp only [TypeTable.typeName, oneAt, otherAt, agreeing.declaration.2.2]
    | array rows =>
      rcases rows_cases (agrees.arrays _ _ rows) with
        ⟨oneAt, otherAt⟩ | ⟨row, partner, oneAt, otherAt, agreeing⟩
      · simp only [TypeTable.typeName, oneAt, otherAt]
      · simp only [TypeTable.typeName, oneAt, otherAt, ih agreeing]
    | enum rows =>
      rcases rows_cases (agrees.enums _ _ rows) with
        ⟨oneAt, otherAt⟩ | ⟨row, partner, oneAt, otherAt, agreeing⟩
      · simp only [TypeTable.typeName, oneAt, otherAt]
      · simp only [TypeTable.typeName, oneAt, otherAt, agreeing.declaration.2.2]
    | distinct rows =>
      rcases rows_cases (agrees.distincts _ _ rows) with
        ⟨oneAt, otherAt⟩ | ⟨row, partner, oneAt, otherAt, agreeing⟩
      · simp only [TypeTable.typeName, oneAt, otherAt]
      · simp only [TypeTable.typeName, oneAt, otherAt, agreeing.declaration.2.2]
    | cell rows =>
      rcases rows_cases (agrees.cells _ _ rows) with
        ⟨oneAt, otherAt⟩ | ⟨row, partner, oneAt, otherAt, agreeing⟩
      · simp only [TypeTable.typeName, oneAt, otherAt]
      · simp only [TypeTable.typeName, oneAt, otherAt, ih agreeing]
    | foreignPtr rows =>
      rcases rows_cases (agrees.foreignPtrs _ _ rows) with
        ⟨oneAt, otherAt⟩ | ⟨row, partner, oneAt, otherAt, agreeing⟩
      · simp only [TypeTable.typeName, oneAt, otherAt]
      · simp only [TypeTable.typeName, oneAt, otherAt, ih (.struct agreeing)]
    | nativeState rows =>
      rcases rows_cases (agrees.nativeStates _ _ rows) with
        ⟨oneAt, otherAt⟩ | ⟨row, partner, oneAt, otherAt, agreeing⟩
      · simp only [TypeTable.typeName, oneAt, otherAt]
      · simp only [TypeTable.typeName, oneAt, otherAt, ih agreeing]
    | task labels => simp only [TypeTable.typeName, labels]
    | mainThreadTask results => simp only [TypeTable.typeName, ih results]
    | _ => rfl

/-- The identities of matched types agree in what a key is made of. -/
structure SameIdentity (same : Renumbering) (one other : NominalIdentity) : Prop where
  keys : one.declarationKey = other.declarationKey
  arguments : List.Forall₂ same.Matches one.arguments other.arguments

theorem nominal_same {firstOwner secondOwner : Option String}
    {firstModule secondModule firstName secondName : String} {firstKind secondKind : NominalKind}
    {one other : Option Instantiation}
    (declaration : SameDeclaration left right firstOwner secondOwner firstModule secondModule
      firstName secondName) (instances : same.SameInstance one other) :
    same.SameIdentity (left.nominal firstOwner firstModule firstName firstKind one)
      (right.nominal secondOwner secondModule secondName secondKind other) := by
  rcases declaration with ⟨packages, modules, names⟩
  cases instances with
  | none =>
    constructor
    · simp [NominalIdentity.declarationKey, PackagedTable.nominal, packages, modules, names]
    · exact List.Forall₂.nil
  | some arguments =>
    constructor
    · simp [NominalIdentity.declarationKey, PackagedTable.nominal, packages, modules, names]
    · exact arguments

theorem identity_same (agrees : same.Agrees left right) (matched : same.Matches first second) :
    Option.Rel same.SameIdentity (left.identity first) (right.identity second) := by
  cases matched with
  | struct rows =>
    rcases rows_cases (agrees.structs _ _ rows) with
      ⟨oneAt, otherAt⟩ | ⟨row, partner, oneAt, otherAt, agreeing⟩
    · simp only [PackagedTable.identity, oneAt, otherAt]
      exact Option.Rel.none
    · simp only [PackagedTable.identity, oneAt, otherAt]
      exact Option.Rel.some (nominal_same agreeing.declaration agreeing.instances)
  | enum rows =>
    rcases rows_cases (agrees.enums _ _ rows) with
      ⟨oneAt, otherAt⟩ | ⟨row, partner, oneAt, otherAt, agreeing⟩
    · simp only [PackagedTable.identity, oneAt, otherAt]
      exact Option.Rel.none
    · simp only [PackagedTable.identity, oneAt, otherAt]
      exact Option.Rel.some (nominal_same agreeing.declaration agreeing.instances)
  | distinct rows =>
    rcases rows_cases (agrees.distincts _ _ rows) with
      ⟨oneAt, otherAt⟩ | ⟨row, partner, oneAt, otherAt, agreeing⟩
    · simp only [PackagedTable.identity, oneAt, otherAt]
      exact Option.Rel.none
    · simp only [PackagedTable.identity, oneAt, otherAt]
      exact Option.Rel.some (nominal_same agreeing.declaration Option.Rel.none)
  | _ => exact Option.Rel.none

theorem identityKey_eq (agrees : same.Agrees left right) (steps : Nat)
    (matched : same.Matches first second) :
    left.identityKey steps first = right.identityKey steps second := by
  induction steps generalizing first second with
  | zero => rfl
  | succ steps ih =>
    have names := typeName_eq agrees (steps + 1) matched
    rcases rows_cases (identity_same agrees matched) with
      ⟨oneAt, otherAt⟩ | ⟨one, other, oneAt, otherAt, agreeing⟩
    · cases matched with
      | array rows =>
        rcases rows_cases (agrees.arrays _ _ rows) with
          ⟨rowAt, partnerAt⟩ | ⟨row, partner, rowAt, partnerAt, elements⟩
        · simp only [PackagedTable.identityKey, oneAt, otherAt, rowAt, partnerAt, names]
        · simp only [PackagedTable.identityKey, oneAt, otherAt, rowAt, partnerAt, ih elements]
      | _ => simp only [PackagedTable.identityKey, oneAt, otherAt, names]
    · have arguments := mapM_eq agreeing.arguments fun _ _ pair => ih pair
      simp only [PackagedTable.identityKey, oneAt, otherAt, agreeing.keys, arguments]

/-- Rows the two walks are inside of, under the same mark. -/
inductive MarkMatches (same : Renumbering) : Nat × Nat → Nat × Nat → Prop
  | struct {one other : Nat} (rows : same.structs one other) : MarkMatches same (5, one) (5, other)
  | enum {one other : Nat} (rows : same.enums one other) : MarkMatches same (7, one) (7, other)
  | cell {one other : Nat} (rows : same.cells one other) : MarkMatches same (9, one) (9, other)

theorem markMatches_unique (agrees : same.Agrees left right) {one other mark partner : Nat × Nat}
    (rows : MarkMatches same one other) (known : MarkMatches same mark partner) :
    one = mark ↔ other = partner := by
  cases rows with
  | struct rows =>
    cases known with
    | struct known =>
      constructor
      · rintro ⟨rfl⟩
        rw [agrees.structsOnce.2 rows known]
      · rintro ⟨rfl⟩
        rw [agrees.structsOnce.1 rows known]
    | enum known => simp
    | cell known => simp
  | enum rows =>
    cases known with
    | enum known =>
      constructor
      · rintro ⟨rfl⟩
        rw [agrees.enumsOnce.2 rows known]
      · rintro ⟨rfl⟩
        rw [agrees.enumsOnce.1 rows known]
    | struct known => simp
    | cell known => simp
  | cell rows =>
    cases known with
    | cell known =>
      constructor
      · rintro ⟨rfl⟩
        rw [agrees.cellsOnce.2 rows known]
      · rintro ⟨rfl⟩
        rw [agrees.cellsOnce.1 rows known]
    | struct known => simp
    | enum known => simp

theorem open_iff (agrees : same.Agrees left right) {visiting partners : List (Nat × Nat)}
    (opened : List.Forall₂ (MarkMatches same) visiting partners) {one other : Nat × Nat}
    (rows : MarkMatches same one other) : one ∈ visiting ↔ other ∈ partners := by
  induction opened with
  | nil => simp
  | cons known _ ih =>
    rw [List.mem_cons, List.mem_cons, ih, markMatches_unique agrees rows known]

theorem mixFields_eq {deeper other : Ty → Option (List UInt8)} {fields partners : List FieldDef}
    (pairs : List.Forall₂ same.SameField fields partners)
    (each : ∀ one partner, same.Matches one partner → deeper one = other partner) :
    (fields.mapM fun field => mixField deeper field) =
      partners.mapM fun field => mixField other field := by
  apply mapM_eq pairs
  intro field partner pair
  unfold mixField
  rw [pair.names, pair.mutability, each _ _ pair.types]

theorem mixVariants_eq {deeper other : Ty → Option (List UInt8)}
    {variants partners : List VariantDef}
    (pairs : List.Forall₂ same.SameVariant variants partners)
    (each : ∀ one partner, same.Matches one partner → deeper one = other partner) :
    (variants.mapM fun variant => mixVariant deeper variant) =
      partners.mapM fun variant => mixVariant other variant := by
  apply mapM_eq pairs
  intro variant partner pair
  unfold mixVariant
  rcases rows_cases pair.payloads with
    ⟨oneAt, otherAt⟩ | ⟨payload, target, oneAt, otherAt, payloads⟩
  · simp only [oneAt, otherAt, pair.names]
  · simp only [oneAt, otherAt, pair.names, each _ _ payloads]

theorem walk_eq (agrees : same.Agrees left right) (steps : Nat)
    {visiting partners : List (Nat × Nat)}
    (opened : List.Forall₂ (MarkMatches same) visiting partners)
    (matched : same.Matches first second) :
    left.mixNativeStateType steps first visiting =
      right.mixNativeStateType steps second partners := by
  induction steps generalizing first second visiting partners with
  | zero => rfl
  | succ steps ih =>
    have keys := identityKey_eq agrees steps matched
    rw [PackagedTable.mixNativeStateType, PackagedTable.mixNativeStateType]
    cases matched with
    | struct rows =>
      have marks := MarkMatches.struct rows
      have isOpen := open_iff agrees opened marks
      rcases rows_cases (agrees.structs _ _ rows) with
        ⟨oneAt, otherAt⟩ | ⟨row, partner, oneAt, otherAt, agreeing⟩
      · simp only [PackagedTable.mixShape, oneAt, otherAt]
      · simp only [PackagedTable.mixShape, oneAt, otherAt, keys, agreeing.origins, isOpen]
        rcases agreeing.fields with ofFunction | fields
        · rw [agreeing.origins] at ofFunction
          simp only [if_pos ofFunction]
        · rw [mixFields_eq fields fun _ _ types => ih (List.Forall₂.cons marks opened) types]
    | array rows =>
      rcases rows_cases (agrees.arrays _ _ rows) with
        ⟨oneAt, otherAt⟩ | ⟨row, partner, oneAt, otherAt, agreeing⟩
      · simp only [PackagedTable.mixShape, oneAt, otherAt]
      · simp only [PackagedTable.mixShape, oneAt, otherAt, ih opened agreeing]
    | enum rows =>
      have marks := MarkMatches.enum rows
      have isOpen := open_iff agrees opened marks
      rcases rows_cases (agrees.enums _ _ rows) with
        ⟨oneAt, otherAt⟩ | ⟨row, partner, oneAt, otherAt, agreeing⟩
      · simp only [PackagedTable.mixShape, oneAt, otherAt]
      · simp only [PackagedTable.mixShape, oneAt, otherAt, keys, isOpen]
        rw [mixVariants_eq agreeing.variants fun _ _ payloads =>
          ih (List.Forall₂.cons marks opened) payloads]
    | distinct rows =>
      rcases rows_cases (agrees.distincts _ _ rows) with
        ⟨oneAt, otherAt⟩ | ⟨row, partner, oneAt, otherAt, agreeing⟩
      · simp only [PackagedTable.mixShape, oneAt, otherAt]
      · simp only [PackagedTable.mixShape, oneAt, otherAt, keys,
          ih opened agreeing.representations]
    | cell rows =>
      have marks := MarkMatches.cell rows
      have isOpen := open_iff agrees opened marks
      rcases rows_cases (agrees.cells _ _ rows) with
        ⟨oneAt, otherAt⟩ | ⟨row, partner, oneAt, otherAt, agreeing⟩
      · simp only [PackagedTable.mixShape, oneAt, otherAt, isOpen]
      · simp only [PackagedTable.mixShape, oneAt, otherAt, isOpen,
          ih (List.Forall₂.cons marks opened) agreeing]
    | nativeState rows =>
      rcases rows_cases (agrees.nativeStates _ _ rows) with
        ⟨oneAt, otherAt⟩ | ⟨row, partner, oneAt, otherAt, agreeing⟩
      · simp only [PackagedTable.mixShape, oneAt, otherAt]
      · simp only [PackagedTable.mixShape, oneAt, otherAt, ih opened agreeing]
    | _ => rfl

theorem nativeStateTypeId_eq (agrees : same.Agrees left right) (hash : List UInt8 → UInt64)
    (steps : Nat) (matched : same.Matches first second) :
    left.nativeStateTypeId hash steps first = right.nativeStateTypeId hash steps second := by
  have bytes := walk_eq agrees steps List.Forall₂.nil matched
  cases matched <;>
    simp only [PackagedTable.nativeStateTypeId, PackagedTable.nativeStateFingerprint, bytes,
      KiraIr.nativeStateTypeId]

end Equal

end Renumbering

namespace PackagedTable

theorem nativeStateTypeId_ends {table : PackagedTable} (compiled : Compiled table)
    (hash : List UInt8 → UInt64) (ty : Ty) :
    ∃ enough answer, ∀ steps ≥ enough, table.nativeStateTypeId hash steps ty = some answer := by
  rcases walk_settles compiled.ends _ [] rfl ty with ⟨bytes, settles⟩
  rcases Filter.eventually_atTop.mp settles with ⟨enough, gives⟩
  have walked : ∀ steps ≥ enough, table.mixNativeStateType steps ty [] = some bytes := gives
  use enough
  cases ty <;>
    exact ⟨_, fun steps large => by
      simp only [nativeStateTypeId, nativeStateFingerprint, walked steps large]; rfl⟩

/-- The walk ends on every type of a table that a compilation reaches, and types that agree
up to a renumbering of rows have one identity, under any hash. -/
theorem nativeStateTypeId_stable {left right : PackagedTable} (compiled : Compiled left)
    (hash : List UInt8 → UInt64) :
    (∀ ty, ∃ enough answer, ∀ steps ≥ enough,
      left.nativeStateTypeId hash steps ty = some answer) ∧
    ∀ (same : Renumbering) (first second : Ty), same.Agrees left right →
      same.Matches first second →
      ∃ enough answer, ∀ steps ≥ enough,
        left.nativeStateTypeId hash steps first = some answer ∧
        right.nativeStateTypeId hash steps second = some answer := by
  constructor
  · exact nativeStateTypeId_ends compiled hash
  · intro same first second agrees matched
    rcases nativeStateTypeId_ends compiled hash first with ⟨enough, answer, gives⟩
    use enough, answer
    intro steps large
    constructor
    · exact gives steps large
    · rw [← Renumbering.nativeStateTypeId_eq agrees hash steps matched]
      exact gives steps large

/-- A struct whose field is an array of itself. -/
def nodeTable : PackagedTable :=
  { PackagedTable.empty with
    structs := [⟨⟨"Node", [⟨"next", .array 0, true⟩], false, none⟩, .declared, none, "", none⟩]
    arrays := ⟨[.struct 0], [(.struct 0, 0)], by decide⟩ }

/-- The same struct after an unrelated one, and its array after another. -/
def laterNodeTable : PackagedTable :=
  { PackagedTable.empty with
    structs := [⟨⟨"Other", [], false, none⟩, .declared, none, "", none⟩,
      ⟨⟨"Node", [⟨"next", .array 1, true⟩], false, none⟩, .declared, none, "", none⟩]
    arrays := ⟨[.bool, .struct 1], [(.bool, 0), (.struct 1, 1)], by decide⟩ }

def nodeRows : Renumbering where
  structs := fun one other => one = 0 ∧ other = 1
  arrays := fun one other => one = 0 ∧ other = 1
  enums := fun _ _ => False
  distincts := fun _ _ => False
  nativeStates := fun _ _ => False
  cells := fun _ _ => False
  foreignPtrs := fun _ _ => False

theorem nodeTable_built : Built nodeTable := by
  have declared : PackagedTable.empty.declareStruct .declared none ⟨"Node", [], false, none⟩ =
      some (0, { PackagedTable.empty with
        structs := [⟨⟨"Node", [], false, none⟩, .declared, none, "", none⟩] }) := rfl
  have arrayed := @Built.arrayOf _ (.struct 0) (Built.empty.declareStruct declared) rfl
  exact arrayed.changeStruct 0 (.setFields [⟨"next", .array 0, true⟩])

theorem nodeRows_agrees : nodeRows.Agrees nodeTable laterNodeTable := by
  constructor
  · rintro first second ⟨rfl, rfl⟩
    apply Option.Rel.some
    constructor
    · exact ⟨rfl, rfl, rfl⟩
    · rfl
    · exact Option.Rel.none
    · right
      exact List.Forall₂.cons ⟨rfl, rfl, .array ⟨rfl, rfl⟩⟩ List.Forall₂.nil
  · rintro first second ⟨rfl, rfl⟩
    exact Option.Rel.some (.struct ⟨rfl, rfl⟩)
  · intro _ _ rows
    exact rows.elim
  · intro _ _ rows
    exact rows.elim
  · intro _ _ rows
    exact rows.elim
  · intro _ _ rows
    exact rows.elim
  · intro _ _ rows
    exact rows.elim
  · constructor
    · rintro one other target ⟨rfl, _⟩ ⟨rfl, _⟩
      rfl
    · rintro one other target ⟨_, rfl⟩ ⟨_, rfl⟩
      rfl
  · constructor
    · intro one other target rows
      exact rows.elim
    · intro one other target rows
      exact rows.elim
  · constructor
    · intro one other target rows
      exact rows.elim
    · intro one other target rows
      exact rows.elim

theorem nativeStateTypeId_stable_nodes : ∃ enough answer, ∀ steps ≥ enough,
    nodeTable.nativeStateTypeId mixHash steps (.struct 0) = some answer ∧
    laterNodeTable.nativeStateTypeId mixHash steps (.struct 1) = some answer :=
  (nativeStateTypeId_stable (.analyzed nodeTable_built) mixHash).2 nodeRows (.struct 0)
    (.struct 1) nodeRows_agrees (.struct ⟨rfl, rfl⟩)

end PackagedTable

end KiraVm.KiraIr
