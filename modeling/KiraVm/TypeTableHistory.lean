import KiraVm.DistinctErasure
import KiraVm.NativeStateIdentity
import Mathlib.Order.WellFounded

/-!
# Tables a compilation builds

Only the table mints its rows, so a type that is handed to it names rows that are there.
An array, a cell, a handle of callback state and a distinct type are added after the type
they hold, and an instance after its arguments.  What a type mentions outside of fields
and payloads is therefore older than the type, before and after distinct types are erased.
-/

namespace KiraVm.KiraIr

/-! ## The operations of the table -/

namespace PackagedTable

def arrayOf (table : PackagedTable) (element : Ty) : Ty × PackagedTable :=
  match InternTable.intern table.arrays element with
  | some (id, arrays) => (.array id, { table with arrays := arrays })
  | none => (.error, table)

def cellOf (table : PackagedTable) (inner : Ty) : Ty × PackagedTable :=
  match InternTable.intern table.cells inner with
  | some (id, cells) => (.cell id, { table with cells := cells })
  | none => (.error, table)

def nativeStateOf (table : PackagedTable) (target : Ty) : Ty × PackagedTable :=
  match InternTable.intern table.nativeStates target with
  | some (id, nativeStates) => (.nativeState id, { table with nativeStates := nativeStates })
  | none => (.error, table)

/-- The pointer type of a struct, at its first mention a new row. -/
def foreignPtrTo (table : PackagedTable) (target : Nat) : Ty × PackagedTable :=
  match table.foreignPtrs.idxOf? target with
  | some id => (.foreignPtr id, table)
  | none =>
    if table.foreignPtrs.length < 2 ^ 32 then
      (.foreignPtr table.foreignPtrs.length,
        { table with foreignPtrs := table.foreignPtrs ++ [target] })
    else (.rawPtr, table)

def declareStruct (table : PackagedTable) (origin : StructOrigin) (owner : Option String)
    (definition : StructDef) : Option (Nat × PackagedTable) :=
  if table.structs.any (fun row =>
      ownedKey row.owner row.definition.name = ownedKey owner definition.name) then none
  else if table.structs.length < 2 ^ 32 then
    some (table.structs.length,
      { table with structs := table.structs ++ [⟨definition, origin, owner, "", none⟩] })
  else none

def declareEnum (table : PackagedTable) (owner : Option String) (definition : EnumDef) :
    Option (Nat × PackagedTable) :=
  if table.enums.any (fun row =>
      ownedKey row.owner row.definition.name = ownedKey owner definition.name) then none
  else if table.enums.length < 2 ^ 32 then
    some (table.enums.length,
      { table with enums := table.enums ++ [⟨definition, owner, "", none⟩] })
  else none

def recordStructInstantiation (table : PackagedTable) (id : Nat)
    (instantiation : Instantiation) : PackagedTable :=
  { table with
    structs := table.structs.modify id fun row => { row with instantiation := some instantiation } }

def recordEnumInstantiation (table : PackagedTable) (id : Nat)
    (instantiation : Instantiation) : PackagedTable :=
  { table with
    enums := table.enums.modify id fun row => { row with instantiation := some instantiation } }

end PackagedTable

/-- What may be filled in on a struct that is declared. -/
inductive StructChange
  | setModule (declaredIn : String)
  | pushField (field : FieldDef)
  | setFields (fields : List FieldDef)
  | setDropGlue (glue : Nat)

def StructChange.applyTo (row : StructRow) : StructChange → StructRow
  | .setModule declaredIn => { row with declaredIn := declaredIn }
  | .pushField field =>
    { row with definition := { row.definition with fields := row.definition.fields ++ [field] } }
  | .setFields fields => { row with definition := { row.definition with fields := fields } }
  | .setDropGlue glue => { row with definition := { row.definition with dropGlue := some glue } }

inductive EnumChange
  | setModule (declaredIn : String)
  | setVariants (variants : List VariantDef)

def EnumChange.applyTo (row : EnumRow) : EnumChange → EnumRow
  | .setModule declaredIn => { row with declaredIn := declaredIn }
  | .setVariants variants => { row with definition := { row.definition with variants := variants } }

namespace PackagedTable

def changeStruct (table : PackagedTable) (id : Nat) (change : StructChange) : PackagedTable :=
  { table with structs := table.structs.modify id fun row => change.applyTo row }

def changeEnum (table : PackagedTable) (id : Nat) (change : EnumChange) : PackagedTable :=
  { table with enums := table.enums.modify id fun row => change.applyTo row }

def setDistinctModule (table : PackagedTable) (id : Nat) (declaredIn : String) :
    PackagedTable :=
  { table with
    distincts :=
      { rows := table.distincts.rows.modify id fun row => { row with declaredIn := declaredIn }
        flattened := by
          intro row rowIn
          rcases List.mem_iff_getElem?.mp rowIn with ⟨index, rowAt⟩
          rw [List.getElem?_modify] at rowAt
          rcases Option.map_eq_some_iff.mp rowAt with ⟨before, beforeAt, same⟩
          have flat := table.distincts.flattened before (List.mem_of_getElem? beforeAt)
          split at same
          · rw [← same]
            exact flat
          · rw [← same]
            exact flat } }

def declareDistinct (table : PackagedTable) (owner : Option String) (name : String)
    (representation : Ty) : Ty × PackagedTable :=
  let (ty, types) := table.declareDistinctOwned owner name representation
  (ty, { table with toTypeTable := types })

def eraseDistincts (table : PackagedTable) : PackagedTable :=
  { table with toTypeTable := table.eraseDistinctTypes }

end PackagedTable

/-! ## What a type mentions -/

def Ty.named : Ty → Ty
  | .task result | .mainThreadTask result => result.valueType
  | ty => ty

@[simp]
theorem TaskResult.named_valueType (result : TaskResult) :
    result.valueType.named = result.valueType := by
  cases result <;> rfl

theorem Ty.named_cases (ty : Ty) :
    ty.named = ty ∨ ∃ result, ty = .task result ∨ ty = .mainThreadTask result := by
  cases ty with
  | task result => exact Or.inr ⟨result, Or.inl rfl⟩
  | mainThreadTask result => exact Or.inr ⟨result, Or.inr rfl⟩
  | _ => exact Or.inl rfl

def instanceArguments (instantiation : Option Instantiation) : List Ty :=
  (instantiation.map Instantiation.arguments).getD []

namespace TypeTable

/-- The types a type is made of.  The fields of a struct and the payloads of an enum are not
among them, nor is what a typed pointer points at. -/
def rowMentions (table : TypeTable) : Ty → Option (List Ty)
  | .struct id => (table.structs[id]?).map fun row => instanceArguments row.instantiation
  | .enum id => (table.enums[id]?).map fun row => instanceArguments row.instantiation
  | .array id => (table.arrays.rows[id]?).map ([·])
  | .cell id => (table.cells.rows[id]?).map ([·])
  | .nativeState id => (table.nativeStates.rows[id]?).map ([·])
  | .distinct id => (table.distincts.rows[id]?).map fun row => [row.definition.representation]
  | .foreignPtr id => (table.foreignPtrs[id]?).map fun _ => []
  | .task result | .mainThreadTask result => some [result.valueType]
  | _ => some []

def mentions (table : TypeTable) (ty : Ty) : List Ty :=
  (table.rowMentions ty).getD []

def HasRow (table : TypeTable) (ty : Ty) : Prop :=
  (table.rowMentions ty).isSome

def Knows (table : TypeTable) (ty : Ty) : Prop :=
  table.HasRow ty.named

def Ends (table : TypeTable) (ty : Ty) : Prop :=
  Acc (fun inner outer => inner ∈ table.mentions outer) ty

variable {table : TypeTable}

/-- A handle of a task mentions the type the task answers with. -/
theorem mentions_task {ty : Ty} {result : TaskResult}
    (handle : ty = .task result ∨ ty = .mainThreadTask result) :
    table.mentions ty = [result.valueType] ∧ ty.named = result.valueType := by
  rcases handle with rfl | rfl <;> exact ⟨rfl, rfl⟩

theorem Ends.of_mentions {ty : Ty} (each : ∀ inner ∈ table.mentions ty, table.Ends inner) :
    table.Ends ty :=
  Acc.intro ty each

/-- Known types mention known types, and chains of mentions end. -/
structure Grounded (table : TypeTable) : Prop where
  closed : ∀ ty, table.Knows ty → ∀ inner ∈ table.mentions ty, table.Knows inner
  ends : ∀ ty, table.Knows ty → table.Ends ty

theorem hasRow_of_knows {ty : Ty} (known : table.Knows ty) : table.HasRow ty := by
  cases ty with
  | task result => rfl
  | mainThreadTask result => rfl
  | _ => exact known

/-- A type with no row, and a handle of one, mention nothing that goes on. -/
theorem ends_of_not_knows {ty : Ty} (unknown : ¬ table.Knows ty) : table.Ends ty := by
  have missing : ∀ inner, ¬ table.HasRow inner → table.Ends inner := by
    intro inner missing
    rw [HasRow, Option.not_isSome_iff_eq_none] at missing
    apply Ends.of_mentions
    simp [mentions, missing]
  rcases ty.named_cases with itself | ⟨result, handle⟩
  · rw [Knows, itself] at unknown
    exact missing _ unknown
  · rw [Knows, (@mentions_task table _ _ handle).2] at unknown
    apply Ends.of_mentions
    intro inner innerIn
    rw [(mentions_task handle).1, List.mem_singleton] at innerIn
    rw [innerIn]
    exact missing _ unknown

theorem knows_result {ty inner : Ty} {result : TaskResult}
    (handle : ty = .task result ∨ ty = .mainThreadTask result) (known : table.Knows ty)
    (innerIn : inner ∈ table.mentions ty) : table.Knows inner := by
  rcases mentions_task handle with ⟨mentioned, named⟩
  rw [mentioned, List.mem_singleton] at innerIn
  rw [Knows, named] at known
  rw [innerIn, Knows, TaskResult.named_valueType]
  exact known

theorem Grounded.ends_all (grounded : table.Grounded) (ty : Ty) : table.Ends ty := by
  by_cases known : table.Knows ty
  · exact grounded.ends ty known
  · exact ends_of_not_knows known

/-! ## Rows that are added -/

/-- One row was added, for a type that had none. -/
structure Adds (table : TypeTable) (new : Ty) (mentioned : List Ty) (next : TypeTable) :
    Prop where
  absent : table.rowMentions new = none
  added : next.rowMentions new = some mentioned
  others : ∀ ty, ty ≠ new → next.rowMentions ty = table.rowMentions ty

section Added

variable {table next : TypeTable} {new : Ty} {mentioned : List Ty}

variable {ty : Ty}

theorem Adds.rowMentions_eq (adds : Adds table new mentioned next) (present : table.HasRow ty) :
    next.rowMentions ty = table.rowMentions ty := by
  apply adds.others
  rintro rfl
  rw [HasRow, adds.absent] at present
  cases present

theorem Adds.mentions_eq (adds : Adds table new mentioned next) (known : table.Knows ty) :
    next.mentions ty = table.mentions ty := by
  rw [mentions, mentions, adds.rowMentions_eq (hasRow_of_knows known)]

theorem Adds.knows (adds : Adds table new mentioned next) (known : table.Knows ty) :
    next.Knows ty := by
  unfold Knows HasRow at known ⊢
  rw [adds.rowMentions_eq known]
  exact known

theorem Adds.cases_of_knows (adds : Adds table new mentioned next) (known : next.Knows ty) :
    table.Knows ty ∨ ty.named = new := by
  by_cases same : ty.named = new
  · exact Or.inr same
  · unfold Knows HasRow at known ⊢
    rw [adds.others _ same] at known
    exact Or.inl known

theorem Grounded.ends_of_adds (grounded : table.Grounded) (adds : Adds table new mentioned next)
    (known : table.Knows ty) : next.Ends ty := by
  have ends := grounded.ends ty known
  induction ends with
  | intro outer _ ih =>
    apply Ends.of_mentions
    intro inner innerIn
    rw [adds.mentions_eq known] at innerIn
    exact ih inner innerIn (grounded.closed outer known inner innerIn)

theorem Grounded.add (grounded : table.Grounded) (adds : Adds table new mentioned next)
    (known : ∀ inner ∈ mentioned, table.Knows inner) : next.Grounded := by
  have newMentions : next.mentions new = mentioned := by
    rw [mentions, adds.added]
    rfl
  have newEnds : next.Ends new := by
    apply Ends.of_mentions
    intro inner innerIn
    rw [newMentions] at innerIn
    exact grounded.ends_of_adds adds (known inner innerIn)
  constructor
  · intro ty present inner innerIn
    rcases adds.cases_of_knows present with old | same
    · rw [adds.mentions_eq old] at innerIn
      exact adds.knows (grounded.closed ty old inner innerIn)
    · rcases ty.named_cases with itself | ⟨result, handle⟩
      · rw [← itself, same, newMentions] at innerIn
        exact adds.knows (known inner innerIn)
      · exact knows_result handle present innerIn
  · intro ty present
    rcases adds.cases_of_knows present with old | same
    · exact grounded.ends_of_adds adds old
    · rcases ty.named_cases with itself | ⟨result, handle⟩
      · rw [← itself, same]
        exact newEnds
      · apply Ends.of_mentions
        intro inner innerIn
        rw [(mentions_task handle).1, List.mem_singleton, ← (@mentions_task next _ _ handle).2,
          same] at innerIn
        rw [innerIn]
        exact newEnds

theorem Grounded.of_eq (grounded : table.Grounded)
    (same : next.rowMentions = table.rowMentions) : next.Grounded := by
  have knowsEq : next.Knows = table.Knows := by
    funext ty
    rw [Knows, HasRow, same]
    rfl
  have mentionsEq : next.mentions = table.mentions := by
    funext ty
    rw [mentions, same]
    rfl
  have endsEq : next.Ends = table.Ends := by
    funext ty
    rw [Ends, mentionsEq]
    rfl
  constructor
  · rw [knowsEq, mentionsEq]
    exact grounded.closed
  · rw [knowsEq, endsEq]
    exact grounded.ends

end Added

/-! ## Each operation -/

theorem getElem?_added {α : Type} (rows : List α) (row : α) (id : Nat) :
    (rows ++ [row])[id]? = if id = rows.length then some row else rows[id]? := by
  split
  · rename_i last
    rw [last]
    exact List.getElem?_concat_length
  · rename_i other
    rcases Nat.lt_or_gt_of_ne other with before | beyond
    · exact List.getElem?_append_left before
    · rw [List.getElem?_eq_none (by simp; omega), List.getElem?_eq_none (by omega)]

/-- Behind its other rows, a table gets one that belongs to a new type. -/
theorem Adds.of_row {α : Type} {next : TypeTable} {rows : List α} (wrap : Nat → Ty)
    (view : α → List Ty) (row : α)
    (before : ∀ id, table.rowMentions (wrap id) = rows[id]?.map view)
    (after : ∀ id, next.rowMentions (wrap id) = (rows ++ [row])[id]?.map view)
    (others : ∀ ty, (∀ id, ty ≠ wrap id) → next.rowMentions ty = table.rowMentions ty) :
    Adds table (wrap rows.length) (view row) next := by
  constructor
  · rw [before, List.getElem?_eq_none (Nat.le_refl _), Option.map_none]
  · rw [after, List.getElem?_concat_length, Option.map_some]
  · intro ty other
    by_cases isRow : ∃ id, ty = wrap id
    · rcases isRow with ⟨id, rfl⟩
      have earlier : id ≠ rows.length := fun same => other (by rw [same])
      rw [before, after, getElem?_added, if_neg earlier]
    · exact others ty fun id same => isRow ⟨id, same⟩

theorem adds_struct (table : TypeTable) (row : StructRow) :
    Adds table (.struct table.structs.length) (instanceArguments row.instantiation)
      { table with structs := table.structs ++ [row] } :=
  Adds.of_row .struct (fun row => instanceArguments row.instantiation) row (fun _ => rfl) (fun _ => rfl) fun ty other => by
    cases ty with
    | struct id => exact absurd rfl (other id)
    | _ => rfl

theorem adds_enum (table : TypeTable) (row : EnumRow) :
    Adds table (.enum table.enums.length) (instanceArguments row.instantiation)
      { table with enums := table.enums ++ [row] } :=
  Adds.of_row .enum (fun row => instanceArguments row.instantiation) row (fun _ => rfl) (fun _ => rfl) fun ty other => by
    cases ty with
    | enum id => exact absurd rfl (other id)
    | _ => rfl

theorem adds_array {arrays : ArrayTable} {element : Ty}
    (added : arrays.rows = table.arrays.rows ++ [element]) :
    Adds table (.array table.arrays.rows.length) [element] { table with arrays := arrays } :=
  Adds.of_row .array ([·]) element (fun _ => rfl) (fun _ => by rw [← added]; rfl) fun ty other => by
    cases ty with
    | array id => exact absurd rfl (other id)
    | _ => rfl

theorem adds_cell {cells : CellTable} {inner : Ty}
    (added : cells.rows = table.cells.rows ++ [inner]) :
    Adds table (.cell table.cells.rows.length) [inner] { table with cells := cells } :=
  Adds.of_row .cell ([·]) inner (fun _ => rfl) (fun _ => by rw [← added]; rfl) fun ty other => by
    cases ty with
    | cell id => exact absurd rfl (other id)
    | _ => rfl

theorem adds_nativeState {nativeStates : NativeStateTable} {target : Ty}
    (added : nativeStates.rows = table.nativeStates.rows ++ [target]) :
    Adds table (.nativeState table.nativeStates.rows.length) [target]
      { table with nativeStates := nativeStates } :=
  Adds.of_row .nativeState ([·]) target (fun _ => rfl) (fun _ => by rw [← added]; rfl) fun ty other => by
    cases ty with
    | nativeState id => exact absurd rfl (other id)
    | _ => rfl

theorem adds_foreignPtr (table : TypeTable) (target : Nat) :
    Adds table (.foreignPtr table.foreignPtrs.length) []
      { table with foreignPtrs := table.foreignPtrs ++ [target] } :=
  Adds.of_row .foreignPtr (fun _ => []) target (fun _ => rfl) (fun _ => rfl) fun ty other => by
    cases ty with
    | foreignPtr id => exact absurd rfl (other id)
    | _ => rfl

theorem adds_distinct {distincts : DistinctTable} {row : DistinctRow}
    (added : distincts.rows = table.distincts.rows ++ [row]) :
    Adds table (.distinct table.distincts.rows.length) [row.definition.representation]
      { table with distincts := distincts } :=
  Adds.of_row .distinct (fun row => [row.definition.representation]) row (fun _ => rfl) (fun _ => by rw [← added]; rfl) fun ty other => by
    cases ty with
    | distinct id => exact absurd rfl (other id)
    | _ => rfl

theorem grounded_empty : TypeTable.empty.Grounded := by
  have nothing : ∀ ty : Ty, ty.named = ty → TypeTable.empty.mentions ty = [] := by
    intro ty itself
    cases ty with
    | task result => cases result <;> cases itself
    | mainThreadTask result => cases result <;> cases itself
    | _ => simp [mentions, rowMentions, TypeTable.empty, InternTable.empty, DistinctTable.empty]
  have ends : ∀ ty : Ty, ty.named = ty → TypeTable.empty.Ends ty := by
    intro ty itself
    apply Ends.of_mentions
    rw [nothing ty itself]
    simp
  constructor
  · intro ty known inner innerIn
    rcases ty.named_cases with itself | ⟨result, handle⟩
    · rw [nothing ty itself] at innerIn
      cases innerIn
    · exact knows_result handle known innerIn
  · intro ty _
    rcases ty.named_cases with itself | ⟨result, handle⟩
    · exact ends ty itself
    · apply Ends.of_mentions
      intro inner innerIn
      rw [(mentions_task handle).1, List.mem_singleton] at innerIn
      rw [innerIn]
      exact ends _ result.named_valueType

end TypeTable

/-! ## Tables a compilation reaches -/

namespace PackagedTable

open TypeTable (Grounded)

/-- What the operations of the table build.  A type that is handed to one was minted by
the table, and an instance is recorded as soon as its row is there. -/
inductive Built : PackagedTable → Prop
  | empty : Built .empty
  | declarePackage {table : PackagedTable} (package : PackageIdentity) (built : Built table) :
      Built (table.declarePackage package)
  | declareStruct {table next : PackagedTable} {origin : StructOrigin} {owner : Option String}
      {definition : StructDef} {id : Nat} (built : Built table)
      (declared : table.declareStruct origin owner definition = some (id, next)) : Built next
  | instantiateStruct {table next : PackagedTable} {owner : Option String}
      {definition : StructDef} {id : Nat} {instantiation : Instantiation} (built : Built table)
      (declared : table.declareStruct .declared owner definition = some (id, next))
      (minted : ∀ argument ∈ instantiation.arguments, table.Knows argument) :
      Built (next.recordStructInstantiation id instantiation)
  | declareEnum {table next : PackagedTable} {owner : Option String} {definition : EnumDef}
      {id : Nat} (built : Built table)
      (declared : table.declareEnum owner definition = some (id, next)) : Built next
  | instantiateEnum {table next : PackagedTable} {owner : Option String}
      {definition : EnumDef} {id : Nat} {instantiation : Instantiation} (built : Built table)
      (declared : table.declareEnum owner definition = some (id, next))
      (minted : ∀ argument ∈ instantiation.arguments, table.Knows argument) :
      Built (next.recordEnumInstantiation id instantiation)
  | changeStruct {table : PackagedTable} (id : Nat) (change : StructChange)
      (built : Built table) : Built (table.changeStruct id change)
  | changeEnum {table : PackagedTable} (id : Nat) (change : EnumChange) (built : Built table) :
      Built (table.changeEnum id change)
  | setDistinctModule {table : PackagedTable} (id : Nat) (declaredIn : String)
      (built : Built table) : Built (table.setDistinctModule id declaredIn)
  | declareDistinct {table : PackagedTable} {representation : Ty} (owner : Option String)
      (name : String) (built : Built table) (minted : table.Knows representation) :
      Built (table.declareDistinct owner name representation).2
  | arrayOf {table : PackagedTable} {element : Ty} (built : Built table)
      (minted : table.Knows element) : Built (table.arrayOf element).2
  | cellOf {table : PackagedTable} {inner : Ty} (built : Built table)
      (minted : table.Knows inner) : Built (table.cellOf inner).2
  | nativeStateOf {table : PackagedTable} {target : Ty} (built : Built table)
      (minted : table.Knows target) : Built (table.nativeStateOf target).2
  | foreignPtrTo {table : PackagedTable} (target : Nat) (built : Built table) :
      Built (table.foreignPtrTo target).2

/-- The table of an analysis, before or after its distinct types are erased. -/
inductive Compiled : PackagedTable → Prop
  | analyzed {table : PackagedTable} (built : Built table) : Compiled table
  | lowered {table : PackagedTable} (built : Built table) : Compiled table.eraseDistincts

theorem modify_added {α : Type} (rows : List α) (row : α) (change : α → α) :
    (rows ++ [row]).modify rows.length change = rows ++ [change row] := by
  induction rows with
  | nil => rfl
  | cons first rest ih =>
    rw [List.cons_append, List.length_cons, List.modify_succ_cons, ih]
    rfl

variable {id : Nat} {table : PackagedTable} {owner : Option String}

theorem rowMentions_changed {α β : Type} {rows : List α} {change : α → α} {view : α → β}
    (keeps : ∀ row, view (change row) = view row) (index : Nat) :
    ((rows.modify id change)[index]?).map view = (rows[index]?).map view := by
  rw [List.getElem?_modify]
  cases rows[index]? with
  | none => rfl
  | some row =>
    by_cases same : id = index
    · simp [same, keeps]
    · simp [same]

theorem declareStruct_added {next : PackagedTable} {origin : StructOrigin}
    {definition : StructDef}
    (declared : table.declareStruct origin owner definition = some (id, next)) :
    id = table.structs.length ∧
      next = { table with structs := table.structs ++ [⟨definition, origin, owner, "", none⟩] } := by
  unfold declareStruct at declared
  split at declared
  · cases declared
  · split at declared
    · simp only [Option.some.injEq, Prod.mk.injEq] at declared
      exact ⟨declared.1.symm, declared.2.symm⟩
    · cases declared

theorem declareEnum_added {next : PackagedTable} {definition : EnumDef}
    (declared : table.declareEnum owner definition = some (id, next)) :
    id = table.enums.length ∧
      next = { table with enums := table.enums ++ [⟨definition, owner, "", none⟩] } := by
  unfold declareEnum at declared
  split at declared
  · cases declared
  · split at declared
    · simp only [Option.some.injEq, Prod.mk.injEq] at declared
      exact ⟨declared.1.symm, declared.2.symm⟩
    · cases declared

theorem rows_intern {table after : InternTable} {ty : Ty}
    (interned : table.intern ty = some (id, after)) :
    after = table ∨ after.rows = table.rows ++ [ty] := by
  unfold InternTable.intern at interned
  split at interned
  · simp only [Option.some.injEq, Prod.mk.injEq] at interned
    exact Or.inl interned.2.symm
  · split at interned
    · simp only [Option.some.injEq, Prod.mk.injEq] at interned
      exact Or.inr (by rw [← interned.2])
    · cases interned

theorem declareOwned_added {table : DistinctTable} {name : String} {representation : Ty}
    {flat : representation.isDistinct = false} {result : Nat × DistinctTable}
    (declared : table.declareOwned owner name representation flat = some result) :
    result.2.rows = table.rows ++ [⟨⟨name, representation⟩, owner, ""⟩] := by
  unfold DistinctTable.declareOwned at declared
  split at declared
  · cases declared
  · split at declared
    · rw [← Option.some.inj declared]
    · cases declared

theorem Built.grounded (built : Built table) : table.toTypeTable.Grounded := by
  induction built with
  | empty => exact TypeTable.grounded_empty
  | declarePackage package _ ih =>
    unfold PackagedTable.declarePackage
    split
    · exact ih
    · exact ih
  | declareStruct _ declared ih =>
    rcases declareStruct_added declared with ⟨_, rfl⟩
    exact ih.add (TypeTable.adds_struct _ _) (by simp [instanceArguments])
  | instantiateStruct _ declared minted ih =>
    rcases declareStruct_added declared with ⟨rfl, rfl⟩
    unfold recordStructInstantiation
    rw [modify_added]
    exact ih.add (TypeTable.adds_struct _ _) minted
  | declareEnum _ declared ih =>
    rcases declareEnum_added declared with ⟨_, rfl⟩
    exact ih.add (TypeTable.adds_enum _ _) (by simp [instanceArguments])
  | instantiateEnum _ declared minted ih =>
    rcases declareEnum_added declared with ⟨rfl, rfl⟩
    unfold recordEnumInstantiation
    rw [modify_added]
    exact ih.add (TypeTable.adds_enum _ _) minted
  | changeStruct id change _ ih =>
    apply ih.of_eq
    funext ty
    cases ty with
    | struct index =>
      exact rowMentions_changed (fun row => by cases change <;> rfl) index
    | _ => rfl
  | changeEnum id change _ ih =>
    apply ih.of_eq
    funext ty
    cases ty with
    | enum index => exact rowMentions_changed (fun row => by cases change <;> rfl) index
    | _ => rfl
  | setDistinctModule id declaredIn _ ih =>
    apply ih.of_eq
    funext ty
    cases ty with
    | distinct index => exact rowMentions_changed (fun _ => rfl : ∀ row : DistinctRow,
          [({ row with declaredIn := declaredIn } : DistinctRow).definition.representation] =
            [row.definition.representation]) index
    | _ => rfl
  | @declareDistinct table representation owner name _ minted ih =>
    have flat : table.Knows (table.representation representation) := by
      cases representation with
      | distinct id =>
        have known := ih.closed _ minted
        simp only [TypeTable.representation, DistinctTable.representation]
        cases rowAt : table.distincts.rows[id]? with
        | none => rfl
        | some row =>
          apply known
          simp [TypeTable.mentions, TypeTable.rowMentions, rowAt]
      | _ => exact minted
    unfold PackagedTable.declareDistinct TypeTable.declareDistinctOwned
    cases declared : table.distincts.declareOwned owner name
        (table.representation representation) (table.representation_flat representation) with
    | none => exact ih
    | some result =>
      exact ih.add (TypeTable.adds_distinct (declareOwned_added declared)) (by simpa using flat)
  | arrayOf _ minted ih =>
    unfold PackagedTable.arrayOf
    split
    · rename_i interned
      rcases rows_intern interned with rfl | added
      · exact ih
      · exact ih.add (TypeTable.adds_array added) (by simpa using minted)
    · exact ih
  | cellOf _ minted ih =>
    unfold PackagedTable.cellOf
    split
    · rename_i interned
      rcases rows_intern interned with rfl | added
      · exact ih
      · exact ih.add (TypeTable.adds_cell added) (by simpa using minted)
    · exact ih
  | nativeStateOf _ minted ih =>
    unfold PackagedTable.nativeStateOf
    split
    · rename_i interned
      rcases rows_intern interned with rfl | added
      · exact ih
      · exact ih.add (TypeTable.adds_nativeState added) (by simpa using minted)
    · exact ih
  | foreignPtrTo target _ ih =>
    unfold PackagedTable.foreignPtrTo
    split
    · exact ih
    · split
      · exact ih.add (TypeTable.adds_foreignPtr _ _) (by simp)
      · exact ih

end PackagedTable

namespace TypeTable

theorem mentions_erased {table : TypeTable} {ty inner : Ty}
    (innerIn : inner ∈ table.eraseDistinctTypes.mentions ty) :
    ∃ before ∈ table.mentions ty,
      inner = before ∨ inner = eraseType table.distincts.representations before := by
  cases ty with
  | struct id =>
    use inner
    constructor
    · simp only [mentions, rowMentions, eraseDistinctTypes, List.getElem?_map,
        Option.map_map] at innerIn
      exact innerIn
    · exact Or.inl rfl
  | enum id =>
    use inner
    constructor
    · simp only [mentions, rowMentions, eraseDistinctTypes, List.getElem?_map,
        Option.map_map] at innerIn
      exact innerIn
    · exact Or.inl rfl
  | array id =>
    cases rowAt : table.arrays.rows[id]? with
    | none => simp [mentions, rowMentions, eraseDistinctTypes, ArrayTable.visitElementsMut,
        InternTable.visitRows, rowAt] at innerIn
    | some element =>
      use element
      constructor
      · simp [mentions, rowMentions, rowAt]
      · right
        simpa [mentions, rowMentions, eraseDistinctTypes, ArrayTable.visitElementsMut,
          InternTable.visitRows, rowAt] using innerIn
  | cell id =>
    cases rowAt : table.cells.rows[id]? with
    | none => simp [mentions, rowMentions, eraseDistinctTypes, CellTable.visitInnerTypesMut,
        InternTable.visitRows, rowAt] at innerIn
    | some held =>
      use held
      constructor
      · simp [mentions, rowMentions, rowAt]
      · right
        simpa [mentions, rowMentions, eraseDistinctTypes, CellTable.visitInnerTypesMut,
          InternTable.visitRows, rowAt] using innerIn
  | nativeState id =>
    cases rowAt : table.nativeStates.rows[id]? with
    | none => simp [mentions, rowMentions, eraseDistinctTypes,
        NativeStateTable.visitTargetsMut, InternTable.visitRows, rowAt] at innerIn
    | some target =>
      use target
      constructor
      · simp [mentions, rowMentions, rowAt]
      · right
        simpa [mentions, rowMentions, eraseDistinctTypes, NativeStateTable.visitTargetsMut,
          InternTable.visitRows, rowAt] using innerIn
  | distinct id =>
    simp [mentions, rowMentions, eraseDistinctTypes, DistinctTable.empty] at innerIn
  | mainThreadTask result => exact ⟨inner, innerIn, Or.inl rfl⟩
  | _ => exact ⟨inner, innerIn, Or.inl rfl⟩

theorem ends_erased {table : TypeTable} {ty : Ty} (ends : table.Ends ty) :
    table.eraseDistinctTypes.Ends ty ∧
      table.eraseDistinctTypes.Ends (eraseType table.distincts.representations ty) := by
  induction ends with
  | intro outer _ ih =>
    have outerEnds : table.eraseDistinctTypes.Ends outer := by
      apply Ends.of_mentions
      intro inner innerIn
      rcases mentions_erased innerIn with ⟨before, beforeIn, rfl | rfl⟩
      · exact (ih _ beforeIn).1
      · exact (ih before beforeIn).2
    use outerEnds
    cases outer with
    | distinct id =>
      simp only [eraseType, DistinctTable.representations, List.getElem?_map]
      cases rowAt : table.distincts.rows[id]? with
      | none => exact Ends.of_mentions (by simp [mentions, rowMentions])
      | some row => exact (ih _ (by simp [mentions, rowMentions, rowAt])).1
    | _ => exact outerEnds

end TypeTable

theorem PackagedTable.Compiled.ends {table : PackagedTable} (compiled : Compiled table) (ty : Ty) :
    table.toTypeTable.Ends ty := by
  cases compiled with
  | analyzed built => exact built.grounded.ends_all ty
  | lowered built => exact (TypeTable.ends_erased (built.grounded.ends_all ty)).1

/-- Whatever was declared, no chain of types, each of which mentions the next one outside of
fields, payloads and what is pointed at, goes on for ever. -/
theorem PackagedTable.Compiled.no_endless_mentions {table : PackagedTable}
    (compiled : Compiled table) :
    ¬ ∃ chain : Nat → Ty, ∀ step, chain (step + 1) ∈ table.toTypeTable.mentions (chain step) := by
  rintro ⟨chain, mentioned⟩
  exact not_acc_iff_exists_descending_chain.mpr ⟨chain, rfl, mentioned⟩ (compiled.ends (chain 0))

/-- Arrays of boxes of arrays of truth values. -/
theorem PackagedTable.array_of_boxes_ends :
    ∃ boxes, (PackagedTable.empty.arrayOf .bool).2.declareStruct .declared none
        ⟨"Box", [], false, none⟩ = some (0, boxes) ∧
      ¬ ∃ chain : Nat → Ty, ∀ step, chain (step + 1) ∈
        ((boxes.recordStructInstantiation 0 ⟨"Box", [.array 0]⟩).arrayOf
          (.struct 0)).2.toTypeTable.mentions (chain step) := by
  refine ⟨_, rfl, ?_⟩
  have arrays : Built (PackagedTable.empty.arrayOf .bool).2 := .arrayOf .empty rfl
  have boxes := @Built.instantiateStruct _ _ none ⟨"Box", [], false, none⟩ 0 ⟨"Box", [.array 0]⟩
    arrays rfl (by simp [TypeTable.Knows, TypeTable.HasRow]; rfl)
  exact (Compiled.analyzed (@Built.arrayOf _ (.struct 0) boxes rfl)).no_endless_mentions

end KiraVm.KiraIr
