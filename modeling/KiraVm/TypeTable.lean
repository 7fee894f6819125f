import KiraVm.IntegerSpellings

/-!
# The types of a program and its table of type shapes

A type is one word: the shapes of structs, arrays, enums, distinct types, cells,
foreign pointers and native state are rows of the program's type table, and a
type names the row.
-/

namespace KiraVm.KiraIr

inductive FloatSpelling
  | plain | f32
  deriving DecidableEq, Repr

/-- What joining a task yields. -/
inductive TaskResult
  | int (spelling : IntWidth)
  | float (spelling : FloatSpelling)
  | bool | string | number
  | struct (id : Nat)
  | array (id : Nat)
  | enum (id : Nat)
  | distinct (id : Nat)
  | rawPtr
  | foreignPtr (id : Nat)
  | any
  deriving DecidableEq, Repr

inductive Ty
  | int (spelling : IntWidth)
  | float (spelling : FloatSpelling)
  | bool | string | number | void | error
  | struct (id : Nat)
  | array (id : Nat)
  | enum (id : Nat)
  | distinct (id : Nat)
  | cell (id : Nat)
  | rawPtr
  | foreignPtr (id : Nat)
  | nativeState (id : Nat)
  | task (result : TaskResult)
  | mainThreadTask (result : TaskResult)
  | any | cString | runtimeType | cBlock
  deriving DecidableEq, Repr

def Ty.isDistinct : Ty → Bool
  | .distinct _ => true
  | _ => false

variable {ty : Ty} {entry : Ty × Nat}

theorem Ty.isDistinct_eq_true : ty.isDistinct = true ↔ ∃ id, ty = .distinct id := by
  cases ty with
  | distinct id => simp [isDistinct]
  | _ => simp [isDistinct]

/-! ## The rows of the table -/

structure FieldDef where
  name : String
  ty : Ty
  isMutable : Bool
  deriving DecidableEq, Repr

structure StructDef where
  name : String
  fields : List FieldDef
  cLayout : Bool
  dropGlue : Option Nat
  deriving DecidableEq, Repr

inductive StructOrigin
  | declared | functionType
  deriving DecidableEq, Repr

/-- What an instance of a generic declaration was made from. -/
structure Instantiation where
  template : String
  arguments : List Ty
  deriving DecidableEq, Repr

/-- A struct with what the table keeps beside its definition. -/
structure StructRow where
  definition : StructDef
  origin : StructOrigin
  owner : Option String
  declaredIn : String
  instantiation : Option Instantiation
  deriving DecidableEq, Repr

structure VariantDef where
  name : String
  payload : Option Ty
  deriving DecidableEq, Repr

structure EnumDef where
  name : String
  variants : List VariantDef
  deriving DecidableEq, Repr

structure EnumRow where
  definition : EnumDef
  owner : Option String
  declaredIn : String
  instantiation : Option Instantiation
  deriving DecidableEq, Repr

structure DistinctDef where
  name : String
  representation : Ty
  deriving DecidableEq, Repr

structure DistinctRow where
  definition : DistinctDef
  owner : Option String
  declaredIn : String
  deriving DecidableEq, Repr

def ownedKey (owner : Option String) (name : String) : String :=
  match owner with
  | some owner => owner ++ "::" ++ name
  | none => name

/-! ## Interned rows

Arrays, cells and native state are each a list of types with an index from a
type to the first row that holds it. -/

abbrev InternIndex := List (Ty × Nat)

/-- Keep the first row of each type. -/
def InternIndex.orInsert (index : InternIndex) (ty : Ty) (row : Nat) : InternIndex :=
  if (index.lookup ty).isSome then index else index ++ [(ty, row)]

def reindexFrom (index : InternIndex) (row : Nat) : List Ty → InternIndex
  | [] => index
  | ty :: rest => reindexFrom (index.orInsert ty row) (row + 1) rest

def reindex (rows : List Ty) : InternIndex :=
  reindexFrom [] 0 rows

theorem InternIndex.mem_orInsert {index : InternIndex} {row : Nat}
    (found : entry ∈ index.orInsert ty row) : entry ∈ index ∨ entry = (ty, row) := by
  unfold orInsert at found
  split at found
  · exact Or.inl found
  · simpa using found

theorem mem_reindexFrom {rows : List Ty} {index : InternIndex} {row : Nat}
    (found : entry ∈ reindexFrom index row rows) :
    entry ∈ index ∨ row ≤ entry.2 ∧ rows[entry.2 - row]? = some entry.1 := by
  induction rows generalizing index row with
  | nil => exact Or.inl found
  | cons ty rest ih =>
    rcases ih found with earlier | ⟨reached, held⟩
    · rcases InternIndex.mem_orInsert earlier with earlier | same
      · exact Or.inl earlier
      · exact Or.inr (by simp [same])
    · have later : entry.2 - row = (entry.2 - (row + 1)) + 1 := by omega
      exact Or.inr ⟨by omega, by rw [later]; simpa using held⟩

theorem mem_reindex {rows : List Ty} (found : entry ∈ reindex rows) :
    rows[entry.2]? = some entry.1 := by
  rcases mem_reindexFrom found with earlier | ⟨_, held⟩
  · exact absurd earlier List.not_mem_nil
  · simpa using held

/-- A list of types with its index, which names only rows it agrees with. -/
structure InternTable where
  rows : List Ty
  index : InternIndex
  agrees : ∀ entry ∈ index, rows[entry.2]? = some entry.1

def InternTable.empty : InternTable :=
  ⟨[], [], by simp⟩

/-- The row of a type, added at its first mention. -/
def InternTable.intern (table : InternTable) (ty : Ty) : Option (Nat × InternTable) :=
  match table.index.lookup ty with
  | some id => some (id, table)
  | none =>
    if table.rows.length < 2 ^ 32 then
      some (table.rows.length,
        { rows := table.rows ++ [ty]
          index := table.index ++ [(ty, table.rows.length)]
          agrees := by
            intro entry found
            rcases List.mem_append.mp found with earlier | new
            · have held := table.agrees entry earlier
              have inside := (List.getElem?_eq_some_iff.mp held).1
              rw [List.getElem?_append_left inside]
              exact held
            · simp only [List.mem_singleton] at new
              simp [new] })
    else
      none

/-- Rewrite every row and rebuild the index. -/
def InternTable.visitRows (visit : Ty → Ty) (table : InternTable) : InternTable where
  rows := table.rows.map visit
  index := reindex (table.rows.map visit)
  agrees := fun _ found => mem_reindex found

/-- The types of the rows and the keys of the index. -/
def InternTable.types (table : InternTable) : List Ty :=
  table.rows ++ table.index.map (·.1)

/-- The index holds no type that is not a row. -/
theorem InternTable.mem_types {table : InternTable} : ty ∈ table.types ↔ ty ∈ table.rows := by
  constructor
  · intro found
    rcases List.mem_append.mp found with row | key
    · exact row
    · rcases List.mem_map.mp key with ⟨entry, indexed, same⟩
      rw [← same]
      exact List.mem_of_getElem? (table.agrees entry indexed)
  · intro row
    exact List.mem_append_left _ row

theorem InternTable.mem_types_visitRows {visit : Ty → Ty} {table : InternTable} :
    ty ∈ (table.visitRows visit).types ↔ ∃ original ∈ table.rows, visit original = ty := by
  rw [mem_types]
  exact List.mem_map

abbrev ArrayTable := InternTable
abbrev CellTable := InternTable
abbrev NativeStateTable := InternTable

def ArrayTable.visitElementsMut (visit : Ty → Ty) (table : ArrayTable) : ArrayTable :=
  table.visitRows visit

def CellTable.visitInnerTypesMut (visit : Ty → Ty) (table : CellTable) : CellTable :=
  table.visitRows visit

def NativeStateTable.visitTargetsMut (visit : Ty → Ty) (table : NativeStateTable) :
    NativeStateTable :=
  table.visitRows visit

/-! ## Distinct types

A declaration over another distinct type is flattened, so no row represents a
distinct type by a distinct type. -/

structure DistinctTable where
  rows : List DistinctRow
  flattened : ∀ row ∈ rows, row.definition.representation.isDistinct = false

def DistinctTable.empty : DistinctTable :=
  ⟨[], by simp⟩

def DistinctTable.representations (table : DistinctTable) : List Ty :=
  table.rows.map (·.definition.representation)

def DistinctTable.representation (table : DistinctTable) (id : Nat) : Option Ty :=
  (table.rows[id]?).map (·.definition.representation)

def DistinctTable.declareOwned (table : DistinctTable) (owner : Option String) (name : String)
    (representation : Ty) (flat : representation.isDistinct = false) :
    Option (Nat × DistinctTable) :=
  if table.rows.any (fun row => ownedKey row.owner row.definition.name = ownedKey owner name) then
    none
  else if table.rows.length < 2 ^ 32 then
    some (table.rows.length,
      { rows := table.rows ++ [⟨⟨name, representation⟩, owner, ""⟩]
        flattened := by
          intro row found
          rcases List.mem_append.mp found with earlier | new
          · exact table.flattened row earlier
          · simp only [List.mem_singleton] at new
            rw [new]
            exact flat })
  else
    none

structure TypeTable where
  structs : List StructRow
  arrays : ArrayTable
  enums : List EnumRow
  distincts : DistinctTable
  nativeStates : NativeStateTable
  cells : CellTable
  foreignPtrs : List Nat

def TypeTable.empty : TypeTable :=
  ⟨[], .empty, [], .empty, .empty, .empty, []⟩

/-- What a type is at run time. -/
def TypeTable.representation (table : TypeTable) : Ty → Ty
  | .distinct id => (table.distincts.representation id).getD .error
  | ty => ty

theorem TypeTable.representation_flat (table : TypeTable) (ty : Ty) :
    (table.representation ty).isDistinct = false := by
  cases ty with
  | distinct id =>
    simp only [representation, DistinctTable.representation]
    cases found : table.distincts.rows[id]? with
    | none => rfl
    | some row => exact table.distincts.flattened row (List.mem_of_getElem? found)
  | _ => rfl

def TypeTable.declareDistinctOwned (table : TypeTable) (owner : Option String) (name : String)
    (representation : Ty) : Ty × TypeTable :=
  match table.distincts.declareOwned owner name (table.representation representation)
      (table.representation_flat representation) with
  | some (id, distincts) => (.distinct id, { table with distincts := distincts })
  | none => (.error, table)

end KiraVm.KiraIr
