import KiraVm.InstructionCodec

/-!
# Compiled modules

The data of a compiled module: functions with their code and release plans,
the export surface, and the foreign tables.  A foreign signature carries the
shape its constructor keeps for retained flags, and an aggregate table carries
the order its only insertion enforces.
-/

namespace KiraVm

/-! ## Foreign tables -/

/-- One position of a foreign signature. -/
inductive ForeignTypeSpec
  | scalar (ty : ForeignType)
  | aggregate (id : UInt32)
  deriving DecidableEq, Repr

namespace ForeignTypeSpec

def aggregateTag : UInt8 := 14

def tag : ForeignTypeSpec → UInt8
  | .scalar ty => ty.tag
  | .aggregate _ => aggregateTag

def aggregate? : ForeignTypeSpec → Option UInt32
  | .scalar _ => none
  | .aggregate id => some id

end ForeignTypeSpec

/-- A foreign signature.  The retained flags are absent, or one for each
parameter with at least one set. -/
structure ForeignSignature where
  parameters : List ForeignTypeSpec
  result : ForeignTypeSpec
  retained : List Bool
  retained_shape : retained = [] ∨ retained.length = parameters.length ∧ true ∈ retained
  deriving DecidableEq, Repr

namespace ForeignSignature

def new (parameters : List ForeignTypeSpec) (result : ForeignTypeSpec) : ForeignSignature :=
  ⟨parameters, result, [], .inl rfl⟩

/-- Replace the retained flags, when they fit the parameters and keep any. -/
def withRetained (signature : ForeignSignature) (retained : List Bool) : ForeignSignature :=
  if kept : retained.length = signature.parameters.length ∧ true ∈ retained then
    { signature with retained := retained, retained_shape := .inr kept }
  else
    signature

def anyRetained (signature : ForeignSignature) : Bool :=
  !signature.retained.isEmpty

/-- The positions of the parameters the callee keeps, in order. -/
def retainedPositions (signature : ForeignSignature) : List Nat :=
  (signature.retained.zipIdx.filter Prod.fst).map Prod.snd

/-- Every position's type, the result last. -/
def specs (signature : ForeignSignature) : List ForeignTypeSpec :=
  signature.parameters ++ [signature.result]

end ForeignSignature

structure ForeignImport where
  library : String
  symbol : String
  abi : ForeignAbi
  signature : ForeignSignature
  deriving DecidableEq, Repr

def ForeignImport.retainParameters (imported : ForeignImport) (retained : List Bool) :
    ForeignImport :=
  { imported with signature := imported.signature.withRetained retained }

structure ForeignCallback where
  function : UInt32
  signature : ForeignSignature
  deriving DecidableEq, Repr

inductive ForeignArrayElement
  | scalar (ty : ForeignType)
  | aggregate (id : UInt32)
  deriving DecidableEq, Repr

inductive ForeignMember
  | scalar (ty : ForeignType)
  | aggregate (id : UInt32)
  | array (element : ForeignArrayElement) (count : UInt32)
  deriving DecidableEq, Repr

def ForeignMember.referenced : ForeignMember → Option UInt32
  | .scalar _ => none
  | .aggregate id => some id
  | .array (.scalar _) _ => none
  | .array (.aggregate id) _ => some id

structure ForeignAggregate where
  members : List ForeignMember
  deriving DecidableEq, Repr

inductive ForeignAggregateError
  | forwardReference (container member : UInt32)
  | tooLarge (index : UInt32)
  | unknownAggregate (index : UInt32)
  deriving DecidableEq, Repr

/-- The C-layout aggregates of a module.  A member refers only to a row
before its own. -/
structure ForeignAggregates where
  entries : List ForeignAggregate
  ordered : ∀ (index : Nat) (row : ForeignAggregate), entries[index]? = some row →
    ∀ member ∈ row.members, ∀ referenced ∈ member.referenced,
      referenced < UInt32.ofNat index

namespace ForeignAggregates

theorem ext_entries {first second : ForeignAggregates}
    (same : first.entries = second.entries) : first = second := by
  cases first
  cases second
  simp_all

instance : DecidableEq ForeignAggregates :=
  fun first second =>
    decidable_of_iff (first.entries = second.entries)
      ⟨ext_entries, fun same => congrArg entries same⟩

def empty : ForeignAggregates :=
  ⟨[], by simp⟩

def get (aggregates : ForeignAggregates) (id : UInt32) : Option ForeignAggregate :=
  aggregates.entries[id.toNat]?

/-- The first member that does not refer to a lower row. -/
def forwardMember (index : UInt32) (row : ForeignAggregate) : Option UInt32 :=
  row.members.findSome? fun member =>
    member.referenced.filter fun referenced => decide (index ≤ referenced)

theorem forwardMember_eq_none_iff {index : UInt32} {row : ForeignAggregate} :
    forwardMember index row = none ↔
      ∀ member ∈ row.members, ∀ referenced ∈ member.referenced, referenced < index := by
  simp [forwardMember, List.findSome?_eq_none_iff, Option.filter_eq_none_iff]

/-- Append a row, refusing one that refers to itself or to a later row. -/
def push (aggregates : ForeignAggregates) (row : ForeignAggregate) :
    Except ForeignAggregateError ForeignAggregates :=
  match forward : forwardMember (UInt32.ofNat aggregates.entries.length) row with
  | some member => .error (.forwardReference (UInt32.ofNat aggregates.entries.length) member)
  | none => .ok
      { entries := aggregates.entries ++ [row]
        ordered := by
          intro at_ found foundAt
          by_cases inside : at_ < aggregates.entries.length
          · rw [List.getElem?_append_left inside] at foundAt
            exact aggregates.ordered at_ found foundAt
          · rw [List.getElem?_append_right (by omega)] at foundAt
            obtain ⟨bound, rfl⟩ := List.getElem?_eq_some_iff.mp foundAt
            have last : at_ = aggregates.entries.length := by
              simp only [List.length_singleton] at bound
              omega
            subst last
            simpa using forwardMember_eq_none_iff.mp forward }

theorem push_ok_iff {aggregates pushed : ForeignAggregates} {row : ForeignAggregate} :
    aggregates.push row = .ok pushed ↔
      pushed.entries = aggregates.entries ++ [row] := by
  unfold push
  split
  case h_1 member forward =>
    simp only [reduceCtorEq, false_iff]
    intro entriesEq
    have rowAt : pushed.entries[aggregates.entries.length]? = some row := by simp [entriesEq]
    have allBelow := forwardMember_eq_none_iff.mpr (pushed.ordered _ _ rowAt)
    rw [allBelow] at forward
    exact Option.some_ne_none _ forward.symm
  case h_2 forward =>
    simp only [Except.ok.injEq]
    constructor
    · rintro rfl
      rfl
    · intro entriesEq
      exact ext_entries entriesEq.symm

end ForeignAggregates

/-! ## Exports -/

inductive ExportType
  | void | int | float | bool | string
  | handle («class» : UInt32)
  deriving DecidableEq, Repr

namespace ExportType

def tag : ExportType → UInt8
  | .void => 0
  | .int => 1
  | .float => 2
  | .bool => 3
  | .string => 4
  | .handle _ => 8

def classIndex : ExportType → UInt32
  | .handle index => index
  | _ => 0

def fromWire (tag : UInt8) (index : UInt32) : Option ExportType :=
  match tag with
  | 0 => if index = 0 then some .void else none
  | 1 => if index = 0 then some .int else none
  | 2 => if index = 0 then some .float else none
  | 3 => if index = 0 then some .bool else none
  | 4 => if index = 0 then some .string else none
  | 8 => some (.handle index)
  | _ => none

theorem fromWire_eq_some_iff {tag : UInt8} {index : UInt32} {ty : ExportType} :
    fromWire tag index = some ty ↔ ty.tag = tag ∧ ty.classIndex = index := by
  constructor
  · unfold fromWire
    split <;> simp only [Option.ite_none_right_eq_some, Option.some.injEq, reduceCtorEq,
      false_implies]
    case h_6 => rintro rfl; exact ⟨rfl, rfl⟩
    all_goals
      rintro ⟨rfl, rfl⟩
      exact ⟨rfl, rfl⟩
  · rintro ⟨rfl, rfl⟩
    cases ty <;> rfl

end ExportType

structure ModuleExport where
  name : String
  kiraName : String
  function : UInt32
  params : List ExportType
  result : ExportType
  deriving DecidableEq, Repr

structure ExportTable where
  classes : List String
  functions : List ModuleExport
  deriving DecidableEq, Repr

namespace ExportTable

def default : ExportTable :=
  ⟨[], []⟩

def isEmpty (table : ExportTable) : Bool :=
  table.classes.isEmpty && table.functions.isEmpty

end ExportTable

/-! ## Functions and modules -/

/-- What a returning frame releases: every local slot, or a plan.  No plan and
an empty plan mean opposite things. -/
inductive FrameRelease
  | everyLocal
  | planned (slots : List UInt64)
  deriving DecidableEq, Repr

structure FuncProto where
  name : String
  paramCount : UInt64
  localCount : UInt64
  execution : Execution
  code : List Instruction
  releases : FrameRelease
  deriving DecidableEq, Repr

def FuncProto.isNative (function : FuncProto) : Bool :=
  function.execution == .native

/-- One runtime type descriptor. -/
structure TypeDescriptorRow where
  name : String
  package : String
  kind : String
  arguments : List UInt64
  conformances : List String
  deriving DecidableEq, Repr

/-- A compiled program: functions, a string pool, and the tables its
instructions index. -/
structure Module where
  functions : List FuncProto
  main : Option UInt32
  strings : List String
  exports : ExportTable
  foreignImports : List ForeignImport
  foreignAggregates : ForeignAggregates
  foreignCallbacks : List ForeignCallback
  constants : List UInt64
  types : List TypeDescriptorRow
  deriving DecidableEq

end KiraVm
