import KiraVm.IrProgram

/-!
# Erasing distinct types

The last pass over a lowered program replaces every distinct type by its
representation.  It goes through the expressions of the arena, the functions,
the constants, the exports and the rows of the type table.

The pass does not go everywhere.  Four kinds of expression carry a type that is
not visited, and the arguments of a generic instance are not visited in the
type table.  What is left over is exactly what those places hold.
-/

namespace KiraVm.KiraIr

def eraseType (representations : List Ty) : Ty → Ty
  | .distinct id => (representations[id]?).getD .error
  | ty => ty

mutual

def visitStmtTypes (erase : Ty → Ty) : IrStmt → IrStmt
  | .ifThenElse cond thenBody elseBody =>
    .ifThenElse cond (visitStmts erase thenBody) (visitStmts erase elseBody)
  | .while cond body => .while cond (visitStmts erase body)
  | .attempt steps trailing => .attempt (visitSteps erase steps) (visitStmts erase trailing)
  | .letSlot slot init => .letSlot slot init
  | .assign place value => .assign place value
  | .cellSet slot value => .cellSet slot value
  | .return value => .return value
  | .eval expr => .eval expr
  | .break => .break
  | .continue => .continue
  | .releaseLocals slots => .releaseLocals slots

def visitStmts (erase : Ty → Ty) : List IrStmt → List IrStmt
  | [] => []
  | stmt :: rest => visitStmtTypes erase stmt :: visitStmts erase rest

def visitSteps (erase : Ty → Ty) : List IrAttemptStep → List IrAttemptStep
  | [] => []
  | .mk setup errorCondition handler success :: rest =>
    .mk (visitStmts erase setup) errorCondition (visitStmts erase handler)
      (visitStmts erase success) :: visitSteps erase rest

end

def visitExprTypes (erase : Ty → Ty) : IrExpr → IrExpr
  | .constantGet constant ty => .constantGet constant (erase ty)
  | .select cond thenSetup then_ thenCleanup otherwiseSetup otherwise_ otherwiseCleanup ty =>
    .select cond thenSetup then_ thenCleanup otherwiseSetup otherwise_ otherwiseCleanup (erase ty)
  | .call callee args result writebacks => .call callee args (erase result) writebacks
  | .enumPayload value ty => .enumPayload value (erase ty)
  | .typeCast value target ty => .typeCast value target (erase ty)
  | .cellNew value ty => .cellNew value (erase ty)
  | .cellNull ty => .cellNull (erase ty)
  | .cellGet slot ty => .cellGet slot (erase ty)
  | .field base index ty => .field base index (erase ty)
  | .foreignMemberAddress base aggregate member ty =>
    .foreignMemberAddress base aggregate member (erase ty)
  | .foreignElement base aggregate index ty => .foreignElement base aggregate index (erase ty)
  | .foreignField base aggregate member ty => .foreignField base aggregate member (erase ty)
  | .arrayNew ty elements => .arrayNew (erase ty) elements
  | .index base index ty => .index base index (erase ty)
  | .stringOperation op text arguments ty => .stringOperation op text arguments (erase ty)
  | .numberOperation op operands ty => .numberOperation op operands (erase ty)
  | .fileSystem op args ty => .fileSystem op args (erase ty)
  | .compiler op args ty => .compiler op args (erase ty)
  | .env op args ty => .env op args (erase ty)
  | .nativeState value typeId dropGlue ty => .nativeState value typeId dropGlue (erase ty)
  | .nativeRecover raw typeId ty => .nativeRecover raw typeId (erase ty)
  | .nativeStateTake raw typeId ty => .nativeStateTake raw typeId (erase ty)
  | .convert operand kind ty => .convert operand kind (erase ty)
  | .mainThreadCall operation function args ty =>
    .mainThreadCall operation function args (erase ty)
  | .mainThreadJoin handle ty => .mainThreadJoin handle (erase ty)
  | .intoAny value source tag => .intoAny value (erase source) tag
  | .typeField descriptor field ty => .typeField descriptor field (erase ty)
  | .typeCastResult value target result failure payload =>
    .typeCastResult value target result failure (erase payload)
  | .int value => .int value
  | .float bits => .float bits
  | .bool value => .bool value
  | .str text => .str text
  | .rawPtrNull => .rawPtrNull
  | .foreignCallbackPtr callback => .foreignCallbackPtr callback
  | .localGet slot => .localGet slot
  | .unary op operand ty => .unary op operand ty
  | .binary op lhs rhs ty => .binary op lhs rhs ty
  | .structNew structId fields order => .structNew structId fields order
  | .enumNew enumId tag payload => .enumNew enumId tag payload
  | .enumTag value => .enumTag value
  | .typeTest value target => .typeTest value target
  | .typeConst value id => .typeConst value id
  | .typeOf value => .typeOf value
  | .arrayLen array => .arrayLen array
  | .stringLen text => .stringLen text
  | .stringCharAt text index => .stringCharAt text index
  | .stringSubstring text start stop => .stringSubstring text start stop
  | .stringIndexOf text needle => .stringIndexOf text needle
  | .arrayElements value element => .arrayElements value element
  | .scalarText value => .scalarText value
  | .mathOperation op operands => .mathOperation op operands
  | .stringOf value => .stringOf value
  | .cLayoutAddress value aggregate => .cLayoutAddress value aggregate
  | .cStringNew text => .cStringNew text
  | .arrayAppend place value => .arrayAppend place value
  -- The operators above and the two rows below keep the type they carry.
  | .nativeUserData state borrowed ty => .nativeUserData state borrowed ty
  | .nativeStateRelease token target => .nativeStateRelease token target
  | .nativeStateRetain token => .nativeStateRetain token
  | .taskOp prim first second third => .taskOp prim first second third
  | .channelOp prim first second third => .channelOp prim first second third

def StructRow.visitFieldTypes (visit : Ty → Ty) (row : StructRow) : StructRow :=
  { row with
    definition :=
      { row.definition with
        fields := row.definition.fields.map fun field => { field with ty := visit field.ty } } }

def EnumRow.visitPayloadTypes (visit : Ty → Ty) (row : EnumRow) : EnumRow :=
  { row with
    definition :=
      { row.definition with
        variants := row.definition.variants.map fun variant =>
          { variant with payload := variant.payload.map visit } } }

/-- Rewrite the rows of the table and drop the distinct ones. -/
def TypeTable.eraseDistinctTypes (table : TypeTable) : TypeTable :=
  let erase := eraseType table.distincts.representations
  { table with
    structs := table.structs.map (·.visitFieldTypes erase)
    arrays := ArrayTable.visitElementsMut erase table.arrays
    enums := table.enums.map (·.visitPayloadTypes erase)
    cells := CellTable.visitInnerTypesMut erase table.cells
    nativeStates := NativeStateTable.visitTargetsMut erase table.nativeStates
    distincts := .empty }

def IrFunction.visitTypes (erase : Ty → Ty) (function : IrFunction) : IrFunction :=
  { function with
    slotTypes := function.slotTypes.map erase
    returnType := erase function.returnType
    body := visitStmts erase function.body }

def eraseDistinctTypes (program : IrProgram) : IrProgram :=
  if program.types.distincts.rows = [] then
    program
  else
    let erase := eraseType program.types.distincts.representations
    { program with
      exprs := program.exprs.map (visitExprTypes erase)
      functions := program.functions.map (·.visitTypes erase)
      constants := program.constants.map fun constant => { constant with ty := erase constant.ty }
      exports := program.exports.map fun exported =>
        { exported with params := exported.params.map erase, result := erase exported.result }
      types := program.types.eraseDistinctTypes }

/-! ## Statements carry no type -/

mutual

theorem visitStmtTypes_eq (erase : Ty → Ty) : (stmt : IrStmt) → visitStmtTypes erase stmt = stmt
  | .ifThenElse _ thenBody elseBody => by
    rw [visitStmtTypes, visitStmts_eq erase thenBody, visitStmts_eq erase elseBody]
  | .while _ body => by rw [visitStmtTypes, visitStmts_eq erase body]
  | .attempt steps trailing => by
    rw [visitStmtTypes, visitSteps_eq erase steps, visitStmts_eq erase trailing]
  | .letSlot _ _ => by rw [visitStmtTypes]
  | .assign _ _ => by rw [visitStmtTypes]
  | .cellSet _ _ => by rw [visitStmtTypes]
  | .return _ => by rw [visitStmtTypes]
  | .eval _ => by rw [visitStmtTypes]
  | .break => by rw [visitStmtTypes]
  | .continue => by rw [visitStmtTypes]
  | .releaseLocals _ => by rw [visitStmtTypes]

theorem visitStmts_eq (erase : Ty → Ty) : (stmts : List IrStmt) → visitStmts erase stmts = stmts
  | [] => by rw [visitStmts]
  | stmt :: rest => by rw [visitStmts, visitStmtTypes_eq erase stmt, visitStmts_eq erase rest]

theorem visitSteps_eq (erase : Ty → Ty) :
    (steps : List IrAttemptStep) → visitSteps erase steps = steps
  | [] => by rw [visitSteps]
  | .mk setup _ handler success :: rest => by
    rw [visitSteps, visitStmts_eq erase setup, visitStmts_eq erase handler,
      visitStmts_eq erase success, visitSteps_eq erase rest]

end

/-! ## What a rewrite leaves in one expression -/

/-- The types of an expression that the pass does not visit. -/
def IrExpr.unvisited : IrExpr → List Ty
  | .unary _ _ ty => [ty]
  | .binary _ _ _ ty => [ty]
  | .nativeUserData _ _ ty => [ty]
  | .nativeStateRelease _ target => target.toList
  | _ => []

/-- A type that is carried after the rewrite of an expression is a rewritten
type, or one of those that are not visited. -/
theorem mem_types_visitExprTypes {erase : Ty → Ty} {expr : IrExpr} {ty : Ty}
    (carried : ty ∈ (visitExprTypes erase expr).types) :
    (∃ original ∈ expr.types, ty = erase original) ∨ ty ∈ expr.unvisited := by
  cases expr with
  | unary op operand carriedTy => exact Or.inr carried
  | binary op lhs rhs carriedTy => exact Or.inr carried
  | nativeUserData state borrowed carriedTy => exact Or.inr carried
  | nativeStateRelease token target => exact Or.inr carried
  | _ => simp_all [visitExprTypes, IrExpr.types]

theorem unvisited_visitExprTypes (erase : Ty → Ty) (expr : IrExpr) :
    (visitExprTypes erase expr).unvisited = expr.unvisited := by
  cases expr <;> rfl

theorem mem_types_of_unvisited {expr : IrExpr} {ty : Ty} (unvisited : ty ∈ expr.unvisited) :
    ty ∈ expr.types := by
  cases expr with
  | unary op operand carriedTy => exact unvisited
  | binary op lhs rhs carriedTy => exact unvisited
  | nativeUserData state borrowed carriedTy => exact unvisited
  | nativeStateRelease token target => exact unvisited
  | _ => exact absurd unvisited List.not_mem_nil

/-! ## What the pass leaves in a program -/

def IrProgram.unvisitedTypes (program : IrProgram) : List Ty :=
  program.exprs.flatMap (·.unvisited) ++ program.types.instantiationArguments

def Ty.namesRowBelow (count : Nat) : Ty → Bool
  | .distinct id => id < count
  | _ => true

/-- Every distinct type names a row of the program's own table, which alone
makes the ids. -/
def IrProgram.NamesItsRows (program : IrProgram) : Prop :=
  ∀ ty ∈ program.carriedTypes, ty.namesRowBelow program.types.distincts.rows.length = true

instance (program : IrProgram) : Decidable program.NamesItsRows :=
  inferInstanceAs
    (Decidable
      (∀ ty ∈ program.carriedTypes, ty.namesRowBelow program.types.distincts.rows.length = true))

structure IrProgram.DistinctFree (program : IrProgram) : Prop where
  carried : ∀ ty ∈ program.carriedTypes, ty.isDistinct = false
  rows : program.types.distincts.rows = []

variable {program : IrProgram} {ty : Ty}

theorem eraseType_flat (table : DistinctTable) (ty : Ty) :
    (eraseType table.representations ty).isDistinct = false := by
  cases ty with
  | distinct id =>
    simp only [eraseType, DistinctTable.representations, List.getElem?_map]
    cases found : table.rows[id]? with
    | none => rfl
    | some row => exact table.flattened row (List.mem_of_getElem? found)
  | _ => rfl

theorem StructRow.fieldTypes_visit (visit : Ty → Ty) (row : StructRow) :
    (row.visitFieldTypes visit).fieldTypes = row.fieldTypes.map visit := by
  simp [visitFieldTypes, fieldTypes]

theorem EnumRow.payloadTypes_visit (visit : Ty → Ty) (row : EnumRow) :
    (row.visitPayloadTypes visit).payloadTypes = row.payloadTypes.map visit := by
  simp only [visitPayloadTypes, payloadTypes, List.filterMap_map, List.map_filterMap]
  rfl

/-- The shapes of the rows are all rewritten. -/
theorem TypeTable.mem_shapeTypes_erase {table : TypeTable}
    (carried : ty ∈ table.eraseDistinctTypes.shapeTypes) :
    ∃ original, ty = eraseType table.distincts.representations original := by
  simp only [shapeTypes, eraseDistinctTypes, List.mem_append, List.mem_flatMap, List.mem_map,
    ArrayTable.visitElementsMut, CellTable.visitInnerTypesMut, NativeStateTable.visitTargetsMut,
    InternTable.mem_types_visitRows] at carried
  rcases carried with (((structs | arrays) | enums) | cells) | states
  · rcases structs with ⟨_, ⟨row, _, rfl⟩, held⟩
    rw [StructRow.fieldTypes_visit] at held
    rcases List.mem_map.mp held with ⟨original, _, same⟩
    exact ⟨original, same.symm⟩
  · rcases arrays with ⟨original, _, same⟩
    exact ⟨original, same.symm⟩
  · rcases enums with ⟨_, ⟨row, _, rfl⟩, held⟩
    rw [EnumRow.payloadTypes_visit] at held
    rcases List.mem_map.mp held with ⟨original, _, same⟩
    exact ⟨original, same.symm⟩
  · rcases cells with ⟨original, _, same⟩
    exact ⟨original, same.symm⟩
  · rcases states with ⟨original, _, same⟩
    exact ⟨original, same.symm⟩

/-- The arguments of generic instances are not rewritten. -/
theorem TypeTable.instantiationArguments_erase (table : TypeTable) :
    table.eraseDistinctTypes.instantiationArguments = table.instantiationArguments := by
  simp only [instantiationArguments, eraseDistinctTypes, List.flatMap_map]
  rfl

theorem unvisitedTypes_carried (unvisited : ty ∈ program.unvisitedTypes) :
    ty ∈ program.carriedTypes := by
  simp only [IrProgram.carriedTypes, TypeTable.types, List.mem_append]
  rcases List.mem_append.mp unvisited with exprs | argument
  · rcases List.mem_flatMap.mp exprs with ⟨expr, member, held⟩
    have carried : ty ∈ program.exprs.flatMap (·.types) :=
      List.mem_flatMap.mpr ⟨expr, member, mem_types_of_unvisited held⟩
    exact Or.inl (Or.inl (Or.inl (Or.inl carried)))
  · exact Or.inr (Or.inr argument)

/-- The pass keeps every type that it does not visit. -/
theorem unvisitedTypes_erase (program : IrProgram) :
    (eraseDistinctTypes program).unvisitedTypes = program.unvisitedTypes := by
  unfold eraseDistinctTypes
  split
  · rfl
  · simp only [IrProgram.unvisitedTypes, List.flatMap_map, unvisited_visitExprTypes,
      TypeTable.instantiationArguments_erase]

theorem mem_carriedTypes_erase (declared : program.types.distincts.rows ≠ [])
    (carried : ty ∈ (eraseDistinctTypes program).carriedTypes) :
    (∃ original, ty = eraseType program.types.distincts.representations original) ∨
      ty ∈ program.unvisitedTypes := by
  unfold eraseDistinctTypes at carried
  rw [if_neg declared] at carried
  simp only [IrProgram.carriedTypes, TypeTable.types, List.mem_append, List.mem_flatMap,
    List.mem_map] at carried
  rcases carried with (((exprs | functions) | constants) | exports) | shapes | arguments
  · rcases exprs with ⟨_, ⟨expr, member, rfl⟩, held⟩
    rcases mem_types_visitExprTypes held with ⟨original, _, same⟩ | unvisited
    · exact Or.inl ⟨original, same⟩
    · exact Or.inr (List.mem_append_left _ (List.mem_flatMap.mpr ⟨expr, member, unvisited⟩))
  · rcases functions with ⟨_, ⟨function, _, rfl⟩, held⟩
    simp only [IrFunction.types, IrFunction.visitTypes, List.mem_append, List.mem_map,
      List.mem_singleton] at held
    rcases held with ⟨original, _, same⟩ | same
    · exact Or.inl ⟨original, same.symm⟩
    · exact Or.inl ⟨function.returnType, same⟩
  · rcases constants with ⟨_, ⟨constant, _, rfl⟩, same⟩
    exact Or.inl ⟨constant.ty, same.symm⟩
  · rcases exports with ⟨_, ⟨exported, _, rfl⟩, held⟩
    simp only [IrExport.types, List.mem_append, List.mem_map, List.mem_singleton] at held
    rcases held with ⟨original, _, same⟩ | same
    · exact Or.inl ⟨original, same.symm⟩
    · exact Or.inl ⟨exported.result, same⟩
  · exact Or.inl (TypeTable.mem_shapeTypes_erase shapes)
  · rw [TypeTable.instantiationArguments_erase] at arguments
    exact Or.inr (List.mem_append_right _ arguments)

theorem distinctFree_of_no_rows (named : program.NamesItsRows)
    (none : program.types.distincts.rows = []) : program.DistinctFree := by
  refine ⟨?_, none⟩
  intro ty carried
  rw [Bool.eq_false_iff]
  intro distinct
  rcases Ty.isDistinct_eq_true.mp distinct with ⟨id, same⟩
  have below := named ty carried
  rw [none, same] at below
  simp [Ty.namesRowBelow] at below

theorem rows_eraseDistinctTypes (program : IrProgram) :
    (eraseDistinctTypes program).types.distincts.rows = [] := by
  unfold eraseDistinctTypes
  split
  · assumption
  · rfl

/-- The pass leaves no distinct type exactly when there is none among the types
that it does not visit. -/
theorem erased_iff_unvisited_distinctFree (program : IrProgram) (named : program.NamesItsRows) :
    (eraseDistinctTypes program).DistinctFree ↔
      ∀ ty ∈ program.unvisitedTypes, ty.isDistinct = false := by
  constructor
  · intro erased ty unvisited
    rw [← unvisitedTypes_erase] at unvisited
    exact erased.carried ty (unvisitedTypes_carried unvisited)
  · intro clean
    refine ⟨?_, rows_eraseDistinctTypes program⟩
    intro ty carried
    by_cases none : program.types.distincts.rows = []
    · have unchanged : eraseDistinctTypes program = program := if_pos none
      rw [unchanged] at carried
      exact (distinctFree_of_no_rows named none).carried ty carried
    · rcases mem_carriedTypes_erase none carried with ⟨original, same⟩ | unvisited
      · rw [same]
        exact eraseType_flat program.types.distincts original
      · exact clean ty unvisited

/-! ## Programs that keep a distinct type -/

/-- The table of a program that declares `distinct TabId = U32`. -/
def tabTable : TypeTable :=
  (TypeTable.empty.declareDistinctOwned none "TabId" (.int .u32)).2

/-- A function of two tabs over the given arena, returning its last expression. -/
def tabProgram (types : TypeTable) (exprs : List IrExpr) : IrProgram where
  functions :=
    [{ name := "next", paramCount := 2, slotTypes := [.distinct 0, .distinct 0],
       nativeStateSlots := [none, none], returnType := .distinct 0, execution := .inherited,
       isMainThread := false, byReferenceParams := [], byPointerParams := [],
       body := [.return (some (exprs.length - 1))] }]
  types := types
  descriptors := []
  main := none
  mainThreadLifecycles := []
  exports := []
  exprs := exprs
  constants := []

/-- `function next(first: TabId, second: TabId) -> TabId { return first }` -/
def firstTab : IrProgram :=
  tabProgram tabTable [.localGet 0]

/-- The same function with `return first + second`: the operators of a distinct
type give the distinct type again. -/
def sumOfTabs : IrProgram :=
  tabProgram tabTable [.localGet 0, .localGet 1, .binary .addInt 0 1 (.distinct 0)]

def boxOfTab : IrProgram :=
  tabProgram
    { tabTable with
      structs :=
        [⟨⟨"Box<TabId>", [⟨"value", .distinct 0, false⟩], false, none⟩, .declared, none, "",
          some ⟨"Box", [.distinct 0]⟩⟩] }
    [.localGet 0]

theorem firstTab_erased : (eraseDistinctTypes firstTab).DistinctFree :=
  (erased_iff_unvisited_distinctFree firstTab (by decide)).mpr (by decide)

theorem distinct_types_remain :
    (sumOfTabs.NamesItsRows ∧ ¬ (eraseDistinctTypes sumOfTabs).DistinctFree) ∧
      boxOfTab.NamesItsRows ∧ ¬ (eraseDistinctTypes boxOfTab).DistinctFree := by
  have kept : ∀ program : IrProgram, .distinct 0 ∈ program.carriedTypes → ¬ program.DistinctFree := by
    intro program carried erased
    exact absurd (erased.carried _ carried) (by decide)
  exact ⟨⟨by decide, kept _ (by decide)⟩, by decide, kept _ (by decide)⟩

end KiraVm.KiraIr
