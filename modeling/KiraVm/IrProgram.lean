import KiraVm.NumericCompiler
import KiraVm.TypeTable

/-!
# The intermediate language

A program is a list of functions over one arena of expressions.  An expression
names its operands by their places in the arena, so a statement names expressions
and holds no type of its own.
-/

namespace KiraVm.KiraIr

abbrev IrExprId := Nat

/-- The order in which the fields of a construction are evaluated. -/
inductive FieldOrder
  | declared
  | written (sequence : List Nat)
  deriving DecidableEq, Repr

inductive IrCallee
  | print | abort | fromCode | hash
  | user (function : Nat)
  | foreign (function : Nat)
  deriving DecidableEq, Repr

inductive IrPlaceStep
  | field (index : Nat)
  | index (expr : IrExprId)
  deriving DecidableEq, Repr

structure IrPlace where
  slot : Nat
  path : List IrPlaceStep
  deriving DecidableEq, Repr

structure IrWriteback where
  param : Nat
  place : IrPlace
  deriving DecidableEq, Repr

mutual

inductive IrStmt
  | letSlot (slot : Nat) (init : IrExprId)
  | assign (place : IrPlace) (value : IrExprId)
  | cellSet (slot : Nat) (value : IrExprId)
  | return (value : Option IrExprId)
  | eval (expr : IrExprId)
  | ifThenElse (cond : IrExprId) (thenBody elseBody : List IrStmt)
  | attempt (steps : List IrAttemptStep) (trailing : List IrStmt)
  | while (cond : IrExprId) (body : List IrStmt)
  | break
  | continue
  | releaseLocals (slots : List Nat)

/-- A guarded step of an attempt. -/
inductive IrAttemptStep
  | mk (setup : List IrStmt) (errorCondition : IrExprId) (handler success : List IrStmt)

end

inductive IrExpr
  | int (value : Int64)
  | float (bits : UInt64)
  | bool (value : Bool)
  | str (text : String)
  | rawPtrNull
  | foreignCallbackPtr (callback : Nat)
  | localGet (slot : Nat)
  | constantGet (constant : Nat) (ty : Ty)
  | unary (op : IrUnOp) (operand : IrExprId) (ty : Ty)
  | typeTest (value : IrExprId) (target : UInt64)
  | typeCast (value : IrExprId) (target : UInt64) (ty : Ty)
  | binary (op : IrBinOp) (lhs rhs : IrExprId) (ty : Ty)
  | select (cond : IrExprId) (thenSetup : List IrStmt) (then_ : IrExprId)
      (thenCleanup : List Nat) (otherwiseSetup : List IrStmt) (otherwise_ : IrExprId)
      (otherwiseCleanup : List Nat) (ty : Ty)
  | call (callee : IrCallee) (args : List IrExprId) (result : Ty) (writebacks : List IrWriteback)
  | structNew (structId : Nat) (fields : List IrExprId) (order : FieldOrder)
  | enumNew (enumId tag : Nat) (payload : Option IrExprId)
  | enumTag (value : IrExprId)
  | enumPayload (value : IrExprId) (ty : Ty)
  | cellNew (value : IrExprId) (ty : Ty)
  | cellNull (ty : Ty)
  | cellGet (slot : Nat) (ty : Ty)
  | field (base : IrExprId) (index : Nat) (ty : Ty)
  | foreignMemberAddress (base : IrExprId) (aggregate member : Nat) (ty : Ty)
  | foreignElement (base : IrExprId) (aggregate : Nat) (index : IrExprId) (ty : Ty)
  | foreignField (base : IrExprId) (aggregate member : Nat) (ty : Ty)
  | arrayNew (ty : Ty) (elements : List IrExprId)
  | index (base index : IrExprId) (ty : Ty)
  | arrayLen (array : IrExprId)
  | stringLen (text : IrExprId)
  | stringCharAt (text index : IrExprId)
  | stringSubstring (text start stop : IrExprId)
  | stringIndexOf (text needle : IrExprId)
  | arrayElements (value : IrExprId) (element : ForeignType)
  | scalarText (value : IrExprId)
  | mathOperation (op : MathOp) (operands : List IrExprId)
  | stringOperation (op : StringOp) (text : IrExprId) (arguments : List IrExprId) (ty : Ty)
  | numberOperation (op : NumberOp) (operands : List IrExprId) (ty : Ty)
  | stringOf (value : IrExprId)
  | cLayoutAddress (value : IrExprId) (aggregate : Nat)
  | cStringNew (text : IrExprId)
  | fileSystem (op : FileSystemOp) (args : List IrExprId) (ty : Ty)
  | compiler (op : CompilerOp) (args : List IrExprId) (ty : Ty)
  | env (op : EnvOp) (args : List IrExprId) (ty : Ty)
  | arrayAppend (place : IrPlace) (value : IrExprId)
  | nativeState (value : IrExprId) (typeId : UInt64) (dropGlue : Option Nat) (ty : Ty)
  | nativeUserData (state : IrExprId) (borrowed : Bool) (ty : Ty)
  | nativeRecover (raw : IrExprId) (typeId : UInt64) (ty : Ty)
  | nativeStateTake (raw : IrExprId) (typeId : UInt64) (ty : Ty)
  | nativeStateRetain (token : IrExprId)
  | nativeStateRelease (token : IrExprId) (target : Option Ty)
  | convert (operand : IrExprId) (kind : ConvertKind) (ty : Ty)
  | intoAny (value : IrExprId) (source : Ty) (tag : UInt64)
  | typeConst (value : IrExprId) (id : UInt64)
  | typeOf (value : IrExprId)
  | typeCastResult (value : IrExprId) (target : UInt64) (result failure : Nat) (payload : Ty)
  | typeField (descriptor : IrExprId) (field : TypeField) (ty : Ty)
  | mainThreadCall (operation : MainThreadOp) (function : Nat) (args : List IrExprId) (ty : Ty)
  | mainThreadJoin (handle : IrExprId) (ty : Ty)
  | taskOp (prim : TaskPrim) (first second third : IrExprId)
  | channelOp (prim : ChannelPrim) (first second third : IrExprId)

structure IrFunction where
  name : String
  paramCount : Nat
  /-- The type of every slot, parameters first. -/
  slotTypes : List Ty
  nativeStateSlots : List (Option UInt64)
  returnType : Ty
  execution : Execution
  isMainThread : Bool
  byReferenceParams : List Nat
  byPointerParams : List Nat
  body : List IrStmt

structure IrConstant where
  name : String
  ty : Ty
  init : Nat
  deriving DecidableEq, Repr

structure IrExport where
  kiraName : String
  exportedName : String
  function : Nat
  params : List Ty
  result : Ty
  deriving DecidableEq, Repr

/-- A lowered program.  Its foreign tables carry wire types only and are left
out; the descriptors identify types by what the language calls them. -/
structure IrProgram where
  functions : List IrFunction
  types : TypeTable
  descriptors : List (Ty × Nat)
  main : Option Nat
  mainThreadLifecycles : List Nat
  exports : List IrExport
  exprs : List IrExpr
  constants : List IrConstant

/-! ## Where types are carried -/

/-- Every type an expression carries. -/
def IrExpr.types : IrExpr → List Ty
  | .constantGet _ ty => [ty]
  | .unary _ _ ty => [ty]
  | .typeCast _ _ ty => [ty]
  | .binary _ _ _ ty => [ty]
  | .select _ _ _ _ _ _ _ ty => [ty]
  | .call _ _ result _ => [result]
  | .enumPayload _ ty => [ty]
  | .cellNew _ ty => [ty]
  | .cellNull ty => [ty]
  | .cellGet _ ty => [ty]
  | .field _ _ ty => [ty]
  | .foreignMemberAddress _ _ _ ty => [ty]
  | .foreignElement _ _ _ ty => [ty]
  | .foreignField _ _ _ ty => [ty]
  | .arrayNew ty _ => [ty]
  | .index _ _ ty => [ty]
  | .stringOperation _ _ _ ty => [ty]
  | .numberOperation _ _ ty => [ty]
  | .fileSystem _ _ ty => [ty]
  | .compiler _ _ ty => [ty]
  | .env _ _ ty => [ty]
  | .nativeState _ _ _ ty => [ty]
  | .nativeUserData _ _ ty => [ty]
  | .nativeRecover _ _ ty => [ty]
  | .nativeStateTake _ _ ty => [ty]
  | .nativeStateRelease _ target => target.toList
  | .convert _ _ ty => [ty]
  | .intoAny _ source _ => [source]
  | .typeCastResult _ _ _ _ payload => [payload]
  | .typeField _ _ ty => [ty]
  | .mainThreadCall _ _ _ ty => [ty]
  | .mainThreadJoin _ ty => [ty]
  | .int _ | .float _ | .bool _ | .str _ | .rawPtrNull | .foreignCallbackPtr _ | .localGet _ => []
  | .typeTest _ _ | .structNew _ _ _ | .enumNew _ _ _ | .enumTag _ | .arrayLen _ => []
  | .stringLen _ | .stringCharAt _ _ | .stringSubstring _ _ _ | .stringIndexOf _ _ => []
  | .arrayElements _ _ | .scalarText _ | .mathOperation _ _ | .stringOf _ => []
  | .cLayoutAddress _ _ | .cStringNew _ | .arrayAppend _ _ | .nativeStateRetain _ => []
  | .typeConst _ _ | .typeOf _ | .taskOp _ _ _ _ | .channelOp _ _ _ _ => []

def IrFunction.types (function : IrFunction) : List Ty :=
  function.slotTypes ++ [function.returnType]

def IrExport.types (exported : IrExport) : List Ty :=
  exported.params ++ [exported.result]

def StructRow.fieldTypes (row : StructRow) : List Ty :=
  row.definition.fields.map (·.ty)

def EnumRow.payloadTypes (row : EnumRow) : List Ty :=
  row.definition.variants.filterMap (·.payload)

def instantiationTypes : Option Instantiation → List Ty
  | some instantiation => instantiation.arguments
  | none => []

/-- The arguments the rows of generic instances were made with. -/
def TypeTable.instantiationArguments (table : TypeTable) : List Ty :=
  table.structs.flatMap (fun row => instantiationTypes row.instantiation) ++
    table.enums.flatMap (fun row => instantiationTypes row.instantiation)

/-- The shapes of the rows. -/
def TypeTable.shapeTypes (table : TypeTable) : List Ty :=
  table.structs.flatMap (·.fieldTypes) ++ InternTable.types table.arrays ++
    table.enums.flatMap (·.payloadTypes) ++ InternTable.types table.cells ++
    InternTable.types table.nativeStates

def TypeTable.types (table : TypeTable) : List Ty :=
  table.shapeTypes ++ table.instantiationArguments

def IrProgram.carriedTypes (program : IrProgram) : List Ty :=
  program.exprs.flatMap (·.types) ++ program.functions.flatMap (·.types) ++
    program.constants.map (·.ty) ++ program.exports.flatMap (·.types) ++ program.types.types

end KiraVm.KiraIr
