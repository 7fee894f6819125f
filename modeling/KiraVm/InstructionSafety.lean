import KiraVm.HostInstructions
import KiraVm.MachineSafety

/-!
# Safe instructions

The instructions that neither call nor return keep the machine sound.
-/

namespace KiraVm

namespace Vm

open StateLogic

variable {world : World} {allowed : UInt32 → Prop} {trust : Trust world allowed}
  {frames : List Frame → Prop} {stack constants : List Value → Prop} {α : Type}

/-! ## Heap operations -/

instance allocStrs_tidy (texts : List String) :
    TidyOperation allowed fun heap => heap.allocStrs texts :=
  ⟨fun _ tidy => tidy.allocStrs texts⟩

instance replaced_tidy (text : Heap → String) :
    TidyOperation allowed fun heap => heap.allocStr (text heap) :=
  ⟨fun heap tidy => tidy.allocStr (text heap)⟩

instance allocStruct_tidy (fields : List Value) :
    TidyOperation allowed fun heap => heap.allocStruct fields :=
  ⟨fun _ tidy => tidy.allocStruct fields⟩

instance allocArray_tidy (elements : List Value) :
    TidyOperation allowed fun heap => heap.allocArray elements :=
  ⟨fun _ tidy => tidy.allocArray elements⟩

instance allocEnum_tidy (tag : UInt64) (payload : Option Value) :
    TidyOperation allowed fun heap => heap.allocEnum tag payload :=
  ⟨fun _ tidy => tidy.allocEnum tag payload⟩

instance allocErased_tidy (typeId : UInt64) (payload : Value) :
    TidyOperation allowed fun heap => heap.allocErased typeId payload :=
  ⟨fun _ tidy => tidy.allocErased typeId payload⟩

instance allocCell_tidy (payload : Value) :
    TidyOperation allowed fun heap => heap.allocCell payload :=
  ⟨fun _ tidy => tidy.allocCell payload⟩

instance cblockBytes_tidy (bytes : List UInt8) :
    TidyOperation allowed fun heap => heap.cblockBytes bytes :=
  ⟨fun _ tidy => tidy.cblockBytes bytes⟩

instance cellSet_tidy (id : Nat) (value : Value) :
    TidyOperation allowed fun heap => heap.cellSet id value :=
  ⟨fun _ tidy => tidy.cellSet id value⟩

instance copyValue_tidy (value : Value) :
    TidyOperation allowed fun heap => heap.copyValue value :=
  ⟨fun _ tidy => tidy.copyValue value⟩

instance formatAndConsume_tidy (value : Value) :
    TidyOperation allowed fun heap => heap.formatAndConsume world value :=
  ⟨fun _ tidy => tidy.formatAndConsume world value⟩

instance own_tidy (value : Value) : TidyOperation allowed fun heap => heap.own value :=
  ⟨fun _ tidy => tidy.own value⟩

instance storeAt_tidy (root : Value) (steps : List ResolvedStep) (value : Value) :
    TidyOperation allowed fun heap =>
      (heap.storeAt root steps value : Except (VmError world.Error) Unit × Heap) :=
  ⟨fun _ tidy => tidy.storeAt root steps value⟩

instance appendAt_tidy (root : Value) (steps : List ResolvedStep) (value : Value) :
    TidyOperation allowed fun heap =>
      (heap.appendAt root steps value : Except (VmError world.Error) Unit × Heap) :=
  ⟨fun _ tidy => tidy.appendAt root steps value⟩

instance cblockAggregateImage_tidy (table : ForeignAggregates) (id : UInt32) (value : Value)
    (width : ForeignPointerWidth) (bytes : List UInt8) :
    TidyOperation allowed fun heap => heap.cblockAggregateImage table id value width bytes :=
  ⟨fun _ tidy => tidy.cblockAggregateImage table id value width bytes⟩

/-! ## Trees -/

variable {tree : NativeStateValue} {operands : List Value}

theorem fromNativeState_safe (glue : tree.AllGlue allowed) :
    SafeVm trust frames stack constants
      (onHeap fun heap => heap.fromNativeState tree : Vm world Value) :=
  onHeap_keeps fun _ tidy => tidy.fromNativeState glue

theorem readStateNode_safe {node : NativeStateValue} (glue : node.AllGlue allowed) :
    SafeVm trust frames stack constants
      (onHeap fun heap => heap.readStateNode node : Vm world Value) :=
  onHeap_keeps fun _ tidy => tidy.readStateNode glue

theorem dropNativeStateValue_safe (glue : tree.AllGlue allowed) :
    SafeVm trust frames stack constants
      (onHeap fun heap => ((), heap.dropNativeStateValue tree) : Vm world Unit) :=
  onHeap_keeps fun _ tidy => tidy.dropNativeStateValue glue

theorem storedTree_yields (value : Value) :
    YieldsVm trust frames stack constants (storedTree value : Vm world _)
      (·.AllGlue allowed) := by
  refine (onHeap_yields (fun answer => ∀ tree, answer = .ok tree → tree.AllGlue allowed)
    fun heap tidy => ?_).bind fun answer glue => ?_
  · have moved := tidy.intoNativeState value
    exact ⟨moved.answer, moved.heap⟩
  · cases answer with
    | ok tree => exact .pure (glue tree rfl)
    | error kind => exact .throw fun _ sound => sound

/-! ## Questions to the host -/

instance writeLine_good (line : String) :
    GoodQuestion trust fun host => ((), world.writeLine line host) :=
  ⟨trust.keeps.writeLine line⟩

instance envSleep_good (milliseconds : Int64) :
    GoodQuestion trust fun host => ((), world.envSleep milliseconds host) :=
  ⟨trust.keeps.envSleep milliseconds⟩

instance foreignCallback_good (id : UInt32) : GoodQuestion trust (world.foreignCallback id) :=
  ⟨trust.keeps.foreignCallback id⟩

instance channelOp_good (prim : ChannelPrim) (first second third : Int64) :
    GoodQuestion trust (world.channelOp prim first second third) :=
  ⟨trust.keeps.channelOp prim first second third⟩

instance nativeStateCheck_good (token typeWord : UInt64) :
    GoodQuestion trust (world.nativeStateCheck token typeWord) :=
  ⟨trust.keeps.nativeStateCheck token typeWord⟩

instance nativeStateRetain_good (token : UInt64) :
    GoodQuestion trust (world.nativeStateRetain token) :=
  ⟨trust.keeps.nativeStateRetain token⟩

instance nativeStateRelease_good (token : UInt64) :
    GoodQuestion trust (world.nativeStateRelease token) :=
  ⟨trust.keeps.nativeStateRelease token⟩

instance fileSystem_good (request : FileRequest) : GoodQuestion trust (world.fileSystem request) :=
  ⟨trust.keeps.fileSystem request⟩

instance compiler_good (op : CompilerOp) (request : List String) :
    GoodQuestion trust (world.compiler op request) :=
  ⟨trust.keeps.compiler op request⟩

instance envText_good (name : String) : GoodQuestion trust (world.envText name) :=
  ⟨trust.keeps.envText name⟩

instance envIsSet_good (name : String) : GoodQuestion trust (world.envIsSet name) :=
  ⟨trust.keeps.envIsSet name⟩

instance envArgumentCount_good : GoodQuestion trust world.envArgumentCount :=
  ⟨trust.keeps.envArgumentCount⟩

instance envArgument_good (index : Int64) : GoodQuestion trust (world.envArgument index) :=
  ⟨trust.keeps.envArgument index⟩

instance readBytes_good (address : UInt64) (offset : UInt32) (size : Nat) :
    GoodQuestion trust (world.readBytes address offset size) :=
  ⟨trust.keeps.readBytes address offset size⟩

instance releasedCells_good (heap : Heap) (held : List Value) :
    GoodQuestion trust (world.releasedCells heap held) :=
  ⟨trust.keeps.releasedCells heap held⟩

instance ownerEvents_good (heap : Heap) (held : List Value) :
    GoodQuestion trust (world.ownerEvents heap held) :=
  ⟨trust.keeps.ownerEvents heap held⟩

theorem nativeStateReplace_good (token typeWord : UInt64) (glue : tree.AllGlue allowed) :
    GoodQuestion trust (world.nativeStateReplace token typeWord tree) :=
  ⟨fun host good => trust.keeps.nativeStateReplace token typeWord tree host good glue⟩

theorem nativeStateAppend_good (token typeWord : UInt64) (path : List NativeStatePathStep)
    (glue : tree.AllGlue allowed) :
    GoodQuestion trust (world.nativeStateAppend token typeWord path tree) :=
  ⟨fun host good => trust.keeps.nativeStateAppend token typeWord path tree host good glue⟩

/-! ## Places -/

instance nativeField_safe (index : UInt64) :
    SafeVm trust frames stack constants (nativeField index : Vm world UInt32) := by
  unfold nativeField
  infer_instance

instance resolveNativePath_safe (steps : List ResolvedStep) :
    SafeVm trust frames stack constants (resolveNativePath steps : Vm world _) := by
  induction steps with
  | nil =>
    unfold resolveNativePath
    infer_instance
  | cons step steps ih => cases step <;> unfold resolveNativePath <;> infer_instance

instance writeNativePath_safe (token typeId : UInt64) (path : List NativeStatePathStep)
    (value : Value) (appending : Bool) :
    SafeVm trust frames stack constants
      (writeNativePath token typeId path value appending : Vm world Unit) := by
  refine (storedTree_yields value).bind_safe fun stored glue => ?_
  split
  · have good : GoodQuestion trust (world.nativeStateAppend token typeId path stored) :=
      nativeStateAppend_good token typeId path glue
    infer_instance
  · refine (tryHost_yields (·.AllGlue allowed) fun host good =>
      trust.keeps.nativeStateWrite token typeId path stored host good glue).bind_safe ?_
    exact fun displaced displacedGlue => dropNativeStateValue_safe displacedGlue

instance fillSteps_safe (path : List PathStep) :
    SafeVm trust frames Any constants (fillSteps path : Vm world (List ResolvedStep)) := by
  induction path with
  | nil =>
    unfold fillSteps
    infer_instance
  | cons step path ih => cases step <;> unfold fillSteps <;> infer_instance

section Running

variable {program : Module} {width : Nat} {slot : UInt64}

theorem ownLocal_safe (inside : slot.toNat < width) :
    SafeVm trust (Running program width) stack constants (ownLocal slot : Vm world Unit) := by
  refine Safe.of_bind (localAt_safe inside) fun held => ?_
  split <;> infer_instance

theorem storePlace_safe (inside : slot.toNat < width) (steps : List ResolvedStep) (value : Value) :
    SafeVm trust (Running program width) stack constants
      (storePlace slot steps value : Vm world Unit) := by
  refine Safe.of_bind (ownLocal_safe inside) fun _ => ?_
  refine Safe.of_bind (localAt_safe inside) fun root => ?_
  split <;> infer_instance

theorem storeField_safe (inside : slot.toNat < width) (path : List UInt64) (value : Value) :
    SafeVm trust (Running program width) stack constants
      (storeField slot path value : Vm world Unit) :=
  storePlace_safe inside _ value

theorem appendThrough_safe (inside : slot.toNat < width) (steps : List ResolvedStep)
    (value : Value) :
    SafeVm trust (Running program width) stack constants
      (appendThrough slot steps value : Vm world Unit) := by
  refine Safe.of_bind (ownLocal_safe inside) fun _ => ?_
  refine Safe.of_bind (localAt_safe inside) fun root => ?_
  split <;> infer_instance

end Running

/-! ## Operators -/

instance intBinary_safe (combine : Int64 → Int64 → Int64) :
    SafeVm trust frames Any constants (intBinary combine : Vm world Unit) := by
  unfold intBinary
  infer_instance

instance intDivide_safe (combine : Int64 → Int64 → Int64) :
    SafeVm trust frames Any constants (intDivide combine : Vm world Unit) := by
  unfold intDivide
  infer_instance

instance intCompare_safe (compare : Int64 → Int64 → Bool) :
    SafeVm trust frames Any constants (intCompare compare : Vm world Unit) := by
  unfold intCompare
  infer_instance

instance uintCompare_safe (compare : UInt64 → UInt64 → Bool) :
    SafeVm trust frames Any constants (uintCompare compare : Vm world Unit) := by
  unfold uintCompare
  infer_instance

instance checkedIntArith_safe (combine : Int64 → Int64 → Option Int64) (spelling : IntWidth) :
    SafeVm trust frames Any constants (checkedIntArith combine spelling : Vm world Unit) := by
  unfold checkedIntArith
  infer_instance

instance divIntChecked_safe :
    SafeVm trust frames Any constants (divIntChecked : Vm world Unit) := by
  unfold divIntChecked
  infer_instance

instance negIntChecked_safe :
    SafeVm trust frames Any constants (negIntChecked : Vm world Unit) := by
  unfold negIntChecked
  infer_instance

instance spelling_safe (code : UInt8) :
    SafeVm trust frames stack constants (spelling code : Vm world IntWidth) := by
  unfold spelling
  infer_instance

instance checkInt_safe (code : UInt8) :
    SafeVm trust frames Any constants (checkInt code : Vm world Unit) := by
  unfold checkInt
  infer_instance

instance wrapInt_safe (code : UInt8) :
    SafeVm trust frames Any constants (wrapInt code : Vm world Unit) := by
  unfold wrapInt
  infer_instance

instance checkShift_safe (bits : UInt8) :
    SafeVm trust frames Any constants (checkShift bits : Vm world Unit) := by
  unfold checkShift
  infer_instance

instance convertInt_safe (source target : UInt8) :
    SafeVm trust frames Any constants (convertInt source target : Vm world Unit) := by
  unfold convertInt
  infer_instance

instance floatArith_safe (op : FloatArith) :
    SafeVm trust frames Any constants (floatArith op : Vm world Unit) := by
  unfold floatArith
  infer_instance

instance floatCompare_safe (compare : UInt64 → UInt64 → Bool) :
    SafeVm trust frames Any constants (floatCompare compare : Vm world Unit) := by
  unfold floatCompare
  infer_instance

instance convertFloat_safe (convert : UInt64 → Option Int64) :
    SafeVm trust frames Any constants (convertFloat convert : Vm world Unit) := by
  unfold convertFloat
  infer_instance

instance convertFloatToInt_safe :
    SafeVm trust frames Any constants (convertFloatToInt : Vm world Unit) := by
  unfold convertFloatToInt
  infer_instance

instance convertFloatToUInt_safe :
    SafeVm trust frames Any constants (convertFloatToUInt : Vm world Unit) := by
  unfold convertFloatToUInt
  infer_instance

instance boolCompare_safe (compare : Bool → Bool → Bool) :
    SafeVm trust frames Any constants (boolCompare compare : Vm world Unit) := by
  unfold boolCompare
  infer_instance

instance popFloats_safe (count : Nat) (operands : List UInt64) :
    SafeVm trust frames Any constants (popFloats count operands : Vm world (List UInt64)) := by
  induction count generalizing operands with
  | zero =>
    unfold popFloats
    infer_instance
  | succ count ih => exact popThen_safe fun value => by split <;> infer_instance

instance mathOp_safe (op : MathOp) :
    SafeVm trust frames Any constants (mathOp op : Vm world Unit) := by
  unfold mathOp
  infer_instance

instance popPair_safe : SafeVm trust frames Any constants (popPair : Vm world (Value × Value)) := by
  refine (popOperands_yields 2).bind_safe fun popped length => ?_
  match popped, length with
  | [rhs, lhs], _ => exact Safe.pure (lhs, rhs)

instance typeCompare_safe (compare : UInt64 → UInt64 → Bool) :
    SafeVm trust frames Any constants (typeCompare compare : Vm world Unit) :=
  Safe.of_bind inferInstance fun pair => by split <;> infer_instance

instance anyCompare_safe (answer : Bool → Bool) :
    SafeVm trust frames Any constants (anyCompare answer : Vm world Unit) := by
  unfold anyCompare
  infer_instance

instance valueCompare_safe :
    SafeVm trust frames Any constants (valueCompare : Vm world Unit) := by
  unfold valueCompare
  infer_instance

instance concat_safe : SafeVm trust frames Any constants (concat : Vm world Unit) := by
  unfold concat
  infer_instance

instance strCompare_safe (answer : Bool → Bool) :
    SafeVm trust frames Any constants (strCompare answer : Vm world Unit) := by
  unfold strCompare
  infer_instance

instance stringCharAt_safe :
    SafeVm trust frames Any constants (stringCharAt : Vm world Unit) := by
  unfold stringCharAt
  infer_instance

instance stringSubstring_safe :
    SafeVm trust frames Any constants (stringSubstring : Vm world Unit) := by
  unfold stringSubstring
  infer_instance

instance stringIndexOf_safe :
    SafeVm trust frames Any constants (stringIndexOf : Vm world Unit) := by
  unfold stringIndexOf
  infer_instance

instance stringLen_safe : SafeVm trust frames Any constants (stringLen : Vm world Unit) :=
  popThen_safe fun base => by split <;> infer_instance

instance stringOpResult_safe (op : StringOp) (base : Value) (arguments : List Value) :
    SafeVm trust frames stack constants (stringOpResult op base arguments : Vm world Value) := by
  refine Safe.of_bind inferInstance fun heap => ?_
  split
  · split <;> infer_instance
  · infer_instance

instance stringOp_safe (op : StringOp) :
    SafeVm trust frames Any constants (stringOp op : Vm world Unit) := by
  unfold stringOp
  infer_instance

instance asNumber_safe (value : Value) :
    SafeVm trust frames stack constants (asNumber value : Vm world Decimal) := by
  unfold asNumber
  split <;> infer_instance

instance ofDecimal_safe (answer : Except DecimalError α) :
    SafeVm trust frames stack constants (ofDecimal answer : Vm world α) := by
  unfold ofDecimal
  split <;> infer_instance

/-- An operand that is there. -/
theorem orPanic_safe {answer : Option α} (present : answer.isSome) :
    SafeVm trust frames stack constants (orPanic answer : Vm world α) := by
  cases answer with
  | none => cases present
  | some value => exact Safe.pure value

theorem numberUnary_safe {answer : Decimal → Vm world α} (length : operands.length = 1)
    (rest : ∀ value, SafeVm trust frames stack constants (answer value)) :
    SafeVm trust frames stack constants (numberUnary operands answer) :=
  Safe.of_bind (orPanic_safe (by simp [length])) fun operand =>
    Safe.of_bind inferInstance rest

theorem numberBinary_safe {combine : Decimal → Decimal → Except DecimalError α}
    (length : operands.length = 2) :
    SafeVm trust frames stack constants (numberBinary operands combine : Vm world α) :=
  Safe.of_bind (orPanic_safe (by simp [length])) fun left =>
    Safe.of_bind inferInstance fun left =>
      Safe.of_bind (orPanic_safe (by simp [length])) fun right => inferInstance

theorem numberOpResult_safe {op : NumberOp} (length : operands.length = op.operandCount) :
    SafeVm trust frames stack constants (numberOpResult op operands : Vm world Value) := by
  have order (holds : Ordering → Bool) (two : operands.length = 2) :
      SafeVm trust frames stack constants (numberOrder operands holds : Vm world Value) :=
    Safe.of_bind (numberBinary_safe two) fun _ => inferInstance
  have arith (combine : Decimal → Decimal → Except DecimalError Decimal)
      (two : operands.length = 2) :
      SafeVm trust frames stack constants (numberArith operands combine : Vm world Value) :=
    Safe.of_bind (numberBinary_safe two) fun _ => inferInstance
  unfold numberOpResult
  cases op
  case fromInt | fromString | fromFloat =>
    simp only
    split <;> infer_instance
  case toString | toInt | toFloat | negate =>
    exact numberUnary_safe length fun value => inferInstance
  case add | subtract | multiply | divide => exact arith _ length
  case equal => exact Safe.of_bind (numberBinary_safe length) fun _ => inferInstance
  case less | lessOrEqual | greater | greaterOrEqual => exact order _ length

instance numberOp_safe (op : NumberOp) :
    SafeVm trust frames Any constants (numberOp op : Vm world Unit) := by
  refine (popOperands_yields op.operandCount).bind_safe fun popped length => ?_
  have result : SafeVm trust frames Any constants
      (numberOpResult op popped.reverse : Vm world Value) :=
    numberOpResult_safe (by simpa using length)
  infer_instance

/-! ## Locals and constants -/

instance pushLoaded_safe (value : Value) :
    SafeVm trust frames Any constants (pushLoaded value : Vm world Unit) := by
  unfold pushLoaded
  infer_instance

instance loadConstant_safe (slot : UInt64) :
    SafeVm trust frames Any constants (loadConstant slot : Vm world Unit) := by
  unfold loadConstant
  infer_instance

section Running

variable {program : Module} {width : Nat}

instance loadLocal_safe (slot : UInt64) :
    SafeVm trust (Running program width) Any constants (loadLocal slot : Vm world Unit) := by
  unfold loadLocal
  infer_instance

instance takeLocal_safe (slot : UInt64) :
    SafeVm trust (Running program width) Any constants (takeLocal slot : Vm world Unit) := by
  unfold takeLocal
  infer_instance

instance storeLocal_safe (slot : UInt64) :
    SafeVm trust (Running program width) Any constants (storeLocal slot : Vm world Unit) := by
  refine popThen_safe fun value => Safe.of_bind inferInstance fun frame => ?_
  split
  · infer_instance
  · split
    · rename_i token typeId _ _
      refine (storedTree_yields value).bind_safe fun stored glue => ?_
      have good : GoodQuestion trust (world.nativeStateReplace token typeId stored) :=
        nativeStateReplace_good token typeId glue
      infer_instance
    · infer_instance

end Running

/-! ## Deferred reads of callback state -/

theorem snapshotNode_yields (id : Nat) :
    YieldsVm trust frames stack constants (readHeap fun heap => heap.snapshotNode id : Vm world _)
      (fun found => ∀ node ∈ found, node.AllGlue allowed) :=
  readHeap_yields _ fun _ tidy _ found => tidy.snapshotNode found

theorem snapshotChild_glue {node : Option NativeStateValue} {step : NativeStatePathStep}
    {child : NativeStateValue} (glue : ∀ stored ∈ node, stored.AllGlue allowed)
    (found : snapshotChild node step = some child) : child.AllGlue allowed := by
  unfold snapshotChild at found
  split at found
  case h_4 => cases found
  all_goals
    have each := glue _ rfl
    simp only [NativeStateValue.AllGlue] at each
  · exact NativeStateValue.eachGlue_iff.mp each child (List.mem_of_getElem? found)
  · exact NativeStateValue.eachGlue_iff.mp each.2 child (List.mem_of_getElem? found)
  · exact NativeStateValue.eachGlue_iff.mp each child (List.mem_of_getElem? found)

instance readSnapshotChild_safe (id : Nat) (step : NativeStatePathStep)
    (refusal : VmError world.Error) :
    SafeVm trust frames stack constants (readSnapshotChild id step refusal) := by
  refine (snapshotNode_yields id).bind_safe fun node glue => Safe.of_bind inferInstance fun _ => ?_
  refine (orTrap_yields (·.AllGlue allowed) fun child found =>
    snapshotChild_glue glue found).bind_safe fun child childGlue => ?_
  exact readStateNode_safe childGlue

instance snapshotArrayLen_safe (id : Nat) :
    SafeVm trust frames stack constants (snapshotArrayLen id : Vm world Nat) := by
  refine Safe.of_bind inferInstance fun node => Safe.of_bind inferInstance fun _ => ?_
  split <;> infer_instance

instance snapshotEnumTag_safe (id : Nat) :
    SafeVm trust frames stack constants (snapshotEnumTag id : Vm world UInt64) := by
  refine Safe.of_bind inferInstance fun node => Safe.of_bind inferInstance fun _ => ?_
  split <;> infer_instance

instance snapshotEnumPayload_safe (id : Nat) :
    SafeVm trust frames stack constants (snapshotEnumPayload id : Vm world Value) := by
  refine (snapshotNode_yields id).bind_safe fun node glue => Safe.of_bind inferInstance fun _ => ?_
  split
  · have payload := glue _ rfl
    simp only [NativeStateValue.AllGlue, NativeStateValue.PayloadGlue] at payload
    exact readStateNode_safe payload
  · infer_instance
  · infer_instance

/-! ## Structs and arrays -/

instance newStruct_safe (count : UInt64) :
    SafeVm trust frames Any constants (newStruct count : Vm world Unit) := by
  unfold newStruct
  infer_instance

theorem allocStructDropping_safe (fields : List Value) {glue : UInt32} (holds : allowed glue) :
    SafeVm trust frames stack constants
      (onHeap fun heap => heap.allocStructDropping fields glue : Vm world Value) :=
  onHeap_keeps fun _ tidy => tidy.allocStructDropping fields holds

theorem newStructDropping_safe (count : UInt64) {glue : UInt32} (holds : allowed glue) :
    SafeVm trust frames Any constants (newStructDropping count glue : Vm world Unit) :=
  Safe.of_bind inferInstance fun fields =>
    Safe.of_bind (allocStructDropping_safe fields holds) fun _ => inferInstance

theorem newStructOrdered_safe (order : List UInt64) {glue : Option UInt32}
    (holds : ∀ body ∈ glue, allowed body) :
    SafeVm trust frames Any constants (newStructOrdered order glue : Vm world Unit) := by
  refine Safe.of_bind inferInstance fun evaluated => Safe.of_bind inferInstance fun fields => ?_
  cases glue with
  | none => infer_instance
  | some glue =>
    exact Safe.of_bind (allocStructDropping_safe fields (holds glue rfl)) fun _ => inferInstance

instance getField_safe (index : UInt64) :
    SafeVm trust frames Any constants (getField index : Vm world Unit) := by
  refine popThen_safe fun base => ?_
  split
  case h_1 token typeId =>
    refine Safe.of_bind inferInstance fun field => ?_
    refine (tryHost_yields (·.AllGlue allowed) fun host good =>
      trust.keeps.nativeStateRead token typeId [.field field] host good).bind_safe ?_
    intro stored glue
    exact Safe.of_bind (readStateNode_safe glue) fun _ => inferInstance
  case h_2 => infer_instance
  case h_3 =>
    refine Safe.of_bind inferInstance fun found => ?_
    split
    · infer_instance
    · split <;> infer_instance
  case h_4 => infer_instance

instance newArray_safe (count : UInt64) :
    SafeVm trust frames Any constants (newArray count : Vm world Unit) := by
  unfold newArray
  infer_instance

instance arrayGet_safe : SafeVm trust frames Any constants (arrayGet : Vm world Unit) := by
  refine Safe.of_bind inferInstance fun index => popThen_safe fun base => ?_
  split
  · refine Safe.of_bind inferInstance fun isArray => ?_
    dsimp only
    infer_instance
  · infer_instance
  · infer_instance

instance pushLength_safe (length : Nat) :
    SafeVm trust frames Any constants (pushLength length : Vm world Unit) := by
  unfold pushLength
  infer_instance

instance arrayLen_safe : SafeVm trust frames Any constants (arrayLen : Vm world Unit) :=
  popThen_safe fun base => by split <;> infer_instance

instance arrayElements_safe (ty : ForeignType) :
    SafeVm trust frames Any constants (arrayElements ty : Vm world Unit) := by
  have carried (rows : List (Option (List UInt8))) : SafeVm trust frames Any constants
      (do
        let rows ← orTrap (.typeMismatch "an array element the C seam can carry") (rows.mapM id)
        match rows.flatten with
        | [] => push (.rawPtr 0)
        | bytes => do
          let block ← onHeap fun heap => heap.cblockBytes bytes
          push (.cBlock block) : Vm world Unit) :=
    Safe.of_bind inferInstance fun rows => by split <;> infer_instance
  refine popThen_safe fun base => Safe.of_bind inferInstance fun heap =>
    Safe.of_bind inferInstance fun _ => ?_
  split
  · exact Safe.of_bind inferInstance carried
  · split
    · exact Safe.of_bind inferInstance carried
    · exact Safe.of_bind inferInstance carried
  · exact Safe.of_bind inferInstance carried

section Running

variable {program : Module} {width : Nat} {slot : UInt64}

theorem storeFieldInstruction_safe (inside : slot.toNat < width) (path : List UInt64) :
    SafeVm trust (Running program width) Any constants
      (storeFieldInstruction slot path : Vm world Unit) :=
  popThen_safe fun value =>
    have _stored : SafeVm trust (Running program width) Any constants
        (storeField slot path value : Vm world Unit) := storeField_safe inside path value
    inferInstance

theorem storePlaceInstruction_safe (inside : slot.toNat < width) (path : List PathStep) :
    SafeVm trust (Running program width) Any constants
      (storePlaceInstruction slot path : Vm world Unit) :=
  popThen_safe fun value =>
    have _stored (steps : List ResolvedStep) : SafeVm trust (Running program width) Any constants
        (storePlace slot steps value : Vm world Unit) := storePlace_safe inside steps value
    inferInstance

theorem arrayAppend_safe (inside : slot.toNat < width) (path : List PathStep) :
    SafeVm trust (Running program width) Any constants (arrayAppend slot path : Vm world Unit) :=
  popThen_safe fun value =>
    have _stored (steps : List ResolvedStep) : SafeVm trust (Running program width) Any constants
        (appendThrough slot steps value : Vm world Unit) := appendThrough_safe inside steps value
    inferInstance

instance arrayGetLocal_safe (slot : UInt64) :
    SafeVm trust (Running program width) Any constants (arrayGetLocal slot : Vm world Unit) := by
  refine Safe.of_bind inferInstance fun index => Safe.of_bind inferInstance fun held => ?_
  split
  · refine Safe.of_bind inferInstance fun isArray => ?_
    dsimp only
    infer_instance
  · infer_instance
  · infer_instance

instance cellGet_safe (slot : UInt64) :
    SafeVm trust (Running program width) Any constants (cellGet slot : Vm world Unit) := by
  refine Safe.of_bind inferInstance fun frame => ?_
  split
  · refine Safe.of_bind inferInstance fun found => ?_
    split <;> infer_instance
  · infer_instance

instance cellSet_safe (slot : UInt64) :
    SafeVm trust (Running program width) Any constants (cellSet slot : Vm world Unit) := by
  refine popThen_safe fun value => Safe.of_bind inferInstance fun frame => ?_
  split <;> infer_instance

end Running

/-! ## Enums, cells and erased values -/

instance newEnum_safe (tag : UInt64) (hasPayload : Bool) :
    SafeVm trust frames Any constants (newEnum tag hasPayload : Vm world Unit) := by
  unfold newEnum
  infer_instance

instance enumTag_safe : SafeVm trust frames Any constants (enumTag : Vm world Unit) :=
  popThen_safe fun base => by split <;> infer_instance

instance enumFromCode_safe : SafeVm trust frames Any constants (enumFromCode : Vm world Unit) := by
  unfold enumFromCode
  infer_instance

instance enumPayload_safe : SafeVm trust frames Any constants (enumPayload : Vm world Unit) := by
  refine popThen_safe fun base => ?_
  split
  · infer_instance
  · refine Safe.of_bind inferInstance fun payload => ?_
    split <;> infer_instance
  · infer_instance

instance newCell_safe : SafeVm trust frames Any constants (newCell : Vm world Unit) := by
  unfold newCell
  infer_instance

instance erase_safe (typeId : UInt64) :
    SafeVm trust frames Any constants (erase typeId : Vm world Unit) := by
  unfold erase
  infer_instance

instance popErased_safe (expected : String) :
    SafeVm trust frames Any constants (popErased expected : Vm world Nat) :=
  popThen_safe fun value => by split <;> infer_instance

instance typeTest_safe (expected : UInt64) :
    SafeVm trust frames Any constants (typeTest expected : Vm world Unit) := by
  unfold typeTest
  infer_instance

instance unerase_safe (id : Nat) :
    SafeVm trust frames stack constants (unerase id : Vm world Value) :=
  Safe.of_bind inferInstance fun payload => by split <;> infer_instance

instance downcast_safe (expected : UInt64) :
    SafeVm trust frames Any constants (downcast expected : Vm world Unit) := by
  unfold downcast
  infer_instance

instance typeCastResult_safe (expected : UInt64) :
    SafeVm trust frames Any constants (typeCastResult expected : Vm world Unit) := by
  unfold typeCastResult
  infer_instance

instance typeOf_safe : SafeVm trust frames Any constants (typeOf : Vm world Unit) := by
  unfold typeOf
  infer_instance

instance typeField_safe (program : Module) (field : UInt8) :
    SafeVm trust frames Any constants (typeField program field : Vm world Unit) := by
  refine Safe.of_bind inferInstance fun field => popThen_safe fun base => ?_
  split
  · cases field <;> infer_instance
  · infer_instance

/-! ## Callback state -/

instance nativeStateNew_safe (typeWord : UInt64) :
    SafeVm trust frames Any constants (nativeStateNew typeWord : Vm world Unit) := by
  refine popThen_safe fun value => ?_
  refine (readHeap_yields (fun glue => ∀ body ∈ glue, allowed body) ?_).bind_safe
    fun glue holds => ?_
  · intro heap tidy body found
    split at found
    · exact tidy.glue _ body found
    · cases found
  · refine (storedTree_yields value).bind_safe fun stored storedGlue => ?_
    have good : GoodQuestion trust (world.nativeStateCreateDropping typeWord stored glue) :=
      ⟨fun host good =>
        trust.keeps.nativeStateCreateDropping typeWord stored glue host good storedGlue holds⟩
    infer_instance

instance releaseNativeStateToken_safe (token : UInt64) :
    SafeVm trust frames stack constants (releaseNativeStateToken token : Vm world Unit) := by
  refine (tryHost_yields (fun released => ∀ tree ∈ released, tree.AllGlue allowed) ?_).bind_safe
    fun released glue => ?_
  · intro host good
    have kept := trust.keeps.nativeStateReleaseDropping token host good
    refine ⟨kept.1, ?_⟩
    intro released answered tree found
    cases found
    exact kept.2 tree answered
  · cases released with
    | none => infer_instance
    | some tree => exact dropNativeStateValue_safe (glue tree rfl)

instance nativeUserData_safe (shared : Bool) :
    SafeVm trust frames Any constants (nativeUserData shared : Vm world Unit) :=
  popThen_safe fun state => by split <;> infer_instance

instance popStateToken_safe (operation : NativeStateOperation) :
    SafeVm trust frames Any constants (popStateToken operation : Vm world UInt64) :=
  popThen_safe fun state => by split <;> infer_instance

instance nativeStateRetain_safe :
    SafeVm trust frames Any constants (nativeStateRetain : Vm world Unit) := by
  unfold nativeStateRetain
  infer_instance

instance nativeStateRelease_safe :
    SafeVm trust frames Any constants (nativeStateRelease : Vm world Unit) := by
  unfold nativeStateRelease
  infer_instance

instance nativeRecover_safe (typeWord : UInt64) :
    SafeVm trust frames Any constants (nativeRecover typeWord : Vm world Unit) :=
  popThen_safe fun state => by split <;> infer_instance

theorem nativeStateRecover_yields (token typeWord : UInt64) :
    YieldsVm trust frames stack constants
      (tryHost .nativeState (world.nativeStateRecover token typeWord)) (·.AllGlue allowed) :=
  tryHost_yields _ fun host good => trust.keeps.nativeStateRecover token typeWord host good

instance nativeStateTake_safe (typeWord : UInt64) :
    SafeVm trust frames Any constants (nativeStateTake typeWord : Vm world Unit) := by
  refine popThen_safe fun state => ?_
  split
  · refine (nativeStateRecover_yields _ typeWord).bind_safe fun tree glue => ?_
    exact Safe.of_bind (fromNativeState_safe glue) fun _ => inferInstance
  · infer_instance

instance drainReleasedCells_safe :
    SafeVm trust frames stack constants (drainReleasedCells : Vm world Unit) := by
  unfold drainReleasedCells
  infer_instance

instance pollOwnerEvents_safe :
    SafeVm trust frames stack constants (pollOwnerEvents : Vm world Unit) := by
  refine Safe.of_bind inferInstance fun machine => Safe.of_bind inferInstance fun events => ?_
  exact onHeap_keeps fun heap tidy => tidy.of_same rfl rfl rfl rfl

instance retainTokens_safe (tokens : List UInt64) :
    SafeVm trust frames stack constants (retainTokens tokens : Vm world Unit) := by
  induction tokens with
  | nil =>
    unfold retainTokens
    infer_instance
  | cons token tokens ih =>
    unfold retainTokens
    infer_instance

instance releaseTokens_safe (tokens : List UInt64) :
    SafeVm trust frames stack constants (releaseTokens tokens : Vm world Unit) := by
  induction tokens with
  | nil =>
    unfold releaseTokens
    infer_instance
  | cons token tokens ih =>
    unfold releaseTokens
    infer_instance

instance settleNativeState_safe :
    SafeVm trust frames stack constants (settleNativeState : Vm world Unit) := by
  refine Safe.of_bind ?_ fun owed => inferInstance
  exact onHeap_keeps fun heap tidy => tidy.of_same rfl rfl rfl rfl

/-! ## Foreign storage -/

instance foreignOffset_safe (offset : UInt32) :
    SafeVm trust frames Any constants (foreignOffset offset : Vm world Unit) := by
  unfold foreignOffset
  infer_instance

instance foreignIndex_safe (stride : UInt32) :
    SafeVm trust frames Any constants (foreignIndex stride : Vm world Unit) :=
  popThen_safe fun value => by split <;> infer_instance

instance foreignLoad_safe (offset : UInt32) (ty : ForeignType) :
    SafeVm trust frames Any constants (foreignLoad offset ty : Vm world Unit) := by
  unfold foreignLoad
  infer_instance

instance cstringNew_safe : SafeVm trust frames Any constants (cstringNew : Vm world Unit) := by
  refine popThen_safe fun base => ?_
  split
  · refine Safe.of_bind inferInstance fun text => ?_
    split <;> infer_instance
  · infer_instance

instance clayoutAddress_safe (program : Module) (aggregate : UInt32) :
    SafeVm trust frames Any constants (clayoutAddress program aggregate : Vm world Unit) := by
  refine popThen_safe fun value => Safe.of_bind inferInstance fun bytes => ?_
  split
  · infer_instance
  · refine Safe.of_bind inferInstance fun block => ?_
    split <;> infer_instance

instance foreignCallback_safe (program : Module) (id : UInt32) :
    SafeVm trust frames Any constants (foreignCallback program id : Vm world Unit) := by
  unfold foreignCallback
  infer_instance

instance convertRawPtrToInt_safe :
    SafeVm trust frames Any constants (convertRawPtrToInt : Vm world Unit) :=
  popThen_safe fun value => by split <;> infer_instance

end Vm

end KiraVm
