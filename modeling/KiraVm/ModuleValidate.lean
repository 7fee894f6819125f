import KiraVm.ModuleModel

/-!
# Validation of a module

The structural checks a module passes before it runs.  Every check reports the
first fault it meets.
-/

namespace KiraVm

/-- A structural fault of a module. -/
inductive ModuleValidateError
  | mainOutOfRange (main : UInt32) (functionCount : Nat)
  | nativeWithCode (function : String)
  | misplacedMainThreadLifecycle (function : String) (instruction : Nat)
  | emptyCode (function : String)
  | notReturnTerminated (function : String)
  | releaseSlotOutOfRange (function : String) (slot : UInt64)
  | releasePlanUnordered (function : String) (slot : UInt64)
  | paramsExceedLocals (function : String)
  | constantInitInvalid (slot : Nat) (init : UInt64)
  | operandOutOfRange (function : String) (index : Nat) (instruction : Instruction)
  | exportFunctionOutOfRange (name : String) (function : UInt32) (functionCount : Nat)
  | exportArityMismatch (name : String) (declared : Nat) (actual : UInt64)
  | exportClassOutOfRange (name : String) («class» : UInt32) (classCount : Nat)
  | callbackFunctionOutOfRange (callback : Nat) (function : UInt32) (functionCount : Nat)
  | unknownCallbackAggregate (callback : Nat) (index : UInt32)
  | duplicateExport (name : String)
  deriving DecidableEq, Repr

def checkEach {α : Type} (check : Nat → α → Except ModuleValidateError Unit) :
    (start : Nat) → List α → Except ModuleValidateError Unit
  | _, [] => .ok ()
  | start, entry :: entries => do
    check start entry
    checkEach check (start + 1) entries

namespace Module

def functionAt (program : Module) (index : Nat) : Option FuncProto :=
  program.functions[index]?

def nonNativeFunction (program : Module) (index : Nat) : Bool :=
  match program.functionAt index with
  | some function => !function.isNative
  | none => false

/-- A function a `Drop` body may be: its receiver needs a slot. -/
def dropBody (program : Module) (glue : UInt32) : Bool :=
  program.nonNativeFunction glue.toNat &&
    match program.functionAt glue.toNat with
    | some callee => decide (0 < callee.localCount)
    | none => false

/-- Whether the slots are every position exactly once. -/
def isPermutation (order : List UInt64) : Bool :=
  order.all (fun slot => decide (slot.toNat < order.length)) && decide order.Nodup

def operandsInRange (program : Module) (function : FuncProto) : Instruction → Bool
  | .constStr index => decide (index.toNat < program.strings.length)
  | .loadLocal slot | .takeLocal slot | .storeLocal slot => decide (slot < function.localCount)
  | .loadConstant slot => decide (slot.toNat < program.constants.length)
  | .call callee => program.nonNativeFunction callee.toNat
  | .newStructDropping _ glue => program.dropBody glue
  | .newStructOrdered order glue =>
    isPermutation order &&
      match glue with
      | some glue => program.dropBody glue
      | none => true
  | .callMut callee slot _ =>
    program.nonNativeFunction callee.toNat && decide (slot < function.localCount) &&
      match program.functionAt callee.toNat with
      | some callee => decide (0 < callee.localCount)
      | none => false
  | .callWriteback callee targets =>
    program.nonNativeFunction callee.toNat &&
      targets.all fun target =>
        decide (target.slot < function.localCount) &&
          match program.functionAt callee.toNat with
          | some callee => decide (target.param < callee.localCount)
          | none => false
  | .mainThreadCall _ callee args =>
    match program.functionAt callee.toNat with
    | some callee => args == callee.paramCount
    | none => false
  | .callNativeWriteback _ targets =>
    targets.all fun target => decide (target.slot < function.localCount)
  | .callForeign id => decide (id.toNat < program.foreignImports.length)
  | .foreignCallback id => decide (id.toNat < program.foreignCallbacks.length)
  | .clayoutAddress id => (program.foreignAggregates.get id).isSome
  | .jump target | .jumpIfFalse target => decide (target.toNat < function.code.length)
  | .storeField slot path => decide (slot < function.localCount) && !path.isEmpty
  | .storePlace slot _ | .arrayAppend slot _ => decide (slot < function.localCount)
  | .arrayGetLocal slot | .cellGet slot | .cellSet slot => decide (slot < function.localCount)
  | _ => true

def validateInstruction (program : Module) (function : FuncProto) (index : Nat)
    (instruction : Instruction) : Except ModuleValidateError Unit :=
  if instruction = .mainThreadLifecycle ∧ index ≠ 0 then
    .error (.misplacedMainThreadLifecycle function.name index)
  else if program.operandsInRange function instruction then .ok ()
  else .error (.operandOutOfRange function.name index instruction)

def validateReleases (function : FuncProto) :
    (previous : Option UInt64) → List UInt64 → Except ModuleValidateError Unit
  | _, [] => .ok ()
  | previous, slot :: slots =>
    if function.localCount ≤ slot then .error (.releaseSlotOutOfRange function.name slot)
    else if previous.any fun last => decide (slot ≤ last) then
      .error (.releasePlanUnordered function.name slot)
    else
      validateReleases function (some slot) slots

def endsInReturn (code : List Instruction) : Bool :=
  match code.getLast? with
  | some .return_ | some .returnVoid => true
  | _ => false

/-- The body of a bytecode function, or the stub of a native one. -/
def validateCode (program : Module) (function : FuncProto) : Except ModuleValidateError Unit :=
  if function.isNative then
    if function.code = [] ∨ function.code = [.mainThreadLifecycle] then .ok ()
    else .error (.nativeWithCode function.name)
  else if function.code = [] then .error (.emptyCode function.name)
  else if !endsInReturn function.code then .error (.notReturnTerminated function.name)
  else checkEach (program.validateInstruction function) 0 function.code

def validateFunction (program : Module) (function : FuncProto) :
    Except ModuleValidateError Unit := do
  match function.releases with
  | .planned slots => validateReleases function none slots
  | .everyLocal => pure ()
  if function.localCount < function.paramCount then .error (.paramsExceedLocals function.name)
  else program.validateCode function

def validateConstant (program : Module) (slot : Nat) (init : UInt64) :
    Except ModuleValidateError Unit :=
  if program.nonNativeFunction init.toNat then .ok ()
  else .error (.constantInitInvalid slot init)

def validateCallback (program : Module) (index : Nat) (callback : ForeignCallback) :
    Except ModuleValidateError Unit :=
  match program.functionAt callback.function.toNat with
  | some _ => .ok ()
  | none =>
    .error (.callbackFunctionOutOfRange index callback.function program.functions.length)

def validateCallbackSpec (program : Module) (index : Nat) (spec : ForeignTypeSpec) :
    Except ModuleValidateError Unit :=
  match spec.aggregate? with
  | some id =>
    if (program.foreignAggregates.get id).isSome then .ok ()
    else .error (.unknownCallbackAggregate index id)
  | none => .ok ()

def validateExportType (program : Module) (exported : ModuleExport) (ty : ExportType) :
    Except ModuleValidateError Unit :=
  match ty with
  | .handle index =>
    if program.exports.classes.length ≤ index.toNat then
      .error (.exportClassOutOfRange exported.name index program.exports.classes.length)
    else .ok ()
  | _ => .ok ()

def validateExport (program : Module) (index : Nat) (exported : ModuleExport) :
    Except ModuleValidateError Unit :=
  match program.functionAt exported.function.toNat with
  | none =>
    .error (.exportFunctionOutOfRange exported.name exported.function program.functions.length)
  | some function => do
    if exported.params.length ≠ function.paramCount.toNat then
      throw (.exportArityMismatch exported.name exported.params.length function.paramCount)
    checkEach (fun _ => program.validateExportType exported) 0
      (exported.params ++ [exported.result])
    if exported.name ∈ (program.exports.functions.take index).map ModuleExport.name then
      throw (.duplicateExport exported.name)

/-- Prove the operands of a module in range. -/
def validate (program : Module) : Except ModuleValidateError Unit := do
  match program.main with
  | some main =>
    if program.functions.length ≤ main.toNat then
      throw (.mainOutOfRange main program.functions.length)
  | none => pure ()
  checkEach program.validateConstant 0 program.constants
  checkEach program.validateCallback 0 program.foreignCallbacks
  checkEach (fun index (callback : ForeignCallback) =>
    checkEach (fun _ => program.validateCallbackSpec index) 0 callback.signature.specs) 0
    program.foreignCallbacks
  checkEach (fun _ => program.validateFunction) 0 program.functions
  checkEach program.validateExport 0 program.exports.functions

end Module

/-! ## What validation establishes -/

theorem check_bind_ok {check next : Except ModuleValidateError Unit}
    (passed : (check >>= fun _ => next) = .ok ()) : check = .ok () ∧ next = .ok () := by
  cases check with
  | error error => cases passed
  | ok _ => exact ⟨rfl, passed⟩

theorem checkEach_ok {α : Type} {check : Nat → α → Except ModuleValidateError Unit} {start : Nat}
    {entries : List α} (passed : checkEach check start entries = .ok ()) {position : Nat} {entry : α}
    (found : entries[position]? = some entry) : check (start + position) entry = .ok () := by
  induction entries generalizing start position with
  | nil => simp at found
  | cons first entries ih =>
    unfold checkEach at passed
    rcases check_bind_ok passed with ⟨checked, others⟩
    cases position with
    | zero =>
      simp only [List.getElem?_cons_zero, Option.some.injEq] at found
      subst found
      exact checked
    | succ position =>
      rw [List.getElem?_cons_succ] at found
      have rest := ih others found
      rwa [show start + 1 + position = start + (position + 1) by omega] at rest

theorem checkEach_member {α : Type} {check : Nat → α → Except ModuleValidateError Unit}
    {start : Nat} {entries : List α} (passed : checkEach check start entries = .ok ()) {entry : α}
    (member : entry ∈ entries) : ∃ position, check position entry = .ok () := by
  rcases List.getElem?_of_mem member with ⟨position, found⟩
  exact ⟨_, checkEach_ok passed found⟩

/-- The body of a bytecode function. -/
structure FuncProto.Checked (program : Module) (function : FuncProto) : Prop where
  params : function.paramCount ≤ function.localCount
  ends : Module.endsInReturn function.code = true
  operands : ∀ instruction ∈ function.code, program.operandsInRange function instruction = true

/-- What the interpreter relies on in a module. -/
structure Module.Checked (program : Module) : Prop where
  constants : ∀ init ∈ program.constants, program.nonNativeFunction init.toNat = true
  functions : ∀ function ∈ program.functions, function.isNative = false → function.Checked program

namespace Module

variable {program : Module} {function : FuncProto}

theorem checked_of_validateFunction (passed : program.validateFunction function = .ok ())
    (bytecode : function.isNative = false) : function.Checked program := by
  have body : (if function.localCount < function.paramCount then
      Except.error (ModuleValidateError.paramsExceedLocals function.name)
      else program.validateCode function) = .ok () := by
    unfold validateFunction at passed
    cases plan : function.releases with
    | planned slots =>
      rw [plan] at passed
      dsimp only at passed
      exact (check_bind_ok passed).2
    | everyLocal =>
      rw [plan] at passed
      exact passed
  split_ifs at body with params
  unfold validateCode at body
  simp only [bytecode, Bool.false_eq_true, if_false] at body
  split_ifs at body with empty unended
  refine ⟨UInt64.not_lt.mp params, by simpa using unended, ?_⟩
  intro instruction member
  rcases checkEach_member body member with ⟨index, checked⟩
  unfold validateInstruction at checked
  split_ifs at checked with misplaced inRange
  exact inRange

/-- Validation gives the interpreter what it relies on. -/
theorem checked_of_validate (valid : program.validate = .ok ()) : program.Checked := by
  have tables : (do
      checkEach program.validateConstant 0 program.constants
      checkEach program.validateCallback 0 program.foreignCallbacks
      checkEach (fun index (callback : ForeignCallback) =>
        checkEach (fun _ => program.validateCallbackSpec index) 0 callback.signature.specs) 0
        program.foreignCallbacks
      checkEach (fun _ => program.validateFunction) 0 program.functions
      checkEach program.validateExport 0 program.exports.functions) = .ok () := by
    unfold validate at valid
    cases entry : program.main with
    | none =>
      rw [entry] at valid
      exact valid
    | some main =>
      rw [entry] at valid
      dsimp only at valid
      split at valid
      · cases valid
      · exact valid
  rcases check_bind_ok tables with ⟨constants, tables⟩
  rcases check_bind_ok tables with ⟨-, tables⟩
  rcases check_bind_ok tables with ⟨-, tables⟩
  rcases check_bind_ok tables with ⟨functions, -⟩
  refine ⟨?_, ?_⟩
  · intro init member
    rcases checkEach_member constants member with ⟨slot, checked⟩
    unfold validateConstant at checked
    split_ifs at checked with nonNative
    exact nonNative
  · intro function member bytecode
    rcases checkEach_member functions member with ⟨_, checked⟩
    exact checked_of_validateFunction checked bytecode

end Module

end KiraVm
