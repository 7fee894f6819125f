import KiraVm.Instructions

/-!
# Instructions that reach the host

File system, compiler, environment and main-thread requests, and calls into
native and foreign code.  During a native or a foreign call the host may enter
the interpreter again on the caller's heap.
-/

namespace KiraVm

namespace Vm

variable {world : World}

/-! ## Requests -/

/-- Perform a request on operands in source order; they are dropped either way. -/
def withOperands {α : Type} (count : Nat) (perform : List Value → Vm world α) : Vm world α := do
  let popped ← popOperands count
  let operands := popped.reverse
  let answer ← onTrap (perform operands) (discard operands)
  discard operands
  pure answer

def textOperand (heap : Heap) (operands : List Value) (index : Nat) :
    Except (VmError world.Error) String :=
  match operands[index]? with
  | some (.str id) => .ok (heap.get id)
  | _ => .error .notAString

def byteElements : List Value → Except (VmError world.Error) (List UInt8)
  | [] => .ok []
  | .int value :: values => do
    let rest ← byteElements values
    .ok (value.toUInt64.toUInt8 :: rest)
  | _ :: _ => .error (.typeMismatch "Int")

def fileRequest (heap : Heap) (op : FileSystemOp) (operands : List Value) :
    Except (VmError world.Error) FileRequest :=
  let text := textOperand heap operands
  match op with
  | .readRange =>
    match (operands[1]? : Option Value), (operands[2]? : Option Value) with
    | some (.int offset), some (.int count) => do
      let path ← text 0
      .ok (.readRange path offset count)
    | _, _ => .error (.typeMismatch "Int")
  | .writeBytes =>
    match (operands[1]? : Option Value) with
    | some (.array id) => do
      let bytes ← byteElements (heap.elements id)
      let path ← text 0
      .ok (.writeBytes path bytes)
    | _ => .error .notAnArray
  | .readText => do .ok (.readText (← text 0))
  | .writeText => do .ok (.writeText (← text 0) (← text 1))
  | .listDirectory => do .ok (.listDirectory (← text 0))
  | .isDirectory => do .ok (.isDirectory (← text 0))
  | .makeDirectory => do .ok (.makeDirectory (← text 0))
  | .renamePath => do .ok (.renamePath (← text 0) (← text 1))
  | .removePath => do .ok (.removePath (← text 0))
  | .fileExists => do .ok (.fileExists (← text 0))
  | .pathExists => do .ok (.pathExists (← text 0))
  | .fileSize => do .ok (.fileSize (← text 0))

def stringArrayValue (texts : List String) : Vm world Value := do
  let elements ← onHeap fun heap => heap.allocStrs texts
  onHeap fun heap => heap.allocArray elements

def fileSystemValue : FileResponse → Vm world Value
  | .bytes bytes =>
    onHeap fun heap => heap.allocArray (bytes.map fun byte => .int byte.toUInt64.toInt64)
  | .text text => onHeap fun heap => heap.allocStr text
  | .names names => stringArrayValue names
  | .flag value => pure (.bool value)
  | .size size => pure (.int size.toInt64)

def fileSystem (op : FileSystemOp) : Vm world Unit := do
  let response ← withOperands op.arity fun operands => do
    let request ← readHeap fun heap => fileRequest heap op operands
    let request ← ofExcept request
    tryHost .fileSystem (world.fileSystem request)
  let value ← fileSystemValue response
  push value

def stringArray (heap : Heap) : Option Value → Except (VmError world.Error) (List String)
  | some (.array id) =>
    (heap.elements id).mapM fun element =>
      match element with
      | .str text => .ok (heap.get text)
      | _ => .error .notAString
  | _ => .error .notAnArray

/-- The in-memory check reports its own error, the others the toolchain's. -/
def compilerError (op : CompilerOp) (error : world.Error) : VmError world.Error :=
  match op with
  | .checkPackages => .compiler error
  | _ => .toolchain error

def compiler (op : CompilerOp) : Vm world Unit := do
  let fields ← withOperands 1 fun operands => do
    let request ← readHeap fun heap => stringArray heap operands.head?
    let request ← ofExcept request
    tryHost (compilerError op) (world.compiler op request)
  let value ← stringArrayValue fields
  push value

def popEnvName : Vm world String := do
  let operand ← pop
  let heap ← readHeap id
  dropValue operand
  match operand with
  | .str id => pure (heap.get id)
  | _ => trap .notAString

def env (op : EnvOp) : Vm world Unit := do
  match op with
  | .text => do
    let name ← popEnvName
    let text ← askHost (world.envText name)
    pushStr text
  | .isSet => do
    let name ← popEnvName
    let set ← askHost (world.envIsSet name)
    push (.bool set)
  | .argumentCount => do
    let count ← askHost world.envArgumentCount
    push (.int count)
  | .argument => do
    let index ← popInt
    let text ← askHost (world.envArgument index)
    pushStr text
  | .sleep => do
    let milliseconds ← popInt
    askHost fun host => ((), world.envSleep milliseconds host)
    push .void

/-! ## The main thread -/

def requestArgs (function : UInt64) : List Value → Vm world (List NativeStateValue)
  | [] => pure []
  | value :: values => do
    let tree ← onHeap fun heap => heap.seamTree value
    let tree ← orTrap (.mainThreadValue function) tree
    let trees ← requestArgs function values
    pure (tree :: trees)

def mainThreadCall (operation : MainThreadOp) (function count : UInt64) : Vm world Unit := do
  if 2 ^ 32 ≤ function.toNat then trap (.unknownFunction function)
  let args ← withOperands count.toNat (requestArgs function)
  let response ← tryHost .mainThread (world.mainThread ⟨operation, function.toUInt32, args⟩)
  match operation, response with
  | .invoke, .value tree => do
    let value ← onHeap fun heap => heap.fromNativeState tree
    push value
  | .invoke, .posted | .post, .posted | .lifecycleStart, .posted => push .void
  | .spawn, .spawned handle => push (.mainThreadTask handle)
  | operation, _ => trap (.mainThreadResponse operation)

def mainThreadJoin : Vm world Unit := do
  match ← pop with
  | .mainThreadTask handle => do
    let tree ← tryHost .mainThread (world.mainThreadJoin handle)
    let value ← onHeap fun heap => heap.fromNativeState tree
    push value
  | other => do
    dropValue other
    trap .mainThreadHandleMismatch

def taskOp (prim : TaskPrim) : Vm world Unit := do
  let third ← popInt
  let second ← popInt
  let first ← popInt
  let answer ← tryExecutors .task (world.taskPerform prim first second third)
  push (.int answer)

/-- The host's channel table when it has one, else the run's own. -/
def channelOp (prim : ChannelPrim) : Vm world Unit := do
  let third ← popInt
  let second ← popInt
  let first ← popInt
  let answer ← match ← askHost (world.channelOp prim first second third) with
    | some (.ok answer) => pure answer
    | some (.error error) => trap (.channel error)
    | none => tryExecutors .channel (world.channelPerform prim first second third)
  push (.int answer)

/-! ## Entering again from a host call -/

/-- What a host may enter during a call: a function, its arguments, and the
parameters it wants back. -/
abbrev Reenter (world : World) : Type :=
  UInt32 → List NativeArg → List UInt32 → Vm world (Except (VmError world.Error) NativeReturn)

/-- Follow a host through a call. -/
def runScript {α : Type} (reenter : Reenter world) :
    HostScript world.State world.Error α → Vm world α
  | .done answer host => do
    modify fun machine => { machine with host := host }
    pure answer
  | .enter host function args capture next => do
    modify fun machine => { machine with host := host }
    let returned ← reenter function args capture
    let machine ← get
    runScript reenter (next returned machine.host)

/-! ## Writing back -/

/-- Move a value into a place of the running frame.  An empty path drops what the
slot held, owned or not. -/
def writeBack (writeback : Writeback) (value : Value) : Vm world Unit := do
  let machine ← get
  match machine.frames with
  | [] => do
    dropValue value
    trap .frameUnderflow
  | caller :: _ =>
    if writeback.steps.isEmpty then
      match caller.locals[writeback.slot.toNat]? with
      | none => do
        dropValue value
        trap (.localSlotOutOfRange writeback.slot)
      | some previous => do
        setLocal writeback.slot.toNat value
        dropValue previous
    else
      onTrap (storePlace writeback.slot writeback.steps value) (dropValue value)

/-! ## Native calls -/

/-- Rebuild the deferred reads among this many values on top of the stack. -/
def ownArguments (count : Nat) : Vm world Unit := do
  let machine ← get
  let (arguments, heap) := machine.heap.ownAll (machine.stack.take count).reverse
  set { machine with heap := heap, stack := arguments.reverse ++ machine.stack.drop count }

/-- Take this many values off the stack; the source does not check that they are
there. -/
def drain (count : Nat) : Vm world (List Value) := do
  let machine ← get
  if machine.stack.length < count then panic
  else
    set { machine with stack := machine.stack.drop count }
    pure (machine.stack.take count).reverse

/-- The values on top of the stack, the deepest first; the source does not check
that they are there. -/
def peek (count : Nat) : Vm world (List Value) := do
  let machine ← get
  if machine.stack.length < count then panic
  else pure (machine.stack.take count).reverse

def argumentTree (id : UInt32) (value : Value) : Vm world (Option NativeStateValue) := do
  let seamTree (refusal : VmError world.Error) : Vm world (Option NativeStateValue) := do
    let tree ← onHeap fun heap => heap.seamTree value
    let tree ← orTrap refusal tree
    pure (some tree)
  match value with
  | .struct _ | .array _ => seamTree (.structAtSeam id)
  | .number _ => seamTree (.numberAtSeam id)
  | .enum handle => do
    match ← readHeap fun heap => heap.enumSeamTag handle with
    | some _ => pure none
    | none => seamTree (.enumAtSeam id)
  | .erased _ => seamTree (.handleAtSeam id)
  | .nativeView token typeId => do
    let tree ← tryHost .nativeState (world.nativeStateRecover token typeId)
    pure (some tree)
  | _ => pure none

def argumentTrees (id : UInt32) : List Value → Vm world (List (Option NativeStateValue))
  | [] => pure []
  | value :: values => do
    let tree ← argumentTree id value
    let trees ← argumentTrees id values
    pure (tree :: trees)

def lowerArgument (heap : Heap) (id : UInt32) :
    Value × Option NativeStateValue → Except (VmError world.Error) NativeArg
  | (.int value, _) => .ok (.int value)
  | (.float bits, _) => .ok (.float bits)
  | (.bool value, _) => .ok (.bool value)
  | (.str text, _) => .ok (.str (heap.get text))
  | (.void, _) => .ok .void
  | (.rawPtr word, _) => .ok (.rawPtr word)
  | (.cBlock block, _) => .ok (.rawPtr (heap.cblockAddress block))
  | (.nativeState token, _) => .ok (.nativeState token)
  | (.number _, some tree) | (.struct _, some tree) | (.array _, some tree)
  | (.erased _, some tree) | (.nativeView _ _, some tree) => .ok (.aggregate tree)
  | (.enum handle, tree) =>
    match heap.enumSeamTag handle, tree with
    | some tag, _ => .ok (.enum tag)
    | none, some tree => .ok (.aggregate tree)
    | none, none => .error (.enumAtSeam id)
  | (.number _, none) => .error (.numberAtSeam id)
  | (.struct _, none) | (.array _, none) => .error (.structAtSeam id)
  | (.mainThreadTask _, _) | (.nativeSnapshot _, _) | (.type _, _) | (.cell _, _)
  | (.erased _, none) | (.nativeView _ _, none) => .error (.handleAtSeam id)

/-- Store one value that native code wrote through a parameter.  A whole view
writes into the state it names. -/
def storeWriteback (id : UInt32) (arguments : List Value) (writeback : Writeback)
    (value : NativeResult) : Vm world Unit := do
  match arguments[writeback.param.toNat]?, writeback.steps.isEmpty with
  | some (.nativeView token typeId), true =>
    match value with
    | .aggregate tree => do
      let _ ← tryHost .nativeState (world.nativeStateReplace token typeId tree)
      pure ()
    | _ => trap (.handleAtSeam id)
  | _, _ => do
    let value ← onHeap fun heap => heap.absorb value
    let value ← orTrap (.handleAtSeam id) value
    writeBack writeback value

def storeWritebacks (id : UInt32) (arguments : List Value)
    (returned : List (UInt32 × NativeResult)) : List Writeback → Vm world Unit
  | [] => pure ()
  | writeback :: writebacks => do
    let (_, value) ← orTrap (.missingSeamWriteback id writeback.param)
      (returned.find? fun entry => entry.1.toNat == writeback.param.toNat)
    storeWriteback id arguments writeback value
    storeWritebacks id arguments returned writebacks

/-- One crossing with its arguments on the stack. -/
def callNativeArguments (reenter : Reenter world) (id : UInt32) (writebacks : List Writeback)
    (count : Nat) : Vm world Value := do
  ownArguments count
  let arguments ← peek count
  let trees ← argumentTrees id arguments
  let lowered ← readHeap fun heap => (arguments.zip trees).mapM (lowerArgument heap id)
  let lowered ← ofExcept lowered
  let machine ← get
  match ← runScript reenter (world.callNative id lowered machine.host) with
  | .error error => trap (.nativeCall error)
  | .ok returned => do
    storeWritebacks id arguments returned.writebacks writebacks
    let result ← onHeap fun heap => heap.absorb returned.result
    orTrap (.handleAtSeam id) result

/-- Call into native code.  The arguments go on every way out. -/
def callNative (reenter : Reenter world) (program : Module) (id : UInt32)
    (writebacks : List Writeback) : Vm world Unit := do
  let proto ← orTrap (.unknownFunction id.toUInt64) program.functions[id.toNat]?
  let count := proto.paramCount.toNat
  let machine ← get
  if machine.stack.length < count then trap .stackUnderflow
  let result ← onTrap (callNativeArguments reenter id writebacks count) (do
    let arguments ← drain count
    discard arguments)
  let arguments ← drain count
  discard arguments
  push result

/-! ## Foreign calls -/

def aggregateRefusal (id : UInt32) (expected : ForeignTypeSpec) :
    AggregateMismatch → VmError world.Error
  | .arrayTooLong count len => .foreignArrayTooLong count len
  | .shape => .foreignArgMismatch id expected

def aggregateArguments (heap : Heap) (program : Module) (id : UInt32) :
    List (ForeignTypeSpec × Value) → Except (VmError world.Error) (List (Option (List UInt8)))
  | [] => .ok []
  | (expected, value) :: rest =>
    match expected with
    | .scalar _ => do
      let others ← aggregateArguments heap program id rest
      .ok (none :: others)
    | .aggregate aggregate =>
      match heap.aggregateBytes world.floats program.foreignAggregates aggregate value .host with
      | .error mismatch => .error (aggregateRefusal id expected mismatch)
      | .ok bytes => do
        let others ← aggregateArguments heap program id rest
        .ok (some bytes :: others)

def lowerForeign (heap : Heap) (id : UInt32) :
    (ForeignTypeSpec × Value) × Option (List UInt8) → Except (VmError world.Error) ForeignArg
  | ((.aggregate aggregate, _), some bytes) => .ok (.aggregate aggregate bytes)
  | ((expected, value), _) =>
    match heap.foreignArg world.floats expected value with
    | some argument => .ok argument
    | none => .error (.foreignArgMismatch id expected)

def lowerForeignArguments (heap : Heap) (program : Module) (id : UInt32)
    (parameters : List ForeignTypeSpec) (arguments : List Value) :
    Except (VmError world.Error) (List ForeignArg) := do
  let pairs := parameters.zip arguments
  let layouts ← aggregateArguments heap program id pairs
  (pairs.zip layouts).mapM (lowerForeign heap id)

/-- Drop the arguments of a foreign call, or keep those the callee keeps. -/
def settleForeignArguments (retained : List Bool) : List Value → Vm world Unit
  | [] => pure ()
  | value :: values => do
    if retained.headD false then onHeap fun heap => ((), heap.retainForForeign value)
    else dropValue value
    settleForeignArguments retained.tail values

def callForeignArguments (reenter : Reenter world) (program : Module) (id : UInt32)
    (parameters : List ForeignTypeSpec) : Vm world ForeignResult := do
  let arguments ← peek parameters.length
  let lowered ← readHeap fun heap => lowerForeignArguments heap program id parameters arguments
  let lowered ← ofExcept lowered
  let machine ← get
  match ← runScript reenter (world.callForeign id lowered machine.host) with
  | .error error => trap (.foreignCall error)
  | .ok outcome => pure outcome

def absorbForeignResult (program : Module) (outcome : ForeignResult) :
    Vm world (Option Value) :=
  match outcome with
  | .aggregate aggregate bytes =>
    onHeap fun heap =>
      heap.absorbAggregate world.floats program.foreignAggregates aggregate bytes .host
  | other => onHeap fun heap => heap.absorbForeign world.floats other

def callForeign (reenter : Reenter world) (program : Module) (id : UInt32) : Vm world Unit := do
  let imported ← orTrap (.unknownForeign id) program.foreignImports[id.toNat]?
  let parameters := imported.signature.parameters
  let machine ← get
  if machine.stack.length < parameters.length then trap .stackUnderflow
  ownArguments parameters.length
  let outcome ← onTrap (callForeignArguments reenter program id parameters) (do
    let arguments ← drain parameters.length
    discard arguments)
  let arguments ← drain parameters.length
  settleForeignArguments imported.signature.retained arguments
  let result ← absorbForeignResult program outcome
  let result ← orTrap (.foreignArgMismatch id outcome.spec) result
  push result

end Vm

end KiraVm
