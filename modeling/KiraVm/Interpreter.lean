import KiraVm.Dispatch

/-!
# The interpreter

One turn of the loop, the loop itself, and the ways to enter it.  A run is
followed for a number of turns; a host call that enters the interpreter again
follows the nested run for what is left.
-/

namespace KiraVm

namespace Vm

variable {world : World}

/-! ## One instruction -/

/-- The instructions that stay in their frame. -/
def perform (program : Module) : Instruction → Vm world Unit
  | .constInt value => push (.int value)
  | .constFloat bits => push (.float bits)
  | .constBool value => push (.bool value)
  | .constVoid => push .void
  | .constRawPtrNull => push (.rawPtr 0)
  | .constStr index => do
    let text ← orTrap (.stringConstantOutOfRange index) program.strings[index.toNat]?
    pushStr text
  | .constType id => push (.type id)
  | .loadLocal slot => loadLocal slot
  | .takeLocal slot => takeLocal slot
  | .storeLocal slot => storeLocal slot
  | .loadConstant slot => loadConstant slot
  | .pop => do
    let value ← pop
    dropValue value
  | .negInt => do
    let value ← popInt
    push (.int (-value))
  | .negFloat => do
    let bits ← popFloat
    push (.float (world.floats.neg bits))
  | .not => do
    let value ← popBool
    push (.bool !value)
  | .bitNot => do
    let value ← popInt
    push (.int (~~~value))
  | .addInt => intBinary (· + ·)
  | .subInt => intBinary (· - ·)
  | .mulInt => intBinary (· * ·)
  | .divInt => intDivide (· / ·)
  | .remInt => intDivide (· % ·)
  | .divUInt => intDivide (unsigned (· / ·))
  | .remUInt => intDivide (unsigned (· % ·))
  | .addFloat => floatArith .add
  | .subFloat => floatArith .sub
  | .mulFloat => floatArith .mul
  | .divFloat => floatArith .div
  | .remFloat => floatArith .rem
  | .concatStr => concat
  | .eqInt => intCompare (· == ·)
  | .neInt => intCompare (· != ·)
  | .ltInt => intCompare fun lhs rhs => lhs < rhs
  | .leInt => intCompare fun lhs rhs => lhs ≤ rhs
  | .gtInt => intCompare fun lhs rhs => rhs < lhs
  | .geInt => intCompare fun lhs rhs => rhs ≤ lhs
  | .ltUInt => uintCompare fun lhs rhs => lhs < rhs
  | .leUInt => uintCompare fun lhs rhs => lhs ≤ rhs
  | .gtUInt => uintCompare fun lhs rhs => rhs < lhs
  | .geUInt => uintCompare fun lhs rhs => rhs ≤ lhs
  | .bitAnd => intBinary (· &&& ·)
  | .bitOr => intBinary (· ||| ·)
  | .bitXor => intBinary (· ^^^ ·)
  | .shl => intBinary (· <<< ·)
  | .shrInt => intBinary (· >>> ·)
  | .shrUInt => intBinary (unsigned (· >>> ·))
  | .eqFloat => floatCompare world.floats.eq
  | .neFloat => floatCompare fun lhs rhs => !world.floats.eq lhs rhs
  | .ltFloat => floatCompare world.floats.lt
  | .leFloat => floatCompare fun lhs rhs => world.floats.lt lhs rhs || world.floats.eq lhs rhs
  | .gtFloat => floatCompare fun lhs rhs => world.floats.lt rhs lhs
  | .geFloat => floatCompare fun lhs rhs => world.floats.lt rhs lhs || world.floats.eq lhs rhs
  | .eqBool => boolCompare (· == ·)
  | .neBool => boolCompare (· != ·)
  | .eqStr => strCompare id
  | .neStr => strCompare not
  | .erase typeId => erase typeId
  | .eqAny | .eqValue => anyCompare id
  | .neAny | .neValue => anyCompare not
  | .cmpValue => valueCompare
  | .eqType => typeCompare (· == ·)
  | .neType => typeCompare (· != ·)
  | .nativeState typeId => nativeStateNew typeId
  | .nativeUserData shared => nativeUserData shared
  | .nativeRecover typeId => nativeRecover typeId
  | .nativeStateTake typeWord => nativeStateTake typeWord
  | .nativeStateRetain => nativeStateRetain
  | .nativeStateRelease => nativeStateRelease
  | .foreignCallback id => foreignCallback program id
  | .print => do
    let value ← pop
    let line ← onHeap fun heap => heap.formatAndConsume world value
    let line ← orTrap .unprintableValue line
    askHost fun host => ((), world.writeLine line host)
    push .void
  | .abort => do
    let value ← pop
    let message ← onHeap fun heap => heap.formatAndConsume world value
    trap (.aborted (message.getD "abort"))
  | .newStruct fields => newStruct fields
  | .newStructDropping fields glue => newStructDropping fields glue
  | .newStructOrdered order glue => newStructOrdered order glue
  | .addIntChecked => checkedIntArith (fun lhs rhs => checkedInt (lhs.toInt + rhs.toInt)) .plain
  | .subIntChecked => checkedIntArith (fun lhs rhs => checkedInt (lhs.toInt - rhs.toInt)) .plain
  | .mulIntChecked => checkedIntArith (fun lhs rhs => checkedInt (lhs.toInt * rhs.toInt)) .plain
  | .negIntChecked => negIntChecked
  | .divIntChecked => divIntChecked
  | .addUIntChecked =>
    checkedIntArith (fun lhs rhs =>
      checkedUInt (IntWidth.u64.valueOf lhs + IntWidth.u64.valueOf rhs)) .u64
  | .subUIntChecked =>
    checkedIntArith (fun lhs rhs =>
      checkedUInt (IntWidth.u64.valueOf lhs - IntWidth.u64.valueOf rhs)) .u64
  | .mulUIntChecked =>
    checkedIntArith (fun lhs rhs =>
      checkedUInt (IntWidth.u64.valueOf lhs * IntWidth.u64.valueOf rhs)) .u64
  | .checkInt code => checkInt code
  | .wrapInt code => wrapInt code
  | .checkShift bits => checkShift bits
  | .convertInt source target => convertInt source target
  | .convertUIntToFloat => do
    let value ← popInt
    push (.float (world.floats.ofUInt value.toUInt64))
  | .convertIntToFloat => do
    let value ← popInt
    push (.float (world.floats.ofInt value))
  | .convertFloatToInt => convertFloatToInt
  | .convertFloatToUInt => convertFloatToUInt
  | .convertFloatToBits => do
    let bits ← popFloat
    push (.int bits.toInt64)
  | .convertBitsToFloat => do
    let value ← popInt
    push (.float value.toUInt64)
  | .convertBits32ToFloat => do
    let value ← popInt
    push (.float (world.floats.widen value.toUInt64.toUInt32))
  | .convertFloatToBits32 => do
    let bits ← popFloat
    push (.int (world.floats.narrow bits).toUInt64.toInt64)
  | .convertIntToRawPtr => do
    let value ← popInt
    push (.rawPtr value.toUInt64)
  | .convertRawPtrToInt => convertRawPtrToInt
  | .printUnsigned => do
    let value ← popInt
    askHost fun host => ((), world.writeLine (toString value.toUInt64.toNat) host)
    push .void
  | .stringOfUnsigned => do
    let value ← popInt
    pushStr (toString value.toUInt64.toNat)
  | .typeTest id => typeTest id
  | .downcast id => downcast id
  | .typeOf => typeOf
  | .typeField field => typeField program field
  | .typeCastResult id => typeCastResult id
  | .getField index => getField index
  | .foreignOffset offset => foreignOffset offset
  | .foreignIndex stride => foreignIndex stride
  | .foreignLoad offset ty => foreignLoad offset ty
  | .storeField slot path => storeFieldInstruction slot path
  | .newArray count => newArray count
  | .arrayGet => arrayGet
  | .arrayLen => arrayLen
  | .arrayGetLocal slot => arrayGetLocal slot
  | .taskOp prim => taskOp prim
  | .channelOp prim => channelOp prim
  | .mainThreadCall operation function args => mainThreadCall operation function args
  | .mainThreadJoin => mainThreadJoin
  | .mainThreadLifecycle => pure ()
  | .stringLen => stringLen
  | .stringCharAt => stringCharAt
  | .stringSubstring => stringSubstring
  | .stringIndexOf => stringIndexOf
  | .stringOf => do
    let value ← pop
    let text ← onHeap fun heap => heap.formatAndConsume world value
    let text ← orTrap .unprintableValue text
    pushStr text
  | .cstringNew => cstringNew
  | .clayoutAddress aggregate => clayoutAddress program aggregate
  | .fileSystem op => fileSystem op
  | .stringOp op => stringOp op
  | .numberOp op => numberOp op
  | .arrayElements ty => arrayElements ty
  | .scalarText => do
    let value ← pop
    match value with
    | .int code =>
      -- a code point that is no scalar renders as nothing
      pushStr (if 0 ≤ code ∧ code.toNatClampNeg.isValidChar then
        String.singleton (Char.ofNat code.toNatClampNeg) else "")
    | _ => mismatch value "a code point to render as text"
  | .mathOp op => mathOp op
  | .compiler op => compiler op
  | .env op => env op
  | .storePlace slot path => storePlaceInstruction slot path
  | .arrayAppend slot path => arrayAppend slot path
  | .newEnum tag hasPayload => newEnum tag hasPayload
  | .enumTag => enumTag
  | .enumFromCode => enumFromCode
  | .hashValue => do
    let value ← pop
    let hash ← readHeap fun heap => heap.hashValue value
    dropValue value
    push (.int hash)
  | .enumPayload => enumPayload
  | .newCell => newCell
  | .cellGet slot => cellGet slot
  | .cellSet slot => cellSet slot
  | .jump target => jump program target
  | .jumpIfFalse target => jumpIfFalse program target
  | .call _ | .callNative _ | .callForeign _ | .callMut _ _ _ | .callWriteback _ _
  | .callNativeWriteback _ _ | .return_ | .returnVoid => trap .badDispatch

/-- The instructions the loop performs itself, without first releasing cells. -/
def isScalarLoopShape : Instruction → Bool
  | .constInt _ | .constFloat _ | .constBool _ | .constVoid | .constRawPtrNull | .loadLocal _
  | .storeLocal _ | .jump _ | .jumpIfFalse _ | .addInt | .subInt | .mulInt | .eqInt | .neInt
  | .ltInt | .leInt | .gtInt | .geInt => true
  | _ => false

def step (program : Module) (instruction : Instruction) : Vm world Unit := do
  drainReleasedCells
  perform program instruction

/-- Execute one instruction.  The answer is the run's, when its last frame
returned. -/
def execute (reenter : Reenter world) (program : Module) (instruction : Instruction) :
    Vm world (Option Value) :=
  match instruction with
  | .return_ => do
    let result ← pop
    finishFrame program result
  | .returnVoid => finishFrame program .void
  | .call index => do
    call program index
    pure none
  | .callNative id => do
    callNative reenter program id []
    pure none
  | .callForeign id => do
    callForeign reenter program id
    pure none
  | .callMut index slot path => do
    callMut program index slot path
    pure none
  | .callWriteback index targets => do
    callWriteback program index targets
    pure none
  | .callNativeWriteback id targets => do
    callNativeWriteback reenter program id targets
    pure none
  | other => do
    if isScalarLoopShape other then perform program other else step program other
    pure none

/-! ## Entering -/

/-- Reclaim what is still live when a run traps. -/
def dispatchFrames (program : Module) (run : Vm world Dispatched) : Vm world Dispatched :=
  onTrap run (unwind program)

def runFrame (program : Module) (run : Vm world Dispatched) (entry : Frame) : Vm world Value := do
  pushFrame entry
  match ← dispatchFrames program run with
  | .completed value => pure value
  | .suspended => trap .unexpectedSuspend

def fillArguments (frame : Frame) : (slot : Nat) → List Value → Vm world Frame
  | _, [] => pure frame
  | slot, value :: values => do
    let frame ← fillSlot frame slot value
    fillArguments frame (slot + 1) values

/-- Enter a function whose constants are there.  The arguments go with the frame
or are dropped. -/
def enterFrame (program : Module) (run : Vm world Dispatched) (function : UInt32)
    (args : List Value) : Vm world Value := do
  let frame ← onTrap (takeFrame program function.toUInt64) (discard args)
  if frame.locals.length < args.length then do
    discard args
    discard frame.locals
    let proto ← orPanic program.functions[function.toNat]?
    trap (.arityMismatch function.toUInt64 proto.paramCount args.length)
  else do
    let frame ← fillArguments frame 0 args
    let machine ← get
    set { machine with pendingCapture := [] }
    runFrame program run { frame with capture := machine.pendingCapture }

/-- Compute the constants not computed yet, in order.  Their initialisers find
the fill under way and do not start it again. -/
def fillConstants (program : Module) (run : Vm world Dispatched) : Nat → Vm world Unit
  | 0 => pure ()
  | left + 1 => do
    let machine ← get
    let init ← orPanic program.constants[machine.constants.length]?
    if 2 ^ 32 ≤ init.toNat then trap (.unknownFunction init)
    let value ← enterFrame program run init.toUInt32 []
    modify fun machine => { machine with constants := machine.constants ++ [value] }
    fillConstants program run left

def endInitializing (capture : List UInt32) : Vm world Unit :=
  modify fun machine =>
    { machine with initializingConstants := false, pendingCapture := capture }

/-- Fill the constants before the first frame of an entry. -/
def ensureConstants (program : Module) (run : Vm world Dispatched) : Vm world Unit := do
  let machine ← get
  if machine.initializingConstants || program.constants.length ≤ machine.constants.length then
    pure ()
  else do
    set { machine with initializingConstants := true, pendingCapture := [] }
    onTrap (fillConstants program run (program.constants.length - machine.constants.length))
      (endInitializing machine.pendingCapture)
    endInitializing machine.pendingCapture

def enterValues (program : Module) (run : Vm world Dispatched) (function : UInt32)
    (args : List Value) : Vm world Value := do
  onTrap (ensureConstants program run) (discard args)
  enterFrame program run function args

/-- Bring arguments into this heap; a refused one drops those before it. -/
def lowerArguments (function : UInt32) : List Value → List NativeArg → Vm world (List Value)
  | lowered, [] => pure lowered
  | lowered, argument :: arguments => do
    match ← onHeap fun heap => heap.lower argument with
    | some value => lowerArguments function (lowered ++ [value]) arguments
    | none => do
      discard lowered
      trap (.handleAtSeam function)

def enter (program : Module) (run : Vm world Dispatched) (function : UInt32)
    (args : List NativeArg) : Vm world Value := do
  let lowered ← lowerArguments function [] args
  enterValues program run function lowered

/-- Enter and hand back the parameters asked for. -/
def enterCapturing (program : Module) (run : Vm world Dispatched) (function : UInt32)
    (args : List NativeArg) (capture : List UInt32) :
    Vm world (Value × List (UInt32 × Value)) := do
  modify fun machine => { machine with pendingCapture := capture }
  let takeCaptured : Vm world (List (UInt32 × Value)) := do
    let machine ← get
    set { machine with captured := [] }
    pure machine.captured
  let value ← onTrap (enter program run function args) (do
    let captured ← takeCaptured
    discard (captured.map Prod.snd))
  let captured ← takeCaptured
  pure (value, captured)

/-- Start a function without parameters under a slice's budget. -/
def enterSliced (program : Module) (run : Vm world Dispatched) (slice : Vm world Dispatched)
    (function : UInt32) : Vm world Dispatched := do
  ensureConstants program run
  let frame ← takeFrame program function.toUInt64
  pushFrame frame
  dispatchFrames program slice

/-! ## Giving up what a run holds -/

def releaseConstants : Vm world Unit := do
  let machine ← get
  set { machine with constants := [] }
  discard machine.constants

/-- Release the storage that undelivered channel payloads name.  A token the host
does not know is nobody's loss. -/
def releaseUndeliveredChannelPayloads : Vm world Unit := do
  let machine ← get
  let (tokens, executors) := world.takeUndeliveredTokens machine.executors
  set { machine with executors := executors }
  releaseEach tokens
where
  releaseEach : List UInt64 → Vm world Unit
    | [] => pure ()
    | token :: tokens => do
      let _ ← askHost (world.nativeStateRelease token)
      releaseEach tokens

/-! ## Entering again -/

/-- The check both embedder doors make of a request. -/
def checkSignature (program : Module) (function : UInt32) (count : Nat) :
    Except (VmError world.Error) Unit :=
  match program.functions[function.toNat]? with
  | none => .error (.unknownFunction function.toUInt64)
  | some proto =>
    if proto.isNative then .error (.nativeEntry function)
    else if count ≠ proto.paramCount.toNat then
      .error (.arityMismatch function.toUInt64 proto.paramCount count)
    else .ok ()

/-- Whether an operation traps, with its answer. -/
def attempt {α : Type} (operation : Vm world α) : Vm world (Except (VmError world.Error) α) :=
  fun machine =>
    match operation machine with
    | .ok value machine => .ok (.ok value) machine
    | .error (.trap error) machine => .ok (.error error) machine
    | .error fault machine => .error fault machine

/-- Hand captured parameters over, as far as they have a crossing form. -/
def liftCaptured (function : UInt32) :
    List (UInt32 × Value) → Vm world (List (UInt32 × NativeResult))
  | [] => pure []
  | (slot, value) :: captured => do
    let lifted ← onHeap fun heap => heap.liftTransfer value
    let lifted ← orTrap (.structAtSeam function) lifted
    let rest ← liftCaptured function captured
    pure ((slot, lifted) :: rest)

def liftReturn (function : UInt32) (value : Value) (captured : List (UInt32 × Value)) :
    Vm world NativeReturn := do
  let writebacks ← liftCaptured function captured
  let lifted ← onHeap fun heap => heap.liftTransfer value
  let lifted ← orTrap (.structAtSeam function) lifted
  pure ⟨lifted, writebacks⟩

def freshMachine (heap : Heap) (host : world.State) : Machine world where
  heap := heap
  stack := []
  frames := []
  frameCache := []
  constants := []
  initializingConstants := false
  runningDrops := []
  pendingCapture := []
  captured := []
  executors := world.newExecutors
  host := host

/-- A nested run on the outer one's heap.  When its answer has no crossing form
the outer machine is left with an empty heap. -/
def reenter (program : Module) (run : Vm world Dispatched) : Reenter world :=
  fun function args capture => do
    match checkSignature program function args.length with
    | .error error => pure (.error error)
    | .ok () => do
      let outer ← get
      set (freshMachine outer.heap outer.host)
      let outcome ← attempt (enterCapturing program run function args capture)
      releaseConstants
      releaseUndeliveredChannelPayloads
      match outcome with
      | .error error => do
        modify fun nested => { outer with heap := nested.heap, host := nested.host }
        pure (.error error)
      | .ok (value, captured) => do
        match ← attempt (liftReturn function value captured) with
        | .ok returned => do
          modify fun nested => { outer with heap := nested.heap, host := nested.host }
          pure (.ok returned)
        | .error error => do
          modify fun nested =>
            { outer with heap := Heap.new outer.heap.addressOf, host := nested.host }
          pure (.error error)

/-! ## The loop -/

/-- The next instruction; the source checks neither that there is a frame nor
that there is an instruction. -/
def fetch (program : Module) : Vm world Instruction := do
  let frame ← topFrame
  let function ← orTrap (.unknownFunction frame.func) program.functions[frame.func.toNat]?
  let instruction ← orPanic function.code[frame.pc]?
  setPc (frame.pc + 1)
  pure instruction

/-- What comes before an instruction: finished `Drop` bodies, owed ones, and owed
reference counts.  Says whether the loop starts over. -/
def settleOwed (program : Module) : Vm world Bool := do
  let machine ← get
  finishReturnedDrops machine.runningDrops
  let machine ← get
  if machine.heap.owesDrops then do
    runPendingDrop program
    pure true
  else do
    pollOwnerEvents
    let machine ← get
    if machine.heap.owesNativeState then do
      settleNativeState
      drainReleasedCells
      pure true
    else
      pure false

/-- The loop, for so many turns.  `budget` is what the slice may still execute, and
`completed` the answer of an entry function whose `Drop` bodies still run. -/
def dispatch (program : Module) : Nat → Option Nat → Option Value → Vm world Dispatched
  | 0, _, _ => throw .outOfFuel
  | fuel + 1, budget, completed => do
    if ← settleOwed program then dispatch program fuel budget completed
    else do
      let machine ← get
      match completed, machine.frames with
      | some value, [] => pure (.completed value)
      | _, _ =>
        if budget = some 0 then pure .suspended
        else do
          let instruction ← fetch program
          let answer ← execute (reenter program (dispatch program fuel none none)) program
            instruction
          dispatch program fuel (budget.map (· - 1)) (completed <|> answer)

end Vm

end KiraVm
