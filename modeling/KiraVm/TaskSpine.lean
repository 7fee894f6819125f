import KiraVm.SlotCrossing

/-!
# The task spine

The functions that lowering adds to a program which spawns tasks or opens
channels.  They reach the tables through single primitives, so a task that
yields, joins or receives hands the next task a turn on the same stack.  A run is
a sequence of the steps that user code can take between them, in any order.
-/

namespace KiraVm.KiraIr

open SlotTable StateLogic

/-! ## Primitives -/

def Machine.withTasks (machine : Machine) (tasks : TaskExecutor) : Machine :=
  { machine with tasks := tasks }

def Machine.withChannels (machine : Machine) (channels : ChannelExecutor) : Machine :=
  { machine with channels := channels }

def Machine.withFrames (machine : Machine) (frames : List Frame) : Machine :=
  { machine with frames := frames }

def Machine.assigned (machine : Machine) (count : Nat) (holder : Option Holder) : Machine :=
  { machine with
    owner := fun token =>
      if token ∈ (machine.boxes.drop count).map Box.token then holder else machine.owner token }

/-- A channel carries values that cross in one way. -/
def Machine.wired (machine : Machine) (key : Key) (crossing : Crossing) : Machine :=
  { machine with wires := Function.update machine.wires key crossing }

def taskOp (prim : TaskPrim) (first second third : Int64) : OnMachine Int64 := do
  let machine ← get
  match machine.tasks.serve ⟨prim, first, second, third⟩ with
  | (.ok answer, tasks) => do
    set (machine.withTasks tasks)
    pure answer
  | (.error trap, tasks) => do
    set (machine.withTasks tasks)
    throw (.task trap)

def channelOp (prim : ChannelPrim) (first second third : Int64) : OnMachine Int64 := do
  let machine ← get
  match machine.channels.serve ⟨prim, first, second, third⟩ with
  | (.ok answer, channels) => do
    set (machine.withChannels channels)
    pure answer
  | (.error trap, channels) => do
    set (machine.withChannels channels)
    throw (.channel trap)

def taskHolder (handle : Int64) : Option Holder :=
  match TaskExecutor.parts handle with
  | .ok key => some (.task key)
  | .error _ => none

def channelHolder (word : Int64) : Option Holder :=
  match ChannelExecutor.parts word with
  | .ok (key, _) => some (.channel key)
  | .error _ => none

/-- Record what the boxes from a count on are made for. -/
def assign (count : Nat) (holder : Option Holder) : OnMachine Unit :=
  modify fun machine => machine.assigned count holder

def pushFrame (frame : Frame) : OnMachine Unit :=
  modify fun machine => machine.withFrames (frame :: machine.frames)

def popFrame : OnMachine Unit :=
  modify fun machine => machine.withFrames machine.frames.tail

/-! ## Tasks -/

/-- What lowering knows: the types and the spawn targets, whose parameters fit a
task's slots. -/
structure Spine where
  fingerprint : Ty → UInt64
  types : TypeTable
  rows : List TaskTargetInfo
  fits : ∀ row ∈ rows, row.params.length ≤ taskSlots

namespace Spine

def classify (spine : Spine) (ty : Ty) : Crossing :=
  Crossing.classify spine.fingerprint spine.types ty

def rowAt (spine : Spine) (arm : Int64) : Option TaskTargetInfo :=
  if 1 ≤ arm.toInt then spine.rows[arm.toInt.toNat - 1]? else none

def paramCrossings (spine : Spine) (row : TaskTargetInfo) : List Crossing :=
  row.params.map spine.classify

/-- How a body's result crosses; a `Void` body joins as zero. -/
def resultCrossing (spine : Spine) (row : TaskTargetInfo) : Crossing :=
  if row.result = .void then .word else spine.classify row.result

/-- How the arguments of an arm cross. -/
def paramsAt (spine : Spine) (arm : Int64) : List Crossing :=
  ((spine.rowAt arm).map spine.paramCrossings).getD []

def resultAt (spine : Spine) (arm : Int64) : Crossing :=
  ((spine.rowAt arm).map spine.resultCrossing).getD .word

end Spine

/-- The operands of a spawn; an argument without a crossing is a word. -/
def boxArgs : List Crossing → List Payload → OnMachine (List Payload)
  | _, [] => pure []
  | [], value :: values => do
    let operands ← boxArgs [] values
    pure (value :: operands)
  | crossing :: crossings, value :: values => do
    let operand ← boxForSlot crossing value
    let operands ← boxArgs crossings values
    pure (operand :: operands)

/-- Write a task's slots, one after another. -/
def setArgs (handle : Int64) : Nat → List Payload → OnMachine Unit
  | _, [] => pure ()
  | index, operand :: operands => do
    let word ← popInt operand
    let _ ← taskOp .setArg handle (Int64.ofNat index) word
    setArgs handle (index + 1) operands

/-- The operands of the spawn helper, one for each slot. -/
def padded (operands : List Payload) : List Payload :=
  (operands ++ List.replicate taskSlots (Payload.tree (.int 0))).take taskSlots

def taskSpawn (arm : Int64) (crossings : List Crossing) (values : List Payload) :
    OnMachine Int64 := do
  let machine ← get
  let operands ← boxArgs crossings values
  let handle ← taskOp .spawn arm 0 0
  assign machine.boxes.length (taskHolder handle)
  setArgs handle 0 (padded operands)
  pure handle

namespace Spine

variable (spine : Spine)

def recoverArgs (handle : Int64) : Nat → List Crossing → OnMachine Unit
  | _, [] => pure ()
  | index, crossing :: crossings => do
    let word ← taskOp .slotGet handle (Int64.ofNat index) 0
    let _ ← recoverFromSlot crossing word
    recoverArgs handle (index + 1) crossings

/-- What whoever claimed a task does with its outcome. -/
def conclude (handle : Int64) : Tail → OnMachine Unit
  | .join crossing => do
    let result ← taskOp .takeResult handle 0 0
    let _ ← recoverFromSlot crossing result
  | .detach => do
    let _ ← taskOp .markDetached handle 0 0
  | .driven => pure ()

def finishBody (handle word : Int64) (tail : Tail) : OnMachine Unit := do
  let _ ← taskOp .complete handle word 0
  conclude handle tail

/-- Enter a claimed task's body.  A body that was a literal is over at once. -/
def beginBody (handle : Int64) (tail : Tail) : OnMachine Unit := do
  let arm ← taskOp .targetOf handle 0 0
  if arm = 0 then do
    let word ← taskOp .slotGet handle 0 0
    finishBody handle word tail
  else
    match spine.rowAt arm with
    | some row => do
      recoverArgs handle 0 (spine.paramCrossings row)
      pushFrame (.body handle row tail)
    | none => finishBody handle 0 tail

/-- The word of a body's result. -/
def boxResult (handle : Int64) (row : TaskTargetInfo) (value : Payload) : OnMachine Int64 := do
  let machine ← get
  let operand ← boxForSlot (spine.resultCrossing row) value
  assign machine.boxes.length (taskHolder handle)
  popInt operand

def returnBody (handle : Int64) (row : TaskTargetInfo) (tail : Tail) (value : Payload) :
    OnMachine Unit :=
  if row.result = .void then finishBody handle 0 tail
  else do
    let word ← boxResult spine handle row value
    finishBody handle word tail

def bodyReturn (value : Payload) : OnMachine Unit := do
  let machine ← get
  match machine.frames with
  | .body handle row tail :: _ => do
    popFrame
    returnBody spine handle row tail value
  | _ => pure ()

def taskAwait (handle : Int64) (crossing : Crossing) : OnMachine Unit := do
  let claimed ← taskOp .beginJoin handle 0 0
  if claimed = 1 then beginBody spine handle (.join crossing)
  else conclude handle (.join crossing)

def taskDetach (handle : Int64) : OnMachine Unit := do
  let claimed ← taskOp .beginDetach handle 0 0
  if claimed = 1 then beginBody spine handle .detach else conclude handle .detach

def taskCancel (handle : Int64) : OnMachine Unit := do
  let _ ← taskOp .cancel handle 0 0

/-- Hand the next queued task a turn. -/
def taskYield : OnMachine Unit := do
  let next ← taskOp .pickReady 0 0 0
  if next = 0 then pure () else beginBody spine next .driven

def taskSleep (ms : Int64) : OnMachine Unit := do
  let _ ← taskOp .advanceClock ms 0 0
  taskYield spine

/-! ## Channels -/

def channelCreate (crossing : Crossing) : OnMachine Unit := do
  let sender ← channelOp .create (if crossing.isBoxed then ChannelExecutor.boxedPayload else 0) 0 0
  match ChannelExecutor.parts sender with
  | .ok (key, _) => modify fun machine => machine.wired key crossing
  | .error _ => pure ()

def channelSend (crossing : Crossing) (sender : Int64) (value : Payload) : OnMachine Unit := do
  let machine ← get
  let operand ← boxForSlot crossing value
  assign machine.boxes.length (channelHolder sender)
  let word ← popInt operand
  let _ ← channelOp .send sender word 0

def pollEmpty : Int64 := 0

def pollReady : Int64 := 1

/-- A receive looks at its queue.  While nothing is queued it runs a queued task
and looks again. -/
def channelReceive : OnMachine Unit := do
  let machine ← get
  match machine.frames with
  | .waiting crossing receiver :: _ => do
    let status ← channelOp .poll receiver 0 0
    if status = pollEmpty then do
      let next ← taskOp .pickReady 0 0 0
      if next = 0 then do
        let _ ← channelOp .deadlock 0 0 0
      else beginBody spine next .driven
    else if status = pollReady then do
      let word ← channelOp .take receiver 0 0
      let _ ← recoverFromSlot crossing word
      popFrame
    else popFrame
  | _ => pure ()

/-- Closing a receiver of boxed values drains the queue first. -/
def channelCloseReceiver (crossing : Crossing) (receiver : Int64) : OnMachine Unit :=
  if crossing.isBoxed then pushFrame (.closing receiver)
  else do
    let _ ← channelOp .closeReceiver receiver 0 0

/-- A receiver that is being closed gives up one queued value, or closes. -/
def channelDrain : OnMachine Unit := do
  let machine ← get
  match machine.frames with
  | .closing receiver :: _ => do
    let status ← channelOp .poll receiver 0 0
    if status = pollReady then do
      let word ← channelOp .take receiver 0 0
      nativeStateRelease word.toUInt64
    else do
      let _ ← channelOp .closeReceiver receiver 0 0
      popFrame
  | _ => pure ()

end Spine

/-! ## Runs -/

/-- A step of the code around the spine, or of a frame that is on top. -/
inductive SpineStep
  | spawn (arm : Int64) (values : List Payload)
  | spawnValue (ty : Ty) (value : Payload)
  | join (handle : Int64) (ty : Ty)
  | detach (handle : Int64)
  | cancel (handle : Int64)
  | yield
  | sleep (ms : Int64)
  | bodyReturn (value : Payload)
  | create (ty : Ty)
  | send (ty : Ty) (sender : Int64) (value : Payload)
  | receive (ty : Ty) (receiver : Int64)
  | poll
  | closeSender (sender : Int64)
  | closeReceiver (ty : Ty) (receiver : Int64)
  | drain

namespace Spine

variable (spine : Spine)

def perform : SpineStep → OnMachine Unit
  | .spawn arm values => do
    let _ ← taskSpawn arm (spine.paramsAt arm) values
  | .spawnValue ty value => do
    let _ ← taskSpawn 0 [spine.classify ty] [value]
  | .join handle ty => taskAwait spine handle (spine.classify ty)
  | .detach handle => taskDetach spine handle
  | .cancel handle => taskCancel handle
  | .yield => taskYield spine
  | .sleep ms => taskSleep spine ms
  | .bodyReturn value => bodyReturn spine value
  | .create ty => channelCreate (spine.classify ty)
  | .send ty sender value => channelSend (spine.classify ty) sender value
  | .receive ty receiver => pushFrame (.waiting (spine.classify ty) receiver)
  | .poll => channelReceive spine
  | .closeSender sender => do
    let _ ← channelOp .closeSender sender 0 0
  | .closeReceiver ty receiver => channelCloseReceiver (spine.classify ty) receiver
  | .drain => channelDrain

def runFrom (machine : Machine) : List SpineStep → Machine
  | [] => machine
  | step :: steps =>
    match spine.perform step machine with
    | .ok _ after => runFrom after steps
    | .error _ after => after

def machineAfter (steps : List SpineStep) : Machine :=
  runFrom spine .new steps

end Spine

end KiraVm.KiraIr
