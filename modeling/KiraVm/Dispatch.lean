import KiraVm.HostInstructions

/-!
# The dispatch loop

Frames are entered, run instruction by instruction, and torn down.  Between two
instructions the loop first runs the `Drop` bodies and settles the reference
counts the heap owes.
-/

namespace KiraVm

/-- Why a dispatch loop stopped. -/
inductive Dispatched
  | completed (value : Value)
  | suspended
  deriving DecidableEq, Repr

namespace Vm

variable {world : World}

/-! ## Frames -/

/-- A frame for a function, from the cache when there is one.  A cached frame was
released before it was kept. -/
def takeFrame (program : Module) (index : UInt64) : Vm world Frame := do
  let function ← orTrap (.unknownFunction index) program.functions[index.toNat]?
  let machine ← get
  let localCount := function.localCount.toNat
  let fresh := List.replicate localCount Value.void
  let locals ← match machine.frameCache with
    | [] => pure fresh
    | cached :: rest => do
      set { machine with frameCache := rest }
      pure (if cached.locals.length = localCount then cached.locals else fresh)
  pure
    { func := index
      pc := 0
      locals := locals
      live := List.replicate localCount false
      writebacks := []
      capture := [] }

def cacheFrame (frame : Frame) : Vm world Unit :=
  modify fun machine =>
    if machine.frameCache.length < frameCacheLimit then
      { machine with frameCache := frame :: machine.frameCache }
    else
      machine

def fillSlot (frame : Frame) (slot : Nat) (value : Value) : Vm world Frame :=
  if slot < frame.locals.length ∧ slot < frame.live.length then
    pure { frame with
      locals := frame.locals.set slot value
      live := frame.live.set slot value.isHeapValue }
  else
    panic

/-- Pop arguments into the parameters below the given one, the last on top. -/
def fillSlots (frame : Frame) : Nat → Vm world Frame
  | 0 => pure frame
  | slot + 1 => do
    let value ← onTrap pop (discard frame.locals)
    let frame ← fillSlot frame slot value
    fillSlots frame slot

/-- Pop a call's arguments into its frame.  When the stack runs out, what the
frame already holds is dropped. -/
def fillParams (program : Module) (index : UInt64) (frame : Frame) : Vm world Frame := do
  let function ← onTrap (orTrap (.unknownFunction index) program.functions[index.toNat]?)
    (discard frame.locals)
  fillSlots frame function.paramCount.toNat

def pushFrame (frame : Frame) : Vm world Unit :=
  modify fun machine => { machine with frames := frame :: machine.frames }

def checkDepth : Vm world Unit := do
  let machine ← get
  if maxCallDepth ≤ machine.frames.length then trap .callDepthExceeded

def releaseSlots : List Value → List Bool → Vm world Unit
  | [], _ => pure ()
  | value :: values, live => do
    if live.headD false && value.isHeapValue then dropValue value
    releaseSlots values live.tail

def releasedFrame (frame : Frame) : Frame :=
  { frame with
    locals := frame.locals.map fun _ => .void
    live := frame.live.mapIdx fun index live => if index < frame.locals.length then false else live }

def releaseLiveLocals (frame : Frame) : Vm world Frame := do
  releaseSlots frame.locals frame.live
  pure (releasedFrame frame)

def moveOut (frame : Frame) (slot : Nat) : Option (Value × Frame) :=
  frame.locals[slot]?.map fun value =>
    (value, { frame with
      locals := frame.locals.set slot .void
      live := frame.live.set slot false })

/-- Move the written-through parameters of a returning frame into its caller. -/
def moveWritebacks (result : Value) : Frame → List Writeback → Vm world Frame
  | finished, [] => pure finished
  | finished, writeback :: writebacks =>
    match moveOut finished writeback.param.toNat with
    | none => moveWritebacks result finished writebacks
    | some (value, finished) => do
      onTrap (writeBack writeback value) (do
        let _ ← releaseLiveLocals finished
        dropValue result)
      moveWritebacks result finished writebacks

def moveCaptures : Frame → List UInt32 → Vm world Frame
  | finished, [] => pure finished
  | finished, slot :: slots =>
    match moveOut finished slot.toNat with
    | none => moveCaptures finished slots
    | some (value, finished) => do
      modify fun machine => { machine with captured := machine.captured ++ [(slot, value)] }
      moveCaptures finished slots

def releasePlanned : Frame → List UInt64 → Vm world Frame
  | finished, [] => pure finished
  | finished, slot :: slots =>
    match moveOut finished slot.toNat with
    | none => releasePlanned finished slots
    | some (held, moved) => do
      if finished.live[slot.toNat]?.getD false && held.isHeapValue then dropValue held
      releasePlanned moved slots

/-- Forget the handles of slots that own nothing. -/
def forgetDead (frame : Frame) : Frame :=
  { frame with
    locals := frame.locals.mapIdx fun index value =>
      if frame.live[index]?.getD false then value else .void }

/-- Release what the function's plan says and keep the frame when it holds
nothing. -/
def releaseFrame (function : FuncProto) (finished : Frame) : Vm world Unit :=
  match function.releases with
  | .everyLocal => do
    let released ← releaseLiveLocals finished
    cacheFrame released
  | .planned slots => do
    let released ← releasePlanned finished slots
    let released := forgetDead released
    if released.locals.all fun value => !value.isHeapValue then
      cacheFrame { released with locals := released.locals.map fun _ => .void }

/-- Hand a frame's result to its caller, or answer it when there is none.  What is
left on the stack then goes. -/
def handResult (result : Value) : Vm world (Option Value) := do
  let machine ← get
  match machine.frames with
  | [] => do
    set { machine with stack := [] }
    discard machine.stack.reverse
    pure (some result)
  | _ :: _ => do
    push result
    pure none

/-- Tear down the frame that returned.  The answer is the run's, from the last
frame. -/
def finishFrame (program : Module) (result : Value) : Vm world (Option Value) := do
  let machine ← get
  match machine.frames with
  | [] => trap .frameUnderflow
  | finished :: frames => do
    set { machine with frames := frames }
    match program.functions[finished.func.toNat]? with
    | none => do
      let _ ← releaseLiveLocals finished
      dropValue result
      trap (.unknownFunction finished.func)
    | some function => do
      let finished ← moveWritebacks result finished finished.writebacks
      let finished ← moveCaptures finished finished.capture
      releaseFrame function finished
      handResult result

/-! ## Unwinding -/

/-- Drop the locals of the frames past their parameters, the outermost first. -/
def unwindFrames (program : Module) : List Frame → Vm world Unit
  | [] => pure ()
  | frame :: frames => do
    unwindFrames program frames
    let paramCount := match program.functions[frame.func.toNat]? with
      | some function => function.paramCount.toNat
      | none => 0
    discard (frame.locals.drop paramCount)

/-- Reclaim what a trapped run still holds. -/
def unwind (program : Module) : Vm world Unit := do
  let machine ← get
  set { machine with frames := [] }
  unwindFrames program machine.frames
  let machine ← get
  set { machine with stack := [] }
  discard machine.stack.reverse
  onHeap fun heap => ((), heap.abandonPendingDrops)

/-! ## `Drop` bodies -/

/-- Enter the body the heap owes a parked struct.  Its receiver is the parked
handle itself. -/
def runPendingDrop (program : Module) : Vm world Unit := do
  let machine ← get
  match machine.heap.pendingDrops with
  | [] => pure ()
  | pending :: rest => do
    set { machine with heap := { machine.heap with pendingDrops := rest } }
    checkDepth
    let callee ← takeFrame program pending.glue.toUInt64
    push (.struct pending.id)
    let callee ← fillParams program pending.glue.toUInt64 callee
    pushFrame callee
    modify fun machine => { machine with
      runningDrops := (machine.frames.length, pending.id) :: machine.runningDrops }

/-- Release the parked structs whose bodies have returned, the latest first.  The
unit a body left on the stack goes with it. -/
def finishReturnedDrops : List (Nat × Nat) → Vm world Unit
  | [] => pure ()
  | (depth, id) :: drops => do
    let machine ← get
    if depth ≤ machine.frames.length then pure ()
    else do
      set { machine with runningDrops := drops }
      if 1 < depth then
        match machine.stack with
        | [] => pure ()
        | unit :: stack => do
          modify fun machine => { machine with stack := stack }
          dropValue unit
      onHeap fun heap => ((), heap.finishPendingDrop id)
      finishReturnedDrops drops

/-! ## Calls -/

def call (program : Module) (index : UInt64) : Vm world Unit := do
  checkDepth
  let callee ← takeFrame program index
  let callee ← fillParams program index callee
  pushFrame callee

def callMut (program : Module) (index slot : UInt64) (path : List PathStep) : Vm world Unit := do
  checkDepth
  let callee ← takeFrame program index
  let steps ← onTrap (fillSteps path) (discard callee.locals)
  let callee ← fillParams program index callee
  pushFrame { callee with writebacks := [⟨0, slot, steps⟩] }

/-- Resolve the places of writeback targets; the last one's indices are on top. -/
def fillTargets : List WritebackTarget → Vm world (List Writeback)
  | [] => pure []
  | target :: targets => do
    let rest ← fillTargets targets
    let steps ← fillSteps target.path
    pure (⟨target.param, target.slot, steps⟩ :: rest)

def callWriteback (program : Module) (index : UInt64) (targets : List WritebackTarget) :
    Vm world Unit := do
  checkDepth
  let callee ← takeFrame program index
  let writebacks ← onTrap (fillTargets targets) (discard callee.locals)
  let callee ← fillParams program index callee
  pushFrame { callee with writebacks := writebacks }

def callNativeWriteback (reenter : Reenter world) (program : Module) (id : UInt32)
    (targets : List WritebackTarget) : Vm world Unit := do
  let writebacks ← fillTargets targets
  callNative reenter program id writebacks

/-- Continue at a target inside the running function. -/
def jump (program : Module) (target : UInt64) : Vm world Unit := do
  let frame ← topFrame
  let function ← orTrap (.unknownFunction frame.func) program.functions[frame.func.toNat]?
  if target.toNat < function.code.length then setPc target.toNat
  else trap (.badJump target)

def jumpIfFalse (program : Module) (target : UInt64) : Vm world Unit := do
  let condition ← popBool
  if condition then pure () else jump program target

end Vm

end KiraVm
