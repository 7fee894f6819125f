import KiraVm.HeapEquality

/-!
# The machine

The interpreter keeps call frames, an operand stack, the module constants and
the `Drop` bodies it is running next to the heap.  An operation reads and
changes the machine and may stop the run: with an error the interpreter
reports, or because it indexed one of its own tables out of bounds.  The state
a stopped operation leaves is kept, as the caller unwinds from it.
-/

namespace KiraVm

/-- Why a run stops without an answer.  `panic` is an index out of bounds, and
`outOfFuel` ends a run that is only followed for so many steps. -/
inductive Fault (ε : Type)
  | trap (error : VmError ε)
  | panic
  | outOfFuel
  deriving DecidableEq

/-- A place step with its index already taken off the stack. -/
inductive ResolvedStep
  | field (index : UInt64)
  | index (position : Int64)
  deriving DecidableEq, Repr

/-- Which parameter of a callee is moved out on return, and where it goes. -/
structure Writeback where
  param : UInt64
  slot : UInt64
  steps : List ResolvedStep
  deriving DecidableEq, Repr

/-- One call frame.  `live` says which slots own the value they hold. -/
structure Frame where
  func : UInt64
  pc : Nat
  locals : List Value
  live : List Bool
  writebacks : List Writeback
  capture : List UInt32
  deriving DecidableEq, Repr

/-- The interpreter's state.  The stack has its top first, the frames the
running one, and the running `Drop` bodies the latest, each with the number of
frames it was entered at and the struct it is for. -/
structure Machine (world : World) where
  heap : Heap
  stack : List Value
  frames : List Frame
  frameCache : List Frame
  constants : List Value
  initializingConstants : Bool
  runningDrops : List (Nat × Nat)
  pendingCapture : List UInt32
  captured : List (UInt32 × Value)
  executors : world.Executors
  host : world.State

/-- An operation of the interpreter. -/
abbrev Vm (world : World) (α : Type) : Type :=
  EStateM (Fault world.Error) (Machine world) α

/-- Frames are counted, not bounded by the host's stack. -/
def maxCallDepth : Nat := 2 ^ 16

/-- How many returned frames are kept for reuse. -/
def frameCacheLimit : Nat := 64

namespace Vm

variable {world : World} {α : Type}

/-! ## Stopping -/

def trap (error : VmError world.Error) : Vm world α :=
  throw (.trap error)

def panic : Vm world α :=
  throw .panic

def orTrap (error : VmError world.Error) : Option α → Vm world α
  | some value => pure value
  | none => trap error

/-- An index the source does not check. -/
def orPanic : Option α → Vm world α
  | some value => pure value
  | none => panic

def ofExcept : Except (VmError world.Error) α → Vm world α
  | .ok value => pure value
  | .error error => trap error

def onTrap (operation : Vm world α) (cleanUp : Vm world Unit) : Vm world α := fun machine =>
  match operation machine with
  | .error (.trap error) machine => (cleanUp *> trap error) machine
  | result => result

/-! ## The heap and the host -/

def onHeap (operation : Heap → α × Heap) : Vm world α := do
  let machine ← get
  let (value, heap) := operation machine.heap
  set { machine with heap := heap }
  pure value

def readHeap (reader : Heap → α) : Vm world α := do
  let machine ← get
  pure (reader machine.heap)

def tryHeap (operation : Heap → Except (VmError world.Error) α × Heap) : Vm world α := do
  let answer ← onHeap operation
  ofExcept answer

def dropValue (value : Value) : Vm world Unit :=
  onHeap fun heap => ((), heap.dropValue value)

def discard : List Value → Vm world Unit
  | [] => pure ()
  | value :: values => do
    dropValue value
    discard values

def askHost (question : world.State → α × world.State) : Vm world α := do
  let machine ← get
  let (answer, host) := question machine.host
  set { machine with host := host }
  pure answer

/-- A host call that may refuse. -/
def tryHost (wrap : world.Error → VmError world.Error)
    (question : world.State → Except world.Error α × world.State) : Vm world α := do
  match ← askHost question with
  | .ok answer => pure answer
  | .error error => trap (wrap error)

def tryExecutors (wrap : world.Error → VmError world.Error)
    (operation : world.Executors → Except world.Error α × world.Executors) : Vm world α := do
  let machine ← get
  let (answer, executors) := operation machine.executors
  set { machine with executors := executors }
  match answer with
  | .ok answer => pure answer
  | .error error => trap (wrap error)

/-! ## The operand stack -/

def push (value : Value) : Vm world Unit :=
  modify fun machine => { machine with stack := value :: machine.stack }

def pop : Vm world Value := do
  let machine ← get
  match machine.stack with
  | [] => trap .stackUnderflow
  | value :: stack =>
    set { machine with stack := stack }
    pure value

/-- Pop this many operands, the top first.  What was popped before the stack ran
out is dropped. -/
def popOperands (count : Nat) : Vm world (List Value) :=
  go count []
where
  go : Nat → List Value → Vm world (List Value)
    | 0, popped => pure popped.reverse
    | count + 1, popped => do
      let value ← onTrap pop (discard popped.reverse)
      go count (value :: popped)

/-- Take this many values off the stack at once, the deepest first. -/
def splitOff (count : Nat) : Vm world (List Value) := do
  let machine ← get
  if machine.stack.length < count then trap .stackUnderflow
  else
    set { machine with stack := machine.stack.drop count }
    pure (machine.stack.take count).reverse

def mismatch (value : Value) (expected : String) : Vm world α := do
  dropValue value
  trap (.typeMismatch expected)

def popInt : Vm world Int64 := do
  match ← pop with
  | .int value => pure value
  | other => mismatch other "Int"

def popFloat : Vm world UInt64 := do
  match ← pop with
  | .float bits => pure bits
  | other => mismatch other "Float"

def popBool : Vm world Bool := do
  match ← pop with
  | .bool value => pure value
  | other => mismatch other "Bool"

def popStr : Vm world Nat := do
  match ← pop with
  | .str id => pure id
  | other => mismatch other "String"

def popTwoStr : Vm world (Nat × Nat) := do
  let rhs ← popStr
  let lhs ← onTrap popStr (dropValue (.str rhs))
  pure (lhs, rhs)

def popForeignPointer : Vm world UInt64 := do
  match ← pop with
  | .rawPtr address => pure address
  | other => mismatch other "a pointer into C storage"

def pushStr (text : String) : Vm world Unit := do
  let value ← onHeap fun heap => heap.allocStr text
  push value

/-! ## The running frame -/

/-- The running frame; without one the index is out of bounds. -/
def topFrame : Vm world Frame := do
  let machine ← get
  orPanic machine.frames.head?

def setTopFrame (frame : Frame) : Vm world Unit :=
  modify fun machine => { machine with frames := frame :: machine.frames.tail }

def setPc (pc : Nat) : Vm world Unit := do
  let frame ← topFrame
  setTopFrame { frame with pc := pc }

def setLocal (slot : Nat) (value : Value) : Vm world Unit := do
  let frame ← topFrame
  setTopFrame { frame with locals := frame.locals.set slot value }

/-- Record whether a slot owns what it holds, when there is such a slot. -/
def setLive (slot : Nat) (live : Bool) : Vm world Unit := do
  let frame ← topFrame
  setTopFrame { frame with live := frame.live.set slot live }

/-- A slot the source indexes without a check. -/
def localAt (slot : UInt64) : Vm world Value := do
  let frame ← topFrame
  orPanic frame.locals[slot.toNat]?

def checkedLocal (slot : UInt64) : Vm world Value := do
  let frame ← topFrame
  orTrap (.localSlotOutOfRange slot) frame.locals[slot.toNat]?

def isLive (slot : Nat) : Vm world Bool := do
  let frame ← topFrame
  pure (frame.live[slot]?.getD false)

end Vm

end KiraVm
