import KiraVm.Interpreter
import KiraVm.ModuleValidate

/-!
# Embedding the interpreter

The doors a host starts a module through: a program whose heap lasts one run, an
instance whose heap outlives its calls, and a fiber that runs in slices.
-/

namespace KiraVm

open Vm

variable {world : World}

/-! ## Programs -/

/-- A module that passed validation. -/
structure Program where
  code : Module
  valid : code.validate = .ok ()

namespace Program

/-- The loop without a budget, for so many turns. -/
def unsliced (program : Program) (fuel : Nat) : Vm world Dispatched :=
  dispatch program.code fuel none none

def run (program : Program) (fuel : Nat) : Vm world Value := do
  let main ← orTrap .noEntrypoint program.code.main
  let outcome ← attempt (enter program.code (program.unsliced fuel) main [])
  releaseUndeliveredChannelPayloads
  let result ← ofExcept outcome
  dropValue result
  releaseConstants
  pure result

/-- Run one function and hand back the parameters asked for. -/
def callCapturing (program : Program) (fuel : Nat) (function : UInt32) (args : List NativeArg)
    (capture : List UInt32) : Vm world NativeReturn := do
  ofExcept (checkSignature program.code function args.length)
  let outcome ← attempt (enterCapturing program.code (program.unsliced fuel) function args capture)
  releaseUndeliveredChannelPayloads
  let (result, captured) ← ofExcept outcome
  releaseConstants
  liftReturn function result captured

def lowerTrees : List NativeStateValue → Vm world (List Value)
  | [] => pure []
  | tree :: trees => do
    let value ← onHeap fun heap => heap.fromNativeState tree
    let values ← lowerTrees trees
    pure (value :: values)

/-- Run one function from a main-thread request. -/
def callState (program : Program) (fuel : Nat) (function : UInt32)
    (args : List NativeStateValue) : Vm world (Option NativeStateValue) := do
  ofExcept (checkSignature program.code function args.length)
  let lowered ← lowerTrees args
  let outcome ← attempt (enterValues program.code (program.unsliced fuel) function lowered)
  releaseUndeliveredChannelPayloads
  let result ← ofExcept outcome
  releaseConstants
  match result with
  | .void => pure none
  | _ => do
    match ← onHeap fun heap => heap.intoNativeState result with
    | .ok tree => pure (some tree)
    | .error _ => trap (.mainThreadValue function.toUInt64)

end Program

/-! ## Instances -/

/-- What is kept of a machine between two entries.  Its task and channel tables
and the `Drop` bodies it was running are not. -/
structure Scratch where
  stack : List Value
  frames : List Frame
  frameCache : List Frame
  constants : List Value
  pendingCapture : List UInt32
  captured : List (UInt32 × Value)

namespace Scratch

def empty : Scratch where
  stack := []
  frames := []
  frameCache := []
  constants := []
  pendingCapture := []
  captured := []

/-- A machine that goes on with kept storage. -/
def machine (scratch : Scratch) (heap : Heap) (executors : world.Executors)
    (host : world.State) : Machine world where
  heap := heap
  stack := scratch.stack
  frames := scratch.frames
  frameCache := scratch.frameCache
  constants := scratch.constants
  initializingConstants := false
  runningDrops := []
  pendingCapture := scratch.pendingCapture
  captured := scratch.captured
  executors := executors
  host := host

def ofMachine (machine : Machine world) : Scratch where
  stack := machine.stack
  frames := machine.frames
  frameCache := machine.frameCache
  constants := machine.constants
  pendingCapture := machine.pendingCapture
  captured := machine.captured

end Scratch

/-- A library on a heap that survives between calls.  The roots are the values
the consumer holds a name for, in the order of their names. -/
structure Instance where
  heap : Heap
  roots : List (UInt64 × Value)
  nextRoot : UInt64
  scratch : Scratch

namespace Instance

def new (addressOf : Nat → UInt64) : Instance where
  heap := Heap.new addressOf
  roots := []
  nextRoot := 1
  scratch := .empty

def root? (inst : Instance) (word : UInt64) : Option Value :=
  (inst.roots.find? fun entry => entry.1 == word).map Prod.snd

def discard (heap : Heap) (values : List Value) : Heap :=
  values.foldl Heap.dropValue heap

/-- Bring a caller's arguments in; a handle's object is copied. -/
def lowerArgs (inst : Instance) (function : UInt32) :
    Heap → List Value → List NativeArg → Except (VmError world.Error) (List Value) × Heap
  | heap, lowered, [] => (.ok lowered, heap)
  | heap, lowered, argument :: arguments =>
    match argument with
    | .handle word =>
      match inst.root? word with
      | some rooted =>
        let (value, heap) := heap.copyValue rooted
        inst.lowerArgs function heap (lowered ++ [value]) arguments
      | none => (.error (.danglingRoot word), discard heap lowered)
    | other =>
      match heap.lower other with
      | (some value, heap) => inst.lowerArgs function heap (lowered ++ [value]) arguments
      | (none, heap) =>
        (.error (.uncrossableExport function "this argument"), discard heap lowered)

/-- Turn a call's value into what crosses back; a struct is rooted. -/
def liftResult (inst : Instance) (function : UInt32) (result : Value) :
    Except (VmError world.Error) NativeResult × Instance :=
  match result with
  | .struct _ =>
    if inst.nextRoot.toNat + 1 < 2 ^ 64 then
      (.ok (.handle inst.nextRoot), { inst with
        roots := inst.roots ++ [(inst.nextRoot, result)]
        nextRoot := inst.nextRoot + 1 })
    else
      (.error .rootSpaceExhausted, { inst with heap := inst.heap.dropValue result })
  | .array _ =>
    (.error (.uncrossableExport function "an array result"),
      { inst with heap := inst.heap.dropValue result })
  | .enum _ =>
    (.error (.uncrossableExport function "an enum result"),
      { inst with heap := inst.heap.dropValue result })
  | scalar =>
    match inst.heap.liftTransfer scalar with
    | (some lifted, heap) => (.ok lifted, { inst with heap := heap })
    | (none, heap) =>
      (.error (.uncrossableExport function "this result"), { inst with heap := heap })

/-- One call.  A fault other than a trap leaves nothing to go on with. -/
def call (program : Program) (fuel : Nat) (inst : Instance) (host : world.State)
    (function : UInt32) (args : List NativeArg) :
    Except (Fault world.Error)
      (Except (VmError world.Error) NativeResult × Instance × world.State) :=
  match checkSignature program.code function args.length with
  | .error error => .ok (.error error, inst, host)
  | .ok () =>
    match inst.lowerArgs function inst.heap [] args with
    | (.error error, heap) => .ok (.error error, { inst with heap := heap }, host)
    | (.ok lowered, heap) =>
      let run : Vm world (Except (VmError world.Error) Value) := do
        let outcome ← attempt
          (enterValues program.code (program.unsliced fuel) function lowered)
        releaseUndeliveredChannelPayloads
        pure outcome
      match run (inst.scratch.machine heap world.newExecutors host) with
      | .error fault _ => .error fault
      | .ok outcome machine =>
        let after : Instance :=
          { inst with heap := machine.heap, scratch := .ofMachine machine }
        match outcome with
        | .error error => .ok (.error error, after, machine.host)
        | .ok result =>
          let (lifted, after) := after.liftResult function result
          .ok (lifted, after, machine.host)

/-- Release a root and what it owned; a `Drop` body has no interpreter to run in
here. -/
def release (inst : Instance) (root : UInt64) :
    Except (VmError world.Error) Unit × Instance :=
  match inst.root? root with
  | none => (.error (.danglingRoot root), inst)
  | some value =>
    (.ok (), { inst with
      roots := inst.roots.filter fun entry => entry.1 != root
      heap := (inst.heap.dropValue value).abandonPendingDrops })

end Instance

/-! ## Fibers -/

inductive FiberStep
  | suspended
  | finished
  deriving DecidableEq, Repr

/-- One lifecycle's execution, resumable across slices. -/
structure Fiber (world : World) where
  function : UInt32
  heap : Heap
  scratch : Scratch
  executors : world.Executors
  started : Bool
  finished : Bool

namespace Fiber

def new (function : UInt32) (addressOf : Nat → UInt64) : Fiber world where
  function := function
  heap := Heap.new addressOf
  scratch := .empty
  executors := world.newExecutors
  started := false
  finished := false

def slice (program : Program) (fuel budget : Nat) (fiber : Fiber world) : Vm world Dispatched :=
  let loop := dispatch program.code fuel (some budget) none
  if fiber.started then dispatchFrames program.code loop
  else enterSliced program.code (program.unsliced fuel) loop fiber.function

/-- Give up what a run that is over still holds. -/
def closeSlice (outcome : Except (VmError world.Error) Dispatched) : Vm world Unit :=
  match outcome with
  | .ok .suspended => pure ()
  | .ok (.completed _) => do
    releaseConstants
    releaseUndeliveredChannelPayloads
  | .error _ => releaseUndeliveredChannelPayloads

/-- Run up to so many instructions. -/
def step (program : Program) (fuel budget : Nat) (fiber : Fiber world) (host : world.State) :
    Except (Fault world.Error)
      (Except (VmError world.Error) FiberStep × Fiber world × world.State) :=
  if fiber.finished then .ok (.ok .finished, fiber, host)
  else
    let run : Vm world (Except (VmError world.Error) Dispatched) := do
      let outcome ← attempt (fiber.slice program fuel budget)
      closeSlice outcome
      pure outcome
    match run (fiber.scratch.machine fiber.heap fiber.executors host) with
    | .error fault _ => .error fault
    | .ok outcome machine =>
      let after : Fiber world := { fiber with
        heap := machine.heap
        scratch := .ofMachine machine
        executors := machine.executors
        started := true }
      match outcome with
      | .error error => .ok (.error error, { after with finished := true }, machine.host)
      | .ok (.completed value) =>
        .ok (.ok .finished, { after with heap := after.heap.dropValue value, finished := true },
          machine.host)
      | .ok .suspended => .ok (.ok .suspended, after, machine.host)

end Fiber

end KiraVm
