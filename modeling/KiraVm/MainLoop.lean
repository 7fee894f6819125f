import KiraVm.HostModel
import KiraVm.StateLogic

/-!
# The main-thread event loop

The caller's thread carries out what the helper thread asks for, what it queued
for later, and one slice of every lifecycle in turn.  Code that runs on the loop
may ask for the same operations; they are carried out at once, inside the call
that asked.  The loop's tables are reference cells: taking one that an enclosing
call still holds is a panic.
-/

namespace KiraVm

open StateLogic

/-- Why a main-thread request could not be completed. -/
inductive MainThreadError
  | noHost
  | unknownFunction (function : UInt32)
  | unknownHandle (handle : UInt64)
  | wrongResponse (operation : String)
  | function (message : String)
  deriving DecidableEq, Repr

/-- What a target answers; `none` is `Void`. -/
abbrev TargetResult : Type :=
  Except MainThreadError (Option NativeStateValue)

/-- What code on the loop does: its main-thread operations, each going by the
answers to those before it, and its result. -/
inductive Script (α : Type)
  | done (result : α)
  | request (request : MainThreadRequest)
      (next : Except MainThreadError MainThreadResponse → Script α)
  | join (handle : UInt64) (next : Except MainThreadError NativeStateValue → Script α)

/-- The code that runs on the loop.  What it does may differ from call to call,
so every call is numbered; `slice` steps a lifecycle and answers whether it has
finished, and `lifecycles` are the lifecycle functions of the module. -/
structure Runner where
  call : Nat → MainThreadRequest → Script TargetResult
  startLifecycle : Nat → UInt32 → Except MainThreadError Bool
  pumpLifecycles : Nat → Except MainThreadError Bool
  slice : Nat → UInt32 → Script (Except MainThreadError Bool)
  lifecycles : List UInt32

/-- A message of the helper thread. -/
inductive Job
  | request (request : MainThreadRequest)
  | join (handle : UInt64)
  | finished

/-- A task that was spawned. -/
inductive MainTask
  | queued (request : MainThreadRequest)
  | finished (result : TargetResult)

/-- A lifecycle the loop carries. -/
structure LifecycleFiber where
  function : UInt32
  finished : Bool
  deriving DecidableEq, Repr

/-- The reference cells of the loop. -/
inductive Cell
  | tasks | posts | fibers
  deriving DecidableEq, Repr

/-- What the loop is in the middle of, the innermost first. -/
inductive LoopFrame
  | invoked
  | deferredPost (request : MainThreadRequest)
  | deferredTask (handle : UInt64) (request : MainThreadRequest)
  | joinedTask (handle : UInt64) (request : MainThreadRequest)
  | slice

/-- The operations that take a cell. -/
inductive Attempt
  | post | spawn | join | lifecycle
  deriving DecidableEq, Repr

/-- What is recorded of a run: the operations that take cells, the answers to requests
and to joins, and the calls of the runner, each under its number and for the caller
that the loop is then in the middle of. -/
inductive LoopEvent
  | attempted (attempt : Attempt) (frames : List LoopFrame)
  | answered (request : MainThreadRequest) (answer : Except MainThreadError MainThreadResponse)
  | called (caller : Option LoopFrame) (call : Nat) (request : MainThreadRequest)
  | returned (caller : Option LoopFrame) (call : Nat) (request : MainThreadRequest)
      (result : TargetResult)
  | joined (handle : UInt64) (own : Bool) (answer : Except MainThreadError NativeStateValue)

/-- The state of the loop.  `jobs` are the messages to come, `none` where the
channel is found empty; `borrowed` says which cells are held.  The last three
fields record the run: how often foreign code was called, what the loop is in the
middle of, and what has happened. -/
structure MainLoop where
  tasks : List (UInt64 × MainTask)
  posts : List MainThreadRequest
  nextHandle : UInt64
  deferredError : Option MainThreadError
  externalLifecycles : Bool
  fibers : List LifecycleFiber
  jobs : List (Option Job)
  borrowed : Cell → Bool
  calls : Nat
  frames : List LoopFrame
  log : List LoopEvent

/-- How a run of the loop ends early. -/
inductive Halt
  | panic
  | outOfFuel
  deriving DecidableEq, Repr

abbrev OnLoop (α : Type) : Type :=
  EStateM Halt MainLoop α

namespace MainLoop

def new (jobs : List (Option Job)) : MainLoop where
  tasks := []
  posts := []
  nextHandle := 1
  deferredError := none
  externalLifecycles := false
  fibers := []
  jobs := jobs
  borrowed := fun _ => false
  calls := 0
  frames := []
  log := []

/-! ## Cells and records -/

def record (event : LoopEvent) : OnLoop Unit :=
  modify fun loop => { loop with log := loop.log ++ [event] }

/-- Record an operation before it takes its cell. -/
def attempt (operation : Attempt) : OnLoop Unit :=
  modify fun loop => { loop with log := loop.log ++ [.attempted operation loop.frames] }

/-- Take a cell for the length of one statement; `checks` says whether taking a
cell that is held panics. -/
def borrow (checks : Bool) (cell : Cell) : OnLoop Unit := do
  let loop ← get
  if checks && loop.borrowed cell then throw .panic

def setBorrowed (cell : Cell) (held : Bool) : OnLoop Unit :=
  modify fun loop =>
    { loop with borrowed := fun other => if other = cell then held else loop.borrowed other }

/-- Hold a cell while something else runs. -/
def holding {α : Type} (cell : Cell) (body : OnLoop α) : OnLoop α := do
  setBorrowed cell true
  let answer ← body
  setBorrowed cell false
  pure answer

def pushFrame (frame : LoopFrame) : OnLoop Unit :=
  modify fun loop => { loop with frames := frame :: loop.frames }

def popFrame : OnLoop Unit :=
  modify fun loop => { loop with frames := loop.frames.tail }

def inFrame {α : Type} (frame : LoopFrame) (body : OnLoop α) : OnLoop α := do
  pushFrame frame
  let answer ← body
  popFrame
  pure answer

def nextCall : OnLoop Nat := do
  let loop ← get
  set { loop with calls := loop.calls + 1 }
  pure loop.calls

/-- Keep the first failure nobody waits for. -/
def deferError : Except MainThreadError α → OnLoop Unit
  | .ok _ => pure ()
  | .error error =>
    modify fun loop => { loop with deferredError := some (loop.deferredError.getD error) }

/-! ## Tasks -/

def insertTask (handle : UInt64) (task : MainTask) : OnLoop Unit :=
  modify fun loop =>
    { loop with tasks := (loop.tasks.filter fun entry => entry.1 ≠ handle) ++ [(handle, task)] }

def removeTask (handle : UInt64) : OnLoop (Option MainTask) := do
  let loop ← get
  set { loop with tasks := loop.tasks.filter fun entry => entry.1 ≠ handle }
  pure (loop.tasks.lookup handle)

def leastQueued : List (UInt64 × MainTask) → Option UInt64
  | [] => none
  | (handle, .queued _) :: tasks =>
    match leastQueued tasks with
    | none => some handle
    | some other => some (if handle ≤ other then handle else other)
  | (_, .finished _) :: tasks => leastQueued tasks

/-- A new handle; the last one is not counted past. -/
def allocateHandle : OnLoop UInt64 := do
  let loop ← get
  let handle := loop.nextHandle
  set { loop with
    nextHandle := if loop.nextHandle.toNat + 1 < 2 ^ 64 then loop.nextHandle + 1
      else loop.nextHandle }
  pure handle

/-! ## Requests -/

section Requests

variable (checks : Bool) (runner : Runner) (execute : MainThreadRequest → OnLoop TargetResult)

/-- Register or carry out a request. -/
def responseTo (request : MainThreadRequest) :
    OnLoop (Except MainThreadError MainThreadResponse) :=
  match request.operation with
  | .invoke => do
    let result ← inFrame .invoked (execute request)
    pure (result.map fun value =>
      match value with
      | some value => .value value
      | none => .posted)
  | .spawn => do
    let handle ← allocateHandle
    attempt .spawn
    borrow checks .tasks
    insertTask handle (.queued request)
    pure (.ok (.spawned handle))
  | .post => do
    attempt .post
    borrow checks .posts
    modify fun loop => { loop with posts := loop.posts ++ [request] }
    pure (.ok .posted)
  | .lifecycleStart => do
    let call ← nextCall
    match runner.startLifecycle call request.function with
    | .error error => pure (.error error)
    | .ok true => do
      modify fun loop => { loop with externalLifecycles := true }
      pure (.ok .posted)
    | .ok false =>
      if request.function ∈ runner.lifecycles then do
        attempt .lifecycle
        borrow checks .fibers
        modify fun loop => { loop with fibers := loop.fibers ++ [⟨request.function, false⟩] }
        pure (.ok .posted)
      else
        pure (.error (.unknownFunction request.function))

def requestResponse (request : MainThreadRequest) :
    OnLoop (Except MainThreadError MainThreadResponse) := do
  let answer ← responseTo checks runner execute request
  record (.answered request answer)
  pure answer

/-- A joined `Void` is the integer zero. -/
def joinValue (result : TargetResult) : Except MainThreadError NativeStateValue :=
  result.map fun value => value.getD (.int 0)

/-- Join a task, and run it first if it is still queued.  The table is held until
the join is over. -/
def join (handle : UInt64) : OnLoop (Except MainThreadError NativeStateValue) := do
  attempt .join
  borrow checks .tasks
  let found ← removeTask handle
  let result ← holding .tasks <|
    match found with
    | some (.queued request) =>
      inFrame (.joinedTask handle request) (execute request)
    | some (.finished result) => pure result
    | none => pure (.error (.unknownHandle handle))
  record (.joined handle found.isSome (joinValue result))
  pure (joinValue result)

/-- Carry out what code on the loop does. -/
def execScript {α : Type} : Script α → OnLoop α
  | .done result => pure result
  | .request request next => do
    let answer ← requestResponse checks runner execute request
    execScript (next answer)
  | .join handle next => do
    let answer ← join checks execute handle
    execScript (next answer)

end Requests

def recordCall (request : MainThreadRequest) : OnLoop Nat := do
  let call ← nextCall
  modify fun loop => { loop with log := loop.log ++ [.called loop.frames.head? call request] }
  pure call

def recordReturn (call : Nat) (request : MainThreadRequest) (result : TargetResult) :
    OnLoop Unit :=
  modify fun loop =>
    { loop with log := loop.log ++ [.returned loop.frames.head? call request result] }

/-- Call the runner.  Nothing else does. -/
def executeRequest (checks : Bool) (runner : Runner) : Nat → MainThreadRequest → OnLoop TargetResult
  | 0, request => do
    let _ ← recordCall request
    throw .outOfFuel
  | depth + 1, request => do
    let call ← recordCall request
    let result ← execScript checks runner (executeRequest checks runner depth)
      (runner.call call request)
    recordReturn call request result
    pure result

/-! ## The loop -/

section Loop

variable (checks : Bool) (runner : Runner) (depth : Nat)

def sliceFiber (index : Nat) : OnLoop Unit := do
  let loop ← get
  match loop.fibers[index]? with
  | none => pure ()
  | some fiber =>
    if fiber.finished then pure ()
    else do
      let call ← nextCall
      let result ← inFrame .slice <|
        execScript checks runner (executeRequest checks runner depth)
          (runner.slice call fiber.function)
      -- a lifecycle that failed is over too
      let ended := match result with
        | .ok finished => finished
        | .error _ => true
      modify fun loop => { loop with fibers := loop.fibers.set index ⟨fiber.function, ended⟩ }
      deferError result

def sliceFibers : List Nat → OnLoop Unit
  | [] => pure ()
  | index :: indices => do
    sliceFiber checks runner depth index
    sliceFibers indices

/-- Give every unfinished lifecycle one slice; the fibers are held meanwhile. -/
def pumpLifecycles : OnLoop Unit := do
  borrow checks .fibers
  let loop ← get
  holding .fibers (sliceFibers checks runner depth (List.range loop.fibers.length))
  let call ← nextCall
  match runner.pumpLifecycles call with
  | .ok active => modify fun loop => { loop with externalLifecycles := active }
  | .error error => do
    modify fun loop => { loop with externalLifecycles := false }
    deferError (.error error : Except MainThreadError Unit)

def lifecyclesFinished : OnLoop Bool := do
  borrow checks .fibers
  let loop ← get
  pure (loop.fibers.all LifecycleFiber.finished && !loop.externalLifecycles)

/-- Carry out one queued post, or the least spawned task, and answer whether there
was one.  The posts are held while a post runs. -/
def serviceOneDeferred : OnLoop Bool := do
  borrow checks .posts
  let loop ← get
  match loop.posts with
  | request :: posts => do
    set { loop with posts := posts }
    let result ← holding .posts <| inFrame (.deferredPost request) <|
      executeRequest checks runner depth request
    deferError result
    pure true
  | [] => do
    borrow checks .tasks
    let loop ← get
    match leastQueued loop.tasks with
    | none => pure false
    | some handle => do
      borrow checks .tasks
      match ← removeTask handle with
      | some (.queued request) => do
        inFrame (.deferredTask handle request) do
          let result ← executeRequest checks runner depth request
          deferError result
          borrow checks .tasks
          insertTask handle (.finished result)
        pure true
      | _ => pure false

/-- Carry out one message, and answer whether the helper has ended. -/
def service : Job → OnLoop Bool
  | .request request => do
    let _ ← requestResponse checks runner (executeRequest checks runner depth) request
    pure false
  | .join handle => do
    let _ ← join checks (executeRequest checks runner depth) handle
    pure false
  | .finished => pure true

/-- The next message, skipping the times there was none. -/
def receive : List (Option Job) → Option (Job × List (Option Job))
  | [] => none
  | none :: jobs => receive jobs
  | some job :: jobs => some (job, jobs)

/-- Look for a message; without a lifecycle to pump, wait for one.  The outer
`none` is a channel without senders. -/
def nextJob (idle : Bool) : OnLoop (Option (Option Job)) := do
  let loop ← get
  if idle then
    match receive loop.jobs with
    | none => pure none
    | some (job, jobs) => do
      set { loop with jobs := jobs }
      pure (some (some job))
  else
    match loop.jobs with
    | [] => pure none
    | found :: jobs => do
      set { loop with jobs := jobs }
      pure (some found)

def serve : Nat → Bool → OnLoop Unit
  | 0, _ => throw .outOfFuel
  | fuel + 1, helperDone => do
    pumpLifecycles checks runner depth
    if ← serviceOneDeferred checks runner depth then
      serve fuel helperDone
    else do
      let idle ← lifecyclesFinished checks
      if helperDone && idle then pure ()
      else
        match ← nextJob idle with
        | none => if idle then pure () else serve fuel helperDone
        | some none => serve fuel helperDone
        | some (some job) => do
          let ended ← service checks runner depth job
          serve fuel (helperDone || ended)

/-- Carry out everything that is still queued. -/
def drainDeferred : Nat → OnLoop Unit
  | 0 => throw .outOfFuel
  | fuel + 1 => do
    if ← serviceOneDeferred checks runner depth then drainDeferred fuel else pure ()

/-- The loop, for a number of turns. -/
def run (fuel : Nat) : OnLoop Unit := do
  serve checks runner depth fuel false
  drainDeferred checks runner depth fuel

/-! ## What a run keeps -/

section Turns

open StateLogic

/-- The parts of a turn keep what has to hold of the loop. -/
structure Turning (kept : MainLoop → Prop) (stopped : Halt → MainLoop → Prop) : Prop where
  pumped : Safe kept stopped (pumpLifecycles checks runner depth)
  deferred : Safe kept stopped (serviceOneDeferred checks runner depth)
  looked : Safe kept stopped (lifecyclesFinished checks)
  served (job : Job) : Safe kept stopped (service checks runner depth job)
  taken {loop : MainLoop} : kept loop → ∀ jobs, kept { loop with jobs := jobs }
  spent {loop : MainLoop} : kept loop → stopped .outOfFuel loop

variable {checks runner depth} {kept : MainLoop → Prop} {stopped : Halt → MainLoop → Prop}

theorem Turning.nextJob (turning : Turning checks runner depth kept stopped) (idle : Bool) :
    Safe kept stopped (nextJob idle) := by
  apply Safe.of_state
  intro loop holds
  split
  · split
    · exact Safe.pure _
    · exact Safe.of_bind (Safe.set (turning.taken holds _)) fun _ => Safe.pure _
  · split
    · exact Safe.pure _
    · exact Safe.of_bind (Safe.set (turning.taken holds _)) fun _ => Safe.pure _

theorem Turning.serve (turning : Turning checks runner depth kept stopped) (fuel : Nat)
    (helperDone : Bool) : Safe kept stopped (serve checks runner depth fuel helperDone) := by
  induction fuel generalizing helperDone with
  | zero => exact Safe.throw fun _ holds => turning.spent holds
  | succ fuel ih =>
    apply Safe.of_bind turning.pumped
    intro _
    apply Safe.of_bind turning.deferred
    intro served
    split
    · exact ih helperDone
    · apply Safe.of_bind turning.looked
      intro idle
      split
      · exact Safe.pure _
      · apply Safe.of_bind (turning.nextJob idle)
        intro job
        split
        · split
          · exact Safe.pure _
          · exact ih helperDone
        · exact ih helperDone
        · exact Safe.of_bind (turning.served _) fun ended => ih _

theorem Turning.drainDeferred (turning : Turning checks runner depth kept stopped) (fuel : Nat) :
    Safe kept stopped (drainDeferred checks runner depth fuel) := by
  induction fuel with
  | zero => exact Safe.throw fun _ holds => turning.spent holds
  | succ fuel ih =>
    apply Safe.of_bind turning.deferred
    intro served
    split
    · exact ih
    · exact Safe.pure _

theorem Turning.run (turning : Turning checks runner depth kept stopped) (fuel : Nat) :
    Safe kept stopped (run checks runner depth fuel) :=
  Safe.of_bind (turning.serve fuel false) fun _ => turning.drainDeferred fuel

end Turns

end Loop

/-- Whether a run panicked. -/
def panicked : EStateM.Result Halt MainLoop Unit → Bool
  | .error .panic _ => true
  | _ => false

/-- Where a run ended. -/
def endState : EStateM.Result Halt MainLoop Unit → MainLoop
  | .ok _ loop => loop
  | .error _ loop => loop

end MainLoop

end KiraVm
