import KiraVm.SeamSafety
import KiraVm.StateLogic

/-!
# Sound machines

A sound machine has a tidy heap and a host that can be trusted with trees.  Its
frames, operand stack and constants are described by predicates of their own, so
that an operation which leaves one of them alone keeps every predicate of it.
An operation is safe when it keeps the machine sound and never indexes one of
the interpreter's tables out of bounds.
-/

namespace KiraVm

open StateLogic

/-! ## Trusted hosts -/

def AnswersGlue (allowed : UInt32 → Prop) {ε : Type} (answer : Except ε NativeStateValue) : Prop :=
  ∀ tree, answer = .ok tree → tree.AllGlue allowed

/-- A host that enters the interpreter with allowed trees only, and goes on as
long as it gets only allowed trees back. -/
def HostScript.Trusted {σ ε α : Type} (allowed : UInt32 → Prop) (good : σ → Prop)
    (answers : α → Prop) : HostScript σ ε α → Prop
  | .done answer host => answers answer ∧ good host
  | .enter host _ args _ next =>
    good host ∧ (∀ argument ∈ args, argument.AllGlue allowed) ∧
      ∀ returned after, good after →
        (∀ values, returned = .ok values → values.AllGlue allowed) →
        (next returned after).Trusted allowed good answers

/-- The host's functions lead from good states to good states, and the trees they
answer name only allowed bodies as long as the trees they are given do. -/
structure World.Trusted (world : World) (allowed : UInt32 → Prop) (good : world.State → Prop) :
    Prop where
  writeLine : ∀ text host, good host → good (world.writeLine text host)
  callNative : ∀ id args host, good host → (∀ argument ∈ args, argument.AllGlue allowed) →
    (world.callNative id args host).Trusted allowed good fun answer =>
      ∀ returned, answer = .ok returned → returned.AllGlue allowed
  callForeign : ∀ id args host, good host →
    (world.callForeign id args host).Trusted allowed good fun _ => True
  foreignCallback : ∀ id host, good host → good (world.foreignCallback id host).2
  channelOp : ∀ prim first second third host, good host →
    good (world.channelOp prim first second third host).2
  mainThread : ∀ request host, good host → (∀ tree ∈ request.args, tree.AllGlue allowed) →
    good (world.mainThread request host).2 ∧
      ∀ tree, (world.mainThread request host).1 = .ok (.value tree) → tree.AllGlue allowed
  mainThreadJoin : ∀ handle host, good host →
    good (world.mainThreadJoin handle host).2 ∧
      AnswersGlue allowed (world.mainThreadJoin handle host).1
  nativeStateCreateDropping : ∀ typeWord tree glue host, good host → tree.AllGlue allowed →
    (∀ body ∈ glue, allowed body) →
    good (world.nativeStateCreateDropping typeWord tree glue host).2
  nativeStateCheck : ∀ token typeWord host, good host →
    good (world.nativeStateCheck token typeWord host).2
  nativeStateRecover : ∀ token typeWord host, good host →
    good (world.nativeStateRecover token typeWord host).2 ∧
      AnswersGlue allowed (world.nativeStateRecover token typeWord host).1
  nativeStateReplace : ∀ token typeWord tree host, good host → tree.AllGlue allowed →
    good (world.nativeStateReplace token typeWord tree host).2
  nativeStateRead : ∀ token typeWord path host, good host →
    good (world.nativeStateRead token typeWord path host).2 ∧
      AnswersGlue allowed (world.nativeStateRead token typeWord path host).1
  nativeStateWrite : ∀ token typeWord path tree host, good host → tree.AllGlue allowed →
    good (world.nativeStateWrite token typeWord path tree host).2 ∧
      AnswersGlue allowed (world.nativeStateWrite token typeWord path tree host).1
  nativeStateAppend : ∀ token typeWord path tree host, good host → tree.AllGlue allowed →
    good (world.nativeStateAppend token typeWord path tree host).2
  nativeStateRetain : ∀ token host, good host → good (world.nativeStateRetain token host).2
  nativeStateRelease : ∀ token host, good host → good (world.nativeStateRelease token host).2
  nativeStateReleaseDropping : ∀ token host, good host →
    good (world.nativeStateReleaseDropping token host).2 ∧
      ∀ tree, (world.nativeStateReleaseDropping token host).1 = .ok (some tree) →
        tree.AllGlue allowed
  fileSystem : ∀ request host, good host → good (world.fileSystem request host).2
  compiler : ∀ op request host, good host → good (world.compiler op request host).2
  envText : ∀ name host, good host → good (world.envText name host).2
  envIsSet : ∀ name host, good host → good (world.envIsSet name host).2
  envArgumentCount : ∀ host, good host → good (world.envArgumentCount host).2
  envArgument : ∀ index host, good host → good (world.envArgument index host).2
  envSleep : ∀ milliseconds host, good host → good (world.envSleep milliseconds host)
  readBytes : ∀ address offset size host, good host →
    good (world.readBytes address offset size host).2
  releasedCells : ∀ heap held host, good host → good (world.releasedCells heap held host).2
  ownerEvents : ∀ heap held host, good host → good (world.ownerEvents heap held host).2

/-- Host states that can be trusted. -/
structure Trust (world : World) (allowed : UInt32 → Prop) where
  good : world.State → Prop
  keeps : world.Trusted allowed good

/-! ## Frames -/

/-- A frame of a bytecode function, with a slot for each of its locals. -/
structure Frame.Shaped (program : Module) (frame : Frame) (function : FuncProto) : Prop where
  known : program.functions[frame.func.toNat]? = some function
  bytecode : function.isNative = false
  locals : frame.locals.length = function.localCount.toNat
  live : frame.live.length = function.localCount.toNat

/-- A frame with an instruction to go on with. -/
def Frame.Ready (program : Module) (frame : Frame) : Prop :=
  ∃ function, frame.Shaped program function ∧ frame.pc < function.code.length

/-- The places a frame writes back to are slots of its caller. -/
def Frame.WritesInto (frame : Frame) (callers : List Frame) : Prop :=
  ∀ writeback ∈ frame.writebacks, ∀ caller ∈ callers.head?,
    writeback.slot.toNat < caller.locals.length

/-- Every frame can go on, and returns into its caller. -/
def FramesReady (program : Module) : List Frame → Prop
  | [] => True
  | frame :: callers =>
    frame.Ready program ∧ frame.WritesInto callers ∧ FramesReady program callers

/-- There is a running frame, of so many slots. -/
structure Running (program : Module) (width : Nat) (frames : List Frame) : Prop where
  ready : FramesReady program frames
  top : ∃ frame ∈ frames.head?, frame.locals.length = width

namespace Running

variable {program : Module} {width : Nat} {frames : List Frame}

theorem cases_on (running : Running program width frames) :
    ∃ frame callers, frames = frame :: callers ∧ frame.locals.length = width := by
  rcases running.top with ⟨frame, found, length⟩
  cases frames with
  | nil => cases found
  | cons _ callers =>
    cases found
    exact ⟨frame, callers, rfl, length⟩

theorem change {frame after : Frame} {callers : List Frame}
    (running : Running program width (frame :: callers)) (func : after.func = frame.func)
    (pc : after.pc = frame.pc) (locals : after.locals.length = frame.locals.length)
    (live : after.live.length = frame.live.length) (writebacks : after.writebacks = frame.writebacks) :
    Running program width (after :: callers) := by
  rcases running with ⟨⟨⟨function, shaped, inside⟩, writes, callersReady⟩, top, found, length⟩
  cases found
  refine ⟨⟨⟨function, ⟨?_, shaped.bytecode, ?_, ?_⟩, ?_⟩, ?_, callersReady⟩, after, rfl, ?_⟩
  · rw [func]
    exact shaped.known
  · rw [locals]
    exact shaped.locals
  · rw [live]
    exact shaped.live
  · rw [pc]
    exact inside
  · unfold Frame.WritesInto
    rw [writebacks]
    exact writes
  · rw [locals]
    exact length

end Running

/-! ## Soundness -/

/-- The machine's heap and host keep to the allowed bodies, and its tables are as
described. -/
structure Machine.Sound {world : World} {allowed : UInt32 → Prop} (trust : Trust world allowed)
    (frames : List Frame → Prop) (stack constants : List Value → Prop)
    (machine : Machine world) : Prop where
  heap : machine.heap.Tidy allowed
  host : trust.good machine.host
  frames : frames machine.frames
  stack : stack machine.stack
  constants : constants machine.constants

/-- No demand on a table. -/
def Any {α : Type} (_ : α) : Prop := True

namespace Machine.Sound

variable {world : World} {allowed : UInt32 → Prop} {trust : Trust world allowed}
  {frames : List Frame → Prop} {stack constants : List Value → Prop} {machine : Machine world}

theorem anyStack (sound : machine.Sound trust frames stack constants) :
    machine.Sound trust frames Any constants :=
  ⟨sound.heap, sound.host, sound.frames, trivial, sound.constants⟩

theorem anyFrames (sound : machine.Sound trust frames stack constants) :
    machine.Sound trust Any stack constants :=
  ⟨sound.heap, sound.host, trivial, sound.stack, sound.constants⟩

theorem anyConstants (sound : machine.Sound trust frames stack constants) :
    machine.Sound trust frames stack Any :=
  ⟨sound.heap, sound.host, sound.frames, sound.stack, trivial⟩

theorem weakenFrames {weaker : List Frame → Prop}
    (sound : machine.Sound trust frames stack constants)
    (implies : ∀ list, frames list → weaker list) : machine.Sound trust weaker stack constants :=
  ⟨sound.heap, sound.host, implies _ sound.frames, sound.stack, sound.constants⟩

end Machine.Sound

/-- How an operation may stop: with an error after which the machine is as
described, or because it was not followed to its end.  An index out of bounds is
no way to stop. -/
def Stops {world : World} (after : Machine world → Prop) :
    Fault world.Error → Machine world → Prop
  | .trap _, machine => after machine
  | .panic, _ => False
  | .outOfFuel, _ => True

theorem Stops.imp {world : World} {after weaker : Machine world → Prop}
    (implies : ∀ machine, after machine → weaker machine) {fault : Fault world.Error}
    {machine : Machine world} (stopped : Stops after fault machine) :
    Stops weaker fault machine := by
  cases fault with
  | trap error => exact implies machine stopped
  | panic => exact stopped
  | outOfFuel => exact stopped

/-- An operation that keeps the machine sound and does not panic. -/
abbrev SafeVm {world : World} {allowed : UInt32 → Prop} (trust : Trust world allowed)
    (frames : List Frame → Prop) (stack constants : List Value → Prop) {α : Type}
    (operation : Vm world α) : Prop :=
  Safe (Machine.Sound trust frames stack constants)
    (Stops (Machine.Sound trust frames stack constants)) operation

/-- A safe operation whose answer has a property. -/
abbrev YieldsVm {world : World} {allowed : UInt32 → Prop} (trust : Trust world allowed)
    (frames : List Frame → Prop) (stack constants : List Value → Prop) {α : Type}
    (operation : Vm world α) (holds : α → Prop) : Prop :=
  Yields (Machine.Sound trust frames stack constants)
    (Stops (Machine.Sound trust frames stack constants)) operation holds

theorem meets_anyFrames {world : World} {allowed : UInt32 → Prop} {trust : Trust world allowed}
    {frames : List Frame → Prop} {stack constants : List Value → Prop} {α : Type}
    {operation : Vm world α} (safe : SafeVm trust frames stack constants operation) :
    Meets (Machine.Sound trust frames stack constants) operation
      (fun _ => Machine.Sound trust frames stack constants)
      (Stops (Machine.Sound trust Any stack constants)) :=
  safe.meets.weaken (fun _ sound => sound) (fun _ _ sound => sound)
    fun _ _ => Stops.imp fun _ sound => sound.anyFrames

/-- An operation of the heap that keeps it tidy. -/
class TidyOperation (allowed : UInt32 → Prop) {α : Type} (operation : Heap → α × Heap) : Prop where
  tidy : ∀ heap, heap.Tidy allowed → (operation heap).2.Tidy allowed

/-- A question to the host that leads from good states to good states. -/
class GoodQuestion {world : World} {allowed : UInt32 → Prop} (trust : Trust world allowed)
    {α : Type} (question : world.State → α × world.State) : Prop where
  good : ∀ host, trust.good host → trust.good (question host).2

namespace Vm

variable {world : World} {allowed : UInt32 → Prop} {trust : Trust world allowed}
  {frames : List Frame → Prop} {stack constants : List Value → Prop} {α β : Type}

/-! ## Stopping -/

instance trap_safe (error : VmError world.Error) :
    SafeVm trust frames stack constants (trap error : Vm world α) :=
  Safe.throw fun _ sound => sound

instance orTrap_safe (error : VmError world.Error) (answer : Option α) :
    SafeVm trust frames stack constants (orTrap error answer : Vm world α) := by
  cases answer <;> unfold orTrap <;> infer_instance

theorem orTrap_yields {error : VmError world.Error} {answer : Option α} (holds : α → Prop)
    (present : ∀ value, answer = some value → holds value) :
    YieldsVm trust frames stack constants (orTrap error answer : Vm world α) holds := by
  cases answer with
  | none => exact .throw fun _ sound => sound
  | some value => exact .pure (present value rfl)

instance ofExcept_safe (answer : Except (VmError world.Error) α) :
    SafeVm trust frames stack constants (Vm.ofExcept answer : Vm world α) := by
  cases answer <;> unfold Vm.ofExcept <;> infer_instance

theorem ofExcept_yields {answer : Except (VmError world.Error) α} (holds : α → Prop)
    (present : ∀ value, answer = .ok value → holds value) :
    YieldsVm trust frames stack constants (Vm.ofExcept answer : Vm world α) holds := by
  cases answer with
  | ok value => exact .pure (present value rfl)
  | error error => exact .throw fun _ sound => sound

theorem onTrap_meets {pre failed after : Machine world → Prop} {post : α → Machine world → Prop}
    {operation : Vm world α} {cleanUp : Vm world Unit}
    (first : Meets pre operation post (Stops failed))
    (second : Meets failed cleanUp (fun _ => after) (Stops after)) :
    Meets pre (onTrap operation cleanUp) post (Stops after) := by
  intro machine holds
  have reached := first machine holds
  unfold onTrap
  cases ran : operation machine with
  | ok answer reachedMachine =>
    rw [ran] at reached
    exact reached
  | error fault stopped =>
    rw [ran] at reached
    cases fault with
    | trap error =>
      have cleaned := second stopped reached
      simp only [SeqRight.seqRight, EStateM.seqRight]
      cases cleaning : cleanUp stopped with
      | ok _ clean =>
        rw [cleaning] at cleaned
        exact cleaned
      | error fault clean =>
        rw [cleaning] at cleaned
        exact cleaned
    | panic => exact reached
    | outOfFuel => exact reached

instance onTrap_safe (operation : Vm world α) (cleanUp : Vm world Unit)
    [first : SafeVm trust frames stack constants operation]
    [second : SafeVm trust frames stack constants cleanUp] :
    SafeVm trust frames stack constants (onTrap operation cleanUp) :=
  ⟨onTrap_meets first.meets second.meets⟩

/-! ## The heap and the host -/

theorem onHeap_yields {operation : Heap → α × Heap} (holds : α → Prop)
    (kept : ∀ heap, heap.Tidy allowed →
      holds (operation heap).1 ∧ (operation heap).2.Tidy allowed) :
    YieldsVm trust frames stack constants (onHeap operation : Vm world α) holds := by
  intro machine sound
  have after := kept machine.heap sound.heap
  exact ⟨after.1, after.2, sound.host, sound.frames, sound.stack, sound.constants⟩

variable {fail : Fault world.Error → Machine world → Prop}

theorem onHeap_keeps {operation : Heap → α × Heap}
    (kept : ∀ heap, heap.Tidy allowed → (operation heap).2.Tidy allowed) :
    Safe (Machine.Sound trust frames stack constants) fail (onHeap operation : Vm world α) :=
  ⟨fun machine sound =>
    ⟨kept machine.heap sound.heap, sound.host, sound.frames, sound.stack, sound.constants⟩⟩

instance onHeap_safe (operation : Heap → α × Heap) [kept : TidyOperation allowed operation] :
    Safe (Machine.Sound trust frames stack constants) fail (onHeap operation : Vm world α) :=
  onHeap_keeps kept.tidy

theorem readHeap_yields {reader : Heap → α} (holds : α → Prop)
    (seen : ∀ heap, heap.Tidy allowed → holds (reader heap)) :
    YieldsVm trust frames stack constants (readHeap reader : Vm world α) holds :=
  fun machine sound => ⟨seen machine.heap sound.heap, sound⟩

instance readHeap_safe (reader : Heap → α) :
    SafeVm trust frames stack constants (readHeap reader : Vm world α) :=
  ⟨fun _ sound => sound⟩

instance tryHeap_safe (operation : Heap → Except (VmError world.Error) α × Heap)
    [kept : TidyOperation allowed operation] :
    SafeVm trust frames stack constants (tryHeap operation) := by
  unfold tryHeap
  infer_instance

instance dropValue_safe (value : Value) :
    Safe (Machine.Sound trust frames stack constants) fail (dropValue value : Vm world Unit) :=
  onHeap_keeps fun _ tidy => tidy.dropValue value

instance discard_safe (values : List Value) :
    Safe (Machine.Sound trust frames stack constants) fail (discard values : Vm world Unit) := by
  induction values with
  | nil =>
    unfold discard
    infer_instance
  | cons value values ih =>
    unfold discard
    infer_instance

theorem askHost_yields {question : world.State → α × world.State} (holds : α → Prop)
    (kept : ∀ host, trust.good host →
      trust.good (question host).2 ∧ holds (question host).1) :
    YieldsVm trust frames stack constants (askHost question : Vm world α) holds := by
  intro machine sound
  have after := kept machine.host sound.host
  exact ⟨after.2, sound.heap, after.1, sound.frames, sound.stack, sound.constants⟩

instance askHost_safe (question : world.State → α × world.State)
    [kept : GoodQuestion trust question] :
    Safe (Machine.Sound trust frames stack constants) fail (askHost question : Vm world α) :=
  ⟨fun machine sound =>
    ⟨sound.heap, kept.good machine.host sound.host, sound.frames, sound.stack, sound.constants⟩⟩

theorem tryHost_yields {wrap : world.Error → VmError world.Error}
    {question : world.State → Except world.Error α × world.State} (holds : α → Prop)
    (kept : ∀ host, trust.good host → trust.good (question host).2 ∧
      ∀ answer, (question host).1 = .ok answer → holds answer) :
    YieldsVm trust frames stack constants (tryHost wrap question) holds := by
  unfold tryHost
  refine (askHost_yields (fun result => ∀ answer, result = .ok answer → holds answer) kept).bind
    fun answer answers => ?_
  cases answer with
  | ok answer => exact .pure (answers answer rfl)
  | error error => exact .throw fun _ sound => sound

instance tryHost_safe (wrap : world.Error → VmError world.Error)
    (question : world.State → Except world.Error α × world.State)
    [kept : GoodQuestion trust question] :
    SafeVm trust frames stack constants (tryHost wrap question) := by
  unfold tryHost
  refine Safe.of_bind inferInstance fun answer => ?_
  cases answer <;> infer_instance

instance tryExecutors_safe (wrap : world.Error → VmError world.Error)
    (operation : world.Executors → Except world.Error α × world.Executors) :
    SafeVm trust frames stack constants (tryExecutors wrap operation) := by
  refine Safe.of_get fun machine sound => ?_
  have moved : Machine.Sound trust frames stack constants
      { machine with executors := (operation machine.executors).2 } :=
    ⟨sound.heap, sound.host, sound.frames, sound.stack, sound.constants⟩
  cases performed : operation machine.executors with
  | mk answer executors =>
    rw [performed] at moved
    cases answer with
    | ok answer => exact moved
    | error error => exact moved

/-! ## The operand stack -/

instance push_safe (value : Value) :
    SafeVm trust frames Any constants (push value : Vm world Unit) :=
  Safe.modify fun _ sound => ⟨sound.heap, sound.host, sound.frames, trivial, sound.constants⟩

instance pop_safe : SafeVm trust frames Any constants (pop : Vm world Value) := by
  refine Safe.of_get fun machine sound => ?_
  cases machine.stack with
  | nil => exact sound
  | cons value rest => exact ⟨sound.heap, sound.host, sound.frames, trivial, sound.constants⟩

theorem popOperands_yields (count : Nat) :
    YieldsVm trust frames Any constants (popOperands count : Vm world (List Value))
      (·.length = count) := by
  have loop (left : Nat) (popped : List Value) :
      YieldsVm trust frames Any constants (popOperands.go left popped : Vm world (List Value))
        (·.length = popped.length + left) := by
    induction left generalizing popped with
    | zero => exact .pure (by simp)
    | succ left ih =>
      unfold popOperands.go
      refine .of_bind (onTrap_safe pop (discard popped.reverse)) fun value => ?_
      have rest := ih (value :: popped)
      rw [List.length_cons, show popped.length + 1 + left = popped.length + (left + 1) by omega]
        at rest
      exact rest
  have all := loop count []
  simp only [List.length_nil, Nat.zero_add] at all
  exact all

instance popOperands_safe (count : Nat) :
    SafeVm trust frames Any constants (popOperands count : Vm world (List Value)) :=
  (popOperands_yields count).safe

instance splitOff_safe (count : Nat) :
    SafeVm trust frames Any constants (splitOff count : Vm world (List Value)) := by
  refine Safe.of_get fun machine sound => ?_
  by_cases short : machine.stack.length < count
  · simp only [short, if_true]
    exact sound
  · simp only [short, if_false]
    exact ⟨sound.heap, sound.host, sound.frames, trivial, sound.constants⟩

instance mismatch_safe (value : Value) (expected : String) :
    SafeVm trust frames stack constants (mismatch value expected : Vm world α) := by
  unfold mismatch
  infer_instance

theorem popThen_safe {next : Value → Vm world α}
    (rest : ∀ value, SafeVm trust frames Any constants (next value)) :
    SafeVm trust frames Any constants (pop >>= next) :=
  Safe.of_bind inferInstance rest

instance popInt_safe : SafeVm trust frames Any constants (popInt : Vm world Int64) :=
  popThen_safe fun value => by split <;> infer_instance

instance popFloat_safe : SafeVm trust frames Any constants (popFloat : Vm world UInt64) :=
  popThen_safe fun value => by split <;> infer_instance

instance popBool_safe : SafeVm trust frames Any constants (popBool : Vm world Bool) :=
  popThen_safe fun value => by split <;> infer_instance

instance popStr_safe : SafeVm trust frames Any constants (popStr : Vm world Nat) :=
  popThen_safe fun value => by split <;> infer_instance

instance popTwoStr_safe : SafeVm trust frames Any constants (popTwoStr : Vm world (Nat × Nat)) := by
  unfold popTwoStr
  infer_instance

instance popForeignPointer_safe :
    SafeVm trust frames Any constants (popForeignPointer : Vm world UInt64) :=
  popThen_safe fun value => by split <;> infer_instance

instance allocStr_tidy (text : String) : TidyOperation allowed fun heap => heap.allocStr text :=
  ⟨fun _ tidy => tidy.allocStr text⟩

instance pushStr_safe (text : String) :
    SafeVm trust frames Any constants (pushStr text : Vm world Unit) := by
  unfold pushStr
  infer_instance

/-! ## The running frame -/

section Running

variable {program : Module} {width : Nat}

theorem topFrame_run {machine : Machine world} {frame : Frame} {callers : List Frame}
    (same : machine.frames = frame :: callers) : topFrame machine = .ok frame machine := by
  simp [topFrame, get_run, bind, EStateM.bind, same, orPanic,
    pure, EStateM.pure]

theorem setPc_run {machine : Machine world} {frame : Frame} {callers : List Frame}
    (same : machine.frames = frame :: callers) (pc : Nat) :
    setPc pc machine = .ok () { machine with frames := { frame with pc := pc } :: callers } := by
  simp [setPc, bind, EStateM.bind, topFrame_run same, setTopFrame, modify_run, same]

theorem topFrame_meets :
    Meets (Machine.Sound trust (Running program width) stack constants) (topFrame : Vm world Frame)
      (fun frame machine => machine.frames.head? = some frame ∧
        Machine.Sound trust (Running program width) stack constants machine)
      (Stops (Machine.Sound trust (Running program width) stack constants)) := by
  intro machine sound
  rcases sound.frames.cases_on with ⟨frame, callers, same, -⟩
  rw [topFrame_run same]
  exact ⟨by simp [same], sound⟩

instance topFrame_safe :
    SafeVm trust (Running program width) stack constants (topFrame : Vm world Frame) :=
  ⟨topFrame_meets.weaken (fun _ sound => sound) (fun _ _ reached => reached.2)
    (fun _ _ failed => failed)⟩

theorem changeTop_safe {change : Frame → Frame} (func : ∀ frame, (change frame).func = frame.func)
    (pc : ∀ frame, (change frame).pc = frame.pc)
    (locals : ∀ frame, (change frame).locals.length = frame.locals.length)
    (live : ∀ frame, (change frame).live.length = frame.live.length)
    (writebacks : ∀ frame, (change frame).writebacks = frame.writebacks) :
    SafeVm trust (Running program width) stack constants
      ((do let frame ← topFrame; setTopFrame (change frame)) : Vm world Unit) := by
  refine ⟨Meets.bind topFrame_meets fun frame => ?_⟩
  intro machine reached
  rcases reached.2.frames.cases_on with ⟨top, callers, same, -⟩
  have found := reached.1
  rw [same] at found
  cases found
  have running := reached.2.frames
  rw [same] at running
  refine ⟨reached.2.heap, reached.2.host, ?_, reached.2.stack, reached.2.constants⟩
  have kept := running.change (func frame) (pc frame) (locals frame) (live frame)
    (writebacks frame)
  simpa [setTopFrame, modify, same] using kept

instance setLocal_safe (slot : Nat) (value : Value) :
    SafeVm trust (Running program width) stack constants (setLocal slot value : Vm world Unit) :=
  changeTop_safe (fun _ => rfl) (fun _ => rfl) (by simp) (fun _ => rfl) (fun _ => rfl)

instance setLive_safe (slot : Nat) (live : Bool) :
    SafeVm trust (Running program width) stack constants (setLive slot live : Vm world Unit) :=
  changeTop_safe (fun _ => rfl) (fun _ => rfl) (fun _ => rfl) (by simp) (fun _ => rfl)

theorem localAt_safe {slot : UInt64} (inside : slot.toNat < width) :
    SafeVm trust (Running program width) stack constants (localAt slot : Vm world Value) := by
  refine ⟨Meets.bind topFrame_meets fun frame => ?_⟩
  intro machine reached
  rcases reached.2.frames.cases_on with ⟨top, callers, same, length⟩
  have found := reached.1
  rw [same] at found
  cases found
  have present : ∃ value, frame.locals[slot.toNat]? = some value :=
    ⟨_, List.getElem?_eq_getElem (by omega)⟩
  rcases present with ⟨value, found⟩
  rw [found]
  exact reached.2

instance checkedLocal_safe (slot : UInt64) :
    SafeVm trust (Running program width) stack constants (checkedLocal slot : Vm world Value) := by
  unfold checkedLocal
  infer_instance

instance isLive_safe (slot : Nat) :
    SafeVm trust (Running program width) stack constants (isLive slot : Vm world Bool) := by
  unfold isLive
  infer_instance

end Running

end Vm

end KiraVm
