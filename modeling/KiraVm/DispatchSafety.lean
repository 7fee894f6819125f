import KiraVm.Dispatch
import KiraVm.HostSafety
import KiraVm.ModuleValidate

/-!
# Safe frames

Entering and leaving a frame of a checked module keeps every frame ready to go
on.
-/

namespace KiraVm

/-- A function that, when there is one, has a body. -/
def Module.Bytecode (program : Module) (index : Nat) : Prop :=
  ∀ function, program.functions[index]? = some function → function.isNative = false

/-- The `Drop` bodies a module can run. -/
def Module.BytecodeGlue (program : Module) (glue : UInt32) : Prop :=
  program.Bytecode glue.toNat

variable {program : Module}

theorem Module.bytecode_of_nonNative {index : Nat}
    (nonNative : program.nonNativeFunction index = true) : program.Bytecode index := by
  intro function found
  unfold nonNativeFunction functionAt at nonNative
  rw [found] at nonNative
  simpa using nonNative

theorem Module.bytecodeGlue_of_dropBody {glue : UInt32} (body : program.dropBody glue = true) :
    program.BytecodeGlue glue := by
  unfold dropBody at body
  rw [Bool.and_eq_true] at body
  exact bytecode_of_nonNative body.1

/-- A frame of a function that has not run. -/
structure Frame.Entered (program : Module) (index : UInt64) (frame : Frame) : Prop where
  func : frame.func = index
  ready : frame.Ready program
  pc : frame.pc = 0
  writebacks : frame.writebacks = []

namespace Frame

variable {program : Module} {frame : Frame} {index : UInt64}

theorem WritesInto.of_nil (none : frame.writebacks = []) (callers : List Frame) :
    frame.WritesInto callers := by
  intro writeback member
  rw [none] at member
  cases member

theorem Ready.lengths (ready : frame.Ready program) : frame.live.length = frame.locals.length := by
  rcases ready with ⟨function, shaped, -⟩
  rw [shaped.live, shaped.locals]

theorem Entered.fill (entered : frame.Entered program index) (slot : Nat) (value : Value) :
    Entered program index { frame with
      locals := frame.locals.set slot value
      live := frame.live.set slot value.isHeapValue } := by
  rcases entered.ready with ⟨function, shaped, inside⟩
  refine ⟨entered.func, ⟨function, ⟨shaped.known, shaped.bytecode, ?_, ?_⟩, inside⟩, entered.pc,
    entered.writebacks⟩
  · simpa using shaped.locals
  · simpa using shaped.live

end Frame

/-- The frames of a loop that has an answer, or still has a frame to run. -/
structure Going (program : Module) (answered : Prop) (frames : List Frame) : Prop where
  ready : FramesReady program frames
  goes : answered ∨ frames ≠ []

/-- The frames a returning frame leaves, whose running one has so many slots. -/
structure Left (program : Module) (width : Nat) (frames : List Frame) : Prop where
  ready : FramesReady program frames
  top : ∀ frame ∈ frames.head?, frame.locals.length = width

theorem Running.left {width : Nat} {frames : List Frame} (running : Running program width frames) :
    Left program width frames := by
  refine ⟨running.ready, ?_⟩
  rcases running.cases_on with ⟨top, callers, same, length⟩
  intro frame found
  rw [same] at found
  cases found
  exact length

/-- A frame that returns into frames that are ready. -/
structure Returning (program : Module) (frames : List Frame) : Prop where
  top : ∃ frame callers, frames = frame :: callers ∧ frame.WritesInto callers ∧
    FramesReady program callers

theorem Frame.WritesInto.width {frame : Frame} {callers : List Frame}
    (writes : frame.WritesInto callers) (ready : FramesReady program callers) :
    ∃ width, Left program width callers ∧
      ∀ writeback ∈ frame.writebacks, writeback.slot.toNat < width := by
  cases callers with
  | nil =>
    refine ⟨2 ^ 64, ⟨ready, by simp⟩, ?_⟩
    exact fun writeback _ => writeback.slot.toNat_lt
  | cons caller callers =>
    refine ⟨caller.locals.length, ⟨ready, by simp⟩, ?_⟩
    exact fun writeback member => writes writeback member caller rfl

namespace Vm

open StateLogic

variable {world : World} {program : Module} {trust : Trust world program.BytecodeGlue}
  {frames : List Frame → Prop} {stack constants : List Value → Prop} {index : UInt64}

/-! ## Entering a frame -/

/-- The frames taken for a function fit it. -/
theorem takeFrame_yields (checked : program.Checked) (bytecode : program.Bytecode index.toNat) :
    YieldsVm trust frames stack constants (takeFrame program index : Vm world Frame)
      (·.Entered program index) := by
  refine (orTrap_yields (fun function => program.functions[index.toNat]? = some function)
    fun _ found => found).bind fun function found => ?_
  have nonNative := bytecode function found
  have body := checked.functions function (List.mem_of_getElem? found) nonNative
  have nonempty : 0 < function.code.length := by
    rw [List.length_pos_iff]
    intro empty
    have ends := body.ends
    simp [empty, Module.endsInReturn] at ends
  intro machine sound
  have entered {locals : List Value} (length : locals.length = function.localCount.toNat) :
      Frame.Entered program index
        { func := index
          pc := 0
          locals := locals
          live := List.replicate function.localCount.toNat false
          writebacks := []
          capture := [] } :=
    ⟨rfl, ⟨function, ⟨found, nonNative, length, by simp⟩, nonempty⟩, rfl, rfl⟩
  cases cache : machine.frameCache with
  | nil =>
    simp only [bind, EStateM.bind, get_run, cache, pure,
      EStateM.pure]
    exact ⟨entered (by simp), sound⟩
  | cons cached rest =>
    simp only [bind, EStateM.bind, get_run, cache, pure,
      EStateM.pure, set_run]
    refine ⟨entered ?_, sound.heap, sound.host, sound.frames, sound.stack, sound.constants⟩
    split
    · assumption
    · simp

variable {frame : Frame} {width : Nat}

theorem fillSlot_yields (entered : frame.Entered program index) {slot : Nat}
    (inside : slot < frame.locals.length) (value : Value) :
    YieldsVm trust frames stack constants (fillSlot frame slot value : Vm world Frame)
      (fun filled => filled.Entered program index ∧
        filled.locals.length = frame.locals.length) := by
  have lengths := entered.ready.lengths
  have both : slot < frame.locals.length ∧ slot < frame.live.length := ⟨inside, by omega⟩
  unfold fillSlot
  simp only [both, and_self, if_true]
  exact .pure ⟨entered.fill slot value, by simp⟩

theorem fillSlots_yields (entered : frame.Entered program index) {count : Nat}
    (enough : count ≤ frame.locals.length) :
    YieldsVm trust frames Any constants (fillSlots frame count : Vm world Frame)
      (·.Entered program index) := by
  induction count generalizing frame with
  | zero => exact .pure entered
  | succ slot ih =>
    refine .of_bind inferInstance fun value => ?_
    refine (fillSlot_yields entered (by omega) value).bind fun filled kept => ?_
    exact ih kept.1 (by rw [kept.2]; omega)

theorem fillParams_yields (checked : program.Checked) (entered : frame.Entered program index) :
    YieldsVm trust frames Any constants (fillParams program index frame : Vm world Frame)
      (·.Entered program index) := by
  rcases entered.ready with ⟨function, shaped, -⟩
  have known : program.functions[index.toNat]? = some function := by
    rw [← entered.func]
    exact shaped.known
  have params := (checked.functions function (List.mem_of_getElem? known) shaped.bytecode).params
  have enough : function.paramCount.toNat ≤ frame.locals.length := by
    rw [shaped.locals]
    exact UInt64.le_iff_toNat_le.mp params
  unfold fillParams
  rw [known]
  exact fillSlots_yields entered enough

instance cacheFrame_safe (frame : Frame) :
    SafeVm trust frames stack constants (cacheFrame frame : Vm world Unit) := by
  refine Safe.modify fun machine sound => ?_
  split
  · exact ⟨sound.heap, sound.host, sound.frames, sound.stack, sound.constants⟩
  · exact sound

instance checkDepth_safe : SafeVm trust frames stack constants (checkDepth : Vm world Unit) := by
  unfold checkDepth
  infer_instance

/-! ## Leaving a frame -/

instance releaseSlots_safe (values : List Value) (live : List Bool) :
    SafeVm trust frames stack constants (releaseSlots values live : Vm world Unit) := by
  induction values generalizing live with
  | nil =>
    unfold releaseSlots
    infer_instance
  | cons value values ih =>
    unfold releaseSlots
    infer_instance

instance releaseLiveLocals_safe (frame : Frame) :
    SafeVm trust frames stack constants (releaseLiveLocals frame : Vm world Frame) := by
  unfold releaseLiveLocals
  infer_instance

instance moveCaptures_safe (finished : Frame) (slots : List UInt32) :
    SafeVm trust frames stack constants (moveCaptures finished slots : Vm world Frame) := by
  induction slots generalizing finished with
  | nil =>
    unfold moveCaptures
    infer_instance
  | cons slot slots ih =>
    unfold moveCaptures
    split
    · exact ih finished
    · refine Safe.of_bind (Safe.modify fun machine sound => ?_) fun _ => inferInstance
      exact ⟨sound.heap, sound.host, sound.frames, sound.stack, sound.constants⟩

instance releasePlanned_safe (finished : Frame) (slots : List UInt64) :
    SafeVm trust frames stack constants (releasePlanned finished slots : Vm world Frame) := by
  induction slots generalizing finished with
  | nil =>
    unfold releasePlanned
    infer_instance
  | cons slot slots ih =>
    unfold releasePlanned
    split
    · exact ih finished
    · infer_instance

instance releaseFrame_safe (function : FuncProto) (finished : Frame) :
    SafeVm trust frames stack constants (releaseFrame function finished : Vm world Unit) := by
  unfold releaseFrame
  split <;> infer_instance

theorem writeBack_left {writeback : Writeback} (inside : writeback.slot.toNat < width)
    (value : Value) :
    SafeVm trust (Left program width) stack constants
      (writeBack writeback value : Vm world Unit) := by
  refine ⟨fun machine sound => ?_⟩
  cases callers : machine.frames with
  | nil =>
    have refused : SafeVm trust (Left program width) stack constants
        (do
          dropValue value
          trap .frameUnderflow : Vm world Unit) := inferInstance
    have stopped := refused.meets machine sound
    simp only [writeBack, bind, EStateM.bind, get_run, callers]
    exact stopped
  | cons caller rest =>
    have running : machine.Sound trust (Running program width) stack constants :=
      ⟨sound.heap, sound.host, ⟨sound.frames.ready, caller, by simp [callers],
        sound.frames.top caller (by simp [callers])⟩, sound.stack, sound.constants⟩
    exact (writeBack_safe inside value).meets.weaken (fun _ sound => sound)
      (fun _ _ kept => kept.weakenFrames fun _ running => running.left)
      (fun _ _ => Stops.imp fun _ sound => sound.weakenFrames fun _ running => running.left)
      machine running

theorem moveWritebacks_safe (result : Value) (finished : Frame) {writebacks : List Writeback}
    (inside : ∀ writeback ∈ writebacks, writeback.slot.toNat < width) :
    SafeVm trust (Left program width) stack constants
      (moveWritebacks result finished writebacks : Vm world Frame) := by
  induction writebacks generalizing finished with
  | nil =>
    unfold moveWritebacks
    infer_instance
  | cons writeback writebacks ih =>
    have others : ∀ other ∈ writebacks, other.slot.toNat < width := fun other member =>
      inside other (List.mem_cons_of_mem writeback member)
    unfold moveWritebacks
    split
    · exact ih finished others
    case h_2 value finished _ =>
      have written : SafeVm trust (Left program width) stack constants
          (writeBack writeback value : Vm world Unit) :=
        writeBack_left (inside writeback (by simp)) value
      exact Safe.of_bind inferInstance fun _ => ih finished others

theorem handResult_meets (result : Value) :
    Meets (Machine.Sound trust (FramesReady program) Any constants)
      (handResult result : Vm world (Option Value))
      (fun answer => Machine.Sound trust (Going program (answer.isSome = true)) Any constants)
      (Stops (Machine.Sound trust Any Any constants)) := by
  intro machine sound
  cases callers : machine.frames with
  | nil =>
    have emptied : Machine.Sound trust (FramesReady program) Any constants
        { machine with stack := [], frames := [] } :=
      ⟨sound.heap, sound.host, trivial, trivial, sound.constants⟩
    have dropped : Meets (Machine.Sound trust (FramesReady program) Any constants)
        (do
          discard machine.stack.reverse
          pure (some result) : Vm world (Option Value))
        (fun answer => Machine.Sound trust (Going program (answer.isSome = true)) Any constants)
        (Stops (Machine.Sound trust Any Any constants)) :=
      Meets.bind (meets_anyFrames (discard_safe _)) fun _ after kept =>
        kept.weakenFrames fun _ ready => ⟨ready, .inl rfl⟩
    simp only [handResult, bind, EStateM.bind, get_run,
      callers]
    exact dropped _ emptied
  | cons caller rest =>
    simp only [handResult, bind, EStateM.bind, get_run,
      callers]
    exact ⟨sound.heap, sound.host, ⟨sound.frames, .inr (by simp [callers])⟩, trivial,
      sound.constants⟩

theorem left_meets {α : Type} {operation : Vm world α}
    (safe : SafeVm trust (Left program width) stack constants operation) :
    Meets (Machine.Sound trust (Left program width) stack constants) operation
      (fun _ => Machine.Sound trust (FramesReady program) stack constants)
      (Stops (Machine.Sound trust Any stack constants)) :=
  safe.meets.weaken (fun _ sound => sound)
    (fun _ _ kept => kept.weakenFrames fun _ left => left.ready)
    (fun _ _ => Stops.imp fun _ sound => sound.anyFrames)

theorem finishFrame_meets (result : Value) :
    Meets (Machine.Sound trust (Returning program) Any constants)
      (finishFrame program result : Vm world (Option Value))
      (fun answer => Machine.Sound trust (Going program (answer.isSome = true)) Any constants)
      (Stops (Machine.Sound trust Any Any constants)) := by
  intro machine sound
  rcases sound.frames.top with ⟨finished, callers, same, writes, ready⟩
  simp only [finishFrame, bind, EStateM.bind, get_run, same]
  rcases Frame.WritesInto.width writes ready with ⟨width, left, inside⟩
  have popped : Machine.Sound trust (Left program width) Any constants
      { machine with frames := callers } :=
    ⟨sound.heap, sound.host, left, trivial, sound.constants⟩
  cases program.functions[finished.func.toNat]? with
  | none =>
    have refused : YieldsVm trust (Left program width) Any constants
        (do
          let _ ← releaseLiveLocals finished
          dropValue result
          trap (.unknownFunction finished.func) : Vm world (Option Value)) (fun _ => False) :=
      .of_bind inferInstance fun _ => .of_bind inferInstance fun _ =>
        .throw fun _ sound => sound
    exact refused.weaken (fun _ sound => sound) (fun _ _ reached => reached.1.elim)
      (fun _ _ => Stops.imp fun _ sound => sound.anyFrames) _ popped
  | some function =>
    have torn : Meets (Machine.Sound trust (Left program width) Any constants)
        (do
          let finished ← moveWritebacks result finished finished.writebacks
          let finished ← moveCaptures finished finished.capture
          releaseFrame function finished
          handResult result : Vm world (Option Value))
        (fun answer => Machine.Sound trust (Going program (answer.isSome = true)) Any constants)
        (Stops (Machine.Sound trust Any Any constants)) := by
      refine Meets.bind (left_meets (moveWritebacks_safe result finished inside)) fun finished => ?_
      refine Meets.bind (meets_anyFrames (moveCaptures_safe finished finished.capture))
        fun finished => ?_
      exact Meets.bind (meets_anyFrames (releaseFrame_safe function finished)) fun _ =>
        handResult_meets result
    exact torn _ popped

/-! ## Unwinding -/

instance unwindFrames_safe (table : Module) (list : List Frame) :
    SafeVm trust frames stack constants (unwindFrames table list : Vm world Unit) := by
  induction list with
  | nil =>
    unfold unwindFrames
    infer_instance
  | cons frame list ih =>
    unfold unwindFrames
    infer_instance

/-- Unwinding leaves no frame and no operand. -/
theorem unwind_meets :
    Meets (Machine.Sound trust Any Any constants) (unwind program : Vm world Unit)
      (fun _ => Machine.Sound trust (FramesReady program) Any constants)
      (Stops (Machine.Sound trust (FramesReady program) Any constants)) := by
  intro machine sound
  have cleared : Machine.Sound trust (FramesReady program) Any constants
      { machine with frames := [] } :=
    ⟨sound.heap, sound.host, trivial, trivial, sound.constants⟩
  have abandoned : SafeVm trust (FramesReady program) Any constants
      (onHeap fun heap => ((), heap.abandonPendingDrops) : Vm world Unit) :=
    onHeap_keeps fun heap tidy => tidy.abandonPendingDrops
  refine (Safe.of_bind (unwindFrames_safe program machine.frames) fun _ =>
    Safe.of_state fun after kept => ?_).meets _ cleared
  have emptied : SafeVm trust (FramesReady program) Any constants
      (set { after with stack := [] } : Vm world Unit) :=
    Safe.set ⟨kept.heap, kept.host, kept.frames, trivial, kept.constants⟩
  infer_instance

/-! ## `Drop` bodies -/

theorem pushFrame_safe {answered : Prop} (entered : frame.Entered program index) :
    SafeVm trust (Going program answered) stack constants (pushFrame frame : Vm world Unit) := by
  refine Safe.modify fun machine sound => ?_
  refine ⟨sound.heap, sound.host, ⟨⟨entered.ready, ?_, sound.frames.ready⟩, .inr (by simp)⟩,
    sound.stack, sound.constants⟩
  exact .of_nil entered.writebacks _

theorem runPendingDrop_safe (checked : program.Checked) {answered : Prop} :
    SafeVm trust (Going program answered) Any constants (runPendingDrop program : Vm world Unit) := by
  refine Safe.of_get fun machine sound => ?_
  cases parked : machine.heap.pendingDrops with
  | nil => exact sound
  | cons pending rest =>
    have taken : Machine.Sound trust (Going program answered) Any constants
        { machine with heap := { machine.heap with pendingDrops := rest } } :=
      ⟨sound.heap.takePendingDrop parked, sound.host, sound.frames, trivial, sound.constants⟩
    have bytecode : program.Bytecode pending.glue.toUInt64.toNat := by
      have allowed := sound.heap.pending pending (by simp [parked])
      simpa [Module.BytecodeGlue] using allowed
    refine (Safe.of_bind checkDepth_safe fun _ => ?_).meets _ taken
    refine (takeFrame_yields checked bytecode).bind_safe fun callee entered => ?_
    refine Safe.of_bind inferInstance fun _ => ?_
    refine (fillParams_yields checked entered).bind_safe fun callee entered => ?_
    refine Safe.of_bind (pushFrame_safe entered) fun _ => Safe.modify fun after kept => ?_
    exact ⟨kept.heap, kept.host, kept.frames, kept.stack, kept.constants⟩

instance finishReturnedDrops_safe (drops : List (Nat × Nat)) :
    SafeVm trust frames Any constants (finishReturnedDrops drops : Vm world Unit) := by
  induction drops with
  | nil =>
    unfold finishReturnedDrops
    infer_instance
  | cons drop drops ih =>
    have finished : SafeVm trust frames Any constants
        (do
          onHeap fun heap => ((), heap.finishPendingDrop drop.2)
          finishReturnedDrops drops : Vm world Unit) :=
      Safe.of_bind (onHeap_keeps fun heap tidy => tidy.finishPendingDrop drop.2) fun _ => ih
    refine Safe.of_state fun machine sound => ?_
    have taken : SafeVm trust frames Any constants
        (set { machine with runningDrops := drops } : Vm world Unit) :=
      Safe.set ⟨sound.heap, sound.host, sound.frames, trivial, sound.constants⟩
    have popped (rest : List Value) : SafeVm trust frames Any constants
        (modify fun machine => { machine with stack := rest } : Vm world Unit) :=
      Safe.modify fun after kept =>
        ⟨kept.heap, kept.host, kept.frames, trivial, kept.constants⟩
    dsimp only
    split
    · infer_instance
    · refine Safe.of_bind taken fun _ => ?_
      split
      · split
        · exact finished
        · infer_instance
      · exact finished

/-! ## Calls -/

/-- An operation of the running frame after which the loop goes on, or has the
answer. -/
def Continues {α : Type} (trust : Trust world program.BytecodeGlue) (width : Nat)
    (constants : List Value → Prop) (operation : Vm world α) (answered : α → Prop) : Prop :=
  Meets (Machine.Sound trust (Running program width) Any constants) operation
    (fun answer => Machine.Sound trust (Going program (answered answer)) Any constants)
    (Stops (Machine.Sound trust Any Any constants))

section Running

variable {width : Nat} {α β : Type}

theorem Continues.of_yields {operation : Vm world α} {next : α → Vm world β} {holds : α → Prop}
    {answered : β → Prop}
    (first : YieldsVm trust (Running program width) Any constants operation holds)
    (rest : ∀ answer, holds answer → Continues trust width constants (next answer) answered) :
    Continues trust width constants (operation >>= next) answered := by
  refine Meets.bind (first.weaken (fun _ sound => sound) (fun _ _ reached => reached)
    (fun _ _ => Stops.imp fun _ sound => sound.anyFrames))
    fun answer machine reached => rest answer reached.1 machine reached.2

/-- The frame that ran goes on. -/
theorem Continues.of_safe {operation : Vm world α}
    (safe : SafeVm trust (Running program width) Any constants operation) (answered : α → Prop) :
    Continues trust width constants operation answered := by
  refine safe.meets.weaken (fun _ sound => sound) ?_ ?_
  · intro answer machine sound
    refine sound.weakenFrames fun list running => ⟨running.ready, .inr ?_⟩
    rcases running.cases_on with ⟨frame, callers, same, -⟩
    simp [same]
  · exact (fun _ _ => Stops.imp fun _ sound => sound.anyFrames)

/-- A call followed by nothing. -/
theorem Continues.bind_pure {operation : Vm world Unit} {answer : β} {answered : β → Prop}
    (first : Continues trust width constants operation fun _ => False) :
    Continues trust width constants (operation >>= fun _ => pure answer) answered :=
  Meets.bind first fun _ _ sound =>
    sound.weakenFrames fun _ going => ⟨going.ready, going.goes.imp False.elim id⟩

theorem pushCallee_continues {callee : Frame} (ready : callee.Ready program)
    (inside : ∀ writeback ∈ callee.writebacks, writeback.slot.toNat < width) :
    Continues trust width constants (pushFrame callee : Vm world Unit) fun _ => False := by
  intro machine sound
  refine ⟨sound.heap, sound.host, ⟨⟨ready, ?_, sound.frames.ready⟩, .inr (by simp)⟩, trivial,
    sound.constants⟩
  intro writeback member caller found
  rw [sound.frames.left.top caller found]
  exact inside writeback member

theorem Frame.Entered.writingBack {callee : Frame} (entered : callee.Entered program index)
    (writebacks : List Writeback) : Frame.Ready program { callee with writebacks := writebacks } := by
  rcases entered.ready with ⟨function, shaped, started⟩
  exact ⟨function, ⟨shaped.known, shaped.bytecode, shaped.locals, shaped.live⟩, started⟩

theorem call_continues (checked : program.Checked) (bytecode : program.Bytecode index.toNat) :
    Continues trust width constants (call program index : Vm world Unit) fun _ => False := by
  refine .of_yields (.of_safe checkDepth_safe) fun _ _ => ?_
  refine .of_yields (takeFrame_yields checked bytecode) fun callee entered => ?_
  refine .of_yields (fillParams_yields checked entered) fun callee entered => ?_
  exact pushCallee_continues entered.ready (by simp [entered.writebacks])

theorem callMut_continues (checked : program.Checked) (bytecode : program.Bytecode index.toNat)
    {slot : UInt64} (inside : slot.toNat < width) (path : List PathStep) :
    Continues trust width constants (callMut program index slot path : Vm world Unit)
      fun _ => False := by
  refine .of_yields (.of_safe checkDepth_safe) fun _ _ => ?_
  refine .of_yields (takeFrame_yields checked bytecode) fun callee entered => ?_
  refine .of_yields (.of_safe (onTrap_safe (fillSteps path) (discard callee.locals)))
    fun steps _ => ?_
  refine .of_yields (fillParams_yields checked entered) fun callee entered => ?_
  exact pushCallee_continues (Frame.Entered.writingBack entered _) (by simpa using inside)

variable {targets : List WritebackTarget}

theorem fillTargets_yields (inside : ∀ target ∈ targets, target.slot.toNat < width) :
    YieldsVm trust frames Any constants (fillTargets targets : Vm world (List Writeback))
      (fun writebacks => ∀ writeback ∈ writebacks, writeback.slot.toNat < width) := by
  induction targets with
  | nil => exact .pure (by simp)
  | cons target targets ih =>
    have others : ∀ other ∈ targets, other.slot.toNat < width := fun other member =>
      inside other (List.mem_cons_of_mem target member)
    refine (ih others).bind fun rest restInside => .of_bind inferInstance fun steps => .pure ?_
    intro writeback member
    rcases List.mem_cons.mp member with rfl | tail
    · exact inside target (by simp)
    · exact restInside writeback tail

theorem callWriteback_continues (checked : program.Checked)
    (bytecode : program.Bytecode index.toNat)
    (inside : ∀ target ∈ targets, target.slot.toNat < width) :
    Continues trust width constants (callWriteback program index targets : Vm world Unit)
      fun _ => False := by
  refine .of_yields (.of_safe checkDepth_safe) fun _ _ => ?_
  refine .of_yields (takeFrame_yields checked bytecode) fun callee entered => ?_
  refine .of_yields (onTrap_meets (fillTargets_yields inside) (discard_safe _).meets) fun writebacks written => ?_
  refine .of_yields (fillParams_yields checked entered) fun callee entered => ?_
  exact pushCallee_continues (Frame.Entered.writingBack entered _) written

theorem callNativeWriteback_safe {reenter : Reenter world} (safe : ReenterSafe trust reenter)
    (id : UInt32) (inside : ∀ target ∈ targets, target.slot.toNat < width) :
    SafeVm trust (Running program width) Any constants
      (callNativeWriteback reenter program id targets : Vm world Unit) :=
  (fillTargets_yields inside).bind_safe fun _ written => callNative_safe safe program id written

/-! ## Jumps -/

instance jump_safe (target : UInt64) :
    SafeVm trust (Running program width) stack constants (jump program target : Vm world Unit) := by
  refine ⟨Meets.bind topFrame_meets fun frame machine reached => ?_⟩
  rcases reached with ⟨found, sound⟩
  rcases sound.frames.cases_on with ⟨top, callers, same, length⟩
  rw [same] at found
  cases found
  have running := sound.frames
  rw [same] at running
  rcases running.ready with ⟨⟨function, shaped, inside⟩, writes, below⟩
  simp only [shaped.known, orTrap, bind, EStateM.bind, pure, EStateM.pure]
  split
  case isTrue target =>
    rw [setPc_run same]
    refine ⟨sound.heap, sound.host, ⟨⟨⟨function, ?_, target⟩, writes, below⟩, _, rfl, length⟩,
      sound.stack, sound.constants⟩
    exact ⟨shaped.known, shaped.bytecode, shaped.locals, shaped.live⟩
  case isFalse => exact sound

instance jumpIfFalse_safe (target : UInt64) :
    SafeVm trust (Running program width) Any constants
      (jumpIfFalse program target : Vm world Unit) := by
  unfold jumpIfFalse
  infer_instance

end Running

end Vm

end KiraVm
