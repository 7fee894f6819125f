import KiraVm.DispatchSafety
import KiraVm.Interpreter

/-!
# A safe interpreter

Every turn of the loop keeps a sound machine sound, and so does every way to
enter it.
-/

namespace KiraVm

namespace Vm

open StateLogic

variable {world : World} {program : Module} {trust : Trust world program.BytecodeGlue}
  {frames : List Frame → Prop} {stack constants : List Value → Prop} {function : FuncProto}

/-! ## One instruction -/

variable {instruction : Instruction}

theorem perform_safe (inRange : program.operandsInRange function instruction = true) :
    SafeVm trust (Running program function.localCount.toNat) Any constants
      (perform program instruction : Vm world Unit) := by
  have inside {slot : UInt64} (below : slot < function.localCount) :
      slot.toNat < function.localCount.toNat := UInt64.lt_iff_toNat_lt.mp below
  cases instruction
  case newStructDropping count glue =>
    exact newStructDropping_safe count (Module.bytecodeGlue_of_dropBody inRange)
  case newStructOrdered order glue =>
    refine newStructOrdered_safe order fun body found => ?_
    subst found
    simp only [Module.operandsInRange, Bool.and_eq_true] at inRange
    exact Module.bytecodeGlue_of_dropBody inRange.2
  case storeField slot path =>
    simp only [Module.operandsInRange, Bool.and_eq_true, decide_eq_true_eq] at inRange
    exact storeFieldInstruction_safe (inside inRange.1) path
  case storePlace slot path =>
    simp only [Module.operandsInRange, decide_eq_true_eq] at inRange
    exact storePlaceInstruction_safe (inside inRange) path
  case arrayAppend slot path =>
    simp only [Module.operandsInRange, decide_eq_true_eq] at inRange
    exact arrayAppend_safe (inside inRange) path
  case scalarText =>
    refine popThen_safe fun value => ?_
    split <;> infer_instance
  all_goals
    unfold perform
    infer_instance

/-! ## Fetching -/

/-- The running function and its instruction.  A return may be the last one; any
other has an instruction after it. -/
structure Fetched (trust : Trust world program.BytecodeGlue) (constants : List Value → Prop)
    (instruction : Instruction) (function : FuncProto) (machine : Machine world) : Prop where
  member : instruction ∈ function.code
  body : function.Checked program
  sound : if instruction = .return_ ∨ instruction = .returnVoid then
      machine.Sound trust (Returning program) Any constants
    else machine.Sound trust (Running program function.localCount.toNat) Any constants

theorem pc_succ_lt (body : function.Checked program) {pc : Nat}
    (found : function.code[pc]? = some instruction)
    (stays : ¬(instruction = .return_ ∨ instruction = .returnVoid)) :
    pc + 1 < function.code.length := by
  rcases List.getElem?_eq_some_iff.mp found with ⟨inside, same⟩
  rcases Nat.lt_or_ge (pc + 1) function.code.length with below | last
  · exact below
  · have ends := body.ends
    have atLast : function.code.getLast? = some instruction := by
      rw [List.getLast?_eq_getElem?, show function.code.length - 1 = pc by omega, found]
    unfold Module.endsInReturn at ends
    rw [atLast] at ends
    exact absurd (by cases instruction <;> simp_all) stays

theorem fetch_meets (checked : program.Checked) :
    Meets (Machine.Sound trust (Going program False) Any constants)
      (fetch program : Vm world Instruction)
      (fun instruction machine => ∃ function, Fetched trust constants instruction function machine)
      (Stops (Machine.Sound trust Any Any constants)) := by
  intro machine sound
  rcases sound.frames with ⟨ready, goes⟩
  cases same : machine.frames with
  | nil => simp [same] at goes
  | cons frame callers =>
    rw [same] at ready
    rcases ready with ⟨⟨function, shaped, inside⟩, writes, below⟩
    have body := checked.functions function (List.mem_of_getElem? shaped.known) shaped.bytecode
    have there : ∃ instruction, function.code[frame.pc]? = some instruction :=
      ⟨_, List.getElem?_eq_getElem inside⟩
    rcases there with ⟨instruction, found⟩
    simp only [fetch, bind, EStateM.bind, topFrame_run same, shaped.known, orTrap, pure,
      EStateM.pure, found, orPanic, setPc_run same]
    refine ⟨function, List.mem_of_getElem? found, body, ?_⟩
    split
    · exact ⟨sound.heap, sound.host, ⟨_, callers, rfl, writes, below⟩, trivial, sound.constants⟩
    case isFalse stays =>
      refine ⟨sound.heap, sound.host, ⟨⟨⟨function, ?_, ?_⟩, writes, below⟩, _, rfl,
        shaped.locals⟩, trivial, sound.constants⟩
      · exact ⟨shaped.known, shaped.bytecode, shaped.locals, shaped.live⟩
      · exact pc_succ_lt body found stays

/-! ## Executing -/

theorem execute_meets {reenter : Reenter world} (checked : program.Checked)
    (safe : ReenterSafe trust reenter) :
    Meets (fun machine => Fetched trust constants instruction function machine)
      (execute reenter program instruction)
      (fun answer => Machine.Sound trust (Going program (answer.isSome = true)) Any constants)
      (Stops (Machine.Sound trust Any Any constants)) := by
  intro machine fetched
  have sound := fetched.sound
  have inRange := fetched.body.operands instruction fetched.member
  by_cases returns : instruction = .return_ ∨ instruction = .returnVoid
  · rw [if_pos returns] at sound
    rcases returns with rfl | rfl
    · exact Meets.bind (meets_anyFrames pop_safe) (fun result => finishFrame_meets result) machine
        sound
    · exact finishFrame_meets .void machine sound
  · rw [if_neg returns] at sound
    have continues : Continues trust function.localCount.toNat constants
        (execute reenter program instruction) (·.isSome = true) := by
      have inside {slot : UInt64} (below : slot < function.localCount) :
          slot.toNat < function.localCount.toNat := UInt64.lt_iff_toNat_lt.mp below
      unfold execute
      split
      case h_1 | h_2 => simp at returns
      case h_3 index =>
        exact (call_continues checked (Module.bytecode_of_nonNative inRange)).bind_pure
      case h_4 id =>
        refine .of_safe (Safe.of_bind (callNative_safe safe program id (by simp))
          fun _ => inferInstance) _
      case h_5 id =>
        refine .of_safe (Safe.of_bind (callForeign_safe safe program id) fun _ => inferInstance) _
      case h_6 index slot path =>
        simp only [Module.operandsInRange, Bool.and_eq_true, decide_eq_true_eq] at inRange
        exact (callMut_continues checked (Module.bytecode_of_nonNative inRange.1.1)
          (inside inRange.1.2) path).bind_pure
      case h_7 index targets =>
        simp only [Module.operandsInRange, Bool.and_eq_true, List.all_eq_true,
          decide_eq_true_eq] at inRange
        exact (callWriteback_continues checked (Module.bytecode_of_nonNative inRange.1)
          fun target member => inside (inRange.2 target member).1).bind_pure
      case h_8 id targets =>
        simp only [Module.operandsInRange, List.all_eq_true, decide_eq_true_eq] at inRange
        refine .of_safe (Safe.of_bind (callNativeWriteback_safe safe id
          fun target member => inside (inRange target member)) fun _ => inferInstance) _
      case h_9 =>
        have performed : SafeVm trust (Running program function.localCount.toNat) Any constants
            (perform program instruction : Vm world Unit) := perform_safe inRange
        refine .of_safe ?_ _
        unfold step
        infer_instance
    exact continues machine sound

/-! ## Between two instructions -/

theorem settleOwed_safe (checked : program.Checked) {answered : Prop} :
    SafeVm trust (Going program answered) Any constants (settleOwed program : Vm world Bool) := by
  have parked : SafeVm trust (Going program answered) Any constants
      (runPendingDrop program : Vm world Unit) := runPendingDrop_safe checked
  refine Safe.of_bind inferInstance fun machine => Safe.of_bind inferInstance fun _ => ?_
  infer_instance

/-! ## Entering -/

/-- A loop that keeps the machine sound, whatever the constants are. -/
def LoopSafe (trust : Trust world program.BytecodeGlue) (answered : Prop)
    (run : Vm world Dispatched) : Prop :=
  ∀ constants : List Value → Prop,
    Meets (Machine.Sound trust (Going program answered) Any constants) run
      (fun outcome => Machine.Sound trust (Going program (outcome ≠ .suspended)) Any constants)
      (Stops (Machine.Sound trust Any Any constants))

section Entering

variable {run : Vm world Dispatched} {entered : UInt32}

theorem dispatchFrames_meets {answered : Prop} (loop : LoopSafe trust answered run) :
    Meets (Machine.Sound trust (Going program answered) Any constants)
      (dispatchFrames program run)
      (fun outcome => Machine.Sound trust (Going program (outcome ≠ .suspended)) Any constants)
      (Stops (Machine.Sound trust (FramesReady program) Any constants)) :=
  onTrap_meets (loop constants) unwind_meets

theorem runFrame_safe (loop : LoopSafe trust False run) {entry : Frame}
    (ready : entry.Ready program) (plain : entry.writebacks = []) :
    SafeVm trust (FramesReady program) Any constants (runFrame program run entry) := by
  have pushed : Meets (Machine.Sound trust (FramesReady program) Any constants)
      (pushFrame entry : Vm world Unit)
      (fun _ => Machine.Sound trust (Going program False) Any constants)
      (Stops (Machine.Sound trust (FramesReady program) Any constants)) := fun machine sound =>
    ⟨sound.heap, sound.host, ⟨⟨ready, .of_nil plain _, sound.frames⟩, .inr (by simp)⟩,
      trivial, sound.constants⟩
  refine ⟨Meets.bind pushed fun _ => Meets.bind (dispatchFrames_meets loop) fun outcome => ?_⟩
  cases outcome with
  | completed value => exact fun machine sound => sound.weakenFrames fun _ going => going.ready
  | suspended => exact fun machine sound => sound.weakenFrames fun _ going => going.ready

theorem fillArguments_yields {index : UInt64} {frame : Frame}
    (fresh : frame.Entered program index) {slot : Nat} {args : List Value}
    (enough : slot + args.length ≤ frame.locals.length) :
    YieldsVm trust frames stack constants (fillArguments frame slot args : Vm world Frame)
      (·.Entered program index) := by
  induction args generalizing slot frame with
  | nil => exact .pure fresh
  | cons value values ih =>
    rw [List.length_cons] at enough
    refine (fillSlot_yields fresh (by omega) value).bind fun filled kept => ?_
    exact ih kept.1 (by rw [kept.2]; omega)

theorem enterFrame_safe (checked : program.Checked) (loop : LoopSafe trust False run)
    (bytecode : program.Bytecode entered.toNat) (args : List Value) :
    SafeVm trust (FramesReady program) Any constants (enterFrame program run entered args) := by
  have taken : YieldsVm trust (FramesReady program) Any constants
      (onTrap (takeFrame program entered.toUInt64) (discard args) : Vm world Frame)
      (·.Entered program entered.toUInt64) :=
    onTrap_meets (takeFrame_yields checked (by simpa using bytecode)) (discard_safe args).meets
  refine taken.bind_safe fun frame fresh => ?_
  split
  · rcases fresh.ready with ⟨function, shaped, -⟩
    have known : program.functions[entered.toNat]? = some function := by
      have found := shaped.known
      rw [fresh.func] at found
      simpa using found
    rw [known]
    have found : SafeVm trust (FramesReady program) Any constants
        (orPanic (some function) : Vm world FuncProto) := Safe.pure function
    infer_instance
  case isFalse enough =>
    refine (fillArguments_yields fresh (by omega)).bind_safe fun frame fresh => ?_
    refine Safe.of_state fun machine sound => ?_
    refine Safe.of_bind (Safe.set ⟨sound.heap, sound.host, sound.frames, trivial,
      sound.constants⟩) fun _ => ?_
    rcases fresh.ready with ⟨function, shaped, started⟩
    exact runFrame_safe loop
      ⟨function, ⟨shaped.known, shaped.bytecode, shaped.locals, shaped.live⟩, started⟩
      fresh.writebacks

def Computed (count : Nat) (constants : List Value) : Prop :=
  constants.length = count

theorem fillConstants_meets (checked : program.Checked) (loop : LoopSafe trust False run)
    {count left : Nat} (total : count + left = program.constants.length) :
    Meets (Machine.Sound trust (FramesReady program) Any (Computed count))
      (fillConstants program run left)
      (fun _ => Machine.Sound trust (FramesReady program) Any Any)
      (Stops (Machine.Sound trust (FramesReady program) Any Any)) := by
  induction left generalizing count with
  | zero =>
    exact fun machine sound => sound.anyConstants
  | succ left ih =>
    intro machine sound
    have computed : machine.constants.length = count := sound.constants
    have there : ∃ init, program.constants[machine.constants.length]? = some init :=
      ⟨_, List.getElem?_eq_getElem (by omega)⟩
    rcases there with ⟨init, found⟩
    have nonNative := Module.bytecode_of_nonNative
      (checked.constants init (List.mem_of_getElem? found))
    simp only [fillConstants, bind, EStateM.bind, get_run,
      found, orPanic, pure, EStateM.pure]
    split
    case isTrue => exact sound.anyConstants
    case isFalse narrow =>
      have bytecode : program.Bytecode init.toUInt32.toNat := by
        rwa [UInt64.toNat_toUInt32, Nat.mod_eq_of_lt (by omega)]
      have appended (value : Value) :
          Meets (Machine.Sound trust (FramesReady program) Any (Computed count))
            (modify fun machine => { machine with constants := machine.constants ++ [value] } :
              Vm world Unit)
            (fun _ => Machine.Sound trust (FramesReady program) Any (Computed (count + 1)))
            (Stops (Machine.Sound trust (FramesReady program) Any Any)) := by
        intro machine sound
        have computed : machine.constants.length = count := sound.constants
        refine ⟨sound.heap, sound.host, sound.frames, trivial, ?_⟩
        simp [Computed, computed]
      have filled := Meets.bind
        ((enterFrame_safe checked loop bytecode []).meets.weaken (fun _ sound => sound)
          (fun _ _ sound => sound) fun _ _ => Stops.imp fun _ sound => sound.anyConstants)
        fun value => Meets.bind (appended value) fun _ =>
          ih (show count + 1 + left = program.constants.length by omega)
      exact filled machine sound

theorem ensureConstants_safe (checked : program.Checked) (loop : LoopSafe trust False run) :
    SafeVm trust (FramesReady program) Any Any (ensureConstants program run) := by
  have ended (capture : List UInt32) : SafeVm trust (FramesReady program) Any Any
      (endInitializing capture : Vm world Unit) :=
    Safe.modify fun machine sound =>
      ⟨sound.heap, sound.host, sound.frames, sound.stack, sound.constants⟩
  refine Safe.of_state fun machine sound => ?_
  split
  · infer_instance
  case isFalse missing =>
    rw [Bool.or_eq_true, not_or, decide_eq_true_eq] at missing
    have counted : Meets (Machine.Sound trust (FramesReady program) Any Any)
        (set { machine with initializingConstants := true, pendingCapture := [] } :
          Vm world Unit)
        (fun _ => Machine.Sound trust (FramesReady program) Any
          (Computed machine.constants.length))
        (Stops (Machine.Sound trust (FramesReady program) Any Any)) := fun _ _ =>
      ⟨sound.heap, sound.host, sound.frames, trivial, rfl⟩
    refine ⟨Meets.bind counted fun _ => Meets.bind (onTrap_meets
      (fillConstants_meets checked loop (by omega)) (ended _).meets) fun _ => (ended _).meets⟩

theorem enterValues_safe (checked : program.Checked) (loop : LoopSafe trust False run)
    (bytecode : program.Bytecode entered.toNat) (args : List Value) :
    SafeVm trust (FramesReady program) Any Any (enterValues program run entered args) := by
  have constants : SafeVm trust (FramesReady program) Any Any (ensureConstants program run) :=
    ensureConstants_safe checked loop
  exact Safe.of_bind inferInstance fun _ => enterFrame_safe checked loop bytecode args

variable {args : List NativeArg}

theorem lowerArguments_safe (function : UInt32) (lowered : List Value)
    (glue : ∀ argument ∈ args, argument.AllGlue program.BytecodeGlue) :
    SafeVm trust frames stack constants
      (lowerArguments function lowered args : Vm world (List Value)) := by
  induction args generalizing lowered with
  | nil =>
    unfold lowerArguments
    infer_instance
  | cons argument arguments ih =>
    have others : ∀ other ∈ arguments, other.AllGlue program.BytecodeGlue :=
      fun other member => glue other (List.mem_cons_of_mem argument member)
    refine Safe.of_bind (onHeap_keeps fun heap tidy => tidy.lower (glue argument (by simp)))
      fun value => ?_
    cases value with
    | some value => exact ih _ others
    | none => infer_instance

theorem enter_safe (checked : program.Checked) (loop : LoopSafe trust False run)
    (bytecode : program.Bytecode entered.toNat)
    (glue : ∀ argument ∈ args, argument.AllGlue program.BytecodeGlue) :
    SafeVm trust (FramesReady program) Any Any (enter program run entered args) :=
  Safe.of_bind (lowerArguments_safe entered [] glue) fun lowered =>
    enterValues_safe checked loop bytecode lowered

theorem enterCapturing_safe (checked : program.Checked) (loop : LoopSafe trust False run)
    (bytecode : program.Bytecode entered.toNat)
    (glue : ∀ argument ∈ args, argument.AllGlue program.BytecodeGlue) (capture : List UInt32) :
    SafeVm trust (FramesReady program) Any Any
      (enterCapturing program run entered args capture) := by
  have asked : SafeVm trust (FramesReady program) Any Any
      (modify fun machine => { machine with pendingCapture := capture } : Vm world Unit) :=
    Safe.modify fun _ sound =>
      ⟨sound.heap, sound.host, sound.frames, sound.stack, sound.constants⟩
  have taken : SafeVm trust (FramesReady program) Any Any
      (do
        let machine ← get
        set { machine with captured := [] }
        pure machine.captured : Vm world (List (UInt32 × Value))) :=
    Safe.of_state fun machine sound => Safe.of_bind (Safe.set
      ⟨sound.heap, sound.host, sound.frames, sound.stack, sound.constants⟩) fun _ => inferInstance
  have entering : SafeVm trust (FramesReady program) Any Any (enter program run entered args) :=
    enter_safe checked loop bytecode glue
  unfold enterCapturing
  refine Safe.of_bind asked fun _ => ?_
  dsimp only
  infer_instance

end Entering

/-! ## Giving up what a run holds -/

variable {fail : Fault world.Error → Machine world → Prop}

instance releaseConstants_safe :
    Safe (Machine.Sound trust frames stack Any) fail (releaseConstants : Vm world Unit) :=
  Safe.of_state fun _ sound => Safe.of_bind (Safe.set
    ⟨sound.heap, sound.host, sound.frames, sound.stack, trivial⟩) fun _ => inferInstance

instance releaseUndelivered_safe :
    Safe (Machine.Sound trust frames stack constants) fail
      (releaseUndeliveredChannelPayloads : Vm world Unit) := by
  have each (tokens : List UInt64) : Safe (Machine.Sound trust frames stack constants) fail
      (releaseUndeliveredChannelPayloads.releaseEach tokens : Vm world Unit) := by
    induction tokens with
    | nil =>
      unfold releaseUndeliveredChannelPayloads.releaseEach
      infer_instance
    | cons token tokens ih =>
      unfold releaseUndeliveredChannelPayloads.releaseEach
      infer_instance
  refine Safe.of_state fun machine sound => ?_
  exact Safe.of_bind (Safe.set
    ⟨sound.heap, sound.host, sound.frames, sound.stack, sound.constants⟩) fun _ => each _

/-! ## Entering again -/

/-- A trap is caught, and nothing else stops the run badly. -/
theorem attempt_meets {α : Type} {pre failed : Machine world → Prop}
    {post : α → Machine world → Prop} {operation : Vm world α}
    (spec : Meets pre operation post (Stops failed)) :
    Meets pre (attempt operation)
      (fun outcome machine => match outcome with
        | .ok answer => post answer machine
        | .error _ => failed machine)
      (Stops fun _ => False) := by
  intro machine holds
  have reached := spec machine holds
  unfold attempt
  cases ran : operation machine with
  | ok answer after =>
    rw [ran] at reached
    exact reached
  | error fault after =>
    rw [ran] at reached
    cases fault with
    | trap error => exact reached
    | panic => exact reached
    | outOfFuel => exact reached

theorem attempt_safe {α : Type} {operation : Vm world α}
    (safe : SafeVm trust frames stack constants operation) :
    Safe (Machine.Sound trust frames stack constants) (Stops fun _ => False)
      (attempt operation) := by
  refine ⟨(attempt_meets safe.meets).weaken (fun _ sound => sound) ?_ fun _ _ stopped => stopped⟩
  intro outcome machine reached
  cases outcome with
  | ok answer => exact reached
  | error error => exact reached

theorem liftTransfer_yields (value : Value) :
    YieldsVm trust frames stack constants (onHeap fun heap => heap.liftTransfer value : Vm world _)
      (fun lifted => ∀ result, lifted = some result → result.AllGlue program.BytecodeGlue) :=
  onHeap_yields _ fun _ tidy => ⟨fun _ found => tidy.liftTransfer_glue found, tidy.liftTransfer value⟩

theorem liftCaptured_yields (function : UInt32) (captured : List (UInt32 × Value)) :
    YieldsVm trust frames stack constants (liftCaptured function captured : Vm world _)
      (fun lifted => ∀ entry ∈ lifted, entry.2.AllGlue program.BytecodeGlue) := by
  induction captured with
  | nil => exact .pure (by simp)
  | cons entry captured ih =>
    refine (liftTransfer_yields entry.2).bind fun lifted glue => ?_
    refine (orTrap_yields (·.AllGlue program.BytecodeGlue) glue).bind fun result resultGlue => ?_
    refine ih.bind fun rest restGlue => .pure ?_
    intro other member
    rcases List.mem_cons.mp member with rfl | tail
    · exact resultGlue
    · exact restGlue other tail

theorem liftReturn_yields (function : UInt32) (value : Value) (captured : List (UInt32 × Value)) :
    YieldsVm trust frames stack constants (liftReturn function value captured : Vm world _)
      (·.AllGlue program.BytecodeGlue) := by
  refine (liftCaptured_yields function captured).bind fun writebacks writebacksGlue => ?_
  refine (liftTransfer_yields value).bind fun lifted glue => ?_
  refine (orTrap_yields (·.AllGlue program.BytecodeGlue) glue).bind fun result resultGlue => ?_
  exact .pure ⟨resultGlue, writebacksGlue⟩

/-- A request both doors let through is for a bytecode function. -/
theorem bytecode_of_checkSignature {function : UInt32} {count : Nat}
    (passed : (checkSignature program function count : Except (VmError world.Error) Unit) = .ok ()) :
    program.Bytecode function.toNat := by
  intro proto found
  unfold checkSignature at passed
  rw [found] at passed
  dsimp only at passed
  split_ifs at passed with native
  simpa using native

/-- A nested run leaves the outer machine as it was, but for the heap and the
host. -/
theorem reenter_safe (checked : program.Checked) {run : Vm world Dispatched}
    (loop : LoopSafe trust False run) : ReenterSafe trust (reenter program run) := by
  intro frames stack constants function args capture glue
  unfold reenter
  cases passed : (checkSignature program function args.length :
      Except (VmError world.Error) Unit) with
  | error error => exact .pure (by simp)
  | ok _ =>
    have bytecode := bytecode_of_checkSignature passed
    intro outer sound
    have restored (heap : Machine world → Heap)
        (tidy : ∀ nested : Machine world, nested.Sound trust (FramesReady program) Any Any →
          (heap nested).Tidy program.BytecodeGlue) :
        Meets (Machine.Sound trust (FramesReady program) Any Any)
          (modify fun nested => { outer with heap := heap nested, host := nested.host } :
            Vm world Unit)
          (fun _ => Machine.Sound trust frames stack constants)
          (Stops (Machine.Sound trust frames stack constants)) := fun nested kept =>
      ⟨tidy nested kept, kept.host, sound.frames, sound.stack, sound.constants⟩
    have caught {α : Type} {operation : Vm world α}
        (safe : SafeVm trust (FramesReady program) Any Any operation) :
        Meets (Machine.Sound trust (FramesReady program) Any Any) (attempt operation)
          (fun _ => Machine.Sound trust (FramesReady program) Any Any)
          (Stops (Machine.Sound trust frames stack constants)) :=
      (attempt_safe safe).meets.weaken (fun _ sound => sound) (fun _ _ sound => sound)
        fun _ _ => Stops.imp fun _ => False.elim
    change Ends _ _ ((get >>= (_ : Machine world → Vm world _)) outer)
    rw [bind_run_ok (get_run _), bind_run_ok (set_run _ _)]
    suffices nested : Meets (Machine.Sound trust (FramesReady program) Any Any) _
        (fun (returned : Except (VmError world.Error) NativeReturn) machine =>
          (∀ values, returned = .ok values → values.AllGlue program.BytecodeGlue) ∧
            Machine.Sound trust frames stack constants machine)
        (Stops (Machine.Sound trust frames stack constants)) from
      nested (freshMachine outer.heap outer.host)
        ⟨sound.heap, sound.host, trivial, trivial, trivial⟩
    refine Meets.bind (caught (enterCapturing_safe checked loop bytecode glue capture))
      fun outcome => ?_
    refine Meets.bind releaseConstants_safe.meets fun _ =>
      Meets.bind releaseUndelivered_safe.meets fun _ => ?_
    cases outcome with
    | error error =>
      exact Meets.bind (restored (·.heap) fun _ kept => kept.heap) fun _ machine kept =>
        ⟨by simp, kept⟩
    | ok answer =>
      refine Meets.bind ((attempt_meets (liftReturn_yields function answer.1 answer.2)).weaken
        (fun _ sound => sound) (fun _ _ reached => reached)
        fun _ _ => Stops.imp fun _ => False.elim) fun lifted => ?_
      cases lifted with
      | ok returned =>
        refine Meets.of_known fun returnedGlue => ?_
        refine Meets.bind (restored (·.heap) fun _ kept => kept.heap)
          fun _ machine kept => ⟨?_, kept⟩
        intro values same
        cases same
        exact returnedGlue
      | error error =>
        exact Meets.bind (restored (fun _ => Heap.new outer.heap.addressOf)
          fun _ _ => .empty _) fun _ machine kept => ⟨by simp, kept⟩

/-! ## The loop -/

theorem LoopSafe.imp {answered weaker : Prop} (implies : weaker → answered)
    {run : Vm world Dispatched} (loop : LoopSafe trust answered run) : LoopSafe trust weaker run :=
  fun constants => (loop constants).weaken
    (fun _ sound => sound.weakenFrames fun _ going => ⟨going.ready, going.goes.imp implies id⟩)
    (fun _ _ sound => sound) (fun _ _ stopped => stopped)

theorem turn_meets (checked : program.Checked) {fuel : Nat}
    (loop : ∀ budget completed, LoopSafe trust (Option.isSome completed = true)
      (dispatch program fuel budget completed))
    (budget : Option Nat) (completed : Option Value) :
    Meets (Machine.Sound trust (Going program False) Any constants)
      (if budget = some 0 then pure .suspended
        else do
          let instruction ← fetch program
          let answer ← execute (reenter program (dispatch program fuel none none)) program
            instruction
          dispatch program fuel (budget.map (· - 1)) (completed <|> answer) :
        Vm world Dispatched)
      (fun outcome => Machine.Sound trust (Going program (outcome ≠ .suspended)) Any constants)
      (Stops (Machine.Sound trust Any Any constants)) := by
  have nested := reenter_safe checked ((loop none none).imp False.elim)
  split
  · intro machine sound
    exact sound.weakenFrames fun _ going => ⟨going.ready, going.goes.imp False.elim id⟩
  · refine Meets.bind (fetch_meets checked) fun instruction machine fetched => ?_
    rcases fetched with ⟨function, fetched⟩
    refine Meets.bind (execute_meets checked nested) (fun answer => ?_) machine fetched
    refine (loop (budget.map (· - 1)) (completed <|> answer) constants).weaken ?_
      (fun _ _ sound => sound) (fun _ _ stopped => stopped)
    intro machine sound
    refine sound.weakenFrames fun _ going => ⟨going.ready, going.goes.imp_left ?_⟩
    cases completed with
    | none => exact id
    | some value => exact fun _ => rfl

/-- Every turn keeps the machine sound, and so does the whole loop, from every
state that has a frame to run or an answer to give. -/
theorem dispatch_safe (checked : program.Checked) (fuel : Nat) (budget : Option Nat)
    (completed : Option Value) :
    LoopSafe trust (completed.isSome = true) (dispatch program fuel budget completed) := by
  induction fuel generalizing budget completed with
  | zero => exact fun constants machine sound => trivial
  | succ fuel ih =>
    intro constants
    refine Meets.bind (meets_anyFrames (settleOwed_safe checked)) fun again => ?_
    cases again with
    | true => exact ih budget completed constants
    | false =>
      rw [if_neg Bool.false_ne_true]
      refine Meets.of_get fun machine sound => ?_
      have running (nonempty : machine.frames ≠ []) :
          machine.Sound trust (Going program False) Any constants :=
        ⟨sound.heap, sound.host, ⟨sound.frames.ready, .inr nonempty⟩, trivial,
          sound.constants⟩
      cases completed with
      | none =>
        have nonempty := sound.frames.goes.resolve_left (by simp)
        exact turn_meets checked ih budget none machine (running nonempty)
      | some value =>
        cases left : machine.frames with
        | nil =>
          refine ⟨sound.heap, sound.host, ⟨sound.frames.ready, .inl ?_⟩, trivial,
            sound.constants⟩
          exact fun same => nomatch same
        | cons frame callers =>
          exact turn_meets checked ih budget (some value) machine (running (by simp [left]))

end Vm

end KiraVm
