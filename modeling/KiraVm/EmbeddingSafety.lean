import KiraVm.Embedding
import KiraVm.InterpreterSafety

/-!
# Safe doors

A validated module that is entered at a bytecode function never makes the
interpreter index one of its tables out of bounds, through whichever door it is
entered and however its run is cut into slices, as long as the trees brought in
from outside name no native function as a `Drop` body.
-/

namespace KiraVm

open StateLogic Vm

variable {world : World}

/-- The run indexed a table out of bounds. -/
def Panics {ε σ α : Type} : EStateM.Result (Fault ε) σ α → Prop
  | .error .panic _ => True
  | _ => False

theorem not_panics_of_ends {α : Type} {post : α → Machine world → Prop}
    {after : Machine world → Prop} {result : EStateM.Result (Fault world.Error) (Machine world) α}
    (ends : Ends post (Stops after) result) : ¬Panics result := by
  cases result with
  | ok answer machine => exact id
  | error fault machine =>
    cases fault with
    | trap error => exact id
    | panic => exact fun _ => ends
    | outOfFuel => exact id

/-- The slots a heap hands out again are slots of its table. -/
def Heap.FreeInBounds (heap : Heap) : Prop :=
  ∀ slot ∈ heap.freeList, slot < heap.slots.length

/-! ## Programs -/

namespace Program

variable {program : Program} {trust : Trust world program.code.BytecodeGlue}

theorem checked (program : Program) : program.code.Checked :=
  Module.checked_of_validate program.valid

theorem unsliced_safe (fuel : Nat) : LoopSafe trust False (program.unsliced fuel) :=
  (dispatch_safe program.checked fuel none none).imp False.elim

theorem freshMachine_sound {heap : Heap} {host : world.State}
    (tidy : heap.Tidy program.code.BytecodeGlue) (good : trust.good host) :
    (freshMachine heap host).Sound trust (FramesReady program.code) Any Any :=
  ⟨tidy, good, trivial, trivial, trivial⟩

/-- A caught run, of which only its outcome matters. -/
theorem attempted_safe {α : Type} {operation : Vm world α}
    (safe : SafeVm trust (FramesReady program.code) Any Any operation) :
    SafeVm trust (FramesReady program.code) Any Any (attempt operation) :=
  ⟨(attempt_safe safe).meets.weaken (fun _ sound => sound) (fun _ _ sound => sound)
    fun _ _ => Stops.imp fun _ => False.elim⟩

theorem run_safe (fuel : Nat)
    (bytecode : ∀ main ∈ program.code.main, program.code.Bytecode main.toNat) :
    SafeVm trust (FramesReady program.code) Any Any (program.run fuel) := by
  refine (orTrap_yields (fun main => program.code.main = some main) fun _ found =>
    found).bind_safe fun main found => ?_
  refine Safe.of_bind (attempted_safe (enter_safe program.checked (unsliced_safe fuel)
    (bytecode main found) (by simp))) fun outcome => ?_
  infer_instance

theorem callCapturing_safe (fuel : Nat) (function : UInt32) {args : List NativeArg}
    (glue : ∀ argument ∈ args, argument.AllGlue program.code.BytecodeGlue)
    (capture : List UInt32) :
    SafeVm trust (FramesReady program.code) Any Any
      (program.callCapturing fuel function args capture) := by
  refine (ofExcept_yields (fun _ => checkSignature program.code function args.length =
    (.ok () : Except (VmError world.Error) Unit)) fun _ passed => passed).bind_safe
      fun _ passed => ?_
  refine Safe.of_bind (attempted_safe (enterCapturing_safe program.checked (unsliced_safe fuel)
    (bytecode_of_checkSignature passed) glue capture)) fun outcome => ?_
  have lifted (value : Value) (captured : List (UInt32 × Value)) :
      SafeVm trust (FramesReady program.code) Any Any
        (liftReturn function value captured : Vm world NativeReturn) :=
    (liftReturn_yields function value captured).safe
  infer_instance

theorem lowerTrees_safe {trees : List NativeStateValue}
    (glue : ∀ tree ∈ trees, tree.AllGlue program.code.BytecodeGlue) :
    SafeVm trust (FramesReady program.code) Any Any (lowerTrees trees : Vm world (List Value)) := by
  induction trees with
  | nil =>
    unfold lowerTrees
    infer_instance
  | cons tree trees ih =>
    have others := ih fun other member => glue other (List.mem_cons_of_mem tree member)
    exact Safe.of_bind (fromNativeState_safe (glue tree (by simp))) fun _ => inferInstance

theorem callState_safe (fuel : Nat) (function : UInt32) {args : List NativeStateValue}
    (glue : ∀ tree ∈ args, tree.AllGlue program.code.BytecodeGlue) :
    SafeVm trust (FramesReady program.code) Any Any (program.callState fuel function args) := by
  refine (ofExcept_yields (fun _ => checkSignature program.code function args.length =
    (.ok () : Except (VmError world.Error) Unit)) fun _ passed => passed).bind_safe
      fun _ passed => ?_
  refine Safe.of_bind (lowerTrees_safe glue) fun lowered => ?_
  refine Safe.of_bind (attempted_safe (enterValues_safe program.checked (unsliced_safe fuel)
    (bytecode_of_checkSignature passed) lowered)) fun outcome => ?_
  refine Safe.of_bind inferInstance fun _ => Safe.of_bind inferInstance fun result =>
    Safe.of_bind inferInstance fun _ => ?_
  split
  · infer_instance
  · refine Safe.of_bind (onHeap_keeps fun heap tidy => (tidy.intoNativeState result).heap)
      fun answer => ?_
    split <;> infer_instance

end Program

/-! ## Instances -/

namespace Instance

variable {program : Program} {trust : Trust world program.code.BytecodeGlue} {inst : Instance}

/-- An instance after any calls and releases: calls that return or trap, on good
hosts, with arguments that name only bytecode functions as `Drop` bodies. -/
inductive Reaches (program : Program) (trust : Trust world program.code.BytecodeGlue) :
    Instance → Prop
  | new (addressOf : Nat → UInt64) : Reaches program trust (Instance.new addressOf)
  | call {inst after : Instance} (fuel : Nat) {host hostAfter : world.State} (function : UInt32)
      {args : List NativeArg} {outcome : Except (VmError world.Error) NativeResult}
      (reached : Reaches program trust inst) (good : trust.good host)
      (glue : ∀ argument ∈ args, argument.AllGlue program.code.BytecodeGlue)
      (called : Instance.call program fuel inst host function args =
        .ok (outcome, after, hostAfter)) : Reaches program trust after
  | release {inst : Instance} (root : UInt64) (reached : Reaches program trust inst) :
      Reaches program trust (inst.release root : Except (VmError world.Error) Unit × Instance).2

/-- The heap is tidy, and kept frames are ready. -/
structure Sound (program : Program) (inst : Instance) : Prop where
  heap : inst.heap.Tidy program.code.BytecodeGlue
  frames : FramesReady program.code inst.scratch.frames

theorem discard_tidy {allowed : UInt32 → Prop} {heap : Heap} (tidy : heap.Tidy allowed)
    (values : List Value) : (discard heap values).Tidy allowed := by
  refine List.foldlRecOn values _ tidy ?_
  exact fun heap tidy value _ => tidy.dropValue value

theorem lowerArgs_tidy (inst : Instance) (function : UInt32) {heap : Heap}
    {allowed : UInt32 → Prop} (tidy : heap.Tidy allowed) (lowered : List Value)
    {args : List NativeArg} (glue : ∀ argument ∈ args, argument.AllGlue allowed) :
    (inst.lowerArgs function heap lowered args :
      Except (VmError world.Error) (List Value) × Heap).2.Tidy allowed := by
  induction args generalizing heap lowered with
  | nil => exact tidy
  | cons argument arguments ih =>
    have others : ∀ other ∈ arguments, other.AllGlue allowed := fun other member =>
      glue other (List.mem_cons_of_mem argument member)
    unfold lowerArgs
    split
    · split
      · exact ih (tidy.copyValue _) _ others
      · exact discard_tidy tidy lowered
    case h_2 =>
      have brought := tidy.lower (glue argument (by simp))
      split
      all_goals
        rename_i lowering
        rw [lowering] at brought
      · exact ih brought _ others
      · exact discard_tidy brought lowered

theorem liftResult_sound (sound : Sound program inst) (function : UInt32) (result : Value) :
    Sound program
      (inst.liftResult function result : Except (VmError world.Error) NativeResult × Instance).2 := by
  have dropped := sound.heap.dropValue result
  have lifted := sound.heap.liftTransfer result
  unfold liftResult
  split
  · split
    · exact ⟨sound.heap, sound.frames⟩
    · exact ⟨dropped, sound.frames⟩
  · exact ⟨dropped, sound.frames⟩
  · exact ⟨dropped, sound.frames⟩
  · split
    all_goals
      rename_i lifting
      rw [lifting] at lifted
      exact ⟨lifted, sound.frames⟩

theorem entered_safe (fuel : Nat) {function : UInt32} {count : Nat}
    (passed : (checkSignature program.code function count : Except (VmError world.Error) Unit) =
      .ok ()) (lowered : List Value) :
    SafeVm trust (FramesReady program.code) Any Any
      (do
        let outcome ← attempt (enterValues program.code (program.unsliced fuel) function lowered)
        releaseUndeliveredChannelPayloads
        pure outcome : Vm world (Except (VmError world.Error) Value)) :=
  Safe.of_bind (Program.attempted_safe (enterValues_safe program.checked
    (Program.unsliced_safe fuel) (bytecode_of_checkSignature passed) lowered))
    fun _ => inferInstance

theorem call_sound (fuel : Nat) (sound : Sound program inst) {host : world.State}
    (good : trust.good host) (function : UInt32) {args : List NativeArg}
    (glue : ∀ argument ∈ args, argument.AllGlue program.code.BytecodeGlue) :
    match Instance.call program fuel inst host function args with
    | .ok (_, after, _) => Sound program after
    | .error fault => fault ≠ .panic := by
  unfold Instance.call
  cases passed : (checkSignature program.code function args.length :
      Except (VmError world.Error) Unit) with
  | error error => exact sound
  | ok _ =>
    have brought : (inst.lowerArgs function inst.heap [] args :
        Except (VmError world.Error) (List Value) × Heap).2.Tidy program.code.BytecodeGlue :=
      lowerArgs_tidy inst function sound.heap [] glue
    dsimp only
    cases lowering : (inst.lowerArgs function inst.heap [] args :
        Except (VmError world.Error) (List Value) × Heap) with
    | mk answer heap =>
      rw [lowering] at brought
      cases answer with
      | error error => exact ⟨brought, sound.frames⟩
      | ok lowered =>
        have ends := (entered_safe fuel passed lowered).meets
          (inst.scratch.machine heap world.newExecutors host)
          ⟨brought, good, sound.frames, trivial, trivial⟩
        dsimp only
        cases ended : (do
            let outcome ← attempt
              (enterValues program.code (program.unsliced fuel) function lowered)
            releaseUndeliveredChannelPayloads
            pure outcome : Vm world (Except (VmError world.Error) Value))
            (inst.scratch.machine heap world.newExecutors host) with
        | error fault machine =>
          rw [ended] at ends
          rintro rfl
          exact ends
        | ok outcome machine =>
          rw [ended] at ends
          have after : Sound program
              { inst with heap := machine.heap, scratch := .ofMachine machine } :=
            ⟨ends.heap, ends.frames⟩
          cases outcome with
          | error error => exact after
          | ok result => exact liftResult_sound after function result

/-- Every call of a reached instance keeps to its tables. -/
theorem Reaches.sound (reached : Reaches program trust inst) : Sound program inst := by
  induction reached with
  | new addressOf => exact ⟨.empty addressOf, trivial⟩
  | call fuel function reached good glue called sound =>
    have after := call_sound fuel sound good function glue
    rw [called] at after
    exact after
  | release root reached sound =>
    unfold Instance.release
    split
    · exact sound
    · exact ⟨(sound.heap.dropValue _).abandonPendingDrops, sound.frames⟩

end Instance

/-! ## Fibers -/

namespace Fiber

variable {program : Program} {trust : Trust world program.code.BytecodeGlue} {fiber : Fiber world}

/-- A fiber of a bytecode function after any slices of any budgets. -/
inductive Reaches (program : Program) (trust : Trust world program.code.BytecodeGlue) :
    Fiber world → Prop
  | new {function : UInt32} (bytecode : program.code.Bytecode function.toNat)
      (addressOf : Nat → UInt64) : Reaches program trust (Fiber.new function addressOf)
  | step {fiber after : Fiber world} (fuel budget : Nat) {host hostAfter : world.State}
      {outcome : Except (VmError world.Error) FiberStep} (reached : Reaches program trust fiber)
      (good : trust.good host)
      (stepped : fiber.step program fuel budget host = .ok (outcome, after, hostAfter)) :
      Reaches program trust after

/-- The heap is tidy, and a fiber that has started has frames to go on with until
it is finished. -/
structure Sound (program : Program) (fiber : Fiber world) : Prop where
  bytecode : program.code.Bytecode fiber.function.toNat
  heap : fiber.heap.Tidy program.code.BytecodeGlue
  frames : FramesReady program.code fiber.scratch.frames
  goes : fiber.started = true → fiber.finished = false → fiber.scratch.frames ≠ []

theorem slice_meets (sound : Sound program fiber) (unfinished : fiber.finished = false)
    (fuel budget : Nat) :
    Meets
      (Machine.Sound trust (fun frames => frames = fiber.scratch.frames) Any Any)
      (fiber.slice program fuel budget)
      (fun outcome => Machine.Sound trust (Going program.code (outcome ≠ .suspended)) Any Any)
      (Stops (Machine.Sound trust (FramesReady program.code) Any Any)) := by
  have loop : LoopSafe trust False (dispatch program.code fuel (some budget) none) :=
    (dispatch_safe program.checked fuel (some budget) none).imp False.elim
  unfold slice
  dsimp only
  split
  case isTrue started =>
    refine (dispatchFrames_meets loop).weaken ?_ (fun _ _ sound => sound)
      (fun _ _ stopped => stopped)
    intro machine kept
    refine kept.weakenFrames fun frames same => ?_
    subst same
    exact ⟨sound.frames, .inr (sound.goes started unfinished)⟩
  case isFalse =>
    have ready (machine : Machine world)
        (kept : machine.Sound trust (fun frames => frames = fiber.scratch.frames) Any Any) :
        machine.Sound trust (FramesReady program.code) Any Any :=
      kept.weakenFrames fun frames same => by
        subst same
        exact sound.frames
    refine Meets.weaken ?_ ready (fun _ _ sound => sound) (fun _ _ stopped => stopped)
    refine Meets.bind (ensureConstants_safe program.checked (Program.unsliced_safe fuel)).meets
      fun _ => ?_
    refine Meets.bind (takeFrame_yields program.checked (by simpa using sound.bytecode))
      fun frame => ?_
    refine Meets.of_known fun entered => ?_
    refine Meets.bind ?_ fun _ => dispatchFrames_meets loop
    intro machine kept
    exact ⟨kept.heap, kept.host, ⟨⟨entered.ready, .of_nil entered.writebacks _, kept.frames⟩,
      .inr (by simp)⟩, trivial, trivial⟩

theorem closed_meets (sound : Sound program fiber) (unfinished : fiber.finished = false)
    (fuel budget : Nat) :
    Meets
      (Machine.Sound trust (fun frames => frames = fiber.scratch.frames) Any Any)
      (do
        let outcome ← attempt (fiber.slice program fuel budget)
        closeSlice outcome
        pure outcome : Vm world (Except (VmError world.Error) Dispatched))
      (fun outcome machine =>
        machine.Sound trust (Going program.code (outcome ≠ .ok .suspended)) Any Any)
      (Stops fun _ => False) := by
  refine Meets.bind (attempt_meets (slice_meets sound unfinished fuel budget)) fun outcome => ?_
  match outcome with
  | .error error =>
    refine Meets.bind (releaseUndelivered_safe.meets) fun _ machine kept => ?_
    exact kept.weakenFrames fun _ ready => ⟨ready, .inl (by simp)⟩
  | .ok .suspended =>
    exact fun machine kept => kept.weakenFrames fun _ going =>
      ⟨going.ready, going.goes.imp (fun ended => (ended rfl).elim) id⟩
  | .ok (.completed value) =>
    have closed : Safe (Machine.Sound trust (Going program.code
        ((Dispatched.completed value) ≠ .suspended)) Any Any) (Stops fun _ => False)
        (closeSlice (.ok (.completed value)) : Vm world Unit) := by
      unfold closeSlice
      infer_instance
    refine Meets.bind closed.meets fun _ machine kept => ?_
    exact kept.weakenFrames fun _ going => ⟨going.ready, .inl (by simp)⟩

/-- What a slice leaves, when it does not panic. -/
theorem step_sound (sound : Sound program fiber) (fuel budget : Nat) {host : world.State}
    (good : trust.good host) :
    match fiber.step program fuel budget host with
    | .ok (_, after, _) => Sound program after
    | .error fault => fault ≠ .panic := by
  unfold Fiber.step
  cases unfinished : fiber.finished with
  | true => exact sound
  | false =>
    have ready : Machine.Sound trust (fun frames => frames = fiber.scratch.frames) Any Any
        (fiber.scratch.machine fiber.heap fiber.executors host) :=
      ⟨sound.heap, good, rfl, trivial, trivial⟩
    have ends := closed_meets sound unfinished fuel budget _ ready
    rw [if_neg Bool.false_ne_true]
    dsimp only
    cases ended : (do
        let outcome ← attempt (fiber.slice program fuel budget)
        closeSlice outcome
        pure outcome : Vm world (Except (VmError world.Error) Dispatched))
        (fiber.scratch.machine fiber.heap fiber.executors host) with
    | error fault machine =>
      rw [ended] at ends
      rintro rfl
      exact ends
    | ok outcome machine =>
      rw [ended] at ends
      match outcome with
      | .error error => exact ⟨sound.bytecode, ends.heap, ends.frames.ready, by simp⟩
      | .ok (.completed value) =>
        exact ⟨sound.bytecode, ends.heap.dropValue value, ends.frames.ready, by simp⟩
      | .ok .suspended =>
        refine ⟨sound.bytecode, ends.heap, ends.frames.ready, fun _ _ => ?_⟩
        exact ends.frames.goes.resolve_left fun ended => ended rfl

theorem Reaches.sound (reached : Reaches program trust fiber) : Sound program fiber := by
  induction reached with
  | new bytecode addressOf => exact ⟨bytecode, .empty addressOf, trivial, by simp [Fiber.new]⟩
  | step fuel budget reached good stepped sound =>
    have after := step_sound sound fuel budget good
    rw [stepped] at after
    exact after

end Fiber

/-! ## Every door -/

/-- The interpreter of a validated module stays inside its tables: when it runs a
bytecode entrypoint, answers a request, is called on an instance after any calls
and releases, or goes on with a fiber of a bytecode function after any slices.
Everything brought in from outside names only bytecode functions as `Drop`
bodies. -/
theorem validated_run_never_panics (program : Program)
    (trust : Trust world program.code.BytecodeGlue) :
    (∀ fuel addressOf host, trust.good host →
      (∀ main ∈ program.code.main, program.code.Bytecode main.toNat) →
      ¬Panics (program.run fuel (freshMachine (Heap.new addressOf) host))) ∧
    (∀ fuel addressOf host function args capture, trust.good host →
      (∀ argument ∈ args, argument.AllGlue program.code.BytecodeGlue) →
      ¬Panics (program.callCapturing fuel function args capture
        (freshMachine (Heap.new addressOf) host))) ∧
    (∀ fuel addressOf host function args, trust.good host →
      (∀ tree ∈ args, tree.AllGlue program.code.BytecodeGlue) →
      ¬Panics (program.callState fuel function args (freshMachine (Heap.new addressOf) host))) ∧
    (∀ inst, Instance.Reaches program trust inst →
      inst.heap.FreeInBounds ∧
      ∀ fuel host function args, trust.good host →
        (∀ argument ∈ args, argument.AllGlue program.code.BytecodeGlue) →
        Instance.call program fuel inst host function args ≠ .error .panic) ∧
    (∀ fiber, Fiber.Reaches program trust fiber →
      fiber.heap.FreeInBounds ∧
      ∀ fuel budget host, trust.good host →
        fiber.step program fuel budget host ≠ .error .panic) := by
  refine ⟨?_, ?_, ?_, ?_, ?_⟩
  · intro fuel addressOf host good bytecode
    exact not_panics_of_ends ((Program.run_safe fuel bytecode).meets _
      (Program.freshMachine_sound (.empty addressOf) good))
  · intro fuel addressOf host function args capture good glue
    exact not_panics_of_ends ((Program.callCapturing_safe fuel function glue capture).meets _
      (Program.freshMachine_sound (.empty addressOf) good))
  · intro fuel addressOf host function args good glue
    exact not_panics_of_ends ((Program.callState_safe fuel function glue).meets _
      (Program.freshMachine_sound (.empty addressOf) good))
  · intro inst reached
    refine ⟨reached.sound.heap.free, ?_⟩
    intro fuel host function args good glue panicked
    have kept := Instance.call_sound fuel reached.sound good function glue
    rw [panicked] at kept
    exact kept rfl
  · intro fiber reached
    refine ⟨reached.sound.heap.free, ?_⟩
    intro fuel budget host good panicked
    have kept := Fiber.step_sound reached.sound fuel budget good
    rw [panicked] at kept
    exact kept rfl

/-! ## A native entrypoint -/

/-- It hands no tree in, so every state of it can be trusted. -/
def Trust.bare (allowed : UInt32 → Prop) : Trust World.bare allowed where
  good := fun _ => True
  keeps := by
    constructor
    all_goals intros
    all_goals
      simp [World.bare, refuse, HostScript.Trusted, AnswersGlue]

def Module.ofFunctions (functions : List FuncProto) : Module where
  functions := functions
  main := some 0
  strings := ["text"]
  exports := .default
  foreignImports := []
  foreignAggregates := .empty
  foreignCallbacks := []
  constants := []
  types := []

def printingModule : Module :=
  .ofFunctions
    [{ name := "main", paramCount := 0, localCount := 0, execution := .runtime,
       code := [.constStr 0, .print, .return_], releases := .everyLocal }]

theorem printing_run_never_panics :
    ∃ valid : printingModule.validate = .ok (),
      ¬Panics ((⟨printingModule, valid⟩ : Program).run 9
        (freshMachine (Heap.new fun _ => 0) [] : Machine World.bare)) ∧
      @Instance.call World.bare ⟨printingModule, valid⟩ 9 (.new fun _ => 0) [] 0 [] ≠
        .error .panic ∧
      (Fiber.new 0 (fun _ => 0) : Fiber World.bare).step ⟨printingModule, valid⟩ 9 1 [] ≠
        .error .panic := by
  have valid : printingModule.validate = .ok () := by decide
  have safe := validated_run_never_panics ⟨printingModule, valid⟩ (.bare _)
  have bytecode : Module.Bytecode printingModule 0 := by
    intro function found
    cases found
    rfl
  refine ⟨valid, ?_, ?_, ?_⟩
  · refine safe.1 9 _ [] trivial fun main found => ?_
    cases found
    exact bytecode
  · exact (safe.2.2.2.1 _ (.new _)).2 9 [] 0 [] trivial (by simp)
  · exact (safe.2.2.2.2 _ (.new bytecode _)).2 9 1 [] trivial

def nativeEntrypoint : Module :=
  .ofFunctions
    [{ name := "main", paramCount := 0, localCount := 0, execution := .native, code := [],
       releases := .everyLocal }]

/-- Validation accepts a native entrypoint, and running it fetches an instruction
that is not there. -/
theorem native_entrypoint_panics :
    ∃ valid : nativeEntrypoint.validate = .ok (),
      Panics ((⟨nativeEntrypoint, valid⟩ : Program).run 1
        (freshMachine (Heap.new fun _ => 0) [] : Machine World.bare)) :=
  ⟨by decide, trivial⟩

end KiraVm
