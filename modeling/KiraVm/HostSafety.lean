import KiraVm.InstructionSafety

/-!
# Safe calls into the host

Requests to the host, and calls into native and foreign code, keep the machine
sound.  A host that enters the interpreter again during a call is followed
through the call.
-/

namespace KiraVm

namespace Vm

open StateLogic

variable {world : World} {allowed : UInt32 → Prop} {trust : Trust world allowed}
  {frames : List Frame → Prop} {stack constants : List Value → Prop} {α : Type}

/-! ## Requests -/

theorem withOperands_yields (count : Nat) {perform : List Value → Vm world α} {holds : α → Prop}
    (performed : ∀ operands, YieldsVm trust frames Any constants (perform operands) holds) :
    YieldsVm trust frames Any constants (withOperands count perform) holds := by
  refine .of_bind inferInstance fun popped => ?_
  refine Yields.bind (onTrap_meets (performed popped.reverse) (discard_safe _).meets) fun answer kept => ?_
  exact .of_bind inferInstance fun _ => .pure kept

theorem withOperands_safe (count : Nat) {perform : List Value → Vm world α}
    (performed : ∀ operands, SafeVm trust frames Any constants (perform operands)) :
    SafeVm trust frames Any constants (withOperands count perform) := by
  unfold withOperands
  infer_instance

instance stringArrayValue_safe (texts : List String) :
    SafeVm trust frames stack constants (stringArrayValue texts : Vm world Value) := by
  unfold stringArrayValue
  infer_instance

instance fileSystemValue_safe (response : FileResponse) :
    SafeVm trust frames stack constants (fileSystemValue response : Vm world Value) := by
  unfold fileSystemValue
  split <;> infer_instance

instance fileSystem_safe (op : FileSystemOp) :
    SafeVm trust frames Any constants (fileSystem op : Vm world Unit) :=
  Safe.of_bind (withOperands_safe _ fun _ => inferInstance) fun _ => inferInstance

instance compiler_safe (op : CompilerOp) :
    SafeVm trust frames Any constants (compiler op : Vm world Unit) :=
  Safe.of_bind (withOperands_safe _ fun _ => inferInstance) fun _ => inferInstance

instance popEnvName_safe : SafeVm trust frames Any constants (popEnvName : Vm world String) := by
  refine popThen_safe fun operand => Safe.of_bind inferInstance fun heap =>
    Safe.of_bind inferInstance fun _ => ?_
  split <;> infer_instance

instance env_safe (op : EnvOp) : SafeVm trust frames Any constants (env op : Vm world Unit) := by
  unfold env
  cases op <;> infer_instance

/-! ## The main thread -/

theorem seamTree_yields (value : Value) :
    YieldsVm trust frames stack constants (onHeap fun heap => heap.seamTree value : Vm world _)
      (fun tree => ∀ node, tree = some node → node.AllGlue allowed) :=
  onHeap_yields _ fun _ tidy => ⟨fun _ found => tidy.seamTree_glue found, tidy.seamTree value⟩

theorem requestArgs_yields (function : UInt64) (values : List Value) :
    YieldsVm trust frames stack constants (requestArgs function values : Vm world _)
      (fun trees => ∀ tree ∈ trees, tree.AllGlue allowed) := by
  induction values with
  | nil => exact .pure (by simp)
  | cons value values ih =>
    refine (seamTree_yields value).bind fun tree glue => ?_
    refine (orTrap_yields (·.AllGlue allowed) glue).bind fun tree treeGlue => ?_
    refine ih.bind fun trees rest => .pure ?_
    intro other member
    rcases List.mem_cons.mp member with rfl | tail
    · exact treeGlue
    · exact rest other tail

instance mainThreadCall_safe (operation : MainThreadOp) (function count : UInt64) :
    SafeVm trust frames Any constants (mainThreadCall operation function count : Vm world Unit) := by
  have asked : SafeVm trust frames Any constants
      (do
        let args ← withOperands count.toNat (requestArgs function)
        let response ← tryHost .mainThread (world.mainThread ⟨operation, function.toUInt32, args⟩)
        match operation, response with
        | .invoke, .value tree => do
          let value ← onHeap fun heap => heap.fromNativeState tree
          push value
        | .invoke, .posted | .post, .posted | .lifecycleStart, .posted => push .void
        | .spawn, .spawned handle => push (.mainThreadTask handle)
        | operation, _ => trap (.mainThreadResponse operation) : Vm world Unit) := by
    refine (withOperands_yields count.toNat (requestArgs_yields function)).bind_safe
      fun args glue => ?_
    refine (tryHost_yields (fun response => ∀ tree, response = .value tree → tree.AllGlue allowed)
      fun host good => ?_).bind_safe fun response answered => ?_
    · have kept := trust.keeps.mainThread ⟨operation, function.toUInt32, args⟩ host good glue
      refine ⟨kept.1, ?_⟩
      intro response responded tree same
      subst same
      exact kept.2 tree responded
    · split
      · exact Safe.of_bind (fromNativeState_safe (answered _ rfl)) fun _ => inferInstance
      all_goals infer_instance
  unfold mainThreadCall
  split
  · exact Safe.of_bind inferInstance fun _ => asked
  · exact asked

instance mainThreadJoin_safe :
    SafeVm trust frames Any constants (mainThreadJoin : Vm world Unit) := by
  refine popThen_safe fun value => ?_
  split
  case h_1 handle =>
    refine (tryHost_yields (·.AllGlue allowed) fun host good =>
      trust.keeps.mainThreadJoin handle host good).bind_safe fun tree glue => ?_
    exact Safe.of_bind (fromNativeState_safe glue) fun _ => inferInstance
  case h_2 => infer_instance

instance taskOp_safe (prim : TaskPrim) :
    SafeVm trust frames Any constants (taskOp prim : Vm world Unit) := by
  unfold taskOp
  infer_instance

instance channelOp_safe (prim : ChannelPrim) :
    SafeVm trust frames Any constants (channelOp prim : Vm world Unit) := by
  refine Safe.of_bind inferInstance fun third => Safe.of_bind inferInstance fun second =>
    Safe.of_bind inferInstance fun first => Safe.of_bind inferInstance fun answer => ?_
  dsimp only
  split <;> infer_instance

/-! ## Entering again from a host call -/

/-- An entry from the host is safe whatever is running, when it brings allowed
trees; it takes allowed trees out. -/
def ReenterSafe (trust : Trust world allowed) (reenter : Reenter world) : Prop :=
  ∀ (frames : List Frame → Prop) (stack constants : List Value → Prop) function args capture,
    (∀ argument ∈ args, argument.AllGlue allowed) →
    YieldsVm trust frames stack constants (reenter function args capture)
      (fun returned => ∀ values, returned = .ok values → values.AllGlue allowed)

theorem runScript_yields {reenter : Reenter world} (safe : ReenterSafe trust reenter)
    {answers : α → Prop} (script : HostScript world.State world.Error α)
    (trusted : script.Trusted allowed trust.good answers) :
    YieldsVm trust frames stack constants (runScript reenter script) answers := by
  induction script with
  | done answer host =>
    refine .of_bind ?_ fun _ => .pure trusted.1
    exact Safe.modify fun machine sound =>
      ⟨sound.heap, trusted.2, sound.frames, sound.stack, sound.constants⟩
  | enter host function args capture next ih =>
    rcases trusted with ⟨good, glue, rest⟩
    refine .of_bind (Safe.modify fun machine sound =>
      ⟨sound.heap, good, sound.frames, sound.stack, sound.constants⟩) fun _ => ?_
    refine (safe frames stack constants function args capture glue).bind
      fun returned returnedGlue => ?_
    -- the host goes on from the state the nested run left it in
    intro machine sound
    exact ih returned machine.host (rest returned machine.host sound.host returnedGlue) machine
      sound

/-! ## Writing back -/

section Running

variable {program : Module} {width : Nat}

theorem writeBack_safe {writeback : Writeback} (inside : writeback.slot.toNat < width)
    (value : Value) :
    SafeVm trust (Running program width) stack constants
      (writeBack writeback value : Vm world Unit) := by
  refine Safe.of_bind Safe.get fun machine => ?_
  split
  · infer_instance
  · split
    · split <;> infer_instance
    · have stored : SafeVm trust (Running program width) stack constants
          (storePlace writeback.slot writeback.steps value : Vm world Unit) :=
        storePlace_safe inside _ value
      infer_instance

/-! ## Native calls -/

theorem absorb_safe {result : NativeResult} (glue : result.AllGlue allowed) :
    SafeVm trust frames stack constants
      (onHeap fun heap => heap.absorb result : Vm world (Option Value)) :=
  onHeap_keeps fun _ tidy => tidy.lower glue

theorem storeWriteback_safe (id : UInt32) (arguments : List Value) {writeback : Writeback}
    (inside : writeback.slot.toNat < width) {value : NativeResult} (glue : value.AllGlue allowed) :
    SafeVm trust (Running program width) stack constants
      (storeWriteback id arguments writeback value : Vm world Unit) := by
  unfold storeWriteback
  split
  case h_1 token typeId _ _ =>
    split
    case h_1 tree =>
      have good : GoodQuestion trust (world.nativeStateReplace token typeId tree) :=
        nativeStateReplace_good token typeId glue
      infer_instance
    case h_2 => infer_instance
  case h_2 =>
    refine Safe.of_bind (absorb_safe glue) fun value => Safe.of_bind inferInstance fun value => ?_
    exact writeBack_safe inside value

theorem storeWritebacks_safe (id : UInt32) (arguments : List Value)
    {returned : List (UInt32 × NativeResult)} {writebacks : List Writeback}
    (glue : ∀ entry ∈ returned, entry.2.AllGlue allowed)
    (inside : ∀ writeback ∈ writebacks, writeback.slot.toNat < width) :
    SafeVm trust (Running program width) stack constants
      (storeWritebacks id arguments returned writebacks : Vm world Unit) := by
  induction writebacks with
  | nil =>
    unfold storeWritebacks
    infer_instance
  | cons writeback writebacks ih =>
    refine (orTrap_yields (fun entry => entry.2.AllGlue allowed) ?_).bind_safe
      fun entry entryGlue => ?_
    · intro entry found
      exact glue entry (List.mem_of_find?_eq_some found)
    · refine Safe.of_bind (storeWriteback_safe id arguments (inside writeback (by simp))
        entryGlue) fun _ => ih ?_
      intro other member
      exact inside other (List.mem_cons_of_mem writeback member)

end Running

/-- A stack of so many values. -/
def Deep (depth : Nat) (stack : List Value) : Prop :=
  stack.length = depth

theorem ownAll_length (heap : Heap) (values : List Value) :
    (heap.ownAll values).1.length = values.length := by
  induction values generalizing heap with
  | nil => rfl
  | cons value values ih => simp [Heap.ownAll, ih]

section Deep

variable {count depth : Nat}

theorem ownArguments_safe (enough : count ≤ depth) :
    SafeVm trust frames (Deep depth) constants (ownArguments count : Vm world Unit) := by
  refine Safe.of_get fun machine sound => ?_
  have length : machine.stack.length = depth := sound.stack
  refine ⟨sound.heap.ownAll _, sound.host, sound.frames, ?_, sound.constants⟩
  simp only [Deep, List.length_append, List.length_reverse, ownAll_length, List.length_take,
    List.length_drop, length]
  omega

theorem peek_safe (enough : count ≤ depth) :
    SafeVm trust frames (Deep depth) constants (peek count : Vm world (List Value)) := by
  refine Safe.of_get fun machine sound => ?_
  have length : machine.stack.length = depth := sound.stack
  have there : ¬machine.stack.length < count := by omega
  simp only [there, if_false]
  exact sound

theorem drain_meets (enough : count ≤ depth) :
    Meets (Machine.Sound trust frames (Deep depth) constants)
      (drain count : Vm world (List Value))
      (fun _ => Machine.Sound trust frames Any constants)
      (Stops (Machine.Sound trust frames Any constants)) := by
  intro machine sound
  have length : machine.stack.length = depth := sound.stack
  have there : ¬machine.stack.length < count := by omega
  simp only [drain, bind, EStateM.bind, get_run, there, if_false]
  exact ⟨sound.heap, sound.host, sound.frames, trivial, sound.constants⟩

theorem deep_meets {operation : Vm world α}
    (safe : SafeVm trust frames (Deep depth) constants operation) :
    Meets (Machine.Sound trust frames (Deep depth) constants) operation
      (fun _ => Machine.Sound trust frames (Deep depth) constants)
      (Stops (Machine.Sound trust frames Any constants)) :=
  safe.meets.weaken (fun _ sound => sound) (fun _ _ sound => sound)
    fun _ _ => Stops.imp fun _ sound => sound.anyStack

/-- Take the arguments off the stack and drop them. -/
theorem drainDiscard_meets (enough : count ≤ depth) :
    Meets (Machine.Sound trust frames (Deep depth) constants)
      (do
        let arguments ← drain count
        discard arguments : Vm world Unit)
      (fun _ => Machine.Sound trust frames Any constants)
      (Stops (Machine.Sound trust frames Any constants)) :=
  Meets.bind (drain_meets enough) fun arguments => (discard_safe arguments).meets

theorem argumentTree_yields (id : UInt32) (value : Value) :
    YieldsVm trust frames stack constants (argumentTree id value : Vm world _)
      (fun tree => ∀ node ∈ tree, node.AllGlue allowed) := by
  have copied (refusal : VmError world.Error) : YieldsVm trust frames stack constants
      (do
        let tree ← onHeap fun heap => heap.seamTree value
        let tree ← orTrap refusal tree
        pure (some tree) : Vm world (Option NativeStateValue))
      (fun tree => ∀ node ∈ tree, node.AllGlue allowed) := by
    refine (seamTree_yields value).bind fun tree glue => ?_
    refine (orTrap_yields (·.AllGlue allowed) glue).bind fun tree treeGlue => .pure ?_
    intro node found
    cases found
    exact treeGlue
  unfold argumentTree
  dsimp only
  split
  case h_4 handle =>
    refine .of_bind inferInstance fun tag => ?_
    split
    · exact .pure (by simp)
    · exact copied _
  case h_6 token typeId =>
    refine (nativeStateRecover_yields token typeId).bind fun tree glue => .pure ?_
    intro node found
    cases found
    exact glue
  case h_7 => exact .pure (by simp)
  all_goals exact copied _

theorem argumentTrees_yields (id : UInt32) (values : List Value) :
    YieldsVm trust frames stack constants (argumentTrees id values : Vm world _)
      (fun trees => ∀ tree ∈ trees, ∀ node ∈ tree, node.AllGlue allowed) := by
  induction values with
  | nil => exact .pure (by simp)
  | cons value values ih =>
    refine (argumentTree_yields id value).bind fun tree glue => ?_
    refine ih.bind fun trees rest => .pure ?_
    intro other member
    rcases List.mem_cons.mp member with rfl | tail
    · exact glue
    · exact rest other tail

theorem lowerArgument_glue {heap : Heap} {id : UInt32} {value : Value}
    {tree : Option NativeStateValue} {argument : NativeArg}
    (glue : ∀ node ∈ tree, node.AllGlue allowed)
    (lowered : (lowerArgument heap id (value, tree) : Except (VmError world.Error) NativeArg) =
      .ok argument) : argument.AllGlue allowed := by
  cases value
  case enum handle =>
    simp only [lowerArgument] at lowered
    split at lowered
    · cases lowered
      exact trivial
    · cases lowered
      exact glue _ rfl
    · cases lowered
  case number | struct | array | erased | nativeView =>
    cases tree with
    | none => cases lowered
    | some node =>
      cases lowered
      exact glue node rfl
  all_goals cases lowered <;> exact trivial

theorem lowerArguments_glue {heap : Heap} {id : UInt32}
    {pairs : List (Value × Option NativeStateValue)} {lowered : List NativeArg}
    (glue : ∀ pair ∈ pairs, ∀ node ∈ pair.2, node.AllGlue allowed)
    (done : (pairs.mapM (lowerArgument heap id) : Except (VmError world.Error) (List NativeArg)) =
      .ok lowered) : ∀ argument ∈ lowered, argument.AllGlue allowed := by
  induction pairs generalizing lowered with
  | nil =>
    cases done
    simp
  | cons pair pairs ih =>
    rw [List.mapM_cons] at done
    cases first : (lowerArgument heap id pair : Except (VmError world.Error) NativeArg) with
    | error error =>
      rw [first] at done
      cases done
    | ok argument =>
      cases rest : (pairs.mapM (lowerArgument heap id) :
          Except (VmError world.Error) (List NativeArg)) with
      | error error =>
        rw [first, rest] at done
        cases done
      | ok arguments =>
        rw [first, rest] at done
        cases done
        intro other member
        rcases List.mem_cons.mp member with rfl | tail
        · exact lowerArgument_glue (glue pair (by simp)) first
        · exact ih (fun other inside => glue other (List.mem_cons_of_mem pair inside)) rest
            other tail

section Running

variable {program : Module} {width : Nat} {reenter : Reenter world}

theorem callNativeArguments_safe (safe : ReenterSafe trust reenter) (id : UInt32)
    {writebacks : List Writeback} (inside : ∀ writeback ∈ writebacks, writeback.slot.toNat < width)
    (enough : count ≤ depth) :
    SafeVm trust (Running program width) (Deep depth) constants
      (callNativeArguments reenter id writebacks count : Vm world Value) := by
  refine Safe.of_bind (ownArguments_safe enough) fun _ =>
    Safe.of_bind (peek_safe enough) fun arguments => ?_
  refine (argumentTrees_yields id arguments).bind_safe fun trees glue => ?_
  refine (readHeap_yields (fun lowered => ∀ args, lowered = .ok args →
    ∀ argument ∈ args, argument.AllGlue allowed) ?_).bind_safe fun lowered loweredGlue => ?_
  · intro heap _ args done
    refine lowerArguments_glue ?_ done
    intro pair member
    exact glue pair.2 (List.of_mem_zip member).2
  · refine (ofExcept_yields _ loweredGlue).bind_safe fun args argsGlue => ?_
    refine Safe.of_get fun machine sound => ?_
    have trusted := trust.keeps.callNative id args machine.host sound.host argsGlue
    refine ((runScript_yields safe _ trusted).bind_safe fun answer answered => ?_).meets machine
      sound
    cases answer with
    | error error => infer_instance
    | ok returned =>
      have returnedGlue := answered returned rfl
      refine Safe.of_bind (storeWritebacks_safe id arguments returnedGlue.writebacks inside)
        fun _ => ?_
      exact Safe.of_bind (absorb_safe returnedGlue.result) fun _ => inferInstance

theorem callNative_safe (safe : ReenterSafe trust reenter) (table : Module) (id : UInt32)
    {writebacks : List Writeback}
    (inside : ∀ writeback ∈ writebacks, writeback.slot.toNat < width) :
    SafeVm trust (Running program width) Any constants
      (callNative reenter table id writebacks : Vm world Unit) := by
  refine Safe.of_bind inferInstance fun proto => Safe.of_get fun machine sound => ?_
  by_cases short : machine.stack.length < proto.paramCount.toNat
  · simp only [short, if_true]
    exact sound
  · simp only [short, if_false]
    have enough : proto.paramCount.toNat ≤ machine.stack.length := by omega
    have counted : machine.Sound trust (Running program width) (Deep machine.stack.length)
        constants := ⟨sound.heap, sound.host, sound.frames, rfl, sound.constants⟩
    have called : SafeVm trust (Running program width) (Deep machine.stack.length) constants
        (callNativeArguments reenter id writebacks proto.paramCount.toNat : Vm world Value) :=
      callNativeArguments_safe safe id inside enough
    refine Meets.bind (onTrap_meets called.meets (drainDiscard_meets enough)) (fun result => ?_) machine counted
    refine Meets.bind (drain_meets enough) fun arguments => ?_
    exact (Safe.of_bind (discard_safe arguments) fun _ => push_safe result).meets

/-! ## Foreign calls -/

instance settleForeignArguments_safe (retained : List Bool) (values : List Value) :
    SafeVm trust frames stack constants
      (settleForeignArguments retained values : Vm world Unit) := by
  induction values generalizing retained with
  | nil =>
    unfold settleForeignArguments
    infer_instance
  | cons value values ih =>
    have kept : SafeVm trust frames stack constants
        (onHeap fun heap => ((), heap.retainForForeign value) : Vm world Unit) :=
      onHeap_keeps fun heap tidy => tidy.retainForForeign value
    unfold settleForeignArguments
    infer_instance

theorem callForeignArguments_safe (safe : ReenterSafe trust reenter) (table : Module)
    (id : UInt32) {parameters : List ForeignTypeSpec} (enough : parameters.length ≤ depth) :
    SafeVm trust frames (Deep depth) constants
      (callForeignArguments reenter table id parameters : Vm world ForeignResult) := by
  refine Safe.of_bind (peek_safe enough) fun arguments => Safe.of_bind inferInstance fun lowered =>
    Safe.of_bind inferInstance fun lowered => Safe.of_get fun machine sound => ?_
  have trusted := trust.keeps.callForeign id lowered machine.host sound.host
  refine ((runScript_yields safe _ trusted).bind_safe fun answer _ => ?_).meets machine sound
  cases answer <;> infer_instance

instance absorbForeignResult_safe (table : Module) (outcome : ForeignResult) :
    SafeVm trust frames stack constants
      (absorbForeignResult table outcome : Vm world (Option Value)) := by
  unfold absorbForeignResult
  split
  · exact onHeap_keeps fun _ tidy => tidy.absorbAggregate _ _ _ _ _
  · exact onHeap_keeps fun _ tidy => tidy.absorbForeign _ _

theorem callForeign_safe (safe : ReenterSafe trust reenter) (table : Module) (id : UInt32) :
    SafeVm trust frames Any constants (callForeign reenter table id : Vm world Unit) := by
  refine Safe.of_bind inferInstance fun imported => Safe.of_get fun machine sound => ?_
  by_cases short : machine.stack.length < imported.signature.parameters.length
  · simp only [short, if_true]
    exact sound
  · simp only [short, if_false]
    have enough : imported.signature.parameters.length ≤ machine.stack.length := by omega
    have counted : machine.Sound trust frames (Deep machine.stack.length) constants :=
      ⟨sound.heap, sound.host, sound.frames, rfl, sound.constants⟩
    have called : SafeVm trust frames (Deep machine.stack.length) constants
        (callForeignArguments reenter table id imported.signature.parameters :
          Vm world ForeignResult) := callForeignArguments_safe safe table id enough
    refine Meets.bind (deep_meets (ownArguments_safe enough)) (fun _ => ?_) machine counted
    refine Meets.bind (onTrap_meets called.meets (drainDiscard_meets enough)) fun outcome => ?_
    refine Meets.bind (drain_meets enough) fun arguments => ?_
    exact (Safe.of_bind (settleForeignArguments_safe _ arguments) fun _ =>
      Safe.of_bind (absorbForeignResult_safe table outcome) fun _ => inferInstance).meets

end Running

end Deep

end Vm

end KiraVm
