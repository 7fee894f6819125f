import KiraVm.SpineBooks

/-!
# Tasks and the books

What the helpers of the task spine do to the books.  A claimed task's arguments
are on their way until its body has them, and its result is on its way from the
body to the task's slot and from there to whoever joins it.
-/

namespace KiraVm.KiraIr

open SlotTable StateLogic
open TaskExecutor (SoundTasks UpdatesTask namesTask ownEffect)

variable {spine : Spine} {flight : List (UInt64 × UInt64)} {machine : Machine}

/-! ## Primitives -/

variable {after : TaskExecutor} {index : Nat} {crossing : Crossing} {new : List (UInt64 × UInt64)}
  {handle : Int64} {key : Key} {task : Task} {crossings : List Crossing} {tail : Tail}
  {word : Int64} {value : Payload} {operands : List Payload}

theorem taskOp_ok {prim : TaskPrim} {first second third answer : Int64}
    (served : machine.tasks.serve ⟨prim, first, second, third⟩ = (.ok answer, after)) :
    taskOp prim first second third machine = .ok answer (machine.withTasks after) := by
  simp only [taskOp, bind, EStateM.bind, get_run, served, set_run, pure_run]

theorem taskOp_error {prim : TaskPrim} {first second third : Int64} {trap : TaskTrap}
    (served : machine.tasks.serve ⟨prim, first, second, third⟩ = (.error trap, after)) :
    taskOp prim first second third machine = .error (.task trap) (machine.withTasks after) := by
  simp only [taskOp, bind, EStateM.bind, get_run, served, set_run, throw_run]

theorem taskOp_own (sound : SoundTasks machine.tasks) (prim : TaskPrim)
    (names : namesTask prim = true) (handle second third : Int64) :
    (∃ trap, taskOp prim handle second third machine = .error trap machine) ∨
      ∃ key task answer entry after, TaskExecutor.parts handle = .ok key ∧
        machine.tasks.tasks.find? key = some task ∧
        ownEffect task prim second third = .ok (answer, entry) ∧
        UpdatesTask machine.tasks key entry after ∧
        taskOp prim handle second third machine = .ok answer (machine.withTasks after) := by
  have performs := TaskExecutor.serve_performs sound ⟨prim, handle, second, third⟩
  cases served : machine.tasks.serve ⟨prim, handle, second, third⟩ with
  | mk answer after =>
    rw [served] at performs
    cases answer with
    | error trap =>
      left
      cases performs
      exact ⟨_, taskOp_error served⟩
    | ok answer =>
      right
      cases performs with
      | spawned => cases names
      | own prim second third names found effect updates =>
        exact ⟨_, _, _, _, _, TaskExecutor.parts_wordOf (sound.inRange found), found, effect,
          updates, taskOp_ok served⟩
      | picked => cases names
      | noneReady => cases names
      | ticked => cases names

theorem pickReady_run (sound : SoundTasks machine.tasks) (first second third : Int64) :
    (∃ trap, taskOp .pickReady first second third machine = .error trap machine) ∨
      taskOp .pickReady first second third machine = .ok 0 machine ∨
      ∃ key task after, machine.tasks.tasks.find? key = some task ∧ task.state = .pending ∧
        UpdatesTask machine.tasks key (some { task with state := .running }) after ∧
        taskOp .pickReady first second third machine =
          .ok (TaskExecutor.wordOf key) (machine.withTasks after) := by
  have performs := TaskExecutor.serve_performs sound ⟨.pickReady, first, second, third⟩
  cases served : machine.tasks.serve ⟨.pickReady, first, second, third⟩ with
  | mk answer after =>
    rw [served] at performs
    cases performs with
    | refused request trap => exact Or.inl ⟨_, taskOp_error served⟩
    | own prim second third names found effect updates => cases names
    | picked first second third found pending updates =>
      exact Or.inr (Or.inr ⟨_, _, _, found, pending, updates, taskOp_ok served⟩)
    | noneReady => exact Or.inr (Or.inl (taskOp_ok served))

theorem spawn_run (sound : SoundTasks machine.tasks) (target second third : Int64) :
    (∃ trap, taskOp .spawn target second third machine = .error trap machine) ∨
      ∃ key after, TaskExecutor.parts (TaskExecutor.wordOf key) = .ok key ∧
        machine.tasks.tasks.find? key = none ∧
        UpdatesTask machine.tasks key (some (TaskExecutor.freshTask target)) after ∧
        taskOp .spawn target second third machine =
          .ok (TaskExecutor.wordOf key) (machine.withTasks after) := by
  have performs := TaskExecutor.serve_performs sound ⟨.spawn, target, second, third⟩
  cases served : machine.tasks.serve ⟨.spawn, target, second, third⟩ with
  | mk answer after =>
    rw [served] at performs
    cases performs with
    | refused request trap => exact Or.inl ⟨_, taskOp_error served⟩
    | own prim second third names found effect updates => cases names
    | spawned target second third inRange inserts =>
      rename_i key tasks
      refine Or.inr ⟨key, _, TaskExecutor.parts_wordOf inRange, ?_, inserts.toUpdates,
        taskOp_ok served⟩
      cases found : machine.tasks.tasks.find? key with
      | none => rfl
      | some task => exact absurd (sound.issued_of_find? found) inserts.fresh

theorem targetOf_run (handle : Int64) (machine : Machine) :
    (∃ trap, taskOp .targetOf handle 0 0 machine = .error trap machine) ∨
      ∃ key task, TaskExecutor.parts handle = .ok key ∧
        machine.tasks.tasks.find? key = some task ∧
        taskOp .targetOf handle 0 0 machine = .ok task.target machine := by
  rcases TaskExecutor.task_run handle machine.tasks with unknown | ⟨key, task, -, found, named, ran⟩
  · left
    exact ⟨.task .unknownHandle, taskOp_error (by
      simp only [TaskExecutor.serve, TaskExecutor.perform, bind, EStateM.bind, unknown])⟩
  · right
    exact ⟨key, task, named, found, taskOp_ok (by
      simp only [TaskExecutor.serve, TaskExecutor.perform, bind, EStateM.bind, ran, pure_run])⟩

theorem slotIndex_ofNat (within : index < taskSlots) :
    TaskExecutor.slotIndex (Int64.ofNat index) = .ok ⟨index, within⟩ := by
  have small : index < 8 := within
  have value : (Int64.ofNat index).toInt = index := Int64.toInt_ofNat_of_lt (by omega)
  unfold TaskExecutor.slotIndex
  simp only [value, Int.toNat_natCast]
  rw [dif_pos ⟨by omega, within⟩]

/-- Reading a slot changes nothing. -/
theorem slotGet_run (handle : Int64) {index : Nat} (within : index < taskSlots)
    (machine : Machine) :
    (∃ trap, taskOp .slotGet handle (Int64.ofNat index) 0 machine = .error trap machine) ∨
      ∃ key task, TaskExecutor.parts handle = .ok key ∧
        machine.tasks.tasks.find? key = some task ∧
        taskOp .slotGet handle (Int64.ofNat index) 0 machine =
          .ok (task.slots.get ⟨index, within⟩) machine := by
  have slotted := slotIndex_ofNat within
  rcases TaskExecutor.task_run handle machine.tasks with unknown | ⟨key, task, -, found, named, ran⟩
  · left
    exact ⟨.task .unknownHandle, taskOp_error (by
      simp only [TaskExecutor.serve, TaskExecutor.perform, slotted, TaskExecutor.ofExcept, bind,
        EStateM.bind, pure_run, unknown])⟩
  · right
    exact ⟨key, task, named, found, taskOp_ok (by
      simp only [TaskExecutor.serve, TaskExecutor.perform, slotted, TaskExecutor.ofExcept, bind,
        EStateM.bind, pure_run, ran])⟩

/-! ## Bodies -/

theorem boxedWords_cons (crossing : Crossing) (crossings : List Crossing) (word : Int64)
    (words : List Int64) :
    boxedWords (crossing :: crossings) (word :: words) =
      boxedWords [crossing] [word] ++ boxedWords crossings words := by
  cases crossing <;> rfl

theorem boxedWords_agrees {other : Crossing} (agrees : crossing.Agrees other)
    (word : Int64) : boxedWords [crossing] [word] = boxedWords [other] [word] := by
  cases other with
  | boxed typeId => rw [(agrees typeId).mpr rfl]
  | word | floatBits =>
    cases crossing with
    | boxed typeId => cases (agrees typeId).mp rfl
    | word | floatBits => rfl

/-- A task that was claimed for a body that is not on the stack yet. -/
structure Claimed (machine : Machine) (handle : Int64) (key : Key) (task : Task) : Prop where
  named : TaskExecutor.parts handle = .ok key
  found : machine.tasks.tasks.find? key = some task
  running : task.state = .running
  idle : Idle machine.frames key

theorem Claimed.grows {after : Machine} (claimed : Claimed machine handle key task)
    (grows : Grows machine after new) :
    Claimed after handle key task where
  named := claimed.named
  found := by
    rw [grows.tasks]
    exact claimed.found
  running := claimed.running
  idle := by
    rw [grows.frames]
    exact claimed.idle

theorem Claimed.assigned (claimed : Claimed machine handle key task) (count : Nat)
    (holder : Option Holder) : Claimed (machine.assigned count holder) handle key task :=
  ⟨claimed.named, claimed.found, claimed.running, claimed.idle⟩

/-- The tokens on their way were made for the task. -/
def MadeFor (machine : Machine) (holder : Holder) (flight : List (UInt64 × UInt64)) : Prop :=
  ∀ token ∈ flight, machine.owner token.1 = some holder

theorem Books.conserved_of {holder : Holder} (books : Books spine flight machine)
    (madeFor : MadeFor machine holder flight) (live : machine.Live holder) : Conserved machine := by
  apply books.conserved
  intro token moving other owned
  rw [madeFor token moving] at owned
  cases owned
  exact live

theorem Claimed.live (claimed : Claimed machine handle key task) : machine.Live (.task key) := by
  simp [Machine.Live, claimed.found]

/-- A body takes its arguments out of the slots. -/
theorem recoverArgs_ends (claimed : Claimed machine handle key task)
    (within : index + crossings.length ≤ taskSlots)
    (books : Books spine (boxedWords crossings (task.slots.toList.drop index)) machine)
    (madeFor : MadeFor machine (.task key)
      (boxedWords crossings (task.slots.toList.drop index))) :
    Ends (fun _ after => Books spine [] after ∧ Grows machine after [])
      (fun _ after => Conserved after) (Spine.recoverArgs handle index crossings machine) := by
  induction crossings generalizing index machine with
  | nil =>
    have none : boxedWords [] (task.slots.toList.drop index) = [] := by
      cases task.slots.toList.drop index <;> rfl
    rw [none] at books
    exact ⟨books, grows_refl machine⟩
  | cons crossing crossings ih =>
    have here : index < taskSlots := by
      simp only [List.length_cons] at within
      omega
    have split : task.slots.toList.drop index =
        task.slots.get ⟨index, here⟩ :: task.slots.toList.drop (index + 1) := by
      rw [List.drop_eq_getElem_cons (by simpa using here)]
      rfl
    rw [split, boxedWords_cons] at books madeFor
    simp only [Spine.recoverArgs]
    rcases slotGet_run handle here machine with ⟨trap, ran⟩ | ⟨other, held, named, found, ran⟩
    · rw [bind_run_error ran]
      exact books.conserved_of madeFor claimed.live
    · have same := claimed.named.symm.trans named
      cases same
      have sameTask := claimed.found.symm.trans found
      cases sameTask
      rw [bind_run_ok ran]
      have recovers := recoverFromSlot_ends books
      cases ranRecover : recoverFromSlot crossing (task.slots.get ⟨index, here⟩) machine with
      | error trap after =>
        rw [ranRecover] at recovers
        rw [bind_run_error ranRecover, recovers.1]
        exact books.conserved_of madeFor claimed.live
      | ok value after =>
        rw [ranRecover] at recovers
        rw [bind_run_ok ranRecover]
        rcases recovers with ⟨afterBooks, grows⟩
        have laterMadeFor : MadeFor after (.task key)
            (boxedWords crossings (task.slots.toList.drop (index + 1))) := by
          intro token moving
          rw [grows.owner]
          exact madeFor token (List.mem_append_right _ moving)
        have rest := ih (claimed.grows grows) (by simp only [List.length_cons] at within; omega)
          afterBooks laterMadeFor
        cases ranRest : Spine.recoverArgs handle (index + 1) crossings after with
        | error trap last =>
          rw [ranRest] at rest
          exact rest
        | ok answer last =>
          rw [ranRest] at rest
          exact ⟨rest.1, grows.trans rest.2⟩

/-! ## Results -/

def Concludes (spine : Spine) (machine : Machine) (task : Task) : Tail → Prop
  | .join crossing => crossing.Agrees (spine.resultAt task.target) ∧
      ∀ box ∈ machine.boxes, (box.token, box.typeId) ∈ spine.taskTokens task →
        box.value.requiresEngineRelease = false
  | .detach => spine.taskTokens task = []
  | .driven => True

theorem conclude_ends (books : Books spine [] machine)
    (concludes : ∀ key task, TaskExecutor.parts handle = .ok key →
      machine.tasks.tasks.find? key = some task →
      task.state ≠ .running ∧ Concludes spine machine task tail) :
    Ends (fun _ after => Books spine [] after) (fun _ after => Conserved after)
      (Spine.conclude handle tail machine) := by
  cases tail with
  | driven => exact books
  | detach =>
    simp only [Spine.conclude]
    rcases taskOp_own books.tasksSound .markDetached rfl handle 0 0 with
      ⟨trap, ran⟩ | ⟨key, task, answer, entry, after, named, found, effect, updates, ran⟩
    · rw [bind_run_error ran]
      exact books.conserved_nil
    · rw [bind_run_ok ran]
      rcases concludes key task named found with ⟨still, none⟩
      cases effect
      apply books.updateTask updates
      · apply Or.inl
        apply books.idle
        intro held foundHeld
        rw [found] at foundHeld
        cases foundHeld
        exact still
      · have nothing : spine.taskTokens task = [] := none
        simp [found, nothing]
      · intro next entered
        cases entered
  | join crossing =>
    simp only [Spine.conclude]
    rcases taskOp_own books.tasksSound .takeResult rfl handle 0 0 with
      ⟨trap, ran⟩ | ⟨key, task, answer, entry, after, named, found, effect, updates, ran⟩
    · rw [bind_run_error ran]
      exact books.conserved_nil
    · rw [bind_run_ok ran]
      rcases concludes key task named found with ⟨still, agrees, whole⟩
      have finished : task.state = .finished ∧ answer = task.result ∧ entry = none := by
        simp only [ownEffect] at effect
        split at effect <;> cases effect
        exact ⟨by assumption, rfl, rfl⟩
      rcases finished with ⟨state, rfl, rfl⟩
      have tokens : spine.taskTokens task = boxedWords [crossing] [task.result] := by
        rw [boxedWords_agrees agrees]
        simp [Spine.taskTokens, state]
      have taken : Books spine (boxedWords [crossing] [task.result] ++ [])
          (machine.withTasks after) := by
        apply books.updateTask updates
        · apply Or.inl
          apply books.idle
          intro held foundHeld
          rw [found] at foundHeld
          cases foundHeld
          exact still
        · simp [found, tokens]
        · intro next entered
          cases entered
      have recovers := recoverFromSlot_ends taken
      cases ranRecover : recoverFromSlot crossing task.result (machine.withTasks after) with
      | error trap last =>
        rw [ranRecover] at recovers
        rcases recovers with ⟨-, box, listed, token, engine⟩
        rw [← tokens] at token
        rw [whole box listed token] at engine
        cases engine
      | ok value last =>
        rw [ranRecover] at recovers
        rw [bind_run_ok ranRecover]
        exact recovers.1

/-- A body's result is stored in its task's slot and then joined, thrown away or
left there. -/
theorem finishBody_ends
    (books : Books spine (boxedWords [spine.resultAt task.target] [word]) machine)
    (claimed : Claimed machine handle key task)
    (madeFor : MadeFor machine (.task key) (boxedWords [spine.resultAt task.target] [word]))
    (concludes : Concludes spine machine
      { task with result := word, state := .finished } tail) :
    Ends (fun _ after => Books spine [] after) (fun _ after => Conserved after)
      (Spine.finishBody handle word tail machine) := by
  simp only [Spine.finishBody]
  rcases taskOp_own books.tasksSound .complete rfl handle word 0 with
    ⟨trap, ran⟩ | ⟨other, held, answer, entry, after, named, found, effect, updates, ran⟩
  · rw [bind_run_error ran]
    exact books.conserved_of madeFor claimed.live
  · rw [bind_run_ok ran]
    have sameKey := claimed.named.symm.trans named
    cases sameKey
    have sameTask := claimed.found.symm.trans found
    cases sameTask
    cases effect
    have tokens : spine.taskTokens { task with result := word, state := .finished } =
        boxedWords [spine.resultAt task.target] [word] := rfl
    have empty : spine.taskTokens task = [] := by
      simp [Spine.taskTokens, claimed.running]
    have stored : Books spine [] (machine.withTasks after) := by
      apply books.updateTask updates (Or.inl claimed.idle)
      · simp [found, empty, tokens]
      · intro next entered token held
        cases entered
        exact madeFor token held
    apply conclude_ends stored
    intro away next awayNamed awayFound
    rw [claimed.named] at awayNamed
    cases awayNamed
    have sameNext := updates.found.symm.trans awayFound
    cases sameNext
    refine ⟨by simp, ?_⟩
    cases tail with
    | join crossing => exact concludes
    | detach => exact concludes
    | driven => trivial

/-- A body that was claimed starts with its arguments, or is over at once when it
was a literal. -/
theorem beginBody_ends
    (books : Books spine (boxedWords (spine.paramsAt task.target) task.slots.toList) machine)
    (claimed : Claimed machine handle key task) (madeFor : MadeFor machine (.task key)
      (boxedWords (spine.paramsAt task.target) task.slots.toList))
    (fits : tail.Fits (spine.resultAt task.target)) :
    Ends (fun _ after => Books spine [] after) (fun _ after => Conserved after)
      (Spine.beginBody spine handle tail machine) := by
  have immediate : spine.rowAt task.target = none → ∀ word,
      Ends (fun _ after => Books spine [] after) (fun _ after => Conserved after)
        (Spine.finishBody handle word tail machine) := by
    intro unlisted word
    have plain : spine.resultAt task.target = .word := by simp [Spine.resultAt, unlisted]
    have none : boxedWords (spine.paramsAt task.target) task.slots.toList = [] := by
      simp only [Spine.paramsAt, unlisted, Option.map_none, Option.getD_none]
      cases task.slots.toList <;> rfl
    rw [none] at books madeFor
    apply finishBody_ends _ claimed
    · rw [plain]
      exact madeFor
    · cases tail with
      | join crossing =>
        refine ⟨fits crossing rfl, ?_⟩
        intro box listed token
        simp [Spine.taskTokens, plain, boxedWords] at token
      | detach => simp [Concludes, Spine.taskTokens, plain, boxedWords]
      | driven => trivial
    · rw [plain]
      exact books
  simp only [Spine.beginBody]
  rcases targetOf_run handle machine with ⟨trap, ran⟩ | ⟨other, held, named, found, ran⟩
  · rw [bind_run_error ran]
    exact books.conserved_of madeFor claimed.live
  · rw [bind_run_ok ran]
    have sameKey := claimed.named.symm.trans named
    cases sameKey
    have sameTask := claimed.found.symm.trans found
    cases sameTask
    split
    · rename_i literal
      have unlisted : spine.rowAt task.target = none := by
        rw [literal]
        rfl
      rcases @slotGet_run handle 0 (by decide) machine with ⟨trap, ranSlot⟩ |
        ⟨away, slotted, -, -, ranSlot⟩
      · have ranSlot' : taskOp .slotGet handle 0 0 machine = .error trap machine := ranSlot
        rw [bind_run_error ranSlot']
        exact books.conserved_of madeFor claimed.live
      · have ranSlot' : taskOp .slotGet handle 0 0 machine = _ := ranSlot
        rw [bind_run_ok ranSlot']
        exact immediate unlisted _
    · cases listed : spine.rowAt task.target with
      | none => exact immediate listed 0
      | some row =>
        have params : spine.paramsAt task.target = spine.paramCrossings row := by
          simp [Spine.paramsAt, listed]
        have member : row ∈ spine.rows := by
          unfold Spine.rowAt at listed
          split at listed
          · exact List.mem_of_getElem? listed
          · cases listed
        have within : 0 + (spine.paramCrossings row).length ≤ taskSlots := by
          simpa [Spine.paramCrossings] using spine.fits row member
        rw [params] at books madeFor
        have recovers := recoverArgs_ends claimed within books madeFor
        dsimp only
        cases ranArgs : Spine.recoverArgs handle 0 (spine.paramCrossings row) machine with
        | error trap after =>
          rw [ranArgs] at recovers
          rw [bind_run_error ranArgs]
          exact recovers
        | ok answer after =>
          rw [ranArgs] at recovers
          rw [bind_run_ok ranArgs]
          rcases recovers with ⟨afterBooks, grows⟩
          have later := claimed.grows grows
          exact afterBooks.push_body
            ⟨later.named, later.found, later.running, listed, fits⟩ later.idle

/-! ## Claiming -/

theorem claimed_ends (books : Books spine [] machine)
    (named : TaskExecutor.parts handle = .ok key)
    (found : machine.tasks.tasks.find? key = some task) (pending : task.state = .pending)
    (updates : UpdatesTask machine.tasks key (some { task with state := .running }) after)
    (fits : tail.Fits (spine.resultAt task.target)) :
    Ends (fun _ after => Books spine [] after) (fun _ after => Conserved after)
      (Spine.beginBody spine handle tail (machine.withTasks after)) := by
  have tokens : spine.taskTokens task =
      boxedWords (spine.paramsAt task.target) task.slots.toList := by
    simp [Spine.taskTokens, pending]
  have empty : spine.taskTokens { task with state := .running } = [] := rfl
  have idle : Idle machine.frames key := by
    apply books.idle
    intro held foundHeld
    rw [found] at foundHeld
    cases foundHeld
    rw [pending]
    exact TaskState.noConfusion
  have moving : Books spine (boxedWords (spine.paramsAt task.target) task.slots.toList)
      (machine.withTasks after) := by
    apply books.updateTask updates (Or.inl idle)
    · simp [found, tokens, empty]
    · intro next entered token held
      cases entered
      rw [empty] at held
      cases held
  have claimed : Claimed (machine.withTasks after) handle key { task with state := .running } :=
    ⟨named, updates.found, rfl, idle⟩
  refine beginBody_ends ?_ claimed ?_ fits
  · exact moving
  intro token held
  rw [← tokens] at held
  exact (books.ofTasks key task found token held).1

theorem taskAwait_ends (books : Books spine [] machine)
    (concludes : ∀ key task, TaskExecutor.parts handle = .ok key →
      machine.tasks.tasks.find? key = some task → crossing.Agrees (spine.resultAt task.target) ∧
        (task.state = .finished → Concludes spine machine task (.join crossing))) :
    Ends (fun _ after => Books spine [] after) (fun _ after => Conserved after)
      (Spine.taskAwait spine handle crossing machine) := by
  simp only [Spine.taskAwait]
  rcases taskOp_own books.tasksSound .beginJoin rfl handle 0 0 with
    ⟨trap, ran⟩ | ⟨key, task, answer, entry, after, named, found, effect, updates, ran⟩
  · rw [bind_run_error ran]
    exact books.conserved_nil
  · rw [bind_run_ok ran]
    rcases concludes key task named found with ⟨agrees, whole⟩
    simp only [ownEffect] at effect
    split at effect
    · rename_i pending
      cases effect
      simp only [if_true]
      apply claimed_ends books named found pending updates
      rintro other ⟨rfl⟩
      exact agrees
    · rename_i finished
      cases effect
      have unclaimed : (0 : Int64) ≠ 1 := by decide
      rw [if_neg unclaimed]
      have middle := books.keepTask found updates
      apply conclude_ends middle
      intro other held otherNamed otherFound
      rw [named] at otherNamed
      cases otherNamed
      have same := updates.found.symm.trans otherFound
      cases same
      exact ⟨by rw [finished]; exact TaskState.noConfusion, whole finished⟩
    · cases effect
    · cases effect
    · cases effect
    · cases effect

theorem taskDetach_ends (books : Books spine [] machine)
    (concludes : ∀ key task, TaskExecutor.parts handle = .ok key →
      machine.tasks.tasks.find? key = some task → task.state = .finished →
        spine.taskTokens task = []) :
    Ends (fun _ after => Books spine [] after) (fun _ after => Conserved after)
      (Spine.taskDetach spine handle machine) := by
  simp only [Spine.taskDetach]
  rcases taskOp_own books.tasksSound .beginDetach rfl handle 0 0 with
    ⟨trap, ran⟩ | ⟨key, task, answer, entry, after, named, found, effect, updates, ran⟩
  · rw [bind_run_error ran]
    exact books.conserved_nil
  · rw [bind_run_ok ran]
    have settled : (task.state = .finished ∨ task.state = .cancelled) → entry = some task →
        Ends (fun _ after => Books spine [] after) (fun _ after => Conserved after)
          (Spine.conclude handle .detach (machine.withTasks after)) := by
      intro state entered
      have still : task.state ≠ .running := by
        rcases state with finished | cancelled
        · rw [finished]
          exact TaskState.noConfusion
        · rw [cancelled]
          exact TaskState.noConfusion
      rw [entered] at updates
      apply conclude_ends (books.keepTask found updates)
      intro other held otherNamed otherFound
      rw [named] at otherNamed
      cases otherNamed
      have same := updates.found.symm.trans otherFound
      cases same
      refine ⟨still, ?_⟩
      rcases state with finished | cancelled
      · exact concludes key task named found finished
      · simp [Concludes, Spine.taskTokens, cancelled]
    have unclaimed : (0 : Int64) ≠ 1 := by decide
    simp only [ownEffect] at effect
    split at effect
    · rename_i pending
      cases effect
      simp only [if_true]
      apply claimed_ends books named found pending updates
      intro other joins
      cases joins
    · rename_i finished
      cases effect
      rw [if_neg unclaimed]
      exact settled (Or.inl finished) rfl
    · rename_i cancelled
      cases effect
      rw [if_neg unclaimed]
      exact settled (Or.inr cancelled) rfl
    · cases effect
    · cases effect
    · cases effect

theorem taskCancel_ends (books : Books spine [] machine)
    (empty : ∀ key task, TaskExecutor.parts handle = .ok key →
      machine.tasks.tasks.find? key = some task → task.state = .pending →
        spine.taskTokens task = []) :
    Ends (fun _ after => Books spine [] after) (fun _ after => Conserved after)
      (Spine.taskCancel handle machine) := by
  simp only [Spine.taskCancel]
  rcases taskOp_own books.tasksSound .cancel rfl handle 0 0 with
    ⟨trap, ran⟩ | ⟨key, task, answer, entry, after, named, found, effect, updates, ran⟩
  · rw [bind_run_error ran]
    exact books.conserved_nil
  · rw [bind_run_ok ran]
    cases effect
    by_cases pending : task.state = .pending
    · rw [if_pos pending] at updates
      have none := empty key task named found pending
      apply books.updateTask updates
      · apply Or.inl
        apply books.idle
        intro held foundHeld
        rw [found] at foundHeld
        cases foundHeld
        rw [pending]
        exact TaskState.noConfusion
      · simp [found, none]
      · intro next entered
        cases entered
    · rw [if_neg pending] at updates
      exact books.keepTask found updates

/-- Hand a queued task a turn. -/
theorem drive_ends (books : Books spine [] machine) {next : Int64 → OnMachine Unit}
    (begins : ∀ handle, handle ≠ 0 → next handle = Spine.beginBody spine handle .driven)
    (nothing : Ends (fun _ after => Books spine [] after) (fun _ after => Conserved after)
      (next 0 machine)) :
    Ends (fun _ after => Books spine [] after) (fun _ after => Conserved after)
      ((taskOp .pickReady 0 0 0 >>= next) machine) := by
  rcases pickReady_run books.tasksSound 0 0 0 with ⟨trap, ran⟩ | ran |
    ⟨key, task, after, found, pending, updates, ran⟩
  · rw [bind_run_error ran]
    exact books.conserved_nil
  · rw [bind_run_ok ran]
    exact nothing
  · have inRange := books.tasksSound.inRange found
    rw [bind_run_ok ran, begins _ (TaskExecutor.wordOf_ne_zero inRange)]
    apply claimed_ends books (TaskExecutor.parts_wordOf inRange) found pending updates
    intro crossing joins
    cases joins

theorem taskYield_ends (books : Books spine [] machine) :
    Ends (fun _ after => Books spine [] after) (fun _ after => Conserved after)
      (Spine.taskYield spine machine) := by
  unfold Spine.taskYield
  apply drive_ends books
  · intro handle nonzero
    rw [if_neg nonzero]
  · exact books

theorem taskSleep_ends (books : Books spine [] machine) (ms : Int64) :
    Ends (fun _ after => Books spine [] after) (fun _ after => Conserved after)
      (Spine.taskSleep spine ms machine) := by
  unfold Spine.taskSleep
  have ran : taskOp .advanceClock ms 0 0 machine = .ok 0 (machine.withTasks
      { machine.tasks with clockMs := TaskExecutor.advance machine.tasks.clockMs ms }) := by
    apply taskOp_ok
    rfl
  rw [bind_run_ok ran]
  apply taskYield_ends
  exact
    { toVault := ⟨books.tokens_nodup, books.fresh, books.stored, books.assigned, books.whole⟩
      toBodies := books.toBodies.congr rfl rfl
      toPlaces := ⟨books.tasksSound, books.channelsSound, books.places, books.made, books.ofTasks,
        books.wired, books.drained, books.ofChannels⟩ }

/-! ## Returning -/

theorem taskHolder_of (named : TaskExecutor.parts handle = .ok key) :
    taskHolder handle = some (.task key) := by
  unfold taskHolder
  rw [named]

theorem Grows.assign {after : Machine} {new : List (UInt64 × UInt64)} {holder : Holder}
    (grows : Grows machine after new) (books : Books spine new after) :
    Books spine new (after.assigned machine.boxes.length (some holder)) ∧
      MadeFor (after.assigned machine.boxes.length (some holder)) holder new := by
  constructor
  · apply books.assign
    intro token listed
    rw [grows.dropped] at listed
    exact listed
  · intro token listed
    have dropped : token.1 ∈ (after.boxes.drop machine.boxes.length).map Box.token := by
      rw [grows.dropped]
      exact List.mem_map_of_mem listed
    simp only [Machine.assigned, if_pos dropped]

/-- What a body may return: a boxed result is not thrown away, and one that is
joined at once runs no `Drop` body. -/
def Returns (spine : Spine) (row : TaskTargetInfo) (tail : Tail) (value : Payload) : Prop :=
  (spine.resultCrossing row).isBoxed = true → tail ≠ .detach ∧
    ∀ crossing tree, tail = .join crossing → value = .tree tree →
      tree.requiresEngineRelease = false

theorem boxed_of_mem {token : UInt64 × UInt64} (listed : token ∈ boxedWords [crossing] [word]) :
    crossing.isBoxed = true := by
  cases crossing with
  | boxed typeId => rfl
  | word | floatBits => cases listed

theorem boxedWords_of_plain (plain : crossing.isBoxed = false) (word : Int64) :
    boxedWords [crossing] [word] = [] := by
  cases crossing with
  | boxed typeId => cases plain
  | word | floatBits => rfl

theorem concludes_of_returns {row : TaskTargetInfo} {before : Machine}
    (runs : Runs spine before handle row tail key task) (returns : Returns spine row tail value)
    (values : ∀ box ∈ machine.boxes,
      (box.token, box.typeId) ∈ boxedWords [spine.resultAt task.target] [word] →
        value = .tree box.value) :
    Concludes spine machine { task with result := word, state := .finished } tail := by
  have result : spine.resultAt task.target = spine.resultCrossing row := by
    simp [Spine.resultAt, runs.target]
  cases tail with
  | driven => trivial
  | detach =>
    have plain : (spine.resultAt task.target).isBoxed = false := by
      cases boxed : (spine.resultAt task.target).isBoxed with
      | false => rfl
      | true =>
        rw [result] at boxed
        exact absurd rfl (returns boxed).1
    exact boxedWords_of_plain plain word
  | join crossing =>
    refine ⟨runs.fits crossing rfl, ?_⟩
    intro box listed token
    have boxed := boxed_of_mem token
    change (spine.resultAt task.target).isBoxed = true at boxed
    rw [result] at boxed
    exact (returns boxed).2 crossing _ rfl (values box listed token)

theorem returnBody_ends {row : TaskTargetInfo} (books : Books spine [] machine)
    (runs : Runs spine machine handle row tail key task) (idle : Idle machine.frames key)
    (returns : Returns spine row tail value) :
    Ends (fun _ after => Books spine [] after) (fun _ after => Conserved after)
      (Spine.returnBody spine handle row tail value machine) := by
  have result : spine.resultAt task.target = spine.resultCrossing row := by
    simp [Spine.resultAt, runs.target]
  have claimed : Claimed machine handle key task := ⟨runs.named, runs.found, runs.running, idle⟩
  unfold Spine.returnBody
  split
  · rename_i void
    have none : boxedWords [spine.resultAt task.target] [0] = [] := by
      rw [result, Spine.resultCrossing, if_pos void]
      rfl
    refine finishBody_ends ?_ claimed ?_ (concludes_of_returns runs returns ?_)
    · rw [none]
      exact books
    · intro token listed
      rw [none] at listed
      cases listed
    · intro box listed token
      rw [none] at token
      cases token
  · simp only [Spine.boxResult, bind_assoc]
    rw [bind_run_ok (get_run machine)]
    have boxes := boxForSlot_ends books (spine.resultCrossing row) value
    cases ranBox : boxForSlot (spine.resultCrossing row) value machine with
    | error trap after =>
      rw [ranBox] at boxes
      rw [bind_run_error ranBox, boxes]
      exact books.conserved_nil
    | ok operand middle =>
      rw [ranBox] at boxes
      rw [bind_run_ok ranBox]
      rcases boxes with ⟨new, loaded, middleBooks, grows, values⟩
      rw [List.append_nil] at middleBooks
      rcases @Grows.assign _ _ _ _ (.task key) grows middleBooks with ⟨assigned, madeFor⟩
      have assigning : assign machine.boxes.length (taskHolder handle) middle =
          .ok () (middle.assigned machine.boxes.length (some (.task key))) := by
        rw [taskHolder_of runs.named]
        rfl
      have later := (claimed.grows grows).assigned machine.boxes.length (some (.task key))
      rw [bind_run_ok assigning]
      rcases popInt_loaded loaded (middle.assigned machine.boxes.length (some (.task key))) with
        ⟨trap, ranPop⟩ | ⟨word, ranPop, words⟩
      · rw [bind_run_error ranPop]
        exact assigned.conserved_of madeFor later.live
      · rw [bind_run_ok ranPop]
        rw [← result] at words
        rw [← words] at assigned madeFor values
        exact finishBody_ends assigned later madeFor (concludes_of_returns runs returns values)

theorem bodyReturn_ends (books : Books spine [] machine)
    (returns : ∀ handle row tail frames, machine.frames = .body handle row tail :: frames →
      Returns spine row tail value) :
    Ends (fun _ after => Books spine [] after) (fun _ after => Conserved after)
      (Spine.bodyReturn spine value machine) := by
  unfold Spine.bodyReturn
  rw [bind_run_ok (get_run machine)]
  cases stack : machine.frames with
  | nil => exact books
  | cons frame frames =>
    cases frame with
    | waiting crossing receiver => exact books
    | closing receiver => exact books
    | body handle row tail =>
      have popping : popFrame machine = .ok () (machine.withFrames frames) := by
        simp only [popFrame, modify_run, stack, List.tail_cons]
      dsimp only
      rw [bind_run_ok popping]
      rcases books.runs handle row tail (by rw [stack]; exact List.mem_cons_self ..) with
        ⟨key, task, runs⟩
      exact returnBody_ends (books.pop stack)
        ⟨runs.named, runs.found, runs.running, runs.target, runs.fits⟩
        (books.pop_idle stack runs.named) (returns handle row tail frames stack)

/-! ## Spawning -/

def With (base : Machine) (key : Key) (task : Task) (machine : Machine) : Prop :=
  ∃ tasks, UpdatesTask base.tasks key (some task) tasks ∧ machine = base.withTasks tasks

theorem setArgs_ends {base : Machine} (named : TaskExecutor.parts handle = .ok key)
    (within : index + operands.length = taskSlots) (started : With base key task machine) :
    Ends (fun _ after => ∃ final words, With base key final after ∧ final.state = task.state ∧
        final.target = task.target ∧ operands = words.map (fun word => .tree (.int word)) ∧
        final.slots.toList = task.slots.toList.take index ++ words)
      (fun _ after => ∃ last, With base key last after) (setArgs handle index operands machine) := by
  induction operands generalizing index task machine with
  | nil =>
    refine ⟨task, [], started, rfl, rfl, rfl, ?_⟩
    simp only [List.length_nil, Nat.add_zero] at within
    rw [within, List.append_nil, List.take_of_length_le (by simp)]
  | cons operand operands ih =>
    have here : index < taskSlots := by
      simp only [List.length_cons] at within
      omega
    simp only [setArgs]
    unfold popInt
    split
    · rename_i word
      rw [bind_run_ok (pure_run word machine)]
      rcases started with ⟨tasks, updates, rfl⟩
      rcases @taskOp_own (base.withTasks tasks) updates.sound .setArg rfl handle
        (Int64.ofNat index) word with
        ⟨trap, ran⟩ | ⟨other, held, answer, entry, after, otherNamed, found, effect, later, ran⟩
      · rw [bind_run_error ran]
        exact ⟨task, tasks, updates, rfl⟩
      · have sameKey := named.symm.trans otherNamed
        cases sameKey
        have sameTask := updates.found.symm.trans found
        cases sameTask
        simp only [ownEffect, slotIndex_ofNat here] at effect
        cases effect
        rw [bind_run_ok ran]
        have next : With base key { task with slots := task.slots.set index word here }
            ((base.withTasks tasks).withTasks after) := ⟨after, updates.trans later, rfl⟩
        have longer : index + 1 + operands.length = taskSlots := by
          simp only [List.length_cons] at within
          omega
        have rest := ih longer next
        cases ranRest : setArgs handle (index + 1) operands
            ((base.withTasks tasks).withTasks after) with
        | error trap last =>
          rw [ranRest] at rest
          exact rest
        | ok answer last =>
          rw [ranRest] at rest
          rcases rest with ⟨final, words, held, state, target, listed, slots⟩
          refine ⟨final, word :: words, held, state, target, by rw [listed]; rfl, ?_⟩
          have grown : (task.slots.set index word here).toList.take (index + 1) =
              task.slots.toList.take index ++ [word] := by
            rw [Vector.toList_set, List.take_succ_eq_append_getElem (by simpa using here),
              List.take_set_of_le (Nat.le_refl index)]
            simp
          rw [slots, grown]
          simp
    · rw [bind_run_error (throw_run _ machine)]
      exact ⟨task, started⟩

theorem boxedWords_loaded {more : List Payload} {words : List Int64}
    (loaded : Loaded crossings operands new)
    (listed : operands ++ more = words.map (fun word => .tree (.int word))) :
    boxedWords crossings words = new := by
  induction loaded generalizing words with
  | nil => cases words <;> rfl
  | plain operand unboxed rest ih =>
    cases words with
    | nil => cases listed
    | cons word words =>
      rw [List.map_cons, List.cons_append] at listed
      rw [boxedWords_cons, boxedWords_of_plain unboxed, List.nil_append]
      exact ih (List.cons.inj listed).2
  | boxed typeId token rest ih =>
    cases words with
    | nil => cases listed
    | cons word words =>
      rw [List.map_cons, List.cons_append] at listed
      rcases List.cons.inj listed with ⟨same, tail⟩
      cases same
      simp only [boxedWords, ih tail]
      rfl

theorem Loaded.length (loaded : Loaded crossings operands new) :
    operands.length = crossings.length := by
  induction loaded with
  | nil => rfl
  | plain operand unboxed rest ih => simp [ih]
  | boxed typeId token rest ih => simp [ih]

theorem Books.conserved_with {base : Machine} {after : Machine} (books : Books spine new base)
    (absent : base.tasks.tasks.find? key = none) (started : With base key task after)
    (madeFor : MadeFor base (.task key) new) : Conserved after := by
  rcases started with ⟨tasks, updates, rfl⟩
  have live : (base.withTasks tasks).Live (.task key) := by
    simp [Machine.Live, Machine.withTasks, updates.found]
  have kept : ∀ holder, base.Live holder → (base.withTasks tasks).Live holder := by
    intro holder alive
    cases holder with
    | channel other => exact alive
    | task other =>
      have differs : other ≠ key := by
        rintro rfl
        simp [Machine.Live, absent] at alive
      simp only [Machine.Live, Machine.withTasks, updates.others other differs]
      exact alive
  refine ⟨books.released_nodup, ?_, books.whole⟩
  intro box listed holder owned gone
  rcases books.whereabouts listed with released | moving | ⟨other, otherOwned, alive⟩
  · exact released
  · rcases List.mem_map.mp moving with ⟨token, inFlight, same⟩
    have mine := madeFor token inFlight
    rw [same] at mine
    have sameHolder := owned.symm.trans mine
    cases sameHolder
    exact absurd live gone
  · have sameHolder := owned.symm.trans otherOwned
    cases sameHolder
    exact absurd (kept holder alive) gone

theorem Books.spawned {base : Machine} {arm : Int64} {key : Key} {crossings : List Crossing}
    {operands : List Payload} {words : List Int64} {final : Task} {after : Machine}
    {new : List (UInt64 × UInt64)} (books : Books spine new base)
    (absent : base.tasks.tasks.find? key = none) (started : With base key final after)
    (madeFor : MadeFor base (.task key) new) (loaded : Loaded crossings operands new)
    (within : crossings.length ≤ taskSlots)
    (params : ∀ words, boxedWords crossings words = boxedWords (spine.paramsAt arm) words)
    (state : final.state = .pending) (target : final.target = arm)
    (slots : final.slots.toList = words)
    (listed : padded operands = words.map (fun word => .tree (.int word))) :
    Books spine [] after := by
  rcases started with ⟨tasks, updates, rfl⟩
  have fits : operands.length ≤ taskSlots := by
    rw [loaded.length]
    exact within
  rw [padded, List.take_append, List.take_of_length_le fits] at listed
  have tokens : spine.taskTokens final = new := by
    simp only [Spine.taskTokens, state, target, slots, ← params]
    exact boxedWords_loaded loaded listed
  apply books.updateTask updates
  · apply Or.inl
    apply books.idle
    intro held foundHeld
    rw [absent] at foundHeld
    cases foundHeld
  · simp [absent, tokens]
  · intro next entered token held
    cases entered
    rw [tokens] at held
    exact madeFor token held

theorem taskSpawn_ends {arm : Int64} {values : List Payload} (books : Books spine [] machine)
    (arity : values.length = crossings.length) (within : crossings.length ≤ taskSlots)
    (params : ∀ words, boxedWords crossings words = boxedWords (spine.paramsAt arm) words) :
    Ends (fun _ after => Books spine [] after) (fun _ after => Conserved after)
      (taskSpawn arm crossings values machine) := by
  unfold taskSpawn
  rw [bind_run_ok (get_run machine)]
  have boxes := boxArgs_ends books arity
  cases ranBox : boxArgs crossings values machine with
  | error trap after =>
    rw [ranBox] at boxes
    rw [bind_run_error ranBox]
    rcases boxes with ⟨new, afterBooks, grows⟩
    rw [List.append_nil] at afterBooks
    apply afterBooks.conserved
    intro token moving holder owned
    exact absurd owned (grows.unplaced books afterBooks token moving holder)
  | ok operands middle =>
    rw [ranBox] at boxes
    rw [bind_run_ok ranBox]
    rcases boxes with ⟨new, loaded, middleBooks, grows⟩
    rw [List.append_nil] at middleBooks
    rcases spawn_run middleBooks.tasksSound arm 0 0 with ⟨trap, ran⟩ |
      ⟨key, tasks, named, absent, updates, ran⟩
    · rw [bind_run_error ran]
      apply middleBooks.conserved
      intro token moving holder owned
      exact absurd owned (grows.unplaced books middleBooks token moving holder)
    · rw [bind_run_ok ran]
      rcases @Grows.assign _ _ _ _ (.task key) grows middleBooks with ⟨placed, madeFor⟩
      have assigning : assign machine.boxes.length (taskHolder (TaskExecutor.wordOf key))
          (middle.withTasks tasks) = .ok () ((middle.assigned machine.boxes.length
            (some (.task key))).withTasks tasks) := by
        rw [taskHolder_of named]
        rfl
      have started : With (middle.assigned machine.boxes.length (some (.task key))) key
          (TaskExecutor.freshTask arm) ((middle.assigned machine.boxes.length
            (some (.task key))).withTasks tasks) := ⟨tasks, updates, rfl⟩
      have eight : 0 + (padded operands).length = taskSlots := by
        simp [padded]
      have slots := setArgs_ends named eight started
      rw [bind_run_ok assigning]
      cases ranSlots : setArgs (TaskExecutor.wordOf key) 0 (padded operands)
          ((middle.assigned machine.boxes.length (some (.task key))).withTasks tasks) with
      | error trap after =>
        rw [ranSlots] at slots
        rw [bind_run_error ranSlots]
        rcases slots with ⟨last, started⟩
        exact placed.conserved_with absent started madeFor
      | ok answer after =>
        rw [ranSlots] at slots
        rw [bind_run_ok ranSlots]
        rcases slots with ⟨final, words, started, state, target, listed, same⟩
        exact placed.spawned absent started madeFor loaded within params state target same
          listed

end KiraVm.KiraIr
