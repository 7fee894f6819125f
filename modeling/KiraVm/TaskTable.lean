import KiraVm.RuntimeAbi
import KiraVm.SlotTable
import KiraVm.StateLogic

/-!
# The task table

A task is spawned pending, is claimed once by a join, a detach or a driver, runs,
and has its result taken or thrown away.  A handle packs the generation of the
task's slot and the slot, counted from one.
-/

namespace KiraVm

open SlotTable StateLogic

/-- Why a task primitive could not be carried out. -/
inductive TaskTrap
  | unknownHandle
  | alreadyJoined
  | detached
  | cancelled
  | reentrant
  | notFinished
  | slotOutOfRange
  | handleExhausted
  deriving DecidableEq, Repr

/-- Where a task is in its life. -/
inductive TaskState
  | pending
  | running
  | finished
  | joined
  | detached
  | cancelled
  deriving DecidableEq, Repr

/-- How many argument slots one task carries. -/
def taskSlots : Nat := 8

/-- One spawned task. -/
structure Task where
  state : TaskState
  target : Int64
  slots : Vector Int64 taskSlots
  result : Int64
  deriving DecidableEq

/-- The task table one running program owns, and its clock. -/
structure TaskExecutor where
  tasks : Table Task
  clockMs : Int64

/-- An operation on the table; a refused one keeps the table it was refused in. -/
abbrev OnTasks (α : Type) : Type :=
  EStateM TaskTrap TaskExecutor α

namespace TaskExecutor

def new : TaskExecutor where
  tasks := .empty
  clockMs := 0

/-- A slot counted from one fits in 32 bits. -/
def maxTasks : Nat := 2 ^ 32 - 1

/-- The last generation of a slot: a handle has a sign bit. -/
def lastGeneration : Nat := 2 ^ 31 - 1

/-! ## Handles -/

def handle (index generation : Nat) : Except TaskTrap Int64 :=
  if 2 ^ 32 ≤ index + 1 then .error .handleExhausted
  else
    let word := generation * 2 ^ 32 + (index + 1)
    if 2 ^ 63 ≤ word then .error .handleExhausted else .ok (Int64.ofNat word)

/-- Unpack a handle; zero and negative words are none. -/
def parts (word : Int64) : Except TaskTrap Key :=
  if word.toInt < 0 then .error .unknownHandle
  else
    let word := word.toInt.toNat
    let slot := word % 2 ^ 32
    if slot = 0 then .error .unknownHandle else .ok ⟨slot - 1, word / 2 ^ 32⟩

def slotIndex (slot : Int64) : Except TaskTrap (Fin taskSlots) :=
  if bound : 0 ≤ slot.toInt ∧ slot.toInt.toNat < taskSlots then .ok ⟨slot.toInt.toNat, bound.2⟩
  else .error .slotOutOfRange

/-! ## Operations -/

def ofExcept {α : Type} : Except TaskTrap α → OnTasks α
  | .ok value => pure value
  | .error trap => throw trap

/-- The live task a handle names. -/
def task (word : Int64) : OnTasks (Key × Task) := do
  let key ← ofExcept (parts word)
  let executor ← get
  match executor.tasks.find? key with
  | none => throw .unknownHandle
  | some task => pure (key, task)

def withTask (executor : TaskExecutor) (key : Key) (task : Task) : TaskExecutor :=
  { executor with tasks := executor.tasks.occupy key.index task }

def withoutTask (executor : TaskExecutor) (key : Key) : TaskExecutor :=
  { executor with tasks := executor.tasks.vacate lastGeneration key.index }

def setTask (key : Key) (task : Task) : OnTasks Unit :=
  modify fun executor => executor.withTask key task

/-- Give up a task that is over. -/
def reclaim (word : Int64) : OnTasks Unit := do
  let key ← ofExcept (parts word)
  let executor ← get
  match executor.tasks.find? key with
  | none => throw .unknownHandle
  | some _ => set (executor.withoutTask key)

def freshTask (target : Int64) : Task where
  state := .pending
  target := target
  slots := Vector.replicate taskSlots 0
  result := 0

def spawn (target : Int64) : OnTasks Int64 := do
  let executor ← get
  match executor.tasks.claim maxTasks with
  | none => throw .handleExhausted
  | some (index, claimed) => do
    set { executor with tasks := claimed }
    match claimed.slots[index]? with
    | none => throw .handleExhausted
    | some slot => do
      set { executor with tasks := claimed.occupy index (freshTask target) }
      ofExcept (handle index slot.generation)

/-- Claim a task for a join: whether its body still has to run. -/
def beginJoin (word : Int64) : OnTasks Int64 := do
  let (key, task) ← task word
  match task.state with
  | .pending => do
    setTask key { task with state := .running }
    pure 1
  | .finished => pure 0
  | .running => throw .reentrant
  | .joined => throw .alreadyJoined
  | .detached => throw .detached
  | .cancelled => throw .cancelled

def beginDetach (word : Int64) : OnTasks Int64 := do
  let (key, task) ← task word
  match task.state with
  | .pending => do
    setTask key { task with state := .running }
    pure 1
  | .finished | .cancelled => pure 0
  | .running => throw .reentrant
  | .joined => throw .alreadyJoined
  | .detached => throw .detached

def firstPending : (index : Nat) → List (Slot Task) → Option (Key × Task)
  | _, [] => none
  | index, slot :: slots =>
    match slot.occupant with
    | some task =>
      if task.state = .pending then some (⟨index, slot.generation⟩, task)
      else firstPending (index + 1) slots
    | none => firstPending (index + 1) slots

/-- Claim the first pending task, or answer zero. -/
def pickReady : OnTasks Int64 := do
  let executor ← get
  match firstPending 0 executor.tasks.slots with
  | none => pure 0
  | some (key, task) => do
    setTask key { task with state := .running }
    match handle key.index key.generation with
    | .ok word => pure word
    | .error _ => pure 0

def takeResult (word : Int64) : OnTasks Int64 := do
  let (key, task) ← task word
  match task.state with
  | .finished => do
    setTask key { task with state := .joined }
    reclaim word
    pure task.result
  | .joined => throw .alreadyJoined
  | .detached => throw .detached
  | .cancelled => throw .cancelled
  | .pending | .running => throw .notFinished

/-- Add milliseconds to the clock, up to its largest value. -/
def advance (clock ms : Int64) : Int64 :=
  Int64.ofIntClamp (clock.toInt + max ms.toInt 0)

/-- Carry out one primitive. -/
def perform (prim : TaskPrim) (first second third : Int64) : OnTasks Int64 :=
  match prim with
  | .spawn => spawn first
  | .setArg => do
    let slot ← ofExcept (slotIndex second)
    let (key, task) ← task first
    setTask key { task with slots := task.slots.set slot third slot.isLt }
    pure 0
  | .slotGet => do
    let slot ← ofExcept (slotIndex second)
    let (_, task) ← task first
    pure (task.slots.get slot)
  | .targetOf => do
    let (_, task) ← task first
    pure task.target
  | .beginJoin => beginJoin first
  | .beginDetach => beginDetach first
  | .pickReady => pickReady
  | .complete => do
    let (key, task) ← task first
    setTask key { task with result := second, state := .finished }
    pure 0
  | .takeResult => takeResult first
  | .markDetached => do
    let (key, task) ← task first
    setTask key { task with state := .detached }
    reclaim first
    pure 0
  | .cancel => do
    let (key, task) ← task first
    if task.state = .pending then do
      setTask key { task with state := .cancelled }
      reclaim first
    pure 0
  | .advanceClock => do
    modify fun executor => { executor with clockMs := advance executor.clockMs first }
    pure 0

/-! ## Handles and keys -/

/-- The word of a task's handle. -/
def wordOf (key : Key) : Int64 :=
  Int64.ofNat (key.generation * 2 ^ 32 + (key.index + 1))

/-- The keys the table gives out. -/
def InRange (key : Key) : Prop :=
  key.index < maxTasks ∧ key.generation ≤ lastGeneration

variable {key : Key} {old : Task}

theorem handle_inRange (inRange : InRange key) :
    handle key.index key.generation = .ok (wordOf key) := by
  rcases inRange with ⟨indexBound, generationBound⟩
  simp only [maxTasks, lastGeneration] at indexBound generationBound
  unfold handle wordOf
  rw [if_neg (by omega), if_neg (by omega)]

theorem parts_wordOf (inRange : InRange key) : parts (wordOf key) = .ok key := by
  rcases inRange with ⟨indexBound, generationBound⟩
  simp only [maxTasks, lastGeneration] at indexBound generationBound
  have value : (wordOf key).toInt = (key.generation * 2 ^ 32 + (key.index + 1) : Nat) :=
    Int64.toInt_ofNat_of_lt (by omega)
  have field : (key.generation * 2 ^ 32 + (key.index + 1)) % 2 ^ 32 = key.index + 1 := by omega
  have count : (key.generation * 2 ^ 32 + (key.index + 1)) / 2 ^ 32 = key.generation := by omega
  unfold parts
  rw [value, if_neg (by omega), Int.toNat_natCast]
  simp only [field, count]
  rw [if_neg (by omega)]
  rfl

theorem eq_wordOf_of_parts {word : Int64} (named : parts word = .ok key) : word = wordOf key := by
  unfold parts at named
  split at named
  · cases named
  · rename_i positive
    dsimp only at named
    split at named
    · cases named
    · rename_i slotted
      cases named
      have small := Int64.toInt_lt word
      rw [← Int64.toInt_inj]
      unfold wordOf
      dsimp only
      rw [Int64.toInt_ofNat_of_lt]
      · omega
      · omega

theorem wordOf_injective {other : Key} (inRange : InRange key) (otherInRange : InRange other)
    (same : wordOf key = wordOf other) : key = other := by
  have parsed := parts_wordOf inRange
  rw [same, parts_wordOf otherInRange] at parsed
  cases parsed
  rfl

theorem wordOf_ne_zero (inRange : InRange key) : wordOf key ≠ 0 := by
  intro zero
  have parsed := parts_wordOf inRange
  rw [zero] at parsed
  cases parsed

/-! ## What a primitive does -/

/-- One call of the table. -/
structure TaskRequest where
  prim : TaskPrim
  first : Int64
  second : Int64
  third : Int64
  deriving DecidableEq, Repr

/-- The primitives that name a task. -/
def namesTask : TaskPrim → Bool
  | .spawn | .pickReady | .advanceClock => false
  | _ => true

/-- What a primitive that names a task answers, and what becomes of the task. -/
def ownEffect (task : Task) : TaskPrim → Int64 → Int64 → Except TaskTrap (Int64 × Option Task)
  | .setArg, second, third => do
    let slot ← slotIndex second
    pure (0, some { task with slots := task.slots.set slot third slot.isLt })
  | .slotGet, second, _ => do
    let slot ← slotIndex second
    pure (task.slots.get slot, some task)
  | .targetOf, _, _ => .ok (task.target, some task)
  | .beginJoin, _, _ =>
    match task.state with
    | .pending => .ok (1, some { task with state := .running })
    | .finished => .ok (0, some task)
    | .running => .error .reentrant
    | .joined => .error .alreadyJoined
    | .detached => .error .detached
    | .cancelled => .error .cancelled
  | .beginDetach, _, _ =>
    match task.state with
    | .pending => .ok (1, some { task with state := .running })
    | .finished | .cancelled => .ok (0, some task)
    | .running => .error .reentrant
    | .joined => .error .alreadyJoined
    | .detached => .error .detached
  | .complete, second, _ => .ok (0, some { task with result := second, state := .finished })
  | .takeResult, _, _ =>
    match task.state with
    | .finished => .ok (task.result, none)
    | .joined => .error .alreadyJoined
    | .detached => .error .detached
    | .cancelled => .error .cancelled
    | .pending | .running => .error .notFinished
  | .markDetached, _, _ => .ok (0, none)
  | .cancel, _, _ => .ok (0, if task.state = .pending then none else some task)
  | .spawn, _, _ | .pickReady, _, _ | .advanceClock, _, _ => .error .unknownHandle

/-- A table that was reached from the empty one. -/
abbrev SoundTasks (executor : TaskExecutor) : Prop :=
  executor.tasks.Sound lastGeneration maxTasks

/-- The table changes in one task only. -/
abbrev UpdatesTask (executor : TaskExecutor) (key : Key) (entry : Option Task)
    (after : TaskExecutor) : Prop :=
  Table.Updates lastGeneration maxTasks executor.tasks key entry after.tasks

/-- Everything a request can do to a sound table. -/
inductive Performs (executor : TaskExecutor) :
    TaskRequest → Except TaskTrap Int64 → TaskExecutor → Prop
  | refused (request : TaskRequest) (trap : TaskTrap) :
      Performs executor request (.error trap) executor
  | spawned (target second third : Int64) {key : Key} {tasks : Table Task}
      (inRange : InRange key)
      (inserts : Table.Inserts lastGeneration maxTasks executor.tasks (freshTask target) key
        tasks) :
      Performs executor ⟨.spawn, target, second, third⟩ (.ok (wordOf key))
        { executor with tasks := tasks }
  | own (prim : TaskPrim) (second third : Int64) {key : Key} {task : Task} {answer : Int64}
      {entry : Option Task} {after : TaskExecutor} (names : namesTask prim = true)
      (found : executor.tasks.find? key = some task)
      (effect : ownEffect task prim second third = .ok (answer, entry))
      (updates : UpdatesTask executor key entry after) :
      Performs executor ⟨prim, wordOf key, second, third⟩ (.ok answer) after
  | picked (first second third : Int64) {key : Key} {task : Task} {after : TaskExecutor}
      (found : executor.tasks.find? key = some task) (pending : task.state = .pending)
      (updates : UpdatesTask executor key (some { task with state := .running }) after) :
      Performs executor ⟨.pickReady, first, second, third⟩ (.ok (wordOf key)) after
  | noneReady (first second third : Int64) :
      Performs executor ⟨.pickReady, first, second, third⟩ (.ok 0) executor
  | ticked (ms second third : Int64) (clock : Int64) :
      Performs executor ⟨.advanceClock, ms, second, third⟩ (.ok 0)
        { executor with clockMs := clock }

/-- A request's answer and the table after it. -/
def serve (executor : TaskExecutor) (request : TaskRequest) :
    Except TaskTrap Int64 × TaskExecutor :=
  match perform request.prim request.first request.second request.third executor with
  | .ok answer after => (.ok answer, after)
  | .error trap after => (.error trap, after)

/-- What `serve` answers from a run of `perform`. -/
def Served (answer : EStateM.Result TaskTrap TaskExecutor Int64) (executor : TaskExecutor)
    (request : TaskRequest) : Prop :=
  match answer with
  | .ok value after => Performs executor request (.ok value) after
  | .error trap after => Performs executor request (.error trap) after

variable {executor : TaskExecutor}

theorem served_of_error {request : TaskRequest} {trap : TaskTrap}
    {answer : EStateM.Result TaskTrap TaskExecutor Int64}
    (ran : answer = .error trap executor) : Served answer executor request := by
  rw [ran]
  exact Performs.refused request trap

theorem task_run (word : Int64) (executor : TaskExecutor) :
    task word executor = .error .unknownHandle executor ∨
      ∃ key found, word = wordOf key ∧ executor.tasks.find? key = some found ∧
        parts word = .ok key ∧ task word executor = .ok (key, found) executor := by
  cases named : parts word with
  | error trap =>
    left
    have unknown : trap = .unknownHandle := by
      unfold parts at named
      split at named
      · cases named
        rfl
      · dsimp only at named
        split at named <;> cases named
        rfl
    subst unknown
    simp only [task, named, ofExcept, bind, EStateM.bind, throw_run]
  | ok key =>
    cases found : executor.tasks.find? key with
    | none =>
      left
      simp only [task, named, ofExcept, bind, EStateM.bind, pure_run, get_run, found, throw_run]
    | some held =>
      right
      refine ⟨key, held, eq_wordOf_of_parts named, found, rfl, ?_⟩
      simp only [task, named, ofExcept, bind, EStateM.bind, pure_run, get_run, found]

theorem updates_setTask (sound : SoundTasks executor) (new : Task)
    (found : executor.tasks.find? key = some old) :
    UpdatesTask executor key (some new) (executor.withTask key new) :=
  sound.updates_occupy new found

theorem updates_same (sound : SoundTasks executor) (found : executor.tasks.find? key = some old) :
    UpdatesTask executor key (some old) executor :=
  sound.updates_refl found

theorem updates_reclaim (sound : SoundTasks executor) (new : Task)
    (found : executor.tasks.find? key = some old) :
    UpdatesTask executor key none ((executor.withTask key new).withoutTask key) := by
  have first := sound.updates_occupy new found
  exact first.trans (first.sound.updates_vacate first.found)

theorem reclaim_run {word : Int64} {new : Task} (named : parts word = .ok key)
    (found : executor.tasks.find? key = some old) :
    reclaim word (executor.withTask key new) =
      .ok () ((executor.withTask key new).withoutTask key) := by
  have held : (executor.withTask key new).tasks.find? key = some new :=
    Table.find?_occupy_self new found
  simp only [reclaim, named, ofExcept, bind, EStateM.bind, pure_run, get_run, held, set_run]

theorem served_of_ok {request : TaskRequest} {value : Int64} {after : TaskExecutor}
    {answer : EStateM.Result TaskTrap TaskExecutor Int64} (ran : answer = .ok value after)
    (performs : Performs executor request (.ok value) after) :
    Served answer executor request := by
  rw [ran]
  exact performs

section Own

variable (sound : SoundTasks executor) (first second third : Int64)

include sound

theorem setArg_served : Served (perform .setArg first second third executor) executor
    ⟨.setArg, first, second, third⟩ := by
  cases slotted : slotIndex second with
  | error trap =>
    have ran : perform .setArg first second third executor = .error trap executor := by
      simp only [perform, slotted, ofExcept, bind, EStateM.bind, throw_run]
    exact served_of_error ran
  | ok slot =>
    rcases task_run first executor with unknown | ⟨key, held, named, found, -, resolved⟩
    · have ran : perform .setArg first second third executor =
          .error .unknownHandle executor := by
        simp only [perform, slotted, ofExcept, bind, EStateM.bind, pure_run, unknown]
      exact served_of_error ran
    · have ran : perform .setArg first second third executor =
          .ok 0 (executor.withTask key { held with slots := held.slots.set slot third }) := by
        simp only [perform, slotted, ofExcept, bind, EStateM.bind, pure_run, resolved, setTask,
          modify_run]
      apply served_of_ok ran
      rw [named]
      exact Performs.own .setArg second third rfl found (by simp only [ownEffect, slotted]; rfl)
        (updates_setTask sound _ found)

theorem slotGet_served : Served (perform .slotGet first second third executor) executor
    ⟨.slotGet, first, second, third⟩ := by
  cases slotted : slotIndex second with
  | error trap =>
    have ran : perform .slotGet first second third executor = .error trap executor := by
      simp only [perform, slotted, ofExcept, bind, EStateM.bind, throw_run]
    exact served_of_error ran
  | ok slot =>
    rcases task_run first executor with unknown | ⟨key, held, named, found, -, resolved⟩
    · have ran : perform .slotGet first second third executor =
          .error .unknownHandle executor := by
        simp only [perform, slotted, ofExcept, bind, EStateM.bind, pure_run, unknown]
      exact served_of_error ran
    · have ran : perform .slotGet first second third executor =
          .ok (held.slots.get slot) executor := by
        simp only [perform, slotted, ofExcept, bind, EStateM.bind, pure_run, resolved]
      apply served_of_ok ran
      rw [named]
      exact Performs.own .slotGet second third rfl found (by simp only [ownEffect, slotted]; rfl)
        (updates_same sound found)

theorem targetOf_served : Served (perform .targetOf first second third executor) executor
    ⟨.targetOf, first, second, third⟩ := by
  rcases task_run first executor with unknown | ⟨key, held, named, found, -, resolved⟩
  · have ran : perform .targetOf first second third executor =
        .error .unknownHandle executor := by
      simp only [perform, bind, EStateM.bind, unknown]
    exact served_of_error ran
  · have ran : perform .targetOf first second third executor = .ok held.target executor := by
      simp only [perform, bind, EStateM.bind, resolved, pure_run]
    apply served_of_ok ran
    rw [named]
    exact Performs.own .targetOf second third rfl found rfl (updates_same sound found)

theorem complete_served : Served (perform .complete first second third executor) executor
    ⟨.complete, first, second, third⟩ := by
  rcases task_run first executor with unknown | ⟨key, held, named, found, -, resolved⟩
  · have ran : perform .complete first second third executor =
        .error .unknownHandle executor := by
      simp only [perform, bind, EStateM.bind, unknown]
    exact served_of_error ran
  · have ran : perform .complete first second third executor =
        .ok 0 (executor.withTask key { held with result := second, state := .finished }) := by
      simp only [perform, bind, EStateM.bind, resolved, setTask, modify_run, pure_run]
    apply served_of_ok ran
    rw [named]
    exact Performs.own .complete second third rfl found rfl (updates_setTask sound _ found)

/-- A claim changes a pending task and refuses or leaves every other. -/
theorem beginJoin_served : Served (perform .beginJoin first second third executor) executor
    ⟨.beginJoin, first, second, third⟩ := by
  rcases task_run first executor with unknown | ⟨key, held, named, found, -, resolved⟩
  · have ran : perform .beginJoin first second third executor =
        .error .unknownHandle executor := by
      simp only [perform, beginJoin, bind, EStateM.bind, unknown]
    exact served_of_error ran
  · rcases held with ⟨state, target, slots, result⟩
    cases state with
    | pending =>
      have ran : perform .beginJoin first second third executor =
          .ok 1 (executor.withTask key ⟨.running, target, slots, result⟩) := by
        simp only [perform, beginJoin, bind, EStateM.bind, resolved, setTask, modify_run, pure_run]
      apply served_of_ok ran
      rw [named]
      exact Performs.own .beginJoin second third rfl found rfl (updates_setTask sound _ found)
    | finished =>
      have ran : perform .beginJoin first second third executor = .ok 0 executor := by
        simp only [perform, beginJoin, bind, EStateM.bind, resolved, pure_run]
      apply served_of_ok ran
      rw [named]
      exact Performs.own .beginJoin second third rfl found rfl (updates_same sound found)
    | running | joined | detached | cancelled =>
      apply served_of_error
      simp only [perform, beginJoin, bind, EStateM.bind, resolved]
      rfl

theorem beginDetach_served : Served (perform .beginDetach first second third executor) executor
    ⟨.beginDetach, first, second, third⟩ := by
  rcases task_run first executor with unknown | ⟨key, held, named, found, -, resolved⟩
  · have ran : perform .beginDetach first second third executor =
        .error .unknownHandle executor := by
      simp only [perform, beginDetach, bind, EStateM.bind, unknown]
    exact served_of_error ran
  · rcases held with ⟨state, target, slots, result⟩
    cases state with
    | pending =>
      have ran : perform .beginDetach first second third executor =
          .ok 1 (executor.withTask key ⟨.running, target, slots, result⟩) := by
        simp only [perform, beginDetach, bind, EStateM.bind, resolved, setTask, modify_run,
          pure_run]
      apply served_of_ok ran
      rw [named]
      exact Performs.own .beginDetach second third rfl found rfl (updates_setTask sound _ found)
    | finished | cancelled =>
      have ran : perform .beginDetach first second third executor = .ok 0 executor := by
        simp only [perform, beginDetach, bind, EStateM.bind, resolved, pure_run]
      apply served_of_ok ran
      rw [named]
      exact Performs.own .beginDetach second third rfl found rfl (updates_same sound found)
    | running | joined | detached =>
      apply served_of_error
      simp only [perform, beginDetach, bind, EStateM.bind, resolved]
      rfl

theorem takeResult_served : Served (perform .takeResult first second third executor) executor
    ⟨.takeResult, first, second, third⟩ := by
  rcases task_run first executor with unknown | ⟨key, held, named, found, parsed, resolved⟩
  · have ran : perform .takeResult first second third executor =
        .error .unknownHandle executor := by
      simp only [perform, takeResult, bind, EStateM.bind, unknown]
    exact served_of_error ran
  · rcases held with ⟨state, target, slots, result⟩
    cases state with
    | finished =>
      have ran : perform .takeResult first second third executor =
          .ok result ((executor.withTask key ⟨.joined, target, slots, result⟩).withoutTask
            key) := by
        simp only [perform, takeResult, bind, EStateM.bind, resolved, setTask, modify_run,
          reclaim_run parsed found, pure_run]
      apply served_of_ok ran
      rw [named]
      exact Performs.own .takeResult second third rfl found rfl (updates_reclaim sound _ found)
    | pending | running | joined | detached | cancelled =>
      apply served_of_error
      simp only [perform, takeResult, bind, EStateM.bind, resolved]
      rfl

theorem markDetached_served : Served (perform .markDetached first second third executor) executor
    ⟨.markDetached, first, second, third⟩ := by
  rcases task_run first executor with unknown | ⟨key, held, named, found, parsed, resolved⟩
  · have ran : perform .markDetached first second third executor =
        .error .unknownHandle executor := by
      simp only [perform, bind, EStateM.bind, unknown]
    exact served_of_error ran
  · have ran : perform .markDetached first second third executor =
        .ok 0 ((executor.withTask key { held with state := .detached }).withoutTask key) := by
      simp only [perform, bind, EStateM.bind, resolved, setTask, modify_run,
        reclaim_run parsed found, pure_run]
    apply served_of_ok ran
    rw [named]
    exact Performs.own .markDetached second third rfl found rfl (updates_reclaim sound _ found)

theorem cancel_served : Served (perform .cancel first second third executor) executor
    ⟨.cancel, first, second, third⟩ := by
  rcases task_run first executor with unknown | ⟨key, held, named, found, parsed, resolved⟩
  · have ran : perform .cancel first second third executor =
        .error .unknownHandle executor := by
      simp only [perform, bind, EStateM.bind, unknown]
    exact served_of_error ran
  · by_cases pending : held.state = .pending
    · have ran : perform .cancel first second third executor =
          .ok 0 ((executor.withTask key { held with state := .cancelled }).withoutTask key) := by
        simp only [perform, bind, EStateM.bind, resolved, pending, if_true, setTask, modify_run,
          reclaim_run parsed found, pure_run]
      apply served_of_ok ran
      rw [named]
      exact Performs.own .cancel second third rfl found (by simp only [ownEffect, pending, if_true])
        (updates_reclaim sound _ found)
    · have ran : perform .cancel first second third executor = .ok 0 executor := by
        simp only [perform, bind, EStateM.bind, resolved, pending, if_false, pure_run]
      apply served_of_ok ran
      rw [named]
      exact Performs.own .cancel second third rfl found
        (by simp only [ownEffect, pending, if_false]) (updates_same sound found)

end Own

/-! ## Spawning and picking -/

/-- Spawning cannot fail after a slot was found for the task. -/
theorem spawn_served (sound : SoundTasks executor) (first second third : Int64) :
    Served (perform .spawn first second third executor) executor
      ⟨.spawn, first, second, third⟩ := by
  rcases sound.insert_spec (freshTask first) with refused | ⟨key, tasks, inserted, inserts⟩
  · have unclaimed : executor.tasks.claim maxTasks = none := by
      rcases sound.insert_cases (freshTask first) with ⟨-, full, size⟩ |
        ⟨index, free, generation, listed, vacant, inserted⟩ | ⟨full, room, inserted⟩
      · simp [Table.claim, full, Nat.not_lt.mpr size]
      · rw [inserted] at refused
        cases refused
      · rw [inserted] at refused
        cases refused
    have ran : perform .spawn first second third executor = .error .handleExhausted executor := by
      simp only [perform, spawn, bind, EStateM.bind, get_run, unclaimed, throw_run]
    exact served_of_error ran
  · have inRange : InRange key := ⟨inserts.index_lt, inserts.generation_le⟩
    unfold Table.insert at inserted
    cases claimed : executor.tasks.claim maxTasks with
    | none => simp [claimed] at inserted
    | some taken =>
      rcases taken with ⟨index, middle⟩
      cases here : middle.slots[index]? with
      | none => simp [claimed, here] at inserted
      | some slot =>
        simp only [claimed, here, Option.bind_some, Option.map_some, Option.some.injEq,
          Prod.mk.injEq] at inserted
        rcases inserted with ⟨rfl, rfl⟩
        have packed := handle_inRange inRange
        simp only at packed
        have ran : perform .spawn first second third executor =
            .ok (wordOf ⟨index, slot.generation⟩)
              { executor with tasks := middle.occupy index (freshTask first) } := by
          simp only [perform, spawn, bind, EStateM.bind, get_run, claimed, set_run, here,
            packed, ofExcept, pure_run]
        apply served_of_ok ran
        exact Performs.spawned first second third inRange inserts

theorem firstPending_found {slots before : List (Slot Task)} {key : Key} {held : Task}
    (first : firstPending before.length slots = some (key, held)) :
    (before ++ slots)[key.index]? = some ⟨key.generation, some held⟩ ∧ held.state = .pending := by
  induction slots generalizing before with
  | nil => cases first
  | cons slot slots ih =>
    have skipped : before.length + 1 = (before ++ [slot]).length := by simp
    have same : before ++ slot :: slots = (before ++ [slot]) ++ slots := by simp
    rcases slot with ⟨generation, occupant⟩
    cases occupant with
    | none =>
      simp only [firstPending] at first
      rw [skipped] at first
      rw [same]
      exact ih first
    | some other =>
      simp only [firstPending] at first
      split at first
      · rename_i pending
        cases first
        exact ⟨by simp, pending⟩
      · rw [skipped] at first
        rw [same]
        exact ih first

theorem pickReady_served (sound : SoundTasks executor) (first second third : Int64) :
    Served (perform .pickReady first second third executor) executor
      ⟨.pickReady, first, second, third⟩ := by
  cases picked : firstPending 0 executor.tasks.slots with
  | none =>
    have ran : perform .pickReady first second third executor = .ok 0 executor := by
      simp only [perform, pickReady, bind, EStateM.bind, get_run, picked, pure_run]
    exact served_of_ok ran (Performs.noneReady first second third)
  | some found =>
    rcases found with ⟨key, held⟩
    rcases @firstPending_found _ [] key held picked with ⟨here, pending⟩
    have listed : executor.tasks.find? key = some held := Table.find?_eq_some_iff.mpr here
    have inRange : InRange key := sound.inRange listed
    have ran : perform .pickReady first second third executor =
        .ok (wordOf key) (executor.withTask key { held with state := .running }) := by
      simp only [perform, pickReady, bind, EStateM.bind, get_run, picked, setTask, modify_run,
        handle_inRange inRange, pure_run]
    exact served_of_ok ran
      (Performs.picked first second third listed pending (updates_setTask sound _ listed))

theorem serve_performs (sound : SoundTasks executor) (request : TaskRequest) :
    Performs executor request (serve executor request).1 (serve executor request).2 := by
  have served : Served (perform request.prim request.first request.second request.third executor)
      executor request := by
    rcases request with ⟨prim, first, second, third⟩
    cases prim with
    | spawn => exact spawn_served sound first second third
    | setArg => exact setArg_served sound first second third
    | slotGet => exact slotGet_served sound first second third
    | targetOf => exact targetOf_served sound first second third
    | beginJoin => exact beginJoin_served sound first second third
    | beginDetach => exact beginDetach_served sound first second third
    | pickReady => exact pickReady_served sound first second third
    | complete => exact complete_served sound first second third
    | takeResult => exact takeResult_served sound first second third
    | markDetached => exact markDetached_served sound first second third
    | cancel => exact cancel_served sound first second third
    | advanceClock => exact Performs.ticked first second third _
  unfold serve
  cases ran : perform request.prim request.first request.second request.third executor with
  | ok answer after =>
    rw [ran] at served
    exact served
  | error trap after =>
    rw [ran] at served
    exact served

end TaskExecutor

end KiraVm
