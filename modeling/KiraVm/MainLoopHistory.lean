import KiraVm.MainLoopBooks
import KiraVm.MainLoopCalls

/-!
# Histories of the event loop

Every operation of the loop keeps its books, inside whatever calls the loop is in
the middle of.  So whatever the targets do and in whatever order the messages of
the helper arrive, a run that returns has carried out every post and every task it
accepted, once.
-/

namespace KiraVm

open StateLogic

namespace MainLoop

/-! ## Turns -/

variable {tasks : List (UInt64 × MainTask)} {handle : UInt64} {request : MainThreadRequest}
  {loop : MainLoop} {rest : OnLoop α} {post : α → MainLoop → Prop}

/-- The loop is inside these calls, and its books account for everything unless
the handles are about to run out. -/
structure Kept (frames : List LoopFrame) (loop : MainLoop) : Prop where
  frames : loop.frames = frames
  accounts : (spawned loop.log).length < 2 ^ 64 - 1 → Accounts (books loop)

/-- However a run ends early, its log is orderly. -/
def Cut (_ : Halt) (loop : MainLoop) : Prop :=
  (spawned loop.log).length < 2 ^ 64 - 1 → Orderly loop.log

variable {frames : List LoopFrame} {α β : Type} {checks : Bool}

theorem Kept.cut {loop : MainLoop} (kept : Kept frames loop) (fault : Halt) : Cut fault loop :=
  fun few => (kept.accounts few).orderly

theorem Kept.of_books {after : MainLoop} (kept : Kept frames loop)
    (inside : after.frames = loop.frames) (same : books after = books loop) : Kept frames after := by
  refine ⟨inside.trans kept.frames, ?_⟩
  intro few
  have counted : spawned after.log = spawned loop.log := congrArg Books.spawned same
  rw [counted] at few
  rw [same]
  exact kept.accounts few

attribute [local simp] books posted startedPosts finishedPosts spawned startedTasks deferred
  finishedTasks ownJoins refusedJoins postedBy startedPostBy finishedPostBy spawnedBy startedTaskBy
  deferredBy finishedTaskBy ownJoinBy refusedJoinBy running turning posting LoopFrame.task
  LoopFrame.turn LoopFrame.post List.filterMap_cons

instance borrow_kept (cell : Cell) : Safe (Kept frames) Cut (borrow checks cell) := by
  apply Safe.of_get
  intro loop kept
  split
  · exact kept.cut .panic
  · exact kept

instance setBorrowed_kept (cell : Cell) (held : Bool) :
    Safe (Kept frames) Cut (setBorrowed cell held) := by
  apply Safe.modify
  intro loop kept
  exact kept.of_books rfl rfl

instance nextCall_kept : Safe (Kept frames) Cut nextCall := by
  apply Safe.of_get
  intro loop kept
  exact kept.of_books rfl rfl

instance deferError_kept (result : Except MainThreadError α) :
    Safe (Kept frames) Cut (deferError result) := by
  cases result with
  | ok answer => exact Safe.pure ()
  | error error =>
    apply Safe.modify
    intro loop kept
    exact kept.of_books rfl rfl

theorem outOfFuel_kept : Safe (Kept frames) Cut (throw .outOfFuel : OnLoop α) :=
  Safe.throw fun _ kept => kept.cut _

/-- Once the call of the runner is recorded, the books account for everything. -/
def Entering (frames : List LoopFrame) (request : MainThreadRequest) (loop : MainLoop) : Prop :=
  ∀ call, Kept frames { loop with log := loop.log ++ [.called frames.head? call request] }

/-- Before the return was recorded, the books accounted for everything. -/
def Leaving (frames : List LoopFrame) (request : MainThreadRequest) (result : TargetResult)
    (loop : MainLoop) : Prop :=
  ∃ before call, Kept frames before ∧
    loop = { before with log := before.log ++ [.returned frames.head? call request result] }

/-- Running a target keeps the books. -/
def Accounted (execute : MainThreadRequest → OnLoop TargetResult) : Prop :=
  ∀ frames request, Meets (Entering frames request) (execute request) (Leaving frames request) Cut

variable {execute : MainThreadRequest → OnLoop TargetResult} {runner : Runner}

/-- A task is put in the table under a new handle. -/
theorem Kept.spawn (kept : Kept frames loop) (request : MainThreadRequest) :
    Kept frames { loop with
      nextHandle := if loop.nextHandle.toNat + 1 < 2 ^ 64 then loop.nextHandle + 1
        else loop.nextHandle
      tasks := (loop.tasks.filter fun entry => entry.1 ≠ loop.nextHandle) ++
        [(loop.nextHandle, .queued request)]
      log := loop.log ++ [.attempted .spawn loop.frames] ++
        [.answered request (.ok (.spawned loop.nextHandle))] } := by
  refine ⟨kept.frames, ?_⟩
  intro few
  have one : (spawned loop.log).length + 1 < 2 ^ 64 - 1 := by
    simpa using few
  have accounts := kept.accounts (Nat.lt_of_succ_lt one)
  have counted : loop.nextHandle.toNat = (spawned loop.log).length + 1 := accounts.counted
  have next : (if loop.nextHandle.toNat + 1 < 2 ^ 64 then loop.nextHandle + 1
      else loop.nextHandle).toNat = loop.nextHandle.toNat + 1 := by
    have small : loop.nextHandle.toNat + 1 < 2 ^ 64 := by omega
    rw [if_pos small, UInt64.toNat_add]
    exact Nat.mod_eq_of_lt small
  have entered := accounts.spawn rfl request
  simp only [Nat.reducePow] at next
  simpa [next] using entered

variable (runner : Runner) (depth : Nat)

theorem Orderly.finish {log : List LoopEvent} (orderly : Orderly log) (handle : UInt64)
    (call : Nat) (request : MainThreadRequest) (result : TargetResult) :
    Orderly (log ++ [.returned (some (.deferredTask handle request)) call request result]) := by
  constructor
  · simpa using orderly.posts
  · simpa using orderly.handles
  · simpa using orderly.tasks
  · simpa using orderly.turns
  · simpa using orderly.joins
  · intro join listed
    have earlier : join ∈ ownJoins log := by simpa using listed
    rcases orderly.answers join earlier with ⟨asked, own, finished, answered⟩
    refine ⟨asked, own, ?_, answered⟩
    simp only [finishedTasks, List.filterMap_append]
    exact List.mem_append_left _ finished
  · simpa using orderly.refusals

/-- Nothing is queued, neither posts nor tasks. -/
def Idle (loop : MainLoop) : Prop :=
  loop.posts = [] ∧ queued loop.tasks = []

end MainLoop

end KiraVm
