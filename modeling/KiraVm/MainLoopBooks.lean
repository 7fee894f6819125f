import KiraVm.MainLoop
import Mathlib.Data.List.Perm.Basic

/-!
# The books of the event loop

What the log of a run says, set against what the loop still holds.  Every post and
every task that was accepted is still queued or was started once, posts in order; a
handle is with one holder at a time, the table, a call that runs its task, or the
join that took its result.  Each step of the loop keeps the account.
-/

namespace KiraVm

def LoopFrame.task : LoopFrame → Option (UInt64 × MainThreadRequest)
  | .deferredTask handle request | .joinedTask handle request => some (handle, request)
  | _ => none

def LoopFrame.turn : LoopFrame → Option UInt64
  | .deferredTask handle _ => some handle
  | _ => none

def LoopFrame.post : LoopFrame → Option MainThreadRequest
  | .deferredPost request => some request
  | _ => none

namespace MainLoop

/-! ## What a log says -/

def postedBy : LoopEvent → Option MainThreadRequest
  | .answered request (.ok .posted) => if request.operation = .post then some request else none
  | _ => none

def startedPostBy : LoopEvent → Option MainThreadRequest
  | .called (some (.deferredPost _)) _ request => some request
  | _ => none

def finishedPostBy : LoopEvent → Option MainThreadRequest
  | .returned (some (.deferredPost _)) _ request _ => some request
  | _ => none

def spawnedBy : LoopEvent → Option (UInt64 × MainThreadRequest)
  | .answered request (.ok (.spawned handle)) => some (handle, request)
  | _ => none

def startedTaskBy : LoopEvent → Option (UInt64 × MainThreadRequest)
  | .called (some (.deferredTask handle _)) _ request
  | .called (some (.joinedTask handle _)) _ request => some (handle, request)
  | _ => none

def deferredBy : LoopEvent → Option UInt64
  | .called (some (.deferredTask handle _)) _ _ => some handle
  | _ => none

def finishedTaskBy : LoopEvent → Option (UInt64 × MainThreadRequest × TargetResult)
  | .returned (some (.deferredTask handle _)) _ request result
  | .returned (some (.joinedTask handle _)) _ request result => some (handle, request, result)
  | _ => none

/-- A join that found its task. -/
def ownJoinBy : LoopEvent → Option (UInt64 × Except MainThreadError NativeStateValue)
  | .joined handle true answer => some (handle, answer)
  | _ => none

/-- A join that found no task. -/
def refusedJoinBy : LoopEvent → Option (UInt64 × Except MainThreadError NativeStateValue)
  | .joined handle false answer => some (handle, answer)
  | _ => none

def posted (log : List LoopEvent) : List MainThreadRequest :=
  log.filterMap postedBy

def startedPosts (log : List LoopEvent) : List MainThreadRequest :=
  log.filterMap startedPostBy

def finishedPosts (log : List LoopEvent) : List MainThreadRequest :=
  log.filterMap finishedPostBy

def spawned (log : List LoopEvent) : List (UInt64 × MainThreadRequest) :=
  log.filterMap spawnedBy

def startedTasks (log : List LoopEvent) : List (UInt64 × MainThreadRequest) :=
  log.filterMap startedTaskBy

def deferred (log : List LoopEvent) : List UInt64 :=
  log.filterMap deferredBy

def finishedTasks (log : List LoopEvent) : List (UInt64 × MainThreadRequest × TargetResult) :=
  log.filterMap finishedTaskBy

def taskOf (finished : UInt64 × MainThreadRequest × TargetResult) : UInt64 × MainThreadRequest :=
  (finished.1, finished.2.1)

def ownJoins (log : List LoopEvent) :
    List (UInt64 × Except MainThreadError NativeStateValue) :=
  log.filterMap ownJoinBy

def refusedJoins (log : List LoopEvent) :
    List (UInt64 × Except MainThreadError NativeStateValue) :=
  log.filterMap refusedJoinBy

/-- What the log of every run says.  The runner is called for posts in the order in
which they were accepted.  It is called for a task only when the task was spawned,
and at most once; handles are never issued twice, and tasks that run on their turn
run in the order of their handles.  At most one join of a handle finds its task, and
answers with what the runner returned for it; the others answer that the handle is
unknown. -/
structure Orderly (log : List LoopEvent) : Prop where
  posts : startedPosts log <+: posted log
  handles : (spawned log).Pairwise fun first second => first.1.toNat < second.1.toNat
  tasks : (startedTasks log).Subperm (spawned log)
  turns : (deferred log).Pairwise fun first second => first.toNat < second.toNat
  joins : ((ownJoins log).map Prod.fst).Nodup
  answers : ∀ join ∈ ownJoins log, ∃ request result,
    (join.1, request, result) ∈ finishedTasks log ∧ join.2 = joinValue result
  refusals : ∀ join ∈ refusedJoins log, join.2 = .error (.unknownHandle join.1)

/-- What the log of a run says once the run has returned: for every post and every
task that was accepted the runner was called and has returned, and the tasks whose
result was never joined ran on their turn. -/
structure Complete (log : List LoopEvent) : Prop where
  posts : startedPosts log = posted log
  ended : finishedPosts log = posted log
  tasks : (startedTasks log).Perm (spawned log)
  finished : ((finishedTasks log).map taskOf).Perm (spawned log)
  unjoined : ∀ entry ∈ spawned log, entry.1 ∉ (ownJoins log).map Prod.fst →
    entry.1 ∈ deferred log

/-! ## What the loop holds -/

def queuedEntry : UInt64 × MainTask → Option (UInt64 × MainThreadRequest)
  | (handle, .queued request) => some (handle, request)
  | (_, .finished _) => none

def queued (tasks : List (UInt64 × MainTask)) : List (UInt64 × MainThreadRequest) :=
  tasks.filterMap queuedEntry

def running (frames : List LoopFrame) : List (UInt64 × MainThreadRequest) :=
  frames.filterMap LoopFrame.task

def turning (frames : List LoopFrame) : List UInt64 :=
  frames.filterMap LoopFrame.turn

def posting (frames : List LoopFrame) : List MainThreadRequest :=
  frames.filterMap LoopFrame.post

/-- What a run was given, what it started and finished, and what it still holds. -/
structure Books where
  posted : List MainThreadRequest
  startedPosts : List MainThreadRequest
  finishedPosts : List MainThreadRequest
  posting : List MainThreadRequest
  posts : List MainThreadRequest
  nextHandle : Nat
  spawned : List (UInt64 × MainThreadRequest)
  started : List (UInt64 × MainThreadRequest)
  deferred : List UInt64
  finished : List (UInt64 × MainThreadRequest × TargetResult)
  tasks : List (UInt64 × MainTask)
  running : List (UInt64 × MainThreadRequest)
  turning : List UInt64
  ownJoins : List (UInt64 × Except MainThreadError NativeStateValue)
  refusedJoins : List (UInt64 × Except MainThreadError NativeStateValue)

def books (loop : MainLoop) : Books where
  posted := posted loop.log
  startedPosts := startedPosts loop.log
  finishedPosts := finishedPosts loop.log
  posting := posting loop.frames
  posts := loop.posts
  nextHandle := loop.nextHandle.toNat
  spawned := spawned loop.log
  started := startedTasks loop.log
  deferred := deferred loop.log
  finished := finishedTasks loop.log
  tasks := loop.tasks
  running := running loop.frames
  turning := turning loop.frames
  ownJoins := ownJoins loop.log
  refusedJoins := refusedJoins loop.log

/-- Who has a handle: the table, a call, or a join that is over. -/
def Books.holders (books : Books) : List UInt64 :=
  books.tasks.map Prod.fst ++ (books.running.map Prod.fst ++ books.ownJoins.map Prod.fst)

/-- The books account for everything the loop was given. -/
structure Accounts (books : Books) : Prop where
  posts : books.posted = books.startedPosts ++ books.posts
  paired : books.startedPosts = books.finishedPosts ++ books.posting
  counted : books.nextHandle = books.spawned.length + 1
  ordered : books.spawned.Pairwise fun first second => first.1.toNat < second.1.toNat
  below : ∀ entry ∈ books.spawned, entry.1.toNat < books.nextHandle
  once : books.holders.Nodup
  known : ∀ handle ∈ books.holders, handle.toNat < books.nextHandle
  conserved : books.spawned.Perm (books.started ++ queued books.tasks)
  ended : books.started.Perm (books.finished.map taskOf ++ books.running)
  results : ∀ handle result, (handle, MainTask.finished result) ∈ books.tasks →
    ∃ request, (handle, request, result) ∈ books.finished
  answers : ∀ join ∈ books.ownJoins, ∃ request result,
    (join.1, request, result) ∈ books.finished ∧ join.2 = joinValue result
  refusals : ∀ join ∈ books.refusedJoins, join.2 = .error (.unknownHandle join.1)
  turns : books.deferred.Pairwise fun first second => first.toNat < second.toNat
  turned : ∀ handle ∈ books.deferred, handle.toNat < books.nextHandle
  least : ∀ handle ∈ books.deferred, ∀ entry ∈ queued books.tasks,
    handle.toNat < entry.1.toNat
  turning : ∀ handle ∈ books.turning, handle ∈ books.deferred
  unjoined : ∀ entry ∈ books.started,
    entry.1 ∈ books.deferred ∨ entry.1 ∈ books.running.map Prod.fst ∨
      entry.1 ∈ books.ownJoins.map Prod.fst

variable {books : Books} {handle : UInt64} {request : MainThreadRequest} {result : TargetResult}

/-! ## The table -/

variable {tasks : List (UInt64 × MainTask)} {task : MainTask}
  {rest : List (UInt64 × MainThreadRequest)}

theorem filter_of_absent (absent : handle ∉ tasks.map Prod.fst) :
    (tasks.filter fun entry => entry.1 ≠ handle) = tasks := by
  rw [List.filter_eq_self]
  intro entry listed
  rw [decide_eq_true_eq]
  rintro rfl
  exact absent (List.mem_map_of_mem listed)

theorem lookup_perm (nodup : (tasks.map Prod.fst).Nodup) (found : tasks.lookup handle = some task) :
    tasks.Perm ((handle, task) :: tasks.filter fun entry => entry.1 ≠ handle) := by
  induction tasks with
  | nil => cases found
  | cons entry tasks ih =>
    rcases entry with ⟨other, held⟩
    rw [List.map_cons, List.nodup_cons] at nodup
    rw [List.lookup_cons] at found
    split at found
    · rename_i same
      have equal : handle = other := by simpa using same
      subst equal
      cases found
      rw [List.filter_cons_of_neg (by simp), filter_of_absent nodup.1]
    · rename_i differs
      have apart : handle ≠ other := by simpa using differs
      rw [List.filter_cons_of_pos (by simp [Ne.symm apart])]
      exact ((ih nodup.2 found).cons _).trans (List.Perm.swap _ _ _)

theorem queued_perm {others : List (UInt64 × MainTask)} (same : tasks.Perm others) :
    (queued tasks).Perm (queued others) :=
  same.filterMap _

/-! ## Steps -/

/-- A post is put at the end of the queue. -/
theorem Accounts.post (accounts : Accounts books) (request : MainThreadRequest) :
    Accounts { books with
      posted := books.posted ++ [request], posts := books.posts ++ [request] } :=
  { accounts with
    posts := by
      change books.posted ++ [request] = books.startedPosts ++ (books.posts ++ [request])
      rw [accounts.posts, List.append_assoc] }

theorem Accounts.tasks_nodup (accounts : Accounts books) : (books.tasks.map Prod.fst).Nodup :=
  (List.nodup_append.mp accounts.once).1

theorem Accounts.fresh (accounts : Accounts books) (next : handle.toNat = books.nextHandle) :
    handle ∉ books.holders := by
  intro held
  have below := accounts.known handle held
  omega

theorem Accounts.spawn (accounts : Accounts books) (next : handle.toNat = books.nextHandle)
    (request : MainThreadRequest) :
    Accounts { books with
      nextHandle := books.nextHandle + 1
      spawned := books.spawned ++ [(handle, request)]
      tasks := (books.tasks.filter fun entry => entry.1 ≠ handle) ++
        [(handle, .queued request)] } := by
  have fresh := accounts.fresh next
  have absent : handle ∉ books.tasks.map Prod.fst := fun listed =>
    fresh (List.mem_append_left _ listed)
  rw [filter_of_absent absent]
  have moved : (Books.holders { books with
      nextHandle := books.nextHandle + 1
      spawned := books.spawned ++ [(handle, request)]
      tasks := books.tasks ++ [(handle, .queued request)] }).Perm (handle :: books.holders) := by
    simp only [Books.holders, List.map_append, List.map_cons, List.map_nil, List.append_assoc,
      List.singleton_append]
    exact List.perm_middle
  refine
    { accounts with
      counted := ?counted
      ordered := ?ordered
      below := ?below
      once := moved.nodup_iff.mpr (List.nodup_cons.mpr ⟨fresh, accounts.once⟩)
      known := ?known
      conserved := ?conserved
      results := ?results
      turned := ?turned
      least := ?least }
  case counted =>
    simp only [List.length_append, List.length_singleton]
    rw [accounts.counted]
  case ordered =>
    rw [List.pairwise_append]
    refine ⟨accounts.ordered, List.pairwise_singleton _ _, ?_⟩
    intro first listed second last
    rw [List.mem_singleton] at last
    rw [last, next]
    exact accounts.below first listed
  case below =>
    intro entry listed
    rcases List.mem_append.mp listed with earlier | last
    · have bound := accounts.below entry earlier
      exact Nat.lt_succ_of_lt bound
    · rw [List.mem_singleton] at last
      rw [last, next]
      exact Nat.lt_succ_self _
  case known =>
    intro other listed
    rcases List.mem_cons.mp (moved.mem_iff.mp listed) with same | earlier
    · rw [same, next]
      exact Nat.lt_succ_self _
    · exact Nat.lt_succ_of_lt (accounts.known other earlier)
  case conserved =>
    simp only [queued, List.filterMap_append, List.filterMap_cons, queuedEntry, List.filterMap_nil]
    rw [← List.append_assoc]
    exact accounts.conserved.append_right _
  case results =>
    intro other result listed
    rcases List.mem_append.mp listed with earlier | last
    · exact accounts.results other result earlier
    · simp at last
  case least =>
    intro turn listed entry waiting
    simp only [queued, List.filterMap_append, List.filterMap_cons, queuedEntry, List.filterMap_nil,
      List.mem_append, List.mem_singleton] at waiting
    rcases waiting with earlier | rfl
    · exact accounts.least turn listed entry earlier
    · rw [next]
      exact accounts.turned turn listed
  case turned =>
    intro turn listed
    exact Nat.lt_succ_of_lt (accounts.turned turn listed)

theorem Accounts.taken (accounts : Accounts books) (found : books.tasks.lookup handle = some task) :
    books.holders.Perm (handle :: ((books.tasks.filter fun entry => entry.1 ≠ handle).map Prod.fst ++
      (books.running.map Prod.fst ++ books.ownJoins.map Prod.fst))) :=
  ((lookup_perm accounts.tasks_nodup found).map Prod.fst).append_right _

theorem Accounts.taken_queued (accounts : Accounts books)
    (found : books.tasks.lookup handle = some task) :
    (queued books.tasks).Perm ((queuedEntry (handle, task)).toList ++
      queued (books.tasks.filter fun entry => entry.1 ≠ handle)) := by
  have moved := queued_perm (lookup_perm accounts.tasks_nodup found)
  cases task with
  | queued request => exact moved
  | finished result => exact moved

theorem Accounts.ends (accounts : Accounts books)
    (innermost : books.running = (handle, request) :: rest) (result : TargetResult) :
    books.started.Perm ((books.finished ++ [(handle, request, result)]).map taskOf ++ rest) := by
  have ended := accounts.ended
  rw [innermost] at ended
  rw [List.map_append, List.append_assoc]
  exact ended

theorem Accounts.takeResult (accounts : Accounts books)
    (found : books.tasks.lookup handle = some (.finished result)) :
    Accounts { books with
      tasks := books.tasks.filter fun entry => entry.1 ≠ handle
      ownJoins := books.ownJoins ++ [(handle, joinValue result)] } := by
  have moved : books.holders.Perm (Books.holders { books with
      tasks := books.tasks.filter fun entry => entry.1 ≠ handle
      ownJoins := books.ownJoins ++ [(handle, joinValue result)] }) := by
    apply (accounts.taken found).trans
    simp only [Books.holders, List.map_append, List.map_cons, List.map_nil, ← List.append_assoc]
    exact (List.perm_append_singleton handle _).symm
  have waiting := accounts.taken_queued found
  refine
    { accounts with
      once := moved.nodup_iff.mp accounts.once
      known := ?known
      conserved := accounts.conserved.trans (waiting.append_left _)
      results := ?results
      answers := ?answers
      least := ?least
      unjoined := ?unjoined }
  case known =>
    intro other listed
    exact accounts.known other (moved.mem_iff.mpr listed)
  case unjoined =>
    intro entry listed
    rcases accounts.unjoined entry listed with turned | runs | joined
    · exact .inl turned
    · exact .inr (.inl runs)
    · rw [List.map_append]
      exact .inr (.inr (List.mem_append_left _ joined))
  case results =>
    intro other earlier listed
    exact accounts.results other earlier (List.mem_filter.mp listed).1
  case answers =>
    intro join listed
    rcases List.mem_append.mp listed with earlier | last
    · exact accounts.answers join earlier
    · rw [List.mem_singleton.mp last]
      have held : (handle, MainTask.finished result) ∈ books.tasks :=
        (lookup_perm accounts.tasks_nodup found).mem_iff.mpr List.mem_cons_self
      rcases accounts.results handle result held with ⟨request, finished⟩
      exact ⟨request, result, finished, rfl⟩
  case least =>
    intro turn listed entry still
    exact accounts.least turn listed entry (waiting.mem_iff.mpr (List.mem_append_right _ still))

theorem Accounts.refuse (accounts : Accounts books) (handle : UInt64) :
    Accounts { books with
      refusedJoins := books.refusedJoins ++ [(handle, .error (.unknownHandle handle))] } := by
  refine { accounts with refusals := ?refusals }
  intro join listed
  rcases List.mem_append.mp listed with earlier | last
  · exact accounts.refusals join earlier
  · rw [List.mem_singleton.mp last]

/-! ## Logs -/

theorem Accounts.orderly {loop : MainLoop} (accounts : Accounts (MainLoop.books loop)) :
    Orderly loop.log := by
  refine ⟨?_, accounts.ordered, ?_, accounts.turns, ?_, accounts.answers, accounts.refusals⟩
  · exact ⟨loop.posts, accounts.posts.symm⟩
  · exact (List.sublist_append_left _ _).subperm.trans accounts.conserved.symm.subperm
  · exact (List.nodup_append.mp (List.nodup_append.mp accounts.once).2.1).2.1

theorem Accounts.complete {loop : MainLoop} (accounts : Accounts (MainLoop.books loop))
    (outside : loop.frames = []) (posts : loop.posts = []) (tasks : queued loop.tasks = []) :
    Complete loop.log := by
  have still : (MainLoop.books loop).running = [] := by
    simp [MainLoop.books, running, outside]
  have all : (startedTasks loop.log).Perm (spawned loop.log) := by
    have conserved := accounts.conserved
    simp only [MainLoop.books, tasks, List.append_nil] at conserved
    exact conserved.symm
  have accepted := accounts.posts
  simp only [MainLoop.books, posts, List.append_nil] at accepted
  have paired := accounts.paired
  simp only [MainLoop.books, posting, outside, List.filterMap_nil, List.append_nil] at paired
  refine ⟨accepted.symm, paired.symm.trans accepted.symm, all, ?_, ?_⟩
  · have ended := accounts.ended
    rw [still, List.append_nil] at ended
    exact ended.symm.trans all
  · intro entry listed apart
    rcases accounts.unjoined entry (all.mem_iff.mpr listed) with turned | runs | joined
    · exact turned
    · rw [still] at runs
      cases runs
    · exact absurd joined apart

end MainLoop

end KiraVm
