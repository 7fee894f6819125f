import KiraVm.MainLoop

/-!
# When the event loop panics

A cell of the loop is held by exactly the calls the loop is in the middle of: a
deferred post holds the posts, a join holds the tasks, and a slice of a lifecycle
holds the fibers.  So a run panics when, and only when, something inside such a
call asks for an operation that takes the same cell.
-/

namespace KiraVm

open StateLogic

/-- The cell an operation takes. -/
def Attempt.cell : Attempt → Cell
  | .post => .posts
  | .spawn | .join => .tasks
  | .lifecycle => .fibers

/-- The cell a call holds while something else runs. -/
def LoopFrame.cell : LoopFrame → Option Cell
  | .deferredPost _ => some .posts
  | .joinedTask _ _ => some .tasks
  | .slice => some .fibers
  | .invoked | .deferredTask _ _ => none

/-- An operation inside a call that holds its cell. -/
def LoopEvent.conflicts : LoopEvent → Bool
  | .attempted attempt frames => frames.any fun frame => frame.cell = some attempt.cell
  | _ => false

namespace MainLoop

def heldBy (frames : List LoopFrame) (cell : Cell) : Bool :=
  frames.any fun frame => frame.cell = some cell

/-- The loop is inside these calls, with these cells held, and has asked for
nothing it holds. -/
structure Inside (held : Cell → Bool) (frames : List LoopFrame) (loop : MainLoop) : Prop where
  frames : loop.frames = frames
  borrowed : loop.borrowed = held
  clean : ∀ event ∈ loop.log, event.conflicts = false

/-- A panic was asked for, and a run that is merely cut off was not. -/
def Asked (fault : Halt) (loop : MainLoop) : Prop :=
  match fault with
  | .panic => ∃ event ∈ loop.log, event.conflicts = true
  | .outOfFuel => ∀ event ∈ loop.log, event.conflicts = false

variable {held : Cell → Bool} {frames : List LoopFrame} {α β : Type}

/-! ## The primitives -/

theorem log_safe {event : MainLoop → LoopEvent} (quiet : ∀ loop, (event loop).conflicts = false) :
    Safe (Inside held frames) Asked
      (modify fun loop => { loop with log := loop.log ++ [event loop] } : OnLoop Unit) := by
  apply Safe.modify
  intro loop inside
  refine ⟨inside.frames, inside.borrowed, ?_⟩
  intro other listed
  rcases List.mem_append.mp listed with earlier | last
  · exact inside.clean other earlier
  · rw [List.mem_singleton] at last
    rw [last]
    exact quiet loop

theorem record_safe {event : LoopEvent} (quiet : event.conflicts = false) :
    Safe (Inside held frames) Asked (record event) :=
  log_safe fun _ => quiet

instance nextCall_safe : Safe (Inside held frames) Asked nextCall := by
  apply Safe.of_get
  intro loop inside
  exact ⟨inside.frames, inside.borrowed, inside.clean⟩

instance recordCall_safe (request : MainThreadRequest) :
    Safe (Inside held frames) Asked (recordCall request) :=
  Safe.of_bind inferInstance fun _ => Safe.of_bind (log_safe fun _ => rfl) fun _ => Safe.pure _

instance recordReturn_safe (call : Nat) (request : MainThreadRequest) (result : TargetResult) :
    Safe (Inside held frames) Asked (recordReturn call request result) :=
  log_safe fun _ => rfl

instance deferError_safe (result : Except MainThreadError α) :
    Safe (Inside held frames) Asked (deferError result) := by
  cases result with
  | ok answer => exact Safe.pure ()
  | error error =>
    apply Safe.modify
    intro loop inside
    exact ⟨inside.frames, inside.borrowed, inside.clean⟩

instance insertTask_safe (handle : UInt64) (task : MainTask) :
    Safe (Inside held frames) Asked (insertTask handle task) := by
  apply Safe.modify
  intro loop inside
  exact ⟨inside.frames, inside.borrowed, inside.clean⟩

instance removeTask_safe (handle : UInt64) :
    Safe (Inside held frames) Asked (removeTask handle) := by
  apply Safe.of_get
  intro loop inside
  exact ⟨inside.frames, inside.borrowed, inside.clean⟩

instance allocateHandle_safe : Safe (Inside held frames) Asked allocateHandle := by
  apply Safe.of_get
  intro loop inside
  exact ⟨inside.frames, inside.borrowed, inside.clean⟩

theorem outOfFuel_safe : Safe (Inside held frames) Asked (throw .outOfFuel : OnLoop α) :=
  Safe.throw fun _ inside => inside.clean

variable {cell : Cell} {body : OnLoop α}

theorem borrow_safe {checks : Bool} (free : held cell = false) :
    Safe (Inside held frames) Asked (borrow checks cell) := by
  apply Safe.of_get
  intro loop inside
  rw [inside.borrowed, free, Bool.and_false]
  exact inside

def holdingAlso (held : Cell → Bool) (cell other : Cell) : Bool :=
  if other = cell then true else held other

theorem holding_safe (free : held cell = false)
    (safe : Safe (Inside (holdingAlso held cell) frames) Asked body) :
    Safe (Inside held frames) Asked (holding cell body) := by
  have taken : Meets (Inside held frames) (setBorrowed cell true)
      (fun _ => Inside (holdingAlso held cell) frames) Asked := by
    intro loop inside
    refine ⟨inside.frames, ?_, inside.clean⟩
    funext other
    simp [holdingAlso, inside.borrowed]
  have given : ∀ answer : α, Meets (Inside (holdingAlso held cell) frames)
      (do setBorrowed cell false; pure answer) (fun _ => Inside held frames) Asked := by
    intro answer loop inside
    refine ⟨inside.frames, ?_, inside.clean⟩
    funext other
    by_cases same : other = cell
    · subst same
      simp [free]
    · simp [same, holdingAlso, inside.borrowed]
  exact ⟨taken.bind fun _ => safe.meets.bind given⟩

theorem inFrame_safe {frame : LoopFrame} (safe : Safe (Inside held (frame :: frames)) Asked body) :
    Safe (Inside held frames) Asked (inFrame frame body) := by
  have pushed : Meets (Inside held frames) (pushFrame frame)
      (fun _ => Inside held (frame :: frames)) Asked := by
    intro loop inside
    refine ⟨?_, inside.borrowed, inside.clean⟩
    rw [← inside.frames]
  have popped : ∀ answer : α, Meets (Inside held (frame :: frames))
      (do popFrame; pure answer) (fun _ => Inside held frames) Asked := by
    intro answer loop inside
    refine ⟨?_, inside.borrowed, inside.clean⟩
    change loop.frames.tail = frames
    rw [inside.frames]
    rfl
  exact ⟨pushed.bind fun _ => safe.meets.bind popped⟩

theorem heldBy_cons (frame : LoopFrame) (frames : List LoopFrame) (holds : frame.cell = some cell) :
    heldBy (frame :: frames) = holdingAlso (heldBy frames) cell := by
  funext other
  unfold heldBy holdingAlso
  rw [List.any_cons, holds]
  by_cases same : other = cell
  · simp [same]
  · simp [same, Ne.symm same]

theorem heldBy_cons_none {frame : LoopFrame} (frames : List LoopFrame)
    (holds : frame.cell = none) : heldBy (frame :: frames) = heldBy frames := by
  funext other
  simp [heldBy, holds]

theorem holding_inFrame_safe (frame : LoopFrame) (holds : frame.cell = some cell)
    (free : heldBy frames cell = false)
    (safe : Safe (Inside (heldBy (frame :: frames)) (frame :: frames)) Asked body) :
    Safe (Inside (heldBy frames) frames) Asked (holding cell (inFrame frame body)) := by
  apply holding_safe free
  rw [← heldBy_cons frame frames holds]
  exact inFrame_safe safe

theorem inFrame_quiet_safe (frame : LoopFrame) (holds : frame.cell = none)
    (safe : Safe (Inside (heldBy (frame :: frames)) (frame :: frames)) Asked body) :
    Safe (Inside (heldBy frames) frames) Asked (inFrame frame body) := by
  apply inFrame_safe
  rw [← heldBy_cons_none frames holds]
  exact safe

theorem attempt_safe (operation : Attempt) {rest : OnLoop α}
    (passes : heldBy frames operation.cell = false →
      Safe (Inside (heldBy frames) frames) Asked rest) :
    Safe (Inside (heldBy frames) frames) Asked
      (do attempt operation; borrow true operation.cell; rest) := by
  constructor
  intro loop inside
  have logged : LoopEvent.conflicts (.attempted operation loop.frames) =
      heldBy frames operation.cell := by
    rw [inside.frames]
    rfl
  have ran : attempt operation loop =
      .ok () { loop with log := loop.log ++ [.attempted operation loop.frames] } := rfl
  rw [bind_run_ok ran]
  cases conflict : heldBy frames operation.cell with
  | true =>
    have panics : borrow true operation.cell
        { loop with log := loop.log ++ [.attempted operation loop.frames] } =
        .error .panic { loop with log := loop.log ++ [.attempted operation loop.frames] } := by
      simp only [borrow, bind, EStateM.bind, get_run, inside.borrowed, conflict, Bool.and_self,
        if_true, throw_run]
    rw [bind_run_error panics]
    exact ⟨_, List.mem_append_right _ (List.mem_singleton_self _), logged.trans conflict⟩
  | false =>
    have taken : borrow true operation.cell
        { loop with log := loop.log ++ [.attempted operation loop.frames] } =
        .ok () { loop with log := loop.log ++ [.attempted operation loop.frames] } := by
      simp only [borrow, bind, EStateM.bind, get_run, inside.borrowed, conflict, Bool.and_false,
        Bool.false_eq_true, if_false, pure_run]
    rw [bind_run_ok taken]
    apply (passes conflict).meets
    refine ⟨inside.frames, inside.borrowed, ?_⟩
    intro event listed
    rcases List.mem_append.mp listed with earlier | last
    · exact inside.clean event earlier
    · rw [List.mem_singleton] at last
      rw [last, logged, conflict]

/-! ## Requests -/

def Executes (execute : MainThreadRequest → OnLoop TargetResult) : Prop :=
  ∀ frames request, Safe (Inside (heldBy frames) frames) Asked (execute request)

variable {execute : MainThreadRequest → OnLoop TargetResult} {runner : Runner}

theorem responseTo_safe (executes : Executes execute) (request : MainThreadRequest) :
    Safe (Inside (heldBy frames) frames) Asked (responseTo true runner execute request) := by
  unfold responseTo
  cases request.operation with
  | invoke =>
    dsimp only
    have body := inFrame_quiet_safe .invoked rfl (executes (.invoked :: frames) request)
    exact Safe.of_bind body fun _ => Safe.pure _
  | spawn =>
    apply Safe.of_bind inferInstance
    intro handle
    apply attempt_safe .spawn
    intro _
    infer_instance
  | post =>
    apply attempt_safe .post
    intro _
    apply Safe.of_bind
    · apply Safe.modify
      intro loop inside
      exact ⟨inside.frames, inside.borrowed, inside.clean⟩
    · intro _
      exact Safe.pure _
  | lifecycleStart =>
    apply Safe.of_bind inferInstance
    intro call
    have quiet : ∀ (change : MainLoop → MainLoop) (answer : Except MainThreadError
        MainThreadResponse), (∀ loop, (change loop).frames = loop.frames) →
        (∀ loop, (change loop).borrowed = loop.borrowed) →
        (∀ loop, (change loop).log = loop.log) →
        Safe (Inside (heldBy frames) frames) Asked (do modify change; pure answer) := by
      intro change answer sameFrames sameBorrowed sameLog
      apply Safe.of_bind
      · apply Safe.modify
        intro loop inside
        refine ⟨?_, ?_, ?_⟩
        · rw [sameFrames, inside.frames]
        · rw [sameBorrowed, inside.borrowed]
        · rw [sameLog]
          exact inside.clean
      · intro _
        exact Safe.pure _
    split
    · exact Safe.pure _
    · exact quiet _ _ (fun _ => rfl) (fun _ => rfl) fun _ => rfl
    · split
      · apply attempt_safe .lifecycle
        intro _
        exact quiet _ _ (fun _ => rfl) (fun _ => rfl) fun _ => rfl
      · exact Safe.pure _

theorem requestResponse_safe (executes : Executes execute) (request : MainThreadRequest) :
    Safe (Inside (heldBy frames) frames) Asked (requestResponse true runner execute request) :=
  Safe.of_bind (responseTo_safe executes request) fun _ =>
    Safe.of_bind (record_safe rfl) fun _ => Safe.pure _

theorem join_safe (executes : Executes execute) (handle : UInt64) :
    Safe (Inside (heldBy frames) frames) Asked (join true execute handle) := by
  apply attempt_safe .join
  intro free
  apply Safe.of_bind inferInstance
  intro found
  apply Safe.of_bind (holding_safe free ?_)
  · intro result
    exact Safe.of_bind (record_safe rfl) fun _ => Safe.pure _
  · split
    · rename_i request
      apply inFrame_safe
      change Safe (Inside (holdingAlso (heldBy frames) .tasks) _) Asked _
      rw [← heldBy_cons (.joinedTask handle request) frames rfl]
      exact executes _ request
    · exact Safe.pure _
    · exact Safe.pure _

theorem execScript_safe (executes : Executes execute) (script : Script α) :
    Safe (Inside (heldBy frames) frames) Asked (execScript true runner execute script) := by
  induction script with
  | done result => exact Safe.pure _
  | request request next ih => exact Safe.of_bind (requestResponse_safe executes request) ih
  | join handle next ih => exact Safe.of_bind (join_safe executes handle) ih

theorem executeRequest_safe (runner : Runner) (depth : Nat) :
    Executes (executeRequest true runner depth) := by
  induction depth with
  | zero =>
    intro frames request
    exact Safe.of_bind inferInstance fun _ => outOfFuel_safe
  | succ depth ih =>
    intro frames request
    apply Safe.of_bind inferInstance
    intro call
    exact Safe.of_bind (execScript_safe ih _) fun _ => inferInstance

/-! ## The loop -/

variable (runner : Runner) (depth : Nat)

abbrev Outside : MainLoop → Prop :=
  Inside (heldBy []) []

theorem sliceFiber_safe (index : Nat) :
    Safe (Inside (holdingAlso (heldBy []) .fibers) []) Asked (sliceFiber true runner depth index) := by
  apply Safe.of_bind inferInstance
  intro loop
  split
  · exact Safe.pure _
  · split
    · exact Safe.pure _
    · rename_i fiber _ _
      apply Safe.of_bind inferInstance
      intro call
      have sliced : Safe (Inside (holdingAlso (heldBy []) .fibers) [.slice]) Asked
          (execScript true runner (executeRequest true runner depth)
            (runner.slice call fiber.function)) := by
        rw [← heldBy_cons .slice [] rfl]
        exact execScript_safe (executeRequest_safe runner depth) _
      apply Safe.of_bind (inFrame_safe sliced)
      intro result
      apply Safe.of_bind
      · apply Safe.modify
        intro loop inside
        exact ⟨inside.frames, inside.borrowed, inside.clean⟩
      · intro _
        infer_instance

theorem sliceFibers_safe (indices : List Nat) :
    Safe (Inside (holdingAlso (heldBy []) .fibers) []) Asked
      (sliceFibers true runner depth indices) := by
  induction indices with
  | nil => exact Safe.pure ()
  | cons index indices ih =>
    exact Safe.of_bind (sliceFiber_safe runner depth index) fun _ => ih

theorem pumpLifecycles_safe : Safe Outside Asked (pumpLifecycles true runner depth) := by
  apply Safe.of_bind (borrow_safe rfl)
  intro _
  apply Safe.of_bind inferInstance
  intro loop
  apply Safe.of_bind (holding_safe rfl (sliceFibers_safe runner depth _))
  intro _
  apply Safe.of_bind inferInstance
  intro call
  have quiet : ∀ active, Safe Outside Asked
      (modify fun loop => { loop with externalLifecycles := active } : OnLoop Unit) := by
    intro active
    apply Safe.modify
    intro loop inside
    exact ⟨inside.frames, inside.borrowed, inside.clean⟩
  split
  · exact quiet _
  · exact Safe.of_bind (quiet false) fun _ => inferInstance

theorem lifecyclesFinished_safe : Safe Outside Asked (lifecyclesFinished true) := by
  apply Safe.of_bind (borrow_safe rfl)
  intro _
  infer_instance

theorem serviceOneDeferred_safe : Safe Outside Asked (serviceOneDeferred true runner depth) := by
  apply Safe.of_bind (borrow_safe rfl)
  intro _
  apply Safe.of_state
  intro loop inside
  split
  · apply Safe.of_bind (Safe.set ⟨inside.frames, inside.borrowed, inside.clean⟩)
    intro _
    apply Safe.of_bind (holding_inFrame_safe (.deferredPost _) rfl rfl
      (executeRequest_safe runner depth _ _))
    intro result
    infer_instance
  · apply Safe.of_bind (borrow_safe rfl)
    intro _
    apply Safe.of_bind inferInstance
    intro loop
    split
    · exact Safe.pure _
    · apply Safe.of_bind (borrow_safe rfl)
      intro _
      apply Safe.of_bind inferInstance
      intro found
      split
      · apply Safe.of_bind (inFrame_quiet_safe _ rfl _)
        · intro _
          exact Safe.pure _
        · apply Safe.of_bind (executeRequest_safe runner depth _ _)
          intro result
          apply Safe.of_bind inferInstance
          intro _
          exact Safe.of_bind (borrow_safe rfl) fun _ => inferInstance
      · exact Safe.pure _

theorem service_safe (job : Job) : Safe Outside Asked (service true runner depth job) := by
  cases job with
  | request request =>
    exact Safe.of_bind (requestResponse_safe (executeRequest_safe runner depth) request)
      fun _ => Safe.pure _
  | join handle =>
    exact Safe.of_bind (join_safe (executeRequest_safe runner depth) handle) fun _ => Safe.pure _
  | finished => exact Safe.pure _

theorem turning_safe : Turning true runner depth Outside Asked where
  pumped := pumpLifecycles_safe runner depth
  deferred := serviceOneDeferred_safe runner depth
  looked := lifecyclesFinished_safe
  served := service_safe runner depth
  taken inside _ := ⟨inside.frames, inside.borrowed, inside.clean⟩
  spent inside := inside.clean

/-! ## Panics -/

/-- Code that asks for one operation: as the target of function 0, as a slice of a
lifecycle, and in a task that function 1 spawns and joins. -/
def nesting (inner : MainThreadRequest) : Runner where
  call := fun _ request =>
    if request.function = 0 then .request inner fun _ => .done (.ok none)
    else if request.function = 1 then
      .request ⟨.spawn, 0, []⟩ fun answer =>
        match answer with
        | .ok (.spawned handle) => .join handle fun _ => .done (.ok none)
        | _ => .done (.ok none)
    else .done (.ok none)
  startLifecycle := fun _ _ => .ok false
  pumpLifecycles := fun _ => .ok false
  slice := fun _ _ => .request inner fun _ => .done (.ok true)
  lifecycles := [0]

/-- A post asked for by a post, a spawn asked for by a task that a join runs, and a
lifecycle asked for by a slice of one: each panics. -/
theorem nested_operations_panic :
    panicked (run true (nesting ⟨.post, 2, []⟩) 4 4
      (new [some (.request ⟨.post, 0, []⟩), some .finished])) = true ∧
    panicked (run true (nesting ⟨.spawn, 2, []⟩) 4 4
      (new [some (.request ⟨.invoke, 1, []⟩), some .finished])) = true ∧
    panicked (run true (nesting ⟨.lifecycleStart, 0, []⟩) 4 4
      (new [some (.request ⟨.lifecycleStart, 0, []⟩), some .finished])) = true := by
  refine ⟨?_, ?_, ?_⟩
  · decide
  · decide +kernel
  · decide

/-- In every run of the loop, whatever the targets, tasks and lifecycles do and in
whatever order the helper's messages arrive, the loop panics exactly when an
operation is asked for inside a call that holds its cell: a post inside a deferred
post, a spawn or a join inside a task that a join runs, or a lifecycle of the
module inside a slice of one. -/
theorem main_loop_panics_iff (runner : Runner) (jobs : List (Option Job)) (depth fuel : Nat) :
    panicked (run true runner depth fuel (new jobs)) = true ↔
      ∃ event ∈ (endState (run true runner depth fuel (new jobs))).log, event.conflicts = true := by
  have started : Outside (new jobs) := by
    refine ⟨rfl, rfl, ?_⟩
    intro event listed
    cases listed
  have ended := ((turning_safe runner depth).run fuel).meets (new jobs) started
  cases ran : run true runner depth fuel (new jobs) with
  | ok answer loop =>
    rw [ran] at ended
    constructor
    · intro panics
      cases panics
    · rintro ⟨event, listed, conflict⟩
      rw [ended.clean event listed] at conflict
      cases conflict
  | error fault loop =>
    rw [ran] at ended
    cases fault with
    | panic =>
      constructor
      · intro _
        exact ended
      · intro _
        rfl
    | outOfFuel =>
      constructor
      · intro panics
        cases panics
      · rintro ⟨event, listed, conflict⟩
        rw [ended event listed] at conflict
        cases conflict

end MainLoop

end KiraVm
