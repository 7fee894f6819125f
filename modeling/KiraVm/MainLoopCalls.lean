import KiraVm.MainLoop

/-!
# The calls of the event loop

What the log of a run says of the runner: every call has a number of its own, and what
is recorded as returned is an answer of the code that the runner gave for the call, by
answers to its operations that the log holds.
-/

namespace KiraVm

open StateLogic

/-- The code ends with an answer, by answers to its operations that the log holds. -/
def Script.Answers {α : Type} (log : List LoopEvent) : Script α → α → Prop
  | .done result, answer => answer = result
  | .request asked next, answer => ∃ response,
    LoopEvent.answered asked response ∈ log ∧ (next response).Answers log answer
  | .join handle next, answer => ∃ own value,
    LoopEvent.joined handle own value ∈ log ∧ (next value).Answers log answer

def LoopEvent.callNumber : LoopEvent → Option Nat
  | .called _ call _ => some call
  | _ => none

/-- An event of no call. -/
def LoopEvent.isPlain : LoopEvent → Bool
  | .called _ _ _ | .returned _ _ _ _ => false
  | _ => true

namespace MainLoop

/-- The calls that a log records are calls of the runner. -/
structure Genuine (runner : Runner) (log : List LoopEvent) : Prop where
  numbered : (log.filterMap LoopEvent.callNumber).Pairwise (· < ·)
  returns : ∀ caller call request result, .returned caller call request result ∈ log →
    .called caller call request ∈ log ∧ (runner.call call request).Answers log result

/-- The loop is inside these calls, and its log has grown from a past one. -/
structure Grown (runner : Runner) (frames : List LoopFrame) (past : List LoopEvent)
    (loop : MainLoop) : Prop where
  frames : loop.frames = frames
  past : past ⊆ loop.log
  numbers : ∀ number ∈ loop.log.filterMap LoopEvent.callNumber, number < loop.calls
  genuine : Genuine runner loop.log

def Recorded (runner : Runner) (_ : Halt) (loop : MainLoop) : Prop :=
  Genuine runner loop.log

variable {runner : Runner} {frames : List LoopFrame} {past log : List LoopEvent} {α : Type}
  {checks : Bool}

theorem answers_grow {later : List LoopEvent} (grown : log ⊆ later) {script : Script α} {answer : α}
    (answers : script.Answers log answer) : script.Answers later answer := by
  induction script with
  | done result => exact answers
  | request request next ih =>
    rcases answers with ⟨response, listed, rest⟩
    exact ⟨response, grown listed, ih response rest⟩
  | join handle next ih =>
    rcases answers with ⟨own, value, listed, rest⟩
    exact ⟨own, value, grown listed, ih value rest⟩

theorem Grown.before {loop : MainLoop} (grown : Grown runner frames log loop) (earlier : past ⊆ log) :
    Grown runner frames past loop :=
  ⟨grown.frames, List.Subset.trans earlier grown.past, grown.numbers, grown.genuine⟩

/-! ## The primitives -/

theorem Grown.plain {loop : MainLoop} {event : LoopEvent} (grown : Grown runner frames past loop)
    (plain : event.isPlain = true) :
    Grown runner frames past { loop with log := loop.log ++ [event] } := by
  have numberless : event.callNumber = none := by
    cases event with
    | called caller call request => cases plain
    | _ => rfl
  have same : (loop.log ++ [event]).filterMap LoopEvent.callNumber =
      loop.log.filterMap LoopEvent.callNumber := by
    rw [List.filterMap_append, List.filterMap_cons_none numberless, List.filterMap_nil,
      List.append_nil]
  have more : loop.log ⊆ loop.log ++ [event] := List.subset_append_left _ _
  refine ⟨grown.frames, List.Subset.trans grown.past more, ?_, ?_, ?_⟩
  · rw [same]
    exact grown.numbers
  · rw [same]
    exact grown.genuine.numbered
  · intro caller call request result listed
    rcases List.mem_append.mp listed with earlier | last
    · rcases grown.genuine.returns _ _ _ _ earlier with ⟨called, answers⟩
      exact ⟨more called, answers_grow more answers⟩
    · rw [← List.mem_singleton.mp last] at plain
      cases plain

theorem modify_grown {change : MainLoop → MainLoop}
    (frames' : ∀ loop, (change loop).frames = loop.frames)
    (logs : ∀ loop, (change loop).log = loop.log) (calls : ∀ loop, (change loop).calls = loop.calls) :
    Safe (Grown runner frames past) (Recorded runner) (modify change : OnLoop Unit) := by
  apply Safe.modify
  intro loop grown
  refine ⟨(frames' loop).trans grown.frames, ?_, ?_, ?_⟩
  · rw [logs]
    exact grown.past
  · rw [logs, calls]
    exact grown.numbers
  · rw [logs]
    exact grown.genuine

instance nextCall_grown : Safe (Grown runner frames past) (Recorded runner) nextCall := by
  apply Safe.of_get
  intro loop grown
  exact ⟨grown.frames, grown.past, fun number listed => Nat.lt_succ_of_lt (grown.numbers number listed),
    grown.genuine⟩

instance deferError_grown (result : Except MainThreadError α) :
    Safe (Grown runner frames past) (Recorded runner) (deferError result) := by
  cases result with
  | ok answer => exact Safe.pure ()
  | error error => exact modify_grown (fun _ => rfl) (fun _ => rfl) fun _ => rfl

instance insertTask_grown (handle : UInt64) (task : MainTask) :
    Safe (Grown runner frames past) (Recorded runner) (insertTask handle task) :=
  modify_grown (fun _ => rfl) (fun _ => rfl) fun _ => rfl

instance setBorrowed_grown (cell : Cell) (held : Bool) :
    Safe (Grown runner frames past) (Recorded runner) (setBorrowed cell held) :=
  modify_grown (fun _ => rfl) (fun _ => rfl) fun _ => rfl

instance allocateHandle_grown : Safe (Grown runner frames past) (Recorded runner) allocateHandle :=
  Safe.of_get fun _ grown => ⟨grown.frames, grown.past, grown.numbers, grown.genuine⟩

theorem outOfFuel_grown :
    Safe (Grown runner frames past) (Recorded runner) (throw .outOfFuel : OnLoop α) :=
  Safe.throw fun _ grown => grown.genuine

variable {execute : MainThreadRequest → OnLoop TargetResult}

variable (runner : Runner) (depth : Nat)

end MainLoop

end KiraVm
