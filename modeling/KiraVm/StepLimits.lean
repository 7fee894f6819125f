import Mathlib.Order.Filter.AtTopBot.Basic

/-!
# Answers that stay when more steps are allowed

A recursive program is run with a number of steps: `run steps` is what its calls go to
when so many are left.  An answer settles when every large enough number of steps gives
it.
-/

namespace StepLimits

open Filter

variable {D α : Type*} {run : ℕ → D}

/-- The call answers so, whatever the number of steps from some number on. -/
def Settles (run : ℕ → D) (call : D → Option α) (answer : α) : Prop :=
  ∀ᶠ steps in atTop, call (run steps) = some answer

namespace Settles

variable {call : D → Option α} {answer : α} {entry : D → Option α}

theorem of_forall (always : ∀ deeper, call deeper = some answer) : Settles run call answer :=
  Eventually.of_forall fun steps => always (run steps)

theorem next (settles : Settles run call answer)
    (unfolds : ∀ steps, entry (run (steps + 1)) = call (run steps)) : Settles run entry answer := by
  rcases eventually_atTop.mp settles with ⟨enough, gives⟩
  apply eventually_atTop.mpr
  use enough + 1
  intro steps large
  cases steps with
  | zero => omega
  | succ steps =>
    rw [unfolds]
    exact gives steps (Nat.le_of_succ_le_succ large)

theorem before (settles : Settles run entry answer)
    (unfolds : ∀ steps, entry (run (steps + 1)) = call (run steps)) : Settles run call answer := by
  rcases eventually_atTop.mp settles with ⟨enough, gives⟩
  apply eventually_atTop.mpr
  use enough
  intro steps large
  rw [← unfolds]
  exact gives (steps + 1) (Nat.le_succ_of_le large)

theorem unique {other : α} (settles : Settles run call answer)
    (otherwise : Settles run call other) : answer = other := by
  rcases (settles.and otherwise).exists with ⟨steps, one, another⟩
  exact Option.some.inj (one.symm.trans another)

/-- What answers without going deeper settles. -/
theorem at_once (unfolds : ∀ steps, entry (run (steps + 1)) = some answer) :
    Settles run entry answer := by
  apply eventually_atTop.mpr
  use 1
  intro steps large
  cases steps with
  | zero => omega
  | succ steps => exact unfolds steps

theorem map {β : Type*} (settles : Settles run call answer) (view : α → β) :
    Settles run (fun deeper => (call deeper).map view) (view answer) := by
  apply Eventually.mono settles
  intro steps gives
  change (call (run steps)).map view = some (view answer)
  rw [gives]
  rfl

theorem bind {β : Type*} {call : D → Option α} {answer : α} (settles : Settles run call answer)
    {next : α → D → Option β} {result : β} (goesOn : Settles run (next answer) result) :
    Settles run (fun deeper => (call deeper).bind fun value => next value deeper) result := by
  apply Eventually.mono (settles.and goesOn)
  intro steps gives
  change (call (run steps)).bind (fun value => next value (run steps)) = some result
  rw [gives.1]
  exact gives.2

theorem exists_map {β : Type*} {view : α → β} (settles : ∃ answer, Settles run call answer) :
    ∃ result, Settles run (fun deeper => (call deeper).map view) result := by
  rcases settles with ⟨answer, settles⟩
  exact ⟨_, settles.map view⟩

theorem exists_bind {β : Type*} {next : α → D → Option β}
    (settles : ∃ answer, Settles run call answer)
    (goesOn : ∀ answer, ∃ result, Settles run (next answer) result) :
    ∃ result, Settles run (fun deeper => (call deeper).bind fun value => next value deeper)
      result := by
  rcases settles with ⟨answer, settles⟩
  rcases goesOn answer with ⟨result, rest⟩
  exact ⟨result, settles.bind rest⟩

theorem exists_const (answer : α) : ∃ result, Settles run (fun _ => some answer) result :=
  ⟨answer, of_forall fun _ => rfl⟩

theorem mapM {β : Type*} {call : β → D → Option α} {items : List β}
    (each : ∀ item ∈ items, ∃ answer, Settles run (call item) answer) :
    ∃ answers, Settles run (fun deeper => items.mapM fun item => call item deeper) answers := by
  induction items with
  | nil => exact ⟨[], of_forall fun _ => rfl⟩
  | cons item items ih =>
    rcases each item List.mem_cons_self with ⟨answer, settles⟩
    rcases ih fun other otherIn => each other (List.mem_cons_of_mem item otherIn) with
      ⟨answers, rest⟩
    use answer :: answers
    apply Eventually.mono (settles.and rest)
    intro steps gives
    have first := gives.1
    have others := gives.2
    simp only [List.mapM_cons, first, others]
    rfl

end Settles

end StepLimits
