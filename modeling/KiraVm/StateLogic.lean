import Mathlib.Tactic.Basic

/-!
# Reasoning about operations that may fail

An operation of the state-and-exception monad keeps the state it failed in.  Its
specification says what holds after an answer and what holds after a failure.
An operation is safe for an invariant when an answer keeps the invariant and a
failure is a tolerable one; safety is a class, so that it is found along the
shape of an operation.
-/

namespace StateLogic

variable {ε σ α β : Type}

/-! ## Running operations -/

theorem pure_run (answer : α) (state : σ) :
    (Pure.pure answer : EStateM ε σ α) state = .ok answer state :=
  rfl

theorem throw_run (fault : ε) (state : σ) :
    (MonadExcept.throw fault : EStateM ε σ α) state = .error fault state :=
  rfl

theorem get_run (state : σ) : (MonadState.get : EStateM ε σ σ) state = .ok state state :=
  rfl

theorem set_run (next state : σ) :
    (MonadStateOf.set next : EStateM ε σ PUnit) state = .ok ⟨⟩ next :=
  rfl

theorem modify_run (change : σ → σ) (state : σ) :
    (modify change : EStateM ε σ PUnit) state = .ok ⟨⟩ (change state) :=
  rfl

theorem bind_run_ok {operation : EStateM ε σ α} {next : α → EStateM ε σ β} {state after : σ}
    {answer : α} (ran : operation state = .ok answer after) :
    (operation >>= next) state = next answer after := by
  simp only [Bind.bind, EStateM.bind, ran]

theorem bind_run_error {operation : EStateM ε σ α} {next : α → EStateM ε σ β} {state after : σ}
    {fault : ε} (ran : operation state = .error fault after) :
    (operation >>= next) state = .error fault after := by
  simp only [Bind.bind, EStateM.bind, ran]

/-! ## Specifications -/

def Ends (post : α → σ → Prop) (fail : ε → σ → Prop) : EStateM.Result ε σ α → Prop
  | .ok answer after => post answer after
  | .error fault after => fail fault after

theorem Ends.bind {operation : EStateM ε σ α} {next : α → EStateM ε σ β} {state : σ}
    {middle : α → σ → Prop} {post : β → σ → Prop} {fail : ε → σ → Prop}
    (first : Ends middle fail (operation state))
    (rest : ∀ answer after, middle answer after → Ends post fail (next answer after)) :
    Ends post fail ((operation >>= next) state) := by
  simp only [Bind.bind, EStateM.bind]
  cases ran : operation state with
  | ok answer after =>
    rw [ran] at first
    exact rest answer after first
  | error fault after =>
    rw [ran] at first
    exact first

theorem Ends.weaken {result : EStateM.Result ε σ α} {post post' : α → σ → Prop}
    {fail fail' : ε → σ → Prop} (ends : Ends post fail result)
    (answers : ∀ answer state, post answer state → post' answer state)
    (failures : ∀ fault state, fail fault state → fail' fault state) : Ends post' fail' result := by
  cases result with
  | ok answer after => exact answers answer after ends
  | error fault after => exact failures fault after ends

def Meets (pre : σ → Prop) (operation : EStateM ε σ α) (post : α → σ → Prop)
    (fail : ε → σ → Prop) : Prop :=
  ∀ state, pre state → Ends post fail (operation state)

namespace Meets

variable {pre pre' : σ → Prop} {post post' : α → σ → Prop} {fail fail' : ε → σ → Prop}

theorem pure {answer : α} (holds : ∀ state, pre state → post answer state) :
    Meets pre (Pure.pure answer) post fail :=
  holds

theorem bind {operation : EStateM ε σ α} {next : α → EStateM ε σ β} {middle : α → σ → Prop}
    {last : β → σ → Prop} (first : Meets pre operation middle fail)
    (rest : ∀ answer, Meets (middle answer) (next answer) last fail) :
    Meets pre (operation >>= next) last fail := by
  intro state holds
  apply Ends.bind (first state holds)
  intro answer after reached
  exact rest answer after reached

variable {operation : EStateM ε σ α}

theorem weaken (spec : Meets pre operation post fail) (before : ∀ state, pre' state → pre state)
    (answers : ∀ answer state, post answer state → post' answer state)
    (failures : ∀ fault state, fail fault state → fail' fault state) :
    Meets pre' operation post' fail' := by
  intro state holds
  exact (spec state (before state holds)).weaken answers failures

/-- Two specifications of one operation hold together. -/
theorem both (first : Meets pre operation post fail) (second : Meets pre' operation post' fail') :
    Meets (fun state => pre state ∧ pre' state) operation
      (fun answer state => post answer state ∧ post' answer state)
      (fun fault state => fail fault state ∧ fail' fault state) := by
  rintro state ⟨holds, holds'⟩
  have reached := first state holds
  have reached' := second state holds'
  cases ran : operation state with
  | ok answer after =>
    rw [ran] at reached reached'
    exact ⟨reached, reached'⟩
  | error fault after =>
    rw [ran] at reached reached'
    exact ⟨reached, reached'⟩

/-- Read the state, and use what is known about it. -/
theorem of_get {next : σ → EStateM ε σ α}
    (rest : ∀ state, pre state → Ends post fail (next state state)) :
    Meets pre (MonadState.get >>= next) post fail :=
  rest

theorem of_known {known : Prop} (spec : known → Meets pre operation post fail) :
    Meets (fun state => known ∧ pre state) operation post fail :=
  fun state holds => spec holds.1 state holds.2

end Meets

/-! ## Invariants -/

/-- The operation keeps the invariant, or fails as it may. -/
class Safe (invariant : σ → Prop) (fail : ε → σ → Prop) (operation : EStateM ε σ α) : Prop where
  meets : Meets invariant operation (fun _ => invariant) fail

namespace Safe

variable {invariant : σ → Prop} {fail : ε → σ → Prop}

instance pure (answer : α) : Safe invariant fail (Pure.pure answer : EStateM ε σ α) :=
  ⟨fun _ holds => holds⟩

theorem of_bind {operation : EStateM ε σ α} {next : α → EStateM ε σ β}
    (first : Safe invariant fail operation) (rest : ∀ answer, Safe invariant fail (next answer)) :
    Safe invariant fail (operation >>= next) :=
  ⟨Meets.bind first.meets fun answer => (rest answer).meets⟩

instance bind {operation : EStateM ε σ α} {next : α → EStateM ε σ β}
    [first : Safe invariant fail operation] [rest : ∀ answer, Safe invariant fail (next answer)] :
    Safe invariant fail (operation >>= next) :=
  of_bind first rest

instance map {operation : EStateM ε σ α} {answer : α → β}
    [first : Safe invariant fail operation] : Safe invariant fail (answer <$> operation) :=
  show Safe invariant fail (operation >>= fun value => Pure.pure (answer value)) from inferInstance

instance ite {condition : Prop} [Decidable condition] {yes no : EStateM ε σ α}
    [first : Safe invariant fail yes] [second : Safe invariant fail no] :
    Safe invariant fail (if condition then yes else no) := by
  split
  · exact first
  · exact second

instance get : Safe invariant fail (MonadState.get : EStateM ε σ σ) :=
  ⟨fun _ holds => holds⟩

theorem throw {fault : ε} (may : ∀ state, invariant state → fail fault state) :
    Safe invariant fail (MonadExcept.throw fault : EStateM ε σ α) :=
  ⟨may⟩

theorem modify {change : σ → σ} (kept : ∀ state, invariant state → invariant (change state)) :
    Safe invariant fail (modify change : EStateM ε σ Unit) :=
  ⟨kept⟩

theorem set {state : σ} (holds : invariant state) :
    Safe invariant fail (MonadStateOf.set state : EStateM ε σ PUnit) :=
  ⟨fun _ _ => holds⟩

theorem of_state {next : σ → EStateM ε σ α}
    (rest : ∀ state, invariant state → Safe invariant fail (next state)) :
    Safe invariant fail (MonadState.get >>= next) :=
  ⟨fun state holds => (rest state holds).meets state holds⟩

theorem of_get {next : σ → EStateM ε σ α}
    (rest : ∀ state, invariant state → Ends (fun _ => invariant) fail (next state state)) :
    Safe invariant fail (MonadState.get >>= next) :=
  ⟨rest⟩

end Safe

/-! ## Answers -/

/-- A safe operation whose answer has a property. -/
def Yields (invariant : σ → Prop) (fail : ε → σ → Prop) (operation : EStateM ε σ α)
    (holds : α → Prop) : Prop :=
  Meets invariant operation (fun answer state => holds answer ∧ invariant state) fail

namespace Yields

variable {invariant : σ → Prop} {fail : ε → σ → Prop} {holds : α → Prop}

theorem pure {answer : α} (kept : holds answer) :
    Yields invariant fail (Pure.pure answer : EStateM ε σ α) holds :=
  fun _ invariantHolds => ⟨kept, invariantHolds⟩

theorem throw {fault : ε} (may : ∀ state, invariant state → fail fault state) :
    Yields invariant fail (MonadExcept.throw fault : EStateM ε σ α) holds :=
  may

variable {operation : EStateM ε σ α}

theorem safe (spec : Yields invariant fail operation holds) : Safe invariant fail operation :=
  ⟨spec.weaken (fun _ kept => kept) (fun _ _ reached => reached.2) (fun _ _ failed => failed)⟩

theorem of_safe (safe : Safe invariant fail operation) :
    Yields invariant fail operation fun _ => True :=
  safe.meets.weaken (fun _ kept => kept) (fun _ _ reached => ⟨trivial, reached⟩)
    (fun _ _ failed => failed)

theorem bind {operation : EStateM ε σ α} {next : α → EStateM ε σ β} {last : β → Prop}
    (first : Yields invariant fail operation holds)
    (rest : ∀ answer, holds answer → Yields invariant fail (next answer) last) :
    Yields invariant fail (operation >>= next) last :=
  Meets.bind first fun answer state reached => rest answer reached.1 state reached.2

theorem bind_safe {next : α → EStateM ε σ β} (first : Yields invariant fail operation holds)
    (rest : ∀ answer, holds answer → Safe invariant fail (next answer)) :
    Safe invariant fail (operation >>= next) :=
  ⟨Meets.bind first fun answer state reached => (rest answer reached.1).meets state reached.2⟩

theorem of_bind {next : α → EStateM ε σ β} {last : β → Prop}
    (first : Safe invariant fail operation)
    (rest : ∀ answer, Yields invariant fail (next answer) last) :
    Yields invariant fail (operation >>= next) last :=
  Meets.bind first.meets rest

end Yields

end StateLogic
