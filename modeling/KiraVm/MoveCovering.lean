import KiraVm.MoveWalk

/-!
# What the move checker knows along a path

Along a path that keeps to the ways the checker walks, the checker knows of every
local in scope that has been moved.  Here this is shown of the operations of a path,
of expressions and assignments, and of a loop whose body has it.
-/

namespace KiraVm

open StateLogic

namespace MoveChecker

/-- Every step so far keeps to the ways the checker walks. -/
def Met (log : List PathEvent) : Prop :=
  ∀ event ∈ log, event.covered = true

/-- Up to the first step that does not, no moved local is touched. -/
def Honest (log : List PathEvent) : Prop :=
  ∀ before event after, log = before ++ event :: after → Met before → event.sound = true

theorem Met.of_append {log more : List PathEvent} (met : Met (log ++ more)) : Met log :=
  fun event listed => met event (List.mem_append_left _ listed)

theorem Honest.nil : Honest [] := by
  intro before event after same _
  simp at same

/-- One more step. -/
theorem Honest.append {log : List PathEvent} (honest : Honest log) {event : PathEvent}
    (sound : Met log → event.sound = true) : Honest (log ++ [event]) := by
  intro before other after same met
  rcases List.append_eq_append_iff.mp same with ⟨more, split, rest⟩ | ⟨more, split, rest⟩
  · cases more with
    | nil =>
      cases rest
      rw [split, List.append_nil] at met
      exact sound met
    | cons first more =>
      rw [List.cons_append, List.cons.injEq] at rest
      simp at rest
  · cases more with
    | nil =>
      cases rest
      rw [List.append_nil] at split
      rw [← split] at met
      exact sound met
    | cons first more =>
      cases rest
      exact honest before _ more split met

/-- The path and the checker agree on how the locals of a scope are held.  What is known
holds as long as the path keeps to the ways of the checker. -/
structure Tracks (known : Prop) (ctx : FnCtx) (scope : List LocalId) (path : Path) : Prop where
  honest : Honest path.log
  known : Met path.log → known
  mode : ∀ slot ∈ scope, path.mode slot = ctx.mode slot

/-- The checker knows of every local of a scope that has been moved. -/
structure Covers (known : Prop) (ctx : FnCtx) (scope : List LocalId) (path : Path) : Prop
    extends Tracks known ctx scope path where
  moved : Met path.log → ∀ slot ∈ scope, slot ∈ path.moved → ctx.moved slot = true

/-- However a path is cut off, it has been honest. -/
def Cut (_ : Unit) (path : Path) : Prop :=
  Honest path.log

variable {known : Prop} {ctx after : FnCtx} {scope : List LocalId} {α : Type}

variable {path : Path} {slot : LocalId}

theorem Covers.walk {locals assigned : List LocalId} (covers : Covers known ctx scope path)
    (walk : Walks locals assigned ctx after) (inside : scope ⊆ ctx.declared)
    (fresh : ∀ slot ∈ scope, slot ∉ locals)
    (unassigned : Met path.log → ∀ slot ∈ assigned, slot ∉ path.moved) :
    Covers known after scope path where
  honest := covers.honest
  known := covers.known
  mode := by
    intro slot named
    rw [walk.mode slot (inside named) (fresh slot named)]
    exact covers.mode slot named
  moved := by
    intro met slot named gone
    apply walk.kept slot (inside named) (fresh slot named)
    · intro listed
      exact unassigned met slot listed gone
    · exact covers.moved met slot named gone

theorem Covers.knows {fact : Prop} (covers : Covers known ctx scope path)
    (follows : Met path.log → known → fact) : Covers fact ctx scope path where
  honest := covers.honest
  known := fun met => follows met (covers.known met)
  mode := covers.mode
  moved := covers.moved

theorem Covers.narrow {less : List LocalId} (covers : Covers known ctx scope path)
    (fewer : less ⊆ scope) : Covers known ctx less path where
  honest := covers.honest
  known := covers.known
  mode := fun slot named => covers.mode slot (fewer named)
  moved := fun met slot named => covers.moved met slot (fewer named)

/-- Nothing is known once the path has left the ways of the checker. -/
theorem Covers.lost (covers : Covers False ctx scope path)
    (mode : ∀ slot ∈ scope, after.mode slot = ctx.mode slot) : Covers known after scope path where
  toTracks :=
    { honest := covers.honest
      known := fun met => (covers.known met).elim
      mode := fun slot named => (covers.mode slot named).trans (mode slot named).symm }
  moved := fun met => (covers.known met).elim

/-! ## The primitives -/

/-- Record a step that touches no local. -/
theorem record_covers {event : PathEvent} (quiet : event.sound = true) :
    Meets (Covers known ctx scope) (record event) (fun _ => Covers known ctx scope) Cut := by
  intro path covers
  exact
    { honest := covers.honest.append fun _ => quiet
      known := fun met => covers.known met.of_append
      mode := covers.mode
      moved := fun met => covers.moved met.of_append }

/-- Record a step that no way of the checker takes. -/
theorem record_lost {event : PathEvent} (quiet : event.sound = true)
    (uncovered : event.covered = false) :
    Meets (Covers known ctx scope) (record event) (fun _ => Covers False ctx scope) Cut := by
  intro path covers
  have never : ¬ Met (path.log ++ [event]) := by
    intro met
    have covered := met event (List.mem_append_right _ (List.mem_singleton_self _))
    rw [uncovered] at covered
    cases covered
  exact ⟨⟨covers.honest.append fun _ => quiet, never, covers.mode⟩, fun met => absurd met never⟩

theorem choose_covers :
    Meets (Covers known ctx scope) choose (fun _ => Covers known ctx scope) Cut := by
  intro path covers
  cases choices : path.choices with
  | nil =>
    have stopped : choose path = .error () path := by
      simp only [choose, bind, EStateM.bind, get_run, choices, throw_run]
    rw [stopped]
    exact covers.honest
  | cons choice choices' =>
    have chosen : choose path = .ok choice { path with choices := choices' } := by
      simp only [choose, bind, EStateM.bind, get_run, choices, set_run, pure_run]
    rw [chosen]
    exact ⟨⟨covers.honest, covers.known, covers.mode⟩, covers.moved⟩

theorem readLocal_covers (named : slot ∈ scope) (live : ctx.moved slot = false) :
    Meets (Covers known ctx scope) (readLocal slot) (fun _ => Covers known ctx scope) Cut := by
  intro path covers
  refine ⟨⟨covers.honest.append ?_, fun met => covers.known met.of_append, covers.mode⟩,
    fun met => covers.moved met.of_append⟩
  intro met
  have here : slot ∉ path.moved := by
    intro gone
    rw [covers.moved met slot named gone] at live
    cases live
  simp [PathEvent.sound, here]

theorem moveLocal_covers (named : slot ∈ scope) (live : ctx.moved slot = false) :
    Meets (Covers known ctx scope) (moveLocal slot)
      (fun _ => Covers known (ctx.markMoved slot) scope) Cut := by
  intro path covers
  refine ⟨⟨covers.honest.append ?_, fun met => covers.known met.of_append, covers.mode⟩, ?_⟩
  · intro met
    have here : slot ∉ path.moved := by
      intro gone
      rw [covers.moved met slot named gone] at live
      cases live
    simp [PathEvent.sound, here]
  · intro met other listed gone
    rcases List.mem_cons.mp gone with same | earlier
    · simp [FnCtx.markMoved, same]
    · simp [FnCtx.markMoved, covers.moved met.of_append other listed earlier]

theorem reviveLocal_covers (slot : LocalId) :
    Meets (Covers known ctx scope) (reviveLocal slot)
      (fun _ => Covers known (ctx.markLive slot) scope) Cut := by
  intro path covers
  refine ⟨⟨covers.honest, covers.known, covers.mode⟩, ?_⟩
  intro met other listed gone
  rcases List.mem_filter.mp gone with ⟨earlier, differs⟩
  have apart : other ≠ slot := by simpa using differs
  simp [FnCtx.markLive, apart, covers.moved met other listed earlier]

theorem declareLocal_covers (slot : LocalId) (mode : OwnershipMode) :
    Meets (Covers known ctx scope) (declareLocal slot mode)
      (fun _ => Covers known (ctx.declare slot mode) (scope ++ [slot])) Cut := by
  intro path covers
  refine ⟨⟨covers.honest, covers.known, ?_⟩, ?_⟩
  · intro other listed
    rcases List.mem_append.mp listed with earlier | last
    · by_cases same : other = slot
      · simp [FnCtx.declare, same]
      · simp [FnCtx.declare, same, covers.mode other earlier]
    · rw [List.mem_singleton.mp last]
      simp [FnCtx.declare]
  · intro met other listed gone
    rcases List.mem_filter.mp gone with ⟨earlier, differs⟩
    have apart : other ≠ slot := by simpa using differs
    rcases List.mem_append.mp listed with named | last
    · simp [FnCtx.declare, apart, covers.moved met other named earlier]
    · exact absurd (List.mem_singleton.mp last) apart

/-- Pass over code that the checker walks. -/
theorem skip_covers {locals assigned : List LocalId} (walk : Walks locals assigned ctx after)
    (inside : scope ⊆ ctx.declared) (fresh : ∀ slot ∈ scope, slot ∉ locals) :
    Meets (Covers known ctx scope) (skip assigned) (fun _ => Covers known after scope) Cut := by
  intro path covers
  have skipped : Covers known ctx scope
      { path with log := path.log ++ [.skipped assigned path.moved] } :=
    { honest := covers.honest.append fun _ => rfl
      known := fun met => covers.known met.of_append
      mode := covers.mode
      moved := fun met => covers.moved met.of_append }
  apply skipped.walk walk inside fresh
  intro met slot listed
  have covered := met _ (List.mem_append_right _ (List.mem_singleton_self _))
  simp only [PathEvent.covered, List.all_eq_true, decide_eq_true_eq] at covered
  exact covered slot listed

/-! ## Expressions -/

/-- Names that can be named are declared. -/
def FnCtx.Closed (ctx : FnCtx) : Prop :=
  ctx.scope ⊆ ctx.declared

theorem Extends.closed {locals : List LocalId} (extended : Extends locals ctx after)
    (closed : ctx.Closed) : after.Closed := by
  rcases extended.scope with ⟨more, named, inside⟩
  unfold FnCtx.Closed
  rw [named, extended.declared]
  exact List.append_subset.mpr ⟨List.subset_append_of_subset_left _ closed,
    List.subset_append_of_subset_right _ inside⟩

/-- A step of the walk that declares and assigns nothing and is not taken by the path. -/
theorem Covers.pass (covers : Covers known ctx ctx.scope path) (walk : Walks [] [] ctx after)
    (closed : ctx.Closed) : Covers known after ctx.scope path :=
  covers.walk walk closed (fun _ _ => List.not_mem_nil) fun _ _ listed => absurd listed List.not_mem_nil

theorem checkLocalLive_accepted (accepted : (checkLocalLive slot ctx).diagnostics = []) :
    slot ∈ ctx.scope ∧ ctx.moved slot = false ∧ checkLocalLive slot ctx = ctx := by
  unfold checkLocalLive at accepted ⊢
  split at accepted
  · simp [FnCtx.emit] at accepted
  · rename_i named
    split at accepted
    · simp [FnCtx.emit] at accepted
    · rename_i live
      rw [if_neg named, if_neg live]
      exact ⟨not_not.mp named, Bool.eq_false_iff.mpr live, rfl⟩

theorem analyzeMove_accepted (accepted : (analyzeMove slot ctx).diagnostics = []) :
    slot ∈ ctx.scope ∧ ctx.moved slot = false ∧ analyzeMove slot ctx = ctx.markMoved slot := by
  unfold analyzeMove at accepted ⊢
  split at accepted
  · simp [FnCtx.emit] at accepted
  · rename_i named
    split at accepted
    · simp [FnCtx.emit] at accepted
    · rename_i live
      split at accepted
      · simp [FnCtx.emit] at accepted
      · rename_i owned
        rw [if_neg named, if_neg live, if_neg owned]
        exact ⟨not_not.mp named, Bool.eq_false_iff.mpr live, rfl⟩

/-- Locals are moved out, one and all. -/
def FnCtx.moveAll (ctx : FnCtx) (slots : List LocalId) : FnCtx :=
  { ctx with moved := fun slot => ctx.moved slot || decide (slot ∈ slots) }

theorem FnCtx.moveAll_nil (ctx : FnCtx) : ctx.moveAll [] = ctx := by
  simp [FnCtx.moveAll]

theorem FnCtx.moveAll_append (ctx : FnCtx) (slots more : List LocalId) :
    (ctx.moveAll slots).moveAll more = ctx.moveAll (slots ++ more) := by
  simp [FnCtx.moveAll, Bool.or_assoc]

theorem FnCtx.moveAll_exchange (ctx : FnCtx) (slots more : List LocalId) :
    ctx.moveAll (slots ++ more) = ctx.moveAll (more ++ slots) := by
  simp [FnCtx.moveAll, or_comm]

theorem FnCtx.markMoved_eq (ctx : FnCtx) (slot : LocalId) :
    ctx.markMoved slot = ctx.moveAll [slot] := by
  have moved : ∀ other : LocalId, (if other = slot then true else ctx.moved other) =
      (ctx.moved other || decide (other ∈ [slot])) := by
    intro other
    by_cases same : other = slot <;> simp [same]
  simp only [FnCtx.markMoved, FnCtx.moveAll, moved]

/-- A state in which less is moved of what some code touches. -/
structure Below (moves touched : List LocalId) (ctx other : FnCtx) : Prop where
  scope : other.scope = ctx.scope
  mode : ∀ slot ∈ moves, other.mode slot = ctx.mode slot
  fewer : ∀ slot ∈ touched, slot ∈ ctx.scope → other.moved slot = true → ctx.moved slot = true

theorem Below.refl (moves touched : List LocalId) (ctx : FnCtx) : Below moves touched ctx ctx :=
  ⟨rfl, fun _ _ => rfl, fun _ _ _ moved => moved⟩

theorem Below.moveAll {moves touched : List LocalId} {other : FnCtx}
    (below : Below moves touched ctx other) (slots : List LocalId) :
    Below moves touched (ctx.moveAll slots) (other.moveAll slots) where
  scope := below.scope
  mode := below.mode
  fewer := by
    intro slot touches named moved
    rcases Bool.or_eq_true _ _ ▸ moved with earlier | now
    · simp [FnCtx.moveAll, below.fewer slot touches named earlier]
    · simp only [FnCtx.moveAll, now, Bool.or_true]

theorem Below.part {moves touched someMoves someTouched : List LocalId} {other : FnCtx}
    (below : Below moves touched ctx other) (moving : someMoves ⊆ moves)
    (touching : someTouched ⊆ touched) : Below someMoves someTouched ctx other where
  scope := below.scope
  mode := fun slot listed => below.mode slot (moving listed)
  fewer := fun slot listed => below.fewer slot (touching listed)

/-- Accepted in one state, an expression moves its locals in every state below it. -/
def Expr.Steady (expr : Expr) : Prop :=
  ∀ ctx other, (analyzeExpr expr ctx).diagnostics = [] →
    Below expr.moves expr.touched ctx other → analyzeExpr expr other = other.moveAll expr.moves

theorem Expr.Steady.andThen {first second : Expr} (firstSteady : first.Steady)
    (secondSteady : second.Steady) {other : FnCtx}
    (accepted : (analyzeExpr second (analyzeExpr first ctx)).diagnostics = [])
    (firstBelow : Below first.moves first.touched ctx other)
    (secondBelow : Below second.moves second.touched ctx other) :
    analyzeExpr second (analyzeExpr first other) = other.moveAll (first.moves ++ second.moves) := by
  have firstAccepted := (analyzeExpr_walks second _).quiet accepted
  rw [firstSteady ctx ctx firstAccepted (Below.refl _ _ ctx)] at accepted
  rw [firstSteady ctx other firstAccepted firstBelow,
    secondSteady _ _ accepted (secondBelow.moveAll first.moves), FnCtx.moveAll_append]

theorem Expr.steady (expr : Expr) : expr.Steady := by
  induction expr with
  | constant => exact fun _ other _ _ => other.moveAll_nil.symm
  | name slot =>
    intro ctx other accepted below
    rcases checkLocalLive_accepted accepted with ⟨named, live, same⟩
    have liveToo : ¬ other.moved slot = true := by
      intro moved
      rw [below.fewer slot (List.mem_singleton_self slot) named moved] at live
      cases live
    rw [analyzeExpr, checkLocalLive, below.scope, if_neg (not_not.mpr named), if_neg liveToo]
    exact other.moveAll_nil.symm
  | move slot =>
    intro ctx other accepted below
    have listed := List.mem_singleton_self slot
    unfold analyzeExpr analyzeMove at accepted ⊢
    split at accepted
    · simp [FnCtx.emit] at accepted
    · rename_i named
      split at accepted
      · simp [FnCtx.emit] at accepted
      · rename_i live
        split at accepted
        · simp [FnCtx.emit] at accepted
        · rename_i owned
          have liveToo := fun moved => live (below.fewer slot listed (not_not.mp named) moved)
          rw [below.scope, below.mode slot listed, if_neg named, if_neg liveToo, if_neg owned]
          exact other.markMoved_eq slot
  | copy operand ih => exact ih
  | operands first second firstIh secondIh | shortCircuit first second firstIh secondIh =>
    intro ctx other accepted below
    exact firstIh.andThen secondIh accepted
      (below.part (List.subset_append_left _ _) (List.subset_append_left _ _))
      (below.part (List.subset_append_right _ _) (List.subset_append_right _ _))
  | exchanged first second firstIh secondIh =>
    intro ctx other accepted below
    exact (secondIh.andThen firstIh accepted
      (below.part (List.subset_append_right _ _) (List.subset_append_right _ _))
      (below.part (List.subset_append_left _ _) (List.subset_append_left _ _))).trans
      (other.moveAll_exchange second.moves first.moves)

/-- Operands that can be exchanged leave the same state in either order. -/
theorem Expr.exchange {first second : Expr}
    (accepted : (analyzeExpr first (analyzeExpr second ctx)).diagnostics = [])
    (apart : ∀ slot ∈ first.moves, slot ∉ second.touched) :
    analyzeExpr second (analyzeExpr first ctx) = analyzeExpr first (analyzeExpr second ctx) := by
  have secondAccepted := (analyzeExpr_walks first _).quiet accepted
  have secondMoves := second.steady ctx ctx secondAccepted (Below.refl _ _ ctx)
  rw [secondMoves] at accepted
  have firstMoves : analyzeExpr first ctx = ctx.moveAll first.moves := by
    apply first.steady (ctx.moveAll second.moves) ctx accepted
    exact ⟨rfl, fun _ _ => rfl, fun _ _ _ moved => by simp [FnCtx.moveAll, moved]⟩
  have stillMoves : analyzeExpr second (ctx.moveAll first.moves) =
      (ctx.moveAll first.moves).moveAll second.moves := by
    apply second.steady ctx _ secondAccepted
    refine ⟨rfl, fun _ _ => rfl, ?_⟩
    intro slot touches _ moved
    rcases (Bool.or_eq_true _ _).mp moved with earlier | now
    · exact earlier
    · exact absurd touches (apart slot (of_decide_eq_true now))
  rw [firstMoves, stillMoves, secondMoves, first.steady _ _ accepted (Below.refl _ _ _),
    FnCtx.moveAll_append, FnCtx.moveAll_append, FnCtx.moveAll_exchange]

/-- A path that has left the ways of the checker evaluates whatever follows. -/
theorem evalExpr_lost (expr : Expr) :
    Meets (Covers False ctx scope) (evalExpr expr) (fun _ => Covers False ctx scope) Cut := by
  have touches : ∀ (path : Path) (moved : List LocalId) (event : PathEvent),
      Covers False ctx scope path →
        Covers False ctx scope { path with moved := moved, log := path.log ++ [event] } := by
    intro path moved event covers
    have never : ¬ Met (path.log ++ [event]) := fun met => covers.known met.of_append
    exact ⟨⟨covers.honest.append fun met => (covers.known met).elim, never, covers.mode⟩,
      fun met => absurd met never⟩
  induction expr with
  | constant => exact fun _ covers => covers
  | name slot => exact fun path covers => touches path path.moved _ covers
  | move slot => exact fun path covers => touches path _ _ covers
  | copy operand ih => exact ih
  | operands first second firstIh secondIh => exact firstIh.bind fun _ => secondIh
  | exchanged first second firstIh secondIh =>
    exact (record_covers rfl).bind fun _ => firstIh.bind fun _ => secondIh
  | shortCircuit first second firstIh secondIh =>
    apply firstIh.bind
    intro _
    apply choose_covers.bind
    intro taken
    cases taken with
    | true => exact secondIh
    | false => exact fun _ covers => covers

theorem evalExpr_covers (expr : Expr) (closed : ctx.Closed)
    (accepted : (analyzeExpr expr ctx).diagnostics = []) :
    Meets (Covers known ctx ctx.scope) (evalExpr expr)
      (fun _ => Covers known (analyzeExpr expr ctx) ctx.scope) Cut := by
  induction expr generalizing ctx with
  | constant => exact fun _ covers => covers
  | name slot =>
    rcases checkLocalLive_accepted accepted with ⟨named, live, same⟩
    rw [analyzeExpr, same]
    exact readLocal_covers named live
  | move slot =>
    rcases analyzeMove_accepted accepted with ⟨named, live, same⟩
    rw [analyzeExpr, same]
    exact moveLocal_covers named live
  | copy operand ih => exact ih closed accepted
  | operands first second firstIh secondIh =>
    have walk := (analyzeExpr_walks first ctx).toExtends
    have later := analyzeExpr_walks second (analyzeExpr first ctx)
    apply (firstIh closed (later.quiet accepted)).bind
    intro _
    rw [← walk.scope_eq]
    exact secondIh (walk.closed closed) accepted
  | exchanged first second firstIh secondIh =>
    by_cases apart : ∀ slot ∈ first.moves, slot ∉ second.touched
    · have swapped := Expr.exchange accepted apart
      rw [analyzeExpr, ← swapped] at accepted ⊢
      have walk := (analyzeExpr_walks first ctx).toExtends
      have later := analyzeExpr_walks second (analyzeExpr first ctx)
      apply (record_covers rfl).bind
      intro _
      apply (firstIh closed (later.quiet accepted)).bind
      intro _
      rw [← walk.scope_eq]
      exact secondIh (walk.closed closed) accepted
    · have walk := analyzeExpr_walks (.exchanged first second) ctx
      have lost : Meets (Covers known ctx ctx.scope) (evalExpr (.exchanged first second))
          (fun _ => Covers False ctx ctx.scope) Cut :=
        (record_lost rfl (by simpa [PathEvent.covered] using apart)).bind fun _ =>
          (evalExpr_lost first).bind fun _ => evalExpr_lost second
      apply lost.weaken
      · exact fun _ covers => covers
      · exact fun _ path covers => covers.lost fun slot named =>
          walk.mode slot (closed named) List.not_mem_nil
      · exact fun _ _ stopped => stopped
  | shortCircuit first second firstIh secondIh =>
    have walk := (analyzeExpr_walks first ctx).toExtends
    have later := analyzeExpr_walks second (analyzeExpr first ctx)
    apply (firstIh closed (later.quiet accepted)).bind
    intro _
    rw [← walk.scope_eq]
    apply choose_covers.bind
    intro taken
    cases taken with
    | true => exact secondIh (walk.closed closed) accepted
    | false =>
      intro path covers
      exact covers.pass later (walk.closed closed)

theorem evalIndices_covers (steps : List PlaceStep) (closed : ctx.Closed)
    (accepted : (analyzeIndices steps ctx).diagnostics = []) :
    Meets (Covers known ctx ctx.scope) (evalIndices steps)
      (fun _ => Covers known (analyzeIndices steps ctx) ctx.scope) Cut := by
  induction steps generalizing ctx with
  | nil => exact fun _ covers => covers
  | cons step steps ih =>
    cases step with
    | field index => exact ih closed accepted
    | index value =>
      have walk := (analyzeExpr_walks value ctx).toExtends
      have later := analyzeIndices_walks steps (analyzeExpr value ctx)
      apply (evalExpr_covers value closed (later.quiet accepted)).bind
      intro _
      rw [← walk.scope_eq]
      exact ih (walk.closed closed) accepted

/-- A value that would alias a local, once it has been read. -/
theorem consume_covers (aliases : Bool) (value : Expr)
    (accepted : (analyzeExpr value ctx).diagnostics = []) :
    Meets (Covers known (analyzeExpr value ctx) ctx.scope) (consume aliases value)
      (fun _ => Covers known (applyBindingMove aliases value (analyzeExpr value ctx)) ctx.scope)
      Cut := by
  cases value with
  | name slot =>
    rcases checkLocalLive_accepted accepted with ⟨named, live, same⟩
    rw [analyzeExpr, same]
    intro path covers
    have agreed := covers.mode slot named
    unfold consume applyBindingMove
    simp only [bind, EStateM.bind, get_run, agreed, named, live, decide_true, Bool.and_true,
      Bool.not_false]
    split
    · exact moveLocal_covers named live path covers
    · exact covers
  | _ => exact fun _ covers => covers

theorem consumeBound_covers (mode : OwnershipMode) (init : Expr) (aliases : Bool)
    (accepted : (analyzeExpr init ctx).diagnostics = []) :
    Meets (Covers known (analyzeExpr init ctx) ctx.scope) (consumeBound mode init aliases)
      (fun _ => Covers known (bindingMove mode init aliases (analyzeExpr init ctx)) ctx.scope)
      Cut := by
  cases mode with
  | owned => exact consume_covers aliases init accepted
  | move => exact consume_covers true init accepted
  | _ => exact fun _ covers => covers

/-! ## Assignments -/

theorem resolvePlace_accepted {place : Place} (accepted : (resolvePlace place ctx).diagnostics = []) :
    place.resolves ctx = true ∧ resolvePlace place ctx = analyzeIndices place.path ctx := by
  unfold resolvePlace at accepted ⊢
  cases resolved : place.resolves ctx with
  | true => exact ⟨rfl, rfl⟩
  | false =>
    rw [resolved, if_neg Bool.false_ne_true] at accepted
    split at accepted
    · simp [FnCtx.emit] at accepted
    · simp [FnCtx.emit] at accepted

theorem storeThrough_covers (slot : LocalId) (before : Bool) :
    Meets (Covers (known ∧ before = false) ctx scope) (storeThrough slot before)
      (fun _ => Covers known ctx scope) Cut := by
  intro path covers
  have stored : Honest (path.log ++ [.stored slot before (decide (slot ∈ path.moved))]) :=
    covers.honest.append fun _ => rfl
  have written : Honest (path.log ++ [.stored slot before (decide (slot ∈ path.moved)),
      .read slot (decide (slot ∈ path.moved))]) := by
    rw [List.append_cons]
    apply stored.append
    intro met
    have covered := met _ (List.mem_append_right _ (List.mem_singleton_self _))
    rw [PathEvent.covered, (covers.known met.of_append).2, Bool.false_or] at covered
    exact covered
  exact ⟨⟨written, fun met => (covers.known met.of_append).1, covers.mode⟩,
    fun met => covers.moved met.of_append⟩

/-- What an accepted assignment walks through. -/
theorem analyzeAssign_accepted {place : Place} {compound aliases : Bool} {value : Expr}
    (accepted : (analyzeAssign place compound value aliases ctx).diagnostics = []) :
    place.resolves ctx = true ∧ resolvePlace place ctx = analyzeIndices place.path ctx ∧
      (analyzeExpr (assignedExpr place compound value)
        (analyzeIndices place.path ctx)).diagnostics = [] := by
  have read : (analyzeExpr (assignedExpr place compound value)
      (resolvePlace place ctx)).diagnostics = [] := by
    unfold analyzeAssign at accepted
    dsimp only at accepted
    cases resolved : place.resolves ctx with
    | false =>
      rw [resolved, if_neg Bool.false_ne_true] at accepted
      exact accepted
    | true =>
      rw [resolved, if_pos rfl] at accepted
      have bound : (if compound then
          analyzeExpr (assignedExpr place compound value) (resolvePlace place ctx)
          else applyBindingMove aliases value (analyzeExpr (assignedExpr place compound value)
            (resolvePlace place ctx))).diagnostics = [] := by
        cases whole : place.path.isEmpty with
        | false =>
          rw [whole, if_neg Bool.false_ne_true] at accepted
          exact accepted
        | true =>
          rw [whole, if_pos rfl] at accepted
          exact accepted
      cases compound with
      | true => exact bound
      | false => exact (applyBindingMove_walks aliases value _).quiet bound
  rcases resolvePlace_accepted ((analyzeExpr_walks _ _).quiet read) with ⟨resolved, same⟩
  rw [same] at read
  exact ⟨resolved, same, read⟩

theorem runAssign_covers (place : Place) (compound : Bool) (value : Expr) (aliases : Bool)
    (closed : ctx.Closed)
    (accepted : (analyzeAssign place compound value aliases ctx).diagnostics = []) :
    Meets (Covers known ctx ctx.scope) (runAssign place compound value aliases)
      (fun _ => Covers known (analyzeAssign place compound value aliases ctx) ctx.scope) Cut := by
  rcases analyzeAssign_accepted accepted with ⟨resolved, same, read⟩
  have indexed := analyzeIndices_walks place.path ctx
  have evaluated := analyzeExpr_walks (assignedExpr place compound value)
    (analyzeIndices place.path ctx)
  unfold analyzeAssign
  rw [same, resolved, if_pos rfl]
  rw [Place.resolves, Bool.and_eq_true, decide_eq_true_eq, Bool.or_eq_true] at resolved
  apply Meets.of_get
  intro start covers
  -- something inside the local is written: the local was not moved
  have begun : Covers (known ∧ (place.path.isEmpty = false →
      decide (place.slot ∈ start.moved) = false)) ctx ctx.scope start := by
    apply covers.knows
    intro met holds
    refine ⟨holds, ?_⟩
    intro through
    rw [decide_eq_false_iff_not]
    intro gone
    have moved := covers.moved met place.slot resolved.1 gone
    simp [through, moved] at resolved
  have indices := fun known => @evalIndices_covers known ctx place.path closed (evaluated.quiet read)
  have expr := fun known => @evalExpr_covers known _ (assignedExpr place compound value)
    (indexed.toExtends.closed closed) read
  rw [indexed.scope_eq] at expr
  have bound : ∀ known, Meets
      (Covers known (analyzeExpr (assignedExpr place compound value)
        (analyzeIndices place.path ctx)) ctx.scope)
      (if compound then pure () else consume aliases value)
      (fun _ => Covers known
        (if compound then analyzeExpr (assignedExpr place compound value)
            (analyzeIndices place.path ctx)
          else applyBindingMove aliases value (analyzeExpr (assignedExpr place compound value)
            (analyzeIndices place.path ctx))) ctx.scope) Cut := by
    intro known
    cases compound with
    | true => exact fun _ covers => covers
    | false =>
      have consumed := @consume_covers known _ aliases value read
      rw [indexed.scope_eq] at consumed
      exact consumed
  have stored : ∀ last : FnCtx, Meets
      (Covers (known ∧ (place.path.isEmpty = false →
        decide (place.slot ∈ start.moved) = false)) last ctx.scope)
      (if place.path.isEmpty then reviveLocal place.slot
        else storeThrough place.slot (decide (place.slot ∈ start.moved)))
      (fun _ => Covers known (if place.path.isEmpty then last.markLive place.slot else last)
        ctx.scope) Cut := by
    intro last
    cases place.path.isEmpty with
    | true =>
      intro path covers
      exact (reviveLocal_covers place.slot) path (covers.knows fun _ holds => holds.1)
    | false =>
      intro path covers
      exact storeThrough_covers place.slot _ path
        (covers.knows fun _ holds => ⟨holds.1, holds.2 rfl⟩)
  have chain := (indices _).bind fun _ => (expr _).bind fun _ => (bound _).bind fun _ => stored _
  cases compound with
  | true => exact chain start begun
  | false => exact chain start begun

/-! ## Code that does not get to its end -/

mutual

theorem Stmt.exits_of_returns : ∀ stmt : Stmt,
    stmt.definitelyReturns = true → stmt.alwaysExitsLoop = true
  | .return_ _, _ => rfl
  | .ifElse _ thenBlock elseBlock, judged => by
    have both := Bool.and_eq_true_iff.mp judged
    exact Bool.and_eq_true_iff.mpr
      ⟨thenBlock.exits_of_returns both.1, elseBlock.exits_of_returns both.2⟩
  | .match_ _ _ _ arms, judged => arms.exits_of_returns judged
  | .attempt steps, judged => steps.exits_of_returns judged

theorem Block.exits_of_returns : ∀ block : Block,
    block.definitelyReturns = true → block.alwaysExitsLoop = true
  | .cons head tail, judged => by
    apply Bool.or_eq_true_iff.mpr
    rcases Bool.or_eq_true_iff.mp judged with first | later
    · exact .inl (head.exits_of_returns first)
    · exact .inr (tail.exits_of_returns later)

theorem Arms.exits_of_returns : ∀ arms : Arms,
    arms.definitelyReturn = true → arms.alwaysExitLoop = true
  | .cons _ body .nil, judged => body.exits_of_returns judged
  | .cons _ body (.cons bindings other rest), judged => by
    have both := Bool.and_eq_true_iff.mp judged
    exact Bool.and_eq_true_iff.mpr
      ⟨body.exits_of_returns both.1, (Arms.cons bindings other rest).exits_of_returns both.2⟩

theorem Steps.exits_of_returns : ∀ steps : Steps,
    steps.definitelyReturn = true → steps.alwaysExitLoop = true
  | .trailing stmts, judged => stmts.exits_of_returns judged
  | .step _ _ _ handlers _ rest, judged => by
    have both := Bool.and_eq_true_iff.mp judged
    exact Bool.and_eq_true_iff.mpr
      ⟨rest.exits_of_returns both.1, handlers.exits_of_returns both.2⟩

end

/-- An operation that never ends normally. -/
def Leaves (operation : OnPath Exit) : Prop :=
  Meets (fun _ => True) operation (fun exit _ => exit ≠ .normal) fun _ _ => True

theorem meets_anything (operation : OnPath α) :
    Meets (fun _ => True) operation (fun _ _ => True) fun _ _ => True := by
  intro path _
  cases ran : operation path with
  | ok answer path => trivial
  | error stop path => trivial

theorem Leaves.of_bind {operation : OnPath α} {next : α → OnPath Exit}
    (rest : ∀ answer, Leaves (next answer)) : Leaves (operation >>= next) :=
  (meets_anything operation).bind rest

theorem leaves_pure {exit : Exit} (apart : exit ≠ .normal) : Leaves (pure exit) :=
  fun _ _ => apart

/-- An arm that never ends normally. -/
theorem Leaves.arm {operation : OnPath Exit} (leaves : Leaves operation) (judged : Bool) :
    Leaves (do
      let exit ← operation
      leaveArm judged exit) := by
  apply leaves.bind
  intro exit path apart
  unfold leaveArm
  split
  · exact apart
  · exact apart

section Run

variable (fuel : Nat)

mutual

theorem runStmt_leaves : ∀ stmt : Stmt, stmt.alwaysExitsLoop = true → Leaves (runStmt fuel stmt)
  | .return_ none, _ => leaves_pure (by simp)
  | .return_ (some value), _ => Leaves.of_bind fun _ => leaves_pure (by simp)
  | .break_, _ => leaves_pure (by simp)
  | .ifElse cond thenBlock elseBlock, exits => by
    have both := Bool.and_eq_true_iff.mp exits
    apply Leaves.of_bind
    intro _
    apply Leaves.of_bind
    intro taken
    cases taken with
    | true => exact (runStmts_leaves thenBlock both.1).arm _
    | false => exact (runStmts_leaves elseBlock both.2).arm _
  | .match_ subject _ _ arms, exits => Leaves.of_bind fun _ => runArms_leaves arms exits
  | .attempt steps, exits => runSteps_leaves steps exits

theorem runStmts_leaves : ∀ block : Block,
    block.alwaysExitsLoop = true → Leaves (runStmts fuel block)
  | .cons head tail, exits => by
    rcases Bool.or_eq_true_iff.mp exits with first | later
    · apply (runStmt_leaves head first).bind
      intro exit path apart
      cases exit with
      | normal => exact absurd rfl apart
      | broke => exact apart
      | continued => exact apart
      | returned => exact apart
    · apply Leaves.of_bind
      intro exit
      cases exit with
      | normal => exact runStmts_leaves tail later
      | broke => exact Leaves.of_bind fun _ => leaves_pure (by simp)
      | continued => exact leaves_pure (by simp)
      | returned => exact leaves_pure (by simp)

theorem runArms_leaves : ∀ arms : Arms, arms.alwaysExitLoop = true → Leaves (runArms fuel arms)
  | .cons bindings body .nil, exits =>
    Leaves.of_bind fun _ => (runStmts_leaves body exits).arm _
  | .cons bindings body (.cons others other rest), exits => by
    have both := Bool.and_eq_true_iff.mp exits
    apply Leaves.of_bind
    intro taken
    cases taken with
    | true => exact Leaves.of_bind fun _ => (runStmts_leaves body both.1).arm _
    | false => exact runArms_leaves (.cons others other rest) both.2

theorem runHandlers_leaves : ∀ arms : Arms,
    arms.alwaysExitLoop = true → Leaves (runHandlers fuel arms)
  | .cons bindings body .nil, exits => Leaves.of_bind fun _ => runStmts_leaves body exits
  | .cons bindings body (.cons others other rest), exits => by
    have both := Bool.and_eq_true_iff.mp exits
    apply Leaves.of_bind
    intro taken
    cases taken with
    | true =>
      apply Leaves.of_bind
      intro _
      apply (runStmts_leaves body both.1).bind
      intro exit path apart
      cases exit with
      | normal => exact absurd rfl apart
      | broke => exact apart
      | continued => exact apart
      | returned => exact apart
    | false => exact Leaves.of_bind fun _ => runHandlers_leaves (.cons others other rest) both.2

theorem runSteps_leaves : ∀ steps : Steps,
    steps.alwaysExitLoop = true → Leaves (runSteps fuel steps)
  | .trailing stmts, exits => runStmts_leaves stmts exits
  | .step setup operand hidden handlers binding rest, exits => by
    have both := Bool.and_eq_true_iff.mp exits
    apply Leaves.of_bind
    intro exit
    cases exit with
    | broke => exact Leaves.of_bind fun _ => leaves_pure (by simp)
    | continued => exact leaves_pure (by simp)
    | returned => exact leaves_pure (by simp)
    | normal =>
      apply Leaves.of_bind
      intro _
      apply Leaves.of_bind
      intro succeeds
      cases succeeds with
      | true => exact Leaves.of_bind fun _ => Leaves.of_bind fun _ => runSteps_leaves rest both.1
      | false =>
        apply (runHandlers_leaves handlers both.2).bind
        intro exit path apart
        cases exit with
        | normal => exact absurd rfl apart
        | broke => exact apart
        | continued => exact apart
        | returned => exact apart

end

end Run

/-! ## Loops -/

/-- How code ends, for the walk over it. -/
def Ended (known : Prop) (ctx after : FnCtx) : Exit → Path → Prop
  | .normal, path => Covers known after after.scope path
  | .broke, path => Covers known after ctx.scope path
  | .continued, path => Tracks known after ctx.scope path
  | .returned, path => Honest path.log

/-- How a turn of a loop ends. -/
def Turned (known : Prop) (after : FnCtx) (scope : List LocalId) : Exit → Path → Prop
  | .normal, path => Covers known after scope path
  | .broke, path => Covers known after scope path
  | .continued, path => Tracks known after scope path
  | .returned, path => Honest path.log

/-- How a loop ends. -/
def Left (known : Prop) (after : FnCtx) (scope : List LocalId) : Exit → Path → Prop
  | .normal, path => Covers known after scope path
  | .returned, path => Honest path.log
  | _, _ => False

/-- What is asked of the parts of a loop: the state before the test, the one the body
starts from, and the one it ends in.  `exits` says that the body is judged to leave the
loop, and `ready` is what holds before the test once a turn has gone to the end of the
body. -/
structure LoopParts (scope locals inside assigned : List LocalId) (before head after : FnCtx)
    (exits : Bool) (ready : Prop → Path → Prop) (test : OnPath Bool) (again : OnPath Unit)
    (body : OnPath Exit) : Prop where
  walk : Walks locals assigned head after
  closed : scope ⊆ head.declared
  fresh : ∀ slot ∈ scope, slot ∉ locals
  outside : ∀ slot ∈ scope, slot ∉ inside
  honest : ∀ known path, ready known path → Honest path.log
  tests : ∀ known, Meets (Covers known before scope) test (fun _ => Covers known head scope) Cut
  retests : exits = false → ∀ known, Meets (ready known) test
    (fun taken => Covers known (if taken then head else after) scope) Cut
  completes : exits = false → ∀ known,
    Meets (Covers known after scope) again (fun _ => ready known) Cut
  restarts : ∀ known, Meets (Covers known head scope) again
    (fun _ => Covers known before scope) Cut
  turns : ∀ known, Meets (Covers known head scope) body (Turned known after scope) Cut
  leaves : exits = true → Leaves body

section Loop

variable {locals inside assigned : List LocalId} {before head : FnCtx} {exits : Bool}
  {ready : Prop → Path → Prop} {test : OnPath Bool} {again : OnPath Unit} {body : OnPath Exit}

theorem continue_covers (walk : Walks locals assigned head after) (closed : scope ⊆ head.declared)
    (fresh : ∀ slot ∈ scope, slot ∉ locals) (outside : ∀ slot ∈ scope, slot ∉ inside)
    {start now : Path}
    (tracks : Tracks (known ∧ ∀ slot ∈ scope, slot ∈ start.moved → head.moved slot = true)
      after scope now) :
    Covers known head scope
      { now with log := now.log ++ [.continued inside start.moved now.moved] } where
  honest := tracks.honest.append fun _ => rfl
  known := fun met => (tracks.known met.of_append).1
  mode := by
    intro slot named
    rw [← walk.mode slot (closed named) (fresh slot named)]
    exact tracks.mode slot named
  moved := by
    intro met slot named gone
    have covered := met _ (List.mem_append_right _ (List.mem_singleton_self _))
    simp only [PathEvent.covered, List.all_eq_true, Bool.or_eq_true, decide_eq_true_eq] at covered
    rcases covered slot gone with earlier | own
    · exact (tracks.known met.of_append).2 slot named earlier
    · exact absurd own (outside slot named)

theorem LoopParts.turns_or_leaves
    (parts : LoopParts scope locals inside assigned before head after exits ready test again body)
    (known : Prop) :
    Meets (Covers known head scope) body
      (fun exit path => Turned known after scope exit path ∧ (exit = .normal → exits = false))
      Cut := by
  cases exits with
  | false =>
    apply (parts.turns known).weaken
    · exact fun _ covers => covers
    · exact fun _ _ turned => ⟨turned, fun _ => rfl⟩
    · exact fun _ _ stopped => stopped
  | true =>
    apply ((parts.turns known).both (parts.leaves rfl)).weaken
    · exact fun _ covers => ⟨covers, trivial⟩
    · exact fun _ _ ended => ⟨ended.1, fun normal => absurd normal ended.2⟩
    · exact fun _ _ stopped => stopped.1

theorem runLoop_covers
    (parts : LoopParts scope locals inside assigned before head after exits ready test again body)
    (fuel : Nat) (complete : Bool) (possible : complete = true → exits = false) (known : Prop) :
    Meets (fun path => if complete then ready known path else Covers known before scope path)
      (runLoop inside assigned test again body fuel complete) (Left known after scope) Cut := by
  induction fuel generalizing complete known with
  | zero =>
    intro path holds
    cases complete with
    | true => exact parts.honest known path holds
    | false => exact holds.honest
  | succ fuel ih =>
    have tested : Meets
        (fun path => if complete then ready known path else Covers known before scope path) test
        (fun taken => Covers known (if taken then head else if complete then after else head)
          scope) Cut := by
      cases complete with
      | true => exact parts.retests (possible rfl) known
      | false =>
        apply (parts.tests known).weaken
        · exact fun _ holds => holds
        · intro taken path covers
          cases taken <;> exact covers
        · exact fun _ _ stopped => stopped
    apply tested.bind
    intro taken
    cases taken with
    | false =>
      cases complete with
      | true => exact fun _ covers => covers
      | false => exact skip_covers parts.walk parts.closed parts.fresh
    | true =>
      apply Meets.of_get
      intro start covers
      have begun : Covers
          (known ∧ ∀ slot ∈ scope, slot ∈ start.moved → head.moved slot = true)
          head scope start :=
        covers.knows fun met holds => ⟨holds, covers.moved met⟩
      refine ((parts.turns_or_leaves _).bind ?_) start begun
      intro exit
      cases exit with
      | normal =>
        intro path turned
        have whole := turned.2 rfl
        have repeats := (parts.completes whole known).bind fun _ =>
          ih true (fun _ => whole) known
        exact repeats path (turned.1.knows fun _ holds => holds.1)
      | broke =>
        intro path turned
        exact turned.1.knows fun _ holds => holds.1
      | returned => exact fun _ turned => turned.1
      | continued =>
        apply Meets.of_get
        intro now turned
        have restarts := (parts.restarts known).bind fun _ =>
          ih false (fun impossible => Bool.noConfusion impossible) known
        exact restarts _
          (continue_covers parts.walk parts.closed parts.fresh parts.outside turned.1)

end Loop

end MoveChecker

end KiraVm
