import KiraVm.MovePaths

/-!
# What the walk of the move checker does to its state

The walk declares the locals of the code in order, never takes a diagnostic back, and
forgets that a local was moved only where the code assigns it.
-/

namespace KiraVm

namespace MoveChecker

/-- While nothing was reported, no loop has blamed a local. -/
def FnCtx.Clean (ctx : FnCtx) : Prop :=
  ctx.diagnostics = [] → ∀ slot, ctx.loopReported slot = false

/-- The state after code that declares some locals. -/
structure Extends (locals : List LocalId) (ctx after : FnCtx) : Prop where
  declared : after.declared = ctx.declared ++ locals
  scope : ∃ more, after.scope = ctx.scope ++ more ∧ more ⊆ locals
  quiet : after.diagnostics = [] → ctx.diagnostics = []
  clean : ctx.Clean → after.Clean
  mode : ∀ slot ∈ ctx.declared, slot ∉ locals → after.mode slot = ctx.mode slot

/-- A walk over code that declares and assigns some locals. -/
structure Walks (locals assigned : List LocalId) (ctx after : FnCtx) : Prop
    extends Extends locals ctx after where
  kept : ∀ slot ∈ ctx.declared, slot ∉ locals → slot ∉ assigned →
    ctx.moved slot = true → after.moved slot = true

variable {locals assigned moreLocals moreAssigned : List LocalId} {ctx middle after : FnCtx}

namespace Extends

theorem refl (ctx : FnCtx) : Extends [] ctx ctx where
  declared := (List.append_nil _).symm
  scope := ⟨[], (List.append_nil _).symm, List.Subset.refl _⟩
  quiet := id
  clean := id
  mode := fun _ _ _ => rfl

theorem trans (first : Extends locals ctx middle) (second : Extends moreLocals middle after) :
    Extends (locals ++ moreLocals) ctx after where
  declared := by
    rw [second.declared, first.declared, List.append_assoc]
  scope := by
    rcases first.scope with ⟨more, named, inside⟩
    rcases second.scope with ⟨others, renamed, insideToo⟩
    refine ⟨more ++ others, ?_, ?_⟩
    · rw [renamed, named, List.append_assoc]
    · exact List.append_subset.mpr ⟨List.subset_append_of_subset_left _ inside,
        List.subset_append_of_subset_right _ insideToo⟩
  quiet := fun silent => first.quiet (second.quiet silent)
  clean := fun kept => second.clean (first.clean kept)
  mode := by
    intro slot listed fresh
    rw [List.mem_append, not_or] at fresh
    rw [second.mode slot _ fresh.2]
    · exact first.mode slot listed fresh.1
    · rw [first.declared]
      exact List.mem_append_left _ listed

/-- The scope that was open before is open again. -/
theorem popScope (extended : Extends locals ctx after) :
    Extends locals ctx (after.popScope ctx.scope) where
  declared := extended.declared
  scope := ⟨[], (List.append_nil _).symm, List.nil_subset _⟩
  quiet := extended.quiet
  clean := extended.clean
  mode := extended.mode

theorem moves (extended : Extends locals ctx after) (moved : LocalId → Bool) :
    Extends locals ctx { after with moved := moved } where
  declared := extended.declared
  scope := extended.scope
  quiet := extended.quiet
  clean := extended.clean
  mode := extended.mode

theorem mem_declared (extended : Extends locals ctx after) {slot : LocalId}
    (listed : slot ∈ ctx.declared) : slot ∈ after.declared := by
  rw [extended.declared]
  exact List.mem_append_left _ listed

theorem scope_eq (extended : Extends [] ctx after) : after.scope = ctx.scope := by
  rcases extended.scope with ⟨more, named, inside⟩
  rw [named, List.eq_nil_of_subset_nil inside, List.append_nil]

theorem declared_eq (extended : Extends [] ctx after) : after.declared = ctx.declared := by
  rw [extended.declared, List.append_nil]

end Extends

namespace Walks

theorem refl (ctx : FnCtx) : Walks [] [] ctx ctx where
  toExtends := Extends.refl ctx
  kept := fun _ _ _ _ moved => moved

theorem trans (first : Walks locals assigned ctx middle)
    (second : Walks moreLocals moreAssigned middle after) :
    Walks (locals ++ moreLocals) (assigned ++ moreAssigned) ctx after where
  toExtends := first.toExtends.trans second.toExtends
  kept := by
    intro slot listed fresh unassigned moved
    rw [List.mem_append, not_or] at fresh unassigned
    apply second.kept slot
    · exact first.mem_declared listed
    · exact fresh.2
    · exact unassigned.2
    · exact first.kept slot listed fresh.1 unassigned.1 moved

theorem andThen (first : Walks locals assigned ctx middle) (second : Walks [] [] middle after) :
    Walks locals assigned ctx after := by
  have both := first.trans second
  rw [List.append_nil, List.append_nil] at both
  exact both

theorem assigns (walk : Walks locals [] ctx after) (assigned : List LocalId) :
    Walks locals assigned ctx after where
  toExtends := walk.toExtends
  kept := fun slot listed fresh _ moved => walk.kept slot listed fresh List.not_mem_nil moved

/-- The scope that was open before is open again. -/
theorem popScope (walk : Walks locals assigned ctx after) :
    Walks locals assigned ctx (after.popScope ctx.scope) where
  toExtends := walk.toExtends.popScope
  kept := walk.kept

end Walks

/-! ## Steps of the walk -/

theorem emit_walks (ctx : FnCtx) (diagnostic : Diagnostic) :
    Walks [] [] ctx (ctx.emit diagnostic) where
  declared := (List.append_nil _).symm
  scope := ⟨[], (List.append_nil _).symm, List.Subset.refl _⟩
  quiet := by
    intro silent
    simp [FnCtx.emit] at silent
  clean := by
    intro _ silent
    simp [FnCtx.emit] at silent
  kept := fun _ _ _ _ moved => moved
  mode := fun _ _ _ => rfl

theorem markMoved_walks (ctx : FnCtx) (slot : LocalId) : Walks [] [] ctx (ctx.markMoved slot) where
  declared := (List.append_nil _).symm
  scope := ⟨[], (List.append_nil _).symm, List.Subset.refl _⟩
  quiet := id
  clean := id
  kept := by
    intro other _ _ _ moved
    simp [FnCtx.markMoved, moved]
  mode := fun _ _ _ => rfl

theorem markLive_walks (ctx : FnCtx) (slot : LocalId) :
    Walks [] [slot] ctx (ctx.markLive slot) where
  declared := (List.append_nil _).symm
  scope := ⟨[], (List.append_nil _).symm, List.Subset.refl _⟩
  quiet := id
  clean := id
  kept := by
    intro other _ _ unassigned moved
    have apart : other ≠ slot := by simpa using unassigned
    simp [FnCtx.markLive, apart, moved]
  mode := fun _ _ _ => rfl

theorem declare_walks (ctx : FnCtx) (slot : LocalId) (mode : OwnershipMode) :
    Walks [slot] [] ctx (ctx.declare slot mode) where
  declared := rfl
  scope := ⟨[slot], rfl, List.Subset.refl _⟩
  quiet := id
  clean := id
  kept := by
    intro other _ fresh _ moved
    have apart : other ≠ slot := by simpa using fresh
    simp [FnCtx.declare, apart, moved]
  mode := by
    intro other _ fresh
    have apart : other ≠ slot := by simpa using fresh
    simp [FnCtx.declare, apart]

theorem declareAll_walks (slots : List LocalId) (ctx : FnCtx) :
    Walks slots [] ctx (slots.foldl (fun ctx slot => ctx.declare slot .owned) ctx) := by
  induction slots generalizing ctx with
  | nil => exact Walks.refl ctx
  | cons slot slots ih => exact (declare_walks ctx slot .owned).trans (ih _)

theorem declareHidden_walks (slots : List LocalId) (ctx : FnCtx) :
    Walks slots [] ctx (slots.foldl FnCtx.declareHidden ctx) := by
  induction slots generalizing ctx with
  | nil => exact Walks.refl ctx
  | cons slot slots ih =>
    exact (declare_walks ctx slot .owned).popScope.trans (ih (ctx.declareHidden slot))

theorem checkLocalLive_walks (slot : LocalId) (ctx : FnCtx) :
    Walks [] [] ctx (checkLocalLive slot ctx) := by
  unfold checkLocalLive
  split
  · exact emit_walks ctx _
  · split
    · exact emit_walks ctx _
    · exact Walks.refl ctx

theorem analyzeMove_walks (slot : LocalId) (ctx : FnCtx) :
    Walks [] [] ctx (analyzeMove slot ctx) := by
  unfold analyzeMove
  split
  · exact emit_walks ctx _
  · split
    · exact emit_walks ctx _
    · split
      · exact emit_walks ctx _
      · exact markMoved_walks ctx slot

theorem analyzeExpr_walks (expr : Expr) (ctx : FnCtx) : Walks [] [] ctx (analyzeExpr expr ctx) := by
  induction expr generalizing ctx with
  | constant => exact Walks.refl ctx
  | name slot => exact checkLocalLive_walks slot ctx
  | move slot => exact analyzeMove_walks slot ctx
  | copy operand ih => exact ih ctx
  | operands first second firstIh secondIh => exact (firstIh ctx).trans (secondIh _)
  | exchanged first second firstIh secondIh => exact (secondIh ctx).trans (firstIh _)
  | shortCircuit first second firstIh secondIh => exact (firstIh ctx).trans (secondIh _)

theorem analyzeIndices_walks (path : List PlaceStep) (ctx : FnCtx) :
    Walks [] [] ctx (analyzeIndices path ctx) := by
  induction path generalizing ctx with
  | nil => exact Walks.refl ctx
  | cons step path ih =>
    cases step with
    | field index => exact ih ctx
    | index value => exact (analyzeExpr_walks value ctx).trans (ih _)

theorem applyBindingMove_walks (aliases : Bool) (value : Expr) (ctx : FnCtx) :
    Walks [] [] ctx (applyBindingMove aliases value ctx) := by
  unfold applyBindingMove
  split
  · split
    · exact markMoved_walks ctx _
    · exact Walks.refl ctx
  · exact Walks.refl ctx

theorem bindingMove_walks (mode : OwnershipMode) (init : Expr) (aliases : Bool) (ctx : FnCtx) :
    Walks [] [] ctx (bindingMove mode init aliases ctx) := by
  cases mode with
  | owned => exact applyBindingMove_walks aliases init ctx
  | move => exact applyBindingMove_walks true init ctx
  | _ => exact Walks.refl ctx

theorem resolvePlace_walks (place : Place) (ctx : FnCtx) :
    Walks [] [] ctx (resolvePlace place ctx) := by
  unfold resolvePlace
  split
  · exact analyzeIndices_walks place.path ctx
  · split
    · exact emit_walks ctx _
    · exact emit_walks ctx _

theorem analyzeAssign_walks (place : Place) (compound : Bool) (value : Expr) (aliases : Bool)
    (ctx : FnCtx) :
    Walks [] (if place.path.isEmpty then [place.slot] else []) ctx
      (analyzeAssign place compound value aliases ctx) := by
  have before := (resolvePlace_walks place ctx).trans
    (analyzeExpr_walks (assignedExpr place compound value) (resolvePlace place ctx))
  have bound : Walks [] [] ctx
      (if compound then analyzeExpr (assignedExpr place compound value) (resolvePlace place ctx)
        else applyBindingMove aliases value
          (analyzeExpr (assignedExpr place compound value) (resolvePlace place ctx))) := by
    split
    · exact before
    · exact before.trans (applyBindingMove_walks aliases value _)
  unfold analyzeAssign
  dsimp only
  cases place.resolves ctx with
  | false =>
    rw [if_neg Bool.false_ne_true]
    exact Walks.assigns before _
  | true =>
    rw [if_pos rfl]
    cases place.path.isEmpty with
    | false => exact bound
    | true => exact bound.trans (markLive_walks _ place.slot)

/-! ## Branches -/

namespace BranchMoves

def Keeps (branch : BranchMoves) (slot : LocalId) : Prop :=
  ∀ joined, branch.joined = some joined → slot ∈ joined.declared ∧ joined.moved slot = true

def Joins (branch : BranchMoves) (slot : LocalId) : Prop :=
  ∃ joined, branch.joined = some joined ∧ slot ∈ joined.declared ∧ joined.moved slot = true

/-- The states that reach the join know the locals of the branch point. -/
def Wide (branch : BranchMoves) : Prop :=
  ∀ joined, branch.joined = some joined → branch.before.declared ⊆ joined.declared

variable {branch : BranchMoves} {slot : LocalId} {diverges exhaustive : Bool}

theorem leaveArm_before : (branch.leaveArm ctx diverges).before = branch.before := by
  unfold leaveArm
  split
  · rfl
  · split <;> rfl

theorem leaveArm_keeps (kept : branch.Keeps slot) (declared : slot ∈ ctx.declared)
    (moved : ctx.moved slot = true) : (branch.leaveArm ctx diverges).Keeps slot := by
  unfold leaveArm
  split
  · exact kept
  · split
    · rintro joined same
      cases same
      exact ⟨declared, moved⟩
    · rename_i joined found
      rintro other same
      cases same
      rcases kept joined found with ⟨listed, holds⟩
      exact ⟨listed, by simp [holds]⟩

theorem leaveArm_joins (wide : branch.Wide) (listed : slot ∈ branch.before.declared)
    (declared : slot ∈ ctx.declared) (moved : ctx.moved slot = true) :
    (branch.leaveArm ctx false).Joins slot := by
  unfold leaveArm
  rw [if_neg Bool.false_ne_true]
  split
  · exact ⟨_, rfl, declared, moved⟩
  · rename_i joined found
    refine ⟨_, rfl, wide joined found listed, ?_⟩
    simp [wide joined found listed, moved]

theorem Joins.leaveArm (joins : branch.Joins slot) (ctx : FnCtx) (diverges : Bool) :
    (branch.leaveArm ctx diverges).Joins slot := by
  rcases joins with ⟨joined, found, listed, moved⟩
  unfold BranchMoves.leaveArm
  split
  · exact ⟨joined, found, listed, moved⟩
  · rw [found]
    exact ⟨_, rfl, listed, by simp [moved]⟩

theorem leaveArm_wide (wide : branch.Wide) (declared : branch.before.declared ⊆ ctx.declared) :
    (branch.leaveArm ctx diverges).Wide := by
  unfold leaveArm
  split
  · exact wide
  · split
    · rintro joined same
      cases same
      exact declared
    · rename_i joined found
      rintro other same
      cases same
      exact wide joined found

theorem finish_extends {start : FnCtx} (extended : Extends locals start ctx)
    (branch : BranchMoves) (exhaustive : Bool) :
    Extends locals start (branch.finish ctx exhaustive) := by
  unfold finish
  split
  · exact extended.moves _
  · split
    · exact extended.moves _
    · exact (extended.moves _).moves _

theorem finish_joins (joins : branch.Joins slot) (ctx : FnCtx) (exhaustive : Bool) :
    (branch.finish ctx exhaustive).moved slot = true := by
  rcases joins with ⟨joined, found, listed, moved⟩
  unfold finish
  rw [found]
  cases exhaustive <;> simp [FnCtx.resetMoves, FnCtx.unionMoves, listed, moved]

theorem finish_keeps (kept : branch.Keeps slot) (listed : slot ∈ branch.before.declared)
    (moved : branch.before.moved slot = true) (ctx : FnCtx) (exhaustive : Bool) :
    (branch.finish ctx exhaustive).moved slot = true := by
  cases found : branch.joined with
  | none =>
    unfold finish
    rw [found]
    simp [FnCtx.resetMoves, listed, moved]
  | some joined => exact finish_joins ⟨joined, found, kept joined found⟩ ctx exhaustive

/-- Without an arm for every case, the state before the branch reaches its end. -/
theorem finish_before (listed : slot ∈ branch.before.declared)
    (moved : branch.before.moved slot = true) (ctx : FnCtx) :
    (branch.finish ctx false).moved slot = true := by
  unfold finish
  split <;> simp [FnCtx.resetMoves, FnCtx.unionMoves, listed, moved]

theorem enterArm_extends (branch : BranchMoves) (ctx : FnCtx) :
    Extends [] ctx (branch.enterArm ctx) :=
  (Extends.refl ctx).moves _

theorem start_keeps (ctx : FnCtx) (slot : LocalId) : (start ctx).Keeps slot := by
  intro joined found
  cases found

theorem start_wide (ctx : FnCtx) : (start ctx).Wide := by
  intro joined found
  cases found

theorem finish_walks {start : FnCtx} (extended : Extends locals start ctx)
    (exhaustive : Bool)
    (kept : ∀ slot ∈ start.declared, slot ∉ locals → slot ∉ assigned → start.moved slot = true →
      branch.Keeps slot ∧ slot ∈ branch.before.declared ∧ branch.before.moved slot = true) :
    Walks locals assigned start (branch.finish ctx exhaustive) where
  toExtends := finish_extends extended branch exhaustive
  kept := by
    intro slot listed fresh unassigned moved
    rcases kept slot listed fresh unassigned moved with ⟨keeps, known, gone⟩
    exact finish_keeps keeps known gone ctx exhaustive

end BranchMoves

/-! ## The back edge -/

theorem reportLoopMoves_walks (slots : List LocalId) (ctx : FnCtx) :
    Walks [] [] ctx (slots.foldl reportLoopMove ctx) := by
  induction slots generalizing ctx with
  | nil => exact Walks.refl ctx
  | cons slot slots ih =>
    have reported : Walks [] [] ctx (reportLoopMove ctx slot) := by
      have emitted := emit_walks ctx (.movedInsideLoop slot)
      refine { emitted with clean := ?_ }
      intro _ silent
      simp [reportLoopMove, FnCtx.emit, FnCtx.markLoopMoveReported] at silent
    exact reported.trans (ih _)

theorem checkLoopBackEdge_walks (ctx : FnCtx) (before : MovedState) (exits : Bool) :
    Walks [] [] ctx (checkLoopBackEdge ctx before exits) := by
  unfold checkLoopBackEdge
  split
  · exact Walks.refl ctx
  · exact reportLoopMoves_walks _ ctx

theorem checkLoopBackEdge_accepted {before : MovedState} {exits : Bool}
    (accepted : (checkLoopBackEdge ctx before exits).diagnostics = []) :
    checkLoopBackEdge ctx before exits = ctx ∧
      (exits = false → ctx.movesAcross before = []) := by
  unfold checkLoopBackEdge at accepted ⊢
  cases exits with
  | true => exact ⟨rfl, fun impossible => Bool.noConfusion impossible⟩
  | false =>
    rw [if_neg Bool.false_ne_true] at accepted ⊢
    cases crossed : ctx.movesAcross before with
    | nil => exact ⟨rfl, fun _ => rfl⟩
    | cons slot slots =>
      rw [crossed] at accepted
      have early := (reportLoopMoves_walks slots (reportLoopMove ctx slot)).quiet accepted
      simp [reportLoopMove, FnCtx.emit, FnCtx.markLoopMoveReported] at early

/-! ## Statements -/

theorem analyzeArms_before : ∀ (arms : Arms) (branch : BranchMoves) (ctx : FnCtx),
    (analyzeArms arms branch ctx).1.before = branch.before
  | .nil, _, _ => rfl
  | .cons _ _ rest, branch, _ => by
    rw [analyzeArms, analyzeArms_before rest, BranchMoves.leaveArm_before]

theorem analyzeArms_joins : ∀ (arms : Arms) (branch : BranchMoves) (ctx : FnCtx) {slot : LocalId},
    branch.Joins slot → (analyzeArms arms branch ctx).1.Joins slot
  | .nil, _, _, _, joins => joins
  | .cons _ _ rest, _, _, _, joins => analyzeArms_joins rest _ _ (joins.leaveArm _ _)

mutual

theorem analyzeStmt_walks : ∀ (stmt : Stmt) (ctx : FnCtx),
    Walks stmt.locals stmt.assigned ctx (analyzeStmt stmt ctx)
  | .bind slot mode init aliases, ctx =>
    ((analyzeExpr_walks init ctx).trans (bindingMove_walks mode init aliases _)).trans
      (declare_walks _ slot mode)
  | .assign place compound value aliases, ctx =>
    analyzeAssign_walks place compound value aliases ctx
  | .return_ none, ctx => Walks.refl ctx
  | .return_ (some value), ctx => analyzeExpr_walks value ctx
  | .expr expr, ctx => analyzeExpr_walks expr ctx
  | .ifThen cond thenBlock, ctx => by
    have tested := analyzeExpr_walks cond ctx
    have taken := (tested.trans (analyzeStmts_walks thenBlock _)).popScope
    apply BranchMoves.finish_walks
    · exact taken.toExtends.moves _
    · intro slot listed fresh unassigned moved
      rw [BranchMoves.leaveArm_before]
      refine ⟨?_, tested.mem_declared listed, ?_⟩
      · exact BranchMoves.leaveArm_keeps (BranchMoves.start_keeps _ slot)
          (taken.mem_declared listed) (taken.kept slot listed fresh unassigned moved)
      · exact tested.kept slot listed List.not_mem_nil List.not_mem_nil moved
  | .ifElse cond thenBlock elseBlock, ctx => by
    have tested := analyzeExpr_walks cond ctx
    have taken := (tested.trans (analyzeStmts_walks thenBlock _)).popScope
    -- the other arm starts from the state before the branch
    let branch := (BranchMoves.start (analyzeExpr cond ctx)).leaveArm
      ((analyzeStmts thenBlock (analyzeExpr cond ctx)).popScope ctx.scope)
      thenBlock.definitelyReturns
    have other := analyzeStmts_walks elseBlock (branch.enterArm
      ((analyzeStmts thenBlock (analyzeExpr cond ctx)).popScope ctx.scope))
    have both := ((taken.toExtends.trans (branch.enterArm_extends _)).trans
      other.toExtends).popScope
    rw [List.append_nil] at both
    apply BranchMoves.finish_walks both
    intro slot listed fresh unassigned moved
    have freshBoth := not_or.mp (mt List.mem_append.mpr fresh)
    have unassignedBoth := not_or.mp (mt List.mem_append.mpr unassigned)
    have gone := tested.kept slot listed List.not_mem_nil List.not_mem_nil moved
    have known : slot ∈ branch.before.declared := by
      rw [BranchMoves.leaveArm_before]
      exact tested.mem_declared listed
    have goneBefore : branch.before.moved slot = true := by
      rw [BranchMoves.leaveArm_before]
      exact gone
    rw [BranchMoves.leaveArm_before]
    refine ⟨?_, known, goneBefore⟩
    apply BranchMoves.leaveArm_keeps
    · exact BranchMoves.leaveArm_keeps (BranchMoves.start_keeps _ slot)
        (taken.mem_declared listed)
        (taken.kept slot listed freshBoth.1 unassignedBoth.1 moved)
    · exact both.mem_declared listed
    · apply other.kept slot (taken.mem_declared listed) freshBoth.2 unassignedBoth.2
      simp [BranchMoves.enterArm, FnCtx.resetMoves, known, goneBefore]
  | .while_ cond body, ctx => by
    have turned := (analyzeExpr_walks cond ctx).trans (analyzeStmts_walks body _)
    exact turned.popScope.andThen (checkLoopBackEdge_walks _ _ _)
  | .for_ iterable hidden name body, ctx => by
    have head := (analyzeExpr_walks iterable ctx).trans (declareHidden_walks hidden _)
    have turned := head.trans
      ((declare_walks _ name .owned).trans (analyzeStmts_walks body _))
    exact turned.popScope.andThen (checkLoopBackEdge_walks _ _ _)
  | .match_ subject hidden exhaustive arms, ctx => by
    have head := (analyzeExpr_walks subject ctx).trans (declareHidden_walks hidden _)
    let start := hidden.foldl FnCtx.declareHidden (analyzeExpr subject ctx)
    have walked := analyzeArms_extends arms (BranchMoves.start start) start
    apply BranchMoves.finish_walks (head.toExtends.trans walked)
    intro slot listed fresh unassigned moved
    have freshBoth := not_or.mp (mt List.mem_append.mpr fresh)
    have gone := head.kept slot listed freshBoth.1 List.not_mem_nil moved
    rw [analyzeArms_before]
    exact ⟨analyzeArms_keeps arms (BranchMoves.start start) start (List.Subset.refl _)
        (head.mem_declared listed) gone freshBoth.2 unassigned
        (BranchMoves.start_keeps _ slot), head.mem_declared listed, gone⟩
  | .attempt steps, ctx => (analyzeSteps_walks steps ctx).popScope
  | .break_, ctx => Walks.refl ctx
  | .continue_, ctx => Walks.refl ctx

theorem analyzeStmts_walks : ∀ (block : Block) (ctx : FnCtx),
    Walks block.locals block.assigned ctx (analyzeStmts block ctx)
  | .nil, ctx => Walks.refl ctx
  | .cons head tail, ctx => (analyzeStmt_walks head ctx).trans (analyzeStmts_walks tail _)

theorem analyzeArms_extends : ∀ (arms : Arms) (branch : BranchMoves) (ctx : FnCtx),
    Extends arms.locals ctx (analyzeArms arms branch ctx).2
  | .nil, _, ctx => Extends.refl ctx
  | .cons bindings body rest, branch, ctx => by
    have taken := ((declareAll_walks bindings (branch.enterArm ctx)).trans
      (analyzeStmts_walks body _)).popScope
    exact ((branch.enterArm_extends ctx).trans taken.toExtends).trans
      (analyzeArms_extends rest _ _)

theorem analyzeArms_keeps : ∀ (arms : Arms) (branch : BranchMoves) (ctx : FnCtx)
    {slot : LocalId}, branch.before.declared ⊆ ctx.declared → slot ∈ branch.before.declared →
    branch.before.moved slot = true → slot ∉ arms.locals → slot ∉ arms.assigned →
    branch.Keeps slot → (analyzeArms arms branch ctx).1.Keeps slot
  | .nil, _, _, _, _, _, _, _, _, kept => kept
  | .cons bindings body rest, branch, ctx, slot, inside, listed, moved, fresh, unassigned, kept => by
    have freshBoth := not_or.mp (mt List.mem_append.mpr fresh)
    have unassignedBoth := not_or.mp (mt List.mem_append.mpr unassigned)
    have taken := ((declareAll_walks bindings (branch.enterArm ctx)).trans
      (analyzeStmts_walks body _)).popScope
    have gone := taken.kept slot (inside listed) freshBoth.1 unassignedBoth.1
      (by simp [BranchMoves.enterArm, FnCtx.resetMoves, listed, moved])
    apply analyzeArms_keeps rest
    · rw [BranchMoves.leaveArm_before]
      exact fun other known => taken.mem_declared (inside known)
    · rw [BranchMoves.leaveArm_before]
      exact listed
    · rw [BranchMoves.leaveArm_before]
      exact moved
    · exact freshBoth.2
    · exact unassignedBoth.2
    · exact BranchMoves.leaveArm_keeps kept (taken.mem_declared (inside listed)) gone

theorem analyzeHandlers_walks : ∀ (arms : Arms) (ctx : FnCtx),
    Walks arms.locals arms.assigned ctx (analyzeHandlers arms ctx)
  | .nil, ctx => Walks.refl ctx
  | .cons bindings body rest, ctx =>
    ((declareAll_walks bindings ctx).trans (analyzeStmts_walks body _)).popScope.trans
      (analyzeHandlers_walks rest _)

theorem analyzeSteps_walks : ∀ (steps : Steps) (ctx : FnCtx),
    Walks steps.locals steps.assigned ctx (analyzeSteps steps ctx)
  | .trailing stmts, ctx => analyzeStmts_walks stmts ctx
  | .step setup operand hidden handlers binding rest, ctx => by
    have tried := ((analyzeStmts_walks setup ctx).andThen (analyzeExpr_walks operand _)).trans
      (declareHidden_walks hidden _)
    have handled := tried.trans (analyzeHandlers_walks handlers _)
    have walked := handled.trans
      ((declare_walks _ binding .owned).trans (analyzeSteps_walks rest _))
    simpa [Steps.locals, Steps.assigned, analyzeSteps] using walked

end

end MoveChecker

end KiraVm
