import KiraVm.MoveCovering

/-!
# Soundness of the move checker

What holds of expressions and loops holds of every statement: the checker knows of
every local in scope that has been moved, as long as the path keeps to the ways it
walks.  So a path through a body that is accepted touches a moved local only after a
step that left those ways.
-/

namespace KiraVm

open StateLogic

namespace MoveChecker

/-- A state in which code with these declarations can be walked. -/
structure Prepared (ctx : FnCtx) (locals : List LocalId) : Prop where
  closed : ctx.Closed
  clean : ctx.Clean
  distinct : (ctx.declared ++ locals).Nodup

variable {known : Prop} {ctx middle after : FnCtx} {scope : List LocalId} {α : Type}
  {locals moreLocals assigned : List LocalId}

theorem Prepared.first (prepared : Prepared ctx (locals ++ moreLocals)) : Prepared ctx locals where
  closed := prepared.closed
  clean := prepared.clean
  distinct := by
    have distinct := prepared.distinct
    rw [← List.append_assoc] at distinct
    exact (List.nodup_append.mp distinct).1

theorem Prepared.later (prepared : Prepared ctx (locals ++ moreLocals))
    (extended : Extends locals ctx middle) : Prepared middle moreLocals where
  closed := extended.closed prepared.closed
  clean := extended.clean prepared.clean
  distinct := by
    rw [extended.declared, List.append_assoc]
    exact prepared.distinct

/-- After code that declares nothing. -/
theorem Prepared.head (prepared : Prepared ctx locals) (extended : Extends [] ctx middle) :
    Prepared middle locals :=
  @Prepared.later _ _ [] _ prepared extended

theorem Prepared.fresh (prepared : Prepared ctx locals) (inside : scope ⊆ ctx.declared) :
    ∀ slot ∈ scope, slot ∉ locals := by
  intro slot named declared
  exact (List.nodup_append.mp prepared.distinct).2.2 slot (inside named) slot declared rfl

/-! ## Scopes -/

variable {path : Path} {final : FnCtx} {exit : Exit}

/-- A state that knows of as many moves. -/
theorem Covers.regard (covers : Covers known ctx scope path)
    (moved : ∀ slot ∈ scope, ctx.moved slot = true → final.moved slot = true)
    (mode : ∀ slot ∈ scope, final.mode slot = ctx.mode slot) : Covers known final scope path where
  honest := covers.honest
  known := covers.known
  mode := by
    intro slot named
    rw [mode slot named]
    exact covers.mode slot named
  moved := fun met slot named gone => moved slot named (covers.moved met slot named gone)

theorem Tracks.narrow {less : List LocalId} (tracks : Tracks known ctx scope path)
    (fewer : less ⊆ scope) : Tracks known ctx less path where
  honest := tracks.honest
  known := tracks.known
  mode := fun slot named => tracks.mode slot (fewer named)

theorem Tracks.regard (tracks : Tracks known ctx scope path)
    (mode : ∀ slot ∈ scope, final.mode slot = ctx.mode slot) : Tracks known final scope path where
  honest := tracks.honest
  known := tracks.known
  mode := by
    intro slot named
    rw [mode slot named]
    exact tracks.mode slot named

/-- The statements of a block, once its scope is left. -/
theorem ended_turned (ended : Ended known ctx after exit path)
    (extended : Extends locals ctx after) (fewer : scope ⊆ ctx.scope) :
    Turned known (after.popScope scope) scope exit path := by
  have wider : scope ⊆ after.scope := by
    rcases extended.scope with ⟨more, named, _⟩
    rw [named]
    exact List.subset_append_of_subset_left _ fewer
  cases exit with
  | normal => exact (ended.narrow wider).regard (fun _ _ gone => gone) fun _ _ => rfl
  | broke => exact (ended.narrow fewer).regard (fun _ _ gone => gone) fun _ _ => rfl
  | continued => exact (ended.narrow fewer).regard fun _ _ => rfl
  | returned => exact ended

theorem turned_ended (turned : Turned known after ctx.scope exit path)
    (same : after.scope = ctx.scope) : Ended known ctx after exit path := by
  cases exit with
  | normal =>
    change Covers known after after.scope path
    rw [same]
    exact turned
  | broke => exact turned
  | continued => exact turned
  | returned => exact turned

theorem Turned.narrow {less : List LocalId} (turned : Turned known after scope exit path)
    (fewer : less ⊆ scope) : Turned known after less exit path := by
  cases exit with
  | normal => exact Covers.narrow turned fewer
  | broke => exact Covers.narrow turned fewer
  | continued => exact Tracks.narrow turned fewer
  | returned => exact turned

/-- Looser knowledge of where code ends. -/
theorem Turned.regard (turned : Turned known after scope exit path)
    (moved : ∀ slot ∈ scope, after.moved slot = true → final.moved slot = true)
    (mode : ∀ slot ∈ scope, final.mode slot = after.mode slot) :
    Turned known final scope exit path := by
  cases exit with
  | normal => exact Covers.regard turned moved mode
  | broke => exact Covers.regard turned moved mode
  | continued => exact Tracks.regard turned mode
  | returned => exact turned

theorem arm_turned {pre : Path → Prop} {operation : OnPath Exit} {judged : Bool}
    (runs : Meets pre operation (Turned known after scope) Cut)
    (leaves : judged = true → Leaves operation)
    (moved : judged = false → ∀ slot ∈ scope, after.moved slot = true → final.moved slot = true)
    (mode : ∀ slot ∈ scope, final.mode slot = after.mode slot) :
    Meets pre
      (do
        let exit ← operation
        leaveArm judged exit)
      (Turned known final scope) Cut := by
  cases judged with
  | false =>
    apply runs.bind
    intro exit path turned
    exact turned.regard (moved rfl) mode
  | true =>
    have both : Meets pre operation
        (fun exit path => Turned known after scope exit path ∧ exit ≠ .normal) Cut := by
      apply (runs.both (leaves rfl)).weaken
      · exact fun _ holds => ⟨holds, trivial⟩
      · exact fun _ _ ended => ended
      · exact fun _ _ stopped => stopped.1
    apply both.bind
    rintro exit path ⟨turned, apart⟩
    cases exit with
    | normal => exact absurd rfl apart
    | broke =>
      have never : ¬ Met (path.log ++ [.leftReturning]) := by
        intro met
        have covered := met _ (List.mem_append_right _ (List.mem_singleton_self _))
        cases covered
      have tracks := turned.toTracks.regard mode
      exact ⟨⟨tracks.honest.append fun _ => rfl, fun met => absurd met never, tracks.mode⟩,
        fun met => absurd met never⟩
    | continued => exact Tracks.regard turned mode
    | returned => exact turned

theorem declareAll_covers (slots : List LocalId) :
    Meets (Covers known ctx scope) (declareAll slots)
      (fun _ => Covers known (slots.foldl (fun ctx slot => ctx.declare slot .owned) ctx)
        (scope ++ slots)) Cut := by
  induction slots generalizing ctx scope with
  | nil =>
    rw [List.append_nil]
    exact fun _ covers => covers
  | cons slot slots ih =>
    rw [List.append_cons]
    exact (declareLocal_covers slot .owned).bind fun _ => ih

theorem declareAll_scope (slots : List LocalId) (ctx : FnCtx) :
    (slots.foldl (fun ctx slot => ctx.declare slot .owned) ctx).scope = ctx.scope ++ slots := by
  induction slots generalizing ctx with
  | nil => exact (List.append_nil _).symm
  | cons slot slots ih =>
    rw [List.foldl_cons, ih]
    exact (List.append_cons _ _ _).symm

theorem analyzeHandlers_scope (arms : Arms) (ctx : FnCtx) :
    (analyzeHandlers arms ctx).scope = ctx.scope := by
  cases arms with
  | nil => rfl
  | cons bindings body rest => exact analyzeHandlers_scope rest _

theorem BranchMoves.finish_mode (branch : BranchMoves) (ctx : FnCtx) (exhaustive : Bool) :
    (branch.finish ctx exhaustive).mode = ctx.mode := by
  unfold finish
  split
  · rfl
  · split <;> rfl

theorem BranchMoves.finish_diagnostics (branch : BranchMoves) (ctx : FnCtx) (exhaustive : Bool) :
    (branch.finish ctx exhaustive).diagnostics = ctx.diagnostics := by
  unfold finish
  split
  · rfl
  · split <;> rfl

theorem BranchMoves.finish_scope (branch : BranchMoves) (ctx : FnCtx) (exhaustive : Bool) :
    (branch.finish ctx exhaustive).scope = ctx.scope := by
  unfold finish
  split
  · rfl
  · split <;> rfl

/-! ## Back edges -/

theorem back_edge {before : FnCtx} (clean : ctx.Clean) (silent : ctx.diagnostics = [])
    (crossed : ctx.movesAcross before.movedState = []) (inside : scope ⊆ before.declared) :
    ∀ slot ∈ scope, ctx.moved slot = true → before.moved slot = true := by
  intro slot named moved
  have unlisted : slot ∉ ctx.movesAcross before.movedState := by
    rw [crossed]
    exact List.not_mem_nil
  rw [FnCtx.movesAcross, List.mem_filter] at unlisted
  simp only [clean silent slot, moved, Bool.not_false, Bool.and_true, Bool.not_eq_true',
    not_and, FnCtx.movedState] at unlisted
  simpa using unlisted (inside named)

theorem left_ended (left : Left known after ctx.scope exit path) (same : after.scope = ctx.scope) :
    Ended known ctx after exit path := by
  cases exit with
  | normal =>
    change Covers known after after.scope path
    rw [same]
    exact left
  | broke => exact left.elim
  | continued => exact left.elim
  | returned => exact left

/-! ## Statements -/

section Run

variable (fuel : Nat)

/-- A condition that moves nothing leaves the state as it is, also where less is moved. -/
theorem analyzeExpr_unmoving {expr : Expr} (other : FnCtx) (unmoving : expr.moves = [])
    (accepted : (analyzeExpr expr ctx).diagnostics = []) (sameScope : other.scope = ctx.scope)
    (fewer : ∀ slot ∈ ctx.scope, other.moved slot = true → ctx.moved slot = true) :
    analyzeExpr expr other = other := by
  have steady := expr.steady ctx other accepted
    ⟨sameScope, by simp [unmoving], fun slot _ => fewer slot⟩
  rw [steady, unmoving, FnCtx.moveAll_nil]

theorem repeated_uncovered {moves : List LocalId} (some : moves ≠ []) :
    (PathEvent.repeated moves).covered = false := by
  cases moves with
  | nil => exact absurd rfl some
  | cons slot moves => rfl

/-- What holds before the condition of a `while` is evaluated again. -/
def WhileReady (cond : Expr) (ctx after : FnCtx) (known : Prop) (path : Path) : Prop :=
  if cond.moves = [] then Covers known after ctx.scope path else Covers False ctx ctx.scope path

theorem while_parts (cond : Expr) (body : Block) (prepared : Prepared ctx body.locals)
    (accepted : (analyzeStmt (.while_ cond body) ctx).diagnostics = [])
    (turns : ∀ known, Meets (Covers known (analyzeExpr cond ctx) ctx.scope) (runStmts fuel body)
      (Turned known ((analyzeStmts body (analyzeExpr cond ctx)).popScope ctx.scope) ctx.scope)
      Cut) :
    LoopParts ctx.scope body.locals body.locals body.assigned ctx (analyzeExpr cond ctx)
      ((analyzeStmts body (analyzeExpr cond ctx)).popScope ctx.scope) body.alwaysExitsLoop
      (WhileReady cond ctx ((analyzeStmts body (analyzeExpr cond ctx)).popScope ctx.scope))
      (do
        evalExpr cond
        choose)
      (record (.repeated cond.moves)) (runStmts fuel body) := by
  have tested := analyzeExpr_walks cond ctx
  have walked := analyzeStmts_walks body (analyzeExpr cond ctx)
  have whole := (tested.trans walked).popScope
  rcases checkLoopBackEdge_accepted accepted with ⟨same, crossed⟩
  have silent : (analyzeStmts body (analyzeExpr cond ctx)).diagnostics = [] := by
    have ended : (checkLoopBackEdge ((analyzeStmts body (analyzeExpr cond ctx)).popScope ctx.scope)
      (analyzeExpr cond ctx).movedState body.alwaysExitsLoop).diagnostics = [] := accepted
    rw [same] at ended
    exact ended
  have condAccepted := walked.quiet silent
  have modeHead : ∀ slot ∈ ctx.scope, (analyzeExpr cond ctx).mode slot = ctx.mode slot :=
    fun slot named => tested.mode slot (prepared.closed named) List.not_mem_nil
  have modeAfter : ∀ slot ∈ ctx.scope,
      ((analyzeStmts body (analyzeExpr cond ctx)).popScope ctx.scope).mode slot = ctx.mode slot :=
    fun slot named => whole.mode slot (prepared.closed named)
      (prepared.fresh prepared.closed slot named)
  have tests : ∀ known, Meets (Covers known ctx ctx.scope)
      (do
        evalExpr cond
        choose)
      (fun _ => Covers known (analyzeExpr cond ctx) ctx.scope) Cut := fun known =>
    (evalExpr_covers cond prepared.closed condAccepted).bind fun _ => choose_covers
  have closedHead : ctx.scope ⊆ (analyzeExpr cond ctx).declared := by
    rw [tested.declared_eq]
    exact prepared.closed
  refine
    { walk := ?walk
      closed := closedHead
      fresh := prepared.fresh prepared.closed
      outside := prepared.fresh prepared.closed
      honest := ?honest
      tests := tests
      retests := ?retests
      completes := ?completes
      restarts := ?restarts
      turns := turns
      leaves := runStmts_leaves fuel body }
  case walk =>
    rw [← tested.scope_eq]
    exact walked.popScope
  case honest =>
    intro known path ready
    unfold WhileReady at ready
    split at ready
    · exact ready.honest
    · exact ready.honest
  case retests =>
    intro unjudged known
    unfold WhileReady
    by_cases unmoving : cond.moves = []
    · simp only [unmoving, if_true]
      have edge := back_edge (whole.clean prepared.clean) silent (crossed unjudged) closedHead
      have still := analyzeExpr_unmoving
        ((analyzeStmts body (analyzeExpr cond ctx)).popScope ctx.scope) unmoving condAccepted rfl
        (by
          intro slot named gone
          have back := edge slot named gone
          rw [analyzeExpr_unmoving ctx unmoving condAccepted rfl fun _ _ moved => moved] at back
          exact back)
      have again := @evalExpr_covers known _ cond (whole.closed prepared.closed) (by
        rw [still]
        exact silent)
      rw [still] at again
      apply again.bind
      intro _
      apply choose_covers.weaken
      · exact fun _ covers => covers
      · intro taken path covers
        cases taken with
        | true =>
          apply covers.regard edge
          intro slot named
          rw [modeHead slot named, modeAfter slot named]
        | false => exact covers
      · exact fun _ _ stopped => stopped
    · simp only [unmoving, if_false]
      apply (tests False).weaken
      · exact fun _ covers => covers
      · intro taken path covers
        cases taken with
        | true => exact covers.knows fun _ impossible => impossible.elim
        | false =>
          apply covers.lost
          intro slot named
          rw [if_neg Bool.false_ne_true, modeAfter slot named, modeHead slot named]
      · exact fun _ _ stopped => stopped
  case completes =>
    intro _ known
    unfold WhileReady
    by_cases unmoving : cond.moves = []
    · simp only [unmoving, if_true]
      exact record_covers rfl
    · simp only [unmoving, if_false]
      intro path covers
      have lost := record_lost rfl (repeated_uncovered unmoving) path covers
      exact lost.lost fun slot named => (modeAfter slot named).symm
  case restarts =>
    intro known
    by_cases unmoving : cond.moves = []
    · have still := analyzeExpr_unmoving ctx unmoving condAccepted rfl fun _ _ moved => moved
      rw [still]
      exact record_covers rfl
    · intro path covers
      have lost := record_lost rfl (repeated_uncovered unmoving) path covers
      exact lost.lost fun slot named => (modeHead slot named).symm

theorem for_parts {head : FnCtx} (name : LocalId) (body : Block)
    (prepared : Prepared head (name :: body.locals))
    (accepted : (checkLoopBackEdge
      ((analyzeStmts body (head.declare name .owned)).popScope head.scope)
      head.movedState body.alwaysExitsLoop).diagnostics = [])
    (turns : ∀ known, Meets (Covers known head head.scope)
      (do
        declareLocal name .owned
        runStmts fuel body)
      (Turned known ((analyzeStmts body (head.declare name .owned)).popScope head.scope) head.scope)
      Cut) :
    LoopParts head.scope (name :: body.locals) (name :: body.locals) body.assigned head head
      ((analyzeStmts body (head.declare name .owned)).popScope head.scope) body.alwaysExitsLoop
      (fun known => Covers known
        ((analyzeStmts body (head.declare name .owned)).popScope head.scope) head.scope)
      choose (pure ())
      (do
        declareLocal name .owned
        runStmts fuel body) := by
  have walked := ((declare_walks head name .owned).trans (analyzeStmts_walks body _)).popScope
  rcases checkLoopBackEdge_accepted accepted with ⟨same, crossed⟩
  have silent := accepted
  rw [same] at silent
  refine
    { walk := walked
      closed := prepared.closed
      fresh := prepared.fresh prepared.closed
      outside := prepared.fresh prepared.closed
      honest := fun _ _ ready => ready.honest
      tests := fun _ => choose_covers
      retests := ?retests
      completes := fun _ _ _ covers => covers
      restarts := fun _ _ covers => covers
      turns := turns
      leaves := ?leaves }
  case retests =>
    intro unjudged known
    have edge := back_edge (walked.clean prepared.clean) silent (crossed unjudged) prepared.closed
    apply choose_covers.weaken
    · exact fun _ covers => covers
    · intro taken path covers
      cases taken with
      | true =>
        apply covers.regard edge
        intro slot named
        exact (walked.mode slot (prepared.closed named)
          (prepared.fresh prepared.closed slot named)).symm
      | false => exact covers
    · exact fun _ _ stopped => stopped
  case leaves =>
    intro exits
    exact Leaves.of_bind fun _ => runStmts_leaves fuel body exits

theorem block_turned {block : Block}
    (runs : Meets (Covers known middle middle.scope) (runStmts fuel block)
      (Ended known middle (analyzeStmts block middle)) Cut) (fewer : scope ⊆ middle.scope) :
    Meets (Covers known middle middle.scope) (runStmts fuel block)
      (Turned known ((analyzeStmts block middle).popScope scope) scope) Cut := by
  apply runs.weaken
  · exact fun _ covers => covers
  · exact fun _ _ ended => ended_turned ended (analyzeStmts_walks block middle).toExtends fewer
  · exact fun _ _ stopped => stopped

/-- A statement whose scope is its own. -/
theorem Meets.ended {operation : OnPath Exit} (same : after.scope = ctx.scope)
    (runs : Meets (Covers known ctx ctx.scope) operation (Turned known after ctx.scope) Cut) :
    Meets (Covers known ctx ctx.scope) operation (Ended known ctx after) Cut := by
  apply runs.weaken
  · exact fun _ covers => covers
  · exact fun _ _ turned => turned_ended turned same
  · exact fun _ _ stopped => stopped

theorem enterArm_covers {path : Path} {head : FnCtx} {branch : BranchMoves}
    (covers : Covers known head scope path) (start : branch.before = head.movedState)
    (listed : scope ⊆ head.declared) (mode : ∀ slot ∈ scope, ctx.mode slot = head.mode slot) :
    Covers known (branch.enterArm ctx) scope path := by
  apply covers.regard
  · intro slot named moved
    have known : slot ∈ head.movedState.declared := listed named
    have gone : head.movedState.moved slot = true := moved
    simp [BranchMoves.enterArm, FnCtx.resetMoves, start, known, gone]
  · exact mode

/-- Code that is passed over however the code before it ends. -/
theorem passed_over {pre : Path → Prop} {operation : OnPath Exit}
    (runs : Meets pre operation (Turned known middle scope) Cut)
    (walk : Walks locals assigned middle after) (inside : scope ⊆ middle.declared)
    (fresh : ∀ slot ∈ scope, slot ∉ locals) :
    Meets pre
      (do
        match ← operation with
        | .normal => do
          skip assigned
          pure .normal
        | .broke => do
          skip assigned
          pure .broke
        | exit => pure exit)
      (Turned known after scope) Cut := by
  apply runs.bind
  intro exit
  cases exit with
  | normal =>
    apply (skip_covers walk inside fresh).bind
    exact fun _ _ covers => covers
  | broke =>
    apply (skip_covers walk inside fresh).bind
    exact fun _ _ covers => covers
  | continued =>
    intro path tracks
    exact Tracks.regard tracks fun slot named => walk.mode slot (inside named) (fresh slot named)
  | returned => exact fun _ honest => honest

theorem analyzeArms_scope (arms : Arms) (branch : BranchMoves) (ctx : FnCtx) :
    (analyzeArms arms branch ctx).2.scope = ctx.scope := by
  cases arms with
  | nil => rfl
  | cons bindings body rest => exact analyzeArms_scope rest _ _

theorem declareHidden_scope (slots : List LocalId) (ctx : FnCtx) :
    (slots.foldl FnCtx.declareHidden ctx).scope = ctx.scope := by
  induction slots generalizing ctx with
  | nil => rfl
  | cons slot slots ih => exact ih _

theorem bindings_turned (bindings : List LocalId) (block : Block)
    (runs : Meets
      (Covers known (bindings.foldl (fun ctx slot => ctx.declare slot .owned) ctx)
        (bindings.foldl (fun ctx slot => ctx.declare slot .owned) ctx).scope)
      (runStmts fuel block)
      (Ended known (bindings.foldl (fun ctx slot => ctx.declare slot .owned) ctx)
        (analyzeStmts block (bindings.foldl (fun ctx slot => ctx.declare slot .owned) ctx))) Cut) :
    Meets (Covers known ctx ctx.scope)
      (do
        declareAll bindings
        runStmts fuel block)
      (Turned known
        ((analyzeStmts block (bindings.foldl (fun ctx slot => ctx.declare slot .owned) ctx)).popScope
          ctx.scope) ctx.scope) Cut := by
  apply (declareAll_covers bindings).bind
  intro _
  rw [← declareAll_scope]
  apply block_turned fuel runs
  rw [declareAll_scope]
  exact List.subset_append_left _ _

/-! ## The arms of a branch -/

/-- What is asked of the arms of a branch that starts in one state, and of the state
after it. -/
structure ArmsJoin (arms : Arms) (branch : BranchMoves) (ctx head final : FnCtx) : Prop where
  prepared : Prepared ctx arms.locals
  silent : (analyzeArms arms branch ctx).2.diagnostics = []
  start : branch.before = head.movedState
  wide : branch.Wide
  named : ctx.scope ⊆ head.declared
  inside : head.declared ⊆ ctx.declared
  level : ∀ slot ∈ ctx.scope, ctx.mode slot = head.mode slot
  joins : ∀ slot ∈ ctx.scope, (analyzeArms arms branch ctx).1.Joins slot → final.moved slot = true
  empty : arms = .nil → ∀ slot ∈ ctx.scope, head.moved slot = true → final.moved slot = true
  mode : ∀ slot ∈ ctx.scope, final.mode slot = head.mode slot

namespace ArmsJoin

variable {bindings : List LocalId} {body : Block} {rest : Arms} {branch : BranchMoves}
  {head final : FnCtx} {moreBindings : List LocalId} {more : Block}

/-- The state an arm starts from. -/
def armCtx (bindings : List LocalId) (branch : BranchMoves) (ctx : FnCtx) : FnCtx :=
  bindings.foldl (fun ctx slot => ctx.declare slot .owned) (branch.enterArm ctx)

theorem armWalk (bindings : List LocalId) (body : Block) (branch : BranchMoves) (ctx : FnCtx) :
    Walks (bindings ++ body.locals) body.assigned (branch.enterArm ctx)
      ((analyzeStmts body (armCtx bindings branch ctx)).popScope ctx.scope) :=
  ((declareAll_walks bindings (branch.enterArm ctx)).trans (analyzeStmts_walks body _)).popScope

theorem entered (meets : ArmsJoin (.cons bindings body rest) branch ctx head final) :
    Prepared (armCtx bindings branch ctx) body.locals := by
  have prepared : Prepared ctx ((bindings ++ body.locals) ++ rest.locals) := meets.prepared
  exact (prepared.first.head (branch.enterArm_extends ctx)).later
    (declareAll_walks bindings _).toExtends

theorem bodySilent (meets : ArmsJoin (.cons bindings body rest) branch ctx head final) :
    (analyzeStmts body (armCtx bindings branch ctx)).diagnostics = [] :=
  @Extends.quiet _ ((analyzeStmts body (armCtx bindings branch ctx)).popScope ctx.scope) _
    (analyzeArms_extends rest _ _) meets.silent

theorem left (meets : ArmsJoin (.cons bindings body rest) branch ctx head final) :
    Prepared ((analyzeStmts body (armCtx bindings branch ctx)).popScope ctx.scope) rest.locals := by
  have prepared : Prepared ctx ((bindings ++ body.locals) ++ rest.locals) := meets.prepared
  exact (prepared.head (branch.enterArm_extends ctx)).later (armWalk bindings body branch ctx).toExtends

theorem fresh (meets : ArmsJoin (.cons bindings body rest) branch ctx head final) :
    ∀ slot ∈ ctx.scope, slot ∉ bindings ++ body.locals := by
  have prepared : Prepared ctx ((bindings ++ body.locals) ++ rest.locals) := meets.prepared
  exact prepared.first.fresh prepared.closed

/-- An arm does not change how the locals before it are held. -/
theorem armMode (meets : ArmsJoin (.cons bindings body rest) branch ctx head final) :
    ∀ slot ∈ ctx.scope,
      (analyzeStmts body (armCtx bindings branch ctx)).mode slot = head.mode slot := by
  intro slot named
  have kept := (armWalk bindings body branch ctx).mode slot (meets.inside (meets.named named))
    (meets.fresh slot named)
  exact kept.trans (meets.level slot named)

theorem later
    (meets : ArmsJoin (.cons bindings body (.cons moreBindings more rest)) branch ctx head final) :
    ArmsJoin (.cons moreBindings more rest)
      (branch.leaveArm ((analyzeStmts body (armCtx bindings branch ctx)).popScope ctx.scope)
        body.definitelyReturns)
      ((analyzeStmts body (armCtx bindings branch ctx)).popScope ctx.scope) head final where
  prepared := meets.left
  silent := meets.silent
  start := BranchMoves.leaveArm_before.trans meets.start
  wide := by
    apply BranchMoves.leaveArm_wide meets.wide
    rw [meets.start]
    exact fun slot listed =>
      (armWalk bindings body branch ctx).mem_declared (meets.inside listed)
  named := meets.named
  inside := fun slot listed => (armWalk bindings body branch ctx).mem_declared (meets.inside listed)
  level := meets.armMode
  joins := meets.joins
  empty := fun none => Arms.noConfusion none
  mode := meets.mode

theorem arm_turned (meets : ArmsJoin (.cons bindings body rest) branch ctx head final)
    (runs : Meets (Covers known (armCtx bindings branch ctx) (armCtx bindings branch ctx).scope)
      (runStmts fuel body)
      (Ended known (armCtx bindings branch ctx) (analyzeStmts body (armCtx bindings branch ctx)))
      Cut) :
    Meets (Covers known head ctx.scope)
      (do
        declareAll bindings
        let exit ← runStmts fuel body
        leaveArm body.definitelyReturns exit)
      (Turned known final ctx.scope) Cut := by
  have entered : ∀ path, Covers known head ctx.scope path →
      Covers known (branch.enterArm ctx) ctx.scope path :=
    fun _ covers => enterArm_covers covers meets.start meets.named meets.level
  have wider : ctx.scope ⊆ (armCtx bindings branch ctx).scope := by
    rw [armCtx, declareAll_scope]
    exact List.subset_append_left _ _
  have declares := (@declareAll_covers known (branch.enterArm ctx) ctx.scope bindings).weaken
    entered (fun _ _ covers => covers) fun _ _ stopped => stopped
  apply declares.bind
  intro _
  have same : ctx.scope ++ bindings = (armCtx bindings branch ctx).scope :=
    (declareAll_scope bindings (branch.enterArm ctx)).symm
  rw [same]
  apply MoveChecker.arm_turned (block_turned fuel runs wider)
  · exact fun judged => runStmts_leaves fuel body (body.exits_of_returns judged)
  · intro judged slot named moved
    have joined : (branch.leaveArm
        ((analyzeStmts body (armCtx bindings branch ctx)).popScope ctx.scope)
        body.definitelyReturns).Joins slot := by
      rw [judged]
      apply BranchMoves.leaveArm_joins meets.wide
      · rw [meets.start]
        exact meets.named named
      · exact (armWalk bindings body branch ctx).mem_declared (meets.inside (meets.named named))
      · exact moved
    exact meets.joins slot named (analyzeArms_joins rest _ _ joined)
  · intro slot named
    exact (meets.mode slot named).trans (meets.armMode slot named).symm

end ArmsJoin

mutual

theorem runStmt_ended : ∀ (stmt : Stmt) {ctx : FnCtx} {known : Prop}, Prepared ctx stmt.locals →
    (analyzeStmt stmt ctx).diagnostics = [] →
    Meets (Covers known ctx ctx.scope) (runStmt fuel stmt)
      (Ended known ctx (analyzeStmt stmt ctx)) Cut
  | .bind slot mode init aliases, ctx, known, prepared, accepted => by
    have bound := bindingMove_walks mode init aliases (analyzeExpr init ctx)
    have read := bound.quiet accepted
    have same := bound.scope_eq.trans (analyzeExpr_walks init ctx).scope_eq
    apply (evalExpr_covers init prepared.closed read).bind
    intro _
    apply (consumeBound_covers mode init aliases read).bind
    intro _
    apply (declareLocal_covers slot mode).bind
    intro _ path covers
    rw [← same] at covers
    exact covers
  | .assign place compound value aliases, ctx, known, prepared, accepted => by
    have same := (analyzeAssign_walks place compound value aliases ctx).scope_eq
    apply (runAssign_covers place compound value aliases prepared.closed accepted).bind
    intro _ path covers
    rw [← same] at covers
    exact covers
  | .return_ none, ctx, known, prepared, accepted => fun _ covers => covers.honest
  | .return_ (some value), ctx, known, prepared, accepted => by
    apply (evalExpr_covers value prepared.closed accepted).bind
    exact fun _ _ covers => covers.honest
  | .expr expr, ctx, known, prepared, accepted => by
    have same := (analyzeExpr_walks expr ctx).scope_eq
    apply (evalExpr_covers expr prepared.closed accepted).bind
    intro _ path covers
    rw [← same] at covers
    exact covers
  | .ifThen cond thenBlock, ctx, known, prepared, accepted => by
    have tested := analyzeExpr_walks cond ctx
    have walked := analyzeStmts_walks thenBlock (analyzeExpr cond ctx)
    have taken := (tested.trans walked).popScope
    have silent : (analyzeStmts thenBlock (analyzeExpr cond ctx)).diagnostics = [] := by
      have ended := accepted
      simp only [analyzeStmt, BranchMoves.finish_diagnostics] at ended
      exact ended
    have inside : ctx.scope ⊆ (analyzeExpr cond ctx).declared := by
      rw [tested.declared_eq]
      exact prepared.closed
    have named : ctx.scope ⊆ (analyzeExpr cond ctx).scope := by
      rw [tested.scope_eq]
      exact List.Subset.refl _
    have arm := block_turned fuel
      (@runStmts_ended thenBlock _ known (prepared.head tested.toExtends) silent) named
    rw [tested.scope_eq] at arm
    have same : (analyzeStmt (.ifThen cond thenBlock) ctx).scope = ctx.scope := by
      simp only [analyzeStmt, BranchMoves.finish_scope]
      rfl
    have modes : (analyzeStmt (.ifThen cond thenBlock) ctx).mode =
        (analyzeStmts thenBlock (analyzeExpr cond ctx)).mode := by
      simp only [analyzeStmt, BranchMoves.finish_mode]
      rfl
    apply Meets.ended same
    apply (evalExpr_covers cond prepared.closed (walked.quiet silent)).bind
    intro _
    apply choose_covers.bind
    intro goes
    cases goes with
    | true =>
      apply arm_turned arm
      · exact fun judged => runStmts_leaves fuel thenBlock (thenBlock.exits_of_returns judged)
      · intro judged slot named moved
        apply BranchMoves.finish_joins
        rw [judged]
        exact BranchMoves.leaveArm_joins (BranchMoves.start_wide _) (inside named)
          (taken.mem_declared (prepared.closed named)) moved
      · intro slot _
        rw [modes]
        rfl
    | false =>
      intro path covers
      apply covers.regard
      · intro slot named moved
        apply BranchMoves.finish_before
        · rw [BranchMoves.leaveArm_before]
          exact inside named
        · rw [BranchMoves.leaveArm_before]
          exact moved
      · intro slot named
        rw [modes]
        exact walked.mode slot (inside named) (prepared.fresh prepared.closed slot named)
  | .ifElse cond thenBlock elseBlock, ctx, known, prepared, accepted => by
    have tested := analyzeExpr_walks cond ctx
    have walked := analyzeStmts_walks thenBlock (analyzeExpr cond ctx)
    have taken := (tested.trans walked).popScope
    let left := (analyzeStmts thenBlock (analyzeExpr cond ctx)).popScope ctx.scope
    let branch := (BranchMoves.start (analyzeExpr cond ctx)).leaveArm left
      thenBlock.definitelyReturns
    have before : branch.before = (analyzeExpr cond ctx).movedState :=
      BranchMoves.leaveArm_before
    have other := analyzeStmts_walks elseBlock (branch.enterArm left)
    have later : Prepared (branch.enterArm left) elseBlock.locals :=
      (prepared.later taken.toExtends).head (branch.enterArm_extends left)
    have silent : (analyzeStmts elseBlock (branch.enterArm left)).diagnostics = [] := by
      have ended := accepted
      simp only [analyzeStmt, BranchMoves.finish_diagnostics] at ended
      exact ended
    have silentThen : (analyzeStmts thenBlock (analyzeExpr cond ctx)).diagnostics = [] :=
      other.quiet silent
    have inside : ctx.scope ⊆ (analyzeExpr cond ctx).declared := by
      rw [tested.declared_eq]
      exact prepared.closed
    have fresh := prepared.first.fresh prepared.closed
    have thenMode : ∀ slot ∈ ctx.scope, left.mode slot = (analyzeExpr cond ctx).mode slot :=
      fun slot named => walked.mode slot (inside named) (fresh slot named)
    have elseMode : ∀ slot ∈ ctx.scope,
        (analyzeStmts elseBlock (branch.enterArm left)).mode slot = left.mode slot :=
      fun slot named => other.mode slot (later.closed named) (later.fresh later.closed slot named)
    have same : (analyzeStmt (.ifElse cond thenBlock elseBlock) ctx).scope = ctx.scope := by
      simp only [analyzeStmt, BranchMoves.finish_scope]
      rfl
    have modes : (analyzeStmt (.ifElse cond thenBlock elseBlock) ctx).mode =
        (analyzeStmts elseBlock (branch.enterArm left)).mode := by
      simp only [analyzeStmt, BranchMoves.finish_mode]
      rfl
    have wide : branch.Wide := by
      apply BranchMoves.leaveArm_wide (BranchMoves.start_wide _)
      intro slot listed
      exact walked.mem_declared listed
    apply Meets.ended same
    apply (evalExpr_covers cond prepared.closed (walked.quiet silentThen)).bind
    intro _
    apply choose_covers.bind
    intro goes
    cases goes with
    | true =>
      have named : ctx.scope ⊆ (analyzeExpr cond ctx).scope := by
        rw [tested.scope_eq]
        exact List.Subset.refl _
      have arm := block_turned fuel
        (@runStmts_ended thenBlock _ known (prepared.first.head tested.toExtends) silentThen)
        named
      rw [tested.scope_eq] at arm
      apply arm_turned arm
      · exact fun judged => runStmts_leaves fuel thenBlock (thenBlock.exits_of_returns judged)
      · intro judged slot named moved
        apply BranchMoves.finish_joins
        apply BranchMoves.Joins.leaveArm
        rw [judged]
        exact BranchMoves.leaveArm_joins (BranchMoves.start_wide _) (inside named)
          (taken.mem_declared (prepared.closed named)) moved
      · intro slot named
        rw [modes]
        exact elseMode slot named
    | false =>
      have arm := block_turned fuel
        (@runStmts_ended elseBlock _ known later silent) (List.Subset.refl _)
      have entered : Meets (Covers known (analyzeExpr cond ctx) ctx.scope)
          (runStmts fuel elseBlock)
          (Turned known ((analyzeStmts elseBlock (branch.enterArm left)).popScope ctx.scope)
            ctx.scope) Cut := by
        apply arm.weaken
        · exact fun _ covers => enterArm_covers covers before inside thenMode
        · exact fun _ _ turned => turned
        · exact fun _ _ stopped => stopped
      apply arm_turned entered
      · exact fun judged => runStmts_leaves fuel elseBlock (elseBlock.exits_of_returns judged)
      · intro judged slot named moved
        apply BranchMoves.finish_joins
        rw [judged]
        apply BranchMoves.leaveArm_joins wide
        · rw [before]
          exact inside named
        · exact other.mem_declared (later.closed named)
        · exact moved
      · intro slot _
        rw [modes]
        rfl
  | .while_ cond body, ctx, known, prepared, accepted => by
    have tested := analyzeExpr_walks cond ctx
    have walked := analyzeStmts_walks body (analyzeExpr cond ctx)
    rcases checkLoopBackEdge_accepted accepted with ⟨stays, _⟩
    have silent : (analyzeStmts body (analyzeExpr cond ctx)).diagnostics = [] := by
      have ended := accepted
      rw [analyzeStmt, stays] at ended
      exact ended
    have named : ctx.scope ⊆ (analyzeExpr cond ctx).scope := by
      rw [tested.scope_eq]
      exact List.Subset.refl _
    have turns : ∀ known, Meets (Covers known (analyzeExpr cond ctx) ctx.scope)
        (runStmts fuel body)
        (Turned known ((analyzeStmts body (analyzeExpr cond ctx)).popScope ctx.scope) ctx.scope)
        Cut := by
      intro known
      have turn := block_turned fuel
        (@runStmts_ended body _ known (prepared.head tested.toExtends) silent) named
      rw [tested.scope_eq] at turn
      exact turn
    have runs := runLoop_covers (while_parts fuel cond body prepared accepted turns) fuel false
      (fun impossible => Bool.noConfusion impossible) known
    rw [analyzeStmt, stays]
    apply runs.weaken
    · exact fun _ covers => covers
    · exact fun _ _ left => left_ended left rfl
    · exact fun _ _ stopped => stopped
  | .for_ iterable hidden name body, ctx, known, prepared, accepted => by
    have read := analyzeExpr_walks iterable ctx
    have hides := declareHidden_walks hidden (analyzeExpr iterable ctx)
    let head := hidden.foldl FnCtx.declareHidden (analyzeExpr iterable ctx)
    have walked := (declare_walks head name .owned).trans (analyzeStmts_walks body _)
    have later : Prepared head (name :: body.locals) :=
      (prepared.head read.toExtends).later hides.toExtends
    have level : head.scope = ctx.scope := (declareHidden_scope _ _).trans read.scope_eq
    rcases checkLoopBackEdge_accepted accepted with ⟨stays, _⟩
    have silent : (analyzeStmts body (head.declare name .owned)).diagnostics = [] := by
      have ended := accepted
      simp only [analyzeStmt, stays] at ended
      exact ended
    have turns : ∀ known, Meets (Covers known head head.scope)
        (do
          declareLocal name .owned
          runStmts fuel body)
        (Turned known ((analyzeStmts body (head.declare name .owned)).popScope head.scope)
          head.scope) Cut := fun known =>
      bindings_turned fuel [name] body (@runStmts_ended body _ known
        (@Prepared.later _ _ [name] _ later (declare_walks head name .owned).toExtends) silent)
    have listed : ctx.scope ⊆ (analyzeExpr iterable ctx).declared := by
      rw [read.declared_eq]
      exact prepared.closed
    have runs := runLoop_covers (for_parts fuel name body later (by
      have ended := accepted
      rw [analyzeStmt, ← level] at ended
      exact ended) turns) fuel false (fun impossible => Bool.noConfusion impossible) known
    rw [level] at runs
    apply (evalExpr_covers iterable prepared.closed
      ((hides.trans walked).quiet silent)).bind
    intro _
    rw [analyzeStmt, stays]
    apply runs.weaken
    · intro path covers
      exact covers.walk hides listed (prepared.first.fresh prepared.closed)
        fun _ _ unlisted => absurd unlisted List.not_mem_nil
    · exact fun _ _ left => left_ended left rfl
    · exact fun _ _ stopped => stopped
  | .match_ subject hidden exhaustive arms, ctx, known, prepared, accepted => by
    have read := analyzeExpr_walks subject ctx
    have hides := declareHidden_walks hidden (analyzeExpr subject ctx)
    let head := hidden.foldl FnCtx.declareHidden (analyzeExpr subject ctx)
    have walked := analyzeArms_extends arms (BranchMoves.start head) head
    have later : Prepared head arms.locals :=
      (prepared.head read.toExtends).later hides.toExtends
    have level : head.scope = ctx.scope := (declareHidden_scope _ _).trans read.scope_eq
    have silent : (analyzeArms arms (BranchMoves.start head) head).2.diagnostics = [] := by
      have ended := accepted
      simp only [analyzeStmt, BranchMoves.finish_diagnostics] at ended
      exact ended
    have listed : ctx.scope ⊆ (analyzeExpr subject ctx).declared := by
      rw [read.declared_eq]
      exact prepared.closed
    have same : (analyzeStmt (.match_ subject hidden exhaustive arms) ctx).scope = ctx.scope := by
      simp only [analyzeStmt, BranchMoves.finish_scope]
      exact (analyzeArms_scope arms _ _).trans level
    apply Meets.ended same
    apply (evalExpr_covers subject prepared.closed
      (hides.quiet (walked.quiet silent))).bind
    intro _
    have runs := @runArms_turned arms (BranchMoves.start head) head known head
      (analyzeStmt (.match_ subject hidden exhaustive arms) ctx)
      { prepared := later
        silent := silent
        start := rfl
        wide := BranchMoves.start_wide _
        named := later.closed
        inside := List.Subset.refl _
        level := fun _ _ => rfl
        joins := fun slot _ joins => BranchMoves.finish_joins joins _ _
        empty := by
          intro none slot named moved
          cases none
          have listed : slot ∈ head.movedState.declared := later.closed named
          exact BranchMoves.finish_keeps (BranchMoves.start_keeps head slot) listed moved head
            exhaustive
        mode := by
          intro slot named
          simp only [analyzeStmt, BranchMoves.finish_mode]
          exact walked.mode slot (later.closed named) (later.fresh later.closed slot named) }
    rw [level] at runs
    apply runs.weaken
    · intro path covers
      exact covers.walk hides listed (prepared.first.fresh prepared.closed)
        fun _ _ unlisted => absurd unlisted List.not_mem_nil
    · exact fun _ _ turned => turned
    · exact fun _ _ stopped => stopped
  | .attempt steps, ctx, known, prepared, accepted =>
    Meets.ended rfl (runSteps_turned steps prepared accepted (List.Subset.refl _))
  | .break_, ctx, known, prepared, accepted => fun _ covers => covers
  | .continue_, ctx, known, prepared, accepted => fun _ covers => covers.toTracks

theorem runStmts_ended : ∀ (block : Block) {ctx : FnCtx} {known : Prop},
    Prepared ctx block.locals → (analyzeStmts block ctx).diagnostics = [] →
    Meets (Covers known ctx ctx.scope) (runStmts fuel block)
      (Ended known ctx (analyzeStmts block ctx)) Cut
  | .nil, ctx, known, prepared, accepted => fun _ covers => covers
  | .cons head tail, ctx, known, prepared, accepted => by
    have first := analyzeStmt_walks head ctx
    have second := analyzeStmts_walks tail (analyzeStmt head ctx)
    have later := prepared.later first.toExtends
    have wider : ctx.scope ⊆ (analyzeStmt head ctx).scope := by
      rcases first.scope with ⟨more, named, _⟩
      rw [named]
      exact List.subset_append_left _ _
    apply (runStmt_ended head prepared.first (second.quiet accepted)).bind
    intro exit
    cases exit with
    | normal =>
      apply (runStmts_ended tail later accepted).weaken
      · exact fun _ covers => covers
      · intro exit path ended
        cases exit with
        | normal => exact ended
        | broke => exact ended.narrow wider
        | continued => exact ended.narrow wider
        | returned => exact ended
      · exact fun _ _ stopped => stopped
    | broke =>
      have inside : ctx.scope ⊆ (analyzeStmt head ctx).declared :=
        fun slot named => later.closed (wider named)
      apply (skip_covers second inside (later.fresh inside)).bind
      exact fun _ _ covers => covers
    | continued =>
      intro path tracks
      apply tracks.regard
      intro slot named
      exact second.mode slot (later.closed (wider named)) (later.fresh later.closed slot (wider named))
    | returned => exact fun _ honest => honest

theorem runArms_turned : ∀ (arms : Arms) {branch : BranchMoves} {ctx : FnCtx} {known : Prop}
    {head final : FnCtx}, ArmsJoin arms branch ctx head final →
    Meets (Covers known head ctx.scope) (runArms fuel arms) (Turned known final ctx.scope) Cut
  | .nil, _, _, _, _, _, meets => fun _ covers => covers.regard (meets.empty rfl) meets.mode
  | .cons bindings body .nil, branch, ctx, known, head, final, meets =>
    meets.arm_turned fuel (@runStmts_ended body _ known meets.entered meets.bodySilent)
  | .cons bindings body (.cons moreBindings more rest), branch, ctx, known, head, final, meets => by
    have arm := meets.arm_turned fuel
      (@runStmts_ended body _ known meets.entered meets.bodySilent)
    apply choose_covers.bind
    intro goes
    cases goes with
    | true => exact arm
    | false =>
      exact @runArms_turned (.cons moreBindings more rest) _
        ((analyzeStmts body (ArmsJoin.armCtx bindings branch ctx)).popScope ctx.scope)
        known head final meets.later

theorem runHandlers_turned : ∀ (arms : Arms) {ctx : FnCtx} {known : Prop},
    Prepared ctx arms.locals → (analyzeHandlers arms ctx).diagnostics = [] →
    Meets (Covers known ctx ctx.scope) (runHandlers fuel arms)
      (Turned known (analyzeHandlers arms ctx) ctx.scope) Cut
  | .nil, ctx, known, prepared, accepted => fun _ covers => covers
  | .cons bindings body .nil, ctx, known, prepared, accepted => by
    have whole : Prepared ctx ((bindings ++ body.locals) ++ Arms.nil.locals) := prepared
    exact bindings_turned fuel bindings body
      (@runStmts_ended body _ known
        (whole.first.later (declareAll_walks bindings ctx).toExtends) accepted)
  | .cons bindings body (.cons moreBindings more rest), ctx, known, prepared, accepted => by
    let others := Arms.cons moreBindings more rest
    have whole : Prepared ctx ((bindings ++ body.locals) ++ others.locals) := prepared
    have handled := ((declareAll_walks bindings ctx).trans (analyzeStmts_walks body _)).popScope
    have passed := analyzeHandlers_walks others
      ((analyzeStmts body
        (bindings.foldl (fun ctx slot => ctx.declare slot .owned) ctx)).popScope ctx.scope)
    have later := whole.later handled.toExtends
    apply choose_covers.bind
    intro goes
    cases goes with
    | true =>
      apply (declareAll_covers bindings).bind
      intro _
      have wider : ctx.scope ⊆
          (bindings.foldl (fun ctx slot => ctx.declare slot .owned) ctx).scope := by
        rw [declareAll_scope]
        exact List.subset_append_left _ _
      rw [← declareAll_scope]
      apply passed_over _ passed later.closed (later.fresh later.closed)
      exact block_turned fuel (@runStmts_ended body _ known
        (whole.first.later (declareAll_walks bindings ctx).toExtends)
        (passed.quiet accepted)) wider
    | false =>
      apply (skip_covers handled prepared.closed (whole.first.fresh prepared.closed)).bind
      intro _
      exact runHandlers_turned others later accepted

theorem runSteps_turned : ∀ (steps : Steps) {ctx : FnCtx} {known : Prop} {scope : List LocalId},
    Prepared ctx steps.locals → (analyzeSteps steps ctx).diagnostics = [] → scope ⊆ ctx.scope →
    Meets (Covers known ctx ctx.scope) (runSteps fuel steps)
      (Turned known ((analyzeSteps steps ctx).popScope scope) scope) Cut
  | .trailing stmts, ctx, known, scope, prepared, accepted, outer =>
    block_turned fuel (runStmts_ended stmts prepared accepted) outer
  | .step setup operand hidden handlers binding rest, ctx, known, scope, prepared, accepted,
      outer => by
      have settled := analyzeStmts_walks setup ctx
      have tried := analyzeExpr_walks operand (analyzeStmts setup ctx)
      have hides := declareHidden_walks hidden (analyzeExpr operand (analyzeStmts setup ctx))
      let head := hidden.foldl FnCtx.declareHidden (analyzeExpr operand (analyzeStmts setup ctx))
      have handled := analyzeHandlers_walks handlers head
      have bound := declare_walks (analyzeHandlers handlers head) binding .owned
      have followed := analyzeSteps_walks rest ((analyzeHandlers handlers head).declare binding .owned)
      have whole : Prepared ctx
          (setup.locals ++ (hidden ++ (handlers.locals ++ ([binding] ++ rest.locals)))) := by
        simpa [Steps.locals] using prepared
      have afterSetup := whole.later settled.toExtends
      have afterOperand := afterSetup.head tried.toExtends
      have atHead := afterOperand.later hides.toExtends
      have afterHandlers := atHead.later handled.toExtends
      have afterBinding := afterHandlers.later bound.toExtends
      have handlersSilent : (analyzeHandlers handlers head).diagnostics = [] :=
        (bound.trans followed).quiet accepted
      have headSilent := handled.quiet handlersSilent
      have settles : ctx.scope ⊆ (analyzeStmts setup ctx).scope := by
        rcases settled.scope with ⟨more, named, _⟩
        rw [named]
        exact List.subset_append_left _ _
      have wider : scope ⊆ (analyzeStmts setup ctx).scope := fun slot named => settles (outer named)
      have level : head.scope = (analyzeStmts setup ctx).scope :=
        (declareHidden_scope _ _).trans tried.scope_eq
      have remaining := tried.trans (hides.trans (handled.trans (bound.trans followed)))
      apply (@runStmts_ended setup _ known whole.first
        ((tried.trans hides).quiet headSilent)).bind
      intro exit
      cases exit with
      | normal =>
        apply (evalExpr_covers operand afterSetup.closed (hides.quiet headSilent)).bind
        intro _
        apply choose_covers.bind
        intro goes
        have hidesNone : ∀ path, Covers known (analyzeExpr operand (analyzeStmts setup ctx))
            (analyzeStmts setup ctx).scope path → Covers known head head.scope path := by
          intro path covers
          rw [level]
          apply covers.walk hides (fun slot named => tried.mem_declared (afterSetup.closed named))
            (afterSetup.first.fresh afterSetup.closed)
          exact fun _ _ unlisted => absurd unlisted List.not_mem_nil
        cases goes with
        | true =>
          have passes := (@skip_covers known _ _ head.scope _ _ handled atHead.closed
            (atHead.first.fresh atHead.closed)).weaken hidesNone
            (fun _ _ covers => covers) fun _ _ stopped => stopped
          apply passes.bind
          intro _
          apply (declareLocal_covers binding .owned).bind
          intro _
          have named : head.scope ++ [binding] =
              ((analyzeHandlers handlers head).declare binding .owned).scope := by
            rw [← analyzeHandlers_scope handlers head]
            rfl
          rw [named]
          apply runSteps_turned rest afterBinding accepted
          rw [← named, level]
          exact List.subset_append_of_subset_left _ wider
        | false =>
          have outside : scope ⊆ head.scope := by
            rw [level]
            exact wider
          have handles := (@runHandlers_turned handlers head known atHead.first
            handlersSilent).weaken hidesNone
            (fun _ _ turned => turned.narrow outside) fun _ _ stopped => stopped
          have inside : scope ⊆ (analyzeHandlers handlers head).declared := by
            intro slot named
            apply afterHandlers.closed
            rw [analyzeHandlers_scope, level]
            exact wider named
          apply (passed_over handles (bound.trans followed) inside
            (afterHandlers.fresh inside)).weaken
          · exact fun _ covers => covers
          · exact fun _ _ turned => turned.regard (fun _ _ gone => gone) fun _ _ => rfl
          · exact fun _ _ stopped => stopped
      | broke =>
        have inside : ctx.scope ⊆ (analyzeStmts setup ctx).declared :=
          fun slot named => afterSetup.closed (settles named)
        apply (skip_covers remaining inside (afterSetup.fresh inside)).bind
        intro _ path covers
        exact (covers.narrow outer).regard (fun _ _ gone => gone) fun _ _ => rfl
      | continued =>
        intro path tracks
        apply (tracks.narrow outer).regard
        intro slot named
        exact remaining.mode slot (afterSetup.closed (wider named))
          (afterSetup.fresh afterSetup.closed slot (wider named))
      | returned => exact fun _ honest => honest

end

end Run

/-! ## Bodies -/

section Params

variable (params : List (LocalId × OwnershipMode))

end Params

end MoveChecker

end KiraVm
