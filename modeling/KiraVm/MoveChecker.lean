import Mathlib.Data.List.Basic

/-!
# The move checker

A function body is walked once, in the order it is written, with the set of locals
that have been moved out.  The arms of a branch start from the same set and are
joined after it, except for arms judged to return; a loop body is walked once, and
what it moved and did not put back is reported at its end.

Bodies are taken after names have been resolved: every declaration has a slot of its
own, and a name that resolves to nothing is a slot that is not in scope.
-/

namespace KiraVm

namespace MoveChecker

abbrev LocalId : Type := Nat

/-- How a binding holds its value. -/
inductive OwnershipMode
  | owned
  | borrowRead
  | borrowMut
  | move
  | copy
  deriving DecidableEq, Repr

def OwnershipMode.isBorrow : OwnershipMode → Bool
  | .borrowRead | .borrowMut => true
  | _ => false

/-! ## Bodies -/

/-- An expression, as far as it reads and moves locals.  The operands of a call, an
operator or a construction are evaluated in order; the second operand of `&&` and
`||` may not be evaluated.  Exchanged operands are evaluated in order and walked in the
other: those of an operator whose left operand alone is a leading-dot member, and the
arguments of a construction that names its fields out of the order of their
declaration. -/
inductive Expr
  | constant
  | name (slot : LocalId)
  | move (slot : LocalId)
  | copy (operand : Expr)
  | operands (first second : Expr)
  | exchanged (first second : Expr)
  | shortCircuit (first second : Expr)
  deriving DecidableEq, Repr

inductive PlaceStep
  | field (index : Nat)
  | index (value : Expr)
  deriving DecidableEq, Repr

/-- A local, or something inside its value. -/
structure Place where
  slot : LocalId
  path : List PlaceStep
  deriving DecidableEq, Repr

mutual

/-- A statement.  `aliases` says that the type of the value moves on binding.  A `for`
evaluates its bounds or its array into hidden locals before it starts, a `match` binds
its subject and tag to hidden locals, and both bind a local of their own. -/
inductive Stmt
  | bind (slot : LocalId) (mode : OwnershipMode) (init : Expr) (aliases : Bool)
  | assign (place : Place) (compound : Bool) (value : Expr) (aliases : Bool)
  | return_ (value : Option Expr)
  | expr (expr : Expr)
  | ifThen (cond : Expr) (thenBlock : Block)
  | ifElse (cond : Expr) (thenBlock elseBlock : Block)
  | while_ (cond : Expr) (body : Block)
  | for_ (iterable : Expr) (hidden : List LocalId) (name : LocalId) (body : Block)
  | match_ (subject : Expr) (hidden : List LocalId) (exhaustive : Bool) (arms : Arms)
  | attempt (steps : Steps)
  | break_
  | continue_

inductive Block
  | nil
  | cons (head : Stmt) (tail : Block)

/-- The arms of a `match` or of the handlers of a `try`, each with what it binds. -/
inductive Arms
  | nil
  | cons (bindings : List LocalId) (body : Block) (rest : Arms)

/-- The steps of an `attempt`: ordinary statements, then a `try` with its handlers and
the local that takes its value, and so on; last, the statements after every `try`. -/
inductive Steps
  | trailing (stmts : Block)
  | step (setup : Block) (operand : Expr) (hidden : List LocalId) (handlers : Arms)
      (binding : LocalId) (rest : Steps)

end

/-! ## The state of the walk -/

inductive Diagnostic
  /-- `KSEM060` -/
  | undefinedName (slot : LocalId)
  /-- `KSEM107` -/
  | movedAndUnavailable (slot : LocalId)
  /-- `KSEM110` -/
  | alreadyMoved (slot : LocalId)
  /-- `KSEM111` -/
  | borrowedAndMoved (slot : LocalId)
  /-- `KSEM270` -/
  | movedInsideLoop (slot : LocalId)
  deriving DecidableEq, Repr

/-- The ownership of the locals declared so far, oldest first, and which of them can be
named. -/
structure FnCtx where
  declared : List LocalId
  scope : List LocalId
  mode : LocalId → OwnershipMode
  moved : LocalId → Bool
  loopReported : LocalId → Bool
  diagnostics : List Diagnostic

/-- Which of the locals declared at some point were moved there. -/
structure MovedState where
  declared : List LocalId
  moved : LocalId → Bool

namespace FnCtx

def emit (ctx : FnCtx) (diagnostic : Diagnostic) : FnCtx :=
  { ctx with diagnostics := ctx.diagnostics ++ [diagnostic] }

def declare (ctx : FnCtx) (slot : LocalId) (mode : OwnershipMode) : FnCtx :=
  { ctx with
    declared := ctx.declared ++ [slot]
    scope := ctx.scope ++ [slot]
    mode := fun other => if other = slot then mode else ctx.mode other
    moved := fun other => if other = slot then false else ctx.moved other }

def declareHidden (ctx : FnCtx) (slot : LocalId) : FnCtx :=
  { ctx.declare slot .owned with scope := ctx.scope }

def markMoved (ctx : FnCtx) (slot : LocalId) : FnCtx :=
  { ctx with moved := fun other => if other = slot then true else ctx.moved other }

def markLive (ctx : FnCtx) (slot : LocalId) : FnCtx :=
  { ctx with moved := fun other => if other = slot then false else ctx.moved other }

def movedState (ctx : FnCtx) : MovedState :=
  ⟨ctx.declared, ctx.moved⟩

/-- Put the locals of a state back; those declared since stay as they are. -/
def resetMoves (ctx : FnCtx) (state : MovedState) : FnCtx :=
  { ctx with
    moved := fun slot => if slot ∈ state.declared then state.moved slot else ctx.moved slot }

def unionMoves (ctx : FnCtx) (state : MovedState) : FnCtx :=
  { ctx with
    moved := fun slot =>
      ctx.moved slot || (decide (slot ∈ state.declared) && state.moved slot) }

def movesAcross (ctx : FnCtx) (state : MovedState) : List LocalId :=
  state.declared.filter fun slot =>
    !state.moved slot && !ctx.loopReported slot && ctx.moved slot

def markLoopMoveReported (ctx : FnCtx) (slot : LocalId) : FnCtx :=
  { ctx with
    loopReported := fun other => if other = slot then true else ctx.loopReported other }

/-- Leave a scope, for the one that was entered with these names. -/
def popScope (ctx : FnCtx) (scope : List LocalId) : FnCtx :=
  { ctx with scope := scope }

end FnCtx

/-! ## Branches and loops -/

structure BranchMoves where
  before : MovedState
  joined : Option MovedState

namespace BranchMoves

def start (ctx : FnCtx) : BranchMoves :=
  ⟨ctx.movedState, none⟩

def enterArm (branch : BranchMoves) (ctx : FnCtx) : FnCtx :=
  ctx.resetMoves branch.before

/-- Fold an arm into the join, unless it never gets there. -/
def leaveArm (branch : BranchMoves) (ctx : FnCtx) (diverges : Bool) : BranchMoves :=
  if diverges then branch
  else
    match branch.joined with
    | none => { branch with joined := some ctx.movedState }
    | some joined =>
      { branch with
        joined := some
          { joined with
            moved := fun slot =>
              joined.moved slot || (decide (slot ∈ joined.declared) && ctx.moved slot) } }

/-- The state after the branch. -/
def finish (branch : BranchMoves) (ctx : FnCtx) (exhaustive : Bool) : FnCtx :=
  match branch.joined with
  | none => ctx.resetMoves branch.before
  | some joined =>
    if exhaustive then ctx.resetMoves joined
    else (ctx.resetMoves joined).unionMoves branch.before

end BranchMoves

def reportLoopMove (ctx : FnCtx) (slot : LocalId) : FnCtx :=
  (ctx.emit (.movedInsideLoop slot)).markLoopMoveReported slot

/-- Report what a loop body gave away and did not put back, unless the body always
leaves the loop. -/
def checkLoopBackEdge (ctx : FnCtx) (before : MovedState) (exits : Bool) : FnCtx :=
  if exits then ctx else (ctx.movesAcross before).foldl reportLoopMove ctx

/-! ## Control flow that is judged from the text -/

mutual

/-- Whether a statement is judged to execute a `return`. -/
def Stmt.definitelyReturns : Stmt → Bool
  | .return_ _ => true
  | .ifElse _ thenBlock elseBlock => thenBlock.definitelyReturns && elseBlock.definitelyReturns
  | .match_ _ _ _ arms => arms.definitelyReturn
  | .attempt steps => steps.definitelyReturn
  | _ => false

def Block.definitelyReturns : Block → Bool
  | .nil => false
  | .cons head tail => head.definitelyReturns || tail.definitelyReturns

def Arms.definitelyReturn : Arms → Bool
  | .nil => false
  | .cons _ body .nil => body.definitelyReturns
  | .cons _ body rest => body.definitelyReturns && rest.definitelyReturn

def Steps.definitelyReturn : Steps → Bool
  | .trailing stmts => stmts.definitelyReturns
  | .step _ _ _ handlers _ rest => rest.definitelyReturn && handlers.definitelyReturn

end

mutual

/-- Whether a statement is judged to leave the loop it is in. -/
def Stmt.alwaysExitsLoop : Stmt → Bool
  | .return_ _ | .break_ => true
  | .ifElse _ thenBlock elseBlock => thenBlock.alwaysExitsLoop && elseBlock.alwaysExitsLoop
  | .match_ _ _ _ arms => arms.alwaysExitLoop
  | .attempt steps => steps.alwaysExitLoop
  | _ => false

def Block.alwaysExitsLoop : Block → Bool
  | .nil => false
  | .cons head tail => head.alwaysExitsLoop || tail.alwaysExitsLoop

def Arms.alwaysExitLoop : Arms → Bool
  | .nil => false
  | .cons _ body .nil => body.alwaysExitsLoop
  | .cons _ body rest => body.alwaysExitsLoop && rest.alwaysExitLoop

def Steps.alwaysExitLoop : Steps → Bool
  | .trailing stmts => stmts.alwaysExitsLoop
  | .step _ _ _ handlers _ rest => rest.alwaysExitLoop && handlers.alwaysExitLoop

end

/-! ## The walk -/

def checkLocalLive (slot : LocalId) (ctx : FnCtx) : FnCtx :=
  if slot ∉ ctx.scope then ctx.emit (.undefinedName slot)
  else if ctx.moved slot then ctx.emit (.movedAndUnavailable slot)
  else ctx

def analyzeMove (slot : LocalId) (ctx : FnCtx) : FnCtx :=
  if slot ∉ ctx.scope then ctx.emit (.undefinedName slot)
  else if ctx.moved slot then ctx.emit (.alreadyMoved slot)
  else if (ctx.mode slot).isBorrow then ctx.emit (.borrowedAndMoved slot)
  else ctx.markMoved slot

def analyzeExpr : Expr → FnCtx → FnCtx
  | .constant, ctx => ctx
  | .name slot, ctx => checkLocalLive slot ctx
  | .move slot, ctx => analyzeMove slot ctx
  | .copy operand, ctx => analyzeExpr operand ctx
  | .operands first second, ctx => analyzeExpr second (analyzeExpr first ctx)
  | .exchanged first second, ctx => analyzeExpr first (analyzeExpr second ctx)
  | .shortCircuit first second, ctx => analyzeExpr second (analyzeExpr first ctx)

/-- Binding a value that would alias a local consumes the local. -/
def applyBindingMove (aliases : Bool) (value : Expr) (ctx : FnCtx) : FnCtx :=
  match value with
  | .name slot =>
    if aliases && decide (slot ∈ ctx.scope) && decide (ctx.mode slot = .owned) && !ctx.moved slot
    then ctx.markMoved slot
    else ctx
  | _ => ctx

def analyzeIndices : List PlaceStep → FnCtx → FnCtx
  | [], ctx => ctx
  | .field _ :: path, ctx => analyzeIndices path ctx
  | .index value :: path, ctx => analyzeIndices path (analyzeExpr value ctx)

/-- Whether a place can be written to: the local itself always, something inside its
value only while the value is there. -/
def Place.resolves (place : Place) (ctx : FnCtx) : Bool :=
  decide (place.slot ∈ ctx.scope) && (place.path.isEmpty || !ctx.moved place.slot)

/-- Resolve what an assignment writes to. -/
def resolvePlace (place : Place) (ctx : FnCtx) : FnCtx :=
  if place.resolves ctx then analyzeIndices place.path ctx
  else if place.slot ∉ ctx.scope then ctx.emit (.undefinedName place.slot)
  else ctx.emit (.movedAndUnavailable place.slot)

def readIndices : List PlaceStep → Expr → Expr
  | [], base => base
  | .field _ :: path, base => readIndices path base
  | .index value :: path, base => readIndices path (.operands base value)

/-- A place as the left operand of a compound assignment. -/
def Place.read (place : Place) : Expr :=
  readIndices place.path (.name place.slot)

/-- What an assignment evaluates for the value it stores. -/
def assignedExpr (place : Place) (compound : Bool) (value : Expr) : Expr :=
  if compound then .operands place.read value else value

def analyzeAssign (place : Place) (compound : Bool) (value : Expr) (aliases : Bool)
    (ctx : FnCtx) : FnCtx :=
  let after := analyzeExpr (assignedExpr place compound value) (resolvePlace place ctx)
  if place.resolves ctx then
    let bound := if compound then after else applyBindingMove aliases value after
    if place.path.isEmpty then bound.markLive place.slot else bound
  else after

/-- What a binding does to its initializer. -/
def bindingMove (mode : OwnershipMode) (init : Expr) (aliases : Bool) (ctx : FnCtx) : FnCtx :=
  match mode with
  | .owned => applyBindingMove aliases init ctx
  | .move => applyBindingMove true init ctx
  | _ => ctx

mutual

def analyzeStmt : Stmt → FnCtx → FnCtx
  | .bind slot mode init aliases, ctx =>
    (bindingMove mode init aliases (analyzeExpr init ctx)).declare slot mode
  | .assign place compound value aliases, ctx => analyzeAssign place compound value aliases ctx
  | .return_ none, ctx => ctx
  | .return_ (some value), ctx => analyzeExpr value ctx
  | .expr expr, ctx => analyzeExpr expr ctx
  | .ifThen cond thenBlock, ctx =>
    let head := analyzeExpr cond ctx
    let branch := BranchMoves.start head
    let after := (analyzeStmts thenBlock head).popScope ctx.scope
    let branch := branch.leaveArm after thenBlock.definitelyReturns
    branch.finish (branch.enterArm after) false
  | .ifElse cond thenBlock elseBlock, ctx =>
    let head := analyzeExpr cond ctx
    let branch := BranchMoves.start head
    let after := (analyzeStmts thenBlock head).popScope ctx.scope
    let branch := branch.leaveArm after thenBlock.definitelyReturns
    let after := (analyzeStmts elseBlock (branch.enterArm after)).popScope ctx.scope
    let branch := branch.leaveArm after elseBlock.definitelyReturns
    branch.finish after true
  | .while_ cond body, ctx =>
    let head := analyzeExpr cond ctx
    let after := (analyzeStmts body head).popScope ctx.scope
    checkLoopBackEdge after head.movedState body.alwaysExitsLoop
  | .for_ iterable hidden name body, ctx =>
    let head := hidden.foldl FnCtx.declareHidden (analyzeExpr iterable ctx)
    let after := (analyzeStmts body (head.declare name .owned)).popScope ctx.scope
    checkLoopBackEdge after head.movedState body.alwaysExitsLoop
  | .match_ subject hidden exhaustive arms, ctx =>
    let head := hidden.foldl FnCtx.declareHidden (analyzeExpr subject ctx)
    let (branch, after) := analyzeArms arms (BranchMoves.start head) head
    branch.finish after exhaustive
  | .attempt steps, ctx => (analyzeSteps steps ctx).popScope ctx.scope
  | .break_, ctx => ctx
  | .continue_, ctx => ctx

def analyzeStmts : Block → FnCtx → FnCtx
  | .nil, ctx => ctx
  | .cons head tail, ctx => analyzeStmts tail (analyzeStmt head ctx)

def analyzeArms : Arms → BranchMoves → FnCtx → BranchMoves × FnCtx
  | .nil, branch, ctx => (branch, ctx)
  | .cons bindings body rest, branch, ctx =>
    let entered := bindings.foldl (fun ctx slot => ctx.declare slot .owned) (branch.enterArm ctx)
    let after := (analyzeStmts body entered).popScope ctx.scope
    analyzeArms rest (branch.leaveArm after body.definitelyReturns) after

/-- The handlers of a `try`, one after the other. -/
def analyzeHandlers : Arms → FnCtx → FnCtx
  | .nil, ctx => ctx
  | .cons bindings body rest, ctx =>
    let entered := bindings.foldl (fun ctx slot => ctx.declare slot .owned) ctx
    analyzeHandlers rest ((analyzeStmts body entered).popScope ctx.scope)

def analyzeSteps : Steps → FnCtx → FnCtx
  | .trailing stmts, ctx => analyzeStmts stmts ctx
  | .step setup operand hidden handlers binding rest, ctx =>
    let head := hidden.foldl FnCtx.declareHidden (analyzeExpr operand (analyzeStmts setup ctx))
    analyzeSteps rest ((analyzeHandlers handlers head).declare binding .owned)

end

end MoveChecker

end KiraVm
