import KiraVm.MoveChecker
import KiraVm.StateLogic

/-!
# Paths through a body

A path goes through a body by a list of choices: which way each test goes, how often a
loop turns, whether a `try` fails.  It ends when the choices run out, so that every
beginning of a path is a path.  On its way it keeps the locals that have been moved and
not been assigned again, and records what it reads and moves, and where it takes a way
that the walk of the checker does not take.
-/

namespace KiraVm

open StateLogic

namespace MoveChecker

/-! ## What code assigns and declares -/

mutual

/-- The locals a statement may give a value again. -/
def Stmt.assigned : Stmt → List LocalId
  | .assign place _ _ _ => if place.path.isEmpty then [place.slot] else []
  | .ifThen _ thenBlock => thenBlock.assigned
  | .ifElse _ thenBlock elseBlock => thenBlock.assigned ++ elseBlock.assigned
  | .while_ _ body => body.assigned
  | .for_ _ _ _ body => body.assigned
  | .match_ _ _ _ arms => arms.assigned
  | .attempt steps => steps.assigned
  | _ => []

def Block.assigned : Block → List LocalId
  | .nil => []
  | .cons head tail => head.assigned ++ tail.assigned

def Arms.assigned : Arms → List LocalId
  | .nil => []
  | .cons _ body rest => body.assigned ++ rest.assigned

def Steps.assigned : Steps → List LocalId
  | .trailing stmts => stmts.assigned
  | .step setup _ _ handlers _ rest => setup.assigned ++ handlers.assigned ++ rest.assigned

end

mutual

/-- The locals a statement declares, in order. -/
def Stmt.locals : Stmt → List LocalId
  | .bind slot _ _ _ => [slot]
  | .ifThen _ thenBlock => thenBlock.locals
  | .ifElse _ thenBlock elseBlock => thenBlock.locals ++ elseBlock.locals
  | .while_ _ body => body.locals
  | .for_ _ hidden name body => hidden ++ name :: body.locals
  | .match_ _ hidden _ arms => hidden ++ arms.locals
  | .attempt steps => steps.locals
  | _ => []

def Block.locals : Block → List LocalId
  | .nil => []
  | .cons head tail => head.locals ++ tail.locals

def Arms.locals : Arms → List LocalId
  | .nil => []
  | .cons bindings body rest => bindings ++ body.locals ++ rest.locals

def Steps.locals : Steps → List LocalId
  | .trailing stmts => stmts.locals
  | .step setup _ hidden handlers binding rest =>
    setup.locals ++ hidden ++ handlers.locals ++ binding :: rest.locals

end

def Expr.moves : Expr → List LocalId
  | .constant | .name _ => []
  | .move slot => [slot]
  | .copy operand => operand.moves
  | .operands first second | .exchanged first second | .shortCircuit first second =>
    first.moves ++ second.moves

/-- The locals an expression reads or moves. -/
def Expr.touched : Expr → List LocalId
  | .constant => []
  | .name slot | .move slot => [slot]
  | .copy operand => operand.touched
  | .operands first second | .exchanged first second | .shortCircuit first second =>
    first.touched ++ second.touched

/-- The body of a function after name resolution: its parameters, and declarations that
have a slot each. -/
structure Body where
  params : List (LocalId × OwnershipMode)
  stmts : Block
  distinct : (params.map Prod.fst ++ stmts.locals).Nodup

/-- The walk over a body. -/
def analyzeBody (body : Body) : FnCtx :=
  analyzeStmts body.stmts
    (body.params.foldl (fun ctx param => ctx.declare param.1 param.2)
      ⟨[], [], fun _ => .owned, fun _ => false, fun _ => false, []⟩)

/-- The walk has nothing to report. -/
def accepts (body : Body) : Bool :=
  (analyzeBody body).diagnostics.isEmpty

/-! ## Paths -/

/-- What is recorded of a path. -/
inductive PathEvent
  /-- A local is read, and whether it was moved. -/
  | read (slot : LocalId) (moved : Bool)
  /-- A local is moved, and whether it was moved before. -/
  | move (slot : LocalId) (already : Bool)
  /-- Something inside a local is written: whether the local was moved before the
  statement, and whether it is moved now. -/
  | stored (slot : LocalId) (before now : Bool)
  /-- The first of two exchanged operands moves these locals, the second touches those. -/
  | exchanged (moves touched : List LocalId)
  /-- Code that assigns these locals is passed over, with those moved. -/
  | skipped (assigned moved : List LocalId)
  /-- The condition of a loop is evaluated again; it moves these locals. -/
  | repeated (moves : List LocalId)
  /-- A `continue`, out of a body that declares some locals: what was moved when the turn
  began, and what is moved now. -/
  | continued (inside head now : List LocalId)
  /-- An arm that was judged to return is left by a `break`. -/
  | leftReturning
  deriving DecidableEq, Repr

/-- How a statement ends. -/
inductive Exit
  | normal
  | broke
  | continued
  | returned
  deriving DecidableEq, Repr

structure Path where
  moved : List LocalId
  mode : LocalId → OwnershipMode
  choices : List Bool
  log : List PathEvent

abbrev OnPath (α : Type) : Type :=
  EStateM Unit Path α

def record (event : PathEvent) : OnPath Unit :=
  modify fun path => { path with log := path.log ++ [event] }

def choose : OnPath Bool := do
  let path ← get
  match path.choices with
  | [] => throw ()
  | choice :: choices => do
    set { path with choices := choices }
    pure choice

def readLocal (slot : LocalId) : OnPath Unit :=
  modify fun path => { path with log := path.log ++ [.read slot (decide (slot ∈ path.moved))] }

def moveLocal (slot : LocalId) : OnPath Unit :=
  modify fun path =>
    { path with
      moved := slot :: path.moved
      log := path.log ++ [.move slot (decide (slot ∈ path.moved))] }

/-- A local has a value again. -/
def reviveLocal (slot : LocalId) : OnPath Unit :=
  modify fun path => { path with moved := path.moved.filter fun other => other ≠ slot }

def declareLocal (slot : LocalId) (mode : OwnershipMode) : OnPath Unit :=
  modify fun path =>
    { path with
      moved := path.moved.filter fun other => other ≠ slot
      mode := fun other => if other = slot then mode else path.mode other }

def declareAll : List LocalId → OnPath Unit
  | [] => pure ()
  | slot :: slots => do
    declareLocal slot .owned
    declareAll slots

/-- Pass over code that assigns some locals. -/
def skip (assigned : List LocalId) : OnPath Unit :=
  modify fun path => { path with log := path.log ++ [.skipped assigned path.moved] }

def evalExpr : Expr → OnPath Unit
  | .constant => pure ()
  | .name slot => readLocal slot
  | .move slot => moveLocal slot
  | .copy operand => evalExpr operand
  | .operands first second => do
    evalExpr first
    evalExpr second
  | .exchanged first second => do
    record (.exchanged first.moves second.touched)
    evalExpr first
    evalExpr second
  | .shortCircuit first second => do
    evalExpr first
    if ← choose then evalExpr second else pure ()

def evalIndices : List PlaceStep → OnPath Unit
  | [] => pure ()
  | .field _ :: path => evalIndices path
  | .index value :: path => do
    evalExpr value
    evalIndices path

/-- A value that would alias the local it is read from is moved out of it. -/
def consume (aliases : Bool) (value : Expr) : OnPath Unit :=
  match value with
  | .name slot => do
    let path ← get
    if aliases && decide (path.mode slot = .owned) then moveLocal slot else pure ()
  | _ => pure ()

def consumeBound (mode : OwnershipMode) (init : Expr) (aliases : Bool) : OnPath Unit :=
  match mode with
  | .owned => consume aliases init
  | .move => consume true init
  | _ => pure ()

def storeThrough (slot : LocalId) (before : Bool) : OnPath Unit :=
  modify fun path =>
    { path with
      log := path.log ++ [.stored slot before (decide (slot ∈ path.moved)),
        .read slot (decide (slot ∈ path.moved))] }

def runAssign (place : Place) (compound : Bool) (value : Expr) (aliases : Bool) :
    OnPath Unit := do
  let start ← get
  evalIndices place.path
  evalExpr (assignedExpr place compound value)
  if compound then pure () else consume aliases value
  if place.path.isEmpty then reviveLocal place.slot
  else storeThrough place.slot (decide (place.slot ∈ start.moved))

def leaveArm (judgedReturning : Bool) (exit : Exit) : OnPath Exit := do
  if judgedReturning && exit = .broke then record .leftReturning else pure ()
  pure exit

def runLoop (inside assigned : List LocalId) (test : OnPath Bool) (again : OnPath Unit)
    (body : OnPath Exit) : Nat → Bool → OnPath Exit
  | 0, _ => throw ()
  | fuel + 1, complete => do
    if ← test then
      let head ← get
      match ← body with
      | .normal => do
        again
        runLoop inside assigned test again body fuel true
      | .continued => do
        let now ← get
        record (.continued inside head.moved now.moved)
        again
        runLoop inside assigned test again body fuel false
      | .broke => pure .normal
      | .returned => pure .returned
    else do
      if complete then pure () else skip assigned
      pure .normal

section Run

variable (fuel : Nat)

mutual

def runStmt : Stmt → OnPath Exit
  | .bind slot mode init aliases => do
    evalExpr init
    consumeBound mode init aliases
    declareLocal slot mode
    pure .normal
  | .assign place compound value aliases => do
    runAssign place compound value aliases
    pure .normal
  | .return_ none => pure .returned
  | .return_ (some value) => do
    evalExpr value
    pure .returned
  | .expr expr => do
    evalExpr expr
    pure .normal
  | .ifThen cond thenBlock => do
    evalExpr cond
    if ← choose then do
      let exit ← runStmts thenBlock
      leaveArm thenBlock.definitelyReturns exit
    else pure .normal
  | .ifElse cond thenBlock elseBlock => do
    evalExpr cond
    if ← choose then do
      let exit ← runStmts thenBlock
      leaveArm thenBlock.definitelyReturns exit
    else do
      let exit ← runStmts elseBlock
      leaveArm elseBlock.definitelyReturns exit
  | .while_ cond body =>
    runLoop body.locals body.assigned
      (do
        evalExpr cond
        choose)
      (record (.repeated cond.moves)) (runStmts body) fuel false
  | .for_ iterable _ name body => do
    evalExpr iterable
    runLoop (name :: body.locals) body.assigned choose (pure ())
      (do
        declareLocal name .owned
        runStmts body)
      fuel false
  | .match_ subject _ _ arms => do
    evalExpr subject
    runArms arms
  | .attempt steps => runSteps steps
  | .break_ => pure .broke
  | .continue_ => pure .continued

def runStmts : Block → OnPath Exit
  | .nil => pure .normal
  | .cons head tail => do
    match ← runStmt head with
    | .normal => runStmts tail
    | .broke => do
      skip tail.assigned
      pure .broke
    | exit => pure exit

/-- One arm of a `match`; the last is taken without a test. -/
def runArms : Arms → OnPath Exit
  | .nil => pure .normal
  | .cons bindings body .nil => do
    declareAll bindings
    let exit ← runStmts body
    leaveArm body.definitelyReturns exit
  | .cons bindings body rest => do
    if ← choose then do
      declareAll bindings
      let exit ← runStmts body
      leaveArm body.definitelyReturns exit
    else runArms rest

/-- One handler of a `try`; the others are passed over. -/
def runHandlers : Arms → OnPath Exit
  | .nil => pure .normal
  | .cons bindings body .nil => do
    declareAll bindings
    runStmts body
  | .cons bindings body rest => do
    if ← choose then do
      declareAll bindings
      match ← runStmts body with
      | .normal => do
        skip rest.assigned
        pure .normal
      | .broke => do
        skip rest.assigned
        pure .broke
      | exit => pure exit
    else do
      skip body.assigned
      runHandlers rest

def runSteps : Steps → OnPath Exit
  | .trailing stmts => runStmts stmts
  | .step setup operand _ handlers binding rest => do
    match ← runStmts setup with
    | .normal => do
      evalExpr operand
      if ← choose then do
        skip handlers.assigned
        declareLocal binding .owned
        runSteps rest
      else
        match ← runHandlers handlers with
        | .normal => do
          skip rest.assigned
          pure .normal
        | .broke => do
          skip rest.assigned
          pure .broke
        | exit => pure exit
    | .broke => do
      skip (handlers.assigned ++ rest.assigned)
      pure .broke
    | exit => pure exit

end

end Run

def PathEvent.sound : PathEvent → Bool
  | .read _ moved => !moved
  | .move _ already => !already
  | _ => true

/-- The step keeps to the ways the checker walks. -/
def PathEvent.covered : PathEvent → Bool
  | .stored _ before now => before || !now
  | .exchanged moves touched => moves.all fun slot => decide (slot ∉ touched)
  | .skipped assigned moved => assigned.all fun slot => decide (slot ∉ moved)
  | .repeated moves => moves.isEmpty
  | .continued inside head now =>
    now.all fun slot => decide (slot ∈ head) || decide (slot ∈ inside)
  | .leftReturning => false
  | _ => true

end MoveChecker

end KiraVm
