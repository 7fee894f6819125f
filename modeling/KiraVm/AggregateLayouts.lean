import KiraVm.CLayout

/-!
# Layouts of the aggregate table

The layouts of all rows, the scalar leaves of one row and the offsets of its members are
computed by three walks.  Sums and products that do not fit 32 bits are errors that name
the row.
-/

namespace KiraVm

namespace Aggregates

/-- A scalar inside an aggregate, at its offset from the outermost one's start. -/
structure ForeignLeaf where
  offset : Nat
  ty : ForeignType
  deriving DecidableEq, Repr

/-- A sum or product that has to fit. -/
def fitting {α : Type} (index : UInt32) : Option α → Except ForeignAggregateError α
  | some value => .ok value
  | none => .error (.tooLarge index)

/-- The layout of a row already laid out. -/
def knownLayout (container : UInt32) (layouts : List ForeignLayout) (id : UInt32) :
    Except ForeignAggregateError ForeignLayout :=
  match layouts[id.toNat]? with
  | some layout => .ok layout
  | none => .error (.forwardReference container id)

def elementLayout (element : ForeignArrayElement) (container : UInt32)
    (width : ForeignPointerWidth) (layouts : List ForeignLayout) :
    Except ForeignAggregateError ForeignLayout :=
  match element with
  | .scalar ty => .ok (scalarLayout width ty)
  | .aggregate id => knownLayout container layouts id

def memberLayout (member : ForeignMember) (container : UInt32) (width : ForeignPointerWidth)
    (layouts : List ForeignLayout) : Except ForeignAggregateError ForeignLayout :=
  match member with
  | .scalar ty => .ok (scalarLayout width ty)
  | .aggregate id => knownLayout container layouts id
  | .array element count => do
    let element ← elementLayout element container width layouts
    let size ← fitting container (checkedMul element.size count.toNat)
    pure ⟨size, element.align⟩

def placeMembers (index : UInt32) (width : ForeignPointerWidth) (layouts : List ForeignLayout) :
    (size align : Nat) → List ForeignMember → Except ForeignAggregateError ForeignLayout
  | size, align, [] => pure ⟨size, align⟩
  | size, align, member :: members => do
    let layout ← memberLayout member index width layouts
    let align := max align layout.align
    let size ← fitting index
      ((roundUp size layout.align).bind fun start => checkedAdd start layout.size)
    placeMembers index width layouts size align members

def rowLayout (index : UInt32) (width : ForeignPointerWidth) (layouts : List ForeignLayout)
    (row : ForeignAggregate) : Except ForeignAggregateError ForeignLayout := do
  let placed ← placeMembers index width layouts 0 1 row.members
  let size ← fitting index (roundUp (max placed.size 1) placed.align)
  pure ⟨size, placed.align⟩

/-- Lay out the rows in order; the layouts so far tell the row's index. -/
def layoutRows (width : ForeignPointerWidth) :
    List ForeignLayout → List ForeignAggregate → Except ForeignAggregateError (List ForeignLayout)
  | layouts, [] => pure layouts
  | layouts, row :: rows => do
    let layout ← rowLayout (UInt32.ofNat layouts.length) width layouts row
    layoutRows width (layouts ++ [layout]) rows

def layouts (table : ForeignAggregates) (width : ForeignPointerWidth) :
    Except ForeignAggregateError (List ForeignLayout) :=
  layoutRows width [] table.entries

def layoutOf (table : ForeignAggregates) (id : UInt32) (width : ForeignPointerWidth) :
    Except ForeignAggregateError ForeignLayout := do
  let layouts ← layouts table width
  match layouts[id.toNat]? with
  | some layout => pure layout
  | none => throw (.unknownAggregate id)

/-! ## Offsets of the members -/

def collectOffsets (id : UInt32) (width : ForeignPointerWidth) (layouts : List ForeignLayout) :
    (offset : Nat) → (offsets : List Nat) → List ForeignMember →
      Except ForeignAggregateError (List Nat)
  | _, offsets, [] => pure offsets
  | offset, offsets, member :: members => do
    let layout ← memberLayout member id width layouts
    let offset ← fitting id (roundUp offset layout.align)
    let ending ← fitting id (checkedAdd offset layout.size)
    collectOffsets id width layouts ending (offsets ++ [offset]) members

def memberOffsetsOf (table : ForeignAggregates) (id : UInt32) (width : ForeignPointerWidth) :
    Except ForeignAggregateError (List Nat) := do
  let layouts ← layouts table width
  match table.get id with
  | none => throw (.unknownAggregate id)
  | some aggregate => collectOffsets id width layouts 0 [] aggregate.members

/-! ## Leaves -/

def collectElements (id : UInt32)
    (collectNested : UInt32 → Nat → List ForeignLeaf →
      Except ForeignAggregateError (List ForeignLeaf))
    (element : ForeignArrayElement) (stride base offset : Nat) :
    (left step : Nat) → List ForeignLeaf → Except ForeignAggregateError (List ForeignLeaf)
  | 0, _, leaves => pure leaves
  | left + 1, step, leaves => do
    let start ← fitting id
      ((checkedAdd base offset).bind fun start =>
        (checkedMul stride step).bind fun further => checkedAdd start further)
    let leaves ← match element with
      | .scalar ty => pure (leaves ++ [⟨start, ty⟩])
      | .aggregate nested => collectNested nested start leaves
    collectElements id collectNested element stride base offset left (step + 1) leaves

def collectMember (id : UInt32) (width : ForeignPointerWidth) (layouts : List ForeignLayout)
    (collectNested : UInt32 → Nat → List ForeignLeaf →
      Except ForeignAggregateError (List ForeignLeaf))
    (base offset : Nat) (leaves : List ForeignLeaf) :
    ForeignMember → Except ForeignAggregateError (Nat × List ForeignLeaf)
  | .scalar ty => do
    let layout := scalarLayout width ty
    let offset ← fitting id (roundUp offset layout.align)
    let start ← fitting id (checkedAdd base offset)
    let ending ← fitting id (checkedAdd offset layout.size)
    pure (ending, leaves ++ [⟨start, ty⟩])
  | .aggregate nested => do
    let layout ← knownLayout id layouts nested
    let offset ← fitting id (roundUp offset layout.align)
    let nestedBase ← fitting id (checkedAdd base offset)
    let leaves ← collectNested nested nestedBase leaves
    let ending ← fitting id (checkedAdd offset layout.size)
    pure (ending, leaves)
  | .array element count => do
    let whole ← memberLayout (.array element count) id width layouts
    let stride := (← elementLayout element id width layouts).size
    let offset ← fitting id (roundUp offset whole.align)
    let leaves ←
      collectElements id collectNested element stride base offset count.toNat 0 leaves
    let ending ← fitting id (checkedAdd offset whole.size)
    pure (ending, leaves)

def collectMembers (id : UInt32) (width : ForeignPointerWidth) (layouts : List ForeignLayout)
    (collectNested : UInt32 → Nat → List ForeignLeaf →
      Except ForeignAggregateError (List ForeignLeaf))
    (base : Nat) :
    (offset : Nat) → List ForeignLeaf → List ForeignMember →
      Except ForeignAggregateError (List ForeignLeaf)
  | _, leaves, [] => pure leaves
  | offset, leaves, member :: members => do
    let (ending, leaves) ←
      collectMember id width layouts collectNested base offset leaves member
    collectMembers id width layouts collectNested base ending leaves members

/-- Append a row's leaves, moved by `base`, to the given depth of nesting. -/
def collectLeaves (table : ForeignAggregates) (width : ForeignPointerWidth)
    (layouts : List ForeignLayout) :
    (depth : Nat) → UInt32 → Nat → List ForeignLeaf →
      Except ForeignAggregateError (List ForeignLeaf)
  | 0, id, _, _ => throw (.unknownAggregate id)
  | depth + 1, id, base, leaves =>
    match table.get id with
    | none => throw (.unknownAggregate id)
    | some aggregate =>
      collectMembers id width layouts (collectLeaves table width layouts depth) base 0 leaves
        aggregate.members

/-- A row refers only to rows before it, so the table's length bounds the nesting. -/
def leavesOf (table : ForeignAggregates) (id : UInt32) (width : ForeignPointerWidth) :
    Except ForeignAggregateError (List ForeignLeaf) := do
  let layouts ← layouts table width
  collectLeaves table width layouts (table.entries.length + 1) id 0 []

/-! ## The marshalling walk's layouts -/

theorem toOption_bind {ε α β : Type} (first : Except ε α) (next : α → Except ε β) :
    (first >>= next).toOption = first.toOption.bind fun value => (next value).toOption := by
  cases first <;> rfl

@[simp]
theorem toOption_pure {ε α : Type} (value : α) :
    (pure value : Except ε α).toOption = some value :=
  rfl

@[simp]
theorem toOption_fitting {α : Type} (index : UInt32) (checked : Option α) :
    (fitting index checked).toOption = checked := by
  cases checked <;> rfl

theorem toOption_knownLayout (container : UInt32) (layouts : List ForeignLayout) (id : UInt32) :
    (knownLayout container layouts id).toOption = layouts[id.toNat]? := by
  unfold knownLayout
  cases layouts[id.toNat]? <;> rfl

theorem toOption_elementLayout (element : ForeignArrayElement) (container : UInt32)
    (width : ForeignPointerWidth) (layouts : List ForeignLayout) :
    (elementLayout element container width layouts).toOption =
      KiraVm.elementLayout width layouts element := by
  cases element with
  | scalar ty => rfl
  | aggregate id => exact toOption_knownLayout container layouts id

theorem toOption_memberLayout (member : ForeignMember) (container : UInt32)
    (width : ForeignPointerWidth) (layouts : List ForeignLayout) :
    (memberLayout member container width layouts).toOption =
      KiraVm.memberLayout width layouts member := by
  cases member with
  | scalar ty => rfl
  | aggregate id => exact toOption_knownLayout container layouts id
  | array element count =>
    simp only [memberLayout, KiraVm.memberLayout, toOption_bind, toOption_elementLayout,
      toOption_fitting, toOption_pure]
    rfl

theorem toOption_placeMembers (index : UInt32) (width : ForeignPointerWidth)
    (layouts : List ForeignLayout) (members : List ForeignMember) (size align : Nat) :
    (placeMembers index width layouts size align members).toOption =
      KiraVm.placeMembers width layouts size align members := by
  induction members generalizing size align with
  | nil => rfl
  | cons member members ih =>
    simp only [placeMembers, KiraVm.placeMembers, toOption_bind, toOption_memberLayout,
      toOption_fitting, ih, Option.bind_assoc]
    rfl

theorem toOption_layoutRows (width : ForeignPointerWidth) (rows : List ForeignAggregate)
    (layouts : List ForeignLayout) :
    (layoutRows width layouts rows).toOption = KiraVm.layoutRows width layouts rows := by
  induction rows generalizing layouts with
  | nil => rfl
  | cons row rows ih =>
    simp only [layoutRows, rowLayout, KiraVm.layoutRows, toOption_bind, toOption_placeMembers,
      toOption_fitting, toOption_pure, ih, Option.bind_assoc, Option.bind_some]
    rfl

/-- The structs that cross the foreign seam are laid out by the same layouts. -/
theorem toOption_layouts (table : ForeignAggregates) (width : ForeignPointerWidth) :
    (layouts table width).toOption = table.layouts width :=
  toOption_layoutRows width table.entries []

end Aggregates

end KiraVm
