import KiraVm.HeapSeam

/-!
# C layouts

Structs cross the foreign seam as bytes laid out the way C lays them out.  Both
directions walk an aggregate's members and the struct's fields in step.
-/

namespace KiraVm

structure ForeignLayout where
  size : Nat
  align : Nat
  deriving DecidableEq, Repr

def checkedAdd (left right : Nat) : Option Nat :=
  if left + right < 2 ^ 32 then some (left + right) else none

def checkedMul (left right : Nat) : Option Nat :=
  if left * right < 2 ^ 32 then some (left * right) else none

def roundUp (value align : Nat) : Option Nat :=
  (checkedAdd value (align - 1)).map fun raised => raised - raised % align

def scalarLayout (width : ForeignPointerWidth) (ty : ForeignType) : ForeignLayout :=
  let size := scalarSize width ty
  ⟨size, if size = 0 then 1 else size⟩

def elementLayout (width : ForeignPointerWidth) (layouts : List ForeignLayout) :
    ForeignArrayElement → Option ForeignLayout
  | .scalar ty => some (scalarLayout width ty)
  | .aggregate id => layouts[id.toNat]?

def memberLayout (width : ForeignPointerWidth) (layouts : List ForeignLayout) :
    ForeignMember → Option ForeignLayout
  | .scalar ty => some (scalarLayout width ty)
  | .aggregate id => layouts[id.toNat]?
  | .array element count => do
    let element ← elementLayout width layouts element
    let size ← checkedMul element.size count.toNat
    pure ⟨size, element.align⟩

def placeMembers (width : ForeignPointerWidth) (layouts : List ForeignLayout) :
    (size align : Nat) → List ForeignMember → Option ForeignLayout
  | size, align, [] => some ⟨size, align⟩
  | size, align, member :: members => do
    let layout ← memberLayout width layouts member
    let start ← roundUp size layout.align
    let size ← checkedAdd start layout.size
    placeMembers width layouts size (max align layout.align) members

/-- The layouts of a table's rows, each from those before it. -/
def layoutRows (width : ForeignPointerWidth) :
    List ForeignLayout → List ForeignAggregate → Option (List ForeignLayout)
  | layouts, [] => some layouts
  | layouts, row :: rows => do
    let placed ← placeMembers width layouts 0 1 row.members
    let size ← roundUp (max placed.size 1) placed.align
    layoutRows width (layouts ++ [⟨size, placed.align⟩]) rows

def ForeignAggregates.layouts (table : ForeignAggregates) (width : ForeignPointerWidth) :
    Option (List ForeignLayout) :=
  layoutRows width [] table.entries

inductive AggregateMismatch
  | shape
  | arrayTooLong (count : UInt32) (len : Nat)
  deriving DecidableEq, Repr

def shape {α : Type} : Option α → Except AggregateMismatch α
  | some value => .ok value
  | none => .error .shape

structure Walk where
  table : ForeignAggregates
  layouts : List ForeignLayout
  width : ForeignPointerWidth

def Walk.new (table : ForeignAggregates) (width : ForeignPointerWidth) : Option Walk :=
  (table.layouts width).map fun layouts => ⟨table, layouts, width⟩

def Walk.layout (walk : Walk) (id : UInt32) : Option ForeignLayout :=
  walk.layouts[id.toNat]?

def Walk.elementLayout (walk : Walk) (element : ForeignArrayElement) : Option ForeignLayout :=
  KiraVm.elementLayout walk.width walk.layouts element

/-- A scalar as its little-endian bytes. -/
def encodeScalar (floats : Floats) (width : ForeignPointerWidth) (ty : ForeignType)
    (value : Value) : Option (List UInt8) :=
  let bytes (word : UInt64) := (ByteReader.u64Bytes word).take (scalarSize width ty)
  match ty, value with
  | .i8, .int value | .u8, .int value | .i16, .int value | .u16, .int value
  | .i32, .int value | .u32, .int value | .i64, .int value | .u64, .int value =>
    some (bytes value.toUInt64)
  | .f32, .float bits => some (bytes (floats.narrow bits).toUInt64)
  | .f64, .float bits => some (bytes bits)
  | .bool, .bool value => some [if value then 1 else 0]
  | .rawPtr, .rawPtr word | .cString, .rawPtr word => some (bytes word)
  | _, _ => none

def decodeScalar (floats : Floats) (width : ForeignPointerWidth) (ty : ForeignType)
    (bytes : List UInt8) : Option Value :=
  match ty with
  | .void => none
  | .bool => bytes.head?.map fun byte => .bool (byte != 0)
  | .rawPtr | .cString =>
    if bytes.length = 4 ∨ bytes.length = 8 then
      some (.rawPtr (UInt64.ofNat (ByteReader.leValue bytes)))
    else
      none
  | _ =>
    if bytes.length = scalarSize width ty then
      some (foreignScalarValue floats ty (UInt64.ofNat (ByteReader.leValue bytes)))
    else
      none

def patchInside (bytes word : List UInt8) (start : Nat) : Option (List UInt8) :=
  if start + word.length ≤ bytes.length then some (Heap.patch bytes word start) else none

namespace Heap

def writeElements (floats : Floats) (heap : Heap) (walk : Walk)
    (writeNested : UInt32 → Value → Nat → List UInt8 → Except AggregateMismatch (List UInt8))
    (element : ForeignArrayElement) (stride base : Nat) :
    (index : Nat) → List UInt8 → List Value → Except AggregateMismatch (List UInt8)
  | _, bytes, [] => pure bytes
  | index, bytes, value :: values => do
    let step ← shape (checkedMul stride index)
    let start ← shape (checkedAdd base step)
    let bytes ← match element with
      | .scalar ty => do
        let encoded ← shape (encodeScalar floats walk.width ty (heap.seamWord value))
        shape (patchInside bytes encoded start)
      | .aggregate nested => writeNested nested value start bytes
    writeElements floats heap walk writeNested element stride base (index + 1) bytes values

def writeArray (floats : Floats) (heap : Heap) (walk : Walk)
    (writeNested : UInt32 → Value → Nat → List UInt8 → Except AggregateMismatch (List UInt8))
    (element : ForeignArrayElement) (count : UInt32) (stride : Nat) (field : Value) (base : Nat)
    (bytes : List UInt8) : Except AggregateMismatch (List UInt8) :=
  match field with
  | .array handle =>
    let elements := heap.elements handle
    if count.toNat < elements.length then .error (.arrayTooLong count elements.length)
    else writeElements floats heap walk writeNested element stride base 0 bytes elements
  | _ => .error .shape

def writeMembers (floats : Floats) (heap : Heap) (walk : Walk)
    (writeNested : UInt32 → Value → Nat → List UInt8 → Except AggregateMismatch (List UInt8))
    (base : Nat) :
    (offset : Nat) → List UInt8 → List (ForeignMember × Value) →
      Except AggregateMismatch (List UInt8)
  | _, bytes, [] => pure bytes
  | offset, bytes, (.scalar ty, field) :: rest => do
    let layout := scalarLayout walk.width ty
    let offset ← shape (roundUp offset layout.align)
    let start ← shape (checkedAdd base offset)
    let encoded ← shape (encodeScalar floats walk.width ty (heap.seamWord field))
    let bytes ← shape (patchInside bytes encoded start)
    let offset ← shape (checkedAdd offset layout.size)
    writeMembers floats heap walk writeNested base offset bytes rest
  | offset, bytes, (.aggregate nested, field) :: rest => do
    let layout ← shape (walk.layout nested)
    let offset ← shape (roundUp offset layout.align)
    let start ← shape (checkedAdd base offset)
    let bytes ← writeNested nested field start bytes
    let offset ← shape (checkedAdd offset layout.size)
    writeMembers floats heap walk writeNested base offset bytes rest
  | offset, bytes, (.array element count, field) :: rest => do
    let layout ← shape (walk.elementLayout element)
    let offset ← shape (roundUp offset layout.align)
    let start ← shape (checkedAdd base offset)
    let bytes ← writeArray floats heap walk writeNested element count layout.size field start bytes
    let extent ← shape (checkedMul layout.size count.toNat)
    let offset ← shape (checkedAdd offset extent)
    writeMembers floats heap walk writeNested base offset bytes rest

def writeAggregate (floats : Floats) (heap : Heap) (walk : Walk) :
    Nat → UInt32 → Value → Nat → List UInt8 → Except AggregateMismatch (List UInt8)
  | 0, _, _, _, _ => .error .shape
  | depth + 1, id, value, base, bytes => do
    let aggregate ← shape (walk.table.get id)
    match value with
    | .struct handle =>
      let fields := heap.fields handle
      if fields.length ≠ aggregate.members.length then throw .shape
      writeMembers floats heap walk (writeAggregate floats heap walk depth) base 0 bytes
        (aggregate.members.zip fields)
    | _ => throw .shape

/-- A struct as the bytes of its C layout.  A row refers only to rows before it,
so the table's length bounds the nesting. -/
def aggregateBytes (floats : Floats) (heap : Heap) (table : ForeignAggregates) (id : UInt32)
    (value : Value) (width : ForeignPointerWidth) : Except AggregateMismatch (List UInt8) := do
  let walk ← shape (Walk.new table width)
  let layout ← shape (walk.layout id)
  writeAggregate floats heap walk (table.entries.length + 1) id value 0
    (List.replicate layout.size 0)

def sliceInside (bytes : List UInt8) (start size : Nat) : Option (List UInt8) :=
  if start + size ≤ bytes.length then some ((bytes.drop start).take size) else none

def readElements (floats : Floats) (walk : Walk)
    (readNested : UInt32 → Nat → Heap → Option Value × Heap) (element : ForeignArrayElement)
    (stride : Nat) (bytes : List UInt8) (base : Nat) :
    (left index : Nat) → List Value → Heap → Option (List Value) × Heap
  | 0, _, elements, heap => (some elements, heap)
  | left + 1, index, elements, heap =>
    match (checkedMul stride index).bind (checkedAdd base) with
    | none => (none, heap)
    | some start =>
      match element with
      | .scalar ty =>
        match (sliceInside bytes start stride).bind (decodeScalar floats walk.width ty) with
        | none => (none, heap)
        | some value =>
          readElements floats walk readNested element stride bytes base left (index + 1)
            (elements ++ [value]) heap
      | .aggregate nested =>
        match readNested nested start heap with
        | (none, heap) => (none, heap)
        | (some value, heap) =>
          readElements floats walk readNested element stride bytes base left (index + 1)
            (elements ++ [value]) heap

def readArray (floats : Floats) (walk : Walk)
    (readNested : UInt32 → Nat → Heap → Option Value × Heap) (element : ForeignArrayElement)
    (count : UInt32) (stride : Nat) (bytes : List UInt8) (base : Nat) (heap : Heap) :
    Option Value × Heap :=
  match readElements floats walk readNested element stride bytes base count.toNat 0 [] heap with
  | (none, heap) => (none, heap)
  | (some elements, heap) =>
    let (value, heap) := heap.allocArray elements
    (some value, heap)

/-- Where a member starts, and the size it takes. -/
def memberPlace (walk : Walk) (offset : Nat) (member : ForeignMember) : Option (Nat × Nat) := do
  let layout ← memberLayout walk.width walk.layouts member
  let offset ← roundUp offset layout.align
  pure (offset, layout.size)

def readMember (floats : Floats) (walk : Walk)
    (readNested : UInt32 → Nat → Heap → Option Value × Heap) (bytes : List UInt8)
    (start size : Nat) (heap : Heap) : ForeignMember → Option Value × Heap
  | .scalar ty =>
    ((sliceInside bytes start size).bind (decodeScalar floats walk.width ty), heap)
  | .aggregate nested => readNested nested start heap
  | .array element count =>
    match walk.elementLayout element with
    | none => (none, heap)
    | some layout => readArray floats walk readNested element count layout.size bytes start heap

def readMembers (floats : Floats) (walk : Walk)
    (readNested : UInt32 → Nat → Heap → Option Value × Heap) (bytes : List UInt8) (base : Nat) :
    (offset : Nat) → List Value → Heap → List ForeignMember → Option (List Value) × Heap
  | _, fields, heap, [] => (some fields, heap)
  | offset, fields, heap, member :: members =>
    match memberPlace walk offset member with
    | none => (none, heap)
    | some (offset, size) =>
      match checkedAdd base offset with
      | none => (none, heap)
      | some start =>
        match readMember floats walk readNested bytes start size heap member with
        | (none, heap) => (none, heap)
        | (some value, heap) =>
          match checkedAdd offset size with
          | none => (none, heap)
          | some offset =>
            readMembers floats walk readNested bytes base offset (fields ++ [value])
              heap members

/-- Build a struct from its C layout, to the given depth of nesting. -/
def readAggregate (floats : Floats) (walk : Walk) (bytes : List UInt8) :
    Nat → UInt32 → Nat → Heap → Option Value × Heap
  | 0, _, _, heap => (none, heap)
  | depth + 1, id, base, heap =>
    match walk.table.get id with
    | none => (none, heap)
    | some aggregate =>
      match readMembers floats walk (readAggregate floats walk bytes depth) bytes base 0 []
          heap aggregate.members with
      | (none, heap) => (none, heap)
      | (some fields, heap) =>
        let (value, heap) := heap.allocStruct fields
        (some value, heap)

def absorbAggregate (floats : Floats) (heap : Heap) (table : ForeignAggregates) (id : UInt32)
    (bytes : List UInt8) (width : ForeignPointerWidth) : Option Value × Heap :=
  match (Walk.new table width).bind fun walk => (walk.layout id).map fun layout => (walk, layout) with
  | none => (none, heap)
  | some (walk, layout) =>
    if bytes.length = layout.size then
      readAggregate floats walk bytes (table.entries.length + 1) id 0 heap
    else
      (none, heap)

/-! ## Blocks of C storage inside a layout -/

def takeBlockCBlock (heap : Heap) (block index child : Nat) : Option Heap :=
  if heap.strongCount block = 1 ∧ (heap.blockValues block)[index]? = some (.cBlock child) then
    some (heap.setBlockValue block index (.rawPtr 0))
  else
    none

def takeStructCBlock (heap : Heap) (id index child : Nat) : Option Heap :=
  match heap.object? id with
  | some (.struct block) => heap.takeBlockCBlock block index child
  | _ => none

def takeArrayCBlock (heap : Heap) (id index child : Nat) : Option Heap :=
  match heap.object? id with
  | some (.array block) => heap.takeBlockCBlock block index child
  | _ => none

def attachMovedCBlock (heap : Heap) (root offset : Nat) (width : ForeignPointerWidth)
    (child : Nat) : Except AggregateMismatch Unit × Heap :=
  match heap.cblockAttach root (UInt64.ofNat offset) width child with
  | (true, heap) => (.ok (), heap)
  | (false, heap) => (.error .shape, heap.dropValue (.cBlock child))

def moveCBlock (heap : Heap) (walk : Walk) (root : Nat) (take : Heap → Nat → Option Heap)
    (start : Option Nat) : Value → Except AggregateMismatch Unit × Heap
  | .cBlock child =>
    match take heap child with
    | none => (.error .shape, heap)
    | some heap =>
      match start with
      | none => (.error .shape, heap)
      | some start => heap.attachMovedCBlock root start walk.width child
  | _ => (.ok (), heap)

def moveElementCBlocks (walk : Walk) (root : Nat)
    (moveNested : UInt32 → Value → Nat → Heap → Except AggregateMismatch Unit × Heap)
    (element : ForeignArrayElement) (stride base array : Nat) :
    (left index : Nat) → Heap → Except AggregateMismatch Unit × Heap
  | 0, _, heap => (.ok (), heap)
  | left + 1, index, heap =>
    match heap.element array index with
    | none => (.error .shape, heap)
    | some value =>
      match (checkedMul stride index).bind (checkedAdd base) with
      | none => (.error .shape, heap)
      | some start =>
        let moved := match element with
          | .aggregate nested => moveNested nested value start heap
          | .scalar _ =>
            heap.moveCBlock walk root (fun heap => heap.takeArrayCBlock array index)
              (some start) value
        match moved with
        | (.error mismatch, heap) => (.error mismatch, heap)
        | (.ok (), heap) =>
          moveElementCBlocks walk root moveNested element stride base array left
            (index + 1) heap

def moveArrayCBlocks (walk : Walk) (root : Nat)
    (moveNested : UInt32 → Value → Nat → Heap → Except AggregateMismatch Unit × Heap)
    (element : ForeignArrayElement) (count : UInt32) (stride base : Nat) (heap : Heap) :
    Value → Except AggregateMismatch Unit × Heap
  | .array array =>
    let heap := heap.makeArrayUnique array
    match heap.arrayLen array with
    | none => (.error .shape, heap)
    | some len =>
      if count.toNat < len then (.error (.arrayTooLong count len), heap)
      else moveElementCBlocks walk root moveNested element stride base array len 0 heap
  | _ => (.error .shape, heap)

def moveMemberCBlocks (walk : Walk) (root : Nat)
    (moveNested : UInt32 → Value → Nat → Heap → Except AggregateMismatch Unit × Heap)
    (struct index : Nat) (field : Value) (base offset : Nat) (heap : Heap) :
    ForeignMember → Except AggregateMismatch Unit × Heap
  | .scalar _ =>
    heap.moveCBlock walk root (fun heap => heap.takeStructCBlock struct index)
      (checkedAdd base offset) field
  | .aggregate nested =>
    match checkedAdd base offset with
    | none => (.error .shape, heap)
    | some start => moveNested nested field start heap
  | .array element count =>
    match walk.elementLayout element, checkedAdd base offset with
    | some layout, some start =>
      moveArrayCBlocks walk root moveNested element count layout.size start heap field
    | _, _ => (.error .shape, heap)

def moveMembersCBlocks (walk : Walk) (root : Nat)
    (moveNested : UInt32 → Value → Nat → Heap → Except AggregateMismatch Unit × Heap)
    (struct base : Nat) :
    (offset index : Nat) → Heap → List ForeignMember → Except AggregateMismatch Unit × Heap
  | _, _, heap, [] => (.ok (), heap)
  | offset, index, heap, member :: members =>
    match heap.field struct (UInt64.ofNat index) with
    | none => (.error .shape, heap)
    | some field =>
      match memberPlace walk offset member with
      | none => (.error .shape, heap)
      | some (offset, size) =>
        match moveMemberCBlocks walk root moveNested struct index field base offset heap
            member with
        | (.error mismatch, heap) => (.error mismatch, heap)
        | (.ok (), heap) =>
          match checkedAdd offset size with
          | none => (.error .shape, heap)
          | some offset =>
            moveMembersCBlocks walk root moveNested struct base offset (index + 1) heap
              members

def moveAggregateCBlocks (walk : Walk) (root : Nat) :
    Nat → UInt32 → Value → Nat → Heap → Except AggregateMismatch Unit × Heap
  | 0, _, _, _, heap => (.error .shape, heap)
  | depth + 1, id, value, base, heap =>
    match walk.table.get id, value with
    | some aggregate, .struct struct =>
      let heap := heap.makeStructUnique struct
      if (heap.fields struct).length ≠ aggregate.members.length then (.error .shape, heap)
      else
        moveMembersCBlocks walk root (moveAggregateCBlocks walk root depth) struct base 0 0
          heap aggregate.members
    | _, _ => (.error .shape, heap)

/-- A block of C storage that holds a struct's layout and owns the blocks the
struct held.  The struct goes. -/
def cblockAggregateImage (heap : Heap) (table : ForeignAggregates) (id : UInt32) (value : Value)
    (width : ForeignPointerWidth) (bytes : List UInt8) : Except AggregateMismatch Nat × Heap :=
  match Walk.new table width with
  | none => (.error .shape, heap)
  | some walk =>
    let (root, heap) := heap.cblockBytes bytes
    match moveAggregateCBlocks walk root (table.entries.length + 1) id value 0 heap with
    | (.ok (), heap) => (.ok root, heap.dropValue value)
    | (.error mismatch, heap) =>
      (.error mismatch, (heap.dropValue value).dropValue (.cBlock root))

end Heap

end KiraVm
