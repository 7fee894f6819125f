import KiraVm.ModuleModel
import KiraVm.WordReader
import Mathlib.Logic.Function.Basic

/-!
# Runtime values and the object heap

Scalars live inline in a value; strings, structs, arrays, enums, erasures,
cells, snapshots and blocks of C storage live in the slots of a heap.  Structs
and arrays keep their contents in counted blocks that several slots may name
until one of them is written through.  Slots and blocks are named by their
position; the source's positions are 32 bits wide, and nothing here depends on
that bound.
-/

namespace KiraVm

/-- An exact base-10 decimal. -/
structure Decimal where
  mantissa : Int64
  scale : UInt32
  deriving DecidableEq, Repr

inductive ForeignPointerWidth
  | bits32 | bits64
  deriving DecidableEq, Repr

namespace ForeignPointerWidth

/-- The host is a 64-bit machine. -/
def host : ForeignPointerWidth := .bits64

def bytes : ForeignPointerWidth → Nat
  | .bits32 => 4
  | .bits64 => 8

end ForeignPointerWidth

/-! ## Callback state -/

mutual

/-- A block of C storage outside any heap. -/
inductive NativeCBlock
  | mk (bytes : List UInt8) (children : List NativeCBlockChild)

inductive NativeCBlockChild
  | mk (offset : UInt64) (width : ForeignPointerWidth) (block : NativeCBlock)

end

/-- A tree of callback state.  A `cell` is a share of a capture cell, owned by
some VM or by native code.  A `nativeState` node owns a reference to a token:
`events` says whether its references are counted in this heap's queue, and
`shared` whether another holder of the same node exists. -/
inductive NativeStateValue
  | int (value : Int64)
  | float (bits : UInt64)
  | bool (value : Bool)
  | string (text : String)
  | number (value : Decimal)
  | struct (fields : List NativeStateValue)
  | dropStruct (glue : UInt32) (fields : List NativeStateValue)
  | array (elements : List NativeStateValue)
  | rawPtr (word : UInt64)
  | cell (handle : Nat) (vmOwned : Bool)
  | any (typeId : UInt64) (payload : NativeStateValue)
  | enum (tag : UInt32) (payload : Option NativeStateValue)
  | nativeState (token : UInt64) (events shared : Bool)
  | cBlock (block : NativeCBlock)

/-! ## Values and objects -/

/-- A value on the operand stack or in a local.  The handles of heap kinds name
slots. -/
inductive Value
  | int (value : Int64)
  | float (bits : UInt64)
  | bool (value : Bool)
  | number (value : Decimal)
  | str (slot : Nat)
  | struct (slot : Nat)
  | array (slot : Nat)
  | enum (slot : Nat)
  | erased (slot : Nat)
  | cell (slot : Nat)
  | rawPtr (word : UInt64)
  | nativeState (token : UInt64)
  | mainThreadTask (handle : UInt64)
  | nativeView (token typeId : UInt64)
  | nativeSnapshot (slot : Nat)
  | cBlock (slot : Nat)
  | type (id : UInt64)
  | void
  deriving DecidableEq, Repr

/-- Whether dropping the value releases something. -/
def Value.isHeapValue : Value → Bool
  | .str _ | .struct _ | .array _ | .enum _ | .erased _ | .cell _ | .nativeSnapshot _
  | .cBlock _ | .mainThreadTask _ | .nativeState _ => true
  | _ => false

/-- A block of C storage owned by another. -/
structure CBlockChild where
  offset : UInt64
  width : ForeignPointerWidth
  block : Nat
  deriving DecidableEq, Repr

/-- What a slot holds.  `struct` and `array` name the block of their contents;
`serial` is the allocation a C block's address belongs to. -/
inductive Object
  | str (text : String)
  | struct (fields : Nat)
  | array (elements : Nat)
  | enum (tag : UInt64) (payload : Option Value) (shares : Nat)
  | erased (typeId : UInt64) (payload : Value) (shares : Nat)
  | cell (payload : Value) (shares : Nat)
  | snapshot (node : NativeStateValue) (shares : Nat)
  | cBlock (serial : Nat) (bytes : List UInt8) (children : List CBlockChild)

/-- Counted contents: how many slots name them, and the contents. -/
structure Block where
  count : Nat
  values : List Value
  deriving DecidableEq, Repr

/-- A struct waiting for its `Drop` body. -/
structure PendingDrop where
  id : Nat
  glue : UInt32
  deriving DecidableEq, Repr

/-- The object heap.  `pendingDrops` has the latest first; `retains` and
`releases` are the reference counts owed to the host, oldest first. -/
structure Heap where
  slots : List (Option Object)
  blocks : List Block
  freeList : List Nat
  allocated : Nat
  freed : Nat
  retained : List Value
  dropGlue : Nat → Option UInt32
  pendingDrops : List PendingDrop
  retains : List UInt64
  releases : List UInt64
  addressOf : Nat → UInt64

namespace Heap

/-- An empty heap, whose C blocks will have the given addresses. -/
def new (addressOf : Nat → UInt64) : Heap where
  slots := []
  blocks := []
  freeList := []
  allocated := 0
  freed := 0
  retained := []
  dropGlue := fun _ => none
  pendingDrops := []
  retains := []
  releases := []
  addressOf := addressOf

/-! ## Slots and blocks -/

def object? (heap : Heap) (slot : Nat) : Option Object :=
  (heap.slots[slot]?).join

def setObject (heap : Heap) (slot : Nat) (object : Option Object) : Heap :=
  { heap with slots := heap.slots.set slot object }

/-- Put an object in the latest free slot, or in a new one.  A free slot past
the table would be an index out of bounds. -/
def allocObject (heap : Heap) (object : Object) : Nat × Heap :=
  match heap.freeList with
  | slot :: rest =>
    (slot, { heap with
      slots := heap.slots.set slot (some object)
      freeList := rest
      allocated := heap.allocated + 1 })
  | [] =>
    (heap.slots.length, { heap with
      slots := heap.slots ++ [some object]
      allocated := heap.allocated + 1 })

/-- Empty a slot and make it available. -/
def freeSlot (heap : Heap) (slot : Nat) : Heap :=
  { heap with
    slots := heap.slots.set slot none
    freed := heap.freed + 1
    freeList := slot :: heap.freeList }

def blockValues (heap : Heap) (block : Nat) : List Value :=
  match heap.blocks[block]? with
  | some found => found.values
  | none => []

def strongCount (heap : Heap) (block : Nat) : Nat :=
  match heap.blocks[block]? with
  | some found => found.count
  | none => 0

def allocBlock (heap : Heap) (values : List Value) : Nat × Heap :=
  (heap.blocks.length, { heap with blocks := heap.blocks ++ [⟨1, values⟩] })

def cloneBlock (heap : Heap) (block : Nat) : Heap :=
  { heap with blocks := heap.blocks.modify block fun found => { found with count := found.count + 1 } }

/-- One holder less; the last one takes the contents. -/
def dropBlock (heap : Heap) (block : Nat) : List Value × Heap :=
  match heap.blocks[block]? with
  | none => ([], heap)
  | some found =>
    if found.count = 1 then
      (found.values, { heap with blocks := heap.blocks.set block ⟨0, []⟩ })
    else
      ([], { heap with blocks := heap.blocks.set block ⟨found.count - 1, found.values⟩ })

def setBlockValue (heap : Heap) (block index : Nat) (value : Value) : Heap :=
  { heap with
    blocks := heap.blocks.modify block fun found =>
      { found with values := found.values.set index value } }

def pushBlockValue (heap : Heap) (block : Nat) (value : Value) : Heap :=
  { heap with
    blocks := heap.blocks.modify block fun found =>
      { found with values := found.values ++ [value] } }

/-! ## Readers -/

def get (heap : Heap) (id : Nat) : String :=
  match heap.object? id with
  | some (.str text) => text
  | _ => ""

def fields (heap : Heap) (id : Nat) : List Value :=
  match heap.object? id with
  | some (.struct block) => heap.blockValues block
  | _ => []

def field (heap : Heap) (id : Nat) (index : UInt64) : Option Value :=
  (heap.fields id)[index.toNat]?

def elements (heap : Heap) (id : Nat) : List Value :=
  match heap.object? id with
  | some (.array block) => heap.blockValues block
  | _ => []

def arrayLen (heap : Heap) (id : Nat) : Option Nat :=
  match heap.object? id with
  | some (.array block) => some (heap.blockValues block).length
  | _ => none

def element (heap : Heap) (id index : Nat) : Option Value :=
  (heap.elements id)[index]?

def enumTag (heap : Heap) (id : Nat) : Option UInt64 :=
  match heap.object? id with
  | some (.enum tag _ _) => some tag
  | _ => none

def enumPayloadRef (heap : Heap) (id : Nat) : Option Value :=
  match heap.object? id with
  | some (.enum _ payload _) => payload
  | _ => none

def erasedTypeId (heap : Heap) (id : Nat) : Option UInt64 :=
  match heap.object? id with
  | some (.erased typeId _ _) => some typeId
  | _ => none

def erasedPayloadRef (heap : Heap) (id : Nat) : Option Value :=
  match heap.object? id with
  | some (.erased _ payload _) => some payload
  | _ => none

def snapshotNode (heap : Heap) (id : Nat) : Option NativeStateValue :=
  match heap.object? id with
  | some (.snapshot node _) => some node
  | _ => none

def glueOf (heap : Heap) (id : Nat) : Option UInt32 :=
  heap.dropGlue id

def cblockAddress (heap : Heap) (id : Nat) : UInt64 :=
  match heap.object? id with
  | some (.cBlock serial _ _) => heap.addressOf serial
  | _ => 0

/-- Live slots right now. -/
def current (heap : Heap) : Nat :=
  heap.allocated - heap.freed

def owesDrops (heap : Heap) : Bool :=
  !heap.pendingDrops.isEmpty

def owesNativeState (heap : Heap) : Bool :=
  !heap.retains.isEmpty || !heap.releases.isEmpty

/-! ## Dropping -/

def attachDropGlue (heap : Heap) (id : Nat) (glue : UInt32) : Heap :=
  { heap with dropGlue := Function.update heap.dropGlue id (some glue) }

def removeDropGlue (heap : Heap) (id : Nat) : Heap :=
  { heap with dropGlue := Function.update heap.dropGlue id none }

/-- Whether the struct's handle is the last onto its fields. -/
def lastHolderOf (heap : Heap) (id : Nat) : Bool :=
  match heap.object? id with
  | some (.struct block) => heap.strongCount block == 1
  | _ => false

def parkPendingDrop (heap : Heap) (id : Nat) (glue : UInt32) : Heap :=
  { heap with pendingDrops := ⟨id, glue⟩ :: heap.pendingDrops }

/-- Give up the hold of one value.  The answer is what its slot owned and gives
up with it, in the order it is dropped. -/
def release (heap : Heap) : Value → List Value × Heap
  | .nativeState token => ([], { heap with releases := heap.releases ++ [token] })
  | .str id =>
    match heap.object? id with
    | some (.str _) => ([], heap.freeSlot id)
    | _ => ([], heap)
  | .struct id =>
    match heap.object? id with
    | some (.struct block) =>
      match heap.glueOf id, heap.lastHolderOf id with
      -- parked whole: the body sees what the value holds
      | some glue, true => ([], heap.parkPendingDrop id glue)
      | _, _ =>
        let (values, heap) := ((heap.freeSlot id).removeDropGlue id).dropBlock block
        (values.reverse, heap)
    | _ => ([], heap)
  | .array id =>
    match heap.object? id with
    | some (.array block) =>
      let (values, heap) := (heap.freeSlot id).dropBlock block
      (values.reverse, heap)
    | _ => ([], heap)
  | .enum id =>
    match heap.object? id with
    | some (.enum tag payload shares) =>
      if 1 < shares then ([], heap.setObject id (some (.enum tag payload (shares - 1))))
      else (payload.toList, heap.freeSlot id)
    | _ => ([], heap)
  | .erased id =>
    match heap.object? id with
    | some (.erased typeId payload shares) =>
      if 1 < shares then ([], heap.setObject id (some (.erased typeId payload (shares - 1))))
      else ([payload], heap.freeSlot id)
    | _ => ([], heap)
  | .cell id =>
    match heap.object? id with
    | some (.cell payload shares) =>
      if 1 < shares then ([], heap.setObject id (some (.cell payload (shares - 1))))
      else ([payload], heap.freeSlot id)
    | _ => ([], heap)
  | .nativeSnapshot id =>
    match heap.object? id with
    | some (.snapshot node shares) =>
      if 1 < shares then ([], heap.setObject id (some (.snapshot node (shares - 1))))
      else ([], heap.freeSlot id)
    | _ => ([], heap)
  | .cBlock id =>
    match heap.object? id with
    | some (.cBlock _ _ children) =>
      (children.map fun child => .cBlock child.block, heap.freeSlot id)
    | _ => ([], heap)
  | _ => ([], heap)

/-- How many values an object would hand on when it goes. -/
def childCount (heap : Heap) : Option Object → Nat
  | some (.struct block) | some (.array block) => (heap.blockValues block).length
  | some (.enum _ payload _) => payload.toList.length
  | some (.erased _ _ _) | some (.cell _ _) => 1
  | some (.cBlock _ _ children) => children.length
  | _ => 0

/-- Enough steps to drop the values and everything that goes with them. -/
def dropFuel (heap : Heap) (values : List Value) : Nat :=
  values.length + (heap.slots.map heap.childCount).sum

def dropLoop : Nat → Heap → List Value → Heap
  | 0, heap, _ => heap
  | _ + 1, heap, [] => heap
  | fuel + 1, heap, value :: values =>
    let (owned, heap) := heap.release value
    dropLoop fuel heap (owned ++ values)

/-- Drop values in order, each with what it owns before the next. -/
def dropAll (heap : Heap) (values : List Value) : Heap :=
  dropLoop (heap.dropFuel values) heap values

def dropValue (heap : Heap) (value : Value) : Heap :=
  heap.dropAll [value]

/-- Release a parked object whose body has run. -/
def finishPendingDrop (heap : Heap) (id : Nat) : Heap :=
  (heap.removeDropGlue id).dropValue (.struct id)

/-- Release parked objects without their bodies, for as long as there are any.
Each is either parked now or held by something that goes, so the bound is
enough. -/
def abandonPendingDrops (heap : Heap) : Heap :=
  go (heap.dropFuel (heap.pendingDrops.map fun pending => .struct pending.id)) heap
where
  go : Nat → Heap → Heap
    | 0, heap => heap
    | fuel + 1, heap =>
      match heap.pendingDrops with
      | [] => heap
      | pending :: rest =>
        go fuel (({ heap with pendingDrops := rest }).finishPendingDrop pending.id)

/-! ## Copying -/

def cblockBytes (heap : Heap) (bytes : List UInt8) : Nat × Heap :=
  heap.allocObject (.cBlock heap.allocated bytes [])

/-- Overwrite bytes from an offset on. -/
def patch (bytes word : List UInt8) (start : Nat) : List UInt8 :=
  bytes.take start ++ word ++ bytes.drop (start + word.length)

/-- Move a block under another and write its address there. -/
def cblockAttach (heap : Heap) (parent : Nat) (offset : UInt64) (width : ForeignPointerWidth)
    (child : Nat) : Bool × Heap :=
  let word := (ByteReader.u64Bytes (heap.cblockAddress child)).take width.bytes
  match heap.object? parent with
  | some (.cBlock serial bytes children) =>
    if offset.toNat + width.bytes ≤ bytes.length then
      (true, heap.setObject parent (some (.cBlock serial (patch bytes word offset.toNat)
        (children ++ [⟨offset, width, child⟩]))))
    else
      (false, heap)
  | _ => (false, heap)

def copyCBlock : Nat → Heap → Nat → Nat × Heap
  | 0, heap, _ => heap.cblockBytes []
  | depth + 1, heap, id =>
    match heap.object? id with
    | some (.cBlock _ bytes children) =>
      let (copy, heap) := heap.cblockBytes bytes
      (copy, children.foldl (fun heap child =>
        let (nested, heap) := copyCBlock depth heap child.block
        (heap.cblockAttach copy child.offset child.width nested).2) heap)
    | _ => heap.cblockBytes []

/-- One more hold on a shared object. -/
def share (heap : Heap) (id : Nat) : Heap :=
  match heap.object? id with
  | some (.enum tag payload shares) => heap.setObject id (some (.enum tag payload (shares + 1)))
  | some (.erased typeId payload shares) =>
    heap.setObject id (some (.erased typeId payload (shares + 1)))
  | some (.cell payload shares) => heap.setObject id (some (.cell payload (shares + 1)))
  | some (.snapshot node shares) => heap.setObject id (some (.snapshot node (shares + 1)))
  | _ => heap

/-- An independent copy of a value.  Structs and arrays share their contents
with the copy, enums, erasures, cells and snapshots their object; a C block is
cloned, with one level of depth for each slot there is. -/
def copyValue (heap : Heap) : Value → Value × Heap
  | .nativeState token => (.nativeState token, { heap with retains := heap.retains ++ [token] })
  | .str id =>
    let (copy, heap) := heap.allocObject (.str (heap.get id))
    (.str copy, heap)
  | .struct id =>
    let (block, heap) := match heap.object? id with
      | some (.struct block) => (block, heap.cloneBlock block)
      | _ => heap.allocBlock []
    let (copy, copied) := heap.allocObject (.struct block)
    match heap.glueOf id with
    | some glue => (.struct copy, copied.attachDropGlue copy glue)
    | none => (.struct copy, copied)
  | .array id =>
    let (block, heap) := match heap.object? id with
      | some (.array block) => (block, heap.cloneBlock block)
      | _ => heap.allocBlock []
    let (copy, heap) := heap.allocObject (.array block)
    (.array copy, heap)
  | .enum id =>
    match heap.object? id with
    | some (.enum _ _ _) => (.enum id, heap.share id)
    | _ => (.enum id, heap)
  | .erased id =>
    match heap.object? id with
    | some (.erased _ _ _) => (.erased id, heap.share id)
    | _ => (.erased id, heap)
  | .cell id =>
    match heap.object? id with
    | some (.cell _ _) => (.cell id, heap.share id)
    | _ => (.cell id, heap)
  | .nativeSnapshot id =>
    match heap.object? id with
    | some (.snapshot _ _) => (.nativeSnapshot id, heap.share id)
    | _ => (.nativeSnapshot id, heap)
  | .cBlock id =>
    let (copy, heap) := copyCBlock (heap.slots.length + 1) heap id
    (.cBlock copy, heap)
  | scalar => (scalar, heap)

def copyAll (heap : Heap) : List Value → List Value × Heap
  | [] => ([], heap)
  | value :: values =>
    let (copy, heap) := heap.copyValue value
    let (copies, heap) := heap.copyAll values
    (copy :: copies, heap)

/-! ## Callback state as objects -/

mutual

def copyNativeCBlock (heap : Heap) : NativeCBlock → Nat × Heap
  | .mk bytes children =>
    let (root, heap) := heap.cblockBytes bytes
    (root, copyNativeCBlocks heap root children)

def copyNativeCBlocks (heap : Heap) (root : Nat) : List NativeCBlockChild → Heap
  | [] => heap
  | .mk offset width block :: children =>
    let (nested, heap) := copyNativeCBlock heap block
    copyNativeCBlocks (heap.cblockAttach root offset width nested).2 root children

end

def allocStr (heap : Heap) (text : String) : Value × Heap :=
  let (id, heap) := heap.allocObject (.str text)
  (.str id, heap)

/-- The largest handle a slot has in the source. -/
def maxHandle : Nat := 2 ^ 32 - 1

/-- The values of a cell read out of callback state: a share of the same cell
when some VM owns it, else native code's own word. -/
def readCell (heap : Heap) (handle : Nat) (vmOwned : Bool) : Value × Heap :=
  if vmOwned && decide (handle ≤ maxHandle) then heap.copyValue (.cell handle)
  else (.rawPtr (UInt64.ofNat handle), heap)

/-- One more reference to a token, counted here or elsewhere. -/
def duplicateToken (heap : Heap) (token : UInt64) (events : Bool) : Heap :=
  if events then { heap with retains := heap.retains ++ [token] } else heap

mutual

/-- Rebuild a tree as objects.  No value it builds from is a snapshot, so the
parts go into their objects as they are.  A tree that is consumed hands over
its token references, unless another holder shares them. -/
def buildState (consuming : Bool) (heap : Heap) : NativeStateValue → Value × Heap
  | .int value => (.int value, heap)
  | .float bits => (.float bits, heap)
  | .bool value => (.bool value, heap)
  | .number value => (.number value, heap)
  | .rawPtr word => (.rawPtr word, heap)
  | .string text => heap.allocStr text
  | .struct fields =>
    let (values, heap) := buildStates consuming heap fields
    let (block, heap) := heap.allocBlock values
    let (id, heap) := heap.allocObject (.struct block)
    (.struct id, heap)
  | .dropStruct glue fields =>
    let (values, heap) := buildStates consuming heap fields
    let (block, heap) := heap.allocBlock values
    let (id, heap) := heap.allocObject (.struct block)
    (.struct id, heap.attachDropGlue id glue)
  | .array elements =>
    let (values, heap) := buildStates consuming heap elements
    let (block, heap) := heap.allocBlock values
    let (id, heap) := heap.allocObject (.array block)
    (.array id, heap)
  | .enum tag payload =>
    let (value, heap) := buildPayload consuming heap payload
    let (id, heap) := heap.allocObject (.enum tag.toUInt64 value 1)
    (.enum id, heap)
  | .any typeId payload =>
    let (value, heap) := buildState consuming heap payload
    let (id, heap) := heap.allocObject (.erased typeId value 1)
    (.erased id, heap)
  | .cell handle vmOwned => heap.readCell handle vmOwned
  | .nativeState token events shared =>
    (.nativeState token, heap.duplicateToken token (events && (!consuming || shared)))
  | .cBlock block =>
    let (id, heap) := heap.copyNativeCBlock block
    (.cBlock id, heap)

def buildStates (consuming : Bool) (heap : Heap) : List NativeStateValue → List Value × Heap
  | [] => ([], heap)
  | node :: nodes =>
    let (value, heap) := buildState consuming heap node
    let (values, heap) := buildStates consuming heap nodes
    (value :: values, heap)

def buildPayload (consuming : Bool) (heap : Heap) : Option NativeStateValue → Option Value × Heap
  | none => (none, heap)
  | some node =>
    let (value, heap) := buildState consuming heap node
    (some value, heap)

end

def fromNativeState (heap : Heap) (tree : NativeStateValue) : Value × Heap :=
  buildState false heap tree

def consumeNativeState (heap : Heap) (tree : NativeStateValue) : Value × Heap :=
  buildState true heap tree

def dropNativeStateValue (heap : Heap) (tree : NativeStateValue) : Heap :=
  let (value, heap) := heap.consumeNativeState tree
  heap.dropValue value

/-- Hold an aggregate as the node it is; build a scalar. -/
def readStateNode (heap : Heap) (node : NativeStateValue) : Value × Heap :=
  match node with
  | .struct _ | .dropStruct _ _ | .array _ | .enum _ _ =>
    let (id, heap) := heap.allocObject (.snapshot node 1)
    (.nativeSnapshot id, heap)
  | scalar => heap.fromNativeState scalar

/-- Rebuild a deferred read; leave anything else. -/
def own (heap : Heap) (value : Value) : Value × Heap :=
  match value with
  | .nativeSnapshot id =>
    match heap.snapshotNode id with
    | none => (.void, heap.dropValue (.nativeSnapshot id))
    | some node =>
      let (rebuilt, heap) := heap.fromNativeState node
      (rebuilt, heap.dropValue (.nativeSnapshot id))
  | _ => (value, heap)

def ownAll (heap : Heap) : List Value → List Value × Heap
  | [] => ([], heap)
  | value :: values =>
    let (owned, heap) := heap.own value
    let (rest, heap) := heap.ownAll values
    (owned :: rest, heap)

/-! ## Building objects -/

def allocStruct (heap : Heap) (fields : List Value) : Value × Heap :=
  let (fields, heap) := heap.ownAll fields
  let (block, heap) := heap.allocBlock fields
  let (id, heap) := heap.allocObject (.struct block)
  (.struct id, heap)

def allocStructDropping (heap : Heap) (fields : List Value) (glue : UInt32) : Value × Heap :=
  let (fields, heap) := heap.ownAll fields
  let (block, heap) := heap.allocBlock fields
  let (id, heap) := heap.allocObject (.struct block)
  (.struct id, heap.attachDropGlue id glue)

def allocArray (heap : Heap) (elements : List Value) : Value × Heap :=
  let (elements, heap) := heap.ownAll elements
  let (block, heap) := heap.allocBlock elements
  let (id, heap) := heap.allocObject (.array block)
  (.array id, heap)

def allocEnum (heap : Heap) (tag : UInt64) (payload : Option Value) : Value × Heap :=
  let (payload, heap) := match payload with
    | some value =>
      let (value, heap) := heap.own value
      (some value, heap)
    | none => (none, heap)
  let (id, heap) := heap.allocObject (.enum tag payload 1)
  (.enum id, heap)

def allocErased (heap : Heap) (typeId : UInt64) (payload : Value) : Value × Heap :=
  let (payload, heap) := heap.own payload
  let (id, heap) := heap.allocObject (.erased typeId payload 1)
  (.erased id, heap)

def allocCell (heap : Heap) (payload : Value) : Value × Heap :=
  let (payload, heap) := heap.own payload
  let (id, heap) := heap.allocObject (.cell payload 1)
  (.cell id, heap)

def allocStrs (heap : Heap) : List String → List Value × Heap
  | [] => ([], heap)
  | text :: texts =>
    let (value, heap) := heap.allocStr text
    let (values, heap) := heap.allocStrs texts
    (value :: values, heap)

/-! ## Writing -/

/-- Give a struct fields of its own, when it shares them. -/
def makeStructUnique (heap : Heap) (id : Nat) : Heap :=
  match heap.object? id with
  | some (.struct block) =>
    if 1 < heap.strongCount block then
      let (copies, heap) := heap.copyAll (heap.blockValues block)
      let (own, heap) := heap.allocBlock copies
      ((heap.setObject id (some (.struct own))).dropBlock block).2
    else
      heap
  | _ => heap

/-- Give an array elements of its own, when it shares them. -/
def makeArrayUnique (heap : Heap) (id : Nat) : Heap :=
  match heap.object? id with
  | some (.array block) =>
    if 1 < heap.strongCount block then
      let (copies, heap) := heap.copyAll (heap.blockValues block)
      let (own, heap) := heap.allocBlock copies
      ((heap.setObject id (some (.array own))).dropBlock block).2
    else
      heap
  | _ => heap

def writeField (heap : Heap) (id index : Nat) (value : Value) : Bool × Heap :=
  match heap.object? id with
  | some (.struct block) =>
    if heap.strongCount block = 1 ∧ index < (heap.blockValues block).length then
      (true, heap.setBlockValue block index value)
    else
      (false, heap)
  | _ => (false, heap)

/-- Replace a field and drop what was there.  Nothing changes when there is no
such field. -/
def setField (heap : Heap) (id : Nat) (index : UInt64) (value : Value) : Bool × Heap :=
  match heap.field id index with
  | none => (false, heap)
  | some _ =>
    let (value, heap) := heap.own value
    let heap := heap.makeStructUnique id
    match heap.field id index with
    | none => (false, heap.dropValue value)
    | some previous => (heap.dropValue previous).writeField id index.toNat value

/-- The array's block, made the array's own without copying what it holds. -/
def makeMut (heap : Heap) (id block : Nat) : Nat × Heap :=
  if heap.strongCount block = 1 then (block, heap)
  else
    let (own, heap) := heap.allocBlock (heap.blockValues block)
    (own, ((heap.setObject id (some (.array own))).dropBlock block).2)

def writeElement (heap : Heap) (id index : Nat) (value : Value) : Bool × Heap :=
  match heap.object? id with
  | some (.array block) =>
    let (block, heap) := heap.makeMut id block
    if index < (heap.blockValues block).length then
      (true, heap.setBlockValue block index value)
    else
      (false, heap)
  | _ => (false, heap)

/-- Replace an element and drop what was there. -/
def setElement (heap : Heap) (id index : Nat) (value : Value) : Bool × Heap :=
  match heap.element id index with
  | none => (false, heap)
  | some _ =>
    let (value, heap) := heap.own value
    let heap := heap.makeArrayUnique id
    match heap.element id index with
    | none => (false, heap.dropValue value)
    | some previous => (heap.dropValue previous).writeElement id index value

/-- Append to an array. -/
def pushElement (heap : Heap) (id : Nat) (value : Value) : Bool × Heap :=
  match heap.arrayLen id with
  | none => (false, heap)
  | some _ =>
    let (value, heap) := heap.own value
    let heap := heap.makeArrayUnique id
    match heap.object? id with
    | some (.array block) =>
      let (block, heap) := heap.makeMut id block
      (true, heap.pushBlockValue block value)
    | _ => (false, heap)

/-! ## Cells and payloads -/

/-- Replace what a cell holds.  A cell is never stored in itself, and a refused
value is dropped. -/
def cellSet (heap : Heap) (id : Nat) (value : Value) : Bool × Heap :=
  match heap.object? id with
  | some (.cell _ _) =>
    if value = .cell id then (false, heap.dropValue value)
    else
      let (value, heap) := heap.own value
      match heap.object? id with
      | some (.cell previous shares) =>
        (true, (heap.setObject id (some (.cell value shares))).dropValue previous)
      | _ => (false, heap)
  | _ => (false, heap.dropValue value)

/-- A value kept for foreign code; a token becomes its own. -/
def retainForForeign (heap : Heap) (value : Value) : Heap :=
  match value with
  | .nativeState _ => heap
  | _ => { heap with retained := heap.retained ++ [value] }

end Heap

end KiraVm
