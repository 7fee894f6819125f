import KiraVm.HostModel

/-!
# Values at the seams

Heap values leave as callback-state trees, as seam results and as C layouts, and
come back from all three.
-/

namespace KiraVm

namespace Heap

/-! ## Callback state -/

def takeObject (heap : Heap) (id : Nat) : Option Object × Heap :=
  match heap.object? id with
  | some object => (some object, heap.freeSlot id)
  | none => (none, heap)

/-- The contents of a block for its only holder. -/
def unwrapBlock (heap : Heap) (block : Nat) : Option (List Value) × Heap :=
  let (values, after) := heap.dropBlock block
  if heap.strongCount block = 1 then (some values, after) else (none, after)

def takeCBlockTree : Nat → Heap → Nat → Except String NativeCBlock × Heap
  | 0, heap, _ => (.error "a C block whose storage was already taken", heap)
  | depth + 1, heap, id =>
    match heap.takeObject id with
    | (some (.cBlock _ bytes children), heap) => takeChildren depth bytes [] heap children
    | (_, heap) => (.error "a C block whose storage was already taken", heap)
where
  /-- Attach the children in order; each clears its pointer word. -/
  takeChildren (depth : Nat) (bytes : List UInt8) (taken : List NativeCBlockChild) (heap : Heap) :
      List CBlockChild → Except String NativeCBlock × Heap
    | [] => (.ok (.mk bytes taken), heap)
    | child :: children =>
      match takeCBlockTree depth heap child.block with
      | (.error kind, heap) => (.error kind, heap)
      | (.ok nested, heap) =>
        if child.offset.toNat + child.width.bytes ≤ bytes.length then
          takeChildren depth
            (patch bytes (List.replicate child.width.bytes 0) child.offset.toNat)
            (taken ++ [.mk child.offset child.width nested]) heap children
        else
          (.error "a C block with a child outside its payload", heap)

/-- Move a value into a callback-state tree, to the given depth.  The error
names the shape that has no such form. -/
def intoState : Nat → Heap → Value → Except String NativeStateValue × Heap
  | 0, heap, _ => (.error "a value that holds itself", heap)
  | depth + 1, heap, value =>
    match value with
    | .int value => (.ok (.int value), heap)
    | .float bits => (.ok (.float bits), heap)
    | .bool value => (.ok (.bool value), heap)
    | .number value => (.ok (.number value), heap)
    | .rawPtr word => (.ok (.rawPtr word), heap)
    | .str id =>
      match heap.takeObject id with
      | (some (.str text), heap) => (.ok (.string text), heap)
      | (_, heap) => (.error "a string whose storage was already taken", heap)
    | .struct id =>
      let heap := heap.makeStructUnique id
      let glue := heap.glueOf id
      match (heap.removeDropGlue id).takeObject id with
      | (some (.struct block), heap) =>
        match heap.unwrapBlock block with
        | (none, heap) => (.error "a struct still shared with another value", heap)
        | (some fields, heap) =>
          match intoStates depth heap fields with
          | (.error kind, heap) => (.error kind, heap)
          | (.ok nodes, heap) =>
            match glue with
            | some glue => (.ok (.dropStruct glue nodes), heap)
            | none => (.ok (.struct nodes), heap)
      | (_, heap) => (.error "a struct whose fields were already taken", heap)
    | .array id =>
      match (heap.makeArrayUnique id).takeObject id with
      | (some (.array block), heap) =>
        match heap.unwrapBlock block with
        | (none, heap) => (.error "an array still shared with another value", heap)
        | (some elements, heap) =>
          match intoStates depth heap elements with
          | (.error kind, heap) => (.error kind, heap)
          | (.ok nodes, heap) => (.ok (.array nodes), heap)
      | (_, heap) => (.error "an array whose elements were already taken", heap)
    | .enum id =>
      match heap.object? id with
      | some (.enum tag payload shares) =>
        if tag.toNat < 2 ^ 32 then
          -- a shared object keeps its payload, and the tree gets a copy
          let (payload, heap) :=
            if shares = 1 then (payload, heap.freeSlot id)
            else
              match payload with
              | none => (none, heap.dropValue (.enum id))
              | some value =>
                let (copy, heap) := heap.copyValue value
                (some copy, heap.dropValue (.enum id))
          match payload with
          | none => (.ok (.enum tag.toUInt32 none), heap)
          | some value =>
            match intoState depth heap value with
            | (.error kind, heap) => (.error kind, heap)
            | (.ok node, heap) => (.ok (.enum tag.toUInt32 (some node)), heap)
        else
          (.error "an enum tag too large for callback state", heap)
      | _ => (.error "an enum whose payload was already taken", heap)
    | .erased id =>
      match heap.object? id with
      | some (.erased typeId payload shares) =>
        let (payload, heap) :=
          if shares = 1 then (payload, heap.freeSlot id)
          else
            let (copy, heap) := heap.copyValue payload
            (copy, heap.dropValue (.erased id))
        match intoState depth heap payload with
        | (.error kind, heap) => (.error kind, heap)
        | (.ok node, heap) => (.ok (.any typeId node), heap)
      | _ => (.error "an erased value whose payload was already taken", heap)
    | .nativeSnapshot id =>
      match heap.snapshotNode id with
      | none => (.error "a callback-state read whose node was already taken", heap)
      | some node => (.ok node, heap.dropValue (.nativeSnapshot id))
    | .cell id => (.ok (.cell id true), heap)
    | .cBlock id =>
      match takeCBlockTree (heap.slots.length + 1) heap id with
      | (.error kind, heap) => (.error kind, heap)
      | (.ok block, heap) => (.ok (.cBlock block), heap)
    | .void => (.error "a void value", heap)
    | .nativeState token => (.ok (.nativeState token true false), heap)
    | .mainThreadTask _ => (.error "a main-thread task handle", heap)
    | .type _ => (.error "a runtime type descriptor", heap)
    | .nativeView _ _ =>
      (.error "a recovered callback-state view inside callback state", heap)
where
  /-- The children in order; what follows a refused child is dropped. -/
  intoStates (depth : Nat) (heap : Heap) :
      List Value → Except String (List NativeStateValue) × Heap
    | [] => (.ok [], heap)
    | value :: values =>
      match intoState depth heap value with
      | (.error kind, heap) => (.error kind, heap.dropAll values)
      | (.ok node, heap) =>
        match intoStates depth heap values with
        | (.error kind, heap) => (.error kind, heap)
        | (.ok nodes, heap) => (.ok (node :: nodes), heap)

/-- A value holds others at most one level for each slot. -/
def intoNativeState (heap : Heap) (value : Value) : Except String NativeStateValue × Heap :=
  intoState (heap.slots.length + 1) heap value

def seamTree (heap : Heap) (value : Value) : Option NativeStateValue × Heap :=
  let (copy, heap) := heap.copyValue value
  match heap.intoNativeState copy with
  | (.ok tree, heap) => (some tree, heap)
  | (.error _, heap) => (none, heap)

/-! ## Seam results -/

def i64Max : Nat := 2 ^ 63 - 1

def enumSeamTag (heap : Heap) (id : Nat) : Option Int64 :=
  match heap.enumTag id, heap.enumPayloadRef id with
  | some tag, none => if tag.toNat ≤ i64Max then some tag.toInt64 else none
  | _, _ => none

/-- Bring a seam argument in, or take a seam result over. -/
def lower (heap : Heap) : NativeArg → Option Value × Heap
  | .void => (some .void, heap)
  | .int value => (some (.int value), heap)
  | .float bits => (some (.float bits), heap)
  | .bool value => (some (.bool value), heap)
  | .str text =>
    let (value, heap) := heap.allocStr text
    (some value, heap)
  | .aggregate tree =>
    let (value, heap) := heap.fromNativeState tree
    (some value, heap)
  | .rawPtr word => (some (.rawPtr word), heap)
  | .nativeState token => (some (.nativeState token), heap)
  | .enum tag =>
    if 0 ≤ tag then
      let (value, heap) := heap.allocEnum tag.toUInt64 none
      (some value, heap)
    else
      (none, heap)
  | .handle _ => (none, heap)

def absorb (heap : Heap) (result : NativeResult) : Option Value × Heap :=
  heap.lower result

def liftTree (heap : Heap) (value : Value) : Option NativeResult × Heap :=
  match heap.seamTree value with
  | (some tree, heap) => (some (.aggregate tree), heap)
  | (none, heap) => (none, heap)

def lift (heap : Heap) (value : Value) : Option NativeResult × Heap :=
  match value with
  | .void => (some .void, heap)
  | .int value => (some (.int value), heap)
  | .float bits => (some (.float bits), heap)
  | .bool value => (some (.bool value), heap)
  | .str id => (some (.str (heap.get id)), heap)
  | .rawPtr word => (some (.rawPtr word), heap)
  | .enum id =>
    match heap.enumSeamTag id with
    | some tag => (some (.enum tag), heap)
    | none => heap.liftTree value
  | .struct _ | .array _ | .erased _ | .cBlock _ => heap.liftTree value
  | .number _ | .nativeState _ | .mainThreadTask _ | .type _ | .cell _ | .nativeView _ _
  | .nativeSnapshot _ => (none, heap)

def liftTransfer (heap : Heap) (value : Value) : Option NativeResult × Heap :=
  match value with
  | .nativeState token => (some (.nativeState token), heap)
  | _ =>
    let (lifted, heap) := heap.lift value
    (lifted, heap.dropValue value)

/-- The text of a value that has one; the value goes either way. -/
def formatAndConsume (world : World) (heap : Heap) (value : Value) : Option String × Heap :=
  let rendered := match value with
    | .int value => some (toString value.toInt)
    | .float bits => some (world.floats.text bits)
    | .bool value => some (toString value)
    | .number value => some (world.decimals.text value)
    | .str id => some (heap.get id)
    | .void => some ""
    | _ => none
  (rendered, heap.dropValue value)

/-! ## Foreign scalars -/

def seamWord (heap : Heap) : Value → Value
  | .cBlock id => .rawPtr (heap.cblockAddress id)
  | other => other

end Heap

def scalarSize (width : ForeignPointerWidth) : ForeignType → Nat
  | .void => 0
  | .i8 | .u8 | .bool => 1
  | .i16 | .u16 => 2
  | .i32 | .u32 | .f32 => 4
  | .i64 | .u64 | .f64 => 8
  | .rawPtr | .cString => width.bytes

def cutWord (ty : ForeignType) (word : UInt64) : UInt64 :=
  UInt64.ofNat (word.toNat % 2 ^ (8 * scalarSize .host ty))

/-- A word of the given width read as a signed number. -/
def signExtend (bits : Nat) (word : UInt64) : Int64 :=
  Int64.ofInt (Int.bmod (word.toNat % 2 ^ bits) (2 ^ bits))

/-- The value a scalar's bytes read back as. -/
def foreignScalarValue (floats : Floats) (ty : ForeignType) (word : UInt64) : Value :=
  match ty with
  | .i8 => .int (signExtend 8 word)
  | .i16 => .int (signExtend 16 word)
  | .i32 => .int (signExtend 32 word)
  | .i64 | .u64 => .int word.toInt64
  | .u8 => .int (cutWord .u8 word).toInt64
  | .u16 => .int (cutWord .u16 word).toInt64
  | .u32 => .int (cutWord .u32 word).toInt64
  | .bool => .bool (cutWord .bool word != 0)
  | .f32 => .float (floats.widen word.toUInt32)
  | .f64 => .float word
  | .rawPtr | .cString => .rawPtr word
  | .void => .int 0

namespace Heap

def foreignArg (floats : Floats) (heap : Heap) (expected : ForeignTypeSpec) (value : Value) :
    Option ForeignArg :=
  match expected with
  | .aggregate _ => none
  | .scalar ty =>
    match ty, value with
    | .void, .void => some (.scalar .void 0)
    | .i8, .int value | .i16, .int value | .i32, .int value | .i64, .int value
    | .u8, .int value | .u16, .int value | .u32, .int value | .u64, .int value =>
      some (.scalar ty (cutWord ty value.toUInt64))
    | .bool, .bool value => some (.scalar .bool (if value then 1 else 0))
    | .f32, .float bits => some (.scalar .f32 (floats.narrow bits).toUInt64)
    | .f64, .float bits => some (.scalar .f64 bits)
    | .rawPtr, .rawPtr word => some (.scalar .rawPtr word)
    | .rawPtr, .nativeState token => some (.scalar .rawPtr token)
    | .rawPtr, .cBlock id => some (.scalar .rawPtr (heap.cblockAddress id))
    | .cString, .str id => some (.cString (heap.get id))
    | .cString, .cBlock id => some (.cStringPtr (heap.cblockAddress id))
    | _, _ => none

def absorbForeign (floats : Floats) (heap : Heap) : ForeignResult → Option Value × Heap
  | .scalar .void _ => (some .void, heap)
  | .scalar ty word => (some (foreignScalarValue floats ty word), heap)
  | .cString text =>
    let (value, heap) := heap.allocStr text
    (some value, heap)
  | .aggregate _ _ => (none, heap)

end Heap

end KiraVm
