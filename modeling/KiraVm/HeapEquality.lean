import KiraVm.CLayout

/-!
# Comparing heap values

Equality, order and hashing follow handles instead of comparing them.  A value
holds others at most one level for each slot, so the walks take a depth.
-/

namespace KiraVm

/-! ## Equality of callback state -/

mutual

def NativeCBlock.equal : NativeCBlock → NativeCBlock → Bool
  | .mk bytes children, .mk otherBytes otherChildren =>
    bytes == otherBytes && NativeCBlock.equalChildren children otherChildren

def NativeCBlock.equalChildren : List NativeCBlockChild → List NativeCBlockChild → Bool
  | [], [] => true
  | .mk offset width block :: children, .mk otherOffset otherWidth other :: others =>
    offset == otherOffset && width == otherWidth && NativeCBlock.equal block other &&
      NativeCBlock.equalChildren children others
  | _, _ => false

end

mutual

def NativeStateValue.equal (floats : Floats) : NativeStateValue → NativeStateValue → Bool
  | .int value, .int other => value == other
  | .float bits, .float other => floats.eq bits other
  | .bool value, .bool other => value == other
  | .string text, .string other => text == other
  | .number value, .number other => value == other
  | .struct fields, .struct others => NativeStateValue.equalAll floats fields others
  | .dropStruct glue fields, .dropStruct other others =>
    glue == other && NativeStateValue.equalAll floats fields others
  | .array elements, .array others => NativeStateValue.equalAll floats elements others
  | .rawPtr word, .rawPtr other => word == other
  | .cell handle _, .cell other _ => handle == other
  | .any typeId payload, .any other otherPayload =>
    typeId == other && NativeStateValue.equal floats payload otherPayload
  | .enum tag payload, .enum other otherPayload =>
    tag == other && NativeStateValue.equalPayload floats payload otherPayload
  | .nativeState token _ _, .nativeState other _ _ => token == other
  | .cBlock block, .cBlock other => block.equal other
  | _, _ => false

def NativeStateValue.equalAll (floats : Floats) :
    List NativeStateValue → List NativeStateValue → Bool
  | [], [] => true
  | node :: nodes, other :: others =>
    NativeStateValue.equal floats node other && NativeStateValue.equalAll floats nodes others
  | _, _ => false

def NativeStateValue.equalPayload (floats : Floats) :
    Option NativeStateValue → Option NativeStateValue → Bool
  | none, none => true
  | some node, some other => NativeStateValue.equal floats node other
  | _, _ => false

end

namespace Heap

mutual

def valueEqualsNode (floats : Floats) (heap : Heap) : Value → NativeStateValue → Bool
  | .int value, .int other => value == other
  | .float bits, .float other => floats.eq bits other
  | .bool value, .bool other => value == other
  | .rawPtr word, .rawPtr other => word == other
  | .str id, .string text => heap.get id == text
  | .struct id, .struct nodes => valuesEqualNodes floats heap (heap.fields id) nodes
  | .array id, .array nodes => valuesEqualNodes floats heap (heap.elements id) nodes
  | .enum id, .enum tag payload =>
    heap.enumTag id == some tag.toUInt64 &&
      payloadEqualsNode floats heap (heap.enumPayloadRef id) payload
  | .erased id, .any typeId payload =>
    heap.erasedTypeId id == some typeId &&
      match heap.erasedPayloadRef id with
      | some value => valueEqualsNode floats heap value payload
      | none => false
  | _, _ => false

def valuesEqualNodes (floats : Floats) (heap : Heap) :
    List Value → List NativeStateValue → Bool
  | [], [] => true
  | value :: values, node :: nodes =>
    valueEqualsNode floats heap value node && valuesEqualNodes floats heap values nodes
  | _, _ => false

def payloadEqualsNode (floats : Floats) (heap : Heap) :
    Option Value → Option NativeStateValue → Bool
  | some value, some node => valueEqualsNode floats heap value node
  | none, none => true
  | _, _ => false

end

/-! ## Equality of values -/

/-- Pairwise, and of one length. -/
def allEqual (equal : Value → Value → Bool) : List Value → List Value → Bool
  | [], [] => true
  | value :: values, other :: others => equal value other && allEqual equal values others
  | _, _ => false

/-- Two values that are both objects or scalars, given the equality of what they
hold. -/
def objectsEqual (world : World) (heap : Heap) (equal : Value → Value → Bool) :
    Value → Value → Bool
  | .int value, .int other => value == other
  | .float bits, .float other => world.floats.eq bits other
  | .bool value, .bool other => value == other
  | .rawPtr word, .rawPtr other => word == other
  | .cBlock id, other | other, .cBlock id =>
    match other with
    | .rawPtr word => heap.cblockAddress id == word
    | .cBlock other => heap.cblockAddress id == heap.cblockAddress other
    | _ => false
  | .void, .void => true
  | .number value, .number other =>
    match world.decimals.equals value other with
    | .ok equal => equal
    | .error _ => false
  | .str id, .str other => heap.get id == heap.get other
  | .struct id, .struct other => allEqual equal (heap.fields id) (heap.fields other)
  | .array id, .array other => allEqual equal (heap.elements id) (heap.elements other)
  | .erased id, .erased other =>
    heap.erasedTypeId id == heap.erasedTypeId other &&
      match heap.erasedPayloadRef id, heap.erasedPayloadRef other with
      | some payload, some otherPayload => equal payload otherPayload
      | _, _ => false
  | .enum id, .enum other =>
    heap.enumTag id == heap.enumTag other &&
      match heap.enumPayloadRef id, heap.enumPayloadRef other with
      | some payload, some otherPayload => equal payload otherPayload
      | none, none => true
      | _, _ => false
  | .cell id, .cell other => id == other
  | .nativeState token, .nativeState other => token == other
  | .mainThreadTask handle, .mainThreadTask other => handle == other
  | .nativeView token typeId, .nativeView otherToken otherType =>
    token == otherToken && typeId == otherType
  | _, _ => false

/-- Structural equality, to the given depth. -/
def valuesEqualTo (world : World) (heap : Heap) : Nat → Value → Value → Bool
  | 0, _, _ => false
  | depth + 1, left, right =>
    match left, right with
    | .nativeSnapshot id, .nativeSnapshot other =>
      match heap.snapshotNode id, heap.snapshotNode other with
      | some node, some otherNode => node.equal world.floats otherNode
      | _, _ => false
    | .nativeSnapshot id, other | other, .nativeSnapshot id =>
      match heap.snapshotNode id with
      | some node => valueEqualsNode world.floats heap other node
      | none => false
    | _, _ => objectsEqual world heap (valuesEqualTo world heap depth) left right

def valuesEqual (world : World) (heap : Heap) (left right : Value) : Bool :=
  valuesEqualTo world heap (heap.slots.length + 1) left right

/-! ## Order and hash -/

/-- The first pair that differs decides. -/
def compareAll (order : Value → Value → Ordering) : List Value → List Value → Ordering
  | value :: values, other :: others =>
    match order value other with
    | .eq => compareAll order values others
    | decided => decided
  | _, _ => .eq

def compareValuesTo (world : World) (heap : Heap) : Nat → Value → Value → Ordering
  | 0, _, _ => .eq
  | depth + 1, left, right =>
    match left, right with
    | .int value, .int other => compare value other
    | .float bits, .float other =>
      if world.floats.lt bits other then .lt
      else if world.floats.lt other bits then .gt
      else .eq
    | .bool value, .bool other => compare value other
    | .number value, .number other =>
      match world.decimals.compare value other with
      | .ok order => order
      | .error _ => .eq
    | .str id, .str other => compare (heap.get id) (heap.get other)
    | .struct id, .struct other =>
      compareAll (compareValuesTo world heap depth) (heap.fields id) (heap.fields other)
    | .array id, .array other =>
      match compareAll (compareValuesTo world heap depth) (heap.elements id)
          (heap.elements other) with
      | .eq => compare (heap.elements id).length (heap.elements other).length
      | decided => decided
    | .enum id, .enum other =>
      -- a missing tag is below every tag
      match compare ((heap.enumTag id).map UInt64.toNat) ((heap.enumTag other).map UInt64.toNat)
        with
      | .eq =>
        match heap.enumPayloadRef id, heap.enumPayloadRef other with
        | some payload, some otherPayload =>
          compareValuesTo world heap depth payload otherPayload
        | _, _ => .eq
      | decided => decided
    | _, _ => .eq

def compareValues (world : World) (heap : Heap) (left right : Value) : Ordering :=
  compareValuesTo world heap (heap.slots.length + 1) left right

def feed (accumulator : UInt64) (bytes : List UInt8) : UInt64 :=
  bytes.foldl (fun accumulator byte => (accumulator ^^^ byte.toUInt64) * 0x100000001b3) accumulator

def hashInto (heap : Heap) : Nat → UInt64 → Value → UInt64
  | 0, accumulator, _ => accumulator
  | depth + 1, accumulator, value =>
    match value with
    | .int value => feed accumulator (ByteReader.u64Bytes value.toUInt64)
    | .bool value => feed accumulator [if value then 1 else 0]
    | .str id => feed accumulator (heap.get id).toUTF8.toList
    | .struct id => (heap.fields id).foldl (hashInto heap depth) accumulator
    | .array id =>
      let elements := heap.elements id
      elements.foldl (hashInto heap depth)
        (feed accumulator (ByteReader.u64Bytes (UInt64.ofNat elements.length)))
    | .enum id =>
      let accumulator :=
        feed accumulator (ByteReader.u64Bytes ((heap.enumTag id).getD 0))
      match heap.enumPayloadRef id with
      | some payload => hashInto heap depth accumulator payload
      | none => accumulator
    | _ => accumulator

def hashValue (heap : Heap) (value : Value) : Int64 :=
  (hashInto heap (heap.slots.length + 1) 0xcbf29ce484222325 value).toInt64

end Heap

end KiraVm
