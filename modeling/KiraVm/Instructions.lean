import KiraVm.Operators

/-!
# Instructions

The instructions that neither call nor return.
-/

namespace KiraVm

/-- The properties of a runtime type descriptor. -/
inductive TypeField
  | name | package | kind | arguments | conformances
  deriving DecidableEq, Repr

def TypeField.fromByte (byte : UInt8) : Option TypeField :=
  [name, package, kind, arguments, conformances][byte.toNat]?

def FileSystemOp.arity : FileSystemOp → Nat
  | .readRange => 3
  | .writeBytes | .writeText | .renamePath => 2
  | _ => 1

/-- Whether loading the value from its slot needs no copy. -/
def Value.loadsDirectly : Value → Bool
  | .int _ | .float _ | .bool _ | .rawPtr _ | .nativeView _ _ | .mainThreadTask _ | .void => true
  | _ => false

/-- Whether overwriting a slot that owns the value drops it. -/
def Value.droppedOnStore : Value → Bool
  | .str _ | .struct _ | .array _ | .enum _ | .erased _ | .cell _ | .nativeSnapshot _ => true
  | _ => false

/-- The text of C storage, with its terminator; none with a terminator inside. -/
def nulTerminated (text : String) : Option (List UInt8) :=
  if 0 ∈ text.toUTF8.toList then none else some (text.toUTF8.toList ++ [0])

namespace Vm

variable {world : World}

/-! ## Locals and constants -/

def pushLoaded (value : Value) : Vm world Unit :=
  if value.loadsDirectly then push value
  else do
    let copy ← onHeap fun heap => heap.copyValue value
    push copy

def loadLocal (slot : UInt64) : Vm world Unit := do
  let value ← checkedLocal slot
  pushLoaded value

def loadConstant (slot : UInt64) : Vm world Unit := do
  let machine ← get
  let value ← orTrap (.constantUninitialized slot) machine.constants[slot.toNat]?
  pushLoaded value

/-- Move a local onto the stack.  The slot keeps the handle and stops owning it;
a slot that owns nothing gives a unit. -/
def takeLocal (slot : UInt64) : Vm world Unit := do
  let value ← checkedLocal slot
  if ← isLive slot.toNat then do
    push value
    setLive slot.toNat false
  else
    push .void

def storeLocal (slot : UInt64) : Vm world Unit := do
  let value ← pop
  let frame ← topFrame
  match frame.locals[slot.toNat]? with
  | none => do
    dropValue value
    trap (.localSlotOutOfRange slot)
  | some current =>
    match current, value matches .nativeView _ _ with
    | .nativeView token typeId, false => do
      let stored ← storedTree value
      let _ ← tryHost .nativeState (world.nativeStateReplace token typeId stored)
      pure ()
    | _, _ => do
      let wasLive ← isLive slot.toNat
      setLocal slot.toNat value
      if wasLive && current.droppedOnStore then dropValue current
      setLive slot.toNat value.isHeapValue

/-! ## Deferred reads of callback state -/

def snapshotChild : Option NativeStateValue → NativeStatePathStep → Option NativeStateValue
  | some (.struct fields), .field index | some (.dropStruct _ fields), .field index =>
    fields[index.toNat]?
  | some (.array elements), .index position => elements[position.toNat]?
  | _, _ => none

def readSnapshotChild (id : Nat) (step : NativeStatePathStep) (refusal : VmError world.Error) :
    Vm world Value := do
  let node ← readHeap fun heap => heap.snapshotNode id
  dropValue (.nativeSnapshot id)
  let child ← orTrap refusal (snapshotChild node step)
  onHeap fun heap => heap.readStateNode child

def snapshotArrayLen (id : Nat) : Vm world Nat := do
  let node ← readHeap fun heap => heap.snapshotNode id
  dropValue (.nativeSnapshot id)
  match node with
  | some (.array elements) => pure elements.length
  | _ => trap .notAnArray

def snapshotEnumTag (id : Nat) : Vm world UInt64 := do
  let node ← readHeap fun heap => heap.snapshotNode id
  dropValue (.nativeSnapshot id)
  match node with
  | some (.enum tag _) => pure tag.toUInt64
  | _ => trap .notAnEnum

def snapshotEnumPayload (id : Nat) : Vm world Value := do
  let node ← readHeap fun heap => heap.snapshotNode id
  dropValue (.nativeSnapshot id)
  match node with
  | some (.enum _ (some payload)) => onHeap fun heap => heap.readStateNode payload
  | some (.enum _ none) => trap .missingEnumPayload
  | _ => trap .notAnEnum

def isSnapshotArray (heap : Heap) (id : Nat) : Bool :=
  heap.snapshotNode id matches some (.array _)

/-! ## Structs -/

def newStruct (count : UInt64) : Vm world Unit := do
  let fields ← splitOff count.toNat
  let value ← onHeap fun heap => heap.allocStruct fields
  push value

def newStructDropping (count : UInt64) (glue : UInt32) : Vm world Unit := do
  let fields ← splitOff count.toNat
  let value ← onHeap fun heap => heap.allocStructDropping fields glue
  push value

def orderFields : List UInt64 → List Value → List (Option Value) → Option (List (Option Value))
  | slot :: order, value :: values, fields =>
    if slot.toNat < fields.length then
      orderFields order values (fields.set slot.toNat (some value))
    else
      none
  | _, _, fields => some fields

def newStructOrdered (order : List UInt64) (glue : Option UInt32) : Vm world Unit := do
  let evaluated ← splitOff order.length
  let fields ← orTrap .stackUnderflow
    ((orderFields order evaluated (List.replicate order.length none)).bind fun fields =>
      fields.mapM id)
  let value ← match glue with
    | some glue => onHeap fun heap => heap.allocStructDropping fields glue
    | none => onHeap fun heap => heap.allocStruct fields
  push value

def getField (index : UInt64) : Vm world Unit := do
  let base ← pop
  match base with
  | .nativeView token typeId => do
    let field ← nativeField index
    let stored ← tryHost .nativeState (world.nativeStateRead token typeId [.field field])
    let value ← onHeap fun heap => heap.readStateNode stored
    push value
  | .nativeSnapshot id => do
    let field ← nativeField index
    let value ← readSnapshotChild id (.field field) (.noSuchField index)
    push value
  | .struct id => do
    match ← readHeap fun heap => heap.field id index with
    | none => do
      dropValue base
      trap (.noSuchField index)
    | some field => do
      -- a C block stays the struct's; its address is read
      let copy ← match field with
        | .cBlock _ => readHeap fun heap => heap.seamWord field
        | _ => onHeap fun heap => heap.copyValue field
      dropValue base
      push copy
  | _ => do
    dropValue base
    trap .notAStruct

def storeFieldInstruction (slot : UInt64) (path : List UInt64) : Vm world Unit := do
  let value ← pop
  onTrap (storeField slot path value) (dropValue value)

def storePlaceInstruction (slot : UInt64) (path : List PathStep) : Vm world Unit := do
  let value ← pop
  onTrap (do
    let steps ← fillSteps path
    storePlace slot steps value) (dropValue value)

/-! ## Arrays -/

def arrayAppend (slot : UInt64) (path : List PathStep) : Vm world Unit := do
  let value ← pop
  onTrap (do
    let steps ← fillSteps path
    appendThrough slot steps value) (dropValue value)

def newArray (count : UInt64) : Vm world Unit := do
  let elements ← splitOff count.toNat
  let value ← onHeap fun heap => heap.allocArray elements
  push value

/-- The element at an index, as the array's own handle. -/
def elementAt (heap : Heap) (id : Nat) (index : Int64) : Except (VmError world.Error) Value := do
  let position ← checkIndex index (heap.arrayLen id)
  match heap.element id position with
  | some element => .ok element
  | none => .error .indexOutOfBounds

def arrayGet : Vm world Unit := do
  let index ← popInt
  let base ← pop
  match base with
  | .nativeSnapshot id => do
    if !(← readHeap fun heap => isSnapshotArray heap id) then
      dropValue base
      trap .notAnArray
    if index < 0 then
      dropValue base
      trap .negativeIndex
    let element ← readSnapshotChild id (.index index.toUInt64) .indexOutOfBounds
    push element
  | .array id => do
    let read ← readHeap fun heap => elementAt heap id index
    let element ← onTrap (ofExcept read) (dropValue base)
    let copy ← onHeap fun heap => heap.copyValue element
    dropValue base
    push copy
  | _ => do
    dropValue base
    trap .notAnArray

/-- The local is borrowed: only the element is copied out. -/
def arrayGetLocal (slot : UInt64) : Vm world Unit := do
  let index ← popInt
  match ← checkedLocal slot with
  | .nativeSnapshot id => do
    if !(← readHeap fun heap => isSnapshotArray heap id) then trap .notAnArray
    let borrowed ← onHeap fun heap => heap.copyValue (.nativeSnapshot id)
    if index < 0 then
      dropValue borrowed
      trap .negativeIndex
    let element ← readSnapshotChild id (.index index.toUInt64) .indexOutOfBounds
    push element
  | .array id => do
    let read ← readHeap fun heap => elementAt heap id index
    let element ← ofExcept read
    let copy ← onHeap fun heap => heap.copyValue element
    push copy
  | _ => trap .notAnArray

def pushLength (length : Nat) : Vm world Unit := do
  if Heap.i64Max < length then trap .arrayTooLong
  push (.int (Int64.ofNat length))

def arrayLen : Vm world Unit := do
  let base ← pop
  match base with
  | .nativeSnapshot id => do
    let length ← snapshotArrayLen id
    pushLength length
  | .array id => do
    let length ← readHeap fun heap => heap.arrayLen id
    dropValue base
    let length ← orTrap .notAnArray length
    pushLength length
  | _ => do
    dropValue base
    trap .notAnArray

/-- A value as an element of a C array. -/
def seamScalar (floats : Floats) (ty : ForeignType) (value : Value) : Option (List UInt8) :=
  match ty, value with
  | .bool, .int value => some [if value = 0 then 0 else 1]
  | .cString, _ => none
  | _, _ => encodeScalar floats .host ty value

/-- A node as an element of a C array; a boolean's integer is cut to its byte. -/
def nativeStateSeamScalar (floats : Floats) (ty : ForeignType) (node : NativeStateValue) :
    Option (List UInt8) :=
  match ty, node with
  | .bool, .int value => some [value.toUInt64.toUInt8]
  | _, .int value => seamScalar floats ty (.int value)
  | _, .bool value => seamScalar floats ty (.bool value)
  | _, .float bits => seamScalar floats ty (.float bits)
  | _, .rawPtr word => seamScalar floats ty (.rawPtr word)
  | _, _ => none

/-- An array's elements as a block of C storage; an empty one is null. -/
def arrayElements (ty : ForeignType) : Vm world Unit := do
  let base ← pop
  let heap ← readHeap id
  dropValue base
  let rows ← match base with
    | .array id => pure ((heap.elements id).map (seamScalar world.floats ty))
    | .nativeSnapshot id =>
      match heap.snapshotNode id with
      | some (.array nodes) => pure (nodes.map (nativeStateSeamScalar world.floats ty))
      | _ => trap .notAnArray
    | _ => trap .notAnArray
  let rows ← orTrap (.typeMismatch "an array element the C seam can carry") (rows.mapM id)
  match rows.flatten with
  | [] => push (.rawPtr 0)
  | bytes => do
    let block ← onHeap fun heap => heap.cblockBytes bytes
    push (.cBlock block)

/-! ## Enums, cells and erased values -/

def newEnum (tag : UInt64) (hasPayload : Bool) : Vm world Unit := do
  let payload ← if hasPayload then some <$> pop else pure none
  let value ← onHeap fun heap => heap.allocEnum tag payload
  push value

def enumTag : Vm world Unit := do
  let base ← pop
  match base with
  | .nativeSnapshot id => do
    let tag ← snapshotEnumTag id
    pushLength tag.toNat
  | .enum id => do
    let tag ← readHeap fun heap => heap.enumTag id
    dropValue base
    let tag ← orTrap .notAnEnum tag
    pushLength tag.toNat
  | _ => do
    dropValue base
    trap .notAnEnum

/-- A code outside the variants falls back to the first. -/
def enumFromCode : Vm world Unit := do
  let count ← popInt
  let code ← popInt
  let tag := if 0 ≤ code ∧ code < count then code.toUInt64 else 0
  let value ← onHeap fun heap => heap.allocEnum tag none
  push value

def enumPayload : Vm world Unit := do
  let base ← pop
  match base with
  | .nativeSnapshot id => do
    let payload ← snapshotEnumPayload id
    push payload
  | .enum id => do
    match ← readHeap fun heap => heap.enumPayloadRef id with
    | none => do
      dropValue base
      trap .missingEnumPayload
    | some payload => do
      let copy ← onHeap fun heap => heap.copyValue payload
      dropValue base
      push copy
  | _ => do
    dropValue base
    trap .notAnEnum

def newCell : Vm world Unit := do
  let payload ← pop
  let value ← onHeap fun heap => heap.allocCell payload
  push value

def cellGet (slot : UInt64) : Vm world Unit := do
  let frame ← topFrame
  match frame.locals[slot.toNat]? with
  | some (.cell id) => do
    match ← readHeap fun heap => heap.object? id with
    | some (.cell payload _) => do
      let copy ← onHeap fun heap => heap.copyValue payload
      push copy
    | _ => trap .notACell
  | _ => trap .notACell

def cellSet (slot : UInt64) : Vm world Unit := do
  let value ← pop
  let frame ← topFrame
  match frame.locals[slot.toNat]? with
  | some (.cell id) => do
    let stored ← onHeap fun heap => heap.cellSet id value
    if !stored then trap .notACell
  | _ => do
    dropValue value
    trap .notACell

def erase (typeId : UInt64) : Vm world Unit := do
  let value ← pop
  let erased ← onHeap fun heap => heap.allocErased typeId value
  push erased

/-- Pop an erased value, dropping anything else. -/
def popErased (expected : String) : Vm world Nat := do
  match ← pop with
  | .erased id => pure id
  | other => mismatch other expected

def typeTest (expected : UInt64) : Vm world Unit := do
  let id ← popErased "an `Any` to test the type of"
  let actual ← readHeap fun heap => heap.erasedTypeId id
  dropValue (.erased id)
  push (.bool (actual == some expected))

/-- Copy the payload out of an erased value that is known to be of its type. -/
def unerase (id : Nat) : Vm world Value := do
  match ← readHeap fun heap => heap.erasedPayloadRef id with
  | none => do
    dropValue (.erased id)
    trap .missingEnumPayload
  | some payload => do
    let copy ← onHeap fun heap => heap.copyValue payload
    dropValue (.erased id)
    pure copy

def downcast (expected : UInt64) : Vm world Unit := do
  let id ← popErased "an `Any` to cast"
  let actual ← readHeap fun heap => (heap.erasedTypeId id).getD 0
  if actual ≠ expected then
    dropValue (.erased id)
    trap (.typeCastFailed actual expected)
  let payload ← unerase id
  push payload

def typeCastResult (expected : UInt64) : Vm world Unit := do
  let id ← popErased "an `Any` to cast"
  let actual ← readHeap fun heap => (heap.erasedTypeId id).getD 0
  if actual = expected then do
    let payload ← unerase id
    push payload
    push (.bool true)
  else do
    dropValue (.erased id)
    push (.type actual)
    push (.bool false)

def typeOf : Vm world Unit := do
  let id ← popErased "an `Any` to read the type of"
  let identity ← readHeap fun heap => heap.erasedTypeId id
  dropValue (.erased id)
  let identity ← orTrap (.typeMismatch "an erased value carrying its type") identity
  push (.type identity)

/-- One property of a descriptor.  A row that is not there answers empty, and a
mismatched operand is not dropped. -/
def typeField (program : Module) (field : UInt8) : Vm world Unit := do
  let field ← orTrap (.typeMismatch "a runtime type property") (TypeField.fromByte field)
  match ← pop with
  | .type id => do
    let row := program.types[id.toNat % 2 ^ 32]?
    let value ← match field with
      | .arguments =>
        onHeap fun heap =>
          heap.allocArray ((row.map TypeDescriptorRow.arguments).getD [] |>.map .type)
      | .conformances => do
        let names ← onHeap fun heap =>
          heap.allocStrs ((row.map TypeDescriptorRow.conformances).getD [])
        onHeap fun heap => heap.allocArray names
      | .name => onHeap fun heap => heap.allocStr ((row.map TypeDescriptorRow.name).getD "")
      | .package => onHeap fun heap => heap.allocStr ((row.map TypeDescriptorRow.package).getD "")
      | .kind => onHeap fun heap => heap.allocStr ((row.map TypeDescriptorRow.kind).getD "")
    push value
  | _ => trap (.typeMismatch "a runtime type descriptor")

/-! ## Callback state -/

def nativeStateNew (typeWord : UInt64) : Vm world Unit := do
  let value ← pop
  let glue ← readHeap fun heap => match value with
    | .struct id => heap.glueOf id
    | _ => none
  let stored ← storedTree value
  let token ← tryHost .nativeState (world.nativeStateCreateDropping typeWord stored glue)
  push (.nativeState token)

/-- Release one owner of a token; a state that goes is rebuilt and dropped, so
that its `Drop` bodies run. -/
def releaseNativeStateToken (token : UInt64) : Vm world Unit := do
  match ← tryHost .nativeState (world.nativeStateReleaseDropping token) with
  | some tree => onHeap fun heap => ((), heap.dropNativeStateValue tree)
  | none => pure ()

def nativeUserData (shared : Bool) : Vm world Unit := do
  let state ← pop
  match state with
  | .nativeState token =>
    if shared then do
      dropValue state
      push (.rawPtr token)
    else
      push state
  | _ => do
    dropValue state
    trap (.nativeStateValueMismatch .userData "a value that is not callback state")

def popStateToken (operation : NativeStateOperation) : Vm world UInt64 := do
  match ← pop with
  | .nativeState token => pure token
  | .rawPtr word => pure word
  | other => do
    dropValue other
    trap (.nativeStateValueMismatch operation
      "a value that is neither callback state nor a token")

def nativeStateRetain : Vm world Unit := do
  let token ← popStateToken .retain
  tryHost .nativeState (world.nativeStateRetain token)
  push .void

def nativeStateRelease : Vm world Unit := do
  let token ← popStateToken .release
  releaseNativeStateToken token
  push .void

/-- A recovery borrows: the reference a load took is given back. -/
def nativeRecover (typeWord : UInt64) : Vm world Unit := do
  match ← pop with
  | .rawPtr word => do
    tryHost .nativeState (world.nativeStateCheck word typeWord)
    push (.nativeView word typeWord)
  | .nativeState token => do
    tryHost .nativeState (world.nativeStateCheck token typeWord)
    tryHost .nativeState (world.nativeStateRelease token)
    push (.nativeView token typeWord)
  | other => do
    dropValue other
    trap (.nativeStateValueMismatch .recover "a value that is not a callback-state token")

def nativeStateTake (typeWord : UInt64) : Vm world Unit := do
  match ← pop with
  | .rawPtr word => do
    let tree ← tryHost .nativeState (world.nativeStateRecover word typeWord)
    let value ← onHeap fun heap => heap.fromNativeState tree
    tryHost .nativeState (world.nativeStateRelease word)
    push value
  | other => do
    dropValue other
    trap (.nativeStateValueMismatch .recover "a value that is not a callback-state token")

/-- Release the cells that callback-state trees let go of. -/
def drainReleasedCells : Vm world Unit := do
  let machine ← get
  let released ← askHost (world.releasedCells machine.heap machine.stack)
  discard (released.map .cell)

/-- Ask for the token references that trees took and gave up. -/
def pollOwnerEvents : Vm world Unit := do
  let machine ← get
  let (retains, releases) ← askHost (world.ownerEvents machine.heap machine.stack)
  onHeap fun heap => ((), { heap with
    retains := heap.retains ++ retains
    releases := heap.releases ++ releases })

def retainTokens : List UInt64 → Vm world Unit
  | [] => pure ()
  | token :: tokens => do
    tryHost .nativeState (world.nativeStateRetain token)
    retainTokens tokens

def releaseTokens : List UInt64 → Vm world Unit
  | [] => pure ()
  | token :: tokens => do
    releaseNativeStateToken token
    releaseTokens tokens

/-- Settle the reference counts the heap owes, retains before releases. -/
def settleNativeState : Vm world Unit := do
  let (retains, releases) ← onHeap fun heap =>
    ((heap.retains, heap.releases), { heap with retains := [], releases := [] })
  retainTokens retains
  releaseTokens releases

/-! ## Foreign storage -/

def foreignOffset (offset : UInt32) : Vm world Unit := do
  let address ← popForeignPointer
  push (.rawPtr (address + offset.toUInt64))

def foreignIndex (stride : UInt32) : Vm world Unit := do
  match ← pop with
  | .int index => do
    let address ← popForeignPointer
    push (.rawPtr (address + index.toUInt64 * stride.toUInt64))
  | other => mismatch other "an integer index into C storage"

def foreignLoad (offset : UInt32) (ty : ForeignType) : Vm world Unit := do
  let address ← popForeignPointer
  if address = 0 then trap .nullForeignRead
  let word ← askHost (world.readBytes address offset (scalarSize .host ty))
  push (foreignScalarValue world.floats ty word)

def cstringNew : Vm world Unit := do
  let base ← pop
  match base with
  | .str id => do
    let text ← readHeap fun heap => heap.get id
    match nulTerminated text with
    | some bytes => do
      let block ← onHeap fun heap => heap.cblockBytes bytes
      dropValue base
      push (.cBlock block)
    | none => do
      dropValue base
      push (.rawPtr 0)
  | _ => do
    dropValue base
    trap .notAString

def clayoutAddress (program : Module) (aggregate : UInt32) : Vm world Unit := do
  let value ← pop
  let refusal : VmError world.Error := .typeMismatch "a C-layout struct"
  match ← readHeap fun heap =>
      heap.aggregateBytes world.floats program.foreignAggregates aggregate value .host with
  | .error _ => do
    dropValue value
    trap refusal
  | .ok bytes => do
    match ← onHeap fun heap =>
        heap.cblockAggregateImage program.foreignAggregates aggregate value .host bytes with
    | .ok block => push (.cBlock block)
    | .error _ => trap refusal

def foreignCallback (program : Module) (id : UInt32) : Vm world Unit := do
  if program.foreignCallbacks.length ≤ id.toNat then trap (.unknownForeignCallback id)
  let address ← tryHost .foreignCall (world.foreignCallback id)
  push (.rawPtr address)

def convertRawPtrToInt : Vm world Unit := do
  match ← pop with
  | .rawPtr address => push (.int address.toInt64)
  | .nativeState token => push (.int token.toInt64)
  | other => mismatch other "a pointer into C storage"

end Vm

end KiraVm
