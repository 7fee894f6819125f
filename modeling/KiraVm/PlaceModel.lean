import KiraVm.MachineModel

/-!
# Places

A place is a local walked into by fields and indices.  A walk moves handles and
is on its way to a write, so each step first makes the object it passes through
the only holder of its contents.
-/

namespace KiraVm

/-- A signed index as a position, or which mistake it is.  There is no length
when the handle names no array. -/
def checkIndex {ε : Type} (index : Int64) (len : Option Nat) : Except (VmError ε) Nat :=
  if index < 0 then .error .negativeIndex
  else
    match len with
    | some len =>
      if index.toNatClampNeg < len then .ok index.toNatClampNeg else .error .indexOutOfBounds
    | none => .error .notAnArray

namespace Heap

variable {ε : Type}

def walkStep (heap : Heap) (current : Value) : ResolvedStep → Except (VmError ε) Value × Heap
  | .field index =>
    match current with
    | .struct id =>
      let heap := heap.makeStructUnique id
      match heap.field id index with
      | some field => (.ok field, heap)
      | none => (.error (.noSuchField index), heap)
    | _ => (.error .notAStruct, heap)
  | .index index =>
    match current with
    | .array id =>
      match checkIndex index (heap.arrayLen id) with
      | .error error => (.error error, heap)
      | .ok position =>
        let heap := heap.makeArrayUnique id
        match heap.element id position with
        | some element => (.ok element, heap)
        | none => (.error .indexOutOfBounds, heap)
    | _ => (.error .notAnArray, heap)

def walkValue (heap : Heap) (current : Value) :
    List ResolvedStep → Except (VmError ε) Value × Heap
  | [] => (.ok current, heap)
  | step :: steps =>
    match heap.walkStep current step with
    | (.error error, heap) => (.error error, heap)
    | (.ok next, heap) => heap.walkValue next steps

def writeLast (heap : Heap) (target : Value) (last : ResolvedStep) (value : Value) :
    Except (VmError ε) Unit × Heap :=
  match last with
  | .field index =>
    match target with
    | .struct id =>
      match heap.setField id index value with
      | (true, heap) => (.ok (), heap)
      | (false, heap) => (.error (.noSuchField index), heap)
    | _ => (.error .notAStruct, heap)
  | .index index =>
    match target with
    | .array id =>
      match checkIndex index (heap.arrayLen id) with
      | .error error => (.error error, heap)
      | .ok position =>
        match heap.setElement id position value with
        | (true, heap) => (.ok (), heap)
        | (false, heap) => (.error .indexOutOfBounds, heap)
    | _ => (.error .notAnArray, heap)

/-- Write a value at the end of a path into a root; every step but the last is a
walk. -/
def storeAt (heap : Heap) (root : Value) (steps : List ResolvedStep) (value : Value) :
    Except (VmError ε) Unit × Heap :=
  match steps.getLast? with
  | none => (.error .emptyFieldPath, heap)
  | some last =>
    match heap.walkValue root steps.dropLast with
    | (.error error, heap) => (.error error, heap)
    | (.ok target, heap) => heap.writeLast target last value

def appendAt (heap : Heap) (root : Value) (steps : List ResolvedStep) (value : Value) :
    Except (VmError ε) Unit × Heap :=
  match heap.walkValue root steps with
  | (.error error, heap) => (.error error, heap)
  | (.ok target, heap) =>
    match target with
    | .array id =>
      match heap.pushElement id value with
      | (true, heap) => (.ok (), heap)
      | (false, heap) => (.error .notAnArray, heap)
    | _ => (.error .notAnArray, heap)

end Heap

namespace Vm

variable {world : World}

/-! ## Places in a frame -/

/-- Rebuild a local that holds a deferred read, so that a write can land. -/
def ownLocal (slot : UInt64) : Vm world Unit := do
  let held ← localAt slot
  match held with
  | .nativeSnapshot _ => do
    let owned ← onHeap fun heap => heap.own held
    setLocal slot.toNat owned
  | _ => pure ()

def nativeField (index : UInt64) : Vm world UInt32 :=
  if index.toNat < 2 ^ 32 then pure index.toUInt32 else trap (.noSuchField index)

def resolveNativePath : List ResolvedStep → Vm world (List NativeStatePathStep)
  | [] => pure []
  | .field index :: steps => do
    let field ← nativeField index
    let rest ← resolveNativePath steps
    pure (.field field :: rest)
  | .index index :: steps => do
    if index < 0 then trap .negativeIndex
    let rest ← resolveNativePath steps
    pure (.index index.toUInt64 :: rest)

def storedTree (value : Value) : Vm world NativeStateValue := do
  match ← onHeap fun heap => heap.intoNativeState value with
  | .ok tree => pure tree
  | .error kind => trap (.nativeStateValueMismatch .store kind)

def writeNativePath (token typeId : UInt64) (path : List NativeStatePathStep) (value : Value)
    (appending : Bool) : Vm world Unit := do
  let stored ← storedTree value
  if appending then
    tryHost .nativeState (world.nativeStateAppend token typeId path stored)
  else do
    let displaced ← tryHost .nativeState (world.nativeStateWrite token typeId path stored)
    onHeap fun heap => ((), heap.dropNativeStateValue displaced)

/-- Write a value through a place of the running frame. -/
def storePlace (slot : UInt64) (steps : List ResolvedStep) (value : Value) : Vm world Unit := do
  ownLocal slot
  match ← localAt slot with
  | .nativeView token typeId =>
    if steps.isEmpty then do
      dropValue value
      trap .emptyFieldPath
    else do
      let path ← resolveNativePath steps
      writeNativePath token typeId path value false
  | root => tryHeap fun heap => heap.storeAt root steps value

def storeField (slot : UInt64) (path : List UInt64) (value : Value) : Vm world Unit :=
  storePlace slot (path.map .field) value

def appendThrough (slot : UInt64) (steps : List ResolvedStep) (value : Value) : Vm world Unit := do
  ownLocal slot
  match ← localAt slot with
  | .nativeView token typeId => do
    let path ← resolveNativePath steps
    writeNativePath token typeId path value true
  | root => tryHeap fun heap => heap.appendAt root steps value

/-- Resolve a path.  The indices were pushed outermost first, so the last one is
on top. -/
def fillSteps : List PathStep → Vm world (List ResolvedStep)
  | [] => pure []
  | .field index :: path => do
    let rest ← fillSteps path
    pure (.field index :: rest)
  | .index :: path => do
    let rest ← fillSteps path
    let index ← popInt
    pure (.index index :: rest)

end Vm

end KiraVm
