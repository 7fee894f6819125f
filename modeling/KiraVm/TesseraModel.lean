import Mathlib.Algebra.Group.Nat.Defs
import Mathlib.Data.List.Basic

/-!
# LibTessera

A process of LibTessera is a value: a table of handles and a store of objects.
Handles and objects sit in slots, and the slot of one that is gone is reused.  A
handle packs its slot with the slot's generation; an object refers to another one,
its peer or the port of an armed waiter, by the bare slot.

Integer operators that overflow stop the program, so a run ends there.  The clock is
the exception here: it goes on past its last value, where the program would stop.

The functions are those of `Types.kira`, `Rights.kira`, `Signals.kira`,
`Completion.kira`, `Runtime.kira`, `Object.kira`, `Port.kira` and `Event.kira`, with
the process threaded through.  A history of what was linked to what, and of what
reached which object, is kept beside it; no function reads it.
-/

namespace KiraVm

namespace LibTessera

abbrev Handle : Type := UInt64
abbrev Key : Type := UInt64
abbrev Rights : Type := UInt64
abbrev Signals : Type := UInt32


inductive ObjectType
  | none | port | event | eventPair | timer | channel | memory | thread | process | job
  | node | file | watch | endpoint | stream | gpuDevice | fence | wakeLock | presence
  deriving DecidableEq, Repr

def objectTypeCode : ObjectType → UInt32
  | .none => 0
  | .port => 1
  | .event => 2
  | .eventPair => 3
  | .timer => 4
  | .channel => 5
  | .memory => 6
  | .thread => 7
  | .process => 8
  | .job => 9
  | .node => 10
  | .file => 11
  | .watch => 12
  | .endpoint => 13
  | .stream => 14
  | .gpuDevice => 15
  | .fence => 16
  | .wakeLock => 17
  | .presence => 18

/-! ## Errors -/

inductive Subsystem
  | libTessera | kernel | nameSpace | presence | launcher | devices | network | display
  | power | audit | gpu
  deriving DecidableEq, Repr

inductive ErrorCode
  | ok | invalidArgument | invalidHandle | wrongType | accessDenied | notEntitled | outOfRange
  | bufferTooSmall | nameTooLong | invalidPath | unsupported | notFound | alreadyExists | busy
  | badState | shouldWait | timeout | cancelled | peerClosed | outOfMemory | noSpace
  | quotaExceeded | tooManyHandles | notDirectory | isDirectory | notEmpty | protectedNode
  | grantExpired | grantRevoked | noInteraction | notFrontmost | notMainProcess | userDenied
  | connectionRefused | connectionReset | unreachable | addressInUse | addressNotAvailable
  | deviceLost | deviceBusy | formatUnsupported | overrun | underrun | internal
  deriving DecidableEq, Repr

structure Error where
  code : ErrorCode
  subsystem : Subsystem
  flags : UInt16
  detail : UInt64
  deriving DecidableEq, Repr

def errorOk : Error :=
  ⟨.ok, .libTessera, 0, 0⟩

def errorOf (code : ErrorCode) : Error :=
  ⟨code, .libTessera, 0, 0⟩

/-! ## Rights -/

def rightBit (index : UInt64) : Rights :=
  1 <<< index

def rightDuplicate : Rights := rightBit 0
def rightTransfer : Rights := rightBit 1
def rightRead : Rights := rightBit 2
def rightWrite : Rights := rightBit 3
def rightSignal : Rights := rightBit 6
def rightWait : Rights := rightBit 7
def rightInspect : Rights := rightBit 8
def rightManage : Rights := rightBit 9
def rightSetProperty : Rights := rightBit 10

def u64Max : UInt64 :=
  ((9223372036854775807 : UInt64) <<< 1) ||| 1

/-- The rights of the source, whatever they are. -/
def rightsSame : Rights :=
  u64Max

def rightsUnion (left right : Rights) : Rights :=
  left ||| right

def rightsHas (set needed : Rights) : Bool :=
  (set &&& needed) == needed

def rightsSubset (sub sup : Rights) : Bool :=
  (sub &&& sup) == sub

def rightsDefault : Rights :=
  [rightTransfer, rightRead, rightWrite, rightSignal, rightWait, rightInspect, rightManage,
    rightSetProperty].foldl rightsUnion rightDuplicate

/-! ## Signals -/

def signalBit (index : UInt32) : Signals :=
  1 <<< index

def signalReadable : Signals := signalBit 0
def signalPeerClosed : Signals := signalBit 2
def signalSignaled : Signals := signalBit 3

def signalsNone : Signals := 0

def u32Max : UInt32 :=
  ((2147483647 : UInt32) <<< 1) ||| 1

def signalsUnion (left right : Signals) : Signals :=
  left ||| right

def signalsIntersect (left right : Signals) : Signals :=
  left &&& right

def signalsClear (set clear : Signals) : Signals :=
  set &&& (u32Max ^^^ clear)

def signalsHas (set needed : Signals) : Bool :=
  (set &&& needed) == needed

def signalsAny (set mask : Signals) : Bool :=
  (set &&& mask) != 0

/-- What a caller may set and clear: the signaled bit and the user bits 24 to 31. -/
def signalsUserSettable : Signals :=
  [24, 25, 26, 27, 28, 29, 30, 31].foldl (fun set index => signalsUnion set (signalBit index))
    signalSignaled

/-! ## Completions -/

inductive CompletionKind
  | user | signal | timer | io | nameSpace | launch | grant | net | stream | gpu | power | service
  deriving DecidableEq, Repr

inductive WaitOptions
  | once
  | repeated
  | edge
  deriving DecidableEq, Repr

def waitOptionCode : WaitOptions → Nat
  | .once => 0
  | .repeated => 1
  | .edge => 2

structure Completion where
  key : Key
  error : Error
  kind : CompletionKind
  flags : UInt32
  result0 : UInt64
  result1 : UInt64
  aux : UInt64
  timestamp : Nat
  deriving DecidableEq, Repr

def completionFlagMore : UInt32 := 1

def completionEmpty (key : Key) : Completion :=
  ⟨key, errorOk, .user, 0, 0, 0, 0, 0⟩

def completionSignal (key : Key) (asserted : Signals) (more : Bool) : Completion :=
  { completionEmpty key with
    kind := .signal
    result0 := asserted.toUInt64
    flags := if more then completionFlagMore else 0 }

def completionCancelled (key : Key) (kind : CompletionKind) : Completion :=
  { completionEmpty key with kind := kind, error := errorOf .cancelled }

/-! ## The process -/

/-- An armed wait; `optionCode` is that of its `WaitOptions`. -/
structure Waiter where
  live : Bool
  portSlot : Nat
  key : Key
  signals : Signals
  optionCode : Nat
  deriving DecidableEq, Repr

/-- An object, shared by the handles that name it.  `peerSlot` is -1 without a peer. -/
structure ObjectRecord where
  live : Bool
  objectType : ObjectType
  refcount : Int
  signals : Signals
  name : String
  objectId : Nat
  peerSlot : Int
  queue : List Completion
  queueHead : Nat
  waiters : List Waiter
  deriving DecidableEq, Repr

structure HandleSlot where
  live : Bool
  generation : UInt32
  objectSlot : Nat
  rights : Rights
  deriving DecidableEq, Repr

/-- What is kept of the past, by the identity of the objects. -/
inductive Note
  /-- The two ends of a pair are created. -/
  | paired (first second : Nat)
  /-- A waiter on one object is armed for a port. -/
  | armed (watched port : Nat)
  /-- A waiter, by its place among those of its object, delivers to what is in the slot
  of its port; and whether that is live. -/
  | packet (watched : Nat) (index : Nat) (port : Nat) (live : Bool)
  /-- Signals are changed through an event. -/
  | asserted (object : Nat)
  /-- Signals are changed through the end of a pair. -/
  | signalled (source target : Nat) (live : Bool)
  /-- An end is destroyed, and what is in the slot of its peer is told. -/
  | peerClosed (source target : Nat) (live : Bool)
  /-- A packet is posted to a port. -/
  | posted (port : Nat)
  /-- Packets are taken from a port. -/
  | drained (port : Nat)
  /-- A handle is made from another one. -/
  | derived (source minted : Rights)
  deriving DecidableEq, Repr

structure Tessera where
  handles : List HandleSlot
  objects : List ObjectRecord
  nextObjectId : Nat
  clock : Nat
  history : List Note
  deriving DecidableEq, Repr

def tesseraCreate : Tessera :=
  ⟨[], [], 1, 0, []⟩

/-- A slot that was never used. -/
def ObjectRecord.vacant : ObjectRecord :=
  ⟨false, .none, 0, 0, "", 0, -1, [], 0, []⟩

namespace Tessera

def object (process : Tessera) (slot : Nat) : ObjectRecord :=
  process.objects.getD slot .vacant

def entry (process : Tessera) (slot : Nat) : HandleSlot :=
  process.handles.getD slot ⟨false, 0, 0, 0⟩

def setObject (process : Tessera) (slot : Nat) (change : ObjectRecord → ObjectRecord) : Tessera :=
  { process with objects := process.objects.modify slot change }

def note (process : Tessera) (event : Note) : Tessera :=
  { process with history := process.history ++ [event] }

def closeSlot (process : Tessera) (slot : Nat) : Tessera :=
  { process with handles := process.handles.set slot { process.entry slot with live := false } }

end Tessera

/-! ## Handle values -/

def handleEncode (index : Nat) (generation : UInt32) : Handle :=
  (generation.toUInt64 <<< 32) ||| UInt64.ofNat index

def handleIndexOf (handle : Handle) : Nat :=
  (handle &&& 4294967295).toNat

def handleGenerationOf (handle : Handle) : UInt32 :=
  (handle >>> 32).toUInt32

/-- The slot a handle names. -/
def tessResolve (process : Tessera) (handle : Handle) : Option Nat :=
  if handle = 0 then none
  else
    match process.handles[handleIndexOf handle]? with
    | none => none
    | some entry =>
      if !entry.live then none
      else if entry.generation ≠ handleGenerationOf handle then none
      else some (handleIndexOf handle)

/-! ## Allocation -/

/-- Place an object in the first free slot, unless there is no identity left for it. -/
def tessAddObject (process : Tessera) (objectType : ObjectType) (initial : Signals)
    (peerSlot : Int) : Option (Nat × Tessera) :=
  if process.nextObjectId + 1 < 2 ^ 64 then
    let record : ObjectRecord :=
      ⟨true, objectType, 0, initial, "", process.nextObjectId, peerSlot, [], 0, []⟩
    let process := { process with nextObjectId := process.nextObjectId + 1 }
    match process.objects.findIdx? fun other => !other.live with
    | some slot => some (slot, { process with objects := process.objects.set slot record })
    | none =>
      some (process.objects.length, { process with objects := process.objects ++ [record] })
  else none

/-- The generation a slot has when it is used again.  The sum is never zero: past the
last generation it overflows. -/
def nextGeneration (generation : UInt32) : Option UInt32 :=
  if generation.toNat + 1 < 2 ^ 32 then
    some (if generation + 1 = 0 then 1 else generation + 1)
  else none

/-- Make a handle and take one reference. -/
def tessAddHandle (process : Tessera) (objectSlot : Nat) (rights : Rights) :
    Option (Handle × Tessera) :=
  let process := process.setObject objectSlot fun record =>
    { record with refcount := record.refcount + 1 }
  match process.handles.findIdx? fun entry => !entry.live with
  | some slot => do
    let generation ← nextGeneration (process.entry slot).generation
    some (handleEncode slot generation,
      { process with handles := process.handles.set slot ⟨true, generation, objectSlot, rights⟩ })
  | none =>
    some (handleEncode process.handles.length 1,
      { process with handles := process.handles ++ [⟨true, 1, objectSlot, rights⟩] })

/-! ## Signals and packets -/

namespace Tessera

def disarm (process : Tessera) (objectSlot index : Nat) : Tessera :=
  process.setObject objectSlot fun record =>
    { record with waiters := record.waiters.modify index fun waiter => { waiter with live := false } }

def setSignals (process : Tessera) (objectSlot : Nat) (signals : Signals) : Tessera :=
  process.setObject objectSlot fun record => { record with signals := signals }

/-- Stamp a packet with the next time and put it at the end of a queue. -/
def enqueue (process : Tessera) (portSlot : Nat) (packet : Completion) : Tessera :=
  let now := process.clock + 1
  { process with clock := now }.setObject portSlot fun record =>
    { record with queue := record.queue ++ [{ packet with timestamp := now }] }

def noteFired (process : Tessera) (objectSlot index portSlot : Nat) : Tessera :=
  process.note (.packet (process.object objectSlot).objectId index
    (process.object portSlot).objectId (process.object portSlot).live)

end Tessera

section Deliver

/- How a packet is delivered; delivering one may fire the waiters of the port. -/
variable (deliver : Tessera → Nat → Completion → Tessera)

/-- Fire one waiter, if a bit of its mask is newly asserted and it is not a port's
waiter for itself. -/
def fireWith (objectSlot : Nat) (newly current : Signals) (process : Tessera) (index : Nat) :
    Tessera :=
  match (process.object objectSlot).waiters[index]? with
  | none => process
  | some waiter =>
    if waiter.live && waiter.portSlot != objectSlot && signalsAny newly waiter.signals then
      let asserted := signalsIntersect current waiter.signals
      let process := process.noteFired objectSlot index waiter.portSlot
      let process := if waiter.optionCode = 0 then process.disarm objectSlot index else process
      deliver process waiter.portSlot
        (completionSignal waiter.key asserted (waiter.optionCode == 1))
    else process

/-- Fire the waiters of an object.  None is added while they fire. -/
def notifyWith (process : Tessera) (objectSlot : Nat) (newly : Signals) : Tessera :=
  (List.range (process.object objectSlot).waiters.length).foldl
    (fireWith deliver objectSlot newly (process.object objectSlot).signals) process

def raiseWith (process : Tessera) (objectSlot : Nat) (set clear : Signals) : Tessera :=
  let before := (process.object objectSlot).signals
  let after := signalsClear (signalsUnion before set) clear
  let process := process.setSignals objectSlot after
  notifyWith deliver process objectSlot (after &&& (u32Max ^^^ before))

end Deliver

/-- Delivery, with a bound on how deep packets make further packets. -/
def deliverWithin : Nat → Tessera → Nat → Completion → Tessera
  | 0, process, _, _ => process
  | depth + 1, process, portSlot, packet =>
    raiseWith (deliverWithin depth) (process.enqueue portSlot packet) portSlot signalReadable
      signalsNone

/-- A packet goes further only from a port that was not readable, so it goes no deeper
than there are objects. -/
def tessDeliverToPort (process : Tessera) (portSlot : Nat) (packet : Completion) : Tessera :=
  deliverWithin (process.objects.length + 1) process portSlot packet

def tessRaiseSignals (process : Tessera) (objectSlot : Nat) (set clear : Signals) : Tessera :=
  raiseWith tessDeliverToPort process objectSlot set clear

def cancelWaiter (objectSlot : Nat) (process : Tessera) (index : Nat) : Tessera :=
  match (process.object objectSlot).waiters[index]? with
  | none => process
  | some waiter =>
    if waiter.live then
      let process := (process.noteFired objectSlot index waiter.portSlot).disarm objectSlot index
      tessDeliverToPort process waiter.portSlot (completionCancelled waiter.key .signal)
    else process

def tellPeer (process : Tessera) (objectSlot : Nat) (peer : Int) : Tessera :=
  if 0 ≤ peer ∧ peer < process.objects.length then
    if (process.object peer.toNat).live then
      let process := process.note (.peerClosed (process.object objectSlot).objectId
        (process.object peer.toNat).objectId (process.object peer.toNat).live)
      tessRaiseSignals process peer.toNat signalPeerClosed signalsNone
    else process
  else process

/-- Give up one reference, and with the last one the object. -/
def tessDropObject (process : Tessera) (objectSlot : Nat) : Tessera :=
  let process := process.setObject objectSlot fun record =>
    { record with refcount := record.refcount - 1 }
  if (process.object objectSlot).refcount > 0 then process
  else
    let process := (List.range (process.object objectSlot).waiters.length).foldl
      (cancelWaiter objectSlot) process
    let peer := (process.object objectSlot).peerSlot
    let process := process.setObject objectSlot fun record => { record with live := false }
    tellPeer process objectSlot peer

/-- Arm a waiter; unless it waits for an edge, it fires at once where its mask is
already asserted. -/
def tessArm (process : Tessera) (objectSlot portSlot : Nat) (key : Key) (mask : Signals)
    (optionCode : Nat) : Tessera :=
  let process := (process.setObject objectSlot fun record =>
    { record with waiters := record.waiters ++ [⟨true, portSlot, key, mask, optionCode⟩] }).note
      (.armed (process.object objectSlot).objectId (process.object portSlot).objectId)
  if optionCode ≠ 2 then
    let current := (process.object objectSlot).signals
    if signalsAny current mask then
      let last := (process.object objectSlot).waiters.length - 1
      let asserted := signalsIntersect current mask
      let process := process.noteFired objectSlot last portSlot
      let process := if optionCode = 0 then process.disarm objectSlot last else process
      tessDeliverToPort process portSlot (completionSignal key asserted (optionCode == 1))
    else process
  else process

def cancelMatching (portSlot : Nat) (key : Key) (objectSlot : Nat) (state : Nat × Tessera)
    (index : Nat) : Nat × Tessera :=
  match (state.2.object objectSlot).waiters[index]? with
  | none => state
  | some waiter =>
    if waiter.live && waiter.portSlot == portSlot && waiter.key == key then
      let process := (state.2.noteFired objectSlot index portSlot).disarm objectSlot index
      (state.1 + 1, tessDeliverToPort process portSlot (completionCancelled key .signal))
    else state

def cancelObject (portSlot : Nat) (key : Key) (state : Nat × Tessera) (objectSlot : Nat) :
    Nat × Tessera :=
  if (state.2.object objectSlot).live then
    (List.range (state.2.object objectSlot).waiters.length).foldl
      (cancelMatching portSlot key objectSlot) state
  else state

def tessCancelKey (process : Tessera) (portSlot : Nat) (key : Key) : Nat × Tessera :=
  (List.range process.objects.length).foldl (cancelObject portSlot key) (0, process)

/-! ## Calls -/

/-- A call that fails leaves the process as it is. -/
def refuse {α : Type} (process : Tessera) (code : ErrorCode) : Except Error α × Tessera :=
  (.error (errorOf code), process)

def closeResolved (process : Tessera) (slot objectSlot : Nat) : Tessera :=
  tessDropObject (process.closeSlot slot) objectSlot

def handleClose (process : Tessera) (handle : Handle) : Except Error Unit × Tessera :=
  match tessResolve process handle with
  | none => refuse process .invalidHandle
  | some slot => (.ok (), closeResolved process slot (process.entry slot).objectSlot)

def closeListed (state : Bool × Tessera) (handle : Handle) : Bool × Tessera :=
  match tessResolve state.2 handle with
  | none => (true, state.2)
  | some slot => (state.1, closeResolved state.2 slot (state.2.entry slot).objectSlot)

def handleCloseMany (process : Tessera) (handles : List Handle) : Except Error Unit × Tessera :=
  let closed := handles.foldl closeListed (false, process)
  if closed.1 then (.error (errorOf .invalidHandle), closed.2) else (.ok (), closed.2)

/-- The rights that are asked for: all ones stand for those of the source. -/
def grantedRights (rights source : Rights) : Rights :=
  if rights = rightsSame then source else rights

def handleDuplicate (process : Tessera) (handle : Handle) (rights : Rights) :
    Option (Except Error Handle × Tessera) :=
  match tessResolve process handle with
  | none => some (refuse process .invalidHandle)
  | some slot =>
    let source := (process.entry slot).rights
    if !rightsHas source rightDuplicate then some (refuse process .accessDenied)
    else
      let granted := grantedRights rights source
      if !rightsSubset granted source then some (refuse process .accessDenied)
      else do
        let (minted, process) ← tessAddHandle (process.note (.derived source granted))
          (process.entry slot).objectSlot granted
        some (.ok minted, process)

def handleReplace (process : Tessera) (handle : Handle) (rights : Rights) :
    Option (Except Error Handle × Tessera) :=
  match tessResolve process handle with
  | none => some (refuse process .invalidHandle)
  | some slot =>
    let source := (process.entry slot).rights
    let granted := grantedRights rights source
    if !rightsSubset granted source then some (refuse process .accessDenied)
    else do
      let objectSlot := (process.entry slot).objectSlot
      let (minted, process) ← tessAddHandle (process.note (.derived source granted)) objectSlot
        granted
      some (.ok minted, closeResolved process slot objectSlot)

structure HandleInfo where
  objectType : ObjectType
  rights : Rights
  objectId : Nat
  deriving DecidableEq, Repr

def handleInfo (process : Tessera) (handle : Handle) : Except Error HandleInfo × Tessera :=
  match tessResolve process handle with
  | none => refuse process .invalidHandle
  | some slot =>
    let record := process.object (process.entry slot).objectSlot
    (.ok ⟨record.objectType, (process.entry slot).rights, record.objectId⟩, process)

def objectSetName (process : Tessera) (handle : Handle) (name : String) :
    Except Error Unit × Tessera :=
  match tessResolve process handle with
  | none => refuse process .invalidHandle
  | some slot =>
    if !rightsHas (process.entry slot).rights rightSetProperty then refuse process .accessDenied
    else if name.utf8ByteSize > 64 then refuse process .invalidArgument
    else
      (.ok (), process.setObject (process.entry slot).objectSlot fun record =>
        { record with name := name })

def tessResolvePort (process : Tessera) (handle : Handle) : Option Nat :=
  match tessResolve process handle with
  | none => none
  | some slot =>
    let objectSlot := (process.entry slot).objectSlot
    if objectTypeCode (process.object objectSlot).objectType ≠ 1 then none else some objectSlot

def objectWaitAsync (process : Tessera) (handle : Handle) (signals : Signals)
    (options : WaitOptions) (port : Handle) (key : Key) : Except Error Unit × Tessera :=
  match tessResolve process handle with
  | none => refuse process .invalidHandle
  | some slot =>
    if !rightsHas (process.entry slot).rights rightWait then refuse process .accessDenied
    else
      match tessResolvePort process port with
      | none => refuse process .wrongType
      | some portSlot =>
        (.ok (), tessArm process (process.entry slot).objectSlot portSlot key signals
          (waitOptionCode options))

def objectSignal (process : Tessera) (handle : Handle) (set clear : Signals) :
    Except Error Unit × Tessera :=
  match tessResolve process handle with
  | none => refuse process .invalidHandle
  | some slot =>
    if !rightsHas (process.entry slot).rights rightSignal then refuse process .accessDenied
    else
      let objectSlot := (process.entry slot).objectSlot
      let record := process.object objectSlot
      let code := objectTypeCode record.objectType
      if code ≠ 2 ∧ code ≠ 3 then refuse process .wrongType
      else if !signalsHas signalsUserSettable set || !signalsHas signalsUserSettable clear then
        refuse process .invalidArgument
      else if code = 3 then
        let target := record.peerSlot.toNat
        let process := process.note (.signalled record.objectId (process.object target).objectId
          (process.object target).live)
        (.ok (), tessRaiseSignals process target set clear)
      else
        let process := process.note (.asserted record.objectId)
        (.ok (), tessRaiseSignals process objectSlot set clear)

def portCreate (process : Tessera) : Option (Except Error Handle × Tessera) := do
  let (objectSlot, process) ← tessAddObject process .port signalsNone (-1)
  let (handle, process) ← tessAddHandle process objectSlot rightsDefault
  some (.ok handle, process)

def eventCreate (process : Tessera) (initial : Signals) :
    Option (Except Error Handle × Tessera) := do
  let masked := signalsIntersect initial signalsUserSettable
  let (objectSlot, process) ← tessAddObject process .event masked (-1)
  let (handle, process) ← tessAddHandle process objectSlot rightsDefault
  some (.ok handle, process)

structure HandlePair where
  first : Handle
  second : Handle
  deriving DecidableEq, Repr

def eventPairCreate (process : Tessera) : Option (Except Error HandlePair × Tessera) := do
  let process := process.note (.paired process.nextObjectId (process.nextObjectId + 1))
  let (slotFirst, process) ← tessAddObject process .eventPair signalsNone (-1)
  let (slotSecond, process) ← tessAddObject process .eventPair signalsNone slotFirst
  let process := process.setObject slotFirst fun record => { record with peerSlot := slotSecond }
  let (handleFirst, process) ← tessAddHandle process slotFirst rightsDefault
  let (handleSecond, process) ← tessAddHandle process slotSecond rightsDefault
  some (.ok ⟨handleFirst, handleSecond⟩, process)

/-- Nothing is left in the queue of a port. -/
def settlePort (record : ObjectRecord) : ObjectRecord :=
  if record.queue.length ≤ record.queueHead then
    { record with
      queue := []
      queueHead := 0
      signals := signalsClear record.signals signalReadable }
  else record

/-- Take at most `max` packets.  A port without packets does not make its caller wait,
whatever the deadline. -/
def portWait (process : Tessera) (port : Handle) (max : UInt32) (_deadline : UInt64) :
    Except Error (List Completion) × Tessera :=
  match tessResolve process port with
  | none => refuse process .invalidHandle
  | some slot =>
    if !rightsHas (process.entry slot).rights rightWait then refuse process .accessDenied
    else
      let objectSlot := (process.entry slot).objectSlot
      let record := process.object objectSlot
      if objectTypeCode record.objectType ≠ 1 then refuse process .wrongType
      else
        let batch := (record.queue.drop record.queueHead).take max.toNat
        let process := process.setObject objectSlot fun record =>
          settlePort { record with queueHead := record.queueHead + batch.length }
        if batch.length = 0 then (.error (errorOf .timeout), process)
        else (.ok batch, process.note (.drained record.objectId))

def portUserPacketLimit : Nat := 65536

def portPost (process : Tessera) (port : Handle) (packet : Completion) :
    Except Error Unit × Tessera :=
  match tessResolve process port with
  | none => refuse process .invalidHandle
  | some slot =>
    if !rightsHas (process.entry slot).rights rightWrite then refuse process .accessDenied
    else
      let objectSlot := (process.entry slot).objectSlot
      let record := process.object objectSlot
      if objectTypeCode record.objectType ≠ 1 then refuse process .wrongType
      else if record.queue.length - record.queueHead ≥ portUserPacketLimit then
        refuse process .shouldWait
      else
        (.ok (), tessDeliverToPort (process.note (.posted record.objectId)) objectSlot
          { packet with kind := .user })

def portCancel (process : Tessera) (port : Handle) (key : Key) :
    Option (Except Error UInt32 × Tessera) :=
  match tessResolvePort process port with
  | none => some (refuse process .invalidHandle)
  | some objectSlot =>
    let cancelled := tessCancelKey process objectSlot key
    if cancelled.1 < 2 ^ 32 then some (.ok (UInt32.ofNat cancelled.1), cancelled.2) else none

/-! ## Runs -/

inductive Call
  | handleClose (handle : Handle)
  | handleCloseMany (handles : List Handle)
  | handleDuplicate (handle : Handle) (rights : Rights)
  | handleReplace (handle : Handle) (rights : Rights)
  | handleInfo (handle : Handle)
  | objectSetName (handle : Handle) (name : String)
  | objectWaitAsync (handle : Handle) (signals : Signals) (options : WaitOptions) (port : Handle)
      (key : Key)
  | objectSignal (handle : Handle) (set clear : Signals)
  | portCreate
  | portWait (port : Handle) (max : UInt32) (deadline : UInt64)
  | portPost (port : Handle) (packet : Completion)
  | portCancel (port : Handle) (key : Key)
  | eventCreate (initial : Signals)
  | eventPairCreate
  deriving DecidableEq, Repr

/-- What a call answers. -/
inductive Reply
  | done
  | handle (handle : Handle)
  | pair (pair : HandlePair)
  | info (info : HandleInfo)
  | batch (packets : List Completion)
  | count (count : UInt32)
  | error (error : Error)
  deriving DecidableEq, Repr

/-- The answer of a call that has this one for success. -/
def answer {α : Type} (reply : α → Reply) (result : Except Error α × Tessera) : Reply × Tessera :=
  match result.1 with
  | .ok value => (reply value, result.2)
  | .error error => (.error error, result.2)

/-- A call, unless it stops the program. -/
def Call.run (process : Tessera) : Call → Option (Reply × Tessera)
  | .handleClose handle =>
    some (answer (fun _ => .done) (LibTessera.handleClose process handle))
  | .handleCloseMany handles =>
    some (answer (fun _ => .done) (LibTessera.handleCloseMany process handles))
  | .handleDuplicate handle rights =>
    (LibTessera.handleDuplicate process handle rights).map (answer .handle)
  | .handleReplace handle rights =>
    (LibTessera.handleReplace process handle rights).map (answer .handle)
  | .handleInfo handle => some (answer .info (LibTessera.handleInfo process handle))
  | .objectSetName handle name =>
    some (answer (fun _ => .done) (LibTessera.objectSetName process handle name))
  | .objectWaitAsync handle signals options port key =>
    some (answer (fun _ => .done)
      (LibTessera.objectWaitAsync process handle signals options port key))
  | .objectSignal handle set clear =>
    some (answer (fun _ => .done) (LibTessera.objectSignal process handle set clear))
  | .portCreate => (LibTessera.portCreate process).map (answer .handle)
  | .portWait port max deadline =>
    some (answer .batch (LibTessera.portWait process port max deadline))
  | .portPost port packet =>
    some (answer (fun _ => .done) (LibTessera.portPost process port packet))
  | .portCancel port key => (LibTessera.portCancel process port key).map (answer .count)
  | .eventCreate initial => (LibTessera.eventCreate process initial).map (answer .handle)
  | .eventPairCreate => (LibTessera.eventPairCreate process).map (answer .pair)

end LibTessera

end KiraVm
