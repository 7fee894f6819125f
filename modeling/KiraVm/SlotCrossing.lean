import KiraVm.ChannelTable
import KiraVm.NativeStoreHistory
import KiraVm.TaskTable
import KiraVm.TypeTable

/-!
# Values that cross a slot

A task's argument, its result and a queued value of a channel each cross as one
word.  An integer is its word, a float crosses as its bits, and a value that owns
storage crosses as a token of the store of callback state.  The engine carries
the kind of a value beside it, and a slot takes integers only.
-/

namespace KiraVm.KiraIr

open SlotTable StateLogic

/-! ## How a type crosses -/

inductive Crossing
  | word
  | floatBits
  | boxed (typeId : UInt64)
  deriving DecidableEq, Repr

def Crossing.isBoxed : Crossing → Bool
  | .boxed _ => true
  | _ => false

def Ty.isScalar : Ty → Bool
  | .int _ | .float _ | .bool | .void | .rawPtr | .foreignPtr _ => true
  | .nativeState _ | .task _ | .mainThreadTask _ | .distinct _ => true
  | _ => false

/-- The code of a spelling in a type's identity. -/
def intCode : IntWidth → UInt64
  | .plain => 0
  | .i8 => 1
  | .i16 => 2
  | .i32 => 3
  | .u8 => 5
  | .u16 => 6
  | .u32 => 7
  | .u64 => 8

def floatCode : FloatSpelling → UInt64
  | .plain => 0
  | .f32 => 1

/-- The identity of a type whose values the store holds.  A shape is identified
by its fingerprint. -/
def nativeStateTypeId (fingerprint : Ty → UInt64) (ty : Ty) : Option UInt64 :=
  let identity (tag payload : UInt64) : Option UInt64 :=
    some (tag <<< 56 ||| payload &&& 0x00ffffffffffffff)
  match ty with
  | .int spelling => identity 1 (intCode spelling)
  | .float spelling => identity 2 (floatCode spelling)
  | .bool => identity 3 0
  | .string => identity 4 0
  | .number => identity 11 0
  | .struct _ => identity 5 (fingerprint ty)
  | .array _ => identity 6 (fingerprint ty)
  | .enum _ => identity 7 (fingerprint ty)
  | .rawPtr | .foreignPtr _ => identity 8 0
  | .cell _ => identity 9 (fingerprint ty)
  | .distinct _ => identity 10 (fingerprint ty)
  | .void | .error | .cString | .cBlock | .nativeState _ | .task _ | .mainThreadTask _
  | .runtimeType | .any => none

/-- How a value of a type becomes the word of a slot. -/
def Crossing.classify (fingerprint : Ty → UInt64) (types : TypeTable) (ty : Ty) : Crossing :=
  let representation :=
    match ty with
    | .distinct id => (types.distincts.representation id).getD (.int .plain)
    | other => other
  match representation with
  | .float _ => .floatBits
  | other =>
    if other.isScalar then .word
    else
      match nativeStateTypeId fingerprint other with
      | some id => .boxed id
      | none => .word

/-! ## The machine -/

/-- A value of the engine: a tree that the store can hold, or a value that it
refuses, such as a descriptor of a type. -/
inductive Payload
  | tree (value : NativeStateValue)
  | refused

inductive SpineTrap
  | typeMismatch
  | valueMismatch
  | store (refusal : NativeStateError)
  | task (trap : TaskTrap)
  | channel (trap : ChannelTrap)
  deriving DecidableEq, Repr

/-- What a token is made for. -/
inductive Holder
  | task (key : Key)
  | channel (key : Key)
  deriving DecidableEq, Repr

/-- A value that was put into the store to cross. -/
structure Box where
  token : UInt64
  typeId : UInt64
  value : NativeStateValue

structure TaskTargetInfo where
  function : Nat
  params : List Ty
  result : Ty
  deriving DecidableEq, Repr

/-- What a driven task's result is for. -/
inductive Tail
  | join (crossing : Crossing)
  | detach
  | driven
  deriving DecidableEq, Repr

/-- Generated code that waits for a task's body, for a value, or for the queue of
a receiver that is closed. -/
inductive Frame
  | body (handle : Int64) (row : TaskTargetInfo) (tail : Tail)
  | waiting (crossing : Crossing) (receiver : Int64)
  | closing (receiver : Int64)
  deriving DecidableEq, Repr

/-- The tables of a run with the generated code that is on the stack.  The code
does not read the other fields: they record the boxes, what each token was made
for, every release, every value taken out, and the payload type of a channel. -/
structure Machine where
  store : NativeStateStore
  tasks : TaskExecutor
  channels : ChannelExecutor
  frames : List Frame
  boxes : List Box
  owner : UInt64 → Option Holder
  released : List UInt64
  recovered : List (UInt64 × NativeStateValue)
  wires : Key → Crossing

def Machine.new : Machine where
  store := .new
  tasks := .new
  channels := .empty
  frames := []
  boxes := []
  owner := fun _ => none
  released := []
  recovered := []
  wires := fun _ => .word

def Machine.boxedUp (machine : Machine) (store : NativeStateStore) (box : Box) : Machine :=
  { machine with store := store, boxes := machine.boxes ++ [box] }

def Machine.givenUp (machine : Machine) (store : NativeStateStore) (token : UInt64) : Machine :=
  { machine with store := store, released := machine.released ++ [token] }

def Machine.takenOut (machine : Machine) (store : NativeStateStore) (token : UInt64)
    (value : NativeStateValue) : Machine :=
  { machine.givenUp store token with recovered := machine.recovered ++ [(token, value)] }

/-- An operation of the generated code; one that traps keeps the machine it
trapped in. -/
abbrev OnMachine (α : Type) : Type :=
  EStateM SpineTrap Machine α

/-! ## Boxing and recovering -/

def rootGlue : NativeStateValue → Option UInt32
  | .dropStruct glue _ => some glue
  | _ => none

def nativeStateNew (typeId : UInt64) : Payload → OnMachine UInt64
  | .refused => throw .valueMismatch
  | .tree value => do
    let machine ← get
    match NativeStateStore.createDropping typeId value (rootGlue value) machine.store with
    | .error refusal _ => throw (.store refusal)
    | .ok token store => do
      set (machine.boxedUp store ⟨token, typeId, value⟩)
      pure token

/-- Take a value out of the store and give up its token. -/
def nativeStateTake (typeId token : UInt64) : OnMachine Payload := do
  let machine ← get
  match NativeStateStore.readAt token typeId [] machine.store with
  | .error refusal _ => throw (.store refusal)
  | .ok value _ =>
    match NativeStateStore.release token machine.store with
    | .error refusal _ => throw (.store refusal)
    | .ok _ store => do
      set (machine.takenOut store token value)
      pure (.tree value)

def nativeStateRelease (token : UInt64) : OnMachine Unit := do
  let machine ← get
  match NativeStateStore.releaseDropping token machine.store with
  | .error refusal _ => throw (.store refusal)
  | .ok _ store => set (machine.givenUp store token)

def popInt : Payload → OnMachine Int64
  | .tree (.int word) => pure word
  | _ => throw .typeMismatch

def convertFloatToBits : Payload → OnMachine Payload
  | .tree (.float bits) => pure (.tree (.int bits.toInt64))
  | _ => throw .typeMismatch

def boxForSlot : Crossing → Payload → OnMachine Payload
  | .word, value => pure value
  | .floatBits, value => convertFloatToBits value
  | .boxed typeId, value => do
    let token ← nativeStateNew typeId value
    pure (.tree (.int token.toInt64))

def recoverFromSlot : Crossing → Int64 → OnMachine Payload
  | .word, word => pure (.tree (.int word))
  | .floatBits, word => pure (.tree (.float word.toUInt64))
  | .boxed typeId, word => nativeStateTake typeId word.toUInt64

def throughSlot (crossing : Crossing) (value : Payload) : OnMachine Payload := do
  let operand ← boxForSlot crossing value
  let word ← popInt operand
  recoverFromSlot crossing word

/-! ## What the store does for a crossing -/

theorem decorate_rootGlue (value : NativeStateValue) :
    NativeStateStore.decorateRootDrop value (rootGlue value) = .ok value := by
  cases value <;> rfl

def Box.entry (box : Box) : StateEntry :=
  ⟨box.typeId, box.value, 1, box.value.requiresEngineRelease⟩

def HasToken (store : NativeStateStore) : Prop :=
  store.next ≠ 0 ∧ (NativeStateStore.checkedAdd store.next NativeStateStore.stride).isSome = true

variable {machine : Machine} {store : NativeStateStore}

def storeWith (store : NativeStateStore) (box : Box) : NativeStateStore :=
  ({ store with next := store.next + NativeStateStore.stride } : NativeStateStore).put store.next
    (some box.entry)

theorem createDropping_run (hasToken : HasToken store) (typeId : UInt64)
    (value : NativeStateValue) :
    NativeStateStore.createDropping typeId value (rootGlue value) store =
      .ok store.next (storeWith store ⟨store.next, typeId, value⟩) := by
  rcases hasToken with ⟨nonzero, counted⟩
  have sum : NativeStateStore.checkedAdd store.next NativeStateStore.stride =
      some (store.next + NativeStateStore.stride) := by
    unfold NativeStateStore.checkedAdd at counted ⊢
    split at counted
    · rw [if_pos (by assumption)]
    · cases counted
  simp only [NativeStateStore.createDropping, decorate_rootGlue, NativeStateStore.ofExcept, bind,
    EStateM.bind, pure_run, get_run, nonzero, if_false, sum, set_run, NativeStateStore.setEntry,
    modify_run]
  rfl

theorem createDropping_refused (noToken : ¬ HasToken store) (typeId : UInt64)
    (value : NativeStateValue) :
    ∃ refusal, NativeStateStore.createDropping typeId value (rootGlue value) store =
      .error refusal store := by
  refine ⟨.tokenExhausted, ?_⟩
  by_cases zero : store.next = 0
  · simp only [NativeStateStore.createDropping, decorate_rootGlue, NativeStateStore.ofExcept, bind,
      EStateM.bind, pure_run, get_run, zero, if_true, throw_run]
  · cases counted : NativeStateStore.checkedAdd store.next NativeStateStore.stride with
    | some next => exact absurd ⟨zero, by rw [counted]; rfl⟩ noToken
    | none =>
      simp only [NativeStateStore.createDropping, decorate_rootGlue, NativeStateStore.ofExcept,
        bind, EStateM.bind, pure_run, get_run, zero, if_false, counted, throw_run]

theorem nativeStateNew_run (hasToken : HasToken machine.store) (typeId : UInt64)
    (value : NativeStateValue) :
    nativeStateNew typeId (.tree value) machine =
      .ok machine.store.next
        (machine.boxedUp (storeWith machine.store ⟨machine.store.next, typeId, value⟩)
          ⟨machine.store.next, typeId, value⟩) := by
  simp only [nativeStateNew, bind, EStateM.bind, get_run, createDropping_run hasToken, set_run,
    pure_run]

theorem nativeStateNew_refused (noToken : ¬ HasToken machine.store) (typeId : UInt64)
    (value : NativeStateValue) :
    ∃ trap, nativeStateNew typeId (.tree value) machine = .error trap machine := by
  rcases createDropping_refused noToken typeId value with ⟨refusal, refused⟩
  exact ⟨.store refusal, by
    simp only [nativeStateNew, bind, EStateM.bind, get_run, refused, throw_run]⟩

variable {box : Box}

theorem readAt_box (nonnull : box.token ≠ 0) (found : store.entries box.token = some box.entry) :
    NativeStateStore.readAt box.token box.typeId [] store = .ok box.value store :=
  NativeStateStore.readAt_run (NativeStateStore.entry_found nonnull found) rfl rfl

theorem release_box (nonnull : box.token ≠ 0) (found : store.entries box.token = some box.entry) :
    NativeStateStore.release box.token store =
      if box.value.requiresEngineRelease then .error .dropEngineRequired store
      else .ok true (store.put box.token none) := by
  have resolved := NativeStateStore.entry_found nonnull found
  have single : ¬ (1 : UInt64) < 1 := by decide
  cases engine : box.value.requiresEngineRelease with
  | true =>
    simp [NativeStateStore.release, bind, EStateM.bind, resolved, Box.entry, engine, single,
      throw_run]
  | false =>
    simp [NativeStateStore.release, bind, EStateM.bind, resolved, Box.entry, engine, single,
      NativeStateStore.remove, get_run, found, set_run, pure_run]

theorem releaseDropping_box (nonnull : box.token ≠ 0)
    (found : store.entries box.token = some box.entry) :
    ∃ tree, NativeStateStore.releaseDropping box.token store =
      .ok tree (store.put box.token none) := by
  have resolved := NativeStateStore.entry_found nonnull found
  have single : ¬ (1 : UInt64) < 1 := by decide
  cases engine : box.value.requiresEngineRelease with
  | true =>
    exact ⟨some box.value, by
      simp [NativeStateStore.releaseDropping, bind, EStateM.bind, resolved, Box.entry, engine,
        single, NativeStateStore.remove, get_run, found, set_run, pure_run]⟩
  | false =>
    exact ⟨none, by
      simp [NativeStateStore.releaseDropping, bind, EStateM.bind, resolved, Box.entry, engine,
        single, NativeStateStore.remove, get_run, found, set_run, pure_run]⟩

theorem nativeStateTake_box {box : Box} (nonnull : box.token ≠ 0)
    (found : machine.store.entries box.token = some box.entry) :
    nativeStateTake box.typeId box.token machine =
      if box.value.requiresEngineRelease then .error (.store .dropEngineRequired) machine
      else .ok (.tree box.value)
        (machine.takenOut (machine.store.put box.token none) box.token box.value) := by
  simp only [nativeStateTake, bind, EStateM.bind, get_run, readAt_box nonnull found,
    release_box nonnull found]
  split <;> rfl

theorem nativeStateRelease_box (nonnull : box.token ≠ 0)
    (found : machine.store.entries box.token = some box.entry) :
    nativeStateRelease box.token machine =
      .ok () (machine.givenUp (machine.store.put box.token none) box.token) := by
  rcases releaseDropping_box nonnull found with ⟨tree, ran⟩
  simp only [nativeStateRelease, bind, EStateM.bind, get_run, ran, set_run]

/-! ## Values that come back -/

/-- The values that a crossing gives back. -/
def CrossesWhole (store : NativeStateStore) : Crossing → Payload → Prop
  | .word, value => ∃ word, value = .tree (.int word)
  | .floatBits, value => ∃ bits, value = .tree (.float bits)
  | .boxed _, value =>
    HasToken store ∧ ∃ tree, value = .tree tree ∧ tree.requiresEngineRelease = false

theorem toInt64_toUInt64 (word : UInt64) : word.toInt64.toUInt64 = word := by
  rfl

/-- A slot gives back the value that was put into it exactly when it is an
integer where the word is the value, a float where its bits are, or a tree that
the store holds and that runs no `Drop` body. -/
theorem throughSlot_iff (machine : Machine) (crossing : Crossing) (value : Payload) :
    (∃ after, throughSlot crossing value machine = .ok value after) ↔
      CrossesWhole machine.store crossing value := by
  cases crossing with
  | word =>
    cases value with
    | refused => simp [throughSlot, boxForSlot, popInt, CrossesWhole, bind, EStateM.bind, pure_run,
        throw_run]
    | tree tree =>
      cases tree <;>
        simp [throughSlot, boxForSlot, popInt, recoverFromSlot, CrossesWhole, bind,
          EStateM.bind, pure_run, throw_run]
  | floatBits =>
    cases value with
    | refused => simp [throughSlot, boxForSlot, convertFloatToBits, CrossesWhole, bind,
        EStateM.bind, throw_run]
    | tree tree =>
      cases tree <;>
        simp [throughSlot, boxForSlot, convertFloatToBits, popInt, recoverFromSlot,
          CrossesWhole, bind, EStateM.bind, pure_run, throw_run]
  | boxed typeId =>
    cases value with
    | refused => simp [throughSlot, boxForSlot, nativeStateNew, CrossesWhole, bind, EStateM.bind,
        throw_run]
    | tree tree =>
      by_cases hasToken : HasToken machine.store
      · have ran := nativeStateNew_run hasToken typeId tree
        have nonnull : machine.store.next ≠ 0 := hasToken.1
        have found : (storeWith machine.store ⟨machine.store.next, typeId, tree⟩).entries
            machine.store.next = some (Box.entry ⟨machine.store.next, typeId, tree⟩) := by
          simp [storeWith, NativeStateStore.put]
        have taken := @nativeStateTake_box
          (machine.boxedUp (storeWith machine.store ⟨machine.store.next, typeId, tree⟩)
            ⟨machine.store.next, typeId, tree⟩) ⟨machine.store.next, typeId, tree⟩ nonnull found
        dsimp only at taken
        simp only [throughSlot, boxForSlot, popInt, recoverFromSlot, CrossesWhole, bind,
          EStateM.bind, pure_run, ran, toInt64_toUInt64, taken, hasToken, true_and,
          Payload.tree.injEq, exists_eq_left']
        cases engine : tree.requiresEngineRelease <;> simp
      · rcases nativeStateNew_refused hasToken typeId tree with ⟨trap, ran⟩
        simp only [throughSlot, boxForSlot, CrossesWhole, bind, EStateM.bind, ran, hasToken,
          false_and, reduceCtorEq, exists_false]

end KiraVm.KiraIr
