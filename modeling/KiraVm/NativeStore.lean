import KiraVm.HostModel
import KiraVm.StateLogic
import Mathlib.Algebra.BigOperators.Group.Multiset.Basic

/-!
# The store of callback state

Callback state lives in a store under a token, with the number of its owners and
whether destroying it may enter Kira code.  Tokens are even and count up; a value
is reached through a path of fields and indices.
-/

namespace KiraVm

open StateLogic

/-- Why the store refused an operation. -/
inductive NativeStateError
  | noStateHost
  | nullToken
  | unknownToken (token : UInt64)
  | wrongType (actual requested : UInt64)
  | tokenExhausted
  | malformedValue
  | dropEngineRequired
  | pathMismatch
  deriving DecidableEq, Repr

mutual

/-- Whether destroying a tree may enter Kira code. -/
def NativeStateValue.requiresEngineRelease : NativeStateValue → Bool
  | .dropStruct _ _ | .nativeState _ _ _ => true
  | .struct values | .array values => NativeStateValue.anyRequiresEngineRelease values
  | .enum _ payload => NativeStateValue.payloadRequiresEngineRelease payload
  | .any _ payload => payload.requiresEngineRelease
  | _ => false

def NativeStateValue.anyRequiresEngineRelease : List NativeStateValue → Bool
  | [] => false
  | value :: values =>
    value.requiresEngineRelease || NativeStateValue.anyRequiresEngineRelease values

def NativeStateValue.payloadRequiresEngineRelease : Option NativeStateValue → Bool
  | none => false
  | some payload => payload.requiresEngineRelease

end

/-! ## Paths -/

def nativeStateWalk :
    NativeStateValue → List NativeStatePathStep → Except NativeStateError NativeStateValue
  | cursor, [] => .ok cursor
  | .struct fields, .field index :: path | .dropStruct _ fields, .field index :: path =>
    match fields[index.toNat]? with
    | none => .error .pathMismatch
    | some field => nativeStateWalk field path
  | .array elements, .index position :: path =>
    match elements[position.toNat]? with
    | none => .error .pathMismatch
    | some element => nativeStateWalk element path
  | _, _ :: _ => .error .pathMismatch

def nativeStateWalkMut {α : Type}
    (change : NativeStateValue → Except NativeStateError (α × NativeStateValue)) :
    NativeStateValue → List NativeStatePathStep → Except NativeStateError (α × NativeStateValue)
  | cursor, [] => change cursor
  | .struct fields, .field index :: path =>
    match fields[index.toNat]? with
    | none => .error .pathMismatch
    | some field => do
      let (answer, changed) ← nativeStateWalkMut change field path
      pure (answer, .struct (fields.set index.toNat changed))
  | .dropStruct glue fields, .field index :: path =>
    match fields[index.toNat]? with
    | none => .error .pathMismatch
    | some field => do
      let (answer, changed) ← nativeStateWalkMut change field path
      pure (answer, .dropStruct glue (fields.set index.toNat changed))
  | .array elements, .index position :: path =>
    match elements[position.toNat]? with
    | none => .error .pathMismatch
    | some element => do
      let (answer, changed) ← nativeStateWalkMut change element path
      pure (answer, .array (elements.set position.toNat changed))
  | _, _ :: _ => .error .pathMismatch

/-! ## The store -/

/-- One live state.  `refs` counts its owners. -/
structure StateEntry where
  ty : UInt64
  value : NativeStateValue
  refs : UInt64
  requiresEngineRelease : Bool

structure NativeStateStore where
  next : UInt64
  entries : UInt64 → Option StateEntry

/-- An operation on the store; a refused one keeps the store it was refused in. -/
abbrev OnStore (α : Type) : Type :=
  EStateM NativeStateError NativeStateStore α

namespace NativeStateStore

/-- Tokens are even: an odd word is the address of a box of a native engine. -/
def stride : UInt64 := 2

def new : NativeStateStore where
  next := stride
  entries := fun _ => none

def checkedAdd (left right : UInt64) : Option UInt64 :=
  if left.toNat + right.toNat < 2 ^ 64 then some (left + right) else none

def put (store : NativeStateStore) (token : UInt64) (entry : Option StateEntry) :
    NativeStateStore :=
  { store with entries := Function.update store.entries token entry }

def ofExcept {α : Type} : Except NativeStateError α → OnStore α
  | .ok value => pure value
  | .error refusal => throw refusal

def checkNonNull (token : UInt64) : Except NativeStateError Unit :=
  if token = 0 then .error .nullToken else .ok ()

def checkType (actual requested : UInt64) : Except NativeStateError Unit :=
  if actual = requested then .ok () else .error (.wrongType actual requested)

def entry (token : UInt64) : OnStore StateEntry := do
  ofExcept (checkNonNull token)
  let store ← get
  match store.entries token with
  | none => throw (.unknownToken token)
  | some entry => pure entry

def setEntry (token : UInt64) (entry : StateEntry) : OnStore Unit :=
  modify fun store => store.put token (some entry)

def remove (token : UInt64) : OnStore StateEntry := do
  let store ← get
  match store.entries token with
  | none => throw (.unknownToken token)
  | some entry => do
    set (store.put token none)
    pure entry

/-- Record the `Drop` body of a boxed struct in its tree. -/
def decorateRootDrop (value : NativeStateValue) (glue : Option UInt32) :
    Except NativeStateError NativeStateValue :=
  match glue, value with
  | none, value => .ok value
  | some glue, .struct fields => .ok (.dropStruct glue fields)
  | some _, .dropStruct inner fields => .ok (.dropStruct inner fields)
  | some _, _ => .error .malformedValue

def createDropping (ty : UInt64) (value : NativeStateValue) (glue : Option UInt32) :
    OnStore UInt64 := do
  let value ← ofExcept (decorateRootDrop value glue)
  let store ← get
  let word := store.next
  if word = 0 then throw .tokenExhausted
  match checkedAdd store.next stride with
  | none => throw .tokenExhausted
  | some next => do
    set { store with next := next }
    setEntry word ⟨ty, value, 1, value.requiresEngineRelease⟩
    pure word

def retain (token : UInt64) : OnStore Unit := do
  let held ← entry token
  match checkedAdd held.refs 1 with
  | none => throw .tokenExhausted
  | some refs => setEntry token { held with refs := refs }

/-- Give up one owner: whether that destroyed the state. -/
def release (token : UInt64) : OnStore Bool := do
  let held ← entry token
  if 1 < held.refs then do
    let held ← entry token
    setEntry token { held with refs := held.refs - 1 }
    pure false
  else if held.requiresEngineRelease then
    throw .dropEngineRequired
  else do
    let _ ← remove token
    pure true

/-- Give up one owner; the last one gets the tree if an engine has to destroy it. -/
def releaseDropping (token : UInt64) : OnStore (Option NativeStateValue) := do
  let held ← entry token
  if 1 < held.refs then do
    let held ← entry token
    setEntry token { held with refs := held.refs - 1 }
    pure none
  else do
    let removed ← remove token
    if removed.requiresEngineRelease then pure (some removed.value) else pure none

def withValue (held : StateEntry) (value : NativeStateValue) : StateEntry :=
  { held with value := value, requiresEngineRelease := value.requiresEngineRelease }

def replace (token requested : UInt64) (value : NativeStateValue) : OnStore NativeStateValue := do
  let held ← entry token
  ofExcept (checkType held.ty requested)
  setEntry token (withValue held value)
  pure held.value

def readAt (token requested : UInt64) (path : List NativeStatePathStep) :
    OnStore NativeStateValue := do
  let held ← entry token
  ofExcept (checkType held.ty requested)
  ofExcept (nativeStateWalk held.value path)

def replaceAt (token requested : UInt64) (path : List NativeStatePathStep)
    (value : NativeStateValue) : OnStore NativeStateValue := do
  let held ← entry token
  ofExcept (checkType held.ty requested)
  let (old, changed) ← ofExcept
    (nativeStateWalkMut (fun here => .ok (here, value)) held.value path)
  setEntry token (withValue held changed)
  pure old

def pushValue (value : NativeStateValue) :
    NativeStateValue → Except NativeStateError (Unit × NativeStateValue)
  | .array elements => .ok ((), .array (elements ++ [value]))
  | _ => .error .pathMismatch

def appendAt (token requested : UInt64) (path : List NativeStatePathStep)
    (value : NativeStateValue) : OnStore Unit := do
  let held ← entry token
  ofExcept (checkType held.ty requested)
  let (_, changed) ← ofExcept (nativeStateWalkMut (pushValue value) held.value path)
  setEntry token (withValue held changed)

/-! ## Requests -/

/-- The operations on a token. -/
inductive StateOp
  | retain
  | release
  | releaseDropping
  | replace (requested : UInt64) (value : NativeStateValue)
  | replaceAt (requested : UInt64) (path : List NativeStatePathStep) (value : NativeStateValue)
  | appendAt (requested : UInt64) (path : List NativeStatePathStep) (value : NativeStateValue)

inductive StoreRequest
  | create (ty : UInt64) (value : NativeStateValue) (glue : Option UInt32)
  | own (token : UInt64) (op : StateOp)

inductive StoreAnswer
  | created (token : UInt64)
  | retained
  | released (destroyed : Bool)
  | dropped (value : Option NativeStateValue)
  | displaced (value : NativeStateValue)
  | appended

/-- Carry out one operation. -/
def perform : StoreRequest → OnStore StoreAnswer
  | .create ty value glue => do
    let token ← createDropping ty value glue
    pure (.created token)
  | .own token .retain => do
    retain token
    pure .retained
  | .own token .release => do
    let destroyed ← release token
    pure (.released destroyed)
  | .own token .releaseDropping => do
    let value ← releaseDropping token
    pure (.dropped value)
  | .own token (.replace requested value) => do
    let old ← replace token requested value
    pure (.displaced old)
  | .own token (.replaceAt requested path value) => do
    let old ← replaceAt token requested path value
    pure (.displaced old)
  | .own token (.appendAt requested path value) => do
    appendAt token requested path value
    pure .appended

def serve (store : NativeStateStore) (request : StoreRequest) :
    Except NativeStateError StoreAnswer × NativeStateStore :=
  match perform request store with
  | .ok answer after => (.ok answer, after)
  | .error refusal after => (.error refusal, after)

/-! ## What an operation does -/

/-- What an operation on a live state answers, and what becomes of the state. -/
def ownEffect (held : StateEntry) : StateOp → Except NativeStateError (StoreAnswer × Option StateEntry)
  | .retain =>
    match checkedAdd held.refs 1 with
    | none => .error .tokenExhausted
    | some refs => .ok (.retained, some { held with refs := refs })
  | .release =>
    if 1 < held.refs then .ok (.released false, some { held with refs := held.refs - 1 })
    else if held.requiresEngineRelease then .error .dropEngineRequired
    else .ok (.released true, none)
  | .releaseDropping =>
    if 1 < held.refs then .ok (.dropped none, some { held with refs := held.refs - 1 })
    else if held.requiresEngineRelease then .ok (.dropped (some held.value), none)
    else .ok (.dropped none, none)
  | .replace requested value => do
    checkType held.ty requested
    pure (.displaced held.value, some (withValue held value))
  | .replaceAt requested path value => do
    checkType held.ty requested
    let (old, changed) ← nativeStateWalkMut (fun here => .ok (here, value)) held.value path
    pure (.displaced old, some (withValue held changed))
  | .appendAt requested path value => do
    checkType held.ty requested
    let (_, changed) ← nativeStateWalkMut (pushValue value) held.value path
    pure (.appended, some (withValue held changed))

/-- Everything a request can do to the store. -/
inductive Performs (store : NativeStateStore) :
    StoreRequest → Except NativeStateError StoreAnswer → NativeStateStore → Prop
  | refused (request : StoreRequest) (refusal : NativeStateError) :
      Performs store request (.error refusal) store
  | created (ty : UInt64) {value stored : NativeStateValue} {glue : Option UInt32} {next : UInt64}
      (decorated : decorateRootDrop value glue = .ok stored) (nonzero : store.next ≠ 0)
      (counted : checkedAdd store.next stride = some next) :
      Performs store (.create ty value glue) (.ok (.created store.next))
        (({ store with next := next } : NativeStateStore).put store.next
          (some ⟨ty, stored, 1, stored.requiresEngineRelease⟩))
  | own {token : UInt64} {op : StateOp} {held : StateEntry} {answer : StoreAnswer}
      {entry : Option StateEntry} (found : store.entries token = some held)
      (effect : ownEffect held op = .ok (answer, entry)) :
      Performs store (.own token op) (.ok answer) (store.put token entry)

/-- What `serve` answers from a run of `perform`. -/
def Served (answer : EStateM.Result NativeStateError NativeStateStore StoreAnswer)
    (store : NativeStateStore) (request : StoreRequest) : Prop :=
  match answer with
  | .ok value after => Performs store request (.ok value) after
  | .error refusal after => Performs store request (.error refusal) after

variable {store : NativeStateStore}

theorem served_of_error {request : StoreRequest} {refusal : NativeStateError}
    {answer : EStateM.Result NativeStateError NativeStateStore StoreAnswer}
    (ran : answer = .error refusal store) : Served answer store request := by
  rw [ran]
  exact Performs.refused request refusal

theorem served_of_effect {token : UInt64} {op : StateOp} {held : StateEntry}
    {answer : EStateM.Result NativeStateError NativeStateStore StoreAnswer}
    (found : store.entries token = some held)
    (ran : answer = match ownEffect held op with
      | .ok (value, entry) => .ok value (store.put token entry)
      | .error refusal => .error refusal store) :
    Served answer store (.own token op) := by
  rw [ran]
  cases effect : ownEffect held op with
  | error refusal => exact Performs.refused _ refusal
  | ok outcome => exact Performs.own found effect

theorem entry_found {token : UInt64} {held : StateEntry} (nonnull : token ≠ 0)
    (found : store.entries token = some held) : entry token store = .ok held store := by
  simp only [entry, checkNonNull, nonnull, if_false, ofExcept, bind, EStateM.bind, pure_run,
    get_run, found]

theorem entry_run (token : UInt64) (store : NativeStateStore) :
    (∃ refusal, entry token store = .error refusal store) ∨
      ∃ held, token ≠ 0 ∧ store.entries token = some held := by
  by_cases null : token = 0
  · left
    refine ⟨.nullToken, ?_⟩
    simp only [entry, checkNonNull, null, if_true, ofExcept, bind, EStateM.bind, throw_run]
  · cases found : store.entries token with
    | none =>
      left
      refine ⟨.unknownToken token, ?_⟩
      simp only [entry, checkNonNull, null, if_false, ofExcept, bind, EStateM.bind, pure_run,
        get_run, found, throw_run]
    | some held => exact Or.inr ⟨held, null, rfl⟩

theorem create_served (ty : UInt64) (value : NativeStateValue) (glue : Option UInt32) :
    Served (perform (.create ty value glue) store) store (.create ty value glue) := by
  cases decorated : decorateRootDrop value glue with
  | error refusal =>
    apply served_of_error
    simp only [perform, createDropping, decorated, ofExcept, bind, EStateM.bind, throw_run]
    rfl
  | ok stored =>
    by_cases zero : store.next = 0
    · apply served_of_error
      simp only [perform, createDropping, decorated, ofExcept, bind, EStateM.bind, pure_run,
        get_run, zero, if_true, throw_run]
      rfl
    · cases counted : checkedAdd store.next stride with
      | none =>
        apply served_of_error
        simp only [perform, createDropping, decorated, ofExcept, bind, EStateM.bind, pure_run,
          get_run, zero, if_false, counted, throw_run]
        rfl
      | some next =>
        have ran : perform (.create ty value glue) store =
            .ok (.created store.next) (({ store with next := next } : NativeStateStore).put
              store.next (some ⟨ty, stored, 1, stored.requiresEngineRelease⟩)) := by
          simp only [perform, createDropping, decorated, ofExcept, bind, EStateM.bind,
            pure_run, get_run, zero, if_false, counted, set_run, setEntry, modify_run]
        rw [ran]
        exact Performs.created ty decorated zero counted

theorem own_served (token : UInt64) (op : StateOp) :
    Served (perform (.own token op) store) store (.own token op) := by
  rcases entry_run token store with ⟨refusal, unknown⟩ | ⟨held, nonnull, found⟩
  · apply served_of_error
    cases op <;>
      simp only [perform, retain, release, releaseDropping, replace, replaceAt, appendAt, bind,
        EStateM.bind, unknown] <;> rfl
  · have resolved := entry_found nonnull found
    apply served_of_effect found
    cases op with
    | retain =>
      cases counted : checkedAdd held.refs 1 <;>
        simp only [perform, retain, bind, EStateM.bind, resolved, ownEffect, counted, throw_run,
          setEntry, modify_run, pure_run]
    | release =>
      by_cases shared : 1 < held.refs
      · simp only [perform, release, bind, EStateM.bind, resolved, ownEffect, shared, if_true,
          setEntry, modify_run, pure_run]
      · cases engine : held.requiresEngineRelease with
        | false =>
          simp [perform, release, bind, EStateM.bind, resolved, ownEffect, shared,
            engine, remove, get_run, found, set_run, pure_run]
        | true =>
          simp [perform, release, bind, EStateM.bind, resolved, ownEffect, shared,
            engine, throw_run]
    | releaseDropping =>
      by_cases shared : 1 < held.refs
      · simp only [perform, releaseDropping, bind, EStateM.bind, resolved, ownEffect, shared,
          if_true, setEntry, modify_run, pure_run]
      · cases engine : held.requiresEngineRelease with
        | false =>
          simp [perform, releaseDropping, bind, EStateM.bind, resolved, ownEffect, shared,
            engine, remove, get_run, found, set_run, pure_run]
        | true =>
          simp [perform, releaseDropping, bind, EStateM.bind, resolved, ownEffect, shared,
            engine, remove, get_run, found, set_run, pure_run]
    | replace requested value =>
      cases typed : checkType held.ty requested with
      | error refusal =>
        simp only [perform, replace, bind, EStateM.bind, resolved, ownEffect, typed, ofExcept,
          throw_run, Except.bind]
      | ok _ =>
        simp only [perform, replace, bind, EStateM.bind, resolved, ownEffect, typed, ofExcept,
          Except.bind, setEntry, modify_run, pure, Except.pure]
        rfl
    | replaceAt requested path value =>
      cases typed : checkType held.ty requested with
      | error refusal =>
        simp only [perform, replaceAt, bind, EStateM.bind, resolved, ownEffect, typed,
          ofExcept, throw_run, Except.bind]
      | ok _ =>
        cases walked : nativeStateWalkMut (fun here => .ok (here, value)) held.value path with
        | error refusal =>
          simp only [perform, replaceAt, bind, EStateM.bind, resolved, ownEffect, typed,
            walked, ofExcept, pure_run, throw_run, Except.bind]
        | ok outcome =>
          simp only [perform, replaceAt, bind, EStateM.bind, resolved, ownEffect, typed,
            walked, ofExcept, Except.bind, setEntry, modify_run, pure, Except.pure]
          rfl
    | appendAt requested path value =>
      cases typed : checkType held.ty requested with
      | error refusal =>
        simp only [perform, appendAt, bind, EStateM.bind, resolved, ownEffect, typed,
          ofExcept, throw_run, Except.bind]
      | ok _ =>
        cases walked : nativeStateWalkMut (pushValue value) held.value path with
        | error refusal =>
          simp only [perform, appendAt, bind, EStateM.bind, resolved, ownEffect, typed,
            walked, ofExcept, pure_run, throw_run, Except.bind]
        | ok outcome =>
          simp only [perform, appendAt, bind, EStateM.bind, resolved, ownEffect, typed,
            walked, ofExcept, Except.bind, setEntry, modify_run, pure, Except.pure]
          rfl

theorem serve_performs (store : NativeStateStore) (request : StoreRequest) :
    Performs store request (serve store request).1 (serve store request).2 := by
  have served : Served (perform request store) store request := by
    cases request with
    | create ty value glue => exact create_served ty value glue
    | own token op => exact own_served token op
  unfold serve
  cases ran : perform request store with
  | ok answer after =>
    rw [ran] at served
    exact served
  | error refusal after =>
    rw [ran] at served
    exact served

end NativeStateStore

end KiraVm
