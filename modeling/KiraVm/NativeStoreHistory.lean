import KiraVm.NativeStore
import Mathlib.Data.List.Induction
import Mathlib.Tactic.Abel

/-!
# Histories of callback state

The store is followed through any sequence of requests.  A token's owners are its
creation and retains less its releases, and every node of a tree put into the
store is still there, was handed back, or was destroyed with its state.
-/

namespace KiraVm

/-! ## The nodes of a tree -/

/-- A node of a tree without its children. -/
inductive NodeHead
  | struct
  | dropStruct (glue : UInt32)
  | array
  | any (typeId : UInt64)
  | enum (tag : UInt32)
  | leaf (value : NativeStateValue)

mutual

def NativeStateValue.nodes : NativeStateValue → Multiset NodeHead
  | .struct fields => {.struct} + NativeStateValue.nodesOf fields
  | .dropStruct glue fields => {.dropStruct glue} + NativeStateValue.nodesOf fields
  | .array elements => {.array} + NativeStateValue.nodesOf elements
  | .any typeId payload => {.any typeId} + payload.nodes
  | .enum tag payload => {.enum tag} + NativeStateValue.payloadNodes payload
  | value => {.leaf value}

def NativeStateValue.nodesOf : List NativeStateValue → Multiset NodeHead
  | [] => 0
  | value :: values => value.nodes + NativeStateValue.nodesOf values

def NativeStateValue.payloadNodes : Option NativeStateValue → Multiset NodeHead
  | none => 0
  | some payload => payload.nodes

end

namespace NativeStateValue

/-- Changing one child. -/
theorem nodesOf_set {values : List NativeStateValue} {index : Nat} {old new : NativeStateValue}
    (here : values[index]? = some old) :
    nodesOf (values.set index new) + old.nodes = nodesOf values + new.nodes := by
  induction values generalizing index with
  | nil => simp at here
  | cons value values ih =>
    cases index with
    | zero =>
      simp only [List.getElem?_cons_zero, Option.some.injEq] at here
      subst here
      simp only [List.set_cons_zero, nodesOf]
      abel
    | succ index =>
      rw [List.getElem?_cons_succ] at here
      simp only [List.set_cons_succ, nodesOf]
      rw [add_assoc, ih here, add_assoc]

theorem nodesOf_append_one (values : List NativeStateValue) (value : NativeStateValue) :
    nodesOf (values ++ [value]) = nodesOf values + value.nodes := by
  induction values with
  | nil => simp [nodesOf]
  | cons first values ih =>
    simp only [List.cons_append, nodesOf, ih]
    abel

end NativeStateValue

open NativeStateValue

def Conserves {α : Type} (given : Multiset NodeHead) (handed : α → Multiset NodeHead)
    (change : NativeStateValue → Except NativeStateError (α × NativeStateValue)) : Prop :=
  ∀ here answer changed, change here = .ok (answer, changed) →
    changed.nodes + handed answer = here.nodes + given

/-- A change of a child, seen from its parent. -/
theorem conserves_child {α : Type} {given : Multiset NodeHead} {handed : α → Multiset NodeHead}
    {head : Multiset NodeHead} {values : List NativeStateValue} {index : Nat} {answer : α}
    {old new : NativeStateValue} (here : values[index]? = some old)
    (balance : new.nodes + handed answer = old.nodes + given) :
    head + nodesOf (values.set index new) + handed answer = head + nodesOf values + given := by
  have change := @nodesOf_set values index old new here
  have sum : nodesOf (values.set index new) + handed answer + (old.nodes + new.nodes) =
      nodesOf values + given + (old.nodes + new.nodes) := by
    calc
      nodesOf (values.set index new) + handed answer + (old.nodes + new.nodes) =
          (nodesOf (values.set index new) + old.nodes) + (new.nodes + handed answer) := by abel
      _ = (nodesOf values + new.nodes) + (old.nodes + given) := by rw [change, balance]
      _ = nodesOf values + given + (old.nodes + new.nodes) := by abel
  rw [add_assoc, add_right_cancel sum, add_assoc]

theorem nativeStateWalkMut_conserves {α : Type} {given : Multiset NodeHead}
    {handed : α → Multiset NodeHead}
    {change : NativeStateValue → Except NativeStateError (α × NativeStateValue)}
    (conserves : Conserves given handed change) {root changed : NativeStateValue}
    {path : List NativeStatePathStep} {answer : α}
    (walked : nativeStateWalkMut change root path = .ok (answer, changed)) :
    changed.nodes + handed answer = root.nodes + given := by
  induction path generalizing root changed with
  | nil =>
    rw [nativeStateWalkMut] at walked
    exact conserves root answer changed walked
  | cons step path ih =>
    cases root <;> cases step <;> simp only [nativeStateWalkMut, reduceCtorEq] at walked
    all_goals
      split at walked
      · cases walked
      · rename_i child here
        cases inner : nativeStateWalkMut change child path with
        | error refusal =>
          rw [inner] at walked
          cases walked
        | ok outcome =>
          rw [inner] at walked
          cases walked
          simp only [nodes]
          exact conserves_child here (ih inner)

/-- A replacement answers what its path addressed and puts the new value there. -/
theorem nativeStateWalk_of_replaced {value root old changed : NativeStateValue}
    {path : List NativeStatePathStep}
    (walked : nativeStateWalkMut (fun here => .ok (here, value)) root path = .ok (old, changed)) :
    nativeStateWalk root path = .ok old ∧ nativeStateWalk changed path = .ok value := by
  induction path generalizing root changed with
  | nil =>
    rw [nativeStateWalkMut] at walked
    cases walked
    exact ⟨rfl, rfl⟩
  | cons step path ih =>
    cases root <;> cases step <;> simp only [nativeStateWalkMut, reduceCtorEq] at walked
    all_goals
      split at walked
      · cases walked
      · rename_i child here
        cases inner : nativeStateWalkMut (fun here => .ok (here, value)) child path with
        | error refusal =>
          rw [inner] at walked
          cases walked
        | ok outcome =>
          rw [inner] at walked
          cases walked
          have within := (List.getElem?_eq_some_iff.mp here).1
          rcases ih inner with ⟨before, after⟩
          simp only [nativeStateWalk, here, List.getElem?_set_self within]
          exact ⟨before, after⟩

/-! ## Events -/

open StateLogic

namespace NativeStateStore

/-- A request, its answer, and the tree the store destroyed with it. -/
structure StoreEvent where
  request : StoreRequest
  answer : Except NativeStateError StoreAnswer
  destroyed : Option NativeStateValue

/-- The tree of a state that is gone, unless it was handed back. -/
def destroyedBy (store after : NativeStateStore) :
    StoreRequest → Except NativeStateError StoreAnswer → Option NativeStateValue
  | .own token _, .ok (.released _) | .own token _, .ok (.dropped none) =>
    match store.entries token, after.entries token with
    | some held, none => some held.value
    | _, _ => none
  | _, _ => none

def eventOf (store : NativeStateStore) (request : StoreRequest) : StoreEvent where
  request := request
  answer := (serve store request).1
  destroyed := destroyedBy store (serve store request).2 request (serve store request).1

def serveNext (state : List StoreEvent × NativeStateStore) (request : StoreRequest) :
    List StoreEvent × NativeStateStore :=
  (state.1 ++ [eventOf state.2 request], (serve state.2 request).2)

def serveAll (requests : List StoreRequest) : List StoreEvent × NativeStateStore :=
  requests.foldl serveNext ([], .new)

theorem serveAll_append_one (requests : List StoreRequest) (request : StoreRequest) :
    serveAll (requests ++ [request]) = serveNext (serveAll requests) request := by
  simp [serveAll]

def logAfter (requests : List StoreRequest) : List StoreEvent :=
  (serveAll requests).1

def storeAfter (requests : List StoreRequest) : NativeStateStore :=
  (serveAll requests).2

/-! ## What a log says -/

def createdBy : StoreEvent → Option UInt64
  | ⟨.create _ _ _, .ok (.created token), _⟩ => some token
  | _ => none

/-- The tokens created, in order. -/
def created (log : List StoreEvent) : List UInt64 :=
  log.filterMap createdBy

def retainedBy : StoreEvent → Option UInt64
  | ⟨.own token .retain, .ok _, _⟩ => some token
  | _ => none

def releasedBy : StoreEvent → Option UInt64
  | ⟨.own token .release, .ok _, _⟩ | ⟨.own token .releaseDropping, .ok _, _⟩ => some token
  | _ => none

def creations (token : UInt64) (log : List StoreEvent) : Nat :=
  (log.filterMap createdBy).count token

def retains (token : UInt64) (log : List StoreEvent) : Nat :=
  (log.filterMap retainedBy).count token

def releases (token : UInt64) (log : List StoreEvent) : Nat :=
  (log.filterMap releasedBy).count token

/-- The trees a successful request put into the state of a token. -/
def givenBy : StoreEvent → Option (UInt64 × NativeStateValue)
  | ⟨.create _ value glue, .ok (.created token), _⟩ =>
    match decorateRootDrop value glue with
    | .ok stored => some (token, stored)
    | .error _ => none
  | ⟨.own token (.replace _ value), .ok _, _⟩ | ⟨.own token (.replaceAt _ _ value), .ok _, _⟩
  | ⟨.own token (.appendAt _ _ value), .ok _, _⟩ => some (token, value)
  | _ => none

def handedBy : StoreEvent → Option (UInt64 × NativeStateValue)
  | ⟨.own token _, .ok (.dropped (some value)), _⟩
  | ⟨.own token _, .ok (.displaced value), _⟩ => some (token, value)
  | _ => none

def lostBy : StoreEvent → Option (UInt64 × NativeStateValue)
  | ⟨.own token _, _, some value⟩ => some (token, value)
  | _ => none

def nodesFor (token : UInt64) : Option (UInt64 × NativeStateValue) → Multiset NodeHead
  | some (owner, value) => if owner = token then value.nodes else 0
  | none => 0

def given (token : UInt64) (log : List StoreEvent) : Multiset NodeHead :=
  (log.map fun event => nodesFor token (givenBy event)).sum

def handed (token : UInt64) (log : List StoreEvent) : Multiset NodeHead :=
  (log.map fun event => nodesFor token (handedBy event)).sum

def lost (token : UInt64) (log : List StoreEvent) : Multiset NodeHead :=
  (log.map fun event => nodesFor token (lostBy event)).sum

def stored (token : UInt64) (store : NativeStateStore) : Multiset NodeHead :=
  (store.entries token).elim 0 fun held => held.value.nodes

def owners (token : UInt64) (store : NativeStateStore) : Nat :=
  (store.entries token).elim 0 fun held => held.refs.toNat

/-! ## One more event -/

section Append

variable (token : UInt64) (log : List StoreEvent) (event : StoreEvent)

theorem count_append (of : StoreEvent → Option UInt64) :
    ((log ++ [event]).filterMap of).count token =
      (log.filterMap of).count token + if of event = some token then 1 else 0 := by
  cases same : of event with
  | none => simp [same]
  | some named => by_cases equal : named = token <;> simp [same, equal]

theorem given_append : given token (log ++ [event]) = given token log + nodesFor token (givenBy event) := by
  simp [given]

theorem handed_append :
    handed token (log ++ [event]) = handed token log + nodesFor token (handedBy event) := by
  simp [handed]

theorem lost_append : lost token (log ++ [event]) = lost token log + nodesFor token (lostBy event) := by
  simp [lost]

theorem created_append : created (log ++ [event]) = created log ++ (createdBy event).toList := by
  cases same : createdBy event <;> simp [created, same]

end Append

/-! ## What an operation does to a state -/

/-- What holds of every live state. -/
structure SoundEntry (held : StateEntry) : Prop where
  flag : held.requiresEngineRelease = held.value.requiresEngineRelease
  owned : 0 < held.refs.toNat

theorem checkedAdd_toNat {left right sum : UInt64} (added : checkedAdd left right = some sum) :
    sum.toNat = left.toNat + right.toNat := by
  unfold checkedAdd at added
  split at added
  · rename_i small
    cases added
    rw [UInt64.toNat_add]
    exact Nat.mod_eq_of_lt small
  · cases added

variable {refs : UInt64} {held : StateEntry} {value : NativeStateValue} {requested : UInt64}

theorem toNat_sub_one (shared : 1 < refs) : (refs - 1).toNat = refs.toNat - 1 := by
  have small : (1 : UInt64) ≤ refs := UInt64.le_of_lt shared
  rw [UInt64.toNat_sub_of_le _ _ small]
  rfl

theorem one_lt_toNat (shared : 1 < refs) : 1 < refs.toNat :=
  UInt64.lt_iff_toNat_lt.mp shared

theorem toNat_eq_one (owned : 0 < refs.toNat) (last : ¬ 1 < refs) : refs.toNat = 1 := by
  have bound : ¬ 1 < refs.toNat := fun more => last (UInt64.lt_iff_toNat_lt.mpr more)
  omega

/-- Every way an operation on a live state can succeed. -/
inductive Effect (held : StateEntry) : StateOp → StoreAnswer → Option StateEntry → Prop
  | retain {refs : UInt64} (counted : refs.toNat = held.refs.toNat + 1) :
      Effect held .retain .retained (some { held with refs := refs })
  | release {refs : UInt64} (counted : refs.toNat + 1 = held.refs.toNat) (owned : 0 < refs.toNat) :
      Effect held .release (.released false) (some { held with refs := refs })
  | destroy (last : held.refs.toNat = 1) (plain : held.requiresEngineRelease = false) :
      Effect held .release (.released true) none
  | drop {refs : UInt64} (counted : refs.toNat + 1 = held.refs.toNat) (owned : 0 < refs.toNat) :
      Effect held .releaseDropping (.dropped none) (some { held with refs := refs })
  | hand (last : held.refs.toNat = 1) :
      Effect held .releaseDropping (.dropped (some held.value)) none
  | destroyDropping (last : held.refs.toNat = 1) (plain : held.requiresEngineRelease = false) :
      Effect held .releaseDropping (.dropped none) none
  | replace (requested : UInt64) (value : NativeStateValue) :
      Effect held (.replace requested value) (.displaced held.value) (some (withValue held value))
  | replaceAt (requested : UInt64) (path : List NativeStatePathStep)
      {value old changed : NativeStateValue}
      (balance : changed.nodes + old.nodes = held.value.nodes + value.nodes) :
      Effect held (.replaceAt requested path value) (.displaced old) (some (withValue held changed))
  | appendAt (requested : UInt64) (path : List NativeStatePathStep)
      {value changed : NativeStateValue}
      (balance : changed.nodes = held.value.nodes + value.nodes) :
      Effect held (.appendAt requested path value) .appended (some (withValue held changed))

theorem replacement_conserves (value : NativeStateValue) :
    Conserves value.nodes NativeStateValue.nodes fun here => .ok (here, value) := by
  intro here answer changed same
  cases same
  exact add_comm _ _

theorem pushValue_conserves (value : NativeStateValue) :
    Conserves value.nodes (fun _ : Unit => 0) (pushValue value) := by
  intro here answer changed pushed
  unfold pushValue at pushed
  split at pushed
  · cases pushed
    simp only [nodes, nodesOf_append_one]
    abel
  · cases pushed

theorem effect_of_ownEffect (sound : SoundEntry held) {op : StateOp} {answer : StoreAnswer}
    {entry : Option StateEntry} (effect : ownEffect held op = .ok (answer, entry)) :
    Effect held op answer entry := by
  cases op with
  | retain =>
    simp only [ownEffect] at effect
    split at effect
    · cases effect
    · rename_i refs added
      cases effect
      exact Effect.retain (checkedAdd_toNat added)
  | release =>
    simp only [ownEffect] at effect
    split at effect
    · rename_i shared
      have more := one_lt_toNat shared
      cases effect
      exact Effect.release (by rw [toNat_sub_one shared]; omega)
        (by rw [toNat_sub_one shared]; omega)
    · rename_i last
      split at effect
      · cases effect
      · rename_i plain
        cases effect
        exact Effect.destroy (toNat_eq_one sound.owned last) (by simpa using plain)
  | releaseDropping =>
    simp only [ownEffect] at effect
    split at effect
    · rename_i shared
      have more := one_lt_toNat shared
      cases effect
      exact Effect.drop (by rw [toNat_sub_one shared]; omega)
        (by rw [toNat_sub_one shared]; omega)
    · rename_i last
      split at effect
      · cases effect
        exact Effect.hand (toNat_eq_one sound.owned last)
      · rename_i plain
        cases effect
        exact Effect.destroyDropping (toNat_eq_one sound.owned last) (by simpa using plain)
  | replace requested value =>
    cases typed : checkType held.ty requested with
    | error refusal => simp [ownEffect, typed, bind, Except.bind] at effect
    | ok _ =>
      simp only [ownEffect, typed, bind, Except.bind, pure, Except.pure] at effect
      cases effect
      exact Effect.replace requested value
  | replaceAt requested path value =>
    cases typed : checkType held.ty requested with
    | error refusal => simp [ownEffect, typed, bind, Except.bind] at effect
    | ok _ =>
      simp only [ownEffect, typed, bind, Except.bind, pure, Except.pure] at effect
      split at effect
      · cases effect
      · rename_i outcome walked
        cases effect
        exact Effect.replaceAt requested path
          (nativeStateWalkMut_conserves (replacement_conserves value) walked)
  | appendAt requested path value =>
    cases typed : checkType held.ty requested with
    | error refusal => simp [ownEffect, typed, bind, Except.bind] at effect
    | ok _ =>
      simp only [ownEffect, typed, bind, Except.bind, pure, Except.pure] at effect
      split at effect
      · cases effect
      · rename_i outcome walked
        cases effect
        have balance := nativeStateWalkMut_conserves (pushValue_conserves value) walked
        rw [add_zero] at balance
        exact Effect.appendAt requested path balance

theorem Effect.sound {next : StateEntry} (sound : SoundEntry held) {op : StateOp}
    {answer : StoreAnswer} (effect : Effect held op answer (some next)) : SoundEntry next := by
  cases effect with
  | retain counted =>
    refine ⟨sound.flag, ?_⟩
    rw [counted]
    omega
  | release counted owned => exact ⟨sound.flag, owned⟩
  | drop counted owned => exact ⟨sound.flag, owned⟩
  | replace requested value => exact ⟨rfl, sound.owned⟩
  | replaceAt requested path balance => exact ⟨rfl, sound.owned⟩
  | appendAt requested path balance => exact ⟨rfl, sound.owned⟩

section Effects

variable {store : NativeStateStore} {token : UInt64} {held : StateEntry} {op : StateOp}
  {answer : StoreAnswer} {entry : Option StateEntry}

/-- The event of a successful operation. -/
def ownEvent (store : NativeStateStore) (token : UInt64) (op : StateOp) (answer : StoreAnswer)
    (entry : Option StateEntry) : StoreEvent :=
  ⟨.own token op, .ok answer, destroyedBy store (store.put token entry) (.own token op) (.ok answer)⟩

theorem Effect.owners (effect : Effect held op answer entry) :
    held.refs.toNat + (if retainedBy (ownEvent store token op answer entry) = some token then 1 else 0) =
      (if releasedBy (ownEvent store token op answer entry) = some token then 1 else 0) +
        entry.elim 0 fun next => next.refs.toNat := by
  cases effect <;> simp_all [ownEvent, retainedBy, releasedBy, withValue] <;> omega

theorem Effect.nodes (found : store.entries token = some held)
    (effect : Effect held op answer entry) :
    held.value.nodes + nodesFor token (givenBy (ownEvent store token op answer entry)) =
      nodesFor token (handedBy (ownEvent store token op answer entry)) +
        (nodesFor token (lostBy (ownEvent store token op answer entry)) +
          entry.elim 0 fun next => next.value.nodes) := by
  cases effect with
  | replaceAt requested path balance =>
    simp only [ownEvent, givenBy, handedBy, destroyedBy, lostBy, nodesFor, if_true, withValue, Option.elim_some,
      zero_add]
    rw [← balance, add_comm]
  | appendAt requested path balance =>
    simp [ownEvent, givenBy, handedBy, destroyedBy, lostBy, nodesFor, withValue, balance]
  | _ => simp [ownEvent, givenBy, handedBy, destroyedBy, lostBy, nodesFor, withValue, put, found]

theorem Effect.plain (found : store.entries token = some held) (sound : SoundEntry held)
    (effect : Effect held op answer entry) {value : NativeStateValue}
    (destroyed : (ownEvent store token op answer entry).destroyed = some value) :
    value.requiresEngineRelease = false := by
  have flag := sound.flag
  cases effect <;> simp [ownEvent, destroyedBy, put, found] at destroyed
  all_goals
    rw [← destroyed, ← flag]
    assumption

end Effects

/-! ## The store and the log -/

/-- The log accounts for everything in the store. -/
structure Tracks (log : List StoreEvent) (store : NativeStateStore) : Prop where
  balance : ∀ token,
    creations token log + retains token log = releases token log + owners token store
  conserved : ∀ token,
    given token log = handed token log + (lost token log + stored token store)
  sound : ∀ token held, store.entries token = some held → SoundEntry held
  below : ∀ token ∈ created log, token.toNat < store.next.toNat
  live : ∀ token held, store.entries token = some held → token ∈ created log
  once : (created log).Nodup
  plain : ∀ event ∈ log, ∀ value, event.destroyed = some value →
    value.requiresEngineRelease = false

variable {log : List StoreEvent} {store after : NativeStateStore}

theorem tracks_new : Tracks [] .new where
  balance := fun _ => rfl
  conserved := fun _ => rfl
  sound := fun _ _ found => by cases found
  below := fun _ listed => by cases listed
  live := fun _ _ found => by cases found
  once := List.nodup_nil
  plain := fun _ listed => by cases listed

theorem Tracks.refused (tracks : Tracks log store) (request : StoreRequest)
    (refusal : NativeStateError) : Tracks (log ++ [⟨request, .error refusal, none⟩]) store := by
  have silent : createdBy ⟨request, .error refusal, none⟩ = none ∧
      retainedBy ⟨request, .error refusal, none⟩ = none ∧
      releasedBy ⟨request, .error refusal, none⟩ = none := by
    cases request with
    | create ty value glue => simp [createdBy, retainedBy, releasedBy]
    | own token op => cases op <;> simp [createdBy, retainedBy, releasedBy]
  have empty : givenBy ⟨request, .error refusal, none⟩ = none ∧
      handedBy ⟨request, .error refusal, none⟩ = none ∧
      lostBy ⟨request, .error refusal, none⟩ = none := by
    cases request with
    | create ty value glue => simp [givenBy, handedBy, lostBy]
    | own token op => cases op <;> simp [givenBy, handedBy, lostBy]
  have same : created (log ++ [⟨request, .error refusal, none⟩]) = created log := by
    rw [created_append, silent.1]
    simp
  refine ⟨?_, ?_, tracks.sound, ?_, ?_, ?_, ?_⟩
  · intro token
    have balance := tracks.balance token
    simp only [creations, retains, releases, count_append, silent, reduceCtorEq, if_false]
    exact balance
  · intro token
    rw [given_append, handed_append, lost_append, empty.1, empty.2.1, empty.2.2]
    simp only [nodesFor, add_zero]
    exact tracks.conserved token
  · rw [same]
    exact tracks.below
  · rw [same]
    exact tracks.live
  · rw [same]
    exact tracks.once
  · intro event listed value destroyed
    rcases List.mem_append.mp listed with earlier | last
    · exact tracks.plain event earlier value destroyed
    · rw [List.mem_singleton] at last
      rw [last] at destroyed
      cases destroyed

theorem put_entries (store : NativeStateStore) (token other : UInt64) (entry : Option StateEntry) :
    (store.put token entry).entries other = if other = token then entry else store.entries other := by
  simp [put, Function.update_apply]

theorem Tracks.created (tracks : Tracks log store) (ty : UInt64) {stored : NativeStateValue}
    {glue : Option UInt32} {next : UInt64} (decorated : decorateRootDrop value glue = .ok stored)
    (counted : checkedAdd store.next stride = some next) :
    Tracks (log ++ [⟨.create ty value glue, .ok (.created store.next), none⟩])
      (({ store with next := next } : NativeStateStore).put store.next
        (some ⟨ty, stored, 1, stored.requiresEngineRelease⟩)) := by
  have further : next.toNat = store.next.toNat + 2 := checkedAdd_toNat counted
  have unused : store.next ∉ NativeStateStore.created log := by
    intro listed
    exact Nat.lt_irrefl _ (tracks.below store.next listed)
  have absent : store.entries store.next = none := by
    cases found : store.entries store.next with
    | none => rfl
    | some held => exact absurd (tracks.live store.next held found) unused
  refine ⟨?_, ?_, ?_, ?_, ?_, ?_, ?_⟩
  · intro token
    have balance := tracks.balance token
    simp only [creations, retains, releases, owners] at balance
    simp only [creations, retains, releases, count_append, createdBy, retainedBy, releasedBy,
      owners, put_entries, Option.some.injEq, reduceCtorEq, if_false]
    by_cases same : token = store.next
    · subst same
      rw [absent] at balance
      simp at balance ⊢
      omega
    · simp [same, Ne.symm same, balance]
  · intro token
    have conserved := tracks.conserved token
    rw [given_append, handed_append, lost_append]
    simp only [givenBy, decorated, handedBy, lostBy, nodesFor, add_zero,
      NativeStateStore.stored, put_entries] at conserved ⊢
    by_cases same : token = store.next
    · subst same
      rw [conserved, absent]
      simp [add_assoc]
    · simp [same, Ne.symm same, conserved]
  · intro token held found
    rw [put_entries] at found
    split at found
    · cases found
      exact ⟨rfl, by simp⟩
    · exact tracks.sound token held found
  · intro token listed
    rw [created_append] at listed
    change token.toNat < next.toNat
    rcases List.mem_append.mp listed with earlier | last
    · have bound := tracks.below token earlier
      omega
    · simp [createdBy] at last
      rw [last]
      omega
  · intro token held found
    rw [created_append]
    rw [put_entries] at found
    split at found
    · rename_i same
      simp [createdBy, same]
    · exact List.mem_append_left _ (tracks.live token held found)
  · rw [created_append]
    simp only [createdBy, Option.toList_some]
    rw [List.nodup_append]
    refine ⟨tracks.once, by simp, ?_⟩
    intro token earlier last listed same
    rw [List.mem_singleton] at listed
    rw [same, listed] at earlier
    exact unused earlier
  · intro event listed destroyedValue destroyed
    rcases List.mem_append.mp listed with earlier | last
    · exact tracks.plain event earlier destroyedValue destroyed
    · rw [List.mem_singleton] at last
      rw [last] at destroyed
      cases destroyed

/-- What an operation says about the tokens it does not name: nothing. -/
theorem nodesFor_ownEvent {token other : UInt64} {op : StateOp} {answer : StoreAnswer}
    {entry : Option StateEntry} (differs : other ≠ token) :
    nodesFor other (givenBy (ownEvent store token op answer entry)) = 0 ∧
      nodesFor other (handedBy (ownEvent store token op answer entry)) = 0 ∧
      nodesFor other (lostBy (ownEvent store token op answer entry)) = 0 := by
  have apart := Ne.symm differs
  refine ⟨?_, ?_, ?_⟩
  · cases op <;> simp [ownEvent, givenBy, nodesFor, apart]
  · unfold ownEvent handedBy
    split <;> simp_all [nodesFor]
  · unfold ownEvent lostBy
    split <;> simp_all [nodesFor]

theorem Tracks.own (tracks : Tracks log store) {token : UInt64} {op : StateOp} {held : StateEntry}
    {answer : StoreAnswer} {entry : Option StateEntry} (found : store.entries token = some held)
    (effect : ownEffect held op = .ok (answer, entry)) :
    Tracks (log ++ [ownEvent store token op answer entry]) (store.put token entry) := by
  have sound := tracks.sound token held found
  have does := effect_of_ownEffect sound effect
  have silent : createdBy (ownEvent store token op answer entry) = none := rfl
  have same : NativeStateStore.created (log ++ [ownEvent store token op answer entry]) =
      NativeStateStore.created log := by
    rw [created_append, silent]
    simp
  refine ⟨?_, ?_, ?_, ?_, ?_, ?_, ?_⟩
  · intro other
    have balance := tracks.balance other
    simp only [creations, retains, releases, owners] at balance
    simp only [creations, retains, releases, count_append, silent, owners, put_entries,
      reduceCtorEq, if_false]
    by_cases equal : other = token
    · subst equal
      have counted := @Effect.owners store other held op answer entry does
      rw [found, Option.elim_some] at balance
      rw [if_pos rfl]
      omega
    · have unnamed : retainedBy (ownEvent store token op answer entry) ≠ some other ∧
          releasedBy (ownEvent store token op answer entry) ≠ some other := by
        cases op <;> simp [ownEvent, retainedBy, releasedBy, Ne.symm equal]
      rw [if_neg unnamed.1, if_neg unnamed.2, if_neg equal]
      exact balance
  · intro other
    have conserved := tracks.conserved other
    rw [given_append, handed_append, lost_append]
    simp only [NativeStateStore.stored, put_entries] at conserved ⊢
    by_cases equal : other = token
    · subst equal
      have moved := does.nodes found
      rw [found, Option.elim_some] at conserved
      rw [if_pos rfl, conserved]
      calc
        _ = handed other log + lost other log +
            (held.value.nodes +
              nodesFor other (givenBy (ownEvent store other op answer entry))) := by abel
        _ = _ := by
            rw [moved]
            abel
    · rcases @nodesFor_ownEvent store token other op answer entry equal with
        ⟨noneGiven, noneHanded, noneLost⟩
      rw [noneGiven, noneHanded, noneLost, if_neg equal]
      simp only [add_zero]
      exact conserved
  · intro other next foundNext
    rw [put_entries] at foundNext
    split at foundNext
    · rw [foundNext] at does
      exact does.sound sound
    · exact tracks.sound other next foundNext
  · rw [same]
    exact tracks.below
  · intro other next foundNext
    rw [same]
    rw [put_entries] at foundNext
    split at foundNext
    · rename_i equal
      rw [equal]
      exact tracks.live token held found
    · exact tracks.live other next foundNext
  · rw [same]
    exact tracks.once
  · intro event listed value destroyed
    rcases List.mem_append.mp listed with earlier | last
    · exact tracks.plain event earlier value destroyed
    · rw [List.mem_singleton] at last
      rw [last] at destroyed
      exact does.plain found sound destroyed

theorem Tracks.next (tracks : Tracks log store) (request : StoreRequest) :
    Tracks (log ++ [eventOf store request]) (serve store request).2 := by
  have performs := serve_performs store request
  unfold eventOf
  generalize (serve store request).1 = answer at performs ⊢
  generalize (serve store request).2 = next at performs ⊢
  cases performs with
  | refused request refusal =>
    have kept : destroyedBy store store request (.error refusal) = none := by
      cases request <;> rfl
    rw [kept]
    exact tracks.refused request refusal
  | created ty decorated nonzero counted => exact tracks.created ty decorated counted
  | own found effect => exact tracks.own found effect

theorem tracks_serveAll (requests : List StoreRequest) :
    Tracks (logAfter requests) (storeAfter requests) := by
  induction requests using List.reverseRecOn with
  | nil => exact tracks_new
  | append_singleton requests request ih =>
    unfold logAfter storeAfter at ih ⊢
    rw [serveAll_append_one]
    exact ih.next request

theorem serve_refused {request : StoreRequest} {refusal : NativeStateError}
    (refused : (serve store request).1 = .error refusal) : (serve store request).2 = store := by
  have performs := serve_performs store request
  rw [refused] at performs
  generalize (serve store request).2 = next at performs ⊢
  cases performs
  rfl

theorem Tracks.live_iff (tracks : Tracks log store) (token : UInt64) :
    (store.entries token).isSome ↔ releases token log < creations token log + retains token log := by
  rw [tracks.balance token, owners]
  cases found : store.entries token with
  | none => simp
  | some held =>
    have owned := (tracks.sound token held found).owned
    simp [owned]

theorem checkType_eq_ok {actual : UInt64} {answer : Unit}
    (typed : checkType actual requested = .ok answer) : actual = requested := by
  unfold checkType at typed
  split at typed
  · assumption
  · cases typed

theorem readAt_run {token : UInt64} {path : List NativeStatePathStep}
    (resolved : entry token store = .ok held store) (typed : held.ty = requested)
    (walked : nativeStateWalk held.value path = .ok value) :
    readAt token requested path store = .ok value store := by
  simp only [readAt, bind, EStateM.bind, resolved, checkType, typed, if_true, ofExcept, pure_run,
    walked]

theorem readAt_of_replaceAt {token : UInt64} {path : List NativeStatePathStep}
    {old : NativeStateValue}
    (replaced : replaceAt token requested path value store = .ok old after) :
    readAt token requested path store = .ok old store ∧
      readAt token requested path after = .ok value after := by
  rcases entry_run token store with ⟨refusal, unknown⟩ | ⟨held, nonnull, found⟩
  · simp only [replaceAt, bind, EStateM.bind, unknown] at replaced
    cases replaced
  · have resolved := entry_found nonnull found
    cases typed : checkType held.ty requested with
    | error refusal =>
      simp only [replaceAt, bind, EStateM.bind, resolved, typed, ofExcept, throw_run] at replaced
      cases replaced
    | ok _ =>
      cases walked : nativeStateWalkMut (fun here => .ok (here, value)) held.value path with
      | error refusal =>
        simp only [replaceAt, bind, EStateM.bind, resolved, typed, walked, ofExcept, pure_run,
          throw_run] at replaced
        cases replaced
      | ok outcome =>
        simp only [replaceAt, bind, EStateM.bind, resolved, typed, walked, ofExcept, pure_run,
          setEntry, modify_run] at replaced
        cases replaced
        have same := checkType_eq_ok typed
        rcases nativeStateWalk_of_replaced walked with ⟨before, changed⟩
        refine ⟨readAt_run resolved same before, ?_⟩
        have stays : (store.put token (some (withValue held outcome.2))).entries token =
            some (withValue held outcome.2) := by
          rw [put_entries, if_pos rfl]
        exact readAt_run (entry_found nonnull stays) same changed

/-- Requests to a store of callback state, in any number and order.  A token is
live exactly while its creation and retains exceed its releases, and no token is
created twice.  Every node put into a token's state is in the store, was handed
back, or was destroyed there, each once; what is destroyed there needs no engine,
and what a replacement hands back is what its path read.
The stored flag says whether the stored tree needs an engine, and a refused
request changes nothing. -/
theorem native_state_is_accounted_for (requests : List StoreRequest) :
    (∀ token, ((storeAfter requests).entries token).isSome ↔
      releases token (logAfter requests) <
        creations token (logAfter requests) + retains token (logAfter requests)) ∧
    (created (logAfter requests)).Nodup ∧
    (∀ token, given token (logAfter requests) =
      handed token (logAfter requests) +
        (lost token (logAfter requests) + stored token (storeAfter requests))) ∧
    (∀ event ∈ logAfter requests, ∀ value, event.destroyed = some value →
      value.requiresEngineRelease = false) ∧
    (∀ token requested path value old after,
      replaceAt token requested path value (storeAfter requests) = .ok old after →
      readAt token requested path (storeAfter requests) = .ok old (storeAfter requests) ∧
        readAt token requested path after = .ok value after) ∧
    (∀ token held, (storeAfter requests).entries token = some held →
      held.requiresEngineRelease = held.value.requiresEngineRelease) ∧
    (∀ request refusal, (serve (storeAfter requests) request).1 = .error refusal →
      (serve (storeAfter requests) request).2 = storeAfter requests) := by
  have tracks := tracks_serveAll requests
  refine ⟨tracks.live_iff, tracks.once, tracks.conserved, tracks.plain, ?_, ?_, ?_⟩
  · intro token requested path value old after replaced
    exact readAt_of_replaceAt replaced
  · intro token held found
    exact (tracks.sound token held found).flag
  · intro request refusal refused
    exact serve_refused refused

end NativeStateStore

end KiraVm
