import KiraVm.TesseraModel
import Mathlib.Data.Finset.Card
import Mathlib.Data.Finset.Range
import Mathlib.Logic.Relation

/-!
# What delivery does to a process

A packet that is delivered asserts a signal, which may fire waiters, which deliver
further packets.  Whatever that amounts to, it is a sequence of a few small effects:
a waiter is noted to fire, a waiter is disarmed, signals of an object change, or a
packet joins a queue that becomes readable.  None of these touches the handles, or
which object is in a slot.
-/

namespace KiraVm

namespace LibTessera

/-! ## Signals, bit by bit -/

@[simp]
theorem u32Max_xor (signals : Signals) : u32Max ^^^ signals = ~~~ signals := by
  have ones : u32Max = -1 := by decide
  rw [ones]
  apply UInt32.toBitVec_inj.mp
  simp

/-- Whether the lowest bit is set. -/
def readable (signals : Signals) : Bool :=
  signals.toBitVec[0]

theorem signalReadable_bits (index : Nat) (inside : index < 32) :
    signalReadable.toBitVec[index] = decide (index = 0) := by
  have one : signalReadable = 1 := by decide
  simp [one]

@[simp]
theorem readable_union (left right : Signals) :
    readable (signalsUnion left right) = (readable left || readable right) := by
  simp [readable, signalsUnion]

@[simp]
theorem readable_clear (set clear : Signals) :
    readable (signalsClear set clear) = (readable set && !readable clear) := by
  simp [readable, signalsClear]

@[simp]
theorem readable_signalReadable : readable signalReadable = true := by
  decide

@[simp]
theorem readable_none : readable signalsNone = false := by
  decide

@[simp]
theorem readable_zero : readable 0 = false := by
  decide

/-- What a caller may set does not make an object readable. -/
theorem readable_of_settable {signals : Signals}
    (settable : signalsHas signalsUserSettable signals = true) : readable signals = false := by
  have same : signalsUserSettable &&& signals = signals := by
    simpa [signalsHas] using settable
  have clear : readable signalsUserSettable = false := by decide
  rw [← same]
  simp only [readable, UInt32.toBitVec_and, BitVec.getElem_and] at clear ⊢
  rw [clear, Bool.false_and]

/-- A bit that is asserted already is not asserted anew. -/
theorem no_news (signals : Signals) (already : readable signals = true) :
    signalsClear (signalsUnion signals signalReadable) signalsNone &&& ~~~ signals = 0 := by
  apply UInt32.toBitVec_inj.mp
  ext index inside
  have bit : signalReadable.toBitVec[index] = decide (index = 0) :=
    signalReadable_bits index inside
  have none : signalsNone.toBitVec[index] = false := by simp [signalsNone]
  by_cases first : index = 0
  · subst first
    simp only [readable] at already
    simp [already]
  · simp [signalsClear, signalsUnion, bit, none, first]

theorem signalsAny_zero (mask : Signals) : signalsAny 0 mask = false := by
  simp [signalsAny]

/-! ## Updates -/

namespace Tessera

variable (process : Tessera)

theorem object_setObject (slot other : Nat) (change : ObjectRecord → ObjectRecord) :
    (process.setObject slot change).object other =
      if slot = other ∧ other < process.objects.length then change (process.object other)
      else process.object other := by
  unfold setObject object
  rw [List.getD_eq_getElem?_getD, List.getD_eq_getElem?_getD, List.getElem?_modify]
  by_cases inside : other < process.objects.length
  · by_cases same : slot = other <;> simp [same, inside]
  · simp [inside]

@[simp]
theorem setObject_length (slot : Nat) (change : ObjectRecord → ObjectRecord) :
    (process.setObject slot change).objects.length = process.objects.length := by
  simp [setObject]

@[simp]
theorem setObject_handles (slot : Nat) (change : ObjectRecord → ObjectRecord) :
    (process.setObject slot change).handles = process.handles :=
  rfl

@[simp]
theorem setObject_history (slot : Nat) (change : ObjectRecord → ObjectRecord) :
    (process.setObject slot change).history = process.history :=
  rfl

@[simp]
theorem note_object (event : Note) (slot : Nat) : (process.note event).object slot = process.object slot :=
  rfl

@[simp]
theorem note_handles (event : Note) : (process.note event).handles = process.handles :=
  rfl

theorem object_outside {slot : Nat} (outside : process.objects.length ≤ slot) :
    process.object slot = .vacant := by
  unfold object
  rw [List.getD_eq_getElem?_getD, List.getElem?_eq_none outside, Option.getD_none]

theorem inside_of_live {slot : Nat} (live : (process.object slot).live = true) :
    slot < process.objects.length := by
  by_contra outside
  rw [process.object_outside (Nat.not_lt.mp outside)] at live
  cases live

end Tessera

/-! ## The frame -/

/-- An object whose signals or queue may have changed, and whose waiters may have been
disarmed. -/
structure SameObject (before after : ObjectRecord) : Prop where
  live : after.live = before.live
  objectType : after.objectType = before.objectType
  refcount : after.refcount = before.refcount
  name : after.name = before.name
  objectId : after.objectId = before.objectId
  peerSlot : after.peerSlot = before.peerSlot
  queueHead : after.queueHead = before.queueHead
  length : after.waiters.length = before.waiters.length
  waiters : ∀ (index : Nat) (waiter : Waiter), after.waiters[index]? = some waiter →
    ∃ earlier, before.waiters[index]? = some earlier ∧ earlier.portSlot = waiter.portSlot ∧
      (waiter.live = true → earlier.live = true)

theorem SameObject.refl (record : ObjectRecord) : SameObject record record where
  live := rfl
  objectType := rfl
  refcount := rfl
  name := rfl
  objectId := rfl
  peerSlot := rfl
  queueHead := rfl
  length := rfl
  waiters := fun _ waiter found => ⟨waiter, found, rfl, fun live => live⟩

theorem SameObject.trans {first second third : ObjectRecord} (before : SameObject first second)
    (after : SameObject second third) : SameObject first third where
  live := after.live.trans before.live
  objectType := after.objectType.trans before.objectType
  refcount := after.refcount.trans before.refcount
  name := after.name.trans before.name
  objectId := after.objectId.trans before.objectId
  peerSlot := after.peerSlot.trans before.peerSlot
  queueHead := after.queueHead.trans before.queueHead
  length := after.length.trans before.length
  waiters := by
    intro index waiter found
    rcases after.waiters index waiter found with ⟨middle, foundMiddle, port, live⟩
    rcases before.waiters index middle foundMiddle with ⟨earlier, foundEarlier, earlierPort, earlierLive⟩
    exact ⟨earlier, foundEarlier, earlierPort.trans port, fun armed => earlierLive (live armed)⟩

/-- A process in which nothing but signals, queues and armed waiters has changed. -/
structure Follows (before after : Tessera) : Prop where
  handles : after.handles = before.handles
  nextObjectId : after.nextObjectId = before.nextObjectId
  length : after.objects.length = before.objects.length
  objects : ∀ slot, SameObject (before.object slot) (after.object slot)
  history : before.history <+: after.history

theorem Follows.refl (process : Tessera) : Follows process process where
  handles := rfl
  nextObjectId := rfl
  length := rfl
  objects := fun _ => SameObject.refl _
  history := List.prefix_rfl

theorem Follows.trans {first second third : Tessera} (before : Follows first second)
    (after : Follows second third) : Follows first third where
  handles := after.handles.trans before.handles
  nextObjectId := after.nextObjectId.trans before.nextObjectId
  length := after.length.trans before.length
  objects := fun slot => (before.objects slot).trans (after.objects slot)
  history := before.history.trans after.history

theorem Follows.old {base : Nat} {process after : Tessera} (follows : Follows process after)
    (old : base ≤ process.history.length) : base ≤ after.history.length :=
  Nat.le_trans old follows.history.length_le

theorem follows_note (process : Tessera) (event : Note) : Follows process (process.note event) where
  handles := rfl
  nextObjectId := rfl
  length := rfl
  objects := fun _ => SameObject.refl _
  history := List.prefix_append _ _

theorem follows_setObject (process : Tessera) (slot : Nat) (change : ObjectRecord → ObjectRecord)
    (same : SameObject (process.object slot) (change (process.object slot))) :
    Follows process (process.setObject slot change) where
  handles := rfl
  nextObjectId := rfl
  length := process.setObject_length slot change
  objects := by
    intro other
    rw [Tessera.object_setObject]
    split
    · rename_i here
      rw [← here.1]
      exact same
    · exact SameObject.refl _
  history := List.prefix_rfl

theorem follows_setSignals (process : Tessera) (slot : Nat) (signals : Signals) :
    Follows process (process.setSignals slot signals) := by
  apply follows_setObject
  exact
    { live := rfl
      objectType := rfl
      refcount := rfl
      name := rfl
      objectId := rfl
      peerSlot := rfl
      queueHead := rfl
      length := rfl
      waiters := (SameObject.refl (process.object slot)).waiters }

theorem follows_enqueue (process : Tessera) (slot : Nat) (packet : Completion) :
    Follows process (process.enqueue slot packet) := by
  have later : Follows process { process with clock := process.clock + 1 } :=
    ⟨rfl, rfl, rfl, fun _ => SameObject.refl _, List.prefix_rfl⟩
  apply later.trans
  apply follows_setObject
  exact
    { live := rfl
      objectType := rfl
      refcount := rfl
      name := rfl
      objectId := rfl
      peerSlot := rfl
      queueHead := rfl
      length := rfl
      waiters := (SameObject.refl (process.object slot)).waiters }

theorem follows_disarm (process : Tessera) (slot index : Nat) :
    Follows process (process.disarm slot index) := by
  apply follows_setObject
  refine
    { live := rfl
      objectType := rfl
      refcount := rfl
      name := rfl
      objectId := rfl
      peerSlot := rfl
      queueHead := rfl
      length := List.length_modify _ _ _
      waiters := ?_ }
  intro other waiter found
  rw [List.getElem?_modify] at found
  rcases Option.map_eq_some_iff.mp found with ⟨earlier, foundEarlier, same⟩
  refine ⟨earlier, foundEarlier, ?_⟩
  by_cases here : index = other
  · simp only [here, if_true] at same
    rw [← same]
    exact ⟨rfl, fun armed => Bool.noConfusion armed⟩
  · simp only [here, if_false] at same
    rw [same]
    exact ⟨rfl, fun armed => armed⟩

/-! ## Effects -/

/-- The object an event of the past reached. -/
def Note.target : Note → Option Nat
  | .packet _ _ port _ => some port
  | .asserted object => some object
  | .signalled _ target _ => some target
  | .peerClosed _ target _ => some target
  | .posted port => some port
  | .drained port => some port
  | _ => none

/-- What is in a slot is noted to be reached, later than the first events. -/
def Reached (base : Nat) (process : Tessera) (slot : Nat) : Prop :=
  ∃ event ∈ process.history.drop base, event.target = some (process.object slot).objectId

/-- One step of delivery. -/
inductive Effect (base : Nat) : Tessera → Tessera → Prop
  /-- A live waiter is noted to deliver to the slot of its port. -/
  | fired (process : Tessera) (slot index : Nat) (waiter : Waiter)
      (found : (process.object slot).waiters[index]? = some waiter) (live : waiter.live = true) :
      Effect base process (process.noteFired slot index waiter.portSlot)
  | disarmed (process : Tessera) (slot index : Nat) :
      Effect base process (process.disarm slot index)
  /-- Signals change, but not whether the object is readable. -/
  | raised (process : Tessera) (slot : Nat) (set clear : Signals)
      (reached : Reached base process slot) (setOther : readable set = false)
      (clearOther : readable clear = false) :
      Effect base process
        (process.setSignals slot
          (signalsClear (signalsUnion (process.object slot).signals set) clear))
  | delivered (process : Tessera) (slot : Nat) (packet : Completion)
      (reached : Reached base process slot) :
      Effect base process
        ((process.enqueue slot packet).setSignals slot
          (signalsClear (signalsUnion (process.object slot).signals signalReadable) signalsNone))

abbrev Effects (base : Nat) : Tessera → Tessera → Prop :=
  Relation.ReflTransGen (Effect base)

variable {base : Nat} {process middle after : Tessera}

theorem Effect.follows (effect : Effect base process after) : Follows process after := by
  cases effect with
  | fired => exact follows_note _ _
  | disarmed => exact follows_disarm _ _ _
  | raised => exact follows_setSignals _ _ _
  | delivered => exact (follows_enqueue _ _ _).trans (follows_setSignals _ _ _)

theorem Effects.follows (effects : Effects base process after) : Follows process after := by
  induction effects with
  | refl => exact Follows.refl _
  | tail _ effect ih => exact ih.trans effect.follows

theorem Reached.later {slot : Nat} (reached : Reached base process slot)
    (follows : Follows process after) : Reached base after slot := by
  rcases reached with ⟨event, listed, target⟩
  refine ⟨event, ?_, ?_⟩
  · rcases follows.history with ⟨more, same⟩
    rw [← same, List.drop_append]
    exact List.mem_append_left _ listed
  · rw [(follows.objects slot).objectId]
    exact target

/-- What a waiter is noted to deliver to is noted to be reached. -/
theorem reached_noteFired (slot index portSlot : Nat) (old : base ≤ process.history.length) :
    Reached base (process.noteFired slot index portSlot) portSlot := by
  refine ⟨.packet (process.object slot).objectId index (process.object portSlot).objectId
    (process.object portSlot).live, ?_, rfl⟩
  unfold Tessera.noteFired Tessera.note
  rw [List.drop_append_of_le_length old]
  exact List.mem_append_right _ (List.mem_singleton_self _)

theorem effects_foldl {α : Type} {step : Tessera → α → Tessera}
    (steps : ∀ process item, base ≤ process.history.length →
      Effects base process (step process item)) (items : List α)
    (old : base ≤ process.history.length) : Effects base process (items.foldl step process) := by
  induction items generalizing process with
  | nil => exact Relation.ReflTransGen.refl
  | cons item items ih =>
    have first := steps process item old
    exact first.trans (ih (first.follows.old old))

/-! ## Delivery -/

section Deliver

variable {deliver : Tessera → Nat → Completion → Tessera}
  (delivers : ∀ process slot packet, base ≤ process.history.length → Reached base process slot →
    Effects base process (deliver process slot packet))

include delivers

theorem firing_effects {objectSlot index : Nat} {waiter : Waiter} {next : Tessera}
    (found : (process.object objectSlot).waiters[index]? = some waiter)
    (live : waiter.live = true)
    (same : next = process.noteFired objectSlot index waiter.portSlot ∨
      next = (process.noteFired objectSlot index waiter.portSlot).disarm objectSlot index)
    (packet : Completion) (old : base ≤ process.history.length) :
    Effects base process (deliver next waiter.portSlot packet) := by
  have fired := @Effect.fired base process objectSlot index waiter found live
  have reached := @reached_noteFired base process objectSlot index waiter.portSlot old
  have later := fired.follows.old old
  rcases same with plain | once
  · rw [plain]
    exact (Relation.ReflTransGen.single fired).trans (delivers _ _ _ later reached)
  · rw [once]
    have disarmed := @Effect.disarmed base
      (process.noteFired objectSlot index waiter.portSlot) objectSlot index
    exact ((Relation.ReflTransGen.single fired).tail disarmed).trans
      (delivers _ _ _ (disarmed.follows.old later) (reached.later disarmed.follows))

theorem fireWith_effects (objectSlot : Nat) (newly current : Signals) (process : Tessera)
    (index : Nat) (old : base ≤ process.history.length) :
    Effects base process (fireWith deliver objectSlot newly current process index) := by
  unfold fireWith
  split
  · exact Relation.ReflTransGen.refl
  · rename_i waiter found
    split
    · rename_i fires
      simp only [Bool.and_eq_true] at fires
      apply firing_effects delivers found fires.1.1 _ _ old
      by_cases once : waiter.optionCode = 0
      · exact Or.inr (if_pos once)
      · exact Or.inl (if_neg once)
    · exact Relation.ReflTransGen.refl

theorem notifyWith_effects (process : Tessera) (objectSlot : Nat) (newly : Signals)
    (old : base ≤ process.history.length) :
    Effects base process (notifyWith deliver process objectSlot newly) :=
  effects_foldl (fun _ _ => fireWith_effects delivers objectSlot newly _ _ _) _ old

theorem raiseWith_effects (process : Tessera) (objectSlot : Nat) (set clear : Signals)
    (old : base ≤ process.history.length) (reached : Reached base process objectSlot)
    (setOther : readable set = false) (clearOther : readable clear = false) :
    Effects base process (raiseWith deliver process objectSlot set clear) := by
  have raised := Effect.raised process objectSlot set clear reached setOther clearOther
  have later := raised.follows.old old
  exact (Relation.ReflTransGen.single raised).trans
    (notifyWith_effects delivers _ objectSlot _ later)

end Deliver

@[simp]
theorem enqueue_signals (process : Tessera) (slot other : Nat) (packet : Completion) :
    ((process.enqueue slot packet).object other).signals = (process.object other).signals := by
  unfold Tessera.enqueue
  simp only [Tessera.object_setObject]
  split <;> rfl

theorem deliverWithin_effects (depth : Nat) (process : Tessera) (slot : Nat) (packet : Completion)
    (old : base ≤ process.history.length) (reached : Reached base process slot) :
    Effects base process (deliverWithin depth process slot packet) := by
  induction depth generalizing process slot packet with
  | zero => exact Relation.ReflTransGen.refl
  | succ depth ih =>
    have delivered := Effect.delivered process slot packet reached
    have notified := notifyWith_effects ih _ slot
      (signalsClear (signalsUnion (process.object slot).signals signalReadable) signalsNone &&&
        (u32Max ^^^ (process.object slot).signals)) (delivered.follows.old old)
    simp only [deliverWithin, raiseWith, enqueue_signals]
    exact (Relation.ReflTransGen.single delivered).trans notified

theorem tessDeliverToPort_effects (process : Tessera) (slot : Nat) (packet : Completion)
    (old : base ≤ process.history.length) (reached : Reached base process slot) :
    Effects base process (tessDeliverToPort process slot packet) :=
  deliverWithin_effects _ process slot packet old reached

theorem tessRaiseSignals_effects (process : Tessera) (slot : Nat) (set clear : Signals)
    (old : base ≤ process.history.length) (reached : Reached base process slot)
    (setOther : readable set = false) (clearOther : readable clear = false) :
    Effects base process (tessRaiseSignals process slot set clear) :=
  raiseWith_effects tessDeliverToPort_effects process slot set clear old reached setOther clearOther

theorem cancelWaiter_effects (objectSlot : Nat) (process : Tessera) (index : Nat)
    (old : base ≤ process.history.length) :
    Effects base process (cancelWaiter objectSlot process index) := by
  unfold cancelWaiter
  split
  · exact Relation.ReflTransGen.refl
  · rename_i waiter found
    split
    · rename_i live
      exact firing_effects tessDeliverToPort_effects found live (Or.inr rfl) _ old
    · exact Relation.ReflTransGen.refl

theorem cancelMatching_effects (portSlot : Nat) (key : Key) (objectSlot : Nat)
    (state : Nat × Tessera) (index : Nat) (old : base ≤ state.2.history.length) :
    Effects base state.2 (cancelMatching portSlot key objectSlot state index).2 := by
  unfold cancelMatching
  split
  · exact Relation.ReflTransGen.refl
  · rename_i waiter found
    split
    · rename_i matching
      simp only [Bool.and_eq_true, beq_iff_eq] at matching
      have same : waiter.portSlot = portSlot := matching.1.2
      have fired := @firing_effects base state.2 _ tessDeliverToPort_effects objectSlot index waiter
        _ found matching.1.1 (Or.inr rfl) (completionCancelled key .signal) old
      rw [same] at fired
      exact fired
    · exact Relation.ReflTransGen.refl

/-- An object with one more waiter, which is noted. -/
def armed (process : Tessera) (objectSlot portSlot : Nat) (key : Key) (mask : Signals)
    (optionCode : Nat) : Tessera :=
  (process.setObject objectSlot fun record =>
    { record with waiters := record.waiters ++ [⟨true, portSlot, key, mask, optionCode⟩] }).note
      (.armed (process.object objectSlot).objectId (process.object portSlot).objectId)

theorem armed_found {objectSlot : Nat} (portSlot : Nat) (key : Key) (mask : Signals)
    (optionCode : Nat) (inside : objectSlot < process.objects.length) :
    ((armed process objectSlot portSlot key mask optionCode).object objectSlot).waiters =
      (process.object objectSlot).waiters ++ [⟨true, portSlot, key, mask, optionCode⟩] := by
  simp [armed, Tessera.object_setObject, inside]

theorem tessArm_effects (process : Tessera) (objectSlot portSlot : Nat) (key : Key)
    (mask : Signals) (optionCode : Nat)
    (old : base ≤ (armed process objectSlot portSlot key mask optionCode).history.length) :
    Effects base (armed process objectSlot portSlot key mask optionCode)
      (tessArm process objectSlot portSlot key mask optionCode) := by
  unfold tessArm
  change Effects base (armed process objectSlot portSlot key mask optionCode) (if _ then _ else _)
  split
  · change Effects base (armed process objectSlot portSlot key mask optionCode)
      (if signalsAny ((armed process objectSlot portSlot key mask optionCode).object
        objectSlot).signals mask then _ else _)
    split
    · rename_i asserted
      have inside : objectSlot < process.objects.length := by
        by_contra outside
        have vacant : (armed process objectSlot portSlot key mask optionCode).object objectSlot =
            .vacant := by
          apply Tessera.object_outside
          simpa [armed, Tessera.note] using outside
        rw [vacant] at asserted
        exact Bool.noConfusion ((signalsAny_zero mask).symm.trans asserted)
      have waiters := armed_found portSlot key mask optionCode inside
      have found : ((armed process objectSlot portSlot key mask optionCode).object
          objectSlot).waiters[((armed process objectSlot portSlot key mask optionCode).object
            objectSlot).waiters.length - 1]? = some ⟨true, portSlot, key, mask, optionCode⟩ := by
        rw [waiters]
        simp
      apply firing_effects tessDeliverToPort_effects found rfl _ _ old
      by_cases once : optionCode = 0
      · exact Or.inr (if_pos once)
      · exact Or.inl (if_neg once)
    · exact Relation.ReflTransGen.refl
  · exact Relation.ReflTransGen.refl

theorem effects_foldl_counted {α : Type} {step : Nat × Tessera → α → Nat × Tessera}
    (steps : ∀ state item, base ≤ state.2.history.length →
      Effects base state.2 (step state item).2) (items : List α) (state : Nat × Tessera)
    (old : base ≤ state.2.history.length) : Effects base state.2 (items.foldl step state).2 := by
  induction items generalizing state with
  | nil => exact Relation.ReflTransGen.refl
  | cons item items ih =>
    have first := steps state item old
    exact first.trans (ih _ (first.follows.old old))

theorem cancelObject_effects (portSlot : Nat) (key : Key) (state : Nat × Tessera)
    (objectSlot : Nat) (old : base ≤ state.2.history.length) :
    Effects base state.2 (cancelObject portSlot key state objectSlot).2 := by
  unfold cancelObject
  split
  · exact effects_foldl_counted (cancelMatching_effects portSlot key objectSlot) _ state old
  · exact Relation.ReflTransGen.refl

theorem tessCancelKey_effects (process : Tessera) (portSlot : Nat) (key : Key)
    (old : base ≤ process.history.length) :
    Effects base process (tessCancelKey process portSlot key).2 :=
  effects_foldl_counted (cancelObject_effects portSlot key) _ (0, process) old

theorem reached_note {slot : Nat} {event : Note}
    (target : event.target = some (process.object slot).objectId) :
    Reached process.history.length (process.note event) slot := by
  refine ⟨event, ?_, target⟩
  simp [Tessera.note]

theorem old_note (process : Tessera) (event : Note) :
    process.history.length ≤ (process.note event).history.length := by
  simp [Tessera.note]

/-! ## What effects leave behind -/

/-- An object whose signals or queue have changed is noted to be reached. -/
structure Traced (base : Nat) (process after : Tessera) : Prop where
  ids : ∀ slot, (after.object slot).objectId = (process.object slot).objectId
  history : process.history <+: after.history
  changed : ∀ slot, (after.object slot).signals ≠ (process.object slot).signals ∨
      (after.object slot).queue ≠ (process.object slot).queue →
    ∃ event ∈ after.history.drop base, event.target = some (process.object slot).objectId

theorem Traced.of_same (ids : ∀ slot, (after.object slot).objectId = (process.object slot).objectId)
    (history : process.history <+: after.history)
    (signals : ∀ slot, (after.object slot).signals = (process.object slot).signals)
    (queue : ∀ slot, (after.object slot).queue = (process.object slot).queue) :
    Traced base process after where
  ids := ids
  history := history
  changed := by
    intro slot changed
    rw [signals, queue] at changed
    simp at changed

theorem Traced.refl (process : Tessera) : Traced base process process :=
  .of_same (fun _ => rfl) List.prefix_rfl (fun _ => rfl) fun _ => rfl

theorem Traced.trans (first : Traced base process middle) (second : Traced base middle after) :
    Traced base process after where
  ids := fun slot => (second.ids slot).trans (first.ids slot)
  history := first.history.trans second.history
  changed := by
    intro slot changed
    by_cases early : (middle.object slot).signals ≠ (process.object slot).signals ∨
        (middle.object slot).queue ≠ (process.object slot).queue
    · rcases first.changed slot early with ⟨event, listed, target⟩
      refine ⟨event, ?_, target⟩
      rcases second.history with ⟨more, same⟩
      rw [← same, List.drop_append]
      exact List.mem_append_left _ listed
    · rw [not_or, not_not, not_not] at early
      rw [← early.1, ← early.2] at changed
      rw [← first.ids slot]
      exact second.changed slot changed

theorem Traced.note (process : Tessera) (event : Note) :
    Traced base process (process.note event) :=
  .of_same (fun _ => rfl) (List.prefix_append _ _) (fun _ => rfl) fun _ => rfl

theorem Effect.changes (effect : Effect base process after) (slot : Nat)
    (changed : (after.object slot).signals ≠ (process.object slot).signals ∨
      (after.object slot).queue ≠ (process.object slot).queue) : Reached base process slot := by
  cases effect with
  | fired index waiter => simp [Tessera.noteFired] at changed
  | disarmed other index =>
    simp only [Tessera.disarm, Tessera.object_setObject] at changed
    split at changed <;> simp at changed
  | raised other set clear reached =>
    simp only [Tessera.setSignals, Tessera.object_setObject] at changed
    split at changed
    · rename_i here
      rw [← here.1]
      exact reached
    · simp at changed
  | delivered other packet reached =>
    simp only [Tessera.setSignals, Tessera.enqueue, Tessera.object_setObject] at changed
    by_cases here : other = slot
    · rw [← here]
      exact reached
    · simp [here, Tessera.object] at changed

theorem Effect.traced (effect : Effect base process after) : Traced base process after where
  ids := fun slot => (effect.follows.objects slot).objectId
  history := effect.follows.history
  changed := by
    intro slot changed
    rcases (effect.changes slot changed).later effect.follows with ⟨event, listed, target⟩
    rw [(effect.follows.objects slot).objectId] at target
    exact ⟨event, listed, target⟩

theorem Effects.traced (effects : Effects base process after) : Traced base process after := by
  induction effects with
  | refl => exact Traced.refl _
  | tail _ effect ih => exact ih.trans effect.traced

/-- A waiter that was live delivers to what is in the slot of its port. -/
def FiredFrom (process : Tessera) (event : Note) : Prop :=
  ∃ slot index waiter, (process.object slot).waiters[index]? = some waiter ∧ waiter.live = true ∧
    event = .packet (process.object slot).objectId index (process.object waiter.portSlot).objectId
      (process.object waiter.portSlot).live

theorem FiredFrom.earlier {event : Note} (fired : FiredFrom after event)
    (follows : Follows process after) : FiredFrom process event := by
  rcases fired with ⟨slot, index, waiter, found, live, same⟩
  rcases (follows.objects slot).waiters index waiter found with ⟨earlier, foundEarlier, port, armed⟩
  refine ⟨slot, index, earlier, foundEarlier, armed live, ?_⟩
  rw [same, port, (follows.objects slot).objectId, (follows.objects waiter.portSlot).objectId,
    (follows.objects waiter.portSlot).live]

/-- Nothing is noted but waiters that fire. -/
theorem Effects.fired (effects : Effects base process after) :
    ∃ events, after.history = process.history ++ events ∧
      ∀ event ∈ events, FiredFrom process event := by
  induction effects with
  | refl => exact ⟨[], (List.append_nil _).symm, fun _ listed => absurd listed List.not_mem_nil⟩
  | @tail middle after earlier effect ih =>
    rcases ih with ⟨events, same, fired⟩
    cases effect with
    | fired slot index waiter found live =>
      refine ⟨events ++ [.packet (middle.object slot).objectId index
        (middle.object waiter.portSlot).objectId (middle.object waiter.portSlot).live], ?_, ?_⟩
      · rw [← List.append_assoc, ← same]
        rfl
      · intro event listed
        rcases List.mem_append.mp listed with old | new
        · exact fired event old
        · rw [List.mem_singleton.mp new]
          exact FiredFrom.earlier ⟨slot, index, waiter, found, live, rfl⟩
            (Effects.follows earlier)
    | disarmed => exact ⟨events, same, fired⟩
    | raised => exact ⟨events, same, fired⟩
    | delivered => exact ⟨events, same, fired⟩

/-- A port is readable as long as it holds packets, and an empty one starts afresh. -/
def PortReady (record : ObjectRecord) : Prop :=
  if record.queueHead < record.queue.length then readable record.signals = true
  else record.queue = [] ∧ record.queueHead = 0 ∧ readable record.signals = false

theorem Effect.portReady (effect : Effect base process after) (slot : Nat)
    (ready : PortReady (process.object slot)) : PortReady (after.object slot) := by
  cases effect with
  | fired => exact ready
  | disarmed =>
    simp only [Tessera.disarm, Tessera.object_setObject]
    split
    · exact ready
    · exact ready
  | raised other set clear reached setOther clearOther =>
    simp only [Tessera.setSignals, Tessera.object_setObject]
    split
    · rename_i here
      simpa [PortReady, here.1, setOther, clearOther] using ready
    · exact ready
  | delivered other packet reached =>
    simp only [Tessera.setSignals, Tessera.enqueue, Tessera.object_setObject,
      Tessera.setObject_length]
    by_cases here : other = slot ∧ slot < process.objects.length
    · have room : (process.object slot).queueHead < (process.object slot).queue.length + 1 := by
        unfold PortReady at ready
        split at ready
        · omega
        · omega
      simpa [here, PortReady, Tessera.object] using room
    · simpa [here, Tessera.object] using ready

theorem Effects.portReady (effects : Effects base process after) (slot : Nat)
    (ready : PortReady (process.object slot)) : PortReady (after.object slot) := by
  induction effects with
  | refl => exact ready
  | tail _ effect ih => exact effect.portReady slot ih

/-! ## How deep delivery goes -/

/-- The objects that are not readable. -/
def unread (process : Tessera) : Finset Nat :=
  (Finset.range process.objects.length).filter fun slot =>
    readable (process.object slot).signals = false

theorem unread_card_le (process : Tessera) : (unread process).card ≤ process.objects.length := by
  have bound := Finset.card_filter_le (Finset.range process.objects.length) fun slot =>
    readable (process.object slot).signals = false
  rw [Finset.card_range] at bound
  exact bound

theorem Effect.stays_readable (effect : Effect base process after) (slot : Nat)
    (already : readable (process.object slot).signals = true) :
    readable (after.object slot).signals = true := by
  cases effect with
  | fired => exact already
  | disarmed =>
    simp only [Tessera.disarm, Tessera.object_setObject]
    split <;> exact already
  | raised other set clear reached setOther clearOther =>
    simp only [Tessera.setSignals, Tessera.object_setObject]
    split
    · rename_i here
      simp [here.1, already, clearOther]
    · exact already
  | delivered other packet reached =>
    simp only [Tessera.setSignals, Tessera.object_setObject]
    split
    · simp
    · rw [enqueue_signals]
      exact already

theorem Effects.stays_readable (effects : Effects base process after) (slot : Nat)
    (already : readable (process.object slot).signals = true) :
    readable (after.object slot).signals = true := by
  induction effects with
  | refl => exact already
  | tail _ effect ih => exact effect.stays_readable slot ih

theorem unread_subset (length : after.objects.length = process.objects.length)
    (stays : ∀ slot, readable (process.object slot).signals = true →
      readable (after.object slot).signals = true) : unread after ⊆ unread process := by
  intro slot listed
  rcases Finset.mem_filter.mp listed with ⟨inside, quiet⟩
  rw [length] at inside
  refine Finset.mem_filter.mpr ⟨inside, ?_⟩
  cases already : readable (process.object slot).signals with
  | false => rfl
  | true =>
    rw [stays slot already] at quiet
    cases quiet

theorem Effects.unread_le (effects : Effects base process after) :
    (unread after).card ≤ (unread process).card :=
  Finset.card_le_card (unread_subset effects.follows.length effects.stays_readable)

theorem unread_lt {slot : Nat} (inside : slot < process.objects.length)
    (quiet : readable (process.object slot).signals = false) (packet : Completion) :
    (unread ((process.enqueue slot packet).setSignals slot
      (signalsClear (signalsUnion (process.object slot).signals signalReadable)
        signalsNone))).card < (unread process).card := by
  apply Finset.card_lt_card
  rw [Finset.ssubset_iff_of_subset]
  · refine ⟨slot, Finset.mem_filter.mpr ⟨Finset.mem_range.mpr inside, quiet⟩, ?_⟩
    intro listed
    have still := (Finset.mem_filter.mp listed).2
    simp [Tessera.setSignals, Tessera.object_setObject, Tessera.enqueue, inside] at still
  · apply unread_subset
    · simp [Tessera.setSignals, Tessera.enqueue]
    · intro other already
      simp only [Tessera.setSignals, Tessera.object_setObject]
      split
      · simp
      · rw [enqueue_signals]
        exact already

theorem notifyWith_quiet (deliver : Tessera → Nat → Completion → Tessera) (process : Tessera)
    (objectSlot : Nat) : notifyWith deliver process objectSlot 0 = process := by
  unfold notifyWith
  generalize (process.object objectSlot).signals = current
  induction List.range (process.object objectSlot).waiters.length with
  | nil => rfl
  | cons index indices ih =>
    have same : fireWith deliver objectSlot 0 current process index = process := by
      unfold fireWith
      split
      · rfl
      · simp [signalsAny_zero]
    rw [List.foldl_cons, same]
    exact ih

section Agree

variable {first second : Tessera → Nat → Completion → Tessera}

theorem fireWith_agree {objectSlot index : Nat} {newly current : Signals}
    (agree : ∀ after slot packet, after.objects.length = process.objects.length →
      (unread after).card ≤ (unread process).card → first after slot packet = second after slot packet) :
    fireWith first objectSlot newly current process index =
      fireWith second objectSlot newly current process index := by
  unfold fireWith
  split
  · rfl
  · rename_i waiter found
    split
    · rename_i fires
      simp only [Bool.and_eq_true] at fires
      have fired := @Effect.fired 0 process objectSlot index waiter found fires.1.1
      have disarmed := @Effect.disarmed 0
        (process.noteFired objectSlot index waiter.portSlot) objectSlot index
      have single : Effects 0 process _ := Relation.ReflTransGen.single fired
      have both : Effects 0 process _ := single.tail disarmed
      by_cases once : waiter.optionCode = 0
      · simp only [once, if_true]
        exact agree _ _ _ both.follows.length both.unread_le
      · simp only [once, if_false]
        exact agree _ _ _ single.follows.length single.unread_le
    · rfl

theorem notifyWith_agree {objectSlot : Nat} {newly : Signals}
    (agree : ∀ after slot packet, after.objects.length = process.objects.length →
      (unread after).card ≤ (unread process).card → first after slot packet = second after slot packet)
    (delivers : ∀ process slot packet, 0 ≤ process.history.length → Reached 0 process slot →
      Effects 0 process (first process slot packet)) :
    notifyWith first process objectSlot newly = notifyWith second process objectSlot newly := by
  unfold notifyWith
  generalize (process.object objectSlot).signals = current
  generalize List.range (process.object objectSlot).waiters.length = indices
  induction indices generalizing process with
  | nil => rfl
  | cons index indices ih =>
    rw [List.foldl_cons, List.foldl_cons, ← fireWith_agree agree]
    have step := fireWith_effects delivers objectSlot newly current process index (Nat.zero_le _)
    apply ih
    intro after slot packet length fewer
    exact agree after slot packet (length.trans step.follows.length)
      (Nat.le_trans fewer step.unread_le)

theorem delivery_agree {slot : Nat} {packet : Completion}
    (agree : ∀ after slot packet, after.objects.length = process.objects.length →
      (unread after).card < (unread process).card → first after slot packet = second after slot packet)
    (delivers : ∀ process slot packet, 0 ≤ process.history.length → Reached 0 process slot →
      Effects 0 process (first process slot packet)) :
    raiseWith first (process.enqueue slot packet) slot signalReadable signalsNone =
      raiseWith second (process.enqueue slot packet) slot signalReadable signalsNone := by
  simp only [raiseWith, enqueue_signals, u32Max_xor]
  cases already : readable (process.object slot).signals with
  | true =>
    rw [no_news _ already, notifyWith_quiet, notifyWith_quiet]
  | false =>
    by_cases inside : slot < process.objects.length
    · apply notifyWith_agree
      · intro after other sent length fewer
        apply agree after other sent
        · rw [length]
          simp [Tessera.setSignals, Tessera.enqueue]
        · exact Nat.lt_of_le_of_lt fewer (unread_lt inside already packet)
      · exact delivers
    · have vacant : ((process.enqueue slot packet).setSignals slot
          (signalsClear (signalsUnion (process.object slot).signals signalReadable)
            signalsNone)).object slot = .vacant := by
        apply Tessera.object_outside
        simpa [Tessera.setSignals, Tessera.enqueue] using inside
      simp only [notifyWith, vacant]
      rfl

end Agree

theorem deliverWithin_agree (depth more : Nat) (process : Tessera) (slot : Nat)
    (packet : Completion) (enough : (unread process).card < depth)
    (enoughToo : (unread process).card < more) :
    deliverWithin depth process slot packet = deliverWithin more process slot packet := by
  induction depth generalizing more process slot packet with
  | zero => exact absurd enough (Nat.not_lt_zero _)
  | succ depth ih =>
    cases more with
    | zero => exact absurd enoughToo (Nat.not_lt_zero _)
    | succ more =>
      apply delivery_agree
      · intro after slot packet _ fewer
        exact ih more after slot packet (by omega) (by omega)
      · exact fun _ _ _ => deliverWithin_effects depth _ _ _

theorem tessDeliverToPort_eq (process : Tessera) (slot : Nat) (packet : Completion) :
    tessDeliverToPort process slot packet =
      tessRaiseSignals (process.enqueue slot packet) slot signalReadable signalsNone := by
  apply delivery_agree
  · intro after slot packet length fewer
    have bound := unread_card_le process
    unfold tessDeliverToPort
    rw [length]
    exact deliverWithin_agree _ _ after slot packet (by omega) (by omega)
  · exact fun _ _ _ => deliverWithin_effects _ _ _ _

/-- However the ports watch each other, a delivery comes to an end: it goes no deeper than
there are objects that are not readable, and is what the unbounded recursion makes of it. -/
theorem delivery_settles (process : Tessera) (slot : Nat) (packet : Completion) (spare : Nat) :
    tessDeliverToPort process slot packet =
        deliverWithin ((unread process).card + 1 + spare) process slot packet ∧
      tessDeliverToPort process slot packet =
        tessRaiseSignals (process.enqueue slot packet) slot signalReadable signalsNone := by
  refine ⟨?_, tessDeliverToPort_eq process slot packet⟩
  have bound := unread_card_le process
  exact deliverWithin_agree _ _ process slot packet (by omega) (by omega)

end LibTessera

end KiraVm
