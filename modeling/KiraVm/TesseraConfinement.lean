import KiraVm.TesseraHandles

/-!
# Which objects a process reaches

An end of a pair refers to the other end, and a waiter to its port, by a bare slot.  As
long as no slot is reused that something live still refers to, what is in the slot of a
reference is the object it was made for, so nothing reaches an object on behalf of
another one that is gone.
-/

namespace KiraVm

namespace LibTessera

/-! ## What was made for what -/

/-- Two objects were created as the ends of a pair. -/
def Partners (history : List Note) (first second : Nat) : Prop :=
  .paired first second ∈ history ∨ .paired second first ∈ history

theorem Partners.later {history later : List Note} {first second : Nat}
    (partners : Partners history first second) (before : history <+: later) :
    Partners later first second :=
  partners.imp (fun listed => before.subset listed) fun listed => before.subset listed

def Note.armedFor (watched : Nat) : Note → Option Nat
  | .armed object port => if object = watched then some port else none
  | _ => none

def armedPorts (history : List Note) (watched : Nat) : List Nat :=
  history.filterMap (Note.armedFor watched)

theorem armedPorts_append (history more : List Note) (watched : Nat) :
    armedPorts (history ++ more) watched = armedPorts history watched ++ armedPorts more watched :=
  List.filterMap_append

/-- Whether an event of the past stays within what the objects were made for. -/
def Note.Confined (history : List Note) : Note → Prop
  | .packet watched index port _ => (armedPorts history watched)[index]? = some port
  | .signalled source target _ => Partners history source target
  | .peerClosed source target live => Partners history source target ∧ live = true
  | .derived source minted => minted &&& source = minted
  | _ => True

/-- Nothing has reached an object that was not made for it, and no handle was made with
more rights than the one it was made from. -/
def Confined (process : Tessera) : Prop :=
  ∀ event ∈ process.history, event.Confined process.history

theorem Note.Confined.later {history later : List Note} {event : Note}
    (confined : event.Confined history) (before : history <+: later) : event.Confined later := by
  cases event with
  | packet watched index port live =>
    rcases before with ⟨more, same⟩
    have found : (armedPorts history watched)[index]? = some port := confined
    change (armedPorts later watched)[index]? = some port
    rw [← same, armedPorts_append,
      List.getElem?_append_left (List.getElem?_eq_some_iff.mp found).1]
    exact found
  | signalled source target live => exact Partners.later confined before
  | peerClosed source target live => exact ⟨confined.1.later before, confined.2⟩
  | derived source minted => exact confined
  | paired first second => trivial
  | armed watched port => trivial
  | asserted object => trivial
  | posted port => trivial
  | drained port => trivial

theorem Confined.append {process after : Tessera} (confined : Confined process)
    {events : List Note} (history : after.history = process.history ++ events)
    (new : ∀ event ∈ events, event.Confined after.history) : Confined after := by
  intro event listed
  rw [history] at listed
  rcases List.mem_append.mp listed with old | recent
  · apply (confined event old).later
    rw [history]
    exact List.prefix_append _ _
  · exact new event recent

/-! ## References -/

/-- Something live refers to a slot. -/
def Named (process : Tessera) (slot : Nat) : Prop :=
  ∃ other, (process.object other).live = true ∧
    ((process.object other).peerSlot = slot ∨
      ∃ waiter ∈ (process.object other).waiters, waiter.live = true ∧ waiter.portSlot = slot)

/-- What is in the slot of a reference is what the reference was made for.  The ends of a
pair that is being made are still loose. -/
structure Linked (loose : List Nat) (process : Tessera) : Prop where
  ids : ∀ slot, (process.object slot).live = true →
    (process.object slot).objectId < process.nextObjectId
  distinct : ∀ first second, (process.object first).live = true →
    (process.object second).live = true →
    (process.object first).objectId = (process.object second).objectId → first = second
  pairs : ∀ slot, (process.object slot).live = true →
    (process.object slot).objectType = .eventPair → slot ∉ loose →
    0 ≤ (process.object slot).peerSlot
  peers : ∀ slot, (process.object slot).live = true → 0 ≤ (process.object slot).peerSlot →
    Partners process.history (process.object slot).objectId
      (process.object (process.object slot).peerSlot.toNat).objectId
  armed : ∀ slot, (process.object slot).live = true →
    (armedPorts process.history (process.object slot).objectId).length =
      (process.object slot).waiters.length
  waiters : ∀ (slot index : Nat) (waiter : Waiter), (process.object slot).live = true →
    (process.object slot).waiters[index]? = some waiter → waiter.live = true →
    (armedPorts process.history (process.object slot).objectId)[index]? =
      some (process.object waiter.portSlot).objectId
  dead : ∀ slot, (process.object slot).live = false →
    ∀ waiter ∈ (process.object slot).waiters, waiter.live = false
  fresh : ∀ watched port, .armed watched port ∈ process.history → watched < process.nextObjectId
  inside : ∀ slot, Named process slot → slot < process.objects.length

/-- An object whose references are the same, or fewer. -/
structure SameLinks (before after : ObjectRecord) : Prop where
  live : after.live = before.live
  objectType : after.objectType = before.objectType
  objectId : after.objectId = before.objectId
  peerSlot : after.peerSlot = before.peerSlot
  length : after.waiters.length = before.waiters.length
  waiters : ∀ (index : Nat) (waiter : Waiter), after.waiters[index]? = some waiter →
    ∃ earlier, before.waiters[index]? = some earlier ∧ earlier.portSlot = waiter.portSlot ∧
      (waiter.live = true → earlier.live = true)

theorem SameObject.links {before after : ObjectRecord} (same : SameObject before after) :
    SameLinks before after :=
  ⟨same.live, same.objectType, same.objectId, same.peerSlot, same.length, same.waiters⟩

theorem SameLinks.refl (record : ObjectRecord) : SameLinks record record :=
  (SameObject.refl record).links

variable {loose : List Nat} {process middle after : Tessera}

variable {slot base objectSlot : Nat} {rights : Rights} {handle : Handle}

theorem Named.earlier (named : Named after slot)
    (objects : ∀ slot, SameLinks (process.object slot) (after.object slot)) :
    Named process slot := by
  rcases named with ⟨other, live, refers⟩
  rw [(objects other).live] at live
  refine ⟨other, live, ?_⟩
  rcases refers with peer | ⟨waiter, listed, armed, port⟩
  · left
    rw [← (objects other).peerSlot]
    exact peer
  · right
    rcases List.mem_iff_getElem?.mp listed with ⟨index, found⟩
    rcases (objects other).waiters index waiter found with ⟨earlier, before, samePort, armedBefore⟩
    exact ⟨earlier, List.mem_of_getElem? before, armedBefore armed, samePort.trans port⟩

/-- No waiter is armed by these events. -/
def Plain (events : List Note) : Prop :=
  ∀ watched port, .armed watched port ∉ events

theorem Plain.armedPorts {events : List Note} (plain : Plain events) (watched : Nat) :
    armedPorts events watched = [] := by
  rw [LibTessera.armedPorts, List.filterMap_eq_nil_iff]
  intro event listed
  cases event with
  | armed object port => exact absurd listed (plain object port)
  | _ => rfl

theorem Linked.keep (linked : Linked loose process)
    (objects : ∀ slot, SameLinks (process.object slot) (after.object slot))
    (next : after.nextObjectId = process.nextObjectId)
    (length : after.objects.length = process.objects.length)
    {events : List Note} (history : after.history = process.history ++ events)
    (plain : Plain events) : Linked loose after := by
  have ports : ∀ watched, armedPorts after.history watched = armedPorts process.history watched := by
    intro watched
    rw [history, armedPorts_append, plain.armedPorts, List.append_nil]
  have before : process.history <+: after.history := by
    rw [history]
    exact List.prefix_append _ _
  refine
    { ids := ?ids
      distinct := ?distinct
      pairs := ?pairs
      peers := ?peers
      armed := ?armed
      waiters := ?waiters
      dead := ?dead
      fresh := ?fresh
      inside := ?inside }
  case ids =>
    intro slot live
    rw [(objects slot).live] at live
    rw [(objects slot).objectId, next]
    exact linked.ids slot live
  case distinct =>
    intro first second liveFirst liveSecond same
    rw [(objects first).live] at liveFirst
    rw [(objects second).live] at liveSecond
    rw [(objects first).objectId, (objects second).objectId] at same
    exact linked.distinct first second liveFirst liveSecond same
  case pairs =>
    intro slot live type tight
    rw [(objects slot).live] at live
    rw [(objects slot).objectType] at type
    rw [(objects slot).peerSlot]
    exact linked.pairs slot live type tight
  case peers =>
    intro slot live peer
    rw [(objects slot).live] at live
    rw [(objects slot).peerSlot] at peer ⊢
    rw [(objects slot).objectId, (objects _).objectId]
    exact (linked.peers slot live peer).later before
  case armed =>
    intro slot live
    rw [(objects slot).live] at live
    rw [(objects slot).objectId, (objects slot).length, ports]
    exact linked.armed slot live
  case waiters =>
    intro slot index waiter live found armed
    rw [(objects slot).live] at live
    rcases (objects slot).waiters index waiter found with ⟨earlier, foundBefore, port, armedBefore⟩
    rw [(objects slot).objectId, ports, (objects waiter.portSlot).objectId, ← port]
    exact linked.waiters slot index earlier live foundBefore (armedBefore armed)
  case dead =>
    intro slot gone waiter listed
    rw [(objects slot).live] at gone
    rcases List.mem_iff_getElem?.mp listed with ⟨index, found⟩
    rcases (objects slot).waiters index waiter found with ⟨earlier, foundBefore, _, armedBefore⟩
    have disarmed := linked.dead slot gone earlier (List.mem_of_getElem? foundBefore)
    cases armed : waiter.live with
    | false => rfl
    | true =>
      rw [armedBefore armed] at disarmed
      cases disarmed
  case fresh =>
    intro watched port listed
    rw [history] at listed
    rcases List.mem_append.mp listed with old | new
    · rw [next]
      exact linked.fresh watched port old
    · exact absurd new (plain watched port)
  case inside =>
    intro slot named
    rw [length]
    exact linked.inside slot (named.earlier objects)

/-! ## What leaves the references alone -/

/-- What keeps references and confinement, and traces every change. -/
structure Keeps (base : Nat) (process after : Tessera) : Prop where
  links : Linked [] process → Confined process → Linked [] after ∧ Confined after
  traced : Traced base process after

theorem Keeps.refl (process : Tessera) : Keeps base process process where
  links := fun linked confined => ⟨linked, confined⟩
  traced := Traced.refl _

theorem Keeps.trans (first : Keeps base process middle) (second : Keeps base middle after) :
    Keeps base process after where
  links := by
    intro linked confined
    rcases first.links linked confined with ⟨linkedMiddle, confinedMiddle⟩
    exact second.links linkedMiddle confinedMiddle
  traced := first.traced.trans second.traced

/-- A waiter that was live delivers to the port it was armed for. -/
theorem FiredFrom.confined {event : Note} (fired : FiredFrom process event)
    (linked : Linked loose process) : event.Confined process.history := by
  rcases fired with ⟨slot, index, waiter, found, armed, same⟩
  rw [same]
  apply linked.waiters slot index waiter _ found armed
  cases live : (process.object slot).live with
  | true => rfl
  | false =>
    rw [linked.dead slot live waiter (List.mem_of_getElem? found)] at armed
    cases armed

theorem FiredFrom.plain {events : List Note} (fired : ∀ event ∈ events, FiredFrom process event) :
    Plain events := by
  intro watched port listed
  rcases fired _ listed with ⟨_, _, _, _, _, same⟩
  cases same

theorem Effects.linked (effects : Effects base process after) (linked : Linked loose process) :
    Linked loose after := by
  rcases effects.fired with ⟨events, history, fired⟩
  have follows := effects.follows
  exact linked.keep (fun slot => (follows.objects slot).links) follows.nextObjectId follows.length
    history (FiredFrom.plain fired)

theorem Effects.confined (effects : Effects base process after) (linked : Linked loose process)
    (confined : Confined process) : Confined after := by
  rcases effects.fired with ⟨events, history, fired⟩
  apply confined.append history
  intro event listed
  apply ((fired event listed).confined linked).later
  rw [history]
  exact List.prefix_append _ _

theorem Effects.keeps (effects : Effects base process after) :
    Keeps base process after where
  links := fun linked confined => ⟨effects.linked linked, effects.confined linked confined⟩
  traced := effects.traced

theorem plain_single {event : Note} (plain : ∀ watched port, event ≠ .armed watched port) :
    Plain [event] := by
  intro watched port listed
  exact plain watched port (List.mem_singleton.mp listed).symm

theorem Linked.note (linked : Linked loose process) {event : Note}
    (plain : ∀ watched port, event ≠ .armed watched port) : Linked loose (process.note event) :=
  @Linked.keep loose process (process.note event) linked (fun _ => SameLinks.refl _) rfl rfl [event]
    rfl (plain_single plain)

theorem Confined.note (confined : Confined process) {event : Note}
    (within : event.Confined process.history) : Confined (process.note event) := by
  apply confined.append rfl
  intro other listed
  rw [List.mem_singleton.mp listed]
  exact within.later (List.prefix_append _ _)

theorem Keeps.note {base : Nat} {event : Note} (plain : ∀ watched port, event ≠ .armed watched port)
    (within : Linked [] process → event.Confined process.history) :
    Keeps base process (process.note event) where
  links := fun linked confined => ⟨linked.note plain, confined.note (within linked)⟩
  traced := Traced.note _ _

theorem Keeps.setObject {base : Nat} (slot : Nat) {change : ObjectRecord → ObjectRecord}
    (links : ∀ record, SameLinks record (change record))
    (signals : ∀ record, (change record).signals = record.signals)
    (queue : ∀ record, (change record).queue = record.queue) :
    Keeps base process (process.setObject slot change) := by
  have objects : ∀ other, SameLinks (process.object other)
      ((process.setObject slot change).object other) := by
    intro other
    rw [Tessera.object_setObject]
    split
    · exact links _
    · exact SameLinks.refl _
  refine ⟨?_, ?_⟩
  · intro linked confined
    constructor
    · exact linked.keep objects rfl (process.setObject_length slot change)
        (List.append_nil _).symm fun _ _ => List.not_mem_nil
    · exact confined
  · apply Traced.of_same (fun other => (objects other).objectId) List.prefix_rfl
    · intro other
      rw [Tessera.object_setObject]
      split
      · exact signals _
      · rfl
    · intro other
      rw [Tessera.object_setObject]
      split
      · exact queue _
      · rfl

/-! ## Giving up a reference -/

theorem cancelWaiter_disarms (slot index : Nat) (waiter : Waiter)
    (found : ((cancelWaiter slot process index).object slot).waiters[index]? = some waiter) :
    waiter.live = false := by
  unfold cancelWaiter at found
  split at found
  · rename_i absent
    rw [absent] at found
    cases found
  · rename_i earlier foundBefore
    split at found
    · have effects := @tessDeliverToPort_effects process.history.length
        ((process.noteFired slot index earlier.portSlot).disarm slot index) earlier.portSlot
        (completionCancelled earlier.key .signal)
        ((follows_disarm _ _ _).old (old_note _ _))
        ((reached_noteFired _ _ _ (Nat.le_refl _)).later (follows_disarm _ _ _))
      rcases (effects.follows.objects slot).waiters index waiter found with ⟨middle, here, _, armed⟩
      have inside : slot < process.objects.length := by
        by_contra outside
        rw [process.object_outside (Nat.not_lt.mp outside)] at foundBefore
        cases foundBefore
      have disarmed : middle.live = false := by
        simp only [Tessera.disarm, Tessera.object_setObject, Tessera.noteFired] at here
        rw [if_pos ⟨trivial, inside⟩] at here
        simp only [Tessera.note_object, List.getElem?_modify] at here
        rcases Option.map_eq_some_iff.mp here with ⟨_, _, same⟩
        rw [← same]
        rfl
      cases live : waiter.live with
      | false => rfl
      | true =>
        rw [armed live] at disarmed
        cases disarmed
    · rename_i gone
      rw [foundBefore] at found
      rw [← Option.some.inj found]
      simpa using gone

theorem cancelled_dead (slot : Nat) (waiter : Waiter)
    (listed : waiter ∈ ((cancelled process slot).object slot).waiters) : waiter.live = false := by
  have folded : ∀ (indices : List Nat) (start : Tessera) (index : Nat), index ∈ indices →
      ∀ waiter : Waiter,
        ((indices.foldl (cancelWaiter slot) start).object slot).waiters[index]? = some waiter →
        waiter.live = false := by
    intro indices
    induction indices with
    | nil => exact fun _ _ listed => absurd listed List.not_mem_nil
    | cons first rest ih =>
      intro start index listed waiter found
      rcases List.mem_cons.mp listed with here | later
      · have effects := @effects_foldl 0 (cancelWaiter slot start first) Nat _
          (cancelWaiter_effects slot) rest (Nat.zero_le _)
        rcases (effects.follows.objects slot).waiters index waiter found with
          ⟨middle, foundMiddle, _, armed⟩
        rw [here] at foundMiddle
        have disarmed := cancelWaiter_disarms slot first middle foundMiddle
        cases live : waiter.live with
        | false => rfl
        | true =>
          rw [armed live] at disarmed
          cases disarmed
      · exact ih _ index later waiter found
  rcases List.mem_iff_getElem?.mp listed with ⟨index, found⟩
  have effects := @cancelled_effects process 0 slot (Nat.zero_le _)
  have inside := (List.getElem?_eq_some_iff.mp found).1
  rw [(effects.follows.objects slot).length] at inside
  exact folded _ process index (List.mem_range.mpr inside) waiter found

theorem Linked.destroy (linked : Linked loose process) (slot : Nat)
    (quiet : ∀ waiter ∈ (process.object slot).waiters, waiter.live = false) :
    Linked loose (destroyed process slot) := by
  have object : ∀ other, (destroyed process slot).object other =
      { process.object other with
        live := if slot = other ∧ other < process.objects.length then false
          else (process.object other).live } := by
    intro other
    rw [destroyed, Tessera.object_setObject]
    split <;> rfl
  have live : ∀ other, ((destroyed process slot).object other).live = true →
      (process.object other).live = true := by
    intro other alive
    rw [object] at alive
    simp only at alive
    split at alive
    · cases alive
    · exact alive
  refine
    { ids := ?ids
      distinct := ?distinct
      pairs := ?pairs
      peers := ?peers
      armed := ?armed
      waiters := ?waiters
      dead := ?dead
      fresh := linked.fresh
      inside := ?inside }
  case ids =>
    intro other alive
    have before := live other alive
    rw [object]
    exact linked.ids other before
  case distinct =>
    intro first second liveFirst liveSecond same
    rw [object, object] at same
    exact linked.distinct first second (live first liveFirst) (live second liveSecond) same
  case pairs =>
    intro other alive
    have before := live other alive
    rw [object]
    exact linked.pairs other before
  case peers =>
    intro other alive
    have before := live other alive
    rw [object, object]
    exact linked.peers other before
  case armed =>
    intro other alive
    have before := live other alive
    rw [object]
    exact linked.armed other before
  case waiters =>
    intro other index waiter alive
    have before := live other alive
    rw [object, object]
    exact linked.waiters other index waiter before
  case dead =>
    intro other gone waiter listed
    rw [object] at gone listed
    by_cases here : slot = other
    · rw [here] at quiet
      exact quiet waiter listed
    · rw [if_neg fun both => here both.1] at gone
      exact linked.dead other gone waiter listed
  case inside =>
    intro other named
    rcases named with ⟨referrer, alive, refers⟩
    rw [object] at refers
    rw [destroyed, Tessera.setObject_length]
    exact linked.inside other ⟨referrer, live referrer alive, refers⟩

theorem tellPeer_traced (slot : Nat) (peer : Int) (old : base ≤ process.history.length) :
    Traced base process (tellPeer process slot peer) := by
  rcases tellPeer_cases slot peer old with same | ⟨_, _, effects⟩
  · rw [same]
    exact Traced.refl _
  · exact (Traced.note _ _).trans effects.traced

theorem tellPeer_links (slot : Nat) (peer : Int) (linked : Linked [] process)
    (confined : Confined process)
    (partners : 0 ≤ peer → Partners process.history
      (process.object slot).objectId (process.object peer.toNat).objectId) :
    Linked [] (tellPeer process slot peer) ∧ Confined (tellPeer process slot peer) := by
  rcases @tellPeer_cases process 0 slot peer (Nat.zero_le _) with same | ⟨positive, live, effects⟩
  · rw [same]
    exact ⟨linked, confined⟩
  · let event : Note := .peerClosed (process.object slot).objectId
      (process.object peer.toNat).objectId (process.object peer.toNat).live
    have linkedNote := @Linked.note [] process linked event fun _ _ same => Note.noConfusion same
    have confinedNote := @Confined.note process confined event ⟨partners positive, live⟩
    exact ⟨effects.linked linkedNote, effects.confined linkedNote confinedNote⟩

/-- Giving up a reference to something live. -/
theorem keeps_drop (slot : Nat) (live : (process.object slot).live = true)
    (old : base ≤ process.history.length) : Keeps base process (tessDropObject process slot) := by
  have fewer : Keeps base process (released process slot) :=
    Keeps.setObject slot
      (fun record => ⟨rfl, rfl, rfl, rfl, rfl, (SameLinks.refl record).waiters⟩)
      (fun _ => rfl) fun _ => rfl
  by_cases more : 0 < ((released process slot).object slot).refcount
  · rw [tessDropObject_kept more]
    exact fewer
  · rw [tessDropObject_gone more]
    have effects := @cancelled_effects (released process slot) base slot old
    have gone : Traced base (cancelled (released process slot) slot)
        (destroyed (cancelled (released process slot) slot) slot) := by
      apply Traced.of_same
      · intro other
        rw [destroyed, Tessera.object_setObject]
        split <;> rfl
      · exact List.prefix_rfl
      · intro other
        rw [destroyed, Tessera.object_setObject]
        split <;> rfl
      · intro other
        rw [destroyed, Tessera.object_setObject]
        split <;> rfl
    have later : base ≤ (destroyed (cancelled (released process slot) slot) slot).history.length :=
      effects.follows.old old
    refine ⟨?_, ((fewer.traced.trans effects.traced).trans gone).trans (tellPeer_traced _ _ later)⟩
    intro linked confined
    rcases fewer.links linked confined with ⟨linkedFewer, confinedFewer⟩
    have linkedCancelled := effects.linked linkedFewer
    have liveCancelled : ((cancelled (released process slot) slot).object slot).live = true := by
      rw [(effects.follows.objects slot).live, released_object _ _ _ (process.inside_of_live live),
        if_pos rfl]
      exact live
    apply tellPeer_links
    · exact linkedCancelled.destroy slot fun waiter listed => cancelled_dead slot waiter listed
    · exact effects.confined linkedFewer confinedFewer
    · intro positive
      have partners := linkedCancelled.peers slot liveCancelled positive
      rw [gone.ids, gone.ids]
      exact partners

/-! ## Handles -/

theorem keeps_closeSlot (slot : Nat) : Keeps base process (process.closeSlot slot) where
  links := by
    intro linked confined
    exact ⟨@Linked.keep [] process (process.closeSlot slot) linked (fun _ => SameLinks.refl _) rfl rfl
      [] (List.append_nil _).symm fun _ _ => List.not_mem_nil, confined⟩
  traced := .of_same (fun _ => rfl) List.prefix_rfl (fun _ => rfl) fun _ => rfl

theorem addHandle_same (minted : tessAddHandle process objectSlot rights = some (handle, after))
    (slot : Nat) :
    SameLinks (process.object slot) (after.object slot) ∧
      (after.object slot).signals = (process.object slot).signals ∧
      (after.object slot).queue = (process.object slot).queue := by
  rw [(tessAddHandle_cases minted).1]
  split
  · exact ⟨⟨rfl, rfl, rfl, rfl, rfl, (SameLinks.refl (process.object slot)).waiters⟩, rfl, rfl⟩
  · exact ⟨SameLinks.refl _, rfl, rfl⟩

theorem Linked.addHandle (linked : Linked loose process)
    (minted : tessAddHandle process objectSlot rights = some (handle, after)) :
    Linked loose after := by
  rcases tessAddHandle_cases minted with ⟨_, length, next, history, _⟩
  apply linked.keep (fun slot => (addHandle_same minted slot).1) next length
    (history.trans (List.append_nil _).symm)
  exact fun _ _ => List.not_mem_nil

theorem traced_addHandle (minted : tessAddHandle process objectSlot rights = some (handle, after)) :
    Traced base process after := by
  apply Traced.of_same
  · exact fun slot => (addHandle_same minted slot).1.objectId
  · rw [(tessAddHandle_cases minted).2.2.2.1]
  · exact fun slot => (addHandle_same minted slot).2.1
  · exact fun slot => (addHandle_same minted slot).2.2

theorem Confined.of_history (confined : Confined process)
    (same : after.history = process.history) : Confined after := by
  unfold Confined
  rw [same]
  exact confined

theorem keeps_addHandle (minted : tessAddHandle process objectSlot rights = some (handle, after)) :
    Keeps base process after where
  links := fun linked confined =>
    ⟨linked.addHandle minted, confined.of_history (tessAddHandle_cases minted).2.2.2.1⟩
  traced := traced_addHandle minted

/-! ## Waiting -/

section Arm

variable {objectSlot portSlot : Nat} (key : Key) (mask : Signals) (optionCode : Nat)

theorem armed_object (inside : objectSlot < process.objects.length) (other : Nat) :
    (armed process objectSlot portSlot key mask optionCode).object other =
      if objectSlot = other then
        { process.object other with
          waiters := (process.object other).waiters ++ [⟨true, portSlot, key, mask, optionCode⟩] }
      else process.object other := by
  by_cases here : objectSlot = other
  · rw [here] at inside
    simp [armed, Tessera.object_setObject, here, inside]
  · simp [armed, Tessera.object_setObject, here]

theorem armed_objectId (other : Nat) :
    ((armed process objectSlot portSlot key mask optionCode).object other).objectId =
      (process.object other).objectId := by
  rw [armed, Tessera.note_object, Tessera.object_setObject]
  split <;> rfl

theorem armed_live (other : Nat) :
    ((armed process objectSlot portSlot key mask optionCode).object other).live =
      (process.object other).live := by
  rw [armed, Tessera.note_object, Tessera.object_setObject]
  split <;> rfl

theorem armed_ports (linked : Linked [] process) (live : (process.object objectSlot).live = true)
    {other : Nat} (liveOther : (process.object other).live = true) :
    armedPorts (armed process objectSlot portSlot key mask optionCode).history
        (process.object other).objectId =
      armedPorts process.history (process.object other).objectId ++
        if objectSlot = other then [(process.object portSlot).objectId] else [] := by
  rw [armed, Tessera.note, armedPorts_append]
  by_cases here : objectSlot = other
  · simp [armedPorts, Note.armedFor, here]
  · have apart : (process.object objectSlot).objectId ≠ (process.object other).objectId :=
      fun same => here (linked.distinct objectSlot other live liveOther same)
    simp [armedPorts, Note.armedFor, here, apart]

theorem linked_arm (linked : Linked [] process) (live : (process.object objectSlot).live = true)
    (port : portSlot < process.objects.length) :
    Linked [] (armed process objectSlot portSlot key mask optionCode) := by
  have object := @armed_object process objectSlot portSlot key mask optionCode
    (process.inside_of_live live)
  have before : process.history <+: (armed process objectSlot portSlot key mask optionCode).history :=
    List.prefix_append _ _
  refine
    { ids := ?ids
      distinct := ?distinct
      pairs := ?pairs
      peers := ?peers
      armed := ?armed
      waiters := ?waiters
      dead := ?dead
      fresh := ?fresh
      inside := ?inside }
  case ids =>
    intro slot alive
    rw [armed_live] at alive
    rw [armed_objectId]
    exact linked.ids slot alive
  case distinct =>
    intro first second liveFirst liveSecond same
    rw [armed_live] at liveFirst liveSecond
    rw [armed_objectId, armed_objectId] at same
    exact linked.distinct first second liveFirst liveSecond same
  case pairs =>
    intro slot alive type tight
    rw [armed_live] at alive
    rw [object] at type ⊢
    split at type
    · rename_i here
      rw [if_pos here]
      exact linked.pairs slot alive type tight
    · rename_i apart
      rw [if_neg apart]
      exact linked.pairs slot alive type tight
  case peers =>
    intro slot alive peer
    have same : ((armed process objectSlot portSlot key mask optionCode).object slot).peerSlot =
        (process.object slot).peerSlot := by
      rw [object]
      split <;> rfl
    rw [armed_live] at alive
    rw [same] at peer ⊢
    rw [armed_objectId, armed_objectId]
    exact (linked.peers slot alive peer).later before
  case armed =>
    intro slot alive
    rw [armed_live] at alive
    rw [armed_objectId, armed_ports key mask optionCode linked live alive, object,
      List.length_append, linked.armed slot alive]
    split <;> simp
  case waiters =>
    intro slot index waiter alive found armedNow
    rw [armed_live] at alive
    rw [armed_objectId, armed_objectId, armed_ports key mask optionCode linked live alive]
    rw [object] at found
    by_cases here : objectSlot = slot
    · rw [if_pos here] at found ⊢
      have length := linked.armed slot alive
      by_cases old : index < (process.object slot).waiters.length
      · rw [List.getElem?_append_left old] at found
        rw [List.getElem?_append_left (by omega)]
        exact linked.waiters slot index waiter alive found armedNow
      · have last := (List.getElem?_eq_some_iff.mp found).1
        rw [List.length_append, List.length_singleton] at last
        have here : index = (process.object slot).waiters.length := by omega
        rw [here, List.getElem?_concat_length] at found
        rw [here, ← length, List.getElem?_concat_length, ← Option.some.inj found]
    · rw [if_neg here] at found ⊢
      rw [List.append_nil]
      exact linked.waiters slot index waiter alive found armedNow
  case dead =>
    intro slot gone waiter listed
    rw [armed_live] at gone
    rw [object] at listed
    split at listed
    · rename_i here
      rw [here, gone] at live
      cases live
    · exact linked.dead slot gone waiter listed
  case fresh =>
    intro watched target listed
    rcases List.mem_append.mp listed with old | new
    · exact linked.fresh watched target old
    · cases List.mem_singleton.mp new
      exact linked.ids objectSlot live
  case inside =>
    intro slot named
    have length : (armed process objectSlot portSlot key mask optionCode).objects.length =
        process.objects.length := process.setObject_length _ _
    rw [length]
    rcases named with ⟨other, alive, refers⟩
    rw [armed_live] at alive
    rw [object] at refers
    split at refers
    · rcases refers with peer | ⟨waiter, listed, armedNow, target⟩
      · exact linked.inside slot ⟨other, alive, Or.inl peer⟩
      · rcases List.mem_append.mp listed with old | new
        · exact linked.inside slot ⟨other, alive, Or.inr ⟨waiter, old, armedNow, target⟩⟩
        · rw [List.mem_singleton.mp new] at target
          rw [← target]
          exact port
    · exact linked.inside slot ⟨other, alive, refers⟩

theorem confined_arm (confined : Confined process) :
    Confined (armed process objectSlot portSlot key mask optionCode) := by
  apply confined.append rfl
  intro event listed
  rw [List.mem_singleton.mp listed]
  trivial

theorem keeps_arm {base : Nat} (live : (process.object objectSlot).live = true)
    (port : portSlot < process.objects.length) (old : base ≤ process.history.length) :
    Keeps base process (tessArm process objectSlot portSlot key mask optionCode) := by
  have longer : base ≤ (armed process objectSlot portSlot key mask optionCode).history.length := by
    simp only [armed, Tessera.note, Tessera.setObject_history, List.length_append]
    omega
  have effects := tessArm_effects process objectSlot portSlot key mask optionCode longer
  have start : Keeps base process (armed process objectSlot portSlot key mask optionCode) := by
    constructor
    · exact fun linked confined =>
        ⟨linked_arm key mask optionCode linked live port, confined_arm key mask optionCode confined⟩
    · apply Traced.of_same
      · exact armed_objectId key mask optionCode
      · exact List.prefix_append _ _
      · intro slot
        rw [armed, Tessera.note_object, Tessera.object_setObject]
        split <;> rfl
      · intro slot
        rw [armed, Tessera.note_object, Tessera.object_setObject]
        split <;> rfl
  exact start.trans effects.keeps

end Arm

/-! ## Creation -/

theorem tessAddObject_first {objectType : ObjectType} {initial : Signals} {peerSlot : Int}
    (placed : tessAddObject process objectType initial peerSlot = some (slot, after)) :
    (∀ lower, lower < slot → (process.object lower).live = true) ∧
      process.objects.length ≤ after.objects.length := by
  unfold tessAddObject at placed
  split at placed
  · dsimp only at placed
    split at placed
    · rename_i searched
      cases placed
      rcases List.findIdx?_eq_some_iff_getElem.mp searched with ⟨inside, _, lowerLive⟩
      constructor
      · intro lower below
        have taken := lowerLive lower below
        have insideLower : lower < process.objects.length := Nat.lt_trans below inside
        simpa [Tessera.object, List.getD_eq_getElem?_getD, insideLower] using taken
      · simp
    · rename_i searched
      cases placed
      constructor
      · intro lower below
        have taken := List.findIdx?_eq_none_iff.mp searched process.objects[lower]
          (List.getElem_mem below)
        simpa [Tessera.object, List.getD_eq_getElem?_getD, below] using taken
      · simp
  · cases placed

theorem Linked.addObject {objectType : ObjectType} {initial : Signals} {peerSlot : Int}
    {tight : List Nat} (linked : Linked loose process)
    (placed : tessAddObject process objectType initial peerSlot = some (slot, after))
    (unnamed : ¬ Named process slot) (more : loose ⊆ tight)
    (single : objectType = .eventPair → slot ∉ tight → 0 ≤ peerSlot)
    (partner : 0 ≤ peerSlot → peerSlot.toNat ≠ slot ∧ peerSlot.toNat < process.objects.length ∧
      Partners process.history process.nextObjectId (process.object peerSlot.toNat).objectId) :
    Linked tight after := by
  rcases tessAddObject_cases placed with ⟨_, history, next, _, inside, objects⟩
  have longer := (tessAddObject_first placed).2
  have new : after.object slot =
      ⟨true, objectType, 0, initial, "", process.nextObjectId, peerSlot, [], 0, []⟩ := by
    rw [objects, if_pos rfl]
  have others : ∀ other, other ≠ slot → after.object other = process.object other := by
    intro other apart
    rw [objects, if_neg apart]
  refine
    { ids := ?ids
      distinct := ?distinct
      pairs := ?pairs
      peers := ?peers
      armed := ?armed
      waiters := ?waiters
      dead := ?dead
      fresh := ?fresh
      inside := ?inside }
  case ids =>
    intro other alive
    rw [next]
    by_cases here : other = slot
    · rw [here, new]
      exact Nat.lt_succ_self _
    · rw [others other here] at alive ⊢
      exact Nat.lt_succ_of_lt (linked.ids other alive)
  case distinct =>
    intro first second liveFirst liveSecond same
    by_cases firstNew : first = slot
    · by_cases secondNew : second = slot
      · rw [firstNew, secondNew]
      · rw [firstNew, new, others second secondNew] at same
        rw [others second secondNew] at liveSecond
        have below := linked.ids second liveSecond
        simp only at same
        omega
    · rw [others first firstNew] at liveFirst same
      by_cases secondNew : second = slot
      · rw [secondNew, new] at same
        have below := linked.ids first liveFirst
        simp only at same
        omega
      · rw [others second secondNew] at liveSecond same
        exact linked.distinct first second liveFirst liveSecond same
  case pairs =>
    intro other alive type outside
    by_cases here : other = slot
    · rw [here, new] at type
      rw [here] at outside
      rw [here, new]
      exact single type outside
    · rw [others other here] at alive type ⊢
      exact linked.pairs other alive type fun listed => outside (more listed)
  case peers =>
    intro other alive peer
    rw [history]
    by_cases here : other = slot
    · rw [here, new] at peer ⊢
      rcases partner peer with ⟨apart, _, partners⟩
      rw [others _ apart]
      exact partners
    · rw [others other here] at alive peer ⊢
      have apart : (process.object other).peerSlot.toNat ≠ slot := by
        intro same
        apply unnamed
        exact ⟨other, alive, Or.inl (by omega)⟩
      rw [others _ apart]
      exact linked.peers other alive peer
  case armed =>
    intro other alive
    rw [history]
    by_cases here : other = slot
    · rw [here, new]
      have none : armedPorts process.history process.nextObjectId = [] := by
        rw [armedPorts, List.filterMap_eq_nil_iff]
        intro event listed
        cases event with
        | armed watched port =>
          have below := linked.fresh watched port listed
          exact if_neg (Nat.ne_of_lt below)
        | _ => rfl
      rw [none]
      rfl
    · rw [others other here] at alive ⊢
      exact linked.armed other alive
  case waiters =>
    intro other index waiter alive found armedNow
    rw [history]
    by_cases here : other = slot
    · rw [here, new] at found
      simp at found
    · rw [others other here] at alive found ⊢
      have apart : waiter.portSlot ≠ slot := by
        intro same
        apply unnamed
        exact ⟨other, alive, Or.inr ⟨waiter, List.mem_of_getElem? found, armedNow, same⟩⟩
      rw [others _ apart]
      exact linked.waiters other index waiter alive found armedNow
  case dead =>
    intro other gone waiter listed
    by_cases here : other = slot
    · rw [here, new] at gone
      cases gone
    · rw [others other here] at gone listed
      exact linked.dead other gone waiter listed
  case fresh =>
    intro watched port listed
    rw [history] at listed
    rw [next]
    exact Nat.lt_succ_of_lt (linked.fresh watched port listed)
  case inside =>
    intro other named
    rcases named with ⟨referrer, alive, refers⟩
    by_cases here : referrer = slot
    · rw [here, new] at refers
      rcases refers with peer | ⟨waiter, listed, _⟩
      · simp only at peer
        have bound := (partner (by omega)).2.1
        omega
      · cases listed
    · rw [others referrer here] at alive refers
      exact Nat.lt_of_lt_of_le (linked.inside other ⟨referrer, alive, refers⟩) longer

end LibTessera

end KiraVm
