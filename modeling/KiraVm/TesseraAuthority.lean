import KiraVm.TesseraConfinement

/-!
# What the calls of a process reach

As long as no call creates an object in a slot that something live still refers to,
every call reaches only what was made for it.
-/

namespace KiraVm

namespace LibTessera

variable {process middle after : Tessera}

/-! ## Handles and their rights -/

def Call.source : Call → Option Handle
  | .handleDuplicate handle _ => some handle
  | .handleReplace handle _ => some handle
  | _ => none

/-- A live entry was there before, is for a new object, or has no rights that the handle
it was made from lacks. -/
def Granted (call : Call) (process after : Tessera) : Prop :=
  ∀ (slot : Nat) (entry : HandleSlot), after.handles[slot]? = some entry → entry.live = true →
    process.handles[slot]? = some entry ∨
      (process.object entry.objectSlot).live = false ∧ entry.rights = rightsDefault ∨
      ∃ handle source, call.source = some handle ∧ tessResolve process handle = some source ∧
        entry.objectSlot = (process.entry source).objectSlot ∧
        rightsSubset entry.rights (process.entry source).rights = true

/-- No handle is new. -/
def Closes (process after : Tessera) : Prop :=
  ∀ (slot : Nat) (entry : HandleSlot), after.handles[slot]? = some entry → entry.live = true →
    process.handles[slot]? = some entry

theorem Closes.granted (closes : Closes process after) (call : Call) : Granted call process after :=
  fun slot entry found live => Or.inl (closes slot entry found live)

theorem Closes.of_handles (same : after.handles = process.handles) : Closes process after := by
  intro slot entry found _
  rw [← same]
  exact found

theorem Closes.trans (first : Closes process middle) (second : Closes middle after) :
    Closes process after :=
  fun slot entry found live => first slot entry (second slot entry found live) live

theorem Closes.of_effects {base : Nat} (effects : Effects base process after) :
    Closes process after :=
  .of_handles effects.follows.handles

theorem closes_closeResolved (slot objectSlot : Nat) :
    Closes process (closeResolved process slot objectSlot) := by
  intro other entry found live
  rw [closeResolved, tessDropObject_handles, Tessera.closeSlot, List.getElem?_set] at found
  split at found
  · split at found
    · rw [← Option.some.inj found] at live
      cases live
    · cases found
  · exact found

theorem closes_closeListed (handles : List Handle) (state : Bool × Tessera) :
    Closes state.2 (handles.foldl closeListed state).2 := by
  induction handles generalizing state with
  | nil => exact .of_handles rfl
  | cons handle handles ih =>
    have first : Closes state.2 (closeListed state handle).2 := by
      unfold closeListed
      split
      · exact .of_handles rfl
      · exact closes_closeResolved _ _
    exact first.trans (ih _)

theorem Granted.closes {call : Call} (granted : Granted call process middle)
    (closes : Closes middle after) : Granted call process after :=
  fun slot entry found live => granted slot entry (closes slot entry found live) live

variable {objectSlot : Nat} {rights : Rights} {handle : Handle} {call : Call} {slot : Nat}
  {initial : Signals} {answered : Reply × Tessera}

theorem addHandle_entry (minted : tessAddHandle process objectSlot rights = some (handle, after))
    (slot : Nat) (entry : HandleSlot) (found : after.handles[slot]? = some entry) :
    process.handles[slot]? = some entry ∨
      entry.objectSlot = objectSlot ∧ entry.rights = rights := by
  rcases tessAddHandle_cases minted with ⟨_, _, _, _, place, generation, _, placed⟩
  rcases placed with ⟨_, _, _, _, same⟩ | ⟨_, _, same⟩
  · rw [same, List.getElem?_set] at found
    split at found
    · split at found
      · rw [← Option.some.inj found]
        exact Or.inr ⟨rfl, rfl⟩
      · cases found
    · exact Or.inl found
  · rw [same, List.getElem?_append] at found
    split at found
    · exact Or.inl found
    · rcases List.getElem?_eq_some_iff.mp found with ⟨inside, last⟩
      rw [List.length_singleton] at inside
      rw [List.getElem_singleton] at last
      rw [← last]
      exact Or.inr ⟨rfl, rfl⟩

/-! ## What a call accounts for -/

def freeBefore (process : Tessera) (slot : Nat) : Nat :=
  (List.range slot).countP fun lower => !(process.object lower).live

/-- Nothing live refers to the first free slots. -/
def Spares (count : Nat) (process : Tessera) : Prop :=
  ∀ slot, (process.object slot).live = false → freeBefore process slot < count →
    ¬ Named process slot

def Call.created : Call → Nat
  | .portCreate => 1
  | .eventCreate _ => 1
  | .eventPairCreate => 2
  | _ => 0

/-- What is live stays what it is, and when its signals or its queue change, something
is noted to have reached it. -/
def Recorded (process after : Tessera) : Prop :=
  ∀ slot, (process.object slot).live = true →
    (after.object slot).objectId = (process.object slot).objectId ∧
      ((after.object slot).signals ≠ (process.object slot).signals ∨
          (after.object slot).queue ≠ (process.object slot).queue →
        ∃ event ∈ after.history.drop process.history.length,
          event.target = some (process.object slot).objectId)

/-- What a call does to the references, the objects and the handles. -/
structure Accounted (call : Call) (process after : Tessera) : Prop where
  links : Spares call.created process → Linked [] process → Confined process →
    Linked [] after ∧ Confined after
  recorded : Recorded process after
  granted : Granted call process after

theorem Keeps.accounted (keeps : Keeps process.history.length process after)
    (granted : Granted call process after) : Accounted call process after where
  links := fun _ => keeps.links
  recorded := fun slot _ => ⟨keeps.traced.ids slot, keeps.traced.changed slot⟩
  granted := granted

theorem Accounted.refl (call : Call) (process : Tessera) : Accounted call process process :=
  (Keeps.refl process).accounted ((Closes.of_handles rfl).granted call)

theorem Balanced.resolved (balanced : Balanced (fun _ => 0) [] process)
    (resolved : tessResolve process handle = some slot) :
    (process.object (process.entry slot).objectSlot).live = true := by
  rcases tessResolve_some resolved with ⟨entry, found, live, _, _, same⟩
  rw [balanced.live, same]
  left
  have present : 0 < handleCount process entry.objectSlot :=
    List.countP_pos_iff.mpr ⟨entry, List.mem_of_getElem? found, by simp [live]⟩
  omega

/-! ## Calls that create nothing -/

theorem keeps_closeResolved {base slot objectSlot : Nat}
    (live : (process.object objectSlot).live = true) (old : base ≤ process.history.length) :
    Keeps base process (closeResolved process slot objectSlot) := by
  have closed : Keeps base process (process.closeSlot slot) := keeps_closeSlot slot
  exact closed.trans (keeps_drop objectSlot live old)

theorem keeps_closeListed {base : Nat} (handles : List Handle) (state : Bool × Tessera)
    (balanced : Balanced (fun _ => 0) [] state.2) (old : base ≤ state.2.history.length) :
    Keeps base state.2 (handles.foldl closeListed state).2 := by
  induction handles generalizing state with
  | nil => exact Keeps.refl _
  | cons handle handles ih =>
    have first : Keeps base state.2 (closeListed state handle).2 := by
      unfold closeListed
      cases resolved : tessResolve state.2 handle with
      | none => exact Keeps.refl _
      | some slot => exact keeps_closeResolved (balanced.resolved resolved) old
    have next : Balanced (fun _ => 0) [] (closeListed state handle).2 := by
      have step := closeListed_step [handle] state
      exact step.balanced balanced
    exact first.trans (ih _ next (old.trans first.traced.history.length_le))

theorem rightsSubset_and {sub sup : Rights} (subset : rightsSubset sub sup = true) :
    sub &&& sup = sub := by
  simpa [rightsSubset] using subset

theorem keeps_derived {base objectSlot : Nat} {source rights : Rights} {minted : Handle}
    (subset : rightsSubset rights source = true)
    (added : tessAddHandle (process.note (.derived source rights)) objectSlot rights =
      some (minted, after)) : Keeps base process after := by
  have noted : Keeps base process (process.note (.derived source rights)) :=
    Keeps.note (fun _ _ same => Note.noConfusion same) fun _ => rightsSubset_and subset
  exact noted.trans (keeps_addHandle added)

theorem granted_derived {minted : Handle} {event : Note} (sourced : call.source = some handle)
    (resolved : tessResolve process handle = some slot)
    (subset : rightsSubset rights (process.entry slot).rights = true)
    (added : tessAddHandle (process.note event) (process.entry slot).objectSlot rights =
      some (minted, after)) : Granted call process after := by
  intro other entry found _
  rcases addHandle_entry added other entry found with before | ⟨names, same⟩
  · exact Or.inl before
  · right
    right
    refine ⟨handle, slot, sourced, resolved, names, ?_⟩
    rw [same]
    exact subset

/-! ## Calls that create something -/

theorem addObject_kept {objectType : ObjectType} {initial : Signals} {peerSlot : Int}
    {slot other : Nat}
    (placed : tessAddObject process objectType initial peerSlot = some (slot, after))
    (live : (process.object other).live = true) : after.object other = process.object other := by
  rcases tessAddObject_cases placed with ⟨_, _, _, dead, _, objects⟩
  rw [objects, if_neg]
  intro here
  rw [here, dead] at live
  cases live

theorem freeBefore_first {objectType : ObjectType} {peerSlot : Int}
    (placed : tessAddObject process objectType initial peerSlot = some (slot, after)) :
    freeBefore process slot = 0 := by
  rw [freeBefore, List.countP_eq_zero]
  intro lower listed
  rw [(tessAddObject_first placed).1 lower (List.mem_range.mp listed)]
  decide

theorem freeBefore_second {firstType secondType : ObjectType} {other : Signals}
    {firstPeer secondPeer : Int} {first second : Nat}
    (placedFirst : tessAddObject process firstType initial firstPeer = some (first, middle))
    (placedSecond : tessAddObject middle secondType other secondPeer = some (second, after)) :
    freeBefore process second ≤ 1 := by
  have objects := (tessAddObject_cases placedFirst).2.2.2.2.2
  have fewer : freeBefore process second ≤ (List.range second).countP fun lower => lower == first := by
    apply List.countP_mono_left
    intro lower listed free
    have live := (tessAddObject_first placedSecond).1 lower (List.mem_range.mp listed)
    by_cases here : lower = first
    · rw [here]
      exact beq_self_eq_true first
    · rw [objects, if_neg here] at live
      rw [live] at free
      cases free
  exact fewer.trans (List.nodup_iff_count_le_one.mp List.nodup_range first)

theorem granted_new (dead : (process.object objectSlot).live = false)
    (granted : Granted call process middle)
    (added : tessAddHandle middle objectSlot rightsDefault = some (handle, after)) :
    Granted call process after := by
  intro slot entry found live
  rcases addHandle_entry added slot entry found with before | ⟨names, rights⟩
  · exact granted slot entry before live
  · right
    left
    rw [names]
    exact ⟨dead, rights⟩

theorem Recorded.of_same (same : ∀ slot, (process.object slot).live = true →
    (after.object slot).objectId = (process.object slot).objectId ∧
      (after.object slot).signals = (process.object slot).signals ∧
      (after.object slot).queue = (process.object slot).queue) : Recorded process after := by
  intro slot live
  rcases same slot live with ⟨objectId, signals, queue⟩
  refine ⟨objectId, ?_⟩
  rintro (changed | changed)
  · exact absurd signals changed
  · exact absurd queue changed

theorem created_accounted {objectType : ObjectType} (single : objectType ≠ .eventPair)
    (one : call.created = 1) (run : (do
      let (objectSlot, process) ← tessAddObject process objectType initial (-1)
      let (handle, process) ← tessAddHandle process objectSlot rightsDefault
      some ((.ok handle, process) : Except Error Handle × Tessera)).map (answer .handle) =
        some answered) : Accounted call process answered.2 := by
  rcases Option.map_eq_some_iff.mp run with ⟨result, made, same⟩
  rcases Option.bind_eq_some_iff.mp made with ⟨⟨slot, middle⟩, placed, rest⟩
  rcases Option.bind_eq_some_iff.mp rest with ⟨⟨handle, after⟩, added, last⟩
  cases last
  cases same
  rcases tessAddObject_cases placed with ⟨handles, history, _, dead, _, _⟩
  refine
    { links := ?_
      recorded := ?_
      granted := ?_ }
  · intro spares linked confined
    have unnamed : ¬ Named process slot := by
      apply spares slot dead
      rw [freeBefore_first placed, one]
      exact Nat.one_pos
    have placedLinked : Linked [] middle :=
      linked.addObject placed unnamed (List.Subset.refl []) (fun pair => absurd pair single)
        fun positive => absurd positive (by decide)
    exact ⟨placedLinked.addHandle added,
      (confined.of_history history).of_history (tessAddHandle_cases added).2.2.2.1⟩
  · apply Recorded.of_same
    intro other live
    rcases addHandle_same added other with ⟨links, signals, queue⟩
    have kept := addObject_kept placed live
    change (after.object other).objectId = _ ∧ (after.object other).signals = _ ∧
      (after.object other).queue = _
    rw [links.objectId, signals, queue, kept]
    exact ⟨rfl, rfl, rfl⟩
  · exact granted_new dead ((Closes.of_handles handles).granted call) added

/-- An object with another peer. -/
def tied (process : Tessera) (first second : Nat) : Tessera :=
  process.setObject first fun record => { record with peerSlot := second }

theorem tied_object (process : Tessera) (first second slot : Nat) :
    (tied process first second).object slot =
      { process.object slot with
        peerSlot := if first = slot ∧ slot < process.objects.length then second
          else (process.object slot).peerSlot } := by
  rw [tied, Tessera.object_setObject]
  split <;> rfl

theorem Linked.tie {first second : Nat} (linked : Linked [first] process)
    (live : (process.object first).live = true) (inside : second < process.objects.length)
    (partners : Partners process.history (process.object first).objectId
      (process.object second).objectId) : Linked [] (tied process first second) := by
  have insideFirst := process.inside_of_live live
  refine
    { ids := ?ids
      distinct := ?distinct
      pairs := ?pairs
      peers := ?peers
      armed := ?armed
      waiters := ?waiters
      dead := ?dead
      fresh := linked.fresh
      inside := ?inside }
  case ids =>
    intro slot alive
    rw [tied_object] at alive ⊢
    exact linked.ids slot alive
  case distinct =>
    intro one other liveOne liveOther same
    rw [tied_object] at liveOne liveOther
    rw [tied_object, tied_object] at same
    exact linked.distinct one other liveOne liveOther same
  case pairs =>
    intro slot alive type tight
    rw [tied_object] at alive type ⊢
    by_cases here : first = slot
    · rw [← here]
      simp only [insideFirst, and_self, if_true]
      exact Int.natCast_nonneg second
    · simp only [here, false_and, if_false]
      exact linked.pairs slot alive type (by simpa using Ne.symm here)
  case peers =>
    intro slot alive peer
    rw [tied_object] at alive peer ⊢
    rw [tied_object]
    by_cases here : first = slot
    · rw [← here]
      simp only [insideFirst, and_self, if_true, Int.toNat_natCast]
      exact partners
    · simp only [here, false_and, if_false] at peer ⊢
      exact linked.peers slot alive peer
  case armed =>
    intro slot alive
    rw [tied_object] at alive ⊢
    exact linked.armed slot alive
  case waiters =>
    intro slot index waiter alive found armedNow
    rw [tied_object] at alive found ⊢
    rw [tied_object]
    exact linked.waiters slot index waiter alive found armedNow
  case dead =>
    intro slot gone waiter listed
    rw [tied_object] at gone listed
    exact linked.dead slot gone waiter listed
  case inside =>
    intro slot named
    have length : (tied process first second).objects.length = process.objects.length :=
      process.setObject_length _ _
    rw [length]
    rcases named with ⟨other, alive, refers⟩
    rw [tied_object] at alive refers
    rcases refers with peer | waiting
    · by_cases here : first = other
      · rw [← here] at peer
        simp only [insideFirst, and_self, if_true] at peer
        omega
      · simp only [here, false_and, if_false] at peer
        exact linked.inside slot ⟨other, alive, Or.inl peer⟩
    · exact linked.inside slot ⟨other, alive, Or.inr waiting⟩

theorem eventPairCreate_accounted
    (run : (eventPairCreate process).map (answer .pair) = some answered) :
    Accounted .eventPairCreate process answered.2 := by
  unfold eventPairCreate at run
  rcases Option.map_eq_some_iff.mp run with ⟨result, made, same⟩
  rcases Option.bind_eq_some_iff.mp made with ⟨⟨first, one⟩, placedFirst, rest⟩
  rcases Option.bind_eq_some_iff.mp rest with ⟨⟨second, two⟩, placedSecond, rest⟩
  rcases Option.bind_eq_some_iff.mp rest with ⟨⟨handleFirst, three⟩, addedFirst, rest⟩
  rcases Option.bind_eq_some_iff.mp rest with ⟨⟨handleSecond, four⟩, addedSecond, last⟩
  cases last
  cases same
  rcases tessAddObject_cases placedFirst with
    ⟨handlesFirst, historyFirst, nextFirst, deadFirst, insideFirst, objectsFirst⟩
  rcases tessAddObject_cases placedSecond with
    ⟨handlesSecond, historySecond, nextSecond, deadSecond, insideSecond, objectsSecond⟩
  have apart : second ≠ first := by
    intro here
    rw [objectsFirst, if_pos here] at deadSecond
    cases deadSecond
  have deadBefore : (process.object second).live = false := by
    rw [objectsFirst, if_neg apart] at deadSecond
    exact deadSecond
  refine
    { links := ?_
      recorded := ?_
      granted := ?_ }
  · intro spares linked confined
    have unnamedFirst : ¬ Named process first := by
      apply spares first deadFirst
      have none : freeBefore process first = 0 := (freeBefore_first placedFirst :)
      rw [none]
      exact Nat.two_pos
    have unnamedSecond : ¬ Named one second := by
      have before : ¬ Named process second := by
        apply spares second deadBefore
        have few : freeBefore process second ≤ 1 :=
          (freeBefore_second placedFirst placedSecond :)
        exact Nat.lt_succ_of_le few
      rintro ⟨other, alive, refers⟩
      rw [objectsFirst] at alive refers
      by_cases here : other = first
      · rw [if_pos here] at refers
        rcases refers with peer | ⟨_, listed, _⟩
        · simp only at peer
          omega
        · cases listed
      · rw [if_neg here] at alive refers
        exact before ⟨other, alive, refers⟩
    have paired : .paired process.nextObjectId (process.nextObjectId + 1) ∈ two.history := by
      rw [historySecond, historyFirst]
      exact List.mem_append_right _ (List.mem_singleton_self _)
    have idFirst : (one.object first).objectId = process.nextObjectId := by
      rw [objectsFirst, if_pos rfl]
      rfl
    have linkedOne : Linked [first] one := by
      apply (linked.note fun _ _ same => Note.noConfusion same).addObject placedFirst unnamedFirst
        (List.nil_subset _)
      · exact fun _ outside => absurd (List.mem_singleton_self first) outside
      · exact fun positive => absurd positive (by decide)
    have linkedTwo : Linked [first] two := by
      apply linkedOne.addObject placedSecond unnamedSecond (List.Subset.refl _)
      · exact fun _ _ => Int.natCast_nonneg first
      · intro _
        rw [Int.toNat_natCast, idFirst, nextFirst]
        refine ⟨Ne.symm apart, insideFirst, Or.inr ?_⟩
        rw [← historySecond]
        exact paired
    have keptFirst : two.object first = one.object first := by
      rw [objectsSecond, if_neg (Ne.symm apart)]
    have linkedTied : Linked [] (tied two first second) := by
      apply linkedTwo.tie _ insideSecond
      · rw [keptFirst, idFirst, objectsSecond, if_pos rfl, nextFirst]
        exact Or.inl paired
      · rw [keptFirst, objectsFirst, if_pos rfl]
    have confinedTied : Confined (tied two first second) := by
      have noted := @Confined.note process confined
        (.paired process.nextObjectId (process.nextObjectId + 1)) trivial
      exact (noted.of_history historyFirst).of_history historySecond
    exact ⟨(linkedTied.addHandle addedFirst).addHandle addedSecond,
      (confinedTied.of_history (tessAddHandle_cases addedFirst).2.2.2.1).of_history
        (tessAddHandle_cases addedSecond).2.2.2.1⟩
  · apply Recorded.of_same
    intro other live
    rcases addHandle_same addedSecond other with ⟨linksSecond, signalsSecond, queueSecond⟩
    rcases addHandle_same addedFirst other with ⟨linksFirst, signalsFirst, queueFirst⟩
    have kept : two.object other = process.object other := by
      have keptFirst : one.object other = process.object other :=
        @addObject_kept (process.note _) one _ _ _ _ _ placedFirst live
      rw [← keptFirst] at live ⊢
      exact addObject_kept placedSecond live
    have shown := tied_object two first second other
    unfold tied at shown
    change (four.object other).objectId = _ ∧ (four.object other).signals = _ ∧
      (four.object other).queue = _
    rw [linksSecond.objectId, signalsSecond, queueSecond, linksFirst.objectId, signalsFirst,
      queueFirst, shown, kept]
    exact ⟨rfl, rfl, rfl⟩
  · have before : Granted .eventPairCreate process
        (two.setObject first fun record => { record with peerSlot := second }) := by
      apply (Closes.of_handles _).granted
      rw [Tessera.setObject_handles, handlesSecond, handlesFirst]
      rfl
    exact granted_new deadBefore (granted_new deadFirst before addedFirst) addedSecond

/-! ## Every call -/

theorem refused_accounted {α : Type} (call : Call) (reply : α → Reply) (code : ErrorCode) :
    Accounted call process (answer reply (refuse process code)).2 :=
  Accounted.refl call process

theorem handleDuplicate_accounted
    (run : (handleDuplicate process handle rights).map (answer .handle) = some answered) :
    Accounted (.handleDuplicate handle rights) process answered.2 := by
  unfold handleDuplicate at run
  cases resolved : tessResolve process handle with
  | none =>
    rw [resolved] at run
    cases run
    exact refused_accounted _ _ _
  | some slot =>
    rw [resolved] at run
    dsimp only at run
    split at run
    · cases run
      exact refused_accounted _ _ _
    · split at run
      · cases run
        exact refused_accounted _ _ _
      · rename_i subset
        simp only [Bool.not_eq_true', Bool.not_eq_false] at subset
        rcases Option.map_eq_some_iff.mp run with ⟨result, minted, same⟩
        rcases Option.bind_eq_some_iff.mp minted with ⟨⟨value, after⟩, added, rest⟩
        cases rest
        cases same
        exact (keeps_derived subset added).accounted (granted_derived rfl resolved subset added)

theorem handleReplace_accounted (balanced : Balanced (fun _ => 0) [] process)
    (run : (handleReplace process handle rights).map (answer .handle) = some answered) :
    Accounted (.handleReplace handle rights) process answered.2 := by
  unfold handleReplace at run
  cases resolved : tessResolve process handle with
  | none =>
    rw [resolved] at run
    cases run
    exact refused_accounted _ _ _
  | some slot =>
    rw [resolved] at run
    dsimp only at run
    split at run
    · cases run
      exact refused_accounted _ _ _
    · rename_i subset
      simp only [Bool.not_eq_true', Bool.not_eq_false] at subset
      rcases Option.map_eq_some_iff.mp run with ⟨result, minted, same⟩
      rcases Option.bind_eq_some_iff.mp minted with ⟨⟨value, middle⟩, added, rest⟩
      cases rest
      cases same
      have derived := @keeps_derived process middle process.history.length _ _ _ _ subset added
      have live : (middle.object (process.entry slot).objectSlot).live = true := by
        rw [(addHandle_same added _).1.live]
        exact balanced.resolved resolved
      have closed := @keeps_closeResolved middle process.history.length slot _ live
        derived.traced.history.length_le
      exact (derived.trans closed).accounted
        ((granted_derived rfl resolved subset added).closes (closes_closeResolved _ _))

theorem objectSetName_accounted (handle : Handle) (name : String) :
    Accounted (.objectSetName handle name) process
      (answer (fun _ => .done) (objectSetName process handle name)).2 := by
  unfold objectSetName
  split
  · exact refused_accounted _ _ _
  · split
    · exact refused_accounted _ _ _
    · split
      · exact refused_accounted _ _ _
      · have named : ∀ slot, Keeps process.history.length process
            (process.setObject slot fun record => { record with name := name }) := fun slot =>
          Keeps.setObject slot (fun record => ⟨rfl, rfl, rfl, rfl, rfl, (SameLinks.refl record).waiters⟩)
            (fun _ => rfl) fun _ => rfl
        exact (named _).accounted ((Closes.of_handles (process.setObject_handles _ _)).granted _)

theorem tessResolvePort_some (resolved : tessResolvePort process handle = some objectSlot) :
    ∃ slot, tessResolve process handle = some slot ∧
      objectSlot = (process.entry slot).objectSlot := by
  unfold tessResolvePort at resolved
  cases found : tessResolve process handle with
  | none =>
    rw [found] at resolved
    cases resolved
  | some slot =>
    rw [found] at resolved
    dsimp only at resolved
    split at resolved
    · cases resolved
    · exact ⟨slot, rfl, (Option.some.inj resolved).symm⟩

theorem objectWaitAsync_accounted (balanced : Balanced (fun _ => 0) [] process) (handle : Handle)
    (signals : Signals) (options : WaitOptions) (port : Handle) (key : Key) :
    Accounted (.objectWaitAsync handle signals options port key) process
      (answer (fun _ => .done) (objectWaitAsync process handle signals options port key)).2 := by
  unfold objectWaitAsync
  cases resolved : tessResolve process handle with
  | none => exact refused_accounted _ _ _
  | some slot =>
    dsimp only
    split
    · exact refused_accounted _ _ _
    · cases found : tessResolvePort process port with
      | none => exact refused_accounted _ _ _
      | some portSlot =>
        rcases tessResolvePort_some found with ⟨place, resolvedPort, names⟩
        have live := balanced.resolved resolved
        have livePort := balanced.resolved resolvedPort
        rw [← names] at livePort
        have keeps : Keeps process.history.length process _ :=
          keeps_arm key signals (waitOptionCode options) live (process.inside_of_live livePort)
            (Nat.le_refl _)
        have effects := tessArm_effects process (process.entry slot).objectSlot portSlot key
          signals (waitOptionCode options) (Nat.zero_le _)
        have handles : (armed process (process.entry slot).objectSlot portSlot key signals
            (waitOptionCode options)).handles = process.handles := rfl
        exact keeps.accounted (((Closes.of_handles handles).trans
          (Closes.of_effects effects)).granted _)

/-- What reaches something, once it is noted. -/
theorem noted_accounted {event : Note} (plain : ∀ watched port, event ≠ .armed watched port)
    (within : Linked [] process → event.Confined process.history)
    (effects : Effects process.history.length (process.note event) after) :
    Accounted call process after := by
  have noted : Keeps process.history.length process (process.note event) := Keeps.note plain within
  exact (noted.trans effects.keeps).accounted ((Closes.of_handles effects.follows.handles).granted call)

theorem objectSignal_accounted (balanced : Balanced (fun _ => 0) [] process) (handle : Handle)
    (set clear : Signals) :
    Accounted (.objectSignal handle set clear) process
      (answer (fun _ => .done) (objectSignal process handle set clear)).2 := by
  unfold objectSignal
  cases resolved : tessResolve process handle with
  | none => exact refused_accounted _ _ _
  | some slot =>
    dsimp only
    split
    · exact refused_accounted _ _ _
    · split
      · exact refused_accounted _ _ _
      · split
        · exact refused_accounted _ _ _
        · rename_i settable
          simp only [Bool.or_eq_true, Bool.not_eq_true', not_or, Bool.not_eq_false] at settable
          have raised : ∀ event slot, event.target = some (process.object slot).objectId →
              Effects process.history.length (process.note event)
                (tessRaiseSignals (process.note event) slot set clear) := by
            intro event slot target
            exact tessRaiseSignals_effects _ _ _ _ (old_note _ _) (reached_note target)
              (readable_of_settable settable.1) (readable_of_settable settable.2)
          split
          · rename_i pair
            apply noted_accounted (fun _ _ same => Note.noConfusion same) _ (raised _ _ rfl)
            intro linked
            have live := balanced.resolved resolved
            apply linked.peers _ live
            apply linked.pairs _ live _ List.not_mem_nil
            revert pair
            cases (process.object (process.entry slot).objectSlot).objectType <;> decide
          · apply noted_accounted _ _ (raised (.asserted _) _ rfl)
            · exact fun _ _ same => Note.noConfusion same
            · exact fun _ => trivial

theorem settlePort_links (taken : Nat) (record : ObjectRecord) :
    SameLinks record (settlePort { record with queueHead := record.queueHead + taken }) := by
  unfold settlePort
  split
  · exact ⟨rfl, rfl, rfl, rfl, rfl, (SameLinks.refl record).waiters⟩
  · exact ⟨rfl, rfl, rfl, rfl, rfl, (SameLinks.refl record).waiters⟩

theorem drained_accounted (slot taken : Nat) :
    Accounted call process ((process.setObject slot fun record =>
      settlePort { record with queueHead := record.queueHead + taken }).note
        (.drained (process.object slot).objectId)) := by
  let settled := process.setObject slot fun record =>
    settlePort { record with queueHead := record.queueHead + taken }
  have objects : ∀ other, SameLinks (process.object other) (settled.object other) := by
    intro other
    rw [Tessera.object_setObject]
    split
    · exact settlePort_links taken _
    · exact SameLinks.refl _
  have plain : ∀ watched port,
      (.drained (process.object slot).objectId : Note) ≠ .armed watched port :=
    fun _ _ same => Note.noConfusion same
  refine
    { links := ?_
      recorded := ?_
      granted := (@Closes.of_handles process (settled.note _) rfl).granted call }
  · intro _ linked confined
    have linkedSettled : Linked [] settled :=
      linked.keep objects rfl (process.setObject_length _ _) (List.append_nil _).symm
        fun _ _ => List.not_mem_nil
    exact ⟨linkedSettled.note plain, @Confined.note settled confined _ trivial⟩
  · intro other _
    refine ⟨(objects other).objectId, ?_⟩
    intro changed
    have here : slot = other := by
      by_contra apart
      have same : settled.object other = process.object other := by
        rw [Tessera.object_setObject, if_neg fun both => apart both.1]
      change (settled.object other).signals ≠ _ ∨ (settled.object other).queue ≠ _ at changed
      rw [same] at changed
      simp at changed
    rw [← here]
    exact ⟨.drained (process.object slot).objectId, by simp [Tessera.note], rfl⟩

theorem portWait_accounted (ready : ∀ slot, PortReady (process.object slot)) {port : Handle}
    {max : UInt32} {deadline : UInt64}
    (run : (Call.portWait port max deadline).run process = some answered) :
    Accounted (.portWait port max deadline) process answered.2 := by
  rcases answered with ⟨reply, after⟩
  by_cases failed : ∃ error, reply = .error error
  · rcases failed with ⟨error, same⟩
    rw [same] at run
    rw [refused_unchanged ready run fun _ same => Call.noConfusion same]
    exact Accounted.refl _ _
  · have result := Option.some.inj run
    unfold LibTessera.portWait at result
    split at result
    · exact absurd ⟨_, (congrArg Prod.fst result).symm⟩ failed
    · split at result
      · exact absurd ⟨_, (congrArg Prod.fst result).symm⟩ failed
      · dsimp only at result
        split at result
        · exact absurd ⟨_, (congrArg Prod.fst result).symm⟩ failed
        · split at result
          · exact absurd ⟨_, (congrArg Prod.fst result).symm⟩ failed
          · rw [← result]
            exact drained_accounted _ _

theorem portPost_accounted (port : Handle) (packet : Completion) :
    Accounted (.portPost port packet) process
      (answer (fun _ => .done) (portPost process port packet)).2 := by
  unfold portPost
  split
  · exact refused_accounted _ _ _
  · split
    · exact refused_accounted _ _ _
    · dsimp only
      split
      · exact refused_accounted _ _ _
      · split
        · exact refused_accounted _ _ _
        · apply noted_accounted _ _
            (tessDeliverToPort_effects _ _ _ (old_note _ _) (reached_note rfl))
          · exact fun _ _ same => Note.noConfusion same
          · exact fun _ => trivial

theorem portCancel_accounted {port : Handle} {key : Key}
    (run : (portCancel process port key).map (answer .count) = some answered) :
    Accounted (.portCancel port key) process answered.2 := by
  unfold portCancel at run
  split at run
  · cases run
    exact refused_accounted _ _ _
  · rename_i portSlot _
    dsimp only at run
    split at run
    · cases run
      have effects := tessCancelKey_effects process portSlot key (Nat.le_refl process.history.length)
      exact effects.keeps.accounted ((Closes.of_effects effects).granted _)
    · cases run

theorem call_accounted (balanced : Balanced (fun _ => 0) [] process)
    (ready : ∀ slot, PortReady (process.object slot)) (run : call.run process = some answered) :
    Accounted call process answered.2 := by
  cases call with
  | handleClose handle =>
    cases run
    unfold LibTessera.handleClose
    cases resolved : tessResolve process handle with
    | none => exact refused_accounted _ _ _
    | some slot =>
      exact (keeps_closeResolved (balanced.resolved resolved) (Nat.le_refl _)).accounted
        ((closes_closeResolved _ _).granted _)
  | handleCloseMany handles =>
    rcases handleCloseMany_answer process handles with ⟨reply, _, same⟩
    rw [same] at run
    cases run
    exact (keeps_closeListed handles (false, process) balanced (Nat.le_refl _)).accounted
      ((closes_closeListed handles (false, process)).granted _)
  | handleDuplicate handle rights => exact handleDuplicate_accounted run
  | handleReplace handle rights => exact handleReplace_accounted balanced run
  | handleInfo handle =>
    cases run
    unfold LibTessera.handleInfo
    split
    · exact refused_accounted _ _ _
    · exact Accounted.refl _ _
  | objectSetName handle name =>
    cases run
    exact objectSetName_accounted handle name
  | objectWaitAsync handle signals options port key =>
    cases run
    exact objectWaitAsync_accounted balanced handle signals options port key
  | objectSignal handle set clear =>
    cases run
    exact objectSignal_accounted balanced handle set clear
  | portCreate => exact created_accounted (by decide) rfl run
  | portWait port max deadline => exact portWait_accounted ready run
  | portPost port packet =>
    cases run
    exact portPost_accounted port packet
  | portCancel port key => exact portCancel_accounted run
  | eventCreate initial => exact created_accounted (by decide) rfl run
  | eventPairCreate => exact eventPairCreate_accounted run

/-! ## Runs -/

/-- A run in which no call creates an object in a slot that something live refers to. -/
inductive SparingRun : List (Call × Reply) → Tessera → Prop
  | start : SparingRun [] tesseraCreate
  | call {past : List (Call × Reply)} {process after : Tessera} {call : Call} {reply : Reply}
      (before : SparingRun past process) (spares : Spares call.created process)
      (answered : call.run process = some (reply, after)) :
      SparingRun (past ++ [(call, reply)]) after

variable {past : List (Call × Reply)}

theorem SparingRun.run (run : SparingRun past process) : Run past process := by
  induction run with
  | start => exact .start
  | call _ _ answered ih => exact ih.call answered

theorem linked_start : Linked [] tesseraCreate where
  ids := fun _ live => Bool.noConfusion live
  distinct := fun _ _ live => Bool.noConfusion live
  pairs := fun _ live => Bool.noConfusion live
  peers := fun _ live => Bool.noConfusion live
  armed := fun _ live => Bool.noConfusion live
  waiters := fun _ _ _ live => Bool.noConfusion live
  dead := fun _ _ _ listed => absurd listed List.not_mem_nil
  fresh := fun _ _ listed => absurd listed List.not_mem_nil
  inside := fun _ named => Bool.noConfusion named.choose_spec.1

theorem SparingRun.invariant (run : SparingRun past process) :
    Linked [] process ∧ Confined process := by
  induction run with
  | start => exact ⟨linked_start, fun _ listed => absurd listed List.not_mem_nil⟩
  | call before spares answered ih =>
    have table := before.run.invariant
    have accounted := call_accounted table.balanced table.ready answered
    exact accounted.links spares ih.1 ih.2

theorem spares_zero : Spares 0 process :=
  fun _ _ below => absurd below (Nat.not_lt_zero _)

theorem SparingRun.calls {later : List (Call × Reply)} (run : SparingRun past process)
    {calls : List Call} (plain : ∀ call ∈ calls, call.created = 0)
    (ran : runCalls past process calls = some (later, after)) : SparingRun later after := by
  induction calls generalizing past process with
  | nil =>
    cases ran
    exact run
  | cons call calls ih =>
    rcases Option.bind_eq_some_iff.mp ran with ⟨⟨reply, middle⟩, answered, rest⟩
    have spares : Spares call.created process := by
      rw [plain call List.mem_cons_self]
      exact spares_zero
    exact ih (run.call spares answered) (fun other listed => plain other (List.mem_cons_of_mem _ listed))
      rest

end LibTessera

end KiraVm
