import KiraVm.TesseraEffects

/-!
# The handle table

Every object counts the live handles that name it, and is live as long as there are
any.  A handle value stands for one use of one slot of the table: the low half is the
slot, the high half counts the uses.  So values are never returned twice, as long as
the slots of the table can be told apart by the low half.
-/

namespace KiraVm

namespace LibTessera

/-! ## Handle values -/

variable {index : Nat} {generation : UInt32} {handle : Handle} {slot : Nat} {entry : HandleSlot}
  {objectType : ObjectType} {initial : Signals} {peerSlot : Int} {objectSlot : Nat}
  {rights : Rights} {still : List Nat} {answered : Reply × Tessera} {call : Call}

theorem handleEncode_toNat (small : index < 2 ^ 32) (generation : UInt32) :
    (handleEncode index generation).toNat = generation.toNat * 2 ^ 32 + index := by
  have bound := generation.toNat_lt
  have shifted : generation.toNat <<< 32 < 2 ^ 64 := by
    rw [Nat.shiftLeft_eq]
    omega
  have low : index % 2 ^ 64 = index := Nat.mod_eq_of_lt (by omega)
  simp only [handleEncode, UInt64.toNat_or, UInt64.toNat_shiftLeft, UInt64.toNat_ofNat']
  have count : (32 : UInt64).toNat % 64 = 32 := by decide
  rw [count, UInt32.toNat_toUInt64, Nat.mod_eq_of_lt shifted, low,
    ← Nat.shiftLeft_add_eq_or_of_lt small, Nat.shiftLeft_eq]

theorem handleIndexOf_eq (handle : Handle) : handleIndexOf handle = handle.toNat % 2 ^ 32 := by
  have mask : (4294967295 : UInt64).toNat = 2 ^ 32 - 1 := by decide
  rw [handleIndexOf, UInt64.toNat_and, mask, Nat.and_two_pow_sub_one_eq_mod]

theorem handleGenerationOf_toNat (handle : Handle) :
    (handleGenerationOf handle).toNat = handle.toNat / 2 ^ 32 := by
  have count : (32 : UInt64).toNat % 64 = 32 := by decide
  have bound := handle.toNat_lt
  rw [handleGenerationOf, UInt64.toNat_toUInt32, UInt64.toNat_shiftRight, count,
    Nat.shiftRight_eq_div_pow, Nat.mod_eq_of_lt (by omega)]

theorem handleIndexOf_encode (small : index < 2 ^ 32) (generation : UInt32) :
    handleIndexOf (handleEncode index generation) = index := by
  rw [handleIndexOf_eq, handleEncode_toNat small]
  omega

theorem handleGenerationOf_encode (small : index < 2 ^ 32) (generation : UInt32) :
    handleGenerationOf (handleEncode index generation) = generation := by
  apply UInt32.toNat_inj.mp
  rw [handleGenerationOf_toNat, handleEncode_toNat small]
  omega

/-- A value is what its halves make. -/
theorem handleEncode_parts (handle : Handle) :
    handleEncode (handleIndexOf handle) (handleGenerationOf handle) = handle := by
  apply UInt64.toNat_inj.mp
  rw [handleEncode_toNat, handleGenerationOf_toNat, handleIndexOf_eq]
  · omega
  · rw [handleIndexOf_eq]
    exact Nat.mod_lt _ (by decide)

/-- Past the low half, the slot runs into the generation. -/
theorem handleEncode_wide : handleEncode (2 ^ 32) 1 = handleEncode 0 1 := by
  decide

theorem handleEncode_injective {first second : Nat} {other : UInt32}
    (smallFirst : first < 2 ^ 32) (smallSecond : second < 2 ^ 32)
    (same : handleEncode first generation = handleEncode second other) :
    first = second ∧ generation = other := by
  constructor
  · rw [← handleIndexOf_encode smallFirst generation, same, handleIndexOf_encode smallSecond]
  · rw [← handleGenerationOf_encode smallFirst generation, same,
      handleGenerationOf_encode smallSecond]

/-! ## Live handles -/

/-- The value of a live entry of the table. -/
def Held (process : Tessera) (handle : Handle) : Prop :=
  ∃ (slot : Nat) (entry : HandleSlot), process.handles[slot]? = some entry ∧
    entry.live = true ∧ handle = handleEncode slot entry.generation

theorem tessResolve_some {process : Tessera} (resolved : tessResolve process handle = some slot) :
    ∃ entry, process.handles[slot]? = some entry ∧ entry.live = true ∧
      handle = handleEncode slot entry.generation ∧ slot < 2 ^ 32 ∧
      process.entry slot = entry := by
  unfold tessResolve at resolved
  split at resolved
  · cases resolved
  · split at resolved
    · cases resolved
    · rename_i entry found
      split at resolved
      · cases resolved
      · rename_i live
        split at resolved
        · cases resolved
        · rename_i generation
          have same : handleIndexOf handle = slot := Option.some.inj resolved
          have matching : entry.generation = handleGenerationOf handle := not_not.mp generation
          rw [same] at found
          refine ⟨entry, found, by simpa using live, ?_, ?_, ?_⟩
          · rw [matching, ← same, handleEncode_parts]
          · rw [← same, handleIndexOf_eq]
            exact Nat.mod_lt _ (by decide)
          · rw [Tessera.entry, List.getD_eq_getElem?_getD, found, Option.getD_some]

def Used (process : Tessera) : Prop :=
  ∀ entry ∈ process.handles, 0 < entry.generation.toNat

/-- In a table whose slots can be told apart, the values that resolve are those of live
entries. -/
theorem tessResolve_isSome {process : Tessera} (used : Used process)
    (small : process.handles.length ≤ 2 ^ 32) (handle : Handle) :
    (tessResolve process handle).isSome = true ↔ Held process handle := by
  constructor
  · intro some
    rcases Option.isSome_iff_exists.mp some with ⟨slot, resolved⟩
    rcases tessResolve_some resolved with ⟨entry, found, live, same, _⟩
    exact ⟨slot, entry, found, live, same⟩
  · rintro ⟨slot, entry, found, live, same⟩
    have inside : slot < 2 ^ 32 :=
      Nat.lt_of_lt_of_le (List.getElem?_eq_some_iff.mp found).1 small
    have count := used entry (List.mem_of_getElem? found)
    have nonzero : handle ≠ 0 := by
      intro zero
      have value := handleEncode_toNat inside entry.generation
      rw [← same, zero, UInt64.toNat_zero] at value
      omega
    have index : handleIndexOf handle = slot := by rw [same, handleIndexOf_encode inside]
    have generation : handleGenerationOf handle = entry.generation := by
      rw [same, handleGenerationOf_encode inside]
    simp [tessResolve, nonzero, index, found, live, generation]

/-! ## References -/

/-- How many live handles name an object. -/
def handleCount (process : Tessera) (slot : Nat) : Nat :=
  process.handles.countP fun entry => entry.live && entry.objectSlot == slot

/-- Every object counts its handles and the references that are about to be given up,
and is live while there are any or as long as it is still without a handle. -/
structure Balanced (owed : Nat → Nat) (fresh : List Nat) (process : Tessera) : Prop where
  refcount : ∀ slot, (process.object slot).refcount = handleCount process slot + owed slot
  live : ∀ slot, (process.object slot).live = true ↔
    0 < handleCount process slot + owed slot ∨ slot ∈ fresh

variable {owed : Nat → Nat} {fresh : List Nat} {process after : Tessera}

theorem Balanced.follows (balanced : Balanced owed fresh process) (follows : Follows process after) :
    Balanced owed fresh after where
  refcount := by
    intro slot
    rw [(follows.objects slot).refcount, handleCount, follows.handles]
    exact balanced.refcount slot
  live := by
    intro slot
    rw [(follows.objects slot).live, handleCount, follows.handles]
    exact balanced.live slot

/-- Closing an entry leaves a reference to be given up. -/
theorem handleCount_closeSlot (found : process.handles[slot]? = some entry)
    (live : entry.live = true) (other : Nat) :
    handleCount process other =
      handleCount (process.closeSlot slot) other + if other = entry.objectSlot then 1 else 0 := by
  rcases List.getElem?_eq_some_iff.mp found with ⟨inside, same⟩
  unfold handleCount Tessera.closeSlot
  rw [List.countP_set inside, same]
  by_cases here : other = entry.objectSlot
  · have named : (entry.live && entry.objectSlot == other) = true := by simp [live, here]
    have present : 0 < process.handles.countP fun entry => entry.live && entry.objectSlot == other :=
      List.countP_pos_iff.mpr ⟨entry, List.mem_of_getElem? found, named⟩
    simp only [named, if_true, if_pos here, Bool.false_and, Bool.false_eq_true, if_false]
    omega
  · have apart : (entry.live && entry.objectSlot == other) = false := by simp [Ne.symm here]
    simp only [apart, Bool.false_and, Bool.false_eq_true, if_false, if_neg here]
    omega

theorem Balanced.closeSlot (balanced : Balanced owed fresh process)
    (found : process.handles[slot]? = some entry) (live : entry.live = true) :
    Balanced (fun other => owed other + if other = entry.objectSlot then 1 else 0) fresh
      (process.closeSlot slot) where
  refcount := by
    intro other
    have count := handleCount_closeSlot found live other
    have before := balanced.refcount other
    have same : (process.closeSlot slot).object other = process.object other := rfl
    rw [same, before, count]
    push_cast
    omega
  live := by
    intro other
    have count := handleCount_closeSlot found live other
    have before := balanced.live other
    have same : (process.closeSlot slot).object other = process.object other := rfl
    rw [same, before, count, Nat.add_right_comm, Nat.add_assoc]

/-! ## Giving up a reference -/

/-- One reference less. -/
def released (process : Tessera) (slot : Nat) : Tessera :=
  process.setObject slot fun record => { record with refcount := record.refcount - 1 }

/-- Every waiter of an object is cancelled. -/
def cancelled (process : Tessera) (slot : Nat) : Tessera :=
  (List.range (process.object slot).waiters.length).foldl (cancelWaiter slot) process

/-- An object is gone. -/
def destroyed (process : Tessera) (slot : Nat) : Tessera :=
  process.setObject slot fun record => { record with live := false }

theorem tessDropObject_kept (more : 0 < ((released process slot).object slot).refcount) :
    tessDropObject process slot = released process slot := by
  unfold tessDropObject
  exact if_pos more

theorem tessDropObject_gone (last : ¬ 0 < ((released process slot).object slot).refcount) :
    tessDropObject process slot =
      tellPeer (destroyed (cancelled (released process slot) slot) slot) slot
        ((cancelled (released process slot) slot).object slot).peerSlot := by
  unfold tessDropObject
  exact if_neg last

theorem cancelled_effects {base : Nat} (slot : Nat) (old : base ≤ process.history.length) :
    Effects base process (cancelled process slot) :=
  effects_foldl (cancelWaiter_effects slot) _ old

theorem tellPeer_cases {base : Nat} (slot : Nat) (peer : Int)
    (old : base ≤ process.history.length) :
    tellPeer process slot peer = process ∨
      0 ≤ peer ∧ (process.object peer.toNat).live = true ∧
        Effects base
          (process.note (.peerClosed (process.object slot).objectId
            (process.object peer.toNat).objectId (process.object peer.toNat).live))
          (tellPeer process slot peer) := by
  unfold tellPeer
  split
  · rename_i inside
    split
    · rename_i live
      right
      refine ⟨inside.1, live, ?_⟩
      have later := (follows_note process (.peerClosed (process.object slot).objectId
        (process.object peer.toNat).objectId (process.object peer.toNat).live)).old old
      apply tessRaiseSignals_effects _ _ _ _ later
      · refine ⟨.peerClosed (process.object slot).objectId (process.object peer.toNat).objectId
          (process.object peer.toNat).live, ?_, rfl⟩
        simp only [Tessera.note]
        rw [List.drop_append_of_le_length old]
        exact List.mem_append_right _ (List.mem_singleton_self _)
      · decide
      · decide
    · exact Or.inl rfl
  · exact Or.inl rfl

theorem tellPeer_follows (slot : Nat) (peer : Int) :
    Follows process (tellPeer process slot peer) := by
  rcases @tellPeer_cases process 0 slot peer (Nat.zero_le _) with same | ⟨_, _, effects⟩
  · rw [same]
    exact Follows.refl _
  · exact (follows_note _ _).trans effects.follows

theorem released_object (process : Tessera) (slot other : Nat) (inside : slot < process.objects.length) :
    (released process slot).object other =
      if slot = other then { process.object other with refcount := (process.object other).refcount - 1 }
      else process.object other := by
  rw [released, Tessera.object_setObject]
  by_cases here : slot = other
  · rw [here] at inside
    simp [here, inside]
  · simp [here]

/-- Giving up a reference that is owed. -/
theorem Balanced.drop
    (balanced : Balanced (fun other => owed other + if other = slot then 1 else 0) [] process) :
    Balanced owed [] (tessDropObject process slot) := by
  have live : (process.object slot).live = true := by
    rw [balanced.live]
    left
    simp only [if_true]
    omega
  have inside := process.inside_of_live live
  have count : ∀ other, handleCount (released process slot) other = handleCount process other :=
    fun _ => rfl
  have refcount : ∀ other, ((released process slot).object other).refcount =
      handleCount process other + owed other := by
    intro other
    rw [released_object _ _ _ inside]
    have before := balanced.refcount other
    by_cases here : slot = other
    · simp only [here, if_true] at before ⊢
      rw [before]
      push_cast
      omega
    · simp only [if_neg here, if_neg (Ne.symm here)] at before ⊢
      simpa using before
  have kept : ∀ other, slot ≠ other → (((released process slot).object other).live = true ↔
      0 < handleCount process other + owed other) := by
    intro other apart
    rw [released_object _ _ _ inside, if_neg apart, balanced.live]
    simp [Ne.symm apart]
  by_cases more : 0 < ((released process slot).object slot).refcount
  · rw [tessDropObject_kept more]
    refine ⟨refcount, ?_⟩
    intro other
    by_cases here : slot = other
    · have positive := refcount slot
      rw [← here, count, released_object _ _ _ inside]
      simp only [if_true, live, true_iff]
      left
      omega
    · rw [kept other here, count]
      simp
  · rw [tessDropObject_gone more]
    have effects := (@cancelled_effects (released process slot) 0 slot (Nat.zero_le _)).follows
    apply Balanced.follows _ (tellPeer_follows _ _)
    have sameCount : ∀ other, handleCount (destroyed (cancelled (released process slot) slot) slot)
        other = handleCount process other := by
      intro other
      unfold handleCount
      exact congrArg _ effects.handles
    constructor
    · intro other
      rw [sameCount, ← refcount other, ← (effects.objects other).refcount, destroyed,
        Tessera.object_setObject]
      split <;> rfl
    · intro other
      rw [sameCount, destroyed, Tessera.object_setObject, effects.length]
      by_cases here : slot = other
      · have none := refcount slot
        have within : other < (released process slot).objects.length := by
          rw [← here, released, Tessera.setObject_length]
          exact inside
        rw [if_pos ⟨here, within⟩, ← here]
        simp
        omega
      · rw [if_neg (fun both => here both.1), (effects.objects other).live, kept other here]
        simp

/-! ## Allocation -/

theorem tessAddObject_cases
    (placed : tessAddObject process objectType initial peerSlot = some (slot, after)) :
    after.handles = process.handles ∧ after.history = process.history ∧
      after.nextObjectId = process.nextObjectId + 1 ∧ (process.object slot).live = false ∧
      slot < after.objects.length ∧
      ∀ other, after.object other =
        if other = slot then
          ⟨true, objectType, 0, initial, "", process.nextObjectId, peerSlot, [], 0, []⟩
        else process.object other := by
  unfold tessAddObject at placed
  split at placed
  · dsimp only at placed
    split at placed
    · rename_i searched
      cases placed
      rcases List.findIdx?_eq_some_iff_getElem.mp searched with ⟨inside, dead, _⟩
      refine ⟨rfl, rfl, rfl, ?_, ?_, ?_⟩
      · simpa [Tessera.object, inside] using dead
      · simpa using inside
      · intro other
        simp only [Tessera.object, List.getD_eq_getElem?_getD, List.getElem?_set]
        by_cases here : other = slot
        · simp [here, inside]
        · simp [here, Ne.symm here]
    · rename_i searched
      cases placed
      refine ⟨rfl, rfl, rfl, ?_, ?_, ?_⟩
      · rw [process.object_outside (Nat.le_refl _)]
        rfl
      · simp
      · intro other
        simp only [Tessera.object, List.getD_eq_getElem?_getD]
        by_cases here : other = process.objects.length
        · simp [here]
        · rcases Nat.lt_or_gt_of_ne here with inside | outside
          · rw [List.getElem?_append_left inside, if_neg here]
          · rw [if_neg here, List.getElem?_eq_none (by simp; omega),
              List.getElem?_eq_none (by omega)]
  · cases placed

theorem Balanced.addObject (balanced : Balanced owed fresh process)
    (placed : tessAddObject process objectType initial peerSlot = some (slot, after)) :
    Balanced owed (slot :: fresh) after := by
  rcases tessAddObject_cases placed with ⟨handles, _, _, dead, _, objects⟩
  have empty : handleCount process slot + owed slot = 0 := by
    by_contra some
    have live := (balanced.live slot).mpr (Or.inl (Nat.pos_of_ne_zero some))
    rw [dead] at live
    cases live
  have count : ∀ other, handleCount after other = handleCount process other := by
    intro other
    rw [handleCount, handles]
    rfl
  constructor
  · intro other
    rw [objects, count]
    by_cases here : other = slot
    · rw [if_pos here, here]
      simp only
      omega
    · rw [if_neg here]
      exact balanced.refcount other
  · intro other
    rw [objects, count]
    by_cases here : other = slot
    · simp [here]
    · rw [if_neg here, balanced.live]
      simp [here]

theorem nextGeneration_toNat {next : UInt32} (some : nextGeneration generation = some next) :
    next.toNat = generation.toNat + 1 := by
  unfold nextGeneration at some
  split at some
  · rename_i room
    have sum : (generation + 1).toNat = generation.toNat + 1 := by
      rw [UInt32.toNat_add]
      exact Nat.mod_eq_of_lt room
    have nonzero : generation + 1 ≠ 0 := by
      intro zero
      rw [zero] at sum
      simp at sum
    rw [if_neg nonzero] at some
    rw [← Option.some.inj some, sum]
  · cases some

/-- A new handle is in an entry that was not live, with a generation that follows the
one before. -/
theorem tessAddHandle_cases
    (minted : tessAddHandle process objectSlot rights = some (handle, after)) :
    (∀ other, after.object other =
        if objectSlot = other ∧ other < process.objects.length then
          { process.object other with refcount := (process.object other).refcount + 1 }
        else process.object other) ∧
      after.objects.length = process.objects.length ∧
      after.nextObjectId = process.nextObjectId ∧ after.history = process.history ∧
      ∃ slot generation, handle = handleEncode slot generation ∧
        ((∃ entry, process.handles[slot]? = some entry ∧ entry.live = false ∧
            generation.toNat = entry.generation.toNat + 1 ∧
            after.handles = process.handles.set slot ⟨true, generation, objectSlot, rights⟩) ∨
          slot = process.handles.length ∧ generation = 1 ∧
            after.handles = process.handles ++ [⟨true, generation, objectSlot, rights⟩]) := by
  unfold tessAddHandle at minted
  simp only [Tessera.setObject_handles] at minted
  split at minted
  · rename_i slot searched
    rcases Option.bind_eq_some_iff.mp minted with ⟨generation, next, rest⟩
    rcases List.findIdx?_eq_some_iff_getElem.mp searched with ⟨inside, dead, _⟩
    cases rest
    refine ⟨fun other => process.object_setObject objectSlot other _, by simp, rfl, rfl, slot, generation, rfl, Or.inl ?_⟩
    have found := List.getElem?_eq_getElem inside
    refine ⟨process.handles[slot], found, by simpa using dead, ?_, rfl⟩
    have same : ((process.setObject objectSlot fun record =>
        { record with refcount := record.refcount + 1 }).entry slot).generation =
        process.handles[slot].generation := by
      simp only [Tessera.entry, Tessera.setObject_handles]
      rw [List.getD_eq_getElem?_getD, found, Option.getD_some]
    rw [same] at next
    exact nextGeneration_toNat next
  · rename_i searched
    cases minted
    exact ⟨fun other => process.object_setObject objectSlot other _, by simp, rfl, rfl, _, _, rfl, Or.inr ⟨rfl, rfl, rfl⟩⟩

theorem handleCount_minted
    (same : (∃ entry, process.handles[slot]? = some entry ∧ entry.live = false ∧
        after.handles = process.handles.set slot ⟨true, generation, objectSlot, rights⟩) ∨
      after.handles = process.handles ++ [⟨true, generation, objectSlot, rights⟩]) (other : Nat) :
    handleCount after other = handleCount process other + if other = objectSlot then 1 else 0 := by
  unfold handleCount
  rcases same with ⟨entry, found, dead, same⟩ | same
  · rcases List.getElem?_eq_some_iff.mp found with ⟨inside, here⟩
    rw [same, List.countP_set inside, here]
    by_cases named : other = objectSlot
    · simp [dead, named]
    · simp [dead, named, Ne.symm named]
  · rw [same, List.countP_append]
    by_cases named : other = objectSlot
    · simp [named]
    · simp [named, Ne.symm named]

theorem Balanced.addHandle (balanced : Balanced owed fresh process)
    (live : (process.object objectSlot).live = true)
    (minted : tessAddHandle process objectSlot rights = some (handle, after))
    (fewer : ∀ slot, slot ∈ fresh ↔ slot ∈ still ∨ slot = objectSlot ∧ slot ∈ fresh) :
    Balanced owed still after := by
  rcases tessAddHandle_cases minted with ⟨objects, _, _, _, slot, generation, _, entry⟩
  have inside := process.inside_of_live live
  have count : ∀ other, handleCount after other =
      handleCount process other + if other = objectSlot then 1 else 0 := by
    apply handleCount_minted
    rcases entry with ⟨entry, found, dead, _, same⟩ | ⟨_, _, same⟩
    · exact Or.inl ⟨entry, found, dead, same⟩
    · exact Or.inr same
  constructor
  · intro other
    rw [objects, count]
    by_cases here : other = objectSlot
    · have before := balanced.refcount other
      rw [← here] at inside
      rw [if_pos ⟨here.symm, inside⟩, if_pos here]
      simp only
      omega
    · rw [if_neg (fun both => here both.1.symm), if_neg here]
      exact balanced.refcount other
  · intro other
    rw [objects, count]
    by_cases here : other = objectSlot
    · rw [← here] at inside
      rw [if_pos ⟨here.symm, inside⟩, if_pos here, here]
      simp only [live, true_iff]
      left
      omega
    · rw [if_neg (fun both => here both.1.symm), if_neg here, balanced.live, fewer]
      simp [here]

theorem Used.addHandle (used : Used process)
    (minted : tessAddHandle process objectSlot rights = some (handle, after)) : Used after := by
  rcases tessAddHandle_cases minted with ⟨_, _, _, _, slot, generation, _, entry⟩
  intro other listed
  rcases entry with ⟨entry, found, _, next, same⟩ | ⟨_, one, same⟩
  · rw [same] at listed
    rcases List.mem_or_eq_of_mem_set listed with before | new
    · exact used other before
    · rw [new, next]
      omega
  · rw [same] at listed
    rcases List.mem_append.mp listed with before | new
    · exact used other before
    · have first : 0 < (1 : UInt32).toNat := by decide
      rw [List.mem_singleton.mp new, one]
      exact first

theorem Used.closeSlot (used : Used process) (slot : Nat) : Used (process.closeSlot slot) := by
  intro other listed
  rcases List.mem_or_eq_of_mem_set listed with before | new
  · exact used other before
  · by_cases inside : slot < process.handles.length
    · have found : process.entry slot ∈ process.handles := by
        rw [Tessera.entry, List.getD_eq_getElem?_getD, List.getElem?_eq_getElem inside]
        exact List.getElem_mem inside
      rw [new]
      exact used (process.entry slot) found
    · rw [Tessera.closeSlot, List.set_eq_of_length_le (Nat.not_lt.mp inside)] at listed
      exact used other listed

/-! ## Values over the uses of the table -/

theorem held_of_handles (same : after.handles = process.handles) (handle : Handle) :
    Held after handle ↔ Held process handle := by
  rw [Held, Held, same]

/-- A closed entry gives up its value. -/
theorem held_closeSlot (found : process.handles[slot]? = some entry)
    (small : process.handles.length ≤ 2 ^ 32) (handle : Handle) :
    Held (process.closeSlot slot) handle ↔
      Held process handle ∧ handle ≠ handleEncode slot entry.generation := by
  have inside := (List.getElem?_eq_some_iff.mp found).1
  constructor
  · rintro ⟨other, named, foundOther, liveOther, same⟩
    simp only [Tessera.closeSlot, List.getElem?_set] at foundOther
    by_cases here : slot = other
    · simp only [here, if_true] at foundOther
      split at foundOther
      · cases foundOther
        cases liveOther
      · cases foundOther
    · rw [if_neg here] at foundOther
      refine ⟨⟨other, named, foundOther, liveOther, same⟩, ?_⟩
      intro clash
      rw [same] at clash
      have within := (List.getElem?_eq_some_iff.mp foundOther).1
      exact here (handleEncode_injective (by omega) (by omega) clash).1.symm
  · rintro ⟨⟨other, named, foundOther, liveOther, same⟩, apart⟩
    refine ⟨other, named, ?_, liveOther, same⟩
    have differs : slot ≠ other := by
      intro here
      rw [← here, found] at foundOther
      rw [same, ← here, ← Option.some.inj foundOther] at apart
      exact apart rfl
    rw [Tessera.closeSlot, List.getElem?_set_ne differs]
    exact foundOther

theorem held_addHandle (minted : tessAddHandle process objectSlot rights = some (handle, after))
    (other : Handle) : Held after other ↔ Held process other ∨ other = handle := by
  rcases tessAddHandle_cases minted with ⟨_, _, _, _, slot, generation, value, entry⟩
  have found : after.handles[slot]? = some ⟨true, generation, objectSlot, rights⟩ := by
    rcases entry with ⟨entry, found, _, _, same⟩ | ⟨here, _, same⟩
    · rw [same, List.getElem?_set_self (List.getElem?_eq_some_iff.mp found).1]
    · rw [same, here, List.getElem?_concat_length]
  have others : ∀ index, index ≠ slot → after.handles[index]? = process.handles[index]? := by
    intro index apart
    rcases entry with ⟨entry, _, _, _, same⟩ | ⟨here, _, same⟩
    · rw [same, List.getElem?_set_ne (Ne.symm apart)]
    · rcases Nat.lt_or_gt_of_ne apart with before | beyond
      · rw [here] at before
        rw [same, List.getElem?_append_left before]
      · rw [same, List.getElem?_eq_none (by simp; omega), List.getElem?_eq_none (by omega)]
  have dead : ∀ named, process.handles[slot]? = some named → named.live = false := by
    intro named foundBefore
    rcases entry with ⟨entry, earlier, gone, _⟩ | ⟨here, _⟩
    · rw [earlier] at foundBefore
      rw [← Option.some.inj foundBefore]
      exact gone
    · rw [here, List.getElem?_eq_none (Nat.le_refl _)] at foundBefore
      cases foundBefore
  constructor
  · rintro ⟨index, named, foundIndex, live, same⟩
    by_cases here : index = slot
    · right
      rw [here, found] at foundIndex
      rw [same, here, value, ← Option.some.inj foundIndex]
    · left
      rw [others index here] at foundIndex
      exact ⟨index, named, foundIndex, live, same⟩
  · rintro (⟨index, named, foundIndex, live, same⟩ | same)
    · have apart : index ≠ slot := by
        intro here
        rw [here] at foundIndex
        rw [dead named foundIndex] at live
        cases live
      rw [← others index apart] at foundIndex
      exact ⟨index, named, foundIndex, live, same⟩
    · exact ⟨slot, _, found, rfl, same.trans value⟩

def slotValues (slot generation : Nat) : List Handle :=
  (List.range generation).map fun earlier => handleEncode slot (UInt32.ofNat (earlier + 1))

def generations (process : Tessera) : List UInt32 :=
  process.handles.map HandleSlot.generation

/-- Every value the table has had. -/
def issued (process : Tessera) : List Handle :=
  (generations process).zipIdx.flatMap fun entry => slotValues entry.2 entry.1.toNat

theorem slotValues_succ (slot : Nat) {next : UInt32}
    (following : next.toNat = generation.toNat + 1) :
    slotValues slot next.toNat = slotValues slot generation.toNat ++ [handleEncode slot next] := by
  have last : UInt32.ofNat (generation.toNat + 1) = next := by
    rw [← following, UInt32.ofNat_toNat]
  rw [following, slotValues, List.range_succ, List.map_append, List.map_singleton, last]
  rfl

theorem generations_closeSlot (slot : Nat) :
    generations (process.closeSlot slot) = generations process := by
  apply List.ext_getElem?
  intro index
  simp only [generations, Tessera.closeSlot, List.getElem?_map, List.getElem?_set]
  by_cases here : slot = index
  · by_cases inside : index < process.handles.length
    · simp [here, inside, Tessera.entry]
    · simp [here, inside]
  · simp [here]

theorem issued_addHandle (minted : tessAddHandle process objectSlot rights = some (handle, after)) :
    (issued after).Perm (issued process ++ [handle]) := by
  rcases tessAddHandle_cases minted with ⟨_, _, _, _, slot, generation, value, entry⟩
  rcases entry with ⟨entry, found, _, next, same⟩ | ⟨here, one, same⟩
  · rcases List.getElem?_eq_some_iff.mp found with ⟨inside, here⟩
    have insideMap : slot < (generations process).length := by simpa [generations] using inside
    have splits : ∀ value, (generations process).set slot value =
        (generations process).take slot ++ value :: (generations process).drop (slot + 1) := by
      intro value
      rw [List.set_eq_take_append_cons_drop, if_pos insideMap]
    have before : generations process = (generations process).set slot entry.generation := by
      apply List.ext_getElem?
      intro index
      rw [List.getElem?_set]
      by_cases there : slot = index
      · rw [if_pos there, if_pos insideMap, ← there, generations, List.getElem?_map, found]
        rfl
      · rw [if_neg there]
    have behind : generations after = (generations process).set slot generation := by
      rw [generations, same, List.map_set]
      rfl
    have low : ((generations process).take slot).length = slot := by
      rw [List.length_take]
      omega
    unfold issued
    rw [behind, splits]
    nth_rewrite 3 [before]
    rw [splits]
    simp only [List.zipIdx_append, List.zipIdx_cons, List.flatMap_append, List.flatMap_cons, low,
      Nat.zero_add, slotValues_succ slot next, ← value, List.append_assoc]
    apply List.Perm.append_left
    apply List.Perm.append_left
    exact List.perm_append_comm
  · have appended : generations after = generations process ++ [generation] := by
      simp [generations, same]
    rw [issued, appended, List.zipIdx_append, List.flatMap_append, value, here, one]
    simp [slotValues, issued, generations]

theorem mem_slotValues {generation : Nat} :
    handle ∈ slotValues slot generation ↔
      ∃ earlier, earlier < generation ∧ handleEncode slot (UInt32.ofNat (earlier + 1)) = handle := by
  simp [slotValues]

theorem slotValues_nodup (inside : slot < 2 ^ 32) (generation : UInt32) :
    (slotValues slot generation.toNat).Nodup := by
  apply List.Nodup.map_on _ List.nodup_range
  intro first listedFirst second listedSecond same
  have bound := generation.toNat_lt
  have small := List.mem_range.mp listedFirst
  have smallSecond := List.mem_range.mp listedSecond
  have equal := congrArg UInt32.toNat (handleEncode_injective inside inside same).2
  rw [UInt32.toNat_ofNat', UInt32.toNat_ofNat', Nat.mod_eq_of_lt (by omega),
    Nat.mod_eq_of_lt (by omega)] at equal
  omega

theorem issued_nodup (small : process.handles.length ≤ 2 ^ 32) : (issued process).Nodup := by
  have length : (generations process).length ≤ 2 ^ 32 := by simpa [generations] using small
  unfold issued
  rw [List.nodup_flatMap]
  constructor
  · intro entry listed
    have inside := List.snd_lt_of_mem_zipIdx listed
    exact slotValues_nodup (by omega) _
  · rw [List.pairwise_iff_getElem]
    intro first second insideFirst insideSecond before handle inFirst inSecond
    simp only [List.getElem_zipIdx, List.length_zipIdx] at inFirst inSecond insideFirst insideSecond
    rcases mem_slotValues.mp inFirst with ⟨_, _, same⟩
    rcases mem_slotValues.mp inSecond with ⟨_, _, other⟩
    have clash := (handleEncode_injective (by omega) (by omega) (same.trans other.symm)).1
    omega

/-- Once a slot does not fit the low half of a value, a value has been used twice. -/
theorem issued_repeats (used : Used process) (large : 2 ^ 32 < process.handles.length) :
    ¬ (issued process).Nodup := by
  have length : 2 ^ 32 < (generations process).length := by simpa [generations] using large
  have positive : ∀ generation ∈ generations process, 0 < generation.toNat := by
    intro generation listed
    rcases List.mem_map.mp listed with ⟨entry, listedEntry, same⟩
    rw [← same]
    exact used entry listedEntry
  unfold issued
  cases values : generations process with
  | nil =>
    rw [values] at length
    simp at length
  | cons generation rest =>
    rw [values] at length positive
    rw [List.zipIdx_cons, List.flatMap_cons, List.nodup_append]
    intro parts
    have far : 2 ^ 32 - 1 < rest.length := by
      rw [List.length_cons] at length
      omega
    have listed : (rest[2 ^ 32 - 1], 2 ^ 32) ∈ rest.zipIdx (0 + 1) := by
      rw [List.mk_mem_zipIdx_iff_le_and_getElem?_sub, Nat.zero_add]
      exact ⟨Nat.one_le_two_pow, List.getElem?_eq_getElem far⟩
    have early : handleEncode 0 1 ∈ slotValues 0 generation.toNat :=
      mem_slotValues.mpr ⟨0, positive generation List.mem_cons_self, rfl⟩
    have late : handleEncode 0 1 ∈ slotValues (2 ^ 32) (rest[2 ^ 32 - 1]).toNat := by
      rw [← handleEncode_wide]
      exact mem_slotValues.mpr ⟨0, positive _ (List.mem_cons_of_mem _ (List.getElem_mem far)), rfl⟩
    exact parts.2.2 _ early _ (List.mem_flatMap.mpr ⟨_, listed, late⟩) rfl

/-! ## Calls -/

/-- What is done to the table: the values of new handles, and those that are given up.
Before and after, some objects may still be without a handle. -/
structure TableStep (fresh still : List Nat) (minted retired : List Handle)
    (process after : Tessera) : Prop where
  balanced : Balanced (fun _ => 0) fresh process → Balanced (fun _ => 0) still after
  used : Used process → Used after
  ready : (∀ slot, PortReady (process.object slot)) → ∀ slot, PortReady (after.object slot)
  issued : (issued after).Perm (issued process ++ minted)
  held : Used process → after.handles.length ≤ 2 ^ 32 → ∀ handle,
    Held after handle ↔ (Held process handle ∧ handle ∉ retired) ∨ handle ∈ minted
  length : process.handles.length ≤ after.handles.length

theorem issued_of_handles (handles : after.handles = process.handles) :
    issued after = issued process := by
  rw [issued, generations, handles]
  rfl

theorem TableStep.of_same (handles : after.handles = process.handles)
    (refcount : ∀ slot, (after.object slot).refcount = (process.object slot).refcount)
    (live : ∀ slot, (after.object slot).live = (process.object slot).live)
    (ready : (∀ slot, PortReady (process.object slot)) → ∀ slot, PortReady (after.object slot)) :
    TableStep fresh fresh [] [] process after where
  balanced := by
    intro balanced
    constructor
    · intro slot
      rw [refcount, handleCount, handles]
      exact balanced.refcount slot
    · intro slot
      rw [live, handleCount, handles]
      exact balanced.live slot
  used := by
    intro used
    rw [Used, handles]
    exact used
  ready := ready
  issued := by
    rw [List.append_nil, issued_of_handles handles]
  held := by
    intro _ _ handle
    rw [held_of_handles handles]
    simp
  length := by rw [handles]

theorem TableStep.refl (process : Tessera) : TableStep fresh fresh [] [] process process :=
  .of_same rfl (fun _ => rfl) (fun _ => rfl) fun ready => ready

theorem TableStep.trans {middle : Tessera} {between : List Nat}
    {minted retired moreMinted moreRetired : List Handle}
    (first : TableStep fresh between minted retired process middle)
    (second : TableStep between still moreMinted moreRetired middle after)
    (apart : after.handles.length ≤ 2 ^ 32 → ∀ handle ∈ minted, handle ∉ moreRetired) :
    TableStep fresh still (minted ++ moreMinted) (retired ++ moreRetired) process after where
  balanced := fun balanced => second.balanced (first.balanced balanced)
  used := fun used => second.used (first.used used)
  ready := fun ready => second.ready (first.ready ready)
  issued := by
    rw [← List.append_assoc]
    exact second.issued.trans (first.issued.append_right moreMinted)
  held := by
    intro used small handle
    rw [second.held (first.used used) small,
      first.held used (Nat.le_trans second.length small), List.mem_append,
      List.mem_append]
    have other := apart small handle
    tauto
  length := Nat.le_trans first.length second.length

theorem TableStep.note (process : Tessera) (event : Note) :
    TableStep fresh fresh [] [] process (process.note event) :=
  .of_same rfl (fun _ => rfl) (fun _ => rfl) fun ready => ready

theorem TableStep.of_effects {base : Nat} (effects : Effects base process after) :
    TableStep fresh fresh [] [] process after := by
  have follows := effects.follows
  apply TableStep.of_same follows.handles
  · exact fun slot => (follows.objects slot).refcount
  · exact fun slot => (follows.objects slot).live
  · exact fun ready slot => effects.portReady slot (ready slot)

/-- An update of an object that its references, signals and queue do not depend on. -/
theorem TableStep.setObject (process : Tessera) (slot : Nat)
    (change : ObjectRecord → ObjectRecord) (refcount : ∀ record, (change record).refcount = record.refcount)
    (live : ∀ record, (change record).live = record.live)
    (ready : ∀ record, PortReady record → PortReady (change record)) :
    TableStep fresh fresh [] [] process (process.setObject slot change) := by
  apply TableStep.of_same (process.setObject_handles slot change)
  · intro other
    rw [Tessera.object_setObject]
    split
    · exact refcount _
    · rfl
  · intro other
    rw [Tessera.object_setObject]
    split
    · exact live _
    · rfl
  · intro before other
    rw [Tessera.object_setObject]
    split
    · exact ready _ (before other)
    · exact before other

theorem portReady_new (objectType : ObjectType) (signals : Signals) (id : Nat) (peer : Int)
    (quiet : readable signals = false) :
    PortReady ⟨true, objectType, 0, signals, "", id, peer, [], 0, []⟩ := by
  simp [PortReady, quiet]

theorem TableStep.addObject
    (placed : tessAddObject process objectType initial peerSlot = some (slot, after))
    (quiet : readable initial = false) : TableStep fresh (slot :: fresh) [] [] process after := by
  rcases tessAddObject_cases placed with ⟨handles, _, _, _, _, objects⟩
  refine
    { balanced := fun balanced => balanced.addObject placed
      used := ?_
      ready := ?_
      issued := ?_
      held := ?_
      length := ?_ }
  · intro used
    rw [Used, handles]
    exact used
  · intro ready other
    rw [objects]
    split
    · exact portReady_new _ _ _ _ quiet
    · exact ready other
  · rw [List.append_nil, issued_of_handles handles]
  · intro _ _ handle
    rw [held_of_handles handles]
    simp
  · rw [handles]

theorem TableStep.addHandle
    (minted : tessAddHandle process objectSlot rights = some (handle, after))
    (live : Balanced (fun _ => 0) fresh process → (process.object objectSlot).live = true)
    (fewer : ∀ slot, slot ∈ fresh ↔ slot ∈ still ∨ slot = objectSlot ∧ slot ∈ fresh) :
    TableStep fresh still [handle] [] process after where
  balanced := fun balanced => balanced.addHandle (live balanced) minted fewer
  used := fun used => used.addHandle minted
  ready := by
    intro ready other
    rw [(tessAddHandle_cases minted).1]
    split
    · exact ready other
    · exact ready other
  issued := issued_addHandle minted
  held := by
    intro _ _ other
    rw [held_addHandle minted]
    simp
  length := by
    rcases tessAddHandle_cases minted with ⟨_, _, _, _, _, _, _, entry⟩
    rcases entry with ⟨_, _, _, _, same⟩ | ⟨_, _, same⟩
    · simp [same]
    · simp [same]

theorem tessDropObject_handles (process : Tessera) (slot : Nat) :
    (tessDropObject process slot).handles = process.handles := by
  by_cases more : 0 < ((released process slot).object slot).refcount
  · rw [tessDropObject_kept more]
    rfl
  · rw [tessDropObject_gone more, (tellPeer_follows _ _).handles]
    exact (@cancelled_effects (released process slot) 0 slot (Nat.zero_le _)).follows.handles

theorem tellPeer_ready (slot : Nat) (peer : Int) (other : Nat)
    (ready : PortReady (process.object other)) :
    PortReady ((tellPeer process slot peer).object other) := by
  rcases @tellPeer_cases process 0 slot peer (Nat.zero_le _) with same | ⟨_, _, effects⟩
  · rw [same]
    exact ready
  · exact effects.portReady other ready

theorem setObject_ready (slot : Nat) (change : ObjectRecord → ObjectRecord)
    (quiet : ∀ record, PortReady record → PortReady (change record))
    (ready : ∀ other, PortReady (process.object other)) (other : Nat) :
    PortReady ((process.setObject slot change).object other) := by
  rw [Tessera.object_setObject]
  split
  · exact quiet _ (ready other)
  · exact ready other

theorem tessDropObject_ready (slot : Nat) (ready : ∀ other, PortReady (process.object other))
    (other : Nat) : PortReady ((tessDropObject process slot).object other) := by
  have releasedReady : ∀ other, PortReady ((released process slot).object other) :=
    setObject_ready slot (fun record => { record with refcount := record.refcount - 1 })
      (fun _ ready => ready) ready
  by_cases more : 0 < ((released process slot).object slot).refcount
  · rw [tessDropObject_kept more]
    exact releasedReady other
  · rw [tessDropObject_gone more]
    apply tellPeer_ready
    apply setObject_ready slot (fun record => { record with live := false }) fun _ ready => ready
    intro other
    exact (@cancelled_effects (released process slot) 0 slot (Nat.zero_le _)).portReady other
      (releasedReady other)

theorem closeResolved_step (resolved : tessResolve process handle = some slot) :
    TableStep [] [] [] [handle] process
      (closeResolved process slot (process.entry slot).objectSlot) := by
  rcases tessResolve_some resolved with ⟨entry, found, live, value, _, same⟩
  have handles : (closeResolved process slot (process.entry slot).objectSlot).handles =
      (process.closeSlot slot).handles := tessDropObject_handles _ _
  have length : (process.closeSlot slot).handles.length = process.handles.length := by
    simp [Tessera.closeSlot]
  refine
    { balanced := ?_
      used := ?_
      ready := fun ready => tessDropObject_ready _ ready
      issued := ?_
      held := ?_
      length := ?_ }
  · intro balanced
    rw [same]
    exact (balanced.closeSlot found live).drop
  · intro used
    rw [Used, handles]
    exact used.closeSlot slot
  · rw [List.append_nil, issued, generations, handles]
    have generations := @generations_closeSlot process slot
    unfold LibTessera.generations at generations
    rw [generations]
    exact List.Perm.refl _
  · intro _ small other
    rw [handles, length] at small
    rw [held_of_handles handles, held_closeSlot found small, ← value]
    simp
  · rw [handles, length]

/-- A value that does not resolve is not there to be given up. -/
theorem invalid_step (invalid : tessResolve process handle = none) :
    TableStep fresh fresh [] [handle] process process where
  balanced := fun balanced => balanced
  used := fun used => used
  ready := fun ready => ready
  issued := by rw [List.append_nil]
  held := by
    intro used small other
    have absent : ¬ Held process handle := by
      rw [← tessResolve_isSome used small, invalid]
      exact Bool.false_ne_true
    simp only [List.mem_singleton, List.not_mem_nil, or_false]
    constructor
    · intro holds
      refine ⟨holds, ?_⟩
      intro same
      rw [same] at holds
      exact absent holds
    · exact fun both => both.1
  length := Nat.le_refl _

/-! ### One call -/

def Reply.minted : Reply → List Handle
  | .handle value => [value]
  | .pair values => [values.first, values.second]
  | _ => []

/-- The values a call gives up. -/
def Call.retired : Call → Reply → List Handle
  | .handleClose handle, .done => [handle]
  | .handleCloseMany handles, _ => handles
  | .handleReplace handle _, .handle _ => [handle]
  | _, _ => []

theorem closeResolved_length (slot objectSlot : Nat) :
    (closeResolved process slot objectSlot).handles.length = process.handles.length := by
  rw [closeResolved, tessDropObject_handles]
  simp [Tessera.closeSlot]

theorem closeListed_length (handles : List Handle) (state : Bool × Tessera) :
    (handles.foldl closeListed state).2.handles.length = state.2.handles.length := by
  induction handles generalizing state with
  | nil => rfl
  | cons handle handles ih =>
    rw [List.foldl_cons, ih]
    unfold closeListed
    split
    · rfl
    · exact closeResolved_length _ _

theorem closeListed_step (handles : List Handle) (state : Bool × Tessera) :
    TableStep [] [] [] handles state.2 (handles.foldl closeListed state).2 := by
  induction handles generalizing state with
  | nil => exact TableStep.refl _
  | cons handle handles ih =>
    have first : TableStep [] [] [] [handle] state.2 (closeListed state handle).2 := by
      unfold closeListed
      cases resolved : tessResolve state.2 handle with
      | none => exact invalid_step resolved
      | some slot => exact closeResolved_step resolved
    exact first.trans (ih _) fun _ _ listed => absurd listed List.not_mem_nil

theorem handleCloseMany_answer (process : Tessera) (handles : List Handle) :
    ∃ reply : Reply, reply.minted = [] ∧ (Call.handleCloseMany handles).run process =
      some (reply, (handles.foldl closeListed (false, process)).2) := by
  unfold Call.run handleCloseMany
  dsimp only
  split
  · exact ⟨.error (errorOf .invalidHandle), rfl, rfl⟩
  · exact ⟨.done, rfl, rfl⟩

def Stepped (call : Call) (process : Tessera) (answered : Reply × Tessera) : Prop :=
  TableStep [] [] answered.1.minted (call.retired answered.1) process answered.2

theorem refused_stepped {α : Type} (call : Call) (reply : α → Reply) (code : ErrorCode)
    (keeps : ∀ error, call.retired (.error error) = []) :
    Stepped call process (answer reply (refuse process code)) := by
  have same := keeps (errorOf code)
  unfold Stepped answer refuse
  simp only [Reply.minted, same]
  exact TableStep.refl _

theorem handleClose_stepped (handle : Handle) :
    Stepped (.handleClose handle) process
      (answer (fun _ => .done) (handleClose process handle)) := by
  unfold handleClose
  cases resolved : tessResolve process handle with
  | none => exact refused_stepped _ _ _ fun _ => rfl
  | some slot => exact closeResolved_step resolved

theorem handleCloseMany_stepped (handles : List Handle) :
    Stepped (.handleCloseMany handles) process
      (answer (fun _ => .done) (handleCloseMany process handles)) := by
  have closed := closeListed_step handles (false, process)
  unfold handleCloseMany
  dsimp only
  split
  · exact closed
  · exact closed

theorem derived_step {minted : Handle} {event : Note}
    (resolved : tessResolve process handle = some slot)
    (added : tessAddHandle (process.note event) (process.entry slot).objectSlot rights =
      some (minted, after)) : TableStep [] [] [minted] [] process after := by
  rcases tessResolve_some resolved with ⟨entry, found, live, _, _, same⟩
  have named : Balanced (fun _ => 0) [] (process.note event) →
      ((process.note event).object (process.entry slot).objectSlot).live = true := by
    intro balanced
    rw [balanced.live, same]
    left
    have present : 0 < handleCount (process.note event) entry.objectSlot :=
      List.countP_pos_iff.mpr ⟨entry, List.mem_of_getElem? found, by simp [live]⟩
    omega
  have noted : TableStep [] [] [] [] process (process.note event) := TableStep.note _ _
  have step : TableStep [] [] [minted] [] (process.note event) after :=
    TableStep.addHandle added named (by simp)
  exact noted.trans step fun _ _ listed => absurd listed List.not_mem_nil

/-- The handle another one is made from stays as it is. -/
theorem derived_apart {minted : Handle} {event : Note}
    (resolved : tessResolve process handle = some slot)
    (added : tessAddHandle (process.note event) objectSlot rights = some (minted, after)) :
    tessResolve after handle = some slot ∧
      (after.entry slot).objectSlot = (process.entry slot).objectSlot ∧
      (after.handles.length ≤ 2 ^ 32 → minted ≠ handle) := by
  rcases tessResolve_some resolved with ⟨entry, found, live, value, inside, _⟩
  have index : handleIndexOf handle = slot := by rw [value, handleIndexOf_encode inside]
  rcases tessAddHandle_cases added with ⟨_, _, _, _, other, generation, mintedValue, placed⟩
  have bound := (List.getElem?_eq_some_iff.mp found).1
  have apart : other ≠ slot := by
    intro here
    rcases placed with ⟨_, foundDead, dead, _⟩ | ⟨last, _⟩
    · rw [here] at foundDead
      have same : process.handles[slot]? = (process.note event).handles[slot]? := rfl
      rw [← same, found] at foundDead
      rw [← Option.some.inj foundDead, live] at dead
      cases dead
    · have same : (process.note event).handles.length = process.handles.length := rfl
      omega
  have kept : after.handles[slot]? = process.handles[slot]? := by
    rcases placed with ⟨_, _, _, _, same⟩ | ⟨_, _, same⟩
    · rw [same, List.getElem?_set_ne apart]
      rfl
    · rw [same, Tessera.note_handles, List.getElem?_append_left bound]
  have within : other < after.handles.length := by
    rcases placed with ⟨_, foundDead, _, _, same⟩ | ⟨last, _, same⟩
    · rw [same, List.length_set]
      exact (List.getElem?_eq_some_iff.mp foundDead).1
    · rw [same, last]
      simp
  refine ⟨?_, ?_, ?_⟩
  · rw [← resolved, tessResolve, tessResolve, index, kept]
  · rw [Tessera.entry, Tessera.entry, List.getD_eq_getElem?_getD, List.getD_eq_getElem?_getD, kept]
  · intro small clash
    rw [mintedValue, value] at clash
    exact apart (handleEncode_injective (by omega) inside clash).1

theorem handleDuplicate_stepped
    (run : (handleDuplicate process handle rights).map (answer .handle) = some answered) :
    Stepped (.handleDuplicate handle rights) process answered := by
  unfold handleDuplicate at run
  cases resolved : tessResolve process handle with
  | none =>
    rw [resolved] at run
    cases run
    exact refused_stepped _ _ _ fun _ => rfl
  | some slot =>
    rw [resolved] at run
    dsimp only at run
    split at run
    · cases run
      exact refused_stepped _ _ _ fun _ => rfl
    · split at run
      · cases run
        exact refused_stepped _ _ _ fun _ => rfl
      · rcases Option.map_eq_some_iff.mp run with ⟨result, minted, same⟩
        rcases Option.bind_eq_some_iff.mp minted with ⟨⟨value, after⟩, added, rest⟩
        cases rest
        cases same
        exact derived_step resolved added

theorem handleReplace_stepped
    (run : (handleReplace process handle rights).map (answer .handle) = some answered) :
    Stepped (.handleReplace handle rights) process answered := by
  unfold handleReplace at run
  cases resolved : tessResolve process handle with
  | none =>
    rw [resolved] at run
    cases run
    exact refused_stepped _ _ _ fun _ => rfl
  | some slot =>
    rw [resolved] at run
    dsimp only at run
    split at run
    · cases run
      exact refused_stepped _ _ _ fun _ => rfl
    · rcases Option.map_eq_some_iff.mp run with ⟨result, minted, same⟩
      rcases Option.bind_eq_some_iff.mp minted with ⟨⟨value, middle⟩, added, rest⟩
      cases rest
      cases same
      have first := derived_step resolved added
      rcases derived_apart resolved added with ⟨still, names, apart⟩
      have second := closeResolved_step still
      rw [names] at second
      refine first.trans second ?_
      intro small other listed clash
      rw [List.mem_singleton] at listed clash
      apply apart _ (listed.symm.trans clash)
      change (tessDropObject (middle.closeSlot slot) _).handles.length ≤ _ at small
      rw [tessDropObject_handles] at small
      simpa [Tessera.closeSlot] using small

theorem objectSetName_stepped (handle : Handle) (name : String) :
    Stepped (.objectSetName handle name) process
      (answer (fun _ => .done) (objectSetName process handle name)) := by
  unfold objectSetName
  split
  · exact refused_stepped _ _ _ fun _ => rfl
  · split
    · exact refused_stepped _ _ _ fun _ => rfl
    · split
      · exact refused_stepped _ _ _ fun _ => rfl
      · exact TableStep.setObject _ _ _ (fun _ => rfl) (fun _ => rfl) fun _ ready => ready

theorem armed_step (objectSlot portSlot : Nat) (key : Key) (mask : Signals) (optionCode : Nat) :
    TableStep fresh fresh [] [] process (armed process objectSlot portSlot key mask optionCode) := by
  have waiting : TableStep fresh fresh [] [] process (process.setObject objectSlot fun record =>
      { record with waiters := record.waiters ++ [⟨true, portSlot, key, mask, optionCode⟩] }) :=
    .setObject _ _ _ (fun _ => rfl) (fun _ => rfl) fun _ ready => ready
  exact waiting.trans (.note _ _) fun _ _ listed => absurd listed List.not_mem_nil

theorem objectWaitAsync_stepped (handle : Handle) (signals : Signals) (options : WaitOptions)
    (port : Handle) (key : Key) :
    Stepped (.objectWaitAsync handle signals options port key) process
      (answer (fun _ => .done) (objectWaitAsync process handle signals options port key)) := by
  unfold objectWaitAsync
  split
  · exact refused_stepped _ _ _ fun _ => rfl
  · split
    · exact refused_stepped _ _ _ fun _ => rfl
    · split
      · exact refused_stepped _ _ _ fun _ => rfl
      · have fired := @tessArm_effects 0 process
        exact (armed_step _ _ _ _ _).trans (.of_effects (fired _ _ _ _ _ (Nat.zero_le _)))
          fun _ _ listed => absurd listed List.not_mem_nil

theorem objectSignal_stepped (handle : Handle) (set clear : Signals) :
    Stepped (.objectSignal handle set clear) process
      (answer (fun _ => .done) (objectSignal process handle set clear)) := by
  unfold objectSignal
  split
  · exact refused_stepped _ _ _ fun _ => rfl
  · split
    · exact refused_stepped _ _ _ fun _ => rfl
    · dsimp only
      split
      · exact refused_stepped _ _ _ fun _ => rfl
      · split
        · exact refused_stepped _ _ _ fun _ => rfl
        · rename_i settable
          simp only [Bool.or_eq_true, Bool.not_eq_true', not_or, Bool.not_eq_false] at settable
          have raised : ∀ event slot, event.target = some (process.object slot).objectId →
              TableStep [] [] [] [] process
                (tessRaiseSignals (process.note event) slot set clear) := by
            intro event slot target
            exact (TableStep.note _ _).trans
              (.of_effects (tessRaiseSignals_effects _ _ _ _ (old_note _ _) (reached_note target)
                (readable_of_settable settable.1) (readable_of_settable settable.2)))
              fun _ _ listed => absurd listed List.not_mem_nil
          split
          · exact raised _ _ rfl
          · exact raised _ _ rfl

theorem portPost_stepped (port : Handle) (packet : Completion) :
    Stepped (.portPost port packet) process
      (answer (fun _ => .done) (portPost process port packet)) := by
  unfold portPost
  split
  · exact refused_stepped _ _ _ fun _ => rfl
  · split
    · exact refused_stepped _ _ _ fun _ => rfl
    · dsimp only
      split
      · exact refused_stepped _ _ _ fun _ => rfl
      · split
        · exact refused_stepped _ _ _ fun _ => rfl
        · exact (TableStep.note _ _).trans
            (.of_effects (tessDeliverToPort_effects _ _ _ (old_note _ _) (reached_note rfl)))
            fun _ _ listed => absurd listed List.not_mem_nil

theorem portCancel_stepped {port : Handle} {key : Key}
    (run : (portCancel process port key).map (answer .count) = some answered) :
    Stepped (.portCancel port key) process answered := by
  unfold portCancel at run
  split at run
  · cases run
    exact refused_stepped _ _ _ fun _ => rfl
  · dsimp only at run
    split at run
    · cases run
      exact TableStep.of_effects (@tessCancelKey_effects 0 _ _ _ (Nat.zero_le _))
    · cases run

theorem settlePort_ready (taken : Nat) (record : ObjectRecord) (ready : PortReady record) :
    PortReady (settlePort { record with queueHead := record.queueHead + taken }) := by
  unfold settlePort
  dsimp only
  split
  · simp [PortReady]
  · rename_i more
    have left : record.queueHead < record.queue.length := by omega
    have further : record.queueHead + taken < record.queue.length := by omega
    unfold PortReady at ready ⊢
    rw [if_pos left] at ready
    rw [if_pos further]
    exact ready

theorem settlePort_refcount (record : ObjectRecord) :
    (settlePort record).refcount = record.refcount := by
  unfold settlePort
  split <;> rfl

theorem settlePort_live (record : ObjectRecord) : (settlePort record).live = record.live := by
  unfold settlePort
  split <;> rfl

theorem portWait_stepped (port : Handle) (max : UInt32) (deadline : UInt64) :
    Stepped (.portWait port max deadline) process
      (answer .batch (portWait process port max deadline)) := by
  unfold portWait
  split
  · exact refused_stepped _ _ _ fun _ => rfl
  · split
    · exact refused_stepped _ _ _ fun _ => rfl
    · dsimp only
      split
      · exact refused_stepped _ _ _ fun _ => rfl
      · have settled : ∀ slot taken, TableStep [] [] [] [] process
            (process.setObject slot fun record =>
              settlePort { record with queueHead := record.queueHead + taken }) :=
          fun slot taken => TableStep.setObject _ _ _ (fun _ => settlePort_refcount _)
            (fun _ => settlePort_live _) (settlePort_ready taken)
        split
        · exact settled _ _
        · exact (settled _ _).trans (.note _ _) fun _ _ listed => absurd listed List.not_mem_nil

theorem created_stepped (quiet : readable initial = false)
    (keeps : ∀ reply, call.retired reply = []) (run : (do
      let (objectSlot, process) ← tessAddObject process objectType initial (-1)
      let (handle, process) ← tessAddHandle process objectSlot rightsDefault
      some ((.ok handle, process) : Except Error Handle × Tessera)).map (answer .handle) =
        some answered) : Stepped call process answered := by
  rcases Option.map_eq_some_iff.mp run with ⟨result, made, same⟩
  rcases Option.bind_eq_some_iff.mp made with ⟨⟨slot, middle⟩, placed, rest⟩
  rcases Option.bind_eq_some_iff.mp rest with ⟨⟨handle, after⟩, minted, last⟩
  cases last
  cases same
  have first : TableStep [] [slot] [] [] process middle := TableStep.addObject placed quiet
  have second : TableStep [slot] [] [handle] [] middle after :=
    TableStep.addHandle minted
      (fun balanced => (balanced.live slot).mpr (Or.inr List.mem_cons_self)) (by simp)
  have both := first.trans second fun _ _ listed => absurd listed List.not_mem_nil
  unfold Stepped
  rw [keeps]
  exact both

theorem eventPairCreate_stepped
    (run : (eventPairCreate process).map (answer .pair) = some answered) :
    Stepped .eventPairCreate process answered := by
  unfold eventPairCreate at run
  rcases Option.map_eq_some_iff.mp run with ⟨result, made, same⟩
  rcases Option.bind_eq_some_iff.mp made with ⟨⟨slotFirst, one⟩, placedFirst, rest⟩
  rcases Option.bind_eq_some_iff.mp rest with ⟨⟨slotSecond, two⟩, placedSecond, rest⟩
  rcases Option.bind_eq_some_iff.mp rest with ⟨⟨handleFirst, three⟩, mintedFirst, rest⟩
  rcases Option.bind_eq_some_iff.mp rest with ⟨⟨handleSecond, four⟩, mintedSecond, last⟩
  cases last
  cases same
  have apart : slotSecond ≠ slotFirst := by
    intro here
    have dead := (tessAddObject_cases placedSecond).2.2.2.1
    have objects := (tessAddObject_cases placedFirst).2.2.2.2.2
    rw [objects, if_pos here] at dead
    cases dead
  have noted : TableStep [] [] [] [] process
      (process.note (.paired process.nextObjectId (process.nextObjectId + 1))) :=
    TableStep.note _ _
  have first := noted.trans (TableStep.addObject placedFirst readable_none)
    fun _ _ listed => absurd listed List.not_mem_nil
  have second := first.trans (TableStep.addObject placedSecond readable_none)
    fun _ _ listed => absurd listed List.not_mem_nil
  have linked := second.trans (TableStep.setObject two slotFirst
    (fun record => { record with peerSlot := slotSecond }) (fun _ => rfl) (fun _ => rfl)
    fun _ ready => ready) fun _ _ listed => absurd listed List.not_mem_nil
  have third : TableStep [slotSecond, slotFirst] [slotSecond] [handleFirst] [] _ three :=
    TableStep.addHandle mintedFirst
      (fun balanced => (balanced.live slotFirst).mpr (Or.inr (by simp))) (by
        intro slot
        by_cases here : slot = slotSecond
        · simp [here]
        · simp [here])
  have fourth : TableStep [slotSecond] [] [handleSecond] [] three four :=
    TableStep.addHandle mintedSecond
      (fun balanced => (balanced.live slotSecond).mpr (Or.inr (by simp))) (by simp)
  have both := third.trans fourth fun _ _ _ => List.not_mem_nil
  exact linked.trans both fun _ _ listed => absurd listed List.not_mem_nil

/-- Every call keeps the references, and does to the table what its answer says. -/
theorem call_stepped (run : call.run process = some answered) : Stepped call process answered := by
  cases call with
  | handleClose handle =>
    cases run
    exact handleClose_stepped handle
  | handleCloseMany handles =>
    cases run
    exact handleCloseMany_stepped handles
  | handleDuplicate handle rights => exact handleDuplicate_stepped run
  | handleReplace handle rights => exact handleReplace_stepped run
  | handleInfo handle =>
    cases run
    unfold handleInfo
    split
    · exact refused_stepped _ _ _ fun _ => rfl
    · exact TableStep.refl _
  | objectSetName handle name =>
    cases run
    exact objectSetName_stepped handle name
  | objectWaitAsync handle signals options port key =>
    cases run
    exact objectWaitAsync_stepped handle signals options port key
  | objectSignal handle set clear =>
    cases run
    exact objectSignal_stepped handle set clear
  | portCreate => exact created_stepped readable_none (fun _ => rfl) run
  | portWait port max deadline =>
    cases run
    exact portWait_stepped port max deadline
  | portPost port packet =>
    cases run
    exact portPost_stepped port packet
  | portCancel port key => exact portCancel_stepped run
  | eventCreate initial =>
    apply created_stepped _ (fun _ => rfl) run
    have masked : readable signalsUserSettable = false := by decide
    simp only [readable, signalsIntersect, UInt32.toBitVec_and, BitVec.getElem_and] at masked ⊢
    rw [masked, Bool.and_false]
  | eventPairCreate => exact eventPairCreate_stepped run

/-! ### Calls that fail -/

theorem setObject_self {change : ObjectRecord → ObjectRecord}
    (same : change (process.object slot) = process.object slot) :
    process.setObject slot change = process := by
  have objects : process.objects.modify slot change = process.objects := by
    apply List.ext_getElem?
    intro other
    rw [List.getElem?_modify]
    by_cases here : slot = other
    · cases found : process.objects[other]? with
      | none => rfl
      | some record =>
        have named : process.object slot = record := by
          rw [here, Tessera.object, List.getD_eq_getElem?_getD, found, Option.getD_some]
        rw [named] at same
        simp [here, same]
    · simp [here]
  unfold Tessera.setObject
  rw [objects]

theorem settlePort_self {record : ObjectRecord} (ready : PortReady record) :
    settlePort record = record := by
  unfold settlePort
  split
  · rename_i empty
    unfold PortReady at ready
    rw [if_neg (by omega)] at ready
    rcases ready with ⟨queue, head, quiet⟩
    have signals : signalsClear record.signals signalReadable = record.signals := by
      apply UInt32.toBitVec_inj.mp
      ext index inside
      have bit := signalReadable_bits index inside
      by_cases first : index = 0
      · subst first
        simp only [readable] at quiet
        simp [signalsClear, quiet]
      · simp [signalsClear, bit, first]
    rw [signals, ← queue, ← head]
  · rfl

theorem answer_error {α : Type} {reply : α → Reply} {result : Except Error α × Tessera}
    {error : Error} (plain : ∀ value error, reply value ≠ .error error)
    (failed : answer reply result = (.error error, after)) :
    result = (.error error, after) := by
  rcases result with ⟨outcome, process⟩
  cases outcome with
  | ok value => exact absurd (congrArg Prod.fst failed) (plain value error)
  | error cause =>
    cases failed
    rfl

theorem refused_unchanged {error : Error} (ready : ∀ slot, PortReady (process.object slot))
    (failed : call.run process = some (.error error, after))
    (other : ∀ handles, call ≠ .handleCloseMany handles) : after = process := by
  cases call with
  | handleClose handle =>
    have result := answer_error (fun _ _ same => Reply.noConfusion same) (Option.some.inj failed)
    unfold handleClose at result
    split at result
    · cases result
      rfl
    · cases result
  | handleCloseMany handles => exact absurd rfl (other handles)
  | handleDuplicate handle rights =>
    rcases Option.map_eq_some_iff.mp failed with ⟨result, ran, same⟩
    rw [answer_error (fun _ _ same => Reply.noConfusion same) same] at ran
    unfold handleDuplicate at ran
    split at ran
    · cases ran
      rfl
    · dsimp only at ran
      split at ran
      · cases ran
        rfl
      · split at ran
        · cases ran
          rfl
        · rcases Option.bind_eq_some_iff.mp ran with ⟨_, _, last⟩
          cases last
  | handleReplace handle rights =>
    rcases Option.map_eq_some_iff.mp failed with ⟨result, ran, same⟩
    rw [answer_error (fun _ _ same => Reply.noConfusion same) same] at ran
    unfold handleReplace at ran
    split at ran
    · cases ran
      rfl
    · dsimp only at ran
      split at ran
      · cases ran
        rfl
      · rcases Option.bind_eq_some_iff.mp ran with ⟨_, _, last⟩
        cases last
  | handleInfo handle =>
    have result := answer_error (fun _ _ same => Reply.noConfusion same) (Option.some.inj failed)
    unfold handleInfo at result
    split at result
    · cases result
      rfl
    · cases result
  | objectSetName handle name =>
    have result := answer_error (fun _ _ same => Reply.noConfusion same) (Option.some.inj failed)
    unfold objectSetName at result
    split at result
    · cases result
      rfl
    · split at result
      · cases result
        rfl
      · split at result
        · cases result
          rfl
        · cases result
  | objectWaitAsync handle signals options port key =>
    have result := answer_error (fun _ _ same => Reply.noConfusion same) (Option.some.inj failed)
    unfold objectWaitAsync at result
    split at result
    · cases result
      rfl
    · split at result
      · cases result
        rfl
      · split at result
        · cases result
          rfl
        · cases result
  | objectSignal handle set clear =>
    have result := answer_error (fun _ _ same => Reply.noConfusion same) (Option.some.inj failed)
    unfold objectSignal at result
    split at result
    · cases result
      rfl
    · split at result
      · cases result
        rfl
      · dsimp only at result
        split at result
        · cases result
          rfl
        · split at result
          · cases result
            rfl
          · split at result <;> cases result
  | portCreate =>
    rcases Option.map_eq_some_iff.mp failed with ⟨result, ran, same⟩
    rw [answer_error (fun _ _ same => Reply.noConfusion same) same] at ran
    rcases Option.bind_eq_some_iff.mp ran with ⟨_, _, rest⟩
    rcases Option.bind_eq_some_iff.mp rest with ⟨_, _, last⟩
    cases last
  | portWait port max deadline =>
    have result := answer_error (fun _ _ same => Reply.noConfusion same) (Option.some.inj failed)
    unfold portWait at result
    split at result
    · cases result
      rfl
    · split at result
      · cases result
        rfl
      · dsimp only at result
        split at result
        · cases result
          rfl
        · split at result
          · rename_i empty
            have settled : _ = after := congrArg Prod.snd result
            rw [← settled, empty]
            exact setObject_self (settlePort_self (ready _))
          · cases result
  | portPost port packet =>
    have result := answer_error (fun _ _ same => Reply.noConfusion same) (Option.some.inj failed)
    unfold portPost at result
    split at result
    · cases result
      rfl
    · split at result
      · cases result
        rfl
      · dsimp only at result
        split at result
        · cases result
          rfl
        · split at result
          · cases result
            rfl
          · cases result
  | portCancel port key =>
    rcases Option.map_eq_some_iff.mp failed with ⟨result, ran, same⟩
    rw [answer_error (fun _ _ same => Reply.noConfusion same) same] at ran
    unfold portCancel at ran
    split at ran
    · cases ran
      rfl
    · dsimp only at ran
      split at ran
      · cases ran
      · cases ran
  | eventCreate initial =>
    rcases Option.map_eq_some_iff.mp failed with ⟨result, ran, same⟩
    rw [answer_error (fun _ _ same => Reply.noConfusion same) same] at ran
    rcases Option.bind_eq_some_iff.mp ran with ⟨_, _, rest⟩
    rcases Option.bind_eq_some_iff.mp rest with ⟨_, _, last⟩
    cases last
  | eventPairCreate =>
    rcases Option.map_eq_some_iff.mp failed with ⟨result, ran, same⟩
    rw [answer_error (fun _ _ same => Reply.noConfusion same) same] at ran
    rcases Option.bind_eq_some_iff.mp ran with ⟨_, _, rest⟩
    rcases Option.bind_eq_some_iff.mp rest with ⟨_, _, rest⟩
    rcases Option.bind_eq_some_iff.mp rest with ⟨_, _, rest⟩
    rcases Option.bind_eq_some_iff.mp rest with ⟨_, _, last⟩
    cases last

/-! ## Runs -/

/-- A run of a process: what was called and answered so far, and where it stands. -/
inductive Run : List (Call × Reply) → Tessera → Prop
  | start : Run [] tesseraCreate
  | call {past : List (Call × Reply)} {process after : Tessera} {call : Call} {reply : Reply}
      (before : Run past process) (answered : call.run process = some (reply, after)) :
      Run (past ++ [(call, reply)]) after

def runCalls : List (Call × Reply) → Tessera → List Call →
    Option (List (Call × Reply) × Tessera)
  | past, process, [] => some (past, process)
  | past, process, call :: calls => do
    let (reply, process) ← call.run process
    runCalls (past ++ [(call, reply)]) process calls

theorem Run.calls {past later : List (Call × Reply)} (run : Run past process) {calls : List Call}
    (ran : runCalls past process calls = some (later, after)) : Run later after := by
  induction calls generalizing past process with
  | nil =>
    cases ran
    exact run
  | cons call calls ih =>
    rcases Option.bind_eq_some_iff.mp ran with ⟨⟨reply, middle⟩, answered, rest⟩
    exact ih (run.call answered) rest

/-- Every value that was returned for a new handle. -/
def mintedOver (past : List (Call × Reply)) : List Handle :=
  past.flatMap fun step => step.2.minted

/-- The values that were returned and not given up since. -/
def outstanding (past : List (Call × Reply)) : List Handle :=
  past.foldl
    (fun held step =>
      (held.filter fun handle => handle ∉ step.1.retired step.2) ++ step.2.minted) []

/-- What holds of the table over every run. -/
structure TableInvariant (past : List (Call × Reply)) (process : Tessera) : Prop where
  balanced : Balanced (fun _ => 0) [] process
  used : Used process
  ready : ∀ slot, PortReady (process.object slot)
  issued : (issued process).Perm (mintedOver past)
  held : process.handles.length ≤ 2 ^ 32 → ∀ handle, Held process handle ↔ handle ∈ outstanding past

theorem Run.invariant {past : List (Call × Reply)} (run : Run past process) :
    TableInvariant past process := by
  induction run with
  | start =>
    refine
      { balanced := ⟨fun _ => rfl, ?_⟩
        used := fun _ listed => absurd listed List.not_mem_nil
        ready := fun _ => by simp [PortReady, tesseraCreate, Tessera.object, ObjectRecord.vacant]
        issued := List.Perm.refl _
        held := ?_ }
    · intro slot
      simp [handleCount, tesseraCreate, Tessera.object, ObjectRecord.vacant]
    · intro _ handle
      simp [Held, tesseraCreate, outstanding]
  | @call past process after call reply _ answered ih =>
    have step := call_stepped answered
    refine
      { balanced := step.balanced ih.balanced
        used := step.used ih.used
        ready := step.ready ih.ready
        issued := ?_
        held := ?_ }
    · have more := step.issued.trans (ih.issued.append_right _)
      simpa [mintedOver] using more
    · intro small handle
      rw [step.held ih.used small, ih.held (Nat.le_trans step.length small)]
      simp [outstanding]

/-! ### Ports -/

/-- What is in the queue of a port and was not taken yet. -/
def undelivered (process : Tessera) (slot : Nat) : List Completion :=
  (process.object slot).queue.drop (process.object slot).queueHead

theorem settlePort_undelivered (record : ObjectRecord) :
    (settlePort record).queue.drop (settlePort record).queueHead =
      record.queue.drop record.queueHead := by
  unfold settlePort
  split
  · rename_i empty
    rw [List.drop_eq_nil_of_le empty]
    rfl
  · rfl

theorem readable_iff_undelivered {slot : Nat} (ready : PortReady (process.object slot)) :
    readable (process.object slot).signals = true ↔ undelivered process slot ≠ [] := by
  unfold PortReady at ready
  unfold undelivered
  rw [Ne, List.drop_eq_nil_iff]
  split at ready
  · rename_i more
    simpa [ready] using more
  · simp [ready]

theorem undelivered_settled (slot taken other : Nat) :
    undelivered (process.setObject slot fun record =>
        settlePort { record with queueHead := record.queueHead + taken }) other =
      if slot = other then (undelivered process other).drop taken
      else undelivered process other := by
  unfold undelivered
  rw [Tessera.object_setObject]
  by_cases here : slot = other
  · rw [if_pos here]
    split
    · rw [settlePort_undelivered, ← List.drop_drop]
    · rename_i outside
      rw [process.object_outside (by omega)]
      simp [ObjectRecord.vacant]
  · rw [if_neg here, if_neg fun both => here both.1]

/-- A wait that answers takes the front of the queue of the port its handle names. -/
theorem portWait_takes {port : Handle} {max : UInt32} {deadline : UInt64}
    {batch : List Completion} {after : Tessera}
    (taken : portWait process port max deadline = (.ok batch, after)) :
    batch ≠ [] ∧ ∃ entry, tessResolve process port = some entry ∧
      batch = (undelivered process (process.entry entry).objectSlot).take max.toNat ∧
      ∀ slot, undelivered after slot =
        if (process.entry entry).objectSlot = slot then (undelivered process slot).drop batch.length
        else undelivered process slot := by
  unfold portWait at taken
  split at taken
  · cases taken
  · rename_i entry resolved
    split at taken
    · cases taken
    · dsimp only at taken
      split at taken
      · cases taken
      · split at taken
        · cases taken
        · rename_i filled
          cases taken
          exact ⟨fun none => filled (by rw [none]; rfl), entry, resolved, rfl,
            undelivered_settled _ _⟩

/-- Over every run a port is readable as long as there is a packet to be taken, and
waiting takes packets from the front of one queue. -/
theorem ports_hand_out_queues {past : List (Call × Reply)} (run : Run past process) :
    (∀ slot, readable (process.object slot).signals = true ↔ undelivered process slot ≠ []) ∧
      ∀ port max deadline batch after, portWait process port max deadline = (.ok batch, after) →
        batch ≠ [] ∧ ∃ entry, tessResolve process port = some entry ∧
          ∀ slot, undelivered process slot =
            (if (process.entry entry).objectSlot = slot then batch else []) ++
              undelivered after slot := by
  refine ⟨fun slot => readable_iff_undelivered (run.invariant.ready slot), ?_⟩
  intro port max deadline batch after taken
  obtain ⟨filled, entry, resolved, front, left⟩ := portWait_takes taken
  refine ⟨filled, entry, resolved, fun slot => ?_⟩
  rw [left slot]
  by_cases here : (process.entry entry).objectSlot = slot
  · subst here
    rw [if_pos rfl, if_pos rfl]
    have before : batch <+: undelivered process (process.entry entry).objectSlot := by
      rw [front]
      exact List.take_prefix _ _
    exact List.prefix_append_drop before
  · rw [if_neg here, if_neg here]
    rfl

theorem posted_packet_is_readable : ∃ past process, Run past process ∧
    (process.object 0).queue.length = 1 ∧
      (readable (process.object 0).signals = true ↔ undelivered process 0 ≠ []) := by
  have shown : (runCalls [] tesseraCreate
      [.portCreate, .portPost (handleEncode 0 1) (completionEmpty 7)]).map
        (fun ran => (ran.2.object 0).queue.length) = some 1 := by decide
  rcases Option.map_eq_some_iff.mp shown with ⟨⟨past, process⟩, ran, queued⟩
  have run := Run.start.calls ran
  exact ⟨past, process, run, queued, (ports_hand_out_queues run).1 0⟩

/-! ### The table -/

/-- What the table promises: references are counted, an object lives as long as it is
named, a value resolves from when it is returned until it is given up and is never
returned again, a call that fails changes nothing, and closing a list of handles gives
up those and no others. -/
structure TableSound (past : List (Call × Reply)) (process : Tessera) : Prop where
  refcount : ∀ slot, (process.object slot).refcount = handleCount process slot
  live : ∀ slot, (process.object slot).live = true ↔ 0 < handleCount process slot
  named : ∀ entry ∈ process.handles, entry.live = true →
    (process.object entry.objectSlot).live = true
  resolves : ∀ handle, (tessResolve process handle).isSome = true ↔ handle ∈ outstanding past
  once : (mintedOver past).Nodup
  refused : ∀ (call : Call) error after, call.run process = some (.error error, after) →
    (∀ handles, call ≠ .handleCloseMany handles) → after = process
  closed : ∀ handles reply after,
    (Call.handleCloseMany handles).run process = some (reply, after) →
    ∀ handle, (tessResolve after handle).isSome = true ↔
      (tessResolve process handle).isSome = true ∧ handle ∉ handles

/-- The table keeps its promises exactly while each of its slots fits the low half of a
value. -/
theorem table_sound_iff {past : List (Call × Reply)} {process : Tessera}
    (run : Run past process) : TableSound past process ↔ process.handles.length ≤ 2 ^ 32 := by
  have invariant := run.invariant
  constructor
  · intro sound
    by_contra large
    apply issued_repeats invariant.used (Nat.not_le.mp large)
    exact invariant.issued.nodup_iff.mpr sound.once
  · intro small
    have counted := invariant.balanced.refcount
    refine
      { refcount := fun slot => by simpa using counted slot
        live := fun slot => by simpa using invariant.balanced.live slot
        named := ?_
        resolves := ?_
        once := ?_
        refused := fun call error after failed other =>
          refused_unchanged invariant.ready failed other
        closed := ?_ }
    · intro entry listed live
      rw [invariant.balanced.live]
      left
      have present : 0 < handleCount process entry.objectSlot :=
        List.countP_pos_iff.mpr ⟨entry, listed, by simp [live]⟩
      omega
    · intro handle
      rw [tessResolve_isSome invariant.used small, invariant.held small]
    · exact invariant.issued.nodup_iff.mp (issued_nodup small)
    · intro handles reply after answered handle
      have step := call_stepped answered
      rcases handleCloseMany_answer process handles with ⟨other, plain, same⟩
      rw [same] at answered
      cases answered
      have length := closeListed_length handles (false, process)
      rw [tessResolve_isSome (step.used invariant.used) (Nat.le_trans (Nat.le_of_eq length) small),
        tessResolve_isSome invariant.used small,
        step.held invariant.used (Nat.le_trans (Nat.le_of_eq length) small), plain]
      simp [Call.retired]

theorem one_event_is_sound :
    ∃ past process, process.handles.length = 1 ∧ TableSound past process := by
  have shown : (runCalls [] tesseraCreate [.eventCreate 0]).map
      (fun ran => ran.2.handles.length) = some 1 := by decide
  rcases Option.map_eq_some_iff.mp shown with ⟨⟨past, process⟩, ran, length⟩
  refine ⟨past, process, length, (table_sound_iff (Run.start.calls ran)).mpr ?_⟩
  exact length.le.trans (by decide)

/-! ### A table that is full -/

/-- Every entry and every object is live. -/
structure Full (process : Tessera) : Prop where
  handles : ∀ entry ∈ process.handles, entry.live = true
  objects : ∀ slot, slot < process.objects.length → (process.object slot).live = true

/-- In a full table, a new event takes a new slot. -/
theorem eventCreate_grows (full : Full process) (room : process.nextObjectId + 1 < 2 ^ 64) :
    ∃ after, (Call.eventCreate 0).run process =
        some (.handle (handleEncode process.handles.length 1), after) ∧
      Full after ∧ after.nextObjectId = process.nextObjectId + 1 ∧
      ∃ entry, after.handles = process.handles ++ [entry] := by
  have noHandle : process.handles.findIdx? (fun entry => !entry.live) = none := by
    rw [List.findIdx?_eq_none_iff]
    intro entry listed
    simp [full.handles entry listed]
  have noObject : process.objects.findIdx? (fun record => !record.live) = none := by
    rw [List.findIdx?_eq_none_iff]
    intro record listed
    rcases List.mem_iff_getElem?.mp listed with ⟨slot, found⟩
    have live := full.objects slot (List.getElem?_eq_some_iff.mp found).1
    rw [Tessera.object, List.getD_eq_getElem?_getD, found, Option.getD_some] at live
    simp [live]
  let record : ObjectRecord := ⟨true, .event, 0, signalsIntersect 0 signalsUserSettable, "",
    process.nextObjectId, -1, [], 0, []⟩
  let placed : Tessera :=
    { process with nextObjectId := process.nextObjectId + 1, objects := process.objects ++ [record] }
  have added : tessAddObject process .event (signalsIntersect 0 signalsUserSettable) (-1) =
      some (process.objects.length, placed) := by
    unfold tessAddObject
    rw [if_pos room]
    simp only [noObject]
    rfl
  have minted : ∃ after, tessAddHandle placed process.objects.length rightsDefault =
      some (handleEncode process.handles.length 1, after) := by
    unfold tessAddHandle
    simp only [Tessera.setObject_handles, placed, noHandle]
    exact ⟨_, rfl⟩
  rcases minted with ⟨after, minted⟩
  rcases tessAddHandle_cases minted with ⟨objects, length, id, _, slot, generation, _, entry⟩
  rcases tessAddObject_cases added with ⟨_, _, _, _, _, placedObjects⟩
  have grown : ∃ entry, entry.live = true ∧ after.handles = process.handles ++ [entry] := by
    rcases entry with ⟨entry, found, dead, _, _⟩ | ⟨_, _, same⟩
    · rw [full.handles entry (List.mem_of_getElem? found)] at dead
      cases dead
    · exact ⟨_, rfl, same⟩
  rcases grown with ⟨entry, live, same⟩
  refine ⟨after, ?_, ⟨?_, ?_⟩, id, entry, same⟩
  · simp only [Call.run, eventCreate, added, Option.bind_eq_bind, Option.bind_some, minted]
    rfl
  · intro other listed
    rw [same] at listed
    rcases List.mem_append.mp listed with before | new
    · exact full.handles other before
    · rw [List.mem_singleton.mp new]
      exact live
  · intro other inside
    have kept : (after.object other).live = (placed.object other).live := by
      rw [objects]
      split <;> rfl
    rw [kept, placedObjects]
    split
    · rfl
    · apply full.objects
      rw [length] at inside
      simp only [placed, List.length_append, List.length_singleton] at inside
      omega

/-- An event that is closed, and then events until the first slot of the table is used for
the second time and so many more slots are used. -/
def reusedThenGrown (more : Nat) : List Call :=
  [.eventCreate 0, .handleClose (handleEncode 0 1), .eventCreate 0] ++
    List.replicate more (.eventCreate 0)

theorem grown_run (more : Nat) (room : more < 2 ^ 63) :
    ∃ past process, Run past process ∧ past.map Prod.fst = reusedThenGrown more ∧ Full process ∧
      process.nextObjectId = more + 3 ∧ process.handles.length = more + 1 ∧
      ∃ entry, process.handles[0]? = some entry ∧ entry.generation = 2 := by
  induction more with
  | zero =>
    have ran : runCalls [] tesseraCreate (reusedThenGrown 0) =
        some ([(.eventCreate 0, .handle 4294967296), (.handleClose 4294967296, .done),
          (.eventCreate 0, .handle 8589934592)],
          ⟨[⟨true, 2, 0, rightsDefault⟩], [⟨true, .event, 1, 0, "", 2, -1, [], 0, []⟩], 3, 0,
            []⟩) := by
      decide
    refine ⟨_, _, Run.start.calls ran, by decide, ⟨?_, ?_⟩, rfl, rfl, _, rfl, rfl⟩
    · intro entry listed
      rw [List.mem_singleton.mp listed]
    · intro slot inside
      have first : slot = 0 := by simpa using inside
      rw [first]
      rfl
  | succ more ih =>
    rcases ih (by omega) with ⟨past, process, run, calls, full, id, length, entry, first, second⟩
    rcases eventCreate_grows full (by omega) with ⟨after, answered, fullAfter, next, new, same⟩
    have inside : 0 < process.handles.length := by omega
    refine ⟨_, after, run.call answered, ?_, fullAfter, by omega, ?_, entry, ?_, second⟩
    · rw [List.map_append, calls, reusedThenGrown, reusedThenGrown, List.append_assoc,
        List.replicate_succ']
      rfl
    · rw [same, List.length_append, length]
      rfl
    · rw [same, List.getElem?_append_left inside]
      exact first

/-- The value returned for slot `2 ^ 32` is that of the first use of slot 0, which is
past. -/
theorem handle_lost_in_a_large_table :
    ∃ past process handle, Run (past ++ [(.eventCreate 0, .handle handle)]) process ∧
      past.map Prod.fst = reusedThenGrown (2 ^ 32 - 1) ∧ tessResolve process handle = none := by
  rcases grown_run (2 ^ 32 - 1) (by omega) with
    ⟨past, process, run, calls, full, id, length, entry, first, second⟩
  rcases eventCreate_grows full (by omega) with ⟨after, answered, _, _, new, same⟩
  have inside : 0 < process.handles.length := by omega
  rw [length] at answered
  refine ⟨past, after, _, run.call answered, calls, ?_⟩
  have value : handleEncode (2 ^ 32 - 1 + 1) 1 = handleEncode 0 1 := handleEncode_wide
  have found : after.handles[0]? = some entry := by
    rw [same, List.getElem?_append_left inside]
    exact first
  have index : handleIndexOf (handleEncode 0 1) = 0 := by decide
  have generation : handleGenerationOf (handleEncode 0 1) = 1 := by decide
  rw [value, tessResolve, index, found]
  simp [generation, second]

end LibTessera

end KiraVm
