import KiraVm.ValueContents
import Mathlib.Data.List.Nodup
import Mathlib.Data.List.Perm.Subperm

/-!
# Reading values off a heap

An owned value is a finite tree of objects, none of them a snapshot.  A tree never
meets one slot twice on a way down, so it is no deeper than there are slots, and what
it reads as survives every step that keeps its objects.
-/

namespace KiraVm

/-- An object less the number of its holders. -/
def Object.bare : Object → Object
  | .enum tag payload _ => .enum tag payload 0
  | .erased typeId payload _ => .erased typeId payload 0
  | .cell payload _ => .cell payload 0
  | .snapshot node _ => .snapshot node 0
  | object => object

/-- The number of holders of an object. -/
def Object.shares : Object → Nat
  | .enum _ _ shares | .erased _ _ shares | .cell _ shares | .snapshot _ shares => shares
  | _ => 1

namespace Heap

/-! ## Owned values -/

/-- The values that an object holds. -/
def parts (heap : Heap) : Value → List Value
  | .struct id => heap.fields id
  | .array id => heap.elements id
  | .enum id => (heap.enumPayloadRef id).toList
  | .erased id => (heap.erasedPayloadRef id).toList
  | _ => []

def partSlot : Value → Option Nat
  | .struct id | .array id | .enum id | .erased id => some id
  | _ => none

def Stored (heap : Heap) : Value → Prop
  | .str id => ∃ text, heap.object? id = some (.str text)
  | .struct id => ∃ block, heap.object? id = some (.struct block) ∧ block < heap.blocks.length
  | .array id => ∃ block, heap.object? id = some (.array block) ∧ block < heap.blocks.length
  | .enum id => ∃ tag payload shares, heap.object? id = some (.enum tag payload shares)
  | .erased id => ∃ typeId payload shares, heap.object? id = some (.erased typeId payload shares)
  | .cBlock id => ∃ serial bytes children, heap.object? id = some (.cBlock serial bytes children)
  | .nativeSnapshot _ => False
  | _ => True

def Owned (heap : Heap) : Nat → Value → Prop
  | 0, _ => False
  | depth + 1, value => heap.Stored value ∧ ∀ part ∈ heap.parts value, Owned heap depth part

variable {heap : Heap}

variable {depth more : Nat} {value : Value}

theorem Owned.mono (owned : heap.Owned depth value) (deeper : depth ≤ more) :
    heap.Owned more value := by
  induction depth generalizing more value with
  | zero => exact owned.elim
  | succ depth ih =>
    obtain ⟨more, rfl⟩ := Nat.exists_eq_add_of_le deeper
    rw [Nat.add_right_comm]
    exact ⟨owned.1, fun part member => ih (owned.2 part member) (by omega)⟩

/-! ## Depth -/

def valueAt (slot : Nat) : Object → Value
  | .struct _ => .struct slot
  | .array _ => .array slot
  | .enum _ _ _ => .enum slot
  | .erased _ _ _ => .erased slot
  | _ => .void

theorem Stored.object {value : Value} {slot : Nat} (stored : heap.Stored value)
    (isSlot : partSlot value = some slot) :
    ∃ object, heap.object? slot = some object ∧ value = valueAt slot object := by
  cases value <;> cases isSlot
  · obtain ⟨block, found, _⟩ := stored
    exact ⟨_, found, rfl⟩
  · obtain ⟨block, found, _⟩ := stored
    exact ⟨_, found, rfl⟩
  · obtain ⟨tag, payload, shares, found⟩ := stored
    exact ⟨_, found, rfl⟩
  · obtain ⟨typeId, payload, shares, found⟩ := stored
    exact ⟨_, found, rfl⟩

theorem Stored.unique {other : Value} {slot : Nat} (stored : heap.Stored value)
    (otherStored : heap.Stored other) (first : partSlot value = some slot)
    (second : partSlot other = some slot) : value = other := by
  obtain ⟨object, found, isValue⟩ := stored.object first
  obtain ⟨otherObject, otherFound, isOther⟩ := otherStored.object second
  rw [found] at otherFound
  injection otherFound with sameObject
  rw [isValue, isOther, sameObject]

theorem partSlot_of_part {part : Value} (member : part ∈ heap.parts value) :
    ∃ slot, partSlot value = some slot := by
  cases value <;> first | exact ⟨_, rfl⟩ | cases member

theorem Stored.slot_lt {slot : Nat} (stored : heap.Stored value)
    (isSlot : partSlot value = some slot) : slot < heap.slots.length := by
  obtain ⟨object, found, -⟩ := stored.object isSlot
  by_contra outside
  rw [object?, List.getElem?_eq_none (by omega)] at found
  cases found

theorem Owned.path (owned : heap.Owned (depth + 1) value) (least : ¬ heap.Owned depth value) :
    ∃ slots : List Nat, slots.Nodup ∧ slots.length = depth ∧
      ∀ slot ∈ slots, slot < heap.slots.length ∧ ∃ other height, height ≤ depth ∧
        partSlot other = some slot ∧ heap.Stored other ∧ heap.Owned (height + 1) other := by
  induction depth generalizing value with
  | zero => exact ⟨[], List.nodup_nil, rfl, fun slot member => (by cases member)⟩
  | succ depth ih =>
    obtain ⟨stored, parts⟩ := owned
    have deepest : ∃ part ∈ heap.parts value, ¬ heap.Owned depth part := by
      by_contra shallow
      push Not at shallow
      exact least ⟨stored, shallow⟩
    obtain ⟨part, member, partLeast⟩ := deepest
    obtain ⟨slots, nodup, length, path⟩ := ih (parts part member) partLeast
    obtain ⟨slot, isSlot⟩ := partSlot_of_part member
    refine ⟨slot :: slots, ?_, by rw [List.length_cons, length], ?_⟩
    · rw [List.nodup_cons]
      refine ⟨?_, nodup⟩
      intro again
      obtain ⟨-, other, height, below, otherSlot, otherStored, otherOwned⟩ := path slot again
      rw [← stored.unique otherStored isSlot otherSlot] at otherOwned
      exact least (otherOwned.mono (by omega))
    · intro some member
      rcases List.mem_cons.mp member with rfl | member
      · exact ⟨stored.slot_lt isSlot, value, depth + 1, le_refl _, isSlot, stored,
          stored, parts⟩
      · obtain ⟨inside, other, height, below, rest⟩ := path some member
        exact ⟨inside, other, height, by omega, rest⟩

theorem Owned.within (owned : heap.Owned depth value) :
    heap.Owned (heap.slots.length + 1) value := by
  induction depth with
  | zero => exact owned.elim
  | succ depth ih =>
    by_cases smaller : heap.Owned depth value
    · exact ih smaller
    · obtain ⟨slots, nodup, length, path⟩ := owned.path smaller
      have fits : slots.length ≤ (List.range heap.slots.length).length :=
        (List.subperm_of_subset nodup fun slot member =>
          List.mem_range.mpr (path slot member).1).length_le
      rw [List.length_range] at fits
      exact owned.mono (by omega)

theorem Owned.contentTo_eq (owned : heap.Owned depth value) (deeper : depth ≤ more) :
    heap.contentTo more value = heap.contentTo depth value := by
  induction depth generalizing more value with
  | zero => exact owned.elim
  | succ depth ih =>
    obtain ⟨more, rfl⟩ := Nat.exists_eq_add_of_le deeper
    have parts : (heap.parts value).map (heap.contentTo (depth + more)) =
        (heap.parts value).map (heap.contentTo depth) :=
      List.map_congr_left fun part member => ih (owned.2 part member) (by omega)
    rw [Nat.add_right_comm]
    cases value <;> first
      | rfl
      | (unfold contentTo
         simp only
         exact congrArg _ (congrArg _ parts))

def blockless (heap : Heap) : Nat → Value → Bool
  | 0, _ => true
  | _ + 1, .cBlock _ => false
  | depth + 1, value => (heap.parts value).all (blockless heap depth)

theorem Owned.blockless_eq (owned : heap.Owned depth value) (deeper : depth ≤ more) :
    heap.blockless more value = heap.blockless depth value := by
  induction depth generalizing more value with
  | zero => exact owned.elim
  | succ depth ih =>
    obtain ⟨more, rfl⟩ := Nat.exists_eq_add_of_le deeper
    have parts : ∀ part ∈ heap.parts value,
        heap.blockless (depth + more) part = heap.blockless depth part :=
      fun part member => ih (owned.2 part member) (by omega)
    rw [Nat.add_right_comm]
    cases value <;> first
      | rfl
      | (unfold blockless
         rw [Bool.eq_iff_iff, List.all_eq_true, List.all_eq_true]
         exact forall₂_congr fun part member => by rw [parts part member])

/-! ## Steps that keep objects -/

/-- A step after which the objects of an earlier heap are still there with no fewer
holders, except in the slots that are lost. -/
structure Keeps (lost : Nat → Prop) (old new : Heap) : Prop where
  objects : ∀ slot object, ¬ lost slot → old.object? slot = some object →
    ∃ other, new.object? slot = some other ∧ other.bare = object.bare ∧
      object.shares ≤ other.shares
  blocks : ∀ block, block < old.blocks.length → block < new.blocks.length ∧
    new.blockValues block = old.blockValues block
  addressOf : new.addressOf = old.addressOf

namespace Keeps

variable {lost : Nat → Prop} {old new : Heap}

theorem refl (heap : Heap) : Keeps lost heap heap :=
  ⟨fun _ object _ found => ⟨object, found, rfl, le_refl _⟩, fun _ inside => ⟨inside, rfl⟩, rfl⟩

theorem trans {first second third : Heap} (earlier : Keeps (fun _ => False) first second)
    (later : Keeps lost second third) : Keeps lost first third where
  objects := by
    intro slot object kept found
    obtain ⟨middle, middleFound, middleBare, middleShares⟩ :=
      earlier.objects slot object id found
    obtain ⟨last, lastFound, lastBare, lastShares⟩ := later.objects slot middle kept middleFound
    exact ⟨last, lastFound, lastBare.trans middleBare, middleShares.trans lastShares⟩
  blocks := by
    intro block inside
    obtain ⟨middle, middleValues⟩ := earlier.blocks block inside
    obtain ⟨last, lastValues⟩ := later.blocks block middle
    exact ⟨last, lastValues.trans middleValues⟩
  addressOf := later.addressOf.trans earlier.addressOf

/-- What is read off a stored object. -/
theorem stored (keeps : Keeps lost old new) {value : Value} (stored : old.Stored value)
    (snapshots : ∀ slot, lost slot → ∃ node, old.snapshotNode slot = some node) :
    new.Stored value ∧ new.parts value = old.parts value ∧
      ∀ depth, (∀ part ∈ old.parts value, new.contentTo depth part = old.contentTo depth part) →
        new.contentTo (depth + 1) value = old.contentTo (depth + 1) value := by
  have reads (slot : Nat) (object : Object) (found : old.object? slot = some object)
      (notSnapshot : ∀ node shares, object ≠ .snapshot node shares) :
      ∃ other, new.object? slot = some other ∧ other.bare = object.bare := by
    have kept : ¬ lost slot := by
      intro isLost
      obtain ⟨node, isNode⟩ := snapshots slot isLost
      unfold snapshotNode at isNode
      rw [found] at isNode
      split at isNode
      · next stored shares same => exact notSnapshot _ _ (Option.some.inj same)
      · cases isNode
    obtain ⟨other, otherFound, bare, -⟩ := keeps.objects slot object kept found
    exact ⟨other, otherFound, bare⟩
  cases value with
  | str id =>
    obtain ⟨text, found⟩ := stored
    obtain ⟨other, otherFound, bare⟩ := reads id _ found (by simp)
    cases other <;> cases bare
    refine ⟨⟨text, otherFound⟩, rfl, fun depth _ => ?_⟩
    simp only [contentTo, get, found, otherFound]
  | struct id =>
    obtain ⟨block, found, inside⟩ := stored
    obtain ⟨other, otherFound, bare⟩ := reads id _ found (by simp)
    cases other <;> cases bare
    obtain ⟨newInside, values⟩ := keeps.blocks block inside
    have parts : new.fields id = old.fields id := by
      simp only [fields, found, otherFound, values]
    refine ⟨⟨block, otherFound, newInside⟩, parts, fun depth same => ?_⟩
    simp only [contentTo, parts]
    have mapped : (old.fields id).map (new.contentTo depth) = (old.fields id).map (old.contentTo depth) :=
      List.map_congr_left same
    rw [mapped]
  | array id =>
    obtain ⟨block, found, inside⟩ := stored
    obtain ⟨other, otherFound, bare⟩ := reads id _ found (by simp)
    cases other <;> cases bare
    obtain ⟨newInside, values⟩ := keeps.blocks block inside
    have parts : new.elements id = old.elements id := by
      simp only [elements, found, otherFound, values]
    refine ⟨⟨block, otherFound, newInside⟩, parts, fun depth same => ?_⟩
    simp only [contentTo, parts]
    have mapped : (old.elements id).map (new.contentTo depth) = (old.elements id).map (old.contentTo depth) :=
      List.map_congr_left same
    rw [mapped]
  | enum id =>
    obtain ⟨tag, payload, shares, found⟩ := stored
    obtain ⟨other, otherFound, bare⟩ := reads id _ found (by simp)
    cases other <;> cases bare
    have parts : new.enumPayloadRef id = old.enumPayloadRef id := by
      simp only [enumPayloadRef, found, otherFound]
    refine ⟨⟨tag, payload, _, otherFound⟩, congrArg Option.toList parts, fun depth same => ?_⟩
    simp only [contentTo, parts, enumTag, found, otherFound]
    have mapped : (old.enumPayloadRef id).toList.map (new.contentTo depth) =
        (old.enumPayloadRef id).toList.map (old.contentTo depth) :=
      List.map_congr_left same
    rw [mapped]
  | erased id =>
    obtain ⟨typeId, payload, shares, found⟩ := stored
    obtain ⟨other, otherFound, bare⟩ := reads id _ found (by simp)
    cases other <;> cases bare
    have parts : new.erasedPayloadRef id = old.erasedPayloadRef id := by
      simp only [erasedPayloadRef, found, otherFound]
    refine ⟨⟨typeId, payload, _, otherFound⟩, congrArg Option.toList parts, fun depth same => ?_⟩
    simp only [contentTo, parts, erasedTypeId, found, otherFound]
    have mapped : (old.erasedPayloadRef id).toList.map (new.contentTo depth) =
        (old.erasedPayloadRef id).toList.map (old.contentTo depth) :=
      List.map_congr_left same
    rw [mapped]
  | cBlock id =>
    obtain ⟨serial, bytes, children, found⟩ := stored
    obtain ⟨other, otherFound, bare⟩ := reads id _ found (by simp)
    cases other <;> cases bare
    refine ⟨⟨serial, bytes, children, otherFound⟩, rfl, fun depth _ => ?_⟩
    simp only [contentTo, cblockAddress, found, otherFound, keeps.addressOf]
  | nativeSnapshot id => exact stored.elim
  | _ => exact ⟨trivial, rfl, fun _ _ => rfl⟩

theorem owned (keeps : Keeps lost old new) {depth : Nat} {value : Value}
    (owned : old.Owned depth value)
    (snapshots : ∀ slot, lost slot → ∃ node, old.snapshotNode slot = some node) :
    new.Owned depth value ∧ new.contentTo depth value = old.contentTo depth value ∧
      new.blockless depth value = old.blockless depth value := by
  induction depth generalizing value with
  | zero => exact owned.elim
  | succ depth ih =>
    obtain ⟨stored, partsSame, content⟩ := keeps.stored owned.1 snapshots
    refine ⟨⟨stored, ?_⟩, ?_, ?_⟩
    · rw [partsSame]
      exact fun part member => (ih (owned.2 part member)).1
    · exact content depth fun part member => (ih (owned.2 part member)).2.1
    · have parts : ∀ part ∈ old.parts value,
          new.blockless depth part = old.blockless depth part :=
        fun part member => (ih (owned.2 part member)).2.2
      cases value <;> first
        | rfl
        | (unfold blockless
           rw [partsSame, Bool.eq_iff_iff, List.all_eq_true, List.all_eq_true]
           exact forall₂_congr fun part member => by rw [parts part member])

end Keeps

end Heap

end KiraVm
