import KiraVm.ValueReadings

/-!
# Rebuilding callback state

Rebuilding a node allocates objects and leaves the objects that are there.  What it
builds from a plain node is an owned value with the contents of the node.
-/

namespace KiraVm

namespace Heap

/-- The free slots are empty slots of the table, each listed once. -/
structure Sound (heap : Heap) : Prop where
  free : ∀ slot ∈ heap.freeList, slot < heap.slots.length ∧ heap.object? slot = none
  nodup : heap.freeList.Nodup

/-- A step that leaves the objects that are there and a sound heap. -/
structure Builds (old new : Heap) : Prop where
  sound : new.Sound
  keeps : Keeps (fun _ => False) old new

variable {heap : Heap}

theorem object?_set {slots : List (Option Object)} {slot other : Nat} {object : Option Object} :
    ((slots.set slot object)[other]?).join =
      if slot = other ∧ slot < slots.length then object else (slots[other]?).join := by
  rw [List.getElem?_set]
  by_cases same : slot = other
  · subst same
    by_cases inside : slot < slots.length
    · simp [inside]
    · simp [inside]
  · simp [same]

theorem Sound.builds_refl (sound : heap.Sound) : Builds heap heap :=
  ⟨sound, Keeps.refl heap⟩

theorem Builds.trans {first second third : Heap} (earlier : Builds first second)
    (later : Builds second third) : Builds first third :=
  ⟨later.sound, earlier.keeps.trans later.keeps⟩

theorem Sound.allocObject (sound : heap.Sound) (object : Object) :
    Builds heap (heap.allocObject object).2 ∧ heap.object? (heap.allocObject object).1 = none ∧
      (heap.allocObject object).2.object? (heap.allocObject object).1 = some object := by
  unfold Heap.allocObject
  cases free : heap.freeList with
  | nil =>
    have outside : heap.object? heap.slots.length = none := by
      rw [object?, List.getElem?_eq_none (le_refl _)]
      rfl
    refine ⟨⟨⟨?_, ?_⟩, ⟨?_, fun block inside => ⟨inside, rfl⟩, rfl⟩⟩, outside, ?_⟩
    · intro slot member
      cases member
    · exact List.nodup_nil
    · intro slot stored _ found
      refine ⟨stored, ?_, rfl, le_refl _⟩
      simp only [object?] at found ⊢
      rw [List.getElem?_append_left]
      · exact found
      · by_contra past
        rw [List.getElem?_eq_none (by omega)] at found
        cases found
    · simp only [object?, List.getElem?_append_right (le_refl _), Nat.sub_self]
      rfl
  | cons slot rest =>
    have bounds := sound.free
    have nodup := sound.nodup
    rw [free] at bounds nodup
    obtain ⟨inside, empty⟩ := bounds slot List.mem_cons_self
    rw [List.nodup_cons] at nodup
    refine ⟨⟨⟨?_, nodup.2⟩, ⟨?_, fun block inside => ⟨inside, rfl⟩, rfl⟩⟩, empty, ?_⟩
    · intro other member
      obtain ⟨otherInside, otherEmpty⟩ := bounds other (List.mem_cons_of_mem _ member)
      have different : slot ≠ other := by
        rintro rfl
        exact nodup.1 member
      refine ⟨by simpa using otherInside, ?_⟩
      simp only [object?] at otherEmpty ⊢
      rw [object?_set, if_neg (fun both => different both.1)]
      exact otherEmpty
    · intro other stored _ found
      have different : slot ≠ other := by
        rintro rfl
        rw [empty] at found
        cases found
      refine ⟨stored, ?_, rfl, le_refl _⟩
      simp only [object?] at found ⊢
      rw [object?_set, if_neg (fun both => different both.1)]
      exact found
    · simp only [object?]
      rw [object?_set, if_pos ⟨rfl, inside⟩]

theorem Sound.setObject (sound : heap.Sound) {slot : Nat} {object stored : Object}
    (found : heap.object? slot = some stored) :
    (heap.setObject slot (some object)).Sound ∧
      (heap.setObject slot (some object)).object? slot = some object ∧
      (∀ other, other ≠ slot →
        (heap.setObject slot (some object)).object? other = heap.object? other) := by
  have inside : slot < heap.slots.length := by
    by_contra outside
    rw [object?, List.getElem?_eq_none (by omega)] at found
    cases found
  have others (other : Nat) (different : other ≠ slot) :
      (heap.setObject slot (some object)).object? other = heap.object? other := by
    simp only [object?, Heap.setObject]
    rw [object?_set, if_neg (fun both => different both.1.symm)]
  refine ⟨⟨?_, sound.nodup⟩, ?_, others⟩
  · intro free member
    obtain ⟨freeInside, empty⟩ := sound.free free member
    have different : free ≠ slot := by
      rintro rfl
      rw [found] at empty
      cases empty
    refine ⟨by simpa [Heap.setObject] using freeInside, ?_⟩
    rw [others free different]
    exact empty
  · simp only [object?, Heap.setObject]
    rw [object?_set, if_pos ⟨rfl, inside⟩]

theorem Sound.builds_setObject (sound : heap.Sound) {slot : Nat} {object stored : Object}
    (found : heap.object? slot = some stored) (bare : object.bare = stored.bare)
    (shares : stored.shares ≤ object.shares) :
    Builds heap (heap.setObject slot (some object)) := by
  obtain ⟨newSound, here, others⟩ := @Sound.setObject heap sound _ object _ found
  refine ⟨newSound, ⟨?_, fun block inside => ⟨inside, rfl⟩, rfl⟩⟩
  intro other old _ oldFound
  by_cases same : other = slot
  · rw [same] at oldFound ⊢
    rw [found] at oldFound
    injection oldFound with isStored
    rw [← isStored]
    exact ⟨object, here, bare, shares⟩
  · exact ⟨old, by rw [others other same]; exact oldFound, rfl, le_refl _⟩

theorem Sound.share (sound : heap.Sound) (id : Nat) : Builds heap (heap.share id) := by
  unfold Heap.share
  split
  · next tag payload shares found => exact sound.builds_setObject found rfl (Nat.le_succ _)
  · next typeId payload shares found => exact sound.builds_setObject found rfl (Nat.le_succ _)
  · next payload shares found => exact sound.builds_setObject found rfl (Nat.le_succ _)
  · next node shares found => exact sound.builds_setObject found rfl (Nat.le_succ _)
  · exact sound.builds_refl

variable {new : Heap} {content contents : Content} {id block shares : Nat} {node : NativeStateValue}

/-- Steps on other tables. -/
theorem Sound.builds_of_same (sound : heap.Sound) (slots : new.slots = heap.slots)
    (blocks : new.blocks = heap.blocks) (freeList : new.freeList = heap.freeList)
    (addressOf : new.addressOf = heap.addressOf) : Builds heap new := by
  have objects (slot : Nat) : new.object? slot = heap.object? slot := by
    unfold object?
    rw [slots]
  refine ⟨⟨?_, by rw [freeList]; exact sound.nodup⟩, ⟨?_, ?_, addressOf⟩⟩
  · intro slot member
    rw [objects, slots]
    rw [freeList] at member
    exact sound.free slot member
  · intro slot object _ found
    exact ⟨object, by rw [objects]; exact found, rfl, le_refl _⟩
  · intro block inside
    refine ⟨by rw [blocks]; exact inside, ?_⟩
    unfold blockValues
    rw [blocks]

theorem Sound.allocBlock (sound : heap.Sound) (values : List Value) :
    Builds heap (heap.allocBlock values).2 ∧
      (heap.allocBlock values).1 < (heap.allocBlock values).2.blocks.length ∧
      (heap.allocBlock values).2.blockValues (heap.allocBlock values).1 = values := by
  unfold Heap.allocBlock
  refine ⟨⟨⟨sound.free, sound.nodup⟩, 
    ⟨fun slot object _ found => ⟨object, found, rfl, le_refl _⟩, ?_, rfl⟩⟩,
    by simp, ?_⟩
  · intro block inside
    refine ⟨by simp; omega, ?_⟩
    simp only [blockValues, List.getElem?_append_left inside]
  · simp only [blockValues, List.getElem?_append_right (le_refl _), Nat.sub_self]
    rfl

/-! ## Blocks of C storage -/

theorem Sound.cblockAttach {base : Heap} (sound : heap.Sound) (keeps : Keeps (fun _ => False) base heap)
    {root : Nat} (fresh : base.object? root = none) (offset : UInt64)
    (width : ForeignPointerWidth) (child : Nat) :
    Builds base (heap.cblockAttach root offset width child).2 := by
  unfold Heap.cblockAttach
  simp only
  split
  · next serial bytes children found =>
      split
      · obtain ⟨newSound, here, others⟩ := @Sound.setObject heap sound _ (.cBlock serial
          (patch bytes ((ByteReader.u64Bytes (heap.cblockAddress child)).take width.bytes)
            offset.toNat) (children ++ [⟨offset, width, child⟩])) _ found
        refine ⟨newSound, ⟨?_, keeps.blocks, keeps.addressOf⟩⟩
        intro slot object _ stored
        have different : slot ≠ root := by
          rintro rfl
          rw [fresh] at stored
          cases stored
        obtain ⟨other, otherFound, rest⟩ := keeps.objects slot object id stored
        exact ⟨other, (others slot different).trans otherFound, rest⟩
      · exact ⟨sound, keeps⟩
  · exact ⟨sound, keeps⟩

mutual

theorem Sound.copyNativeCBlock {heap : Heap} (sound : heap.Sound) :
    (block : NativeCBlock) → Builds heap (heap.copyNativeCBlock block).2
  | .mk bytes children => by
    simp only [Heap.copyNativeCBlock]
    obtain ⟨builds, fresh, -⟩ := sound.allocObject (.cBlock heap.allocated bytes [])
    exact copyNativeCBlocks builds fresh children

theorem Sound.copyNativeCBlocks {base heap : Heap} (builds : Builds base heap) {root : Nat}
    (fresh : base.object? root = none) :
    (children : List NativeCBlockChild) → Builds base (heap.copyNativeCBlocks root children)
  | [] => by
    simp only [Heap.copyNativeCBlocks]
    exact builds
  | .mk offset width block :: children => by
    simp only [Heap.copyNativeCBlocks]
    have nested := builds.trans (copyNativeCBlock builds.sound block)
    exact copyNativeCBlocks (nested.sound.cblockAttach nested.keeps fresh offset width _) fresh
      children

end

/-! ## Trees -/

theorem Sound.readCell (sound : heap.Sound) (handle : Nat) (vmOwned : Bool) :
    Builds heap (heap.readCell handle vmOwned).2 := by
  unfold Heap.readCell
  split
  · simp only [Heap.copyValue]
    split
    · exact sound.share handle
    · exact sound.builds_refl
  · exact sound.builds_refl

theorem Sound.duplicateToken (sound : heap.Sound) (token : UInt64) (events : Bool) :
    Builds heap (heap.duplicateToken token events) := by
  unfold Heap.duplicateToken
  split
  · exact sound.builds_of_same rfl rfl rfl rfl
  · exact sound.builds_refl

theorem Sound.attachDropGlue (sound : heap.Sound) (id : Nat) (glue : UInt32) :
    Builds heap (heap.attachDropGlue id glue) :=
  sound.builds_of_same rfl rfl rfl rfl

theorem Builds.allocContents {old : Heap} (builds : Builds old heap) (values : List Value)
    (object : Nat → Object) :
    Builds old ((heap.allocBlock values).2.allocObject (object (heap.allocBlock values).1)).2 := by
  have block := builds.trans (builds.sound.allocBlock values).1
  exact block.trans (block.sound.allocObject _).1

mutual

theorem Sound.buildState {heap : Heap} (sound : heap.Sound) :
    (node : NativeStateValue) → Builds heap (heap.buildState false node).2
  | .int _ | .float _ | .bool _ | .number _ | .rawPtr _ => by
    simp only [Heap.buildState]
    exact sound.builds_refl
  | .string text => by
    simp only [Heap.buildState]
    exact (sound.allocObject (.str text)).1
  | .struct fields => by
    simp only [Heap.buildState]
    exact (buildStates sound fields).allocContents _ .struct
  | .dropStruct glue fields => by
    simp only [Heap.buildState]
    have built := (buildStates sound fields).allocContents (heap.buildStates false fields).1
      .struct
    exact built.trans (built.sound.attachDropGlue _ glue)
  | .array elements => by
    simp only [Heap.buildState]
    exact (buildStates sound elements).allocContents _ .array
  | .enum tag payload => by
    simp only [Heap.buildState]
    have part := buildPayload sound payload
    exact part.trans (part.sound.allocObject _).1
  | .any typeId payload => by
    simp only [Heap.buildState]
    have part := buildState sound payload
    exact part.trans (part.sound.allocObject _).1
  | .cell handle vmOwned => by
    simp only [Heap.buildState]
    exact sound.readCell handle vmOwned
  | .nativeState token _ _ => by
    simp only [Heap.buildState]
    exact sound.duplicateToken token _
  | .cBlock block => by
    simp only [Heap.buildState]
    exact sound.copyNativeCBlock block

theorem Sound.buildStates {heap : Heap} (sound : heap.Sound) :
    (nodes : List NativeStateValue) → Builds heap (heap.buildStates false nodes).2
  | [] => by
    simp only [Heap.buildStates]
    exact sound.builds_refl
  | node :: nodes => by
    simp only [Heap.buildStates]
    have first := buildState sound node
    exact first.trans (buildStates first.sound nodes)

theorem Sound.buildPayload {heap : Heap} (sound : heap.Sound) :
    (payload : Option NativeStateValue) → Builds heap (heap.buildPayload false payload).2
  | none => by
    simp only [Heap.buildPayload]
    exact sound.builds_refl
  | some node => by
    simp only [Heap.buildPayload]
    exact buildState sound node

end

def Reads (heap : Heap) (value : Value) (content : Content) : Prop :=
  ∃ depth, heap.Owned depth value ∧ heap.contentTo depth value = content ∧
    heap.blockless depth value = true

theorem Reads.survives {lost : Nat → Prop} {value : Value} (reads : heap.Reads value content)
    (keeps : Keeps lost heap new)
    (snapshots : ∀ slot, lost slot → ∃ node, heap.snapshotNode slot = some node) :
    new.Reads value content := by
  obtain ⟨depth, owned, same, blockless⟩ := reads
  obtain ⟨newOwned, newSame, newBlockless⟩ := keeps.owned owned snapshots
  exact ⟨depth, newOwned, newSame.trans same, newBlockless.trans blockless⟩

theorem Reads.keeps {value : Value} (reads : heap.Reads value content)
    (keeps : Keeps (fun _ => False) heap new) : new.Reads value content :=
  reads.survives keeps fun _ lost => lost.elim

def ReadsAll (heap : Heap) (values : List Value) (contents : Content) : Prop :=
  ∃ depth, (∀ value ∈ values, heap.Owned depth value ∧ heap.blockless depth value = true) ∧
    Content.chain (values.map (heap.contentTo depth)) = contents

theorem ReadsAll.nil : heap.ReadsAll [] .done :=
  ⟨0, fun value member => (by cases member), rfl⟩

theorem ReadsAll.cons {value : Value} {values : List Value} {content contents : Content}
    (first : heap.Reads value content) (rest : heap.ReadsAll values contents) :
    heap.ReadsAll (value :: values) (.also content contents) := by
  obtain ⟨depth, owned, same, blockless⟩ := first
  obtain ⟨restDepth, all, restSame⟩ := rest
  refine ⟨max depth restDepth, ?_, ?_⟩
  · intro other member
    rcases List.mem_cons.mp member with rfl | member
    · rw [owned.blockless_eq (le_max_left _ _)]
      exact ⟨owned.mono (le_max_left _ _), blockless⟩
    · obtain ⟨otherOwned, otherBlockless⟩ := all other member
      rw [otherOwned.blockless_eq (le_max_right _ _)]
      exact ⟨otherOwned.mono (le_max_right _ _), otherBlockless⟩
  · have rests : values.map (heap.contentTo (max depth restDepth)) =
        values.map (heap.contentTo restDepth) :=
      List.map_congr_left fun other member =>
        (all other member).1.contentTo_eq (le_max_right _ _)
    rw [List.map_cons, rests, Content.chain_cons, restSame,
      owned.contentTo_eq (le_max_left _ _), same]

theorem ReadsAll.keeps {values : List Value} (reads : heap.ReadsAll values contents)
    (keeps : Keeps (fun _ => False) heap new) : new.ReadsAll values contents := by
  obtain ⟨depth, all, same⟩ := reads
  have each (value : Value) (member : value ∈ values) :=
    keeps.owned (all value member).1 (fun _ lost => lost.elim)
  refine ⟨depth, ?_, ?_⟩
  · intro value member
    obtain ⟨owned, -, blockless⟩ := each value member
    exact ⟨owned, blockless.trans (all value member).2⟩
  · rw [← same]
    congr 1
    exact List.map_congr_left fun value member => (each value member).2.1

theorem Reads.of_parts {value : Value} {contents : Content} {wrap : Content → Content}
    (stored : heap.Stored value) (notBlock : ∀ id, value ≠ .cBlock id)
    (parts : heap.ReadsAll (heap.parts value) contents)
    (wrapped : ∀ depth, heap.contentTo (depth + 1) value =
      wrap (.chain ((heap.parts value).map (heap.contentTo depth)))) :
    heap.Reads value (wrap contents) := by
  obtain ⟨depth, all, same⟩ := parts
  refine ⟨depth + 1, ⟨stored, fun part member => (all part member).1⟩, ?_, ?_⟩
  · rw [wrapped, same]
  · have blockless : (heap.parts value).all (heap.blockless depth) = true :=
      List.all_eq_true.mpr fun part member => (all part member).2
    cases value <;> first
      | exact absurd rfl (notBlock _)
      | exact blockless

theorem Sound.allocContents_spec (sound : heap.Sound) (values : List Value)
    (object : Nat → Object) (isBlock : block = (heap.allocBlock values).1)
    (isNew : (heap.allocBlock values).2.allocObject (object block) = (id, new)) :
    new.object? id = some (object block) ∧ block < new.blocks.length ∧
      new.blockValues block = values ∧ Keeps (fun _ => False) heap new := by
  subst isBlock
  obtain ⟨builds, inside, isValues⟩ := sound.allocBlock values
  obtain ⟨objectBuilds, -, found⟩ :=
    builds.sound.allocObject (object (heap.allocBlock values).1)
  obtain ⟨newInside, same⟩ := objectBuilds.keeps.blocks _ inside
  rw [isNew] at found newInside same objectBuilds
  exact ⟨found, newInside, same.trans isValues, builds.keeps.trans objectBuilds.keeps⟩

theorem parts_struct (found : heap.object? id = some (.struct block)) :
    heap.parts (.struct id) = heap.blockValues block := by
  simp only [Heap.parts, fields, found]

theorem parts_array (found : heap.object? id = some (.array block)) :
    heap.parts (.array id) = heap.blockValues block := by
  simp only [Heap.parts, elements, found]

theorem parts_enum {tag : UInt64} {payload : Option Value}
    (found : heap.object? id = some (.enum tag payload shares)) :
    heap.parts (.enum id) = payload.toList := by
  simp only [Heap.parts, enumPayloadRef, found]

theorem parts_erased {typeId : UInt64} {payload : Value}
    (found : heap.object? id = some (.erased typeId payload shares)) :
    heap.parts (.erased id) = [payload] := by
  simp only [Heap.parts, erasedPayloadRef, found]
  rfl

theorem ReadsAll.struct {values : List Value} (sound : heap.Sound)
    (reads : heap.ReadsAll values contents) :
    ((heap.allocBlock values).2.allocObject (.struct (heap.allocBlock values).1)).2.Reads
      (.struct ((heap.allocBlock values).2.allocObject (.struct (heap.allocBlock values).1)).1)
      (.struct contents) := by
  generalize isNew : (heap.allocBlock values).2.allocObject
    (.struct (heap.allocBlock values).1) = made
  rcases made with ⟨id, new⟩
  obtain ⟨found, inside, isValues, keeps⟩ := sound.allocContents_spec values .struct rfl isNew
  refine @Reads.of_parts _ (.struct _) contents .struct ⟨_, found, inside⟩ (by simp) ?_
    (fun _ => rfl)
  rw [parts_struct found, isValues]
  exact reads.keeps keeps

theorem ReadsAll.array {values : List Value} {contents : Content} (sound : heap.Sound)
    (reads : heap.ReadsAll values contents) :
    ((heap.allocBlock values).2.allocObject (.array (heap.allocBlock values).1)).2.Reads
      (.array ((heap.allocBlock values).2.allocObject (.array (heap.allocBlock values).1)).1)
      (.array contents) := by
  generalize isNew : (heap.allocBlock values).2.allocObject
    (.array (heap.allocBlock values).1) = made
  rcases made with ⟨id, new⟩
  obtain ⟨found, inside, isValues, keeps⟩ := sound.allocContents_spec values .array rfl isNew
  refine @Reads.of_parts _ (.array _) contents .array ⟨_, found, inside⟩ (by simp) ?_
    (fun _ => rfl)
  rw [parts_array found, isValues]
  exact reads.keeps keeps

theorem ReadsAll.enum {payload : Option Value} {tag : UInt64} (sound : heap.Sound)
    (reads : heap.ReadsAll payload.toList contents) :
    (heap.allocObject (.enum tag payload 1)).2.Reads
      (.enum (heap.allocObject (.enum tag payload 1)).1) (.enum (some tag) contents) := by
  obtain ⟨builds, -, found⟩ := sound.allocObject (.enum tag payload 1)
  refine @Reads.of_parts _ (.enum _) contents (.enum (some tag)) ⟨_, _, _, found⟩ (by simp) ?_ ?_
  · rw [parts_enum found]
    exact reads.keeps builds.keeps
  · intro depth
    simp only [contentTo, enumTag, found, Heap.parts]

theorem Reads.erased {payload : Value} (sound : heap.Sound) (reads : heap.Reads payload content)
    (typeId : UInt64) :
    (heap.allocObject (.erased typeId payload 1)).2.Reads
      (.erased (heap.allocObject (.erased typeId payload 1)).1)
      (.erased (some typeId) (.also content .done)) := by
  obtain ⟨builds, -, found⟩ := sound.allocObject (.erased typeId payload 1)
  refine @Reads.of_parts _ (.erased _) (.also content .done) (.erased (some typeId))
    ⟨_, _, _, found⟩ (by simp) ?_ ?_
  · rw [parts_erased found]
    exact ReadsAll.cons (reads.keeps builds.keeps) ReadsAll.nil
  · intro depth
    simp only [contentTo, erasedTypeId, found, Heap.parts]

mutual

theorem Sound.buildState_reads {heap : Heap} (sound : heap.Sound) :
    (node : NativeStateValue) → node.plain = true →
      (heap.buildState false node).2.Reads (heap.buildState false node).1 node.content
  | .int _, _ | .float _, _ | .bool _, _ | .rawPtr _, _ => by
    simp only [Heap.buildState]
    exact ⟨1, ⟨trivial, fun part member => (by cases member)⟩, rfl, rfl⟩
  | .string text, _ => by
    simp only [Heap.buildState, Heap.allocStr]
    obtain ⟨-, -, found⟩ := sound.allocObject (.str text)
    refine ⟨1, ⟨⟨text, found⟩, fun part member => (by cases member)⟩, ?_, rfl⟩
    simp only [contentTo, get, found]
    rfl
  | .struct fields, plain => by
    simp only [Heap.buildState]
    exact (buildStates_reads sound fields plain).struct (sound.buildStates fields).sound
  | .array elements, plain => by
    simp only [Heap.buildState]
    exact (buildStates_reads sound elements plain).array (sound.buildStates elements).sound
  | .enum tag payload, plain => by
    simp only [Heap.buildState]
    exact (buildPayload_reads sound payload plain).enum (sound.buildPayload payload).sound
  | .any typeId payload, plain => by
    simp only [Heap.buildState]
    exact (buildState_reads sound payload plain).erased (sound.buildState payload).sound typeId
  | .number _, plain | .dropStruct _ _, plain | .cell _ _, plain | .nativeState _ _ _, plain
  | .cBlock _, plain => by cases plain

theorem Sound.buildStates_reads {heap : Heap} (sound : heap.Sound) :
    (nodes : List NativeStateValue) → NativeStateValue.allPlain nodes = true →
      (heap.buildStates false nodes).2.ReadsAll (heap.buildStates false nodes).1
        (NativeStateValue.contents nodes)
  | [], _ => by
    simp only [Heap.buildStates]
    exact ReadsAll.nil
  | node :: nodes, plain => by
    simp only [Heap.buildStates]
    have both : node.plain = true ∧ NativeStateValue.allPlain nodes = true := by
      simpa only [NativeStateValue.allPlain, Bool.and_eq_true] using plain
    have first := buildState_reads sound node both.1
    have builds := sound.buildState node
    exact ReadsAll.cons (first.keeps (builds.sound.buildStates nodes).keeps)
      (buildStates_reads builds.sound nodes both.2)

theorem Sound.buildPayload_reads {heap : Heap} (sound : heap.Sound) :
    (payload : Option NativeStateValue) → NativeStateValue.payloadPlain payload = true →
      (heap.buildPayload false payload).2.ReadsAll (heap.buildPayload false payload).1.toList
        (NativeStateValue.payloadContent payload)
  | none, _ => by
    simp only [Heap.buildPayload]
    exact ReadsAll.nil
  | some node, plain => by
    simp only [Heap.buildPayload]
    exact ReadsAll.cons (buildState_reads sound node plain) ReadsAll.nil

end

/-! ## Giving up a snapshot -/

theorem dropLoop_nil (fuel : Nat) (heap : Heap) : dropLoop fuel heap [] = heap := by
  cases fuel <;> rfl

/-- Dropping a snapshot gives up one hold, and the slot with the last one. -/
theorem dropValue_snapshot (found : heap.object? id = some (.snapshot node shares)) :
    heap.dropValue (.nativeSnapshot id) =
      if 1 < shares then heap.setObject id (some (.snapshot node (shares - 1)))
      else heap.freeSlot id := by
  have released : heap.release (.nativeSnapshot id) =
      ([], if 1 < shares then heap.setObject id (some (.snapshot node (shares - 1)))
        else heap.freeSlot id) := by
    simp only [release, found]
    split <;> rfl
  unfold dropValue dropAll dropFuel
  rw [List.length_singleton, Nat.add_comm, dropLoop, released]
  exact dropLoop_nil _ _

/-- What a snapshot holds, and by how many holders it is held. -/
theorem snapshotNode_eq_some_iff :
    heap.snapshotNode id = some node ↔ ∃ shares, heap.object? id = some (.snapshot node shares) := by
  unfold snapshotNode
  constructor
  · intro found
    split at found
    · next stored shares isSnapshot =>
        rw [Option.some.inj found] at isSnapshot
        exact ⟨shares, isSnapshot⟩
    · cases found
  · rintro ⟨shares, found⟩
    rw [found]

theorem Keeps.snapshotNode {lost : Nat → Prop} {old : Heap} (keeps : Keeps lost old new)
    (kept : ¬ lost id) (found : old.snapshotNode id = some node) :
    new.snapshotNode id = some node := by
  rw [snapshotNode_eq_some_iff] at found ⊢
  obtain ⟨shares, isSnapshot⟩ := found
  obtain ⟨other, otherFound, bare, -⟩ := keeps.objects id _ kept isSnapshot
  cases other <;> cases bare
  exact ⟨_, otherFound⟩

theorem dropValue_keeps (found : heap.object? id = some (.snapshot node shares)) :
    Keeps (fun slot => slot = id) heap (heap.dropValue (.nativeSnapshot id)) := by
  have others (object : Option Object) (slot : Nat) (different : ¬ slot = id) :
      ((heap.slots.set id object)[slot]?).join = (heap.slots[slot]?).join := by
    rw [object?_set, if_neg (fun both => different both.1.symm)]
  rw [dropValue_snapshot found]
  split
  · exact ⟨fun slot object kept stored => ⟨object, (others _ slot kept).trans stored, rfl, le_refl _⟩,
      fun block inside => ⟨inside, rfl⟩, rfl⟩
  · exact ⟨fun slot object kept stored => ⟨object, (others _ slot kept).trans stored, rfl, le_refl _⟩,
      fun block inside => ⟨inside, rfl⟩, rfl⟩

theorem Sound.own (sound : heap.Sound) {id : Nat} {node : NativeStateValue} {shares : Nat}
    (found : heap.object? id = some (.snapshot node shares)) :
    Keeps (fun slot => slot = id) heap (heap.own (.nativeSnapshot id)).2 ∧
      (1 < shares → (heap.own (.nativeSnapshot id)).2.snapshotNode id = some node) ∧
      (node.plain = true → (heap.own (.nativeSnapshot id)).2.Reads
        (heap.own (.nativeSnapshot id)).1 node.content) := by
  have isNode : heap.snapshotNode id = some node := snapshotNode_eq_some_iff.mpr ⟨shares, found⟩
  have owned : heap.own (.nativeSnapshot id) = ((heap.buildState false node).1,
      (heap.buildState false node).2.dropValue (.nativeSnapshot id)) := by
    simp only [Heap.own, isNode]
    rfl
  have built := sound.buildState node
  obtain ⟨other, otherFound, bare, more⟩ := built.keeps.objects id _ (fun lost => lost) found
  cases other <;> cases bare
  have dropped := dropValue_keeps otherFound
  rw [owned]
  refine ⟨built.keeps.trans dropped, ?_, ?_⟩
  · intro shared
    have still : 1 < _ := lt_of_lt_of_le shared more
    simp only [Object.shares] at still
    rw [dropValue_snapshot otherFound, if_pos still]
    exact snapshotNode_eq_some_iff.mpr ⟨_, (built.sound.setObject otherFound).2.1⟩
  · intro plain
    apply (sound.buildState_reads node plain).survives dropped
    rintro slot rfl
    exact ⟨node, snapshotNode_eq_some_iff.mpr ⟨_, otherFound⟩⟩

end Heap

end KiraVm
