import KiraVm.HostModel

/-!
# Heaps whose indices are in bounds

A tidy heap hands out only slots it has, and every `Drop` body it knows of
satisfies a given predicate.  Every heap operation keeps the heap tidy, and what
it lets out into a callback-state tree satisfies the predicate too.
-/

namespace KiraVm

/-! ## Trees -/

mutual

/-- Every `Drop` body a tree names satisfies the predicate. -/
def NativeStateValue.AllGlue (allowed : UInt32 → Prop) : NativeStateValue → Prop
  | .struct fields => NativeStateValue.EachGlue allowed fields
  | .dropStruct glue fields => allowed glue ∧ NativeStateValue.EachGlue allowed fields
  | .array elements => NativeStateValue.EachGlue allowed elements
  | .any _ payload => NativeStateValue.AllGlue allowed payload
  | .enum _ payload => NativeStateValue.PayloadGlue allowed payload
  | _ => True

def NativeStateValue.EachGlue (allowed : UInt32 → Prop) : List NativeStateValue → Prop
  | [] => True
  | node :: nodes =>
    NativeStateValue.AllGlue allowed node ∧ NativeStateValue.EachGlue allowed nodes

def NativeStateValue.PayloadGlue (allowed : UInt32 → Prop) : Option NativeStateValue → Prop
  | none => True
  | some node => NativeStateValue.AllGlue allowed node

end

namespace NativeStateValue

variable {allowed : UInt32 → Prop}

theorem eachGlue_iff {nodes : List NativeStateValue} :
    EachGlue allowed nodes ↔ ∀ node ∈ nodes, node.AllGlue allowed := by
  induction nodes with
  | nil => simp [EachGlue]
  | cons node nodes ih => simp [EachGlue, ih]

end NativeStateValue

/-- The tree of a seam value, if it has one, names only allowed bodies. -/
def NativeArg.AllGlue (allowed : UInt32 → Prop) : NativeArg → Prop
  | .aggregate tree => tree.AllGlue allowed
  | _ => True

structure NativeReturn.AllGlue (allowed : UInt32 → Prop) (returned : NativeReturn) : Prop where
  result : returned.result.AllGlue allowed
  writebacks : ∀ entry ∈ returned.writebacks, entry.2.AllGlue allowed

def Object.AllGlue (allowed : UInt32 → Prop) : Object → Prop
  | .snapshot node _ => node.AllGlue allowed
  | _ => True

namespace Heap

variable {allowed : UInt32 → Prop} {heap : Heap}

/-- The free slots are inside the table, and every `Drop` body is allowed. -/
structure Tidy (allowed : UInt32 → Prop) (heap : Heap) : Prop where
  free : ∀ slot ∈ heap.freeList, slot < heap.slots.length
  glue : ∀ id glue, heap.dropGlue id = some glue → allowed glue
  pending : ∀ pending ∈ heap.pendingDrops, allowed pending.glue
  objects : ∀ object, some object ∈ heap.slots → object.AllGlue allowed

namespace Tidy

theorem empty (addressOf : Nat → UInt64) : (Heap.new addressOf).Tidy allowed where
  free := by simp [Heap.new]
  glue := by simp [Heap.new]
  pending := by simp [Heap.new]
  objects := by simp [Heap.new]

/-- The other tables do not matter. -/
theorem of_same {other : Heap} (tidy : heap.Tidy allowed) (slots : other.slots = heap.slots)
    (freeList : other.freeList = heap.freeList) (dropGlue : other.dropGlue = heap.dropGlue)
    (pendingDrops : other.pendingDrops = heap.pendingDrops) : other.Tidy allowed where
  free := by rw [freeList, slots]; exact tidy.free
  glue := by rw [dropGlue]; exact tidy.glue
  pending := by rw [pendingDrops]; exact tidy.pending
  objects := by rw [slots]; exact tidy.objects

theorem object (tidy : heap.Tidy allowed) {slot : Nat} {object : Object}
    (found : heap.object? slot = some object) : object.AllGlue allowed := by
  unfold object? at found
  rw [Option.join_eq_some_iff] at found
  exact tidy.objects object (List.mem_of_getElem? found)

theorem snapshotNode (tidy : heap.Tidy allowed) {slot : Nat} {node : NativeStateValue}
    (found : heap.snapshotNode slot = some node) : node.AllGlue allowed := by
  unfold Heap.snapshotNode at found
  split at found
  case h_1 stored shares isSnapshot =>
    have objectGlue := tidy.object isSnapshot
    simp only [Option.some.injEq] at found
    subst found
    exact objectGlue
  case h_2 => cases found

/-! ## Slots and blocks -/

theorem setObject (tidy : heap.Tidy allowed) (slot : Nat) {object : Option Object}
    (glue : ∀ stored ∈ object, stored.AllGlue allowed) :
    (heap.setObject slot object).Tidy allowed where
  free := by simpa [Heap.setObject] using tidy.free
  glue := tidy.glue
  pending := tidy.pending
  objects := by
    intro stored member
    rcases List.mem_or_eq_of_mem_set member with old | new
    · exact tidy.objects stored old
    · exact glue stored new.symm

theorem allocObject (tidy : heap.Tidy allowed) (object : Object) (glue : object.AllGlue allowed) :
    (heap.allocObject object).2.Tidy allowed := by
  unfold Heap.allocObject
  split
  case h_1 slot rest freeList =>
    have bounds := tidy.free
    rw [freeList] at bounds
    refine ⟨?_, tidy.glue, tidy.pending, ?_⟩
    · intro free member
      simpa using bounds free (List.mem_cons_of_mem slot member)
    · intro stored member
      rcases List.mem_or_eq_of_mem_set member with old | new
      · exact tidy.objects stored old
      · cases new
        exact glue
  case h_2 freeList =>
    refine ⟨?_, tidy.glue, tidy.pending, ?_⟩
    · intro free member
      simp [freeList] at member
    · intro stored member
      rcases List.mem_append.mp member with old | new
      · exact tidy.objects stored old
      · simp only [List.mem_singleton, Option.some.injEq] at new
        subst new
        exact glue

/-- A slot that held something is inside the table. -/
theorem freeSlot (tidy : heap.Tidy allowed) {slot : Nat} {object : Object}
    (found : heap.object? slot = some object) : (heap.freeSlot slot).Tidy allowed where
  free := by
    intro free member
    have inside : slot < heap.slots.length := by
      unfold object? at found
      rw [Option.join_eq_some_iff] at found
      exact (List.getElem?_eq_some_iff.mp found).1
    simp only [Heap.freeSlot, List.mem_cons] at member
    rcases member with rfl | old
    · simpa [Heap.freeSlot] using inside
    · simpa [Heap.freeSlot] using tidy.free free old
  glue := tidy.glue
  pending := tidy.pending
  objects := by
    intro stored member
    rcases List.mem_or_eq_of_mem_set member with old | new
    · exact tidy.objects stored old
    · cases new

theorem allocBlock (tidy : heap.Tidy allowed) (values : List Value) :
    (heap.allocBlock values).2.Tidy allowed :=
  tidy.of_same rfl rfl rfl rfl

theorem cloneBlock (tidy : heap.Tidy allowed) (block : Nat) :
    (heap.cloneBlock block).Tidy allowed :=
  tidy.of_same rfl rfl rfl rfl

theorem dropBlock (tidy : heap.Tidy allowed) (block : Nat) :
    (heap.dropBlock block).2.Tidy allowed := by
  unfold Heap.dropBlock
  split
  · exact tidy
  · split
    · exact tidy.of_same rfl rfl rfl rfl
    · exact tidy.of_same rfl rfl rfl rfl

theorem setBlockValue (tidy : heap.Tidy allowed) (block index : Nat) (value : Value) :
    (heap.setBlockValue block index value).Tidy allowed :=
  tidy.of_same rfl rfl rfl rfl

theorem pushBlockValue (tidy : heap.Tidy allowed) (block : Nat) (value : Value) :
    (heap.pushBlockValue block value).Tidy allowed :=
  tidy.of_same rfl rfl rfl rfl

/-! ## Dropping -/

variable {glue : UInt32}

theorem attachDropGlue (tidy : heap.Tidy allowed) (id : Nat) (holds : allowed glue) :
    (heap.attachDropGlue id glue).Tidy allowed where
  free := tidy.free
  glue := by
    intro other found
    by_cases same : other = id
    · subst same
      simp only [Heap.attachDropGlue, Function.update_self, Option.some.injEq]
      rintro rfl
      exact holds
    · simpa [Heap.attachDropGlue, Function.update_of_ne same] using tidy.glue other found
  pending := tidy.pending
  objects := tidy.objects

theorem removeDropGlue (tidy : heap.Tidy allowed) (id : Nat) :
    (heap.removeDropGlue id).Tidy allowed where
  free := tidy.free
  glue := by
    intro other found
    by_cases same : other = id
    · subst same
      simp [Heap.removeDropGlue]
    · simpa [Heap.removeDropGlue, Function.update_of_ne same] using tidy.glue other found
  pending := tidy.pending
  objects := tidy.objects

theorem parkPendingDrop (tidy : heap.Tidy allowed) (id : Nat) (holds : allowed glue) :
    (heap.parkPendingDrop id glue).Tidy allowed where
  free := tidy.free
  glue := tidy.glue
  pending := by
    intro pending member
    simp only [Heap.parkPendingDrop, List.mem_cons] at member
    rcases member with rfl | old
    · exact holds
    · exact tidy.pending pending old
  objects := tidy.objects

theorem release (tidy : heap.Tidy allowed) (value : Value) :
    (heap.release value).2.Tidy allowed := by
  cases value
  case nativeState token => exact tidy.of_same rfl rfl rfl rfl
  case str id =>
    simp only [Heap.release]
    split
    case h_1 found => exact tidy.freeSlot found
    case h_2 => exact tidy
  case struct id =>
    simp only [Heap.release]
    split
    case h_1 block found =>
      split
      case h_1 glue known _ => exact tidy.parkPendingDrop id (tidy.glue id glue known)
      case h_2 => exact ((tidy.freeSlot found).removeDropGlue id).dropBlock block
    case h_2 => exact tidy
  case array id =>
    simp only [Heap.release]
    split
    case h_1 block found => exact (tidy.freeSlot found).dropBlock block
    case h_2 => exact tidy
  case cBlock id =>
    simp only [Heap.release]
    split
    case h_1 found => exact tidy.freeSlot found
    case h_2 => exact tidy
  case enum id | erased id | cell id | nativeSnapshot id =>
    simp only [Heap.release]
    split
    case h_1 found =>
      have glue := tidy.object found
      split
      · exact tidy.setObject id (fun _ same => by cases same; exact glue)
      · exact tidy.freeSlot found
    case h_2 => exact tidy
  all_goals exact tidy

theorem dropLoop (fuel : Nat) (tidy : heap.Tidy allowed) (values : List Value) :
    (Heap.dropLoop fuel heap values).Tidy allowed := by
  induction fuel generalizing heap values with
  | zero => exact tidy
  | succ fuel ih =>
    cases values with
    | nil => exact tidy
    | cons value values => exact ih (tidy.release value) _

theorem dropAll (tidy : heap.Tidy allowed) (values : List Value) :
    (heap.dropAll values).Tidy allowed :=
  tidy.dropLoop _ values

theorem dropValue (tidy : heap.Tidy allowed) (value : Value) :
    (heap.dropValue value).Tidy allowed :=
  tidy.dropAll [value]

theorem finishPendingDrop (tidy : heap.Tidy allowed) (id : Nat) :
    (heap.finishPendingDrop id).Tidy allowed :=
  (tidy.removeDropGlue id).dropValue (.struct id)

theorem takePendingDrop (tidy : heap.Tidy allowed) {pending : PendingDrop}
    {rest : List PendingDrop} (parked : heap.pendingDrops = pending :: rest) :
    ({ heap with pendingDrops := rest } : Heap).Tidy allowed where
  free := tidy.free
  glue := tidy.glue
  pending := by
    intro other member
    exact tidy.pending other (by rw [parked]; exact List.mem_cons_of_mem pending member)
  objects := tidy.objects

theorem abandonPendingDrops (tidy : heap.Tidy allowed) :
    heap.abandonPendingDrops.Tidy allowed := by
  unfold Heap.abandonPendingDrops
  generalize heap.dropFuel _ = fuel
  induction fuel generalizing heap with
  | zero => exact tidy
  | succ fuel ih =>
    unfold Heap.abandonPendingDrops.go
    split
    · exact tidy
    case h_2 pending rest parked => exact ih ((tidy.takePendingDrop parked).finishPendingDrop _)

/-! ## Copying -/

theorem cblockBytes (tidy : heap.Tidy allowed) (bytes : List UInt8) :
    (heap.cblockBytes bytes).2.Tidy allowed :=
  tidy.allocObject (.cBlock heap.allocated bytes []) trivial

theorem cblockAttach (tidy : heap.Tidy allowed) (parent : Nat) (offset : UInt64)
    (width : ForeignPointerWidth) (child : Nat) :
    (heap.cblockAttach parent offset width child).2.Tidy allowed := by
  unfold Heap.cblockAttach
  split
  · split
    · exact tidy.setObject parent (by simp [Object.AllGlue])
    · exact tidy
  · exact tidy

theorem copyCBlock (depth : Nat) (tidy : heap.Tidy allowed) (id : Nat) :
    (Heap.copyCBlock depth heap id).2.Tidy allowed := by
  induction depth generalizing heap id with
  | zero => exact tidy.cblockBytes []
  | succ depth ih =>
    unfold Heap.copyCBlock
    split
    case h_1 bytes children _ =>
      refine List.foldlRecOn children _ (tidy.cblockBytes bytes) ?_
      intro built tidyBuilt child _
      exact (ih tidyBuilt child.block).cblockAttach _ _ _ _
    case h_2 => exact tidy.cblockBytes []

theorem share (tidy : heap.Tidy allowed) (id : Nat) : (heap.share id).Tidy allowed := by
  unfold Heap.share
  split
  case h_5 => exact tidy
  all_goals
    rename_i found
    have glue := tidy.object found
    exact tidy.setObject id (fun _ same => by cases same; exact glue)

theorem copyValue (tidy : heap.Tidy allowed) (value : Value) :
    (heap.copyValue value).2.Tidy allowed := by
  cases value
  case nativeState token => exact tidy.of_same rfl rfl rfl rfl
  case str id => exact tidy.allocObject (.str (heap.get id)) trivial
  case struct id =>
    simp only [Heap.copyValue]
    split
    case' h_1 glue known =>
      have allowedGlue : allowed glue := by
        split at known
        · exact tidy.glue id glue known
        · exact tidy.glue id glue known
      refine attachDropGlue (allocObject ?_ (.struct _) trivial) _ allowedGlue
    case' h_2 => refine allocObject ?_ (.struct _) trivial
    all_goals
      split
      · exact tidy.cloneBlock _
      · exact tidy.allocBlock []
  case array id =>
    simp only [Heap.copyValue]
    refine allocObject ?_ (.array _) trivial
    split
    · exact tidy.cloneBlock _
    · exact tidy.allocBlock []
  case enum id | erased id | cell id | nativeSnapshot id =>
    simp only [Heap.copyValue]
    split
    · exact tidy.share id
    · exact tidy
  case cBlock id => exact tidy.copyCBlock (heap.slots.length + 1) id
  all_goals exact tidy

theorem copyAll (tidy : heap.Tidy allowed) (values : List Value) :
    (heap.copyAll values).2.Tidy allowed := by
  induction values generalizing heap with
  | nil => exact tidy
  | cons value values ih => exact ih (tidy.copyValue value)

/-! ## Callback state as objects -/

mutual

theorem copyNativeCBlock {heap : Heap} (tidy : heap.Tidy allowed) :
    (block : NativeCBlock) → (heap.copyNativeCBlock block).2.Tidy allowed
  | .mk bytes children => by
    simp only [Heap.copyNativeCBlock]
    exact copyNativeCBlocks (tidy.cblockBytes bytes) _ children

theorem copyNativeCBlocks {heap : Heap} (tidy : heap.Tidy allowed) (root : Nat) :
    (children : List NativeCBlockChild) → (heap.copyNativeCBlocks root children).Tidy allowed
  | [] => by
    simp only [Heap.copyNativeCBlocks]
    exact tidy
  | .mk offset width block :: children => by
    simp only [Heap.copyNativeCBlocks]
    exact copyNativeCBlocks ((copyNativeCBlock tidy block).cblockAttach ..) root children

end

theorem allocStr (tidy : heap.Tidy allowed) (text : String) :
    (heap.allocStr text).2.Tidy allowed :=
  tidy.allocObject (.str text) trivial

theorem readCell (tidy : heap.Tidy allowed) (handle : Nat) (vmOwned : Bool) :
    (heap.readCell handle vmOwned).2.Tidy allowed := by
  unfold Heap.readCell
  split
  · exact tidy.copyValue _
  · exact tidy

theorem duplicateToken (tidy : heap.Tidy allowed) (token : UInt64) (events : Bool) :
    (heap.duplicateToken token events).Tidy allowed := by
  unfold Heap.duplicateToken
  split
  · exact tidy.of_same rfl rfl rfl rfl
  · exact tidy

mutual

theorem buildState {heap : Heap} (tidy : heap.Tidy allowed) (consuming : Bool) :
    (tree : NativeStateValue) → tree.AllGlue allowed →
      (Heap.buildState consuming heap tree).2.Tidy allowed
  | .int _, _ | .float _, _ | .bool _, _ | .number _, _ | .rawPtr _, _ => by
    simp only [Heap.buildState]
    exact tidy
  | .string text, _ => by
    simp only [Heap.buildState]
    exact tidy.allocStr text
  | .struct fields, glue => by
    simp only [NativeStateValue.AllGlue] at glue
    simp only [Heap.buildState]
    exact ((buildStates tidy consuming fields glue).allocBlock _).allocObject (.struct _) trivial
  | .dropStruct _ fields, glue => by
    simp only [NativeStateValue.AllGlue] at glue
    simp only [Heap.buildState]
    exact (((buildStates tidy consuming fields glue.2).allocBlock _).allocObject (.struct _)
      trivial).attachDropGlue _ glue.1
  | .array elements, glue => by
    simp only [NativeStateValue.AllGlue] at glue
    simp only [Heap.buildState]
    exact ((buildStates tidy consuming elements glue).allocBlock _).allocObject (.array _) trivial
  | .enum tag payload, glue => by
    simp only [NativeStateValue.AllGlue] at glue
    simp only [Heap.buildState]
    exact (buildPayload tidy consuming payload glue).allocObject (.enum tag.toUInt64 _ 1) trivial
  | .any typeId payload, glue => by
    simp only [NativeStateValue.AllGlue] at glue
    simp only [Heap.buildState]
    exact (buildState tidy consuming payload glue).allocObject (.erased typeId _ 1) trivial
  | .cell handle vmOwned, _ => by
    simp only [Heap.buildState]
    exact tidy.readCell handle vmOwned
  | .nativeState token _ _, _ => by
    simp only [Heap.buildState]
    exact tidy.duplicateToken token _
  | .cBlock block, _ => by
    simp only [Heap.buildState]
    exact tidy.copyNativeCBlock block

theorem buildStates {heap : Heap} (tidy : heap.Tidy allowed) (consuming : Bool) :
    (trees : List NativeStateValue) → NativeStateValue.EachGlue allowed trees →
      (Heap.buildStates consuming heap trees).2.Tidy allowed
  | [], _ => by
    simp only [Heap.buildStates]
    exact tidy
  | tree :: trees, glue => by
    simp only [NativeStateValue.EachGlue] at glue
    simp only [Heap.buildStates]
    exact buildStates (buildState tidy consuming tree glue.1) consuming trees glue.2

theorem buildPayload {heap : Heap} (tidy : heap.Tidy allowed) (consuming : Bool) :
    (payload : Option NativeStateValue) → NativeStateValue.PayloadGlue allowed payload →
      (Heap.buildPayload consuming heap payload).2.Tidy allowed
  | none, _ => by
    simp only [Heap.buildPayload]
    exact tidy
  | some tree, glue => by
    simp only [NativeStateValue.PayloadGlue] at glue
    simp only [Heap.buildPayload]
    exact buildState tidy consuming tree glue

end

theorem fromNativeState (tidy : heap.Tidy allowed) {tree : NativeStateValue}
    (glue : tree.AllGlue allowed) : (heap.fromNativeState tree).2.Tidy allowed :=
  tidy.buildState false tree glue

theorem dropNativeStateValue (tidy : heap.Tidy allowed) {tree : NativeStateValue}
    (glue : tree.AllGlue allowed) : (heap.dropNativeStateValue tree).Tidy allowed :=
  (tidy.buildState true tree glue).dropValue _

theorem readStateNode (tidy : heap.Tidy allowed) {node : NativeStateValue}
    (glue : node.AllGlue allowed) : (heap.readStateNode node).2.Tidy allowed := by
  unfold Heap.readStateNode
  split
  case h_5 => exact tidy.fromNativeState glue
  all_goals exact tidy.allocObject (.snapshot _ 1) glue

theorem own (tidy : heap.Tidy allowed) (value : Value) : (heap.own value).2.Tidy allowed := by
  unfold Heap.own
  split
  case h_1 id =>
    split
    case h_1 => exact tidy.dropValue _
    case h_2 node found => exact (tidy.fromNativeState (tidy.snapshotNode found)).dropValue _
  case h_2 => exact tidy

theorem ownAll (tidy : heap.Tidy allowed) (values : List Value) :
    (heap.ownAll values).2.Tidy allowed := by
  induction values generalizing heap with
  | nil => exact tidy
  | cons value values ih => exact ih (tidy.own value)

/-! ## Building and writing -/

theorem allocStruct (tidy : heap.Tidy allowed) (fields : List Value) :
    (heap.allocStruct fields).2.Tidy allowed :=
  ((tidy.ownAll fields).allocBlock _).allocObject (.struct _) trivial

theorem allocStructDropping (tidy : heap.Tidy allowed) (fields : List Value)
    (holds : allowed glue) : (heap.allocStructDropping fields glue).2.Tidy allowed :=
  (((tidy.ownAll fields).allocBlock _).allocObject (.struct _) trivial).attachDropGlue _
    holds

theorem allocArray (tidy : heap.Tidy allowed) (elements : List Value) :
    (heap.allocArray elements).2.Tidy allowed :=
  ((tidy.ownAll elements).allocBlock _).allocObject (.array _) trivial

theorem allocEnum (tidy : heap.Tidy allowed) (tag : UInt64) (payload : Option Value) :
    (heap.allocEnum tag payload).2.Tidy allowed := by
  cases payload with
  | none => exact tidy.allocObject (.enum tag none 1) trivial
  | some value => exact (tidy.own value).allocObject (.enum tag _ 1) trivial

theorem allocErased (tidy : heap.Tidy allowed) (typeId : UInt64) (payload : Value) :
    (heap.allocErased typeId payload).2.Tidy allowed :=
  (tidy.own payload).allocObject (.erased typeId _ 1) trivial

theorem allocCell (tidy : heap.Tidy allowed) (payload : Value) :
    (heap.allocCell payload).2.Tidy allowed :=
  (tidy.own payload).allocObject (.cell _ 1) trivial

theorem allocStrs (tidy : heap.Tidy allowed) (texts : List String) :
    (heap.allocStrs texts).2.Tidy allowed := by
  induction texts generalizing heap with
  | nil => exact tidy
  | cons text texts ih => exact ih (tidy.allocStr text)

theorem makeStructUnique (tidy : heap.Tidy allowed) (id : Nat) :
    (heap.makeStructUnique id).Tidy allowed := by
  unfold Heap.makeStructUnique
  split
  · split
    · exact (((tidy.copyAll _).allocBlock _).setObject id (by simp [Object.AllGlue])).dropBlock _
    · exact tidy
  · exact tidy

theorem makeArrayUnique (tidy : heap.Tidy allowed) (id : Nat) :
    (heap.makeArrayUnique id).Tidy allowed := by
  unfold Heap.makeArrayUnique
  split
  · split
    · exact (((tidy.copyAll _).allocBlock _).setObject id (by simp [Object.AllGlue])).dropBlock _
    · exact tidy
  · exact tidy

theorem writeField (tidy : heap.Tidy allowed) (id index : Nat) (value : Value) :
    (heap.writeField id index value).2.Tidy allowed := by
  unfold Heap.writeField
  split
  · split
    · exact tidy.setBlockValue _ _ _
    · exact tidy
  · exact tidy

theorem setField (tidy : heap.Tidy allowed) (id : Nat) (index : UInt64) (value : Value) :
    (heap.setField id index value).2.Tidy allowed := by
  unfold Heap.setField
  split
  · exact tidy
  · have unique := (tidy.own value).makeStructUnique id
    simp only
    split
    · exact unique.dropValue _
    · exact (unique.dropValue _).writeField _ _ _

theorem makeMut (tidy : heap.Tidy allowed) (id block : Nat) :
    (heap.makeMut id block).2.Tidy allowed := by
  unfold Heap.makeMut
  split
  · exact tidy
  · exact ((tidy.allocBlock _).setObject id (by simp [Object.AllGlue])).dropBlock _

theorem writeElement (tidy : heap.Tidy allowed) (id index : Nat) (value : Value) :
    (heap.writeElement id index value).2.Tidy allowed := by
  unfold Heap.writeElement
  split
  case h_1 block _ =>
    simp only
    split
    · exact (tidy.makeMut id block).setBlockValue _ _ _
    · exact tidy.makeMut id block
  case h_2 => exact tidy

theorem setElement (tidy : heap.Tidy allowed) (id index : Nat) (value : Value) :
    (heap.setElement id index value).2.Tidy allowed := by
  unfold Heap.setElement
  split
  · exact tidy
  · have unique := (tidy.own value).makeArrayUnique id
    simp only
    split
    · exact unique.dropValue _
    · exact (unique.dropValue _).writeElement _ _ _

theorem pushElement (tidy : heap.Tidy allowed) (id : Nat) (value : Value) :
    (heap.pushElement id value).2.Tidy allowed := by
  unfold Heap.pushElement
  split
  · exact tidy
  · have unique := (tidy.own value).makeArrayUnique id
    simp only
    split
    case h_1 block _ => exact (unique.makeMut id block).pushBlockValue _ _
    case h_2 => exact unique

theorem cellSet (tidy : heap.Tidy allowed) (id : Nat) (value : Value) :
    (heap.cellSet id value).2.Tidy allowed := by
  unfold Heap.cellSet
  split
  · split
    · exact tidy.dropValue value
    · have owned := tidy.own value
      simp only
      split
      · exact (owned.setObject id (by simp [Object.AllGlue])).dropValue _
      · exact owned
  · exact tidy.dropValue value

theorem retainForForeign (tidy : heap.Tidy allowed) (value : Value) :
    (heap.retainForForeign value).Tidy allowed := by
  unfold Heap.retainForForeign
  split
  · exact tidy
  · exact tidy.of_same rfl rfl rfl rfl

end Tidy

end Heap

end KiraVm
