import KiraVm.AggregateWriting

/-!
# Structs read from the layout of C

A `void` member has no value, so an object that has one cannot be read.  The structs and
arrays that were built before it stay in the heap.
-/

namespace KiraVm

namespace Aggregates

open StorageLayout

/-! ## Objects that can be read -/

mutual

/-- Every scalar that is read has a value. -/
def complete : Storage ForeignType → Bool
  | .scalar ty => decide (ty ≠ .void)
  | .array element count => decide (count = 0) || complete element
  | .record members => allComplete members

def allComplete : List (Storage ForeignType) → Bool
  | [] => true
  | member :: members => complete member && allComplete members

end

/-- The slots that an object takes itself. -/
def ownSlots : Storage ForeignType → Nat
  | .scalar _ => 0
  | .array _ _ | .record _ => 1

mutual

/-- The first scalar without a value is read after a struct or an array was built. -/
def strands : Storage ForeignType → Bool
  | .scalar _ => false
  | .array element count => decide (count ≠ 0) && strands element
  | .record members => membersStrand 0 members

def membersStrand (built : Nat) : List (Storage ForeignType) → Bool
  | [] => false
  | member :: members =>
    if complete member then membersStrand (built + ownSlots member) members
    else decide (0 < built) || strands member

end

/-! ## Growing heaps -/

/-- At least so many slots were taken, and none was given back. -/
structure Grown (count : Nat) (old new : Heap) : Prop where
  allocated : old.allocated + count ≤ new.allocated
  freed : new.freed = old.freed

theorem Grown.refl (heap : Heap) : Grown 0 heap heap :=
  ⟨le_refl _, rfl⟩

theorem Grown.trans {count more : Nat} {first second third : Heap}
    (earlier : Grown count first second) (later : Grown more second third) :
    Grown (count + more) first third := by
  constructor
  · have sooner := earlier.allocated
    have further := later.allocated
    omega
  · rw [later.freed, earlier.freed]

theorem Grown.mono {count less : Nat} {old new : Heap} (grown : Grown count old new)
    (fewer : less ≤ count) : Grown less old new :=
  ⟨le_trans (Nat.add_le_add_left fewer _) grown.allocated, grown.freed⟩

/-- A value that is not a deferred read. -/
def IsOwn (value : Value) : Prop :=
  ∀ id, value ≠ .nativeSnapshot id

variable {heap : Heap} {values : List Value} {base : Nat}

theorem ownAll_eq (owned : ∀ value ∈ values, IsOwn value) :
    heap.ownAll values = (values, heap) := by
  induction values with
  | nil => rfl
  | cons value values ih =>
    have first := owned value List.mem_cons_self
    have rest := ih fun other otherIn => owned other (List.mem_cons_of_mem value otherIn)
    have same : heap.own value = (value, heap) := by
      cases value with
      | nativeSnapshot id => exact absurd rfl (first id)
      | _ => rfl
    rw [Heap.ownAll, same]
    simp only
    rw [rest]

theorem allocStruct_eq {fields : List Value} (owned : ∀ field ∈ fields, IsOwn field) :
    heap.allocStruct fields =
      (.struct ((heap.allocBlock fields).2.allocObject (.struct (heap.allocBlock fields).1)).1,
        ((heap.allocBlock fields).2.allocObject (.struct (heap.allocBlock fields).1)).2) := by
  unfold Heap.allocStruct
  rw [ownAll_eq owned]

theorem allocArray_eq {elements : List Value} (owned : ∀ element ∈ elements, IsOwn element) :
    heap.allocArray elements =
      (.array ((heap.allocBlock elements).2.allocObject (.array (heap.allocBlock elements).1)).1,
        ((heap.allocBlock elements).2.allocObject (.array (heap.allocBlock elements).1)).2) := by
  unfold Heap.allocArray
  rw [ownAll_eq owned]

theorem allocObject_grown (heap : Heap) (object : Object) :
    Grown 1 heap (heap.allocObject object).2 := by
  unfold Heap.allocObject
  split
  · exact ⟨le_refl _, rfl⟩
  · exact ⟨le_refl _, rfl⟩

theorem allocContents_grown (heap : Heap) (values : List Value) (object : Nat → Object) :
    Grown 1 heap ((heap.allocBlock values).2.allocObject (object (heap.allocBlock values).1)).2 := by
  have grown := allocObject_grown (heap.allocBlock values).2 (object (heap.allocBlock values).1)
  exact ⟨grown.allocated, grown.freed⟩

/-! ## Outcomes -/

variable (floats : Floats) (width : ForeignPointerWidth) (bytes : List UInt8)

/-- What reading an object at a place comes to. -/
inductive Reading (object : Storage ForeignType) (base : Nat) (heap : Heap) :
    Option Value × Heap → Prop
  | built {value : Value} {new : Heap} (whole : complete object = true) (owned : IsOwn value)
      (grown : Grown (ownSlots object) heap new) (alone : ownSlots object = 0 → new = heap)
      (reads : heap.Sound → Heap.Builds heap new ∧
        new.Reads value (contentAt floats width bytes base object)) :
      Reading object base heap (some value, new)
  | refused (partly : complete object = false) (kept : strands object = false) :
      Reading object base heap (none, heap)
  | stranded {new : Heap} (partly : complete object = false) (lost : strands object = true)
      (grown : Grown 1 heap new) : Reading object base heap (none, new)

/-- What reading elements comes to, the ones before them in a list. -/
inductive ReadingElements (element : Storage ForeignType) (places : List Nat)
    (before : List Value) (heap : Heap) : Option (List Value) × Heap → Prop
  | built {values all : List Value} {new : Heap}
      (whole : places = [] ∨ complete element = true) (joined : all = before ++ values)
      (owned : ∀ value ∈ values, IsOwn value) (grown : Grown 0 heap new)
      (reads : heap.Sound → Heap.Builds heap new ∧
        new.ReadsAll values
          (.chain (places.map fun place => contentAt floats width bytes place element))) :
      ReadingElements element places before heap (some all, new)
  | refused (asked : places ≠ []) (partly : complete element = false)
      (kept : strands element = false) : ReadingElements element places before heap (none, heap)
  | stranded {new : Heap} (asked : places ≠ []) (partly : complete element = false)
      (lost : strands element = true) (grown : Grown 1 heap new) :
      ReadingElements element places before heap (none, new)

/-- What reading members comes to, after the fields of the members before them took so many
slots of a heap. -/
inductive ReadingMembers (members : List (Storage ForeignType)) (base fill : Nat)
    (before : List Value) (taken : Nat) (start heap : Heap) : Option (List Value) × Heap → Prop
  | built {values all : List Value} {new : Heap} (whole : allComplete members = true)
      (joined : all = before ++ values) (owned : ∀ value ∈ values, IsOwn value) (grown : Grown 0 heap new)
      (reads : heap.Sound → Heap.Builds heap new ∧
        new.ReadsAll values (.chain (contentsAt floats width bytes base fill members))) :
      ReadingMembers members base fill before taken start heap (some all, new)
  | refused (partly : allComplete members = false) (kept : membersStrand taken members = false) :
      ReadingMembers members base fill before taken start heap (none, start)
  | stranded {new : Heap} (partly : allComplete members = false)
      (lost : membersStrand taken members = true) (grown : Grown 1 start new) :
      ReadingMembers members base fill before taken start heap (none, new)

variable {floats width bytes}

/-! ## Scalars -/

theorem readScalar_reading {ty : ForeignType} {start : Nat}
    (inside : start + scalarSize width ty ≤ bytes.length) :
    Reading floats width bytes (.scalar ty) start heap
      ((Heap.sliceInside bytes start (scalarSize width ty)).bind (decodeScalar floats width ty),
        heap) := by
  by_cases isVoid : ty = .void
  · subst isVoid
    have none : (Heap.sliceInside bytes start (scalarSize width .void)).bind
        (decodeScalar floats width .void) = none := by
      rw [Heap.sliceInside, if_pos inside]
      rfl
    rw [none]
    exact Reading.refused rfl rfl
  · have sized : ((bytes.drop start).take (scalarSize width ty)).length = scalarSize width ty := by
      rw [List.length_take, List.length_drop]
      omega
    rcases decodes isVoid sized with ⟨value, decoded, isScalar, notVoid⟩
    have found : (Heap.sliceInside bytes start (scalarSize width ty)).bind
        (decodeScalar floats width ty) = some value := by
      rw [Heap.sliceInside, if_pos inside]
      exact decoded
    rw [found]
    apply Reading.built
    · simpa [complete] using isVoid
    · intro id isSnapshot
      rw [isSnapshot] at isScalar
      cases isScalar
    · exact Grown.refl heap
    · intro _
      rfl
    · intro sound
      constructor
      · exact sound.builds_refl
      · have content : contentAt floats width bytes start (.scalar ty) = scalarContent value := by
          rw [contentAt, scalarAt, found]
          rfl
        rw [content]
        exact reads_scalar isScalar notVoid

/-! ## Arrays -/

variable {table : ForeignAggregates}

def ReadsNested (floats : Floats) (width : ForeignPointerWidth) (bytes : List UInt8)
    (table : ForeignAggregates) (readNested : UInt32 → Nat → Heap → Option Value × Heap)
    (nested : UInt32) : Prop :=
  ∀ base heap, base + (extent width (rowObject table nested)).size ≤ bytes.length →
    Reading floats width bytes (rowObject table nested) base heap (readNested nested base heap)

variable {readNested : UInt32 → Nat → Heap → Option Value × Heap}

def readElement (floats : Floats) (width : ForeignPointerWidth) (bytes : List UInt8)
    (readNested : UInt32 → Nat → Heap → Option Value × Heap) (element : ForeignArrayElement)
    (stride start : Nat) (heap : Heap) : Option Value × Heap :=
  match element with
  | .scalar ty => ((Heap.sliceInside bytes start stride).bind (decodeScalar floats width ty), heap)
  | .aggregate nested => readNested nested start heap

theorem readElements_succ {element : ForeignArrayElement} {stride left index : Nat}
    {before : List Value} (small : base + stride * index < 2 ^ 32) :
    Heap.readElements floats (walkFor table width) readNested element stride bytes base (left + 1)
        index before heap =
      match readElement floats width bytes readNested element stride (base + stride * index)
          heap with
      | (none, heap) => (none, heap)
      | (some value, heap) =>
        Heap.readElements floats (walkFor table width) readNested element stride bytes base left
          (index + 1) (before ++ [value]) heap := by
  have start : (checkedMul stride index).bind (checkedAdd base) = some (base + stride * index) := by
    rw [checkedMul_eq (by omega), Option.bind_some, checkedAdd_eq small]
  rw [Heap.readElements, start]
  cases element with
  | scalar ty =>
    simp only [readElement, walkFor]
    cases (Heap.sliceInside bytes (base + stride * index) stride).bind
      (decodeScalar floats width ty) with
    | none => rfl
    | some value => rfl
  | aggregate nested => rfl

theorem readElement_reading {element : ForeignArrayElement} {count : UInt32}
    (nested : ∀ referenced ∈ (ForeignMember.array element count).referenced,
      ReadsNested floats width bytes table readNested referenced)
    {start : Nat} {heap : Heap}
    (inside : start + (extent width (elementStorage (storages table) element)).size ≤
      bytes.length) :
    Reading floats width bytes (elementStorage (storages table) element) start heap
      (readElement floats width bytes readNested element
        (extent width (elementStorage (storages table) element)).size start heap) := by
  cases element with
  | scalar ty => exact readScalar_reading inside
  | aggregate id => exact nested id rfl start heap inside

theorem forall_cons {property : Value → Prop} {value : Value} (first : property value)
    (rest : ∀ other ∈ values, property other) : ∀ other ∈ value :: values, property other := by
  intro other otherIn
  rcases List.mem_cons.mp otherIn with rfl | later
  · exact first
  · exact rest other later

theorem readsAll_cons {first second third : Heap} {value : Value} {content : Content}
    {contents : List Content}
    (head : first.Sound → Heap.Builds first second ∧ second.Reads value content)
    (tail : second.Sound → Heap.Builds second third ∧ third.ReadsAll values (.chain contents))
    (sound : first.Sound) :
    Heap.Builds first third ∧ third.ReadsAll (value :: values) (.chain (content :: contents)) := by
  have ⟨builds, reads⟩ := head sound
  have ⟨further, rest⟩ := tail builds.sound
  constructor
  · exact builds.trans further
  · rw [Content.chain_cons]
    exact Heap.ReadsAll.cons (reads.keeps further.keeps) rest

theorem readElements_reading {element : ForeignArrayElement} {count : UInt32}
    (nested : ∀ referenced ∈ (ForeignMember.array element count).referenced,
      ReadsNested floats width bytes table readNested referenced)
    {base : Nat} (left index : Nat) (before : List Value) (heap : Heap)
    (inside : base + (extent width (elementStorage (storages table) element)).size *
      (index + left) ≤ bytes.length) (small : bytes.length < 2 ^ 32) :
    ReadingElements floats width bytes (elementStorage (storages table) element)
      ((List.range' index left).map fun step =>
        base + (extent width (elementStorage (storages table) element)).size * step) before heap
      (Heap.readElements floats (walkFor table width) readNested element
        (extent width (elementStorage (storages table) element)).size bytes base left index before
        heap) := by
  induction left generalizing index before heap with
  | zero =>
    apply ReadingElements.built (Or.inl rfl) (List.append_nil before).symm
    · simp
    · exact Grown.refl heap
    · intro sound
      exact ⟨sound.builds_refl, Heap.ReadsAll.nil⟩
  | succ left ih =>
    have firstEnd : (extent width (elementStorage (storages table) element)).size * (index + 1) ≤
        (extent width (elementStorage (storages table) element)).size *
          (index + (left + 1)) := by
      apply Nat.mul_le_mul_left
      omega
    rw [Nat.mul_succ] at firstEnd
    have first := @readElement_reading floats width bytes table readNested element count nested
      (base + (extent width (elementStorage (storages table) element)).size * index) heap
      (by omega)
    rw [readElements_succ (by omega), List.range'_succ, List.map_cons]
    generalize readElement floats width bytes readNested element _ _ heap = result at first
    cases first with
    | refused partly kept => exact ReadingElements.refused (by simp) partly kept
    | stranded partly lost grown => exact ReadingElements.stranded (by simp) partly lost grown
    | @built value new whole owned grown alone reads =>
      have later := ih (index + 1) (before ++ [value]) new (by rwa [Nat.add_right_comm])
      simp only
      generalize Heap.readElements _ _ _ _ _ _ _ _ _ _ _ = rest at later
      cases later with
      | built either joined rest_owned rest_grown rest_reads =>
        apply ReadingElements.built (Or.inr whole)
        · rw [joined, List.append_assoc, List.singleton_append]
        · exact forall_cons owned rest_owned
        · exact (grown.trans rest_grown).mono (Nat.zero_le _)
        · exact readsAll_cons reads rest_reads
      | refused _ partly => rw [whole] at partly; cases partly
      | stranded _ partly => rw [whole] at partly; cases partly

theorem readArray_reading {element : ForeignArrayElement} {count : UInt32}
    (nested : ∀ referenced ∈ (ForeignMember.array element count).referenced,
      ReadsNested floats width bytes table readNested referenced)
    (base : Nat) (heap : Heap)
    (inside : base + (extent width (elementStorage (storages table) element)).size *
      count.toNat ≤ bytes.length) (small : bytes.length < 2 ^ 32) :
    Reading floats width bytes (memberStorage (storages table) (.array element count)) base heap
      (Heap.readArray floats (walkFor table width) readNested element count
        (extent width (elementStorage (storages table) element)).size bytes base heap) := by
  have elements := @readElements_reading floats width bytes table readNested element count nested
    base count.toNat 0 [] heap (by rwa [Nat.zero_add]) small
  rw [Heap.readArray]
  generalize Heap.readElements _ _ _ _ _ _ _ _ _ _ _ = result at elements
  cases elements with
  | @built values all new whole joined owned grown reads =>
    rw [List.nil_append] at joined
    subst joined
    simp only
    rw [allocArray_eq owned]
    apply Reading.built
    · rcases whole with nothing | elementWhole
      · have zero : count.toNat = 0 := by simpa using nothing
        simp [memberStorage, complete, zero]
      · simp [memberStorage, complete, elementWhole]
    · intro id isSnapshot
      cases isSnapshot
    · exact (grown.trans (allocContents_grown new all .array)).mono (Nat.le_add_left _ _)
    · intro none
      cases none
    · intro sound
      obtain ⟨builds, all⟩ := reads sound
      constructor
      · exact builds.trans (builds.sound.builds_refl.allocContents _ .array)
      · rw [memberStorage, contentAt, List.range_eq_range']
        rw [List.map_map] at all
        exact all.array builds.sound
  | refused asked partly kept =>
    have some : count.toNat ≠ 0 := by
      rintro zero
      rw [zero] at asked
      exact asked rfl
    apply Reading.refused
    · simp [memberStorage, complete, partly, some]
    · simp [memberStorage, strands, kept]
  | stranded asked partly lost grown =>
    have some : count.toNat ≠ 0 := by
      rintro zero
      rw [zero] at asked
      exact asked rfl
    apply Reading.stranded
    · simp [memberStorage, complete, partly, some]
    · simp [memberStorage, strands, lost, some]
    · exact grown

/-! ## Structs -/

theorem memberPlace_eq (fit : ∀ row ∈ storages table, Fits width row) {member : ForeignMember}
    (known : ∀ referenced ∈ member.referenced, referenced.toNat < (storages table).length)
    {offset : Nat}
    (ends : alignUp (extent width (memberStorage (storages table) member)).align offset +
      (extent width (memberStorage (storages table) member)).size < 2 ^ 32) :
    Heap.memberPlace (walkFor table width) offset member =
      some (alignUp (extent width (memberStorage (storages table) member)).align offset,
        (extent width (memberStorage (storages table) member)).size) := by
  have found : KiraVm.memberLayout width ((storages table).map (layoutFor width)) member =
      some (layoutFor width (memberStorage (storages table) member)) := by
    rw [← toOption_memberLayout member 0, memberLayout_eq fit known,
      fittingLayout_eq (fits_of_end ends)]
    rfl
  rw [Heap.memberPlace, walkFor, found]
  change ((roundUp offset (layoutFor width (memberStorage (storages table) member)).align).bind
    fun offset => some (offset, _)) = _
  rw [roundUp_object ends]
  rfl

theorem readMember_reading {member : ForeignMember}
    (known : ∀ referenced ∈ member.referenced, referenced.toNat < (storages table).length)
    (nested : ∀ referenced ∈ member.referenced,
      ReadsNested floats width bytes table readNested referenced)
    (start : Nat) (heap : Heap)
    (inside : start + (extent width (memberStorage (storages table) member)).size ≤ bytes.length)
    (small : bytes.length < 2 ^ 32) :
    Reading floats width bytes (memberStorage (storages table) member) start heap
      (Heap.readMember floats (walkFor table width) readNested bytes start
        (extent width (memberStorage (storages table) member)).size heap member) := by
  cases member with
  | scalar ty => exact readScalar_reading inside
  | aggregate id => exact nested id rfl start heap inside
  | array element count =>
    rw [Heap.readMember, walk_elementLayout known]
    exact readArray_reading nested start heap inside small

theorem readMembers_cons (fit : ∀ row ∈ storages table, Fits width row) {member : ForeignMember}
    (known : ∀ referenced ∈ member.referenced, referenced.toNat < (storages table).length)
    {offset : Nat} {before : List Value} {members : List ForeignMember}
    (ends : base + (alignUp (extent width (memberStorage (storages table) member)).align offset +
      (extent width (memberStorage (storages table) member)).size) < 2 ^ 32) :
    Heap.readMembers floats (walkFor table width) readNested bytes base offset before heap
        (member :: members) =
      match Heap.readMember floats (walkFor table width) readNested bytes
          (base + alignUp (extent width (memberStorage (storages table) member)).align offset)
          (extent width (memberStorage (storages table) member)).size heap member with
      | (none, heap) => (none, heap)
      | (some value, heap) =>
        Heap.readMembers floats (walkFor table width) readNested bytes base
          (alignUp (extent width (memberStorage (storages table) member)).align offset +
            (extent width (memberStorage (storages table) member)).size) (before ++ [value])
          heap members := by
  have inside : alignUp (extent width (memberStorage (storages table) member)).align offset +
      (extent width (memberStorage (storages table) member)).size < 2 ^ 32 := by
    omega
  have start : checkedAdd base
      (alignUp (extent width (memberStorage (storages table) member)).align offset) =
        some (base + alignUp (extent width (memberStorage (storages table) member)).align offset) :=
    checkedAdd_eq (by omega)
  rw [Heap.readMembers, memberPlace_eq fit known inside]
  rcases found : Heap.readMember floats (walkFor table width) readNested bytes
      (base + alignUp (extent width (memberStorage (storages table) member)).align offset)
      (extent width (memberStorage (storages table) member)).size heap member with ⟨_ | value, new⟩
  · simp only [start, found]
  · simp only [start, checkedAdd_eq inside, found]

theorem readMembers_reading (fit : ∀ row ∈ storages table, Fits width row)
    {members : List ForeignMember} (known : RefersBelow (storages table).length ⟨members⟩)
    (nested : ∀ member ∈ members, ∀ referenced ∈ member.referenced,
      ReadsNested floats width bytes table readNested referenced)
    {base : Nat} (offset : Nat) (before : List Value) {taken : Nat} {start heap : Heap}
    (held : Grown taken start heap) (none_held : taken = 0 → heap = start)
    (inside : base + membersEnd (scalarMeasure width) offset
      (members.map (memberStorage (storages table))) ≤ bytes.length)
    (small : bytes.length < 2 ^ 32) :
    ReadingMembers floats width bytes (members.map (memberStorage (storages table))) base offset
      before taken start heap
      (Heap.readMembers floats (walkFor table width) readNested bytes base offset before heap
        members) := by
  induction members generalizing offset before taken heap with
  | nil =>
    apply ReadingMembers.built rfl (List.append_nil before).symm
    · simp
    · exact Grown.refl heap
    · intro sound
      exact ⟨sound.builds_refl, Heap.ReadsAll.nil⟩
  | cons member members ih =>
    have grows := le_membersEnd (scalarMeasure width)
      (members.map (memberStorage (storages table)))
      (alignUp (extent width (memberStorage (storages table) member)).align offset +
        (extent width (memberStorage (storages table) member)).size)
    rw [List.map_cons, membersEnd] at inside
    change base + membersEnd _
      (alignUp (extent width _).align offset + (extent width _).size) _ ≤ _ at inside
    have first := @readMember_reading floats width bytes table readNested member
      (known member List.mem_cons_self) (nested member List.mem_cons_self)
      (base + alignUp (extent width (memberStorage (storages table) member)).align offset) heap
      (by omega) small
    rw [readMembers_cons fit (known member List.mem_cons_self) (by omega), List.map_cons]
    generalize Heap.readMember _ _ _ _ _ _ _ _ = result at first
    cases first with
    | refused partly kept =>
      by_cases empty : taken = 0
      · rw [none_held empty]
        apply ReadingMembers.refused
        · simp [allComplete, partly]
        · simp [membersStrand, partly, kept, empty]
      · apply ReadingMembers.stranded
        · simp [allComplete, partly]
        · simp [membersStrand, partly, Nat.pos_of_ne_zero empty]
        · exact held.mono (Nat.pos_of_ne_zero empty)
    | stranded partly lost grown =>
      apply ReadingMembers.stranded
      · simp [allComplete, partly]
      · simp [membersStrand, partly, lost]
      · exact (held.trans grown).mono (Nat.le_add_left 1 taken)
    | @built value new whole owned grown alone reads =>
      have still : taken + ownSlots (memberStorage (storages table) member) = 0 →
          new = start := by
        intro nothing
        rw [alone (Nat.eq_zero_of_add_eq_zero_left nothing),
          none_held (Nat.eq_zero_of_add_eq_zero_right nothing)]
      have later := ih
        (fun later laterIn => known later (List.mem_cons_of_mem member laterIn))
        (fun later laterIn => nested later (List.mem_cons_of_mem member laterIn))
        (alignUp (extent width (memberStorage (storages table) member)).align offset +
          (extent width (memberStorage (storages table) member)).size)
        (before ++ [value]) (held.trans grown) still inside
      simp only
      generalize Heap.readMembers _ _ _ _ _ _ _ _ _ = rest at later
      cases later with
      | built all joined rest_owned rest_grown rest_reads =>
        apply ReadingMembers.built
        · simp [allComplete, whole, all]
        · rw [joined, List.append_assoc, List.singleton_append]
        · exact forall_cons owned rest_owned
        · exact (grown.trans rest_grown).mono (Nat.zero_le _)
        · rw [contentsAt]
          exact readsAll_cons reads rest_reads
      | refused partly kept =>
        apply ReadingMembers.refused
        · simp [allComplete, partly]
        · simp [membersStrand, whole, kept]
      | stranded partly lost rest_grown =>
        apply ReadingMembers.stranded
        · simp [allComplete, partly]
        · simp [membersStrand, whole, lost]
        · exact rest_grown

theorem allocStruct_reading {members : List (Storage ForeignType)} {start : Heap}
    {fields : List Value} (whole : allComplete members = true)
    (owned : ∀ field ∈ fields, IsOwn field) (grown : Grown 0 start heap)
    (reads : start.Sound → Heap.Builds start heap ∧
      heap.ReadsAll fields (.chain (contentsAt floats width bytes base 0 members))) :
    Reading floats width bytes (.record members) base start
      (some (heap.allocStruct fields).1, (heap.allocStruct fields).2) := by
  rw [allocStruct_eq owned]
  apply Reading.built
  · exact whole
  · intro id isSnapshot
    cases isSnapshot
  · exact (grown.trans (allocContents_grown heap fields .struct)).mono (Nat.le_add_left _ _)
  · intro none
    cases none
  · intro sound
    have ⟨builds, all⟩ := reads sound
    constructor
    · exact builds.trans (builds.sound.builds_refl.allocContents _ .struct)
    · rw [contentAt]
      exact all.struct builds.sound

/-- References go down, so the depth only has to exceed the row's index. -/
theorem readAggregate_reading (floats : Floats) (bytes : List UInt8) (small : bytes.length < 2 ^ 32)
    (fit : ∀ row ∈ storages table, Fits width row) (depth : Nat) (id : UInt32)
    (deep : id.toNat < depth) (known : id.toNat < table.entries.length) :
    ReadsNested floats width bytes table
      (Heap.readAggregate floats (walkFor table width) bytes depth) id := by
  induction depth generalizing id with
  | zero => omega
  | succ depth ih =>
    intro base heap inside
    obtain ⟨row, rowAt⟩ : ∃ row, table.get id = some row :=
      ⟨_, List.getElem?_eq_getElem known⟩
    have covers := membersEnd_le_size (scalarMeasure width)
      (row.members.map (memberStorage (storages table)))
    have nested : ∀ member ∈ row.members, ∀ referenced ∈ member.referenced,
        ReadsNested floats width bytes table
          (Heap.readAggregate floats (walkFor table width) bytes depth) referenced := by
      intro member memberIn referenced referencedIn
      have below := refersBelow_of_ordered table rowAt member memberIn referenced referencedIn
      apply ih referenced
      · omega
      · omega
    rw [rowObject, storageAt rowAt] at inside ⊢
    change base + (extentOf (scalarMeasure width) (.record _)).size ≤ _ at inside
    have members := @readMembers_reading floats width bytes table _ fit row.members
      (refersBelow_storages rowAt) nested base 0 [] 0 heap heap (Grown.refl heap) (fun _ => rfl)
      (by omega) small
    rw [Heap.readAggregate]
    have found : (walkFor table width).table.get id = some row := rowAt
    simp only [found]
    generalize Heap.readMembers _ _ _ _ _ _ _ _ _ = result at members
    cases members with
    | built whole joined owned grown reads =>
      rw [List.nil_append] at joined
      subst joined
      exact allocStruct_reading whole owned grown reads
    | refused partly kept => exact Reading.refused partly kept
    | stranded partly lost grown => exact Reading.stranded partly lost grown

end Aggregates

end KiraVm
