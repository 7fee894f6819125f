import KiraVm.AggregateWalks
import Mathlib.Order.Bounds.Basic

/-!
# The table's layouts are C's

Every member starts where C puts it, the leaves are those of the members at these
offsets, and only a size that does not fit 32 bits is an error.
-/

namespace KiraVm

namespace Aggregates

open StorageLayout

/-! ## What C lays out -/

def endBefore (inner : List ForeignLayout) (offsets : List Nat) : Nat → Nat
  | 0 => 0
  | position + 1 => offsets.getD position 0 + (inner.getD position ⟨0, 1⟩).size

/-- The offsets of members with the given layouts, and the layout of the record. -/
structure LaidOut (inner : List ForeignLayout) (offsets : List Nat) (layout : ForeignLayout) :
    Prop where
  offsets_length : offsets.length = inner.length
  offset_least : ∀ (position : Nat) (member : ForeignLayout) (offset : Nat),
    inner[position]? = some member → offsets[position]? = some offset →
      IsLeast {place | member.align ∣ place ∧ endBefore inner offsets position ≤ place} offset
  align_greatest :
    IsGreatest {align | align = 1 ∨ ∃ member ∈ inner, align = member.align} layout.align
  size_least :
    IsLeast {size | layout.align ∣ size ∧ 1 ≤ size ∧ endBefore inner offsets inner.length ≤ size}
      layout.size
  covers : ∀ (position : Nat) (member : ForeignLayout) (offset : Nat),
    inner[position]? = some member → offsets[position]? = some offset →
      offset + member.size ≤ layout.size

/-- Leaves that lie in an aggregate, in the order of their places. -/
structure LeavesWithin (width : ForeignPointerWidth) (layout : ForeignLayout)
    (leaves : List ForeignLeaf) : Prop where
  inside : ∀ leaf ∈ leaves, leaf.offset + (scalarLayout width leaf.ty).size ≤ layout.size
  aligned : ∀ leaf ∈ leaves, (scalarLayout width leaf.ty).align ∣ leaf.offset
  ordered : leaves.Pairwise fun first second =>
    first.offset + (scalarLayout width first.ty).size ≤ second.offset

def ForeignLeaf.moved (amount : Nat) (leaf : ForeignLeaf) : ForeignLeaf :=
  { leaf with offset := amount + leaf.offset }

def nestedLeaves (table : ForeignAggregates) (width : ForeignPointerWidth) (id : UInt32) :
    List ForeignLeaf :=
  match leavesOf table id width with
  | .ok leaves => leaves
  | .error _ => []

def elementLeaves (table : ForeignAggregates) (width : ForeignPointerWidth) :
    ForeignArrayElement → List ForeignLeaf
  | .scalar ty => [⟨0, ty⟩]
  | .aggregate id => nestedLeaves table width id

def stride (width : ForeignPointerWidth) (rows : List ForeignLayout)
    (element : ForeignArrayElement) : Nat :=
  ((KiraVm.elementLayout width rows element).map ForeignLayout.size).getD 0

def memberLeaves (table : ForeignAggregates) (width : ForeignPointerWidth)
    (rows : List ForeignLayout) : ForeignMember → List ForeignLeaf
  | .scalar ty => [⟨0, ty⟩]
  | .aggregate id => nestedLeaves table width id
  | .array element count => (List.range count.toNat).flatMap fun step =>
    (elementLeaves table width element).map
      (ForeignLeaf.moved (stride width rows element * step))

/-! ## The records of the rows -/

variable {width : ForeignPointerWidth}

theorem endBefore_eq (members : List (Storage ForeignType)) (position : Nat)
    (within : position ≤ members.length) :
    endBefore (members.map (layoutFor width))
        (memberOffsets (scalarMeasure width) 0 members) position =
      membersEnd (scalarMeasure width) 0 (members.take position) := by
  cases position with
  | zero => rfl
  | succ position =>
    have memberAt : members[position]? = some members[position] :=
      List.getElem?_eq_getElem within
    rw [endBefore, List.getD_eq_getElem?_getD, List.getD_eq_getElem?_getD,
      memberOffsets_getElem?, List.getElem?_map, memberAt, List.take_add_one, memberAt,
      membersEnd_append]
    rfl

theorem membersEnd_take_le (members : List (Storage ForeignType)) (position : Nat) :
    membersEnd (scalarMeasure width) 0 (members.take position) ≤
      membersEnd (scalarMeasure width) 0 members := by
  conv => right; rw [← List.take_append_drop position members]
  rw [membersEnd_append]
  exact le_membersEnd _ _ _

theorem membersAlign_isGreatest (members : List (Storage ForeignType)) :
    IsGreatest {align | align = 1 ∨ ∃ member ∈ members.map (layoutFor width),
      align = member.align} (membersAlign (scalarMeasure width) members) := by
  constructor
  · induction members with
    | nil => exact Or.inl rfl
    | cons member members ih =>
      rw [membersAlign]
      rcases max_choice (extentOf (scalarMeasure width) member).align
        (membersAlign (scalarMeasure width) members) with larger | larger
      · rw [larger]
        right
        exact ⟨layoutFor width member, by simp, rfl⟩
      · rw [larger]
        rcases ih with one | ⟨later, laterIn, laterEq⟩
        · exact Or.inl one
        · right
          exact ⟨later, List.mem_cons_of_mem _ laterIn, laterEq⟩
  · rintro align (rfl | ⟨member, memberIn, rfl⟩)
    · exact membersAlign_pos _ members
    · rcases List.mem_map.mp memberIn with ⟨object, objectIn, rfl⟩
      exact le_membersAlign _ objectIn

theorem laidOut_record (members : List (Storage ForeignType)) :
    LaidOut (members.map (layoutFor width)) (memberOffsets (scalarMeasure width) 0 members)
      (layoutFor width (.record members)) := by
  have covered := membersEnd_le_size (scalarMeasure width) members
  constructor
  · simp
  · intro position member offset memberAt offsetAt
    rw [List.getElem?_map] at memberAt
    rcases Option.map_eq_some_iff.mp memberAt with ⟨object, objectAt, rfl⟩
    have within := (List.getElem?_eq_some_iff.mp objectAt).1
    rw [memberOffsets_getElem?, objectAt, Option.map_some, Option.some_inj] at offsetAt
    rw [endBefore_eq members position within.le, ← offsetAt]
    exact isLeast_alignUp (align_pos width object) _
  · exact membersAlign_isGreatest members
  · rw [List.length_map, endBefore_eq members members.length le_rfl, List.take_length]
    have least := isLeast_record_size (scalarMeasure width) members
    constructor
    · have reached := le_trans (le_max_right _ _) least.1.2
      exact ⟨least.1.1, reached, covered⟩
    · rintro size ⟨multiple, positive, covers⟩
      exact least.2 ⟨multiple, max_le covers positive⟩
  · intro position member offset memberAt offsetAt
    rw [List.getElem?_map] at memberAt
    rcases Option.map_eq_some_iff.mp memberAt with ⟨object, objectAt, rfl⟩
    rw [memberOffsets_getElem?, objectAt, Option.map_some, Option.some_inj] at offsetAt
    have next := @membersEnd_take_le width members (position + 1)
    rw [List.take_add_one, objectAt, membersEnd_append] at next
    rw [← offsetAt]
    exact le_trans next covered

theorem leavesWithin_object (object : Storage ForeignType) :
    LeavesWithin width (layoutFor width object) (foreignLeaves width 0 object) := by
  have inside := leaves_inside (scalarMeasure width) object 0 (Nat.dvd_zero _)
  constructor
  · intro leaf leafIn
    rcases List.mem_map.mp leafIn with ⟨place, placeIn, rfl⟩
    have ends := (inside place placeIn).le_high
    rw [Nat.zero_add] at ends
    exact ends
  · intro leaf leafIn
    rcases List.mem_map.mp leafIn with ⟨place, placeIn, rfl⟩
    exact (inside place placeIn).aligned
  · rw [foreignLeaves, List.pairwise_map]
    exact leaves_pairwise (scalarMeasure width) object 0 (Nat.dvd_zero _)

theorem foreignLeaves_moved (object : Storage ForeignType) (base amount : Nat) :
    foreignLeaves width (amount + base) object =
      (foreignLeaves width base object).map (ForeignLeaf.moved amount) := by
  rw [foreignLeaves, leaves_shift, List.map_map, foreignLeaves, List.map_map]
  rfl

/-! ## The walks' answers -/

theorem fittingLayouts_ok_iff {objects : List (Storage ForeignType)}
    {rows : List ForeignLayout} :
    fittingLayouts width objects = .ok rows ↔
      (∀ object ∈ objects, Fits width object) ∧ objects.map (layoutFor width) = rows := by
  unfold fittingLayouts
  cases found : objects.findIdx? fun object => decide (¬ Fits width object) with
  | none =>
    rw [List.findIdx?_eq_none_iff] at found
    have fit : ∀ object ∈ objects, Fits width object := by
      intro object objectIn
      simpa using found object objectIn
    rw [Except.ok.injEq]
    exact (and_iff_right fit).symm
  | some index =>
    have ⟨inside, large, _⟩ := List.findIdx?_eq_some_iff_getElem.mp found
    simp only [decide_eq_true_eq] at large
    simp only [reduceCtorEq, false_iff, not_and]
    intro fit
    exact absurd (fit _ (List.getElem_mem inside)) large

/-- The first row that does not fit is the one that the error names. -/
theorem fittingLayouts_error_iff {objects : List (Storage ForeignType)}
    {error : ForeignAggregateError} :
    fittingLayouts width objects = .error error ↔
      ∃ (index : Nat) (object : Storage ForeignType), objects[index]? = some object ∧
        2 ^ 32 ≤ (extent width object).size ∧
        (∀ earlier < index, ∀ object ∈ objects[earlier]?, (extent width object).size < 2 ^ 32) ∧
        error = .tooLarge (UInt32.ofNat index) := by
  unfold fittingLayouts
  constructor
  · intro failed
    cases found : objects.findIdx? fun object => decide (¬ Fits width object) with
    | none =>
      rw [found] at failed
      exact absurd failed (by simp)
    | some index =>
      rw [found] at failed
      have ⟨inside, large, before⟩ := List.findIdx?_eq_some_iff_getElem.mp found
      simp only [decide_eq_true_eq] at large
      refine ⟨index, objects[index], List.getElem?_eq_getElem inside, Nat.not_lt.mp large, ?_,
        (Except.error.inj failed).symm⟩
      intro earlier isEarlier object objectAt
      rw [Option.mem_def] at objectAt
      rcases List.getElem?_eq_some_iff.mp objectAt with ⟨earlierInside, rfl⟩
      have fits := before earlier isEarlier
      simpa [Fits] using fits
  · rintro ⟨index, object, objectAt, large, before, rfl⟩
    rcases List.getElem?_eq_some_iff.mp objectAt with ⟨inside, rfl⟩
    have found : (objects.findIdx? fun object => decide (¬ Fits width object)) = some index := by
      rw [List.findIdx?_eq_some_iff_getElem]
      refine ⟨inside, by simpa [Fits] using large, ?_⟩
      intro earlier isEarlier
      have fits := before earlier isEarlier _ (List.getElem?_eq_getElem (by omega))
      simpa [Fits] using fits
    rw [found]

variable {table : ForeignAggregates} {id : UInt32} {aggregate : ForeignAggregate}

theorem row_end_fits (fit : ∀ row ∈ storages table, Fits width row)
    (rowAt : table.get id = some aggregate) :
    Fits width (.record (aggregate.members.map (memberStorage (storages table)))) := by
  have objectAt := storages_getElem? table id.toNat
  rw [show table.entries[id.toNat]? = some aggregate from rowAt, Option.map_some] at objectAt
  exact fit _ (List.mem_of_getElem? objectAt)

theorem memberOffsetsOf_eq (fit : ∀ row ∈ storages table, Fits width row)
    (rowAt : table.get id = some aggregate) :
    memberOffsetsOf table id width =
      .ok (memberOffsets (scalarMeasure width) 0
        (aggregate.members.map (memberStorage (storages table)))) := by
  have covers := membersEnd_le_size (scalarMeasure width)
    (aggregate.members.map (memberStorage (storages table)))
  have small : (extentOf (scalarMeasure width) (.record _)).size < 2 ^ 32 :=
    row_end_fits fit rowAt
  rw [memberOffsetsOf, layouts_eq, fittingLayouts_ok_iff.mpr ⟨fit, rfl⟩, rowAt]
  change collectOffsets _ _ _ _ _ _ = _
  rw [collectOffsets_eq fit id _ (refersBelow_storages rowAt) 0 [] (by omega), List.nil_append]

theorem leavesOf_eq (fit : ∀ row ∈ storages table, Fits width row)
    (inside : id.toNat < table.entries.length) :
    leavesOf table id width =
      .ok (foreignLeaves width 0 ((storages table)[id.toNat]?.getD (.record []))) := by
  have small : Fits width ((storages table)[id.toNat]?.getD (.record [])) := by
    apply row_fits fit
    rwa [storages_length]
  rw [leavesOf, layouts_eq, fittingLayouts_ok_iff.mpr ⟨fit, rfl⟩]
  change collectLeaves _ _ _ _ _ _ _ = _
  rw [collectLeaves_eq table fit (table.entries.length + 1) id (by omega) inside 0 []
    (by rwa [Nat.zero_add]), List.nil_append]

theorem nestedLeaves_eq (fit : ∀ row ∈ storages table, Fits width row)
    (inside : id.toNat < table.entries.length) :
    nestedLeaves table width id =
      foreignLeaves width 0 ((storages table)[id.toNat]?.getD (.record [])) := by
  rw [nestedLeaves, leavesOf_eq fit inside]

theorem memberLeaves_eq (fit : ∀ row ∈ storages table, Fits width row) {member : ForeignMember}
    (known : ∀ referenced ∈ member.referenced, referenced.toNat < table.entries.length) :
    memberLeaves table width ((storages table).map (layoutFor width)) member =
      foreignLeaves width 0 (memberStorage (storages table) member) := by
  cases member with
  | scalar ty => rfl
  | aggregate inner => exact nestedLeaves_eq fit (known inner rfl)
  | array element count =>
    have strideEq : stride width ((storages table).map (layoutFor width)) element =
        (extent width (elementStorage (storages table) element)).size := by
      have found := @elementLayout_eq width (storages table) element count
        (fun inner innerIn => by rw [storages_length]; exact known inner innerIn) 0
      rw [stride, ← toOption_elementLayout element 0, found]
      rfl
    have elementEq : elementLeaves table width element =
        foreignLeaves width 0 (elementStorage (storages table) element) := by
      cases element with
      | scalar ty => rfl
      | aggregate inner => exact nestedLeaves_eq fit (known inner rfl)
    rw [memberLeaves, strideEq, elementEq, memberStorage]
    conv => right; rw [foreignLeaves, StorageLayout.leaves, List.map_flatMap]
    congr 1
    funext step
    rw [← foreignLeaves_moved, Nat.add_zero, Nat.zero_add]
    rfl

theorem layoutOf_eq (fit : ∀ row ∈ storages table, Fits width row)
    (rowAt : table.get id = some aggregate) :
    layoutOf table id width = .ok (layoutFor width (rowStorage (storages table) aggregate)) := by
  have objectAt := storages_getElem? table id.toNat
  rw [show table.entries[id.toNat]? = some aggregate from rowAt, Option.map_some] at objectAt
  rw [layoutOf, layouts_eq, fittingLayouts_ok_iff.mpr ⟨fit, rfl⟩]
  have found : ((storages table).map (layoutFor width))[id.toNat]? =
      some (layoutFor width (rowStorage (storages table) aggregate)) := by
    rw [List.getElem?_map, objectAt]
    rfl
  simp only [bind, Except.bind, found]
  rfl

theorem foreignLeaves_row (fit : ∀ row ∈ storages table, Fits width row)
    (rowAt : table.get id = some aggregate) :
    foreignLeaves width 0 (rowStorage (storages table) aggregate) =
      (aggregate.members.zip (memberOffsets (scalarMeasure width) 0
        (aggregate.members.map (memberStorage (storages table))))).flatMap
          fun (member, offset) =>
            (memberLeaves table width ((storages table).map (layoutFor width)) member).map
              (ForeignLeaf.moved offset) := by
  rw [foreignLeaves, rowStorage, StorageLayout.leaves, membersLeaves_eq_flatMap,
    List.map_flatMap, List.zip_map_left, List.flatMap_map]
  apply List.flatMap_congr
  rintro ⟨member, offset⟩ pairIn
  have known : ∀ referenced ∈ member.referenced, referenced.toNat < table.entries.length := by
    rw [← storages_length]
    exact refersBelow_storages rowAt member (List.of_mem_zip pairIn).1
  change foreignLeaves width (0 + offset) (memberStorage (storages table) member) =
    (memberLeaves table width _ member).map (ForeignLeaf.moved offset)
  rw [memberLeaves_eq fit known, ← foreignLeaves_moved, Nat.add_zero, Nat.zero_add]

/-- The layouts of a table, the offsets of its members and their leaves are C's.  Only a row
whose size does not fit 32 bits is an error, and the first such row is named. -/
theorem layouts_follow_c (table : ForeignAggregates) (width : ForeignPointerWidth) :
    (∀ rows, layouts table width = .ok rows →
      ∀ id aggregate, table.get id = some aggregate →
        ∃ layout inner offsets leaves,
          rows[id.toNat]? = some layout ∧ layout.size < 2 ^ 32 ∧
          layoutOf table id width = .ok layout ∧
          memberOffsetsOf table id width = .ok offsets ∧
          leavesOf table id width = .ok leaves ∧
          List.Forall₂ (fun member place => memberLayout member id width rows = .ok place)
            aggregate.members inner ∧
          LaidOut inner offsets layout ∧
          LeavesWithin width layout leaves ∧
          leaves = (aggregate.members.zip offsets).flatMap fun (member, offset) =>
            (memberLeaves table width rows member).map (ForeignLeaf.moved offset)) ∧
    (∀ error, layouts table width = .error error ↔
      ∃ (index : Nat) (object : Storage ForeignType), (storages table)[index]? = some object ∧
        2 ^ 32 ≤ (extent width object).size ∧
        (∀ earlier < index, ∀ object ∈ (storages table)[earlier]?,
          (extent width object).size < 2 ^ 32) ∧
        error = .tooLarge (UInt32.ofNat index)) ∧
    (∀ error id, layouts table width = .error error →
      layoutOf table id width = .error error ∧
      memberOffsetsOf table id width = .error error ∧
      leavesOf table id width = .error error) := by
  refine ⟨?_, ?_, ?_⟩
  · intro rows laid id aggregate rowAt
    rw [layouts_eq, fittingLayouts_ok_iff] at laid
    rcases laid with ⟨fit, rfl⟩
    have objectAt := storages_getElem? table id.toNat
    rw [show table.entries[id.toNat]? = some aggregate from rowAt, Option.map_some] at objectAt
    have inside := (List.getElem?_eq_some_iff.mp rowAt).1
    refine ⟨layoutFor width (rowStorage (storages table) aggregate),
      (aggregate.members.map (memberStorage (storages table))).map (layoutFor width),
      _, _, ?_, row_end_fits fit rowAt, layoutOf_eq fit rowAt, memberOffsetsOf_eq fit rowAt,
      leavesOf_eq fit inside, ?_, laidOut_record _, ?_, ?_⟩
    · rw [List.getElem?_map, objectAt, Option.map_some]
    · rw [List.map_map, List.forall₂_map_right_iff, List.forall₂_same]
      intro member memberIn
      rw [memberLayout_eq fit (refersBelow_storages rowAt member memberIn)]
      apply fittingLayout_eq
      have ⟨position, memberAt⟩ := List.mem_iff_getElem?.mp memberIn
      have ends := (@laidOut_record width
        (aggregate.members.map (memberStorage (storages table)))).covers position
      rw [List.getElem?_map, List.getElem?_map, memberOffsets_getElem?, List.getElem?_map,
        memberAt] at ends
      have covered := ends _ _ rfl rfl
      have small := row_end_fits fit rowAt
      unfold Fits at small ⊢
      exact lt_of_le_of_lt (le_trans (Nat.le_add_left _ _) covered) small
    · rw [storageAt rowAt]
      exact leavesWithin_object _
    · rw [storageAt rowAt]
      exact foreignLeaves_row fit rowAt
  · intro error
    rw [layouts_eq]
    exact fittingLayouts_error_iff
  · intro error id failed
    refine ⟨?_, ?_, ?_⟩
    · rw [layoutOf, failed]
      rfl
    · rw [memberOffsetsOf, failed]
      rfl
    · rw [leavesOf, failed]
      rfl

/-- A byte and a word, then two of these and a double. -/
def nestedTable : ForeignAggregates where
  entries := [⟨[.scalar .i8, .scalar .i32]⟩, ⟨[.array (.aggregate 0) 2, .scalar .f64]⟩]
  ordered := by
    intro index row rowAt member memberIn referenced referencedIn
    match index with
    | 0 =>
      cases rowAt
      rcases List.mem_pair.mp memberIn with rfl | rfl <;> cases referencedIn
    | 1 =>
      cases rowAt
      rcases List.mem_pair.mp memberIn with rfl | rfl <;> cases referencedIn
      decide
    | index + 2 => simp at rowAt

theorem layouts_follow_c_nestedTable :
    layouts nestedTable .bits64 = .ok [⟨8, 4⟩, ⟨24, 8⟩] ∧
    leavesOf nestedTable 1 .bits64 =
      .ok [⟨0, .i8⟩, ⟨4, .i32⟩, ⟨8, .i8⟩, ⟨12, .i32⟩, ⟨16, .f64⟩] ∧
    ∃ layout inner offsets leaves,
      LaidOut inner offsets layout ∧ LeavesWithin .bits64 layout leaves ∧
      memberOffsetsOf nestedTable 1 .bits64 = .ok offsets ∧
      leavesOf nestedTable 1 .bits64 = .ok leaves := by
  have laid : layouts nestedTable .bits64 = .ok [⟨8, 4⟩, ⟨24, 8⟩] := by decide
  refine ⟨laid, by decide, ?_⟩
  rcases (layouts_follow_c nestedTable .bits64).1 _ laid 1 _ rfl with
    ⟨layout, inner, offsets, leaves, _, _, _, offsetsOf, leavesFound, _, laidOut, within, _⟩
  exact ⟨layout, inner, offsets, leaves, laidOut, within, offsetsOf, leavesFound⟩

end Aggregates

end KiraVm
