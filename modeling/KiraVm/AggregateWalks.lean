import KiraVm.AggregateStorage

/-!
# Walks over the aggregate table

The walk for the offsets and the walk for the leaves place every member where the layout
puts its object.
-/

namespace KiraVm

namespace Aggregates

open StorageLayout

/-! ## Offsets -/

variable {width : ForeignPointerWidth} {rows : List (Storage ForeignType)}

variable {object : Storage ForeignType}

theorem fits_of_end {offset : Nat}
    (ends : alignUp (extent width object).align offset + (extent width object).size < 2 ^ 32) :
    Fits width object := by
  unfold Fits
  omega

theorem fittingLayout_eq (fits : Fits width object) (index : UInt32) :
    fittingLayout width index object = .ok (layoutFor width object) :=
  if_pos fits

theorem roundUp_object {offset : Nat}
    (ends : alignUp (extent width object).align offset + (extent width object).size < 2 ^ 32) :
    roundUp offset (layoutFor width object).align =
      some (alignUp (extent width object).align offset) := by
  change roundUp offset (extent width object).align = _
  rw [roundUp_eq (align_pos width object) (align_dvd_range width object), if_pos (by omega)]

theorem collectOffsets_eq (fit : ∀ row ∈ rows, Fits width row) (id : UInt32)
    (members : List ForeignMember) (known : RefersBelow rows.length ⟨members⟩)
    (offset : Nat) (offsets : List Nat)
    (ends : membersEnd (scalarMeasure width) offset (members.map (memberStorage rows)) < 2 ^ 32) :
    collectOffsets id width (rows.map (layoutFor width)) offset offsets members =
      .ok (offsets ++
        memberOffsets (scalarMeasure width) offset (members.map (memberStorage rows))) := by
  induction members generalizing offset offsets with
  | nil => simp [collectOffsets, memberOffsets, pure, Except.pure]
  | cons member members ih =>
    have tailKnown : RefersBelow rows.length ⟨members⟩ := by
      intro later laterIn
      exact known later (List.mem_cons_of_mem member laterIn)
    have grows := le_membersEnd (scalarMeasure width) (members.map (memberStorage rows))
      (alignUp (extent width (memberStorage rows member)).align offset +
        (extent width (memberStorage rows member)).size)
    rw [List.map_cons, membersEnd] at ends
    change membersEnd _ (alignUp (extent width _).align offset + (extent width _).size) _ <
      2 ^ 32 at ends
    have headEnds : alignUp (extent width (memberStorage rows member)).align offset +
        (extent width (memberStorage rows member)).size < 2 ^ 32 :=
      lt_of_le_of_lt grows ends
    rw [collectOffsets, memberLayout_eq fit (known member (by simp)),
      fittingLayout_eq (fits_of_end headEnds)]
    change (fitting id (roundUp offset (layoutFor width _).align) >>= _) = _
    rw [roundUp_object headEnds]
    change (fitting id (checkedAdd _ (extent width _).size) >>= _) = _
    rw [checkedAdd_eq headEnds]
    change collectOffsets _ _ _ _ _ _ = _
    rw [ih tailKnown _ _ ends, List.map_cons, memberOffsets, List.append_assoc]
    rfl

/-! ## Leaves -/

def ForeignLeaf.of (leaf : Leaf ForeignType) : ForeignLeaf :=
  ⟨leaf.offset, leaf.tag⟩

def foreignLeaves (width : ForeignPointerWidth) (base : Nat) (object : Storage ForeignType) :
    List ForeignLeaf :=
  (leaves (scalarMeasure width) base object).map ForeignLeaf.of

/-- The nested walk appends the leaves of the rows it is asked for. -/
def CollectsNested (width : ForeignPointerWidth) (rows : List (Storage ForeignType))
    (collectNested : UInt32 → Nat → List ForeignLeaf →
      Except ForeignAggregateError (List ForeignLeaf)) (nested : UInt32) : Prop :=
  ∀ base leaves,
    base + (extent width (rows[nested.toNat]?.getD (.record []))).size < 2 ^ 32 →
      collectNested nested base leaves =
        .ok (leaves ++ foreignLeaves width base (rows[nested.toNat]?.getD (.record [])))

variable {collectNested : UInt32 → Nat → List ForeignLeaf →
  Except ForeignAggregateError (List ForeignLeaf)}

theorem collectElements_eq {element : ForeignArrayElement} {count : UInt32}
    (nested : ∀ referenced ∈ (ForeignMember.array element count).referenced,
      CollectsNested width rows collectNested referenced)
    (id : UInt32) (base offset left step : Nat) (leaves : List ForeignLeaf)
    (ends : base + offset + (extent width (elementStorage rows element)).size * (step + left) <
      2 ^ 32) :
    collectElements id collectNested element (extent width (elementStorage rows element)).size
        base offset left step leaves =
      .ok (leaves ++ (List.range' step left).flatMap fun step =>
        foreignLeaves width
          (base + offset + (extent width (elementStorage rows element)).size * step)
          (elementStorage rows element)) := by
  induction left generalizing step leaves with
  | zero => simp [collectElements, pure, Except.pure]
  | succ left ih =>
    have firstEnds : base + offset +
        (extent width (elementStorage rows element)).size * (step + 1) ≤
        base + offset +
          (extent width (elementStorage rows element)).size * (step + (left + 1)) := by
      apply Nat.add_le_add_left
      apply Nat.mul_le_mul_left
      omega
    rw [Nat.mul_succ] at firstEnds
    rw [collectElements, checkedAdd_eq (by omega), Option.bind_some, checkedMul_eq (by omega),
      Option.bind_some, checkedAdd_eq (by omega)]
    have restEnds : base + offset +
        (extent width (elementStorage rows element)).size * (step + 1 + left) < 2 ^ 32 := by
      rwa [Nat.add_assoc step, Nat.add_comm 1]
    rw [List.range'_succ, List.flatMap_cons]
    cases element with
    | scalar ty =>
      change collectElements _ _ _ _ _ _ _ _ _ = _
      rw [ih (step + 1) _ restEnds, List.append_assoc]
      rfl
    | aggregate inner =>
      have innerEnds : base + offset +
          (extent width (elementStorage rows (.aggregate inner))).size * step +
          (extent width (elementStorage rows (.aggregate inner))).size < 2 ^ 32 := by
        omega
      change (collectNested inner _ leaves >>= _) = _
      rw [nested inner rfl _ leaves innerEnds]
      change collectElements _ _ _ _ _ _ _ _ _ = _
      rw [ih (step + 1) _ restEnds, List.append_assoc]
      rfl

theorem collectMember_eq (fit : ∀ row ∈ rows, Fits width row) (id : UInt32)
    {member : ForeignMember}
    (known : ∀ referenced ∈ member.referenced, referenced.toNat < rows.length)
    (nested : ∀ referenced ∈ member.referenced,
      CollectsNested width rows collectNested referenced)
    (base offset : Nat) (leaves : List ForeignLeaf)
    (ends : base + (alignUp (extent width (memberStorage rows member)).align offset +
      (extent width (memberStorage rows member)).size) < 2 ^ 32) :
    collectMember id width (rows.map (layoutFor width)) collectNested base offset leaves member =
      .ok (alignUp (extent width (memberStorage rows member)).align offset +
          (extent width (memberStorage rows member)).size,
        leaves ++ foreignLeaves width
          (base + alignUp (extent width (memberStorage rows member)).align offset)
          (memberStorage rows member)) := by
  have inside : alignUp (extent width (memberStorage rows member)).align offset +
      (extent width (memberStorage rows member)).size < 2 ^ 32 := by omega
  cases member with
  | scalar ty =>
    rw [collectMember]
    change (fitting id (roundUp offset (layoutFor width
      (memberStorage rows (.scalar ty))).align) >>= _) = _
    rw [roundUp_object inside]
    change (fitting id (checkedAdd base _) >>= _) = _
    rw [checkedAdd_eq (by omega)]
    change (fitting id (checkedAdd _ (extent width (memberStorage rows (.scalar ty))).size)
      >>= _) = _
    rw [checkedAdd_eq inside]
    rfl
  | aggregate inner =>
    rw [collectMember, knownLayout_eq (known inner rfl)]
    change (fitting id (roundUp offset (layoutFor width
      (memberStorage rows (.aggregate inner))).align) >>= _) = _
    rw [roundUp_object inside]
    change (fitting id (checkedAdd base _) >>= _) = _
    rw [checkedAdd_eq (by omega)]
    change (collectNested inner _ leaves >>= _) = _
    rw [nested inner rfl _ leaves (by rwa [Nat.add_assoc])]
    change (fitting id (checkedAdd _ (extent width (memberStorage rows (.aggregate inner))).size)
      >>= _) = _
    rw [checkedAdd_eq inside]
    rfl
  | array element count =>
    rw [collectMember, memberLayout_eq fit known, fittingLayout_eq (fits_of_end inside)]
    change (elementLayout element id width _ >>= _) = _
    rw [elementLayout_eq known]
    change (fitting id (roundUp offset (layoutFor width
      (memberStorage rows (.array element count))).align) >>= _) = _
    rw [roundUp_object inside]
    change (collectElements id collectNested element
      (extent width (elementStorage rows element)).size base _ count.toNat 0 leaves >>= _) = _
    rw [collectElements_eq nested id base _ count.toNat 0 leaves
      (by rw [Nat.zero_add, Nat.add_assoc]; exact ends)]
    change (fitting id (checkedAdd _
      (extent width (memberStorage rows (.array element count))).size) >>= _) = _
    rw [checkedAdd_eq inside]
    change Except.ok (_, leaves ++ _) = Except.ok (_, leaves ++ _)
    rw [foreignLeaves, memberStorage, StorageLayout.leaves, List.map_flatMap, List.range_eq_range']
    rfl

theorem collectMembers_eq (fit : ∀ row ∈ rows, Fits width row) (id : UInt32)
    (members : List ForeignMember) (known : RefersBelow rows.length ⟨members⟩)
    (nested : ∀ member ∈ members, ∀ referenced ∈ member.referenced,
      CollectsNested width rows collectNested referenced)
    (base offset : Nat) (leaves : List ForeignLeaf)
    (ends : base + membersEnd (scalarMeasure width) offset (members.map (memberStorage rows)) <
      2 ^ 32) :
    collectMembers id width (rows.map (layoutFor width)) collectNested base offset leaves members =
      .ok (leaves ++ (membersLeaves (scalarMeasure width) base offset
        (members.map (memberStorage rows))).map ForeignLeaf.of) := by
  induction members generalizing offset leaves with
  | nil => simp [collectMembers, membersLeaves, pure, Except.pure]
  | cons member members ih =>
    have tailKnown : RefersBelow rows.length ⟨members⟩ := by
      intro later laterIn
      exact known later (List.mem_cons_of_mem member laterIn)
    have tailNested : ∀ later ∈ members, ∀ referenced ∈ later.referenced,
        CollectsNested width rows collectNested referenced := by
      intro later laterIn
      exact nested later (List.mem_cons_of_mem member laterIn)
    have grows := le_membersEnd (scalarMeasure width) (members.map (memberStorage rows))
      (alignUp (extent width (memberStorage rows member)).align offset +
        (extent width (memberStorage rows member)).size)
    rw [List.map_cons, membersEnd] at ends
    change base + membersEnd _
      (alignUp (extent width _).align offset + (extent width _).size) _ < 2 ^ 32 at ends
    have headEnds : base + (alignUp (extent width (memberStorage rows member)).align offset +
        (extent width (memberStorage rows member)).size) < 2 ^ 32 :=
      lt_of_le_of_lt (Nat.add_le_add_left grows base) ends
    rw [collectMembers, collectMember_eq fit id (known member (by simp))
      (nested member (by simp)) base offset leaves headEnds]
    change collectMembers _ _ _ _ _ _ _ _ = _
    rw [ih tailKnown tailNested _ _ ends, List.map_cons, membersLeaves, List.map_append,
      List.append_assoc]
    rfl

theorem storageAt {table : ForeignAggregates} {id : UInt32} {row : ForeignAggregate}
    (rowAt : table.get id = some row) :
    (storages table)[id.toNat]?.getD (.record []) = rowStorage (storages table) row := by
  rw [storages_getElem?, show table.entries[id.toNat]? = some row from rowAt]
  rfl

theorem refersBelow_storages {table : ForeignAggregates} {id : UInt32} {row : ForeignAggregate}
    (rowAt : table.get id = some row) : RefersBelow (storages table).length row := by
  intro member memberIn referenced referencedIn
  have below := refersBelow_of_ordered table rowAt member memberIn referenced referencedIn
  have inside := (List.getElem?_eq_some_iff.mp rowAt).1
  rw [storages_length]
  omega

/-- References go down, so the depth only has to exceed the row's index. -/
theorem collectLeaves_eq (table : ForeignAggregates)
    (fit : ∀ row ∈ storages table, Fits width row) (depth : Nat) (id : UInt32)
    (deep : id.toNat < depth) (inside : id.toNat < table.entries.length) :
    CollectsNested width (storages table)
      (collectLeaves table width ((storages table).map (layoutFor width)) depth) id := by
  induction depth generalizing id with
  | zero => omega
  | succ depth ih =>
    intro base leaves ends
    have ⟨row, rowAt⟩ : ∃ row, table.get id = some row :=
      ⟨_, List.getElem?_eq_getElem inside⟩
    have covers := membersEnd_le_size (scalarMeasure width)
      (row.members.map (memberStorage (storages table)))
    rw [storageAt rowAt] at ends ⊢
    change base + (extentOf (scalarMeasure width) (.record _)).size < 2 ^ 32 at ends
    have nested : ∀ member ∈ row.members,
        ∀ referenced ∈ member.referenced,
          CollectsNested width (storages table)
            (collectLeaves table width ((storages table).map (layoutFor width)) depth)
            referenced := by
      intro member memberIn referenced referencedIn
      have below := refersBelow_of_ordered table rowAt member memberIn referenced referencedIn
      apply ih referenced
      · omega
      · omega
    rw [collectLeaves, rowAt]
    change collectMembers _ _ _ _ _ _ _ _ = _
    rw [collectMembers_eq fit id _ (refersBelow_storages rowAt) nested base 0 leaves (by omega)]
    rfl

end Aggregates

end KiraVm
