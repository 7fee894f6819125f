import KiraVm.AggregateLayouts
import KiraVm.StorageLayout

/-!
# Aggregates as C objects

A row of the table is a record of objects.  The computed layouts are those of the records
as long as every record's size fits 32 bits.
-/

namespace KiraVm

namespace Aggregates

open StorageLayout

def scalarMeasure (width : ForeignPointerWidth) : Measure ForeignType where
  extent ty := ⟨(scalarLayout width ty).size, (scalarLayout width ty).align⟩
  power := by
    intro ty
    cases width <;> cases ty <;>
      first | exact ⟨0, rfl⟩ | exact ⟨1, rfl⟩ | exact ⟨2, rfl⟩ | exact ⟨3, rfl⟩
  whole := by
    intro ty
    cases width <;> cases ty <;> decide

def elementStorage (rows : List (Storage ForeignType)) : ForeignArrayElement → Storage ForeignType
  | .scalar ty => .scalar ty
  | .aggregate id => rows[id.toNat]?.getD (.record [])

def memberStorage (rows : List (Storage ForeignType)) : ForeignMember → Storage ForeignType
  | .scalar ty => .scalar ty
  | .aggregate id => rows[id.toNat]?.getD (.record [])
  | .array element count => .array (elementStorage rows element) count.toNat

def rowStorage (rows : List (Storage ForeignType)) (row : ForeignAggregate) :
    Storage ForeignType :=
  .record (row.members.map (memberStorage rows))

def rowStorages : List (Storage ForeignType) → List ForeignAggregate → List (Storage ForeignType)
  | rows, [] => rows
  | rows, row :: rest => rowStorages (rows ++ [rowStorage rows row]) rest

/-- Every row of a table as a C object. -/
def storages (table : ForeignAggregates) : List (Storage ForeignType) :=
  rowStorages [] table.entries

/-! ## The rows' objects -/

def RefersBelow (count : Nat) (row : ForeignAggregate) : Prop :=
  ∀ member ∈ row.members, ∀ referenced ∈ member.referenced, referenced.toNat < count

variable {row : ForeignAggregate} {rows : List (Storage ForeignType)}

theorem refersBelow_of_ordered (table : ForeignAggregates) {index : Nat}
    (rowAt : table.entries[index]? = some row) : RefersBelow index row := by
  intro member memberIn referenced referencedIn
  have below := table.ordered index row rowAt member memberIn referenced referencedIn
  rw [UInt32.lt_iff_toNat_lt, UInt32.toNat_ofNat'] at below
  exact lt_of_lt_of_le below (Nat.mod_le _ _)

theorem elementStorage_congr {others : List (Storage ForeignType)}
    {element : ForeignArrayElement} {count : UInt32}
    (same : ∀ referenced ∈ (ForeignMember.array element count).referenced,
      rows[referenced.toNat]? = others[referenced.toNat]?) :
    elementStorage rows element = elementStorage others element := by
  cases element with
  | scalar ty => rfl
  | aggregate id => rw [elementStorage, elementStorage, same id rfl]

theorem memberStorage_congr {others : List (Storage ForeignType)} {member : ForeignMember}
    (same : ∀ referenced ∈ member.referenced,
      rows[referenced.toNat]? = others[referenced.toNat]?) :
    memberStorage rows member = memberStorage others member := by
  cases member with
  | scalar ty => rfl
  | aggregate id => rw [memberStorage, memberStorage, same id rfl]
  | array element count => rw [memberStorage, memberStorage, elementStorage_congr same]

theorem rowStorage_append (below : RefersBelow rows.length row)
    (others : List (Storage ForeignType)) :
    rowStorage (rows ++ others) row = rowStorage rows row := by
  rw [rowStorage, rowStorage]
  congr 1
  apply List.map_congr_left
  intro member memberIn
  apply memberStorage_congr
  intro referenced referencedIn
  exact List.getElem?_append_left (below member memberIn referenced referencedIn)

/-- The rows to come refer only to rows before them. -/
def Ordered (count : Nat) (rest : List ForeignAggregate) : Prop :=
  ∀ (position : Nat) (row : ForeignAggregate), rest[position]? = some row →
    RefersBelow (count + position) row

theorem Ordered.head {count : Nat} {rest : List ForeignAggregate}
    (ordered : Ordered count (row :: rest)) : RefersBelow count row :=
  ordered 0 row rfl

theorem Ordered.tail {count : Nat} {row : ForeignAggregate} {rest : List ForeignAggregate}
    (ordered : Ordered count (row :: rest)) : Ordered (count + 1) rest := by
  intro position later laterAt
  have below := ordered (position + 1) later laterAt
  rwa [Nat.add_assoc, Nat.add_comm 1]

theorem ordered_entries (table : ForeignAggregates) : Ordered 0 table.entries := by
  intro position row rowAt
  rw [Nat.zero_add]
  exact refersBelow_of_ordered table rowAt

theorem rowStorages_extends (rest : List ForeignAggregate) (rows : List (Storage ForeignType)) :
    ∃ later, rowStorages rows rest = rows ++ later := by
  induction rest generalizing rows with
  | nil => exact ⟨[], by simp [rowStorages]⟩
  | cons row rest ih =>
    rcases ih (rows ++ [rowStorage rows row]) with ⟨later, laterEq⟩
    use rowStorage rows row :: later
    rw [rowStorages, laterEq, List.append_assoc]
    rfl

@[simp]
theorem rowStorages_length (rest : List ForeignAggregate) (rows : List (Storage ForeignType)) :
    (rowStorages rows rest).length = rows.length + rest.length := by
  induction rest generalizing rows with
  | nil => rfl
  | cons row rest ih =>
    rw [rowStorages, ih]
    simp only [List.length_append, List.length_cons, List.length_nil]
    omega

theorem rowStorages_getElem? (rest : List ForeignAggregate) (rows : List (Storage ForeignType))
    (ordered : Ordered rows.length rest) (position : Nat) :
    (rowStorages rows rest)[rows.length + position]? =
      rest[position]?.map (rowStorage (rowStorages rows rest)) := by
  induction rest generalizing rows position with
  | nil => simp [rowStorages]
  | cons row rest ih =>
    rw [rowStorages]
    rcases rowStorages_extends rest (rows ++ [rowStorage rows row]) with ⟨later, laterEq⟩
    cases position with
    | zero =>
      rw [laterEq, List.append_assoc]
      simp [rowStorage_append ordered.head]
    | succ position =>
      have tail : Ordered (rows ++ [rowStorage rows row]).length rest := by
        rw [List.length_append]
        exact ordered.tail
      have later := ih (rows ++ [rowStorage rows row]) tail position
      rw [List.length_append, List.length_singleton] at later
      rw [Nat.add_comm position 1, ← Nat.add_assoc, later, Nat.add_comm 1,
        List.getElem?_cons_succ]

/-- A row's object is the record of its members' objects. -/
theorem storages_getElem? (table : ForeignAggregates) (index : Nat) :
    (storages table)[index]? = table.entries[index]?.map (rowStorage (storages table)) := by
  have found := rowStorages_getElem? table.entries [] (ordered_entries table) index
  rwa [List.length_nil, Nat.zero_add] at found

@[simp]
theorem storages_length (table : ForeignAggregates) :
    (storages table).length = table.entries.length := by
  rw [storages, rowStorages_length, List.length_nil, Nat.zero_add]

/-! ## Fitting sizes -/

variable (width : ForeignPointerWidth)

def extent (object : Storage ForeignType) : Extent :=
  extentOf (scalarMeasure width) object

def layoutFor (object : Storage ForeignType) : ForeignLayout :=
  ⟨(extent width object).size, (extent width object).align⟩

def Fits (object : Storage ForeignType) : Prop :=
  (extent width object).size < 2 ^ 32

instance (object : Storage ForeignType) : Decidable (Fits width object) :=
  inferInstanceAs (Decidable (_ < _))

def fittingLayout (index : UInt32) (object : Storage ForeignType) :
    Except ForeignAggregateError ForeignLayout :=
  if Fits width object then .ok (layoutFor width object) else .error (.tooLarge index)

mutual

theorem align_dvd_range (object : Storage ForeignType) :
    (extent width object).align ∣ 2 ^ 32 := by
  cases object with
  | scalar ty => cases width <;> cases ty <;> decide
  | array element count => exact align_dvd_range element
  | record members => exact membersAlign_dvd_range members

theorem membersAlign_dvd_range (members : List (Storage ForeignType)) :
    membersAlign (scalarMeasure width) members ∣ 2 ^ 32 := by
  cases members with
  | nil => exact Nat.one_dvd _
  | cons member members =>
    rw [membersAlign]
    rcases max_choice (extentOf (scalarMeasure width) member).align
      (membersAlign (scalarMeasure width) members) with larger | larger
    · rw [larger]
      exact align_dvd_range member
    · rw [larger]
      exact membersAlign_dvd_range members

end

theorem align_pos (object : Storage ForeignType) : 0 < (extent width object).align :=
  extentOf_align_pos (scalarMeasure width) object

theorem roundUp_eq {value align : Nat} (positive : 0 < align) (divides : align ∣ 2 ^ 32) :
    roundUp value align =
      if alignUp align value < 2 ^ 32 then some (alignUp align value) else none := by
  have rounded := alignUp_eq_sub_mod positive value
  rw [roundUp, checkedAdd]
  by_cases raised : value + (align - 1) < 2 ^ 32
  · rw [if_pos raised, if_pos (by omega), Option.map_some, rounded]
  · have multiple : 2 ^ 32 ≤ alignUp align value := by
      rcases divides with ⟨factor, factorEq⟩
      rw [factorEq, alignUp, Nat.ceilDiv_eq_add_pred_div]
      apply Nat.mul_le_mul_left
      rw [Nat.le_div_iff_mul_le positive, Nat.mul_comm, ← factorEq]
      omega
    rw [if_neg raised, if_neg (by omega), Option.map_none]

variable {width}

theorem checkedAdd_eq {left right : Nat} (fits : left + right < 2 ^ 32) :
    checkedAdd left right = some (left + right) :=
  if_pos fits

theorem checkedMul_eq {left right : Nat} (fits : left * right < 2 ^ 32) :
    checkedMul left right = some (left * right) :=
  if_pos fits

theorem knownLayout_eq {id : UInt32} (known : id.toNat < rows.length) (container : UInt32) :
    knownLayout container (rows.map (layoutFor width)) id =
      .ok (layoutFor width (rows[id.toNat]?.getD (.record []))) := by
  simp [knownLayout, known]

theorem elementLayout_eq {rows : List (Storage ForeignType)} {element : ForeignArrayElement}
    {count : UInt32}
    (known : ∀ referenced ∈ (ForeignMember.array element count).referenced,
      referenced.toNat < rows.length) (container : UInt32) :
    elementLayout element container width (rows.map (layoutFor width)) =
      .ok (layoutFor width (elementStorage rows element)) := by
  cases element with
  | scalar ty => rfl
  | aggregate id => exact knownLayout_eq (known id rfl) container

theorem scalar_fits (ty : ForeignType) : Fits width (.scalar ty) := by
  cases width <;> cases ty <;> decide

theorem row_fits (fit : ∀ row ∈ rows, Fits width row) {id : UInt32}
    (known : id.toNat < rows.length) : Fits width (rows[id.toNat]?.getD (.record [])) := by
  rw [List.getElem?_eq_getElem known, Option.getD_some]
  exact fit _ (List.getElem_mem known)

theorem memberLayout_eq (fit : ∀ row ∈ rows, Fits width row) {member : ForeignMember}
    (known : ∀ referenced ∈ member.referenced, referenced.toNat < rows.length)
    (container : UInt32) :
    memberLayout member container width (rows.map (layoutFor width)) =
      fittingLayout width container (memberStorage rows member) := by
  cases member with
  | scalar ty => exact (if_pos (scalar_fits ty)).symm
  | aggregate id =>
    rw [memberLayout, knownLayout_eq (known id rfl)]
    exact (if_pos (row_fits fit (known id rfl))).symm
  | array element count =>
    rw [memberLayout, elementLayout_eq known]
    change (fitting container (checkedMul (extent width (elementStorage rows element)).size _)
      >>= _) = _
    rw [fittingLayout, memberStorage]
    by_cases fits :
        (extent width (elementStorage rows element)).size * count.toNat < 2 ^ 32
    · have objectFits : Fits width (.array (elementStorage rows element) count.toNat) := fits
      rw [if_pos objectFits, checkedMul_eq fits]
      rfl
    · have objectLarge : ¬ Fits width (.array (elementStorage rows element) count.toNat) := fits
      rw [if_neg objectLarge, checkedMul, if_neg fits]
      rfl

def placedLayout (width : ForeignPointerWidth) (index : UInt32) (size align : Nat)
    (members : List (Storage ForeignType)) : Except ForeignAggregateError ForeignLayout :=
  if membersEnd (scalarMeasure width) size members < 2 ^ 32 then
    .ok ⟨membersEnd (scalarMeasure width) size members,
      max align (membersAlign (scalarMeasure width) members)⟩
  else
    .error (.tooLarge index)

/-- One member placed behind the others. -/
theorem place_eq (object : Storage ForeignType) (size : Nat) (index : UInt32) :
    fitting index ((roundUp size (layoutFor width object).align).bind fun start =>
        checkedAdd start (layoutFor width object).size) =
      if alignUp (extent width object).align size + (extent width object).size < 2 ^ 32 then
        .ok (alignUp (extent width object).align size + (extent width object).size)
      else
        .error (.tooLarge index) := by
  change fitting index ((roundUp size (extent width object).align).bind fun start =>
    checkedAdd start (extent width object).size) = _
  rw [roundUp_eq (align_pos width object) (align_dvd_range width object)]
  by_cases fits : alignUp (extent width object).align size + (extent width object).size < 2 ^ 32
  · rw [if_pos (by omega), if_pos fits, Option.bind_some, checkedAdd_eq fits]
    rfl
  · rw [if_neg fits]
    by_cases placed : alignUp (extent width object).align size < 2 ^ 32
    · rw [if_pos placed, Option.bind_some, checkedAdd, if_neg fits]
      rfl
    · rw [if_neg placed]
      rfl

theorem placeMembers_eq (fit : ∀ row ∈ rows, Fits width row) (index : UInt32)
    (members : List ForeignMember) (known : RefersBelow rows.length ⟨members⟩) (size align : Nat)
    (small : size < 2 ^ 32) (positive : 1 ≤ align) :
    placeMembers index width (rows.map (layoutFor width)) size align members =
      placedLayout width index size align (members.map (memberStorage rows)) := by
  induction members generalizing size align with
  | nil =>
    simp only [placeMembers, placedLayout, List.map_nil, membersEnd, membersAlign]
    rw [if_pos small, Nat.max_eq_left positive]
    rfl
  | cons member members ih =>
    have headKnown := known member (by simp)
    have tailKnown : RefersBelow rows.length ⟨members⟩ := by
      intro later laterIn
      exact known later (List.mem_cons_of_mem member laterIn)
    have grows := le_membersEnd (scalarMeasure width) (members.map (memberStorage rows))
      (alignUp (extent width (memberStorage rows member)).align size +
        (extent width (memberStorage rows member)).size)
    rw [placeMembers, memberLayout_eq fit headKnown, placedLayout, List.map_cons, membersEnd,
      membersAlign]
    change _ = if membersEnd (scalarMeasure width)
      (alignUp (extent width (memberStorage rows member)).align size +
        (extent width (memberStorage rows member)).size) _ < 2 ^ 32 then _ else _
    by_cases memberFits : Fits width (memberStorage rows member)
    · rw [fittingLayout, if_pos memberFits]
      change (fitting index _ >>= _) = _
      rw [place_eq]
      by_cases placed : alignUp (extent width (memberStorage rows member)).align size +
          (extent width (memberStorage rows member)).size < 2 ^ 32
      · rw [if_pos placed]
        change placeMembers _ _ _ _ _ _ = _
        rw [ih tailKnown _ _ placed (le_trans positive (le_max_left _ _)), placedLayout,
          Nat.max_assoc]
        rfl
      · rw [if_neg placed, if_neg (by omega)]
        rfl
    · rw [fittingLayout, if_neg memberFits, if_neg (by unfold Fits at memberFits; omega)]
      rfl

theorem rowLayout_eq (fit : ∀ row ∈ rows, Fits width row) (index : UInt32)
    (known : RefersBelow rows.length row) :
    rowLayout index width (rows.map (layoutFor width)) row =
      fittingLayout width index (rowStorage rows row) := by
  have covers := membersEnd_le_size (scalarMeasure width) (row.members.map (memberStorage rows))
  have positive := membersAlign_pos (scalarMeasure width) (row.members.map (memberStorage rows))
  rw [rowLayout, placeMembers_eq fit index row.members known 0 1 (by decide) le_rfl, placedLayout,
    Nat.max_eq_right positive, fittingLayout]
  by_cases ends : membersEnd (scalarMeasure width) 0 (row.members.map (memberStorage rows)) < 2 ^ 32
  · rw [if_pos ends]
    change (fitting index (roundUp _ _) >>= _) = _
    rw [roundUp_eq positive
      (membersAlign_dvd_range width (row.members.map (memberStorage rows)))]
    by_cases fits : Fits width (rowStorage rows row)
    · rw [if_pos fits]
      rw [Fits, extent, rowStorage, extentOf] at fits
      rw [if_pos fits]
      rfl
    · rw [if_neg fits]
      rw [Fits, extent, rowStorage, extentOf] at fits
      rw [if_neg fits]
      rfl
  · have large : ¬ Fits width (rowStorage rows row) := by
      change ¬ (extentOf _ (.record _)).size < 2 ^ 32
      omega
    rw [if_neg ends, if_neg large]
    rfl

def fittingLayouts (width : ForeignPointerWidth) (objects : List (Storage ForeignType)) :
    Except ForeignAggregateError (List ForeignLayout) :=
  match objects.findIdx? fun object => decide (¬ Fits width object) with
  | none => .ok (objects.map (layoutFor width))
  | some index => .error (.tooLarge (UInt32.ofNat index))

theorem layoutRows_eq (rest : List ForeignAggregate) (rows : List (Storage ForeignType))
    (fit : ∀ row ∈ rows, Fits width row) (ordered : Ordered rows.length rest) :
    layoutRows width (rows.map (layoutFor width)) rest =
      fittingLayouts width (rowStorages rows rest) := by
  have noneBefore : (rows.findIdx? fun object => decide (¬ Fits width object)) = none := by
    rw [List.findIdx?_eq_none_iff]
    intro row rowIn
    simpa using fit row rowIn
  induction rest generalizing rows with
  | nil =>
    rw [layoutRows, rowStorages, fittingLayouts, noneBefore]
    rfl
  | cons row rest ih =>
    rw [layoutRows, rowLayout_eq fit _ ordered.head, rowStorages, List.length_map]
    by_cases fits : Fits width (rowStorage rows row)
    · rw [fittingLayout, if_pos fits]
      have fitMore : ∀ object ∈ rows ++ [rowStorage rows row], Fits width object := by
        intro object objectIn
        rcases List.mem_append.mp objectIn with earlier | last
        · exact fit object earlier
        · rw [List.mem_singleton.mp last]
          exact fits
      have tail : Ordered (rows ++ [rowStorage rows row]).length rest := by
        rw [List.length_append]
        exact ordered.tail
      have noneMore : ((rows ++ [rowStorage rows row]).findIdx? fun object =>
          decide (¬ Fits width object)) = none := by
        rw [List.findIdx?_eq_none_iff]
        intro object objectIn
        simpa using fitMore object objectIn
      have later := ih (rows ++ [rowStorage rows row]) fitMore tail noneMore
      rw [List.map_append] at later
      exact later
    · rcases rowStorages_extends rest (rows ++ [rowStorage rows row]) with ⟨later, laterEq⟩
      rw [fittingLayout, if_neg fits, laterEq, fittingLayouts, List.append_assoc,
        List.findIdx?_append, noneBefore, List.singleton_append, List.findIdx?_cons,
        if_pos (by simpa using fits)]
      simp only [Option.none_or, Option.map_some, Nat.zero_add]
      rfl

theorem layouts_eq (table : ForeignAggregates) (width : ForeignPointerWidth) :
    layouts table width = fittingLayouts width (storages table) :=
  layoutRows_eq table.entries [] (by simp) (ordered_entries table)

end Aggregates

end KiraVm
