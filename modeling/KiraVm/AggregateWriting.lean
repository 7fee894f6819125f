import KiraVm.AggregateImages

/-!
# Structs written in the layout of C

A struct of an aggregate's shape is written at the leaves of the aggregate's object, over
the bytes that were there.
-/

namespace KiraVm

namespace Aggregates

open StorageLayout

/-! ## Values with given contents -/

def Shows (heap : Heap) (value : Value) (content : Content) : Prop :=
  ∃ depth, heap.Owned depth value ∧ heap.contentTo depth value = content

variable {heap : Heap} {value : Value}

variable {values : List Value} {contents : List Content} {content : Content} {start : Nat}
  {bytes : List UInt8} {element : ForeignArrayElement} {base : Nat} {count : UInt32}

theorem shows_all {depth : Nat} (owned : ∀ part ∈ values, heap.Owned depth part)
    (same : values.map (heap.contentTo depth) = contents) :
    List.Forall₂ (Shows heap) values contents := by
  rw [← same, List.forall₂_map_right_iff, List.forall₂_same]
  intro part partIn
  exact ⟨depth, owned part partIn, rfl⟩

theorem shows_struct (shown : Shows heap value (.struct (.chain contents))) :
    ∃ handle, value = .struct handle ∧ List.Forall₂ (Shows heap) (heap.fields handle) contents := by
  rcases shown with ⟨depth, owned, same⟩
  cases depth with
  | zero => exact owned.elim
  | succ depth =>
    cases value with
    | struct handle =>
      injection same with chains
      exact ⟨handle, rfl, shows_all owned.2 (chain_injective chains)⟩
    | nativeSnapshot id => exact owned.1.elim
    | _ => cases same

theorem shows_array (shown : Shows heap value (.array (.chain contents))) :
    ∃ handle, value = .array handle ∧
      List.Forall₂ (Shows heap) (heap.elements handle) contents := by
  rcases shown with ⟨depth, owned, same⟩
  cases depth with
  | zero => exact owned.elim
  | succ depth =>
    cases value with
    | array handle =>
      injection same with chains
      exact ⟨handle, rfl, shows_all owned.2 (chain_injective chains)⟩
    | nativeSnapshot id => exact owned.1.elim
    | _ => cases same

/-- A scalar crosses as its contents say: a block of C storage crosses as its address. -/
theorem shows_scalar {ty : ForeignType} (shown : Shows heap value content)
    (fits : ScalarFits floats width ty content) : heap.seamWord value = scalarValue content := by
  rcases shown with ⟨depth, owned, same⟩
  cases depth with
  | zero => exact owned.elim
  | succ depth =>
    cases value with
    | int value => rw [← same]; rfl
    | float bits => rw [← same]; rfl
    | bool value => rw [← same]; rfl
    | rawPtr word => rw [← same]; rfl
    | cBlock id => rw [← same]; rfl
    | nativeSnapshot id => exact owned.1.elim
    | _ => rw [← same] at fits; cases ty <;> exact fits.elim

/-! ## Writing -/

def walkFor (table : ForeignAggregates) (width : ForeignPointerWidth) : Walk :=
  ⟨table, (storages table).map (layoutFor width), width⟩

def rowObject (table : ForeignAggregates) (id : UInt32) : Storage ForeignType :=
  (storages table)[id.toNat]?.getD (.record [])

variable {table : ForeignAggregates} {width : ForeignPointerWidth} {floats : Floats}

def WritesNested (floats : Floats) (heap : Heap) (table : ForeignAggregates)
    (width : ForeignPointerWidth)
    (writeNested : UInt32 → Value → Nat → List UInt8 → Except AggregateMismatch (List UInt8))
    (nested : UInt32) : Prop :=
  ∀ value content base bytes, Shows heap value content →
    Fills floats width (rowObject table nested) content →
    (extent width (rowObject table nested)).align ∣ base →
    base + (extent width (rowObject table nested)).size ≤ bytes.length →
    bytes.length < 2 ^ 32 →
      writeNested nested value base bytes =
        .ok (writeLeaves floats width
          (leaves (scalarMeasure width) base (rowObject table nested)) (scalarsOf content) bytes)

theorem writeScalar_eq {ty : ForeignType} (shown : Shows heap value content)
    (fits : ScalarFits floats width ty content)
    (inside : start + scalarSize width ty ≤ bytes.length) :
    (shape (encodeScalar floats width ty (heap.seamWord value)) >>= fun encoded =>
        shape (patchInside bytes encoded start)) =
      .ok (writeLeaves floats width [⟨start, ty⟩] [content] bytes) := by
  rcases coded_of_fits fits with ⟨word, coded⟩
  have encoded : encodeScalar floats width ty (scalarValue content) = some word := coded.encoded
  have room : start + word.length ≤ bytes.length := by
    rw [coded.sized]
    exact inside
  rw [shows_scalar shown fits, encoded, writeLeaves, coded.encoded]
  change shape (patchInside bytes word start) = _
  rw [patchInside, if_pos room]
  rfl

variable {writeNested : UInt32 → Value → Nat → List UInt8 →
  Except AggregateMismatch (List UInt8)}

def writeElement (floats : Floats) (heap : Heap) (width : ForeignPointerWidth)
    (writeNested : UInt32 → Value → Nat → List UInt8 → Except AggregateMismatch (List UInt8))
    (element : ForeignArrayElement) (value : Value) (start : Nat) (bytes : List UInt8) :
    Except AggregateMismatch (List UInt8) :=
  match element with
  | .scalar ty =>
    shape (encodeScalar floats width ty (heap.seamWord value)) >>= fun encoded =>
      shape (patchInside bytes encoded start)
  | .aggregate nested => writeNested nested value start bytes

theorem writeElements_cons {stride index : Nat} (step : stride * index < 2 ^ 32)
    (start : base + stride * index < 2 ^ 32) :
    Heap.writeElements floats heap (walkFor table width) writeNested element stride base index
        bytes (value :: values) =
      writeElement floats heap width writeNested element value (base + stride * index) bytes >>=
        fun bytes => Heap.writeElements floats heap (walkFor table width) writeNested element stride
          base (index + 1) bytes values := by
  rw [Heap.writeElements, checkedMul_eq step]
  change (shape (checkedAdd base _) >>= _) = _
  rw [checkedAdd_eq start]
  cases element with
  | scalar ty =>
    rw [writeElement, bind_assoc]
    rfl
  | aggregate nested => rfl

theorem writeElement_eq (nested : ∀ referenced ∈ (ForeignMember.array element count).referenced,
      WritesNested floats heap table width writeNested referenced)
    (shown : Shows heap value content)
    (fills : Fills floats width (elementStorage (storages table) element) content)
    (aligned : (extent width (elementStorage (storages table) element)).align ∣ start)
    (inside : start + (extent width (elementStorage (storages table) element)).size ≤ bytes.length)
    (small : bytes.length < 2 ^ 32) :
    writeElement floats heap width writeNested element value start bytes =
      .ok (writeLeaves floats width
        (leaves (scalarMeasure width) start (elementStorage (storages table) element))
        (scalarsOf content) bytes) := by
  cases element with
  | scalar ty =>
    rw [scalarsOf_scalar fills]
    exact writeScalar_eq shown fills inside
  | aggregate id => exact nested id rfl _ _ _ _ shown fills aligned inside small

theorem writeElements_eq (nested : ∀ referenced ∈ (ForeignMember.array element count).referenced,
      WritesNested floats heap table width writeNested referenced)
    (shown : List.Forall₂ (Shows heap) values contents) (fills : ∀ inner ∈ contents,
      Fills floats width (elementStorage (storages table) element) inner) (index : Nat)
    (bytes : List UInt8)
    (aligned : (extent width (elementStorage (storages table) element)).align ∣ base)
    (inside : base + (extent width (elementStorage (storages table) element)).size *
      (index + contents.length) ≤ bytes.length) (small : bytes.length < 2 ^ 32) :
    Heap.writeElements floats heap (walkFor table width) writeNested element
        (extent width (elementStorage (storages table) element)).size base index bytes values =
      .ok (writeLeaves floats width
        ((List.range' index contents.length).flatMap fun step =>
          leaves (scalarMeasure width)
            (base + (extent width (elementStorage (storages table) element)).size * step)
            (elementStorage (storages table) element))
        (contents.flatMap scalarsOf) bytes) := by
  induction shown generalizing index bytes with
  | nil => rfl
  | @cons value content values contents first rest ih =>
    have firstEnd : (extent width (elementStorage (storages table) element)).size * (index + 1) ≤
        (extent width (elementStorage (storages table) element)).size *
          (index + (content :: contents).length) := by
      apply Nat.mul_le_mul_left
      simp
    rw [Nat.mul_succ] at firstEnd
    have firstFills := fills content List.mem_cons_self
    have startAligned : (extent width (elementStorage (storages table) element)).align ∣
        base + (extent width (elementStorage (storages table) element)).size * index :=
      Nat.dvd_add aligned ((align_dvd_size (scalarMeasure width) _).mul_right index)
    have startInside : base +
        (extent width (elementStorage (storages table) element)).size * index +
        (extent width (elementStorage (storages table) element)).size ≤ bytes.length := by
      omega
    have sized : (writeLeaves floats width
        (leaves (scalarMeasure width)
          (base + (extent width (elementStorage (storages table) element)).size * index)
          (elementStorage (storages table) element)) (scalarsOf content) bytes).length =
        bytes.length :=
      writeLeaves_length (leaves_writable startAligned firstFills startInside)
    have lengths := (leaves_fit (elementStorage (storages table) element)
      (base + (extent width (elementStorage (storages table) element)).size * index)
      firstFills).length_eq
    rw [writeElements_cons (by omega) (by omega),
      writeElement_eq nested first firstFills startAligned startInside small]
    change Heap.writeElements _ _ _ _ _ _ _ _ _ _ = _
    rw [ih]
    · rw [List.length_cons, List.range'_succ, List.flatMap_cons, List.flatMap_cons,
        writeLeaves_append lengths]
    · intro inner innerIn
      exact fills inner (List.mem_cons_of_mem content innerIn)
    · rw [sized, Nat.add_right_comm]
      exact inside
    · rw [sized]
      exact small

def writeMember (floats : Floats) (heap : Heap) (table : ForeignAggregates)
    (width : ForeignPointerWidth)
    (writeNested : UInt32 → Value → Nat → List UInt8 → Except AggregateMismatch (List UInt8))
    (member : ForeignMember) (field : Value) (start : Nat) (bytes : List UInt8) :
    Except AggregateMismatch (List UInt8) :=
  match member with
  | .scalar ty =>
    shape (encodeScalar floats width ty (heap.seamWord field)) >>= fun encoded =>
      shape (patchInside bytes encoded start)
  | .aggregate nested => writeNested nested field start bytes
  | .array element count =>
    Heap.writeArray floats heap (walkFor table width) writeNested element count
      (extent width (elementStorage (storages table) element)).size field start bytes

theorem walk_layout {id : UInt32} (known : id.toNat < (storages table).length) :
    (walkFor table width).layout id = some (layoutFor width (rowObject table id)) := by
  rw [Walk.layout, walkFor, rowObject, List.getElem?_map, List.getElem?_eq_getElem known]
  rfl

theorem walk_elementLayout (known : ∀ referenced ∈ (ForeignMember.array element count).referenced,
      referenced.toNat < (storages table).length) :
    (walkFor table width).elementLayout element =
      some (layoutFor width (elementStorage (storages table) element)) := by
  cases element with
  | scalar ty => rfl
  | aggregate id => exact walk_layout (known id rfl)

theorem writeMembers_cons {member : ForeignMember}
    (known : ∀ referenced ∈ member.referenced, referenced.toNat < (storages table).length)
    {offset : Nat} {field : Value} {rest : List (ForeignMember × Value)}
    (ends : base + (alignUp (extent width (memberStorage (storages table) member)).align offset +
      (extent width (memberStorage (storages table) member)).size) < 2 ^ 32) :
    Heap.writeMembers floats heap (walkFor table width) writeNested base offset bytes
        ((member, field) :: rest) =
      writeMember floats heap table width writeNested member field
          (base + alignUp (extent width (memberStorage (storages table) member)).align offset)
          bytes >>= fun bytes =>
        Heap.writeMembers floats heap (walkFor table width) writeNested base
          (alignUp (extent width (memberStorage (storages table) member)).align offset +
            (extent width (memberStorage (storages table) member)).size) bytes rest := by
  have inside : alignUp (extent width (memberStorage (storages table) member)).align offset +
      (extent width (memberStorage (storages table) member)).size < 2 ^ 32 := by
    omega
  cases member with
  | scalar ty =>
    rw [Heap.writeMembers]
    change (shape (roundUp offset (layoutFor width
      (memberStorage (storages table) (.scalar ty))).align) >>= _) = _
    rw [roundUp_object inside]
    change (shape (checkedAdd base _) >>= _) = _
    rw [checkedAdd_eq (by omega), writeMember, bind_assoc]
    change (_ >>= fun encoded => _ >>= fun bytes => shape (checkedAdd _
      (extent width (memberStorage (storages table) (.scalar ty))).size) >>= _) = _
    rw [checkedAdd_eq inside]
    rfl
  | aggregate nested =>
    rw [Heap.writeMembers, walk_layout (known nested rfl)]
    change (shape (roundUp offset (layoutFor width
      (memberStorage (storages table) (.aggregate nested))).align) >>= _) = _
    rw [roundUp_object inside]
    change (shape (checkedAdd base _) >>= _) = _
    rw [checkedAdd_eq (by omega)]
    change (_ >>= fun bytes => shape (checkedAdd _
      (extent width (memberStorage (storages table) (.aggregate nested))).size) >>= _) = _
    rw [checkedAdd_eq inside]
    rfl
  | array element count =>
    have extentFits :
        (extent width (elementStorage (storages table) element)).size * count.toNat < 2 ^ 32 :=
      lt_of_le_of_lt (Nat.le_add_left _ _) inside
    rw [Heap.writeMembers, walk_elementLayout known]
    change (shape (roundUp offset (layoutFor width
      (memberStorage (storages table) (.array element count))).align) >>= _) = _
    rw [roundUp_object inside]
    change (shape (checkedAdd base _) >>= _) = _
    rw [checkedAdd_eq (by omega)]
    change (_ >>= fun bytes => shape (checkedMul
      (extent width (elementStorage (storages table) element)).size count.toNat) >>= _) = _
    rw [checkedMul_eq extentFits]
    change (_ >>= fun bytes => shape (checkedAdd _
      (extent width (memberStorage (storages table) (.array element count))).size) >>= _) = _
    rw [checkedAdd_eq inside]
    rfl

theorem writeMember_eq {member : ForeignMember} (nested : ∀ referenced ∈ member.referenced,
      WritesNested floats heap table width writeNested referenced) {field : Value}
    (shown : Shows heap field content)
    (fills : Fills floats width (memberStorage (storages table) member) content)
    (aligned : (extent width (memberStorage (storages table) member)).align ∣ start)
    (inside : start + (extent width (memberStorage (storages table) member)).size ≤ bytes.length)
    (small : bytes.length < 2 ^ 32) :
    writeMember floats heap table width writeNested member field start bytes =
      .ok (writeLeaves floats width
        (leaves (scalarMeasure width) start (memberStorage (storages table) member))
        (scalarsOf content) bytes) := by
  cases member with
  | scalar ty =>
    rw [scalarsOf_scalar fills]
    exact writeScalar_eq shown fills inside
  | aggregate id => exact nested id rfl _ _ _ _ shown fills aligned inside small
  | array element count =>
    rcases fills with ⟨contents, rfl, full, each⟩
    rcases shows_array shown with ⟨handle, rfl, elements⟩
    have long : ¬ count.toNat < (heap.elements handle).length := by
      rw [elements.length_eq]
      omega
    rw [writeMember, Heap.writeArray, if_neg long, writeElements_eq nested elements each 0 bytes aligned _ small]
    · rw [memberStorage, leaves, scalarsOf, scalarsOf_chain, full, List.range_eq_range']
      rfl
    · rw [Nat.zero_add, full]
      exact inside

theorem writeMembers_eq {members : List ForeignMember}
    (known : RefersBelow (storages table).length ⟨members⟩)
    (nested : ∀ member ∈ members, ∀ referenced ∈ member.referenced,
      WritesNested floats heap table width writeNested referenced) {fields : List Value}
    (shown : List.Forall₂ (Shows heap) fields contents)
    (fills : FillAll floats width (members.map (memberStorage (storages table))) contents)
    (offset : Nat) (bytes : List UInt8) (aligned : ∀ member ∈ members,
      (extent width (memberStorage (storages table) member)).align ∣ base)
    (inside : base + membersEnd (scalarMeasure width) offset
      (members.map (memberStorage (storages table))) ≤ bytes.length)
    (small : bytes.length < 2 ^ 32) :
    Heap.writeMembers floats heap (walkFor table width) writeNested base offset bytes
        (members.zip fields) =
      .ok (writeLeaves floats width
        (membersLeaves (scalarMeasure width) base offset
          (members.map (memberStorage (storages table))))
        (contents.flatMap scalarsOf) bytes) := by
  induction members generalizing fields contents offset bytes with
  | nil => rfl
  | cons member members ih =>
    cases shown with
    | nil => exact fills.elim
    | @cons field content fields contents first rest =>
      have grows := le_membersEnd (scalarMeasure width)
        (members.map (memberStorage (storages table)))
        (alignUp (extent width (memberStorage (storages table) member)).align offset +
          (extent width (memberStorage (storages table) member)).size)
      rw [List.map_cons, membersEnd] at inside
      change base + membersEnd _
        (alignUp (extent width _).align offset + (extent width _).size) _ ≤ _ at inside
      have startAligned : (extent width (memberStorage (storages table) member)).align ∣
          base + alignUp (extent width (memberStorage (storages table) member)).align offset :=
        Nat.dvd_add (aligned member List.mem_cons_self) (dvd_alignUp _ _)
      have startInside : base +
          alignUp (extent width (memberStorage (storages table) member)).align offset +
          (extent width (memberStorage (storages table) member)).size ≤ bytes.length := by
        omega
      have sized : (writeLeaves floats width
          (leaves (scalarMeasure width)
            (base + alignUp (extent width (memberStorage (storages table) member)).align offset)
            (memberStorage (storages table) member)) (scalarsOf content) bytes).length =
          bytes.length :=
        writeLeaves_length (leaves_writable startAligned fills.1 startInside)
      have lengths := (leaves_fit (memberStorage (storages table) member)
        (base + alignUp (extent width (memberStorage (storages table) member)).align offset)
        fills.1).length_eq
      rw [List.zip_cons_cons, writeMembers_cons (known member List.mem_cons_self) (by omega),
        writeMember_eq (nested member List.mem_cons_self) first fills.1 startAligned
          startInside small]
      change Heap.writeMembers _ _ _ _ _ _ _ _ = _
      rw [ih _ _ rest fills.2]
      · rw [List.map_cons, membersLeaves, List.flatMap_cons]
        exact congrArg Except.ok (writeLeaves_append lengths bytes).symm
      · intro later laterIn
        exact aligned later (List.mem_cons_of_mem member laterIn)
      · rw [sized]
        exact inside
      · rw [sized]
        exact small
      · intro later laterIn
        exact known later (List.mem_cons_of_mem member laterIn)
      · intro later laterIn
        exact nested later (List.mem_cons_of_mem member laterIn)

theorem fillAll_length {members : List (Storage ForeignType)}
    (fills : FillAll floats width members contents) : contents.length = members.length := by
  induction members generalizing contents with
  | nil =>
    cases contents with
    | nil => rfl
    | cons content contents => exact fills.elim
  | cons member members ih =>
    cases contents with
    | nil => exact fills.elim
    | cons content contents =>
      rw [List.length_cons, List.length_cons, ih fills.2]

/-- References go down, so the depth only has to exceed the row's index. -/
theorem writeAggregate_eq (floats : Floats) (heap : Heap) (table : ForeignAggregates)
    (width : ForeignPointerWidth) (depth : Nat) (id : UInt32) (deep : id.toNat < depth)
    (inside : id.toNat < table.entries.length) :
    WritesNested floats heap table width
      (Heap.writeAggregate floats heap (walkFor table width) depth) id := by
  induction depth generalizing id with
  | zero => omega
  | succ depth ih =>
    intro value content base bytes shown fills aligned room small
    have ⟨row, rowAt⟩ : ∃ row, table.get id = some row :=
      ⟨_, List.getElem?_eq_getElem inside⟩
    have covers := membersEnd_le_size (scalarMeasure width)
      (row.members.map (memberStorage (storages table)))
    rw [rowObject, storageAt rowAt] at fills aligned room ⊢
    rcases fills with ⟨contents, rfl, fillAll⟩
    rcases shows_struct shown with ⟨handle, rfl, fields⟩
    have fieldCount : (heap.fields handle).length = row.members.length := by
      rw [fields.length_eq, fillAll_length fillAll, List.length_map]
    have nested : ∀ member ∈ row.members, ∀ referenced ∈ member.referenced,
        WritesNested floats heap table width
          (Heap.writeAggregate floats heap (walkFor table width) depth) referenced := by
      intro member memberIn referenced referencedIn
      have below := refersBelow_of_ordered table rowAt member memberIn referenced referencedIn
      apply ih referenced
      · omega
      · omega
    have memberAligned : ∀ member ∈ row.members,
        (extent width (memberStorage (storages table) member)).align ∣ base := by
      intro member memberIn
      exact dvd_trans (dvd_membersAlign (scalarMeasure width) (List.mem_map_of_mem memberIn))
        aligned
    change base + (extentOf (scalarMeasure width) (.record _)).size ≤ _ at room
    rw [Heap.writeAggregate]
    change (shape (table.get id) >>= _) = _
    rw [rowAt]
    change (if (heap.fields handle).length ≠ row.members.length then _ else _) = _
    rw [if_neg (by simpa using fieldCount)]
    rw [writeMembers_eq (refersBelow_storages rowAt) nested fields fillAll 0 bytes memberAligned
      (by omega) small, rowStorage, leaves, scalarsOf, scalarsOf_chain]

end Aggregates

end KiraVm
