import KiraVm.AggregateReading

/-!
# Structs across the foreign seam

A struct that fills its aggregate is written as the aggregate's size in bytes, and those bytes
read back as a struct with the same contents.  Writing leaves the heap; reading that fails
leaves it exactly when no struct or array was built before the scalar without a value.
-/

namespace KiraVm

namespace Aggregates

open StorageLayout

/-! ## Layouts -/

variable {table : ForeignAggregates} {id : UInt32} {width : ForeignPointerWidth}

theorem layouts_some_iff {layouts : List ForeignLayout} :
    table.layouts width = some layouts ↔
      (∀ row ∈ storages table, Fits width row) ∧
        (storages table).map (layoutFor width) = layouts := by
  rw [← toOption_layouts, layouts_eq, ← fittingLayouts_ok_iff]
  cases fittingLayouts width (storages table) with
  | ok rows => simp [Except.toOption]
  | error error => simp [Except.toOption]

theorem walk_new {layouts : List ForeignLayout} (laidOut : table.layouts width = some layouts) :
    Walk.new table width = some (walkFor table width) := by
  rw [Walk.new, laidOut, walkFor, (layouts_some_iff.mp laidOut).2]
  rfl

/-- A row of a table that can be laid out. -/
structure HasLayout (table : ForeignAggregates) (id : UInt32) (width : ForeignPointerWidth)
    (layout : ForeignLayout) : Prop where
  fit : ∀ row ∈ storages table, Fits width row
  known : id.toNat < table.entries.length
  layout_eq : layoutFor width (rowObject table id) = layout

theorem hasLayout_iff {layout : ForeignLayout} :
    (table.layouts width).bind (fun layouts => layouts[id.toNat]?) = some layout ↔
      HasLayout table id width layout := by
  constructor
  · intro found
    rcases Option.bind_eq_some_iff.mp found with ⟨layouts, laidOut, layoutAt⟩
    rcases layouts_some_iff.mp laidOut with ⟨fit, rfl⟩
    rcases List.getElem?_eq_some_iff.mp layoutAt with ⟨inside, layout_eq⟩
    have known : id.toNat < (storages table).length := by simpa using inside
    constructor
    · exact fit
    · rwa [storages_length] at known
    · rw [rowObject, List.getElem?_eq_getElem known, ← layout_eq, List.getElem_map]
      rfl
  · intro laidOut
    have known : id.toNat < (storages table).length := by
      rw [storages_length]
      exact laidOut.known
    rw [layouts_some_iff.mpr ⟨laidOut.fit, rfl⟩, Option.bind_some, List.getElem?_map,
      ← laidOut.layout_eq, rowObject, List.getElem?_eq_getElem known]
    rfl

theorem walkLayout_eq :
    ((Walk.new table width).bind fun walk => (walk.layout id).map fun layout => (walk, layout)) =
      ((table.layouts width).bind fun layouts => layouts[id.toNat]?).map fun layout =>
        (walkFor table width, layout) := by
  cases laidOut : table.layouts width with
  | none => rw [Walk.new, laidOut]; rfl
  | some layouts =>
    rw [walk_new laidOut, Option.bind_some, Option.bind_some, Walk.layout, walkFor,
      (layouts_some_iff.mp laidOut).2]

variable {floats : Floats} {heap : Heap} {layout : ForeignLayout}

theorem HasLayout.size_eq (hasLayout : HasLayout table id width layout) :
    (extent width (rowObject table id)).size = layout.size := by
  rw [← hasLayout.layout_eq]
  rfl

theorem HasLayout.size_lt (hasLayout : HasLayout table id width layout) :
    layout.size < 2 ^ 32 := by
  have small : Fits width (rowObject table id) := by
    apply row_fits hasLayout.fit
    rw [storages_length]
    exact hasLayout.known
  rw [← hasLayout.size_eq]
  exact small

/-! ## Writing -/

variable {content : Content}

theorem aggregateBytes_eq (hasLayout : HasLayout table id width layout) {value : Value}
    (shown : Shows heap value content) (fills : Fills floats width (rowObject table id) content) :
    heap.aggregateBytes floats table id value width =
      .ok (writeLeaves floats width (leaves (scalarMeasure width) 0 (rowObject table id))
        (scalarsOf content) (List.replicate layout.size 0)) := by
  have zeros : (List.replicate layout.size (0 : UInt8)).length = layout.size :=
    List.length_replicate
  rw [Heap.aggregateBytes]
  have starts := @walkLayout_eq table id width
  rw [hasLayout_iff.mpr hasLayout] at starts
  rcases Option.bind_eq_some_iff.mp starts with ⟨walk, isWalk, found⟩
  rcases Option.map_eq_some_iff.mp found with ⟨row, rowLayout, same⟩
  cases same
  rw [isWalk]
  change (shape ((walkFor table width).layout id) >>= _) = _
  rw [rowLayout]
  change Heap.writeAggregate _ _ _ _ _ _ _ _ = _
  apply writeAggregate_eq
  · exact Nat.lt_succ_of_lt hasLayout.known
  · exact hasLayout.known
  · exact shown
  · exact fills
  · exact Nat.dvd_zero _
  · rw [zeros, Nat.zero_add, hasLayout.size_eq]
  · rw [zeros]
    exact hasLayout.size_lt

/-- The bytes of a struct: the scalars at the leaves of its aggregate, and zeros between. -/
structure Marshals (floats : Floats) (table : ForeignAggregates) (id : UInt32)
    (width : ForeignPointerWidth) (layout : ForeignLayout) (content : Content)
    (bytes : List UInt8) : Prop where
  sized : bytes.length = layout.size
  placed : ∃ leaves : List (Leaf ForeignType),
    leavesOf table id width = .ok (leaves.map ForeignLeaf.of) ∧
      List.Forall₂ (Written floats width bytes) leaves (scalarsOf content) ∧
      ∀ place < bytes.length, (∀ leaf ∈ leaves, ¬ Covers width leaf place) →
        bytes[place]? = some 0

theorem leaves_room (hasLayout : HasLayout table id width layout)
    (fills : Fills floats width (rowObject table id) content) :
    List.Forall₂ (Writable floats width (List.replicate layout.size (0 : UInt8)).length)
      (leaves (scalarMeasure width) 0 (rowObject table id)) (scalarsOf content) := by
  apply leaves_writable (Nat.dvd_zero _) fills
  rw [List.length_replicate, Nat.zero_add, hasLayout.size_eq]

theorem leaves_written (hasLayout : HasLayout table id width layout)
    (fills : Fills floats width (rowObject table id) content) :
    List.Forall₂ (Written floats width
        (writeLeaves floats width (leaves (scalarMeasure width) 0 (rowObject table id))
          (scalarsOf content) (List.replicate layout.size 0)))
      (leaves (scalarMeasure width) 0 (rowObject table id)) (scalarsOf content) :=
  writeLeaves_written (leaves_room hasLayout fills)
    (leaves_pairwise (scalarMeasure width) (rowObject table id) 0 (Nat.dvd_zero _))

theorem marshals_writeLeaves (hasLayout : HasLayout table id width layout)
    (fills : Fills floats width (rowObject table id) content) :
    Marshals floats table id width layout content
      (writeLeaves floats width (leaves (scalarMeasure width) 0 (rowObject table id))
        (scalarsOf content) (List.replicate layout.size 0)) := by
  have writable := leaves_room hasLayout fills
  have length := writeLeaves_length writable
  rw [List.length_replicate] at length
  constructor
  · exact length
  · use leaves (scalarMeasure width) 0 (rowObject table id)
    constructor
    · exact leavesOf_eq hasLayout.fit hasLayout.known
    constructor
    · exact leaves_written hasLayout fills
    · intro place inside outside
      rw [length] at inside
      rw [writeLeaves_outside writable outside, List.getElem?_replicate, if_pos inside]

/-! ## Reading -/

theorem absorbAggregate_reading (hasLayout : HasLayout table id width layout) (floats : Floats)
    (heap : Heap) {bytes : List UInt8} (sized : bytes.length = layout.size) :
    Reading floats width bytes (rowObject table id) 0 heap
      (heap.absorbAggregate floats table id bytes width) := by
  rw [Heap.absorbAggregate, walkLayout_eq, hasLayout_iff.mpr hasLayout]
  simp only [Option.map_some]
  rw [if_pos sized]
  apply readAggregate_reading
  · rw [sized]
    exact hasLayout.size_lt
  · exact hasLayout.fit
  · exact Nat.lt_succ_of_lt hasLayout.known
  · exact hasLayout.known
  · rw [sized, Nat.zero_add, hasLayout.size_eq]

theorem absorbAggregate_refuses (floats : Floats) (heap : Heap) {bytes : List UInt8}
    (other : ∀ layout, HasLayout table id width layout → bytes.length ≠ layout.size) :
    heap.absorbAggregate floats table id bytes width = (none, heap) := by
  rw [Heap.absorbAggregate, walkLayout_eq]
  cases found : (table.layouts width).bind fun layouts => layouts[id.toNat]? with
  | none => rfl
  | some layout =>
    simp only [Option.map_some]
    rw [if_neg (other layout (hasLayout_iff.mp found))]

/-! ## The contract -/

/-- Every struct that fills the aggregate is written, and its bytes read back as a struct with
the same contents in any heap, beside what the heap showed. -/
def RoundTrips (table : ForeignAggregates) (id : UInt32) (width : ForeignPointerWidth) : Prop :=
  ∀ layout, (table.layouts width).bind (fun layouts => layouts[id.toNat]?) = some layout →
    ∀ (floats : Floats) (heap : Heap) (value : Value) (content : Content),
      Shows heap value content → Fills floats width (rowObject table id) content →
        ∃ bytes, heap.aggregateBytes floats table id value width = .ok bytes ∧
          Marshals floats table id width layout content bytes ∧
          ∀ into : Heap, into.Sound → ∃ back new,
            into.absorbAggregate floats table id bytes width = (some back, new) ∧
              new.Reads back content ∧
              ∀ other shown, Shows into other shown → Shows new other shown

/-- Reading that fails leaves as many live slots as before.  Writing has no heap to change. -/
def KeepsSlots (table : ForeignAggregates) (id : UInt32) (width : ForeignPointerWidth) : Prop :=
  ∀ (floats : Floats) (heap : Heap) (bytes : List UInt8),
    (heap.absorbAggregate floats table id bytes width).1 = none →
      (heap.absorbAggregate floats table id bytes width).2.current = heap.current

/-- The row has a layout, and its first scalar without a value comes after a struct or an
array that is whole. -/
def Strands (table : ForeignAggregates) (id : UInt32) (width : ForeignPointerWidth) : Prop :=
  ((table.layouts width).bind fun layouts => layouts[id.toNat]?).isSome = true ∧
    strands (rowObject table id) = true

mutual

theorem complete_of_fills {object : Storage ForeignType} {content : Content}
    (fills : Fills floats width object content) : complete object = true := by
  cases object with
  | scalar ty =>
    cases ty with
    | void => cases content <;> exact fills.elim
    | _ => rfl
  | array element count =>
    rcases fills with ⟨contents, rfl, full, each⟩
    cases contents with
    | nil =>
      have none : count = 0 := full.symm
      simp [complete, none]
    | cons first rest =>
      have whole := complete_of_fills (each first List.mem_cons_self)
      simp [complete, whole]
  | record members =>
    rcases fills with ⟨contents, rfl, fillAll⟩
    exact allComplete_of_fills fillAll

theorem allComplete_of_fills {members : List (Storage ForeignType)} {contents : List Content}
    (fills : FillAll floats width members contents) : allComplete members = true := by
  cases members with
  | nil => rfl
  | cons member members =>
    cases contents with
    | nil => exact fills.elim
    | cons content contents =>
      rw [allComplete, complete_of_fills fills.1, allComplete_of_fills fills.2]
      rfl

end

theorem shows_keeps {new : Heap} {value : Value} (shown : Shows heap value content)
    (keeps : Heap.Keeps (fun _ => False) heap new) : Shows new value content := by
  rcases shown with ⟨depth, owned, same⟩
  have ⟨newOwned, newSame, _⟩ := keeps.owned owned fun _ lost => lost.elim
  use depth, newOwned
  rw [newSame, same]

/-- The two walks agree on every struct that fills its aggregate. -/
theorem roundTrips (table : ForeignAggregates) (id : UInt32) (width : ForeignPointerWidth) :
    RoundTrips table id width := by
  intro layout found floats heap value content shown fills
  have hasLayout := hasLayout_iff.mp found
  have marshals := marshals_writeLeaves hasLayout fills
  refine ⟨_, aggregateBytes_eq hasLayout shown fills, marshals, ?_⟩
  intro into sound
  have reading := absorbAggregate_reading hasLayout floats into marshals.sized
  generalize into.absorbAggregate floats table id _ width = result at reading
  cases reading with
  | @built back new whole owned grown alone reads =>
    have ⟨builds, isBack⟩ := reads sound
    rw [contentAt_written _ 0 fills (leaves_written hasLayout fills)] at isBack
    use back, new, rfl, isBack
    intro other content shows
    exact shows_keeps shows builds.keeps
  | refused partly => rw [complete_of_fills fills] at partly; cases partly
  | stranded partly => rw [complete_of_fills fills] at partly; cases partly

/-- Reading fails without a change, unless it strands what it built. -/
theorem keepsSlots_of_not_strands (kept : ¬ Strands table id width) :
    KeepsSlots table id width := by
  intro floats heap bytes failed
  by_cases found : ∃ layout, HasLayout table id width layout ∧ bytes.length = layout.size
  · rcases found with ⟨layout, hasLayout, sized⟩
    have reading := absorbAggregate_reading hasLayout floats heap sized
    generalize heap.absorbAggregate floats table id bytes width = result at failed reading ⊢
    cases reading with
    | built => cases failed
    | refused => rfl
    | stranded partly lost grown =>
      have strands : Strands table id width := by
        constructor
        · rw [hasLayout_iff.mpr hasLayout]
          rfl
        · exact lost
      exact absurd strands kept
  · have other : ∀ layout, HasLayout table id width layout → bytes.length ≠ layout.size := by
      intro layout hasLayout sized
      exact found ⟨layout, hasLayout, sized⟩
    rw [absorbAggregate_refuses floats heap other]

mutual

theorem complete_eq_false_of_strands {object : Storage ForeignType}
    (lost : strands object = true) : complete object = false := by
  cases object with
  | scalar ty => cases lost
  | array element count =>
    rw [strands, Bool.and_eq_true, decide_eq_true_eq] at lost
    simp [complete, lost.1, complete_eq_false_of_strands lost.2]
  | record members => exact allComplete_eq_false_of_strands lost

theorem allComplete_eq_false_of_strands {built : Nat} {members : List (Storage ForeignType)}
    (lost : membersStrand built members = true) : allComplete members = false := by
  cases members with
  | nil => cases lost
  | cons member members =>
    rw [membersStrand] at lost
    split at lost
    · rw [allComplete, allComplete_eq_false_of_strands lost, Bool.and_false]
    · rename_i partly
      rw [allComplete, Bool.eq_false_of_not_eq_true partly, Bool.false_and]

end

/-- Zeros in an empty heap lose a slot. -/
theorem not_keepsSlots_of_strands (strands : Strands table id width) :
    ¬ KeepsSlots table id width := by
  intro keeps
  rcases Option.isSome_iff_exists.mp strands.1 with ⟨layout, found⟩
  have hasLayout := hasLayout_iff.mp found
  have sized : (List.replicate layout.size (0 : UInt8)).length = layout.size :=
    List.length_replicate
  have reading := absorbAggregate_reading hasLayout World.bare.floats (Heap.new fun _ => 0) sized
  have same := keeps World.bare.floats (Heap.new fun _ => 0) (List.replicate layout.size 0)
  generalize (Heap.new fun _ => 0).absorbAggregate _ table id _ width = result at same reading
  cases reading with
  | built whole =>
    rw [complete_eq_false_of_strands strands.2] at whole
    cases whole
  | refused partly kept =>
    rw [strands.2] at kept
    cases kept
  | @stranded new partly lost grown =>
    have live : new.allocated - new.freed = 0 := same rfl
    have taken := grown.allocated
    have freed := grown.freed
    change 0 + 1 ≤ new.allocated at taken
    change new.freed = 0 at freed
    omega

/-- A struct crosses the foreign seam and back, and a read that fails leaves no object, exactly
when the row strands nothing. -/
theorem marshals_iff (table : ForeignAggregates) (id : UInt32) (width : ForeignPointerWidth) :
    RoundTrips table id width ∧ KeepsSlots table id width ↔ ¬ Strands table id width := by
  constructor
  · intro both strands
    exact not_keepsSlots_of_strands strands both.2
  · intro kept
    exact ⟨roundTrips table id width, keepsSlots_of_not_strands kept⟩

/-- A struct of a struct and a scalar without a value. -/
def strandingTable : ForeignAggregates where
  entries := [⟨[.scalar .i32]⟩, ⟨[.aggregate 0, .scalar .void]⟩]
  ordered := by
    intro index row rowAt member memberIn referenced referencedIn
    match index with
    | 0 =>
      cases rowAt
      rw [List.mem_singleton.mp memberIn] at referencedIn
      cases referencedIn
    | 1 =>
      cases rowAt
      rcases List.mem_pair.mp memberIn with rfl | rfl
      · cases referencedIn
        decide
      · cases referencedIn

/-- Four zero bytes leave the inner struct in a heap that was empty. -/
theorem not_keepsSlots_strandingTable : ¬ KeepsSlots strandingTable 1 .bits64 := by
  intro keeps
  have same := keeps World.bare.floats (Heap.new fun _ => 0) [0, 0, 0, 0] rfl
  cases same

end Aggregates

end KiraVm
