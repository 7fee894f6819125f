import KiraVm.AggregateScalars

/-!
# The bytes of an object in C storage

The scalars of a value, in order, are written over zeros at the leaves of its object.  The
leaves do not overlap, so each reads back as what was written there.
-/

namespace KiraVm

namespace Aggregates

open StorageLayout

def scalarsOf : Content → List Content
  | .struct fields => scalarsOf fields
  | .array elements => scalarsOf elements
  | .also first rest => scalarsOf first ++ scalarsOf rest
  | .done => []
  | content => [content]

variable (floats : Floats) (width : ForeignPointerWidth)

mutual

def Fills : Storage ForeignType → Content → Prop
  | .scalar ty, content => ScalarFits floats width ty content
  | .array element count, content =>
    ∃ contents, content = .array (.chain contents) ∧ contents.length = count ∧
      ∀ inner ∈ contents, Fills element inner
  | .record members, content =>
    ∃ contents, content = .struct (.chain contents) ∧ FillAll members contents

def FillAll : List (Storage ForeignType) → List Content → Prop
  | [], [] => True
  | member :: members, content :: contents => Fills member content ∧ FillAll members contents
  | _, _ => False

end

def writeLeaves : List (Leaf ForeignType) → List Content → List UInt8 → List UInt8
  | leaf :: leaves, content :: contents, bytes =>
    writeLeaves leaves contents
      (Heap.patch bytes ((encodeContent floats width leaf.tag content).getD []) leaf.offset)
  | _, _, bytes => bytes

def Written (bytes : List UInt8) (leaf : Leaf ForeignType) (content : Content) : Prop :=
  Heap.sliceInside bytes leaf.offset (scalarSize width leaf.tag) =
    encodeContent floats width leaf.tag content

def Covers (leaf : Leaf ForeignType) (place : Nat) : Prop :=
  leaf.offset ≤ place ∧ place < leaf.offset + scalarSize width leaf.tag

variable {floats width}

/-! ## Patches -/

variable {word : List UInt8} {start : Nat} {contents : List Content} {content : Content}

theorem patch_length {bytes : List UInt8} (inside : start + word.length ≤ bytes.length) :
    (Heap.patch bytes word start).length = bytes.length := by
  simp only [Heap.patch, List.length_append, List.length_take, List.length_drop]
  omega

theorem patch_getElem? {bytes : List UInt8} (inside : start + word.length ≤ bytes.length)
    (place : Nat) :
    (Heap.patch bytes word start)[place]? =
      if start ≤ place ∧ place < start + word.length then word[place - start]?
      else bytes[place]? := by
  have front : (bytes.take start).length = start := by
    rw [List.length_take]
    omega
  unfold Heap.patch
  split
  · rename_i within
    rw [List.append_assoc, List.getElem?_append_right (by omega), front,
      List.getElem?_append_left (by omega)]
  · rename_i outside
    by_cases before : place < start
    · rw [List.append_assoc, List.getElem?_append_left (by omega), List.getElem?_take,
        if_pos before]
    · have fronts : (bytes.take start ++ word).length = start + word.length := by
        rw [List.length_append, front]
      rw [List.getElem?_append_right (by omega), fronts, List.getElem?_drop]
      congr 1
      omega

theorem slice_eq {bytes : List UInt8} (inside : start + word.length ≤ bytes.length)
    (same : ∀ place, start ≤ place → place < start + word.length →
      bytes[place]? = word[place - start]?) :
    Heap.sliceInside bytes start word.length = some word := by
  rw [Heap.sliceInside, if_pos inside]
  congr 1
  apply List.ext_getElem?
  intro index
  rw [List.getElem?_take]
  split
  · rename_i within
    rw [List.getElem?_drop, same _ (by omega) (by omega)]
    congr 1
    omega
  · rename_i outside
    rw [List.getElem?_eq_none (by omega)]

/-! ## Leaves one after the other -/

/-- Leaves and scalars in range of them, all inside so many bytes. -/
structure Writable (floats : Floats) (width : ForeignPointerWidth) (room : Nat)
    (leaf : Leaf ForeignType) (content : Content) : Prop where
  fits : ScalarFits floats width leaf.tag content
  inside : leaf.offset + scalarSize width leaf.tag ≤ room

theorem writeLeaves_append {leaves others : List (Leaf ForeignType)}
    {rest : List Content} (pairs : leaves.length = contents.length)
    (bytes : List UInt8) :
    writeLeaves floats width (leaves ++ others) (contents ++ rest) bytes =
      writeLeaves floats width others rest (writeLeaves floats width leaves contents bytes) := by
  induction leaves generalizing contents bytes with
  | nil =>
    have empty : contents = [] := List.length_eq_zero_iff.mp pairs.symm
    rw [empty]
    rfl
  | cons leaf leaves ih =>
    cases contents with
    | nil => cases pairs
    | cons content contents =>
      exact ih (Nat.succ.inj pairs) _

theorem writeLeaf_coded {leaf : Leaf ForeignType} {bytes : List UInt8}
    (writable : Writable floats width bytes.length leaf content) :
    ∃ word, Coded floats width leaf.tag content word ∧
      (∀ leaves contents, writeLeaves floats width (leaf :: leaves) (content :: contents) bytes =
        writeLeaves floats width leaves contents (Heap.patch bytes word leaf.offset)) ∧
      leaf.offset + word.length ≤ bytes.length := by
  rcases coded_of_fits writable.fits with ⟨word, coded⟩
  use word, coded
  constructor
  · intro leaves contents
    change writeLeaves floats width leaves contents
      (Heap.patch bytes ((encodeContent floats width leaf.tag content).getD []) leaf.offset) = _
    rw [coded.encoded, Option.getD_some]
  · rw [coded.sized]
    exact writable.inside

theorem writeLeaves_length {leaves : List (Leaf ForeignType)} {bytes : List UInt8}
    (writable : List.Forall₂ (Writable floats width bytes.length) leaves contents) :
    (writeLeaves floats width leaves contents bytes).length = bytes.length := by
  generalize room : bytes.length = size at writable
  induction writable generalizing bytes with
  | nil => exact room
  | cons first _ ih =>
    rw [← room] at first
    rcases writeLeaf_coded first with ⟨word, coded, wrote, inside⟩
    rw [wrote]
    apply ih
    rw [patch_length inside, room]

theorem writeLeaves_outside {leaves : List (Leaf ForeignType)} {bytes : List UInt8}
    (writable : List.Forall₂ (Writable floats width bytes.length) leaves contents) {place : Nat}
    (outside : ∀ leaf ∈ leaves, ¬ Covers width leaf place) :
    (writeLeaves floats width leaves contents bytes)[place]? = bytes[place]? := by
  generalize room : bytes.length = size at writable
  induction writable generalizing bytes with
  | nil => rfl
  | @cons leaf content leaves contents first _ ih =>
    rw [← room] at first
    rcases writeLeaf_coded first with ⟨word, coded, wrote, inside⟩
    have apart := outside leaf List.mem_cons_self
    unfold Covers at apart
    rw [wrote, ih]
    · rw [patch_getElem? inside, if_neg]
      rw [coded.sized]
      exact apart
    · intro other otherIn
      exact outside other (List.mem_cons_of_mem leaf otherIn)
    · rw [patch_length inside, room]

theorem writeLeaves_written {leaves : List (Leaf ForeignType)} {bytes : List UInt8}
    (writable : List.Forall₂ (Writable floats width bytes.length) leaves contents)
    (ordered : leaves.Pairwise (Leaf.Before (scalarMeasure width))) :
    List.Forall₂ (Written floats width (writeLeaves floats width leaves contents bytes))
      leaves contents := by
  generalize room : bytes.length = size at writable
  induction writable generalizing bytes with
  | nil => exact List.Forall₂.nil
  | @cons leaf content leaves contents first rest ih =>
    rw [← room] at first
    rcases writeLeaf_coded first with ⟨word, coded, wrote, inside⟩
    have after := List.pairwise_cons.mp ordered
    have patched : (Heap.patch bytes word leaf.offset).length = size := by
      rw [patch_length inside, room]
    rw [wrote]
    apply List.Forall₂.cons
    · have kept : ∀ place, leaf.offset ≤ place → place < leaf.offset + word.length →
          (writeLeaves floats width leaves contents
            (Heap.patch bytes word leaf.offset))[place]? = word[place - leaf.offset]? := by
        intro place low high
        rw [writeLeaves_outside (by rw [patched]; exact rest), patch_getElem? inside,
          if_pos ⟨low, high⟩]
        intro other otherIn covers
        have before := after.1 other otherIn
        change leaf.offset + scalarSize width leaf.tag ≤ other.offset at before
        have start := covers.1
        rw [coded.sized] at high
        omega
      unfold Written
      rw [coded.encoded, ← coded.sized]
      apply slice_eq _ kept
      rw [writeLeaves_length (by rw [patched]; exact rest), patch_length inside]
      exact inside
    · exact ih after.2 patched

/-! ## Leaves of an object -/

theorem chain_injective {others : List Content}
    (same : Content.chain contents = Content.chain others) : contents = others := by
  induction contents generalizing others with
  | nil =>
    cases others with
    | nil => rfl
    | cons other others => cases same
  | cons content contents ih =>
    cases others with
    | nil => cases same
    | cons other others =>
      injection same with first rest
      rw [first, ih rest]

theorem scalarsOf_chain (contents : List Content) :
    scalarsOf (.chain contents) = contents.flatMap scalarsOf := by
  induction contents with
  | nil => rfl
  | cons content contents ih =>
    rw [Content.chain_cons, List.flatMap_cons, ← ih]
    rfl

theorem scalarsOf_array (contents : List Content) :
    scalarsOf (.array (.chain contents)) = contents.flatMap scalarsOf :=
  scalarsOf_chain contents

theorem scalarsOf_struct (contents : List Content) :
    scalarsOf (.struct (.chain contents)) = contents.flatMap scalarsOf :=
  scalarsOf_chain contents

theorem scalarsOf_scalar {ty : ForeignType} (fits : ScalarFits floats width ty content) :
    scalarsOf content = [content] := by
  cases content with
  | int value => rfl
  | float bits => rfl
  | bool value => rfl
  | word word => rfl
  | _ => cases ty <;> exact fits.elim

theorem elements_related {related : Leaf ForeignType → Content → Prop}
    {place : Nat → List (Leaf ForeignType)} (start : Nat)
    (each : ∀ step inner, contents[step]? = some inner →
      List.Forall₂ related (place (start + step)) (scalarsOf inner)) :
    List.Forall₂ related ((List.range' start contents.length).flatMap place)
      (contents.flatMap scalarsOf) := by
  induction contents generalizing start with
  | nil => exact List.Forall₂.nil
  | cons content contents ih =>
    rw [List.length_cons, List.range'_succ, List.flatMap_cons, List.flatMap_cons]
    apply List.rel_append
    · exact each 0 content rfl
    · apply ih (start + 1)
      intro step inner innerAt
      have later := each (step + 1) inner innerAt
      rwa [Nat.add_comm step, ← Nat.add_assoc] at later

mutual

theorem leaves_fit (object : Storage ForeignType) (base : Nat) {content : Content}
    (fills : Fills floats width object content) :
    List.Forall₂ (fun leaf scalar => ScalarFits floats width leaf.tag scalar)
      (leaves (scalarMeasure width) base object) (scalarsOf content) := by
  cases object with
  | scalar ty =>
    rw [scalarsOf_scalar fills, leaves]
    exact List.Forall₂.cons fills List.Forall₂.nil
  | array element count =>
    rcases fills with ⟨contents, rfl, rfl, each⟩
    rw [scalarsOf_array, leaves, List.range_eq_range']
    apply elements_related 0
    intro step inner innerAt
    exact leaves_fit element _ (each inner (List.mem_of_getElem? innerAt))
  | record members =>
    rcases fills with ⟨contents, rfl, fillAll⟩
    rw [scalarsOf_struct, leaves]
    exact membersLeaves_fit members base 0 fillAll

theorem membersLeaves_fit (members : List (Storage ForeignType)) (base fill : Nat)
    {contents : List Content} (fillAll : FillAll floats width members contents) :
    List.Forall₂ (fun leaf scalar => ScalarFits floats width leaf.tag scalar)
      (membersLeaves (scalarMeasure width) base fill members) (contents.flatMap scalarsOf) := by
  cases members with
  | nil =>
    cases contents with
    | nil => exact List.Forall₂.nil
    | cons content contents => exact fillAll.elim
  | cons member members =>
    cases contents with
    | nil => exact fillAll.elim
    | cons content contents =>
      rw [membersLeaves, List.flatMap_cons]
      apply List.rel_append
      · exact leaves_fit member _ fillAll.1
      · exact membersLeaves_fit members base _ fillAll.2

end

theorem leaves_writable {object : Storage ForeignType} {base room : Nat}
    (aligned : (extent width object).align ∣ base) (fills : Fills floats width object content)
    (inside : base + (extent width object).size ≤ room) :
    List.Forall₂ (Writable floats width room) (leaves (scalarMeasure width) base object)
      (scalarsOf content) := by
  have each := leaves_inside (scalarMeasure width) object base aligned
  have fit := leaves_fit object base fills
  have bounded : ∀ leaf ∈ leaves (scalarMeasure width) base object,
      leaf.offset + scalarSize width leaf.tag ≤ room :=
    fun leaf leafIn => le_trans (each leaf leafIn).le_high inside
  generalize leaves (scalarMeasure width) base object = all at fit bounded ⊢
  generalize scalarsOf content = scalars at fit ⊢
  induction fit with
  | nil => exact List.Forall₂.nil
  | cons first _ ih =>
    apply List.Forall₂.cons
    · exact ⟨first, bounded _ List.mem_cons_self⟩
    · exact ih fun leaf leafIn => bounded leaf (List.mem_cons_of_mem _ leafIn)

/-! ## What bytes read back as -/

variable (floats width) in
def scalarAt (bytes : List UInt8) (base : Nat) (ty : ForeignType) : Option Value :=
  (Heap.sliceInside bytes base (scalarSize width ty)).bind (decodeScalar floats width ty)

variable (floats width) in
mutual

/-- The contents of an object whose bytes start at a place. -/
def contentAt (bytes : List UInt8) (base : Nat) : Storage ForeignType → Content
  | .scalar ty => ((scalarAt floats width bytes base ty).map scalarContent).getD .void
  | .array element count =>
    .array (.chain ((List.range count).map fun step =>
      contentAt bytes (base + (extent width element).size * step) element))
  | .record members => .struct (.chain (contentsAt bytes base 0 members))

def contentsAt (bytes : List UInt8) (base fill : Nat) : List (Storage ForeignType) → List Content
  | [] => []
  | member :: members =>
    let offset := alignUp (extent width member).align fill
    contentAt bytes (base + offset) member ::
      contentsAt bytes base (offset + (extent width member).size) members

end

theorem forall₂_split {α β : Type} {related : α → β → Prop} {items others : List α}
    {partners rest : List β} (pairs : List.Forall₂ related (items ++ others) (partners ++ rest))
    (same : items.length = partners.length) :
    List.Forall₂ related items partners ∧ List.Forall₂ related others rest := by
  have front := List.forall₂_take_append _ partners rest pairs
  have back := List.forall₂_drop_append _ partners rest pairs
  rw [← same, List.take_left] at front
  rw [← same, List.drop_left] at back
  exact ⟨front, back⟩

variable {bytes : List UInt8}

theorem elements_read {element : Storage ForeignType} {place : Nat → Nat}
    (each : ∀ inner ∈ contents, ∀ base,
      List.Forall₂ (Written floats width bytes) (leaves (scalarMeasure width) base element)
        (scalarsOf inner) → contentAt floats width bytes base element = inner)
    (lengths : ∀ inner ∈ contents, ∀ base,
      (leaves (scalarMeasure width) base element).length = (scalarsOf inner).length) (start : Nat)
    (written : List.Forall₂ (Written floats width bytes)
      ((List.range' start contents.length).flatMap fun step =>
        leaves (scalarMeasure width) (place step) element) (contents.flatMap scalarsOf)) :
    ((List.range' start contents.length).map fun step =>
      contentAt floats width bytes (place step) element) = contents := by
  induction contents generalizing start with
  | nil => rfl
  | cons content contents ih =>
    rw [List.length_cons, List.range'_succ, List.flatMap_cons, List.flatMap_cons] at written
    rcases forall₂_split written (lengths content List.mem_cons_self _) with ⟨first, rest⟩
    rw [List.length_cons, List.range'_succ, List.map_cons,
      each content List.mem_cons_self _ first]
    congr 1
    apply ih
    · intro inner innerIn
      exact each inner (List.mem_cons_of_mem content innerIn)
    · intro inner innerIn
      exact lengths inner (List.mem_cons_of_mem content innerIn)
    · exact rest

mutual

theorem contentAt_written (object : Storage ForeignType) (base : Nat) {content : Content}
    (fills : Fills floats width object content)
    (written : List.Forall₂ (Written floats width bytes)
      (leaves (scalarMeasure width) base object) (scalarsOf content)) :
    contentAt floats width bytes base object = content := by
  cases object with
  | scalar ty =>
    rw [scalarsOf_scalar fills, leaves] at written
    rcases written with _ | ⟨atLeaf, _⟩
    rcases coded_of_fits fills with ⟨word, coded⟩
    change Heap.sliceInside bytes base (scalarSize width ty) =
      encodeContent floats width ty content at atLeaf
    rw [contentAt, scalarAt, atLeaf, coded.encoded, Option.bind_some, coded.decoded]
    exact scalarContent_scalarValue fills
  | array element count =>
    rcases fills with ⟨contents, rfl, rfl, each⟩
    rw [scalarsOf_array, leaves, List.range_eq_range'] at written
    rw [contentAt, List.range_eq_range']
    congr 2
    apply elements_read _ _ 0 written
    · intro inner innerIn start innerWritten
      exact contentAt_written element start (each inner innerIn) innerWritten
    · intro inner innerIn start
      exact (leaves_fit element start (each inner innerIn)).length_eq
  | record members =>
    rcases fills with ⟨contents, rfl, fillAll⟩
    rw [scalarsOf_struct, leaves] at written
    rw [contentAt, contentsAt_written members base 0 fillAll written]

theorem contentsAt_written (members : List (Storage ForeignType)) (base fill : Nat)
    {contents : List Content} (fillAll : FillAll floats width members contents)
    (written : List.Forall₂ (Written floats width bytes)
      (membersLeaves (scalarMeasure width) base fill members) (contents.flatMap scalarsOf)) :
    contentsAt floats width bytes base fill members = contents := by
  cases members with
  | nil =>
    cases contents with
    | nil => rfl
    | cons content contents => exact fillAll.elim
  | cons member members =>
    cases contents with
    | nil => exact fillAll.elim
    | cons content contents =>
      rw [membersLeaves, List.flatMap_cons] at written
      rcases forall₂_split written (leaves_fit member _ fillAll.1).length_eq with
        ⟨first, rest⟩
      rw [contentsAt]
      congr 1
      · exact contentAt_written member _ fillAll.1 first
      · exact contentsAt_written members base _ fillAll.2 rest

end

end Aggregates

end KiraVm
