import Mathlib.Algebra.Order.Floor.Div
import Mathlib.Data.List.Pairwise
import Mathlib.Tactic.Linarith

/-!
# The layout of C objects

An object is a scalar, an array of objects of one type, or a record of members.
A record places each member at the first multiple of its alignment that the members
before it leave free.  Sizes are natural numbers here: nothing overflows.
-/

namespace StorageLayout

/-- The least multiple of an alignment that is not below a value. -/
def alignUp (align value : ℕ) : ℕ :=
  align * (value ⌈/⌉ align)

theorem isLeast_alignUp {align : ℕ} (positive : 0 < align) (value : ℕ) :
    IsLeast {place | align ∣ place ∧ value ≤ place} (alignUp align value) := by
  constructor
  · constructor
    · exact Nat.dvd_mul_right _ _
    · exact le_smul_ceilDiv positive
  · rintro place ⟨⟨factor, rfl⟩, below⟩
    apply Nat.mul_le_mul_left
    exact (ceilDiv_le_iff_le_smul positive).mpr below

theorem dvd_alignUp (align value : ℕ) : align ∣ alignUp align value :=
  Nat.dvd_mul_right _ _

theorem le_alignUp {align : ℕ} (positive : 0 < align) (value : ℕ) :
    value ≤ alignUp align value :=
  (isLeast_alignUp positive value).1.2

theorem alignUp_eq_sub_mod {align : ℕ} (positive : 0 < align) (value : ℕ) :
    alignUp align value = value + (align - 1) - (value + (align - 1)) % align := by
  have raised : value + align - 1 = value + (align - 1) := by omega
  have divided := Nat.div_add_mod (value + (align - 1)) align
  rw [alignUp, Nat.ceilDiv_eq_add_pred_div, raised]
  omega

structure Extent where
  size : ℕ
  align : ℕ
  deriving DecidableEq, Repr

/-- The sizes of the scalars: alignments are powers of two, sizes multiples of them. -/
structure Measure (α : Type*) where
  extent : α → Extent
  power : ∀ tag, ∃ exponent, (extent tag).align = 2 ^ exponent
  whole : ∀ tag, (extent tag).align ∣ (extent tag).size

inductive Storage (α : Type*)
  | scalar (tag : α)
  | array (element : Storage α) (count : ℕ)
  | record (members : List (Storage α))

/-- A scalar inside an object, and where it starts. -/
structure Leaf (α : Type*) where
  offset : ℕ
  tag : α
  deriving DecidableEq, Repr

variable {α : Type*} (measure : Measure α)

mutual

def extentOf : Storage α → Extent
  | .scalar tag => measure.extent tag
  | .array element count => ⟨(extentOf element).size * count, (extentOf element).align⟩
  | .record members =>
    -- A record without members still takes a byte.
    ⟨alignUp (membersAlign members) (max (membersEnd 0 members) 1), membersAlign members⟩

def membersAlign : List (Storage α) → ℕ
  | [] => 1
  | member :: members => max (extentOf member).align (membersAlign members)

/-- Where the last member ends, when the first may start from `fill` on. -/
def membersEnd (fill : ℕ) : List (Storage α) → ℕ
  | [] => fill
  | member :: members =>
    membersEnd (alignUp (extentOf member).align fill + (extentOf member).size) members

end

def memberOffsets (fill : ℕ) : List (Storage α) → List ℕ
  | [] => []
  | member :: members =>
    let offset := alignUp (extentOf measure member).align fill
    offset :: memberOffsets (offset + (extentOf measure member).size) members

mutual

/-- The scalars of an object that starts at `base`, in the order of declaration. -/
def leaves (base : ℕ) : Storage α → List (Leaf α)
  | .scalar tag => [⟨base, tag⟩]
  | .array element count =>
    (List.range count).flatMap fun step =>
      leaves (base + (extentOf measure element).size * step) element
  | .record members => membersLeaves base 0 members

def membersLeaves (base fill : ℕ) : List (Storage α) → List (Leaf α)
  | [] => []
  | member :: members =>
    let offset := alignUp (extentOf measure member).align fill
    leaves (base + offset) member ++
      membersLeaves base (offset + (extentOf measure member).size) members

end

/-! ## Alignments -/

mutual

theorem extentOf_align_power (object : Storage α) :
    ∃ exponent, (extentOf measure object).align = 2 ^ exponent := by
  cases object with
  | scalar tag => exact measure.power tag
  | array element count => exact extentOf_align_power element
  | record members => exact membersAlign_power members

theorem membersAlign_power (members : List (Storage α)) :
    ∃ exponent, membersAlign measure members = 2 ^ exponent := by
  cases members with
  | nil => exact ⟨0, rfl⟩
  | cons member members =>
    have ⟨first, firstEq⟩ := extentOf_align_power member
    have ⟨rest, restEq⟩ := membersAlign_power members
    rw [membersAlign, firstEq, restEq]
    rcases max_choice (2 ^ first) (2 ^ rest) with larger | larger
    · exact ⟨first, larger⟩
    · exact ⟨rest, larger⟩

end

theorem extentOf_align_pos (object : Storage α) : 0 < (extentOf measure object).align := by
  have ⟨exponent, power⟩ := extentOf_align_power measure object
  rw [power]
  exact Nat.two_pow_pos exponent

theorem membersAlign_pos (members : List (Storage α)) : 0 < membersAlign measure members := by
  have ⟨exponent, power⟩ := membersAlign_power measure members
  rw [power]
  exact Nat.two_pow_pos exponent

theorem le_membersAlign {member : Storage α} {members : List (Storage α)}
    (inside : member ∈ members) :
    (extentOf measure member).align ≤ membersAlign measure members := by
  induction members with
  | nil => simp at inside
  | cons first members ih =>
    rw [membersAlign]
    rcases List.mem_cons.mp inside with rfl | later
    · exact le_max_left _ _
    · exact le_trans (ih later) (le_max_right _ _)

/-- Powers of two: the greatest alignment of the members is a multiple of each. -/
theorem dvd_membersAlign {member : Storage α} {members : List (Storage α)}
    (inside : member ∈ members) :
    (extentOf measure member).align ∣ membersAlign measure members := by
  have ⟨own, ownEq⟩ := extentOf_align_power measure member
  have ⟨whole, wholeEq⟩ := membersAlign_power measure members
  have ordered := le_membersAlign measure inside
  rw [ownEq, wholeEq] at ordered ⊢
  exact Nat.pow_dvd_pow 2 ((Nat.pow_le_pow_iff_right Nat.one_lt_two).mp ordered)

theorem align_dvd_size (object : Storage α) :
    (extentOf measure object).align ∣ (extentOf measure object).size := by
  cases object with
  | scalar tag => exact measure.whole tag
  | array element count => exact (align_dvd_size element).mul_right count
  | record members => exact dvd_alignUp _ _

/-! ## Sizes -/

theorem le_membersEnd (members : List (Storage α)) (fill : ℕ) :
    fill ≤ membersEnd measure fill members := by
  induction members generalizing fill with
  | nil => exact le_rfl
  | cons member members ih =>
    rw [membersEnd]
    have placed := le_alignUp (extentOf_align_pos measure member) fill
    have placedRest := ih (alignUp (extentOf measure member).align fill +
      (extentOf measure member).size)
    omega

theorem membersEnd_le_size (members : List (Storage α)) :
    membersEnd measure 0 members ≤ (extentOf measure (.record members)).size := by
  rw [extentOf]
  exact le_trans (le_max_left _ _) (le_alignUp (membersAlign_pos measure members) _)

theorem isLeast_record_size (members : List (Storage α)) :
    IsLeast {size | membersAlign measure members ∣ size ∧
        max (membersEnd measure 0 members) 1 ≤ size}
      (extentOf measure (.record members)).size := by
  rw [extentOf]
  exact isLeast_alignUp (membersAlign_pos measure members) _

/-! ## Leaves -/

/-- A leaf lies from `low` on, ends at `high` at the latest, and is aligned. -/
structure Leaf.Inside (low high : ℕ) (leaf : Leaf α) : Prop where
  low_le : low ≤ leaf.offset
  le_high : leaf.offset + (measure.extent leaf.tag).size ≤ high
  aligned : (measure.extent leaf.tag).align ∣ leaf.offset

variable {measure} in
theorem Leaf.Inside.mono {low high lower higher : ℕ} {leaf : Leaf α}
    (inside : leaf.Inside measure low high) (lowerLe : lower ≤ low) (leHigher : high ≤ higher) :
    leaf.Inside measure lower higher :=
  ⟨le_trans lowerLe inside.low_le, le_trans inside.le_high leHigher, inside.aligned⟩

/-- A leaf ends where another starts, or before. -/
def Leaf.Before (first second : Leaf α) : Prop :=
  first.offset + (measure.extent first.tag).size ≤ second.offset

variable {measure} in
theorem Leaf.Inside.before {low middle high : ℕ} {first second : Leaf α}
    (firstInside : first.Inside measure low middle)
    (secondInside : second.Inside measure middle high) : first.Before measure second :=
  le_trans firstInside.le_high secondInside.low_le

mutual

theorem leaves_inside (object : Storage α) (base : ℕ)
    (aligned : (extentOf measure object).align ∣ base) :
    ∀ leaf ∈ leaves measure base object,
      leaf.Inside measure base (base + (extentOf measure object).size) := by
  cases object with
  | scalar tag =>
    intro leaf member
    rw [leaves, List.mem_singleton] at member
    subst member
    exact ⟨le_rfl, le_rfl, aligned⟩
  | array element count =>
    intro leaf member
    rw [leaves, List.mem_flatMap] at member
    rcases member with ⟨step, stepIn, member⟩
    rw [extentOf] at aligned ⊢
    have startAligned : (extentOf measure element).align ∣
        base + (extentOf measure element).size * step :=
      Nat.dvd_add aligned ((align_dvd_size measure element).mul_right step)
    have inside := leaves_inside element _ startAligned leaf member
    have steps : (extentOf measure element).size * (step + 1) ≤
        (extentOf measure element).size * count :=
      Nat.mul_le_mul_left _ (List.mem_range.mp stepIn)
    apply inside.mono
    · exact Nat.le_add_right _ _
    · change base + (extentOf measure element).size * step + (extentOf measure element).size ≤
        base + (extentOf measure element).size * count
      rw [Nat.mul_succ] at steps
      omega
  | record members =>
    intro leaf member
    rw [leaves] at member
    have memberAligned : ∀ member ∈ members, (extentOf measure member).align ∣ base := by
      intro inner innerIn
      exact (dvd_membersAlign measure innerIn).trans aligned
    have inside := membersLeaves_inside members base 0 memberAligned leaf member
    apply inside.mono
    · exact Nat.le_add_right _ _
    · exact Nat.add_le_add_left (membersEnd_le_size measure members) base

theorem membersLeaves_inside (members : List (Storage α)) (base fill : ℕ)
    (aligned : ∀ member ∈ members, (extentOf measure member).align ∣ base) :
    ∀ leaf ∈ membersLeaves measure base fill members,
      leaf.Inside measure (base + fill) (base + membersEnd measure fill members) := by
  cases members with
  | nil =>
    intro leaf member
    simp [membersLeaves] at member
  | cons first members =>
    intro leaf member
    have placed := le_alignUp (extentOf_align_pos measure first) fill
    rw [membersLeaves, List.mem_append] at member
    rw [membersEnd]
    rcases member with member | member
    · have firstAligned : (extentOf measure first).align ∣
          base + alignUp (extentOf measure first).align fill :=
        Nat.dvd_add (aligned first (by simp)) (dvd_alignUp _ _)
      have rest := le_membersEnd measure members
        (alignUp (extentOf measure first).align fill + (extentOf measure first).size)
      apply (leaves_inside first _ firstAligned leaf member).mono
      · omega
      · omega
    · have restAligned : ∀ member ∈ members, (extentOf measure member).align ∣ base := by
        intro inner innerIn
        exact aligned inner (List.mem_cons_of_mem first innerIn)
      apply (membersLeaves_inside members base _ restAligned leaf member).mono
      · omega
      · exact le_rfl

end

mutual

/-- The leaves come in the order of their places, and none overlaps another. -/
theorem leaves_pairwise (object : Storage α) (base : ℕ)
    (aligned : (extentOf measure object).align ∣ base) :
    (leaves measure base object).Pairwise (Leaf.Before measure) := by
  cases object with
  | scalar tag => exact List.pairwise_singleton _ _
  | array element count =>
    rw [extentOf] at aligned
    have startAligned : ∀ step, (extentOf measure element).align ∣
        base + (extentOf measure element).size * step := by
      intro step
      exact Nat.dvd_add aligned ((align_dvd_size measure element).mul_right step)
    rw [leaves, List.pairwise_flatMap]
    constructor
    · intro step stepIn
      exact leaves_pairwise element _ (startAligned step)
    · apply List.Pairwise.imp _ List.pairwise_lt_range
      intro earlier later ordered first firstIn second secondIn
      have firstInside := leaves_inside measure element _ (startAligned earlier) first firstIn
      have secondInside := leaves_inside measure element _ (startAligned later) second secondIn
      have steps : (extentOf measure element).size * (earlier + 1) ≤
          (extentOf measure element).size * later :=
        Nat.mul_le_mul_left _ ordered
      rw [Nat.mul_succ] at steps
      apply (firstInside.mono le_rfl _).before secondInside
      omega
  | record members =>
    rw [leaves]
    apply membersLeaves_pairwise members base 0
    intro member inside
    exact (dvd_membersAlign measure inside).trans aligned

theorem membersLeaves_pairwise (members : List (Storage α)) (base fill : ℕ)
    (aligned : ∀ member ∈ members, (extentOf measure member).align ∣ base) :
    (membersLeaves measure base fill members).Pairwise (Leaf.Before measure) := by
  cases members with
  | nil => exact List.Pairwise.nil
  | cons first members =>
    have firstAligned : (extentOf measure first).align ∣
        base + alignUp (extentOf measure first).align fill :=
      Nat.dvd_add (aligned first (by simp)) (dvd_alignUp _ _)
    have restAligned : ∀ member ∈ members, (extentOf measure member).align ∣ base := by
      intro inner innerIn
      exact aligned inner (List.mem_cons_of_mem first innerIn)
    rw [membersLeaves, List.pairwise_append]
    refine ⟨leaves_pairwise first _ firstAligned,
      membersLeaves_pairwise members base _ restAligned, ?_⟩
    intro earlier earlierIn later laterIn
    have earlierInside := leaves_inside measure first _ firstAligned earlier earlierIn
    have laterInside := membersLeaves_inside measure members base _ restAligned later laterIn
    apply earlierInside.before (laterInside.mono _ le_rfl)
    omega

end

/-- A leaf of an object that starts further on. -/
def Leaf.shift (amount : ℕ) (leaf : Leaf α) : Leaf α :=
  { leaf with offset := amount + leaf.offset }

mutual

theorem leaves_shift (object : Storage α) (base amount : ℕ) :
    leaves measure (amount + base) object = (leaves measure base object).map (Leaf.shift amount) := by
  cases object with
  | scalar tag => rfl
  | array element count =>
    rw [leaves, leaves, List.map_flatMap]
    congr 1
    funext step
    rw [Nat.add_assoc]
    exact leaves_shift element _ amount
  | record members =>
    rw [leaves, leaves]
    exact membersLeaves_shift members base 0 amount

theorem membersLeaves_shift (members : List (Storage α)) (base fill amount : ℕ) :
    membersLeaves measure (amount + base) fill members =
      (membersLeaves measure base fill members).map (Leaf.shift amount) := by
  cases members with
  | nil => rfl
  | cons member members =>
    rw [membersLeaves, membersLeaves, List.map_append, membersLeaves_shift members, Nat.add_assoc,
      leaves_shift member]

end

/-! ## Offsets -/

theorem membersEnd_append (members others : List (Storage α)) (fill : ℕ) :
    membersEnd measure fill (members ++ others) =
      membersEnd measure (membersEnd measure fill members) others := by
  induction members generalizing fill with
  | nil => rfl
  | cons member members ih => simp only [List.cons_append, membersEnd, ih]

@[simp]
theorem memberOffsets_length (members : List (Storage α)) (fill : ℕ) :
    (memberOffsets measure fill members).length = members.length := by
  induction members generalizing fill with
  | nil => rfl
  | cons member members ih => simp only [memberOffsets, List.length_cons, ih]

theorem memberOffsets_getElem? (members : List (Storage α)) (fill position : ℕ) :
    (memberOffsets measure fill members)[position]? =
      members[position]?.map fun member =>
        alignUp (extentOf measure member).align
          (membersEnd measure fill (members.take position)) := by
  induction members generalizing fill position with
  | nil => rfl
  | cons member members ih =>
    cases position with
    | zero => rfl
    | succ position =>
      simp only [memberOffsets, List.getElem?_cons_succ, List.take_succ_cons, membersEnd, ih]

theorem membersLeaves_eq_flatMap (members : List (Storage α)) (base fill : ℕ) :
    membersLeaves measure base fill members =
      (members.zip (memberOffsets measure fill members)).flatMap fun (member, offset) =>
        leaves measure (base + offset) member := by
  induction members generalizing fill with
  | nil => rfl
  | cons member members ih =>
    simp only [membersLeaves, memberOffsets, List.zip_cons_cons, List.flatMap_cons, ih]

end StorageLayout
