import KiraVm.HeapEquality
import KiraVm.NumberArithmetic
import Mathlib.Data.FinEnum

/-!
# What a value is

The contents of a value, whatever stores it: objects of a heap, or a tree of
callback state that a snapshot holds.  Lists of contents are chains, so that a
content is one plain tree.
-/

namespace KiraVm

/-- The contents of a value.  A `word` is what C reads: a raw pointer, or the address
of a block.  `done` and `also` make chains. -/
inductive Content
  | int (value : Int64)
  | float (bits : UInt64)
  | bool (value : Bool)
  | number (value : Decimal)
  | word (word : UInt64)
  | text (text : String)
  | struct (fields : Content)
  | array (elements : Content)
  | enum (tag : Option UInt64) (payload : Content)
  | erased (typeId : Option UInt64) (payload : Content)
  | cell (id : Nat)
  | token (token : UInt64)
  | task (handle : UInt64)
  | view (token typeId : UInt64)
  | type (id : UInt64)
  | void
  | done
  | also (first rest : Content)
  deriving DecidableEq, Repr

namespace Content

def chain : List Content → Content
  | [] => .done
  | first :: rest => .also first (chain rest)

@[simp] theorem chain_nil : chain [] = .done := rfl

@[simp] theorem chain_cons (first : Content) (rest : List Content) :
    chain (first :: rest) = .also first (chain rest) :=
  rfl

/-! ## Equality of contents -/

-- A claim about every word is not decided by trying all words.
attribute [-instance] FinEnum.instFintype

def same (world : World) : Content → Content → Bool
  | .int value, .int other => value == other
  | .float bits, .float other => world.floats.eq bits other
  | .bool value, .bool other => value == other
  | .number value, .number other =>
    match world.decimals.equals value other with
    | .ok equal => equal
    | .error _ => false
  | .word value, .word other => value == other
  | .text value, .text other => value == other
  | .struct fields, .struct others => same world fields others
  | .array elements, .array others => same world elements others
  | .enum tag payload, .enum other otherPayload =>
    tag == other && same world payload otherPayload
  | .erased typeId payload, .erased other otherPayload =>
    typeId == other && payload != .done && same world payload otherPayload
  | .cell id, .cell other => id == other
  | .token value, .token other => value == other
  | .task handle, .task other => handle == other
  | .view value typeId, .view other otherType => value == other && typeId == otherType
  | .type id, .type other => id == other
  | .void, .void => true
  | .done, .done => true
  | .also first rest, .also other others => same world first other && same world rest others
  | _, _ => false

def Regular (world : World) : Content → Prop
  | .float bits => world.floats.eq bits bits = true
  | .number value => value.scale.toNat ≤ Decimal.maxScale
  | .struct fields => Regular world fields
  | .array elements => Regular world elements
  | .enum _ payload => Regular world payload
  | .erased _ payload => payload ≠ .done ∧ Regular world payload
  | .also first rest => Regular world first ∧ Regular world rest
  | _ => True

/-- The equality of floats that are numbers is the one of real numbers, and decimals
are compared by their own code. -/
structure EqualityLaws (world : World) : Prop where
  symm : ∀ bits other, world.floats.eq bits other = true → world.floats.eq other bits = true
  trans : ∀ bits other last, world.floats.eq bits other = true →
    world.floats.eq other last = true → world.floats.eq bits last = true
  equals : world.decimals.equals = Decimal.equals

variable {world : World}

variable {content : Content}

theorem same_refl (laws : EqualityLaws world) (regular : content.Regular world) :
    same world content content = true := by
  induction content with
  | float bits => exact regular
  | number value =>
    rw [same, laws.equals, Decimal.equals_eq regular regular]
    exact decide_eq_true rfl
  | struct fields ih => exact ih regular
  | array elements ih => exact ih regular
  | enum tag payload ih => simp [same, ih regular]
  | erased typeId payload ih => simp [same, regular.1, ih regular.2]
  | also first rest firstIh restIh => simp [same, firstIh regular.1, restIh regular.2]
  | _ => simp [same]

theorem same_symm (laws : EqualityLaws world) {other : Content}
    (regular : content.Regular world) (otherRegular : other.Regular world)
    (equal : same world content other = true) : same world other content = true := by
  induction content generalizing other with
  | float bits =>
    cases other with
    | float otherBits => exact laws.symm bits otherBits equal
    | _ => cases equal
  | number value =>
    cases other with
    | number otherValue =>
      rw [same, laws.equals, Decimal.equals_eq regular otherRegular] at equal
      rw [same, laws.equals, Decimal.equals_eq otherRegular regular]
      exact decide_eq_true (of_decide_eq_true equal).symm
    | _ => cases equal
  | struct fields ih =>
    cases other with
    | struct others => exact ih regular otherRegular equal
    | _ => cases equal
  | array elements ih =>
    cases other with
    | array others => exact ih regular otherRegular equal
    | _ => cases equal
  | enum tag payload ih =>
    cases other with
    | enum otherTag otherPayload =>
      simp only [same, Bool.and_eq_true, beq_iff_eq] at equal ⊢
      exact ⟨equal.1.symm, ih regular otherRegular equal.2⟩
    | _ => cases equal
  | erased typeId payload ih =>
    cases other with
    | erased otherType otherPayload =>
      simp only [same, Bool.and_eq_true, beq_iff_eq, bne_iff_ne] at equal ⊢
      exact ⟨⟨equal.1.1.symm, otherRegular.1⟩, ih regular.2 otherRegular.2 equal.2⟩
    | _ => cases equal
  | also first rest firstIh restIh =>
    cases other with
    | also otherFirst otherRest =>
      simp only [same, Bool.and_eq_true] at equal ⊢
      exact ⟨firstIh regular.1 otherRegular.1 equal.1, restIh regular.2 otherRegular.2 equal.2⟩
    | _ => cases equal
  | _ => cases other <;> simp_all [same]

theorem same_trans (laws : EqualityLaws world) {other last : Content}
    (regular : content.Regular world) (otherRegular : other.Regular world)
    (lastRegular : last.Regular world) (equal : same world content other = true)
    (next : same world other last = true) : same world content last = true := by
  induction content generalizing other last with
  | float bits =>
    cases other with
    | float otherBits =>
      cases last with
      | float lastBits => exact laws.trans bits otherBits lastBits equal next
      | _ => cases next
    | _ => cases equal
  | number value =>
    cases other with
    | number otherValue =>
      cases last with
      | number lastValue =>
        rw [same, laws.equals, Decimal.equals_eq regular otherRegular] at equal
        rw [same, laws.equals, Decimal.equals_eq otherRegular lastRegular] at next
        rw [same, laws.equals, Decimal.equals_eq regular lastRegular]
        exact decide_eq_true ((of_decide_eq_true equal).trans (of_decide_eq_true next))
      | _ => cases next
    | _ => cases equal
  | struct fields ih =>
    cases other with
    | struct others =>
      cases last with
      | struct lasts => exact @ih others lasts regular otherRegular lastRegular equal next
      | _ => cases next
    | _ => cases equal
  | array elements ih =>
    cases other with
    | array others =>
      cases last with
      | array lasts => exact @ih others lasts regular otherRegular lastRegular equal next
      | _ => cases next
    | _ => cases equal
  | enum tag payload ih =>
    cases other with
    | enum otherTag otherPayload =>
      cases last with
      | enum lastTag lastPayload =>
        simp only [same, Bool.and_eq_true, beq_iff_eq] at equal next ⊢
        exact ⟨equal.1.trans next.1,
          @ih otherPayload lastPayload regular otherRegular lastRegular equal.2 next.2⟩
      | _ => cases next
    | _ => cases equal
  | erased typeId payload ih =>
    cases other with
    | erased otherType otherPayload =>
      cases last with
      | erased lastType lastPayload =>
        simp only [same, Bool.and_eq_true, beq_iff_eq, bne_iff_ne] at equal next ⊢
        exact ⟨⟨equal.1.1.trans next.1.1, equal.1.2⟩,
          ih regular.2 otherRegular.2 lastRegular.2 equal.2 next.2⟩
      | _ => cases next
    | _ => cases equal
  | also first rest firstIh restIh =>
    cases other with
    | also otherFirst otherRest =>
      cases last with
      | also lastFirst lastRest =>
        simp only [same, Bool.and_eq_true] at equal next ⊢
        exact ⟨firstIh regular.1 otherRegular.1 lastRegular.1 equal.1 next.1,
          restIh regular.2 otherRegular.2 lastRegular.2 equal.2 next.2⟩
      | _ => cases next
    | _ => cases equal
  | _ => cases other <;> simp_all [same]

end Content

/-! ## The contents of callback state -/

mutual

/-- What a node is rebuilt as.  A block that is rebuilt has an address of its own, so
it has no contents here. -/
def NativeStateValue.content : NativeStateValue → Content
  | .int value => .int value
  | .float bits => .float bits
  | .bool value => .bool value
  | .string text => .text text
  | .number value => .number value
  | .struct fields => .struct (NativeStateValue.contents fields)
  | .dropStruct _ fields => .struct (NativeStateValue.contents fields)
  | .array elements => .array (NativeStateValue.contents elements)
  | .rawPtr word => .word word
  | .cell handle vmOwned =>
    if vmOwned && decide (handle ≤ Heap.maxHandle) then .cell handle
    else .word (UInt64.ofNat handle)
  | .any typeId payload => .erased (some typeId) (.also (NativeStateValue.content payload) .done)
  | .enum tag payload => .enum (some tag.toUInt64) (NativeStateValue.payloadContent payload)
  | .nativeState token _ _ => .token token
  | .cBlock _ => .void

def NativeStateValue.contents : List NativeStateValue → Content
  | [] => .done
  | node :: nodes => .also (NativeStateValue.content node) (NativeStateValue.contents nodes)

def NativeStateValue.payloadContent : Option NativeStateValue → Content
  | none => .done
  | some node => .also (NativeStateValue.content node) .done

end

mutual

/-- A node of the kinds that a value is compared with. -/
def NativeStateValue.plain : NativeStateValue → Bool
  | .int _ | .float _ | .bool _ | .string _ | .rawPtr _ => true
  | .struct fields => NativeStateValue.allPlain fields
  | .array elements => NativeStateValue.allPlain elements
  | .any _ payload => NativeStateValue.plain payload
  | .enum _ payload => NativeStateValue.payloadPlain payload
  | .number _ | .dropStruct _ _ | .cell _ _ | .nativeState _ _ _ | .cBlock _ => false

def NativeStateValue.allPlain : List NativeStateValue → Bool
  | [] => true
  | node :: nodes => NativeStateValue.plain node && NativeStateValue.allPlain nodes

def NativeStateValue.payloadPlain : Option NativeStateValue → Bool
  | none => true
  | some node => NativeStateValue.plain node

end

namespace Heap

/-! ## The contents of values -/

def contentTo (heap : Heap) : Nat → Value → Content
  | 0, _ => .void
  | depth + 1, value =>
    match value with
    | .int value => .int value
    | .float bits => .float bits
    | .bool value => .bool value
    | .number value => .number value
    | .str id => .text (heap.get id)
    | .struct id => .struct (.chain ((heap.fields id).map (contentTo heap depth)))
    | .array id => .array (.chain ((heap.elements id).map (contentTo heap depth)))
    | .enum id =>
      .enum (heap.enumTag id)
        (.chain ((heap.enumPayloadRef id).toList.map (contentTo heap depth)))
    | .erased id =>
      .erased (heap.erasedTypeId id)
        (.chain ((heap.erasedPayloadRef id).toList.map (contentTo heap depth)))
    | .cell id => .cell id
    | .rawPtr word => .word word
    | .nativeState token => .token token
    | .mainThreadTask handle => .task handle
    | .nativeView token typeId => .view token typeId
    | .nativeSnapshot id =>
      match heap.snapshotNode id with
      | some node => node.content
      | none => .void
    | .cBlock id => .word (heap.cblockAddress id)
    | .type id => .type id
    | .void => .void

def content (heap : Heap) (value : Value) : Content :=
  heap.contentTo (heap.slots.length + 1) value

end Heap

end KiraVm
