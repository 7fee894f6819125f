import KiraVm.ValueRebuilding

/-!
# Equality of values

The walks of equality compare contents.  Between a value and a node of callback state
the walk lacks the arms for decimals, dropping structs, cells, tokens and blocks, and
between two values it lacks the arm for types.
-/

namespace KiraVm

/-- No type stands in the content: a type is equal to nothing, not even to itself. -/
def Content.typeless : Content → Bool
  | .type _ => false
  | .struct fields => fields.typeless
  | .array elements => elements.typeless
  | .enum _ payload => payload.typeless
  | .erased _ payload => payload.typeless
  | .also first rest => first.typeless && rest.typeless
  | _ => true

namespace Heap

variable {world : World} {heap : Heap}

/-! ## Two values -/

variable {depth : Nat}

theorem allEqual_eq {equal : Value → Value → Bool} {values others : List Value}
    (parts : ∀ value ∈ values, ∀ other ∈ others, equal value other =
      (Content.same world (heap.contentTo depth value) (heap.contentTo depth other) &&
        (heap.contentTo depth value).typeless)) :
    allEqual equal values others =
      (Content.same world (.chain (values.map (heap.contentTo depth)))
          (.chain (others.map (heap.contentTo depth))) &&
        (Content.chain (values.map (heap.contentTo depth))).typeless) := by
  induction values generalizing others with
  | nil => cases others <;> rfl
  | cons value values ih =>
    cases others with
    | nil => rfl
    | cons other others =>
      have rest := @ih others fun one oneMember two twoMember =>
        parts one (List.mem_cons_of_mem _ oneMember) two (List.mem_cons_of_mem _ twoMember)
      simp only [allEqual, List.map_cons, Content.chain_cons, Content.same, Content.typeless,
        rest, parts value List.mem_cons_self other List.mem_cons_self]
      cases Content.same world (heap.contentTo depth value) (heap.contentTo depth other) <;>
        cases (heap.contentTo depth value).typeless <;> simp

/-- What equality does with the payloads of two enums. -/
def payloadsEqual (equal : Value → Value → Bool) : Option Value → Option Value → Bool
  | some value, some another => equal value another
  | none, none => true
  | _, _ => false

theorem payloadsEqual_eq {equal : Value → Value → Bool} {payload other : Option Value}
    (parts : ∀ value ∈ payload.toList, ∀ another ∈ other.toList, equal value another =
      (Content.same world (heap.contentTo depth value) (heap.contentTo depth another) &&
        (heap.contentTo depth value).typeless)) :
    payloadsEqual equal payload other =
      (Content.same world (.chain (payload.toList.map (heap.contentTo depth)))
          (.chain (other.toList.map (heap.contentTo depth))) &&
        (Content.chain (payload.toList.map (heap.contentTo depth))).typeless) := by
  rw [← allEqual_eq parts]
  cases payload <;> cases other
  · rfl
  · rfl
  · rfl
  · exact (Bool.and_true _).symm

/-- Two owned values are equal when their contents are the same and hold no type. -/
theorem valuesEqualTo_owned {value other : Value} (owned : heap.Owned depth value)
    (otherOwned : heap.Owned depth other) :
    valuesEqualTo world heap depth value other =
      (Content.same world (heap.contentTo depth value) (heap.contentTo depth other) &&
        (heap.contentTo depth value).typeless) := by
  induction depth generalizing value other with
  | zero => exact owned.elim
  | succ depth ih =>
    have parts : ∀ part ∈ heap.parts value, ∀ otherPart ∈ heap.parts other, _ :=
      fun part member otherPart otherMember =>
        ih (owned.2 part member) (otherOwned.2 otherPart otherMember)
    have stored := owned.1
    have otherStored := otherOwned.1
    cases value with
    | nativeSnapshot id => exact stored.elim
    | struct id =>
      cases other with
      | struct otherId => exact allEqual_eq parts
      | nativeSnapshot id => exact otherStored.elim
      | _ => rfl
    | array id =>
      cases other with
      | array otherId => exact allEqual_eq parts
      | nativeSnapshot id => exact otherStored.elim
      | _ => rfl
    | enum id =>
      cases other with
      | enum otherId =>
        have payloads := payloadsEqual_eq parts
        change (heap.enumTag id == heap.enumTag otherId &&
            payloadsEqual (valuesEqualTo world heap depth) (heap.enumPayloadRef id)
              (heap.enumPayloadRef otherId)) =
          ((heap.enumTag id == heap.enumTag otherId && _) && _)
        rw [payloads, Bool.and_assoc]
        rfl
      | nativeSnapshot id => exact otherStored.elim
      | _ => rfl
    | erased id =>
      cases other with
      | erased otherId =>
        obtain ⟨typeId, payload, shares, found⟩ := stored
        obtain ⟨otherType, otherPayload, otherShares, otherFound⟩ := otherStored
        have isPayload : heap.erasedPayloadRef id = some payload := by
          simp only [erasedPayloadRef, found]
        have isOther : heap.erasedPayloadRef otherId = some otherPayload := by
          simp only [erasedPayloadRef, otherFound]
        have equal := parts payload (by simp [Heap.parts, isPayload]) otherPayload
          (by simp [Heap.parts, isOther])
        change (heap.erasedTypeId id == heap.erasedTypeId otherId && _) = _
        simp only [contentTo, Content.same, Content.typeless, isPayload, isOther, equal,
          Option.toList_some, List.map_cons, List.map_nil, Content.chain_cons,
          Content.chain_nil, Bool.and_true, Bool.and_assoc]
        rfl
      | nativeSnapshot id => exact otherStored.elim
      | _ => rfl
    | _ =>
      cases other with
      | nativeSnapshot id => exact otherStored.elim
      | _ => first
        | rfl
        | exact (Bool.and_true _).symm
        | exact (Bool.and_false _).symm
        | exact BEq.comm.trans (Bool.and_true _).symm

/-! ## A value and a node -/

theorem valuesEqualNodes_eq {values : List Value} {nodes : List NativeStateValue}
    (parts : ∀ value ∈ values, ∀ node ∈ nodes, valueEqualsNode world.floats heap value node =
      (Content.same world (heap.contentTo depth value) node.content &&
        (node.plain && heap.blockless depth value))) :
    valuesEqualNodes world.floats heap values nodes =
      (Content.same world (.chain (values.map (heap.contentTo depth)))
          (NativeStateValue.contents nodes) &&
        (NativeStateValue.allPlain nodes && values.all (heap.blockless depth))) := by
  induction values generalizing nodes with
  | nil =>
    cases nodes with
    | nil => rfl
    | cons node nodes =>
      simp only [valuesEqualNodes]
      rfl
  | cons value values ih =>
    cases nodes with
    | nil =>
      simp only [valuesEqualNodes]
      rfl
    | cons node nodes =>
      have rest := @ih nodes fun one oneMember two twoMember =>
        parts one (List.mem_cons_of_mem _ oneMember) two (List.mem_cons_of_mem _ twoMember)
      simp only [valuesEqualNodes, List.map_cons, Content.chain_cons, Content.same,
        NativeStateValue.contents, NativeStateValue.allPlain, List.all_cons, rest,
        parts value List.mem_cons_self node List.mem_cons_self]
      cases Content.same world (heap.contentTo depth value) node.content <;>
        cases node.plain <;> cases heap.blockless depth value <;> simp

theorem payloadEqualsNode_eq {payload : Option Value} {node : Option NativeStateValue}
    (parts : ∀ value ∈ payload.toList, ∀ stored ∈ node.toList,
      valueEqualsNode world.floats heap value stored =
        (Content.same world (heap.contentTo depth value) stored.content &&
          (stored.plain && heap.blockless depth value))) :
    payloadEqualsNode world.floats heap payload node =
      (Content.same world (.chain (payload.toList.map (heap.contentTo depth)))
          (NativeStateValue.payloadContent node) &&
        (NativeStateValue.payloadPlain node && payload.toList.all (heap.blockless depth))) := by
  cases payload with
  | none =>
    cases node with
    | none => rfl
    | some node => rfl
  | some value =>
    cases node with
    | none =>
      simp only [payloadEqualsNode]
      rfl
    | some node =>
      simp only [payloadEqualsNode]
      rw [parts value (by simp) node (by simp)]
      simp [Content.same, NativeStateValue.payloadContent, NativeStateValue.payloadPlain]

/-- A value without blocks is equal to a plain node when their contents are the same. -/
theorem valueEqualsNode_owned {value : Value} (owned : heap.Owned depth value)
    (node : NativeStateValue) :
    valueEqualsNode world.floats heap value node =
      (Content.same world (heap.contentTo depth value) node.content &&
        (node.plain && heap.blockless depth value)) := by
  induction depth generalizing value node with
  | zero => exact owned.elim
  | succ depth ih =>
    have parts : ∀ part ∈ heap.parts value, ∀ node, _ := fun part member =>
      ih (owned.2 part member)
    have stored := owned.1
    cases value with
    | nativeSnapshot id => exact stored.elim
    | struct id =>
      cases node with
      | struct nodes =>
        simp only [valueEqualsNode]
        exact valuesEqualNodes_eq fun part member node _ => parts part member node
      | _ =>
        simp only [valueEqualsNode]
        simp [contentTo, Content.same, NativeStateValue.content, NativeStateValue.plain]
    | array id =>
      cases node with
      | array nodes =>
        simp only [valueEqualsNode]
        exact valuesEqualNodes_eq fun part member node _ => parts part member node
      | _ =>
        simp only [valueEqualsNode]
        simp [contentTo, Content.same, NativeStateValue.content, NativeStateValue.plain]
    | enum id =>
      cases node with
      | enum tag payload =>
        simp only [valueEqualsNode]
        rw [payloadEqualsNode_eq fun part member node _ => parts part member node]
        change (_ && _) = ((heap.enumTag id == some tag.toUInt64 && _) && _)
        rw [Bool.and_assoc]
        rfl
      | _ =>
        simp only [valueEqualsNode]
        simp [contentTo, Content.same, NativeStateValue.content, NativeStateValue.plain]
    | erased id =>
      cases node with
      | any typeId payload =>
        obtain ⟨storedType, part, shares, found⟩ := stored
        have isPart : heap.erasedPayloadRef id = some part := by
          simp only [erasedPayloadRef, found]
        have equal := parts part (by simp [Heap.parts, isPart]) payload
        simp only [valueEqualsNode]
        rw [isPart]
        simp only [equal]
        simp [contentTo, Content.same, NativeStateValue.content, NativeStateValue.plain,
          blockless, Heap.parts, isPart, Bool.and_assoc]
        rfl
      | _ =>
        simp only [valueEqualsNode]
        simp [contentTo, Content.same, NativeStateValue.content, NativeStateValue.plain]
    | _ =>
      cases node with
      | _ =>
        simp only [valueEqualsNode]
        simp [contentTo, Content.same, NativeStateValue.content, NativeStateValue.plain,
          blockless, Heap.parts]

end Heap

/-! ## Two nodes -/

mutual

/-- Two plain nodes are equal exactly when their contents are the same. -/
theorem NativeStateValue.equal_plain {world : World} :
    (node other : NativeStateValue) → node.plain = true → other.plain = true →
      node.equal world.floats other = Content.same world node.content other.content
  | .struct fields, other, plain, otherPlain => by
    cases other with
    | struct others =>
      simp only [NativeStateValue.equal]
      exact NativeStateValue.equalAll_plain fields others plain otherPlain
    | _ => first | rfl | cases otherPlain
  | .array elements, other, plain, otherPlain => by
    cases other with
    | array others =>
      simp only [NativeStateValue.equal]
      exact NativeStateValue.equalAll_plain elements others plain otherPlain
    | _ => first | rfl | cases otherPlain
  | .any typeId payload, other, plain, otherPlain => by
    cases other with
    | any otherType otherPayload =>
      simp only [NativeStateValue.equal]
      rw [NativeStateValue.equal_plain payload otherPayload plain otherPlain]
      change _ = (some typeId == some otherType && true && (_ && true))
      rw [Bool.and_true, Bool.and_true, Option.some_beq_some]
    | _ => first | rfl | cases otherPlain
  | .enum tag payload, other, plain, otherPlain => by
    cases other with
    | enum otherTag otherPayload =>
      simp only [NativeStateValue.equal]
      rw [NativeStateValue.equalPayload_plain payload otherPayload plain otherPlain]
      have wide : (tag == otherTag) = (some tag.toUInt64 == some otherTag.toUInt64) := by
        rw [Bool.eq_iff_iff, beq_iff_eq, beq_iff_eq, Option.some_inj, UInt32.toUInt64_inj]
      rw [wide]
      rfl
    | _ => first | rfl | cases otherPlain
  | .int _, other, _, otherPlain | .float _, other, _, otherPlain | .bool _, other, _, otherPlain
  | .string _, other, _, otherPlain | .rawPtr _, other, _, otherPlain => by
    cases other <;> first | rfl | cases otherPlain
  | .number _, _, plain, _ | .dropStruct _ _, _, plain, _ | .cell _ _, _, plain, _
  | .nativeState _ _ _, _, plain, _ | .cBlock _, _, plain, _ => by cases plain

theorem NativeStateValue.equalAll_plain {world : World} :
    (nodes others : List NativeStateValue) → NativeStateValue.allPlain nodes = true →
      NativeStateValue.allPlain others = true →
        NativeStateValue.equalAll world.floats nodes others =
          Content.same world (NativeStateValue.contents nodes) (NativeStateValue.contents others)
  | [], [], _, _ => rfl
  | [], _ :: _, _, _ => rfl
  | _ :: _, [], _, _ => rfl
  | node :: nodes, other :: others, plain, otherPlain => by
    simp only [NativeStateValue.allPlain, Bool.and_eq_true] at plain otherPlain
    simp only [NativeStateValue.equalAll]
    rw [NativeStateValue.equal_plain node other plain.1 otherPlain.1,
      NativeStateValue.equalAll_plain nodes others plain.2 otherPlain.2]
    rfl

theorem NativeStateValue.equalPayload_plain {world : World} :
    (payload other : Option NativeStateValue) → NativeStateValue.payloadPlain payload = true →
      NativeStateValue.payloadPlain other = true →
        NativeStateValue.equalPayload world.floats payload other =
          Content.same world (NativeStateValue.payloadContent payload)
            (NativeStateValue.payloadContent other)
  | none, none, _, _ => rfl
  | none, some _, _, _ => rfl
  | some _, none, _, _ => rfl
  | some node, some other, plain, otherPlain => by
    simp only [NativeStateValue.equalPayload]
    rw [NativeStateValue.equal_plain node other plain otherPlain]
    exact (Bool.and_true _).symm

end

end KiraVm
