import KiraVm.ValueHashing

/-!
# Ordering values

The order of owned values is the lexicographic order of their contents.  A snapshot is
left out of it: the order finds it equal to everything.
-/

namespace KiraVm

/-! ## Ordered shapes -/

/-- The shape of an ordered content.  `done`, `also` and `each` are shapes of chains: of
no links, of one link and more, and of any number of links of one shape. -/
inductive Shape
  | int
  | bool
  | text
  | struct (fields : Shape)
  | array (element : Shape)
  | enum (payloads : UInt64 → Shape)
  | done
  | also (first rest : Shape)
  | each (element : Shape)

/-- A chain of a fixed number of links. -/
def Shape.listed : Shape → Bool
  | .done => true
  | .also _ rest => rest.listed
  | _ => false

namespace Content

def HasShape : Content → Shape → Prop
  | .int _, .int => True
  | .bool _, .bool => True
  | .text _, .text => True
  | .struct fields, .struct shapes => shapes.listed = true ∧ fields.HasShape shapes
  | .array elements, .array element => elements.HasShape (.each element)
  | .enum (some tag) payload, .enum payloads =>
    (payloads tag).listed = true ∧ payload.HasShape (payloads tag)
  | .done, .done => True
  | .also first rest, .also shape shapes => first.HasShape shape ∧ rest.HasShape shapes
  | .done, .each _ => True
  | .also first rest, .each element => first.HasShape element ∧ rest.HasShape (.each element)
  | _, _ => False

/-- Lexicographic order; a chain comes before the chains it begins. -/
def cmp : Content → Content → Ordering
  | .int value, .int other => compare value other
  | .bool value, .bool other => compare value other
  | .text value, .text other => compare value other
  | .struct fields, .struct others => cmp fields others
  | .array elements, .array others => cmp elements others
  | .enum tag payload, .enum other otherPayload =>
    (compare (tag.map UInt64.toNat) (other.map UInt64.toNat)).then (cmp payload otherPayload)
  | .done, .also _ _ => .lt
  | .also _ _, .done => .gt
  | .also first rest, .also other others => (cmp first other).then (cmp rest others)
  | _, _ => .eq

theorem cmp_swap (content other : Content) : cmp other content = (cmp content other).swap := by
  induction content generalizing other with
  | int value =>
    cases other with
    | int otherValue => exact (Std.OrientedCmp.eq_swap : compare otherValue value = _)
    | _ => rfl
  | bool value =>
    cases other with
    | bool otherValue => exact (Std.OrientedCmp.eq_swap : compare otherValue value = _)
    | _ => rfl
  | text value =>
    cases other with
    | text otherValue => exact (Std.OrientedCmp.eq_swap : compare otherValue value = _)
    | _ => rfl
  | struct fields ih =>
    cases other with
    | struct others => exact ih others
    | _ => rfl
  | array elements ih =>
    cases other with
    | array others => exact ih others
    | _ => rfl
  | enum tag payload ih =>
    cases other with
    | enum otherTag otherPayload =>
      rw [cmp, cmp, Ordering.swap_then, ih otherPayload]
      congr 1
      exact Std.OrientedCmp.eq_swap
    | _ => rfl
  | also first rest firstIh restIh =>
    cases other with
    | also otherFirst otherRest =>
      rw [cmp, cmp, Ordering.swap_then, firstIh otherFirst, restIh otherRest]
    | _ => rfl
  | _ => cases other <;> rfl

attribute [local simp] HasShape

/-! ## The order of one shape -/

variable {content : Content}

theorem HasShape.of_int (shaped : content.HasShape .int) : ∃ value, content = .int value := by
  cases content <;> first | exact ⟨_, rfl⟩ | simp at shaped

theorem HasShape.of_bool (shaped : content.HasShape .bool) : ∃ value, content = .bool value := by
  cases content <;> first | exact ⟨_, rfl⟩ | simp at shaped

theorem HasShape.of_text (shaped : content.HasShape .text) : ∃ value, content = .text value := by
  cases content <;> first | exact ⟨_, rfl⟩ | simp at shaped

theorem HasShape.of_struct {shapes : Shape} (shaped : content.HasShape (.struct shapes)) :
    ∃ fields, content = .struct fields ∧ shapes.listed = true ∧ fields.HasShape shapes := by
  cases content <;> first | exact ⟨_, rfl, shaped⟩ | simp at shaped

theorem HasShape.of_array {element : Shape} (shaped : content.HasShape (.array element)) :
    ∃ elements, content = .array elements ∧ elements.HasShape (.each element) := by
  cases content <;> first | exact ⟨_, rfl, shaped⟩ | simp at shaped

theorem HasShape.of_enum {payloads : UInt64 → Shape} (shaped : content.HasShape (.enum payloads)) :
    ∃ tag payload, content = .enum (some tag) payload ∧ (payloads tag).listed = true ∧
      payload.HasShape (payloads tag) := by
  cases content with
  | enum tag payload =>
    cases tag with
    | some tag => exact ⟨tag, payload, rfl, shaped⟩
    | none => simp at shaped
  | _ => simp at shaped

theorem HasShape.of_done (shaped : content.HasShape .done) : content = .done := by
  cases content <;> first | rfl | simp at shaped

theorem HasShape.of_also {shape shapes : Shape} (shaped : content.HasShape (.also shape shapes)) :
    ∃ first rest, content = .also first rest ∧ first.HasShape shape ∧ rest.HasShape shapes := by
  cases content <;> first | exact ⟨_, _, rfl, shaped⟩ | simp at shaped

theorem HasShape.of_each {element : Shape} (shaped : content.HasShape (.each element)) :
    content = .done ∨ ∃ first rest, content = .also first rest ∧ first.HasShape element ∧
      rest.HasShape (.each element) := by
  cases content <;> first
    | exact Or.inl rfl
    | exact Or.inr ⟨_, _, rfl, shaped⟩
    | simp at shaped

theorem HasShape.enum_shape {tag : Option UInt64} {payload : Content} {shape : Shape}
    (shaped : (enum tag payload).HasShape shape) :
    ∃ present payloads, tag = some present ∧ shape = .enum payloads := by
  cases tag with
  | none => cases shape <;> exact shaped.elim
  | some tag => cases shape <;> first | exact ⟨_, _, rfl, rfl⟩ | exact shaped.elim

theorem compare_tags_eq_iff {tag other : UInt64} :
    compare ((some tag).map UInt64.toNat) ((some other).map UInt64.toNat) = .eq ↔ tag = other := by
  rw [Std.LawfulEqCmp.compare_eq_iff_eq]
  simp [UInt64.toNat_inj]

/-- On a shape the order finds nothing equal but equal contents. -/
theorem cmp_eq_iff {other : Content} {shape : Shape} (shaped : content.HasShape shape)
    (otherShaped : other.HasShape shape) : cmp content other = .eq ↔ content = other := by
  induction content generalizing other shape with
  | int value =>
    cases shape <;> try exact shaped.elim
    obtain ⟨otherValue, rfl⟩ := otherShaped.of_int
    rw [cmp, Std.LawfulEqCmp.compare_eq_iff_eq, int.injEq]
  | bool value =>
    cases shape <;> try exact shaped.elim
    obtain ⟨otherValue, rfl⟩ := otherShaped.of_bool
    rw [cmp, Std.LawfulEqCmp.compare_eq_iff_eq, bool.injEq]
  | text value =>
    cases shape <;> try exact shaped.elim
    obtain ⟨otherValue, rfl⟩ := otherShaped.of_text
    rw [cmp, Std.LawfulEqCmp.compare_eq_iff_eq, text.injEq]
  | struct fields ih =>
    cases shape <;> try exact shaped.elim
    obtain ⟨others, rfl, -, othersShaped⟩ := otherShaped.of_struct
    rw [cmp, ih shaped.2 othersShaped, struct.injEq]
  | array elements ih =>
    cases shape <;> try exact shaped.elim
    obtain ⟨others, rfl, othersShaped⟩ := otherShaped.of_array
    rw [cmp, ih shaped othersShaped, array.injEq]
  | enum tag payload ih =>
    cases tag with
    | none => cases shape <;> exact shaped.elim
    | some tag =>
      cases shape <;> try exact shaped.elim
      obtain ⟨otherTag, otherPayload, rfl, -, payloadShaped⟩ := otherShaped.of_enum
      rw [cmp, Ordering.then_eq_eq, compare_tags_eq_iff, enum.injEq, Option.some_inj]
      constructor
      · rintro ⟨rfl, equal⟩
        exact ⟨rfl, (ih shaped.2 payloadShaped).mp equal⟩
      · rintro ⟨rfl, equal⟩
        exact ⟨rfl, (ih shaped.2 payloadShaped).mpr equal⟩
  | also first rest firstIh restIh =>
    cases shape <;> try exact shaped.elim
    · obtain ⟨otherFirst, otherRest, rfl, firstShaped, restShaped⟩ := otherShaped.of_also
      rw [cmp, Ordering.then_eq_eq, firstIh shaped.1 firstShaped, restIh shaped.2 restShaped,
        also.injEq]
    · rcases otherShaped.of_each with rfl | ⟨otherFirst, otherRest, rfl, firstShaped, restShaped⟩
      · simp [cmp]
      · rw [cmp, Ordering.then_eq_eq, firstIh shaped.1 firstShaped, restIh shaped.2 restShaped,
          also.injEq]
  | done =>
    cases shape <;> try exact shaped.elim
    · rw [otherShaped.of_done]
      exact iff_of_true rfl rfl
    · rcases otherShaped.of_each with rfl | ⟨otherFirst, otherRest, rfl, -, -⟩
      · exact iff_of_true rfl rfl
      · simp [cmp]
  | _ => cases shape <;> exact shaped.elim

/-- What comes before what comes before a third comes before it. -/
theorem cmp_lt_trans {other last : Content} {shape : Shape}
    (shaped : content.HasShape shape) (otherShaped : other.HasShape shape)
    (lastShaped : last.HasShape shape) (less : cmp content other = .lt)
    (next : cmp other last = .lt) : cmp content last = .lt := by
  induction content generalizing other last shape with
  | int value =>
    cases shape <;> try exact shaped.elim
    obtain ⟨otherValue, rfl⟩ := otherShaped.of_int
    obtain ⟨lastValue, rfl⟩ := lastShaped.of_int
    exact (Std.TransCmp.lt_trans less next : compare value lastValue = .lt)
  | bool value =>
    cases shape <;> try exact shaped.elim
    obtain ⟨otherValue, rfl⟩ := otherShaped.of_bool
    obtain ⟨lastValue, rfl⟩ := lastShaped.of_bool
    exact (Std.TransCmp.lt_trans less next : compare value lastValue = .lt)
  | text value =>
    cases shape <;> try exact shaped.elim
    obtain ⟨otherValue, rfl⟩ := otherShaped.of_text
    obtain ⟨lastValue, rfl⟩ := lastShaped.of_text
    exact (Std.TransCmp.lt_trans less next : compare value lastValue = .lt)
  | struct fields ih =>
    cases shape <;> try exact shaped.elim
    obtain ⟨others, rfl, -, othersShaped⟩ := otherShaped.of_struct
    obtain ⟨lasts, rfl, -, lastsShaped⟩ := lastShaped.of_struct
    exact @ih others lasts _ shaped.2 othersShaped lastsShaped less next
  | array elements ih =>
    cases shape <;> try exact shaped.elim
    obtain ⟨others, rfl, othersShaped⟩ := otherShaped.of_array
    obtain ⟨lasts, rfl, lastsShaped⟩ := lastShaped.of_array
    exact @ih others lasts _ shaped othersShaped lastsShaped less next
  | enum tag payload ih =>
    cases tag with
    | none => cases shape <;> exact shaped.elim
    | some tag =>
      cases shape <;> try exact shaped.elim
      obtain ⟨otherTag, otherPayload, rfl, -, payloadShaped⟩ := otherShaped.of_enum
      obtain ⟨lastTag, lastPayload, rfl, -, lastPayloadShaped⟩ := lastShaped.of_enum
      rw [cmp, Ordering.then_eq_lt, compare_tags_eq_iff] at less next ⊢
      rcases less with less | ⟨rfl, less⟩
      · rcases next with next | ⟨rfl, next⟩
        · exact Or.inl (Std.TransCmp.lt_trans less next)
        · exact Or.inl less
      · rcases next with next | ⟨rfl, next⟩
        · exact Or.inl next
        · exact Or.inr ⟨rfl, ih shaped.2 payloadShaped lastPayloadShaped less next⟩
  | also first rest firstIh restIh =>
    have links {shape shapes : Shape} {otherFirst otherRest lastFirst lastRest : Content}
        (firstShaped : first.HasShape shape) (otherFirstShaped : otherFirst.HasShape shape)
        (lastFirstShaped : lastFirst.HasShape shape) (restShaped : rest.HasShape shapes)
        (otherRestShaped : otherRest.HasShape shapes) (lastRestShaped : lastRest.HasShape shapes)
        (less : cmp (.also first rest) (.also otherFirst otherRest) = .lt)
        (next : cmp (.also otherFirst otherRest) (.also lastFirst lastRest) = .lt) :
        cmp (.also first rest) (.also lastFirst lastRest) = .lt := by
      rw [cmp, Ordering.then_eq_lt] at less next ⊢
      rw [cmp_eq_iff firstShaped otherFirstShaped] at less
      rw [cmp_eq_iff otherFirstShaped lastFirstShaped] at next
      rw [cmp_eq_iff firstShaped lastFirstShaped]
      rcases less with less | ⟨rfl, less⟩
      · rcases next with next | ⟨rfl, next⟩
        · exact Or.inl (firstIh firstShaped otherFirstShaped lastFirstShaped less next)
        · exact Or.inl less
      · rcases next with next | ⟨rfl, next⟩
        · exact Or.inl next
        · exact Or.inr ⟨rfl, restIh restShaped otherRestShaped lastRestShaped less next⟩
    cases shape <;> try exact shaped.elim
    · obtain ⟨otherFirst, otherRest, rfl, otherFirstShaped, otherRestShaped⟩ :=
        otherShaped.of_also
      obtain ⟨lastFirst, lastRest, rfl, lastFirstShaped, lastRestShaped⟩ := lastShaped.of_also
      exact links shaped.1 otherFirstShaped lastFirstShaped shaped.2 otherRestShaped
        lastRestShaped less next
    · rcases otherShaped.of_each with rfl | ⟨otherFirst, otherRest, rfl, otherFirstShaped,
        otherRestShaped⟩
      · cases less
      · rcases lastShaped.of_each with rfl | ⟨lastFirst, lastRest, rfl, lastFirstShaped,
          lastRestShaped⟩
        · cases next
        · exact links shaped.1 otherFirstShaped lastFirstShaped shaped.2 otherRestShaped
            lastRestShaped less next
  | done =>
    cases shape <;> try exact shaped.elim
    · rw [otherShaped.of_done] at less
      cases less
    · rcases lastShaped.of_each with rfl | ⟨lastFirst, lastRest, rfl, -, -⟩
      · rw [cmp_swap, less] at next
        cases next
      · rfl
  | _ => cases shape <;> exact shaped.elim

theorem cmp_isLE_trans {other last : Content} {shape : Shape}
    (shaped : content.HasShape shape) (otherShaped : other.HasShape shape)
    (lastShaped : last.HasShape shape) (before : (cmp content other).isLE = true)
    (next : (cmp other last).isLE = true) : (cmp content last).isLE = true := by
  rw [Ordering.isLE_iff_eq_lt_or_eq_eq] at before next ⊢
  rw [cmp_eq_iff shaped otherShaped] at before
  rw [cmp_eq_iff otherShaped lastShaped] at next
  rcases before with before | rfl
  · rcases next with next | rfl
    · exact Or.inl (cmp_lt_trans shaped otherShaped lastShaped before next)
    · exact Or.inl before
  · rcases next with next | rfl
    · exact Or.inl next
    · exact Or.inr ((cmp_eq_iff shaped shaped).mpr rfl)

/-! ## Equality of one shape -/

theorem HasShape.same_iff {world : World} {other : Content} {shape : Shape}
    (shaped : content.HasShape shape) (otherShaped : other.HasShape shape) :
    same world content other = true ↔ content = other := by
  induction content generalizing other shape with
  | int value =>
    cases shape <;> try exact shaped.elim
    obtain ⟨otherValue, rfl⟩ := otherShaped.of_int
    rw [same, beq_iff_eq, int.injEq]
  | bool value =>
    cases shape <;> try exact shaped.elim
    obtain ⟨otherValue, rfl⟩ := otherShaped.of_bool
    rw [same, beq_iff_eq, bool.injEq]
  | text value =>
    cases shape <;> try exact shaped.elim
    obtain ⟨otherValue, rfl⟩ := otherShaped.of_text
    rw [same, beq_iff_eq, text.injEq]
  | struct fields ih =>
    cases shape <;> try exact shaped.elim
    obtain ⟨others, rfl, -, othersShaped⟩ := otherShaped.of_struct
    rw [same, ih shaped.2 othersShaped, struct.injEq]
  | array elements ih =>
    cases shape <;> try exact shaped.elim
    obtain ⟨others, rfl, othersShaped⟩ := otherShaped.of_array
    rw [same, ih shaped othersShaped, array.injEq]
  | enum tag payload ih =>
    cases tag with
    | none => cases shape <;> exact shaped.elim
    | some tag =>
      cases shape <;> try exact shaped.elim
      obtain ⟨otherTag, otherPayload, rfl, -, payloadShaped⟩ := otherShaped.of_enum
      rw [same, Bool.and_eq_true, beq_iff_eq, enum.injEq, Option.some_inj]
      constructor
      · rintro ⟨rfl, equal⟩
        exact ⟨rfl, (ih shaped.2 payloadShaped).mp equal⟩
      · rintro ⟨rfl, equal⟩
        exact ⟨rfl, (ih shaped.2 payloadShaped).mpr equal⟩
  | also first rest firstIh restIh =>
    cases shape <;> try exact shaped.elim
    · obtain ⟨otherFirst, otherRest, rfl, firstShaped, restShaped⟩ := otherShaped.of_also
      rw [same, Bool.and_eq_true, firstIh shaped.1 firstShaped, restIh shaped.2 restShaped,
        also.injEq]
    · rcases otherShaped.of_each with rfl | ⟨otherFirst, otherRest, rfl, firstShaped, restShaped⟩
      · simp [same]
      · rw [same, Bool.and_eq_true, firstIh shaped.1 firstShaped, restIh shaped.2 restShaped,
          also.injEq]
  | done =>
    cases shape <;> try exact shaped.elim
    · rw [otherShaped.of_done]
      exact iff_of_true rfl rfl
    · rcases otherShaped.of_each with rfl | ⟨otherFirst, otherRest, rfl, -, -⟩
      · exact iff_of_true rfl rfl
      · simp [same]
  | _ => cases shape <;> exact shaped.elim

theorem HasShape.typeless {shape : Shape} (shaped : content.HasShape shape) :
    content.typeless = true := by
  induction content generalizing shape with
  | struct fields ih =>
    cases shape <;> try exact shaped.elim
    exact ih shaped.2
  | array elements ih =>
    cases shape <;> try exact shaped.elim
    exact @ih (.each _) shaped
  | enum tag payload ih =>
    cases tag with
    | none => cases shape <;> exact shaped.elim
    | some tag =>
      cases shape <;> try exact shaped.elim
      exact ih shaped.2
  | also first rest firstIh restIh =>
    rw [Content.typeless, Bool.and_eq_true]
    cases shape <;> try exact shaped.elim
    · exact ⟨firstIh shaped.1, restIh shaped.2⟩
    · exact ⟨firstIh shaped.1, restIh shaped.2⟩
  | type id => cases shape <;> exact shaped.elim
  | erased typeId payload ih => cases shape <;> exact shaped.elim
  | _ => rfl

end Content

namespace Heap

variable {world : World} {heap : Heap}

/-! ## The order of owned values -/

theorem compareAll_eq {depth : Nat} {order : Value → Value → Ordering} {values others : List Value}
    {shapes : Shape}
    (parts : ∀ value ∈ values, ∀ other ∈ others, ∀ shape,
      (heap.contentTo depth value).HasShape shape → (heap.contentTo depth other).HasShape shape →
        order value other = (heap.contentTo depth value).cmp (heap.contentTo depth other))
    (shaped : (Content.chain (values.map (heap.contentTo depth))).HasShape shapes)
    (otherShaped : (Content.chain (others.map (heap.contentTo depth))).HasShape shapes) :
    (compareAll order values others).then (compare values.length others.length) =
      (Content.chain (values.map (heap.contentTo depth))).cmp
        (.chain (others.map (heap.contentTo depth))) := by
  induction values generalizing others shapes with
  | nil =>
    cases others with
    | nil => rfl
    | cons other others =>
      have shorter : compare 0 (others.length + 1) = .lt := by
        rw [Nat.compare_eq_lt]
        omega
      simp [compareAll, Content.cmp, shorter]
  | cons value values ih =>
    cases others with
    | nil =>
      have longer : compare (values.length + 1) 0 = .gt := by
        rw [Nat.compare_eq_gt]
        omega
      simp [compareAll, Content.cmp, longer]
    | cons other others =>
      have heads : ∃ shape rest,
          (heap.contentTo depth value).HasShape shape ∧
            (heap.contentTo depth other).HasShape shape ∧
            (Content.chain (values.map (heap.contentTo depth))).HasShape rest ∧
            (Content.chain (others.map (heap.contentTo depth))).HasShape rest := by
        cases shapes <;> try exact shaped.elim
        · exact ⟨_, _, shaped.1, otherShaped.1, shaped.2, otherShaped.2⟩
        · exact ⟨_, _, shaped.1, otherShaped.1, shaped.2, otherShaped.2⟩
      obtain ⟨shape, rest, headShaped, otherHeadShaped, restShaped, otherRestShaped⟩ := heads
      have head := parts value List.mem_cons_self other List.mem_cons_self shape headShaped
        otherHeadShaped
      have tail := @ih others rest (fun one oneMember two twoMember =>
        parts one (List.mem_cons_of_mem _ oneMember) two (List.mem_cons_of_mem _ twoMember))
        restShaped otherRestShaped
      have lengths : compare (values.length + 1) (others.length + 1) =
          compare values.length others.length := by
        rw [Nat.compare_eq_ite_lt, Nat.compare_eq_ite_lt]
        simp
      have walk : compareAll order (value :: values) (other :: others) =
          (order value other).then (compareAll order values others) := by
        rw [compareAll]
        cases order value other <;> rfl
      rw [walk, List.length_cons, List.length_cons, lengths, Ordering.then_assoc, tail, head]
      rfl

theorem length_of_listed {contents others : List Content} {shapes : Shape}
    (listed : shapes.listed = true) (shaped : (Content.chain contents).HasShape shapes)
    (otherShaped : (Content.chain others).HasShape shapes) : contents.length = others.length := by
  induction contents generalizing others shapes with
  | nil =>
    cases others with
    | nil => rfl
    | cons other others =>
      cases shapes <;> first
        | exact shaped.elim
        | exact otherShaped.elim
        | cases listed
  | cons content contents ih =>
    cases shapes with
    | also shape rest =>
      cases others with
      | nil => exact otherShaped.elim
      | cons other others =>
        rw [List.length_cons, List.length_cons,
          @ih others rest listed shaped.2 otherShaped.2]
    | each element => cases listed
    | _ => exact shaped.elim

variable {depth : Nat} {value : Value}

theorem compareValuesTo_owned {other : Value} {shape : Shape} (owned : heap.Owned depth value)
    (otherOwned : heap.Owned depth other) (shaped : (heap.contentTo depth value).HasShape shape)
    (otherShaped : (heap.contentTo depth other).HasShape shape) :
    compareValuesTo world heap depth value other =
      (heap.contentTo depth value).cmp (heap.contentTo depth other) := by
  induction depth generalizing value other shape with
  | zero => exact owned.elim
  | succ depth ih =>
    have parts : ∀ part ∈ heap.parts value, ∀ otherPart ∈ heap.parts other, ∀ shape,
        (heap.contentTo depth part).HasShape shape →
          (heap.contentTo depth otherPart).HasShape shape →
            compareValuesTo world heap depth part otherPart =
              (heap.contentTo depth part).cmp (heap.contentTo depth otherPart) :=
      fun part member otherPart otherMember shape =>
        ih (owned.2 part member) (otherOwned.2 otherPart otherMember)
    have otherStored := otherOwned.1
    cases value with
    | nativeSnapshot id => exact owned.1.elim
    | struct id =>
      cases other with
      | struct otherId =>
        cases shape <;> try exact shaped.elim
        have lengths := length_of_listed shaped.1 shaped.2 otherShaped.2
        rw [List.length_map, List.length_map] at lengths
        have walk := @compareAll_eq heap depth (compareValuesTo world heap depth)
          (heap.fields id) (heap.fields otherId) _ parts shaped.2 otherShaped.2
        rw [lengths, Nat.compare_eq_eq.mpr rfl, Ordering.then_eq] at walk
        exact walk
      | nativeSnapshot id => exact otherStored.elim
      | enum otherId =>
        obtain ⟨_, _, _, rfl⟩ := otherShaped.enum_shape
        exact shaped.elim
      | _ => cases shape <;> first | exact shaped.elim | exact otherShaped.elim
    | array id =>
      cases other with
      | array otherId =>
        cases shape <;> try exact shaped.elim
        have walk := @compareAll_eq heap depth (compareValuesTo world heap depth)
          (heap.elements id) (heap.elements otherId) (.each _) parts shaped otherShaped
        refine Eq.trans ?_ walk
        simp only [compareValuesTo]
        cases compareAll (compareValuesTo world heap depth) (heap.elements id)
          (heap.elements otherId) <;> rfl
      | nativeSnapshot id => exact otherStored.elim
      | enum otherId =>
        obtain ⟨_, _, _, rfl⟩ := otherShaped.enum_shape
        exact shaped.elim
      | _ => cases shape <;> first | exact shaped.elim | exact otherShaped.elim
    | enum id =>
      obtain ⟨-, payloads, -, rfl⟩ := shaped.enum_shape
      cases other with
      | enum otherId =>
        obtain ⟨tag, payload, isTag, listed, payloadShaped⟩ := shaped.of_enum
        obtain ⟨otherTag, otherPayload, isOtherTag, -, otherPayloadShaped⟩ :=
          otherShaped.of_enum
        rw [contentTo] at isTag isOtherTag
        injection isTag with tagEq payloadEq
        injection isOtherTag with otherTagEq otherPayloadEq
        subst payloadEq otherPayloadEq
        simp only [compareValuesTo, contentTo, Content.cmp, tagEq, otherTagEq]
        by_cases sameTag : tag = otherTag
        · subst sameTag
          have lengths := length_of_listed listed payloadShaped otherPayloadShaped
          rw [List.length_map, List.length_map] at lengths
          have walk := @compareAll_eq heap depth (compareValuesTo world heap depth)
            (heap.enumPayloadRef id).toList (heap.enumPayloadRef otherId).toList _ parts
            payloadShaped otherPayloadShaped
          rw [lengths, Nat.compare_eq_eq.mpr rfl, Ordering.then_eq] at walk
          rw [← walk, Content.compare_tags_eq_iff.mpr rfl, Ordering.eq_then]
          cases heap.enumPayloadRef id with
          | none => cases heap.enumPayloadRef otherId <;> rfl
          | some part =>
            cases heap.enumPayloadRef otherId with
            | none => rfl
            | some otherPart =>
              simp only [Option.toList_some, compareAll]
              cases compareValuesTo world heap depth part otherPart <;> rfl
        · have different := mt Content.compare_tags_eq_iff.mp sameTag
          cases order : compare ((some tag).map UInt64.toNat)
              ((some otherTag).map UInt64.toNat) with
          | eq => exact absurd order different
          | lt => rfl
          | gt => rfl
      | nativeSnapshot id => exact otherStored.elim
      | _ => exact otherShaped.elim
    | _ =>
      cases other with
      | nativeSnapshot id => exact otherStored.elim
      | enum otherId =>
        obtain ⟨_, _, _, rfl⟩ := otherShaped.enum_shape
        exact shaped.elim
      | _ => cases shape <;> first | exact shaped.elim | exact otherShaped.elim | rfl

theorem compareValues_owned {otherDepth : Nat} {other : Value} {shape : Shape}
    (owned : heap.Owned depth value) (otherOwned : heap.Owned otherDepth other)
    (shaped : (heap.content value).HasShape shape)
    (otherShaped : (heap.content other).HasShape shape) :
    compareValues world heap value other = (heap.content value).cmp (heap.content other) :=
  compareValuesTo_owned owned.within otherOwned.within shaped otherShaped

/-! ## Order and equality -/

/-- The order finds a snapshot equal to everything. -/
theorem compareValues_snapshot (id : Nat) (value : Value) :
    compareValues world heap (.nativeSnapshot id) value = .eq ∧
      compareValues world heap value (.nativeSnapshot id) = .eq := by
  cases value <;> exact ⟨rfl, rfl⟩

theorem shape_of_member {contents : List Content} {shapes : Shape}
    (shaped : (Content.chain contents).HasShape shapes) {content : Content}
    (member : content ∈ contents) : ∃ shape, content.HasShape shape := by
  induction contents generalizing shapes with
  | nil => cases member
  | cons first rest ih =>
    have links : (∃ shape, first.HasShape shape) ∧
        ∃ shapes, (Content.chain rest).HasShape shapes := by
      cases shapes <;> first
        | exact shaped.elim
        | exact ⟨⟨_, shaped.1⟩, _, shaped.2⟩
    rcases List.mem_cons.mp member with rfl | inside
    · exact links.1
    · obtain ⟨-, shapes, restShaped⟩ := links
      exact ih restShaped inside

theorem blockless_of_shape {shape : Shape} (owned : heap.Owned depth value)
    (shaped : (heap.contentTo depth value).HasShape shape) : heap.blockless depth value = true := by
  induction depth generalizing value shape with
  | zero => exact owned.elim
  | succ depth ih =>
    have blocklessParts {shapes : Shape} (parts : (Content.chain ((heap.parts value).map
        (heap.contentTo depth))).HasShape shapes) :
        (heap.parts value).all (heap.blockless depth) = true := by
      rw [List.all_eq_true]
      intro part member
      obtain ⟨partShape, partShaped⟩ := shape_of_member parts (List.mem_map_of_mem member)
      exact ih (owned.2 part member) partShaped
    cases value with
    | struct id =>
      cases shape <;> try exact shaped.elim
      exact blocklessParts shaped.2
    | array id =>
      cases shape <;> try exact shaped.elim
      exact @blocklessParts (.each _) shaped
    | enum id =>
      obtain ⟨_, payloads, _, rfl⟩ := shaped.enum_shape
      obtain ⟨tag, payload, isTag, -, payloadShaped⟩ := shaped.of_enum
      rw [contentTo] at isTag
      injection isTag with tagEq payloadEq
      subst payloadEq
      exact blocklessParts payloadShaped
    | cBlock id => cases shape <;> exact shaped.elim
    | erased id => cases shape <;> exact shaped.elim
    | _ => rfl

/-- The order is a total preorder on some values of a heap, and finds equal what
equality does. -/
structure Ordered (world : World) (heap : Heap) (among : Value → Prop) : Prop where
  swap : ∀ value other, among value → among other →
    compareValues world heap other value = (compareValues world heap value other).swap
  trans : ∀ value other last, among value → among other → among last →
    (compareValues world heap value other).isLE = true →
      (compareValues world heap other last).isLE = true →
        (compareValues world heap value last).isLE = true
  equal : ∀ value other, among value → among other →
    (compareValues world heap value other = .eq ↔ valuesEqual world heap value other = true)

/-- A snapshot is only among values that it is equal to: owned values of the contents of
its node, which is plain, and snapshots of nodes that are equal to its own. -/
structure Undivided (world : World) (heap : Heap) (among : Value → Prop) : Prop where
  owned : ∀ id node value, among (.nativeSnapshot id) → among value →
    heap.snapshotNode id = some node → (∃ depth, heap.Owned depth value) →
      node.plain = true ∧ heap.content value = node.content
  snapshots : ∀ id other node otherNode, among (.nativeSnapshot id) →
    among (.nativeSnapshot other) → heap.snapshotNode id = some node →
      heap.snapshotNode other = some otherNode → node.equal world.floats otherNode = true

/-- The order of values of one ordered shape is a total preorder that agrees with
equality exactly when no snapshot is among values that it is not equal to. -/
theorem ordered_iff_undivided {among : Value → Prop} {shape : Shape}
    (readable : ∀ value, among value → heap.Readable value)
    (shaped : ∀ value, among value → (heap.content value).HasShape shape) :
    Ordered world heap among ↔ Undivided world heap among := by
  have mixed {id : Nat} {node : NativeStateValue} {value : Value} {depth : Nat}
      (snapshotAmong : among (.nativeSnapshot id)) (isAmong : among value)
      (found : heap.snapshotNode id = some node) (owned : heap.Owned depth value) :
      valueEqualsNode world.floats heap value node = true ↔
        node.plain = true ∧ heap.content value = node.content := by
    have nodeShaped := shaped _ snapshotAmong
    rw [content_snapshot found] at nodeShaped
    rw [valueEqualsNode_owned owned.within, blockless_of_shape owned.within (shaped value isAmong),
      Bool.and_true, Bool.and_eq_true]
    change Content.same world (heap.content value) node.content = true ∧ _ ↔ _
    rw [(shaped value isAmong).same_iff nodeShaped, and_comm]
  constructor
  · intro ordered
    refine ⟨?_, ?_⟩
    · rintro id node value snapshotAmong isAmong found ⟨depth, owned⟩
      have equal := (ordered.equal _ value snapshotAmong isAmong).mp
        (compareValues_snapshot id value).1
      rw [(valuesEqual_snapshot owned.not_snapshot found).2] at equal
      exact (mixed snapshotAmong isAmong found owned).mp equal
    · intro id other node otherNode isAmong otherAmong found otherFound
      have equal := (ordered.equal _ _ isAmong otherAmong).mp
        (compareValues_snapshot id (.nativeSnapshot other)).1
      rwa [valuesEqual_snapshots found otherFound] at equal
  · intro undivided
    refine ⟨?_, ?_, ?_⟩
    · intro value other isAmong otherAmong
      rcases readable value isAmong with ⟨depth, owned⟩ | ⟨id, node, rfl, held⟩
      · rcases readable other otherAmong with ⟨otherDepth, otherOwned⟩ | ⟨otherId, otherNode, rfl, -⟩
        · rw [compareValues_owned owned otherOwned (shaped value isAmong) (shaped other otherAmong),
            compareValues_owned otherOwned owned (shaped other otherAmong) (shaped value isAmong)]
          exact Content.cmp_swap _ _
        · rw [(compareValues_snapshot otherId value).1, (compareValues_snapshot otherId value).2]
          rfl
      · rw [(compareValues_snapshot id other).1, (compareValues_snapshot id other).2]
        rfl
    · intro value other last isAmong otherAmong lastAmong before next
      rcases readable value isAmong with ⟨depth, owned⟩ | ⟨id, node, rfl, -⟩
      · rcases readable last lastAmong with ⟨lastDepth, lastOwned⟩ | ⟨lastId, lastNode, rfl, -⟩
        · rw [compareValues_owned owned lastOwned (shaped value isAmong) (shaped last lastAmong)]
          rcases readable other otherAmong with ⟨otherDepth, otherOwned⟩ | ⟨id, node, rfl, held⟩
          · rw [compareValues_owned owned otherOwned (shaped value isAmong)
              (shaped other otherAmong)] at before
            rw [compareValues_owned otherOwned lastOwned (shaped other otherAmong)
              (shaped last lastAmong)] at next
            exact Content.cmp_isLE_trans (shaped value isAmong) (shaped other otherAmong)
              (shaped last lastAmong) before next
          · have same := (undivided.owned id node value otherAmong isAmong held.found
              ⟨depth, owned⟩).2
            have lastSame := (undivided.owned id node last otherAmong lastAmong held.found
              ⟨lastDepth, lastOwned⟩).2
            rw [(Content.cmp_eq_iff (shaped value isAmong) (shaped last lastAmong)).mpr
              (same.trans lastSame.symm)]
            rfl
        · rw [(compareValues_snapshot lastId value).2]
          rfl
      · rw [(compareValues_snapshot id last).1]
        rfl
    · intro value other isAmong otherAmong
      rcases readable value isAmong with ⟨depth, owned⟩ | ⟨id, node, rfl, held⟩
      · rcases readable other otherAmong with ⟨otherDepth, otherOwned⟩ | ⟨otherId, otherNode, rfl, otherHeld⟩
        · rw [compareValues_owned owned otherOwned (shaped value isAmong) (shaped other otherAmong),
            Content.cmp_eq_iff (shaped value isAmong) (shaped other otherAmong),
            valuesEqual_owned owned otherOwned, (shaped value isAmong).typeless, Bool.and_true,
            (shaped value isAmong).same_iff (shaped other otherAmong)]
        · rw [(compareValues_snapshot otherId value).2,
            (valuesEqual_snapshot owned.not_snapshot otherHeld.found).1,
            mixed otherAmong isAmong otherHeld.found owned]
          exact iff_of_true rfl
            (undivided.owned otherId otherNode value otherAmong isAmong otherHeld.found ⟨depth, owned⟩)
      · rw [(compareValues_snapshot id other).1]
        rcases readable other otherAmong with ⟨otherDepth, otherOwned⟩ | ⟨otherId, otherNode, rfl, otherHeld⟩
        · rw [(valuesEqual_snapshot otherOwned.not_snapshot held.found).2,
            mixed isAmong otherAmong held.found otherOwned]
          exact iff_of_true rfl
            (undivided.owned id node other isAmong otherAmong held.found ⟨otherDepth, otherOwned⟩)
        · rw [valuesEqual_snapshots held.found otherHeld.found]
          exact iff_of_true rfl (undivided.snapshots id otherId node otherNode isAmong otherAmong
            held.found otherHeld.found)

/-- A struct that is read and one of the same fields that is built are ordered. -/
theorem read_and_built_ordered :
    Ordered World.exact (readAndBuilt [.int 5]).2
      fun value => value = .nativeSnapshot 0 ∨ value = .struct 1 := by
  have built : (readAndBuilt [.int 5]).2.SnapshotOf 0 (.struct [.int 5]) := ⟨0, rfl⟩
  apply (@ordered_iff_undivided World.exact _ _ (.struct (.also .int .done)) ?_ ?_).mpr
  · refine ⟨?_, ?_⟩
    · rintro id node value (same | same) isAmong found ⟨depth, owned⟩
      · cases same
        cases found
        rcases isAmong with rfl | rfl
        · exact absurd rfl (owned.not_snapshot 0)
        · exact ⟨rfl, rfl⟩
      · cases same
    · rintro id other node otherNode (same | same) (otherSame | otherSame) found otherFound
      · cases same
        cases otherSame
        cases found
        cases otherFound
        decide
      · cases otherSame
      · cases same
      · cases same
  · rintro value (rfl | rfl)
    · exact Or.inr ⟨0, _, rfl, built⟩
    · exact readAndBuilt_readable
  · rintro value (rfl | rfl)
    · exact ⟨rfl, trivial, trivial⟩
    · exact ⟨rfl, trivial, trivial⟩

def readingTwo : Heap :=
  ((reading [.int 5]).readStateNode (.struct [.int 7])).2

/-- The order finds two structs that are read equal, and equality does not. -/
theorem read_divided :
    (readingTwo.Readable (.nativeSnapshot 0) ∧ readingTwo.Readable (.nativeSnapshot 1)) ∧
      ((readingTwo.content (.nativeSnapshot 0)).HasShape (.struct (.also .int .done)) ∧
        (readingTwo.content (.nativeSnapshot 1)).HasShape (.struct (.also .int .done))) ∧
      compareValues World.exact readingTwo (.nativeSnapshot 0) (.nativeSnapshot 1) = .eq ∧
      valuesEqual World.exact readingTwo (.nativeSnapshot 0) (.nativeSnapshot 1) = false :=
  ⟨⟨Or.inr ⟨0, .struct [.int 5], rfl, 0, rfl⟩, Or.inr ⟨1, .struct [.int 7], rfl, 0, rfl⟩⟩,
    ⟨⟨rfl, trivial, trivial⟩, rfl, trivial, trivial⟩, rfl, by decide⟩

end Heap

end KiraVm
