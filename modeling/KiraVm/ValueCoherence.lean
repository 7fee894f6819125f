import KiraVm.ValueEquality

/-!
# Equality and representation

Equality is an equivalence on values, and owning a snapshot changes no answer, exactly
when no compared value reaches one of the arms that equality lacks.
-/

namespace KiraVm

/-! ## What equality finds in a node -/

mutual

theorem Heap.plain_of_valueEqualsNode {floats : Floats} {heap : Heap} {value : Value} :
    (node : NativeStateValue) → heap.valueEqualsNode floats value node = true →
      node.plain = true
  | .int _, _ | .float _, _ | .bool _, _ | .string _, _ | .rawPtr _, _ => rfl
  | .struct fields, equal => by
    cases value with
    | struct id =>
      simp only [Heap.valueEqualsNode] at equal
      exact Heap.plain_of_valuesEqualNodes fields equal
    | _ => simp [Heap.valueEqualsNode] at equal
  | .array elements, equal => by
    cases value with
    | array id =>
      simp only [Heap.valueEqualsNode] at equal
      exact Heap.plain_of_valuesEqualNodes elements equal
    | _ => simp [Heap.valueEqualsNode] at equal
  | .any typeId payload, equal => by
    cases value with
    | erased id =>
      simp only [Heap.valueEqualsNode, Bool.and_eq_true] at equal
      have payloads := equal.2
      split at payloads
      · exact Heap.plain_of_valueEqualsNode payload payloads
      · cases payloads
    | _ => simp [Heap.valueEqualsNode] at equal
  | .enum tag payload, equal => by
    cases value with
    | enum id =>
      simp only [Heap.valueEqualsNode, Bool.and_eq_true] at equal
      exact Heap.plain_of_payloadEqualsNode payload equal.2
    | _ => simp [Heap.valueEqualsNode] at equal
  | .number _, equal | .dropStruct _ _, equal | .cell _ _, equal | .nativeState _ _ _, equal
  | .cBlock _, equal => by
    cases value <;> simp [Heap.valueEqualsNode] at equal

theorem Heap.plain_of_valuesEqualNodes {floats : Floats} {heap : Heap} {values : List Value} :
    (nodes : List NativeStateValue) → heap.valuesEqualNodes floats values nodes = true →
      NativeStateValue.allPlain nodes = true
  | [], _ => rfl
  | node :: nodes, equal => by
    cases values with
    | nil => simp [Heap.valuesEqualNodes] at equal
    | cons value values =>
      simp only [Heap.valuesEqualNodes, Bool.and_eq_true] at equal
      simp only [NativeStateValue.allPlain, Bool.and_eq_true]
      exact ⟨Heap.plain_of_valueEqualsNode node equal.1,
        Heap.plain_of_valuesEqualNodes nodes equal.2⟩

theorem Heap.plain_of_payloadEqualsNode {floats : Floats} {heap : Heap} {value : Option Value} :
    (payload : Option NativeStateValue) → heap.payloadEqualsNode floats value payload = true →
      NativeStateValue.payloadPlain payload = true
  | none, _ => rfl
  | some node, equal => by
    cases value with
    | none => simp [Heap.payloadEqualsNode] at equal
    | some value =>
      simp only [Heap.payloadEqualsNode] at equal
      exact Heap.plain_of_valueEqualsNode node equal

end

mutual

/-- Callback state holds no type. -/
theorem NativeStateValue.content_typeless :
    (node : NativeStateValue) → node.content.typeless = true
  | .struct fields => NativeStateValue.contents_typeless fields
  | .dropStruct _ fields => NativeStateValue.contents_typeless fields
  | .array elements => NativeStateValue.contents_typeless elements
  | .any _ payload => by
    simp only [NativeStateValue.content, Content.typeless, Bool.and_true]
    exact NativeStateValue.content_typeless payload
  | .enum _ none => rfl
  | .enum _ (some node) => by
    simp only [NativeStateValue.content, NativeStateValue.payloadContent, Content.typeless,
      Bool.and_true]
    exact NativeStateValue.content_typeless node
  | .cell handle vmOwned => by
    simp only [NativeStateValue.content]
    split <;> rfl
  | .int _ | .float _ | .bool _ | .string _ | .number _ | .rawPtr _ | .nativeState _ _ _
  | .cBlock _ => rfl

theorem NativeStateValue.contents_typeless :
    (nodes : List NativeStateValue) → (NativeStateValue.contents nodes).typeless = true
  | [] => rfl
  | node :: nodes => by
    simp only [NativeStateValue.contents, Content.typeless, Bool.and_eq_true]
    exact ⟨NativeStateValue.content_typeless node, NativeStateValue.contents_typeless nodes⟩

end

namespace Heap

theorem buildState_not_snapshot {consuming : Bool} {heap : Heap} (node : NativeStateValue)
    (id : Nat) : (heap.buildState consuming node).1 ≠ .nativeSnapshot id := by
  cases node with
  | cell handle vmOwned =>
    simp only [buildState, readCell, copyValue]
    split
    · split <;> simp
    · simp
  | string text => simp [buildState, allocStr]
  | _ => simp [buildState]

/-! ## Equality on readable values -/

def SnapshotOf (heap : Heap) (id : Nat) (node : NativeStateValue) : Prop :=
  ∃ others, heap.object? id = some (.snapshot node (others + 1))

/-- An owned value, or a snapshot. -/
def Readable (heap : Heap) (value : Value) : Prop :=
  (∃ depth, heap.Owned depth value) ∨ ∃ id node, value = .nativeSnapshot id ∧ heap.SnapshotOf id node

/-- Own a value while the other side of a comparison stays: a snapshot that is both
sides is held once more first. -/
def ownBeside (heap : Heap) (value other : Value) : Value × Heap :=
  if value = other then (heap.copyValue value).2.own value else heap.own value

/-- Equality is an equivalence on some values of a heap, and no comparison of a snapshot
with one of them is changed by owning the snapshot. -/
structure Coherent (world : World) (heap : Heap) (among : Value → Prop) : Prop where
  refl : ∀ value, among value → valuesEqual world heap value value = true
  symm : ∀ value other, among value → among other →
    valuesEqual world heap value other = true → valuesEqual world heap other value = true
  trans : ∀ value other last, among value → among other → among last →
    valuesEqual world heap value other = true → valuesEqual world heap other last = true →
      valuesEqual world heap value last = true
  owned : ∀ id other, among (.nativeSnapshot id) → among other →
    valuesEqual world (heap.ownBeside (.nativeSnapshot id) other).2
        (heap.ownBeside (.nativeSnapshot id) other).1 other =
      valuesEqual world heap (.nativeSnapshot id) other ∧
    valuesEqual world (heap.ownBeside (.nativeSnapshot id) other).2 other
        (heap.ownBeside (.nativeSnapshot id) other).1 =
      valuesEqual world heap other (.nativeSnapshot id)

/-- No comparison among some values of a heap needs an arm that equality lacks: no owned
value holds a type, no snapshot holds a decimal, a dropping struct, a cell, a token or a
block, and no owned value of the same contents as a snapshot holds a block. -/
structure Covered (world : World) (heap : Heap) (among : Value → Prop) : Prop where
  typeless : ∀ value, among value → (∃ depth, heap.Owned depth value) →
    (heap.content value).typeless = true
  plain : ∀ id node, among (.nativeSnapshot id) → heap.snapshotNode id = some node →
    node.plain = true
  blockless : ∀ id node value, among (.nativeSnapshot id) → among value →
    heap.snapshotNode id = some node → (∃ depth, heap.Owned depth value) →
      Content.same world (heap.content value) node.content = true →
        heap.blockless (heap.slots.length + 1) value = true

variable {world : World} {heap : Heap}

variable {id : Nat} {node : NativeStateValue} {depth : Nat} {value other : Value}

theorem SnapshotOf.found (held : heap.SnapshotOf id node) : heap.snapshotNode id = some node := by
  obtain ⟨others, isSnapshot⟩ := held
  exact snapshotNode_eq_some_iff.mpr ⟨_, isSnapshot⟩

theorem valuesEqual_owned {otherDepth : Nat} (owned : heap.Owned depth value)
    (otherOwned : heap.Owned otherDepth other) :
    valuesEqual world heap value other =
      (Content.same world (heap.content value) (heap.content other) &&
        (heap.content value).typeless) :=
  valuesEqualTo_owned owned.within otherOwned.within

theorem Owned.not_snapshot (owned : heap.Owned depth value) (id : Nat) :
    value ≠ .nativeSnapshot id := by
  rintro rfl
  cases depth with
  | zero => exact owned.elim
  | succ depth => exact owned.1.elim

theorem valuesEqual_snapshot {value : Value} {id : Nat} {node : NativeStateValue}
    (different : ∀ other, value ≠ .nativeSnapshot other) (found : heap.snapshotNode id = some node) :
    valuesEqual world heap value (.nativeSnapshot id) =
        valueEqualsNode world.floats heap value node ∧
      valuesEqual world heap (.nativeSnapshot id) value =
        valueEqualsNode world.floats heap value node := by
  unfold valuesEqual valuesEqualTo
  cases value with
  | nativeSnapshot other => exact absurd rfl (different other)
  | _ => exact ⟨by simp only [found], by simp only [found]⟩

theorem valuesEqual_snapshots {other : Nat} {otherNode : NativeStateValue}
    (found : heap.snapshotNode id = some node) (otherFound : heap.snapshotNode other = some otherNode) :
    valuesEqual world heap (.nativeSnapshot id) (.nativeSnapshot other) =
      node.equal world.floats otherNode := by
  unfold valuesEqual valuesEqualTo
  simp only [found, otherFound]

theorem content_snapshot (found : heap.snapshotNode id = some node) :
    heap.content (.nativeSnapshot id) = node.content := by
  simp only [content, contentTo, found]

theorem Covered.valuesEqual_eq {among : Value → Prop} (covered : Covered world heap among)
    (laws : Content.EqualityLaws world) (isAmong : among value) (otherAmong : among other)
    (readable : heap.Readable value) (otherReadable : heap.Readable other)
    (regular : (heap.content value).Regular world)
    (otherRegular : (heap.content other).Regular world) :
    valuesEqual world heap value other =
      Content.same world (heap.content value) (heap.content other) := by
  have mixed (id : Nat) (node : NativeStateValue) (value : Value) (isAmong : among value)
      (snapshotAmong : among (.nativeSnapshot id)) (found : heap.snapshotNode id = some node)
      (depth : Nat) (owned : heap.Owned depth value) :
      valueEqualsNode world.floats heap value node =
        Content.same world (heap.content value) node.content := by
    rw [valueEqualsNode_owned owned.within, covered.plain id node snapshotAmong found,
      Bool.true_and]
    change (Content.same world (heap.content value) node.content && _) = _
    cases same : Content.same world (heap.content value) node.content with
    | false => rfl
    | true => exact covered.blockless id node value snapshotAmong isAmong found ⟨depth, owned⟩ same
  rcases readable with ⟨depth, owned⟩ | ⟨id, node, rfl, held⟩
  · rcases otherReadable with ⟨otherDepth, otherOwned⟩ | ⟨otherId, otherNode, rfl, otherHeld⟩
    · rw [valuesEqual_owned owned otherOwned, covered.typeless value isAmong ⟨depth, owned⟩,
        Bool.and_true]
    · have otherFound := otherHeld.found
      rw [(valuesEqual_snapshot owned.not_snapshot otherFound).1, content_snapshot otherFound]
      exact mixed otherId otherNode value isAmong otherAmong otherFound depth owned
  · have found := held.found
    rcases otherReadable with ⟨otherDepth, otherOwned⟩ | ⟨otherId, otherNode, rfl, otherHeld⟩
    · rw [(valuesEqual_snapshot otherOwned.not_snapshot found).2,
        mixed id node other otherAmong isAmong found otherDepth otherOwned, content_snapshot found]
      rw [content_snapshot found] at regular
      rw [Bool.eq_iff_iff]
      exact ⟨Content.same_symm laws otherRegular regular,
        Content.same_symm laws regular otherRegular⟩
    · have otherFound := otherHeld.found
      rw [valuesEqual_snapshots found otherFound, content_snapshot found,
        content_snapshot otherFound]
      exact NativeStateValue.equal_plain node otherNode (covered.plain id node isAmong found)
        (covered.plain otherId otherNode otherAmong otherFound)

/-! ## Owning a snapshot beside a value -/

theorem own_not_snapshot (found : heap.snapshotNode id = some node) (other : Nat) :
    (heap.own (.nativeSnapshot id)).1 ≠ .nativeSnapshot other := by
  have owned : (heap.own (.nativeSnapshot id)).1 = (heap.buildState false node).1 := by
    simp only [own, found]
    rfl
  rw [owned]
  exact buildState_not_snapshot node other

theorem Sound.ownBeside (sound : heap.Sound) (held : heap.SnapshotOf id node) (other : Value) :
    Keeps (fun slot => slot = id) heap (heap.ownBeside (.nativeSnapshot id) other).2 ∧
      (∀ otherId otherNode, other = .nativeSnapshot otherId →
        heap.snapshotNode otherId = some otherNode →
          (heap.ownBeside (.nativeSnapshot id) other).2.snapshotNode otherId = some otherNode) ∧
      (node.plain = true → (heap.ownBeside (.nativeSnapshot id) other).2.Reads
        (heap.ownBeside (.nativeSnapshot id) other).1 node.content) ∧
      ∀ last, (heap.ownBeside (.nativeSnapshot id) other).1 ≠ .nativeSnapshot last := by
  have found := held.found
  obtain ⟨others, isSnapshot⟩ := held
  by_cases same : Value.nativeSnapshot id = other
  · have copied : (heap.copyValue (.nativeSnapshot id)).2 = heap.share id := by
      simp only [copyValue, isSnapshot]
    have shared := sound.share id
    have stillFound : (heap.share id).object? id = some (.snapshot node (others + 1 + 1)) := by
      simp only [Heap.share, isSnapshot]
      exact (sound.setObject isSnapshot).2.1
    have stillNode : (heap.share id).snapshotNode id = some node :=
      snapshotNode_eq_some_iff.mpr ⟨_, stillFound⟩
    have isOwned : heap.ownBeside (.nativeSnapshot id) other =
        (heap.share id).own (.nativeSnapshot id) := by
      rw [Heap.ownBeside, if_pos same, copied]
    obtain ⟨keeps, kept, reads⟩ := shared.sound.own stillFound
    rw [isOwned]
    refine ⟨shared.keeps.trans keeps, ?_, reads, own_not_snapshot stillNode⟩
    intro otherId otherNode isOther otherFound
    rw [← same] at isOther
    injection isOther with sameId
    subst sameId
    rw [← otherFound, found]
    exact kept (by omega)
  · have isOwned : heap.ownBeside (.nativeSnapshot id) other = heap.own (.nativeSnapshot id) := by
      rw [Heap.ownBeside, if_neg same]
    obtain ⟨keeps, -, reads⟩ := sound.own isSnapshot
    rw [isOwned]
    refine ⟨keeps, ?_, reads, own_not_snapshot found⟩
    rintro otherId otherNode rfl otherFound
    exact keeps.snapshotNode (fun lost => same (by rw [lost])) otherFound

/-! ## When equality is coherent -/

theorem Owned.content_eq (owned : heap.Owned depth value) :
    heap.content value = heap.contentTo depth value := by
  rcases Nat.le_total depth (heap.slots.length + 1) with deeper | deeper
  · exact owned.contentTo_eq deeper
  · exact (owned.within.contentTo_eq deeper).symm

theorem Reads.content_eq {content : Content} (reads : heap.Reads value content) :
    ∃ depth, heap.Owned depth value ∧ heap.content value = content := by
  obtain ⟨depth, owned, same, -⟩ := reads
  exact ⟨depth, owned, owned.content_eq.trans same⟩

theorem Owned.beside {next : Heap} (owned : heap.Owned depth value)
    (found : heap.snapshotNode id = some node) (keeps : Keeps (fun slot => slot = id) heap next) :
    next.Owned depth value ∧ next.content value = heap.content value := by
  obtain ⟨nextOwned, same, -⟩ := keeps.owned owned (by
    rintro slot rfl
    exact ⟨node, found⟩)
  refine ⟨nextOwned, ?_⟩
  rw [nextOwned.content_eq, same, owned.content_eq]

theorem Readable.snapshot (readable : heap.Readable (.nativeSnapshot id)) :
    ∃ node, heap.SnapshotOf id node := by
  rcases readable with ⟨depth, owned⟩ | ⟨other, node, same, held⟩
  · exact absurd rfl (owned.not_snapshot id)
  · injection same with sameId
    exact ⟨node, by rwa [sameId]⟩

theorem Covered.owned {among : Value → Prop} (covered : Covered world heap among)
    (laws : Content.EqualityLaws world) (sound : heap.Sound)
    (readable : ∀ value, among value → heap.Readable value)
    (regular : ∀ value, among value → (heap.content value).Regular world)
    (isAmong : among (.nativeSnapshot id)) (otherAmong : among other) :
    valuesEqual world (heap.ownBeside (.nativeSnapshot id) other).2
        (heap.ownBeside (.nativeSnapshot id) other).1 other =
      Content.same world (heap.content (.nativeSnapshot id)) (heap.content other) ∧
    valuesEqual world (heap.ownBeside (.nativeSnapshot id) other).2 other
        (heap.ownBeside (.nativeSnapshot id) other).1 =
      Content.same world (heap.content other) (heap.content (.nativeSnapshot id)) := by
  obtain ⟨node, held⟩ := (readable _ isAmong).snapshot
  have plain := covered.plain id node isAmong held.found
  obtain ⟨keeps, still, reads, notSnapshot⟩ := sound.ownBeside held other
  generalize heap.ownBeside (.nativeSnapshot id) other = made at keeps still reads notSnapshot ⊢
  obtain ⟨value, next⟩ := made
  simp only at keeps still reads notSnapshot ⊢
  have nodeRegular := regular _ isAmong
  have otherRegular := regular _ otherAmong
  rw [content_snapshot held.found] at nodeRegular ⊢
  have valueReads := reads plain
  obtain ⟨depth, owned, content⟩ := valueReads.content_eq
  rcases readable other otherAmong with ⟨otherDepth, otherOwned⟩ | ⟨otherId, otherNode, rfl, otherHeld⟩
  · obtain ⟨nextOwned, sameContent⟩ := otherOwned.beside held.found keeps
    rw [valuesEqual_owned owned nextOwned, valuesEqual_owned nextOwned owned, content, sameContent,
      node.content_typeless, covered.typeless other otherAmong ⟨otherDepth, otherOwned⟩]
    exact ⟨Bool.and_true _, Bool.and_true _⟩
  · have otherFound := still otherId otherNode rfl otherHeld.found
    rw [content_snapshot otherHeld.found] at otherRegular ⊢
    obtain ⟨right, left⟩ := @valuesEqual_snapshot world next value otherId otherNode notSnapshot
      otherFound
    obtain ⟨readDepth, readOwned, -, blockless⟩ := valueReads
    have equal : valueEqualsNode world.floats next value otherNode =
        Content.same world node.content otherNode.content := by
      rw [valueEqualsNode_owned readOwned, covered.plain otherId otherNode otherAmong otherHeld.found,
        blockless, ← readOwned.content_eq, content]
      exact Bool.and_true _
    rw [right, left, equal]
    refine ⟨rfl, ?_⟩
    rw [Bool.eq_iff_iff]
    exact ⟨Content.same_symm laws nodeRegular otherRegular,
      Content.same_symm laws otherRegular nodeRegular⟩

/-- Equality is an equivalence that owning a snapshot does not change, on sound values,
exactly when every comparison of them is covered. -/
theorem coherent_iff_covered (laws : Content.EqualityLaws world) (sound : heap.Sound)
    {among : Value → Prop} (readable : ∀ value, among value → heap.Readable value)
    (regular : ∀ value, among value → (heap.content value).Regular world) :
    Coherent world heap among ↔ Covered world heap among := by
  constructor
  · intro coherent
    have plain : ∀ id node, among (.nativeSnapshot id) → heap.snapshotNode id = some node →
        node.plain = true := by
      intro id node isAmong found
      obtain ⟨heldNode, held⟩ := (readable _ isAmong).snapshot
      obtain ⟨-, still, -, notSnapshot⟩ := sound.ownBeside held (.nativeSnapshot id)
      have unchanged := (coherent.owned id (.nativeSnapshot id) isAmong isAmong).1
      rw [coherent.refl _ isAmong,
        (valuesEqual_snapshot notSnapshot (still id node rfl found)).1] at unchanged
      exact plain_of_valueEqualsNode node unchanged
    refine ⟨?_, plain, ?_⟩
    · rintro value isAmong ⟨depth, owned⟩
      have equal := coherent.refl value isAmong
      rw [valuesEqual_owned owned owned, Bool.and_eq_true] at equal
      exact equal.2
    · rintro id node value snapshotAmong isAmong found ⟨depth, owned⟩ same
      obtain ⟨heldNode, held⟩ := (readable _ snapshotAmong).snapshot
      have isNode : heldNode = node := Option.some.inj (held.found.symm.trans found)
      subst isNode
      obtain ⟨keeps, -, reads, -⟩ := sound.ownBeside held value
      obtain ⟨madeDepth, madeOwned, content⟩ := (reads (plain id heldNode snapshotAmong found)).content_eq
      obtain ⟨nextOwned, sameContent⟩ := owned.beside found keeps
      have nodeRegular := regular _ snapshotAmong
      rw [content_snapshot found] at nodeRegular
      have unchanged := (coherent.owned id value snapshotAmong isAmong).1
      rw [(valuesEqual_snapshot owned.not_snapshot found).2, valuesEqual_owned madeOwned nextOwned,
        content, sameContent, heldNode.content_typeless,
        Content.same_symm laws (regular value isAmong) nodeRegular same,
        valueEqualsNode_owned owned.within] at unchanged
      simp only [Bool.and_true, Bool.true_eq, Bool.and_eq_true] at unchanged
      exact unchanged.2.2
  · intro covered
    have equals (value other : Value) (isAmong : among value) (otherAmong : among other) :
        valuesEqual world heap value other =
          Content.same world (heap.content value) (heap.content other) :=
      covered.valuesEqual_eq laws isAmong otherAmong (readable value isAmong)
        (readable other otherAmong) (regular value isAmong) (regular other otherAmong)
    refine ⟨?_, ?_, ?_, ?_⟩
    · intro value isAmong
      rw [equals value value isAmong isAmong]
      exact Content.same_refl laws (regular value isAmong)
    · intro value other isAmong otherAmong equal
      rw [equals value other isAmong otherAmong] at equal
      rw [equals other value otherAmong isAmong]
      exact Content.same_symm laws (regular value isAmong) (regular other otherAmong) equal
    · intro value other last isAmong otherAmong lastAmong equal next
      rw [equals value other isAmong otherAmong] at equal
      rw [equals other last otherAmong lastAmong] at next
      rw [equals value last isAmong lastAmong]
      exact Content.same_trans laws (regular value isAmong) (regular other otherAmong)
        (regular last lastAmong) equal next
    · intro id other isAmong otherAmong
      rw [equals _ other isAmong otherAmong, equals other _ otherAmong isAmong]
      exact covered.owned laws sound readable regular isAmong otherAmong

end Heap

/-! ## Two snapshots -/

/-- A host that compares decimals by their own code. -/
def World.exact : World :=
  { World.bare with
    decimals := { World.bare.decimals with equals := Decimal.equals, compare := Decimal.compare } }

theorem World.exact_laws : Content.EqualityLaws World.exact where
  symm := fun _ _ equal => beq_iff_eq.mpr (beq_iff_eq.mp equal).symm
  trans := fun _ _ _ equal next =>
    beq_iff_eq.mpr ((beq_iff_eq.mp equal).trans (beq_iff_eq.mp next))
  equals := rfl

namespace Heap

def reading (fields : List NativeStateValue) : Heap :=
  ((Heap.new fun _ => 0).readStateNode (.struct fields)).2

theorem reading_sound (fields : List NativeStateValue) : (reading fields).Sound :=
  ⟨fun slot member => (by cases member), List.nodup_nil⟩

theorem reading_readable (fields : List NativeStateValue) :
    (reading fields).Readable (.nativeSnapshot 0) :=
  Or.inr ⟨0, .struct fields, rfl, 0, rfl⟩

/-- A struct of integers that is read is equal to itself, also once it is owned. -/
theorem integers_coherent :
    Coherent World.exact (reading [.int 5]) fun value => value = .nativeSnapshot 0 ∨ value = .int 5 := by
  apply (coherent_iff_covered World.exact_laws (reading_sound [.int 5]) ?_ ?_).mpr
  · refine ⟨?_, ?_, ?_⟩
    · rintro value (rfl | rfl) ⟨depth, owned⟩
      · exact absurd rfl (owned.not_snapshot 0)
      · rfl
    · rintro id node (same | same) found
      · cases same
        cases found
        rfl
      · cases same
    · rintro id node value (same | same) (rfl | rfl) found ⟨depth, owned⟩ equal
      · exact absurd rfl (owned.not_snapshot 0)
      · rfl
      · cases same
      · cases same
  · rintro value (rfl | rfl)
    · exact reading_readable [.int 5]
    · exact Or.inl ⟨1, trivial, fun part member => (by cases member)⟩
  · rintro value (rfl | rfl)
    · exact ⟨trivial, trivial⟩
    · trivial

/-- A struct with a decimal that is read is equal to itself, and unequal to itself once
it is owned. -/
theorem decimal_incoherent :
    (reading [.number ⟨15, 1⟩]).Sound ∧
      (reading [.number ⟨15, 1⟩]).Readable (.nativeSnapshot 0) ∧
      ((reading [.number ⟨15, 1⟩]).content (.nativeSnapshot 0)).Regular World.exact ∧
      valuesEqual World.exact (reading [.number ⟨15, 1⟩]) (.nativeSnapshot 0) (.nativeSnapshot 0) =
        true ∧
      valuesEqual World.exact
          ((reading [.number ⟨15, 1⟩]).ownBeside (.nativeSnapshot 0) (.nativeSnapshot 0)).2
          ((reading [.number ⟨15, 1⟩]).ownBeside (.nativeSnapshot 0) (.nativeSnapshot 0)).1
          (.nativeSnapshot 0) =
        false ∧
      ¬ Coherent World.exact (reading [.number ⟨15, 1⟩]) (fun value => value = .nativeSnapshot 0) := by
  have scale : (1 : UInt32).toNat ≤ Decimal.maxScale := by decide
  have equal : valuesEqual World.exact (reading [.number ⟨15, 1⟩]) (.nativeSnapshot 0)
      (.nativeSnapshot 0) = true := by decide
  have unequal : valuesEqual World.exact
      ((reading [.number ⟨15, 1⟩]).ownBeside (.nativeSnapshot 0) (.nativeSnapshot 0)).2
      ((reading [.number ⟨15, 1⟩]).ownBeside (.nativeSnapshot 0) (.nativeSnapshot 0)).1
      (.nativeSnapshot 0) = false := by decide
  refine ⟨reading_sound _, reading_readable _, ⟨scale, trivial⟩, equal, unequal, ?_⟩
  intro coherent
  have unchanged := (coherent.owned 0 (.nativeSnapshot 0) rfl rfl).1
  rw [equal, unequal] at unchanged
  cases unchanged

end Heap

end KiraVm
