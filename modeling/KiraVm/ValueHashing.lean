import KiraVm.ValueCoherence

/-!
# Hashing values

The hash of an owned value folds a byte stream that its contents determine, so values
of the same contents hash alike.  A snapshot folds nothing.
-/

namespace KiraVm

/-! ## Byte streams -/

namespace Content

/-- The number of links of a chain. -/
def links : Content → Nat
  | .also _ rest => rest.links + 1
  | _ => 0

theorem links_chain (contents : List Content) : (chain contents).links = contents.length := by
  induction contents with
  | nil => rfl
  | cons first rest ih => rw [chain_cons, links, ih, List.length_cons]

def stream : Content → List UInt8
  | .int value => ByteReader.u64Bytes value.toUInt64
  | .bool value => [if value then 1 else 0]
  | .text written => written.toUTF8.toList
  | .struct fields => fields.stream
  | .array elements => ByteReader.u64Bytes (UInt64.ofNat elements.links) ++ elements.stream
  | .enum tag payload => ByteReader.u64Bytes (tag.getD 0) ++ payload.stream
  | .also first rest => first.stream ++ rest.stream
  | _ => []

theorem links_same {world : World} {content other : Content}
    (equal : same world content other = true) : content.links = other.links := by
  induction content generalizing other with
  | also first rest firstIh restIh =>
    cases other with
    | also otherFirst otherRest =>
      simp only [same, Bool.and_eq_true] at equal
      rw [links, links, restIh equal.2]
    | _ => cases equal
  | _ => cases other <;> first | rfl | cases equal

theorem stream_same {world : World} {content other : Content}
    (equal : same world content other = true) : content.stream = other.stream := by
  induction content generalizing other with
  | struct fields ih =>
    cases other with
    | struct others => exact @ih others equal
    | _ => cases equal
  | array elements ih =>
    cases other with
    | array others =>
      have elementsEqual : same world elements others = true := equal
      rw [stream, stream, links_same elementsEqual, ih elementsEqual]
    | _ => cases equal
  | enum tag payload ih =>
    cases other with
    | enum otherTag otherPayload =>
      simp only [same, Bool.and_eq_true, beq_iff_eq] at equal
      rw [stream, stream, equal.1, ih equal.2]
    | _ => cases equal
  | also first rest firstIh restIh =>
    cases other with
    | also otherFirst otherRest =>
      simp only [same, Bool.and_eq_true] at equal
      rw [stream, stream, firstIh equal.1, restIh equal.2]
    | _ => cases equal
  | _ => cases other <;> simp_all [same, stream]

end Content

namespace Heap

variable {world : World} {heap : Heap}

/-! ## Folding streams -/

theorem feed_append (accumulator : UInt64) (bytes more : List UInt8) :
    feed accumulator (bytes ++ more) = feed (feed accumulator bytes) more :=
  List.foldl_append

theorem foldl_hashInto {depth : Nat} {values : List Value} {accumulator : UInt64}
    (parts : ∀ value ∈ values, ∀ accumulator,
      heap.hashInto depth accumulator value = feed accumulator (heap.contentTo depth value).stream) :
    values.foldl (heap.hashInto depth) accumulator =
      feed accumulator (Content.chain (values.map (heap.contentTo depth))).stream := by
  induction values generalizing accumulator with
  | nil => rfl
  | cons value values ih =>
    rw [List.foldl_cons, parts value List.mem_cons_self, List.map_cons, Content.chain_cons,
      Content.stream, feed_append]
    exact ih fun one member => parts one (List.mem_cons_of_mem _ member)

variable {depth : Nat} {value : Value}

theorem hashInto_eq (owned : heap.Owned depth value) (accumulator : UInt64) :
    heap.hashInto depth accumulator value = feed accumulator (heap.contentTo depth value).stream := by
  induction depth generalizing value accumulator with
  | zero => exact owned.elim
  | succ depth ih =>
    have parts : ∀ part ∈ heap.parts value, ∀ accumulator,
        heap.hashInto depth accumulator part =
          feed accumulator (heap.contentTo depth part).stream :=
      fun part member => ih (owned.2 part member)
    have stored := owned.1
    cases value with
    | nativeSnapshot id => exact stored.elim
    | struct id => exact foldl_hashInto parts
    | array id =>
      have elements := @foldl_hashInto heap depth (heap.elements id)
        (feed accumulator (ByteReader.u64Bytes (UInt64.ofNat (heap.elements id).length))) parts
      simp only [hashInto, contentTo, Content.stream, Content.links_chain, List.length_map,
        feed_append]
      exact elements
    | enum id =>
      have payload := @foldl_hashInto heap depth (heap.enumPayloadRef id).toList
        (feed accumulator (ByteReader.u64Bytes ((heap.enumTag id).getD 0))) parts
      unfold hashInto contentTo
      simp only
      rw [Content.stream, feed_append, ← payload]
      cases heap.enumPayloadRef id with
      | none => simp only [Option.toList_none, List.foldl_nil]
      | some payload => simp only [Option.toList_some, List.foldl_cons, List.foldl_nil]
    | _ => rfl

theorem hashValue_owned (owned : heap.Owned depth value) :
    heap.hashValue value = (feed 0xcbf29ce484222325 (heap.content value).stream).toInt64 := by
  unfold hashValue
  rw [hashInto_eq owned.within]
  rfl

theorem hashValue_snapshot (id : Nat) :
    heap.hashValue (.nativeSnapshot id) = (0xcbf29ce484222325 : UInt64).toInt64 :=
  rfl

/-! ## Equal values -/

def isSnapshot : Value → Bool
  | .nativeSnapshot _ => true
  | _ => false

@[simp] theorem isSnapshot_snapshot (id : Nat) : isSnapshot (.nativeSnapshot id) = true := rfl

theorem Owned.isSnapshot_eq (owned : heap.Owned depth value) : isSnapshot value = false := by
  cases value with
  | nativeSnapshot id => exact absurd rfl (owned.not_snapshot id)
  | _ => rfl

/-- The bytes of a value fold the seed of the hash back to itself, as no bytes do. -/
def FoldsNothing (heap : Heap) (value : Value) : Prop :=
  feed 0xcbf29ce484222325 (heap.content value).stream = 0xcbf29ce484222325

theorem hashValue_owned_eq_snapshot_iff (owned : heap.Owned depth value) (id : Nat) :
    heap.hashValue value = heap.hashValue (.nativeSnapshot id) ↔ heap.FoldsNothing value := by
  rw [hashValue_owned owned, hashValue_snapshot, FoldsNothing]
  constructor
  · intro equal
    exact congrArg Int64.toUInt64 equal
  · intro equal
    rw [equal]

theorem hashValue_congr {otherDepth : Nat} {other : Value}
    (owned : heap.Owned depth value) (otherOwned : heap.Owned otherDepth other)
    (equal : valuesEqual world heap value other = true) :
    heap.hashValue value = heap.hashValue other := by
  rw [valuesEqual_owned owned otherOwned, Bool.and_eq_true] at equal
  rw [hashValue_owned owned, hashValue_owned otherOwned, Content.stream_same equal.1]

/-- Equal values have one hash exactly when both are snapshots, or both are owned, or
the owned one folds nothing. -/
theorem hashValue_eq_iff {value other : Value} (readable : heap.Readable value)
    (otherReadable : heap.Readable other) (equal : valuesEqual world heap value other = true) :
    heap.hashValue value = heap.hashValue other ↔
      isSnapshot value = isSnapshot other ∨
        ∀ side ∈ [value, other], isSnapshot side = false → heap.FoldsNothing side := by
  rcases readable with ⟨depth, owned⟩ | ⟨id, node, rfl, held⟩
  · rcases otherReadable with ⟨otherDepth, otherOwned⟩ | ⟨otherId, otherNode, rfl, otherHeld⟩
    · rw [owned.isSnapshot_eq, otherOwned.isSnapshot_eq]
      exact iff_of_true (hashValue_congr owned otherOwned equal) (Or.inl rfl)
    · rw [hashValue_owned_eq_snapshot_iff owned, List.forall_mem_cons, owned.isSnapshot_eq]
      simp
  · rcases otherReadable with ⟨otherDepth, otherOwned⟩ | ⟨otherId, otherNode, rfl, otherHeld⟩
    · rw [eq_comm, hashValue_owned_eq_snapshot_iff otherOwned, List.forall_mem_cons,
        otherOwned.isSnapshot_eq]
      simp [otherOwned.isSnapshot_eq]
    · exact iff_of_true rfl (Or.inl rfl)

/-! ## A struct that is read and one that is built -/

def readAndBuilt (fields : List NativeStateValue) : Value × Heap :=
  (reading fields).buildState false (.struct fields)

theorem readAndBuilt_readable : (readAndBuilt [.int 5]).2.Readable (.struct 1) :=
  Or.inl ⟨2, ⟨0, rfl, by decide⟩, by
    intro part member
    rcases List.mem_singleton.mp member with rfl
    exact ⟨trivial, fun other inside => (by cases inside)⟩⟩

/-- A struct without fields hashes alike, read or built. -/
theorem empty_struct_hash :
    (readAndBuilt []).2.hashValue (.nativeSnapshot 0) =
      (readAndBuilt []).2.hashValue (.struct 1) := by
  have built : (readAndBuilt []).2.Readable (.struct 1) :=
    Or.inl ⟨1, ⟨0, rfl, by decide⟩, fun part member => (by cases member)⟩
  apply (@hashValue_eq_iff World.exact _ _ _ (Or.inr ⟨0, .struct [], rfl, 0, rfl⟩) built
    (by decide)).mpr
  right
  intro side member isOwned
  rcases List.mem_pair.mp member with rfl | rfl
  · cases isOwned
  · rfl

/-- A struct that is read equals one that is built, and hashes otherwise. -/
theorem read_hashes_otherwise :
    (readAndBuilt [.int 5]).2.Readable (.nativeSnapshot 0) ∧
      (readAndBuilt [.int 5]).2.Readable (.struct 1) ∧
      valuesEqual World.exact (readAndBuilt [.int 5]).2 (.nativeSnapshot 0) (.struct 1) = true ∧
      (readAndBuilt [.int 5]).2.hashValue (.nativeSnapshot 0) ≠
        (readAndBuilt [.int 5]).2.hashValue (.struct 1) :=
  ⟨Or.inr ⟨0, .struct [.int 5], rfl, 0, rfl⟩, readAndBuilt_readable, by decide, by decide⟩

end Heap

end KiraVm
