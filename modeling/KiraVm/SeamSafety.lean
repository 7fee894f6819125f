import KiraVm.HeapSafety
import KiraVm.PlaceModel

/-!
# Tidy heaps at the seams and along places

What leaves a tidy heap as a tree names only allowed `Drop` bodies, and bringing
such trees in, reading C layouts and walking places keep the heap tidy.
-/

namespace KiraVm

namespace Heap

variable {allowed : UInt32 → Prop} {heap : Heap}

namespace Tidy

/-! ## Leaving as callback state -/

theorem takeObject (tidy : heap.Tidy allowed) (id : Nat) : (heap.takeObject id).2.Tidy allowed := by
  unfold Heap.takeObject
  split
  case h_1 found => exact tidy.freeSlot found
  case h_2 => exact tidy

theorem unwrapBlock (tidy : heap.Tidy allowed) (block : Nat) :
    (heap.unwrapBlock block).2.Tidy allowed := by
  unfold Heap.unwrapBlock
  simp only
  split
  · exact tidy.dropBlock block
  · exact tidy.dropBlock block

theorem takeCBlockTree (depth : Nat) (tidy : heap.Tidy allowed) (id : Nat) :
    (Heap.takeCBlockTree depth heap id).2.Tidy allowed := by
  induction depth generalizing heap id with
  | zero =>
    simp only [Heap.takeCBlockTree]
    exact tidy
  | succ depth ih =>
    have children (bytes : List UInt8) (taken : List NativeCBlockChild) {heap : Heap}
        (tidy : heap.Tidy allowed) (left : List CBlockChild) :
        (Heap.takeCBlockTree.takeChildren depth bytes taken heap left).2.Tidy allowed := by
      induction left generalizing bytes taken heap with
      | nil =>
        simp only [Heap.takeCBlockTree.takeChildren]
        exact tidy
      | cons child left rest =>
        have nested := ih tidy child.block
        unfold Heap.takeCBlockTree.takeChildren
        split
        case h_1 kind after taking =>
          rw [taking] at nested
          exact nested
        case h_2 block after taking =>
          rw [taking] at nested
          split
          · exact rest _ _ nested
          · exact nested
    have taken := tidy.takeObject id
    unfold Heap.takeCBlockTree
    split
    case h_1 taking =>
      rw [taking] at taken
      exact children _ _ taken _
    case h_2 taking =>
      rw [taking] at taken
      exact taken

end Tidy

/-- What a heap operation that may refuse leaves: a tidy heap, and an answer that
satisfies a predicate. -/
structure Leaves (allowed : UInt32 → Prop) {ε α : Type} (good : α → Prop)
    (result : Except ε α × Heap) : Prop where
  heap : result.2.Tidy allowed
  answer : ∀ answer, result.1 = .ok answer → good answer

namespace Leaves

variable {ε α : Type} {good : α → Prop}

theorem refused {kind : ε} (tidy : heap.Tidy allowed) :
    Leaves allowed good ((.error kind, heap) : Except ε α × Heap) :=
  ⟨tidy, by simp⟩

theorem answered {answer : α} (tidy : heap.Tidy allowed) (holds : good answer) :
    Leaves allowed good ((.ok answer, heap) : Except ε α × Heap) :=
  ⟨tidy, by
    intro other same
    cases same
    exact holds⟩

end Leaves

namespace Tidy

theorem intoStates {depth : Nat}
    (each : ∀ {heap : Heap}, heap.Tidy allowed → ∀ value,
      Leaves allowed (·.AllGlue allowed) (Heap.intoState depth heap value))
    (tidy : heap.Tidy allowed) (values : List Value) :
    Leaves allowed (NativeStateValue.EachGlue allowed)
      (Heap.intoState.intoStates depth heap values) := by
  induction values generalizing heap with
  | nil =>
    simp only [Heap.intoState.intoStates]
    exact .answered tidy trivial
  | cons value values ih =>
    have first := each tidy value
    unfold Heap.intoState.intoStates
    split
    case h_1 kind after moving =>
      rw [moving] at first
      exact .refused (first.heap.dropAll values)
    case h_2 node after moving =>
      rw [moving] at first
      have rest := ih first.heap
      split
      case h_1 kind after moved =>
        rw [moved] at rest
        exact .refused rest.heap
      case h_2 nodes after moved =>
        rw [moved] at rest
        exact .answered rest.heap ⟨first.answer node rfl, rest.answer nodes rfl⟩

theorem intoState (depth : Nat) (tidy : heap.Tidy allowed) (value : Value) :
    Leaves allowed (·.AllGlue allowed) (Heap.intoState depth heap value) := by
  induction depth generalizing heap value with
  | zero =>
    simp only [Heap.intoState]
    exact .refused tidy
  | succ depth ih =>
    cases value
    case str id =>
      have taken := tidy.takeObject id
      simp only [Heap.intoState]
      split
      all_goals
        rename_i taking
        rw [taking] at taken
      · exact .answered taken trivial
      · exact .refused taken
    case struct id =>
      have unique := tidy.makeStructUnique id
      have taken := (unique.removeDropGlue id).takeObject id
      simp only [Heap.intoState]
      split
      case h_1 block after taking =>
        rw [taking] at taken
        have unwrapped := taken.unwrapBlock block
        split
        case h_1 shared =>
          rw [shared] at unwrapped
          exact .refused unwrapped
        case h_2 fields after own =>
          rw [own] at unwrapped
          have moved := intoStates (fun tidy value => ih tidy value) unwrapped fields
          split
          case h_1 refusal =>
            rw [refusal] at moved
            exact .refused moved.heap
          case h_2 nodes after moving =>
            rw [moving] at moved
            have each := moved.answer nodes rfl
            split
            case h_1 glue known =>
              refine .answered moved.heap ?_
              simp only [NativeStateValue.AllGlue]
              exact ⟨unique.glue id glue known, each⟩
            case h_2 =>
              refine .answered moved.heap ?_
              simpa only [NativeStateValue.AllGlue] using each
      case h_2 taking =>
        rw [taking] at taken
        exact .refused taken
    case array id =>
      have taken := (tidy.makeArrayUnique id).takeObject id
      simp only [Heap.intoState]
      split
      case h_1 block after taking =>
        rw [taking] at taken
        have unwrapped := taken.unwrapBlock block
        split
        case h_1 shared =>
          rw [shared] at unwrapped
          exact .refused unwrapped
        case h_2 elements after own =>
          rw [own] at unwrapped
          have moved := intoStates (fun tidy value => ih tidy value) unwrapped elements
          split
          case h_1 refusal =>
            rw [refusal] at moved
            exact .refused moved.heap
          case h_2 nodes after moving =>
            rw [moving] at moved
            refine .answered moved.heap ?_
            simpa only [NativeStateValue.AllGlue] using moved.answer nodes rfl
      case h_2 taking =>
        rw [taking] at taken
        exact .refused taken
    case enum id =>
      simp only [Heap.intoState]
      split
      case h_1 tag payload shares found =>
        split
        case isTrue =>
          cases payload with
          | none =>
            split_ifs
            · exact .answered (tidy.freeSlot found) trivial
            · exact .answered (tidy.dropValue _) trivial
          | some value =>
            split_ifs
            case' pos => have moved := ih (tidy.freeSlot found) value
            case' neg =>
              have moved := ih ((tidy.copyValue value).dropValue (.enum id)) (heap.copyValue value).1
            all_goals
              simp only
              split
              case h_1 refusal =>
                rw [refusal] at moved
                exact .refused moved.heap
              case h_2 node after moving =>
                rw [moving] at moved
                refine .answered moved.heap ?_
                simpa only [NativeStateValue.AllGlue, NativeStateValue.PayloadGlue]
                  using moved.answer node rfl
        case isFalse => exact .refused tidy
      case h_2 => exact .refused tidy
    case erased id =>
      simp only [Heap.intoState]
      split
      case h_1 typeId payload shares found =>
        have opened : (if shares = 1 then (payload, heap.freeSlot id)
            else ((heap.copyValue payload).1,
              (heap.copyValue payload).2.dropValue (.erased id))).2.Tidy allowed := by
          split
          · exact tidy.freeSlot found
          · exact (tidy.copyValue payload).dropValue _
        have moved := ih opened (if shares = 1 then (payload, heap.freeSlot id)
            else ((heap.copyValue payload).1,
              (heap.copyValue payload).2.dropValue (.erased id))).1
        split
        case h_1 refusal =>
          rw [refusal] at moved
          exact .refused moved.heap
        case h_2 node after moving =>
          rw [moving] at moved
          refine .answered moved.heap ?_
          simpa only [NativeStateValue.AllGlue] using moved.answer node rfl
      case h_2 => exact .refused tidy
    case nativeSnapshot id =>
      simp only [Heap.intoState]
      split
      case h_1 => exact .refused tidy
      case h_2 node found => exact .answered (tidy.dropValue _) (tidy.snapshotNode found)
    case cBlock id =>
      have taken := tidy.takeCBlockTree (heap.slots.length + 1) id
      simp only [Heap.intoState]
      split
      all_goals
        rename_i taking
        rw [taking] at taken
      · exact .refused taken
      · exact .answered taken trivial
    case void | mainThreadTask | type | nativeView =>
      simp only [Heap.intoState]
      exact .refused tidy
    case int | float | bool | number | rawPtr | cell | nativeState =>
      simp only [Heap.intoState]
      exact .answered tidy trivial

theorem intoNativeState (tidy : heap.Tidy allowed) (value : Value) :
    Leaves allowed (·.AllGlue allowed) (heap.intoNativeState value) :=
  tidy.intoState _ value

theorem seamTree (tidy : heap.Tidy allowed) (value : Value) :
    (heap.seamTree value).2.Tidy allowed := by
  have moved := (tidy.copyValue value).intoNativeState (heap.copyValue value).1
  unfold Heap.seamTree
  simp only
  split
  all_goals
    rename_i moving
    rw [moving] at moved
    exact moved.heap

variable {value : Value} {lifted : NativeResult}

theorem seamTree_glue (tidy : heap.Tidy allowed) {tree : NativeStateValue}
    (found : (heap.seamTree value).1 = some tree) : tree.AllGlue allowed := by
  have moved := (tidy.copyValue value).intoNativeState (heap.copyValue value).1
  unfold Heap.seamTree at found
  simp only at found
  split at found
  case h_1 moving =>
    rw [moving] at moved
    cases found
    exact moved.answer tree rfl
  case h_2 => cases found

/-! ## Seam results -/

theorem lower (tidy : heap.Tidy allowed) {argument : NativeArg}
    (glue : argument.AllGlue allowed) : (heap.lower argument).2.Tidy allowed := by
  cases argument
  case str text => exact tidy.allocStr text
  case aggregate tree => exact tidy.fromNativeState glue
  case enum tag =>
    simp only [Heap.lower]
    split
    · exact tidy.allocEnum _ none
    · exact tidy
  all_goals exact tidy

theorem liftTree (tidy : heap.Tidy allowed) (value : Value) :
    (heap.liftTree value).2.Tidy allowed := by
  have moved := tidy.seamTree value
  unfold Heap.liftTree
  split
  all_goals
    rename_i moving
    rw [moving] at moved
    exact moved

theorem liftTree_glue (tidy : heap.Tidy allowed) (found : (heap.liftTree value).1 = some lifted) :
    lifted.AllGlue allowed := by
  unfold Heap.liftTree at found
  split at found
  case h_1 tree after moving =>
    cases found
    exact tidy.seamTree_glue (by rw [moving])
  case h_2 => cases found

theorem lift (tidy : heap.Tidy allowed) (value : Value) : (heap.lift value).2.Tidy allowed := by
  cases value
  case enum id =>
    simp only [Heap.lift]
    split
    · exact tidy
    · exact tidy.liftTree _
  case struct | array | erased | cBlock => exact tidy.liftTree _
  all_goals exact tidy

theorem lift_glue (tidy : heap.Tidy allowed) (found : (heap.lift value).1 = some lifted) :
    lifted.AllGlue allowed := by
  cases value
  case enum id =>
    simp only [Heap.lift] at found
    split at found
    · cases found
      exact trivial
    · exact tidy.liftTree_glue found
  case struct | array | erased | cBlock => exact tidy.liftTree_glue found
  all_goals
    cases found
    try exact trivial

theorem liftTransfer (tidy : heap.Tidy allowed) (value : Value) :
    (heap.liftTransfer value).2.Tidy allowed := by
  unfold Heap.liftTransfer
  split
  · exact tidy
  · exact (tidy.lift value).dropValue value

theorem liftTransfer_glue (tidy : heap.Tidy allowed)
    (found : (heap.liftTransfer value).1 = some lifted) : lifted.AllGlue allowed := by
  unfold Heap.liftTransfer at found
  split at found
  · cases found
    exact trivial
  · exact tidy.lift_glue found

theorem formatAndConsume (world : World) (tidy : heap.Tidy allowed) (value : Value) :
    (heap.formatAndConsume world value).2.Tidy allowed :=
  tidy.dropValue value

theorem absorbForeign (floats : Floats) (tidy : heap.Tidy allowed) (result : ForeignResult) :
    (heap.absorbForeign floats result).2.Tidy allowed := by
  unfold Heap.absorbForeign
  split
  case h_3 text => exact tidy.allocStr text
  all_goals exact tidy

/-! ## C layouts -/

def Reads (allowed : UInt32 → Prop) (readNested : UInt32 → Nat → Heap → Option Value × Heap) :
    Prop :=
  ∀ id base {heap : Heap}, heap.Tidy allowed → (readNested id base heap).2.Tidy allowed

section Reading

variable (floats : Floats) (walk : Walk) (bytes : List UInt8)
  {readNested : UInt32 → Nat → Heap → Option Value × Heap}

theorem readElements (nested : Reads allowed readNested) (tidy : heap.Tidy allowed)
    (element : ForeignArrayElement) (stride base left index : Nat) (elements : List Value) :
    (Heap.readElements floats walk readNested element stride bytes base left index elements
      heap).2.Tidy allowed := by
  induction left generalizing index elements heap with
  | zero => exact tidy
  | succ left ih =>
    unfold Heap.readElements
    split
    · exact tidy
    · split
      · split
        · exact tidy
        · exact ih tidy _ _
      · rename_i start _ _ id
        have read := nested id start tidy
        split
        all_goals
          rename_i reading
          rw [reading] at read
        · exact read
        · exact ih read _ _

theorem readMember (nested : Reads allowed readNested) (tidy : heap.Tidy allowed)
    (start size : Nat) (member : ForeignMember) :
    (Heap.readMember floats walk readNested bytes start size heap member).2.Tidy allowed := by
  cases member with
  | scalar ty => exact tidy
  | aggregate id => exact nested id start tidy
  | array element count =>
    simp only [Heap.readMember]
    split
    · exact tidy
    · rename_i layout _
      have read := tidy.readElements floats walk bytes nested
        element layout.size start count.toNat 0 []
      unfold Heap.readArray
      split
      all_goals
        rename_i reading
        rw [reading] at read
      · exact read
      · exact read.allocArray _

theorem readMembers (nested : Reads allowed readNested) (tidy : heap.Tidy allowed)
    (base offset : Nat) (fields : List Value) (members : List ForeignMember) :
    (Heap.readMembers floats walk readNested bytes base offset fields heap members).2.Tidy
      allowed := by
  induction members generalizing offset fields heap with
  | nil => exact tidy
  | cons member members ih =>
    unfold Heap.readMembers
    split
    · exact tidy
    · split
      · exact tidy
      · rename_i _ size _ _ start _
        have read := tidy.readMember floats walk bytes nested
          start size member
        split
        all_goals
          rename_i reading
          rw [reading] at read
        · exact read
        · split
          · exact read
          · exact ih read _ _

theorem readAggregate (depth : Nat) : Reads allowed (Heap.readAggregate floats walk bytes depth) := by
  induction depth with
  | zero => exact fun _ _ _ tidy => tidy
  | succ depth ih =>
    intro id base heap tidy
    unfold Heap.readAggregate
    split
    · exact tidy
    · rename_i aggregate _
      have read := tidy.readMembers floats walk bytes ih base 0 []
        aggregate.members
      split
      all_goals
        rename_i reading
        rw [reading] at read
      · exact read
      · exact read.allocStruct _

theorem absorbAggregate (tidy : heap.Tidy allowed) (table : ForeignAggregates) (id : UInt32)
    (width : ForeignPointerWidth) :
    (heap.absorbAggregate floats table id bytes width).2.Tidy allowed := by
  unfold Heap.absorbAggregate
  split
  · exact tidy
  · split
    · exact readAggregate _ _ _ _ _ _ tidy
    · exact tidy

end Reading

/-- A taker of C blocks that keeps the heap tidy. -/
def Takes (allowed : UInt32 → Prop) (take : Heap → Nat → Option Heap) : Prop :=
  ∀ child {heap after : Heap}, heap.Tidy allowed → take heap child = some after →
    after.Tidy allowed

theorem takeBlockCBlock {after : Heap} (tidy : heap.Tidy allowed) {block index child : Nat}
    (taken : heap.takeBlockCBlock block index child = some after) : after.Tidy allowed := by
  unfold Heap.takeBlockCBlock at taken
  split at taken
  · cases taken
    exact tidy.setBlockValue _ _ _
  · cases taken

theorem takeStructCBlock (id index : Nat) :
    Takes allowed fun heap => heap.takeStructCBlock id index := by
  intro child heap after tidy taken
  simp only [Heap.takeStructCBlock] at taken
  split at taken
  · exact tidy.takeBlockCBlock taken
  · cases taken

theorem takeArrayCBlock (id index : Nat) :
    Takes allowed fun heap => heap.takeArrayCBlock id index := by
  intro child heap after tidy taken
  simp only [Heap.takeArrayCBlock] at taken
  split at taken
  · exact tidy.takeBlockCBlock taken
  · cases taken

theorem moveCBlock (tidy : heap.Tidy allowed) (walk : Walk) (root : Nat)
    {take : Heap → Nat → Option Heap} (takes : Takes allowed take) (start : Option Nat)
    (value : Value) : (heap.moveCBlock walk root take start value).2.Tidy allowed := by
  cases value
  case cBlock child =>
    simp only [Heap.moveCBlock]
    split
    case h_1 => exact tidy
    case h_2 after taken =>
      have tidyAfter := takes child tidy taken
      split
      case h_1 => exact tidyAfter
      case h_2 start =>
        have attached := tidyAfter.cblockAttach root (UInt64.ofNat start) walk.width child
        unfold Heap.attachMovedCBlock
        split
        all_goals
          rename_i attaching
          rw [attaching] at attached
        · exact attached
        · exact attached.dropValue _
  all_goals exact tidy

/-- A mover of nested aggregates' C blocks that keeps the heap tidy. -/
def Moves (allowed : UInt32 → Prop)
    (moveNested : UInt32 → Value → Nat → Heap → Except AggregateMismatch Unit × Heap) : Prop :=
  ∀ id value base {heap : Heap}, heap.Tidy allowed →
    (moveNested id value base heap).2.Tidy allowed

section Moving

variable (walk : Walk) (root : Nat)
  {moveNested : UInt32 → Value → Nat → Heap → Except AggregateMismatch Unit × Heap}

theorem moveElementCBlocks (nested : Moves allowed moveNested) (tidy : heap.Tidy allowed)
    (element : ForeignArrayElement) (stride base array left index : Nat) :
    (Heap.moveElementCBlocks walk root moveNested element stride base array left index
      heap).2.Tidy allowed := by
  induction left generalizing index heap with
  | zero => exact tidy
  | succ left ih =>
    unfold Heap.moveElementCBlocks
    split
    case h_1 => exact tidy
    case h_2 value _ =>
      split
      case h_1 => exact tidy
      case h_2 start _ =>
        cases element with
        | aggregate id =>
          have moved := nested id value start tidy
          simp only
          split
          all_goals
            rename_i moving
            rw [moving] at moved
          · exact moved
          · exact ih moved _
        | scalar ty =>
          have moved := tidy.moveCBlock walk root (takeArrayCBlock array index)
            (some start) value
          simp only
          split
          all_goals
            rename_i moving
            rw [moving] at moved
          · exact moved
          · exact ih moved _

theorem moveArrayCBlocks (nested : Moves allowed moveNested) (tidy : heap.Tidy allowed)
    (element : ForeignArrayElement) (count : UInt32) (stride base : Nat) (value : Value) :
    (Heap.moveArrayCBlocks walk root moveNested element count stride base heap value).2.Tidy
      allowed := by
  cases value
  case array array =>
    have unique := tidy.makeArrayUnique array
    simp only [Heap.moveArrayCBlocks]
    split
    · exact unique
    · split
      · exact unique
      · exact unique.moveElementCBlocks walk root nested ..
  all_goals exact tidy

theorem moveMemberCBlocks (nested : Moves allowed moveNested) (tidy : heap.Tidy allowed)
    (struct index : Nat) (field : Value) (base offset : Nat) (member : ForeignMember) :
    (Heap.moveMemberCBlocks walk root moveNested struct index field base offset heap
      member).2.Tidy allowed := by
  cases member with
  | scalar ty => exact tidy.moveCBlock walk root (takeStructCBlock struct index) _ field
  | aggregate id =>
    simp only [Heap.moveMemberCBlocks]
    split
    · exact tidy
    · exact nested _ _ _ tidy
  | array element count =>
    simp only [Heap.moveMemberCBlocks]
    split
    · exact tidy.moveArrayCBlocks walk root nested ..
    · exact tidy

theorem moveMembersCBlocks (nested : Moves allowed moveNested) (tidy : heap.Tidy allowed)
    (struct base offset index : Nat) (members : List ForeignMember) :
    (Heap.moveMembersCBlocks walk root moveNested struct base offset index heap
      members).2.Tidy allowed := by
  induction members generalizing offset index heap with
  | nil => exact tidy
  | cons member members ih =>
    unfold Heap.moveMembersCBlocks
    split
    case h_1 => exact tidy
    case h_2 field _ =>
      split
      case h_1 => exact tidy
      case h_2 offset size _ =>
        have moved := tidy.moveMemberCBlocks walk root nested struct index field base offset
          member
        split
        all_goals
          rename_i moving
          rw [moving] at moved
        · exact moved
        · split
          · exact moved
          · exact ih moved _ _

theorem moveAggregateCBlocks (depth : Nat) :
    Moves allowed (Heap.moveAggregateCBlocks walk root depth) := by
  induction depth with
  | zero => exact fun _ _ _ _ tidy => tidy
  | succ depth ih =>
    intro id value base heap tidy
    unfold Heap.moveAggregateCBlocks
    split
    case h_1 aggregate struct _ =>
      have unique := tidy.makeStructUnique struct
      simp only
      split
      · exact unique
      · exact unique.moveMembersCBlocks walk root ih ..
    case h_2 => exact tidy

end Moving

theorem cblockAggregateImage (tidy : heap.Tidy allowed) (table : ForeignAggregates) (id : UInt32)
    (value : Value) (width : ForeignPointerWidth) (bytes : List UInt8) :
    (heap.cblockAggregateImage table id value width bytes).2.Tidy allowed := by
  unfold Heap.cblockAggregateImage
  split
  case h_1 => exact tidy
  case h_2 walk _ =>
    have moved := moveAggregateCBlocks walk (heap.cblockBytes bytes).1 (table.entries.length + 1)
      id value 0 (tidy.cblockBytes bytes)
    simp only
    split
    all_goals
      rename_i moving
      rw [moving] at moved
    · exact moved.dropValue _
    · exact (moved.dropValue _).dropValue _

/-! ## Places -/

variable {ε : Type}

theorem walkStep (tidy : heap.Tidy allowed) (current : Value) (step : ResolvedStep) :
    (heap.walkStep current step : Except (VmError ε) Value × Heap).2.Tidy allowed := by
  cases step with
  | field index =>
    cases current
    case struct id =>
      have unique := tidy.makeStructUnique id
      simp only [Heap.walkStep]
      split
      · exact unique
      · exact unique
    all_goals exact tidy
  | index index =>
    cases current
    case array id =>
      have unique := tidy.makeArrayUnique id
      simp only [Heap.walkStep]
      split
      · exact tidy
      · split
        · exact unique
        · exact unique
    all_goals exact tidy

theorem walkValue (tidy : heap.Tidy allowed) (current : Value) (steps : List ResolvedStep) :
    (heap.walkValue current steps : Except (VmError ε) Value × Heap).2.Tidy allowed := by
  induction steps generalizing current heap with
  | nil => exact tidy
  | cons step steps ih =>
    have walked : (heap.walkStep current step : Except (VmError ε) Value × Heap).2.Tidy allowed :=
      tidy.walkStep current step
    unfold Heap.walkValue
    split
    all_goals
      rename_i walking
      rw [walking] at walked
    · exact walked
    · exact ih walked _

theorem writeLast (tidy : heap.Tidy allowed) (target : Value) (last : ResolvedStep)
    (value : Value) :
    (heap.writeLast target last value : Except (VmError ε) Unit × Heap).2.Tidy allowed := by
  cases last with
  | field index =>
    cases target
    case struct id =>
      have written := tidy.setField id index value
      simp only [Heap.writeLast]
      split
      all_goals
        rename_i writing
        rw [writing] at written
        exact written
    all_goals exact tidy
  | index index =>
    cases target
    case array id =>
      simp only [Heap.writeLast]
      split
      case h_1 => exact tidy
      case h_2 position _ =>
        have written := tidy.setElement id position value
        split
        all_goals
          rename_i writing
          rw [writing] at written
          exact written
    all_goals exact tidy

theorem storeAt (tidy : heap.Tidy allowed) (root : Value) (steps : List ResolvedStep)
    (value : Value) :
    (heap.storeAt root steps value : Except (VmError ε) Unit × Heap).2.Tidy allowed := by
  unfold Heap.storeAt
  split
  case h_1 => exact tidy
  case h_2 last _ =>
    have walked : (heap.walkValue root steps.dropLast : Except (VmError ε) Value × Heap).2.Tidy
        allowed := tidy.walkValue root steps.dropLast
    split
    all_goals
      rename_i walking
      rw [walking] at walked
    · exact walked
    · exact walked.writeLast _ last value

theorem appendAt (tidy : heap.Tidy allowed) (root : Value) (steps : List ResolvedStep)
    (value : Value) :
    (heap.appendAt root steps value : Except (VmError ε) Unit × Heap).2.Tidy allowed := by
  have walked : (heap.walkValue root steps : Except (VmError ε) Value × Heap).2.Tidy allowed :=
    tidy.walkValue root steps
  unfold Heap.appendAt
  split
  all_goals
    rename_i walking
    rw [walking] at walked
  · exact walked
  · split
    case h_1 id =>
      have written := walked.pushElement id value
      split
      all_goals
        rename_i writing
        rw [writing] at written
        exact written
    case h_2 => exact walked

end Tidy

end Heap

end KiraVm
