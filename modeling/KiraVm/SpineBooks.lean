import KiraVm.TaskSpine
import Mathlib.Tactic.Abel

/-!
# The books of the tokens

Every token made to cross a slot is in one place: released, on its way between
two slots, in a slot of a task of the table, or in the queue of a channel of the
table.  Each primitive moves tokens from place to place and keeps the books.
-/

namespace KiraVm.KiraIr

open SlotTable StateLogic
open TaskExecutor (SoundTasks UpdatesTask)
open ChannelExecutor (SoundChannels UpdatesChannel)

/-! ## Where a token can be -/

/-- The tokens among the words of slots, with the types they were made for. -/
def boxedWords : List Crossing → List Int64 → List (UInt64 × UInt64)
  | .boxed typeId :: crossings, word :: words =>
    (word.toUInt64, typeId) :: boxedWords crossings words
  | _ :: crossings, _ :: words => boxedWords crossings words
  | _, _ => []

namespace Spine

/-- The tokens that a task's slots hold: its arguments until its body takes them,
then its result. -/
def taskTokens (spine : Spine) (task : Task) : List (UInt64 × UInt64) :=
  match task.state with
  | .pending => boxedWords (spine.paramsAt task.target) task.slots.toList
  | .finished => boxedWords [spine.resultAt task.target] [task.result]
  | _ => []

def taskWords (spine : Spine) (task : Task) : List UInt64 :=
  (spine.taskTokens task).map Prod.fst

end Spine

/-- The tokens that a channel's queue holds. -/
def channelWords (channel : Channel) : List UInt64 :=
  if channel.boxed then channel.queue.map Int64.toUInt64 else []

/-- Two crossings agree when both box, and for one type, or neither does. -/
def Crossing.Agrees (crossing other : Crossing) : Prop :=
  ∀ typeId, crossing = .boxed typeId ↔ other = .boxed typeId

def Frame.bodyHandle : Frame → Option Int64
  | .body handle _ _ => some handle
  | _ => none

/-- A join expects a value as the body's result crosses. -/
def Tail.Fits (tail : Tail) (result : Crossing) : Prop :=
  ∀ crossing, tail = .join crossing → crossing.Agrees result

namespace Machine

def Made (machine : Machine) (token : UInt64 × UInt64) : Prop :=
  ∃ box ∈ machine.boxes, box.token = token.1 ∧ box.typeId = token.2

/-- The holder's entry is in its table. -/
def Live (machine : Machine) : Holder → Prop
  | .task key => (machine.tasks.tasks.find? key).isSome
  | .channel key => (machine.channels.find? key).isSome

end Machine

/-- The store keeps each box whose token was not given up. -/
structure Vault (machine : Machine) : Prop where
  tokens_nodup : (machine.boxes.map Box.token).Nodup
  fresh : ∀ box ∈ machine.boxes,
    box.token ≠ 0 ∧ box.token.toNat < machine.store.next.toNat
  stored : ∀ box ∈ machine.boxes, box.token ∉ machine.released →
    machine.store.entries box.token = some box.entry
  assigned : ∀ token holder, machine.owner token = some holder →
    token ∈ machine.boxes.map Box.token
  whole : ∀ pair ∈ machine.recovered, ∃ box ∈ machine.boxes,
    box.token = pair.1 ∧ box.value = pair.2

/-- A body on the stack is the body of a running task. -/
structure Runs (spine : Spine) (machine : Machine) (handle : Int64) (row : TaskTargetInfo)
    (tail : Tail) (key : Key) (task : Task) : Prop where
  named : TaskExecutor.parts handle = .ok key
  found : machine.tasks.tasks.find? key = some task
  running : task.state = .running
  target : spine.rowAt task.target = some row
  fits : tail.Fits (spine.resultAt task.target)

structure Bodies (spine : Spine) (machine : Machine) : Prop where
  runs : ∀ handle row tail, Frame.body handle row tail ∈ machine.frames →
    ∃ key task, Runs spine machine handle row tail key task
  nodup : (machine.frames.filterMap Frame.bodyHandle).Nodup

/-- Where the tokens are; those in `flight` are between two slots. -/
structure Places (spine : Spine) (flight : List (UInt64 × UInt64)) (machine : Machine) :
    Prop where
  tasksSound : SoundTasks machine.tasks
  channelsSound : SoundChannels machine.channels
  places : (↑(machine.boxes.map Box.token) : Multiset UInt64) =
    ↑machine.released + (↑(flight.map Prod.fst) +
      (↑(machine.tasks.tasks.contents spine.taskWords) +
        ↑(machine.channels.contents channelWords)))
  made : ∀ token ∈ flight, machine.Made token
  ofTasks : ∀ key task, machine.tasks.tasks.find? key = some task →
    ∀ token ∈ spine.taskTokens task,
      machine.owner token.1 = some (.task key) ∧ machine.Made token
  wired : ∀ key channel, machine.channels.find? key = some channel →
    channel.boxed = (machine.wires key).isBoxed
  drained : ∀ key channel, machine.channels.find? key = some channel →
    channel.receiverLive = false → channel.queue = []
  ofChannels : ∀ key channel, machine.channels.find? key = some channel →
    ∀ word ∈ channelWords channel, machine.owner word = some (.channel key) ∧
      ∀ typeId, machine.wires key = .boxed typeId → machine.Made (word, typeId)

structure Books (spine : Spine) (flight : List (UInt64 × UInt64)) (machine : Machine) :
    Prop extends Vault machine, Bodies spine machine, Places spine flight machine

/-- No token was given up twice, the tokens of a task or channel that is gone
were given up, and what was taken out is what was put in. -/
structure Conserved (machine : Machine) : Prop where
  once : machine.released.Nodup
  reclaimed : ∀ box ∈ machine.boxes, ∀ holder, machine.owner box.token = some holder →
    ¬ machine.Live holder → box.token ∈ machine.released
  whole : ∀ pair ∈ machine.recovered, ∃ box ∈ machine.boxes,
    box.token = pair.1 ∧ box.value = pair.2

variable {spine : Spine} {flight : List (UInt64 × UInt64)} {machine : Machine}

/-! ## Reading the books -/

namespace Books

theorem released_nodup (books : Books spine flight machine) : machine.released.Nodup := by
  have distinct := books.tokens_nodup
  rw [← Multiset.coe_nodup, books.places, Multiset.nodup_add] at distinct
  exact Multiset.coe_nodup.mp distinct.1

theorem flight_apart (books : Books spine flight machine) {token : UInt64}
    (moving : token ∈ flight.map Prod.fst) :
    token ∉ machine.released ∧ token ∉ machine.tasks.tasks.contents spine.taskWords ∧
      token ∉ machine.channels.contents channelWords := by
  have distinct := books.tokens_nodup
  rw [← Multiset.coe_nodup, books.places, Multiset.nodup_add, Multiset.nodup_add] at distinct
  rcases distinct with ⟨-, ⟨-, -, tables⟩, outside⟩
  have here : token ∈ (↑(flight.map Prod.fst) : Multiset UInt64) := Multiset.mem_coe.mpr moving
  rw [Multiset.disjoint_left] at tables outside
  refine ⟨?_, ?_, ?_⟩
  · intro released
    exact outside (Multiset.mem_coe.mpr released) (Multiset.mem_add.mpr (Or.inl here))
  · intro held
    exact tables here (Multiset.mem_add.mpr (Or.inl (Multiset.mem_coe.mpr held)))
  · intro held
    exact tables here (Multiset.mem_add.mpr (Or.inr (Multiset.mem_coe.mpr held)))

/-- A token is given up, on its way, or held by an entry that it was made for. -/
theorem whereabouts (books : Books spine flight machine) {box : Box}
    (listed : box ∈ machine.boxes) :
    box.token ∈ machine.released ∨ box.token ∈ flight.map Prod.fst ∨
      ∃ holder, machine.owner box.token = some holder ∧ machine.Live holder := by
  have placed : box.token ∈ (↑(machine.boxes.map Box.token) : Multiset UInt64) :=
    Multiset.mem_coe.mpr (List.mem_map_of_mem listed)
  rw [books.places] at placed
  simp only [Multiset.mem_add, Multiset.mem_coe, Table.mem_contents] at placed
  rcases placed with released | moving | ⟨key, task, found, held⟩ | ⟨key, channel, found, held⟩
  · exact Or.inl released
  · exact Or.inr (Or.inl moving)
  · rcases List.mem_map.mp held with ⟨token, holds, same⟩
    have owned := (books.ofTasks key task found token holds).1
    rw [same] at owned
    exact Or.inr (Or.inr ⟨_, owned, by simp [Machine.Live, found]⟩)
  · have owned := (books.ofChannels key channel found box.token held).1
    exact Or.inr (Or.inr ⟨_, owned, by simp [Machine.Live, found]⟩)

/-- The books conserve the tokens when the holders of those on their way are
still in their tables. -/
theorem conserved (books : Books spine flight machine)
    (unplaced : ∀ token ∈ flight, ∀ holder, machine.owner token.1 = some holder →
      machine.Live holder) : Conserved machine where
  once := books.released_nodup
  reclaimed := by
    intro box listed holder owned gone
    rcases books.whereabouts listed with released | moving | ⟨other, otherOwned, live⟩
    · exact released
    · rcases List.mem_map.mp moving with ⟨token, inFlight, same⟩
      rw [← same] at owned
      exact absurd (unplaced token inFlight holder owned) gone
    · rw [owned] at otherOwned
      cases otherOwned
      exact absurd live gone
  whole := books.whole

theorem conserved_nil (books : Books spine [] machine) : Conserved machine :=
  books.conserved (by simp)

end Books

/-! ## The store -/

theorem Machine.Made.more {token : UInt64 × UInt64} {after : Machine}
    (made : machine.Made token) (kept : ∀ box ∈ machine.boxes, box ∈ after.boxes) :
    after.Made token := by
  rcases made with ⟨box, listed, same⟩
  exact ⟨box, kept box listed, same⟩

variable {after : Machine} {new : List (UInt64 × UInt64)}

theorem Bodies.congr (bodies : Bodies spine machine)
    (tasks : after.tasks.tasks = machine.tasks.tasks) (frames : after.frames = machine.frames) :
    Bodies spine after where
  runs := by
    intro handle row tail listed
    rw [frames] at listed
    rcases bodies.runs handle row tail listed with ⟨key, task, runs⟩
    exact ⟨key, task, runs.named, by rw [tasks]; exact runs.found, runs.running, runs.target,
      runs.fits⟩
  nodup := by
    rw [frames]
    exact bodies.nodup

theorem next_toNat {store : NativeStateStore} (hasToken : HasToken store) :
    store.next.toNat < (store.next + NativeStateStore.stride).toNat := by
  rcases Option.isSome_iff_exists.mp hasToken.2 with ⟨sum, counted⟩
  have value := NativeStateStore.checkedAdd_toNat counted
  unfold NativeStateStore.checkedAdd at counted
  split at counted
  · cases counted
    rw [value]
    exact Nat.lt_add_of_pos_right (by decide)
  · cases counted

namespace Books

theorem next_unused (books : Books spine flight machine) :
    machine.store.next ∉ machine.boxes.map Box.token := by
  intro listed
  rcases List.mem_map.mp listed with ⟨box, boxed, same⟩
  have below := (books.fresh box boxed).2
  rw [same] at below
  exact Nat.lt_irrefl _ below

theorem box (books : Books spine flight machine) (hasToken : HasToken machine.store)
    (typeId : UInt64) (value : NativeStateValue) :
    Books spine ((machine.store.next, typeId) :: flight)
      (machine.boxedUp (storeWith machine.store ⟨machine.store.next, typeId, value⟩)
        ⟨machine.store.next, typeId, value⟩) where
  tokens_nodup := by
    simp only [Machine.boxedUp, List.map_append, List.map_cons, List.map_nil]
    rw [List.nodup_append]
    refine ⟨books.tokens_nodup, by simp, ?_⟩
    intro token listed other last
    rw [List.mem_singleton] at last
    rw [last]
    rintro rfl
    exact books.next_unused listed
  fresh := by
    intro box listed
    have grows := next_toNat hasToken
    rcases List.mem_append.mp listed with old | new
    · have below := books.fresh box old
      exact ⟨below.1, Nat.lt_trans below.2 grows⟩
    · rw [List.mem_singleton] at new
      rw [new]
      exact ⟨hasToken.1, grows⟩
  stored := by
    intro box listed kept
    change (NativeStateStore.put _ _ _).entries _ = _
    rw [NativeStateStore.put_entries]
    rcases List.mem_append.mp listed with old | new
    · have differs : box.token ≠ machine.store.next := by
        intro same
        apply books.next_unused
        rw [← same]
        exact List.mem_map_of_mem old
      rw [if_neg differs]
      exact books.stored box old kept
    · rw [List.mem_singleton] at new
      rw [new, if_pos rfl]
  assigned := by
    intro token holder owned
    simp only [Machine.boxedUp, List.map_append]
    exact List.mem_append_left _ (books.assigned token holder owned)
  whole := by
    intro pair listed
    rcases books.whole pair listed with ⟨box, boxed, same⟩
    exact ⟨box, List.mem_append_left _ boxed, same⟩
  toBodies := books.toBodies.congr rfl rfl
  tasksSound := books.tasksSound
  channelsSound := books.channelsSound
  places := by
    have before := books.places
    simp only [Machine.boxedUp, List.map_append, List.map_cons, List.map_nil, ← Multiset.coe_add,
      ← Multiset.cons_coe, before, Multiset.coe_nil, ← Multiset.singleton_add]
    abel
  made := by
    intro token listed
    rcases List.mem_cons.mp listed with rfl | moving
    · exact ⟨_, List.mem_append_right _ (List.mem_singleton_self _), rfl, rfl⟩
    · exact (books.made token moving).more fun box old => List.mem_append_left _ old
  ofTasks := by
    intro key task found token held
    rcases books.ofTasks key task found token held with ⟨owned, made⟩
    exact ⟨owned, made.more fun box old => List.mem_append_left _ old⟩
  wired := books.wired
  drained := books.drained
  ofChannels := by
    intro key channel found word held
    rcases books.ofChannels key channel found word held with ⟨owned, made⟩
    exact ⟨owned, fun typeId wire =>
      (made typeId wire).more fun box old => List.mem_append_left _ old⟩

variable {token : UInt64 × UInt64}

theorem found_flight (books : Books spine (token :: flight) machine) :
    ∃ box ∈ machine.boxes, box.token = token.1 ∧ box.typeId = token.2 ∧ box.token ≠ 0 ∧
      machine.store.entries box.token = some box.entry := by
  rcases books.made token (List.mem_cons_self ..) with ⟨box, listed, named, typed⟩
  have moving : box.token ∈ (token :: flight).map Prod.fst := by
    rw [named]
    exact List.mem_cons_self ..
  exact ⟨box, listed, named, typed, (books.fresh box listed).1,
    books.stored box listed (books.flight_apart moving).1⟩

theorem giveUp (books : Books spine (token :: flight) machine) :
    Books spine flight (machine.givenUp (machine.store.put token.1 none) token.1) where
  tokens_nodup := books.tokens_nodup
  fresh := books.fresh
  stored := by
    intro box listed kept
    have differs : box.token ≠ token.1 := by
      intro same
      apply kept
      rw [same]
      exact List.mem_append_right _ (List.mem_singleton_self _)
    change (NativeStateStore.put _ _ _).entries _ = _
    rw [NativeStateStore.put_entries, if_neg differs]
    exact books.stored box listed fun released => kept (List.mem_append_left _ released)
  assigned := books.assigned
  whole := books.whole
  toBodies := books.toBodies.congr rfl rfl
  tasksSound := books.tasksSound
  channelsSound := books.channelsSound
  places := by
    have before := books.places
    simp only [List.map_cons, ← Multiset.cons_coe, ← Multiset.singleton_add] at before
    simp only [Machine.givenUp, ← Multiset.coe_add, ← Multiset.cons_coe, Multiset.coe_nil,
      ← Multiset.singleton_add, before]
    abel
  made := fun other moving => books.made other (List.mem_cons_of_mem _ moving)
  ofTasks := books.ofTasks
  wired := books.wired
  drained := books.drained
  ofChannels := books.ofChannels

theorem takeOut (books : Books spine (token :: flight) machine) {box : Box}
    (listed : box ∈ machine.boxes) (named : box.token = token.1) :
    Books spine flight
      (machine.takenOut (machine.store.put token.1 none) token.1 box.value) where
  toVault :=
    { books.giveUp.toVault with
      whole := by
        intro pair taken
        rcases List.mem_append.mp taken with earlier | last
        · exact books.whole pair earlier
        · rw [List.mem_singleton] at last
          rw [last]
          exact ⟨box, listed, named, rfl⟩ }
  toBodies := books.giveUp.toBodies.congr rfl rfl
  toPlaces :=
    { tasksSound := books.giveUp.tasksSound
      channelsSound := books.giveUp.channelsSound
      places := books.giveUp.places
      made := books.giveUp.made
      ofTasks := books.giveUp.ofTasks
      wired := books.giveUp.wired
      drained := books.giveUp.drained
      ofChannels := books.giveUp.ofChannels }

theorem permute {other : List (UInt64 × UInt64)} (books : Books spine flight machine)
    (same : flight.Perm other) : Books spine other machine where
  toVault := books.toVault
  toBodies := books.toBodies
  toPlaces :=
    { books.toPlaces with
      places := by
        have moved : (↑(other.map Prod.fst) : Multiset UInt64) = ↑(flight.map Prod.fst) :=
          Multiset.coe_eq_coe.mpr (same.map Prod.fst).symm
        rw [moved]
        exact books.places
      made := fun token moving => books.made token (same.mem_iff.mpr moving) }

end Books

/-! ## Boxing and recovering -/

/-- Boxes were added and nothing else of the tables changed. -/
structure Grows (machine after : Machine) (new : List (UInt64 × UInt64)) : Prop where
  tasks : after.tasks = machine.tasks
  channels : after.channels = machine.channels
  frames : after.frames = machine.frames
  owner : after.owner = machine.owner
  wires : after.wires = machine.wires
  boxes : ∃ extra : List Box, after.boxes = machine.boxes ++ extra ∧
    extra.map (fun box => (box.token, box.typeId)) = new

/-- The operands of crossings and the tokens among them. -/
inductive Loaded : List Crossing → List Payload → List (UInt64 × UInt64) → Prop
  | nil : Loaded [] [] []
  | plain {crossing : Crossing} {crossings : List Crossing} {operands : List Payload}
      {new : List (UInt64 × UInt64)} (operand : Payload) (unboxed : crossing.isBoxed = false)
      (rest : Loaded crossings operands new) :
      Loaded (crossing :: crossings) (operand :: operands) new
  | boxed {crossings : List Crossing} {operands : List Payload}
      {new : List (UInt64 × UInt64)} (typeId token : UInt64)
      (rest : Loaded crossings operands new) :
      Loaded (.boxed typeId :: crossings) (.tree (.int token.toInt64) :: operands)
        ((token, typeId) :: new)

theorem grows_refl (machine : Machine) : Grows machine machine [] :=
  ⟨rfl, rfl, rfl, rfl, rfl, [], by simp⟩

theorem Grows.trans {middle : Machine} {later : List (UInt64 × UInt64)}
    (first : Grows machine middle new) (second : Grows middle after later) :
    Grows machine after (new ++ later) where
  tasks := second.tasks.trans first.tasks
  channels := second.channels.trans first.channels
  frames := second.frames.trans first.frames
  owner := second.owner.trans first.owner
  wires := second.wires.trans first.wires
  boxes := by
    rcases first.boxes with ⟨extra, added, named⟩
    rcases second.boxes with ⟨more, addedMore, namedMore⟩
    exact ⟨extra ++ more, by rw [addedMore, added, List.append_assoc],
      by rw [List.map_append, named, namedMore]⟩

theorem boxForSlot_ends (books : Books spine flight machine) (crossing : Crossing)
    (value : Payload) :
    Ends (fun operand after => ∃ new, Loaded [crossing] [operand] new ∧
        Books spine (new ++ flight) after ∧ Grows machine after new ∧
        ∀ box ∈ after.boxes, (box.token, box.typeId) ∈ new → value = .tree box.value)
      (fun _ after => after = machine) (boxForSlot crossing value machine) := by
  cases crossing with
  | word => exact ⟨[], .plain value rfl .nil, books, grows_refl machine, by simp⟩
  | floatBits =>
    simp only [boxForSlot]
    unfold convertFloatToBits
    split
    · exact ⟨[], .plain _ rfl .nil, books, grows_refl machine, by simp⟩
    · rfl
  | boxed typeId =>
    cases value with
    | refused => rfl
    | tree tree =>
      by_cases hasToken : HasToken machine.store
      · simp only [boxForSlot]
        rw [bind_run_ok (nativeStateNew_run hasToken typeId tree)]
        refine ⟨[_], .boxed typeId machine.store.next .nil, books.box hasToken typeId tree,
          ⟨rfl, rfl, rfl, rfl, rfl, [_], rfl, rfl⟩, ?_⟩
        intro box listed new
        rw [List.mem_singleton, Prod.mk.injEq] at new
        rcases List.mem_append.mp listed with old | last
        · apply absurd _ books.next_unused
          rw [← new.1]
          exact List.mem_map_of_mem old
        · rw [List.mem_singleton] at last
          rw [last]
      · rcases nativeStateNew_refused hasToken typeId tree with ⟨trap, ran⟩
        simp only [boxForSlot]
        rw [bind_run_error ran]
        rfl

/-- Boxing the arguments of a spawn puts their tokens on the way. -/
theorem boxArgs_ends (books : Books spine flight machine) {crossings : List Crossing}
    {values : List Payload} (arity : values.length = crossings.length) :
    Ends (fun operands after => ∃ new, Loaded crossings operands new ∧
        Books spine (new ++ flight) after ∧ Grows machine after new)
      (fun _ after => ∃ new, Books spine (new ++ flight) after ∧ Grows machine after new)
      (boxArgs crossings values machine) := by
  induction crossings generalizing values flight machine with
  | nil =>
    cases values with
    | nil => exact ⟨[], .nil, books, grows_refl machine⟩
    | cons value values => simp at arity
  | cons crossing crossings ih =>
    cases values with
    | nil => simp at arity
    | cons value values =>
      have first := boxForSlot_ends books crossing value
      simp only [boxArgs]
      cases ran : boxForSlot crossing value machine with
      | error trap after =>
        rw [ran] at first
        cases first
        rw [bind_run_error ran]
        exact ⟨[], books, grows_refl machine⟩
      | ok operand middle =>
        rw [ran] at first
        rw [bind_run_ok ran]
        rcases first with ⟨new, loaded, middleBooks, grows, -⟩
        have rest := ih middleBooks (by simpa using arity)
        cases ranRest : boxArgs crossings values middle with
        | error trap after =>
          rw [ranRest] at rest
          rw [bind_run_error ranRest]
          rcases rest with ⟨more, afterBooks, growsMore⟩
          refine ⟨new ++ more, afterBooks.permute ?_, grows.trans growsMore⟩
          rw [← List.append_assoc]
          exact List.perm_append_comm.append_right flight
        | ok operands after =>
          rw [ranRest] at rest
          rw [bind_run_ok ranRest]
          rcases rest with ⟨more, loadedMore, afterBooks, growsMore⟩
          refine ⟨new ++ more, ?_, afterBooks.permute ?_, grows.trans growsMore⟩
          · cases loaded with
            | plain _ unboxed rest =>
              cases rest
              exact .plain _ unboxed loadedMore
            | boxed typeId token rest =>
              cases rest
              exact .boxed typeId token loadedMore
          · rw [← List.append_assoc]
            exact List.perm_append_comm.append_right flight

theorem popInt_loaded {crossing : Crossing} {operand : Payload}
    (loaded : Loaded [crossing] [operand] new) (machine : Machine) :
    (∃ trap, popInt operand machine = .error trap machine) ∨
      ∃ word, popInt operand machine = .ok word machine ∧ boxedWords [crossing] [word] = new := by
  cases loaded with
  | plain _ unboxed rest =>
    cases rest
    unfold popInt
    split
    · refine Or.inr ⟨_, rfl, ?_⟩
      cases crossing with
      | boxed typeId => cases unboxed
      | word | floatBits => rfl
    · exact Or.inl ⟨_, rfl⟩
  | boxed typeId token rest =>
    cases rest
    exact Or.inr ⟨_, rfl, rfl⟩

theorem Grows.dropped (grows : Grows machine after new) :
    (after.boxes.drop machine.boxes.length).map Box.token = new.map Prod.fst := by
  rcases grows.boxes with ⟨extra, added, named⟩
  rw [added, List.drop_left, ← named, List.map_map]
  rfl

theorem Grows.unplaced {before : List (UInt64 × UInt64)} (grows : Grows machine after new)
    (books : Books spine before machine) (afterBooks : Books spine flight after) :
    ∀ token ∈ new, ∀ holder, after.owner token.1 ≠ some holder := by
  intro token listed holder owned
  rcases grows.boxes with ⟨extra, added, named⟩
  have old : token.1 ∈ machine.boxes.map Box.token := by
    rw [grows.owner] at owned
    exact books.assigned token.1 holder owned
  have fresh : token.1 ∈ extra.map Box.token := by
    rw [← named] at listed
    rcases List.mem_map.mp listed with ⟨box, boxed, same⟩
    exact List.mem_map.mpr ⟨box, boxed, by rw [← same]⟩
  have distinct := afterBooks.tokens_nodup
  rw [added, List.map_append, List.nodup_append] at distinct
  exact distinct.2.2 token.1 old token.1 fresh rfl

theorem recoverFromSlot_ends {crossing : Crossing} {word : Int64}
    (books : Books spine (boxedWords [crossing] [word] ++ flight) machine) :
    Ends (fun _ after => Books spine flight after ∧ Grows machine after [])
      (fun _ after => after = machine ∧ ∃ box ∈ machine.boxes,
        (box.token, box.typeId) ∈ boxedWords [crossing] [word] ∧
          box.value.requiresEngineRelease = true)
      (recoverFromSlot crossing word machine) := by
  cases crossing with
  | word => exact ⟨books, grows_refl machine⟩
  | floatBits => exact ⟨books, grows_refl machine⟩
  | boxed typeId =>
    rcases books.found_flight with ⟨box, listed, named, typed, nonnull, found⟩
    have taken := nativeStateTake_box nonnull found
    rw [named, typed] at taken
    simp only [recoverFromSlot, taken]
    cases engine : box.value.requiresEngineRelease with
    | true =>
      refine ⟨rfl, box, listed, ?_, engine⟩
      rw [named, typed]
      exact List.mem_singleton_self _
    | false =>
      exact ⟨books.takeOut listed named, rfl, rfl, rfl, rfl, rfl, [], by
        simp [Machine.takenOut, Machine.givenUp]⟩

theorem nativeStateRelease_ends {token : UInt64 × UInt64}
    (books : Books spine (token :: flight) machine) :
    ∃ after, nativeStateRelease token.1 machine = .ok () after ∧ Books spine flight after ∧
      Grows machine after [] := by
  rcases books.found_flight with ⟨box, listed, named, typed, nonnull, found⟩
  have ran := nativeStateRelease_box nonnull found
  rw [named] at ran
  exact ⟨_, ran, books.giveUp, rfl, rfl, rfl, rfl, rfl, [], by simp [Machine.givenUp]⟩

/-! ## The task table -/

/-- No body on the stack is the body of the key's task. -/
def Idle (frames : List Frame) (key : Key) : Prop :=
  ∀ handle row tail, Frame.body handle row tail ∈ frames → TaskExecutor.parts handle ≠ .ok key

/-- What moves between two places leaves the rest of both as it is. -/
theorem exchange {left right left' right' : Multiset UInt64}
    (moved : left + right = left' + right') (rest beside : Multiset UInt64) :
    left + (right + rest + beside) = left' + (right' + rest + beside) := by
  calc
    left + (right + rest + beside) = left + right + (rest + beside) := by abel
    _ = left' + right' + (rest + beside) := by rw [moved]
    _ = left' + (right' + rest + beside) := by abel

theorem elim_taskWords (spine : Spine) (entry : Option Task) :
    entry.elim [] spine.taskWords = (entry.elim [] spine.taskTokens).map Prod.fst := by
  cases entry <;> rfl

namespace Books

theorem idle (books : Books spine flight machine) {key : Key}
    (still : ∀ task, machine.tasks.tasks.find? key = some task → task.state ≠ .running) :
    Idle machine.frames key := by
  intro handle row tail listed named
  rcases books.runs handle row tail listed with ⟨other, task, runs⟩
  have same := runs.named
  rw [named] at same
  cases same
  exact still task runs.found runs.running

theorem updateTask {other : List (UInt64 × UInt64)} {key : Key} {entry : Option Task}
    {after : TaskExecutor} (books : Books spine flight machine)
    (updates : UpdatesTask machine.tasks key entry after)
    (idle : Idle machine.frames key ∨ entry = machine.tasks.tasks.find? key)
    (moved : (flight ++ (machine.tasks.tasks.find? key).elim [] spine.taskTokens).Perm
      (other ++ entry.elim [] spine.taskTokens))
    (placed : ∀ task, entry = some task → ∀ token ∈ spine.taskTokens task,
      machine.owner token.1 = some (.task key)) :
    Books spine other (machine.withTasks after) := by
  have made : ∀ token ∈ other ++ entry.elim [] spine.taskTokens, machine.Made token := by
    intro token listed
    rcases List.mem_append.mp (moved.mem_iff.mpr listed) with moving | held
    · exact books.made token moving
    · cases found : machine.tasks.tasks.find? key with
      | none =>
        rw [found] at held
        cases held
      | some task =>
        rw [found] at held
        exact (books.ofTasks key task found token held).2
  have others : ∀ away, away ≠ key → after.tasks.find? away = machine.tasks.tasks.find? away :=
    updates.others
  refine
    { toVault := ⟨books.tokens_nodup, books.fresh, books.stored, books.assigned, books.whole⟩
      toBodies := ⟨?runs, books.nodup⟩
      tasksSound := updates.sound
      channelsSound := books.channelsSound
      places := ?places
      made := fun token moving => made token (List.mem_append_left _ moving)
      ofTasks := ?ofTasks
      wired := books.wired
      drained := books.drained
      ofChannels := books.ofChannels }
  case runs =>
    intro handle row tail listed
    rcases books.runs handle row tail listed with ⟨away, task, runs⟩
    have kept : after.tasks.find? away = machine.tasks.tasks.find? away := by
      by_cases same : away = key
      · rcases idle with idle | unchanged
        · exact absurd (by rw [runs.named, same]) (idle handle row tail listed)
        · rw [same, ← unchanged]
          exact updates.found
      · exact others away same
    exact ⟨away, task, runs.named, kept.trans runs.found, runs.running, runs.target, runs.fits⟩
  case places =>
    rcases updates.rest spine.taskWords with ⟨rest, before, later⟩
    have before' := Multiset.coe_eq_coe.mpr before
    have later' := Multiset.coe_eq_coe.mpr later
    have moved' := Multiset.coe_eq_coe.mpr (moved.map Prod.fst)
    rw [elim_taskWords, ← Multiset.coe_add] at before' later'
    rw [List.map_append, List.map_append, ← Multiset.coe_add, ← Multiset.coe_add] at moved'
    change (↑(machine.boxes.map Box.token) : Multiset UInt64) = ↑machine.released +
      (↑(other.map Prod.fst) + (↑(after.tasks.contents spine.taskWords) +
        ↑(machine.channels.contents channelWords)))
    rw [books.places, before', later', exchange moved']
  case ofTasks =>
    intro away task found token held
    by_cases same : away = key
    · rw [same] at found ⊢
      have entered : entry = some task := updates.found.symm.trans found
      refine ⟨placed task entered token held, made token (List.mem_append_right _ ?_)⟩
      rw [entered]
      exact held
    · exact books.ofTasks away task ((others away same).symm.trans found) token held

end Books

namespace Books

theorem keepTask {key : Key} {task : Task} {after : TaskExecutor}
    (books : Books spine flight machine) (found : machine.tasks.tasks.find? key = some task)
    (updates : UpdatesTask machine.tasks key (some task) after) :
    Books spine flight (machine.withTasks after) := by
  apply books.updateTask updates (Or.inr found.symm)
  · rw [found]
  · intro next entered token held
    cases entered
    exact (books.ofTasks key task found token held).1

end Books

/-! ## The channel table -/

theorem channelWords_of_boxed {channel : Channel} (boxed : channel.boxed = true) :
    channelWords channel = channel.queue.map Int64.toUInt64 := by
  simp [channelWords, boxed]

theorem channelWords_of_plain {channel : Channel} (plain : channel.boxed = false) :
    channelWords channel = [] := by
  simp [channelWords, plain]

namespace Books

theorem updateChannel {other : List (UInt64 × UInt64)} {key : Key} {entry : Option Channel}
    {after : ChannelExecutor} {wires : Key → Crossing} (books : Books spine flight machine)
    (updates : UpdatesChannel machine.channels key entry after)
    (away : ∀ elsewhere, elsewhere ≠ key → wires elsewhere = machine.wires elsewhere)
    (moved : (flight.map Prod.fst ++ (machine.channels.find? key).elim [] channelWords).Perm
      (other.map Prod.fst ++ entry.elim [] channelWords))
    (made : ∀ token ∈ other, machine.Made token)
    (wired : ∀ channel, entry = some channel → channel.boxed = (wires key).isBoxed)
    (drained : ∀ channel, entry = some channel → channel.receiverLive = false →
      channel.queue = [])
    (placed : ∀ channel, entry = some channel → ∀ word ∈ channelWords channel,
      machine.owner word = some (.channel key) ∧
        ∀ typeId, wires key = .boxed typeId → machine.Made (word, typeId)) :
    Books spine other { machine with channels := after, wires := wires } := by
  have others : ∀ elsewhere, elsewhere ≠ key →
      after.find? elsewhere = machine.channels.find? elsewhere := updates.others
  refine
    { toVault := ⟨books.tokens_nodup, books.fresh, books.stored, books.assigned, books.whole⟩
      toBodies := books.toBodies.congr rfl rfl
      tasksSound := books.tasksSound
      channelsSound := updates.sound
      places := ?places
      made := made
      ofTasks := books.ofTasks
      wired := ?wired
      drained := ?drained
      ofChannels := ?ofChannels }
  case places =>
    rcases updates.rest channelWords with ⟨rest, before, later⟩
    have before' := Multiset.coe_eq_coe.mpr before
    have later' := Multiset.coe_eq_coe.mpr later
    have moved' := Multiset.coe_eq_coe.mpr moved
    rw [← Multiset.coe_add] at before' later'
    rw [← Multiset.coe_add, ← Multiset.coe_add] at moved'
    have swapped := exchange moved' ↑rest ↑(machine.tasks.tasks.contents spine.taskWords)
    have total := books.places
    rw [before', add_comm (↑(machine.tasks.tasks.contents spine.taskWords) : Multiset UInt64),
      swapped, ← later', add_comm (↑(after.contents channelWords) : Multiset UInt64)] at total
    exact total
  case wired =>
    intro elsewhere channel found
    by_cases same : elsewhere = key
    · rw [same] at found ⊢
      exact wired channel (updates.found.symm.trans found)
    · dsimp only
      rw [away elsewhere same]
      exact books.wired elsewhere channel ((others elsewhere same).symm.trans found)
  case drained =>
    intro elsewhere channel found
    by_cases same : elsewhere = key
    · rw [same] at found
      exact drained channel (updates.found.symm.trans found)
    · exact books.drained elsewhere channel ((others elsewhere same).symm.trans found)
  case ofChannels =>
    intro elsewhere channel found word held
    by_cases same : elsewhere = key
    · rw [same] at found ⊢
      exact placed channel (updates.found.symm.trans found) word held
    · dsimp only
      rw [away elsewhere same]
      exact books.ofChannels elsewhere channel ((others elsewhere same).symm.trans found) word held

/-! ## Frames and owners -/

variable {frames : List Frame}

theorem frames_changed (books : Books spine flight machine)
    (bodies : Bodies spine (machine.withFrames frames)) :
    Books spine flight (machine.withFrames frames) where
  toVault := ⟨books.tokens_nodup, books.fresh, books.stored, books.assigned, books.whole⟩
  toBodies := bodies
  toPlaces := ⟨books.tasksSound, books.channelsSound, books.places, books.made, books.ofTasks,
    books.wired, books.drained, books.ofChannels⟩

theorem pop {frame : Frame} (books : Books spine flight machine)
    (stack : machine.frames = frame :: frames) :
    Books spine flight (machine.withFrames frames) := by
  apply books.frames_changed
  have nodup := books.nodup
  constructor
  · intro handle row tail listed
    have earlier : Frame.body handle row tail ∈ machine.frames := by
      rw [stack]
      exact List.mem_cons_of_mem _ listed
    rcases books.runs handle row tail earlier with ⟨key, task, runs⟩
    exact ⟨key, task, runs.named, runs.found, runs.running, runs.target, runs.fits⟩
  · rw [stack] at nodup
    change (frames.filterMap Frame.bodyHandle).Nodup
    rw [List.filterMap_cons] at nodup
    split at nodup
    · exact nodup
    · exact (List.nodup_cons.mp nodup).2

theorem pop_idle {handle : Int64} {row : TaskTargetInfo} {tail : Tail} {key : Key}
    (books : Books spine flight machine)
    (stack : machine.frames = .body handle row tail :: frames)
    (named : TaskExecutor.parts handle = .ok key) : Idle frames key := by
  intro other otherRow otherTail listed otherNamed
  have same : other = handle := by
    rw [TaskExecutor.eq_wordOf_of_parts otherNamed, TaskExecutor.eq_wordOf_of_parts named]
  have nodup := books.nodup
  rw [stack, List.filterMap_cons] at nodup
  have outside := (List.nodup_cons.mp nodup).1
  rw [same] at listed
  exact outside (List.mem_filterMap.mpr ⟨_, listed, rfl⟩)

theorem push {frame : Frame} (books : Books spine flight machine)
    (plain : frame.bodyHandle = none) :
    Books spine flight (machine.withFrames (frame :: machine.frames)) := by
  apply books.frames_changed
  constructor
  · intro handle row tail listed
    rcases List.mem_cons.mp listed with new | earlier
    · rw [← new] at plain
      cases plain
    · rcases books.runs handle row tail earlier with ⟨key, task, runs⟩
      exact ⟨key, task, runs.named, runs.found, runs.running, runs.target, runs.fits⟩
  · change (List.filterMap _ (frame :: machine.frames)).Nodup
    rw [List.filterMap_cons, plain]
    exact books.nodup

theorem push_body {handle : Int64} {row : TaskTargetInfo} {tail : Tail} {key : Key} {task : Task}
    (books : Books spine flight machine) (runs : Runs spine machine handle row tail key task)
    (idle : Idle machine.frames key) :
    Books spine flight (machine.withFrames (.body handle row tail :: machine.frames)) := by
  apply books.frames_changed
  constructor
  · intro other otherRow otherTail listed
    rcases List.mem_cons.mp listed with new | earlier
    · cases new
      exact ⟨key, task, runs.named, runs.found, runs.running, runs.target, runs.fits⟩
    · rcases books.runs other otherRow otherTail earlier with ⟨away, held, awayRuns⟩
      exact ⟨away, held, awayRuns.named, awayRuns.found, awayRuns.running, awayRuns.target,
        awayRuns.fits⟩
  · change (List.filterMap _ (Frame.body handle row tail :: machine.frames)).Nodup
    rw [List.filterMap_cons]
    refine List.nodup_cons.mpr ⟨?_, books.nodup⟩
    intro listed
    rcases List.mem_filterMap.mp listed with ⟨frame, earlier, same⟩
    cases frame with
    | body other otherRow otherTail =>
      simp only [Frame.bodyHandle, Option.some.injEq] at same
      rw [same] at earlier
      exact idle handle otherRow otherTail earlier runs.named
    | waiting crossing receiver => cases same
    | closing receiver => cases same

theorem assign {count : Nat} {holder : Option Holder} (books : Books spine flight machine)
    (moving : ∀ token ∈ (machine.boxes.drop count).map Box.token, token ∈ flight.map Prod.fst) :
    Books spine flight (machine.assigned count holder) where
  toVault :=
    { tokens_nodup := books.tokens_nodup
      fresh := books.fresh
      stored := books.stored
      assigned := by
        intro token other owned
        simp only [Machine.assigned] at owned
        split at owned
        · rename_i listed
          rcases List.mem_map.mp listed with ⟨box, boxed, same⟩
          exact List.mem_map.mpr ⟨box, List.mem_of_mem_drop boxed, same⟩
        · exact books.assigned token other owned
      whole := books.whole }
  toBodies := books.toBodies.congr rfl rfl
  toPlaces :=
    { tasksSound := books.tasksSound
      channelsSound := books.channelsSound
      places := books.places
      made := books.made
      ofTasks := by
        intro key task found token held
        have apart : token.1 ∉ (machine.boxes.drop count).map Box.token := by
          intro listed
          apply (books.flight_apart (moving token.1 listed)).2.1
          exact Table.mem_contents.mpr ⟨key, task, found, List.mem_map_of_mem held⟩
        simp only [Machine.assigned, if_neg apart]
        exact books.ofTasks key task found token held
      wired := books.wired
      drained := books.drained
      ofChannels := by
        intro key channel found word held
        have apart : word ∉ (machine.boxes.drop count).map Box.token := by
          intro listed
          apply (books.flight_apart (moving word listed)).2.2
          exact Table.mem_contents.mpr ⟨key, channel, found, held⟩
        simp only [Machine.assigned, if_neg apart]
        exact books.ofChannels key channel found word held }

end Books

end KiraVm.KiraIr
