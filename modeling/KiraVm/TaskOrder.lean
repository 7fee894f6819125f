import KiraVm.TaskHistory

/-!
# The order of pending tasks

A driver picks the pending task of the lowest slot.  Slots are in the order of
spawning as long as no spawn takes a slot that is below the slot of a task which is
still pending.
-/

namespace KiraVm

open SlotTable StateLogic

namespace TaskExecutor

/-- The handle names a task whose body has not run. -/
def Pending (executor : TaskExecutor) (word : Int64) : Prop :=
  ∃ held, lookup executor word = some held ∧ held.state = .pending

/-- The pending task that was spawned before all others. -/
def Earliest (requests : List TaskRequest) (word : Int64) : Prop :=
  Pending (tableAfter requests) word ∧
    ∀ other, Pending (tableAfter requests) other →
      (spawned (logAfter requests)).idxOf word ≤ (spawned (logAfter requests)).idxOf other

/-- A driver is given the earliest pending task, and none when no task is pending. -/
def PicksEarliest (requests : List TaskRequest) : Prop :=
  ∀ first second third,
    (∃ word, word ≠ 0 ∧
      (serve (tableAfter requests) ⟨.pickReady, first, second, third⟩).1 = .ok word ∧
      Earliest requests word) ∨
    (serve (tableAfter requests) ⟨.pickReady, first, second, third⟩).1 = .ok 0 ∧
      ∀ word, ¬ Pending (tableAfter requests) word

def SpawnsAbove (executor : TaskExecutor) : Prop :=
  ∀ index claimed, executor.tasks.claim maxTasks = some (index, claimed) →
    ∀ key held, executor.tasks.find? key = some held → held.state = .pending → key.index < index

/-- Every spawn takes such a slot. -/
def Orderly (requests : List TaskRequest) : Prop :=
  ∀ before request after, requests = before ++ request :: after → request.prim = .spawn →
    SpawnsAbove (tableAfter before)

theorem Orderly.front {requests : List TaskRequest} {request : TaskRequest}
    (orderly : Orderly (requests ++ [request])) : Orderly requests := by
  intro before other after split spawns
  apply orderly before other (after ++ [request]) _ spawns
  rw [split]
  simp

theorem Orderly.last {requests : List TaskRequest} {request : TaskRequest}
    (orderly : Orderly (requests ++ [request])) (spawns : request.prim = .spawn) :
    SpawnsAbove (tableAfter requests) :=
  orderly requests request [] rfl spawns

/-! ## Slots in the order of spawning -/

/-- Of two pending tasks the one in the lower slot was spawned first. -/
def InOrder (log : List TaskEvent) (executor : TaskExecutor) : Prop :=
  ∀ key other held others, executor.tasks.find? key = some held → held.state = .pending →
    executor.tasks.find? other = some others → others.state = .pending → key.index < other.index →
    (spawned log).idxOf (wordOf key) < (spawned log).idxOf (wordOf other)

variable {log : List TaskEvent} {executor after : TaskExecutor} {key : Key}

theorem InOrder.keeps (inOrder : InOrder log executor) {event : TaskEvent}
    (silent : spawnedBy event = none)
    (stays : ∀ key held, after.tasks.find? key = some held → held.state = .pending →
      ∃ before, executor.tasks.find? key = some before ∧ before.state = .pending) :
    InOrder (log ++ [event]) after := by
  intro key other held others found pending foundOther pendingOther lower
  rcases stays key held found pending with ⟨before, foundBefore, pendingBefore⟩
  rcases stays other others foundOther pendingOther with ⟨earlier, foundEarlier, pendingEarlier⟩
  rw [spawned_append, silent, Option.toList_none, List.append_nil]
  exact inOrder key other before earlier foundBefore pendingBefore foundEarlier pendingEarlier lower

theorem pending_of_updates {entry : Option Task} (updates : UpdatesTask executor key entry after)
    (own : ∀ held, entry = some held → held.state = .pending →
      ∃ before, executor.tasks.find? key = some before ∧ before.state = .pending)
    (other : Key) (held : Task) (found : after.tasks.find? other = some held)
    (pending : held.state = .pending) :
    ∃ before, executor.tasks.find? other = some before ∧ before.state = .pending := by
  by_cases same : other = key
  · subst same
    rw [updates.found] at found
    exact own held found pending
  · rw [updates.others other same] at found
    exact ⟨held, found, pending⟩

variable {index generation : Nat}

theorem handle_eq_ok {word : Int64} (packed : handle index generation = .ok word) :
    InRange ⟨index, generation⟩ ∧ word = wordOf ⟨index, generation⟩ := by
  unfold handle at packed
  split at packed
  · cases packed
  · rename_i slotFits
    simp only at packed
    split at packed
    · cases packed
    · rename_i wordFits
      cases packed
      refine ⟨⟨?_, ?_⟩, rfl⟩
      · simp only [maxTasks]
        omega
      · simp only [lastGeneration]
        omega

theorem spawn_takes {target second third : Int64} (inRange : InRange key)
    (answered : (serve executor ⟨.spawn, target, second, third⟩).1 = .ok (wordOf key)) :
    ∃ claimed, executor.tasks.claim maxTasks = some (key.index, claimed) := by
  unfold serve at answered
  simp only [perform, spawn, bind, EStateM.bind, get_run] at answered
  cases claimed : executor.tasks.claim maxTasks with
  | none =>
    rw [claimed] at answered
    cases answered
  | some taken =>
    rcases taken with ⟨index, middle⟩
    rw [claimed] at answered
    cases here : middle.slots[index]? with
    | none =>
      simp only [here] at answered
      cases answered
    | some slot =>
      simp only [here] at answered
      cases packed : handle index slot.generation with
      | error trap =>
        rw [packed] at answered
        cases answered
      | ok word =>
        rcases handle_eq_ok packed with ⟨otherInRange, same⟩
        rw [packed, same] at answered
        have equal := wordOf_injective otherInRange inRange (Except.ok.inj answered)
        exact ⟨middle, by rw [← equal]⟩

theorem InOrder.spawns (tracks : Tracks log executor) (inOrder : InOrder log executor)
    {target second third : Int64} {tasks : Table Task}
    (inserts : Table.Inserts lastGeneration maxTasks executor.tasks (freshTask target) key tasks)
    (above : ∀ other held, executor.tasks.find? other = some held → held.state = .pending →
      other.index < key.index) :
    InOrder (log ++ [⟨⟨.spawn, target, second, third⟩, .ok (wordOf key)⟩])
      { executor with tasks := tasks } := by
  have inRange : InRange key := ⟨inserts.index_lt, inserts.generation_le⟩
  have fresh := (tracks.unissued key inRange inserts.fresh).spawned
  have grown : spawned (log ++ [⟨⟨.spawn, target, second, third⟩, .ok (wordOf key)⟩]) =
      spawned log ++ [wordOf key] := by
    rw [spawned_append]
    rfl
  have earlier : ∀ other held, executor.tasks.find? other = some held →
      wordOf other ∈ spawned log := fun other held found =>
    tracks.spawned other (tracks.sound.issued_of_find? found)
  intro first other held others found pending foundOther pendingOther lower
  rw [grown]
  by_cases isFirst : first = key
  · subst isFirst
    have apart : other ≠ first := by
      rintro rfl
      exact Nat.lt_irrefl _ lower
    have before : executor.tasks.find? other = some others := by
      rw [← inserts.others other apart]
      exact foundOther
    have below := above other others before pendingOther
    omega
  · have before : executor.tasks.find? first = some held := by
      rw [← inserts.others first isFirst]
      exact found
    by_cases isOther : other = key
    · subst isOther
      rw [List.idxOf_append_of_mem (earlier first held before), List.idxOf_append_of_notMem fresh]
      have within := List.idxOf_lt_length_of_mem (earlier first held before)
      omega
    · have beforeOther : executor.tasks.find? other = some others := by
        rw [← inserts.others other isOther]
        exact foundOther
      rw [List.idxOf_append_of_mem (earlier first held before),
        List.idxOf_append_of_mem (earlier other others beforeOther)]
      exact inOrder first other held others before pending beforeOther pendingOther lower

theorem InOrder.next (tracks : Tracks log executor) (inOrder : InOrder log executor)
    (request : TaskRequest) (above : request.prim = .spawn → SpawnsAbove executor) :
    InOrder (log ++ [⟨request, (serve executor request).1⟩]) (serve executor request).2 := by
  have performs := serve_performs tracks.sound request
  generalize same : (serve executor request).1 = answer at performs ⊢
  generalize (serve executor request).2 = next at performs ⊢
  cases performs with
  | refused request trap =>
    apply inOrder.keeps (by simp [spawnedBy])
    intro key held found pending
    exact ⟨held, found, pending⟩
  | @spawned target second third key tasks inRange inserts =>
    apply inOrder.spawns tracks inserts
    rcases spawn_takes inRange same with ⟨claimed, takes⟩
    exact above rfl key.index claimed takes
  | @own prim second third key task answer entry after names found effect updates =>
    apply inOrder.keeps (spawnedBy_own names)
    apply pending_of_updates updates
    rintro held rfl pending
    exact ⟨task, found, (ownEffect_pending effect pending).1⟩
  | @picked first second third key task after found pending updates =>
    apply inOrder.keeps rfl
    apply pending_of_updates updates
    rintro held running stillPending
    cases running
    cases stillPending
  | noneReady first second third =>
    apply inOrder.keeps rfl
    intro key held found pending
    exact ⟨held, found, pending⟩
  | ticked ms second third clock =>
    apply inOrder.keeps rfl
    intro key held found pending
    exact ⟨held, found, pending⟩

theorem inOrder_serveAll (requests : List TaskRequest) (orderly : Orderly requests) :
    InOrder (logAfter requests) (tableAfter requests) := by
  induction requests using List.reverseRecOn with
  | nil =>
    intro key other held others found
    cases found
  | append_singleton requests request ih =>
    have before := ih orderly.front
    have tracks := tracks_serveAll requests
    have next := before.next tracks request fun spawns => orderly.last spawns
    rw [logAfter_append_one]
    unfold tableAfter at next ⊢
    rw [serveAll_append_one]
    exact next

/-! ## Picking -/

theorem firstPending_lowest {slots : List (Slot Task)} {start : Nat} {held : Task}
    (first : firstPending start slots = some (key, held)) {other : Task}
    (here : slots[index]? = some ⟨generation, some other⟩) (pending : other.state = .pending) :
    key.index ≤ start + index := by
  induction slots generalizing start index with
  | nil => cases here
  | cons slot slots ih =>
    rcases slot with ⟨count, occupant⟩
    cases occupant with
    | none =>
      cases index with
      | zero => cases here
      | succ index =>
        have later := ih first here
        omega
    | some task =>
      simp only [firstPending] at first
      split at first
      · cases first
        exact Nat.le_add_right start index
      · rename_i waiting
        cases index with
        | zero =>
          cases here
          exact absurd pending waiting
        | succ index =>
          have later := ih first here
          omega

theorem firstPending_none {slots : List (Slot Task)} {start : Nat}
    (none : firstPending start slots = none) {other : Task}
    (here : slots[index]? = some ⟨generation, some other⟩) : other.state ≠ .pending := by
  induction slots generalizing start index with
  | nil => cases here
  | cons slot slots ih =>
    rcases slot with ⟨count, occupant⟩
    cases occupant with
    | none =>
      cases index with
      | zero => cases here
      | succ index => exact ih none here
    | some task =>
      simp only [firstPending] at none
      split at none
      · cases none
      · rename_i waiting
        cases index with
        | zero =>
          cases here
          exact waiting
        | succ index => exact ih none here

theorem pending_wordOf (inRange : InRange key) {held : Task}
    (found : executor.tasks.find? key = some held) (pending : held.state = .pending) :
    Pending executor (wordOf key) :=
  ⟨held, by rw [lookup_wordOf inRange, found], pending⟩

theorem key_of_pending {word : Int64} (pending : Pending executor word) :
    ∃ key held, word = wordOf key ∧ executor.tasks.find? key = some held ∧
      held.state = .pending := by
  rcases pending with ⟨held, found, waiting⟩
  unfold lookup at found
  cases named : parts word with
  | error trap =>
    rw [named] at found
    cases found
  | ok key =>
    rw [named] at found
    exact ⟨key, held, eq_wordOf_of_parts named, found, waiting⟩

/-- In a run whose spawns all take a slot above the slots of the tasks that are pending then, a
driver is always given the pending task that was spawned first. -/
theorem pickReady_picks_earliest (requests : List TaskRequest) (orderly : Orderly requests) :
    PicksEarliest requests := by
  have tracks := tracks_serveAll requests
  have inOrder := inOrder_serveAll requests orderly
  intro first second third
  cases picked : firstPending 0 (tableAfter requests).tasks.slots with
  | none =>
    have ran : perform .pickReady first second third (tableAfter requests) =
        .ok 0 (tableAfter requests) := by
      simp only [perform, pickReady, bind, EStateM.bind, get_run, picked, pure_run]
    right
    constructor
    · simp only [serve, ran]
    · intro word pending
      rcases key_of_pending pending with ⟨key, held, rfl, found, waiting⟩
      exact firstPending_none picked (Table.find?_eq_some_iff.mp found) waiting
  | some taken =>
    rcases taken with ⟨key, held⟩
    rcases @firstPending_found _ [] key held picked with ⟨here, waiting⟩
    have found : (tableAfter requests).tasks.find? key = some held :=
      Table.find?_eq_some_iff.mpr here
    have inRange : InRange key := tracks.sound.inRange found
    have ran : perform .pickReady first second third (tableAfter requests) =
        .ok (wordOf key) ((tableAfter requests).withTask key { held with state := .running }) := by
      simp only [perform, pickReady, bind, EStateM.bind, get_run, picked, setTask, modify_run,
        handle_inRange inRange, pure_run]
    left
    refine ⟨wordOf key, wordOf_ne_zero inRange, ?_, pending_wordOf inRange found waiting, ?_⟩
    · simp only [serve, ran]
    · intro word pending
      rcases key_of_pending pending with ⟨other, others, rfl, foundOther, waitingOther⟩
      have lowest := firstPending_lowest picked (Table.find?_eq_some_iff.mp foundOther)
        waitingOther
      rw [Nat.zero_add] at lowest
      by_cases lower : key.index < other.index
      · exact Nat.le_of_lt
          (inOrder key other held others found waiting foundOther waitingOther lower)
      · have sameIndex : key.index = other.index := by omega
        have same : key = other := by
          have slot := Table.find?_eq_some_iff.mp foundOther
          rw [← sameIndex, Table.find?_eq_some_iff.mp found] at slot
          cases key
          cases other
          simp_all
        rw [same]

theorem orderly_two : Orderly [⟨.spawn, 1, 0, 0⟩, ⟨.spawn, 2, 0, 0⟩] := by
  intro before request after split _ index claimed claims key held found _
  have inside := (List.getElem?_eq_some_iff.mp (Table.find?_eq_some_iff.mp found)).1
  cases before with
  | nil => exact absurd inside (Nat.not_lt_zero _)
  | cons first before =>
    cases before with
    | nil =>
      cases split
      cases claims
      exact inside
    | cons second before => simp at split

theorem pickReady_picks_first : PicksEarliest [⟨.spawn, 1, 0, 0⟩, ⟨.spawn, 2, 0, 0⟩] :=
  pickReady_picks_earliest _ orderly_two

/-- Three spawns, the third into the slot of the first, which was cancelled. -/
def recycling : List TaskRequest :=
  [⟨.spawn, 1, 0, 0⟩, ⟨.spawn, 2, 0, 0⟩, ⟨.cancel, 1, 0, 0⟩, ⟨.spawn, 3, 0, 0⟩]

/-- The third task is picked before the second. -/
theorem recycled_slot_is_picked_first : ¬ ∀ requests, PicksEarliest requests := by
  intro picks
  have served : (serve (tableAfter recycling) ⟨.pickReady, 0, 0, 0⟩).1 = .ok 4294967297 := by
    decide
  have second : Pending (tableAfter recycling) 2 := ⟨freshTask 2, by decide, rfl⟩
  rcases picks recycling 0 0 0 with ⟨word, _, answered, earliest⟩ | ⟨answered, _⟩
  · rw [served] at answered
    cases answered
    have order := earliest.2 2 second
    have reversed : ¬ (spawned (logAfter recycling)).idxOf 4294967297 ≤
        (spawned (logAfter recycling)).idxOf 2 := by
      decide
    exact reversed order
  · rw [served] at answered
    cases answered

end TaskExecutor

end KiraVm
