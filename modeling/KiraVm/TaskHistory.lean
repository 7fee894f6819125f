import KiraVm.TaskTable
import Mathlib.Data.List.Induction

/-!
# Histories of tasks

A table is followed through any sequence of requests, and every request is
logged with its answer.  What a handle denotes is a function of the log's events
about that handle alone, from the request that spawned it to the one that gave
its task up.
-/

namespace KiraVm

open SlotTable StateLogic

namespace TaskExecutor

/-- A request and its answer. -/
structure TaskEvent where
  request : TaskRequest
  answer : Except TaskTrap Int64

def serveNext (state : List TaskEvent × TaskExecutor) (request : TaskRequest) :
    List TaskEvent × TaskExecutor :=
  (state.1 ++ [⟨request, (serve state.2 request).1⟩], (serve state.2 request).2)

/-- Serve requests from an empty table: the log and the table after them. -/
def serveAll (requests : List TaskRequest) : List TaskEvent × TaskExecutor :=
  requests.foldl serveNext ([], .new)

theorem serveAll_append_one (requests : List TaskRequest) (request : TaskRequest) :
    serveAll (requests ++ [request]) = serveNext (serveAll requests) request := by
  simp [serveAll]

def logAfter (requests : List TaskRequest) : List TaskEvent :=
  (serveAll requests).1

def tableAfter (requests : List TaskRequest) : TaskExecutor :=
  (serveAll requests).2

/-! ## What a log says -/

/-- The handle a successful request spawned. -/
def spawnedBy : TaskEvent → Option Int64
  | ⟨⟨.spawn, _, _, _⟩, .ok word⟩ => some word
  | _ => none

/-- The handle whose body a successful request claimed. -/
def claimedBy : TaskEvent → Option Int64
  | ⟨⟨.beginJoin, word, _, _⟩, .ok answer⟩ => if answer = 1 then some word else none
  | ⟨⟨.beginDetach, word, _, _⟩, .ok answer⟩ => if answer = 1 then some word else none
  | ⟨⟨.pickReady, _, _, _⟩, .ok word⟩ => some word
  | _ => none

/-- The handle whose result a successful request took. -/
def takenBy : TaskEvent → Option Int64
  | ⟨⟨.takeResult, word, _, _⟩, .ok _⟩ => some word
  | _ => none

def spawned (log : List TaskEvent) : List Int64 :=
  log.filterMap spawnedBy

def claims (word : Int64) (log : List TaskEvent) : Nat :=
  (log.filterMap claimedBy).count word

def takes (word : Int64) (log : List TaskEvent) : Nat :=
  (log.filterMap takenBy).count word

def follow (word : Int64) (entry : Option Task) (event : TaskEvent) : Option Task :=
  match event.answer with
  | .error _ => entry
  | .ok answer =>
    match event.request.prim with
    | .spawn => if answer = word then some (freshTask event.request.first) else entry
    | .pickReady =>
      if answer = word then entry.map fun task => { task with state := .running } else entry
    | .advanceClock => entry
    | prim =>
      if event.request.first = word then
        entry.bind fun task =>
          match ownEffect task prim event.request.second event.request.third with
          | .ok (_, next) => next
          | .error _ => some task
      else
        entry

def replay (word : Int64) (log : List TaskEvent) : Option Task :=
  log.foldl (follow word) none

/-- The task a handle denotes in a table. -/
def lookup (executor : TaskExecutor) (word : Int64) : Option Task :=
  match parts word with
  | .ok key => executor.tasks.find? key
  | .error _ => none

/-! ## One more event -/

section Append

variable (log : List TaskEvent) (event : TaskEvent)

theorem spawned_append : spawned (log ++ [event]) = spawned log ++ (spawnedBy event).toList := by
  cases same : spawnedBy event <;> simp [spawned, same]

theorem claims_append (word : Int64) :
    claims word (log ++ [event]) =
      claims word log + if claimedBy event = some word then 1 else 0 := by
  cases same : claimedBy event with
  | none => simp [claims, same]
  | some claimed => by_cases equal : claimed = word <;> simp [claims, same, equal]

theorem takes_append (word : Int64) :
    takes word (log ++ [event]) = takes word log + if takenBy event = some word then 1 else 0 := by
  cases same : takenBy event with
  | none => simp [takes, same]
  | some taken => by_cases equal : taken = word <;> simp [takes, same, equal]

theorem replay_append (word : Int64) :
    replay word (log ++ [event]) = follow word (replay word log) event := by
  simp [replay]

end Append

/-! ## The table and the log -/

/-- The log says nothing of a handle. -/
structure Untouched (log : List TaskEvent) (word : Int64) : Prop where
  spawned : word ∉ spawned log
  claims : claims word log = 0
  takes : takes word log = 0

/-- The log tells the history of every task of the table. -/
structure Tracks (log : List TaskEvent) (executor : TaskExecutor) : Prop where
  sound : SoundTasks executor
  issuedInRange : ∀ key, executor.tasks.Issued key → InRange key
  unissued : ∀ key, InRange key → ¬ executor.tasks.Issued key → Untouched log (wordOf key)
  replayed : ∀ key, InRange key → executor.tasks.find? key = replay (wordOf key) log
  spawned : ∀ key, executor.tasks.Issued key → wordOf key ∈ spawned log
  untaken : ∀ key task, executor.tasks.find? key = some task → takes (wordOf key) log = 0
  unclaimed : ∀ key task, executor.tasks.find? key = some task → task.state = .pending →
    claims (wordOf key) log = 0
  claimed : ∀ key, InRange key → claims (wordOf key) log ≤ 1
  taken : ∀ key, InRange key → takes (wordOf key) log ≤ 1
  named : ∀ word ∈ TaskExecutor.spawned log, ∃ key, executor.tasks.Issued key ∧ word = wordOf key
  once : (TaskExecutor.spawned log).Nodup

variable {log : List TaskEvent} {executor after : TaskExecutor} {key other : Key}
  {event : TaskEvent}

/-- What an event says about a handle it does not concern: nothing. -/
structure Passes (event : TaskEvent) (word : Int64) : Prop where
  spawned : spawnedBy event ≠ some word
  claimed : claimedBy event ≠ some word
  taken : takenBy event ≠ some word
  follow : ∀ entry, follow word entry event = entry

variable {word : Int64} {entry : Option Task} {prim : TaskPrim} {second third answer first : Int64}
  {request : TaskRequest} {requests : List TaskRequest} {held : Task}

theorem Untouched.passes (untouched : Untouched log word) (passes : Passes event word) :
    Untouched (log ++ [event]) word where
  spawned := by
    rw [spawned_append]
    simp [untouched.spawned, passes.spawned]
  claims := by rw [claims_append, untouched.claims, if_neg passes.claimed]
  takes := by rw [takes_append, untouched.takes, if_neg passes.taken]

/-- An event about at most one handle, and what it says about that handle. -/
structure Moves (log : List TaskEvent) (event : TaskEvent) (executor : TaskExecutor) (key : Key)
    (entry : Option Task) (after : TaskExecutor) : Prop where
  inRange : InRange key
  updates : UpdatesTask executor key entry after
  passes : ∀ other, InRange other → other ≠ key → Passes event (wordOf other)
  follow : follow (wordOf key) (executor.tasks.find? key) event = entry
  spawned : wordOf key ∈ TaskExecutor.spawned (log ++ [event])
  spawnedBy : spawnedBy event = none ∨
    spawnedBy event = some (wordOf key) ∧ ¬ executor.tasks.Issued key
  untaken : entry ≠ none → takes (wordOf key) (log ++ [event]) = 0
  unclaimed : ∀ task, entry = some task → task.state = .pending →
    claims (wordOf key) (log ++ [event]) = 0
  claimed : claims (wordOf key) (log ++ [event]) ≤ 1
  taken : takes (wordOf key) (log ++ [event]) ≤ 1

theorem Tracks.moves (tracks : Tracks log executor)
    (moves : Moves log event executor key entry after) : Tracks (log ++ [event]) after := by
  have updates := moves.updates
  have issuedIff : ∀ other, after.tasks.Issued other ↔ other = key ∨ executor.tasks.Issued other :=
    updates.issues
  refine ⟨updates.sound, ?_, ?_, ?_, ?_, ?_, ?_, ?_, ?_, ?_, ?_⟩
  · intro other issued
    rcases (issuedIff other).mp issued with rfl | before
    · exact moves.inRange
    · exact tracks.issuedInRange other before
  · intro other otherInRange unissued
    have differs : other ≠ key := fun equal => unissued ((issuedIff other).mpr (Or.inl equal))
    exact (tracks.unissued other otherInRange fun before =>
      unissued ((issuedIff other).mpr (Or.inr before))).passes
        (moves.passes other otherInRange differs)
  · intro other otherInRange
    rw [replay_append, ← tracks.replayed other otherInRange]
    by_cases differs : other = key
    · subst differs
      rw [updates.found, moves.follow]
    · rw [updates.others other differs, (moves.passes other otherInRange differs).follow]
  · intro other issued
    rcases (issuedIff other).mp issued with rfl | before
    · exact moves.spawned
    · rw [spawned_append]
      exact List.mem_append_left _ (tracks.spawned other before)
  · intro other task found
    by_cases differs : other = key
    · subst differs
      rw [updates.found] at found
      apply moves.untaken
      rw [found]
      simp
    · rw [updates.others other differs] at found
      have otherInRange := tracks.issuedInRange other (tracks.sound.issued_of_find? found)
      rw [takes_append, tracks.untaken other task found,
        if_neg (moves.passes other otherInRange differs).taken]
  · intro other task found pending
    by_cases differs : other = key
    · subst differs
      rw [updates.found] at found
      exact moves.unclaimed task found pending
    · rw [updates.others other differs] at found
      have otherInRange := tracks.issuedInRange other (tracks.sound.issued_of_find? found)
      rw [claims_append, tracks.unclaimed other task found pending,
        if_neg (moves.passes other otherInRange differs).claimed]
  · intro other otherInRange
    by_cases differs : other = key
    · subst differs
      exact moves.claimed
    · rw [claims_append, if_neg (moves.passes other otherInRange differs).claimed]
      exact tracks.claimed other otherInRange
  · intro other otherInRange
    by_cases differs : other = key
    · subst differs
      exact moves.taken
    · rw [takes_append, if_neg (moves.passes other otherInRange differs).taken]
      exact tracks.taken other otherInRange
  · intro word listed
    rw [spawned_append, List.mem_append, Option.mem_toList] at listed
    rcases listed with earlier | new
    · rcases tracks.named word earlier with ⟨named, issued, same⟩
      exact ⟨named, (issuedIff named).mpr (Or.inr issued), same⟩
    · rcases moves.spawnedBy with silent | ⟨spawnedNow, -⟩
      · rw [silent] at new
        cases new
      · rw [spawnedNow] at new
        cases new
        exact ⟨key, (issuedIff key).mpr (Or.inl rfl), rfl⟩
  · rw [spawned_append]
    rcases moves.spawnedBy with silent | ⟨spawnedNow, fresh⟩
    · rw [silent]
      simpa using tracks.once
    · rw [spawnedNow, Option.toList_some, List.nodup_append]
      refine ⟨tracks.once, by simp, ?_⟩
      intro word earlier last listed same
      rw [List.mem_singleton] at listed
      rw [same, listed] at earlier
      exact (tracks.unissued key moves.inRange fresh).spawned earlier

/-! ## What the primitives do to a task -/

theorem ownEffect_claim {task : Task} (claim : prim = .beginJoin ∨ prim = .beginDetach)
    (effect : ownEffect task prim second third = .ok (1, entry)) : task.state = .pending := by
  rcases task with ⟨state, target, slots, result⟩
  rcases claim with rfl | rfl <;> cases state <;> simp [ownEffect] at effect ⊢

theorem ownEffect_pending {task next : Task}
    (effect : ownEffect task prim second third = .ok (answer, some next))
    (pending : next.state = .pending) :
    task.state = .pending ∧ ¬ ((prim = .beginJoin ∨ prim = .beginDetach) ∧ answer = 1) := by
  rcases task with ⟨state, target, slots, result⟩
  cases prim with
  | setArg =>
    simp only [ownEffect, bind, Except.bind] at effect
    split at effect
    · cases effect
    · cases effect
      exact ⟨pending, by simp⟩
  | slotGet =>
    simp only [ownEffect, bind, Except.bind] at effect
    split at effect
    · cases effect
    · cases effect
      exact ⟨pending, by simp⟩
  | beginJoin =>
    cases state <;> simp [ownEffect] at effect
    · rw [← effect.2] at pending
      cases pending
    · rw [← effect.2] at pending
      cases pending
  | beginDetach =>
    cases state <;> simp [ownEffect] at effect
    · rw [← effect.2] at pending
      cases pending
    · rw [← effect.2] at pending
      cases pending
    · rw [← effect.2] at pending
      cases pending
  | targetOf =>
    cases effect
    exact ⟨pending, by simp⟩
  | complete =>
    cases effect
    cases pending
  | takeResult => cases state <;> simp [ownEffect] at effect
  | markDetached => simp [ownEffect] at effect
  | cancel =>
    cases state <;> simp [ownEffect] at effect <;> rw [← effect.2] at pending <;> cases pending
  | spawn => cases effect
  | pickReady => cases effect
  | advanceClock => cases effect

theorem ownEffect_take {task : Task}
    (effect : ownEffect task .takeResult second third = .ok (answer, entry)) : entry = none := by
  rcases task with ⟨state, target, slots, result⟩
  cases state <;> simp [ownEffect] at effect
  exact effect.2.symm

/-! ## One more request -/

theorem claimedBy_own (names : namesTask prim = true) :
    claimedBy ⟨⟨prim, first, second, third⟩, .ok answer⟩ = some word ↔
      ((prim = .beginJoin ∨ prim = .beginDetach) ∧ answer = 1) ∧ first = word := by
  cases prim <;> simp [namesTask] at names <;> simp [claimedBy]

theorem takenBy_own :
    takenBy ⟨⟨prim, first, second, third⟩, .ok answer⟩ = some word ↔
      prim = .takeResult ∧ first = word := by
  cases prim <;> simp [takenBy]

theorem spawnedBy_own (names : namesTask prim = true) :
    spawnedBy ⟨⟨prim, first, second, third⟩, .ok answer⟩ = none := by
  cases prim <;> simp [namesTask] at names <;> rfl

theorem follow_own (names : namesTask prim = true) (entry : Option Task) :
    follow word entry ⟨⟨prim, first, second, third⟩, .ok answer⟩ =
      if first = word then
        entry.bind fun task =>
          match ownEffect task prim second third with
          | .ok (_, next) => next
          | .error _ => some task
      else
        entry := by
  cases prim <;> simp [namesTask] at names <;> rfl

theorem passes_own (names : namesTask prim = true) (inRange : InRange key)
    (otherInRange : InRange other) (differs : other ≠ key) :
    Passes ⟨⟨prim, wordOf key, second, third⟩, .ok answer⟩ (wordOf other) := by
  have apart : wordOf key ≠ wordOf other :=
    fun same => differs (wordOf_injective inRange otherInRange same).symm
  refine ⟨?_, ?_, ?_, ?_⟩
  · rw [spawnedBy_own names]
    simp
  · rw [Ne, claimedBy_own names]
    exact fun claimed => apart claimed.2
  · rw [Ne, takenBy_own]
    exact fun taken => apart taken.2
  · intro entry
    rw [follow_own names, if_neg apart]

theorem Tracks.own (tracks : Tracks log executor) {prim : TaskPrim} {second third answer : Int64}
    {task : Task} {entry : Option Task} (names : namesTask prim = true)
    (found : executor.tasks.find? key = some task)
    (effect : ownEffect task prim second third = .ok (answer, entry))
    (updates : UpdatesTask executor key entry after) :
    Moves log ⟨⟨prim, wordOf key, second, third⟩, .ok answer⟩ executor key entry after := by
  have issued := tracks.sound.issued_of_find? found
  have inRange := tracks.issuedInRange key issued
  have untaken := tracks.untaken key task found
  refine ⟨inRange, updates, ?_, ?_, ?_, ?_, ?_, ?_, ?_, ?_⟩
  · intro other otherInRange differs
    exact passes_own names inRange otherInRange differs
  · rw [follow_own names, if_pos rfl, found, Option.bind_some, effect]
  · rw [spawned_append]
    exact List.mem_append_left _ (tracks.spawned key issued)
  · exact Or.inl (spawnedBy_own names)
  · intro kept
    rw [takes_append, untaken, if_neg]
    rw [takenBy_own]
    rintro ⟨rfl, -⟩
    exact kept (ownEffect_take effect)
  · rintro next rfl pending
    rcases ownEffect_pending effect pending with ⟨wasPending, notClaim⟩
    rw [claims_append, tracks.unclaimed key task found wasPending, if_neg]
    rw [claimedBy_own names]
    exact fun claimed => notClaim claimed.1
  · rw [claims_append]
    split
    · rename_i claimed
      rw [claimedBy_own names] at claimed
      rcases claimed with ⟨⟨claim, rfl⟩, -⟩
      rw [tracks.unclaimed key task found (ownEffect_claim claim effect)]
    · exact tracks.claimed key inRange
  · rw [takes_append, untaken]
    split <;> omega

theorem Tracks.spawning (tracks : Tracks log executor) {target : Int64}
    {tasks : Table Task} (inRange : InRange key)
    (inserts : Table.Inserts lastGeneration maxTasks executor.tasks (freshTask target) key tasks) :
    Moves log ⟨⟨.spawn, target, second, third⟩, .ok (wordOf key)⟩ executor key
      (some (freshTask target)) { executor with tasks := tasks } := by
  have untouched := tracks.unissued key inRange inserts.fresh
  have noClaim : claims (wordOf key)
      (log ++ [⟨⟨.spawn, target, second, third⟩, .ok (wordOf key)⟩]) = 0 := by
    rw [claims_append, untouched.claims]
    simp [claimedBy]
  have noTake : takes (wordOf key)
      (log ++ [⟨⟨.spawn, target, second, third⟩, .ok (wordOf key)⟩]) = 0 := by
    rw [takes_append, untouched.takes]
    simp [takenBy]
  refine ⟨inRange, inserts.toUpdates, ?_, ?_, ?_, ?_, fun _ => noTake, fun _ _ _ => noClaim, ?_, ?_⟩
  · intro other otherInRange differs
    have apart : wordOf key ≠ wordOf other :=
      fun same => differs (wordOf_injective inRange otherInRange same).symm
    refine ⟨by simp [spawnedBy, apart], by simp [claimedBy], by simp [takenBy], ?_⟩
    intro entry
    simp [follow, apart]
  · simp [follow]
  · simp [spawned_append, spawnedBy]
  · exact Or.inr ⟨rfl, inserts.fresh⟩
  · omega
  · omega

theorem Tracks.picking (tracks : Tracks log executor) {task : Task}
    (found : executor.tasks.find? key = some task) (pending : task.state = .pending)
    (updates : UpdatesTask executor key (some { task with state := .running }) after) :
    Moves log ⟨⟨.pickReady, first, second, third⟩, .ok (wordOf key)⟩ executor key
      (some { task with state := .running }) after := by
  have issued := tracks.sound.issued_of_find? found
  have inRange := tracks.issuedInRange key issued
  have noTake : takes (wordOf key)
      (log ++ [⟨⟨.pickReady, first, second, third⟩, .ok (wordOf key)⟩]) = 0 := by
    rw [takes_append, tracks.untaken key task found]
    simp [takenBy]
  refine ⟨inRange, updates, ?_, ?_, ?_, Or.inl rfl, fun _ => noTake, ?_, ?_, by omega⟩
  · intro other otherInRange differs
    have apart : wordOf key ≠ wordOf other :=
      fun same => differs (wordOf_injective inRange otherInRange same).symm
    refine ⟨by simp [spawnedBy], by simp [claimedBy, apart], by simp [takenBy], ?_⟩
    intro entry
    simp [follow, apart]
  · simp [follow, found]
  · rw [spawned_append]
    exact List.mem_append_left _ (tracks.spawned key issued)
  · rintro next same stillPending
    cases same
    cases stillPending
  · rw [claims_append, tracks.unclaimed key task found pending]
    split <;> omega

theorem Tracks.passing (tracks : Tracks log executor) (sameTasks : after.tasks = executor.tasks)
    (silent : spawnedBy event = none) (passes : ∀ other, InRange other → Passes event (wordOf other)) :
    Tracks (log ++ [event]) after := by
  have same : TaskExecutor.spawned (log ++ [event]) = TaskExecutor.spawned log := by
    rw [spawned_append, silent]
    simp
  refine ⟨?_, ?_, ?_, ?_, ?_, ?_, ?_, ?_, ?_, ?_, ?_⟩
  · unfold SoundTasks
    rw [sameTasks]
    exact tracks.sound
  · rw [sameTasks]
    exact tracks.issuedInRange
  · intro key inRange unissued
    rw [sameTasks] at unissued
    exact (tracks.unissued key inRange unissued).passes (passes key inRange)
  · intro key inRange
    rw [sameTasks, tracks.replayed key inRange, replay_append, (passes key inRange).follow]
  · intro key issued
    rw [sameTasks] at issued
    rw [same]
    exact tracks.spawned key issued
  · intro key task found
    rw [sameTasks] at found
    have inRange := tracks.issuedInRange key (tracks.sound.issued_of_find? found)
    rw [takes_append, tracks.untaken key task found, if_neg (passes key inRange).taken]
  · intro key task found pending
    rw [sameTasks] at found
    have inRange := tracks.issuedInRange key (tracks.sound.issued_of_find? found)
    rw [claims_append, tracks.unclaimed key task found pending,
      if_neg (passes key inRange).claimed]
  · intro key inRange
    rw [claims_append, if_neg (passes key inRange).claimed]
    exact tracks.claimed key inRange
  · intro key inRange
    rw [takes_append, if_neg (passes key inRange).taken]
    exact tracks.taken key inRange
  · rw [same, sameTasks]
    exact tracks.named
  · rw [same]
    exact tracks.once

theorem Tracks.next (tracks : Tracks log executor) (request : TaskRequest) :
    Tracks (log ++ [⟨request, (serve executor request).1⟩]) (serve executor request).2 := by
  have performs := serve_performs tracks.sound request
  generalize (serve executor request).1 = answer at performs ⊢
  generalize (serve executor request).2 = next at performs ⊢
  cases performs with
  | refused request trap =>
    apply tracks.passing rfl
    · simp [spawnedBy]
    · intro other _
      refine ⟨by simp [spawnedBy], by simp [claimedBy], by simp [takenBy], fun _ => rfl⟩
  | spawned target second third inRange inserts =>
    exact tracks.moves (tracks.spawning inRange inserts)
  | own prim second third names found effect updates =>
    exact tracks.moves (tracks.own names found effect updates)
  | picked first second third found pending updates =>
    exact tracks.moves (tracks.picking found pending updates)
  | noneReady first second third =>
    apply tracks.passing rfl rfl
    intro other otherInRange
    have apart : (0 : Int64) ≠ wordOf other := Ne.symm (wordOf_ne_zero otherInRange)
    refine ⟨by simp [spawnedBy], by simp [claimedBy, apart], by simp [takenBy], ?_⟩
    intro entry
    simp [follow, apart]
  | ticked ms second third clock =>
    have sameTasks : ({ executor with clockMs := clock } : TaskExecutor).tasks =
        executor.tasks := rfl
    apply tracks.passing sameTasks rfl
    intro other _
    exact ⟨by simp [spawnedBy], by simp [claimedBy], by simp [takenBy], fun _ => rfl⟩

theorem tracks_new : Tracks [] .new := by
  refine ⟨Table.sound_empty, ?_, ?_, ?_, ?_, ?_, ?_, ?_, ?_, ?_, List.nodup_nil⟩
  · intro key issued
    exact absurd issued (Table.not_issued_empty key)
  · intro key _ _
    exact ⟨by simp [spawned], rfl, rfl⟩
  · intro key _
    rfl
  · intro key issued
    exact absurd issued (Table.not_issued_empty key)
  · intro key task _
    rfl
  · intro key task _ _
    rfl
  · intro key _
    exact Nat.zero_le 1
  · intro key _
    exact Nat.zero_le 1
  · intro word listed
    cases listed

theorem tracks_serveAll (requests : List TaskRequest) :
    Tracks (logAfter requests) (tableAfter requests) := by
  induction requests using List.reverseRecOn with
  | nil => exact tracks_new
  | append_singleton requests request ih =>
    unfold logAfter tableAfter at ih ⊢
    rw [serveAll_append_one]
    exact ih.next request

/-! ## Handles whose task is gone -/

theorem gone_of_performs {answer : Except TaskTrap Int64} (issued : executor.tasks.Issued key)
    (gone : executor.tasks.find? key = none) (performs : Performs executor request answer after) :
    after.tasks.Issued key ∧ after.tasks.find? key = none := by
  cases performs with
  | refused request trap => exact ⟨issued, gone⟩
  | spawned target second third inRange inserts =>
    refine ⟨(inserts.issues key).mpr (Or.inr issued), ?_⟩
    rw [← gone]
    apply inserts.others key
    rintro rfl
    exact inserts.fresh issued
  | own prim second third names found effect updates =>
    refine ⟨(updates.issues key).mpr (Or.inr issued), ?_⟩
    rw [← gone]
    apply updates.others key
    rintro rfl
    rw [gone] at found
    cases found
  | picked first second third found pending updates =>
    refine ⟨(updates.issues key).mpr (Or.inr issued), ?_⟩
    rw [← gone]
    apply updates.others key
    rintro rfl
    rw [gone] at found
    cases found
  | noneReady first second third => exact ⟨issued, gone⟩
  | ticked ms second third clock => exact ⟨issued, gone⟩

theorem gone_of_serveAll (issued : (tableAfter requests).tasks.Issued key)
    (gone : (tableAfter requests).tasks.find? key = none) (later : List TaskRequest) :
    (tableAfter (requests ++ later)).tasks.Issued key ∧
      (tableAfter (requests ++ later)).tasks.find? key = none := by
  induction later using List.reverseRecOn with
  | nil =>
    rw [List.append_nil]
    exact ⟨issued, gone⟩
  | append_singleton later request ih =>
    have sound := (tracks_serveAll (requests ++ later)).sound
    have performs := serve_performs sound request
    rw [← List.append_assoc]
    unfold tableAfter
    rw [serveAll_append_one]
    exact gone_of_performs ih.1 ih.2 performs

theorem serve_unknown (unknown : task word executor = .error .unknownHandle executor)
    (names : namesTask prim = true) (second third : Int64) :
    serve executor ⟨prim, word, second, third⟩ = (.error .unknownHandle, executor) ∨
      (prim = .setArg ∨ prim = .slotGet) ∧ slotIndex second = .error .slotOutOfRange ∧
        serve executor ⟨prim, word, second, third⟩ = (.error .slotOutOfRange, executor) := by
  have slots : slotIndex second = .error .slotOutOfRange ∨ ∃ slot, slotIndex second = .ok slot := by
    unfold slotIndex
    split
    · exact Or.inr ⟨_, rfl⟩
    · exact Or.inl rfl
  cases prim with
  | setArg | slotGet =>
    rcases slots with outside | ⟨slot, inside⟩
    · right
      refine ⟨by simp, outside, ?_⟩
      simp only [serve, perform, outside, ofExcept, bind, EStateM.bind, throw_run]
    · left
      simp only [serve, perform, inside, ofExcept, bind, EStateM.bind, pure_run, unknown]
  | spawn | pickReady | advanceClock => cases names
  | _ =>
    left
    simp only [serve, perform, beginJoin, beginDetach, takeResult, bind, EStateM.bind, unknown]

/-! ## Words and keys -/

theorem parts_inRange (named : parts word = .ok key) : InRange key := by
  have small := Int64.toInt_lt word
  have slots : word.toInt.toNat % 2 ^ 32 - 1 < maxTasks := by
    rw [maxTasks]
    omega
  have generations : word.toInt.toNat / 2 ^ 32 ≤ lastGeneration := by
    rw [lastGeneration]
    omega
  unfold parts at named
  split at named
  · cases named
  · dsimp only at named
    split at named
    · cases named
    · have same := Except.ok.inj named
      rw [← same]
      exact ⟨slots, generations⟩

theorem lookup_of_parts (named : parts word = .ok key) :
    lookup executor word = executor.tasks.find? key := by
  unfold lookup
  rw [named]

theorem lookup_wordOf (inRange : InRange key) :
    lookup executor (wordOf key) = executor.tasks.find? key :=
  lookup_of_parts (parts_wordOf inRange)

/-- Only spawning gives a handle a task. -/
theorem replay_eq_none (unspawned : word ∉ spawned log) : replay word log = none := by
  induction log using List.reverseRecOn with
  | nil => rfl
  | append_singleton log event ih =>
    rw [spawned_append, List.mem_append, not_or] at unspawned
    rw [replay_append, ih unspawned.1]
    rcases event with ⟨⟨prim, first, second, third⟩, answer⟩
    cases answer with
    | error trap => rfl
    | ok answer =>
      cases prim with
      | spawn =>
        have differs : answer ≠ word := by
          simpa [spawnedBy, eq_comm] using unspawned.2
        simp [follow, differs]
      | _ => simp [follow]

theorem Tracks.lookup_eq_replay (tracks : Tracks log executor) (word : Int64) :
    lookup executor word = replay word log := by
  cases named : parts word with
  | ok key =>
    have inRange := parts_inRange named
    rw [eq_wordOf_of_parts named, lookup_wordOf inRange]
    exact tracks.replayed key inRange
  | error trap =>
    have unspawned : word ∉ TaskExecutor.spawned log := by
      intro listed
      rcases tracks.named word listed with ⟨key, issued, rfl⟩
      rw [parts_wordOf (tracks.issuedInRange key issued)] at named
      cases named
    rw [replay_eq_none unspawned]
    simp [lookup, named]

theorem task_eq_unknown (gone : lookup executor word = none) :
    task word executor = .error .unknownHandle executor := by
  rcases task_run word executor with unknown | ⟨key, held, -, found, parsed, -⟩
  · exact unknown
  · simp [lookup, parsed, found] at gone

/-! ## What a request does to a handle -/

theorem ownEffect_target {next : Task}
    (effect : ownEffect held prim second third = .ok (answer, some next)) :
    next.target = held.target := by
  rcases held with ⟨state, target, slots, result⟩
  cases prim with
  | setArg | slotGet =>
    simp only [ownEffect, bind, Except.bind] at effect
    split at effect
    · cases effect
    · cases effect
      rfl
  | beginJoin | beginDetach | takeResult =>
    cases state <;> simp [ownEffect] at effect <;> rw [← effect.2]
  | cancel =>
    cases state <;> simp [ownEffect] at effect <;> rw [← effect.2]
  | targetOf | complete =>
    cases effect
    rfl
  | markDetached => simp [ownEffect] at effect
  | spawn | pickReady | advanceClock => cases effect

def givesUp (held : Task) (prim : TaskPrim) : Prop :=
  prim = .takeResult ∨ prim = .markDetached ∨ prim = .cancel ∧ held.state = .pending

theorem ownEffect_givesUp (effect : ownEffect held prim second third = .ok (answer, none)) :
    givesUp held prim := by
  rcases held with ⟨state, target, slots, result⟩
  cases prim with
  | setArg | slotGet =>
    simp only [ownEffect, bind, Except.bind] at effect
    split at effect <;> cases effect
  | beginJoin | beginDetach =>
    cases state <;> simp [ownEffect] at effect
  | cancel =>
    cases state <;> simp [ownEffect] at effect
    exact Or.inr (Or.inr ⟨rfl, rfl⟩)
  | takeResult => exact Or.inl rfl
  | markDetached => exact Or.inr (Or.inl rfl)
  | targetOf | complete | spawn | pickReady | advanceClock => cases effect

/-- What a handle denotes after a request: the same task, or none when the
request gave the task up. -/
inductive Keeps (held : Task) (request : TaskRequest) (word : Int64) : Option Task → Prop
  | same (next : Task) (target : next.target = held.target) : Keeps held request word (some next)
  | gone (named : request.first = word) (given : givesUp held request.prim) :
      Keeps held request word none

theorem keeps_follow {answer : Except TaskTrap Int64}
    (fresh : spawnedBy ⟨request, answer⟩ ≠ some word) :
    Keeps held request word (follow word (some held) ⟨request, answer⟩) := by
  rcases request with ⟨prim, first, second, third⟩
  cases answer with
  | error trap => exact Keeps.same held rfl
  | ok answer =>
    by_cases names : namesTask prim = true
    · rw [follow_own names]
      split
      · rename_i named
        rw [Option.bind_some]
        cases effect : ownEffect held prim second third with
        | error trap => exact Keeps.same held rfl
        | ok outcome =>
          rcases outcome with ⟨value, entry⟩
          cases entry with
          | none => exact Keeps.gone named (ownEffect_givesUp effect)
          | some next => exact Keeps.same next (ownEffect_target effect)
      · exact Keeps.same held rfl
    · cases prim with
      | spawn =>
        have differs : answer ≠ word := by simpa [spawnedBy] using fresh
        simp only [follow, differs, if_false]
        exact Keeps.same held rfl
      | pickReady =>
        simp only [follow]
        split
        · exact Keeps.same _ rfl
        · exact Keeps.same held rfl
      | advanceClock => exact Keeps.same held rfl
      | _ => simp [namesTask] at names

theorem logAfter_append_one (requests : List TaskRequest) (request : TaskRequest) :
    logAfter (requests ++ [request]) =
      logAfter requests ++ [⟨request, (serve (tableAfter requests) request).1⟩] := by
  unfold logAfter tableAfter
  rw [serveAll_append_one]
  rfl

theorem spawnedBy_ne (listed : word ∈ spawned (logAfter requests)) :
    spawnedBy ⟨request, (serve (tableAfter requests) request).1⟩ ≠ some word := by
  intro again
  have once := (tracks_serveAll (requests ++ [request])).once
  rw [logAfter_append_one, spawned_append, again, Option.toList_some] at once
  have apart := (List.nodup_append.mp once).2.2
  exact apart word listed word (by simp) rfl

theorem keeps_serve (denotes : lookup (tableAfter requests) word = some held)
    (request : TaskRequest) :
    Keeps held request word (lookup (tableAfter (requests ++ [request])) word) := by
  have replayed := (tracks_serveAll requests).lookup_eq_replay word
  have listed : word ∈ spawned (logAfter requests) := by
    by_contra unspawned
    rw [replayed, replay_eq_none unspawned] at denotes
    cases denotes
  rw [(tracks_serveAll (requests ++ [request])).lookup_eq_replay, logAfter_append_one,
    replay_append, ← replayed, denotes]
  exact keeps_follow (spawnedBy_ne listed)

theorem serve_spawned {target : Int64}
    (spawns : (serve (tableAfter requests) ⟨.spawn, target, second, third⟩).1 = .ok word) :
    word ∉ spawned (logAfter requests) ∧
      lookup (tableAfter (requests ++ [⟨.spawn, target, second, third⟩])) word =
        some (freshTask target) := by
  constructor
  · intro listed
    apply spawnedBy_ne listed
    rw [spawns]
    rfl
  · rw [(tracks_serveAll _).lookup_eq_replay, logAfter_append_one, replay_append, spawns]
    simp [follow]

theorem serve_refused (sound : SoundTasks executor) {trap : TaskTrap}
    (refused : (serve executor request).1 = .error trap) :
    (serve executor request).2 = executor := by
  have performs := serve_performs sound request
  rw [refused] at performs
  generalize (serve executor request).2 = next at performs ⊢
  cases performs
  rfl

/-- Requests to a task table, in any number and order.  A handle that is spawned
is new and denotes a pending task of its target; it denotes that task until a
request on the handle gives the task up, and is unknown for ever after.  What it
denotes is a function of the events on the handle itself.  A task's body is
claimed at most once and its result taken at most once; and a refused request
changes nothing. -/
theorem task_handles_are_one_shot (requests : List TaskRequest) :
    (∀ target second third word,
      (serve (tableAfter requests) ⟨.spawn, target, second, third⟩).1 = .ok word →
      word ∉ spawned (logAfter requests) ∧
        lookup (tableAfter (requests ++ [⟨.spawn, target, second, third⟩])) word =
          some (freshTask target)) ∧
    (∀ word, lookup (tableAfter requests) word = replay word (logAfter requests)) ∧
    (∀ word held request, lookup (tableAfter requests) word = some held →
      Keeps held request word (lookup (tableAfter (requests ++ [request])) word)) ∧
    (∀ word ∈ spawned (logAfter requests), lookup (tableAfter requests) word = none →
      ∀ later, task word (tableAfter (requests ++ later)) =
          .error .unknownHandle (tableAfter (requests ++ later)) ∧
        ∀ prim second third, namesTask prim = true →
          serve (tableAfter (requests ++ later)) ⟨prim, word, second, third⟩ =
              (.error .unknownHandle, tableAfter (requests ++ later)) ∨
            (prim = .setArg ∨ prim = .slotGet) ∧ slotIndex second = .error .slotOutOfRange ∧
              serve (tableAfter (requests ++ later)) ⟨prim, word, second, third⟩ =
                (.error .slotOutOfRange, tableAfter (requests ++ later))) ∧
    (∀ word ∈ spawned (logAfter requests),
      claims word (logAfter requests) ≤ 1 ∧ takes word (logAfter requests) ≤ 1) ∧
    (∀ request trap, (serve (tableAfter requests) request).1 = .error trap →
      (serve (tableAfter requests) request).2 = tableAfter requests) := by
  have tracks := tracks_serveAll requests
  refine ⟨?_, tracks.lookup_eq_replay, ?_, ?_, ?_, ?_⟩
  · intro target second third word spawns
    exact serve_spawned spawns
  · intro word held request denotes
    exact keeps_serve denotes request
  · intro word listed gone later
    rcases tracks.named word listed with ⟨key, issued, rfl⟩
    have inRange := tracks.issuedInRange key issued
    rw [lookup_wordOf inRange] at gone
    have stays := (gone_of_serveAll issued gone later).2
    rw [← lookup_wordOf inRange] at stays
    have unknown := task_eq_unknown stays
    refine ⟨unknown, ?_⟩
    intro prim second third names
    exact serve_unknown unknown names second third
  · intro word listed
    rcases tracks.named word listed with ⟨key, issued, rfl⟩
    have inRange := tracks.issuedInRange key issued
    exact ⟨tracks.claimed key inRange, tracks.taken key inRange⟩
  · intro request trap refused
    exact serve_refused tracks.sound refused

end TaskExecutor

end KiraVm
