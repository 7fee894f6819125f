import KiraVm.SpineTasks

/-!
# Runs of the spine

What the channel operations do to the books, and from every step what a run
conserves.  A run keeps every token's account while it cancels no task with a
boxed argument, throws no boxed result away, sends no boxed value to a channel
that is gone, and joins no value that runs a `Drop` body.
-/

namespace KiraVm.KiraIr

open SlotTable StateLogic
open ChannelExecutor (SoundChannels UpdatesChannel ChannelRequest)

variable {spine : Spine} {flight : List (UInt64 × UInt64)} {machine : Machine}

/-! ## Primitives of the channel table -/

theorem channelOp_ok {prim : ChannelPrim} {first second third answer : Int64}
    {after : ChannelExecutor}
    (served : machine.channels.serve ⟨prim, first, second, third⟩ = (.ok answer, after)) :
    channelOp prim first second third machine = .ok answer (machine.withChannels after) := by
  simp only [channelOp, bind, EStateM.bind, get_run, served, set_run, pure_run]

theorem channelOp_error {prim : ChannelPrim} {first second third : Int64} {trap : ChannelTrap}
    {after : ChannelExecutor}
    (served : machine.channels.serve ⟨prim, first, second, third⟩ = (.error trap, after)) :
    channelOp prim first second third machine =
      .error (.channel trap) (machine.withChannels after) := by
  simp only [channelOp, bind, EStateM.bind, get_run, served, set_run, throw_run]

/-- A primitive is refused and changes nothing, or does what the table does. -/
theorem channelOp_cases (sound : SoundChannels machine.channels) (prim : ChannelPrim)
    (first second third : Int64) :
    (∃ trap, channelOp prim first second third machine = .error trap machine) ∨
      ∃ answer after,
        ChannelExecutor.Performs machine.channels ⟨prim, first, second, third⟩ (.ok answer) after ∧
        channelOp prim first second third machine = .ok answer (machine.withChannels after) := by
  have performs := ChannelExecutor.serve_performs sound ⟨prim, first, second, third⟩
  cases served : machine.channels.serve ⟨prim, first, second, third⟩ with
  | mk answer after =>
    rw [served] at performs
    cases answer with
    | error trap =>
      cases performs
      exact Or.inl ⟨_, channelOp_error served⟩
    | ok answer => exact Or.inr ⟨_, _, performs, channelOp_ok served⟩

def Names (machine : Machine) (word : Int64) (key : Key) (channel : Channel) : Prop :=
  (∃ side, ChannelExecutor.parts word = .ok (key, side)) ∧
    machine.channels.find? key = some channel

variable {channel : Channel}

theorem names_wordOf (sound : SoundChannels machine.channels) {key : Key}
    (found : machine.channels.find? key = some channel) (side : ChannelEnd) :
    Names machine (ChannelExecutor.wordOf key side) key channel :=
  ⟨⟨side, ChannelExecutor.parts_wordOf (sound.inRange found) side⟩, found⟩

/-! ## Channels -/

theorem channelCreate_ends (books : Books spine [] machine) (crossing : Crossing) :
    Ends (fun _ after => Books spine [] after) (fun _ after => Conserved after)
      (Spine.channelCreate crossing machine) := by
  unfold Spine.channelCreate
  generalize operand : (if crossing.isBoxed then ChannelExecutor.boxedPayload else 0) = first
  rcases channelOp_cases books.channelsSound .create first 0 0 with
    ⟨trap, ran⟩ | ⟨answer, after, performs, ran⟩
  · rw [bind_run_error ran]
    exact books.conserved_nil
  · rw [bind_run_ok ran]
    generalize requested : (0 : Int64) = zero at performs
    cases performs with
    | created first second third inRange inserts =>
      rename_i key
      have absent : machine.channels.find? key = none := by
        cases found : machine.channels.find? key with
        | none => rfl
        | some channel =>
          exact absurd (books.channelsSound.issued_of_find? found) inserts.fresh
      have named := ChannelExecutor.parts_wordOf inRange .sender
      rw [named]
      have empty : channelWords ⟨[], true, true, first == ChannelExecutor.boxedPayload⟩ = [] := by
        unfold channelWords
        split <;> rfl
      apply @Books.updateChannel spine [] machine [] key _ after
        (Function.update machine.wires key crossing) books inserts.toUpdates
      · intro elsewhere differs
        exact Function.update_of_ne differs ..
      · simp [absent, empty]
      · simp
      · intro channel entered
        cases entered
        rw [Function.update_self, ← operand]
        cases crossing.isBoxed <;> rfl
      · intro channel entered
        cases entered
        intro dead
        cases dead
      · intro channel entered word held
        cases entered
        rw [empty] at held
        cases held

theorem channelWords_queue (channel : Channel) (queue : List Int64) :
    channelWords { channel with queue := queue } =
      if channel.boxed then queue.map Int64.toUInt64 else [] :=
  rfl

theorem boxedWords_fst (crossing : Crossing) (word : Int64) :
    (boxedWords [crossing] [word]).map Prod.fst =
      if crossing.isBoxed then [word.toUInt64] else [] := by
  cases crossing <;> rfl

theorem send_ends {crossing : Crossing} {sender word : Int64}
    (books : Books spine (boxedWords [crossing] [word]) machine)
    (typed : ∀ key channel, Names machine sender key channel → machine.wires key = crossing)
    (madeFor : ∀ key channel, Names machine sender key channel →
      MadeFor machine (.channel key) (boxedWords [crossing] [word]))
    (conserved : Conserved machine) :
    Ends (fun _ after => Books spine [] after) (fun _ after => Conserved after)
      (channelOp .send sender word 0 machine) := by
  generalize requested : (0 : Int64) = zero
  rcases channelOp_cases books.channelsSound .send sender word zero with
    ⟨trap, ran⟩ | ⟨answer, after, performs, ran⟩
  · rw [ran]
    exact conserved
  · rw [ran]
    cases performs with
    | sent value third found senderLive receiverLive updates =>
      rename_i key channel
      have names := names_wordOf books.channelsSound found .sender
      have wire := typed key channel names
      have boxed := books.wired key channel found
      rw [wire] at boxed
      apply books.updateChannel updates (fun _ _ => rfl)
      · rw [boxedWords_fst, found, ← boxed]
        simp only [Option.elim_some, channelWords_queue, List.map_nil, List.nil_append]
        unfold channelWords
        split
        · rw [List.map_append]
          exact List.perm_append_comm
        · exact List.Perm.refl _
      · simp
      · intro channel entered
        cases entered
        rw [wire]
        exact boxed
      · intro channel entered dead
        cases entered
        rw [receiverLive] at dead
        cases dead
      · intro channel entered other held
        cases entered
        rw [channelWords_queue] at held
        split at held
        · rename_i tokens
          rw [List.map_append, List.mem_append] at held
          rcases held with queued | last
          · apply books.ofChannels key _ found
            rw [channelWords_of_boxed tokens]
            exact queued
          · rw [List.map_singleton, List.mem_singleton] at last
            rw [tokens] at boxed
            have crossed : ∃ typeId, crossing = .boxed typeId := by
              cases crossing with
              | boxed typeId => exact ⟨typeId, rfl⟩
              | word | floatBits => cases boxed
            rcases crossed with ⟨typeId, rfl⟩
            rw [last]
            refine ⟨madeFor key _ names (word.toUInt64, typeId) (List.mem_singleton_self _), ?_⟩
            intro other wired
            rw [wire] at wired
            cases wired
            exact books.made _ (List.mem_singleton_self _)
        · cases held

theorem channelSend_ends {crossing : Crossing} {sender : Int64} {value : Payload}
    (books : Books spine [] machine)
    (typed : ∀ key channel, Names machine sender key channel → machine.wires key = crossing)
    (covered : crossing.isBoxed = true → ∃ key channel, Names machine sender key channel) :
    Ends (fun _ after => Books spine [] after) (fun _ after => Conserved after)
      (Spine.channelSend crossing sender value machine) := by
  unfold Spine.channelSend
  rw [bind_run_ok (get_run machine)]
  have boxes := boxForSlot_ends books crossing value
  cases ranBox : boxForSlot crossing value machine with
  | error trap after =>
    rw [ranBox] at boxes
    rw [bind_run_error ranBox, boxes]
    exact books.conserved_nil
  | ok operand middle =>
    rw [ranBox] at boxes
    rw [bind_run_ok ranBox]
    rcases boxes with ⟨new, loaded, middleBooks, grows, -⟩
    rw [List.append_nil] at middleBooks
    have assigning : assign machine.boxes.length (channelHolder sender) middle =
        .ok () (middle.assigned machine.boxes.length (channelHolder sender)) := rfl
    rw [bind_run_ok assigning]
    have placed : Books spine new
        (middle.assigned machine.boxes.length (channelHolder sender)) := by
      apply middleBooks.assign
      intro token listed
      rw [grows.dropped] at listed
      exact listed
    have sameNames : ∀ key channel,
        Names (middle.assigned machine.boxes.length (channelHolder sender)) sender key channel →
          Names machine sender key channel ∧ channelHolder sender = some (.channel key) := by
      rintro key channel ⟨⟨side, named⟩, found⟩
      change middle.channels.find? key = some channel at found
      rw [grows.channels] at found
      exact ⟨⟨⟨side, named⟩, found⟩, by simp only [channelHolder, named]⟩
    have owned : ∀ token ∈ new,
        (middle.assigned machine.boxes.length (channelHolder sender)).owner token.1 =
          channelHolder sender := by
      intro token listed
      have dropped : token.1 ∈ (middle.boxes.drop machine.boxes.length).map Box.token := by
        rw [grows.dropped]
        exact List.mem_map_of_mem listed
      simp only [Machine.assigned, if_pos dropped]
    have conserved :
        Conserved (middle.assigned machine.boxes.length (channelHolder sender)) := by
      apply placed.conserved
      intro token moving holder held
      rw [owned token moving] at held
      have boxed : crossing.isBoxed = true := by
        cases loaded with
        | plain _ unboxed rest =>
          cases rest
          cases moving
        | boxed typeId token rest => rfl
      rcases covered boxed with ⟨key, channel, ⟨side, named⟩, found⟩
      simp only [channelHolder, named, Option.some.injEq] at held
      rw [← held]
      have alive : middle.channels.find? key = some channel := by
        rw [grows.channels]
        exact found
      simp [Machine.Live, Machine.assigned, alive]
    rcases popInt_loaded loaded (middle.assigned machine.boxes.length (channelHolder sender)) with
      ⟨trap, ranPop⟩ | ⟨word, ranPop, words⟩
    · rw [bind_run_error ranPop]
      exact conserved
    · rw [bind_run_ok ranPop]
      rw [← words] at placed owned
      have sends := @send_ends spine _ crossing sender word placed
        (fun key channel names => by
          change middle.wires key = crossing
          rw [grows.wires]
          exact typed key channel (sameNames key channel names).1)
        (fun key channel names token listed => by
          rw [owned token listed]
          exact (sameNames key channel names).2)
        conserved
      exact Ends.bind sends fun _ after afterBooks => afterBooks

/-- Looking at a queue changes nothing. -/
theorem poll_run (sound : SoundChannels machine.channels) (receiver : Int64) :
    (∃ trap, channelOp .poll receiver 0 0 machine = .error trap machine) ∨
      ∃ key channel, Names machine receiver key channel ∧
        channelOp .poll receiver 0 0 machine =
          .ok (ChannelExecutor.pollAnswer channel) machine := by
  generalize requested : (0 : Int64) = zero
  rcases channelOp_cases sound .poll receiver zero zero with
    refused | ⟨answer, after, performs, ran⟩
  · exact Or.inl refused
  · cases performs with
    | polled second third found receiverLive =>
      exact Or.inr ⟨_, _, names_wordOf sound found .receiver, ran⟩

/-- Taking a value moves its token out of the queue. -/
theorem take_run {receiver : Int64} {crossing : Crossing} (books : Books spine [] machine)
    (typed : ∀ key channel, Names machine receiver key channel → machine.wires key = crossing) :
    (∃ trap, channelOp .take receiver 0 0 machine = .error trap machine) ∨
      ∃ key word after, channelOp .take receiver 0 0 machine = .ok word after ∧
        after.frames = machine.frames ∧ Books spine (boxedWords [crossing] [word]) after ∧
        MadeFor after (.channel key) (boxedWords [crossing] [word]) ∧
        after.Live (.channel key) := by
  generalize requested : (0 : Int64) = zero
  rcases channelOp_cases books.channelsSound .take receiver zero zero with
    refused | ⟨answer, after, performs, ran⟩
  · exact Or.inl refused
  · right
    cases performs with
    | took second third found receiverLive waiting updates =>
      rename_i key channel queue
      have wire := typed key channel (names_wordOf books.channelsSound found .receiver)
      have boxed := books.wired key channel found
      rw [wire] at boxed
      have before : channelWords channel =
          (boxedWords [crossing] [answer]).map Prod.fst ++
            channelWords { channel with queue := queue } := by
        rw [boxedWords_fst, channelWords_queue, ← boxed]
        unfold channelWords
        split
        · rw [waiting]
          rfl
        · rfl
      have mine : MadeFor machine (.channel key) (boxedWords [crossing] [answer]) := by
        intro token listed
        apply (books.ofChannels key channel found token.1 _).1
        rw [before]
        exact List.mem_append_left _ (List.mem_map_of_mem listed)
      refine ⟨key, answer, _, ran, rfl, ?_, mine, ?_⟩
      · apply books.updateChannel updates (fun _ _ => rfl)
        · rw [found]
          simp only [List.map_nil, List.nil_append, Option.elim_some, before]
          exact List.Perm.refl _
        · intro token listed
          cases crossing with
          | boxed typeId =>
            change token ∈ [(answer.toUInt64, typeId)] at listed
            rw [List.mem_singleton] at listed
            rw [listed]
            apply (books.ofChannels key channel found answer.toUInt64 _).2 typeId wire
            rw [before]
            exact List.mem_append_left _ (List.mem_singleton_self _)
          | word | floatBits => cases listed
        · intro next entered
          cases entered
          rw [wire]
          exact boxed
        · intro next entered dead
          cases entered
          rw [receiverLive] at dead
          cases dead
        · intro next entered word held
          cases entered
          apply books.ofChannels key channel found
          rw [before]
          exact List.mem_append_right _ held
      · simp [Machine.Live, Machine.withChannels, updates.found]

theorem channelReceive_ends (books : Books spine [] machine)
    (typed : ∀ crossing receiver frames, machine.frames = .waiting crossing receiver :: frames →
      ∀ key channel, Names machine receiver key channel → machine.wires key = crossing) :
    Ends (fun _ after => Books spine [] after) (fun _ after => Conserved after)
      (Spine.channelReceive spine machine) := by
  unfold Spine.channelReceive
  rw [bind_run_ok (get_run machine)]
  cases stack : machine.frames with
  | nil => exact books
  | cons frame frames =>
    cases frame with
    | body handle row tail => exact books
    | closing receiver => exact books
    | waiting crossing receiver =>
      have popping : ∀ after : Machine, after.frames = machine.frames →
          popFrame after = .ok () (after.withFrames frames) := by
        intro after same
        simp only [popFrame, modify_run, same, stack, List.tail_cons]
      dsimp only
      rcases poll_run books.channelsSound receiver with ⟨trap, ran⟩ |
        ⟨key, channel, names, ran⟩
      · rw [bind_run_error ran]
        exact books.conserved_nil
      · rw [bind_run_ok ran]
        split
        · apply drive_ends books
          · intro handle nonzero
            rw [if_neg nonzero]
          · simp only [if_true]
            rcases channelOp_cases books.channelsSound .deadlock 0 0 0 with
              ⟨trap, ranDeadlock⟩ | ⟨answer, after, performs, -⟩
            · rw [bind_run_error ranDeadlock]
              exact books.conserved_nil
            · generalize requested : (⟨.deadlock, 0, 0, 0⟩ : ChannelRequest) = request
                at performs
              cases performs <;> cases requested
        · split
          · rcases @take_run spine machine receiver crossing books
              (typed crossing receiver frames stack) with
              ⟨trap, ranTake⟩ | ⟨key, word, after, ranTake, sameFrames, taken, madeFor, live⟩
            · rw [bind_run_error ranTake]
              exact books.conserved_nil
            · rw [bind_run_ok ranTake]
              have split : boxedWords [crossing] [word] ++ [] =
                  boxedWords [crossing] [word] := List.append_nil _
              rw [← split] at taken
              have recovers := recoverFromSlot_ends taken
              cases ranRecover : recoverFromSlot crossing word after with
              | error trap last =>
                rw [ranRecover] at recovers
                rw [bind_run_error ranRecover, recovers.1]
                rw [split] at taken
                exact taken.conserved_of madeFor live
              | ok value last =>
                rw [ranRecover] at recovers
                rw [bind_run_ok ranRecover]
                rcases recovers with ⟨lastBooks, grows⟩
                have lastFrames := grows.frames.trans sameFrames
                rw [popping last lastFrames]
                exact lastBooks.pop (lastFrames.trans stack)
          · rw [popping machine rfl]
            exact books.pop stack

/-- Closing a sender leaves the queue for the receiver. -/
theorem closeSender_ends (books : Books spine [] machine) (sender : Int64) :
    Ends (fun _ after => Books spine [] after) (fun _ after => Conserved after)
      (channelOp .closeSender sender 0 0 machine) := by
  generalize requested : (0 : Int64) = zero
  rcases channelOp_cases books.channelsSound .closeSender sender zero zero with
    ⟨trap, ran⟩ | ⟨answer, after, performs, ran⟩
  · rw [ran]
    exact books.conserved_nil
  · rw [ran]
    cases performs with
    | closedSender second third found senderLive updates =>
      rename_i key channel
      cases alive : channel.receiverLive with
      | true =>
        simp only [ChannelExecutor.withoutSender, alive, if_true] at updates
        apply books.updateChannel updates (fun _ _ => rfl)
        · rw [found]
          exact List.Perm.refl _
        · simp
        · intro next entered
          cases entered
          exact books.wired key channel found
        · intro next entered dead
          cases entered
          cases dead
        · intro next entered word held
          cases entered
          exact books.ofChannels key channel found word held
      | false =>
        have empty : channelWords channel = [] := by
          have drained := books.drained key channel found alive
          simp [channelWords, drained]
        simp only [ChannelExecutor.withoutSender, alive, Bool.false_eq_true, if_false]
          at updates
        apply books.updateChannel updates (fun _ _ => rfl)
        · simp [found, empty]
        · simp
        · intro next entered
          cases entered
        · intro next entered
          cases entered
        · intro next entered
          cases entered

/-- Closing a receiver throws a queue without tokens away. -/
theorem closeReceiver_ends {receiver : Int64} (books : Books spine [] machine)
    (empty : ∀ key channel, Names machine receiver key channel → channelWords channel = []) :
    Ends (fun _ after => Books spine [] after ∧ after.frames = machine.frames)
      (fun _ after => Conserved after) (channelOp .closeReceiver receiver 0 0 machine) := by
  generalize requested : (0 : Int64) = zero
  rcases channelOp_cases books.channelsSound .closeReceiver receiver zero zero with
    ⟨trap, ran⟩ | ⟨answer, after, performs, ran⟩
  · rw [ran]
    exact books.conserved_nil
  · rw [ran]
    cases performs with
    | closedReceiver second third found receiverLive updates =>
      rename_i key channel
      have none := empty key channel (names_wordOf books.channelsSound found .receiver)
      refine ⟨?_, rfl⟩
      cases alive : channel.senderLive with
      | true =>
        simp only [ChannelExecutor.withoutReceiver, alive, if_true] at updates
        have cleared : channelWords { channel with receiverLive := false, queue := [] } =
            [] := by
          unfold channelWords
          split <;> rfl
        apply books.updateChannel updates (fun _ _ => rfl)
        · simp only [found, Option.elim_some, none]
          rw [← alive, cleared]
        · simp
        · intro next entered
          cases entered
          exact books.wired key channel found
        · intro next entered dead
          cases entered
          rfl
        · intro next entered word held
          cases entered
          rw [← alive, cleared] at held
          cases held
      | false =>
        simp only [ChannelExecutor.withoutReceiver, alive, Bool.false_eq_true, if_false]
          at updates
        apply books.updateChannel updates (fun _ _ => rfl)
        · simp [found, none]
        · simp
        · intro next entered
          cases entered
        · intro next entered
          cases entered
        · intro next entered
          cases entered

theorem queue_of_drained (notReady : ChannelExecutor.pollAnswer channel ≠ Spine.pollReady) :
    channel.queue = [] := by
  cases waiting : channel.queue with
  | nil => rfl
  | cons word queue =>
    apply absurd _ notReady
    simp [ChannelExecutor.pollAnswer, Spine.pollReady, waiting]

theorem names_unique {word : Int64} {key other : Key} {next : Channel}
    (first : Names machine word key channel) (second : Names machine word other next) :
    other = key ∧ next = channel := by
  rcases first with ⟨⟨side, named⟩, found⟩
  rcases second with ⟨⟨otherSide, otherNamed⟩, otherFound⟩
  rw [named] at otherNamed
  cases otherNamed
  rw [found] at otherFound
  cases otherFound
  exact ⟨rfl, rfl⟩

/-- Draining a receiver gives up the queue's tokens one by one. -/
theorem channelDrain_ends (books : Books spine [] machine)
    (typed : ∀ receiver frames, machine.frames = .closing receiver :: frames →
      ∀ key channel, Names machine receiver key channel → (machine.wires key).isBoxed = true) :
    Ends (fun _ after => Books spine [] after) (fun _ after => Conserved after)
      (Spine.channelDrain machine) := by
  unfold Spine.channelDrain
  rw [bind_run_ok (get_run machine)]
  cases stack : machine.frames with
  | nil => exact books
  | cons frame frames =>
    cases frame with
    | body handle row tail => exact books
    | waiting crossing receiver => exact books
    | closing receiver =>
      dsimp only
      rcases poll_run books.channelsSound receiver with ⟨trap, ran⟩ |
        ⟨key, channel, names, ran⟩
      · rw [bind_run_error ran]
        exact books.conserved_nil
      · rw [bind_run_ok ran]
        have wired := typed receiver frames stack key channel names
        split
        · rcases @take_run spine machine receiver (machine.wires key) books (by
            intro other next otherNames
            rw [(names_unique names otherNames).1]) with
            ⟨trap, ranTake⟩ | ⟨other, word, after, ranTake, -, taken, -, -⟩
          · rw [bind_run_error ranTake]
            exact books.conserved_nil
          · rw [bind_run_ok ranTake]
            cases crossed : machine.wires key with
            | word | floatBits =>
              rw [crossed] at wired
              cases wired
            | boxed typeId =>
              rw [crossed] at taken
              rcases @nativeStateRelease_ends spine [] after (word.toUInt64, typeId) taken with
                ⟨last, ranRelease, lastBooks, -⟩
              rw [ranRelease]
              exact lastBooks
        · rename_i notReady
          have closes := @closeReceiver_ends spine machine receiver books (by
            intro other next otherNames
            rw [(names_unique names otherNames).2]
            simp [channelWords, queue_of_drained notReady])
          cases ranClose : channelOp .closeReceiver receiver 0 0 machine with
          | error trap after =>
            rw [ranClose] at closes
            rw [bind_run_error ranClose]
            exact closes
          | ok answer after =>
            rw [ranClose] at closes
            rw [bind_run_ok ranClose]
            have popping : popFrame after = .ok () (after.withFrames frames) := by
              simp only [popFrame, modify_run, closes.2, stack, List.tail_cons]
            rw [popping]
            exact closes.1.pop (closes.2.trans stack)

/-! ## Steps -/

namespace Spine

/-- What the type checker promises of a step: a spawn's arguments fit its target,
and an end of a channel or a handle of a task is used at its own type. -/
def WellTyped (spine : Spine) (machine : Machine) : SpineStep → Prop
  | .spawn arm values => values.length = (spine.paramsAt arm).length
  | .spawnValue ty _ => (spine.classify ty).isBoxed = false
  | .join handle ty => ∀ key task, TaskExecutor.parts handle = .ok key →
      machine.tasks.tasks.find? key = some task →
        (spine.classify ty).Agrees (spine.resultAt task.target)
  | .send ty sender _ => ∀ key channel, Names machine sender key channel →
      machine.wires key = spine.classify ty
  | .poll => ∀ crossing receiver frames, machine.frames = .waiting crossing receiver :: frames →
      ∀ key channel, Names machine receiver key channel → machine.wires key = crossing
  | .closeReceiver ty receiver => ∀ key channel, Names machine receiver key channel →
      machine.wires key = spine.classify ty
  | .drain => ∀ receiver frames, machine.frames = .closing receiver :: frames →
      ∀ key channel, Names machine receiver key channel → (machine.wires key).isBoxed = true
  | _ => True

def Careful (spine : Spine) (machine : Machine) : SpineStep → Prop
  | .cancel handle => ∀ key task, TaskExecutor.parts handle = .ok key →
      machine.tasks.tasks.find? key = some task → task.state = .pending →
        ∀ crossing ∈ spine.paramsAt task.target, crossing.isBoxed = false
  | .detach handle => ∀ key task, TaskExecutor.parts handle = .ok key →
      machine.tasks.tasks.find? key = some task → task.state = .finished →
        (spine.resultAt task.target).isBoxed = false
  | .join handle _ => ∀ key task, TaskExecutor.parts handle = .ok key →
      machine.tasks.tasks.find? key = some task → task.state = .finished →
        ∀ box ∈ machine.boxes, (box.token, box.typeId) ∈ spine.taskTokens task →
          box.value.requiresEngineRelease = false
  | .bodyReturn value => ∀ handle row tail frames,
      machine.frames = .body handle row tail :: frames → Returns spine row tail value
  | .send ty sender _ => (spine.classify ty).isBoxed = true →
      ∃ key channel, Names machine sender key channel
  | _ => True

end Spine

theorem boxedWords_of_all_plain {crossings : List Crossing} {words : List Int64}
    (plain : ∀ crossing ∈ crossings, crossing.isBoxed = false) :
    boxedWords crossings words = [] := by
  induction crossings generalizing words with
  | nil => cases words <;> rfl
  | cons crossing crossings ih =>
    cases words with
    | nil => cases crossing <;> rfl
    | cons word words =>
      rw [boxedWords_cons, boxedWords_of_plain (plain crossing (List.mem_cons_self ..)),
        List.nil_append]
      exact ih fun other listed => plain other (List.mem_cons_of_mem _ listed)

theorem paramsAt_length (spine : Spine) (arm : Int64) :
    (spine.paramsAt arm).length ≤ taskSlots := by
  unfold Spine.paramsAt
  cases listed : spine.rowAt arm with
  | none => exact Nat.zero_le _
  | some row =>
    have member : row ∈ spine.rows := by
      unfold Spine.rowAt at listed
      split at listed
      · exact List.mem_of_getElem? listed
      · cases listed
    simpa [Spine.paramCrossings] using spine.fits row member

theorem perform_ends {step : SpineStep} (books : Books spine [] machine)
    (typed : spine.WellTyped machine step) (careful : spine.Careful machine step) :
    Ends (fun _ after => Books spine [] after) (fun _ after => Conserved after)
      (spine.perform step machine) := by
  cases step with
  | spawn arm values =>
    exact Ends.bind (taskSpawn_ends books typed (paramsAt_length spine arm) fun _ => rfl)
      fun _ after afterBooks => afterBooks
  | spawnValue ty value =>
    have none : ∀ words, boxedWords [spine.classify ty] words =
        boxedWords (spine.paramsAt 0) words := by
      intro words
      have literal : spine.paramsAt 0 = [] := rfl
      have plain : (spine.classify ty).isBoxed = false := typed
      rw [literal, boxedWords_of_all_plain (by simpa using plain)]
      cases words <;> rfl
    exact Ends.bind (taskSpawn_ends books rfl (by simp [taskSlots]) none)
      fun _ after afterBooks => afterBooks
  | join handle ty =>
    apply taskAwait_ends books
    intro key task named found
    have agrees := typed key task named found
    exact ⟨agrees, fun finished => ⟨agrees, careful key task named found finished⟩⟩
  | detach handle =>
    apply taskDetach_ends books
    intro key task named found finished
    have plain := careful key task named found finished
    simp only [Spine.taskTokens, finished]
    exact boxedWords_of_plain plain task.result
  | cancel handle =>
    apply taskCancel_ends books
    intro key task named found pending
    simp only [Spine.taskTokens, pending]
    exact boxedWords_of_all_plain (careful key task named found pending)
  | yield => exact taskYield_ends books
  | sleep ms => exact taskSleep_ends books ms
  | bodyReturn value => exact bodyReturn_ends books careful
  | create ty => exact channelCreate_ends books (spine.classify ty)
  | send ty sender value => exact channelSend_ends books typed careful
  | receive ty receiver => exact books.push rfl
  | poll => exact channelReceive_ends books typed
  | closeSender sender =>
    exact Ends.bind (closeSender_ends books sender) fun _ after afterBooks => afterBooks
  | closeReceiver ty receiver =>
    simp only [Spine.perform, Spine.channelCloseReceiver]
    split
    · exact books.push rfl
    · rename_i plain
      have empty : ∀ key channel, Names machine receiver key channel →
          channelWords channel = [] := by
        intro key channel names
        have boxed := books.wired key channel names.2
        rw [typed key channel names, Bool.eq_false_iff.mpr plain] at boxed
        exact channelWords_of_plain boxed
      exact Ends.bind (closeReceiver_ends books empty) fun _ after afterBooks => afterBooks.1
  | drain => exact channelDrain_ends books typed

/-! ## Runs -/

namespace Spine

def CarefulFrom (spine : Spine) (machine : Machine) : List SpineStep → Prop
  | [] => True
  | step :: steps => spine.WellTyped machine step ∧ spine.Careful machine step ∧
      ∀ answer after, spine.perform step machine = .ok answer after →
        CarefulFrom spine after steps

end Spine

theorem books_new (spine : Spine) : Books spine [] .new where
  tokens_nodup := List.nodup_nil
  fresh := by simp [Machine.new]
  stored := by simp [Machine.new]
  assigned := by simp [Machine.new]
  whole := by simp [Machine.new]
  runs := by simp [Machine.new]
  nodup := List.nodup_nil
  tasksSound := Table.sound_empty
  channelsSound := Table.sound_empty
  places := rfl
  made := by simp
  ofTasks := by simp [Machine.new, TaskExecutor.new]
  wired := by simp [Machine.new]
  drained := by simp [Machine.new]
  ofChannels := by simp [Machine.new]

theorem conserved_runFrom {steps : List SpineStep} (books : Books spine [] machine)
    (careful : spine.CarefulFrom machine steps) : Conserved (spine.runFrom machine steps) := by
  induction steps generalizing machine with
  | nil => exact books.conserved_nil
  | cons step steps ih =>
    rcases careful with ⟨typed, careful, rest⟩
    have ends := perform_ends books typed careful
    simp only [Spine.runFrom]
    cases ran : spine.perform step machine with
    | ok answer after =>
      rw [ran] at ends
      exact ih ends (rest answer after ran)
    | error trap after =>
      rw [ran] at ends
      exact ends

/-- A slot gives a value back exactly when it crosses whole, and a run of careful
steps gives up every token exactly once by the time its task or channel is gone. -/
theorem slots_conserve_tokens (spine : Spine) :
    (∀ (ty : Ty) (value : Payload) (machine : Machine),
      (∃ after, throughSlot (spine.classify ty) value machine = .ok value after) ↔
        CrossesWhole machine.store (spine.classify ty) value) ∧
      ∀ steps, spine.CarefulFrom .new steps → Conserved (spine.machineAfter steps) :=
  ⟨fun ty value machine => throughSlot_iff machine (spine.classify ty) value,
    fun _ careful => conserved_runFrom (books_new spine) careful⟩

def stringSpine : Spine where
  fingerprint := fun _ => 0
  types := .empty
  rows := [⟨0, [.string], .void⟩]
  fits := by simp [taskSlots]

def stringSpawn : SpineStep :=
  .spawn 1 [.tree (.string "log")]

/-- A turn given to a spawned task gives its argument's token up. -/
theorem slots_conserve_string :
    Conserved (stringSpine.machineAfter [stringSpawn, .yield]) ∧
      (stringSpine.machineAfter [stringSpawn, .yield]).released = [2] :=
  ⟨(slots_conserve_tokens stringSpine).2 _
    ⟨rfl, trivial, fun _ _ _ => ⟨trivial, trivial, fun _ _ _ => trivial⟩⟩, by decide +kernel⟩

/-- The argument of a task that is cancelled before it ran is never given up, and
a `Bool` does not come back from a slot. -/
theorem cancelled_argument_is_lost :
    stringSpine.WellTyped .new stringSpawn ∧
      ¬ Conserved (stringSpine.machineAfter [stringSpawn, .cancel 1]) ∧
      ¬ ∃ after, throughSlot (stringSpine.classify .bool) (.tree (.bool true)) .new =
        .ok (.tree (.bool true)) after := by
  refine ⟨rfl, ?_, ?_⟩
  · intro conserved
    have made : (stringSpine.machineAfter [stringSpawn, .cancel 1]).boxes.map Box.token = [2] := by
      decide +kernel
    have owned : (stringSpine.machineAfter [stringSpawn, .cancel 1]).owner 2 =
        some (.task ⟨0, 0⟩) := by decide +kernel
    have gone : ¬ (stringSpine.machineAfter [stringSpawn, .cancel 1]).Live (.task ⟨0, 0⟩) := by
      have absent : ((stringSpine.machineAfter [stringSpawn, .cancel 1]).tasks.tasks.find?
          ⟨0, 0⟩).isSome = false := by decide +kernel
      simp [Machine.Live, absent]
    have kept : (stringSpine.machineAfter [stringSpawn, .cancel 1]).released = [] := by
      decide +kernel
    have listed : (2 : UInt64) ∈
        (stringSpine.machineAfter [stringSpawn, .cancel 1]).boxes.map Box.token := by
      rw [made]
      exact List.mem_singleton_self _
    rcases List.mem_map.mp listed with ⟨box, boxed, same⟩
    have released := conserved.reclaimed box boxed (.task ⟨0, 0⟩) (by rw [same]; exact owned) gone
    rw [kept] at released
    cases released
  · rintro ⟨after, ran⟩
    cases ran

end KiraVm.KiraIr
