import KiraVm.RuntimeAbi
import KiraVm.SlotTable
import KiraVm.StateLogic

/-!
# The channel table

A channel is a queue with two owned ends.  A handle packs the generation of a
channel's slot, the slot, and which end it is; the table refuses a handle whose
channel is gone.  Both ends of a channel name the same key.
-/

namespace KiraVm

open SlotTable StateLogic

inductive ChannelEnd
  | sender
  | receiver
  deriving DecidableEq, Repr

/-- Why a channel operation could not be carried out. -/
inductive ChannelTrap
  | unknownHandle
  | receiverGone
  | wrongDirection
  | notReady
  | deadlock
  deriving DecidableEq, Repr

/-- One channel.  `boxed` says that a queued word is a token somebody owns. -/
structure Channel where
  queue : List Int64
  senderLive : Bool
  receiverLive : Bool
  boxed : Bool
  deriving DecidableEq, Repr

/-- The channel table one running program owns. -/
abbrev ChannelExecutor : Type :=
  Table Channel

/-- An operation on the table; a refused one keeps the table it was refused in. -/
abbrev OnChannels (α : Type) : Type :=
  EStateM ChannelTrap ChannelExecutor α

namespace ChannelExecutor

/-- The operand of `create` for a channel whose words are tokens. -/
def boxedPayload : Int64 := 1

/-- A table grows to this many channels, so that a slot and its end fit in 32 bits. -/
def maxChannels : Nat := (2 ^ 32 - 1) >>> 1

/-- The last generation of a slot: a handle has a sign bit. -/
def lastGeneration : Nat := 2 ^ 31 - 1

/-! ## Handles -/

def endBit : ChannelEnd → Nat
  | .sender => 0
  | .receiver => 1

def handle (index generation : Nat) (side : ChannelEnd) : Except ChannelTrap Int64 :=
  if 2 ^ 32 ≤ index then .error .unknownHandle
  else
    let slotField := (index <<< 1) % 2 ^ 32 + endBit side
    if 2 ^ 32 ≤ slotField + 1 then .error .unknownHandle
    else
      let word := generation * 2 ^ 32 + (slotField + 1)
      if 2 ^ 63 ≤ word then .error .unknownHandle else .ok (Int64.ofNat word)

/-- Unpack a handle; zero and negative words are none. -/
def parts (word : Int64) : Except ChannelTrap (Key × ChannelEnd) :=
  if word.toInt < 0 then .error .unknownHandle
  else
    let word := word.toInt.toNat
    let slotField := word % 2 ^ 32
    if slotField = 0 then .error .unknownHandle
    else
      let base := slotField - 1
      .ok (⟨base >>> 1, word / 2 ^ 32⟩, if base % 2 = 0 then .sender else .receiver)

/-! ## Operations -/

def ofExcept {α : Type} : Except ChannelTrap α → OnChannels α
  | .ok value => pure value
  | .error trap => throw trap

def resolve (wanted : ChannelEnd) (word : Int64) : OnChannels (Key × Channel) := do
  let (key, side) ← ofExcept (parts word)
  if side ≠ wanted then throw .wrongDirection
  let table ← get
  match table.find? key with
  | none => throw .unknownHandle
  | some channel => pure (key, channel)

def create (boxed : Bool) : OnChannels (Int64 × Int64) := do
  let table ← get
  match table.claim maxChannels with
  | none => throw .unknownHandle
  | some (index, claimed) => do
    set claimed
    match claimed.slots[index]? with
    | none => throw .unknownHandle
    | some slot => do
      set (claimed.occupy index
        { queue := [], senderLive := true, receiverLive := true, boxed := boxed })
      let sender ← ofExcept (handle index slot.generation .sender)
      let receiver ← ofExcept (handle index slot.generation .receiver)
      pure (sender, receiver)

def send (sender value : Int64) : OnChannels Unit := do
  let (key, channel) ← resolve .sender sender
  if !channel.senderLive then throw .unknownHandle
  if !channel.receiverLive then throw .receiverGone
  modify fun table => table.occupy key.index { channel with queue := channel.queue ++ [value] }

/-- Give up a channel whose ends are both gone. -/
def reclaim (key : Key) : OnChannels Unit := do
  let table ← get
  match table.find? key with
  | none => throw .unknownHandle
  | some _ => set (table.vacate lastGeneration key.index)

/-- Drop the sender; the channel closes once the queue drains. -/
def closeSender (sender : Int64) : OnChannels Unit := do
  let (key, channel) ← resolve .sender sender
  if !channel.senderLive then throw .unknownHandle
  modify fun table => table.occupy key.index { channel with senderLive := false }
  if !channel.receiverLive then reclaim key

/-- Drop the receiver, and with it what is still queued. -/
def closeReceiver (receiver : Int64) : OnChannels Unit := do
  let (key, channel) ← resolve .receiver receiver
  if !channel.receiverLive then throw .unknownHandle
  modify fun table =>
    table.occupy key.index { channel with receiverLive := false, queue := [] }
  if !channel.senderLive then reclaim key

/-- What a receive would find: nothing yet, a value, or the end of the stream. -/
def pollAnswer (channel : Channel) : Int64 :=
  if !channel.queue.isEmpty then 1 else if channel.senderLive then 0 else 2

def poll (receiver : Int64) : OnChannels Int64 := do
  let (_, channel) ← resolve .receiver receiver
  if !channel.receiverLive then throw .unknownHandle
  pure (pollAnswer channel)

/-- The oldest waiting value. -/
def take (receiver : Int64) : OnChannels Int64 := do
  let (key, channel) ← resolve .receiver receiver
  if !channel.receiverLive then throw .unknownHandle
  match channel.queue with
  | [] => throw .notReady
  | value :: queue => do
    modify fun table => table.occupy key.index { channel with queue := queue }
    pure value

/-- Carry out one primitive. -/
def perform (prim : ChannelPrim) (first second _third : Int64) : OnChannels Int64 :=
  match prim with
  | .create => do
    let (sender, _) ← create (first == boxedPayload)
    pure sender
  | .send => do
    send first second
    pure 0
  | .poll => poll first
  | .take => take first
  | .closeSender => do
    closeSender first
    pure 0
  | .closeReceiver => do
    closeReceiver first
    pure 0
  | .deadlock => throw .deadlock

/-- The tokens a slot's channel still holds. -/
def undelivered (slot : Slot Channel) : List Int64 :=
  match slot.occupant with
  | some channel => if channel.boxed then channel.queue else []
  | none => []

/-- Empty the table and answer the tokens nobody took. -/
def takeUndeliveredTokens (table : ChannelExecutor) : List Int64 × ChannelExecutor :=
  (table.slots.flatMap undelivered, .empty)

/-! ## Handles and keys -/

def wordOf (key : Key) (side : ChannelEnd) : Int64 :=
  Int64.ofNat (key.generation * 2 ^ 32 + (2 * key.index + endBit side + 1))

/-- The keys the table gives out. -/
def InRange (key : Key) : Prop :=
  key.index < maxChannels ∧ key.generation ≤ lastGeneration

theorem endBit_le (side : ChannelEnd) : endBit side ≤ 1 := by
  cases side <;> decide

variable {key : Key}

theorem handle_inRange (inRange : InRange key) (side : ChannelEnd) :
    handle key.index key.generation side = .ok (wordOf key side) := by
  rcases inRange with ⟨indexBound, generationBound⟩
  have bit := endBit_le side
  simp only [maxChannels, lastGeneration, Nat.shiftRight_eq_div_pow] at indexBound generationBound
  unfold handle wordOf
  have small : (key.index <<< 1) % 2 ^ 32 = 2 * key.index := by
    rw [Nat.shiftLeft_eq]
    omega
  rw [small, if_neg (by omega), if_neg (by omega), if_neg (by omega)]

theorem wordOf_toInt (inRange : InRange key) (side : ChannelEnd) :
    (wordOf key side).toInt =
      (key.generation * 2 ^ 32 + (2 * key.index + endBit side + 1) : Nat) := by
  rcases inRange with ⟨indexBound, generationBound⟩
  have bit := endBit_le side
  simp only [maxChannels, lastGeneration, Nat.shiftRight_eq_div_pow] at indexBound generationBound
  exact Int64.toInt_ofNat_of_lt (by omega)

theorem parts_wordOf (inRange : InRange key) (side : ChannelEnd) :
    parts (wordOf key side) = .ok (key, side) := by
  have value := wordOf_toInt inRange side
  rcases inRange with ⟨indexBound, generationBound⟩
  simp only [maxChannels, lastGeneration, Nat.shiftRight_eq_div_pow] at indexBound generationBound
  have bit := endBit_le side
  have field : (key.generation * 2 ^ 32 + (2 * key.index + endBit side + 1)) % 2 ^ 32 =
      2 * key.index + endBit side + 1 := by omega
  have count : (key.generation * 2 ^ 32 + (2 * key.index + endBit side + 1)) / 2 ^ 32 =
      key.generation := by omega
  unfold parts
  rw [value, if_neg (by omega), Int.toNat_natCast]
  simp only [field, count, Nat.shiftRight_eq_div_pow, Nat.add_sub_cancel]
  rw [if_neg (by omega)]
  have slot : (2 * key.index + endBit side) / 2 ^ 1 = key.index := by omega
  rw [slot]
  cases side with
  | sender => simp [endBit]
  | receiver => simp [endBit]

theorem eq_wordOf_of_parts {word : Int64} {side : ChannelEnd}
    (named : parts word = .ok (key, side)) : word = wordOf key side := by
  unfold parts at named
  split at named
  · cases named
  · rename_i positive
    dsimp only at named
    split at named
    · cases named
    · rename_i slotted
      cases named
      have small := Int64.toInt_lt word
      rw [← Int64.toInt_inj]
      unfold wordOf
      simp only [Nat.shiftRight_eq_div_pow]
      rw [Int64.toInt_ofNat_of_lt]
      · split <;> simp only [endBit] <;> omega
      · split <;> simp only [endBit] <;> omega

/-! ## What a primitive does -/

/-- A table that was reached from the empty one. -/
abbrev SoundChannels (table : ChannelExecutor) : Prop :=
  table.Sound lastGeneration maxChannels

abbrev UpdatesChannel (table : ChannelExecutor) (key : Key) (channel : Option Channel)
    (after : ChannelExecutor) : Prop :=
  Table.Updates lastGeneration maxChannels table key channel after

def withoutSender (channel : Channel) : Option Channel :=
  if channel.receiverLive then some { channel with senderLive := false } else none

/-- A channel without its receiver and its queue, or nothing when the sender is
gone too. -/
def withoutReceiver (channel : Channel) : Option Channel :=
  if channel.senderLive then some { channel with receiverLive := false, queue := [] } else none

/-- One call of the table. -/
structure ChannelRequest where
  prim : ChannelPrim
  first : Int64
  second : Int64
  third : Int64
  deriving DecidableEq, Repr

/-- Everything a request can do to a sound table. -/
inductive Performs (table : ChannelExecutor) :
    ChannelRequest → Except ChannelTrap Int64 → ChannelExecutor → Prop
  | refused (request : ChannelRequest) (trap : ChannelTrap) :
      Performs table request (.error trap) table
  | created (first second third : Int64) {key : Key} {after : ChannelExecutor}
      (inRange : InRange key)
      (inserts : Table.Inserts lastGeneration maxChannels table
        ⟨[], true, true, first == boxedPayload⟩ key after) :
      Performs table ⟨.create, first, second, third⟩ (.ok (wordOf key .sender)) after
  | sent (value third : Int64) {key : Key} {channel : Channel} {after : ChannelExecutor}
      (found : table.find? key = some channel) (senderLive : channel.senderLive = true)
      (receiverLive : channel.receiverLive = true)
      (updates : UpdatesChannel table key
        (some { channel with queue := channel.queue ++ [value] }) after) :
      Performs table ⟨.send, wordOf key .sender, value, third⟩ (.ok 0) after
  | polled (second third : Int64) {key : Key} {channel : Channel}
      (found : table.find? key = some channel) (receiverLive : channel.receiverLive = true) :
      Performs table ⟨.poll, wordOf key .receiver, second, third⟩ (.ok (pollAnswer channel)) table
  | took (second third : Int64) {key : Key} {channel : Channel} {value : Int64}
      {queue : List Int64} {after : ChannelExecutor}
      (found : table.find? key = some channel) (receiverLive : channel.receiverLive = true)
      (waiting : channel.queue = value :: queue)
      (updates : UpdatesChannel table key (some { channel with queue := queue }) after) :
      Performs table ⟨.take, wordOf key .receiver, second, third⟩ (.ok value) after
  | closedSender (second third : Int64) {key : Key} {channel : Channel}
      {after : ChannelExecutor}
      (found : table.find? key = some channel) (senderLive : channel.senderLive = true)
      (updates : UpdatesChannel table key (withoutSender channel) after) :
      Performs table ⟨.closeSender, wordOf key .sender, second, third⟩ (.ok 0) after
  | closedReceiver (second third : Int64) {key : Key} {channel : Channel}
      {after : ChannelExecutor}
      (found : table.find? key = some channel) (receiverLive : channel.receiverLive = true)
      (updates : UpdatesChannel table key (withoutReceiver channel) after) :
      Performs table ⟨.closeReceiver, wordOf key .receiver, second, third⟩ (.ok 0) after

def serve (table : ChannelExecutor) (request : ChannelRequest) :
    Except ChannelTrap Int64 × ChannelExecutor :=
  match perform request.prim request.first request.second request.third table with
  | .ok answer after => (.ok answer, after)
  | .error trap after => (.error trap, after)

theorem resolve_run (wanted : ChannelEnd) (word : Int64) (table : ChannelExecutor) :
    (∃ trap, resolve wanted word table = .error trap table) ∨
      ∃ key channel, word = wordOf key wanted ∧ table.find? key = some channel ∧
        resolve wanted word table = .ok (key, channel) table := by
  unfold resolve
  cases named : parts word with
  | error trap => exact Or.inl ⟨trap, rfl⟩
  | ok parsed =>
    rcases parsed with ⟨key, side⟩
    by_cases same : side = wanted
    · subst same
      cases found : table.find? key with
      | none =>
        left
        refine ⟨.unknownHandle, ?_⟩
        simp [ofExcept, bind, EStateM.bind, pure_run, get_run, found, throw_run]
      | some channel =>
        right
        refine ⟨key, channel, eq_wordOf_of_parts named, found, ?_⟩
        simp [ofExcept, bind, EStateM.bind, pure_run, get_run, found]
    · left
      refine ⟨.wrongDirection, ?_⟩
      simp [ofExcept, bind, EStateM.bind, pure_run, same, throw_run]

/-- What `serve` answers from a run of `perform`. -/
def Served (answer : EStateM.Result ChannelTrap ChannelExecutor Int64)
    (table : ChannelExecutor) (request : ChannelRequest) : Prop :=
  match answer with
  | .ok value after => Performs table request (.ok value) after
  | .error trap after => Performs table request (.error trap) after

variable {table : ChannelExecutor}

theorem served_error (request : ChannelRequest) (trap : ChannelTrap) :
    Served (.error trap table) table request :=
  Performs.refused request trap

/-- Creating a channel cannot fail after a slot was found for it. -/
theorem create_served (sound : SoundChannels table) (first second third : Int64) :
    Served (perform .create first second third table) table ⟨.create, first, second, third⟩ := by
  let channel : Channel := ⟨[], true, true, first == boxedPayload⟩
  rcases sound.insert_spec channel with refused | ⟨key, after, inserted, inserts⟩
  · -- no slot was left, so the table was not touched
    have none_claimed : table.claim maxChannels = none := by
      rcases sound.insert_cases channel with ⟨-, full, size⟩ | ⟨index, free, generation, listed,
        vacant, inserted⟩ | ⟨full, room, inserted⟩
      · simp [Table.claim, full, Nat.not_lt.mpr size]
      · rw [inserted] at refused
        cases refused
      · rw [inserted] at refused
        cases refused
    simp [perform, create, bind, EStateM.bind, get_run, none_claimed, throw_run]
    exact served_error _ _
  · have inRange : InRange key := ⟨inserts.index_lt, inserts.generation_le⟩
    unfold Table.insert at inserted
    cases claimed : table.claim maxChannels with
    | none => simp [claimed] at inserted
    | some taken =>
      rcases taken with ⟨index, middle⟩
      cases here : middle.slots[index]? with
      | none => simp [claimed, here] at inserted
      | some slot =>
        simp only [claimed, here, Option.bind_some, Option.map_some, Option.some.injEq,
          Prod.mk.injEq] at inserted
        rcases inserted with ⟨rfl, rfl⟩
        have sender := handle_inRange inRange .sender
        have receiver := handle_inRange inRange .receiver
        simp only at sender receiver
        simp [perform, create, bind, EStateM.bind, get_run, claimed, set_run, here, sender,
          receiver, ofExcept, pure_run]
        exact Performs.created first second third inRange inserts

theorem served_of_error {request : ChannelRequest} {trap : ChannelTrap}
    {answer : EStateM.Result ChannelTrap ChannelExecutor Int64}
    (ran : answer = .error trap table) : Served answer table request := by
  rw [ran]
  exact served_error request trap

theorem reclaim_run {channel : Channel} (found : table.find? key = some channel) :
    reclaim key table = .ok () (table.vacate lastGeneration key.index) := by
  simp [reclaim, bind, EStateM.bind, get_run, found, set_run]

theorem send_served (sound : SoundChannels table) (first second third : Int64) :
    Served (perform .send first second third table) table ⟨.send, first, second, third⟩ := by
  rcases resolve_run .sender first table with ⟨trap, refused⟩ |
    ⟨key, channel, named, found, resolved⟩
  · have ran : perform .send first second third table = .error trap table := by
      simp only [perform, send, bind, EStateM.bind, refused]
    exact served_of_error ran
  · rcases channel with ⟨queue, senderLive, receiverLive, boxed⟩
    cases senderLive with
    | false =>
      have ran : perform .send first second third table = .error .unknownHandle table := by
        simp only [perform, send, bind, EStateM.bind, resolved]
        rfl
      exact served_of_error ran
    | true =>
      cases receiverLive with
      | false =>
        have ran : perform .send first second third table = .error .receiverGone table := by
          simp only [perform, send, bind, EStateM.bind, resolved]
          rfl
        exact served_of_error ran
      | true =>
        have ran : perform .send first second third table =
            .ok 0 (table.occupy key.index ⟨queue ++ [second], true, true, boxed⟩) := by
          simp only [perform, send, bind, EStateM.bind, resolved]
          rfl
        rw [ran, named]
        exact Performs.sent second third found rfl rfl (sound.updates_occupy _ found)

theorem poll_served (first second third : Int64) :
    Served (perform .poll first second third table) table ⟨.poll, first, second, third⟩ := by
  rcases resolve_run .receiver first table with ⟨trap, refused⟩ |
    ⟨key, channel, named, found, resolved⟩
  · have ran : perform .poll first second third table = .error trap table := by
      simp only [perform, poll, bind, EStateM.bind, refused]
    exact served_of_error ran
  · rcases channel with ⟨queue, senderLive, receiverLive, boxed⟩
    cases receiverLive with
    | false =>
      have ran : perform .poll first second third table = .error .unknownHandle table := by
        simp only [perform, poll, bind, EStateM.bind, resolved]
        rfl
      exact served_of_error ran
    | true =>
      have ran : perform .poll first second third table =
          .ok (pollAnswer ⟨queue, senderLive, true, boxed⟩) table := by
        simp only [perform, poll, bind, EStateM.bind, resolved]
        rfl
      rw [ran, named]
      exact Performs.polled second third found rfl

theorem take_served (sound : SoundChannels table) (first second third : Int64) :
    Served (perform .take first second third table) table ⟨.take, first, second, third⟩ := by
  rcases resolve_run .receiver first table with ⟨trap, refused⟩ |
    ⟨key, channel, named, found, resolved⟩
  · have ran : perform .take first second third table = .error trap table := by
      simp only [perform, take, bind, EStateM.bind, refused]
    exact served_of_error ran
  · rcases channel with ⟨queue, senderLive, receiverLive, boxed⟩
    cases receiverLive with
    | false =>
      have ran : perform .take first second third table = .error .unknownHandle table := by
        simp only [perform, take, bind, EStateM.bind, resolved]
        rfl
      exact served_of_error ran
    | true =>
      cases queue with
      | nil =>
        have ran : perform .take first second third table = .error .notReady table := by
          simp only [perform, take, bind, EStateM.bind, resolved]
          rfl
        exact served_of_error ran
      | cons value queue =>
        have ran : perform .take first second third table =
            .ok value (table.occupy key.index ⟨queue, senderLive, true, boxed⟩) := by
          simp only [perform, take, bind, EStateM.bind, resolved]
          rfl
        rw [ran, named]
        exact Performs.took second third found rfl rfl (sound.updates_occupy _ found)

/-- The slot of a channel whose ends are both gone is emptied. -/
theorem updates_reclaim (sound : SoundChannels table) {old : Channel}
    (found : table.find? key = some old) (closed : Channel) :
    UpdatesChannel table key none
      ((table.occupy key.index closed).vacate lastGeneration key.index) := by
  have first := sound.updates_occupy closed found
  exact first.trans (first.sound.updates_vacate first.found)

theorem closeSender_served (sound : SoundChannels table) (first second third : Int64) :
    Served (perform .closeSender first second third table) table
      ⟨.closeSender, first, second, third⟩ := by
  rcases resolve_run .sender first table with ⟨trap, refused⟩ |
    ⟨key, channel, named, found, resolved⟩
  · have ran : perform .closeSender first second third table = .error trap table := by
      simp only [perform, closeSender, bind, EStateM.bind, refused]
    exact served_of_error ran
  · rcases channel with ⟨queue, senderLive, receiverLive, boxed⟩
    cases senderLive with
    | false =>
      have ran : perform .closeSender first second third table =
          .error .unknownHandle table := by
        simp only [perform, closeSender, bind, EStateM.bind, resolved]
        rfl
      exact served_of_error ran
    | true =>
      have updates := sound.updates_occupy ⟨queue, false, receiverLive, boxed⟩ found
      cases receiverLive with
      | true =>
        have ran : perform .closeSender first second third table =
            .ok 0 (table.occupy key.index ⟨queue, false, true, boxed⟩) := by
          simp only [perform, closeSender, bind, EStateM.bind, resolved]
          rfl
        rw [ran, named]
        exact Performs.closedSender second third found rfl updates
      | false =>
        have reclaimed := reclaim_run updates.found
        have ran : perform .closeSender first second third table =
            .ok 0 ((table.occupy key.index ⟨queue, false, false, boxed⟩).vacate
              lastGeneration key.index) := by
          simp [perform, closeSender, bind, EStateM.bind, resolved, modify_run, reclaimed,
            pure_run]
        rw [ran, named]
        exact Performs.closedSender second third found rfl (updates_reclaim sound found _)

theorem closeReceiver_served (sound : SoundChannels table) (first second third : Int64) :
    Served (perform .closeReceiver first second third table) table
      ⟨.closeReceiver, first, second, third⟩ := by
  rcases resolve_run .receiver first table with ⟨trap, refused⟩ |
    ⟨key, channel, named, found, resolved⟩
  · have ran : perform .closeReceiver first second third table = .error trap table := by
      simp only [perform, closeReceiver, bind, EStateM.bind, refused]
    exact served_of_error ran
  · rcases channel with ⟨queue, senderLive, receiverLive, boxed⟩
    cases receiverLive with
    | false =>
      have ran : perform .closeReceiver first second third table =
          .error .unknownHandle table := by
        simp only [perform, closeReceiver, bind, EStateM.bind, resolved]
        rfl
      exact served_of_error ran
    | true =>
      have updates := sound.updates_occupy ⟨[], senderLive, false, boxed⟩ found
      cases senderLive with
      | true =>
        have ran : perform .closeReceiver first second third table =
            .ok 0 (table.occupy key.index ⟨[], true, false, boxed⟩) := by
          simp only [perform, closeReceiver, bind, EStateM.bind, resolved]
          rfl
        rw [ran, named]
        exact Performs.closedReceiver second third found rfl updates
      | false =>
        have reclaimed := reclaim_run updates.found
        have ran : perform .closeReceiver first second third table =
            .ok 0 ((table.occupy key.index ⟨[], false, false, boxed⟩).vacate
              lastGeneration key.index) := by
          simp [perform, closeReceiver, bind, EStateM.bind, resolved, modify_run, reclaimed,
            pure_run]
        rw [ran, named]
        exact Performs.closedReceiver second third found rfl (updates_reclaim sound found _)

theorem serve_performs (sound : SoundChannels table) (request : ChannelRequest) :
    Performs table request (serve table request).1 (serve table request).2 := by
  have served : Served (perform request.prim request.first request.second request.third table)
      table request := by
    rcases request with ⟨prim, first, second, third⟩
    cases prim with
    | create => exact create_served sound first second third
    | send => exact send_served sound first second third
    | poll => exact poll_served first second third
    | take => exact take_served sound first second third
    | closeSender => exact closeSender_served sound first second third
    | closeReceiver => exact closeReceiver_served sound first second third
    | deadlock => exact served_error _ _
  unfold serve
  cases ran : perform request.prim request.first request.second request.third table with
  | ok answer after =>
    rw [ran] at served
    exact served
  | error trap after =>
    rw [ran] at served
    exact served

end ChannelExecutor

end KiraVm
