import KiraVm.ChannelTable
import Mathlib.Data.List.Induction
import Mathlib.Data.List.Perm.Basic

/-!
# Histories of channels

A table is followed through any sequence of requests, and every request is
logged with its answer.  What the log says about a channel and what the table
holds for it are two views of one history: the payloads taken are the oldest of
those sent, and what was not taken is still queued unless the receiver was
closed.
-/

namespace KiraVm

open SlotTable

namespace ChannelExecutor

/-- A request and its answer. -/
structure ChannelEvent where
  request : ChannelRequest
  answer : Except ChannelTrap Int64

def serveNext (state : List ChannelEvent × ChannelExecutor) (request : ChannelRequest) :
    List ChannelEvent × ChannelExecutor :=
  (state.1 ++ [⟨request, (serve state.2 request).1⟩], (serve state.2 request).2)

/-- Serve requests from an empty table: the log and the table after them. -/
def serveAll (requests : List ChannelRequest) : List ChannelEvent × ChannelExecutor :=
  requests.foldl serveNext ([], .empty)

theorem serveAll_append_one (requests : List ChannelRequest) (request : ChannelRequest) :
    serveAll (requests ++ [request]) = serveNext (serveAll requests) request := by
  simp [serveAll]

/-! ## What a log says -/

def receiverOf (sender : Int64) : Int64 :=
  sender + 1

def createdBy : ChannelEvent → Option (Int64 × Bool)
  | ⟨⟨.create, first, _, _⟩, .ok sender⟩ => some (sender, first == boxedPayload)
  | _ => none

def sentBy : ChannelEvent → Option (Int64 × Int64)
  | ⟨⟨.send, first, second, _⟩, .ok _⟩ => some (first, second)
  | _ => none

/-- The receiver a successful request took from, with the payload. -/
def takenBy : ChannelEvent → Option (Int64 × Int64)
  | ⟨⟨.take, first, _, _⟩, .ok payload⟩ => some (first, payload)
  | _ => none

def closedBy (prim : ChannelPrim) : ChannelEvent → Option Int64
  | ⟨request, .ok _⟩ => if request.prim = prim then some request.first else none
  | _ => none

def created (log : List ChannelEvent) : List (Int64 × Bool) :=
  log.filterMap createdBy

def payloadsOf (word : Int64) (pairs : List (Int64 × Int64)) : List Int64 :=
  (pairs.filter fun pair => pair.1 = word).map Prod.snd

def sentTo (sender : Int64) (log : List ChannelEvent) : List Int64 :=
  payloadsOf sender (log.filterMap sentBy)

def takenFrom (receiver : Int64) (log : List ChannelEvent) : List Int64 :=
  payloadsOf receiver (log.filterMap takenBy)

def closedSenders (log : List ChannelEvent) : List Int64 :=
  log.filterMap (closedBy .closeSender)

def closedReceivers (log : List ChannelEvent) : List Int64 :=
  log.filterMap (closedBy .closeReceiver)

/-! ## One more event -/

section Append

variable (log : List ChannelEvent) (event : ChannelEvent)

theorem created_append : created (log ++ [event]) = created log ++ (createdBy event).toList := by
  cases same : createdBy event <;> simp [created, same]

theorem payloadsOf_append (word : Int64) (pairs more : List (Int64 × Int64)) :
    payloadsOf word (pairs ++ more) = payloadsOf word pairs ++ payloadsOf word more := by
  simp [payloadsOf]

theorem sentTo_append (sender : Int64) :
    sentTo sender (log ++ [event]) =
      sentTo sender log ++ payloadsOf sender (sentBy event).toList := by
  unfold sentTo
  rw [List.filterMap_append, payloadsOf_append]
  cases same : sentBy event <;> simp [same]

theorem takenFrom_append (receiver : Int64) :
    takenFrom receiver (log ++ [event]) =
      takenFrom receiver log ++ payloadsOf receiver (takenBy event).toList := by
  unfold takenFrom
  rw [List.filterMap_append, payloadsOf_append]
  cases same : takenBy event <;> simp [same]

theorem closedSenders_append :
    closedSenders (log ++ [event]) =
      closedSenders log ++ (closedBy .closeSender event).toList := by
  cases same : closedBy .closeSender event <;> simp [closedSenders, same]

theorem closedReceivers_append :
    closedReceivers (log ++ [event]) =
      closedReceivers log ++ (closedBy .closeReceiver event).toList := by
  cases same : closedBy .closeReceiver event <;> simp [closedReceivers, same]

end Append

/-! ## The table and the log -/

/-- The log says nothing about a channel. -/
structure Untouched (log : List ChannelEvent) (key : Key) : Prop where
  created : ∀ pair ∈ created log, pair.1 ≠ wordOf key .sender
  sent : sentTo (wordOf key .sender) log = []
  taken : takenFrom (wordOf key .receiver) log = []
  senderClosed : wordOf key .sender ∉ closedSenders log
  receiverClosed : wordOf key .receiver ∉ closedReceivers log

/-- What the log says about a channel in the table. -/
structure Follows (log : List ChannelEvent) (key : Key) (channel : Channel) : Prop where
  created : (wordOf key .sender, channel.boxed) ∈ created log
  taken : takenFrom (wordOf key .receiver) log <+: sentTo (wordOf key .sender) log
  queued : channel.receiverLive = true →
    sentTo (wordOf key .sender) log =
      takenFrom (wordOf key .receiver) log ++ channel.queue
  dropped : channel.receiverLive = false → channel.queue = []
  senderClosed : wordOf key .sender ∈ closedSenders log ↔ channel.senderLive = false
  receiverClosed : wordOf key .receiver ∈ closedReceivers log ↔ channel.receiverLive = false

/-- What the log says about a channel that is gone. -/
structure Finished (log : List ChannelEvent) (key : Key) : Prop where
  created : ∃ boxed, (wordOf key .sender, boxed) ∈ created log
  taken : takenFrom (wordOf key .receiver) log <+: sentTo (wordOf key .sender) log
  senderClosed : wordOf key .sender ∈ closedSenders log
  receiverClosed : wordOf key .receiver ∈ closedReceivers log

/-- The log tells the history of every channel of the table. -/
structure Tracks (log : List ChannelEvent) (table : ChannelExecutor) : Prop where
  sound : SoundChannels table
  issuedInRange : ∀ key, table.Issued key → InRange key
  unissued : ∀ key, InRange key → ¬ table.Issued key → Untouched log key
  follows : ∀ key channel, table.find? key = some channel → Follows log key channel
  finished : ∀ key, table.Issued key → table.find? key = none → Finished log key
  named : ∀ pair ∈ created log, ∃ key, table.Issued key ∧ pair.1 = wordOf key .sender
  once : ((created log).map Prod.fst).Nodup

variable {side : ChannelEnd} {channel : Channel} {entry : Option Channel}
  {first second third sender : Int64} {request : ChannelRequest} {answer : Int64}

theorem wordOf_injective {key other : Key} {otherSide : ChannelEnd} (inRange : InRange key)
    (otherInRange : InRange other) (same : wordOf key side = wordOf other otherSide) :
    key = other ∧ side = otherSide := by
  have parsed := parts_wordOf inRange side
  rw [same, parts_wordOf otherInRange otherSide] at parsed
  cases parsed
  exact ⟨rfl, rfl⟩

theorem receiverOf_wordOf (key : Key) : receiverOf (wordOf key .sender) = wordOf key .receiver := by
  unfold receiverOf wordOf
  rw [show (1 : Int64) = Int64.ofNat 1 from rfl, ← Int64.ofNat_add]
  simp only [endBit, Nat.add_zero, Nat.add_assoc]

/-! ## One more request -/

variable {log : List ChannelEvent} {table after : ChannelExecutor} {key other : Key}
  {event : ChannelEvent}

/-- Whether an event tells something about a channel. -/
def Concerns (event : ChannelEvent) (key : Key) : Prop :=
  (∃ boxed, createdBy event = some (wordOf key .sender, boxed)) ∨
    (∃ payload, sentBy event = some (wordOf key .sender, payload)) ∨
    (∃ payload, takenBy event = some (wordOf key .receiver, payload)) ∨
    closedBy .closeSender event = some (wordOf key .sender) ∨
    closedBy .closeReceiver event = some (wordOf key .receiver)

/-- An event about other channels leaves what the log says about one. -/
structure SameHistory (log : List ChannelEvent) (event : ChannelEvent) (key : Key) : Prop where
  created : ∀ boxed, (wordOf key .sender, boxed) ∈ ChannelExecutor.created (log ++ [event]) ↔
    (wordOf key .sender, boxed) ∈ ChannelExecutor.created log
  sent : sentTo (wordOf key .sender) (log ++ [event]) = sentTo (wordOf key .sender) log
  taken : takenFrom (wordOf key .receiver) (log ++ [event]) =
    takenFrom (wordOf key .receiver) log
  senderClosed : wordOf key .sender ∈ closedSenders (log ++ [event]) ↔
    wordOf key .sender ∈ closedSenders log
  receiverClosed : wordOf key .receiver ∈ closedReceivers (log ++ [event]) ↔
    wordOf key .receiver ∈ closedReceivers log

theorem payloadsOf_other {word : Int64} {found : Option (Int64 × Int64)}
    (differs : ∀ payload, found ≠ some (word, payload)) : payloadsOf word found.toList = [] := by
  cases found with
  | none => rfl
  | some pair =>
    rcases pair with ⟨named, payload⟩
    have apart : named ≠ word := by
      intro same
      rw [same] at differs
      exact differs payload rfl
    simp [payloadsOf, apart]

theorem sameHistory_of_not_concerns (silent : ¬ Concerns event key) :
    SameHistory log event key := by
  unfold Concerns at silent
  simp only [not_or, not_exists] at silent
  rcases silent with ⟨notCreated, notSent, notTaken, notSenderClosed, notReceiverClosed⟩
  refine ⟨?_, ?_, ?_, ?_, ?_⟩
  · intro boxed
    rw [created_append, List.mem_append, Option.mem_toList]
    simp [notCreated boxed]
  · rw [sentTo_append, payloadsOf_other notSent, List.append_nil]
  · rw [takenFrom_append, payloadsOf_other notTaken, List.append_nil]
  · rw [closedSenders_append, List.mem_append, Option.mem_toList]
    simp [notSenderClosed]
  · rw [closedReceivers_append, List.mem_append, Option.mem_toList]
    simp [notReceiverClosed]

theorem Follows.same (follows : Follows log key channel) (same : SameHistory log event key) :
    Follows (log ++ [event]) key channel where
  created := (same.created _).mpr follows.created
  taken := by
    rw [same.taken, same.sent]
    exact follows.taken
  queued := by
    rw [same.taken, same.sent]
    exact follows.queued
  dropped := follows.dropped
  senderClosed := same.senderClosed.trans follows.senderClosed
  receiverClosed := same.receiverClosed.trans follows.receiverClosed

theorem Finished.same (finished : Finished log key) (same : SameHistory log event key) :
    Finished (log ++ [event]) key where
  created := by
    rcases finished.created with ⟨boxed, listed⟩
    exact ⟨boxed, (same.created boxed).mpr listed⟩
  taken := by
    rw [same.taken, same.sent]
    exact finished.taken
  senderClosed := same.senderClosed.mpr finished.senderClosed
  receiverClosed := same.receiverClosed.mpr finished.receiverClosed

theorem Untouched.same (untouched : Untouched log key) (same : SameHistory log event key) :
    Untouched (log ++ [event]) key where
  created := by
    intro pair listed equal
    rcases pair with ⟨sender, boxed⟩
    dsimp only at equal
    subst equal
    exact untouched.created _ ((same.created boxed).mp listed) rfl
  sent := by rw [same.sent, untouched.sent]
  taken := by rw [same.taken, untouched.taken]
  senderClosed := fun closed => untouched.senderClosed (same.senderClosed.mp closed)
  receiverClosed := fun closed => untouched.receiverClosed (same.receiverClosed.mp closed)

theorem not_concerns_other (inRange : InRange key) (otherInRange : InRange other)
    (differs : other ≠ key) (named : event.request.first = wordOf key side)
    (notCreate : event.request.prim ≠ .create) : ¬ Concerns event other := by
  have apart : ∀ otherSide, event.request.first ≠ wordOf other otherSide := by
    intro otherSide same
    rw [named] at same
    exact differs (wordOf_injective inRange otherInRange same).1.symm
  rcases event with ⟨⟨prim, first, second, third⟩, answer⟩
  dsimp only at apart notCreate
  cases answer with
  | error trap =>
    rintro (⟨_, same⟩ | ⟨_, same⟩ | ⟨_, same⟩ | same | same) <;>
      simp [createdBy, sentBy, takenBy, closedBy] at same
  | ok value =>
    rintro (⟨_, same⟩ | ⟨_, same⟩ | ⟨_, same⟩ | same | same)
    · cases prim <;> simp [createdBy] at same notCreate
    · cases prim <;> simp [sentBy] at same
      exact apart _ same.1
    · cases prim <;> simp [takenBy] at same
      exact apart _ same.1
    · cases prim <;> simp [closedBy] at same
      exact apart _ same
    · cases prim <;> simp [closedBy] at same
      exact apart _ same

/-- What the log has to say about a channel's entry. -/
def Tells (log : List ChannelEvent) (key : Key) : Option Channel → Prop
  | some channel => Follows log key channel
  | none => Finished log key

theorem Tracks.updates (tracks : Tracks log table) (found : table.find? key = some channel)
    (updates : UpdatesChannel table key entry after)
    (named : event.request.first = wordOf key side) (notCreate : event.request.prim ≠ .create)
    (tells : Tells (log ++ [event]) key entry) : Tracks (log ++ [event]) after := by
  have issued := tracks.sound.issued_of_find? found
  have inRange := tracks.issuedInRange key issued
  have issuedIff : ∀ other, after.Issued other ↔ table.Issued other := by
    intro other
    rw [updates.issues]
    constructor
    · rintro (rfl | already)
      · exact issued
      · exact already
    · exact Or.inr
  have same : ∀ other, InRange other → other ≠ key → SameHistory log event other :=
    fun other otherInRange differs => sameHistory_of_not_concerns
      (not_concerns_other inRange otherInRange differs named notCreate)
  have sameCreated : created (log ++ [event]) = created log := by
    have silent : createdBy event = none := by
      rcases event with ⟨⟨prim, first, second, third⟩, answer⟩
      cases prim <;> simp [createdBy] at notCreate ⊢
    rw [created_append, silent]
    simp
  refine ⟨updates.sound, ?_, ?_, ?_, ?_, ?_, ?_⟩
  · intro other otherIssued
    exact tracks.issuedInRange other ((issuedIff other).mp otherIssued)
  · intro other otherInRange unissued
    have differs : other ≠ key := by
      rintro rfl
      exact unissued ((issuedIff other).mpr issued)
    exact (tracks.unissued other otherInRange fun already =>
      unissued ((issuedIff other).mpr already)).same (same other otherInRange differs)
  · intro other otherChannel otherFound
    by_cases differs : other = key
    · subst differs
      rw [updates.found] at otherFound
      subst otherFound
      exact tells
    · rw [updates.others other differs] at otherFound
      have otherInRange := tracks.issuedInRange other (tracks.sound.issued_of_find? otherFound)
      exact (tracks.follows other otherChannel otherFound).same (same other otherInRange differs)
  · intro other otherIssued absent
    by_cases differs : other = key
    · subst differs
      rw [updates.found] at absent
      subst absent
      exact tells
    · rw [updates.others other differs] at absent
      have before := (issuedIff other).mp otherIssued
      exact (tracks.finished other before absent).same
        (same other (tracks.issuedInRange other before) differs)
  · intro pair listed
    rw [sameCreated] at listed
    rcases tracks.named pair listed with ⟨named, namedIssued, equal⟩
    exact ⟨named, (issuedIff named).mpr namedIssued, equal⟩
  · rw [sameCreated]
    exact tracks.once

theorem not_concerns_created (inRange : InRange key) (otherInRange : InRange other)
    (differs : other ≠ key) :
    ¬ Concerns ⟨⟨.create, first, second, third⟩, .ok (wordOf key .sender)⟩ other := by
  rintro (⟨_, same⟩ | ⟨_, same⟩ | ⟨_, same⟩ | same | same)
  · simp only [createdBy, Option.some.injEq, Prod.mk.injEq] at same
    exact differs (wordOf_injective inRange otherInRange same.1).1.symm
  · simp [sentBy] at same
  · simp [takenBy] at same
  · simp [closedBy] at same
  · simp [closedBy] at same

/-- The history of a channel that was just created. -/
theorem Untouched.follows_created (untouched : Untouched log key) (first second third : Int64) :
    Follows (log ++ [⟨⟨.create, first, second, third⟩, .ok (wordOf key .sender)⟩]) key
      ⟨[], true, true, first == boxedPayload⟩ where
  created := by simp [created_append, createdBy]
  taken := by
    rw [takenFrom_append, untouched.taken]
    simp [takenBy, payloadsOf]
  queued := by
    intro _
    rw [takenFrom_append, sentTo_append, untouched.taken, untouched.sent]
    simp [takenBy, sentBy, payloadsOf]
  dropped := by simp
  senderClosed := by
    rw [closedSenders_append]
    simp [closedBy, untouched.senderClosed]
  receiverClosed := by
    rw [closedReceivers_append]
    simp [closedBy, untouched.receiverClosed]

theorem Tracks.inserts (tracks : Tracks log table) (inRange : InRange key)
    (inserts : Table.Inserts lastGeneration maxChannels table
      ⟨[], true, true, first == boxedPayload⟩ key after) :
    Tracks (log ++ [⟨⟨.create, first, second, third⟩, .ok (wordOf key .sender)⟩]) after := by
  have untouched := tracks.unissued key inRange inserts.fresh
  have same : ∀ other, InRange other → other ≠ key → SameHistory log
      ⟨⟨.create, first, second, third⟩, .ok (wordOf key .sender)⟩ other :=
    fun other otherInRange differs => sameHistory_of_not_concerns
      (not_concerns_created inRange otherInRange differs)
  refine ⟨inserts.sound, ?_, ?_, ?_, ?_, ?_, ?_⟩
  · intro other issued
    rcases (inserts.issues other).mp issued with rfl | before
    · exact inRange
    · exact tracks.issuedInRange other before
  · intro other otherInRange unissued
    have differs : other ≠ key := fun equal => unissued ((inserts.issues other).mpr (Or.inl equal))
    exact (tracks.unissued other otherInRange fun before =>
      unissued ((inserts.issues other).mpr (Or.inr before))).same (same other otherInRange differs)
  · intro other channel found
    by_cases differs : other = key
    · subst differs
      rw [inserts.found] at found
      cases found
      exact untouched.follows_created first second third
    · rw [inserts.others other differs] at found
      have otherInRange := tracks.issuedInRange other (tracks.sound.issued_of_find? found)
      exact (tracks.follows other channel found).same (same other otherInRange differs)
  · intro other issued absent
    by_cases differs : other = key
    · subst differs
      rw [inserts.found] at absent
      cases absent
    · rw [inserts.others other differs] at absent
      rcases (inserts.issues other).mp issued with equal | before
      · exact absurd equal differs
      · exact (tracks.finished other before absent).same
          (same other (tracks.issuedInRange other before) differs)
  · intro pair listed
    simp only [created_append, createdBy, Option.toList_some, List.mem_append,
      List.mem_singleton] at listed
    rcases listed with earlier | rfl
    · rcases tracks.named pair earlier with ⟨named, issued, equal⟩
      exact ⟨named, (inserts.issues named).mpr (Or.inr issued), equal⟩
    · exact ⟨key, (inserts.issues key).mpr (Or.inl rfl), rfl⟩
  · simp only [created_append, createdBy, Option.toList_some, List.map_append, List.map_cons,
      List.map_nil]
    rw [List.nodup_append]
    refine ⟨tracks.once, by simp, ?_⟩
    intro sender earlier last listed
    rw [List.mem_singleton] at listed
    subst listed
    rcases List.mem_map.mp earlier with ⟨pair, pairListed, rfl⟩
    exact untouched.created pair pairListed

/-! ## Requests on one channel -/

section OneChannel

variable {channel : Channel} (follows : Follows log key channel)

include follows

theorem Follows.sent (value third answer : Int64) (receiverLive : channel.receiverLive = true) :
    Follows (log ++ [⟨⟨.send, wordOf key .sender, value, third⟩, .ok answer⟩]) key
      { channel with queue := channel.queue ++ [value] } where
  created := by simpa [created_append, createdBy] using follows.created
  taken := by
    rw [takenFrom_append, sentTo_append]
    simpa [takenBy, sentBy, payloadsOf] using
      follows.taken.trans (List.prefix_append _ [value])
  queued := by
    intro _
    rw [takenFrom_append, sentTo_append, follows.queued receiverLive]
    simp [takenBy, sentBy, payloadsOf]
  dropped := by
    intro gone
    rw [receiverLive] at gone
    cases gone
  senderClosed := by
    rw [closedSenders_append]
    simpa [closedBy] using follows.senderClosed
  receiverClosed := by
    rw [closedReceivers_append]
    simpa [closedBy] using follows.receiverClosed

theorem Follows.took (second third : Int64) {value : Int64} {queue : List Int64}
    (receiverLive : channel.receiverLive = true) (waiting : channel.queue = value :: queue) :
    Follows (log ++ [⟨⟨.take, wordOf key .receiver, second, third⟩, .ok value⟩]) key
      { channel with queue := queue } := by
  have split : sentTo (wordOf key .sender) log =
      takenFrom (wordOf key .receiver) log ++ [value] ++ queue := by
    rw [follows.queued receiverLive, waiting]
    simp
  refine ⟨?_, ?_, ?_, ?_, ?_, ?_⟩
  · simpa [created_append, createdBy] using follows.created
  · rw [takenFrom_append, sentTo_append, split]
    simp [takenBy, sentBy, payloadsOf]
  · intro _
    rw [takenFrom_append, sentTo_append, split]
    simp [takenBy, sentBy, payloadsOf]
  · intro gone
    rw [receiverLive] at gone
    cases gone
  · rw [closedSenders_append]
    simpa [closedBy] using follows.senderClosed
  · rw [closedReceivers_append]
    simpa [closedBy] using follows.receiverClosed

theorem Follows.closedSender (second third answer : Int64) :
    Tells (log ++ [⟨⟨.closeSender, wordOf key .sender, second, third⟩, .ok answer⟩]) key
      (withoutSender channel) := by
  unfold withoutSender
  cases receiverLive : channel.receiverLive with
  | true =>
    refine ⟨?_, ?_, ?_, ?_, ?_, ?_⟩
    · simpa [created_append, createdBy] using follows.created
    · rw [takenFrom_append, sentTo_append]
      simpa [takenBy, sentBy, payloadsOf] using follows.taken
    · intro _
      rw [takenFrom_append, sentTo_append, follows.queued receiverLive]
      simp [takenBy, sentBy, payloadsOf]
    · simp
    · rw [closedSenders_append]
      simp [closedBy]
    · rw [closedReceivers_append]
      simpa [closedBy, receiverLive] using follows.receiverClosed
  | false =>
    refine ⟨⟨channel.boxed, ?_⟩, ?_, ?_, ?_⟩
    · simpa [created_append, createdBy] using follows.created
    · rw [takenFrom_append, sentTo_append]
      simpa [takenBy, sentBy, payloadsOf] using follows.taken
    · rw [closedSenders_append]
      simp [closedBy]
    · rw [closedReceivers_append]
      simpa [closedBy] using follows.receiverClosed.mpr receiverLive

theorem Follows.closedReceiver (second third answer : Int64) :
    Tells (log ++ [⟨⟨.closeReceiver, wordOf key .receiver, second, third⟩, .ok answer⟩]) key
      (withoutReceiver channel) := by
  unfold withoutReceiver
  cases senderLive : channel.senderLive with
  | true =>
    refine ⟨?_, ?_, ?_, ?_, ?_, ?_⟩
    · simpa [created_append, createdBy] using follows.created
    · rw [takenFrom_append, sentTo_append]
      simpa [takenBy, sentBy, payloadsOf] using follows.taken
    · simp
    · simp
    · rw [closedSenders_append]
      simpa [closedBy, senderLive] using follows.senderClosed
    · rw [closedReceivers_append]
      simp [closedBy]
  | false =>
    refine ⟨⟨channel.boxed, ?_⟩, ?_, ?_, ?_⟩
    · simpa [created_append, createdBy] using follows.created
    · rw [takenFrom_append, sentTo_append]
      simpa [takenBy, sentBy, payloadsOf] using follows.taken
    · rw [closedSenders_append]
      simpa [closedBy] using follows.senderClosed.mpr senderLive
    · rw [closedReceivers_append]
      simp [closedBy]

end OneChannel

/-- An event that no channel's history mentions. -/
structure Silent (event : ChannelEvent) : Prop where
  created : createdBy event = none
  sent : sentBy event = none
  taken : takenBy event = none
  senderClosed : closedBy .closeSender event = none
  receiverClosed : closedBy .closeReceiver event = none

theorem Silent.sameHistory (silent : Silent event) (log : List ChannelEvent) (key : Key) :
    SameHistory log event key := by
  apply sameHistory_of_not_concerns
  unfold Concerns
  simp [silent.created, silent.sent, silent.taken, silent.senderClosed, silent.receiverClosed]

theorem Silent.created_append (silent : Silent event) (log : List ChannelEvent) :
    ChannelExecutor.created (log ++ [event]) = ChannelExecutor.created log := by
  rw [ChannelExecutor.created_append, silent.created]
  simp

theorem silent_refused (request : ChannelRequest) (trap : ChannelTrap) :
    Silent ⟨request, .error trap⟩ := by
  constructor <;> simp [createdBy, sentBy, takenBy, closedBy]

theorem silent_polled (first second third answer : Int64) :
    Silent ⟨⟨.poll, first, second, third⟩, .ok answer⟩ := by
  constructor <;> simp [createdBy, sentBy, takenBy, closedBy]

theorem Tracks.silent (tracks : Tracks log table) (silent : Silent event) :
    Tracks (log ++ [event]) table := by
  have same := silent.sameHistory log
  refine ⟨tracks.sound, tracks.issuedInRange, ?_, ?_, ?_, ?_, ?_⟩
  · intro key inRange unissued
    exact (tracks.unissued key inRange unissued).same (same key)
  · intro key channel found
    exact (tracks.follows key channel found).same (same key)
  · intro key issued absent
    exact (tracks.finished key issued absent).same (same key)
  · rw [silent.created_append]
    exact tracks.named
  · rw [silent.created_append]
    exact tracks.once

theorem Tracks.next (tracks : Tracks log table) (request : ChannelRequest) :
    Tracks (log ++ [⟨request, (serve table request).1⟩]) (serve table request).2 := by
  have performs := serve_performs tracks.sound request
  generalize (ChannelExecutor.serve table request).1 = answer at performs ⊢
  generalize (ChannelExecutor.serve table request).2 = next at performs ⊢
  cases performs with
  | refused request trap => exact tracks.silent (silent_refused request trap)
  | created first second third inRange inserts => exact tracks.inserts inRange inserts
  | sent value third found senderLive receiverLive updates =>
    exact tracks.updates found updates rfl (by simp)
      ((tracks.follows _ _ found).sent value third 0 receiverLive)
  | polled second third found receiverLive => exact tracks.silent (silent_polled _ _ _ _)
  | took second third found receiverLive waiting updates =>
    exact tracks.updates found updates rfl (by simp)
      ((tracks.follows _ _ found).took second third receiverLive waiting)
  | closedSender second third found senderLive updates =>
    exact tracks.updates found updates rfl (by simp)
      ((tracks.follows _ _ found).closedSender second third 0)
  | closedReceiver second third found receiverLive updates =>
    exact tracks.updates found updates rfl (by simp)
      ((tracks.follows _ _ found).closedReceiver second third 0)

theorem tracks_empty : Tracks [] .empty := by
  refine ⟨Table.sound_empty, ?_, ?_, ?_, ?_, ?_, List.nodup_nil⟩
  · intro key issued
    exact absurd issued (Table.not_issued_empty key)
  · intro key _ _
    constructor <;> simp [created, sentTo, takenFrom, payloadsOf, closedSenders, closedReceivers]
  · intro key channel found
    cases found
  · intro key issued
    exact absurd issued (Table.not_issued_empty key)
  · intro pair listed
    cases listed

/-- The log follows the table through every sequence of requests. -/
theorem tracks_serveAll (requests : List ChannelRequest) :
    Tracks (serveAll requests).1 (serveAll requests).2 := by
  induction requests using List.reverseRecOn with
  | nil => exact tracks_empty
  | append_singleton requests request ih =>
    rw [serveAll_append_one]
    exact ih.next request

/-! ## Owned tokens -/

def boxedSenders (log : List ChannelEvent) : List Int64 :=
  ((created log).filter Prod.snd).map Prod.fst

def sentTokens (log : List ChannelEvent) : List Int64 :=
  (boxedSenders log).flatMap fun sender => sentTo sender log

def takenTokens (log : List ChannelEvent) : List Int64 :=
  (boxedSenders log).flatMap fun sender => takenFrom (receiverOf sender) log

/-- The payloads of a channel that were sent and not taken. -/
def untaken (sender : Int64) (log : List ChannelEvent) : List Int64 :=
  (sentTo sender log).drop (takenFrom (receiverOf sender) log).length

/-- The tokens that were waiting when their receiver was closed. -/
def droppedTokens (log : List ChannelEvent) : List Int64 :=
  (boxedSenders log).flatMap fun sender =>
    if receiverOf sender ∈ closedReceivers log then untaken sender log else []

def waiting (log : List ChannelEvent) (sender : Int64) : List Int64 :=
  if receiverOf sender ∈ closedReceivers log then [] else untaken sender log

def tokensOf (channel : Channel) : List Int64 :=
  if channel.boxed then channel.queue else []

theorem takeUndeliveredTokens_eq (table : ChannelExecutor) :
    (takeUndeliveredTokens table).1 = table.contents tokensOf := by
  apply List.flatMap_congr
  intro slot _
  rcases slot with ⟨generation, occupant⟩
  cases occupant <;> rfl

theorem waiting_of_follows (follows : Follows log key channel) :
    waiting log (wordOf key .sender) = channel.queue := by
  unfold waiting untaken
  rw [receiverOf_wordOf]
  cases receiverLive : channel.receiverLive with
  | false => rw [if_pos (follows.receiverClosed.mpr receiverLive), follows.dropped receiverLive]
  | true =>
    have opened : wordOf key .receiver ∉ closedReceivers log := by
      intro closed
      have gone := follows.receiverClosed.mp closed
      rw [receiverLive] at gone
      cases gone
    rw [if_neg opened, follows.queued receiverLive, List.drop_left]

theorem waiting_of_finished (finished : Finished log key) :
    waiting log (wordOf key .sender) = [] := by
  unfold waiting
  rw [receiverOf_wordOf, if_pos finished.receiverClosed]

theorem waiting_of_same (same : SameHistory log event key) :
    waiting (log ++ [event]) (wordOf key .sender) = waiting log (wordOf key .sender) := by
  unfold waiting untaken
  rw [receiverOf_wordOf, same.sent, same.taken]
  simp only [same.receiverClosed]

theorem flatMap_split {α β : Type} [DecidableEq α] {members : List α} (nodup : members.Nodup)
    {member : α} (listed : member ∈ members) (before : α → List β) :
    ∃ rest, ∀ after : α → List β,
      (∀ other ∈ members, other ≠ member → after other = before other) →
      (members.flatMap after).Perm (after member ++ rest) := by
  refine ⟨(members.erase member).flatMap before, ?_⟩
  intro after same
  have front : (members.flatMap after).Perm ((member :: members.erase member).flatMap after) :=
    (List.perm_cons_erase listed).flatMap_right after
  have tail : (members.erase member).flatMap after = (members.erase member).flatMap before := by
    apply List.flatMap_congr
    intro other otherListed
    have kept := (List.Nodup.mem_erase_iff nodup).mp otherListed
    exact same other kept.2 kept.1
  rw [List.flatMap_cons, tail] at front
  exact front

theorem Tracks.boxedSenders_nodup (tracks : Tracks log table) : (boxedSenders log).Nodup :=
  tracks.once.sublist (List.filter_sublist.map Prod.fst)

theorem mem_boxedSenders : sender ∈ boxedSenders log ↔ (sender, true) ∈ created log := by
  unfold boxedSenders
  simp

theorem Tracks.mem_boxedSenders_iff (tracks : Tracks log table) {boxed : Bool}
    (listed : (sender, boxed) ∈ created log) : sender ∈ boxedSenders log ↔ boxed = true := by
  rw [mem_boxedSenders]
  constructor
  · intro otherListed
    have same := List.inj_on_of_nodup_map tracks.once listed otherListed rfl
    exact (Prod.mk.inj same).2
  · rintro rfl
    exact listed

/-- The table holds the tokens that wait for a receiver. -/
def Accounts (log : List ChannelEvent) (table : ChannelExecutor) : Prop :=
  (table.contents tokensOf).Perm ((boxedSenders log).flatMap (waiting log))

theorem tokens_of_tells {boxed : Bool}
    (keeps : ∀ channel, entry = some channel → channel.boxed = boxed)
    (tells : Tells log key entry) :
    entry.elim [] tokensOf = if boxed then waiting log (wordOf key .sender) else [] := by
  cases entry with
  | none =>
    rw [waiting_of_finished tells]
    simp
  | some channel =>
    rw [waiting_of_follows tells]
    simp [tokensOf, keeps channel rfl]

theorem Accounts.updates (accounts : Accounts log table) (tracks : Tracks log table)
    (found : table.find? key = some channel) (updates : UpdatesChannel table key entry after)
    (named : event.request.first = wordOf key side) (notCreate : event.request.prim ≠ .create)
    (keeps : ∀ changed, entry = some changed → changed.boxed = channel.boxed)
    (tells : Tells (log ++ [event]) key entry) : Accounts (log ++ [event]) after := by
  have follows := tracks.follows key channel found
  have inRange := tracks.issuedInRange key (tracks.sound.issued_of_find? found)
  have sameCreated : created (log ++ [event]) = created log := by
    have silent : createdBy event = none := by
      rcases event with ⟨⟨prim, first, second, third⟩, answer⟩
      cases prim <;> simp [createdBy] at notCreate ⊢
    rw [created_append, silent]
    simp
  have sameSenders : boxedSenders (log ++ [event]) = boxedSenders log := by
    unfold boxedSenders
    rw [sameCreated]
  have others : ∀ sender ∈ boxedSenders log, sender ≠ wordOf key .sender →
      waiting (log ++ [event]) sender = waiting log sender := by
    intro sender listed differs
    rcases tracks.named _ (mem_boxedSenders.mp listed) with ⟨other, issued, rfl⟩
    have apart : other ≠ key := by
      rintro rfl
      exact differs rfl
    exact waiting_of_same (sameHistory_of_not_concerns (not_concerns_other inRange
      (tracks.issuedInRange other issued) apart named notCreate))
  rcases updates.rest tokensOf with ⟨rest, before, changed⟩
  rw [found] at before
  rw [tokens_of_tells keeps tells] at changed
  have current : (some channel).elim [] tokensOf =
      if channel.boxed then waiting log (wordOf key .sender) else [] :=
    tokens_of_tells (fun _ same => by cases same; rfl) follows
  rw [current] at before
  unfold Accounts at accounts ⊢
  rw [sameSenders]
  have boxedIff := tracks.mem_boxedSenders_iff follows.created
  cases boxed : channel.boxed with
  | false =>
    -- the channel's payloads are no tokens, so neither side changes
    rw [boxed] at before changed boxedIff
    have unlisted : wordOf key .sender ∉ boxedSenders log := by simp [boxedIff]
    have same : (boxedSenders log).flatMap (waiting (log ++ [event])) =
        (boxedSenders log).flatMap (waiting log) := by
      apply List.flatMap_congr
      intro sender listed
      apply others sender listed
      rintro rfl
      exact unlisted listed
    rw [same]
    exact (changed.trans before.symm).trans accounts
  | true =>
    rw [boxed] at before changed boxedIff
    rcases flatMap_split tracks.boxedSenders_nodup (boxedIff.mpr rfl) (waiting log) with
      ⟨otherRest, split⟩
    have first := split (waiting log) fun _ _ _ => rfl
    have second := split (waiting (log ++ [event])) others
    have sameRest : rest.Perm otherRest :=
      (List.perm_append_left_iff _).mp (before.symm.trans (accounts.trans first))
    exact changed.trans ((sameRest.append_left _).trans second.symm)

theorem Accounts.silent (accounts : Accounts log table) (tracks : Tracks log table)
    (silent : Silent event) : Accounts (log ++ [event]) table := by
  have sameSenders : boxedSenders (log ++ [event]) = boxedSenders log := by
    unfold boxedSenders
    rw [silent.created_append]
  unfold Accounts at accounts ⊢
  rw [sameSenders]
  have same : (boxedSenders log).flatMap (waiting (log ++ [event])) =
      (boxedSenders log).flatMap (waiting log) := by
    apply List.flatMap_congr
    intro sender listed
    rcases tracks.named _ (mem_boxedSenders.mp listed) with ⟨key, -, rfl⟩
    exact waiting_of_same (silent.sameHistory log key)
  rw [same]
  exact accounts

/-- A new channel holds no tokens. -/
theorem Accounts.inserts (accounts : Accounts log table) (tracks : Tracks log table)
    (inRange : InRange key) (inserts : Table.Inserts lastGeneration maxChannels table
      ⟨[], true, true, first == boxedPayload⟩ key after) :
    Accounts (log ++ [⟨⟨.create, first, second, third⟩, .ok (wordOf key .sender)⟩]) after := by
  have untouched := tracks.unissued key inRange inserts.fresh
  have absent : table.find? key = none := by
    cases found : table.find? key with
    | none => rfl
    | some channel => exact absurd (tracks.sound.issued_of_find? found) inserts.fresh
  rcases inserts.rest tokensOf with ⟨rest, before, changed⟩
  rw [absent] at before
  have unchanged : (after.contents tokensOf).Perm (table.contents tokensOf) := by
    apply changed.trans
    simpa [tokensOf] using before.symm
  have others : ∀ sender ∈ boxedSenders log,
      waiting (log ++ [⟨⟨.create, first, second, third⟩, .ok (wordOf key .sender)⟩]) sender =
        waiting log sender := by
    intro sender listed
    have listedPair := mem_boxedSenders.mp listed
    rcases tracks.named _ listedPair with ⟨other, issued, rfl⟩
    have apart : other ≠ key := by
      rintro rfl
      exact untouched.created _ listedPair rfl
    exact waiting_of_same (sameHistory_of_not_concerns (not_concerns_created inRange
      (tracks.issuedInRange other issued) apart))
  have fresh := waiting_of_follows (untouched.follows_created first second third)
  unfold Accounts at accounts ⊢
  apply unchanged.trans
  apply accounts.trans
  have same : (boxedSenders log).flatMap (waiting log) = (boxedSenders log).flatMap
      (waiting (log ++ [⟨⟨.create, first, second, third⟩, .ok (wordOf key .sender)⟩])) := by
    apply List.flatMap_congr
    intro sender listed
    exact (others sender listed).symm
  rw [same]
  cases boxed : first == boxedPayload with
  | false => simp [boxedSenders, created_append, createdBy, boxed]
  | true =>
    rw [boxed] at fresh
    simp [boxedSenders, created_append, createdBy, boxed, fresh]

theorem Accounts.next (accounts : Accounts log table) (tracks : Tracks log table)
    (request : ChannelRequest) :
    Accounts (log ++ [⟨request, (serve table request).1⟩]) (serve table request).2 := by
  have performs := serve_performs tracks.sound request
  generalize (ChannelExecutor.serve table request).1 = answer at performs ⊢
  generalize (ChannelExecutor.serve table request).2 = next at performs ⊢
  cases performs with
  | refused request trap => exact accounts.silent tracks (silent_refused request trap)
  | created first second third inRange inserts => exact accounts.inserts tracks inRange inserts
  | sent value third found senderLive receiverLive updates =>
    apply accounts.updates tracks found updates rfl (by simp)
    · rintro _ ⟨⟩
      rfl
    · exact (tracks.follows _ _ found).sent value third 0 receiverLive
  | polled second third found receiverLive =>
    exact accounts.silent tracks (silent_polled _ _ _ _)
  | took second third found receiverLive waiting updates =>
    apply accounts.updates tracks found updates rfl (by simp)
    · rintro _ ⟨⟩
      rfl
    · exact (tracks.follows _ _ found).took second third receiverLive waiting
  | closedSender second third found senderLive updates =>
    apply accounts.updates tracks found updates rfl (by simp)
    · intro changed same
      unfold withoutSender at same
      split at same <;> cases same
      rfl
    · exact (tracks.follows _ _ found).closedSender second third 0
  | closedReceiver second third found receiverLive updates =>
    apply accounts.updates tracks found updates rfl (by simp)
    · intro changed same
      unfold withoutReceiver at same
      split at same <;> cases same
      rfl
    · exact (tracks.follows _ _ found).closedReceiver second third 0

theorem accounts_serveAll (requests : List ChannelRequest) :
    Accounts (serveAll requests).1 (serveAll requests).2 := by
  induction requests using List.reverseRecOn with
  | nil => exact List.Perm.refl _
  | append_singleton requests request ih =>
    rw [serveAll_append_one]
    exact ih.next (tracks_serveAll requests) request

/-! ## Every sequence of requests -/

def logAfter (requests : List ChannelRequest) : List ChannelEvent :=
  (serveAll requests).1

def tableAfter (requests : List ChannelRequest) : ChannelExecutor :=
  (serveAll requests).2

/-- The senders given out. -/
def senders (log : List ChannelEvent) : List Int64 :=
  (created log).map Prod.fst

theorem mem_senders_of_follows (follows : Follows log key channel) :
    wordOf key .sender ∈ senders log :=
  List.mem_map.mpr ⟨_, follows.created, rfl⟩

theorem Tracks.key_of_sender (tracks : Tracks log table) (listed : sender ∈ senders log) :
    ∃ key, table.Issued key ∧ InRange key ∧ sender = wordOf key .sender := by
  rcases List.mem_map.mp listed with ⟨pair, pairListed, rfl⟩
  rcases tracks.named pair pairListed with ⟨key, issued, same⟩
  exact ⟨key, issued, tracks.issuedInRange key issued, same⟩

theorem Tracks.taken_prefix (tracks : Tracks log table) (listed : sender ∈ senders log) :
    takenFrom (receiverOf sender) log <+: sentTo sender log := by
  rcases tracks.key_of_sender listed with ⟨key, issued, -, rfl⟩
  rw [receiverOf_wordOf]
  cases found : table.find? key with
  | some channel => exact (tracks.follows key channel found).taken
  | none => exact (tracks.finished key issued found).taken

theorem Tracks.names_end (tracks : Tracks log table)
    (answered : (serve table request).1 = .ok answer) (notCreate : request.prim ≠ .create) :
    ∃ sender ∈ senders log, request.first = sender ∨ request.first = receiverOf sender := by
  have performs := serve_performs tracks.sound request
  rw [answered] at performs
  generalize (serve table request).2 = next at performs
  cases performs with
  | created => exact absurd rfl notCreate
  | sent value third found => exact ⟨_, mem_senders_of_follows (tracks.follows _ _ found), Or.inl rfl⟩
  | polled second third found =>
    exact ⟨_, mem_senders_of_follows (tracks.follows _ _ found),
      Or.inr (receiverOf_wordOf _).symm⟩
  | took second third found =>
    exact ⟨_, mem_senders_of_follows (tracks.follows _ _ found),
      Or.inr (receiverOf_wordOf _).symm⟩
  | closedSender second third found =>
    exact ⟨_, mem_senders_of_follows (tracks.follows _ _ found), Or.inl rfl⟩
  | closedReceiver second third found =>
    exact ⟨_, mem_senders_of_follows (tracks.follows _ _ found),
      Or.inr (receiverOf_wordOf _).symm⟩

theorem pollAnswer_eq_two_iff (channel : Channel) :
    pollAnswer channel = 2 ↔ channel.queue = [] ∧ channel.senderLive = false := by
  rcases channel with ⟨queue, senderLive, receiverLive, boxed⟩
  unfold pollAnswer
  cases queue <;> cases senderLive <;> simp

theorem polled_channel (sound : SoundChannels table)
    (answered : (serve table ⟨.poll, first, second, third⟩).1 = .ok answer) :
    ∃ key channel, first = wordOf key .receiver ∧ table.find? key = some channel ∧
      channel.receiverLive = true ∧ answer = pollAnswer channel := by
  have performs := serve_performs sound ⟨.poll, first, second, third⟩
  rw [answered] at performs
  generalize (serve table ⟨.poll, first, second, third⟩).2 = next at performs
  cases performs with
  | polled second third found receiverLive => exact ⟨_, _, rfl, found, receiverLive, rfl⟩

theorem Tracks.poll_ends (tracks : Tracks log table) (listed : sender ∈ senders log)
    (answered : (serve table ⟨.poll, receiverOf sender, second, third⟩).1 = .ok answer) :
    answer = 2 ↔
      sender ∈ closedSenders log ∧ takenFrom (receiverOf sender) log = sentTo sender log := by
  rcases tracks.key_of_sender listed with ⟨key, -, inRange, rfl⟩
  rw [receiverOf_wordOf] at answered ⊢
  rcases polled_channel tracks.sound answered with ⟨other, channel, named, found, receiverLive, rfl⟩
  have otherInRange := tracks.issuedInRange other (tracks.sound.issued_of_find? found)
  rcases wordOf_injective inRange otherInRange named with ⟨rfl, -⟩
  have follows := tracks.follows key channel found
  rw [pollAnswer_eq_two_iff, follows.senderClosed, follows.queued receiverLive, and_comm]
  simp

theorem Tracks.others_unchanged (tracks : Tracks log table) (live : table.find? key ≠ none)
    (elsewhere : request.prim = .create ∨
      request.first ≠ wordOf key .sender ∧ request.first ≠ wordOf key .receiver) :
    (serve table request).2.find? key = table.find? key := by
  have performs := serve_performs tracks.sound request
  generalize (ChannelExecutor.serve table request).1 = answer at performs
  generalize (ChannelExecutor.serve table request).2 = next at performs ⊢
  cases performs with
  | refused => rfl
  | created first second third inRange inserts =>
    apply inserts.others
    rintro rfl
    cases found : table.find? key with
    | none => exact live found
    | some channel => exact inserts.fresh (tracks.sound.issued_of_find? found)
  | polled => rfl
  | sent value third found senderLive receiverLive updates =>
    apply updates.others
    rintro rfl
    simp at elsewhere
  | took second third found receiverLive waiting updates =>
    apply updates.others
    rintro rfl
    simp at elsewhere
  | closedSender second third found senderLive updates =>
    apply updates.others
    rintro rfl
    simp at elsewhere
  | closedReceiver second third found receiverLive updates =>
    apply updates.others
    rintro rfl
    simp at elsewhere

theorem Tracks.refused_unchanged (tracks : Tracks log table) {trap : ChannelTrap}
    (refused : (serve table request).1 = .error trap) : (serve table request).2 = table := by
  have performs := serve_performs tracks.sound request
  rw [refused] at performs
  generalize (ChannelExecutor.serve table request).2 = next at performs ⊢
  cases performs
  rfl

theorem Tracks.sent_split (tracks : Tracks log table) (listed : sender ∈ senders log) :
    sentTo sender log = takenFrom (receiverOf sender) log ++
      ((if receiverOf sender ∈ closedReceivers log then untaken sender log else []) ++
        waiting log sender) := by
  have whole : takenFrom (receiverOf sender) log ++ untaken sender log = sentTo sender log :=
    List.prefix_iff_eq_append.mp (tracks.taken_prefix listed)
  unfold waiting
  split
  · rw [List.append_nil, whole]
  · rw [List.nil_append, whole]

theorem Tracks.tokens_balance (tracks : Tracks log table) (accounts : Accounts log table) :
    (sentTokens log).Perm
      (takenTokens log ++ (droppedTokens log ++ (takeUndeliveredTokens table).1)) := by
  rw [takeUndeliveredTokens_eq]
  have split : sentTokens log = (boxedSenders log).flatMap fun sender =>
      takenFrom (receiverOf sender) log ++
        ((if receiverOf sender ∈ closedReceivers log then untaken sender log else []) ++
          waiting log sender) := by
    apply List.flatMap_congr
    intro sender listed
    apply tracks.sent_split
    exact List.mem_map.mpr ⟨_, mem_boxedSenders.mp listed, rfl⟩
  rw [split]
  refine (List.flatMap_append_perm _ _ _).symm.trans ?_
  apply List.Perm.append_left
  refine (List.flatMap_append_perm _ _ _).symm.trans ?_
  exact accounts.symm.append_left _

/-- For every sequence of requests, on any words: a sender is given out once and
every successful request names an end that was given out; what was taken is a
prefix of what was sent; a poll finds the end of the stream exactly when the
sender is closed and everything was taken; a request changes no other channel,
and a refused one changes nothing; and every token sent was taken, was dropped
with its receiver, or is handed back when the table is emptied. -/
theorem channel_requests_keep_order (requests : List ChannelRequest) :
    (senders (logAfter requests)).Nodup ∧
    (∀ request answer, (serve (tableAfter requests) request).1 = .ok answer →
      request.prim ≠ .create → ∃ sender ∈ senders (logAfter requests),
        request.first = sender ∨ request.first = receiverOf sender) ∧
    (∀ sender ∈ senders (logAfter requests),
      takenFrom (receiverOf sender) (logAfter requests) <+:
        sentTo sender (logAfter requests)) ∧
    (∀ sender ∈ senders (logAfter requests), ∀ second third answer,
      (serve (tableAfter requests) ⟨.poll, receiverOf sender, second, third⟩).1 = .ok answer →
      (answer = 2 ↔ sender ∈ closedSenders (logAfter requests) ∧
        takenFrom (receiverOf sender) (logAfter requests) =
          sentTo sender (logAfter requests))) ∧
    (∀ request key, (tableAfter requests).find? key ≠ none →
      (request.prim = .create ∨
        request.first ≠ wordOf key .sender ∧ request.first ≠ wordOf key .receiver) →
      (serve (tableAfter requests) request).2.find? key = (tableAfter requests).find? key) ∧
    (∀ request trap, (serve (tableAfter requests) request).1 = .error trap →
      (serve (tableAfter requests) request).2 = tableAfter requests) ∧
    (sentTokens (logAfter requests)).Perm
      (takenTokens (logAfter requests) ++ (droppedTokens (logAfter requests) ++
        (takeUndeliveredTokens (tableAfter requests)).1)) ∧
    (takeUndeliveredTokens (takeUndeliveredTokens (tableAfter requests)).2).1 = [] := by
  have tracks := tracks_serveAll requests
  have accounts := accounts_serveAll requests
  refine ⟨tracks.once, ?_, ?_, ?_, ?_, ?_, tracks.tokens_balance accounts, rfl⟩
  · intro request answer answered notCreate
    exact tracks.names_end answered notCreate
  · intro sender listed
    exact tracks.taken_prefix listed
  · intro sender listed second third answer answered
    exact tracks.poll_ends listed answered
  · intro request key live elsewhere
    exact tracks.others_unchanged live elsewhere
  · intro request trap refused
    exact tracks.refused_unchanged refused

/-- A token that waits when its receiver is closed is neither taken nor handed
back. -/
theorem waiting_token_goes_with_receiver :
    ¬ ∀ requests : List ChannelRequest,
      (sentTokens (logAfter requests)).Perm
        (takenTokens (logAfter requests) ++
          (takeUndeliveredTokens (tableAfter requests)).1) := by
  intro balanced
  have lost := (balanced [⟨.create, 1, 0, 0⟩, ⟨.send, 1, 7, 0⟩, ⟨.closeReceiver, 2, 0, 0⟩]).length_eq
  revert lost
  decide

end ChannelExecutor

end KiraVm
