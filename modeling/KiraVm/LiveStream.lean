import KiraVm.LiveProtocol
import KiraVm.SectionReader

/-!
# Streams of live messages

A frame carries its own length, so a stream of frames reads back one message at a time,
and a stream that is cut ends in the middle of a frame or before one.
-/

namespace KiraVm

namespace KiraLive

open ByteReader Reader

/-! ## Bodies -/

theorem readString_codes :
    Codes readString (fun text => (textBytes text).length < 2 ^ 32) writeString := by
  intro cursor text after
  simp only [readString, bind_ok_iff, okOr_ok_iff, readLenPrefixed, shortBytes_codes _ _ _,
    fromUTF8_eq_some_iff, writeString]
  constructor
  · rintro ⟨_, _, ⟨fits, spans⟩, rfl, rfl⟩
    exact ⟨fits, spans⟩
  · rintro ⟨fits, spans⟩
    exact ⟨_, _, ⟨fits, spans⟩, rfl, rfl⟩

variable {body : List UInt8}

theorem field_fits {field : List UInt8} (part : field.length ≤ body.length)
    (fits : body.length ≤ maxFrameLen) : field.length < 2 ^ 32 := by
  have small : maxFrameLen < 2 ^ 32 := by decide
  omega

/-- A message that fits a frame is what is read from its body. -/
def Recovered (M : Type) [Message M] : Prop :=
  ∀ message : M, (Message.encode message).length ≤ maxFrameLen →
    Message.decode (Message.encode message) = .ok message

theorem string_fits {text : String} {before : Nat}
    (part : body.length = before + (writeString text).length) (fits : body.length ≤ maxFrameLen) :
    (textBytes text).length < 2 ^ 32 := by
  have length : (writeString text).length = 4 + (textBytes text).length := shortBytes_length _
  apply field_fits _ fits
  omega

theorem read_last {M α : Type} {read : BodyReader α} {fits : α → Prop} {write : α → List UInt8}
    (codes : Codes read fits write) {make : α → M} {value : α} (valueFits : fits value)
    (offset : Nat) :
    ∃ after, (do let value ← read; pure (make value) : BodyReader M) ⟨offset, write value⟩ =
      .ok (make value, after) :=
  ⟨_, bind_of_ok (codes.recovers.last valueFits offset)⟩

theorem read_string {M : Type} {make : String → M} {text : String} {body : List UInt8}
    {before : Nat} (part : body.length = before + (writeString text).length)
    (fits : body.length ≤ maxFrameLen) (offset : Nat) :
    ∃ after, (do let text ← readString; pure (make text) : BodyReader M)
      ⟨offset, writeString text⟩ = .ok (make text, after) :=
  read_last readString_codes (string_fits part fits) offset

theorem bytes_fit {bytes : List UInt8} {before : Nat}
    (part : body.length = before + (ByteReader.shortBytes bytes).length)
    (fits : body.length ≤ maxFrameLen) : bytes.length < 2 ^ 32 := by
  rw [shortBytes_length] at part
  apply field_fits _ fits
  omega

theorem client_recovered : Recovered ClientMessage := by
  intro message fits
  have start : ∃ after, readClient ⟨0, message.encode⟩ = .ok (message, after) := by
    cases message with
    | hello protocol runner =>
      have version : u16 (fun _ => ProtocolError.truncated)
          ⟨5, u16Bytes protocol ++ [UInt8.ofNat runner.index]⟩ =
            .ok (protocol, ⟨7, [UInt8.ofNat runner.index]⟩) :=
        u16_codes.recovers.ahead trivial 5 _
      have answer : readClient ⟨0, (ClientMessage.hello protocol runner).encode⟩ =
          (do
            let protocol ← u16 fun _ => .truncated
            let raw ← takeByte
            let runner ← okOr RunnerId.all[raw.toNat]? (.unknownRunner raw)
            pure (.hello protocol runner) : BodyReader ClientMessage)
          ⟨5, u16Bytes protocol ++ [UInt8.ofNat runner.index]⟩ := rfl
      rw [answer, bind_of_ok version]
      refine ⟨⟨8, []⟩, ?_⟩
      cases runner <;> rfl
    | requestBundle => exact ⟨_, rfl⟩
    | requestPayload name => exact read_string (Nat.add_comm _ 1) fits 1
    | progress phase =>
      refine ⟨⟨2, []⟩, ?_⟩
      cases phase <;> rfl
    | failed reason => exact read_string (Nat.add_comm _ 1) fits 1
    | goodbye => exact ⟨_, rfl⟩
    | reloadStaged => exact ⟨_, rfl⟩
    | reloadApplied => exact ⟨_, rfl⟩
    | reloadCompleted => exact ⟨_, rfl⟩
    | reloadRejected reason => exact read_string (Nat.add_comm _ 1) fits 1
    | restartRequired reason => exact read_string (Nat.add_comm _ 1) fits 1
    | appExited reason =>
      cases reason with
      | none =>
        exact @read_string ClientMessage (fun _ => .appExited none) "" _ _ (Nat.add_comm _ 2) fits 2
      | some reason =>
        exact read_string (Nat.add_comm _ 2) fits 2
  rcases start with ⟨after, read⟩
  change Prod.fst <$> readClient ⟨0, message.encode⟩ = _
  rw [read]
  rfl

theorem server_recovered : Recovered ServerMessage := by
  intro message fits
  have start : ∃ after, readServer ⟨0, message.encode⟩ = .ok (message, after) := by
    cases message with
    | welcome protocol =>
      exact read_last (@u16_codes ProtocolError fun _ => .truncated) trivial 1
    | manifest bytes => exact read_last shortBytes_codes (bytes_fit (Nat.add_comm _ 1) fits) 1
    | payload name bytes =>
      have length : (ServerMessage.payload name bytes).encode.length =
          1 + (writeString name).length + (ByteReader.shortBytes bytes).length := by
        simp only [ServerMessage.encode, List.length_cons, List.length_append]
        omega
      have named := readString_codes.recovers.ahead
        (string_fits (length.trans (Nat.add_right_comm _ _ _)) fits) 1 (ByteReader.shortBytes bytes)
      have answer : readServer ⟨0, (ServerMessage.payload name bytes).encode⟩ =
          (do
            let name ← readString
            let bytes ← readLenPrefixed
            pure (.payload name bytes) : BodyReader ServerMessage)
          ⟨1, writeString name ++ ByteReader.shortBytes bytes⟩ := rfl
      rw [answer, bind_of_ok named]
      exact read_last shortBytes_codes (bytes_fit length fits) _
    | noSuchPayload name => exact read_string (Nat.add_comm _ 1) fits 1
    | shutdown => exact ⟨_, rfl⟩
    | reload mode bytes =>
      have small : bytes.length < 2 ^ 32 := bytes_fit (Nat.add_comm _ 2) fits
      cases mode with
      | hotPatch =>
        exact @read_last ServerMessage _ _ _ _ shortBytes_codes (.reload .hotPatch) _ small 2
      | relaunch =>
        exact @read_last ServerMessage _ _ _ _ shortBytes_codes (.reload .relaunch) _ small 2
  rcases start with ⟨after, read⟩
  change Prod.fst <$> readServer ⟨0, message.encode⟩ = _
  rw [read]
  rfl

/-! ## Frames -/

section Frames

variable {M : Type} [Message M]

/-- The bytes of a frame whose body fits. -/
def frame (message : M) : List UInt8 :=
  u32Bytes (UInt32.ofNat (Message.encode message).length) ++ Message.encode message

def Fits (message : M) : Prop :=
  (Message.encode message).length ≤ maxFrameLen

variable {message : M} {messages : List M}

theorem announced (fits : Fits message) :
    (UInt32.ofNat (Message.encode message).length).toNat = (Message.encode message).length :=
  toNat_ofNat_of_short (field_fits (Nat.le_refl _) fits)

theorem writeMessage_fits (fits : Fits message) : writeMessage message = .ok (frame message) := by
  unfold writeMessage
  dsimp only
  rw [if_pos (field_fits (Nat.le_refl _) fits), announced fits, if_neg (Nat.not_lt.mpr fits)]
  rfl

theorem writeMessages_fits (fits : ∀ message ∈ messages, Fits message) :
    writeMessages messages = .ok (messages.flatMap frame) := by
  induction messages with
  | nil => rfl
  | cons message messages ih =>
    have first := writeMessage_fits (fits message List.mem_cons_self)
    have rest := ih fun other listed => fits other (List.mem_cons_of_mem _ listed)
    rw [writeMessages, first, rest]
    rfl

theorem frame_head (fits : Fits message) (rest : List UInt8) :
    leValue ((u32Bytes (UInt32.ofNat (Message.encode message).length) ++ rest).take 4) =
      (Message.encode message).length := by
  rw [List.take_left' (u32Bytes_length _), u32Bytes, announced fits]
  apply leValue_leBytes
  have small := field_fits (Nat.le_refl _) fits
  omega

theorem readMessage_frame (recovered : Recovered M) (fits : Fits message) (rest : List UInt8) :
    readMessage (frame message ++ rest) = .ok (message, rest) := by
  have length : (frame message ++ rest).length =
      4 + (Message.encode message).length + rest.length := by
    simp [frame, Nat.add_assoc]
  have behind : (frame message ++ rest).drop 4 = Message.encode message ++ rest := by
    rw [frame, List.append_assoc, List.drop_left' (u32Bytes_length _)]
  have head : leValue ((frame message ++ rest).take 4) = (Message.encode message).length := by
    rw [frame, List.append_assoc]
    exact frame_head fits _
  unfold readMessage
  rw [if_neg (by omega)]
  simp only [head, behind]
  rw [if_neg (Nat.not_lt.mpr fits), if_neg (by simp), List.take_left, List.drop_left,
    recovered message fits]

theorem readMessage_cut (fits : Fits message) {part cut : List UInt8}
    (whole : frame message = part ++ cut) (nonempty : cut ≠ []) :
    readMessage (M := M) part = .error .disconnected ∨
      readMessage (M := M) part = .error .truncated := by
  by_cases short : part.length < 4
  · left
    rw [readMessage, if_pos short]
  · right
    have long : 4 ≤ part.length := Nat.not_lt.mp short
    have head : leValue (part.take 4) = (Message.encode message).length := by
      have same : (frame message).take 4 = part.take 4 := by
        rw [whole, List.take_append_of_le_length long]
      rw [← same, frame]
      exact frame_head fits _
    have total : 4 + (Message.encode message).length = part.length + cut.length := by
      have lengths := congrArg List.length whole
      simpa [frame] using lengths
    have missing := List.length_pos_iff.mpr nonempty
    unfold readMessage
    rw [if_neg short]
    simp only [head]
    rw [if_neg (Nat.not_lt.mpr fits), if_pos]
    rw [List.length_drop]
    omega

/-! ## Streams -/

theorem readMessages_error {stream : List UInt8} {error : ProtocolError}
    (failed : readMessage (M := M) stream = .error error) :
    readMessages (M := M) stream = ([], error) := by
  rw [readMessages]
  split
  · rename_i other same
    rw [failed] at same
    cases same
    rfl
  · rename_i same
    rw [failed] at same
    cases same

theorem readMessages_frame (recovered : Recovered M) (fits : Fits message) (rest : List UInt8) :
    readMessages (frame message ++ rest) =
      (message :: (readMessages rest).1, (readMessages (M := M) rest).2) := by
  have read := readMessage_frame recovered fits rest
  rw [readMessages]
  split
  · rename_i same
    rw [read] at same
    cases same
  · rename_i same
    rw [read] at same
    cases same
    rfl

/-- What is read from a stream of frames is what was written, and then the peer is gone;
from a stream that is cut, the messages of the frames that are whole. -/
def ReadsBack (M : Type) [Message M] : Prop :=
  ∀ messages : List M, (∀ message ∈ messages, Fits message) →
    ∃ stream, writeMessages messages = .ok stream ∧
      readMessages stream = (messages, .disconnected) ∧
      ∀ part cut : List UInt8, stream = part ++ cut → cut ≠ [] →
        ∃ kept error, kept < messages.length ∧ readMessages part = (messages.take kept, error) ∧
          (error = .disconnected ∨ error = .truncated)

theorem readMessages_whole (recovered : Recovered M) (fits : ∀ message ∈ messages, Fits message) :
    readMessages (messages.flatMap frame) = (messages, .disconnected) := by
  induction messages with
  | nil => exact readMessages_error rfl
  | cons message messages ih =>
    rw [List.flatMap_cons, readMessages_frame recovered (fits message List.mem_cons_self),
      ih fun other listed => fits other (List.mem_cons_of_mem _ listed)]

theorem readMessages_cut (recovered : Recovered M) (fits : ∀ message ∈ messages, Fits message)
    {part cut : List UInt8} (whole : messages.flatMap frame = part ++ cut) (nonempty : cut ≠ []) :
    ∃ kept error, kept < messages.length ∧ readMessages part = (messages.take kept, error) ∧
      (error = .disconnected ∨ error = .truncated) := by
  induction messages generalizing part with
  | nil => exact absurd (List.append_eq_nil_iff.mp whole.symm).2 nonempty
  | cons message messages ih =>
    have here := fits message List.mem_cons_self
    rw [List.flatMap_cons] at whole
    rcases split_cases whole with ⟨between, same, rest⟩ | ⟨between, missing, same⟩
    · -- The first frame is whole, and the cut is behind it.
      rcases ih (fun other listed => fits other (List.mem_cons_of_mem _ listed)) rest with
        ⟨kept, error, bound, read, ending⟩
      refine ⟨kept + 1, error, Nat.succ_lt_succ bound, ?_, ending⟩
      rw [same, readMessages_frame recovered here, read]
      rfl
    · rcases readMessage_cut here same missing with failed | failed
      · exact ⟨0, _, Nat.succ_pos _, readMessages_error failed, Or.inl rfl⟩
      · exact ⟨0, _, Nat.succ_pos _, readMessages_error failed, Or.inr rfl⟩

theorem reads_back (recovered : Recovered M) : ReadsBack M := by
  intro messages fits
  refine ⟨messages.flatMap frame, writeMessages_fits fits, readMessages_whole recovered fits, ?_⟩
  intro part cut whole nonempty
  exact readMessages_cut recovered fits whole nonempty

end Frames

/-- Neither direction of the protocol loses, adds or changes a message. -/
theorem streams_read_back : ReadsBack ClientMessage ∧ ReadsBack ServerMessage :=
  ⟨reads_back client_recovered, reads_back server_recovered⟩

end KiraLive

end KiraVm
