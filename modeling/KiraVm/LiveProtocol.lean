import KiraVm.ShortFields
import KiraVm.ModuleTables

/-!
# The live protocol

What a server and a runner say to each other: a tagged body behind a 32-bit length.  The
functions are those of `protocol.rs` and `protocol/frame.rs`, over a stream that holds
the bytes that arrive before the peer leaves; a socket that fails otherwise is not
modelled.
-/

namespace KiraVm

namespace KiraLive

open ByteReader Reader

/-! ## What messages are made of -/

inductive RunnerId
  | desktop | macos | ios | tvos | visionos | windows | android | web | linux
  deriving DecidableEq, Repr

def RunnerId.index : RunnerId → Nat
  | .desktop => 0
  | .macos => 1
  | .ios => 2
  | .tvos => 3
  | .visionos => 4
  | .windows => 5
  | .android => 6
  | .web => 7
  | .linux => 8

/-- Every runner, in index order. -/
def RunnerId.all : List RunnerId :=
  [.desktop, .macos, .ios, .tvos, .visionos, .windows, .android, .web, .linux]

inductive SessionPhase
  | connected | bundleSent | bundleReceived | bundleLoaded | bundleLinked | entrypointStarted
  | framePresented
  deriving DecidableEq, Repr

def SessionPhase.asByte : SessionPhase → UInt8
  | .connected => 0
  | .bundleSent => 1
  | .bundleReceived => 2
  | .bundleLoaded => 3
  | .bundleLinked => 4
  | .entrypointStarted => 5
  | .framePresented => 6

def SessionPhase.fromByte : UInt8 → Option SessionPhase
  | 0 => some .connected
  | 1 => some .bundleSent
  | 2 => some .bundleReceived
  | 3 => some .bundleLoaded
  | 4 => some .bundleLinked
  | 5 => some .entrypointStarted
  | 6 => some .framePresented
  | _ => none

inductive ReloadMode
  | hotPatch | relaunch
  deriving DecidableEq, Repr

def ReloadMode.asByte : ReloadMode → UInt8
  | .hotPatch => 0
  | .relaunch => 1

def ReloadMode.fromByte : UInt8 → Option ReloadMode
  | 0 => some .hotPatch
  | 1 => some .relaunch
  | _ => none

/-- A message from a runner to the server. -/
inductive ClientMessage
  | hello (protocol : UInt16) (runner : RunnerId)
  | requestBundle
  | requestPayload (name : String)
  | progress (phase : SessionPhase)
  | failed (reason : String)
  | goodbye
  | reloadStaged
  | reloadApplied
  | reloadCompleted
  | reloadRejected (reason : String)
  | restartRequired (reason : String)
  | appExited (reason : Option String)
  deriving DecidableEq, Repr

/-- A message from the server to a runner. -/
inductive ServerMessage
  | welcome (protocol : UInt16)
  | manifest (bytes : List UInt8)
  | payload (name : String) (bytes : List UInt8)
  | noSuchPayload (name : String)
  | shutdown
  | reload (mode : ReloadMode) (manifest : List UInt8)
  deriving DecidableEq, Repr

inductive ProtocolError
  | disconnected
  | truncated
  | frameTooLarge (len : UInt32)
  | unknownTag (tag : UInt8)
  | invalidString
  | badMagic
  | unknownRunner (byte : UInt8)
  | unknownPhase (byte : UInt8)
  | unknownReloadMode (byte : UInt8)
  | versionMismatch (theirs ours : UInt16)
  deriving DecidableEq, Repr

/-- The bytes of `KLP1`. -/
def magic : List UInt8 := [75, 76, 80, 49]

def protocolVersion : UInt16 := 1

/-! ## Bodies -/

abbrev BodyReader : Type → Type := Reader ProtocolError

def takeByte : BodyReader UInt8 :=
  byte fun _ => .truncated

def readLenPrefixed : BodyReader (List UInt8) :=
  Reader.shortBytes fun _ => .truncated

def readString : BodyReader String := do
  let bytes ← readLenPrefixed
  okOr (String.fromUTF8? ⟨bytes.toArray⟩) .invalidString

def writeString (text : String) : List UInt8 :=
  ByteReader.shortBytes (textBytes text)

def ClientMessage.encode : ClientMessage → List UInt8
  | .hello protocol runner =>
    0 :: (magic ++ (u16Bytes protocol ++ [UInt8.ofNat runner.index]))
  | .requestBundle => [1]
  | .requestPayload name => 2 :: writeString name
  | .progress phase => [3, phase.asByte]
  | .failed reason => 4 :: writeString reason
  | .goodbye => [5]
  | .reloadStaged => [6]
  | .reloadApplied => [7]
  | .reloadCompleted => [8]
  | .reloadRejected reason => 9 :: writeString reason
  | .restartRequired reason => 10 :: writeString reason
  | .appExited reason =>
    11 :: (if reason.isSome then 1 else 0) :: writeString (reason.getD "")

def readClient : BodyReader ClientMessage := do
  let tag ← takeByte
  match tag with
  | 0 =>
    let opening ← take (fun _ => .truncated) 4
    if opening ≠ magic then fail .badMagic
    else
      let protocol ← u16 fun _ => .truncated
      let raw ← takeByte
      let runner ← okOr RunnerId.all[raw.toNat]? (.unknownRunner raw)
      pure (.hello protocol runner)
  | 1 => pure .requestBundle
  | 2 =>
    let name ← readString
    pure (.requestPayload name)
  | 3 =>
    let raw ← takeByte
    let phase ← okOr (SessionPhase.fromByte raw) (.unknownPhase raw)
    pure (.progress phase)
  | 4 =>
    let reason ← readString
    pure (.failed reason)
  | 5 => pure .goodbye
  | 6 => pure .reloadStaged
  | 7 => pure .reloadApplied
  | 8 => pure .reloadCompleted
  | 9 =>
    let reason ← readString
    pure (.reloadRejected reason)
  | 10 =>
    let reason ← readString
    pure (.restartRequired reason)
  | 11 =>
    let flag ← takeByte
    let reason ← readString
    pure (.appExited (if flag ≠ 0 then some reason else none))
  | other => fail (.unknownTag other)

def ServerMessage.encode : ServerMessage → List UInt8
  | .welcome protocol => 0 :: u16Bytes protocol
  | .manifest bytes => 1 :: ByteReader.shortBytes bytes
  | .payload name bytes => 2 :: (writeString name ++ ByteReader.shortBytes bytes)
  | .noSuchPayload name => 3 :: writeString name
  | .shutdown => [4]
  | .reload mode bytes => 5 :: mode.asByte :: ByteReader.shortBytes bytes

def readServer : BodyReader ServerMessage := do
  let tag ← takeByte
  match tag with
  | 0 =>
    let protocol ← u16 fun _ => .truncated
    pure (.welcome protocol)
  | 1 =>
    let bytes ← readLenPrefixed
    pure (.manifest bytes)
  | 2 =>
    let name ← readString
    let bytes ← readLenPrefixed
    pure (.payload name bytes)
  | 3 =>
    let name ← readString
    pure (.noSuchPayload name)
  | 4 => pure .shutdown
  | 5 =>
    let raw ← takeByte
    let mode ← okOr (ReloadMode.fromByte raw) (.unknownReloadMode raw)
    let bytes ← readLenPrefixed
    pure (.reload mode bytes)
  | other => fail (.unknownTag other)

/-- A message that can go on the wire.  Bytes behind the body's last field are not
looked at. -/
class Message (M : Type) where
  encode : M → List UInt8
  decode : List UInt8 → Except ProtocolError M

instance : Message ClientMessage where
  encode := ClientMessage.encode
  decode body := Prod.fst <$> readClient ⟨0, body⟩

instance : Message ServerMessage where
  encode := ServerMessage.encode
  decode body := Prod.fst <$> readServer ⟨0, body⟩

/-! ## Frames -/

def maxFrameLen : Nat := 512 * 1024 * 1024

section Frames

variable {M : Type} [Message M]

/-- The bytes of one frame. -/
def writeMessage (message : M) : Except ProtocolError (List UInt8) :=
  let body := Message.encode message
  if body.length < 2 ^ 32 then
    let len := UInt32.ofNat body.length
    if len.toNat > maxFrameLen then .error (.frameTooLarge len)
    else .ok (u32Bytes len ++ body)
  else .error (.frameTooLarge (UInt32.ofNat (2 ^ 32 - 1)))

def readMessage (stream : List UInt8) : Except ProtocolError (M × List UInt8) :=
  if stream.length < 4 then .error .disconnected
  else
    let len := leValue (stream.take 4)
    if len > maxFrameLen then .error (.frameTooLarge (UInt32.ofNat len))
    else
      let rest := stream.drop 4
      if rest.length < len then .error .truncated
      else
        match Message.decode (rest.take len) with
        | .error error => .error error
        | .ok message => .ok (message, rest.drop len)

theorem readMessage_shorter {stream rest : List UInt8} {message : M}
    (read : readMessage stream = .ok (message, rest)) : rest.length < stream.length := by
  unfold readMessage at read
  split at read
  · cases read
  · dsimp only at read
    split at read
    · cases read
    · split at read
      · cases read
      · split at read
        · cases read
        · cases read
          simp only [List.length_drop]
          omega

def writeMessages : List M → Except ProtocolError (List UInt8)
  | [] => .ok []
  | message :: messages => do
    let frame ← writeMessage message
    let frames ← writeMessages messages
    .ok (frame ++ frames)

/-- Read messages until one fails, and say why it does. -/
def readMessages (stream : List UInt8) : List M × ProtocolError :=
  match _shorter : (readMessage stream : Except ProtocolError (M × List UInt8)) with
  | .error error => ([], error)
  | .ok (message, rest) =>
    let others := readMessages rest
    (message :: others.1, others.2)
termination_by stream.length
decreasing_by exact readMessage_shorter _shorter

end Frames

end KiraLive

end KiraVm
