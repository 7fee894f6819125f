import KiraVm.LiveBundle

/-!
# Live sessions

The server's half of the conversation with one runner, from the runner's greeting on.  The
functions are those of `progress.rs` and `session.rs`.  A step takes one message that was
read, one failure to read, or one call of the session's owner; the transcript keeps what
was heard, written and reported.  How a reload is decided is a parameter, and the reason to
relaunch is its text.
-/

namespace KiraVm

namespace KiraLive

/-! ## Progress -/

def RunnerId.label : RunnerId → String
  | .desktop => "desktop"
  | .macos => "macos"
  | .ios => "ios"
  | .tvos => "tvos"
  | .visionos => "visionos"
  | .windows => "windows"
  | .android => "android"
  | .web => "web"
  | .linux => "linux"

namespace SessionPhase

/-- The phase that must precede this one. -/
def predecessor : SessionPhase → Option SessionPhase
  | connected => none
  | bundleSent => some connected
  | bundleReceived => some bundleSent
  | bundleLoaded => some bundleReceived
  | bundleLinked => some bundleLoaded
  | entrypointStarted => some bundleLinked
  | framePresented => some entrypointStarted

def label : SessionPhase → String
  | connected => "connected"
  | bundleSent => "bundle sent"
  | bundleReceived => "bundle received"
  | bundleLoaded => "bundle loaded"
  | bundleLinked => "bundle linked"
  | entrypointStarted => "entrypoint started"
  | framePresented => "frame presented"

def reportedByRunner : SessionPhase → Bool
  | connected | bundleSent => false
  | bundleReceived | bundleLoaded | bundleLinked | entrypointStarted | framePresented => true

end SessionPhase

inductive ProgressError
  | outOfOrder (reached missing : String)
  | notReached (reached missing : String)
  | neverStarted
  deriving DecidableEq, Repr

/-- The furthest milestone a session has reached. -/
structure SessionProgress where
  reached : Option SessionPhase
  deriving DecidableEq, Repr

namespace SessionProgress

/-- How far along the ladder this is; the phases are in the order of their bytes. -/
def rank (progress : SessionProgress) : Nat :=
  match progress.reached with
  | none => 0
  | some phase => phase.asByte.toNat + 1

/-- Record a milestone, unless it came before the one it depends on. -/
def reach (progress : SessionProgress) (phase : SessionPhase) :
    Except ProgressError SessionProgress :=
  let advanced : SessionProgress :=
    if progress.rank < rank ⟨some phase⟩ then ⟨some phase⟩ else progress
  match phase.predecessor with
  | some required =>
    if progress.rank < rank ⟨some required⟩ then
      .error (.outOfOrder phase.label required.label)
    else .ok advanced
  | none => .ok advanced

def hasReached (progress : SessionProgress) (phase : SessionPhase) : Bool :=
  rank ⟨some phase⟩ ≤ progress.rank

end SessionProgress

/-- The last milestone a session needs. -/
def requiredPhase (headless : Bool) : SessionPhase :=
  if headless then .entrypointStarted else .framePresented

def SessionProgress.ready (progress : SessionProgress) (headless : Bool) :
    Except ProgressError Unit :=
  if progress.hasReached (requiredPhase headless) then .ok ()
  else
    match progress.reached with
    | none => .error .neverStarted
    | some reached => .error (.notReached reached.label (requiredPhase headless).label)

/-! ## The session -/

inductive ServerError
  | protocol (error : ProtocolError)
  | noHello
  | versionMismatch (theirs ours : UInt16)
  | runnerMismatch (expected actual : String)
  | progress (error : ProgressError)
  | notRunnerMilestone (label : String)
  | unexpectedReloadReport (label : String)
  | runnerFailed (reason : String)
  | incomplete (error : ProgressError)
  deriving DecidableEq, Repr

inductive LiveEvent
  | clientConnected (peer : String)
  | bundleRequested
  | bundleSent (bytes : Nat)
  | bundleReceived (payloads : Nat)
  | bundleLoaded
  | bundleLinked
  | entrypointStarted
  | framePresented
  | sessionReady
  | appExited (reason : Option String)
  | reloadNotified (mode : ReloadMode) (reason : Option String)
  | reloadStaged
  | reloadApplied
  | reloadCompleted (mode : ReloadMode)
  | reloadRejected (reason : String)
  | restartRequired (reason : String)
  deriving DecidableEq, Repr

/-- What a rebuilt bundle calls for. -/
inductive ReloadDecision
  | unchanged
  | hotPatch
  | relaunch (reason : String)
  deriving DecidableEq, Repr

/-- One line of the transcript. -/
inductive Entry
  | heard (message : ClientMessage)
  | wrote (message : ServerMessage)
  | event (event : LiveEvent)
  deriving DecidableEq, Repr

/-- Which loop of the session reads the next message. -/
inductive Stage
  | greeting
  | starting
  | ready
  | patching
  | failed (error : ServerError)
  deriving DecidableEq, Repr

structure LiveSession where
  stage : Stage
  bundle : Bundle
  progress : SessionProgress
  headless : Bool
  peer : String
  appExited : Bool
  transcript : List Entry
  deriving DecidableEq

/-- Why a write to the runner fails, if it does. -/
abbrev Link : Type := ServerMessage → Option ProtocolError

inductive Input
  | message (message : ClientMessage)
  | readFailed (error : ProtocolError)
  | reload (rebuilt : Bundle) (hotpatchDisabled : Bool)
  | shutdown
  deriving DecidableEq

structure Arrival where
  input : Input
  link : Link

abbrev SessionM : Type → Type := EStateM ServerError LiveSession

def tell (entry : Entry) : SessionM Unit :=
  modify fun session => { session with transcript := session.transcript ++ [entry] }

def onEvent (event : LiveEvent) : SessionM Unit :=
  tell (.event event)

/-- Write a message whose body fits a frame. -/
def write (link : Link) (message : ServerMessage) : SessionM Unit :=
  match writeMessage message with
  | .error error => throw (.protocol error)
  | .ok _ =>
    match link message with
    | some error => throw (.protocol error)
    | none => tell (.wrote message)

def reach (phase : SessionPhase) : SessionM Unit := do
  let session ← get
  match session.progress.reach phase with
  | .error error => throw (.progress error)
  | .ok progress => set { session with progress := progress }

def reportName : ClientMessage → String
  | .reloadStaged => "reload staged"
  | .reloadApplied => "reload applied"
  | .reloadCompleted => "reload completed"
  | .reloadRejected _ => "reload rejected"
  | .restartRequired _ => "restart required"
  | .hello _ _ => "hello"
  | .requestBundle => "request bundle"
  | .requestPayload _ => "request payload"
  | .progress _ => "progress"
  | .failed _ => "failed"
  | .goodbye => "goodbye"
  | .appExited _ => "app exited"

def milestoneEvent (phase : SessionPhase) (bundle : Bundle) : Option LiveEvent :=
  match phase with
  | .bundleReceived => some (.bundleReceived bundle.manifest.payloads.length)
  | .bundleLoaded => some .bundleLoaded
  | .bundleLinked => some .bundleLinked
  | .entrypointStarted => some .entrypointStarted
  | .framePresented => some .framePresented
  | .connected | .bundleSent => none

section Link

variable (link : Link)

def sendManifest : SessionM Unit := do
  let session ← get
  write link (.manifest session.bundle.manifest.toBytes)

def sendPayload (name : String) : SessionM Unit := do
  let session ← get
  match session.bundle.payloadByName name with
  | some bytes =>
    write link (.payload name bytes)
    reach .bundleSent
    onEvent (.bundleSent bytes.length)
  | none => write link (.noSuchPayload name)

/-- Record a milestone the runner reported. -/
def record (phase : SessionPhase) : SessionM Unit := do
  if !phase.reportedByRunner then throw (.notRunnerMilestone phase.label)
  else
    reach phase
    let session ← get
    match milestoneEvent phase session.bundle with
    | some event => onEvent event
    | none => pure ()

/-- The greeting: a runner for this bundle that speaks this protocol. -/
def handshake (hello : ClientMessage) : SessionM Unit :=
  match hello with
  | .hello protocol runner => do
    let session ← get
    if protocol ≠ protocolVersion then throw (.versionMismatch protocol protocolVersion)
    else if runner ≠ session.bundle.manifest.runner then
      throw (.runnerMismatch session.bundle.manifest.runner.label runner.label)
    else write link (.welcome protocolVersion)
  | _ => throw .noHello

def start (hello : ClientMessage) : SessionM Stage := do
  tell (.heard hello)
  handshake link hello
  let session ← get
  onEvent (.clientConnected session.peer)
  reach .connected
  pure .starting

/-- Why a runner that leaves early leaves no ready session. -/
def leftEarly (session : LiveSession) : ServerError :=
  match session.progress.ready session.headless with
  | .ok _ => .incomplete .neverStarted
  | .error error => .incomplete error

def runToReady (message : ClientMessage) : SessionM Stage := do
  tell (.heard message)
  match message with
  | .hello _ _ => throw .noHello
  | .requestBundle => do
    onEvent .bundleRequested
    sendManifest link
    pure .starting
  | .requestPayload name => do
    sendPayload link name
    pure .starting
  | .progress phase => do
    record phase
    let session ← get
    match session.progress.ready session.headless with
    | .ok _ =>
      onEvent .sessionReady
      pure .ready
    | .error _ => pure .starting
  | .appExited reason => do
    modify fun session => { session with appExited := true }
    onEvent (.appExited reason)
    pure .starting
  | .failed reason => throw (.runnerFailed reason)
  | .goodbye => do
    let session ← get
    throw (leftEarly session)
  | other => throw (.unexpectedReloadReport (reportName other))

/-- Something the runner says while no exchange is in flight. -/
def observe (message : ClientMessage) : SessionM Stage := do
  tell (.heard message)
  match message with
  | .appExited reason => do
    modify fun session => { session with appExited := true }
    onEvent (.appExited reason)
    pure .ready
  | .failed reason => throw (.runnerFailed reason)
  | .goodbye => do
    modify fun session => { session with appExited := true }
    pure .ready
  | other => throw (.unexpectedReloadReport (reportName other))

/-- The text of a runner's refusal. -/
def runnerRefused (reason : String) : String :=
  "the runner could not apply the hot patch: " ++ reason

def fallBack (reason : String) : SessionM Stage := do
  onEvent (.reloadNotified .relaunch (some reason))
  pure .ready

def attemptHotPatch (message : ClientMessage) : SessionM Stage := do
  tell (.heard message)
  match message with
  | .requestPayload name => do
    sendPayload link name
    pure .patching
  | .requestBundle => do
    sendManifest link
    pure .patching
  | .reloadStaged => do
    onEvent .reloadStaged
    pure .patching
  | .reloadApplied => do
    onEvent .reloadApplied
    pure .patching
  | .reloadCompleted => do
    onEvent (.reloadCompleted .hotPatch)
    pure .ready
  | .reloadRejected reason => do
    onEvent (.reloadRejected reason)
    fallBack (runnerRefused reason)
  | .restartRequired reason => do
    onEvent (.restartRequired reason)
    fallBack (runnerRefused reason)
  | .appExited reason => do
    modify fun session => { session with appExited := true }
    onEvent (.appExited reason)
    pure .patching
  | .failed reason => throw (.runnerFailed reason)
  | .hello _ _ => throw .noHello
  | .progress phase => throw (.unexpectedReloadReport phase.label)
  | .goodbye => pure .ready

section Decision

/- How a rebuilt bundle reaches a process that runs another. -/
variable (decision : BundleManifest → BundleManifest → Bool → ReloadDecision)

def reload (rebuilt : Bundle) (hotpatchDisabled : Bool) : SessionM Stage := do
  let session ← get
  match decision session.bundle.manifest rebuilt.manifest hotpatchDisabled with
  | .unchanged => pure .ready
  | .relaunch reason => do
    onEvent (.reloadNotified .relaunch (some reason))
    modify fun session => { session with bundle := rebuilt }
    pure .ready
  | .hotPatch => do
    onEvent (.reloadNotified .hotPatch none)
    modify fun session => { session with bundle := rebuilt }
    write link (.reload .hotPatch rebuilt.manifest.toBytes)
    pure .patching

end Decision

end Link

/-- Run an operation, and go where it ends. -/
def LiveSession.enter (session : LiveSession) (operation : SessionM Stage)
    (failed : ServerError → Stage) : LiveSession :=
  match operation session with
  | .ok stage after => { after with stage := stage }
  | .error error after => { after with stage := failed error }

/-- One step.  Until it is ready a session ends with its first error; later one an error
is the answer of the call that was made. -/
def LiveSession.step (decision : BundleManifest → BundleManifest → Bool → ReloadDecision)
    (session : LiveSession) (arrival : Arrival) : LiveSession :=
  match session.stage, arrival.input with
  | .greeting, .message message => session.enter (start arrival.link message) .failed
  | .greeting, .readFailed error => { session with stage := .failed (.protocol error) }
  | .starting, .message message => session.enter (runToReady arrival.link message) .failed
  | .starting, .readFailed .disconnected => { session with stage := .failed (leftEarly session) }
  | .starting, .readFailed error => { session with stage := .failed (.protocol error) }
  | .ready, .message message => session.enter (observe message) fun _ => .ready
  | .ready, .reload rebuilt hotpatchDisabled =>
    session.enter (reload arrival.link decision rebuilt hotpatchDisabled) fun _ => .ready
  | .ready, .shutdown =>
    session.enter (do write arrival.link .shutdown; pure .ready) fun _ => .ready
  | .patching, .message message =>
    session.enter (attemptHotPatch arrival.link message) fun _ => .ready
  | .patching, .readFailed _ => { session with stage := .ready }
  | _, _ => session

/-- A session before its runner has spoken. -/
def LiveSession.fresh (bundle : Bundle) (headless : Bool) (peer : String) : LiveSession :=
  ⟨.greeting, bundle, ⟨none⟩, headless, peer, false, []⟩

def LiveSession.run (decision : BundleManifest → BundleManifest → Bool → ReloadDecision)
    (session : LiveSession) (arrivals : List Arrival) : LiveSession :=
  arrivals.foldl (LiveSession.step decision) session

end KiraLive

end KiraVm
