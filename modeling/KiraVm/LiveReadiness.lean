import KiraVm.LiveBundleValid
import KiraVm.LiveSession
import KiraVm.StateLogic
import Mathlib.Data.List.Induction

/-!
# Ready sessions

What one step of a session can do, said once, and what follows for whole runs: what the
transcript holds before a session is reported ready, which end advanced each milestone,
and that progress only goes forward.
-/

namespace KiraVm

namespace KiraLive

open StateLogic

/-! ## What operations add to the transcript -/

/-- A session with one more line in its transcript. -/
def LiveSession.said (session : LiveSession) (entry : Entry) : LiveSession :=
  { session with transcript := session.transcript ++ [entry] }

/-- The same session with more in its transcript. -/
structure Adds (session after : LiveSession) (new : List Entry) : Prop where
  bundle : after.bundle = session.bundle
  headless : after.headless = session.headless
  transcript : after.transcript = session.transcript ++ new

variable {session middle after : LiveSession} (link : Link)

theorem adds_said (session : LiveSession) (entry : Entry) :
    Adds session (session.said entry) [entry] :=
  ⟨rfl, rfl, rfl⟩

theorem Adds.refl (session : LiveSession) : Adds session session [] :=
  ⟨rfl, rfl, (List.append_nil _).symm⟩

theorem Adds.trans {first second : List Entry} (before : Adds session middle first)
    (behind : Adds middle after second) : Adds session after (first ++ second) where
  bundle := behind.bundle.trans before.bundle
  headless := behind.headless.trans before.headless
  transcript := by rw [behind.transcript, before.transcript, List.append_assoc]

theorem tell_run (entry : Entry) (session : LiveSession) :
    tell entry session = .ok ⟨⟩ (session.said entry) :=
  rfl

theorem write_cases (message : ServerMessage) (session : LiveSession) :
    write link message session = .ok ⟨⟩ (session.said (.wrote message)) ∨
      ∃ error, write link message session = .error error session := by
  unfold write
  cases writeMessage message with
  | error error => exact Or.inr ⟨_, rfl⟩
  | ok frame =>
    cases link message with
    | some error => exact Or.inr ⟨_, rfl⟩
    | none => exact Or.inl rfl

theorem reach_cases (phase : SessionPhase) (session : LiveSession) :
    (∃ progress, session.progress.reach phase = .ok progress ∧
        reach phase session = .ok ⟨⟩ { session with progress := progress }) ∨
      ∃ error, reach phase session = .error error session := by
  unfold reach
  rw [bind_run_ok (get_run session)]
  cases session.progress.reach phase with
  | error error => exact Or.inr ⟨_, rfl⟩
  | ok progress => exact Or.inl ⟨progress, rfl, rfl⟩

/-- Nothing of this reports the session ready. -/
def Unready (new : List Entry) : Prop :=
  .event .sessionReady ∉ new

/-- An operation that fails, with nothing reported ready and no milestone reached. -/
def FailsCalmly {α : Type} (session : LiveSession) (result : EStateM.Result ServerError LiveSession α) :
    Prop :=
  ∃ error after new, result = .error error after ∧ Adds session after new ∧ Unready new ∧
    after.progress = session.progress

theorem sendManifest_cases (session : LiveSession) :
    sendManifest link session =
        .ok ⟨⟩ (session.said (.wrote (.manifest session.bundle.manifest.toBytes))) ∨
      FailsCalmly session (sendManifest link session) := by
  unfold sendManifest
  rw [bind_run_ok (get_run session)]
  rcases write_cases link (.manifest session.bundle.manifest.toBytes) session with
    wrote | ⟨error, failed⟩
  · exact Or.inl wrote
  · exact Or.inr ⟨error, session, [], failed, Adds.refl _, List.not_mem_nil, rfl⟩

theorem sendPayload_cases (name : String) (session : LiveSession) :
    (∃ bytes after, session.bundle.payloadByName name = some bytes ∧
        sendPayload link name session = .ok ⟨⟩ after ∧
        Adds session after [.wrote (.payload name bytes), .event (.bundleSent bytes.length)] ∧
        session.progress.reach .bundleSent = .ok after.progress) ∨
      (session.bundle.payloadByName name = none ∧
        sendPayload link name session = .ok ⟨⟩ (session.said (.wrote (.noSuchPayload name)))) ∨
      FailsCalmly session (sendPayload link name session) := by
  unfold sendPayload
  rw [bind_run_ok (get_run session)]
  cases found : session.bundle.payloadByName name with
  | none =>
    rcases write_cases link (.noSuchPayload name) session with wrote | ⟨error, failed⟩
    · exact Or.inr (Or.inl ⟨rfl, wrote⟩)
    · exact Or.inr (Or.inr ⟨error, session, [], failed, Adds.refl _, List.not_mem_nil, rfl⟩)
  | some bytes =>
    dsimp only
    rcases write_cases link (.payload name bytes) session with wrote | ⟨error, failed⟩
    · rw [bind_run_ok wrote]
      rcases reach_cases .bundleSent (session.said (.wrote (.payload name bytes))) with
        ⟨progress, reached, ran⟩ | ⟨error, failed⟩
      · rw [bind_run_ok ran]
        exact Or.inl ⟨bytes, _, rfl, rfl, ⟨rfl, rfl, List.append_assoc _ _ _⟩, reached⟩
      · rw [bind_run_error failed]
        exact Or.inr (Or.inr ⟨error, _, _, rfl, adds_said _ _, by simp [Unready], rfl⟩)
    · rw [bind_run_error failed]
      exact Or.inr (Or.inr ⟨error, session, [], rfl, Adds.refl _, List.not_mem_nil, rfl⟩)

variable {phase : SessionPhase} {α : Type} {entry : Entry}
  {result : EStateM.Result ServerError LiveSession α} {message : ClientMessage}

theorem milestoneEvent_some (reported : phase.reportedByRunner = true) (bundle : Bundle) :
    ∃ event, milestoneEvent phase bundle = some event ∧ event ≠ .sessionReady := by
  cases phase with
  | connected => cases reported
  | bundleSent => cases reported
  | bundleReceived => exact ⟨_, rfl, nofun⟩
  | bundleLoaded => exact ⟨_, rfl, nofun⟩
  | bundleLinked => exact ⟨_, rfl, nofun⟩
  | entrypointStarted => exact ⟨_, rfl, nofun⟩
  | framePresented => exact ⟨_, rfl, nofun⟩

theorem record_cases (phase : SessionPhase) (session : LiveSession) :
    (∃ event after, phase.reportedByRunner = true ∧ event ≠ .sessionReady ∧
        record phase session = .ok ⟨⟩ after ∧ Adds session after [.event event] ∧
        session.progress.reach phase = .ok after.progress) ∨
      ∃ error, record phase session = .error error session := by
  cases owner : phase.reportedByRunner with
  | false =>
    right
    refine ⟨.notRunnerMilestone phase.label, ?_⟩
    unfold record
    rw [owner]
    rfl
  | true =>
    unfold record
    rw [owner]
    simp only [Bool.not_true, Bool.false_eq_true, if_false]
    rcases reach_cases phase session with ⟨progress, reached, ran⟩ | ⟨error, failed⟩
    · rcases milestoneEvent_some owner session.bundle with ⟨event, named, plain⟩
      left
      refine ⟨event, { session.said (.event event) with progress := progress }, trivial, plain, ?_,
        ⟨rfl, rfl, rfl⟩, reached⟩
      rw [bind_run_ok ran, bind_run_ok (get_run _)]
      dsimp only
      rw [named]
      rfl
    · right
      rw [bind_run_error failed]
      exact ⟨error, rfl⟩

/-! ## What a message does on the way to ready -/

/-- What a message does to a session that is starting. -/
inductive StartStep (session : LiveSession) (message : ClientMessage) : Stage → LiveSession → Prop
  /-- A message that reaches no milestone. -/
  | quiet {after : LiveSession} {new : List Entry} (adds : Adds session after (.heard message :: new))
      (unready : Unready new) (silent : ∀ phase, .heard (.progress phase) ∉ .heard message :: new)
      (absent : ∀ name, message = .requestPayload name → session.bundle.payloadByName name = none)
      (progress : after.progress = session.progress) : StartStep session message .starting after
  /-- A payload is asked for and sent. -/
  | sent {after : LiveSession} {name : String} {bytes : List UInt8}
      (asked : message = .requestPayload name)
      (found : session.bundle.payloadByName name = some bytes)
      (adds : Adds session after
        [.heard message, .wrote (.payload name bytes), .event (.bundleSent bytes.length)])
      (reached : session.progress.reach .bundleSent = .ok after.progress) :
      StartStep session message .starting after
  /-- A milestone is reported. -/
  | reported {after : LiveSession} {phase : SessionPhase} {event : LiveEvent}
      (asked : message = .progress phase) (owned : phase.reportedByRunner = true)
      (plain : event ≠ .sessionReady) (adds : Adds session after [.heard message, .event event])
      (reached : session.progress.reach phase = .ok after.progress) :
      StartStep session message .starting after
  /-- The last milestone is reported. -/
  | readied {after : LiveSession} {phase : SessionPhase} {event : LiveEvent}
      (asked : message = .progress phase) (owned : phase.reportedByRunner = true)
      (plain : event ≠ .sessionReady)
      (adds : Adds session after [.heard message, .event event, .event .sessionReady])
      (reached : session.progress.reach phase = .ok after.progress)
      (ready : after.progress.ready session.headless = .ok ()) :
      StartStep session message .ready after

theorem FailsCalmly.said (fails : FailsCalmly (session.said entry) result)
    (plain : entry ≠ .event .sessionReady) : FailsCalmly session result := by
  rcases fails with ⟨error, after, new, same, adds, unready, progress⟩
  refine ⟨error, after, _, same, (adds_said session _).trans adds, ?_, progress⟩
  intro listed
  rcases List.mem_cons.mp listed with ready | later
  · exact plain ready.symm
  · exact unready later

theorem FailsCalmly.heard (fails : FailsCalmly (session.said (.heard message)) result) :
    FailsCalmly session result :=
  fails.said nofun

theorem FailsCalmly.thrown (session : LiveSession) (error : ServerError) :
    FailsCalmly session (.error error session : EStateM.Result ServerError LiveSession α) :=
  ⟨error, session, [], rfl, Adds.refl _, List.not_mem_nil, rfl⟩

theorem FailsCalmly.bind {α β : Type} {operation : SessionM α} {next : α → SessionM β}
    (fails : FailsCalmly session (operation session)) :
    FailsCalmly session ((operation >>= next) session) := by
  rcases fails with ⟨error, after, new, same, rest⟩
  exact ⟨error, after, new, bind_run_error same, rest⟩

theorem FailsCalmly.continued {β : Type} {operation : SessionM α} {next : α → SessionM β}
    {answer : α} (ran : operation session = .ok answer middle)
    (fails : FailsCalmly session (next answer middle)) :
    FailsCalmly session ((operation >>= next) session) := by
  rw [bind_run_ok ran]
  exact fails

theorem runToReady_cases (message : ClientMessage) (session : LiveSession) :
    (∃ stage after, runToReady link message session = .ok stage after ∧
        StartStep session message stage after) ∨
      FailsCalmly session (runToReady link message session) := by
  unfold runToReady
  rw [bind_run_ok (tell_run _ _)]
  cases message with
  | hello protocol runner => exact Or.inr (FailsCalmly.thrown _ _).heard
  | requestBundle =>
    have asked := tell_run (.event .bundleRequested) (session.said (.heard .requestBundle))
    rcases sendManifest_cases link
        ((session.said (.heard .requestBundle)).said (.event .bundleRequested)) with wrote | fails
    · left
      refine ⟨.starting, _, (bind_run_ok asked).trans (bind_run_ok wrote), ?_⟩
      apply StartStep.quiet (((adds_said session _).trans (adds_said _ _)).trans (adds_said _ _) :)
      · simp [Unready]
      · simp
      · exact nofun
      · rfl
    · right
      exact (FailsCalmly.continued asked (fails.bind.said nofun)).heard
  | requestPayload name =>
    rcases sendPayload_cases link name (session.said (.heard (.requestPayload name))) with
      ⟨bytes, after, found, sent, adds, reached⟩ | ⟨absent, sent⟩ | fails
    · left
      refine ⟨.starting, after, bind_run_ok sent, ?_⟩
      exact .sent rfl found ((adds_said session _).trans adds) reached
    · left
      refine ⟨.starting, _, bind_run_ok sent, ?_⟩
      apply StartStep.quiet ((adds_said session _).trans (adds_said _ _) :)
      · simp [Unready]
      · simp
      · intro other same
        cases same
        exact absent
      · rfl
    · exact Or.inr fails.bind.heard
  | progress phase =>
    rcases record_cases phase (session.said (.heard (.progress phase))) with
      ⟨event, after, owned, plain, ran, adds, reached⟩ | ⟨error, failed⟩
    · left
      have here := (adds_said session (.heard (.progress phase))).trans adds
      have headless : after.headless = session.headless := here.headless
      cases ready : after.progress.ready after.headless with
      | ok done =>
        refine ⟨.ready, after.said (.event .sessionReady), ?_, ?_⟩
        · refine (bind_run_ok ran).trans ((bind_run_ok (get_run after)).trans ?_)
          simp only [ready]
          rfl
        · rw [headless] at ready
          exact .readied rfl owned plain (here.trans (adds_said _ _)) reached ready
      | error error =>
        refine ⟨.starting, after, ?_, .reported rfl owned plain here reached⟩
        refine (bind_run_ok ran).trans ((bind_run_ok (get_run after)).trans ?_)
        simp only [ready]
        rfl
    · have calm : FailsCalmly (session.said (.heard (.progress phase)))
          (record phase (session.said (.heard (.progress phase)))) := by
        rw [failed]
        exact .thrown _ _
      exact Or.inr calm.bind.heard
  | failed reason => exact Or.inr (FailsCalmly.thrown _ _).heard
  | goodbye => exact Or.inr (FailsCalmly.thrown _ _).heard
  | reloadStaged => exact Or.inr (FailsCalmly.thrown _ _).heard
  | reloadApplied => exact Or.inr (FailsCalmly.thrown _ _).heard
  | reloadCompleted => exact Or.inr (FailsCalmly.thrown _ _).heard
  | reloadRejected reason => exact Or.inr (FailsCalmly.thrown _ _).heard
  | restartRequired reason => exact Or.inr (FailsCalmly.thrown _ _).heard
  | appExited reason =>
    left
    let exited := (session.said (.heard (.appExited reason))).said (.event (.appExited reason))
    have adds := (adds_said session (.heard (.appExited reason))).trans
      (adds_said _ (.event (.appExited reason)))
    refine ⟨.starting, { exited with appExited := true }, rfl, ?_⟩
    have moved : Adds session { exited with appExited := true }
        [.heard (.appExited reason), .event (.appExited reason)] :=
      ⟨adds.bundle, adds.headless, adds.transcript⟩
    apply StartStep.quiet moved
    · simp [Unready]
    · simp
    · exact nofun
    · rfl

theorem handshake_cases (message : ClientMessage) (session : LiveSession) :
    (message = .hello protocolVersion session.bundle.manifest.runner ∧
        handshake link message session = .ok ⟨⟩ (session.said (.wrote (.welcome protocolVersion)))) ∨
      ∃ error, handshake link message session = .error error session := by
  cases message with
  | hello protocol runner =>
    have body : handshake link (.hello protocol runner) session =
        (if protocol ≠ protocolVersion then throw (.versionMismatch protocol protocolVersion)
        else if runner ≠ session.bundle.manifest.runner then
          throw (.runnerMismatch session.bundle.manifest.runner.label runner.label)
        else write link (.welcome protocolVersion) : SessionM Unit) session := rfl
    rw [body]
    by_cases version : protocol = protocolVersion
    · rw [if_neg (not_not.mpr version)]
      by_cases same : runner = session.bundle.manifest.runner
      · rw [if_neg (not_not.mpr same), version, same]
        exact (write_cases link _ _).imp (fun wrote => ⟨rfl, wrote⟩) fun failed => failed
      · rw [if_pos same]
        exact Or.inr ⟨_, rfl⟩
    · rw [if_pos version]
      exact Or.inr ⟨_, rfl⟩
  | _ => exact Or.inr ⟨_, rfl⟩

theorem start_cases (message : ClientMessage) (session : LiveSession) :
    (∃ after, message = .hello protocolVersion session.bundle.manifest.runner ∧
        start link message session = .ok .starting after ∧
        Adds session after
          [.heard message, .wrote (.welcome protocolVersion), .event (.clientConnected session.peer)] ∧
        session.progress.reach .connected = .ok after.progress) ∨
      FailsCalmly session (start link message session) := by
  unfold start
  rw [bind_run_ok (tell_run _ _)]
  rcases handshake_cases link message (session.said (.heard message)) with
    ⟨hello, greeted⟩ | ⟨error, failed⟩
  · have told := tell_run (.event (.clientConnected session.peer))
      ((session.said (.heard message)).said (.wrote (.welcome protocolVersion)))
    have adds := ((adds_said session (.heard message)).trans
      (adds_said _ (.wrote (.welcome protocolVersion)))).trans
        (adds_said _ (.event (.clientConnected session.peer)))
    rcases reach_cases .connected (((session.said (.heard message)).said
        (.wrote (.welcome protocolVersion))).said (.event (.clientConnected session.peer))) with
      ⟨progress, reached, ran⟩ | ⟨error, failed⟩
    · left
      let welcomed := ((session.said (.heard message)).said
        (.wrote (.welcome protocolVersion))).said (.event (.clientConnected session.peer))
      refine ⟨{ welcomed with progress := progress }, hello, ?_,
        ⟨adds.bundle, adds.headless, adds.transcript⟩, reached⟩
      refine (bind_run_ok greeted).trans ((bind_run_ok (get_run _)).trans ?_)
      exact (bind_run_ok told).trans (bind_run_ok ran)
    · right
      have calm := FailsCalmly.thrown (α := Unit) (((session.said (.heard message)).said
        (.wrote (.welcome protocolVersion))).said (.event (.clientConnected session.peer))) error
      rw [← failed] at calm
      apply FailsCalmly.heard
      refine FailsCalmly.continued greeted (FailsCalmly.said ?_
        (nofun : Entry.wrote (.welcome protocolVersion) ≠ .event .sessionReady))
      refine FailsCalmly.continued (get_run _) (FailsCalmly.continued told (FailsCalmly.said ?_
        (nofun : Entry.event (.clientConnected session.peer) ≠ .event .sessionReady)))
      exact calm.bind
  · right
    have calm := FailsCalmly.thrown (α := Unit) (session.said (.heard message)) error
    rw [← failed] at calm
    exact calm.bind.heard

/-! ## What a message does to a ready session -/

/-- A session that went on with nothing reported ready and no milestone reached. -/
structure Calm (session after : LiveSession) : Prop where
  progress : after.progress = session.progress
  spoke : ∃ new, after.transcript = session.transcript ++ new ∧ Unready new

theorem Calm.refl (session : LiveSession) : Calm session session :=
  ⟨rfl, [], (List.append_nil _).symm, List.not_mem_nil⟩

theorem Calm.said (calm : Calm session middle) (plain : entry ≠ .event .sessionReady) :
    Calm session (middle.said entry) := by
  rcases calm with ⟨progress, new, transcript, unready⟩
  refine ⟨progress, new ++ [entry], ?_, ?_⟩
  · rw [LiveSession.said, transcript, List.append_assoc]
  · intro listed
    rcases List.mem_append.mp listed with before | last
    · exact unready before
    · exact plain (List.mem_singleton.mp last).symm

theorem FailsCalmly.calm {error : ServerError} (fails : FailsCalmly session result)
    (failed : result = .error error after) : Calm session after := by
  rcases fails with ⟨other, ended, new, same, adds, unready, progress⟩
  rw [failed] at same
  cases same
  exact ⟨progress, new, adds.transcript, unready⟩

/-- An operation that goes on calmly, whether it answers or fails. -/
abbrev Calmly (origin : LiveSession) {α : Type} (operation : SessionM α) : Prop :=
  Safe (Calm origin) (fun _ => Calm origin) operation

/-- The stages of a session that was ready. -/
def Later (stage : Stage) : Prop :=
  stage = .ready ∨ stage = .patching

abbrev Settles (origin : LiveSession) (operation : SessionM Stage) : Prop :=
  Yields (Calm origin) (fun _ => Calm origin) operation Later

variable {origin : LiveSession}

theorem tell_calmly (plain : entry ≠ .event .sessionReady) : Calmly origin (tell entry) :=
  Safe.modify fun _ calm => calm.said plain

instance heard_calmly (message : ClientMessage) : Calmly origin (tell (.heard message)) :=
  tell_calmly nofun

instance throw_calmly (error : ServerError) : Calmly origin (throw error : SessionM α) :=
  Safe.throw fun _ calm => calm

instance write_calmly (message : ServerMessage) : Calmly origin (write link message) := by
  unfold write
  cases writeMessage message with
  | error error => exact throw_calmly _
  | ok frame =>
    cases link message with
    | some error => exact throw_calmly _
    | none => exact tell_calmly nofun

instance sendManifest_calmly : Calmly origin (sendManifest link) := by
  unfold sendManifest
  infer_instance

theorem exited_calmly : Calmly origin
    (modify fun session => { session with appExited := true } : SessionM Unit) :=
  Safe.modify fun _ calm => ⟨calm.progress, calm.spoke⟩

theorem rebuilt_calmly (rebuilt : Bundle) : Calmly origin
    (modify fun session => { session with bundle := rebuilt } : SessionM Unit) :=
  Safe.modify fun _ calm => ⟨calm.progress, calm.spoke⟩

theorem throw_settles (error : ServerError) : Settles origin (throw error) :=
  Yields.throw fun _ calm => calm

theorem ready_settles : Settles origin (pure .ready) :=
  Yields.pure (Or.inl rfl)

theorem patching_settles : Settles origin (pure .patching) :=
  Yields.pure (Or.inr rfl)

theorem observe_settles (message : ClientMessage) : Settles origin (observe message) := by
  unfold observe
  apply Yields.of_bind (heard_calmly _)
  intro _
  cases message with
  | appExited reason =>
    apply Yields.of_bind exited_calmly
    intro _
    exact Yields.of_bind (tell_calmly nofun) fun _ => ready_settles
  | goodbye => exact Yields.of_bind exited_calmly fun _ => ready_settles
  | _ => exact throw_settles _

theorem fallBack_settles (reason : String) : Settles origin (fallBack reason) :=
  Yields.of_bind (tell_calmly nofun) fun _ => ready_settles

theorem reload_settles (decision : BundleManifest → BundleManifest → Bool → ReloadDecision)
    (rebuilt : Bundle) (hotpatchDisabled : Bool) :
    Settles origin (reload link decision rebuilt hotpatchDisabled) := by
  unfold reload
  apply Yields.of_bind Safe.get
  intro session
  cases decision session.bundle.manifest rebuilt.manifest hotpatchDisabled with
  | unchanged => exact ready_settles
  | relaunch reason =>
    have noted : Calmly origin (onEvent (.reloadNotified .relaunch (some reason))) :=
      tell_calmly nofun
    apply Yields.of_bind noted
    intro _
    exact Yields.of_bind (rebuilt_calmly rebuilt) fun _ => ready_settles
  | hotPatch =>
    have noted : Calmly origin (onEvent (.reloadNotified .hotPatch none)) := tell_calmly nofun
    apply Yields.of_bind noted
    intro _
    apply Yields.of_bind (rebuilt_calmly rebuilt)
    intro _
    exact Yields.of_bind (write_calmly link _) fun _ => patching_settles

theorem attemptHotPatch_settles (message : ClientMessage)
    (other : ∀ name, message ≠ .requestPayload name) :
    Settles origin (attemptHotPatch link message) := by
  unfold attemptHotPatch
  apply Yields.of_bind (heard_calmly _)
  intro _
  cases message with
  | requestPayload name => exact absurd rfl (other name)
  | requestBundle => exact Yields.of_bind (sendManifest_calmly link) fun _ => patching_settles
  | reloadStaged => exact Yields.of_bind (tell_calmly nofun) fun _ => patching_settles
  | reloadApplied => exact Yields.of_bind (tell_calmly nofun) fun _ => patching_settles
  | reloadCompleted => exact Yields.of_bind (tell_calmly nofun) fun _ => ready_settles
  | reloadRejected reason =>
    exact Yields.of_bind (tell_calmly nofun) fun _ => fallBack_settles _
  | restartRequired reason =>
    exact Yields.of_bind (tell_calmly nofun) fun _ => fallBack_settles _
  | appExited reason =>
    apply Yields.of_bind exited_calmly
    intro _
    exact Yields.of_bind (tell_calmly nofun) fun _ => patching_settles
  | goodbye => exact ready_settles
  | hello protocol runner => exact throw_settles _
  | progress phase => exact throw_settles _
  | failed reason => exact throw_settles _

theorem attemptHotPatch_sends (name : String) (session : LiveSession) :
    (∃ bytes after, session.bundle.payloadByName name = some bytes ∧
        attemptHotPatch link (.requestPayload name) session = .ok .patching after ∧
        Adds session after [.heard (.requestPayload name), .wrote (.payload name bytes),
          .event (.bundleSent bytes.length)] ∧
        session.progress.reach .bundleSent = .ok after.progress) ∨
      Ends (fun stage after => Later stage ∧ Calm session after) (fun _ => Calm session)
        (attemptHotPatch link (.requestPayload name) session) := by
  unfold attemptHotPatch
  rw [bind_run_ok (tell_run _ _)]
  dsimp only
  rcases sendPayload_cases link name (session.said (.heard (.requestPayload name))) with
    ⟨bytes, after, found, sent, adds, reached⟩ | ⟨absent, sent⟩ | fails
  · left
    exact ⟨bytes, after, found, bind_run_ok sent, (adds_said session _).trans adds, reached⟩
  · right
    rw [bind_run_ok sent]
    have heard : Calm session (session.said (.heard (.requestPayload name))) :=
      (Calm.refl session).said nofun
    refine ⟨Or.inr rfl, heard.said ?_⟩
    exact nofun
  · right
    rcases fails.heard with ⟨error, after, new, failed, adds, unready, progress⟩
    rw [bind_run_error failed]
    exact ⟨progress, new, adds.transcript, unready⟩

/-! ## Steps -/

/-- What one step of a session does. -/
inductive SessionStep (session : LiveSession) (arrival : Arrival) (after : LiveSession) : Prop
  /-- Nothing is read after a failure, and the owner's calls wait for a ready session. -/
  | ignored (same : after = session)
      (unheard : ∀ message, arrival.input = .message message → ∃ error, session.stage = .failed error)
  | failed {error : ServerError} (early : session.stage = .greeting ∨ session.stage = .starting)
      (stage : after.stage = .failed error) (calm : Calm session after)
  | settled (was : Later session.stage) (later : Later after.stage) (calm : Calm session after)
  | patched {name : String} {bytes : List UInt8} (was : session.stage = .patching)
      (asked : arrival.input = .message (.requestPayload name))
      (found : session.bundle.payloadByName name = some bytes) (later : Later after.stage)
      (adds : Adds session after [.heard (.requestPayload name), .wrote (.payload name bytes),
        .event (.bundleSent bytes.length)])
      (reached : session.progress.reach .bundleSent = .ok after.progress)
  | greeted (was : session.stage = .greeting)
      (asked : arrival.input =
        .message (.hello protocolVersion session.bundle.manifest.runner))
      (stage : after.stage = .starting)
      (adds : Adds session after
        [.heard (.hello protocolVersion session.bundle.manifest.runner),
          .wrote (.welcome protocolVersion), .event (.clientConnected session.peer)])
      (reached : session.progress.reach .connected = .ok after.progress)
  | started {message : ClientMessage} (was : session.stage = .starting)
      (asked : arrival.input = .message message)
      (step : StartStep session message after.stage after)

theorem Adds.at_stage {new : List Entry} (adds : Adds session after new) (stage : Stage) :
    Adds session { after with stage := stage } new :=
  ⟨adds.bundle, adds.headless, adds.transcript⟩

theorem Calm.at_stage (calm : Calm session after) (stage : Stage) :
    Calm session { after with stage := stage } :=
  ⟨calm.progress, calm.spoke⟩

theorem StartStep.at_stage {stage : Stage} (step : StartStep session message stage after) :
    StartStep session message stage { after with stage := stage } := by
  cases step with
  | quiet adds unready silent absent progress =>
    exact .quiet (adds.at_stage _) unready silent absent progress
  | sent asked found adds reached => exact .sent asked found (adds.at_stage _) reached
  | reported asked owned plain adds reached =>
    exact .reported asked owned plain (adds.at_stage _) reached
  | readied asked owned plain adds reached ready =>
    exact .readied asked owned plain (adds.at_stage _) reached ready

theorem enter_settled {arrival : Arrival} {operation : SessionM Stage}
    (was : Later session.stage)
    (ends : Ends (fun stage after => Later stage ∧ Calm session after) (fun _ => Calm session)
      (operation session)) :
    SessionStep session arrival (session.enter operation fun _ => .ready) := by
  unfold LiveSession.enter
  cases ran : operation session with
  | ok stage after =>
    rw [ran] at ends
    exact .settled was ends.1 (ends.2.at_stage stage)
  | error error after =>
    rw [ran] at ends
    exact .settled was (Or.inl rfl) (Calm.at_stage ends .ready)

theorem start_step {arrival : Arrival} (was : session.stage = .greeting)
    (asked : arrival.input = .message message) :
    SessionStep session arrival (session.enter (start arrival.link message) .failed) := by
  unfold LiveSession.enter
  rcases start_cases arrival.link message session with ⟨after, hello, ran, adds, reached⟩ | fails
  · rw [ran]
    rw [hello] at asked adds
    exact .greeted was asked rfl (adds.at_stage _) reached
  · cases ran : start arrival.link message session with
    | ok stage after =>
      rcases fails with ⟨error, ended, new, same, rest⟩
      rw [ran] at same
      cases same
    | error error after => exact .failed (Or.inl was) rfl ((fails.calm ran).at_stage _)

theorem runToReady_step {arrival : Arrival} (was : session.stage = .starting)
    (asked : arrival.input = .message message) :
    SessionStep session arrival (session.enter (runToReady arrival.link message) .failed) := by
  unfold LiveSession.enter
  rcases runToReady_cases arrival.link message session with ⟨stage, after, ran, step⟩ | fails
  · rw [ran]
    exact .started was asked step.at_stage
  · cases ran : runToReady arrival.link message session with
    | ok stage after =>
      rcases fails with ⟨error, ended, new, same, rest⟩
      rw [ran] at same
      cases same
    | error error after => exact .failed (Or.inr was) rfl ((fails.calm ran).at_stage _)

theorem attemptHotPatch_step {arrival : Arrival} (was : session.stage = .patching)
    (asked : arrival.input = .message message) :
    SessionStep session arrival
      (session.enter (attemptHotPatch arrival.link message) fun _ => .ready) := by
  by_cases payload : ∃ name, message = .requestPayload name
  · rcases payload with ⟨name, rfl⟩
    rcases attemptHotPatch_sends arrival.link name session with
      ⟨bytes, after, found, ran, adds, reached⟩ | ends
    · unfold LiveSession.enter
      rw [ran]
      exact .patched was asked found (Or.inr rfl) (adds.at_stage _) reached
    · exact enter_settled (Or.inr was) ends
  · have settles : Settles session (attemptHotPatch arrival.link message) :=
      attemptHotPatch_settles arrival.link message fun name same => payload ⟨name, same⟩
    exact enter_settled (Or.inr was) (settles session (Calm.refl session))

theorem shutdown_settles :
    Settles origin (do write link .shutdown; pure .ready) :=
  Yields.of_bind (write_calmly link _) fun _ => ready_settles

theorem session_step (decision : BundleManifest → BundleManifest → Bool → ReloadDecision)
    (session : LiveSession) (arrival : Arrival) :
    SessionStep session arrival (session.step decision arrival) := by
  unfold LiveSession.step
  split
  next was asked => exact start_step was asked
  next was asked => exact .failed (Or.inl was) rfl ((Calm.refl session).at_stage _)
  next was asked => exact runToReady_step was asked
  next was asked => exact .failed (Or.inr was) rfl ((Calm.refl session).at_stage _)
  next was asked => exact .failed (Or.inr was) rfl ((Calm.refl session).at_stage _)
  next was asked =>
    exact enter_settled (Or.inl was) (observe_settles _ session (Calm.refl session))
  next was asked =>
    exact enter_settled (Or.inl was) (reload_settles _ _ _ _ session (Calm.refl session))
  next was asked =>
    exact enter_settled (Or.inl was) (shutdown_settles _ session (Calm.refl session))
  next was asked => exact attemptHotPatch_step was asked
  next was asked =>
    exact .settled (Or.inr was) (Or.inl rfl) ((Calm.refl session).at_stage _)
  next other =>
    refine .ignored rfl ?_
    intro message asked
    cases stage : session.stage with
    | failed error => exact ⟨error, rfl⟩
    | _ => simp_all

/-! ## The ladder -/

theorem reach_climbs {progress advanced : SessionProgress}
    (reached : progress.reach phase = .ok advanced) :
    advanced = progress ∧ SessionProgress.rank ⟨some phase⟩ ≤ progress.rank ∨
      phase.predecessor = progress.reached ∧ advanced.reached = some phase := by
  rcases progress with ⟨_ | old⟩
  · cases phase with
    | connected =>
      cases reached
      exact Or.inr ⟨rfl, rfl⟩
    | _ => cases reached
  · cases old <;> cases phase <;> cases reached <;>
      first | exact Or.inl ⟨rfl, by decide⟩ | exact Or.inr ⟨rfl, rfl⟩

/-- The server's milestones come before the runner's. -/
theorem rank_owned {low high : SessionPhase} (server : low.reportedByRunner = false)
    (runner : high.reportedByRunner = true) :
    SessionProgress.rank ⟨some low⟩ < SessionProgress.rank ⟨some high⟩ := by
  cases low <;> cases server <;> cases high <;> first | decide | cases runner

/-- The milestones a runner has reported once it reached one. -/
def climbed : SessionPhase → List SessionPhase
  | .connected | .bundleSent => []
  | .bundleReceived => [.bundleReceived]
  | .bundleLoaded => [.bundleReceived, .bundleLoaded]
  | .bundleLinked => [.bundleReceived, .bundleLoaded, .bundleLinked]
  | .entrypointStarted => [.bundleReceived, .bundleLoaded, .bundleLinked, .entrypointStarted]
  | .framePresented =>
    [.bundleReceived, .bundleLoaded, .bundleLinked, .entrypointStarted, .framePresented]

theorem climbed_next {previous : SessionPhase} (owned : phase.reportedByRunner = true)
    (required : phase.predecessor = some previous) :
    climbed phase = climbed previous ++ [phase] := by
  cases phase <;> cases owned <;> cases required <;> rfl

theorem climbed_sublist {low high : SessionPhase}
    (below : SessionProgress.rank ⟨some low⟩ ≤ SessionProgress.rank ⟨some high⟩) :
    (climbed low).Sublist (climbed high) := by
  cases low <;> cases high <;> first | decide | exact absurd below (by decide)

theorem ready_climbed {progress : SessionProgress} {headless : Bool}
    (ready : progress.ready headless = .ok ()) :
    SessionProgress.rank ⟨some (requiredPhase headless)⟩ ≤ progress.rank := by
  unfold SessionProgress.ready at ready
  split at ready
  · rename_i reached
    exact of_decide_eq_true reached
  · split at ready
    · cases ready
    · cases ready

/-! ## Transcripts -/

/-- Every payload the manifest names was sent. -/
def AllSent (bundle : Bundle) (transcript : List Entry) : Prop :=
  ∀ payload ∈ bundle.manifest.payloads, ∃ bytes, bundle.payloadByName payload.name = some bytes ∧
    .wrote (.payload payload.name bytes) ∈ transcript

/-- No runner has reported a milestone. -/
def Silent (transcript : List Entry) : Prop :=
  ∀ phase, .heard (.progress phase) ∉ transcript

def heardProgress (phase : SessionPhase) : Entry :=
  .heard (.progress phase)

/-- The greeting of a runner that was accepted. -/
def opening (bundle : Bundle) (peer : String) : List Entry :=
  [.heard (.hello protocolVersion bundle.manifest.runner), .wrote (.welcome protocolVersion),
    .event (.clientConnected peer)]

/-- The transcript of a session that is reported ready once: its runner connected with an
accepted hello, then every payload of the manifest was sent, then the runner reported its
milestones in order. -/
def ReadySoundly (bundle : Bundle) (headless : Bool) (peer : String) (transcript : List Entry) :
    Prop :=
  ∃ sent reports later,
    transcript = opening bundle peer ++ (sent ++ reports) ++ .event .sessionReady :: later ∧
      Unready (sent ++ reports) ∧ Unready later ∧ Silent sent ∧ AllSent bundle sent ∧
      ((climbed (requiredPhase headless)).map heardProgress).Sublist reports

/-- What was heard and written on the way to a milestone. -/
inductive Climbed (bundle : Bundle) : Option SessionPhase → List Entry → Prop
  | below {phase : SessionPhase} {rest : List Entry} (low : phase.reportedByRunner = false)
      (silent : Silent rest) : Climbed bundle (some phase) rest
  | above {phase : SessionPhase} {sent reports : List Entry}
      (owned : phase.reportedByRunner = true) (silent : Silent sent)
      (complete : AllSent bundle sent)
      (ladder : ((climbed phase).map heardProgress).Sublist reports) :
      Climbed bundle (some phase) (sent ++ reports)

variable {bundle : Bundle} {rest new : List Entry} {progress advanced : SessionProgress}

theorem Silent.append (first : Silent rest) (second : Silent new) : Silent (rest ++ new) := by
  intro phase listed
  rcases List.mem_append.mp listed with before | behind
  · exact first phase before
  · exact second phase behind

theorem Unready.append (first : Unready rest) (second : Unready new) : Unready (rest ++ new) := by
  intro listed
  rcases List.mem_append.mp listed with before | behind
  · exact first before
  · exact second behind

theorem Climbed.quiet {reached : Option SessionPhase} (climbs : Climbed bundle reached rest)
    (silent : Silent new) : Climbed bundle reached (rest ++ new) := by
  cases climbs with
  | below low before => exact .below low (before.append silent)
  | above owned before complete ladder =>
    rw [List.append_assoc]
    exact .above owned before complete (ladder.trans (List.sublist_append_left _ _))

theorem Climbed.sent (climbs : Climbed bundle progress.reached rest)
    (reached : progress.reach .bundleSent = .ok advanced) (silent : Silent new) :
    Climbed bundle advanced.reached (rest ++ new) := by
  rcases reach_climbs reached with ⟨same, _⟩ | ⟨required, top⟩
  · rw [same]
    exact climbs.quiet silent
  · rw [← required] at climbs
    rw [top]
    cases climbs with
    | below low before => exact .below rfl (before.append silent)
    | above owned before complete ladder => cases owned

theorem Climbed.reported {phase : SessionPhase} (climbs : Climbed bundle progress.reached rest)
    (reached : progress.reach phase = .ok advanced) (owned : phase.reportedByRunner = true)
    (heard : heardProgress phase ∈ new)
    (complete : phase = .bundleReceived → AllSent bundle rest) :
    Climbed bundle advanced.reached (rest ++ new) := by
  rcases progress with ⟨old⟩
  have told : [heardProgress phase].Sublist new := List.singleton_sublist.mpr heard
  cases climbs with
  | @below previous rest low silent =>
    rcases reach_climbs reached with ⟨_, stays⟩ | ⟨required, top⟩
    · exact absurd stays (Nat.not_le.mpr (rank_owned low owned))
    · rw [top]
      have first : phase = .bundleReceived := by
        cases previous <;> cases low <;> cases phase <;> cases owned <;> cases required
        rfl
      refine .above owned silent (complete first) ?_
      rw [climbed_next owned required]
      cases previous <;> cases low <;> exact told
  | @above previous sent reports ours silent all ladder =>
    rw [List.append_assoc]
    rcases reach_climbs reached with ⟨same, _⟩ | ⟨required, top⟩
    · rw [same]
      exact .above ours silent all (ladder.trans (List.sublist_append_left _ _))
    · rw [top]
      refine .above owned silent all ?_
      rw [climbed_next owned required, List.map_append]
      exact ladder.append told

/-! ## Runs -/

/-- The runner asks for every payload of the manifest before it reports the bundle as
received. -/
def Prompt (bundle : Bundle) (arrivals : List Arrival) : Prop :=
  ∀ before arrival after, arrivals = before ++ arrival :: after →
    arrival.input = .message (.progress .bundleReceived) →
      ∀ payload ∈ bundle.manifest.payloads, ∃ asked ∈ before,
        asked.input = .message (.requestPayload payload.name)

theorem Prompt.before {arrivals : List Arrival} {arrival : Arrival}
    (prompt : Prompt bundle (arrivals ++ [arrival])) : Prompt bundle arrivals := by
  intro before other after same
  apply prompt before other (after ++ [arrival])
  rw [same, List.append_assoc]
  rfl

theorem Prompt.last {arrivals : List Arrival} {arrival : Arrival}
    (prompt : Prompt bundle (arrivals ++ [arrival]))
    (received : arrival.input = .message (.progress .bundleReceived)) :
    ∀ payload ∈ bundle.manifest.payloads, ∃ asked ∈ arrivals,
      asked.input = .message (.requestPayload payload.name) :=
  prompt arrivals arrival [] rfl received

/-- Every payload asked for that the bundle has was sent. -/
def Answered (bundle : Bundle) (arrivals : List Arrival) (transcript : List Entry) : Prop :=
  ∀ arrival ∈ arrivals, ∀ name bytes, arrival.input = .message (.requestPayload name) →
    bundle.payloadByName name = some bytes → .wrote (.payload name bytes) ∈ transcript

theorem Answered.append {arrivals : List Arrival} {arrival : Arrival}
    (answered : Answered bundle arrivals rest)
    (latest : ∀ name bytes, arrival.input = .message (.requestPayload name) →
      bundle.payloadByName name = some bytes → .wrote (.payload name bytes) ∈ new) :
    Answered bundle (arrivals ++ [arrival]) (rest ++ new) := by
  intro other member name bytes asked found
  rcases List.mem_append.mp member with before | last
  · exact List.mem_append_left _ (answered other before name bytes asked found)
  · rw [List.mem_singleton.mp last] at asked
    exact List.mem_append_right _ (latest name bytes asked found)

/-- A session on the way to ready, and what its transcript holds. -/
structure Starting (bundle : Bundle) (headless : Bool) (peer : String) (arrivals : List Arrival)
    (rest : List Entry) (session : LiveSession) : Prop where
  stage : session.stage = .starting
  serves : session.bundle = bundle
  mode : session.headless = headless
  transcript : session.transcript = opening bundle peer ++ rest
  unready : Unready rest
  answered : Answered bundle arrivals rest
  climbs : Climbed bundle session.progress.reached rest

/-- What holds of a session after arrivals. -/
inductive Held (bundle : Bundle) (headless : Bool) (peer : String) (arrivals : List Arrival) :
    LiveSession → Prop
  | waiting (unheard : ∀ arrival ∈ arrivals, ∀ message, arrival.input ≠ .message message) :
      Held bundle headless peer arrivals (LiveSession.fresh bundle headless peer)
  | starting {rest : List Entry} {session : LiveSession}
      (starting : Starting bundle headless peer arrivals rest session) :
      Held bundle headless peer arrivals session
  | ready {session : LiveSession} (later : Later session.stage)
      (sound : ReadySoundly bundle headless peer session.transcript) :
      Held bundle headless peer arrivals session
  | failed {error : ServerError} {session : LiveSession} (stage : session.stage = .failed error)
      (unready : Unready session.transcript) : Held bundle headless peer arrivals session

variable {headless : Bool} {peer : String} {arrivals : List Arrival} {arrival : Arrival}

theorem ReadySoundly.append {transcript : List Entry}
    (sound : ReadySoundly bundle headless peer transcript) (unready : Unready new) :
    ReadySoundly bundle headless peer (transcript ++ new) := by
  rcases sound with ⟨sent, reports, later, same, before, behind, facts⟩
  refine ⟨sent, reports, later ++ new, ?_, before, behind.append unready, facts⟩
  rw [same, List.append_assoc]
  rfl

theorem opening_unready (bundle : Bundle) (peer : String) : Unready (opening bundle peer) := by
  simp [Unready, opening]

theorem payload_asked (enough : bundle.payloads.length = bundle.manifest.payloads.length)
    {payload : PayloadEntry} (listed : payload ∈ bundle.manifest.payloads) :
    ∃ bytes, bundle.payloadByName payload.name = some bytes := by
  have found : (bundle.manifest.payloads.findIdx? fun entry => entry.name == payload.name).isSome := by
    rw [List.findIdx?_isSome, List.any_eq_true]
    exact ⟨payload, listed, beq_self_eq_true _⟩
  rcases Option.isSome_iff_exists.mp found with ⟨index, at_index⟩
  have inside : index < bundle.payloads.length := by
    rw [enough]
    exact (List.findIdx?_eq_some_iff_findIdx_eq.mp at_index).1
  exact ⟨bundle.payloads[index], by simp [Bundle.payloadByName, at_index, inside]⟩

theorem Answered.allSent (enough : bundle.payloads.length = bundle.manifest.payloads.length)
    (answered : Answered bundle arrivals rest)
    (asked : ∀ payload ∈ bundle.manifest.payloads, ∃ asked ∈ arrivals,
      asked.input = .message (.requestPayload payload.name)) : AllSent bundle rest := by
  intro payload listed
  rcases payload_asked enough listed with ⟨bytes, found⟩
  rcases asked payload listed with ⟨request, before, name⟩
  exact ⟨bytes, found, answered request before _ _ name found⟩

theorem Climbed.ready {reached : Option SessionPhase} (climbs : Climbed bundle reached rest)
    (ready : SessionProgress.ready ⟨reached⟩ headless = .ok ()) :
    ∃ sent reports, rest = sent ++ reports ∧ Silent sent ∧ AllSent bundle sent ∧
      ((climbed (requiredPhase headless)).map heardProgress).Sublist reports := by
  have enough := ready_climbed ready
  cases climbs with
  | below low silent =>
    have runner : (requiredPhase headless).reportedByRunner = true := by
      cases headless <;> rfl
    exact absurd enough (Nat.not_le.mpr (rank_owned low runner))
  | above owned silent complete ladder =>
    exact ⟨_, _, rfl, silent, complete, ((climbed_sublist enough).map _).trans ladder⟩

theorem Starting.step (enough : bundle.payloads.length = bundle.manifest.payloads.length)
    (prompt : Prompt bundle (arrivals ++ [arrival]))
    (starting : Starting bundle headless peer arrivals rest session)
    (asked : arrival.input = .message message)
    (step : StartStep session message after.stage after) :
    Held bundle headless peer (arrivals ++ [arrival]) after := by
  generalize stage : after.stage = ended at step
  have told : ∀ {new}, Adds session after new →
      after.transcript = opening bundle peer ++ (rest ++ new) := by
    intro new adds
    rw [adds.transcript, starting.transcript, List.append_assoc]
  cases step with
  | @quiet _ new adds unready silent absent progress =>
    refine .starting ⟨stage, adds.bundle.trans starting.serves,
      adds.headless.trans starting.mode, told adds, starting.unready.append ?_,
      starting.answered.append ?_, ?_⟩
    · intro listed
      rcases List.mem_cons.mp listed with same | later
      · cases same
      · exact unready later
    · intro name bytes request found
      rw [asked] at request
      cases request
      have none := absent name rfl
      rw [starting.serves, found] at none
      cases none
    · rw [progress]
      exact starting.climbs.quiet silent
  | @sent _ name bytes request found adds reached =>
    refine .starting ⟨stage, adds.bundle.trans starting.serves,
      adds.headless.trans starting.mode, told adds, starting.unready.append ?_,
      starting.answered.append ?_, starting.climbs.sent reached ?_⟩
    · simp [Unready]
    · intro other others wanted has
      rw [asked, request] at wanted
      cases wanted
      rw [starting.serves, has] at found
      cases found
      simp
    · rw [request]
      simp [Silent]
  | @reported _ phase event request owned plain adds reached =>
    refine .starting ⟨stage, adds.bundle.trans starting.serves,
      adds.headless.trans starting.mode, told adds, starting.unready.append ?_,
      starting.answered.append ?_, starting.climbs.reported reached owned ?_ ?_⟩
    · simp [Unready, plain.symm]
    · intro name bytes wanted
      rw [asked, request] at wanted
      cases wanted
    · simp [request, heardProgress]
    · intro first
      rw [request, first] at asked
      exact starting.answered.allSent enough (prompt.last asked)
  | @readied _ phase event request owned plain adds reached ready =>
    have climbs : Climbed bundle after.progress.reached (rest ++ [.heard message, .event event]) := by
      apply starting.climbs.reported reached owned
      · simp [request, heardProgress]
      · intro first
        rw [request, first] at asked
        exact starting.answered.allSent enough (prompt.last asked)
    rw [starting.mode] at ready
    rcases climbs.ready ready with ⟨sent, reports, same, silent, complete, ladder⟩
    refine .ready (Or.inl stage) ⟨sent, reports, [], ?_, ?_, List.not_mem_nil, silent, complete,
      ladder⟩
    · rw [told adds, ← same]
      simp
    · rw [← same]
      apply starting.unready.append
      simp [Unready, plain.symm]

theorem Held.sound (held : Held bundle headless peer arrivals session)
    (later : Later session.stage) : ReadySoundly bundle headless peer session.transcript := by
  cases held with
  | waiting unheard => simp [Later, LiveSession.fresh] at later
  | starting starting => simp [Later, starting.stage] at later
  | ready _ sound => exact sound
  | failed stage _ => simp [Later, stage] at later

theorem Held.reported (held : Held bundle headless peer arrivals session)
    (reported : .event .sessionReady ∈ session.transcript) :
    ReadySoundly bundle headless peer session.transcript := by
  cases held with
  | waiting unheard => exact absurd reported List.not_mem_nil
  | starting starting =>
    rw [starting.transcript] at reported
    exact absurd reported ((opening_unready bundle peer).append starting.unready)
  | ready later sound => exact sound
  | failed stage unready => exact absurd reported unready

theorem Held.greeted (held : Held bundle headless peer arrivals session)
    (was : session.stage = .greeting) :
    session = LiveSession.fresh bundle headless peer ∧
      ∀ arrival ∈ arrivals, ∀ message, arrival.input ≠ .message message := by
  cases held with
  | waiting unheard => exact ⟨rfl, unheard⟩
  | starting starting => simp [starting.stage] at was
  | ready later _ => simp [Later, was] at later
  | failed stage _ => simp [stage] at was

theorem Held.started (held : Held bundle headless peer arrivals session)
    (was : session.stage = .starting) : ∃ rest, Starting bundle headless peer arrivals rest session := by
  cases held with
  | waiting unheard => simp [LiveSession.fresh] at was
  | starting starting => exact ⟨_, starting⟩
  | ready later _ => simp [Later, was] at later
  | failed stage _ => simp [stage] at was

theorem Held.step (decision : BundleManifest → BundleManifest → Bool → ReloadDecision)
    (enough : bundle.payloads.length = bundle.manifest.payloads.length)
    (prompt : Prompt bundle (arrivals ++ [arrival])) (held : Held bundle headless peer arrivals session) :
    Held bundle headless peer (arrivals ++ [arrival]) (session.step decision arrival) := by
  cases session_step decision session arrival with
  | ignored same unheard =>
    rw [same]
    cases held with
    | waiting before =>
      refine .waiting ?_
      intro other member message asked
      rcases List.mem_append.mp member with earlier | last
      · exact before other earlier message asked
      · rw [List.mem_singleton.mp last] at asked
        rcases unheard message asked with ⟨error, failed⟩
        cases failed
    | @starting rest _ starting =>
      refine .starting ⟨starting.stage, starting.serves, starting.mode, starting.transcript,
        starting.unready, ?_, starting.climbs⟩
      intro other member name bytes asked
      rcases List.mem_append.mp member with earlier | last
      · exact starting.answered other earlier name bytes asked
      · rw [List.mem_singleton.mp last] at asked
        rcases unheard _ asked with ⟨error, failed⟩
        rw [starting.stage] at failed
        cases failed
    | ready later sound => exact .ready later sound
    | failed stage unready => exact .failed stage unready
  | failed early stage calm =>
    rcases calm.spoke with ⟨new, transcript, unready⟩
    have before : Unready session.transcript := by
      cases held with
      | waiting unheard => exact List.not_mem_nil
      | starting starting =>
        rw [starting.transcript]
        exact (opening_unready bundle peer).append starting.unready
      | ready later sound => rcases later with was | was <;> rw [was] at early <;> simp at early
      | failed stage unready => exact unready
    refine .failed stage ?_
    rw [transcript]
    exact before.append unready
  | settled was later calm =>
    rcases calm.spoke with ⟨new, transcript, unready⟩
    refine .ready later ?_
    rw [transcript]
    exact (held.sound was).append unready
  | patched was asked found later adds reached =>
    refine .ready later ?_
    rw [adds.transcript]
    exact (held.sound (Or.inr was)).append (by simp [Unready])
  | greeted was asked stage adds reached =>
    rcases held.greeted was with ⟨rfl, unheard⟩
    refine .starting ⟨stage, adds.bundle, adds.headless, adds.transcript, List.not_mem_nil, ?_, ?_⟩
    · intro other member name bytes wanted
      rcases List.mem_append.mp member with earlier | last
      · exact absurd wanted (unheard other earlier _)
      · rw [List.mem_singleton.mp last, asked] at wanted
        cases wanted
    · rcases reach_climbs reached with ⟨_, stays⟩ | ⟨_, top⟩
      · cases stays
      · rw [top]
        exact .below rfl fun _ => List.not_mem_nil
  | started was asked step =>
    rcases held.started was with ⟨rest, starting⟩
    exact starting.step enough prompt asked step

theorem run_held (decision : BundleManifest → BundleManifest → Bool → ReloadDecision)
    (enough : bundle.payloads.length = bundle.manifest.payloads.length)
    (prompt : Prompt bundle arrivals) :
    Held bundle headless peer arrivals
      ((LiveSession.fresh bundle headless peer).run decision arrivals) := by
  induction arrivals using List.reverseRecOn with
  | nil => exact .waiting fun _ member => absurd member List.not_mem_nil
  | append_singleton arrivals arrival ih =>
    rw [LiveSession.run, List.foldl_append]
    exact (ih prompt.before).step decision enough prompt

/-! ## Who advances a milestone -/

/-- What a milestone that a step reaches rests on: a greeting, a payload that was sent, or a
report of one that is the runner's. -/
inductive Advance (session : LiveSession) (input : Input) (after : LiveSession) : Prop
  | connected (greeted : input = .message (.hello protocolVersion session.bundle.manifest.runner))
      (welcomed : .wrote (.welcome protocolVersion) ∈ after.transcript)
      (reached : after.progress.reached = some .connected)
  | bundleSent {name : String} {bytes : List UInt8}
      (asked : input = .message (.requestPayload name))
      (found : session.bundle.payloadByName name = some bytes)
      (sent : .wrote (.payload name bytes) ∈ after.transcript)
      (reached : after.progress.reached = some .bundleSent)
  | reported {phase : SessionPhase} (asked : input = .message (.progress phase))
      (owned : phase.reportedByRunner = true) (reached : after.progress.reached = some phase)

/-- A step keeps the progress, or moves it forward as it may. -/
def Advances (session : LiveSession) (input : Input) (after : LiveSession) : Prop :=
  after.progress = session.progress ∨
    session.progress.rank < after.progress.rank ∧ Advance session input after

theorem reach_advances {input : Input}
    (reached : session.progress.reach phase = .ok after.progress)
    (advance : after.progress.reached = some phase → Advance session input after) :
    Advances session input after := by
  rcases reach_climbs reached with ⟨same, _⟩ | ⟨required, top⟩
  · exact Or.inl same
  · refine Or.inr ⟨?_, advance top⟩
    rw [SessionProgress.rank, SessionProgress.rank, top, ← required]
    cases phase <;> decide

theorem step_advances (decision : BundleManifest → BundleManifest → Bool → ReloadDecision)
    (session : LiveSession) (arrival : Arrival) :
    Advances session arrival.input (session.step decision arrival) := by
  cases session_step decision session arrival with
  | ignored same unheard =>
    rw [same]
    exact Or.inl rfl
  | failed early stage calm => exact Or.inl calm.progress
  | settled was later calm => exact Or.inl calm.progress
  | patched was asked found later adds reached =>
    apply reach_advances reached
    refine .bundleSent asked found ?_
    simp [adds.transcript]
  | greeted was asked stage adds reached =>
    apply reach_advances reached
    refine .connected asked ?_
    simp [adds.transcript]
  | started was asked step =>
    generalize (session.step decision arrival).stage = stage at step
    cases step with
    | quiet adds unready silent absent progress => exact Or.inl progress
    | sent request found adds reached =>
      apply reach_advances reached
      rw [asked, request]
      refine .bundleSent rfl found ?_
      simp [adds.transcript]
    | reported request owned plain adds reached =>
      apply reach_advances reached
      rw [asked, request]
      exact .reported rfl owned
    | readied request owned plain adds reached ready =>
      apply reach_advances reached
      rw [asked, request]
      exact .reported rfl owned

theorem Obtained.enough {contentHash : List UInt8 → ContentHash} {names : List String}
    (obtained : Obtained contentHash names bundle) :
    bundle.payloads.length = bundle.manifest.payloads.length := by
  cases obtained with
  | built built => exact (build_ok built).2.2.length_eq.symm
  | assembled assembled => exact (assemble_ok assembled).2.2.length_eq.symm
  | read read => exact (read_ok read).2.length_eq.symm

/-- A session whose runner asks for every payload before it reports the bundle as received
is ready only as it should be, and its progress only goes forward, by the end whose
milestone it is. -/
theorem prompt_readiness_is_sound {contentHash : List UInt8 → ContentHash} {names : List String}
    {bundle : Bundle} (obtained : Obtained contentHash names bundle)
    (decision : BundleManifest → BundleManifest → Bool → ReloadDecision) (headless : Bool)
    (peer : String) {arrivals : List Arrival} (prompt : Prompt bundle arrivals) :
    let session := (LiveSession.fresh bundle headless peer).run decision arrivals
    ((Later session.stage ∨ .event .sessionReady ∈ session.transcript) →
        ReadySoundly bundle headless peer session.transcript) ∧
      ∀ arrival, Advances session arrival.input (session.step decision arrival) := by
  intro session
  constructor
  · have held : Held bundle headless peer arrivals session :=
      run_held decision obtained.enough prompt
    rintro (later | reported)
    · exact held.sound later
    · exact held.reported reported
  · exact step_advances decision session

/-- A runner that says these things over a link that never fails. -/
def speaks (messages : List ClientMessage) : List Arrival :=
  messages.map fun message => ⟨.message message, fun _ => none⟩

/-- A runner's greeting, its requests and its reports up to the entrypoint. -/
def bringUp (names : List String) : List Arrival :=
  speaks (.hello protocolVersion .desktop :: names.map .requestPayload ++
    [.progress .bundleReceived, .progress .bundleLoaded, .progress .bundleLinked,
      .progress .entrypointStarted])

def twoPayloads : List NamedPayload :=
  [⟨"app.kbc", .vmBytecode, [1, 2]⟩, ⟨"logo.png", .asset, [7]⟩]

def twoPayloadBundle : Bundle :=
  ⟨⟨.desktop, .debug, [⟨"app.kbc", .vmBytecode, firstBytes [1, 2], 2⟩,
    ⟨"logo.png", .asset, firstBytes [7], 1⟩], 0⟩, [[1, 2], [7]]⟩

theorem twoPayloads_built :
    Bundle.build firstBytes .desktop .debug twoPayloads 0 = .ok twoPayloadBundle := by
  decide

theorem prompt_of_asked {first rest : List Arrival}
    (early : ∀ arrival ∈ first, arrival.input ≠ .message (.progress .bundleReceived))
    (asked : ∀ payload ∈ bundle.manifest.payloads, ∃ arrival ∈ first,
      arrival.input = .message (.requestPayload payload.name)) : Prompt bundle (first ++ rest) := by
  intro before arrival after same received payload listed
  rcases asked payload listed with ⟨request, member, named⟩
  refine ⟨request, ?_, named⟩
  rcases List.append_eq_append_iff.mp same with ⟨between, whole, _⟩ | ⟨between, whole, tail⟩
  · rw [whole]
    exact List.mem_append_left _ member
  · cases between with
    | nil =>
      rw [List.append_nil] at whole
      rw [whole] at member
      exact member
    | cons other between =>
      cases tail
      refine absurd received (early arrival ?_)
      rw [whole]
      exact List.mem_append_right _ List.mem_cons_self

theorem bringUp_prompt : Prompt twoPayloadBundle (bringUp ["app.kbc", "logo.png"]) := by
  have split : bringUp ["app.kbc", "logo.png"] = (bringUp ["app.kbc", "logo.png"]).take 3 ++
      (bringUp ["app.kbc", "logo.png"]).drop 3 := (List.take_append_drop _ _).symm
  rw [split]
  apply prompt_of_asked
  · simp [bringUp, speaks]
  · simp [bringUp, speaks, twoPayloadBundle]

theorem two_payloads_are_ready :
    let session := (LiveSession.fresh twoPayloadBundle true "runner").run
      (fun _ _ _ => .unchanged) (bringUp ["app.kbc", "logo.png"])
    session.stage = .ready ∧ ReadySoundly twoPayloadBundle true "runner" session.transcript := by
  intro session
  have stage : session.stage = .ready := by decide
  have sound := prompt_readiness_is_sound (.built twoPayloads_built) (fun _ _ _ => .unchanged) true
    "runner" bringUp_prompt
  exact ⟨stage, sound.1 (Or.inl (Or.inl stage))⟩

/-- A session is reported ready though a payload of its manifest was never sent. -/
theorem ready_with_a_payload_unsent :
    Bundle.build firstBytes .desktop .debug twoPayloads 0 = .ok twoPayloadBundle ∧
      let session := (LiveSession.fresh twoPayloadBundle true "runner").run
        (fun _ _ _ => .unchanged) (bringUp ["app.kbc"])
      session.stage = .ready ∧ .event .sessionReady ∈ session.transcript ∧
        ¬ AllSent twoPayloadBundle session.transcript := by
  refine ⟨twoPayloads_built, by decide, by decide, ?_⟩
  intro complete
  rcases complete ⟨"logo.png", .asset, firstBytes [7], 1⟩ (by decide) with
    ⟨bytes, found, sent⟩
  have same : some [7] = some bytes := by
    rw [← found]
    decide
  cases same
  revert sent
  decide

end KiraLive

end KiraVm
