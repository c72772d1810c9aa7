import ProjectArgo.Projection.DaemonState

/-!
# An Android Auto session after authentication

The session hands every message of the phone to the channels, carries out the
effects they answer with, and takes the host's commands. It publishes what the
host needs to know: above all, whether the video stream is to be shown. Each call
outside the session may fail, and a failed one ends it.
-/
namespace ProjectArgo.Projection

/-- What of `run_engine` decides about focus, and the snapshot it publishes. -/
structure Session where
  id : String
  channels : Channels
  snapshot : RuntimeSnapshot
  awaitingVideo : Bool := false
  streaming : Bool := false
  established : Bool := false
  running : Bool := true

/-- What the outside sees of a session. -/
inductive Act
  | sent (reply : Reply)
  | published (snapshot : RuntimeSnapshot)
  | hostReturned

/-- The host's commands, each for the session or the stream it names. -/
inductive Command
  | disconnect (target : String)
  | activate (target : String)
  | touch (target : String) (pointer phase : ℕ) (x y : Option ℚ) (timestamp : UInt64)
  | visibility (target : String) (visible : Bool)
  | gain (target stream : String)
  | mediaKey (session : String) (stale : Bool) (code : ℕ) (timestamp : UInt64)

/-- One turn of the session's loop; `calls` tells which of the calls outside succeed. -/
inductive Turn
  | message (channel id : ℕ) (body : List UInt8) (calls : ℕ → Bool)
  | command (command : Command) (calls : ℕ → Bool)
  | closed

/-- The effects of the channels, and what became of them. -/
structure TurnOutcome where
  effects : List Effect := []
  acts : List Act := []

namespace Session

/-- A session of the device, connecting, before its first message. -/
def start (id deviceId displayName : String) (display : Display) (offerHevc : Bool) : Session where
  id := id
  channels := Channels.withHevc display offerHevc
  snapshot := { RuntimeSnapshot.connecting deviceId displayName with
    session := some ⟨id, deviceId, .connecting, none⟩ }

def stop (session : Session) : Session := { session with running := false }

def publish (session : Session) (snapshot : RuntimeSnapshot) : Session × List Act :=
  ({ session with snapshot := snapshot }, [.published snapshot])

def statusOf (visible : Bool) : ProjectionSessionStatus :=
  if visible then .streaming else .suspended

/-- `set_visibility`: only a stream that the snapshot has can be shown. -/
def setVisibility (session : Session) (visible : Bool) : Session × List Act :=
  if session.snapshot.IsOf session.id then
    match session.snapshot.video with
    | some (display, _) => session.publish
        { session.snapshot with
          presentationRevision := nextRevision session.snapshot.presentationRevision
          video := some (display, visible)
          session := session.snapshot.session.map fun status =>
            { status with state := statusOf visible } }
    | none => session.publish session.snapshot
  else session.publish session.snapshot

/-- `Effect::Video`: a stream the host waits for is shown by its first picture. -/
def showVideo (session : Session) (requested : Bool) : Session × List Act :=
  let session := { session with streaming := true }
  let visible := requested && !session.awaitingVideo
  if session.snapshot.IsOf session.id then session.publish
    { session.snapshot with
      session := session.snapshot.session.map fun status =>
        { status with state := statusOf visible }
      video := some (session.channels.display.1, visible) }
  else session.publish session.snapshot

/-- `Effect::HostReturn`. -/
def returnToHost (session : Session) : Session × List Act :=
  let session := { session with awaitingVideo := false }
  let (session, acts) := session.publish
    (if session.snapshot.IsOf session.id then
      { session.snapshot with
        hostReturnRevision := nextRevision session.snapshot.hostReturnRevision }
    else session.snapshot)
  (session, acts ++ [.hostReturned])

/-- One effect. Capture and playback have calls of their own outside the session. -/
def perform (session : Session) (ok : Bool) : Effect → Session × List Act
  | .videoCodec codec =>
    if ok then session.publish { session.snapshot with videoCodec := codec }
    else (session.stop, [])
  | .microphone _ _ => (if ok then session else session.stop, [])
  | .microphoneStop => (if ok then session else session.stop, [])
  | .microphoneAck _ _ => (session, [])
  | .reply reply => if ok then (session, [.sent reply]) else (session.stop, [])
  | .sessionEnd => (session.stop, [])
  | .metadata _ => session.publish session.snapshot
  | .media channel _ =>
    if !ok then (session.stop, [])
    else if channel = 3 ∧ session.awaitingVideo = true then
      { session with awaitingVideo := false }.setVisibility true
    else (session, [])
  | .hostReturn => session.returnToHost
  | .audio channel active =>
    if active && !ok then (session.stop, [])
    else session.publish
      (if session.snapshot.IsOf session.id then
        { session.snapshot with audio := session.snapshot.audio.set (channel - 4) active }
      else session.snapshot)
  | .established => ({ session with established := true }, [])
  | .video visible => session.showVideo visible

/-- The effects in their order, until one of them ends the session. -/
def performAll (session : Session) : List (Effect × Bool) → Session × List Act
  | [] => (session, [])
  | (effect, ok) :: rest =>
    let (next, acts) := session.perform ok effect
    if next.running then
      let (last, more) := next.performAll rest
      (last, acts ++ more)
    else (next, acts)

/-- Each effect with the fate of its calls. -/
def fated (effects : List Effect) (calls : ℕ → Bool) : List (Effect × Bool) :=
  effects.zipIdx.map fun (effect, i) => (effect, calls i)

/-- The ping request has a timestamp. -/
def isTimed (body : List UInt8) : Bool :=
  match numbers body with
  | .ok fields => fields.contains 1
  | .error _ => false

/-- An encrypted message. Ping requests without a timestamp, and ping responses, only
concern the watchdog; service discovery is followed by the first ping. -/
def receive (session : Session) (channel id : ℕ) (body : List UInt8) (calls : ℕ → Bool) :
    Session × TurnOutcome :=
  if channel = 0 ∧ (id = 0x000c ∨ id = 0x000b ∧ isTimed body = false) then (session, {})
  else match session.channels.handle channel id body with
    | .error _ => (session.stop, {})
    | .ok (channels, effects) =>
      let (next, acts) := { session with channels := channels }.performAll (fated effects calls)
      let next := if channel = 0 ∧ id = 5 ∧ calls effects.length = false then next.stop else next
      (next, ⟨effects, acts⟩)

/-- The focus the host changes: field 2 marks it as unsolicited. -/
def hostFocus (visible : Bool) : Reply :=
  Reply.new 3 0x8008 ((({} : Proto).number 1 (if visible then 1 else 2)).number 2 1).finish

/-- The host shows or hides the stream. It is shown by the next picture. -/
def present (session : Session) (visible : Bool) (calls : ℕ → Bool) : Session × List Act :=
  let session := { session with
    channels := session.channels.setVideoRequested visible
    awaitingVideo := visible }
  let (session, acts) := session.setVisibility false
  let (session, sent) := session.performAll (fated [.reply (hostFocus visible)] calls)
  (session, acts ++ sent)

def obey (scaling : Channels.Scaling) (session : Session) (calls : ℕ → Bool) :
    Command → Session × List Act
  | .disconnect target =>
    if target = session.id then
      let (next, acts) := session.performAll
        (fated [answer 0 15 (({} : Proto).number 1 1)] calls)
      (next.stop, acts)
    else (session, [])
  | .mediaKey target stale code timestamp =>
    if target ≠ session.id ∨ stale = true then (session, [])
    else match session.channels.mediaKey code timestamp with
      | .error _ => (session, [])
      | .ok replies => session.performAll (fated (replies.map .reply) calls)
  | .touch target pointer phase x y timestamp =>
    if target = session.id then
      match session.channels.touch scaling pointer phase x y timestamp with
      | .error _ => (session.stop, [])
      | .ok (channels, reply) =>
        { session with channels := channels }.performAll (fated (reply.toList.map .reply) calls)
    else (session, [])
  | .activate target =>
    if target = session.id then session.present true calls else (session, [])
  | .visibility target visible =>
    if target = session.id ++ ":main" then session.present visible calls else (session, [])
  | .gain target stream =>
    if target = session.id ∧ (stream ∉ ["media", "speech", "system"] ∨ calls 0 = false) then
      (session.stop, [])
    else (session, [])

/-- One turn. A session that has ended takes none. -/
def step (scaling : Channels.Scaling) (session : Session) (turn : Turn) : Session × TurnOutcome :=
  if session.running then
    match turn with
    | .message channel id body calls => session.receive channel id body calls
    | .command command calls =>
      let (next, acts) := session.obey scaling calls command
      (next, ⟨[], acts⟩)
    | .closed => (session.stop, {})
  else (session, {})

end Session

end ProjectArgo.Projection
