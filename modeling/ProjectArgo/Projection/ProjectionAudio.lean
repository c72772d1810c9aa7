import ProjectArgo.Audio.AudioService

/-!
# Audio of projection sessions

The projection service keeps the audio service in step with the streams of the latest
snapshot: each stream is a source, active as the stream is, which holds the focus while
the stream does. A pass goes through the sources one by one and awaits each operation.
What goes wrong with one source does not keep the pass from the others, and a later
pass tries again. For this the service has its own record of what it registered, set
active and holds the focus with. A newer snapshot ends the pass at its next check.
-/
namespace ProjectArgo.Projection

open Library Audio Audio.AudioService

inductive ProjectionAudioRole
  | media
  | speech
  | system
  | communication
  deriving DecidableEq

def audioRoleForProjection : ProjectionAudioRole → AudioSourceRole
  | .media => .media
  | .speech => .navigation
  | .system => .system
  | .communication => .communication

structure ProjectionAudioStream where
  id : String
  sessionId : String
  role : ProjectionAudioRole
  active : Bool
  hasFocus : Bool
  deriving DecidableEq

structure ProjectionSession where
  id : String
  audioStreams : List ProjectionAudioStream
  deriving DecidableEq

/-- `_DefaultAudioFocusHandle`, with the outcome of its release once there was one. -/
structure AudioFocusHandle where
  id : ℕ
  future : Option Bool := none
  deriving DecidableEq

/-- The service with the audio service, none of whose operations is under way. -/
structure ProjectionService where
  audio : AudioService
  focusHandles : String → Option AudioFocusHandle := fun _ => none
  focusDuckingGains : String → Option UnitGain := fun _ => none
  registeredAudioSources : List String := []
  sourceActivity : String → Option Bool := fun _ => none
  focusFailed : Bool := false

/-- What reaches the service while it awaits something. -/
inductive Signal
  | reply (ok : Bool)
  | backend (routing : Bool)
  | snapshot
  deriving DecidableEq

/-- A pass under way: the signals to come, and whether a newer snapshot has come. -/
structure AudioPass where
  service : ProjectionService
  signals : List Signal
  superseded : Bool := false

/-! ## Streams -/

/-- `_stablePart`. What lowercasing does is left open; a character beyond the first
plane counts twice. -/
def stablePart (toLowerCase : String → String) (value : String) : String :=
  let normalized := (toLowerCase value).toList.flatMap fun c =>
    if c.isLower || c.isDigit || c = '_' || c = '-' then [c]
    else if c.toNat < 0x10000 then ['_'] else ['_', '_']
  if normalized.isEmpty then "stream" else String.ofList normalized

def audioSourceId (toLowerCase : String → String) (stream : ProjectionAudioStream) : String :=
  "projection." ++ stablePart toLowerCase stream.sessionId ++ "." ++ stablePart toLowerCase stream.id

/-- A stream under its source id, with the gain that the phone asks others to take. -/
structure AudioEntry where
  sourceId : String
  stream : ProjectionAudioStream
  phoneGain : Option UnitGain
  deriving DecidableEq

/-- The value of a key is replaced where it is, or added at the end. -/
def AudioEntry.put (entries : List AudioEntry) (entry : AudioEntry) : List AudioEntry :=
  if entries.any (·.sourceId = entry.sourceId) then
    entries.map fun other => if other.sourceId = entry.sourceId then entry else other
  else entries ++ [entry]

def phoneDuck (session : ProjectionSession) : ProjectionAudioStream :=
  { id := "phone-requested-duck", sessionId := session.id, role := .speech, active := true,
    hasFocus := true }

/-- The streams of a snapshot, and one more for each phone that ducks the others. -/
def audioEntries (toLowerCase : String → String) (duckLevels : String → Option UnitGain)
    (sessions : List ProjectionSession) : List AudioEntry :=
  let streams := (sessions.flatMap (·.audioStreams)).map fun stream =>
    ⟨audioSourceId toLowerCase stream, stream, none⟩
  let ducks := sessions.filterMap fun session =>
    match duckLevels session.id with
    | some gain => if gain.val < 1 then
        some ⟨audioSourceId toLowerCase (phoneDuck session), phoneDuck session, some gain⟩
      else none
    | none => none
  (streams ++ ducks).foldl AudioEntry.put []

/-- A phone that ducks others is not heard itself. -/
def AudioEntry.source (entry : AudioEntry) : AudioSource where
  id := entry.sourceId
  role := audioRoleForProjection entry.stream.role
  gain := if entry.phoneGain.isSome then ⟨0, UnitGain.zero_unit⟩ else ⟨1, UnitGain.one_unit⟩

def AudioEntry.wantsFocus (entry : AudioEntry) : Bool :=
  entry.stream.active && entry.stream.hasFocus

namespace AudioPass

/-! ## Awaiting the audio service -/

/-- Signals that nobody waits for. -/
def absorb (pass : AudioPass) : AudioPass :=
  go pass.service pass.superseded pass.signals
where
  go (service : ProjectionService) (superseded : Bool) : List Signal → AudioPass
    | .backend routing :: rest =>
      go { service with audio := { service.audio with routing := routing } } superseded rest
    | .snapshot :: rest => go service true rest
    | signals => ⟨service, signals, superseded⟩

/-- An operation of the audio service runs to its end, which it does not reach while a
native call has no reply. -/
def drive (service : ProjectionService) (superseded : Bool) :
    AudioService → Option Await → List Act → List Signal → Option (AudioPass × List Act)
  | audio, none, acts, signals =>
    some (absorb ⟨{ service with audio := audio }, signals, superseded⟩, acts)
  | _, some _, _, [] => none
  | audio, some await, acts, .reply ok :: rest =>
    let piece := audio.goOn await ok
    drive service superseded piece.1 piece.2.1 (acts ++ piece.2.2) rest
  | audio, some await, acts, .backend routing :: rest =>
    drive service superseded { audio with routing := routing } (some await) acts rest
  | audio, some await, acts, .snapshot :: rest =>
    drive service true audio (some await) acts rest

def perform (pass : AudioPass) (called : AudioService.Call) : Option (AudioPass × List Act) :=
  let asked := call ⟨pass.service.audio, [], none⟩ called
  let started := asked.1.next body
  drive pass.service pass.superseded started.1.state started.1.current (asked.2 ++ started.2)
    pass.signals

/-- `release`: the audio service is asked once, and its answer stays. -/
def release (pass : AudioPass) (handle : AudioFocusHandle) :
    Option (AudioPass × AudioFocusHandle × Bool) :=
  match handle.future with
  | some ok => some (pass.absorb, handle, ok)
  | none => do
    let (pass, acts) ← pass.perform (.release handle.id)
    let ok := .completed ∈ acts
    some (pass, { handle with future := some ok }, ok)

/-! ## The records -/

def setHandle (pass : AudioPass) (sourceId : String) (handle : Option AudioFocusHandle) :
    AudioPass :=
  { pass with service := { pass.service with
      focusHandles := Function.update pass.service.focusHandles sourceId handle } }

def setDuckingGain (pass : AudioPass) (sourceId : String) (gain : Option UnitGain) : AudioPass :=
  { pass with service := { pass.service with
      focusDuckingGains := Function.update pass.service.focusDuckingGains sourceId gain } }

def setActivity (pass : AudioPass) (sourceId : String) (active : Option Bool) : AudioPass :=
  { pass with service := { pass.service with
      sourceActivity := Function.update pass.service.sourceActivity sourceId active } }

def setRegistered (pass : AudioPass) (sourceIds : List String) : AudioPass :=
  { pass with service := { pass.service with registeredAudioSources := sourceIds } }

def failedAudio (pass : AudioPass) : AudioPass :=
  { pass with service := { pass.service with focusFailed := true } }

/-! ## `_releaseSource` -/

/-- The handle that is kept for the source is released, and forgotten if that succeeds. -/
def releaseKept (pass : AudioPass) (sourceId : String) : Option (AudioPass × Bool) :=
  match pass.service.focusHandles sourceId with
  | none => some (pass.absorb, true)
  | some handle => do
    let (pass, handle, ok) ← pass.release handle
    some (pass.setHandle sourceId (if ok then none else some handle), ok)

/-- The source is unregistered even if its handle could not be released. -/
def releaseSource (pass : AudioPass) (sourceId : String) : Option (AudioPass × Bool) := do
  let (pass, released) ← pass.releaseKept sourceId
  let (pass, acts) ← pass.perform (.unregisterSource sourceId)
  if .completed ∈ acts then
    let pass := pass.setRegistered (pass.service.registeredAudioSources.filter (· ≠ sourceId))
    let pass := (pass.setDuckingGain sourceId none).setActivity sourceId none
    some (pass.setHandle sourceId none, released)
  else some (pass, false)

/-! ## `_synchronizeAudio` -/

/-- How far the pass came with one stream. -/
inductive Progress
  | through
  | failed
  | left
  deriving DecidableEq

def registerStream (pass : AudioPass) (entry : AudioEntry) : Option (AudioPass × Progress) :=
  if entry.sourceId ∈ pass.service.registeredAudioSources then some (pass, .through)
  else if isStableId entry.sourceId then do
    let (pass, acts) ← pass.perform (.registerSource entry.source)
    if .completed ∈ acts then
      some (pass.setRegistered (pass.service.registeredAudioSources ++ [entry.sourceId]), .through)
    else some (pass, .failed)
  else some (pass, .failed)

def activateStream (pass : AudioPass) (entry : AudioEntry) : Option (AudioPass × Progress) :=
  if pass.service.sourceActivity entry.sourceId = some entry.stream.active then
    some (pass, .through)
  else do
    let (pass, acts) ← pass.perform (.setSourceActive entry.sourceId entry.stream.active)
    if .completed ∈ acts then
      some (pass.setActivity entry.sourceId (some entry.stream.active), .through)
    else some (pass, .failed)

/-- The handle of a request that was granted. -/
def grantedHandle : List Act → Option AudioFocusHandle
  | .returned id :: _ => some ⟨id, none⟩
  | _ :: rest => grantedHandle rest
  | [] => none

/-- A request is made when there is none, and again when the phone changes its gain. -/
def asksFocus (pass : AudioPass) (entry : AudioEntry) : Bool :=
  entry.wantsFocus && ((pass.service.focusHandles entry.sourceId).isNone ||
    (entry.phoneGain.isSome && pass.service.focusDuckingGains entry.sourceId ≠ entry.phoneGain))

def acquireFocus (pass : AudioPass) (entry : AudioEntry) : Option (AudioPass × Progress) := do
  let (pass, acts) ← pass.perform
    (.requestFocus entry.sourceId (entry.phoneGain.map Subtype.val))
  match grantedHandle acts with
  | none => some (pass, .failed)
  | some next =>
    let previous := pass.service.focusHandles entry.sourceId
    let pass := pass.setHandle entry.sourceId (some next)
    let pass := if entry.phoneGain.isSome then
      pass.setDuckingGain entry.sourceId entry.phoneGain else pass
    match previous with
    | none => some (pass.absorb, .through)
    | some previous =>
      let (pass, _, ok) ← pass.release previous
      some (pass, if ok then .through else .failed)

def focusStream (pass : AudioPass) (entry : AudioEntry) : Option (AudioPass × Progress) :=
  if pass.asksFocus entry then pass.acquireFocus entry
  else if entry.wantsFocus then some (pass, .through)
  else do
    let (pass, ok) ← pass.releaseKept entry.sourceId
    if ok then some (pass, .through) else some (pass, .failed)

/-- The next step, unless the last one failed or a newer snapshot has come. -/
def thenUnlessSuperseded (step : AudioPass → Option (AudioPass × Progress)) :
    AudioPass × Progress → Option (AudioPass × Progress)
  | (pass, .through) => if pass.superseded then some (pass, .left) else step pass
  | ended => some ended

/-- One stream in the second loop. -/
def synchronizeStream (pass : AudioPass) (entry : AudioEntry) : Option (AudioPass × Progress) :=
  if pass.superseded then some (pass, .left)
  else do
    let registered ← pass.registerStream entry
    let activated ← thenUnlessSuperseded (·.activateStream entry) registered
    thenUnlessSuperseded (·.focusStream entry) activated

/-- The first loop. The flag says that something failed. -/
def releaseAbsent (entries : List AudioEntry) :
    List String → AudioPass × Bool → Option (AudioPass × Bool)
  | [], reached => some reached
  | sourceId :: rest, (pass, failed) =>
    if entries.any (·.sourceId = sourceId) then releaseAbsent entries rest (pass, failed)
    else do
      let (pass, ok) ← pass.releaseSource sourceId
      if ok then releaseAbsent entries rest (pass, failed)
      else releaseAbsent entries rest (pass.failedAudio, true)

/-- The second loop, and whether it came to its end. -/
def synchronizeStreams : List AudioEntry → AudioPass × Bool → Option (AudioPass × Bool)
  | [], (pass, failed) =>
    some (if failed then pass
      else { pass with service := { pass.service with focusFailed := false } }, true)
  | entry :: rest, (pass, failed) => do
    match ← pass.synchronizeStream entry with
    | (pass, .through) => synchronizeStreams rest (pass, failed)
    | (pass, .failed) => synchronizeStreams rest (pass.failedAudio, true)
    | (pass, .left) => some (pass, false)

end AudioPass

/-- A pass with these signals: what it leaves behind, and whether it came to its end. -/
def ProjectionService.synchronizeAudio (service : ProjectionService) (entries : List AudioEntry)
    (signals : List Signal) : Option (ProjectionService × Bool) := do
  let released ← AudioPass.releaseAbsent entries service.registeredAudioSources
    (⟨service, signals, false⟩, false)
  let (pass, complete) ← AudioPass.synchronizeStreams entries released
  some (pass.service, complete)

/-- The services after any passes over any snapshots. -/
inductive ProjectionService.Reachable (toLowerCase : String → String) (policy : AudioFocusPolicy) :
    ProjectionService → Prop
  | start (routing : Bool) :
      Reachable toLowerCase policy { audio := { routing := routing, policy := policy } }
  | backend {service : ProjectionService} (routing : Bool)
      (h : Reachable toLowerCase policy service) :
      Reachable toLowerCase policy
        { service with audio := { service.audio with routing := routing } }
  | pass {service after : ProjectionService} {complete : Bool}
      (duckLevels : String → Option UnitGain) (sessions : List ProjectionSession)
      (signals : List Signal) (h : Reachable toLowerCase policy service)
      (hpass : service.synchronizeAudio (audioEntries toLowerCase duckLevels sessions) signals =
        some (after, complete)) :
      Reachable toLowerCase policy after

end ProjectArgo.Projection
