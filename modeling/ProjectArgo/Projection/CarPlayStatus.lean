import ProjectArgo.Library.Json

/-!
# The status of the CarPlay daemon

The daemon answers each status request with an object, and the application makes a snapshot of it
that the rest of the application sees. Nothing in the object is taken without being looked at, and
whatever does not fit makes the backend unavailable.
-/
namespace ProjectArgo.Projection.CarPlayProjectionBackend

open Library (Json Double)

/-! ## Snapshots -/

inductive FailureKind
  | staleSession
  | busy
  | unsupported
  | rejected
  | timeout
  | missingService
  | internal
  deriving DecidableEq

/-- What is thrown while a status is asked for, and taken apart. -/
inductive Thrown
  | rejected (action : String) (code : Option String)
  | format (message : String)
  | timeout
  | socket
  | type
  deriving DecidableEq

/-- The cause of a failure is what was thrown; the wording of the daemon is not kept. -/
structure ServiceFailure where
  feature : String
  operation : String
  kind : FailureKind
  summary : String
  cause : Thrown
  retryable : Bool
  recovery : Option String
  deriving DecidableEq

structure ProjectionDevice where
  id : String
  displayName : String
  deriving DecidableEq

inductive ProjectionVideoCodec
  | h264
  | hevc
  deriving DecidableEq

structure ProjectionVideoStream where
  id : String
  sessionId : String
  codec : ProjectionVideoCodec
  width : ℤ
  height : ℤ
  framesPerSecond : ℤ
  nativeViewParameters : List ℤ
  presentationRevision : ℤ
  visible : Bool
  focused : Bool
  deriving DecidableEq

inductive ProjectionAudioRole
  | media
  | communication
  | speech
  | system
  deriving DecidableEq

structure ProjectionAudioStream where
  id : String
  sessionId : String
  role : ProjectionAudioRole
  active : Bool
  hasFocus : Bool
  sampleRate : ℤ
  bitsPerSample : ℤ
  channelCount : ℤ
  deriving DecidableEq

inductive Number
  | int (value : ℤ)
  | double (value : Double)
  deriving DecidableEq

/-- The gain is kept as it was read, before it is made to fit. -/
structure ProjectionDucking where
  gain : Number
  rampMs : ℤ
  deriving DecidableEq

inductive ProjectionSessionState
  | connecting
  | ready
  | streaming
  deriving DecidableEq

structure ProjectionSession where
  id : String
  device : ProjectionDevice
  state : ProjectionSessionState
  videoStreams : List ProjectionVideoStream
  audioStreams : List ProjectionAudioStream
  hostReturnRevision : ℤ
  phoneDucking : Option ProjectionDucking
  deriving DecidableEq

structure ProjectionSnapshot where
  backendAvailable : Bool
  devices : List ProjectionDevice := []
  sessions : List ProjectionSession := []
  activeSessionId : Option String := none
  failureMessage : Option String := none
  failure : Option ServiceFailure := none
  deriving DecidableEq

def ProjectionSnapshot.disabled : ProjectionSnapshot where
  backendAvailable := false

/-! ## Failures -/

/-- `_request` on an answer that is not `ok`. -/
def rejection (action : String) (code : Option String) : ServiceFailure where
  feature := "carplay"
  operation := action
  kind := match code with
    | some "stale_session" => .staleSession
    | some "busy" => .busy
    | some "unsupported" => .unsupported
    | _ => .rejected
  summary := "CarPlay rejected the request."
  cause := .rejected action code
  retryable := code == some "busy"
  recovery := if code = some "stale_session" then some "Reconnect the phone." else none

def statusFailure (cause : Thrown) (kind : FailureKind) (summary : String) (retryable : Bool) :
    ServiceFailure where
  feature := "carplay"
  operation := "status"
  kind := kind
  summary := summary
  cause := cause
  retryable := retryable
  recovery := some "Check CarPlay settings and the receiver service."

def Thrown.failure : Thrown → ServiceFailure
  | .rejected action code => rejection action code
  | .timeout => statusFailure .timeout .timeout "CarPlay receiver did not respond in time." true
  | .socket =>
    statusFailure .socket .missingService
      "CarPlay receiver is not running or cannot be reached." true
  | .format message =>
    statusFailure (.format message) .unsupported
      "CarPlay receiver returned an incompatible response." false
  | .type => statusFailure .type .internal "Could not read CarPlay status." true

def unavailable (thrown : Thrown) : ProjectionSnapshot where
  backendAvailable := false
  failureMessage := some thrown.failure.summary
  failure := some thrown.failure

/-! ## Reading a status -/

abbrev Status := List (String × Json)

def get (data : Status) (key : String) : Json := (data.lookup key).getD .null

def isTrue : Json → Bool
  | .bool true => true
  | _ => false

def isInt : Json → Option ℤ
  | .int value => some value
  | _ => none

def isString : Json → Option String
  | .string text => some text
  | _ => none

def codeUnits (text : String) : ℕ :=
  (text.toList.map fun c => if c.toNat < 65536 then 1 else 2).sum

/-- Which numbers with a fraction equal one is left open. -/
def isOne (one : Double → Bool) : Json → Bool
  | .int value => value == 1
  | .double value => one value
  | _ => false

/-- A cast that lets nothing through but a number without a fraction, or nothing. -/
def intOr (value : Json) (missing : ℤ) : Except Thrown ℤ :=
  match value with
  | .int value => .ok value
  | .null => .ok missing
  | _ => .error .type

def require (holds : Bool) (message : String) : Except Thrown Unit :=
  if holds then .ok () else .error (.format message)

def within (low high : ℤ) (value : Option ℤ) : Option ℤ :=
  value.filter fun value => low ≤ value ∧ value ≤ high

def orThrow {α : Type} (value : Option α) (message : String) : Except Thrown α :=
  match value with
  | some value => .ok value
  | none => .error (.format message)

def codecOf : Json → Option ProjectionVideoCodec
  | .string "h264" => some .h264
  | .string "hevc" => some .hevc
  | _ => none

def parametersOf : Json → Option (List ℤ)
  | .array items =>
    if items.length = 40 then items.mapM fun item => within 0 255 (isInt item) else none
  | _ => none

/-- The video of the status, with whether a frame has been received. -/
def videoOf (data : Status) (sessionId : String) :
    Except Thrown (List ProjectionVideoStream × Bool) :=
  match get data "video" with
  | .object video => do
    let invalid := "Invalid native CarPlay video descriptor"
    let width ← orThrow (within 1 1920 (isInt (get video "width"))) invalid
    let height ← orThrow (within 1 1080 (isInt (get video "height"))) invalid
    let fps ← orThrow (within 1 60 (isInt (get video "fps"))) invalid
    let parameters ← orThrow (parametersOf (get video "native_parameters")) invalid
    require (parameters[8]? == some 2 && parameters[9]? == some 1) "Invalid CarPlay video plane"
    let codec ← orThrow (codecOf (get video "codec")) "Unsupported CarPlay codec"
    let presentationRevision ← intOr (get video "presentation_revision") 0
    return ([{
      id := "main"
      sessionId := sessionId
      codec := codec
      width := width
      height := height
      framesPerSecond := fps
      nativeViewParameters := parameters
      presentationRevision := presentationRevision
      visible := isTrue (get data "visible")
      focused := isTrue (get data "selected") }], isTrue (get video "first_frame"))
  | _ => .ok ([], false)

def roleOf : Json → ProjectionAudioRole
  | .string "media" => .media
  | .string "telephony" => .communication
  | .string "speechRecognition" => .speech
  | _ => .system

def audioStreamOf (data : Status) (sessionId : String) :
    Json → Except Thrown ProjectionAudioStream
  | .object stream => do
    let invalid := "Invalid CarPlay audio"
    let connection ←
      orThrow ((isString (get stream "connection")).filter (codeUnits · ≤ 20)) invalid
    let rate ← orThrow (within 8000 48000 (isInt (get stream "rate"))) invalid
    let channels ← orThrow (within 1 2 (isInt (get stream "channels"))) invalid
    return {
      id := connection
      sessionId := sessionId
      role := roleOf (get stream "category")
      active := isTrue (get stream "active")
      hasFocus := isTrue (get data "selected")
      sampleRate := rate
      bitsPerSample := 16
      channelCount := channels }
  | _ => .error (.format "Invalid CarPlay audio")

def audioOf (data : Status) (sessionId : String) : Except Thrown (List ProjectionAudioStream) :=
  match get data "audio" with
  | .array streams =>
    if streams.length ≤ 4 then streams.mapM (audioStreamOf data sessionId)
    else .error (.format "Invalid CarPlay audio list")
  | _ => .error (.format "Invalid CarPlay audio list")

def duckingOf (data : Status) : Except Thrown (Option ProjectionDucking) :=
  match get data "phone_duck" with
  | .object duck =>
    match get duck "gain", get duck "ramp_ms" with
    | .int gain, .int ramp => .ok (some ⟨.int gain, max 0 (min ramp 2000)⟩)
    | .double gain, .int ramp => .ok (some ⟨.double gain, max 0 (min ramp 2000)⟩)
    | _, _ => .error .type
  | _ => .ok none

/-- The second half of `_refresh`: the native session and the snapshot of a status. -/
def snapshotOf (one : Double → Bool) (data : Status) : Except Thrown (ℤ × ProjectionSnapshot) := do
  require (isOne one (get data "contract") && isTrue (get data "available"))
    "Unsupported CarPlay contract"
  let invalid := "Invalid CarPlay identity"
  let id ← orThrow ((isInt (get data "session")).filter (0 < ·)) invalid
  let deviceId ← orThrow ((isString (get data "device")).filter (codeUnits · ≤ 128)) invalid
  let name ← orThrow ((isString (get data "name")).filter (codeUnits · ≤ 128)) invalid
  let sessionId := toString id
  let device : ProjectionDevice := ⟨deviceId, name⟩
  let (videos, receivedFrame) ← videoOf data sessionId
  let audio ← audioOf data sessionId
  let hostReturnRevision ← intOr (get data "host_return_revision") 0
  let phoneDucking ← duckingOf data
  return (id, {
    backendAvailable := true
    devices := [device]
    sessions := [{
      id := sessionId
      device := device
      state := if receivedFrame then .streaming
        else if isTrue (get data "recorded") then .ready else .connecting
      videoStreams := videos
      audioStreams := audio
      hostReturnRevision := hostReturnRevision
      phoneDucking := phoneDucking }]
    activeSessionId := if isTrue (get data "selected") then some sessionId else none })

end ProjectArgo.Projection.CarPlayProjectionBackend
