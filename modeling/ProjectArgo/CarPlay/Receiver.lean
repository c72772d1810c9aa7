import ProjectArgo.CarPlay.Audio
import ProjectArgo.CarPlay.ControlDecoder
import ProjectArgo.CarPlay.Pairing

/-!
# The receiver's session

One control connection owns a session: the pairing exchanges, the tasks it
spawned and the audio streams it opened. `dispatch` answers one request. What
the request asks of the world outside (sockets, the coprocessor, playback) is
given by its `Outcomes`; every step also lists the effects it had.
-/
namespace ProjectArgo.CarPlay

/-- Values of the property lists that carry session messages. -/
inductive Value where
  | dictionary (fields : List (String × Value))
  | array (items : List Value)
  | string (s : String)
  | integer (n : ℤ)
  | data (bytes : List UInt8)
  | boolean (b : Bool)
  | other

abbrev Dictionary := List (String × Value)

namespace Value

def get (fields : Dictionary) (key : String) : Option Value :=
  (fields.find? fun field => field.1 == key).map Prod.snd

def asArray : Value → Option (List Value)
  | .array items => some items
  | _ => none

def asDictionary : Value → Option Dictionary
  | .dictionary fields => some fields
  | _ => none

def asString : Value → Option String
  | .string s => some s
  | _ => none

def asUnsignedInteger : Value → Option ℕ
  | .integer n => if 0 ≤ n ∧ n < 2 ^ 64 then some n.toNat else none
  | _ => none

def asSignedInteger : Value → Option ℤ
  | .integer n => if -2 ^ 63 ≤ n ∧ n < 2 ^ 63 then some n else none
  | _ => none

def uint (fields : Dictionary) (key : String) : Except Error ℕ :=
  match (get fields key).bind asUnsignedInteger with
  | none => .error .malformed
  | some n => .ok n

def number (n : ℕ) : Value := .integer n

end Value

open Value

def connectionId (fields : Dictionary) : Except Error UInt64 :=
  match get fields "streamConnectionID" with
  | none => .error .malformed
  | some value =>
    match value.asUnsignedInteger with
    | some n => .ok (UInt64.ofNat n)
    | none =>
      match value.asSignedInteger with
      | some n => .ok (UInt64.ofInt n)
      | none => .error .malformed

/-- A selector names a type, a connection or both. -/
def teardownSelector (fields : Dictionary) : Except Error (Option ℕ × Option UInt64) := do
  let kind ←
    if (get fields "type").isSome then do
      let kind ← uint fields "type"
      .ok (some kind)
    else .ok none
  let connection ←
    if (get fields "streamConnectionID").isSome then do
      let connection ← connectionId fields
      .ok (some connection)
    else .ok none
  ensure (kind.isSome ∨ connection.isSome) .malformed
  ensure (kind.all fun kind => kind ∈ [100, 101, 102]) .unsupported
  .ok (kind, connection)

structure AudioOptions where
  sink : Option String
  input : Option String

/-- What does not change during a session. `plist` and `writer` are the property list reader and
writer with their bounds, `capabilities` the encoded answer to an information request. -/
structure Setting where
  crypto : Crypto
  identity : Identity
  audio : Option AudioOptions
  pairingDirectory : Bool
  plist : List UInt8 → Except Error Dictionary
  writer : Value → Except Error (List UInt8)
  capabilities : Except Error (List UInt8)

/-- What the world outside makes of one request. -/
structure Outcomes where
  entropy : Entropy
  saved : Except Error Unit
  authSetup : List UInt8 → Except Error (List UInt8)
  timing : Except Error UInt16
  event : Except Error UInt16
  screen : ℕ → Except Error UInt16
  stream : ℕ → StreamOutcome
  report : Except Error (List UInt8)

inductive Task where
  | timing (port : ℕ)
  | event
  | screen (key : List UInt8)
  deriving DecidableEq

structure AudioInfo where
  connection : UInt64
  category : String
  rate : ℕ
  channels : ℕ

/-- `phoneDuck` keeps the parameters of the last duck command; its gain is computed from them. -/
structure SessionInfo where
  name : String
  recorded : Bool
  hostReturnRevision : ℕ
  audio : List AudioInfo
  phoneDuck : Option (Option Value × Bool)

structure Session where
  setup : PairSetup
  verify : PairVerify
  peers : Peers
  verified : Option Verified
  verifyStarted : Bool
  authenticated : Bool
  sessionSetup : Bool
  screenStarted : Bool
  eventsTaken : Bool
  active : Bool
  tasks : List Task
  audio : List Stream
  microphoneMuted : Bool
  microphoneSource : Option String
  information : SessionInfo

/-- The routes that act on the session once it is authenticated. -/
inductive Route where
  | setup
  | record
  | feedback
  | command
  | teardown
  deriving DecidableEq

inductive Effect where
  | pairing
  | verified
  | authenticated
  | entered (route : Route)
  | spawned (task : Task)
  | opened (connection : UInt64) (microphone : Bool)
  | closed (connection : UInt64)
  | sealed (connection : UInt64) (packet : Sealed)

inductive Kind where
  | pairing
  | octets
  | plist
  deriving DecidableEq

/-- The answer to a request; `activate` switches the connection to ciphers after it, `last` ends
the session after it. -/
structure Answer where
  body : List UInt8
  kind : Kind
  activate : Bool
  last : Bool

def Answer.plist (body : List UInt8) : Answer := ⟨body, .plist, false, false⟩

abbrev Dispatched := Session × List Effect × Except Error Answer

namespace Session

variable (setting : Setting)

def initial (peers : Peers) : Session where
  setup := .new
  verify := .new
  peers := peers
  verified := none
  verifyStarted := false
  authenticated := false
  sessionSetup := false
  screenStarted := false
  eventsTaken := false
  active := false
  tasks := []
  audio := []
  microphoneMuted := false
  microphoneSource := setting.audio.bind AudioOptions.input
  information := ⟨"", false, 0, [], none⟩

def pairSetup (s : Session) (request : Request) (out : Outcomes) : Dispatched :=
  match s.setup.handle setting.crypto out.entropy request.body setting.identity s.peers with
  | (setup, peers, .error e) => ({ s with setup, peers }, [.pairing], .error e)
  | (setup, peers, .ok body) =>
    let s := { s with setup, peers }
    match Tlv.decode body with
    | .error e => (s, [.pairing], .error e)
    | .ok fields =>
      if fields.lookup 6 = some [6] ∧ setting.pairingDirectory then
        match out.saved with
        | .error e => (s, [.pairing], .error e)
        | .ok () => (s, [.pairing], .ok ⟨body, .pairing, false, false⟩)
      else (s, [.pairing], .ok ⟨body, .pairing, false, false⟩)

def pairVerify (s : Session) (request : Request) (out : Outcomes) : Dispatched :=
  if ¬s.verifyStarted then
    match s.verify.start setting.crypto out.entropy request.body setting.identity with
    | (verify, .error e) => ({ s with verify, verifyStarted := true }, [.pairing], .error e)
    | (verify, .ok body) =>
      ({ s with verify, verifyStarted := true }, [.pairing], .ok ⟨body, .pairing, false, false⟩)
  else
    match s.verify.finish setting.crypto request.body s.peers with
    | (verify, .error e) => ({ s with verify }, [.pairing], .error e)
    | (verify, .ok (body, keys)) =>
      ({ s with verify, verified := some keys }, [.pairing, .verified],
        .ok ⟨body, .pairing, true, false⟩)

/-- The options of the microphone that a stream asks for with a data port. -/
def captureOptions (s : Session) (secret : List UInt8) (fields : Dictionary) (kind : ℕ)
    (connection : UInt64) (format : AudioFormat) : Except Error (Option CaptureOptions) :=
  let port := ((get fields "dataPort").bind asUnsignedInteger).getD 0
  if port = 0 then .ok none
  else if kind ≠ 100 ∨ format.codec ≠ .signedPcm16 ∨ format.sampleRate ≠ 16000 ∨
      format.channels ≠ 1 then
    .error .unsupported
  else do
    let source ← s.microphoneSource.elim (.error .unsupported) Except.ok
    let key ← setting.crypto.deriveKey secret s!"DataStream-Salt{connection.toNat}"
      "DataStream-Input-Encryption-Key"
    ensure (port < 2 ^ 16) .bounds
    let frames := ((get fields "framesPerPacket").bind asUnsignedInteger).getD 0
    ensure (frames < 2 ^ 32) .bounds
    .ok (some ⟨source, key, port, frames⟩)

def categories : List String :=
  ["media", "default", "compatibility", "alert", "telephony", "speechRecognition"]

/-- The audio stream that a SETUP entry asks for. -/
def audioStream (s : Session) (secret key : List UInt8) (fields : Dictionary) (kind : ℕ)
    (connection : UInt64) (outcome : StreamOutcome) : Except Error Stream := do
  ensure setting.audio.isSome .unsupported
  ensure (s.audio.length < 4 ∧ ∀ stream ∈ s.audio, stream.connection ≠ connection) .bounds
  let format ← AudioFormat.selected (← uint fields "audioFormat")
  let category := ((get fields "audioType").bind asString).getD "default"
  ensure (category ∈ categories) .unsupported
  let capture ← s.captureOptions setting secret fields kind connection format
  let latency := ((get fields "audioLatencyMs").bind asUnsignedInteger).getD
    (if kind = 102 then 1000 else 20)
  ensure (kind < 2 ^ 16 ∧ latency < 2 ^ 32) .bounds
  Stream.start key connection kind format category latency capture outcome

/-- What every entry of a SETUP request for streams carries, and the key of its stream. -/
structure StreamEntry where
  fields : Dictionary
  kind : ℕ
  connection : UInt64
  secret : List UInt8
  key : List UInt8

def streamEntry (s : Session) (value : Value) : Except Error StreamEntry := do
  let fields ← value.asDictionary.elim (.error .malformed) Except.ok
  let kind ← uint fields "type"
  let connection ← connectionId fields
  let keys ← s.verified.elim (.error .state) Except.ok
  let key ← setting.crypto.deriveKey keys.secret s!"DataStream-Salt{connection.toNat}"
    "DataStream-Output-Encryption-Key"
  .ok ⟨fields, kind, connection, keys.secret, key⟩

/-- One entry of a SETUP request for streams, with its reply. -/
def setupStream (s : Session) (value : Value) (screen : Except Error UInt16)
    (outcome : StreamOutcome) : Session × List Effect × Except Error Value :=
  match s.streamEntry setting value with
  | .error e => (s, [], .error e)
  | .ok ⟨fields, kind, connection, secret, key⟩ =>
    if kind = 110 then
      if s.screenStarted then (s, [], .error .state)
      else
        match screen with
        | .error e => (s, [], .error e)
        | .ok port =>
          ({ s with tasks := s.tasks ++ [.screen key], screenStarted := true },
            [Effect.spawned (.screen key)],
            .ok (.dictionary [("type", number 110), ("dataPort", number port.toNat)]))
    else
      match s.audioStream setting secret key fields kind connection outcome with
      | .error e => (s, [], .error e)
      | .ok stream =>
        let stream := stream.setMicrophoneMuted s.microphoneMuted
        ({ s with audio := s.audio ++ [stream] },
          [.opened connection stream.microphone.isSome],
          .ok (.dictionary
            [("type", number kind), ("dataPort", number stream.dataPort.toNat),
              ("controlPort", number stream.controlPort.toNat),
              ("streamConnectionID", .integer connection.toInt64.toInt)]))

def setupStreams (s : Session) (out : Outcomes) (index : ℕ) :
    List Value → Session × List Effect × Except Error (List Value)
  | [] => (s, [], .ok [])
  | value :: values =>
    match s.setupStream setting value (out.screen index) (out.stream index) with
    | (s, effects, .error e) => (s, effects, .error e)
    | (s, effects, .ok reply) =>
      match s.setupStreams out (index + 1) values with
      | (s, more, .error e) => (s, effects ++ more, .error e)
      | (s, more, .ok replies) => (s, effects ++ more, .ok (reply :: replies))

def isControl (c : Char) : Bool := c.toNat < 32 || (127 ≤ c.toNat && c.toNat < 160)

/-- The name a phone gives to the session, when it is acceptable. -/
def named (s : Session) (fields : Dictionary) : Session :=
  match (get fields "name").bind asString with
  | none => s
  | some name =>
    if name = "" ∨ name.utf8ByteSize > 128 ∨ name.toList.any isControl then s
    else { s with information := { s.information with name := name } }

/-- The phone's timing port and the accessory's own. -/
def timingPorts (fields : Dictionary) (out : Outcomes) : Except Error (ℕ × UInt16) := do
  let port ← uint fields "timingPort"
  ensure (port < 2 ^ 16 ∧ port ≠ 0) .bounds
  let bound ← out.timing
  .ok (port, bound)

/-- SETUP without streams: the timing and event tasks. -/
def setupSession (s : Session) (fields : Dictionary) (out : Outcomes) : Dispatched :=
  if s.sessionSetup then (s, [], .error .state)
  else
    let s := s.named fields
    match timingPorts fields out with
    | .error e => (s, [], .error e)
    | .ok (port, bound) =>
      let s := { s with tasks := s.tasks ++ [.timing port] }
      let effects : List Effect := [.spawned (.timing port)]
      match out.event with
      | .error e => (s, effects, .error e)
      | .ok eventPort =>
        if s.verified.isNone ∨ s.eventsTaken then (s, effects, .error .state)
        else
          let s := { s with tasks := s.tasks ++ [.event], eventsTaken := true }
          let effects := effects ++ [.spawned .event]
          match setting.writer (.dictionary
              [("timingPort", number bound.toNat), ("eventPort", number eventPort.toNat)]) with
          | .error e => (s, effects, .error e)
          | .ok body => ({ s with sessionSetup := true }, effects, .ok (.plist body))

def setupRoute (s : Session) (request : Request) (out : Outcomes) : Dispatched :=
  match setting.plist request.body with
  | .error e => (s, [], .error e)
  | .ok fields =>
    match (get fields "streams").bind asArray with
    | none => s.setupSession setting fields out
    | some streams =>
      if ¬s.sessionSetup ∨ streams = [] ∨ streams.length > 4 then (s, [], .error .state)
      else
        match s.setupStreams setting out 0 streams with
        | (s, effects, .error e) => (s, effects, .error e)
        | (s, effects, .ok replies) =>
          match setting.writer (.dictionary [("streams", .array replies)]) with
          | .error e => (s, effects, .error e)
          | .ok body => (s, effects, .ok (.plist body))

def record (s : Session) : Dispatched :=
  ({ s with active := true, information := { s.information with recorded := true } }, [],
    .ok (.plist []))

def feedback (s : Session) (out : Outcomes) : Dispatched :=
  if ¬s.audio.all Stream.healthy then (s, [], .error .rejected)
  else if s.audio = [] then (s, [], .ok (.plist []))
  else
    match out.report with
    | .error e => (s, [], .error e)
    | .ok body => (s, [], .ok (.plist body))

def command (s : Session) (request : Request) : Dispatched :=
  match setting.plist request.body with
  | .error e => (s, [], .error e)
  | .ok fields =>
    let kind := (get fields "type").bind asString
    let information :=
      if kind = some "duckAudio" ∨ kind = some "unduckAudio" then
        { s.information with phoneDuck := some (get fields "params", kind = some "unduckAudio") }
      else if kind = some "requestUI" then
        { s.information with
          hostReturnRevision := min (s.information.hostReturnRevision + 1) (2 ^ 64 - 1) }
      else s.information
    ({ s with information }, [], .ok (.plist []))

def selects (selector : Option ℕ × Option UInt64) (stream : Stream) : Bool :=
  (selector.1.all fun kind => stream.kind = kind) &&
    selector.2.all fun connection => stream.connection = connection

/-- Every stream that the selector matches is closed. -/
def closeMatching (s : Session) (selector : Option ℕ × Option UInt64) : Session × List Effect :=
  ({ s with audio := s.audio.filter fun stream => !selects selector stream },
    (s.audio.filter (selects selector)).map fun stream => .closed stream.connection)

def teardownEntry (value : Value) : Except Error (Option ℕ × Option UInt64) := do
  let fields ← value.asDictionary.elim (.error .malformed) Except.ok
  teardownSelector fields

def teardownStreams (s : Session) : List Value → Session × List Effect × Except Error Unit
  | [] => (s, [], .ok ())
  | value :: values =>
    match teardownEntry value with
    | .error e => (s, [], .error e)
    | .ok selector =>
      let (s, effects) := s.closeMatching selector
      let (s, more, result) := s.teardownStreams values
      (s, effects ++ more, result)

def teardown (s : Session) (request : Request) : Dispatched :=
  if request.body = [] then (s, [], .ok ⟨[], .plist, false, true⟩)
  else
    match setting.plist request.body with
    | .error e => (s, [], .error e)
    | .ok fields =>
      match (get fields "streams").bind asArray with
      | none => (s, [], .ok ⟨[], .plist, false, true⟩)
      | some streams =>
        match s.teardownStreams streams with
        | (s, effects, .error e) => (s, effects, .error e)
        | (s, effects, .ok ()) => (s, effects, .ok (.plist []))

/-- A route that acts on the session, marked in front of its other effects. -/
def enter (route : Route) (result : Dispatched) : Dispatched :=
  (result.1, .entered route :: result.2.1, result.2.2)

def authSetup (s : Session) (request : Request) (out : Outcomes) : Dispatched :=
  match out.authSetup request.body with
  | .error e => (s, [], .error e)
  | .ok body =>
    ({ s with authenticated := true }, [.authenticated], .ok ⟨body, .octets, false, false⟩)

def route (s : Session) (request : Request) (out : Outcomes) : Dispatched :=
  if request.method = "POST" ∧ request.target = "/pair-setup" ∧ s.verified.isNone then
    s.pairSetup setting request out
  else if request.method = "POST" ∧ request.target = "/pair-verify" ∧ s.verified.isNone then
    s.pairVerify setting request out
  else if request.method = "POST" ∧ request.target = "/auth-setup" ∧ s.verified.isSome ∧
      ¬s.authenticated then
    s.authSetup request out
  else if (request.method = "GET" ∨ request.method = "POST") ∧ request.target = "/info" then
    match setting.capabilities with
    | .error e => (s, [], .error e)
    | .ok body => (s, [], .ok (.plist body))
  else if request.method = "OPTIONS" then (s, [], .ok (.plist []))
  else if request.method = "SETUP" ∧ s.authenticated then
    enter .setup (s.setupRoute setting request out)
  else if request.method = "RECORD" ∧ s.authenticated ∧ s.sessionSetup then
    enter .record s.record
  else if request.method = "POST" ∧ request.target = "/feedback" ∧ s.authenticated then
    enter .feedback (s.feedback out)
  else if request.method = "POST" ∧ request.target = "/command" ∧ s.authenticated then
    enter .command (s.command setting request)
  else if request.method = "TEARDOWN" ∧ s.authenticated then
    enter .teardown (s.teardown setting request)
  else (s, [], .error .unsupported)

/-- The published list of streams follows every answered request. -/
def publish (s : Session) : Session :=
  { s with
    information :=
      { s.information with
        audio := s.audio.map fun stream =>
          ⟨stream.connection, stream.category, stream.format.sampleRate, stream.format.channels⟩ } }

def dispatch (s : Session) (request : Request) (out : Outcomes) : Dispatched :=
  match s.route setting request out with
  | (s, effects, .error e) => (s, effects, .error e)
  | (s, effects, .ok answer) => (if answer.last then s else s.publish, effects, .ok answer)

/-- Commands of the host. The others are handed to the event task. -/
inductive Command where
  | audioGain (connection : UInt64) (gain : Option ℚ)
  | microphoneMute (muted : Bool)
  | microphoneSource (source : String)
  | other (queued : Except Error Unit)

def setGain (connection : UInt64) (gain : Option ℚ) : List Stream → Except Error (List Stream)
  | [] => .ok []
  | stream :: streams =>
    if stream.connection = connection then do
      let stream ← stream.setGain gain
      .ok (stream :: streams)
    else do
      let streams ← setGain connection gain streams
      .ok (stream :: streams)

def onCommand (s : Session) : Command → Except Error Session
  | .audioGain connection gain => do
    let audio ← setGain connection gain s.audio
    .ok { s with audio }
  | .microphoneMute muted =>
    .ok { s with
      microphoneMuted := muted
      audio := s.audio.map fun stream => stream.setMicrophoneMuted muted }
  | .microphoneSource source =>
    .ok { s with
      microphoneSource := some source
      audio := s.audio.map fun stream => stream.setMicrophoneSource source }
  | .other queued =>
    match s.active, queued with
    | true, .error e => .error e
    | _, _ => .ok s

/-- A turn of the task of one stream. -/
def wake (s : Session) (connection : UInt64) (event : Stream.Wake) : Session × List Effect :=
  match s.audio.find? fun stream => stream.connection = connection with
  | none => (s, [])
  | some stream =>
    let (next, packets) := stream.wake setting.crypto event
    ({ s with audio := s.audio.map fun other => if other.connection = connection then next else other },
      packets.map (.sealed connection))

end Session
end ProjectArgo.CarPlay
