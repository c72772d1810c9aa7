import Mathlib
import ProjectArgo.Projection.Proto
import ProjectArgo.Projection.Metadata

/-!
# The channels of an Android Auto session

The head unit's side of the service protocol after authentication: service
discovery, the channels the phone opens, the media streams it sets up, starts
and stops, video focus, and the input reports the host sends back. `handle`
answers one message of the phone with a list of effects for the session, or
with the text that ends it.
-/
namespace ProjectArgo.Projection

open Library.Protobuf

/-- `media::VideoCodec`, the two that Android Auto may select. -/
inductive VideoCodec
  | h264
  | hevc
  deriving DecidableEq

/-! ## The display -/

/-- Encoded pixels at the four edges. -/
structure Insets where
  left : ℕ := 0
  top : ℕ := 0
  right : ℕ := 0
  bottom : ℕ := 0
  deriving DecidableEq

structure DisplayConfig where
  width : ℕ := 1280
  height : ℕ := 720
  dpi : ℕ := 160
  fps : ℕ := 30
  rightDriver : Bool := false
  viewInsets : Insets := {}
  safeInsets : Insets := {}
  deriving DecidableEq

/-- `configuration::MODES`. -/
def modes : List (ℕ × ℕ) := [(800, 480), (1280, 720), (1920, 1080)]

/-- `configuration::FPS`. -/
def rates : List ℕ := [30, 60]

namespace DisplayConfig

def contentWidth (display : DisplayConfig) : ℕ :=
  display.width - display.viewInsets.left - display.viewInsets.right

def contentHeight (display : DisplayConfig) : ℕ :=
  display.height - display.viewInsets.top - display.viewInsets.bottom

def validate (display : DisplayConfig) : Except String Unit :=
  if (display.width, display.height) ∉ modes ∨ display.fps ∉ rates ∨
      ¬(80 ≤ display.dpi ∧ display.dpi ≤ 640) then
    .error "AA display requires 800x480, 1280x720 or 1920x1080, 30/60 FPS and 80..640 DPI"
  else if display.width ≤ display.viewInsets.left + display.viewInsets.right ∨
      display.height ≤ display.viewInsets.top + display.viewInsets.bottom then
    .error "View Area must leave nonempty encoded content"
  else if display.contentWidth ≤ display.safeInsets.left + display.safeInsets.right ∨
      display.contentHeight ≤ display.safeInsets.top + display.safeInsets.bottom then
    .error "Safe Area must leave nonempty visible content"
  else .ok ()

end DisplayConfig

/-- A display the session accepts before it creates its channels. -/
def Display : Type := { display : DisplayConfig // display.validate = .ok () }

/-- A content area is never empty, and never wider or higher than the display. -/
theorem Display.bounds (display : Display) :
    0 < display.1.contentWidth ∧ 0 < display.1.contentHeight ∧
      display.1.width ≤ 1920 ∧ display.1.height ≤ 1080 ∧ display.1.dpi ≤ 640 ∧
      display.1.viewInsets.left + display.1.viewInsets.right < display.1.width ∧
      display.1.viewInsets.top + display.1.viewInsets.bottom < display.1.height ∧
      display.1.safeInsets.left + display.1.safeInsets.right < display.1.contentWidth ∧
      display.1.safeInsets.top + display.1.safeInsets.bottom < display.1.contentHeight := by
  obtain ⟨display, h⟩ := display
  unfold DisplayConfig.validate at h
  split at h
  · exact nomatch h
  rename_i hmode
  split at h
  · exact nomatch h
  split at h
  · exact nomatch h
  have hmem : (display.width, display.height) ∈ modes := by
    by_contra hne
    exact hmode (Or.inl hne)
  have hdpi : display.dpi ≤ 640 := by
    by_contra hlarge
    exact hmode (Or.inr (Or.inr fun hrange => hlarge hrange.2))
  simp only [modes, List.mem_cons, Prod.mk.injEq, List.not_mem_nil, or_false] at hmem
  unfold DisplayConfig.contentWidth DisplayConfig.contentHeight at *
  refine ⟨?_, ?_, ?_, ?_, hdpi, ?_, ?_, ?_, ?_⟩ <;> dsimp only <;> omega

/-! ## Service discovery -/

/-- `configuration::AudioFormat`. -/
structure AudioFormat where
  channel : ℕ
  role : ℕ
  rate : ℕ
  bits : ℕ
  channels : ℕ

/-- `configuration::AUDIO`. -/
def audioFormats : List AudioFormat :=
  [⟨4, 3, 48000, 16, 2⟩, ⟨5, 1, 16000, 16, 1⟩, ⟨6, 2, 16000, 16, 1⟩]

def insets (insets : Insets) : Proto :=
  ((({} : Proto).number 1 insets.top).number 2 insets.bottom).number 3 insets.left
    |>.number 4 insets.right

def DisplayConfig.uiConfig (display : DisplayConfig) : Proto :=
  ((({} : Proto).nested 1 (insets display.viewInsets)).nested 2 (insets display.safeInsets)).nested 3
    (insets display.safeInsets)

/-- One video configuration with the codec in field 10. -/
def videoConfig (display : DisplayConfig) (codec : ℕ) : Proto :=
  ({} : Proto)
    |>.number 1 (if display.width = 800 then 1 else if display.width = 1920 then 3 else 2)
    |>.number 2 (if display.fps = 60 then 1 else 2)
    |>.number 3 (display.viewInsets.left + display.viewInsets.right)
    |>.number 4 (display.viewInsets.top + display.viewInsets.bottom)
    |>.nested 11 display.uiConfig
    |>.number 5 display.dpi
    |>.number 8 10000
    |>.number 10 codec

/-- The video sink: H.264 at index 0, HEVC at index 1 where it is offered. -/
def videoSink (display : DisplayConfig) (hevc : Bool) : Proto :=
  let sink := (({} : Proto).number 1 3).nested 4 (videoConfig display 3)
  let sink := if hevc then sink.nested 4 (videoConfig display 7) else sink
  (sink.number 5 1).number 7 0

def audioSink (format : AudioFormat) : Proto :=
  ({} : Proto)
    |>.number 1 1
    |>.number 2 format.role
    |>.nested 3 (((({} : Proto).number 1 format.rate).number 2 format.bits).number 3 format.channels)
    |>.number 5 1

def microphoneSource : Proto :=
  ({} : Proto)
    |>.number 1 1
    |>.nested 2 (((({} : Proto).number 1 16000).number 2 16).number 3 1)
    |>.number 3 1

def inputSource (display : DisplayConfig) : Proto :=
  ({} : Proto)
    |>.number 1 87
    |>.number 1 88
    |>.number 1 126
    |>.number 1 127
    |>.nested 2 ((({} : Proto).number 1 display.contentWidth).number 2 display.contentHeight)

/-- A service on a channel: its kind is the field its description stands in. -/
def service (channel kind : ℕ) (description : Proto) : Proto :=
  (({} : Proto).number 1 channel).nested kind description

def pingConfiguration : Proto :=
  ({} : Proto).number 1 5000 |>.number 2 1500 |>.number 3 500 |>.number 4 5

def headunitInfo : Proto :=
  ({} : Proto)
    |>.bytes 1 (byteString "Project Argo")
    |>.bytes 2 (byteString "Universal")
    |>.bytes 3 (byteString "2026")
    |>.bytes 4 (byteString "argo-001")
    |>.bytes 5 (byteString "Project Argo")
    |>.bytes 6 (byteString "Argo Head Unit")
    |>.bytes 7 (byteString "1")
    |>.bytes 8 (byteString "1.0")

/-- The response before its services. -/
def headunit (display : DisplayConfig) : Proto :=
  ({} : Proto)
    |>.bytes 2 (byteString "Project Argo")
    |>.bytes 3 (byteString "Universal")
    |>.bytes 4 (byteString "2026")
    |>.bytes 5 (byteString "argo-001")
    |>.number 6 (if display.rightDriver then 1 else 0)
    |>.bytes 7 (byteString "Project Argo")
    |>.bytes 8 (byteString "Argo Head Unit")
    |>.bytes 9 (byteString "1")
    |>.bytes 10 (byteString "1.0")
    |>.number 11 1
    |>.bytes 14 (byteString "Project Argo")
    |>.number 15 0
    |>.nested 16 (({} : Proto).nested 1 pingConfiguration)
    |>.nested 17 headunitInfo

def sensorSource : Proto :=
  [10, 13].foldl (fun sensors sensor => sensors.nested 1 (({} : Proto).number 1 sensor)) {}

def discoveryCodecs (display : DisplayConfig) (hevc : Bool) : List UInt8 :=
  let response := headunit display
  let response := response.nested 1 (service 1 2 sensorSource)
  let response := response.nested 1 (service 3 3 (videoSink display hevc))
  let response := audioFormats.foldl (fun response format =>
    response.nested 1 (service format.channel 3 (audioSink format))) response
  let response := response.nested 1 (service 9 5 microphoneSource)
  let response := response.nested 1 (service Metadata.channel 9 {})
  (response.nested 1 (service 8 4 (inputSource display))).finish

/-! ## Messages -/

structure Reply where
  channel : ℕ
  id : ℕ
  control : Bool
  body : List UInt8
  deriving DecidableEq

def Reply.new (channel id : ℕ) (body : List UInt8) : Reply where
  channel := channel
  id := id
  control := (7 ≤ id && id ≤ 9) || (0x18 ≤ id && id ≤ 0x1a)
  body := body

inductive Effect
  | videoCodec (codec : VideoCodec)
  | reply (reply : Reply)
  | video (visible : Bool)
  | established
  | hostReturn
  | audio (channel : ℕ) (active : Bool)
  | microphone (active : Bool) (limit : ℕ)
  | microphoneAck (session count : ℕ)
  | microphoneStop
  | media (channel : ℕ) (data : List UInt8)
  | sessionEnd
  | metadata (update : Metadata.Update)
  deriving DecidableEq

def answer (channel id : ℕ) (body : Proto) : Effect := .reply (Reply.new channel id body.finish)

/-- A contact of the touch screen: its Android pointer id and its last position. -/
structure Contact where
  wireId : ℕ
  x : ℕ
  y : ℕ
  deriving DecidableEq

/-- The contact table, by the host's number of a contact. -/
abbrev Contacts := Std.ExtTreeMap ℕ Contact

structure Channels where
  offerHevc : Bool
  videoConfig : ℕ := 0
  display : Display
  opened : Finset ℕ := ∅
  setup : Finset ℕ := ∅
  sessions : Std.ExtTreeMap ℕ ℕ := ∅
  pointers : Contacts := ∅
  reportedLargePointer : Bool := false
  discovered : Bool := false
  videoRequested : Bool := true
  metadataWarnings : Finset (ℕ × ℕ) := ∅

namespace Channels

def withHevc (display : Display) (offerHevc : Bool) : Channels :=
  { display := display, offerHevc := offerHevc }

def setVideoRequested (channels : Channels) (requested : Bool) : Channels :=
  { channels with videoRequested := requested }

/-- The channels that carry a media stream to the head unit. -/
def isMedia (channel : ℕ) : Bool := 3 ≤ channel && channel ≤ 6

/-- Message 0 is media behind a timestamp, message 1 media alone. -/
def handleMedia (channels : Channels) (channel id : ℕ) (body : List UInt8) :
    Except String (List Effect) :=
  match channels.sessions[channel]? with
  | none => .error "AA media before stream start"
  | some session =>
    if id = 0 ∧ body.length < 8 then .error "short timestamped AA media"
    else
      let data := if id = 0 then body.drop 8 else body
      if 4 * 1024 * 1024 < data.length then .error "AA media size limit"
      else .ok
        [.media channel data, answer channel 0x8004 ((({} : Proto).number 1 session).number 2 1)]

/-- The messages that carry metadata. -/
def isMetadata (channel id : ℕ) : Bool :=
  (channel == 0 && (id == 5 || id == 23)) ||
    (channel == Metadata.channel && (id == 0x8001 || id == 0x8003))

def discoveryReply (channels : Channels) : Effect :=
  .reply (Reply.new 0 6 (discoveryCodecs channels.display.1 channels.offerHevc))

/-- The update of a metadata message, or a warning that it was discarded. -/
def noteMetadata (channels : Channels) (channel id : ℕ) (body : List UInt8) :
    Channels × List Effect :=
  let permitted := channel = 0 ∨ channel ∈ channels.opened
  match if permitted then Metadata.parse channel id body else .error "metadata channel not open" with
  | .ok value => (channels, [.metadata value])
  | .error _ =>
    ({ channels with metadataWarnings := insert (channel, id) channels.metadataWarnings }, [])

/-- Metadata never ends the session. Service discovery is one of its messages. -/
def handleMetadata (channels : Channels) (channel id : ℕ) (body : List UInt8) :
    Channels × List Effect :=
  let (channels, effects) := channels.noteMetadata channel id body
  if channel = 0 ∧ id = 5 then
    ({ channels with discovered := true }, channels.discoveryReply :: effects)
  else (channels, effects)

/-- The services the phone may open. -/
def isService (target : ℕ) : Bool :=
  target == 1 || (3 ≤ target && target ≤ 6) || target == 8 || target == 9 || target == 10

def handleOpen (channels : Channels) (channel : ℕ) (fields : Numbers) :
    Except String (Channels × List Effect) :=
  match fields[(2 : ℕ)]? with
  | none => .error "channel open missing service"
  | some target =>
    if channels.discovered && isService target then
      .ok ({ channels with opened := insert target channels.opened },
        [answer channel 8 (({} : Proto).number 1 0)])
    else .ok (channels, [answer channel 8 (({} : Proto).number 1 1)])

/-- The state granted for a requested audio focus. -/
def audioFocus : ℕ → ℕ
  | 1 => 1
  | 2 => 2
  | 3 => 2
  | _ => 3

def handleControl (id : ℕ) (body : List UInt8) (fields : Numbers) : List Effect :=
  match id with
  | 11 => [answer 0 12 ⟨body⟩]
  | 13 => [answer 0 14 (({} : Proto).number 1 1)]
  | 15 => [answer 0 16 {}, .sessionEnd]
  | 18 => [answer 0 19 (({} : Proto).number 1 (audioFocus (fields[(1 : ℕ)]?.getD 0)))]
  | _ => []

/-- A sensor without normalized input reports conservative restrictions. -/
def handleSensor (fields : Numbers) : Except String (List Effect) :=
  match fields[(1 : ℕ)]? with
  | none => .error "sensor request missing type"
  | some kind =>
    if kind = 10 ∨ kind = 13 then
      .ok [answer 1 0x8002 (({} : Proto).number 1 0),
        answer 1 0x8003
          (({} : Proto).nested kind (({} : Proto).number 1 (if kind = 13 then 31 else 0)))]
    else .ok [answer 1 0x8002 (({} : Proto).number 1 1)]

def handleMicrophone (channels : Channels) (id : ℕ) (fields : Numbers) :
    Except String (Channels × List Effect) :=
  match id with
  | 0x8000 =>
    if fields[(1 : ℕ)]? ≠ some 1 then .error "AA requested unsupported microphone codec"
    else .ok ({ channels with setup := insert 9 channels.setup },
      [answer 9 0x8003 (((({} : Proto).number 1 2).number 2 1).number 3 0)])
  | 0x8005 =>
    if 9 ∉ channels.setup then .error "Microphone opened before setup"
    else .ok (channels,
      [.microphone (fields[(1 : ℕ)]?.getD 0 != 0) (fields[(4 : ℕ)]?.getD 1)])
  | 0x8002 => .ok (channels, [.microphoneStop])
  | 0x8004 =>
    .ok (channels, [.microphoneAck (fields[(1 : ℕ)]?.getD 0) (fields[(2 : ℕ)]?.getD 0)])
  | _ => .ok (channels, [])

/-- A stream is set up with a codec; that of the video is then fixed. -/
def handleSetup (channels : Channels) (channel : ℕ) (fields : Numbers) :
    Except String (Channels × List Effect) :=
  let codec := fields[(1 : ℕ)]?
  let supported :=
    if channel = 3 then codec == some 3 || (channels.offerHevc && codec == some 7)
    else codec == some 1
  let index := if channel = 3 ∧ codec = some 7 then 1 else 0
  if !supported then .error "AA requested an unadvertised media codec"
  else if channel = 3 ∧ 3 ∈ channels.setup ∧ channels.videoConfig ≠ index then
    .error "AA video codec is fixed for this session"
  else
    let config := answer channel 0x8003 (((({} : Proto).number 1 2).number 2 4).number 3 index)
    let channels := { channels with setup := insert channel channels.setup }
    if channel = 3 then
      .ok ({ channels with videoConfig := index },
        [config, .videoCodec (if index = 1 then .hevc else .h264)])
    else .ok (channels, [config])

/-- The focus the head unit reports for the video stream. -/
def focusReply (focused : Bool) : Effect :=
  answer 3 0x8008 ((({} : Proto).number 1 (if focused then 1 else 2)).number 2 0)

def handleStart (channels : Channels) (channel : ℕ) (fields : Numbers) :
    Except String (Channels × List Effect) :=
  let expectedIndex := if channel = 3 then channels.videoConfig else 0
  if channel ∉ channels.setup ∨ fields[(2 : ℕ)]?.getD 0 ≠ expectedIndex then
    .error "AA invalid stream configuration"
  else match fields[(1 : ℕ)]? with
    | none => .error "AA stream session missing"
    | some session =>
      .ok ({ channels with sessions := channels.sessions.insert channel session },
        if channel = 3 then
          [.established, .video channels.videoRequested, focusReply channels.videoRequested]
        else [.audio channel true])

def handleStop (channels : Channels) (channel : ℕ) : Channels × List Effect :=
  ({ channels with sessions := channels.sessions.erase channel },
    if channel = 3 then [.video false] else [.audio channel false])

/-- The phone asks for video focus: mode 1 for itself, mode 2 for the native UI. -/
def handleFocus (channels : Channels) (fields : Numbers) : Channels × List Effect :=
  let mode := fields[(2 : ℕ)]?
  let channels := if mode = some 2 then channels.setVideoRequested false else channels
  let focused := mode == some 1 && channels.videoRequested
  (channels, [focusReply focused, .video focused] ++ if mode = some 2 then [.hostReturn] else [])

def handleStream (channels : Channels) (channel id : ℕ) (fields : Numbers) :
    Except String (Channels × List Effect) :=
  match id with
  | 0x8000 => channels.handleSetup channel fields
  | 0x8001 => channels.handleStart channel fields
  | 0x8002 => .ok (channels.handleStop channel)
  | 0x8007 => if channel = 3 then .ok (channels.handleFocus fields) else .ok (channels, [])
  | _ => .ok (channels, [])

/-- The services of the open channels, apart from metadata and media itself. -/
def handleService (channels : Channels) (channel id : ℕ) (fields : Numbers) :
    Except String (Channels × List Effect) :=
  if channel ∉ channels.opened then
    .error ("AA message for unopened channel " ++ toString channel)
  else if channel = 1 ∧ id = 0x8001 then
    (handleSensor fields).map fun effects => (channels, effects)
  else if channel = 8 ∧ (id = 0x8002 ∨ id = 0x19) then
    .ok (channels, [answer 8 (if id = 0x19 then 0x1a else 0x8003) (({} : Proto).number 1 0)])
  else if channel = 9 then channels.handleMicrophone id fields
  else if isMedia channel then channels.handleStream channel id fields
  else .ok (channels, [])

def handle (channels : Channels) (channel id : ℕ) (body : List UInt8) :
    Except String (Channels × List Effect) :=
  if id ≤ 1 ∧ isMedia channel then
    (channels.handleMedia channel id body).map fun effects => (channels, effects)
  else if isMetadata channel id then .ok (channels.handleMetadata channel id body)
  else if channel = Metadata.channel ∧ id ≠ 7 then .ok (channels, [])
  else match numbers body with
    | .error text => .error text
    | .ok fields =>
      if id = 7 then channels.handleOpen channel fields
      else if channel = 0 then .ok (channels, handleControl id body fields)
      else channels.handleService channel id fields

/-! ## Input reports -/

/-- One report of a media key, with the press or the release. -/
def keyReport (code : ℕ) (timestamp : UInt64) (pressed : Bool) : Reply :=
  Reply.new 8 0x8001
    ((({} : Proto).number 1 (timestamp + if pressed then 0 else 1).toNat).nested 4
      (({} : Proto).nested 1
        (((({} : Proto).number 1 code).number 2 (if pressed then 1 else 0)).number 3 0
          |>.number 4 0))).finish

def mediaKey (channels : Channels) (code : ℕ) (timestamp : UInt64) : Except String (List Reply) :=
  if 8 ∉ channels.opened then .error "Android Auto input channel is not ready"
  else if ¬(code = 87 ∨ code = 88 ∨ code = 126 ∨ code = 127) then
    .error "Unsupported Android Auto media key"
  else .ok ([true, false].map (keyReport code timestamp))

/-- Rounds a coordinate between 0 and 1 to a pixel of an axis. -/
structure Scaling where
  pixel : ℚ → ℕ → ℕ
  pixel_le : ∀ {x : ℚ} (last : ℕ), 0 ≤ x → x ≤ 1 → pixel x last ≤ last

def contactData (contact : Contact) : Proto :=
  ((({} : Proto).number 1 contact.x).number 2 contact.y).number 3 contact.wireId

/-- The pointers of a motion event, in the order of their contacts. -/
def pointerData (pointers : Contacts) : Proto :=
  pointers.toList.foldl (fun touch entry => touch.nested 1 (contactData entry.2)) {}

/-- The position of a contact among the pointers of an event. -/
def pointerIndex (pointers : Contacts) (pointer : ℕ) : ℕ :=
  pointers.toList.findIdx (·.1 = pointer)

/-- The Android action of a phase, with `count` pointers down. -/
def touchAction (phase count : ℕ) : ℕ :=
  match phase with
  | 0 => if 1 < count then 5 else 0
  | 1 => 2
  | 2 => if 1 < count then 6 else 1
  | _ => 3

/-- The Android pointer id of a contact: its own, or the least free one. -/
def wireId (pointers : Contacts) (pointer : ℕ) : Option ℕ :=
  match pointers[pointer]? with
  | some contact => some contact.wireId
  | none => (List.range 10).find? fun id => !pointers.toList.any (·.2.wireId = id)

/-- The contact table after an event: a cancel ends the entire gesture. -/
def remaining (pointers : Contacts) (pointer phase : ℕ) :
    Contacts :=
  if phase = 3 then ∅ else if phase = 2 then pointers.erase pointer else pointers

/-- A touch at a finite coordinate of the screen. -/
def inRange : Option ℚ → Bool
  | some x => 0 ≤ x && x ≤ 1
  | none => false

/-- One touch of the host. `none` for a coordinate is one that is not finite. -/
def touch (scaling : Scaling) (channels : Channels) (pointer phase : ℕ) (x y : Option ℚ)
    (timestamp : UInt64) : Except String (Channels × Option Reply) :=
  if 8 ∉ channels.opened then .ok (channels, none)
  else if !inRange x || !inRange y || 3 < phase then .error "invalid projection touch"
  else
    let px := scaling.pixel (x.getD 0) (channels.display.1.contentWidth - 1)
    let py := scaling.pixel (y.getD 0) (channels.display.1.contentHeight - 1)
    if phase = 0 ∧ (10 ≤ channels.pointers.size ∨ channels.pointers.contains pointer) then
      .ok (channels, none)
    else if phase ≠ 0 ∧ !channels.pointers.contains pointer then .ok (channels, none)
    else match wireId channels.pointers pointer with
      | none => .error "contact capacity checked above"
      | some wireId =>
        let pointers := channels.pointers.insert pointer ⟨wireId, px, py⟩
        let touch := (pointerData pointers).number 2 (pointerIndex pointers pointer)
          |>.number 3 (touchAction phase pointers.size)
        .ok ({ channels with
            pointers := remaining pointers pointer phase
            reportedLargePointer := channels.reportedLargePointer || 31 < pointer },
          some (Reply.new 8 0x8001 ((({} : Proto).number 1 timestamp.toNat).nested 3 touch).finish))

/-! ## The channels as a machine -/

/-- What the session does with its channels: the phone's messages and the host's commands. -/
inductive Input
  | message (channel id : ℕ) (body : List UInt8)
  | setVideoRequested (requested : Bool)
  | mediaKey (code : ℕ) (timestamp : UInt64)
  | touch (pointer phase : ℕ) (x y : Option ℚ) (timestamp : UInt64)

/-- The effects of a call, or the text of its error. -/
abbrev Output := Except String (List Effect)

/-- A call of the session and its answer. -/
abbrev Entry := Input × Output

/-- A failed call leaves the channels as they are. -/
def step (scaling : Scaling) (channels : Channels) : Input → Channels × Output
  | .message channel id body =>
    match channels.handle channel id body with
    | .ok (channels, effects) => (channels, .ok effects)
    | .error text => (channels, .error text)
  | .setVideoRequested requested => (channels.setVideoRequested requested, .ok [])
  | .mediaKey code timestamp =>
    (channels, (channels.mediaKey code timestamp).map fun replies => replies.map .reply)
  | .touch pointer phase x y timestamp =>
    match channels.touch scaling pointer phase x y timestamp with
    | .ok (channels, reply) => (channels, .ok (reply.toList.map .reply))
    | .error text => (channels, .error text)

end Channels

end ProjectArgo.Projection
