import ProjectArgo.Library.Ends
import ProjectArgo.Projection.IpcPayload
import ProjectArgo.Projection.MetadataUpdates

/-!
# Metadata from the daemon to the application

The daemon writes its metadata into one message, the application reads it field by field and
checks each with limits of its own. What the phone can make the daemon hold stays within both,
and the application shows it as it is, unless a text begins with a byte-order mark.
-/
namespace ProjectArgo.Projection

open Library.Bytes Library.Reading

/-! ## The message of the daemon -/

namespace Metadata

open Ipc Ipc.PayloadWriter

def optionalString (value : Option String) : Except DecodeError (List UInt8) :=
  match value with
  | none => .ok (u8 0)
  | some text => (string text).map (u8 1 ++ ·)

def optionalU64 (value : Option ℕ) : List UInt8 :=
  match value with
  | none => u8 0
  | some value => u8 1 ++ u64 value

def criticalCode : Option Bool → ℕ
  | none => 0
  | some false => 1
  | some true => 2

def Snapshot.message (session device : String) (snapshot : Snapshot) :
    Except DecodeError Message := do
  let d := snapshot.data
  let session ← string session
  let device ← string device
  let title ← optionalString d.title
  let artist ← optionalString d.artist
  let album ← optionalString d.album
  let application ← optionalString d.application
  let deviceName ← optionalString d.deviceName
  let manufacturer ← optionalString d.manufacturer
  let model ← optionalString d.model
  let artwork ← optionalString (d.artwork.map (·.path))
  return {
    kind := 11
    payload := [session, device, u32 snapshot.revision, u64 snapshot.updatedAtMs,
      u8 d.mediaReceived.toNat, title, artist, album, u8 d.playback, application,
      optionalU64 d.positionMs, optionalU64 d.durationMs, deviceName, manufacturer, model,
      u8 (d.battery.getD 255), u8 (criticalCode d.critical), artwork].flatten }

end Metadata

/-! ## The application -/

namespace AndroidAutoBackend

open Ipc Ipc.ProjectionIpcReader

inductive ProjectionSessionState
  | connecting
  | ready
  | streaming
  | suspended
  | failed
  | disconnected
  deriving DecidableEq

inductive MediaPlaybackState
  | unknown
  | stopped
  | playing
  | paused
  | error
  deriving DecidableEq

namespace MediaPlaybackState

def values : List MediaPlaybackState := [.unknown, .stopped, .playing, .paused, .error]

def index : MediaPlaybackState → ℕ
  | .unknown => 0
  | .stopped => 1
  | .playing => 2
  | .paused => 3
  | .error => 4

theorem index_of_values {i : ℕ} {state : MediaPlaybackState} (h : values[i]? = some state) :
    state.index = i := by
  obtain ⟨hi, rfl⟩ := List.getElem?_eq_some_iff.mp h
  match i, hi with
  | 0, _ => rfl
  | 1, _ => rfl
  | 2, _ => rfl
  | 3, _ => rfl
  | 4, _ => rfl

end MediaPlaybackState

structure MediaDetails where
  title : Option String := none
  artist : Option String := none
  album : Option String := none
  artworkPath : Option String := none
  playback : MediaPlaybackState := .unknown
  application : Option String := none
  positionMs : Option ℕ := none
  durationMs : Option ℕ := none
  deriving DecidableEq

structure PhoneDetails where
  displayName : Option String
  manufacturer : Option String
  model : Option String
  batteryPercent : Option ℕ
  criticalBattery : Option Bool
  deriving DecidableEq

structure ProjectionSessionMetadata where
  revision : ℕ
  updatedAtMs : ℕ
  media : Option MediaDetails
  phone : PhoneDetails
  deriving DecidableEq

structure ProjectionDevice where
  id : String
  displayName : String
  deriving DecidableEq

/-- A session; its video and audio streams are of no concern here and kept as they are. -/
structure ProjectionSession (Streams : Type) where
  id : String
  device : ProjectionDevice
  state : ProjectionSessionState
  streams : Streams
  hostReturnRevision : ℕ := 0
  failureMessage : Option String := none
  metadata : Option ProjectionSessionMetadata := none

variable {Streams : Type}

abbrev Sessions (Streams : Type) := String → Option (ProjectionSession Streams)

structure Backend (Streams : Type) where
  sessions : Sessions Streams
  metadataWarning : Bool := false

/-- The greatest number that survives as a number of the application's other platforms. -/
def maxSafeInteger : ℕ := 9007199254740991

def present : Reader Bool := do
  let value ← uint8
  check "Invalid presence" (value ≤ 1)
  return value == 1

def text : Reader (Option String) := do
  if ← present then
    let value ← string
    check "Invalid text" ((utf8 value).length ≤ 1024 ∧ Char.ofNat 0 ∉ value.toList)
    return some value
  else return none

def millis : Reader (Option ℕ) := do
  if ← present then
    let value ← uint64
    check "Invalid time" (value ≤ maxSafeInteger)
    return some value
  else return none

def enumAt {α : Type} (values : List α) (index : ℕ) : Reader α :=
  match values[index]? with
  | some value => pure value
  | none => throw ("Unknown projection enum value " ++ toString index ++ ".")

/-- The fields that follow the names of the session and of its device. -/
structure Fields where
  revision : ℕ
  timestamp : ℕ
  received : Bool
  media : MediaDetails
  name : Option String
  manufacturer : Option String
  model : Option String
  battery : ℕ
  critical : ℕ

def fields : Reader Fields := do
  let revision ← uint32
  let timestamp ← uint64
  let received ← present
  let title ← text
  let artist ← text
  let album ← text
  let playback ← enumAt MediaPlaybackState.values (← uint8)
  let application ← text
  let position ← millis
  let duration ← millis
  let name ← text
  let manufacturer ← text
  let model ← text
  let battery ← uint8
  let critical ← uint8
  let artworkPath ← text
  return {
    revision := revision
    timestamp := timestamp
    received := received
    media := {
      title := title
      artist := artist
      album := album
      artworkPath := artworkPath
      playback := playback
      application := application
      positionMs := position
      durationMs := duration }
    name := name
    manufacturer := manufacturer
    model := model
    battery := battery
    critical := critical }

def Fields.metadata (fields : Fields) : ProjectionSessionMetadata where
  revision := fields.revision
  updatedAtMs := fields.timestamp
  media := if fields.received then some fields.media else none
  phone := {
    displayName := fields.name
    manufacturer := fields.manufacturer
    model := fields.model
    batteryPercent := if fields.battery = 255 then none else some fields.battery
    criticalBattery := if fields.critical = 0 then none else some (fields.critical == 2) }

/-- The session is the device's and has not ended. -/
def ProjectionSession.serves (session : ProjectionSession Streams) (deviceId : String) : Bool :=
  session.device.id = deviceId && session.state ≠ .failed && session.state ≠ .disconnected

def handleMetadata (sessions : Sessions Streams) : Reader (Sessions Streams) := do
  let sessionId ← string
  let deviceId ← string
  match sessions sessionId with
  | none => return sessions
  | some session =>
    if session.serves deviceId then
      let fields ← fields
      requireDone
      check "Invalid phone state" ((fields.battery ≤ 100 ∨ fields.battery = 255) ∧
        fields.critical ≤ 2 ∧ fields.timestamp ≤ maxSafeInteger)
      if session.metadata.any (fields.revision ≤ ·.revision) then return sessions
      else
        return Function.update sessions sessionId
          (some { session with metadata := some fields.metadata })
    else return sessions

/-- Malformed metadata are discarded, with one warning. -/
def receiveMetadata (backend : Backend Streams) (payload : List UInt8) : Backend Streams :=
  match (handleMetadata backend.sessions).run payload with
  | .ok (sessions, _) => { backend with sessions := sessions }
  | .error _ => { backend with metadataWarning := true }

end AndroidAutoBackend

/-! ## What the phone can make the daemon hold -/

namespace Metadata

open Ipc
open Library.Ends (bind_eq_ok)

/-- A text within the limits of both sides. -/
def TextFits (text : Option String) : Prop :=
  ∀ value ∈ text, (utf8 value).length ≤ 1024 ∧ Char.ofNat 0 ∉ value.toList

def TimeFits (time : Option ℕ) : Prop := ∀ value ∈ time, value < 2 ^ 53

structure Record.Fits (d : Record) : Prop where
  title : TextFits d.title
  artist : TextFits d.artist
  album : TextFits d.album
  artwork : TextFits (d.artwork.map (·.path))
  playback : d.playback ≤ 4
  application : TextFits d.application
  position : TimeFits d.positionMs
  duration : TimeFits d.durationMs
  deviceName : TextFits d.deviceName
  manufacturer : TextFits d.manufacturer
  model : TextFits d.model
  battery : ∀ level ∈ d.battery, level ≤ 100

/-- Before the first message about media there is nothing of it. -/
structure Record.Silent (d : Record) : Prop where
  title : d.title = none
  artist : d.artist = none
  album : d.album = none
  artwork : d.artwork = none
  playback : d.playback = 0
  application : d.application = none
  position : d.positionMs = none
  duration : d.durationMs = none

def Update.Fits : Update → Prop
  | .track title artist album _ durationMs =>
    TextFits title ∧ TextFits artist ∧ TextFits album ∧ TimeFits durationMs
  | .playback state application positionMs =>
    (∀ value ∈ state, value ≤ 4) ∧ TextFits application ∧ TimeFits positionMs
  | .phone name manufacturer => TextFits name ∧ TextFits manufacturer
  | .battery level _ => ∀ value ∈ level, value ≤ 100

/-- The clock is below `2^53`, and the path of a picture is a path of at most 1024 octets. -/
structure World.Fits (world : World) : Prop where
  file : TextFits world.file
  now : world.now < 2 ^ 53

structure Snapshot.Fits (snapshot : Snapshot) : Prop where
  data : snapshot.data.Fits
  silent : snapshot.data.mediaReceived = false → snapshot.data.Silent
  revision : snapshot.revision < 2 ^ 32
  updatedAt : snapshot.updatedAtMs < 2 ^ 53

theorem textFits_none : TextFits none := fun _ h => nomatch h

theorem timeFits_none : TimeFits none := fun _ h => nomatch h

theorem length_trim_le (text : String) : (utf8 (trim text)).length ≤ (utf8 text).length := by
  obtain ⟨front, hfront⟩ := List.dropWhile_suffix isWhiteSpace (l := text.toList)
  obtain ⟨back, hback⟩ := List.dropWhile_suffix isWhiteSpace
    (l := (text.toList.dropWhile isWhiteSpace).reverse)
  have htext : text = String.ofList (front ++
      ((((text.toList.dropWhile isWhiteSpace).reverse).dropWhile isWhiteSpace).reverse ++
        back.reverse)) := by
    rw [← List.reverse_append, hback, List.reverse_reverse, hfront, String.ofList_toList]
  conv_rhs => rw [htext, length_utf8_ofList, length_utf8_ofList]
  rw [trim]
  omega

theorem mem_trim {text : String} {c : Char} (h : c ∈ (trim text).toList) : c ∈ text.toList := by
  rw [trim, String.toList_ofList, List.mem_reverse] at h
  have := List.dropWhile_subset _ h
  rw [List.mem_reverse] at this
  exact List.dropWhile_subset _ this

theorem text_fits {fields : Fields} {key : ℕ} {value : Option String}
    (h : text fields key = .ok value) : TextFits value := by
  unfold text at h
  split at h
  · cases h
    exact textFits_none
  · rename_i data hdata
    split at h
    · cases h
    rename_i hshort
    split at h
    · cases h
    rename_i decoded hdecoded
    split at h
    · cases h
    rename_i hnul
    cases h
    split
    · exact textFits_none
    · intro other hother
      cases Option.mem_some_iff.mp hother
      constructor
      · have := length_trim_le decoded
        rw [utf8_of_fromUTF8 hdecoded] at this
        omega
      · intro hmem
        exact hnul (List.contains_iff_mem.mpr (mem_trim hmem))
  · cases h

theorem seconds_fit {value : ℕ} (h : value < 2 ^ 32) : value * 1000 < 2 ^ 53 := by omega

theorem parseTrack_fits {fields : Fields} {update : Update} (h : parseTrack fields = .ok update) :
    update.Fits := by
  obtain ⟨title, htitle, h⟩ := bind_eq_ok.mp h
  obtain ⟨artist, hartist, h⟩ := bind_eq_ok.mp h
  obtain ⟨album, halbum, h⟩ := bind_eq_ok.mp h
  obtain ⟨duration, -, h⟩ := bind_eq_ok.mp h
  cases h
  refine ⟨text_fits htitle, text_fits hartist, text_fits halbum, ?_⟩
  intro value hvalue
  obtain ⟨seconds, hseconds, rfl⟩ := Option.map_eq_some_iff.mp hvalue
  exact seconds_fit (by simpa using (Option.filter_eq_some_iff.mp hseconds).2)

theorem parsePlayback_fits {fields : Fields} {update : Update}
    (h : parsePlayback fields = .ok update) : update.Fits := by
  obtain ⟨state, -, h⟩ := bind_eq_ok.mp h
  obtain ⟨position, -, h⟩ := bind_eq_ok.mp h
  split at h
  · cases h
  rename_i hvalid
  obtain ⟨application, happlication, h⟩ := bind_eq_ok.mp h
  cases h
  simp only [Bool.or_eq_true, not_or, Option.any_eq_true, not_exists, not_and, decide_eq_true_eq,
    Nat.not_lt, Nat.not_le] at hvalid
  refine ⟨fun value hvalue => hvalid.1 value hvalue, text_fits happlication, ?_⟩
  intro value hvalue
  obtain ⟨seconds, hseconds, rfl⟩ := Option.map_eq_some_iff.mp hvalue
  exact seconds_fit (hvalid.2 seconds hseconds)

theorem parsePhone_fits {fields : Fields} {update : Update} (h : parsePhone fields = .ok update) :
    update.Fits := by
  obtain ⟨name, hname, h⟩ := bind_eq_ok.mp h
  obtain ⟨manufacturer, hmanufacturer, h⟩ := bind_eq_ok.mp h
  cases h
  exact ⟨text_fits hname, text_fits hmanufacturer⟩

theorem parseBattery_fits {fields : Fields} {update : Update}
    (h : parseBattery fields = .ok update) : update.Fits := by
  obtain ⟨level, -, h⟩ := bind_eq_ok.mp h
  obtain ⟨critical, -, h⟩ := bind_eq_ok.mp h
  split at h
  · cases h
  rename_i hvalid
  cases h
  simp only [Bool.or_eq_true, not_or, Option.any_eq_true, not_exists, not_and, decide_eq_true_eq,
    Nat.not_lt] at hvalid
  exact hvalid.1

theorem parse_fits {channel id : ℕ} {body : List UInt8} {update : Update}
    (h : parse channel id body = .ok update) : update.Fits := by
  obtain ⟨fields, -, h⟩ := bind_eq_ok.mp h
  split at h
  · exact parseTrack_fits h
  · exact parsePlayback_fits h
  · exact parsePhone_fits h
  · exact parseBattery_fits h
  · cases h

theorem keptArtwork_fits {world : World} {old : Option Artwork.Image}
    {artwork : Option (List UInt8)} (hworld : world.Fits)
    (hold : TextFits (old.map (·.path))) :
    TextFits ((keptArtwork world old artwork).map (·.path)) := by
  have hstore (bytes : List UInt8) :
      TextFits ((Artwork.store world.file bytes).map (·.path)) := by
    unfold Artwork.store
    split
    · exact textFits_none
    · rw [Option.map_map]
      intro path hpath
      obtain ⟨file, hfile, rfl⟩ := Option.map_eq_some_iff.mp hpath
      exact hworld.file file hfile
  cases artwork with
  | none => exact textFits_none
  | some bytes =>
    simp only [keptArtwork, Option.bind_some]
    split
    · split
      · exact hold
      · exact hstore bytes
    · exact hstore bytes

theorem mergeTrack_fits {world : World} {title artist album : Option String}
    {artwork : Option (List UInt8)} {durationMs : Option ℕ} {d : Record} (hworld : world.Fits)
    (hupdate : (Update.track title artist album artwork durationMs).Fits) (h : d.Fits) :
    (mergeTrack world title artist album artwork durationMs d).Fits := by
  obtain ⟨htitle, hartist, halbum, hduration⟩ := hupdate
  unfold mergeTrack
  dsimp only
  split
  · exact { h with
      title := htitle
      artist := hartist
      album := halbum
      artwork := keptArtwork_fits hworld h.artwork
      position := timeFits_none
      duration := hduration }
  · exact { h with
      title := htitle
      artist := hartist
      album := halbum
      artwork := keptArtwork_fits hworld h.artwork
      duration := hduration }

theorem switchApplication_fits {application : String} {d : Record}
    (happlication : TextFits (some application)) (h : d.Fits) :
    (switchApplication application d).Fits := by
  unfold switchApplication
  dsimp only
  split
  · exact { h with
      title := textFits_none
      artist := textFits_none
      album := textFits_none
      artwork := textFits_none
      position := timeFits_none
      duration := timeFits_none
      application := happlication }
  · exact { h with application := happlication }

theorem mergePlayback_fits {state : Option ℕ} {application : Option String}
    {positionMs : Option ℕ} {d : Record}
    (hupdate : (Update.playback state application positionMs).Fits) (h : d.Fits) :
    (mergePlayback state application positionMs d).Fits := by
  obtain ⟨hstate, happlication, hposition⟩ := hupdate
  have hrest (d : Record) (h : d.Fits) : Record.Fits { d with
      playback := state.getD d.playback
      positionMs := positionMs.or d.positionMs
      mediaReceived := true } := by
    constructor
    case playback =>
      cases state with
      | none => exact h.playback
      | some value => exact hstate value rfl
    case position =>
      cases positionMs with
      | none => exact h.position
      | some value => exact hposition
    case title => exact h.title
    case artist => exact h.artist
    case album => exact h.album
    case artwork => exact h.artwork
    case application => exact h.application
    case duration => exact h.duration
    case deviceName => exact h.deviceName
    case manufacturer => exact h.manufacturer
    case model => exact h.model
    case battery => exact h.battery
  unfold mergePlayback
  dsimp only
  split
  · exact hrest _ (switchApplication_fits happlication h)
  · exact hrest d h

theorem merge_fits {world : World} {update : Update} {d : Record} (hworld : world.Fits)
    (hupdate : update.Fits) (h : d.Fits) : (merge world update d).Fits := by
  cases update with
  | track title artist album artwork durationMs => exact mergeTrack_fits hworld hupdate h
  | playback state application positionMs => exact mergePlayback_fits hupdate h
  | phone name manufacturer =>
    exact { h with deviceName := hupdate.1, manufacturer := hupdate.2 }
  | battery level critical =>
    have hlevel : ∀ value ∈ level.or d.battery, value ≤ 100 := by
      cases level with
      | none => exact h.battery
      | some value => exact hupdate
    exact { h with battery := hlevel }

theorem merge_silent {world : World} {update : Update} {d : Record}
    (h : d.mediaReceived = false → d.Silent)
    (hreceived : (merge world update d).mediaReceived = false) :
    (merge world update d).Silent := by
  cases update with
  | track title artist album artwork durationMs => cases hreceived
  | playback state application positionMs => cases hreceived
  | phone name manufacturer => exact { h hreceived with }
  | battery level critical => exact { h hreceived with }

theorem apply_fits {world : World} {update : Update} {snapshot : Snapshot} (hworld : world.Fits)
    (hupdate : update.Fits) (h : snapshot.Fits) : (snapshot.apply world update).1.Fits := by
  unfold Snapshot.apply
  dsimp only
  split
  · exact h
  · refine ⟨merge_fits hworld hupdate h.data, merge_silent h.silent, ?_, hworld.now⟩
    exact Nat.lt_of_le_of_lt (Nat.min_le_right _ _) (by omega)

theorem initial_fits : Snapshot.Fits {} :=
  ⟨⟨textFits_none, textFits_none, textFits_none, textFits_none, Nat.zero_le 4, textFits_none,
    timeFits_none, timeFits_none, textFits_none, textFits_none, textFits_none,
    fun _ h => nomatch h⟩, fun _ => ⟨rfl, rfl, rfl, rfl, rfl, rfl, rfl, rfl⟩, by decide, by decide⟩

end Metadata

/-! ## What the application makes of it -/

namespace AndroidAutoBackend

open Ipc Ipc.ProjectionIpcReader Metadata

theorem reads_uint8 {value : ℕ} (h : value < 256) : Reads uint8 (PayloadWriter.u8 value) value :=
  reads_uint h

theorem reads_present (value : Bool) : Reads present (PayloadWriter.u8 value.toNat) value := by
  have hbyte : value.toNat < 256 := by cases value <;> decide
  have hcheck : value.toNat ≤ 1 := by cases value <;> decide
  apply Reads.last (reads_uint8 hbyte)
  apply Reads.then (reads_check hcheck)
  cases value with
  | false => exact Reads.pure false
  | true => exact Reads.pure true

/-- The octets of an optional text. -/
def textWire : Option String → List UInt8
  | none => PayloadWriter.u8 0
  | some value => PayloadWriter.u8 1 ++ (PayloadWriter.u16 (utf8 value).length ++ utf8 value)

theorem optionalString_eq {value : Option String} (h : TextFits value) :
    optionalString value = .ok (textWire value) := by
  cases value with
  | none => rfl
  | some value =>
    have hshort : (utf8 value).length ≤ 4096 := (h value rfl).1.trans (by decide)
    rw [optionalString, string_eq hshort]
    rfl

theorem reads_text {value : Option String} (h : TextFits value) :
    Reads text (textWire value) (value.map withoutMark) := by
  cases value with
  | none =>
    apply Reads.last (reads_present false)
    exact Reads.pure none
  | some value =>
    obtain ⟨hlength, hnul⟩ := h value rfl
    apply Reads.bind (reads_present true)
    apply Reads.last (reads_string (Nat.lt_of_le_of_lt hlength (by decide)))
    apply Reads.then (reads_check ⟨(length_withoutMark_le value).trans hlength,
      fun hmem => hnul (mem_withoutMark hmem)⟩)
    exact Reads.pure (some (withoutMark value))

theorem reads_millis {value : Option ℕ} (h : TimeFits value) :
    Reads millis (optionalU64 value) value := by
  cases value with
  | none =>
    apply Reads.last (reads_present false)
    exact Reads.pure none
  | some value =>
    have hsmall : value < 2 ^ 53 := h value rfl
    have hwide : value < 256 ^ 8 := Nat.lt_of_lt_of_le hsmall (by decide)
    apply Reads.bind (reads_present true)
    apply Reads.last (reads_uint hwide)
    apply Reads.then (reads_check (show value ≤ maxSafeInteger by unfold maxSafeInteger; omega))
    exact Reads.pure (some value)

theorem reads_enumAt {α : Type} {values : List α} {index : ℕ} {value : α}
    (h : values[index]? = some value) : Reads (enumAt values index) [] value := by
  rw [enumAt, h]
  exact Reads.pure value

/-- What the application reads of a record, texts less their marks. -/
def fieldsOf (snapshot : Snapshot) (playback : MediaPlaybackState) : Fields :=
  let d := snapshot.data
  { revision := snapshot.revision
    timestamp := snapshot.updatedAtMs
    received := d.mediaReceived
    media := {
      title := d.title.map withoutMark
      artist := d.artist.map withoutMark
      album := d.album.map withoutMark
      artworkPath := (d.artwork.map (·.path)).map withoutMark
      playback := playback
      application := d.application.map withoutMark
      positionMs := d.positionMs
      durationMs := d.durationMs }
    name := d.deviceName.map withoutMark
    manufacturer := d.manufacturer.map withoutMark
    model := d.model.map withoutMark
    battery := d.battery.getD 255
    critical := criticalCode d.critical }

/-- The octets of a message behind the names of the session and of the device. -/
def fieldsWire (snapshot : Snapshot) : List UInt8 :=
  let d := snapshot.data
  [PayloadWriter.u32 snapshot.revision, PayloadWriter.u64 snapshot.updatedAtMs,
    PayloadWriter.u8 d.mediaReceived.toNat, textWire d.title, textWire d.artist, textWire d.album,
    PayloadWriter.u8 d.playback, textWire d.application, optionalU64 d.positionMs,
    optionalU64 d.durationMs, textWire d.deviceName, textWire d.manufacturer, textWire d.model,
    PayloadWriter.u8 (d.battery.getD 255), PayloadWriter.u8 (criticalCode d.critical),
    textWire (d.artwork.map (·.path))].flatten

theorem criticalCode_le (critical : Option Bool) : criticalCode critical ≤ 2 := by
  rcases critical with _ | _ | _
  · decide
  · decide
  · decide

theorem battery_valid {d : Record} (h : d.Fits) :
    d.battery.getD 255 ≤ 100 ∨ d.battery.getD 255 = 255 := by
  cases hbattery : d.battery with
  | none => exact Or.inr rfl
  | some level => exact Or.inl (h.battery level hbattery)

theorem reads_fields {snapshot : Snapshot} (h : snapshot.Fits) {playback : MediaPlaybackState}
    (hplayback : MediaPlaybackState.values[snapshot.data.playback]? = some playback) :
    Reads fields (fieldsWire snapshot) (fieldsOf snapshot playback) := by
  have hrevision : snapshot.revision < 256 ^ 4 := Nat.lt_of_lt_of_le h.revision (by decide)
  have hupdated : snapshot.updatedAtMs < 256 ^ 8 := Nat.lt_of_lt_of_le h.updatedAt (by decide)
  have hcode : snapshot.data.playback < 256 := Nat.lt_of_le_of_lt h.data.playback (by decide)
  have hbattery : snapshot.data.battery.getD 255 < 256 := by
    have := battery_valid h.data
    omega
  have hcritical : criticalCode snapshot.data.critical < 256 :=
    Nat.lt_of_le_of_lt (criticalCode_le _) (by decide)
  simp only [fieldsWire, List.flatten_cons, List.flatten_nil]
  apply Reads.bind (reads_uint hrevision)
  apply Reads.bind (reads_uint hupdated)
  apply Reads.bind (reads_present _)
  apply Reads.bind (reads_text h.data.title)
  apply Reads.bind (reads_text h.data.artist)
  apply Reads.bind (reads_text h.data.album)
  apply Reads.bind (reads_uint8 hcode)
  apply Reads.then (reads_enumAt hplayback)
  apply Reads.bind (reads_text h.data.application)
  apply Reads.bind (reads_millis h.data.position)
  apply Reads.bind (reads_millis h.data.duration)
  apply Reads.bind (reads_text h.data.deviceName)
  apply Reads.bind (reads_text h.data.manufacturer)
  apply Reads.bind (reads_text h.data.model)
  apply Reads.bind (reads_uint8 hbattery)
  apply Reads.bind (reads_uint8 hcritical)
  apply Reads.bind (reads_text h.data.artwork)
  exact Reads.pure _

/-- The message of a snapshot that fits. -/
theorem message_eq {snapshot : Snapshot} (h : snapshot.Fits) {session device : String}
    (hsession : (utf8 session).length ≤ 4096) (hdevice : (utf8 device).length ≤ 4096) :
    snapshot.message session device = .ok {
      kind := 11
      payload := (PayloadWriter.u16 (utf8 session).length ++ utf8 session) ++
        ((PayloadWriter.u16 (utf8 device).length ++ utf8 device) ++ fieldsWire snapshot) } := by
  unfold Snapshot.message
  simp only [string_eq hsession, string_eq hdevice, optionalString_eq h.data.title,
    optionalString_eq h.data.artist, optionalString_eq h.data.album,
    optionalString_eq h.data.application, optionalString_eq h.data.deviceName,
    optionalString_eq h.data.manufacturer, optionalString_eq h.data.model,
    optionalString_eq h.data.artwork]
  rfl

variable {Streams : Type}

/-- The session that the application has under the name it reads. -/
structure Live (backend : Backend Streams) (session device : String) (revision : ℕ)
    (live : ProjectionSession Streams) : Prop where
  known : backend.sessions (withoutMark session) = some live
  serves : live.serves (withoutMark device) = true
  newer : ∀ metadata ∈ live.metadata, metadata.revision < revision

theorem receiveMetadata_eq {backend : Backend Streams} {snapshot : Snapshot} (h : snapshot.Fits)
    {session device : String} {live : ProjectionSession Streams}
    (hsession : (utf8 session).length ≤ 4096) (hdevice : (utf8 device).length ≤ 4096)
    (hlive : Live backend session device snapshot.revision live)
    {playback : MediaPlaybackState}
    (hplayback : MediaPlaybackState.values[snapshot.data.playback]? = some playback) :
    receiveMetadata backend ((PayloadWriter.u16 (utf8 session).length ++ utf8 session) ++
        ((PayloadWriter.u16 (utf8 device).length ++ utf8 device) ++ fieldsWire snapshot)) =
      { backend with
        sessions := Function.update backend.sessions (withoutMark session)
          (some { live with metadata := some (fieldsOf snapshot playback).metadata }) } := by
  have hshort {n : ℕ} (hn : n ≤ 4096) : n < 2 ^ 16 := Nat.lt_of_le_of_lt hn (by decide)
  have hvalid : (((fieldsOf snapshot playback).battery ≤ 100 ∨
      (fieldsOf snapshot playback).battery = 255) ∧ (fieldsOf snapshot playback).critical ≤ 2 ∧
      (fieldsOf snapshot playback).timestamp ≤ maxSafeInteger) :=
    ⟨battery_valid h.data, criticalCode_le _, Nat.le_of_lt_succ h.updatedAt⟩
  have hnewer : live.metadata.any (snapshot.revision ≤ ·.revision) = false := by
    rw [Option.any_eq_false]
    intro metadata hmetadata
    exact decide_eq_false (Nat.not_le.mpr (hlive.newer metadata hmetadata))
  have hrun : (handleMetadata backend.sessions).run
      ((PayloadWriter.u16 (utf8 session).length ++ utf8 session) ++
        ((PayloadWriter.u16 (utf8 device).length ++ utf8 device) ++ fieldsWire snapshot)) =
      .ok (Function.update backend.sessions (withoutMark session)
        (some { live with metadata := some (fieldsOf snapshot playback).metadata }), []) := by
    unfold handleMetadata
    rw [(reads_string (hshort hsession)).run_bind, (reads_string (hshort hdevice)).run_bind,
      hlive.known]
    dsimp only
    rw [if_pos hlive.serves, ← List.append_nil (fieldsWire snapshot),
      (reads_fields h hplayback).run_bind, requireDone, done_run_bind, check_run_bind hvalid,
      if_neg (by rw [Bool.not_eq_true]; exact hnewer)]
    rfl
  rw [receiveMetadata, hrun]

/-- Everything of a snapshot is what the application has. -/
structure Agrees (snapshot : Snapshot) (metadata : ProjectionSessionMetadata) : Prop where
  revision : metadata.revision = snapshot.revision
  updatedAt : metadata.updatedAtMs = snapshot.updatedAtMs
  received : metadata.media.isSome = snapshot.data.mediaReceived
  title : metadata.media.bind (·.title) = snapshot.data.title
  artist : metadata.media.bind (·.artist) = snapshot.data.artist
  album : metadata.media.bind (·.album) = snapshot.data.album
  artwork : metadata.media.bind (·.artworkPath) = snapshot.data.artwork.map (·.path)
  playback : (metadata.media.map (·.playback.index)).getD 0 = snapshot.data.playback
  application : metadata.media.bind (·.application) = snapshot.data.application
  position : metadata.media.bind (·.positionMs) = snapshot.data.positionMs
  duration : metadata.media.bind (·.durationMs) = snapshot.data.durationMs
  deviceName : metadata.phone.displayName = snapshot.data.deviceName
  manufacturer : metadata.phone.manufacturer = snapshot.data.manufacturer
  model : metadata.phone.model = snapshot.data.model
  battery : metadata.phone.batteryPercent = snapshot.data.battery
  critical : metadata.phone.criticalBattery = snapshot.data.critical

/-- A text without a mark in front. -/
def Unmarked (text : Option String) : Prop :=
  ∀ value ∈ text, value.toList.head? ≠ some byteOrderMark

/-- No text of the record begins with a mark. -/
structure Plain (d : Record) : Prop where
  title : Unmarked d.title
  artist : Unmarked d.artist
  album : Unmarked d.album
  artwork : Unmarked (d.artwork.map (·.path))
  application : Unmarked d.application
  deviceName : Unmarked d.deviceName
  manufacturer : Unmarked d.manufacturer
  model : Unmarked d.model

theorem map_withoutMark_eq_iff {text : Option String} :
    text.map withoutMark = text ↔ Unmarked text := by
  cases text with
  | none => simp [Unmarked]
  | some value => simp [Unmarked, withoutMark_eq_self_iff]

theorem battery_metadata {d : Record} (h : d.Fits) :
    (if d.battery.getD 255 = 255 then none else some (d.battery.getD 255)) = d.battery := by
  cases hbattery : d.battery with
  | none => rfl
  | some level =>
    have : level ≤ 100 := h.battery level hbattery
    rw [Option.getD_some, if_neg (by omega)]

theorem critical_metadata (critical : Option Bool) :
    (if criticalCode critical = 0 then none else some (criticalCode critical == 2)) = critical := by
  rcases critical with _ | _ | _
  · rfl
  · rfl
  · rfl

/-- What has been read agrees with the snapshot if the phone sent no marks. -/
theorem agrees_iff {snapshot : Snapshot} (h : snapshot.Fits) {playback : MediaPlaybackState}
    (hplayback : MediaPlaybackState.values[snapshot.data.playback]? = some playback) :
    Agrees snapshot (fieldsOf snapshot playback).metadata ↔ Plain snapshot.data := by
  have hmedia {α : Type} (field : MediaDetails → Option α) {value : Option α}
      (hfield : field (fieldsOf snapshot playback).media = value)
      (hsilent : snapshot.data.mediaReceived = false → value = none) :
      (fieldsOf snapshot playback).metadata.media.bind field = value := by
    cases hreceived : snapshot.data.mediaReceived with
    | false => simp [Fields.metadata, fieldsOf, hreceived, hsilent hreceived]
    | true =>
      simp only [Fields.metadata]
      rw [if_pos (by exact hreceived), Option.bind_some, hfield]
  have htext (field : MediaDetails → Option String) {text : Option String}
      (hfield : field (fieldsOf snapshot playback).media = text.map withoutMark)
      (hsilent : snapshot.data.mediaReceived = false → text = none) :
      (fieldsOf snapshot playback).metadata.media.bind field = text ↔ Unmarked text := by
    rw [hmedia field hfield fun hreceived => by rw [hsilent hreceived]; rfl,
      map_withoutMark_eq_iff]
  have htitle := htext (·.title) rfl fun hreceived => (h.silent hreceived).title
  have hartist := htext (·.artist) rfl fun hreceived => (h.silent hreceived).artist
  have halbum := htext (·.album) rfl fun hreceived => (h.silent hreceived).album
  have hartwork := htext (·.artworkPath) rfl fun hreceived => by
    rw [(h.silent hreceived).artwork]
    rfl
  have happlication := htext (·.application) rfl fun hreceived =>
    (h.silent hreceived).application
  constructor
  · intro hagrees
    exact ⟨htitle.mp hagrees.title, hartist.mp hagrees.artist, halbum.mp hagrees.album,
      hartwork.mp hagrees.artwork, happlication.mp hagrees.application,
      map_withoutMark_eq_iff.mp hagrees.deviceName,
      map_withoutMark_eq_iff.mp hagrees.manufacturer, map_withoutMark_eq_iff.mp hagrees.model⟩
  · intro hplain
    constructor
    case revision => rfl
    case updatedAt => rfl
    case received =>
      cases hreceived : snapshot.data.mediaReceived with
      | false => simp [Fields.metadata, fieldsOf, hreceived]
      | true => simp [Fields.metadata, fieldsOf, hreceived]
    case title => exact htitle.mpr hplain.title
    case artist => exact hartist.mpr hplain.artist
    case album => exact halbum.mpr hplain.album
    case artwork => exact hartwork.mpr hplain.artwork
    case playback =>
      have hindex := MediaPlaybackState.index_of_values hplayback
      cases hreceived : snapshot.data.mediaReceived with
      | false => simp [Fields.metadata, fieldsOf, hreceived, (h.silent hreceived).playback]
      | true => simp [Fields.metadata, fieldsOf, hreceived, hindex]
    case application => exact happlication.mpr hplain.application
    case position => exact hmedia (·.positionMs) rfl fun hreceived => (h.silent hreceived).position
    case duration => exact hmedia (·.durationMs) rfl fun hreceived => (h.silent hreceived).duration
    case deviceName => exact map_withoutMark_eq_iff.mpr hplain.deviceName
    case manufacturer => exact map_withoutMark_eq_iff.mpr hplain.manufacturer
    case model => exact map_withoutMark_eq_iff.mpr hplain.model
    case battery => exact battery_metadata h.data
    case critical => exact critical_metadata snapshot.data.critical

theorem applyAll_fits {updates : List (World × Update)}
    (hworld : ∀ entry ∈ updates, entry.1.Fits) (hparsed : ∀ entry ∈ updates, entry.2.Fits) :
    (Snapshot.applyAll {} updates).Fits := by
  induction updates using List.reverseRecOn with
  | nil => exact initial_fits
  | append_singleton updates entry ih =>
    rw [Snapshot.applyAll, List.foldl_append]
    apply apply_fits (hworld entry (by simp)) (hparsed entry (by simp))
    exact ih (fun other hother => hworld other (List.mem_append_left _ hother))
      fun other hother => hparsed other (List.mem_append_left _ hother)

/-- The daemon can send every snapshot that it can come to hold, and the application takes it:
as it is exactly if no text begins with a mark. -/
theorem metadata_agreement (updates : List (World × Update))
    (hworld : ∀ entry ∈ updates, entry.1.Fits)
    (hparsed : ∀ entry ∈ updates, ∃ channel id body, parse channel id body = .ok entry.2)
    (session device : String) (hsession : (utf8 session).length ≤ 4096)
    (hdevice : (utf8 device).length ≤ 4096) (backend : Backend Streams)
    (live : ProjectionSession Streams)
    (hlive : Live backend session device (Snapshot.applyAll {} updates).revision live) :
    ∃ message metadata, (Snapshot.applyAll {} updates).message session device = .ok message ∧
      receiveMetadata backend message.payload = { backend with
        sessions := Function.update backend.sessions (withoutMark session)
          (some { live with metadata := some metadata }) } ∧
      (Agrees (Snapshot.applyAll {} updates) metadata ↔
        Plain (Snapshot.applyAll {} updates).data) := by
  have hfits : (Snapshot.applyAll {} updates).Fits := by
    apply applyAll_fits hworld
    intro entry hentry
    obtain ⟨channel, id, body, hbody⟩ := hparsed entry hentry
    exact parse_fits hbody
  obtain ⟨playback, hplayback⟩ : ∃ playback,
      MediaPlaybackState.values[(Snapshot.applyAll {} updates).data.playback]? = some playback :=
    ⟨_, List.getElem?_eq_getElem (Nat.lt_succ_of_le hfits.data.playback)⟩
  exact ⟨_, _, message_eq hfits hsession hdevice,
    receiveMetadata_eq hfits hsession hdevice hlive hplayback, agrees_iff hfits hplayback⟩

def streaming : ProjectionSession Unit where
  id := "aa-wired:phone"
  device := ⟨"phone", "Phone"⟩
  state := .streaming
  streams := ()

/-- An application that knows one session, which has no metadata yet. -/
def listening : Backend Unit where
  sessions := Function.update (fun _ => none) "aa-wired:phone" (some streaming)

def afternoon : World := ⟨none, 1700000000000⟩

theorem metadata_agreement_song :
    ∃ message metadata,
      (Snapshot.applyAll {} [(afternoon, .track (some "Song") none none none none)]).message
        "aa-wired:phone" "phone" = .ok message ∧
      ((receiveMetadata listening message.payload).sessions "aa-wired:phone").bind (·.metadata) =
        some metadata ∧
      (receiveMetadata listening message.payload).metadataWarning = false ∧
      Agrees (Snapshot.applyAll {} [(afternoon, .track (some "Song") none none none none)])
        metadata := by
  have hname : withoutMark "aa-wired:phone" = "aa-wired:phone" := by decide +kernel
  obtain ⟨message, metadata, hmessage, hreceived, hagrees⟩ := metadata_agreement
    [(afternoon, .track (some "Song") none none none none)]
    (by
      intro entry hentry
      cases List.mem_singleton.mp hentry
      exact ⟨textFits_none, by decide⟩)
    (by
      intro entry hentry
      cases List.mem_singleton.mp hentry
      exact ⟨10, 0x8003, [10, 4, 83, 111, 110, 103], by decide +kernel⟩)
    "aa-wired:phone" "phone" (by decide +kernel) (by decide +kernel) listening streaming
    ⟨by rw [hname]; rfl, by decide +kernel, fun metadata h => absurd h (Option.not_mem_none _)⟩
  refine ⟨message, metadata, hmessage, ?_, ?_, hagrees.mpr ?_⟩
  · rw [hreceived, hname]
    simp
  · rw [hreceived]
    rfl
  · have hunmarked : Unmarked none := fun _ h => nomatch h
    refine ⟨?_, hunmarked, hunmarked, hunmarked, hunmarked, hunmarked, hunmarked, hunmarked⟩
    intro value hvalue
    cases Option.mem_some_iff.mp hvalue
    decide +kernel

/-- A title that begins with a mark is shown without it. -/
theorem metadata_mark_lost :
    parse 10 0x8003 [10, 7, 0xef, 0xbb, 0xbf, 83, 111, 110, 103] =
        .ok (.track (some "\ufeffSong") none none none none) ∧
      (Snapshot.applyAll {}
        [(afternoon, .track (some "\ufeffSong") none none none none)]).data.title =
          some "\ufeffSong" ∧
      ∃ message,
        (Snapshot.applyAll {} [(afternoon, .track (some "\ufeffSong") none none none none)]).message
          "aa-wired:phone" "phone" = .ok message ∧
        (receiveMetadata listening message.payload).metadataWarning = false ∧
        ((((receiveMetadata listening message.payload).sessions "aa-wired:phone").bind
          (·.metadata)).bind (·.media)).bind (·.title) = some "Song" := by
  refine ⟨by decide +kernel, by decide +kernel, _, rfl, ?_, ?_⟩
  · decide +kernel
  · decide +kernel

end AndroidAutoBackend

end ProjectArgo.Projection
