import ProjectArgo.Library.Assoc
import ProjectArgo.Library.Json
import ProjectArgo.Library.Run

/-!
# The manager of phone sessions

Local clients ask for settings, connections and disconnections. A request copies the watched
state, works on the copy and replaces the state; a mutex lets one request do so at a time.
The supervisor starts sessions from the state, and when one has ended it turns the state
off; it does not take the mutex. USB leases and the phase that `status` reports are left out.
-/
namespace ProjectArgo.CarPlay.Management

open Library Library.Run

/-! ## Settings -/

structure Settings where
  enabled : Bool
  autoConnect : Bool
  width : UInt16
  height : UInt16
  widthMm : UInt16
  heightMm : UInt16
  fps : UInt16
  rightHandDrive : Bool
  audioSink : Option String
  audioSource : Option String
  deriving DecidableEq

inductive Refusal
  | other (message : String)
  | json
  | bounds
  | storage
  deriving DecidableEq

namespace Settings

def ofBool : Json → Option Bool
  | .bool value => some value
  | _ => none

def ofNumber : Json → Option UInt16
  | .int value => if 0 ≤ value ∧ value < 65536 then some (UInt16.ofNat value.toNat) else none
  | _ => none

def ofName : Json → Option (Option String)
  | .null => some none
  | .string text => some (some text)
  | _ => none

def toName : Option String → Json
  | none => .null
  | some text => .string text

def toValue (settings : Settings) : List (String × Json) :=
  [("enabled", .bool settings.enabled), ("auto_connect", .bool settings.autoConnect),
    ("width", .int settings.width.toNat), ("height", .int settings.height.toNat),
    ("width_mm", .int settings.widthMm.toNat), ("height_mm", .int settings.heightMm.toNat),
    ("fps", .int settings.fps.toNat), ("right_hand_drive", .bool settings.rightHandDrive),
    ("audio_sink", toName settings.audioSink), ("audio_source", toName settings.audioSource)]

/-- Every field has its type, and there are no others. -/
def fromValue (fields : List (String × Json)) : Option Settings := do
  if fields.length ≠ 10 then none
  else
    some
      { enabled := ← (fields.lookup "enabled").bind ofBool
        autoConnect := ← (fields.lookup "auto_connect").bind ofBool
        width := ← (fields.lookup "width").bind ofNumber
        height := ← (fields.lookup "height").bind ofNumber
        widthMm := ← (fields.lookup "width_mm").bind ofNumber
        heightMm := ← (fields.lookup "height_mm").bind ofNumber
        fps := ← (fields.lookup "fps").bind ofNumber
        rightHandDrive := ← (fields.lookup "right_hand_drive").bind ofBool
        audioSink := ← (fields.lookup "audio_sink").bind ofName
        audioSource := ← (fields.lookup "audio_source").bind ofName }

def isDevice (limit : ℕ) (name : String) : Bool :=
  name ≠ "" ∧ name.utf8ByteSize ≤ limit ∧
    name.toList.all fun c => c.isAlphanum || c = '.' || c = '_' || c = '-'

/-- The checks of `Settings::options`. -/
def options (settings : Settings) : Except Refusal Unit :=
  if ¬ (320 ≤ settings.width ∧ settings.width ≤ 1920) ∨
      ¬ (240 ≤ settings.height ∧ settings.height ≤ 1080) ∨
      ¬ (50 ≤ settings.widthMm ∧ settings.widthMm ≤ 1000) ∨
      ¬ (30 ≤ settings.heightMm ∧ settings.heightMm ≤ 1000) ∨
      ¬ (settings.fps = 30 ∨ settings.fps = 60) then .error .bounds
  else if settings.audioSink.any fun name => !isDevice 128 name then
    .error (.other "Invalid audio device")
  else if settings.audioSource.any fun name => !isDevice 256 name then
    .error (.other "Invalid audio device")
  else if settings.audioSource.isSome ∧ settings.audioSink.isNone then
    .error (.other "Microphone requires audio output")
  else .ok ()

/-- The settings with the fields of a patch. -/
def patched (settings : Settings) : Option (List (String × Json)) → Except Refusal Settings
  | none => .error (.other "Missing settings")
  | some patch =>
    match fromValue (patch.foldl (fun fields entry => Assoc.put fields entry.1 entry.2)
      settings.toValue) with
    | none => .error .json
    | some next =>
      match next.options with
      | .error e => .error e
      | .ok () => .ok next

end Settings

/-! ## Requests -/

/-- The watched state. -/
structure State where
  settings : Settings
  running : Bool
  generation : ℕ := 0
  authorize : Bool := false
  deriving DecidableEq

inductive Request
  | status
  | configure (patch : Option (List (String × Json)))
  | connect
  | disconnect
  | unknown

namespace State

def configured (state : State) (next : Settings) : State :=
  if next.enabled ≠ state.settings.enabled then
    { state with
      running := next.enabled, generation := state.generation + 1, settings := next }
  else { state with settings := next }

def connected (state : State) : State :=
  { state with running := true, authorize := true, generation := state.generation + 1 }

def disconnected (state : State) : State :=
  { state with running := false, generation := state.generation + 1 }

end State

/-- What an ended session was ended by: the user of the phone, or else. -/
inductive Outcome
  | byUser
  | gone
  | failed
  deriving DecidableEq

/-- The request that holds the mutex, with its copy of the state. -/
inductive Handling
  | copied (request : Request) (copy : State)
  | persisted (patch : Option (List (String × Json))) (copy : State) (next : Settings)

/-- Where the supervisor is: it has yet to read the state, prepares or runs a session of the
state that it read, looks at how that ended, or is about to turn the state off. -/
inductive Supervisor
  | reading
  | preparing (current : State)
  | session (current : State)
  | ended (current : State) (outcome : Outcome)
  | ending (current : State)

structure System where
  state : State
  file : Option Settings
  handling : Option Handling := none
  supervisor : Supervisor := .reading

/-- `asks` tells that the request connects or enables. -/
inductive Act
  | reported (settings : Settings) (running : Bool)
  | refused (e : Refusal)
  | accepted (request : Request) (asks : Bool)
  | started (current : State)
  | recorded (generation : ℕ)

/-- Requests take the mutex and copy the state, write the file and answer; the supervisor
reads, checks and writes. Between any two of these steps others may happen. -/
inductive Event
  | request (request : Request)
  | persist (written : Bool)
  | answer
  | read
  | start (ready : Bool)
  | ended (outcome : Outcome)
  | check
  | write

namespace System

/-- `Manager::load`, with the settings that the options have. -/
def load (file : Option Settings) (options : Settings) : System :=
  let settings := file.getD options
  { state := { settings, running := settings.enabled && settings.autoConnect }, file }

def refuse (system : System) (e : Refusal) : System × List Act :=
  ({ system with handling := none }, [.refused e])

def replace (system : System) (state : State) (request : Request) (asks : Bool) :
    System × List Act :=
  ({ system with state, handling := none }, [.accepted request asks])

/-- The settings of a `configure` are checked and persisted. -/
def persist (system : System) (written : Bool) : System × List Act :=
  match system.handling with
  | some (.copied (.configure patch) copy) =>
    match copy.settings.patched patch with
    | .error e => system.refuse e
    | .ok next =>
      if written then
        ({ system with file := some next, handling := some (.persisted patch copy next) }, [])
      else system.refuse .storage
  | _ => (system, [])

def answer (system : System) : System × List Act :=
  match system.handling with
  | some (.copied .status copy) =>
    ({ system with handling := none }, [.reported copy.settings copy.running])
  | some (.copied .connect copy) =>
    if copy.settings.enabled then system.replace copy.connected .connect true
    else system.refuse (.other "Enable CarPlay first")
  | some (.copied .disconnect copy) => system.replace copy.disconnected .disconnect false
  | some (.copied .unknown _) => system.refuse (.other "Unknown operation")
  | some (.persisted patch copy next) =>
    system.replace (copy.configured next) (.configure patch)
      (next.enabled && !copy.settings.enabled)
  | _ => (system, [])

def read (system : System) : System :=
  match system.supervisor with
  | .reading =>
    if system.state.running ∧ system.state.settings.enabled then
      { system with supervisor := .preparing system.state }
    else system
  | _ => system

/-- `ready` tells whether the phone may be used yet. -/
def start (system : System) (ready : Bool) : System × List Act :=
  match system.supervisor with
  | .preparing current =>
    if ready then ({ system with supervisor := .session current }, [.started current])
    else ({ system with supervisor := .reading }, [])
  | _ => (system, [])

def check (system : System) : System × List Act :=
  match system.supervisor with
  | .ended current outcome =>
    if system.state.generation ≠ current.generation then
      ({ system with supervisor := .reading }, [])
    else if outcome = .byUser ∨ ¬ current.settings.autoConnect then
      ({ system with supervisor := .ending current }, [])
    else ({ system with supervisor := .reading }, [])
  | _ => (system, [])

def write (system : System) : System × List Act :=
  match system.supervisor with
  | .ending current =>
    ({ system with state := { system.state with running := false }, supervisor := .reading },
      [.recorded current.generation])
  | _ => (system, [])

def step (system : System) : Event → System × List Act
  | .request request =>
    match system.handling with
    | none => ({ system with handling := some (.copied request system.state) }, [])
    | some _ => (system, [])
  | .persist written => system.persist written
  | .answer => system.answer
  | .read => (system.read, [])
  | .start ready => system.start ready
  | .ended outcome =>
    match system.supervisor with
    | .session current => ({ system with supervisor := .ended current outcome }, [])
    | _ => (system, [])
  | .check => system.check
  | .write => system.write

end System

end ProjectArgo.CarPlay.Management
