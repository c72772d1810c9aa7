import Mathlib
import ProjectArgo.Library.Ends

/-!
# The camera daemon's loop

The daemon captures from the camera selected for a role and writes its frames into a ring that
the driver's picture is drawn from. Each iteration takes the owner's commands, looks for the
devices, starts the capture when that is due, takes a frame and gives up on a capture that has
fallen silent. Whatever it finds, the ring's picture is valid only while it is a fresh one of
the selected camera.
-/
namespace ProjectArgo.Camera.CaptureLoop

open Library.Ends

/-! ## Devices and commands -/

structure Mode where
  width : ℤ
  height : ℤ
  fps : ℤ
  jpeg : Bool
  deriving DecidableEq

/-- The check of a mode; what it asks of the camera is left to the pipeline. -/
def Mode.caps (mode : Mode) : Except String Unit :=
  if 1 ≤ mode.width ∧ mode.width ≤ 1920 ∧ 1 ≤ mode.height ∧ mode.height ≤ 1080 ∧
      1 ≤ mode.fps ∧ mode.fps ≤ 30 then
    .ok ()
  else .error "Capture mode outside supported bounds"

structure Configuration where
  mode : Option Mode := none
  rotation : ℕ := 0
  mirror : Bool := false
  flip : Bool := false
  deriving DecidableEq

def Configuration.validate (configuration : Configuration) : Except String Unit :=
  if configuration.rotation ∉ [0, 90, 180, 270] then .error "Invalid camera rotation"
  else
    match configuration.mode with
    | some mode => mode.caps
    | none => .ok ()

structure Device where
  stableId : String
  displayName : String
  node : String
  deriving DecidableEq

/-- Open through the stable alias, not a node retained earlier. -/
def Device.capturePath (device : Device) : String :=
  let text := device.stableId.toList
  if "by-id:".toList.isPrefixOf text then
    "/dev/v4l/by-id/" ++ String.ofList (text.drop 6)
  else if "by-path:".toList.isPrefixOf text then
    "/dev/v4l/by-path/" ++ String.ofList (text.drop 8)
  else device.node

inductive Role
  | rear
  | front
  | left
  | right
  deriving DecidableEq

def Role.parse : String → Option Role
  | "rear" => some .rear
  | "front" => some .front
  | "left" => some .left
  | "right" => some .right
  | _ => none

def Role.number : Role → ℕ
  | .front => 1
  | .left => 2
  | .right => 3
  | .rear => 0

inductive Op
  | refresh
  | modes
  | stop
  | close
  | start
  | other (name : String)
  deriving DecidableEq

structure Command where
  version : ℕ := 1
  id : ℕ
  op : Op
  role : Option String := none
  stableId : Option String := none
  configuration : Option Configuration := none

/-! ## The capture and its ring -/

/-- A running capture, and the role it was started for. -/
structure Capture where
  device : Device
  configuration : Configuration
  role : Option Role
  deriving DecidableEq

/-- A frame as the pipeline hands it over. -/
structure Sample where
  length : ℕ
  width : ℕ
  height : ℕ
  stride : ℕ
  fps : ℕ × ℕ
  deriving DecidableEq

/-- A written slot, with the capture that the picture is of and the time of the iteration that
wrote it. -/
structure Slot where
  sample : Sample
  capture : Capture
  written : ℤ
  deriving DecidableEq

structure Ring where
  sequence : ℕ := 0
  latest : Option Slot := none
  valid : Bool := false
  role : ℕ := 0
  deriving DecidableEq

def capacity : ℕ := 1920 * 1080 * 4

namespace Ring

variable (ring : Ring)

def invalidate : Ring := { ring with valid := false }

def setRole (role : ℕ) : Ring := { ring with role := role + 1 }

def write (slot : Slot) : Except String Ring :=
  let sample := slot.sample
  if sample.width = 0 ∨ sample.height = 0 ∨ 1920 < sample.width ∨ 1920 < sample.height ∨
      sample.stride < sample.width * 4 ∨ capacity < sample.stride * sample.height ∨
      sample.length < sample.stride * sample.height then
    .error "Camera frame exceeds ARCR bounds"
  else
    .ok { ring with sequence := ring.sequence + 1, latest := some slot, valid := true }

end Ring

structure Frame where
  width : ℕ := 0
  height : ℕ := 0
  stride : ℕ := 0
  fps : ℕ × ℕ := (0, 1)
  sequence : ℕ := 0
  deriving DecidableEq

/-- What the pipeline has: an error or its end, nothing, or a frame. -/
inductive Pulled
  | failed (error : String)
  | nothing
  | sample (sample : Sample)

def Capture.frame (capture : Capture) (now : ℤ) (pulled : Pulled) (ring : Ring) :
    Except String (Option (Frame × Ring)) :=
  match pulled with
  | .failed error => .error error
  | .nothing => .ok none
  | .sample sample =>
    match ring.write ⟨sample, capture, now⟩ with
    | .error error => .error error
    | .ok ring =>
      .ok (some (⟨sample.width, sample.height, sample.stride, sample.fps, ring.sequence⟩, ring))

/-! ## Health -/

/-- Instants are nanoseconds of a clock that may read anything. -/
structure Health where
  last : ℤ
  retries : ℕ := 0
  retryAt : Option ℤ := none
  deriving DecidableEq

def millisecond : ℕ := 10 ^ 6

def stall : ℕ := 750 * millisecond

def restart : ℕ := 2000 * millisecond

/-- Time elapsed, none where the earlier reading is the greater. -/
def elapsed (now earlier : ℤ) : ℕ := (now - earlier).toNat

namespace Health

variable (health : Health)

def stale (now : ℤ) : Bool := stall ≤ elapsed now health.last

def restartDue (now : ℤ) : Bool := restart ≤ elapsed now health.last

def failed (now : ℤ) : Health × Bool :=
  if 3 ≤ health.retries then (health, false)
  else
    ({ health with
      retries := health.retries + 1
      retryAt := some (now + (1000 * millisecond * (health.retries + 1) : ℕ)) }, true)

end Health

/-! ## The daemon -/

inductive Phase
  | idle
  | starting
  | streaming
  | stale
  | disconnected
  | failed
  deriving DecidableEq

structure Status where
  devices : List Device
  activeRole : Option Role
  state : Phase
  frame : Frame
  sequence : ℕ
  lastFrameAgeMs : Option ℕ
  error : Option String
  deriving DecidableEq

/-- What the daemon does: it answers and publishes, counts anew, starts a capture, and takes
note of a failure. -/
inductive Act
  | reply (id : ℕ) (failure : Option String) (modes : List Mode)
  | status (status : Status)
  | renewed
  | attempt
  | failure
  deriving DecidableEq

/-- A command that has been read, or bytes that are none, with what its handling meets. -/
structure Arrival where
  command : Option Command
  devices : Option (List Device) := some []
  modes : String → Except String (List Mode) := fun _ => .ok []
  stopped : Bool := true
  sent : Bool := true

structure Daemon where
  ring : Ring := {}
  pending : List Arrival := []
  capture : Option Capture := none
  selected : Option String := none
  configuration : Configuration := {}
  role : Option Role := none
  state : Phase := .idle
  error : Option String := none
  frame : Frame := {}
  lastFrame : Option ℕ := none
  health : Health
  devices : List Device
  nextInventory : ℤ
  nextStatus : ℤ
  log : List Act := []

/-- The stop of a capture may fail, and the loop is left with it. -/
def stopCapture (stopped : Bool) (d : Daemon) : Except Daemon Daemon :=
  match d.capture with
  | none => .ok d
  | some _ => if stopped then .ok { d with capture := none } else .error { d with capture := none }

/-- Health as new, with the time of a start. -/
def renew (now : ℤ) (retryAt : Option ℤ) (d : Daemon) : Daemon :=
  { d with health := { last := now, retryAt := retryAt }, log := d.log ++ [.renewed] }

def bounded (text : String) : String := String.ofList (text.toList.take 240)

/-! ## Commands -/

/-- A command, with the failure and the modes of its answer. -/
def perform (now : ℤ) (arrival : Arrival) (command : Command) (d : Daemon) :
    Except Daemon (Daemon × Option String × List Mode) :=
  match command.op with
  | .refresh => .ok ({ d with nextInventory := now }, none, [])
  | .modes =>
    if d.capture.isSome || d.selected.isSome then
      .ok (d, some "Stop capture before inspecting modes", [])
    else
      match arrival.devices with
      | none => .error d
      | some devices =>
        match devices.find? fun device => some device.stableId = command.stableId with
        | none => .ok (d, some "Assigned camera is unavailable", [])
        | some device =>
          match arrival.modes device.capturePath with
          | .ok modes => .ok (d, none, modes)
          | .error error => .ok (d, some error, [])
  | .stop | .close => do
    let d ← stopCapture arrival.stopped { d with ring := d.ring.invalidate }
    .ok (renew now none { d with
      selected := none, role := none, state := .idle, error := none, frame := {},
      lastFrame := none }, none, [])
  | .start =>
    let requested := command.configuration.getD {}
    match requested.validate with
    | .error error => .ok (d, some error, [])
    | .ok () =>
      match command.role.bind Role.parse with
      | none => .ok (d, some "Invalid camera role", [])
      | some role =>
        match command.stableId.filter fun id => id.utf8ByteSize ≤ 512 with
        | none => .ok (d, some "A stable camera identity is required", [])
        | some id => do
          let d ← stopCapture arrival.stopped { d with ring := d.ring.invalidate }
          .ok (renew now (some now) { d with
            configuration := requested, selected := some id, role := some role,
            ring := d.ring.setRole role.number, state := .starting, error := none, frame := {},
            lastFrame := none, nextInventory := now }, none, [])
  | .other _ => .ok (d, some "Unsupported camera command", [])

/-- The loop is left at a command that cannot be read, when the answer is not taken, and after
a close. -/
def answer (now : ℤ) (d : Daemon) (arrival : Arrival) : Except Daemon Daemon :=
  match arrival.command with
  | none => .error d
  | some command =>
    if command.version ≠ 1 then .error d
    else do
      let (d, failure, modes) ← perform now arrival command d
      let d := { d with log := d.log ++ [.reply command.id failure modes] }
      if !arrival.sent || command.op = .close then .error d
      else .ok { d with nextStatus := now }

/-! ## One iteration -/

/-- What an iteration meets: the clock, what the owner has sent (nothing to be read any more,
where it is gone), the devices, and how the capture's start, its frame and its stops and the
status come out. -/
structure Iteration where
  now : ℤ
  received : Option (List Arrival) := some []
  devices : Except String (List Device) := .ok []
  absentStopped : Bool := true
  start : String → Configuration → Except String Unit := fun _ _ => .ok ()
  pulled : Pulled := .nothing
  monotonic : ℕ := 0
  silentStopped : Bool := true
  published : ℕ := 0
  sent : Bool := true

/-- Eight commands at most. -/
def commands (it : Iteration) (d : Daemon) : Except Daemon Daemon :=
  match it.received with
  | none => .error d
  | some received =>
    let pending := d.pending ++ received
    (pending.take 8).foldlM (answer it.now) { d with pending := pending.drop 8 }

def enumerate (it : Iteration) (d : Daemon) : Daemon :=
  match it.devices with
  | .ok devices =>
    { d with devices := devices, nextInventory := it.now + (500 * millisecond : ℕ) }
  | .error error =>
    { d with
      error := some (bounded error), nextInventory := it.now + (500 * millisecond : ℕ) }

/-- Whether the selected device is among the devices. -/
def presence (it : Iteration) (d : Daemon) : Except Daemon Daemon :=
  match d.selected with
  | none => .ok d
  | some id =>
    if d.devices.any fun device => device.stableId = id then
      if d.state = .disconnected then
        .ok (renew it.now (some it.now) { d with state := .starting, error := none })
      else .ok d
    else do
      let d ← stopCapture it.absentStopped { d with ring := d.ring.invalidate }
      .ok { d with
        state := .disconnected, frame := {}, lastFrame := none,
        health := { d.health with retryAt := none } }

def inventory (it : Iteration) (d : Daemon) : Except Daemon Daemon :=
  if d.nextInventory ≤ it.now then presence it (enumerate it d) else .ok d

/-- A failure is retried three times and reported then; the state meanwhile is the given one. -/
def fail (now : ℤ) (meanwhile : Phase) (d : Daemon) : Daemon :=
  let (health, retried) := d.health.failed now
  { d with
    health := health
    state := if retried then meanwhile else .failed
    log := d.log ++ [.failure] }

def startCapture (it : Iteration) (d : Daemon) : Daemon :=
  if d.capture.isNone && d.selected.isSome && d.health.retryAt.any (· ≤ it.now) then
    let d := { d with health := { d.health with retryAt := none } }
    match d.devices.find? fun device => some device.stableId = d.selected with
    | some device =>
      let d := { d with log := d.log ++ [Act.attempt] }
      match it.start device.capturePath d.configuration with
      | .ok () =>
        { d with
          capture := some ⟨device, d.configuration, d.role⟩
          health := { d.health with last := it.now }
          state := .starting }
      | .error error => fail it.now .starting { d with error := some (bounded error) }
    | none => { d with state := .disconnected }
  else d

/-- A frame, or the time that has passed without one. -/
def receive (it : Iteration) (capture : Capture) (d : Daemon) : Daemon :=
  match capture.frame it.now it.pulled d.ring with
  | .ok (some (frame, ring)) =>
    { d with
      ring := ring, frame := frame, lastFrame := some it.monotonic,
      health := { d.health with last := it.now }, state := .streaming, error := none }
  | .ok none =>
    if d.health.stale it.now then { d with state := .stale, ring := d.ring.invalidate } else d
  | .error error =>
    { d with error := some (bounded error), health := { d.health with last := it.now - restart } }

def pull (it : Iteration) (d : Daemon) : Except Daemon Daemon :=
  match d.capture with
  | none => .ok d
  | some capture =>
    let d := receive it capture d
    if d.health.restartDue it.now then do
      let d ← stopCapture it.silentStopped { d with ring := d.ring.invalidate }
      .ok (fail it.now .stale { d with
        error := some (d.error.getD "Camera produced no frame for 2 seconds") })
    else .ok d

def Daemon.status (d : Daemon) (monotonic : ℕ) : Status where
  devices := d.devices
  activeRole := d.role
  state := d.state
  frame := d.frame
  sequence := d.ring.sequence
  lastFrameAgeMs := d.lastFrame.map fun t => (monotonic - t) / millisecond
  error := d.error

def publish (it : Iteration) (d : Daemon) : Except Daemon Daemon :=
  if d.nextStatus ≤ it.now then
    let d := { d with log := d.log ++ [.status (d.status it.published)] }
    if it.sent then .ok { d with nextStatus := it.now + (250 * millisecond : ℕ) } else .error d
  else .ok d

def iterate (it : Iteration) (d : Daemon) : Except Daemon Daemon := do
  let d ← commands it d
  let d ← inventory it d
  let d ← pull it (startCapture it d)
  publish it d

/-- What is done once the loop has been left. -/
def leave (d : Daemon) : Daemon := { d with ring := d.ring.invalidate, capture := none }

/-- The loop goes on, or it has been left for good. -/
def step : Except Daemon Daemon → Iteration → Except Daemon Daemon
  | .ok d, it =>
    match iterate it d with
    | .ok next => .ok next
    | .error last => .error (leave last)
  | .error d, _ => .error d

def start (now : ℤ) (devices : List Device) : Daemon where
  health := { last := now }
  devices := devices
  nextInventory := now
  nextStatus := now

/-- The daemon, whether its loop goes on or not. -/
def daemon : Except Daemon Daemon → Daemon
  | .ok d => d
  | .error d => d

end ProjectArgo.Camera.CaptureLoop
