import ProjectArgo.Projection.DaemonState
import ProjectArgo.Projection.UsbLifecycle

/-!
# The USB runtime beside the wireless one

One loop owns the wired phone. It takes hotplug events, the switch that enables
projection, a cleanup tick, the results of its workers and the deadline of an
accessory wait, and its workers run on their own: a probe that asks a phone to
switch, and a session for an accessory. The wireless runtime is another owner of
the same snapshot. One lease decides whose turn it is.
-/
namespace ProjectArgo.Projection

/-- Who holds the permit of `session_lease`. -/
inductive Holder
  | usb
  | wireless
  deriving DecidableEq

/-- A probe asks before it sends START, and reports how it ended. -/
inductive ProbePhase
  | probing
  | asking
  | answered (allowed : Bool)
  | switching
  | reporting (result : Except String ℕ)
  | done
  deriving DecidableEq

/-- A probe task. Its token stands for the task itself. -/
structure Probe where
  token : ℕ
  key : UsbDeviceKey
  phase : ProbePhase
  deriving DecidableEq

/-- A session task whose handle the loop has. -/
structure ActiveSession where
  key : UsbDeviceKey
  finished : Bool := false
  deriving DecidableEq

/-- `WorkResult`. The token names the probe that waits for an acknowledgement. -/
inductive WorkResult
  | beforeStart (key : UsbDeviceKey) (version token : ℕ)
  | aoap (key : UsbDeviceKey) (result : Except String ℕ)
  | version (key : UsbDeviceKey) (result : Except String (ℕ × ℕ))
  deriving DecidableEq

/-- How a session task ends: before the accessory was open, as it was told to or the
phone wished, or with a failure it reports. -/
inductive Ending
  | unopened (failure : Option String)
  | normal
  | failed (failure : String)
  deriving DecidableEq

structure UsbRuntime where
  enabled : Bool := true
  enabledChanged : Bool := false
  lease : Option Holder := none
  snapshot : RuntimeSnapshot := {}
  lifecycle : UsbConnectionState := .disconnected
  active : Option ActiveSession := none
  /-- Session tasks that run on without a handle. -/
  strays : List UsbDeviceKey := []
  probes : List Probe := []
  /-- The handle of the last probe, with the id of its device. -/
  probe : Option (String × ℕ) := none
  tokens : ℕ := 0
  attempted : Finset String := ∅
  queue : List WorkResult := []
  running : Bool := true
  deriving DecidableEq

/-- What the runtime does. A write is recorded with the holder of the lease. -/
inductive UsbAct
  | wrote (holder : Option Holder) (snapshot : RuntimeSnapshot)
  | probed (key : UsbDeviceKey) (token : ℕ)
  | started (key : UsbDeviceKey)
  | requestedStart (key : UsbDeviceKey) (token : ℕ)
  deriving DecidableEq

namespace UsbRuntime

/-- `owner.is_some()`. -/
def Owns (usb : UsbRuntime) : Prop := usb.lease = some .usb

instance (usb : UsbRuntime) : Decidable usb.Owns := inferInstanceAs (Decidable (_ = _))

/-- `owner.take()`. -/
def release (usb : UsbRuntime) : UsbRuntime :=
  { usb with lease := if usb.Owns then none else usb.lease }

def write (usb : UsbRuntime) (snapshot : RuntimeSnapshot) : UsbRuntime × List UsbAct :=
  ({ usb with snapshot := snapshot }, [.wrote usb.lease snapshot])

def publishFailure (usb : UsbRuntime) (failure : String) : UsbRuntime × List UsbAct :=
  usb.write (usb.snapshot.failed failure)

/-- The queue of results holds eight of them. -/
def trySend (usb : UsbRuntime) (result : WorkResult) : UsbRuntime :=
  { usb with queue := if usb.queue.length < 8 then usb.queue ++ [result] else usb.queue }

def setPhase (usb : UsbRuntime) (token : ℕ) (phase : ProbePhase) : UsbRuntime :=
  { usb with probes := usb.probes.map fun probe =>
      if probe.token = token then { probe with phase := phase } else probe }

/-- The acknowledgement reaches a probe that still waits for it. -/
def acknowledge (usb : UsbRuntime) (token : ℕ) (allowed : Bool) : UsbRuntime :=
  { usb with probes := usb.probes.map fun probe =>
      if probe.token = token ∧ probe.phase = .asking then
        { probe with phase := .answered allowed }
      else probe }

/-! ## Results of the workers -/

def handleWorkResult (now : ℕ) (usb : UsbRuntime) : WorkResult → UsbRuntime × List UsbAct
  | .beforeStart key _ token =>
    let (lifecycle, allowed) := usb.lifecycle.accessorySwitchRequested key.id now
    ({ usb with lifecycle := lifecycle }.acknowledge token allowed, [])
  | .aoap key (.error error) =>
    -- START may fail after the phone has left for its new enumeration.
    if usb.lifecycle.isWaiting ∧ usb.lifecycle.device?.any (·.id = key.id) then (usb, [])
    else
      let (lifecycle, failed) := usb.lifecycle.probeFailed key.id error
      if failed then
        { usb with lifecycle := lifecycle }.publishFailure ("AOAP probe/switch failed: " ++ error)
      else (usb, [])
  | .aoap _ (.ok _) => (usb, [])
  | .version key (.ok (major, minor)) =>
    ({ usb with lifecycle := (usb.lifecycle.versionNegotiated key.id major minor).1 }, [])
  | .version key (.error error) =>
    let (lifecycle, failed) := usb.lifecycle.sessionFailed key.id error
    if failed then
      { usb with lifecycle := lifecycle }.publishFailure
        ("Android Auto connection failed: " ++ error)
    else (usb, [])

def handleAll (now : ℕ) (usb : UsbRuntime) : List WorkResult → UsbRuntime × List UsbAct
  | [] => (usb, [])
  | result :: rest =>
    let (next, acts) := usb.handleWorkResult now result
    let (last, more) := next.handleAll now rest
    (last, acts ++ more)

/-- `while let Ok(result) = work_rx.try_recv()`. -/
def drain (now : ℕ) (usb : UsbRuntime) : UsbRuntime × List UsbAct :=
  { usb with queue := [] }.handleAll now usb.queue

/-! ## Session tasks -/

/-- The last write of a session task. -/
def closed (snapshot : RuntimeSnapshot) (endedNormally : Bool) : RuntimeSnapshot :=
  { snapshot with
    video := none
    audio := [false, false, false]
    session := if endedNormally then none else snapshot.session
    device := if endedNormally then none else snapshot.device }

def conclude (usb : UsbRuntime) (key : UsbDeviceKey) : Ending → UsbRuntime × List UsbAct
  | .unopened none => (usb, [])
  | .unopened (some error) => (usb.trySend (.version key (.error error)), [])
  | .normal => usb.write (closed usb.snapshot true)
  | .failed error =>
    (usb.trySend (.version key (.error error))).write (closed usb.snapshot false)

/-- `ActiveSession::stop`: the task is cancelled, and its end awaited. -/
def stopActive (usb : UsbRuntime) (ending : Ending) : UsbRuntime × List UsbAct :=
  match usb.active with
  | none => (usb, [])
  | some session =>
    if session.finished then ({ usb with active := none }, [])
    else { usb with active := none }.conclude session.key ending

/-! ## Branches of the loop -/

/-- `publish_connecting`: the epoch makes the session's id unique. -/
def publishConnecting (usb : UsbRuntime) (info : DeviceInfo) (epoch : ℕ) :
    UsbRuntime × List UsbAct :=
  let snapshot := RuntimeSnapshot.connecting ("android-usb:" ++ info.id) "Android phone"
  usb.write { snapshot with
    session := snapshot.session.map fun session =>
      { session with id := session.id ++ ":" ++ toString epoch } }

/-- `start_session`: the handle of an earlier task is dropped, the task runs on. -/
def startSession (usb : UsbRuntime) (key : UsbDeviceKey) : UsbRuntime :=
  { usb with
    active := some { key := key }
    strays := match usb.active with
      | some session => if session.finished then usb.strays else session.key :: usb.strays
      | none => usb.strays }

def spawnProbe (usb : UsbRuntime) (key : UsbDeviceKey) : UsbRuntime :=
  { usb with
    probes := usb.probes ++ [⟨usb.tokens, key, .probing⟩]
    probe := some (key.id, usb.tokens)
    tokens := usb.tokens + 1 }

def connected (usb : UsbRuntime) (info : DeviceInfo) (now epoch : ℕ) : UsbRuntime × List UsbAct :=
  if info.id ∈ usb.attempted then (usb, [])
  else if info.isAccessory then
    let (lifecycle, adopted) := usb.lifecycle.accessoryDiscovered info.key now
    if adopted then
      let (next, acts) := { usb with
        lifecycle := (lifecycle.startSession info.key.id).1
        attempted := insert info.id usb.attempted }.publishConnecting info epoch
      (next.startSession info.key, .started info.key :: acts)
    else (usb, [])
  else if info.isCandidate then
    let (lifecycle, accepted) := usb.lifecycle.candidateDiscovered info.key
    if accepted then
      let (next, acts) := { usb with
        lifecycle := lifecycle
        attempted := insert info.id usb.attempted }.publishConnecting info epoch
      (next.spawnProbe info.key, .probed info.key usb.tokens :: acts)
    else (usb, [])
  else (usb, [])

/-- A phone or an accessory takes the lease if nobody has it. -/
def acquire (usb : UsbRuntime) (info : DeviceInfo) : UsbRuntime :=
  if usb.lease = none ∧ usb.enabled = true ∧
      (info.isCandidate = true ∨ info.isAccessory = true) then { usb with lease := some .usb }
  else usb

/-- `HotplugEvent::Connected`, and every device of the initial list. -/
def attached (usb : UsbRuntime) (info : DeviceInfo) (now epoch : ℕ) : UsbRuntime × List UsbAct :=
  let usb := usb.acquire info
  if usb.Owns then usb.connected info now epoch else (usb, [])

/-- The handle of a probe is used only for its own device. -/
def abortProbe (usb : UsbRuntime) (id : String) : UsbRuntime :=
  match usb.probe with
  | some (current, token) =>
    if current = id then { usb.setPhase token .done with probe := none } else usb
  | none => usb

def stopSession (usb : UsbRuntime) (id : String) (ending : Ending) : UsbRuntime × List UsbAct :=
  if usb.active.any (·.key.id = id) then usb.stopActive ending else (usb, [])

/-- The owned device is gone: its workers stop and the snapshot is cleared. -/
def discard (usb : UsbRuntime) (id : String) (ending : Ending) : UsbRuntime × List UsbAct :=
  let (usb, stopped) := (usb.abortProbe id).stopSession id ending
  let (usb, cleared) := usb.write {}
  (usb.release, stopped ++ cleared)

/-- `HotplugEvent::Disconnected`. The original of a wait is expected to go. -/
def detached (usb : UsbRuntime) (id : String) (ending : Ending) : UsbRuntime × List UsbAct :=
  let (lifecycle, owned) := usb.lifecycle.removed id
  let waiting := usb.lifecycle.isWaiting
  let usb := { usb with attempted := usb.attempted.erase id, lifecycle := lifecycle }
  if usb.Owns ∧ owned = true ∧ waiting = false then usb.discard id ending else (usb, [])

/-- Projection is disabled: everything of USB stops. -/
def disable (usb : UsbRuntime) (now : ℕ) (ending : Ending) : UsbRuntime × List UsbAct :=
  let (usb, stopped) := usb.stopActive ending
  let (usb, handled) := { usb with probes := [], probe := none }.drain now
  (usb.release, stopped ++ handled)

/-- `enabled.changed()`. -/
def switched (usb : UsbRuntime) (now : ℕ) (ending : Ending) : UsbRuntime × List UsbAct :=
  if usb.enabledChanged then
    if usb.enabled then ({ usb with enabledChanged := false }, [])
    else { usb with enabledChanged := false }.disable now ending
  else (usb, [])

/-- A finished session task is reaped; its report may still be queued. -/
def reap (usb : UsbRuntime) (now : ℕ) : UsbRuntime × List UsbAct :=
  if usb.active.any (·.finished) then
    let (usb, acts) := { usb with active := none }.drain now
    (usb.release, acts)
  else (usb, [])

/-- Nothing needs the lease. -/
def Idle (usb : UsbRuntime) : Prop :=
  usb.active = none ∧ usb.probes = [] ∧ usb.queue = [] ∧ usb.lifecycle.isWaiting = false

instance (usb : UsbRuntime) : Decidable usb.Idle := inferInstanceAs (Decidable (_ ∧ _))

def cleanupTick (usb : UsbRuntime) (now : ℕ) : UsbRuntime × List UsbAct :=
  let (usb, acts) := usb.reap now
  if usb.Owns ∧ usb.Idle then (usb.release, acts) else (usb, acts)

/-- `work_rx.recv()`: without the lease a result is dropped, and its acknowledgement with it. -/
def received (usb : UsbRuntime) (now : ℕ) : UsbRuntime × List UsbAct :=
  match usb.queue with
  | [] => (usb, [])
  | result :: rest =>
    let usb := { usb with queue := rest }
    if usb.Owns then usb.handleWorkResult now result
    else match result with
      | .beforeStart _ _ token => (usb.acknowledge token false, [])
      | _ => (usb, [])

/-- `wait_for_deadline`. -/
def expired (usb : UsbRuntime) (now : ℕ) : UsbRuntime × List UsbAct :=
  let (lifecycle, elapsed) := usb.lifecycle.expireAccessoryWait now
  if elapsed then
    let usb := { usb with lifecycle := lifecycle }
    if lifecycle = .disconnected then usb.write {}
    else usb.publishFailure UsbConnectionState.accessoryTimeout
  else (usb, [])

/-- The loop ends: producers are stopped, and an owned snapshot is cleared. -/
def shutdown (usb : UsbRuntime) (ending : Ending) : UsbRuntime × List UsbAct :=
  let (usb, stopped) := usb.stopActive ending
  let usb := { usb with queue := [], probes := [], probe := none, running := false }
  let (usb, cleared) := if usb.Owns then usb.write {} else (usb, [])
  (usb.release, stopped ++ cleared)

/-! ## Everything that can happen -/

/-- A session task: that of the handle, or one without. -/
inductive Task
  | active
  | stray (index : ℕ)
  deriving DecidableEq

/-- A live session task, by the device it serves. -/
def live (usb : UsbRuntime) : Task → Option UsbDeviceKey
  | .active => (usb.active.filter (!·.finished)).map (·.key)
  | .stray index => usb.strays[index]?

/-- The task is over. -/
def finish (usb : UsbRuntime) : Task → UsbRuntime
  | .active => { usb with active := usb.active.map fun session => { session with finished := true } }
  | .stray index => { usb with strays := usb.strays.eraseIdx index }

inductive Event
  | setEnabled (value : Bool)
  | attached (info : DeviceInfo) (now epoch : ℕ)
  | detached (id : String) (ending : Ending)
  | switched (now : ℕ) (ending : Ending)
  | cleanupTick (now : ℕ)
  | received (now : ℕ)
  | expired (now : ℕ)
  | shutdown (ending : Ending)
  | probeJoined (token : ℕ)
  | probeAsks (token version : ℕ)
  | probeStarts (token : ℕ)
  | probeSettles (token : ℕ) (result : Except String ℕ)
  | probeReports (token : ℕ)
  | sessionVersion (task : Task) (major minor : ℕ)
  | sessionWrites (task : Task) (snapshot : RuntimeSnapshot)
  | sessionEnds (task : Task) (ending : Ending)
  | wirelessConnects
  | wirelessWrites (snapshot : RuntimeSnapshot)
  | wirelessFinishes
  deriving DecidableEq

/-- A probe gives up at any time, and succeeds only after START. -/
def settles (phase : ProbePhase) (result : Except String ℕ) : Bool :=
  match phase, result with
  | .switching, _ => true
  | .probing, .error _ => true
  | .asking, .error _ => true
  | .answered _, .error _ => true
  | _, _ => false

/-- A step of a worker, of the wireless runtime, or of whoever enables projection. -/
def stepOther (usb : UsbRuntime) : Event → UsbRuntime × List UsbAct
  | .setEnabled value => ({ usb with enabled := value, enabledChanged := true }, [])
  | .probeJoined token =>
    ({ usb with probes := usb.probes.filter fun probe =>
        !(probe.token = token ∧ probe.phase = .done) }, [])
  | .probeAsks token version =>
    match usb.probes.find? (·.token = token) with
    | some ⟨_, key, .probing⟩ =>
      if usb.queue.length < 8 then
        ((usb.setPhase token .asking).trySend (.beforeStart key version token), [])
      else (usb, [])
    | _ => (usb, [])
  | .probeStarts token =>
    match usb.probes.find? (·.token = token) with
    | some ⟨_, key, .answered true⟩ => (usb.setPhase token .switching, [.requestedStart key token])
    | _ => (usb, [])
  | .probeSettles token result =>
    match usb.probes.find? (·.token = token) with
    | some ⟨_, _, phase⟩ =>
      if settles phase result then (usb.setPhase token (.reporting result), []) else (usb, [])
    | none => (usb, [])
  | .probeReports token =>
    match usb.probes.find? (·.token = token) with
    | some ⟨_, key, .reporting result⟩ =>
      if usb.queue.length < 8 then
        ((usb.setPhase token .done).trySend (.aoap key result), [])
      else (usb, [])
    | _ => (usb, [])
  | .sessionVersion task major minor =>
    match usb.live task with
    | some key => (usb.trySend (.version key (.ok (major, minor))), [])
    | none => (usb, [])
  | .sessionWrites task snapshot =>
    match usb.live task with
    | some _ => usb.write snapshot
    | none => (usb, [])
  | .sessionEnds task ending =>
    match usb.live task with
    | some key => (usb.finish task).conclude key ending
    | none => (usb, [])
  | .wirelessConnects =>
    if usb.enabled = true ∧ usb.lease = none then ({ usb with lease := some .wireless }, [])
    else (usb, [])
  | .wirelessWrites snapshot =>
    if usb.lease = some .wireless then ({ usb with snapshot := snapshot }, []) else (usb, [])
  | .wirelessFinishes =>
    if usb.lease = some .wireless then ({ usb with lease := none }, []) else (usb, [])
  | _ => (usb, [])

/-- One event. The branches of the loop are taken only while it runs. -/
def step (usb : UsbRuntime) (event : Event) : UsbRuntime × List UsbAct :=
  if usb.running then
    match event with
    | .attached info now epoch => usb.attached info now epoch
    | .detached id ending => usb.detached id ending
    | .switched now ending => usb.switched now ending
    | .cleanupTick now => usb.cleanupTick now
    | .received now => usb.received now
    | .expired now => usb.expired now
    | .shutdown ending => usb.shutdown ending
    | event => usb.stepOther event
  else usb.stepOther event

end UsbRuntime

end ProjectArgo.Projection
