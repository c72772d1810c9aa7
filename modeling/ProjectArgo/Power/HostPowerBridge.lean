import ProjectArgo.Library.Run

/-!
# The bridge between plugins and host power

`HostPowerRequestBridge` turns plugin events into a host suspend or power off.
Each request is a chain of awaits: the authorizer, the settings flush, the
quiesce of the CAN transport, the host command, the resume. Between two awaits
any other turn may run, so the bridge is a machine whose inputs are the turns:
a change of the power state, a request, the completion of what the request in
progress awaits, and `close`. A step gives the calls the bridge makes, in order.
-/
namespace ProjectArgo.Power

open Library.Run

/-- `VehiclePowerState`. -/
inductive VehiclePowerState
  | unknown
  | asleep
  | awake
  | active
  deriving DecidableEq

/-- `HeadUnitOperationalState`. -/
inductive HeadUnitOperationalState
  | unknown
  | standby
  | awake
  deriving DecidableEq

def HeadUnitOperationalState.fromVehiclePowerState :
    VehiclePowerState → HeadUnitOperationalState
  | .unknown => .unknown
  | .asleep => .standby
  | .awake => .awake
  | .active => .awake

/-- The two privileged operations. -/
inductive Operation
  | suspend
  | shutdown
  deriving DecidableEq

def Operation.name : Operation → String
  | .suspend => "suspend"
  | .shutdown => "shutdown"

inductive Level
  | info
  | warning
  | error
  deriving DecidableEq

/-- What a turn of the bridge does. `enter` and `leave` bound the time in which
`_requestInProgress` is set. -/
inductive Effect
  | enter (operation : Operation)
  | leave
  | flush
  | quiesce
  | resume
  | suspend
  | powerOff
  | diagnostic (level : Level) (source message : String)
  deriving DecidableEq

def Effect.isDiagnostic : Effect → Bool
  | .diagnostic .. => true
  | _ => false

def Effect.isEnter : Effect → Bool
  | .enter _ => true
  | _ => false

def Effect.isLeave : Effect → Bool
  | .leave => true
  | _ => false

def diagnosticSource : String := "host.power"

def transportDiagnosticSource : String := "vehicle.transport"

def info (message : String) : Effect := .diagnostic .info diagnosticSource message

def warning (message : String) : Effect := .diagnostic .warning diagnosticSource message

def error (message : String) : Effect := .diagnostic .error diagnosticSource message

/-! ## The authorizer -/

/-- A registry record; `identity` stands for the object itself. -/
structure PluginRecord where
  identity : ℕ
  directoryPath : String
  running : Bool
  deriving DecidableEq

/-- How `resolveSymbolicLinks` ends. -/
inductive Resolved
  | path (path : String)
  | fileSystemException
  | otherException
  deriving DecidableEq

/-- What `allows` reads before and after it resolves the plugin's directory. -/
structure Registry where
  loaded : Bool
  record : Option PluginRecord
  deriving DecidableEq

structure Lookup where
  before : Registry
  resolved : Resolved
  after : Registry
  deriving DecidableEq

/-- `_isContained`, with the separator of the systemd hosts. -/
def isContained (rootPath childPath : String) : Bool :=
  let root := rootPath.toList
  let front := if root.getLast? = some '/' then root else root ++ ['/']
  front.isPrefixOf childPath.toList

/-- `VehicleIntegrationPluginAuthorizer.allows`; `none` is an exception. -/
def allows (canonicalPluginRoot : Option String) (pluginId : String) (seen : Lookup) :
    Option Bool × List Effect :=
  match canonicalPluginRoot, seen.before.record with
  | some root, some record =>
    if !seen.before.loaded || !record.running then (some false, [])
    else match seen.resolved with
      | .path directory =>
        if seen.after.record.map (·.identity) ≠ some record.identity || !seen.after.loaded ||
            seen.after.record.map (·.running) ≠ some true then (some false, [])
        else (some (isContained root directory), [])
      | .fileSystemException =>
        (some false, [.diagnostic .warning "veloce.privileged-request"
          ("Could not validate privileged request provenance for " ++ pluginId ++ ".")])
      | .otherException => (none, [])
  | _, _ => (some false, [])

/-! ## The bridge -/

/-- What the bridge is built with. -/
structure Setting where
  canonicalPluginRoot : Option String
  /-- `hostPowerController.isEnabled` -/
  isEnabled : Bool
  deriving DecidableEq

/-- The request in progress once it is admitted, with the episode it captured. -/
inductive Request
  | suspend (standbyEpisode : ℕ)
  | shutdown
  deriving DecidableEq

def Request.operation : Request → Operation
  | .suspend _ => .suspend
  | .shutdown => .shutdown

/-- What the request in progress awaits. -/
inductive Await
  | authorization (operation : Operation) (sourcePluginId : Option String)
  | flush (request : Request)
  | quiesce (request : Request)
  | command (operation : Operation)
  | resume
  | leaving
  deriving DecidableEq

/-- `HostPowerRequestBridge`, with the current state of the power service.
`_requestInProgress` is that something is awaited. -/
structure HostPowerRequestBridge where
  operationalState : HeadUnitOperationalState
  isInStandby : Bool
  standbyEpisode : ℕ
  handledThisStandbyEpisode : Bool := false
  closed : Bool := false
  /-- the power subscription has not been cancelled -/
  listening : Bool := true
  awaiting : Option Await := none
  deriving DecidableEq

/-- The turns the bridge takes part in. -/
inductive Input
  | powerChanged (state : VehiclePowerState)
  | requested (operation : Operation) (sourcePluginId : Option String)
  | authorized (seen : Lookup)
  | flushed (ok : Bool)
  | quiesced (ok : Bool)
  | commanded (ok : Bool)
  | resumed (ok : Bool)
  | returned
  | close
  | unsubscribed
  deriving DecidableEq

abbrev Entry := Input × List Effect

namespace HostPowerRequestBridge

/-- The constructor, followed by `_start` in the same turn. -/
def start (current : HeadUnitOperationalState) : HostPowerRequestBridge where
  operationalState := current
  isInStandby := current = .standby
  standbyEpisode := if current = .standby then 1 else 0

def currentlyStandby (bridge : HostPowerRequestBridge) : Bool :=
  bridge.isInStandby && bridge.operationalState = .standby

def sameStandbyEpisode (bridge : HostPowerRequestBridge) (episode : ℕ) : Bool :=
  bridge.currentlyStandby && episode = bridge.standbyEpisode

/-- `_onPowerChanged`. -/
def onPowerChanged (bridge : HostPowerRequestBridge) (isInStandby : Bool) :
    HostPowerRequestBridge :=
  if isInStandby = bridge.isInStandby then bridge
  else { bridge with
    isInStandby := isInStandby
    standbyEpisode := bridge.standbyEpisode + (if isInStandby then 1 else 0)
    handledThisStandbyEpisode := false }

/-- The power service changes its snapshot and calls its listeners at once. -/
def powerChanged (bridge : HostPowerRequestBridge) (state : VehiclePowerState) :
    HostPowerRequestBridge :=
  let operationalState := HeadUnitOperationalState.fromVehiclePowerState state
  let bridge := { bridge with operationalState := operationalState }
  if bridge.listening then bridge.onPowerChanged (operationalState = .standby) else bridge

/-- A change of the power state, for a bridge that listens and for one that does not. -/
theorem powerChanged_spec (bridge : HostPowerRequestBridge) (state : VehiclePowerState) :
    let standby := decide (HeadUnitOperationalState.fromVehiclePowerState state = .standby)
    (bridge.powerChanged state).operationalState =
        HeadUnitOperationalState.fromVehiclePowerState state ∧
      (bridge.powerChanged state).listening = bridge.listening ∧
      (bridge.powerChanged state).closed = bridge.closed ∧
      (bridge.powerChanged state).awaiting = bridge.awaiting ∧
      (bridge.listening = true →
        (bridge.powerChanged state).isInStandby = standby ∧
        (bridge.powerChanged state).standbyEpisode =
          bridge.standbyEpisode + (if standby = true ∧ bridge.isInStandby = false then 1 else 0) ∧
        (standby = bridge.isInStandby →
          (bridge.powerChanged state).handledThisStandbyEpisode =
            bridge.handledThisStandbyEpisode)) := by
  obtain ⟨operationalState, isInStandby, standbyEpisode, handled, closed, listening, awaiting⟩ :=
    bridge
  simp only [powerChanged, onPowerChanged]
  generalize HeadUnitOperationalState.fromVehiclePowerState state = next
  cases listening <;> cases isInStandby <;> by_cases hnext : next = .standby <;> simp [hnext]

def await (bridge : HostPowerRequestBridge) (next : Await) : HostPowerRequestBridge :=
  { bridge with awaiting := some next }

/-- `_runExclusive` up to its first await. -/
def runExclusive (bridge : HostPowerRequestBridge) (operation : Operation)
    (sourcePluginId : Option String) : HostPowerRequestBridge × List Effect :=
  if bridge.closed then (bridge, [])
  else if bridge.awaiting.isSome then
    (bridge, [info ("Host " ++ operation.name ++ " request suppressed: another host power " ++
      "operation is in progress.")])
  else (bridge.await (.authorization operation sourcePluginId), [.enter operation])

/-- `_authorizedPluginId`; an exception and a refusal both end the request. -/
def authorizedPluginId (setting : Setting) (operation : Operation) :
    Option String → Lookup → Option String × List Effect
  | none, _ =>
    (none, [warning ("Host " ++ operation.name ++ " request rejected: anonymous event.")])
  | some pluginId, seen =>
    match allows setting.canonicalPluginRoot pluginId seen with
    | (some true, logged) => (some pluginId, logged)
    | (some false, logged) =>
      (none, logged ++ [warning ("Host " ++ operation.name ++
        " request rejected: unauthorized plugin " ++ pluginId ++ ".")])
    | (none, logged) => (none, logged)

def rejectStaleSuspend : Effect :=
  warning "Host suspend request rejected: vehicle no longer standby."

/-- `_handleSuspendRequest` from the authorization to the flush. -/
def proceedSuspend (setting : Setting) (bridge : HostPowerRequestBridge) (pluginId : String) :
    HostPowerRequestBridge × List Effect :=
  if !bridge.currentlyStandby then (bridge.await .leaving, [rejectStaleSuspend])
  else if bridge.handledThisStandbyEpisode then
    (bridge.await .leaving,
      [info "Host suspend request suppressed: already handled this standby episode."])
  else
    let bridge := { bridge with handledThisStandbyEpisode := true }
    let requested := info ("Host suspend requested by plugin " ++ pluginId ++ ".")
    if !setting.isEnabled then
      (bridge.await .leaving,
        [requested, info "Host power control disabled; suspend suppressed."])
    else (bridge.await (.flush (.suspend bridge.standbyEpisode)), [requested, .flush])

/-- `_handleShutdownRequest` from the authorization to the flush. -/
def proceedShutdown (setting : Setting) (bridge : HostPowerRequestBridge) (pluginId : String) :
    HostPowerRequestBridge × List Effect :=
  let requested := info ("Host shutdown requested by plugin " ++ pluginId ++ ".")
  if !setting.isEnabled then
    (bridge.await .leaving,
      [requested, info "Host power control disabled; shutdown suppressed."])
  else (bridge.await (.flush .shutdown), [requested, .flush])

def proceed (setting : Setting) (bridge : HostPowerRequestBridge) :
    Operation → String → HostPowerRequestBridge × List Effect
  | .suspend, pluginId => bridge.proceedSuspend setting pluginId
  | .shutdown, pluginId => bridge.proceedShutdown setting pluginId

def authorized (setting : Setting) (bridge : HostPowerRequestBridge) (operation : Operation)
    (sourcePluginId : Option String) (seen : Lookup) : HostPowerRequestBridge × List Effect :=
  match authorizedPluginId setting operation sourcePluginId seen with
  | (some pluginId, logged) =>
    let admitted := bridge.proceed setting operation pluginId
    (admitted.1, logged ++ admitted.2)
  | (none, logged) => (bridge.await .leaving, logged)

def quiescing : Effect := .diagnostic .info transportDiagnosticSource "CAN transport quiescing."

def resuming : Effect := .diagnostic .info transportDiagnosticSource "CAN transport resuming."

/-- After `_flushSettingsBefore`, up to `_quiesceTransport`. -/
def flushed (bridge : HostPowerRequestBridge) (request : Request) (ok : Bool) :
    HostPowerRequestBridge × List Effect :=
  let logged :=
    if ok then []
    else [warning ("Settings flush failed before " ++ request.operation.name ++ ".")]
  if bridge.closed then (bridge.await .leaving, logged)
  else match request with
    | .suspend standbyEpisode =>
      if !bridge.sameStandbyEpisode standbyEpisode then
        (bridge.await .leaving, logged ++ [rejectStaleSuspend])
      else (bridge.await (.quiesce request), logged ++ [quiescing, .quiesce])
    | .shutdown => (bridge.await (.quiesce request), logged ++ [quiescing, .quiesce])

/-- `_resumeTransport` up to its await. -/
def resumeTransport (bridge : HostPowerRequestBridge) (logged : List Effect) :
    HostPowerRequestBridge × List Effect :=
  (bridge.await .resume, logged ++ [resuming, .resume])

/-- After `_quiesceTransport`, up to the host command. -/
def quiesced (bridge : HostPowerRequestBridge) (request : Request) (ok : Bool) :
    HostPowerRequestBridge × List Effect :=
  if !ok then
    (bridge.await .leaving,
      [.diagnostic .error transportDiagnosticSource "CAN transport quiesce failed."])
  else
    let logged := [Effect.diagnostic .info transportDiagnosticSource "CAN transport quiesced."]
    match request with
    | .suspend standbyEpisode =>
      if bridge.closed then bridge.resumeTransport logged
      else if !bridge.sameStandbyEpisode standbyEpisode then
        bridge.resumeTransport (logged ++ [rejectStaleSuspend])
      else
        (bridge.await (.command .suspend), logged ++ [info "Host suspend requested.", .suspend])
    | .shutdown =>
      if bridge.closed then bridge.resumeTransport logged
      else
        (bridge.await (.command .shutdown),
          logged ++ [info "Host shutdown requested.", .powerOff])

/-- After the host command. -/
def commanded (bridge : HostPowerRequestBridge) :
    Operation → Bool → HostPowerRequestBridge × List Effect
  | .suspend, true => bridge.resumeTransport [info "Host suspend completed."]
  | .suspend, false => bridge.resumeTransport [error "Host suspend failed."]
  | .shutdown, true => (bridge.await .leaving, [info "Host shutdown completed."])
  | .shutdown, false => bridge.resumeTransport [error "Host shutdown failed."]

def resumed (bridge : HostPowerRequestBridge) (ok : Bool) :
    HostPowerRequestBridge × List Effect :=
  (bridge.await .leaving,
    [if ok then .diagnostic .info transportDiagnosticSource "CAN transport resumed."
      else .diagnostic .error transportDiagnosticSource "CAN transport resume failed."])

/-- A completion goes to the request that awaits it; no other completion occurs. -/
def step (setting : Setting) (bridge : HostPowerRequestBridge) (input : Input) :
    HostPowerRequestBridge × List Effect :=
  match input, bridge.awaiting with
  | .powerChanged state, _ => (bridge.powerChanged state, [])
  | .requested operation sourcePluginId, _ => bridge.runExclusive operation sourcePluginId
  | .close, _ => ({ bridge with closed := true }, [])
  | .unsubscribed, _ => ({ bridge with listening := bridge.listening && !bridge.closed }, [])
  | .authorized seen, some (.authorization operation sourcePluginId) =>
    bridge.authorized setting operation sourcePluginId seen
  | .flushed ok, some (.flush request) => bridge.flushed request ok
  | .quiesced ok, some (.quiesce request) => bridge.quiesced request ok
  | .commanded ok, some (.command operation) => bridge.commanded operation ok
  | .resumed ok, some .resume => bridge.resumed ok
  | .returned, some .leaving => ({ bridge with awaiting := none }, [.leave])
  | _, _ => (bridge, [])

end HostPowerRequestBridge

end ProjectArgo.Power
