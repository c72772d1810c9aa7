import ProjectArgo.Library.Run
import ProjectArgo.Projection.ProjectionPreferences

/-!
# Requesting the configuration

The preferences that are in effect are the requested ones fitted to the viewport. A
timer sends them a little after the viewport or the daemon has changed; an update stores
them and sends them itself. What has been sent is remembered, so that the timer sends
nothing twice, and while an update runs the timer leaves the sending to it.
-/
namespace ProjectArgo.Projection

structure ProjectionCapabilities where
  resolutions : List (ℤ × ℤ)
  frameRates : List ℤ
  minimumDpi : ℤ
  maximumDpi : ℤ
  defaults : ProjectionPreferences

local instance lawfulSize : LawfulBEq (ℤ × ℤ) := inferInstance

def ProjectionCapabilities.supports (c : ProjectionCapabilities) (p : ProjectionPreferences) :
    Bool :=
  (p.width, p.height) ∈ c.resolutions ∧ p.framesPerSecond ∈ c.frameRates ∧
    c.minimumDpi ≤ p.dpi ∧ p.dpi ≤ c.maximumDpi

/-- Where an update is: its settings are being written, or its request is under way. A reset
without a daemon ends once it is stored. -/
inductive Saving
  | idle
  | storing (value : ProjectionPreferences) (daemon : Bool)
  | requesting (id : ℕ)
  deriving DecidableEq

structure ProjectionSettings where
  requested : ProjectionPreferences
  viewport : Option (ℚ × ℚ × ℚ) := none
  sentViewport : Option ProjectionPreferences := none
  viewportTimer : Bool := false
  saving : Saving := .idle
  capabilities : Option ProjectionCapabilities := none

namespace ProjectionSettings

def effective (s : ProjectionSettings) : Except ArgumentError ProjectionPreferences :=
  match s.viewport with
  | none => .ok s.requested
  | some (width, height, media) => s.requested.forViewport width height media

def supports (s : ProjectionSettings) (p : ProjectionPreferences) : Bool :=
  match s.capabilities with
  | none => false
  | some c => c.supports p

/-- `_scheduleViewport`: the timer starts anew, or nothing counts as sent any more. -/
def scheduleViewport (s : ProjectionSettings) : ProjectionSettings :=
  match s.viewport, s.capabilities with
  | none, _ => s
  | some _, none => { s with sentViewport := none }
  | some _, some _ => { s with viewportTimer := true }

def setViewport (s : ProjectionSettings) (viewport : ℚ × ℚ × ℚ) : ProjectionSettings :=
  if s.viewport = some viewport then s
  else { s with viewport := some viewport }.scheduleViewport

/-- The state of the daemon has changed. -/
def configurationChanged (s : ProjectionSettings) (capabilities : Option ProjectionCapabilities) :
    ProjectionSettings :=
  { s with capabilities := capabilities }.scheduleViewport

/-- The timer has run out; what is requested of the daemon, if anything. -/
def timerFired (s : ProjectionSettings) : ProjectionSettings × Option ProjectionPreferences :=
  let s := { s with viewportTimer := false }
  if s.saving ≠ .idle then (s, none)
  else
    match s.effective with
    | .error _ => ({ s with sentViewport := none }, none)
    | .ok value =>
      if s.sentViewport = some value ∨ ¬s.supports value then (s, none)
      else ({ s with sentViewport := some value }, some value)

/-- The request of the timer has failed. -/
def timerFailed (s : ProjectionSettings) : ProjectionSettings := { s with sentViewport := none }

def update (s : ProjectionSettings) (value : ProjectionPreferences) : ProjectionSettings :=
  if s.saving ≠ .idle then s
  else if ¬s.supports value then s
  else { s with saving := .storing value true }

def reset (s : ProjectionSettings) : ProjectionSettings :=
  if s.saving ≠ .idle then s
  else
    match s.capabilities with
    | some c => s.update c.defaults
    | none => { s with saving := .storing .defaults false }

/-- The settings of a save have been written, or a write has failed; `id` is that of the request
that is made then. -/
def stored (s : ProjectionSettings) (ok : Bool) (id : ℕ) :
    ProjectionSettings × Option ProjectionPreferences :=
  match s.saving with
  | .storing value daemon =>
    if !ok then ({ s with saving := .idle }, none)
    else
      let s := { s with requested := value }
      if !daemon then ({ s with saving := .idle }, none)
      else
        match s.effective with
        | .error _ => ({ s with saving := .idle }, none)
        | .ok value => ({ s with saving := .requesting id }, some value)
  | _ => (s, none)

/-- The request of an update has been answered. -/
def updateAnswered (s : ProjectionSettings) (ok : Bool) : ProjectionSettings :=
  if !ok then { s with saving := .idle }
  else
    match s.effective with
    | .error _ => { s with saving := .idle }
    | .ok value => { s with sentViewport := some value, saving := .idle }

end ProjectionSettings

/-- A request that has been made of the daemon. -/
structure ConfigurationRequest where
  id : ℕ
  value : ProjectionPreferences
  failed : Bool

/-- The service with what has been asked of the daemon. -/
structure ProjectionSystem where
  service : ProjectionSettings
  issued : ℕ := 0
  /-- The requests of the timer that have not been answered. -/
  underWay : List ℕ := []
  connections : ℕ := 0
  /-- The last request since the daemon connected. -/
  last : Option ConfigurationRequest := none
  /-- The connection over which the request of the update was made. -/
  carried : Option ℕ := none
  /-- The timer has run out during this save. -/
  skipped : Bool := false

namespace ProjectionSystem

inductive Event
  | setViewport (viewport : ℚ × ℚ × ℚ)
  | update (value : ProjectionPreferences)
  | reset
  | configuration (capabilities : Option ProjectionCapabilities)
  | timer
  | stored (ok : Bool)
  | answered (id : ℕ) (ok : Bool)

/-- A request is made over the connection there is. -/
def ask (system : ProjectionSystem) (value : ProjectionPreferences) : ProjectionSystem :=
  { system with
    issued := system.issued + 1
    last := some ⟨system.issued, value, false⟩ }

/-- A save that was not under way before starts with no timer run out. -/
def begin (system : ProjectionSystem) (service : ProjectionSettings) : ProjectionSystem :=
  { system with
    service := service
    skipped := if system.service.saving = .idle then false else system.skipped }

def failRequest (id : ℕ) (request : ConfigurationRequest) : ConfigurationRequest :=
  if request.id = id then { request with failed := true } else request

/-- What becomes of the last request once one is answered. -/
def answer (system : ProjectionSystem) (id : ℕ) (ok : Bool) : Option ConfigurationRequest :=
  if ok then system.last else system.last.map (failRequest id)

def step (system : ProjectionSystem) :
    Event → ProjectionSystem × Option ProjectionPreferences
  | .setViewport viewport =>
    ({ system with service := system.service.setViewport viewport }, none)
  | .update value => (system.begin (system.service.update value), none)
  | .reset => (system.begin system.service.reset, none)
  | .configuration capabilities =>
    let service := system.service.configurationChanged capabilities
    if system.service.capabilities.isNone && capabilities.isSome then
      ({ system with
          service := service, connections := system.connections + 1, last := none }, none)
    else ({ system with service := service }, none)
  | .timer =>
    if !system.service.viewportTimer then (system, none)
    else
      match system.service.timerFired with
      | (service, none) =>
        ({ system with
            service := service
            skipped := system.skipped || system.service.saving ≠ .idle }, none)
      | (service, some value) =>
        ({ system with service := service, underWay := system.issued :: system.underWay }.ask value,
          some value)
  | .stored ok =>
    match system.service.stored ok system.issued with
    | (service, none) => ({ system with service := service }, none)
    | (service, some value) =>
      ({ system with
          service := service
          carried := if service.capabilities.isSome then some system.connections else none }.ask
            value, some value)
  | .answered id ok =>
    if system.service.saving = .requesting id then
      ({ system with
          service := system.service.updateAnswered ok
          last := system.answer id ok }, none)
    else if id ∈ system.underWay then
      ({ system with
          service := if ok then system.service else system.service.timerFailed
          underWay := system.underWay.erase id
          last := system.answer id ok }, none)
    else (system, none)

end ProjectionSystem
end ProjectArgo.Projection
