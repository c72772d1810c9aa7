import Mathlib.Algebra.Order.Field.Rat
import Mathlib.Data.Finset.Basic
import ProjectArgo.Library.Serial

/-!
# The audio service

Sources share the speakers: each has a role, and a request for focus ducks the sources
of lower priority. Operations run one at a time and publish the gains of all sources.
With per-source routing every gain is also set natively, one call after another, and
each of those calls may fail. Volume, output and the other settings of the service take
part in none of this.
-/
namespace ProjectArgo.Audio

open Library

inductive AudioSourceRole
  | media
  | navigation
  | system
  | communication
  deriving DecidableEq

/-- `_priority`. -/
def AudioSourceRole.priority : AudioSourceRole → ℕ
  | media => 0
  | navigation => 1
  | system => 2
  | communication => 3

/-- A gain that `requireAudioUnit` accepts. -/
abbrev UnitGain := { gain : ℚ // 0 ≤ gain ∧ gain ≤ 1 }

theorem UnitGain.zero_unit : (0 : ℚ) ≤ 0 ∧ (0 : ℚ) ≤ 1 := by decide

theorem UnitGain.one_unit : (0 : ℚ) ≤ 1 ∧ (1 : ℚ) ≤ 1 := by decide

/-- `_idPattern`: parts joined by dots, each beginning with a letter or a digit. -/
def isStableId (text : String) : Bool := stableFrom true text.toList
where
  isStart (c : Char) : Bool := c.isLower || c.isDigit
  isPart (c : Char) : Bool := isStart c || c = '_' || c = '-'
  /-- `first` says that a part begins here. -/
  stableFrom (first : Bool) : List Char → Bool
    | [] => !first
    | c :: rest =>
      if first then isStart c && stableFrom false rest
      else if c = '.' then stableFrom true rest
      else isPart c && stableFrom false rest

structure AudioSource where
  id : String
  role : AudioSourceRole
  gain : UnitGain
  deriving DecidableEq

structure AudioFocusPolicy where
  navigationDuckingGain : UnitGain
  communicationDuckingGain : UnitGain
  systemDuckingGain : UnitGain
  deriving DecidableEq

def AudioFocusPolicy.gainFor (policy : AudioFocusPolicy) : AudioSourceRole → UnitGain
  | .media => ⟨1, by decide⟩
  | .navigation => policy.navigationDuckingGain
  | .communication => policy.communicationDuckingGain
  | .system => policy.systemDuckingGain

/-- `_FocusRequest`, under its id. -/
structure FocusRequest where
  id : ℕ
  sourceId : String
  role : AudioSourceRole
  duckingGain : UnitGain
  deriving DecidableEq

/-- A source in the map. The serial number tells a registration from those before it. -/
structure Registration where
  source : AudioSource
  serial : ℕ
  deriving DecidableEq

/-- The tables of `DefaultAudioService`. `routing` says that the backend is available and
routes sources. Of the bookkeeping, `granted` has the registration that each request
was made under, `handles` the requests whose handle was returned, `releasing` those
whose handle was released, and `released` those whose release has run. -/
structure AudioService where
  routing : Bool
  policy : AudioFocusPolicy
  sources : List Registration := []
  activeSources : Finset String := ∅
  focusRequests : List FocusRequest := []
  effectiveSourceGains : List (String × ℚ) := []
  nextFocusId : ℕ := 1
  registrations : ℕ := 0
  granted : List (ℕ × ℕ) := []
  handles : List ℕ := []
  releasing : List ℕ := []
  released : List ℕ := []
  deriving DecidableEq

inductive Op
  | registerSource (source : AudioSource)
  | unregisterSource (id : String)
  | setSourceActive (id : String) (active : Bool)
  | requestFocus (request : FocusRequest)
  | releaseFocus (id : ℕ)
  deriving DecidableEq

/-- What follows once the gains are set. -/
inductive Goal
  | finish
  | grant (id : ℕ)
  | restore (id : ℕ)
  deriving DecidableEq

/-- The native call that is awaited. -/
inductive Await
  | muting (id : String)
  | gaining (rest gains : List (String × ℚ)) (goal : Goal)
  deriving DecidableEq

inductive Act
  | completed
  | threw
  | returned (id : ℕ)
  | refused (id : ℕ)
  deriving DecidableEq

namespace AudioService

abbrev Piece := AudioService × Option Await × List Act

/-! ## The tables -/

def registration? (service : AudioService) (id : String) : Option Registration :=
  service.sources.find? (·.source.id = id)

/-- Whether the request takes no part in the gain of the source. -/
def Spares (request : FocusRequest) (source : AudioSource) : Prop :=
  request.sourceId = source.id ∨ request.role.priority ≤ source.role.priority

instance (request : FocusRequest) (source : AudioSource) : Decidable (Spares request source) :=
  inferInstanceAs (Decidable (_ ∨ _))

/-- The gain of one source in `_recomputeSourceGains`. -/
def gainOf (service : AudioService) (source : AudioSource) : ℚ :=
  let gain := service.focusRequests.foldl
    (fun gain request => if Spares request source then gain else gain * request.duckingGain.val)
    (if source.id ∈ service.activeSources then source.gain.val else 0)
  max 0 (min gain 1)

def gains (service : AudioService) : List (String × ℚ) :=
  service.sources.map fun registration =>
    (registration.source.id, service.gainOf registration.source)

def register (service : AudioService) (source : AudioSource) : AudioService :=
  { service with
    sources := service.sources ++ [⟨source, service.registrations⟩]
    registrations := service.registrations + 1 }

/-- A source is removed, and what it asked for. -/
def unregister (service : AudioService) (id : String) : AudioService :=
  { service with
    sources := service.sources.filter (·.source.id ≠ id)
    activeSources := service.activeSources.erase id
    focusRequests := service.focusRequests.filter (·.sourceId ≠ id) }

def setActive (service : AudioService) (id : String) (active : Bool) : AudioService :=
  { service with
    activeSources :=
      if active then insert id service.activeSources else service.activeSources.erase id }

def grant (service : AudioService) (request : FocusRequest) : AudioService :=
  { service with
    focusRequests := service.focusRequests ++ [request]
    granted := service.granted ++
      (service.registration? request.sourceId).toList.map fun registration =>
        (request.id, registration.serial) }

def revoke (service : AudioService) (id : ℕ) : AudioService :=
  { service with focusRequests := service.focusRequests.filter (·.id ≠ id) }

/-! ## `_recomputeSourceGains` -/

/-- `_replace`, and what the operation does next. -/
def publish (service : AudioService) (gains : List (String × ℚ)) (goal : Goal) : Piece :=
  let service := { service with effectiveSourceGains := gains }
  match goal with
  | .finish => (service, none, [.completed])
  | .grant id => ({ service with handles := service.handles ++ [id] }, none, [.returned id])
  | .restore id => (service, none, [.refused id])

def gainNext (service : AudioService) (gains : List (String × ℚ)) (goal : Goal) :
    List (String × ℚ) → Piece
  | _ :: rest => (service, some (.gaining rest gains goal), [])
  | [] => service.publish gains goal

def recompute (service : AudioService) (goal : Goal) : Piece :=
  if service.routing then service.gainNext service.gains goal service.gains
  else service.publish service.gains goal

/-- A native call failed. A request that was not granted is taken back. -/
def gainFailed (service : AudioService) : Goal → Piece
  | .finish => (service, none, [.threw])
  | .grant id => (service.revoke id).recompute (.restore id)
  | .restore id => (service, none, [.refused id])

/-! ## Operations -/

def start (service : AudioService) : Op → Piece
  | .registerSource source =>
    if (service.registration? source.id).isSome then (service, none, [.threw])
    else (service.register source, none, [.completed])
  | .unregisterSource id =>
    if service.routing && (service.registration? id).isSome then
      (service, some (.muting id), [])
    else (service.unregister id).recompute .finish
  | .setSourceActive id active =>
    if (service.registration? id).isSome then (service.setActive id active).recompute .finish
    else (service, none, [.threw])
  | .requestFocus request => (service.grant request).recompute (.grant request.id)
  | .releaseFocus id =>
    let service := { service with released := service.released ++ [id] }
    if service.focusRequests.any (·.id = id) then (service.revoke id).recompute .finish
    else (service, none, [.completed])

/-- An operation goes on after a native call. -/
def goOn (service : AudioService) (await : Await) (ok : Bool) : Piece :=
  match await with
  | .muting id =>
    if ok then (service.unregister id).recompute .finish else (service, none, [.threw])
  | .gaining rest gains goal =>
    if ok then service.gainNext gains goal rest else service.gainFailed goal

def body : Body AudioService Op Await Bool Act := ⟨start, goOn⟩

abbrev System := Serial AudioService Op Await

inductive Call
  | registerSource (source : AudioSource)
  | unregisterSource (id : String)
  | setSourceActive (id : String) (active : Bool)
  | requestFocus (sourceId : String) (duckingGain : Option ℚ)
  | release (id : ℕ)
  deriving DecidableEq

/-- `requestFocus`, before its operation waits its turn: the source is looked up and the
gain checked now. -/
def callFocus (system : System) (sourceId : String) (duckingGain : Option ℚ) :
    System × List Act :=
  match system.state.registration? sourceId with
  | none => (system, [.threw])
  | some registration =>
    let role := registration.source.role
    let gain := duckingGain.getD (system.state.policy.gainFor role)
    if h : 0 ≤ gain ∧ gain ≤ 1 then
      let id := system.state.nextFocusId
      (Serial.enqueue { system with state := { system.state with nextFocusId := id + 1 } }
        (.requestFocus ⟨id, sourceId, role, ⟨gain, h⟩⟩), [])
    else (system, [.threw])

/-- A handle that was returned is released once, however often it is asked to. -/
def callRelease (system : System) (id : ℕ) : System × List Act :=
  if id ∈ system.state.handles ∧ id ∉ system.state.releasing then
    (Serial.enqueue { system with
        state := { system.state with releasing := system.state.releasing ++ [id] } }
      (.releaseFocus id), [])
  else (system, [])

def call (system : System) : Call → System × List Act
  | .registerSource source => (system.enqueue (.registerSource source), [])
  | .unregisterSource id => (system.enqueue (.unregisterSource id), [])
  | .setSourceActive id active => (system.enqueue (.setSourceActive id active), [])
  | .requestFocus sourceId duckingGain => callFocus system sourceId duckingGain
  | .release id => callRelease system id

inductive Event
  | call (call : Call)
  | next
  | reply (ok : Bool)
  | backend (routing : Bool)
  deriving DecidableEq

def step (system : System) : Event → System × List Act
  | .call called => call system called
  | .next => system.next body
  | .reply ok => system.reply body ok
  | .backend routing => ({ system with state := { system.state with routing := routing } }, [])

end AudioService

end ProjectArgo.Audio
