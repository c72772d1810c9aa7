import Mathlib.Data.Int.Notation
import ProjectArgo.Library.Assoc
import ProjectArgo.Library.Run

/-!
# The cached media sessions

Providers publish the sources of their devices under a lease; the service keeps the one
list of all of them with the source that is active. Selections and commands are queued
and call back one after the other. The listeners of the snapshot do not call the service
again from within a change.
-/
namespace ProjectArgo.MediaSession

open Library.Assoc

variable {δ : Type*} [DecidableEq δ]

inductive MediaSourceKind
  | androidAuto
  | carPlay
  | bluetooth
  | «local»
  deriving DecidableEq

/-- What is played is of a type of its own, which the service only compares. -/
structure MediaSourceState (δ : Type*) where
  id : String
  kind : MediaSourceKind
  deviceId : String
  sessionId : String
  details : δ
  revision : ℤ
  updatedAtMs : ℤ
  commands : List String := []
  displayName : Option String := none
  deriving DecidableEq

/-- `operator ==`: it looks neither at the revision nor at the time. -/
def MediaSourceState.same (s other : MediaSourceState δ) : Bool :=
  s.id = other.id ∧ s.kind = other.kind ∧ s.deviceId = other.deviceId ∧
    s.sessionId = other.sessionId ∧ s.details = other.details ∧
      s.displayName = other.displayName ∧
        String.intercalate "," s.commands = String.intercalate "," other.commands

structure MediaSessionSnapshot (δ : Type*) where
  sources : List (MediaSourceState δ) := []
  activeSourceId : Option String := none
  deriving DecidableEq

def MediaSessionSnapshot.same (s other : MediaSessionSnapshot δ) : Bool :=
  s.activeSourceId = other.activeSourceId ∧ s.sources.length = other.sources.length ∧
    (s.sources.zip other.sources).all fun pair => pair.1.same pair.2

/-- A provider object; a later one of its name has another lease. -/
structure MediaProvider (δ : Type*) where
  lease : ℕ
  revision : ℤ := -1
  sources : List (MediaSourceState δ) := []
  deriving DecidableEq

inductive Operation
  | selectSource (id : String)
  | command (id command : String)
  deriving DecidableEq

/-- Where the first of the queued operations is. -/
inductive Turn (δ : Type*)
  | waiting
  | calling (source : MediaSourceState δ)
  | finished
  deriving DecidableEq

structure CachedMediaSessionService (δ : Type*) where
  current : MediaSessionSnapshot δ := {}
  providers : List (String × MediaProvider δ) := []
  nextLease : ℕ := 0
  closed : Bool := false
  selectedOnce : Bool := false
  /-- The operations with their numbers, in the order of their calls. -/
  operations : List (ℕ × Operation) := []
  nextOperation : ℕ := 0
  turn : Turn δ := .waiting
  /-- Whether `select` and `execute` are set. -/
  select : Bool := false
  execute : Bool := false

inductive OperationError
  | stateError (message : String)
  | unsupportedError (message : String)
  deriving DecidableEq

inductive Act (δ : Type*)
  | registered (name : String) (lease : ℕ)
  | threw (error : OperationError)
  | queued (operation : ℕ)
  | began (operation : ℕ)
  | selecting (source : MediaSourceState δ)
  | executing (source : MediaSourceState δ) (command : String)
  | selected (id : String)
  | ended (operation : ℕ) (error : Option OperationError)
  deriving DecidableEq

inductive Event (δ : Type*)
  | register (name : String)
  | publish (name : String) (lease : ℕ) (revision : ℤ) (sources : List (MediaSourceState δ))
  | closeProvider (name : String) (lease : ℕ)
  | reflectSelection (id : Option String)
  | setCallbacks (select execute : Bool)
  | selectSource (id : String)
  | command (id command : String)
  /-- The first operation is called. -/
  | turn
  /-- The callback that it awaits has ended. -/
  | calledBack (error : Option OperationError)
  /-- The queue goes on. -/
  | settled
  | close
  /-- `close` has awaited the queue. -/
  | cleared

namespace CachedMediaSessionService

def emit (s : CachedMediaSessionService δ) (value : MediaSessionSnapshot δ) :
    CachedMediaSessionService δ :=
  if s.closed || value.same s.current then s else { s with current := value }

/-- The sources of all providers. -/
def published (s : CachedMediaSessionService δ) : List (MediaSourceState δ) :=
  s.providers.flatMap fun entry => entry.2.sources

def lists (sources : List (MediaSourceState δ)) (id : Option String) : Bool :=
  sources.any fun source => some source.id = id

def isProjection (source : MediaSourceState δ) : Bool :=
  source.kind = .androidAuto || source.kind = .carPlay

/-- The active source stays while it is listed; the first one is that of a projection. -/
def refreshed (s : CachedMediaSessionService δ) : Option String :=
  let selected :=
    if lists s.published s.current.activeSourceId then s.current.activeSourceId else none
  if !s.selectedOnce && selected.isNone then
    (s.published.find? isProjection).map MediaSourceState.id
  else selected

/-- `_selectedOnce` is set with the first automatic selection. -/
def refresh (s : CachedMediaSessionService δ) : CachedMediaSessionService δ :=
  let first := s.refreshed.isSome && !lists s.published s.current.activeSourceId
  { s with selectedOnce := s.selectedOnce || first }.emit
    { sources := s.published, activeSourceId := s.refreshed }

def register (s : CachedMediaSessionService δ) (name : String) : CachedMediaSessionService δ :=
  refresh
    { s with
      providers := put s.providers name { lease := s.nextLease }
      nextLease := s.nextLease + 1 }

/-- A source of a later list, unless the one before it is of the same session and newer. -/
def newer (previous : List (MediaSourceState δ)) (source : MediaSourceState δ) : MediaSourceState δ :=
  match previous.find? fun old => old.id = source.id with
  | none => source
  | some old =>
    if old.sessionId = source.sessionId ∧ old.revision > source.revision then old else source

def publish (s : CachedMediaSessionService δ) (name : String) (lease : ℕ) (revision : ℤ)
    (sources : List (MediaSourceState δ)) : Except OperationError (CachedMediaSessionService δ) :=
  match s.providers.lookup name with
  | none => .ok s
  | some provider =>
    if provider.lease ≠ lease ∨ revision ≤ provider.revision then .ok s
    else
      let incoming := sources.take 32
      if ¬(incoming.map MediaSourceState.id).Nodup then
        .error (.stateError "Duplicate media source IDs")
      else if ∃ source ∈ incoming, ∃ entry ∈ erase s.providers name,
          ∃ other ∈ entry.2.sources, other.id = source.id then
        .error (.stateError "Media source ID belongs to another provider")
      else
        .ok (refresh
          { s with
            providers := put s.providers name
              { lease := lease
                revision := revision
                sources := incoming.map (newer provider.sources) } })

def closeProvider (s : CachedMediaSessionService δ) (name : String) (lease : ℕ) :
    CachedMediaSessionService δ :=
  match s.providers.lookup name with
  | none => s
  | some provider =>
    if provider.lease ≠ lease then s
    else refresh { s with providers := erase s.providers name }

def reflectSelection (s : CachedMediaSessionService δ) (id : Option String) :
    CachedMediaSessionService δ :=
  { s with selectedOnce := true }.emit
    { sources := s.current.sources
      activeSourceId := if lists s.current.sources id then id else none }

theorem reflectSelection_cases (s : CachedMediaSessionService δ) (id : Option String) :
    s.reflectSelection id = { s with selectedOnce := true } ∨
      s.reflectSelection id =
        { s with
          selectedOnce := true
          current :=
            { sources := s.current.sources
              activeSourceId := if lists s.current.sources id then id else none } } := by
  unfold reflectSelection emit
  exact ite_eq_or_eq _ _ _

/-- `_serialize`. -/
def serialize (s : CachedMediaSessionService δ) (operation : Operation) :
    CachedMediaSessionService δ × List (Act δ) :=
  if s.closed || s.operations.length ≥ 8 then
    (s, [.threw (.stateError "Media controls busy or closed")])
  else
    ({ s with
        operations := s.operations ++ [(s.nextOperation, operation)]
        nextOperation := s.nextOperation + 1 }, [.queued s.nextOperation])

/-- `_source`. -/
def source (s : CachedMediaSessionService δ) (id : String) : Option (MediaSourceState δ) :=
  s.current.sources.find? fun source => source.id = id

def disconnected : OperationError := .stateError "Media source disconnected"

/-- The first operation runs up to its callback. -/
def begin (s : CachedMediaSessionService δ) : CachedMediaSessionService δ × List (Act δ) :=
  match s.turn, s.operations with
  | .waiting, (number, operation) :: _ =>
    match operation with
    | .selectSource id =>
      match s.source id with
      | none => ({ s with turn := .finished }, [.began number, .ended number (some disconnected)])
      | some source =>
        if !s.select then
          ({ s with turn := .finished },
            [.began number, .ended number (some (.unsupportedError "Media routing unavailable"))])
        else ({ s with turn := .calling source }, [.began number, .selecting source])
    | .command id command =>
      match s.source id with
      | none => ({ s with turn := .finished }, [.began number, .ended number (some disconnected)])
      | some source =>
        if s.current.activeSourceId ≠ some id ∨ command ∉ source.commands ∨ !s.execute then
          ({ s with turn := .finished },
            [.began number, .ended number (some
              (.unsupportedError "Playback command unavailable for this source"))])
        else ({ s with turn := .calling source }, [.began number, .executing source command])
  | _, _ => (s, [])

/-- The callback has ended; a selection is taken only if the source is still that of its session. -/
def calledBack (s : CachedMediaSessionService δ) (error : Option OperationError) :
    CachedMediaSessionService δ × List (Act δ) :=
  match s.turn, s.operations with
  | .calling called, (number, operation) :: _ =>
    let s := { s with turn := .finished }
    match error, operation with
    | some error, _ => (s, [.ended number (some error)])
    | none, .command _ _ => (s, [.ended number none])
    | none, .selectSource id =>
      match s.source id with
      | none => (s, [.ended number (some disconnected)])
      | some source =>
        if source.sessionId ≠ called.sessionId then
          (s, [.ended number (some (.stateError "Media session replaced"))])
        else (s.reflectSelection (some id), [.selected id, .ended number none])
  | _, _ => (s, [])

/-- The operation that has finished leaves the queue. -/
def settle (s : CachedMediaSessionService δ) : CachedMediaSessionService δ :=
  match s.turn with
  | .finished => { s with operations := s.operations.tail, turn := .waiting }
  | _ => s

def step (s : CachedMediaSessionService δ) : Event δ → CachedMediaSessionService δ × List (Act δ)
  | .register name => (s.register name, [.registered name s.nextLease])
  | .publish name lease revision sources =>
    match s.publish name lease revision sources with
    | .error error => (s, [.threw error])
    | .ok next => (next, [])
  | .closeProvider name lease => (s.closeProvider name lease, [])
  | .reflectSelection id => (s.reflectSelection id, [])
  | .setCallbacks select execute => ({ s with select := select, execute := execute }, [])
  | .selectSource id => s.serialize (.selectSource id)
  | .command id command => s.serialize (.command id command)
  | .turn => s.begin
  | .calledBack error => s.calledBack error
  | .settled => (s.settle, [])
  | .close => ({ s with closed := true }, [])
  | .cleared =>
    if s.closed && s.operations.isEmpty then ({ s with providers := [] }, []) else (s, [])

end CachedMediaSessionService
end ProjectArgo.MediaSession
