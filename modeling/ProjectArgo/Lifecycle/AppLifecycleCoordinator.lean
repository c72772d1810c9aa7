import Mathlib.Data.List.Sort
import Mathlib.Logic.Function.Basic
import ProjectArgo.Library.Run

/-!
# The lifecycle coordinator

Cleanup is registered while the application starts and runs once, when it exits or when
its startup fails. A handler runs up to its first suspension within the call that began
it: until then the future of the shutdown is not stored yet, and whatever the handler
calls finds it missing. Other code runs only between such calls.
-/
namespace ProjectArgo.Lifecycle

variable {ε : Type*}

inductive AppShutdownPhase
  | stopActivity
  | persistState
  | releaseResources
  deriving DecidableEq

def AppShutdownPhase.index : AppShutdownPhase → ℕ
  | .stopActivity => 0
  | .persistState => 1
  | .releaseResources => 2

/-- `_ShutdownRegistration` without its `active`, which changes; no two have one order. -/
structure ShutdownRegistration where
  name : String
  phase : AppShutdownPhase
  order : ℕ
  deriving DecidableEq

/-- Where the comparison of `_shutdown` puts one registration before another. -/
def ShutdownRegistration.Before (left right : ShutdownRegistration) : Prop :=
  left.phase.index < right.phase.index ∨
    left.phase.index = right.phase.index ∧ right.order ≤ left.order

instance (left right : ShutdownRegistration) : Decidable (left.Before right) :=
  inferInstanceAs (Decidable (_ ∨ _))

/-- `error` stands for an error with its stack trace, here and below. -/
structure AppLifecycleCleanupFailure (ε : Type*) where
  registrationName : String
  phase : AppShutdownPhase
  error : ε
  isFirstFailure : Bool
  deriving DecidableEq

/-- One execution of `_shutdown`: the loop awaits `current`. -/
structure Execution (ε : Type*) where
  remaining : List ShutdownRegistration
  current : Option ShutdownRegistration := none
  firstError : Option ε := none
  result : Option (Except ε Unit) := none

/-- What the future of an execution completes with after the loop. -/
def Execution.ending (execution : Execution ε) : Except ε Unit :=
  match execution.firstError with
  | none => .ok ()
  | some error => .error error

/-- A startup that has failed awaits a shutdown, and ends after it. -/
structure FailedStartup (ε : Type*) where
  error : ε
  awaited : ℕ
  outcome : Option ε := none

inductive RegistrationError
  | stateError (message : String)
  | argumentError (value name message : String)
  deriving DecidableEq

structure AppLifecycleCoordinator (ε : Type*) where
  registrations : List ShutdownRegistration := []
  active : ℕ → Bool := fun _ => false
  nextOrder : ℕ := 0
  /-- `_shutdownFuture`, as the number of its execution. -/
  shutdownFuture : Option ℕ := none
  executions : ℕ → Option (Execution ε) := fun _ => none
  nextExecution : ℕ := 0
  /-- The executions whose `_shutdown` has not returned yet, the innermost first. -/
  starting : List ℕ := []
  startups : List (FailedStartup ε) := []

inductive Act (ε : Type*)
  | invoked (registration : ShutdownRegistration)
  | completed (registration : ShutdownRegistration)
  | failed (registration : ShutdownRegistration) (error : ε)
  | reported (failure : AppLifecycleCleanupFailure ε)
  | ended (result : Except ε Unit)

inductive Event (ε : Type*)
  | registerShutdown (name : String) (phase : AppShutdownPhase)
  | unregister (order : ℕ)
  | shutdown
  /-- The handler that was called last has returned, its work under way or done. -/
  | returned
  /-- The handler that an execution awaits has ended. -/
  | handlerEnded (execution : ℕ) (error : Option ε)
  | startupFailed (error : ε)
  | startupResumed (startup : ℕ)

/-- What `trim` removes. -/
def isWhiteSpace (c : Char) : Bool :=
  (9 ≤ c.toNat && c.toNat ≤ 13) || (0x2000 ≤ c.toNat && c.toNat ≤ 0x200A) ||
    c.toNat ∈ [0x20, 0x85, 0xA0, 0x1680, 0x2028, 0x2029, 0x202F, 0x205F, 0x3000, 0xFEFF]

namespace AppLifecycleCoordinator

def isShutdownRequested (c : AppLifecycleCoordinator ε) : Bool := c.shutdownFuture.isSome

def registerShutdown (c : AppLifecycleCoordinator ε) (name : String) (phase : AppShutdownPhase) :
    Except RegistrationError (AppLifecycleCoordinator ε) :=
  if c.isShutdownRequested then
    .error (.stateError ("Cannot register \"" ++ name ++ "\" after shutdown was requested."))
  else if name.toList.all isWhiteSpace then
    .error (.argumentError name "name" "Must not be empty")
  else
    .ok { c with
      registrations := c.registrations ++ [⟨name, phase, c.nextOrder⟩]
      active := Function.update c.active c.nextOrder true
      nextOrder := c.nextOrder + 1 }

def unregister (c : AppLifecycleCoordinator ε) (order : ℕ) : AppLifecycleCoordinator ε :=
  { c with active := Function.update c.active order false }

/-- The registrations to run, in their order. -/
def activeRegistrations (c : AppLifecycleCoordinator ε) : List ShutdownRegistration :=
  (c.registrations.filter fun registration => c.active registration.order).insertionSort
    ShutdownRegistration.Before

/-- `_shutdown` returns, and its future is stored. -/
def returned (c : AppLifecycleCoordinator ε) : AppLifecycleCoordinator ε :=
  match c.starting with
  | [] => c
  | execution :: rest => { c with starting := rest, shutdownFuture := some execution }

/-- The loop is over; if it has not been suspended until then, `_shutdown` returns only now. -/
def finish (c : AppLifecycleCoordinator ε) (id : ℕ) (execution : Execution ε) :
    AppLifecycleCoordinator ε :=
  let c :=
    { c with
      executions := Function.update c.executions id
        (some { execution with current := none, result := some execution.ending }) }
  if c.starting.head? = some id then c.returned else c

/-- The loop goes on to the next registration, or the execution ends. -/
def advance (c : AppLifecycleCoordinator ε) (id : ℕ) (execution : Execution ε) :
    AppLifecycleCoordinator ε × List (Act ε) :=
  match execution.remaining with
  | [] => (c.finish id execution, [.ended execution.ending])
  | registration :: rest =>
    ({ c with
        active := Function.update c.active registration.order false
        executions := Function.update c.executions id
          (some { execution with remaining := rest, current := some registration }) },
      [.invoked registration])

/-- A new execution of `_shutdown` is called. -/
def begin (c : AppLifecycleCoordinator ε) : AppLifecycleCoordinator ε :=
  { c with nextExecution := c.nextExecution + 1, starting := c.nextExecution :: c.starting }

/-- The number of the execution that is awaited stands beside the acts. -/
def shutdown (c : AppLifecycleCoordinator ε) : ℕ × AppLifecycleCoordinator ε × List (Act ε) :=
  match c.shutdownFuture with
  | some execution => (execution, c, [])
  | none =>
    (c.nextExecution, c.begin.advance c.nextExecution { remaining := c.activeRegistrations })

/-- `_report`: what the callback throws is dropped. -/
def report (onCleanupFailure : Option (AppLifecycleCleanupFailure ε → Except ε Unit))
    (failure : AppLifecycleCleanupFailure ε) : List (Act ε) :=
  match onCleanupFailure with
  | none => []
  | some callback =>
    match callback failure with
    | .ok () | .error _ => [.reported failure]

/-- A handler has ended; nothing else is on the stack then, unless it threw before it was
suspended. -/
def handlerEnded (onCleanupFailure : Option (AppLifecycleCleanupFailure ε → Except ε Unit))
    (c : AppLifecycleCoordinator ε) (id : ℕ) (error : Option ε) :
    AppLifecycleCoordinator ε × List (Act ε) :=
  match c.executions id with
  | none => (c, [])
  | some execution =>
    match execution.current, error with
    | none, _ => (c, [])
    | some registration, none =>
      if c.starting ≠ [] then (c, [])
      else
        let next := c.advance id execution
        (next.1, .completed registration :: next.2)
    | some registration, some error =>
      if c.starting ≠ [] ∧ c.starting.head? ≠ some id then (c, [])
      else
        let next := c.advance id
          { execution with firstError := execution.firstError.or (some error) }
        (next.1, .failed registration error ::
          report onCleanupFailure
            { registrationName := registration.name
              phase := registration.phase
              error := error
              isFirstFailure := execution.firstError.isNone } ++ next.2)

def startupFailed (c : AppLifecycleCoordinator ε) (error : ε) :
    AppLifecycleCoordinator ε × List (Act ε) :=
  match c.shutdown with
  | (awaited, next, acts) =>
    ({ next with startups := next.startups ++ [{ error := error, awaited := awaited }] }, acts)

/-- The shutdown has ended, however it did: the error of the startup is thrown again. -/
def startupResumed (c : AppLifecycleCoordinator ε) (id : ℕ) : AppLifecycleCoordinator ε :=
  match c.startups[id]? with
  | none => c
  | some startup =>
    match (c.executions startup.awaited).bind Execution.result with
    | none => c
    | some _ =>
      if c.starting ≠ [] then c
      else { c with
        startups := c.startups.set id { startup with outcome := some startup.error } }

def step (onCleanupFailure : Option (AppLifecycleCleanupFailure ε → Except ε Unit))
    (c : AppLifecycleCoordinator ε) : Event ε → AppLifecycleCoordinator ε × List (Act ε)
  | .registerShutdown name phase =>
    match c.registerShutdown name phase with
    | .error _ => (c, [])
    | .ok next => (next, [])
  | .unregister order => (c.unregister order, [])
  | .shutdown => c.shutdown.2
  | .returned => (c.returned, [])
  | .handlerEnded id error => handlerEnded onCleanupFailure c id error
  | .startupFailed error => c.startupFailed error
  | .startupResumed id => (c.startupResumed id, [])

end AppLifecycleCoordinator
end ProjectArgo.Lifecycle
