import ProjectArgo.Connectivity.Control
import ProjectArgo.Library.Assoc

/-!
# Clients of the control socket

A client that says hello takes the single lease and may then configure, command and make
requests. The task of a client that has gone releases its values one after another; the
radio worker performs the requests and closes down when it sees that a client has gone.
-/
namespace ProjectArgo.Connectivity.Clients

open Library Library.Run

/-- What a client sends, as it is read. -/
inductive Message
  | hello (empty : Bool)
  | connectivity (length : ℕ) (parsed : Option Request)
  | display (revision : Option ℕ) (valid : Bool)
  | command (valid : Bool)

/-- What a task does to the values that it shares when it cleans up. -/
inductive Update
  | release
  | disable
  | cancelCalls
  | cancelMusic
  | signal
  | stopTest
  | disconnectCalls
  | disconnectMusic
  | drain
  | stopWireless
  deriving DecidableEq

/-- The values of a client's task that do something when they are released. -/
inductive Local
  | cleanup
  | lease

def Local.drop : Local → List Update
  | .cleanup => [.disable, .cancelCalls, .cancelMusic, .signal]
  | .lease => [.release]

/-- A client's task. Having taken the lease it clears what the last application stopped with,
answers, and serves. -/
inductive Client
  | greeting
  | acquired
  | cleared
  | replying
  | serving (revision : ℕ)
  | requesting (revision : ℕ) (taking : Taking)
  | leaving (rest : List Update)
  deriving DecidableEq

namespace Client

/-- The values that are held where a task may end, in the order of their declaration. -/
def locals : Client → List Local
  | .replying => [.cleanup, .lease]
  | .serving _ => [.cleanup, .lease]
  | _ => []

def departure (client : Client) : List Update := client.locals.reverse.flatMap Local.drop

def rest : Client → List Update
  | .leaving rest => rest
  | _ => []

end Client

/-- The radio worker. -/
inductive Worker
  | waiting
  | performing (request : Request)
  | closing (rest : List Update)
  deriving DecidableEq

/-- What the worker does when a client has gone. -/
def closing : List Update :=
  [.stopTest, .disable, .cancelCalls, .disconnectCalls, .cancelMusic, .disconnectMusic, .drain,
    .stopWireless]

structure System where
  control : Control := {}
  lease : Option ℕ := none
  clients : List (ℕ × Client) := []
  projectionEnabled : Bool := true
  stopped : Option ℕ := none
  worker : Worker := .waiting
  closedSeen : ℕ := 0

/-- `updated` names the client that cleans up, or none for the worker. -/
inductive Act
  | acquired (id : ℕ)
  | configured (id : ℕ)
  | commanded (id : ℕ)
  | advanced (id : ℕ)
  | taken (id : ℕ) (request : Request)
  | updated (owner : Option ℕ) (update : Update)
  | performed (request : Request)
  deriving DecidableEq

/-- `done` tells that a request of the worker went as asked. -/
inductive Event
  | connect (id : ℕ)
  | message (id : ℕ) (message : Message)
  | work (id : ℕ)
  | replied (id : ℕ) (sent : Bool)
  | leave (id : ℕ)
  | notice
  | receive
  | perform (done : Bool)
  | close

namespace System

def put (system : System) (id : ℕ) (client : Client) : System :=
  { system with clients := Assoc.put system.clients id client }

/-- The controllers' queues, the microphone test and the radio activities are elsewhere. -/
def update (system : System) : Update → System
  | .release => { system with lease := none }
  | .disable => { system with projectionEnabled := false }
  | .cancelCalls => { system with
      control := { system.control with callsCancel := system.control.callsCancel + 1 } }
  | .cancelMusic => { system with
      control := { system.control with musicCancel := system.control.musicCancel + 1 } }
  | .signal => { system with
      control := { system.control with clientClosed := system.control.clientClosed + 1 } }
  | .drain => { system with control := { system.control with requests := [] } }
  | .stopTest | .disconnectCalls | .disconnectMusic | .stopWireless => system

/-- The task ends where it waits. -/
def leave (system : System) (id : ℕ) (client : Client) : System :=
  system.put id (.leaving client.departure)

def greet (system : System) (id : ℕ) : Message → System × List Act
  | .hello true =>
    match system.lease with
    | none => ({ system with lease := some id }.put id .acquired, [.acquired id])
    | some _ => (system.leave id .greeting, [])
  | _ => (system.leave id .greeting, [])

def serve (system : System) (id revision : ℕ) : Message → System × List Act
  | .connectivity length parsed =>
    match begin length parsed with
    | .error _ => (system, [])
    | .ok taking => (system.put id (.requesting revision taking), [])
  | .display none _ => (system.leave id (.serving revision), [])
  | .display (some request) valid =>
    if request ≤ revision then (system.leave id (.serving revision), [])
    else (system.put id (.serving request), if valid then [.configured id] else [])
  | .command valid => (system, if valid then [.commanded id] else [])
  | .hello _ => (system, [])

def message (system : System) (id : ℕ) (message : Message) : System × List Act :=
  match system.clients.lookup id with
  | some .greeting => system.greet id message
  | some (.serving revision) => system.serve id revision message
  | _ => (system, [])

/-- A step of a client's task that does not wait. -/
def work (system : System) (id : ℕ) : System × List Act :=
  match system.clients.lookup id with
  | some .acquired =>
    ({ system with control := { system.control with stopping := false } }.put id .cleared, [])
  | some .cleared => ({ system with stopped := none }.put id .replying, [])
  | some (.requesting revision taking) =>
    match system.control.advance taking with
    | (control, .more taking) =>
      ({ system with control }.put id (.requesting revision taking), [.advanced id])
    | (control, .refused _) =>
      ({ system with control }.put id (.serving revision), [.advanced id])
    | (control, .taken request) =>
      ({ system with control }.put id (.serving revision), [.taken id request])
  | some (.leaving (update :: rest)) =>
    ((system.update update).put id (.leaving rest), [.updated (some id) update])
  | _ => (system, [])

/-- A session may be in the way of turning projection off, and a failure of stopping. -/
def perform (system : System) (done : Bool) : System × List Act :=
  match system.worker with
  | .performing request =>
    let system := { system with worker := .waiting }
    if system.control.stopping ∧ request.action ≠ .stopAll then (system, [])
    else if request.action = .projectionEnabled then
      (if done then { system with projectionEnabled := request.accept } else system,
        [.performed request])
    else if request.action = .stopAll then
      ({ system with
          projectionEnabled := false, stopped := if done then some request.prompt else none },
        [.performed request])
    else (system, [.performed request])
  | _ => (system, [])

def step (system : System) : Event → System × List Act
  | .connect id =>
    match system.clients.lookup id with
    | none => (system.put id .greeting, [])
    | some _ => (system, [])
  | .message id message => system.message id message
  | .work id => system.work id
  | .replied id sent =>
    match system.clients.lookup id with
    | some .replying =>
      (if sent then system.put id (.serving 0) else system.leave id .replying, [])
    | _ => (system, [])
  | .leave id =>
    match system.clients.lookup id with
    | some .greeting => (system.leave id .greeting, [])
    | some .replying => (system.leave id .replying, [])
    | some (.serving revision) => (system.leave id (.serving revision), [])
    | _ => (system, [])
  | .notice =>
    if system.worker = .waiting ∧ system.closedSeen ≠ system.control.clientClosed then
      ({ system with closedSeen := system.control.clientClosed, worker := .closing closing }, [])
    else (system, [])
  | .receive =>
    match system.worker, system.control.requests with
    | .waiting, request :: rest =>
      ({ system with
          control := { system.control with requests := rest }, worker := .performing request },
        [])
    | _, _ => (system, [])
  | .perform done => system.perform done
  | .close =>
    match system.worker with
    | .closing (update :: rest) =>
      ({ system.update update with worker := .closing rest }, [.updated none update])
    | .closing [] => ({ system with worker := .waiting }, [])
    | _ => (system, [])

end System

end ProjectArgo.Connectivity.Clients
