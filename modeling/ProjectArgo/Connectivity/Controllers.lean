import ProjectArgo.Connectivity.Clients

/-!
# The radio worker and the controllers

The worker forwards the requests for music and calls to two controllers. These compare the
generation of a request with the present one before they execute it; music watches for an
advance while it executes a request, and calls compares again afterwards. One request at a
time is being taken, that of the client with the lease.
-/
namespace ProjectArgo.Connectivity.Controllers

open Library Library.Run
open Clients (Update closing)

/-- The radio worker; having to stop all it asks the two controllers one after the other. -/
inductive Worker
  | waiting
  | handling (request : Request)
  | forwarding (request : Request)
  | forgetting (request : Request)
  | stoppingMusic (prompt : ℕ)
  | stoppingCalls (prompt : ℕ)
  | acknowledging
  | closing (rest : List Update)

inductive Music
  | waiting
  | received (request : Request)
  | compared (request : Request)
  | running (request : Request)
  | polled (request : Request)

inductive Calls
  | waiting
  | received (request : Request)
  | compared (request : Request)
  | running (request : Request)
  | done (request : Request) (confirmed : Bool)

structure System where
  control : Control := {}
  taking : Option Taking := none
  worker : Worker := .waiting
  closedSeen : ℕ := 0
  musicRequests : List Request := []
  callRequests : List Request := []
  music : Music := .waiting
  musicSeen : ℕ := 0
  calls : Calls := .waiting

/-- Which of the two controllers a request is for. -/
inductive Kind
  | music
  | calls
  deriving DecidableEq

inductive Act
  | asked
  | updated
  | refused (message : String)
  | taken (request : Request) (matched : Bool)
  | revoked (kind : Kind) (request : Request)
  | started (kind : Kind) (request : Request)
  | cancelled (kind : Kind) (request : Request)
  | ended (kind : Kind) (request : Request) (confirmed : Bool)
  deriving DecidableEq

/-- A client says hello, asks, and its request is taken step by step; the task of a client that
has gone cleans up; music publishes its device. Then the worker and the controllers. -/
inductive Event
  | hello
  | request (length : ℕ) (parsed : Option Request)
  | control
  | cleanup (update : Update)
  | publish (device : Option String)
  | notice
  | receive
  | work
  | musicWake
  | musicReceive
  | musicCompare
  | musicUpdate
  | musicPoll
  | musicResult (result : Option Bool)
  | callsReceive
  | callsCompare
  | callsStart
  | callsResult (confirmed : Bool)
  | callsReport

namespace System

def sendMusic (system : System) (request : Request) : System :=
  if system.musicRequests.length < Control.capacity then
    { system with musicRequests := system.musicRequests ++ [request] }
  else system

def sendCalls (system : System) (request : Request) : System :=
  if system.callRequests.length < Control.capacity then
    { system with callRequests := system.callRequests ++ [request] }
  else system

def update (system : System) : Update → System
  | .cancelCalls => { system with
      control := { system.control with callsCancel := system.control.callsCancel + 1 } }
  | .cancelMusic => { system with
      control := { system.control with musicCancel := system.control.musicCancel + 1 } }
  | .signal => { system with
      control := { system.control with clientClosed := system.control.clientClosed + 1 } }
  | .disconnectCalls => system.sendCalls { action := .calls .disconnect }
  | .disconnectMusic => system.sendMusic { action := .music .disconnect }
  | .drain => { system with control := { system.control with requests := [] } }
  | .release | .disable | .stopTest | .stopWireless => system

/-- The next step of the request that is being taken. -/
def advance (system : System) (taking : Taking) : System × List Act :=
  let (control, progress) := system.control.advance taking
  let updated := if control.musicCancel ≠ system.control.musicCancel ∨
      control.callsCancel ≠ system.control.callsCancel ∨
      control.stopping ≠ system.control.stopping then [.updated] else []
  match progress with
  | .more next => ({ system with control, taking := some next }, updated)
  | .refused message => ({ system with control, taking := none }, updated ++ [.refused message])
  | .taken request =>
    ({ system with control, taking := none }, updated ++ [.taken request taking.matched])

/-- What is not for the controllers is done elsewhere. -/
def forward (system : System) (request : Request) : System :=
  if request.action.isCalls then { system.sendCalls request with worker := .waiting }
  else if request.action = .stopAll then { system with worker := .stoppingMusic request.prompt }
  else if request.action = .forget then
    { system.sendCalls { action := .calls .disconnect } with worker := .forgetting request }
  else if request.action.isMusic then { system.sendMusic request with worker := .waiting }
  else { system with worker := .waiting }

/-- The next step of the worker. A send for `stopAll` waits until there is room. -/
def work (system : System) : System :=
  match system.worker with
  | .waiting => system
  | .handling request =>
    if system.control.stopping ∧ request.action ≠ .stopAll then
      { system with worker := .waiting }
    else { system with worker := .forwarding request }
  | .forwarding request => system.forward request
  | .forgetting request =>
    if system.control.device = some request.target then
      { system.sendMusic { action := .music .disconnect, target := request.target } with
        worker := .waiting }
    else { system with worker := .waiting }
  | .stoppingMusic prompt =>
    if system.musicRequests.length < Control.capacity then
      { system.sendMusic { action := .music .disconnect, prompt } with
        worker := .stoppingCalls prompt }
    else system
  | .stoppingCalls prompt =>
    if system.callRequests.length < Control.capacity then
      { system.sendCalls { action := .calls .disconnect, prompt } with worker := .acknowledging }
    else system
  | .acknowledging => { system with worker := .waiting }
  | .closing (update :: rest) => { system.update update with worker := .closing rest }
  | .closing [] => { system with worker := .waiting }

def musicCompare (system : System) : System × List Act :=
  match system.music with
  | .received request =>
    if request.action ≠ .music .disconnect ∧ request.generation ≠ system.control.musicCancel then
      ({ system with music := .waiting }, [.revoked .music request])
    else ({ system with music := .compared request }, [])
  | _ => (system, [])

/-- `borrow_and_update`: an advance since the comparison counts as seen. -/
def musicUpdate (system : System) : System × List Act :=
  match system.music with
  | .compared request =>
    ({ system with music := .running request, musicSeen := system.control.musicCancel },
      [.started .music request])
  | _ => (system, [])

/-- The watch is polled before the request. -/
def musicPoll (system : System) : System × List Act :=
  match system.music with
  | .running request =>
    if system.musicSeen ≠ system.control.musicCancel then
      ({ system with music := .waiting, musicSeen := system.control.musicCancel },
        [.cancelled .music request])
    else ({ system with music := .polled request }, [])
  | _ => (system, [])

/-- The request is polled: it is not ready, or it is done or has timed out. -/
def musicResult (system : System) (result : Option Bool) : System × List Act :=
  match system.music, result with
  | .polled request, none => ({ system with music := .running request }, [])
  | .polled request, some confirmed =>
    ({ system with music := .waiting }, [.ended .music request confirmed])
  | _, _ => (system, [])

def callsCompare (system : System) : System × List Act :=
  match system.calls with
  | .received request =>
    if request.action ≠ .calls .disconnect ∧ request.generation ≠ system.control.callsCancel then
      ({ system with calls := .waiting }, [.revoked .calls request])
    else ({ system with calls := .compared request }, [])
  | _ => (system, [])

def callsStart (system : System) : System × List Act :=
  match system.calls with
  | .compared request =>
    if request.action ≠ .calls .disconnect ∧ system.control.stopping then
      ({ system with calls := .waiting }, [.revoked .calls request])
    else ({ system with calls := .running request }, [.started .calls request])
  | _ => (system, [])

def callsReport (system : System) : System × List Act :=
  match system.calls with
  | .done request confirmed =>
    if request.action ≠ .calls .disconnect ∧ request.generation ≠ system.control.callsCancel then
      ({ system with calls := .waiting }, [.cancelled .calls request])
    else ({ system with calls := .waiting }, [.ended .calls request confirmed])
  | _ => (system, [])

def step (system : System) : Event → System × List Act
  | .hello =>
    match system.taking with
    | none => ({ system with control := { system.control with stopping := false } }, [])
    | some _ => (system, [])
  | .request length parsed =>
    match system.taking with
    | none =>
      match begin length parsed with
      | .error message => (system, [.asked, .refused message])
      | .ok taking => ({ system with taking := some taking }, [.asked])
    | some _ => (system, [])
  | .control =>
    match system.taking with
    | some taking => system.advance taking
    | none => (system, [])
  | .cleanup update =>
    if update ∈ Clients.Local.cleanup.drop then (system.update update, []) else (system, [])
  | .publish device => ({ system with control := { system.control with device } }, [])
  | .notice =>
    match system.worker with
    | .waiting =>
      if system.closedSeen ≠ system.control.clientClosed then
        ({ system with
            closedSeen := system.control.clientClosed, worker := .closing closing }, [])
      else (system, [])
    | _ => (system, [])
  | .receive =>
    match system.worker, system.control.requests with
    | .waiting, request :: rest =>
      ({ system with
          control := { system.control with requests := rest }, worker := .handling request }, [])
    | _, _ => (system, [])
  | .work => (system.work, [])
  | .musicWake =>
    match system.music with
    | .waiting => ({ system with musicSeen := system.control.musicCancel }, [])
    | _ => (system, [])
  | .musicReceive =>
    match system.music, system.musicRequests with
    | .waiting, request :: rest =>
      ({ system with musicRequests := rest, music := .received request }, [])
    | _, _ => (system, [])
  | .musicCompare => system.musicCompare
  | .musicUpdate => system.musicUpdate
  | .musicPoll => system.musicPoll
  | .musicResult result => system.musicResult result
  | .callsReceive =>
    match system.calls, system.callRequests with
    | .waiting, request :: rest =>
      ({ system with callRequests := rest, calls := .received request }, [])
    | _, _ => (system, [])
  | .callsCompare => system.callsCompare
  | .callsStart => system.callsStart
  | .callsResult confirmed =>
    match system.calls with
    | .running request => ({ system with calls := .done request confirmed }, [])
    | _ => (system, [])
  | .callsReport => system.callsReport

end System

end ProjectArgo.Connectivity.Controllers
