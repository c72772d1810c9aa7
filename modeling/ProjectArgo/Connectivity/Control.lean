import ProjectArgo.Library.Run
import Mathlib.Data.String.Basic

/-!
# Connectivity requests

A client asks for radio, music and call operations. A request is checked, revokes what it
stops by advancing a generation, is stamped with the generation that it belongs to and is
queued for the radio worker. Between any two of these steps other tasks may run.
-/
namespace ProjectArgo.Connectivity

inductive MusicAction
  | gain
  | connect
  | disconnect
  | select
  | playback
  | unsupported
  deriving DecidableEq

inductive CallsAction
  | connect
  | disconnect
  | phonebook
  | phonebookClear
  | audio
  | dial
  | answer
  | hangup
  | unsupported
  deriving DecidableEq

/-- An action by its name; `music` and `calls` stand for all names with these prefixes. -/
inductive Action
  | stopAll
  | forget
  | clientClosed
  | microphoneTest
  | microphoneTestStop
  | microphone
  | microphoneMute
  | projectionEnabled
  | confirm
  | adapter
  | interface
  | select
  | band
  | discover
  | pair
  | enable
  | disconnect
  | connect
  | unsupported
  | music (action : MusicAction)
  | calls (action : CallsAction)
  deriving DecidableEq

namespace Action

def isCalls : Action → Bool
  | .calls _ => true
  | _ => false

def isMusic : Action → Bool
  | .music _ => true
  | _ => false

/-- The actions whose requests advance a generation. -/
def stops : Action → Bool
  | .music .disconnect => true
  | .calls .disconnect => true
  | .stopAll => true
  | .forget => true
  | _ => false

end Action

structure Request where
  generation : ℕ := 0
  action : Action
  target : String := ""
  accept : Bool := false
  prompt : ℕ := 0
  deriving DecidableEq

/-- What the tasks of the daemon share. `device` is that of the published music snapshot. -/
structure Control where
  musicCancel : ℕ := 0
  callsCancel : ℕ := 0
  stopping : Bool := false
  clientClosed : ℕ := 0
  device : Option String := none
  requests : List Request := []
  deriving DecidableEq

/-! ## One request -/

/-- What comes next in `Control::request`. -/
inductive Stage
  | loading
  | storing
  | matching
  | music
  | calls
  | all
  | stamping
  | sending
  deriving DecidableEq

/-- `matched` tells that the request is one that stops music. -/
structure Taking where
  request : Request
  stage : Stage := .loading
  matched : Bool := false
  deriving DecidableEq

inductive Progress
  | more (taking : Taking)
  | refused (message : String)
  | taken (request : Request)

/-- A request of a number of bytes, with what they are as JSON. -/
def begin (length : ℕ) (parsed : Option Request) : Except String Taking :=
  if length > 2048 then .error "Connectivity request too large"
  else
    match parsed with
    | none => .error "Malformed connectivity request"
    | some request => .ok { request }

namespace Control

def capacity : ℕ := 16

/-- The next step of a request. -/
def advance (control : Control) (taking : Taking) : Control × Progress :=
  let request := taking.request
  match taking.stage with
  | .loading =>
    if control.stopping ∧ request.action ≠ .stopAll then
      (control, .refused "Application shutdown is stopping connections")
    else (control, .more { taking with stage := .storing })
  | .storing =>
    let control := if request.action = .stopAll then { control with stopping := true } else control
    if request.action = .clientClosed then (control, .refused "Reserved connectivity action")
    else if request.target.utf8ByteSize > 256 then
      (control, .refused "Connectivity reference too long")
    else (control, .more { taking with stage := .matching })
  | .matching =>
    let matched := decide (request.action = .music .disconnect ∨
      (request.action = .forget ∧ control.device = some request.target))
    (control, .more { taking with stage := .music, matched })
  | .music =>
    (if taking.matched then { control with musicCancel := control.musicCancel + 1 } else control,
      .more { taking with stage := .calls })
  | .calls =>
    (if request.action = .calls .disconnect ∨ request.action = .stopAll ∨
        request.action = .forget then { control with callsCancel := control.callsCancel + 1 }
      else control,
      .more { taking with stage := .all })
  | .all =>
    (if request.action = .stopAll then { control with musicCancel := control.musicCancel + 1 }
      else control,
      .more { taking with stage := .stamping })
  | .stamping =>
    let generation :=
      if request.action.isCalls then control.callsCancel else control.musicCancel
    (control, .more { taking with request := { request with generation }, stage := .sending })
  | .sending =>
    if control.requests.length < capacity then
      ({ control with requests := control.requests ++ [request] }, .taken request)
    else (control, .refused "Connectivity is busy or unavailable")

end Control

end ProjectArgo.Connectivity
