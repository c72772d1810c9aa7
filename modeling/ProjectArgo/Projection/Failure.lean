import Mathlib.Data.List.Basic

/-!
# Why a projection attempt ends

The termination policy of the daemon: the kind of a failure decides about a
retry, its wording never does. An awaited call outside the daemon can end in
four ways, and each but success may come after the call has taken effect.
-/
namespace ProjectArgo.Projection

/-- `failure::Kind`. -/
inductive Kind
  | transportLoss
  | networkLoss
  | setupTimeout
  | cancelled
  | authorization
  | protocol
  | configuration
  | cleanup
  | bootstrapClosed
  deriving DecidableEq

structure Failure where
  kind : Kind
  detail : String
  cleanup : Option String := none
  deriving DecidableEq

namespace Failure

def configuration (detail : String) : Failure := { kind := .configuration, detail := detail }

def network (detail : String) : Failure := { kind := .networkLoss, detail := detail }

def timeout (detail : String) : Failure := { kind := .setupTimeout, detail := detail }

def authorization (detail : String) : Failure := { kind := .authorization, detail := detail }

/-- `From<&str>`: a parser's diagnostic. -/
def protocol (detail : String) : Failure := { kind := .protocol, detail := detail }

def cancelled : Failure :=
  { kind := .cancelled, detail := "Explicit connection request stopped" }

def retryable (failure : Failure) : Bool :=
  failure.cleanup.isNone &&
    (failure.kind = .transportLoss || failure.kind = .networkLoss || failure.kind = .setupTimeout)

end Failure

/-- How an awaited external call ends. A call that does not succeed may still
have taken effect; a cancelled one runs no more of its caller's code. -/
inductive Outcome
  | ok
  | failed (tookEffect : Bool) (error : String)
  | timedOut (tookEffect : Bool)
  | cancelled (tookEffect : Bool)
  deriving DecidableEq

def Outcome.tookEffect : Outcome → Bool
  | .ok => true
  | .failed tookEffect _ => tookEffect
  | .timedOut tookEffect => tookEffect
  | .cancelled tookEffect => tookEffect

/-- What a caller learns of a call that did not succeed. -/
inductive Interruption
  | error (text : String)
  | cancelled
  deriving DecidableEq

/-- The result of a call whose timeout has a text of its own. -/
def Outcome.result (timeout : String) : Outcome → Except Interruption Unit
  | .ok => .ok ()
  | .failed _ error => .error (.error error)
  | .timedOut _ => .error (.error timeout)
  | .cancelled _ => .error .cancelled

theorem Outcome.result_eq_ok {timeout : String} {outcome : Outcome} {u : Unit} :
    outcome.result timeout = .ok u ↔ outcome = .ok := by
  cases outcome <;> simp [Outcome.result]

end ProjectArgo.Projection
