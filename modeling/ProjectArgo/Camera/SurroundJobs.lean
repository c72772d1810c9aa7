import Mathlib.Data.Int.Notation
import Mathlib.Logic.Function.Basic
import ProjectArgo.Library.Run

/-!
# Jobs of the camera engine

A run starts a worker in the engine, polls its state and ends with what the job ended
with, or with the first thing that stopped the run. What the code of a run does between
two of its awaits is one step; the reply of a command, a timer and the continuation that
a stopped run has queued are the events. Whatever is queued comes before any timer.
-/
namespace ProjectArgo.Camera.Jobs

variable {α ε : Type*}

/-- The `result` of a reply, with the text of its error if that is not blank; `value` is its own
`result` where that is a map, else all of it. -/
structure WorkerResult (α : Type*) where
  ok : Bool
  error : Option String
  value : α
  deriving DecidableEq

/-- The reply to `job_status`; a `result` that is missing is empty, one that is no map is `none`. -/
structure JobStatus (α : Type*) where
  state : String
  error : Option String
  result : Option (WorkerResult α)
  deriving DecidableEq

inductive JobFailure (ε : Type*)
  | stateError (message : String)
  | formatException (message : String)
  | timeoutException
  | typeError
  | thrown (error : ε)
  deriving DecidableEq

namespace JobStatus

def failureMessage (status : JobStatus α) (fallback : String) : String :=
  match status.error with
  | some direct => direct
  | none =>
    match status.result.bind WorkerResult.error with
    | some worker => worker
    | none => fallback

/-- What a state that ends the job ends the run with. -/
def verdict (status : JobStatus α) : Option (Except (JobFailure ε) α) :=
  if status.state = "complete" then
    match status.result with
    | none => some (.error .typeError)
    | some result =>
      if !result.ok then
        some (.error (.stateError (status.failureMessage "Worker job failed")))
      else some (.ok result.value)
  else if status.state = "failed" then
    some (.error (.stateError (status.failureMessage "Worker job failed")))
  else if status.state = "cancelled" then
    some (.error (.stateError (status.failureMessage "Job cancelled")))
  else none

def Terminal (status : JobStatus α) : Prop := status.state ∈ ["complete", "failed", "cancelled"]

end JobStatus

/-- What `_execute` awaits. -/
inductive Stage
  | starting
  | polling
  | pausing
  | cleaning
  | done
  deriving DecidableEq

/-- `_JobRun`, with where its two futures are: that of `_execute`, and that of `run`, whose race is
decided by `outcome` and which a cleanup may still hold up. `cleanup` tells whether its command
has been answered. -/
structure JobRun (α ε : Type*) where
  id : Option ℤ := none
  running : Bool := true
  failure : Option (JobFailure ε) := none
  cleanup : Option Bool := none
  stage : Stage := .starting
  outcome : Option (Except (JobFailure ε) α) := none
  ended : Bool := false

/-- What a run does: its commands, what it reads of their replies, and how its futures end. -/
inductive Act (α ε : Type*)
  | worker
  | started (id : ℤ)
  | jobStatus (id : ℤ)
  | observed (status : JobStatus α)
  /-- The reply was a failure, or `progress` threw. -/
  | broke (error : ε)
  | cancel (id : ℤ)
  | stopped (reason : JobFailure ε)
  | executed (outcome : Except (JobFailure ε) α)
  | ended (outcome : Except (JobFailure ε) α)

/-- How the call of `progress` ends; it may cancel the job it is told of. -/
inductive Progress (ε : Type*)
  | returned
  | cancelled
  | threw (error : ε)

inductive RunEvent (α ε : Type*)
  | startReplied (reply : Except ε (Option ℤ))
  | statusReplied (reply : Except ε (JobStatus α)) (progress : Progress ε)
  /-- The pause between two polls is over, or the run was stopped in it. -/
  | resumed
  | cleanupEnded
  /-- The continuation of `stopped`. -/
  | stopSeen
  | timedOut
  | cancelled

namespace JobRun

/-- One thing after the other. -/
def andThen (first : JobRun α ε × List (Act α ε))
    (next : JobRun α ε → JobRun α ε × List (Act α ε)) : JobRun α ε × List (Act α ε) :=
  ((next first.1).1, first.2 ++ (next first.1).2)

def stop (reason : JobFailure ε) (run : JobRun α ε) : JobRun α ε × List (Act α ε) :=
  match run.failure with
  | some _ => (run, [])
  | none => ({ run with failure := some reason }, [.stopped reason])

/-- `_cleanup`; it is awaited elsewhere. -/
def clean (run : JobRun α ε) : JobRun α ε × List (Act α ε) :=
  match run.id, run.cleanup with
  | some id, none => ({ run with cleanup := some false }, [.cancel id])
  | _, _ => (run, [])

/-- The race of `run` is decided, unless it was before. -/
def settle (outcome : Except (JobFailure ε) α) (run : JobRun α ε) :
    JobRun α ε × List (Act α ε) :=
  match run.outcome with
  | some _ => (run, [])
  | none => ({ run with outcome := some outcome, ended := true, running := false }, [.ended outcome])

/-- `_execute` ends. -/
def finish (outcome : Except (JobFailure ε) α) (run : JobRun α ε) :
    JobRun α ε × List (Act α ε) :=
  andThen ({ run with stage := .done }, [.executed outcome]) (settle outcome)

/-- `job_status` is asked for. -/
def poll (run : JobRun α ε) : JobRun α ε × List (Act α ε) :=
  ({ run with stage := .polling }, run.id.toList.map .jobStatus)

def startReplied (run : JobRun α ε) (reply : Except ε (Option ℤ)) :
    JobRun α ε × List (Act α ε) :=
  if run.stage ≠ .starting then (run, [])
  else
    match reply with
    | .error error => run.finish (.error (.thrown error))
    | .ok none => run.finish (.error (.formatException "Invalid worker job ID"))
    | .ok (some id) =>
      if id < 1 then run.finish (.error (.formatException "Invalid worker job ID"))
      else
        let started := ({ run with id := some id }, [.started id])
        if run.failure.isSome then
          andThen (andThen started clean) fun run => ({ run with stage := .cleaning }, [])
        else andThen started poll

def cancel (run : JobRun α ε) : JobRun α ε × List (Act α ε) :=
  andThen (andThen (run.stop (.stateError "Job cancelled")) fun run =>
    ({ run with running := false }, [])) clean

/-- After `progress` has returned, or cancelled the job. -/
def judge (status : JobStatus α) (run : JobRun α ε) : JobRun α ε × List (Act α ε) :=
  match run.failure, status.verdict with
  | some failure, _ => run.finish (.error failure)
  | none, some outcome => run.finish outcome
  | none, none => ({ run with stage := .pausing }, [])

def statusReplied (run : JobRun α ε) (reply : Except ε (JobStatus α)) (progress : Progress ε) :
    JobRun α ε × List (Act α ε) :=
  if run.stage ≠ .polling then (run, [])
  else
    match reply with
    | .error error => andThen (run, [.broke error]) (finish (.error (.thrown error)))
    | .ok status =>
      match run.failure with
      | some failure => run.finish (.error failure)
      | none =>
        let observed := (run, [.observed status])
        match progress with
        | .returned => andThen observed (judge status)
        | .cancelled => andThen (andThen observed cancel) (judge status)
        | .threw error =>
          andThen (andThen observed fun run => (run, [.broke error]))
            (finish (.error (.thrown error)))

def resumed (run : JobRun α ε) : JobRun α ε × List (Act α ε) :=
  if run.stage ≠ .pausing then (run, [])
  else
    match run.failure with
    | some failure => run.finish (.error failure)
    | none => run.poll

/-- The end of the future of a run that has timed out. -/
def release (run : JobRun α ε) : JobRun α ε × List (Act α ε) :=
  match run.outcome with
  | some outcome =>
    if run.ended then (run, [])
    else ({ run with ended := true, running := false }, [.ended outcome])
  | none => (run, [])

def cleanupEnded (run : JobRun α ε) : JobRun α ε × List (Act α ε) :=
  if run.cleanup ≠ some false then (run, [])
  else
    andThen
      (match run.stage, run.failure with
        | .cleaning, some failure => finish (.error failure) { run with cleanup := some true }
        | _, _ => ({ run with cleanup := some true }, []))
      release

def stopSeen (run : JobRun α ε) : JobRun α ε × List (Act α ε) :=
  match run.failure with
  | some failure => run.settle (.error failure)
  | none => (run, [])

/-- The timer has run out; it is cancelled once the race is decided. -/
def timedOut (run : JobRun α ε) : JobRun α ε × List (Act α ε) :=
  if run.outcome.isSome ∨ run.failure.isSome then (run, [])
  else
    andThen
      (andThen (andThen (run.stop .timeoutException) fun run =>
        ({ run with outcome := some (.error .timeoutException) }, [])) clean)
      fun run => if run.cleanup = some false then (run, []) else run.release

def step (run : JobRun α ε) : RunEvent α ε → JobRun α ε × List (Act α ε)
  | .startReplied reply => run.startReplied reply
  | .statusReplied reply progress => run.statusReplied reply progress
  | .resumed => run.resumed
  | .cleanupEnded => run.cleanupEnded
  | .stopSeen => run.stopSeen
  | .timedOut => run.timedOut
  | .cancelled => run.cancel

end JobRun

/-- The runs in the order of their calls; `_current` is the last one. -/
structure SurroundJob (α ε : Type*) where
  runs : ℕ → Option (JobRun α ε) := fun _ => none
  count : ℕ := 0

inductive Event (α ε : Type*)
  | run
  | cancel
  | of (run : ℕ) (event : RunEvent α ε)

namespace SurroundJob

def current (job : SurroundJob α ε) : Option (ℕ × JobRun α ε) :=
  match job.count with
  | 0 => none
  | last + 1 => (job.runs last).map (last, ·)

/-- A run takes a step. -/
def stepRun (job : SurroundJob α ε) (id : ℕ) (event : RunEvent α ε) :
    SurroundJob α ε × List (ℕ × Act α ε) :=
  match job.runs id with
  | none => (job, [])
  | some run =>
    ({ job with runs := Function.update job.runs id (some (run.step event).1) },
      (run.step event).2.map (id, ·))

/-- A call of `run` is refused while the last one is running. -/
def step (job : SurroundJob α ε) :
    Event α ε → SurroundJob α ε × Except String (List (ℕ × Act α ε))
  | .run =>
    if (job.current.map fun current => current.2.running) = some true then
      (job, .error "A job is already running")
    else
      ({ job with
          runs := Function.update job.runs job.count (some {})
          count := job.count + 1 }, .ok [(job.count, .worker)])
  | .cancel =>
    match job.current with
    | none => (job, .ok [])
    | some (id, _) => ((job.stepRun id .cancelled).1, .ok (job.stepRun id .cancelled).2)
  | .of id event => ((job.stepRun id event).1, .ok (job.stepRun id event).2)

end SurroundJob
end ProjectArgo.Camera.Jobs
