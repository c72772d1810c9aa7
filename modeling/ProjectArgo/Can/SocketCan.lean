import Mathlib.Logic.Function.Basic
import ProjectArgo.Library.LossyQueue

/-!
# Delivery of CAN frames

A worker reads frames off the socket and sends them to the provider in batches, the next one after
the last has been acknowledged. The provider offers each frame to its subscriptions, and each
subscription hands its frames to a handler, one call after another. The calls are cut where the
source is: a handler runs until it returns a future, and may call the provider meanwhile.
-/
namespace ProjectArgo.Can.SocketCan

structure SocketCanConfiguration where
  maxPendingPerSubscription : ℕ
  positive : 0 < maxPendingPerSubscription

/-- Where a run of `_drain` stands. -/
inductive Phase
  /-- The handler has been entered and has not returned yet. -/
  | handling
  /-- The handler has failed, and the failure is being reported. -/
  | reporting
  /-- The future of the handler is awaited. -/
  | awaiting
  /-- The loop is over, and the callback on its end has not run yet. -/
  | ended
  deriving DecidableEq

structure Subscription (α : Type) where
  filter : α → Bool := fun _ => false
  pending : List α := []
  drainFuture : Bool := false
  active : Bool := false
  drains : List Phase := []

/-- The run of `_drain` that is on the stack. The first turn of a run is called by `_startDrain`,
which keeps the future when it is back. -/
structure Turn where
  id : ℕ
  drain : ℕ
  first : Bool

/-- A batch that is being handled, with the subscriptions that the current frame is still to be
offered to. -/
structure Dispatch (α : Type) where
  batchId : ℕ
  frames : List α
  current : Option (α × List ℕ) := none

inductive Act (α : Type)
  | subscribed (id : ℕ)
  | came (frame : α)
  | dropped (id : ℕ) (frame : α)
  | entered (id : ℕ) (frame : α)
  | completed (id : ℕ) (failed : Bool)
  | cancelled (id : ℕ)
  | sent (batchId : ℕ)
  | acknowledged (batchId : ℕ)
  deriving DecidableEq

/-- The provider, the worker, and the messages between them. An id that has not been given yet has
a subscription that is not active. -/
structure System (α : Type) where
  subscriptions : List ℕ := []
  objects : ℕ → Subscription α := fun _ => {}
  nextSubscriptionId : ℕ := 1
  dispatch : Option (Dispatch α) := none
  turn : Option Turn := none
  nextBatchId : ℕ := 1
  unacknowledgedBatchId : Option ℕ := none
  batches : List (ℕ × List α) := []
  acks : List ℕ := []
  log : List (Act α) := []

namespace System

variable {α : Type} (config : SocketCanConfiguration) (system : System α)

def note (acts : List (Act α)) : System α := { system with log := system.log ++ acts }

def put (id : ℕ) (subscription : Subscription α) : System α :=
  { system with objects := Function.update system.objects id subscription }

/-- The head of the loop of `_drain`. -/
def drain (turn : Turn) : System α :=
  let subscription := system.objects turn.id
  match subscription.active, subscription.pending with
  | true, frame :: pending =>
    { ((system.put turn.id { subscription with
        pending := pending
        drains := subscription.drains.set turn.drain .handling }).note
          [.entered turn.id frame]) with turn := some turn }
  | _, _ =>
    { (system.put turn.id { subscription with
        drains := subscription.drains.set turn.drain .ended
        drainFuture := subscription.drainFuture || turn.first }) with turn := none }

def startDrain (id : ℕ) : System α :=
  let subscription := system.objects id
  if subscription.drainFuture then system
  else
    (system.put id { subscription with drains := subscription.drains ++ [.handling] }).drain
      ⟨id, subscription.drains.length, true⟩

def enqueue (id : ℕ) (frame : α) : System α :=
  let subscription := system.objects id
  if !subscription.active then system
  else if subscription.pending.length < config.maxPendingPerSubscription then
    (system.put id { subscription with pending := subscription.pending ++ [frame] }).startDrain id
  else
    ((system.put id { subscription with pending := subscription.pending.tail ++ [frame] }).note
      (subscription.pending.head?.toList.map (.dropped id))).startDrain id

def subscribe (filter : α → Bool) : System α :=
  let id := system.nextSubscriptionId
  ({ system with
    nextSubscriptionId := id + 1
    subscriptions := system.subscriptions ++ [id] }.put id { filter, active := true }).note
      [.subscribed id]

def cancel (id : ℕ) : System α :=
  let subscription := system.objects id
  if !subscription.active then system
  else
    ({ system with subscriptions := system.subscriptions.filter (· ≠ id) }.put id
      { subscription with active := false, pending := [] }).note [.cancelled id]

/-- The next message of the worker is taken. -/
def receive : System α :=
  match system.batches with
  | (batchId, frames) :: batches =>
    { system with batches := batches, dispatch := some { batchId, frames } }
  | [] => system

/-- One more round of the two loops over the frames and over the subscriptions. -/
def dispatchNext (dispatch : Dispatch α) : System α :=
  match dispatch.current, dispatch.frames with
  | some (frame, id :: targets), _ =>
    let system := { system with
      dispatch := some { dispatch with current := some (frame, targets) } }
    if (system.objects id).active && (system.objects id).filter frame then
      system.enqueue config id frame
    else system
  | _, frame :: frames =>
    { system with
      dispatch := some { dispatch with
        frames := frames
        current := some (frame, system.subscriptions) } }.note [.came frame]
  | _, [] => { system with dispatch := none, acks := system.acks ++ [dispatch.batchId] }

/-- The handler returns a future. -/
def returned (turn : Turn) : System α :=
  let subscription := system.objects turn.id
  if subscription.drains[turn.drain]? = some .handling then
    { (system.put turn.id { subscription with
        drains := subscription.drains.set turn.drain .awaiting
        drainFuture := subscription.drainFuture || turn.first }) with turn := none }
  else system

/-- The handler throws instead. -/
def threw (turn : Turn) : System α :=
  let subscription := system.objects turn.id
  if subscription.drains[turn.drain]? = some .handling then
    (system.put turn.id { subscription with
      drains := subscription.drains.set turn.drain .reporting }).note [.completed turn.id true]
  else system

def reported (turn : Turn) : System α :=
  if (system.objects turn.id).drains[turn.drain]? = some .reporting then system.drain turn
  else system

/-- The future of a handler completes, and `_drain` goes on. -/
def settled (id drain : ℕ) (failed : Bool) : System α :=
  let subscription := system.objects id
  if subscription.drains[drain]? = some .awaiting then
    let system := system.note [.completed id failed]
    if failed then
      { (system.put id { subscription with
          drains := subscription.drains.set drain .reporting }) with
        turn := some ⟨id, drain, false⟩ }
    else system.drain ⟨id, drain, false⟩
  else system

/-- The callback on the end of `_drain`. -/
def finished (id drain : ℕ) : System α :=
  let subscription := system.objects id
  if subscription.drains[drain]? = some .ended then
    let system := system.put id { subscription with
      drains := subscription.drains.eraseIdx drain
      drainFuture := false }
    if subscription.active && !subscription.pending.isEmpty then system.startDrain id else system
  else system

/-- `_drainSocket`, with the frames that it has read. -/
def poll (frames : List α) : System α :=
  match system.unacknowledgedBatchId, frames with
  | none, frame :: frames =>
    { system with
      nextBatchId := system.nextBatchId + 1
      unacknowledgedBatchId := some system.nextBatchId
      batches := system.batches ++ [(system.nextBatchId, frame :: frames)] }.note
        [.sent system.nextBatchId]
  | _, _ => system

/-- `acknowledgeFrames` with the next acknowledgement. -/
def acknowledge : System α :=
  match system.acks with
  | batchId :: acks =>
    let system := { system with acks }
    if system.unacknowledgedBatchId = some batchId then
      { system with unacknowledgedBatchId := none }.note [.acknowledged batchId]
    else system
  | [] => system

end System

inductive Event (α : Type)
  | subscribe (filter : α → Bool)
  | cancel (id : ℕ)
  | receive
  | dispatch
  | returned
  | threw
  | reported
  | settled (id drain : ℕ) (failed : Bool)
  | finished (id drain : ℕ)
  | poll (frames : List α)
  | acknowledge

/-- The worker runs beside the provider. Of the provider, a turn goes on before all else, and then
a batch; only its callers may come in between. -/
def System.step {α : Type} (config : SocketCanConfiguration) (system : System α) :
    Event α → System α
  | .subscribe filter => system.subscribe filter
  | .cancel id => system.cancel id
  | .poll frames => system.poll frames
  | .acknowledge => system.acknowledge
  | .returned =>
    match system.turn with
    | some turn => system.returned turn
    | none => system
  | .threw =>
    match system.turn with
    | some turn => system.threw turn
    | none => system
  | .reported =>
    match system.turn with
    | some turn => system.reported turn
    | none => system
  | .dispatch =>
    match system.turn, system.dispatch with
    | none, some dispatch => system.dispatchNext config dispatch
    | _, _ => system
  | .receive =>
    match system.turn, system.dispatch with
    | none, none => system.receive
    | _, _ => system
  | .settled id drain failed =>
    match system.turn, system.dispatch with
    | none, none => system.settled id drain failed
    | _, _ => system
  | .finished id drain =>
    match system.turn, system.dispatch with
    | none, none => system.finished id drain
    | _, _ => system

def after {α : Type} (config : SocketCanConfiguration) (events : List (Event α)) : System α :=
  events.foldl (System.step config) {}

end ProjectArgo.Can.SocketCan
