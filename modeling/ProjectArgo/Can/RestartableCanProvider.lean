import ProjectArgo.Library.Serial
import ProjectArgo.Power.CanTransport

/-!
# The restartable CAN provider, await by await

`ProjectArgo.Power` takes every operation of the provider as one step. Here the
operations are cut at their awaits: others are called while one waits for its
delegate, and every attachment that was ever asked of a delegate may deliver a frame
at any time, whether it was granted or not and whether it was cancelled since.
-/
namespace ProjectArgo.Can

open Library

/-- What a delegate was asked to deliver: `_attach` with its generation. -/
structure Attachment where
  delegate : ℕ
  subscription : ℕ
  generation : ℕ
  deriving DecidableEq

/-- `_LogicalCanSubscription`. The delegate's subscription is its place among all
attachments. -/
structure LogicalCanSubscription where
  id : ℕ
  ownerId : String
  delegateSubscription : Option ℕ := none
  delegateGeneration : Option ℕ := none
  active : Bool := true
  deriving DecidableEq

/-- `RestartableCanProvider`, with what it has had of its delegates: how many the
factory made, which of them are closed, and what was attached to them. -/
structure RestartableCanProvider where
  writesEnabled : Bool
  subscriptions : List LogicalCanSubscription := []
  detachedDelegates : List ℕ := []
  delegate : Option ℕ := none
  nextSubscriptionId : ℕ := 1
  transportGeneration : ℕ := 0
  acceptFrames : Bool := false
  closing : Bool := false
  closed : Bool := false
  created : ℕ := 0
  closedDelegates : List ℕ := []
  attachments : List Attachment := []
  deriving DecidableEq

inductive Op
  | subscribe (ownerId : String)
  | cancel (id : ℕ)
  | removeOwner (ownerId : String)
  | quiesce
  | resume
  | send
  | close
  deriving DecidableEq

/-- Both close the delegates that are left over. -/
inductive Sweep
  | quiesce
  | resume
  deriving DecidableEq

/-- What an operation awaits. -/
inductive Await
  | subscribing (subscription : LogicalCanSubscription) (attachment generation : ℕ)
  | cancelling
  | removing (rest : List ℕ) (failed : Bool)
  | quiescing (delegate : ℕ)
  | sweeping (delegate : ℕ) (rest : List ℕ) (failed : Bool) (sweep : Sweep)
  | creating (generation : ℕ)
  | attaching (candidate generation : ℕ) (attached : List (ℕ × ℕ)) (id attachment : ℕ)
      (rest : List ℕ)
  | discarding (candidate : ℕ)
  | sending
  | closing (delegate : ℕ) (rest : List ℕ) (failed : Bool)
  deriving DecidableEq

/-- How an awaited call ends. Of what is returned only `writesEnabled` of a new delegate
is looked at. -/
inductive Reply
  | returned (writesEnabled : Bool)
  | failed
  deriving DecidableEq

inductive Act
  | completed (sweep : Option Sweep)
  | threw (sweep : Option Sweep)
  | cancelled (id : ℕ)
  | handled (id delegate : ℕ)
  deriving DecidableEq

namespace RestartableCanProvider

def isOnline (provider : RestartableCanProvider) : Bool :=
  provider.delegate.isSome && provider.acceptFrames && !provider.closed

/-- `_ensureOpen`. -/
def isOpen (provider : RestartableCanProvider) : Bool := !(provider.closed || provider.closing)

/-- What a piece of an operation leaves: the state, its await, and what became known. -/
abbrev Piece := RestartableCanProvider × Option Await × List Act

def attach (provider : RestartableCanProvider) (delegate id generation : ℕ) :
    RestartableCanProvider :=
  { provider with attachments := provider.attachments ++ [⟨delegate, id, generation⟩] }

/-- Every logical subscription forgets its delegate. -/
def unbind (provider : RestartableCanProvider) : RestartableCanProvider :=
  { provider with subscriptions := provider.subscriptions.map fun subscription =>
      { subscription with delegateSubscription := none, delegateGeneration := none } }

def remove (provider : RestartableCanProvider) (id : ℕ) : RestartableCanProvider :=
  { provider with subscriptions := provider.subscriptions.filter (·.id ≠ id) }

def closedWell (provider : RestartableCanProvider) (delegate : ℕ) : RestartableCanProvider :=
  { provider with closedDelegates := provider.closedDelegates ++ [delegate] }

def detach (provider : RestartableCanProvider) (delegate : ℕ) : RestartableCanProvider :=
  { provider with detachedDelegates := provider.detachedDelegates ++ [delegate] }

/-! ## Subscriptions -/

def subscribe (provider : RestartableCanProvider) (ownerId : String) : Piece :=
  if !provider.isOpen || Power.isBlank ownerId then (provider, none, [.threw none])
  else
    let subscription : LogicalCanSubscription := { id := provider.nextSubscriptionId, ownerId }
    let provider := { provider with nextSubscriptionId := provider.nextSubscriptionId + 1 }
    match provider.delegate with
    | some delegate =>
      (provider.attach delegate subscription.id provider.transportGeneration,
        some (.subscribing subscription provider.attachments.length provider.transportGeneration),
        [])
    | none =>
      ({ provider with subscriptions := provider.subscriptions ++ [subscription] }, none,
        [.completed none])

def subscribed (provider : RestartableCanProvider) (subscription : LogicalCanSubscription)
    (attachment generation : ℕ) : Reply → Piece
  | .returned _ =>
    ({ provider with subscriptions := provider.subscriptions ++
        [{ subscription with
          delegateSubscription := some attachment, delegateGeneration := some generation }] },
      none, [.completed none])
  | .failed => (provider, none, [.threw none])

/-- A piece that ends an operation with or without an error. -/
def finish (provider : RestartableCanProvider) (failed : Bool) (sweep : Option Sweep) : Piece :=
  (provider, none, [if failed then .threw sweep else .completed sweep])

/-- `_cancelSubscription`. -/
def cancel (provider : RestartableCanProvider) (id : ℕ) : Piece :=
  match provider.subscriptions.find? (·.id = id) with
  | none => provider.finish false none
  | some subscription =>
    if !subscription.active then (provider.remove id).finish false none
    else match subscription.delegateSubscription with
      | none => (provider.remove id, none, [.cancelled id, .completed none])
      | some _ => (provider.remove id, some .cancelling, [.cancelled id])

/-- The loop of `removeOwner`. -/
def removeNext (provider : RestartableCanProvider) (failed : Bool) : List ℕ → Piece
  | [] => provider.finish failed none
  | id :: rest =>
    match (provider.subscriptions.find? (·.id = id)).bind (·.delegateSubscription) with
    | some _ => (provider.remove id, some (.removing rest failed), [.cancelled id])
    | none =>
      let (next, await, acts) := (provider.remove id).removeNext failed rest
      (next, await, .cancelled id :: acts)

def removeOwner (provider : RestartableCanProvider) (ownerId : String) : Piece :=
  provider.removeNext false ((provider.subscriptions.filter (·.ownerId = ownerId)).map (·.id))

/-! ## The transport -/

/-- The failure branch of `resume`. -/
def abort (provider : RestartableCanProvider) : RestartableCanProvider :=
  { provider.unbind with acceptFrames := false, delegate := none }

/-- The loop of `resume`, and what follows it. -/
def attachNext (provider : RestartableCanProvider) (candidate generation : ℕ)
    (attached : List (ℕ × ℕ)) : List ℕ → Piece
  | id :: rest =>
    (provider.attach candidate id generation,
      some (.attaching candidate generation attached id provider.attachments.length rest), [])
  | [] =>
    ({ provider with
        subscriptions := provider.subscriptions.map fun subscription =>
          match attached.lookup subscription.id with
          | some attachment => { subscription with
              delegateSubscription := some attachment, delegateGeneration := some generation }
          | none => subscription
        delegate := some candidate
        acceptFrames := true },
      none, [.completed (some .resume)])

def delegateCreated (provider : RestartableCanProvider) (generation : ℕ) : Reply → Piece
  | .failed => (provider.abort, none, [.threw (some .resume)])
  | .returned writesEnabled =>
    let candidate := provider.created
    let provider := { provider with created := provider.created + 1 }
    if writesEnabled ≠ provider.writesEnabled then
      (provider.abort, some (.discarding candidate), [])
    else
      provider.attachNext candidate generation []
        ((provider.subscriptions.filter (·.active)).map (·.id))

/-- After `_closeDetachedDelegates`. -/
def swept (provider : RestartableCanProvider) (failed : Bool) : Sweep → Piece
  | .quiesce => provider.finish failed (some .quiesce)
  | .resume =>
    if failed then provider.finish true (some .resume)
    else
      let generation := provider.transportGeneration + 1
      ({ provider with transportGeneration := generation }, some (.creating generation), [])

/-- The loop of `_closeDetachedDelegates`. -/
def sweepNext (provider : RestartableCanProvider) (failed : Bool) (sweep : Sweep) :
    List ℕ → Piece
  | delegate :: rest => (provider, some (.sweeping delegate rest failed sweep), [])
  | [] => provider.swept failed sweep

def quiesce (provider : RestartableCanProvider) : Piece :=
  if !provider.isOpen then provider.finish true (some .quiesce)
  else match provider.delegate with
    | none => provider.sweepNext false .quiesce provider.detachedDelegates
    | some delegate =>
      ({ provider.unbind with
          acceptFrames := false
          transportGeneration := provider.transportGeneration + 1
          delegate := none },
        some (.quiescing delegate), [])

def resume (provider : RestartableCanProvider) : Piece :=
  if !provider.isOpen then provider.finish true (some .resume)
  else match provider.delegate with
    | some _ => provider.finish false (some .resume)
    | none => provider.sweepNext false .resume provider.detachedDelegates

/-- `send`, once it is its turn. -/
def send (provider : RestartableCanProvider) : Piece :=
  if !provider.isOpen || provider.delegate.isNone || !provider.acceptFrames then
    provider.finish true none
  else (provider, some .sending, [])

/-- The loop of `_close`. -/
def closeNext (provider : RestartableCanProvider) (failed : Bool) : List ℕ → Piece
  | delegate :: rest => (provider, some (.closing delegate rest failed), [])
  | [] => provider.finish failed none

/-- `_close`. -/
def close (provider : RestartableCanProvider) : Piece :=
  if provider.closed then provider.finish false none
  else
    closeNext { provider with
        closed := true
        acceptFrames := false
        transportGeneration := provider.transportGeneration + 1
        subscriptions := []
        delegate := none
        detachedDelegates := [] }
      false (provider.delegate.toList ++ provider.detachedDelegates)

/-! ## Everything that can happen -/

def start (provider : RestartableCanProvider) : Op → Piece
  | .subscribe ownerId => provider.subscribe ownerId
  | .cancel id => provider.cancel id
  | .removeOwner ownerId => provider.removeOwner ownerId
  | .quiesce => provider.quiesce
  | .resume => provider.resume
  | .send => provider.send
  | .close => provider.close

def isFailed : Reply → Bool
  | .returned _ => false
  | .failed => true

/-- An operation goes on with what it awaited. -/
def goOn (provider : RestartableCanProvider) (await : Await) (reply : Reply) : Piece :=
  match await with
  | .subscribing subscription attachment generation =>
    provider.subscribed subscription attachment generation reply
  | .cancelling => provider.finish (isFailed reply) none
  | .removing rest failed => provider.removeNext (failed || isFailed reply) rest
  | .quiescing delegate =>
    if isFailed reply then (provider.detach delegate).finish true (some .quiesce)
    else (provider.closedWell delegate).finish false (some .quiesce)
  | .sweeping delegate rest failed sweep =>
    if isFailed reply then provider.sweepNext true sweep rest
    else
      sweepNext { provider.closedWell delegate with
        detachedDelegates := provider.detachedDelegates.erase delegate } failed sweep rest
  | .creating generation => provider.delegateCreated generation reply
  | .attaching candidate generation attached id attachment rest =>
    if isFailed reply then (provider.abort, some (.discarding candidate), [])
    else provider.attachNext candidate generation (attached ++ [(id, attachment)]) rest
  | .discarding candidate =>
    if isFailed reply then (provider.detach candidate).finish true (some .resume)
    else (provider.closedWell candidate).finish true (some .resume)
  | .sending => provider.finish (isFailed reply) none
  | .closing delegate rest failed =>
    if isFailed reply then provider.closeNext true rest
    else (provider.closedWell delegate).closeNext failed rest

def body : Body RestartableCanProvider Op Await Reply Act := ⟨start, goOn⟩

/-- The frame handler that `_attach` gave to a delegate. A subscription that is not, or
no longer, in the map has no generation. -/
def frame (provider : RestartableCanProvider) (attachment : ℕ) : List Act :=
  match provider.attachments[attachment]? with
  | none => []
  | some ⟨delegate, id, generation⟩ =>
    if provider.acceptFrames = true ∧ provider.subscriptions.any (fun subscription =>
        subscription.id = id && subscription.active &&
          subscription.delegateGeneration = some generation) then [.handled id delegate]
    else []

abbrev System := Serial RestartableCanProvider Op Await

inductive Event
  | call (op : Op)
  | next
  | reply (reply : Reply)
  | frame (attachment : ℕ)
  deriving DecidableEq

/-- What happens at the call itself, before the operation waits its turn. -/
def call (system : System) : Op → System × List Act
  | .close =>
    if system.state.closing then (system, [])
    else (Serial.enqueue { system with state := { system.state with closing := true } } .close, [])
  | .send =>
    if system.state.delegate.isNone || !system.state.acceptFrames then (system, [.threw none])
    else (system.enqueue .send, [])
  | op => (system.enqueue op, [])

def step (system : System) : Event → System × List Act
  | .call op => call system op
  | .next => system.next body
  | .reply answer => system.reply body answer
  | .frame attachment => (system, system.state.frame attachment)

end RestartableCanProvider

end ProjectArgo.Can
