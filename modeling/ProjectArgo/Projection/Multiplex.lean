import Mathlib.Data.List.Nodup
import Mathlib.Logic.Function.Basic
import ProjectArgo.Library.Assoc
import ProjectArgo.Library.Serial

/-!
# The multiplexed projection backend

Adapters of several protocols publish their sessions. The multiplexer merges them into one
snapshot, in which every session has an id of its own for every time that it came to
life, and one session at most owns the screen. Commands that change what is presented run
one at a time. Devices, audio streams and the descriptive fields of sessions are copied
through and left out.
-/
namespace ProjectArgo.Projection

open Library

inductive ProjectionProtocol
  | androidAuto
  | carPlay
  deriving DecidableEq

inductive ProjectionSessionState
  | connecting
  | ready
  | streaming
  | suspended
  | failed
  | disconnected
  deriving DecidableEq

def ProjectionSessionState.isLive : ProjectionSessionState → Bool
  | failed => false
  | disconnected => false
  | _ => true

inductive ProjectionVideoRole
  | main
  | cluster
  deriving DecidableEq

namespace Multiplex

/-! ## What adapters publish -/

structure VideoStream where
  id : String
  role : ProjectionVideoRole
  visible : Bool := true
  focused : Bool := true
  deriving DecidableEq

structure AdapterSession where
  id : String
  state : ProjectionSessionState
  videoStreams : List VideoStream := []
  deriving DecidableEq

/-- A snapshot of an adapter, which keeps its sessions under their ids. -/
structure AdapterSnapshot where
  backendAvailable : Bool
  sessions : List AdapterSession := []
  activeSessionId : Option String := none
  distinct : (sessions.map (·.id)).Nodup := by decide

/-! ## Ids -/

/-- A session of an adapter. -/
structure Key where
  protocol : ProjectionProtocol
  id : String
  deriving DecidableEq

/-- `_sessionId`. -/
structure SessionId where
  key : Key
  identity : ℕ
  deriving DecidableEq

/-- `_streamId` of a video stream. -/
structure StreamId where
  session : SessionId
  id : String
  deriving DecidableEq

/-! ## The state -/

structure PublishedStream where
  id : StreamId
  role : ProjectionVideoRole
  visible : Bool
  focused : Bool
  deriving DecidableEq

structure PublishedSession where
  id : SessionId
  state : ProjectionSessionState
  videoStreams : List PublishedStream
  deriving DecidableEq

/-- `ProjectionSwitchRecovery`. -/
structure Recovery where
  generation : ℕ
  target : SessionId
  previous : Option SessionId
  deriving DecidableEq

/-- `ProjectionSnapshot`, as the multiplexer publishes it. -/
structure Published where
  backendAvailable : Bool := false
  sessions : List PublishedSession := []
  activeSessionId : Option SessionId := none
  switchRecovery : Option Recovery := none
  deriving DecidableEq

/-- `_identities`, `_nextIdentity` and `_sessions`. -/
structure Registry where
  identities : Key → Option (ℕ × Bool) := fun _ => none
  nextIdentity : ℕ := 0
  sessions : List (SessionId × AdapterSession) := []

end Multiplex

open Multiplex

/-- `MultiplexProjectionBackend`. A stream's id says where its commands go. -/
structure MultiplexProjectionBackend where
  snapshots : ProjectionProtocol → Option AdapterSnapshot := fun _ => none
  registry : Registry := {}
  video : List StreamId := []
  hiddenStreams : List StreamId := []
  hiddenMainSessions : List SessionId := []
  current : Published := {}
  owner : Option SessionId := none
  decision : ℕ := 0
  recovery : Option Recovery := none
  preferredBackend : Option ProjectionProtocol := none

namespace Multiplex.Registry

/-- A session has a new identity when it is new, and when it came to life again. -/
def identify (registry : Registry) (key : Key) (live : Bool) : ℕ × ℕ :=
  match registry.identities key with
  | some (identity, wasLive) =>
    if !wasLive && live then (registry.nextIdentity + 1, registry.nextIdentity + 1)
    else (identity, registry.nextIdentity)
  | none => (registry.nextIdentity + 1, registry.nextIdentity + 1)

def enter (registry : Registry) (offer : ProjectionProtocol × AdapterSession) : Registry :=
  let key : Key := ⟨offer.1, offer.2.id⟩
  let live := offer.2.state.isLive
  let identity := registry.identify key live
  { identities := Function.update registry.identities key (some (identity.1, live))
    nextIdentity := identity.2
    sessions := Assoc.put registry.sessions ⟨key, identity.1⟩ offer.2 }

/-- `_sessionId`, with the identity that the session has now. -/
def sessionId (registry : Registry) (key : Key) : SessionId :=
  ⟨key, ((registry.identities key).map (·.1)).getD 0⟩

def isLive (registry : Registry) (id : SessionId) : Bool :=
  (registry.sessions.lookup id).any (·.state.isLive)

end Multiplex.Registry

namespace MultiplexProjectionBackend

/-! ## Publishing -/

/-- The sessions of the adapters that are available, in the order of the adapters. -/
def offered (backends : List ProjectionProtocol) (multiplex : MultiplexProjectionBackend) :
    List (ProjectionProtocol × AdapterSession) :=
  backends.flatMap fun protocol =>
    match multiplex.snapshots protocol with
    | some snapshot =>
      if snapshot.backendAvailable then snapshot.sessions.map fun session => (protocol, session)
      else []
    | none => []

/-- The sessions are entered anew, and identities of those that are gone are dropped. -/
def collect (offers : List (ProjectionProtocol × AdapterSession)) (registry : Registry) :
    Registry :=
  let entered := offers.foldl Registry.enter { registry with sessions := [] }
  let present := offers.map fun offer => (⟨offer.1, offer.2.id⟩ : Key)
  { entered with identities := fun key => if key ∈ present then entered.identities key else none }

def isLive (multiplex : MultiplexProjectionBackend) : Option SessionId → Bool
  | some id => multiplex.registry.isLive id
  | none => false

/-- What an adapter offers as the initial selection. -/
def candidate (multiplex : MultiplexProjectionBackend) (protocol : ProjectionProtocol) :
    Option SessionId :=
  if multiplex.preferredBackend ≠ none ∧ multiplex.preferredBackend ≠ some protocol then none
  else
    match (multiplex.snapshots protocol).bind (·.activeSessionId) with
    | none => none
    | some id =>
      let candidate := multiplex.registry.sessionId ⟨protocol, id⟩
      if multiplex.registry.isLive candidate then some candidate else none

/-- An owner that has ended is dropped, and a session adopted if there is none. -/
def selectOwner (backends : List ProjectionProtocol) (multiplex : MultiplexProjectionBackend) :
    MultiplexProjectionBackend :=
  if multiplex.isLive multiplex.owner then multiplex
  else
    match backends.findSome? multiplex.candidate with
    | some id => { multiplex with owner := some id, preferredBackend := some id.key.protocol }
    | none => { multiplex with owner := none }

def streamId (multiplex : MultiplexProjectionBackend) (key : Key) (stream : String) : StreamId :=
  ⟨multiplex.registry.sessionId key, stream⟩

/-- `_wrapSession`. -/
def wrapSession (multiplex : MultiplexProjectionBackend) (entry : SessionId × AdapterSession) :
    PublishedSession :=
  { id := entry.1
    state := entry.2.state
    videoStreams := entry.2.videoStreams.map fun stream =>
      let id := multiplex.streamId entry.1.key stream.id
      let selected := some entry.1 = multiplex.owner ∧ id ∉ multiplex.hiddenStreams ∧
        ¬ (stream.role = .main ∧ entry.1 ∈ multiplex.hiddenMainSessions)
      ⟨id, stream.role, selected && stream.visible, selected && stream.focused⟩ }

def isAvailable (backends : List ProjectionProtocol) (multiplex : MultiplexProjectionBackend) :
    Bool :=
  backends.any fun protocol => (multiplex.snapshots protocol).any (·.backendAvailable)

/-- `_publish`, once the sessions are collected and the owner is selected. -/
def announce (backends : List ProjectionProtocol) (multiplex : MultiplexProjectionBackend) :
    MultiplexProjectionBackend :=
  let sessions := multiplex.registry.sessions.map multiplex.wrapSession
  let video := sessions.flatMap fun session => session.videoStreams.map (·.id)
  { multiplex with
    video := video
    hiddenStreams := multiplex.hiddenStreams.filter (· ∈ video)
    hiddenMainSessions := multiplex.hiddenMainSessions.filter
      (· ∈ multiplex.registry.sessions.map (·.1))
    current := ⟨multiplex.isAvailable backends, sessions, multiplex.owner, multiplex.recovery⟩ }

/-- `_publish`. -/
def publish (backends : List ProjectionProtocol) (multiplex : MultiplexProjectionBackend) :
    MultiplexProjectionBackend :=
  announce backends (selectOwner backends
    { multiplex with registry := collect (offered backends multiplex) multiplex.registry })

/-! ## Commands -/

def invalidateRecovery (backends : List ProjectionProtocol)
    (multiplex : MultiplexProjectionBackend) : MultiplexProjectionBackend :=
  let decided := { multiplex with decision := multiplex.decision + 1 }
  if multiplex.recovery.isSome then publish backends { decided with recovery := none }
  else decided

/-- `_session`. -/
def session (multiplex : MultiplexProjectionBackend) (id : SessionId) : Option AdapterSession :=
  if multiplex.registry.isLive id then multiplex.registry.sessions.lookup id else none

/-- `_requireInputOwner`. -/
def isInputOwner (multiplex : MultiplexProjectionBackend) (id : SessionId) : Bool :=
  multiplex.owner = some id &&
    multiplex.current.sessions.any fun session =>
      multiplex.current.activeSessionId = some session.id &&
        session.videoStreams.any fun stream =>
          stream.role = .main && stream.visible && stream.focused

def mains (session : AdapterSession) : List VideoStream :=
  session.videoStreams.filter (·.role = .main)

end MultiplexProjectionBackend

namespace Multiplex

inductive Op
  | activate (id : SessionId) (decision : ℕ)
  | visibility (stream : StreamId) (visible : Bool)
  | disconnect (id : SessionId)
  deriving DecidableEq

/-- An activation that is under way, with what it found when it began. -/
structure Activation where
  target : SessionId
  decision : ℕ
  previous : Option SessionId
  session : AdapterSession
  deriving DecidableEq

/-- The adapter's reply that is awaited. -/
inductive Await
  | concealing (activation : Activation) (prior : Key) (rest : List VideoStream)
  | activating (activation : Activation)
  | retracting (rest : List VideoStream) (activation : Activation)
  | switching (stream : StreamId) (visible : Bool) (session : SessionId) (main : Bool)
  | disconnecting
  deriving DecidableEq

/-- What is asked of adapters, and how commands fare. -/
inductive Act
  | asked (id : SessionId) (decision : ℕ)
  | activates (key : Key)
  | setsVisibility (protocol : ProjectionProtocol) (stream : String) (visible : Bool)
  | disconnects (key : Key)
  | sends (key : Key)
  | completed
  | threw
  deriving DecidableEq

end Multiplex

namespace MultiplexProjectionBackend

abbrev Piece := MultiplexProjectionBackend × Option Await × List Act

variable (backends : List ProjectionProtocol)

/-- The `catch` of an activation. -/
def fail (multiplex : MultiplexProjectionBackend) (decision : ℕ) (target : SessionId)
    (previous : Option SessionId) : Piece :=
  if decision = multiplex.decision then
    (publish backends { multiplex with
      recovery := some ⟨decision, target, if multiplex.isLive previous then previous else none⟩ },
      none, [.threw])
  else (multiplex, none, [.threw])

/-- The main streams of the owner are hidden before another session is activated. -/
def conceal (multiplex : MultiplexProjectionBackend) (activation : Multiplex.Activation)
    (prior : Key) : List VideoStream → Piece
  | stream :: rest =>
    (publish backends { multiplex with
      hiddenStreams := multiplex.streamId prior stream.id :: multiplex.hiddenStreams },
      some (.concealing activation prior rest),
      [.setsVisibility prior.protocol stream.id false])
  | [] => (multiplex, some (.activating activation), [.activates activation.target.key])

/-- A session that was activated in vain is hidden. -/
def retract (multiplex : MultiplexProjectionBackend) (activation : Multiplex.Activation) :
    List VideoStream → Piece
  | stream :: rest =>
    (multiplex, some (.retracting rest activation),
      [.setsVisibility activation.target.key.protocol stream.id false])
  | [] => fail backends multiplex activation.decision activation.target activation.previous

/-- The session is the owner from now on. -/
def own (multiplex : MultiplexProjectionBackend) (activation : Multiplex.Activation) :
    MultiplexProjectionBackend :=
  let target := activation.target
  publish backends { multiplex with
    preferredBackend := some target.key.protocol
    owner := some target
    hiddenMainSessions := multiplex.hiddenMainSessions.filter (· ≠ target)
    hiddenStreams := multiplex.hiddenStreams.filter fun id =>
      id ∉ activation.session.videoStreams.map fun stream =>
        multiplex.streamId target.key stream.id }

def startCommand (multiplex : MultiplexProjectionBackend) : Op → Piece
  | .activate id decision =>
    if decision = multiplex.decision then
      match multiplex.session id with
      | none => fail backends multiplex decision id multiplex.owner
      | some session =>
        let activation : Multiplex.Activation := ⟨id, decision, multiplex.owner, session⟩
        match multiplex.owner with
        | some previous =>
          if previous = id then conceal backends multiplex activation id.key []
          else
            match multiplex.registry.sessions.lookup previous with
            | some prior =>
              conceal backends { multiplex with
                hiddenMainSessions := previous :: multiplex.hiddenMainSessions } activation
                ⟨previous.key.protocol, prior.id⟩ (mains prior)
            | none => conceal backends multiplex activation id.key []
        | none => conceal backends multiplex activation id.key []
    else (multiplex, none, [.threw])
  | .visibility stream visible =>
    if stream ∈ multiplex.video then
      let key := stream.session.key
      let id := multiplex.registry.sessionId key
      if visible ∧ multiplex.owner ≠ some id then (multiplex, none, [.threw])
      else
        let main := (multiplex.registry.sessions.lookup id).any fun session =>
          session.videoStreams.any fun other => other.id = stream.id && other.role = .main
        let switched :=
          if visible then multiplex
          else publish backends { multiplex with
            hiddenMainSessions :=
              if main then id :: multiplex.hiddenMainSessions else multiplex.hiddenMainSessions
            hiddenStreams := stream :: multiplex.hiddenStreams }
        (switched, some (.switching stream visible id main),
          [.setsVisibility key.protocol stream.id visible])
    else (multiplex, none, [.threw])
  | .disconnect id =>
    match multiplex.session id with
    | none => (multiplex, none, [.threw])
    | some session => (multiplex, some .disconnecting, [.disconnects ⟨id.key.protocol, session.id⟩])

def resumeCommand (multiplex : MultiplexProjectionBackend) : Await → Bool → Piece
  | .concealing activation prior rest, true => conceal backends multiplex activation prior rest
  | .activating activation, true =>
    if activation.decision = multiplex.decision then
      if multiplex.registry.isLive activation.target then
        (own backends multiplex activation, none, [.completed])
      else fail backends multiplex activation.decision activation.target activation.previous
    else retract backends multiplex activation (mains activation.session)
  | .concealing activation _ _, false
  | .activating activation, false =>
    fail backends multiplex activation.decision activation.target activation.previous
  | .retracting rest activation, true => retract backends multiplex activation rest
  | .retracting _ activation, false =>
    fail backends multiplex activation.decision activation.target activation.previous
  | .switching stream visible session main, true =>
    if visible then
      (publish backends { multiplex with
        hiddenMainSessions :=
          if main then multiplex.hiddenMainSessions.filter (· ≠ session)
          else multiplex.hiddenMainSessions
        hiddenStreams := multiplex.hiddenStreams.filter (· ≠ stream) }, none, [.completed])
    else (multiplex, none, [.completed])
  | .switching _ _ _ _, false => (multiplex, none, [.threw])
  | .disconnecting, succeeded => (multiplex, none, [if succeeded then .completed else .threw])

/-- The commands that run one at a time. -/
def commands : Body MultiplexProjectionBackend Op Await Bool Act :=
  ⟨startCommand backends, resumeCommand backends⟩

end MultiplexProjectionBackend

/-! ## The system -/

namespace Multiplex

/-- Snapshots and failures of adapters, calls, and the replies of adapters. Adapters
publish at once, so the snapshot of one that has started is the last it published. -/
inductive Event
  | snapshot (protocol : ProjectionProtocol) (snapshot : AdapterSnapshot)
  | failed (protocol : ProjectionProtocol)
  | started (protocol : ProjectionProtocol) (snapshot : AdapterSnapshot)
  | allStarted
  | activate (id : SessionId)
  | setVideoVisibility (stream : StreamId) (visible : Bool)
  | disconnect (id : SessionId)
  | invalidateRecovery
  | recover (recovery : Recovery) (returnToPrevious : Bool)
  | input (id : SessionId) (ownerOnly : Bool)
  | turn
  | reply (succeeded : Bool)

abbrev System := Serial MultiplexProjectionBackend Op Await

namespace System

open MultiplexProjectionBackend

variable (backends : List ProjectionProtocol)

def set (system : System) (multiplex : MultiplexProjectionBackend) : System :=
  { system with state := multiplex }

/-- An adapter's snapshot is merged. -/
def receive (system : System) (protocol : ProjectionProtocol) (snapshot : AdapterSnapshot) :
    System × List Act :=
  (system.set (publish backends { system.state with
    snapshots := Function.update system.state.snapshots protocol (some snapshot) }), [])

def activate (system : System) (id : SessionId) : System × List Act :=
  let multiplex := invalidateRecovery backends system.state
  ((system.set multiplex).enqueue (.activate id multiplex.decision),
    [.asked id multiplex.decision])

/-- What a recovery leads to, if it has not expired. -/
def recoveryTarget (multiplex : MultiplexProjectionBackend) (recovery : Recovery)
    (returnToPrevious : Bool) : Option SessionId :=
  let target := if returnToPrevious then recovery.previous else some recovery.target
  if multiplex.recovery = some recovery ∧ recovery.generation = multiplex.decision ∧
      multiplex.isLive target then target
  else none

def step (system : System) : Event → System × List Act
  | .snapshot protocol snapshot => system.receive backends protocol snapshot
  | .failed protocol => system.receive backends protocol { backendAvailable := false }
  | .started protocol snapshot =>
    if (system.state.snapshots protocol).isSome then (system, [])
    else (system.set { system.state with
      snapshots := Function.update system.state.snapshots protocol (some snapshot) }, [])
  | .allStarted => (system.set (publish backends system.state), [])
  | .activate id => system.activate backends id
  | .setVideoVisibility stream visible =>
    ((system.set (if visible then system.state
      else MultiplexProjectionBackend.invalidateRecovery backends system.state)).enqueue
      (.visibility stream visible), [])
  | .disconnect id => (system.enqueue (.disconnect id), [])
  | .invalidateRecovery =>
    (system.set (MultiplexProjectionBackend.invalidateRecovery backends system.state), [])
  | .recover recovery returnToPrevious =>
    match recoveryTarget system.state recovery returnToPrevious with
    | some target => system.activate backends target
    | none => (system, [.threw])
  | .input id ownerOnly =>
    match system.state.session id with
    | some session =>
      if ownerOnly && !system.state.isInputOwner id then (system, [.threw])
      else (system, [.sends ⟨id.key.protocol, session.id⟩])
    | none => (system, [.threw])
  | .turn => system.next (commands backends)
  | .reply succeeded => system.reply (commands backends) succeeded

def initial : System := ⟨{}, [], none⟩

end System

end Multiplex

end ProjectArgo.Projection
