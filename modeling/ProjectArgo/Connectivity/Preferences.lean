import Mathlib.Data.Int.Notation
import Mathlib.Data.List.Basic
import ProjectArgo.Library.LinkedSet
import ProjectArgo.Library.Run

/-!
# Connectivity preferences

At startup the remembered radio choices are sent to the connectivity daemon again, then the
remembered phone is selected and the startup connections are requested, once each. What the
user commands meanwhile is passed on at once and has to win over all of it. Everything sent goes
into one log, so that what came before what can be read off it.
-/
namespace ProjectArgo.Connectivity.Preferences

open Library Library.Run

/-! ## Commands, snapshots and settings -/

/-- The controllers of the connections: `connect`, `musicConnect` and `callsConnect` ask them. -/
inductive Provider
  | wireless
  | music
  | calls
  deriving DecidableEq

/-- What may be asked of the daemon. `connect` and `disconnect` stand for the three actions of
the providers each. -/
inductive Action
  | forget
  | stopAll
  | adapter
  | interface
  | select
  | disconnect (provider : Provider)
  | enable
  | projectionEnabled
  | connect (provider : Provider)
  | band
  | microphone
  | other (name : String)
  deriving DecidableEq

structure Command where
  action : Action
  target : String := ""
  accept : Bool := false
  prompt : ℤ := 0
  deriving DecidableEq

/-- A command to the daemon, the user's own or one of the restore and the startup. -/
inductive Sent
  | explicit (command : Command)
  | automatic (command : Command)
  deriving DecidableEq

structure Radio where
  id : String
  address : Option String := none
  deriving DecidableEq

structure Device where
  id : String
  paired : Bool
  deriving DecidableEq

structure Calls where
  available : Bool
  phase : Option String := none
  deriving DecidableEq

structure Snapshot where
  available : Bool := false
  daemonConnected : Bool := false
  adapters : List Radio := []
  networks : List Radio := []
  devices : List Device := []
  selected : String := ""
  enabled : Bool := false
  phase : String := "unavailable"
  cleanupError : String := ""
  band : Option String := none
  /-- The phase of the music, where there is music. -/
  music : Option (Option String) := none
  calls : Option Calls := none
  voice : Bool := false
  wirelessAvailable : Option Bool := none
  deriving DecidableEq

structure Settings where
  autoConnectPhone : Bool := true
  connectivityAdapter : String := ""
  connectivityInterface : String := ""
  connectivityPhone : String := ""
  connectivityBand : String := "5ghz"
  microphoneInput : String := ""
  deriving DecidableEq

/-- A new value of one setting. -/
inductive Change
  | autoConnectPhone (value : Bool)
  | connectivityAdapter (value : String)
  | connectivityInterface (value : String)
  | connectivityPhone (value : String)
  | connectivityBand (value : String)
  | microphoneInput (value : String)
  deriving DecidableEq

def Settings.set (settings : Settings) : Change → Settings
  | .autoConnectPhone value => { settings with autoConnectPhone := value }
  | .connectivityAdapter value => { settings with connectivityAdapter := value }
  | .connectivityInterface value => { settings with connectivityInterface := value }
  | .connectivityPhone value => { settings with connectivityPhone := value }
  | .connectivityBand value => { settings with connectivityBand := value }
  | .microphoneInput value => { settings with microphoneInput := value }

def Radio.named (radio : Radio) (name : String) : Bool :=
  radio.address = some name || radio.id = name

namespace Snapshot

variable (state : Snapshot)

def radio (name : String) : Option Radio :=
  state.adapters.find? (·.named name)

def offers (interface : String) : Bool :=
  state.networks.any (·.id = interface)

def paired (id : String) : Bool :=
  state.devices.any fun device => device.id = id && device.paired

/-- The daemon is there and knows a radio. -/
def usable : Bool :=
  state.daemonConnected && state.available && !state.adapters.isEmpty

end Snapshot

/-- What stands behind the last slash, and nothing where there is no slash. -/
def phoneAddress (phone : String) : String :=
  if '/' ∈ phone.toList then String.ofList (phone.toList.reverse.takeWhile (· ≠ '/')).reverse
  else ""

/-- The remembered phone as it is called under the remembered radio. -/
def restoredPhone (settings : Settings) (state : Snapshot) : String :=
  match state.radio settings.connectivityAdapter with
  | some radio =>
    if phoneAddress settings.connectivityPhone ≠ "" then
      radio.id ++ "/" ++ phoneAddress settings.connectivityPhone
    else settings.connectivityPhone
  | none => settings.connectivityPhone

/-! ## The state -/

/-- A startup connection that is still to be requested. The phone stands for whatever connects
it. -/
inductive Source
  | phone
  | provider (provider : Provider)
  | other (name : String)
  deriving DecidableEq

inductive Deadline
  | unset
  | running
  | ended
  deriving DecidableEq

def Deadline.arm : Deadline → Deadline
  | .unset => .running
  | deadline => deadline

def Deadline.cancel : Deadline → Deadline
  | .running => .ended
  | deadline => deadline

/-- What a restore of the choices has read before its first command. -/
structure Choices where
  state : Snapshot
  adapter : String
  interface : String
  deriving DecidableEq

def Choices.radio (choices : Choices) : Option Radio :=
  choices.state.radio choices.adapter

/-- What a restore of the choices is waiting for. -/
inductive Restoring
  | band (choices : Choices)
  | adapter (choices : Choices)
  | migration
  | interface
  | finished
  deriving DecidableEq

/-- A write to the settings. -/
inductive Write
  | chosen (change : Change)
  | migrated (choices : Choices) (radio : Radio)
  | forgotten
  deriving DecidableEq

structure Config where
  projectionConfigured : Bool := true
  startupConnections : List Source := []

structure Preferences where
  settings : Settings
  /-- What the backend's snapshot is, and those that its stream still has to deliver. -/
  connectivity : Snapshot
  undelivered : List Snapshot := []
  selectionSuppressed : Bool := false
  startupPending : LinkedSet Source := ∅
  startupDeadline : Deadline := .unset
  startupPhone : Option String := none
  choicesRestored : Bool := false
  microphoneRestored : Bool := false
  /-- Closing gives up the settings at once and the backend's stream somewhat later. -/
  closing : Bool := false
  closed : Bool := false
  /-- The restore of the choices that is under way. -/
  restoring : Option Restoring := none
  /-- The phone whose selection is under way. -/
  selecting : Option String := none
  /-- The user's commands that the backend has not answered. -/
  commands : List Command := []
  /-- The writes that are not over. Their order is kept, but one may be refused before its turn. -/
  writes : List Write := []

def Preferences.initial (config : Config) (settings : Settings) (connectivity : Snapshot) :
    Preferences where
  settings := settings
  connectivity := connectivity
  startupPending :=
    if settings.autoConnectPhone then LinkedSet.ofList (.phone :: config.startupConnections) else ∅

/-- One thing after another, with everything sent in order. -/
def andThen (r : Preferences × List Sent) (f : Preferences → Preferences × List Sent) :
    Preferences × List Sent :=
  ((f r.1).1, r.2 ++ (f r.1).2)

def cancelStartup (s : Preferences) : Preferences :=
  { s with startupPending := ∅, startupDeadline := s.startupDeadline.cancel }

def suppress (s : Preferences) : Preferences :=
  { cancelStartup s with selectionSuppressed := true }

/-- Nothing pending needs no deadline. -/
def settleDeadline (s : Preferences) : Preferences :=
  if s.startupPending.isEmpty then { s with startupDeadline := s.startupDeadline.cancel } else s

/-! ## Startup -/

def Config.first (config : Config) : Provider :=
  if config.projectionConfigured then .wireless else .music

/-- The phone is connected by what is configured, and by music only once there is music. -/
def convert (config : Config) (state : Snapshot) (pending : LinkedSet Source) : LinkedSet Source :=
  if .phone ∈ pending then
    if config.projectionConfigured then (pending.remove .phone).add (.provider .wireless)
    else if state.music.isSome then (pending.remove .phone).add (.provider .music)
    else pending
  else pending

def ready (state : Snapshot) : Provider → Bool
  | .wireless => state.enabled && state.wirelessAvailable = some true
  | .music => state.music.isSome
  | .calls => state.calls.any (·.available)

def phase (state : Snapshot) : Provider → Option String
  | .wireless => some state.phase
  | .music => state.music.bind id
  | .calls => state.calls.bind (·.phase)

def activePhases : List String :=
  ["preparing", "bootstrap", "connecting", "connected", "projecting", "streaming", "suspended",
    "backoff", "retrying", "waiting", "waiting-audio", "routing-failed", "disconnecting", "cleanup"]

def active (phase : Option String) : Bool :=
  phase.any (· ∈ activePhases)

/-- Whatever is ready is taken off the pending sources, and asked for unless it is active. -/
def request (state : Snapshot) : List Source → Preferences → Preferences × List Sent
  | [], s => (s, [])
  | .provider provider :: rest, s =>
    if ready state provider then
      let taken := { s with startupPending := s.startupPending.remove (.provider provider) }
      if active (phase state provider) then request state rest taken
      else andThen (taken, [.automatic { action := .connect provider, target := state.selected }])
        (request state rest)
    else request state rest s
  | _ :: rest, s => request state rest s

/-- The remembered phone is selected and paired. -/
def remembered (state : Snapshot) (s : Preferences) : Bool :=
  s.startupPhone.any fun phone => state.selected = phone && state.paired phone

def startup (config : Config) (state : Snapshot) (s : Preferences) : Preferences × List Sent :=
  if s.startupPending.isEmpty then (s, [])
  else if !s.settings.autoConnectPhone then (cancelStartup s, [])
  else if !(s.choicesRestored && state.usable) then (s, [])
  else
    let s := { s with startupDeadline := s.startupDeadline.arm }
    if s.selecting.isSome || !remembered state s then (s, [])
    else if state.cleanupError ≠ "" then (s, [])
    else
      let s := { s with startupPending := convert config state s.startupPending }
      andThen (request state s.startupPending.toList s) fun s => (settleDeadline s, [])

/-! ## Restoring -/

def restorePhone (config : Config) (state : Snapshot) (s : Preferences) :
    Preferences × List Sent :=
  if s.selectionSuppressed || s.selecting.isSome || s.startupPhone.isSome then (s, [])
  else
    let adapter := s.settings.connectivityAdapter
    let phone := restoredPhone s.settings state
    if adapter ≠ "" && (state.radio adapter).isNone || !state.paired phone then (s, [])
    else if state.selected ≠ phone then
      ({ s with selecting := some phone }, [.automatic { action := .select, target := phone }])
    else startup config s.connectivity { s with startupPhone := some phone }

/-- The end of a selection of the remembered phone. -/
def selected (config : Config) (phone : String) (succeeded : Bool) (s : Preferences) :
    Preferences × List Sent :=
  let s := { s with selecting := none }
  if s.selectionSuppressed then (s, [])
  else if succeeded then startup config s.connectivity { s with startupPhone := some phone }
  else startup config s.connectivity s

def restoreMicrophone (state : Snapshot) (s : Preferences) : Preferences × List Sent :=
  if !s.microphoneRestored && s.settings.microphoneInput ≠ "" && state.voice then
    ({ s with microphoneRestored := true },
      [.automatic { action := .microphone, target := s.settings.microphoneInput }])
  else (s, [])

def finish (s : Preferences) : Preferences × List Sent :=
  ({ s with restoring := some .finished }, [])

/-- The interface has been sent, or there is none to send. -/
def interfaceRestored (s : Preferences) : Preferences × List Sent :=
  if s.selectionSuppressed then finish s
  else finish { s with choicesRestored := true }

def restoreInterface (choices : Choices) (s : Preferences) : Preferences × List Sent :=
  if s.selectionSuppressed then finish s
  else if choices.state.offers choices.interface then
    ({ s with restoring := some .interface },
      [.automatic { action := .interface, target := choices.interface }])
  else interfaceRestored s

/-- A user selection while the adapter was being sent owns the saved choice. -/
def adapterRestored (choices : Choices) (s : Preferences) : Preferences × List Sent :=
  if s.selectionSuppressed then finish s
  else
    match choices.radio with
    | some radio =>
      ({ s with restoring := some .migration, writes := s.writes ++ [.migrated choices radio] }, [])
    | none => restoreInterface choices s

def restoreAdapter (choices : Choices) (s : Preferences) : Preferences × List Sent :=
  if s.selectionSuppressed then finish s
  else if choices.adapter ≠ "" then
    ({ s with restoring := some (.adapter choices) },
      [.automatic {
        action := .adapter
        target := (choices.radio.bind (·.address)).getD choices.adapter }])
  else restoreInterface choices s

def restoreChoices (state : Snapshot) (s : Preferences) : Preferences × List Sent :=
  let choices : Choices :=
    ⟨state, s.settings.connectivityAdapter, s.settings.connectivityInterface⟩
  if s.selectionSuppressed || choices.adapter ≠ "" && choices.radio.isNone ||
      choices.interface ≠ "" && !state.offers choices.interface then finish s
  else if state.band.isSome then
    ({ s with restoring := some (.band choices) },
      [.automatic { action := .band, target := s.settings.connectivityBand }])
  else restoreAdapter choices s

/-- The answer to a command of the restore of the choices. Without one, nothing happens. -/
def choiceAnswered (succeeded : Bool) (s : Preferences) : Preferences × List Sent :=
  match s.restoring with
  | some (.band choices) => if succeeded then restoreAdapter choices s else finish s
  | some (.adapter choices) => if succeeded then adapterRestored choices s else finish s
  | some .interface => if succeeded then interfaceRestored s else finish s
  | _ => (s, [])

def restore (config : Config) (state : Snapshot) (s : Preferences) : Preferences × List Sent :=
  andThen (startup config state s) fun s =>
  andThen (if s.choicesRestored then restorePhone config state s else (s, [])) fun s =>
  andThen (restoreMicrophone state s) fun s =>
    if s.choicesRestored || s.restoring.isSome || s.selectionSuppressed || !state.usable then
      (s, [])
    else restoreChoices state s

/-- A restore of the choices is over, whatever became of it. -/
def choicesOver (config : Config) (s : Preferences) : Preferences × List Sent :=
  match s.restoring with
  | some .finished =>
    let s := { s with restoring := none }
    if s.choicesRestored && !s.selectionSuppressed then restore config s.connectivity s
    else (s, [])
  | _ => (s, [])

/-! ## Commands of the user and settings -/

/-- What a command of the user does before it is sent. -/
def intend (command : Command) (s : Preferences) : Preferences :=
  match command.action with
  | .forget | .stopAll | .adapter | .interface | .select | .disconnect _ => suppress s
  | .enable | .projectionEnabled => if command.accept then s else suppress s
  | .connect provider =>
    { s with startupPending := (s.startupPending.remove .phone).remove (.provider provider) }
  | _ => s

def connectivityCommand (command : Command) (s : Preferences) : Preferences × List Sent :=
  let s := settleDeadline (intend command s)
  ({ s with commands := s.commands ++ [command] }, [.explicit command])

/-- What a command of the user writes to the settings after it has succeeded. -/
def remember (command : Command) (s : Preferences) : Option Write :=
  match command.action with
  | .adapter => some (.chosen (.connectivityAdapter
      (((s.connectivity.radio command.target).bind (·.address)).getD command.target)))
  | .interface => some (.chosen (.connectivityInterface command.target))
  | .select => some (.chosen (.connectivityPhone command.target))
  | .band => some (.chosen (.connectivityBand command.target))
  | .microphone => some (.chosen (.microphoneInput command.target))
  | .forget =>
    if s.settings.connectivityPhone = command.target || s.startupPhone = some command.target then
      some .forgotten
    else none
  | _ => none

/-- A setting changes. Whoever turns auto-connect off also wants no phone selected. -/
def changed (change : Change) (s : Preferences) : Preferences :=
  let off := s.settings.autoConnectPhone && !(s.settings.set change).autoConnectPhone
  let s := { s with settings := s.settings.set change }
  if off && !s.closing then suppress s else s

def written (write : Write) (succeeded : Bool) (s : Preferences) : Preferences × List Sent :=
  match write with
  | .chosen change => (if succeeded then changed change s else s, [])
  | .forgotten => (if succeeded then changed (.connectivityPhone "") s else s, [])
  | .migrated choices radio =>
    if succeeded then
      restoreInterface choices
        (changed (.connectivityAdapter (radio.address.getD radio.id)) s)
    else finish s

inductive Event
  | published (state : Snapshot)
  | delivered
  | command (command : Command)
  | answered (index : ℕ) (succeeded : Bool)
  | choiceAnswered (succeeded : Bool)
  | choicesOver
  | selected (succeeded : Bool)
  | written (index : ℕ) (succeeded : Bool)
  | changed (change : Change)
  | expired
  | close
  | unsubscribed

def step (config : Config) (s : Preferences) : Event → Preferences × List Sent
  | .published state =>
    ({ s with connectivity := state, undelivered := s.undelivered ++ [state] }, [])
  | .delivered =>
    match s.undelivered with
    | [] => (s, [])
    | state :: rest =>
      let s := { s with undelivered := rest }
      if s.closed then (s, []) else restore config state s
  | .command command => connectivityCommand command s
  | .answered index succeeded =>
    match s.commands[index]? with
    | none => (s, [])
    | some command =>
      let s := { s with commands := s.commands.eraseIdx index }
      ({ s with
        writes := s.writes ++ if succeeded then (remember command s).toList else [] }, [])
  | .choiceAnswered succeeded => choiceAnswered succeeded s
  | .choicesOver => choicesOver config s
  | .selected succeeded =>
    match s.selecting with
    | none => (s, [])
    | some phone => selected config phone succeeded s
  | .written index succeeded =>
    match s.writes[index]? with
    | none => (s, [])
    | some write => written write succeeded { s with writes := s.writes.eraseIdx index }
  | .changed change => (changed change s, [])
  | .expired =>
    if s.startupDeadline = .running then
      ({ s with
        startupPending := ∅, selectionSuppressed := true, startupDeadline := .ended }, [])
    else (s, [])
  | .close => ({ suppress s with closing := true }, [])
  | .unsubscribed => ({ s with closed := s.closing }, [])

/-- A first look at the backend comes with the construction. -/
def start (config : Config) (settings : Settings) (connectivity : Snapshot) :
    Preferences × List Sent :=
  restore config connectivity (.initial config settings connectivity)

def reached (config : Config) (settings : Settings) (connectivity : Snapshot)
    (events : List Event) : Preferences :=
  (run (step config) (start config settings connectivity).1 events).1

/-- Everything sent, in order. -/
def log (config : Config) (settings : Settings) (connectivity : Snapshot) (events : List Event) :
    List Sent :=
  (start config settings connectivity).2 ++
    (run (step config) (start config settings connectivity).1 events).2.flatMap (·.2)

end ProjectArgo.Connectivity.Preferences
