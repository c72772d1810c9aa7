import ProjectArgo.Library.Assoc
import ProjectArgo.Library.Run

/-!
# The calls controller

The telephony service keeps objects for gateways and calls under paths that it uses again;
when one appears or disappears it emits a signal. The controller lists the objects, shows
the calls of its gateway under ids made of its epoch and a path, and takes a signal, a
request or a tick only once it awaits nothing else. The routing of the audio, the phonebook
and dialling change nothing here, and the generation of requests is compared elsewhere.
-/
namespace ProjectArgo.Connectivity.Calls

open Library

abbrev Text := List Char

/-! ## The telephony service -/

structure CallObject where
  /-- Which call it is: no two calls have the same one. -/
  serial : ℕ
  state : Option Text
  number : Option Text
  name : Option Text
  deriving DecidableEq

structure Object where
  /-- The address of an audio gateway. -/
  address : Option Text := none
  call : Option CallObject := none
  deriving DecidableEq

abbrev Objects := List (Text × Object)

def objectAt (objects : Objects) (path : Text) : Option Object :=
  @List.lookup Text Object instBEqOfDecidableEq path objects

structure Service where
  owner : ℕ := 0
  objects : Objects := []
  nextSerial : ℕ := 0
  /-- The signals that are on the bus. -/
  transit : ℕ := 0

/-! ## The controller -/

/-- A call as it is shown; which one it is the controller does not know. -/
structure Call where
  id : Text
  state : Text
  number : Option Text
  name : Option Text
  serial : ℕ
  deriving DecidableEq

def Call.make (epoch : ℕ) (path : Text) (call : CallObject) : Call where
  id := Nat.toDigits 10 epoch ++ ':' :: path
  state := call.state.getD "unknown".toList
  number := call.number.filter (· ≠ [])
  name := call.name.filter (· ≠ [])
  serial := call.serial

/-- What a call of `refresh` is for. -/
inductive Cause
  | tick
  | connect
  | audio
  deriving DecidableEq

/-- What the controller awaits. -/
inductive Await
  | idle
  | owner (cause : Cause)
  /-- The audio is silenced after the owner of the name has changed. -/
  | changed (cause : Cause)
  | listing (cause : Cause)
  | lost (cause : Cause)
  | profile (cause : Cause)
  | moved (cause : Cause) (path : Text) (all : Objects)
  | routing (cause : Cause)
  | preparing (device : Text)
  | disconnecting
  | checking (answer : Bool) (target : Text)
  | checkedChanged (answer : Bool) (target : Text)
  | verifying (answer : Bool) (target path : Text)
  | commanding (answer : Bool) (target path : Text)
  /-- The request or the tick has its result, and what belongs to that is cleaned up. -/
  | ending (cause : Option Cause) (ok : Bool)
  deriving DecidableEq

inductive Profile
  | connected
  | alreadyConnected
  | refused
  | failed
  deriving DecidableEq

structure Controller where
  /-- Signals that have arrived. -/
  arrived : ℕ := 0
  await : Await := .idle
  permitted : Bool := false
  busOwner : Option ℕ := none
  epoch : ℕ := 0
  gateway : Text := []
  calls : List Call := []
  device : Text := []
  wanted : Bool := false
  attempts : ℕ := 0
  phase : String := "idle"
  available : Bool := false

structure System where
  service : Service := {}
  controller : Controller := {}
  /-- Commands whose requests are over while they are on the bus. -/
  late : List (Bool × Text) := []

inductive Event
  | added (path : Text) (address : Option Text)
      (call : Option (Option Text × Option Text × Option Text))
  | removed (path : Text)
  | altered (path : Text) (state number name : Option Text)
  | restarted
  | arrive
  | permit (permitted : Bool)
  | signal
  | cancel
  | tick
  | connect (device : Text)
  | audio
  | disconnect
  | command (answer : Bool) (target : Text)
  | ownerAnswered (ok : Bool)
  | silenced (ok due : Bool)
  | listed (reply : Option Objects)
  | tried (result : Profile)
  | routed (ok : Bool)
  | disconnected (ok : Bool)
  | served (accepted : Bool)
  | servedLate
  | timeout
  | concluded (cleaned cancelled : Bool)

inductive Act
  /-- The calls of a published snapshot, and whether all changes had been taken into account. -/
  | published (calls : List Call) (settled : Bool)
  | served (answer : Bool) (target : Text) (serial : ℕ) (settled : Bool)
  | servedLate (answer : Bool) (serial : ℕ)
  deriving DecidableEq

namespace Controller

/-- The part of the device's reference behind the adapter. -/
def address (c : Controller) : Text := (c.device.dropWhile (· ≠ '/')).tail

def isGateway (c : Controller) (object : Object) : Bool :=
  object.address.any fun address => address.map Char.toLower = c.address.map Char.toLower

def matching (c : Controller) (all : Objects) : Objects := all.filter fun entry =>
  c.isGateway entry.2

def callOf (c : Controller) (entry : Text × Object) : Option Call :=
  if (c.gateway ++ ['/']).isPrefixOf entry.1 then entry.2.call.map (Call.make c.epoch entry.1)
  else none

/-- `check_owner`, but that the audio is silenced if the owner is another one. -/
def checkOwner (c : Controller) (owner : ℕ) : Controller :=
  if c.busOwner = some owner then c
  else { c with epoch := c.epoch + 1, busOwner := some owner, gateway := [], calls := [] }

/-- The owner of the name could not be had. -/
def ownerFailed (c : Controller) (cause : Cause) : Controller :=
  let attempts := if c.wanted then min (c.attempts + 1) 255 else c.attempts
  { c with
    gateway := []
    calls := []
    attempts := attempts
    wanted := c.wanted && attempts < 3
    available := false
    await := .ending cause false }

def showCalls (c : Controller) (cause : Cause) (all : Objects) : Controller :=
  { c with
    phase := "connected"
    calls := (all.filterMap c.callOf).take 8
    await := .routing cause }

def listingFailed (c : Controller) (cause : Cause) : Controller :=
  { c with
    gateway := []
    calls := []
    epoch := c.epoch + 1
    available := false
    await := .ending cause false }

def listed (c : Controller) (cause : Cause) (all : Objects) : Controller :=
  let c := { c with available := true }
  if !c.wanted then { c with await := .ending cause true }
  else if !c.permitted then { c with wanted := false, await := .ending cause false }
  else
    match c.matching all with
    | [(path, _)] =>
      if c.gateway ≠ path then { c with await := .moved cause path all }
      else c.showCalls cause all
    | _ => { c with await := .lost cause }

/-- No gateway, or more than one, is that of the phone. -/
def lost (c : Controller) (cause : Cause) (due : Bool) : Controller :=
  let c := { c with calls := [], gateway := [], phase := "connecting" }
  if c.attempts ≥ 3 then { c with wanted := false, await := .ending cause false }
  else if due then { c with attempts := c.attempts + 1, await := .profile cause }
  else { c with await := .ending cause true }

def moved (c : Controller) (cause : Cause) (path : Text) (all : Objects) : Controller :=
  { c with epoch := c.epoch + 1, gateway := path }.showCalls cause all

def prepared (c : Controller) (device : Text) : Controller :=
  let c := { c with device := device }
  if !c.permitted then { c with await := .ending none false }
  else
    { c with
      wanted := true
      attempts := 0
      epoch := c.epoch + 1
      gateway := []
      await := .owner .connect }

/-- The call of a request, once the owner of the name is known. -/
def checked (c : Controller) (answer : Bool) (target : Text) : Controller :=
  if !c.permitted then { c with await := .ending none false }
  else
    match c.calls.find? (·.id = target) with
    | none => { c with await := .ending none false }
    | some call =>
      if ':' ∈ call.id then
        { c with await := .verifying answer target (call.id.dropWhile (· ≠ ':')).tail }
      else { c with await := .ending none false }

def verified (c : Controller) (answer : Bool) (target path : Text) (all : Objects) : Controller :=
  if all.any fun entry => entry.1 = path && entry.2.call.isSome then
    { c with await := .commanding answer target path }
  else { c with await := .ending none false }

def concluded (c : Controller) (cause : Option Cause) (ok cleaned cancelled : Bool) : Controller :=
  match cause, ok with
  | some .tick, true => { c with await := .idle }
  | some .tick, false =>
    let wanted := c.wanted && cleaned
    let phase := if wanted && c.gateway ≠ [] then "connected"
      else if wanted then "connecting" else "unavailable"
    { c with
      await := .idle
      wanted := wanted
      phase := phase
      calls := if phase ≠ "connected" then [] else c.calls }
  | _, _ => { c with await := .idle, wanted := c.wanted && !cancelled }

end Controller

namespace System

/-- No signal has not been taken into account, and the name has the owner that was last seen. -/
def settled (s : System) : Bool :=
  s.service.transit = 0 && s.controller.arrived = 0 &&
    s.controller.busOwner = some s.service.owner

def publish (s : System) : System × List Act :=
  (s, [.published s.controller.calls s.settled])

/-- The task of the controller, and nothing but that, has gone on. -/
def go (s : System) (controller : Controller) : System × List Act :=
  ({ s with controller := controller }, [])

/-- The controller takes something up: signals go first. -/
def take (s : System) (controller : Controller) : System × List Act :=
  if s.controller.await = .idle ∧ s.controller.arrived = 0 then s.go controller else (s, [])

def ownerAnswered (s : System) (ok : Bool) : System × List Act :=
  let c := s.controller
  let known := c.busOwner = some s.service.owner
  match c.await with
  | .owner cause =>
    if !ok then s.go (c.ownerFailed cause)
    else if known then s.go { c with await := .listing cause }
    else s.go { c.checkOwner s.service.owner with await := .changed cause }
  | .checking answer target =>
    if !ok then s.go { c with await := .ending none false }
    else if known then s.go (c.checked answer target)
    else s.go { c.checkOwner s.service.owner with await := .checkedChanged answer target }
  | _ => (s, [])

def silenced (s : System) (ok due : Bool) : System × List Act :=
  let c := s.controller
  match c.await with
  | .changed cause =>
    if ok then s.go { c with await := .listing cause } else s.go (c.ownerFailed cause)
  | .checkedChanged answer target =>
    if ok then s.go (c.checked answer target) else s.go { c with await := .ending none false }
  | .lost cause =>
    if ok then s.go (c.lost cause due) else s.go { c with await := .ending cause false }
  | .moved cause path all =>
    if ok then s.go (c.moved cause path all) else s.go { c with await := .ending cause false }
  | .preparing device =>
    if ok then s.go (c.prepared device) else s.go { c with await := .ending none false }
  | _ => (s, [])

/-- The order of the reply is that of a hash map. -/
def listed (s : System) (reply : Option Objects) : System × List Act :=
  let c := s.controller
  match c.await, reply with
  | .listing cause, none => s.go (c.listingFailed cause)
  | .listing cause, some all =>
    if all.Perm s.service.objects then s.go (c.listed cause all) else (s, [])
  | .verifying _ _ _, none => s.go { c with await := .ending none false }
  | .verifying answer target path, some all =>
    if all.Perm s.service.objects then s.go (c.verified answer target path all) else (s, [])
  | _, _ => (s, [])

def tried (s : System) (result : Profile) : System × List Act :=
  let c := s.controller
  match c.await, result with
  | .profile cause, .connected | .profile cause, .alreadyConnected =>
    s.go { c with await := .ending cause true }
  | .profile cause, .refused => s.go { c with wanted := false, await := .ending cause false }
  | .profile cause, .failed => s.go { c with await := .ending cause false }
  | _, _ => (s, [])

def disconnected (s : System) (ok : Bool) : System × List Act :=
  let c := s.controller
  match c.await with
  | .disconnecting =>
    if ok then
      s.go { c with
        device := []
        calls := []
        gateway := []
        phase := "disconnected"
        await := .ending none true }
    else s.go { c with await := .ending none false }
  | _ => (s, [])

/-- The service executes a command on whatever is at the path then. -/
def served (s : System) (accepted : Bool) : System × List Act :=
  let c := s.controller
  match c.await with
  | .commanding answer target path =>
    match (objectAt s.service.objects path).bind Object.call with
    | some call =>
      ({ s with controller := { c with await := .ending none accepted } },
        [.served answer target call.serial s.settled])
    | none => s.go { c with await := .ending none false }
  | _ => (s, [])

def servedLate (s : System) : System × List Act :=
  match s.late with
  | [] => (s, [])
  | (answer, path) :: rest =>
    match (objectAt s.service.objects path).bind Object.call with
    | some call => ({ s with late := rest }, [.servedLate answer call.serial])
    | none => ({ s with late := rest }, [])

def timeout (s : System) : System × List Act :=
  let c := s.controller
  match c.await with
  | .idle | .ending _ _ => (s, [])
  | .owner cause | .changed cause | .listing cause | .lost cause | .profile cause
  | .moved cause _ _ | .routing cause => s.go { c with await := .ending cause false }
  | .preparing _ | .disconnecting | .checking _ _ | .checkedChanged _ _ | .verifying _ _ _ =>
    s.go { c with await := .ending none false }
  | .commanding answer _ path =>
    ({ s with
        controller := { c with await := .ending none false }
        late := s.late ++ [(answer, path)] }, [])

def added (s : System) (path : Text) (address : Option Text)
    (call : Option (Option Text × Option Text × Option Text)) : System :=
  if (objectAt s.service.objects path).isSome then s
  else
    let object : Object :=
      { address := address
        call := call.map fun (state, number, name) => ⟨s.service.nextSerial, state, number, name⟩ }
    { s with service := { s.service with
        objects := Assoc.put s.service.objects path object
        nextSerial := s.service.nextSerial + 1
        transit := s.service.transit + 1 } }

/-- The properties of a call change without a signal that is listened to. -/
def altered (s : System) (path : Text) (state number name : Option Text) : System :=
  match objectAt s.service.objects path with
  | some object =>
    let object := { object with
      call := object.call.map fun call => ⟨call.serial, state, number, name⟩ }
    { s with service := { s.service with objects := Assoc.put s.service.objects path object } }
  | none => s

def step (s : System) : Event → System × List Act
  | .added path address call => (s.added path address call, [])
  | .removed path =>
    if (objectAt s.service.objects path).isSome then
      ({ s with service := { s.service with
          objects := Assoc.erase s.service.objects path
          transit := s.service.transit + 1 } }, [])
    else (s, [])
  | .altered path state number name => (s.altered path state number name, [])
  | .restarted =>
    ({ s with service := { s.service with owner := s.service.owner + 1, objects := [] } }, [])
  | .arrive =>
    if s.service.transit = 0 then (s, [])
    else
      ({ s with
          service := { s.service with transit := s.service.transit - 1 }
          controller := { s.controller with arrived := s.controller.arrived + 1 } }, [])
  | .permit permitted => s.go { s.controller with permitted := permitted }
  | .signal =>
    if s.controller.await = .idle ∧ s.controller.arrived ≠ 0 then
      publish { s with controller := { s.controller with
        arrived := s.controller.arrived - 1
        epoch := s.controller.epoch + 1
        calls := [] } }
    else (s, [])
  | .cancel =>
    if s.controller.await = .idle then
      publish { s with controller := { s.controller with wanted := false } }
    else (s, [])
  | .tick => s.take { s.controller with await := .owner .tick }
  | .connect device => s.take { s.controller with await := .preparing device }
  | .audio => s.take { s.controller with await := .owner .audio }
  | .disconnect => s.take { s.controller with wanted := false, await := .disconnecting }
  | .command answer target => s.take { s.controller with await := .checking answer target }
  | .ownerAnswered ok => s.ownerAnswered ok
  | .silenced ok due => s.silenced ok due
  | .listed reply => s.listed reply
  | .tried result => s.tried result
  | .routed ok =>
    match s.controller.await with
    | .routing cause => s.go { s.controller with await := .ending cause ok }
    | _ => (s, [])
  | .disconnected ok => s.disconnected ok
  | .served accepted => s.served accepted
  | .servedLate => s.servedLate
  | .timeout => s.timeout
  | .concluded cleaned cancelled =>
    match s.controller.await with
    | .ending cause ok =>
      publish { s with controller := s.controller.concluded cause ok cleaned cancelled }
    | _ => (s, [])

end System
end ProjectArgo.Connectivity.Calls
