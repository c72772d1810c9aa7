import ProjectArgo.Library.Run
import ProjectArgo.Projection.Failure
import ProjectArgo.Projection.Proto

/-!
# The wireless bootstrap

Over Bluetooth the phone is offered a version and an endpoint, asks for the credentials of
the access point and accepts the start, in either order; what it has done so authorizes
the attempt. Over the access point it connects meanwhile. One candidate is kept until the
attempt is authorized, and only then becomes the transport of the session.
-/
namespace ProjectArgo.Projection.WirelessBootstrap

open Library.Protobuf Library.Run

structure Address where
  a : UInt8
  b : UInt8
  c : UInt8
  d : UInt8
  deriving DecidableEq

def Address.text (address : Address) : String :=
  toString address.a.toNat ++ "." ++ toString address.b.toNat ++ "." ++
    toString address.c.toNat ++ "." ++ toString address.d.toNat

inductive ApBand
  | ghz2
  | ghz5
  deriving DecidableEq

def ApBand.frequency (band : ApBand) (channel : ℕ) : ℕ :=
  match band with
  | .ghz2 => 2407 + channel * 5
  | .ghz5 => 5000 + channel * 5

structure AccessPoint where
  address : Address
  band : ApBand
  channel : ℕ
  ssid : String
  password : String
  bssid : String

def limit : ℕ := 4096

/-- A frame of the wire, its length as it is written there. -/
structure Frame where
  length : ℕ
  id : ℕ
  body : List UInt8
  deriving DecidableEq

/-- `receive`, once the octets that the length asks for have been read. -/
def Frame.read (frame : Frame) : Except Failure (ℕ × List UInt8) :=
  if frame.length > limit then .error (.protocol "WPP frame exceeds bound")
  else .ok (frame.id, frame.body)

/-- The word as it is written with a sign. -/
def signed (code : ℕ) : ℤ := if code < 2 ^ 63 then code else (code : ℤ) - 2 ^ 64

def statusLabel (code : ℤ) : String :=
  if code = 0 then "success"
  else if code = 1 then "unsolicited message"
  else if code = -1 then "no compatible version"
  else if code = -2 then "Wi-Fi channel inaccessible"
  else if code = -3 then "incorrect Wi-Fi credentials"
  else if code = -4 then "projection already started"
  else if code = -5 then "Wi-Fi disabled"
  else if code = -6 then "Wi-Fi not yet started"
  else if code = -7 then "invalid host endpoint"
  else if code = -8 then "no supported Wi-Fi channels"
  else if code = -9 then "check the phone for a prompt"
  else if code = -10 then "phone Wi-Fi disabled"
  else if code = -11 then "Wi-Fi network unavailable"
  else "unknown status"

def success (body : List UInt8) (field : ℕ) : Except Failure Unit :=
  match numbers body with
  | .error text => .error (.protocol text)
  | .ok values =>
    match values[field]? with
    | some 0 => .ok ()
    | some code =>
      .error (.protocol ("Phone wireless status " ++ toString (signed code) ++ " (" ++
        statusLabel (signed code) ++ ")"))
    | none => .error (.protocol "Missing WPP status")

/-! ## The messages that are sent -/

def versionOffer (ap : AccessPoint) : List UInt8 :=
  (((({} : Proto).number 1 6).number 2 0).bytes 4
    (varint (ap.band.frequency ap.channel))).finish

def endpoint (ap : AccessPoint) : List UInt8 :=
  ((({} : Proto).bytes 1 (byteString ap.address.text)).number 2 5288).finish

def credentials (ap : AccessPoint) : List UInt8 :=
  ((((({} : Proto).bytes 1 (byteString ap.ssid)).bytes 2 (byteString ap.password)).bytes 3
    (byteString ap.bssid)).number 4 8 |>.number 5 1).finish

/-! ## The dialogue -/

/-- What `run` awaits: a write, a message, or nothing any more. -/
inductive Await
  | offering
  | version
  | endpoint
  | reading
  | credentials
  | echoing
  | done (failure : Failure)
  deriving DecidableEq

/-- `run`, with the value of the channel that it authorizes over. -/
structure Bootstrap where
  await : Await := .offering
  offered : Bool := false
  started : Bool := false
  messages : ℕ := 0
  authorized : Bool := false
  deriving DecidableEq

inductive Act
  | writing (id : ℕ) (body : List UInt8)
  | written (id : ℕ)
  | versionAccepted
  | processed (id : ℕ)
  | startAccepted
  | authorized
  | candidate (stream : ℕ)
  | handed (stream : ℕ)
  | ended (failure : Failure)
  deriving DecidableEq

namespace Bootstrap

def fail (b : Bootstrap) (failure : Failure) : Bootstrap × List Act :=
  ({ b with await := .done failure }, [])

def send (b : Bootstrap) (await : Await) (id : ℕ) (body : List UInt8) : Bootstrap × List Act :=
  if body.length > limit then b.fail (.protocol "WPP message exceeds bound")
  else ({ b with await := await }, [.writing id body])

/-- The end of the loop's body, before the next message is awaited. -/
def next (b : Bootstrap) : Bootstrap × List Act :=
  let b := { b with await := .reading }
  if b.offered && b.started && !b.authorized then ({ b with authorized := true }, [.authorized])
  else (b, [])

/-- The writing of an optional word for diagnostics. -/
def debug : Option ℕ → String
  | none => "None"
  | some value => "Some(" ++ toString value ++ ")"

def debugSigned : Option ℕ → String
  | none => "None"
  | some value => "Some(" ++ toString (signed value) ++ ")"

def version (ap : AccessPoint) (b : Bootstrap) (id : ℕ) (body : List UInt8) :
    Bootstrap × List Act :=
  match numbers body with
  | .error text => b.fail (.protocol text)
  | .ok version =>
    if id ≠ 5 ∨ version[1]? ≠ some 6 ∨ version[4]? ≠ some 0 then
      b.fail (.protocol ("WPP version rejected: message=" ++ toString id ++ ", major=" ++
        debug version[1]? ++ ", minor=" ++ debug version[2]? ++ ", status=" ++
          debugSigned version[4]?))
    else
      let sent := b.send .endpoint 1 (WirelessBootstrap.endpoint ap)
      (sent.1, .versionAccepted :: sent.2)

/-- The arms of the loop. -/
def handle (ap : AccessPoint) (b : Bootstrap) (id : ℕ) (body : List UInt8) :
    Bootstrap × List Act :=
  if id = 7 then
    match success body 3 with
    | .error failure => b.fail (.protocol ("WPP StartResponse: " ++ failure.detail))
    | .ok () =>
      let after := { b with started := true }.next
      (after.1, .startAccepted :: after.2)
  else if id = 2 ∧ !b.offered then
    match numbers body with
    | .error text => b.fail (.protocol text)
    | .ok _ => b.send .credentials 3 (WirelessBootstrap.credentials ap)
  else if id = 6 ∧ b.offered ∧ b.started then
    match success body 1 with
    | .error failure => b.fail (.protocol ("WPP ConnectionStatus: " ++ failure.detail))
    | .ok () => b.next
  else if id = 8 then b.send .echoing 9 body
  else if id = 9 then b.next
  else b.fail (.protocol ("Unexpected WPP message " ++ toString id))

def process (ap : AccessPoint) (b : Bootstrap) (id : ℕ) (body : List UInt8) :
    Bootstrap × List Act :=
  let b := { b with messages := b.messages + 1 }
  if !b.authorized && b.messages > 64 then b.fail (.protocol "WPP message budget exhausted")
  else
    let handled := b.handle ap id body
    (handled.1, .processed id :: handled.2)

def received (ap : AccessPoint) (b : Bootstrap) (message : Except Failure Frame) :
    Bootstrap × List Act :=
  match b.await, message.bind Frame.read with
  | .version, .error failure | .reading, .error failure => b.fail failure
  | .version, .ok (id, body) => b.version ap id body
  | .reading, .ok (id, body) => b.process ap id body
  | _, _ => (b, [])

def written (b : Bootstrap) (result : Except Failure Unit) : Bootstrap × List Act :=
  match b.await, result with
  | .offering, .error failure | .endpoint, .error failure | .credentials, .error failure
  | .echoing, .error failure => b.fail failure
  | .offering, .ok () => ({ b with await := .version }, [.written 4])
  | .endpoint, .ok () => ({ b with await := .reading }, [.written 1])
  | .credentials, .ok () =>
    let after := { b with offered := true }.next
    (after.1, .written 3 :: after.2)
  | .echoing, .ok () =>
    let after := b.next
    (after.1, .written 9 :: after.2)
  | _, _ => (b, [])

/-- The time for what is awaited is over. -/
def expired (b : Bootstrap) : Bootstrap × List Act :=
  match b.await with
  | .version => b.fail (.timeout "WPP version timed out")
  | .reading =>
    if b.authorized then b.fail { kind := .bootstrapClosed, detail := "WPP idle timeout" }
    else b.fail (.timeout "WPP join deadline expired")
  | _ => (b, [])

def profileClosed (b : Bootstrap) : Bootstrap × List Act :=
  match b.await with
  | .done _ => (b, [])
  | _ =>
    b.fail { kind := .bootstrapClosed, detail := "BlueZ requested bootstrap disconnection" }

end Bootstrap

def bootstrapFailureIsFatal (failure : Failure) : Bool :=
  !(failure.kind = .transportLoss || failure.kind = .bootstrapClosed)

/-! ## The attempt -/

/-- The dialogue with the admission beside it: `admitted` is the stream that `admit_tcp` returned,
`result` what the loop of both was left with. -/
structure Attempt where
  bootstrap : Bootstrap := {}
  pending : Option ℕ := none
  admitted : Option ℕ := none
  result : Option (Except Failure ℕ) := none

inductive Event
  | written (result : Except Failure Unit)
  | received (message : Except Failure Frame)
  | expired
  | profileClosed
  /-- A peer has connected; `none` stands for an address of another family. -/
  | connected (stream : ℕ) (peer : Option Address)
  | acceptFailed (failure : Failure)
  | deadline
  | woken
  /-- The selected phone was asked to be paired still. -/
  | paired (answer : Except Failure Bool)

namespace Attempt

def finish (s : Attempt) (failure : Failure) : Attempt × List Act :=
  ({ s with pending := none, result := some (.error failure) }, [.ended failure])

/-- A step of the dialogue, and what its end means for the loop. It is polled as long as the
admission is. -/
def dialogue (s : Attempt) (next : Bootstrap × List Act) : Attempt × List Act :=
  if s.admitted.isSome || s.result.isSome then (s, [])
  else
    let after := { s with bootstrap := next.1 }
    match s.bootstrap.await, next.1.await with
    | .done _, _ => (after, next.2)
    | _, .done failure =>
      if !next.1.authorized || bootstrapFailureIsFatal failure then
        ((after.finish failure).1, next.2 ++ (after.finish failure).2)
      else (after, next.2)
    | _, _ => (after, next.2)

/-- The top of the loop of `admit_tcp`. -/
def takePending (s : Attempt) : Attempt :=
  if s.bootstrap.authorized && !(s.admitted.isSome || s.result.isSome) then
    { s with admitted := s.pending, pending := none }
  else s

def outside (ap : AccessPoint) : Option Address → Option Failure
  | none => some (.protocol "Unexpected projection address family")
  | some peer =>
    if (peer.a, peer.b, peer.c) ≠ (ap.address.a, ap.address.b, ap.address.c) ∨
        peer = ap.address then
      some (.authorization "TCP peer outside projection subnet; attempt revoked")
    else none

/-- A peer that is accepted: what waits and may be admitted goes first. -/
def connected (ap : AccessPoint) (s : Attempt) (stream : ℕ) (peer : Option Address) :
    Attempt × List Act :=
  let s := s.takePending
  if s.admitted.isSome || s.result.isSome then (s, [])
  else
    match outside ap peer with
    | some failure => s.finish failure
    | none =>
      if s.pending.isSome then
        s.finish
          (.authorization "Second TCP candidate before bootstrap admission; attempt revoked")
      else ({ s with pending := some stream }.takePending, [.candidate stream])

def deadline (s : Attempt) : Attempt × List Act :=
  if s.admitted.isSome || s.result.isSome then (s, [])
  else if s.pending.isSome then
    s.finish (.timeout ("Projection TCP arrived, but authenticated Bluetooth startup " ++
      "acceptance did not arrive before the admission deadline"))
  else s.finish (.timeout "Phone did not establish projection TCP within admission window")

def paired (s : Attempt) (answer : Except Failure Bool) : Attempt × List Act :=
  match s.admitted, s.result, answer with
  | some stream, none, .ok true => ({ s with result := some (.ok stream) }, [.handed stream])
  | some _, none, .ok false =>
    s.finish (.authorization "Selected phone authorization revoked before TCP admission")
  | some _, none, .error failure => s.finish failure
  | _, _, _ => (s, [])

def step (ap : AccessPoint) (s : Attempt) : Event → Attempt × List Act
  | .written result => s.dialogue (s.bootstrap.written result)
  | .received message => s.dialogue (s.bootstrap.received ap message)
  | .expired => s.dialogue s.bootstrap.expired
  | .profileClosed => s.dialogue s.bootstrap.profileClosed
  | .connected stream peer => s.connected ap stream peer
  | .acceptFailed failure =>
    if s.admitted.isSome || s.result.isSome then (s, []) else s.finish failure
  | .deadline => s.deadline
  | .woken => (s.takePending, [])
  | .paired answer => s.paired answer

end Attempt
end ProjectArgo.Projection.WirelessBootstrap
