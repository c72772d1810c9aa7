import Mathlib.Data.List.Induction
import Mathlib.Logic.Function.Basic
import ProjectArgo.Library.Bytes

/-!
# The link to the accessory

The client asks the accessory for its certificate, for signatures and for its protocol version,
all over one connection that is kept from request to request. What is read there is not marked
with the request that it answers. A request takes the connection out of the client while it uses
it, and puts it back only when it has come to a good end.
-/
namespace ProjectArgo.CarPlay.Link

open Library.Bytes

def MAX_CERTIFICATE : ℕ := 4096
def MAX_SIGNATURE : ℕ := 512
def MAX_CHALLENGE : ℕ := 128

inductive Error
  | busy
  | timeout
  | io
  | invalid (reason : String)
  | remote
  deriving DecidableEq

/-! ## The accessory -/

/-- What the accessory answers to one request. -/
structure Answer where
  status : UInt8
  body : List UInt8
  bound : body.length < 65536
  deriving DecidableEq

def Answer.encode (answer : Answer) : List UInt8 :=
  answer.status :: bigEndian 2 answer.body.length ++ answer.body

/-- A connection as both ends have had it: the requests with their callers, the answers in the
order of the requests, and how many octets of them have been read. -/
structure Stream where
  sent : List (ℕ × List UInt8) := []
  answers : List Answer := []
  read : ℕ := 0

/-- What has been answered and not been read. -/
def Stream.incoming (stream : Stream) : List UInt8 :=
  (stream.answers.flatMap Answer.encode).drop stream.read

/-! ## The client -/

structure MfiConnection where
  socket : ℕ
  certificate : Option (List UInt8)
  deriving DecidableEq

/-- Where the request that has the permit stands: it waits for the connection, connects anew,
writes, or reads. -/
inductive Phase
  | locking
  | connecting
  | writing (state : MfiConnection)
  | header (state : MfiConnection)
  | body (state : MfiConnection) (size : ℕ)
  deriving DecidableEq

structure Request where
  caller : ℕ
  bytes : List UInt8
  maximum : ℕ
  cachedCertificate : Bool
  phase : Phase
  deriving DecidableEq

inductive Returned
  | answered (caller : ℕ) (bytes body : List UInt8)
  | cached (caller : ℕ) (certificate : List UInt8)
  | failed (caller : ℕ) (error : Error)
  deriving DecidableEq

structure LinkClient where
  connection : Option MfiConnection := none
  current : Option Request := none
  sockets : ℕ → Stream := fun _ => {}
  nextSocket : ℕ := 0
  nextCaller : ℕ := 0
  returned : List Returned := []

namespace LinkClient

variable (client : LinkClient)

/-- The permit is given back, and the caller gets its result, if it still waits for one. -/
def leave (returned : List Returned) : LinkClient :=
  { client with current := none, returned := client.returned ++ returned }

def put (socket : ℕ) (stream : Stream) : LinkClient :=
  { client with sockets := Function.update client.sockets socket stream }

/-- The start of `request`: there is no queue. -/
def request (bytes : List UInt8) (maximum : ℕ) (cachedCertificate : Bool) : LinkClient :=
  let caller := client.nextCaller
  match client.current with
  | some _ =>
    { client with
      nextCaller := caller + 1
      returned := client.returned ++ [.failed caller .busy] }
  | none =>
    { client with
      nextCaller := caller + 1
      current := some ⟨caller, bytes, maximum, cachedCertificate, .locking⟩ }

def certificate : LinkClient := client.request [1] MAX_CERTIFICATE false

def authenticationCertificate : LinkClient := client.request [1] MAX_CERTIFICATE true

def sign (challenge : List UInt8) : LinkClient :=
  if challenge = [] ∨ MAX_CHALLENGE < challenge.length then
    { client with
      nextCaller := client.nextCaller + 1
      returned := client.returned ++ [.failed client.nextCaller (.invalid "challenge length")] }
  else client.request (2 :: bigEndian 2 challenge.length ++ challenge) MAX_SIGNATURE false

def protocolMajor : LinkClient := client.request [3] 1 false

/-- The lock on the connection is had; a certificate that goes with it is enough, and else the
connection is taken. -/
def lock (request : Request) : LinkClient :=
  match request.cachedCertificate, client.connection.bind MfiConnection.certificate with
  | true, some certificate => client.leave [.cached request.caller certificate]
  | _, _ =>
    { client with
      connection := none
      current := some { request with
        phase := match client.connection with
          | some state => .writing state
          | none => .connecting } }

def connected (request : Request) : LinkClient :=
  { client with
    nextSocket := client.nextSocket + 1
    current := some { request with phase := .writing ⟨client.nextSocket, none⟩ } }

def write (request : Request) (state : MfiConnection) : LinkClient :=
  let stream := client.sockets state.socket
  { (client.put state.socket { stream with
      sent := stream.sent ++ [(request.caller, request.bytes)] }) with
    current := some { request with phase := .header state } }

/-- Three octets, if they are there. -/
def readHeader (request : Request) (state : MfiConnection) : LinkClient :=
  let stream := client.sockets state.socket
  match stream.incoming with
  | status :: high :: low :: _ =>
    let client := client.put state.socket { stream with read := stream.read + 3 }
    let size := ofBigEndian [high, low]
    if status ≠ 0 then client.leave [.failed request.caller .remote]
    else if size = 0 ∨ request.maximum < size then
      client.leave [.failed request.caller (.invalid "MFi payload length")]
    else { client with current := some { request with phase := .body state size } }
  | _ => client

/-- The octets of the body, if they are there. -/
def readBody (request : Request) (state : MfiConnection) (size : ℕ) : LinkClient :=
  let stream := client.sockets state.socket
  if size ≤ stream.incoming.length then
    let client := client.put state.socket { stream with read := stream.read + size }
    let body := stream.incoming.take size
    if request.bytes = [3] ∧ body ≠ [2] ∧ body ≠ [3] then
      client.leave [.failed request.caller (.invalid "unknown MFi protocol generation")]
    else
      let state := if request.bytes = [1] then { state with certificate := some body } else state
      { client with connection := some state }.leave
        [.answered request.caller request.bytes body]
  else client

end LinkClient

/-- The accessory answers the oldest request on a connection that it has not answered. -/
def Stream.answer (stream : Stream) (answer : Answer) : Stream :=
  if stream.answers.length < stream.sent.length then
    { stream with answers := stream.answers ++ [answer] }
  else stream

inductive Event
  | certificate
  | authenticationCertificate
  | sign (challenge : List UInt8)
  | protocolMajor
  /-- The request goes on to its next await. -/
  | proceed
  /-- It is cancelled, or fails for another reason than what it has read. -/
  | abandoned (error : Option Error)
  | answer (socket : ℕ) (answer : Answer)

def step (client : LinkClient) : Event → LinkClient
  | .certificate => client.certificate
  | .authenticationCertificate => client.authenticationCertificate
  | .sign challenge => client.sign challenge
  | .protocolMajor => client.protocolMajor
  | .proceed =>
    match client.current with
    | none => client
    | some request =>
      match request.phase with
      | .locking => client.lock request
      | .connecting => client.connected request
      | .writing state => client.write request state
      | .header state => client.readHeader request state
      | .body state size => client.readBody request state size
  | .abandoned error =>
    match client.current with
    | none => client
    | some request => client.leave (error.toList.map (.failed request.caller))
  | .answer socket answer => client.put socket ((client.sockets socket).answer answer)

def after (events : List Event) : LinkClient := events.foldl step {}

end ProjectArgo.CarPlay.Link
