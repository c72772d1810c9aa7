import ProjectArgo.Library.Run
import ProjectArgo.CarPlay.ControlCipher
import ProjectArgo.CarPlay.ReceiverSession

/-!
# The control connection

Bytes of the phone arrive in any portions; the receiver takes one turn at a
time: it serves a request that is complete, or reads on. Until pairing is
verified it reads single bytes and writes plain text. The answer that completes
the verification is the last plain one: after it both directions are encrypted.
-/
namespace ProjectArgo.CarPlay.Receiver

open Library.Bytes Library.Fragments Library.Run

/-- What a run does, in order. A request comes with the pending bytes it was taken from. -/
inductive Entry where
  | read (byte : UInt8)
  | decrypted (plain : List UInt8)
  | request (consumed : List UInt8) (request : Request)
  | effect (effect : Effect)
  | wrote (bytes : List UInt8)
  | encrypted (frame : List UInt8)
  | secured

/-- `unread` has arrived and not been read yet; `pending` waits in the decoder. -/
structure Wire where
  unread : List UInt8
  pending : List UInt8
  input : Option ControlCipher
  output : Option ControlCipher

structure Connection where
  session : Session
  wire : Wire

inductive State where
  | running (c : Connection)
  | ended (result : Except Error Unit)

/-- A turn is given the outcomes of the request it may serve and of every write. `failed` stands
for a deadline, a socket error or a task that ended. -/
inductive Event where
  | arrive (bytes : List UInt8)
  | turn (out : Outcomes) (written : ℕ → Except Error Unit)
  | command (command : Session.Command)
  | wake (connection : UInt64) (event : Stream.Wake)
  | failed (e : Error)

variable (setting : Setting)

/-! ## Reading -/

/-- One read without a request: a byte, or a frame once it has arrived. -/
def readOn (c : Connection) : State × List Entry :=
  match c.wire.input with
  | none =>
    match c.wire.unread with
    | [] => (.running c, [])
    | byte :: unread =>
      match ControlDecoder.push c.wire.pending [byte] with
      | .error e => (.ended (.error e), [])
      | .ok pending => (.running { c with wire := { c.wire with unread, pending } }, [.read byte])
  | some cipher =>
    if c.wire.unread.length < 2 then (.running c, [])
    else
      let size := ofBigEndian (c.wire.unread.take 2).reverse
      if size > 16384 then (.ended (.error .bounds), [])
      else if c.wire.unread.length < size + 18 then (.running c, [])
      else
        match cipher.decrypt setting.crypto (c.wire.unread.take (size + 18)) with
        | (_, .error e) => (.ended (.error e), [])
        | (cipher, .ok plain) =>
          match ControlDecoder.push c.wire.pending plain with
          | .error e => (.ended (.error e), [.decrypted plain])
          | .ok pending =>
            (.running
              { c with
                wire :=
                  { c.wire with
                    unread := c.wire.unread.drop (size + 18)
                    pending := pending
                    input := some cipher } },
              [.decrypted plain])

/-! ## Writing -/

/-- The parts of a message are encrypted and written one by one. -/
def sendParts (cipher : ControlCipher) (written : ℕ → Except Error Unit) :
    List (List UInt8) → ControlCipher × List Entry × Except Error Unit
  | [] => (cipher, [], .ok ())
  | part :: parts =>
    match cipher.encrypt setting.crypto part with
    | (cipher, .error e) => (cipher, [], .error e)
    | (cipher, .ok frame) =>
      match written 0 with
      | .error e => (cipher, [.encrypted frame], .error e)
      | .ok () =>
        let (cipher, entries, result) := sendParts cipher (fun i => written (i + 1)) parts
        (cipher, .encrypted frame :: entries, result)

def send (wire : Wire) (written : ℕ → Except Error Unit) (bytes : List UInt8) :
    Wire × List Entry × Except Error Unit :=
  match wire.output with
  | none => (wire, [.wrote bytes], written 0)
  | some cipher =>
    let (cipher, entries, result) := sendParts setting cipher written (chunks 16384 bytes)
    ({ wire with output := some cipher }, entries, result)

def Kind.mime : Kind → String
  | .pairing => "application/pairing+tlv8"
  | .octets => "application/octet-stream"
  | .plist => "application/x-apple-binary-plist"

/-- The sequence number that an answer repeats. -/
def sequence (request : Request) : Except Error (List UInt8) :=
  match request.headers.lookup (utf8 "cseq") with
  | none => .error .malformed
  | some digits =>
    if digits.length > 10 ∨ ¬digits.all Ascii.isDigit then .error .malformed else .ok digits

def respond (wire : Wire) (written : ℕ → Except Error Unit) (request : Request) (body : List UInt8)
    (kind : Kind) : Wire × List Entry × Except Error Unit :=
  match sequence request with
  | .error e => (wire, [], .error e)
  | .ok digits =>
    let header := utf8 (request.protocol ++ " 200 OK\r\nCSeq: " ++ text digits ++
      "\r\nContent-Type: " ++ Kind.mime kind ++ "\r\nContent-Length: " ++ toString body.length ++
      "\r\n\r\n")
    send setting wire written (header ++ body)

/-! ## Serving -/

/-- Both directions get their ciphers. -/
def secure (wire : Wire) (keys : Verified) : Wire :=
  { wire with input := some (.new keys.read), output := some (.new keys.write) }

/-- The answer is written; then the connection ends, is secured or goes on. -/
def answer (session : Session) (wire : Wire) (written : ℕ → Except Error Unit) (request : Request)
    (result : Answer) : State × List Entry :=
  match respond setting wire written request result.body result.kind with
  | (_, entries, .error e) => (.ended (.error e), entries)
  | (wire, entries, .ok ()) =>
    if result.last then (.ended (.ok ()), entries)
    else if result.activate then
      match session.verified with
      | none => (.ended (.error .state), entries)
      | some keys => (.running ⟨session, secure wire keys⟩, entries ++ [.secured])
    else (.running ⟨session, wire⟩, entries)

def serve (c : Connection) (out : Outcomes) (written : ℕ → Except Error Unit) (request : Request)
    (rest : List UInt8) : State × List Entry :=
  let consumed := c.wire.pending.take (c.wire.pending.length - rest.length)
  let (session, effects, result) := c.session.dispatch setting request out
  let entries := .request consumed request :: effects.map .effect
  match result with
  | .error e => (.ended (.error e), entries)
  | .ok result =>
    let (state, more) := answer setting session { c.wire with pending := rest } written request
      result
    (state, entries ++ more)

def step : State → Event → State × List Entry
  | .ended result, _ => (.ended result, [])
  | .running c, .arrive bytes =>
    (.running { c with wire := { c.wire with unread := c.wire.unread ++ bytes } }, [])
  | .running c, .turn out written =>
    match ControlDecoder.nextRequest c.wire.pending with
    | .error e => (.ended (.error e), [])
    | .ok none => readOn setting c
    | .ok (some (request, rest)) => serve setting c out written request rest
  | .running c, .command command =>
    match c.session.onCommand command with
    | .error e => (.ended (.error e), [])
    | .ok session => (.running { c with session }, [])
  | .running c, .wake connection event =>
    let (session, effects) := c.session.wake setting connection event
    (.running { c with session }, effects.map .effect)
  | .running _, .failed e => (.ended (.error e), [])

def start (peers : Peers) : State := .running ⟨.initial setting peers, ⟨[], [], none, none⟩⟩

end ProjectArgo.CarPlay.Receiver
