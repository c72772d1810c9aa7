import Mathlib.Data.Rat.Defs
import ProjectArgo.CarPlay.Crypto

/-!
# Audio streams

A stream plays what the phone sends and, when it was negotiated in both
directions, seals what the microphone captures. The task of a stream owns its
microphone; the receiver only changes the policy that the task reads.
-/
namespace ProjectArgo.CarPlay

open Library.Bytes

inductive AudioCodec where
  | signedPcm16
  | aacLc
  | opus
  deriving DecidableEq

structure AudioFormat where
  codec : AudioCodec
  sampleRate : ℕ
  channels : ℕ
  deriving DecidableEq

/-- Exactly one supported format, selected by its bit. -/
def AudioFormat.selected (bit : ℕ) : Except Error AudioFormat :=
  if ¬∃ i ∈ List.range 64, bit = 2 ^ i then .error .malformed
  else if 4 ≤ bit ∧ bit ≤ 0x800 then
    let index := Nat.log2 bit - 2
    match [8000, 16000, 24000, 32000, 44100][index / 2]? with
    | none => .error .unsupported
    | some rate => .ok ⟨.signedPcm16, rate, 1 + index % 2⟩
  else
    match bit with
    | 0x4000 => .ok ⟨.signedPcm16, 48000, 1⟩
    | 0x8000 => .ok ⟨.signedPcm16, 48000, 2⟩
    | 0x400000 => .ok ⟨.aacLc, 44100, 2⟩
    | 0x800000 => .ok ⟨.aacLc, 48000, 2⟩
    | 0x10000000 => .ok ⟨.opus, 16000, 1⟩
    | 0x20000000 => .ok ⟨.opus, 24000, 1⟩
    | 0x40000000 => .ok ⟨.opus, 48000, 1⟩
    | _ => .error .unsupported

/-- Capture is opened only for a negotiated bidirectional stream. -/
structure CaptureOptions where
  source : String
  key : List UInt8
  port : ℕ
  framesPerPacket : ℕ
  deriving DecidableEq

/-- A packet always takes some bytes. -/
structure Microphone where
  key : List UInt8
  port : ℕ
  source : String
  packetBytes : ℕ
  frames : ℕ
  positive : packetBytes ≠ 0
  pending : List UInt8
  counter : ℕ
  sequence : UInt16
  timestamp : UInt32
  running : Bool

/-- A sealed packet as it was given to the cipher and to the network. -/
structure Sealed where
  key : List UInt8
  nonce : List UInt8
  packet : List UInt8
  deriving DecidableEq

def sealNonce (counter : ℕ) : List UInt8 := [0, 0, 0, 0] ++ littleEndian 8 counter

def sealPcm (crypto : Crypto) (key : List UInt8) (counter : ℕ) (sequence : UInt16)
    (timestamp : UInt32) (payload : List UInt8) : Except Error Sealed := do
  ensure (payload ≠ [] ∧ payload.length ≤ 4000 ∧ payload.length % 2 = 0) .bounds
  let header := [0x80, 100] ++ bigEndian 2 sequence.toNat ++ bigEndian 4 timestamp.toNat ++
    [0, 0, 0, 0]
  let sealed ← crypto.sealBytes key (sealNonce counter) (slice header 4 12) payload
  .ok ⟨key, sealNonce counter, header ++ sealed ++ littleEndian 8 counter⟩

namespace Microphone

/-- `opened` stands for the capture elements. -/
def «open» (format : AudioFormat) (options : CaptureOptions) (opened : Except Error Unit) :
    Except Error Microphone :=
  if format.codec ≠ .signedPcm16 ∨ format.channels ≠ 1 ∨ options.port = 0 ∨ options.source = "" ∨
      options.source.utf8ByteSize > 256 then
    .error .unsupported
  else
    let frames :=
      if options.framesPerPacket = 0 then format.sampleRate / 50 else options.framesPerPacket
    if h : frames = 0 ∨ frames * 2 > 4000 then .error .bounds
    else
      match opened with
      | .error e => .error e
      | .ok () =>
        .ok
          { key := options.key
            port := options.port
            source := options.source
            packetBytes := frames * 2
            frames := frames
            positive := by omega
            pending := []
            counter := 0
            sequence := 0
            timestamp := 0
            running := false }

/-- A microphone is opened when a stream asks for one. -/
def openRequested (format : AudioFormat) (opened : Except Error Unit) :
    Option CaptureOptions → Except Error (Option Microphone)
  | none => .ok none
  | some options =>
    match Microphone.open format options opened with
    | .error e => .error e
    | .ok mic => .ok (some mic)

/-- `device` stands for the lease and the capture elements, which may refuse. -/
def active (mic : Microphone) (active : Bool) (device : Except Error Unit) :
    Except Error Microphone :=
  if active = mic.running then .ok mic
  else
    match device with
    | .error e => .error e
    | .ok () =>
      .ok { mic with running := active, pending := if active then mic.pending else [] }

def selectSource (mic : Microphone) (source : String) (device : Except Error Unit) :
    Except Error Microphone :=
  if mic.source = source then .ok mic
  else
    match mic.active false device with
    | .error e => .error e
    | .ok mic => .ok { mic with source := source }

variable (crypto : Crypto)

/-- The loop of `send`: whole packets are sealed while there are any; `sent` tells what becomes of
the `i`-th packet from now on. -/
def sendPackets (mic : Microphone) (sent : ℕ → Except Error Unit) :
    Microphone × List Sealed × Except Error Unit :=
  if h : mic.pending.length < mic.packetBytes then (mic, [], .ok ())
  else
    let payload := mic.pending.take mic.packetBytes
    let mic' := { mic with pending := mic.pending.drop mic.packetBytes }
    match sealPcm crypto mic.key mic.counter mic.sequence mic.timestamp payload with
    | .error e => (mic', [], .error e)
    | .ok packet =>
      if mic.counter + 1 ≥ 2 ^ 64 then (mic', [packet], .error .bounds)
      else
        let mic' :=
          { mic' with
            counter := mic.counter + 1
            sequence := mic.sequence + 1
            timestamp := mic.timestamp + UInt32.ofNat mic.frames }
        match sent 0 with
        | .error e => (mic', [packet], .error e)
        | .ok () =>
          let (mic', packets, result) := mic'.sendPackets fun i => sent (i + 1)
          (mic', packet :: packets, result)
termination_by mic.pending.length
decreasing_by
  have hpositive := mic.positive
  rw [List.length_drop]
  omega

def send (mic : Microphone) (bytes : List UInt8) (sent : ℕ → Except Error Unit) :
    Microphone × List Sealed × Except Error Unit :=
  if mic.pending.length + bytes.length > 8192 then (mic, [], .error .bounds)
  else { mic with pending := mic.pending ++ bytes }.sendPackets crypto sent

end Microphone

/-- What the receiver tells the task of a stream. A gain that is not a number is `none`. -/
structure Policy where
  gain : ℚ
  muted : Bool
  source : Option String

structure Stream where
  dataPort : UInt16
  controlPort : UInt16
  connection : UInt64
  kind : ℕ
  format : AudioFormat
  category : String
  latencyMs : ℕ
  key : List UInt8
  anchor : Option UInt32
  policy : Policy
  microphone : Option Microphone
  failed : Option Error

/-- What the environment makes of opening a stream: playback, capture and the two ports. -/
structure StreamOutcome where
  playback : Except Error Unit
  capture : Except Error Unit
  ports : Except Error (UInt16 × UInt16)

namespace Stream

def start (key : List UInt8) (connection : UInt64) (kind : ℕ) (format : AudioFormat)
    (category : String) (latencyMs : ℕ) (capture : Option CaptureOptions)
    (outcome : StreamOutcome) : Except Error Stream := do
  ensure ((kind = 100 ∨ kind = 101 ∨ kind = 102) ∧ latencyMs ≤ 2000) .bounds
  ensure (format.codec ≠ .opus) .unsupported
  outcome.playback
  let microphone ← Microphone.openRequested format outcome.capture capture
  let (dataPort, controlPort) ← outcome.ports
  .ok
    { dataPort, controlPort, connection, kind, format, category, latencyMs, key
      anchor := none
      policy := ⟨0, false, none⟩
      microphone
      failed := none }

def setGain (s : Stream) (gain : Option ℚ) : Except Error Stream :=
  match gain with
  | none => .error .bounds
  | some gain =>
    if 0 ≤ gain ∧ gain ≤ 1 then .ok { s with policy := { s.policy with gain := gain } }
    else .error .bounds

def setMicrophoneSource (s : Stream) (source : String) : Stream :=
  { s with policy := { s.policy with source := some source } }

def setMicrophoneMuted (s : Stream) (muted : Bool) : Stream :=
  { s with policy := { s.policy with muted := muted } }

def healthy (s : Stream) : Bool := s.failed.isNone

/-- What the task of a stream wakes up for. -/
inductive Wake where
  | policy (device : ℕ → Except Error Unit)
  | sample (bytes : List UInt8) (sent : ℕ → Except Error Unit)
  | packet (sample : UInt32) (playback : Except Error Unit) (device : Except Error Unit)
  | failed (e : Error)

/-- The task ends and its microphone is dropped. -/
def fail (s : Stream) (e : Error) : Stream := { s with microphone := none, failed := some e }

variable (crypto : Crypto)

def onPolicy (s : Stream) (mic : Microphone) (device : ℕ → Except Error Unit) :
    Except Error Microphone := do
  let mic ←
    match s.policy.source with
    | none => .ok mic
    | some source => mic.selectSource source (device 0)
  mic.active (s.policy.gain > 0 && !s.policy.muted && s.anchor.isSome) (device 1)

/-- One turn of the task, with the packets it sealed. -/
def wake (s : Stream) (event : Wake) : Stream × List Sealed :=
  if s.failed.isSome then (s, [])
  else
    match event with
    | .failed e => (s.fail e, [])
    | .policy device =>
      match s.microphone with
      | none => (s, [])
      | some mic =>
        match s.onPolicy mic device with
        | .error e => (s.fail e, [])
        | .ok mic => ({ s with microphone := some mic }, [])
    | .sample bytes sent =>
      match s.microphone with
      | none => (s, [])
      | some mic =>
        if mic.running ∧ ¬s.policy.muted then
          match mic.send crypto bytes sent with
          | (_, packets, .error e) => (s.fail e, packets)
          | (mic, packets, .ok ()) => ({ s with microphone := some mic }, packets)
        else (s, [])
    | .packet sample playback device =>
      let s := { s with anchor := some (s.anchor.getD sample) }
      match playback with
      | .error e => (s.fail e, [])
      | .ok () =>
        match s.microphone with
        | none => (s, [])
        | some mic =>
          match mic.active (s.policy.gain > 0 && !s.policy.muted) device with
          | .error e => (s.fail e, [])
          | .ok mic => ({ s with microphone := some mic }, [])

end Stream
end ProjectArgo.CarPlay
