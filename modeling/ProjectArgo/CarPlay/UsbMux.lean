import Mathlib.Data.List.AList
import ProjectArgo.Library.Bytes
import ProjectArgo.Library.Run
import ProjectArgo.CarPlay.Basic

/-!
# The USB multiplexer

Local streams to the phone are carried over one USB pipe in TCP-like packets.
The event loop owns the connections; a step answers one event with the effects
it has on the pipe and on the local clients. What a client received and what
the phone was sent is read off the effects.
-/
namespace ProjectArgo.CarPlay.UsbMux

open Library.Bytes Library.Run

def maxFrame : ℕ := 65536

def envelope (protocol : ℕ) (sequence : UInt16) (body : List UInt8) : Except Error (List UInt8) :=
  if body.length + 16 > maxFrame then .error .bounds
  else
    .ok (bigEndian 4 protocol ++ bigEndian 4 (body.length + 16) ++ bigEndian 4 0xfeedface ++
      bigEndian 2 sequence.toNat ++ [0, 0] ++ body)

structure Packet where
  source : UInt16
  destination : UInt16
  sequence : UInt32
  ack : UInt32
  flags : UInt8
  payload : List UInt8
  deriving DecidableEq

def packet (bytes : List UInt8) : Except Error Packet :=
  if bytes.length < 36 ∨ bytes.length > maxFrame ∨ slice bytes 0 4 ≠ bigEndian 4 6 ∨
      slice bytes 4 8 ≠ bigEndian 4 bytes.length ∨ slice bytes 8 12 ≠ bigEndian 4 0xfaceface then
    .error .malformed
  else
    let header := (bytes.getD 28 0 >>> 4).toNat * 4
    if header < 20 ∨ 16 + header > bytes.length then .error .bounds
    else
      .ok
        { source := UInt16.ofNat (ofBigEndian (slice bytes 16 18))
          destination := UInt16.ofNat (ofBigEndian (slice bytes 18 20))
          sequence := UInt32.ofNat (ofBigEndian (slice bytes 20 24))
          ack := UInt32.ofNat (ofBigEndian (slice bytes 24 28))
          flags := bytes.getD 29 0
          payload := bytes.drop (16 + header) }

/-- `ready` and `client`: the opener still waits, and the client half is still held for it. -/
structure Connection where
  remote : UInt16
  sent : UInt32
  received : UInt32
  acknowledged : UInt32
  ready : Bool
  client : Bool
  deriving DecidableEq

/-- The segment header and payload, with the local port `send` puts in front. -/
def Connection.encode (c : Connection) (port : UInt16) (flags : UInt8) (payload : List UInt8) :
    List UInt8 :=
  bigEndian 2 port.toNat ++ bigEndian 2 c.remote.toNat ++ bigEndian 4 c.sent.toNat ++
    bigEndian 4 c.received.toNat ++ [0x50, flags, 2, 0, 0, 0, 0, 0] ++ payload

/-- What becomes of a write to a local client: all of it, or a front part before it stalls or
breaks. -/
inductive LocalWrite where
  | complete
  | stalled (n : ℕ)
  | broken (n : ℕ)
  deriving DecidableEq

/-- The events of the loop. `failed` stands for a failed USB transfer or reader task. -/
inductive Event where
  | openPort (remote : UInt16)
  | data (port : UInt16) (bytes : List UInt8)
  | closed (port : UInt16)
  | packet (bytes : List UInt8) (waiting : Bool) (write : LocalWrite)
  | taskEnded
  | failed (e : Error)
  deriving DecidableEq

inductive Effect where
  | refused
  | opened (port : UInt16)
  | connected (port : UInt16) (received : UInt32)
  | transmit (port : UInt16) (flags : UInt8) (payload message : List UInt8)
  | deliver (port : UInt16) (bytes : List UInt8)
  deriving DecidableEq

structure Mux where
  connections : AList fun _ : UInt16 => Connection
  port : UInt16
  sequence : UInt16
  tasks : ℕ
  deriving DecidableEq

inductive State where
  | running (m : Mux)
  | ended (e : Error)
  deriving DecidableEq

/-- The loop starts with no connection and the task that reads the USB pipe. -/
def start : State := .running ⟨∅, 1, 1, 1⟩

/-- The receiving side of a data packet, before it is acknowledged. -/
def Connection.extend (c : Connection) (k : Packet) (write : LocalWrite) :
    Connection × List Effect × Option Error :=
  if k.payload = [] then (c, [], none)
  else if k.sequence = c.received then
    match write with
    | .complete =>
      ({ c with received := c.received + UInt32.ofNat k.payload.length },
        [.deliver k.destination k.payload], none)
    | .stalled n => (c, [.deliver k.destination (k.payload.take n)], some .timeout)
    | .broken n => (c, [.deliver k.destination (k.payload.take n)], some .rejected)
  else if k.sequence + UInt32.ofNat k.payload.length ≠ c.received then (c, [], some .sequence)
  else (c, [], none)

def Connection.acknowledge (c : Connection) (k : Packet) : Except Error Connection :=
  if k.flags &&& 16 ≠ 0 then
    if k.ack - c.acknowledged ≤ c.sent - c.acknowledged then .ok { c with acknowledged := k.ack }
    else .error .sequence
  else .ok c

namespace Mux

def send (m : Mux) (port : UInt16) (c : Connection) (flags : UInt8) (bytes : List UInt8) :
    Except Error (Mux × Effect) :=
  match envelope 6 m.sequence (c.encode port flags bytes) with
  | .error e => .error e
  | .ok message =>
    .ok ({ m with sequence := m.sequence + 1 }, .transmit port flags bytes message)

def openPort (m : Mux) (remote : UInt16) : State × List Effect :=
  if m.connections.entries.length ≥ 4 ∨ m.tasks ≥ 9 ∨ m.port.toNat = 65535 then
    (.running m, [.refused])
  else
    let port := m.port
    let c : Connection := ⟨remote, 0, 0, 0, true, true⟩
    match { m with port := m.port + 1, tasks := m.tasks + 1 }.send port c 2 [] with
    | .error e => (.ended e, [.opened port])
    | .ok (m, sent) =>
      (.running { m with connections := m.connections.insert port c }, [.opened port, sent])

def data (m : Mux) (port : UInt16) (bytes : List UInt8) : State × List Effect :=
  match m.connections.lookup port with
  | none => (.running m, [])
  | some c =>
    if c.ready ∨ (c.sent - c.acknowledged).toNat > 131072 then (.ended .bounds, [])
    else
      match m.send port c 16 bytes with
      | .error e => (.ended e, [])
      | .ok (m, sent) =>
        let c := { c with sent := c.sent + UInt32.ofNat bytes.length }
        (.running { m with connections := m.connections.insert port c }, [sent])

def closed (m : Mux) (port : UInt16) : State × List Effect :=
  match m.connections.lookup port with
  | none => (.running m, [])
  | some c =>
    match { m with connections := m.connections.erase port }.send port c 17 [] with
    | .error e => (.ended e, [])
    | .ok (m, sent) => (.running m, [sent])

/-- The second half of the handshake: the client is handed to whoever asked for it. -/
def connect (m : Mux) (c : Connection) (k : Packet) (waiting : Bool) : State × List Effect :=
  if k.ack ≠ 1 then (.ended .sequence, [])
  else
    let c := { c with sent := 1, acknowledged := 1, received := k.sequence + 1 }
    match m.send k.destination c 16 [] with
    | .error e => (.ended e, [])
    | .ok (m, sent) =>
      if ¬c.client then (.ended .state, [sent])
      else if waiting then
        let c := { c with ready := false, client := false }
        (.running { m with connections := m.connections.insert k.destination c },
          [sent, .connected k.destination c.received])
      else (.running { m with connections := m.connections.erase k.destination }, [sent])

/-- A final packet is acknowledged and ends the connection. -/
def finish (m : Mux) (c : Connection) (k : Packet) (effects : List Effect) : State × List Effect :=
  if k.flags &&& 1 ≠ 0 then
    match m.send k.destination { c with received := c.received + 1 } 16 [] with
    | .error e => (.ended e, effects)
    | .ok (m, sent) =>
      (.running { m with connections := m.connections.erase k.destination }, effects ++ [sent])
  else (.running { m with connections := m.connections.insert k.destination c }, effects)

def absorb (m : Mux) (c : Connection) (k : Packet) (write : LocalWrite) : State × List Effect :=
  match c.extend k write with
  | (_, delivered, some e) => (.ended e, delivered)
  | (c, delivered, none) =>
    if k.payload = [] then m.finish c k delivered
    else
      match m.send k.destination c 16 [] with
      | .error e => (.ended e, delivered)
      | .ok (m, sent) => m.finish c k (delivered ++ [sent])

def receive (m : Mux) (c : Connection) (k : Packet) (waiting : Bool) (write : LocalWrite) :
    State × List Effect :=
  if k.source ≠ c.remote then (.ended .malformed, [])
  else if k.flags &&& 4 ≠ 0 then
    (.running { m with connections := m.connections.erase k.destination }, [])
  else if k.flags &&& 18 = 18 ∧ c.ready then m.connect c k waiting
  else if c.ready then (.ended .state, [])
  else
    match c.acknowledge k with
    | .error e => (.ended e, [])
    | .ok c => m.absorb c k write

def packet (m : Mux) (bytes : List UInt8) (waiting : Bool) (write : LocalWrite) :
    State × List Effect :=
  if bytes.take 4 ≠ bigEndian 4 6 then (.running m, [])
  else
    match UsbMux.packet bytes with
    | .error e => (.ended e, [])
    | .ok k =>
      match m.connections.lookup k.destination with
      | none => (.running m, [])
      | some c => m.receive c k waiting write

end Mux

def step : State → Event → State × List Effect
  | .ended e, _ => (.ended e, [])
  | .running m, .openPort remote => m.openPort remote
  | .running m, .data port bytes => m.data port bytes
  | .running m, .closed port => m.closed port
  | .running m, .packet bytes waiting write => m.packet bytes waiting write
  | .running m, .taskEnded => (.running { m with tasks := m.tasks - 1 }, [])
  | .running _, .failed e => (.ended e, [])

/-! ## What a list of effects did to one port -/

def Effect.bytesTo (port : UInt16) : Effect → List UInt8
  | .deliver q bytes => if q = port then bytes else []
  | _ => []

def Effect.upload (port : UInt16) : Effect → ℕ
  | .transmit q _ payload _ => if q = port then payload.length else 0
  | _ => 0

def Effect.connection (port : UInt16) : Effect → Option UInt32
  | .connected q received => if q = port then some received else none
  | _ => none

def Effect.port : Effect → Option UInt16
  | .opened port => some port
  | _ => none

/-- The bytes handed to the client of a port. -/
def delivered (port : UInt16) (effects : List Effect) : List UInt8 :=
  effects.flatMap (Effect.bytesTo port)

/-- How many bytes of the client of a port were sent to the phone. -/
def uploaded (port : UInt16) (effects : List Effect) : ℕ := (effects.map (Effect.upload port)).sum

/-- The position of the first stream byte of a port, known once it is connected. -/
def firstByte (port : UInt16) (effects : List Effect) : Option UInt32 :=
  effects.findSome? (Effect.connection port)

def openedPorts (effects : List Effect) : List UInt16 := effects.filterMap Effect.port

@[simp] theorem delivered_append (port : UInt16) (es fs : List Effect) :
    delivered port (es ++ fs) = delivered port es ++ delivered port fs := by
  simp [delivered]

@[simp] theorem uploaded_append (port : UInt16) (es fs : List Effect) :
    uploaded port (es ++ fs) = uploaded port es + uploaded port fs := by
  simp [uploaded]

@[simp] theorem firstByte_append (port : UInt16) (es fs : List Effect) :
    firstByte port (es ++ fs) = (firstByte port es).or (firstByte port fs) := by
  simp [firstByte, List.findSome?_append]

@[simp] theorem openedPorts_append (es fs : List Effect) :
    openedPorts (es ++ fs) = openedPorts es ++ openedPorts fs := by
  simp [openedPorts]

/-- Effects that hand nothing over and open nothing. -/
structure Silent (effects : List Effect) : Prop where
  delivered : ∀ port, delivered port effects = []
  uploaded : ∀ port, uploaded port effects = 0
  firstByte : ∀ port, firstByte port effects = none
  opened : openedPorts effects = []

theorem silent_nil : Silent [] := ⟨fun _ => rfl, fun _ => rfl, fun _ => rfl, rfl⟩

theorem silent_transmit (port : UInt16) (flags : UInt8) (message : List UInt8) :
    Silent [.transmit port flags [] message] where
  delivered := fun _ => rfl
  uploaded := fun q => by simp [UsbMux.uploaded, Effect.upload]
  firstByte := fun _ => rfl
  opened := rfl

theorem Silent.append {es fs : List Effect} (hes : Silent es) (hfs : Silent fs) :
    Silent (es ++ fs) where
  delivered := fun p => by rw [delivered_append, hes.delivered, hfs.delivered, List.append_nil]
  uploaded := fun p => by rw [uploaded_append, hes.uploaded, hfs.uploaded]
  firstByte := fun p => by rw [firstByte_append, hes.firstByte, hfs.firstByte, Option.or_none]
  opened := by rw [openedPorts_append, hes.opened, hfs.opened, List.append_nil]

/-! ## What each event does -/

theorem length_encode (c : Connection) (port : UInt16) (flags : UInt8) (payload : List UInt8) :
    (c.encode port flags payload).length = payload.length + 20 := by
  simp [Connection.encode]
  omega

/-- Sending without payload never fails; otherwise the payload is bounded by the frame. -/
theorem send_cases (m : Mux) (port : UInt16) (c : Connection) (flags : UInt8)
    (payload : List UInt8) :
    (65500 < payload.length ∧ m.send port c flags payload = .error .bounds) ∨
      (payload.length ≤ 65500 ∧ ∃ message, envelope 6 m.sequence (c.encode port flags payload) =
          .ok message ∧ m.send port c flags payload =
        .ok ({ m with sequence := m.sequence + 1 }, .transmit port flags payload message)) := by
  unfold Mux.send envelope
  rw [length_encode]
  unfold maxFrame
  split_ifs with hlong
  · exact Or.inl ⟨by omega, rfl⟩
  · exact Or.inr ⟨by omega, _, rfl, rfl⟩

theorem send_nil (m : Mux) (port : UInt16) (c : Connection) (flags : UInt8) :
    ∃ message, envelope 6 m.sequence (c.encode port flags []) = .ok message ∧
      m.send port c flags [] =
        .ok ({ m with sequence := m.sequence + 1 }, .transmit port flags [] message) := by
  obtain ⟨hlong, -⟩ | ⟨-, message, henvelope, h⟩ := send_cases m port c flags []
  · simp at hlong
  · exact ⟨message, henvelope, h⟩

/-- What a packet leaves of its connection. -/
inductive Fate (m : Mux) (port : UInt16) (c : Connection) (bytes : List UInt8) : State → Prop where
  | ended (e : Error) : Fate m port c bytes (.ended e)
  | removed (m' : Mux) (hport : m'.port = m.port)
      (hconnections : m'.connections = m.connections.erase port) : Fate m port c bytes (.running m')
  | kept (m' : Mux) (hport : m'.port = m.port)
      (hconnections : m'.connections = m.connections.insert port
        { c with received := c.received + UInt32.ofNat bytes.length }) :
      Fate m port c bytes (.running m')

theorem Fate.ignore_sequence {m : Mux} {sequence : UInt16} {port : UInt16} {c : Connection}
    {bytes : List UInt8} {s : State} (h : Fate { m with sequence := sequence } port c bytes s) :
    Fate m port c bytes s := by
  cases h with
  | ended e => exact Fate.ended e
  | removed m' hport hconnections => exact Fate.removed m' hport hconnections
  | kept m' hport hconnections => exact Fate.kept m' hport hconnections

theorem finish_fate (m : Mux) (c : Connection) (k : Packet) (bytes : List UInt8)
    (effects : List Effect) :
    ∃ more, Silent more ∧
      (m.finish { c with received := c.received + UInt32.ofNat bytes.length } k effects).2 =
        effects ++ more ∧
      Fate m k.destination c bytes
        (m.finish { c with received := c.received + UInt32.ofNat bytes.length } k effects).1 := by
  unfold Mux.finish
  split_ifs with hfinal
  · obtain ⟨message, -, hsend⟩ := send_nil m k.destination
      { c with received := c.received + UInt32.ofNat bytes.length + 1 } 16
    dsimp only
    rw [hsend]
    exact ⟨_, silent_transmit _ _ _, rfl, Fate.removed _ rfl rfl⟩
  · exact ⟨[], silent_nil, (List.append_nil effects).symm, Fate.kept _ rfl rfl⟩

/-- An acceptable data packet hands over a prefix of its payload, and only when it starts at the
received position. -/
theorem absorb_cases (m : Mux) (c : Connection) (k : Packet) (write : LocalWrite) :
    ∃ bytes effects, (m.absorb c k write).2 = effects ∧
      (bytes = [] ∨ (k.payload ≠ [] ∧ k.sequence = c.received ∧ bytes <+: k.payload)) ∧
      (∀ port, delivered port effects = if port = k.destination then bytes else []) ∧
      (∀ port, uploaded port effects = 0) ∧ (∀ port, firstByte port effects = none) ∧
      openedPorts effects = [] ∧
      Fate m k.destination c bytes (m.absorb c k write).1 := by
  have hkeep : { c with received := c.received + UInt32.ofNat ([] : List UInt8).length } = c := by
    simp
  have hsilent : ∀ more, Silent more → ∀ bytes,
      (∀ port, delivered port ([.deliver k.destination bytes] ++ more) =
          if port = k.destination then bytes else []) ∧
        (∀ port, uploaded port ([.deliver k.destination bytes] ++ more) = 0) ∧
        (∀ port, firstByte port ([.deliver k.destination bytes] ++ more) = none) ∧
        openedPorts ([.deliver k.destination bytes] ++ more) = [] := by
    intro more hmore bytes
    refine ⟨fun port => ?_, fun port => ?_, fun port => ?_, ?_⟩
    · rw [delivered_append, hmore.delivered, List.append_nil]
      simp [delivered, Effect.bytesTo, eq_comm]
    · rw [uploaded_append, hmore.uploaded]
      rfl
    · rw [firstByte_append, hmore.firstByte]
      rfl
    · rw [openedPorts_append, hmore.opened]
      rfl
  unfold Mux.absorb Connection.extend
  by_cases hempty : k.payload = []
  · rw [if_pos hempty]
    dsimp only
    rw [if_pos hempty]
    obtain ⟨more, hmore, heffects, hfate⟩ := finish_fate m c k [] []
    rw [hkeep] at heffects hfate
    exact ⟨[], more, heffects, Or.inl rfl, fun p => by rw [hmore.delivered]; simp, hmore.uploaded,
      hmore.firstByte, hmore.opened, hfate⟩
  · rw [if_neg hempty]
    by_cases hnext : k.sequence = c.received
    · rw [if_pos hnext]
      cases write with
      | complete =>
        dsimp only
        rw [if_neg hempty]
        obtain ⟨message, -, hsend⟩ := send_nil m k.destination
          { c with received := c.received + UInt32.ofNat k.payload.length } 16
        rw [hsend]
        dsimp only
        obtain ⟨more, hmore, heffects, hfate⟩ := finish_fate
          { m with sequence := m.sequence + 1 } c k k.payload
          ([.deliver k.destination k.payload] ++ [.transmit k.destination 16 [] message])
        have hall := (silent_transmit k.destination 16 message).append hmore
        obtain ⟨hd, hu, hf, ho⟩ := hsilent _ hall k.payload
        refine ⟨k.payload, _, heffects, Or.inr ⟨hempty, hnext, List.prefix_rfl⟩, ?_, ?_, ?_, ?_,
          hfate.ignore_sequence⟩
        · simpa using hd
        · simpa using hu
        · simpa using hf
        · simpa using ho
      | stalled n =>
        obtain ⟨hd, hu, hf, ho⟩ := hsilent [] silent_nil (k.payload.take n)
        exact ⟨k.payload.take n, _, rfl, Or.inr ⟨hempty, hnext, List.take_prefix n _⟩, hd, hu, hf, ho,
          Fate.ended _⟩
      | broken n =>
        obtain ⟨hd, hu, hf, ho⟩ := hsilent [] silent_nil (k.payload.take n)
        exact ⟨k.payload.take n, _, rfl, Or.inr ⟨hempty, hnext, List.take_prefix n _⟩, hd, hu, hf, ho,
          Fate.ended _⟩
    · rw [if_neg hnext]
      by_cases hpast : k.sequence + UInt32.ofNat k.payload.length = c.received
      · rw [if_neg (not_not.mpr hpast)]
        dsimp only
        rw [if_neg hempty]
        obtain ⟨message, -, hsend⟩ := send_nil m k.destination c 16
        rw [hsend]
        dsimp only
        obtain ⟨more, hmore, heffects, hfate⟩ := finish_fate
          { m with sequence := m.sequence + 1 } c k []
          ([] ++ [.transmit k.destination 16 [] message])
        rw [hkeep] at heffects hfate
        have hall := (silent_transmit k.destination 16 message).append hmore
        refine ⟨[], _, heffects, Or.inl rfl, fun p => ?_, hall.uploaded, hall.firstByte,
          hall.opened, hfate.ignore_sequence⟩
        rw [List.nil_append, hall.delivered]
        simp
      · rw [if_pos hpast]
        exact ⟨[], [], rfl, Or.inl rfl, fun p => by simp [delivered], fun _ => rfl, fun _ => rfl, rfl,
          Fate.ended _⟩

theorem packet_destination {bytes : List UInt8} {k : Packet} (h : packet bytes = .ok k) :
    bytes.take 4 = bigEndian 4 6 := by
  unfold packet at h
  split_ifs at h with hbad
  simp only [not_or, not_not] at hbad
  have hslice := hbad.2.2.1
  rwa [slice_zero] at hslice

theorem step_packet {m : Mux} {bytes : List UInt8} {k : Packet} (waiting : Bool)
    (write : LocalWrite) (hpacket : packet bytes = .ok k) :
    step (.running m) (.packet bytes waiting write) =
      match m.connections.lookup k.destination with
      | none => (.running m, [])
      | some c => m.receive c k waiting write := by
  simp only [step]
  unfold Mux.packet
  rw [if_neg (not_not.mpr (packet_destination hpacket)), hpacket]

/-- Past the handshake, a packet that does not reset its connection is acknowledged and absorbed. -/
theorem receive_established {m : Mux} {c : Connection} {k : Packet} (waiting : Bool)
    (write : LocalWrite) (hsource : k.source = c.remote) (hreset : k.flags &&& 4 = 0)
    (hready : ¬c.ready = true) :
    m.receive c k waiting write =
      match c.acknowledge k with
      | .error e => (.ended e, [])
      | .ok c => m.absorb c k write := by
  unfold Mux.receive
  rw [if_neg (not_not.mpr hsource), if_neg (not_not.mpr hreset),
    if_neg fun hboth => hready hboth.2, if_neg hready]

end ProjectArgo.CarPlay.UsbMux
