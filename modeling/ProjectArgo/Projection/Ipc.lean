import Mathlib.Data.List.Basic
import Mathlib.Tactic.NormNum
import ProjectArgo.Library.Bytes
import ProjectArgo.Library.Framing

/-!
# Messages between the daemon and the application

Both sides write a header of twelve bytes before the payload, and read what arrives with a
buffer of their own. The daemon takes a message of any kind, the application only of the
kinds that it knows.
-/
namespace ProjectArgo.Projection.Ipc

open Library Library.Bytes Library.Framing Library.Run

/-! ## The daemon -/

def magic : ℕ := 0x4152474f
def version : UInt16 := 7
def headerLen : ℕ := 12
def maxPayload : ℕ := 64 * 1024
def maxBuffered : ℕ := 256 * 1024

structure Message where
  kind : UInt16
  payload : List UInt8
  deriving DecidableEq

inductive DecodeError
  | badMagic
  | unsupportedVersion (version : UInt16)
  | oversizedPayload (length : ℕ)
  | oversizedBuffer
  deriving DecidableEq

def encode (message : Message) : Except DecodeError (List UInt8) :=
  if message.payload.length > maxPayload then .error (.oversizedPayload message.payload.length)
  else
    .ok (bigEndian 4 magic ++ bigEndian 2 version.toNat ++ bigEndian 2 message.kind.toNat ++
      bigEndian 4 message.payload.length ++ message.payload)

namespace Decoder

/-- One turn of the loop of `push`. -/
def next (buffered : List UInt8) : Except DecodeError (Option (Message × List UInt8)) :=
  if buffered.length < headerLen then .ok none
  else if ofBigEndian (slice buffered 0 4) ≠ magic then .error .badMagic
  else
    let found := UInt16.ofNat (ofBigEndian (slice buffered 4 6))
    if found ≠ version then .error (.unsupportedVersion found)
    else
      let kind := UInt16.ofNat (ofBigEndian (slice buffered 6 8))
      let length := ofBigEndian (slice buffered 8 12)
      if length > maxPayload then .error (.oversizedPayload length)
      else
        let frameLen := headerLen + length
        if buffered.length < frameLen then .ok none
        else .ok (some (⟨kind, slice buffered headerLen frameLen⟩, buffered.drop frameLen))

theorem next_shorter {buffered rest : List UInt8} {message : Message}
    (h : next buffered = .ok (some (message, rest))) : rest.length < buffered.length := by
  unfold next at h
  dsimp only at h
  split_ifs at h with hshort <;> cases h
  rw [List.length_drop]
  unfold headerLen at hshort ⊢
  omega

def parser : Parser UInt8 Message DecodeError := ⟨next, next_shorter⟩

@[simp] theorem parser_next : parser.next = next := rfl

/-- `Decoder.push`, on what is buffered. -/
def push : List UInt8 → List UInt8 → List UInt8 × Except DecodeError (List Message) :=
  parser.receive maxBuffered .oversizedBuffer

end Decoder

/-! ## The application -/

namespace ProjectionIpcProtocol

def magic : ℕ := 0x4152474f
def version : ℕ := 7
def headerBytes : ℕ := 12
def maximumPayloadBytes : ℕ := 64 * 1024
def maximumBufferedBytes : ℕ := 256 * 1024

end ProjectionIpcProtocol

inductive ProjectionIpcKind
  | hello
  | device
  | session
  | videoStream
  | audioStream
  | error
  | deviceRemoved
  | sessionRemoved
  | capabilities
  | configuration
  | metadata
  | connectivity
  | connectivityCommand
  | configure
  | connect
  | disconnect
  | activate
  | touch
  | button
  | rotary
  | videoVisibility
  | audioGain
  deriving DecidableEq

namespace ProjectionIpcKind

def wireValue : ProjectionIpcKind → UInt16
  | hello => 1
  | device => 2
  | session => 3
  | videoStream => 4
  | audioStream => 5
  | error => 6
  | deviceRemoved => 7
  | sessionRemoved => 8
  | capabilities => 9
  | configuration => 10
  | metadata => 11
  | connectivity => 30
  | connectivityCommand => 31
  | configure => 28
  | connect => 20
  | disconnect => 21
  | activate => 22
  | touch => 23
  | button => 24
  | rotary => 25
  | videoVisibility => 26
  | audioGain => 27

def values : List ProjectionIpcKind :=
  [hello, device, session, videoStream, audioStream, error, deviceRemoved, sessionRemoved,
    capabilities, configuration, metadata, connectivity, connectivityCommand, configure, connect,
    disconnect, activate, touch, button, rotary, videoVisibility, audioGain]

def tryParse (value : UInt16) : Option ProjectionIpcKind := values.find? (·.wireValue = value)

theorem tryParse_wireValue (kind : ProjectionIpcKind) : tryParse kind.wireValue = some kind := by
  cases kind <;> rfl

theorem wireValue_of_tryParse {value : UInt16} {kind : ProjectionIpcKind}
    (h : tryParse value = some kind) : kind.wireValue = value := by
  simpa using List.find?_some h

end ProjectionIpcKind

structure ProjectionIpcMessage where
  kind : ProjectionIpcKind
  payload : List UInt8 := []
  deriving DecidableEq

/-- `RangeError` and `FormatException`. -/
inductive ProjectionIpcException
  | range (length : ℕ)
  | format (message : String)
  deriving DecidableEq

/-- `ProjectionIpcCodec.encode`. -/
def ProjectionIpcMessage.encode (message : ProjectionIpcMessage) :
    Except ProjectionIpcException (List UInt8) :=
  if message.payload.length > ProjectionIpcProtocol.maximumPayloadBytes then
    .error (.range message.payload.length)
  else
    .ok (bigEndian 4 ProjectionIpcProtocol.magic ++ bigEndian 2 ProjectionIpcProtocol.version ++
      bigEndian 2 message.kind.wireValue.toNat ++ bigEndian 4 message.payload.length ++
      message.payload)

namespace ProjectionIpcDecoder

open ProjectionIpcProtocol

/-- One turn of the loop of `add`. -/
def next (buffer : List UInt8) :
    Except ProjectionIpcException (Option (ProjectionIpcMessage × List UInt8)) :=
  if buffer.length < headerBytes then .ok none
  else if ofBigEndian (slice buffer 0 4) ≠ ProjectionIpcProtocol.magic then
    .error (.format "Invalid projection IPC magic.")
  else if ofBigEndian (slice buffer 4 6) ≠ ProjectionIpcProtocol.version then
    .error (.format ("Incompatible projection IPC version; use matching Argo/daemon IPC v7 " ++
      "builds."))
  else
    match ProjectionIpcKind.tryParse (UInt16.ofNat (ofBigEndian (slice buffer 6 8))) with
    | none => .error (.format "Unknown projection IPC message kind.")
    | some kind =>
      let length := ofBigEndian (slice buffer 8 12)
      if length > maximumPayloadBytes then
        .error (.format "Projection IPC payload exceeds limit.")
      else
        let frameLength := headerBytes + length
        if buffer.length < frameLength then .ok none
        else .ok (some (⟨kind, slice buffer headerBytes frameLength⟩, buffer.drop frameLength))

theorem next_shorter {buffer rest : List UInt8} {message : ProjectionIpcMessage}
    (h : next buffer = .ok (some (message, rest))) : rest.length < buffer.length := by
  unfold next at h
  split_ifs at h with hshort
  · cases h
  split at h
  · cases h
  · dsimp only at h
    split_ifs at h <;> cases h
    rw [List.length_drop]
    unfold headerBytes at hshort ⊢
    omega

def parser : Parser UInt8 ProjectionIpcMessage ProjectionIpcException := ⟨next, next_shorter⟩

@[simp] theorem parser_next : parser.next = next := rfl

/-- `ProjectionIpcDecoder.add`, on what is buffered. -/
def add : List UInt8 → List UInt8 →
    List UInt8 × Except ProjectionIpcException (List ProjectionIpcMessage) :=
  parser.receive maximumBufferedBytes (.format "Projection IPC receive buffer exceeded.")

end ProjectionIpcDecoder

/-! ## Both read what either writes -/

/-- What stands before a payload. -/
def header (kind : UInt16) (length : ℕ) : List UInt8 :=
  bigEndian 4 magic ++ bigEndian 2 version.toNat ++ bigEndian 2 kind.toNat ++ bigEndian 4 length

@[simp] theorem length_header (kind : UInt16) (length : ℕ) : (header kind length).length = 12 := by
  simp [header]

theorem encode_eq_ok {message : Message} {frame : List UInt8} :
    encode message = .ok frame ↔ message.payload.length ≤ maxPayload ∧
      frame = header message.kind message.payload.length ++ message.payload := by
  unfold encode header
  split_ifs with h
  · exact iff_of_false nofun fun hboth => Nat.not_le_of_lt h hboth.1
  · rw [Except.ok.injEq, eq_comm]
    exact (and_iff_right (Nat.le_of_not_lt h)).symm

theorem app_encode_eq_ok {message : ProjectionIpcMessage} {frame : List UInt8} :
    message.encode = .ok frame ↔ message.payload.length ≤ maxPayload ∧
      frame = header message.kind.wireValue message.payload.length ++ message.payload := by
  unfold ProjectionIpcMessage.encode header
  split_ifs with h
  · exact iff_of_false nofun fun hboth => Nat.not_le_of_lt h hboth.1
  · rw [Except.ok.injEq, eq_comm]
    exact (and_iff_right (Nat.le_of_not_lt h)).symm

/-- The fields of a header are read as they were written. -/
theorem header_fields (kind : UInt16) {length : ℕ} (hlength : length ≤ maxPayload)
    (tail : List UInt8) :
    ofBigEndian (slice (header kind length ++ tail) 0 4) = magic ∧
      ofBigEndian (slice (header kind length ++ tail) 4 6) = version.toNat ∧
      ofBigEndian (slice (header kind length ++ tail) 6 8) = kind.toNat ∧
      ofBigEndian (slice (header kind length ++ tail) 8 12) = length := by
  have hkind : kind.toNat < 256 ^ 2 := kind.toNat_lt
  have hsize : length < 256 ^ 4 := hlength.trans_lt (by decide)
  refine ⟨?_, ?_, ?_, ?_⟩
  · have hfield := slice_middle [] (bigEndian 4 magic)
      (bigEndian 2 version.toNat ++ bigEndian 2 kind.toNat ++ bigEndian 4 length ++ tail)
    simp only [header, List.append_assoc]
    simp only [List.nil_append, List.length_nil, length_bigEndian, List.append_assoc] at hfield
    rw [hfield]
    decide
  · have hfield := slice_middle (bigEndian 4 magic) (bigEndian 2 version.toNat)
      (bigEndian 2 kind.toNat ++ bigEndian 4 length ++ tail)
    simp only [header, List.append_assoc]
    simp only [length_bigEndian, List.append_assoc] at hfield
    rw [hfield]
    decide
  · have hfield := slice_middle (bigEndian 4 magic ++ bigEndian 2 version.toNat)
      (bigEndian 2 kind.toNat) (bigEndian 4 length ++ tail)
    simp only [header, List.append_assoc]
    simp only [List.length_append, length_bigEndian, List.append_assoc] at hfield
    rw [hfield, ofBigEndian_bigEndian hkind]
  · have hfield := slice_middle
      (bigEndian 4 magic ++ bigEndian 2 version.toNat ++ bigEndian 2 kind.toNat)
      (bigEndian 4 length) tail
    simp only [header, List.append_assoc]
    simp only [List.length_append, length_bigEndian, List.append_assoc] at hfield
    rw [hfield, ofBigEndian_bigEndian hsize]

/-- A part of a frame has no whole header, or a part of the payload after it. -/
theorem part_cases {kind : UInt16} {length : ℕ} {payload front : List UInt8}
    (h : front <+: header kind length ++ payload)
    (hpart : front.length < (header kind length ++ payload).length) :
    front.length < 12 ∨
      ∃ tail, front = header kind length ++ tail ∧ tail.length < payload.length := by
  rcases Nat.lt_or_ge front.length 12 with hshort | hlong
  · exact .inl hshort
  · obtain ⟨tail, rfl⟩ : header kind length <+: front := by
      refine List.prefix_of_prefix_length_le (List.prefix_append _ payload) h ?_
      rw [length_header]
      exact hlong
    rw [List.length_append, List.length_append] at hpart
    exact .inr ⟨tail, rfl, by omega⟩

/-- What a parser does with a header, and with less, is all that a frame needs. -/
theorem frames_of_header {β ε : Type} (parser : Parser UInt8 β ε) {kind : UInt16}
    {payload : List UInt8} (value : List UInt8 → β)
    (hshort : ∀ front, front.length < 12 → parser.next front = .ok none)
    (hheader : ∀ tail, parser.next (header kind payload.length ++ tail) =
      if tail.length < payload.length then .ok none
      else .ok (some (value (tail.take payload.length), tail.drop payload.length))) :
    parser.Frames (header kind payload.length ++ payload) (value payload) := by
  constructor
  · intro rest
    rw [List.append_assoc, hheader, if_neg, List.take_left, List.drop_left]
    rw [List.length_append]
    omega
  · intro front hprefix hpart
    rcases part_cases hprefix hpart with hless | ⟨tail, rfl, htail⟩
    · exact hshort front hless
    · rw [hheader, if_pos htail]

theorem slice_header (kind : UInt16) (length : ℕ) (tail : List UInt8) :
    slice (header kind length ++ tail) 12 (12 + length) = tail.take length ∧
      (header kind length ++ tail).drop (12 + length) = tail.drop length := by
  have hdrop : (header kind length ++ tail).drop (12 + length) = tail.drop length := by
    rw [← List.drop_drop, List.drop_left' (length_header kind length)]
  refine ⟨?_, hdrop⟩
  rw [slice, Nat.add_sub_cancel_left, List.drop_left' (length_header kind length)]

theorem Decoder.frames {message : Message} (hlength : message.payload.length ≤ maxPayload) :
    parser.Frames (header message.kind message.payload.length ++ message.payload) message := by
  refine frames_of_header parser (fun payload => ⟨message.kind, payload⟩)
    (fun front hshort => ?_) fun tail => ?_
  · exact if_pos hshort
  · obtain ⟨hmagic, hversion, hkind, hsize⟩ := header_fields message.kind hlength tail
    obtain ⟨hpayload, hrest⟩ := slice_header message.kind message.payload.length tail
    rw [parser_next]
    unfold next
    simp only [hmagic, hversion, hkind, hsize, headerLen, UInt16.ofNat_toNat, ne_eq,
      not_true_eq_false, if_false, List.length_append, length_header, hpayload, hrest]
    rw [if_neg (by omega), if_neg (Nat.not_lt_of_le hlength)]
    simp only [Nat.add_lt_add_iff_left]

theorem ProjectionIpcDecoder.frames {message : ProjectionIpcMessage}
    (hlength : message.payload.length ≤ maxPayload) :
    parser.Frames (header message.kind.wireValue message.payload.length ++ message.payload)
      message := by
  refine frames_of_header parser (fun payload => ⟨message.kind, payload⟩)
    (fun front hshort => ?_) fun tail => ?_
  · exact if_pos hshort
  · obtain ⟨hmagic, hversion, hkind, hsize⟩ := header_fields message.kind.wireValue hlength tail
    obtain ⟨hpayload, hrest⟩ := slice_header message.kind.wireValue message.payload.length tail
    have hown : ofBigEndian (slice (header message.kind.wireValue message.payload.length ++ tail)
        0 4) = ProjectionIpcProtocol.magic := hmagic
    have hsame : ofBigEndian (slice (header message.kind.wireValue message.payload.length ++ tail)
        4 6) = ProjectionIpcProtocol.version := hversion
    have hbound : ¬ message.payload.length > ProjectionIpcProtocol.maximumPayloadBytes :=
      Nat.not_lt_of_le hlength
    rw [parser_next]
    unfold next
    simp only [hown, hsame, hkind, hsize, ProjectionIpcProtocol.headerBytes, UInt16.ofNat_toNat,
      ProjectionIpcKind.tryParse_wireValue, ne_eq, not_true_eq_false, if_false, hbound,
      List.length_append, length_header, hpayload, hrest]
    rw [if_neg (by omega)]
    simp only [Nat.add_lt_add_iff_left]

/-- What the daemon takes a message of the application for. -/
def ProjectionIpcMessage.sent (message : ProjectionIpcMessage) : Message :=
  ⟨message.kind.wireValue, message.payload⟩

theorem Decoder.frames_of_encode {message : Message} {frame : List UInt8}
    (h : encode message = .ok frame) : parser.Frames frame (id message) := by
  obtain ⟨hlength, rfl⟩ := encode_eq_ok.mp h
  exact frames hlength

theorem Decoder.frames_of_app {message : ProjectionIpcMessage} {frame : List UInt8}
    (h : message.encode = .ok frame) : parser.Frames frame message.sent := by
  obtain ⟨hlength, rfl⟩ := app_encode_eq_ok.mp h
  exact @frames message.sent hlength

theorem ProjectionIpcDecoder.frames_of_sent {message : ProjectionIpcMessage} {frame : List UInt8}
    (h : encode message.sent = .ok frame) : parser.Frames frame (id message) := by
  obtain ⟨hlength, rfl⟩ := encode_eq_ok.mp h
  exact frames hlength

/-- The frames of messages that were encoded. -/
theorem encoded_frames {β μ ε δ : Type} {encode : μ → Except ε (List UInt8)}
    {parser : Parser UInt8 β δ} {value : μ → β}
    (hencode : ∀ message frame, encode message = .ok frame → parser.Frames frame (value message)) :
    ∀ {messages : List μ} {frames : List (List UInt8)}, messages.mapM encode = .ok frames →
      ∃ items : List (List UInt8 × β), (∀ item ∈ items, parser.Frames item.1 item.2) ∧
        wire items = frames.flatten ∧ items.map Prod.snd = messages.map value
  | [], frames, h => by
    cases h
    exact ⟨[], nofun, rfl, rfl⟩
  | message :: messages, frames, h => by
    rw [List.mapM_cons] at h
    rcases hfirst : encode message with e | frame
    · rw [hfirst] at h
      cases h
    · rcases hrest : messages.mapM encode with e | rest
      · rw [hfirst, hrest] at h
        cases h
      · rw [hfirst, hrest] at h
        cases h
        obtain ⟨items, hitems, hwire, hvalues⟩ := encoded_frames hencode hrest
        refine ⟨(frame, value message) :: items, ?_, ?_, ?_⟩
        · exact List.forall_mem_cons.mpr ⟨hencode message frame hfirst, hitems⟩
        · rw [wire_cons, hwire]
          rfl
        · rw [List.map_cons, hvalues]
          rfl

theorem Decoder.delivers {messages : List Message} {items : List (List UInt8 × Message)}
    (hitems : ∀ item ∈ items, parser.Frames item.1 item.2)
    (hvalues : items.map Prod.snd = messages) {chunks : List (List UInt8)}
    (hcut : chunks.flatten = wire items) (hroom : Room push maxBuffered [] chunks) :
    Delivers push [] chunks messages := by
  rw [← hvalues]
  exact Parser.receive_cut rfl hitems (Parser.pending_nil hitems) hcut hroom

/-- A touch and an empty message, cut inside the second header. -/
def fragments : List (List UInt8) :=
  [header 23 2 ++ [5, 6] ++ (header 1 0).take 7, (header 1 0).drop 7]

end ProjectArgo.Projection.Ipc
