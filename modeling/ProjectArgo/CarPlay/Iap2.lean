import ProjectArgo.Library.Bytes
import ProjectArgo.CarPlay.Basic

/-!
# iAP2 wire framing

A frame is a nine-byte header closed by its own checksum, followed, when there
is a payload, by the payload and a second checksum. The synchronization record
carries the negotiated window, frame size and retry parameters.
-/
namespace ProjectArgo.CarPlay.Iap2

open Library.Bytes

def detect : List UInt8 := [0xff, 0x55, 0x02, 0x00, 0xee, 0x10]
def syn : UInt8 := 0x80
def ack : UInt8 := 0x40
def eak : UInt8 := 0x20
def rst : UInt8 := 0x10
def controlSession : UInt8 := 10
def maxFrame : ℕ := 65535
def header : ℕ := 9

/-- The byte that brings the wrapping sum of `bytes` to zero. -/
def checksum (bytes : List UInt8) : UInt8 := 0 - bytes.foldl (· + ·) 0

theorem foldl_add_start (bytes : List UInt8) (start : UInt8) :
    bytes.foldl (· + ·) start = start + bytes.foldl (· + ·) 0 := by
  induction bytes generalizing start with
  | nil => simp
  | cons b bytes ih =>
    rw [List.foldl_cons, ih, List.foldl_cons, ih (0 + b)]
    grind

/-- Appending its checksum to a string makes the sum zero. -/
theorem checksum_append_checksum (bytes : List UInt8) :
    checksum (bytes ++ [checksum bytes]) = 0 := by
  simp only [checksum, List.foldl_append, List.foldl_cons, List.foldl_nil]
  grind

/-- Conversely the checksum is the only byte that does. -/
theorem eq_checksum_of_append {bytes : List UInt8} {b : UInt8}
    (h : checksum (bytes ++ [b]) = 0) : b = checksum bytes := by
  simp only [checksum, List.foldl_append, List.foldl_cons, List.foldl_nil] at h
  rw [checksum]
  grind

structure Frame where
  flags : UInt8
  sequence : UInt8
  acknowledgement : UInt8
  session : UInt8
  payload : List UInt8
  deriving DecidableEq

namespace Frame

/-- Length of the frame on the wire. -/
def length (f : Frame) : ℕ := header + f.payload.length + if f.payload.isEmpty then 0 else 1

/-- The header without its checksum. -/
def head (f : Frame) : List UInt8 :=
  [0xff, 0x5a] ++ bigEndian 2 f.length ++ [f.flags, f.sequence, f.acknowledgement, f.session]

def encode (f : Frame) : Except Error (List UInt8) :=
  if f.length > maxFrame then .error .bounds
  else if f.flags &&& 0x0f ≠ 0 then .error .unsupported
  else
    let bytes := f.head ++ [checksum f.head]
    if f.payload.isEmpty then .ok bytes
    else .ok (bytes ++ f.payload ++ [checksum f.payload])

def decode (bytes : List UInt8) : Except Error Frame :=
  if bytes.length < header ∨ bytes.length > maxFrame then .error .bounds
  else if slice bytes 0 2 ≠ [0xff, 0x5a] ∨ ofBigEndian (slice bytes 2 4) ≠ bytes.length ∨
      bytes.length = header + 1 then .error .malformed
  else if checksum (bytes.take header) ≠ 0 ∨
      (bytes.length > header ∧ checksum (bytes.drop header) ≠ 0) then .error .checksum
  else if bytes.getD 4 0 &&& 0x0f ≠ 0 then .error .unsupported
  else
    .ok
      { flags := bytes.getD 4 0
        sequence := bytes.getD 5 0
        acknowledgement := bytes.getD 6 0
        session := bytes.getD 7 0
        payload := if bytes.length = header then [] else slice bytes header (bytes.length - 1) }

/-- A frame the encoder accepts: it fits the length field and its reserved flag bits are clear. -/
def Valid (f : Frame) : Prop := f.length ≤ maxFrame ∧ f.flags &&& 0x0f = 0

instance (f : Frame) : Decidable f.Valid := inferInstanceAs (Decidable (_ ∧ _))

/-- The bytes after the header. -/
def tail (f : Frame) : List UInt8 :=
  if f.payload.isEmpty then [] else f.payload ++ [checksum f.payload]

/-- The bytes of a valid frame. -/
def wire (f : Frame) : List UInt8 := f.head ++ [checksum f.head] ++ f.tail

theorem encode_of_valid {f : Frame} (h : f.Valid) : f.encode = .ok f.wire := by
  obtain ⟨hlen, hflags⟩ := h
  unfold encode wire tail
  rw [if_neg (by omega), if_neg (by simpa using hflags)]
  split_ifs <;> simp

theorem encode_eq_ok {f : Frame} {bytes : List UInt8} :
    f.encode = .ok bytes ↔ f.Valid ∧ bytes = f.wire := by
  by_cases h : f.Valid
  · simp [encode_of_valid h, h, eq_comm]
  · constructor
    · intro he
      unfold encode at he
      split_ifs at he with hlen hflags
      all_goals exact absurd ⟨Nat.le_of_not_lt hlen, by simpa using hflags⟩ h
    · exact fun he => absurd he.1 h

@[simp] theorem length_head (f : Frame) : f.head.length = 8 := by simp [head]

theorem length_eq_tail (f : Frame) : f.length = header + f.tail.length := by
  unfold length tail
  split_ifs with h
  · simp_all
  · simp
    omega

theorem length_wire (f : Frame) : f.wire.length = f.length := by
  rw [wire, length_eq_tail]
  simp [header]
  omega

/-- No frame is ten bytes long: a payload always brings its checksum. -/
theorem length_ne (f : Frame) : f.length ≠ header + 1 := by
  unfold length
  cases f.payload <;> simp

theorem take_wire (f : Frame) : f.wire.take header = f.head ++ [checksum f.head] :=
  List.take_left' (by simp [header])

theorem drop_wire (f : Frame) : f.wire.drop header = f.tail :=
  List.drop_left' (by simp [header])

theorem checksum_tail {f : Frame} (h : f.wire.length > header) : checksum f.tail = 0 := by
  rw [length_wire, length_eq_tail] at h
  unfold tail at h ⊢
  split_ifs with hp
  · simp [hp] at h
  · exact checksum_append_checksum f.payload

theorem payload_wire (f : Frame) :
    (if f.wire.length = header then [] else slice f.wire header (f.wire.length - 1)) =
      f.payload := by
  have hslice : slice f.wire header (f.wire.length - 1) = f.tail.dropLast := by
    rw [slice, drop_wire, length_wire, length_eq_tail, List.dropLast_eq_take]
    congr 1
    omega
  rw [hslice, length_wire, length_eq_tail]
  unfold tail
  cases hp : f.payload with
  | nil => simp
  | cons b bytes =>
    have hdrop : (f.payload ++ [checksum f.payload]).dropLast = f.payload := List.dropLast_concat
    simpa [hp] using hdrop

/-- Decoding undoes encoding. -/
theorem decode_wire {f : Frame} (h : f.Valid) : decode f.wire = .ok f := by
  obtain ⟨hmax, hflags⟩ := h
  have hlow : header ≤ f.length := by rw [length_eq_tail]; omega
  have hlength : ofBigEndian (slice f.wire 2 4) = f.length := by
    have hfield : slice f.wire 2 4 = bigEndian 2 f.length := by
      simp [wire, head, slice, bigEndian_two]
    rw [hfield, ofBigEndian_bigEndian (by unfold maxFrame at hmax; omega)]
  have hmagic : slice f.wire 0 2 = [0xff, 0x5a] := by simp [wire, head, slice]
  have hfour : f.wire.getD 4 0 = f.flags := by simp [wire, head, bigEndian_two]
  unfold decode
  rw [if_neg (by rw [length_wire]; omega), if_neg, if_neg, hfour, if_neg (by simpa using hflags),
    payload_wire]
  · simp [wire, head, bigEndian_two]
  · rw [take_wire, checksum_append_checksum, drop_wire]
    rintro (h | ⟨hlen, h⟩)
    · exact h rfl
    · exact h (checksum_tail hlen)
  · rw [hmagic, hlength, length_wire]
    have := f.length_ne
    simp_all

end Frame

structure Session where
  id : UInt8
  kind : UInt8
  version : UInt8
  deriving DecidableEq

structure Synchronization where
  window : UInt8
  maxFrame : UInt16
  retransmitMs : UInt16
  ackMs : UInt16
  retries : UInt8
  ackCount : UInt8
  sessions : List Session
  deriving DecidableEq

namespace Synchronization

/-- The loop over the sessions: identifiers are non-zero and pairwise distinct. -/
def validateSessions : List UInt8 → List Session → Except Error Unit
  | _, [] => .ok ()
  | seen, s :: rest =>
    if s.id = 0 ∨ s.id ∈ seen ∨ s.kind > 2 ∨ s.version = 0 then .error .malformed
    else validateSessions (s.id :: seen) rest

/-- Reliable transports negotiate all-zero acknowledgement and retry
parameters; unreliable ones must provide a coherent timer set. -/
def validate (c : Synchronization) : Except Error Unit :=
  if c.window = 0 ∨ c.window > 127 ∨ c.maxFrame < 64 ∨ c.sessions = [] ∨
      c.sessions.length > 8 then .error .bounds
  else
    let zeroAck := c.retransmitMs = 0 ∧ c.ackMs = 0 ∧ c.retries = 0 ∧ c.ackCount = 0
    if ¬zeroAck ∧ (c.retransmitMs = 0 ∨ c.ackMs ≥ c.retransmitMs ∨ c.retries = 0 ∨
        c.ackCount = 0) then .error .bounds
    else validateSessions [] c.sessions

/-- What every validated record guarantees to the code that uses it. -/
theorem validate_bounds {c : Synchronization} (h : c.validate = .ok ()) :
    0 < c.window.toNat ∧ c.window.toNat ≤ 127 ∧ 64 ≤ c.maxFrame.toNat := by
  unfold validate at h
  split_ifs at h with hb
  all_goals
    simp only [not_or] at hb
    obtain ⟨hzero, hwindow, hframe, -, -⟩ := hb
    refine ⟨?_, ?_, ?_⟩
    · exact Nat.pos_of_ne_zero fun he => hzero (UInt8.toNat_inj.mp (by simpa using he))
    · simpa [UInt8.lt_iff_toNat_lt] using hwindow
    · simpa [UInt16.lt_iff_toNat_lt] using hframe

end Synchronization

end ProjectArgo.CarPlay.Iap2
