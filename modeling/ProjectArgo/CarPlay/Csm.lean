import ProjectArgo.Library.Bytes
import ProjectArgo.CarPlay.Basic

/-!
# iAP2 control messages

A control message is a six-byte header followed by parameters, each carrying
its own length and identifier. Encoding refuses what cannot fit one maximum
data frame; what it does produce is decoded back to the same message.
-/
namespace ProjectArgo.CarPlay.Csm

open Library.Bytes

def requestCertificate : UInt16 := 0xaa00
def certificate : UInt16 := 0xaa01
def requestSignature : UInt16 := 0xaa02
def signature : UInt16 := 0xaa03
def authFailed : UInt16 := 0xaa04
def authSucceeded : UInt16 := 0xaa05

/-- Fits one maximum-size iAP2 data frame. -/
def maxMessage : ℕ := 65525
def maxParams : ℕ := 64

structure Parameter where
  id : UInt16
  value : List UInt8
  deriving DecidableEq

/-- The bytes of one parameter. -/
def Parameter.wire (p : Parameter) : List UInt8 :=
  bigEndian 2 (p.value.length + 4) ++ bigEndian 2 p.id.toNat ++ p.value

/-- The loop of `encodeParameters`, with the bytes written so far. -/
def encodeParametersFrom : List UInt8 → List Parameter → Except Error (List UInt8)
  | bytes, [] => .ok bytes
  | bytes, p :: rest =>
    let length := p.value.length + 4
    if length > 65535 ∨ bytes.length + length > maxMessage - 6 then .error .bounds
    else
      encodeParametersFrom (bytes ++ bigEndian 2 length ++ bigEndian 2 p.id.toNat ++ p.value) rest

def encodeParameters (parameters : List Parameter) : Except Error (List UInt8) :=
  if parameters.length > maxParams then .error .bounds else encodeParametersFrom [] parameters

/-- The loop of `decodeParameters`; `budget` is how many more fields it accepts. -/
def decodeParametersUpTo : ℕ → List UInt8 → Except Error (List Parameter)
  | 0, bytes => if bytes = [] then .ok [] else .error .bounds
  | budget + 1, bytes =>
    if bytes = [] then .ok []
    else if bytes.length < 4 then .error .bounds
    else
      let length := ofBigEndian (slice bytes 0 2)
      if length < 4 ∨ length > bytes.length then .error .malformed
      else
        let field : Parameter := ⟨UInt16.ofNat (ofBigEndian (slice bytes 2 4)), slice bytes 4 length⟩
        match decodeParametersUpTo budget (bytes.drop length) with
        | .error e => .error e
        | .ok fields => .ok (field :: fields)

def decodeParameters (bytes : List UInt8) : Except Error (List Parameter) :=
  if bytes.length > maxMessage - 6 then .error .bounds else decodeParametersUpTo maxParams bytes

structure Message where
  id : UInt16
  parameters : List Parameter
  deriving DecidableEq

namespace Message

def encode (m : Message) : Except Error (List UInt8) :=
  match encodeParameters m.parameters with
  | .error e => .error e
  | .ok parameters =>
    .ok ([0x40, 0x40] ++ bigEndian 2 (parameters.length + 6) ++ bigEndian 2 m.id.toNat ++ parameters)

/-- Exactly one complete message is accepted; trailing bytes are never ignored. -/
def decode (bytes : List UInt8) : Except Error Message :=
  if ¬(6 ≤ bytes.length ∧ bytes.length ≤ maxMessage) then .error .bounds
  else if slice bytes 0 2 ≠ [0x40, 0x40] ∨ ofBigEndian (slice bytes 2 4) ≠ bytes.length then
    .error .malformed
  else
    match decodeParameters (bytes.drop 6) with
    | .error e => .error e
    | .ok parameters => .ok ⟨UInt16.ofNat (ofBigEndian (slice bytes 4 6)), parameters⟩

/-- The value of the only parameter with identifier `id`. -/
def one (m : Message) (id : UInt16) : Except Error (List UInt8) :=
  match m.parameters.filter (fun p => p.id == id) with
  | [p] => .ok p.value
  | _ => .error .malformed

end Message

theorem ofNat_bigEndian_id (id : UInt16) :
    UInt16.ofNat (ofBigEndian (bigEndian 2 id.toNat)) = id := by
  rw [ofBigEndian_bigEndian id.toNat_lt, UInt16.ofNat_toNat]

@[simp] theorem length_wire (p : Parameter) : p.wire.length = p.value.length + 4 := by
  simp [Parameter.wire]
  omega

/-- A successful encoding is the concatenation of the parameters, each within its bounds. -/
theorem encodeParametersFrom_ok {start bytes : List UInt8} {ps : List Parameter}
    (hstart : start.length ≤ maxMessage - 6) (h : encodeParametersFrom start ps = .ok bytes) :
    bytes = start ++ ps.flatMap Parameter.wire ∧ bytes.length ≤ maxMessage - 6 ∧
      ∀ p ∈ ps, p.value.length + 4 ≤ 65535 := by
  induction ps generalizing start with
  | nil =>
    obtain rfl := Except.ok.inj h
    simpa using hstart
  | cons p ps ih =>
    simp only [encodeParametersFrom] at h
    split_ifs at h with hbound
    simp only [not_or, gt_iff_lt, not_lt] at hbound
    obtain ⟨hbytes, hlen, hall⟩ := ih (by simp; omega) h
    refine ⟨?_, hlen, ?_⟩
    · rw [hbytes]
      simp [Parameter.wire]
    · intro q hq
      rcases List.mem_cons.mp hq with rfl | hq
      · exact hbound.1
      · exact hall q hq

theorem encodeParameters_ok {bytes : List UInt8} {ps : List Parameter}
    (h : encodeParameters ps = .ok bytes) :
    ps.length ≤ maxParams ∧ bytes = ps.flatMap Parameter.wire ∧ bytes.length ≤ maxMessage - 6 ∧
      ∀ p ∈ ps, p.value.length + 4 ≤ 65535 := by
  unfold encodeParameters at h
  split_ifs at h with hcount
  obtain ⟨hbytes, hlen, hall⟩ := encodeParametersFrom_ok (Nat.zero_le _) h
  exact ⟨Nat.le_of_not_lt hcount, by simpa using hbytes, hlen, hall⟩

theorem decodeParametersUpTo_wire {budget : ℕ} {ps : List Parameter} (hcount : ps.length ≤ budget)
    (hall : ∀ p ∈ ps, p.value.length + 4 ≤ 65535) :
    decodeParametersUpTo budget (ps.flatMap Parameter.wire) = .ok ps := by
  induction ps generalizing budget with
  | nil => cases budget <;> rfl
  | cons p ps ih =>
    obtain ⟨budget, rfl⟩ : ∃ b, budget = b + 1 := ⟨budget - 1, by simp at hcount; omega⟩
    have hp := hall p (by simp)
    have hlength : ofBigEndian (slice (p.wire ++ ps.flatMap Parameter.wire) 0 2) =
        p.value.length + 4 := by
      have hfield : slice (p.wire ++ ps.flatMap Parameter.wire) 0 2 =
          bigEndian 2 (p.value.length + 4) := by
        simp [Parameter.wire, slice, bigEndian_two]
      rw [hfield, ofBigEndian_bigEndian (by omega)]
    have hid : slice (p.wire ++ ps.flatMap Parameter.wire) 2 4 = bigEndian 2 p.id.toNat := by
      simp [Parameter.wire, slice, bigEndian_two]
    have hvalue : slice (p.wire ++ ps.flatMap Parameter.wire) 4 (p.value.length + 4) = p.value := by
      simp [Parameter.wire, slice, bigEndian_two]
    have hdrop : (p.wire ++ ps.flatMap Parameter.wire).drop (p.value.length + 4) =
        ps.flatMap Parameter.wire := List.drop_left' (by simp)
    have hrest : decodeParametersUpTo budget (ps.flatMap Parameter.wire) = .ok ps :=
      ih (by simpa using hcount)
        (fun q hq => hall q (List.mem_cons_of_mem _ hq))
    rw [List.flatMap_cons, decodeParametersUpTo, if_neg (by simp [Parameter.wire, bigEndian_two]),
      if_neg (by simp; omega)]
    simp only [hlength, hid, hvalue, hdrop, hrest, ofNat_bigEndian_id]
    rw [if_neg (by simp)]

/-- The bytes of a message whose parameters encode to `parameters`. -/
def Message.wire (m : Message) (parameters : List UInt8) : List UInt8 :=
  [0x40, 0x40] ++ bigEndian 2 (parameters.length + 6) ++ bigEndian 2 m.id.toNat ++ parameters

theorem encode_ok {m : Message} {bytes : List UInt8} (h : m.encode = .ok bytes) :
    ∃ parameters, encodeParameters m.parameters = .ok parameters ∧ bytes = m.wire parameters := by
  unfold Message.encode at h
  split at h
  · contradiction
  · rename_i parameters he
    exact ⟨parameters, he, (Except.ok.inj h).symm⟩

/-- What the receiver reads from the front of a message before it is complete. -/
theorem encode_front {m : Message} {bytes : List UInt8} (h : m.encode = .ok bytes) :
    6 ≤ bytes.length ∧ bytes.length ≤ maxMessage ∧ slice bytes 0 2 = [0x40, 0x40] ∧
      ofBigEndian (slice bytes 2 4) = bytes.length := by
  obtain ⟨parameters, he, rfl⟩ := encode_ok h
  obtain ⟨-, -, hlen, -⟩ := encodeParameters_ok he
  have hlength : (m.wire parameters).length = parameters.length + 6 := by
    simp [Message.wire]
    omega
  have hfield : slice (m.wire parameters) 2 4 = bigEndian 2 (parameters.length + 6) := by
    simp [Message.wire, slice, bigEndian_two]
  unfold maxMessage at hlen ⊢
  refine ⟨by omega, by omega, by simp [Message.wire, slice], ?_⟩
  rw [hfield, hlength, ofBigEndian_bigEndian (by omega)]

/-- Decoding undoes encoding. -/
theorem decode_encode {m : Message} {bytes : List UInt8} (h : m.encode = .ok bytes) :
    Message.decode bytes = .ok m := by
  obtain ⟨hlow, hhigh, hmagic, hlength⟩ := encode_front h
  obtain ⟨parameters, he, rfl⟩ := encode_ok h
  obtain ⟨hcount, hwire, hlen, hall⟩ := encodeParameters_ok he
  have hdrop : (m.wire parameters).drop 6 = parameters := by
    simp [Message.wire, bigEndian_two]
  have hid : slice (m.wire parameters) 4 6 = bigEndian 2 m.id.toNat := by
    simp [Message.wire, slice, bigEndian_two]
  have hdecode : decodeParameters parameters = .ok m.parameters := by
    rw [decodeParameters, if_neg (by omega), hwire]
    exact decodeParametersUpTo_wire hcount hall
  rw [Message.decode, if_neg (by simp [hlow, hhigh]), if_neg (by simp [hmagic, hlength]), hdrop,
    hdecode, hid, ofNat_bigEndian_id]

end ProjectArgo.CarPlay.Csm
