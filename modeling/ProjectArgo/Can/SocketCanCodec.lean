import Mathlib.Data.List.Basic
import Mathlib.Data.Nat.Bitwise
import ProjectArgo.Library.Bytes

/-!
# Frames as the kernel has them

A frame is sent to the kernel, and received from it, as a structure of 16 octets, or of 72 octets
with up to 64 octets of data. The worker decodes what it receives to a map, which the provider
decodes to a frame. Either side may give up: reading outside a structure throws, and so does making
a frame that is out of bounds.
-/
namespace ProjectArgo.Can.SocketCan

open Library.Bytes

def canFrameSize : ℕ := 16
def canFdFrameSize : ℕ := 72
def canExtendedFlag : ℕ := 0x80000000
def canRemoteFlag : ℕ := 0x40000000
def canErrorFlag : ℕ := 0x20000000
def canStandardMask : ℕ := 0x7ff
def canExtendedMask : ℕ := 0x1fffffff

/-! ## Frames -/

inductive CanFrameKind
  | data
  | remote
  | error
  deriving DecidableEq

/-- The kinds in the order in which the enumeration has them. -/
structure CanFrameKinds where
  values : List CanFrameKind
  complete : ∀ kind, kind ∈ values

/-- What a frame carries, its bus and its time apart. -/
inductive Content
  | data (id : ℕ) (extended : Bool) (data : List UInt8)
  | remote (id : ℕ) (extended : Bool) (remoteLength : ℕ)
  | error (errorFlags : ℕ) (data : List UInt8)
  deriving DecidableEq

namespace Content

def idBound (extended : Bool) : ℕ := if extended then 2 ^ 29 else 2 ^ 11

/-- The bounds of a frame. -/
def Within : Content → Prop
  | .data id extended payload => id < idBound extended ∧ payload.length ≤ 64
  | .remote id extended remoteLength => id < idBound extended ∧ remoteLength ≤ 8
  | .error errorFlags payload => errorFlags < 2 ^ 29 ∧ payload.length ≤ 8

instance : DecidablePred Within
  | .data _ _ _ => inferInstanceAs (Decidable (_ ∧ _))
  | .remote _ _ _ => inferInstanceAs (Decidable (_ ∧ _))
  | .error _ _ => inferInstanceAs (Decidable (_ ∧ _))

def isError : Content → Bool
  | .error _ _ => true
  | _ => false

end Content

/-- A frame can only be made within the bounds. -/
structure CanFrame where
  bus : String
  content : Content
  timestampMicros : ℤ
  within : content.Within
  deriving DecidableEq

def CanFrame.make (bus : String) (content : Content) (timestampMicros : ℤ) : Option CanFrame :=
  if within : content.Within then some ⟨bus, content, timestampMicros, within⟩ else none

/-! ## Octets of the structure -/

inductive Endian
  | little
  | big

def Endian.octets (host : Endian) (value : ℕ) : List UInt8 :=
  match host with
  | .little => littleEndian 4 value
  | .big => bigEndian 4 value

def Endian.number (host : Endian) (octets : List UInt8) : ℕ :=
  match host with
  | .little => ofBigEndian octets.reverse
  | .big => ofBigEndian octets

/-- What is thrown for an index outside the octets. -/
inductive RangeError
  | range
  deriving DecidableEq

def getUint32 (host : Endian) (bytes : List UInt8) (offset : ℕ) : Except RangeError ℕ :=
  if offset + 4 ≤ bytes.length then .ok (host.number (slice bytes offset (offset + 4)))
  else .error .range

def getByte (bytes : List UInt8) (offset : ℕ) : Except RangeError ℕ :=
  match bytes[offset]? with
  | some byte => .ok byte.toNat
  | none => .error .range

def sublist (bytes : List UInt8) (start last : ℕ) : Except RangeError (List UInt8) :=
  if start ≤ last ∧ last ≤ bytes.length then .ok (slice bytes start last) else .error .range

def setRange (bytes : List UInt8) (start : ℕ) (octets : List UInt8) : List UInt8 :=
  bytes.take start ++ octets ++ bytes.drop (start + octets.length)

/-! ## The worker -/

/-- What may stand in a map that is sent between isolates. -/
inductive Value
  | int (value : ℤ)
  | bool (value : Bool)
  | string (value : String)
  | bytes (value : List UInt8)
  deriving DecidableEq

abbrev Wire := List (String × Value)

def decodeWireFrame (kinds : CanFrameKinds) (host : Endian) (bytes : List UInt8)
    (logicalBus : String) (timestamp : ℤ) : Except RangeError (Option Wire) :=
  if bytes.length ≠ canFrameSize ∧ bytes.length ≠ canFdFrameSize then .ok none
  else do
    let rawId ← getUint32 host bytes 0
    let payloadLength ← getByte bytes 4
    if rawId &&& canErrorFlag ≠ 0 then
      if bytes.length ≠ canFrameSize ∨ 8 < payloadLength then .ok none
      else do
        let data ← sublist bytes 8 (8 + payloadLength)
        .ok (some [("kind", .int (kinds.values.idxOf .error)), ("bus", .string logicalBus),
          ("errorFlags", .int (rawId &&& canExtendedMask : ℕ)), ("data", .bytes data),
          ("timestampMicros", .int timestamp)])
    else
      let extended := decide (rawId &&& canExtendedFlag ≠ 0)
      let id := rawId &&& (if extended then canExtendedMask else canStandardMask)
      let maximumPayload := if bytes.length = canFdFrameSize then 64 else 8
      if maximumPayload < payloadLength then .ok none
      else if rawId &&& canRemoteFlag ≠ 0 then
        if bytes.length ≠ canFrameSize ∨ 8 < payloadLength then .ok none
        else
          .ok (some [("kind", .int (kinds.values.idxOf .remote)), ("bus", .string logicalBus),
            ("id", .int (id : ℕ)), ("remoteLength", .int payloadLength),
            ("extended", .bool extended), ("timestampMicros", .int timestamp)])
      else do
        let data ← sublist bytes 8 (8 + payloadLength)
        .ok (some [("kind", .int (kinds.values.idxOf .data)), ("bus", .string logicalBus),
          ("id", .int (id : ℕ)), ("data", .bytes data), ("extended", .bool extended),
          ("timestampMicros", .int timestamp)])

/-! ## The provider -/

def intAt (raw : Wire) (key : String) : Option ℤ :=
  match raw.lookup key with
  | some (.int value) => some value
  | _ => none

/-- A number that a bound from below is asked of. -/
def natAt (raw : Wire) (key : String) : Option ℕ :=
  (intAt raw key).bind fun value => if 0 ≤ value then some value.toNat else none

def boolAt (raw : Wire) (key : String) : Option Bool :=
  match raw.lookup key with
  | some (.bool value) => some value
  | _ => none

def stringAt (raw : Wire) (key : String) : Option String :=
  match raw.lookup key with
  | some (.string value) => some value
  | _ => none

def bytesAt (raw : Wire) (key : String) : Option (List UInt8) :=
  match raw.lookup key with
  | some (.bytes value) => some value
  | _ => none

/-- Whatever is thrown makes it nothing. -/
def decodeSocketCanFrame (kinds : CanFrameKinds) (raw : Wire) : Option CanFrame := do
  let kind ← kinds.values[← natAt raw "kind"]?
  let bus ← stringAt raw "bus"
  let timestamp ← intAt raw "timestampMicros"
  match kind with
  | .data =>
    CanFrame.make bus (.data (← natAt raw "id") (← boolAt raw "extended") (← bytesAt raw "data"))
      timestamp
  | .remote =>
    CanFrame.make bus (.remote (← natAt raw "id") (← boolAt raw "extended")
      (← natAt raw "remoteLength")) timestamp
  | .error =>
    CanFrame.make bus (.error (← natAt raw "errorFlags") (← bytesAt raw "data")) timestamp

/-- `send` refuses error frames. -/
def encodeSocketCanFrame (host : Endian) (frame : CanFrame) : Option (List UInt8) :=
  match frame.content with
  | .error _ _ => none
  | .data id extended data =>
    let length := if 8 < data.length then canFdFrameSize else canFrameSize
    let rawId := if extended then id ||| canExtendedFlag else id
    let bytes := setRange (List.replicate length 0) 0 (host.octets rawId)
    some (setRange (bytes.set 4 (UInt8.ofNat data.length)) 8 data)
  | .remote id extended remoteLength =>
    let rawId := if extended then id ||| canExtendedFlag else id
    let rawId := rawId ||| canRemoteFlag
    let bytes := setRange (List.replicate canFrameSize 0) 0 (host.octets rawId)
    some (bytes.set 4 (UInt8.ofNat remoteLength))

/-! ## What a structure holds -/

/-- The content of a structure, without the map that it is sent in. -/
def contentOf (host : Endian) (bytes : List UInt8) : Option Content :=
  let rawId := host.number (slice bytes 0 4)
  let payloadLength := (bytes.getD 4 0).toNat
  if bytes.length ≠ canFrameSize ∧ bytes.length ≠ canFdFrameSize then none
  else if rawId &&& canErrorFlag ≠ 0 then
    if bytes.length ≠ canFrameSize ∨ 8 < payloadLength then none
    else some (.error (rawId &&& canExtendedMask) (slice bytes 8 (8 + payloadLength)))
  else
    let extended := decide (rawId &&& canExtendedFlag ≠ 0)
    let id := rawId &&& (if extended then canExtendedMask else canStandardMask)
    if (if bytes.length = canFdFrameSize then 64 else 8) < payloadLength then none
    else if rawId &&& canRemoteFlag ≠ 0 then
      if bytes.length ≠ canFrameSize ∨ 8 < payloadLength then none
      else some (.remote id extended payloadLength)
    else some (.data id extended (slice bytes 8 (8 + payloadLength)))

def Content.wire (kinds : CanFrameKinds) (bus : String) (timestamp : ℤ) : Content → Wire
  | .data id extended payload =>
    [("kind", .int (kinds.values.idxOf .data)), ("bus", .string bus), ("id", .int id),
      ("data", .bytes payload), ("extended", .bool extended), ("timestampMicros", .int timestamp)]
  | .remote id extended remoteLength =>
    [("kind", .int (kinds.values.idxOf .remote)), ("bus", .string bus), ("id", .int id),
      ("remoteLength", .int remoteLength), ("extended", .bool extended),
      ("timestampMicros", .int timestamp)]
  | .error errorFlags payload =>
    [("kind", .int (kinds.values.idxOf .error)), ("bus", .string bus),
      ("errorFlags", .int errorFlags), ("data", .bytes payload),
      ("timestampMicros", .int timestamp)]

variable {kinds : CanFrameKinds} {host : Endian} {bytes : List UInt8} {bus : String}
  {timestamp : ℤ} {content : Content}

theorem getUint32_ok (h : 4 ≤ bytes.length) :
    getUint32 host bytes 0 = .ok (host.number (slice bytes 0 4)) :=
  if_pos h

theorem getByte_ok {offset : ℕ} (h : offset < bytes.length) :
    getByte bytes offset = .ok (bytes.getD offset 0).toNat := by
  rw [getByte, List.getElem?_eq_getElem h, List.getD_eq_getElem _ _ h]

theorem sublist_ok {payloadLength : ℕ} (h : 8 + payloadLength ≤ bytes.length) :
    sublist bytes 8 (8 + payloadLength) = .ok (slice bytes 8 (8 + payloadLength)) :=
  if_pos ⟨Nat.le_add_right _ _, h⟩

/-- The worker never reads outside the structure. -/
theorem decodeWireFrame_ok : decodeWireFrame kinds host bytes bus timestamp =
    .ok ((contentOf host bytes).map (Content.wire kinds bus timestamp)) := by
  unfold decodeWireFrame contentOf
  by_cases hsize : bytes.length ≠ canFrameSize ∧ bytes.length ≠ canFdFrameSize
  · rw [if_pos hsize, if_pos hsize]
    rfl
  rw [if_neg hsize, if_neg hsize]
  have hlength : bytes.length = 16 ∨ bytes.length = 72 := by
    simp only [canFrameSize, canFdFrameSize] at hsize
    omega
  rw [getUint32_ok (by omega), getByte_ok (by omega)]
  change (if _ then _ else _) = _
  dsimp only
  generalize (bytes.getD 4 0).toNat = payloadLength
  generalize host.number (slice bytes 0 4) = rawId
  have hmaximum : 8 + (if bytes.length = canFdFrameSize then 64 else 8) ≤ bytes.length := by
    rcases hlength with hlength | hlength
    · rw [hlength]
      decide
    · rw [hlength]
      decide
  generalize (if bytes.length = canFdFrameSize then 64 else 8) = maximum at hmaximum ⊢
  split
  · split
    · rfl
    · rename_i hshort
      rw [sublist_ok (by simp only [canFrameSize] at hshort; omega)]
      rfl
  split
  · rfl
  split
  · split
    · rfl
    · rfl
  · rw [sublist_ok (by omega)]
    rfl

theorem and_mask_lt (rawId : ℕ) (extended : Bool) :
    rawId &&& (if extended then canExtendedMask else canStandardMask) <
      Content.idBound extended := by
  cases extended with
  | true => exact Nat.and_lt_two_pow rawId (by decide)
  | false => exact Nat.and_lt_two_pow rawId (by decide)

theorem length_payload (bytes : List UInt8) (payloadLength : ℕ) :
    (slice bytes 8 (8 + payloadLength)).length ≤ payloadLength := by
  rw [length_slice]
  omega

/-- Whatever a structure holds is within the bounds. -/
theorem contentOf_within (h : contentOf host bytes = some content) : content.Within := by
  unfold contentOf at h
  dsimp only at h
  generalize host.number (slice bytes 0 4) = rawId at h
  generalize hpayload : (bytes.getD 4 0).toNat = payloadLength at h
  have hslice := length_payload bytes payloadLength
  have hmaximum : (if bytes.length = canFdFrameSize then 64 else 8) ≤ 64 := by
    split
    · exact Nat.le_refl _
    · decide
  generalize (if bytes.length = canFdFrameSize then 64 else 8) = maximum at h hmaximum
  split at h
  · exact nomatch h
  split at h
  · split at h
    · exact nomatch h
    · rename_i hshort
      cases h
      exact ⟨Nat.and_lt_two_pow rawId (by decide), by omega⟩
  split at h
  · exact nomatch h
  split at h
  · split at h
    · exact nomatch h
    · rename_i hshort
      cases h
      exact ⟨and_mask_lt _ _, by omega⟩
  · cases h
    exact ⟨and_mask_lt _ _, by omega⟩

theorem natAt_int {raw : Wire} {key : String} {value : ℕ}
    (h : raw.lookup key = some (.int value)) : natAt raw key = some value := by
  have hint : intAt raw key = some (value : ℤ) := by rw [intAt, h]
  rw [natAt, hint, Option.bind_some, if_pos (Int.natCast_nonneg value), Int.toNat_natCast]

theorem kind_at (kinds : CanFrameKinds) (kind : CanFrameKind) :
    kinds.values[kinds.values.idxOf kind]? = some kind :=
  List.getElem?_idxOf (kinds.complete kind)

/-- The provider gets the content out of the map. -/
theorem decodeSocketCanFrame_wire (h : content.Within) :
    decodeSocketCanFrame kinds (content.wire kinds bus timestamp) =
      some ⟨bus, content, timestamp, h⟩ := by
  have hmade : CanFrame.make bus content timestamp = some ⟨bus, content, timestamp, h⟩ := dif_pos h
  cases content with
  | data id extended payload =>
    generalize hraw : Content.wire kinds bus timestamp (.data id extended payload) = raw
    have hkind : natAt raw "kind" = some (kinds.values.idxOf .data) := hraw ▸ natAt_int rfl
    have hid : natAt raw "id" = some id := hraw ▸ natAt_int rfl
    have hbus : stringAt raw "bus" = some bus := hraw ▸ rfl
    have htime : intAt raw "timestampMicros" = some timestamp := hraw ▸ rfl
    have hextended : boolAt raw "extended" = some extended := hraw ▸ rfl
    have hpayload : bytesAt raw "data" = some payload := hraw ▸ rfl
    simp only [decodeSocketCanFrame, hkind, kind_at, hbus, htime, hid, hextended, hpayload,
      Option.bind_eq_bind, Option.bind_some, hmade]
  | remote id extended remoteLength =>
    generalize hraw : Content.wire kinds bus timestamp (.remote id extended remoteLength) = raw
    have hkind : natAt raw "kind" = some (kinds.values.idxOf .remote) := hraw ▸ natAt_int rfl
    have hid : natAt raw "id" = some id := hraw ▸ natAt_int rfl
    have hbus : stringAt raw "bus" = some bus := hraw ▸ rfl
    have htime : intAt raw "timestampMicros" = some timestamp := hraw ▸ rfl
    have hextended : boolAt raw "extended" = some extended := hraw ▸ rfl
    have hlength : natAt raw "remoteLength" = some remoteLength := hraw ▸ natAt_int rfl
    simp only [decodeSocketCanFrame, hkind, kind_at, hbus, htime, hid, hextended, hlength,
      Option.bind_eq_bind, Option.bind_some, hmade]
  | error errorFlags payload =>
    generalize hraw : Content.wire kinds bus timestamp (.error errorFlags payload) = raw
    have hkind : natAt raw "kind" = some (kinds.values.idxOf .error) := hraw ▸ natAt_int rfl
    have hbus : stringAt raw "bus" = some bus := hraw ▸ rfl
    have htime : intAt raw "timestampMicros" = some timestamp := hraw ▸ rfl
    have hflags : natAt raw "errorFlags" = some errorFlags := hraw ▸ natAt_int rfl
    have hpayload : bytesAt raw "data" = some payload := hraw ▸ rfl
    simp only [decodeSocketCanFrame, hkind, kind_at, hbus, htime, hflags, hpayload,
      Option.bind_eq_bind, Option.bind_some, hmade]

/-! ## What the encoder writes -/

theorem length_octets (host : Endian) (value : ℕ) : (host.octets value).length = 4 := by
  cases host with
  | little => exact length_littleEndian 4 value
  | big => exact length_bigEndian 4 value

theorem number_octets (host : Endian) {value : ℕ} (h : value < 2 ^ 32) :
    host.number (host.octets value) = value := by
  cases host with
  | little =>
    rw [Endian.number, Endian.octets, littleEndian, List.reverse_reverse]
    exact ofBigEndian_bigEndian h
  | big => exact ofBigEndian_bigEndian h

/-- An identifier, an octet for the length, and a payload. -/
def structureOf (size : ℕ) (octets : List UInt8) (byte : UInt8) (payload : List UInt8) :
    List UInt8 :=
  setRange ((setRange (List.replicate size 0) 0 octets).set 4 byte) 8 payload

theorem structureOf_eq {size : ℕ} {octets payload : List UInt8} {byte : UInt8}
    (hoctets : octets.length = 4) (hsize : 8 + payload.length ≤ size) :
    structureOf size octets byte payload = octets ++ byte :: 0 :: 0 :: 0 ::
      (payload ++ List.replicate (size - (8 + payload.length)) 0) := by
  obtain ⟨rest, rfl⟩ := Nat.exists_eq_add_of_le hsize
  obtain ⟨a, b, c, d, rfl⟩ := List.length_eq_four.mp hoctets
  have hzeros : List.replicate (8 + payload.length + rest) (0 : UInt8) =
      [0, 0, 0, 0, 0, 0, 0, 0] ++ List.replicate (payload.length + rest) 0 := by
    rw [Nat.add_assoc, List.replicate_add]
    rfl
  have hrest : 8 + payload.length + rest - (8 + payload.length) = rest := by omega
  have hbehind : (List.replicate (payload.length + rest) (0 : UInt8)).drop payload.length =
      List.replicate rest 0 := by
    rw [List.drop_replicate, Nat.add_sub_cancel_left]
  rw [structureOf, hzeros, hrest, ← hbehind]
  simp [setRange, Nat.add_comm 8]

/-- What is read of a structure that fits one of the sizes. -/
theorem structureOf_reads {size : ℕ} {octets payload : List UInt8} {byte : UInt8}
    (hoctets : octets.length = 4) (hsize : 8 + payload.length ≤ size) :
    (structureOf size octets byte payload).length = size ∧
      slice (structureOf size octets byte payload) 0 4 = octets ∧
      (structureOf size octets byte payload).getD 4 0 = byte ∧
      slice (structureOf size octets byte payload) 8 (8 + payload.length) = payload := by
  rw [structureOf_eq hoctets hsize]
  obtain ⟨a, b, c, d, rfl⟩ := List.length_eq_four.mp hoctets
  refine ⟨?_, rfl, rfl, ?_⟩
  · simp only [List.length_append, List.length_cons, List.length_nil, List.length_replicate]
    omega
  · exact slice_middle [a, b, c, d, byte, 0, 0, 0] payload _

/-! ## The flags of an identifier -/

theorem and_flag_of_lt {value i : ℕ} (h : value < 2 ^ i) : value &&& 2 ^ i = 0 := by
  rw [Nat.and_two_pow, Nat.testBit_lt_two_pow h]
  exact Nat.zero_mul _

theorem or_and_mask {value flag i : ℕ} (h : value < 2 ^ i) (hflag : flag % 2 ^ i = 0) :
    (value ||| flag) &&& (2 ^ i - 1) = value := by
  rw [Nat.and_two_pow_sub_one_eq_mod, Nat.or_mod_two_pow, Nat.mod_eq_of_lt h, hflag]
  exact Nat.or_zero value

/-- The word of an identifier. -/
def rawIdOf (id : ℕ) (extended isRemote : Bool) : ℕ :=
  let rawId := if extended then id ||| canExtendedFlag else id
  if isRemote then rawId ||| canRemoteFlag else rawId

def flagsOf (extended isRemote : Bool) : ℕ :=
  (if extended then canExtendedFlag else 0) ||| (if isRemote then canRemoteFlag else 0)

theorem rawIdOf_eq (id : ℕ) (extended isRemote : Bool) :
    rawIdOf id extended isRemote = id ||| flagsOf extended isRemote := by
  cases extended with
  | true =>
    cases isRemote with
    | true => exact Nat.or_assoc ..
    | false => rfl
  | false =>
    cases isRemote with
    | true => rfl
    | false => exact (Nat.or_zero id).symm

theorem flagsOf_bits : ∀ extended isRemote, flagsOf extended isRemote < 2 ^ 32 ∧
    flagsOf extended isRemote &&& canErrorFlag = 0 ∧
    decide (flagsOf extended isRemote &&& canExtendedFlag ≠ 0) = extended ∧
    decide (flagsOf extended isRemote &&& canRemoteFlag ≠ 0) = isRemote ∧
    flagsOf extended isRemote % 2 ^ 29 = 0 ∧ flagsOf extended isRemote % 2 ^ 11 = 0 := by
  decide

/-- The flags and the identifier can be read off the word again. -/
theorem rawIdOf_flags {id : ℕ} {extended : Bool} (h : id < Content.idBound extended)
    (isRemote : Bool) :
    rawIdOf id extended isRemote < 2 ^ 32 ∧ rawIdOf id extended isRemote &&& canErrorFlag = 0 ∧
      decide (rawIdOf id extended isRemote &&& canExtendedFlag ≠ 0) = extended ∧
      decide (rawIdOf id extended isRemote &&& canRemoteFlag ≠ 0) = isRemote ∧
      rawIdOf id extended isRemote &&&
        (if extended then canExtendedMask else canStandardMask) = id := by
  have hid : id < 2 ^ 29 := h.trans_le (by cases extended <;> decide)
  have herror : id &&& canErrorFlag = 0 := and_flag_of_lt hid
  have hremote : id &&& canRemoteFlag = 0 :=
    and_flag_of_lt (i := 30) (hid.trans_le (by decide))
  have hextended : id &&& canExtendedFlag = 0 :=
    and_flag_of_lt (i := 31) (hid.trans_le (by decide))
  have hflag {flag : ℕ} (hlow : id &&& flag = 0) :
      rawIdOf id extended isRemote &&& flag = flagsOf extended isRemote &&& flag := by
    rw [rawIdOf_eq, Nat.and_or_distrib_right, hlow, Nat.zero_or]
  obtain ⟨hlow, hnone, hfirst, hsecond, hlong, hshort⟩ := flagsOf_bits extended isRemote
  rw [hflag herror, hflag hextended, hflag hremote, rawIdOf_eq]
  refine ⟨Nat.or_lt_two_pow (hid.trans (by decide)) hlow, hnone, hfirst, hsecond, ?_⟩
  cases extended with
  | true => exact or_and_mask hid hlong
  | false => exact or_and_mask h hshort

/-! ## Both ways -/

theorem encodeSocketCanFrame_data (host : Endian) {frame : CanFrame} {id : ℕ} {extended : Bool}
    {payload : List UInt8} (h : frame.content = .data id extended payload) :
    encodeSocketCanFrame host frame =
      some (structureOf (if 8 < payload.length then canFdFrameSize else canFrameSize)
        (host.octets (rawIdOf id extended false)) (UInt8.ofNat payload.length) payload) := by
  rw [encodeSocketCanFrame, h]
  rfl

theorem encodeSocketCanFrame_remote (host : Endian) {frame : CanFrame} {id : ℕ} {extended : Bool}
    {remoteLength : ℕ} (h : frame.content = .remote id extended remoteLength) :
    encodeSocketCanFrame host frame =
      some (structureOf canFrameSize (host.octets (rawIdOf id extended true))
        (UInt8.ofNat remoteLength) []) := by
  have hempty (bytes : List UInt8) : setRange bytes 8 [] = bytes := by
    rw [setRange, List.append_nil, List.length_nil, Nat.add_zero, List.take_append_drop]
  rw [encodeSocketCanFrame, h, structureOf, hempty]
  rfl

theorem contentOf_data {size id : ℕ} {extended : Bool} {payload : List UInt8}
    (hkernel : size = canFrameSize ∨ size = canFdFrameSize) (hsize : 8 + payload.length ≤ size)
    (hid : id < Content.idBound extended) :
    contentOf host (structureOf size (host.octets (rawIdOf id extended false))
      (UInt8.ofNat payload.length) payload) = some (.data id extended payload) := by
  obtain ⟨hraw, herror, hextended, hremote, hmask⟩ := rawIdOf_flags hid false
  obtain ⟨hlength, hoctets, hbyteAt, hslice⟩ :
      (structureOf size (host.octets (rawIdOf id extended false))
        (UInt8.ofNat payload.length) payload).length = size ∧ _ :=
    structureOf_reads (length_octets host _) hsize
  have hlarge : payload.length ≤ if size = canFdFrameSize then 64 else 8 := by
    unfold canFrameSize canFdFrameSize at *
    rcases hkernel with rfl | rfl
    · exact Nat.le_of_add_le_add_left hsize
    · exact Nat.le_of_add_le_add_left hsize
  have hbyte : (UInt8.ofNat payload.length).toNat = payload.length := by
    apply UInt8.toNat_ofNat_of_lt
    split at hlarge
    · exact Nat.lt_of_le_of_lt hlarge (by decide)
    · exact Nat.lt_of_le_of_lt hlarge (by decide)
  have hknown : ¬ (size ≠ canFrameSize ∧ size ≠ canFdFrameSize) :=
    fun h => hkernel.elim h.1 h.2
  generalize structureOf size (host.octets (rawIdOf id extended false))
    (UInt8.ofNat payload.length) payload = bytes at *
  unfold contentOf
  rw [hoctets, number_octets host hraw, hbyteAt, hbyte, hlength]
  dsimp only
  rw [if_neg hknown, if_neg (by rw [herror]; exact fun h => h rfl),
    if_neg (Nat.not_lt.mpr hlarge), if_neg (of_decide_eq_false hremote), hextended, hmask, hslice]

theorem contentOf_remote {id remoteLength : ℕ} {extended : Bool}
    (hid : id < Content.idBound extended) (hbound : remoteLength ≤ 8) :
    contentOf host (structureOf canFrameSize (host.octets (rawIdOf id extended true))
      (UInt8.ofNat remoteLength) []) = some (.remote id extended remoteLength) := by
  obtain ⟨hraw, herror, hextended, hremote, hmask⟩ := rawIdOf_flags hid true
  obtain ⟨hlength, hoctets, hbyteAt, -⟩ :
      (structureOf canFrameSize (host.octets (rawIdOf id extended true))
        (UInt8.ofNat remoteLength) []).length = canFrameSize ∧ _ :=
    structureOf_reads (length_octets host _) (by decide)
  have hbyte : (UInt8.ofNat remoteLength).toNat = remoteLength :=
    UInt8.toNat_ofNat_of_lt (Nat.lt_of_le_of_lt hbound (by decide))
  have hlarge : ¬ (if canFrameSize = canFdFrameSize then 64 else 8) < remoteLength :=
    Nat.not_lt.mpr hbound
  generalize structureOf canFrameSize (host.octets (rawIdOf id extended true))
    (UInt8.ofNat remoteLength) [] = bytes at *
  unfold contentOf
  rw [hoctets, number_octets host hraw, hbyteAt, hbyte, hlength]
  dsimp only
  rw [if_neg (by decide), if_neg (by rw [herror]; exact fun h => h rfl), if_neg hlarge,
    if_pos (of_decide_eq_true hremote),
    if_neg (not_or.mpr ⟨fun h => h rfl, Nat.not_lt.mpr hbound⟩), hextended, hmask]

/-- What is encoded has a size of the kernel's, and holds the content. -/
theorem encode_contentOf (host : Endian) (frame : CanFrame)
    (h : frame.content.isError = false) :
    ∃ bytes, encodeSocketCanFrame host frame = some bytes ∧
      (bytes.length = canFrameSize ∨ bytes.length = canFdFrameSize) ∧
      contentOf host bytes = some frame.content := by
  have hwithin := frame.within
  cases hcontent : frame.content with
  | error errorFlags payload =>
    rw [hcontent] at h
    exact nomatch h
  | data id extended payload =>
    rw [hcontent] at hwithin
    obtain ⟨hid, hpayload⟩ := hwithin
    have hencoded := encodeSocketCanFrame_data host hcontent
    generalize hsize : (if 8 < payload.length then canFdFrameSize else canFrameSize) = size
      at hencoded
    have hkernel : (size = canFrameSize ∨ size = canFdFrameSize) ∧ 8 + payload.length ≤ size := by
      unfold canFrameSize canFdFrameSize at *
      split at hsize
      · omega
      · omega
    refine ⟨_, hencoded, ?_, contentOf_data hkernel.1 hkernel.2 hid⟩
    rw [(structureOf_reads (length_octets host _) hkernel.2).1]
    exact hkernel.1
  | remote id extended remoteLength =>
    rw [hcontent] at hwithin
    obtain ⟨hid, hbound⟩ := hwithin
    refine ⟨_, encodeSocketCanFrame_remote host hcontent, ?_, contentOf_remote hid hbound⟩
    exact Or.inl (structureOf_reads (length_octets host _) (by decide)).1

/-- What the provider makes of a structure. -/
theorem decode_of_contentOf (kinds : CanFrameKinds) {host : Endian} {bytes : List UInt8}
    {content : Content} (h : contentOf host bytes = some content) (bus : String) (timestamp : ℤ) :
    ∃ raw, decodeWireFrame kinds host bytes bus timestamp = .ok (some raw) ∧
      decodeSocketCanFrame kinds raw = some ⟨bus, content, timestamp, contentOf_within h⟩ := by
  refine ⟨content.wire kinds bus timestamp, ?_, decodeSocketCanFrame_wire _⟩
  rw [decodeWireFrame_ok, h]
  rfl

/-- Each frame that may be sent comes back with its content, and of whatever is received either
nothing is made or a frame within the bounds, which can be sent and comes back the same. Nothing
is ever read outside the octets. -/
theorem codec_agreement (kinds : CanFrameKinds) (host : Endian) :
    (∀ frame : CanFrame, frame.content.isError = false →
      ∃ bytes, encodeSocketCanFrame host frame = some bytes ∧
        (bytes.length = canFrameSize ∨ bytes.length = canFdFrameSize) ∧
        ∀ bus timestamp, ∃ raw,
          decodeWireFrame kinds host bytes bus timestamp = .ok (some raw) ∧
          ∃ same, decodeSocketCanFrame kinds raw = some ⟨bus, frame.content, timestamp, same⟩) ∧
    ∀ bytes bus timestamp, ∃ result,
      decodeWireFrame kinds host bytes bus timestamp = .ok result ∧
      ∀ raw ∈ result, ∃ frame : CanFrame, decodeSocketCanFrame kinds raw = some frame ∧
        frame.content.Within ∧
        (frame.content.isError = false → ∃ again, encodeSocketCanFrame host frame = some again ∧
          ∃ wire, decodeWireFrame kinds host again bus timestamp = .ok (some wire) ∧
            decodeSocketCanFrame kinds wire = some frame) := by
  constructor
  · intro frame hkind
    obtain ⟨bytes, hencoded, hsize, hcontent⟩ := encode_contentOf host frame hkind
    refine ⟨bytes, hencoded, hsize, fun bus timestamp => ?_⟩
    obtain ⟨raw, hraw, hframe⟩ := decode_of_contentOf kinds hcontent bus timestamp
    exact ⟨raw, hraw, _, hframe⟩
  · intro bytes bus timestamp
    refine ⟨_, decodeWireFrame_ok, fun raw hraw => ?_⟩
    obtain ⟨content, hcontent, rfl⟩ := Option.map_eq_some_iff.mp hraw
    have hwithin := contentOf_within hcontent
    refine ⟨⟨bus, content, timestamp, hwithin⟩, decodeSocketCanFrame_wire hwithin, hwithin,
      fun hkind => ?_⟩
    obtain ⟨again, hencoded, -, hsame⟩ :=
      encode_contentOf host ⟨bus, content, timestamp, hwithin⟩ hkind
    exact ⟨again, hencoded, decode_of_contentOf kinds hsame bus timestamp⟩

/-- An extended identifier beside a standard one. -/
example :
    (CanFrame.make "comfort" (.data 0x18daf110 true [1, 2]) 0).bind (encodeSocketCanFrame .little) =
      some [0x10, 0xf1, 0xda, 0x98, 2, 0, 0, 0, 1, 2, 0, 0, 0, 0, 0, 0] ∧
    (CanFrame.make "comfort" (.remote 0x7df false 8) 0).bind (encodeSocketCanFrame .little) =
      some [0xdf, 0x07, 0, 0x40, 8, 0, 0, 0, 0, 0, 0, 0, 0, 0, 0, 0] := by decide

end ProjectArgo.Can.SocketCan
