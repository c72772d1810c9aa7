import ProjectArgo.CarPlay.Media

/-!
# The consumer's validator of the media socket

The view process checks every record on its own, with offsets into one buffer
where the producer consumes slices. The enumerations of a description are
numbered the same way on both sides, so the two models share those types.
-/
namespace ProjectArgo.View

open Library.Bytes
open CarPlay.Media (Codec Framing Description)

def kHeaderSize : ℕ := 24
def kDescriptionSize : ℕ := 24
def kConfigLimit : ℕ := 64 * 1024
def kAccessUnitLimit : ℕ := 4 * 1024 * 1024
def kNalLimit : ℕ := 1024

def u16 (bytes : List UInt8) (i : ℕ) : ℕ :=
  (bytes.getD i 0).toNat * 2 ^ 8 + (bytes.getD (i + 1) 0).toNat

def u32 (bytes : List UInt8) (i : ℕ) : ℕ := u16 bytes i * 2 ^ 16 + u16 bytes (i + 2)

def u64 (bytes : List UInt8) (i : ℕ) : ℕ := u32 bytes i * 2 ^ 32 + u32 bytes (i + 4)

/-- Enumerations are closed and numbered 1 and 2. -/
def decodeEnum {α : Type} (first second : α) (code : UInt8) : α :=
  if code = 1 then first else second

def parseDescription (bytes : List UInt8) : Option Description :=
  if bytes.length ≠ kDescriptionSize then none
  else if (bytes.take 6).any (fun b => b < 1 || b > 2) then none
  else
    let d : Description :=
      { protocol := decodeEnum .androidAuto .carPlay (bytes.getD 0 0)
        plane := decodeEnum .main .cluster (bytes.getD 1 0)
        codec := decodeEnum .h264 .h265 (bytes.getD 2 0)
        colorimetry := decodeEnum .bt601 .bt709 (bytes.getD 3 0)
        range := decodeEnum .limited .full (bytes.getD 4 0)
        framing := decodeEnum .annexB .lengthPrefixed (bytes.getD 5 0)
        width := UInt16.ofNat (u16 bytes 6)
        height := UInt16.ofNat (u16 bytes 8)
        fpsNum := UInt16.ofNat (u16 bytes 10)
        fpsDen := UInt16.ofNat (u16 bytes 12)
        session := UInt64.ofNat (u64 bytes 16) }
    if u16 bytes 14 ≠ 0 ∨ d.session = 0 ∨ d.width = 0 ∨ d.width.toNat > 1920 ∨ d.height = 0 ∨
        d.height.toNat > 1080 ∨ d.fpsDen = 0 ∨ d.fpsDen.toNat > 1001 ∨
        d.fpsNum.toNat < d.fpsDen.toNat ∨ d.fpsNum.toNat > 60 * d.fpsDen.toNat then none
    else some d

inductive Kind where
  | description
  | config
  | accessUnit
  deriving DecidableEq

structure Header where
  kind : Kind
  flags : UInt8
  size : ℕ
  sequence : ℕ
  timestamp : ℕ
  deriving DecidableEq

/-- Validate allocation limits before any payload is read. -/
def parseHeader (bytes : List UInt8) : Option Header :=
  if bytes.length ≠ kHeaderSize then none
  else if bytes.getD 0 0 ≠ 0x41 ∨ bytes.getD 1 0 ≠ 0x52 ∨ bytes.getD 2 0 ≠ 0x50 ∨
      bytes.getD 3 0 ≠ 0x4d ∨ u16 bytes 4 ≠ 1 ∨ bytes.getD 6 0 < 1 ∨ bytes.getD 6 0 > 3 then none
  else
    let kind : Kind :=
      if bytes.getD 6 0 = 1 then .description else if bytes.getD 6 0 = 2 then .config
      else .accessUnit
    let h : Header := ⟨kind, bytes.getD 7 0, u32 bytes 8, u32 bytes 12, u64 bytes 16⟩
    match h.kind with
    | .accessUnit =>
      if h.flags &&& ~~~3 ≠ 0 ∨ h.size = 0 ∨ h.size > kAccessUnitLimit ∨
          h.timestamp = 2 ^ 64 - 1 then none
      else some h
    | .description =>
      if h.flags ≠ 0 ∨ h.timestamp ≠ 0 then none
      else if h.size ≠ kDescriptionSize then none
      else some h
    | .config =>
      if h.flags ≠ 0 ∨ h.timestamp ≠ 0 then none
      else if h.size = 0 ∨ h.size > kConfigLimit then none
      else some h

/-- Length of the start code at offset `i`, zero when there is none. -/
def startCode (bytes : List UInt8) (i : ℕ) : ℕ :=
  if i + 3 > bytes.length ∨ bytes.getD i 0 ≠ 0 ∨ bytes.getD (i + 1) 0 ≠ 0 then 0
  else if bytes.getD (i + 2) 0 = 1 then 3
  else if i + 4 ≤ bytes.length ∧ bytes.getD (i + 2) 0 = 0 ∧ bytes.getD (i + 3) 0 = 1 then 4
  else 0

def nalType (nal : List UInt8) (codec : Codec) : Option UInt8 :=
  if nal = [] ∨ nal.getD 0 0 &&& 0x80 ≠ 0 then none
  else if codec = .h264 then
    let type := nal.getD 0 0 &&& 0x1f
    if type ≠ 0 ∧ type < 24 then some type else none
  else if nal.length < 2 ∨ nal.getD 1 0 &&& 7 = 0 then none
  else
    let type := (nal.getD 0 0 >>> 1) &&& 0x3f
    if type < 48 then some type else none

def parameterBit (codec : Codec) (type : UInt8) : UInt8 :=
  if codec = .h264 then if type = 7 then 1 else if type = 8 then 2 else 0
  else if type = 32 then 1 else if type = 33 then 2 else if type = 34 then 4 else 0

/-- The loop that looks for the next start code from offset `last` on. -/
def scan (bytes : List UInt8) (last : ℕ) : ℕ :=
  if last < bytes.length ∧ startCode bytes last = 0 then scan bytes (last + 1) else last
termination_by bytes.length - last

/-- Offset and size of the unit that starts at `offset`. -/
def locateNal (bytes : List UInt8) (framing : Framing) (lengthBytes offset : ℕ) : Option (ℕ × ℕ) :=
  if framing = .annexB then
    let start := startCode bytes offset
    if start = 0 then none
    else
      let offset := offset + start
      some (offset, scan bytes offset - offset)
  else if lengthBytes < 1 ∨ lengthBytes > 4 ∨ bytes.length - offset < lengthBytes then none
  else
    let size := ofBigEndian (slice bytes offset (offset + lengthBytes))
    let offset := offset + lengthBytes
    if size > bytes.length - offset then none else some (offset, size)

/-- The loop of `inspectNals`: the parameter sets seen, unless a unit is refused. -/
def inspectUpTo (bytes : List UInt8) (codec : Codec) (framing : Framing) (lengthBytes : ℕ)
    (config : Bool) : ℕ → ℕ → UInt8 → Option UInt8
  | 0, offset, parameters => if offset < bytes.length then none else some parameters
  | budget + 1, offset, parameters =>
    if offset < bytes.length then
      match locateNal bytes framing lengthBytes offset with
      | none => none
      | some (offset, size) =>
        match nalType (slice bytes offset (offset + size)) codec with
        | none => none
        | some type =>
          let bit := parameterBit codec type
          if config ∧ bit = 0 then none
          else
            inspectUpTo bytes codec framing lengthBytes config budget (offset + size)
              (parameters ||| bit)
    else some parameters

def allParameters (codec : Codec) : UInt8 := if codec = .h264 then 3 else 7

def inspectNals (bytes : List UInt8) (codec : Codec) (framing : Framing) (lengthBytes : ℕ)
    (config : Bool) : Bool :=
  match inspectUpTo bytes codec framing lengthBytes config kNalLimit 0 0 with
  | none => false
  | some parameters => bytes ≠ [] && (!config || parameters == allParameters codec)

/-- Offset, unit count and parameter sets while a configuration record is read. -/
structure ConfigState where
  offset : ℕ
  count : ℕ
  parameters : UInt8
  deriving DecidableEq

/-- The `take` loop over `nals` parameter sets. -/
def take (bytes : List UInt8) (codec : Codec) (expectedType : UInt8) :
    ℕ → ConfigState → Option ConfigState
  | 0, c => some c
  | nals + 1, c =>
    let count := c.count + 1
    if count > kNalLimit ∨ bytes.length - c.offset < 2 then none
    else
      let size := u16 bytes c.offset
      let offset := c.offset + 2
      if size > bytes.length - offset then none
      else
        match nalType (slice bytes offset (offset + size)) codec with
        | none => none
        | some type =>
          if type ≠ expectedType then none
          else
            take bytes codec expectedType nals
              ⟨offset + size, count, c.parameters ||| parameterBit codec type⟩

def parseExtension (bytes : List UInt8) (c : ConfigState) : Option ConfigState :=
  if c.offset < bytes.length then
    let profile := bytes.getD 1 0
    if (profile ≠ 100 ∧ profile ≠ 110 ∧ profile ≠ 122 ∧ profile ≠ 144) ∨
        bytes.length - c.offset < 4 ∨ bytes.getD c.offset 0 &&& 0xfc ≠ 0xfc ∨
        bytes.getD (c.offset + 1) 0 &&& 0xf8 ≠ 0xf8 ∨
        bytes.getD (c.offset + 2) 0 &&& 0xf8 ≠ 0xf8 then none
    else
      take bytes .h264 13 (bytes.getD (c.offset + 3) 0).toNat { c with offset := c.offset + 4 }
  else some c

def parseAvc (bytes : List UInt8) (c : ConfigState) : Option ConfigState :=
  match take bytes .h264 7 (bytes.getD 5 0 &&& 31).toNat c with
  | none => none
  | some c =>
    if c.offset = bytes.length then none
    else
      match take bytes .h264 8 (bytes.getD c.offset 0).toNat { c with offset := c.offset + 1 } with
      | none => none
      | some c => parseExtension bytes c

def parseHevc (bytes : List UInt8) : ℕ → ConfigState → Option ConfigState
  | 0, c => some c
  | arrays + 1, c =>
    if bytes.length - c.offset < 3 ∨ bytes.getD c.offset 0 &&& 0x40 ≠ 0 then none
    else
      let type := bytes.getD c.offset 0 &&& 0x3f
      match take bytes .h265 type (u16 bytes (c.offset + 1)) { c with offset := c.offset + 3 } with
      | none => none
      | some c => parseHevc bytes arrays c

/-- The length-prefix width of a well-formed configuration record. -/
def parseCodecConfig (bytes : List UInt8) (codec : Codec) : Option ℕ :=
  let minimum := if codec = .h264 then 7 else 23
  if bytes.length < minimum ∨ bytes.getD 0 0 ≠ 1 then none
  else
    let read := if codec = .h264 then
        if bytes.getD 4 0 &&& 0xfc ≠ 0xfc ∨ bytes.getD 5 0 &&& 0xe0 ≠ 0xe0 then none
        else
          let lengthBytes := (bytes.getD 4 0 &&& 3).toNat + 1
          if lengthBytes = 3 then none
          else (parseAvc bytes ⟨6, 0, 0⟩).map fun c => (lengthBytes, c)
      else
        let lengthBytes := (bytes.getD 21 0 &&& 3).toNat + 1
        if lengthBytes = 3 then none
        else (parseHevc bytes (bytes.getD 22 0).toNat ⟨23, 0, 0⟩).map fun c => (lengthBytes, c)
    match read with
    | none => none
    | some (lengthBytes, c) =>
      if c.offset = bytes.length ∧ c.parameters = allParameters codec then some lengthBytes
      else none

structure Validator where
  expected : Description
  nextSequence : ℕ
  lengthBytes : ℕ
  lastTimestamp : ℕ
  described : Bool
  configured : Bool
  seenFrame : Bool
  exhausted : Bool
  failed : Bool
  deriving DecidableEq

namespace Validator

def start (expected : Description) : Validator :=
  ⟨expected, 0, 0, 0, false, false, false, false, false⟩

def fail (v : Validator) : Validator × Bool := ({ v with failed := true }, false)

/-- The kind-specific part of `accept`: the state that takes the record, if it may. -/
def judge (v : Validator) (h : Header) (payload : List UInt8) : Option Validator :=
  if ¬v.described then
    if h.kind ≠ .description ∨ parseDescription payload ≠ some v.expected then none
    else some { v with described := true }
  else if h.kind = .config then
    if v.configured ∨ v.seenFrame then none
    else if v.expected.framing = .annexB then
      if ¬inspectNals payload v.expected.codec v.expected.framing 0 true then none
      else some { v with configured := true }
    else
      match parseCodecConfig payload v.expected.codec with
      | none => none
      | some lengthBytes => some { v with configured := true, lengthBytes := lengthBytes }
  else if h.kind = .accessUnit then
    if ¬v.configured ∨ ((¬v.seenFrame ∨ h.flags &&& 2 ≠ 0) ∧ h.flags &&& 1 = 0) ∨
        (v.seenFrame ∧ h.timestamp < v.lastTimestamp) ∨
        ¬inspectNals payload v.expected.codec v.expected.framing v.lengthBytes false then none
    else some { v with seenFrame := true, lastTimestamp := h.timestamp }
  else none

def accept (v : Validator) (h : Header) (payload : List UInt8) : Validator × Bool :=
  if v.failed ∨ v.exhausted ∨ h.sequence ≠ v.nextSequence ∨ payload.length ≠ h.size then v.fail
  else
    match v.judge h payload with
    | none => v.fail
    | some next =>
      ({ next with
          exhausted := v.nextSequence = 2 ^ 32 - 1
          nextSequence := (v.nextSequence + 1) % 2 ^ 32 }, true)

end Validator

end ProjectArgo.View
