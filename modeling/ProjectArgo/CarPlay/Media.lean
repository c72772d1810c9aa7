import ProjectArgo.Library.Bytes

/-!
# Encoded video: descriptions and NAL inspection

The producer checks a stream description, the codec configuration record and
every access unit before anything is queued. No pixel data is decoded; only
the unit boundaries, types and counts matter.
-/
namespace ProjectArgo.CarPlay.Media

open Library.Bytes

def version : ℕ := 1
def headerSize : ℕ := 24
def configLimit : ℕ := 64 * 1024
def accessUnitLimit : ℕ := 4 * 1024 * 1024
def queueLimit : ℕ := 3
def nalLimit : ℕ := 1024

inductive Protocol where
  | androidAuto
  | carPlay
  deriving DecidableEq

inductive Plane where
  | main
  | cluster
  deriving DecidableEq

inductive Codec where
  | h264
  | h265
  deriving DecidableEq

inductive Colorimetry where
  | bt601
  | bt709
  deriving DecidableEq

inductive ColorRange where
  | limited
  | full
  deriving DecidableEq

inductive Framing where
  | annexB
  | lengthPrefixed
  deriving DecidableEq

def Protocol.code : Protocol → UInt8
  | .androidAuto => 1
  | .carPlay => 2

def Plane.code : Plane → UInt8
  | .main => 1
  | .cluster => 2

def Codec.code : Codec → UInt8
  | .h264 => 1
  | .h265 => 2

def Colorimetry.code : Colorimetry → UInt8
  | .bt601 => 1
  | .bt709 => 2

def ColorRange.code : ColorRange → UInt8
  | .limited => 1
  | .full => 2

def Framing.code : Framing → UInt8
  | .annexB => 1
  | .lengthPrefixed => 2

structure Description where
  protocol : Protocol
  plane : Plane
  codec : Codec
  colorimetry : Colorimetry
  range : ColorRange
  framing : Framing
  width : UInt16
  height : UInt16
  fpsNum : UInt16
  fpsDen : UInt16
  session : UInt64
  deriving DecidableEq

inductive Error where
  | invalidDescription
  | invalidConfiguration
  | invalidAccessUnit
  | timestamp
  | closed
  | alreadyServing
  | sequenceExhausted
  | timeout
  deriving DecidableEq

namespace Description

/-- The bounds `encode` checks. -/
def Valid (d : Description) : Prop :=
  d.session ≠ 0 ∧ d.width ≠ 0 ∧ d.width.toNat ≤ 1920 ∧ d.height ≠ 0 ∧ d.height.toNat ≤ 1080 ∧
    d.fpsDen ≠ 0 ∧ d.fpsDen.toNat ≤ 1001 ∧ d.fpsDen.toNat ≤ d.fpsNum.toNat ∧
    d.fpsNum.toNat ≤ 60 * d.fpsDen.toNat

instance (d : Description) : Decidable d.Valid :=
  inferInstanceAs (Decidable (_ ∧ _ ∧ _ ∧ _ ∧ _ ∧ _ ∧ _ ∧ _ ∧ _))

/-- The 24 bytes of a description; offsets 14 and 15 stay zero. -/
def wire (d : Description) : List UInt8 :=
  [d.protocol.code, d.plane.code, d.codec.code, d.colorimetry.code, d.range.code, d.framing.code] ++
    bigEndian 2 d.width.toNat ++ bigEndian 2 d.height.toNat ++ bigEndian 2 d.fpsNum.toNat ++
    bigEndian 2 d.fpsDen.toNat ++ [0, 0] ++ bigEndian 8 d.session.toNat

def encode (d : Description) : Except Error (List UInt8) :=
  if ¬d.Valid then .error .invalidDescription else .ok d.wire

end Description

def nalType (bytes : List UInt8) (codec : Codec) : Option UInt8 :=
  if bytes = [] ∨ bytes.getD 0 0 &&& 0x80 ≠ 0 then none
  else
    match codec with
    | .h264 =>
      let kind := bytes.getD 0 0 &&& 31
      if kind > 0 ∧ kind < 24 then some kind else none
    | .h265 =>
      if bytes.length ≥ 2 ∧ bytes.getD 1 0 &&& 7 ≠ 0 then
        let kind := (bytes.getD 0 0 >>> 1) &&& 63
        if kind < 48 then some kind else none
      else none

def parameterBit : Codec → UInt8 → UInt8
  | .h264, 7 | .h265, 32 => 1
  | .h264, 8 | .h265, 33 => 2
  | .h265, 34 => 4
  | _, _ => 0

def startCode (bytes : List UInt8) : Option ℕ :=
  if [0, 0, 1].isPrefixOf bytes then some 3
  else if [0, 0, 0, 1].isPrefixOf bytes then some 4
  else none

/-- The first position where a start code stands, or the end. -/
def nalEnd : List UInt8 → ℕ
  | [] => 0
  | b :: rest => if (startCode (b :: rest)).isSome then 0 else nalEnd rest + 1

structure Nals where
  parameters : UInt8
  keyframe : Bool
  picture : Bool
  deriving DecidableEq

/-- The front unit of a byte string and what follows it. -/
def splitNal (framing : Framing) (length : ℕ) (bytes : List UInt8) :
    Option (List UInt8 × List UInt8) :=
  match framing with
  | .annexB =>
    match startCode bytes with
    | none => none
    | some code =>
      let bytes := bytes.drop code
      let size := nalEnd bytes
      if size ≤ bytes.length then some (bytes.take size, bytes.drop size) else none
  | .lengthPrefixed =>
    if length ∉ [1, 2, 4] ∨ bytes.length < length then none
    else
      let size := ofBigEndian (bytes.take length)
      let bytes := bytes.drop length
      if size ≤ bytes.length then some (bytes.take size, bytes.drop size) else none

/-- What one unit of type `kind` adds to the summary. -/
def Nals.note (codec : Codec) (kind : UInt8) (result : Nals) : Nals :=
  { parameters := result.parameters ||| parameterBit codec kind
    keyframe := result.keyframe || match codec with
      | .h264 => kind == 5
      | .h265 => decide (16 ≤ kind ∧ kind ≤ 21)
    picture := result.picture || match codec with
      | .h264 => decide (1 ≤ kind ∧ kind ≤ 5)
      | .h265 => decide (kind ≤ 31) }

/-- The loop of `inspectNals`; `budget` is how many more units it accepts. -/
def inspectUpTo (codec : Codec) (framing : Framing) (length : ℕ) (config : Bool) :
    ℕ → Nals → List UInt8 → Option Nals
  | 0, result, bytes => if bytes = [] then some result else none
  | budget + 1, result, bytes =>
    if bytes = [] then some result
    else
      match splitNal framing length bytes with
      | none => none
      | some (nal, rest) =>
        match nalType nal codec with
        | none => none
        | some kind =>
          if config ∧ parameterBit codec kind = 0 then none
          else inspectUpTo codec framing length config budget (result.note codec kind) rest

/-- The parameter sets a configuration must contain. -/
def allParameters : Codec → UInt8
  | .h264 => 3
  | .h265 => 7

def inspectNals (bytes : List UInt8) (codec : Codec) (framing : Framing) (length : ℕ)
    (config : Bool) : Option Nals :=
  match inspectUpTo codec framing length config nalLimit ⟨0, false, false⟩ bytes with
  | none => none
  | some result =>
    if bytes = [] then none
    else if config ∧ result.parameters ≠ allParameters codec then none
    else some result

structure ConfigReader where
  offset : ℕ
  count : ℕ
  parameters : UInt8
  deriving DecidableEq

namespace ConfigReader

def byte (r : ConfigReader) (bytes : List UInt8) : Option (UInt8 × ConfigReader) :=
  match bytes[r.offset]? with
  | none => none
  | some value => some (value, { r with offset := r.offset + 1 })

def word (r : ConfigReader) (bytes : List UInt8) : Option (ℕ × ConfigReader) :=
  match r.byte bytes with
  | none => none
  | some (high, r) =>
    match r.byte bytes with
    | none => none
    | some (low, r) => some (high.toNat * 256 + low.toNat, r)

/-- The loop of `nals` over `count` parameter sets of one type. -/
def nals (bytes : List UInt8) (codec : Codec) (expectedType : UInt8) :
    ℕ → ConfigReader → Option ConfigReader
  | 0, r => some r
  | n + 1, r =>
    let r := { r with count := r.count + 1 }
    if r.count > nalLimit then none
    else
      match r.word bytes with
      | none => none
      | some (size, r) =>
        if r.offset + size > bytes.length then none
        else
          match nalType (slice bytes r.offset (r.offset + size)) codec with
          | none => none
          | some kind =>
            if kind ≠ expectedType then none
            else
              nals bytes codec expectedType n
                { r with
                  parameters := r.parameters ||| parameterBit codec kind
                  offset := r.offset + size }

/-- The optional high-profile tail of an AVC record. -/
def extension (bytes : List UInt8) (r : ConfigReader) : Option ConfigReader :=
  if r.offset < bytes.length then
    if bytes.getD 1 0 ∉ [100, 110, 122, 144] then none
    else
      match r.byte bytes with
      | none => none
      | some (chroma, r) =>
        if chroma &&& 0xfc ≠ 0xfc then none
        else
          match r.byte bytes with
          | none => none
          | some (luma, r) =>
            if luma &&& 0xf8 ≠ 0xf8 then none
            else
              match r.byte bytes with
              | none => none
              | some (depth, r) =>
                if depth &&& 0xf8 ≠ 0xf8 then none
                else
                  match r.byte bytes with
                  | none => none
                  | some (count, r) => nals bytes .h264 13 count.toNat r
  else some r

def avc (bytes : List UInt8) (r : ConfigReader) : Option ConfigReader :=
  if bytes.getD 4 0 &&& 0xfc ≠ 0xfc ∨ bytes.getD 5 0 &&& 0xe0 ≠ 0xe0 then none
  else
    match nals bytes .h264 7 (bytes.getD 5 0 &&& 31).toNat r with
    | none => none
    | some r =>
      match r.byte bytes with
      | none => none
      | some (count, r) =>
        match nals bytes .h264 8 count.toNat r with
        | none => none
        | some r => r.extension bytes

/-- The loop over the parameter arrays of an HEVC record. -/
def hevc (bytes : List UInt8) : ℕ → ConfigReader → Option ConfigReader
  | 0, r => some r
  | n + 1, r =>
    match r.byte bytes with
    | none => none
    | some (kind, r) =>
      if kind &&& 0x40 ≠ 0 then none
      else
        match r.word bytes with
        | none => none
        | some (count, r) =>
          match nals bytes .h265 (kind &&& 63) count r with
          | none => none
          | some r => hevc bytes n r

end ConfigReader

/-- The width of the length prefix a configuration record announces; zero for start codes. -/
def configuration (bytes : List UInt8) (codec : Codec) (framing : Framing) : Option ℕ :=
  if bytes = [] ∨ bytes.length > configLimit then none
  else
    match framing with
    | .annexB => (inspectNals bytes codec framing 0 true).map fun _ => 0
    | .lengthPrefixed =>
      let minimum := match codec with | .h264 => 7 | .h265 => 23
      if bytes.length < minimum ∨ bytes.getD 0 0 ≠ 1 then none
      else
        let length := (bytes.getD (match codec with | .h264 => 4 | .h265 => 21) 0 &&& 3).toNat + 1
        if length = 3 then none
        else
          let read := match codec with
            | .h264 => ConfigReader.avc bytes ⟨6, 0, 0⟩
            | .h265 => ConfigReader.hevc bytes (bytes.getD 22 0).toNat ⟨23, 0, 0⟩
          match read with
          | none => none
          | some r =>
            if r.offset = bytes.length ∧ r.parameters = allParameters codec then some length
            else none

end ProjectArgo.CarPlay.Media
