import Mathlib
import ProjectArgo.Library.Protobuf

/-!
# Media and phone metadata of an Android Auto session

A bounded reader turns four optional messages into updates: the track, the
playback state, the phone's names and its battery. A message that is no valid
update is an error with a text; the caller decides whether that ends anything.
-/
namespace ProjectArgo.Projection.Metadata

open Library.Protobuf

/-- `metadata::CHANNEL`, the media status service. -/
def channel : ℕ := 10

/-- `artwork::MAX_BYTES`. -/
def artworkMaxBytes : ℕ := 1024 * 1024

/-- `metadata::Update`. -/
inductive Update
  | track (title artist album : Option String) (artwork : Option (List UInt8))
      (durationMs : Option ℕ)
  | playback (state : Option ℕ) (application : Option String) (positionMs : Option ℕ)
  | phone (name manufacturer : Option String)
  | battery (level : Option ℕ) (critical : Option Bool)
  deriving DecidableEq

/-- The texts of `metadata::fields`. -/
def fieldsError : Malformed → String
  | .truncatedVarint => "truncated field"
  | .overflow => "integer overflow"
  | .fieldLimit => "field limit"
  | .tag => "invalid tag"
  | .wireType => "unsupported wire type"
  | .truncatedField => "truncated bytes"

/-- The last content of every field. -/
abbrev Fields := Std.ExtTreeMap ℕ Payload

def fields (input : List UInt8) : Except String Fields :=
  if 4 * 1024 * 1024 < input.length then .error "metadata size limit"
  else match read 1024 input with
    | .error malformed => .error (fieldsError malformed)
    | .ok message => .ok (message.foldl (fun fields field => fields.insert field.1 field.2) ∅)

/-- The Unicode property White_Space. -/
def isWhiteSpace (c : Char) : Bool :=
  let code := c.toNat
  (9 ≤ code && code ≤ 13) || code == 32 || code == 0x85 || code == 0xa0 || code == 0x1680 ||
    (0x2000 ≤ code && code ≤ 0x200a) || code == 0x2028 || code == 0x2029 || code == 0x202f ||
    code == 0x205f || code == 0x3000

def trim (text : String) : String :=
  String.ofList ((((text.toList.dropWhile isWhiteSpace).reverse).dropWhile isWhiteSpace).reverse)

/-- An optional text of at most 1024 octets; one of white space only counts as missing. -/
def text (fields : Fields) (key : ℕ) : Except String (Option String) :=
  match fields[key]? with
  | none => .ok none
  | some (.bytes data) =>
    if 1024 < data.length then .error "invalid or oversized text"
    else match String.fromUTF8? ⟨data.toArray⟩ with
      | none => .error "invalid UTF-8"
      | some text =>
        if text.toList.contains (Char.ofNat 0) then .error "NUL in text"
        else .ok (if trim text = "" then none else some (trim text))
  | some _ => .error "invalid or oversized text"

def number (fields : Fields) (key : ℕ) : Except String (Option ℕ) :=
  match fields[key]? with
  | none => .ok none
  | some (.number value) => .ok (some value)
  | some _ => .error "invalid number"

/-- The artwork of a track; one too large counts as missing. -/
def artwork (fields : Fields) : Option (List UInt8) :=
  match fields[(4 : ℕ)]? with
  | some (.bytes data) => if data.length ≤ artworkMaxBytes then some data else none
  | _ => none

def parseTrack (fields : Fields) : Except String Update := do
  let title ← text fields 1
  let artist ← text fields 2
  let album ← text fields 3
  let duration ← number fields 6
  let durationMs := (duration.filter (· < 2 ^ 32)).map (· * 1000)
  return .track title artist album (artwork fields) durationMs

def parsePlayback (fields : Fields) : Except String Update := do
  let state ← number fields 1
  let position ← number fields 3
  if state.any (4 < ·) || position.any (2 ^ 32 ≤ ·) then .error "invalid playback value"
  else do
    let application ← text fields 2
    return .playback state application (position.map (· * 1000))

def parsePhone (fields : Fields) : Except String Update := do
  let name ← text fields 4
  let manufacturer ← text fields 5
  return .phone name manufacturer

def parseBattery (fields : Fields) : Except String Update := do
  let level ← number fields 1
  let critical ← number fields 3
  if level.any (100 < ·) || critical.any (1 < ·) then .error "invalid battery value"
  else return .battery level (critical.map (· == 1))

def parse (channel id : ℕ) (body : List UInt8) : Except String Update := do
  let fields ← fields body
  match channel, id with
  | 10, 0x8003 => parseTrack fields
  | 10, 0x8001 => parsePlayback fields
  | 0, 5 => parsePhone fields
  | 0, 23 => parseBattery fields
  | _, _ => .error "unsupported metadata message"

end ProjectArgo.Projection.Metadata
