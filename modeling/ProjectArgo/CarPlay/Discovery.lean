import ProjectArgo.CarPlay.ControlDecoder

/-!
# Discovery of the accessory

The accessory is asked for by name on the local network, and an answer is a datagram with questions
and records. A name in it is a sequence of labels that can end by pointing to another place of the
datagram, where it goes on. Strings are the octets that they are stored as.
-/
namespace ProjectArgo.CarPlay.Discovery

open Library.Bytes

def LINK_NAME : List UInt8 := utf8 "livi-link.local"
def QUERY_ID : ℕ := 0x4152

/-- The code would stop here with an index out of bounds. -/
inductive Panic
  | index
  deriving DecidableEq

structure Ipv4Addr where
  a : UInt8
  b : UInt8
  c : UInt8
  d : UInt8
  deriving DecidableEq

namespace Ipv4Addr

def is_unspecified (address : Ipv4Addr) : Bool := address == ⟨0, 0, 0, 0⟩
def is_multicast (address : Ipv4Addr) : Bool := 224 ≤ address.a && address.a ≤ 239
def is_loopback (address : Ipv4Addr) : Bool := address.a == 127
def is_broadcast (address : Ipv4Addr) : Bool := address == ⟨255, 255, 255, 255⟩

end Ipv4Addr

/-! ## Reading -/

/-- A range of the datagram, if it lies inside. -/
def get (data : List UInt8) (first size : ℕ) : Option (List UInt8) :=
  if first + size ≤ data.length then some (slice data first (first + size)) else none

def word (data : List UInt8) (index : ℕ) : Option ℕ := (get data index 2).map ofBigEndian

/-- An octet of a value that was read before. -/
def octet (value : List UInt8) (index : ℕ) : Except Panic UInt8 :=
  match value[index]? with
  | some octet => .ok octet
  | none => .error .index

def from_utf8 (bytes : List UInt8) : Option (List UInt8) :=
  if ByteArray.IsValidUTF8 ⟨bytes.toArray⟩ then some bytes else none

def is_ascii (text : List UInt8) : Bool := text.all (· < 128)
def to_ascii_lowercase (text : List UInt8) : List UInt8 := text.map Ascii.toLower

/-- The strings with a dot between each two. -/
def join : List (List UInt8) → List UInt8
  | [] => []
  | [label] => label
  | label :: labels => label ++ 46 :: join labels

/-- The loop of `name`, for a number of turns. It gives the name and the place behind it, which is
the one behind the first pointer, where a pointer was followed. -/
def name.go (data : List UInt8) : ℕ → ℕ → ℕ → Bool → List (List UInt8) → ℕ →
    Option (List UInt8 × ℕ)
  | 0, _, _, _, _, _ => none
  | turns + 1, position, offset, followed, labels, bytes => do
    let size := (← data[position]?).toNat
    let position := position + 1
    if size &&& 0xc0 = 0xc0 then
      let destination := (size &&& 0x3f) <<< 8 ||| (← data[position]?).toNat
      if followed then name.go data turns destination offset followed labels bytes
      else name.go data turns destination (position + 1) true labels bytes
    else if 63 < size then none
    else if size = 0 then some (join labels, if followed then offset else position)
    else
      let bytes := bytes + (size + 1)
      if 254 < bytes then none
      else
        let label ← from_utf8 (← get data position size)
        if ¬is_ascii label then none
        else
          name.go data turns (position + size) offset followed
            (labels ++ [to_ascii_lowercase label]) bytes

def name (data : List UInt8) (offset : ℕ) : Option (List UInt8 × ℕ) :=
  name.go data 32 offset offset false [] 0

/-! ## The answer -/

/-- The place behind the questions. -/
def questions (data : List UInt8) : ℕ → ℕ → Option ℕ
  | 0, offset => some offset
  | count + 1, offset => do
    let (_, offset) ← name data offset
    questions data count (offset + 4)

/-- What is read of a record. -/
structure Head where
  record_name : List UInt8
  kind : ℕ
  class_ : ℕ
  ttl : ℕ
  length : ℕ
  value : List UInt8
  next : ℕ
  deriving DecidableEq

def head (data : List UInt8) (offset : ℕ) : Option Head := do
  let (record_name, offset) ← name data offset
  let kind ← word data offset
  let class_ := (← word data (offset + 2)) &&& 0x7fff
  let ttl := ofBigEndian (← get data (offset + 4) 4)
  let length ← word data (offset + 8)
  let offset := offset + 10
  let value ← get data offset length
  some ⟨record_name, kind, class_, ttl, length, value, offset + length⟩

def records (data : List UInt8) : ℕ → ℕ → Except Panic (Option Ipv4Addr)
  | 0, _ => .ok none
  | count + 1, offset =>
    match head data offset with
    | none => .ok none
    | some record => do
      if record.record_name = LINK_NAME ∧ record.kind = 1 ∧ record.class_ = 1 ∧
          record.length = 4 ∧ record.ttl ≠ 0 then
        let address := Ipv4Addr.mk (← octet record.value 0) (← octet record.value 1)
          (← octet record.value 2) (← octet record.value 3)
        if ¬address.is_unspecified ∧ ¬address.is_multicast ∧ ¬address.is_loopback ∧
            ¬address.is_broadcast then
          return some address
      records data count record.next

/-- How many questions and records are announced, if the datagram is an answer to the query and
keeps the limits. -/
def counts (data : List UInt8) : Option (ℕ × ℕ) := do
  if data.length < 12 then none
  else if (← word data 0) ≠ QUERY_ID then none
  else if (← word data 2) &&& 0xf80f ≠ 0x8000 then none
  else
    let questions ← word data 4
    let records := (← word data 6) + (← word data 8) + (← word data 10)
    if 16 < questions ∨ 64 < records then none else some (questions, records)

def parse_answer (data : List UInt8) : Except Panic (Option Ipv4Addr) :=
  match (do
    let (questionCount, recordCount) ← counts data
    let offset ← questions data questionCount 12
    some (recordCount, offset)) with
  | none => .ok none
  | some (recordCount, offset) => records data recordCount offset

end ProjectArgo.CarPlay.Discovery
