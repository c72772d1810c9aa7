import Mathlib
import ProjectArgo.Projection.Metadata
import ProjectArgo.Projection.Proto

/-!
# Two readers of one wire format

`numbers` reads the integer fields of a message, and the metadata reader all its fields.
Each has a loop of its own over 64-bit words and the rest of the input. Both refine the
reader of `Library.Protobuf`, so they accept the same octets and find the same integers.
-/
namespace ProjectArgo.Projection

open Library.Protobuf

namespace WireReaders

/-! ## Integers of 64 bits -/

/-- The texts of a reader of integers. -/
structure VarintTexts where
  truncated : String
  overflow : String

/-- The loop over the shifts that are left, with the bits read so far. -/
def readShifts (texts : VarintTexts) :
    List ℕ → UInt64 → List UInt8 → Except String (UInt64 × List UInt8)
  | [], _, _ => .error texts.overflow
  | _ :: _, _, [] => .error texts.truncated
  | shift :: shifts, value, byte :: rest =>
    if shift = 63 ∧ 1 < byte then .error texts.overflow
    else
      let value := value ||| ((byte &&& 127).toUInt64 <<< UInt64.ofNat shift)
      if byte < 128 then .ok (value, rest) else readShifts texts shifts value rest

/-- `(0..70).step_by(7)`. -/
def shifts : List ℕ := List.range' 0 10 7

/-- The integers of `numbers`. -/
def var (bytes : List UInt8) : Except String (UInt64 × List UInt8) :=
  readShifts ⟨"truncated protobuf varint", "protobuf integer overflow"⟩ shifts 0 bytes

/-- The integers of `metadata::fields`. -/
def varint (input : List UInt8) : Except String (UInt64 × List UInt8) :=
  readShifts ⟨"truncated field", "integer overflow"⟩ shifts 0 input

def VarintTexts.of (texts : VarintTexts) : Malformed → String
  | .truncatedVarint => texts.truncated
  | _ => texts.overflow

/-- Seven more bits above those that were read. -/
theorem toNat_group {value : UInt64} {byte : UInt8} {shift : ℕ} (hshift : shift ≤ 63)
    (hvalue : value.toNat < 2 ^ shift) (hroom : byte.toNat % 128 * 2 ^ shift < 2 ^ 64) :
    (value ||| ((byte &&& 127).toUInt64 <<< UInt64.ofNat shift)).toNat =
      value.toNat + byte.toNat % 128 * 2 ^ shift := by
  have hmask : (byte &&& 127).toNat = byte.toNat % 128 := by
    rw [UInt8.toNat_and]
    exact Nat.and_two_pow_sub_one_eq_mod byte.toNat 7
  have hword : (UInt64.ofNat shift).toNat % 64 = shift := by
    rw [UInt64.toNat_ofNat']
    omega
  have hshifted : ((byte &&& 127).toUInt64 <<< UInt64.ofNat shift).toNat =
      (byte.toNat % 128) <<< shift := by
    rw [UInt64.toNat_shiftLeft, hword, UInt8.toNat_toUInt64, hmask, Nat.mod_eq_of_lt]
    rwa [Nat.shiftLeft_eq]
  rw [UInt64.toNat_or, hshifted, Nat.or_comm, ← Nat.shiftLeft_add_eq_or_of_lt hvalue,
    Nat.shiftLeft_eq, Nat.add_comm]

/-- The loop over words reads what the wire format says, with its own texts. -/
theorem readShifts_eq (texts : VarintTexts) {groups shift : ℕ} {value : UInt64}
    (bytes : List UInt8) (hshift : shift + 7 * groups = 70) (hvalue : value.toNat < 2 ^ shift) :
    readShifts texts (List.range' shift groups 7) value bytes =
      match readVarintFrom groups shift value.toNat bytes with
      | .error malformed => .error (texts.of malformed)
      | .ok (n, rest) => .ok (UInt64.ofNat n, rest) := by
  induction groups generalizing shift value bytes with
  | zero => rfl
  | succ groups ih =>
    rw [List.range'_succ]
    cases bytes with
    | nil => rfl
    | cons byte rest =>
      have hone : 1 < byte ↔ 1 < byte.toNat := UInt8.lt_iff_toNat_lt
      have hmark : byte < 128 ↔ byte.toNat < 128 := UInt8.lt_iff_toNat_lt
      rw [readShifts, readVarintFrom]
      simp only [hone, hmark]
      split
      · rfl
      · rename_i htop
        have hroom : byte.toNat % 128 * 2 ^ shift < 2 ^ 64 := by
          by_cases hlast : shift = 63
          · subst hlast
            omega
          · have hle : 2 ^ (shift + 7) ≤ 2 ^ 63 := Nat.pow_le_pow_right (by omega) (by omega)
            have hlt : byte.toNat % 128 < 2 ^ 7 := Nat.mod_lt _ (by omega)
            have hmul := Nat.mul_lt_mul_of_pos_right hlt (Nat.two_pow_pos shift)
            rw [pow_add, Nat.mul_comm (2 ^ shift)] at hle
            omega
        have hgroup := toNat_group (by omega) hvalue hroom
        split
        · rw [← hgroup]
          dsimp only
          rw [UInt64.ofNat_toNat]
        · rw [← hgroup]
          apply ih _ (by omega)
          rw [hgroup, pow_add]
          have hlt : byte.toNat % 128 < 2 ^ 7 := Nat.mod_lt _ (by omega)
          have hmul := Nat.mul_le_mul_right (2 ^ shift) (Nat.le_of_lt_succ hlt)
          omega

/-- An integer that the wire format has is read, and else there is the reader's text. -/
theorem readShifts_shifts (texts : VarintTexts) (bytes : List UInt8) :
    readShifts texts shifts 0 bytes =
      match readVarint bytes with
      | .error malformed => .error (texts.of malformed)
      | .ok (n, rest) => .ok (UInt64.ofNat n, rest) :=
  readShifts_eq texts bytes rfl Nat.one_pos

/-! ## The reader of numbers -/

/-- How many octets a field that is no integer takes, and what follows its length. -/
def fieldSize (wire : UInt64) (input : List UInt8) : Except String (ℕ × List UInt8) :=
  if wire = 1 then .ok (8, input)
  else if wire = 5 then .ok (4, input)
  else if wire = 2 then do
    let (size, input) ← var input
    .ok (size.toNat, input)
  else .error "unsupported protobuf wire type"

/-- The loop of `numbers`. -/
def numbersFrom (fields : Numbers) (count : ℕ) (input : List UInt8) : Except String Numbers :=
  if input = [] then .ok fields
  else if 1024 < count + 1 then .error "protobuf field limit"
  else do
    let (tag, input) ← var input
    let field := tag >>> 3
    if field = 0 ∨ 0x1fffffff < field then .error "invalid protobuf tag"
    else if tag &&& 7 = 0 then do
      let (value, input) ← var input
      numbersFrom (fields.insert field.toNat value.toNat) (count + 1) input
    else do
      let (size, input) ← fieldSize (tag &&& 7) input
      if input.length < size then .error "truncated protobuf field"
      else numbersFrom fields (count + 1) (input.drop size)
termination_by 1024 - count

def numbers (bytes : List UInt8) : Except String Numbers := numbersFrom ∅ 0 bytes

/-! ## The reader of metadata -/

/-- `metadata::Value`. -/
inductive Value
  | number (value : UInt64)
  | bytes (data : List UInt8)
  | other
  deriving DecidableEq

/-- The content of a field and the rest of the input. -/
def readValue (wire : UInt64) (input : List UInt8) : Except String (Value × List UInt8) :=
  if wire = 0 then do
    let (value, input) ← varint input
    .ok (.number value, input)
  else if wire = 1 ∨ wire = 2 ∨ wire = 5 then do
    let (size, input) ←
      if wire = 1 then .ok (8, input)
      else if wire = 5 then .ok (4, input)
      else do
        let (size, input) ← varint input
        .ok (size.toNat, input)
    if input.length < size then .error "truncated bytes"
    else .ok (if wire = 2 then .bytes (input.take size) else .other, input.drop size)
  else .error "unsupported wire type"

abbrev Fields := Std.ExtTreeMap ℕ Value

/-- The loop of `metadata::fields`. -/
def fieldsFrom (result : Fields) (count : ℕ) (input : List UInt8) : Except String Fields :=
  if input = [] then .ok result
  else if 1024 < count + 1 then .error "field limit"
  else do
    let (tag, input) ← varint input
    if tag >>> 3 = 0 ∨ (0x1fffffff : UInt64) < tag >>> 3 then .error "invalid tag"
    else do
      let (value, input) ← readValue (tag &&& 7) input
      fieldsFrom (result.insert (tag >>> 3).toNat value) (count + 1) input
termination_by 1024 - count

def fields (input : List UInt8) : Except String Fields :=
  if 4 * 1024 * 1024 < input.length then .error "metadata size limit" else fieldsFrom ∅ 0 input

/-! ## Both refine the wire format -/

/-- The parts of a tag that was read. -/
theorem tag_parts {n : ℕ} (h : n < 2 ^ 64) :
    (UInt64.ofNat n >>> 3).toNat = n / 8 ∧ (UInt64.ofNat n &&& 7).toNat = n % 8 := by
  have hword : (UInt64.ofNat n).toNat = n := by
    rw [UInt64.toNat_ofNat', Nat.mod_eq_of_lt h]
  constructor
  · rw [UInt64.toNat_shiftRight, hword]
    exact Nat.shiftRight_eq_div_pow n 3
  · rw [UInt64.toNat_and, hword]
    exact Nat.and_two_pow_sub_one_eq_mod n 3

/-- The check of a tag's field number. -/
theorem bad_tag {n : ℕ} (h : n < 2 ^ 64) :
    (UInt64.ofNat n >>> 3 = 0 ∨ (0x1fffffff : UInt64) < UInt64.ofNat n >>> 3) ↔
      (n / 8 = 0 ∨ 2 ^ 29 ≤ n / 8) := by
  rw [← UInt64.toNat_inj, UInt64.lt_iff_toNat_lt, (tag_parts h).1]
  exact Iff.rfl

/-- A wire type, compared as a word. -/
theorem wire_eq {n : ℕ} (h : n < 2 ^ 64) {wire : UInt64} :
    UInt64.ofNat n &&& 7 = wire ↔ n % 8 = wire.toNat := by
  rw [← UInt64.toNat_inj, (tag_parts h).2]

theorem var_eq (bytes : List UInt8) :
    var bytes =
      match readVarint bytes with
      | .error malformed => .error (numbersError malformed)
      | .ok (n, rest) => .ok (UInt64.ofNat n, rest) := by
  rw [var, readShifts_shifts]
  cases hread : readVarint bytes with
  | ok found => rfl
  | error malformed => rcases readVarintFrom_error hread with rfl | rfl <;> rfl

theorem varint_eq (bytes : List UInt8) :
    varint bytes =
      match readVarint bytes with
      | .error malformed => .error (Metadata.fieldsError malformed)
      | .ok (n, rest) => .ok (UInt64.ofNat n, rest) := by
  rw [varint, readShifts_shifts]
  cases hread : readVarint bytes with
  | ok found => rfl
  | error malformed => rcases readVarintFrom_error hread with rfl | rfl <;> rfl

/-- A field that the loop of `numbers` skips. -/
theorem numbersFrom_skip (fields : Numbers) {count n : ℕ} (payload : List UInt8 → Payload)
    (size : ℕ) (input : List UInt8)
    (hkeeps : ∀ fields data, insertNumber fields (n / 8, payload data) = fields) :
    (if input.length < size then .error "truncated protobuf field"
      else numbersFrom fields (count + 1) (input.drop size)) =
    match ((readData size input).map fun (data, rest) => (payload data, rest)).map
        fun (payload, rest) => ((n / 8, payload), rest) with
    | .error malformed => .error (numbersError malformed)
    | .ok (field, rest) => numbersFrom (insertNumber fields field) (count + 1) rest := by
  unfold readData
  split
  · rfl
  · exact (congrArg (numbersFrom · _ _) (hkeeps ..)).symm

/-- One round of the loop of `numbers`. -/
theorem numbersFrom_cons (fields : Numbers) {count : ℕ} (hcount : count < 1024) (byte : UInt8)
    (bytes : List UInt8) :
    numbersFrom fields count (byte :: bytes) =
      match readField (byte :: bytes) with
      | .error malformed => .error (numbersError malformed)
      | .ok (field, rest) => numbersFrom (insertNumber fields field) (count + 1) rest := by
  rw [numbersFrom, if_neg (List.cons_ne_nil _ _), if_neg (by omega), var_eq]
  unfold readField
  cases htag : readVarint (byte :: bytes) with
  | error malformed => rfl
  | ok found =>
    obtain ⟨n, rest⟩ := found
    have hn := (readVarint_bounds htag).1
    simp only [bind, Except.bind, bad_tag hn, wire_eq hn]
    split
    · rfl
    have hwires : n % 8 = 0 ∨ n % 8 = 1 ∨ n % 8 = 5 ∨ n % 8 = 2 ∨
        (n % 8 = 3 ∨ n % 8 = 4 ∨ n % 8 = 6 ∨ n % 8 = 7) := by omega
    rcases hwires with hwire | hwire | hwire | hwire | hwire
    · rw [hwire]
      simp only [var_eq, readPayload, UInt64.toNat_zero, if_true]
      cases hread : readVarint rest with
      | error malformed => rfl
      | ok found =>
        obtain ⟨value, rest⟩ := found
        have hfield := (tag_parts hn).1
        have hvalue : (UInt64.ofNat value).toNat = value := by
          rw [UInt64.toNat_ofNat', Nat.mod_eq_of_lt (readVarint_bounds hread).1]
        simp only [hfield, hvalue]
        rfl
    · simp only [fieldSize, wire_eq hn, hwire]
      exact numbersFrom_skip fields .fixed64 8 rest fun _ _ => rfl
    · simp only [fieldSize, wire_eq hn, hwire]
      exact numbersFrom_skip fields .fixed32 4 rest fun _ _ => rfl
    · simp only [fieldSize, wire_eq hn, hwire, var_eq, readPayload, bind, Except.bind]
      cases hread : readVarint rest with
      | error malformed => rfl
      | ok found =>
        obtain ⟨size, rest⟩ := found
        have hsize : (UInt64.ofNat size).toNat = size := by
          rw [UInt64.toNat_ofNat', Nat.mod_eq_of_lt (readVarint_bounds hread).1]
        simp only [hsize]
        exact numbersFrom_skip fields .bytes size rest fun _ _ => rfl
    · rcases hwire with hwire | hwire | hwire | hwire <;>
        simp only [fieldSize, wire_eq hn, hwire] <;> rfl

/-- The loop of `numbers` reads the message, and keeps the integers of its fields. -/
theorem numbersFrom_eq (fields : Numbers) {count limit : ℕ} (hlimit : count + limit = 1024)
    (input : List UInt8) :
    numbersFrom fields count input =
      match read limit input with
      | .error malformed => .error (numbersError malformed)
      | .ok message => .ok (message.foldl insertNumber fields) := by
  induction limit generalizing fields count input with
  | zero =>
    rw [numbersFrom]
    cases input with
    | nil => rfl
    | cons byte bytes =>
      rw [if_neg (List.cons_ne_nil _ _), if_pos (by omega)]
      rfl
  | succ limit ih =>
    cases input with
    | nil =>
      rw [numbersFrom]
      rfl
    | cons byte bytes =>
      rw [numbersFrom_cons fields (by omega), Library.Protobuf.read]
      cases readField (byte :: bytes) with
      | error malformed => rfl
      | ok found =>
        dsimp only [bind, Except.bind]
        rw [ih _ (by omega)]
        cases read limit found.2 <;> rfl

/-- The reader of numbers is the one of the channels. -/
theorem numbers_eq (bytes : List UInt8) : numbers bytes = Projection.numbers bytes :=
  numbersFrom_eq ∅ rfl bytes

/-- What the metadata reader keeps of a field. -/
def Value.of : Payload → Value
  | .number value => .number (UInt64.ofNat value)
  | .bytes data => .bytes data
  | .fixed64 _ => .other
  | .fixed32 _ => .other

theorem value_readData (payload : List UInt8 → Payload) (value : List UInt8 → Value) (size : ℕ)
    (input : List UInt8) (hvalue : ∀ data, Value.of (payload data) = value data) :
    (if input.length < size then Except.error "truncated bytes"
      else .ok (value (input.take size), input.drop size)) =
    match (readData size input).map fun (data, rest) => (payload data, rest) with
    | .error malformed => .error (Metadata.fieldsError malformed)
    | .ok (payload, rest) => .ok (Value.of payload, rest) := by
  unfold readData
  split
  · rfl
  · simp only [Except.map, hvalue]

theorem readValue_eq {n : ℕ} (h : n < 2 ^ 64) (input : List UInt8) :
    readValue (UInt64.ofNat n &&& 7) input =
      match readPayload (n % 8) input with
      | .error malformed => .error (Metadata.fieldsError malformed)
      | .ok (payload, rest) => .ok (Value.of payload, rest) := by
  have hwires : n % 8 = 0 ∨ n % 8 = 1 ∨ n % 8 = 5 ∨ n % 8 = 2 ∨
      (n % 8 = 3 ∨ n % 8 = 4 ∨ n % 8 = 6 ∨ n % 8 = 7) := by omega
  unfold readValue
  rcases hwires with hwire | hwire | hwire | hwire | hwire
  · simp only [wire_eq h, hwire, varint_eq, readPayload, bind, Except.bind]
    cases readVarint input <;> rfl
  · simp only [wire_eq h, hwire]
    exact value_readData .fixed64 (fun _ => .other) 8 input fun _ => rfl
  · simp only [wire_eq h, hwire]
    exact value_readData .fixed32 (fun _ => .other) 4 input fun _ => rfl
  · simp only [wire_eq h, hwire, varint_eq, readPayload, bind, Except.bind]
    cases hread : readVarint input with
    | error malformed => rfl
    | ok found =>
      obtain ⟨size, rest⟩ := found
      have hsize : (UInt64.ofNat size).toNat = size := by
        rw [UInt64.toNat_ofNat', Nat.mod_eq_of_lt (readVarint_bounds hread).1]
      have hbytes := value_readData .bytes .bytes size rest fun _ => rfl
      simp only [hsize]
      exact hbytes
  · rcases hwire with hwire | hwire | hwire | hwire <;>
      simp only [wire_eq h, hwire] <;> rfl

/-- The loop of `fields` reads the message, and keeps the last content of every field. -/
theorem fieldsFrom_eq (result : Fields) {count limit : ℕ} (hlimit : count + limit = 1024)
    (input : List UInt8) :
    fieldsFrom result count input =
      match read limit input with
      | .error malformed => .error (Metadata.fieldsError malformed)
      | .ok message =>
        .ok (message.foldl (fun fields field =>
          fields.insert field.1 (Value.of field.2)) result) := by
  induction limit generalizing result count input with
  | zero =>
    rw [fieldsFrom]
    cases input with
    | nil => rfl
    | cons byte bytes =>
      rw [if_neg (List.cons_ne_nil _ _), if_pos (by omega)]
      rfl
  | succ limit ih =>
    rw [fieldsFrom]
    cases input with
    | nil => rfl
    | cons byte bytes =>
      rw [if_neg (List.cons_ne_nil _ _), if_neg (by omega), varint_eq, Library.Protobuf.read]
      unfold readField
      cases htag : readVarint (byte :: bytes) with
      | error malformed => rfl
      | ok found =>
        obtain ⟨n, rest⟩ := found
        have hn := (readVarint_bounds htag).1
        simp only [bind, Except.bind, bad_tag hn, readValue_eq hn]
        split
        · rfl
        cases readPayload (n % 8) rest with
        | error malformed => rfl
        | ok found =>
          simp only [Except.map, (tag_parts hn).1]
          rw [ih _ (by omega)]
          cases read limit found.2 <;> rfl

/-! ## The writer -/

/-- `Proto::var`. -/
def writeVar (value : UInt64) : List UInt8 :=
  if 128 ≤ value then (value.toUInt8 ||| 128) :: writeVar (value >>> 7) else [value.toUInt8]
termination_by value.toNat
decreasing_by
  rename_i h
  have hlarge : 128 ≤ value.toNat := UInt64.le_iff_toNat_le.mp h
  have hshift : (value >>> 7).toNat = value.toNat / 128 := by
    rw [UInt64.toNat_shiftRight]
    exact Nat.shiftRight_eq_div_pow _ 7
  omega

theorem writeVar_eq_varintUpTo {k : ℕ} {value : UInt64} (h : value.toNat < 2 * 128 ^ k) :
    writeVar value = varintUpTo k value.toNat := by
  have hbyte : value.toUInt8 = UInt8.ofNat value.toNat := rfl
  have hlarge : 128 ≤ value ↔ 128 ≤ value.toNat := UInt64.le_iff_toNat_le
  induction k generalizing value with
  | zero =>
    rw [writeVar, if_neg (by rw [hlarge]; omega), varintUpTo, hbyte]
  | succ k ih =>
    have hshift : (value >>> 7).toNat = value.toNat / 128 := by
      rw [UInt64.toNat_shiftRight]
      exact Nat.shiftRight_eq_div_pow _ 7
    rw [writeVar, varintUpTo]
    simp only [hlarge]
    split
    · have hmark : value.toUInt8 ||| 128 = UInt8.ofNat (value.toNat % 128 + 128) := by
        have hmarked : ∀ n < 256, n ||| 128 = n % 128 + 128 := by decide +kernel
        have hsum : (value.toNat % 128 + 128) % 2 ^ 8 = value.toNat % 128 + 128 := by omega
        apply UInt8.toNat_inj.mp
        rw [UInt8.toNat_or, hbyte, UInt8.toNat_ofNat', UInt8.toNat_ofNat']
        have hor := hmarked (value.toNat % 2 ^ 8) (Nat.mod_lt _ (by omega))
        have hmod : value.toNat % 2 ^ 8 % 128 = value.toNat % 128 := by omega
        rw [hmod] at hor
        rw [hsum]
        exact hor
      rw [pow_succ] at h
      rw [hmark, ih (by rw [hshift]; omega) rfl UInt64.le_iff_toNat_le, hshift]
    · rw [hbyte]

theorem writeVar_eq (value : UInt64) : writeVar value = Library.Protobuf.varint value.toNat := by
  have hlt := value.toNat_lt
  exact writeVar_eq_varintUpTo (by omega)

/-- A slice is no longer than `isize::MAX`. -/
abbrev Slice := {data : List UInt8 // data.length < 2 ^ 63}

/-- A call of `number` or of `bytes` on a message under construction. -/
inductive Entry
  | number (field : UInt32) (value : UInt64)
  | bytes (field : UInt32) (value : Slice)
  deriving DecidableEq

namespace Entry

def append (proto : Proto) : Entry → Proto
  | .number field value =>
    ⟨proto.octets ++ writeVar (field.toUInt64 <<< 3) ++ writeVar value⟩
  | .bytes field value =>
    ⟨proto.octets ++ writeVar ((field.toUInt64 <<< 3) ||| 2) ++
      writeVar (UInt64.ofNat value.val.length) ++ value.val⟩

/-- The field that the call writes. -/
def field : Entry → ℕ × Payload
  | .number field value => (field.toNat, .number value.toNat)
  | .bytes field value => (field.toNat, .bytes value.val)

/-- The field numbers of the format. -/
def Numbered (entry : Entry) : Prop := 0 < entry.field.1 ∧ entry.field.1 < 2 ^ 29

instance (entry : Entry) : Decidable entry.Numbered := inferInstanceAs (Decidable (_ ∧ _))

theorem field_fits (entry : Entry) : entry.field.1 < 2 ^ 60 ∧ entry.field.2.Fits := by
  cases entry with
  | number field value =>
    exact ⟨field.toNat_lt.trans (by omega), value.toNat_lt⟩
  | bytes field value =>
    exact ⟨field.toNat_lt.trans (by omega), value.property.trans (by omega)⟩

/-- The call writes its field. -/
theorem append_of (message : Message) (entry : Entry) :
    entry.append (Proto.of message) = Proto.of (message ++ [entry.field]) := by
  have htag : ∀ field : UInt32, (field.toUInt64 <<< 3).toNat = field.toNat * 8 := by
    intro field
    have hlt := field.toNat_lt
    rw [UInt64.toNat_shiftLeft, UInt32.toNat_toUInt64, Nat.shiftLeft_eq, Nat.mod_eq_of_lt]
    · rfl
    · exact (Nat.mul_lt_mul_of_pos_right hlt (by decide)).trans (by decide)
  cases entry with
  | number field value =>
    rw [append, writeVar_eq, writeVar_eq, htag]
    exact Proto.number_of message field.toNat value.toNat
  | bytes field value =>
    have hmarked : ((field.toUInt64 <<< 3) ||| 2).toNat = field.toNat * 8 + 2 := by
      have hor := Nat.two_pow_add_eq_or_of_lt (i := 3) (b := 2) (by omega) field.toNat
      rw [UInt64.toNat_or, htag, Nat.mul_comm]
      exact hor.symm
    have hlength : (UInt64.ofNat value.val.length).toNat = value.val.length := by
      rw [UInt64.toNat_ofNat', Nat.mod_eq_of_lt (value.property.trans (by omega))]
    rw [append, writeVar_eq, writeVar_eq, hmarked, hlength]
    exact Proto.bytes_of message field.toNat value.val

end Entry

def build (entries : List Entry) : Proto := entries.foldl Entry.append {}

/-- The integers of the calls, the last of a field winning. -/
def lastWins (entries : List Entry) : Numbers :=
  entries.foldl (fun integers entry =>
    match entry with
    | .number field value => integers.insert field.toNat value.toNat
    | .bytes .. => integers) ∅

theorem build_eq (entries : List Entry) : build entries = Proto.of (entries.map Entry.field) := by
  unfold build
  induction entries using List.reverseRecOn with
  | nil => rfl
  | append_singleton entries entry ih =>
    rw [List.foldl_concat, ih, Entry.append_of, List.map_append, List.map_singleton]

theorem lastWins_eq (entries : List Entry) :
    (entries.map Entry.field).foldl insertNumber ∅ = lastWins entries := by
  rw [List.foldl_map, lastWins]
  congr 1
  funext integers entry
  cases entry <;> rfl

/-- A finished message is read exactly if its fields are numbered and at most 1024. -/
theorem numbers_build (entries : List Entry) :
    if entries.length ≤ 1024 ∧ ∀ entry ∈ entries, entry.Numbered then
      numbers (build entries).finish = .ok (lastWins entries)
    else ∃ message, numbers (build entries).finish = .error message := by
  have hfits : ∀ field ∈ entries.map Entry.field, field.1 < 2 ^ 60 ∧ field.2.Fits := by
    intro field hmem
    obtain ⟨entry, -, rfl⟩ := List.mem_map.mp hmem
    exact entry.field_fits
  have hread := @read_encode_iff _ 1024 hfits
  rw [numbers_eq, build_eq]
  change if _ then Projection.numbers (encode (entries.map Entry.field)) = _ else
    ∃ message, Projection.numbers (encode (entries.map Entry.field)) = _
  split
  · rename_i hgood
    have hall : ∀ field ∈ entries.map Entry.field, Fits field := by
      intro field hmem
      obtain ⟨entry, hentry, rfl⟩ := List.mem_map.mp hmem
      exact ⟨(hgood.2 entry hentry).1, (hgood.2 entry hentry).2, entry.field_fits.2⟩
    have hlength : (entries.map Entry.field).length ≤ 1024 := by
      rw [List.length_map]
      exact hgood.1
    rw [Projection.numbers, read_encode hlength hall, ← lastWins_eq]
  · rename_i hbad
    unfold Projection.numbers
    cases hfound : read 1024 (encode (entries.map Entry.field)) with
    | error malformed => exact ⟨_, rfl⟩
    | ok found =>
      obtain ⟨hlength, hall⟩ := hread.mp ⟨found, hfound⟩
      rw [List.length_map] at hlength
      refine absurd ⟨hlength, fun entry hentry => ?_⟩ hbad
      have hfield := hall _ (List.mem_map_of_mem hentry)
      exact ⟨hfield.1, hfield.2.1⟩

/-! ## Agreement -/

theorem fields_eq {body : List UInt8} (h : body.length ≤ 4 * 1024 * 1024) :
    fields body =
      match read 1024 body with
      | .error malformed => .error (Metadata.fieldsError malformed)
      | .ok message =>
        .ok (message.foldl (fun fields field => fields.insert field.1 (Value.of field.2)) ∅) := by
  rw [fields, if_neg (Nat.not_lt.mpr h)]
  exact fieldsFrom_eq ∅ rfl body

/-- An integer that was kept last among all contents was kept last among the integers. -/
theorem foldl_insertNumber_of_fields {message : Message} (hfits : ∀ field ∈ message, Fits field)
    {key : ℕ} {value : UInt64}
    (h : (message.foldl (fun (fields : Fields) field =>
      fields.insert field.1 (Value.of field.2)) ∅)[key]? = some (.number value)) :
    (message.foldl insertNumber ∅)[key]? = some value.toNat := by
  induction message using List.reverseRecOn with
  | nil => simp at h
  | append_singleton message last ih =>
    obtain ⟨other, payload⟩ := last
    have hlast := hfits _ (List.mem_append_right _ (List.mem_singleton_self _))
    have hrest := ih fun field hmem => hfits field (List.mem_append_left _ hmem)
    rw [List.foldl_concat, Library.NatMap.getElem?_insert] at h
    rw [List.foldl_concat]
    by_cases heq : other = key
    · rw [if_pos heq] at h
      cases payload with
      | number number =>
        have hnumber : number < 2 ^ 64 := hlast.2.2
        obtain rfl : UInt64.ofNat number = value := Value.number.inj (Option.some.inj h)
        rw [insertNumber, Library.NatMap.getElem?_insert, if_pos heq, UInt64.toNat_ofNat',
          Nat.mod_eq_of_lt hnumber]
      | bytes data => cases h
      | fixed64 data => cases h
      | fixed32 data => cases h
    · rw [if_neg heq] at h
      cases payload with
      | number number =>
        rw [insertNumber, Library.NatMap.getElem?_insert, if_neg heq]
        exact hrest h
      | bytes data => exact hrest h
      | fixed64 data => exact hrest h
      | fixed32 data => exact hrest h

/-- The two readers accept the same messages of up to 4 MiB and agree on the integers, and what
the writer makes of numbered fields within the limit is read back, the last of a field winning. -/
theorem readers_agree :
    (∀ body : List UInt8, body.length ≤ 4 * 1024 * 1024 →
      ((∃ integers, numbers body = .ok integers) ↔ ∃ found, fields body = .ok found)) ∧
    (∀ body found, fields body = .ok found →
      ∃ integers, numbers body = .ok integers ∧
        ∀ (field : ℕ) (value : UInt64), found[field]? = some (.number value) →
          integers[field]? = some value.toNat) ∧
    ∀ entries : List Entry,
      if entries.length ≤ 1024 ∧ ∀ entry ∈ entries, entry.Numbered then
        numbers (build entries).finish = .ok (lastWins entries)
      else ∃ message, numbers (build entries).finish = .error message := by
  refine ⟨?_, ?_, numbers_build⟩
  · intro body hsize
    rw [numbers_eq, Projection.numbers, fields_eq hsize]
    cases read 1024 body with
    | error malformed =>
      constructor <;> rintro ⟨_, ⟨⟩⟩
    | ok message => exact ⟨fun _ => ⟨_, rfl⟩, fun _ => ⟨_, rfl⟩⟩
  · intro body found hfound
    have hsize : body.length ≤ 4 * 1024 * 1024 := by
      by_contra hlarge
      rw [fields, if_pos (Nat.lt_of_not_le hlarge)] at hfound
      cases hfound
    rw [fields_eq hsize] at hfound
    rw [numbers_eq, Projection.numbers]
    cases hread : read 1024 body with
    | error malformed =>
      rw [hread] at hfound
      cases hfound
    | ok message =>
      rw [hread] at hfound
      refine ⟨_, rfl, fun field value hvalue => ?_⟩
      cases hfound
      exact foldl_insertNumber_of_fields (read_fits hread).2 hvalue

theorem readers_agree_short : ∃ found integers,
    fields [8, 150, 1] = .ok found ∧ numbers [8, 150, 1] = .ok integers := by
  have hnumbers : ∃ integers, numbers [8, 150, 1] = .ok integers := by
    rw [numbers_eq]
    exact ⟨_, rfl⟩
  obtain ⟨found, hfound⟩ := (readers_agree.1 [8, 150, 1] (by decide)).mp hnumbers
  obtain ⟨integers, hintegers, -⟩ := readers_agree.2.1 _ found hfound
  exact ⟨found, integers, hfound, hintegers⟩

/-- A field numbered zero is written, and makes the message unreadable. -/
theorem field_zero_rejected :
    ¬∀ entries : List Entry, numbers (build entries).finish = .ok (lastWins entries) := by
  intro h
  have hzero := h [.number 0 1]
  have hoctets : (build [.number 0 1]).finish = [0, 1] := by
    rw [build_eq]
    rfl
  have hrejected : Projection.numbers [0, 1] = .error "invalid protobuf tag" := rfl
  rw [hoctets, numbers_eq, hrejected] at hzero
  cases hzero

end WireReaders

end ProjectArgo.Projection
