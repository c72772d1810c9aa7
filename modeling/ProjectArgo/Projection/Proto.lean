import Mathlib
import ProjectArgo.Library.NatMap
import ProjectArgo.Library.Protobuf

/-!
# The daemon's protobuf writer and its reader of numbers

`Proto` appends one field after another, and `numbers` reads the integer fields
of a message, the last of a field winning. Both are the wire format of
`Library.Protobuf` with the daemon's limits and the texts of its errors.
-/
namespace ProjectArgo.Projection

open Library.Protobuf

/-- The octets of a message under construction. -/
structure Proto where
  octets : List UInt8 := []
  deriving DecidableEq

/-- A byte-string literal. -/
def byteString (text : String) : List UInt8 := text.toUTF8.data.toList

namespace Proto

def number (proto : Proto) (field value : ℕ) : Proto :=
  ⟨proto.octets ++ varint (field * 8) ++ varint value⟩

def bytes (proto : Proto) (field : ℕ) (value : List UInt8) : Proto :=
  ⟨proto.octets ++ varint (field * 8 + 2) ++ varint value.length ++ value⟩

def nested (proto : Proto) (field : ℕ) (value : Proto) : Proto := proto.bytes field value.octets

def finish (proto : Proto) : List UInt8 := proto.octets

/-- The construction that has written exactly these fields. -/
def of (message : Message) : Proto := ⟨encode message⟩

@[simp] theorem default_eq : ({} : Proto) = of [] := rfl

@[simp] theorem bytes_of (message : Message) (field : ℕ) (value : List UInt8) :
    (of message).bytes field value = of (message ++ [(field, .bytes value)]) := by
  simp [of, bytes, encode_append, encode_cons, encodeField]

@[simp] theorem number_of (message : Message) (field value : ℕ) :
    (of message).number field value = of (message ++ [(field, .number value)]) := by
  simp [of, number, encode_append, encode_cons, encodeField]

@[simp] theorem nested_of (message : Message) (field : ℕ) (value : Proto) :
    (of message).nested field value = of (message ++ [(field, .bytes value.octets)]) :=
  bytes_of message field value.octets

/-- What a reader within its limit finds in a finished message. -/
theorem read_of {message : Message} (hlength : message.length ≤ 1024)
    (hfits : ∀ field ∈ message, Fits field) : read 1024 (of message).octets = .ok message :=
  read_encode hlength hfits

/-- The octets written so far are at most `size`. -/
def Within (proto : Proto) (size : ℕ) : Prop := proto.octets.length ≤ size

theorem Within.empty : ({} : Proto).Within 0 := Nat.le_refl 0

theorem Within.number {proto : Proto} {size : ℕ} (h : proto.Within size) {field value : ℕ} :
    (proto.number field value).Within (size + 20) := by
  have htag := length_varint (field * 8)
  have hvalue := length_varint value
  unfold Within at *
  simp only [Proto.number, List.length_append]
  omega

theorem Within.bytes {proto : Proto} {size : ℕ} (h : proto.Within size) {field : ℕ}
    {value : List UInt8} : (proto.bytes field value).Within (size + 20 + value.length) := by
  have htag := length_varint (field * 8 + 2)
  have hlength := length_varint value.length
  unfold Within at *
  simp only [Proto.bytes, List.length_append]
  omega

theorem Within.nested {proto value : Proto} {size inner : ℕ} (h : proto.Within size)
    (hvalue : value.Within inner) {field : ℕ} :
    (proto.nested field value).Within (size + 20 + inner) :=
  h.bytes.trans (Nat.add_le_add_left hvalue _)

end Proto

/-- The integer fields of a message, by number. -/
abbrev Numbers := Std.ExtTreeMap ℕ ℕ

/-- The texts of `numbers`. -/
def numbersError : Malformed → String
  | .truncatedVarint => "truncated protobuf varint"
  | .overflow => "protobuf integer overflow"
  | .fieldLimit => "protobuf field limit"
  | .tag => "invalid protobuf tag"
  | .wireType => "unsupported protobuf wire type"
  | .truncatedField => "truncated protobuf field"

/-- One field of a message; contents other than integers are skipped. -/
def insertNumber (fields : Numbers) : ℕ × Payload → Numbers
  | (field, .number value) => fields.insert field value
  | _ => fields

def numbers (bytes : List UInt8) : Except String Numbers :=
  match read 1024 bytes with
  | .error malformed => .error (numbersError malformed)
  | .ok message => .ok (message.foldl insertNumber ∅)

theorem getElem?_foldl_insertNumber (message : Message) (fields : Numbers) (field : ℕ) :
    (message.foldl insertNumber fields)[field]? = (lastNumber message field).or fields[field]? := by
  induction message using List.reverseRecOn with
  | nil => rfl
  | append_singleton message last ih =>
    obtain ⟨other, payload⟩ := last
    rw [List.foldl_concat, lastNumber, List.filterMap_append]
    cases payload with
    | number value =>
      rw [insertNumber, Library.NatMap.getElem?_insert, ih]
      by_cases heq : other = field
      · simp [heq]
      · simp [heq, lastNumber]
    | bytes data => simpa [insertNumber, lastNumber] using ih
    | fixed64 data => simpa [insertNumber, lastNumber] using ih
    | fixed32 data => simpa [insertNumber, lastNumber] using ih

/-- `numbers` finds the last integer of every field. -/
theorem numbers_eq_ok {bytes : List UInt8} {fields : Numbers} (h : numbers bytes = .ok fields) :
    ∃ message, read 1024 bytes = .ok message ∧
      ∀ field, fields[field]? = lastNumber message field := by
  unfold numbers at h
  split at h
  · exact nomatch h
  · rename_i message hread
    refine ⟨message, hread, ?_⟩
    intro field
    cases h
    rw [getElem?_foldl_insertNumber]
    simp

theorem lastNumber_lt {message : Message} {field value : ℕ}
    (hfits : ∀ field ∈ message, Fits field) (h : lastNumber message field = some value) :
    value < 2 ^ 64 := by
  obtain ⟨⟨other, payload⟩, hmem, hvalue⟩ :=
    List.mem_filterMap.mp (List.mem_of_getLast? h)
  have hfield := (hfits _ hmem).2.2
  cases payload with
  | number number =>
    simp only [Option.ite_none_right_eq_some, Option.some.injEq] at hvalue
    rw [← hvalue.2]
    exact hfield
  | _ => exact nomatch hvalue

theorem numbers_lt {bytes : List UInt8} {fields : Numbers} {field value : ℕ}
    (h : numbers bytes = .ok fields) (hvalue : fields[field]? = some value) : value < 2 ^ 64 := by
  obtain ⟨message, hread, hlast⟩ := numbers_eq_ok h
  rw [hlast] at hvalue
  exact lastNumber_lt (read_fits hread).2 hvalue

/-- Reading the numbers of what the writer has finished. -/
theorem numbers_of {message : Message} (hlength : message.length ≤ 1024)
    (hfits : ∀ field ∈ message, Fits field) :
    ∃ fields, numbers (Proto.of message).octets = .ok fields ∧
      ∀ field, fields[field]? = lastNumber message field := by
  refine ⟨message.foldl insertNumber ∅, ?_, ?_⟩
  · rw [numbers, Proto.read_of hlength hfits]
  · intro field
    rw [getElem?_foldl_insertNumber]
    simp

end ProjectArgo.Projection
