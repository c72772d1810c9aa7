import Mathlib.Tactic.Ring
import Mathlib.Algebra.BigOperators.Group.List.Basic

/-!
# The protobuf wire format

A message is a list of numbered fields in the order of the wire. A number is
written in base 128, least significant group first, with a mark on every group
but the last. The reader accepts a bounded number of fields, each with one of
the four wire types in use, and the round trip below is exact for every message
whose fields fit the format.
-/
namespace Library.Protobuf

/-- The content of a field, by wire type 0, 2, 1 and 5. -/
inductive Payload
  | number (value : ℕ)
  | bytes (data : List UInt8)
  | fixed64 (data : List UInt8)
  | fixed32 (data : List UInt8)
  deriving DecidableEq

/-- The fields of a message, in the order of the wire. -/
abbrev Message := List (ℕ × Payload)

/-- Why an octet string is no message. -/
inductive Malformed
  | truncatedVarint
  | overflow
  | fieldLimit
  | tag
  | wireType
  | truncatedField
  deriving DecidableEq

/-! ## Numbers -/

/-- The groups of `value`, at most `k` of them marked. -/
def varintUpTo : ℕ → ℕ → List UInt8
  | 0, value => [UInt8.ofNat value]
  | k + 1, value =>
    if 128 ≤ value then UInt8.ofNat (value % 128 + 128) :: varintUpTo k (value / 128)
    else [UInt8.ofNat value]

/-- A number below `2 ^ 64` takes at most ten groups. -/
def varint (value : ℕ) : List UInt8 := varintUpTo 9 value

/-- Reads at most `groups` groups, the first at bit `shift`. The group at bit 63
has room for one bit. -/
def readVarintFrom : ℕ → ℕ → ℕ → List UInt8 → Except Malformed (ℕ × List UInt8)
  | 0, _, _, _ => .error .overflow
  | _ + 1, _, _, [] => .error .truncatedVarint
  | groups + 1, shift, value, byte :: rest =>
    if shift = 63 ∧ 1 < byte.toNat then .error .overflow
    else if byte.toNat < 128 then .ok (value + byte.toNat % 128 * 2 ^ shift, rest)
    else readVarintFrom groups (shift + 7) (value + byte.toNat % 128 * 2 ^ shift) rest

def readVarint (bytes : List UInt8) : Except Malformed (ℕ × List UInt8) :=
  readVarintFrom 10 0 0 bytes

theorem length_varintUpTo (k value : ℕ) : (varintUpTo k value).length ≤ k + 1 := by
  induction k generalizing value with
  | zero => exact Nat.le_refl 1
  | succ k ih =>
    rw [varintUpTo]
    split
    · exact Nat.succ_le_succ (ih _)
    · simp

theorem length_varint (value : ℕ) : (varint value).length ≤ 10 := length_varintUpTo 9 value

theorem varint_ne_nil (value : ℕ) : varint value ≠ [] := by
  rw [varint, varintUpTo]
  split <;> simp

theorem readVarintFrom_varintUpTo {k shift n : ℕ} (value : ℕ) (rest : List UInt8)
    (hshift : shift + 7 * k = 63) (hn : n < 2 * 128 ^ k) :
    readVarintFrom (k + 1) shift value (varintUpTo k n ++ rest) =
      .ok (value + n * 2 ^ shift, rest) := by
  induction k generalizing shift value n with
  | zero =>
    have hbyte : (UInt8.ofNat n).toNat = n := by
      rw [UInt8.toNat_ofNat']
      omega
    rw [varintUpTo, List.singleton_append, readVarintFrom, hbyte, if_neg (by omega),
      if_pos (by omega), Nat.mod_eq_of_lt (by omega)]
  | succ k ih =>
    have hshift' : shift ≠ 63 := by omega
    rw [varintUpTo]
    by_cases hlarge : 128 ≤ n
    · have hbyte : (UInt8.ofNat (n % 128 + 128)).toNat = n % 128 + 128 := by
        rw [UInt8.toNat_ofNat']
        omega
      have hgroup : (n % 128 + 128) % 128 = n % 128 := by omega
      have hrest : n / 128 < 2 * 128 ^ k := by
        rw [pow_succ] at hn
        omega
      have hsum : n % 128 * 2 ^ shift + n / 128 * 2 ^ (shift + 7) = n * 2 ^ shift := by
        rw [pow_add]
        calc n % 128 * 2 ^ shift + n / 128 * (2 ^ shift * 2 ^ 7)
            = (128 * (n / 128) + n % 128) * 2 ^ shift := by ring
          _ = n * 2 ^ shift := by rw [Nat.div_add_mod]
      rw [if_pos hlarge, List.cons_append, readVarintFrom, hbyte, if_neg (by omega),
        if_neg (by omega), ih _ (by omega) hrest, hgroup, Nat.add_assoc, hsum]
    · have hbyte : (UInt8.ofNat n).toNat = n := by
        rw [UInt8.toNat_ofNat']
        omega
      rw [if_neg hlarge, List.singleton_append, readVarintFrom, hbyte, if_neg (by omega),
        if_pos (by omega), Nat.mod_eq_of_lt (by omega)]

/-- Reading back a number, whatever follows it. -/
theorem readVarint_varint {n : ℕ} (h : n < 2 ^ 64) (rest : List UInt8) :
    readVarint (varint n ++ rest) = .ok (n, rest) := by
  rw [readVarint, varint, readVarintFrom_varintUpTo 0 rest (by omega) (by omega)]
  simp

theorem readVarintFrom_bounds {groups shift value n : ℕ} {bytes rest : List UInt8}
    (hshift : shift + 7 * groups = 70) (hvalue : value < 2 ^ shift)
    (h : readVarintFrom groups shift value bytes = .ok (n, rest)) :
    n < 2 ^ 64 ∧ rest.length < bytes.length := by
  induction groups generalizing shift value bytes with
  | zero => exact nomatch h
  | succ groups ih =>
    cases bytes with
    | nil => exact nomatch h
    | cons byte bytes =>
      rw [readVarintFrom] at h
      split at h
      · exact nomatch h
      rename_i htop
      have hgroup : byte.toNat % 128 ≤ 127 := by omega
      split at h
      · obtain ⟨rfl, rfl⟩ := Prod.mk.inj (Except.ok.inj h)
        refine ⟨?_, by simp⟩
        by_cases hlast : shift = 63
        · have hone : byte.toNat % 128 ≤ 1 := by omega
          subst hlast
          omega
        · have hle : 2 ^ (shift + 7) ≤ 2 ^ 63 := Nat.pow_le_pow_right (by omega) (by omega)
          have hmul := Nat.mul_le_mul_right (2 ^ shift) hgroup
          rw [pow_add] at hle
          omega
      · have hmul := Nat.mul_le_mul_right (2 ^ shift) hgroup
        obtain ⟨hn, hrest⟩ := ih (by omega) (by rw [pow_add]; omega) h
        exact ⟨hn, Nat.lt_succ_of_lt hrest⟩

theorem readVarint_bounds {n : ℕ} {bytes rest : List UInt8}
    (h : readVarint bytes = .ok (n, rest)) : n < 2 ^ 64 ∧ rest.length < bytes.length :=
  readVarintFrom_bounds rfl (by simp) h

/-- A number that is not read is cut off or too large. -/
theorem readVarintFrom_error {groups shift value : ℕ} {bytes : List UInt8} {malformed : Malformed}
    (h : readVarintFrom groups shift value bytes = .error malformed) :
    malformed = .truncatedVarint ∨ malformed = .overflow := by
  induction groups generalizing shift value bytes with
  | zero =>
    cases h
    exact .inr rfl
  | succ groups ih =>
    cases bytes with
    | nil =>
      cases h
      exact .inl rfl
    | cons byte bytes =>
      rw [readVarintFrom] at h
      split at h
      · cases h
        exact .inr rfl
      split at h
      · cases h
      · exact ih h

/-! ## Messages -/

def encodeField : ℕ × Payload → List UInt8
  | (field, .number value) => varint (field * 8) ++ varint value
  | (field, .fixed64 data) => varint (field * 8 + 1) ++ data
  | (field, .bytes data) => varint (field * 8 + 2) ++ varint data.length ++ data
  | (field, .fixed32 data) => varint (field * 8 + 5) ++ data

def encode (message : Message) : List UInt8 := message.flatMap encodeField

/-- A content of `size` octets and what follows it. -/
def readData (size : ℕ) (bytes : List UInt8) : Except Malformed (List UInt8 × List UInt8) :=
  if bytes.length < size then .error .truncatedField else .ok (bytes.take size, bytes.drop size)

/-- The content of a field after its tag. -/
def readPayload (wire : ℕ) (bytes : List UInt8) : Except Malformed (Payload × List UInt8) :=
  match wire with
  | 0 => (readVarint bytes).map fun (value, rest) => (.number value, rest)
  | 1 => (readData 8 bytes).map fun (data, rest) => (.fixed64 data, rest)
  | 2 => do
    let (size, rest) ← readVarint bytes
    (readData size rest).map fun (data, rest) => (.bytes data, rest)
  | 5 => (readData 4 bytes).map fun (data, rest) => (.fixed32 data, rest)
  | _ => .error .wireType

def readField (bytes : List UInt8) : Except Malformed ((ℕ × Payload) × List UInt8) := do
  let (tag, rest) ← readVarint bytes
  if tag / 8 = 0 ∨ 2 ^ 29 ≤ tag / 8 then .error .tag
  else (readPayload (tag % 8) rest).map fun (payload, rest) => ((tag / 8, payload), rest)

/-- Reads a message of at most `limit` fields. -/
def read : ℕ → List UInt8 → Except Malformed Message
  | _, [] => .ok []
  | 0, _ :: _ => .error .fieldLimit
  | limit + 1, byte :: bytes => do
    let (field, rest) ← readField (byte :: bytes)
    let fields ← read limit rest
    .ok (field :: fields)

/-- The contents that fit the format. -/
def Payload.Fits : Payload → Prop
  | .number value => value < 2 ^ 64
  | .bytes data => data.length < 2 ^ 64
  | .fixed64 data => data.length = 8
  | .fixed32 data => data.length = 4

/-- The fields that fit the format. -/
def Fits (field : ℕ × Payload) : Prop := 0 < field.1 ∧ field.1 < 2 ^ 29 ∧ field.2.Fits

@[simp] theorem encode_nil : encode [] = [] := rfl

theorem encode_cons (field : ℕ × Payload) (message : Message) :
    encode (field :: message) = encodeField field ++ encode message := rfl

theorem encode_append (front rest : Message) :
    encode (front ++ rest) = encode front ++ encode rest := List.flatMap_append

theorem encodeField_ne_nil (field : ℕ × Payload) : encodeField field ≠ [] := by
  obtain ⟨field, payload⟩ := field
  cases payload <;> simp [encodeField, varint_ne_nil]

theorem readData_append (data rest : List UInt8) :
    readData data.length (data ++ rest) = .ok (data, rest) := by
  rw [readData, if_neg (by simp)]
  simp

theorem readField_encodeField {field : ℕ × Payload} (h : Fits field) (rest : List UInt8) :
    readField (encodeField field ++ rest) = .ok (field, rest) := by
  obtain ⟨field, payload⟩ := field
  obtain ⟨hpos, hlt, hfits⟩ := h
  -- Every wire type leaves room for the field number above it.
  have htag : ∀ wire < 8, ∀ more, readVarint (varint (field * 8 + wire) ++ more) =
      .ok (field * 8 + wire, more) := fun wire hwire more => readVarint_varint (by omega) more
  have hfield : ∀ wire < 8, (field * 8 + wire) / 8 = field ∧ (field * 8 + wire) % 8 = wire := by
    omega
  have hgood : ¬(field = 0 ∨ 2 ^ 29 ≤ field) := by omega
  have hread : ∀ wire < 8, ∀ more, readField (varint (field * 8 + wire) ++ more) =
      (readPayload wire more).map fun (payload, rest) => ((field, payload), rest) := by
    intro wire hwire more
    simp only [readField, htag wire hwire, (hfield wire hwire).1, (hfield wire hwire).2,
      if_neg hgood, bind, Except.bind]
  cases payload with
  | number value =>
    have hzero := hread 0 (by omega)
    rw [Nat.add_zero] at hzero
    rw [encodeField, List.append_assoc, hzero, readPayload, readVarint_varint hfits]
    rfl
  | bytes data =>
    rw [encodeField, List.append_assoc, List.append_assoc, hread 2 (by omega), readPayload,
      readVarint_varint hfits]
    simp only [bind, Except.bind, readData_append]
    rfl
  | fixed64 data =>
    have hsize : data.length = 8 := hfits
    rw [encodeField, List.append_assoc, hread 1 (by omega), readPayload, ← hsize, readData_append]
    rfl
  | fixed32 data =>
    have hsize : data.length = 4 := hfits
    rw [encodeField, List.append_assoc, hread 5 (by omega), readPayload, ← hsize, readData_append]
    rfl

theorem read_of_readField {bytes rest : List UInt8} {field : ℕ × Payload} {fields : Message}
    {limit : ℕ} (hne : bytes ≠ []) (hfield : readField bytes = .ok (field, rest))
    (hfields : read limit rest = .ok fields) : read (limit + 1) bytes = .ok (field :: fields) := by
  cases bytes with
  | nil => exact absurd rfl hne
  | cons byte bytes => simp only [read, bind, Except.bind, hfield, hfields]

/-- The round trip of a message within the limit of its reader. -/
theorem read_encode {message : Message} {limit : ℕ} (hlimit : message.length ≤ limit)
    (h : ∀ field ∈ message, Fits field) : read limit (encode message) = .ok message := by
  induction message generalizing limit with
  | nil =>
    cases limit <;> rfl
  | cons field message ih =>
    cases limit with
    | zero => exact absurd hlimit (by simp)
    | succ limit =>
      have hne : encodeField field ++ encode message ≠ [] := by simp [encodeField_ne_nil]
      have hrest := ih (Nat.le_of_succ_le_succ hlimit) fun other hother =>
        h other (List.mem_cons_of_mem _ hother)
      rw [encode_cons]
      exact read_of_readField hne (readField_encodeField (h field List.mem_cons_self) _) hrest

/-- A field whose number is out of range is read as nothing. -/
theorem readField_encodeField_tag {field : ℕ × Payload} (hsmall : field.1 < 2 ^ 60)
    (hbad : ¬(0 < field.1 ∧ field.1 < 2 ^ 29)) (rest : List UInt8) :
    readField (encodeField field ++ rest) = .error .tag := by
  obtain ⟨field, payload⟩ := field
  have hread : ∀ wire < 8, ∀ more, readField (varint (field * 8 + wire) ++ more) = .error .tag := by
    intro wire hwire more
    have hnumber : (field * 8 + wire) / 8 = field := by omega
    have hlt : field < 2 ^ 60 := hsmall
    have hrange : field = 0 ∨ 2 ^ 29 ≤ field := by
      have hout : ¬(0 < field ∧ field < 2 ^ 29) := hbad
      omega
    have htag : field * 8 + wire < 2 ^ 64 := by omega
    simp only [readField, readVarint_varint htag, hnumber, if_pos hrange, bind, Except.bind]
  cases payload with
  | number value =>
    have hzero := hread 0 (by omega)
    rw [Nat.add_zero] at hzero
    rw [encodeField, List.append_assoc]
    exact hzero _
  | bytes data =>
    rw [encodeField, List.append_assoc, List.append_assoc]
    exact hread 2 (by omega) _
  | fixed64 data =>
    rw [encodeField, List.append_assoc]
    exact hread 1 (by omega) _
  | fixed32 data =>
    rw [encodeField, List.append_assoc]
    exact hread 5 (by omega) _

/-- An encoding is read exactly if its fields fit and are within the limit. -/
theorem read_encode_iff {message : Message} {limit : ℕ}
    (h : ∀ field ∈ message, field.1 < 2 ^ 60 ∧ field.2.Fits) :
    (∃ found, read limit (encode message) = .ok found) ↔
      message.length ≤ limit ∧ ∀ field ∈ message, Fits field := by
  constructor
  · rintro ⟨found, hread⟩
    induction message generalizing limit found with
    | nil => exact ⟨Nat.zero_le _, by simp⟩
    | cons field message ih =>
      rw [List.forall_mem_cons] at h
      rw [encode_cons] at hread
      have hne : encodeField field ++ encode message ≠ [] := by simp [encodeField_ne_nil]
      obtain ⟨byte, bytes, hcons⟩ := List.exists_cons_of_ne_nil hne
      cases limit with
      | zero =>
        rw [hcons] at hread
        cases hread
      | succ limit =>
        by_cases hrange : 0 < field.1 ∧ field.1 < 2 ^ 29
        · have hfits : Fits field := ⟨hrange.1, hrange.2, h.1.2⟩
          have hfield := readField_encodeField hfits (encode message)
          rw [hcons] at hfield hread
          simp only [read, hfield, bind, Except.bind] at hread
          split at hread
          · cases hread
          rename_i fields hfields
          obtain ⟨hlength, hall⟩ := ih h.2 fields hfields
          exact ⟨Nat.succ_le_succ hlength, List.forall_mem_cons.mpr ⟨hfits, hall⟩⟩
        · have hfield := readField_encodeField_tag (h.1.1) hrange (encode message)
          rw [hcons] at hfield hread
          simp only [read, hfield, bind, Except.bind] at hread
          cases hread
  · rintro ⟨hlength, hfits⟩
    exact ⟨message, read_encode hlength hfits⟩

theorem readData_bounds {size : ℕ} {bytes data rest : List UInt8}
    (h : readData size bytes = .ok (data, rest)) : data.length = size := by
  unfold readData at h
  split at h
  · exact nomatch h
  · obtain ⟨rfl, rfl⟩ := Prod.mk.inj (Except.ok.inj h)
    rw [List.length_take]
    omega

theorem map_eq_ok {ε α β : Type*} {f : α → β} {x : Except ε α} {b : β} (h : x.map f = .ok b) :
    ∃ a, x = .ok a ∧ f a = b := by
  cases x with
  | error e => exact nomatch h
  | ok a => exact ⟨a, rfl, Except.ok.inj h⟩

theorem readPayload_fits {wire : ℕ} {bytes rest : List UInt8} {payload : Payload}
    (h : readPayload wire bytes = .ok (payload, rest)) : payload.Fits := by
  unfold readPayload at h
  split at h
  · obtain ⟨_, hread, heq⟩ := map_eq_ok h
    cases heq
    exact (readVarint_bounds hread).1
  · obtain ⟨_, hread, heq⟩ := map_eq_ok h
    cases heq
    exact readData_bounds hread
  · cases hsize : readVarint bytes with
    | error e =>
      rw [hsize] at h
      exact nomatch h
    | ok size =>
      simp only [hsize, bind, Except.bind] at h
      obtain ⟨_, hread, heq⟩ := map_eq_ok h
      cases heq
      apply (readData_bounds hread).trans_lt
      exact (readVarint_bounds hsize).1
  · obtain ⟨_, hread, heq⟩ := map_eq_ok h
    cases heq
    exact readData_bounds hread
  · exact nomatch h

theorem readField_fits {bytes rest : List UInt8} {field : ℕ × Payload}
    (h : readField bytes = .ok (field, rest)) : Fits field := by
  unfold readField at h
  cases htag : readVarint bytes with
  | error e =>
    rw [htag] at h
    exact nomatch h
  | ok tag =>
    simp only [htag, bind, Except.bind] at h
    split at h
    · exact nomatch h
    · obtain ⟨payload, hread, heq⟩ := map_eq_ok h
      cases heq
      rename_i hgood
      exact ⟨by omega, by omega, readPayload_fits hread⟩

/-- What the reader accepts fits the format and its own limit. -/
theorem read_fits {limit : ℕ} {bytes : List UInt8} {message : Message}
    (h : read limit bytes = .ok message) :
    message.length ≤ limit ∧ ∀ field ∈ message, Fits field := by
  fun_induction read limit bytes generalizing message with
  | case1 =>
    cases h
    exact ⟨Nat.zero_le _, by simp⟩
  | case2 => exact nomatch h
  | case3 limit byte bytes ih =>
    cases hfield : readField (byte :: bytes) with
    | error e =>
      rw [hfield] at h
      exact nomatch h
    | ok field =>
      simp only [hfield, bind, Except.bind] at h
      split at h
      · exact nomatch h
      · rename_i hrest
        cases h
        obtain ⟨hlength, hfits⟩ := ih _ hrest
        refine ⟨Nat.succ_le_succ hlength, ?_⟩
        intro other hother
        rcases List.mem_cons.mp hother with rfl | hmem
        · exact readField_fits hfield
        · exact hfits other hmem

/-! ## Looking fields up -/

/-- The last number in a field. -/
def lastNumber (message : Message) (field : ℕ) : Option ℕ :=
  (message.filterMap fun
    | (other, .number value) => if other = field then some value else none
    | _ => none).getLast?

/-- The contents of a repeated field of octets. -/
def allBytes (message : Message) (field : ℕ) : List (List UInt8) :=
  message.filterMap fun
    | (other, .bytes data) => if other = field then some data else none
    | _ => none

end Library.Protobuf
