import ProjectArgo.CarPlay.Csm

/-!
# Groups in control messages

The value of a parameter may be an encoded list of parameters of its own, to any depth.
Decoding reads back what was encoded on every level, and what is accepted is the encoding of
what was read.
-/
namespace ProjectArgo.CarPlay.Csm

open Library.Bytes

/-! ## Accepted bytes -/

/-- The octets of a number, at the place they were read from. -/
theorem bigEndian_slice {bytes : List UInt8} (first : ℕ) (h : first + 2 ≤ bytes.length) :
    bigEndian 2 (ofBigEndian (slice bytes first (first + 2))) = slice bytes first (first + 2) := by
  have hlength : (slice bytes first (first + 2)).length = 2 := by
    rw [length_slice]
    omega
  have hoctets := bigEndian_ofBigEndian (slice bytes first (first + 2)) 0
  rw [hlength, Nat.zero_mul, Nat.zero_add] at hoctets
  exact hoctets

theorem ofBigEndian_slice_lt (bytes : List UInt8) (first : ℕ) :
    ofBigEndian (slice bytes first (first + 2)) < 2 ^ 16 := by
  have hlength : (slice bytes first (first + 2)).length ≤ 2 := by
    rw [length_slice]
    omega
  calc
    ofBigEndian (slice bytes first (first + 2)) <
        256 ^ (slice bytes first (first + 2)).length := ofBigEndian_lt _
    _ ≤ 256 ^ 2 := Nat.pow_le_pow_right (by decide) hlength
    _ = 2 ^ 16 := rfl

/-- The front of accepted bytes is the first parameter. -/
theorem wire_front {bytes : List UInt8} (hlong : 4 ≤ bytes.length)
    (hlow : 4 ≤ ofBigEndian (slice bytes 0 2))
    (hhigh : ofBigEndian (slice bytes 0 2) ≤ bytes.length) :
    Parameter.wire ⟨UInt16.ofNat (ofBigEndian (slice bytes 2 4)),
      slice bytes 4 (ofBigEndian (slice bytes 0 2))⟩ =
        bytes.take (ofBigEndian (slice bytes 0 2)) := by
  have hlength : (slice bytes 4 (ofBigEndian (slice bytes 0 2))).length + 4 =
      ofBigEndian (slice bytes 0 2) := by
    rw [length_slice]
    omega
  have hid : ofBigEndian (slice bytes 2 4) < 2 ^ 16 := ofBigEndian_slice_lt bytes 2
  unfold Parameter.wire
  dsimp only
  rw [hlength, UInt16.toNat_ofNat_of_lt' hid, bigEndian_slice 0 (by omega),
    bigEndian_slice 2 hlong, slice_append_slice _ (by decide) (by decide),
    slice_append_slice _ (by decide) hlow, slice_zero]

theorem decodeParametersUpTo_ok {budget : ℕ} {bytes : List UInt8} {ps : List Parameter}
    (h : decodeParametersUpTo budget bytes = .ok ps) :
    ps.length ≤ budget ∧ ps.flatMap Parameter.wire = bytes := by
  induction budget generalizing bytes ps with
  | zero =>
    rw [decodeParametersUpTo] at h
    split at h
    · rename_i hempty
      obtain rfl := Except.ok.inj h
      exact ⟨le_rfl, hempty.symm⟩
    · cases h
  | succ budget ih =>
    rw [decodeParametersUpTo] at h
    split at h
    · rename_i hempty
      obtain rfl := Except.ok.inj h
      exact ⟨Nat.zero_le _, hempty.symm⟩
    split at h
    · cases h
    rename_i hlong
    dsimp only at h
    split at h
    · cases h
    rename_i hlength
    rw [not_or, Nat.not_lt, Nat.not_lt] at hlength
    split at h
    · cases h
    · rename_i fields hfields
      obtain rfl := Except.ok.inj h
      obtain ⟨hcount, hrest⟩ := ih hfields
      refine ⟨by rw [List.length_cons]; omega, ?_⟩
      rw [List.flatMap_cons, hrest, wire_front (Nat.le_of_not_lt hlong) hlength.1 hlength.2,
        List.take_append_drop]

/-- Parameters that fit are encoded. -/
theorem encodeParametersFrom_fits {start : List UInt8} {ps : List Parameter}
    (h : (start ++ ps.flatMap Parameter.wire).length ≤ maxMessage - 6) :
    encodeParametersFrom start ps = .ok (start ++ ps.flatMap Parameter.wire) := by
  induction ps generalizing start with
  | nil => rw [encodeParametersFrom, List.flatMap_nil, List.append_nil]
  | cons p ps ih =>
    have hbound : start.length + (p.value.length + 4) ≤ maxMessage - 6 := by
      rw [List.flatMap_cons, List.length_append, List.length_append, length_wire] at h
      omega
    have hmax : maxMessage = 65525 := rfl
    rw [encodeParametersFrom, if_neg (by omega)]
    have hstep : start ++ bigEndian 2 (p.value.length + 4) ++ bigEndian 2 p.id.toNat ++ p.value =
        start ++ p.wire := by
      simp only [Parameter.wire, List.append_assoc]
    rw [List.flatMap_cons, ← List.append_assoc] at h ⊢
    rw [hstep]
    exact ih h

theorem encodeParameters_fits {ps : List Parameter} (hcount : ps.length ≤ maxParams)
    (h : (ps.flatMap Parameter.wire).length ≤ maxMessage - 6) :
    encodeParameters ps = .ok (ps.flatMap Parameter.wire) := by
  rw [encodeParameters, if_neg (Nat.not_lt_of_le hcount)]
  exact encodeParametersFrom_fits h

/-- Encoding and decoding parameters are inverse. -/
theorem decodeParameters_iff {bytes : List UInt8} {ps : List Parameter} :
    decodeParameters bytes = .ok ps ↔ encodeParameters ps = .ok bytes := by
  constructor
  · intro h
    unfold decodeParameters at h
    split at h
    · cases h
    rename_i hlong
    obtain ⟨hcount, rfl⟩ := decodeParametersUpTo_ok h
    exact encodeParameters_fits hcount (Nat.le_of_not_lt hlong)
  · intro h
    obtain ⟨hcount, rfl, hlong, hall⟩ := encodeParameters_ok h
    rw [decodeParameters, if_neg (Nat.not_lt_of_le hlong)]
    exact decodeParametersUpTo_wire hcount hall

/-- Every accepted message is encoded as the bytes it was read from. -/
theorem encode_decode {bytes : List UInt8} {m : Message} (h : Message.decode bytes = .ok m) :
    m.encode = .ok bytes := by
  unfold Message.decode at h
  split at h
  · cases h
  rename_i hbounds
  rw [not_not] at hbounds
  split at h
  · cases h
  rename_i hfront
  rw [not_or, not_not, not_not] at hfront
  split at h
  · cases h
  rename_i parameters hparameters
  obtain rfl := Except.ok.inj h
  have hid : ofBigEndian (slice bytes 4 6) < 2 ^ 16 := ofBigEndian_slice_lt bytes 4
  have hlength : (bytes.drop 6).length + 6 = ofBigEndian (slice bytes 2 4) := by
    rw [hfront.2, List.length_drop]
    omega
  unfold Message.encode
  rw [decodeParameters_iff.mp hparameters]
  dsimp only
  rw [hlength, UInt16.toNat_ofNat_of_lt' hid, ← hfront.1,
    bigEndian_slice 2 (by omega), bigEndian_slice 4 hbounds.1,
    slice_append_slice _ (by decide) (by decide), slice_append_slice _ (by decide) (by decide),
    slice_zero, List.take_append_drop]

/-! ## Groups -/

/-- `Parameter::group`. -/
def Parameter.group (id : UInt16) (fields : List Parameter) : Except Error Parameter :=
  match encodeParameters fields with
  | .error e => .error e
  | .ok value => .ok ⟨id, value⟩

/-- A parameter with bytes for a value, or with parameters of its own. -/
inductive Field where
  | bytes (id : UInt16) (value : List UInt8)
  | group (id : UInt16) (fields : List Field)

mutual

/-- The parameter of a field. -/
def Field.encode : Field → Except Error Parameter
  | .bytes id value => .ok ⟨id, value⟩
  | .group id fields =>
    match encodeFields fields with
    | .error e => .error e
    | .ok parameters => Parameter.group id parameters

def encodeFields : List Field → Except Error (List Parameter)
  | [] => .ok []
  | field :: fields =>
    match field.encode with
    | .error e => .error e
    | .ok parameter =>
      match encodeFields fields with
      | .error e => .error e
      | .ok parameters => .ok (parameter :: parameters)

end

mutual

/-- A parameter is read as a field: the parameter reader is used again on the value of a group. -/
def Field.Reads : Field → Parameter → Prop
  | .bytes id value, p => p = ⟨id, value⟩
  | .group id fields, p =>
    p.id = id ∧ ∃ parameters, decodeParameters p.value = .ok parameters ∧ ReadAll fields parameters

def ReadAll : List Field → List Parameter → Prop
  | [], parameters => parameters = []
  | field :: fields, parameters =>
    ∃ parameter rest, parameters = parameter :: rest ∧ field.Reads parameter ∧ ReadAll fields rest

end

mutual

/-- On every level a field is read back from what it was encoded to, and from nothing else. -/
theorem encode_iff_reads : ∀ (field : Field) (p : Parameter), field.encode = .ok p ↔ field.Reads p
  | .bytes id value, p => by
    rw [Field.encode, Field.Reads]
    constructor
    · intro h
      exact (Except.ok.inj h).symm
    · rintro rfl
      rfl
  | .group id fields, p => by
    rw [Field.encode, Field.Reads]
    constructor
    · intro h
      split at h
      · cases h
      rename_i parameters hfields
      unfold Parameter.group at h
      split at h
      · cases h
      rename_i value hvalue
      obtain rfl := Except.ok.inj h
      exact ⟨rfl, parameters, decodeParameters_iff.mpr hvalue,
        (encodeFields_iff_readAll fields parameters).mp hfields⟩
    · rintro ⟨rfl, parameters, hvalue, hfields⟩
      rw [(encodeFields_iff_readAll fields parameters).mpr hfields]
      dsimp only
      rw [Parameter.group, decodeParameters_iff.mp hvalue]

theorem encodeFields_iff_readAll : ∀ (fields : List Field) (ps : List Parameter),
    encodeFields fields = .ok ps ↔ ReadAll fields ps
  | [], ps => by
    rw [encodeFields, ReadAll]
    constructor
    · intro h
      exact (Except.ok.inj h).symm
    · rintro rfl
      rfl
  | field :: fields, ps => by
    rw [encodeFields, ReadAll]
    constructor
    · intro h
      split at h
      · cases h
      rename_i parameter hfield
      split at h
      · cases h
      rename_i parameters hfields
      obtain rfl := Except.ok.inj h
      exact ⟨parameter, parameters, rfl, (encode_iff_reads field parameter).mp hfield,
        (encodeFields_iff_readAll fields parameters).mp hfields⟩
    · rintro ⟨parameter, parameters, rfl, hfield, hfields⟩
      rw [(encode_iff_reads field parameter).mpr hfield]
      dsimp only
      rw [(encodeFields_iff_readAll fields parameters).mpr hfields]

end

/-- A message that fits is encoded. -/
theorem encode_fits {m : Message} (hcount : m.parameters.length ≤ maxParams)
    (h : (m.parameters.flatMap Parameter.wire).length + 6 ≤ maxMessage) :
    ∃ bytes, m.encode = .ok bytes := by
  unfold Message.encode
  rw [encodeParameters_fits hcount (by omega)]
  exact ⟨_, rfl⟩

/-- Every message that fits is decoded from its encoding, with every group on every level read
back; and every accepted byte string is the encoding of the message read from it. -/
theorem message_codec :
    (∀ m : Message, m.parameters.length ≤ maxParams →
      (m.parameters.flatMap Parameter.wire).length + 6 ≤ maxMessage →
      ∃ bytes, m.encode = .ok bytes ∧ Message.decode bytes = .ok m ∧
        ∀ fields, encodeFields fields = .ok m.parameters ↔ ReadAll fields m.parameters) ∧
    ∀ (bytes : List UInt8) (m : Message), Message.decode bytes = .ok m → m.encode = .ok bytes := by
  constructor
  · intro m hcount hfits
    obtain ⟨bytes, hencode⟩ := encode_fits hcount hfits
    exact ⟨bytes, hencode, decode_encode hencode, fun fields =>
      encodeFields_iff_readAll fields m.parameters⟩
  · exact fun _ _ => encode_decode

/-- A group inside a group, and an empty one. -/
def sampleFields : List Field := [.group 1 [.group 2 [.bytes 3 [42]], .bytes 4 []], .group 5 []]

def sampleMessage : Message :=
  ⟨0xaa01, [⟨1, [0, 9, 0, 2, 0, 5, 0, 3, 42, 0, 4, 0, 4]⟩, ⟨5, []⟩]⟩

theorem message_codec_sample :
    ∃ bytes, Message.decode bytes = .ok sampleMessage ∧
      ReadAll sampleFields sampleMessage.parameters ∧ sampleMessage.encode = .ok bytes := by
  obtain ⟨bytes, -, hdecode, hfields⟩ := message_codec.1 sampleMessage (by decide) (by decide)
  exact ⟨bytes, hdecode, (hfields sampleFields).mp (by decide), message_codec.2 _ _ hdecode⟩

end ProjectArgo.CarPlay.Csm
