import ProjectArgo.CarPlay.Basic
import ProjectArgo.View.MediaSocket
import Mathlib.Data.List.GetD

/-!
# The receiver's own walks over screen data

Before a screen stream exists the receiver walks over the configuration record and fills in
reserved bits; for every access unit it looks for a keyframe. Both walks index into slices,
where an index out of bounds would end the process, and both must come to the same offsets
and the same answers as the checks of the media socket.
-/
namespace ProjectArgo.CarPlay.ScreenStream

open Library.Bytes Library.Run

/-- Why a walk ends without a result: an error, or an index out of bounds. -/
inductive Halt where
  | error (e : Error)
  | outOfBounds
  deriving DecidableEq

/-- `bytes[i]`. -/
def index (bytes : List UInt8) (i : ℕ) : Except Halt UInt8 :=
  match bytes[i]? with
  | some value => .ok value
  | none => .error .outOfBounds

/-- `&bytes[first..]`. -/
def sliceFrom (bytes : List UInt8) (first : ℕ) : Except Halt (List UInt8) :=
  if bytes.length < first then .error .outOfBounds else .ok (bytes.drop first)

theorem index_of_lt {bytes : List UInt8} {i : ℕ} (h : i < bytes.length) :
    index bytes i = .ok (bytes.getD i 0) := by
  simp [index, List.getD_eq_getElem?_getD, List.getElem?_eq_getElem h]

theorem sliceFrom_of_le {bytes : List UInt8} {first : ℕ} (h : first ≤ bytes.length) :
    sliceFrom bytes first = .ok (bytes.drop first) := if_neg (Nat.not_lt.mpr h)

/-! ## The configuration record -/

/-- The end of `count` parameter sets from `position` on. The checked addition of the source
fails only where the sum is beyond the record. -/
def skip (config : List UInt8) : ℕ → ℕ → Except Halt ℕ
  | 0, position => .ok position
  | count + 1, position =>
    if config.length < position + 2 then .error (.error .bounds)
    else
      let length := ofBigEndian (slice config position (position + 2))
      let position := position + (2 + length)
      if length = 0 ∨ config.length < position then .error (.error .bounds)
      else skip config count position

/-- The end of the lists of sequence and of picture parameter sets. -/
def listsEnd (config : List UInt8) : Except Halt ℕ := do
  let sets ← index config 5
  let position ← skip config (sets &&& 31).toNat 6
  match config[position]? with
  | none => .error (.error .bounds)
  | some count => skip config count.toNat (position + 1)

/-- The loop that fills in reserved bits. -/
def setReserved (position : ℕ) : List (ℕ × UInt8) → List UInt8 → Except Halt (List UInt8)
  | [], config => .ok config
  | (offset, mask) :: fields, config => do
    let value ← index config (position + offset)
    if value &&& mask ≠ 0 ∧ value &&& mask ≠ mask then .error (.error .malformed)
    else setReserved position fields (config.set (position + offset) (value ||| mask))

/-- Real iOS sends these reserved fields as zero. -/
def reservedFields : List (ℕ × UInt8) := [(0, 0xfc), (1, 0xf8), (2, 0xf8)]

def canonicalAvcc (bytes : List UInt8) : Except Halt (List UInt8) :=
  if bytes.length < 7 then .error (.error .malformed)
  else do
    let version ← index bytes 0
    if version ≠ 1 then .error (.error .malformed)
    else do
      let position ← listsEnd bytes
      if position < bytes.length then do
        let profile ← index bytes 1
        if profile ∉ [100, 110, 122, 144] ∨ bytes.length - position < 4 then
          .error (.error .malformed)
        else setReserved position reservedFields bytes
      else .ok bytes

/-! ## Access units -/

/-- The loop of `isKeyframe`. -/
def keyframeFrom (length count : ℕ) (key : Bool) (bytes : List UInt8) : Except Halt Bool :=
  if bytes = [] then .ok key
  else if 1024 < count + 1 then .error (.error .bounds)
  else if bytes.length < length then .error (.error .bounds)
  else do
    let size := ofBigEndian (bytes.take length)
    let bytes ← sliceFrom bytes length
    if size = 0 ∨ bytes.length < size then .error (.error .bounds)
    else do
      let first ← index bytes 0
      let rest ← sliceFrom bytes size
      keyframeFrom length (count + 1) (key || first &&& 31 == 5) rest
termination_by 1024 - count

def isKeyframe (bytes : List UInt8) (length : ℕ) : Except Halt Bool :=
  if length ∉ [1, 2, 4] then .error (.error .malformed) else keyframeFrom length 0 false bytes

/-! ## Walks stay within bounds -/

theorem skip_bounds {config : List UInt8} {count position last : ℕ}
    (hposition : position ≤ config.length) (h : skip config count position = .ok last) :
    position ≤ last ∧ last ≤ config.length := by
  induction count generalizing position with
  | zero =>
    cases h
    exact ⟨le_rfl, hposition⟩
  | succ count ih =>
    simp only [skip] at h
    split_ifs at h with hshort hbad
    rw [not_or] at hbad
    obtain ⟨hle, hlast⟩ := ih (Nat.le_of_not_lt hbad.2) h
    exact ⟨by omega, hlast⟩

theorem skip_ne_outOfBounds (config : List UInt8) (count position : ℕ) :
    skip config count position ≠ .error .outOfBounds := by
  induction count generalizing position with
  | zero => rintro ⟨⟩
  | succ count ih =>
    simp only [skip]
    split
    · rintro ⟨⟩
    split
    · rintro ⟨⟩
    · exact ih _

/-- What the lists end at, or an error that is not an index. -/
theorem listsEnd_cases {config : List UInt8} (h : 7 ≤ config.length) :
    (∃ position, listsEnd config = .ok position ∧ 6 < position ∧ position ≤ config.length) ∨
      ∃ e, listsEnd config = .error (.error e) := by
  unfold listsEnd
  rw [index_of_lt (by omega)]
  simp only [bind, Except.bind]
  cases hsets : skip config (config.getD 5 0 &&& 31).toNat 6 with
  | error halt =>
    cases halt with
    | error e => exact .inr ⟨e, rfl⟩
    | outOfBounds => exact (skip_ne_outOfBounds _ _ _ hsets).elim
  | ok position =>
    obtain ⟨hstart, hle⟩ := skip_bounds (by omega) hsets
    dsimp only
    cases hcount : config[position]? with
    | none => exact .inr ⟨.bounds, rfl⟩
    | some count =>
      have hlt := (List.getElem?_eq_some_iff.mp hcount).1
      dsimp only
      cases hpictures : skip config count.toNat (position + 1) with
      | error halt =>
        cases halt with
        | error e => exact .inr ⟨e, rfl⟩
        | outOfBounds => exact (skip_ne_outOfBounds _ _ _ hpictures).elim
      | ok last =>
        obtain ⟨hnext, hlast⟩ := skip_bounds (by omega) hpictures
        exact .inl ⟨last, rfl, by omega, hlast⟩

theorem setReserved_ne_outOfBounds {position : ℕ} {fields : List (ℕ × UInt8)}
    {config : List UInt8} (h : ∀ field ∈ fields, position + field.1 < config.length) :
    setReserved position fields config ≠ .error .outOfBounds := by
  induction fields generalizing config with
  | nil => rintro ⟨⟩
  | cons field fields ih =>
    rw [List.forall_mem_cons] at h
    obtain ⟨offset, mask⟩ := field
    rw [setReserved, index_of_lt h.1]
    simp only [bind, Except.bind]
    split
    · rintro ⟨⟩
    · refine ih fun field hmem => ?_
      rw [List.length_set]
      exact h.2 field hmem

theorem canonicalAvcc_ne_outOfBounds (bytes : List UInt8) :
    canonicalAvcc bytes ≠ .error .outOfBounds := by
  unfold canonicalAvcc
  split
  · rintro ⟨⟩
  rename_i hlong
  rw [index_of_lt (by omega)]
  simp only [bind, Except.bind]
  split
  · rintro ⟨⟩
  rcases listsEnd_cases (Nat.le_of_not_lt hlong) with ⟨position, hlists, -, hle⟩ | ⟨e, hlists⟩
  · rw [hlists, index_of_lt (by omega)]
    dsimp only
    split
    · split
      · rintro ⟨⟩
      · rename_i hprofile
        apply setReserved_ne_outOfBounds
        intro field hmem
        simp only [reservedFields, List.mem_cons, List.not_mem_nil, or_false] at hmem
        rw [not_or] at hprofile
        rcases hmem with rfl | rfl | rfl <;> dsimp only <;> omega
    · rintro ⟨⟩
  · rw [hlists]
    rintro ⟨⟩

theorem keyframeFrom_ne_outOfBounds (length count : ℕ) (key : Bool) (bytes : List UInt8) :
    keyframeFrom length count key bytes ≠ .error .outOfBounds := by
  induction hleft : 1024 - count generalizing count key bytes with
  | zero =>
    rw [keyframeFrom]
    split
    · rintro ⟨⟩
    · rw [if_pos (by omega)]
      rintro ⟨⟩
  | succ left ih =>
    rw [keyframeFrom]
    split
    · rintro ⟨⟩
    split
    · rintro ⟨⟩
    split
    · rintro ⟨⟩
    rename_i hroom
    rw [sliceFrom_of_le (Nat.le_of_not_lt hroom)]
    simp only [bind, Except.bind]
    split
    · rintro ⟨⟩
    rename_i hsize
    rw [not_or] at hsize
    rw [index_of_lt (by omega), sliceFrom_of_le (by omega)]
    exact ih _ _ _ (by omega)

theorem isKeyframe_ne_outOfBounds (bytes : List UInt8) (length : ℕ) :
    isKeyframe bytes length ≠ .error .outOfBounds := by
  unfold isKeyframe
  split
  · rintro ⟨⟩
  · exact keyframeFrom_ne_outOfBounds _ _ _ _

/-! ## Canonical records -/

theorem or_and_mask (value mask : UInt8) : (value ||| mask) &&& mask = mask := by
  apply UInt8.eq_of_toBitVec_eq
  ext i hi
  simp
  grind

theorem or_of_and_mask {value mask : UInt8} (h : value &&& mask = mask) :
    value ||| mask = value := by
  have hbits := congrArg UInt8.toBitVec h
  apply UInt8.eq_of_toBitVec_eq
  ext i hi
  have hbit := congrArg (fun word => word[i]) hbits
  simp at hbit ⊢
  grind

/-- The bits that a list of fields sets in the byte at offset `i`. -/
def reservedBits (position : ℕ) (fields : List (ℕ × UInt8)) (i : ℕ) : UInt8 :=
  fields.foldr (fun field bits => if position + field.1 = i then field.2 ||| bits else bits) 0

/-- Only reserved bits are set. -/
theorem setReserved_ok {position : ℕ} {fields : List (ℕ × UInt8)} {config filled : List UInt8}
    (h : setReserved position fields config = .ok filled) :
    filled.length = config.length ∧
      ∀ i, filled[i]? = config[i]?.map (· ||| reservedBits position fields i) := by
  induction fields generalizing config with
  | nil =>
    cases h
    refine ⟨rfl, fun i => ?_⟩
    simp [reservedBits]
  | cons field fields ih =>
    obtain ⟨offset, mask⟩ := field
    rw [setReserved] at h
    unfold index at h
    cases hvalue : config[position + offset]? with
    | none =>
      rw [hvalue] at h
      cases h
    | some value =>
      rw [hvalue] at h
      simp only [bind, Except.bind] at h
      split at h
      · cases h
      obtain ⟨hlength, hbits⟩ := ih h
      rw [List.length_set] at hlength
      refine ⟨hlength, fun i => ?_⟩
      rw [hbits, List.getElem?_set]
      by_cases hi : position + offset = i
      · subst hi
        have hlt := (List.getElem?_eq_some_iff.mp hvalue).1
        rw [if_pos rfl, if_pos hlt, hvalue]
        simp [reservedBits, UInt8.or_assoc]
      · rw [if_neg hi]
        simp [reservedBits, hi]

/-- A record whose reserved bits are set is left as it is. -/
theorem setReserved_self {position : ℕ} {fields : List (ℕ × UInt8)} {config : List UInt8}
    (h : ∀ field ∈ fields, ∃ value, config[position + field.1]? = some value ∧
      value &&& field.2 = field.2) : setReserved position fields config = .ok config := by
  induction fields with
  | nil => rfl
  | cons field fields ih =>
    rw [List.forall_mem_cons] at h
    obtain ⟨offset, mask⟩ := field
    obtain ⟨value, hvalue, hmask⟩ := h.1
    have hset : config.set (position + offset) (value ||| mask) = config := by
      rw [or_of_and_mask hmask]
      obtain ⟨hlt, rfl⟩ := List.getElem?_eq_some_iff.mp hvalue
      exact List.set_getElem_self hlt
    rw [setReserved, index, hvalue]
    simp only [bind, Except.bind]
    rw [if_neg fun hbad => hbad.2 hmask, hset]
    exact ih h.2

/-- The walk over the lists sees nothing behind their end. -/
theorem skip_congr {config other : List UInt8} {count position last : ℕ}
    (hposition : position ≤ config.length) (hlength : other.length = config.length)
    (hsame : other.take last = config.take last) (h : skip config count position = .ok last) :
    skip other count position = .ok last := by
  induction count generalizing position with
  | zero => exact h
  | succ count ih =>
    have hle := (skip_bounds hposition h).1
    simp only [skip] at h ⊢
    rw [hlength]
    split_ifs at h with hshort hbad
    have hend : position + (2 + ofBigEndian (slice config position (position + 2))) ≤ last :=
      (skip_bounds (Nat.le_of_not_lt (not_or.mp hbad).2) h).1
    have hwithin : position + 2 ≤ (config.take last).length := by
      rw [List.length_take]
      omega
    have hfield : slice other position (position + 2) = slice config position (position + 2) := by
      rw [← List.take_append_drop last other, ← List.take_append_drop last config, hsame,
        slice_append_of_le hwithin, slice_append_of_le hwithin]
    rw [hfield, if_neg hshort, if_neg hbad]
    exact ih (Nat.le_of_not_lt (not_or.mp hbad).2) h

/-- The parts of a walk over both lists that ends at `last`. -/
theorem listsEnd_ok {config : List UInt8} {last : ℕ} (h : listsEnd config = .ok last) :
    ∃ sets position count, config[5]? = some sets ∧
      skip config (sets &&& 31).toNat 6 = .ok position ∧ config[position]? = some count ∧
      skip config count.toNat (position + 1) = .ok last := by
  unfold listsEnd index at h
  cases hsets : config[5]? with
  | none =>
    rw [hsets] at h
    cases h
  | some sets =>
    rw [hsets] at h
    simp only [bind, Except.bind] at h
    cases hposition : skip config (sets &&& 31).toNat 6 with
    | error halt =>
      rw [hposition] at h
      cases h
    | ok position =>
      rw [hposition] at h
      dsimp only at h
      cases hcount : config[position]? with
      | none =>
        rw [hcount] at h
        cases h
      | some count =>
        rw [hcount] at h
        exact ⟨sets, position, count, rfl, hposition, hcount, h⟩

theorem listsEnd_of {config : List UInt8} {sets count : UInt8} {position last : ℕ}
    (hsets : config[5]? = some sets) (hposition : skip config (sets &&& 31).toNat 6 = .ok position)
    (hcount : config[position]? = some count)
    (hlast : skip config count.toNat (position + 1) = .ok last) : listsEnd config = .ok last := by
  unfold listsEnd index
  rw [hsets]
  simp only [bind, Except.bind, hposition, hcount, hlast]

theorem listsEnd_congr {config other : List UInt8} {last : ℕ} (hlong : 7 ≤ config.length)
    (hlength : other.length = config.length) (hsame : other.take last = config.take last)
    (h : listsEnd config = .ok last) : listsEnd other = .ok last := by
  obtain ⟨sets, position, count, hsets, hposition, hcount, hlast⟩ := listsEnd_ok h
  have hlt := (List.getElem?_eq_some_iff.mp hcount).1
  obtain ⟨hstart, -⟩ := skip_bounds (by omega) hposition
  obtain ⟨hnext, -⟩ := skip_bounds (by omega) hlast
  have hget : ∀ i < last, other[i]? = config[i]? := by
    intro i hi
    rw [← List.getElem?_take_of_lt hi, hsame, List.getElem?_take_of_lt hi]
  have htake : other.take position = config.take position := by
    have hboth := congrArg (List.take position) hsame
    rwa [List.take_take, List.take_take, Nat.min_eq_left (by omega)] at hboth
  apply listsEnd_of
  · rw [hget 5 (by omega)]
    exact hsets
  · exact skip_congr (by omega) hlength htake hposition
  · rw [hget position (by omega)]
    exact hcount
  · exact skip_congr (by omega) hlength hsame hlast

/-- A canonical record differs in the reserved bits behind its lists, and is its own canonical
form. -/
theorem canonicalAvcc_ok {bytes config : List UInt8} (h : canonicalAvcc bytes = .ok config) :
    ∃ position, listsEnd bytes = .ok position ∧ config.length = bytes.length ∧
      (∀ i, config[i]? = bytes[i]?.map (· ||| reservedBits position reservedFields i)) ∧
      canonicalAvcc config = .ok config := by
  unfold canonicalAvcc at h
  split_ifs at h with hshort
  rw [index_of_lt (by omega)] at h
  simp only [bind, Except.bind] at h
  split_ifs at h with hversion
  rcases listsEnd_cases (Nat.le_of_not_lt hshort) with ⟨position, hlists, hstart, hle⟩ | ⟨e, hlists⟩
  swap
  · rw [hlists] at h
    cases h
  rw [hlists, index_of_lt (by omega)] at h
  dsimp only at h
  refine ⟨position, hlists, ?_⟩
  have hbits_zero : ∀ i, i < position ∨ position + 3 ≤ i →
      reservedBits position reservedFields i = 0 := by
    intro i hi
    simp only [reservedBits, reservedFields, List.foldr_cons, List.foldr_nil]
    rw [if_neg (by omega), if_neg (by omega), if_neg (by omega)]
  by_cases hmore : position < bytes.length
  · rw [if_pos hmore] at h
    split_ifs at h with hprofile
    obtain ⟨hlength, hbits⟩ := setReserved_ok h
    refine ⟨hlength, hbits, ?_⟩
    have hfront : ∀ i < position, config[i]? = bytes[i]? := by
      intro i hi
      rw [hbits, hbits_zero i (Or.inl hi)]
      simp
    have htake : config.take position = bytes.take position := by
      apply List.ext_getElem?
      intro i
      rw [List.getElem?_take, List.getElem?_take]
      split
      · exact hfront i ‹_›
      · rfl
    have hgetD : ∀ i < position, config.getD i 0 = bytes.getD i 0 := by
      intro i hi
      rw [List.getD_eq_getElem?_getD, hfront i hi, List.getD_eq_getElem?_getD]
    have hagain := listsEnd_congr (Nat.le_of_not_lt hshort) hlength htake hlists
    unfold canonicalAvcc
    rw [hlength, if_neg hshort, index_of_lt (by omega), hgetD 0 (by omega)]
    simp only [bind, Except.bind]
    rw [if_neg hversion, hagain, index_of_lt (by omega), hgetD 1 (by omega)]
    dsimp only
    rw [if_pos hmore, if_neg hprofile]
    apply setReserved_self
    intro field hmem
    rw [not_or] at hprofile
    have hroom : ∀ field ∈ reservedFields, position + field.1 < bytes.length ∧
        reservedBits position reservedFields (position + field.1) = field.2 := by
      simp only [reservedFields, reservedBits, List.forall_mem_cons, List.foldr_cons,
        List.foldr_nil]
      refine ⟨⟨by omega, ?_⟩, ⟨by omega, ?_⟩, ⟨by omega, ?_⟩, List.forall_mem_nil _⟩ <;> simp
    obtain ⟨hlt, hmask⟩ := hroom field hmem
    refine ⟨bytes.getD (position + field.1) 0 ||| field.2, ?_, or_and_mask _ _⟩
    rw [hbits, hmask, List.getD_eq_getElem?_getD, List.getElem?_eq_getElem hlt]
    rfl
  · rw [if_neg hmore] at h
    cases h
    have hsame : canonicalAvcc bytes = .ok bytes := by
      unfold canonicalAvcc
      rw [if_neg hshort, index_of_lt (by omega)]
      simp only [bind, Except.bind]
      rw [if_neg hversion, hlists]
      dsimp only
      rw [if_neg hmore]
    refine ⟨rfl, fun i => ?_, hsame⟩
    by_cases hi : i < position
    · rw [hbits_zero i (Or.inl hi)]
      simp
    · rw [List.getElem?_eq_none (by omega)]
      rfl

/-! ## The same ends as the media socket's reader -/

open Media (ConfigReader)

/-- The walk ends where the reader of parameter sets does. -/
theorem skip_of_nals {bytes : List UInt8} {codec : Media.Codec} {type : UInt8} {count : ℕ}
    {r next : ConfigReader} (h : ConfigReader.nals bytes codec type count r = some next) :
    skip bytes count r.offset = .ok next.offset := by
  induction count generalizing r with
  | zero =>
    cases h
    rfl
  | succ count ih =>
    simp only [ConfigReader.nals] at h
    split_ifs at h with hcount
    split at h
    · contradiction
    rename_i size reader hword
    obtain ⟨hlen, hsize, rfl⟩ := View.word_some hword
    dsimp only at hlen hsize h
    split_ifs at h with hfits
    split at h
    · contradiction
    rename_i kind hkind
    split_ifs at h with htype
    have hfield : ofBigEndian (slice bytes r.offset (r.offset + 2)) = size := by
      have hpair : slice bytes r.offset (r.offset + 2) =
          [bytes.getD r.offset 0, bytes.getD (r.offset + 1) 0] := by
        have hfirst : r.offset < bytes.length := by omega
        have hsecond : r.offset + 1 < bytes.length := by omega
        rw [slice, Nat.add_sub_cancel_left, List.drop_eq_getElem_cons hfirst,
          List.drop_eq_getElem_cons hsecond, List.getD_eq_getElem _ _ hfirst,
          List.getD_eq_getElem _ _ hsecond]
        rfl
      rw [hpair, ofBigEndian_pair, ← hsize]
      rfl
    -- No unit is empty, since it has a type.
    have hpositive : size ≠ 0 := by
      rintro rfl
      simp [slice, Media.nalType] at hkind
    rw [skip, if_neg (by omega)]
    simp only [hfield]
    rw [if_neg (by omega), ← Nat.add_assoc]
    exact ih h

/-- The bytes that a record must have, and the parts of its lists. -/
theorem configuration_ok {bytes : List UInt8} {length : ℕ}
    (h : Media.configuration bytes .h264 .lengthPrefixed = some length) :
    7 ≤ bytes.length ∧ bytes.getD 0 0 = 1 ∧ length = (bytes.getD 4 0 &&& 3).toNat + 1 ∧
      ∃ r, ConfigReader.avc bytes ⟨6, 0, 0⟩ = some r ∧ r.offset = bytes.length := by
  unfold Media.configuration at h
  dsimp only at h
  split_ifs at h with hempty hshort hthree
  split at h
  · contradiction
  rename_i reader hread
  split_ifs at h with hend
  rw [not_or, not_not] at hshort
  exact ⟨Nat.le_of_not_lt hshort.1, hshort.2, (Option.some.inj h).symm, reader, hread, hend.1⟩

theorem avc_ok {bytes : List UInt8} {r : ConfigReader}
    (h : ConfigReader.avc bytes ⟨6, 0, 0⟩ = some r) :
    ∃ sets count counted pictures,
      ConfigReader.nals bytes .h264 7 (bytes.getD 5 0 &&& 31).toNat ⟨6, 0, 0⟩ = some sets ∧
      sets.byte bytes = some (count, counted) ∧
      ConfigReader.nals bytes .h264 8 count.toNat counted = some pictures ∧
      pictures.extension bytes = some r := by
  unfold ConfigReader.avc at h
  split_ifs at h with hflags
  split at h
  · contradiction
  rename_i sets hsets
  split at h
  · contradiction
  rename_i count counted hcount
  split at h
  · contradiction
  rename_i pictures hpictures
  exact ⟨sets, count, counted, pictures, hsets, hcount, hpictures, h⟩

/-- Both walks over the lists of a record that is accepted end at the same offset. -/
theorem listsEnd_of_avc {bytes : List UInt8} {sets counted pictures : ConfigReader} {count : UInt8}
    (hlong : 7 ≤ bytes.length)
    (hsets : ConfigReader.nals bytes .h264 7 (bytes.getD 5 0 &&& 31).toNat ⟨6, 0, 0⟩ = some sets)
    (hcount : sets.byte bytes = some (count, counted))
    (hpictures : ConfigReader.nals bytes .h264 8 count.toNat counted = some pictures) :
    listsEnd bytes = .ok pictures.offset := by
  obtain ⟨hlt, hvalue, rfl⟩ := View.byte_some hcount
  have hfive : bytes[5]? = some (bytes.getD 5 0) := by
    rw [List.getD_eq_getElem _ _ (by omega), List.getElem?_eq_getElem (by omega)]
  have hnumber : bytes[sets.offset]? = some count := by
    rw [← hvalue, List.getD_eq_getElem _ _ hlt, List.getElem?_eq_getElem hlt]
  exact listsEnd_of hfive (skip_of_nals hsets) hnumber (skip_of_nals hpictures)

/-- The tail of a record that is accepted: nothing, or three bytes with all reserved bits. -/
theorem extension_ok {bytes : List UInt8} {r next : ConfigReader}
    (h : r.extension bytes = some next) (hmore : r.offset < bytes.length) :
    bytes.getD 1 0 ∈ [100, 110, 122, 144] ∧ r.offset + 4 ≤ bytes.length ∧
      ∀ field ∈ reservedFields, bytes.getD (r.offset + field.1) 0 &&& field.2 = field.2 := by
  unfold ConfigReader.extension at h
  rw [if_pos hmore] at h
  split_ifs at h with hprofile
  split at h
  · contradiction
  rename_i chroma r₁ hfirst
  obtain ⟨-, hchroma, rfl⟩ := View.byte_some hfirst
  split_ifs at h with hc
  split at h
  · contradiction
  rename_i luma r₂ hsecond
  obtain ⟨-, hluma, rfl⟩ := View.byte_some hsecond
  split_ifs at h with hl
  split at h
  · contradiction
  rename_i depth r₃ hthird
  obtain ⟨-, hdepth, rfl⟩ := View.byte_some hthird
  split_ifs at h with hd
  split at h
  · contradiction
  rename_i count r₄ hfourth
  obtain ⟨hlen, -, rfl⟩ := View.byte_some hfourth
  dsimp only at hchroma hluma hdepth hlen
  rw [not_not] at hc hl hd
  refine ⟨hprofile, by omega, ?_⟩
  simp only [reservedFields, List.forall_mem_cons]
  rw [Nat.add_zero, hchroma, hluma, hdepth]
  exact ⟨hc, hl, hd, List.forall_mem_nil _⟩

/-- A record that the media socket accepts is canonical. -/
theorem canonicalAvcc_of_configuration {bytes : List UInt8} {length : ℕ}
    (h : Media.configuration bytes .h264 .lengthPrefixed = some length) :
    canonicalAvcc bytes = .ok bytes := by
  obtain ⟨hlong, hversion, -, r, havc, -⟩ := configuration_ok h
  obtain ⟨sets, count, counted, pictures, hsets, hcount, hpictures, hextension⟩ := avc_ok havc
  have hlists := listsEnd_of_avc hlong hsets hcount hpictures
  unfold canonicalAvcc
  rw [if_neg (by omega), index_of_lt (by omega)]
  simp only [bind, Except.bind]
  rw [hversion, if_neg (not_not.mpr rfl), hlists, index_of_lt (by omega)]
  dsimp only
  split
  · rename_i hmore
    obtain ⟨hprofile, hroom, hmasks⟩ := extension_ok hextension hmore
    rw [if_neg (by rw [not_or, not_not]; exact ⟨hprofile, by omega⟩)]
    apply setReserved_self
    intro field hmem
    have hlt : pictures.offset + field.1 < bytes.length := by
      simp only [reservedFields, List.mem_cons, List.not_mem_nil, or_false] at hmem
      rcases hmem with rfl | rfl | rfl <;> dsimp only <;> omega
    refine ⟨bytes.getD (pictures.offset + field.1) 0, ?_, hmasks field hmem⟩
    rw [List.getD_eq_getElem _ _ hlt, List.getElem?_eq_getElem hlt]
  · rfl

/-- `canonical_avcc` stays within bounds, changes reserved bits behind the lists only and is
idempotent; and a record that the media socket accepts is left as it is, with the end of its
lists where the media socket's reader finds it. -/
theorem canonical_record :
    (∀ bytes : List UInt8, canonicalAvcc bytes ≠ .error .outOfBounds) ∧
    (∀ bytes config : List UInt8, canonicalAvcc bytes = .ok config →
      ∃ position, listsEnd bytes = .ok position ∧ config.length = bytes.length ∧
        (∀ i, config[i]? = bytes[i]?.map (· ||| reservedBits position reservedFields i)) ∧
        canonicalAvcc config = .ok config) ∧
    ∀ (bytes : List UInt8) (length : ℕ),
      Media.configuration bytes .h264 .lengthPrefixed = some length →
        canonicalAvcc bytes = .ok bytes ∧
        ∃ sets count counted pictures,
          ConfigReader.nals bytes .h264 7 (bytes.getD 5 0 &&& 31).toNat ⟨6, 0, 0⟩ = some sets ∧
          sets.byte bytes = some (count, counted) ∧
          ConfigReader.nals bytes .h264 8 count.toNat counted = some pictures ∧
          listsEnd bytes = .ok pictures.offset := by
  refine ⟨canonicalAvcc_ne_outOfBounds, fun bytes config h => canonicalAvcc_ok h, ?_⟩
  intro bytes length h
  obtain ⟨hlong, -, -, r, havc, -⟩ := configuration_ok h
  obtain ⟨sets, count, counted, pictures, hsets, hcount, hpictures, -⟩ := avc_ok havc
  exact ⟨canonicalAvcc_of_configuration h, sets, count, counted, pictures, hsets, hcount,
    hpictures, listsEnd_of_avc hlong hsets hcount hpictures⟩

/-- A record with one parameter set of each kind, as iOS sends it and as it is passed on. -/
def sentRecord : List UInt8 :=
  [1, 100, 0, 31, 255, 225, 0, 1, 0x67, 1, 0, 1, 0x68, 1, 0, 0, 0]

def passedRecord : List UInt8 :=
  [1, 100, 0, 31, 255, 225, 0, 1, 0x67, 1, 0, 1, 0x68, 0xfd, 0xf8, 0xf8, 0]

theorem canonical_record_sent :
    canonicalAvcc passedRecord = .ok passedRecord ∧
      ∃ sets, ConfigReader.nals passedRecord .h264 7 1 ⟨6, 0, 0⟩ = some sets := by
  obtain ⟨-, -, -, -, hagain⟩ := canonical_record.2.1 sentRecord passedRecord (by decide)
  obtain ⟨-, sets, -, -, -, hsets, -⟩ := canonical_record.2.2 passedRecord 4 (by decide)
  exact ⟨hagain, sets, hsets⟩

/-! ## Keyframes -/

/-- The kind of an accepted unit is in the low bits of its first byte. -/
theorem nalType_h264 {nal : List UInt8} {kind : UInt8} (h : Media.nalType nal .h264 = some kind) :
    nal ≠ [] ∧ kind = nal.getD 0 0 &&& 31 := by
  unfold Media.nalType at h
  dsimp only at h
  split at h
  · contradiction
  rename_i hbad
  rw [not_or] at hbad
  split_ifs at h
  exact ⟨hbad.1, (Option.some.inj h).symm⟩

/-- Both walks split the same unit off. -/
theorem splitNal_lengthPrefixed {length : ℕ} {bytes nal rest : List UInt8}
    (h : Media.splitNal .lengthPrefixed length bytes = some (nal, rest)) :
    length ∈ [1, 2, 4] ∧ length ≤ bytes.length ∧
      ofBigEndian (bytes.take length) ≤ (bytes.drop length).length ∧
      nal = (bytes.drop length).take (ofBigEndian (bytes.take length)) ∧
      rest = (bytes.drop length).drop (ofBigEndian (bytes.take length)) := by
  unfold Media.splitNal at h
  dsimp only at h
  split_ifs at h with hbad hsize
  rw [not_or, not_not] at hbad
  obtain ⟨rfl, rfl⟩ := Prod.mk.inj (Option.some.inj h)
  exact ⟨hbad.1, Nat.le_of_not_lt hbad.2, hsize, rfl, rfl⟩

/-- What the media socket accepts within its budget, the receiver classifies alike. The budget
and the receiver's count add up to the limit of both walks. -/
theorem keyframeFrom_of_inspect {length budget count : ℕ} {config : Bool}
    {result r : Media.Nals} {bytes : List UInt8} (hcount : budget + count = Media.nalLimit)
    (h : Media.inspectUpTo .h264 .lengthPrefixed length config budget result bytes = some r) :
    keyframeFrom length count result.keyframe bytes = .ok r.keyframe := by
  induction budget generalizing count result bytes with
  | zero =>
    unfold Media.inspectUpTo at h
    split_ifs at h with hempty
    obtain rfl := Option.some.inj h
    rw [keyframeFrom, if_pos hempty]
  | succ budget ih =>
    unfold Media.inspectUpTo at h
    split_ifs at h with hempty
    · obtain rfl := Option.some.inj h
      rw [keyframeFrom, if_pos hempty]
    split at h
    · contradiction
    rename_i nal rest hsplit
    split at h
    · contradiction
    rename_i kind hkind
    split_ifs at h
    obtain ⟨-, hroom, hsize, rfl, rfl⟩ := splitNal_lengthPrefixed hsplit
    obtain ⟨hnal, hlow⟩ := nalType_h264 hkind
    have hpos : ofBigEndian (bytes.take length) ≠ 0 := by
      intro hzero
      rw [hzero] at hnal
      exact hnal rfl
    have hlimit : Media.nalLimit = 1024 := rfl
    rw [keyframeFrom, if_neg hempty, if_neg (by omega), if_neg (by omega), sliceFrom_of_le hroom]
    simp only [bind, Except.bind]
    rw [if_neg (by rw [not_or]; exact ⟨hpos, by omega⟩), index_of_lt (by omega),
      sliceFrom_of_le hsize]
    dsimp only
    have hfirst : ((bytes.drop length).take (ofBigEndian (bytes.take length))).getD 0 0 =
        (bytes.drop length).getD 0 0 := by
      rw [List.getD_eq_getElem?_getD, List.getElem?_take_of_lt (by omega),
        ← List.getD_eq_getElem?_getD]
    rw [← hfirst, ← hlow]
    exact ih (by omega) h

theorem isKeyframe_of_inspectNals {bytes : List UInt8} {length : ℕ} {config : Bool}
    {r : Media.Nals} (h : Media.inspectNals bytes .h264 .lengthPrefixed length config = some r) :
    isKeyframe bytes length = .ok r.keyframe := by
  unfold Media.inspectNals at h
  split at h
  · contradiction
  rename_i result hresult
  split_ifs at h with hempty
  obtain rfl := Option.some.inj h
  have hlength : length ∈ [1, 2, 4] := by
    unfold Media.nalLimit Media.inspectUpTo at hresult
    rw [if_neg hempty] at hresult
    split at hresult
    · contradiction
    · rename_i hsplit
      exact (splitNal_lengthPrefixed hsplit).1
  unfold isKeyframe
  rw [if_neg (not_not.mpr hlength)]
  exact keyframeFrom_of_inspect rfl hresult

/-- `nalu_length` of the screen stream. -/
def naluLength (config : List UInt8) : ℕ := (config.getD 4 0 &&& 3).toNat + 1

/-- A stream knows the length that the receiver reads from the same record. -/
theorem lengthBytes_of_new {description : Media.Description} {config : List UInt8}
    {stream : Media.VideoStream} (hcodec : description.codec = .h264)
    (hframing : description.framing = .lengthPrefixed)
    (h : Media.VideoStream.new description config = .ok stream) :
    stream.description = description ∧ stream.lengthBytes = naluLength config := by
  unfold Media.VideoStream.new at h
  split at h
  · contradiction
  split_ifs at h
  split at h
  · contradiction
  rename_i length hlength
  obtain rfl := Except.ok.inj h
  rw [hcodec, hframing] at hlength
  exact ⟨rfl, (configuration_ok hlength).2.2.1⟩

/-- The check of `publish` with the flag that the contents call for. -/
theorem checkAccessUnit_flag {stream : Media.VideoStream} {payload : List UInt8} {r : Media.Nals}
    (h : Media.inspectNals payload stream.description.codec stream.description.framing
      stream.lengthBytes false = some r) :
    stream.checkAccessUnit payload r.keyframe = true ↔
      payload.length ≤ Media.accessUnitLimit ∧ r.picture = true := by
  have hne : payload ≠ [] := by
    rintro rfl
    unfold Media.inspectNals at h
    split at h
    · contradiction
    · rw [if_pos rfl] at h
      contradiction
  unfold Media.VideoStream.checkAccessUnit
  rw [h]
  by_cases hlong : payload.length > Media.accessUnitLimit
  · rw [if_pos (.inr hlong)]
    constructor
    · rintro ⟨⟩
    · rintro ⟨hle, -⟩
      omega
  · rw [if_neg (not_or.mpr ⟨hne, hlong⟩)]
    simp [Nat.le_of_not_lt hlong]

/-- The walk of the receiver stays within bounds and classifies every unit that the media socket
accepts as the media socket does; so no stream that the receiver opened, at any point of its
life, refuses a well-formed unit for the flag passed with it. -/
theorem keyframe_agrees :
    (∀ (bytes : List UInt8) (length : ℕ), isKeyframe bytes length ≠ .error .outOfBounds) ∧
    (∀ (bytes : List UInt8) (length : ℕ) (config : Bool) (r : Media.Nals),
      Media.inspectNals bytes .h264 .lengthPrefixed length config = some r →
        isKeyframe bytes length = .ok r.keyframe) ∧
    ∀ (description : Media.Description) (config : List UInt8) (stream : Media.VideoStream)
      (calls : List Media.VideoStream.Call) (payload : List UInt8) (r : Media.Nals),
      description.codec = .h264 → description.framing = .lengthPrefixed →
      Media.VideoStream.new description config = .ok stream →
      Media.inspectNals payload .h264 .lengthPrefixed
        (run Media.VideoStream.step stream calls).1.lengthBytes false = some r →
        isKeyframe payload (naluLength config) = .ok r.keyframe ∧
        ((run Media.VideoStream.step stream calls).1.checkAccessUnit payload r.keyframe = true ↔
          payload.length ≤ Media.accessUnitLimit ∧ r.picture = true) := by
  refine ⟨isKeyframe_ne_outOfBounds, fun _ _ _ _ => isKeyframe_of_inspectNals, ?_⟩
  intro description config stream calls payload r hcodec hframing hnew hinspect
  obtain ⟨hdescription, hlength⟩ := lengthBytes_of_new hcodec hframing hnew
  have hsame : View.Socket.SameStream stream (run Media.VideoStream.step stream calls).1 := by
    apply run_invariant Media.VideoStream.step (I := View.Socket.SameStream stream)
    · exact ⟨rfl, rfl, rfl, rfl⟩
    · rintro s call ⟨hd, he, hc, hl⟩
      obtain ⟨hd', he', hc', hl'⟩ := View.Socket.step_same s call
      exact ⟨hd'.trans hd, he'.trans he, hc'.trans hc, hl'.trans hl⟩
  obtain ⟨hd, -, -, hl⟩ := hsame
  constructor
  · rw [← hlength, ← hl]
    exact isKeyframe_of_inspectNals hinspect
  · apply checkAccessUnit_flag
    rw [hd, hdescription, hcodec, hframing]
    exact hinspect

/-- A supplemental message in front of one slice of a keyframe. -/
theorem keyframe_agrees_sample :
    isKeyframe [0, 0, 0, 1, 0x06, 0, 0, 0, 2, 0x65, 1]
      (naluLength Media.VideoStream.sampleConfiguration) = .ok true :=
  (keyframe_agrees.2.2 Media.VideoStream.sampleDescription Media.VideoStream.sampleConfiguration
    Media.VideoStream.sampleStream [.attach] [0, 0, 0, 1, 0x06, 0, 0, 0, 2, 0x65, 1]
    ⟨0, true, true⟩ rfl rfl (by decide) (by decide)).1

end ProjectArgo.CarPlay.ScreenStream
