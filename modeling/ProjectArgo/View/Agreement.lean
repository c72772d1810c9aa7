import ProjectArgo.CarPlay.VideoStream
import ProjectArgo.View.MediaContract

/-!
# Producer and validator agree on bytes

Every check the producer makes before it queues or announces something implies
the validator's check of the same bytes, although one consumes slices and the
other moves an offset through a single buffer.
-/
namespace ProjectArgo.View

open Library.Bytes Library.Run CarPlay
open CarPlay.Media (Codec Framing Description ConfigReader Nals)

/-! ## Unit types and boundaries -/

theorem nalType_eq (nal : List UInt8) (codec : Codec) :
    nalType nal codec = Media.nalType nal codec := by
  unfold nalType Media.nalType
  by_cases hfirst : nal = [] ∨ nal.getD 0 0 &&& 0x80 ≠ 0
  · rw [if_pos hfirst, if_pos hfirst]
  · rw [if_neg hfirst, if_neg hfirst]
    cases codec with
    | h264 =>
      have hpos : (nal.getD 0 0 &&& 31 ≠ 0) = (nal.getD 0 0 &&& 31 > 0) := by
        simp only [gt_iff_lt, ne_eq, eq_iff_iff, UInt8.lt_iff_toNat_lt, ← UInt8.toNat_inj]
        simp only [UInt8.toNat_zero]
        omega
      simp only [if_true, hpos]
    | h265 =>
      have hlen : (nal.length < 2) = ¬nal.length ≥ 2 := by simp
      rw [if_neg (by decide)]
      dsimp only
      by_cases hlong : nal.length ≥ 2
      · by_cases hbits : nal.getD 1 0 &&& 7 = 0 <;> simp [hlen, hlong, hbits]
      · simp [hlen, hlong]

theorem parameterBit_eq (codec : Codec) (type : UInt8) :
    parameterBit codec type = Media.parameterBit codec type := by
  cases codec with
  | h264 =>
    rw [parameterBit, if_pos rfl]
    by_cases hseven : type = 7
    · rw [if_pos hseven, hseven]
      rfl
    · by_cases height : type = 8
      · rw [if_neg hseven, if_pos height, height]
        rfl
      · rw [if_neg hseven, if_neg height]
        unfold Media.parameterBit
        split <;> simp_all
  | h265 =>
    rw [parameterBit, if_neg (by decide)]
    by_cases hvideo : type = 32
    · rw [if_pos hvideo, hvideo]
      rfl
    · by_cases hsequence : type = 33
      · rw [if_neg hvideo, if_pos hsequence, hsequence]
        rfl
      · by_cases hpicture : type = 34
        · rw [if_neg hvideo, if_neg hsequence, if_pos hpicture, hpicture]
          rfl
        · rw [if_neg hvideo, if_neg hsequence, if_neg hpicture]
          unfold Media.parameterBit
          split <;> simp_all

theorem allParameters_eq (codec : Codec) : allParameters codec = Media.allParameters codec := by
  cases codec <;> rfl

theorem startCode_eq (bytes : List UInt8) (i : ℕ) :
    startCode bytes i = (Media.startCode (bytes.drop i)).getD 0 := by
  have hget : ∀ k, bytes.getD (i + k) 0 = (bytes.drop i).getD k 0 := by
    intro k
    simp [List.getD_eq_getElem?_getD]
  have hshort : ∀ k, 0 < k → (i + k > bytes.length ↔ (bytes.drop i).length < k) := by
    intro k hk
    rw [List.length_drop]
    omega
  have hlong : (i + 4 ≤ bytes.length ↔ 4 ≤ (bytes.drop i).length) := by
    rw [List.length_drop]
    omega
  have hzero := hget 0
  rw [Nat.add_zero] at hzero
  unfold startCode Media.startCode
  simp only [hshort 3 (by omega), hlong, hzero, hget]
  rcases bytes.drop i with _ | ⟨a, _ | ⟨b, _ | ⟨c, _ | ⟨d, rest⟩⟩⟩⟩
  · simp
  · simp
  · simp
  · simp
    grind
  · simp
    grind

theorem startCode_values {bytes : List UInt8} {code : ℕ} (h : Media.startCode bytes = some code) :
    code ≠ 0 ∧ code ≤ bytes.length := by
  unfold Media.startCode at h
  split_ifs at h with hthree hfour
  · rw [← Option.some.inj h]
    exact ⟨by decide, (List.isPrefixOf_iff_prefix.mp hthree).length_le⟩
  · rw [← Option.some.inj h]
    exact ⟨by decide, (List.isPrefixOf_iff_prefix.mp hfour).length_le⟩

theorem scan_eq (bytes : List UInt8) (i : ℕ) (hi : i ≤ bytes.length) :
    scan bytes i = i + Media.nalEnd (bytes.drop i) := by
  induction i using scan.induct bytes with
  | case1 i h ih =>
    have hcode : Media.startCode (bytes.drop i) = none := by
      cases hc : Media.startCode (bytes.drop i) with
      | none => rfl
      | some code =>
        have hzero := h.2
        rw [startCode_eq, hc] at hzero
        exact absurd hzero (startCode_values hc).1
    rw [scan, if_pos h, ih h.1, List.drop_eq_getElem_cons h.1, Media.nalEnd,
      ← List.drop_eq_getElem_cons h.1, hcode]
    simp only [Option.isSome_none, if_neg Bool.false_ne_true]
    omega
  | case2 i h =>
    rw [scan, if_neg h]
    by_cases hend : i < bytes.length
    · have hcode : (Media.startCode (bytes.drop i)).isSome := by
        have hne : startCode bytes i ≠ 0 := fun hzero => h ⟨hend, hzero⟩
        rw [startCode_eq] at hne
        cases hc : Media.startCode (bytes.drop i) with
        | none => simp [hc] at hne
        | some code => rfl
      rw [List.drop_eq_getElem_cons hend, Media.nalEnd, ← List.drop_eq_getElem_cons hend,
        if_pos hcode, Nat.add_zero]
    · rw [List.drop_eq_nil_of_le (by omega)]
      rfl

/-- Where the producer splits off a unit, the validator locates the same unit. -/
theorem locateNal_of_split {bytes nal rest : List UInt8} {framing : Framing} {length offset : ℕ}
    (hoffset : offset ≤ bytes.length)
    (h : Media.splitNal framing length (bytes.drop offset) = some (nal, rest)) :
    ∃ start size, locateNal bytes framing length offset = some (start, size) ∧
      start + size ≤ bytes.length ∧ slice bytes start (start + size) = nal ∧
      bytes.drop (start + size) = rest := by
  cases framing with
  | annexB =>
    unfold Media.splitNal at h
    dsimp only at h
    split at h
    · contradiction
    · rename_i code hcode
      obtain ⟨hne, hle⟩ := startCode_values hcode
      rw [List.length_drop] at hle
      split_ifs at h with hsize
      obtain ⟨rfl, rfl⟩ := Prod.mk.inj (Option.some.inj h)
      rw [List.drop_drop] at hsize ⊢
      have hscan := scan_eq bytes (offset + code) (by omega)
      have hstart : startCode bytes offset = code := by
        rw [startCode_eq, hcode]
        rfl
      rw [List.length_drop] at hsize
      refine ⟨offset + code, Media.nalEnd (bytes.drop (offset + code)), ?_, by omega, ?_, ?_⟩
      · rw [locateNal, if_pos rfl, hstart]
        simp [hne, hscan]
      · rw [slice, Nat.add_sub_cancel_left]
      · rw [List.drop_drop]
  | lengthPrefixed =>
    unfold Media.splitNal at h
    dsimp only at h
    split_ifs at h with hlength hsize
    obtain ⟨rfl, rfl⟩ := Prod.mk.inj (Option.some.inj h)
    rw [not_or, not_not, Nat.not_lt, List.length_drop] at hlength
    obtain ⟨hwidth, hroom⟩ := hlength
    have hbounds : 1 ≤ length ∧ length ≤ 4 := by
      simp only [List.mem_cons, List.not_mem_nil, or_false] at hwidth
      omega
    have hfield : slice bytes offset (offset + length) = (bytes.drop offset).take length := by
      rw [slice, Nat.add_sub_cancel_left]
    rw [List.drop_drop] at hsize ⊢
    rw [List.length_drop] at hsize
    refine ⟨offset + length, ofBigEndian ((bytes.drop offset).take length), ?_, by omega, ?_, ?_⟩
    · rw [locateNal, if_neg (by decide), if_neg (by omega), hfield]
      dsimp only
      rw [if_neg (by omega)]
    · rw [slice, Nat.add_sub_cancel_left]
    · rw [List.drop_drop]

theorem inspectUpTo_of_producer {bytes : List UInt8} {codec : Codec} {framing : Framing}
    {length : ℕ} {config : Bool} {budget offset : ℕ} {nals result : Nals}
    (hoffset : offset ≤ bytes.length)
    (h : Media.inspectUpTo codec framing length config budget nals (bytes.drop offset) =
      some result) :
    inspectUpTo bytes codec framing length config budget offset nals.parameters =
      some result.parameters := by
  induction budget generalizing offset nals with
  | zero =>
    simp only [Media.inspectUpTo] at h
    split_ifs at h with hend
    rw [List.drop_eq_nil_iff] at hend
    rw [inspectUpTo, if_neg (by omega), ← Option.some.inj h]
  | succ budget ih =>
    simp only [Media.inspectUpTo] at h
    split_ifs at h with hend
    · rw [List.drop_eq_nil_iff] at hend
      rw [inspectUpTo, if_neg (by omega), ← Option.some.inj h]
    · rw [List.drop_eq_nil_iff] at hend
      cases hsplit : Media.splitNal framing length (bytes.drop offset) with
      | none => simp [hsplit] at h
      | some split =>
        obtain ⟨nal, rest⟩ := split
        obtain ⟨start, size, hlocate, hle, hnal, hrest⟩ := locateNal_of_split hoffset hsplit
        rw [hsplit] at h
        dsimp only at h
        cases htype : Media.nalType nal codec with
        | none => simp [htype] at h
        | some kind =>
          rw [htype] at h
          dsimp only at h
          split_ifs at h with hbit
          rw [← hrest] at h
          rw [inspectUpTo, if_pos (by omega), hlocate]
          simp only [hnal, nalType_eq, htype, parameterBit_eq]
          rw [if_neg hbit]
          exact ih hle h

/-- What the producer's inspection passes, the validator's passes. -/
theorem inspectNals_of_producer {bytes : List UInt8} {codec : Codec} {framing : Framing}
    {length : ℕ} {config : Bool} {result : Nals}
    (h : Media.inspectNals bytes codec framing length config = some result) :
    inspectNals bytes codec framing length config = true := by
  unfold Media.inspectNals at h
  split at h
  · contradiction
  · rename_i found hfound
    split_ifs at h with hempty hparameters
    have hview : inspectUpTo bytes codec framing length config kNalLimit 0 0 =
        some found.parameters := inspectUpTo_of_producer (Nat.zero_le _) hfound
    rw [inspectNals, hview]
    cases config <;> simp_all [allParameters_eq]

/-! ## Configuration records -/

def ConfigState.ofReader (r : ConfigReader) : ConfigState := ⟨r.offset, r.count, r.parameters⟩

open ConfigState (ofReader)

variable {bytes : List UInt8} {codec : Codec} {r next : ConfigReader}

theorem byte_some {value : UInt8} (h : r.byte bytes = some (value, next)) :
    r.offset < bytes.length ∧ bytes.getD r.offset 0 = value ∧
      next = ⟨r.offset + 1, r.count, r.parameters⟩ := by
  unfold ConfigReader.byte at h
  split at h
  · contradiction
  · rename_i v hv
    obtain ⟨rfl, rfl⟩ := Prod.mk.inj (Option.some.inj h)
    refine ⟨(List.getElem?_eq_some_iff.mp hv).1, ?_, rfl⟩
    rw [List.getD_eq_getElem?_getD, hv]
    rfl

theorem word_some {size : ℕ} (h : r.word bytes = some (size, next)) :
    r.offset + 2 ≤ bytes.length ∧ u16 bytes r.offset = size ∧
      next = ⟨r.offset + 2, r.count, r.parameters⟩ := by
  unfold ConfigReader.word at h
  split at h
  · contradiction
  · rename_i high r' hhigh
    obtain ⟨-, hfirst, rfl⟩ := byte_some hhigh
    split at h
    · contradiction
    · rename_i low r'' hlow
      obtain ⟨hlen, hsecond, rfl⟩ := byte_some hlow
      obtain ⟨rfl, rfl⟩ := Prod.mk.inj (Option.some.inj h)
      refine ⟨hlen, ?_, rfl⟩
      rw [u16, hfirst, hsecond]
      rfl

theorem take_of_nals {type : UInt8} {n : ℕ}
    (h : ConfigReader.nals bytes codec type n r = some next) :
    take bytes codec type n (ofReader r) = some (ofReader next) := by
  induction n generalizing r with
  | zero =>
    rw [← Option.some.inj h]
    rfl
  | succ n ih =>
    simp only [ConfigReader.nals] at h
    split_ifs at h with hcount
    split at h
    · contradiction
    · rename_i size reader hword
      obtain ⟨hlen, hsize, rfl⟩ := word_some hword
      split_ifs at h with hfits
      dsimp only at hlen hfits h hsize
      split at h
      · contradiction
      · rename_i kind hkind
        split_ifs at h with htype
        have hcount' : ¬(r.count + 1 > kNalLimit ∨ bytes.length - r.offset < 2) := by
          rw [not_or]
          exact ⟨hcount, by omega⟩
        rw [take]
        simp only [ofReader, hsize, nalType_eq, hkind, parameterBit_eq]
        rw [if_neg hcount', if_neg (by omega), if_neg htype]
        exact ih h

theorem parseExtension_of_producer (h : r.extension bytes = some next) :
    parseExtension bytes (ofReader r) = some (ofReader next) := by
  obtain ⟨offset, seen, parameters⟩ := r
  have hstate : ofReader ⟨offset, seen, parameters⟩ = ⟨offset, seen, parameters⟩ := rfl
  unfold ConfigReader.extension at h
  rw [hstate, parseExtension]
  split_ifs at h with hmore hprofile
  · split at h
    · contradiction
    rename_i chroma r₁ hfirst
    obtain ⟨-, hchroma, rfl⟩ := byte_some hfirst
    split_ifs at h with hc
    split at h
    · contradiction
    rename_i luma r₂ hsecond
    obtain ⟨-, hluma, rfl⟩ := byte_some hsecond
    split_ifs at h with hl
    split at h
    · contradiction
    rename_i depth r₃ hthird
    obtain ⟨-, hdepth, rfl⟩ := byte_some hthird
    split_ifs at h with hd
    split at h
    · contradiction
    rename_i count r₄ hfourth
    obtain ⟨hlen, hcount, rfl⟩ := byte_some hfourth
    dsimp only at hchroma hluma hdepth hcount hlen h
    rw [not_not] at hc hl hd
    have hknown : ¬(bytes.getD 1 0 ≠ 100 ∧ bytes.getD 1 0 ≠ 110 ∧ bytes.getD 1 0 ≠ 122 ∧
        bytes.getD 1 0 ≠ 144) := by
      simp only [List.mem_cons, List.not_mem_nil, or_false] at hprofile
      rintro ⟨h₁, h₂, h₃, h₄⟩
      rcases hprofile with h | h | h | h <;> contradiction
    have htake := take_of_nals h
    rw [if_pos hmore, if_neg]
    · dsimp only
      rw [hcount]
      exact htake
    dsimp only
    rw [hchroma, hluma, hdepth, hc, hl, hd]
    simp only [not_or, ne_eq, not_true_eq_false, not_false_eq_true, and_true]
    exact ⟨hknown, by omega⟩
  · rw [if_neg hmore, ← Option.some.inj h]
    rfl

theorem parseAvc_of_producer (h : ConfigReader.avc bytes r = some next) :
    ¬(bytes.getD 4 0 &&& 0xfc ≠ 0xfc ∨ bytes.getD 5 0 &&& 0xe0 ≠ 0xe0) ∧
      parseAvc bytes (ofReader r) = some (ofReader next) := by
  unfold ConfigReader.avc at h
  split_ifs at h with hflags
  refine ⟨hflags, ?_⟩
  split at h
  · contradiction
  rename_i r₁ hsps
  split at h
  · contradiction
  rename_i count r₂ hcount
  obtain ⟨hlen, hvalue, rfl⟩ := byte_some hcount
  split at h
  · contradiction
  rename_i r₃ hpps
  have hpps' := take_of_nals hpps
  rw [parseAvc, take_of_nals hsps]
  simp only [ofReader, hvalue] at hpps' ⊢
  rw [if_neg (by omega), hpps']
  exact parseExtension_of_producer h

theorem parseHevc_of_producer {n : ℕ} (h : ConfigReader.hevc bytes n r = some next) :
    parseHevc bytes n (ofReader r) = some (ofReader next) := by
  induction n generalizing r with
  | zero =>
    rw [← Option.some.inj h]
    rfl
  | succ n ih =>
    simp only [ConfigReader.hevc] at h
    split at h
    · contradiction
    rename_i kind r₁ hkind
    obtain ⟨-, hvalue, rfl⟩ := byte_some hkind
    split_ifs at h with hreserved
    split at h
    · contradiction
    rename_i count r₂ hcount
    obtain ⟨hlen, hword, rfl⟩ := word_some hcount
    dsimp only at hlen hword
    split at h
    · contradiction
    rename_i r₃ hsets
    have hsets' := take_of_nals hsets
    rw [parseHevc]
    simp only [ofReader, hvalue, hword] at hsets' ⊢
    rw [if_neg (by rw [not_or]; exact ⟨by omega, hreserved⟩), hsets']
    exact ih h

/-- A record the producer announces gives the validator the same prefix width. -/
theorem parseCodecConfig_of_producer {length : ℕ}
    (h : Media.configuration bytes codec .lengthPrefixed = some length) :
    parseCodecConfig bytes codec = some length := by
  unfold Media.configuration at h
  cases codec with
  | h264 =>
    simp only at h
    split_ifs at h with hempty hshort hthree
    split at h
    · contradiction
    rename_i reader hread
    split_ifs at h with hend
    obtain ⟨hflags, hparse⟩ := parseAvc_of_producer hread
    rw [← Option.some.inj h]
    unfold parseCodecConfig
    simp only [if_true]
    rw [if_neg hshort, if_neg hflags, if_neg hthree]
    have hstart : (⟨6, 0, 0⟩ : ConfigState) = ofReader ⟨6, 0, 0⟩ := rfl
    rw [hstart, hparse]
    simp only [Option.map_some, ofReader]
    rw [if_pos (by rw [allParameters_eq]; exact hend)]
  | h265 =>
    simp only at h
    split_ifs at h with hempty hshort hthree
    split at h
    · contradiction
    rename_i reader hread
    split_ifs at h with hend
    have hparse := parseHevc_of_producer hread
    rw [← Option.some.inj h]
    unfold parseCodecConfig
    simp only [reduceCtorEq, if_false]
    rw [if_neg hshort, if_neg hthree]
    have hstart : (⟨23, 0, 0⟩ : ConfigState) = ofReader ⟨23, 0, 0⟩ := rfl
    rw [hstart, hparse]
    simp only [Option.map_some, ofReader]
    rw [if_pos (by rw [allParameters_eq]; exact hend)]

/-! ## Descriptions and headers on the wire -/

theorem u16_of_octets {bytes : List UInt8} {i n : ℕ} (hn : n < 65536)
    (hhigh : bytes.getD i 0 = UInt8.ofNat (n / 256)) (hlow : bytes.getD (i + 1) 0 = UInt8.ofNat n) :
    u16 bytes i = n := by
  rw [u16, hhigh, hlow, UInt8.toNat_ofNat', UInt8.toNat_ofNat']
  omega

theorem u16_of_drop {bytes rest : List UInt8} {i n : ℕ}
    (h : bytes.drop i = UInt8.ofNat (n / 256) :: UInt8.ofNat n :: rest) :
    u16 bytes i = n % 2 ^ 16 := by
  have hoctet (k : ℕ) : bytes.getD (i + k) 0 = (bytes.drop i).getD k 0 := by
    simp only [List.getD_eq_getElem?_getD, List.getElem?_drop]
  have hhigh : bytes.getD i 0 = UInt8.ofNat (n / 256) := (hoctet 0).trans (by rw [h]; rfl)
  have hlow : bytes.getD (i + 1) 0 = UInt8.ofNat n := by rw [hoctet 1, h]; rfl
  rw [u16, hhigh, hlow, UInt8.toNat_ofNat', UInt8.toNat_ofNat']
  omega

theorem u32_of_drop {bytes rest : List UInt8} {i n : ℕ}
    (h : bytes.drop i = bigEndian 4 n ++ rest) : u32 bytes i = n % 2 ^ 32 := by
  have hfirst : bytes.drop i = UInt8.ofNat (n / 65536 / 256) :: UInt8.ofNat (n / 65536) ::
      (bigEndian 2 n ++ rest) := by
    rw [h, Nat.div_div_eq_div_mul]
    rfl
  have hsecond : bytes.drop (i + 2) = UInt8.ofNat (n / 256) :: UInt8.ofNat n :: rest := by
    rw [← List.drop_drop, h]
    simp [bigEndian]
  rw [u32, u16_of_drop hfirst, u16_of_drop hsecond]
  omega

theorem u64_of_drop {bytes rest : List UInt8} {i n : ℕ}
    (h : bytes.drop i = bigEndian 8 n ++ rest) : u64 bytes i = n % 2 ^ 64 := by
  have hfirst : bytes.drop i = bigEndian 4 (n / 2 ^ 32) ++ (bigEndian 4 n ++ rest) := by
    rw [h]
    simp [bigEndian, Nat.div_div_eq_div_mul]
  have hsecond : bytes.drop (i + 4) = bigEndian 4 n ++ rest := by
    rw [← List.drop_drop, h]
    simp [bigEndian]
  rw [u64, u32_of_drop hfirst, u32_of_drop hsecond]
  omega

theorem codes_in_range (d : Description) :
    (d.wire.take 6).any (fun b => b < 1 || b > 2) = false := by
  obtain ⟨protocol, plane, codec, colorimetry, range, framing, _, _, _, _, _⟩ := d
  cases protocol <;> cases plane <;> cases codec <;> cases colorimetry <;> cases range <;>
    cases framing <;> rfl

/-- The validator reads back every valid description. -/
theorem parseDescription_wire {d : Description} (h : d.Valid) :
    parseDescription d.wire = some d := by
  obtain ⟨hsession, hwidth, hwidthMax, hheight, hheightMax, hden, hdenMax, hslow, hfast⟩ := h
  have hw := d.width.toNat_lt
  have hh := d.height.toNat_lt
  have hn := d.fpsNum.toNat_lt
  have hd := d.fpsDen.toNat_lt
  have hs := d.session.toNat_lt
  have hwidthField : UInt16.ofNat (u16 d.wire 6) = d.width := by
    rw [u16_of_octets hw (by simp [Description.wire, bigEndian])
      (by simp [Description.wire, bigEndian]), UInt16.ofNat_toNat]
  have hheightField : UInt16.ofNat (u16 d.wire 8) = d.height := by
    rw [u16_of_octets hh (by simp [Description.wire, bigEndian])
      (by simp [Description.wire, bigEndian]), UInt16.ofNat_toNat]
  have hnumField : UInt16.ofNat (u16 d.wire 10) = d.fpsNum := by
    rw [u16_of_octets hn (by simp [Description.wire, bigEndian])
      (by simp [Description.wire, bigEndian]), UInt16.ofNat_toNat]
  have hdenField : UInt16.ofNat (u16 d.wire 12) = d.fpsDen := by
    rw [u16_of_octets hd (by simp [Description.wire, bigEndian])
      (by simp [Description.wire, bigEndian]), UInt16.ofNat_toNat]
  have hsessionField : UInt64.ofNat (u64 d.wire 16) = d.session := by
    have hdrop : d.wire.drop 16 = bigEndian 8 d.session.toNat ++ [] := rfl
    rw [u64_of_drop hdrop, Nat.mod_eq_of_lt hs, UInt64.ofNat_toNat]
  have hreserved : u16 d.wire 14 = 0 := by simp [u16, Description.wire, bigEndian]
  have hprotocol : decodeEnum .androidAuto .carPlay (d.wire.getD 0 0) = d.protocol := by
    simp only [Description.wire, List.cons_append, List.getD_cons_zero]
    cases d.protocol <;> rfl
  have hplane : decodeEnum .main .cluster (d.wire.getD 1 0) = d.plane := by
    simp only [Description.wire, List.cons_append, List.getD_cons_succ, List.getD_cons_zero]
    cases d.plane <;> rfl
  have hcodec : decodeEnum .h264 .h265 (d.wire.getD 2 0) = d.codec := by
    simp only [Description.wire, List.cons_append, List.getD_cons_succ, List.getD_cons_zero]
    cases d.codec <;> rfl
  have hcolor : decodeEnum .bt601 .bt709 (d.wire.getD 3 0) = d.colorimetry := by
    simp only [Description.wire, List.cons_append, List.getD_cons_succ, List.getD_cons_zero]
    cases d.colorimetry <;> rfl
  have hrange : decodeEnum .limited .full (d.wire.getD 4 0) = d.range := by
    simp only [Description.wire, List.cons_append, List.getD_cons_succ, List.getD_cons_zero]
    cases d.range <;> rfl
  have hframing : decodeEnum .annexB .lengthPrefixed (d.wire.getD 5 0) = d.framing := by
    simp only [Description.wire, List.cons_append, List.getD_cons_succ, List.getD_cons_zero]
    cases d.framing <;> rfl
  unfold parseDescription
  rw [if_neg (by simp [Description.wire, kDescriptionSize]), codes_in_range]
  simp only [hwidthField, hheightField, hnumField, hdenField, hsessionField, hreserved, hprotocol,
    hplane, hcodec, hcolor, hrange, hframing]
  rw [if_neg Bool.false_ne_true, if_neg]
  simp only [not_or]
  exact ⟨by simp, hsession, hwidth, by omega, hheight, by omega, hden, by omega, by omega,
    by omega⟩

/-- The fields of a record header, as the validator reads them. -/
theorem recordHeader_fields (kind flags : UInt8) {serial : ℕ} (timestamp : UInt64)
    {payload : List UInt8} (hserial : serial < 2 ^ 32) (hsize : payload.length < 2 ^ 32) :
    let header := Media.recordHeader kind flags serial timestamp payload
    header.length = kHeaderSize ∧
      ¬(header.getD 0 0 ≠ 0x41 ∨ header.getD 1 0 ≠ 0x52 ∨ header.getD 2 0 ≠ 0x50 ∨
        header.getD 3 0 ≠ 0x4d ∨ u16 header 4 ≠ 1) ∧
      header.getD 6 0 = kind ∧ header.getD 7 0 = flags ∧ u32 header 8 = payload.length ∧
      u32 header 12 = serial ∧ u64 header 16 = timestamp.toNat := by
  intro header
  have ht := timestamp.toNat_lt
  refine ⟨?_, ?_, ?_, ?_, ?_, ?_, ?_⟩
  · simp [header, Media.recordHeader, Media.magic, kHeaderSize]
  · simp [header, Media.recordHeader, Media.magic, Media.version, u16, bigEndian]
  · simp [header, Media.recordHeader, Media.magic, bigEndian]
  · simp [header, Media.recordHeader, Media.magic, bigEndian]
  · have hdrop : header.drop 8 = bigEndian 4 payload.length ++ header.drop 12 := rfl
    rw [u32_of_drop hdrop, Nat.mod_eq_of_lt hsize]
  · have hdrop : header.drop 12 = bigEndian 4 serial ++ header.drop 16 := rfl
    rw [u32_of_drop hdrop, Nat.mod_eq_of_lt hserial]
  · have hdrop : header.drop 16 = bigEndian 8 timestamp.toNat ++ header.drop 24 := rfl
    rw [u64_of_drop hdrop, Nat.mod_eq_of_lt ht]

end ProjectArgo.View
