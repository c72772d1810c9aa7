import ProjectArgo.View.Agreement

/-!
# Producer and validator reject the same bytes

What the producer's checks refuse, the validator refuses as well. Together with the
agreement on what they accept, the two parsers of a configuration record are one function,
and so are the two inspections of an access unit as far as acceptance goes.
-/
namespace ProjectArgo.View

open Library.Bytes CarPlay
open CarPlay.Media (Codec Framing ConfigReader Nals)
open ConfigState (ofReader)

/-! ## Access units -/

/-- The framings that the producer knows: start codes, or lengths of 1, 2 or 4 bytes. -/
def Framed (framing : Framing) (length : ℕ) : Prop := framing = .annexB ∨ length ∈ [1, 2, 4]

instance (framing : Framing) (length : ℕ) : Decidable (Framed framing length) :=
  inferInstanceAs (Decidable (_ ∨ _))

theorem nalEnd_le (bytes : List UInt8) : Media.nalEnd bytes ≤ bytes.length := by
  induction bytes with
  | nil => exact Nat.le_refl 0
  | cons b bytes ih =>
    rw [Media.nalEnd, List.length_cons]
    split <;> omega

/-- Where the producer splits off no unit, the validator locates none. -/
theorem locateNal_none {bytes : List UInt8} {framing : Framing} {length offset : ℕ}
    (hframed : Framed framing length)
    (h : Media.splitNal framing length (bytes.drop offset) = none) :
    locateNal bytes framing length offset = none := by
  cases framing with
  | annexB =>
    unfold Media.splitNal at h
    dsimp only at h
    split at h
    · rename_i hcode
      have hstart : startCode bytes offset = 0 := by
        rw [startCode_eq, hcode]
        rfl
      rw [locateNal, if_pos rfl, hstart]
      rfl
    · rename_i code hcode
      rw [if_pos (nalEnd_le _)] at h
      cases h
  | lengthPrefixed =>
    have hwidth : length ∈ [1, 2, 4] := hframed.resolve_left (by decide)
    have hbounds : 1 ≤ length ∧ length ≤ 4 := by
      simp only [List.mem_cons, List.not_mem_nil, or_false] at hwidth
      omega
    have hfield : slice bytes offset (offset + length) = (bytes.drop offset).take length := by
      rw [slice, Nat.add_sub_cancel_left]
    unfold Media.splitNal at h
    dsimp only at h
    rw [List.length_drop] at h
    rw [locateNal, if_neg (by decide)]
    by_cases hshort : bytes.length - offset < length
    · rw [if_pos (by omega)]
    · rw [if_neg (by rw [not_or, not_not]; exact ⟨hwidth, hshort⟩), List.drop_drop,
        List.length_drop] at h
      split_ifs at h with hsize
      rw [if_neg (by omega), hfield]
      dsimp only
      rw [if_pos (by omega)]

theorem inspectUpTo_none {bytes : List UInt8} {codec : Codec} {framing : Framing} {length : ℕ}
    {config : Bool} {budget offset : ℕ} {nals : Nals} (hframed : Framed framing length)
    (hoffset : offset ≤ bytes.length)
    (h : Media.inspectUpTo codec framing length config budget nals (bytes.drop offset) = none) :
    inspectUpTo bytes codec framing length config budget offset nals.parameters = none := by
  induction budget generalizing offset nals with
  | zero =>
    simp only [Media.inspectUpTo] at h
    split_ifs at h with hend
    rw [List.drop_eq_nil_iff] at hend
    rw [inspectUpTo, if_pos (by omega)]
  | succ budget ih =>
    simp only [Media.inspectUpTo] at h
    split_ifs at h with hend
    rw [List.drop_eq_nil_iff] at hend
    rw [inspectUpTo, if_pos (by omega)]
    cases hsplit : Media.splitNal framing length (bytes.drop offset) with
    | none => rw [locateNal_none hframed hsplit]
    | some split =>
      obtain ⟨nal, rest⟩ := split
      obtain ⟨start, size, hlocate, hle, hnal, hrest⟩ := locateNal_of_split hoffset hsplit
      rw [hsplit] at h
      dsimp only at h
      rw [hlocate]
      simp only [hnal, nalType_eq, parameterBit_eq]
      cases htype : Media.nalType nal codec with
      | none => rfl
      | some kind =>
        rw [htype] at h
        dsimp only at h ⊢
        split_ifs at h with hbit
        · rw [if_pos hbit]
        · rw [if_neg hbit]
          rw [← hrest] at h
          exact ih hle h

/-- The two inspections accept the same bytes. -/
theorem inspectNals_eq (bytes : List UInt8) (codec : Codec) {framing : Framing} {length : ℕ}
    (config : Bool) (hframed : Framed framing length) :
    inspectNals bytes codec framing length config =
      (Media.inspectNals bytes codec framing length config).isSome := by
  cases hproducer : Media.inspectNals bytes codec framing length config with
  | some result => exact inspectNals_of_producer hproducer
  | none =>
    unfold Media.inspectNals at hproducer
    split at hproducer
    · rename_i hnone
      have hview : inspectUpTo bytes codec framing length config kNalLimit 0 0 = none :=
        inspectUpTo_none hframed (Nat.zero_le _) hnone
      rw [inspectNals, hview]
      rfl
    · rename_i found hfound
      have hview : inspectUpTo bytes codec framing length config kNalLimit 0 0 =
          some found.parameters := inspectUpTo_of_producer (Nat.zero_le _) hfound
      rw [inspectNals, hview, allParameters_eq]
      split_ifs at hproducer with hempty hparameters
      · simp [hempty]
      · simp [hparameters]

/-! ## Configuration records -/

variable {bytes : List UInt8} {codec : Codec} {r : ConfigReader}

theorem ofReader_mk (offset count : ℕ) (parameters : UInt8) :
    ofReader ⟨offset, count, parameters⟩ = ⟨offset, count, parameters⟩ := rfl

theorem byte_none (h : r.byte bytes = none) : bytes.length ≤ r.offset := by
  unfold ConfigReader.byte at h
  split at h
  · exact List.getElem?_eq_none_iff.mp ‹_›
  · cases h

theorem word_none (h : r.word bytes = none) : bytes.length < r.offset + 2 := by
  unfold ConfigReader.word at h
  split at h
  · have hend := byte_none ‹_›
    omega
  · obtain ⟨-, -, rfl⟩ := byte_some ‹_›
    split at h
    · have hend := byte_none ‹_›
      dsimp only at hend
      omega
    · cases h

theorem take_none {type : UInt8} {n : ℕ} (h : ConfigReader.nals bytes codec type n r = none) :
    take bytes codec type n (ofReader r) = none := by
  induction n generalizing r with
  | zero => cases h
  | succ n ih =>
    obtain ⟨offset, seen, parameters⟩ := r
    simp only [ConfigReader.nals] at h
    rw [ofReader_mk, take]
    dsimp only
    split_ifs at h with hcount
    · have hfull : seen + 1 > kNalLimit ∨ bytes.length - offset < 2 := Or.inl hcount
      rw [if_pos hfull]
    split at h
    · have hend := word_none ‹_›
      dsimp only at hend
      rw [if_pos (Or.inr (by omega))]
    · rename_i size next hword
      obtain ⟨hlen, hsize, rfl⟩ := word_some hword
      dsimp only at hlen h hsize
      have hroom : ¬(seen + 1 > kNalLimit ∨ bytes.length - offset < 2) := by
        rw [not_or]
        exact ⟨hcount, by omega⟩
      rw [if_neg hroom, hsize]
      split_ifs at h with hfits
      · rw [if_pos (by omega)]
      rw [if_neg (by omega)]
      simp only [nalType_eq, parameterBit_eq]
      generalize Media.nalType (slice bytes (offset + 2) (offset + 2 + size)) codec = kind at h ⊢
      cases kind with
      | none => rfl
      | some kind =>
        dsimp only at h ⊢
        split_ifs at h with htype
        · rw [if_pos htype]
        · rw [if_neg htype]
          exact ih h

theorem parseExtension_none (h : r.extension bytes = none) :
    parseExtension bytes (ofReader r) = none := by
  obtain ⟨offset, seen, parameters⟩ := r
  unfold ConfigReader.extension at h
  rw [ofReader_mk, parseExtension]
  dsimp only
  split_ifs at h with hmore hprofile
  · rw [if_pos hmore]
    by_cases hshort : bytes.length - offset < 4
    · rw [if_pos (Or.inr (Or.inl hshort))]
    -- Four bytes are left, so a refusal is about their bits or the parameter sets.
    have hbyte : ∀ i < bytes.length, ∀ count parameters,
        (⟨i, count, parameters⟩ : ConfigReader).byte bytes =
          some (bytes.getD i 0, ⟨i + 1, count, parameters⟩) := by
      intro i hi count parameters
      rw [ConfigReader.byte, List.getElem?_eq_getElem hi]
      simp [List.getD_eq_getElem?_getD, List.getElem?_eq_getElem hi]
    rw [hbyte offset (by omega)] at h
    dsimp only at h
    split_ifs at h with hchroma
    · rw [if_pos (Or.inr (Or.inr (Or.inl hchroma)))]
    rw [hbyte (offset + 1) (by omega)] at h
    dsimp only at h
    split_ifs at h with hluma
    · rw [if_pos (Or.inr (Or.inr (Or.inr (Or.inl hluma))))]
    rw [hbyte (offset + 2) (by omega)] at h
    dsimp only at h
    split_ifs at h with hdepth
    · rw [if_pos (Or.inr (Or.inr (Or.inr (Or.inr hdepth))))]
    rw [hbyte (offset + 3) (by omega)] at h
    dsimp only at h
    split
    · rfl
    · exact take_none h
  · have hknown : bytes.getD 1 0 ≠ 100 ∧ bytes.getD 1 0 ≠ 110 ∧ bytes.getD 1 0 ≠ 122 ∧
        bytes.getD 1 0 ≠ 144 := by
      simpa only [List.mem_cons, List.not_mem_nil, or_false, not_or] using hprofile
    rw [if_pos hmore, if_pos (Or.inl hknown)]

theorem nals_offset_le {next : ConfigReader} {type : UInt8} {n : ℕ}
    (hoffset : r.offset ≤ bytes.length)
    (h : ConfigReader.nals bytes codec type n r = some next) : next.offset ≤ bytes.length := by
  induction n generalizing r with
  | zero => exact Option.some.inj h ▸ hoffset
  | succ n ih =>
    simp only [ConfigReader.nals] at h
    split_ifs at h with hcount
    split at h
    · contradiction
    split_ifs at h with hfits
    split at h
    · contradiction
    split_ifs at h with htype
    exact ih (Nat.le_of_not_lt hfits) h

theorem parseAvc_none (hoffset : r.offset ≤ bytes.length)
    (hflags : ¬(bytes.getD 4 0 &&& 0xfc ≠ 0xfc ∨ bytes.getD 5 0 &&& 0xe0 ≠ 0xe0))
    (h : ConfigReader.avc bytes r = none) : parseAvc bytes (ofReader r) = none := by
  unfold ConfigReader.avc at h
  rw [if_neg hflags] at h
  rw [parseAvc]
  split at h
  · rw [take_none ‹_›]
  rename_i sets hsets
  have hend := nals_offset_le hoffset hsets
  obtain ⟨offset, seen, parameters⟩ := sets
  rw [take_of_nals hsets, ofReader_mk]
  dsimp only at hend ⊢
  split at h
  · have hexact := byte_none ‹_›
    rw [if_pos (le_antisymm hend hexact)]
  · rename_i count r₂ hcount
    obtain ⟨hlen, hvalue, rfl⟩ := byte_some hcount
    dsimp only at hlen hvalue h
    rw [if_neg (by omega), hvalue]
    split at h
    · rename_i hpictures
      have hnone := take_none hpictures
      rw [← ofReader_mk (offset + 1), hnone]
    · rename_i r₃ hpictures
      have hsome := take_of_nals hpictures
      rw [← ofReader_mk (offset + 1), hsome]
      exact parseExtension_none h

theorem parseHevc_none {n : ℕ} (h : ConfigReader.hevc bytes n r = none) :
    parseHevc bytes n (ofReader r) = none := by
  induction n generalizing r with
  | zero => cases h
  | succ n ih =>
    obtain ⟨offset, seen, parameters⟩ := r
    simp only [ConfigReader.hevc] at h
    rw [ofReader_mk, parseHevc]
    dsimp only
    split at h
    · have hend := byte_none ‹_›
      dsimp only at hend
      rw [if_pos (Or.inl (by omega))]
    rename_i kind r₁ hkind
    obtain ⟨-, hvalue, rfl⟩ := byte_some hkind
    dsimp only at hvalue h
    rw [hvalue]
    split_ifs at h with hreserved
    · rw [if_pos (Or.inr hreserved)]
    split at h
    · have hend := word_none ‹_›
      dsimp only at hend
      rw [if_pos (Or.inl (by omega))]
    rename_i count r₂ hcount
    obtain ⟨hlen, hword, rfl⟩ := word_some hcount
    dsimp only at hlen hword h
    have hroom : ¬(bytes.length - offset < 3 ∨ kind &&& 0x40 ≠ 0) := by
      rw [not_or]
      exact ⟨by omega, hreserved⟩
    rw [if_neg hroom, hword]
    rw [← ofReader_mk (offset + 3)]
    split at h
    · rename_i hsets
      have hnone := take_none hsets
      rw [hnone]
    · rename_i r₃ hsets
      have hsome := take_of_nals hsets
      rw [hsome]
      exact ih h

/-- A record without an announced width has none for the validator either. -/
theorem parseCodecConfig_none (hsize : bytes.length ≤ Media.configLimit)
    (h : Media.configuration bytes codec .lengthPrefixed = none) :
    parseCodecConfig bytes codec = none := by
  unfold Media.configuration at h
  unfold parseCodecConfig
  by_cases hempty : bytes = []
  · subst hempty
    cases codec <;> rfl
  rw [if_neg (by rw [not_or]; exact ⟨hempty, Nat.not_lt.mpr hsize⟩)] at h
  cases codec with
  | h264 =>
    simp only [if_true] at h ⊢
    by_cases hshort : bytes.length < 7 ∨ bytes.getD 0 0 ≠ 1
    · rw [if_pos hshort]
    rw [if_neg hshort] at h ⊢
    by_cases hflags : bytes.getD 4 0 &&& 0xfc ≠ 0xfc ∨ bytes.getD 5 0 &&& 0xe0 ≠ 0xe0
    · rw [if_pos hflags]
    rw [if_neg hflags]
    split_ifs at h ⊢ with hthree
    · rfl
    · have hoffset : 6 ≤ bytes.length := by
        rw [not_or] at hshort
        omega
      split at h
      · rename_i hread
        rw [← ofReader_mk 6 0 0, parseAvc_none hoffset hflags hread]
        rfl
      · rename_i reader hread
        split_ifs at h with hend
        rw [← ofReader_mk 6 0 0, (parseAvc_of_producer hread).2]
        rw [← allParameters_eq] at hend
        exact if_neg hend
  | h265 =>
    simp only [reduceCtorEq, if_false] at h ⊢
    by_cases hshort : bytes.length < 23 ∨ bytes.getD 0 0 ≠ 1
    · rw [if_pos hshort]
    rw [if_neg hshort] at h ⊢
    split_ifs at h ⊢ with hthree
    · rfl
    · split at h
      · rename_i hread
        rw [← ofReader_mk 23 0 0, parseHevc_none hread]
        rfl
      · rename_i reader hread
        split_ifs at h with hend
        rw [← ofReader_mk 23 0 0, parseHevc_of_producer hread]
        rw [← allParameters_eq] at hend
        exact if_neg hend

/-- The two parsers of a configuration record are one function up to 64 KiB. -/
theorem parseCodecConfig_eq (bytes : List UInt8) (codec : Codec)
    (hsize : bytes.length ≤ Media.configLimit) :
    parseCodecConfig bytes codec = Media.configuration bytes codec .lengthPrefixed := by
  cases hproducer : Media.configuration bytes codec .lengthPrefixed with
  | some length => exact parseCodecConfig_of_producer hproducer
  | none => exact parseCodecConfig_none hsize hproducer

/-! ## One verdict on both sides -/

/-- The keyframe bit of a record is that of its unit. -/
theorem keyframe_flag (u : Media.AccessUnit) : u.flags &&& 1 ≠ 0 ↔ u.keyframe = true := by
  have hall : ∀ keyframe discontinuity : Bool,
      (((if keyframe then 1 else 0) ||| (if discontinuity then 2 else 0) : UInt8) &&& 1 ≠ 0 ↔
        keyframe = true) := by decide
  exact hall u.keyframe u.discontinuity

/-- Configuration records are accepted with the same width of lengths on both sides, and so are
access units; the keyframe flag of a published unit is the one that the producer found in it. -/
theorem same_verdict :
    (∀ (bytes : List UInt8) (codec : Codec) (length : ℕ), bytes.length ≤ Media.configLimit →
      (Media.configuration bytes codec .lengthPrefixed = some length ↔
        parseCodecConfig bytes codec = some length)) ∧
    (∀ (bytes : List UInt8) (codec : Codec) (framing : Framing) (length : ℕ) (config : Bool),
      Framed framing length →
        ((∃ nals, Media.inspectNals bytes codec framing length config = some nals) ↔
          inspectNals bytes codec framing length config = true)) ∧
    ∀ (stream : Media.VideoStream) (payload : List UInt8) (timestamp : UInt64)
        (keyframe discontinuity : Bool) (outcome : Media.PublishOutcome),
      (stream.publish payload timestamp keyframe).2 = .ok outcome →
        ∃ nals, Media.inspectNals payload stream.description.codec stream.description.framing
            stream.lengthBytes false = some nals ∧
          ((Media.AccessUnit.mk payload timestamp keyframe discontinuity).flags &&& 1 ≠ 0 ↔
            nals.keyframe = true) := by
  refine ⟨?_, ?_, ?_⟩
  · intro bytes codec length hsize
    rw [parseCodecConfig_eq bytes codec hsize]
  · intro bytes codec framing length config hframed
    rw [inspectNals_eq bytes codec config hframed, Option.isSome_iff_exists]
  · intro stream payload timestamp keyframe discontinuity outcome hpublished
    rcases Media.VideoStream.publish_cases stream payload timestamp keyframe with
      ⟨e, hfailed⟩ | ⟨hcheck, -⟩
    · rw [hfailed] at hpublished
      cases hpublished
    · unfold Media.VideoStream.checkAccessUnit at hcheck
      split_ifs at hcheck
      split at hcheck
      · cases hcheck
      · rename_i nals hnals
        rw [Bool.and_eq_true, beq_iff_eq] at hcheck
        refine ⟨nals, hnals, ?_⟩
        rw [hcheck.2]
        exact keyframe_flag _

/-- The start of a keyframe slice, and of another. -/
theorem same_verdict_slices :
    (Media.configuration [1, 2, 3] .h264 .lengthPrefixed = some 4 ↔
        parseCodecConfig [1, 2, 3] .h264 = some 4) ∧
      ((∃ nals, Media.inspectNals [0, 0, 1, 0x65] .h264 .annexB 0 false = some nals) ↔
        inspectNals [0, 0, 1, 0x65] .h264 .annexB 0 false = true) :=
  ⟨same_verdict.1 [1, 2, 3] .h264 4 (by decide),
    same_verdict.2.1 [0, 0, 1, 0x65] .h264 .annexB 0 false (Or.inl rfl)⟩

/-- Two units that the validator's inspection does not tell apart, with different flags. -/
theorem keyframe_not_inspected :
    ¬∃ flag : Bool → Bool, ∀ (bytes : List UInt8) (nals : Nals),
      Media.inspectNals bytes .h264 .annexB 0 false = some nals →
        flag (inspectNals bytes .h264 .annexB 0 false) = nals.keyframe := by
  rintro ⟨flag, h⟩
  have hkey := h [0, 0, 1, 0x65] ⟨0, true, true⟩ (by decide)
  have hdelta := h [0, 0, 1, 0x41] ⟨0, false, true⟩ (by decide)
  rw [inspectNals_eq _ _ _ (Or.inl rfl)] at hkey hdelta
  have haccepted : (Media.inspectNals [0, 0, 1, 0x65] .h264 .annexB 0 false).isSome =
      (Media.inspectNals [0, 0, 1, 0x41] .h264 .annexB 0 false).isSome := by decide
  rw [haccepted, hdelta] at hkey
  cases hkey

end ProjectArgo.View
