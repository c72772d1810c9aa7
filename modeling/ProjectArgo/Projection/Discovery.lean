import ProjectArgo.Projection.Channels

/-!
# What service discovery advertises

A phone reads the discovery response as a list of services. A media sink
advertises the codec of its own and those of its video configurations; the
codecs that `handleSetup` accepts are among them.
-/
namespace ProjectArgo.Projection

open Library.Protobuf

/-- The sink advertises the codec, for itself or in one of its video configurations. -/
def SinkOffers (sink : List UInt8) (codec : ℕ) : Prop :=
  ∃ content, read 1024 sink = .ok content ∧
    (lastNumber content 1 = some codec ∨
      ∃ config ∈ allBytes content 4, ∃ fields, read 1024 config = .ok fields ∧
        lastNumber fields 10 = some codec)

/-- The response has a media sink for the channel, with the codec. -/
def Advertised (response : List UInt8) (channel codec : ℕ) : Prop :=
  ∃ content, read 1024 response = .ok content ∧
    ∃ service ∈ allBytes content 1, ∃ fields, read 1024 service = .ok fields ∧
      lastNumber fields 1 = some channel ∧ ∃ sink ∈ allBytes fields 3, SinkOffers sink codec

open Proto

/-! ## Sizes of the descriptions -/

theorem within_uiConfig (display : DisplayConfig) : display.uiConfig.Within 300 := by
  have hinsets : ∀ edges, (insets edges).Within 80 := fun edges =>
    Within.empty.number.number.number.number
  exact ((Within.empty.nested (hinsets _)).nested (hinsets _)).nested (hinsets _)

theorem within_videoConfig (display : DisplayConfig) (codec : ℕ) :
    (videoConfig display codec).Within 1000 := by
  apply Nat.le_trans
    (Within.empty.number.number.number.number.nested
      (within_uiConfig display)).number.number.number
  decide

theorem within_videoSink (display : DisplayConfig) (hevc : Bool) :
    (videoSink display hevc).Within 3000 := by
  have hconfig := within_videoConfig display
  unfold videoSink
  cases hevc with
  | false =>
    apply Nat.le_trans (Within.empty.number.nested (hconfig 3)).number.number
    decide
  | true =>
    apply Nat.le_trans ((Within.empty.number.nested (hconfig 3)).nested (hconfig 7)).number.number
    decide

theorem within_audioSink (format : AudioFormat) : (audioSink format).Within 200 := by
  apply Nat.le_trans (Within.empty.number.number.nested Within.empty.number.number.number).number
  decide

theorem within_service {description : Proto} {size : ℕ} (h : description.Within size)
    (channel kind : ℕ) : (service channel kind description).Within (size + 40) := by
  apply Nat.le_trans (Within.empty.number.nested h)
  omega

/-! ## The sinks -/

theorem videoConfig_eq (display : DisplayConfig) (codec : ℕ) :
    videoConfig display codec = of
      [(1, .number (if display.width = 800 then 1 else if display.width = 1920 then 3 else 2)),
        (2, .number (if display.fps = 60 then 1 else 2)),
        (3, .number (display.viewInsets.left + display.viewInsets.right)),
        (4, .number (display.viewInsets.top + display.viewInsets.bottom)),
        (11, .bytes display.uiConfig.octets), (5, .number display.dpi), (8, .number 10000),
        (10, .number codec)] := by
  simp [videoConfig]

theorem read_videoConfig (display : Display) {codec : ℕ} (hcodec : codec < 2 ^ 64) :
    ∃ fields, read 1024 (videoConfig display.1 codec).octets = .ok fields ∧
      lastNumber fields 10 = some codec := by
  obtain ⟨-, -, hwidth, hheight, hdpi, hacross, hdown, -, -⟩ := display.bounds
  have hui : display.1.uiConfig.octets.length ≤ 300 := within_uiConfig display.1
  rw [videoConfig_eq]
  refine ⟨_, read_of (by simp) ?_, by simp [lastNumber]⟩
  simp only [List.forall_mem_cons, Fits, Payload.Fits, List.not_mem_nil, IsEmpty.forall_iff,
    implies_true, and_true]
  refine ⟨?_, ?_, ?_, ?_, ?_, ?_, ?_, ?_⟩
  · split_ifs <;> omega
  · split_ifs <;> omega
  all_goals omega

theorem sinkOffers_video (display : Display) {hevc : Bool} {codec : ℕ}
    (h : codec = 3 ∨ hevc = true ∧ codec = 7) :
    SinkOffers (videoSink display.1 hevc).octets codec := by
  have hsize : ∀ codec, (videoConfig display.1 codec).octets.length ≤ 1000 :=
    within_videoConfig display.1
  have hfirst := hsize 3
  have hsecond := hsize 7
  have hread := fun codec (h : codec < 2 ^ 64) => read_videoConfig display h
  cases hevc with
  | false =>
    have heq : videoSink display.1 false = of [(1, .number 3),
        (4, .bytes (videoConfig display.1 3).octets), (5, .number 1), (7, .number 0)] := by
      simp [videoSink]
    rw [heq]
    refine ⟨_, read_of (by simp) ?_, Or.inl ?_⟩
    · simp only [List.forall_mem_cons, Fits, Payload.Fits, List.not_mem_nil, IsEmpty.forall_iff,
        implies_true, and_true]
      omega
    · rcases h with rfl | ⟨hfalse, -⟩
      · simp [lastNumber]
      · cases hfalse
  | true =>
    have heq : videoSink display.1 true = of [(1, .number 3),
        (4, .bytes (videoConfig display.1 3).octets), (4, .bytes (videoConfig display.1 7).octets),
        (5, .number 1), (7, .number 0)] := by
      simp [videoSink]
    rw [heq]
    refine ⟨_, read_of (by simp) ?_, Or.inr ⟨(videoConfig display.1 codec).octets, ?_, ?_⟩⟩
    · simp only [List.forall_mem_cons, Fits, Payload.Fits, List.not_mem_nil, IsEmpty.forall_iff,
        implies_true, and_true]
      omega
    · rcases h with rfl | ⟨-, rfl⟩ <;> simp [allBytes]
    · apply hread
      omega

theorem sinkOffers_audio {format : AudioFormat} (h : format ∈ audioFormats) :
    SinkOffers (audioSink format).octets 1 := by
  have heq : audioSink format = of [(1, .number 1), (2, .number format.role),
      (3, .bytes (((({} : Proto).number 1 format.rate).number 2 format.bits).number 3
        format.channels).octets), (5, .number 1)] := by
    simp [audioSink]
  have hconfig : (((({} : Proto).number 1 format.rate).number 2 format.bits).number 3
      format.channels).octets.length ≤ 60 := Within.empty.number.number.number
  have hrole : format.role ≤ 3 := by
    simp only [audioFormats, List.mem_cons, List.not_mem_nil, or_false] at h
    rcases h with rfl | rfl | rfl <;> decide
  rw [heq]
  refine ⟨_, read_of (by simp) ?_, Or.inl (by simp [lastNumber])⟩
  simp only [List.forall_mem_cons, Fits, Payload.Fits, List.not_mem_nil, IsEmpty.forall_iff,
    implies_true, and_true]
  omega

/-! ## The response -/

theorem read_service {channel : ℕ} {sink : Proto} (hchannel : channel < 2 ^ 64)
    (hsink : sink.Within 3000) :
    ∃ fields, read 1024 (service channel 3 sink).octets = .ok fields ∧
      lastNumber fields 1 = some channel ∧ sink.octets ∈ allBytes fields 3 := by
  have heq : service channel 3 sink = of [(1, .number channel), (3, .bytes sink.octets)] := by
    simp [service]
  have hlength : sink.octets.length ≤ 3000 := hsink
  rw [heq]
  refine ⟨_, read_of (by simp) ?_, by simp [lastNumber], by simp [allBytes]⟩
  simp only [List.forall_mem_cons, Fits, Payload.Fits, List.not_mem_nil, IsEmpty.forall_iff,
    implies_true, and_true]
  omega

/-- The services of the response, in their order. -/
def services (display : DisplayConfig) (hevc : Bool) : List Proto :=
  service 1 2 sensorSource :: service 3 3 (videoSink display hevc) ::
    audioFormats.map (fun format => service format.channel 3 (audioSink format)) ++
    [service 9 5 microphoneSource, service Metadata.channel 9 {}, service 8 4 (inputSource display)]

theorem within_services (display : DisplayConfig) (hevc : Bool) :
    ∀ service ∈ services display hevc, service.Within 3100 := by
  intro entry hentry
  simp only [services, List.cons_append, List.mem_cons, List.mem_append, List.mem_map,
    List.not_mem_nil, or_false] at hentry
  rcases hentry with rfl | rfl | ⟨format, -, rfl⟩ | rfl | rfl | rfl
  · apply Nat.le_trans (within_service ((Within.empty.nested Within.empty.number).nested
      Within.empty.number) 1 2)
    decide
  · exact Nat.le_trans (within_service (within_videoSink display hevc) 3 3) (by decide)
  · exact Nat.le_trans (within_service (within_audioSink format) format.channel 3) (by decide)
  · apply Nat.le_trans (within_service (Within.empty.number.nested
      Within.empty.number.number.number).number 9 5)
    decide
  · exact Nat.le_trans (within_service Within.empty Metadata.channel 9) (by decide)
  · apply Nat.le_trans (within_service (Within.empty.number.number.number.number.nested
      Within.empty.number.number) 8 4)
    decide

/-- The fields of the response before its services. -/
def headunitFields (display : DisplayConfig) : Message :=
  [(2, .bytes (byteString "Project Argo")), (3, .bytes (byteString "Universal")),
    (4, .bytes (byteString "2026")), (5, .bytes (byteString "argo-001")),
    (6, .number (if display.rightDriver then 1 else 0)),
    (7, .bytes (byteString "Project Argo")), (8, .bytes (byteString "Argo Head Unit")),
    (9, .bytes (byteString "1")), (10, .bytes (byteString "1.0")), (11, .number 1),
    (14, .bytes (byteString "Project Argo")), (15, .number 0),
    (16, .bytes (({} : Proto).nested 1 pingConfiguration).octets), (17, .bytes headunitInfo.octets)]

theorem headunit_eq (display : DisplayConfig) : headunit display = of (headunitFields display) := by
  simp [headunit, headunitFields]

theorem fits_headunitFields (display : DisplayConfig) :
    ∀ field ∈ headunitFields display, Fits field := by
  have hping : (({} : Proto).nested 1 pingConfiguration).octets.length ≤ 100 :=
    Within.empty.nested Within.empty.number.number.number.number
  have hinfo : headunitInfo.octets.length ≤ 300 := by
    apply Nat.le_trans Within.empty.bytes.bytes.bytes.bytes.bytes.bytes.bytes.bytes
    decide
  have htext : ∀ text ∈ ["Project Argo", "Universal", "2026", "argo-001", "Argo Head Unit", "1",
      "1.0"], (byteString text).length < 2 ^ 64 := by decide
  simp only [List.forall_mem_cons, List.not_mem_nil, IsEmpty.forall_iff, implies_true,
    and_true] at htext
  simp only [headunitFields, List.forall_mem_cons, Fits, Payload.Fits, List.not_mem_nil,
    IsEmpty.forall_iff, implies_true, and_true]
  have hright : (if display.rightDriver then 1 else 0) < 2 ^ 64 := by
    split_ifs <;> omega
  omega

theorem discoveryCodecs_eq (display : DisplayConfig) (hevc : Bool) :
    discoveryCodecs display hevc = (of (headunitFields display ++
      (services display hevc).map fun service => (1, .bytes service.octets))).octets := by
  simp [discoveryCodecs, headunit_eq, services, audioFormats, finish]

theorem read_discoveryCodecs (display : DisplayConfig) (hevc : Bool) :
    ∃ content, read 1024 (discoveryCodecs display hevc) = .ok content ∧
      ∀ service ∈ services display hevc, service.octets ∈ allBytes content 1 := by
  rw [discoveryCodecs_eq]
  refine ⟨_, read_of ?_ ?_, ?_⟩
  · simp [headunitFields, services, audioFormats]
  · intro field hfield
    rcases List.mem_append.mp hfield with hunit | hservice
    · exact fits_headunitFields display field hunit
    · obtain ⟨entry, hentry, rfl⟩ := List.mem_map.mp hservice
      have hsize : entry.octets.length ≤ 3100 := within_services display hevc entry hentry
      simp only [Fits, Payload.Fits]
      omega
  · intro entry hentry
    apply List.mem_filterMap.mpr
    refine ⟨(1, .bytes entry.octets), ?_, by simp⟩
    exact List.mem_append_right _ (List.mem_map.mpr ⟨entry, hentry, rfl⟩)

/-- Every codec that `handleSetup` accepts for a channel. -/
theorem advertised_of_accepted (display : Display) {hevc : Bool} {channel codec : ℕ}
    (h : (channel = 3 ∧ (codec = 3 ∨ hevc = true ∧ codec = 7)) ∨
      ((channel = 4 ∨ channel = 5 ∨ channel = 6) ∧ codec = 1)) :
    Advertised (discoveryCodecs display.1 hevc) channel codec := by
  obtain ⟨content, hread, hservices⟩ := read_discoveryCodecs display.1 hevc
  refine ⟨content, hread, ?_⟩
  rcases h with ⟨rfl, hcodec⟩ | ⟨hchannel, rfl⟩
  · have hsmall : 3 < 2 ^ 64 := by norm_num
    obtain ⟨fields, hfields, hchannel, hsink⟩ :=
      read_service hsmall (within_videoSink display.1 hevc)
    exact ⟨_, hservices _ (by simp [services]), fields, hfields, hchannel, _, hsink,
      sinkOffers_video display hcodec⟩
  · have hformat : ∃ format ∈ audioFormats, format.channel = channel := by
      rcases hchannel with rfl | rfl | rfl <;> simp [audioFormats]
    obtain ⟨format, hmem, hformat⟩ := hformat
    have hsmall : channel < 2 ^ 64 := by omega
    obtain ⟨fields, hfields, hnumber, hsink⟩ :=
      read_service hsmall ((within_audioSink format).trans (by decide))
    refine ⟨_, hservices (service channel 3 (audioSink format)) ?_, fields, hfields, hnumber, _,
      hsink, sinkOffers_audio hmem⟩
    subst hformat
    simp only [services, List.cons_append, List.mem_cons, List.mem_append]
    exact Or.inr (Or.inr (Or.inl (List.mem_map.mpr ⟨format, hmem, rfl⟩)))

end ProjectArgo.Projection
