import ProjectArgo.Projection.Channels

/-!
# What one message may do to the channels

`Handled` lists the outcomes of an accepted message: media, discovery, an opened
channel, the setup, start and stop of a stream, video focus, and everything else.
It says all that later results need to know about `handle`, so they never unfold it.
-/
namespace ProjectArgo.Projection

open Library.Protobuf

/-- An effect that concerns neither a media stream nor the video focus. -/
def Effect.isPlain : Effect → Bool
  | .reply sent => sent.id != 0x8004 && sent.id != 0x8008
  | .videoCodec _ => false
  | .video _ => false
  | .hostReturn => false
  | .media _ _ => false
  | _ => true

namespace Channels

/-- The message is none of those that change a media stream or the video focus. -/
def IsBeside (channel id : ℕ) : Prop :=
  isMedia channel = true → ¬(id = 0x8000 ∨ id = 0x8001 ∨ id = 0x8002 ∨ channel = 3 ∧ id = 0x8007)

/-- The acknowledgement of media in a stream session. -/
def mediaAck (channel session : ℕ) : Effect :=
  answer channel 0x8004 ((({} : Proto).number 1 session).number 2 1)

def openReply (channel : ℕ) : Effect := answer channel 8 (({} : Proto).number 1 0)

/-- The outcomes of an accepted message. -/
inductive Handled (channels : Channels) (channel id : ℕ) (body : List UInt8) :
    Channels → List Effect → Prop
  | media {session : ℕ} {data : List UInt8} (hid : id ≤ 1) (hmedia : isMedia channel = true)
      (hsession : channels.sessions[channel]? = some session) :
      Handled channels channel id body channels [.media channel data, mediaAck channel session]
  | discovery {warnings : Finset (ℕ × ℕ)} {effects : List Effect} (hchannel : channel = 0)
      (hid : id = 5) (hplain : ∀ effect ∈ effects, effect.isPlain = true) :
      Handled channels channel id body
        { channels with discovered := true, metadataWarnings := warnings }
        (channels.discoveryReply :: effects)
  | opened {fields : Numbers} {target : ℕ} (hid : id = 7) (hfields : numbers body = .ok fields)
      (htarget : fields[(2 : ℕ)]? = some target) (hdiscovered : channels.discovered = true) :
      Handled channels channel id body
        { channels with opened := insert target channels.opened } [openReply channel]
  | microphone {effects : List Effect} (hchannel : channel = 9) (hopen : 9 ∈ channels.opened)
      (hplain : ∀ effect ∈ effects, effect.isPlain = true) :
      Handled channels channel id body { channels with setup := insert 9 channels.setup } effects
  | setupVideo {fields : Numbers} {codec : ℕ} {effects : List Effect} (hchannel : channel = 3)
      (hid : id = 0x8000)
      (hopen : 3 ∈ channels.opened) (hfields : numbers body = .ok fields)
      (hcodec : fields[(1 : ℕ)]? = some codec)
      (haccepted : codec = 3 ∨ channels.offerHevc = true ∧ codec = 7)
      (hfixed : 3 ∈ channels.setup → channels.videoConfig = if codec = 7 then 1 else 0)
      (hplain : ∀ effect ∈ effects, effect.isPlain = true) :
      Handled channels channel id body
        { channels with
          setup := insert 3 channels.setup
          videoConfig := if codec = 7 then 1 else 0 }
        (effects ++ [.videoCodec (if codec = 7 then .hevc else .h264)])
  | setupAudio {fields : Numbers} {effects : List Effect}
      (hchannel : channel = 4 ∨ channel = 5 ∨ channel = 6) (hid : id = 0x8000)
      (hopen : channel ∈ channels.opened) (hfields : numbers body = .ok fields)
      (hcodec : fields[(1 : ℕ)]? = some 1)
      (hplain : ∀ effect ∈ effects, effect.isPlain = true) :
      Handled channels channel id body
        { channels with setup := insert channel channels.setup } effects
  | start {fields : Numbers} {session : ℕ} (hmedia : isMedia channel = true) (hid : id = 0x8001)
      (hsetup : channel ∈ channels.setup) (hfields : numbers body = .ok fields)
      (hsession : fields[(1 : ℕ)]? = some session) :
      Handled channels channel id body
        { channels with sessions := channels.sessions.insert channel session }
        (if channel = 3 then
          [.established, .video channels.videoRequested, focusReply channels.videoRequested]
        else [.audio channel true])
  | stop {fields : Numbers} (hmedia : isMedia channel = true) (hid : id = 0x8002)
      (hfields : numbers body = .ok fields) :
      Handled channels channel id body (channels.handleStop channel).1
        (channels.handleStop channel).2
  | focus {fields : Numbers} (hchannel : channel = 3) (hid : id = 0x8007)
      (hopen : 3 ∈ channels.opened) (hfields : numbers body = .ok fields) :
      Handled channels channel id body (channels.handleFocus fields).1
        (channels.handleFocus fields).2
  | other {warnings : Finset (ℕ × ℕ)} {effects : List Effect} (hbeside : IsBeside channel id)
      (hplain : ∀ effect ∈ effects, effect.isPlain = true) :
      Handled channels channel id body { channels with metadataWarnings := warnings } effects

/-- Nothing but plain effects. -/
theorem Handled.same {channels : Channels} {channel id : ℕ} {body : List UInt8}
    {effects : List Effect} (hbeside : IsBeside channel id)
    (hplain : ∀ effect ∈ effects, effect.isPlain = true) :
    Handled channels channel id body channels effects := by
  have h : Handled channels channel id body
      { channels with metadataWarnings := channels.metadataWarnings } effects :=
    Handled.other hbeside hplain
  exact h

variable {channels next : Channels} {channel id : ℕ} {body : List UInt8} {fields : Numbers}
  {effects : List Effect}

theorem isBeside_of_not_media (h : isMedia channel = false) : IsBeside channel id := by
  intro hmedia
  rw [h] at hmedia
  exact nomatch hmedia

theorem handleMedia_cases (hid : id ≤ 1) (hmedia : isMedia channel = true)
    (h : channels.handleMedia channel id body = .ok effects) :
    Handled channels channel id body channels effects := by
  unfold handleMedia at h
  split at h
  · exact nomatch h
  rename_i session hsession
  split at h
  · exact nomatch h
  dsimp only at h
  generalize (if id = 0 then body.drop 8 else body) = data at h
  split at h
  · exact nomatch h
  · cases h
    exact Handled.media hid hmedia hsession

theorem noteMetadata_spec (channels : Channels) (channel id : ℕ) (body : List UInt8) :
    ∃ warnings, (channels.noteMetadata channel id body).1 =
        { channels with metadataWarnings := warnings } ∧
      ∀ effect ∈ (channels.noteMetadata channel id body).2, effect.isPlain = true := by
  unfold noteMetadata
  dsimp only
  split
  · exact ⟨channels.metadataWarnings, rfl, by simp [Effect.isPlain]⟩
  · exact ⟨_, rfl, by simp⟩

theorem handleMetadata_cases (h : isMetadata channel id = true) :
    Handled channels channel id body (channels.handleMetadata channel id body).1
      (channels.handleMetadata channel id body).2 := by
  have hmedia : isMedia channel = false := by
    simp only [isMetadata, Metadata.channel, Bool.or_eq_true, Bool.and_eq_true, beq_iff_eq] at h
    rcases h with ⟨rfl, -⟩ | ⟨rfl, -⟩ <;> rfl
  obtain ⟨warnings, hnext, hplain⟩ := noteMetadata_spec channels channel id body
  unfold handleMetadata
  rcases hnote : channels.noteMetadata channel id body with ⟨noted, effects⟩
  rw [hnote] at hnext hplain
  dsimp only at hnext hplain ⊢
  subst hnext
  split
  · rename_i hdiscovery
    exact Handled.discovery hdiscovery.1 hdiscovery.2 hplain
  · exact Handled.other (isBeside_of_not_media hmedia) hplain

theorem handleOpen_cases (hid : id = 7) (hfields : numbers body = .ok fields)
    (h : channels.handleOpen channel fields = .ok (next, effects)) :
    Handled channels channel id body next effects := by
  have hbeside : IsBeside channel id := fun _ => by omega
  unfold handleOpen at h
  split at h
  · exact nomatch h
  rename_i target htarget
  split at h
  · rename_i hsupported
    cases h
    rw [Bool.and_eq_true] at hsupported
    exact Handled.opened hid hfields htarget hsupported.1
  · cases h
    exact Handled.same hbeside (by simp [Effect.isPlain, answer, Reply.new])

theorem isPlain_handleControl (id : ℕ) (body : List UInt8) (fields : Numbers) :
    ∀ effect ∈ handleControl id body fields, effect.isPlain = true := by
  unfold handleControl
  split <;> simp [Effect.isPlain, answer, Reply.new]

theorem handleSensor_cases (hchannel : channel = 1) (h : handleSensor fields = .ok effects) :
    Handled channels channel id body channels effects := by
  have hbeside : IsBeside channel id := isBeside_of_not_media (by rw [hchannel]; rfl)
  apply Handled.same hbeside
  unfold handleSensor at h
  split at h
  · exact nomatch h
  split at h
  · cases h
    simp [Effect.isPlain, answer, Reply.new]
  · cases h
    simp [Effect.isPlain, answer, Reply.new]

theorem handleMicrophone_cases (hchannel : channel = 9) (hopen : channel ∈ channels.opened)
    (h : channels.handleMicrophone id fields = .ok (next, effects)) :
    Handled channels channel id body next effects := by
  have hbeside : IsBeside channel id := isBeside_of_not_media (by rw [hchannel]; rfl)
  unfold handleMicrophone at h
  split at h
  · split at h
    · exact nomatch h
    · cases h
      apply Handled.microphone hchannel (hchannel ▸ hopen)
      simp [Effect.isPlain, answer, Reply.new]
  · split at h
    · exact nomatch h
    · cases h
      exact Handled.same hbeside (by simp [Effect.isPlain])
  · cases h
    exact Handled.same hbeside (by simp [Effect.isPlain])
  · cases h
    exact Handled.same hbeside (by simp [Effect.isPlain])
  · cases h
    exact Handled.same hbeside (by simp)

theorem handleSetup_cases (hmedia : isMedia channel = true) (hid : id = 0x8000)
    (hopen : channel ∈ channels.opened) (hfields : numbers body = .ok fields)
    (h : channels.handleSetup channel fields = .ok (next, effects)) :
    Handled channels channel id body next effects := by
  have hplain : ∀ index, ∀ effect ∈ [answer channel 0x8003
      (((({} : Proto).number 1 2).number 2 4).number 3 index)], effect.isPlain = true := by
    simp [Effect.isPlain, answer, Reply.new]
  unfold handleSetup at h
  dsimp only at h
  by_cases hvideo : channel = 3
  · subst hvideo
    simp only [true_and, if_true] at h
    rcases hcodec : fields[(1 : ℕ)]? with _ | codec
    · simp [hcodec] at h
    rw [hcodec] at h
    simp only [Option.some.injEq] at h
    split at h
    · exact nomatch h
    rename_i hsupported
    have haccepted : codec = 3 ∨ channels.offerHevc = true ∧ codec = 7 := by
      simpa [or_iff_not_imp_left] using hsupported
    generalize hindex : (if codec = 7 then 1 else 0) = index at h
    have hshape : (if index = 1 then VideoCodec.hevc else .h264) =
        if codec = 7 then .hevc else .h264 := by
      subst hindex
      by_cases h7 : codec = 7 <;> simp [h7]
    rw [hshape] at h
    split at h
    · exact nomatch h
    rename_i hfixed
    have hkept : 3 ∈ channels.setup → channels.videoConfig = if codec = 7 then 1 else 0 := by
      intro hmem
      by_contra hne
      exact hfixed ⟨hmem, hindex ▸ hne⟩
    subst hindex
    cases h
    exact Handled.setupVideo rfl hid hopen hfields hcodec haccepted hkept (hplain _)
  · simp only [hvideo, false_and, if_false] at h
    split at h
    · exact nomatch h
    rename_i hsupported
    have hcodec : fields[(1 : ℕ)]? = some 1 := by simpa using hsupported
    have haudio : channel = 4 ∨ channel = 5 ∨ channel = 6 := by
      simp only [isMedia, Bool.and_eq_true, decide_eq_true_eq] at hmedia
      omega
    cases h
    exact Handled.setupAudio haudio hid hopen hfields hcodec (hplain _)

theorem handleStart_cases (hmedia : isMedia channel = true) (hid : id = 0x8001)
    (hfields : numbers body = .ok fields)
    (h : channels.handleStart channel fields = .ok (next, effects)) :
    Handled channels channel id body next effects := by
  unfold handleStart at h
  dsimp only at h
  by_cases hsetup : channel ∈ channels.setup
  · generalize (if channel = 3 then channels.videoConfig else 0) = expected at h
    split at h
    · exact nomatch h
    split at h
    · exact nomatch h
    · rename_i session hsession
      cases h
      exact Handled.start hmedia hid hsetup hfields hsession
  · rw [if_pos (Or.inl hsetup)] at h
    exact nomatch h

theorem handleStream_cases (hmedia : isMedia channel = true) (hopen : channel ∈ channels.opened)
    (hfields : numbers body = .ok fields)
    (h : channels.handleStream channel id fields = .ok (next, effects)) :
    Handled channels channel id body next effects := by
  unfold handleStream at h
  split at h
  · exact handleSetup_cases hmedia rfl hopen hfields h
  · exact handleStart_cases hmedia rfl hfields h
  · cases h
    exact Handled.stop hmedia rfl hfields
  · split at h
    · rename_i hvideo
      subst hvideo
      cases h
      exact Handled.focus rfl rfl hopen hfields
    · rename_i hvideo
      cases h
      apply Handled.same _ (by simp)
      intro _
      omega
  · rename_i hsetup hstart hstop hfocus
    cases h
    apply Handled.same _ (by simp)
    rintro - (rfl | rfl | rfl | ⟨-, rfl⟩)
    · exact hsetup rfl
    · exact hstart rfl
    · exact hstop rfl
    · exact hfocus rfl

theorem handleService_cases (hfields : numbers body = .ok fields)
    (h : channels.handleService channel id fields = .ok (next, effects)) :
    Handled channels channel id body next effects := by
  unfold handleService at h
  split at h
  · exact nomatch h
  rename_i hopen
  rw [not_not] at hopen
  split at h
  · rename_i hsensor
    cases hanswer : handleSensor fields with
    | error text =>
      rw [hanswer] at h
      exact nomatch h
    | ok answered =>
      rw [hanswer] at h
      cases h
      exact handleSensor_cases hsensor.1 hanswer
  split at h
  · rename_i hinput
    cases h
    apply Handled.same (isBeside_of_not_media (by rw [hinput.1]; rfl))
    split <;> simp [Effect.isPlain, answer, Reply.new]
  split at h
  · rename_i hmicrophone
    exact handleMicrophone_cases hmicrophone hopen h
  split at h
  · rename_i hmedia
    exact handleStream_cases hmedia hopen hfields h
  · rename_i hmedia
    cases h
    exact Handled.same (isBeside_of_not_media (Bool.eq_false_iff.mpr hmedia)) (by simp)

/-- Every accepted message has one of the outcomes. -/
theorem handle_cases (h : channels.handle channel id body = .ok (next, effects)) :
    Handled channels channel id body next effects := by
  unfold handle at h
  split at h
  · rename_i hmedia
    cases hanswer : channels.handleMedia channel id body with
    | error text =>
      rw [hanswer] at h
      exact nomatch h
    | ok answered =>
      rw [hanswer] at h
      cases h
      exact handleMedia_cases hmedia.1 hmedia.2 hanswer
  split at h
  · rename_i hmetadata
    have hnext : Handled channels channel id body (channels.handleMetadata channel id body).1
        (channels.handleMetadata channel id body).2 := handleMetadata_cases hmetadata
    rw [Except.ok.inj h] at hnext
    exact hnext
  split at h
  · rename_i hmetadata
    cases h
    exact Handled.same (isBeside_of_not_media (by rw [hmetadata.1]; rfl)) (by simp)
  split at h
  · exact nomatch h
  rename_i fields hfields
  split at h
  · rename_i hopen
    exact handleOpen_cases hopen hfields h
  split at h
  · rename_i hcontrol
    cases h
    exact Handled.same (isBeside_of_not_media (by rw [hcontrol]; rfl))
      (isPlain_handleControl id body fields)
  · exact handleService_cases hfields h

/-- A touch changes the contacts only, and its report is a plain reply. -/
theorem touch_spec (scaling : Scaling) {pointer phase : ℕ} {x y : Option ℚ} {timestamp : UInt64}
    {reply : Option Reply}
    (h : channels.touch scaling pointer phase x y timestamp = .ok (next, reply)) :
    (∃ pointers large,
      next = { channels with pointers := pointers, reportedLargePointer := large }) ∧
    ∀ sent ∈ reply, sent.channel = 8 ∧ sent.id = 0x8001 := by
  have hsame : (∃ pointers large,
      channels = { channels with pointers := pointers, reportedLargePointer := large }) :=
    ⟨channels.pointers, channels.reportedLargePointer, rfl⟩
  unfold touch at h
  split at h
  · cases h
    exact ⟨hsame, by simp⟩
  split at h
  · exact nomatch h
  dsimp only at h
  split at h
  · cases h
    exact ⟨hsame, by simp⟩
  split at h
  · cases h
    exact ⟨hsame, by simp⟩
  split at h
  · exact nomatch h
  · cases h
    refine ⟨⟨_, _, rfl⟩, ?_⟩
    rintro sent hsent
    cases hsent
    exact ⟨rfl, rfl⟩

theorem isPlain_keyReport (code : ℕ) (timestamp : UInt64) (pressed : Bool) :
    (Effect.reply (keyReport code timestamp pressed)).isPlain = true := by
  simp [Effect.isPlain, keyReport, Reply.new]

end Channels

end ProjectArgo.Projection
