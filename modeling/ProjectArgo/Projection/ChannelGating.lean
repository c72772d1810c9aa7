import ProjectArgo.Library.Run
import ProjectArgo.Library.NatMap
import ProjectArgo.Projection.Discovery
import ProjectArgo.Projection.ChannelSteps

/-!
# The order in which channels carry media

The phone may send anything. The history of a session is read as the phone sees
it: which discovery response it got, which channels were granted, and which
setups, starts and stops were accepted. Media passes only on a channel that was
opened after discovery, set up with an advertised codec and started since, and
every acknowledgement names the start in force.
-/
namespace ProjectArgo.Projection.Channels

open Library.Protobuf Library.Run

/-! ## What a history shows -/

/-- An accepted message with its integer fields. -/
def Accepts (channel id : ℕ) (fields : Numbers) (entry : Entry) : Prop :=
  ∃ body effects, entry = (.message channel id body, .ok effects) ∧ numbers body = .ok fields

/-- Service discovery is answered with this response. -/
def Discovers (response : List UInt8) (entry : Entry) : Prop :=
  ∃ body effects, entry = (.message 0 5 body, .ok effects) ∧
    .reply (Reply.new 0 6 response) ∈ effects

/-- The phone, on any channel, is granted the channel it asks for. -/
def Opens (channel : ℕ) (entry : Entry) : Prop :=
  ∃ via body effects fields, entry = (.message via 7 body, .ok effects) ∧
    numbers body = .ok fields ∧ fields[(2 : ℕ)]? = some channel ∧ openReply via ∈ effects

def SetsUp (channel codec : ℕ) (entry : Entry) : Prop :=
  ∃ fields, Accepts channel 0x8000 fields entry ∧ fields[(1 : ℕ)]? = some codec

def Starts (channel session : ℕ) (entry : Entry) : Prop :=
  ∃ fields, Accepts channel 0x8001 fields entry ∧ fields[(1 : ℕ)]? = some session

def Stops (channel : ℕ) (entry : Entry) : Prop := ∃ fields, Accepts channel 0x8002 fields entry

/-- The video codec the session is told to use. -/
def Selects (codec : VideoCodec) (entry : Entry) : Prop :=
  ∃ effects, entry.2 = .ok effects ∧ .videoCodec codec ∈ effects

def DiscoveredIn (response : List UInt8) (history : List Entry) : Prop :=
  ∃ entry ∈ history, Discovers response entry

def OpenedIn (response : List UInt8) (channel : ℕ) (history : List Entry) : Prop :=
  ∃ before entry after, history = before ++ entry :: after ∧ Opens channel entry ∧
    DiscoveredIn response before

/-- Set up with a codec that the discovery before it advertised for the channel. -/
def SetUpIn (channel : ℕ) (history : List Entry) : Prop :=
  ∃ response codec before entry after, history = before ++ entry :: after ∧
    SetsUp channel codec entry ∧ Advertised response channel codec ∧
    OpenedIn response channel before

/-- Started in this session, and neither stopped nor started again. -/
def StartedIn (channel session : ℕ) (history : List Entry) : Prop :=
  ∃ before entry after, history = before ++ entry :: after ∧ Starts channel session entry ∧
    SetUpIn channel before ∧
    ∀ later ∈ after, ¬Stops channel later ∧ ∀ other, ¬Starts channel other later

/-- An acknowledgement of media, and the stream session it names. -/
def Acknowledges (ack : Reply) (session : ℕ) : Prop :=
  ∃ fields, numbers ack.body = .ok fields ∧ fields[(1 : ℕ)]? = some session

/-! ## Histories only grow -/

variable {response : List UInt8} {channel session : ℕ} {history : List Entry} {entry : Entry}

theorem DiscoveredIn.concat (h : DiscoveredIn response history) (entry : Entry) :
    DiscoveredIn response (history ++ [entry]) := by
  obtain ⟨old, hmem, hold⟩ := h
  exact ⟨old, List.mem_append_left _ hmem, hold⟩

theorem OpenedIn.concat (h : OpenedIn response channel history) (entry : Entry) :
    OpenedIn response channel (history ++ [entry]) := by
  obtain ⟨before, opening, after, rfl, hopens, hdiscovered⟩ := h
  exact ⟨before, opening, after ++ [entry], by simp, hopens, hdiscovered⟩

theorem SetUpIn.concat (h : SetUpIn channel history) (entry : Entry) :
    SetUpIn channel (history ++ [entry]) := by
  obtain ⟨response, codec, before, setup, after, rfl, hsetup, hadvertised, hopened⟩ := h
  exact ⟨response, codec, before, setup, after ++ [entry], by simp, hsetup, hadvertised, hopened⟩

/-- The entry is no start and no stop of the channel. -/
def LeavesStream (channel : ℕ) (entry : Entry) : Prop :=
  ¬Stops channel entry ∧ ∀ other, ¬Starts channel other entry

theorem leavesStream_message {id other : ℕ} {body : List UInt8} {output : Output}
    (h : channel = other → id ≠ 0x8001 ∧ id ≠ 0x8002) :
    LeavesStream channel (.message other id body, output) := by
  constructor
  · rintro ⟨fields, _, effects, heq, -⟩
    cases heq
    exact (h rfl).2 rfl
  · rintro found ⟨fields, ⟨_, effects, heq, -⟩, -⟩
    cases heq
    exact (h rfl).1 rfl

theorem leavesStream_error (channel : ℕ) (input : Input) (text : String) :
    LeavesStream channel (input, .error text) := by
  constructor
  · rintro ⟨fields, body, effects, heq, -⟩
    exact nomatch heq
  · rintro found ⟨fields, ⟨body, effects, heq, -⟩, -⟩
    exact nomatch heq

theorem StartedIn.concat (h : StartedIn channel session history)
    (hentry : LeavesStream channel entry) : StartedIn channel session (history ++ [entry]) := by
  obtain ⟨before, start, after, rfl, hstarts, hsetup, hafter⟩ := h
  refine ⟨before, start, after ++ [entry], by simp, hstarts, hsetup, ?_⟩
  intro later hlater
  rcases List.mem_append.mp hlater with hold | hnew
  · exact hafter later hold
  · rw [List.mem_singleton.mp hnew]
    exact hentry

/-! ## The invariant -/

/-- The codec of a configuration index. -/
def codecOf (index : ℕ) : VideoCodec := if index = 1 then .hevc else .h264

/-- What the channels remember is what the history shows. -/
structure Tracks (display : Display) (offerHevc : Bool) (channels : Channels)
    (history : List Entry) : Prop where
  display_eq : channels.display = display
  offerHevc_eq : channels.offerHevc = offerHevc
  discovered : channels.discovered = true →
    DiscoveredIn (discoveryCodecs display.1 offerHevc) history
  opened : ∀ channel ∈ channels.opened,
    OpenedIn (discoveryCodecs display.1 offerHevc) channel history
  setup : ∀ channel ∈ channels.setup, channel ∈ channels.opened
  ready : ∀ channel ∈ channels.setup, isMedia channel = true → SetUpIn channel history
  sessions : ∀ channel session, channels.sessions[channel]? = some session →
    isMedia channel = true ∧ channel ∈ channels.setup ∧ session < 2 ^ 64 ∧
      StartedIn channel session history
  codec : ∀ entry ∈ history, ∀ codec, Selects codec entry →
    3 ∈ channels.setup ∧ codec = codecOf channels.videoConfig

variable {display : Display} {offerHevc : Bool} {channels next : Channels}

theorem withHevc_tracks (display : Display) (offerHevc : Bool) :
    Tracks display offerHevc (withHevc display offerHevc) [] where
  display_eq := rfl
  offerHevc_eq := rfl
  discovered := fun h => nomatch h
  opened := by simp [withHevc]
  setup := by simp [withHevc]
  ready := by simp [withHevc]
  sessions := by simp [withHevc]
  codec := by simp

/-- An entry that starts and stops nothing and selects no codec. -/
theorem Tracks.concat (h : Tracks display offerHevc channels history)
    (hentry : ∀ channel, isMedia channel = true → LeavesStream channel entry)
    (hcodec : ∀ codec, ¬Selects codec entry) :
    Tracks display offerHevc channels (history ++ [entry]) where
  display_eq := h.display_eq
  offerHevc_eq := h.offerHevc_eq
  discovered := fun hdiscovered => (h.discovered hdiscovered).concat entry
  opened := fun channel hmem => (h.opened channel hmem).concat entry
  setup := h.setup
  ready := fun channel hmem hmedia => (h.ready channel hmem hmedia).concat entry
  sessions := by
    intro channel session hsession
    obtain ⟨hmedia, hsetup, hlt, hstarted⟩ := h.sessions channel session hsession
    exact ⟨hmedia, hsetup, hlt, hstarted.concat (hentry channel hmedia)⟩
  codec := by
    intro old hold codec hselects
    rcases List.mem_append.mp hold with hmem | hnew
    · exact h.codec old hmem codec hselects
    · rw [List.mem_singleton.mp hnew] at hselects
      exact absurd hselects (hcodec codec)

/-- Media, its acknowledgement, or the choice of a codec. -/
def ofStream : Effect → Bool
  | .media _ _ => true
  | .videoCodec _ => true
  | .reply sent => sent.id == 0x8004
  | _ => false

theorem ofStream_of_plain {effects : List Effect}
    (h : ∀ effect ∈ effects, effect.isPlain = true) :
    ∀ effect ∈ effects, ofStream effect = false := by
  intro effect hmem
  have hplain := h effect hmem
  cases effect with
  | reply sent =>
    simp only [Effect.isPlain, Bool.and_eq_true, bne_iff_ne] at hplain
    simp [ofStream, hplain.1]
  | media channel data => cases hplain
  | videoCodec codec => cases hplain
  | _ => rfl

theorem not_selects_of {input : Input} {effects : List Effect}
    (h : ∀ effect ∈ effects, ofStream effect = false) (codec : VideoCodec) :
    ¬Selects codec (input, .ok effects) := by
  rintro ⟨_, heq, hmem⟩
  cases heq
  exact nomatch h _ hmem

/-- A message that is no start and no stop leaves every stream alone. -/
theorem leavesStream_of_beside {id : ℕ} {body : List UInt8} {output : Output}
    (h : isMedia channel = true → id ≠ 0x8001 ∧ id ≠ 0x8002) :
    ∀ other, isMedia other = true → LeavesStream other (.message channel id body, output) := by
  intro other hmedia
  apply leavesStream_message
  rintro rfl
  exact h hmedia

variable {id : ℕ} {body : List UInt8} {fields : Numbers} {effects : List Effect}

theorem Tracks.start (h : Tracks display offerHevc channels history)
    (hmedia : isMedia channel = true) (hsetup : channel ∈ channels.setup)
    (hfields : numbers body = .ok fields) (hsession : fields[(1 : ℕ)]? = some session)
    (hcodec : ∀ codec, ¬Selects codec (.message channel 0x8001 body, .ok effects)) :
    Tracks display offerHevc { channels with sessions := channels.sessions.insert channel session }
      (history ++ [(.message channel 0x8001 body, .ok effects)]) where
  display_eq := h.display_eq
  offerHevc_eq := h.offerHevc_eq
  discovered := fun hdiscovered => (h.discovered hdiscovered).concat _
  opened := fun other hmem => (h.opened other hmem).concat _
  setup := h.setup
  ready := fun other hmem hother => (h.ready other hmem hother).concat _
  sessions := by
    intro other found hfound
    rw [Library.NatMap.getElem?_insert] at hfound
    split at hfound
    · rename_i heq
      subst heq
      cases hfound
      refine ⟨hmedia, hsetup, numbers_lt hfields hsession, ?_⟩
      exact ⟨history, _, [], rfl, ⟨fields, ⟨body, effects, rfl, hfields⟩, hsession⟩,
        h.ready _ hsetup hmedia, by simp⟩
    · rename_i hne
      obtain ⟨hother, hmem, hlt, hstarted⟩ := h.sessions other found hfound
      refine ⟨hother, hmem, hlt, hstarted.concat ?_⟩
      exact leavesStream_message fun heq => absurd heq.symm hne
  codec := by
    intro old hold codec hselects
    rcases List.mem_append.mp hold with hmem | hnew
    · exact h.codec old hmem codec hselects
    · rw [List.mem_singleton.mp hnew] at hselects
      exact absurd hselects (hcodec codec)

theorem Tracks.stop (h : Tracks display offerHevc channels history)
    (hcodec : ∀ codec, ¬Selects codec (.message channel 0x8002 body, .ok effects)) :
    Tracks display offerHevc { channels with sessions := channels.sessions.erase channel }
      (history ++ [(.message channel 0x8002 body, .ok effects)]) where
  display_eq := h.display_eq
  offerHevc_eq := h.offerHevc_eq
  discovered := fun hdiscovered => (h.discovered hdiscovered).concat _
  opened := fun other hmem => (h.opened other hmem).concat _
  setup := h.setup
  ready := fun other hmem hother => (h.ready other hmem hother).concat _
  sessions := by
    intro other found hfound
    rw [Library.NatMap.getElem?_erase] at hfound
    split at hfound
    · exact nomatch hfound
    rename_i hne
    obtain ⟨hother, hmem, hlt, hstarted⟩ := h.sessions other found hfound
    refine ⟨hother, hmem, hlt, hstarted.concat ?_⟩
    exact leavesStream_message fun heq => absurd heq.symm hne
  codec := by
    intro old hold codec hselects
    rcases List.mem_append.mp hold with hmem | hnew
    · exact h.codec old hmem codec hselects
    · rw [List.mem_singleton.mp hnew] at hselects
      exact absurd hselects (hcodec codec)

/-- A setup that is accepted: the codec was advertised, and the channel is open. -/
theorem setUpIn_of_accepted (h : Tracks display offerHevc channels history) {codec : ℕ}
    (hopen : channel ∈ channels.opened) (hfields : numbers body = .ok fields)
    (hcodec : fields[(1 : ℕ)]? = some codec)
    (haccepted : (channel = 3 ∧ (codec = 3 ∨ offerHevc = true ∧ codec = 7)) ∨
      ((channel = 4 ∨ channel = 5 ∨ channel = 6) ∧ codec = 1)) :
    SetUpIn channel (history ++ [(.message channel 0x8000 body, .ok effects)]) :=
  ⟨discoveryCodecs display.1 offerHevc, codec, history, _, [], rfl,
    ⟨fields, ⟨body, effects, rfl, hfields⟩, hcodec⟩, advertised_of_accepted display haccepted,
    h.opened channel hopen⟩

/-- One more channel set up. -/
theorem Tracks.setUp (h : Tracks display offerHevc channels history)
    (hopen : channel ∈ channels.opened)
    (hready : isMedia channel = true → SetUpIn channel history) :
    Tracks display offerHevc { channels with setup := insert channel channels.setup } history :=
  { h with
    setup := by
      intro other hmem
      rcases Finset.mem_insert.mp hmem with rfl | hold
      · exact hopen
      · exact h.setup other hold
    ready := by
      intro other hmem hmedia
      rcases Finset.mem_insert.mp hmem with rfl | hold
      · exact hready hmedia
      · exact h.ready other hold hmedia
    sessions := by
      intro other found hfound
      obtain ⟨hmedia, hmem, hrest⟩ := h.sessions other found hfound
      exact ⟨hmedia, Finset.mem_insert_of_mem hmem, hrest⟩
    codec := by
      intro old hold codec hselects
      obtain ⟨hmem, heq⟩ := h.codec old hold codec hselects
      exact ⟨Finset.mem_insert_of_mem hmem, heq⟩ }

/-- The video is set up: its codec is the one of an earlier setup, if there was one. -/
theorem Tracks.setUpVideo (h : Tracks display offerHevc channels history) {codec : ℕ}
    (hopen : 3 ∈ channels.opened) (hfields : numbers body = .ok fields)
    (hcodec : fields[(1 : ℕ)]? = some codec)
    (haccepted : codec = 3 ∨ channels.offerHevc = true ∧ codec = 7)
    (hfixed : 3 ∈ channels.setup → channels.videoConfig = if codec = 7 then 1 else 0)
    (hplain : ∀ effect ∈ effects, effect.isPlain = true) :
    Tracks display offerHevc
      { channels with
        setup := insert 3 channels.setup
        videoConfig := if codec = 7 then 1 else 0 }
      (history ++ [(.message 3 0x8000 body,
        .ok (effects ++ [.videoCodec (if codec = 7 then .hevc else .h264)]))]) where
  display_eq := h.display_eq
  offerHevc_eq := h.offerHevc_eq
  discovered := fun hdiscovered => (h.discovered hdiscovered).concat _
  opened := fun other hmem => (h.opened other hmem).concat _
  setup := by
    intro other hmem
    rcases Finset.mem_insert.mp hmem with rfl | hold
    · exact hopen
    · exact h.setup other hold
  ready := by
    intro other hmem hmedia
    rcases Finset.mem_insert.mp hmem with rfl | hold
    · rw [h.offerHevc_eq] at haccepted
      exact setUpIn_of_accepted h hopen hfields hcodec (Or.inl ⟨rfl, haccepted⟩)
    · exact (h.ready other hold hmedia).concat _
  sessions := by
    intro other found hfound
    obtain ⟨hmedia, hmem, hlt, hstarted⟩ := h.sessions other found hfound
    refine ⟨hmedia, Finset.mem_insert_of_mem hmem, hlt, hstarted.concat ?_⟩
    exact leavesStream_message fun _ => by omega
  codec := by
    intro old hold selected hselects
    refine ⟨Finset.mem_insert_self _ _, ?_⟩
    have hindex : codecOf (if codec = 7 then 1 else 0) = if codec = 7 then .hevc else .h264 := by
      unfold codecOf
      by_cases h7 : codec = 7 <;> simp [h7]
    rcases List.mem_append.mp hold with hmem | hnew
    · obtain ⟨hsetup, heq⟩ := h.codec old hmem selected hselects
      rw [heq, hfixed hsetup]
    · rw [List.mem_singleton.mp hnew] at hselects
      obtain ⟨_, heffects, hselected⟩ := hselects
      cases heffects
      rcases List.mem_append.mp hselected with hfirst | hlast
      · exact nomatch hplain _ hfirst
      · rw [hindex]
        exact Effect.videoCodec.inj (List.mem_singleton.mp hlast)

/-! ## Every step -/

theorem Tracks.setVideoRequested (h : Tracks display offerHevc channels history)
    (requested : Bool) : Tracks display offerHevc (channels.setVideoRequested requested) history :=
  { h with }

theorem handleFocus_next (channels : Channels) (fields : Numbers) :
    ∃ requested, (channels.handleFocus fields).1 = channels.setVideoRequested requested := by
  unfold handleFocus
  dsimp only
  split
  · exact ⟨false, rfl⟩
  · exact ⟨channels.videoRequested, rfl⟩

/-- What an answer may contain, given the history before it. -/
def Lawful (history : List Entry) (output : Output) : Prop :=
  ∀ effects, output = .ok effects →
    (∀ channel data, .media channel data ∈ effects →
      ∃ session, StartedIn channel session history) ∧
    ∀ ack, .reply ack ∈ effects → ack.id = 0x8004 →
      ∃ session, StartedIn ack.channel session history ∧ Acknowledges ack session

theorem lawful_of {effects : List Effect} {history : List Entry}
    (h : ∀ effect ∈ effects, ofStream effect = false) : Lawful history (.ok effects) := by
  rintro _ heq
  cases heq
  refine ⟨?_, ?_⟩
  · intro channel data hmem
    exact nomatch h _ hmem
  · intro ack hmem hid
    have hother := h _ hmem
    simp [ofStream, hid] at hother

theorem acknowledges_mediaAck (channel : ℕ) (hsession : session < 2 ^ 64) {ack : Reply}
    (h : mediaAck channel session = .reply ack) :
    ack.channel = channel ∧ Acknowledges ack session := by
  cases h
  refine ⟨rfl, ?_⟩
  have heq : ((({} : Proto).number 1 session).number 2 1) =
      Proto.of [(1, .number session), (2, .number 1)] := by
    simp
  have hfits : ∀ field ∈ ([(1, .number session), (2, .number 1)] : Message), Fits field := by
    simpa [Fits, Payload.Fits] using hsession
  obtain ⟨fields, hfields, hlast⟩ := numbers_of (by simp) hfits
  refine ⟨fields, ?_, ?_⟩
  · rw [← hfields, ← heq]
    rfl
  · rw [hlast]
    simp [lastNumber]

/-- An accepted message keeps the invariant, and its effects are lawful. -/
theorem handled_tracks (h : Tracks display offerHevc channels history)
    (hhandled : Handled channels channel id body next effects) :
    Tracks display offerHevc next (history ++ [(.message channel id body, .ok effects)]) ∧
      Lawful history (.ok effects) := by
  cases hhandled with
  | media hid hmedia hsession =>
    rename_i session data
    obtain ⟨-, -, hlt, hstarted⟩ := h.sessions channel session hsession
    refine ⟨h.concat (leavesStream_of_beside fun _ => by omega) ?_, ?_⟩
    · rintro codec ⟨_, heq, hmem⟩
      cases heq
      simp [mediaAck, answer] at hmem
    · rintro _ heq
      cases heq
      refine ⟨?_, ?_⟩
      · intro other found hmem
        have hother : other = channel := by
          simp [mediaAck, answer] at hmem
          exact hmem.1
        exact ⟨session, hother ▸ hstarted⟩
      · intro ack hmem hid
        have hack : mediaAck channel session = .reply ack := by
          rcases List.mem_cons.mp hmem with hfirst | hrest
          · cases hfirst
          · exact (List.mem_singleton.mp hrest).symm
        obtain ⟨hchannel, hnames⟩ := acknowledges_mediaAck channel hlt hack
        exact ⟨session, hchannel ▸ hstarted, hnames⟩
  | @discovery warnings effects hchannel hid hplain =>
    subst hchannel hid
    have hall : ∀ effect ∈ channels.discoveryReply :: effects, effect.isPlain = true := by
      rw [List.forall_mem_cons]
      exact ⟨rfl, hplain⟩
    have hstream := ofStream_of_plain hall
    have hgrown : Tracks display offerHevc channels (history ++
        [(.message 0 5 body, .ok (channels.discoveryReply :: effects))]) := h.concat
      (leavesStream_of_beside fun _ => by omega) (not_selects_of hstream)
    refine ⟨{ hgrown with discovered := fun _ => ?_ }, lawful_of hstream⟩
    refine ⟨_, List.mem_append_right _ List.mem_cons_self, body, _, rfl, ?_⟩
    rw [← h.display_eq, ← h.offerHevc_eq]
    exact List.mem_cons_self
  | @opened fields target hid hfields htarget hdiscovered =>
    subst hid
    have hstream : ∀ effect ∈ [openReply channel], ofStream effect = false := by
      rw [List.forall_mem_singleton]
      rfl
    have hgrown : Tracks display offerHevc channels (history ++
        [(.message channel 7 body, .ok [openReply channel])]) := h.concat
      (leavesStream_of_beside fun _ => by omega) (not_selects_of hstream)
    have hopened : OpenedIn (discoveryCodecs display.1 offerHevc) target
        (history ++ [(.message channel 7 body, .ok [openReply channel])]) :=
      ⟨history, _, [], rfl, ⟨channel, body, _, fields, rfl, hfields, htarget, List.mem_cons_self⟩,
        h.discovered hdiscovered⟩
    refine ⟨{ hgrown with opened := ?_, setup := ?_ }, lawful_of hstream⟩
    · intro other hmem
      rcases Finset.mem_insert.mp hmem with rfl | hold
      · exact hopened
      · exact hgrown.opened other hold
    · intro other hmem
      exact Finset.mem_insert_of_mem (h.setup other hmem)
  | microphone hchannel hopen hplain =>
    subst hchannel
    have hstream := ofStream_of_plain hplain
    have hgrown : Tracks display offerHevc channels (history ++
        [(.message 9 id body, .ok effects)]) := h.concat
      (leavesStream_of_beside fun hmedia => by cases hmedia) (not_selects_of hstream)
    exact ⟨hgrown.setUp hopen (fun hmedia => by cases hmedia), lawful_of hstream⟩
  | setupVideo hchannel hid hopen hfields hcodec haccepted hfixed hplain =>
    subst hchannel hid
    refine ⟨h.setUpVideo hopen hfields hcodec haccepted hfixed hplain, ?_⟩
    rintro _ heq
    cases heq
    refine ⟨?_, ?_⟩
    · intro other data hmem
      rcases List.mem_append.mp hmem with hfirst | hlast
      · cases hplain _ hfirst
      · cases List.mem_singleton.mp hlast
    · intro ack hmem hack
      rcases List.mem_append.mp hmem with hfirst | hlast
      · have hother := ofStream_of_plain hplain _ hfirst
        simp [ofStream, hack] at hother
      · cases List.mem_singleton.mp hlast
  | setupAudio hchannel hid hopen hfields hcodec hplain =>
    subst hid
    have hstream := ofStream_of_plain hplain
    have hgrown : Tracks display offerHevc channels (history ++
        [(.message channel 0x8000 body, .ok effects)]) := h.concat
      (leavesStream_of_beside fun _ => by omega) (not_selects_of hstream)
    refine ⟨hgrown.setUp hopen fun _ => ?_, lawful_of hstream⟩
    exact setUpIn_of_accepted h hopen hfields hcodec (Or.inr ⟨hchannel, rfl⟩)
  | start hmedia hid hsetup hfields hsession =>
    subst hid
    have hstream : ∀ effect ∈ (if channel = 3 then
        [.established, .video channels.videoRequested, focusReply channels.videoRequested]
        else [Effect.audio channel true]), ofStream effect = false := by
      split <;> simp [ofStream, focusReply, answer, Reply.new]
    exact ⟨h.start hmedia hsetup hfields hsession (not_selects_of hstream), lawful_of hstream⟩
  | stop hmedia hid hfields =>
    subst hid
    have hstream : ∀ effect ∈ (channels.handleStop channel).2, ofStream effect = false := by
      unfold handleStop
      dsimp only
      split <;> simp [ofStream]
    exact ⟨h.stop (not_selects_of hstream), lawful_of hstream⟩
  | @focus fields hchannel hid hopen hfields =>
    subst hchannel hid
    have hstream : ∀ effect ∈ (channels.handleFocus fields).2, ofStream effect = false := by
      unfold handleFocus
      dsimp only
      split <;> simp [ofStream, focusReply, answer, Reply.new]
    have hgrown : Tracks display offerHevc channels (history ++
        [(.message 3 0x8007 body, .ok (channels.handleFocus fields).2)]) := h.concat
      (leavesStream_of_beside fun _ => by omega) (not_selects_of hstream)
    obtain ⟨requested, hnext⟩ := handleFocus_next channels fields
    rw [hnext]
    exact ⟨hgrown.setVideoRequested requested, lawful_of hstream⟩
  | other hbeside hplain =>
    have hstream := ofStream_of_plain hplain
    have hgrown : Tracks display offerHevc channels (history ++
        [(.message channel id body, .ok effects)]) := h.concat
      (leavesStream_of_beside fun hmedia => by have := hbeside hmedia; omega)
      (not_selects_of hstream)
    exact ⟨{ hgrown with }, lawful_of hstream⟩

/-- A call other than a message leaves the streams alone. -/
theorem leavesStream_host {input : Input} (h : ∀ channel id body, input ≠ .message channel id body)
    (channel : ℕ) (output : Output) : LeavesStream channel (input, output) := by
  constructor
  · rintro ⟨fields, body, effects, heq, -⟩
    exact h _ _ _ (Prod.mk.inj heq).1
  · rintro found ⟨fields, ⟨body, effects, heq, -⟩, -⟩
    exact h _ _ _ (Prod.mk.inj heq).1

/-- A failed call has no effects, and leaves the channels as they are. -/
theorem Tracks.failed (h : Tracks display offerHevc channels history) (input : Input)
    (text : String) :
    Tracks display offerHevc channels (history ++ [(input, .error text)]) ∧
      Lawful history (.error text) := by
  refine ⟨h.concat (fun other _ => leavesStream_error other input text) ?_, ?_⟩
  · rintro codec ⟨_, heq, -⟩
    exact nomatch heq
  · intro effects heq
    exact nomatch heq

/-- One call of the session, whatever it is. -/
theorem step_tracks (scaling : Scaling) (h : Tracks display offerHevc channels history)
    (input : Input) :
    Tracks display offerHevc (step scaling channels input).1
      (history ++ [(input, (step scaling channels input).2)]) ∧
      Lawful history (step scaling channels input).2 := by
  cases input with
  | message channel id body =>
    simp only [step]
    cases hhandle : channels.handle channel id body with
    | error text => exact h.failed _ text
    | ok result => exact handled_tracks h (handle_cases hhandle)
  | setVideoRequested requested =>
    have hstream : ∀ effect ∈ ([] : List Effect), ofStream effect = false := by simp
    have hgrown : Tracks display offerHevc channels
        (history ++ [(.setVideoRequested requested, .ok [])]) :=
      h.concat (fun _ _ => leavesStream_host (by simp) _ _) (not_selects_of hstream)
    exact ⟨hgrown.setVideoRequested requested, lawful_of hstream⟩
  | mediaKey code timestamp =>
    simp only [step, mediaKey]
    split
    · exact h.failed _ _
    split
    · exact h.failed _ _
    · have hstream : ∀ effect ∈ (([true, false].map (keyReport code timestamp)).map Effect.reply),
          ofStream effect = false := by
        apply ofStream_of_plain
        intro effect hmem
        simp only [List.map_cons, List.map_nil, List.mem_cons, List.not_mem_nil, or_false] at hmem
        rcases hmem with rfl | rfl <;> exact isPlain_keyReport _ _ _
      exact ⟨h.concat (fun _ _ => leavesStream_host (by simp) _ _)
        (not_selects_of hstream), lawful_of hstream⟩
  | touch pointer phase x y timestamp =>
    simp only [step]
    cases htouch : channels.touch scaling pointer phase x y timestamp with
    | error text => exact h.failed _ text
    | ok result =>
      obtain ⟨next, reply⟩ := result
      obtain ⟨⟨pointers, large, rfl⟩, hreply⟩ := touch_spec scaling htouch
      have hstream : ∀ effect ∈ reply.toList.map Effect.reply, ofStream effect = false := by
        intro effect hmem
        obtain ⟨sent, hsent, rfl⟩ := List.mem_map.mp hmem
        simp [ofStream, (hreply sent (Option.mem_toList.mp hsent)).2]
      have hgrown : Tracks display offerHevc channels
          (history ++ [(.touch pointer phase x y timestamp, .ok (reply.toList.map .reply))]) :=
        h.concat (fun _ _ => leavesStream_host (by simp) _ _) (not_selects_of hstream)
      exact ⟨{ hgrown with }, lawful_of hstream⟩

/-- Media passes only on a channel that was opened after discovery, set up with an
advertised codec and started since; every acknowledgement names the start in force;
a channel with a media session is set up, and one that is set up is open; and all
setups of the video in a session select one codec. -/
theorem media_contract (scaling : Scaling) (display : Display) (offerHevc : Bool)
    (inputs : List Input) :
    let reached := run (step scaling) (withHevc display offerHevc) inputs
    Always (fun history _ output => Lawful history output) reached.2 ∧
      (∀ channel ∈ reached.1.sessions, channel ∈ reached.1.setup) ∧
      reached.1.setup ⊆ reached.1.opened ∧
      ∃ codec, ∀ entry ∈ reached.2, ∀ selected, Selects selected entry → selected = codec := by
  intro reached
  have hreached : Tracks display offerHevc reached.1 reached.2 ∧
      Always (fun history _ output => Lawful history output) reached.2 := by
    apply run_history (step scaling) (I := fun channels history =>
      Tracks display offerHevc channels history ∧
        Always (fun history _ output => Lawful history output) history)
    · exact ⟨withHevc_tracks display offerHevc, always_nil _⟩
    · rintro channels history input ⟨htracks, halways⟩
      obtain ⟨hnext, hlawful⟩ := step_tracks scaling htracks input
      exact ⟨hnext, always_concat.mpr ⟨halways, hlawful⟩⟩
  obtain ⟨htracks, halways⟩ := hreached
  refine ⟨halways, ?_, htracks.setup, codecOf reached.1.videoConfig, ?_⟩
  · intro channel hmem
    have hsession := Std.ExtTreeMap.getElem?_eq_some_getElem hmem
    exact (htracks.sessions channel _ hsession).2.1
  · intro entry hmem selected hselects
    exact (htracks.codec entry hmem selected hselects).2

end ProjectArgo.Projection.Channels
