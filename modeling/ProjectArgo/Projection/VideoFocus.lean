import ProjectArgo.Library.Run
import ProjectArgo.Projection.ChannelSteps
import ProjectArgo.Projection.Session

/-!
# Who owns the screen

The channels know whether the host wants the phone's video, the session knows
whether it still waits for a picture, and the published snapshot tells the host
whether to show the stream. Requests of the phone and commands of the host reach
them in any order. The three agree after every turn, and once the phone or the
host has withdrawn the video, nothing shows it before the host activates it again.
-/
namespace ProjectArgo.Projection

open Library.Protobuf Library.Run

/-! ## What shows the video -/

/-- The reply tells the phone that its video is shown. -/
def Reply.Focuses (reply : Reply) : Prop :=
  reply.channel = 3 ∧ reply.id = 0x8008 ∧
    ∃ fields, numbers reply.body = .ok fields ∧ fields[(1 : ℕ)]? = some 1

def Effect.Shows : Effect → Prop
  | .video visible => visible = true
  | .reply sent => sent.Focuses
  | _ => False

def Act.Shows : Act → Prop
  | .sent reply => reply.Focuses
  | .published snapshot => snapshot.visible = true
  | .hostReturned => False

/-- Nothing shows the video, and nothing promises it to the phone. -/
def TurnOutcome.Quiet (outcome : TurnOutcome) : Prop :=
  (∀ effect ∈ outcome.effects, ¬effect.Shows) ∧ ∀ act ∈ outcome.acts, ¬act.Shows

/-- The phone asks for no focus: the native UI shall own the screen. -/
def Unfocuses (channel id : ℕ) (body : List UInt8) : Prop :=
  channel = 3 ∧ id = 0x8007 ∧ ∃ fields, numbers body = .ok fields ∧ fields[(2 : ℕ)]? = some 2

def Turn.Unfocuses : Turn → Prop
  | .message channel id body _ => Projection.Unfocuses channel id body
  | _ => False

/-- The host takes the screen from the session. -/
def Turn.Hides (session : String) : Turn → Prop
  | .command (.visibility target visible) _ => target = session ++ ":main" ∧ visible = false
  | _ => False

/-- The host gives the screen to the session. -/
def Turn.Activates (session : String) : Turn → Prop
  | .command (.activate target) _ => target = session
  | .command (.visibility target visible) _ => target = session ++ ":main" ∧ visible = true
  | _ => False

/-- After the phone's request or the host's, and before the next activation. -/
def Withheld (session : String) (turns : List Turn) : Prop :=
  ∃ before turn after, turns = before ++ turn :: after ∧
    (turn.Unfocuses ∨ turn.Hides session) ∧ ∀ later ∈ after, ¬later.Activates session

theorem withheld_concat {session : String} {turns : List Turn} {turn : Turn}
    (h : Withheld session (turns ++ [turn])) :
    (turn.Unfocuses ∨ turn.Hides session) ∨ Withheld session turns ∧ ¬turn.Activates session := by
  obtain ⟨before, withdrawal, after, heq, hwithdrawal, hafter⟩ := h
  rcases List.eq_nil_or_concat after with rfl | ⟨rest, last, rfl⟩
  · obtain ⟨-, hturn⟩ := List.append_inj' heq rfl
    cases hturn
    exact Or.inl hwithdrawal
  · rw [List.concat_eq_append, ← List.cons_append, ← List.append_assoc] at heq
    obtain ⟨hturns, hturn⟩ := List.append_inj' heq rfl
    cases hturn
    refine Or.inr ⟨⟨before, withdrawal, rest, hturns, hwithdrawal, ?_⟩, ?_⟩
    · intro later hlater
      exact hafter later (by simp [hlater])
    · exact hafter _ (by simp)

/-! ## The channels -/

theorem Effect.not_shows_of_isPlain {effect : Effect} (h : effect.isPlain = true) :
    ¬effect.Shows := by
  cases effect with
  | reply sent =>
    rintro ⟨-, hid, -⟩
    simp [Effect.isPlain, hid] at h
  | video visible => cases h
  | _ => exact id

theorem Effect.ne_hostReturn_of_isPlain {effect : Effect} (h : effect.isPlain = true) :
    effect ≠ .hostReturn := by
  rintro rfl
  exact nomatch h

/-- A focus reply has one meaning only. -/
theorem numbers_focus (state reason : ℕ) (hstate : state < 2 ^ 64) (hreason : reason < 2 ^ 64) :
    ∃ fields, numbers ((({} : Proto).number 1 state).number 2 reason).finish = .ok fields ∧
      fields[(1 : ℕ)]? = some state := by
  simp only [Proto.default_eq, Proto.number_of, List.nil_append, List.cons_append]
  have hfits : ∀ field ∈ [(1, Payload.number state), (2, .number reason)], Fits field := by
    simpa [Fits, Payload.Fits] using ⟨hstate, hreason⟩
  obtain ⟨fields, hfields, hlast⟩ := numbers_of (by simp) hfits
  refine ⟨fields, hfields, ?_⟩
  rw [hlast]
  rfl

theorem focuses_new {state reason : ℕ} (hstate : state < 2 ^ 64) (hreason : reason < 2 ^ 64) :
    (Reply.new 3 0x8008 ((({} : Proto).number 1 state).number 2 reason).finish).Focuses ↔
      state = 1 := by
  obtain ⟨fields, hfields, hvalue⟩ := numbers_focus state reason hstate hreason
  constructor
  · rintro ⟨-, -, found, hfound, hone⟩
    cases hfields.symm.trans hfound
    rw [hvalue] at hone
    exact Option.some.inj hone
  · rintro rfl
    exact ⟨rfl, rfl, fields, hfields, hvalue⟩

theorem shows_focusReply {focused : Bool} :
    (Channels.focusReply focused).Shows ↔ focused = true := by
  cases focused with
  | true => exact ⟨fun _ => rfl, fun _ => (focuses_new (by decide) (by decide)).mpr rfl⟩
  | false =>
    refine ⟨fun hshows => ?_, fun h => nomatch h⟩
    exact absurd ((focuses_new (by decide) (by decide)).mp hshows) (by decide)

namespace Channels

variable {channels next : Channels} {channel id : ℕ} {body : List UInt8} {effects : List Effect}

/-- The phone's request takes the focus; every other message leaves it as it is. -/
theorem Handled.focus_cases (h : Handled channels channel id body next effects) :
    Unfocuses channel id body ∧ next.videoRequested = false ∧
        effects = [focusReply false, .video false, .hostReturn] ∨
      ¬Unfocuses channel id body ∧ next.videoRequested = channels.videoRequested ∧
        ∀ effect ∈ effects, effect ≠ .hostReturn ∧
          (effect.Shows → channels.videoRequested = true) := by
  have hother : ¬(channel = 3 ∧ id = 0x8007) → ¬Unfocuses channel id body :=
    fun hne hunfocus => hne ⟨hunfocus.1, hunfocus.2.1⟩
  have hplain {effect : Effect} (h : effect.isPlain = true) :
      effect ≠ .hostReturn ∧ (effect.Shows → channels.videoRequested = true) :=
    ⟨Effect.ne_hostReturn_of_isPlain h, fun hshows => absurd hshows (Effect.not_shows_of_isPlain h)⟩
  cases h with
  | media hid hmedia hsession =>
    refine Or.inr ⟨hother (by omega), rfl, ?_⟩
    intro effect hmem
    simp only [List.mem_cons, List.not_mem_nil, or_false] at hmem
    rcases hmem with rfl | rfl
    · exact ⟨by rintro ⟨⟩, fun hshows => by cases hshows⟩
    · refine ⟨by rintro ⟨⟩, ?_⟩
      rintro ⟨-, hid, -⟩
      exact absurd hid (by simp [Reply.new])
  | discovery hchannel hid heffects =>
    refine Or.inr ⟨hother (by omega), rfl, ?_⟩
    intro effect hmem
    rcases List.mem_cons.mp hmem with rfl | hmem
    · exact hplain rfl
    · exact hplain (heffects effect hmem)
  | opened hid hfields htarget hdiscovered =>
    refine Or.inr ⟨hother (by omega), rfl, ?_⟩
    intro effect hmem
    rw [List.mem_singleton.mp hmem]
    exact hplain rfl
  | microphone hchannel hopen heffects =>
    exact Or.inr ⟨hother (by omega), rfl, fun effect hmem => hplain (heffects effect hmem)⟩
  | setupVideo hchannel hid hopen hfields hcodec haccepted hfixed heffects =>
    refine Or.inr ⟨hother (by omega), rfl, ?_⟩
    intro effect hmem
    rcases List.mem_append.mp hmem with hmem | hmem
    · exact hplain (heffects effect hmem)
    · rw [List.mem_singleton.mp hmem]
      exact ⟨by rintro ⟨⟩, fun hshows => by cases hshows⟩
  | setupAudio hchannel hid hopen hfields hcodec heffects =>
    exact Or.inr ⟨hother (by omega), rfl, fun effect hmem => hplain (heffects effect hmem)⟩
  | start hmedia hid hsetup hfields hsession =>
    refine Or.inr ⟨hother (by omega), rfl, ?_⟩
    intro effect hmem
    split at hmem
    · simp only [List.mem_cons, List.not_mem_nil, or_false] at hmem
      rcases hmem with rfl | rfl | rfl
      · exact hplain rfl
      · exact ⟨by rintro ⟨⟩, fun hshows => hshows⟩
      · exact ⟨by rintro ⟨⟩, shows_focusReply.mp⟩
    · rw [List.mem_singleton.mp hmem]
      exact hplain rfl
  | stop hmedia hid hfields =>
    refine Or.inr ⟨hother (by omega), rfl, ?_⟩
    intro effect hmem
    unfold handleStop at hmem
    dsimp only at hmem
    split at hmem
    · rw [List.mem_singleton.mp hmem]
      exact ⟨by rintro ⟨⟩, fun hshows => by cases hshows⟩
    · rw [List.mem_singleton.mp hmem]
      exact hplain rfl
  | @focus fields hchannel hid hopen hfields =>
    by_cases hmode : fields[(2 : ℕ)]? = some 2
    · refine Or.inl ⟨⟨hchannel, hid, fields, hfields, hmode⟩, ?_, ?_⟩
      · simp [handleFocus, hmode, setVideoRequested]
      · simp [handleFocus, hmode]
    · refine Or.inr ⟨?_, ?_, ?_⟩
      · rintro ⟨-, -, found, hfound, htwo⟩
        cases hfields.symm.trans hfound
        exact hmode htwo
      · simp [handleFocus, hmode]
      · intro effect hmem
        simp only [handleFocus, hmode, if_false, List.append_nil, List.mem_cons,
          List.not_mem_nil, or_false] at hmem
        rcases hmem with rfl | rfl
        · refine ⟨by rintro ⟨⟩, fun hshows => ?_⟩
          exact (Bool.and_eq_true_iff.mp (shows_focusReply.mp hshows)).2
        · refine ⟨by rintro ⟨⟩, fun hshows => ?_⟩
          have hand : (fields[(2 : ℕ)]? == some 1 && channels.videoRequested) = true := hshows
          exact (Bool.and_eq_true_iff.mp hand).2
  | other hbeside heffects =>
    refine Or.inr ⟨hother ?_, rfl, fun effect hmem => hplain (heffects effect hmem)⟩
    rintro ⟨rfl, rfl⟩
    exact hbeside rfl (Or.inr (Or.inr (Or.inr ⟨rfl, rfl⟩)))

end Channels

/-! ## The session -/

namespace Session

/-- The session's own snapshot is published, and it and the wait for a picture
agree with the channels. -/
structure Consistent (session : Session) : Prop where
  own : session.snapshot.IsOf session.id
  visible : session.snapshot.visible = true → session.channels.videoRequested = true
  awaiting : session.awaitingVideo = true → session.channels.videoRequested = true

/-- What effects other than those of an unfocus request leave of a session. -/
structure Performed (session : Session) (effects : List Effect) (next : Session)
    (acts : List Act) : Prop where
  id : next.id = session.id
  channels : next.channels = session.channels
  consistent : next.Consistent
  shown : ∀ act ∈ acts, act.Shows → session.channels.videoRequested = true
  unreturned : .hostReturn ∉ effects → .hostReturned ∉ acts ∧
    next.snapshot.hostReturnRevision = session.snapshot.hostReturnRevision

variable {session next : Session} {effects : List Effect} {acts : List Act}

theorem isOf_map {snapshot : RuntimeSnapshot} {id : String} (h : snapshot.IsOf id)
    (state : ProjectionSessionStatus) :
    (snapshot.session.map fun status => { status with state := state }).any (·.id = id) = true := by
  unfold RuntimeSnapshot.IsOf at h
  cases hsession : snapshot.session with
  | none => rw [hsession] at h; exact nomatch h
  | some status =>
    rw [hsession] at h
    exact h

theorem Consistent.stop (h : session.Consistent) : session.stop.Consistent :=
  ⟨h.own, h.visible, h.awaiting⟩

/-- A session that only loses or keeps its run. -/
theorem performed_silent (h : session.Consistent) (effects : List Effect) (stays : Bool) :
    Performed session effects (if stays then session else session.stop) [] := by
  cases stays with
  | true => exact ⟨rfl, rfl, h, by simp, fun _ => ⟨by simp, rfl⟩⟩
  | false => exact ⟨rfl, rfl, h.stop, by simp, fun _ => ⟨by simp, rfl⟩⟩

theorem performed_publish {snapshot : RuntimeSnapshot} (h : session.Consistent)
    (hown : snapshot.IsOf session.id)
    (hvisible : snapshot.visible = true → session.channels.videoRequested = true)
    (hrevision : snapshot.hostReturnRevision = session.snapshot.hostReturnRevision)
    (effects : List Effect) :
    Performed session effects (session.publish snapshot).1 (session.publish snapshot).2 := by
  refine ⟨rfl, rfl, ⟨hown, hvisible, h.awaiting⟩, ?_, fun _ => ⟨by simp [publish], hrevision⟩⟩
  intro act hact hshows
  rw [publish, List.mem_singleton] at hact
  subst hact
  exact hvisible hshows

theorem setVisibility_performed (h : session.Consistent) {visible : Bool}
    (hvisible : visible = true → session.channels.videoRequested = true) (effects : List Effect) :
    Performed session effects (session.setVisibility visible).1 (session.setVisibility visible).2 := by
  unfold setVisibility
  rw [if_pos h.own]
  split
  · refine performed_publish h ?_ ?_ ?_ effects
    · exact isOf_map h.own _
    · exact hvisible
    · rfl
  · exact performed_publish h h.own h.visible rfl effects

theorem perform_performed (h : session.Consistent) (ok : Bool) {effect : Effect}
    (heffect : effect.Shows → session.channels.videoRequested = true) :
    Performed session [effect] (session.perform ok effect).1 (session.perform ok effect).2 := by
  cases effect with
  | videoCodec codec =>
    cases ok with
    | true =>
      rw [perform, if_pos rfl]
      refine performed_publish h ?_ ?_ ?_ _
      · exact h.own
      · exact h.visible
      · rfl
    | false => exact performed_silent h _ false
  | microphone active limit => exact performed_silent h _ ok
  | microphoneStop => exact performed_silent h _ ok
  | microphoneAck other count => exact performed_silent h _ true
  | reply reply =>
    cases ok with
    | true =>
      refine ⟨rfl, rfl, h, ?_, fun _ => ⟨by simp [perform], rfl⟩⟩
      intro act hact hshows
      rw [perform, if_pos rfl, List.mem_singleton] at hact
      subst hact
      exact heffect hshows
    | false => exact performed_silent h _ false
  | sessionEnd => exact performed_silent h _ false
  | metadata update => exact performed_publish h h.own h.visible rfl _
  | media channel data =>
    cases ok with
    | false => exact performed_silent h _ false
    | true =>
      simp only [perform, Bool.not_true, Bool.false_eq_true, if_false]
      split
      · rename_i hawaiting
        have hconsistent : Consistent { session with awaitingVideo := false } :=
          ⟨h.own, h.visible, fun h => nomatch h⟩
        have hset := setVisibility_performed hconsistent (fun _ : true = true =>
          h.awaiting hawaiting.2) [.media channel data]
        exact ⟨hset.id, hset.channels, hset.consistent, hset.shown, hset.unreturned⟩
      · exact performed_silent h _ true
  | hostReturn =>
    simp only [perform, returnToHost]
    rw [if_pos h.own]
    refine ⟨rfl, rfl, ⟨h.own, h.visible, fun h => nomatch h⟩, ?_, fun hne => ?_⟩
    · intro act hact hshows
      simp only [publish, List.singleton_append, List.mem_cons, List.not_mem_nil, or_false] at hact
      rcases hact with rfl | rfl
      · exact h.visible hshows
      · exact nomatch hshows
    · exact absurd (List.mem_singleton_self _) hne
  | audio channel active =>
    simp only [perform]
    split
    · exact performed_silent h _ false
    rw [if_pos h.own]
    refine performed_publish h ?_ ?_ ?_ _
    · exact h.own
    · exact h.visible
    · rfl
  | established => exact ⟨rfl, rfl, ⟨h.own, h.visible, h.awaiting⟩, by simp [perform],
      fun _ => ⟨by simp [perform], rfl⟩⟩
  | video requested =>
    simp only [perform, showVideo]
    rw [if_pos h.own]
    have hvisible (h : (requested && !session.awaitingVideo) = true) :
        session.channels.videoRequested = true := heffect (Bool.and_eq_true_iff.mp h).1
    refine ⟨rfl, rfl, ⟨isOf_map h.own _, hvisible, h.awaiting⟩, ?_, fun _ => ⟨?_, rfl⟩⟩
    · intro act hact hshows
      rw [publish, List.mem_singleton] at hact
      subst hact
      exact hvisible hshows
    · simp [publish]

theorem performed_nil (h : session.Consistent) (effects : List Effect) :
    Performed session effects session [] := performed_silent h effects true

theorem Performed.append {rest : List Effect} {last : Session} {more : List Act}
    (h : Performed session effects next acts) (hrest : Performed next rest last more) :
    Performed session (effects ++ rest) last (acts ++ more) := by
  refine ⟨hrest.id.trans h.id, hrest.channels.trans h.channels, hrest.consistent, ?_, ?_⟩
  · intro act hact hshows
    rcases List.mem_append.mp hact with hact | hact
    · exact h.shown act hact hshows
    · rw [← h.channels]
      exact hrest.shown act hact hshows
  · intro hne
    rw [List.mem_append, not_or] at hne
    obtain ⟨hacts, hrevision⟩ := h.unreturned hne.1
    obtain ⟨hmore, hlast⟩ := hrest.unreturned hne.2
    exact ⟨by simp [hacts, hmore], hlast.trans hrevision⟩

/-- Effects that the channels allow leave the session consistent. -/
theorem performAll_performed {fated : List (Effect × Bool)} (h : session.Consistent)
    (hallowed : ∀ entry ∈ fated, entry.1.Shows → session.channels.videoRequested = true) :
    Performed session (fated.map (·.1)) (session.performAll fated).1
      (session.performAll fated).2 := by
  induction fated generalizing session with
  | nil => exact performed_nil h _
  | cons entry rest ih =>
    obtain ⟨effect, ok⟩ := entry
    have hfirst := perform_performed h ok (hallowed (effect, ok) (by simp))
    unfold performAll
    dsimp only
    split
    · have hrest := ih hfirst.consistent fun entry hentry hshows => by
        rw [hfirst.channels]
        exact hallowed entry (by simp [hentry]) hshows
      exact hfirst.append hrest
    · have hrest := performed_nil hfirst.consistent (rest.map (·.1))
      have hboth := hfirst.append hrest
      rw [List.append_nil] at hboth
      exact hboth

theorem map_fst_fated (effects : List Effect) (calls : ℕ → Bool) :
    (fated effects calls).map (·.1) = effects := by
  unfold fated
  rw [List.map_map]
  exact List.zipIdx_map_fst 0 effects

theorem performAll_fated (h : session.Consistent) (calls : ℕ → Bool)
    (hallowed : ∀ effect ∈ effects, effect.Shows → session.channels.videoRequested = true) :
    Performed session effects (session.performAll (fated effects calls)).1
      (session.performAll (fated effects calls)).2 := by
  have hfated : ∀ entry ∈ fated effects calls,
      entry.1.Shows → session.channels.videoRequested = true := by
    intro entry hentry
    apply hallowed
    rw [← map_fst_fated effects calls]
    exact List.mem_map_of_mem hentry
  have hperformed := performAll_performed h hfated
  rwa [map_fst_fated] at hperformed

/-- Hiding the stream needs no agreement about it before. -/
theorem hide_performed (hown : session.snapshot.IsOf session.id)
    (hawaiting : session.awaitingVideo = true → session.channels.videoRequested = true)
    (effects : List Effect) :
    Performed session effects (session.setVisibility false).1 (session.setVisibility false).2 := by
  have hpublish {snapshot : RuntimeSnapshot} (hsnapshot : snapshot.IsOf session.id)
      (hhidden : snapshot.visible = false)
      (hrevision : snapshot.hostReturnRevision = session.snapshot.hostReturnRevision) :
      Performed session effects (session.publish snapshot).1 (session.publish snapshot).2 := by
    have hvisible (h : snapshot.visible = true) : session.channels.videoRequested = true := by
      rw [hhidden] at h
      exact nomatch h
    refine ⟨rfl, rfl, ⟨hsnapshot, hvisible, hawaiting⟩, ?_, fun _ => ⟨by simp [publish], hrevision⟩⟩
    intro act hact hshows
    rw [publish, List.mem_singleton] at hact
    subst hact
    exact hvisible hshows
  unfold setVisibility
  rw [if_pos hown]
  split
  · apply hpublish
    · exact isOf_map hown _
    · rfl
    · rfl
  · rename_i hvideo
    apply hpublish hown
    · simp [RuntimeSnapshot.visible, hvideo]
    · rfl

theorem Performed.stop (h : Performed session effects next acts) :
    Performed session effects next.stop acts :=
  ⟨h.id, h.channels, h.consistent.stop, h.shown, h.unreturned⟩

theorem showVideo_false (hown : session.snapshot.IsOf session.id) :
    ∃ next, session.showVideo false = (next, [.published next.snapshot]) ∧
      next.id = session.id ∧ next.channels = session.channels ∧ next.running = session.running ∧
      next.snapshot.IsOf session.id ∧ next.snapshot.visible = false ∧
      next.snapshot.hostReturnRevision = session.snapshot.hostReturnRevision := by
  simp only [showVideo]
  rw [if_pos hown]
  exact ⟨_, rfl, rfl, rfl, rfl, isOf_map hown _, rfl, rfl⟩

theorem returnToHost_spec (hown : session.snapshot.IsOf session.id) :
    ∃ next, session.returnToHost = (next, [.published next.snapshot, .hostReturned]) ∧
      next.id = session.id ∧ next.channels = session.channels ∧ next.running = session.running ∧
      next.awaitingVideo = false ∧ next.snapshot.IsOf session.id ∧
      next.snapshot.visible = session.snapshot.visible ∧
      next.snapshot.hostReturnRevision = nextRevision session.snapshot.hostReturnRevision := by
  simp only [returnToHost]
  rw [if_pos hown]
  exact ⟨_, rfl, rfl, rfl, rfl, rfl, hown, rfl, rfl⟩

/-- The effects of an unfocus request hide the stream and return to the host,
unless the reply to the phone cannot be sent. -/
theorem performAll_unfocus (hrunning : session.running = true)
    (hown : session.snapshot.IsOf session.id) (calls : ℕ → Bool) :
    ∃ next acts,
      session.performAll
        (fated [Channels.focusReply false, .video false, .hostReturn] calls) = (next, acts) ∧
      next.id = session.id ∧ next.channels = session.channels ∧ (∀ act ∈ acts, ¬act.Shows) ∧
      (next.running = false ∧ .hostReturned ∉ acts ∧
          next.snapshot.hostReturnRevision = session.snapshot.hostReturnRevision ∨
        next.running = true ∧ next.Consistent ∧ .hostReturned ∈ acts ∧
          next.snapshot.hostReturnRevision =
            nextRevision session.snapshot.hostReturnRevision) := by
  have hfated : fated [Channels.focusReply false, .video false, .hostReturn] calls =
      [(Channels.focusReply false, calls 0), (.video false, calls 1), (.hostReturn, calls 2)] := rfl
  rw [hfated]
  cases calls 0 with
  | false => exact ⟨session.stop, [], rfl, rfl, rfl, by simp, Or.inl ⟨rfl, by simp, rfl⟩⟩
  | true =>
    obtain ⟨hidden, hvideo, hid, hchannels, hrun, hown, hinvisible, hrevision⟩ := showVideo_false hown
    rw [← hid] at hown
    obtain ⟨last, hreturn, hlastId, hlastChannels, hlastRun, hawaiting, hlastOwn, hvisible,
      hlastRevision⟩ := returnToHost_spec hown
    rw [hinvisible] at hvisible
    rw [hrunning] at hrun
    rw [hrun] at hlastRun
    have hperform (ok : Bool) : session.perform ok (.video false) = session.showVideo false := rfl
    have hperformReturn (ok : Bool) : hidden.perform ok .hostReturn = hidden.returnToHost := rfl
    have hreply : session.perform true (Channels.focusReply false) =
        (session, [.sent (Reply.new 3 0x8008 ((({} : Proto).number 1 2).number 2 0).finish)]) := rfl
    refine ⟨last, [.sent (Reply.new 3 0x8008 ((({} : Proto).number 1 2).number 2 0).finish),
      .published hidden.snapshot, .published last.snapshot, .hostReturned], ?_,
      hlastId.trans hid, hlastChannels.trans hchannels, ?_, ?_⟩
    · simp only [performAll, hreply, hrunning, hperform, hvideo, hrun, hperformReturn, hreturn,
        hlastRun, if_true]
      rfl
    · intro act hact
      simp only [List.mem_cons, List.not_mem_nil, or_false] at hact
      rcases hact with rfl | rfl | rfl | rfl
      · exact fun hshows => absurd ((focuses_new (by decide) (by decide)).mp hshows) (by decide)
      · exact fun hshows => nomatch hinvisible.symm.trans hshows
      · exact fun hshows => nomatch hvisible.symm.trans hshows
      · exact fun hshows => hshows
    · refine Or.inr ⟨hlastRun, ⟨?_, ?_, ?_⟩, by simp, hlastRevision.trans (by rw [hrevision])⟩
      · rwa [hlastId]
      · exact fun hshows => nomatch hvisible.symm.trans hshows
      · exact fun hwaits => nomatch hawaiting.symm.trans hwaits

/-! ## One turn -/

/-- What one turn of a running session does to the video focus. -/
structure Turned (session : Session) (turn : Turn) (next : Session) (outcome : TurnOutcome) :
    Prop where
  id : next.id = session.id
  consistent : next.running = true → next.Consistent
  quiet : next.channels.videoRequested = false → outcome.Quiet
  requested : next.channels.videoRequested = true →
    session.channels.videoRequested = true ∨ turn.Activates session.id
  withdrawn : turn.Unfocuses ∨ turn.Hides session.id →
    next.channels.videoRequested = false ∨ next.running = false ∧ outcome.Quiet
  returned : .hostReturned ∈ outcome.acts ↔ turn.Unfocuses ∧ next.running = true
  counted : turn.Unfocuses ∧ next.running = true →
    next.snapshot.hostReturnRevision = nextRevision session.snapshot.hostReturnRevision
  uncounted : ¬(turn.Unfocuses ∧ next.running = true) →
    next.snapshot.hostReturnRevision = session.snapshot.hostReturnRevision

theorem quiet_empty : TurnOutcome.Quiet {} := ⟨by simp, by simp⟩

variable {turn : Turn}

/-- A turn that changes neither channels nor snapshot. -/
theorem turned_silent (h : session.Consistent) (hturn : ¬turn.Unfocuses)
    (hhides : ¬turn.Hides session.id) : Turned session turn session {} := by
  refine ⟨rfl, fun _ => h, fun _ => quiet_empty, Or.inl, ?_, by simp [hturn],
    fun hboth => absurd hboth.1 hturn, fun _ => rfl⟩
  rintro (hunfocus | hhide)
  · exact absurd hunfocus hturn
  · exact absurd hhide hhides

/-- A turn that ends the session before anything else happens. -/
theorem turned_stop (session : Session) (turn : Turn) : Turned session turn session.stop {} := by
  refine ⟨rfl, ?_, fun _ => quiet_empty, Or.inl, fun _ => Or.inr ⟨rfl, quiet_empty⟩,
    by simp [stop], ?_, fun _ => rfl⟩
  · exact fun h => nomatch h
  · exact fun hboth => nomatch hboth.2

/-- The effects of a turn are carried out for a session `base`, which differs from
the session before the turn in its channels. -/
theorem turned_performed {base : Session} {shown : List Effect}
    (h : Performed base effects next acts) (hid : base.id = session.id)
    (hrevision : base.snapshot.hostReturnRevision = session.snapshot.hostReturnRevision)
    (hreturn : .hostReturn ∉ effects)
    (hshown : ∀ effect ∈ shown, effect.Shows → base.channels.videoRequested = true)
    (hrequested : base.channels.videoRequested = true →
      session.channels.videoRequested = true ∨ turn.Activates session.id)
    (hturn : ¬turn.Unfocuses)
    (hhides : turn.Hides session.id → base.channels.videoRequested = false) :
    Turned session turn next ⟨shown, acts⟩ := by
  obtain ⟨hacts, hkept⟩ := h.unreturned hreturn
  refine ⟨h.id.trans hid, fun _ => h.consistent, ?_, ?_, ?_, ?_,
    fun hboth => absurd hboth.1 hturn, fun _ => hkept.trans hrevision⟩
  · intro hwithheld
    rw [h.channels] at hwithheld
    constructor
    · intro effect heffect hshows
      exact nomatch hwithheld.symm.trans (hshown effect heffect hshows)
    · intro act hact hshows
      exact nomatch hwithheld.symm.trans (h.shown act hact hshows)
  · rw [h.channels]
    exact hrequested
  · rintro (hunfocus | hhide)
    · exact absurd hunfocus hturn
    · rw [h.channels]
      exact Or.inl (hhides hhide)
  · exact ⟨fun hmem => absurd hmem hacts, fun hboth => absurd hboth.1 hturn⟩

theorem not_unfocuses_of_channel {channel id : ℕ} {body : List UInt8} (h : channel ≠ 3) :
    ¬Unfocuses channel id body := fun hunfocus => h hunfocus.1

/-- A message of the phone. -/
theorem receive_turned (h : session.Consistent) (hrunning : session.running = true)
    (channel id : ℕ) (body : List UInt8) (calls : ℕ → Bool) :
    Turned session (.message channel id body calls) (session.receive channel id body calls).1
      (session.receive channel id body calls).2 := by
  unfold receive
  split
  · rename_i hping
    have hturn : ¬Unfocuses channel id body := not_unfocuses_of_channel (by omega)
    exact turned_silent h hturn fun hhides => hhides
  split
  · exact turned_stop session _
  rename_i channels effects hhandle
  rcases (Channels.handle_cases hhandle).focus_cases with
    ⟨hunfocus, hwithheld, rfl⟩ | ⟨hother, hsame, heffects⟩
  · obtain ⟨next, acts, hperform, hid, hchannels, hquiet, hnext⟩ :=
      performAll_unfocus (show ({ session with channels := channels } : Session).running = true from
        hrunning) h.own calls
    have hchannel : ¬(channel = 0 ∧ id = 5 ∧
        calls [Channels.focusReply false, Effect.video false, .hostReturn].length = false) := by
      have := hunfocus.1
      omega
    rw [hperform]
    dsimp only
    rw [if_neg hchannel]
    have hfalse : next.channels.videoRequested = false := by rw [hchannels]; exact hwithheld
    have hoff : TurnOutcome.Quiet
        ⟨[Channels.focusReply false, Effect.video false, .hostReturn], acts⟩ := by
      refine ⟨?_, hquiet⟩
      intro effect hmem
      simp only [List.mem_cons, List.not_mem_nil, or_false] at hmem
      rcases hmem with rfl | rfl | rfl
      · exact fun hshows => nomatch shows_focusReply.mp hshows
      · exact fun hshows => nomatch hshows
      · exact fun hshows => hshows
    have hturn : Turn.Unfocuses (.message channel id body calls) := hunfocus
    refine ⟨hid, ?_, fun _ => hoff, ?_, fun _ => Or.inl hfalse, ?_, ?_, ?_⟩
    · intro hrun
      rcases hnext with ⟨hstopped, -⟩ | ⟨-, hconsistent, -⟩
      · exact nomatch hrun.symm.trans hstopped
      · exact hconsistent
    · intro htrue
      exact nomatch hfalse.symm.trans htrue
    · rcases hnext with ⟨hstopped, hacts, -⟩ | ⟨hrun, -, hacts, -⟩
      · simp [hstopped, hacts]
      · simp [hrun, hacts, hturn]
    · rintro ⟨-, hrun⟩
      rcases hnext with ⟨hstopped, -⟩ | ⟨-, -, -, hrevision⟩
      · exact nomatch hrun.symm.trans hstopped
      · exact hrevision
    · intro hnot
      rcases hnext with ⟨-, -, hrevision⟩ | ⟨hrun, -⟩
      · exact hrevision
      · exact absurd ⟨hturn, hrun⟩ hnot
  · have hbase : Consistent { session with channels := channels } := by
      refine ⟨h.own, ?_, ?_⟩ <;> dsimp only <;> rw [hsame]
      · exact h.visible
      · exact h.awaiting
    have hshown : ∀ effect ∈ effects, effect.Shows → channels.videoRequested = true := by
      intro effect hmem hshows
      rw [hsame]
      exact (heffects effect hmem).2 hshows
    have hperformed := performAll_fated hbase calls hshown
    have hreturn : .hostReturn ∉ effects := fun hmem => (heffects _ hmem).1 rfl
    have hrequested (htrue : channels.videoRequested = true) :
        session.channels.videoRequested = true ∨
          Turn.Activates session.id (.message channel id body calls) := Or.inl (hsame ▸ htrue)
    have hturn : ¬Turn.Unfocuses (.message channel id body calls) := hother
    rcases hall : performAll { session with channels := channels } (fated effects calls)
      with ⟨next, acts⟩
    rw [hall] at hperformed
    dsimp only at hperformed ⊢
    split
    · refine turned_performed hperformed.stop ?_ ?_ hreturn hshown hrequested hturn ?_
      · rfl
      · rfl
      · exact fun hhides => nomatch hhides
    · refine turned_performed hperformed ?_ ?_ hreturn hshown hrequested hturn ?_
      · rfl
      · rfl
      · exact fun hhides => nomatch hhides

/-- Carrying out plain effects, for a session that differs in its channels. -/
theorem plain_turned {base : Session} {turn : Turn} (hbase : base.Consistent)
    (hid : base.id = session.id) (hsnapshot : base.snapshot = session.snapshot)
    (hrequested : base.channels.videoRequested = session.channels.videoRequested)
    (hturn : ¬turn.Unfocuses) (hhides : ¬turn.Hides session.id)
    (hplain : ∀ effect ∈ effects, effect.isPlain = true) (calls : ℕ → Bool) :
    Turned session turn (base.performAll (fated effects calls)).1
      ⟨[], (base.performAll (fated effects calls)).2⟩ := by
  have hperformed := performAll_fated hbase calls fun effect heffect hshows =>
    absurd hshows (Effect.not_shows_of_isPlain (hplain effect heffect))
  apply turned_performed hperformed hid (by rw [hsnapshot])
  · exact fun hmem => Effect.ne_hostReturn_of_isPlain (hplain _ hmem) rfl
  · simp
  · exact fun htrue => Or.inl (hrequested ▸ htrue)
  · exact hturn
  · exact fun hhide => absurd hhide hhides

theorem Turned.stop {outcome : TurnOutcome} (h : Turned session turn next outcome)
    (hturn : ¬turn.Unfocuses) : Turned session turn next.stop outcome := by
  refine ⟨h.id, ?_, h.quiet, h.requested, ?_, ?_, ?_, ?_⟩
  · exact fun hrun => nomatch hrun
  · intro hwithdrawn
    rcases h.withdrawn hwithdrawn with hfalse | ⟨-, hquiet⟩
    · exact Or.inl hfalse
    · exact Or.inr ⟨rfl, hquiet⟩
  · exact ⟨fun hmem => absurd (h.returned.mp hmem).1 hturn, fun hboth => absurd hboth.1 hturn⟩
  · exact fun hboth => nomatch hboth.2
  · exact fun _ => h.uncounted fun hboth => hturn hboth.1

/-- The host shows or hides the stream. -/
theorem present_turned (h : session.Consistent) (visible : Bool) (calls : ℕ → Bool) {turn : Turn}
    (hturn : ¬turn.Unfocuses) (hhides : turn.Hides session.id → visible = false)
    (hactivates : visible = true → turn.Activates session.id) :
    Turned session turn (session.present visible calls).1
      ⟨[], (session.present visible calls).2⟩ := by
  have hown : RuntimeSnapshot.IsOf { session with
      channels := session.channels.setVideoRequested visible
      awaitingVideo := visible }.snapshot session.id := h.own
  have hhidden := hide_performed hown (fun hawaiting => hawaiting) []
  have hallowed : ∀ effect ∈ [Effect.reply (hostFocus visible)], effect.Shows →
      visible = true := by
    intro effect heffect hshows
    rw [List.mem_singleton.mp heffect] at hshows
    cases visible with
    | true => rfl
    | false => exact absurd ((focuses_new (by decide) (by decide)).mp hshows) (by decide)
  have hreply := performAll_fated hhidden.consistent calls fun effect heffect hshows => by
    rw [hhidden.channels]
    exact hallowed effect heffect hshows
  have hboth := hhidden.append hreply
  refine turned_performed hboth ?_ ?_ (by simp) (by simp) ?_ hturn hhides
  · rfl
  · rfl
  · exact fun htrue => Or.inr (hactivates htrue)

theorem isPlain_reply {sent : Reply} (h : sent.id = 0x8001) : (Effect.reply sent).isPlain = true := by
  simp [Effect.isPlain, h]

/-- A command of the host. -/
theorem obey_turned (scaling : Channels.Scaling) (h : session.Consistent) (calls : ℕ → Bool)
    (command : Command) :
    Turned session (.command command calls) (session.obey scaling calls command).1
      ⟨[], (session.obey scaling calls command).2⟩ := by
  have hturn : ¬Turn.Unfocuses (.command command calls) := fun hunfocus => hunfocus
  cases command with
  | disconnect target =>
    have hhides : ¬Turn.Hides session.id (.command (.disconnect target) calls) := fun h => h
    simp only [obey]
    split
    · apply Turned.stop _ hturn
      apply plain_turned h rfl rfl rfl hturn hhides
      intro effect heffect
      rw [List.mem_singleton.mp heffect]
      rfl
    · exact turned_silent h hturn hhides
  | activate target =>
    have hhides : ¬Turn.Hides session.id (.command (.activate target) calls) := fun h => h
    simp only [obey]
    split
    · rename_i htarget
      exact present_turned h true calls hturn (fun hhide => absurd hhide hhides) fun _ => htarget
    · exact turned_silent h hturn hhides
  | touch target pointer phase x y timestamp =>
    have hhides : ¬Turn.Hides session.id
      (.command (.touch target pointer phase x y timestamp) calls) := fun h => h
    simp only [obey]
    split
    · split
      · exact turned_stop session _
      · rename_i channels reply htouch
        obtain ⟨⟨pointers, large, rfl⟩, hreply⟩ := Channels.touch_spec scaling htouch
        refine plain_turned ?_ ?_ ?_ ?_ hturn hhides ?_ calls
        · exact ⟨h.own, h.visible, h.awaiting⟩
        · rfl
        · rfl
        · rfl
        · intro effect heffect
          obtain ⟨sent, hsent, rfl⟩ := List.mem_map.mp heffect
          exact isPlain_reply (hreply sent (Option.mem_toList.mp hsent)).2
    · exact turned_silent h hturn hhides
  | visibility target visible =>
    simp only [obey]
    split
    · rename_i htarget
      exact present_turned h visible calls hturn (fun hhide => hhide.2)
        fun hvisible => ⟨htarget, hvisible⟩
    · rename_i htarget
      exact turned_silent h hturn fun hhide => htarget hhide.1
  | gain target stream =>
    simp only [obey]
    split
    · exact turned_stop session _
    · exact turned_silent h hturn fun h => h
  | mediaKey target stale code timestamp =>
    have hhides : ¬Turn.Hides session.id
      (.command (.mediaKey target stale code timestamp) calls) := fun h => h
    simp only [obey]
    split
    · exact turned_silent h hturn hhides
    split
    · exact turned_silent h hturn hhides
    · rename_i replies hkey
      apply plain_turned h rfl rfl rfl hturn hhides
      intro effect heffect
      obtain ⟨sent, hsent, rfl⟩ := List.mem_map.mp heffect
      unfold Channels.mediaKey at hkey
      split at hkey
      · exact nomatch hkey
      split at hkey
      · exact nomatch hkey
      cases hkey
      obtain ⟨pressed, -, rfl⟩ := List.mem_map.mp hsent
      exact Channels.isPlain_keyReport code timestamp pressed

theorem step_turned (scaling : Channels.Scaling) (h : session.Consistent)
    (hrunning : session.running = true) (turn : Turn) :
    Turned session turn (step scaling session turn).1 (step scaling session turn).2 := by
  unfold step
  rw [if_pos hrunning]
  cases turn with
  | message channel id body calls => exact receive_turned h hrunning channel id body calls
  | command command calls => exact obey_turned scaling h calls command
  | closed => exact turned_stop session _

/-- A session that has ended stays as it is. -/
theorem step_ended (scaling : Channels.Scaling) (hended : session.running = false) (turn : Turn) :
    step scaling session turn = (session, {}) := by
  unfold step
  rw [hended]
  rfl

/-- The three places agree while the session runs, under the id it started with. -/
def Sound (id : String) (session : Session) : Prop :=
  session.id = id ∧ (session.running = true → session.Consistent)

theorem sound_start (id deviceId displayName : String) (display : Display) (offerHevc : Bool) :
    Sound id (start id deviceId displayName display offerHevc) := by
  refine ⟨rfl, fun _ => ⟨?_, ?_, ?_⟩⟩
  · simp [RuntimeSnapshot.IsOf, start]
  · exact fun hvisible => nomatch hvisible
  · exact fun hawaiting => nomatch hawaiting

theorem sound_step (scaling : Channels.Scaling) {id : String} (h : Sound id session) (turn : Turn) :
    Sound id (step scaling session turn).1 := by
  cases hrunning : session.running with
  | false =>
    rw [step_ended scaling hrunning]
    exact h
  | true =>
    have hturned := step_turned scaling (h.2 hrunning) hrunning turn
    exact ⟨hturned.id.trans h.1, hturned.consistent⟩

/-- While the video is withheld, a running session does not request it. -/
theorem withheld_step (scaling : Channels.Scaling) {id : String} {turns : List Turn}
    (h : Sound id session)
    (hwithheld : Withheld id turns → session.running = true →
      session.channels.videoRequested = false)
    (turn : Turn) (hnow : Withheld id (turns ++ [turn])) :
    (step scaling session turn).2.Quiet ∧ ((step scaling session turn).1.running = true →
      (step scaling session turn).1.channels.videoRequested = false) := by
  cases hrunning : session.running with
  | false =>
    rw [step_ended scaling hrunning]
    exact ⟨quiet_empty, fun hrun => nomatch hrunning.symm.trans hrun⟩
  | true =>
    have hturned := step_turned scaling (h.2 hrunning) hrunning turn
    rcases withheld_concat hnow with hwithdrawn | ⟨hbefore, hactivates⟩
    · rw [← h.1] at hwithdrawn
      rcases hturned.withdrawn hwithdrawn with hfalse | ⟨hended, hquiet⟩
      · exact ⟨hturned.quiet hfalse, fun _ => hfalse⟩
      · exact ⟨hquiet, fun hrun => nomatch hended.symm.trans hrun⟩
    · have hfalse : (step scaling session turn).1.channels.videoRequested = false := by
        rw [Bool.eq_false_iff]
        intro htrue
        rcases hturned.requested htrue with hrequested | hactive
        · exact nomatch (hwithheld hbefore hrunning).symm.trans hrequested
        · exact hactivates (h.1 ▸ hactive)
      exact ⟨hturned.quiet hfalse, fun _ => hfalse⟩

theorem step_quiet (scaling : Channels.Scaling) {id : String} (h : Sound id session) (turn : Turn)
    (hfalse : (step scaling session turn).1.channels.videoRequested = false) :
    (step scaling session turn).2.Quiet := by
  cases hrunning : session.running with
  | false =>
    rw [step_ended scaling hrunning]
    exact quiet_empty
  | true => exact (step_turned scaling (h.2 hrunning) hrunning turn).quiet hfalse

theorem step_returned (scaling : Channels.Scaling) {id : String} (h : Sound id session)
    (turn : Turn) :
    (.hostReturned ∈ (step scaling session turn).2.acts ↔
      turn.Unfocuses ∧ (step scaling session turn).1.running = true) ∧
    (turn.Unfocuses ∧ (step scaling session turn).1.running = true →
      (step scaling session turn).1.snapshot.hostReturnRevision =
        nextRevision session.snapshot.hostReturnRevision) ∧
    (¬(turn.Unfocuses ∧ (step scaling session turn).1.running = true) →
      (step scaling session turn).1.snapshot.hostReturnRevision =
        session.snapshot.hostReturnRevision) := by
  cases hrunning : session.running with
  | false =>
    rw [step_ended scaling hrunning]
    simp [hrunning]
  | true =>
    have hturned := step_turned scaling (h.2 hrunning) hrunning turn
    exact ⟨hturned.returned, hturned.counted, hturned.uncounted⟩

/-- What every run keeps, with the turns so far. -/
theorem run_sound (scaling : Channels.Scaling) (id deviceId displayName : String)
    (display : Display) (offerHevc : Bool) (turns : List Turn) :
    let session := (run (step scaling) (start id deviceId displayName display offerHevc) turns).1
    Sound id session ∧ (Withheld id turns → session.running = true →
      session.channels.videoRequested = false) := by
  induction turns using List.reverseRecOn with
  | nil =>
    refine ⟨sound_start id deviceId displayName display offerHevc, ?_⟩
    rintro ⟨before, turn, after, heq, -⟩
    simp at heq
  | append_singleton turns turn ih =>
    obtain ⟨hsound, hwithheld⟩ := ih
    rw [run_concat]
    refine ⟨sound_step scaling hsound turn, fun hnow => ?_⟩
    exact (withheld_step scaling hsound hwithheld turn hnow).2

/-- Video focus is consistent. Whatever the phone and the host do, at every turn:

* a running session publishes a visible stream only while its channels request video,
  and so does every snapshot it publishes on the way;
* after the phone's unfocus request or a host hide, and until the host activates the
  session again, no effect shows video, no reply grants focus, no stream is visible;
* a return to the host is signalled exactly when the phone asks for no focus and the
  session survives the request, and only then does its revision move. -/
theorem focus_contract (scaling : Channels.Scaling) (id deviceId displayName : String)
    (display : Display) (offerHevc : Bool) (turns : List Turn) (turn : Turn) :
    let session := (run (step scaling) (start id deviceId displayName display offerHevc) turns).1
    let next := (step scaling session turn).1
    let outcome := (step scaling session turn).2
    (session.running = true → session.snapshot.visible = true →
      session.channels.videoRequested = true) ∧
    (∀ snapshot, .published snapshot ∈ outcome.acts → snapshot.visible = true →
      next.channels.videoRequested = true) ∧
    (Withheld id (turns ++ [turn]) → outcome.Quiet) ∧
    (.hostReturned ∈ outcome.acts ↔ turn.Unfocuses ∧ next.running = true) ∧
    (turn.Unfocuses ∧ next.running = true →
      next.snapshot.hostReturnRevision = nextRevision session.snapshot.hostReturnRevision) ∧
    (¬(turn.Unfocuses ∧ next.running = true) →
      next.snapshot.hostReturnRevision = session.snapshot.hostReturnRevision) := by
  intro session next outcome
  obtain ⟨hsound, hwithheld⟩ :=
    run_sound scaling id deviceId displayName display offerHevc turns
  refine ⟨fun hrunning => (hsound.2 hrunning).visible, ?_,
    fun hnow => (withheld_step scaling hsound hwithheld turn hnow).1, ?_⟩
  · intro snapshot hpublished hvisible
    by_contra hwithdrawn
    have hquiet := step_quiet scaling hsound turn (Bool.eq_false_iff.mpr hwithdrawn)
    exact hquiet.2 _ hpublished hvisible
  · exact step_returned scaling hsound turn

end Session

end ProjectArgo.Projection
