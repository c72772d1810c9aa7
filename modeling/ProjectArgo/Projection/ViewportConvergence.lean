import ProjectArgo.Projection.ProjectionSettings

/-!
# When the requested configuration converges

Once everything has come to rest, the daemon has been asked for what is in effect,
unless a timer ran out during a save that asked for nothing afterwards, or a save took
for sent what it had not sent.
-/
namespace ProjectArgo.Projection

open Library.Run

namespace ProjectionSystem

variable (system : ProjectionSystem)

/-- The request of the update belongs to the connection there is now. -/
def Carried : Prop := system.carried = some system.connections

instance : Decidable system.Carried := inferInstanceAs (Decidable (_ = _))

/-- The last request is for this configuration, or it has failed. -/
def Asked (value : ProjectionPreferences) : Prop :=
  ∃ request, system.last = some request ∧ (request.value = value ∨ request.failed)

/-- The daemon has been asked for what is in effect. -/
def Settled : Prop :=
  system.service.capabilities = none ∨ system.service.viewport = none ∨
    ∀ value, system.service.effective = .ok value → system.service.supports value →
      system.Asked value

/-- A save ends with the sending done: one that asks for nothing has not let a timer run out, and
when its request succeeds what was requested is still in effect. And the daemon is not lost while
something counts as sent for no viewport. -/
def Calm : Event → Prop
  | .configuration capabilities =>
    capabilities.isSome ∨ system.service.viewport.isSome ∨ system.service.sentViewport = none
  | .stored ok =>
    match system.service.saving with
    | .storing _ daemon => ok ∧ daemon ∨ ¬system.skipped
    | _ => True
  | .answered id ok =>
    system.service.saving = .requesting id →
      if ok then
        system.Carried ∧ system.service.capabilities.isSome ∧
          ∃ request ∈ system.last, system.service.effective = .ok request.value
      else system.Carried ∨ ¬system.skipped
  | _ => True

instance : (event : Event) → Decidable (system.Calm event)
  | .setViewport _ | .update _ | .reset | .timer => isTrue trivial
  | .configuration capabilities => inferInstanceAs (Decidable (capabilities.isSome ∨ _ ∨ _))
  | .stored ok =>
    match hsaving : system.service.saving with
    | .storing _ daemon =>
      decidable_of_iff (ok ∧ daemon ∨ ¬system.skipped) (by simp only [Calm, hsaving])
    | .idle | .requesting _ => isTrue (by simp only [Calm, hsaving])
  | .answered id ok => inferInstanceAs (Decidable (system.service.saving = .requesting id →
      if ok then
        system.Carried ∧ system.service.capabilities.isSome ∧
          ∃ request ∈ system.last, system.service.effective = .ok request.value
      else system.Carried ∨ ¬system.skipped))

/-- Nothing is under way, the last request has not failed, and the daemon supports what is in
effect: then it has been asked for it. -/
def Converged : Prop :=
  system.service.viewportTimer = false → system.service.saving = .idle → system.underWay = [] →
    system.service.capabilities.isSome → system.service.viewport.isSome →
      (∀ request ∈ system.last, ¬request.failed) →
        ∀ value, system.service.effective = .ok value → system.service.supports value →
          ∃ request ∈ system.last, request.value = value

/-- An update whose request went out over the present connection. -/
def Requesting : Prop := (∃ id, system.service.saving = .requesting id) ∧ system.Carried

structure Sound : Prop where
  underWay : ∀ id ∈ system.underWay, id < system.issued ∧ system.service.saving ≠ .requesting id
  requesting : ∀ id, system.service.saving = .requesting id → id < system.issued
  last : ∀ request ∈ system.last, request.id < system.issued
  carried : ∀ n ∈ system.carried, n ≤ system.connections
  apart : system.service.capabilities = none → system.service.sentViewport = none
  own : ∀ id, system.service.saving = .requesting id → system.Carried →
    ∃ value, system.last = some ⟨id, value, false⟩
  sent : system.Requesting ∨ ∀ value ∈ system.service.sentViewport, system.Asked value
  alone : ∀ value, system.service.saving = .storing value false →
    system.service.capabilities = none ∨ system.service.viewport = none ∨
      system.service.viewportTimer ∨ system.skipped
  settled : system.Requesting ∨ system.service.viewportTimer ∨ system.Settled ∨
    system.service.saving ≠ .idle ∧ system.skipped

variable {system}

theorem Sound.converged (h : system.Sound) : system.Converged := by
  intro htimer hidle _ hcapabilities hviewport hlast value heffective hsupports
  rcases h.settled with ⟨⟨id, hrequesting⟩, -⟩ | hrunning | hsettled | ⟨hbusy, -⟩
  · rw [hidle] at hrequesting
    exact nomatch hrequesting
  · rw [htimer] at hrunning
    exact nomatch hrunning
  · rcases hsettled with hnone | hnone | hall
    · rw [hnone] at hcapabilities
      exact nomatch hcapabilities
    · rw [hnone] at hviewport
      exact nomatch hviewport
    · obtain ⟨request, hrequest, hvalue | hfailed⟩ := hall value heffective hsupports
      · exact ⟨request, hrequest, hvalue⟩
      · exact absurd hfailed (hlast request hrequest)
  · exact absurd hidle hbusy

/-- A system that has just been set up. -/
def start (requested : ProjectionPreferences) (capabilities : Option ProjectionCapabilities) :
    ProjectionSystem where
  service := { requested := requested, capabilities := capabilities }

theorem sound_start (requested : ProjectionPreferences)
    (capabilities : Option ProjectionCapabilities) : (start requested capabilities).Sound where
  underWay := by simp [start]
  requesting := by simp [start]
  last := by simp [start]
  carried := by simp [start]
  apart := fun _ => rfl
  own := by simp [start]
  sent := Or.inr (by simp [start])
  alone := by simp [start]
  settled := Or.inr (Or.inr (Or.inl (Or.inr (Or.inl rfl))))

/-! ## The steps -/

/-- What a change that is followed by `scheduleViewport` leaves. -/
theorem scheduleViewport_cases (s : ProjectionSettings) :
    (s.viewport = none ∧ s.scheduleViewport = s) ∨
      (s.viewport ≠ none ∧ s.capabilities = none ∧
        s.scheduleViewport = { s with sentViewport := none }) ∨
      (s.viewport ≠ none ∧ s.capabilities ≠ none ∧
        s.scheduleViewport = { s with viewportTimer := true }) := by
  unfold ProjectionSettings.scheduleViewport
  cases hviewport : s.viewport with
  | none => exact Or.inl ⟨rfl, rfl⟩
  | some viewport =>
    cases hcapabilities : s.capabilities with
    | none => exact Or.inr (Or.inl ⟨nofun, rfl, rfl⟩)
    | some c => exact Or.inr (Or.inr ⟨nofun, nofun, rfl⟩)

/-- A change that neither touches the save nor asks for anything. -/
theorem Sound.touch (h : system.Sound) {service : ProjectionSettings} {skipped : Bool}
    (hsaving : service.saving = system.service.saving)
    (hapart : service.capabilities = none → service.sentViewport = none)
    (hsent : system.Requesting ∨ ∀ value ∈ service.sentViewport, system.Asked value)
    (halone : ∀ value, service.saving = .storing value false →
      service.capabilities = none ∨ service.viewport = none ∨ service.viewportTimer ∨ skipped)
    (hsettled : system.Requesting ∨ service.viewportTimer ∨
      Settled { system with service := service } ∨ service.saving ≠ .idle ∧ skipped) :
    Sound { system with service := service, skipped := skipped } := by
  have hrequesting : system.Requesting →
      Requesting { system with service := service, skipped := skipped } := by
    rintro ⟨⟨id, hid⟩, hcarried⟩
    exact ⟨⟨id, hsaving.trans hid⟩, hcarried⟩
  exact
    { underWay := fun id hid => ⟨(h.underWay id hid).1, hsaving.symm ▸ (h.underWay id hid).2⟩
      requesting := fun id hid => h.requesting id (hsaving.symm.trans hid)
      last := h.last
      carried := h.carried
      apart := hapart
      own := fun id hid => h.own id (hsaving.symm.trans hid)
      sent := hsent.imp_left hrequesting
      alone := halone
      settled := hsettled.imp_left hrequesting }

/-- The save ends, with an answer to what was asked last or with none. -/
theorem Sound.ends (h : system.Sound) {service : ProjectionSettings}
    {last : Option ConfigurationRequest} (hidle : service.saving = .idle)
    (hlast : ∀ request ∈ last, request.id < system.issued)
    (hapart : service.capabilities = none → service.sentViewport = none)
    (hsent : ∀ value ∈ service.sentViewport, Asked { system with last := last } value)
    (hsettled : service.viewportTimer ∨ Settled { system with service := service, last := last }) :
    Sound { system with service := service, last := last } := by
  have hnot : ∀ id, service.saving ≠ .requesting id := by
    intro id hid
    exact absurd (hidle.symm.trans hid) (by simp)
  exact
    { underWay := fun id hid => ⟨(h.underWay id hid).1, hnot id⟩
      requesting := fun id hid => absurd hid (hnot id)
      last := hlast
      carried := h.carried
      apart := hapart
      own := fun id hid => absurd hid (hnot id)
      sent := Or.inr hsent
      alone := fun _ hid => absurd (hidle.symm.trans hid) (by simp)
      settled := Or.inr (hsettled.imp_right Or.inl) }

theorem sound_setViewport (h : system.Sound) (viewport : ℚ × ℚ × ℚ) :
    (system.step (.setViewport viewport)).1.Sound := by
  unfold step ProjectionSettings.setViewport
  dsimp only
  split
  · exact h
  · rcases scheduleViewport_cases { system.service with viewport := some viewport } with
      ⟨hnone, -⟩ | ⟨-, hcapabilities, hschedule⟩ | ⟨-, hcapabilities, hschedule⟩
    · exact absurd hnone (Option.some_ne_none viewport)
    · rw [hschedule]
      refine h.touch rfl (fun _ => rfl) (Or.inr ?_) (fun _ _ => Or.inl hcapabilities) ?_
      · exact fun _ hsent => absurd hsent (Option.not_mem_none _)
      · exact Or.inr (Or.inr (Or.inl (Or.inl hcapabilities)))
    · rw [hschedule]
      refine h.touch rfl h.apart h.sent (fun _ _ => Or.inr (Or.inr (Or.inl rfl))) ?_
      exact Or.inr (Or.inl rfl)

/-- What an update or a reset makes of the service: nothing, or a save begins. -/
theorem sound_begin (h : system.Sound) (service : ProjectionSettings)
    (hservice : service = system.service ∨ system.service.saving = .idle ∧ ∃ value daemon,
      service = { system.service with saving := .storing value daemon } ∧
        (daemon = false → system.service.capabilities = none)) :
    (system.begin service).Sound := by
  unfold begin
  by_cases hidle : system.service.saving = .idle
  · rw [if_pos hidle]
    have hrequesting : ¬system.Requesting := by
      rintro ⟨⟨id, hid⟩, -⟩
      exact absurd (hidle.symm.trans hid) (by simp)
    have hsent := h.sent.resolve_left hrequesting
    have hsettled := h.settled.resolve_left hrequesting
    rcases hservice with rfl | ⟨-, value, daemon, rfl, hdaemon⟩
    · exact
        { underWay := h.underWay
          requesting := h.requesting
          last := h.last
          carried := h.carried
          apart := h.apart
          own := h.own
          sent := Or.inr hsent
          alone := fun value hstoring => absurd (hidle.symm.trans hstoring) (by simp)
          settled := by
            rcases hsettled with htimer | hsettled | ⟨hbusy, -⟩
            · exact Or.inr (Or.inl htimer)
            · exact Or.inr (Or.inr (Or.inl hsettled))
            · exact absurd hidle hbusy }
    · exact
        { underWay := fun id hid => ⟨(h.underWay id hid).1, by simp⟩
          requesting := fun id hid => absurd hid (by simp)
          last := h.last
          carried := h.carried
          apart := h.apart
          own := fun id hid => absurd hid (by simp)
          sent := Or.inr hsent
          alone := by
            intro value' hstoring
            simp only [Saving.storing.injEq] at hstoring
            exact Or.inl (hdaemon hstoring.2)
          settled := by
            rcases hsettled with htimer | hsettled | ⟨hbusy, -⟩
            · exact Or.inr (Or.inl htimer)
            · exact Or.inr (Or.inr (Or.inl hsettled))
            · exact absurd hidle hbusy }
  · rw [if_neg hidle]
    rcases hservice with rfl | ⟨hidle', -⟩
    · exact h
    · exact absurd hidle' hidle

/-- An update that is refused changes nothing. -/
theorem update_cases (s : ProjectionSettings) (value : ProjectionPreferences) :
    s.update value = s ∨
      s.saving = .idle ∧ s.update value = { s with saving := .storing value true } := by
  unfold ProjectionSettings.update
  split
  · exact Or.inl rfl
  · rename_i hidle
    split
    · exact Or.inl rfl
    · exact Or.inr ⟨not_not.mp hidle, rfl⟩

theorem sound_update (h : system.Sound) (value : ProjectionPreferences) :
    (system.step (.update value)).1.Sound := by
  apply sound_begin h
  rcases update_cases system.service value with hsame | ⟨hidle, hbegun⟩
  · exact Or.inl hsame
  · exact Or.inr ⟨hidle, value, true, hbegun, by simp⟩

theorem sound_reset (h : system.Sound) : (system.step .reset).1.Sound := by
  apply sound_begin h
  unfold ProjectionSettings.reset
  split
  · exact Or.inl rfl
  · rename_i hidle
    split
    · rename_i c hcapabilities
      rcases update_cases system.service c.defaults with hsame | ⟨hidle, hbegun⟩
      · exact Or.inl hsame
      · exact Or.inr ⟨hidle, c.defaults, true, hbegun, by simp⟩
    · rename_i hcapabilities
      exact Or.inr ⟨not_not.mp hidle, .defaults, false, rfl, fun _ => hcapabilities⟩

theorem sound_configuration (h : system.Sound) (capabilities : Option ProjectionCapabilities)
    (hcalm : system.Calm (.configuration capabilities)) :
    (system.step (.configuration capabilities)).1.Sound := by
  unfold step ProjectionSettings.configurationChanged
  dsimp only
  have hcases := scheduleViewport_cases { system.service with capabilities := capabilities }
  split
  -- The daemon has connected: nothing counts as sent, and the update's request is of before.
  · rename_i hconnected
    simp only [Bool.and_eq_true, Option.isNone_iff_eq_none] at hconnected
    obtain ⟨hbefore, hnow⟩ := hconnected
    have hsent : system.service.sentViewport = none := h.apart hbefore
    have hcarried : system.carried ≠ some (system.connections + 1) := by
      intro hcarried
      have := h.carried _ hcarried
      omega
    rcases hcases with ⟨hviewport, hschedule⟩ | ⟨-, hnone, -⟩ | ⟨-, -, hschedule⟩
    · rw [hschedule]
      exact
        { underWay := h.underWay
          requesting := h.requesting
          last := fun _ hlast => absurd hlast (Option.not_mem_none _)
          carried := fun n hn => Nat.le_succ_of_le (h.carried n hn)
          apart := fun _ => hsent
          own := fun _ _ hown => absurd hown hcarried
          sent := Or.inr fun value hvalue => absurd (hsent.symm.trans hvalue) (by simp)
          alone := fun _ _ => Or.inr (Or.inl hviewport)
          settled := Or.inr (Or.inr (Or.inl (Or.inr (Or.inl hviewport)))) }
    · rw [show capabilities = none from hnone] at hnow
      exact absurd hnow (by simp)
    · rw [hschedule]
      exact
        { underWay := h.underWay
          requesting := h.requesting
          last := fun _ hlast => absurd hlast (Option.not_mem_none _)
          carried := fun n hn => Nat.le_succ_of_le (h.carried n hn)
          apart := fun _ => hsent
          own := fun _ _ hown => absurd hown hcarried
          sent := Or.inr fun value hvalue => absurd (hsent.symm.trans hvalue) (by simp)
          alone := fun _ _ => Or.inr (Or.inr (Or.inl rfl))
          settled := Or.inr (Or.inl rfl) }
  · rcases hcases with ⟨hviewport, hschedule⟩ | ⟨-, hnone, hschedule⟩ | ⟨-, hsome, hschedule⟩
    · rw [hschedule]
      refine h.touch rfl ?_ h.sent (fun _ _ => Or.inr (Or.inl hviewport)) ?_
      · intro hnone
        rcases hcalm with hsome | hsome | hsent
        · rw [show capabilities = none from hnone] at hsome
          exact absurd hsome (by simp)
        · rw [show system.service.viewport = none from hviewport] at hsome
          exact absurd hsome (by simp)
        · exact hsent
      · exact Or.inr (Or.inr (Or.inl (Or.inr (Or.inl hviewport))))
    · rw [hschedule]
      refine h.touch rfl (fun _ => rfl) (Or.inr ?_) (fun _ _ => Or.inl hnone) ?_
      · exact fun _ hsent => absurd hsent (Option.not_mem_none _)
      · exact Or.inr (Or.inr (Or.inl (Or.inl hnone)))
    · rw [hschedule]
      refine h.touch rfl (fun hnone => absurd hnone hsome) h.sent ?_ ?_
      · exact fun _ _ => Or.inr (Or.inr (Or.inl rfl))
      · exact Or.inr (Or.inl rfl)

theorem not_requesting_of_idle (hidle : system.service.saving = .idle) : ¬system.Requesting := by
  rintro ⟨⟨id, hid⟩, -⟩
  exact absurd (hidle.symm.trans hid) (by simp)

/-- What the timer does: it gives up on a save, finds nothing to send, or asks. -/
theorem timerFired_cases (s : ProjectionSettings) :
    (s.saving ≠ .idle ∧ s.timerFired = ({ s with viewportTimer := false }, none)) ∨
      (s.saving = .idle ∧ ∃ error, s.effective = .error error ∧
        s.timerFired = ({ s with viewportTimer := false, sentViewport := none }, none)) ∨
      (s.saving = .idle ∧ ∃ value, s.effective = .ok value ∧
        (s.sentViewport = some value ∨ ¬s.supports value) ∧
          s.timerFired = ({ s with viewportTimer := false }, none)) ∨
      (s.saving = .idle ∧ ∃ value, s.effective = .ok value ∧ s.supports value ∧
        s.timerFired =
          ({ s with viewportTimer := false, sentViewport := some value }, some value)) := by
  by_cases hidle : s.saving = .idle
  · have heffective : { s with viewportTimer := false }.effective = s.effective := rfl
    unfold ProjectionSettings.timerFired
    dsimp only
    rw [if_neg (not_not.mpr hidle), heffective]
    cases hvalue : s.effective with
    | error error => exact Or.inr (Or.inl ⟨hidle, error, rfl, rfl⟩)
    | ok value =>
      by_cases hskip : s.sentViewport = some value ∨ ¬s.supports value
      · exact Or.inr (Or.inr (Or.inl ⟨hidle, value, rfl, hskip, if_pos hskip⟩))
      · have hsupports : s.supports value := by
          by_contra hunsupported
          exact hskip (Or.inr hunsupported)
        exact Or.inr (Or.inr (Or.inr ⟨hidle, value, rfl, hsupports, if_neg hskip⟩))
  · refine Or.inl ⟨hidle, ?_⟩
    unfold ProjectionSettings.timerFired
    exact if_pos hidle

theorem sound_timer (h : system.Sound) : (system.step .timer).1.Sound := by
  unfold step
  dsimp only
  split
  · exact h
  · rcases timerFired_cases system.service with ⟨hbusy, hfired⟩ | ⟨hidle, error, herror, hfired⟩ |
      ⟨hidle, value, hvalue, hskip, hfired⟩ | ⟨hidle, value, hvalue, hsupports, hfired⟩
    · rw [hfired]
      have hskipped : (system.skipped || decide (system.service.saving ≠ .idle)) = true := by
        rw [decide_eq_true hbusy, Bool.or_true]
      refine h.touch rfl h.apart h.sent (fun _ _ => Or.inr (Or.inr (Or.inr hskipped))) ?_
      exact Or.inr (Or.inr (Or.inr ⟨hbusy, hskipped⟩))
    · rw [hfired]
      refine h.touch rfl (fun _ => rfl) (Or.inr ?_) ?_ ?_
      · exact fun _ hsent => absurd hsent (Option.not_mem_none _)
      · exact fun _ hstoring => absurd (hidle.symm.trans hstoring) (by simp)
      · refine Or.inr (Or.inr (Or.inl (Or.inr (Or.inr ?_))))
        intro value hvalue
        exact absurd (herror.symm.trans hvalue) (by simp)
    · rw [hfired]
      have hsent := h.sent.resolve_left (not_requesting_of_idle hidle)
      refine h.touch rfl h.apart (Or.inr hsent) ?_ ?_
      · exact fun _ hstoring => absurd (hidle.symm.trans hstoring) (by simp)
      · refine Or.inr (Or.inr (Or.inl (Or.inr (Or.inr ?_))))
        intro value' hvalue' hsupports
        obtain rfl : value = value' := Except.ok.inj (hvalue.symm.trans hvalue')
        rcases hskip with hsame | hunsupported
        · exact hsent value hsame
        · exact absurd hsupports hunsupported
    · rw [hfired]
      unfold ask
      dsimp only
      exact
        { underWay := by
            intro id hid
            rcases List.mem_cons.mp hid with rfl | hid
            · exact ⟨Nat.lt_succ_self _, fun hrequesting =>
                absurd (hidle.symm.trans hrequesting) (by simp)⟩
            · exact ⟨Nat.lt_succ_of_lt (h.underWay id hid).1, (h.underWay id hid).2⟩
          requesting := fun id hid => absurd (hidle.symm.trans hid) (by simp)
          last := by
            intro request hrequest
            obtain rfl := Option.some.inj hrequest
            exact Nat.lt_succ_self _
          carried := h.carried
          apart := by
            intro hnone
            have hnone : system.service.capabilities = none := hnone
            unfold ProjectionSettings.supports at hsupports
            rw [hnone] at hsupports
            exact absurd hsupports (by simp)
          own := fun id hid => absurd (hidle.symm.trans hid) (by simp)
          sent := by
            refine Or.inr ?_
            intro value' hvalue'
            obtain rfl := Option.some.inj hvalue'
            exact ⟨_, rfl, Or.inl rfl⟩
          alone := fun _ hstoring => absurd (hidle.symm.trans hstoring) (by simp)
          settled := by
            refine Or.inr (Or.inr (Or.inl (Or.inr (Or.inr ?_))))
            intro value' hvalue' _
            obtain rfl : value = value' := Except.ok.inj (hvalue.symm.trans hvalue')
            exact ⟨_, rfl, Or.inl rfl⟩ }

/-- What becomes of a save once its settings are written, or could not be. -/
theorem stored_cases (s : ProjectionSettings) (ok : Bool) (id : ℕ) :
    ((∀ value daemon, s.saving ≠ .storing value daemon) ∧ s.stored ok id = (s, none)) ∨
      ∃ value daemon, s.saving = .storing value daemon ∧
        ((ok = false ∧ s.stored ok id = ({ s with saving := .idle }, none)) ∨
          (ok = true ∧ daemon = false ∧
            s.stored ok id = ({ s with requested := value, saving := .idle }, none)) ∨
          (ok = true ∧ daemon = true ∧
            (∃ error, { s with requested := value }.effective = .error error) ∧
              s.stored ok id = ({ s with requested := value, saving := .idle }, none)) ∨
          (ok = true ∧ daemon = true ∧ ∃ asked, { s with requested := value }.effective = .ok asked ∧
            s.stored ok id =
              ({ s with requested := value, saving := .requesting id }, some asked))) := by
  cases hsaving : s.saving with
  | idle =>
    refine Or.inl ⟨fun _ _ => by simp, ?_⟩
    simp only [ProjectionSettings.stored, hsaving]
  | requesting id' =>
    refine Or.inl ⟨fun _ _ => by simp, ?_⟩
    simp only [ProjectionSettings.stored, hsaving]
  | storing value daemon =>
    refine Or.inr ⟨value, daemon, rfl, ?_⟩
    cases ok with
    | false => exact Or.inl ⟨rfl, by simp [ProjectionSettings.stored, hsaving]⟩
    | true =>
      cases daemon with
      | false =>
        exact Or.inr (Or.inl ⟨rfl, rfl, by simp [ProjectionSettings.stored, hsaving]⟩)
      | true =>
        cases heffective : { s with requested := value }.effective with
        | error error =>
          rw [hsaving] at heffective
          refine Or.inr (Or.inr (Or.inl ⟨rfl, rfl, ⟨error, heffective⟩, ?_⟩))
          simp only [ProjectionSettings.stored, hsaving, heffective, Bool.not_true,
            Bool.false_eq_true, if_false]
        | ok asked =>
          rw [hsaving] at heffective
          refine Or.inr (Or.inr (Or.inr ⟨rfl, rfl, asked, heffective, ?_⟩))
          simp only [ProjectionSettings.stored, hsaving, heffective, Bool.not_true,
            Bool.false_eq_true, if_false]

theorem sound_stored (h : system.Sound) (ok : Bool) (hcalm : system.Calm (.stored ok)) :
    (system.step (.stored ok)).1.Sound := by
  unfold step
  dsimp only
  rcases stored_cases system.service ok system.issued with ⟨-, hstored⟩ |
    ⟨value, daemon, hsaving, hstored⟩
  · rw [hstored]
    exact h
  · have hstoring : ¬system.Requesting := by
      rintro ⟨⟨id, hid⟩, -⟩
      exact absurd (hsaving.symm.trans hid) (by simp)
    have hsent := h.sent.resolve_left hstoring
    simp only [Calm, hsaving] at hcalm
    -- A save that ends here has not let a timer run out, unless nothing can be asked for.
    have hended : ∀ requested : ProjectionPreferences,
        (system.service.viewportTimer ∨ system.service.capabilities = none ∨
          system.service.viewport = none ∨
            ∀ asked, { system.service with requested := requested }.effective = .ok asked →
              system.service.supports asked → system.Asked asked) →
        Sound { system with
          service := { system.service with requested := requested, saving := .idle } } :=
      fun _ hdone => h.ends rfl h.last h.apart hsent hdone
    rcases hstored with ⟨rfl, hstored⟩ | ⟨rfl, rfl, hstored⟩ | ⟨rfl, rfl, ⟨error, herror⟩, hstored⟩ |
      ⟨rfl, rfl, asked, hasked, hstored⟩
    · rw [hstored]
      apply hended system.service.requested
      rcases h.settled.resolve_left hstoring with htimer | hsettled | ⟨-, hskipped⟩
      · exact Or.inl htimer
      · exact Or.inr hsettled
      · exact absurd hskipped (by simpa using hcalm)
    · rw [hstored]
      apply hended value
      rcases h.alone value hsaving with hnone | hnone | htimer | hskipped
      · exact Or.inr (Or.inl hnone)
      · exact Or.inr (Or.inr (Or.inl hnone))
      · exact Or.inl htimer
      · exact absurd hskipped (by simpa using hcalm)
    · rw [hstored]
      apply hended value
      refine Or.inr (Or.inr (Or.inr ?_))
      intro asked hasked
      exact absurd (herror.symm.trans hasked) (by simp)
    · rw [hstored]
      unfold ask
      dsimp only
      -- Over a connection the request carries what is in effect; without one nothing is sent.
      have hover : (system.service.capabilities = none ∨
          (if system.service.capabilities.isSome then some system.connections else none) =
            some system.connections) := by
        cases system.service.capabilities with
        | none => exact Or.inl rfl
        | some c => exact Or.inr rfl
      exact
        { underWay := fun id hid => by
            have hid := (h.underWay id hid).1
            refine ⟨Nat.lt_succ_of_lt hid, ?_⟩
            intro heq
            have heq := Saving.requesting.inj heq
            omega
          requesting := fun id hid => by
            have hid := Saving.requesting.inj hid
            show id < system.issued + 1
            omega
          last := by
            intro request hrequest
            obtain rfl := Option.some.inj hrequest
            exact Nat.lt_succ_self _
          carried := by
            intro n hn
            have hn : (if system.service.capabilities.isSome then some system.connections else none) =
              some n := hn
            split at hn
            · exact Nat.le_of_eq (Option.some.inj hn).symm
            · exact absurd hn (by simp)
          apart := h.apart
          own := by
            intro id hid _
            obtain rfl := Saving.requesting.inj hid
            exact ⟨asked, rfl⟩
          sent := by
            rcases hover with hnone | hcarried
            · refine Or.inr ?_
              intro sent hvalue
              exact absurd ((h.apart hnone).symm.trans hvalue) (by simp)
            · exact Or.inl ⟨⟨_, rfl⟩, hcarried⟩
          alone := fun _ hid => absurd hid (by simp)
          settled := by
            rcases hover with hnone | hcarried
            · exact Or.inr (Or.inr (Or.inl (Or.inl hnone)))
            · exact Or.inl ⟨⟨_, rfl⟩, hcarried⟩ }

/-! ## Answers -/

theorem failRequest_id (id : ℕ) (request : ConfigurationRequest) :
    (failRequest id request).id = request.id := by
  unfold failRequest
  split <;> rfl

theorem failRequest_value (id : ℕ) (request : ConfigurationRequest) :
    (failRequest id request).value = request.value := by
  unfold failRequest
  split <;> rfl

theorem failRequest_failed (id : ℕ) (request : ConfigurationRequest) (h : request.failed) :
    (failRequest id request).failed := by
  unfold failRequest
  split
  · rfl
  · exact h

/-- An answer to a request takes nothing back that has been asked. -/
theorem asked_answer (id : ℕ) (ok : Bool) {value : ProjectionPreferences}
    (h : system.Asked value) :
    ∃ request, system.answer id ok = some request ∧ (request.value = value ∨ request.failed) := by
  obtain ⟨request, hlast, hvalue⟩ := h
  unfold answer
  split
  · exact ⟨request, hlast, hvalue⟩
  · refine ⟨failRequest id request, by rw [hlast]; rfl, ?_⟩
    rw [failRequest_value]
    exact hvalue.imp_right (failRequest_failed id request)

theorem answer_id (h : system.Sound) (id : ℕ) (ok : Bool) :
    ∀ request ∈ system.answer id ok, request.id < system.issued := by
  intro request hrequest
  unfold answer at hrequest
  split at hrequest
  · exact h.last request hrequest
  · obtain ⟨before, hbefore, rfl⟩ := Option.mem_map.mp hrequest
    rw [failRequest_id]
    exact h.last before hbefore

theorem answer_other {id other : ℕ} {value : ProjectionPreferences} (ok : Bool)
    (hlast : system.last = some ⟨other, value, false⟩) (hother : other ≠ id) :
    system.answer id ok = some ⟨other, value, false⟩ := by
  unfold answer
  rw [hlast]
  split
  · rfl
  · show some (failRequest id ⟨other, value, false⟩) = _
    unfold failRequest
    rw [if_neg hother]

/-- The request of the update has been answered. -/
theorem sound_updateAnswered (h : system.Sound) {id : ℕ} (ok : Bool)
    (hid : system.service.saving = .requesting id)
    (hcalm : if ok then system.Carried ∧ system.service.capabilities.isSome ∧
        ∃ request ∈ system.last, system.service.effective = .ok request.value
      else system.Carried ∨ ¬system.skipped) :
    Sound { system with
      service := system.service.updateAnswered ok
      last := system.answer id ok } := by
  have hlast := answer_id h id ok
  cases ok with
  | true =>
    obtain ⟨hcarried, hcapabilities, request, hrequest, heffective⟩ := hcalm
    have hanswered : system.service.updateAnswered true =
        { system.service with sentViewport := some request.value, saving := .idle } := by
      simp only [ProjectionSettings.updateAnswered, heffective, Bool.not_true, Bool.false_eq_true,
        if_false]
    rw [hanswered]
    refine h.ends rfl hlast ?_ ?_ (Or.inr (Or.inr (Or.inr ?_)))
    · intro hnone
      have hnone : system.service.capabilities = none := hnone
      rw [hnone] at hcapabilities
      exact absurd hcapabilities (by simp)
    · intro value hvalue
      obtain rfl := Option.some.inj hvalue
      exact ⟨request, hrequest, Or.inl rfl⟩
    · intro value hvalue _
      obtain rfl : request.value = value := Except.ok.inj (heffective.symm.trans hvalue)
      exact ⟨request, hrequest, Or.inl rfl⟩
  | false =>
    have hcalm : system.Carried ∨ ¬system.skipped := hcalm
    have hanswered : system.service.updateAnswered false = { system.service with saving := .idle } :=
      rfl
    -- Over this connection the request that failed is the last one.
    have hfailed : system.Carried →
        ∀ value, ∃ request, system.answer id false = some request ∧
          (request.value = value ∨ request.failed) := by
      intro hcarried value
      obtain ⟨requested, hown⟩ := h.own id hid hcarried
      refine ⟨⟨id, requested, true⟩, ?_, Or.inr rfl⟩
      unfold answer
      rw [hown]
      show some (failRequest id ⟨id, requested, false⟩) = _
      unfold failRequest
      rw [if_pos rfl]
    rw [hanswered]
    refine h.ends rfl hlast h.apart ?_ ?_
    · intro value hvalue
      rcases h.sent with ⟨-, hcarried⟩ | hsent
      · exact hfailed hcarried value
      · exact asked_answer id false (hsent value hvalue)
    · rcases h.settled with ⟨-, hcarried⟩ | htimer | hsettled | ⟨-, hskipped⟩
      · exact Or.inr (Or.inr (Or.inr fun value _ _ => hfailed hcarried value))
      · exact Or.inl htimer
      · refine Or.inr ?_
        exact hsettled.imp_right (Or.imp_right fun hall value heffective hsupports =>
          asked_answer id false (hall value heffective hsupports))
      · refine Or.inr (Or.inr (Or.inr fun value _ _ => ?_))
        exact hfailed (hcalm.resolve_right (not_not.mpr hskipped)) value

/-- A request of the timer has been answered. -/
theorem sound_timerAnswered (h : system.Sound) {id : ℕ} (ok : Bool) (hid : id ∈ system.underWay) :
    Sound { system with
      service := if ok then system.service else system.service.timerFailed
      underWay := system.underWay.erase id
      last := system.answer id ok } := by
  have hlast := answer_id h id ok
  have hother : ∀ own, system.service.saving = .requesting own → own ≠ id := by
    rintro own hown rfl
    exact (h.underWay own hid).2 hown
  have hown : ∀ own, system.service.saving = .requesting own → system.Carried →
      ∃ value, system.answer id ok = some ⟨own, value, false⟩ := by
    intro own hsaving hcarried
    obtain ⟨value, hvalue⟩ := h.own own hsaving hcarried
    exact ⟨value, answer_other ok hvalue (hother own hsaving)⟩
  have hsettled : system.Requesting ∨ system.service.viewportTimer ∨
      (system.service.capabilities = none ∨ system.service.viewport = none ∨
        ∀ value, system.service.effective = .ok value → system.service.supports value →
          ∃ request, system.answer id ok = some request ∧
            (request.value = value ∨ request.failed)) ∨
      system.service.saving ≠ .idle ∧ system.skipped := by
    refine h.settled.imp_right (Or.imp_right (Or.imp_left fun hsettled => ?_))
    exact hsettled.imp_right (Or.imp_right fun hall value heffective hsupports =>
      asked_answer id ok (hall value heffective hsupports))
  cases ok with
  | true =>
    exact
      { underWay := fun id' hid' => h.underWay id' (List.mem_of_mem_erase hid')
        requesting := h.requesting
        last := hlast
        carried := h.carried
        apart := h.apart
        own := hown
        sent := h.sent.imp_right fun hsent value hvalue => asked_answer id true (hsent value hvalue)
        alone := h.alone
        settled := hsettled }
  | false =>
    exact
      { underWay := fun id' hid' => h.underWay id' (List.mem_of_mem_erase hid')
        requesting := h.requesting
        last := hlast
        carried := h.carried
        apart := fun _ => rfl
        own := hown
        sent := Or.inr fun _ hsent => absurd hsent (Option.not_mem_none _)
        alone := h.alone
        settled := hsettled }

theorem sound_answered (h : system.Sound) (id : ℕ) (ok : Bool)
    (hcalm : system.Calm (.answered id ok)) : (system.step (.answered id ok)).1.Sound := by
  unfold step
  dsimp only
  split
  · rename_i hid
    exact sound_updateAnswered h ok hid (hcalm hid)
  · split
    · rename_i hid
      exact sound_timerAnswered h ok hid
    · exact h

/-! ## Runs -/

theorem sound_step (h : system.Sound) (event : Event) (hcalm : system.Calm event) :
    (system.step event).1.Sound := by
  cases event with
  | setViewport viewport => exact sound_setViewport h viewport
  | update value => exact sound_update h value
  | reset => exact sound_reset h
  | configuration capabilities => exact sound_configuration h capabilities hcalm
  | timer => exact sound_timer h
  | stored ok => exact sound_stored h ok hcalm
  | answered id ok => exact sound_answered h id ok hcalm

/-- The daemon has been asked for what is in effect, in every state of a run all of whose steps are
calm. -/
theorem calm_run_converged (requested : ProjectionPreferences)
    (capabilities : Option ProjectionCapabilities) (events : List Event)
    (hcalm : Along step Calm (start requested capabilities) events) :
    (run step (start requested capabilities) events).1.Converged := by
  apply Sound.converged
  refine along_induction step (I := fun events =>
    (run step (start requested capabilities) events).1.Sound) ?_ ?_ events hcalm
  · exact sound_start requested capabilities
  · intro events event hsound hevent
    rw [run_concat]
    exact sound_step hsound event hevent

/-- A daemon that takes every size. -/
def lenient : ProjectionCapabilities where
  resolutions := ProjectionFields.dimensions
  frameRates := [30, 60]
  minimumDpi := 80
  maximumDpi := 640
  defaults := .defaults

theorem widest_valid : ProjectionFields.Valid
    { width := 1920, height := 1080, dpi := 160, framesPerSecond := 30, driverSide := .left,
      safeInsets := {} } := by
  decide +kernel

def widest : ProjectionPreferences where
  width := 1920
  height := 1080
  dpi := 160
  framesPerSecond := 30
  driverSide := .left
  safeInsets := {}
  valid := widest_valid

/-- The user picks the widest picture, which is stored and requested. -/
def widening (between : List Event) : List Event :=
  [.setViewport (1280, 720, 0), .timer, .answered 0 true, .update widest, .stored true] ++
    between ++ [.answered 1 true]

theorem calm_run_converged_widening :
    (run step (start .defaults (some lenient)) (widening [])).1.Converged :=
  calm_run_converged .defaults (some lenient) (widening []) (by decide +kernel)

/-- The viewport changes while the request of the update is under way, and the timer runs out:
what is in effect then counts as sent although the daemon was asked for something else. -/
theorem changed_while_requesting :
    ¬(run step (start .defaults (some lenient))
        (widening [.setViewport (800, 600, 0), .timer])).1.Converged := by
  intro hconverged
  obtain ⟨value, heffective, hsupports, hother⟩ : ∃ value,
      (run step (start .defaults (some lenient))
        (widening [.setViewport (800, 600, 0), .timer])).1.service.effective = .ok value ∧
      (run step (start .defaults (some lenient))
        (widening [.setViewport (800, 600, 0), .timer])).1.service.supports value ∧
      ∀ request ∈ (run step (start .defaults (some lenient))
        (widening [.setViewport (800, 600, 0), .timer])).1.last, request.value ≠ value := by
    refine ⟨{ widest with
      viewInsets := { left := 240, right := 240 }
      valid := by decide +kernel }, ?_, ?_, ?_⟩
    · decide +kernel
    · decide +kernel
    · decide +kernel
  obtain ⟨request, hrequest, hvalue⟩ := hconverged (by decide +kernel) (by decide +kernel)
    (by decide +kernel) (by decide +kernel) (by decide +kernel) (by decide +kernel) value
    heffective hsupports
  exact hother request hrequest hvalue

end ProjectionSystem
end ProjectArgo.Projection
