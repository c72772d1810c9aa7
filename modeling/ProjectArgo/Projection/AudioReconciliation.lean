import ProjectArgo.Projection.ProjectionAudio

/-!
# Projection audio catches up

A pass looks at one source at a time, so it is followed source by source: what the
audio service and the records of the projection service say about a source is one
`SourceView`, and a step for one source leaves the views of the others alone. After any
passes the two sides are linked: a source that is registered is recorded, and its
requests are the handle that is kept and not released. They may still differ, and a
later pass does not see every difference.
-/
namespace ProjectArgo.Projection

open Library Audio Audio.AudioService

namespace AudioPass

variable {pass after : AudioPass} {acts : List Act}

/-! ## Operations of the audio service -/

/-- The tables agree, whatever the routing and the gains. -/
structure Alike (first second : AudioService) : Prop where
  sources : second.sources = first.sources
  activeSources : second.activeSources = first.activeSources
  focusRequests : second.focusRequests = first.focusRequests
  nextFocusId : second.nextFocusId = first.nextFocusId
  handles : second.handles = first.handles
  releasing : second.releasing = first.releasing

theorem Alike.refl (audio : AudioService) : Alike audio audio := ⟨rfl, rfl, rfl, rfl, rfl, rfl⟩

theorem Alike.trans {first second third : AudioService} (h : Alike first second)
    (h' : Alike second third) : Alike first third :=
  ⟨h'.sources.trans h.sources, h'.activeSources.trans h.activeSources,
    h'.focusRequests.trans h.focusRequests, h'.nextFocusId.trans h.nextFocusId,
    h'.handles.trans h.handles, h'.releasing.trans h.releasing⟩

theorem alike_routing (audio : AudioService) (routing : Bool) :
    Alike audio { audio with routing := routing } := ⟨rfl, rfl, rfl, rfl, rfl, rfl⟩

/-- No native call fails, and no snapshot comes. -/
def Fine (signals : List Signal) : Prop :=
  ∀ signal ∈ signals, signal ≠ .reply false ∧ signal ≠ .snapshot

instance (signals : List Signal) : Decidable (Fine signals) :=
  inferInstanceAs (Decidable (∀ signal ∈ signals, _ ∧ _))

theorem Fine.tail {signal : Signal} {signals : List Signal} (h : Fine (signal :: signals)) :
    Fine signals := fun other hother => h other (List.mem_cons_of_mem _ hother)

/-- An operation is over and has left these tables. -/
structure Ends (pass : AudioPass) (audio : AudioService) (after : AudioPass) : Prop where
  alike : Alike audio after.service.audio
  records : after.service = { pass.service with audio := after.service.audio }
  fine : Fine pass.signals → Fine after.signals ∧ after.superseded = pass.superseded

theorem Ends.later {signal : Signal} {signals : List Signal} {service : ProjectionService}
    {audio : AudioService} {superseded flag : Bool}
    (h : Ends ⟨service, signals, flag⟩ audio after) (hflag : signal ≠ .snapshot → flag = superseded) :
    Ends ⟨service, signal :: signals, superseded⟩ audio after := by
  refine ⟨h.alike, h.records, fun hfine => ?_⟩
  obtain ⟨hrest, hsuperseded⟩ := h.fine hfine.tail
  exact ⟨hrest, hsuperseded.trans (hflag (hfine signal (List.mem_cons_self ..)).2)⟩

theorem absorb_go_ends (service : ProjectionService) (superseded : Bool) (signals : List Signal) :
    Ends ⟨service, signals, superseded⟩ service.audio (absorb.go service superseded signals) := by
  induction signals generalizing service superseded with
  | nil => exact ⟨.refl _, rfl, fun h => ⟨h, rfl⟩⟩
  | cons signal rest ih =>
    cases signal with
    | reply ok => exact ⟨.refl _, rfl, fun h => ⟨h, rfl⟩⟩
    | backend routing =>
      have hends := ih { service with audio := { service.audio with routing := routing } } superseded
      exact ⟨(alike_routing service.audio routing).trans hends.alike, hends.records,
        (hends.later fun _ => rfl).fine⟩
    | snapshot => exact (ih service true).later fun h => absurd rfl h

theorem absorb_ends (pass : AudioPass) : Ends pass pass.service.audio pass.absorb :=
  absorb_go_ends pass.service pass.superseded pass.signals

theorem drive_none {service : ProjectionService} {superseded : Bool} {audio : AudioService}
    {acts acts' : List Act} {signals : List Signal}
    (h : drive service superseded audio none acts signals = some (after, acts')) :
    acts' = acts ∧ Ends ⟨service, signals, superseded⟩ audio after := by
  simp only [drive, Option.some.injEq, Prod.mk.injEq] at h
  obtain ⟨rfl, rfl⟩ := h
  have hends := absorb_ends ⟨{ service with audio := audio }, signals, superseded⟩
  exact ⟨rfl, hends.alike, hends.records, hends.fine⟩

/-- How an operation ends that sets the gains with a goal. -/
inductive GoalEnds (audio : AudioService) (fine : Prop) : Goal → AudioService → List Act → Prop
  | finished : GoalEnds audio fine .finish audio [.completed]
  | threw (h : ¬fine) : GoalEnds audio fine .finish audio [.threw]
  | granted (id : ℕ) :
      GoalEnds audio fine (.grant id) { audio with handles := audio.handles ++ [id] } [.returned id]
  | taken (id : ℕ) (h : ¬fine) : GoalEnds audio fine (.grant id) (audio.revoke id) [.refused id]
  | restored (id : ℕ) : GoalEnds audio fine (.restore id) audio [.refused id]

/-- The same, up to what happens natively. -/
def Sets (pass : AudioPass) (audio : AudioService) (goal : Goal) (acts acts' : List Act)
    (after : AudioPass) : Prop :=
  ∃ ended more, GoalEnds audio (Fine pass.signals) goal ended more ∧ acts' = acts ++ more ∧
    Ends pass ended after

theorem Sets.later {signal : Signal} {signals : List Signal} {service : ProjectionService}
    {audio : AudioService} {goal : Goal} {acts acts' : List Act} {superseded flag : Bool}
    (h : Sets ⟨service, signals, flag⟩ audio goal acts acts' after)
    (hflag : signal ≠ .snapshot → flag = superseded) :
    Sets ⟨service, signal :: signals, superseded⟩ audio goal acts acts' after := by
  obtain ⟨ended, more, hgoal, rfl, hends⟩ := h
  refine ⟨ended, more, ?_, rfl, hends.later hflag⟩
  have hfine : ¬Fine signals → ¬Fine (signal :: signals) := fun hnot hall => hnot hall.tail
  cases hgoal with
  | finished => exact .finished
  | threw h => exact .threw (hfine h)
  | granted id => exact .granted id
  | taken id h => exact .taken id (hfine h)
  | restored id => exact .restored id

theorem Sets.alike {first second : AudioService} {goal : Goal} {acts acts' : List Act}
    (h : Sets pass second goal acts acts' after) (halike : Alike first second) :
    Sets pass first goal acts acts' after := by
  obtain ⟨ended, more, hgoal, rfl, hends⟩ := h
  have hended : ∃ other, GoalEnds first (Fine pass.signals) goal other more ∧
      Alike other ended := by
    cases hgoal with
    | finished => exact ⟨_, .finished, halike⟩
    | threw h => exact ⟨_, .threw h, halike⟩
    | granted id => exact ⟨_, .granted id, { halike with handles := by simp [halike.handles] }⟩
    | taken id h =>
      exact ⟨_, .taken id h, { halike with
        focusRequests := by simp [revoke, halike.focusRequests] }⟩
    | restored id => exact ⟨_, .restored id, halike⟩
  obtain ⟨other, hgoal, hother⟩ := hended
  exact ⟨other, more, hgoal, rfl, hother.trans hends.alike, hends.records, hends.fine⟩

variable {service : ProjectionService} {superseded : Bool} {audio : AudioService}
  {acts' : List Act} {signals : List Signal}

theorem publish_sets {gains : List (String × ℚ)} {goal : Goal}
    (h : drive service superseded (audio.publish gains goal).1 (audio.publish gains goal).2.1
      (acts ++ (audio.publish gains goal).2.2) signals = some (after, acts')) :
    Sets ⟨service, signals, superseded⟩ audio goal acts acts' after := by
  cases goal with
  | finish =>
    obtain ⟨rfl, hends⟩ := drive_none h
    exact ⟨_, _, .finished, rfl, { hends with alike := { hends.alike with } }⟩
  | grant id =>
    obtain ⟨rfl, hends⟩ := drive_none h
    exact ⟨_, _, .granted id, rfl, { hends with alike := { hends.alike with } }⟩
  | restore id =>
    obtain ⟨rfl, hends⟩ := drive_none h
    exact ⟨_, _, .restored id, rfl, { hends with alike := { hends.alike with } }⟩

/-- The goal is reached whatever the native calls answer, in one way or another. -/
theorem drive_sets {rest gains : List (String × ℚ)} {goal : Goal}
    (h : drive service superseded audio (some (.gaining rest gains goal)) acts signals =
      some (after, acts')) : Sets ⟨service, signals, superseded⟩ audio goal acts acts' after := by
  induction signals generalizing superseded audio rest gains goal acts with
  | nil => exact nomatch h
  | cons signal signals ih =>
    cases signal with
    | backend routing =>
      exact ((ih h).alike (alike_routing audio routing)).later fun _ => rfl
    | snapshot => exact (ih h).later fun hne => absurd rfl hne
    | reply ok =>
      have hbroken : ¬Fine (.reply false :: signals) :=
        fun hfine => (hfine _ (List.mem_cons_self ..)).1 rfl
      cases ok with
      | true =>
        cases rest with
        | nil => exact (publish_sets h).later fun _ => rfl
        | cons gain rest =>
          have hsets : Sets ⟨service, signals, _⟩ _ _ (acts ++ []) _ _ := ih h
          rw [List.append_nil] at hsets
          exact hsets.later fun _ => rfl
      | false =>
        cases goal with
        | finish =>
          obtain ⟨rfl, hends⟩ := drive_none h
          exact ⟨audio, _, .threw hbroken, rfl, hends.later fun _ => rfl⟩
        | restore id =>
          obtain ⟨rfl, hends⟩ := drive_none h
          exact ⟨audio, _, .restored id, rfl, hends.later fun _ => rfl⟩
        | grant id =>
          have hsets : Sets ⟨service, signals, superseded⟩ (audio.revoke id) (.restore id) acts
              acts' after := by
            simp only [drive, goOn, Bool.false_eq_true, if_false, gainFailed, recompute] at h
            split_ifs at h
            · generalize (audio.revoke id).gains = todo at h
              cases todo with
              | nil => exact publish_sets h
              | cons gain todo =>
                have hsets : Sets ⟨service, signals, _⟩ _ _ (acts ++ []) _ _ := ih h
                rwa [List.append_nil] at hsets
            · exact publish_sets h
          obtain ⟨ended, more, hgoal, rfl, hends⟩ := hsets
          cases hgoal
          exact ⟨_, _, .taken id hbroken, rfl, hends.later fun _ => rfl⟩

theorem recompute_sets {goal : Goal}
    (h : drive service superseded (audio.recompute goal).1 (audio.recompute goal).2.1
      (acts ++ (audio.recompute goal).2.2) signals = some (after, acts')) :
    Sets ⟨service, signals, superseded⟩ audio goal acts acts' after := by
  unfold recompute at h
  split at h
  · generalize audio.gains = todo at h
    cases todo with
    | nil => exact publish_sets h
    | cons gain todo =>
      have hsets : Sets ⟨service, signals, superseded⟩ audio goal (acts ++ []) acts' after :=
        drive_sets h
      rwa [List.append_nil] at hsets
  · exact publish_sets h

theorem perform_start {called : AudioService.Call} (operation : Op) {audio : AudioService}
    (hcall : call ⟨pass.service.audio, [], none⟩ called = (⟨audio, [operation], none⟩, []))
    (h : pass.perform called = some (after, acts)) :
    drive pass.service pass.superseded (audio.start operation).1 (audio.start operation).2.1
      ([] ++ (audio.start operation).2.2) pass.signals = some (after, acts) := by
  unfold perform at h
  rw [hcall] at h
  exact h

theorem perform_registerSource {source : AudioSource}
    (h : pass.perform (.registerSource source) = some (after, acts)) :
    if (pass.service.audio.registration? source.id).isSome then
      acts = [.threw] ∧ Ends pass pass.service.audio after
    else acts = [.completed] ∧ Ends pass (pass.service.audio.register source) after := by
  have hdrive := perform_start (.registerSource source) rfl h
  simp only [start] at hdrive
  split_ifs at hdrive ⊢
  · exact drive_none hdrive
  · exact drive_none hdrive

/-- How an operation ends that recomputes the gains and answers nothing else. -/
def Finishes (pass : AudioPass) (audio : AudioService) (acts : List Act) (after : AudioPass) :
    Prop :=
  Ends pass audio after ∧ (acts = [.completed] ∨ acts = [.threw]) ∧
    (Fine pass.signals → acts = [.completed])

theorem Sets.finishes {audio : AudioService} (h : Sets pass audio .finish [] acts after) :
    Finishes pass audio acts after := by
  obtain ⟨ended, more, hgoal, rfl, hends⟩ := h
  cases hgoal with
  | finished => exact ⟨hends, Or.inl rfl, fun _ => rfl⟩
  | threw hnot => exact ⟨hends, Or.inr rfl, fun hfine => absurd hfine hnot⟩

theorem perform_setSourceActive {id : String} {active : Bool}
    (h : pass.perform (.setSourceActive id active) = some (after, acts)) :
    if (pass.service.audio.registration? id).isSome then
      Finishes pass (pass.service.audio.setActive id active) acts after
    else acts = [.threw] ∧ Ends pass pass.service.audio after := by
  have hdrive := perform_start (.setSourceActive id active) rfl h
  simp only [start] at hdrive
  split_ifs at hdrive ⊢
  · exact (recompute_sets hdrive).finishes
  · exact drive_none hdrive

theorem drive_muting {id : String}
    (h : drive service superseded audio (some (.muting id)) [] signals = some (after, acts)) :
    Finishes ⟨service, signals, superseded⟩ (audio.unregister id) acts after ∨
      (¬Fine signals ∧ acts = [.threw] ∧ Ends ⟨service, signals, superseded⟩ audio after) := by
  induction signals generalizing superseded audio with
  | nil => exact nomatch h
  | cons signal signals ih =>
    have hlater : ∀ {flag : Bool} {audio audio' : AudioService}, Alike audio audio' →
        (signal ≠ .snapshot → flag = superseded) →
        (Finishes ⟨service, signals, flag⟩ (audio'.unregister id) acts after ∨
          (¬Fine signals ∧ acts = [.threw] ∧ Ends ⟨service, signals, flag⟩ audio' after)) →
        Finishes ⟨service, signal :: signals, superseded⟩ (audio.unregister id) acts after ∨
          (¬Fine (signal :: signals) ∧ acts = [.threw] ∧
            Ends ⟨service, signal :: signals, superseded⟩ audio after) := by
      intro flag audio audio' halike hflag h
      rcases h with ⟨hends, hacts, hok⟩ | ⟨hnot, hacts, hends⟩
      · refine Or.inl ⟨?_, hacts, fun hfine => hok hfine.tail⟩
        have hgone : Alike (audio.unregister id) (audio'.unregister id) :=
          ⟨by simp [unregister, halike.sources], by simp [unregister, halike.activeSources],
            by simp [unregister, halike.focusRequests], halike.nextFocusId, halike.handles,
            halike.releasing⟩
        exact { hends.later hflag with alike := hgone.trans hends.alike }
      · refine Or.inr ⟨fun hfine => hnot hfine.tail, hacts, ?_⟩
        exact { hends.later hflag with alike := halike.trans hends.alike }
    cases signal with
    | backend routing => exact hlater (alike_routing audio routing) (fun _ => rfl) (ih h)
    | snapshot => exact hlater (.refl _) (fun hne => absurd rfl hne) (ih h)
    | reply ok =>
      cases ok with
      | true =>
        have hsets : Sets ⟨service, signals, superseded⟩ (audio.unregister id) .finish [] acts after :=
          recompute_sets h
        exact hlater (.refl _) (fun _ => rfl) (Or.inl hsets.finishes)
      | false =>
        obtain ⟨hacts, hends⟩ := drive_none h
        obtain rfl : acts = [.threw] := hacts
        exact Or.inr ⟨fun hfine => (hfine _ (List.mem_cons_self ..)).1 rfl, rfl,
          hends.later fun _ => rfl⟩

theorem perform_unregisterSource {id : String}
    (h : pass.perform (.unregisterSource id) = some (after, acts)) :
    Finishes pass (pass.service.audio.unregister id) acts after ∨
      (¬Fine pass.signals ∧ acts = [.threw] ∧ Ends pass pass.service.audio after) := by
  have hdrive := perform_start (.unregisterSource id) rfl h
  simp only [start] at hdrive
  split_ifs at hdrive
  · exact drive_muting hdrive
  · exact Or.inl (recompute_sets hdrive).finishes

/-- What the release of a handle leaves, once it has been asked for. -/
def settled (audio : AudioService) (id : ℕ) : AudioService :=
  { audio with
    releasing := audio.releasing ++ [id]
    focusRequests := audio.focusRequests.filter (·.id ≠ id) }

theorem perform_release {id : ℕ} (hheld : id ∈ pass.service.audio.handles)
    (hnew : id ∉ pass.service.audio.releasing)
    (h : pass.perform (.release id) = some (after, acts)) :
    Finishes pass (settled pass.service.audio id) acts after := by
  have hcall : call ⟨pass.service.audio, [], none⟩ (.release id) =
      (⟨{ pass.service.audio with releasing := pass.service.audio.releasing ++ [id] },
        [.releaseFocus id], none⟩, []) := by
    simp only [call, callRelease, hheld, hnew, not_false_eq_true, and_self, if_true]
    rfl
  have hdrive := perform_start _ hcall h
  simp only [start] at hdrive
  split_ifs at hdrive with hany
  · obtain ⟨hends, hacts⟩ := (recompute_sets hdrive).finishes
    exact ⟨⟨{ hends.alike with }, hends.records, hends.fine⟩, hacts⟩
  · obtain ⟨rfl, hends⟩ := drive_none hdrive
    refine ⟨⟨{ hends.alike with focusRequests := ?_ }, hends.records, hends.fine⟩, Or.inl rfl,
      fun _ => rfl⟩
    have hkept : (settled pass.service.audio id).focusRequests = pass.service.audio.focusRequests := by
      refine List.filter_eq_self.mpr fun request hmem => ?_
      rw [decide_eq_true_eq]
      rintro rfl
      exact hany (List.any_eq_true.mpr ⟨request, hmem, by simp⟩)
    rw [hkept]
    exact hends.alike.focusRequests

theorem perform_requestFocus {sourceId : String} {gain : Option UnitGain}
    (h : pass.perform (.requestFocus sourceId (gain.map Subtype.val)) = some (after, acts)) :
    match pass.service.audio.registration? sourceId with
    | none => acts = [.threw] ∧ Ends pass pass.service.audio after
    | some _ => ∃ request : FocusRequest, request.id = pass.service.audio.nextFocusId ∧
        request.sourceId = sourceId ∧
        ((acts = [.returned request.id] ∧ Ends pass { pass.service.audio with
            focusRequests := pass.service.audio.focusRequests ++ [request]
            handles := pass.service.audio.handles ++ [request.id]
            nextFocusId := pass.service.audio.nextFocusId + 1 } after) ∨
          (¬Fine pass.signals ∧ acts = [.refused request.id] ∧ Ends pass
            ({ pass.service.audio with
              focusRequests := pass.service.audio.focusRequests ++ [request]
              nextFocusId := pass.service.audio.nextFocusId + 1 }.revoke request.id) after)) := by
  split
  · rename_i hnone
    have hcall : call ⟨pass.service.audio, [], none⟩
        (.requestFocus sourceId (gain.map Subtype.val)) =
          (⟨pass.service.audio, [], none⟩, [.threw]) := by
      simp only [call, callFocus, hnone]
    unfold perform at h
    rw [hcall] at h
    exact drive_none h
  · rename_i registration hsome
    obtain ⟨value, hvalue⟩ : ∃ value : UnitGain, (gain.map Subtype.val).getD
        (pass.service.audio.policy.gainFor registration.source.role).val = value.val := by
      cases gain with
      | none => exact ⟨_, rfl⟩
      | some value => exact ⟨value, rfl⟩
    refine ⟨⟨pass.service.audio.nextFocusId, sourceId, registration.source.role, value⟩, rfl, rfl, ?_⟩
    have hcall : call ⟨pass.service.audio, [], none⟩
        (.requestFocus sourceId (gain.map Subtype.val)) =
          (⟨{ pass.service.audio with nextFocusId := pass.service.audio.nextFocusId + 1 },
            [.requestFocus ⟨pass.service.audio.nextFocusId, sourceId, registration.source.role,
              value⟩], none⟩, []) := by
      simp only [call, callFocus, hsome, hvalue, dif_pos value.property]
      rfl
    obtain ⟨ended, more, hgoal, rfl, hends⟩ := recompute_sets (perform_start _ hcall h)
    cases hgoal with
    | granted id => exact Or.inl ⟨rfl, { hends.alike with }, hends.records, hends.fine⟩
    | taken id hnot => exact Or.inr ⟨hnot, rfl, { hends.alike with }, hends.records, hends.fine⟩

end AudioPass

/-! ## One source at a time -/

/-- What the two sides know of a source: the audio service whether it is registered and
active and which requests it made, the projection service the rest. -/
structure SourceView where
  registered : Bool
  active : Bool
  requests : List ℕ
  handle : Option AudioFocusHandle
  duckingGain : Option UnitGain
  recorded : Bool
  activity : Option Bool

def ProjectionService.view (service : ProjectionService) (id : String) : SourceView where
  registered := (service.audio.registration? id).isSome
  active := id ∈ service.audio.activeSources
  requests := (service.audio.focusRequests.filter (·.sourceId = id)).map (·.id)
  handle := service.focusHandles id
  duckingGain := service.focusDuckingGains id
  recorded := id ∈ service.registeredAudioSources
  activity := service.sourceActivity id

/-- The request of a handle that was not released. -/
def live : Option AudioFocusHandle → List ℕ
  | some ⟨id, none⟩ => [id]
  | _ => []

structure SourceView.Linked (view : SourceView) : Prop where
  recorded : view.registered → view.recorded
  requests : view.requests = live view.handle
  handle : view.handle.isSome → view.recorded
  activity : view.activity.isSome → view.recorded

/-- Requests have their own ids, and handles that were not released. -/
structure Accounts (audio : AudioService) : Prop where
  nodup : (audio.focusRequests.map (·.id)).Nodup
  below : ∀ request ∈ audio.focusRequests, request.id < audio.nextFocusId
  held : ∀ request ∈ audio.focusRequests,
    request.id ∈ audio.handles ∧ request.id ∉ audio.releasing
  spent : ∀ id ∈ audio.releasing, id < audio.nextFocusId

theorem Accounts.alike {audio second : AudioService} (h : Accounts audio) (halike : AudioPass.Alike audio second) :
    Accounts second := by
  refine ⟨?_, ?_, ?_, ?_⟩
  · rw [halike.focusRequests]
    exact h.nodup
  · rw [halike.focusRequests, halike.nextFocusId]
    exact h.below
  · rw [halike.focusRequests, halike.handles, halike.releasing]
    exact h.held
  · rw [halike.releasing, halike.nextFocusId]
    exact h.spent

theorem Accounts.settled {audio : AudioService} {request : ℕ} (h : Accounts audio)
    (hmem : ∃ asked ∈ audio.focusRequests, asked.id = request) :
    Accounts (AudioPass.settled audio request) := by
  refine ⟨?_, ?_, ?_, ?_⟩
  · exact h.nodup.sublist (List.filter_sublist.map _)
  · exact fun other hother => h.below other (List.mem_filter.mp hother).1
  · intro other hother
    obtain ⟨hother, hne⟩ := List.mem_filter.mp hother
    refine ⟨(h.held other hother).1, ?_⟩
    intro hreleasing
    rcases List.mem_append.mp hreleasing with hreleasing | hlast
    · exact (h.held other hother).2 hreleasing
    · exact of_decide_eq_true hne (List.mem_singleton.mp hlast)
  · intro other hother
    obtain ⟨asked, hasked, rfl⟩ := hmem
    rcases List.mem_append.mp hother with hother | hlast
    · exact h.spent other hother
    · exact List.mem_singleton.mp hlast ▸ h.below asked hasked

structure ProjectionService.Linked (service : ProjectionService) : Prop where
  accounts : Accounts service.audio
  views : ∀ id, (service.view id).Linked

theorem linked_start (routing : Bool) (policy : AudioFocusPolicy) :
    ProjectionService.Linked { audio := { routing := routing, policy := policy } } := by
  refine ⟨⟨by simp, by simp, by simp, by simp⟩, fun id => ?_⟩
  constructor <;> simp [ProjectionService.view, AudioService.registration?, live]

namespace AudioPass

variable {pass after : AudioPass} {acts : List Act} {audio : AudioService} {id other : String}
  {service : ProjectionService}

theorem Ends.view (h : Ends pass audio after) (id : String) :
    after.service.view id = { pass.service with audio := audio }.view id := by
  rw [h.records]
  simp only [ProjectionService.view, AudioService.registration?, h.alike.sources,
    h.alike.activeSources, h.alike.focusRequests]

theorem view_register {source : AudioSource} (id : String) :
    ({ service with audio := service.audio.register source }.view id) =
      if id = source.id then { service.view id with registered := true } else service.view id := by
  have hfind : ((service.audio.register source).registration? id).isSome =
      ((service.audio.registration? id).isSome || decide (source.id = id)) := by
    unfold AudioService.registration? AudioService.register
    rw [List.find?_append, Option.isSome_or]
    by_cases heq : source.id = id <;> simp [heq]
  simp only [ProjectionService.view, hfind]
  split_ifs with heq
  · simp [heq, AudioService.register]
  · have hne : ¬source.id = id := fun h => heq h.symm
    simp only [hne, decide_false, Bool.or_false]
    rfl

theorem view_setActive {active : Bool} (id other : String) :
    ({ service with audio := service.audio.setActive id active }.view other) =
      if other = id then { service.view other with active := active } else service.view other := by
  have hactive : other ∈ (service.audio.setActive id active).activeSources ↔
      if other = id then active = true else other ∈ service.audio.activeSources := by
    by_cases heq : other = id <;> cases active <;> simp [AudioService.setActive, heq]
  simp only [ProjectionService.view, hactive]
  split_ifs with heq
  · simp only [Bool.decide_eq_true]
    rfl
  · rfl

theorem view_unregister (id other : String) :
    ({ service with audio := service.audio.unregister id }.view other) =
      if other = id then { service.view other with
        registered := false, active := false, requests := [] } else service.view other := by
  have hfind : ((service.audio.unregister id).registration? other).isSome =
      (decide (other ≠ id) && (service.audio.registration? other).isSome) := by
    unfold AudioService.registration? AudioService.unregister
    rw [List.find?_filter]
    by_cases heq : other = id
    · subst heq
      simp
    · simp only [heq, ne_eq, not_false_eq_true, decide_true, Bool.true_and]
      congr 2
      funext registration
      by_cases hid : registration.source.id = other <;> simp [hid, heq]
  simp only [ProjectionService.view, hfind]
  split_ifs with heq
  · simp only [heq, ne_eq, not_true_eq_false, decide_false, Bool.false_and, SourceView.mk.injEq,
      true_and, and_true]
    simp only [AudioService.unregister, List.filter_filter]
    simp
  · simp only [ne_eq, heq, not_false_eq_true, decide_true, Bool.true_and, AudioService.unregister,
      SourceView.mk.injEq, true_and, and_true, List.filter_filter]
    constructor
    · simp [heq]
    · congr 2
      funext request
      by_cases hid : request.sourceId = other <;> simp [hid, heq]

theorem view_setHandle (handle : Option AudioFocusHandle) (id other : String) :
    (pass.setHandle id handle).service.view other =
      if other = id then { pass.service.view other with handle := handle }
      else pass.service.view other := by
  split_ifs with heq
  · subst heq
    simp only [setHandle, ProjectionService.view, Function.update_self]
    rfl
  · simp only [setHandle, ProjectionService.view, Function.update_of_ne heq]
    rfl

theorem view_setDuckingGain (gain : Option UnitGain) (id other : String) :
    (pass.setDuckingGain id gain).service.view other =
      if other = id then { pass.service.view other with duckingGain := gain }
      else pass.service.view other := by
  split_ifs with heq
  · subst heq
    simp only [setDuckingGain, ProjectionService.view, Function.update_self]
    rfl
  · simp only [setDuckingGain, ProjectionService.view, Function.update_of_ne heq]
    rfl

theorem view_setActivity (active : Option Bool) (id other : String) :
    (pass.setActivity id active).service.view other =
      if other = id then { pass.service.view other with activity := active }
      else pass.service.view other := by
  split_ifs with heq
  · subst heq
    simp only [setActivity, ProjectionService.view, Function.update_self]
    rfl
  · simp only [setActivity, ProjectionService.view, Function.update_of_ne heq]
    rfl

theorem view_record (id other : String) :
    (pass.setRegistered (pass.service.registeredAudioSources ++ [id])).service.view other =
      if other = id then { pass.service.view other with recorded := true }
      else pass.service.view other := by
  have hmem : other ∈ pass.service.registeredAudioSources ++ [id] ↔
      other ∈ pass.service.registeredAudioSources ∨ other = id := by simp
  simp only [setRegistered, ProjectionService.view, hmem]
  split_ifs with heq
  · simp only [heq, or_true, decide_true]
  · simp only [heq, or_false]
    rfl

theorem view_strike (id other : String) :
    (pass.setRegistered (pass.service.registeredAudioSources.filter (· ≠ id))).service.view other =
      if other = id then { pass.service.view other with recorded := false }
      else pass.service.view other := by
  have hmem : other ∈ pass.service.registeredAudioSources.filter (· ≠ id) ↔
      other ∈ pass.service.registeredAudioSources ∧ other ≠ id := by simp
  simp only [setRegistered, ProjectionService.view, hmem]
  split_ifs with heq
  · simp only [heq, ne_eq, not_true_eq_false, and_false, decide_false]
  · simp only [heq, ne_eq, not_false_eq_true, and_true]
    rfl

/-- What a step for one source does to the others, and to the pass. -/
structure Stage (id : String) (pass after : AudioPass) : Prop where
  linked : after.service.Linked
  frame : ∀ other, other ≠ id → after.service.view other = pass.service.view other
  fine : Fine pass.signals → Fine after.signals ∧ after.superseded = pass.superseded

theorem Stage.refl (id : String) (h : pass.service.Linked) : Stage id pass pass :=
  ⟨h, fun _ _ => rfl, fun h => ⟨h, rfl⟩⟩

theorem Stage.trans {middle : AudioPass} (h : Stage id pass middle) (h' : Stage id middle after) :
    Stage id pass after := by
  refine ⟨h'.linked, fun other hne => (h'.frame other hne).trans (h.frame other hne), ?_⟩
  intro hfine
  obtain ⟨hmiddle, hflag⟩ := h.fine hfine
  obtain ⟨hafter, hflag'⟩ := h'.fine hmiddle
  exact ⟨hafter, hflag'.trans hflag⟩

/-- A source whose own two sides are linked afterwards. -/
theorem Stage.of_view (h : pass.service.Linked) (haccounts : Accounts after.service.audio)
    (hid : (after.service.view id).Linked)
    (hframe : ∀ other, other ≠ id → after.service.view other = pass.service.view other)
    (hfine : Fine pass.signals → Fine after.signals ∧ after.superseded = pass.superseded) :
    Stage id pass after := by
  refine ⟨⟨haccounts, fun other => ?_⟩, hframe, hfine⟩
  by_cases heq : other = id
  · exact heq ▸ hid
  · exact hframe other heq ▸ h.views other

/-- Nothing but signals. -/
theorem Ends.stage (h : Ends pass pass.service.audio after) (hlinked : pass.service.Linked)
    (id : String) : Stage id pass after ∧ after.service.view id = pass.service.view id := by
  have hview : ∀ other, after.service.view other = pass.service.view other := h.view
  exact ⟨.of_view hlinked (hlinked.accounts.alike h.alike) (hview id ▸ hlinked.views id)
    (fun other _ => hview other) h.fine, hview id⟩

theorem view_settled (request : ℕ) (other : String) :
    ({ service with audio := settled service.audio request }.view other) =
      { service.view other with
        requests := (service.view other).requests.filter (· ≠ request) } := by
  have hrequests : ((settled service.audio request).focusRequests.filter
      (·.sourceId = other)).map (·.id) =
      ((service.audio.focusRequests.filter (·.sourceId = other)).map (·.id)).filter
        (· ≠ request) := by
    rw [List.filter_map, settled, List.filter_filter, List.filter_filter]
    congr 2
    funext asked
    simp [Bool.and_comm]
  simp only [ProjectionService.view, hrequests]
  rfl

/-- A request is taken from no other source. -/
theorem view_settled_of_ne {request : FocusRequest} (h : Accounts service.audio)
    (hmem : request ∈ service.audio.focusRequests) (hne : other ≠ request.sourceId) :
    ({ service with audio := settled service.audio request.id }.view other) =
      service.view other := by
  have hkept : (service.view other).requests.filter (· ≠ request.id) =
      (service.view other).requests := by
    refine List.filter_eq_self.mpr fun id hid => ?_
    rw [decide_eq_true_eq]
    rintro rfl
    obtain ⟨asked, hasked, hsame⟩ := List.mem_map.mp hid
    obtain ⟨hasked, hsource⟩ := List.mem_filter.mp hasked
    obtain rfl := List.inj_on_of_nodup_map h.nodup hasked hmem hsame
    exact hne (of_decide_eq_true hsource).symm
  rw [view_settled, hkept]

theorem mem_requests {request : ℕ} (h : request ∈ (service.view id).requests) :
    ∃ asked ∈ service.audio.focusRequests, asked.id = request ∧ asked.sourceId = id := by
  obtain ⟨asked, hasked, rfl⟩ := List.mem_map.mp h
  obtain ⟨hasked, hsource⟩ := List.mem_filter.mp hasked
  exact ⟨asked, hasked, rfl, of_decide_eq_true hsource⟩

/-! ## Releasing -/

/-- A handle that is kept for the source and was not released is the one request that
the source has. -/
theorem release_fresh {handle : AudioFocusHandle} {ok : Bool} {released : AudioFocusHandle}
    {request : FocusRequest} (haccounts : Accounts pass.service.audio)
    (hmem : request ∈ pass.service.audio.focusRequests) (hhandle : handle = ⟨request.id, none⟩)
    (h : pass.release handle = some (after, released, ok)) :
    released = ⟨request.id, some ok⟩ ∧ (Fine pass.signals → ok = true) ∧
      Ends pass (settled pass.service.audio request.id) after := by
  subst hhandle
  obtain ⟨hheld, hnew⟩ := haccounts.held request hmem
  simp only [release, Option.bind_eq_bind, Option.bind_eq_some_iff, Option.some.injEq,
    Prod.mk.injEq] at h
  obtain ⟨⟨pass', acts⟩, hperform, rfl, rfl, rfl⟩ := h
  obtain ⟨hends, -, hok⟩ := perform_release hheld hnew hperform
  refine ⟨rfl, ?_, hends⟩
  intro hfine
  rw [hok hfine]
  rfl

theorem SourceView.eta_requests (view : SourceView) (h : view.requests = []) :
    view = { view with requests := [] } := by
  rw [← h]

/-- Nothing of a handle is left to take back. -/
theorem live_kept (handle : AudioFocusHandle) (ok : Bool) (hfuture : handle.future = some ok) :
    live (if ok then none else some handle) = [] := by
  obtain ⟨id, future⟩ := handle
  subst hfuture
  cases ok <;> rfl

theorem releaseKept_stage {ok : Bool} (hlinked : pass.service.Linked)
    (h : pass.releaseKept id = some (after, ok)) :
    Stage id pass after ∧ live (after.service.view id).handle = [] ∧
      after.service.view id = { pass.service.view id with
        requests := [], handle := (after.service.view id).handle } := by
  have hview := hlinked.views id
  have hrecorded := hview.handle
  unfold releaseKept at h
  cases hhandle : pass.service.focusHandles id with
  | none =>
    rw [hhandle] at h
    obtain ⟨rfl, rfl⟩ := Prod.mk.inj (Option.some.inj h)
    obtain ⟨hstage, hsame⟩ := pass.absorb_ends.stage hlinked id
    have hnone : (pass.service.view id).handle = none := hhandle
    have hrequests := hview.requests
    rw [hnone] at hrequests
    rw [hsame, hnone]
    refine ⟨hstage, rfl, ?_⟩
    rw [← hnone]
    exact SourceView.eta_requests _ hrequests
  | some handle =>
    rw [hhandle] at h
    simp only [Option.bind_eq_bind, Option.bind_eq_some_iff, Option.some.injEq, Prod.mk.injEq] at h
    obtain ⟨⟨pass', released, ok'⟩, hrelease, rfl, rfl⟩ := h
    have hhandle' : (pass.service.view id).handle = some handle := hhandle
    rw [hhandle'] at hrecorded
    -- However the release ends, the request is gone and the rest of the source is as it was.
    have hafter : Accounts pass'.service.audio ∧ released.future = some ok' ∧
        (Fine pass.signals → Fine pass'.signals ∧ pass'.superseded = pass.superseded) ∧
        (∀ other, other ≠ id → pass'.service.view other = pass.service.view other) ∧
        pass'.service.view id = { pass.service.view id with requests := [] } := by
      have hrequests := hview.requests
      rw [hhandle'] at hrequests
      obtain ⟨request, future⟩ := handle
      cases future with
      | some done =>
        obtain ⟨rfl, heq⟩ := Prod.mk.inj (Option.some.inj hrelease)
        obtain ⟨rfl, rfl⟩ := Prod.mk.inj heq
        obtain ⟨hstage, hsame⟩ := pass.absorb_ends.stage hlinked id
        exact ⟨hstage.linked.accounts, rfl, hstage.fine, hstage.frame,
          hsame.trans (SourceView.eta_requests _ hrequests)⟩
      | none =>
        have hmem : request ∈ (pass.service.view id).requests := by
          rw [hrequests]
          exact List.mem_singleton_self _
        obtain ⟨asked, hasked, rfl, rfl⟩ := mem_requests hmem
        obtain ⟨rfl, -, hends⟩ := release_fresh hlinked.accounts hasked rfl hrelease
        refine ⟨(hlinked.accounts.settled ⟨asked, hasked, rfl⟩).alike hends.alike, rfl, hends.fine,
          ?_, ?_⟩
        · intro other hne
          rw [hends.view, view_settled_of_ne hlinked.accounts hasked hne]
        · rw [hends.view, view_settled, hrequests]
          simp [live]
    obtain ⟨haccounts, hfuture, hfine, hframe, hid⟩ := hafter
    have hsplit := @view_setHandle pass' (if ok' then none else some released) id
    have hmine : (pass'.setHandle id (if ok' then none else some released)).service.view id =
        { pass.service.view id with
          requests := [], handle := if ok' then none else some released } := by
      rw [hsplit, if_pos rfl, hid]
    refine ⟨.of_view hlinked haccounts ?_ ?_ hfine, ?_, ?_⟩
    · rw [hmine]
      exact ⟨hview.recorded, (live_kept released ok' hfuture).symm, fun _ => hrecorded rfl,
        hview.activity⟩
    · intro other hne
      rw [hsplit, if_neg hne, hframe other hne]
    · rw [hmine]
      exact live_kept released ok' hfuture
    · rw [hmine]

theorem accounts_unregister (id : String) (h : Accounts audio) : Accounts (audio.unregister id) := by
  refine ⟨h.nodup.sublist (List.filter_sublist.map _), ?_, ?_, h.spent⟩
  · exact fun request hmem => h.below request (List.mem_filter.mp hmem).1
  · exact fun request hmem => h.held request (List.mem_filter.mp hmem).1

theorem releaseSource_stage {ok : Bool} (hlinked : pass.service.Linked)
    (h : pass.releaseSource id = some (after, ok)) :
    Stage id pass after ∧ (Fine pass.signals →
      (after.service.view id).registered = false ∧ (after.service.view id).requests = []) := by
  simp only [releaseSource, Option.bind_eq_bind, Option.bind_eq_some_iff] at h
  obtain ⟨⟨middle, released⟩, hkept, ⟨pass', acts⟩, hperform, h⟩ := h
  obtain ⟨hstage, hlive, -⟩ := releaseKept_stage hlinked hkept
  dsimp only at hperform h
  have hview := hstage.linked.views id
  rcases perform_unregisterSource hperform with ⟨hends, hacts, hok⟩ | ⟨hnot, rfl, hends⟩
  · have hid : pass'.service.view id = { middle.service.view id with
        registered := false, active := false, requests := [] } := by
      rw [hends.view, view_unregister, if_pos rfl]
    have hstage' : Stage id middle pass' := by
      refine .of_view hstage.linked ?_ ?_ ?_ hends.fine
      · exact (accounts_unregister id hstage.linked.accounts).alike hends.alike
      · rw [hid]
        exact ⟨nofun, hlive.symm, hview.handle, hview.activity⟩
      · intro other hne
        rw [hends.view, view_unregister, if_neg hne]
    split_ifs at h with hcompleted
    · obtain ⟨rfl, rfl⟩ := Prod.mk.inj (Option.some.inj h)
      have hstruck : Stage id pass' (((pass'.setRegistered
          (pass'.service.registeredAudioSources.filter (· ≠ id))).setDuckingGain id none).setActivity
            id none |>.setHandle id none) := by
        refine .of_view hstage'.linked hstage'.linked.accounts ?_ ?_ fun hfine => ⟨hfine, rfl⟩
        · rw [view_setHandle, if_pos rfl, view_setActivity, if_pos rfl, view_setDuckingGain,
            if_pos rfl, view_strike, if_pos rfl, hid]
          exact ⟨nofun, rfl, nofun, nofun⟩
        · intro other hne
          rw [view_setHandle, if_neg hne, view_setActivity, if_neg hne, view_setDuckingGain,
            if_neg hne, view_strike, if_neg hne]
      refine ⟨(hstage.trans hstage').trans hstruck, fun _ => ?_⟩
      rw [view_setHandle, if_pos rfl, view_setActivity, if_pos rfl, view_setDuckingGain,
        if_pos rfl, view_strike, if_pos rfl, hid]
      exact ⟨rfl, rfl⟩
    · obtain ⟨rfl, rfl⟩ := Prod.mk.inj (Option.some.inj h)
      refine ⟨hstage.trans hstage', fun hfine => ?_⟩
      rw [hid]
      exact ⟨rfl, rfl⟩
  · rw [if_neg (by simp)] at h
    obtain ⟨rfl, rfl⟩ := Prod.mk.inj (Option.some.inj h)
    exact ⟨hstage.trans (hends.stage hstage.linked id).1,
      fun hfine => absurd (hstage.fine hfine).1 hnot⟩

/-! ## Registering and activating -/

variable {entry : AudioEntry} {progress : Progress}

/-- A source that is not on record is registered, if its id may be. -/
theorem registerStream_stage (hlinked : pass.service.Linked)
    (h : pass.registerStream entry = some (after, progress)) :
    Stage entry.sourceId pass after ∧
      if (pass.service.view entry.sourceId).recorded then after = pass ∧ progress = .through
      else if isStableId entry.sourceId then
        after.service.view entry.sourceId = { pass.service.view entry.sourceId with
          registered := true, recorded := true } ∧ progress = .through
      else after = pass ∧ progress = .failed := by
  have hview := hlinked.views entry.sourceId
  have hmem : (pass.service.view entry.sourceId).recorded = true ↔
      entry.sourceId ∈ pass.service.registeredAudioSources := decide_eq_true_iff
  unfold registerStream at h
  split_ifs at h with hrecorded hstable
  · obtain ⟨rfl, rfl⟩ := Prod.mk.inj (Option.some.inj h)
    rw [if_pos (hmem.mpr hrecorded)]
    exact ⟨.refl _ hlinked, rfl, rfl⟩
  · rw [if_neg (mt hmem.mp hrecorded), if_pos hstable]
    have hnew : ¬(pass.service.audio.registration? entry.sourceId).isSome :=
      fun hsome => hrecorded (hmem.mp (hview.recorded hsome))
    simp only [Option.bind_eq_bind, Option.bind_eq_some_iff] at h
    obtain ⟨⟨pass', acts⟩, hperform, h⟩ := h
    have hends := perform_registerSource hperform
    change if (pass.service.audio.registration? entry.sourceId).isSome then _ else _ at hends
    rw [if_neg hnew] at hends
    obtain ⟨rfl, hends⟩ := hends
    rw [if_pos (by simp)] at h
    obtain ⟨rfl, rfl⟩ := Prod.mk.inj (Option.some.inj h)
    have hmine : (pass'.setRegistered (pass'.service.registeredAudioSources ++
        [entry.sourceId])).service.view entry.sourceId = { pass.service.view entry.sourceId with
          registered := true, recorded := true } := by
      rw [view_record, if_pos rfl, hends.view, view_register]
      exact if_pos rfl ▸ rfl
    have haccounts : Accounts (pass.service.audio.register entry.source) :=
      { hlinked.accounts with }
    refine ⟨.of_view hlinked (haccounts.alike hends.alike) ?_ ?_ hends.fine, hmine, rfl⟩
    · rw [hmine]
      exact ⟨fun _ => rfl, hview.requests, fun _ => rfl, fun _ => rfl⟩
    · intro other hne
      rw [view_record, if_neg hne, hends.view, view_register]
      exact if_neg hne
  · obtain ⟨rfl, rfl⟩ := Prod.mk.inj (Option.some.inj h)
    rw [if_neg (mt hmem.mp hrecorded), if_neg hstable]
    exact ⟨.refl _ hlinked, rfl, rfl⟩

/-- A source that is registered becomes as active as the stream, unless that is on record. -/
theorem activateStream_stage (hlinked : pass.service.Linked)
    (h : pass.activateStream entry = some (after, progress)) :
    Stage entry.sourceId pass after ∧
      if (pass.service.view entry.sourceId).activity = some entry.stream.active then
        after = pass ∧ progress = .through
      else if (pass.service.view entry.sourceId).registered then
        Fine pass.signals → after.service.view entry.sourceId =
          { pass.service.view entry.sourceId with
            active := entry.stream.active, activity := some entry.stream.active } ∧
          progress = .through
      else after.service.view entry.sourceId = pass.service.view entry.sourceId ∧
        progress = .failed := by
  have hview := hlinked.views entry.sourceId
  unfold activateStream at h
  have hrecord : (pass.service.view entry.sourceId).activity =
      pass.service.sourceActivity entry.sourceId := rfl
  rw [hrecord]
  split_ifs at h ⊢ with hactivity hregistered
  · obtain ⟨rfl, rfl⟩ := Prod.mk.inj (Option.some.inj h)
    exact ⟨.refl _ hlinked, rfl, rfl⟩
  all_goals
    simp only [Option.bind_eq_bind, Option.bind_eq_some_iff] at h
    obtain ⟨⟨pass', acts⟩, hperform, h⟩ := h
    have hends := perform_setSourceActive hperform
  · change (pass.service.audio.registration? entry.sourceId).isSome = true at hregistered
    rw [if_pos hregistered] at hends
    obtain ⟨hends, hacts, hok⟩ := hends
    have hset : pass'.service.view entry.sourceId =
        { pass.service.view entry.sourceId with active := entry.stream.active } := by
      rw [hends.view, view_setActive, if_pos rfl]
    have haccounts : Accounts (pass.service.audio.setActive entry.sourceId entry.stream.active) :=
      { hlinked.accounts with }
    have hstage : Stage entry.sourceId pass pass' := by
      refine .of_view hlinked (haccounts.alike hends.alike) ?_ ?_ hends.fine
      · rw [hset]
        exact ⟨hview.recorded, hview.requests, hview.handle, hview.activity⟩
      · intro other hne
        rw [hends.view, view_setActive, if_neg hne]
    rcases hacts with rfl | rfl
    · rw [if_pos (by simp)] at h
      obtain ⟨rfl, rfl⟩ := Prod.mk.inj (Option.some.inj h)
      have hmine : (pass'.setActivity entry.sourceId (some entry.stream.active)).service.view
          entry.sourceId = { pass.service.view entry.sourceId with
            active := entry.stream.active, activity := some entry.stream.active } := by
        rw [view_setActivity, if_pos rfl, hset]
      refine ⟨hstage.trans (.of_view hstage.linked hstage.linked.accounts ?_ ?_
        fun hfine => ⟨hfine, rfl⟩), fun _ => ⟨hmine, rfl⟩⟩
      · rw [hmine]
        exact ⟨hview.recorded, hview.requests, hview.handle, fun _ => hview.recorded hregistered⟩
      · intro other hne
        rw [view_setActivity, if_neg hne]
    · rw [if_neg (by simp)] at h
      obtain ⟨rfl, rfl⟩ := Prod.mk.inj (Option.some.inj h)
      exact ⟨hstage, fun hfine => nomatch hok hfine⟩
  · change ¬(pass.service.audio.registration? entry.sourceId).isSome = true at hregistered
    rw [if_neg hregistered] at hends
    obtain ⟨rfl, hends⟩ := hends
    rw [if_neg (by simp)] at h
    obtain ⟨rfl, rfl⟩ := Prod.mk.inj (Option.some.inj h)
    obtain ⟨hstage, hsame⟩ := hends.stage hlinked entry.sourceId
    exact ⟨hstage, hsame, rfl⟩

/-! ## Focus -/

/-- The tables once a request is granted. -/
def grantedTo (audio : AudioService) (request : FocusRequest) : AudioService :=
  { audio with
    focusRequests := audio.focusRequests ++ [request]
    handles := audio.handles ++ [request.id]
    nextFocusId := audio.nextFocusId + 1 }

theorem accounts_grantedTo {request : FocusRequest} (h : Accounts audio)
    (hid : request.id = audio.nextFocusId) : Accounts (grantedTo audio request) := by
  refine ⟨?_, ?_, ?_, fun id hid => Nat.lt_succ_of_lt (h.spent id hid)⟩
  · rw [grantedTo, List.map_append]
    refine List.nodup_append.mpr ⟨h.nodup, List.nodup_singleton _, ?_⟩
    intro id hmem other hother
    obtain ⟨asked, hasked, rfl⟩ := List.mem_map.mp hmem
    have hbelow := h.below asked hasked
    rw [← hid] at hbelow
    rw [List.mem_singleton.mp hother]
    exact Nat.ne_of_lt hbelow
  · intro other hother
    rcases List.mem_append.mp hother with hother | hother
    · exact Nat.lt_succ_of_lt (h.below other hother)
    · rw [List.mem_singleton.mp hother, hid]
      exact Nat.lt_succ_self _
  · intro other hother
    rcases List.mem_append.mp hother with hother | hother
    · exact ⟨List.mem_append_left _ (h.held other hother).1, (h.held other hother).2⟩
    · rw [List.mem_singleton.mp hother]
      refine ⟨List.mem_append_right _ (List.mem_singleton_self _), ?_⟩
      intro hreleasing
      exact Nat.lt_irrefl _ (hid ▸ h.spent _ hreleasing)

theorem view_grantedTo (request : FocusRequest) (other : String) :
    ({ service with audio := grantedTo service.audio request }.view other) =
      if other = request.sourceId then { service.view other with
        requests := (service.view other).requests ++ [request.id] } else service.view other := by
  have hrequests : ((grantedTo service.audio request).focusRequests.filter
      (·.sourceId = other)).map (·.id) =
      (service.view other).requests ++ if other = request.sourceId then [request.id] else [] := by
    rw [grantedTo, List.filter_append, List.map_append]
    by_cases heq : other = request.sourceId
    · simp [heq, ProjectionService.view]
    · have hne : ¬request.sourceId = other := fun h => heq h.symm
      simp [hne, heq, ProjectionService.view]
  unfold ProjectionService.view
  dsimp only
  rw [hrequests]
  split_ifs
  · rfl
  · rw [List.append_nil]
    rfl

/-- A request that is taken back leaves the tables as they were. -/
theorem alike_taken {request : FocusRequest} (h : Accounts audio)
    (hid : request.id = audio.nextFocusId) :
    Alike { audio with nextFocusId := audio.nextFocusId + 1 }
      ({ audio with
        focusRequests := audio.focusRequests ++ [request]
        nextFocusId := audio.nextFocusId + 1 }.revoke request.id) := by
  refine ⟨rfl, rfl, ?_, rfl, rfl, rfl⟩
  change (audio.focusRequests ++ [request]).filter (·.id ≠ request.id) = audio.focusRequests
  rw [List.filter_append, List.filter_eq_self.mpr]
  · simp
  · intro other hother
    exact decide_eq_true (Nat.ne_of_lt (hid ▸ h.below other hother))

/-- What is released once there is a new handle, and what is left then. -/
theorem release_previous {middle : AudioPass} {request : ℕ} {previous : Option AudioFocusHandle}
    (h : match previous with
      | none => after = middle.absorb
      | some handle => ∃ released ok, middle.release handle = some (after, released, ok))
    (haccounts : Accounts middle.service.audio) (hprevious : request ∉ live previous)
    (hrequests : (middle.service.view id).requests = live previous ++ [request]) :
    Accounts after.service.audio ∧
      (Fine middle.signals → Fine after.signals ∧ after.superseded = middle.superseded) ∧
      (∀ other, other ≠ id → after.service.view other = middle.service.view other) ∧
      after.service.view id = { middle.service.view id with requests := [request] } := by
  have habsorb : live previous = [] → after = middle.absorb →
      Accounts after.service.audio ∧
        (Fine middle.signals → Fine after.signals ∧ after.superseded = middle.superseded) ∧
        (∀ other, other ≠ id → after.service.view other = middle.service.view other) ∧
        after.service.view id = { middle.service.view id with requests := [request] } := by
    rintro hnone rfl
    have hends := middle.absorb_ends
    have hview : ∀ other, middle.absorb.service.view other = middle.service.view other :=
      hends.view
    refine ⟨haccounts.alike hends.alike, hends.fine, fun other _ => hview other, ?_⟩
    rw [hnone, List.nil_append] at hrequests
    rw [hview, ← hrequests]
  cases previous with
  | none => exact habsorb rfl h
  | some handle =>
    obtain ⟨released, ok, h⟩ := h
    obtain ⟨old, future⟩ := handle
    cases future with
    | some done => exact habsorb rfl (Prod.mk.inj (Option.some.inj h)).1.symm
    | none =>
      have hmem : old ∈ (middle.service.view id).requests := by
        rw [hrequests]
        exact List.mem_append_left _ (List.mem_singleton_self _)
      obtain ⟨asked, hasked, rfl, rfl⟩ := mem_requests hmem
      obtain ⟨-, -, hends⟩ := release_fresh haccounts hasked rfl h
      refine ⟨(haccounts.settled ⟨asked, hasked, rfl⟩).alike hends.alike, hends.fine, ?_, ?_⟩
      · intro other hne
        rw [hends.view, view_settled_of_ne haccounts hasked hne]
      · have hne : request ≠ asked.id := fun heq => hprevious (heq ▸ List.mem_singleton_self _)
        rw [hends.view, view_settled, hrequests]
        simp [live, hne]

theorem acquireFocus_stage (hlinked : pass.service.Linked)
    (h : pass.acquireFocus entry = some (after, progress)) :
    Stage entry.sourceId pass after ∧
      (after.service.view entry.sourceId).registered =
        (pass.service.view entry.sourceId).registered ∧
      (after.service.view entry.sourceId).active = (pass.service.view entry.sourceId).active ∧
      ((pass.service.view entry.sourceId).registered → Fine pass.signals →
        (after.service.view entry.sourceId).requests ≠ []) := by
  have hview := hlinked.views entry.sourceId
  simp only [acquireFocus, Option.bind_eq_bind, Option.bind_eq_some_iff] at h
  obtain ⟨⟨pass', acts⟩, hperform, h⟩ := h
  have hends := perform_requestFocus hperform
  split at hends
  · rename_i hnone
    obtain ⟨rfl, hends⟩ := hends
    obtain ⟨rfl, rfl⟩ := Prod.mk.inj (Option.some.inj h)
    obtain ⟨hstage, hsame⟩ := hends.stage hlinked entry.sourceId
    refine ⟨hstage, by rw [hsame], by rw [hsame], ?_⟩
    intro hregistered
    change (pass.service.audio.registration? entry.sourceId).isSome = true at hregistered
    rw [hnone] at hregistered
    exact nomatch hregistered
  · rename_i registration hsome
    obtain ⟨request, hid, hsource, ⟨rfl, hends⟩ | ⟨hnot, rfl, hends⟩⟩ := hends
    · change Ends pass (grantedTo pass.service.audio request) pass' at hends
      simp only [grantedHandle] at h
      generalize hmiddle : (if entry.phoneGain.isSome = true then
        (pass'.setHandle entry.sourceId (some ⟨request.id, none⟩)).setDuckingGain entry.sourceId
          entry.phoneGain else pass'.setHandle entry.sourceId (some ⟨request.id, none⟩)) = middle at h
      -- The new handle is on record, and the source has its request besides the old one.
      have hset : middle.service.audio = pass'.service.audio ∧ middle.signals = pass'.signals ∧
          middle.superseded = pass'.superseded ∧
          (∀ other, other ≠ entry.sourceId →
            middle.service.view other = pass'.service.view other) ∧
          ∃ gain, middle.service.view entry.sourceId = { pass'.service.view entry.sourceId with
            handle := some ⟨request.id, none⟩, duckingGain := gain } := by
        subst hmiddle
        split_ifs
        · refine ⟨rfl, rfl, rfl, ?_, entry.phoneGain, ?_⟩
          · intro other hne
            rw [view_setDuckingGain, if_neg hne, view_setHandle, if_neg hne]
          · rw [view_setDuckingGain, if_pos rfl, view_setHandle, if_pos rfl]
        · refine ⟨rfl, rfl, rfl, ?_, (pass'.service.view entry.sourceId).duckingGain, ?_⟩
          · intro other hne
            rw [view_setHandle, if_neg hne]
          · rw [view_setHandle, if_pos rfl]
      obtain ⟨haudio, hsignals, hflag, hothers, gain, hmine⟩ := hset
      have hgranted : pass'.service.view entry.sourceId = { pass.service.view entry.sourceId with
          requests := (pass.service.view entry.sourceId).requests ++ [request.id] } := by
        rw [hends.view, view_grantedTo, if_pos hsource.symm]
      have haccounts : Accounts middle.service.audio := by
        rw [haudio]
        exact (accounts_grantedTo hlinked.accounts hid).alike hends.alike
      have hrequests : (middle.service.view entry.sourceId).requests =
          live (pass.service.focusHandles entry.sourceId) ++ [request.id] := by
        rw [hmine, hgranted]
        exact congrArg (· ++ [request.id]) hview.requests
      have hprevious : request.id ∉ live (pass.service.focusHandles entry.sourceId) := by
        intro hmem
        obtain ⟨asked, hasked, heq, -⟩ := mem_requests
          (show request.id ∈ (pass.service.view entry.sourceId).requests from hview.requests ▸ hmem)
        exact absurd (hlinked.accounts.below asked hasked) (by omega)
      have hsteps : match pass.service.focusHandles entry.sourceId with
          | none => after = middle.absorb
          | some handle => ∃ released ok, middle.release handle = some (after, released, ok) := by
        have hhandles : pass'.service.focusHandles = pass.service.focusHandles := by
          rw [hends.records]
        rw [hhandles] at h
        cases hold : pass.service.focusHandles entry.sourceId with
        | none =>
          rw [hold] at h
          exact (Prod.mk.inj (Option.some.inj h)).1.symm
        | some handle =>
          rw [hold] at h
          simp only [Option.bind_eq_some_iff] at h
          obtain ⟨⟨last, released, ok⟩, hrelease, h⟩ := h
          obtain ⟨rfl, -⟩ := Prod.mk.inj (Option.some.inj h)
          exact ⟨released, ok, hrelease⟩
      obtain ⟨haccounts, hfine, hframe, hlast⟩ :=
        release_previous hsteps haccounts hprevious hrequests
      rw [hmine, hgranted] at hlast
      refine ⟨.of_view hlinked haccounts ?_ ?_ ?_, by rw [hlast], by rw [hlast], ?_⟩
      · rw [hlast]
        have hrecorded := hview.recorded (by
          change (pass.service.audio.registration? entry.sourceId).isSome = true
          rw [hsome]
          rfl)
        exact ⟨fun _ => hrecorded, rfl, fun _ => hrecorded, hview.activity⟩
      · intro other hne
        rw [hframe other hne, hothers other hne, hends.view, view_grantedTo,
          if_neg (hsource ▸ hne)]
      · intro hall
        obtain ⟨hrest, heq⟩ := hends.fine hall
        obtain ⟨hrest, heq'⟩ := hfine (hsignals ▸ hrest)
        exact ⟨hrest, heq'.trans (hflag.trans heq)⟩
      · intro _ _
        rw [hlast]
        exact List.cons_ne_nil _ _
    · obtain ⟨rfl, rfl⟩ := Prod.mk.inj (Option.some.inj h)
      have halike := (alike_taken hlinked.accounts hid).trans hends.alike
      have haccounts : Accounts { pass.service.audio with
          nextFocusId := pass.service.audio.nextFocusId + 1 } :=
        { hlinked.accounts with
          below := fun asked hasked => Nat.lt_succ_of_lt (hlinked.accounts.below asked hasked)
          spent := fun id hmem => Nat.lt_succ_of_lt (hlinked.accounts.spent id hmem) }
      have hends : Ends pass { pass.service.audio with
          nextFocusId := pass.service.audio.nextFocusId + 1 } pass' :=
        ⟨halike, hends.records, hends.fine⟩
      have hsame : ∀ other, pass'.service.view other = pass.service.view other := hends.view
      refine ⟨.of_view hlinked (haccounts.alike halike) ?_ (fun other _ => hsame other)
        hends.fine, ?_, ?_, fun _ hfine => absurd hfine hnot⟩
      · rw [hsame]
        exact hview
      · rw [hsame]
      · rw [hsame]

theorem focusStream_stage (hlinked : pass.service.Linked)
    (h : pass.focusStream entry = some (after, progress)) :
    Stage entry.sourceId pass after ∧
      (after.service.view entry.sourceId).registered =
        (pass.service.view entry.sourceId).registered ∧
      (after.service.view entry.sourceId).active = (pass.service.view entry.sourceId).active ∧
      if pass.asksFocus entry then (pass.service.view entry.sourceId).registered →
        Fine pass.signals → (after.service.view entry.sourceId).requests ≠ []
      else if entry.wantsFocus then after = pass
      else (after.service.view entry.sourceId).requests = [] := by
  unfold focusStream at h
  split_ifs at h ⊢ with hasks hwants
  · exact acquireFocus_stage hlinked h
  · obtain ⟨rfl, -⟩ := Prod.mk.inj (Option.some.inj h)
    exact ⟨.refl _ hlinked, rfl, rfl, rfl⟩
  · simp only [Option.bind_eq_bind, Option.bind_eq_some_iff] at h
    obtain ⟨⟨pass', ok⟩, hkept, h⟩ := h
    obtain rfl : pass' = after := by
      cases ok <;> exact (Prod.mk.inj (Option.some.inj h)).1
    obtain ⟨hstage, -, hmine⟩ := releaseKept_stage hlinked hkept
    exact ⟨hstage, by rw [hmine], by rw [hmine], by rw [hmine]⟩

end AudioPass

/-! ## One stream -/

/-- The source is as its stream wants it. -/
def AudioEntry.Settled (entry : AudioEntry) (view : SourceView) : Prop :=
  view.registered = true ∧ view.active = entry.stream.active ∧
    (view.requests ≠ [] ↔ entry.wantsFocus = true)

/-- Nothing on record keeps a pass from doing what the stream wants. -/
structure AudioEntry.Ready (entry : AudioEntry) (view : SourceView) : Prop where
  registered : view.recorded → view.registered
  stable : ¬view.recorded → isStableId entry.sourceId
  active : view.activity = some entry.stream.active → view.active = entry.stream.active
  focus : entry.wantsFocus → ∀ handle, view.handle = some handle → handle.future ≠ none →
    entry.phoneGain.isSome ∧ view.duckingGain ≠ entry.phoneGain

namespace AudioPass

variable {pass after : AudioPass} {entry : AudioEntry} {progress : Progress}

/-- The requests of a source are none where its handle was released. -/
theorem live_ne_nil {handle : Option AudioFocusHandle} :
    live handle ≠ [] ↔ ∃ kept, handle = some kept ∧ kept.future = none := by
  constructor
  · intro h
    obtain _ | ⟨id, _ | done⟩ := handle
    · exact absurd rfl h
    · exact ⟨⟨id, none⟩, rfl, rfl⟩
    · exact absurd rfl h
  · rintro ⟨⟨id, future⟩, rfl, rfl⟩
    exact List.cons_ne_nil _ _

/-- The focus of a source that is registered ends as the stream wants it, unless a handle
that was released is still kept for it. -/
theorem focusStream_settled (hlinked : pass.service.Linked) (hfine : Fine pass.signals)
    (hregistered : (pass.service.view entry.sourceId).registered)
    (h : pass.focusStream entry = some (after, progress)) :
    ((after.service.view entry.sourceId).requests ≠ [] ↔ entry.wantsFocus = true) ↔
      (entry.wantsFocus → ∀ handle, (pass.service.view entry.sourceId).handle = some handle →
        handle.future ≠ none → entry.phoneGain.isSome ∧
          (pass.service.view entry.sourceId).duckingGain ≠ entry.phoneGain) := by
  obtain ⟨-, -, -, hfocus⟩ := focusStream_stage hlinked h
  have hrequests := (hlinked.views entry.sourceId).requests
  have hasks : pass.asksFocus entry = true ↔ entry.wantsFocus = true ∧
      ((pass.service.view entry.sourceId).handle = none ∨ entry.phoneGain.isSome = true ∧
        (pass.service.view entry.sourceId).duckingGain ≠ entry.phoneGain) := by
    simp [asksFocus, ProjectionService.view]
  split_ifs at hfocus with hasked hwants
  · obtain ⟨hwants, hgain⟩ := hasks.mp hasked
    have hnonempty := hfocus hregistered hfine
    simp only [hnonempty, hwants, ne_eq, not_false_eq_true, true_iff, forall_const]
    intro handle hhandle _
    rcases hgain with hnone | hgain
    · exact nomatch hnone.symm.trans hhandle
    · exact hgain
  · subst hfocus
    have hkept : ¬((after.service.view entry.sourceId).handle = none ∨
        entry.phoneGain.isSome = true ∧
          (after.service.view entry.sourceId).duckingGain ≠ entry.phoneGain) :=
      fun hor => hasked (hasks.mpr ⟨hwants, hor⟩)
    obtain ⟨hsome, hgain⟩ := not_or.mp hkept
    obtain ⟨handle, hhandle⟩ := Option.ne_none_iff_exists'.mp hsome
    rw [hrequests, live_ne_nil, hhandle]
    simp only [hwants, Option.some.injEq, forall_const, iff_true]
    constructor
    · rintro ⟨kept, rfl, hlive⟩ other rfl hreleased
      exact absurd hlive hreleased
    · intro hall
      refine ⟨handle, rfl, ?_⟩
      by_contra hreleased
      exact hgain (hall handle rfl hreleased)
  · rw [hfocus]
    simp [hwants]

theorem thenUnlessSuperseded_eq {step : AudioPass → Option (AudioPass × Progress)}
    {middle : AudioPass} {reached : Progress}
    (h : thenUnlessSuperseded step (middle, reached) = some (after, progress)) :
    (reached = .through ∧ middle.superseded = false ∧ step middle = some (after, progress)) ∨
      (after = middle ∧ (reached = .through → middle.superseded = true ∧ progress = .left) ∧
        (reached ≠ .through → progress = reached)) := by
  cases reached with
  | through =>
    simp only [thenUnlessSuperseded] at h
    split_ifs at h with hsuperseded
    · obtain ⟨rfl, rfl⟩ := Prod.mk.inj (Option.some.inj h)
      exact Or.inr ⟨rfl, fun _ => ⟨hsuperseded, rfl⟩, fun hne => absurd rfl hne⟩
    · exact Or.inl ⟨rfl, Bool.eq_false_iff.mpr hsuperseded, h⟩
  | failed =>
    obtain ⟨rfl, rfl⟩ := Prod.mk.inj (Option.some.inj h)
    exact Or.inr ⟨rfl, nofun, fun _ => rfl⟩
  | left =>
    obtain ⟨rfl, rfl⟩ := Prod.mk.inj (Option.some.inj h)
    exact Or.inr ⟨rfl, nofun, fun _ => rfl⟩

theorem synchronizeStream_stage (hlinked : pass.service.Linked)
    (h : pass.synchronizeStream entry = some (after, progress)) :
    Stage entry.sourceId pass after := by
  unfold synchronizeStream at h
  split_ifs at h
  · obtain ⟨rfl, -⟩ := Prod.mk.inj (Option.some.inj h)
    exact .refl _ hlinked
  simp only [Option.bind_eq_bind, Option.bind_eq_some_iff] at h
  obtain ⟨⟨first, reached⟩, hregister, ⟨second, reached'⟩, hactivate, hfocus⟩ := h
  have hfirst := (registerStream_stage hlinked hregister).1
  have hsecond : Stage entry.sourceId pass second := by
    rcases thenUnlessSuperseded_eq hactivate with ⟨-, -, hstep⟩ | ⟨rfl, -⟩
    · exact hfirst.trans (activateStream_stage hfirst.linked hstep).1
    · exact hfirst
  rcases thenUnlessSuperseded_eq hfocus with ⟨-, -, hstep⟩ | ⟨rfl, -⟩
  · exact hsecond.trans (focusStream_stage hsecond.linked hstep).1
  · exact hsecond

theorem focusStream_ne_left (h : pass.focusStream entry = some (after, progress)) :
    progress ≠ .left := by
  unfold focusStream at h
  split_ifs at h
  · simp only [acquireFocus, Option.bind_eq_bind, Option.bind_eq_some_iff] at h
    obtain ⟨⟨pass', acts⟩, -, h⟩ := h
    dsimp only at h
    split at h
    · obtain ⟨-, rfl⟩ := Prod.mk.inj (Option.some.inj h)
      exact nofun
    · split at h
      · obtain ⟨-, rfl⟩ := Prod.mk.inj (Option.some.inj h)
        exact nofun
      · simp only [Option.bind_eq_some_iff] at h
        obtain ⟨⟨last, released, ok⟩, -, h⟩ := h
        obtain ⟨-, rfl⟩ := Prod.mk.inj (Option.some.inj h)
        cases ok <;> exact nofun
  · obtain ⟨-, rfl⟩ := Prod.mk.inj (Option.some.inj h)
    exact nofun
  · simp only [Option.bind_eq_bind, Option.bind_eq_some_iff] at h
    obtain ⟨⟨pass', ok⟩, -, h⟩ := h
    cases ok <;> (obtain ⟨-, rfl⟩ := Prod.mk.inj (Option.some.inj h); exact nofun)

/-- A source that is registered, from the step that activates it on. -/
theorem activated_settled {second : AudioPass} {reached : Progress}
    (hlinked : pass.service.Linked) (hfine : Fine pass.signals) (hflag : pass.superseded = false)
    (hregistered : (pass.service.view entry.sourceId).registered)
    (hactivate : pass.activateStream entry = some (second, reached))
    (hfocus : thenUnlessSuperseded (·.focusStream entry) (second, reached) =
      some (after, progress)) :
    progress ≠ .left ∧ (entry.Settled (after.service.view entry.sourceId) ↔
      ((pass.service.view entry.sourceId).activity = some entry.stream.active →
        (pass.service.view entry.sourceId).active = entry.stream.active) ∧
      (entry.wantsFocus → ∀ handle, (pass.service.view entry.sourceId).handle = some handle →
        handle.future ≠ none → entry.phoneGain.isSome ∧
          (pass.service.view entry.sourceId).duckingGain ≠ entry.phoneGain)) := by
  obtain ⟨hstage, hactive⟩ := activateStream_stage hlinked hactivate
  obtain ⟨hsecond, hsame⟩ := hstage.fine hfine
  rw [if_pos hregistered] at hactive
  -- Either the activity is on record and nothing is done, or it is set.
  have hview : reached = .through ∧
      (second.service.view entry.sourceId).registered = true ∧
      (second.service.view entry.sourceId).handle = (pass.service.view entry.sourceId).handle ∧
      (second.service.view entry.sourceId).duckingGain =
        (pass.service.view entry.sourceId).duckingGain ∧
      ((second.service.view entry.sourceId).active = entry.stream.active ↔
        ((pass.service.view entry.sourceId).activity = some entry.stream.active →
          (pass.service.view entry.sourceId).active = entry.stream.active)) := by
    split_ifs at hactive with hrecord
    · obtain ⟨rfl, rfl⟩ := hactive
      exact ⟨rfl, hregistered, rfl, rfl, by simp [hrecord]⟩
    · obtain ⟨hset, rfl⟩ := hactive hfine
      rw [hset]
      exact ⟨rfl, hregistered, rfl, rfl, by simp [hrecord]⟩
  obtain ⟨rfl, hregistered', hhandle, hgain, hiff⟩ := hview
  rcases thenUnlessSuperseded_eq hfocus with ⟨-, -, hstep⟩ | ⟨-, hleft, -⟩
  · obtain ⟨-, hreg, hact, -⟩ := focusStream_stage hstage.linked hstep
    have hsettled := focusStream_settled hstage.linked hsecond hregistered' hstep
    rw [hhandle, hgain] at hsettled
    refine ⟨focusStream_ne_left hstep, ?_⟩
    unfold AudioEntry.Settled
    rw [hreg, hact, hiff, hsettled]
    simp only [hregistered', true_and]
  · exact absurd ((hleft rfl).1.symm.trans (hsame.trans hflag)) nofun

/-- A source that is not registered stays so. -/
theorem activated_unregistered {second : AudioPass} {reached : Progress}
    (hlinked : pass.service.Linked) (hfine : Fine pass.signals) (hflag : pass.superseded = false)
    (hregistered : (pass.service.view entry.sourceId).registered = false)
    (hactivate : pass.activateStream entry = some (second, reached))
    (hfocus : thenUnlessSuperseded (·.focusStream entry) (second, reached) =
      some (after, progress)) :
    progress ≠ .left ∧ (after.service.view entry.sourceId).registered = false := by
  obtain ⟨hstage, hactive⟩ := activateStream_stage hlinked hactivate
  obtain ⟨hsecond, hsame⟩ := hstage.fine hfine
  have hnot : ¬(pass.service.view entry.sourceId).registered = true := by simp [hregistered]
  rw [if_neg hnot] at hactive
  have hview : reached ≠ .left ∧ (second.service.view entry.sourceId).registered = false := by
    split_ifs at hactive
    · obtain ⟨rfl, rfl⟩ := hactive
      exact ⟨nofun, hregistered⟩
    · obtain ⟨hset, rfl⟩ := hactive
      exact ⟨nofun, hset ▸ hregistered⟩
  rcases thenUnlessSuperseded_eq hfocus with ⟨-, -, hstep⟩ | ⟨rfl, hleft, hother⟩
  · obtain ⟨-, hreg, -⟩ := focusStream_stage hstage.linked hstep
    exact ⟨focusStream_ne_left hstep, hreg.trans hview.2⟩
  · by_cases hthrough : reached = .through
    · exact absurd ((hleft hthrough).1.symm.trans (hsame.trans hflag)) nofun
    · exact ⟨hother hthrough ▸ hview.1, hview.2⟩

/-- A step in which no native call fails leaves the source as its stream wants it exactly
when nothing on record keeps it from that. -/
theorem synchronizeStream_settled (hlinked : pass.service.Linked) (hfine : Fine pass.signals)
    (hflag : pass.superseded = false)
    (h : pass.synchronizeStream entry = some (after, progress)) :
    progress ≠ .left ∧ (entry.Settled (after.service.view entry.sourceId) ↔
      entry.Ready (pass.service.view entry.sourceId)) := by
  have hview := hlinked.views entry.sourceId
  unfold synchronizeStream at h
  rw [if_neg (by simp [hflag])] at h
  simp only [Option.bind_eq_bind, Option.bind_eq_some_iff] at h
  obtain ⟨⟨first, reached⟩, hregister, ⟨second, reached'⟩, hactivate, hfocus⟩ := h
  obtain ⟨hstage, hregistered⟩ := registerStream_stage hlinked hregister
  obtain ⟨hfirst, hsame⟩ := hstage.fine hfine
  split_ifs at hregistered with hrecorded hstable
  · obtain ⟨rfl, rfl⟩ := hregistered
    rcases thenUnlessSuperseded_eq hactivate with ⟨-, -, hstep⟩ | ⟨-, hleft, -⟩
    · by_cases hreg : (first.service.view entry.sourceId).registered = true
      · obtain ⟨hne, hiff⟩ := activated_settled hlinked hfine hflag hreg hstep hfocus
        refine ⟨hne, hiff.trans ?_⟩
        exact ⟨fun h => ⟨fun _ => hreg, fun hnot => absurd hrecorded hnot, h.1, h.2⟩,
          fun h => ⟨h.active, h.focus⟩⟩
      · rw [Bool.not_eq_true] at hreg
        obtain ⟨hne, hout⟩ := activated_unregistered hlinked hfine hflag hreg hstep hfocus
        refine ⟨hne, fun h => absurd (h.1.symm.trans hout) nofun, fun h => ?_⟩
        exact absurd ((h.registered hrecorded).symm.trans hreg) nofun
    · exact absurd ((hleft rfl).1.symm.trans hflag) nofun
  · obtain ⟨hset, rfl⟩ := hregistered
    have hnone : (pass.service.view entry.sourceId).handle = none :=
      Option.not_isSome_iff_eq_none.mp (mt hview.handle hrecorded)
    have hquiet : (pass.service.view entry.sourceId).activity = none :=
      Option.not_isSome_iff_eq_none.mp (mt hview.activity hrecorded)
    rcases thenUnlessSuperseded_eq hactivate with ⟨-, -, hstep⟩ | ⟨-, hleft, -⟩
    · obtain ⟨hne, hiff⟩ := activated_settled hstage.linked hfirst (hsame.trans hflag)
        (by rw [hset]) hstep hfocus
      refine ⟨hne, hiff.trans ?_⟩
      rw [hset]
      simp only [hnone, hquiet]
      refine ⟨fun _ => ⟨fun h => absurd h hrecorded, fun _ => hstable, ?_, ?_⟩, fun _ => ?_⟩
      · exact fun h => nomatch hquiet.symm.trans h
      · exact fun _ handle h => nomatch hnone.symm.trans h
      · exact ⟨nofun, fun _ => nofun⟩
    · exact absurd ((hleft rfl).1.symm.trans (hsame.trans hflag)) nofun
  · obtain ⟨rfl, rfl⟩ := hregistered
    obtain ⟨rfl, rfl⟩ := Prod.mk.inj (Option.some.inj hactivate)
    obtain ⟨rfl, rfl⟩ := Prod.mk.inj (Option.some.inj hfocus)
    refine ⟨nofun, fun h => absurd (hview.recorded h.1) hrecorded, fun h => ?_⟩
    exact absurd (h.stable hrecorded) hstable

/-! ## A pass -/

variable {entries : List AudioEntry} {failed failed' complete : Bool}

theorem linked_failedAudio (h : pass.service.Linked) : pass.failedAudio.service.Linked :=
  ⟨h.accounts, h.views⟩

theorem view_failedAudio (pass : AudioPass) (id : String) :
    pass.failedAudio.service.view id = pass.service.view id := rfl

theorem releaseAbsent_linked {ids : List String} (hlinked : pass.service.Linked)
    (h : releaseAbsent entries ids (pass, failed) = some (after, failed')) :
    after.service.Linked := by
  induction ids generalizing pass failed with
  | nil =>
    obtain ⟨rfl, -⟩ := Prod.mk.inj (Option.some.inj h)
    exact hlinked
  | cons id rest ih =>
    simp only [releaseAbsent] at h
    split_ifs at h
    · exact ih hlinked h
    · simp only [Option.bind_eq_bind, Option.bind_eq_some_iff] at h
      obtain ⟨⟨pass', ok⟩, hrelease, h⟩ := h
      obtain ⟨hstage, -⟩ := releaseSource_stage hlinked hrelease
      split_ifs at h
      · exact ih hstage.linked h
      · exact ih (linked_failedAudio hstage.linked) h

/-- A source that is out of the audio service. -/
def Quiet (view : SourceView) : Prop := view.registered = false ∧ view.requests = []

/-- After the first loop the sources without a stream are out, and the others as before. -/
theorem releaseAbsent_quiet {ids : List String} (hlinked : pass.service.Linked)
    (hfine : Fine pass.signals) (hflag : pass.superseded = false)
    (h : releaseAbsent entries ids (pass, failed) = some (after, failed')) :
    Fine after.signals ∧ after.superseded = false ∧
      (∀ id, (∃ entry ∈ entries, entry.sourceId = id) →
        after.service.view id = pass.service.view id) ∧
      ∀ id, (¬∃ entry ∈ entries, entry.sourceId = id) →
        (id ∈ ids ∨ Quiet (pass.service.view id)) → Quiet (after.service.view id) := by
  induction ids generalizing pass failed with
  | nil =>
    obtain ⟨rfl, -⟩ := Prod.mk.inj (Option.some.inj h)
    exact ⟨hfine, hflag, fun _ _ => rfl, fun id _ hor => hor.resolve_left nofun⟩
  | cons first rest ih =>
    have hany : entries.any (·.sourceId = first) = true ↔ ∃ entry ∈ entries,
        entry.sourceId = first := by simp
    simp only [releaseAbsent] at h
    split_ifs at h with hpresent
    · obtain ⟨hrest, hflag', hsame, hquiet⟩ := ih hlinked hfine hflag h
      refine ⟨hrest, hflag', hsame, fun id habsent hor => hquiet id habsent ?_⟩
      refine hor.imp_left fun hmem => (List.mem_cons.mp hmem).resolve_left ?_
      rintro rfl
      exact habsent (hany.mp hpresent)
    · simp only [Option.bind_eq_bind, Option.bind_eq_some_iff] at h
      obtain ⟨⟨pass', ok⟩, hrelease, h⟩ := h
      obtain ⟨hstage, hgone⟩ := releaseSource_stage hlinked hrelease
      obtain ⟨hnext, hflag'⟩ := hstage.fine hfine
      -- What the rest of the loop starts from, whether or not this source made trouble.
      have hrest : ∃ middle : AudioPass, ∃ failed, middle.service.Linked ∧ Fine middle.signals ∧
          middle.superseded = false ∧
          (∀ id, middle.service.view id = pass'.service.view id) ∧
          releaseAbsent entries rest (middle, failed) = some (after, failed') := by
        split_ifs at h
        · exact ⟨pass', failed, hstage.linked, hnext, hflag'.trans hflag, fun _ => rfl, h⟩
        · exact ⟨pass'.failedAudio, true, linked_failedAudio hstage.linked, hnext,
            hflag'.trans hflag, view_failedAudio pass', h⟩
      obtain ⟨middle, flag, hmiddle, hfine', hflag'', hview, h⟩ := hrest
      obtain ⟨hlast, hleft, hsame, hquiet⟩ := ih hmiddle hfine' hflag'' h
      refine ⟨hlast, hleft, fun id hid => ?_, fun id habsent hor => hquiet id habsent ?_⟩
      · rw [hsame id hid, hview, hstage.frame]
        rintro rfl
        exact hpresent (hany.mpr hid)
      · by_cases heq : id = first
        · subst heq
          exact Or.inr (hview id ▸ hgone hfine)
        · rw [hview, hstage.frame id heq]
          exact hor.imp_left fun hmem => (List.mem_cons.mp hmem).resolve_left heq

theorem synchronizeStreams_linked (hlinked : pass.service.Linked)
    (h : synchronizeStreams entries (pass, failed) = some (after, complete)) :
    after.service.Linked := by
  induction entries generalizing pass failed with
  | nil =>
    simp only [synchronizeStreams, Option.some.injEq, Prod.mk.injEq] at h
    obtain ⟨rfl, -⟩ := h
    split
    · exact hlinked
    · exact ⟨hlinked.accounts, hlinked.views⟩
  | cons entry rest ih =>
    simp only [synchronizeStreams, Option.bind_eq_bind, Option.bind_eq_some_iff] at h
    obtain ⟨⟨pass', progress⟩, hstream, h⟩ := h
    have hstage := synchronizeStream_stage hlinked hstream
    cases progress with
    | through => exact ih hstage.linked h
    | failed => exact ih (linked_failedAudio hstage.linked) h
    | left =>
      obtain ⟨rfl, -⟩ := Prod.mk.inj (Option.some.inj h)
      exact hstage.linked

/-- The second loop comes to every stream, each for itself. -/
theorem synchronizeStreams_settled (hlinked : pass.service.Linked) (hfine : Fine pass.signals)
    (hflag : pass.superseded = false) (hnodup : (entries.map (·.sourceId)).Nodup)
    (h : synchronizeStreams entries (pass, failed) = some (after, complete)) :
    complete = true ∧
      (∀ entry ∈ entries, entry.Settled (after.service.view entry.sourceId) ↔
        entry.Ready (pass.service.view entry.sourceId)) ∧
      ∀ id, (¬∃ entry ∈ entries, entry.sourceId = id) →
        after.service.view id = pass.service.view id := by
  induction entries generalizing pass failed with
  | nil =>
    simp only [synchronizeStreams, Option.some.injEq, Prod.mk.injEq] at h
    obtain ⟨rfl, rfl⟩ := h
    refine ⟨rfl, by simp, fun id _ => ?_⟩
    split <;> rfl
  | cons entry rest ih =>
    rw [List.map_cons, List.nodup_cons] at hnodup
    simp only [synchronizeStreams, Option.bind_eq_bind, Option.bind_eq_some_iff] at h
    obtain ⟨⟨pass', progress⟩, hstream, h⟩ := h
    have hstage := synchronizeStream_stage hlinked hstream
    obtain ⟨hnext, hflag'⟩ := hstage.fine hfine
    obtain ⟨hne, hiff⟩ := synchronizeStream_settled hlinked hfine hflag hstream
    have hrest : ∃ middle : AudioPass, ∃ failed, middle.service.Linked ∧ Fine middle.signals ∧
        middle.superseded = false ∧
        (∀ id, middle.service.view id = pass'.service.view id) ∧
        synchronizeStreams rest (middle, failed) = some (after, complete) := by
      cases progress with
      | through => exact ⟨pass', failed, hstage.linked, hnext, hflag'.trans hflag, fun _ => rfl, h⟩
      | failed =>
        exact ⟨pass'.failedAudio, true, linked_failedAudio hstage.linked, hnext,
          hflag'.trans hflag, view_failedAudio pass', h⟩
      | left => exact absurd rfl hne
    obtain ⟨middle, flag, hmiddle, hfine', hflag'', hview, h⟩ := hrest
    obtain ⟨hcomplete, hsettled, hsame⟩ := ih hmiddle hfine' hflag'' hnodup.2 h
    refine ⟨hcomplete, ?_, ?_⟩
    · intro other hother
      rcases List.mem_cons.mp hother with rfl | hother
      · have hout : ¬∃ entry ∈ rest, entry.sourceId = other.sourceId := by
          rintro ⟨entry, hmem, heq⟩
          exact hnodup.1 (heq ▸ List.mem_map_of_mem hmem)
        rw [hsame _ hout, hview]
        exact hiff
      · have hother' : other.sourceId ≠ entry.sourceId := by
          intro heq
          exact hnodup.1 (heq ▸ List.mem_map_of_mem hother)
        rw [hsettled other hother, hview, hstage.frame _ hother']
    · intro id habsent
      rw [hsame id, hview, hstage.frame]
      · rintro rfl
        exact habsent ⟨entry, List.mem_cons_self .., rfl⟩
      · rintro ⟨other, hmem, heq⟩
        exact habsent ⟨other, List.mem_cons_of_mem _ hmem, heq⟩

end AudioPass

/-! ## Passes over snapshots -/

open AudioPass

namespace ProjectionService

variable {service after : ProjectionService} {entries : List AudioEntry} {signals : List Signal}
  {complete : Bool} {toLowerCase : String → String} {policy : AudioFocusPolicy}

theorem nodup_put {entry : AudioEntry} (h : (entries.map (·.sourceId)).Nodup) :
    ((AudioEntry.put entries entry).map (·.sourceId)).Nodup := by
  unfold AudioEntry.put
  split_ifs with hany
  · have hsame : (entries.map fun other =>
        if other.sourceId = entry.sourceId then entry else other).map (·.sourceId) =
        entries.map (·.sourceId) := by
      rw [List.map_map]
      refine List.map_congr_left fun other _ => ?_
      simp only [Function.comp_apply]
      split_ifs with heq
      · exact heq.symm
      · rfl
    rw [hsame]
    exact h
  · rw [List.map_append]
    refine List.nodup_append.mpr ⟨h, List.nodup_singleton _, ?_⟩
    rintro id hid other hother rfl
    obtain ⟨kept, hkept, rfl⟩ := List.mem_map.mp hid
    exact hany (List.any_eq_true.mpr ⟨kept, hkept, by simpa using hother⟩)

theorem nodup_foldl_put (streams : List AudioEntry) (h : (entries.map (·.sourceId)).Nodup) :
    ((streams.foldl AudioEntry.put entries).map (·.sourceId)).Nodup := by
  induction streams generalizing entries with
  | nil => exact h
  | cons entry rest ih => exact ih (nodup_put h)

/-- Each source id has one stream. -/
theorem nodup_audioEntries (toLowerCase : String → String)
    (duckLevels : String → Option UnitGain) (sessions : List ProjectionSession) :
    ((audioEntries toLowerCase duckLevels sessions).map (·.sourceId)).Nodup :=
  nodup_foldl_put _ List.nodup_nil

theorem linked_synchronizeAudio (hlinked : service.Linked)
    (h : service.synchronizeAudio entries signals = some (after, complete)) : after.Linked := by
  simp only [synchronizeAudio, Option.bind_eq_bind, Option.bind_eq_some_iff] at h
  obtain ⟨⟨released, failed⟩, hrelease, ⟨last, complete'⟩, hstreams, h⟩ := h
  obtain ⟨rfl, -⟩ := Prod.mk.inj (Option.some.inj h)
  exact synchronizeStreams_linked (releaseAbsent_linked hlinked hrelease) hstreams

theorem Reachable.linked (h : Reachable toLowerCase policy service) : service.Linked := by
  induction h with
  | start routing => exact linked_start routing policy
  | backend routing _ ih =>
    exact ⟨ih.accounts.alike (alike_routing _ routing), ih.views⟩
  | pass duckLevels sessions signals _ hpass ih => exact linked_synchronizeAudio ih hpass

/-- The audio service has what the snapshot says, and nothing else. -/
structure Converged (entries : List AudioEntry) (service : ProjectionService) : Prop where
  sources : ∀ id, (∃ registration ∈ service.audio.sources, registration.source.id = id) ↔
    ∃ entry ∈ entries, entry.sourceId = id
  activity : ∀ entry ∈ entries,
    (entry.sourceId ∈ service.audio.activeSources ↔ entry.stream.active = true)
  focus : ∀ id, (∃ request ∈ service.audio.focusRequests, request.sourceId = id) ↔
    ∃ entry ∈ entries, entry.sourceId = id ∧ entry.wantsFocus = true
  single : ∀ first ∈ service.audio.focusRequests, ∀ second ∈ service.audio.focusRequests,
    first.sourceId = second.sourceId → first = second

theorem registered_iff {id : String} : (service.view id).registered = true ↔
    ∃ registration ∈ service.audio.sources, registration.source.id = id := by
  simp [view, AudioService.registration?]

theorem requests_iff {id : String} : (service.view id).requests ≠ [] ↔
    ∃ request ∈ service.audio.focusRequests, request.sourceId = id := by
  simp [view]

/-- A source has at most one request. -/
theorem Linked.single (h : service.Linked) {first second : FocusRequest}
    (hfirst : first ∈ service.audio.focusRequests) (hsecond : second ∈ service.audio.focusRequests)
    (hsource : first.sourceId = second.sourceId) : first = second := by
  have hmine : ∀ request ∈ service.audio.focusRequests, request.sourceId = first.sourceId →
      request.id ∈ live (service.view first.sourceId).handle := by
    intro request hmem heq
    rw [← (h.views first.sourceId).requests]
    exact List.mem_map_of_mem (List.mem_filter.mpr ⟨hmem, decide_eq_true heq⟩)
  have hlength : ∀ handle, ∀ one ∈ live handle, ∀ other ∈ live handle, one = other := by
    intro handle one hone other hother
    obtain _ | ⟨id, _ | done⟩ := handle
    · exact nomatch hone
    · exact (List.mem_singleton.mp hone).trans (List.mem_singleton.mp hother).symm
    · exact nomatch hone
  exact List.inj_on_of_nodup_map h.accounts.nodup hfirst hsecond
    (hlength _ _ (hmine first hfirst rfl) _ (hmine second hsecond hsource.symm))

/-- From any state that passes have led to, a pass over a snapshot in which no native call
fails, and which no newer snapshot ends, leaves the audio service as the snapshot says
exactly when nothing on record keeps it from one of the streams. -/
theorem converged_iff (duckLevels : String → Option UnitGain) (sessions : List ProjectionSession)
    (h : Reachable toLowerCase policy service) (hfine : Fine signals)
    (hpass : service.synchronizeAudio (audioEntries toLowerCase duckLevels sessions) signals =
      some (after, complete)) :
    after.Converged (audioEntries toLowerCase duckLevels sessions) ↔
      ∀ entry ∈ audioEntries toLowerCase duckLevels sessions,
        entry.Ready (service.view entry.sourceId) := by
  have hnodup := nodup_audioEntries toLowerCase duckLevels sessions
  generalize audioEntries toLowerCase duckLevels sessions = entries at hpass hnodup ⊢
  have hlinked := h.linked
  have hafter := linked_synchronizeAudio hlinked hpass
  simp only [synchronizeAudio, Option.bind_eq_bind, Option.bind_eq_some_iff] at hpass
  obtain ⟨⟨released, failed⟩, hrelease, ⟨last, complete'⟩, hstreams, hpass⟩ := hpass
  obtain ⟨rfl, -⟩ := Prod.mk.inj (Option.some.inj hpass)
  have hreleased := releaseAbsent_linked hlinked hrelease
  obtain ⟨hfine', hflag, hpresent, habsent⟩ := releaseAbsent_quiet hlinked hfine rfl hrelease
  obtain ⟨-, hsettled, hothers⟩ := synchronizeStreams_settled hreleased hfine' hflag hnodup hstreams
  have hiff : ∀ entry ∈ entries, entry.Settled (last.service.view entry.sourceId) ↔
      entry.Ready (service.view entry.sourceId) := by
    intro entry hentry
    rw [hsettled entry hentry, hpresent _ ⟨entry, hentry, rfl⟩]
  have hquiet : ∀ id, (¬∃ entry ∈ entries, entry.sourceId = id) →
      Quiet (last.service.view id) := by
    intro id hid
    rw [hothers id hid]
    refine habsent id hid ?_
    have hview := hlinked.views id
    by_cases hmem : id ∈ service.registeredAudioSources
    · exact Or.inl hmem
    · have hrecorded : ¬(service.view id).recorded = true := by simpa [view] using hmem
      refine Or.inr ⟨Bool.eq_false_iff.mpr (mt hview.recorded hrecorded), ?_⟩
      rw [hview.requests, Option.not_isSome_iff_eq_none.mp (mt hview.handle hrecorded)]
      rfl
  have hall : (∀ entry ∈ entries, entry.Settled (last.service.view entry.sourceId)) ↔
      ∀ entry ∈ entries, entry.Ready (service.view entry.sourceId) :=
    forall₂_congr hiff
  rw [← hall]
  constructor
  · intro hconverged entry hentry
    refine ⟨?_, ?_, ?_⟩
    · exact registered_iff.mpr ((hconverged.sources _).mpr ⟨entry, hentry, rfl⟩)
    · exact Bool.eq_iff_iff.mpr (decide_eq_true_iff.trans (hconverged.activity entry hentry))
    · rw [requests_iff, hconverged.focus]
      constructor
      · rintro ⟨other, hother, hsame, hwants⟩
        obtain rfl := List.inj_on_of_nodup_map hnodup hother hentry hsame
        exact hwants
      · exact fun hwants => ⟨entry, hentry, rfl, hwants⟩
  · intro hentries
    refine ⟨fun id => ?_, fun entry hentry => ?_, fun id => ?_, fun _ hfirst _ hsecond =>
      hafter.single hfirst hsecond⟩
    · rw [← registered_iff]
      constructor
      · intro hregistered
        by_contra hid
        exact absurd ((hquiet id hid).1.symm.trans hregistered) nofun
      · rintro ⟨entry, hentry, rfl⟩
        exact (hentries entry hentry).1
    · have hactive := (hentries entry hentry).2.1
      rw [← hactive]
      exact decide_eq_true_iff.symm
    · rw [← requests_iff]
      constructor
      · intro hrequests
        by_cases hid : ∃ entry ∈ entries, entry.sourceId = id
        · obtain ⟨entry, hentry, rfl⟩ := hid
          exact ⟨entry, hentry, rfl, (hentries entry hentry).2.2.mp hrequests⟩
        · exact absurd (hquiet id hid).2 hrequests
      · rintro ⟨entry, hentry, rfl, hwants⟩
        exact (hentries entry hentry).2.2.mpr hwants

/-! ## Passes that catch up, and passes that do not -/

/-- The service after a pass over the streams of one phone. -/
def passed (service : ProjectionService) (streams : List ProjectionAudioStream)
    (signals : List Signal) : ProjectionService :=
  match service.synchronizeAudio (audioEntries id (fun _ => none) [⟨"phone", streams⟩]) signals with
  | some (after, _) => after
  | none => service

theorem reachable_passed {streams : List ProjectionAudioStream}
    (h : Reachable id policy service) : Reachable id policy (passed service streams signals) := by
  unfold passed
  split
  · rename_i hpass
    exact .pass (fun _ => none) [⟨"phone", streams⟩] signals h hpass
  · exact h

def silent : AudioFocusPolicy :=
  ⟨⟨0, UnitGain.zero_unit⟩, ⟨0, UnitGain.zero_unit⟩, ⟨0, UnitGain.zero_unit⟩⟩

def fresh : ProjectionService := { audio := { routing := true, policy := silent } }

def music (active hasFocus : Bool) : ProjectionAudioStream :=
  ⟨"music", "phone", .media, active, hasFocus⟩

def speech : ProjectionAudioStream := ⟨"speech", "phone", .speech, false, false⟩

abbrev yes : Signal := .reply true

abbrev no : Signal := .reply false

/-- A source that could not be set active is set active by the next pass. -/
theorem retried_converges :
    (passed (passed fresh [music true true] [no]) [music true true] [yes, yes]).Converged
      (audioEntries id (fun _ => none) [⟨"phone", [music true true]⟩]) := by
  have hpass : (passed fresh [music true true] [no]).synchronizeAudio
      (audioEntries id (fun _ => none) [⟨"phone", [music true true]⟩]) [yes, yes] =
        some (passed (passed fresh [music true true] [no]) [music true true] [yes, yes], true) :=
    rfl
  refine (converged_iff (fun _ => none) [⟨"phone", [music true true]⟩]
    (reachable_passed (.start true)) (by decide) hpass).mpr ?_
  intro entry hentry
  obtain rfl : entry = ⟨"projection.phone.music", music true true, none⟩ :=
    List.mem_singleton.mp hentry
  exact ⟨fun _ => by decide +kernel, fun _ => by decide +kernel, nofun, fun _ _ => nofun⟩

/-- A service that passes led to, and that a pass without any failure leaves amiss. -/
def Diverges (service : ProjectionService) (streams : List ProjectionAudioStream) : Prop :=
  Reachable id silent service ∧
    ∃ after, service.synchronizeAudio (audioEntries id (fun _ => none) [⟨"phone", streams⟩]) [] =
        some (after, true) ∧
      ¬after.Converged (audioEntries id (fun _ => none) [⟨"phone", streams⟩])

/-- The release of a handle fails and the stream takes the focus again; a source is gone
though its removal failed, and the stream comes back; a source is active though that
failed, and the stream falls silent. -/
theorem forgotten_diverges :
    Diverges (passed (passed fresh [music true true] [yes, yes]) [music true false] [no])
      [music true true] ∧
    Diverges (passed (passed fresh [music false false, speech] [yes, yes, yes, yes])
      [speech] [yes, no]) [music false false, speech] ∧
    Diverges (passed (passed fresh [music false false] [yes]) [music true false] [no])
      [music false false] := by
  refine ⟨⟨?_, _, rfl, fun h => ?_⟩, ⟨?_, _, rfl, fun h => ?_⟩, ⟨?_, _, rfl, fun h => ?_⟩⟩
  · exact reachable_passed (reachable_passed (.start true))
  · exact absurd (h.focus "projection.phone.music") (by decide +kernel)
  · exact reachable_passed (reachable_passed (.start true))
  · exact absurd (h.sources "projection.phone.music") (by decide +kernel)
  · exact reachable_passed (reachable_passed (.start true))
  · exact absurd (h.activity ⟨_, music false false, none⟩ (List.mem_singleton_self _))
      (by decide +kernel)

end ProjectionService

end ProjectArgo.Projection
