import ProjectArgo.Connectivity.Stamps

/-!
# Refused requests

What a request has changed shows in the stage that it has reached, so a request that is
refused at a stage before has changed nothing.
-/
namespace ProjectArgo.Connectivity.Controllers

open Library Library.Run

/-! ## Conditions -/

/-- The request has changed something that is shared since it was asked. -/
def touched (history : List (Event × List Act)) : Bool :=
  (history.flatMap (·.2)).foldl (fun touched act =>
    match act with
    | .asked => false
    | .updated => true
    | _ => touched) false

instance (kind : Kind) (request : Request) : Decidable (Internal kind request) :=
  inferInstanceAs (Decidable (_ ∧ _))

def Music.comparing : Music → Option Request
  | .compared request => some request
  | _ => none

def Music.polling : Music → Option Request
  | .polled request => some request
  | _ => none

def Calls.comparing : Calls → Option Request
  | .compared request => some request
  | _ => none

def Calls.reporting : Calls → Option Request
  | .done request _ => some request
  | _ => none

/-- A request to stop is short enough and finds room in the queue; a controller begins what
bears the present generation, music reports when the watch has not advanced since it was
polled, and calls reports a disconnection that bears the present generation. -/
def Careful (system : System) : Event → Prop
  | .control => ∀ taking ∈ system.taking,
    (taking.stage = .storing → taking.request.action = .stopAll →
      taking.request.target.utf8ByteSize ≤ 256 ∨ system.control.stopping = true) ∧
    (taking.stage = .sending → taking.request.action.stops = true →
      system.control.requests.length < Control.capacity)
  | .musicUpdate => ∀ request ∈ system.music.comparing,
    Internal .music request ∨ request.generation = system.control.musicCancel
  | .musicResult (some _) => ∀ request ∈ system.music.polling,
    Internal .music request ∨ system.musicSeen = system.control.musicCancel
  | .callsStart => ∀ request ∈ system.calls.comparing,
    (request.action ≠ .calls .disconnect → system.control.stopping = false) →
      Internal .calls request ∨ request.generation = system.control.callsCancel
  | .callsReport => ∀ request ∈ system.calls.reporting,
    request.action = .calls .disconnect →
      Internal .calls request ∨ request.generation = system.control.callsCancel
  | _ => True

instance (system : System) : (event : Event) → Decidable (Careful system event)
  | .control => inferInstanceAs (Decidable (∀ taking ∈ system.taking, (_ → _ → _) ∧ (_ → _ → _)))
  | .musicUpdate => inferInstanceAs (Decidable (∀ request ∈ system.music.comparing, _ ∨ _))
  | .musicResult (some _) =>
    inferInstanceAs (Decidable (∀ request ∈ system.music.polling, _ ∨ _))
  | .callsStart => inferInstanceAs (Decidable (∀ request ∈ system.calls.comparing, (_ → _) → _))
  | .callsReport => inferInstanceAs (Decidable (∀ request ∈ system.calls.reporting, _ → _))
  | .musicResult none => isTrue trivial
  | .hello => isTrue trivial
  | .request .. => isTrue trivial
  | .cleanup _ => isTrue trivial
  | .publish _ => isTrue trivial
  | .notice => isTrue trivial
  | .receive => isTrue trivial
  | .work => isTrue trivial
  | .musicWake => isTrue trivial
  | .musicReceive => isTrue trivial
  | .musicCompare => isTrue trivial
  | .musicPoll => isTrue trivial
  | .callsReceive => isTrue trivial
  | .callsCompare => isTrue trivial
  | .callsResult _ => isTrue trivial

/-! ## Stages -/

/-- The request has changed something, which its stage shows. -/
def Touches (taking : Taking) : Prop :=
  (taking.request.action = .stopAll ∧ Stage.storing.rank < taking.stage.rank) ∨
    ∃ kind : Kind, kind.advanced taking

def Changes (control next : Control) : Prop :=
  next.musicCancel ≠ control.musicCancel ∨ next.callsCancel ≠ control.callsCancel ∨
    next.stopping ≠ control.stopping

theorem touched_concat {history : List (Event × List Act)} {event : Event} {acts : List Act} :
    touched (history ++ [(event, acts)]) = acts.foldl (fun touched act =>
      match act with
      | .asked => false
      | .updated => true
      | _ => touched) (touched history) := by
  unfold touched
  rw [List.flatMap_append, List.flatMap_singleton, List.foldl_append]

theorem touched_reports {history : List (Event × List Act)} {event : Event} {acts : List Act}
    (h : ∀ act ∈ acts, act.reports) : touched (history ++ [(event, acts)]) = touched history := by
  rw [touched_concat]
  generalize touched history = before
  induction acts with
  | nil => rfl
  | cons act acts ih =>
    rw [List.forall_mem_cons] at h
    rw [List.foldl_cons]
    cases act with
    | asked | updated | refused | taken => cases h.1
    | revoked | started | cancelled | ended => exact ih h.2

theorem touched_nil {history : List (Event × List Act)} {event : Event} :
    touched (history ++ [(event, [])]) = touched history := touched_concat

theorem advanced_stays {kind : Kind} {control : Control} {taking next : Taking}
    (hfollows : Control.Follows control taking next) (h : kind.advanced taking) :
    kind.advanced next := by
  obtain ⟨hrank, haction, hmatched, -⟩ := hfollows
  cases kind with
  | music =>
    rcases h with ⟨hold, hlater⟩ | ⟨hstop, hlater⟩
    · refine .inl ⟨?_, ?_⟩
      · rw [hmatched, if_neg]
        · exact hold
        · intro hstage
          rw [hstage] at hlater
          exact absurd hlater (by decide)
      · rw [hrank]
        exact hlater.trans (Nat.lt_succ_self _)
    · refine .inr ⟨haction.trans hstop, ?_⟩
      rw [hrank]
      exact hlater.trans (Nat.lt_succ_self _)
  | calls =>
    obtain ⟨hstops, hlater⟩ := h
    refine ⟨?_, ?_⟩
    · rw [haction]
      exact hstops
    · rw [hrank]
      exact hlater.trans (Nat.lt_succ_self _)

/-- What the step changes shows in the stage after it. -/
theorem touches_more {control : Control} {taking next : Taking}
    (hfollows : Control.Follows control taking next)
    (h : Touches taking ∨ Changes control (control.advance taking).1) : Touches next := by
  have hrank := hfollows.rank
  rcases h with (⟨hstop, hlater⟩ | ⟨kind, hadvanced⟩) | hmusic | hcalls | hstopping
  · refine .inl ⟨hfollows.action.trans hstop, ?_⟩
    rw [hrank]
    exact hlater.trans (Nat.lt_succ_self _)
  · exact .inr ⟨kind, advanced_stays hfollows hadvanced⟩
  · rw [Control.advance_musicCancel] at hmusic
    split at hmusic
    · rename_i hnow
      refine .inr ⟨.music, ?_⟩
      rcases hnow with ⟨hstage, hmatched⟩ | ⟨hstage, hstop⟩
      · refine .inl ⟨?_, ?_⟩
        · rw [hfollows.matched, hstage, if_neg nofun]
          exact hmatched
        · rw [hrank, hstage]
          exact Nat.lt_succ_self _
      · refine .inr ⟨hfollows.action.trans hstop, ?_⟩
        rw [hrank, hstage]
        exact Nat.lt_succ_self _
    · exact absurd rfl hmusic
  · rw [Control.advance_callsCancel] at hcalls
    split at hcalls
    · rename_i hnow
      refine .inr ⟨.calls, ?_, ?_⟩
      · rw [hfollows.action]
        simpa [Kind.stops, or_assoc] using hnow.2
      · rw [hrank, hnow.1]
        exact Nat.lt_succ_self _
    · exact absurd rfl hcalls
  · rw [Control.advance_stopping] at hstopping
    by_cases hnow : taking.stage = .storing ∧ taking.request.action = .stopAll
    · refine .inl ⟨hfollows.action.trans hnow.2, ?_⟩
      rw [hrank, hnow.1]
      exact Nat.lt_succ_self _
    · rw [decide_eq_false hnow, Bool.or_false] at hstopping
      exact absurd rfl hstopping

/-- The acts of a step of `Control::request` before its outcome. -/
theorem foldl_updated (control next : Control) (before : Bool) :
    (if next.musicCancel ≠ control.musicCancel ∨ next.callsCancel ≠ control.callsCancel ∨
        next.stopping ≠ control.stopping then [Act.updated] else []).foldl (fun touched act =>
      match act with
      | .asked => false
      | .updated => true
      | _ => touched) before = true ↔ before = true ∨ Changes control next := by
  unfold Changes
  split
  · rename_i hchanges
    exact ⟨fun _ => .inr hchanges, fun _ => rfl⟩
  · rename_i hsame
    exact ⟨.inl, fun h => h.resolve_right hsame⟩

theorem rank_of_touches {taking : Taking} (h : Touches taking) : 1 < taking.stage.rank := by
  rcases h with ⟨-, hlater⟩ | ⟨kind, hadvanced⟩
  · exact hlater
  · cases kind with
    | music =>
      rcases hadvanced with ⟨-, hlater⟩ | ⟨-, hlater⟩
      · exact lt_trans (by decide) hlater
      · exact lt_trans (by decide) hlater
    | calls => exact lt_trans (by decide) hadvanced.2

theorem stops_of_touches {taking : Taking} (hshaped : Shaped taking) (h : Touches taking) :
    taking.request.action.stops := by
  have hstopAll : taking.request.action = .stopAll → taking.request.action.stops := by
    intro hstop
    rw [hstop]
    rfl
  rcases h with ⟨hstop, -⟩ | ⟨kind, hadvanced⟩
  · exact hstopAll hstop
  · cases kind with
    | music =>
      rcases hadvanced with ⟨hmatched, -⟩ | ⟨hstop, -⟩
      · rcases hshaped.matched hmatched with hdisconnect | hforget
        · rw [hdisconnect]
          rfl
        · rw [hforget]
          rfl
      · exact hstopAll hstop
    | calls =>
      have hstops := hadvanced.1
      simp only [Kind.stops, Bool.or_eq_true, decide_eq_true_eq] at hstops
      rcases hstops with (hdisconnect | hstop) | hforget
      · rw [hdisconnect]
        rfl
      · exact hstopAll hstop
      · rw [hforget]
        rfl

/-- Only some stages change anything. -/
theorem not_changes {control : Control} {taking : Taking}
    (h : taking.stage = .loading ∨ taking.stage = .storing ∨ taking.stage = .sending)
    (hstore : taking.stage = .storing → taking.request.action = .stopAll →
      control.stopping = true) : ¬ Changes control (control.advance taking).1 := by
  rintro (hmusic | hcalls | hstopping)
  · rw [Control.advance_musicCancel, if_neg] at hmusic
    · exact hmusic rfl
    · rcases h with hstage | hstage | hstage
      all_goals
        rw [hstage]
        rintro (⟨hother, -⟩ | ⟨hother, -⟩) <;> cases hother
  · rw [Control.advance_callsCancel, if_neg] at hcalls
    · exact hcalls rfl
    · rcases h with hstage | hstage | hstage
      all_goals
        rw [hstage]
        rintro ⟨hother, -⟩
        cases hother
  · rw [Control.advance_stopping] at hstopping
    by_cases hnow : taking.stage = .storing ∧ taking.request.action = .stopAll
    · rw [hstore hnow.1 hnow.2] at hstopping
      exact hstopping rfl
    · rw [decide_eq_false hnow, Bool.or_false] at hstopping
      exact hstopping rfl

/-- A refused request has changed nothing. -/
theorem not_touches_of_refused {system : System} {taking : Taking} {message : String}
    (hsome : system.taking = some taking) (hshaped : Shaped taking)
    (hcareful : Careful system .control)
    (h : (system.control.advance taking).2 = .refused message) :
    ¬ (Touches taking ∨ Changes system.control (system.control.advance taking).1) := by
  obtain ⟨hstoring, hsending⟩ := hcareful taking hsome
  rcases Control.advance_refused h with hstage | ⟨hstage, hreason⟩ | ⟨hstage, hfull⟩
  · rintro (htouches | hchanges)
    · have hlater := rank_of_touches htouches
      rw [hstage] at hlater
      exact absurd hlater (by decide)
    · exact not_changes (.inl hstage) (fun hother => by rw [hstage] at hother; cases hother) hchanges
  · rintro (htouches | hchanges)
    · have hlater := rank_of_touches htouches
      rw [hstage] at hlater
      exact absurd hlater (by decide)
    · refine not_changes (.inr (.inl hstage)) (fun _ hstop => ?_) hchanges
      rcases hreason with hreserved | hlong
      · rw [hstop] at hreserved
        cases hreserved
      · exact (hstoring hstage hstop).resolve_left hlong
  · rintro (htouches | hchanges)
    · exact hfull (hsending hstage (stops_of_touches hshaped htouches))
    · refine not_changes (.inr (.inr hstage)) (fun hother => ?_) hchanges
      rw [hstage] at hother
      cases hother

/-- What the request under way has changed shows in its stage. -/
def Remembered (system : System) (history : List (Event × List Act)) : Prop :=
  ∀ taking, system.taking = some taking → touched history → Touches taking

theorem advance_acts (system : System) (taking : Taking) :
    ∃ outcome : List Act, (system.advance taking).2 =
        (if (system.control.advance taking).1.musicCancel ≠ system.control.musicCancel ∨
          (system.control.advance taking).1.callsCancel ≠ system.control.callsCancel ∨
          (system.control.advance taking).1.stopping ≠ system.control.stopping
          then [Act.updated] else []) ++ outcome ∧
      match (system.control.advance taking).2 with
      | .more next => outcome = [] ∧ (system.advance taking).1.taking = some next
      | .refused message =>
        outcome = [.refused message] ∧ (system.advance taking).1.taking = none
      | .taken request =>
        outcome = [.taken request taking.matched] ∧ (system.advance taking).1.taking = none := by
  cases hprogress : (system.control.advance taking).2 with
  | more next =>
    refine ⟨[], ?_, rfl, ?_⟩
    · simp only [System.advance, hprogress, List.append_nil]
    · simp only [System.advance, hprogress]
  | refused message =>
    refine ⟨[.refused message], ?_, rfl, ?_⟩
    · simp only [System.advance, hprogress]
    · simp only [System.advance, hprogress]
  | taken request =>
    refine ⟨[.taken request taking.matched], ?_, rfl, ?_⟩
    · simp only [System.advance, hprogress]
    · simp only [System.advance, hprogress]

theorem remembered_step {system : System} {history : List (Event × List Act)}
    (h : Remembered system history) (event : Event) :
    Remembered (System.step system event).1
      (history ++ [(event, (System.step system event).2)]) := by
  by_cases hcontrol : event = .control
  · subst hcontrol
    simp only [System.step]
    split
    · rename_i taking hsome
      obtain ⟨outcome, hacts, hprogress⟩ := advance_acts system taking
      intro next hnext htouched
      rw [hacts, touched_concat, List.foldl_append] at htouched
      split at hprogress
      · rename_i following hmore
        obtain ⟨rfl, htaking⟩ := hprogress
        rw [htaking] at hnext
        obtain rfl := Option.some.inj hnext
        refine touches_more (Control.advance_more hmore) ?_
        rw [List.foldl_nil] at htouched
        exact ((foldl_updated _ _ _).mp htouched).imp_left (h taking hsome)
      · rw [hprogress.2] at hnext
        cases hnext
      · rw [hprogress.2] at hnext
        cases hnext
    · intro taking hsome htouched
      rw [touched_nil] at htouched
      exact h taking hsome htouched
  · by_cases hrequest : ∃ length parsed, event = .request length parsed
    · obtain ⟨length, parsed, rfl⟩ := hrequest
      simp only [System.step]
      split
      · split
        · intro taking hsome htouched
          rw [touched_concat] at htouched
          cases htouched
        · intro taking hsome htouched
          rw [touched_concat] at htouched
          cases htouched
      · intro taking hsome htouched
        rw [touched_nil] at htouched
        exact h taking hsome htouched
    · have haside := aside_step system hcontrol
        fun length parsed hevent => hrequest ⟨length, parsed, hevent⟩
      intro taking hsome htouched
      rw [haside.taking] at hsome
      rw [touched_reports haside.reports] at htouched
      exact h taking hsome htouched

theorem refused_untouched {system : System} {history : List (Event × List Act)}
    (h : Remembered system history)
    (hshaped : ∀ taking, system.taking = some taking → Shaped taking) {event : Event}
    (hcareful : Careful system event) {message : String}
    (hrefused : .refused message ∈ (System.step system event).2) :
    touched (history ++ [(event, (System.step system event).2)]) = false := by
  by_cases hcontrol : event = .control
  · subst hcontrol
    simp only [System.step] at hrefused ⊢
    split
    · rename_i taking hsome
      simp only [hsome] at hrefused
      obtain ⟨outcome, hacts, hprogress⟩ := advance_acts system taking
      have hfirst : ∀ act ∈ (if (system.control.advance taking).1.musicCancel ≠
            system.control.musicCancel ∨
          (system.control.advance taking).1.callsCancel ≠ system.control.callsCancel ∨
          (system.control.advance taking).1.stopping ≠ system.control.stopping
          then [Act.updated] else []), act = .updated := by
        intro act hact
        split at hact
        · exact List.mem_singleton.mp hact
        · cases hact
      have houtcome : .refused message ∈ outcome := by
        rw [hacts] at hrefused
        refine (List.mem_append.mp hrefused).resolve_left fun hmem => ?_
        cases hfirst _ hmem
      split at hprogress
      · rw [hprogress.1] at houtcome
        cases houtcome
      · rename_i found hfound
        rw [Bool.eq_false_iff]
        intro htouched
        rw [hacts, touched_concat, List.foldl_append, hprogress.1] at htouched
        refine not_touches_of_refused hsome (hshaped taking hsome) hcareful hfound ?_
        exact ((foldl_updated _ _ _).mp htouched).imp_left (h taking hsome)
      · rw [hprogress.1] at houtcome
        cases List.mem_singleton.mp houtcome
    · rename_i hnone
      simp only [hnone] at hrefused
      cases hrefused
  · by_cases hrequest : ∃ length parsed, event = .request length parsed
    · obtain ⟨length, parsed, rfl⟩ := hrequest
      simp only [System.step] at hrefused ⊢
      split
      · split
        · rw [touched_concat]
          rfl
        · rw [touched_concat]
          rfl
      · rename_i taking hsome
        simp only [hsome] at hrefused
        cases hrefused
    · have haside := aside_step system hcontrol
        fun length parsed hevent => hrequest ⟨length, parsed, hevent⟩
      exact absurd hrefused (haside.not_mem rfl)

end ProjectArgo.Connectivity.Controllers
