import ProjectArgo.Connectivity.Refusals

/-!
# Stops revoke earlier requests

A controller starts and reports only what bears the present generation, as long as no stop
falls between its reading of the generation and what it does then.
-/
namespace ProjectArgo.Connectivity.Controllers

open Library Library.Run

/-! ## Reports -/

/-- Where a controller is when it reports, and what it has compared. -/
inductive Says (system : System) : Event → Act → Prop
  | revoked (event : Event) (kind : Kind) (request : Request) :
      Says system event (.revoked kind request)
  | cancelled (event : Event) (kind : Kind) (request : Request) :
      Says system event (.cancelled kind request)
  | musicStarted (request : Request) (hmusic : system.music = .compared request) :
      Says system .musicUpdate (.started .music request)
  | musicEnded (request : Request) (confirmed : Bool) (hmusic : system.music = .polled request) :
      Says system (.musicResult (some confirmed)) (.ended .music request confirmed)
  | callsStarted (request : Request) (hcalls : system.calls = .compared request)
      (hstopping : request.action ≠ .calls .disconnect → system.control.stopping = false) :
      Says system .callsStart (.started .calls request)
  | callsEnded (request : Request) (confirmed : Bool)
      (hcalls : system.calls = .done request confirmed)
      (hcompare : request.action ≠ .calls .disconnect →
        request.generation = system.control.callsCancel) :
      Says system .callsReport (.ended .calls request confirmed)

theorem advance_silent (system : System) (taking : Taking) :
    ∀ act ∈ (system.advance taking).2, act.reports = false := by
  obtain ⟨outcome, hacts, hprogress⟩ := advance_acts system taking
  intro act hact
  rw [hacts] at hact
  rcases List.mem_append.mp hact with hfirst | hlast
  · split at hfirst
    · rw [List.mem_singleton.mp hfirst]
      rfl
    · cases hfirst
  · split at hprogress
    · rw [hprogress.1] at hlast
      cases hlast
    · rw [hprogress.1] at hlast
      rw [List.mem_singleton.mp hlast]
      rfl
    · rw [hprogress.1] at hlast
      rw [List.mem_singleton.mp hlast]
      rfl

theorem says_step {system : System} {event : Event} {act : Act}
    (hact : act ∈ (System.step system event).2) (hreports : act.reports) :
    Says system event act := by
  cases event with
  | control =>
    simp only [System.step] at hact
    split at hact
    · rename_i taking hsome
      rw [advance_silent system taking act hact] at hreports
      cases hreports
    · cases hact
  | request length parsed =>
    simp only [System.step] at hact
    split at hact
    · split at hact
      · rcases List.mem_pair.mp hact with rfl | rfl <;> cases hreports
      · rw [List.mem_singleton.mp hact] at hreports
        cases hreports
    · cases hact
  | musicCompare =>
    simp only [System.step, System.musicCompare] at hact
    split at hact
    · split at hact
      · rw [List.mem_singleton.mp hact]
        exact .revoked _ _ _
      · cases hact
    · cases hact
  | musicUpdate =>
    simp only [System.step, System.musicUpdate] at hact
    split at hact
    · rename_i request hmusic
      rw [List.mem_singleton.mp hact]
      exact .musicStarted request hmusic
    · cases hact
  | musicPoll =>
    simp only [System.step, System.musicPoll] at hact
    split at hact
    · split at hact
      · rw [List.mem_singleton.mp hact]
        exact .cancelled _ _ _
      · cases hact
    · cases hact
  | musicResult result =>
    simp only [System.step, System.musicResult] at hact
    split at hact
    · cases hact
    · rename_i request confirmed hmusic
      rw [List.mem_singleton.mp hact]
      exact .musicEnded request confirmed hmusic
    · cases hact
  | callsCompare =>
    simp only [System.step, System.callsCompare] at hact
    split at hact
    · split at hact
      · rw [List.mem_singleton.mp hact]
        exact .revoked _ _ _
      · cases hact
    · cases hact
  | callsStart =>
    simp only [System.step, System.callsStart] at hact
    split at hact
    · rename_i request hcalls
      split at hact
      · rw [List.mem_singleton.mp hact]
        exact .revoked _ _ _
      · rename_i hstarts
        rw [List.mem_singleton.mp hact]
        refine .callsStarted request hcalls fun haction => ?_
        rw [← Bool.not_eq_true]
        exact fun hstopping => hstarts ⟨haction, hstopping⟩
    · cases hact
  | callsReport =>
    simp only [System.step, System.callsReport] at hact
    split at hact
    · rename_i request confirmed hcalls
      split at hact
      · rw [List.mem_singleton.mp hact]
        exact .cancelled _ _ _
      · rename_i hcompare
        rw [List.mem_singleton.mp hact]
        refine .callsEnded request confirmed hcalls fun haction => ?_
        exact not_not.mp fun hother => hcompare ⟨haction, hother⟩
    · cases hact
  | hello | cleanup | notice | receive | musicWake | musicReceive | callsReceive | callsResult =>
    simp only [System.step] at hact
    split at hact
    all_goals first | cases hact | (split at hact <;> cases hact)
  | publish | work => cases hact

theorem not_stopped {kind : Kind} {system : System} {history : List (Event × List Act)}
    (h : Stamped kind system history) {request : Request}
    (hcurrent : Internal kind request ∨ request.generation = kind.generation system.control) :
    ¬ Stopped kind history request := by
  intro hstopped
  rcases hcurrent with ⟨hdisconnect, hzero⟩ | hpresent
  · obtain ⟨-, earlier, entry, later, rfl, ⟨other, hother, htaken⟩, -⟩ := hstopped
    have hpositive := h.disconnects request
      ⟨other, List.mem_append_left _ hother, htaken⟩ hdisconnect
    rw [hzero] at hpositive
    exact Nat.lt_irrefl 0 hpositive
  · have hearlier := h.stopped request hstopped
    rw [hpresent] at hearlier
    exact Nat.lt_irrefl _ hearlier

/-- What music executes bears the generation that its watch has seen. -/
def Executing (system : System) : Prop :=
  ∀ request, (system.music = .running request ∨ system.music = .polled request) →
    Internal .music request ∨ request.generation = system.musicSeen

theorem executing_of {system after : System} (h : Executing system)
    (hmusic : after.music = system.music) (hseen : after.musicSeen = system.musicSeen) :
    Executing after := by
  unfold Executing
  rw [hmusic, hseen]
  exact h

theorem executing_idle {after : System}
    (hmusic : ∀ request, after.music ≠ .running request ∧ after.music ≠ .polled request) :
    Executing after := by
  rintro request (hrunning | hpolled)
  · exact absurd hrunning (hmusic request).1
  · exact absurd hpolled (hmusic request).2

/-- The step leaves what music executes alone. -/
structure Keeps (system after : System) : Prop where
  music : after.music = system.music
  musicSeen : after.musicSeen = system.musicSeen

theorem Keeps.worker {system after : System} (h : Keeps system after) (worker : Worker) :
    Keeps system { after with worker } := ⟨h.music, h.musicSeen⟩

theorem keeps_sendMusic (system : System) (request : Request) :
    Keeps system (system.sendMusic request) := by
  unfold System.sendMusic
  split <;> exact ⟨rfl, rfl⟩

theorem keeps_sendCalls (system : System) (request : Request) :
    Keeps system (system.sendCalls request) := by
  unfold System.sendCalls
  split <;> exact ⟨rfl, rfl⟩

theorem keeps_update (system : System) (update : Clients.Update) :
    Keeps system (system.update update) := by
  cases update with
  | disconnectCalls => exact keeps_sendCalls system _
  | disconnectMusic => exact keeps_sendMusic system _
  | release | disable | cancelCalls | cancelMusic | signal | stopTest | drain | stopWireless =>
    exact ⟨rfl, rfl⟩

theorem keeps_forward (system : System) (request : Request) :
    Keeps system (system.forward request) := by
  unfold System.forward
  split_ifs
  · exact (keeps_sendCalls system request).worker _
  · exact ⟨rfl, rfl⟩
  · exact (keeps_sendCalls system _).worker _
  · exact (keeps_sendMusic system request).worker _
  · exact ⟨rfl, rfl⟩

theorem keeps_work (system : System) : Keeps system system.work := by
  unfold System.work
  split
  · exact ⟨rfl, rfl⟩
  · split <;> exact ⟨rfl, rfl⟩
  · exact keeps_forward system _
  · split
    · exact (keeps_sendMusic system _).worker _
    · exact ⟨rfl, rfl⟩
  · split
    · exact (keeps_sendMusic system _).worker _
    · exact ⟨rfl, rfl⟩
  · split
    · exact (keeps_sendCalls system _).worker _
    · exact ⟨rfl, rfl⟩
  · exact ⟨rfl, rfl⟩
  · exact (keeps_update system _).worker _
  · exact ⟨rfl, rfl⟩

theorem keeps_advance (system : System) (taking : Taking) :
    Keeps system (system.advance taking).1 := by
  unfold System.advance
  dsimp only
  split <;> exact ⟨rfl, rfl⟩

theorem executing_step {system : System} (h : Executing system) {event : Event}
    (hcareful : Careful system event) : Executing (System.step system event).1 := by
  cases event with
  | musicWake =>
    simp only [System.step]
    split
    · rename_i hmusic
      exact executing_idle fun request => by simp [hmusic]
    · exact h
  | musicReceive =>
    simp only [System.step]
    split
    · exact executing_idle fun request => ⟨by rintro ⟨⟩, by rintro ⟨⟩⟩
    · exact h
  | musicCompare =>
    simp only [System.step, System.musicCompare]
    split
    · split <;> exact executing_idle fun request => ⟨by rintro ⟨⟩, by rintro ⟨⟩⟩
    · exact h
  | musicUpdate =>
    simp only [System.step, System.musicUpdate]
    split
    · rename_i request hmusic
      have hcurrent := hcareful request (by simp [hmusic, Music.comparing])
      rintro other (hrunning | hpolled)
      · cases hrunning
        exact hcurrent
      · cases hpolled
    · exact h
  | musicPoll =>
    simp only [System.step, System.musicPoll]
    split
    · rename_i request hmusic
      split
      · exact executing_idle fun other => ⟨by rintro ⟨⟩, by rintro ⟨⟩⟩
      · rintro other (hrunning | hpolled)
        · cases hrunning
        · cases hpolled
          exact h request (.inl hmusic)
    · exact h
  | musicResult result =>
    simp only [System.step, System.musicResult]
    split
    · rename_i request hmusic
      rintro other (hrunning | hpolled)
      · cases hrunning
        exact h request (.inr hmusic)
      · cases hpolled
    · exact executing_idle fun other => ⟨by rintro ⟨⟩, by rintro ⟨⟩⟩
    · exact h
  | control =>
    simp only [System.step]
    split
    · rename_i taking hsome
      obtain ⟨hmusic, hseen⟩ := keeps_advance system taking
      exact executing_of h hmusic hseen
    · exact h
  | cleanup update =>
    simp only [System.step]
    split
    · obtain ⟨hmusic, hseen⟩ := keeps_update system update
      exact executing_of h hmusic hseen
    · exact h
  | work =>
    obtain ⟨hmusic, hseen⟩ := keeps_work system
    exact executing_of h hmusic hseen
  | publish device => exact h
  | request length parsed =>
    simp only [System.step]
    split
    · split <;> exact h
    · exact h
  | callsCompare =>
    simp only [System.step, System.callsCompare]
    split
    · split <;> exact h
    · exact h
  | callsStart =>
    simp only [System.step, System.callsStart]
    split
    · split <;> exact h
    · exact h
  | callsReport =>
    simp only [System.step, System.callsReport]
    split
    · split <;> exact h
    · exact h
  | notice =>
    simp only [System.step]
    split
    · split <;> exact h
    · exact h
  | hello | receive | callsReceive | callsResult =>
    simp only [System.step]
    split <;> exact h

/-! ## Runs -/

/-- All that holds of a run. -/
structure Sound (system : System) (history : List (Event × List Act)) : Prop where
  stamped : ∀ kind, Stamped kind system history
  remembered : Remembered system history
  executing : Executing system

theorem stamped_start (kind : Kind) : Stamped kind {} [] := by
  have hnone : ∀ request, ¬ Taken [] request := by
    rintro request ⟨entry, hentry, -⟩
    cases hentry
  have hidle : ∀ taking, ({} : System).taking ≠ some taking := by
    rintro taking ⟨⟩
  refine ⟨fun request htaken => absurd htaken (hnone request),
    fun request htaken => absurd htaken (hnone request), ?_,
    fun taking hsome => absurd hsome (hidle taking),
    fun taking hsome => absurd hsome (hidle taking),
    fun taking hsome => absurd hsome (hidle taking)⟩
  rintro request ⟨-, earlier, entry, later, hsplit, -⟩
  exact absurd hsplit (by simp)

theorem remembered_start : Remembered {} [] := by
  rintro taking ⟨⟩

theorem sound_run (events : List Event) (h : Along System.step Careful {} events) :
    Sound (run System.step {} events).1 (run System.step {} events).2 := by
  refine along_induction System.step (I := fun events =>
    Sound (run System.step {} events).1 (run System.step {} events).2) ?_ ?_ events h
  · exact ⟨stamped_start, remembered_start, executing_idle fun request => ⟨nofun, nofun⟩⟩
  · intro events event ih hcareful
    rw [run_concat]
    exact ⟨fun kind => stamped_step (ih.stamped kind) event, remembered_step ih.remembered event,
      executing_step ih.executing hcareful⟩

theorem current_of_act {system : System} (h : Executing system) {event : Event}
    (hcareful : Careful system event) {act : Act} (hactOf : Says system event act) {kind : Kind}
    {request : Request}
    (hact : act = .started kind request ∨ ∃ confirmed, act = .ended kind request confirmed) :
    Internal kind request ∨ request.generation = kind.generation system.control := by
  cases hactOf with
  | revoked | cancelled =>
    rcases hact with hother | ⟨confirmed, hother⟩
    · cases hother
    · cases hother
  | musicStarted found hmusic =>
    rcases hact with hsame | ⟨confirmed, hother⟩
    · cases hsame
      exact hcareful request (by simp [hmusic, Music.comparing])
    · cases hother
  | musicEnded found result hmusic =>
    rcases hact with hother | ⟨confirmed, hsame⟩
    · cases hother
    · cases hsame
      rcases hcareful request (by simp [hmusic, Music.polling]) with hinternal | hseen
      · exact .inl hinternal
      · refine (h request (.inr hmusic)).imp_right fun hgeneration => ?_
        exact hgeneration.trans hseen
  | callsStarted found hcalls hstopping =>
    rcases hact with hsame | ⟨confirmed, hother⟩
    · cases hsame
      exact hcareful request (by simp [hcalls, Calls.comparing]) hstopping
    · cases hother
  | callsEnded found result hcalls hcompare =>
    rcases hact with hother | ⟨confirmed, hsame⟩
    · cases hother
    · cases hsame
      by_cases hdisconnect : request.action = .calls .disconnect
      · exact hcareful request (by simp [hcalls, Calls.reporting]) hdisconnect
      · exact .inr (hcompare hdisconnect)

/-- Music is asked to connect and, before the controller compares the request, to disconnect. -/
def revokedConnect : List Event :=
  .request 59 (some { action := .music .connect, target := "hci0/00:11:22:33:44:55" }) ::
    List.replicate 8 .control ++ [.receive, .work, .work, .musicReceive] ++
    .request 28 (some { action := .music .disconnect }) :: List.replicate 8 .control ++
    [.musicCompare, .musicWake]

end ProjectArgo.Connectivity.Controllers
