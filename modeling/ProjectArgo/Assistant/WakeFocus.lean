import Mathlib
import ProjectArgo.Assistant.AtMostOnce

/-!
# The focus of a wake session

A session is watched by a timer as long as it is current. Whatever ends it asks for a
release, behind all that was asked for on its behalf. This holds as long as no session is
opened while the timer of another one runs.
-/
namespace ProjectArgo.Assistant

open Library Library.Run History

/-! ## The condition -/

/-- The session is the current one and not expired. -/
def AssistantBridge.isCurrent (bridge : AssistantBridge) (sessionId : String) : Bool :=
  bridge.sessionId = some sessionId && bridge.expiresAt.any (bridge.now < ·)

/-- A record can be added, or one of another session dropped for it. -/
def AssistantBridge.hasRoom (bridge : AssistantBridge) : Bool :=
  bridge.requests.length < 1024 ||
    bridge.requests.any fun entry => !belongs (bridge.sessionId.getD "null") entry.1

/-- A create goes on while no timer runs; a session is still current when its acquisition
learns that the source is active; and there is room for the record of a request. -/
def Ready (system : System) : Event → Bool
  | .goesOn number _ =>
    !system.state.creates.any (fun create => create.number = number ∧ create.released) ||
      system.state.timers.isEmpty
  | .reply true =>
    match system.current with
    | some (.activating sessionId) => system.state.isCurrent sessionId
    | _ => true
  | .execute _ _ => system.state.hasRoom
  | _ => true

theorem isCurrent_iff {bridge : AssistantBridge} {sessionId : String} :
    bridge.isCurrent sessionId ↔ bridge.sessionId = some sessionId ∧
      ∃ expiresAt, bridge.expiresAt = some expiresAt ∧ bridge.now < expiresAt := by
  unfold AssistantBridge.isCurrent
  rw [Bool.and_eq_true, decide_eq_true_eq, Option.any_eq_true]
  simp

theorem isCurrent_of_requireSession {bridge : AssistantBridge} {id : String} {done : Unit}
    (h : bridge.requireSession (.string id) = .ok done) : bridge.isCurrent id := by
  refine isCurrent_iff.mpr ⟨sessionId_of_requireSession h, ?_⟩
  unfold AssistantBridge.requireSession at h
  split at h
  · split at h
    · split at h
      · rename_i expiresAt hexpires
        split at h
        · rename_i hlt
          exact ⟨expiresAt, hexpires, hlt⟩
        · cases h
      · cases h
    · cases h
  · cases h

/-! ## What is known of the focus -/

/-- The part of the tables that has to do with the focus. -/
structure Watch where
  now : ℕ
  sessionId : Option String
  expiresAt : Option ℕ
  sessionTimer : Option ℕ
  focus : Option String
  timers : List (ℕ × ℕ)

def AssistantBridge.watch (bridge : AssistantBridge) : Watch :=
  ⟨bridge.now, bridge.sessionId, bridge.expiresAt, bridge.sessionTimer, bridge.focus,
    bridge.timers⟩

def Watch.Current (watch : Watch) (sessionId : String) : Prop :=
  watch.sessionId = some sessionId ∧
    ∃ expiresAt, watch.expiresAt = some expiresAt ∧ watch.now < expiresAt

/-- The focus is held for the session, or is being acquired for it. -/
def Holds (watch : Watch) (current : Option FocusAwait) (sessionId : String) : Prop :=
  watch.focus = some sessionId ∨ current = some (.activating sessionId) ∨
    current = some (.requesting sessionId)

/-- What follows an acquisition for the session was asked for by the session. -/
def Follows (sessionId : String) (operation later : FocusOp) : Prop :=
  operation = .acquire sessionId → ∀ caller, later = .release caller →
    caller = .request (some sessionId)

/-- There is at most one timer, that of the session that was opened last. The focus is
held for a session with a timer, or a release of it is asked for. While a session is
current, no others ask for a release of what is held or acquired for it. -/
structure Guarded (watch : Watch) (queue : List FocusOp) (current : Option FocusAwait)
    (issued : List String) : Prop where
  session : ∀ sessionId, watch.sessionId = some sessionId → sessionId ∈ issued
  holder : ∀ sessionId, Holds watch current sessionId → sessionId ∈ issued
  waiting : ∀ sessionId, .acquire sessionId ∈ queue → sessionId ∈ issued
  timer : watch.timers = [] ∨ ∃ timer expiresAt, watch.timers = [(timer, expiresAt)] ∧
    watch.sessionTimer = some timer ∧ watch.expiresAt = some expiresAt
  watched : ∀ sessionId, watch.Current sessionId → watch.timers ≠ []
  bound : ∀ sessionId, Holds watch current sessionId →
    watch.sessionId = some sessionId ∧ watch.timers ≠ [] ∨ ∃ caller, .release caller ∈ queue
  own : ∀ sessionId, watch.Current sessionId → Holds watch current sessionId →
    ∀ caller, .release caller ∈ queue → caller = .request (some sessionId)
  ordered : ∀ sessionId, watch.Current sessionId → queue.Pairwise (Follows sessionId)

theorem guarded_initial : Guarded System.initial.state.watch [] none [] := by
  constructor
  · exact nofun
  · rintro sessionId (hfocus | hcurrent | hcurrent)
    · cases hfocus
    · cases hcurrent
    · cases hcurrent
  · exact nofun
  · exact .inl rfl
  · exact fun sessionId hcurrent => nomatch hcurrent.1
  · rintro sessionId (hfocus | hcurrent | hcurrent)
    · cases hfocus
    · cases hcurrent
    · cases hcurrent
  · exact fun sessionId hcurrent => nomatch hcurrent.1
  · exact fun sessionId hcurrent => nomatch hcurrent.1

section Steps

variable {watch : Watch} {queue : List FocusOp} {current : Option FocusAwait}
  {issued : List String}

/-- Once no session is current, a release can be asked for by anyone. -/
theorem Guarded.ended (h : Guarded watch queue current issued) {after : Watch} (caller : Caller)
    (hsession : after.sessionId = watch.sessionId) (hfocus : after.focus = watch.focus)
    (htimers : after.timers = []) (hexpired : ∀ sessionId, ¬ after.Current sessionId) :
    Guarded after (queue ++ [.release caller]) current issued := by
  have hholds : ∀ sessionId, Holds after current sessionId → Holds watch current sessionId := by
    unfold Holds
    rw [hfocus]
    exact fun _ => id
  constructor
  · rw [hsession]
    exact h.session
  · exact fun sessionId hholder => h.holder sessionId (hholds sessionId hholder)
  · intro sessionId hmem
    rcases List.mem_append.mp hmem with hold | hlast
    · exact h.waiting sessionId hold
    · cases List.mem_singleton.mp hlast
  · exact .inl htimers
  · exact fun sessionId hcurrent => absurd hcurrent (hexpired sessionId)
  · exact fun _ _ => .inr ⟨caller, List.mem_append_right _ (List.mem_singleton_self _)⟩
  · exact fun sessionId hcurrent => absurd hcurrent (hexpired sessionId)
  · exact fun sessionId hcurrent => absurd hcurrent (hexpired sessionId)

theorem Guarded.endSession {bridge : AssistantBridge}
    (h : Guarded bridge.watch queue current issued) (caller : Caller) :
    Guarded bridge.endSession.watch (queue ++ [.release caller]) current issued := by
  refine h.ended caller rfl rfl ?_ ?_
  · change bridge.timers.filter (fun timer => some timer.1 ≠ bridge.sessionTimer) = []
    rcases h.timer with hnone | ⟨timer, expiresAt, htimers, hsession, -⟩
    · change bridge.timers = [] at hnone
      rw [hnone]
      rfl
    · change bridge.timers = _ at htimers
      change bridge.sessionTimer = _ at hsession
      rw [htimers, hsession]
      simp
  · rintro sessionId ⟨-, expiresAt, hexpires, hlt⟩
    rw [← Option.some.inj hexpires] at hlt
    exact Nat.lt_irrefl _ hlt

/-- A timer fires when its session is expired. -/
theorem Guarded.fired {bridge : AssistantBridge} (h : Guarded bridge.watch queue current issued)
    {timer deadline : ℕ} (hmem : (timer, deadline) ∈ bridge.timers)
    (hdue : deadline ≤ bridge.now) :
    Guarded { bridge with timers := bridge.timers.filter (·.1 ≠ timer) }.watch
      (queue ++ [.release .timer]) current issued := by
  rcases h.timer with hnone | ⟨own, expiresAt, htimers, -, hexpires⟩
  · change bridge.timers = [] at hnone
    rw [hnone] at hmem
    cases hmem
  · change bridge.timers = _ at htimers
    rw [htimers] at hmem
    cases List.mem_singleton.mp hmem
    refine h.ended .timer rfl rfl ?_ ?_
    · change bridge.timers.filter _ = []
      rw [htimers]
      simp
    · rintro sessionId ⟨-, expiresAt', hexpires', hlt⟩
      rw [show expiresAt' = deadline from Option.some.inj (hexpires'.symm.trans hexpires)] at hlt
      exact Nat.lt_irrefl _ (hlt.trans_le hdue)

/-- The current session asks for an acquisition, or the one opened last for a release. -/
theorem Guarded.asked (h : Guarded watch queue current issued) {operation : FocusOp}
    (hacquire : ∀ sessionId, operation = .acquire sessionId → watch.sessionId = some sessionId)
    (hrelease : ∀ caller, operation = .release caller → caller = .request watch.sessionId) :
    Guarded watch (queue ++ [operation]) current issued := by
  have hown : ∀ sessionId, watch.Current sessionId → ∀ caller, operation = .release caller →
      caller = .request (some sessionId) := by
    intro sessionId hcurrent caller hoperation
    rw [hrelease caller hoperation, hcurrent.1]
  constructor
  · exact h.session
  · exact h.holder
  · intro sessionId hmem
    rcases List.mem_append.mp hmem with hold | hlast
    · exact h.waiting sessionId hold
    · exact h.session sessionId (hacquire sessionId (List.mem_singleton.mp hlast).symm)
  · exact h.timer
  · exact h.watched
  · intro sessionId hholds
    refine (h.bound sessionId hholds).imp_right ?_
    rintro ⟨caller, hmem⟩
    exact ⟨caller, List.mem_append_left _ hmem⟩
  · intro sessionId hcurrent hholds caller hmem
    rcases List.mem_append.mp hmem with hold | hlast
    · exact h.own sessionId hcurrent hholds caller hold
    · exact hown sessionId hcurrent caller (List.mem_singleton.mp hlast).symm
  · intro sessionId hcurrent
    refine List.pairwise_append.mpr ⟨h.ordered sessionId hcurrent, List.pairwise_singleton _ _, ?_⟩
    intro earlier _ later hlater _ caller hrelease
    rw [List.mem_singleton.mp hlater] at hrelease
    exact hown sessionId hcurrent caller hrelease

/-- A new session holds nothing yet. -/
theorem Guarded.opened {bridge : AssistantBridge} (h : Guarded bridge.watch queue current issued)
    {create : Create} {draw : Draw} (hidle : bridge.timers = [])
    (hfresh : draw.sessionId ∉ issued) :
    Guarded (bridge.openSession create draw).watch queue current
      (issued ++ [draw.sessionId]) := by
  have hnew : ∀ sessionId, (bridge.openSession create draw).watch.Current sessionId →
      sessionId = draw.sessionId :=
    fun sessionId hcurrent => (Option.some.inj hcurrent.1).symm
  have htimers : (bridge.openSession create draw).watch.timers =
      [(bridge.nextTimer, bridge.now + 1000 * create.ttl)] := by
    change bridge.timers ++ _ = _
    rw [hidle]
    rfl
  constructor
  · intro sessionId hsession
    rw [← Option.some.inj hsession]
    exact List.mem_append_right _ (List.mem_singleton_self _)
  · exact fun sessionId hholds => List.mem_append_left _ (h.holder sessionId hholds)
  · exact fun sessionId hmem => List.mem_append_left _ (h.waiting sessionId hmem)
  · exact .inr ⟨_, _, htimers, rfl, rfl⟩
  · intro sessionId _
    rw [htimers]
    exact List.cons_ne_nil _ _
  · intro sessionId hholds
    rcases h.bound sessionId hholds with ⟨-, hrunning⟩ | hrelease
    · exact absurd hidle hrunning
    · exact .inr hrelease
  · intro sessionId hcurrent hholds
    rw [hnew sessionId hcurrent] at hholds
    exact absurd (h.holder _ hholds) hfresh
  · intro sessionId hcurrent
    rw [hnew sessionId hcurrent]
    refine List.Pairwise.imp_of_mem ?_ (List.pairwise_of_forall (R := fun _ _ => True) ?_)
    · rintro operation later hmem - - rfl
      exact absurd (h.waiting _ hmem) hfresh
    · exact fun _ _ => trivial

theorem Guarded.passed {bridge : AssistantBridge} (h : Guarded bridge.watch queue current issued)
    (duration : ℕ) :
    Guarded { bridge with now := bridge.now + duration }.watch queue current issued := by
  have hcurrent : ∀ sessionId, Watch.Current
      { bridge with now := bridge.now + duration }.watch sessionId →
        bridge.watch.Current sessionId := by
    rintro sessionId ⟨hsession, expiresAt, hexpires, hlt⟩
    exact ⟨hsession, expiresAt, hexpires, (Nat.le_add_right ..).trans_lt hlt⟩
  constructor
  · exact h.session
  · exact h.holder
  · exact h.waiting
  · exact h.timer
  · exact fun sessionId hlater => h.watched sessionId (hcurrent sessionId hlater)
  · exact h.bound
  · exact fun sessionId hlater => h.own sessionId (hcurrent sessionId hlater)
  · exact fun sessionId hlater => h.ordered sessionId (hcurrent sessionId hlater)

/-- An operation that ends, or goes on without the focus. -/
theorem Guarded.left (h : Guarded watch queue current issued) {after : Option FocusAwait}
    (hafter : ∀ sessionId, after ≠ some (.activating sessionId) ∧
      after ≠ some (.requesting sessionId)) : Guarded watch queue after issued := by
  have hholds : ∀ sessionId, Holds watch after sessionId → Holds watch current sessionId := by
    rintro sessionId (hfocus | hactivating | hrequesting)
    · exact .inl hfocus
    · exact absurd hactivating (hafter sessionId).1
    · exact absurd hrequesting (hafter sessionId).2
  constructor
  · exact h.session
  · exact fun sessionId hlater => h.holder sessionId (hholds sessionId hlater)
  · exact h.waiting
  · exact h.timer
  · exact h.watched
  · exact fun sessionId hlater => h.bound sessionId (hholds sessionId hlater)
  · exact fun sessionId hcurrent hlater => h.own sessionId hcurrent (hholds sessionId hlater)
  · exact h.ordered

/-- The first operation that waits begins. -/
theorem Guarded.began {bridge : AssistantBridge} {operation : FocusOp} {rest : List FocusOp}
    (h : Guarded bridge.watch (operation :: rest) none issued) :
    Guarded (bridge.startFocus operation).1.watch rest (bridge.startFocus operation).2.1
      issued := by
  have hordered : ∀ sessionId, bridge.watch.Current sessionId → rest.Pairwise (Follows sessionId) :=
    fun sessionId hcurrent => (List.pairwise_cons.mp (h.ordered sessionId hcurrent)).2
  have hwaiting : ∀ sessionId, .acquire sessionId ∈ rest → sessionId ∈ issued :=
    fun sessionId hmem => h.waiting sessionId (List.mem_cons_of_mem _ hmem)
  cases operation with
  | acquire sessionId =>
    have hskip : Guarded bridge.watch rest none issued := by
      refine ⟨h.session, h.holder, hwaiting, h.timer, h.watched, ?_, ?_, hordered⟩
      · intro holder hholds
        refine (h.bound holder hholds).imp_right ?_
        rintro ⟨caller, hmem⟩
        rcases List.mem_cons.mp hmem with hfirst | hrest
        · cases hfirst
        · exact ⟨caller, hrest⟩
      · exact fun holder hcurrent hholds caller hmem =>
          h.own holder hcurrent hholds caller (List.mem_cons_of_mem _ hmem)
    simp only [AssistantBridge.startFocus]
    split
    · split
      · rename_i hnone _ _ hrequire
        have hsession := isCurrent_iff.mp (isCurrent_of_requireSession hrequire)
        have hholds : ∀ holder, Holds bridge.watch (some (.activating sessionId)) holder →
            holder = sessionId := by
          rintro holder (hfocus | hactivating | hrequesting)
          · change bridge.focus = _ at hfocus
            rw [hfocus] at hnone
            cases hnone
          · cases hactivating
            rfl
          · cases hrequesting
        refine ⟨h.session, ?_, hwaiting, h.timer, h.watched, ?_, ?_, hordered⟩
        · intro holder hlater
          rw [hholds holder hlater]
          exact h.session sessionId hsession.1
        · intro holder hlater
          rw [hholds holder hlater]
          exact .inl ⟨hsession.1, h.watched sessionId hsession⟩
        · intro holder hcurrent hlater caller hmem
          have hfollows := (List.pairwise_cons.mp (h.ordered holder hcurrent)).1 _ hmem
          rw [hholds holder hlater] at hfollows ⊢
          exact hfollows rfl caller rfl
      · exact hskip
    · exact hskip
  | release caller =>
    simp only [AssistantBridge.startFocus]
    split
    · rename_i sessionId hfocus
      have hnothing : ∀ holder, ¬ Holds { bridge with focus := none }.watch
          (some (.releasing caller)) holder := by
        rintro holder (hheld | hactivating | hrequesting)
        · cases hheld
        · cases hactivating
        · cases hrequesting
      exact ⟨h.session, fun holder hholds => absurd hholds (hnothing holder), hwaiting, h.timer,
        h.watched, fun holder hholds => absurd hholds (hnothing holder),
        fun holder _ hholds => absurd hholds (hnothing holder), hordered⟩
    · rename_i hfocus
      have hnothing : ∀ holder, ¬ Holds bridge.watch (some (.deactivating caller)) holder := by
        rintro holder (hheld | hactivating | hrequesting)
        · change bridge.focus = _ at hheld
          rw [hfocus] at hheld
          cases hheld
        · cases hactivating
        · cases hrequesting
      exact ⟨h.session, fun holder hholds => absurd hholds (hnothing holder), hwaiting, h.timer,
        h.watched, fun holder hholds => absurd hholds (hnothing holder),
        fun holder _ hholds => absurd hholds (hnothing holder), hordered⟩

theorem watch_settle (bridge : AssistantBridge) (caller : Caller) (succeeded : Bool) :
    (bridge.settle caller succeeded).watch = bridge.watch := by
  unfold AssistantBridge.settle
  split
  · split <;> rfl
  · rfl

/-- The operation under way goes on. -/
theorem Guarded.wentOn {bridge : AssistantBridge} {await : FocusAwait} {succeeded : Bool}
    (h : Guarded bridge.watch queue (some await) issued) :
    Guarded (bridge.resumeFocus await succeeded).1.watch queue
      (bridge.resumeFocus await succeeded).2.1 issued := by
  unfold AssistantBridge.resumeFocus
  split
  · rename_i sessionId
    have hsame : ∀ holder, Holds bridge.watch (some (.requesting sessionId)) holder →
        Holds bridge.watch (some (.activating sessionId)) holder := by
      rintro holder (hfocus | hactivating | hrequesting)
      · exact .inl hfocus
      · cases hactivating
      · cases hrequesting
        exact .inr (.inl rfl)
    exact ⟨h.session, fun holder hholds => h.holder holder (hsame holder hholds), h.waiting,
      h.timer, h.watched, fun holder hholds => h.bound holder (hsame holder hholds),
      fun holder hcurrent hholds => h.own holder hcurrent (hsame holder hholds), h.ordered⟩
  · exact h.left fun _ => ⟨nofun, nofun⟩
  · rename_i sessionId
    have hsame : ∀ holder, Holds { bridge with focus := some sessionId }.watch none holder →
        Holds bridge.watch (some (.requesting sessionId)) holder := by
      rintro holder (hfocus | hactivating | hrequesting)
      · cases hfocus
        exact .inr (.inr rfl)
      · cases hactivating
      · cases hrequesting
    exact ⟨h.session, fun holder hholds => h.holder holder (hsame holder hholds), h.waiting,
      h.timer, h.watched, fun holder hholds => h.bound holder (hsame holder hholds),
      fun holder hcurrent hholds => h.own holder hcurrent (hsame holder hholds), h.ordered⟩
  · exact h.left fun _ => ⟨nofun, nofun⟩
  · exact h.left fun _ => ⟨nofun, nofun⟩
  · exact h.left fun _ => ⟨nofun, nofun⟩
  · rw [watch_settle]
    exact h.left fun _ => ⟨nofun, nofun⟩
  · rw [watch_settle]
    exact h.left fun _ => ⟨nofun, nofun⟩

end Steps

/-! ## Every run -/

/-- What an event leaves of the parts that matter. -/
def System.Focused (system : System) (issued : List String) : Prop :=
  Guarded system.state.watch system.queue system.current issued

theorem sessions_of_booked {ledger after : Ledger} {event : Event} {acts : List Act}
    (h : Booked ledger event acts after) (hevent : ∀ number draw, event ≠ .goesOn number draw) :
    acts.filterMap Act.session = [] := by
  cases h with
  | silent hsilent =>
    refine silent_nil hsilent ?_
    rintro (_ | _ | _ | _ | _ | _ | _) hact <;> first | rfl | exact hact.elim
  | opened => exact absurd rfl (hevent _ _)
  | completed => rfl
  | retried => rfl
  | limited => rfl
  | begun => rfl

/-- A record that finds room leaves the session and the focus alone. -/
theorem watch_execute (commands : String → Option Command) {bridge : AssistantBridge}
    (hroom : bridge.hasRoom) (body : JsonBody) (available : Bool) :
    (bridge.execute commands body available).1.watch = bridge.watch := by
  unfold AssistantBridge.execute
  split
  · rfl
  · split
    · split <;> rfl
    · split
      · rfl
      · split
        · rfl
        · unfold AssistantBridge.record AssistantBridge.begin
          simp only
          split
          · rename_i hlong
            split
            · rename_i hnone
              exfalso
              rw [List.find?_eq_none] at hnone
              unfold AssistantBridge.hasRoom at hroom
              rw [Bool.or_eq_true, decide_eq_true_eq] at hroom
              rcases hroom with hshort | hother
              · rw [List.length_append, List.length_singleton] at hlong
                omega
              · obtain ⟨entry, hmem, hbelongs⟩ := List.any_eq_true.mp hother
                exact hnone entry (List.mem_append_left _ hmem) hbelongs
            · rfl
          · rfl

theorem focused_step (commands : String → Option Command) {system : System} {issued : List String}
    (h : system.Focused issued) {event : Event} (hready : Ready system event)
    (hfresh : ∀ sessionId, Act.created sessionId ∈ (System.step commands system event).2 →
      sessionId ∉ issued) :
    (System.step commands system event).1.Focused
      (issued ++ (System.step commands system event).2.filterMap Act.session) := by
  have hquiet : ∀ (hevent : ∀ number draw, event ≠ .goesOn number draw),
      (System.step commands system event).1.Focused issued →
        (System.step commands system event).1.Focused
          (issued ++ (System.step commands system event).2.filterMap Act.session) := by
    intro hevent hfocused
    rw [sessions_of_booked (booked_step commands system event) hevent, List.append_nil]
    exact hfocused
  have hmoves : ∀ {after : System} {acts : List Act},
      Serial.Moves AssistantBridge.setFocus system after acts → after.Focused issued := by
    intro after acts hmoves
    unfold System.Focused at h ⊢
    cases hmoves with
    | same => exact h
    | starts hcurrent hqueue =>
      rw [hcurrent, hqueue] at h
      exact h.began
    | resumes hcurrent =>
      rw [hcurrent] at h
      exact h.wentOn
  cases event with
  | createSession body =>
    refine hquiet (by simp) ?_
    simp only [System.step, System.createSession]
    split
    · exact h
    · exact Guarded.endSession h _
  | deleteSession sessionId =>
    refine hquiet (by simp) ?_
    simp only [System.step, System.deleteSession]
    split
    · exact Guarded.endSession h _
    · exact h
  | focus body =>
    refine hquiet (by simp) ?_
    simp only [System.step, System.focus]
    split
    · exact h
    · rename_i operation hcheck
      unfold AssistantBridge.checkFocus at hcheck
      split at hcheck
      · split at hcheck
        · split at hcheck
          · rename_i hrequire
            cases hcheck
            refine Guarded.asked h ?_ (by simp)
            rintro sessionId heq
            cases heq
            exact sessionId_of_requireSession hrequire
          · cases hcheck
        · cases hcheck
        · split at hcheck
          · rename_i hsession
            cases hcheck
            refine Guarded.asked h (by simp) ?_
            rintro caller heq
            cases heq
            exact congrArg Caller.request hsession
          · cases hcheck
        · split at hcheck
          · rename_i hsession
            cases hcheck
            refine Guarded.asked h (by simp) ?_
            rintro caller heq
            cases heq
            exact congrArg Caller.request hsession.symm
          · cases hcheck
        · cases hcheck
        · cases hcheck
      · cases hcheck
  | execute body available =>
    refine hquiet (by simp) ?_
    unfold System.Focused at h ⊢
    simp only [System.step, System.within, System.set]
    rw [watch_execute commands hready]
    exact h
  | passes duration => exact hquiet (by simp) (Guarded.passed h duration)
  | goesOn number draw =>
    simp only [System.step, System.goesOn] at hfresh ⊢
    split
    · rename_i create hcreate
      rw [hcreate] at hfresh
      refine Guarded.opened h ?_ (hfresh draw.sessionId (List.mem_singleton_self _))
      unfold Ready at hready
      rw [Bool.or_eq_true, Bool.not_eq_true', List.isEmpty_iff] at hready
      refine hready.resolve_left fun hnone => ?_
      have hfound := List.find?_some hcreate
      have hany := List.any_eq_false.mp hnone create (List.mem_of_find?_eq_some hcreate)
      exact hany hfound
    · exact (List.append_nil issued).symm ▸ h
  | executed future outcome =>
    refine hquiet (by simp) ?_
    simp only [System.step, System.within, AssistantBridge.executed]
    split <;> exact h
  | fires timer =>
    refine hquiet (by simp) ?_
    simp only [System.step, System.fires]
    split
    · rename_i running hrunning
      have hfound := List.find?_some hrunning
      rw [decide_eq_true_eq] at hfound
      have hmem := List.mem_of_find?_eq_some hrunning
      obtain ⟨own, deadline⟩ := running
      obtain ⟨rfl, hdue⟩ := hfound
      exact Guarded.fired h hmem hdue
    · exact h
  | turn => exact hquiet (by simp) (hmoves (Serial.next_moves ..))
  | reply succeeded => exact hquiet (by simp) (hmoves (Serial.reply_moves ..))

def Act.OnFocus : Act → Prop
  | .requestsFocus _ => True
  | .releasesFocus _ _ => True
  | _ => False

theorem execute_not_onFocus (commands : String → Option Command) (bridge : AssistantBridge)
    (body : JsonBody) (available : Bool) :
    ∀ act ∈ (bridge.execute commands body available).2, ¬ act.OnFocus := by
  have hone : ∀ act : Act, ¬ act.OnFocus → ∀ other ∈ [act], ¬ other.OnFocus :=
    fun act hact other hother => List.mem_singleton.mp hother ▸ hact
  have htwo : ∀ first second : Act, ¬ first.OnFocus → ¬ second.OnFocus →
      ∀ other ∈ [first, second], ¬ other.OnFocus := by
    intro first second hfirst hsecond other hother
    rcases List.mem_cons.mp hother with rfl | hlast
    · exact hfirst
    · exact hone second hsecond other hlast
  unfold AssistantBridge.execute
  split
  · exact hone _ id
  · split
    · split <;> exact hone _ id
    · split
      · exact hone _ id
      · split
        · exact hone _ id
        · unfold AssistantBridge.record AssistantBridge.begin
          simp only
          split
          · split <;> exact htwo _ _ id id
          · exact htwo _ _ id id

/-- Only the operations on the focus request and release it. -/
theorem step_onFocus {commands : String → Option Command} {system : System} {event : Event}
    {act : Act} (h : act ∈ (System.step commands system event).2) (hact : act.OnFocus) :
    event = .turn ∨ ∃ succeeded, event = .reply succeeded := by
  have hone : ∀ other : Act, ¬ other.OnFocus → act ∉ [other] :=
    fun other hother hmem => hother (List.mem_singleton.mp hmem ▸ hact)
  cases event with
  | createSession body =>
    simp only [System.step, System.createSession] at h
    split at h
    · exact absurd h (hone _ id)
    · cases h
  | deleteSession sessionId =>
    simp only [System.step, System.deleteSession] at h
    split at h
    · cases h
    · exact absurd h (hone _ id)
  | focus body =>
    simp only [System.step, System.focus] at h
    split at h
    · exact absurd h (hone _ id)
    · cases h
  | execute body available =>
    exact absurd hact (execute_not_onFocus commands system.state body available act h)
  | passes duration => cases h
  | goesOn number draw =>
    simp only [System.step, System.goesOn] at h
    split at h
    · exact absurd h (hone _ id)
    · cases h
  | executed future outcome =>
    simp only [System.step, System.within, AssistantBridge.executed] at h
    split at h
    · exact absurd h (hone _ id)
    · cases h
  | fires timer =>
    simp only [System.step, System.fires] at h
    split at h <;> cases h
  | turn => exact .inl rfl
  | reply succeeded => exact .inr ⟨succeeded, rfl⟩

theorem startFocus_acts {bridge : AssistantBridge} {operation : FocusOp} {act : Act}
    (h : act ∈ (bridge.startFocus operation).2.2) :
    ∃ sessionId caller, act = .releasesFocus sessionId caller ∧ operation = .release caller ∧
      bridge.focus = some sessionId := by
  unfold AssistantBridge.startFocus at h
  split at h
  · split at h
    · split at h <;> cases h
    · cases h
  · rename_i caller
    split at h
    · rename_i sessionId hfocus
      exact ⟨sessionId, caller, List.mem_singleton.mp h, rfl, hfocus⟩
    · cases h

theorem resumeFocus_acts {bridge : AssistantBridge} {await : FocusAwait} {succeeded : Bool}
    {act : Act} (h : act ∈ (bridge.resumeFocus await succeeded).2.2) :
    ∃ sessionId, act = .requestsFocus sessionId ∧ await = .activating sessionId ∧
      succeeded = true := by
  unfold AssistantBridge.resumeFocus at h
  split at h
  · rename_i sessionId
    exact ⟨sessionId, List.mem_singleton.mp h, rfl, rfl⟩
  all_goals cases h

/-- Focus is requested when the source is active. -/
theorem requests_of_step {commands : String → Option Command} {system : System} {event : Event}
    {sessionId : String}
    (h : Act.requestsFocus sessionId ∈ (System.step commands system event).2) :
    event = .reply true ∧ system.current = some (.activating sessionId) := by
  rcases step_onFocus h trivial with rfl | ⟨succeeded, rfl⟩
  · simp only [System.step, Serial.next] at h
    split at h
    · obtain ⟨_, _, hact, -⟩ := startFocus_acts h
      cases hact
    · cases h
  · simp only [System.step, Serial.reply] at h
    split at h
    · rename_i hcurrent
      obtain ⟨id, hact, rfl, rfl⟩ := resumeFocus_acts h
      cases hact
      exact ⟨rfl, hcurrent⟩
    · cases h

/-- Focus is released when its turn has come, and was held until then. -/
theorem releases_of_step {commands : String → Option Command} {system : System} {event : Event}
    {sessionId : String} {caller : Caller}
    (h : Act.releasesFocus sessionId caller ∈ (System.step commands system event).2) :
    (∃ rest, system.queue = .release caller :: rest) ∧ system.state.focus = some sessionId := by
  rcases step_onFocus h trivial with rfl | ⟨succeeded, rfl⟩
  · simp only [System.step, Serial.next] at h
    split at h
    · rename_i hqueue
      obtain ⟨id, asker, hact, rfl, hfocus⟩ := startFocus_acts h
      cases hact
      exact ⟨⟨_, hqueue⟩, hfocus⟩
    · cases h
  · simp only [System.step, Serial.reply] at h
    split at h
    · obtain ⟨_, hact, -⟩ := resumeFocus_acts h
      cases hact
    · cases h

theorem focused_run (commands : String → Option Command) (events : List Event)
    (hfresh : (History.sessions (run (System.step commands) System.initial events).2).Nodup)
    (hready : Along (System.step commands) (fun system event => Ready system event)
      System.initial events) :
    (run (System.step commands) System.initial events).1.Focused
      (History.sessions (run (System.step commands) System.initial events).2) := by
  refine along_induction (System.step commands) (I := fun events =>
    (History.sessions (run (System.step commands) System.initial events).2).Nodup →
      (run (System.step commands) System.initial events).1.Focused
        (History.sessions (run (System.step commands) System.initial events).2))
    (fun _ => guarded_initial) ?_ events hready hfresh
  intro events event ih hready hfresh
  rw [run_concat] at hfresh ⊢
  rw [sessions_concat] at hfresh ⊢
  obtain ⟨hbefore, -, hnew⟩ := List.nodup_append.mp hfresh
  refine focused_step commands (ih hbefore) hready fun sessionId hcreated hissued => ?_
  exact hnew sessionId hissued sessionId (List.mem_filterMap.mpr ⟨_, hcreated, rfl⟩) rfl

/-- In a run whose steps are all ready: focus is requested for the current
session; once nothing is asked for and no timer is due, it is held for the current session
if for any; and for a session that is current it is released at its own request only. -/
theorem focus_of_current (commands : String → Option Command) (events : List Event)
    (hfresh : (History.sessions (run (System.step commands) System.initial events).2).Nodup)
    (hready : Along (System.step commands) (fun system event => Ready system event)
      System.initial events) :
    let reached := (run (System.step commands) System.initial events).1
    (∀ event, Ready reached event → ∀ sessionId,
      Act.requestsFocus sessionId ∈ (System.step commands reached event).2 →
        reached.state.isCurrent sessionId) ∧
    (reached.queue = [] → reached.current = none →
      (∀ timer ∈ reached.state.timers, reached.state.now < timer.2) →
      ∀ sessionId, reached.state.focus = some sessionId → reached.state.isCurrent sessionId) ∧
    ∀ event sessionId caller,
      Act.releasesFocus sessionId caller ∈ (System.step commands reached event).2 →
        reached.state.isCurrent sessionId → caller = .request (some sessionId) := by
  intro reached
  have hfocused : reached.Focused _ := focused_run commands events hfresh hready
  refine ⟨?_, ?_, ?_⟩
  · intro event hevent sessionId hmem
    obtain ⟨hreply, hcurrent⟩ := requests_of_step hmem
    rw [hreply] at hevent
    unfold Ready at hevent
    rw [hcurrent] at hevent
    exact hevent
  · intro hqueue hcurrent hdue sessionId hfocus
    unfold System.Focused at hfocused
    rw [hqueue] at hfocused
    rcases hfocused.bound sessionId (.inl hfocus) with ⟨hsession, hrunning⟩ | ⟨caller, hmem⟩
    · rcases hfocused.timer with hnone | ⟨timer, expiresAt, htimers, -, hexpires⟩
      · exact absurd hnone hrunning
      · refine isCurrent_iff.mpr ⟨hsession, expiresAt, hexpires, ?_⟩
        exact hdue (timer, expiresAt) (List.mem_of_mem_head? (congrArg List.head? htimers))
    · cases hmem
  · intro event sessionId caller hmem hcurrent
    obtain ⟨⟨rest, hqueue⟩, hfocus⟩ := releases_of_step hmem
    have hown := hfocused.own sessionId (isCurrent_iff.mp hcurrent) (.inl hfocus) caller
    rw [hqueue] at hown
    exact hown (List.mem_cons_self ..)

/-- A request for focus. -/
def wanting (draw : Draw) (active : Bool) : Event :=
  .focus ⟨[("session_id", .string draw.sessionId), ("active", .bool active)], rfl⟩

/-- The focus is acquired and given back. -/
def ducked : List Event :=
  opening firstDraw 0 ++
    [wanting firstDraw true, .turn, .reply true, .reply true, wanting firstDraw false]

theorem ducked_releases :
    (run (System.step muting) System.initial ducked).1.state.focus = some (Draw.sessionId 0) ∧
      ∀ sessionId caller, Act.releasesFocus sessionId caller ∈
          (System.step muting (run (System.step muting) System.initial ducked).1 .turn).2 →
        (run (System.step muting) System.initial ducked).1.state.isCurrent sessionId →
          caller = .request (some sessionId) :=
  ⟨by decide +kernel, (focus_of_current muting ducked (by decide +kernel) (by decide +kernel)).2.2
    .turn⟩

/-- A create for a millisecond and one for the longest time, before either is answered. -/
def overlapping : List Event :=
  [.createSession ⟨[("wake_phrase", .string "Argo"), ("ttl_ms", .int 1)], rfl⟩,
    .createSession waking, .turn, .reply true, .goesOn 0 firstDraw,
    .turn, .reply true, .goesOn 1 secondDraw, wanting secondDraw true, .turn, .reply true,
    .reply true, .passes 1000, .fires 0]

/-- A session is deleted while the source becomes active for it. -/
def deletedEarly : List Event :=
  opening firstDraw 0 ++
    [wanting firstDraw true, .turn, .deleteSession (some (Draw.sessionId firstDraw))]

/-- The timer of the session that was replaced ends the focus of the current one. And an
acquisition goes on although its session was deleted. -/
theorem overlapping_revoked :
    ((run (System.step muting) System.initial overlapping).1.state.isCurrent (Draw.sessionId 1) ∧
      Act.releasesFocus (Draw.sessionId 1) .timer ∈
        (System.step muting (run (System.step muting) System.initial overlapping).1 .turn).2) ∧
    (run (System.step muting) System.initial deletedEarly).1.state.isCurrent (Draw.sessionId 0) =
        false ∧
      Act.requestsFocus (Draw.sessionId 0) ∈ (System.step muting
        (run (System.step muting) System.initial deletedEarly).1 (.reply true)).2 := by
  have hreleased : (System.step muting (run (System.step muting) System.initial overlapping).1
      .turn).2 = [.releasesFocus (Draw.sessionId 1) .timer] := rfl
  have hrequested : (System.step muting (run (System.step muting) System.initial deletedEarly).1
      (.reply true)).2 = [.requestsFocus (Draw.sessionId 0)] := rfl
  refine ⟨⟨by decide +kernel, ?_⟩, by decide +kernel, ?_⟩
  · rw [hreleased]
    exact List.mem_singleton_self _
  · rw [hrequested]
    exact List.mem_singleton_self _

end ProjectArgo.Assistant
