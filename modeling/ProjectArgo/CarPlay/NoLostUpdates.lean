import ProjectArgo.CarPlay.Management

/-!
# Requests and ended sessions in one order

As long as no write of a request or of the supervisor goes by a state that the other has
changed since, the watched state is what the accepted requests and the ended sessions make
of it one after another.
-/
namespace ProjectArgo.CarPlay.Management

open Library Library.Run

/-! ## One after another -/

/-- An accepted request as a whole. -/
def Request.apply (state : State) : Request → State
  | .configure patch =>
    match state.settings.patched patch with
    | .ok next => state.configured next
    | .error _ => state
  | .connect => if state.settings.enabled then state.connected else state
  | .disconnect => state.disconnected
  | .status => state
  | .unknown => state

/-- An accepted request, or the end of the session of a generation. -/
def Act.apply (state : State) : Act → State
  | .accepted request _ => request.apply state
  | .recorded generation =>
    if state.generation = generation then { state with running := false } else state
  | _ => state

/-- What the state is after the changes in their order. -/
def sequential (state : State) (acts : List Act) : State := acts.foldl Act.apply state

/-! ## Conditions -/

/-- A `configure` that leaves `enabled` answers while `running` is as it was when it was copied,
the supervisor writes while the generation is the one that it checked, and the user of the
phone ends a session while that is the latest asked for. -/
def Apart (system : System) : Event → Prop
  | .answer =>
    match system.handling with
    | some (.persisted _ copy next) =>
      next.enabled = copy.settings.enabled → system.state.running = copy.running
    | _ => True
  | .write =>
    match system.supervisor with
    | .ending current =>
      system.state.generation = current.generation ∨ system.state.running = false
    | _ => True
  | .ended .byUser =>
    match system.supervisor with
    | .session current =>
      system.state.generation = current.generation ∨ system.state.running = false
    | _ => True
  | _ => True

instance (system : System) (event : Event) : Decidable (Apart system event) :=
  match system, event with
  | { state, handling := some (.persisted _ copy next), .. }, .answer =>
    inferInstanceAs
      (Decidable (next.enabled = copy.settings.enabled → state.running = copy.running))
  | { handling := some (.copied _ _), .. }, .answer => isTrue trivial
  | { handling := none, .. }, .answer => isTrue trivial
  | { state, supervisor := .ending current, .. }, .write =>
    inferInstanceAs (Decidable (state.generation = current.generation ∨ state.running = false))
  | { supervisor := .reading, .. }, .write => isTrue trivial
  | { supervisor := .preparing _, .. }, .write => isTrue trivial
  | { supervisor := .session _, .. }, .write => isTrue trivial
  | { supervisor := .ended _ _, .. }, .write => isTrue trivial
  | { state, supervisor := .session current, .. }, .ended .byUser =>
    inferInstanceAs (Decidable (state.generation = current.generation ∨ state.running = false))
  | { supervisor := .reading, .. }, .ended .byUser => isTrue trivial
  | { supervisor := .preparing _, .. }, .ended .byUser => isTrue trivial
  | { supervisor := .ended _ _, .. }, .ended .byUser => isTrue trivial
  | { supervisor := .ending _, .. }, .ended .byUser => isTrue trivial
  | _, .ended .gone => isTrue trivial
  | _, .ended .failed => isTrue trivial
  | _, .request _ => isTrue trivial
  | _, .persist _ => isTrue trivial
  | _, .read => isTrue trivial
  | _, .start _ => isTrue trivial
  | _, .check => isTrue trivial

/-! ## What requests hold -/

/-- Only `running` may have changed since the copy. -/
structure SameRequests (copy state : State) : Prop where
  settings : copy.settings = state.settings
  generation : copy.generation = state.generation
  authorize : copy.authorize = state.authorize

theorem SameRequests.eq {copy state : State} (h : SameRequests copy state)
    (hrunning : state.running = copy.running) : copy = state := by
  obtain ⟨settings, running, generation, authorize⟩ := copy
  obtain ⟨rfl, rfl, rfl⟩ := h
  dsimp only at hrunning
  subst hrunning
  rfl

/-- What is held of the state by the request under way, and in the file once it is written. -/
def Holds (system : System) : Prop :=
  match system.handling with
  | none => True
  | some (.copied _ copy) => SameRequests copy system.state
  | some (.persisted patch copy next) => SameRequests copy system.state ∧
      copy.settings.patched patch = .ok next ∧ system.file = some next

/-- What a step does to the state, the file and the request under way. -/
inductive Effect (system : System) (event : Event) : System → List Act → Prop
  | quiet {after : System} {acts : List Act} (hstate : after.state = system.state)
      (hfile : after.file = system.file)
      (hhandling : after.handling = system.handling ∨ after.handling = none ∨
        ∃ request, after.handling = some (.copied request system.state))
      (hacts : acts = [] ∨ (∃ settings running, acts = [.reported settings running]) ∨
        (∃ e, acts = [.refused e]) ∨
          ∃ current, system.supervisor = .preparing current ∧ acts = [.started current]) :
      Effect system event after acts
  | persisted {patch : Option (List (String × Json))} {copy : State} {next : Settings}
      (hhandling : system.handling = some (.copied (.configure patch) copy))
      (hpatched : copy.settings.patched patch = .ok next) :
      Effect system event
        { system with file := some next, handling := some (.persisted patch copy next) } []
  | configured {patch : Option (List (String × Json))} {copy : State} {next : Settings}
      (hevent : event = .answer)
      (hhandling : system.handling = some (.persisted patch copy next)) :
      Effect system event { system with state := copy.configured next, handling := none }
        [.accepted (.configure patch) (next.enabled && !copy.settings.enabled)]
  | connected {copy : State} (hhandling : system.handling = some (.copied .connect copy))
      (henabled : copy.settings.enabled) :
      Effect system event { system with state := copy.connected, handling := none }
        [.accepted .connect true]
  | disconnected {copy : State} (hhandling : system.handling = some (.copied .disconnect copy)) :
      Effect system event { system with state := copy.disconnected, handling := none }
        [.accepted .disconnect false]
  | recorded {current : State} (hevent : event = .write)
      (hsupervisor : system.supervisor = .ending current) :
      Effect system event { system with
        state := { system.state with running := false }, supervisor := .reading }
        [.recorded current.generation]

theorem effect_step (system : System) (event : Event) :
    Effect system event (System.step system event).1 (System.step system event).2 := by
  have hsame : Effect system event system [] := .quiet rfl rfl (.inl rfl) (.inl rfl)
  cases event with
  | request request =>
    simp only [System.step]
    split
    · exact .quiet rfl rfl (.inr (.inr ⟨request, rfl⟩)) (.inl rfl)
    · exact hsame
  | persist written =>
    simp only [System.step, System.persist]
    split
    · rename_i patch copy hhandling
      split
      · exact .quiet rfl rfl (.inr (.inl rfl)) (.inr (.inr (.inl ⟨_, rfl⟩)))
      · rename_i next hpatched
        split
        · exact .persisted hhandling hpatched
        · exact .quiet rfl rfl (.inr (.inl rfl)) (.inr (.inr (.inl ⟨_, rfl⟩)))
    · exact hsame
  | answer =>
    simp only [System.step, System.answer]
    split
    · exact .quiet rfl rfl (.inr (.inl rfl)) (.inr (.inl ⟨_, _, rfl⟩))
    · rename_i copy hhandling
      split
      · rename_i henabled
        exact .connected hhandling henabled
      · exact .quiet rfl rfl (.inr (.inl rfl)) (.inr (.inr (.inl ⟨_, rfl⟩)))
    · rename_i copy hhandling
      exact .disconnected hhandling
    · exact .quiet rfl rfl (.inr (.inl rfl)) (.inr (.inr (.inl ⟨_, rfl⟩)))
    · rename_i patch copy next hhandling
      exact .configured rfl hhandling
    · exact hsame
  | read =>
    simp only [System.step, System.read]
    split
    · split
      · exact .quiet rfl rfl (.inl rfl) (.inl rfl)
      · exact hsame
    · exact hsame
  | start ready =>
    simp only [System.step, System.start]
    split
    · rename_i current hsupervisor
      split
      · exact .quiet rfl rfl (.inl rfl) (.inr (.inr (.inr ⟨_, hsupervisor, rfl⟩)))
      · exact .quiet rfl rfl (.inl rfl) (.inl rfl)
    · exact hsame
  | ended outcome =>
    simp only [System.step]
    split
    · exact .quiet rfl rfl (.inl rfl) (.inl rfl)
    · exact hsame
  | check =>
    simp only [System.step, System.check]
    split
    · split
      · exact .quiet rfl rfl (.inl rfl) (.inl rfl)
      · split
        · exact .quiet rfl rfl (.inl rfl) (.inl rfl)
        · exact .quiet rfl rfl (.inl rfl) (.inl rfl)
    · exact hsame
  | write =>
    simp only [System.step, System.write]
    split
    · rename_i current hsupervisor
      exact .recorded rfl hsupervisor
    · exact hsame

theorem holds_step {system : System} (h : Holds system) (event : Event) :
    Holds (System.step system event).1 := by
  have heffect := effect_step system event
  generalize (System.step system event).1 = after at heffect ⊢
  generalize (System.step system event).2 = acts at heffect
  unfold Holds at h ⊢
  cases heffect with
  | quiet hstate hfile hhandling =>
    rw [hstate, hfile]
    rcases hhandling with hkept | hnone | ⟨request, hcopied⟩
    · rw [hkept]
      exact h
    · rw [hnone]
      exact trivial
    · rw [hcopied]
      exact ⟨rfl, rfl, rfl⟩
  | persisted hhandling hpatched =>
    rw [hhandling] at h
    exact ⟨h, hpatched, rfl⟩
  | configured | connected | disconnected => exact trivial
  | recorded =>
    dsimp only
    split
    · exact trivial
    · rename_i hhandling
      rw [hhandling] at h
      exact ⟨h.settings, h.generation, h.authorize⟩
    · rename_i hhandling
      rw [hhandling] at h
      exact ⟨⟨h.1.settings, h.1.generation, h.1.authorize⟩, h.2⟩

theorem configured_eq {copy state : State} {next : Settings} (h : SameRequests copy state)
    (hrunning : next.enabled = copy.settings.enabled → state.running = copy.running) :
    copy.configured next = state.configured next := by
  by_cases henabled : next.enabled = copy.settings.enabled
  · rw [h.eq (hrunning henabled)]
  · unfold State.configured
    rw [if_pos henabled, if_pos (h.settings ▸ henabled), h.generation, h.authorize]

theorem sequential_step {system : System} {event : Event} (h : Holds system)
    (hapart : Apart system event) :
    (System.step system event).1.state =
      sequential system.state (System.step system event).2 := by
  have heffect := effect_step system event
  generalize (System.step system event).1 = after at heffect ⊢
  generalize (System.step system event).2 = acts at heffect ⊢
  unfold Holds at h
  cases heffect with
  | quiet hstate _ _ hacts =>
    rw [hstate]
    rcases hacts with rfl | ⟨settings, running, rfl⟩ | ⟨e, rfl⟩ | ⟨current, -, rfl⟩ <;> rfl
  | persisted => rfl
  | configured hevent hhandling =>
    subst hevent
    unfold Apart at hapart
    rw [hhandling] at h hapart
    obtain ⟨hsame, hpatched, -⟩ := h
    change _ = Request.apply system.state (.configure _)
    simp only [Request.apply]
    rw [← hsame.settings, hpatched]
    exact configured_eq hsame hapart
  | connected hhandling henabled =>
    rw [hhandling] at h
    change _ = Request.apply system.state .connect
    simp only [Request.apply, State.connected]
    rw [if_pos (h.settings ▸ henabled), h.settings, h.generation]
  | disconnected hhandling =>
    rw [hhandling] at h
    change _ = State.disconnected system.state
    unfold State.disconnected
    rw [h.settings, h.generation, h.authorize]
  | @recorded current hevent hsupervisor =>
    subst hevent
    unfold Apart at hapart
    rw [hsupervisor] at hapart
    change _ = if system.state.generation = current.generation then _ else _
    by_cases hgeneration : system.state.generation = current.generation
    · rw [if_pos hgeneration]
    · rw [if_neg hgeneration, ← hapart.resolve_left hgeneration]

theorem holds_run {system : System} (h : Holds system) (events : List Event) :
    Holds (run System.step system events).1 :=
  run_invariant System.step h (fun _ event hheld => holds_step hheld event) events

theorem sequential_run {system : System} (h : Holds system) (events : List Event)
    (hapart : Along System.step Apart system events) :
    (run System.step system events).1.state =
      sequential system.state ((run System.step system events).2.flatMap (·.2)) := by
  refine along_induction System.step (I := fun events => (run System.step system events).1.state =
    sequential system.state ((run System.step system events).2.flatMap (·.2))) rfl ?_ events hapart
  intro events event ih hevent
  rw [run_concat, List.flatMap_append, List.flatMap_singleton, sequential, List.foldl_append]
  rw [sequential] at ih
  rw [← ih]
  exact sequential_step (holds_run h events) hevent

/-! ## Sessions that were ended -/

def Act.asks : Act → Bool
  | .accepted _ asks => asks
  | _ => false

def Act.starts : Act → Bool
  | .started _ => true
  | _ => false

theorem configured_cases {copy : State} {next : Settings}
    (hasks : (next.enabled && !copy.settings.enabled) = false) :
    (copy.configured next).running = false ∨
      (next.enabled = copy.settings.enabled ∧ (copy.configured next).running = copy.running ∧
        (copy.configured next).generation = copy.generation) := by
  unfold State.configured
  by_cases henabled : next.enabled = copy.settings.enabled
  · rw [if_neg (not_not_intro henabled)]
    exact .inr ⟨henabled, rfl, rfl⟩
  · rw [if_pos henabled]
    refine .inl ?_
    dsimp only
    cases hnext : next.enabled
    · rfl
    · cases hold : copy.settings.enabled
      · rw [hnext, hold] at hasks
        cases hasks
      · rw [hnext, hold] at henabled
        exact absurd rfl henabled

/-- Nothing turns the state on unless it is asked for. -/
theorem running_step {system : System} {event : Event} (h : Holds system)
    (hapart : Apart system event)
    (hasks : ∀ act ∈ (System.step system event).2, act.asks = false) :
    (System.step system event).1.state.running = false ∨
      ((System.step system event).1.state.running = system.state.running ∧
        (System.step system event).1.state.generation = system.state.generation) := by
  have heffect := effect_step system event
  generalize (System.step system event).1 = after at heffect ⊢
  generalize (System.step system event).2 = acts at heffect hasks
  unfold Holds at h
  cases heffect with
  | quiet hstate =>
    rw [hstate]
    exact .inr ⟨rfl, rfl⟩
  | persisted => exact .inr ⟨rfl, rfl⟩
  | configured hevent hhandling =>
    subst hevent
    unfold Apart at hapart
    rw [hhandling] at h hapart
    rcases configured_cases (hasks _ List.mem_cons_self) with
      hoff | ⟨henabled, hrunning, hgeneration⟩
    · exact .inl hoff
    · exact .inr ⟨hrunning.trans (hapart henabled).symm, hgeneration.trans h.1.generation⟩
  | connected => cases hasks _ List.mem_cons_self
  | disconnected => exact .inl rfl
  | recorded => exact .inl rfl

/-- No session is prepared or running. -/
def Supervisor.Rests : Supervisor → Prop
  | .preparing _ => False
  | .session _ => False
  | _ => True

/-- The state is off, or about to be turned off for the user of the phone. -/
def Quiet (system : System) : Prop :=
  system.supervisor.Rests ∧
    (system.state.running = false ∨
      ∃ current, (system.supervisor = .ended current .byUser ∨
        system.supervisor = .ending current) ∧
          system.state.generation = current.generation)

theorem quiet_of_running {system after : System} (h : Quiet system)
    (hsupervisor : after.supervisor = system.supervisor)
    (hrunning : after.state.running = false ∨ (after.state.running = system.state.running ∧
      after.state.generation = system.state.generation)) : Quiet after := by
  unfold Quiet
  rw [hsupervisor]
  refine ⟨h.1, ?_⟩
  rcases hrunning with hoff | ⟨hsame, hgeneration⟩
  · exact .inl hoff
  · rw [hsame, hgeneration]
    exact h.2

/-- Only a session that was prepared is started. -/
theorem no_start {system : System} (hrests : system.supervisor.Rests) (event : Event) :
    ∀ act ∈ (System.step system event).2, act.starts = false := by
  have heffect := effect_step system event
  generalize (System.step system event).1 = after at heffect
  generalize (System.step system event).2 = acts at heffect ⊢
  have hsingle : ∀ act : Act, act.starts = false → ∀ other ∈ [act], other.starts = false := by
    intro act hact other hother
    rw [List.mem_singleton.mp hother]
    exact hact
  cases heffect with
  | quiet _ _ _ hacts =>
    rcases hacts with rfl | ⟨settings, running, rfl⟩ | ⟨e, rfl⟩ | ⟨current, hpreparing, rfl⟩
    · simp
    · exact hsingle _ rfl
    · exact hsingle _ rfl
    · rw [hpreparing] at hrests
      exact hrests.elim
  | persisted => simp
  | configured | connected | disconnected | recorded => exact hsingle _ rfl

/-- Where the supervisor is after a step. -/
inductive Turns (system : System) (event : Event) : Supervisor → Prop
  | same : Turns system event system.supervisor
  | prepared (hsupervisor : system.supervisor = .reading) (hrunning : system.state.running)
      (hevent : event = .read) : Turns system event (.preparing system.state)
  | begun {current : State} {next : Supervisor} (hsupervisor : system.supervisor = .preparing current)
      (hnext : next = .session current ∨ next = .reading) : Turns system event next
  | ended {current : State} (outcome : Outcome) (hsupervisor : system.supervisor = .session current) :
      Turns system event (.ended current outcome)
  | renewed {current : State} {outcome : Outcome}
      (hsupervisor : system.supervisor = .ended current outcome)
      (hlater : system.state.generation ≠ current.generation ∨ outcome ≠ .byUser) :
      Turns system event .reading
  | turned {current : State} {outcome : Outcome}
      (hsupervisor : system.supervisor = .ended current outcome)
      (hgeneration : system.state.generation = current.generation) :
      Turns system event (.ending current)
  | wrote {current : State} (hsupervisor : system.supervisor = .ending current)
      (hstate : (System.step system event).1.state.running = false) : Turns system event .reading

theorem turns_step (system : System) (event : Event) :
    Turns system event (System.step system event).1.supervisor := by
  have hsame : Turns system event system.supervisor := .same
  cases event with
  | request request =>
    simp only [System.step]
    split <;> exact hsame
  | persist written =>
    simp only [System.step, System.persist]
    split
    · split
      · exact hsame
      · split <;> exact hsame
    · exact hsame
  | answer =>
    simp only [System.step, System.answer]
    split
    · exact hsame
    · split <;> exact hsame
    · exact hsame
    · exact hsame
    · exact hsame
    · exact hsame
  | read =>
    simp only [System.step, System.read]
    split
    · rename_i hsupervisor
      split
      · rename_i hrunning
        exact .prepared hsupervisor hrunning.1 rfl
      · exact hsame
    · exact hsame
  | start ready =>
    simp only [System.step, System.start]
    split
    · rename_i current hsupervisor
      split
      · exact .begun hsupervisor (.inl rfl)
      · exact .begun hsupervisor (.inr rfl)
    · exact hsame
  | ended outcome =>
    simp only [System.step]
    split
    · rename_i current hsupervisor
      exact .ended outcome hsupervisor
    · exact hsame
  | check =>
    simp only [System.step, System.check]
    split
    · rename_i current outcome hsupervisor
      split
      · rename_i hlater
        exact .renewed hsupervisor (.inl hlater)
      · rename_i hgeneration
        split
        · exact .turned hsupervisor (not_not.mp hgeneration)
        · rename_i hretries
          exact .renewed hsupervisor (.inr (not_or.mp hretries).1)
    · exact hsame
  | write =>
    have hturns : (System.step system .write).1.supervisor = system.supervisor ∨
        ∃ current, system.supervisor = .ending current ∧
          (System.step system .write).1.supervisor = .reading ∧
            (System.step system .write).1.state.running = false := by
      simp only [System.step, System.write]
      split
      · rename_i current hsupervisor
        exact .inr ⟨current, hsupervisor, rfl, rfl⟩
      · exact .inl rfl
    rcases hturns with hkept | ⟨current, hsupervisor, hnext, hstate⟩
    · rw [hkept]
      exact hsame
    · rw [hnext]
      exact .wrote hsupervisor hstate

theorem quiet_step {system : System} {event : Event} (hquiet : Quiet system) (h : Holds system)
    (hapart : Apart system event)
    (hasks : ∀ act ∈ (System.step system event).2, act.asks = false) :
    Quiet (System.step system event).1 ∧
      ∀ act ∈ (System.step system event).2, act.starts = false := by
  have hrunning := running_step h hapart hasks
  refine ⟨?_, no_start hquiet.1 event⟩
  have hoff : system.state.running = false → (System.step system event).1.state.running = false := by
    intro hoff
    rcases hrunning with hdone | ⟨hkept, -⟩
    · exact hdone
    · exact hkept.trans hoff
  obtain ⟨hrests, hstate⟩ := hquiet
  have hturns := turns_step system event
  generalize hnext : (System.step system event).1.supervisor = next at hturns
  cases hturns with
  | same => exact quiet_of_running ⟨hrests, hstate⟩ hnext hrunning
  | prepared hsupervisor hon =>
    rw [hsupervisor] at hstate
    rcases hstate with hnot | ⟨current, hended | hending, -⟩
    · rw [hnot] at hon
      cases hon
    · cases hended
    · cases hending
  | begun hsupervisor | ended _ hsupervisor =>
    rw [hsupervisor] at hrests
    exact hrests.elim
  | renewed hsupervisor hlater =>
    unfold Quiet
    rw [hnext]
    refine ⟨trivial, .inl ?_⟩
    rw [hsupervisor] at hstate
    rcases hstate with hnot | ⟨current, hended | hending, hgeneration⟩
    · exact hoff hnot
    · cases hended
      exact absurd hlater (not_or.mpr ⟨not_not_intro hgeneration, not_not_intro rfl⟩)
    · cases hending
  | turned hsupervisor hgeneration =>
    unfold Quiet
    rw [hnext]
    refine ⟨trivial, ?_⟩
    rcases hrunning with hdone | ⟨-, hkept⟩
    · exact .inl hdone
    · exact .inr ⟨_, .inr rfl, hkept.trans hgeneration⟩
  | wrote hsupervisor hdone =>
    unfold Quiet
    rw [hnext]
    exact ⟨trivial, .inl hdone⟩

theorem quiet_ended {system : System} {current : State}
    (hsupervisor : system.supervisor = .session current)
    (hapart : Apart system (.ended .byUser)) : Quiet (System.step system (.ended .byUser)).1 := by
  unfold Apart at hapart
  rw [hsupervisor] at hapart
  simp only [System.step, hsupervisor]
  refine ⟨trivial, ?_⟩
  rcases hapart with hgeneration | hoff
  · exact .inr ⟨current, .inl rfl, hgeneration⟩
  · exact .inl hoff

theorem quiet_run {system : System} (h : Holds system) (hquiet : Quiet system)
    (events : List Event) (hapart : Along System.step Apart system events)
    (hasks : ∀ act ∈ (run System.step system events).2.flatMap (·.2), act.asks = false) :
    ∀ act ∈ (run System.step system events).2.flatMap (·.2), act.starts = false := by
  induction events generalizing system with
  | nil => simp [run]
  | cons event events ih =>
    simp only [run, List.flatMap_cons, List.forall_mem_append] at hasks ⊢
    obtain ⟨hnext, hstarts⟩ := quiet_step hquiet h hapart.1 hasks.1
    exact ⟨hstarts, ih (holds_step h event) hnext hapart.2 hasks.2⟩

/-! ## Connections that are not undone -/

def Act.connects : Act → Bool
  | .accepted .connect _ => true
  | _ => false

theorem configured_generation (copy : State) (next : Settings) :
    copy.generation ≤ (copy.configured next).generation := by
  unfold State.configured
  split
  · exact Nat.le_succ _
  · exact le_rfl

theorem generation_step {system : System} (h : Holds system) (event : Event) :
    system.state.generation ≤ (System.step system event).1.state.generation ∧
      ((∃ act ∈ (System.step system event).2, act.connects) →
        system.state.generation < (System.step system event).1.state.generation) := by
  have heffect := effect_step system event
  generalize (System.step system event).1 = after at heffect ⊢
  generalize (System.step system event).2 = acts at heffect ⊢
  have hsingle : ∀ act : Act, act.connects = false → ¬ ∃ other ∈ [act], other.connects = true := by
    rintro act hact ⟨other, hother, hconnects⟩
    rw [List.mem_singleton.mp hother, hact] at hconnects
    cases hconnects
  unfold Holds at h
  cases heffect with
  | quiet hstate _ _ hacts =>
    rw [hstate]
    refine ⟨le_rfl, fun hconnects => ?_⟩
    rcases hacts with rfl | ⟨settings, running, rfl⟩ | ⟨e, rfl⟩ | ⟨current, -, rfl⟩
    · obtain ⟨act, hact, -⟩ := hconnects
      cases hact
    · exact absurd hconnects (hsingle _ rfl)
    · exact absurd hconnects (hsingle _ rfl)
    · exact absurd hconnects (hsingle _ rfl)
  | persisted =>
    refine ⟨le_rfl, ?_⟩
    rintro ⟨act, hact, -⟩
    cases hact
  | configured _ hhandling =>
    rw [hhandling] at h
    rw [← h.1.generation]
    exact ⟨configured_generation .., fun hconnects => absurd hconnects (hsingle _ rfl)⟩
  | connected hhandling =>
    rw [hhandling] at h
    rw [← h.generation]
    exact ⟨Nat.le_succ _, fun _ => Nat.lt_succ_self _⟩
  | disconnected hhandling =>
    rw [hhandling] at h
    rw [← h.generation]
    exact ⟨Nat.le_succ _, fun _ => Nat.lt_succ_self _⟩
  | recorded => exact ⟨le_rfl, fun hconnects => absurd hconnects (hsingle _ rfl)⟩

/-- The state that the supervisor has read is no later than the present one. -/
def Known (system : System) : Prop :=
  match system.supervisor with
  | .reading => True
  | .preparing current => current.generation ≤ system.state.generation
  | .session current => current.generation ≤ system.state.generation
  | .ended current _ => current.generation ≤ system.state.generation
  | .ending current => current.generation ≤ system.state.generation

theorem known_step {system : System} (h : Holds system) (hknown : Known system) (event : Event) :
    Known (System.step system event).1 := by
  have hgeneration := (generation_step h event).1
  have hturns := turns_step system event
  unfold Known at hknown ⊢
  generalize (System.step system event).1.supervisor = next at hturns ⊢
  cases hturns with
  | same =>
    split
    · exact trivial
    all_goals
      rename_i hsupervisor
      rw [hsupervisor] at hknown
      exact hknown.trans hgeneration
  | prepared => exact hgeneration
  | begun hsupervisor hnext =>
    rw [hsupervisor] at hknown
    rcases hnext with rfl | rfl
    · exact hknown.trans hgeneration
    · exact trivial
  | ended _ hsupervisor | turned hsupervisor =>
    rw [hsupervisor] at hknown
    exact hknown.trans hgeneration
  | renewed | wrote => exact trivial

/-- The supervisor has done with the session, or is about to. -/
def Leaves (current : State) : Supervisor → Prop
  | .reading => True
  | .ended other _ => other = current
  | .ending other => other = current
  | _ => False

theorem leaves_step {system : System} {event : Event} {current : State}
    (h : Leaves current system.supervisor) (hread : event ≠ .read) :
    Leaves current (System.step system event).1.supervisor := by
  have hturns := turns_step system event
  generalize (System.step system event).1.supervisor = next at hturns ⊢
  cases hturns with
  | same => exact h
  | prepared _ _ hevent => exact absurd hevent hread
  | begun hsupervisor | ended _ hsupervisor =>
    rw [hsupervisor] at h
    exact h.elim
  | renewed | wrote => exact trivial
  | turned hsupervisor =>
    rw [hsupervisor] at h
    exact h

theorem leaves_run {system : System} {current : State} (hholds : Holds system)
    (h : Leaves current system.supervisor)
    (hgeneration : current.generation ≤ system.state.generation) (events : List Event)
    (hread : .read ∉ events) :
    let last := run System.step system events
    Leaves current last.1.supervisor ∧ current.generation ≤ last.1.state.generation ∧
      ((∃ act ∈ last.2.flatMap (·.2), act.connects) →
        current.generation < last.1.state.generation) := by
  induction events generalizing system with
  | nil =>
    refine ⟨h, hgeneration, ?_⟩
    rintro ⟨act, hact, -⟩
    cases hact
  | cons event events ih =>
    rw [List.mem_cons, not_or] at hread
    obtain ⟨hle, hlt⟩ := generation_step hholds event
    obtain ⟨hleaves, hlast, hconnects⟩ := ih (holds_step hholds event)
      (leaves_step h (Ne.symm hread.1)) (hgeneration.trans hle) hread.2
    refine ⟨hleaves, hlast, ?_⟩
    rintro ⟨act, hact, hconnect⟩
    simp only [run, List.flatMap_cons, List.mem_append] at hact ⊢
    rcases hact with hnow | hlater
    · have hmore := hlt ⟨act, hnow, hconnect⟩
      have hmonotone := run_invariant System.step (I := fun later => Holds later ∧
        (System.step system event).1.state.generation ≤ later.state.generation)
        ⟨holds_step hholds event, le_rfl⟩
        (fun later event hboth => ⟨holds_step hboth.1 event,
          hboth.2.trans (generation_step hboth.1 event).1⟩) events
      exact (hgeneration.trans_lt hmore).trans_le hmonotone.2
    · exact hconnects ⟨act, hlater, hconnect⟩

/-- What the supervisor writes for a session leaves a state that was asked for since. -/
theorem write_keeps {system : System} {current : State} (h : Leaves current system.supervisor)
    (hlater : current.generation < system.state.generation) (hapart : Apart system .write) :
    (System.step system .write).1.state = system.state := by
  simp only [System.step, System.write]
  unfold Apart at hapart
  split
  · rename_i other hsupervisor
    rw [hsupervisor] at h hapart
    obtain rfl : other = current := h
    have hoff := hapart.resolve_left hlater.ne'
    dsimp only
    rw [← hoff]
  · rfl

theorem known_run {system : System} (h : Holds system) (hknown : Known system)
    (events : List Event) : Known (run System.step system events).1 :=
  (run_invariant System.step (I := fun system => Holds system ∧ Known system) ⟨h, hknown⟩
    (fun _ event hboth => ⟨holds_step hboth.1 event, known_step hboth.1 hboth.2 event⟩) events).2

/-! ## Settings and their file -/

/-- A request that is refused has only copied the state. -/
theorem refused_step {system : System} {event : Event} {e : Refusal}
    (h : .refused e ∈ (System.step system event).2) :
    (System.step system event).1 = { system with handling := none } ∧
      ∃ request copy, system.handling = some (.copied request copy) := by
  cases event with
  | request request =>
    simp only [System.step] at h
    split at h <;> cases h
  | persist written =>
    simp only [System.step, System.persist] at h ⊢
    split
    · rename_i patch copy hhandling
      simp only [hhandling] at h
      split
      · exact ⟨rfl, _, copy, hhandling⟩
      · rename_i next hpatched
        rw [hpatched] at h
        cases written with
        | true => cases h
        | false => exact ⟨rfl, _, copy, hhandling⟩
    · rename_i hnot
      split at h
      · rename_i patch copy hhandling
        exact absurd hhandling (hnot patch copy)
      · cases h
  | answer =>
    simp only [System.step, System.answer, System.refuse, System.replace] at h ⊢
    rcases hhandling : system.handling with _ | ⟨_ | patch | _ | _ | _, copy⟩ | ⟨patch, copy, next⟩
    all_goals
      rw [hhandling] at h
      dsimp only at h ⊢
    · cases h
    · cases h
      contradiction
    · cases h
    · by_cases henabled : copy.settings.enabled
      · rw [if_pos henabled] at h
        cases h
        contradiction
      · rw [if_neg henabled]
        exact ⟨rfl, _, copy, rfl⟩
    · cases h
      contradiction
    · exact ⟨rfl, _, copy, rfl⟩
    · cases h
      contradiction
  | read => cases h
  | start ready =>
    simp only [System.step, System.start] at h
    split at h
    · split at h
      · cases h
        contradiction
      · cases h
    · cases h
  | ended outcome =>
    simp only [System.step] at h
    split at h <;> cases h
  | check =>
    simp only [System.step, System.check] at h
    split at h
    · split at h
      · cases h
      · split at h <;> cases h
    · cases h
  | write =>
    simp only [System.step, System.write] at h
    split at h
    · cases h
      contradiction
    · cases h

/-- Once a `configure` is accepted, the file holds the settings of the state. -/
theorem accepted_step {system : System} (h : Holds system) {event : Event}
    {patch : Option (List (String × Json))} {asks : Bool}
    (haccepted : .accepted (.configure patch) asks ∈ (System.step system event).2) :
    (System.step system event).1.file = some (System.step system event).1.state.settings := by
  have heffect := effect_step system event
  generalize (System.step system event).1 = after at heffect ⊢
  generalize (System.step system event).2 = acts at heffect haccepted
  unfold Holds at h
  cases heffect with
  | quiet _ _ _ hacts =>
    rcases hacts with rfl | ⟨settings, running, rfl⟩ | ⟨e, rfl⟩ | ⟨current, -, rfl⟩ <;> grind
  | persisted => cases haccepted
  | @configured other copy next _ hhandling =>
    rw [hhandling] at h
    have hsettings : (copy.configured next).settings = next := by
      unfold State.configured
      split <;> rfl
    rw [hsettings]
    exact h.2.2
  | connected | disconnected | recorded => grind

/-- While every step keeps its condition, the state is that of the accepted requests and the
ended sessions in their order, an ended session is not started again unasked, and what was
asked for after a session is not undone for it. Refusals change nothing. -/
theorem no_lost_updates (file : Option Settings) (options : Settings) (events : List Event)
    (hapart : Along System.step Apart (System.load file options) events) :
    let last := run System.step (System.load file options) events
    last.1.state = sequential (System.load file options).state (last.2.flatMap (·.2)) ∧
      (∀ current, last.1.supervisor = .session current → Apart last.1 (.ended .byUser) →
        ∀ more, Along System.step Apart (System.step last.1 (.ended .byUser)).1 more →
          let acts := (run System.step (System.step last.1 (.ended .byUser)).1 more).2.flatMap (·.2)
          (∀ act ∈ acts, act.asks = false) → ∀ act ∈ acts, act.starts = false) ∧
      (∀ current outcome, last.1.supervisor = .session current → ∀ more, .read ∉ more →
        let later := run System.step (System.step last.1 (.ended outcome)).1 more
        (∃ act ∈ later.2.flatMap (·.2), act.connects) → Apart later.1 .write →
          (System.step later.1 .write).1.state = later.1.state) ∧
      ∀ event, let next := System.step last.1 event
        (∀ e, .refused e ∈ next.2 → next.1 = { last.1 with handling := none } ∧
          ∃ request copy, last.1.handling = some (.copied request copy)) ∧
        ∀ patch asks, .accepted (.configure patch) asks ∈ next.2 →
          next.1.file = some next.1.state.settings := by
  intro last
  have hload : Holds (System.load file options) := trivial
  have hholds : Holds last.1 := holds_run hload events
  refine ⟨sequential_run hload events hapart, ?_, ?_, ?_⟩
  · intro current hsupervisor hended more hmore
    exact quiet_run (holds_step hholds _) (quiet_ended hsupervisor hended) more hmore
  · intro current outcome hsupervisor more hread later hconnects hwrite
    have hknown : Known last.1 := known_run hload trivial events
    unfold Known at hknown
    rw [hsupervisor] at hknown
    have hended : (System.step last.1 (.ended outcome)).1 =
        { last.1 with supervisor := .ended current outcome } := by
      simp only [System.step, hsupervisor]
    have hleaves : Leaves current (System.step last.1 (.ended outcome)).1.supervisor := by
      rw [hended]
      exact rfl
    have hgeneration :
        current.generation ≤ (System.step last.1 (.ended outcome)).1.state.generation := by
      rw [hended]
      exact hknown
    obtain ⟨hlast, -, hlater⟩ :=
      leaves_run (holds_step hholds _) hleaves hgeneration more hread
    exact write_keeps hlast (hlater hconnects) hwrite
  · intro event
    exact ⟨fun _ hrefused => refused_step hrefused,
      fun _ _ haccepted => accepted_step hholds haccepted⟩

/-- The settings of a car that connects by itself. -/
def usual : Settings where
  enabled := true
  autoConnect := true
  width := 800
  height := 480
  widthMm := 160
  heightMm := 90
  fps := 60
  rightHandDrive := false
  audioSink := none
  audioSource := none

/-- A session that was asked for is ended on the phone, which is recorded. -/
theorem no_session_after_end :
    let first := run System.step (System.load none usual)
      [.request .connect, .answer, .read, .start true]
    let ended := (System.step first.1 (.ended .byUser)).1
    let acts := (run System.step ended [.check, .write, .read, .start true]).2.flatMap (·.2)
    ∀ act ∈ acts, act.starts = false := by
  intro first ended acts
  have hapart : Along System.step Apart (System.load none usual)
      [.request .connect, .answer, .read, .start true] := by
    decide +kernel
  have hended : Apart first.1 (.ended .byUser) := by
    decide +kernel
  have hmore : Along System.step Apart ended [.check, .write, .read, .start true] := by
    decide +kernel
  obtain ⟨-, hstarts, -⟩ := no_lost_updates none usual _ hapart
  exact hstarts _ rfl hended _ hmore (by decide +kernel)

/-- A change of the width is copied before and answered after the supervisor has turned the
state off: a session starts again although neither order of the two leaves the state on. -/
theorem session_after_end :
    let change : Request := .configure (some [("width", .int 960)])
    let first := (run System.step (System.load none usual) [.read, .start true]).1
    let ended := (System.step first (.ended .byUser)).1
    let last := run System.step ended
      [.check, .request change, .write, .persist true, .answer, .read, .start true]
    let acts := last.2.flatMap (·.2)
    acts.any Act.asks = false ∧ acts.any Act.starts = true ∧ last.1.state.running = true ∧
      (sequential ended.state [.accepted change false, .recorded 0]).running = false ∧
      (sequential ended.state [.recorded 0, .accepted change false]).running = false := by
  decide +kernel

end ProjectArgo.CarPlay.Management
