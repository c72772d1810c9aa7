import ProjectArgo.Lifecycle.AppLifecycleCoordinator

/-!
# The order of a shutdown

A shutdown is a story that can be told from the outcomes of its handlers: each is invoked
after the one before it has ended, each failure is reported once, the first one as the
first, and the last line is the error of the first failure. Who takes part was decided
when the shutdown began; that this is still right when the turn comes takes that nothing
is unregistered in between.
-/
namespace ProjectArgo.Lifecycle

open Library.Run

variable {ε : Type*}

/-- Which of two registrations runs first: by phase, and within a phase the later one. -/
def ShutdownRegistration.Precedes (left right : ShutdownRegistration) : Prop :=
  left.phase.index < right.phase.index ∨
    left.phase.index = right.phase.index ∧ right.order < left.order

instance (left right : ShutdownRegistration) : Decidable (left.Precedes right) :=
  inferInstanceAs (Decidable (_ ∨ _))

instance : Std.Total ShutdownRegistration.Before where
  total left right := by
    unfold ShutdownRegistration.Before
    omega

instance : IsTrans ShutdownRegistration ShutdownRegistration.Before where
  trans left middle right := by
    unfold ShutdownRegistration.Before
    omega

theorem precedes_of_before {left right : ShutdownRegistration} (h : left.Before right)
    (hother : left.order ≠ right.order) : left.Precedes right := by
  unfold ShutdownRegistration.Before at h
  unfold ShutdownRegistration.Precedes
  omega

theorem precedes_ne {left right : ShutdownRegistration} (h : left.Precedes right) :
    left.phase = right.phase → left.order ≠ right.order := by
  intro hphase horder
  unfold ShutdownRegistration.Precedes at h
  rw [hphase, horder] at h
  omega

/-- The registrations that an act invokes. -/
def Act.invocation : Act ε → Option ShutdownRegistration
  | .invoked registration => some registration
  | _ => none

def invocations (acts : List (Act ε)) : List ShutdownRegistration := acts.filterMap Act.invocation

/-- A handler's registration with the error it ended with. -/
abbrev Outcome (ε : Type*) := ShutdownRegistration × Option ε

def firstFailure (outcomes : List (Outcome ε)) : Option ε := outcomes.findSome? Prod.snd

def resultOf (outcomes : List (Outcome ε)) : Except ε Unit :=
  match firstFailure outcomes with
  | none => .ok ()
  | some error => .error error

def Event.startupError : Event ε → Option ε
  | .startupFailed error => some error
  | _ => none

/-- The registrations of an execution that have not ended. -/
def Execution.queue (execution : Execution ε) : List ShutdownRegistration :=
  execution.current.toList ++ execution.remaining

namespace AppLifecycleCoordinator

section Story

variable (onCleanupFailure : Option (AppLifecycleCleanupFailure ε → Except ε Unit))

/-- What is told of handlers that have ended; `first` as long as none has failed. -/
def tell (first : Bool) : List (Outcome ε) → List (Act ε)
  | [] => []
  | (registration, none) :: rest =>
    .invoked registration :: .completed registration :: tell first rest
  | (registration, some error) :: rest =>
    .invoked registration :: .failed registration error ::
      (report onCleanupFailure
        { registrationName := registration.name
          phase := registration.phase
          error := error
          isFirstFailure := first } ++ tell false rest)

/-- The state of a coordinator with what has happened to it is that of an orderly shutdown. -/
structure Orderly (c : AppLifecycleCoordinator ε) (history : List (Event ε × List (Act ε))) :
    Prop where
  told : history.flatMap Prod.snd = [] ∨ ∃ outcomes,
    (∃ registration, history.flatMap Prod.snd =
      tell onCleanupFailure true outcomes ++ [.invoked registration]) ∨
    history.flatMap Prod.snd =
      tell onCleanupFailure true outcomes ++ [.ended (resultOf outcomes)]
  sorted : (invocations (history.flatMap Prod.snd)).Pairwise ShutdownRegistration.Precedes
  active : ∀ before entry after, history = before ++ entry :: after →
    ∀ registration, .invoked registration ∈ entry.2 →
      .unregister registration.order ∉ before.map Prod.fst
  noneSkipped : ∀ registration ∈ c.registrations,
    registration ∈ invocations (history.flatMap Prod.snd) ∨
      .unregister registration.order ∈ history.map Prod.fst ∨
        (∀ result, .ended result ∉ history.flatMap Prod.snd) ∧
          ∀ earlier ∈ invocations (history.flatMap Prod.snd), earlier.Precedes registration
  requested : (.shutdown ∈ history.map Prod.fst ∨
    ∃ error, .startupFailed error ∈ history.map Prod.fst) → history.flatMap Prod.snd ≠ []
  failed : c.startups.map FailedStartup.error =
    (history.map Prod.fst).filterMap Event.startupError
  rolledBack : ∀ startup ∈ c.startups, ∀ error, startup.outcome = some error →
    error = startup.error ∧ ∃ result, .ended result ∈ history.flatMap Prod.snd

end Story

/-- Nothing that still awaits its turn is unregistered during a shutdown, and nothing is registered
or shut down before the first handler is suspended. A registration is unregistered through its
handle. -/
def Calm (c : AppLifecycleCoordinator ε) : Event ε → Prop
  | .registerShutdown _ _ | .shutdown | .startupFailed _ => c.starting = []
  | .unregister order => order < c.nextOrder ∧ (c.nextExecution = 0 ∨ c.active order = false)
  | _ => True

instance (c : AppLifecycleCoordinator ε) : (event : Event ε) → Decidable (c.Calm event)
  | .registerShutdown _ _ | .shutdown | .startupFailed _ =>
    inferInstanceAs (Decidable (c.starting = []))
  | .unregister order =>
    inferInstanceAs (Decidable (order < c.nextOrder ∧ _))
  | .returned | .handlerEnded _ _ | .startupResumed _ => isTrue trivial

/-! ## Telling -/

section Telling

variable {onCleanupFailure : Option (AppLifecycleCleanupFailure ε → Except ε Unit)}

theorem invocations_append (left right : List (Act ε)) :
    invocations (left ++ right) = invocations left ++ invocations right :=
  List.filterMap_append

theorem invocations_report (failure : AppLifecycleCleanupFailure ε) :
    invocations (report onCleanupFailure failure) = [] := by
  unfold report
  split
  · rfl
  · split
    · rfl
    · rfl

theorem firstFailure_concat (outcomes : List (Outcome ε)) (outcome : Outcome ε) :
    firstFailure (outcomes ++ [outcome]) = (firstFailure outcomes).or outcome.2 := by
  unfold firstFailure
  rw [List.findSome?_append]
  obtain ⟨registration, _ | error⟩ := outcome
  · rfl
  · rfl

theorem tell_append (first : Bool) (outcomes more : List (Outcome ε)) :
    tell onCleanupFailure first (outcomes ++ more) =
      tell onCleanupFailure first outcomes ++
        tell onCleanupFailure (first && (firstFailure outcomes).isNone) more := by
  induction outcomes generalizing first with
  | nil =>
    rw [List.nil_append]
    show _ = [] ++ tell onCleanupFailure (first && true) more
    rw [Bool.and_true, List.nil_append]
  | cons outcome outcomes ih =>
    obtain ⟨registration, _ | error⟩ := outcome
    · simp only [List.cons_append, tell, ih]
      rfl
    · simp only [List.cons_append, tell, ih, List.append_assoc, Bool.false_and]
      simp [firstFailure]

theorem invocations_tell (first : Bool) (outcomes : List (Outcome ε)) :
    invocations (tell onCleanupFailure first outcomes) = outcomes.map Prod.fst := by
  induction outcomes generalizing first with
  | nil => rfl
  | cons outcome outcomes ih =>
    obtain ⟨registration, _ | error⟩ := outcome
    · exact congrArg (registration :: ·) (ih first)
    · show registration :: invocations (report onCleanupFailure _ ++ _) = _
      rw [invocations_append, invocations_report, ih]
      rfl

theorem not_ended_report (failure : AppLifecycleCleanupFailure ε) (result : Except ε Unit) :
    .ended result ∉ report onCleanupFailure failure := by
  unfold report
  split
  · exact List.not_mem_nil
  · split
    · simp
    · simp

theorem not_ended_tell (first : Bool) (outcomes : List (Outcome ε)) (result : Except ε Unit) :
    .ended result ∉ tell onCleanupFailure first outcomes := by
  induction outcomes generalizing first with
  | nil => exact List.not_mem_nil
  | cons outcome outcomes ih =>
    obtain ⟨registration, _ | error⟩ := outcome
    · simp only [tell, List.mem_cons, reduceCtorEq, false_or]
      exact ih first
    · simp only [tell, List.mem_cons, reduceCtorEq, false_or, List.mem_append]
      exact fun h => h.elim (not_ended_report _ result) (ih false)

end Telling

/-! ## The loop -/

section Loop

variable (onCleanupFailure : Option (AppLifecycleCleanupFailure ε → Except ε Unit))

/-- Where the one shutdown is: it awaits a handler, or it has ended. -/
inductive Stage (c : AppLifecycleCoordinator ε) (execution : Execution ε)
    (outcomes : List (Outcome ε)) (acts : List (Act ε)) : Prop
  | awaiting (registration : ShutdownRegistration)
    (current : execution.current = some registration) (result : execution.result = none)
    (future : c.starting = [] ∧ c.shutdownFuture = some 0 ∨
      c.starting = [0] ∧ c.shutdownFuture = none)
    (told : acts = tell onCleanupFailure true outcomes ++ [.invoked registration])
  | finished (current : execution.current = none) (remaining : execution.remaining = [])
    (result : execution.result = some (resultOf outcomes))
    (future : c.starting = [] ∧ c.shutdownFuture = some 0)
    (told : acts = tell onCleanupFailure true outcomes ++ [.ended (resultOf outcomes)])

/-- What the loop does with a coordinator leaves everything but the shutdown alone. -/
structure Advanced (c next : AppLifecycleCoordinator ε) : Prop where
  registrations : next.registrations = c.registrations
  nextOrder : next.nextOrder = c.nextOrder
  nextExecution : next.nextExecution = c.nextExecution
  startups : next.startups = c.startups

variable {onCleanupFailure}

theorem advance_stage {c : AppLifecycleCoordinator ε} {execution : Execution ε}
    {outcomes : List (Outcome ε)} {old : Option (Execution ε)}
    (hexecutions : c.executions = Function.update (fun _ => none) 0 old)
    (hfuture : c.starting = [] ∧ c.shutdownFuture = some 0 ∨
      c.starting = [0] ∧ c.shutdownFuture = none)
    (hfirst : execution.firstError = firstFailure outcomes) (hresult : execution.result = none) :
    ∃ after : Execution ε,
      (c.advance 0 execution).1.executions = Function.update (fun _ => none) 0 (some after) ∧
        after.firstError = execution.firstError ∧ after.queue = execution.remaining ∧
          Stage onCleanupFailure (c.advance 0 execution).1 after outcomes
            (tell onCleanupFailure true outcomes ++ (c.advance 0 execution).2) ∧
          Advanced c (c.advance 0 execution).1 ∧
          ∀ order, (∀ registration ∈ after.current, registration.order ≠ order) →
            (c.advance 0 execution).1.active order = c.active order := by
  unfold advance
  split
  · rename_i hremaining
    have hending : execution.ending = resultOf outcomes := by
      cases hfailure : firstFailure outcomes with
      | none => simp [Execution.ending, resultOf, hfirst, hfailure]
      | some error => simp [Execution.ending, resultOf, hfirst, hfailure]
    rw [hending]
    unfold finish
    refine ⟨{ execution with current := none, result := some execution.ending }, ?_⟩
    rcases hfuture with ⟨hstarting, hfuture⟩ | ⟨hstarting, hfuture⟩
    · simp only [hstarting, List.head?_nil, reduceCtorEq, if_false, hexecutions,
        Function.update_idem]
      exact ⟨trivial, trivial, hremaining.symm ▸ rfl,
        .finished rfl hremaining (congrArg some hending) ⟨rfl, hfuture⟩ rfl,
        ⟨rfl, rfl, rfl, rfl⟩, fun _ _ => trivial⟩
    · simp only [hstarting, List.head?_cons, if_true, returned, hexecutions, Function.update_idem]
      exact ⟨trivial, trivial, hremaining.symm ▸ rfl,
        .finished rfl hremaining (congrArg some hending) ⟨rfl, rfl⟩ rfl,
        ⟨rfl, rfl, rfl, rfl⟩, fun _ _ => trivial⟩
  · rename_i registration rest hremaining
    refine ⟨{ execution with remaining := rest, current := some registration }, ?_⟩
    simp only [hexecutions, Function.update_idem]
    refine ⟨trivial, trivial, ?_, .awaiting registration rfl hresult hfuture rfl,
      ⟨rfl, rfl, rfl, rfl⟩, ?_⟩
    · rw [hremaining]
      rfl
    · intro order horder
      exact Function.update_of_ne (horder registration rfl).symm _ _

end Loop

/-! ## What holds throughout -/

section Invariant

variable (onCleanupFailure : Option (AppLifecycleCleanupFailure ε → Except ε Unit))
  (c : AppLifecycleCoordinator ε) (events : List (Event ε)) (acts : List (Act ε))

structure Registered : Prop where
  distinct : (c.registrations.map ShutdownRegistration.order).Nodup
  below : ∀ registration ∈ c.registrations, registration.order < c.nextOrder
  handles : ∀ order, .unregister order ∈ events → order < c.nextOrder

structure Restored : Prop where
  failed : c.startups.map FailedStartup.error = events.filterMap Event.startupError
  rolledBack : ∀ startup ∈ c.startups, startup.awaited = 0 ∧ ∀ error, startup.outcome = some error →
    error = startup.error ∧ ∃ result, .ended result ∈ acts

/-- No shutdown has begun. -/
structure Waiting : Prop where
  nextExecution : c.nextExecution = 0
  executions : c.executions = fun _ => none
  future : c.starting = [] ∧ c.shutdownFuture = none
  acts : acts = []
  active : ∀ registration ∈ c.registrations,
    c.active registration.order = true ↔ .unregister registration.order ∉ events
  quiet : .shutdown ∉ events ∧ ∀ error, .startupFailed error ∉ events

/-- The one shutdown has begun. -/
structure Underway (execution : Execution ε) (outcomes : List (Outcome ε)) : Prop where
  nextExecution : c.nextExecution = 1
  executions : c.executions = Function.update (fun _ => none) 0 (some execution)
  firstError : execution.firstError = firstFailure outcomes
  stage : Stage onCleanupFailure c execution outcomes acts
  sorted : (outcomes.map Prod.fst ++ execution.queue).Pairwise ShutdownRegistration.Precedes
  known : ∀ registration ∈ outcomes.map Prod.fst ++ execution.queue,
    registration ∈ c.registrations
  covers : ∀ registration ∈ c.registrations,
    registration ∈ outcomes.map Prod.fst ++ execution.queue ∨
      .unregister registration.order ∈ events
  waiting : ∀ registration ∈ execution.remaining,
    c.active registration.order = true ∧ .unregister registration.order ∉ events

structure Sound : Prop where
  registered : Registered c events
  restored : Restored c events acts
  phase : Waiting c events acts ∨ ∃ execution outcomes,
    Underway onCleanupFailure c events acts execution outcomes

end Invariant

section Steps

variable {onCleanupFailure : Option (AppLifecycleCleanupFailure ε → Except ε Unit)}
  {c : AppLifecycleCoordinator ε} {events : List (Event ε)} {acts : List (Act ε)}
  {execution : Execution ε} {outcomes : List (Outcome ε)}

theorem order_injective (h : Registered c events) {left right : ShutdownRegistration}
    (hleft : left ∈ c.registrations) (hright : right ∈ c.registrations)
    (horder : left.order = right.order) : left = right :=
  List.inj_on_of_nodup_map h.distinct hleft hright horder

theorem precedes_irrefl (registration : ShutdownRegistration) :
    ¬registration.Precedes registration :=
  fun h => precedes_ne h rfl rfl

/-- Everything but the registering of handles, for an event that unregisters nothing. -/
theorem Registered.event (h : Registered c events) {next : AppLifecycleCoordinator ε}
    (hregistrations : next.registrations = c.registrations) (hnextOrder : next.nextOrder = c.nextOrder)
    {event : Event ε} (hevent : ∀ order, event = .unregister order → order < c.nextOrder) :
    Registered next (events ++ [event]) where
  distinct := by
    rw [hregistrations]
    exact h.distinct
  below := by
    rw [hregistrations, hnextOrder]
    exact h.below
  handles := by
    intro order horder
    rw [hnextOrder]
    rcases List.mem_append.mp horder with horder | horder
    · exact h.handles order horder
    · exact hevent order (List.mem_singleton.mp horder).symm

theorem not_unregister_concat {event : Event ε} {order : ℕ} (hother : event ≠ .unregister order)
    (h : .unregister order ∉ events) : .unregister order ∉ events ++ [event] := by
  intro hmem
  rcases List.mem_append.mp hmem with hmem | hmem
  · exact h hmem
  · exact hother (List.mem_singleton.mp hmem).symm

theorem mem_advance {id : ℕ} {registration : ShutdownRegistration}
    (h : .invoked registration ∈ (c.advance id execution).2) :
    registration ∈ execution.remaining := by
  unfold advance at h
  split at h
  · simp at h
  · rename_i first rest hremaining
    rw [hremaining]
    simp only [List.mem_singleton, Act.invoked.injEq] at h
    rw [h]
    exact List.mem_cons_self

/-- The loop goes on: what has ended joins the outcomes, and the next registration is invoked. -/
theorem underway_advance (hregistered : Registered c events)
    {old : Option (Execution ε)} (hnext : c.nextExecution = 1)
    (hexecutions : c.executions = Function.update (fun _ => none) 0 old)
    (hfuture : c.starting = [] ∧ c.shutdownFuture = some 0 ∨
      c.starting = [0] ∧ c.shutdownFuture = none)
    (hfirst : execution.firstError = firstFailure outcomes) (hresult : execution.result = none)
    (hsorted : (outcomes.map Prod.fst ++ execution.remaining).Pairwise
      ShutdownRegistration.Precedes)
    (hknown : ∀ registration ∈ outcomes.map Prod.fst ++ execution.remaining,
      registration ∈ c.registrations)
    (hcovers : ∀ registration ∈ c.registrations,
      registration ∈ outcomes.map Prod.fst ++ execution.remaining ∨
        .unregister registration.order ∈ events)
    (hwaiting : ∀ registration ∈ execution.remaining,
      c.active registration.order = true ∧ .unregister registration.order ∉ events)
    {event : Event ε} (hevent : ∀ order, event ≠ .unregister order) :
    ∃ after, Underway onCleanupFailure (c.advance 0 execution).1 (events ++ [event])
        (tell onCleanupFailure true outcomes ++ (c.advance 0 execution).2) after outcomes ∧
      Advanced c (c.advance 0 execution).1 := by
  obtain ⟨after, hafter, hafterFirst, hqueue, hstage, hadvanced, hactive⟩ :=
    @advance_stage _ onCleanupFailure _ _ _ _ hexecutions hfuture hfirst hresult
  refine ⟨after, ⟨hadvanced.nextExecution.trans hnext, hafter, hafterFirst.trans hfirst, hstage, ?_,
    ?_, ?_, ?_⟩, hadvanced⟩
  · rw [hqueue]
    exact hsorted
  · rw [hqueue, hadvanced.registrations]
    exact hknown
  · rw [hqueue, hadvanced.registrations]
    exact fun registration hmem =>
      (hcovers registration hmem).imp_right (List.mem_append_left _)
  · intro registration hmem
    have hremaining : registration ∈ execution.remaining := by
      rw [← hqueue]
      exact List.mem_append_right _ hmem
    obtain ⟨hwas, hkept⟩ := hwaiting registration hremaining
    refine ⟨?_, not_unregister_concat (hevent _) hkept⟩
    rw [hactive registration.order, hwas]
    -- The one that is awaited now comes before it.
    intro current hcurrent horder
    have hcurrentMem : current ∈ execution.remaining := by
      rw [← hqueue]
      exact List.mem_append_left _ (Option.mem_toList.mpr hcurrent)
    have hsame := order_injective hregistered (hknown _ (List.mem_append_right _ hcurrentMem))
      (hknown _ (List.mem_append_right _ hremaining)) horder
    have hpairs : (after.current.toList ++ after.remaining).Pairwise
        ShutdownRegistration.Precedes := by
      show after.queue.Pairwise _
      rw [hqueue]
      exact (List.pairwise_append.mp hsorted).2.1
    have hprecedes := (List.pairwise_append.mp hpairs).2.2 current (Option.mem_toList.mpr hcurrent)
      registration hmem
    rw [hsame] at hprecedes
    exact precedes_irrefl _ hprecedes

theorem Underway.event (h : Underway onCleanupFailure c events acts execution outcomes)
    {event : Event ε} (hevent : ∀ order, event ≠ .unregister order) :
    Underway onCleanupFailure c (events ++ [event]) acts execution outcomes where
  nextExecution := h.nextExecution
  executions := h.executions
  firstError := h.firstError
  stage := h.stage
  sorted := h.sorted
  known := h.known
  covers := fun registration hmem =>
    (h.covers registration hmem).imp_right (List.mem_append_left _)
  waiting := fun registration hmem =>
    ⟨(h.waiting registration hmem).1,
      not_unregister_concat (hevent _) (h.waiting registration hmem).2⟩

theorem Restored.event (h : Restored c events acts) {next : AppLifecycleCoordinator ε}
    (hstartups : next.startups = c.startups) {event : Event ε} (hevent : event.startupError = none)
    (more : List (Act ε)) : Restored next (events ++ [event]) (acts ++ more) where
  failed := by
    rw [hstartups, List.filterMap_append, h.failed]
    simp [hevent]
  rolledBack := by
    rw [hstartups]
    intro startup hmem
    refine ⟨(h.rolledBack startup hmem).1, ?_⟩
    intro error houtcome
    obtain ⟨herror, result, hended⟩ := (h.rolledBack startup hmem).2 error houtcome
    exact ⟨herror, result, List.mem_append_left _ hended⟩

/-- A shutdown is begun, or the one that has begun is awaited. -/
theorem underway_shutdown (h : Sound onCleanupFailure c events acts) (hstarting : c.starting = [])
    {event : Event ε} (hevent : ∀ order, event ≠ .unregister order) :
    c.shutdown.1 = 0 ∧
      (∃ after outcomes, Underway onCleanupFailure c.shutdown.2.1 (events ++ [event])
        (acts ++ c.shutdown.2.2) after outcomes) ∧
      c.shutdown.2.1.registrations = c.registrations ∧ c.shutdown.2.1.nextOrder = c.nextOrder ∧
        c.shutdown.2.1.startups = c.startups ∧
          ∀ registration, .invoked registration ∈ c.shutdown.2.2 →
            .unregister registration.order ∉ events := by
  rcases h.phase with hwaiting | ⟨execution, outcomes, hunderway⟩
  · have hbegun : c.shutdown =
        (0, c.begin.advance 0 { remaining := c.activeRegistrations }) := by
      unfold shutdown
      rw [hwaiting.future.2, hwaiting.nextExecution]
    rw [hbegun, hwaiting.acts]
    have hmem : ∀ registration ∈ c.activeRegistrations, registration ∈ c.registrations ∧
        c.active registration.order = true := by
      intro registration hmem
      exact List.mem_filter.mp ((List.mem_insertionSort _).mp hmem)
    have hkept : ∀ registration ∈ c.activeRegistrations,
        .unregister registration.order ∉ events := fun registration hregistration =>
      (hwaiting.active registration (hmem registration hregistration).1).mp
        (hmem registration hregistration).2
    have hsorted : c.activeRegistrations.Pairwise ShutdownRegistration.Precedes := by
      have hbefore : c.activeRegistrations.Pairwise ShutdownRegistration.Before :=
        List.pairwise_insertionSort _ _
      have hdistinct : (c.activeRegistrations.map ShutdownRegistration.order).Nodup := by
        have hperm := (List.perm_insertionSort ShutdownRegistration.Before
          (c.registrations.filter fun registration => c.active registration.order)).map
            ShutdownRegistration.order
        refine hperm.nodup_iff.mpr ?_
        exact h.registered.distinct.sublist (List.filter_sublist.map _)
      have hpairs := hbefore.and (List.pairwise_map.mp hdistinct)
      exact hpairs.imp fun hpair => precedes_of_before hpair.1 hpair.2
    obtain ⟨after, hafter, hadvanced⟩ : ∃ after,
        Underway onCleanupFailure (c.begin.advance 0 { remaining := c.activeRegistrations }).1
          (events ++ [event]) (tell onCleanupFailure true [] ++
            (c.begin.advance 0 { remaining := c.activeRegistrations }).2) after [] ∧
          Advanced c.begin (c.begin.advance 0 { remaining := c.activeRegistrations }).1 := by
      refine @underway_advance _ onCleanupFailure c.begin events
        { remaining := c.activeRegistrations } []
        ⟨h.registered.distinct, h.registered.below, h.registered.handles⟩ none ?_ ?_
        (Or.inr ⟨?_, hwaiting.future.2⟩) rfl rfl hsorted
        (fun registration hregistration => (hmem registration hregistration).1) ?_
        (fun registration hregistration =>
          ⟨(hmem registration hregistration).2, hkept registration hregistration⟩) event hevent
      · exact congrArg (· + 1) hwaiting.nextExecution
      · show c.executions = _
        rw [hwaiting.executions]
        exact (Function.update_eq_self 0 fun _ => none).symm
      · show c.nextExecution :: c.starting = [0]
        rw [hwaiting.nextExecution, hstarting]
      · intro registration hregistration
        by_cases hactive : c.active registration.order = true
        · refine Or.inl ((List.mem_insertionSort _).mpr ?_)
          exact List.mem_filter.mpr ⟨hregistration, hactive⟩
        · refine Or.inr ?_
          by_contra hnever
          exact hactive ((hwaiting.active registration hregistration).mpr hnever)
    exact ⟨rfl, ⟨after, [], hafter⟩, hadvanced.registrations, hadvanced.nextOrder,
      hadvanced.startups, fun registration hinvoked => hkept registration (mem_advance hinvoked)⟩
  · have hfuture : c.shutdownFuture = some 0 := by
      cases hunderway.stage with
      | awaiting _ _ _ hfuture _ =>
        rcases hfuture with ⟨-, hfuture⟩ | ⟨hnot, -⟩
        · exact hfuture
        · rw [hstarting] at hnot
          exact absurd hnot (by simp)
      | finished _ _ _ hfuture _ => exact hfuture.2
    unfold shutdown
    rw [hfuture]
    refine ⟨rfl, ⟨execution, outcomes, ?_⟩, rfl, rfl, rfl, fun _ hinvoked => absurd hinvoked ?_⟩
    · rw [List.append_nil]
      exact hunderway.event hevent
    · exact List.not_mem_nil

theorem sound_shutdown (h : Sound onCleanupFailure c events acts) (hstarting : c.starting = []) :
    Sound onCleanupFailure c.shutdown.2.1 (events ++ [.shutdown]) (acts ++ c.shutdown.2.2) := by
  obtain ⟨-, hunderway, hregistrations, hnextOrder, hstartups, -⟩ :=
    underway_shutdown h hstarting fun order => (nofun : Event.shutdown ≠ .unregister order)
  exact ⟨h.registered.event hregistrations hnextOrder (by simp),
    h.restored.event hstartups rfl _, Or.inr hunderway⟩

theorem sound_startupFailed (h : Sound onCleanupFailure c events acts) (hstarting : c.starting = [])
    (error : ε) :
    Sound onCleanupFailure (c.startupFailed error).1 (events ++ [.startupFailed error])
      (acts ++ (c.startupFailed error).2) := by
  obtain ⟨hawaited, ⟨after, outcomes, hunderway⟩, hregistrations, hnextOrder, hstartups, -⟩ :=
    underway_shutdown h hstarting
      fun order => (nofun : Event.startupFailed error ≠ .unregister order)
  have hregistered : Registered c.shutdown.2.1 (events ++ [.startupFailed error]) :=
    h.registered.event hregistrations hnextOrder (by simp)
  refine ⟨⟨hregistered.distinct, hregistered.below, hregistered.handles⟩, ⟨?_, ?_⟩,
    Or.inr ⟨after, outcomes,
    hunderway.nextExecution, hunderway.executions, hunderway.firstError, ?_, hunderway.sorted,
    hunderway.known, hunderway.covers, hunderway.waiting⟩⟩
  · show (c.shutdown.2.1.startups ++ [_]).map FailedStartup.error = _
    rw [hstartups, List.map_append, List.filterMap_append, h.restored.failed]
    rfl
  · intro startup hmem
    have hmem : startup ∈ c.shutdown.2.1.startups ++
      [{ error := error, awaited := c.shutdown.1 }] := hmem
    rw [hstartups] at hmem
    rcases List.mem_append.mp hmem with hmem | hmem
    · refine ⟨(h.restored.rolledBack startup hmem).1, ?_⟩
      intro thrown houtcome
      obtain ⟨hthrown, result, hended⟩ := (h.restored.rolledBack startup hmem).2 thrown houtcome
      exact ⟨hthrown, result, List.mem_append_left _ hended⟩
    · rw [List.mem_singleton.mp hmem]
      exact ⟨hawaited, by simp⟩
  · cases hunderway.stage with
    | awaiting registration hcurrent hresult hfuture htold =>
      exact .awaiting registration hcurrent hresult hfuture htold
    | finished hcurrent hremaining hresult hfuture htold =>
      exact .finished hcurrent hremaining hresult hfuture htold

/-- The handler that is awaited has ended, and the loop goes on. -/
theorem underway_ended (hregistered : Registered c events)
    (h : Underway onCleanupFailure c events acts execution outcomes)
    {registration : ShutdownRegistration} (hcurrent : execution.current = some registration)
    (error : Option ε) {event : Event ε} (hevent : ∀ order, event ≠ .unregister order) :
    ∃ after, Underway onCleanupFailure
        (c.advance 0 { execution with firstError := execution.firstError.or error }).1
        (events ++ [event])
        (tell onCleanupFailure true (outcomes ++ [(registration, error)]) ++
          (c.advance 0 { execution with firstError := execution.firstError.or error }).2)
        after (outcomes ++ [(registration, error)]) ∧
      Advanced c (c.advance 0 { execution with firstError := execution.firstError.or error }).1 := by
  have hqueue : outcomes.map Prod.fst ++ execution.queue =
      (outcomes ++ [(registration, error)]).map Prod.fst ++ execution.remaining := by
    unfold Execution.queue
    rw [hcurrent]
    simp
  have hsorted := h.sorted
  have hknown := h.known
  have hcovers := h.covers
  rw [hqueue] at hsorted hknown hcovers
  have hfirst : execution.firstError.or error =
      firstFailure (outcomes ++ [(registration, error)]) := by
    rw [firstFailure_concat, h.firstError]
  cases h.stage with
  | awaiting _ _ hresult hfuture _ =>
    exact @underway_advance _ onCleanupFailure c events
      { execution with firstError := execution.firstError.or error } _ hregistered _
      h.nextExecution h.executions hfuture hfirst hresult hsorted hknown hcovers h.waiting event
      hevent
  | finished hnone _ _ _ _ =>
    rw [hcurrent] at hnone
    exact absurd hnone (by simp)

theorem Registered.advanced (h : Registered c events) {next : AppLifecycleCoordinator ε}
    (hadvanced : Advanced c next) {event : Event ε} (hevent : ∀ order, event ≠ .unregister order) :
    Registered next (events ++ [event]) :=
  h.event hadvanced.registrations hadvanced.nextOrder
    fun order horder => absurd horder (hevent order)

/-- An event that changes nothing. -/
theorem Sound.event (h : Sound onCleanupFailure c events acts) {event : Event ε}
    (hevent : ∀ order, event ≠ .unregister order) (hshutdown : event ≠ .shutdown)
    (hstartup : event.startupError = none) :
    Sound onCleanupFailure c (events ++ [event]) (acts ++ []) := by
  refine ⟨h.registered.event rfl rfl fun order horder => absurd horder (hevent order),
    h.restored.event rfl hstartup _, ?_⟩
  rw [List.append_nil]
  rcases h.phase with hwaiting | ⟨execution, outcomes, hunderway⟩
  · refine Or.inl ⟨hwaiting.nextExecution, hwaiting.executions, hwaiting.future, hwaiting.acts, ?_,
      ?_, ?_⟩
    · intro registration hmem
      rw [hwaiting.active registration hmem, List.mem_append, not_or]
      exact ⟨fun hnever => ⟨hnever, fun hlast => hevent _ (List.mem_singleton.mp hlast).symm⟩,
        And.left⟩
    · intro hmem
      rcases List.mem_append.mp hmem with hmem | hmem
      · exact hwaiting.quiet.1 hmem
      · exact hshutdown (List.mem_singleton.mp hmem).symm
    · intro error hmem
      rcases List.mem_append.mp hmem with hmem | hmem
      · exact hwaiting.quiet.2 error hmem
      · rw [← List.mem_singleton.mp hmem] at hstartup
        exact absurd hstartup (by simp [Event.startupError])
  · exact Or.inr ⟨execution, outcomes, hunderway.event hevent⟩

theorem underway_execution (h : Underway onCleanupFailure c events acts execution outcomes) {id : ℕ}
    {found : Execution ε} (hfound : c.executions id = some found) : id = 0 ∧ found = execution := by
  rw [h.executions] at hfound
  by_cases hid : id = 0
  · subst hid
    rw [Function.update_self] at hfound
    exact ⟨rfl, (Option.some.inj hfound).symm⟩
  · rw [Function.update_of_ne hid] at hfound
    exact absurd hfound (by simp)

/-- What a handler that ends leads to: nothing, or the loop goes on. -/
theorem handlerEnded_cases (h : Sound onCleanupFailure c events acts) (id : ℕ) (error : Option ε) :
    handlerEnded onCleanupFailure c id error = (c, []) ∨
      ∃ execution outcomes registration,
        Underway onCleanupFailure c events acts execution outcomes ∧
        execution.current = some registration ∧
        (handlerEnded onCleanupFailure c id error).1 =
          (c.advance 0 { execution with firstError := execution.firstError.or error }).1 ∧
        acts ++ (handlerEnded onCleanupFailure c id error).2 =
          tell onCleanupFailure true (outcomes ++ [(registration, error)]) ++
            (c.advance 0 { execution with firstError := execution.firstError.or error }).2 ∧
        ∀ other, .invoked other ∈ (handlerEnded onCleanupFailure c id error).2 →
          .invoked other ∈
            (c.advance 0 { execution with firstError := execution.firstError.or error }).2 := by
  unfold handlerEnded
  split
  · exact Or.inl rfl
  · rename_i found hfound
    rcases h.phase with hwaiting | ⟨execution, outcomes, hunderway⟩
    · rw [hwaiting.executions] at hfound
      exact absurd hfound (by simp)
    · obtain ⟨rfl, rfl⟩ := underway_execution hunderway hfound
      split
      · exact Or.inl rfl
      · rename_i registration hcurrent
        split
        · exact Or.inl rfl
        · refine Or.inr ⟨found, outcomes, registration, hunderway, hcurrent, ?_⟩
          have hor : found.firstError.or none = found.firstError := Option.or_none
          rw [hor]
          refine ⟨rfl, ?_, fun other hother => by simpa using hother⟩
          cases hunderway.stage with
          | awaiting current hsome _ _ htold =>
            obtain rfl : registration = current := Option.some.inj (hcurrent.symm.trans hsome)
            rw [htold, tell_append]
            simp [tell]
          | finished hnone _ _ _ _ =>
            rw [hcurrent] at hnone
            exact absurd hnone (by simp)
      · rename_i registration thrown hcurrent
        split
        · exact Or.inl rfl
        · refine Or.inr ⟨found, outcomes, registration, hunderway, hcurrent, rfl, ?_, ?_⟩
          · cases hunderway.stage with
            | awaiting current hsome _ _ htold =>
              obtain rfl : registration = current := Option.some.inj (hcurrent.symm.trans hsome)
              rw [htold, tell_append, hunderway.firstError]
              simp [tell]
            | finished hnone _ _ _ _ =>
              rw [hcurrent] at hnone
              exact absurd hnone (by simp)
          · intro other hother
            have hreport : Act.invoked other ∉ report onCleanupFailure
                { registrationName := registration.name
                  phase := registration.phase
                  error := thrown
                  isFirstFailure := found.firstError.isNone } := by
              unfold report
              split
              · exact List.not_mem_nil
              · split
                · simp
                · simp
            simpa [hreport] using hother

theorem sound_handlerEnded (h : Sound onCleanupFailure c events acts) (id : ℕ) (error : Option ε) :
    Sound onCleanupFailure (handlerEnded onCleanupFailure c id error).1
      (events ++ [.handlerEnded id error])
      (acts ++ (handlerEnded onCleanupFailure c id error).2) := by
  have hevent : ∀ order, Event.handlerEnded id error ≠ .unregister order := by simp
  rcases handlerEnded_cases h id error with hnothing |
    ⟨execution, outcomes, registration, hunderway, hcurrent, hnext, htold, -⟩
  · rw [hnothing]
    exact h.event hevent (by simp) rfl
  · obtain ⟨after, hafter, hadvanced⟩ := underway_ended h.registered hunderway hcurrent error hevent
    have hrestored := h.restored.event hadvanced.startups
      (rfl : (Event.handlerEnded id error).startupError = none)
      (handlerEnded onCleanupFailure c id error).2
    rw [htold] at hrestored ⊢
    rw [hnext]
    exact ⟨h.registered.advanced hadvanced hevent, hrestored, Or.inr ⟨after, _, hafter⟩⟩

theorem sound_returned (h : Sound onCleanupFailure c events acts) :
    Sound onCleanupFailure c.returned (events ++ [.returned]) (acts ++ []) := by
  have hsound : Sound onCleanupFailure c (events ++ [.returned]) (acts ++ []) :=
    h.event (by simp) (by simp) rfl
  unfold returned
  split
  · exact hsound
  · rename_i id rest hstarting
    rcases hsound.phase with hwaiting | ⟨execution, outcomes, hunderway⟩
    · rw [hwaiting.future.1] at hstarting
      exact absurd hstarting (by simp)
    · obtain ⟨⟨hdistinct, hbelow, hhandles⟩, ⟨hfailed, hrolledBack⟩, -⟩ := hsound
      refine ⟨⟨hdistinct, hbelow, hhandles⟩, ⟨hfailed, hrolledBack⟩, Or.inr ⟨execution, outcomes,
        hunderway.nextExecution, hunderway.executions, hunderway.firstError, ?_, hunderway.sorted,
        hunderway.known, hunderway.covers, hunderway.waiting⟩⟩
      cases hunderway.stage with
      | awaiting registration hcurrent hresult hfuture htold =>
        rcases hfuture with ⟨hnone, -⟩ | ⟨hsome, -⟩
        · rw [hnone] at hstarting
          exact absurd hstarting (by simp)
        · obtain ⟨rfl, rfl⟩ := List.cons.inj (hsome.symm.trans hstarting)
          exact .awaiting registration hcurrent hresult (Or.inl ⟨rfl, rfl⟩) htold
      | finished _ _ _ hfuture _ =>
        rw [hfuture.1] at hstarting
        exact absurd hstarting (by simp)

theorem sound_registerShutdown (h : Sound onCleanupFailure c events acts)
    (hstarting : c.starting = []) (name : String) (phase : AppShutdownPhase) :
    Sound onCleanupFailure (step onCleanupFailure c (.registerShutdown name phase)).1
      (events ++ [.registerShutdown name phase]) (acts ++ []) := by
  have hsound : Sound onCleanupFailure c (events ++ [.registerShutdown name phase]) (acts ++ []) :=
    h.event (by simp) (by simp) rfl
  unfold step registerShutdown
  dsimp only
  by_cases hrequested : c.isShutdownRequested = true
  · rw [if_pos hrequested]
    exact hsound
  · rw [if_neg hrequested]
    split
    · exact hsound
    · rename_i next hnext
      split at hnext
      · exact absurd hnext (by simp)
      · obtain rfl := Except.ok.inj hnext
        have hfuture : c.shutdownFuture = none := by
          unfold isShutdownRequested at hrequested
          simpa using hrequested
        rcases hsound.phase with hwaiting | ⟨execution, outcomes, hunderway⟩
        · obtain ⟨⟨hdistinct, hbelow, hhandles⟩, ⟨hfailed, hrolledBack⟩, -⟩ := hsound
          refine ⟨⟨?_, ?_, ?_⟩, ⟨hfailed, hrolledBack⟩, Or.inl ⟨hwaiting.nextExecution,
            hwaiting.executions, hwaiting.future, hwaiting.acts, ?_, hwaiting.quiet⟩⟩
          · rw [List.map_append, List.nodup_append]
            refine ⟨hdistinct, List.nodup_singleton _, ?_⟩
            intro order horder last hlast
            obtain ⟨registration, hmem, rfl⟩ := List.mem_map.mp horder
            rw [List.mem_singleton.mp hlast]
            exact Nat.ne_of_lt (hbelow registration hmem)
          · intro registration hmem
            rcases List.mem_append.mp hmem with hmem | hmem
            · exact Nat.lt_succ_of_lt (hbelow registration hmem)
            · rw [List.mem_singleton.mp hmem]
              exact Nat.lt_succ_self _
          · exact fun order horder => Nat.lt_succ_of_lt (hhandles order horder)
          · intro registration hmem
            rcases List.mem_append.mp hmem with hmem | hmem
            · rw [← hwaiting.active registration hmem]
              show Function.update c.active c.nextOrder true registration.order = true ↔ _
              rw [Function.update_of_ne (Nat.ne_of_lt (hbelow registration hmem))]
            · rw [List.mem_singleton.mp hmem]
              show Function.update c.active c.nextOrder true c.nextOrder = true ↔ _
              rw [Function.update_self]
              refine iff_of_true rfl ?_
              intro horder
              exact absurd (hhandles _ horder) (Nat.lt_irrefl _)
        · cases hunderway.stage with
          | awaiting _ _ _ hsome _ =>
            rcases hsome with ⟨-, hsome⟩ | ⟨hsome, -⟩
            · rw [hfuture] at hsome
              exact absurd hsome (by simp)
            · rw [hstarting] at hsome
              exact absurd hsome (by simp)
          | finished _ _ _ hsome _ =>
            rw [hfuture] at hsome
            exact absurd hsome.2 (by simp)

theorem sound_unregister (h : Sound onCleanupFailure c events acts) {order : ℕ}
    (hcalm : order < c.nextOrder ∧ (c.nextExecution = 0 ∨ c.active order = false)) :
    Sound onCleanupFailure (c.unregister order) (events ++ [.unregister order]) (acts ++ []) := by
  obtain ⟨horder, hcalm⟩ := hcalm
  have hregistered : Registered c (events ++ [.unregister order]) :=
    h.registered.event rfl rfl fun other hother => by
      obtain rfl := Event.unregister.inj hother
      exact horder
  have hrestored : Restored c (events ++ [.unregister order]) (acts ++ []) :=
    h.restored.event rfl rfl _
  refine ⟨⟨hregistered.distinct, hregistered.below, hregistered.handles⟩,
    ⟨hrestored.failed, hrestored.rolledBack⟩, ?_⟩
  rw [List.append_nil]
  rcases h.phase with hwaiting | ⟨execution, outcomes, hunderway⟩
  · refine Or.inl ⟨hwaiting.nextExecution, hwaiting.executions, hwaiting.future, hwaiting.acts, ?_,
      by simpa using hwaiting.quiet.1, by simpa using hwaiting.quiet.2⟩
    intro registration hmem
    show Function.update c.active order false registration.order = true ↔ _
    by_cases hsame : registration.order = order
    · rw [hsame, Function.update_self]
      simp
    · rw [Function.update_of_ne hsame, hwaiting.active registration hmem]
      simp [hsame]
  · have hinactive : c.active order = false := by
      refine hcalm.resolve_left ?_
      rw [hunderway.nextExecution]
      exact Nat.one_ne_zero
    refine Or.inr ⟨execution, outcomes, hunderway.nextExecution, hunderway.executions,
      hunderway.firstError, ?_, hunderway.sorted, hunderway.known, ?_, ?_⟩
    · cases hunderway.stage with
      | awaiting registration hcurrent hresult hfuture htold =>
        exact .awaiting registration hcurrent hresult hfuture htold
      | finished hcurrent hremaining hresult hfuture htold =>
        exact .finished hcurrent hremaining hresult hfuture htold
    · exact fun registration hmem =>
        (hunderway.covers registration hmem).imp_right (List.mem_append_left _)
    · intro registration hmem
      obtain ⟨hactive, hnever⟩ := hunderway.waiting registration hmem
      have hother : registration.order ≠ order := by
        intro hsame
        rw [hsame, hinactive] at hactive
        exact absurd hactive (by simp)
      refine ⟨?_, ?_⟩
      · show Function.update c.active order false registration.order = true
        rw [Function.update_of_ne hother]
        exact hactive
      · exact not_unregister_concat (fun hsame => hother (Event.unregister.inj hsame).symm) hnever

theorem sound_startupResumed (h : Sound onCleanupFailure c events acts) (id : ℕ) :
    Sound onCleanupFailure (c.startupResumed id) (events ++ [.startupResumed id]) (acts ++ []) := by
  have hsound : Sound onCleanupFailure c (events ++ [.startupResumed id]) (acts ++ []) :=
    h.event (by simp) (by simp) rfl
  unfold startupResumed
  split
  · exact hsound
  · rename_i startup hstartup
    split
    · exact hsound
    · rename_i result hresult
      split
      · exact hsound
      · have hmem : startup ∈ c.startups := List.mem_of_getElem? hstartup
        rw [(hsound.restored.rolledBack startup hmem).1] at hresult
        rcases hsound.phase with hwaiting | ⟨execution, outcomes, hunderway⟩
        · rw [hwaiting.executions] at hresult
          exact absurd hresult (by simp)
        · rw [hunderway.executions, Function.update_self] at hresult
          have hended : ∃ result, .ended result ∈ acts ++ [] := by
            cases hunderway.stage with
            | awaiting _ _ hnone _ _ =>
              have hresult : execution.result = some result := hresult
              rw [hnone] at hresult
              exact absurd hresult (by simp)
            | finished _ _ _ _ htold =>
              rw [htold]
              exact ⟨_, List.mem_append_right _ (List.mem_singleton.mpr rfl)⟩
          obtain ⟨⟨hdistinct, hbelow, hhandles⟩, ⟨hfailed, hrolledBack⟩, -⟩ := hsound
          refine ⟨⟨hdistinct, hbelow, hhandles⟩, ⟨?_, ?_⟩, Or.inr ⟨execution, outcomes,
            hunderway.nextExecution, hunderway.executions, hunderway.firstError, ?_,
            hunderway.sorted, hunderway.known, hunderway.covers, hunderway.waiting⟩⟩
          · rw [← hfailed]
            show (c.startups.set id _).map FailedStartup.error = _
            obtain ⟨hid, rfl⟩ := List.getElem?_eq_some_iff.mp hstartup
            rw [List.map_set, ← List.getElem_map FailedStartup.error]
            · exact List.set_getElem_self _
            · rwa [List.length_map]
          · intro other hother
            rcases List.mem_or_eq_of_mem_set hother with hother | rfl
            · exact hrolledBack other hother
            · refine ⟨(hrolledBack startup hmem).1, ?_⟩
              intro error herror
              exact ⟨(Option.some.inj herror).symm, hended⟩
          · cases hunderway.stage with
            | awaiting registration hcurrent hresult hfuture htold =>
              exact .awaiting registration hcurrent hresult hfuture htold
            | finished hcurrent hremaining hresult hfuture htold =>
              exact .finished hcurrent hremaining hresult hfuture htold

theorem sound_step (h : Sound onCleanupFailure c events acts) (event : Event ε)
    (hcalm : c.Calm event) :
    Sound onCleanupFailure (step onCleanupFailure c event).1 (events ++ [event])
      (acts ++ (step onCleanupFailure c event).2) := by
  cases event with
  | registerShutdown name phase =>
    have hacts : (step onCleanupFailure c (.registerShutdown name phase)).2 = [] := by
      unfold step
      dsimp only
      split
      · rfl
      · rfl
    rw [hacts]
    exact sound_registerShutdown h hcalm name phase
  | unregister order => exact sound_unregister h hcalm
  | shutdown => exact sound_shutdown h hcalm
  | returned => exact sound_returned h
  | handlerEnded id error => exact sound_handlerEnded h id error
  | startupFailed error => exact sound_startupFailed h hcalm error
  | startupResumed id => exact sound_startupResumed h id

/-- Nothing is invoked that has been unregistered. -/
theorem step_invokes (h : Sound onCleanupFailure c events acts) (event : Event ε)
    (hcalm : c.Calm event) {registration : ShutdownRegistration}
    (hinvoked : .invoked registration ∈ (step onCleanupFailure c event).2) :
    .unregister registration.order ∉ events := by
  cases event with
  | registerShutdown name phase =>
    unfold step at hinvoked
    dsimp only at hinvoked
    split at hinvoked
    · exact absurd hinvoked List.not_mem_nil
    · exact absurd hinvoked List.not_mem_nil
  | unregister order => exact absurd hinvoked List.not_mem_nil
  | shutdown =>
    obtain ⟨-, -, -, -, -, hkept⟩ := underway_shutdown h hcalm
      fun order => (nofun : Event.shutdown ≠ .unregister order)
    exact hkept registration hinvoked
  | returned => exact absurd hinvoked List.not_mem_nil
  | handlerEnded id error =>
    rcases handlerEnded_cases h id error with hnothing |
      ⟨execution, outcomes, ended, hunderway, -, -, -, hfrom⟩
    · have hinvoked : .invoked registration ∈ (handlerEnded onCleanupFailure c id error).2 := hinvoked
      rw [hnothing] at hinvoked
      exact absurd hinvoked List.not_mem_nil
    · have hremaining := mem_advance (hfrom registration hinvoked)
      exact (hunderway.waiting registration hremaining).2
  | startupFailed error =>
    obtain ⟨-, -, -, -, -, hkept⟩ := underway_shutdown h hcalm
      fun order => (nofun : Event.shutdown ≠ .unregister order)
    exact hkept registration hinvoked
  | startupResumed id => exact absurd hinvoked List.not_mem_nil

theorem sound_start : Sound onCleanupFailure ({} : AppLifecycleCoordinator ε) [] [] where
  registered := ⟨List.nodup_nil, by simp, by simp⟩
  restored := ⟨rfl, by simp⟩
  phase := Or.inl ⟨rfl, rfl, ⟨rfl, rfl⟩, rfl, by simp, by simp, by simp⟩

/-! ## Whole shutdowns -/

theorem invocations_stage (h : Underway onCleanupFailure c events acts execution outcomes) :
    invocations acts = outcomes.map Prod.fst ++ execution.current.toList := by
  cases h.stage with
  | awaiting registration hcurrent _ _ htold =>
    rw [htold, invocations_append, invocations_tell, hcurrent]
    rfl
  | finished hnone _ _ _ htold =>
    rw [htold, invocations_append, invocations_tell, hnone]
    rfl

theorem Sound.orderly {history : List (Event ε × List (Act ε))}
    (h : Sound onCleanupFailure c (history.map Prod.fst) (history.flatMap Prod.snd))
    (hactive : ∀ before entry after, history = before ++ entry :: after →
      ∀ registration, .invoked registration ∈ entry.2 →
        .unregister registration.order ∉ before.map Prod.fst) :
    Orderly onCleanupFailure c history := by
  have hrolledBack : ∀ startup ∈ c.startups, ∀ error, startup.outcome = some error →
      error = startup.error ∧ ∃ result, .ended result ∈ history.flatMap Prod.snd :=
    fun startup hmem => (h.restored.rolledBack startup hmem).2
  rcases h.phase with hwaiting | ⟨execution, outcomes, hunderway⟩
  · refine ⟨Or.inl hwaiting.acts, ?_, hactive, ?_, ?_, h.restored.failed, hrolledBack⟩
    · rw [hwaiting.acts]
      exact List.Pairwise.nil
    · intro registration _
      rw [hwaiting.acts]
      exact Or.inr (Or.inr ⟨fun _ => List.not_mem_nil, by simp [invocations]⟩)
    · rintro (hshutdown | ⟨error, hfailed⟩)
      · exact absurd hshutdown hwaiting.quiet.1
      · exact absurd hfailed (hwaiting.quiet.2 error)
  · have hinvocations := invocations_stage hunderway
    have hsequence : outcomes.map Prod.fst ++ execution.queue =
        invocations (history.flatMap Prod.snd) ++ execution.remaining := by
      rw [hinvocations, List.append_assoc]
      rfl
    have hsorted := hunderway.sorted
    have hcovers := hunderway.covers
    rw [hsequence] at hsorted hcovers
    refine ⟨?_, (List.pairwise_append.mp hsorted).1, hactive, ?_, ?_, h.restored.failed,
      hrolledBack⟩
    · cases hunderway.stage with
      | awaiting registration _ _ _ htold =>
        exact Or.inr ⟨outcomes, Or.inl ⟨registration, htold⟩⟩
      | finished _ _ _ _ htold => exact Or.inr ⟨outcomes, Or.inr htold⟩
    · intro registration hmem
      rcases hcovers registration hmem with hsequenced | hunregistered
      · rcases List.mem_append.mp hsequenced with hinvoked | hremaining
        · exact Or.inl hinvoked
        · refine Or.inr (Or.inr ⟨?_, fun earlier hearlier =>
            (List.pairwise_append.mp hsorted).2.2 earlier hearlier registration hremaining⟩)
          intro result
          cases hunderway.stage with
          | awaiting current _ _ _ htold =>
            rw [htold]
            simp [not_ended_tell]
          | finished _ hnone _ _ _ =>
            rw [hnone] at hremaining
            exact absurd hremaining List.not_mem_nil
      · exact Or.inr (Or.inl hunregistered)
    · intro _ hnone
      cases hunderway.stage with
      | awaiting _ _ _ _ htold =>
        rw [hnone] at htold
        exact absurd htold (by simp)
      | finished _ _ _ _ htold =>
        rw [hnone] at htold
        exact absurd htold (by simp)

end Steps

/-- Handlers that end in any way and at any time, a failing reporter and further shutdowns do not
disturb a shutdown: in every run all of whose steps are calm, it is orderly. -/
theorem calm_run_orderly
    (onCleanupFailure : Option (AppLifecycleCleanupFailure ε → Except ε Unit))
    (events : List (Event ε)) (hcalm : Along (step onCleanupFailure) Calm {} events) :
    Orderly onCleanupFailure (run (step onCleanupFailure) {} events).1
      (run (step onCleanupFailure) {} events).2 := by
  have hrun := along_induction (step onCleanupFailure) (I := fun events =>
    Sound onCleanupFailure (run (step onCleanupFailure) {} events).1
        ((run (step onCleanupFailure) {} events).2.map Prod.fst)
        ((run (step onCleanupFailure) {} events).2.flatMap Prod.snd) ∧
      Guarded (fun before entry => ∀ registration, .invoked registration ∈ entry.2 →
        .unregister registration.order ∉ before.map Prod.fst)
          (run (step onCleanupFailure) {} events).2) ?_ ?_ events hcalm
  · exact hrun.1.orderly hrun.2
  · exact ⟨sound_start, guarded_nil _⟩
  · intro events event ⟨hsound, hguarded⟩ hevent
    rw [run_concat]
    refine ⟨?_, guarded_concat.mpr ⟨hguarded, fun registration hinvoked =>
      step_invokes hsound event hevent hinvoked⟩⟩
    simp only [List.map_append, List.flatMap_append, List.map_cons, List.map_nil,
      List.flatMap_cons, List.flatMap_nil, List.append_nil]
    exact sound_step hsound event hevent

/-- A startup fails after two registrations; the later one fails as well, and what reports it. -/
theorem calm_run_orderly_rollback :
    Orderly (some fun _ : AppLifecycleCleanupFailure String => .error "diagnostics")
      (run (step (some fun _ : AppLifecycleCleanupFailure String => .error "diagnostics")) {}
        [.registerShutdown "first" .releaseResources, .registerShutdown "second" .releaseResources,
          .startupFailed "startup", .handlerEnded 0 (some "cleanup"), .returned,
          .handlerEnded 0 none, .startupResumed 0]).1
      (run (step (some fun _ : AppLifecycleCleanupFailure String => .error "diagnostics")) {}
        [.registerShutdown "first" .releaseResources, .registerShutdown "second" .releaseResources,
          .startupFailed "startup", .handlerEnded 0 (some "cleanup"), .returned,
          .handlerEnded 0 none, .startupResumed 0]).2 :=
  calm_run_orderly _ _ (by decide +kernel)

end AppLifecycleCoordinator
end ProjectArgo.Lifecycle
