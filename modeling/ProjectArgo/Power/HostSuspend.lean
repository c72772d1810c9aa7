import Mathlib
import ProjectArgo.Power.HostPowerBridge

/-!
# When the host is suspended

The history of a run tells everything a suspend needs: which standby episode
the power service shows, which request was accepted and authorized, and what it
has awaited since. The invariant ties what the bridge awaits to that history;
an episode is unspent while no suspend was issued in it.
-/
namespace ProjectArgo.Power

open Library.Run

/-! ## What a history says -/

/-- The state of the vehicle and the number of its standby episodes so far. -/
structure Episodes where
  state : HeadUnitOperationalState
  episode : ℕ
  deriving DecidableEq

def Episodes.start (current : HeadUnitOperationalState) : Episodes :=
  ⟨current, if current = .standby then 1 else 0⟩

/-- An episode begins when the state becomes standby. -/
def Episodes.observe (power : Episodes) : Input → Episodes
  | .powerChanged state =>
    let next := HeadUnitOperationalState.fromVehiclePowerState state
    ⟨next, power.episode + if next = .standby ∧ power.state ≠ .standby then 1 else 0⟩
  | _ => power

def episodesAfter (current : HeadUnitOperationalState) (history : List Entry) : Episodes :=
  history.foldl (fun power entry => power.observe entry.1) (Episodes.start current)

@[simp] theorem episodesAfter_nil (current : HeadUnitOperationalState) :
    episodesAfter current [] = Episodes.start current := rfl

@[simp] theorem episodesAfter_concat (current : HeadUnitOperationalState) (history : List Entry)
    (entry : Entry) :
    episodesAfter current (history ++ [entry]) = (episodesAfter current history).observe entry.1 := by
  simp [episodesAfter, List.foldl_append]

/-- `n` operations were entered and not left. -/
def Running (n : ℕ) (history : List Entry) : Prop :=
  (history.map fun entry => entry.2.countP Effect.isEnter).sum =
    (history.map fun entry => entry.2.countP Effect.isLeave).sum + n

/-- Nothing was done but writing diagnostics. -/
def Quiet (history : List Entry) : Prop :=
  ∀ entry ∈ history, ∀ effect ∈ entry.2, effect.isDiagnostic = true

/-- No suspend was issued in the episode. -/
def Unspent (current : HeadUnitOperationalState) (episode : ℕ) : List Entry → Prop :=
  Guarded fun before entry =>
    .suspend ∈ entry.2 → (episodesAfter current before).episode ≠ episode

def Closed (history : List Entry) : Prop := .close ∈ history.map Prod.fst

/-- A request entered while no operation was in progress, and nothing since. -/
def Accepted (operation : Operation) (source : Option String) (history : List Entry) : Prop :=
  ∃ before waiting,
    history = before ++ (.requested operation source, [.enter operation]) :: waiting ∧
    Running 0 before ∧ Quiet waiting

/-- An accepted suspend request of an authorized plugin, admitted in a standby
episode with an attempt to flush the settings, and nothing since. -/
def Admitted (setting : Setting) (current : HeadUnitOperationalState) (episode : ℕ)
    (history : List Entry) : Prop :=
  ∃ accepted pluginId seen effects flushing,
    history = accepted ++ (.authorized seen, effects) :: flushing ∧
    Accepted .suspend (some pluginId) accepted ∧
    (allows setting.canonicalPluginRoot pluginId seen).1 = some true ∧
    episodesAfter current accepted = ⟨.standby, episode⟩ ∧
    .flush ∈ effects ∧ Quiet flushing

/-- An admitted request whose flush has ended and which then asked the transport
to quiesce, and nothing since. -/
def Quiescing (setting : Setting) (current : HeadUnitOperationalState) (episode : ℕ)
    (history : List Entry) : Prop :=
  ∃ admitted ok effects quiescing,
    history = admitted ++ (.flushed ok, effects) :: quiescing ∧
    Admitted setting current episode admitted ∧ .quiesce ∈ effects ∧ Quiet quiescing

/-- What has to be so for a suspend to be issued in answer to an input. -/
def SuspendAllowed (setting : Setting) (current : HeadUnitOperationalState)
    (past : List Entry) (input : Input) : Prop :=
  input = .quiesced true ∧
  (episodesAfter current past).state = .standby ∧
  Quiescing setting current (episodesAfter current past).episode past ∧
  Unspent current (episodesAfter current past).episode past ∧
  Running 1 past ∧ ¬Closed past

/-! ## Extending a history -/

theorem running_nil : Running 0 [] := rfl

theorem running_concat {n : ℕ} {history : List Entry} {entry : Entry} {m : ℕ}
    (h : Running n history)
    (hentry : n + entry.2.countP Effect.isEnter = m + entry.2.countP Effect.isLeave) :
    Running m (history ++ [entry]) := by
  unfold Running at h ⊢
  rw [List.map_append, List.map_append, List.sum_append, List.sum_append, h]
  simp only [List.map_cons, List.map_nil, List.sum_cons, List.sum_nil]
  omega

theorem quiet_nil : Quiet [] := by
  intro entry hmem
  simp at hmem

theorem quiet_concat {history : List Entry} {entry : Entry} (h : Quiet history)
    (hentry : ∀ effect ∈ entry.2, effect.isDiagnostic = true) : Quiet (history ++ [entry]) := by
  intro other hmem
  rcases List.mem_append.mp hmem with hold | hnew
  · exact h other hold
  · rw [List.mem_singleton.mp hnew]
    exact hentry

theorem Accepted.quiet {operation : Operation} {source : Option String} {history : List Entry}
    {entry : Entry} (h : Accepted operation source history)
    (hentry : ∀ effect ∈ entry.2, effect.isDiagnostic = true) :
    Accepted operation source (history ++ [entry]) := by
  obtain ⟨before, waiting, rfl, hrunning, hquiet⟩ := h
  exact ⟨before, waiting ++ [entry], by simp, hrunning, quiet_concat hquiet hentry⟩

theorem Admitted.quiet {setting : Setting} {current : HeadUnitOperationalState} {episode : ℕ}
    {history : List Entry} {entry : Entry} (h : Admitted setting current episode history)
    (hentry : ∀ effect ∈ entry.2, effect.isDiagnostic = true) :
    Admitted setting current episode (history ++ [entry]) := by
  obtain ⟨accepted, pluginId, seen, effects, flushing, rfl, haccepted, hallowed, hpower, hflush,
    hquiet⟩ := h
  exact ⟨accepted, pluginId, seen, effects, flushing ++ [entry], by simp, haccepted, hallowed,
    hpower, hflush, quiet_concat hquiet hentry⟩

theorem Quiescing.quiet {setting : Setting} {current : HeadUnitOperationalState} {episode : ℕ}
    {history : List Entry} {entry : Entry} (h : Quiescing setting current episode history)
    (hentry : ∀ effect ∈ entry.2, effect.isDiagnostic = true) :
    Quiescing setting current episode (history ++ [entry]) := by
  obtain ⟨admitted, ok, effects, quiescing, rfl, hadmitted, hquiesce, hquiet⟩ := h
  exact ⟨admitted, ok, effects, quiescing ++ [entry], by simp, hadmitted, hquiesce,
    quiet_concat hquiet hentry⟩

theorem Unspent.concat {current : HeadUnitOperationalState} {episode : ℕ} {history : List Entry}
    {entry : Entry} (h : Unspent current episode history)
    (hentry : .suspend ∈ entry.2 → (episodesAfter current history).episode ≠ episode) :
    Unspent current episode (history ++ [entry]) :=
  guarded_concat.mpr ⟨h, hentry⟩

/-! ## What one step can do -/

open HostPowerRequestBridge

theorem isDiagnostic_of_allows {root : Option String} {pluginId : String} {seen : Lookup}
    {effect : Effect} (h : effect ∈ (allows root pluginId seen).2) :
    effect.isDiagnostic = true := by
  unfold allows at h
  split at h
  · split at h
    · simp at h
    · split at h
      · split at h <;> simp at h
      · rw [List.mem_singleton.mp h]
        rfl
      · simp at h
  · simp at h

theorem isDiagnostic_of_authorizedPluginId {setting : Setting} {operation : Operation}
    {source : Option String} {seen : Lookup} {effect : Effect}
    (h : effect ∈ (authorizedPluginId setting operation source seen).2) :
    effect.isDiagnostic = true := by
  cases source with
  | none =>
    simp only [authorizedPluginId, List.mem_singleton] at h
    rw [h]
    rfl
  | some pluginId =>
    have hlogged : effect ∈ (allows setting.canonicalPluginRoot pluginId seen).2 →
        effect.isDiagnostic = true := isDiagnostic_of_allows
    simp only [authorizedPluginId] at h
    split at h <;> rename_i heq <;> rw [heq] at hlogged
    · exact hlogged h
    · rcases List.mem_append.mp h with hold | hnew
      · exact hlogged hold
      · rw [List.mem_singleton.mp hnew]
        rfl
    · exact hlogged h

/-- Only an authorized plugin gets past the authorizer. -/
theorem authorizedPluginId_eq_some {setting : Setting} {operation : Operation}
    {source : Option String} {seen : Lookup} {pluginId : String}
    (h : (authorizedPluginId setting operation source seen).1 = some pluginId) :
    source = some pluginId ∧
      (allows setting.canonicalPluginRoot pluginId seen).1 = some true := by
  cases source with
  | none => exact nomatch h
  | some asked =>
    simp only [authorizedPluginId] at h
    split at h <;> rename_i heq
    · obtain rfl : asked = pluginId := Option.some.inj h
      exact ⟨rfl, by rw [heq]⟩
    · exact nomatch h
    · exact nomatch h

/-- An entered request, and a request refused because another is in progress
or the bridge is closed. -/
theorem runExclusive_cases (bridge : HostPowerRequestBridge) (operation : Operation)
    (source : Option String) :
    (bridge.awaiting = none ∧ bridge.closed = false ∧
      bridge.runExclusive operation source =
        (bridge.await (.authorization operation source), [.enter operation])) ∨
    ((bridge.runExclusive operation source).1 = bridge ∧
      ∀ effect ∈ (bridge.runExclusive operation source).2, effect.isDiagnostic = true) := by
  unfold runExclusive
  split_ifs with hclosed hawaiting
  · right
    simp
  · right
    simp [info, Effect.isDiagnostic]
  · left
    exact ⟨by simpa using hawaiting, by simpa using hclosed, rfl⟩

/-- What a completion leaves alone: it answers the request in progress. -/
structure Completes (bridge next : HostPowerRequestBridge) : Prop where
  operationalState : next.operationalState = bridge.operationalState
  isInStandby : next.isInStandby = bridge.isInStandby
  standbyEpisode : next.standbyEpisode = bridge.standbyEpisode
  closed : next.closed = bridge.closed
  listening : next.listening = bridge.listening
  handled : bridge.handledThisStandbyEpisode = true → next.handledThisStandbyEpisode = true

theorem completes_await (bridge : HostPowerRequestBridge) (next : Await) :
    Completes bridge (bridge.await next) := ⟨rfl, rfl, rfl, rfl, rfl, id⟩

/-- The end of a request, or its wait for something no suspend depends on. -/
def Await.Ordinary : Await → Prop
  | .authorization .. => False
  | .flush request => request = .shutdown
  | .quiesce request => request = .shutdown
  | _ => True

/-- A turn of the request in progress that neither enters, leaves nor suspends. -/
structure Proceeds (bridge next : HostPowerRequestBridge) (effects : List Effect) : Prop
    extends Completes bridge next where
  awaiting : next.awaiting.isSome
  enter : effects.countP Effect.isEnter = 0
  leave : effects.countP Effect.isLeave = 0

theorem countP_diagnostic {p : Effect → Bool} {effects : List Effect}
    (hp : ∀ effect : Effect, effect.isDiagnostic = true → p effect = false)
    (h : ∀ effect ∈ effects, effect.isDiagnostic = true) : effects.countP p = 0 := by
  rw [List.countP_eq_zero]
  intro effect hmem
  rw [hp effect (h effect hmem)]
  exact Bool.false_ne_true

theorem not_enter_of_isDiagnostic (effect : Effect) (h : effect.isDiagnostic = true) :
    effect.isEnter = false := by
  cases effect <;> first | rfl | exact nomatch h

theorem not_leave_of_isDiagnostic (effect : Effect) (h : effect.isDiagnostic = true) :
    effect.isLeave = false := by
  cases effect <;> first | rfl | exact nomatch h

theorem not_suspend_of_isDiagnostic {effects : List Effect}
    (h : ∀ effect ∈ effects, effect.isDiagnostic = true) : .suspend ∉ effects := by
  intro hmem
  exact nomatch h _ hmem

/-- The admission of a request: it ends, or it awaits the flush it asked for. -/
theorem proceed_cases (setting : Setting) (bridge : HostPowerRequestBridge)
    (operation : Operation) (pluginId : String) :
    Proceeds bridge (bridge.proceed setting operation pluginId).1
      (bridge.proceed setting operation pluginId).2 ∧
    .suspend ∉ (bridge.proceed setting operation pluginId).2 ∧
    ((∃ next, (bridge.proceed setting operation pluginId).1.awaiting = some next ∧
        next.Ordinary) ∨
      (operation = .suspend ∧ bridge.currentlyStandby = true ∧
        bridge.handledThisStandbyEpisode = false ∧
        (bridge.proceed setting operation pluginId).1.awaiting =
          some (.flush (.suspend bridge.standbyEpisode)) ∧
        (bridge.proceed setting operation pluginId).1.handledThisStandbyEpisode = true ∧
        .flush ∈ (bridge.proceed setting operation pluginId).2)) := by
  cases operation with
  | suspend =>
    simp only [proceed, proceedSuspend]
    split_ifs with hstandby hhandled henabled
    · refine ⟨⟨completes_await _ _, rfl, rfl, rfl⟩, ?_, Or.inl ⟨_, rfl, trivial⟩⟩
      simp [rejectStaleSuspend, warning]
    · refine ⟨⟨completes_await _ _, rfl, rfl, rfl⟩, ?_, Or.inl ⟨_, rfl, trivial⟩⟩
      simp [info]
    · refine ⟨⟨⟨rfl, rfl, rfl, rfl, rfl, fun _ => rfl⟩, rfl, rfl, rfl⟩, ?_,
        Or.inl ⟨_, rfl, trivial⟩⟩
      simp [info]
    · refine ⟨⟨⟨rfl, rfl, rfl, rfl, rfl, fun _ => rfl⟩, rfl, rfl, rfl⟩, ?_, Or.inr ?_⟩
      · simp [info]
      · refine ⟨trivial, by simpa using hstandby, by simpa using hhandled, rfl, rfl, ?_⟩
        simp
  | shutdown =>
    simp only [proceed, proceedShutdown]
    split_ifs
    · refine ⟨⟨completes_await _ _, rfl, rfl, rfl⟩, ?_, Or.inl ⟨_, rfl, trivial⟩⟩
      simp [info]
    · refine ⟨⟨completes_await _ _, rfl, rfl, rfl⟩, ?_, Or.inl ⟨_, rfl, rfl⟩⟩
      simp [info]

/-- The end of the authorization: as `proceed_cases`, for an authorized plugin only. -/
theorem authorized_cases (setting : Setting) (bridge : HostPowerRequestBridge)
    (operation : Operation) (source : Option String) (seen : Lookup) :
    Proceeds bridge (bridge.authorized setting operation source seen).1
      (bridge.authorized setting operation source seen).2 ∧
    .suspend ∉ (bridge.authorized setting operation source seen).2 ∧
    ((∃ next, (bridge.authorized setting operation source seen).1.awaiting = some next ∧
        next.Ordinary) ∨
      ∃ pluginId, source = some pluginId ∧
        (allows setting.canonicalPluginRoot pluginId seen).1 = some true ∧
        operation = .suspend ∧ bridge.currentlyStandby = true ∧
        bridge.handledThisStandbyEpisode = false ∧
        (bridge.authorized setting operation source seen).1.awaiting =
          some (.flush (.suspend bridge.standbyEpisode)) ∧
        (bridge.authorized setting operation source seen).1.handledThisStandbyEpisode = true ∧
        .flush ∈ (bridge.authorized setting operation source seen).2) := by
  have hlogged : ∀ effect ∈ (authorizedPluginId setting operation source seen).2,
      effect.isDiagnostic = true := fun _ => isDiagnostic_of_authorizedPluginId
  have hsome : ∀ pluginId, (authorizedPluginId setting operation source seen).1 = some pluginId →
      source = some pluginId ∧ (allows setting.canonicalPluginRoot pluginId seen).1 = some true :=
    fun _ => authorizedPluginId_eq_some
  unfold authorized
  generalize authorizedPluginId setting operation source seen = answer at hlogged hsome ⊢
  rcases answer with ⟨_ | pluginId, logged⟩
  · refine ⟨⟨completes_await _ _, rfl, ?_, ?_⟩, ?_, Or.inl ⟨_, rfl, trivial⟩⟩
    · exact countP_diagnostic not_enter_of_isDiagnostic hlogged
    · exact countP_diagnostic not_leave_of_isDiagnostic hlogged
    · exact not_suspend_of_isDiagnostic hlogged
  · obtain ⟨hproceeds, hsuspend, hcases⟩ := proceed_cases setting bridge operation pluginId
    refine ⟨⟨hproceeds.toCompletes, hproceeds.awaiting, ?_, ?_⟩, ?_, ?_⟩
    · rw [List.countP_append, hproceeds.enter,
        countP_diagnostic not_enter_of_isDiagnostic hlogged]
    · rw [List.countP_append, hproceeds.leave,
        countP_diagnostic not_leave_of_isDiagnostic hlogged]
    · simp only [List.mem_append, not_or]
      exact ⟨not_suspend_of_isDiagnostic hlogged, hsuspend⟩
    · rcases hcases with hordinary | ⟨hoperation, hstandby, hhandled, hawaiting, hset, hflush⟩
      · exact Or.inl hordinary
      · obtain ⟨hsource, hallowed⟩ := hsome pluginId rfl
        exact Or.inr ⟨pluginId, hsource, hallowed, hoperation, hstandby, hhandled, hawaiting,
          hset, List.mem_append_right _ hflush⟩

/-- The end of the flush. -/
theorem flushed_cases (bridge : HostPowerRequestBridge) (request : Request) (ok : Bool) :
    Proceeds bridge (bridge.flushed request ok).1 (bridge.flushed request ok).2 ∧
    .suspend ∉ (bridge.flushed request ok).2 ∧
    ((∃ next, (bridge.flushed request ok).1.awaiting = some next ∧ next.Ordinary) ∨
      ∃ episode, request = .suspend episode ∧
        (bridge.flushed request ok).1.awaiting = some (.quiesce request) ∧
        .quiesce ∈ (bridge.flushed request ok).2) := by
  have hlogged : ∀ effect ∈ (if ok then []
      else [warning ("Settings flush failed before " ++ request.operation.name ++ ".")]),
      effect.isDiagnostic = true := by
    cases ok <;> simp [warning, Effect.isDiagnostic]
  have henter := countP_diagnostic not_enter_of_isDiagnostic hlogged
  have hleave := countP_diagnostic not_leave_of_isDiagnostic hlogged
  have hsuspend := not_suspend_of_isDiagnostic hlogged
  unfold flushed
  generalize (if ok then []
    else [warning ("Settings flush failed before " ++ request.operation.name ++ ".")]) = logged
    at hlogged henter hleave hsuspend ⊢
  split_ifs with hclosed
  · exact ⟨⟨completes_await _ _, rfl, henter, hleave⟩, hsuspend, Or.inl ⟨_, rfl, trivial⟩⟩
  · cases request with
    | suspend episode =>
      simp only
      split_ifs with hsame
      · refine ⟨⟨completes_await _ _, rfl, ?_, ?_⟩, ?_, Or.inl ⟨_, rfl, trivial⟩⟩
        · rw [List.countP_append, henter]
          rfl
        · rw [List.countP_append, hleave]
          rfl
        · simp [hsuspend, rejectStaleSuspend, warning]
      · refine ⟨⟨completes_await _ _, rfl, ?_, ?_⟩, ?_, Or.inr ⟨episode, rfl, rfl, by simp⟩⟩
        · rw [List.countP_append, henter]
          rfl
        · rw [List.countP_append, hleave]
          rfl
        · simp [hsuspend, quiescing]
    | shutdown =>
      refine ⟨⟨completes_await _ _, rfl, ?_, ?_⟩, ?_, Or.inl ⟨_, rfl, rfl⟩⟩
      · rw [List.countP_append, henter]
        rfl
      · rw [List.countP_append, hleave]
        rfl
      · simp [hsuspend, quiescing]

/-- The end of the quiesce: a suspend is issued only after a success, while the
bridge is open and the captured episode is still the current one. -/
theorem quiesced_cases (bridge : HostPowerRequestBridge) (request : Request) (ok : Bool) :
    Proceeds bridge (bridge.quiesced request ok).1 (bridge.quiesced request ok).2 ∧
    (∃ next, (bridge.quiesced request ok).1.awaiting = some next ∧ next.Ordinary) ∧
    (.suspend ∈ (bridge.quiesced request ok).2 →
      (bridge.quiesced request ok).2.count .suspend = 1 ∧ ok = true ∧ bridge.closed = false ∧
        ∃ episode, request = .suspend episode ∧ bridge.sameStandbyEpisode episode = true) := by
  cases ok with
  | false =>
    refine ⟨⟨completes_await _ _, rfl, rfl, rfl⟩, ⟨_, rfl, trivial⟩, ?_⟩
    simp [quiesced]
  | true =>
    cases request with
    | suspend episode =>
      simp only [quiesced, Bool.not_true, Bool.false_eq_true, if_false]
      split_ifs with hclosed hsame
      · refine ⟨⟨completes_await _ _, rfl, rfl, rfl⟩, ⟨_, rfl, trivial⟩, ?_⟩
        simp [resumeTransport, resuming]
      · refine ⟨⟨completes_await _ _, rfl, rfl, rfl⟩, ⟨_, rfl, trivial⟩, ?_⟩
        simp [resumeTransport, resuming, rejectStaleSuspend, warning]
      · refine ⟨⟨completes_await _ _, rfl, rfl, rfl⟩, ⟨_, rfl, trivial⟩, ?_⟩
        intro _
        exact ⟨rfl, trivial, by simpa using hclosed, episode, rfl, by simpa using hsame⟩
    | shutdown =>
      simp only [quiesced, Bool.not_true, Bool.false_eq_true, if_false]
      split_ifs with hclosed
      · refine ⟨⟨completes_await _ _, rfl, rfl, rfl⟩, ⟨_, rfl, trivial⟩, ?_⟩
        simp [resumeTransport, resuming]
      · refine ⟨⟨completes_await _ _, rfl, rfl, rfl⟩, ⟨_, rfl, trivial⟩, ?_⟩
        simp [info]

/-- The end of the host command and of the resume. -/
theorem commanded_cases (bridge : HostPowerRequestBridge) (operation : Operation) (ok : Bool) :
    Proceeds bridge (bridge.commanded operation ok).1 (bridge.commanded operation ok).2 ∧
    .suspend ∉ (bridge.commanded operation ok).2 ∧
    ∃ next, (bridge.commanded operation ok).1.awaiting = some next ∧ next.Ordinary := by
  cases operation <;> cases ok <;>
    refine ⟨⟨completes_await _ _, rfl, rfl, rfl⟩, ?_, _, rfl, trivial⟩ <;>
    simp [commanded, resumeTransport, resuming, info, error]

theorem resumed_cases (bridge : HostPowerRequestBridge) (ok : Bool) :
    Proceeds bridge (bridge.resumed ok).1 (bridge.resumed ok).2 ∧
    .suspend ∉ (bridge.resumed ok).2 ∧
    ∃ next, (bridge.resumed ok).1.awaiting = some next ∧ next.Ordinary := by
  cases ok <;> refine ⟨⟨completes_await _ _, rfl, rfl, rfl⟩, ?_, _, rfl, trivial⟩ <;>
    simp [resumed]

/-! ## The bridge follows its history -/

/-- The episode that a request in progress captured. -/
def Await.episode : Await → Option ℕ
  | .flush (.suspend episode) => some episode
  | .quiesce (.suspend episode) => some episode
  | _ => none

theorem Await.Ordinary.episode {next : Await} (h : next.Ordinary) : next.episode = none := by
  rcases next with _ | ⟨_ | _⟩ | ⟨_ | _⟩ | _ | _ | _ <;> first | rfl | exact nomatch h

/-- What the history says about the await of the request in progress. -/
def Stage (setting : Setting) (current : HeadUnitOperationalState) (history : List Entry) :
    Option Await → Prop
  | some (.authorization operation source) => Accepted operation source history
  | some (.flush (.suspend episode)) => Admitted setting current episode history
  | some (.quiesce (.suspend episode)) => Quiescing setting current episode history
  | _ => True

theorem stage_of_ordinary {setting : Setting} {current : HeadUnitOperationalState}
    {history : List Entry} {next : Await} (h : next.Ordinary) :
    Stage setting current history (some next) := by
  rcases next with _ | ⟨_ | _⟩ | ⟨_ | _⟩ | _ | _ | _ <;> first | trivial | exact nomatch h

theorem Stage.quiet {setting : Setting} {current : HeadUnitOperationalState}
    {history : List Entry} {awaiting : Option Await} {entry : Entry}
    (h : Stage setting current history awaiting)
    (hentry : ∀ effect ∈ entry.2, effect.isDiagnostic = true) :
    Stage setting current (history ++ [entry]) awaiting := by
  rcases awaiting with _ | ⟨_ | ⟨_ | _⟩ | ⟨_ | _⟩ | _ | _ | _⟩
  case some.authorization => exact Accepted.quiet h hentry
  case some.flush.suspend => exact Admitted.quiet h hentry
  case some.quiesce.suspend => exact Quiescing.quiet h hentry
  all_goals trivial

/-- The standby state of the bridge is the one its history shows. -/
structure Sees (current : HeadUnitOperationalState) (bridge : HostPowerRequestBridge)
    (history : List Entry) : Prop where
  state : bridge.operationalState = (episodesAfter current history).state
  standby : bridge.listening = true →
    bridge.isInStandby = decide ((episodesAfter current history).state = .standby)
  episode : bridge.listening = true →
    bridge.standbyEpisode = (episodesAfter current history).episode
  closed : Closed history → bridge.closed = true
  listening : bridge.closed = false → bridge.listening = true

/-- The episodes in which a suspend may still be issued. -/
structure Spares (current : HeadUnitOperationalState) (bridge : HostPowerRequestBridge)
    (history : List Entry) : Prop where
  future : ∀ episode, (episodesAfter current history).episode < episode →
    Unspent current episode history
  unhandled : bridge.listening = true → bridge.handledThisStandbyEpisode = false →
    (episodesAfter current history).state = .standby →
    Unspent current (episodesAfter current history).episode history
  captured : bridge.closed = false → ∀ awaited episode, bridge.awaiting = some awaited →
    awaited.episode = some episode →
    episode ≤ (episodesAfter current history).episode ∧ Unspent current episode history ∧
      ((episodesAfter current history).state = .standby →
        (episodesAfter current history).episode = episode →
        bridge.handledThisStandbyEpisode = true)

structure Tracks (setting : Setting) (current : HeadUnitOperationalState)
    (bridge : HostPowerRequestBridge) (history : List Entry) : Prop where
  sees : Sees current bridge history
  spares : Spares current bridge history
  stage : bridge.closed = false → Stage setting current history bridge.awaiting
  running : Running (if bridge.awaiting.isSome then 1 else 0) history

theorem observe_of_ne {power : Episodes} {input : Input}
    (h : ∀ state, input ≠ .powerChanged state) : power.observe input = power := by
  cases input <;> first | rfl | exact absurd rfl (h _)

theorem closed_concat {history : List Entry} {entry : Entry} :
    Closed (history ++ [entry]) ↔ Closed history ∨ entry.1 = .close := by
  simp [Closed, eq_comm]

/-- A turn that is neither of the power service nor `close`. -/
theorem Sees.completes {current : HeadUnitOperationalState}
    {bridge next : HostPowerRequestBridge} {history : List Entry} {entry : Entry}
    (h : Sees current bridge history) (hcompletes : Completes bridge next)
    (hpower : ∀ state, entry.1 ≠ .powerChanged state) (hclose : entry.1 ≠ .close) :
    Sees current next (history ++ [entry]) := by
  constructor
  · rw [episodesAfter_concat, observe_of_ne hpower, hcompletes.operationalState, h.state]
  · rw [episodesAfter_concat, observe_of_ne hpower, hcompletes.listening, hcompletes.isInStandby]
    exact h.standby
  · rw [episodesAfter_concat, observe_of_ne hpower, hcompletes.listening,
      hcompletes.standbyEpisode]
    exact h.episode
  · rw [closed_concat, hcompletes.closed]
    rintro (hold | hnew)
    · exact h.closed hold
    · exact absurd hnew hclose
  · rw [hcompletes.closed, hcompletes.listening]
    exact h.listening

/-- A turn of the request in progress without a suspend, to an ordinary await. -/
theorem Spares.ordinary {current : HeadUnitOperationalState}
    {bridge next : HostPowerRequestBridge} {history : List Entry} {entry : Entry}
    {awaited : Option Await} (h : Spares current bridge history)
    (hcompletes : Completes bridge next)
    (hpower : ∀ state, entry.1 ≠ .powerChanged state) (hsuspend : .suspend ∉ entry.2)
    (hawaiting : next.awaiting = awaited) (hordinary : ∀ a ∈ awaited, a.episode = none) :
    Spares current next (history ++ [entry]) := by
  have hconcat : ∀ {episode}, Unspent current episode history →
      Unspent current episode (history ++ [entry]) :=
    fun hold => hold.concat fun hmem => absurd hmem hsuspend
  constructor
  · intro episode hlt
    rw [episodesAfter_concat, observe_of_ne hpower] at hlt
    exact hconcat (h.future episode hlt)
  · rw [episodesAfter_concat, observe_of_ne hpower, hcompletes.listening]
    intro hlistening hhandled hstandby
    apply hconcat
    apply h.unhandled hlistening _ hstandby
    cases hb : bridge.handledThisStandbyEpisode with
    | false => rfl
    | true => exact absurd (hcompletes.handled hb) (by simp [hhandled])
  · intro _ a episode ha hepisode
    rw [hawaiting] at ha
    rw [hordinary a ha] at hepisode
    exact nomatch hepisode

/-- A turn without a suspend that keeps the await and the handled flag. -/
theorem Spares.keep {current : HeadUnitOperationalState} {bridge next : HostPowerRequestBridge}
    {history : List Entry} {entry : Entry} (h : Spares current bridge history)
    (hlistening : next.listening = true → bridge.listening = true)
    (hclosed : next.closed = false → bridge.closed = false)
    (hhandled : next.handledThisStandbyEpisode = bridge.handledThisStandbyEpisode)
    (hpower : ∀ state, entry.1 ≠ .powerChanged state) (hsuspend : .suspend ∉ entry.2)
    (hawaiting : next.awaiting = bridge.awaiting) : Spares current next (history ++ [entry]) := by
  have hconcat : ∀ {episode}, Unspent current episode history →
      Unspent current episode (history ++ [entry]) :=
    fun hold => hold.concat fun hmem => absurd hmem hsuspend
  constructor
  · intro episode hlt
    rw [episodesAfter_concat, observe_of_ne hpower] at hlt
    exact hconcat (h.future episode hlt)
  · rw [episodesAfter_concat, observe_of_ne hpower, hhandled]
    intro hnext hfalse hstandby
    exact hconcat (h.unhandled (hlistening hnext) hfalse hstandby)
  · intro hopen awaited episode hawaited hepisode
    rw [hawaiting] at hawaited
    obtain ⟨hle, hunspent, hkept⟩ := h.captured (hclosed hopen) awaited episode hawaited hepisode
    rw [episodesAfter_concat, observe_of_ne hpower, hhandled]
    exact ⟨hle, hconcat hunspent, hkept⟩

/-- The number of the standby episode after a change of the power state. -/
theorem episodesAfter_powerChanged (current : HeadUnitOperationalState) (history : List Entry)
    (state : VehiclePowerState) (effects : List Effect) :
    episodesAfter current (history ++ [(.powerChanged state, effects)]) =
      ⟨HeadUnitOperationalState.fromVehiclePowerState state,
        (episodesAfter current history).episode +
          if HeadUnitOperationalState.fromVehiclePowerState state = .standby ∧
            (episodesAfter current history).state ≠ .standby then 1 else 0⟩ :=
  episodesAfter_concat current history (.powerChanged state, effects)

/-- The power service changes its snapshot. -/
theorem sees_powerChanged {current : HeadUnitOperationalState} {bridge : HostPowerRequestBridge}
    {history : List Entry} (h : Sees current bridge history) (state : VehiclePowerState) :
    Sees current (bridge.powerChanged state) (history ++ [(.powerChanged state, [])]) := by
  obtain ⟨hstate, hlistening, hclosed, -, hchanged⟩ := powerChanged_spec bridge state
  constructor
  · rw [hstate, episodesAfter_powerChanged]
  · intro htrue
    rw [hlistening] at htrue
    rw [(hchanged htrue).1, episodesAfter_powerChanged]
  · intro htrue
    rw [hlistening] at htrue
    rw [(hchanged htrue).2.1, episodesAfter_powerChanged, h.episode htrue, h.standby htrue]
    simp only [decide_eq_true_eq, decide_eq_false_iff_not, ne_eq]
  · rw [closed_concat, hclosed]
    rintro (hold | hnew)
    · exact h.closed hold
    · exact nomatch hnew
  · rw [hlistening, hclosed]
    exact h.listening

theorem spares_powerChanged {current : HeadUnitOperationalState}
    {bridge : HostPowerRequestBridge} {history : List Entry} (hsees : Sees current bridge history)
    (h : Spares current bridge history) (state : VehiclePowerState) :
    Spares current (bridge.powerChanged state) (history ++ [(.powerChanged state, [])]) := by
  obtain ⟨-, hlistening, hclosed, hawaiting, hchanged⟩ := powerChanged_spec bridge state
  have hconcat : ∀ {episode}, Unspent current episode history →
      Unspent current episode (history ++ [(.powerChanged state, [])]) :=
    fun hold => hold.concat fun hmem => nomatch hmem
  -- while standby goes on, the episode and the flag stay
  have hkeeps : bridge.listening = true →
      HeadUnitOperationalState.fromVehiclePowerState state = .standby →
      (episodesAfter current history).state = .standby →
      (bridge.powerChanged state).handledThisStandbyEpisode =
        bridge.handledThisStandbyEpisode := by
    intro htrue hstandby hold
    apply (hchanged htrue).2.2
    rw [hsees.standby htrue, hold, hstandby]
  constructor
  · intro episode hlt
    rw [episodesAfter_powerChanged] at hlt
    apply hconcat
    apply h.future
    simp only at hlt
    omega
  · rw [episodesAfter_powerChanged, hlistening]
    intro htrue hhandled hstandby
    simp only at hstandby ⊢
    apply hconcat
    by_cases hold : (episodesAfter current history).state = .standby
    · rw [if_neg (fun hne => hne.2 hold), Nat.add_zero]
      rw [hkeeps htrue hstandby hold] at hhandled
      exact h.unhandled htrue hhandled hold
    · rw [if_pos ⟨hstandby, hold⟩]
      exact h.future _ (Nat.lt_succ_self _)
  · rw [episodesAfter_powerChanged, hclosed, hawaiting]
    intro hopen awaited episode hawaited hepisode
    obtain ⟨hle, hunspent, hkept⟩ := h.captured hopen awaited episode hawaited hepisode
    refine ⟨Nat.le_add_right_of_le hle, hconcat hunspent, ?_⟩
    simp only
    intro hstandby hsame
    -- a later episode has a greater number, so the state was already standby
    have hold : (episodesAfter current history).state = .standby := by
      by_contra hne
      rw [if_pos ⟨hstandby, hne⟩] at hsame
      omega
    rw [if_neg (fun hne => hne.2 hold), Nat.add_zero] at hsame
    rw [hkeeps (hsees.listening hopen) hstandby hold]
    exact hkept hold hsame

/-! ## The invariant of a run -/

theorem Running.quiet {n : ℕ} {history : List Entry} {entry : Entry} (h : Running n history)
    (hentry : ∀ effect ∈ entry.2, effect.isDiagnostic = true) :
    Running n (history ++ [entry]) := by
  apply running_concat h
  rw [countP_diagnostic not_enter_of_isDiagnostic hentry,
    countP_diagnostic not_leave_of_isDiagnostic hentry]

theorem Running.proceeds {history : List Entry} {input : Input}
    {bridge next : HostPowerRequestBridge} {effects : List Effect} {awaited : Await}
    (h : Running (if bridge.awaiting.isSome then 1 else 0) history)
    (hbridge : bridge.awaiting = some awaited) (hproceeds : Proceeds bridge next effects) :
    Running (if next.awaiting.isSome then 1 else 0) (history ++ [(input, effects)]) := by
  apply running_concat h
  rw [hproceeds.enter, hproceeds.leave, hproceeds.awaiting, hbridge]
  rfl

/-- A turn that changes nothing but, perhaps, the diagnostics. -/
theorem Tracks.quiet {setting : Setting} {current : HeadUnitOperationalState}
    {bridge : HostPowerRequestBridge} {history : List Entry} {entry : Entry}
    (h : Tracks setting current bridge history)
    (hpower : ∀ state, entry.1 ≠ .powerChanged state) (hclose : entry.1 ≠ .close)
    (hentry : ∀ effect ∈ entry.2, effect.isDiagnostic = true) :
    Tracks setting current bridge (history ++ [entry]) := by
  refine ⟨?_, ?_, fun hopen => (h.stage hopen).quiet hentry, h.running.quiet hentry⟩
  · exact h.sees.completes ⟨rfl, rfl, rfl, rfl, rfl, id⟩ hpower hclose
  · exact h.spares.keep id id rfl hpower (not_suspend_of_isDiagnostic hentry) rfl

/-- The request in progress goes on to an await no suspend depends on. -/
theorem Tracks.ordinary {setting : Setting} {current : HeadUnitOperationalState}
    {bridge next : HostPowerRequestBridge} {history : List Entry} {input : Input}
    {effects : List Effect} {awaited : Await} (h : Tracks setting current bridge history)
    (hbridge : bridge.awaiting = some awaited) (hproceeds : Proceeds bridge next effects)
    (hpower : ∀ state, input ≠ .powerChanged state) (hclose : input ≠ .close)
    (hsuspend : .suspend ∉ effects)
    (hordinary : ∃ a, next.awaiting = some a ∧ a.Ordinary) :
    Tracks setting current next (history ++ [(input, effects)]) := by
  obtain ⟨a, ha, hordinary⟩ := hordinary
  refine ⟨?_, ?_, ?_, h.running.proceeds hbridge hproceeds⟩
  · exact h.sees.completes hproceeds.toCompletes hpower hclose
  · apply h.spares.ordinary hproceeds.toCompletes hpower hsuspend ha
    intro b hb
    cases hb
    exact hordinary.episode
  · intro _
    rw [ha]
    exact stage_of_ordinary hordinary

/-- A request enters. -/
theorem Tracks.accept {setting : Setting} {current : HeadUnitOperationalState}
    {bridge : HostPowerRequestBridge} {history : List Entry}
    (h : Tracks setting current bridge history) (hbridge : bridge.awaiting = none)
    (operation : Operation) (source : Option String) :
    Tracks setting current (bridge.await (.authorization operation source))
      (history ++ [(.requested operation source, [.enter operation])]) := by
  have hrunning := h.running
  rw [hbridge] at hrunning
  refine ⟨?_, ?_, fun _ => ⟨history, [], rfl, hrunning, quiet_nil⟩, running_concat hrunning rfl⟩
  · exact h.sees.completes (completes_await _ _) (fun _ => by simp) (by simp)
  · apply h.spares.ordinary (completes_await _ _) (fun _ => by simp) (by simp) rfl
    intro a ha
    cases ha
    rfl

/-- What the bridge sees as standby is standby, as long as it is open. -/
theorem Sees.currentlyStandby {current : HeadUnitOperationalState}
    {bridge : HostPowerRequestBridge} {history : List Entry} (h : Sees current bridge history)
    (hstandby : bridge.currentlyStandby = true) :
    (episodesAfter current history).state = .standby := by
  simp only [HostPowerRequestBridge.currentlyStandby, Bool.and_eq_true,
    decide_eq_true_eq] at hstandby
  rw [← h.state]
  exact hstandby.2

/-- The authorizer has answered. -/
theorem Tracks.authorized {setting : Setting} {current : HeadUnitOperationalState}
    {bridge : HostPowerRequestBridge} {history : List Entry} {operation : Operation}
    {source : Option String} (h : Tracks setting current bridge history)
    (hbridge : bridge.awaiting = some (.authorization operation source)) (seen : Lookup) :
    Tracks setting current (bridge.authorized setting operation source seen).1
      (history ++ [(.authorized seen, (bridge.authorized setting operation source seen).2)]) := by
  obtain ⟨hproceeds, hsuspend, hcases⟩ :=
    authorized_cases setting bridge operation source seen
  rcases hcases with hordinary | ⟨pluginId, hsource, hallowed, hoperation, hstandby, hhandled,
    hawaiting, hset, hflush⟩
  · exact h.ordinary hbridge hproceeds (fun _ => by simp) (by simp) hsuspend hordinary
  · subst hsource hoperation
    have hstate := h.sees.currentlyStandby hstandby
    have hconcat : ∀ {episode}, Unspent current episode history → Unspent current episode
        (history ++ [(.authorized seen,
          (bridge.authorized setting .suspend (some pluginId) seen).2)]) :=
      fun hold => hold.concat fun hmem => absurd hmem hsuspend
    refine ⟨?_, ⟨?_, ?_, ?_⟩, ?_, h.running.proceeds hbridge hproceeds⟩
    · exact h.sees.completes hproceeds.toCompletes (fun _ => by simp) (by simp)
    · intro episode hlt
      rw [episodesAfter_concat, observe_of_ne (by simp)] at hlt
      exact hconcat (h.spares.future episode hlt)
    · intro _ hfalse
      rw [hset] at hfalse
      exact nomatch hfalse
    · intro hopen awaited episode hawaited hepisode
      rw [hproceeds.closed] at hopen
      have hlistening := h.sees.listening hopen
      rw [hawaiting] at hawaited
      cases hawaited
      cases hepisode
      rw [episodesAfter_concat, observe_of_ne (by simp), h.sees.episode hlistening]
      exact ⟨Nat.le_refl _, hconcat (h.spares.unhandled hlistening hhandled hstate), fun _ _ => hset⟩
    · intro hopen
      rw [hproceeds.closed] at hopen
      have haccepted := h.stage hopen
      rw [hbridge] at haccepted
      rw [hawaiting, h.sees.episode (h.sees.listening hopen)]
      refine ⟨history, pluginId, seen, _, [], rfl, haccepted, hallowed, ?_, hflush, quiet_nil⟩
      rw [← hstate]

/-- The flush has ended. -/
theorem Tracks.flushed {setting : Setting} {current : HeadUnitOperationalState}
    {bridge : HostPowerRequestBridge} {history : List Entry} {request : Request}
    (h : Tracks setting current bridge history)
    (hbridge : bridge.awaiting = some (.flush request)) (ok : Bool) :
    Tracks setting current (bridge.flushed request ok).1
      (history ++ [(.flushed ok, (bridge.flushed request ok).2)]) := by
  obtain ⟨hproceeds, hsuspend, hcases⟩ := flushed_cases bridge request ok
  rcases hcases with hordinary | ⟨episode, rfl, hawaiting, hquiesce⟩
  · exact h.ordinary hbridge hproceeds (fun _ => by simp) (by simp) hsuspend hordinary
  · have hconcat : ∀ {e}, Unspent current e history → Unspent current e
        (history ++ [(.flushed ok, (bridge.flushed (.suspend episode) ok).2)]) :=
      fun hold => hold.concat fun hmem => absurd hmem hsuspend
    refine ⟨?_, ⟨?_, ?_, ?_⟩, ?_, h.running.proceeds hbridge hproceeds⟩
    · exact h.sees.completes hproceeds.toCompletes (fun _ => by simp) (by simp)
    · intro e hlt
      rw [episodesAfter_concat, observe_of_ne (by simp)] at hlt
      exact hconcat (h.spares.future e hlt)
    · rw [episodesAfter_concat, observe_of_ne (by simp), hproceeds.listening]
      intro hlistening hfalse hstandby
      apply hconcat
      apply h.spares.unhandled hlistening _ hstandby
      cases hb : bridge.handledThisStandbyEpisode with
      | false => rfl
      | true => exact absurd (hproceeds.handled hb) (by simp [hfalse])
    · intro hopen awaited e hawaited hepisode
      rw [hproceeds.closed] at hopen
      rw [hawaiting] at hawaited
      cases hawaited
      cases hepisode
      obtain ⟨hle, hunspent, hkept⟩ := h.spares.captured hopen _ episode hbridge rfl
      rw [episodesAfter_concat, observe_of_ne (by simp)]
      exact ⟨hle, hconcat hunspent, fun hs he => hproceeds.handled (hkept hs he)⟩
    · intro hopen
      rw [hproceeds.closed] at hopen
      have hadmitted := h.stage hopen
      rw [hbridge] at hadmitted
      rw [hawaiting]
      exact ⟨history, ok, _, [], rfl, hadmitted, hquiesce, quiet_nil⟩

/-- A suspend is issued only as allowed, and spends the current episode. -/
theorem Tracks.suspend_mem {setting : Setting} {current : HeadUnitOperationalState}
    {bridge : HostPowerRequestBridge} {history : List Entry} {request : Request} {ok : Bool}
    (h : Tracks setting current bridge history)
    (hbridge : bridge.awaiting = some (.quiesce request))
    (hsuspend : .suspend ∈ (bridge.quiesced request ok).2) :
    (SuspendAllowed setting current history (.quiesced ok) ∧
        (bridge.quiesced request ok).2.count .suspend = 1) ∧
      bridge.handledThisStandbyEpisode = true := by
  obtain ⟨-, -, hissued⟩ := quiesced_cases bridge request ok
  obtain ⟨hcount, rfl, hopen, episode, rfl, hsame⟩ := hissued hsuspend
  simp only [sameStandbyEpisode, Bool.and_eq_true, decide_eq_true_eq] at hsame
  obtain ⟨hstandby, rfl⟩ := hsame
  have hstate := h.sees.currentlyStandby hstandby
  obtain ⟨-, hunspent, hkept⟩ := h.spares.captured hopen _ _ hbridge rfl
  have hquiescing := h.stage hopen
  have hrunning := h.running
  have hepisode := h.sees.episode (h.sees.listening hopen)
  rw [hbridge] at hquiescing hrunning
  rw [hepisode] at hunspent hkept hquiescing
  refine ⟨⟨⟨rfl, hstate, hquiescing, hunspent, hrunning, ?_⟩, hcount⟩, hkept hstate rfl⟩
  intro hclosed
  rw [h.sees.closed hclosed] at hopen
  exact nomatch hopen

/-- The quiesce has ended. -/
theorem Tracks.quiesced {setting : Setting} {current : HeadUnitOperationalState}
    {bridge : HostPowerRequestBridge} {history : List Entry} {request : Request}
    (h : Tracks setting current bridge history)
    (hbridge : bridge.awaiting = some (.quiesce request)) (ok : Bool) :
    Tracks setting current (bridge.quiesced request ok).1
      (history ++ [(.quiesced ok, (bridge.quiesced request ok).2)]) := by
  obtain ⟨hproceeds, hordinary, -⟩ := quiesced_cases bridge request ok
  by_cases hsuspend : .suspend ∈ (bridge.quiesced request ok).2
  · obtain ⟨-, hhandled⟩ := h.suspend_mem hbridge hsuspend
    obtain ⟨a, ha, hordinary⟩ := hordinary
    refine ⟨?_, ⟨?_, ?_, ?_⟩, ?_, h.running.proceeds hbridge hproceeds⟩
    · exact h.sees.completes hproceeds.toCompletes (fun _ => by simp) (by simp)
    · intro episode hlt
      rw [episodesAfter_concat, observe_of_ne (by simp)] at hlt
      exact (h.spares.future episode hlt).concat fun _ => Nat.ne_of_lt hlt
    · intro _ hfalse
      rw [hproceeds.handled hhandled] at hfalse
      exact nomatch hfalse
    · intro _ awaited episode hawaited hepisode
      rw [ha] at hawaited
      cases hawaited
      rw [hordinary.episode] at hepisode
      exact nomatch hepisode
    · intro _
      rw [ha]
      exact stage_of_ordinary hordinary
  · exact h.ordinary hbridge hproceeds (fun _ => by simp) (by simp) hsuspend hordinary

/-- `close`, and the later cancellation of the power subscription. -/
theorem Tracks.stop {setting : Setting} {current : HeadUnitOperationalState}
    {bridge next : HostPowerRequestBridge} {history : List Entry} {input : Input}
    (h : Tracks setting current bridge history)
    (hinput : input = .close ∧ next = { bridge with closed := true } ∨
      input = .unsubscribed ∧
        next = { bridge with listening := bridge.listening && !bridge.closed }) :
    Tracks setting current next (history ++ [(input, [])]) := by
  have hpower : ∀ state, input ≠ .powerChanged state := by
    rcases hinput with ⟨rfl, -⟩ | ⟨rfl, -⟩ <;> simp
  have hfields : next.operationalState = bridge.operationalState ∧
      next.isInStandby = bridge.isInStandby ∧ next.standbyEpisode = bridge.standbyEpisode ∧
      next.handledThisStandbyEpisode = bridge.handledThisStandbyEpisode ∧
      next.awaiting = bridge.awaiting ∧
      (next.listening = true → bridge.listening = true) ∧
      (next.closed = false → bridge.closed = false ∧ next.listening = bridge.listening) ∧
      (bridge.closed = true ∨ input = .close → next.closed = true) := by
    rcases hinput with ⟨rfl, rfl⟩ | ⟨rfl, rfl⟩
    · simp
    · simp only [Bool.and_eq_true]
      refine ⟨trivial, trivial, trivial, trivial, trivial, fun hand => hand.1, ?_, ?_⟩
      · intro hopen
        exact ⟨hopen, by simp [hopen]⟩
      · rintro (hclosed | hne)
        · exact hclosed
        · exact nomatch hne
  obtain ⟨hstate, hstandby, hepisode, hhandled, hawaiting, hlistening, hopen, hclosed⟩ := hfields
  refine ⟨⟨?_, ?_, ?_, ?_, ?_⟩, ?_, ?_, ?_⟩
  · rw [episodesAfter_concat, observe_of_ne hpower, hstate, h.sees.state]
  · rw [episodesAfter_concat, observe_of_ne hpower, hstandby]
    exact fun hnext => h.sees.standby (hlistening hnext)
  · rw [episodesAfter_concat, observe_of_ne hpower, hepisode]
    exact fun hnext => h.sees.episode (hlistening hnext)
  · rw [closed_concat]
    exact fun hor => hclosed (hor.imp_left h.sees.closed)
  · intro hnext
    rw [(hopen hnext).2]
    exact h.sees.listening (hopen hnext).1
  · exact h.spares.keep hlistening (fun hnext => (hopen hnext).1) hhandled hpower (by simp)
      hawaiting
  · intro hnext
    rw [hawaiting]
    exact (h.stage (hopen hnext).1).quiet (by simp)
  · rw [hawaiting]
    exact h.running.quiet (by simp)

/-- The request in progress leaves. -/
theorem Tracks.leave {setting : Setting} {current : HeadUnitOperationalState}
    {bridge : HostPowerRequestBridge} {history : List Entry}
    (h : Tracks setting current bridge history) (hbridge : bridge.awaiting = some .leaving) :
    Tracks setting current { bridge with awaiting := none }
      (history ++ [(.returned, [.leave])]) := by
  have hrunning := h.running
  rw [hbridge] at hrunning
  refine ⟨?_, ?_, fun _ => trivial, running_concat hrunning rfl⟩
  · exact h.sees.completes ⟨rfl, rfl, rfl, rfl, rfl, id⟩ (fun _ => by simp) (by simp)
  · exact h.spares.ordinary ⟨rfl, rfl, rfl, rfl, rfl, id⟩ (fun _ => by simp) (by simp) rfl
      (fun _ ha => nomatch ha)

/-- One turn: the invariant is kept, and a suspend is issued only as allowed. -/
theorem tracks_step {setting : Setting} {current : HeadUnitOperationalState}
    {bridge : HostPowerRequestBridge} {history : List Entry}
    (h : Tracks setting current bridge history) (input : Input) :
    Tracks setting current (bridge.step setting input).1
        (history ++ [(input, (bridge.step setting input).2)]) ∧
      (.suspend ∈ (bridge.step setting input).2 →
        SuspendAllowed setting current history input ∧
          (bridge.step setting input).2.count .suspend = 1) := by
  unfold HostPowerRequestBridge.step
  split <;> rename_i hbridge
  · refine ⟨⟨sees_powerChanged h.sees _, spares_powerChanged h.sees h.spares _, ?_, ?_⟩, by simp⟩
    · rw [(powerChanged_spec bridge _).2.2.1, (powerChanged_spec bridge _).2.2.2.1]
      exact fun hopen => (h.stage hopen).quiet (by simp)
    · rw [(powerChanged_spec bridge _).2.2.2.1]
      exact h.running.quiet (by simp)
  · rcases runExclusive_cases bridge ‹Operation› ‹Option String› with
      ⟨hnone, -, heq⟩ | ⟨hsame, hquiet⟩
    · rw [heq]
      exact ⟨h.accept hnone _ _, by simp⟩
    · rw [hsame]
      exact ⟨h.quiet (by simp) (by simp) hquiet,
        fun hmem => absurd hmem (not_suspend_of_isDiagnostic hquiet)⟩
  · exact ⟨h.stop (Or.inl ⟨rfl, rfl⟩), by simp⟩
  · exact ⟨h.stop (Or.inr ⟨rfl, rfl⟩), by simp⟩
  · exact ⟨h.authorized hbridge _, fun hmem => absurd hmem (authorized_cases ..).2.1⟩
  · exact ⟨h.flushed hbridge _, fun hmem => absurd hmem (flushed_cases ..).2.1⟩
  · exact ⟨h.quiesced hbridge _, fun hmem => (h.suspend_mem hbridge hmem).1⟩
  · obtain ⟨hproceeds, hsuspend, hordinary⟩ := commanded_cases bridge _ _
    exact ⟨h.ordinary hbridge hproceeds (by simp) (by simp) hsuspend hordinary,
      fun hmem => absurd hmem hsuspend⟩
  · obtain ⟨hproceeds, hsuspend, hordinary⟩ := resumed_cases bridge _
    exact ⟨h.ordinary hbridge hproceeds (by simp) (by simp) hsuspend hordinary,
      fun hmem => absurd hmem hsuspend⟩
  · exact ⟨h.leave hbridge, by simp⟩
  · refine ⟨h.quiet ?_ ?_ (by simp), by simp⟩ <;> grind

theorem tracks_start (setting : Setting) (current : HeadUnitOperationalState) :
    Tracks setting current (start current) [] := by
  refine ⟨⟨rfl, fun _ => rfl, fun _ => rfl, by simp [Closed], fun _ => rfl⟩, ⟨?_, ?_, ?_⟩,
    fun _ => trivial, running_nil⟩
  · exact fun _ _ => guarded_nil _
  · exact fun _ _ _ => guarded_nil _
  · exact fun _ _ _ h => nomatch h

/-- In every run of the bridge a suspend is issued only in answer to a quiesce
that succeeded for the one request in progress, which an authorized plugin made,
whose settings flush was attempted and which was admitted in the standby episode
that still lasts; never after `close`, and never twice in an episode. -/
theorem suspend_allowed (setting : Setting) (current : HeadUnitOperationalState)
    (inputs : List Input) :
    Always (fun past input effects => .suspend ∈ effects →
        SuspendAllowed setting current past input ∧ effects.count .suspend = 1)
      (run (step setting) (start current) inputs).2 := by
  apply (run_history (step setting) (I := fun bridge history =>
    Tracks setting current bridge history ∧ Always (fun past input effects =>
      .suspend ∈ effects → SuspendAllowed setting current past input ∧
        effects.count .suspend = 1) history) ?_ ?_ inputs).2
  · exact ⟨tracks_start setting current, always_nil _⟩
  · rintro bridge history input ⟨htracks, halways⟩
    obtain ⟨hnext, hallowed⟩ := tracks_step htracks input
    exact ⟨hnext, always_concat.mpr ⟨halways, hallowed⟩⟩

/-- A plugin of the active integration and a run in which it suspends the host. -/
example :
    let record : PluginRecord := ⟨7, "/argo/plugins/power", true⟩
    let registry : Registry := ⟨true, some record⟩
    let inputs := [Input.powerChanged .asleep, .requested .suspend (some "power"),
      .authorized ⟨registry, .path "/argo/plugins/power", registry⟩, .flushed true,
      .quiesced true, .commanded true, .resumed true, .returned]
    ((run (step ⟨some "/argo/plugins", true⟩) (start .awake) inputs).2.map fun entry =>
        entry.2.filter fun effect => !effect.isDiagnostic) =
      [[], [.enter .suspend], [.flush], [.quiesce], [.suspend], [.resume], [], [.leave]] := by
  decide +kernel

end ProjectArgo.Power
