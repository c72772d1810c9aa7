import ProjectArgo.Connectivity.Preferences

/-!
# The user's choices win over the restore

What has been sent decides what may still be sent. The invariant says which flag keeps each
command of the user in force, and every part of the restore and the startup is shown to keep it.
The band and the microphone have no such flag, so that a command for one of them counts only
once its own restore is over.
-/
namespace ProjectArgo.Connectivity.Preferences

open Library Library.Run

/-! ## What may be sent -/

/-- The user has asked for it. -/
def Asked (past : List Sent) (action : Action) : Prop :=
  ∃ command, .explicit command ∈ past ∧ command.action = action

/-- The restore or the startup has asked for it. -/
def Requested (past : List Sent) (action : Action) : Prop :=
  ∃ command, .automatic command ∈ past ∧ command.action = action

/-- Forget, stop and disconnect: nothing is to be connected any more. -/
def Action.parts : Action → Bool
  | .forget | .stopAll | .disconnect _ => true
  | _ => false

/-- What ends the restore and the startup altogether. -/
def Action.decides : Action → Bool
  | .adapter | .interface | .select => true
  | action => action.parts

def Action.joins : Action → Bool
  | .select | .connect _ => true
  | _ => false

/-- An automatic command is none that the user has given, does not connect behind a command to
part, and connects each provider once. -/
def Allowed (before : List Sent) : Sent → Prop
  | .explicit _ => True
  | .automatic command =>
    ¬ Asked before command.action ∧
    (command.action.joins = true → ∀ action : Action, action.parts = true → ¬ Asked before action) ∧
    ∀ provider, command.action = .connect provider → ¬ Requested before (.connect provider)

/-- The target is the saved phone, paired, under the name that the saved radio gives it. -/
def Saved (settings : Settings) (state : Snapshot) (target : String) : Prop :=
  state.paired target = true ∧
    (target = settings.connectivityPhone ∨
      ∃ radio ∈ state.adapters, radio.named settings.connectivityAdapter = true ∧
        phoneAddress settings.connectivityPhone ≠ "" ∧
        target = radio.id ++ "/" ++ phoneAddress settings.connectivityPhone)

theorem Action.decides_of_parts {action : Action} (h : action.parts = true) :
    action.decides = true := by
  cases action with
  | forget | stopAll | disconnect => rfl
  | _ => exact nomatch h

variable {past : List Sent} {action : Action} {command : Command}

theorem asked_automatic : Asked (past ++ [.automatic command]) action ↔ Asked past action := by
  simp [Asked]

theorem asked_explicit :
    Asked (past ++ [.explicit command]) action ↔ Asked past action ∨ command.action = action := by
  simp only [Asked, List.mem_append, List.mem_singleton, Sent.explicit.injEq]
  constructor
  · rintro ⟨other, h | rfl, hother⟩
    · exact Or.inl ⟨other, h, hother⟩
    · exact Or.inr hother
  · rintro (⟨other, h, hother⟩ | h)
    · exact ⟨other, Or.inl h, hother⟩
    · exact ⟨command, Or.inr rfl, h⟩

theorem requested_explicit :
    Requested (past ++ [.explicit command]) action ↔ Requested past action := by
  simp [Requested]

theorem requested_automatic :
    Requested (past ++ [.automatic command]) action ↔
      Requested past action ∨ command.action = action := by
  simp only [Requested, List.mem_append, List.mem_singleton, Sent.automatic.injEq]
  constructor
  · rintro ⟨other, h | rfl, hother⟩
    · exact Or.inl ⟨other, h, hother⟩
    · exact Or.inr hother
  · rintro (⟨other, h, hother⟩ | h)
    · exact ⟨other, Or.inl h, hother⟩
    · exact ⟨command, Or.inr rfl, h⟩

/-! ## The invariant -/

/-- What keeps the commands of the user in force, given everything sent so far. -/
structure Kept (config : Config) (s : Preferences) (past : List Sent) : Prop where
  allowed : Guarded Allowed past
  suppressed : ∀ action : Action, action.decides = true → Asked past action →
    s.selectionSuppressed = true ∧ ∀ source, source ∉ s.startupPending
  asked : ∀ provider, Asked past (.connect provider) →
    .phone ∉ s.startupPending ∧ .provider provider ∉ s.startupPending
  requested : ∀ provider, Requested past (.connect provider) →
    .provider provider ∉ s.startupPending ∧ (provider = config.first → .phone ∉ s.startupPending)
  band : Asked past .band → s.choicesRestored = true ∨ s.selectionSuppressed = true
  microphone : Asked past .microphone → s.microphoneRestored = true ∨ s.closed = true
  closing : s.closing = true → s.selectionSuppressed = true
  closed : s.closed = true → s.closing = true

/-- Nothing that keeps a command in force is taken back. -/
structure Below (s t : Preferences) : Prop where
  suppressed : s.selectionSuppressed = true → t.selectionSuppressed = true
  pending : ∀ source ∈ t.startupPending, source ∈ s.startupPending
  choices : s.choicesRestored = true → t.choicesRestored = true
  microphone : s.microphoneRestored = true → t.microphoneRestored = true
  closing : t.closing = s.closing
  closed : t.closed = s.closed

variable {config : Config} {s t : Preferences}

theorem Below.refl (s : Preferences) : Below s s :=
  ⟨id, fun _ h => h, id, id, rfl, rfl⟩

theorem Kept.mono (h : Kept config s past) (hst : Below s t) : Kept config t past := by
  constructor
  · exact h.allowed
  · intro action hdecides hasked
    obtain ⟨hsuppressed, hpending⟩ := h.suppressed action hdecides hasked
    exact ⟨hst.suppressed hsuppressed, fun source hsource =>
      hpending source (hst.pending source hsource)⟩
  · intro provider hasked
    obtain ⟨hphone, hprovider⟩ := h.asked provider hasked
    exact ⟨fun hmem => hphone (hst.pending _ hmem), fun hmem => hprovider (hst.pending _ hmem)⟩
  · intro provider hrequested
    obtain ⟨hprovider, hphone⟩ := h.requested provider hrequested
    exact ⟨fun hmem => hprovider (hst.pending _ hmem),
      fun hfirst hmem => hphone hfirst (hst.pending _ hmem)⟩
  · intro hasked
    exact (h.band hasked).imp hst.choices hst.suppressed
  · intro hasked
    exact (h.microphone hasked).imp hst.microphone fun hclosed => hst.closed ▸ hclosed
  · intro hclosing
    exact hst.suppressed (h.closing (hst.closing ▸ hclosing))
  · intro hclosed
    rw [hst.closing]
    exact h.closed (hst.closed ▸ hclosed)

/-- One more automatic command. A connection that it asks for is pending no longer. -/
theorem Kept.send (h : Kept config s past) (hallowed : Allowed past (.automatic command))
    (htaken : ∀ provider, command.action = .connect provider →
      .provider provider ∉ s.startupPending ∧
        (provider = config.first → .phone ∉ s.startupPending)) :
    Kept config s (past ++ [.automatic command]) := by
  constructor
  · exact guarded_concat.mpr ⟨h.allowed, hallowed⟩
  · intro action hdecides hasked
    exact h.suppressed action hdecides (asked_automatic.mp hasked)
  · intro provider hasked
    exact h.asked provider (asked_automatic.mp hasked)
  · intro provider hrequested
    rcases requested_automatic.mp hrequested with hrequested | hcommand
    · exact h.requested provider hrequested
    · exact htaken provider hcommand
  · intro hasked
    exact h.band (asked_automatic.mp hasked)
  · intro hasked
    exact h.microphone (asked_automatic.mp hasked)
  · exact h.closing
  · exact h.closed

/-- Until the user has decided, any automatic command that does not connect may be sent unless
the user has given it. -/
theorem Kept.sendChoice (h : Kept config s past)
    (hconnect : ∀ provider, command.action ≠ .connect provider)
    (hasked : ¬ Asked past command.action)
    (hjoins : command.action.joins = true → s.selectionSuppressed = false) :
    Kept config s (past ++ [.automatic command]) := by
  apply h.send
  · refine ⟨hasked, ?_, fun provider hprovider => absurd hprovider (hconnect provider)⟩
    intro hjoin action hparts hparted
    have hsuppressed := (h.suppressed action (Action.decides_of_parts hparts) hparted).1
    rw [hjoins hjoin] at hsuppressed
    exact Bool.false_ne_true hsuppressed
  · intro provider hprovider
    exact absurd hprovider (hconnect provider)

/-- An action that decides has not been asked for while nothing is suppressed. -/
theorem Kept.not_asked (h : Kept config s past) (hsuppressed : s.selectionSuppressed = false)
    (hdecides : action.decides = true) : ¬ Asked past action := by
  intro hasked
  have := (h.suppressed action hdecides hasked).1
  rw [hsuppressed] at this
  exact Bool.false_ne_true this

theorem Kept.not_closed (h : Kept config s past) (hsuppressed : s.selectionSuppressed = false) :
    s.closed = false := by
  rw [Bool.eq_false_iff]
  intro hclosed
  have := h.closing (h.closed hclosed)
  rw [hsuppressed] at this
  exact Bool.false_ne_true this

/-! ## What the restore and the startup keep -/

/-- A part of the restore or the startup keeps the invariant, leaves the settings alone and
selects only what `Q` says. -/
structure Keeps (config : Config) (Q : String → Prop) (s : Preferences)
    (r : Preferences × List Sent) : Prop where
  closed : r.1.closed = s.closed
  settings : r.1.settings = s.settings
  saved : ∀ command, .automatic command ∈ r.2 → command.action = .select → Q command.target
  kept : ∀ past, Kept config s past → Kept config r.1 (past ++ r.2)

variable {Q : String → Prop} {r : Preferences × List Sent}
  {f : Preferences → Preferences × List Sent}

theorem Keeps.quiet (hst : Below s t) (hsettings : t.settings = s.settings) :
    Keeps config Q s (t, []) := by
  refine ⟨hst.closed, hsettings, (fun _ h => nomatch h), ?_⟩
  intro past hkept
  rw [List.append_nil]
  exact hkept.mono hst

theorem Keeps.none : Keeps config Q s (s, []) :=
  .quiet (Below.refl s) rfl

theorem Keeps.after (hst : Below s t) (hsettings : t.settings = s.settings)
    (h : Keeps config Q t r) : Keeps config Q s r :=
  ⟨h.closed.trans hst.closed, h.settings.trans hsettings, h.saved,
    fun past hkept => h.kept past (hkept.mono hst)⟩

theorem Keeps.andThen (h : Keeps config Q s r) (hf : Keeps config Q r.1 (f r.1)) :
    Keeps config Q s (andThen r f) := by
  refine ⟨hf.closed.trans h.closed, hf.settings.trans h.settings, ?_, ?_⟩
  · intro command hmem
    rcases List.mem_append.mp hmem with hmem | hmem
    · exact h.saved command hmem
    · exact hf.saved command hmem
  · intro past hkept
    change Kept config (f r.1).1 (past ++ (r.2 ++ (f r.1).2))
    rw [← List.append_assoc]
    exact hf.kept _ (h.kept past hkept)

/-- A part that sends one command and changes what does not matter here. -/
theorem Keeps.one (hst : Below s t) (hsettings : t.settings = s.settings)
    (hsaved : command.action = .select → Q command.target)
    (hkept : ∀ past, Kept config s past → Kept config t past →
      Kept config t (past ++ [.automatic command])) :
    Keeps config Q s (t, [.automatic command]) := by
  refine ⟨hst.closed, hsettings, ?_, fun past h => hkept past h (h.mono hst)⟩
  intro other hmem
  cases List.mem_singleton.mp hmem
  exact hsaved

theorem below_cancelStartup : Below s (cancelStartup s) :=
  ⟨id, fun _ h => absurd h LinkedSet.not_mem_empty, id, id, rfl, rfl⟩

theorem below_suppress : Below s (suppress s) :=
  ⟨fun _ => rfl, fun _ h => absurd h LinkedSet.not_mem_empty, id, id, rfl, rfl⟩

theorem below_deadline (deadline : Deadline) : Below s { s with startupDeadline := deadline } :=
  ⟨id, fun _ h => h, id, id, rfl, rfl⟩

theorem below_selecting (phone : Option String) : Below s { s with selecting := phone } :=
  ⟨id, fun _ h => h, id, id, rfl, rfl⟩

theorem below_startupPhone (phone : Option String) : Below s { s with startupPhone := phone } :=
  ⟨id, fun _ h => h, id, id, rfl, rfl⟩

theorem below_restoring (restoring : Option Restoring) :
    Below s { s with restoring := restoring } :=
  ⟨id, fun _ h => h, id, id, rfl, rfl⟩

theorem below_choices (restoring : Option Restoring) :
    Below s { s with choicesRestored := true, restoring := restoring } :=
  ⟨id, fun _ h => h, fun _ => rfl, id, rfl, rfl⟩

theorem below_microphone : Below s { s with microphoneRestored := true } :=
  ⟨id, fun _ h => h, id, fun _ => rfl, rfl, rfl⟩

theorem below_writes (writes : List Write) : Below s { s with writes := writes } :=
  ⟨id, fun _ h => h, id, id, rfl, rfl⟩

theorem below_settleDeadline : Below s (settleDeadline s) := by
  unfold settleDeadline
  split
  · exact below_deadline _
  · exact Below.refl s

theorem settleDeadline_settings : (settleDeadline s).settings = s.settings := by
  unfold settleDeadline
  split
  · rfl
  · rfl

/-! ## Startup -/

variable {state : Snapshot}

/-- The phone has been converted by the time its provider is ready. -/
theorem phone_not_mem_convert {pending : LinkedSet Source} (h : ready state config.first = true) :
    .phone ∉ convert config state pending := by
  unfold convert
  split
  · split
    · simp
    · rename_i hconfigured
      have hmusic : state.music.isSome = true := by
        simpa [Config.first, hconfigured, ready] using h
      simp [hmusic]
  · assumption

/-- The conversion adds only the provider that the phone stands for. -/
theorem mem_convert {pending : LinkedSet Source} {source : Source}
    (h : source ∈ convert config state pending) :
    source ∈ pending ∨ source = .provider config.first ∧ .phone ∈ pending := by
  unfold convert at h
  split at h
  · rename_i hphone
    split at h
    · rename_i hconfigured
      simp only [LinkedSet.mem_add, LinkedSet.mem_remove] at h
      rcases h with rfl | h
      · exact Or.inr ⟨by simp [Config.first, hconfigured], hphone⟩
      · exact Or.inl h.1
    · rename_i hconfigured
      split at h
      · simp only [LinkedSet.mem_add, LinkedSet.mem_remove] at h
        rcases h with rfl | h
        · exact Or.inr ⟨by simp [Config.first, hconfigured], hphone⟩
        · exact Or.inl h.1
      · exact Or.inl h
  · exact Or.inl h

theorem Kept.convert (h : Kept config s past) :
    Kept config { s with startupPending := convert config state s.startupPending } past := by
  constructor
  · exact h.allowed
  · intro action hdecides hasked
    obtain ⟨hsuppressed, hpending⟩ := h.suppressed action hdecides hasked
    refine ⟨hsuppressed, fun source hsource => ?_⟩
    rcases mem_convert hsource with hsource | ⟨-, hphone⟩
    · exact hpending source hsource
    · exact hpending _ hphone
  · intro provider hasked
    obtain ⟨hphone, hprovider⟩ := h.asked provider hasked
    constructor
    · intro hmem
      rcases mem_convert hmem with hmem | ⟨-, hmem⟩
      · exact hphone hmem
      · exact hphone hmem
    · intro hmem
      rcases mem_convert hmem with hmem | ⟨-, hmem⟩
      · exact hprovider hmem
      · exact hphone hmem
  · intro provider hrequested
    obtain ⟨hprovider, hphone⟩ := h.requested provider hrequested
    constructor
    · intro hmem
      rcases mem_convert hmem with hmem | ⟨heq, hmem⟩
      · exact hprovider hmem
      · exact hphone (Source.provider.inj heq) hmem
    · intro hfirst hmem
      rcases mem_convert hmem with hmem | ⟨-, hmem⟩
      · exact hphone hfirst hmem
      · exact hphone hfirst hmem
  · exact h.band
  · exact h.microphone
  · exact h.closing
  · exact h.closed

/-- A pending provider is asked for by neither side. -/
theorem Kept.allowed_connect {provider : Provider} {target : String} (h : Kept config s past)
    (hmem : .provider provider ∈ s.startupPending) :
    Allowed past (.automatic { action := .connect provider, target := target }) := by
  refine ⟨fun hasked => (h.asked provider hasked).2 hmem, ?_, ?_⟩
  · intro _ action hparts hasked
    exact (h.suppressed action (Action.decides_of_parts hparts) hasked).2 _ hmem
  · intro other hother hrequested
    cases hother
    exact (h.requested provider hrequested).1 hmem

theorem below_take {source : Source} :
    Below s { s with startupPending := s.startupPending.remove source } :=
  ⟨id, fun _ h => (LinkedSet.mem_remove.mp h).1, id, id, rfl, rfl⟩

theorem request_keeps (sources : List Source) (hnodup : sources.Nodup)
    (hpending : ∀ source ∈ sources, source ∈ s.startupPending)
    (hfirst : ready state config.first = true → .phone ∉ s.startupPending) :
    Keeps config Q s (request state sources s) := by
  induction sources generalizing s with
  | nil => exact .none
  | cons source rest ih =>
    have hrest : ∀ other ∈ rest, other ∈ s.startupPending :=
      fun other hother => hpending other (List.mem_cons_of_mem _ hother)
    have hnot : source ∉ rest := (List.nodup_cons.mp hnodup).1
    have htaken : ∀ other ∈ rest, other ∈ s.startupPending.remove source := fun other hother =>
      LinkedSet.mem_remove.mpr ⟨hrest other hother, fun heq => hnot (heq ▸ hother)⟩
    have hphone : ready state config.first = true → .phone ∉ s.startupPending.remove source :=
      fun hready hmem => hfirst hready (LinkedSet.mem_remove.mp hmem).1
    have hnext := ih (List.nodup_cons.mp hnodup).2 hrest hfirst
    cases source with
    | phone => exact hnext
    | other => exact hnext
    | provider provider =>
      simp only [request]
      split
      · rename_i hready
        split
        · exact .after below_take rfl (ih (List.nodup_cons.mp hnodup).2 htaken hphone)
        · apply Keeps.andThen
          · apply Keeps.one below_take rfl
            · exact fun h => nomatch h
            · intro past hkept htook
              apply htook.send (hkept.allowed_connect (hpending _ List.mem_cons_self))
              rintro other heq
              cases heq
              refine ⟨fun hmem => (LinkedSet.mem_remove.mp hmem).2 rfl, fun heq => ?_⟩
              exact hphone (heq ▸ hready)
          · exact ih (List.nodup_cons.mp hnodup).2 htaken hphone
      · exact hnext

theorem startup_keeps : Keeps config Q s (startup config state s) := by
  unfold startup
  split
  · exact .none
  split
  · exact .quiet below_cancelStartup rfl
  split
  · exact .none
  dsimp only
  split
  · exact .quiet (below_deadline _) rfl
  split
  · exact .quiet (below_deadline _) rfl
  apply Keeps.after (below_deadline s.startupDeadline.arm) rfl
  apply Keeps.andThen
  · have hrequest (t : Preferences) (ht : t.startupPending = convert config state s.startupPending) :
        Keeps config Q t (request state (convert config state s.startupPending).toList t) :=
      request_keeps _ (LinkedSet.nodup _) (fun _ h => ht ▸ h)
        fun hready => ht ▸ phone_not_mem_convert hready
    have hconverted := hrequest { s with
      startupDeadline := s.startupDeadline.arm
      startupPending := convert config state s.startupPending } rfl
    exact ⟨hconverted.closed, hconverted.settings, hconverted.saved,
      fun past hkept => hconverted.kept past hkept.convert⟩
  · exact .quiet below_settleDeadline settleDeadline_settings

/-! ## Restoring -/

theorem restoredPhone_saved {settings : Settings}
    (h : state.paired (restoredPhone settings state) = true) :
    Saved settings state (restoredPhone settings state) := by
  refine ⟨h, ?_⟩
  unfold restoredPhone
  split
  · rename_i radio hradio
    split
    · rename_i haddress
      exact Or.inr ⟨radio, List.mem_of_find?_eq_some hradio,
        by simpa using List.find?_some hradio, haddress, rfl⟩
    · exact Or.inl rfl
  · exact Or.inl rfl

theorem restorePhone_keeps (hQ : ∀ target, Saved s.settings state target → Q target) :
    Keeps config Q s (restorePhone config state s) := by
  unfold restorePhone
  split
  · exact .none
  rename_i hfree
  simp only [Bool.or_eq_true, not_or, Bool.not_eq_true] at hfree
  dsimp only
  split
  · exact .none
  rename_i hknown
  simp only [Bool.or_eq_true, not_or, Bool.not_eq_true', Bool.not_eq_false] at hknown
  split
  · apply Keeps.one (below_selecting _) rfl
    · intro _
      exact hQ _ (restoredPhone_saved hknown.2)
    · intro past hkept hsame
      apply hsame.sendChoice
      · exact fun _ h => by cases h
      · exact hkept.not_asked hfree.1.1 rfl
      · exact fun _ => hfree.1.1
  · exact .after (below_startupPhone (some (restoredPhone s.settings state))) rfl startup_keeps

theorem selected_keeps {phone : String} {succeeded : Bool} :
    Keeps config Q s (selected config phone succeeded s) := by
  unfold selected
  dsimp only
  split
  · exact .quiet (below_selecting _) rfl
  split
  · exact .after (below_selecting none) rfl
      (.after (below_startupPhone (some phone)) rfl startup_keeps)
  · exact .after (below_selecting none) rfl startup_keeps

theorem restoreMicrophone_keeps (hclosed : s.closed = false) :
    Keeps config Q s (restoreMicrophone state s) := by
  unfold restoreMicrophone
  split
  · rename_i hdue
    simp only [Bool.and_eq_true, Bool.not_eq_true'] at hdue
    apply Keeps.one below_microphone rfl
    · exact fun h => nomatch h
    · intro past hkept hsame
      apply hsame.sendChoice
      · exact fun _ h => nomatch h
      · intro hasked
        rcases hkept.microphone hasked with h | h
        · rw [hdue.1.1] at h
          exact Bool.false_ne_true h
        · rw [hclosed] at h
          exact Bool.false_ne_true h
      · exact fun h => nomatch h
  · exact .none

theorem finish_keeps : Keeps config Q s (finish s) :=
  .quiet (below_restoring _) rfl

/-- A choice that decides, sent while nothing is suppressed. -/
theorem choice_keeps {restoring : Restoring} (hsuppressed : s.selectionSuppressed = false)
    (hdecides : command.action.decides = true) (hjoins : command.action.joins = false) :
    Keeps config Q s ({ s with restoring := some restoring }, [.automatic command]) := by
  apply Keeps.one (below_restoring _) rfl
  · intro h
    rw [h] at hjoins
    exact nomatch hjoins
  · intro past hkept hsame
    apply hsame.sendChoice
    · intro provider h
      rw [h] at hjoins
      exact nomatch hjoins
    · exact hkept.not_asked hsuppressed hdecides
    · exact fun _ => hsuppressed

theorem interfaceRestored_keeps : Keeps config Q s (interfaceRestored s) := by
  unfold interfaceRestored
  split
  · exact finish_keeps
  · exact .quiet (below_choices _) rfl

variable {choices : Choices}

theorem restoreInterface_keeps : Keeps config Q s (restoreInterface choices s) := by
  unfold restoreInterface
  split
  · exact finish_keeps
  rename_i hsuppressed
  split
  · exact choice_keeps (Bool.eq_false_iff.mpr hsuppressed) rfl rfl
  · exact interfaceRestored_keeps

theorem adapterRestored_keeps : Keeps config Q s (adapterRestored choices s) := by
  unfold adapterRestored
  split
  · exact finish_keeps
  split
  · exact .after (below_restoring (some .migration)) rfl (.quiet (below_writes _) rfl)
  · exact restoreInterface_keeps

theorem restoreAdapter_keeps : Keeps config Q s (restoreAdapter choices s) := by
  unfold restoreAdapter
  split
  · exact finish_keeps
  rename_i hsuppressed
  split
  · exact choice_keeps (Bool.eq_false_iff.mpr hsuppressed) rfl rfl
  · exact restoreInterface_keeps

theorem restoreChoices_keeps (hchoices : s.choicesRestored = false) :
    Keeps config Q s (restoreChoices state s) := by
  unfold restoreChoices
  dsimp only
  split
  · exact finish_keeps
  rename_i hfree
  simp only [Bool.or_eq_true, not_or, Bool.not_eq_true] at hfree
  split
  · apply Keeps.one (below_restoring _) rfl
    · exact fun h => by cases h
    · intro past hkept hsame
      apply hsame.sendChoice
      · exact fun _ h => by cases h
      · intro hasked
        rcases hkept.band hasked with h | h
        · rw [hchoices] at h
          exact Bool.false_ne_true h
        · rw [hfree.1.1] at h
          exact Bool.false_ne_true h
      · exact fun h => by cases h
  · exact restoreAdapter_keeps

theorem choiceAnswered_keeps {succeeded : Bool} :
    Keeps config Q s (choiceAnswered succeeded s) := by
  unfold choiceAnswered
  split
  · split
    · exact restoreAdapter_keeps
    · exact finish_keeps
  · split
    · exact adapterRestored_keeps
    · exact finish_keeps
  · split
    · exact interfaceRestored_keeps
    · exact finish_keeps
  · exact .none

theorem restore_keeps (hclosed : s.closed = false)
    (hQ : ∀ target, Saved s.settings state target → Q target) :
    Keeps config Q s (restore config state s) := by
  have hstartup : Keeps config Q s (startup config state s) := startup_keeps
  have hphone : Keeps config Q (startup config state s).1
      (if (startup config state s).1.choicesRestored then
        restorePhone config state (startup config state s).1
      else ((startup config state s).1, [])) := by
    split
    · exact restorePhone_keeps fun target h => hQ target (hstartup.settings ▸ h)
    · exact .none
  have hchoices (t : Preferences) : Keeps config Q t
      (if t.choicesRestored || t.restoring.isSome || t.selectionSuppressed || !state.usable then
        (t, [])
      else restoreChoices state t) := by
    split
    · exact .none
    · rename_i hdue
      simp only [Bool.or_eq_true, not_or, Bool.not_eq_true] at hdue
      exact restoreChoices_keeps hdue.1.1.1
  apply Keeps.andThen hstartup
  apply Keeps.andThen hphone
  apply Keeps.andThen
  · exact restoreMicrophone_keeps (hphone.closed.trans (hstartup.closed.trans hclosed))
  · exact hchoices _

theorem choicesOver_keeps (hclosed : s.selectionSuppressed = false → s.closed = false)
    (hQ : ∀ target, Saved s.settings s.connectivity target → Q target) :
    Keeps config Q s (choicesOver config s) := by
  unfold choicesOver
  split
  · dsimp only
    split
    · rename_i hgo
      simp only [Bool.and_eq_true, Bool.not_eq_true'] at hgo
      exact .after (below_restoring none) rfl (restore_keeps (hclosed hgo.2) hQ)
    · exact .quiet (below_restoring _) rfl
  · exact .none

/-! ## Runs -/

/-- The band is commanded only once the choices have been restored or given up, the microphone
only once the saved one has been restored or the preferences are closed. -/
def Met (s : Preferences) : Event → Prop
  | .command command =>
    (command.action = .band → s.choicesRestored = true ∨ s.selectionSuppressed = true) ∧
      (command.action = .microphone → s.microphoneRestored = true ∨ s.closed = true)
  | _ => True

theorem below_intend : Below s (intend command s) := by
  have hconnect (provider : Provider) : Below s { s with
      startupPending := (s.startupPending.remove .phone).remove (.provider provider) } :=
    ⟨id, fun _ h => (LinkedSet.mem_remove.mp (LinkedSet.mem_remove.mp h).1).1, id, id, rfl, rfl⟩
  unfold intend
  split
  iterate 6 exact below_suppress
  iterate 2
    split
    · exact Below.refl s
    · exact below_suppress
  · exact hconnect _
  · exact Below.refl s

theorem intend_decides (h : command.action.decides = true) :
    (intend command s).selectionSuppressed = true ∧
      ∀ source, source ∉ (intend command s).startupPending := by
  obtain ⟨action, target, accept, prompt⟩ := command
  cases action with
  | forget | stopAll | adapter | interface | select | disconnect =>
    exact ⟨rfl, fun _ => LinkedSet.not_mem_empty⟩
  | _ => exact nomatch h

theorem intend_connect {provider : Provider} (h : command.action = .connect provider) :
    .phone ∉ (intend command s).startupPending ∧
      .provider provider ∉ (intend command s).startupPending := by
  simp [intend, h]

theorem Kept.commanded (h : Kept config s past) (hmet : Met s (.command command)) :
    Kept config (connectivityCommand command s).1
      (past ++ (connectivityCommand command s).2) := by
  have hsettled : Below (intend command s) (settleDeadline (intend command s)) :=
    below_settleDeadline
  have hcommands : Below (settleDeadline (intend command s)) (connectivityCommand command s).1 :=
    ⟨id, fun _ h => h, id, id, rfl, rfl⟩
  have hnext := ((h.mono below_intend).mono hsettled).mono hcommands
  constructor
  · exact guarded_concat.mpr ⟨hnext.allowed, trivial⟩
  · intro action hdecides hasked
    rcases asked_explicit.mp hasked with hasked | rfl
    · exact hnext.suppressed action hdecides hasked
    · obtain ⟨hsuppressed, hpending⟩ := intend_decides (s := s) hdecides
      exact ⟨hcommands.suppressed (hsettled.suppressed hsuppressed), fun source hsource =>
        hpending source (hsettled.pending source (hcommands.pending source hsource))⟩
  · intro provider hasked
    rcases asked_explicit.mp hasked with hasked | hcommand
    · exact hnext.asked provider hasked
    · obtain ⟨hphone, hprovider⟩ := intend_connect (s := s) hcommand
      exact ⟨fun hmem => hphone (hsettled.pending _ (hcommands.pending _ hmem)),
        fun hmem => hprovider (hsettled.pending _ (hcommands.pending _ hmem))⟩
  · intro provider hrequested
    exact hnext.requested provider (requested_explicit.mp hrequested)
  · intro hasked
    rcases asked_explicit.mp hasked with hasked | hcommand
    · exact hnext.band hasked
    · exact (hmet.1 hcommand).imp
        (fun h => hcommands.choices (hsettled.choices (below_intend.choices h)))
        fun h => hcommands.suppressed (hsettled.suppressed (below_intend.suppressed h))
  · intro hasked
    rcases asked_explicit.mp hasked with hasked | hcommand
    · exact hnext.microphone hasked
    · rcases hmet.2 hcommand with h | h
      · exact Or.inl (hcommands.microphone (hsettled.microphone (below_intend.microphone h)))
      · exact Or.inr (hcommands.closed.trans (hsettled.closed.trans (below_intend.closed.trans h)))
  · exact hnext.closing
  · exact hnext.closed

theorem below_changed {change : Change} : Below s (changed change s) := by
  unfold changed
  dsimp only
  split
  · exact ⟨fun _ => rfl, fun _ h => absurd h LinkedSet.not_mem_empty, id, id, rfl, rfl⟩
  · exact ⟨id, fun _ h => h, id, id, rfl, rfl⟩

/-- Nothing is sent and nothing taken back. -/
theorem Kept.quiet (h : Kept config s past) (hst : Below s t) : Kept config t (past ++ []) := by
  rw [List.append_nil]
  exact h.mono hst

theorem below_published {connectivity : Snapshot} {undelivered : List Snapshot} :
    Below s { s with connectivity := connectivity, undelivered := undelivered } :=
  ⟨id, fun _ h => h, id, id, rfl, rfl⟩

theorem Kept.written {write : Write} {succeeded : Bool} (h : Kept config s past) :
    Kept config (written write succeeded s).1 (past ++ (written write succeeded s).2) := by
  cases write with
  | chosen change =>
    cases succeeded with
    | false => exact h.quiet (Below.refl s)
    | true => exact h.quiet below_changed
  | forgotten =>
    cases succeeded with
    | false => exact h.quiet (Below.refl s)
    | true => exact h.quiet below_changed
  | migrated choices radio =>
    have hfinish : Keeps config (fun _ => True) s (finish s) := finish_keeps
    have hnext : Keeps config (fun _ => True)
        (changed (.connectivityAdapter (radio.address.getD radio.id)) s)
        (restoreInterface choices
          (changed (.connectivityAdapter (radio.address.getD radio.id)) s)) :=
      restoreInterface_keeps
    cases succeeded with
    | false => exact hfinish.kept past h
    | true => exact hnext.kept past (h.mono below_changed)

theorem step_kept (event : Event) (h : Kept config s past) (hmet : Met s event) :
    Kept config (step config s event).1 (past ++ (step config s event).2) := by
  cases event with
  | published state => exact h.quiet below_published
  | delivered =>
    simp only [step]
    split
    · exact h.quiet (Below.refl s)
    · rename_i state rest hundelivered
      have hrest : Below s { s with undelivered := rest } := ⟨id, fun _ h => h, id, id, rfl, rfl⟩
      split
      · exact h.quiet hrest
      · rename_i hopen
        have hrestore : Keeps config (fun _ => True) { s with undelivered := rest }
            (restore config state { s with undelivered := rest }) :=
          restore_keeps (Bool.eq_false_iff.mpr hopen) fun _ _ => trivial
        exact hrestore.kept past (h.mono hrest)
  | command command => exact h.commanded hmet
  | answered index succeeded =>
    simp only [step]
    split
    · exact h.quiet (Below.refl s)
    · exact h.quiet ⟨id, fun _ h => h, id, id, rfl, rfl⟩
  | choiceAnswered succeeded =>
    have hanswered : Keeps config (fun _ => True) s (choiceAnswered succeeded s) :=
      choiceAnswered_keeps
    exact hanswered.kept past h
  | choicesOver =>
    have hover : Keeps config (fun _ => True) s (choicesOver config s) :=
      choicesOver_keeps h.not_closed fun _ _ => trivial
    exact hover.kept past h
  | selected succeeded =>
    simp only [step]
    split
    · exact h.quiet (Below.refl s)
    · rename_i phone hselecting
      have hselected : Keeps config (fun _ => True) s (selected config phone succeeded s) :=
        selected_keeps
      exact hselected.kept past h
  | written index succeeded =>
    simp only [step]
    split
    · exact h.quiet (Below.refl s)
    · exact (h.mono (below_writes _)).written
  | changed change => exact h.quiet below_changed
  | expired =>
    simp only [step]
    split
    · exact h.quiet ⟨fun _ => rfl, fun _ h => absurd h LinkedSet.not_mem_empty, id, id, rfl, rfl⟩
    · exact h.quiet (Below.refl s)
  | close =>
    have hsuppressed := h.mono (below_suppress (s := s))
    rw [step, List.append_nil]
    exact { hsuppressed with closing := fun _ => rfl, closed := fun _ => rfl }
  | unsubscribed =>
    rw [step, List.append_nil]
    exact { h with
      microphone := fun hasked => (h.microphone hasked).imp id h.closed
      closed := id }

/-- Nothing has been sent yet. -/
theorem kept_initial (settings : Settings) (connectivity : Snapshot) :
    Kept config (.initial config settings connectivity) [] := by
  have hasked (action : Action) : ¬ Asked [] action := fun ⟨_, h, _⟩ => nomatch h
  have hrequested (action : Action) : ¬ Requested [] action := fun ⟨_, h, _⟩ => nomatch h
  exact ⟨guarded_nil _, fun _ _ h => absurd h (hasked _), fun _ h => absurd h (hasked _),
    fun _ h => absurd h (hrequested _), fun h => absurd h (hasked _),
    fun h => absurd h (hasked _), (fun h => nomatch h), fun h => nomatch h⟩

theorem start_keeps (settings : Settings) (connectivity : Snapshot)
    (hQ : ∀ target, Saved settings connectivity target → Q target) :
    Keeps config Q (.initial config settings connectivity) (start config settings connectivity) :=
  restore_keeps rfl hQ

theorem run_kept (settings : Settings) (connectivity : Snapshot) (events : List Event)
    (hmet : Along (step config) Met (start config settings connectivity).1 events) :
    Kept config (reached config settings connectivity events)
      (log config settings connectivity events) := by
  have hstart : Keeps config (fun _ => True) (.initial config settings connectivity)
      (start config settings connectivity) := start_keeps settings connectivity fun _ _ => trivial
  apply along_induction (step config) (I := fun events =>
    Kept config (reached config settings connectivity events)
      (log config settings connectivity events)) _ _ events hmet
  · have := hstart.kept [] (kept_initial settings connectivity)
    simpa [reached, log] using this
  · intro events event hkept hevent
    have := step_kept event hkept hevent
    simpa [reached, log, run_concat] using this

/-! ## The phone -/

theorem written_saved {write : Write} {succeeded : Bool}
    (hsent : .automatic command ∈ (written write succeeded s).2)
    (hselect : command.action = .select) : Q command.target := by
  cases write with
  | chosen change => exact nomatch hsent
  | forgotten => exact nomatch hsent
  | migrated choices radio =>
    have hnext : Keeps {} Q (changed (.connectivityAdapter (radio.address.getD radio.id)) s)
        (restoreInterface choices
          (changed (.connectivityAdapter (radio.address.getD radio.id)) s)) :=
      restoreInterface_keeps
    cases succeeded with
    | false => exact nomatch hsent
    | true => exact hnext.saved command hsent hselect

/-- Whatever a step selects by itself is the saved phone, in a snapshot that the step has seen. -/
theorem step_saved {event : Event} (h : Kept config s past)
    (hsent : .automatic command ∈ (step config s event).2) (hselect : command.action = .select) :
    ∃ state ∈ s.connectivity :: s.undelivered, Saved s.settings state command.target := by
  have hhere : s.connectivity ∈ s.connectivity :: s.undelivered := List.mem_cons_self
  cases event with
  | published state => exact nomatch hsent
  | delivered =>
    simp only [step] at hsent
    split at hsent
    · exact nomatch hsent
    · rename_i state rest hundelivered
      split at hsent
      · exact nomatch hsent
      · rename_i hopen
        have hmem : state ∈ s.connectivity :: s.undelivered := by simp [hundelivered]
        have hrestore : Keeps config (Saved s.settings state) { s with undelivered := rest }
            (restore config state { s with undelivered := rest }) :=
          restore_keeps (Bool.eq_false_iff.mpr hopen) fun _ h => h
        exact ⟨state, hmem, hrestore.saved command hsent hselect⟩
  | command other => simp [step, connectivityCommand] at hsent
  | answered index succeeded =>
    simp only [step] at hsent
    split at hsent
    · exact nomatch hsent
    · exact nomatch hsent
  | choiceAnswered succeeded =>
    have hanswered : Keeps config (Saved s.settings s.connectivity) s
        (choiceAnswered succeeded s) := choiceAnswered_keeps
    exact ⟨_, hhere, hanswered.saved command hsent hselect⟩
  | choicesOver =>
    have hover : Keeps config (Saved s.settings s.connectivity) s (choicesOver config s) :=
      choicesOver_keeps h.not_closed fun _ h => h
    exact ⟨_, hhere, hover.saved command hsent hselect⟩
  | selected succeeded =>
    simp only [step] at hsent
    split at hsent
    · exact nomatch hsent
    · rename_i phone hselecting
      have hselected : Keeps config (Saved s.settings s.connectivity) s
          (selected config phone succeeded s) := selected_keeps
      exact ⟨_, hhere, hselected.saved command hsent hselect⟩
  | written index succeeded =>
    simp only [step] at hsent
    split at hsent
    · exact nomatch hsent
    · exact ⟨_, hhere, written_saved hsent hselect⟩
  | changed change => exact nomatch hsent
  | expired =>
    simp only [step] at hsent
    split at hsent
    · exact nomatch hsent
    · exact nomatch hsent
  | close => exact nomatch hsent
  | unsubscribed => exact nomatch hsent

/-- After a command of the user the same is not commanded again automatically, behind forget,
stop and disconnect nothing is connected, each provider is asked for once, and only the saved
phone is selected. -/
theorem explicit_intent_wins (config : Config) (settings : Settings) (connectivity : Snapshot)
    (events : List Event)
    (hmet : Along (step config) Met (start config settings connectivity).1 events) :
    Guarded Allowed (log config settings connectivity events) ∧
      (∀ command, .automatic command ∈ (start config settings connectivity).2 →
        command.action = .select → Saved settings connectivity command.target) ∧
      ∀ before event after, events = before ++ event :: after →
        let s := reached config settings connectivity before
        ∀ command, .automatic command ∈ (step config s event).2 → command.action = .select →
          ∃ state ∈ s.connectivity :: s.undelivered, Saved s.settings state command.target := by
  refine ⟨(run_kept settings connectivity events hmet).allowed, ?_, ?_⟩
  · exact (start_keeps settings connectivity fun _ h => h).saved
  · rintro before event after rfl s command hsent hselect
    exact step_saved (run_kept settings connectivity before hmet.left) hsent hselect

/-- A daemon that is ready, and knows the remembered phone. -/
def inventory : Snapshot where
  available := true
  daemonConnected := true
  adapters := [{ id := "hci0" }]
  devices := [{ id := "hci0/AA", paired := true }]
  enabled := true
  phase := "idle"
  band := some "5ghz"
  voice := true
  wirelessAvailable := some true

def remembrance : Settings where
  connectivityPhone := "hci0/AA"
  microphoneInput := "usb"

/-- The phone is restored and connected; the user's band and microphone stay. -/
def restoredFirst : List Event :=
  [.choiceAnswered true, .choicesOver, .command { action := .band, target := "2.4ghz" },
    .published { inventory with selected := "hci0/AA" }, .selected true,
    .command { action := .microphone, target := "line" }, .delivered]

theorem explicit_intent_wins_restoredFirst :
    log {} remembrance inventory restoredFirst =
      [.automatic { action := .microphone, target := "usb" },
        .automatic { action := .band, target := "5ghz" },
        .automatic { action := .select, target := "hci0/AA" },
        .explicit { action := .band, target := "2.4ghz" },
        .automatic { action := .connect .wireless, target := "hci0/AA" },
        .explicit { action := .microphone, target := "line" }] ∧
      Guarded Allowed (log {} remembrance inventory restoredFirst) := by
  refine ⟨by decide +kernel, (explicit_intent_wins {} remembrance inventory restoredFirst ?_).1⟩
  refine ⟨trivial, trivial, ⟨fun _ => Or.inl ?_, (fun h => nomatch h)⟩, trivial, trivial,
    ⟨(fun h => nomatch h), fun _ => Or.inl ?_⟩, trivial, trivial⟩
  · decide +kernel
  · decide +kernel

/-- The user comes before the daemon, and gets the old microphone and the old band. -/
def commandedFirst : List Event :=
  [.command { action := .band, target := "2.4ghz" },
    .command { action := .microphone, target := "line" }, .published inventory, .delivered]

theorem explicit_intent_lost :
    log {} remembrance {} commandedFirst =
      [.explicit { action := .band, target := "2.4ghz" },
        .explicit { action := .microphone, target := "line" },
        .automatic { action := .microphone, target := "usb" },
        .automatic { action := .band, target := "5ghz" }] ∧
      ¬ Guarded Allowed (log {} remembrance {} commandedFirst) := by
  have hlog : log {} remembrance {} commandedFirst =
      [.explicit { action := .band, target := "2.4ghz" },
        .explicit { action := .microphone, target := "line" },
        .automatic { action := .microphone, target := "usb" },
        .automatic { action := .band, target := "5ghz" }] := by decide +kernel
  refine ⟨hlog, ?_⟩
  rw [hlog]
  intro hguarded
  obtain ⟨hasked, -⟩ := hguarded [.explicit { action := .band, target := "2.4ghz" },
    .explicit { action := .microphone, target := "line" },
    .automatic { action := .microphone, target := "usb" }] _ [] rfl
  exact hasked ⟨_, List.mem_cons_self, rfl⟩

end ProjectArgo.Connectivity.Preferences
