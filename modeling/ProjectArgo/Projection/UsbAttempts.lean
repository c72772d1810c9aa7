import ProjectArgo.Projection.UsbLease

/-!
# One attempt for each enumeration

The loop remembers the ids it has attempted until they are unplugged. A probe may
tell a phone to switch only after the lifecycle has begun to wait for that phone's
accessory, and the results of workers concern the device they name and no other.
-/
namespace ProjectArgo.Projection

open Library.Run

/-- The id an act is an attempt of. -/
def UsbAct.attempt? : UsbAct → Option String
  | .probed key _ => some key.id
  | .started key => some key.id
  | _ => none

def UsbAct.IsWrite (act : UsbAct) : Prop := ∃ holder snapshot, act = .wrote holder snapshot

theorem UsbAct.IsWrite.attempt? {act : UsbAct} (h : act.IsWrite) : act.attempt? = none := by
  obtain ⟨holder, snapshot, rfl⟩ := h
  rfl

/-- The device a result is about. -/
def WorkResult.key : WorkResult → UsbDeviceKey
  | .beforeStart key _ _ => key
  | .aoap key _ => key
  | .version key _ => key

/-- The device and the probe of a request to send START. -/
def WorkResult.asks? : WorkResult → Option (UsbDeviceKey × ℕ)
  | .beforeStart key _ token => some (key, token)
  | _ => none

/-! ## Results and the lifecycle -/

namespace UsbConnectionState

variable {state : UsbConnectionState} {now : ℕ}

/-- A result that changes the lifecycle or fails an attempt concerns the device of both. -/
theorem after_cases (now : ℕ) (state : UsbConnectionState) (result : WorkResult) :
    (∃ device, state.device? = some device ∧ device.id = result.key.id ∧
        (state.after now result).device? = some device ∧
        ∀ other, state.after now result ≠ .probing other) ∨
      state.after now result = state ∧ ¬state.Fails result := by
  cases result with
  | beforeStart key version token =>
    simp only [after]
    rcases accessorySwitchRequested_cases state key.id now with ⟨device, rfl, hid, heq⟩ | heq
    · rw [heq]
      exact Or.inl ⟨device, rfl, hid, rfl, by simp⟩
    · rw [heq]
      exact Or.inr ⟨rfl, id⟩
  | aoap key result =>
    cases result with
    | ok version => exact Or.inr ⟨rfl, id⟩
    | error error =>
      simp only [after]
      split
      · rename_i hwaiting
        exact Or.inr ⟨rfl, fun hfails => hfails.1 hwaiting⟩
      · rcases probeFailed_cases state key.id error with ⟨device, hdevice, hid, heq⟩ | heq
        · rw [heq]
          exact Or.inl ⟨device, hdevice, hid, rfl, by simp⟩
        · rw [heq]
          refine Or.inr ⟨rfl, fun hfails => ?_⟩
          have hfailed := hfails.2
          rw [heq] at hfailed
          cases hfailed
  | version key result =>
    cases result with
    | ok version =>
      simp only [after]
      rcases versionNegotiated_cases state key.id version.1 version.2 with
        ⟨device, rfl, hid, heq⟩ | heq
      · rw [heq]
        exact Or.inl ⟨device, rfl, hid, rfl, by simp⟩
      · rw [heq]
        exact Or.inr ⟨rfl, id⟩
    | error error =>
      simp only [after]
      rcases sessionFailed_cases state key.id error with ⟨device, hdevice, hid, -, heq⟩ | heq
      · rw [heq]
        exact Or.inl ⟨device, hdevice, hid, rfl, by simp⟩
      · rw [heq]
        refine Or.inr ⟨rfl, fun hfails => ?_⟩
        have hfailed : (state.sessionFailed key.id error).2 = true := hfails
        rw [heq] at hfailed
        cases hfailed

/-- Results never begin a probe. -/
theorem after_eq_probing {result : WorkResult} {device : UsbDeviceKey}
    (h : state.after now result = .probing device) : state = .probing device := by
  rcases after_cases now state result with ⟨_, -, -, -, hne⟩ | ⟨hsame, -⟩
  · exact absurd h (hne device)
  · exact hsame ▸ h

/-- An accessory may be adopted when nothing is under way, or out of a wait, before its
deadline and with a serial that can correlate. -/
def Adopts (state : UsbConnectionState) (accessory : UsbDeviceKey) (now : ℕ) : Prop :=
  state = disconnected ∨ ∃ original deadline gone,
    state = waitingForAccessory original deadline gone ∧ now ≤ deadline ∧
      serialsCanCorrelate original accessory = true

theorem adopts_of_discovered {accessory : UsbDeviceKey}
    (h : (state.accessoryDiscovered accessory now).2 = true) : state.Adopts accessory now := by
  unfold accessoryDiscovered at h
  split at h
  · exact Or.inl rfl
  · rename_i original deadline gone
    split at h
    · rename_i hbefore
      exact Or.inr ⟨original, deadline, gone, rfl, hbefore⟩
    · exact nomatch h
  · exact nomatch h

theorem after_waiting (now : ℕ) (original : UsbDeviceKey) (deadline : ℕ) (gone : Bool)
    (result : WorkResult) :
    (waitingForAccessory original deadline gone).after now result =
      .waitingForAccessory original deadline gone := by
  cases result with
  | beforeStart key version token => rfl
  | aoap key result =>
    cases result with
    | ok version => rfl
    | error error =>
      simp only [after]
      split
      · rfl
      · rename_i hother
        have hne : original.id ≠ key.id := by
          intro heq
          exact hother ⟨rfl, by simp [device?, heq]⟩
        simp [probeFailed, hne]
  | version key result =>
    cases result with
    | ok version => rfl
    | error error => rfl

end UsbConnectionState

namespace UsbRuntime

variable {usb next : UsbRuntime} {acts : List UsbAct} {event : Event}

/-! ## Everything but new attempts -/

/-- No attempt begins: probes and their requests are among those before. -/
structure Beside (usb next : UsbRuntime) (acts : List UsbAct) : Prop where
  attempted : next.attempted = usb.attempted
  tokens : next.tokens = usb.tokens
  probes : ∀ probe ∈ next.probes, ∃ old ∈ usb.probes, old.token = probe.token ∧ old.key = probe.key
  queue : ∀ result ∈ next.queue, result ∈ usb.queue ∨ result.asks? = none
  acts : ∀ act ∈ acts, act.IsWrite

/-- A step that changes neither probes nor queue. -/
theorem beside_of_eq (hattempted : next.attempted = usb.attempted)
    (htokens : next.tokens = usb.tokens) (hprobes : next.probes = usb.probes)
    (hqueue : next.queue = usb.queue) (hacts : ∀ act ∈ acts, act.IsWrite) :
    Beside usb next acts :=
  ⟨hattempted, htokens, fun probe hmem => ⟨probe, hprobes ▸ hmem, rfl, rfl⟩,
    fun _ hmem => Or.inl (hqueue ▸ hmem), hacts⟩

theorem Beside.append {last : UsbRuntime} {more : List UsbAct} (h : Beside usb next acts)
    (hmore : Beside next last more) : Beside usb last (acts ++ more) := by
  refine ⟨hmore.attempted.trans h.attempted, hmore.tokens.trans h.tokens, ?_, ?_, ?_⟩
  · intro probe hmem
    obtain ⟨mid, hmid, htoken, hkey⟩ := hmore.probes probe hmem
    obtain ⟨old, hold, holdToken, holdKey⟩ := h.probes mid hmid
    exact ⟨old, hold, holdToken.trans htoken, holdKey.trans hkey⟩
  · intro result hmem
    rcases hmore.queue result hmem with hmid | hnone
    · exact h.queue result hmid
    · exact Or.inr hnone
  · intro act hmem
    rcases List.mem_append.mp hmem with hmem | hmem
    · exact h.acts act hmem
    · exact hmore.acts act hmem

theorem isWrite_write (usb : UsbRuntime) (snapshot : RuntimeSnapshot) :
    ∀ act ∈ (usb.write snapshot).2, act.IsWrite := by
  intro act hmem
  rw [write, List.mem_singleton] at hmem
  exact ⟨_, _, hmem⟩

theorem mem_setPhase {token : ℕ} {phase : ProbePhase} {probe : Probe}
    (h : probe ∈ (usb.setPhase token phase).probes) :
    probe ∈ usb.probes ∨ probe.phase = phase ∧
      ∃ old ∈ usb.probes, old.token = probe.token ∧ old.key = probe.key := by
  obtain ⟨old, hold, rfl⟩ := List.mem_map.mp h
  split
  · exact Or.inr ⟨rfl, old, hold, rfl, rfl⟩
  · exact Or.inl hold

theorem mem_acknowledge {token : ℕ} {allowed : Bool} {probe : Probe}
    (h : probe ∈ (usb.acknowledge token allowed).probes) :
    probe ∈ usb.probes ∨ probe.token = token ∧ probe.phase = .answered allowed ∧
      ⟨probe.token, probe.key, .asking⟩ ∈ usb.probes := by
  obtain ⟨old, hold, rfl⟩ := List.mem_map.mp h
  split
  · rename_i hasks
    obtain ⟨oldToken, key, phase⟩ := old
    obtain ⟨rfl, rfl⟩ := hasks
    exact Or.inr ⟨rfl, rfl, hold⟩
  · exact Or.inl hold

theorem setPhase_beside (usb : UsbRuntime) (token : ℕ) (phase : ProbePhase) :
    Beside usb (usb.setPhase token phase) [] := by
  refine ⟨rfl, rfl, fun probe hmem => ?_, fun _ hmem => Or.inl hmem, by simp⟩
  rcases mem_setPhase hmem with hold | ⟨-, hold⟩
  · exact ⟨probe, hold, rfl, rfl⟩
  · exact hold

theorem acknowledge_beside (usb : UsbRuntime) (token : ℕ) (allowed : Bool) :
    Beside usb (usb.acknowledge token allowed) [] := by
  refine ⟨rfl, rfl, fun probe hmem => ?_, fun _ hmem => Or.inl hmem, by simp⟩
  rcases mem_acknowledge hmem with hold | ⟨-, -, hold⟩
  · exact ⟨probe, hold, rfl, rfl⟩
  · exact ⟨_, hold, rfl, rfl⟩

theorem trySend_beside (usb : UsbRuntime) {result : WorkResult}
    (h : result.asks? = none) : Beside usb (usb.trySend result) [] := by
  refine ⟨rfl, rfl, fun probe hmem => ⟨probe, hmem, rfl, rfl⟩, ?_, by simp⟩
  intro queued hmem
  unfold trySend at hmem
  dsimp only at hmem
  split at hmem
  · rcases List.mem_append.mp hmem with hmem | hmem
    · exact Or.inl hmem
    · rw [List.mem_singleton.mp hmem]
      exact Or.inr h
  · exact Or.inl hmem

theorem handleWorkResult_beside (now : ℕ) (usb : UsbRuntime) (result : WorkResult) :
    Beside usb (usb.handleWorkResult now result).1 (usb.handleWorkResult now result).2 := by
  cases result with
  | beforeStart key version token =>
    obtain ⟨hattempted, htokens, hprobes, hqueue, hacts⟩ := acknowledge_beside { usb with
      lifecycle := (usb.lifecycle.accessorySwitchRequested key.id now).1 } token
        (usb.lifecycle.accessorySwitchRequested key.id now).2
    exact ⟨hattempted, htokens, hprobes, hqueue, hacts⟩
  | aoap key result =>
    cases result with
    | ok version => exact beside_of_eq rfl rfl rfl rfl (by simp [handleWorkResult])
    | error error =>
      simp only [handleWorkResult]
      split
      · exact beside_of_eq rfl rfl rfl rfl (by simp)
      split
      · exact beside_of_eq rfl rfl rfl rfl (isWrite_write _ _)
      · exact beside_of_eq rfl rfl rfl rfl (by simp)
  | version key result =>
    cases result with
    | ok version => exact beside_of_eq rfl rfl rfl rfl (by simp [handleWorkResult])
    | error error =>
      simp only [handleWorkResult]
      split
      · exact beside_of_eq rfl rfl rfl rfl (isWrite_write _ _)
      · exact beside_of_eq rfl rfl rfl rfl (by simp)

theorem handleAll_beside (now : ℕ) (usb : UsbRuntime) (results : List WorkResult) :
    Beside usb (usb.handleAll now results).1 (usb.handleAll now results).2 := by
  induction results generalizing usb with
  | nil => exact beside_of_eq rfl rfl rfl rfl (by simp [handleAll])
  | cons result rest ih => exact (handleWorkResult_beside now usb result).append (ih _)

theorem drain_beside (now : ℕ) (usb : UsbRuntime) :
    Beside usb (usb.drain now).1 (usb.drain now).2 := by
  obtain ⟨hattempted, htokens, hprobes, hqueue, hacts⟩ := handleAll_beside now { usb with queue := [] } usb.queue
  refine ⟨hattempted, htokens, hprobes, fun result hmem => ?_, hacts⟩
  rcases hqueue result hmem with hold | hnone
  · exact nomatch hold
  · exact Or.inr hnone

theorem conclude_beside (usb : UsbRuntime) (key : UsbDeviceKey) (ending : Ending) :
    Beside usb (usb.conclude key ending).1 (usb.conclude key ending).2 := by
  cases ending with
  | unopened failure =>
    cases failure with
    | none => exact beside_of_eq rfl rfl rfl rfl (by simp [conclude])
    | some error => exact trySend_beside usb rfl
  | normal => exact beside_of_eq rfl rfl rfl rfl (isWrite_write _ _)
  | failed error =>
    exact (trySend_beside usb rfl).append (beside_of_eq rfl rfl rfl rfl (isWrite_write _ _))

theorem stopActive_beside (usb : UsbRuntime) (ending : Ending) :
    Beside usb (usb.stopActive ending).1 (usb.stopActive ending).2 := by
  unfold stopActive
  split
  · exact beside_of_eq rfl rfl rfl rfl (by simp)
  split
  · exact beside_of_eq rfl rfl rfl rfl (by simp)
  · rename_i session _ _
    obtain ⟨hattempted, htokens, hprobes, hqueue, hacts⟩ :=
      conclude_beside { usb with active := none } session.key ending
    exact ⟨hattempted, htokens, hprobes, hqueue, hacts⟩

theorem abortProbe_beside (usb : UsbRuntime) (id : String) : Beside usb (usb.abortProbe id) [] := by
  unfold abortProbe
  split
  · split
    · obtain ⟨hattempted, htokens, hprobes, hqueue, hacts⟩ := setPhase_beside usb _ .done
      exact ⟨hattempted, htokens, hprobes, hqueue, hacts⟩
    · exact beside_of_eq rfl rfl rfl rfl (by simp)
  · exact beside_of_eq rfl rfl rfl rfl (by simp)

theorem discard_beside (usb : UsbRuntime) (id : String) (ending : Ending) :
    Beside usb (usb.discard id ending).1 (usb.discard id ending).2 := by
  have hstop (base : UsbRuntime) :
      Beside base (base.stopSession id ending).1 (base.stopSession id ending).2 := by
    unfold stopSession
    split
    · exact stopActive_beside base ending
    · exact beside_of_eq rfl rfl rfl rfl (by simp)
  have hclear (base : UsbRuntime) : Beside base (base.write {}).1.release (base.write {}).2 :=
    beside_of_eq rfl rfl rfl rfl (isWrite_write _ _)
  exact ((abortProbe_beside usb id).append (hstop _)).append (hclear _)

/-- Unplugging forgets the id, and begins no attempt. -/
theorem detached_beside (usb : UsbRuntime) (id : String) (ending : Ending) :
    Beside { usb with attempted := usb.attempted.erase id } (usb.detached id ending).1
      (usb.detached id ending).2 := by
  unfold detached
  dsimp only
  split
  · obtain ⟨hattempted, htokens, hprobes, hqueue, hacts⟩ := discard_beside { usb with
      attempted := usb.attempted.erase id, lifecycle := (usb.lifecycle.removed id).1 } id ending
    exact ⟨hattempted, htokens, hprobes, hqueue, hacts⟩
  · exact beside_of_eq rfl rfl rfl rfl (by simp)

theorem switched_beside (usb : UsbRuntime) (now : ℕ) (ending : Ending) :
    Beside usb (usb.switched now ending).1 (usb.switched now ending).2 := by
  unfold switched
  split
  · split
    · exact beside_of_eq rfl rfl rfl rfl (by simp)
    · have hstop := stopActive_beside { usb with enabledChanged := false } ending
      have hdrain := drain_beside now
        { (stopActive { usb with enabledChanged := false } ending).1 with
          probes := [], probe := none }
      have hrest : Beside (stopActive { usb with enabledChanged := false } ending).1
          (disable { usb with enabledChanged := false } now ending).1
          (drain now { (stopActive { usb with enabledChanged := false } ending).1 with
            probes := [], probe := none }).2 := by
        refine ⟨hdrain.attempted, hdrain.tokens, fun probe hmem => ?_, hdrain.queue, hdrain.acts⟩
        obtain ⟨old, hold, -⟩ := hdrain.probes probe hmem
        exact nomatch hold
      obtain ⟨hattempted, htokens, hprobes, hqueue, hacts⟩ := hstop.append hrest
      exact ⟨hattempted, htokens, hprobes, hqueue, hacts⟩
  · exact beside_of_eq rfl rfl rfl rfl (by simp)

theorem cleanupTick_beside (usb : UsbRuntime) (now : ℕ) :
    Beside usb (usb.cleanupTick now).1 (usb.cleanupTick now).2 := by
  have hreap : Beside usb (usb.reap now).1 (usb.reap now).2 := by
    unfold reap
    split
    · obtain ⟨hattempted, htokens, hprobes, hqueue, hacts⟩ :=
        drain_beside now { usb with active := none }
      exact ⟨hattempted, htokens, hprobes, hqueue, hacts⟩
    · exact beside_of_eq rfl rfl rfl rfl (by simp)
  unfold cleanupTick
  dsimp only
  split
  · exact ⟨hreap.attempted, hreap.tokens, hreap.probes, hreap.queue, hreap.acts⟩
  · exact hreap

theorem received_beside (usb : UsbRuntime) (now : ℕ) :
    Beside usb (usb.received now).1 (usb.received now).2 := by
  unfold received
  split
  · exact beside_of_eq rfl rfl rfl rfl (by simp)
  rename_i result rest hqueue
  have hpop : Beside usb { usb with queue := rest } [] := by
    refine ⟨rfl, rfl, fun probe hmem => ⟨probe, hmem, rfl, rfl⟩, fun queued hmem => ?_, by simp⟩
    rw [hqueue]
    exact Or.inl (List.mem_cons_of_mem _ hmem)
  dsimp only
  split
  · exact hpop.append (handleWorkResult_beside now _ result)
  split
  · exact hpop.append (acknowledge_beside _ _ false)
  · exact hpop

theorem expired_beside (usb : UsbRuntime) (now : ℕ) :
    Beside usb (usb.expired now).1 (usb.expired now).2 := by
  unfold expired
  dsimp only
  split
  · split
    · exact beside_of_eq rfl rfl rfl rfl (isWrite_write _ _)
    · exact beside_of_eq rfl rfl rfl rfl (isWrite_write _ _)
  · exact beside_of_eq rfl rfl rfl rfl (by simp)

theorem shutdown_beside (usb : UsbRuntime) (ending : Ending) :
    Beside usb (usb.shutdown ending).1 (usb.shutdown ending).2 := by
  have hstop := stopActive_beside usb ending
  have hend {last : UsbRuntime} {more : List UsbAct}
      (hattempted : last.attempted = (usb.stopActive ending).1.attempted)
      (htokens : last.tokens = (usb.stopActive ending).1.tokens) (hprobes : last.probes = [])
      (hqueue : last.queue = []) (hacts : ∀ act ∈ more, act.IsWrite) :
      Beside (usb.stopActive ending).1 last more := by
    refine ⟨hattempted, htokens, ?_, ?_, hacts⟩
    · simp [hprobes]
    · simp [hqueue]
  unfold shutdown
  dsimp only
  split
  · exact hstop.append (hend rfl rfl rfl rfl (isWrite_write _ _))
  · exact hstop.append (hend rfl rfl rfl rfl (by simp))

/-! ## Tokens name one probe -/

/-- The tokens in use were given out, and each names one device. -/
structure Coherent (usb : UsbRuntime) : Prop where
  fresh : ∀ probe ∈ usb.probes, probe.token < usb.tokens
  same : ∀ probe ∈ usb.probes, ∀ other ∈ usb.probes, probe.token = other.token →
    probe.key = other.key
  queued : ∀ result ∈ usb.queue, ∀ key token, result.asks? = some (key, token) →
    token < usb.tokens ∧ ∀ probe ∈ usb.probes, probe.token = token → probe.key = key

theorem Coherent.beside (h : usb.Coherent) (hbeside : Beside usb next acts) : next.Coherent := by
  refine ⟨?_, ?_, ?_⟩
  · intro probe hmem
    obtain ⟨old, hold, htoken, -⟩ := hbeside.probes probe hmem
    rw [hbeside.tokens, ← htoken]
    exact h.fresh old hold
  · intro probe hmem other hother heq
    obtain ⟨old, hold, htoken, hkey⟩ := hbeside.probes probe hmem
    obtain ⟨last, hlast, hlastToken, hlastKey⟩ := hbeside.probes other hother
    rw [← hkey, ← hlastKey]
    exact h.same old hold last hlast (by rw [htoken, hlastToken, heq])
  · intro result hmem key token hasks
    rcases hbeside.queue result hmem with hold | hnone
    · obtain ⟨hlt, hprobe⟩ := h.queued result hold key token hasks
      refine ⟨hbeside.tokens ▸ hlt, fun probe hmem htoken => ?_⟩
      obtain ⟨old, hold, holdToken, hkey⟩ := hbeside.probes probe hmem
      rw [← hkey]
      exact hprobe old hold (holdToken.trans htoken)
    · exact nomatch hnone.symm.trans hasks

/-- A probe found by its token is one of the probes. -/
theorem find?_token {token : ℕ} {probe : Probe}
    (h : usb.probes.find? (·.token = token) = some probe) :
    probe ∈ usb.probes ∧ probe.token = token :=
  ⟨List.mem_of_find?_eq_some h, by simpa using List.find?_some h⟩

/-- Of the events outside the loop, only a probe asks for START, or sends it. -/
inductive Other (usb : UsbRuntime) : Event → UsbRuntime → List UsbAct → Prop
  | beside {event : Event} {next : UsbRuntime} {acts : List UsbAct} (h : Beside usb next acts) :
      Other usb event next acts
  | asks {token version : ℕ} {key : UsbDeviceKey} (hmem : ⟨token, key, .probing⟩ ∈ usb.probes) :
      Other usb (.probeAsks token version)
        ((usb.setPhase token .asking).trySend (.beforeStart key version token)) []
  | starts {token : ℕ} {key : UsbDeviceKey} (hmem : ⟨token, key, .answered true⟩ ∈ usb.probes) :
      Other usb (.probeStarts token) (usb.setPhase token .switching) [.requestedStart key token]

theorem stepOther_cases (usb : UsbRuntime) (event : Event) :
    Other usb event (usb.stepOther event).1 (usb.stepOther event).2 := by
  have hsame {next : UsbRuntime} (hattempted : next.attempted = usb.attempted)
      (htokens : next.tokens = usb.tokens) (hprobes : next.probes = usb.probes)
      (hqueue : next.queue = usb.queue) : Beside usb next [] :=
    beside_of_eq hattempted htokens hprobes hqueue (by simp)
  cases event with
  | setEnabled value => exact .beside (hsame rfl rfl rfl rfl)
  | probeJoined token =>
    refine .beside ⟨rfl, rfl, fun probe hmem => ?_, fun _ hmem => Or.inl hmem, by simp [stepOther]⟩
    exact ⟨probe, (List.mem_filter.mp hmem).1, rfl, rfl⟩
  | probeAsks token version =>
    simp only [stepOther]
    split
    · rename_i found key hfound
      obtain ⟨hmem, rfl⟩ := find?_token hfound
      split
      · exact .asks hmem
      · exact .beside (hsame rfl rfl rfl rfl)
    · exact .beside (hsame rfl rfl rfl rfl)
  | probeStarts token =>
    simp only [stepOther]
    split
    · rename_i found key hfound
      obtain ⟨hmem, rfl⟩ := find?_token hfound
      exact .starts hmem
    · exact .beside (hsame rfl rfl rfl rfl)
  | probeSettles token result =>
    simp only [stepOther]
    split
    · split
      · exact .beside (setPhase_beside usb token _)
      · exact .beside (hsame rfl rfl rfl rfl)
    · exact .beside (hsame rfl rfl rfl rfl)
  | probeReports token =>
    simp only [stepOther]
    split
    · split
      · exact .beside ((setPhase_beside usb token .done).append (trySend_beside _ rfl))
      · exact .beside (hsame rfl rfl rfl rfl)
    · exact .beside (hsame rfl rfl rfl rfl)
  | sessionVersion task major minor =>
    simp only [stepOther]
    split
    · exact .beside (trySend_beside usb rfl)
    · exact .beside (hsame rfl rfl rfl rfl)
  | sessionWrites task snapshot =>
    simp only [stepOther]
    split
    · exact .beside (beside_of_eq rfl rfl rfl rfl (isWrite_write _ _))
    · exact .beside (hsame rfl rfl rfl rfl)
  | sessionEnds task ending =>
    simp only [stepOther]
    split
    · rename_i key _
      have hfinish : Beside usb (usb.finish task) [] := by
        cases task with
        | active => exact hsame rfl rfl rfl rfl
        | stray index => exact hsame rfl rfl rfl rfl
      exact .beside (hfinish.append (conclude_beside _ key ending))
    · exact .beside (hsame rfl rfl rfl rfl)
  | wirelessConnects =>
    simp only [stepOther]
    split <;> exact .beside (hsame rfl rfl rfl rfl)
  | wirelessWrites snapshot =>
    simp only [stepOther]
    split <;> exact .beside (hsame rfl rfl rfl rfl)
  | wirelessFinishes =>
    simp only [stepOther]
    split <;> exact .beside (hsame rfl rfl rfl rfl)
  | _ => exact .beside (hsame rfl rfl rfl rfl)

theorem asks_coherent (h : usb.Coherent) {token version : ℕ} {key : UsbDeviceKey}
    (hmem : ⟨token, key, .probing⟩ ∈ usb.probes) :
    ((usb.setPhase token .asking).trySend (.beforeStart key version token)).Coherent := by
  obtain ⟨hfresh, hsame, hqueued⟩ := h.beside (setPhase_beside usb token .asking)
  refine ⟨hfresh, hsame, ?_⟩
  intro result hresult other otherToken hasks
  unfold trySend at hresult
  dsimp only at hresult
  split at hresult
  · rcases List.mem_append.mp hresult with hold | hnew
    · exact hqueued result hold other otherToken hasks
    · rw [List.mem_singleton.mp hnew] at hasks
      cases hasks
      refine ⟨h.fresh _ hmem, fun probe hprobe htoken => ?_⟩
      obtain ⟨old, hold, holdToken, hkey⟩ := (setPhase_beside usb token .asking).probes probe hprobe
      rw [← hkey]
      exact h.same old hold _ hmem (holdToken.trans htoken)
  · exact hqueued result hresult other otherToken hasks

/-! ## New attempts -/

/-- A session begins for an accessory that may be adopted, or a probe for a phone. -/
inductive Begins (usb : UsbRuntime) (info : DeviceInfo) (now : ℕ) :
    UsbRuntime → UsbAct → Prop
  | session {next : UsbRuntime} (hadopts : usb.lifecycle.Adopts info.key now)
      (htokens : next.tokens = usb.tokens) (hprobes : next.probes = usb.probes) :
      Begins usb info now next (.started info.key)
  | probe {next : UsbRuntime} (htokens : next.tokens = usb.tokens + 1)
      (hprobes : next.probes = usb.probes ++ [⟨usb.tokens, info.key, .probing⟩]) :
      Begins usb info now next (.probed info.key usb.tokens)

theorem Begins.attempt? {info : DeviceInfo} {now : ℕ} {act : UsbAct}
    (h : Begins usb info now next act) : act.attempt? = some info.id := by
  cases h with
  | session => rfl
  | probe => rfl

theorem connected_cases (usb : UsbRuntime) (info : DeviceInfo) (now epoch : ℕ) :
    Beside usb (usb.connected info now epoch).1 (usb.connected info now epoch).2 ∨
      info.id ∉ usb.attempted ∧
        (usb.connected info now epoch).1.attempted = insert info.id usb.attempted ∧
        (usb.connected info now epoch).1.queue = usb.queue ∧
        ∃ act writes, (usb.connected info now epoch).2 = act :: writes ∧
          (∀ write ∈ writes, write.IsWrite) ∧
          Begins usb info now (usb.connected info now epoch).1 act := by
  unfold connected
  split
  · exact Or.inl (beside_of_eq rfl rfl rfl rfl (by simp))
  rename_i hnew
  split
  · dsimp only
    split
    · rename_i hadopted
      refine Or.inr ⟨hnew, rfl, rfl, _, _, rfl, isWrite_write _ _, ?_⟩
      exact Begins.session (UsbConnectionState.adopts_of_discovered hadopted) rfl rfl
    · exact Or.inl (beside_of_eq rfl rfl rfl rfl (by simp))
  split
  · dsimp only
    split
    · exact Or.inr ⟨hnew, rfl, rfl, _, _, rfl, isWrite_write _ _, Begins.probe rfl rfl⟩
    · exact Or.inl (beside_of_eq rfl rfl rfl rfl (by simp))
  · exact Or.inl (beside_of_eq rfl rfl rfl rfl (by simp))

theorem begins_coherent (h : usb.Coherent) {info : DeviceInfo} {now : ℕ} {act : UsbAct}
    (hbegins : Begins usb info now next act) (hqueue : next.queue = usb.queue) :
    next.Coherent := by
  cases hbegins with
  | session hadopts htokens hprobes =>
    refine ⟨?_, ?_, ?_⟩
    · rw [hprobes, htokens]
      exact h.fresh
    · rw [hprobes]
      exact h.same
    · rw [hprobes, htokens, hqueue]
      exact h.queued
  | probe htokens hprobes =>
    have hcases : ∀ probe ∈ next.probes, probe ∈ usb.probes ∨
        probe = ⟨usb.tokens, info.key, .probing⟩ := by
      intro probe hmem
      rw [hprobes, List.mem_append, List.mem_singleton] at hmem
      exact hmem
    refine ⟨?_, ?_, ?_⟩
    · intro probe hmem
      rw [htokens]
      rcases hcases probe hmem with hold | rfl
      · exact Nat.lt_succ_of_lt (h.fresh probe hold)
      · exact Nat.lt_succ_self _
    · intro probe hmem other hother heq
      rcases hcases probe hmem with hold | rfl <;> rcases hcases other hother with hlast | rfl
      · exact h.same probe hold other hlast heq
      · exact absurd heq (Nat.ne_of_lt (h.fresh probe hold))
      · exact absurd heq.symm (Nat.ne_of_lt (h.fresh other hlast))
      · rfl
    · intro result hresult key token hasks
      rw [hqueue] at hresult
      obtain ⟨hlt, hprobe⟩ := h.queued result hresult key token hasks
      refine ⟨htokens ▸ Nat.lt_succ_of_lt hlt, fun probe hmem htoken => ?_⟩
      rcases hcases probe hmem with hold | rfl
      · exact hprobe probe hold htoken
      · exact absurd htoken.symm (Nat.ne_of_lt hlt)

/-- What a step does to the attempts. -/
inductive Attempted (usb : UsbRuntime) : Event → UsbRuntime → List UsbAct → Prop
  | beside {event : Event} {next : UsbRuntime} {acts : List UsbAct}
      (hacts : ∀ act ∈ acts, act.IsWrite) (hkept : next.attempted = usb.attempted) :
      Attempted usb event next acts
  | removed {id : String} {ending : Ending} {next : UsbRuntime} {acts : List UsbAct}
      (hacts : ∀ act ∈ acts, act.IsWrite) (hkept : next.attempted = usb.attempted.erase id) :
      Attempted usb (.detached id ending) next acts
  | begun {info : DeviceInfo} {now epoch : ℕ} {next : UsbRuntime} {act : UsbAct}
      {writes : List UsbAct} (hnew : info.id ∉ usb.attempted)
      (hinsert : next.attempted = insert info.id usb.attempted)
      (hbegins : Begins usb info now next act) (hwrites : ∀ write ∈ writes, write.IsWrite) :
      Attempted usb (.attached info now epoch) next (act :: writes)
  | starts {token : ℕ} {key : UsbDeviceKey} {next : UsbRuntime}
      (hmem : ⟨token, key, .answered true⟩ ∈ usb.probes)
      (hkept : next.attempted = usb.attempted) :
      Attempted usb (.probeStarts token) next [.requestedStart key token]

theorem Beside.toAttempted (h : Beside usb next acts) : Attempted usb event next acts :=
  .beside h.acts h.attempted

theorem stepOther_attempted (h : usb.Coherent) (event : Event) :
    Attempted usb event (usb.stepOther event).1 (usb.stepOther event).2 ∧
      (usb.stepOther event).1.Coherent := by
  have hcases := stepOther_cases usb event
  generalize (usb.stepOther event).1 = next at hcases ⊢
  generalize (usb.stepOther event).2 = acts at hcases ⊢
  cases hcases with
  | beside hbeside => exact ⟨hbeside.toAttempted, h.beside hbeside⟩
  | asks hmem => exact ⟨.beside (by simp) rfl, asks_coherent h hmem⟩
  | starts hmem => exact ⟨.starts hmem rfl, h.beside (setPhase_beside usb _ .switching)⟩

theorem attached_attempted (h : usb.Coherent) (info : DeviceInfo) (now epoch : ℕ) :
    Attempted usb (.attached info now epoch) (usb.attached info now epoch).1
      (usb.attached info now epoch).2 ∧ (usb.attached info now epoch).1.Coherent := by
  have hacquire : Beside usb (usb.acquire info) [] ∧
      (usb.acquire info).lifecycle = usb.lifecycle := by
    unfold acquire
    split <;> exact ⟨beside_of_eq rfl rfl rfl rfl (by simp), rfl⟩
  have hprobes : (usb.acquire info).probes = usb.probes := by
    unfold acquire
    split <;> rfl
  have hcoherent := h.beside hacquire.1
  unfold attached
  dsimp only
  split
  · rcases connected_cases (usb.acquire info) info now epoch with
      hbeside | ⟨hnew, hinsert, hqueue, act, writes, hacts, hwrites, hbegins⟩
    · exact ⟨(hacquire.1.append hbeside).toAttempted, hcoherent.beside hbeside⟩
    · refine ⟨?_, begins_coherent hcoherent hbegins hqueue⟩
      rw [hacquire.1.attempted] at hnew hinsert
      rw [hacts]
      refine .begun hnew hinsert ?_ hwrites
      cases hbegins with
      | session hadopts htokens hkept =>
        rw [hacquire.2] at hadopts
        exact .session hadopts (htokens.trans hacquire.1.tokens) (hkept.trans hprobes)
      | probe htokens hkept =>
        rw [hacquire.1.tokens] at htokens hkept ⊢
        rw [hprobes] at hkept
        exact .probe htokens hkept
  · exact ⟨hacquire.1.toAttempted, hcoherent⟩

theorem step_attempted (h : usb.Coherent) (event : Event) :
    Attempted usb event (usb.step event).1 (usb.step event).2 ∧ (usb.step event).1.Coherent := by
  have hbeside {last : UsbRuntime} {more : List UsbAct} (hlast : Beside usb last more) :
      Attempted usb event last more ∧ last.Coherent := ⟨hlast.toAttempted, h.beside hlast⟩
  unfold step
  split
  · cases event with
    | attached info now epoch => exact attached_attempted h info now epoch
    | detached id ending =>
      have hdetached := detached_beside usb id ending
      refine ⟨.removed hdetached.acts hdetached.attempted, Coherent.beside ?_ hdetached⟩
      exact ⟨h.fresh, h.same, h.queued⟩
    | switched now ending => exact hbeside (switched_beside usb now ending)
    | cleanupTick now => exact hbeside (cleanupTick_beside usb now)
    | received now => exact hbeside (received_beside usb now)
    | expired now => exact hbeside (expired_beside usb now)
    | shutdown ending => exact hbeside (shutdown_beside usb ending)
    | _ => exact stepOther_attempted h _
  · exact stepOther_attempted h event

/-! ## Permission to send START -/

/-- The step lets the probe send START: it asked, and from probing its phone the
lifecycle goes to waiting for the phone's accessory. -/
def Grants (usb next : UsbRuntime) (key : UsbDeviceKey) (token : ℕ) : Prop :=
  ⟨token, key, .asking⟩ ∈ usb.probes ∧ ∃ original deadline,
    original.id = key.id ∧ usb.lifecycle = .probing original ∧
      next.lifecycle = .waitingForAccessory original deadline false

/-- Every allowed probe was allowed before, or is allowed by this step. -/
def Answered (usb next : UsbRuntime) : Prop :=
  ∀ probe ∈ next.probes, probe.phase = .answered true →
    probe ∈ usb.probes ∨ Grants usb next probe.key probe.token

theorem answered_of_eq (h : next.probes = usb.probes) : Answered usb next :=
  fun _ hmem _ => Or.inl (h ▸ hmem)

theorem setPhase_answered {token : ℕ} {phase : ProbePhase} (hphase : phase ≠ .answered true) :
    ∀ probe ∈ (usb.setPhase token phase).probes, probe.phase = .answered true →
      probe ∈ usb.probes := by
  intro probe hmem hanswered
  rcases mem_setPhase hmem with hold | ⟨hnew, -⟩
  · exact hold
  · exact absurd (hnew.symm.trans hanswered) hphase

/-- Results keep the phase of every probe but the one they answer. -/
theorem handleWorkResult_answered {now : ℕ} {result : WorkResult}
    (hqueued : ∀ key token, result.asks? = some (key, token) →
      ∀ probe ∈ usb.probes, probe.token = token → probe.key = key) :
    Answered usb (usb.handleWorkResult now result).1 ∧
      ∀ probe ∈ (usb.handleWorkResult now result).1.probes, probe.phase = .asking →
        probe ∈ usb.probes := by
  have hsame {next : UsbRuntime} (hprobes : next.probes = usb.probes) :
      Answered usb next ∧ ∀ probe ∈ next.probes, probe.phase = .asking → probe ∈ usb.probes :=
    ⟨answered_of_eq hprobes, fun _ hmem _ => hprobes ▸ hmem⟩
  cases result with
  | beforeStart key version token =>
    simp only [handleWorkResult]
    constructor
    · intro probe hmem hanswered
      rcases mem_acknowledge hmem with hold | ⟨rfl, hphase, hasking⟩
      · exact Or.inl hold
      refine Or.inr ⟨hasking, ?_⟩
      rw [hanswered] at hphase
      have hkey : probe.key = key :=
        hqueued key probe.token rfl ⟨probe.token, probe.key, .asking⟩ hasking rfl
      rcases UsbConnectionState.accessorySwitchRequested_cases usb.lifecycle key.id now with
        ⟨original, hprobing, hid, heq⟩ | heq
      · refine ⟨original, now + accessoryWait, hid.trans (by rw [hkey]), hprobing, ?_⟩
        exact congrArg Prod.fst heq
      · rw [heq] at hphase
        cases hphase
    · intro probe hmem hasking
      rcases mem_acknowledge hmem with hold | ⟨-, hphase, -⟩
      · exact hold
      · cases hphase.symm.trans hasking
  | aoap key result =>
    cases result with
    | ok version => exact hsame rfl
    | error error =>
      simp only [handleWorkResult]
      split
      · exact hsame rfl
      split
      · exact hsame rfl
      · exact hsame rfl
  | version key result =>
    cases result with
    | ok version => exact hsame rfl
    | error error =>
      simp only [handleWorkResult]
      split
      · exact hsame rfl
      · exact hsame rfl

/-- A wait outlasts the results that follow. -/
theorem foldl_after_waiting (now : ℕ) (original : UsbDeviceKey) (deadline : ℕ) (gone : Bool)
    (results : List WorkResult) :
    results.foldl (UsbConnectionState.after now) (.waitingForAccessory original deadline gone) =
      .waitingForAccessory original deadline gone := by
  induction results with
  | nil => rfl
  | cons result rest ih => rw [List.foldl_cons, UsbConnectionState.after_waiting, ih]

theorem handleAll_answered (h : usb.Coherent) {now : ℕ} {results : List WorkResult}
    (hqueued : ∀ result ∈ results, ∀ key token, result.asks? = some (key, token) →
      ∀ probe ∈ usb.probes, probe.token = token → probe.key = key) :
    Answered usb (usb.handleAll now results).1 := by
  induction results generalizing usb with
  | nil => exact answered_of_eq rfl
  | cons result rest ih =>
    have hbeside := handleWorkResult_beside now usb result
    obtain ⟨hfirst, hasking⟩ : Answered usb (usb.handleWorkResult now result).1 ∧ _ :=
      handleWorkResult_answered (hqueued result (List.mem_cons_self ..))
    have hrest := ih (h.beside hbeside) fun later hlater key token hasks probe hmem htoken => by
      obtain ⟨old, hold, holdToken, hkey⟩ := hbeside.probes probe hmem
      rw [← hkey]
      exact hqueued later (List.mem_cons_of_mem _ hlater) key token hasks old hold
        (holdToken.trans htoken)
    intro probe hmem hanswered
    rcases hrest probe hmem hanswered with hmid | ⟨hasks, original, deadline, hid, hprobing, hlast⟩
    · rcases hfirst probe hmid hanswered with hold | ⟨hasks, original, deadline, hid, hprobing, hmidway⟩
      · exact Or.inl hold
      · refine Or.inr ⟨hasks, original, deadline, hid, hprobing, ?_⟩
        have hafter := (handleAll_spec now (usb.handleWorkResult now result).1 rest).2
        rw [hmidway, foldl_after_waiting] at hafter
        exact hafter
    · refine Or.inr ⟨hasking _ hasks rfl, original, deadline, hid, ?_, hlast⟩
      rw [handleWorkResult_lifecycle] at hprobing
      exact UsbConnectionState.after_eq_probing hprobing

theorem drain_answered (h : usb.Coherent) (now : ℕ) : Answered usb (usb.drain now).1 := by
  have hcoherent : Coherent { usb with queue := [] } := ⟨h.fresh, h.same, by simp⟩
  exact handleAll_answered hcoherent fun result hmem key token hasks =>
    (h.queued result hmem key token hasks).2

theorem stopActive_probes (usb : UsbRuntime) (ending : Ending) :
    (usb.stopActive ending).1.probes = usb.probes := by
  unfold stopActive
  split
  · rfl
  split
  · rfl
  · cases ending with
    | unopened failure => cases failure <;> rfl
    | normal => rfl
    | failed error => rfl

theorem detached_answered (usb : UsbRuntime) (id : String) (ending : Ending) :
    Answered usb (usb.detached id ending).1 := by
  have hstop (base : UsbRuntime) : (base.stopSession id ending).1.probes = base.probes := by
    unfold stopSession
    split
    · exact stopActive_probes base ending
    · rfl
  have habort (base : UsbRuntime) : ∀ probe ∈ (base.abortProbe id).probes,
      probe.phase = .answered true → probe ∈ base.probes := by
    intro probe hmem hanswered
    unfold abortProbe at hmem
    split at hmem
    · split at hmem
      · have hdone : ProbePhase.done ≠ .answered true := nofun
        exact setPhase_answered hdone probe hmem hanswered
      · exact hmem
    · exact hmem
  intro probe hmem hanswered
  left
  unfold detached at hmem
  dsimp only at hmem
  split at hmem
  · refine habort { usb with
      attempted := usb.attempted.erase id, lifecycle := (usb.lifecycle.removed id).1 }
      probe ?_ hanswered
    rw [← hstop]
    exact hmem
  · exact hmem

theorem switched_answered (usb : UsbRuntime) (now : ℕ) (ending : Ending) :
    Answered usb (usb.switched now ending).1 := by
  unfold switched
  split
  · split
    · exact answered_of_eq rfl
    · intro probe hmem
      have hdrain := drain_beside now
        { (stopActive { usb with enabledChanged := false } ending).1 with
          probes := [], probe := none }
      obtain ⟨old, hold, -⟩ := hdrain.probes probe hmem
      exact nomatch hold
  · exact answered_of_eq rfl

theorem cleanupTick_answered (h : usb.Coherent) (now : ℕ) :
    Answered usb (usb.cleanupTick now).1 := by
  have hreap : Answered usb (usb.reap now).1 := by
    unfold reap
    split
    · have hcoherent : Coherent { usb with active := none } := ⟨h.fresh, h.same, h.queued⟩
      exact drain_answered hcoherent now
    · exact answered_of_eq rfl
  unfold cleanupTick
  dsimp only
  split
  · exact hreap
  · exact hreap

theorem received_answered (h : usb.Coherent) (now : ℕ) : Answered usb (usb.received now).1 := by
  unfold received
  split
  · exact answered_of_eq rfl
  rename_i result rest hqueue
  dsimp only
  split
  · have hqueued := h.queued result (hqueue ▸ List.mem_cons_self ..)
    have hbase := @handleWorkResult_answered { usb with queue := rest } now result
    exact (hbase fun key token hasks => (hqueued key token hasks).2).1
  split
  · intro probe hmem hanswered
    rcases mem_acknowledge hmem with hold | ⟨-, hphase, -⟩
    · exact Or.inl hold
    · exact nomatch hphase.symm.trans hanswered
  · exact answered_of_eq rfl

theorem attached_answered (usb : UsbRuntime) (info : DeviceInfo) (now epoch : ℕ) :
    Answered usb (usb.attached info now epoch).1 := by
  have hprobes : (usb.acquire info).probes = usb.probes := by
    unfold acquire
    split <;> rfl
  intro probe hmem hanswered
  left
  rw [← hprobes]
  unfold attached at hmem
  dsimp only at hmem
  split at hmem
  · unfold connected at hmem
    split at hmem
    · exact hmem
    split at hmem
    · dsimp only at hmem
      split at hmem <;> exact hmem
    split at hmem
    · dsimp only at hmem
      split at hmem
      · rcases List.mem_append.mp hmem with hold | hnew
        · exact hold
        · rw [List.mem_singleton.mp hnew] at hanswered
          exact nomatch hanswered
      · exact hmem
    · exact hmem
  · exact hmem

theorem stepOther_answered (usb : UsbRuntime) (event : Event) :
    Answered usb (usb.stepOther event).1 := by
  have hphase (token : ℕ) (phase : ProbePhase) {next : UsbRuntime} (hne : phase ≠ .answered true)
      (hprobes : next.probes = (usb.setPhase token phase).probes) : Answered usb next :=
    fun probe hmem hanswered => Or.inl (setPhase_answered hne probe (hprobes ▸ hmem) hanswered)
  cases event with
  | probeJoined token =>
    exact fun probe hmem _ => Or.inl (List.mem_filter.mp hmem).1
  | probeAsks token version =>
    simp only [stepOther]
    split
    · split
      · exact hphase token .asking (by simp) rfl
      · exact answered_of_eq rfl
    · exact answered_of_eq rfl
  | probeStarts token =>
    simp only [stepOther]
    split
    · exact hphase token .switching (by simp) rfl
    · exact answered_of_eq rfl
  | probeSettles token result =>
    simp only [stepOther]
    split
    · split
      · exact hphase token (.reporting result) (by simp) rfl
      · exact answered_of_eq rfl
    · exact answered_of_eq rfl
  | probeReports token =>
    simp only [stepOther]
    split
    · split
      · exact hphase token .done (by simp) rfl
      · exact answered_of_eq rfl
    · exact answered_of_eq rfl
  | sessionVersion task major minor =>
    simp only [stepOther]
    split <;> exact answered_of_eq rfl
  | sessionWrites task snapshot =>
    simp only [stepOther]
    split <;> exact answered_of_eq rfl
  | sessionEnds task ending =>
    simp only [stepOther]
    split
    · rename_i key _
      have hfinish : (usb.finish task).probes = usb.probes := by cases task <;> rfl
      refine answered_of_eq (Eq.trans ?_ hfinish)
      cases ending with
      | unopened failure => cases failure <;> rfl
      | normal => rfl
      | failed error => rfl
    · exact answered_of_eq rfl
  | wirelessConnects =>
    simp only [stepOther]
    split <;> exact answered_of_eq rfl
  | wirelessWrites snapshot =>
    simp only [stepOther]
    split <;> exact answered_of_eq rfl
  | wirelessFinishes =>
    simp only [stepOther]
    split <;> exact answered_of_eq rfl
  | _ => exact answered_of_eq rfl

theorem step_answered (h : usb.Coherent) (event : Event) : Answered usb (usb.step event).1 := by
  unfold step
  split
  · cases event with
    | attached info now epoch => exact attached_answered usb info now epoch
    | detached id ending => exact detached_answered usb id ending
    | switched now ending => exact switched_answered usb now ending
    | cleanupTick now => exact cleanupTick_answered h now
    | received now => exact received_answered h now
    | expired now =>
      simp only [expired]
      split
      · split <;> exact answered_of_eq rfl
      · exact answered_of_eq rfl
    | shutdown ending =>
      simp only [shutdown]
      split <;> exact fun probe hmem => nomatch hmem
    | _ => exact stepOther_answered usb _
  · exact stepOther_answered usb event

/-- Only an allowed probe sends START. -/
theorem mem_requestedStart (h : usb.Coherent) {key : UsbDeviceKey} {token : ℕ}
    (hmem : .requestedStart key token ∈ (usb.step event).2) :
    ⟨token, key, .answered true⟩ ∈ usb.probes := by
  have hattempted := (step_attempted h event).1
  have hwrite {acts : List UsbAct} (hacts : ∀ act ∈ acts, act.IsWrite) :
      .requestedStart key token ∉ acts := by
    intro hact
    obtain ⟨holder, snapshot, heq⟩ := hacts _ hact
    exact nomatch heq
  generalize (usb.step event).1 = next at hattempted
  generalize (usb.step event).2 = acts at hattempted hmem
  cases hattempted with
  | beside hacts hkept => exact absurd hmem (hwrite hacts)
  | removed hacts hkept => exact absurd hmem (hwrite hacts)
  | begun hnew hinsert hbegins hwrites =>
    rcases List.mem_cons.mp hmem with rfl | hmem
    · exact nomatch hbegins.attempt?
    · exact absurd hmem (hwrite hwrites)
  | starts hallowed hkept =>
    cases List.mem_singleton.mp hmem
    exact hallowed

/-! ## Whole runs -/

/-- The ids a step attempts. -/
def attempts (usb : UsbRuntime) (event : Event) : List String :=
  (usb.step event).2.filterMap UsbAct.attempt?

/-- The id was attempted, and has not been unplugged since. -/
def Tried (start : UsbRuntime) (events : List Event) (id : String) : Prop :=
  ∃ earlier first later, events = earlier ++ first :: later ∧
    id ∈ (run step start earlier).1.attempts first ∧ ∀ ending, .detached id ending ∉ later

/-- Some step let the probe send START. -/
def Allowed (start : UsbRuntime) (events : List Event) (key : UsbDeviceKey) (token : ℕ) : Prop :=
  ∃ earlier granting later, events = earlier ++ granting :: later ∧
    Grants (run step start earlier).1 ((run step start earlier).1.step granting).1 key token

theorem Tried.of_concat {start : UsbRuntime} {events : List Event} {id : String}
    (h : Tried start (events ++ [event]) id) :
    Tried start events id ∧ (∀ ending, event ≠ .detached id ending) ∨
      id ∈ (run step start events).1.attempts event := by
  obtain ⟨earlier, first, later, hsplit, hattempt, hlater⟩ := h
  rcases List.eq_nil_or_concat later with rfl | ⟨rest, last, rfl⟩
  · obtain ⟨rfl, hlast⟩ := List.append_inj' hsplit rfl
    cases hlast
    exact Or.inr hattempt
  · rw [List.concat_eq_append, ← List.cons_append, ← List.append_assoc] at hsplit
    obtain ⟨hevents, hlast⟩ := List.append_inj' hsplit rfl
    cases hlast
    rw [List.concat_eq_append] at hlater
    refine Or.inl ⟨⟨earlier, first, rest, hevents, hattempt, ?_⟩, ?_⟩
    · exact fun ending hmem => hlater ending (List.mem_append_left _ hmem)
    · rintro ending rfl
      exact hlater ending (by simp)

theorem Allowed.concat {start : UsbRuntime} {events : List Event} {key : UsbDeviceKey} {token : ℕ}
    (h : Allowed start events key token) : Allowed start (events ++ [event]) key token := by
  obtain ⟨earlier, granting, later, rfl, hgrants⟩ := h
  exact ⟨earlier, granting, later ++ [event], by simp, hgrants⟩

/-- What the loop remembers of the run that led to its state. -/
structure Disciplined (start : UsbRuntime) (events : List Event) (usb : UsbRuntime) : Prop where
  coherent : usb.Coherent
  tried : ∀ id, Tried start events id → id ∈ usb.attempted
  allowed : ∀ probe ∈ usb.probes, probe.phase = .answered true →
    Allowed start events probe.key probe.token

theorem filterMap_attempt? {writes : List UsbAct} (h : ∀ write ∈ writes, write.IsWrite) :
    writes.filterMap UsbAct.attempt? = [] := by
  rw [List.filterMap_eq_nil_iff]
  exact fun write hmem => (h write hmem).attempt?

/-- The ids a step attempts are remembered, and only unplugging forgets one. -/
theorem attempts_spec (h : usb.Coherent) (event : Event) :
    (usb.attempts event = [] ∨ ∃ info now epoch, event = .attached info now epoch ∧
        info.id ∉ usb.attempted ∧ usb.attempts event = [info.id]) ∧
      (∀ id ∈ usb.attempts event, id ∈ (usb.step event).1.attempted) ∧
      ∀ id ∈ usb.attempted, (∀ ending, event ≠ .detached id ending) →
        id ∈ (usb.step event).1.attempted := by
  have hattempted := (step_attempted h event).1
  unfold attempts
  generalize (usb.step event).1 = next at hattempted ⊢
  generalize (usb.step event).2 = acts at hattempted ⊢
  cases hattempted with
  | beside hacts hkept =>
    rw [filterMap_attempt? hacts, hkept]
    exact ⟨Or.inl rfl, by simp, fun id hid _ => hid⟩
  | @removed removed ending _ _ hacts hkept =>
    rw [filterMap_attempt? hacts, hkept]
    refine ⟨Or.inl rfl, by simp, fun id hid hne => Finset.mem_erase.mpr ⟨?_, hid⟩⟩
    rintro rfl
    exact hne ending rfl
  | @begun info now epoch _ act writes hnew hinsert hbegins hwrites =>
    have hids : (act :: writes).filterMap UsbAct.attempt? = [info.id] := by
      rw [List.filterMap_cons_some hbegins.attempt?, filterMap_attempt? hwrites]
    rw [hids, hinsert]
    refine ⟨Or.inr ⟨info, now, epoch, rfl, hnew, rfl⟩, by simp, fun id hid _ => ?_⟩
    exact Finset.mem_insert_of_mem hid
  | starts hallowed hkept =>
    rw [hkept]
    exact ⟨Or.inl rfl, by simp [UsbAct.attempt?], fun id hid _ => hid⟩

theorem run_disciplined (enabled : Bool) (events : List Event) :
    Disciplined { enabled := enabled } events (run step { enabled := enabled } events).1 := by
  induction events using List.reverseRecOn with
  | nil =>
    refine ⟨⟨by simp, by simp, by simp⟩, ?_, by simp⟩
    rintro id ⟨earlier, first, later, hsplit, -⟩
    simp at hsplit
  | append_singleton events event ih =>
    obtain ⟨-, hnew, hkept⟩ := attempts_spec ih.coherent event
    rw [run_concat]
    refine ⟨(step_attempted ih.coherent event).2, ?_, ?_⟩
    · intro id htried
      rcases htried.of_concat with ⟨hold, hplugged⟩ | hlast
      · exact hkept id (ih.tried id hold) hplugged
      · exact hnew id hlast
    · intro probe hmem hanswered
      rcases step_answered ih.coherent event probe hmem hanswered with hold | hgrants
      · exact (ih.allowed probe hold hanswered).concat
      · exact ⟨events, event, [], rfl, hgrants⟩

/-- A session starts only for an accessory that may be adopted. -/
theorem adopts_of_started (h : usb.Coherent) {key : UsbDeviceKey}
    (hmem : .started key ∈ (usb.step event).2) :
    ∃ info now epoch, event = .attached info now epoch ∧ info.key = key ∧
      usb.lifecycle.Adopts key now := by
  have hattempted := (step_attempted h event).1
  have hwrite {acts : List UsbAct} (hacts : ∀ act ∈ acts, act.IsWrite) : .started key ∉ acts := by
    intro hact
    obtain ⟨holder, snapshot, heq⟩ := hacts _ hact
    exact nomatch heq
  generalize (usb.step event).1 = next at hattempted
  generalize (usb.step event).2 = acts at hattempted hmem
  cases hattempted with
  | beside hacts hkept => exact absurd hmem (hwrite hacts)
  | removed hacts hkept => exact absurd hmem (hwrite hacts)
  | @begun info now epoch _ act writes hnew hinsert hbegins hwrites =>
    rcases List.mem_cons.mp hmem with rfl | hmem
    · cases hbegins with
      | session hadopts => exact ⟨info, now, epoch, rfl, rfl, hadopts⟩
    · exact absurd hmem (hwrite hwrites)
  | starts hallowed hkept => simp at hmem

/-- A result about any other device is ignored. -/
theorem handleWorkResult_other {now : ℕ} {result : WorkResult}
    (h : ∀ device, usb.lifecycle.device? = some device → device.id ≠ result.key.id) :
    (usb.handleWorkResult now result).1.lifecycle = usb.lifecycle ∧
      (usb.handleWorkResult now result).2 = [] := by
  rcases UsbConnectionState.after_cases now usb.lifecycle result with
    ⟨device, hdevice, hid, -⟩ | ⟨hsame, hfails⟩
  · exact absurd hid (h device hdevice)
  · exact ⟨(handleWorkResult_lifecycle now usb result).trans hsame, handleWorkResult_silent hfails⟩

/-- Whatever has happened, the next step attempts an id only if it was unplugged since
its last attempt, sends START only for a probe the lifecycle has begun to wait for,
adopts only an accessory it may adopt, and heeds no result about another device. -/
theorem attempt_discipline (enabled : Bool) (events : List Event) (event : Event) :
    let usb := (run step { enabled := enabled } events).1
    (usb.attempts event).length ≤ 1 ∧
      (∀ id ∈ usb.attempts event, ¬Tried { enabled := enabled } events id) ∧
      (∀ key token, .requestedStart key token ∈ (usb.step event).2 →
        Allowed { enabled := enabled } events key token) ∧
      (∀ key, .started key ∈ (usb.step event).2 →
        ∃ info now epoch, event = .attached info now epoch ∧ info.key = key ∧
          usb.lifecycle.Adopts key now) ∧
      ∀ now result,
        (∀ device, usb.lifecycle.device? = some device → device.id ≠ result.key.id) →
          (usb.handleWorkResult now result).1.lifecycle = usb.lifecycle ∧
            (usb.handleWorkResult now result).2 = [] := by
  intro usb
  have hrun : Disciplined { enabled := enabled } events usb := run_disciplined enabled events
  obtain ⟨hcases, -⟩ := attempts_spec hrun.coherent event
  refine ⟨?_, ?_, ?_, fun key => adopts_of_started hrun.coherent,
    fun now result => handleWorkResult_other⟩
  · rcases hcases with hnone | ⟨info, now, epoch, rfl, hnew, hone⟩
    · simp [hnone]
    · simp [hone]
  · intro id hid htried
    rcases hcases with hnone | ⟨info, now, epoch, rfl, hnew, hone⟩
    · simp [hnone] at hid
    · rw [hone, List.mem_singleton] at hid
      exact hnew (hid ▸ hrun.tried id htried)
  · intro key token hmem
    exact hrun.allowed _ (mem_requestedStart hrun.coherent hmem) rfl

/-- An accessory without a serial of its own. -/
def stranger : DeviceInfo := { accessory with id := "1-4", serialNumber := none }

/-- The probe of `phone` is allowed, and a stranger is adopted before it sends START. -/
def overtaken : List Event :=
  [.attached phone 0 0, .probeAsks 0 2, .received 0, .attached stranger 1 1]

/-- An accessory is adopted with no deadline and no serial to correlate, and START is sent
to a phone whose accessory is no longer waited for. -/
theorem overtaken_starts :
    (step { enabled := true } (.attached accessory 0 0)).2.head? = some (.started accessory.key) ∧
      UsbConnectionState.device? (UsbRuntime.lifecycle { enabled := true }) = none ∧
      (let usb := (run step { enabled := true } overtaken).1
      usb.lifecycle.isWaiting = false ∧
        (usb.step (.probeStarts 0)).2 = [.requestedStart phone.key 0]) := by
  decide

end UsbRuntime

end ProjectArgo.Projection
