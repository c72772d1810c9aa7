import ProjectArgo.Library.Run
import ProjectArgo.Projection.UsbRuntime

/-!
# Writing under the lease

The loop of the USB runtime may give the lease up while an attempt of its own is
still on: it then waits for an accessory, or a session task runs on. What is left
over writes into the snapshot of whoever holds the lease by then. Where no step
leaves anything behind, every write happens under the lease.
-/
namespace ProjectArgo.Projection

open Library.Run

/-! ## The lifecycle after queued results -/

/-- The lifecycle after a result of a worker. -/
def UsbConnectionState.after (now : ℕ) (state : UsbConnectionState) :
    WorkResult → UsbConnectionState
  | .beforeStart key _ _ => (state.accessorySwitchRequested key.id now).1
  | .aoap key (.error error) =>
    if state.isWaiting ∧ state.device?.any (·.id = key.id) then state
    else (state.probeFailed key.id error).1
  | .aoap _ (.ok _) => state
  | .version key (.ok (major, minor)) => (state.versionNegotiated key.id major minor).1
  | .version key (.error error) => (state.sessionFailed key.id error).1

/-- The result is an error that fails the attempt it belongs to. -/
def UsbConnectionState.Fails (state : UsbConnectionState) : WorkResult → Prop
  | .aoap key (.error error) =>
    ¬(state.isWaiting = true ∧ state.device?.any (·.id = key.id) = true) ∧
      (state.probeFailed key.id error).2 = true
  | .version key (.error error) => (state.sessionFailed key.id error).2 = true
  | _ => False

instance (state : UsbConnectionState) (result : WorkResult) : Decidable (state.Fails result) :=
  match result with
  | .aoap _ (.error _) => inferInstanceAs (Decidable (_ ∧ _))
  | .version _ (.error _) => inferInstanceAs (Decidable (_ = _))
  | .beforeStart _ _ _ => isFalse id
  | .aoap _ (.ok _) => isFalse id
  | .version _ (.ok _) => isFalse id

/-- One of the results, taken in their order, fails an attempt. -/
def UsbConnectionState.FailsBy (now : ℕ) : UsbConnectionState → List WorkResult → Prop
  | _, [] => False
  | state, result :: rest => state.Fails result ∨ FailsBy now (state.after now result) rest

instance UsbConnectionState.decidableFailsBy (now : ℕ) :
    (state : UsbConnectionState) → (results : List WorkResult) →
      Decidable (state.FailsBy now results)
  | _, [] => isFalse id
  | state, result :: rest =>
    have := decidableFailsBy now (state.after now result) rest
    inferInstanceAs (Decidable (_ ∨ _))

namespace UsbRuntime

variable {usb next : UsbRuntime} {acts : List UsbAct} {event : Event}

/-- An accessory is waited for once the queued results are handled. -/
def WaitsAfterQueue (usb : UsbRuntime) (now : ℕ) : Prop :=
  (usb.queue.foldl (UsbConnectionState.after now) usb.lifecycle).isWaiting = true

/-- A session task runs that the loop has a handle for. -/
def Serves (usb : UsbRuntime) : Prop := (usb.live .active).isSome = true

instance (usb : UsbRuntime) (now : ℕ) : Decidable (usb.WaitsAfterQueue now) :=
  inferInstanceAs (Decidable (_ = _))

instance (usb : UsbRuntime) : Decidable usb.Serves := inferInstanceAs (Decidable (_ = _))

/-- The queued results leave no accessory wait behind; under the lease no session task
is left either, and without it no result fails an attempt. -/
def OrderlyDrain (usb : UsbRuntime) (now : ℕ) : Prop :=
  ¬usb.WaitsAfterQueue now ∧
    if usb.Owns then usb.strays = [] else ¬usb.lifecycle.FailsBy now usb.queue

instance (usb : UsbRuntime) (now : ℕ) : Decidable (usb.OrderlyDrain now) :=
  inferInstanceAs (Decidable (_ ∧ _))

/-- Where the step gives the lease up, it leaves neither an accessory wait nor a session
task behind, and it publishes no queued failure without the lease. -/
def Orderly (usb : UsbRuntime) : Event → Prop
  | .detached id _ =>
    usb.Owns → usb.lifecycle.isWaiting = false → usb.lifecycle.device?.any (·.id = id) = true →
      usb.strays = [] ∧ (usb.Serves → usb.active.any (·.key.id = id) = true)
  | .switched now _ => usb.enabledChanged = true → usb.enabled = false → usb.OrderlyDrain now
  | .cleanupTick now =>
    if usb.active.any (·.finished) = true then usb.OrderlyDrain now
    else usb.Owns → usb.Idle → usb.strays = []
  | .shutdown _ => usb.Owns → usb.strays = []
  | _ => True

instance decidableOrderly (usb : UsbRuntime) (event : Event) : Decidable (usb.Orderly event) := by
  cases event <;> unfold Orderly <;> infer_instance

/-- Every step of a run is orderly. -/
def OrderlyRun : UsbRuntime → List Event → Prop
  | _, [] => True
  | usb, event :: rest => usb.Orderly event ∧ OrderlyRun (usb.step event).1 rest

instance decidableOrderlyRun : (usb : UsbRuntime) → (events : List Event) →
    Decidable (usb.OrderlyRun events)
  | _, [] => isTrue trivial
  | usb, event :: rest =>
    have := decidableOrderlyRun (usb.step event).1 rest
    inferInstanceAs (Decidable (_ ∧ _))

/-! ## What is written where -/

/-- The lease is kept, and every write is recorded with its holder. -/
structure Kept (usb next : UsbRuntime) (acts : List UsbAct) : Prop where
  lease : next.lease = usb.lease
  holder : ∀ holder snapshot, .wrote holder snapshot ∈ acts → holder = usb.lease
  recorded : next.snapshot ≠ usb.snapshot → ∃ holder snapshot, .wrote holder snapshot ∈ acts

theorem Kept.nil (hlease : next.lease = usb.lease) (hsnapshot : next.snapshot = usb.snapshot) :
    Kept usb next [] := ⟨hlease, by simp, fun hne => absurd hsnapshot hne⟩

/-- A step that writes nothing. -/
theorem Kept.silent (h : Kept usb next []) : next.snapshot = usb.snapshot := by
  by_contra hne
  obtain ⟨holder, snapshot, hmem⟩ := h.recorded hne
  exact nomatch hmem

theorem Kept.append {last : UsbRuntime} {more : List UsbAct} (h : Kept usb next acts)
    (hmore : Kept next last more) : Kept usb last (acts ++ more) := by
  refine ⟨hmore.lease.trans h.lease, ?_, ?_⟩
  · intro holder snapshot hmem
    rcases List.mem_append.mp hmem with hmem | hmem
    · exact h.holder holder snapshot hmem
    · exact (hmore.holder holder snapshot hmem).trans h.lease
  · intro hne
    by_cases hfirst : next.snapshot = usb.snapshot
    · rw [← hfirst] at hne
      obtain ⟨holder, snapshot, hmem⟩ := hmore.recorded hne
      exact ⟨holder, snapshot, List.mem_append_right acts hmem⟩
    · obtain ⟨holder, snapshot, hmem⟩ := h.recorded hfirst
      exact ⟨holder, snapshot, List.mem_append_left more hmem⟩

theorem write_kept (usb : UsbRuntime) (snapshot : RuntimeSnapshot) :
    Kept usb (usb.write snapshot).1 (usb.write snapshot).2 := by
  refine ⟨rfl, ?_, fun _ => ⟨usb.lease, snapshot, List.mem_singleton_self _⟩⟩
  intro holder written hmem
  simp only [write, List.mem_singleton, UsbAct.wrote.injEq] at hmem
  exact hmem.1

/-- A step of a state that differs from `usb` neither in the lease nor in the snapshot. -/
theorem Kept.of_eq {base : UsbRuntime} (h : Kept base next acts) (hlease : base.lease = usb.lease)
    (hsnapshot : base.snapshot = usb.snapshot) : Kept usb next acts := by
  obtain ⟨hkept, hholder, hrecorded⟩ := h
  rw [hlease] at hkept hholder
  rw [hsnapshot] at hrecorded
  exact ⟨hkept, hholder, hrecorded⟩

theorem handleWorkResult_kept (now : ℕ) (usb : UsbRuntime) (result : WorkResult) :
    Kept usb (usb.handleWorkResult now result).1 (usb.handleWorkResult now result).2 := by
  unfold handleWorkResult
  split
  · exact Kept.nil rfl rfl
  · split
    · exact Kept.nil rfl rfl
    dsimp only
    split
    · exact (write_kept _ _).of_eq rfl rfl
    · exact Kept.nil rfl rfl
  · exact Kept.nil rfl rfl
  · exact Kept.nil rfl rfl
  · dsimp only
    split
    · exact (write_kept _ _).of_eq rfl rfl
    · exact Kept.nil rfl rfl

theorem handleAll_kept (now : ℕ) (usb : UsbRuntime) (results : List WorkResult) :
    Kept usb (usb.handleAll now results).1 (usb.handleAll now results).2 := by
  induction results generalizing usb with
  | nil => exact Kept.nil rfl rfl
  | cons result rest ih =>
    unfold handleAll
    exact (handleWorkResult_kept now usb result).append (ih _)

theorem drain_kept (now : ℕ) (usb : UsbRuntime) :
    Kept usb (usb.drain now).1 (usb.drain now).2 := by
  exact (handleAll_kept now { usb with queue := [] } usb.queue).of_eq rfl rfl

theorem conclude_kept (usb : UsbRuntime) (key : UsbDeviceKey) (ending : Ending) :
    Kept usb (usb.conclude key ending).1 (usb.conclude key ending).2 := by
  cases ending with
  | unopened failure =>
    cases failure with
    | none => exact Kept.nil rfl rfl
    | some error => exact Kept.nil rfl rfl
  | normal => exact write_kept usb _
  | failed error => exact (write_kept (usb.trySend _) _).of_eq rfl rfl

theorem stopActive_kept (usb : UsbRuntime) (ending : Ending) :
    Kept usb (usb.stopActive ending).1 (usb.stopActive ending).2 := by
  unfold stopActive
  split
  · exact Kept.nil rfl rfl
  split
  · exact Kept.nil rfl rfl
  · rename_i session _ _
    exact (conclude_kept { usb with active := none } session.key ending).of_eq rfl rfl

theorem expired_kept (usb : UsbRuntime) (now : ℕ) :
    Kept usb (usb.expired now).1 (usb.expired now).2 := by
  unfold expired
  dsimp only
  split
  · split
    · exact (write_kept _ _).of_eq rfl rfl
    · exact (write_kept _ _).of_eq rfl rfl
  · exact Kept.nil rfl rfl

/-! ## What handling results leaves alone -/

theorem handleWorkResult_lifecycle (now : ℕ) (usb : UsbRuntime) (result : WorkResult) :
    (usb.handleWorkResult now result).1.lifecycle = usb.lifecycle.after now result := by
  cases result with
  | beforeStart key version token => rfl
  | aoap key result =>
    cases result with
    | ok version => rfl
    | error error =>
      simp only [handleWorkResult, UsbConnectionState.after]
      split
      · rfl
      · split
        · rfl
        · rename_i hfailed
          exact (UsbConnectionState.probeFailed_of_not (Bool.eq_false_iff.mpr hfailed)).symm
  | version key result =>
    cases result with
    | ok version => rfl
    | error error =>
      simp only [handleWorkResult, UsbConnectionState.after]
      split
      · rfl
      · rename_i hfailed
        exact (UsbConnectionState.sessionFailed_of_not (Bool.eq_false_iff.mpr hfailed)).symm

/-- The rest of the runtime that the results of workers leave alone. -/
structure Same (usb next : UsbRuntime) : Prop where
  enabled : next.enabled = usb.enabled
  active : next.active = usb.active
  strays : next.strays = usb.strays
  attempted : next.attempted = usb.attempted
  running : next.running = usb.running

theorem handleWorkResult_same (now : ℕ) (usb : UsbRuntime) (result : WorkResult) :
    Same usb (usb.handleWorkResult now result).1 := by
  unfold handleWorkResult
  split
  · exact ⟨rfl, rfl, rfl, rfl, rfl⟩
  · split
    · exact ⟨rfl, rfl, rfl, rfl, rfl⟩
    dsimp only
    split <;> exact ⟨rfl, rfl, rfl, rfl, rfl⟩
  · exact ⟨rfl, rfl, rfl, rfl, rfl⟩
  · exact ⟨rfl, rfl, rfl, rfl, rfl⟩
  · dsimp only
    split <;> exact ⟨rfl, rfl, rfl, rfl, rfl⟩

theorem Same.trans {last : UsbRuntime} (h : Same usb next) (hlast : Same next last) :
    Same usb last :=
  ⟨hlast.enabled.trans h.enabled, hlast.active.trans h.active, hlast.strays.trans h.strays,
    hlast.attempted.trans h.attempted, hlast.running.trans h.running⟩

theorem handleAll_spec (now : ℕ) (usb : UsbRuntime) (results : List WorkResult) :
    Same usb (usb.handleAll now results).1 ∧ (usb.handleAll now results).1.lifecycle =
      results.foldl (UsbConnectionState.after now) usb.lifecycle := by
  induction results generalizing usb with
  | nil => exact ⟨⟨rfl, rfl, rfl, rfl, rfl⟩, rfl⟩
  | cons result rest ih =>
    obtain ⟨hsame, hlifecycle⟩ := ih (usb.handleWorkResult now result).1
    unfold handleAll
    refine ⟨(handleWorkResult_same now usb result).trans hsame, hlifecycle.trans ?_⟩
    rw [handleWorkResult_lifecycle, List.foldl_cons]

/-- Handling the queue. -/
theorem drain_spec (now : ℕ) (usb : UsbRuntime) :
    Same usb (usb.drain now).1 ∧ (usb.drain now).1.lifecycle =
      usb.queue.foldl (UsbConnectionState.after now) usb.lifecycle := by
  obtain ⟨⟨henabled, hactive, hstrays, hattempted, hrunning⟩, hlifecycle⟩ :=
    handleAll_spec now { usb with queue := [] } usb.queue
  exact ⟨⟨henabled, hactive, hstrays, hattempted, hrunning⟩, hlifecycle⟩

theorem handleWorkResult_silent {now : ℕ} {result : WorkResult}
    (h : ¬usb.lifecycle.Fails result) : (usb.handleWorkResult now result).2 = [] := by
  cases result with
  | beforeStart key version token => rfl
  | aoap key result =>
    cases result with
    | ok version => rfl
    | error error =>
      simp only [handleWorkResult]
      split
      · rfl
      · rename_i hwaiting
        split
        · rename_i hfailed
          exact absurd ⟨hwaiting, hfailed⟩ h
        · rfl
  | version key result =>
    cases result with
    | ok version => rfl
    | error error =>
      simp only [handleWorkResult]
      split
      · rename_i hfailed
        exact absurd hfailed h
      · rfl

theorem handleAll_silent {now : ℕ} {results : List WorkResult}
    (h : ¬usb.lifecycle.FailsBy now results) : (usb.handleAll now results).2 = [] := by
  induction results generalizing usb with
  | nil => rfl
  | cons result rest ih =>
    simp only [UsbConnectionState.FailsBy, not_or] at h
    unfold handleAll
    dsimp only
    rw [handleWorkResult_silent h.1, ih]
    · rfl
    · rw [handleWorkResult_lifecycle]
      exact h.2

theorem drain_silent {now : ℕ} (h : ¬usb.lifecycle.FailsBy now usb.queue) :
    (usb.drain now).2 = [] := handleAll_silent h

theorem isWaiting_after_version (now : ℕ) (state : UsbConnectionState) (key : UsbDeviceKey)
    (result : Except String (ℕ × ℕ)) :
    (state.after now (.version key result)).isWaiting = state.isWaiting := by
  cases result with
  | error error => exact UsbConnectionState.isWaiting_sessionFailed
  | ok version => exact UsbConnectionState.isWaiting_versionNegotiated version.1 version.2

/-- A stopped session leaves no handle; its report does not begin or end a wait. -/
theorem stopActive_spec (usb : UsbRuntime) (ending : Ending) (now : ℕ) :
    (usb.stopActive ending).1.active = none ∧
      (usb.stopActive ending).1.strays = usb.strays ∧
      (usb.stopActive ending).1.attempted = usb.attempted ∧
      (usb.stopActive ending).1.lifecycle = usb.lifecycle ∧
      ((usb.stopActive ending).1.WaitsAfterQueue now ↔ usb.WaitsAfterQueue now) := by
  have hsend (base : UsbRuntime) (key : UsbDeviceKey) (error : String) :
      (base.trySend (.version key (.error error))).WaitsAfterQueue now ↔
        base.WaitsAfterQueue now := by
    unfold WaitsAfterQueue trySend
    dsimp only
    split
    · rw [List.foldl_append, List.foldl_cons, List.foldl_nil, isWaiting_after_version]
    · rfl
  unfold stopActive
  split
  · rename_i hactive
    exact ⟨hactive, rfl, rfl, rfl, Iff.rfl⟩
  split
  · exact ⟨rfl, rfl, rfl, rfl, Iff.rfl⟩
  rename_i session _ _
  cases ending with
  | unopened failure =>
    cases failure with
    | none => exact ⟨rfl, rfl, rfl, rfl, Iff.rfl⟩
    | some error => exact ⟨rfl, rfl, rfl, rfl, hsend _ _ error⟩
  | normal => exact ⟨rfl, rfl, rfl, rfl, Iff.rfl⟩
  | failed error =>
    exact ⟨rfl, rfl, rfl, rfl, hsend { usb with active := none } session.key error⟩

/-- Without a live session there is nothing to stop but a handle. -/
theorem stopActive_of_not_serves (h : ¬usb.Serves) (ending : Ending) :
    usb.stopActive ending = ({ usb with active := none }, []) := by
  unfold stopActive
  split
  · rename_i hactive
    cases usb
    cases hactive
    rfl
  · rename_i session hactive
    split
    · rfl
    · rename_i hfinished
      refine absurd ?_ h
      simp [Serves, live, hactive, hfinished]

/-! ## One step -/

/-- Every write is made under the lease. -/
def Exclusive (acts : List UsbAct) : Prop :=
  ∀ holder snapshot, .wrote holder snapshot ∈ acts → holder = some .usb

/-- Nothing of USB is left that could write. -/
structure Settled (usb : UsbRuntime) : Prop where
  strays : usb.strays = []
  active : ¬usb.Serves
  waiting : usb.running = true → usb.lifecycle.isWaiting = false

/-- Without the lease, nothing of USB is left that could write. -/
def Sound (usb : UsbRuntime) : Prop := ¬usb.Owns → usb.Settled

theorem exclusive_nil : Exclusive [] := fun _ _ hmem => nomatch hmem

theorem Kept.exclusive (h : Kept usb next acts) (howns : usb.Owns) :
    Exclusive acts ∧ next.Owns :=
  ⟨fun holder snapshot hmem => (h.holder holder snapshot hmem).trans howns, h.lease.trans howns⟩

/-- A step under the lease that keeps it. -/
theorem Kept.sound (h : Kept usb next acts) (howns : usb.Owns) :
    Exclusive acts ∧ next.Sound :=
  ⟨(h.exclusive howns).1, fun hidle => absurd (h.exclusive howns).2 hidle⟩

theorem connected_kept (usb : UsbRuntime) (info : DeviceInfo) (now epoch : ℕ) :
    Kept usb (usb.connected info now epoch).1 (usb.connected info now epoch).2 := by
  have hact {base last : UsbRuntime} {snapshot : RuntimeSnapshot} {act : UsbAct}
      (hbase : base.lease = usb.lease) (hlast : last.lease = usb.lease)
      (hact : ∀ holder written, act ≠ .wrote holder written) :
      Kept usb last (act :: (base.write snapshot).2) := by
    refine ⟨hlast, ?_, fun _ => ⟨base.lease, snapshot, by simp [write]⟩⟩
    intro holder written hmem
    rcases List.mem_cons.mp hmem with rfl | hmem
    · exact absurd rfl (hact holder written)
    · exact ((write_kept base snapshot).holder holder written hmem).trans hbase
  unfold connected
  split
  · exact Kept.nil rfl rfl
  split
  · dsimp only
    split
    · exact hact rfl rfl (by rintro _ _ ⟨⟩)
    · exact Kept.nil rfl rfl
  split
  · dsimp only
    split
    · exact hact rfl rfl (by rintro _ _ ⟨⟩)
    · exact Kept.nil rfl rfl
  · exact Kept.nil rfl rfl

theorem acquire_cases (usb : UsbRuntime) (info : DeviceInfo) :
    (usb.acquire info).Owns ∨ usb.acquire info = usb := by
  unfold acquire
  split
  · exact Or.inl rfl
  · exact Or.inr rfl

theorem attached_sound (h : usb.Sound) (info : DeviceInfo) (now epoch : ℕ) :
    Exclusive (usb.attached info now epoch).2 ∧ (usb.attached info now epoch).1.Sound := by
  unfold attached
  dsimp only
  split
  · rename_i howns
    exact (connected_kept _ info now epoch).sound howns
  · rename_i hidle
    rcases acquire_cases usb info with howns | hsame
    · exact absurd howns hidle
    · rw [hsame]
      exact ⟨exclusive_nil, h⟩

theorem abortProbe_spec (usb : UsbRuntime) (id : String) :
    (usb.abortProbe id).lease = usb.lease ∧ (usb.abortProbe id).active = usb.active ∧
      (usb.abortProbe id).strays = usb.strays ∧
      (usb.abortProbe id).lifecycle = usb.lifecycle := by
  unfold abortProbe
  split
  · split <;> exact ⟨rfl, rfl, rfl, rfl⟩
  · exact ⟨rfl, rfl, rfl, rfl⟩

/-- After the stop, no session task is left with a handle. -/
theorem stopSession_spec (usb : UsbRuntime) (id : String) (ending : Ending)
    (hserves : usb.Serves → usb.active.any (·.key.id = id) = true) :
    Kept usb (usb.stopSession id ending).1 (usb.stopSession id ending).2 ∧
      ¬(usb.stopSession id ending).1.Serves ∧
      (usb.stopSession id ending).1.strays = usb.strays ∧
      (usb.stopSession id ending).1.lifecycle = usb.lifecycle := by
  unfold stopSession
  split
  · obtain ⟨hactive, hstrays, -, hlifecycle, -⟩ := stopActive_spec usb ending 0
    refine ⟨stopActive_kept usb ending, ?_, hstrays, hlifecycle⟩
    simp [Serves, live, hactive]
  · rename_i hother
    exact ⟨Kept.nil rfl rfl, fun hserving => hother (hserves hserving), rfl, rfl⟩

theorem discard_sound (howns : usb.Owns) (hstrays : usb.strays = []) {id : String}
    (hserves : usb.Serves → usb.active.any (·.key.id = id) = true)
    (hwaiting : usb.lifecycle.isWaiting = false) (ending : Ending) :
    Exclusive (usb.discard id ending).2 ∧ (usb.discard id ending).1.Sound := by
  obtain ⟨hlease, hactive, hkeptStrays, hlifecycle⟩ := abortProbe_spec usb id
  have hserves' : (usb.abortProbe id).Serves →
      (usb.abortProbe id).active.any (·.key.id = id) = true := by
    simp only [Serves, live, hactive]
    exact hserves
  obtain ⟨hkept, hserving, hlast, hlastLifecycle⟩ := stopSession_spec _ id ending hserves'
  have hboth := hkept.append (write_kept ((usb.abortProbe id).stopSession id ending).1 {})
  unfold discard
  dsimp only
  refine ⟨(hboth.exclusive (hlease.trans howns)).1, fun _ => ⟨?_, hserving, fun _ => ?_⟩⟩
  · exact (hlast.trans hkeptStrays).trans hstrays
  · show ((usb.abortProbe id).stopSession id ending).1.lifecycle.isWaiting = false
    rw [hlastLifecycle, hlifecycle, hwaiting]

theorem detached_sound (h : usb.Sound) {id : String} {ending : Ending}
    (horderly : usb.Orderly (.detached id ending)) :
    Exclusive (usb.detached id ending).2 ∧ (usb.detached id ending).1.Sound := by
  unfold detached
  dsimp only
  split
  · rename_i hgives
    obtain ⟨howns, howned, hwaiting⟩ := hgives
    obtain ⟨hstrays, hserves⟩ :=
      horderly howns hwaiting (UsbConnectionState.removed_owned howned)
    apply discard_sound howns hstrays hserves
    exact UsbConnectionState.isWaiting_removed.trans hwaiting
  · -- The lease stays where it is.
    refine ⟨exclusive_nil, fun hidle => ?_⟩
    obtain ⟨hstrays, hactive, hwaiting⟩ := h hidle
    refine ⟨hstrays, hactive, fun hrunning => ?_⟩
    exact UsbConnectionState.isWaiting_removed.trans (hwaiting hrunning)

/-- Handling the queue and giving the lease up. -/
theorem drain_sound (hactive : usb.active = none) (hstrays : usb.strays = []) {now : ℕ}
    (hwaits : ¬usb.WaitsAfterQueue now)
    (hsilent : ¬usb.Owns → ¬usb.lifecycle.FailsBy now usb.queue) :
    Exclusive (usb.drain now).2 ∧ (usb.drain now).1.release.Sound := by
  obtain ⟨hsame, hlifecycle⟩ := drain_spec now usb
  constructor
  · by_cases howns : usb.Owns
    · exact ((drain_kept now usb).exclusive howns).1
    · rw [drain_silent (hsilent howns)]
      exact exclusive_nil
  · refine fun _ => ⟨hsame.strays.trans hstrays, ?_, fun _ => ?_⟩
    · simp [Serves, live, release, hsame.active, hactive]
    · rw [WaitsAfterQueue, Bool.not_eq_true] at hwaits
      exact (congrArg UsbConnectionState.isWaiting hlifecycle).trans hwaits

/-- The session tasks without a handle, where the queue is handled in an orderly way. -/
theorem OrderlyDrain.strays {now : ℕ} (horderly : usb.OrderlyDrain now) (h : usb.Sound) :
    usb.strays = [] := by
  by_cases howns : usb.Owns
  · have hkept := horderly.2
    rwa [if_pos howns] at hkept
  · exact (h howns).strays

theorem OrderlyDrain.silent {now : ℕ} (horderly : usb.OrderlyDrain now) (hidle : ¬usb.Owns) :
    ¬usb.lifecycle.FailsBy now usb.queue := by
  have hkept := horderly.2
  rwa [if_neg hidle] at hkept

theorem disable_sound (h : usb.Sound) {now : ℕ} (horderly : usb.OrderlyDrain now)
    (ending : Ending) :
    Exclusive (usb.disable now ending).2 ∧ (usb.disable now ending).1.Sound := by
  have hkept := stopActive_kept usb ending
  obtain ⟨hactive, hstrays, -, -, hwaits⟩ := stopActive_spec usb ending now
  have hnone : UsbRuntime.active
      { (usb.stopActive ending).1 with probes := [], probe := none } = none := hactive
  have hdrained := drain_sound hnone (hstrays.trans (horderly.strays h))
    fun hwait => horderly.1 (hwaits.mp hwait)
  have hstop : Exclusive (usb.stopActive ending).2 := by
    by_cases howns : usb.Owns
    · exact (hkept.exclusive howns).1
    · rw [stopActive_of_not_serves (h howns).active]
      exact exclusive_nil
  obtain ⟨hexclusive, hsound⟩ := hdrained fun hidle => by
    have hfree : ¬usb.Owns := fun howns => hidle (hkept.lease.trans howns)
    rw [stopActive_of_not_serves (h hfree).active]
    exact horderly.silent hfree
  refine ⟨?_, hsound⟩
  intro holder snapshot hmem
  rcases List.mem_append.mp hmem with hmem | hmem
  · exact hstop holder snapshot hmem
  · exact hexclusive holder snapshot hmem

theorem switched_sound (h : usb.Sound) {now : ℕ} {ending : Ending}
    (horderly : usb.Orderly (.switched now ending)) :
    Exclusive (usb.switched now ending).2 ∧ (usb.switched now ending).1.Sound := by
  unfold switched
  split
  · rename_i hchanged
    split
    · exact ⟨exclusive_nil, fun hidle => ⟨(h hidle).strays, (h hidle).active, (h hidle).waiting⟩⟩
    · rename_i hdisabled
      have hsound : Sound { usb with enabledChanged := false } :=
        fun hidle => ⟨(h hidle).strays, (h hidle).active, (h hidle).waiting⟩
      exact disable_sound hsound (horderly hchanged (Bool.eq_false_iff.mpr hdisabled)) ending
  · exact ⟨exclusive_nil, h⟩

theorem reap_sound (h : usb.Sound) {now : ℕ} (hfinished : usb.active.any (·.finished) = true)
    (horderly : usb.OrderlyDrain now) :
    Exclusive (usb.reap now).2 ∧ (usb.reap now).1.Sound ∧ ¬(usb.reap now).1.Owns := by
  have hreleased (base : UsbRuntime) : ¬base.release.Owns := by
    unfold Owns release
    dsimp only
    split
    · exact nofun
    · assumption
  have hnone : UsbRuntime.active { usb with active := none } = none := rfl
  obtain ⟨hexclusive, hsound⟩ :=
    drain_sound hnone (horderly.strays h) horderly.1 horderly.silent
  unfold reap
  rw [if_pos hfinished]
  exact ⟨hexclusive, hsound, hreleased _⟩

theorem cleanupTick_sound (h : usb.Sound) {now : ℕ} (horderly : usb.Orderly (.cleanupTick now)) :
    Exclusive (usb.cleanupTick now).2 ∧ (usb.cleanupTick now).1.Sound := by
  unfold cleanupTick
  dsimp only
  simp only [Orderly] at horderly
  split at horderly
  · rename_i hfinished
    obtain ⟨hexclusive, hsound, hreleased⟩ := reap_sound h hfinished horderly
    rw [if_neg fun hdrops => hreleased hdrops.1]
    exact ⟨hexclusive, hsound⟩
  · rename_i hfinished
    have hreap : usb.reap now = (usb, []) := if_neg hfinished
    rw [hreap]
    dsimp only
    split
    · rename_i hdrops
      obtain ⟨howns, hactive, hprobes, hqueue, hwaiting⟩ := hdrops
      refine ⟨exclusive_nil, fun _ => ⟨?_, ?_, fun _ => hwaiting⟩⟩
      · exact horderly howns ⟨hactive, hprobes, hqueue, hwaiting⟩
      · simp [Serves, live, release, hactive]
    · exact ⟨exclusive_nil, h⟩

theorem received_sound (h : usb.Sound) (now : ℕ) :
    Exclusive (usb.received now).2 ∧ (usb.received now).1.Sound := by
  unfold received
  split
  · exact ⟨exclusive_nil, h⟩
  rename_i result rest _
  dsimp only
  have hsound : Sound { usb with queue := rest } :=
    fun hidle => ⟨(h hidle).strays, (h hidle).active, (h hidle).waiting⟩
  split
  · rename_i howns
    exact (handleWorkResult_kept now _ result).sound howns
  split
  · exact ⟨exclusive_nil, fun hidle => ⟨(h hidle).strays, (h hidle).active, (h hidle).waiting⟩⟩
  · exact ⟨exclusive_nil, hsound⟩

theorem expired_sound (h : usb.Sound) (hrunning : usb.running = true) (now : ℕ) :
    Exclusive (usb.expired now).2 ∧ (usb.expired now).1.Sound := by
  by_cases howns : usb.Owns
  · exact (expired_kept usb now).sound howns
  · have hover := UsbConnectionState.expireAccessoryWait_of_not ((h howns).waiting hrunning) now
    have hnone : usb.expired now = (usb, []) := by
      unfold expired
      rw [hover]
      rfl
    rw [hnone]
    exact ⟨exclusive_nil, h⟩

theorem shutdown_sound (h : usb.Sound) {ending : Ending}
    (horderly : usb.Orderly (.shutdown ending)) :
    Exclusive (usb.shutdown ending).2 ∧ (usb.shutdown ending).1.Sound := by
  obtain ⟨hactive, hstrays, -⟩ := stopActive_spec usb ending 0
  have hkept := stopActive_kept usb ending
  unfold shutdown
  dsimp only
  by_cases howns : usb.Owns
  · have hstopped : Owns { (usb.stopActive ending).1 with
        queue := [], probes := [], probe := none, running := false } := hkept.lease.trans howns
    rw [if_pos hstopped]
    refine ⟨?_, fun _ => ⟨?_, ?_, fun hrunning => nomatch hrunning⟩⟩
    · intro holder snapshot hmem
      rcases List.mem_append.mp hmem with hmem | hmem
      · exact (hkept.exclusive howns).1 holder snapshot hmem
      · exact ((write_kept _ _).exclusive hstopped).1 holder snapshot hmem
    · exact hstrays.trans (horderly howns)
    · simp [Serves, live, release, write, hactive]
  · obtain ⟨hkeptStrays, hserves, -⟩ := h howns
    rw [stopActive_of_not_serves hserves]
    dsimp only
    rw [if_neg (show ¬Owns { usb with
      active := none, queue := [], probes := [], probe := none, running := false } from howns)]
    refine ⟨exclusive_nil, fun _ => ⟨hkeptStrays, ?_, fun hrunning => nomatch hrunning⟩⟩
    simp [Serves, live, release]

/-- A state that differs in nothing that a later write of USB depends on. -/
theorem Sound.of_eq (h : usb.Sound) (hstrays : next.strays = usb.strays)
    (hactive : next.active = usb.active) (hlifecycle : next.lifecycle = usb.lifecycle)
    (hrunning : next.running = usb.running) (howns : usb.Owns → next.Owns) : next.Sound := by
  intro hidle
  obtain ⟨hsettled, hserves, hwaiting⟩ := h fun held => hidle (howns held)
  refine ⟨hstrays.trans hsettled, ?_, ?_⟩
  · rw [Serves, live, hactive]
    exact hserves
  · rw [hrunning, hlifecycle]
    exact hwaiting

/-- A live session task runs under the lease. -/
theorem Sound.owns_of_live (h : usb.Sound) {task : Task} {key : UsbDeviceKey}
    (hlive : usb.live task = some key) : usb.Owns := by
  by_contra hidle
  obtain ⟨hstrays, hserves, -⟩ := h hidle
  cases task with
  | active =>
    apply hserves
    rw [Serves, hlive]
    rfl
  | stray index => simp [live, hstrays] at hlive

theorem finish_lease (usb : UsbRuntime) (task : Task) : (usb.finish task).lease = usb.lease := by
  cases task with
  | active => rfl
  | stray index => rfl

theorem stepOther_sound (h : usb.Sound) (event : Event) :
    Exclusive (usb.stepOther event).2 ∧ (usb.stepOther event).1.Sound := by
  have hbeside {next : UsbRuntime} (hstrays : next.strays = usb.strays)
      (hactive : next.active = usb.active) (hlifecycle : next.lifecycle = usb.lifecycle)
      (hrunning : next.running = usb.running) (howns : usb.Owns → next.Owns) :
      Exclusive [] ∧ next.Sound :=
    ⟨exclusive_nil, h.of_eq hstrays hactive hlifecycle hrunning howns⟩
  have hsame : Exclusive [] ∧ usb.Sound := ⟨exclusive_nil, h⟩
  cases event with
  | setEnabled value => exact hbeside rfl rfl rfl rfl id
  | probeJoined token => exact hbeside rfl rfl rfl rfl id
  | probeAsks token version =>
    simp only [stepOther]
    split
    · split
      · exact hbeside rfl rfl rfl rfl id
      · exact hsame
    · exact hsame
  | probeStarts token =>
    simp only [stepOther]
    split
    · refine ⟨?_, h.of_eq rfl rfl rfl rfl id⟩
      intro holder snapshot hmem
      exact nomatch List.mem_singleton.mp hmem
    · exact hsame
  | probeSettles token result =>
    simp only [stepOther]
    split
    · split
      · exact hbeside rfl rfl rfl rfl id
      · exact hsame
    · exact hsame
  | probeReports token =>
    simp only [stepOther]
    split
    · split
      · exact hbeside rfl rfl rfl rfl id
      · exact hsame
    · exact hsame
  | sessionVersion task major minor =>
    simp only [stepOther]
    split
    · exact hbeside rfl rfl rfl rfl id
    · exact hsame
  | sessionWrites task snapshot =>
    simp only [stepOther]
    split
    · rename_i key hlive
      exact (write_kept usb snapshot).sound (h.owns_of_live hlive)
    · exact hsame
  | sessionEnds task ending =>
    simp only [stepOther]
    split
    · rename_i key hlive
      have howns : (usb.finish task).Owns := (finish_lease usb task).trans (h.owns_of_live hlive)
      exact (conclude_kept (usb.finish task) key ending).sound howns
    · exact hsame
  | wirelessConnects =>
    simp only [stepOther]
    split
    · rename_i hfree
      refine hbeside rfl rfl rfl rfl fun howns => ?_
      exact nomatch hfree.2.symm.trans howns
    · exact hsame
  | wirelessWrites snapshot =>
    simp only [stepOther]
    split
    · exact hbeside rfl rfl rfl rfl id
    · exact hsame
  | wirelessFinishes =>
    simp only [stepOther]
    split
    · rename_i hheld
      refine hbeside rfl rfl rfl rfl fun howns => ?_
      exact nomatch hheld.symm.trans howns
    · exact hsame
  | _ => exact hsame

theorem step_sound (h : usb.Sound) (horderly : usb.Orderly event) :
    Exclusive (usb.step event).2 ∧ (usb.step event).1.Sound := by
  unfold step
  split
  · rename_i hrunning
    cases event with
    | attached info now epoch => exact attached_sound h info now epoch
    | detached id ending => exact detached_sound h horderly
    | switched now ending => exact switched_sound h horderly
    | cleanupTick now => exact cleanupTick_sound h horderly
    | received now => exact received_sound h now
    | expired now => exact expired_sound h hrunning now
    | shutdown ending => exact shutdown_sound h horderly
    | _ => exact stepOther_sound h _
  · exact stepOther_sound h event

/-! ## What the wireless runtime sees -/

/-- Every write of the step is in its record, and made by the holder before the step. -/
structure Recorded (usb next : UsbRuntime) (acts : List UsbAct) : Prop where
  holder : ∀ holder snapshot, .wrote holder snapshot ∈ acts → holder = usb.lease
  recorded : next.snapshot ≠ usb.snapshot → ∃ holder snapshot, .wrote holder snapshot ∈ acts

theorem recorded_nil (h : next.snapshot = usb.snapshot) : Recorded usb next [] :=
  ⟨by simp, fun hne => absurd h hne⟩

theorem Kept.toRecorded (h : Kept usb next acts) : Recorded usb next acts :=
  ⟨h.holder, h.recorded⟩

theorem detached_recorded (usb : UsbRuntime) (id : String) (ending : Ending) :
    Recorded usb (usb.detached id ending).1 (usb.detached id ending).2 := by
  have hstop (base : UsbRuntime) :
      Kept base (base.stopSession id ending).1 (base.stopSession id ending).2 := by
    unfold stopSession
    split
    · exact stopActive_kept base ending
    · exact Kept.nil rfl rfl
  have habort (base : UsbRuntime) : (base.abortProbe id).lease = base.lease ∧
      (base.abortProbe id).snapshot = base.snapshot := by
    unfold abortProbe
    split
    · split <;> exact ⟨rfl, rfl⟩
    · exact ⟨rfl, rfl⟩
  have hdiscard (base : UsbRuntime) :
      Recorded base (base.discard id ending).1 (base.discard id ending).2 := by
    have hboth := (hstop (base.abortProbe id)).append (write_kept _ {})
    have hbase := hboth.of_eq (habort base).1 (habort base).2
    exact ⟨hbase.holder, hbase.recorded⟩
  unfold detached
  dsimp only
  split
  · obtain ⟨hholder, hrecorded⟩ := hdiscard { usb with
      attempted := usb.attempted.erase id, lifecycle := (usb.lifecycle.removed id).1 }
    exact ⟨hholder, hrecorded⟩
  · exact recorded_nil rfl

theorem switched_recorded (usb : UsbRuntime) (now : ℕ) (ending : Ending) :
    Recorded usb (usb.switched now ending).1 (usb.switched now ending).2 := by
  unfold switched
  split
  · split
    · exact recorded_nil rfl
    · have hstop := stopActive_kept { usb with enabledChanged := false } ending
      have hdrain := drain_kept now
        { (stopActive { usb with enabledChanged := false } ending).1 with
          probes := [], probe := none }
      have hboth := hstop.append (hdrain.of_eq rfl rfl)
      exact ⟨hboth.holder, hboth.recorded⟩
  · exact recorded_nil rfl

theorem cleanupTick_recorded (usb : UsbRuntime) (now : ℕ) :
    Recorded usb (usb.cleanupTick now).1 (usb.cleanupTick now).2 := by
  have hreap : Recorded usb (usb.reap now).1 (usb.reap now).2 := by
    unfold reap
    split
    · have hdrain := drain_kept now { usb with active := none }
      exact ⟨hdrain.holder, hdrain.recorded⟩
    · exact recorded_nil rfl
  unfold cleanupTick
  dsimp only
  split
  · exact ⟨hreap.holder, hreap.recorded⟩
  · exact hreap

theorem shutdown_recorded (usb : UsbRuntime) (ending : Ending) :
    Recorded usb (usb.shutdown ending).1 (usb.shutdown ending).2 := by
  have hstop := stopActive_kept usb ending
  unfold shutdown
  dsimp only
  split
  · have hclear := write_kept { (usb.stopActive ending).1 with
      queue := [], probes := [], probe := none, running := false } {}
    have hboth := hstop.append (hclear.of_eq rfl rfl)
    exact ⟨hboth.holder, hboth.recorded⟩
  · rw [List.append_nil]
    exact ⟨hstop.holder, hstop.recorded⟩

theorem stepOther_recorded (usb : UsbRuntime) (event : Event)
    (hevent : ∀ snapshot, event ≠ .wirelessWrites snapshot) :
    Recorded usb (usb.stepOther event).1 (usb.stepOther event).2 := by
  cases event with
  | setEnabled value => exact recorded_nil rfl
  | probeJoined token => exact recorded_nil rfl
  | probeAsks token version =>
    simp only [stepOther]
    split
    · split <;> exact recorded_nil rfl
    · exact recorded_nil rfl
  | probeStarts token =>
    simp only [stepOther]
    split
    · exact ⟨by simp, fun hne => absurd rfl hne⟩
    · exact recorded_nil rfl
  | probeSettles token result =>
    simp only [stepOther]
    split
    · split <;> exact recorded_nil rfl
    · exact recorded_nil rfl
  | probeReports token =>
    simp only [stepOther]
    split
    · split <;> exact recorded_nil rfl
    · exact recorded_nil rfl
  | sessionVersion task major minor =>
    simp only [stepOther]
    split <;> exact recorded_nil rfl
  | sessionWrites task snapshot =>
    simp only [stepOther]
    split
    · exact (write_kept usb snapshot).toRecorded
    · exact recorded_nil rfl
  | sessionEnds task ending =>
    simp only [stepOther]
    split
    · rename_i key _
      have hsnapshot : (usb.finish task).snapshot = usb.snapshot := by
        cases task with
        | active => rfl
        | stray index => rfl
      exact ((conclude_kept _ key ending).of_eq (finish_lease usb task) hsnapshot).toRecorded
    · exact recorded_nil rfl
  | wirelessConnects =>
    simp only [stepOther]
    split <;> exact recorded_nil rfl
  | wirelessWrites snapshot => exact absurd rfl (hevent snapshot)
  | wirelessFinishes =>
    simp only [stepOther]
    split <;> exact recorded_nil rfl
  | _ => exact recorded_nil rfl

theorem step_recorded (hheld : usb.lease ≠ none)
    (hevent : ∀ snapshot, event ≠ .wirelessWrites snapshot) :
    Recorded usb (usb.step event).1 (usb.step event).2 := by
  unfold step
  split
  · cases event with
    | attached info now epoch =>
      have hacquire : usb.acquire info = usb := if_neg fun hfree => hheld hfree.1
      simp only [attached, hacquire]
      split
      · exact (connected_kept usb info now epoch).toRecorded
      · exact recorded_nil rfl
    | detached id ending => exact detached_recorded usb id ending
    | switched now ending => exact switched_recorded usb now ending
    | cleanupTick now => exact cleanupTick_recorded usb now
    | received now =>
      simp only [received]
      split
      · exact recorded_nil rfl
      · rename_i result rest _
        split
        · have hkept := handleWorkResult_kept now { usb with queue := rest } result
          exact ⟨hkept.holder, hkept.recorded⟩
        split <;> exact recorded_nil rfl
    | expired now => exact (expired_kept usb now).toRecorded
    | shutdown ending => exact shutdown_recorded usb ending
    | _ => exact stepOther_recorded usb _ hevent
  · exact stepOther_recorded usb event hevent

/-- While the wireless runtime holds the lease, a step that writes only under the lease
leaves its snapshot alone. -/
theorem snapshot_step (hheld : usb.lease = some .wireless)
    (hevent : ∀ snapshot, event ≠ .wirelessWrites snapshot)
    (hexclusive : Exclusive (usb.step event).2) :
    (usb.step event).1.snapshot = usb.snapshot := by
  have hrecorded : Recorded usb (usb.step event).1 (usb.step event).2 :=
    step_recorded (by rw [hheld]; exact nofun) hevent
  by_contra hne
  obtain ⟨holder, snapshot, hmem⟩ := hrecorded.recorded hne
  have husb := hexclusive holder snapshot hmem
  rw [hrecorded.holder holder snapshot hmem, hheld] at husb
  exact nomatch husb

/-! ## Runs -/

theorem sound_start (enabled : Bool) : Sound { enabled := enabled } :=
  fun _ => ⟨rfl, nofun, fun _ => rfl⟩

/-- Every prefix of an orderly run ends in a sound state. -/
theorem orderlyRun_append {events more : List Event} (h : usb.Sound)
    (horderly : usb.OrderlyRun (events ++ more)) :
    (run step usb events).1.Sound ∧ (run step usb events).1.OrderlyRun more := by
  induction events generalizing usb with
  | nil => exact ⟨h, horderly⟩
  | cons event rest ih => exact ih (step_sound h horderly.1).2 horderly.2

/-- A phone with a debug bridge, before it is told to switch. -/
def phone : DeviceInfo where
  id := "1-2"
  serialNumber := some "phone"
  vendorId := 0x18d1
  productId := 0x4ee1
  usbClass := 0
  interfaces := [⟨0xff, 0x42, 0x01⟩]

/-- The same phone as an accessory. -/
def accessory : DeviceInfo := { phone with id := "1-3", productId := 0x2d01 }

/-- The phone switches, is used and unplugged; then the wireless runtime connects. -/
def handover : List Event :=
  [.attached phone 0 0, .probeAsks 0 2, .received 0, .probeStarts 0, .detached "1-2" .normal,
    .attached accessory 1 1, .sessionVersion .active 1 7, .received 2, .detached "1-3" .normal,
    .wirelessConnects, .wirelessWrites (RuntimeSnapshot.connecting "wireless" "Phone")]

/-- Projection is disabled while the phone switches, and enabled again; then the wireless
runtime connects. -/
def leftOver : List Event :=
  [.attached phone 0 0, .probeAsks 0 2, .received 0, .probeStarts 0, .setEnabled false,
    .switched 1 .normal, .setEnabled true, .switched 2 .normal, .wirelessConnects,
    .wirelessWrites (RuntimeSnapshot.connecting "wireless" "Phone")]

end UsbRuntime

end ProjectArgo.Projection
