import ProjectArgo.Library.Run
import ProjectArgo.Projection.Failure

/-!
# The access point and its firewall guard

One activation installs the firewall guard, saves the credential template and
activates the access point; every later `stop` takes down what was recorded.
`Host` is what really is installed, `AccessPoint` is the record the daemon
keeps. An activation and a cleanup are given the ending of each of their
external calls, so that every point of failure is an input.
-/
namespace ProjectArgo.Projection

open Library.Run

/-- The record of one access point: the fields that activation and cleanup use. -/
structure AccessPoint where
  interface : String
  bssid : String := ""
  active : Option String := none
  firewall : Bool := false
  activationPending : Bool := false
  templatePath : Option String := none
  saveTemplate : Bool := true
  deriving DecidableEq

/-- What is installed: the guard, the active access point, and the ownership
record of the guard that a managed daemon keeps on disk. -/
structure Host where
  guard : Bool := false
  accessPoint : Option String := none
  record : Bool := false
  deriving DecidableEq

structure Radio where
  ap : AccessPoint
  host : Host
  deriving DecidableEq

/-! ## The firewall helper -/

/-- What `metadata` says about the helper. -/
inductive Helper
  | missing
  | writable
  | ready
  deriving DecidableEq

/-- The shape of a Linux boot ID. -/
def validBootId (bootId : String) : Bool :=
  bootId.toList.length = 36 && bootId.toList.zipIdx.all fun (c, i) =>
    if i ∈ [8, 13, 18, 23] then c = '-' else c.isDigit || ('a' ≤ c && c ≤ 'f')

/-- `write_guard_intent`, with the ending of its write and rename. -/
def writeGuardIntent (bootId : String) (written : Except String Unit) : Except String Unit :=
  if validBootId bootId then written
  else .error "Cannot record guard ownership: invalid Linux boot ID"

/-- The endings of one run of the helper. `managed` is that the process has a
place for the ownership record. -/
structure FirewallCall where
  helper : Helper
  managed : Bool
  bootId : Except String String
  written : Except String Unit
  run : Outcome
  removed : Except String Unit

def helperCheck : Helper → Except Interruption Unit
  | .missing => .error (.error ("Install the narrowly scoped projection firewall helper " ++
      "(see docs/wireless.md) before Connect"))
  | .writable => .error (.error
      "Projection firewall helper must be root-owned and not group/world writable")
  | .ready => .ok ()

/-- The intent record, written before the helper is started. -/
def recordIntent (call : FirewallCall) : Except Interruption Unit :=
  if call.managed then
    match call.bootId with
    | .error e => .error (.error ("Cannot read Linux boot ID for guard ownership: " ++ e))
    | .ok bootId => (writeGuardIntent bootId call.written).mapError .error
  else .ok ()

/-- `firewall("start", interface)`. -/
def firewallStart (call : FirewallCall) (host : Host) : Host × Except Interruption Unit :=
  match helperCheck call.helper, recordIntent call with
  | .error e, _ => (host, .error e)
  | .ok (), .error e => (host, .error e)
  | .ok (), .ok () =>
    ({ host with
        record := host.record || call.managed
        guard := host.guard || call.run.tookEffect },
      call.run.result "Firewall authorization timed out")

/-- `firewall("stop", interface)`. -/
def firewallStop (call : FirewallCall) (host : Host) : Host × Except Interruption Unit :=
  match helperCheck call.helper with
  | .error e => (host, .error e)
  | .ok () =>
    let host := { host with guard := host.guard && !call.run.tookEffect }
    match call.run.result "Firewall authorization timed out" with
    | .error e => (host, .error e)
    | .ok () =>
      if call.managed then
        match call.removed with
        | .error e => (host, .error (.error
            ("Guard removed but ownership record cleanup failed: " ++ e)))
        | .ok () => ({ host with record := false }, .ok ())
      else (host, .ok ())

/-! ## Activation -/

def Interruption.toFailure (text : String → Failure) : Interruption → Failure
  | .error e => text e
  | .cancelled => Failure.cancelled

/-- The endings of the calls of one activation. `path` and `template` are the
paths NetworkManager answers with; `lost` is that the access point goes away
while it is waited for. -/
structure Activation where
  firewall : FirewallCall
  device : Outcome
  saved : Outcome
  template : String
  activated : Outcome
  path : String
  ready : Outcome
  lost : Bool
  hwAddress : Except String String

/-- The part of `activate` that follows the activation call. -/
def awaitReady (activation : Activation) (radio : Radio) : Radio × Except Failure Unit :=
  let radio := if activation.lost then { radio with host.accessPoint := none } else radio
  match activation.ready with
  | .timedOut _ => (radio, .error (Failure.timeout "AP address / DHCP readiness timed out"))
  | .failed _ e => (radio, .error (Failure.network e))
  | .cancelled _ => (radio, .error Failure.cancelled)
  | .ok =>
    match activation.hwAddress with
    | .error e => (radio, .error (Failure.configuration e))
    | .ok address =>
      let radio := { radio with ap.bssid := address.toUpper }
      if address.toUpper.utf8ByteSize ≠ 17 then
        (radio, .error (Failure.protocol "AP BSSID unavailable"))
      else (radio, .ok ())

/-- `AddAndActivateConnection2`, recorded as pending while its result is unknown. -/
def addAndActivate (activation : Activation) (radio : Radio) : Radio × Except Failure Unit :=
  let radio := { radio with
    ap.activationPending := true
    host.accessPoint :=
      if activation.activated.tookEffect then some activation.path else radio.host.accessPoint }
  match activation.activated.result "" with
  | .error e => (radio, .error (e.toFailure Failure.configuration))
  | .ok () =>
    awaitReady activation { radio with
      ap.active := some activation.path
      ap.activationPending := false }

/-- The credential template is saved once. -/
def saveTemplate (activation : Activation) (radio : Radio) : Radio × Except Failure Unit :=
  if radio.ap.saveTemplate then
    match activation.saved.result "" with
    | .error e => (radio, .error (e.toFailure Failure.configuration))
    | .ok () =>
      addAndActivate activation { radio with
        ap.templatePath := some (radio.ap.templatePath.getD activation.template)
        ap.saveTemplate := false }
  else addAndActivate activation radio

/-- `Network::activate`. -/
def activate (activation : Activation) (radio : Radio) : Radio × Except Failure Unit :=
  let (host, started) := firewallStart activation.firewall radio.host
  let radio := { radio with host := host }
  match started with
  | .error e => (radio, .error (e.toFailure Failure.configuration))
  | .ok () =>
    let radio := { radio with ap.firewall := true }
    match activation.device.result "" with
    | .error e => (radio, .error (e.toFailure Failure.configuration))
    | .ok () => saveTemplate activation radio

/-! ## Cleanup -/

/-- The calls of a cleanup, each with what is installed when it is made. -/
inductive Call
  | deactivate (active : String)
  | removeGuard (interface : String)
  deriving DecidableEq

/-- The endings of the calls of one cleanup: the first read of the active
connections, the deactivation, the wait until it is gone, the helper. -/
structure Cleanup where
  remaining : Outcome
  deactivated : Outcome
  gone : Outcome
  firewall : FirewallCall

/-- The access point is gone if a call to take it down took effect. -/
def Host.down (host : Host) (outcome : Outcome) : Host :=
  if outcome.tookEffect then { host with accessPoint := none } else host

theorem Host.down_spec (host : Host) (outcome : Outcome) :
    (host.down outcome).guard = host.guard ∧ (host.down outcome).record = host.record ∧
      ((host.down outcome).accessPoint = host.accessPoint ∨
        (host.down outcome).accessPoint = none) := by
  unfold Host.down
  split_ifs
  · exact ⟨rfl, rfl, Or.inr rfl⟩
  · exact ⟨rfl, rfl, Or.inl rfl⟩

def interruptionMap (text : String → String) : Interruption → Interruption
  | .error e => .error (text e)
  | .cancelled => .cancelled

/-- `CleanupAdapter::deactivate` of the network. -/
def deactivate (cleanup : Cleanup) (active : String) (host : Host) :
    Host × Except Interruption Unit :=
  match cleanup.remaining.result "" with
  | .error e => (host, .error (interruptionMap ("Cannot verify owned AP cleanup: " ++ ·) e))
  | .ok () =>
    if host.accessPoint ≠ some active then (host, .ok ())
    else
      match cleanup.deactivated.result "" with
      | .error e => (host.down cleanup.deactivated,
          .error (interruptionMap ("Owned AP cleanup failed: " ++ ·) e))
      | .ok () =>
        (host.down cleanup.gone,
          cleanup.gone.result "Owned AP deactivation did not complete; retaining firewall")

/-- The end of `cleanup`: the guard. -/
def cleanupGuard (cleanup : Cleanup) (radio : Radio) :
    Radio × List (Call × Host) × Except Interruption Unit :=
  if radio.ap.firewall then
    let (host, result) := firewallStop cleanup.firewall radio.host
    let calls := [(Call.removeGuard radio.ap.interface, radio.host)]
    match result with
    | .error e => ({ radio with host := host }, calls, .error e)
    | .ok () => ({ ap := { radio.ap with firewall := false }, host := host }, calls, .ok ())
  else (radio, [], .ok ())

/-- `cleanup`, and so `Network::stop`. -/
def cleanup (cleanup : Cleanup) (radio : Radio) :
    Radio × List (Call × Host) × Except Interruption Unit :=
  if radio.ap.activationPending then
    (radio, [], .error (.error ("AP activation result unknown; closing its owning D-Bus " ++
      "connection and retaining firewall guard")))
  else
    match radio.ap.active with
    | none => cleanupGuard cleanup radio
    | some active =>
      let (host, result) := deactivate cleanup active radio.host
      let calls := [(Call.deactivate active, radio.host)]
      match result with
      | .error e => ({ radio with host := host }, calls, .error e)
      | .ok () =>
        let (next, later, result) :=
          cleanupGuard cleanup { ap := { radio.ap with active := none }, host := host }
        (next, calls ++ later, result)

/-! ## What later cleanups do -/

/-- What happens after an activation: a cleanup, or the access point goes away. -/
inductive Event
  | stop (endings : Cleanup)
  | lost

/-- One cleanup as its caller sees it. -/
structure Report where
  before : Radio
  calls : List (Call × Host)
  result : Except Interruption Unit
  after : Radio

def event (radio : Radio) : Event → Radio × Option Report
  | .stop endings =>
    let (after, calls, result) := cleanup endings radio
    (after, some ⟨radio, calls, result, after⟩)
  | .lost => ({ radio with host.accessPoint := none }, none)

/-- The first call a cleanup makes for the resources recorded. -/
def AccessPoint.firstCall (ap : AccessPoint) : Option Call :=
  if ap.activationPending then none
  else match ap.active with
    | some active => some (.deactivate active)
    | none => if ap.firewall then some (.removeGuard ap.interface) else none

/-- A cleanup that succeeds leaves nothing behind. -/
def Report.Clears (report : Report) : Prop :=
  report.result = .ok () →
    report.after.host.guard = false ∧ report.after.host.accessPoint = none

/-- The guard is removed only while no access point is active. -/
def Report.GuardLast (report : Report) : Prop :=
  ∀ interface host, (Call.removeGuard interface, host) ∈ report.calls → host.accessPoint = none

/-- A cleanup that fails forgets nothing but an access point it saw gone, and the
next one begins with the first resource still recorded. -/
def Report.KeepsRecord (report : Report) : Prop :=
  ∀ e, report.result = .error e →
    report.after.ap.firewall = report.before.ap.firewall ∧
    report.after.ap.activationPending = report.before.ap.activationPending ∧
    (report.after.ap.active = report.before.ap.active ∨
      report.after.ap.active = none ∧ report.after.host.accessPoint = none) ∧
    ∀ endings, ((cleanup endings report.after).2.1.head?.map Prod.fst) =
      report.after.ap.firstCall

/-- A cleanup that succeeded is repeated without a call and without a change. -/
def Report.Idempotent (report : Report) : Prop :=
  report.result = .ok () →
    ∀ endings, cleanup endings report.after = (report.after, [], .ok ())

structure Report.Sound (report : Report) : Prop where
  clears : report.Clears
  guardLast : report.GuardLast
  keepsRecord : report.KeepsRecord
  idempotent : report.Idempotent

/-- The guard was installed by a start that did not succeed. -/
def FirewallCall.Unrecorded (call : FirewallCall) : Prop :=
  helperCheck call.helper = .ok () ∧ recordIntent call = .ok () ∧
    call.run ≠ .ok ∧ call.run.tookEffect = true

/-! ### The record and the host -/

/-- An active access point is recorded, or its activation is pending. -/
def Radio.Owned (radio : Radio) : Prop :=
  radio.ap.activationPending = false → ∀ path, radio.host.accessPoint = some path →
    radio.ap.active = some path

/-- An installed guard is recorded. -/
def Radio.Guarded (radio : Radio) : Prop :=
  radio.host.guard = true → radio.ap.firewall = true

theorem head_cleanup (endings : Cleanup) (radio : Radio) :
    (cleanup endings radio).2.1.head?.map Prod.fst = radio.ap.firstCall := by
  unfold cleanup AccessPoint.firstCall
  by_cases hpending : radio.ap.activationPending = true
  · rw [if_pos hpending, if_pos hpending]
    rfl
  rw [if_neg hpending, if_neg hpending]
  cases radio.ap.active with
  | none =>
    simp only [cleanupGuard]
    split_ifs with hfirewall
    · cases (firewallStop endings.firewall radio.host).2 <;> rfl
    · rfl
  | some active =>
    dsimp only
    cases (deactivate endings active radio.host).2 <;> rfl

/-- What a deactivation can do: it ends with the access point gone, or in error. -/
theorem deactivate_spec (endings : Cleanup) (active : String) (host : Host) :
    (deactivate endings active host).1.guard = host.guard ∧
    (deactivate endings active host).1.record = host.record ∧
    ((deactivate endings active host).1.accessPoint = host.accessPoint ∨
      (deactivate endings active host).1.accessPoint = none) ∧
    ((deactivate endings active host).2 = .ok () →
      (deactivate endings active host).1.accessPoint ≠ some active) := by
  unfold deactivate
  cases hremaining : endings.remaining.result "" with
  | error e => exact ⟨rfl, rfl, Or.inl rfl, fun h => nomatch h⟩
  | ok u =>
    dsimp only
    by_cases hgone : host.accessPoint = some active
    · rw [if_neg (not_not_intro hgone)]
      cases endings.deactivated.result "" with
      | error e =>
        obtain ⟨hguard, hrecord, hdown⟩ := host.down_spec endings.deactivated
        exact ⟨hguard, hrecord, hdown, fun h => nomatch h⟩
      | ok u =>
        obtain ⟨hguard, hrecord, hdown⟩ := host.down_spec endings.gone
        refine ⟨hguard, hrecord, hdown, ?_⟩
        intro h
        rw [Outcome.result_eq_ok.mp h]
        simp [Host.down, Outcome.tookEffect]
    · rw [if_pos hgone]
      exact ⟨rfl, rfl, Or.inl rfl, fun _ => hgone⟩

/-- What a run of the helper to remove the guard can do. -/
theorem firewallStop_spec (call : FirewallCall) (host : Host) :
    (firewallStop call host).1.accessPoint = host.accessPoint ∧
    ((firewallStop call host).1.guard = true → host.guard = true) ∧
    ((firewallStop call host).2 = .ok () → (firewallStop call host).1.guard = false) := by
  unfold firewallStop
  cases helperCheck call.helper with
  | error e => exact ⟨rfl, id, fun h => nomatch h⟩
  | ok u =>
    dsimp only
    cases hrun : call.run.result "Firewall authorization timed out" with
    | error e =>
      refine ⟨rfl, ?_, fun h => nomatch h⟩
      simp only [Bool.and_eq_true]
      exact And.left
    | ok u =>
      have htook : call.run.tookEffect = true := by
        rw [Outcome.result_eq_ok.mp hrun]
        rfl
      dsimp only
      split_ifs
      · cases call.removed with
        | error e => exact ⟨rfl, by simp [htook], fun h => nomatch h⟩
        | ok u => exact ⟨rfl, by simp [htook], fun _ => by simp [htook]⟩
      · exact ⟨rfl, by simp [htook], fun _ => by simp [htook]⟩

/-- The guard's part of a cleanup, once no access point is recorded. -/
theorem cleanupGuard_spec (endings : Cleanup) (radio : Radio) :
    (cleanupGuard endings radio).1.host.accessPoint = radio.host.accessPoint ∧
    (cleanupGuard endings radio).1.ap.active = radio.ap.active ∧
    (cleanupGuard endings radio).1.ap.activationPending = radio.ap.activationPending ∧
    (∀ call ∈ (cleanupGuard endings radio).2.1, call.2 = radio.host) ∧
    (radio.Guarded → (cleanupGuard endings radio).1.Guarded) ∧
    (∀ e, (cleanupGuard endings radio).2.2 = .error e →
      (cleanupGuard endings radio).1.ap.firewall = radio.ap.firewall) ∧
    ((cleanupGuard endings radio).2.2 = .ok () →
      (cleanupGuard endings radio).1.ap.firewall = false ∧
        (radio.Guarded → (cleanupGuard endings radio).1.host.guard = false)) := by
  obtain ⟨hpoint, hguard, hgone⟩ := firewallStop_spec endings.firewall radio.host
  unfold cleanupGuard
  by_cases hfirewall : radio.ap.firewall = true
  · rw [if_pos hfirewall]
    dsimp only
    cases hstop : (firewallStop endings.firewall radio.host).2 with
    | error e =>
      refine ⟨hpoint, rfl, rfl, by simp, ?_, fun _ _ => rfl, fun h => (nomatch h)⟩
      exact fun _ _ => hfirewall
    | ok u =>
      refine ⟨hpoint, rfl, rfl, by simp, ?_, fun _ h => (nomatch h), ?_⟩
      · intro _ hinstalled
        rw [hgone hstop] at hinstalled
        exact nomatch hinstalled
      · exact fun _ => ⟨rfl, fun _ => hgone hstop⟩
  · rw [if_neg hfirewall]
    refine ⟨rfl, rfl, rfl, by simp, id, fun _ h => (nomatch h), ?_⟩
    intro _
    refine ⟨Bool.eq_false_iff.mpr hfirewall, ?_⟩
    intro hguarded
    exact Bool.eq_false_iff.mpr fun hinstalled => hfirewall (hguarded hinstalled)

/-- A cleanup with nothing recorded does nothing. -/
theorem cleanup_of_clear {radio : Radio} (hpending : radio.ap.activationPending = false)
    (hactive : radio.ap.active = none) (hfirewall : radio.ap.firewall = false)
    (endings : Cleanup) : cleanup endings radio = (radio, [], .ok ()) := by
  simp [cleanup, cleanupGuard, hpending, hactive, hfirewall]

/-- The report of a cleanup. -/
def report (endings : Cleanup) (radio : Radio) : Report :=
  ⟨radio, (cleanup endings radio).2.1, (cleanup endings radio).2.2, (cleanup endings radio).1⟩

/-- A cleanup whose deactivation is interrupted. -/
theorem cleanup_eq_of_error {endings : Cleanup} {radio : Radio} {active : String} {host : Host}
    {e : Interruption} (hpending : radio.ap.activationPending = false)
    (hactive : radio.ap.active = some active)
    (h : deactivate endings active radio.host = (host, .error e)) :
    cleanup endings radio =
      ({ radio with host := host }, [(Call.deactivate active, radio.host)], .error e) := by
  simp [cleanup, hpending, hactive, h]

/-- A cleanup whose deactivation is confirmed. -/
theorem cleanup_eq_of_ok {endings : Cleanup} {radio : Radio} {active : String} {host : Host}
    (hpending : radio.ap.activationPending = false) (hactive : radio.ap.active = some active)
    (h : deactivate endings active radio.host = (host, .ok ())) :
    cleanup endings radio =
      ((cleanupGuard endings ⟨{ radio.ap with active := none }, host⟩).1,
        (Call.deactivate active, radio.host) ::
          (cleanupGuard endings ⟨{ radio.ap with active := none }, host⟩).2.1,
        (cleanupGuard endings ⟨{ radio.ap with active := none }, host⟩).2.2) := by
  simp [cleanup, hpending, hactive, h]

/-- One cleanup of a radio whose access point is recorded or pending. -/
theorem report_spec (endings : Cleanup) {radio : Radio} (howned : radio.Owned) :
    (report endings radio).after.Owned ∧
    (radio.Guarded → (report endings radio).after.Guarded ∧ (report endings radio).Clears) ∧
    (report endings radio).GuardLast ∧ (report endings radio).KeepsRecord ∧
    (report endings radio).Idempotent := by
  unfold Report.Clears Report.GuardLast Report.KeepsRecord Report.Idempotent
  simp only [report, head_cleanup, implies_true, and_true]
  cases hpending : radio.ap.activationPending with
  | true =>
    have hcleanup : cleanup endings radio = (radio, [], .error (.error ("AP activation result " ++
        "unknown; closing its owning D-Bus connection and retaining firewall guard"))) := by
      simp [cleanup, hpending]
    rw [hcleanup]
    refine ⟨howned, fun h => ⟨h, fun h => (nomatch h)⟩, by simp, ?_, fun h => (nomatch h)⟩
    exact fun _ _ => ⟨rfl, hpending, Or.inl rfl⟩
  | false =>
    cases hactive : radio.ap.active with
    | none =>
      have hpoint : radio.host.accessPoint = none := by
        by_contra hne
        obtain ⟨path, hpath⟩ := Option.ne_none_iff_exists'.mp hne
        rw [howned hpending path hpath] at hactive
        exact nomatch hactive
      have hcleanup : cleanup endings radio = cleanupGuard endings radio := by
        simp [cleanup, hpending, hactive]
      obtain ⟨hsame, hnone, hstill, hcalls, hguarded, herror, hok⟩ :=
        cleanupGuard_spec endings radio
      rw [hpoint] at hsame
      rw [hcleanup]
      refine ⟨?_, fun h => ⟨hguarded h, fun hdone => ⟨(hok hdone).2 h, hsame⟩⟩, ?_, ?_, ?_⟩
      · intro _ path hpath
        rw [hsame] at hpath
        exact nomatch hpath
      · intro interface host hmem
        obtain rfl : host = radio.host := hcalls _ hmem
        exact hpoint
      · exact fun e he => ⟨herror e he, hstill.trans hpending, Or.inl (hnone.trans hactive)⟩
      · intro hdone later
        exact cleanup_of_clear (hstill.trans hpending) (hnone.trans hactive) (hok hdone).1 later
    | some active =>
      obtain ⟨hguard, -, hpoint, hgone⟩ := deactivate_spec endings active radio.host
      rcases hdown : deactivate endings active radio.host with ⟨host, result⟩
      rw [hdown] at hguard hpoint hgone
      dsimp only at hguard hpoint hgone
      have hown : ∀ path, host.accessPoint = some path → path = active := by
        intro path hpath
        rcases hpoint with hsame | hnone
        · rw [hsame] at hpath
          rw [howned hpending path hpath] at hactive
          exact Option.some.inj hactive
        · rw [hnone] at hpath
          exact nomatch hpath
      cases result with
      | error e =>
        rw [cleanup_eq_of_error hpending hactive hdown]
        refine ⟨?_, fun h => ⟨?_, fun h => (nomatch h)⟩, ?_, ?_, fun h => (nomatch h)⟩
        · intro _ path hpath
          rw [hown path hpath]
          exact hactive
        · intro hinstalled
          exact h (hguard ▸ hinstalled)
        · intro interface other hmem
          simp at hmem
        · exact fun _ _ => ⟨rfl, hpending, Or.inl hactive⟩
      | ok u =>
        have hnone : host.accessPoint = none := by
          by_contra hne
          obtain ⟨path, hpath⟩ := Option.ne_none_iff_exists'.mp hne
          exact hgone rfl (hown path hpath ▸ hpath)
        obtain ⟨hsame, hcleared, hstill, hcalls, hguarded, herror, hok⟩ :=
          cleanupGuard_spec endings ⟨{ radio.ap with active := none }, host⟩
        rw [hnone] at hsame
        rw [cleanup_eq_of_ok hpending hactive hdown]
        have hstart : radio.Guarded → Radio.Guarded ⟨{ radio.ap with active := none }, host⟩ :=
          fun h hinstalled => h (hguard ▸ hinstalled)
        refine ⟨?_, fun h => ⟨hguarded (hstart h), fun hdone => ⟨?_, hsame⟩⟩, ?_, ?_, ?_⟩
        · intro _ path hpath
          rw [hsame] at hpath
          exact nomatch hpath
        · exact (hok hdone).2 (hstart h)
        · intro interface other hmem
          rcases List.mem_cons.mp hmem with hfirst | hlater
          · simp at hfirst
          · obtain rfl : other = host := hcalls _ hlater
            exact hnone
        · exact fun e he => ⟨herror e he, hstill.trans hpending, Or.inr ⟨hcleared, hsame⟩⟩
        · intro hdone later
          exact cleanup_of_clear (hstill.trans hpending) hcleared (hok hdone).1 later

/-! ## Every activation, and every cleanup after it -/

/-- A record as `prepare` makes it. -/
def prepared (interface : String) (templatePath : Option String) (saveTemplate : Bool) : Radio where
  ap := { interface := interface, templatePath := templatePath, saveTemplate := saveTemplate }
  host := {}

theorem awaitReady_spec (activation : Activation) {radio : Radio} (howned : radio.Owned)
    (hguarded : radio.Guarded) :
    (awaitReady activation radio).1.Owned ∧ (awaitReady activation radio).1.Guarded := by
  have hlost : ∀ lost : Bool,
      (if lost then { radio with host.accessPoint := none } else radio : Radio).Owned ∧
      (if lost then { radio with host.accessPoint := none } else radio : Radio).Guarded := by
    intro lost
    cases lost
    · exact ⟨howned, hguarded⟩
    · exact ⟨fun _ _ h => (nomatch h), hguarded⟩
  specialize hlost activation.lost
  unfold awaitReady
  generalize (if activation.lost then { radio with host.accessPoint := none } else radio : Radio) =
    current at hlost ⊢
  cases activation.ready with
  | ok =>
    dsimp only
    cases activation.hwAddress with
    | error e => exact hlost
    | ok address =>
      dsimp only
      split_ifs <;> exact hlost
  | failed tookEffect error => exact hlost
  | timedOut tookEffect => exact hlost
  | cancelled tookEffect => exact hlost

theorem addAndActivate_spec (activation : Activation) {radio : Radio}
    (hguarded : radio.Guarded) :
    (addAndActivate activation radio).1.Owned ∧
      (addAndActivate activation radio).1.Guarded := by
  unfold addAndActivate
  cases hresult : activation.activated.result "" with
  | error e => exact ⟨fun hpending => (nomatch hpending), hguarded⟩
  | ok u =>
    apply awaitReady_spec
    · intro _ path hpath
      rw [Outcome.result_eq_ok.mp hresult] at hpath
      exact hpath
    · exact hguarded

theorem saveTemplate_spec (activation : Activation) {radio : Radio} (howned : radio.Owned)
    (hguarded : radio.Guarded) :
    (saveTemplate activation radio).1.Owned ∧ (saveTemplate activation radio).1.Guarded := by
  unfold saveTemplate
  split_ifs
  · cases activation.saved.result "" with
    | error e => exact ⟨howned, hguarded⟩
    | ok u => exact addAndActivate_spec activation hguarded
  · exact addAndActivate_spec activation hguarded

/-- The radio after an activation of a prepared record. -/
def activated (activation : Activation) (interface : String) (templatePath : Option String)
    (saveTemplate : Bool) : Radio :=
  (activate activation (prepared interface templatePath saveTemplate)).1

/-- The activation after the guard, whose start did not succeed or did. -/
theorem activated_spec (activation : Activation) (interface : String)
    (templatePath : Option String) (save : Bool) :
    (activated activation interface templatePath save).Owned ∧
    (¬activation.firewall.Unrecorded →
      (activated activation interface templatePath save).Guarded) ∧
    (activation.firewall.Unrecorded →
      (activated activation interface templatePath save).ap =
        (prepared interface templatePath save).ap ∧
      (activated activation interface templatePath save).host.guard = true) := by
  unfold activated activate FirewallCall.Unrecorded firewallStart
  cases hhelper : helperCheck activation.firewall.helper with
  | error e =>
    refine ⟨fun _ _ h => (nomatch h), fun _ h => (nomatch h), fun h => nomatch h.1⟩
  | ok u =>
    cases hintent : recordIntent activation.firewall with
    | error e =>
      refine ⟨fun _ _ h => (nomatch h), fun _ h => (nomatch h), fun h => nomatch h.2.1⟩
    | ok v =>
      dsimp only
      cases hrun : activation.firewall.run.result "Firewall authorization timed out" with
      | error e =>
        have hne : activation.firewall.run ≠ .ok := by
          intro h
          rw [h] at hrun
          exact nomatch hrun
        refine ⟨fun _ _ h => (nomatch h), ?_, ?_⟩
        · intro hrecorded hinstalled
          exact absurd ⟨rfl, rfl, hne, by simpa [prepared] using hinstalled⟩ hrecorded
        · rintro ⟨-, -, -, htook⟩
          exact ⟨rfl, by simp [htook]⟩
      | ok w =>
        have heq := Outcome.result_eq_ok.mp hrun
        dsimp only
        have hspec : ∀ radio : Radio, radio.Owned → radio.Guarded →
            (match activation.device.result "" with
              | .error e => (radio, .error (e.toFailure Failure.configuration))
              | .ok () => saveTemplate activation radio : Radio × Except Failure Unit).1.Owned ∧
            (match activation.device.result "" with
              | .error e => (radio, .error (e.toFailure Failure.configuration))
              | .ok () => saveTemplate activation radio : Radio × Except Failure Unit).1.Guarded := by
          intro radio howned hguarded
          cases activation.device.result "" with
          | error e => exact ⟨howned, hguarded⟩
          | ok _ => exact saveTemplate_spec activation howned hguarded
        obtain ⟨howned, hguarded⟩ := hspec
          { ap := { (prepared interface templatePath save).ap with firewall := true }
            host := { (prepared interface templatePath save).host with
              record := (prepared interface templatePath save).host.record ||
                activation.firewall.managed
              guard := (prepared interface templatePath save).host.guard ||
                activation.firewall.run.tookEffect } }
          (fun _ _ h => (nomatch h)) (fun _ => rfl)
        exact ⟨howned, fun _ => hguarded, fun h => absurd heq h.2.2.1⟩

/-- Every cleanup after an activation is sound. -/
def Sound (radio : Radio) (events : List Event) : Prop :=
  ∀ entry ∈ (run event radio events).2, ∀ report ∈ entry.2, report.Sound

theorem owned_run {radio : Radio} (howned : radio.Owned) (hguarded : radio.Guarded)
    (events : List Event) : Sound radio events := by
  have hrun := run_history event (I := fun radio history =>
    (radio.Owned ∧ radio.Guarded) ∧ ∀ entry ∈ history, ∀ report ∈ entry.2, report.Sound)
    (s := radio) ⟨⟨howned, hguarded⟩, by simp⟩ ?_ events
  · exact hrun.2
  · rintro radio history next ⟨⟨howned, hguarded⟩, hsound⟩
    cases next with
    | stop endings =>
      obtain ⟨hnext, hclears, hlast, hkeeps, hidempotent⟩ := report_spec endings howned
      obtain ⟨hguard, hclears⟩ := hclears hguarded
      refine ⟨⟨hnext, hguard⟩, ?_⟩
      intro entry hmem seen hseen
      rcases List.mem_append.mp hmem with hold | hnew
      · exact hsound entry hold seen hseen
      · obtain rfl := List.mem_singleton.mp hnew
        obtain rfl : report endings radio = seen := Option.some.inj hseen
        exact ⟨hclears, hlast, hkeeps, hidempotent⟩
    | lost =>
      refine ⟨⟨fun _ _ h => (nomatch h), hguarded⟩, ?_⟩
      intro entry hmem seen hseen
      rcases List.mem_append.mp hmem with hold | hnew
      · exact hsound entry hold seen hseen
      · obtain rfl := List.mem_singleton.mp hnew
        exact nomatch hseen

/-- A guard that was installed but not recorded survives a cleanup that succeeds. -/
theorem not_sound_of_unrecorded {activation : Activation} (h : activation.firewall.Unrecorded)
    (interface : String) (templatePath : Option String) (save : Bool) :
    ∃ events, ¬Sound (activated activation interface templatePath save) events := by
  obtain ⟨hap, hguard⟩ := (activated_spec activation interface templatePath save).2.2 h
  let endings : Cleanup := ⟨.ok, .ok, .ok, activation.firewall⟩
  have hclean : cleanup endings (activated activation interface templatePath save) =
      (activated activation interface templatePath save, [], .ok ()) := by
    apply cleanup_of_clear <;> rw [hap] <;> rfl
  refine ⟨[.stop endings], ?_⟩
  intro hsound
  have hreport := hsound _ (List.mem_singleton.mpr rfl)
    (report endings (activated activation interface templatePath save)) rfl
  have hgone := (hreport.clears (by simp [report, hclean])).1
  simp only [report, hclean, hguard] at hgone
  exact nomatch hgone

end ProjectArgo.Projection
