import ProjectArgo.Power.HostPowerBridge

/-!
# The CAN transport around a host power operation

`RestartableCanProvider` keeps logical subscriptions while its physical
delegate is closed and recreated. Its operations are serialized and each is
awaited by its caller, so one operation is one step, with the outcomes of the
delegate's own calls as its inputs. The system joins it to the bridge: a quiesce
or a resume that the bridge awaits runs on the provider, and its result is the
bridge's next input.
-/
namespace ProjectArgo.Power

open Library.Run

/-- `_LogicalCanSubscription`; the delegate's subscription and its generation are
always set together. -/
structure LogicalCanSubscription where
  id : ℕ
  ownerId : String
  delegateGeneration : Option ℕ := none
  active : Bool := true
  deriving DecidableEq

/-- A delegate that the factory made: its identity and its `writesEnabled`. -/
structure Delegate where
  identity : ℕ
  writesEnabled : Bool
  deriving DecidableEq

/-- `RestartableCanProvider`; `closed` is set with `_closeFuture`. -/
structure RestartableCanProvider where
  writesEnabled : Bool
  subscriptions : List LogicalCanSubscription := []
  detachedDelegates : List Delegate := []
  delegate : Option Delegate := none
  nextSubscriptionId : ℕ := 1
  transportGeneration : ℕ := 0
  acceptFrames : Bool := false
  closed : Bool := false
  deriving DecidableEq

/-- How the calls of one resume end: the factory, each attach, each close. -/
structure Opening where
  candidate : Option Delegate
  attaches : ℕ → Bool
  closes : Delegate → Bool

/-- How a send ends before the delegate's own answer. -/
inductive Sent
  | offline
  | closedError
  | delegated (delegate : Delegate)
  deriving DecidableEq

/-- What `trim` removes. -/
def isWhiteSpace (c : Char) : Bool :=
  (9 ≤ c.toNat && c.toNat ≤ 13) || (0x2000 ≤ c.toNat && c.toNat ≤ 0x200A) ||
    c.toNat ∈ [0x20, 0x85, 0xA0, 0x1680, 0x2028, 0x2029, 0x202F, 0x205F, 0x3000, 0xFEFF]

def isBlank (text : String) : Bool := text.toList.all isWhiteSpace

namespace RestartableCanProvider

def isOnline (provider : RestartableCanProvider) : Bool :=
  provider.delegate.isSome && provider.acceptFrames && !provider.closed

/-- Every logical subscription forgets its delegate. -/
def unbind (provider : RestartableCanProvider) : RestartableCanProvider :=
  { provider with subscriptions := provider.subscriptions.map fun subscription =>
      { subscription with delegateGeneration := none } }

/-- `_closeDetachedDelegates`. -/
def closeDetachedDelegates (provider : RestartableCanProvider) (closes : Delegate → Bool) :
    RestartableCanProvider × Bool :=
  ({ provider with detachedDelegates := provider.detachedDelegates.filter fun d => !closes d },
    provider.detachedDelegates.all closes)

def quiesce (provider : RestartableCanProvider) (closes : Delegate → Bool) :
    RestartableCanProvider × Bool :=
  if provider.closed then (provider, false)
  else match provider.delegate with
    | none => provider.closeDetachedDelegates closes
    | some delegate =>
      let provider := { provider.unbind with
        acceptFrames := false
        transportGeneration := provider.transportGeneration + 1
        delegate := none }
      if closes delegate then (provider, true)
      else
        ({ provider with detachedDelegates := provider.detachedDelegates ++ [delegate] }, false)

/-- The failure branch of `resume`. -/
def discard (provider : RestartableCanProvider) (opening : Opening) : RestartableCanProvider :=
  let provider := { provider.unbind with acceptFrames := false, delegate := none }
  match opening.candidate with
  | none => provider
  | some candidate =>
    if opening.closes candidate then provider
    else { provider with detachedDelegates := provider.detachedDelegates ++ [candidate] }

/-- The success branch of `resume`. -/
def attach (provider : RestartableCanProvider) (candidate : Delegate) :
    RestartableCanProvider :=
  { provider with
    subscriptions := provider.subscriptions.map fun subscription =>
      if subscription.active then
        { subscription with delegateGeneration := some provider.transportGeneration }
      else subscription
    delegate := some candidate
    acceptFrames := true }

def resume (provider : RestartableCanProvider) (opening : Opening) :
    RestartableCanProvider × Bool :=
  if provider.closed then (provider, false)
  else if provider.delegate.isSome then (provider, true)
  else
    let detached := provider.closeDetachedDelegates opening.closes
    if !detached.2 then (detached.1, false)
    else
      let provider := { detached.1 with
        transportGeneration := detached.1.transportGeneration + 1 }
      match opening.candidate with
      | none => (provider.discard opening, false)
      | some candidate =>
        if candidate.writesEnabled ≠ provider.writesEnabled ||
            !(provider.subscriptions.filter (·.active)).all (fun s => opening.attaches s.id) then
          (provider.discard opening, false)
        else (provider.attach candidate, true)

/-- `subscribe`, with the answer of the delegate. -/
def subscribe (provider : RestartableCanProvider) (ownerId : String) (attaches : Bool) :
    RestartableCanProvider × Bool :=
  if provider.closed then (provider, false)
  else if isBlank ownerId then (provider, false)
  else
    let subscription : LogicalCanSubscription := ⟨provider.nextSubscriptionId, ownerId, none, true⟩
    let provider := { provider with nextSubscriptionId := provider.nextSubscriptionId + 1 }
    match provider.delegate with
    | none => ({ provider with subscriptions := provider.subscriptions ++ [subscription] }, true)
    | some _ =>
      if attaches then
        ({ provider with subscriptions := provider.subscriptions ++
            [{ subscription with delegateGeneration := some provider.transportGeneration }] },
          true)
      else (provider, false)

/-- `send`, up to the delegate's own send. -/
def send (provider : RestartableCanProvider) : Sent :=
  match provider.delegate with
  | none => .offline
  | some delegate =>
    if !provider.acceptFrames then .offline
    else if provider.closed then .closedError
    else .delegated delegate

/-- `removeOwner`. -/
def removeOwner (provider : RestartableCanProvider) (ownerId : String) :
    RestartableCanProvider :=
  { provider with subscriptions := provider.subscriptions.filter (·.ownerId ≠ ownerId) }

/-- `_cancelSubscription`. -/
def cancelSubscription (provider : RestartableCanProvider) (id : ℕ) : RestartableCanProvider :=
  { provider with subscriptions := provider.subscriptions.filter (·.id ≠ id) }

/-- `close`. -/
def close (provider : RestartableCanProvider) : RestartableCanProvider :=
  if provider.closed then provider
  else { provider with
    closed := true
    acceptFrames := false
    transportGeneration := provider.transportGeneration + 1
    subscriptions := []
    delegate := none
    detachedDelegates := [] }

/-- What `start` gives when the first delegate opens. -/
def started (delegate : Delegate) : RestartableCanProvider where
  writesEnabled := delegate.writesEnabled
  delegate := some delegate
  transportGeneration := 1
  acceptFrames := true

/-- `start` resumes a provider without subscriptions. -/
theorem started_eq (delegate : Delegate) (attaches : ℕ → Bool) (closes : Delegate → Bool) :
    resume { writesEnabled := delegate.writesEnabled } ⟨some delegate, attaches, closes⟩ =
      (started delegate, true) := by
  simp [resume, closeDetachedDelegates, attach, started]

end RestartableCanProvider

/-! ## The system -/

/-- The bridge, the provider, and what has become of the host. -/
structure System where
  bridge : HostPowerRequestBridge
  provider : RestartableCanProvider
  poweredOff : Bool := false
  resumeFailed : Bool := false

/-- The turns of the system. `bridge` is any turn of the bridge but the end of
a transport operation, which comes from the provider. -/
inductive Turn
  | bridge (input : Input)
  | quiesce (closes : Delegate → Bool)
  | resume (opening : Opening)
  | subscribe (ownerId : String) (attaches : Bool)
  | removeOwner (ownerId : String)
  | cancel (id : ℕ)
  | send
  | close

def Input.ofTransport : Input → Bool
  | .quiesced _ => true
  | .resumed _ => true
  | _ => false

namespace System

def start (current : HeadUnitOperationalState) (delegate : Delegate) : System where
  bridge := HostPowerRequestBridge.start current
  provider := RestartableCanProvider.started delegate

/-- The bridge takes a turn; a successful power off is the end of the host. -/
def tell (setting : Setting) (system : System) (input : Input) : System × List Effect :=
  let next := system.bridge.step setting input
  ({ system with
      bridge := next.1
      poweredOff := system.poweredOff ||
        (system.bridge.awaiting = some (.command .shutdown) && input = .commanded true) },
    next.2)

def step (setting : Setting) (system : System) : Turn → System × List Effect
  | .bridge input => if input.ofTransport then (system, []) else system.tell setting input
  | .quiesce closes =>
    match system.bridge.awaiting with
    | some (.quiesce _) =>
      let quiesced := system.provider.quiesce closes
      { system with provider := quiesced.1 }.tell setting (.quiesced quiesced.2)
    | _ => (system, [])
  | .resume opening =>
    match system.bridge.awaiting with
    | some .resume =>
      let resumed := system.provider.resume opening
      { system with
        provider := resumed.1
        resumeFailed := system.resumeFailed || !resumed.2 }.tell setting (.resumed resumed.2)
    | _ => (system, [])
  | .subscribe ownerId attaches =>
    ({ system with provider := (system.provider.subscribe ownerId attaches).1 }, [])
  | .removeOwner ownerId => ({ system with provider := system.provider.removeOwner ownerId }, [])
  | .cancel id => ({ system with provider := system.provider.cancelSubscription id }, [])
  | .send => (system, [])
  | .close => ({ system with provider := system.provider.close }, [])

end System

/-! ## The transport is restored -/

/-- A current delegate, to which sends and subscriptions go. -/
def RestartableCanProvider.Accepting (provider : RestartableCanProvider) : Prop :=
  provider.isOnline = true ∧ (∃ delegate, provider.send = .delegated delegate) ∧
    ∀ ownerId, isBlank ownerId = false → (provider.subscribe ownerId true).2 = true

theorem RestartableCanProvider.accepting_iff (provider : RestartableCanProvider) :
    provider.Accepting ↔ provider.isOnline = true := by
  refine ⟨And.left, ?_⟩
  intro honline
  have hparts := honline
  simp only [isOnline, Bool.and_eq_true, Bool.not_eq_true'] at hparts
  obtain ⟨⟨hdelegate, haccept⟩, hopen⟩ := hparts
  obtain ⟨delegate, hdelegate⟩ := Option.isSome_iff_exists.mp hdelegate
  refine ⟨honline, ⟨delegate, ?_⟩, ?_⟩
  · simp [send, hdelegate, haccept, hopen]
  · intro ownerId hblank
    simp [subscribe, hdelegate, hopen, hblank]

/-- The awaits during which the transport may be down. -/
def Await.down : Await → Bool
  | .command _ => true
  | .resume => true
  | _ => false

namespace System

/-- The host is on, no resume has failed and the provider was not closed. -/
def Intact (system : System) : Prop :=
  system.poweredOff = false ∧ system.resumeFailed = false ∧ system.provider.closed = false

/-- When no power operation is in progress, the transport is there. -/
def Restored (system : System) : Prop :=
  system.bridge.awaiting = none → system.Intact → system.provider.Accepting

/-- Where a quiesce of an intact system closes a delegate, the close succeeds. -/
def Closes (system : System) : Turn → Prop
  | .quiesce closes =>
    system.Intact → (∃ request, system.bridge.awaiting = some (.quiesce request)) →
      ∀ delegate, system.provider.delegate = some delegate → closes delegate = true
  | _ => True

/-- While the system is intact, only a command or a resume finds the transport down. -/
def Keeps (system : System) : Prop :=
  system.Intact →
    (system.provider.delegate.isSome = true → system.provider.acceptFrames = true) ∧
    ((∀ awaited ∈ system.bridge.awaiting, awaited.down = false) →
      system.provider.isOnline = true)

theorem restored_of_keeps {system : System} (h : system.Keeps) : system.Restored := by
  intro hawaiting hintact
  rw [RestartableCanProvider.accepting_iff]
  apply (h hintact).2
  intro awaited hmem
  rw [hawaiting] at hmem
  exact nomatch hmem

/-! ### What one turn does to the awaits -/

/-- Only the end of a host command or of a transport operation brings the bridge
out of an await in which the transport may be down. -/
theorem awaiting_of_step {setting : Setting} {bridge : HostPowerRequestBridge} {input : Input}
    {awaited : Await} (hbridge : bridge.awaiting = some awaited) (hdown : awaited.down = true)
    (hinput : input.ofTransport = false)
    (hend : ¬(bridge.awaiting = some (.command .shutdown) ∧ input = .commanded true)) :
    ∃ next, (bridge.step setting input).1.awaiting = some next ∧ next.down = true := by
  unfold HostPowerRequestBridge.step
  split
  · rw [(HostPowerRequestBridge.powerChanged_spec bridge _).2.2.2.1]
    exact ⟨awaited, hbridge, hdown⟩
  · unfold HostPowerRequestBridge.runExclusive
    rw [hbridge]
    split_ifs with hclosed hsome
    · exact ⟨awaited, hbridge, hdown⟩
    · exact ⟨awaited, hbridge, hdown⟩
    · exact absurd rfl hsome
  · exact ⟨awaited, hbridge, hdown⟩
  · exact ⟨awaited, hbridge, hdown⟩
  · rw [‹bridge.awaiting = _›] at hbridge
    cases hbridge
    exact nomatch hdown
  · rw [‹bridge.awaiting = _›] at hbridge
    cases hbridge
    exact nomatch hdown
  · exact nomatch hinput
  · rename_i ok operation heq
    cases operation <;> cases ok
    · exact ⟨.resume, rfl, rfl⟩
    · exact ⟨.resume, rfl, rfl⟩
    · exact ⟨.resume, rfl, rfl⟩
    · exact absurd ⟨heq, rfl⟩ hend
  · exact nomatch hinput
  · rw [‹bridge.awaiting = _›] at hbridge
    cases hbridge
    exact nomatch hdown
  · exact ⟨awaited, hbridge, hdown⟩

/-- A successful quiesce leads to the host command or to a resume. -/
theorem awaiting_of_quiesced (bridge : HostPowerRequestBridge) (request : Request) :
    ∃ next, (bridge.quiesced request true).1.awaiting = some next ∧ next.down = true := by
  cases request with
  | suspend episode =>
    simp only [HostPowerRequestBridge.quiesced, Bool.not_true, Bool.false_eq_true, if_false]
    split_ifs
    · exact ⟨.resume, rfl, rfl⟩
    · exact ⟨.resume, rfl, rfl⟩
    · exact ⟨.command .suspend, rfl, rfl⟩
  | shutdown =>
    simp only [HostPowerRequestBridge.quiesced, Bool.not_true, Bool.false_eq_true, if_false]
    split_ifs
    · exact ⟨.resume, rfl, rfl⟩
    · exact ⟨.command .shutdown, rfl, rfl⟩

/-- A successful resume leaves a provider online that was not half closed. -/
theorem isOnline_of_resume {provider : RestartableCanProvider} {opening : Opening}
    (haccept : provider.delegate.isSome = true → provider.acceptFrames = true)
    (h : (provider.resume opening).2 = true) :
    (provider.resume opening).1.isOnline = true := by
  unfold RestartableCanProvider.resume at h ⊢
  by_cases hclosed : provider.closed = true
  · rw [if_pos hclosed] at h
    exact nomatch h
  rw [if_neg hclosed] at h ⊢
  simp only [Bool.not_eq_true] at hclosed
  by_cases hdelegate : provider.delegate.isSome = true
  · rw [if_pos hdelegate]
    simp [RestartableCanProvider.isOnline, hdelegate, haccept hdelegate, hclosed]
  rw [if_neg hdelegate] at h ⊢
  dsimp only at h ⊢
  cases hdetached : (provider.closeDetachedDelegates opening.closes).2 with
  | false => simp [hdetached] at h
  | true =>
    rw [hdetached] at h
    cases hcandidate : opening.candidate with
    | none => simp [hcandidate] at h
    | some candidate =>
      simp only [hcandidate, Bool.not_true, Bool.false_eq_true, if_false] at h ⊢
      split_ifs at h ⊢
      simp [RestartableCanProvider.isOnline, RestartableCanProvider.attach,
        RestartableCanProvider.closeDetachedDelegates, hclosed]

/-! ### Runs -/

/-- A quiesce of an online provider that closes its delegate takes it down; any
other failure leaves it as it was. -/
theorem keeps_quiesce {setting : Setting} {system : System} (h : system.Keeps)
    {closes : Delegate → Bool} (hcloses : system.Closes (.quiesce closes)) :
    (system.step setting (.quiesce closes)).1.Keeps := by
  simp only [step]
  split
  · rename_i request hbridge
    intro hintact
    have hstep : ∀ ok, system.bridge.step setting (.quiesced ok) =
        system.bridge.quiesced request ok := by
      intro ok
      simp only [HostPowerRequestBridge.step, hbridge]
    simp only [tell, hstep] at hintact ⊢
    obtain ⟨hpower, hresume, hopen⟩ := hintact
    rw [Bool.or_eq_false_iff] at hpower
    have hprovider : system.provider.closed = false := by
      revert hopen
      unfold RestartableCanProvider.quiesce
      split
      · exact id
      · intro _
        exact Bool.eq_false_iff.mpr ‹_›
    have hintact : system.Intact := ⟨hpower.1, hresume, hprovider⟩
    have honline := (h hintact).2 (fun awaited hmem => by
      rw [hbridge] at hmem
      cases hmem
      rfl)
    simp only [RestartableCanProvider.isOnline, Bool.and_eq_true] at honline
    obtain ⟨delegate, hdelegate⟩ := Option.isSome_iff_exists.mp honline.1.1
    have hok := hcloses hintact ⟨request, hbridge⟩ delegate hdelegate
    have hquiesce : (system.provider.quiesce closes).2 = true ∧
        (system.provider.quiesce closes).1.delegate = none := by
      unfold RestartableCanProvider.quiesce
      simp [hprovider, hdelegate, hok]
    constructor
    · intro hsome
      rw [hquiesce.2] at hsome
      exact nomatch hsome
    intro hup
    rw [hquiesce.1] at hup
    obtain ⟨next, hnext, hdown⟩ := awaiting_of_quiesced system.bridge request
    rw [hup next hnext] at hdown
    exact nomatch hdown
  · exact h

theorem keeps_resume {setting : Setting} {system : System} (h : system.Keeps)
    (opening : Opening) : (system.step setting (.resume opening)).1.Keeps := by
  simp only [step]
  split
  · rintro ⟨hpower, hresume, hopen⟩
    simp only [tell, Bool.or_eq_false_iff, Bool.not_eq_false'] at hpower hresume hopen
    have hprovider : system.provider.closed = false := by
      have hok := hresume.2
      revert hok
      unfold RestartableCanProvider.resume
      split
      · intro hok
        exact nomatch hok
      · intro _
        exact Bool.eq_false_iff.mpr ‹_›
    have hkeeps := h ⟨hpower.1, hresume.1, hprovider⟩
    have honline := isOnline_of_resume hkeeps.1 hresume.2
    refine ⟨fun _ => ?_, fun _ => honline⟩
    simp only [RestartableCanProvider.isOnline, Bool.and_eq_true] at honline
    exact honline.1.2
  · exact h

theorem keeps_bridge {setting : Setting} {system : System} (h : system.Keeps) (input : Input) :
    (system.step setting (.bridge input)).1.Keeps := by
  simp only [step]
  split_ifs with htransport
  · exact h
  · rintro ⟨hpower, hresume, hopen⟩
    simp only [tell, Bool.or_eq_false_iff] at hpower hresume hopen
    obtain ⟨haccept, honline⟩ := h ⟨hpower.1, hresume, hopen⟩
    refine ⟨haccept, ?_⟩
    intro hup
    apply honline
    intro awaited hmem
    by_contra hdown
    obtain ⟨next, hnext, hnextdown⟩ := @awaiting_of_step setting _ _ _ hmem
      (by simpa using hdown) (Bool.eq_false_iff.mpr htransport)
      (by simpa using hpower.2)
    rw [hup next hnext] at hnextdown
    exact nomatch hnextdown

/-- What plugins do with their subscriptions leaves the delegate alone. -/
theorem subscribe_delegate (provider : RestartableCanProvider) (ownerId : String)
    (attaches : Bool) :
    (provider.subscribe ownerId attaches).1.delegate = provider.delegate ∧
      (provider.subscribe ownerId attaches).1.acceptFrames = provider.acceptFrames ∧
      (provider.subscribe ownerId attaches).1.closed = provider.closed := by
  unfold RestartableCanProvider.subscribe
  split
  · exact ⟨rfl, rfl, rfl⟩
  split
  · exact ⟨rfl, rfl, rfl⟩
  dsimp only
  split
  · exact ⟨rfl, rfl, rfl⟩
  · split <;> exact ⟨rfl, rfl, rfl⟩

theorem keeps_step {setting : Setting} {system : System} (h : system.Keeps) {turn : Turn}
    (hcloses : system.Closes turn) : (system.step setting turn).1.Keeps := by
  cases turn with
  | bridge input => exact keeps_bridge h input
  | quiesce closes => exact keeps_quiesce h hcloses
  | resume opening => exact keeps_resume h opening
  | subscribe ownerId attaches =>
    obtain ⟨hdelegate, haccept, hclosed⟩ := subscribe_delegate system.provider ownerId attaches
    simpa only [Keeps, Intact, step, RestartableCanProvider.isOnline, hdelegate, haccept,
      hclosed] using h
  | removeOwner ownerId => exact h
  | cancel id => exact h
  | send => exact h
  | close =>
    rintro ⟨-, -, hopen⟩
    exact absurd hopen (by
      simp only [step, RestartableCanProvider.close]
      split_ifs with hclosed <;> simp [hclosed])

theorem keeps_start (current : HeadUnitOperationalState) (delegate : Delegate) :
    (start current delegate).Keeps := by
  intro _
  exact ⟨fun _ => rfl, fun _ => rfl⟩

/-- A quiesce that cannot close the delegate ends its request with the transport down. -/
theorem not_restored_of_quiesce {setting : Setting} {system : System} {closes : Delegate → Bool}
    (h : ¬system.Closes (.quiesce closes)) :
    ¬((system.step setting (.quiesce closes)).1.step setting (.bridge .returned)).1.Restored := by
  simp only [Closes, not_forall] at h
  obtain ⟨⟨hpower, hresume, hopen⟩, ⟨request, hbridge⟩, delegate, hdelegate, hfails⟩ := h
  have hquiesce : system.provider.quiesce closes =
      ({ system.provider.unbind with
        acceptFrames := false
        transportGeneration := system.provider.transportGeneration + 1
        delegate := none
        detachedDelegates := system.provider.detachedDelegates ++ [delegate] }, false) := by
    simp [RestartableCanProvider.quiesce, hopen, hdelegate, hfails,
      RestartableCanProvider.unbind]
  have hstep : system.bridge.step setting (.quiesced false) =
      system.bridge.quiesced request false := by
    simp only [HostPowerRequestBridge.step, hbridge]
  intro hrestored
  simp only [step, hbridge, hquiesce, tell, hstep] at hrestored
  have haccepting := hrestored rfl ⟨by simpa [Input.ofTransport, hbridge] using hpower, hresume, hopen⟩
  exact nomatch haccepting.1

theorem run_split (setting : Setting) (system : System) (before after : List Turn) (turn : Turn) :
    (run (step setting) system (before ++ turn :: after)).1 =
      (run (step setting) ((run (step setting) system before).1.step setting turn).1 after).1 := by
  rw [run_append]
  rfl

/-- In every state reached, when no power operation is in progress, or the last
one is about to leave, the host is on and no resume has failed, the transport is
online; and that is so exactly if each quiesce closes the delegate it detached. -/
theorem restored_iff_closes (setting : Setting) (current : HeadUnitOperationalState)
    (delegate : Delegate) (turns : List Turn) :
    (∀ before, before <+: turns →
        (run (step setting) (start current delegate) before).1.Restored ∧
        (run (step setting) (start current delegate) (before ++ [.bridge .returned])).1.Restored) ↔
      ∀ before turn after, turns = before ++ turn :: after →
        (run (step setting) (start current delegate) before).1.Closes turn := by
  constructor
  · intro h before turn after hsplit
    by_contra hcloses
    cases turn with
    | quiesce closes =>
      have hfront : before ++ [Turn.quiesce closes] <+: turns := ⟨after, by simp [hsplit]⟩
      have hrestored := (h _ hfront).2
      rw [run_concat, run_concat] at hrestored
      exact not_restored_of_quiesce hcloses hrestored
    | _ => exact hcloses trivial
  · intro h
    have hkeeps : ∀ before, before <+: turns →
        (run (step setting) (start current delegate) before).1.Keeps := by
      intro before
      induction before using List.reverseRecOn with
      | nil => exact fun _ => keeps_start current delegate
      | append_singleton before turn ih =>
        rintro ⟨after, hsplit⟩
        rw [run_concat]
        apply keeps_step (ih ⟨turn :: after, by simp [← hsplit]⟩)
        exact h before turn after (by simp [← hsplit])
    intro before hfront
    refine ⟨restored_of_keeps (hkeeps before hfront), restored_of_keeps ?_⟩
    rw [run_concat]
    exact keeps_step (hkeeps before hfront) trivial

/-- A suspend request whose quiesce cannot close the delegate: the request ends,
nothing resumes the transport, and the provider has no delegate left. -/
theorem transport_left_down :
    ¬∀ (setting : Setting) (current : HeadUnitOperationalState) (delegate : Delegate)
      (turns : List Turn), (run (step setting) (start current delegate) turns).1.Restored := by
  intro h
  let registry : Registry := ⟨true, some ⟨7, "/argo/plugins/power", true⟩⟩
  have hrestored := h ⟨some "/argo/plugins", true⟩ .standby ⟨1, false⟩
    [.bridge (.requested .suspend (some "power")),
      .bridge (.authorized ⟨registry, .path "/argo/plugins/power", registry⟩),
      .bridge (.flushed true), .quiesce fun _ => false, .bridge .returned]
    (by decide +kernel) ⟨by decide +kernel, by decide +kernel, by decide +kernel⟩
  rw [RestartableCanProvider.accepting_iff] at hrestored
  revert hrestored
  decide +kernel

end System

end ProjectArgo.Power
