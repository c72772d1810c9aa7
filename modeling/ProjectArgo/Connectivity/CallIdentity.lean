import Mathlib.Data.List.Nodup
import ProjectArgo.Connectivity.Calls

/-!
# The identity of calls

An id stands for a path as long as the epoch lasts, and an epoch ends with the first signal
that is taken or the first other owner that is seen. As soon as no signal is left out of
account, whatever was shown under an id is still at its path; an answer or a hangup that
is executed then is that of the call that was shown.
-/
namespace ProjectArgo.Connectivity.Calls

open Library Library.Run

def callId (epoch : ℕ) (path : Text) : Text := Nat.toDigits 10 epoch ++ ':' :: path

theorem colon_not_mem_toDigits (n : ℕ) : ':' ∉ Nat.toDigits 10 n := by
  intro h
  exact absurd (Nat.isDigit_of_mem_toDigits (by decide) (by decide) h) (by decide)

theorem dropWhile_callId (epoch : ℕ) (path : Text) :
    ((callId epoch path).dropWhile (· ≠ ':')).tail = path := by
  unfold callId
  rw [List.dropWhile_append_of_pos]
  · simp
  · intro c hc
    have hne : c ≠ ':' := fun h => colon_not_mem_toDigits epoch (h ▸ hc)
    simpa using hne

theorem takeWhile_callId (epoch : ℕ) (path : Text) :
    (callId epoch path).takeWhile (· ≠ ':') = Nat.toDigits 10 epoch := by
  unfold callId
  rw [List.takeWhile_append_of_pos]
  · simp
  · intro c hc
    have hne : c ≠ ':' := fun h => colon_not_mem_toDigits epoch (h ▸ hc)
    simpa using hne

/-- The first colon of an id ends its epoch. -/
theorem callId_injective {epoch other : ℕ} {path otherPath : Text}
    (h : callId epoch path = callId other otherPath) : epoch = other ∧ path = otherPath := by
  constructor
  · have hdigits := congrArg (List.takeWhile (· ≠ ':')) h
    rw [takeWhile_callId, takeWhile_callId] at hdigits
    rw [← @Nat.ofDigitChars_ten_toDigits epoch, hdigits, Nat.ofDigitChars_ten_toDigits]
  · rw [← dropWhile_callId epoch path, h, dropWhile_callId]

theorem make_id (epoch : ℕ) (path : Text) (call : CallObject) :
    (Call.make epoch path call).id = callId epoch path := rfl

/-- Which call is at a path. -/
def serialAt (objects : Objects) (path : Text) : Option ℕ :=
  ((objectAt objects path).bind Object.call).map CallObject.serial

theorem objectAt_of_mem {objects : Objects} (hkeys : (objects.map Prod.fst).Nodup) {path : Text}
    {object : Object} (h : (path, object) ∈ objects) : objectAt objects path = some object := by
  cases hlookup : objectAt objects path with
  | none => exact absurd rfl (Assoc.lookup_eq_none_iff.1 hlookup _ h)
  | some other =>
    have hsame := List.inj_on_of_nodup_map hkeys h (Assoc.mem_of_lookup hlookup) rfl
    cases hsame
    rfl

theorem serialAt_of_mem {objects : Objects} (hkeys : (objects.map Prod.fst).Nodup)
    {entry : Text × Object} (h : entry ∈ objects) {call : CallObject}
    (hcall : entry.2.call = some call) : serialAt objects entry.1 = some call.serial := by
  unfold serialAt
  rw [objectAt_of_mem hkeys (show (entry.1, entry.2) ∈ objects from h)]
  simp [hcall]

/-- What has to hold of an act, given what happened before. -/
def Act.Due (before : List Act) : Act → Prop
  | .published calls true =>
    ∀ shown, .published shown true ∈ before → ∀ call ∈ calls, ∀ other ∈ shown,
      call.id = other.id → call.serial = other.serial
  | .served _ target serial true =>
    ∀ shown, .published shown true ∈ before → ∀ other ∈ shown,
      other.id = target → other.serial = serial
  | _ => True

/-- An await that holds neither a listing nor a command. -/
def Await.plain : Await → Bool
  | .moved _ _ _ | .verifying _ _ _ | .commanding _ _ _ => false
  | _ => true

/-- The call of an id that is not from before `seen` is the one at its path. -/
def System.Shown (s : System) (seen : ℕ) (call : Call) : Prop :=
  ∃ epoch path, call.id = callId epoch path ∧ epoch ≤ s.controller.epoch ∧
    (seen ≤ epoch → s.settled = true → serialAt s.service.objects path = some call.serial)

def System.Current (s : System) (seen : ℕ) (call : Call) : Prop :=
  ∃ epoch path, call.id = callId epoch path ∧ seen ≤ epoch ∧ epoch ≤ s.controller.epoch ∧
    (s.settled = true → serialAt s.service.objects path = some call.serial)

/-- The account of a run: `seen` is the epoch since which no signal was taken and no other owner
was seen. -/
structure Kept (seen : ℕ) (s : System) (acts : List Act) : Prop where
  keys : (s.service.objects.map Prod.fst).Nodup
  owner : ∀ owner, s.controller.busOwner = some owner → owner ≤ s.service.owner
  since : seen ≤ s.controller.epoch
  calls : ∀ call ∈ s.controller.calls, s.Current seen call
  moved : ∀ cause path all, s.controller.await = .moved cause path all → s.settled = true →
    ∀ entry ∈ all, ∀ call, entry.2.call = some call →
      serialAt s.service.objects entry.1 = some call.serial
  command : ∀ answer target path, s.controller.await = .verifying answer target path ∨
    s.controller.await = .commanding answer target path →
      ∃ epoch, target = callId epoch path ∧ seen ≤ epoch
  published : ∀ calls, .published calls true ∈ acts → ∀ call ∈ calls, s.Shown seen call
  due : Guarded Act.Due acts

theorem kept_start : Kept 0 {} [] := by
  refine ⟨List.nodup_nil, nofun, Nat.le_refl _, nofun, nofun, ?_, nofun, guarded_nil _⟩
  rintro answer target path (h | h) <;> cases h

variable {seen : ℕ} {s : System} {acts : List Act}

theorem System.Current.shown {call : Call} (h : s.Current seen call) : s.Shown seen call := by
  obtain ⟨epoch, path, hid, -, hepoch, hserial⟩ := h
  exact ⟨epoch, path, hid, hepoch, fun _ => hserial⟩

/-- Two calls under one id that both are at their path are the same. -/
theorem serial_eq {call other : Call} (hsettled : s.settled = true) (h : s.Current seen call)
    (hother : s.Shown seen other) (hid : call.id = other.id) : call.serial = other.serial := by
  obtain ⟨epoch, path, hcall, hseen, -, hserial⟩ := h
  obtain ⟨otherEpoch, otherPath, hshown, -, hat⟩ := hother
  rw [hcall, hshown] at hid
  obtain ⟨rfl, rfl⟩ := callId_injective hid
  have hfirst := hserial hsettled
  rw [hat hseen hsettled] at hfirst
  exact (Option.some.inj hfirst).symm

theorem kept_publish (h : Kept seen s acts) : Kept seen s (acts ++ s.publish.2) := by
  refine ⟨h.keys, h.owner, h.since, h.calls, h.moved, h.command, ?_, ?_⟩
  · intro calls hcalls call hcall
    rcases List.mem_append.1 hcalls with hcalls | hcalls
    · exact h.published calls hcalls call hcall
    · simp only [System.publish, List.mem_singleton, Act.published.injEq] at hcalls
      rw [hcalls.1] at hcall
      exact (h.calls call hcall).shown
  · refine guarded_concat.2 ⟨h.due, ?_⟩
    cases hsettled : s.settled with
    | false => trivial
    | true =>
      intro shown hshown call hcall other hother hid
      exact serial_eq hsettled (h.calls call hcall) (h.published shown hshown other hother) hid

/-- The service has changed, and the controller does not know it yet. -/
theorem kept_unsettled (h : Kept seen s acts) {service : Service} {arrived : ℕ}
    (hkeys : (service.objects.map Prod.fst).Nodup)
    (howner : s.service.owner ≤ service.owner)
    (hsettled : System.settled { s with
      service := service
      controller := { s.controller with arrived := arrived } } = false) :
    Kept seen { s with
      service := service
      controller := { s.controller with arrived := arrived } } acts := by
  have hnot : ∀ {P : Prop}, System.settled { s with
      service := service
      controller := { s.controller with arrived := arrived } } = true → P := by
    intro P h
    rw [hsettled] at h
    cases h
  refine ⟨hkeys, ?_, h.since, ?_, ?_, h.command, ?_, h.due⟩
  · exact fun owner hbus => Nat.le_trans (h.owner owner hbus) howner
  · intro call hcall
    obtain ⟨epoch, path, hid, hseen, hepoch, -⟩ := h.calls call hcall
    exact ⟨epoch, path, hid, hseen, hepoch, hnot⟩
  · exact fun _ _ _ _ => hnot
  · intro calls hcalls call hcall
    obtain ⟨epoch, path, hid, hepoch, -⟩ := h.published calls hcalls call hcall
    exact ⟨epoch, path, hid, hepoch, fun _ => hnot⟩

/-- Objects have changed, but which calls there are has not. -/
theorem kept_same (h : Kept seen s acts) {service : Service}
    (hkeys : (service.objects.map Prod.fst).Nodup) (howner : service.owner = s.service.owner)
    (htransit : service.transit = s.service.transit)
    (hserial : ∀ path, serialAt service.objects path = serialAt s.service.objects path) :
    Kept seen { s with service := service } acts := by
  have hsettled : System.settled { s with service := service } = s.settled := by
    unfold System.settled
    simp only [howner, htransit]
  refine ⟨hkeys, ?_, h.since, ?_, ?_, h.command, ?_, h.due⟩
  · intro owner hbus
    rw [howner]
    exact h.owner owner hbus
  · intro call hcall
    obtain ⟨epoch, path, hid, hseen, hepoch, hcurrent⟩ := h.calls call hcall
    exact ⟨epoch, path, hid, hseen, hepoch, fun hs => by rw [hserial, hcurrent (hsettled ▸ hs)]⟩
  · intro cause path all hawait hs entry hentry call hcall
    rw [hserial]
    exact h.moved cause path all hawait (hsettled ▸ hs) entry hentry call hcall
  · intro calls hcalls call hcall
    obtain ⟨epoch, path, hid, hepoch, hshown⟩ := h.published calls hcalls call hcall
    exact ⟨epoch, path, hid, hepoch,
      fun hseen hs => by rw [hserial, hshown hseen (hsettled ▸ hs)]⟩

/-- The controller has gone on, with what it knows of the service as it was. -/
theorem kept_go (h : Kept seen s acts) {controller : Controller}
    (harrived : controller.arrived = s.controller.arrived)
    (hbus : controller.busOwner = s.controller.busOwner)
    (hepoch : s.controller.epoch ≤ controller.epoch)
    (hcalls : ∀ call ∈ controller.calls,
      System.Current { s with controller := controller } seen call)
    (hmoved : ∀ cause path all, controller.await = .moved cause path all → s.settled = true →
      ∀ entry ∈ all, ∀ call, entry.2.call = some call →
        serialAt s.service.objects entry.1 = some call.serial)
    (hcommand : ∀ answer target path, controller.await = .verifying answer target path ∨
      controller.await = .commanding answer target path →
        ∃ epoch, target = callId epoch path ∧ seen ≤ epoch) :
    Kept seen (s.go controller).1 (acts ++ (s.go controller).2) := by
  have hsettled : System.settled { s with controller := controller } = s.settled := by
    unfold System.settled
    simp only [harrived, hbus]
  rw [show (s.go controller).2 = [] from rfl, List.append_nil]
  refine ⟨h.keys, ?_, Nat.le_trans h.since hepoch, hcalls, ?_, hcommand, ?_, h.due⟩
  · exact fun owner howner => h.owner owner (hbus ▸ howner)
  · exact fun cause path all hawait hs => hmoved cause path all hawait (hsettled ▸ hs)
  · intro calls hpublished call hcall
    obtain ⟨epoch, path, hid, hle, hshown⟩ := h.published calls hpublished call hcall
    exact ⟨epoch, path, hid, Nat.le_trans hle hepoch, fun hseen hs => hshown hseen (hsettled ▸ hs)⟩

/-- Steps of the controller that show no other calls than before. -/
structure Steady (c next : Controller) : Prop where
  arrived : next.arrived = c.arrived
  busOwner : next.busOwner = c.busOwner
  epoch : c.epoch ≤ next.epoch
  calls : ∀ call ∈ next.calls, call ∈ c.calls
  await : next.await.plain = true

theorem kept_steady (h : Kept seen s acts) {controller : Controller}
    (hsteady : Steady s.controller controller) :
    Kept seen (s.go controller).1 (acts ++ (s.go controller).2) := by
  refine kept_go h hsteady.arrived hsteady.busOwner hsteady.epoch ?_ ?_ ?_
  · intro call hcall
    obtain ⟨epoch, path, hid, hseen, hepoch, hcurrent⟩ := h.calls call (hsteady.calls call hcall)
    refine ⟨epoch, path, hid, hseen, Nat.le_trans hepoch hsteady.epoch, fun hs => hcurrent ?_⟩
    unfold System.settled at hs ⊢
    simpa only [hsteady.arrived, hsteady.busOwner] using hs
  · intro cause path all hawait
    have hplain := hsteady.await
    rw [hawait] at hplain
    cases hplain
  · rintro answer target path (hawait | hawait)
    · have hplain := hsteady.await
      rw [hawait] at hplain
      cases hplain
    · have hplain := hsteady.await
      rw [hawait] at hplain
      cases hplain

/-- Another epoch in which nothing is shown yet. -/
theorem kept_epoch (h : Kept seen s acts) {controller : Controller}
    (hbus : ∀ owner, controller.busOwner = some owner → owner ≤ s.service.owner)
    (hepoch : s.controller.epoch < controller.epoch) (hcalls : controller.calls = [])
    (hawait : controller.await.plain = true) :
    Kept controller.epoch { s with controller := controller } acts := by
  refine ⟨h.keys, hbus, Nat.le_refl _, ?_, ?_, ?_, ?_, h.due⟩
  · intro call hcall
    rw [hcalls] at hcall
    cases hcall
  · intro cause path all hmoved
    rw [show controller.await = _ from hmoved] at hawait
    cases hawait
  · rintro answer target path (hcommand | hcommand)
    · rw [show controller.await = _ from hcommand] at hawait
      cases hawait
    · rw [show controller.await = _ from hcommand] at hawait
      cases hawait
  · intro calls hpublished call hcall
    obtain ⟨epoch, path, hid, hle, -⟩ := h.published calls hpublished call hcall
    refine ⟨epoch, path, hid, Nat.le_trans hle (Nat.le_of_lt hepoch), fun hseen => ?_⟩
    omega

/-! ## The service -/

theorem settled_of_transit {service : Service} {controller : Controller}
    (h : service.transit ≠ 0 ∨ controller.arrived ≠ 0) :
    System.settled { s with service := service, controller := controller } = false := by
  unfold System.settled
  rcases h with h | h
  · simp [h]
  · simp [h]

theorem kept_added (h : Kept seen s acts) (path : Text) (address : Option Text)
    (call : Option (Option Text × Option Text × Option Text)) :
    Kept seen (s.added path address call) acts := by
  unfold System.added
  split
  · exact h
  · exact kept_unsettled h (Assoc.nodup_put h.keys) (Nat.le_refl _)
      (settled_of_transit (Or.inl (Nat.succ_ne_zero _)))

/-- A call whose properties change is the same call. -/
theorem kept_altered (h : Kept seen s acts) (path : Text) (state number name : Option Text) :
    Kept seen (s.altered path state number name) acts := by
  unfold System.altered
  split
  · next object hobject =>
    refine kept_same h (Assoc.nodup_put h.keys) rfl rfl ?_
    intro other
    unfold serialAt
    rw [show objectAt (Assoc.put s.service.objects path _) other = _ from Assoc.lookup_put]
    split
    · next hother =>
      rw [hother, hobject]
      cases hcall : object.call with
      | none => simp [hcall]
      | some call => simp [hcall]
    · rfl
  · exact h

theorem kept_restarted (h : Kept seen s acts) :
    Kept seen { s with service := { s.service with
      owner := s.service.owner + 1
      objects := [] } } acts := by
  refine kept_unsettled h List.nodup_nil (Nat.le_succ _) ?_
  have hbus : s.controller.busOwner ≠ some (s.service.owner + 1) := by
    intro hbus
    exact absurd (h.owner _ hbus) (Nat.not_succ_le_self _)
  unfold System.settled
  simp [hbus]

/-! ## The controller -/

theorem kept_permit (h : Kept seen s acts) (permitted : Bool) :
    Kept seen (s.go { s.controller with permitted := permitted }).1
      (acts ++ (s.go { s.controller with permitted := permitted }).2) :=
  kept_go h rfl rfl (Nat.le_refl _) h.calls h.moved h.command

theorem steady_ownerFailed (c : Controller) (cause : Cause) : Steady c (c.ownerFailed cause) :=
  ⟨rfl, rfl, Nat.le_refl _, nofun, rfl⟩

theorem steady_listingFailed (c : Controller) (cause : Cause) :
    Steady c (c.listingFailed cause) :=
  ⟨rfl, rfl, Nat.le_succ _, nofun, rfl⟩

theorem steady_await (c : Controller) {await : Await} (hawait : await.plain = true) :
    Steady c { c with await := await } :=
  ⟨rfl, rfl, Nat.le_refl _, fun _ h => h, hawait⟩

theorem steady_lost (c : Controller) (cause : Cause) (due : Bool) :
    Steady c (c.lost cause due) := by
  unfold Controller.lost
  simp only
  split
  · exact ⟨rfl, rfl, Nat.le_refl _, nofun, rfl⟩
  · split
    · exact ⟨rfl, rfl, Nat.le_refl _, nofun, rfl⟩
    · exact ⟨rfl, rfl, Nat.le_refl _, nofun, rfl⟩

theorem steady_prepared (c : Controller) (device : Text) : Steady c (c.prepared device) := by
  unfold Controller.prepared
  simp only
  split
  · exact ⟨rfl, rfl, Nat.le_refl _, fun _ h => h, rfl⟩
  · exact ⟨rfl, rfl, Nat.le_succ _, fun _ h => h, rfl⟩

theorem mem_of_mem_unless {p : Prop} [Decidable p] {calls : List Call} {call : Call}
    (h : call ∈ if p then [] else calls) : call ∈ calls := by
  split at h
  · cases h
  · exact h

theorem steady_concluded (c : Controller) (cause : Option Cause) (ok cleaned cancelled : Bool) :
    Steady c (c.concluded cause ok cleaned cancelled) := by
  unfold Controller.concluded
  split
  · exact ⟨rfl, rfl, Nat.le_refl _, fun _ h => h, rfl⟩
  · refine ⟨rfl, rfl, Nat.le_refl _, ?_, rfl⟩
    exact fun call => mem_of_mem_unless
  · exact ⟨rfl, rfl, Nat.le_refl _, fun _ h => h, rfl⟩

theorem mem_callOf {c : Controller} {entry : Text × Object} {call : Call}
    (h : c.callOf entry = some call) :
    ∃ object, entry.2.call = some object ∧ call = Call.make c.epoch entry.1 object := by
  unfold Controller.callOf at h
  split at h
  · rw [Option.map_eq_some_iff] at h
    obtain ⟨object, hobject, hcall⟩ := h
    exact ⟨object, hobject, hcall.symm⟩
  · cases h

/-- The calls of a listing are shown, as long as it is still right. -/
theorem kept_showCalls (h : Kept seen s acts) {c : Controller} (cause : Cause) (all : Objects)
    (harrived : c.arrived = s.controller.arrived) (hbus : c.busOwner = s.controller.busOwner)
    (hepoch : s.controller.epoch ≤ c.epoch)
    (hall : s.settled = true → ∀ entry ∈ all, ∀ call, entry.2.call = some call →
      serialAt s.service.objects entry.1 = some call.serial) :
    Kept seen (s.go (c.showCalls cause all)).1 (acts ++ (s.go (c.showCalls cause all)).2) := by
  refine kept_go h harrived hbus hepoch ?_ nofun ?_
  · intro call hcall
    obtain ⟨entry, hentry, hcallOf⟩ := List.mem_filterMap.1 (List.mem_of_mem_take hcall)
    obtain ⟨object, hobject, rfl⟩ := mem_callOf hcallOf
    refine ⟨c.epoch, entry.1, make_id _ _ _, Nat.le_trans h.since hepoch, Nat.le_refl _, ?_⟩
    intro hs
    refine hall ?_ entry hentry object hobject
    unfold System.settled at hs ⊢
    simpa only [Controller.showCalls, harrived, hbus] using hs
  · rintro answer target path (hawait | hawait) <;> cases hawait

theorem kept_listed (h : Kept seen s acts) (cause : Cause) {all : Objects}
    (hall : all.Perm s.service.objects) :
    Kept seen (s.go (s.controller.listed cause all)).1
      (acts ++ (s.go (s.controller.listed cause all)).2) := by
  have hright : ∀ entry ∈ all, ∀ call, entry.2.call = some call →
      serialAt s.service.objects entry.1 = some call.serial :=
    fun entry hentry call hcall => serialAt_of_mem h.keys (hall.mem_iff.1 hentry) hcall
  unfold Controller.listed
  simp only
  split
  · exact kept_steady h ⟨rfl, rfl, Nat.le_refl _, fun _ h => h, rfl⟩
  · split
    · exact kept_steady h ⟨rfl, rfl, Nat.le_refl _, fun _ h => h, rfl⟩
    · split
      · split
        · refine kept_go h rfl rfl (Nat.le_refl _) h.calls ?_ ?_
          · rintro _ _ _ ⟨⟩ -
            exact hright
          · rintro answer target path (hawait | hawait) <;> cases hawait
        · exact kept_showCalls h cause all rfl rfl (Nat.le_refl _) fun _ => hright
      · exact kept_steady h ⟨rfl, rfl, Nat.le_refl _, fun _ h => h, rfl⟩

/-- A command is prepared for the path of a call that is shown. -/
theorem kept_checked (h : Kept seen s acts) (answer : Bool) (target : Text) :
    Kept seen (s.go (s.controller.checked answer target)).1
      (acts ++ (s.go (s.controller.checked answer target)).2) := by
  unfold Controller.checked
  split
  · exact kept_steady h (steady_await _ rfl)
  · split
    · exact kept_steady h (steady_await _ rfl)
    · next call hfind =>
      split
      · refine kept_go h rfl rfl (Nat.le_refl _) h.calls nofun ?_
        obtain ⟨epoch, path, hid, hseen, -⟩ := h.calls call (List.mem_of_find?_eq_some hfind)
        have htarget : call.id = target := by simpa using List.find?_some hfind
        rintro _ _ _ (hawait | hawait)
        · cases hawait
          refine ⟨epoch, ?_, hseen⟩
          rw [hid, dropWhile_callId, ← hid]
          exact htarget.symm
        · cases hawait
      · exact kept_steady h (steady_await _ rfl)

theorem kept_verified (h : Kept seen s acts) {answer : Bool} {target path : Text}
    (hawait : s.controller.await = .verifying answer target path) (all : Objects) :
    Kept seen (s.go (s.controller.verified answer target path all)).1
      (acts ++ (s.go (s.controller.verified answer target path all)).2) := by
  unfold Controller.verified
  split
  · refine kept_go h rfl rfl (Nat.le_refl _) h.calls nofun ?_
    rintro _ _ _ (hcommand | hcommand)
    · cases hcommand
    · cases hcommand
      exact h.command answer target path (Or.inl hawait)
  · exact kept_steady h (steady_await _ rfl)

/-- Another owner of the name: another epoch. -/
theorem kept_checkOwner (h : Kept seen s acts) (hunknown : s.controller.busOwner ≠
    some s.service.owner) {await : Await} (hawait : await.plain = true) :
    Kept (s.controller.epoch + 1)
      (s.go { s.controller.checkOwner s.service.owner with await := await }).1
      (acts ++ (s.go { s.controller.checkOwner s.service.owner with await := await }).2) := by
  rw [show ∀ c, (s.go c).2 = [] from fun _ => rfl, List.append_nil]
  unfold Controller.checkOwner
  rw [if_neg hunknown]
  refine @kept_epoch seen s acts h { s.controller with
    epoch := s.controller.epoch + 1
    busOwner := some s.service.owner
    gateway := []
    calls := []
    await := await } ?_ (Nat.lt_succ_self _) rfl hawait
  rintro owner ⟨⟩
  exact Nat.le_refl _

theorem kept_ownerAnswered (h : Kept seen s acts) (ok : Bool) :
    ∃ next, Kept next (s.ownerAnswered ok).1 (acts ++ (s.ownerAnswered ok).2) := by
  unfold System.ownerAnswered
  simp only
  split
  · split
    · exact ⟨seen, kept_steady h (steady_ownerFailed _ _)⟩
    · split
      · exact ⟨seen, kept_steady h (steady_await _ rfl)⟩
      · next hunknown => exact ⟨_, kept_checkOwner h hunknown rfl⟩
  · split
    · exact ⟨seen, kept_steady h (steady_await _ rfl)⟩
    · split
      · exact ⟨seen, kept_checked h _ _⟩
      · next hunknown => exact ⟨_, kept_checkOwner h hunknown rfl⟩
  · rw [List.append_nil]
    exact ⟨seen, h⟩

theorem kept_silenced (h : Kept seen s acts) (ok due : Bool) :
    Kept seen (s.silenced ok due).1 (acts ++ (s.silenced ok due).2) := by
  unfold System.silenced
  simp only
  split
  · split
    · exact kept_steady h (steady_await _ rfl)
    · exact kept_steady h (steady_ownerFailed _ _)
  · split
    · exact kept_checked h _ _
    · exact kept_steady h (steady_await _ rfl)
  · split
    · exact kept_steady h (steady_lost _ _ _)
    · exact kept_steady h (steady_await _ rfl)
  · next cause path all hawait =>
    split
    · exact kept_showCalls h cause all rfl rfl (Nat.le_succ _) (h.moved cause path all hawait)
    · exact kept_steady h (steady_await _ rfl)
  · split
    · exact kept_steady h (steady_prepared _ _)
    · exact kept_steady h (steady_await _ rfl)
  · rwa [List.append_nil]

theorem kept_reply (h : Kept seen s acts) (reply : Option Objects) :
    Kept seen (s.listed reply).1 (acts ++ (s.listed reply).2) := by
  have hsame : Kept seen s (acts ++ []) := by rwa [List.append_nil]
  unfold System.listed
  simp only
  split
  · exact kept_steady h (steady_listingFailed _ _)
  · split
    · next hperm => exact kept_listed h _ hperm
    · exact hsame
  · exact kept_steady h (steady_await _ rfl)
  · next hawait =>
    split
    · exact kept_verified h hawait _
    · exact hsame
  · exact hsame

/-- The service executes the command on the call at its path: the one that was shown, if no
change is left out of account. -/
theorem kept_served (h : Kept seen s acts) (accepted : Bool) :
    Kept seen (s.served accepted).1 (acts ++ (s.served accepted).2) := by
  unfold System.served
  simp only
  split
  · next answer target path hawait =>
    split
    · next call hcall =>
      have hended := kept_steady h (steady_await s.controller (show Await.plain
        (.ending none accepted) = true from rfl))
      rw [show ∀ c, (s.go c).2 = [] from fun _ => rfl, List.append_nil] at hended
      refine ⟨hended.keys, hended.owner, hended.since, hended.calls, hended.moved, hended.command,
        ?_, guarded_concat.2 ⟨h.due, ?_⟩⟩
      · intro calls hcalls
        rcases List.mem_append.1 hcalls with hcalls | hcalls
        · exact hended.published calls hcalls
        · cases List.mem_singleton.1 hcalls
      · cases hsettled : s.settled with
        | false => trivial
        | true =>
          intro shown hshown other hother hid
          obtain ⟨epoch, htarget, hseen⟩ := h.command answer target path (Or.inr hawait)
          obtain ⟨otherEpoch, otherPath, hother, -, hat⟩ := h.published shown hshown other hother
          rw [hother, htarget] at hid
          obtain ⟨rfl, rfl⟩ := callId_injective hid
          have hserial := hat hseen hsettled
          rw [show serialAt s.service.objects otherPath = some call.serial by
            unfold serialAt
            rw [hcall]
            rfl] at hserial
          exact (Option.some.inj hserial).symm
    · exact kept_steady h (steady_await _ rfl)
  · rwa [List.append_nil]

theorem kept_quiet (h : Kept seen s acts) {late : List (Bool × Text)} {act : Act}
    (hpublished : ∀ calls settled, act ≠ .published calls settled) (hdue : act.Due acts) :
    Kept seen { s with late := late } (acts ++ [act]) := by
  refine ⟨h.keys, h.owner, h.since, h.calls, h.moved, h.command, ?_,
    guarded_concat.2 ⟨h.due, hdue⟩⟩
  intro calls hcalls
  rcases List.mem_append.1 hcalls with hcalls | hcalls
  · exact h.published calls hcalls
  · exact absurd (List.mem_singleton.1 hcalls).symm (hpublished calls true)

theorem kept_late (h : Kept seen s acts) (late : List (Bool × Text)) :
    Kept seen { s with late := late } acts :=
  ⟨h.keys, h.owner, h.since, h.calls, h.moved, h.command, h.published, h.due⟩

theorem kept_servedLate (h : Kept seen s acts) :
    Kept seen s.servedLate.1 (acts ++ s.servedLate.2) := by
  unfold System.servedLate
  split
  · rwa [List.append_nil]
  · split
    · exact kept_quiet h nofun trivial
    · rw [List.append_nil]
      exact kept_late h _

theorem kept_timeout (h : Kept seen s acts) :
    Kept seen s.timeout.1 (acts ++ s.timeout.2) := by
  unfold System.timeout
  simp only
  split
  iterate 2 rwa [List.append_nil]
  iterate 12 exact kept_steady h (steady_await _ rfl)
  have hended := kept_steady h (steady_await s.controller (show Await.plain
    (.ending none false) = true from rfl))
  exact kept_late hended _

theorem kept_take (h : Kept seen s acts) {controller : Controller}
    (hsteady : Steady s.controller controller) :
    Kept seen (s.take controller).1 (acts ++ (s.take controller).2) := by
  unfold System.take
  split
  · exact kept_steady h hsteady
  · rwa [List.append_nil]

theorem kept_steady_publish (h : Kept seen s acts) {controller : Controller}
    (hsteady : Steady s.controller controller) :
    Kept seen (System.publish { s with controller := controller }).1
      (acts ++ (System.publish { s with controller := controller }).2) := by
  have hkept := kept_steady h hsteady
  rw [show (s.go controller).2 = [] from rfl, List.append_nil] at hkept
  exact kept_publish hkept

theorem kept_step (h : Kept seen s acts) (event : Event) :
    ∃ next, Kept next (s.step event).1 (acts ++ (s.step event).2) := by
  have hsame : ∃ next, Kept next s (acts ++ []) := ⟨seen, by rwa [List.append_nil]⟩
  cases event with
  | added path address call =>
    refine ⟨seen, ?_⟩
    rw [show (s.step (.added path address call)).2 = [] from rfl, List.append_nil]
    exact kept_added h path address call
  | removed path =>
    simp only [System.step]
    split
    · refine ⟨seen, ?_⟩
      rw [List.append_nil]
      exact kept_unsettled h (Assoc.nodup_erase h.keys) (Nat.le_refl _)
        (settled_of_transit (Or.inl (Nat.succ_ne_zero _)))
    · exact hsame
  | altered path state number name =>
    refine ⟨seen, ?_⟩
    rw [show (s.step (.altered path state number name)).2 = [] from rfl, List.append_nil]
    exact kept_altered h path state number name
  | restarted =>
    refine ⟨seen, ?_⟩
    rw [show (s.step .restarted).2 = [] from rfl, List.append_nil]
    exact kept_restarted h
  | arrive =>
    simp only [System.step]
    split
    · exact hsame
    · refine ⟨seen, ?_⟩
      rw [List.append_nil]
      exact kept_unsettled h h.keys (Nat.le_refl _)
        (settled_of_transit (Or.inr (Nat.succ_ne_zero _)))
  | permit permitted => exact ⟨seen, kept_permit h permitted⟩
  | signal =>
    simp only [System.step]
    split
    · next hidle =>
      refine ⟨_, kept_publish (kept_epoch h h.owner (Nat.lt_succ_self _) rfl ?_)⟩
      rw [hidle.1]
      rfl
    · exact hsame
  | cancel =>
    simp only [System.step]
    split
    · next hidle =>
      refine ⟨seen, kept_steady_publish h ⟨rfl, rfl, Nat.le_refl _, fun _ h => h, ?_⟩⟩
      rw [hidle]
      rfl
    · exact hsame
  | tick => exact ⟨seen, kept_take h (steady_await _ rfl)⟩
  | connect device => exact ⟨seen, kept_take h (steady_await _ rfl)⟩
  | audio => exact ⟨seen, kept_take h (steady_await _ rfl)⟩
  | disconnect =>
    exact ⟨seen, kept_take h ⟨rfl, rfl, Nat.le_refl _, fun _ h => h, rfl⟩⟩
  | command answer target => exact ⟨seen, kept_take h (steady_await _ rfl)⟩
  | ownerAnswered ok => exact kept_ownerAnswered h ok
  | silenced ok due => exact ⟨seen, kept_silenced h ok due⟩
  | listed reply => exact ⟨seen, kept_reply h reply⟩
  | tried result =>
    simp only [System.step, System.tried]
    split
    · exact ⟨seen, kept_steady h (steady_await _ rfl)⟩
    · exact ⟨seen, kept_steady h (steady_await _ rfl)⟩
    · exact ⟨seen, kept_steady h ⟨rfl, rfl, Nat.le_refl _, fun _ h => h, rfl⟩⟩
    · exact ⟨seen, kept_steady h (steady_await _ rfl)⟩
    · exact hsame
  | routed ok =>
    simp only [System.step]
    split
    · exact ⟨seen, kept_steady h (steady_await _ rfl)⟩
    · exact hsame
  | disconnected ok =>
    simp only [System.step, System.disconnected]
    split
    · split
      · exact ⟨seen, kept_steady h ⟨rfl, rfl, Nat.le_refl _, nofun, rfl⟩⟩
      · exact ⟨seen, kept_steady h (steady_await _ rfl)⟩
    · exact hsame
  | served accepted => exact ⟨seen, kept_served h accepted⟩
  | servedLate => exact ⟨seen, kept_servedLate h⟩
  | timeout => exact ⟨seen, kept_timeout h⟩
  | concluded cleaned cancelled =>
    simp only [System.step]
    split
    · exact ⟨seen, kept_steady_publish h (steady_concluded _ _ _ _ _)⟩
    · exact hsame

namespace System

/-- In every interleaving of the service, its restarts, signals on their way, ticks, requests and
timeouts: whenever nothing is left out of account, no id is published for two calls, and an answer
or a hangup that is executed for an id is that of the call that was published under it. -/
theorem commands_reach_shown (events : List Event) :
    Guarded Act.Due ((run step {} events).2.flatMap Prod.snd) := by
  obtain ⟨seen, hkept⟩ := run_history step
    (I := fun s history => ∃ seen, Kept seen s (history.flatMap Prod.snd)) ⟨0, kept_start⟩
    (fun s history event h => by
      obtain ⟨seen, hkept⟩ := h
      rw [List.flatMap_append, List.flatMap_singleton]
      exact kept_step hkept event) events
  exact hkept.due

/-- A call is shown and answered; then another one takes its path. -/
example :
    let gateway : Text × Object := ("/g".toList, { address := some "AA".toList })
    let call : Text × Object := ("/g/c".toList, { call := some ⟨1, none, none, none⟩ })
    let shown : Call := Call.make 5 "/g/c".toList ⟨1, none, none, none⟩
    let first : List Event := [.permit true, .added "/g".toList (some "AA".toList) none,
      .added "/g/c".toList none (some (none, none, none)), .arrive, .arrive, .signal, .signal,
      .connect "hci0/aa".toList, .silenced true false, .ownerAnswered true, .silenced true false,
      .listed (some [call, gateway]), .silenced true false, .routed true, .concluded true false]
    let answered : List Event := [.command true shown.id, .ownerAnswered true,
      .listed (some [gateway, call]), .served true, .concluded true false]
    let replaced : List Event := [.removed "/g/c".toList,
      .added "/g/c".toList none (some (none, none, none)), .arrive, .arrive, .signal, .signal,
      .command true shown.id, .ownerAnswered true, .listed (some [gateway, call]), .served true]
    (run step {} (first ++ answered)).2.flatMap Prod.snd =
        [.published [] false, .published [] false, .published [shown] true,
          .served true shown.id 1 true, .published [shown] true] ∧
      (run step {} (first ++ replaced)).2.flatMap Prod.snd =
        [.published [] false, .published [] false, .published [shown] true,
          .published [] false, .published [] true] := by
  decide +kernel

end System
end ProjectArgo.Connectivity.Calls
