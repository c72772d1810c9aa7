import ProjectArgo.Library.Assoc
import ProjectArgo.Library.Run
import ProjectArgo.Projection.CarPlayStatus

/-!
# The order of CarPlay statuses

The backend asks for a status at intervals and after each command, on a connection of its own each
time. Nothing tells one call of the other calls: a status is published when its call comes to the
end, whichever statuses the daemon has produced since.
-/
namespace ProjectArgo.Projection.CarPlayProjectionBackend

open Library (Json Double)
open Library.Run

/-! ## The backend and its calls -/

abbrev Reply := Except Thrown Status

/-- Where a call stands. A status has a number from when the daemon produces it. -/
inductive Phase
  | commanding
  | asking
  | answered (number : ℕ) (reply : Reply)
  | muting (number : ℕ) (data : Status) (policy : ℤ × Bool)
  | sourcing (number : ℕ) (data : Status) (selection : ℤ × String)

/-- A call of `_poll`, or of `activate` or `disconnect`. -/
structure Call where
  polls : Bool
  phase : Phase

/-- The callbacks: whether the microphone is muted, and the one that is selected. -/
structure Callbacks where
  microphoneMuted : Option Bool
  selectedMicrophone : Option String

/-- The backend, with what the daemon has produced, and how many of these statuses there are up to
the one that has been published last. -/
structure Backend where
  current : ProjectionSnapshot := .disabled
  nativeSession : Option ℤ := none
  sentMicrophonePolicy : Option (ℤ × Bool) := none
  sentMicrophoneSource : Option (ℤ × String) := none
  polling : Option ℕ := none
  calls : List (ℕ × Call) := []
  nextCall : ℕ := 0
  produced : List Reply := []
  published : ℕ := 0

namespace Backend

variable (one : Double → Bool) (backend : Backend)

def start (call : Call) : Backend :=
  { backend with
    calls := Library.Assoc.put backend.calls backend.nextCall call
    nextCall := backend.nextCall + 1
    polling := if call.polls then some backend.nextCall else backend.polling }

def move (key : ℕ) (call : Call) (phase : Phase) : Backend :=
  { backend with calls := Library.Assoc.put backend.calls key { call with phase := phase } }

/-- A call is complete. -/
def finish (key : ℕ) (call : Call) : Backend :=
  { backend with
    calls := Library.Assoc.erase backend.calls key
    polling := if call.polls then none else backend.polling }

/-- `_poll` starts no second call. -/
def poll : Backend :=
  match backend.polling with
  | none => backend.start ⟨true, .asking⟩
  | some _ => backend

/-- `activate` and `disconnect`, which are for the current session only. -/
def command (sessionId : String) : Backend :=
  match backend.nativeSession with
  | some id => if sessionId = toString id then backend.start ⟨false, .commanding⟩ else backend
  | none => backend

/-- The end of `_refresh`, with what has become of a status. -/
def conclude (key : ℕ) (call : Call) (published : ℕ)
    (outcome : Except Thrown (ℤ × ProjectionSnapshot)) : Backend :=
  match outcome with
  | .ok (id, snapshot) =>
    { backend with nativeSession := some id, current := snapshot, published := published }.finish
      key call
  | .error thrown =>
    { backend with
      nativeSession := none
      current := unavailable thrown
      published := published }.finish key call

def sourceRequest (data : Status) (callbacks : Callbacks) : Option (ℤ × String) :=
  match isInt (get data "session"), callbacks.selectedMicrophone with
  | some session, some source =>
    if isTrue (get data "available") && isTrue (get data "microphone_source") &&
        !source.isEmpty then
      some (session, source)
    else none
  | _, _ => none

/-- The microphone is selected where it has not been, and the status is taken apart. -/
def select (key : ℕ) (call : Call) (number : ℕ) (data : Status) (callbacks : Callbacks) :
    Backend :=
  match sourceRequest data callbacks with
  | some selection =>
    if backend.sentMicrophoneSource = some selection then
      backend.conclude key call (number + 1) (snapshotOf one data)
    else backend.move key call (.sourcing number data selection)
  | none => backend.conclude key call (number + 1) (snapshotOf one data)

def policyRequest (data : Status) (callbacks : Callbacks) : Option (ℤ × Bool) :=
  match callbacks.microphoneMuted, isInt (get data "session") with
  | some muted, some session =>
    if isTrue (get data "available") && isOne one (get data "contract") &&
        isTrue (get data "microphone_policy") then
      some (session, muted)
    else none
  | _, _ => none

/-- The first half of `_refresh`, from the reply on. -/
def mute (key : ℕ) (call : Call) (number : ℕ) (data : Status) (callbacks : Callbacks) :
    Backend :=
  match policyRequest one data callbacks with
  | some policy =>
    if backend.sentMicrophonePolicy = some policy then
      backend.select one key call number data callbacks
    else backend.move key call (.muting number data policy)
  | none => backend.select one key call number data callbacks

/-- The reply to a command. -/
def obeyed (key : ℕ) (result : Except Thrown Unit) : Backend :=
  match backend.calls.lookup key with
  | some ⟨polls, .commanding⟩ =>
    match result with
    | .ok () => backend.move key ⟨polls, .commanding⟩ .asking
    | .error _ => backend.finish key ⟨polls, .commanding⟩
  | _ => backend

/-- The daemon produces a status. -/
def answer (key : ℕ) (reply : Reply) : Backend :=
  match backend.calls.lookup key with
  | some ⟨polls, .asking⟩ =>
    { backend.move key ⟨polls, .asking⟩ (.answered backend.produced.length reply) with
      produced := backend.produced ++ [reply] }
  | _ => backend

/-- A status is delivered to the call that awaits it. -/
def deliver (key : ℕ) (callbacks : Callbacks) : Backend :=
  match backend.calls.lookup key with
  | some ⟨polls, .answered number reply⟩ =>
    match reply with
    | .ok data => backend.mute one key ⟨polls, .answered number reply⟩ number data callbacks
    | .error thrown =>
      backend.conclude key ⟨polls, .answered number reply⟩ (number + 1) (.error thrown)
  | _ => backend

/-- The reply to a request about the microphone. -/
def settled (key : ℕ) (result : Except Thrown Unit) (callbacks : Callbacks) : Backend :=
  match backend.calls.lookup key with
  | some ⟨polls, .muting number data policy⟩ =>
    match result with
    | .ok () =>
      { backend with sentMicrophonePolicy := some policy }.select one key
        ⟨polls, .muting number data policy⟩ number data callbacks
    | .error thrown =>
      backend.conclude key ⟨polls, .muting number data policy⟩ (number + 1) (.error thrown)
  | some ⟨polls, .sourcing number data selection⟩ =>
    match result with
    | .ok () =>
      { backend with sentMicrophoneSource := some selection }.conclude key
        ⟨polls, .sourcing number data selection⟩ (number + 1) (snapshotOf one data)
    | .error thrown =>
      backend.conclude key ⟨polls, .sourcing number data selection⟩ (number + 1) (.error thrown)
  | _ => backend

/-- A request fails, and no reply is delivered. -/
def lost (key : ℕ) (thrown : Thrown) : Backend :=
  match backend.calls.lookup key with
  | some ⟨polls, .commanding⟩ => backend.finish key ⟨polls, .commanding⟩
  | some call => backend.conclude key call backend.published (.error thrown)
  | none => backend

end Backend

inductive Event
  | poll
  | command (sessionId : String)
  | obeyed (key : ℕ) (result : Except Thrown Unit)
  | answer (key : ℕ) (reply : Reply)
  | deliver (key : ℕ) (callbacks : Callbacks)
  | settled (key : ℕ) (result : Except Thrown Unit) (callbacks : Callbacks)
  | lost (key : ℕ) (thrown : Thrown)

def step (one : Double → Bool) (backend : Backend) : Event → Backend
  | .poll => backend.poll
  | .command sessionId => backend.command sessionId
  | .obeyed key result => backend.obeyed key result
  | .answer key reply => backend.answer key reply
  | .deliver key callbacks => backend.deliver one key callbacks
  | .settled key result callbacks => backend.settled one key result callbacks
  | .lost key thrown => backend.lost key thrown

/-- The step as one of a machine without output. -/
def machine (one : Double → Bool) (backend : Backend) (event : Event) : Backend × Unit :=
  (step one backend event, ())

def after (one : Double → Bool) (events : List Event) : Backend := (run (machine one) {} events).1

/-! ## Statuses one after another -/

/-- The status that a call holds and has not published yet. -/
def Phase.number : Phase → Option ℕ
  | .commanding => none
  | .asking => none
  | .answered number _ => some number
  | .muting number _ _ => some number
  | .sourcing number _ _ => some number

/-- A call holds what the daemon has produced. -/
def Phase.Holds (produced : List Reply) : Phase → Prop
  | .commanding => True
  | .asking => True
  | .answered number reply => produced[number]? = some reply
  | .muting number data _ => produced[number]? = some (.ok data)
  | .sourcing number data _ => produced[number]? = some (.ok data)

/-- The snapshot of a status. -/
def shown (one : Double → Bool) : Reply → ProjectionSnapshot
  | .ok data =>
    match snapshotOf one data with
    | .ok (_, snapshot) => snapshot
    | .error thrown => unavailable thrown
  | .error thrown => unavailable thrown

/-- What is published of a status: its snapshot, or that a request about the microphone that it
gave rise to was refused. -/
def Shows (one : Double → Bool) (reply : Reply) (snapshot : ProjectionSnapshot) : Prop :=
  snapshot = shown one reply ∨ ∃ data thrown, reply = .ok data ∧ snapshot = unavailable thrown

/-- Every request gets its reply, and the daemon produces no status while another one is still on
its way. -/
def Orderly (backend : Backend) : Event → Prop
  | .answer _ _ => ∀ entry ∈ backend.calls, entry.2.phase.number = none
  | .lost _ _ => False
  | _ => True

instance (backend : Backend) : DecidablePred (Orderly backend)
  | .answer _ _ => inferInstanceAs (Decidable (∀ entry ∈ backend.calls, _))
  | .lost _ _ => inferInstanceAs (Decidable False)
  | .poll => inferInstanceAs (Decidable True)
  | .command _ => inferInstanceAs (Decidable True)
  | .obeyed _ _ => inferInstanceAs (Decidable True)
  | .deliver _ _ => inferInstanceAs (Decidable True)
  | .settled _ _ _ => inferInstanceAs (Decidable True)

namespace Backend

variable {one : Double → Bool} {backend next : Backend} {key number : ℕ} {call : Call}

/-- The status that a key holds. -/
def holds (backend : Backend) (key : ℕ) : Option ℕ :=
  (backend.calls.lookup key).bind (·.phase.number)

structure Inv (one : Double → Bool) (backend : Backend) : Prop where
  fresh : ∀ key, backend.nextCall ≤ key → backend.calls.lookup key = none
  replies : ∀ key call, backend.calls.lookup key = some call → call.phase.Holds backend.produced
  order : (∀ key, backend.holds key = none) ∧ backend.published = backend.produced.length ∨
    ∃ key number, backend.holds key = some number ∧
      (∀ other, other ≠ key → backend.holds other = none) ∧ backend.published = number ∧
      backend.produced.length = number + 1
  shows : ∀ number, backend.published = number + 1 →
    ∃ reply, backend.produced[number]? = some reply ∧ Shows one reply backend.current

theorem lookup_lt (h : backend.Inv one) (hlookup : backend.calls.lookup key = some call) :
    key < backend.nextCall := by
  by_contra hfresh
  exact nomatch (h.fresh key (Nat.le_of_not_lt hfresh)).symm.trans hlookup

theorem holds_of_lookup (hlookup : backend.calls.lookup key = some call) :
    backend.holds key = call.phase.number := by
  rw [holds, hlookup]
  rfl

/-- A call moves on, with the status that it has held before. -/
theorem Inv.put (h : backend.Inv one) (hcalls : next.calls = Library.Assoc.put backend.calls key call)
    (hkey : key < next.nextCall) (hnext : backend.nextCall ≤ next.nextCall)
    (hholds : call.phase.number = backend.holds key) (hreply : call.phase.Holds backend.produced)
    (hsame : next.produced = backend.produced ∧ next.published = backend.published ∧
      next.current = backend.current) : next.Inv one := by
  obtain ⟨hproduced, hpublished, hcurrent⟩ := hsame
  have hview (other : ℕ) : next.holds other = backend.holds other := by
    rw [holds, hcalls, Library.Assoc.lookup_put]
    split
    · rename_i heq
      rw [heq]
      exact hholds
    · rfl
  constructor
  · intro other hfresh
    rw [hcalls, Library.Assoc.lookup_put, if_neg (Nat.ne_of_gt (Nat.lt_of_lt_of_le hkey hfresh))]
    exact h.fresh other (Nat.le_trans hnext hfresh)
  · intro other found hfound
    rw [hproduced]
    rw [hcalls, Library.Assoc.lookup_put] at hfound
    split at hfound
    · cases hfound
      exact hreply
    · exact h.replies other found hfound
  · simp only [hview, hproduced, hpublished]
    exact h.order
  · rw [hproduced, hpublished, hcurrent]
    exact h.shows

/-- A call is over that holds no status. -/
theorem Inv.erase (h : backend.Inv one) (hcalls : next.calls = Library.Assoc.erase backend.calls key)
    (hnext : next.nextCall = backend.nextCall) (hholds : backend.holds key = none)
    (hsame : next.produced = backend.produced ∧ next.published = backend.published ∧
      next.current = backend.current) : next.Inv one := by
  obtain ⟨hproduced, hpublished, hcurrent⟩ := hsame
  have hview (other : ℕ) : next.holds other = backend.holds other := by
    rw [holds, hcalls, Library.Assoc.lookup_erase]
    split
    · rename_i heq
      rw [heq, hholds]
      rfl
    · rfl
  constructor
  · intro other hfresh
    rw [hcalls, Library.Assoc.lookup_erase, h.fresh other (hnext ▸ hfresh), ite_self]
  · intro other found hfound
    rw [hproduced]
    rw [hcalls, Library.Assoc.lookup_erase] at hfound
    split at hfound
    · exact nomatch hfound
    · exact h.replies other found hfound
  · simp only [hview, hproduced, hpublished]
    exact h.order
  · rw [hproduced, hpublished, hcurrent]
    exact h.shows

/-- A call publishes the status that it holds, which is the last one, and is over. -/
theorem Inv.publish (h : backend.Inv one) {reply : Reply}
    (hcalls : next.calls = Library.Assoc.erase backend.calls key)
    (hnext : next.nextCall = backend.nextCall) (hholds : backend.holds key = some number)
    (hreply : backend.produced[number]? = some reply) (hproduced : next.produced = backend.produced)
    (hpublished : next.published = number + 1) (hshows : Shows one reply next.current) :
    next.Inv one ∧ backend.published ≤ next.published := by
  obtain ⟨hothers, hbefore, hlength⟩ : (∀ other, other ≠ key → backend.holds other = none) ∧
      backend.published = number ∧ backend.produced.length = number + 1 := by
    rcases h.order with ⟨hnone, -⟩ | ⟨last, found, hlast, hothers, hbefore, hlength⟩
    · exact nomatch (hnone key).symm.trans hholds
    · have heq : last = key := by
        by_contra hne
        exact nomatch (hothers key (Ne.symm hne)).symm.trans hholds
      subst heq
      obtain rfl : found = number := Option.some.inj (hlast.symm.trans hholds)
      exact ⟨hothers, hbefore, hlength⟩
  refine ⟨?_, by rw [hbefore, hpublished]; exact Nat.le_succ _⟩
  constructor
  · intro other hfresh
    rw [hcalls, Library.Assoc.lookup_erase, h.fresh other (hnext ▸ hfresh), ite_self]
  · intro other found hfound
    rw [hproduced]
    rw [hcalls, Library.Assoc.lookup_erase] at hfound
    split at hfound
    · exact nomatch hfound
    · exact h.replies other found hfound
  · refine Or.inl ⟨fun other => ?_, by rw [hpublished, hproduced, hlength]⟩
    rw [holds, hcalls, Library.Assoc.lookup_erase]
    split
    · rfl
    · rename_i hne
      exact hothers other hne
  · intro last hlast
    rw [hpublished] at hlast
    obtain rfl := Nat.succ.inj hlast
    rw [hproduced]
    exact ⟨reply, hreply, hshows⟩

theorem shows_outcome (data : Status) (id : ℤ) (snapshot : ProjectionSnapshot)
    (h : snapshotOf one data = .ok (id, snapshot)) : Shows one (.ok data) snapshot := by
  refine Or.inl ?_
  rw [shown, h]

/-- A refresh that fails. -/
theorem Inv.conclude_error (h : backend.Inv one) {reply : Reply} {thrown : Thrown}
    (hholds : backend.holds key = some number) (hreply : backend.produced[number]? = some reply)
    (hshows : Shows one reply (unavailable thrown)) :
    (backend.conclude key call (number + 1) (.error thrown)).Inv one ∧
      backend.published ≤
        (backend.conclude key call (number + 1) (.error thrown)).published :=
  h.publish rfl rfl hholds hreply rfl rfl hshows

/-- A refresh that takes the status apart. -/
theorem Inv.conclude_data (h : backend.Inv one) {data : Status}
    (hholds : backend.holds key = some number)
    (hreply : backend.produced[number]? = some (.ok data)) :
    (backend.conclude key call (number + 1) (snapshotOf one data)).Inv one ∧
      backend.published ≤
        (backend.conclude key call (number + 1) (snapshotOf one data)).published := by
  cases houtcome : snapshotOf one data with
  | ok result =>
    obtain ⟨id, snapshot⟩ := result
    exact h.publish rfl rfl hholds hreply rfl rfl (shows_outcome data id snapshot houtcome)
  | error thrown =>
    refine h.conclude_error hholds hreply (Or.inl ?_)
    rw [shown, houtcome]

/-- What has been sent to the daemon is of no account. -/
theorem Inv.of_sent (h : backend.Inv one) (hcalls : next.calls = backend.calls)
    (hnext : next.nextCall = backend.nextCall) (hproduced : next.produced = backend.produced)
    (hpublished : next.published = backend.published) (hcurrent : next.current = backend.current) :
    next.Inv one := by
  have hview (other : ℕ) : next.holds other = backend.holds other := by
    rw [holds, holds, hcalls]
  constructor
  · rw [hcalls, hnext]
    exact h.fresh
  · rw [hcalls, hproduced]
    exact h.replies
  · simp only [hview, hproduced, hpublished]
    exact h.order
  · rw [hproduced, hpublished, hcurrent]
    exact h.shows

theorem Inv.move (h : backend.Inv one) (hlookup : backend.calls.lookup key = some call)
    {phase : Phase} (hnumber : phase.number = call.phase.number)
    (hreply : phase.Holds backend.produced) : (backend.move key call phase).Inv one := by
  have hlt := lookup_lt h hlookup
  have hholds := holds_of_lookup hlookup
  exact h.put rfl hlt (Nat.le_refl _) (hnumber.trans hholds.symm) hreply ⟨rfl, rfl, rfl⟩

theorem Inv.select (h : backend.Inv one) (hlookup : backend.calls.lookup key = some call)
    {data : Status} (hnumber : call.phase.number = some number)
    (hreply : backend.produced[number]? = some (.ok data)) (callbacks : Callbacks) :
    (backend.select one key call number data callbacks).Inv one ∧
      backend.published ≤ (backend.select one key call number data callbacks).published := by
  have hholds := (holds_of_lookup hlookup).trans hnumber
  unfold Backend.select
  split
  · split
    · exact h.conclude_data hholds hreply
    · exact ⟨h.move hlookup hnumber.symm hreply, Nat.le_refl _⟩
  · exact h.conclude_data hholds hreply

theorem Inv.mute (h : backend.Inv one) (hlookup : backend.calls.lookup key = some call)
    {data : Status} (hnumber : call.phase.number = some number)
    (hreply : backend.produced[number]? = some (.ok data)) (callbacks : Callbacks) :
    (backend.mute one key call number data callbacks).Inv one ∧
      backend.published ≤ (backend.mute one key call number data callbacks).published := by
  unfold Backend.mute
  split
  · split
    · exact h.select hlookup hnumber hreply callbacks
    · exact ⟨h.move hlookup hnumber.symm hreply, Nat.le_refl _⟩
  · exact h.select hlookup hnumber hreply callbacks

theorem Inv.start (h : backend.Inv one) (hnumber : call.phase.number = none)
    (hreply : call.phase.Holds backend.produced) : (backend.start call).Inv one := by
  refine h.put rfl (Nat.lt_succ_self _) (Nat.le_succ _) ?_ hreply ⟨rfl, rfl, rfl⟩
  rw [hnumber, holds, h.fresh _ (Nat.le_refl _)]
  rfl

/-- The daemon produces a status while no other is on its way. -/
theorem Inv.answer (h : backend.Inv one) {polls : Bool}
    (hlookup : backend.calls.lookup key = some ⟨polls, .asking⟩) (reply : Reply)
    (hnone : ∀ other, backend.holds other = none) :
    Inv one { backend.move key ⟨polls, .asking⟩ (.answered backend.produced.length reply) with
      produced := backend.produced ++ [reply] } := by
  have hpublished : backend.published = backend.produced.length := by
    rcases h.order with ⟨-, hpublished⟩ | ⟨last, found, hlast, -⟩
    · exact hpublished
    · exact nomatch (hnone last).symm.trans hlast
  have hkept {number : ℕ} {old : Reply} (hold : backend.produced[number]? = some old) :
      (backend.produced ++ [reply])[number]? = some old := by
    rw [List.getElem?_append_left (List.getElem?_eq_some_iff.mp hold).1]
    exact hold
  constructor
  · intro other hfresh
    change (Library.Assoc.put backend.calls key _).lookup other = none
    rw [Library.Assoc.lookup_put, if_neg]
    · exact h.fresh other hfresh
    · exact Nat.ne_of_gt (Nat.lt_of_lt_of_le (lookup_lt h hlookup) hfresh)
  · intro other found hfound
    change (Library.Assoc.put backend.calls key _).lookup other = some found at hfound
    rw [Library.Assoc.lookup_put] at hfound
    split at hfound
    · cases hfound
      change (backend.produced ++ [reply])[backend.produced.length]? = some reply
      exact List.getElem?_concat_length
    · have hreply := h.replies other found hfound
      obtain ⟨polls, phase⟩ := found
      cases phase with
      | commanding => trivial
      | asking => trivial
      | answered number old => exact hkept hreply
      | muting number data policy => exact hkept hreply
      | sourcing number data selection => exact hkept hreply
  · refine Or.inr ⟨key, backend.produced.length, ?_, fun other hne => ?_, hpublished, ?_⟩
    · change ((Library.Assoc.put backend.calls key _).lookup key).bind _ = _
      rw [Library.Assoc.lookup_put, if_pos rfl]
      rfl
    · change ((Library.Assoc.put backend.calls key _).lookup other).bind _ = _
      rw [Library.Assoc.lookup_put, if_neg hne]
      exact hnone other
    · exact List.length_append
  · intro number hnumber
    obtain ⟨old, hold, hshows⟩ := h.shows number hnumber
    exact ⟨old, hkept hold, hshows⟩

/-- One step. -/
theorem Inv.step (h : backend.Inv one) (event : Event) (horderly : Orderly backend event) :
    (step one backend event).Inv one ∧
      backend.published ≤ (CarPlayProjectionBackend.step one backend event).published := by
  cases event with
  | poll =>
    simp only [CarPlayProjectionBackend.step, Backend.poll]
    split
    · exact ⟨h.start rfl trivial, Nat.le_refl _⟩
    · exact ⟨h, Nat.le_refl _⟩
  | command sessionId =>
    simp only [CarPlayProjectionBackend.step, Backend.command]
    split
    · split
      · exact ⟨h.start rfl trivial, Nat.le_refl _⟩
      · exact ⟨h, Nat.le_refl _⟩
    · exact ⟨h, Nat.le_refl _⟩
  | obeyed key result =>
    simp only [CarPlayProjectionBackend.step, Backend.obeyed]
    split
    · rename_i polls hlookup
      cases result with
      | ok _ => exact ⟨h.move hlookup rfl trivial, Nat.le_refl _⟩
      | error thrown =>
        exact ⟨h.erase rfl rfl (holds_of_lookup hlookup) ⟨rfl, rfl, rfl⟩, Nat.le_refl _⟩
    · exact ⟨h, Nat.le_refl _⟩
  | answer key reply =>
    have hnone (other : ℕ) : backend.holds other = none := by
      rw [holds]
      cases hlookup : backend.calls.lookup other with
      | none => rfl
      | some call => exact horderly _ (Library.Assoc.mem_of_lookup hlookup)
    simp only [CarPlayProjectionBackend.step, Backend.answer]
    split
    · rename_i polls hlookup
      exact ⟨h.answer hlookup reply hnone, Nat.le_refl _⟩
    · exact ⟨h, Nat.le_refl _⟩
  | deliver key callbacks =>
    simp only [CarPlayProjectionBackend.step, Backend.deliver]
    split
    · rename_i polls number reply hlookup
      have hreply := h.replies key _ hlookup
      cases reply with
      | ok data => exact h.mute hlookup rfl hreply callbacks
      | error thrown =>
        exact h.conclude_error (holds_of_lookup hlookup) hreply (Or.inl rfl)
    · exact ⟨h, Nat.le_refl _⟩
  | settled key result callbacks =>
    simp only [CarPlayProjectionBackend.step, Backend.settled]
    split
    · rename_i polls number data policy hlookup
      have hreply := h.replies key _ hlookup
      cases result with
      | ok _ =>
        have hsent : Inv one { backend with sentMicrophonePolicy := some policy } :=
          h.of_sent rfl rfl rfl rfl rfl
        exact hsent.select hlookup rfl hreply callbacks
      | error thrown =>
        exact h.conclude_error (holds_of_lookup hlookup) hreply (Or.inr ⟨data, thrown, rfl, rfl⟩)
    · rename_i polls number data selection hlookup
      have hreply := h.replies key _ hlookup
      cases result with
      | ok _ =>
        have hsent : Inv one { backend with sentMicrophoneSource := some selection } :=
          h.of_sent rfl rfl rfl rfl rfl
        exact hsent.conclude_data (holds_of_lookup hlookup) hreply
      | error thrown =>
        exact h.conclude_error (holds_of_lookup hlookup) hreply (Or.inr ⟨data, thrown, rfl, rfl⟩)
    · exact ⟨h, Nat.le_refl _⟩
  | lost key thrown => exact horderly.elim

theorem inv_start : Backend.Inv one {} where
  fresh _ _ := rfl
  replies _ _ h := nomatch h
  order := Or.inl ⟨fun _ => rfl, rfl⟩
  shows _ h := nomatch h

end Backend

variable {one : Double → Bool}

theorem after_concat (one : Double → Bool) (events : List Event) (event : Event) :
    after one (events ++ [event]) = step one (after one events) event := by
  rw [after, run_concat]
  rfl

theorem after_inv (events : List Event) (h : Along (machine one) Orderly {} events) :
    (after one events).Inv one := by
  refine along_induction (machine one) (I := fun events => (after one events).Inv one)
    Backend.inv_start (fun events event ih horderly => ?_) events h
  rw [after_concat]
  exact (ih.step event horderly).1

/-- What has been published once is never followed by anything older. -/
theorem published_mono (before behind : List Event)
    (h : Along (machine one) Orderly {} (before ++ behind)) :
    (after one before).published ≤ (after one (before ++ behind)).published := by
  induction behind using List.reverseRecOn with
  | nil => rw [List.append_nil]
  | append_singleton behind event ih =>
    rw [← List.append_assoc] at h ⊢
    obtain ⟨hbehind, horderly⟩ := (along_concat (machine one)).mp h
    refine (ih hbehind).trans ?_
    rw [after_concat]
    exact ((after_inv _ hbehind).step event horderly).2

/-- A status as the daemon has it. -/
def statusOf (selected : Bool) : Status :=
  [("contract", .int 1), ("available", .bool true), ("session", .int 7),
    ("device", .string "00:11:22:33:44:55"), ("name", .string "iPhone"), ("recorded", .bool true),
    ("selected", .bool selected), ("visible", .bool selected), ("video", .null),
    ("audio", .array [])]

/-- A poll asks before the phone is disconnected, and its status arrives after the one that the
command has asked for. -/
def overtaken : List Event :=
  [.poll, .answer 0 (.ok (statusOf true)), .deliver 0 ⟨none, none⟩,
    .poll, .command "7", .answer 1 (.ok (statusOf true)), .obeyed 2 (.ok ()),
    .answer 2 (.ok (statusOf false)), .deliver 2 ⟨none, none⟩, .deliver 1 ⟨none, none⟩]

end ProjectArgo.Projection.CarPlayProjectionBackend
