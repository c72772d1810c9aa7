import Mathlib.Data.Int.Order.Basic
import Mathlib.Logic.Function.Basic
import ProjectArgo.Library.Run

/-!
# Requests to the climate control

A request is shown as pending until the vehicle confirms it. It is sent at once or after a short
wait, and what comes back has to be authorised before it counts; meanwhile the request may have
been superseded or everything invalidated, which the serial, the epoch and the sequence are there
to tell.
-/
namespace ProjectArgo.Climate

open Library.Run

/-! ## Capabilities -/

inductive Key
  | temperature (zone : String)
  | fan
  | ac
  deriving DecidableEq

/-- A value as it comes in. -/
inductive Raw (N : Type*)
  | number (value : N)
  | bool (value : Bool)
  | other

inductive Value (N : Type*)
  | number (value : N)
  | bool (value : Bool)
  deriving DecidableEq

def Value.raw {N : Type*} : Value N → Raw N
  | .number value => .number value
  | .bool value => .bool value

/-- The arithmetic of a range is that of the numbers it is for. -/
structure Range (N : Type*) where
  contains : N → Bool
  snap : N → N

structure Capabilities (N : Type*) where
  zones : List (String × Range N) := []
  fan : Option (Range N) := none
  acSupported : Bool := false

variable {N : Type*}

namespace Capabilities

variable (capabilities : Capabilities N)

def usable : Bool :=
  !capabilities.zones.isEmpty || capabilities.fan.isSome || capabilities.acSupported

def supports : Key → Bool
  | .temperature zone => (capabilities.zones.lookup zone).isSome
  | .fan => capabilities.fan.isSome
  | .ac => capabilities.acSupported

def range : Key → Option (Range N)
  | .temperature zone => capabilities.zones.lookup zone
  | .fan => capabilities.fan
  | .ac => none

end Capabilities

def validated (capabilities : Option (Capabilities N)) (key : Key) (raw : Raw N) :
    Option (Value N) :=
  match key, raw with
  | .ac, .bool value =>
    if capabilities.any (·.acSupported) then some (.bool value) else none
  | .ac, _ => none
  | key, .number value =>
    match capabilities.bind (·.range key) with
    | some range => if range.contains value then some (.number (range.snap value)) else none
    | none => none
  | _, _ => none

/-! ## The service -/

structure ClimateValue (N : Type*) where
  confirmed : Option (Value N) := none
  requested : Option (Value N) := none
  pending : Bool := false
  failure : Option String := none

structure Point (N : Type*) where
  key : Key
  value : Raw N
  sequence : ℤ
  sourceId : Option String

/-- What waits for its authorisation, with the epoch and the serial it arrived in and, for the
record, the serial that had been sent by then. -/
structure Waiting (N : Type*) where
  point : Point N
  epoch : ℕ
  serial : Option ℕ
  sent : Option ℕ

/-- A request that has been made, for its timers and for what was sent of it. -/
structure Made (N : Type*) where
  key : Key
  serial : ℕ
  epoch : ℕ
  value : Value N

inductive Timer (N : Type*)
  | deadline (made : Made N)
  | debounce (made : Made N)

/-- Timers that were cancelled may fire all the same, so the tables that cancel them are left
out. -/
structure Service (N : Type*) where
  values : Key → Option (ClimateValue N) := fun _ => none
  timers : List (Timer N) := []
  serials : Key → Option ℕ := fun _ => none
  sent : Key → Option ℕ := fun _ => none
  sequences : Key → Option ℤ := fun _ => none
  rejected : List Key := []
  closed : Bool := false
  available : Bool := false
  epoch : ℕ := 0
  waiting : List (Waiting N) := []
  publishing : List (Made N) := []

/-- What is published, confirmed and warned of, and that everything was cleared. -/
inductive Act (N : Type*)
  | publish (key : Key) (value : Value N)
  | confirmed (key : Key) (value : Value N) (sequence : ℤ)
  | warning (message : String)
  | cleared

structure Settings (N : Type*) where
  capabilities : Option (Capabilities N)
  simulated : Bool := false

variable (settings : Settings N) (s : Service N)

def invalidate (available : Bool) : Service N :=
  { s with
    epoch := s.epoch + 1
    values := fun _ => none
    serials := fun _ => none
    sent := fun _ => none
    sequences := fun _ => none
    available := available && settings.capabilities.any (·.usable) }

def Key.text : Key → String
  | .temperature zone => "climate." ++ zone ++ ".target_temperature_c"
  | .fan => "climate.fan.level"
  | .ac => "climate.ac.enabled"

def reject (key : Key) : Service N × List (Act N) :=
  if key ∈ s.rejected then (s, [])
  else
    ({ s with rejected := key :: s.rejected },
      [.warning ("Rejected invalid or unauthorized climate feedback for " ++ key.text ++ ".")])

/-- The request is still the current one and pending. -/
def current (made : Made N) : Bool :=
  !s.closed && made.epoch = s.epoch && some made.serial = s.serials made.key &&
    (s.values made.key).any (·.pending)

def send (made : Made N) : Service N × List (Act N) :=
  if current s made then
    ({ s with
      sent := Function.update s.sent made.key (some made.serial)
      publishing := s.publishing ++ [made] }, [.publish made.key made.value])
  else (s, [])

def fail (made : Made N) (failure : String) : Service N :=
  if current s made then
    { s with
      values := Function.update s.values made.key ((s.values made.key).map fun old =>
        { confirmed := old.confirmed, requested := old.requested, failure := some failure }) }
  else s

/-- An unsupported request is refused with an error. -/
def request (key : Key) (raw : Raw N) (debounce : Bool) : Service N × List (Act N) :=
  if s.closed || !s.available then (s, [])
  else
    match validated settings.capabilities key raw with
    | none => (s, [])
    | some value =>
      if settings.capabilities.any (·.supports key) then
        let made : Made N := ⟨key, (s.serials key).getD 0 + 1, s.epoch, value⟩
        let s := { s with
          serials := Function.update s.serials key (some made.serial)
          values := Function.update s.values key (some {
            confirmed := (s.values key).bind (·.confirmed), requested := some value
            pending := true })
          timers := s.timers ++ [.deadline made] }
        if debounce then ({ s with timers := s.timers ++ [.debounce made] }, [])
        else send s made
      else (s, [])

theorem reject_values (s : Service N) (other : Key) : (reject s other).1.values = s.values := by
  unfold reject
  split
  · rfl
  · rfl

theorem send_waiting {s : Service N} {made : Made N} : (send s made).1.waiting = s.waiting := by
  unfold send
  split
  · rfl
  · rfl

theorem fail_waiting {s : Service N} {made : Made N} {failure : String} :
    (fail s made failure).waiting = s.waiting := by
  unfold fail
  split
  · rfl
  · rfl

theorem request_waiting {settings : Settings N} {s : Service N} {other : Key} {raw : Raw N}
    {debounce : Bool} :
    (request settings s other raw debounce).1.waiting = s.waiting := by
  unfold request
  split
  · rfl
  split
  · rfl
  split
  · dsimp only
    split
    · rfl
    · exact send_waiting
  · rfl

def fire : Timer N → Service N × List (Act N)
  | .deadline made => (fail s made "Vehicle confirmation timed out", [])
  | .debounce made => send s made

/-- Made in an earlier epoch, or superseded. -/
def Superseded (s : Service N) (made : Made N) : Prop :=
  made.epoch ≠ s.epoch ∨ some made.serial ≠ s.serials made.key

theorem current_eq_false {s : Service N} {made : Made N} (h : Superseded s made) :
    current s made = false := by
  rcases h with h | h
  · simp [current, h]
  · simp [current, h]

def Timer.made : Timer N → Made N
  | .deadline made => made
  | .debounce made => made

theorem fire_superseded {s : Service N} {timer : Timer N} (h : Superseded s timer.made) :
    fire s timer = (s, []) := by
  cases timer with
  | deadline made =>
    have hcurrent : current s made = false := current_eq_false h
    rw [fire, fail, if_neg (by simp [hcurrent])]
  | debounce made =>
    have hcurrent : current s made = false := current_eq_false h
    rw [fire, send, if_neg (by simp [hcurrent])]

inductive Event (N : Type*)
  | requestTemperature (zone : String) (value : N) (immediate : Bool)
  | requestFanLevel (value : N)
  | requestAc (enabled : Bool)
  | timer (index : ℕ)
  | feedback (point : Point N)
  | authorized (index : ℕ) (allowed : Bool)
  | published (index : ℕ) (succeeded : Bool)
  | invalidate (available : Bool)
  | close

/-- The feedback whose authorisation an event brings. -/
def authorizes (s : Service N) : Event N → Option (Waiting N)
  | .authorized index true => s.waiting[index]?
  | _ => none

theorem mem_of_authorizes {s : Service N} {event : Event N} {waiting : Waiting N}
    (h : authorizes s event = some waiting) : waiting ∈ s.waiting := by
  unfold authorizes at h
  split at h
  · exact List.mem_of_getElem? h
  · exact nomatch h

variable [DecidableEq N]

/-- Whether the value is the one that the current request of its key has asked for, and that
request has been sent. -/
def matched (waiting : Waiting N) (old : ClimateValue N) (value : Value N) : Bool :=
  old.requested = some value && waiting.serial = s.serials waiting.point.key &&
    s.sent waiting.point.key = waiting.serial

/-- Feedback whose authorisation is known. -/
def settle (waiting : Waiting N) (allowed : Bool) : Service N × List (Act N) :=
  let key := waiting.point.key
  if s.closed || waiting.epoch ≠ s.epoch then (s, [])
  else
    match validated settings.capabilities key waiting.point.value with
    | none => reject s key
    | some value =>
      if !allowed then reject s key
      else if waiting.point.sequence ≤ (s.sequences key).getD (-1) then (s, [])
      else
        let old := (s.values key).getD {}
        let matched := matched s waiting old value
        ({ s with
          sequences := Function.update s.sequences key (some waiting.point.sequence)
          values := Function.update s.values key (some {
            confirmed := some value
            requested := old.requested
            pending := old.pending && !matched
            failure := if matched then none else old.failure }) },
          [.confirmed key value waiting.point.sequence])

/-- Feedback arrives. Without a source there is nobody to ask. -/
def feedback (point : Point N) : Service N × List (Act N) :=
  if s.closed || !s.available then (s, [])
  else
    let waiting : Waiting N :=
      { point := point, epoch := s.epoch, serial := s.serials point.key, sent := s.sent point.key }
    match point.sourceId with
    | none => settle settings s waiting false
    | some _ => ({ s with waiting := s.waiting ++ [waiting] }, [])

/-- The end of a publication. A simulated vehicle confirms what is still current. -/
def published (made : Made N) (succeeded : Bool) : Service N × List (Act N) :=
  if !succeeded then (fail s made "Climate command unavailable", [])
  else if settings.simulated && !s.closed && made.epoch = s.epoch &&
      some made.serial = s.serials made.key then
    feedback settings s ⟨made.key, made.value.raw, made.serial, some "argo.simulation"⟩
  else (s, [])

def step (s : Service N) : Event N → Service N × List (Act N)
  | .requestTemperature zone value immediate =>
    request settings s (.temperature zone) (.number value) (!immediate)
  | .requestFanLevel value => request settings s .fan (.number value) false
  | .requestAc enabled => request settings s .ac (.bool enabled) false
  | .timer index =>
    match s.timers[index]? with
    | some timer => fire s timer
    | none => (s, [])
  | .feedback point =>
    if settings.capabilities.any (·.supports point.key) then feedback settings s point
    else (s, [])
  | .authorized index allowed =>
    match s.waiting[index]? with
    | some waiting =>
      settle settings { s with waiting := s.waiting.eraseIdx index } waiting allowed
    | none => (s, [])
  | .published index succeeded =>
    match s.publishing[index]? with
    | some made =>
      published settings { s with publishing := s.publishing.eraseIdx index } made succeeded
    | none => (s, [])
  | .invalidate available => (invalidate settings s available, [.cleared])
  | .close =>
    if s.closed then (s, [])
    else ({ invalidate settings s false with closed := true }, [.cleared])

/-! ## What a step does to one key -/

/-- The values of a key that have been confirmed since everything was cleared. -/
def record (key : Key) (known : List (Value N × ℤ)) : Act N → List (Value N × ℤ)
  | .confirmed other value sequence => if other = key then known ++ [(value, sequence)] else known
  | .cleared => []
  | _ => known

def confirmations (key : Key) (acts : List (Act N)) : List (Value N × ℤ) :=
  acts.foldl (record key) []

/-- What becomes of a key, where `source` is the feedback that has just been authorised. -/
inductive Effect (settings : Settings N) (s : Service N) (source : Option (Waiting N)) (key : Key) :
    Service N × List (Act N) → Prop
  | kept {next : Service N} {acts : List (Act N)} (values : next.values key = s.values key)
      (sequences : next.sequences key = s.sequences key)
      (serials : s.serials key ≠ none → next.serials key ≠ none)
      (record : ∀ known, acts.foldl (record key) known = known) : Effect settings s source key
        (next, acts)
  | requested {next : Service N} {acts : List (Act N)} (value : Value N)
      (values : next.values key = some {
        confirmed := (s.values key).bind (·.confirmed), requested := some value, pending := true })
      (sequences : next.sequences key = s.sequences key) (serials : next.serials key ≠ none)
      (record : ∀ known, acts.foldl (record key) known = known) : Effect settings s source key
        (next, acts)
  | failed {next : Service N} {acts : List (Act N)} (failure : String)
      (values : next.values key = (s.values key).map fun old =>
        { confirmed := old.confirmed, requested := old.requested, failure := some failure })
      (sequences : next.sequences key = s.sequences key)
      (serials : next.serials key = s.serials key)
      (record : ∀ known, acts.foldl (record key) known = known) : Effect settings s source key
        (next, acts)
  | settled {next : Service N} {acts : List (Act N)} (waiting : Waiting N) (value : Value N)
      (source_eq : source = some waiting) (key_eq : waiting.point.key = key)
      (epoch : waiting.epoch = s.epoch)
      (valid : validated settings.capabilities key waiting.point.value = some value)
      (newer : (s.sequences key).getD (-1) < waiting.point.sequence)
      (values : next.values key = some {
        confirmed := some value
        requested := ((s.values key).getD {}).requested
        pending := ((s.values key).getD {}).pending &&
          !matched s waiting ((s.values key).getD {}) value
        failure := if matched s waiting ((s.values key).getD {}) value then none
          else ((s.values key).getD {}).failure })
      (sequences : next.sequences key = some waiting.point.sequence)
      (serials : next.serials key = s.serials key)
      (record : ∀ known, acts.foldl (record key) known =
        known ++ [(value, waiting.point.sequence)]) : Effect settings s source key (next, acts)
  | cleared {next : Service N} {acts : List (Act N)} (values : next.values key = none)
      (sequences : next.sequences key = none)
      (record : ∀ known, acts.foldl (record key) known = []) : Effect settings s source key
        (next, acts)

variable {settings s} {source : Option (Waiting N)} {key : Key}

theorem Effect.none : Effect settings s source key (s, []) :=
  .kept rfl rfl id fun _ => rfl

theorem reject_effect (other : Key) : Effect settings s source key (reject s other) := by
  unfold reject
  split
  · exact Effect.none
  · exact .kept rfl rfl id fun _ => rfl

theorem settle_effect {waiting : Waiting N} {allowed : Bool}
    (hsource : allowed = true → source = some waiting) :
    Effect settings s source key (settle settings s waiting allowed) := by
  unfold settle
  dsimp only
  split
  · exact Effect.none
  rename_i hopen
  have hepoch : waiting.epoch = s.epoch := by
    by_contra hne
    exact hopen (by simp [hne])
  split
  · exact reject_effect _
  rename_i value hvalue
  split
  · exact reject_effect _
  rename_i hallowed
  split
  · exact Effect.none
  rename_i hnewer
  by_cases hkey : waiting.point.key = key
  · subst hkey
    refine .settled waiting value (hsource (by simpa using hallowed)) rfl hepoch hvalue
      (not_le.mp hnewer) ?_ ?_ rfl ?_
    · exact Function.update_self ..
    · exact Function.update_self ..
    · intro known
      exact if_pos rfl
  · refine .kept ?_ ?_ id ?_
    · exact Function.update_of_ne (Ne.symm hkey) _ _
    · exact Function.update_of_ne (Ne.symm hkey) _ _
    · intro known
      exact if_neg hkey

theorem feedback_effect (point : Point N) :
    Effect settings s source key (feedback settings s point) := by
  unfold feedback
  split
  · exact Effect.none
  dsimp only
  split
  · exact settle_effect fun h => nomatch h
  · exact .kept rfl rfl id fun _ => rfl

theorem send_effect (made : Made N) : Effect settings s source key (send s made) := by
  unfold send
  split
  · exact .kept rfl rfl id fun _ => rfl
  · exact Effect.none

theorem fail_effect (made : Made N) (failure : String) :
    Effect settings s source key (fail s made failure, []) := by
  unfold fail
  split
  · by_cases hkey : made.key = key
    · subst hkey
      exact .failed failure (Function.update_self ..) rfl rfl fun _ => rfl
    · exact .kept (Function.update_of_ne (Ne.symm hkey) _ _) rfl id fun _ => rfl
  · exact Effect.none

/-- A request, whether it is sent at once or later. -/
theorem Effect.sent {t : Service N} (made : Made N)
    (h : Effect settings s source key (t, [])) :
    Effect settings s source key (send t made) := by
  unfold send
  split
  · cases h with
    | kept values sequences serials record =>
      exact .kept values sequences serials fun _ => rfl
    | requested value values sequences serials record =>
      exact .requested value values sequences serials fun _ => rfl
    | failed failure values sequences serials record =>
      exact .failed failure values sequences serials fun _ => rfl
    | settled waiting value source_eq key_eq epoch valid newer values sequences serials record =>
      exact absurd (record []) (by simp)
    | cleared values sequences record => exact .cleared values sequences fun _ => record _
  · exact h

/-- What waits and what is being published does not matter to a key. -/
theorem Effect.of_queues {waiting : List (Waiting N)} {publishing : List (Made N)}
    {result : Service N × List (Act N)}
    (h : Effect settings { s with waiting := waiting, publishing := publishing } source key
      result) : Effect settings s source key result := by
  cases h with
  | kept values sequences serials record => exact .kept values sequences serials record
  | requested value values sequences serials record =>
    exact .requested value values sequences serials record
  | failed failure values sequences serials record =>
    exact .failed failure values sequences serials record
  | settled feedback value source_eq key_eq epoch valid newer values sequences serials record =>
    exact .settled feedback value source_eq key_eq epoch valid newer values sequences serials
      record
  | cleared values sequences record => exact .cleared values sequences record

theorem request_effect (other : Key) (raw : Raw N) (debounce : Bool) :
    Effect settings s source key (request settings s other raw debounce) := by
  unfold request
  split
  · exact Effect.none
  split
  · exact Effect.none
  rename_i value _
  split
  · dsimp only
    have hmade (timers : List (Timer N)) : Effect settings s source key
        ({ s with
          serials := Function.update s.serials other (some ((s.serials other).getD 0 + 1))
          values := Function.update s.values other (some {
            confirmed := (s.values other).bind (·.confirmed), requested := some value
            pending := true })
          timers := timers }, []) := by
      by_cases hkey : other = key
      · subst hkey
        refine .requested value (Function.update_self ..) rfl ?_ fun _ => rfl
        simp only [Function.update_self, ne_eq, reduceCtorEq, not_false_eq_true]
      · refine .kept (Function.update_of_ne (Ne.symm hkey) _ _) rfl ?_ fun _ => rfl
        intro hserial
        simpa only [Function.update_of_ne (Ne.symm hkey)] using hserial
    split
    · exact hmade _
    · exact (hmade _).sent _
  · exact Effect.none

theorem published_effect (made : Made N) (succeeded : Bool) :
    Effect settings s source key (published settings s made succeeded) := by
  unfold published
  split
  · exact fail_effect made _
  split
  · exact feedback_effect _
  · exact Effect.none

theorem step_effect (s : Service N) (event : Event N) (key : Key) :
    Effect settings s (authorizes s event) key (step settings s event) := by
  cases event with
  | requestTemperature zone value immediate => exact request_effect _ _ _
  | requestFanLevel value => exact request_effect _ _ _
  | requestAc enabled => exact request_effect _ _ _
  | timer index =>
    simp only [step]
    split
    · rename_i timer _
      cases timer with
      | deadline made => exact fail_effect made _
      | debounce made => exact send_effect made
    · exact Effect.none
  | feedback point =>
    simp only [step]
    split
    · exact feedback_effect point
    · exact Effect.none
  | authorized index allowed =>
    simp only [step]
    cases hwaiting : s.waiting[index]? with
    | none => exact Effect.none
    | some waiting =>
      apply Effect.of_queues
      apply settle_effect
      rintro rfl
      exact hwaiting
  | published index succeeded =>
    simp only [step]
    cases s.publishing[index]? with
    | none => exact Effect.none
    | some made => exact Effect.of_queues (published_effect made succeeded)
  | invalidate available => exact .cleared rfl rfl fun _ => rfl
  | close =>
    simp only [step]
    split
    · exact Effect.none
    · exact .cleared rfl rfl fun _ => rfl

/-! ## Arrivals -/

/-- Feedback that arrives in a state, from a source. -/
structure Arrives (s : Service N) (waiting : Waiting N) : Prop where
  epoch : waiting.epoch = s.epoch
  serial : waiting.serial = s.serials waiting.point.key
  sent : waiting.sent = s.sent waiting.point.key
  source : waiting.point.sourceId ≠ none

theorem settle_waiting {waiting : Waiting N} {allowed : Bool} :
    (settle settings s waiting allowed).1.waiting = s.waiting := by
  have hreject : (reject s waiting.point.key).1.waiting = s.waiting := by
    unfold reject
    split
    · rfl
    · rfl
  unfold settle
  dsimp only
  split
  · rfl
  split
  · exact hreject
  split
  · exact hreject
  split
  · rfl
  · rfl

theorem feedback_waiting {point : Point N} {waiting : Waiting N}
    (h : waiting ∈ (feedback settings s point).1.waiting) :
    waiting ∈ s.waiting ∨ Arrives s waiting := by
  unfold feedback at h
  split at h
  · exact Or.inl h
  dsimp only at h
  split at h
  · rw [settle_waiting] at h
    exact Or.inl h
  · rename_i hsource
    rcases List.mem_append.mp h with hold | hnew
    · exact Or.inl hold
    · rw [List.mem_singleton.mp hnew]
      refine Or.inr ⟨rfl, rfl, rfl, ?_⟩
      rw [hsource]
      exact Option.some_ne_none _

theorem step_waiting {event : Event N} {waiting : Waiting N}
    (h : waiting ∈ (step settings s event).1.waiting) :
    waiting ∈ s.waiting ∨ Arrives s waiting := by
  cases event with
  | requestTemperature zone value immediate =>
    simp only [step, request_waiting] at h
    exact Or.inl h
  | requestFanLevel value =>
    simp only [step, request_waiting] at h
    exact Or.inl h
  | requestAc enabled =>
    simp only [step, request_waiting] at h
    exact Or.inl h
  | timer index =>
    simp only [step] at h
    split at h
    · rename_i timer _
      cases timer with
      | deadline made =>
        simp only [fire, fail_waiting] at h
        exact Or.inl h
      | debounce made =>
        simp only [fire, send_waiting] at h
        exact Or.inl h
    · exact Or.inl h
  | feedback point =>
    simp only [step] at h
    split at h
    · exact feedback_waiting h
    · exact Or.inl h
  | authorized index allowed =>
    simp only [step] at h
    split at h
    · rw [settle_waiting] at h
      exact Or.inl (List.mem_of_mem_eraseIdx h)
    · exact Or.inl h
  | published index succeeded =>
    simp only [step] at h
    split at h
    · unfold published at h
      split at h
      · rw [fail_waiting] at h
        exact Or.inl h
      split at h
      · rcases feedback_waiting h with hold | hnew
        · exact Or.inl hold
        · exact Or.inr ⟨hnew.epoch, hnew.serial, hnew.sent, hnew.source⟩
      · exact Or.inl h
    · exact Or.inl h
  | invalidate available => exact Or.inl h
  | close =>
    simp only [step] at h
    split at h
    · exact Or.inl h
    · exact Or.inl h

/-! ## Runs -/

def state (settings : Settings N) (events : List (Event N)) : Service N :=
  (run (step settings) {} events).1

def acts (settings : Settings N) (events : List (Event N)) : List (Act N) :=
  (run (step settings) {} events).2.flatMap Prod.snd

variable {events : List (Event N)} {event : Event N}

theorem state_concat : state settings (events ++ [event]) =
    (step settings (state settings events) event).1 := by
  rw [state, run_concat]
  rfl

theorem acts_concat : acts settings (events ++ [event]) =
    acts settings events ++ (step settings (state settings events) event).2 := by
  rw [acts, run_concat]
  simp only [List.flatMap_append, List.flatMap_singleton]
  rfl

/-- The feedback arrived at some time of the run. -/
def Arrived (settings : Settings N) (events : List (Event N)) (waiting : Waiting N) : Prop :=
  ∃ before event after, events = before ++ event :: after ∧
    Arrives (state settings before) waiting

theorem arrived_of_mem {waiting : Waiting N} (h : waiting ∈ (state settings events).waiting) :
    Arrived settings events waiting := by
  induction events using List.reverseRecOn with
  | nil => exact nomatch h
  | append_singleton events event ih =>
    rw [state_concat] at h
    rcases step_waiting h with hold | hnew
    · obtain ⟨before, past, after, rfl, harrives⟩ := ih hold
      exact ⟨before, past, after ++ [event], by simp, harrives⟩
    · exact ⟨events, event, [], rfl, hnew⟩

/-- What is known of a key: its requests are numbered, its confirmations are in the order of their
sequences, and its confirmed value is the last of them. -/
structure Known (s : Service N) (key : Key) (known : List (Value N × ℤ)) : Prop where
  numbered : (s.values key).bind (·.requested) ≠ none → s.serials key ≠ none
  increasing : known.Pairwise (·.2 < ·.2)
  bounded : ∀ entry ∈ known, entry.2 ≤ (s.sequences key).getD (-1)
  confirmed : (s.values key).bind (·.confirmed) = known.getLast?.map (·.1)

theorem Known.effect {known : List (Value N × ℤ)} {result : Service N × List (Act N)}
    (h : Known s key known) (heffect : Effect settings s source key result) :
    Known result.1 key (result.2.foldl (record key) known) := by
  cases heffect with
  | kept values sequences serials record =>
    rw [record]
    refine ⟨?_, h.increasing, ?_, ?_⟩
    · rw [values]
      exact fun hrequested => serials (h.numbered hrequested)
    · rw [sequences]
      exact h.bounded
    · rw [values]
      exact h.confirmed
  | requested value values sequences serials record =>
    rw [record]
    refine ⟨fun _ => serials, h.increasing, ?_, ?_⟩
    · rw [sequences]
      exact h.bounded
    · rw [values]
      exact h.confirmed
  | failed failure values sequences serials record =>
    rw [record]
    refine ⟨?_, h.increasing, ?_, ?_⟩
    · rw [values, serials]
      cases hvalue : s.values key with
      | none => exact fun hrequested => absurd rfl hrequested
      | some old =>
        intro hrequested
        apply h.numbered
        rw [hvalue]
        exact hrequested
    · rw [sequences]
      exact h.bounded
    · rw [values, ← h.confirmed]
      cases s.values key with
      | none => rfl
      | some old => rfl
  | settled waiting value source_eq key_eq epoch valid newer values sequences serials record =>
    rw [record]
    refine ⟨?_, ?_, ?_, ?_⟩
    · rw [values, serials]
      cases hvalue : s.values key with
      | none => exact fun hrequested => absurd rfl hrequested
      | some old =>
        intro hrequested
        apply h.numbered
        rw [hvalue]
        exact hrequested
    · rw [List.pairwise_append]
      refine ⟨h.increasing, List.pairwise_singleton _ _, ?_⟩
      intro entry hentry last hlast
      rw [List.mem_singleton.mp hlast]
      exact lt_of_le_of_lt (h.bounded entry hentry) newer
    · rw [sequences]
      intro entry hentry
      rcases List.mem_append.mp hentry with hold | hnew
      · exact le_of_lt (lt_of_le_of_lt (h.bounded entry hold) newer)
      · rw [List.mem_singleton.mp hnew]
        exact le_rfl
    · rw [values, List.getLast?_concat]
      rfl
  | cleared values sequences record =>
    rw [record]
    refine ⟨?_, List.Pairwise.nil, by simp, ?_⟩
    · rw [values]
      exact fun hrequested => absurd rfl hrequested
    · rw [values]
      rfl

theorem state_known (settings : Settings N) (events : List (Event N)) (key : Key) :
    Known (state settings events) key (confirmations key (acts settings events)) := by
  induction events using List.reverseRecOn with
  | nil => exact ⟨fun h => absurd rfl h, List.Pairwise.nil, by simp [acts, confirmations], rfl⟩
  | append_singleton events event ih =>
    rw [state_concat, acts_concat, confirmations, List.foldl_append]
    exact ih.effect (step_effect _ event key)

/-! ## Results -/

/-- The request of a key is shown as pending no more, and not as failed. -/
def Acknowledged (s next : Service N) (key : Key) : Prop :=
  ∃ old new, s.values key = some old ∧ next.values key = some new ∧ old.pending = true ∧
    new.pending = false ∧ new.failure = none

/-- Authorised and validated feedback of the requested value has come that arrived after the latest
request was sent. -/
def Confirmed (settings : Settings N) (s : Service N) (event : Event N) (key : Key) : Prop :=
  ∃ waiting value serial, authorizes s event = some waiting ∧ waiting.point.key = key ∧
    validated settings.capabilities key waiting.point.value = some value ∧
    (s.values key).bind (·.requested) = some value ∧ waiting.epoch = s.epoch ∧
    s.serials key = some serial ∧ waiting.serial = some serial ∧ waiting.sent = some serial

/-- The authorised feedback, where it reports the value of a request that has been sent, did not
arrive between the request and its sending. -/
def Timely (settings : Settings N) (s : Service N) (event : Event N) : Prop :=
  ∀ waiting, authorizes s event = some waiting → waiting.epoch = s.epoch →
    waiting.serial = s.serials waiting.point.key → s.sent waiting.point.key = waiting.serial →
    (s.values waiting.point.key).bind (·.requested) =
      validated settings.capabilities waiting.point.key waiting.point.value →
    waiting.sent = waiting.serial

theorem confirmed_of_acknowledged {known : List (Value N × ℤ)} (hknown : Known s key known)
    (h : Acknowledged s (step settings s event).1 key) (htimely : Timely settings s event) :
    Confirmed settings s event key := by
  obtain ⟨old, new, hold, hnew, hpending, hdone, hfailure⟩ := h
  have heffect : Effect settings s (authorizes s event) key (step settings s event) :=
    step_effect s event key
  generalize step settings s event = result at heffect hnew
  cases heffect with
  | kept values _ _ _ =>
    obtain rfl : old = new := Option.some.inj (hold.symm.trans (values.symm.trans hnew))
    exact nomatch hdone.symm.trans hpending
  | requested value values _ _ _ =>
    cases values.symm.trans hnew
    exact nomatch hdone
  | failed failure values _ _ _ =>
    rw [hold] at values
    cases values.symm.trans hnew
    exact nomatch hfailure
  | settled waiting value source_eq key_eq epoch valid newer values _ _ _ =>
    subst key_eq
    rw [hold] at values
    have hmatched : matched s waiting old value = true := by
      cases values.symm.trans hnew
      simpa [hpending] using hdone
    simp only [matched, Bool.and_eq_true, decide_eq_true_eq] at hmatched
    obtain ⟨⟨hrequested, hserial⟩, hsent⟩ := hmatched
    have hbound : (s.values waiting.point.key).bind (·.requested) = some value := by
      rw [hold]
      exact hrequested
    obtain ⟨serial, hsome⟩ := Option.ne_none_iff_exists'.mp
      (hknown.numbered (by rw [hbound]; exact Option.some_ne_none _))
    refine ⟨waiting, value, serial, source_eq, rfl, valid, hbound, epoch, hsome,
      hserial.trans hsome, ?_⟩
    have harrived := htimely waiting source_eq epoch hserial hsent (hbound.trans valid.symm)
    exact harrived.trans (hserial.trans hsome)
  | cleared values _ _ => exact nomatch values.symm.trans hnew

theorem published_superseded {made : Made N} (h : Superseded s made) (succeeded : Bool) :
    published settings s made succeeded = (s, []) := by
  unfold published
  split
  · rw [fail, if_neg]
    simpa using current_eq_false h
  · rw [if_neg]
    rcases h with h | h
    · simp [h]
    · simp [h]

/-- What a key shows of its request. -/
def shown (s : Service N) (key : Key) : Bool × Option (Value N) × Option String :=
  let value := (s.values key).getD {}
  (value.pending, value.requested, value.failure)

theorem settle_superseded {waiting : Waiting N} (allowed : Bool)
    (h : waiting.epoch ≠ s.epoch ∨ waiting.serial ≠ s.serials waiting.point.key) (key : Key) :
    shown (settle settings s waiting allowed).1 key = shown s key := by
  unfold settle
  dsimp only
  split
  · rfl
  rename_i hopen
  have hepoch : waiting.epoch = s.epoch := by
    by_contra hne
    exact hopen (by simp [hne])
  have hserial := h.resolve_left (not_not.mpr hepoch)
  split
  · rw [shown, reject_values, shown]
  split
  · rw [shown, reject_values, shown]
  split
  · rfl
  by_cases hkey : waiting.point.key = key
  · subst hkey
    have hmatched (value : Value N) :
        matched s waiting ((s.values waiting.point.key).getD {}) value = false := by
      simp [matched, hserial]
    simp [shown, hmatched]
  · simp only [shown, Function.update_of_ne (Ne.symm hkey)]

theorem along_split {P : Service N → Event N → Prop} {before after : List (Event N)}
    (h : Along (step settings) P {} (before ++ event :: after)) :
    P (state settings before) event := by
  have hsplit : before ++ event :: after = before ++ [event] ++ after := by simp
  rw [hsplit] at h
  exact (along_concat (step settings)).mp h.left |>.2

/-- The confirmations of a key are kept, cleared, or come to be one more. -/
theorem confirmations_concat (settings : Settings N) (before : List (Event N)) (event : Event N)
    (key : Key) :
    confirmations key (acts settings (before ++ [event])) =
        confirmations key (acts settings before) ∨
    confirmations key (acts settings (before ++ [event])) = [] ∨
    ∃ waiting value, authorizes (state settings before) event = some waiting ∧
      waiting.point.key = key ∧ waiting.epoch = (state settings before).epoch ∧
      validated settings.capabilities key waiting.point.value = some value ∧
      confirmations key (acts settings (before ++ [event])) =
        confirmations key (acts settings before) ++ [(value, waiting.point.sequence)] := by
  rw [acts_concat, confirmations, List.foldl_append, ← confirmations]
  have heffect : Effect settings (state settings before)
      (authorizes (state settings before) event) key (step settings (state settings before) event) :=
    step_effect (state settings before) event key
  generalize step settings (state settings before) event = result at heffect
  cases heffect with
  | kept _ _ _ record => exact Or.inl (record _)
  | requested _ _ _ _ record => exact Or.inl (record _)
  | failed _ _ _ _ record => exact Or.inl (record _)
  | settled waiting value source_eq key_eq epoch valid _ _ _ _ record =>
    exact Or.inr (Or.inr ⟨waiting, value, source_eq, key_eq, epoch, valid, record _⟩)
  | cleared _ _ record => exact Or.inr (Or.inl (record _))

/-- In a run whose feedback is timely, what is acknowledged was confirmed after it had been sent.
Confirmed values come from authorised feedback of the epoch, in the order of their sequences, and
what belongs to a superseded request leaves the one shown as it is. -/
theorem climate_confirmation (settings : Settings N) (events : List (Event N))
    (htimely : Along (step settings) (Timely settings) {} events) :
    (∀ before event after, events = before ++ event :: after → ∀ key,
      Acknowledged (state settings before) (step settings (state settings before) event).1 key →
        Confirmed settings (state settings before) event key) ∧
    (∀ before event after, events = before ++ event :: after → ∀ waiting,
      authorizes (state settings before) event = some waiting →
        Arrived settings before waiting) ∧
    (∀ key, (confirmations key (acts settings events)).Pairwise (·.2 < ·.2) ∧
      ((state settings events).values key).bind (·.confirmed) =
        (confirmations key (acts settings events)).getLast?.map (·.1)) ∧
    (∀ before event after, events = before ++ event :: after → ∀ key,
      confirmations key (acts settings (before ++ [event])) =
          confirmations key (acts settings before) ∨
        confirmations key (acts settings (before ++ [event])) = [] ∨
        ∃ waiting value, authorizes (state settings before) event = some waiting ∧
          waiting.point.key = key ∧ waiting.epoch = (state settings before).epoch ∧
          validated settings.capabilities key waiting.point.value = some value ∧
          confirmations key (acts settings (before ++ [event])) =
            confirmations key (acts settings before) ++ [(value, waiting.point.sequence)]) ∧
    (∀ index timer, (state settings events).timers[index]? = some timer →
      Superseded (state settings events) timer.made →
        step settings (state settings events) (.timer index) = (state settings events, [])) ∧
    (∀ index made succeeded, (state settings events).publishing[index]? = some made →
      Superseded (state settings events) made →
        step settings (state settings events) (.published index succeeded) =
          ({ state settings events with
            publishing := (state settings events).publishing.eraseIdx index }, [])) ∧
    ∀ index waiting allowed, (state settings events).waiting[index]? = some waiting →
      waiting.epoch ≠ (state settings events).epoch ∨
        waiting.serial ≠ (state settings events).serials waiting.point.key →
      ∀ key, shown (step settings (state settings events) (.authorized index allowed)).1 key =
        shown (state settings events) key := by
  refine ⟨?_, ?_, ?_, ?_, ?_, ?_, ?_⟩
  · rintro before event after rfl key hacknowledged
    apply confirmed_of_acknowledged (state_known settings before key) hacknowledged
    exact along_split htimely
  · rintro before event after rfl waiting hwaiting
    exact arrived_of_mem (mem_of_authorizes hwaiting)
  · intro key
    have hknown := state_known settings events key
    exact ⟨hknown.increasing, hknown.confirmed⟩
  · rintro before event after rfl key
    exact confirmations_concat settings before event key
  · intro index timer htimer hsuperseded
    simp only [step, htimer]
    exact fire_superseded hsuperseded
  · intro index made succeeded hmade hsuperseded
    simp only [step, hmade]
    exact published_superseded (s := { state settings events with
      publishing := (state settings events).publishing.eraseIdx index }) hsuperseded succeeded
  · intro index waiting allowed hwaiting hsuperseded key
    simp only [step, hwaiting]
    exact settle_superseded (s := { state settings events with
      waiting := (state settings events).waiting.eraseIdx index }) allowed hsuperseded key

/-! ## Feedback before the sending -/

/-- One zone, with whole degrees from 18 to 26. -/
def wholeDegrees : Settings ℕ where
  capabilities := some { zones := [("left", ⟨fun value => 18 ≤ value && value ≤ 26, id⟩)] }

/-- A measurement of 21 degrees. -/
def measured : Point ℕ := ⟨.temperature "left", .number 21, 1, some "climate"⟩

/-- A request that is sent at once and confirmed afterwards. -/
theorem climate_confirmation_sent :
    Confirmed wholeDegrees (state wholeDegrees [.invalidate true,
      .requestTemperature "left" 21 true, .feedback measured]) (.authorized 0 true)
      (.temperature "left") := by
  have htimely : Along (step wholeDegrees) (Timely wholeDegrees) {} [.invalidate true,
      .requestTemperature "left" 21 true, .feedback measured, .authorized 0 true] := by
    refine ⟨(fun _ h => nomatch h), (fun _ h => nomatch h), (fun _ h => nomatch h), ?_, trivial⟩
    intro waiting h _ _ _ _
    cases h
    rfl
  exact (climate_confirmation wholeDegrees _ htimely).1 [.invalidate true,
    .requestTemperature "left" 21 true, .feedback measured] (.authorized 0 true) [] rfl
    (.temperature "left") ⟨_, _, rfl, rfl, rfl, rfl, rfl⟩

/-- A measurement that arrives before the request is sent is taken for its confirmation. -/
theorem unsent_confirmed :
    ¬∀ (settings : Settings ℕ) (before : List (Event ℕ)) (event : Event ℕ) (key : Key),
      Acknowledged (state settings before) (step settings (state settings before) event).1 key →
        Confirmed settings (state settings before) event key := by
  intro h
  obtain ⟨waiting, value, serial, hwaiting, -, -, -, -, -, -, hsent⟩ :=
    h wholeDegrees [.invalidate true, .requestTemperature "left" 21 false, .feedback measured,
      .timer 1] (.authorized 0 true) (.temperature "left") ⟨_, _, rfl, rfl, rfl, rfl, rfl⟩
  cases hwaiting
  exact nomatch hsent

end ProjectArgo.Climate
