import Mathlib
import ProjectArgo.Library.Run

/-!
# Presentation of cameras

The policy presents a camera for the foremost reason that fresh signals give: reversing, a parking
obstacle, an indicator. What it presents outlives its reason by the hold at most, and what the
driver has dismissed is not presented again before its reason has gone.
-/
namespace ProjectArgo.Camera.Presentation

open Library.Run

/-- Times and ages are durations in microseconds, of either sign. -/
structure SignalValue (α : Type*) where
  value : α
  observed : ℤ
  deriving DecidableEq

def SignalValue.fresh {α : Type*} (signal : SignalValue α) (now maxAge : ℤ) : Bool :=
  signal.observed ≤ now && now - signal.observed ≤ maxAge

inductive Owner
  | reverse
  | pdc
  | indicatorLeft
  | indicatorRight
  deriving DecidableEq

def Owner.isIndicator : Owner → Bool
  | .indicatorLeft => true
  | .indicatorRight => true
  | _ => false

inductive CameraRole
  | rear
  | front
  | left
  | right
  deriving DecidableEq

structure Request where
  owner : Owner
  role : CameraRole
  deriving DecidableEq

structure Settings (V : Type*) where
  sideViews : Bool
  enabled : Bool := true
  parkingSpeedMps : V
  speedHysteresisMps : V
  maxAge : ℤ
  hold : ℤ

structure Policy (V : Type*) where
  reverse : Option (SignalValue Bool) := none
  pdc : Option (SignalValue Bool) := none
  left : Option (SignalValue Bool) := none
  right : Option (SignalValue Bool) := none
  speed : Option (SignalValue V) := none
  active : Option Request := none
  lastCandidate : ℤ := 0
  suppressed : Option Owner := none
  slow : Bool := false

variable {V : Type*}

namespace Policy

variable (p : Policy V)

def invalidate : Policy V where
  lastCandidate := p.lastCandidate

def manualSelection : Policy V :=
  { p with suppressed := p.active.map (·.owner), active := none }

end Policy

/-! ## Evaluation -/

section

variable [Add V] [Zero V] [LE V] [DecidableLE V] (settings : Settings V) (p : Policy V) (now : ℤ)

def yes (signal : Option (SignalValue Bool)) : Bool :=
  signal.any fun signal => signal.fresh now settings.maxAge && signal.value

def slowAt : Bool :=
  p.speed.any fun speed => speed.fresh now settings.maxAge &&
    decide (speed.value ≤
      settings.parkingSpeedMps + if p.slow then settings.speedHysteresisMps else 0)

def candidate : Option Request :=
  if yes settings now p.reverse then some ⟨.reverse, .rear⟩
  else if slowAt settings p now && yes settings now p.pdc then some ⟨.pdc, .front⟩
  else if slowAt settings p now && settings.sideViews &&
      yes settings now p.left != yes settings now p.right then
    if yes settings now p.left then some ⟨.indicatorLeft, .left⟩
    else some ⟨.indicatorRight, .right⟩
  else none

def evaluate : Policy V × Option Request :=
  if !settings.enabled then ({ p with active := none }, none)
  else
    let candidate := candidate settings p now
    let suppressed := if candidate.map (·.owner) ≠ p.suppressed then none else p.suppressed
    let next := { p with slow := slowAt settings p now, suppressed := suppressed }
    if candidate.map (·.owner) = suppressed ∧ suppressed ≠ none then (next, none)
    else
      match candidate with
      | some request => ({ next with active := some request, lastCandidate := now }, some request)
      | none =>
        if p.active.any (·.owner.isIndicator) && yes settings now p.left &&
            yes settings now p.right then
          ({ next with active := none }, none)
        else if p.active ≠ none ∧ now - p.lastCandidate ≤ settings.hold then (next, p.active)
        else ({ next with active := none }, none)

end

/-! ## Runs -/

inductive Signal
  | reverse
  | pdc
  | left
  | right
  deriving DecidableEq

def Policy.signal (p : Policy V) : Signal → Option (SignalValue Bool)
  | .reverse => p.reverse
  | .pdc => p.pdc
  | .left => p.left
  | .right => p.right

def Policy.observe (p : Policy V) (value : SignalValue Bool) : Signal → Policy V
  | .reverse => { p with reverse := some value }
  | .pdc => { p with pdc := some value }
  | .left => { p with left := some value }
  | .right => { p with right := some value }

inductive Event (V : Type*)
  | boolean (signal : Signal) (value : SignalValue Bool)
  | speed (value : SignalValue V)
  | evaluate (now : ℤ)
  | manualSelection
  | invalidate

section

variable [Add V] [Zero V] [LE V] [DecidableLE V]

def step (settings : Settings V) (p : Policy V) : Event V → Policy V × Option Request
  | .boolean signal value => (p.observe value signal, none)
  | .speed value => ({ p with speed := some value }, none)
  | .evaluate now => evaluate settings p now
  | .manualSelection => (p.manualSelection, none)
  | .invalidate => (p.invalidate, none)

/-- The policy after some events. -/
def policy (settings : Settings V) (events : List (Event V)) : Policy V :=
  (run (step settings) {} events).1

theorem policy_concat (settings : Settings V) (events : List (Event V)) (event : Event V) :
    policy settings (events ++ [event]) = (step settings (policy settings events) event).1 := by
  rw [policy, run_concat]
  rfl

def Event.time : Event V → Option ℤ
  | .evaluate now => some now
  | _ => none

/-- The times of evaluation never go back. -/
def Ordered (events : List (Event V)) : Prop := (events.filterMap Event.time).Pairwise (· ≤ ·)

instance (events : List (Event V)) : Decidable (Ordered events) :=
  inferInstanceAs (Decidable ((events.filterMap Event.time).Pairwise (· ≤ ·)))

end

/-! ## Signals that still count -/

theorem fresh_iff {α : Type*} {signal : SignalValue α} {now maxAge : ℤ} :
    signal.fresh now maxAge = true ↔ signal.observed ≤ now ∧ now - signal.observed ≤ maxAge := by
  simp [SignalValue.fresh]

theorem yes_iff {settings : Settings V} {now : ℤ}
    {signal : Option (SignalValue Bool)} :
    yes settings now signal = true ↔ ∃ value, signal = some value ∧ value.value = true ∧
      value.fresh now settings.maxAge = true := by
  simp only [yes, Option.any_eq_true, Bool.and_eq_true]
  constructor
  · rintro ⟨value, hvalue, hfresh, htrue⟩
    exact ⟨value, hvalue, htrue, hfresh⟩
  · rintro ⟨value, hvalue, htrue, hfresh⟩
    exact ⟨value, hvalue, hfresh, htrue⟩

theorem signal_observe (p : Policy V) (value : SignalValue Bool) (observed signal : Signal) :
    (p.observe value observed).signal signal =
      if signal = observed then some value else p.signal signal := by
  cases observed <;> cases signal <;> rfl

theorem observe_rest (p : Policy V) (value : SignalValue Bool) (signal : Signal) :
    (p.observe value signal).speed = p.speed ∧ (p.observe value signal).active = p.active ∧
      (p.observe value signal).lastCandidate = p.lastCandidate ∧
      (p.observe value signal).suppressed = p.suppressed := by
  cases signal <;> exact ⟨rfl, rfl, rfl, rfl⟩

/-- The event is among those since the last invalidation. -/
def Since (events : List (Event V)) (event : Event V) : Prop :=
  ∃ before after, events = before ++ event :: after ∧ .invalidate ∉ after

theorem Since.last (events : List (Event V)) (event : Event V) : Since (events ++ [event]) event :=
  ⟨events, [], rfl, List.not_mem_nil⟩

theorem not_mem_concat {after : List (Event V)} {event : Event V} (hafter : .invalidate ∉ after)
    (hevent : event ≠ .invalidate) : .invalidate ∉ after ++ [event] := by
  rw [List.mem_append, List.mem_singleton]
  rintro (h | h)
  · exact hafter h
  · exact hevent h.symm

theorem Since.concat {events : List (Event V)} {event past : Event V} (h : Since events past)
    (hevent : event ≠ .invalidate) : Since (events ++ [event]) past := by
  obtain ⟨before, after, rfl, hafter⟩ := h
  exact ⟨before, after ++ [event], by simp, not_mem_concat hafter hevent⟩

variable [Add V] [Zero V] [LE V] [DecidableLE V]

/-! ## What calls for a camera -/

section

variable (settings : Settings V) (p : Policy V) (now : ℤ)

/-- The reasons that the fresh signals give. -/
def wants : Owner → Bool
  | .reverse => yes settings now p.reverse
  | .pdc => slowAt settings p now && yes settings now p.pdc
  | .indicatorLeft => slowAt settings p now && settings.sideViews && yes settings now p.left &&
      !yes settings now p.right
  | .indicatorRight => slowAt settings p now && settings.sideViews && yes settings now p.right &&
      !yes settings now p.left

def Owner.rank : Owner → ℕ
  | .reverse => 0
  | .pdc => 1
  | .indicatorLeft => 2
  | .indicatorRight => 2

def Owner.role : Owner → CameraRole
  | .reverse => .rear
  | .pdc => .front
  | .indicatorLeft => .left
  | .indicatorRight => .right

/-- A request for the foremost reason. -/
def Foremost (request : Request) : Prop :=
  wants settings p now request.owner = true ∧ request.role = request.owner.role ∧
    ∀ owner, wants settings p now owner = true → request.owner.rank ≤ owner.rank

theorem candidate_foremost {request : Request} (h : candidate settings p now = some request) :
    Foremost settings p now request := by
  unfold candidate at h
  split_ifs at h with hreverse hpdc hside hleft
  · cases h
    exact ⟨hreverse, rfl, fun owner _ => Nat.zero_le _⟩
  · cases h
    refine ⟨hpdc, rfl, ?_⟩
    intro owner howner
    cases owner with
    | reverse => exact absurd howner hreverse
    | pdc => exact le_rfl
    | indicatorLeft => decide
    | indicatorRight => decide
  · cases h
    simp only [Bool.and_eq_true, bne_iff_ne, ne_eq] at hside
    refine ⟨?_, rfl, ?_⟩
    · have hright : yes settings now p.right = false := by
        by_contra hright
        exact hside.2 (hleft.trans (Bool.eq_true_of_not_eq_false hright).symm)
      simp only [wants, hside.1.1, hside.1.2, hleft, hright]
      rfl
    · intro owner howner
      cases owner with
      | reverse => exact absurd howner hreverse
      | pdc => exact absurd howner hpdc
      | indicatorLeft => exact le_rfl
      | indicatorRight => exact le_rfl
  · cases h
    simp only [Bool.and_eq_true, bne_iff_ne, ne_eq] at hside
    have hleft : yes settings now p.left = false := Bool.eq_false_of_not_eq_true hleft
    refine ⟨?_, rfl, ?_⟩
    · have hright : yes settings now p.right = true := by
        by_contra hright
        exact hside.2 (hleft.trans (Bool.eq_false_of_not_eq_true hright).symm)
      simp only [wants, hside.1.1, hside.1.2, hleft, hright]
      rfl
    · intro owner howner
      cases owner with
      | reverse => exact absurd howner hreverse
      | pdc => exact absurd howner hpdc
      | indicatorLeft => exact le_rfl
      | indicatorRight => exact le_rfl

/-- What an evaluation of an enabled policy can come to. -/
inductive Evaluated : Policy V × Option Request → Prop
  | dismissed {next : Policy V} (owner : Owner) (suppressed : p.suppressed = some owner)
      (candidate : (candidate settings p now).map (·.owner) = some owner)
      (next_eq : next = { p with slow := slowAt settings p now }) : Evaluated (next, none)
  | presented {next : Policy V} (request : Request)
      (candidate : candidate settings p now = some request)
      (open_ : p.suppressed ≠ some request.owner)
      (next_eq : next = { p with
        slow := slowAt settings p now, suppressed := none, active := some request
        lastCandidate := now }) : Evaluated (next, some request)
  | held {next : Policy V} (request : Request) (candidate : candidate settings p now = none)
      (active : p.active = some request) (within : now - p.lastCandidate ≤ settings.hold)
      (side : request.owner.isIndicator = true →
        ¬(yes settings now p.left = true ∧ yes settings now p.right = true))
      (next_eq : next = { p with slow := slowAt settings p now, suppressed := none }) :
      Evaluated (next, some request)
  | ended {next : Policy V} (candidate : candidate settings p now = none)
      (next_eq : next = { p with
        slow := slowAt settings p now, suppressed := none, active := none }) :
      Evaluated (next, none)

theorem evaluate_evaluated (henabled : settings.enabled = true) :
    Evaluated settings p now (evaluate settings p now) := by
  unfold evaluate
  rw [if_neg (by simp [henabled])]
  cases hcandidate : candidate settings p now with
  | none =>
    have hsuppressed : (if (none : Option Request).map (·.owner) ≠ p.suppressed then none
        else p.suppressed) = none := by
      split_ifs with h
      · rfl
      · exact (not_not.mp h).symm
    simp only [hsuppressed]
    rw [if_neg (by simp)]
    split_ifs with hside hheld
    · exact .ended hcandidate rfl
    · obtain ⟨request, hactive⟩ := Option.ne_none_iff_exists'.mp hheld.1
      simp only [hactive]
      refine .held request hcandidate hactive hheld.2 ?_ (by rw [hactive])
      rintro hindicator ⟨hleft, hright⟩
      simp [hactive, hindicator, hleft, hright] at hside
    · exact .ended hcandidate rfl
  | some request =>
    by_cases hsuppressed : p.suppressed = some request.owner
    · have hsame : (if (some request).map (·.owner) ≠ p.suppressed then none
          else p.suppressed) = some request.owner := by
        rw [if_neg (by simp [hsuppressed]), hsuppressed]
      simp only [hsame]
      rw [if_pos (by simp)]
      refine .dismissed request.owner hsuppressed (by rw [hcandidate]; rfl) ?_
      rw [← hsuppressed]
    · have hnone : (if (some request).map (·.owner) ≠ p.suppressed then none
          else p.suppressed) = none := if_pos fun h => hsuppressed h.symm
      simp only [hnone]
      rw [if_neg (by simp)]
      exact .presented request hcandidate hsuppressed rfl

end

/-! ## What is remembered -/

variable {settings : Settings V} {events : List (Event V)} {event : Event V}

/-- The request was the candidate at an evaluation since the last invalidation. -/
def Presented (settings : Settings V) (events : List (Event V)) (time : ℤ) (request : Request) :
    Prop :=
  ∃ before after, events = before ++ .evaluate time :: after ∧ .invalidate ∉ after ∧
    candidate settings (policy settings before) time = some request

theorem Presented.concat {time : ℤ} {request : Request} (h : Presented settings events time request)
    (hevent : event ≠ .invalidate) : Presented settings (events ++ [event]) time request := by
  obtain ⟨before, after, rfl, hafter, hcandidate⟩ := h
  exact ⟨before, after ++ [event], by simp, not_mem_concat hafter hevent, hcandidate⟩

theorem policy_append (settings : Settings V) (before after : List (Event V)) :
    policy settings (before ++ after) = (run (step settings) (policy settings before) after).1 := by
  rw [policy, run_append, policy]

/-- The owner remains the candidate, and nothing but time and signals comes in. -/
def Remains (settings : Settings V) (owner : Owner) (p : Policy V) : Event V → Prop
  | .boolean _ _ => True
  | .speed _ => True
  | .evaluate now => (candidate settings p now).map (·.owner) = some owner
  | .manualSelection => False
  | .invalidate => False

/-- The owner was presented when the driver selected, and has remained the candidate since. -/
def Dismissed (settings : Settings V) (events : List (Event V)) (owner : Owner) : Prop :=
  ∃ before after, events = before ++ .manualSelection :: after ∧
    (policy settings before).active.map (·.owner) = some owner ∧
    Along (step settings) (Remains settings owner) (policy settings (before ++ [.manualSelection]))
      after

theorem Dismissed.concat {owner : Owner} (h : Dismissed settings events owner)
    (hevent : Remains settings owner (policy settings events) event) :
    Dismissed settings (events ++ [event]) owner := by
  obtain ⟨before, after, rfl, hactive, halong⟩ := h
  refine ⟨before, after ++ [event], by simp, hactive, ?_⟩
  rw [along_concat]
  refine ⟨halong, ?_⟩
  rw [← policy_append, List.append_assoc, List.singleton_append]
  exact hevent

/-- Everything the policy holds comes from an event that still counts. -/
structure Known (settings : Settings V) (events : List (Event V)) (p : Policy V) : Prop where
  boolean : ∀ signal value, p.signal signal = some value → Since events (.boolean signal value)
  speed : ∀ value, p.speed = some value → Since events (.speed value)
  active : ∀ request, p.active = some request →
    Presented settings events p.lastCandidate request
  exclusive : p.active ≠ none → p.suppressed = none
  dismissed : ∀ owner, p.suppressed = some owner → Dismissed settings events owner

theorem Known.start : Known settings [] ({} : Policy V) where
  boolean signal value h := by cases signal <;> exact nomatch h
  speed value h := nomatch h
  active request h := nomatch h
  exclusive h := absurd rfl h
  dismissed owner h := nomatch h

theorem Known.observe {p : Policy V} (h : Known settings events p) (value : SignalValue Bool)
    (signal : Signal) :
    Known settings (events ++ [.boolean signal value]) (p.observe value signal) := by
  obtain ⟨hspeed, hactive, hlast, hsuppressed⟩ := observe_rest p value signal
  constructor
  · intro other observed hother
    rw [signal_observe] at hother
    split_ifs at hother with hsame
    · cases hother
      exact hsame ▸ Since.last _ _
    · exact (h.boolean other observed hother).concat (by simp)
  · intro observed hobserved
    exact (h.speed observed (hspeed ▸ hobserved)).concat (by simp)
  · intro request hrequest
    rw [hlast]
    exact (h.active request (hactive ▸ hrequest)).concat (by simp)
  · rw [hactive, hsuppressed]
    exact h.exclusive
  · intro owner howner
    exact (h.dismissed owner (hsuppressed ▸ howner)).concat trivial

theorem Known.drive {p : Policy V} (h : Known settings events p) (value : SignalValue V) :
    Known settings (events ++ [.speed value]) { p with speed := some value } where
  boolean signal observed hobserved :=
    (h.boolean signal observed (by cases signal <;> exact hobserved)).concat (by simp)
  speed observed hobserved := by
    cases hobserved
    exact Since.last _ _
  active request hrequest := (h.active request hrequest).concat (by simp)
  exclusive := h.exclusive
  dismissed owner howner := (h.dismissed owner howner).concat trivial

/-- An evaluation leaves the signals as they are. -/
theorem Known.evaluated {next : Policy V} {now : ℤ}
    (h : Known settings events (policy settings events))
    (hsignals : ∀ signal, next.signal signal = (policy settings events).signal signal)
    (hspeed : next.speed = (policy settings events).speed)
    (hactive : ∀ request, next.active = some request →
      Presented settings (events ++ [.evaluate now]) next.lastCandidate request)
    (hexclusive : next.active ≠ none → next.suppressed = none)
    (hdismissed : ∀ owner, next.suppressed = some owner →
      Dismissed settings (events ++ [.evaluate now]) owner) :
    Known settings (events ++ [.evaluate now]) next where
  boolean signal value hvalue :=
    (h.boolean signal value (hsignals signal ▸ hvalue)).concat (by simp)
  speed value hvalue := (h.speed value (hspeed ▸ hvalue)).concat (by simp)
  active := hactive
  exclusive := hexclusive
  dismissed := hdismissed

theorem Known.evaluate (henabled : settings.enabled = true)
    (h : Known settings events (policy settings events)) (now : ℤ) :
    Known settings (events ++ [.evaluate now])
      (evaluate settings (policy settings events) now).1 := by
  have hevaluated := evaluate_evaluated settings (policy settings events) now henabled
  generalize Presentation.evaluate settings (policy settings events) now = result at hevaluated ⊢
  have hsignals (next : Policy V) (hreverse : next.reverse = (policy settings events).reverse)
      (hpdc : next.pdc = (policy settings events).pdc)
      (hleft : next.left = (policy settings events).left)
      (hright : next.right = (policy settings events).right) (signal : Signal) :
      next.signal signal = (policy settings events).signal signal := by
    cases signal with
    | reverse => exact hreverse
    | pdc => exact hpdc
    | left => exact hleft
    | right => exact hright
  cases hevaluated with
  | dismissed owner hsuppressed hcandidate hnext =>
    subst hnext
    refine h.evaluated (hsignals _ rfl rfl rfl rfl) rfl ?_ h.exclusive ?_
    · exact fun request hrequest => (h.active request hrequest).concat (by simp)
    · intro other hother
      obtain rfl : other = owner := Option.some.inj (hother.symm.trans hsuppressed)
      exact (h.dismissed other hother).concat hcandidate
  | presented request hcandidate hopen hnext =>
    subst hnext
    refine h.evaluated (hsignals _ rfl rfl rfl rfl) rfl ?_ (fun _ => rfl) (fun _ h => nomatch h)
    intro other hother
    cases hother
    exact ⟨events, [], rfl, List.not_mem_nil, hcandidate⟩
  | held request hcandidate hactive hwithin hside hnext =>
    subst hnext
    refine h.evaluated (hsignals _ rfl rfl rfl rfl) rfl ?_ (fun _ => rfl) (fun _ h => nomatch h)
    exact fun request hrequest => (h.active request hrequest).concat (by simp)
  | ended hcandidate hnext =>
    subst hnext
    exact h.evaluated (hsignals _ rfl rfl rfl rfl) rfl (fun _ h => nomatch h)
      (fun h => absurd rfl h) (fun _ h => nomatch h)

theorem Known.manualSelection (h : Known settings events (policy settings events)) :
    Known settings (events ++ [.manualSelection]) (policy settings events).manualSelection where
  boolean signal value hvalue :=
    (h.boolean signal value (by cases signal <;> exact hvalue)).concat (by simp)
  speed value hvalue := (h.speed value hvalue).concat (by simp)
  active request hrequest := nomatch hrequest
  exclusive hactive := absurd rfl hactive
  dismissed owner howner := ⟨events, [], rfl, howner, trivial⟩

theorem Known.invalidate (p : Policy V) :
    Known settings (events ++ [.invalidate]) p.invalidate where
  boolean signal value hvalue := by cases signal <;> exact nomatch hvalue
  speed value hvalue := nomatch hvalue
  active request hrequest := nomatch hrequest
  exclusive hactive := absurd rfl hactive
  dismissed owner howner := nomatch howner

theorem policy_known (henabled : settings.enabled = true) (events : List (Event V)) :
    Known settings events (policy settings events) := by
  induction events using List.reverseRecOn with
  | nil => exact Known.start
  | append_singleton events event ih =>
    rw [policy_concat]
    cases event with
    | boolean signal value => exact ih.observe value signal
    | speed value => exact ih.drive value
    | evaluate now => exact ih.evaluate henabled now
    | manualSelection => exact ih.manualSelection
    | invalidate => exact Known.invalidate _

/-- What has been dismissed is suppressed, and nothing else. -/
theorem suppressed_of_dismissed (henabled : settings.enabled = true) {owner : Owner}
    (h : Dismissed settings events owner) :
    (policy settings events).suppressed = some owner ∧ (policy settings events).active = none := by
  obtain ⟨before, after, rfl, hactive, halong⟩ := h
  have hsplit : before ++ .manualSelection :: after = before ++ [.manualSelection] ++ after := by
    simp
  rw [hsplit, policy_append]
  induction after using List.reverseRecOn with
  | nil =>
    rw [run_nil, policy_concat]
    exact ⟨hactive, rfl⟩
  | append_singleton after event ih =>
    rw [along_concat] at halong
    obtain ⟨hsuppressed, hnone⟩ := ih halong.1 (by simp)
    rw [run_concat]
    generalize (run (step settings) (policy settings (before ++ [.manualSelection])) after).1 = p
      at *
    cases event with
    | boolean signal value =>
      obtain ⟨-, hsame, -, hkept⟩ := observe_rest p value signal
      exact ⟨hkept.trans hsuppressed, hsame.trans hnone⟩
    | speed value => exact ⟨hsuppressed, hnone⟩
    | evaluate now =>
      have hremains : (candidate settings p now).map (·.owner) = some owner := halong.2
      have hevaluated := evaluate_evaluated settings p now henabled
      change (Presentation.evaluate settings p now).1.suppressed = some owner ∧
        (Presentation.evaluate settings p now).1.active = none
      generalize Presentation.evaluate settings p now = result at hevaluated ⊢
      cases hevaluated with
      | dismissed other hother hcandidate hnext =>
        subst hnext
        exact ⟨hsuppressed, hnone⟩
      | presented request hcandidate hopen hnext =>
        rw [hcandidate] at hremains
        rw [hsuppressed] at hopen
        exact absurd hremains.symm hopen
      | held request hcandidate _ _ _ _ =>
        rw [hcandidate] at hremains
        exact nomatch hremains
      | ended hcandidate _ =>
        rw [hcandidate] at hremains
        exact nomatch hremains
    | manualSelection => exact halong.2.elim
    | invalidate => exact halong.2.elim

/-! ## What a request rests on -/

def Owner.signal : Owner → Signal
  | .reverse => .reverse
  | .pdc => .pdc
  | .indicatorLeft => .left
  | .indicatorRight => .right

/-- A signal since the last invalidation that was fresh at an evaluation, and is not older now than
the hold allows. -/
structure Shown (settings : Settings V) (before : List (Event V)) (time now : ℤ)
    (event : Event V) (observed : ℤ) : Prop where
  since : Since before event
  fresh : observed ≤ time ∧ time - observed ≤ settings.maxAge
  age : now - observed ≤ max settings.hold 0 + settings.maxAge

/-- The signal of the owner, and but for reversing a speed. -/
def Rests (settings : Settings V) (before : List (Event V)) (time now : ℤ) (owner : Owner) :
    Prop :=
  (∃ value, value.value = true ∧
    Shown settings before time now (.boolean owner.signal value) value.observed) ∧
  (owner ≠ .reverse → ∃ value, Shown settings before time now (.speed value) value.observed)

theorem wants_yes {p : Policy V} {now : ℤ} {owner : Owner} (h : wants settings p now owner = true) :
    yes settings now (p.signal owner.signal) = true ∧
      (owner ≠ .reverse → slowAt settings p now = true) := by
  cases owner with
  | reverse => exact ⟨h, fun hne => absurd rfl hne⟩
  | pdc =>
    simp only [wants, Bool.and_eq_true] at h
    exact ⟨h.2, fun _ => h.1⟩
  | indicatorLeft =>
    simp only [wants, Bool.and_eq_true] at h
    exact ⟨h.1.2, fun _ => h.1.1.1⟩
  | indicatorRight =>
    simp only [wants, Bool.and_eq_true] at h
    exact ⟨h.1.2, fun _ => h.1.1.1⟩

theorem rests_of_wants (hknown : Known settings events (policy settings events)) {owner : Owner}
    {time now : ℤ} (hage : now - time ≤ max settings.hold 0)
    (h : wants settings (policy settings events) time owner = true) :
    Rests settings events time now owner := by
  obtain ⟨hyes, hslow⟩ := wants_yes h
  constructor
  · obtain ⟨value, hvalue, htrue, hfresh⟩ := yes_iff.mp hyes
    rw [fresh_iff] at hfresh
    exact ⟨value, htrue, hknown.boolean _ value hvalue, hfresh, by omega⟩
  · intro hne
    obtain ⟨value, hvalue, hfresh⟩ := (Option.any_eq_true _ _).mp (hslow hne)
    rw [Bool.and_eq_true, fresh_iff] at hfresh
    exact ⟨value, hknown.speed value hvalue, hfresh.1, by omega⟩

/-! ## Results -/

/-- A presented request was the candidate, now or before within the hold. -/
theorem presented_of_evaluate (henabled : settings.enabled = true) {now : ℤ} {request : Request}
    (hordered : Ordered (events ++ [.evaluate now]))
    (h : (evaluate settings (policy settings events) now).2 = some request) :
    ∃ time, time ≤ now ∧ (time = now ∨ now - time ≤ settings.hold) ∧
      Presented settings (events ++ [.evaluate now]) time request := by
  have hevaluated := evaluate_evaluated settings (policy settings events) now henabled
  generalize evaluate settings (policy settings events) now = result at hevaluated h
  cases hevaluated with
  | dismissed _ _ _ _ => exact nomatch h
  | presented other hcandidate _ _ =>
    cases h
    exact ⟨now, le_rfl, Or.inl rfl, events, [], rfl, List.not_mem_nil, hcandidate⟩
  | held other _ hactive hwithin _ _ =>
    cases h
    have hpresented := (policy_known henabled events).active request hactive
    refine ⟨(policy settings events).lastCandidate, ?_, Or.inr hwithin,
      hpresented.concat (by simp)⟩
    obtain ⟨before, after, hsplit, -, -⟩ := hpresented
    unfold Ordered at hordered
    rw [List.filterMap_append, List.pairwise_append] at hordered
    apply hordered.2.2
    · generalize (policy settings events).lastCandidate = last at hsplit
      have hmem : .evaluate last ∈ events := by
        rw [hsplit]
        simp
      exact List.mem_filterMap.mpr ⟨_, hmem, rfl⟩
    · simp [Event.time]
  | ended _ _ => exact nomatch h

/-- A request was the foremost one at an evaluation within the hold and rests on signals since the
last invalidation; reversing prevails, hazards end a side view, and what has been dismissed is not
presented while it remains the candidate. -/
theorem presentation_bounds (settings : Settings V) (henabled : settings.enabled = true)
    (events : List (Event V)) (now : ℤ) (hordered : Ordered (events ++ [.evaluate now])) :
    let p := policy settings events
    let result := (evaluate settings p now).2
    (∀ request, result = some request → ∃ before time after,
      events ++ [.evaluate now] = before ++ .evaluate time :: after ∧ .invalidate ∉ after ∧
        time ≤ now ∧ (time = now ∨ now - time ≤ settings.hold) ∧
        Foremost settings (policy settings before) time request ∧
        Rests settings before time now request.owner) ∧
    (yes settings now p.reverse = true → ¬Dismissed settings events .reverse →
      result = some ⟨.reverse, .rear⟩) ∧
    (yes settings now p.left = true → yes settings now p.right = true →
      ∀ request, result = some request → request.owner.isIndicator = false) ∧
    ∀ owner, Dismissed settings events owner → ∀ request, result = some request →
      request.owner ≠ owner := by
  intro p result
  have hknown := policy_known henabled events
  have hevaluated := evaluate_evaluated settings p now henabled
  refine ⟨?_, ?_, ?_, ?_⟩
  · intro request hrequest
    obtain ⟨time, htime, hage, before, after, hsplit, hafter, hcandidate⟩ :=
      presented_of_evaluate henabled hordered hrequest
    have hforemost := candidate_foremost settings (policy settings before) time hcandidate
    refine ⟨before, time, after, hsplit, hafter, htime, hage, hforemost, ?_⟩
    apply rests_of_wants (policy_known henabled before) _ hforemost.1
    omega
  · intro hreverse hfree
    have hcandidate : candidate settings p now = some ⟨.reverse, .rear⟩ := by
      rw [candidate, if_pos hreverse]
    change (evaluate settings p now).2 = _
    generalize evaluate settings p now = outcome at hevaluated
    cases hevaluated with
    | dismissed owner hsuppressed hsame _ =>
      rw [hcandidate] at hsame
      cases hsame
      exact absurd (hknown.dismissed _ hsuppressed) hfree
    | presented request hrequest _ _ => exact hrequest.symm.trans hcandidate
    | held request hnone _ _ _ _ => exact nomatch hnone.symm.trans hcandidate
    | ended hnone _ => exact nomatch hnone.symm.trans hcandidate
  · intro hleft hright request hrequest
    change (evaluate settings p now).2 = _ at hrequest
    generalize evaluate settings p now = outcome at hevaluated hrequest
    cases hevaluated with
    | dismissed _ _ _ _ => exact nomatch hrequest
    | presented other hcandidate _ _ =>
      cases hrequest
      have hwants := (candidate_foremost settings p now hcandidate).1
      cases howner : request.owner with
      | reverse => rfl
      | pdc => rfl
      | indicatorLeft => simp [howner, wants, hright] at hwants
      | indicatorRight => simp [howner, wants, hleft] at hwants
    | held other _ _ _ hside _ =>
      cases hrequest
      by_contra hindicator
      exact hside (Bool.eq_true_of_not_eq_false hindicator) ⟨hleft, hright⟩
    | ended _ _ => exact nomatch hrequest
  · intro owner hdismissed request hrequest
    obtain ⟨hsuppressed, hnone⟩ := suppressed_of_dismissed henabled hdismissed
    change (evaluate settings p now).2 = _ at hrequest
    generalize evaluate settings p now = outcome at hevaluated hrequest
    cases hevaluated with
    | dismissed _ _ _ _ => exact nomatch hrequest
    | presented other _ hopen _ =>
      cases hrequest
      intro hsame
      exact hopen (hsuppressed.trans (congrArg some hsame.symm))
    | held other _ hactive _ _ _ => exact nomatch hnone.symm.trans hactive
    | ended _ _ => exact nomatch hrequest

/-- The rear camera is held after reversing has ended. -/
theorem presentation_bounds_held :
    ∃ before time after,
      [.boolean .reverse ⟨true, 0⟩, .evaluate 5, .boolean .reverse ⟨false, 10⟩] ++
          [.evaluate 10] = before ++ (.evaluate time : Event ℤ) :: after ∧
        .invalidate ∉ after ∧ time ≤ 10 ∧ (time = 10 ∨ 10 - time ≤ 800) := by
  obtain ⟨before, time, after, hsplit, hafter, htime, hage, -⟩ :=
    (presentation_bounds (V := ℤ) ⟨false, true, 3, 1, 750, 800⟩ rfl
      [.boolean .reverse ⟨true, 0⟩, .evaluate 5, .boolean .reverse ⟨false, 10⟩] 10
      (by decide)).1 ⟨.reverse, .rear⟩ (by decide)
  exact ⟨before, time, after, hsplit, hafter, htime, hage⟩

/-- Nothing is asked of selections and invalidations. -/
def RemainsCandidate (settings : Settings V) (owner : Owner) (p : Policy V) : Event V → Prop
  | .evaluate now => (candidate settings p now).map (·.owner) = some owner
  | _ => True

/-- An invalidation lifts the suppression though the owner has remained the candidate at every
evaluation. -/
theorem suppression_lifted :
    ¬∀ (settings : Settings ℤ) (before after : List (Event ℤ)) (now : ℤ) (request : Request),
      settings.enabled = true → (policy settings before).active = some request →
      Along (step settings) (RemainsCandidate settings request.owner)
        (policy settings (before ++ [.manualSelection])) after →
      (evaluate settings (policy settings (before ++ .manualSelection :: after)) now).2 ≠
        some request := by
  intro h
  refine h ⟨false, true, 3, 1, 750, 800⟩ [.boolean .reverse ⟨true, 0⟩, .evaluate 0]
    [.evaluate 0, .invalidate, .boolean .reverse ⟨true, 0⟩] 0 ⟨.reverse, .rear⟩ rfl ?_ ?_ ?_
  · decide
  · exact ⟨rfl, trivial, trivial, trivial⟩
  · decide

end ProjectArgo.Camera.Presentation
