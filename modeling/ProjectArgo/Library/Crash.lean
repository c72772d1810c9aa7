import Mathlib.Init

/-!
# Programs that may be cut short

A program changes a state step by step. Each step may complete, fail without effect, or
be the point of a crash, which comes before the step takes effect, after it, or halfway
through; reading the state always succeeds. A failure may be caught, a crash ends
everything. What each step comes to is given beforehand as a list of outcomes, and once
the list is used up all steps complete. A `Spec` says what holds in each of the three
cases, and a `Triple` that a program meets it.
-/
namespace Library

universe u v

inductive Outcome
  | complete
  | fail
  | before
  | halfway
  | after
  deriving DecidableEq

inductive Ending (α : Type u)
  | returned (value : α)
  | threw
  | crashed

/-- A program from a state and what its steps will come to. -/
def Crashing (σ : Type v) (α : Type u) : Type (max u v) :=
  σ → List Outcome → Ending α × σ × List Outcome

namespace Crashing

variable {σ : Type v} {α β : Type u}

protected def pure (value : α) : Crashing σ α := fun state outcomes => (.returned value, state, outcomes)

protected def bind (program : Crashing σ α) (next : α → Crashing σ β) : Crashing σ β :=
  fun state outcomes =>
    match program state outcomes with
    | (.returned value, state, outcomes) => next value state outcomes
    | (.threw, state, outcomes) => (.threw, state, outcomes)
    | (.crashed, state, outcomes) => (.crashed, state, outcomes)

instance : Monad (Crashing σ) where
  pure := Crashing.pure
  bind := Crashing.bind

def throw : Crashing σ α := fun state outcomes => (.threw, state, outcomes)

/-- The state is looked at. -/
def look (f : σ → α) : Crashing σ α :=
  fun state outcomes => (.returned (f state), state, outcomes)

/-- A step with its effect, and what a crash halfway through leaves. -/
def act (whole half : σ → σ) : Crashing σ PUnit := fun state outcomes =>
  match outcomes.headD .complete with
  | .complete => (.returned ⟨⟩, whole state, outcomes.tail)
  | .fail => (.threw, state, outcomes.tail)
  | .before => (.crashed, state, outcomes.tail)
  | .halfway => (.crashed, half state, outcomes.tail)
  | .after => (.crashed, whole state, outcomes.tail)

def catching (program handler : Crashing σ α) : Crashing σ α := fun state outcomes =>
  match program state outcomes with
  | (.threw, state, outcomes) => handler state outcomes
  | ended => ended

/-- What holds in each way a program can end. -/
structure Spec (σ : Type v) (α : Type u) where
  returns : α → σ → Prop
  throws : σ → Prop
  crashes : σ → Prop

def Spec.Holds (spec : Spec σ α) : Ending α × σ × List Outcome → Prop
  | (.returned value, state, _) => spec.returns value state
  | (.threw, state, _) => spec.throws state
  | (.crashed, state, _) => spec.crashes state

/-- Whatever its steps come to, the program meets the specification. -/
def Triple (pre : σ → Prop) (program : Crashing σ α) (spec : Spec σ α) : Prop :=
  ∀ state outcomes, pre state → spec.Holds (program state outcomes)

variable {pre : σ → Prop} {program handler : Crashing σ α} {spec : Spec σ α}

theorem triple_pure {value : α} (h : ∀ state, pre state → spec.returns value state) :
    Triple pre (Pure.pure value : Crashing σ α) spec := fun state _ hpre => h state hpre

theorem triple_throw (h : ∀ state, pre state → spec.throws state) :
    Triple pre (throw : Crashing σ α) spec := fun state _ hpre => h state hpre

theorem triple_act {whole half : σ → σ} {spec : Spec σ PUnit}
    (hdone : ∀ state, pre state → spec.returns ⟨⟩ (whole state))
    (hfail : ∀ state, pre state → spec.throws state)
    (hcrash : ∀ state, pre state →
      spec.crashes state ∧ spec.crashes (half state) ∧ spec.crashes (whole state)) :
    Triple pre (act whole half) spec := by
  intro state outcomes hpre
  obtain ⟨hbefore, hhalf, hafter⟩ := hcrash state hpre
  unfold act
  cases outcomes.headD .complete with
  | complete => exact hdone state hpre
  | fail => exact hfail state hpre
  | before => exact hbefore
  | halfway => exact hhalf
  | after => exact hafter

/-- One run of a program, followed by programs that meet the specification. -/
theorem holds_bind {next : α → Crashing σ β} {spec : Spec σ β} (middle : α → σ → Prop) {state : σ}
    {outcomes : List Outcome}
    (hfirst : Spec.Holds ⟨middle, spec.throws, spec.crashes⟩ (program state outcomes))
    (hnext : ∀ value, Triple (middle value) (next value) spec) :
    spec.Holds ((program >>= next) state outcomes) := by
  change spec.Holds (Crashing.bind program next state outcomes)
  unfold Crashing.bind
  rcases hrun : program state outcomes with ⟨_ | _ | _, state', outcomes'⟩
  · rw [hrun] at hfirst
    exact hnext _ state' outcomes' hfirst
  · rw [hrun] at hfirst
    exact hfirst
  · rw [hrun] at hfirst
    exact hfirst

theorem triple_bind {next : α → Crashing σ β} {spec : Spec σ β} (middle : α → σ → Prop)
    (hfirst : Triple pre program ⟨middle, spec.throws, spec.crashes⟩)
    (hnext : ∀ value, Triple (middle value) (next value) spec) :
    Triple pre (program >>= next) spec :=
  fun state outcomes hpre => holds_bind middle (hfirst state outcomes hpre) hnext

/-- A program that begins by looking at the state. -/
theorem triple_look {f : σ → α} {next : α → Crashing σ β} {spec : Spec σ β}
    (h : ∀ value, Triple (fun state => pre state ∧ f state = value) (next value) spec) :
    Triple pre (look f >>= next) spec :=
  fun state outcomes hpre => h (f state) state outcomes ⟨hpre, rfl⟩

theorem triple_catching (middle : σ → Prop)
    (hprogram : Triple pre program ⟨spec.returns, middle, spec.crashes⟩)
    (hhandler : Triple middle handler spec) : Triple pre (catching program handler) spec := by
  intro state outcomes hpre
  have h := hprogram state outcomes hpre
  unfold catching
  rcases hrun : program state outcomes with ⟨_ | _ | _, state', outcomes'⟩
  · rw [hrun] at h
    exact h
  · rw [hrun] at h
    exact hhandler state' outcomes' h
  · rw [hrun] at h
    exact h

theorem triple_mono {weaker : σ → Prop} {stronger : Spec σ α} (h : Triple weaker program stronger)
    (hpre : ∀ state, pre state → weaker state)
    (hreturns : ∀ value state, stronger.returns value state → spec.returns value state)
    (hthrows : ∀ state, stronger.throws state → spec.throws state)
    (hcrashes : ∀ state, stronger.crashes state → spec.crashes state) :
    Triple pre program spec := by
  intro state outcomes hstate
  have hholds := h state outcomes (hpre state hstate)
  rcases hrun : program state outcomes with ⟨value | _ | _, state', outcomes'⟩
  · rw [hrun] at hholds
    exact hreturns value state' hholds
  · rw [hrun] at hholds
    exact hthrows state' hholds
  · rw [hrun] at hholds
    exact hcrashes state' hholds

/-- A choice that the precondition may know about. -/
theorem triple_ite {c : Prop} [Decidable c] {first second : Crashing σ α}
    (hfirst : c → Triple pre first spec) (hsecond : ¬c → Triple pre second spec) :
    Triple pre (if c then first else second) spec := by
  split
  · exact hfirst ‹_›
  · exact hsecond ‹_›

end Crashing

end Library
