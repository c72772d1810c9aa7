import Mathlib.Data.List.Induction

/-!
# Runs of a deterministic machine

A machine is a step function from a state and an input to the next state and
an output. `run` feeds it a finite list of inputs and keeps the history of
answered inputs. The two induction rules below are the only way later results
reason about runs: one for properties of the state, one for properties that
tie the state to everything that happened before it. `Always` speaks about
every step of a history together with what happened before that step.
-/
namespace Library.Run

variable {σ ι ω : Type*} (step : σ → ι → σ × ω)

/-- The state after a list of inputs, with every input and its output in order. -/
def run : σ → List ι → σ × List (ι × ω)
  | s, [] => (s, [])
  | s, i :: is =>
    let next := step s i
    let rest := run next.1 is
    (rest.1, (i, next.2) :: rest.2)

@[simp] theorem run_nil (s : σ) : run step s [] = (s, []) := rfl

theorem run_append (s : σ) (is js : List ι) :
    run step s (is ++ js) =
      ((run step (run step s is).1 js).1, (run step s is).2 ++ (run step (run step s is).1 js).2) := by
  induction is generalizing s with
  | nil => rfl
  | cons i is ih => simp [run, ih]

theorem run_concat (s : σ) (is : List ι) (i : ι) :
    run step s (is ++ [i]) =
      ((step (run step s is).1 i).1, (run step s is).2 ++ [(i, (step (run step s is).1 i).2)]) := by
  rw [run_append]
  rfl

/-- What holds at the start and is preserved by each step ties every reached
state to the history that led to it. -/
theorem run_history {I : σ → List (ι × ω) → Prop} {s : σ} (start : I s [])
    (preserved : ∀ t h i, I t h → I (step t i).1 (h ++ [(i, (step t i).2)])) (is : List ι) :
    I (run step s is).1 (run step s is).2 := by
  induction is using List.reverseRecOn with
  | nil => exact start
  | append_singleton is i ih =>
    rw [run_concat]
    exact preserved _ _ i ih

/-- The history-free form of `run_history`. -/
theorem run_invariant {I : σ → Prop} {s : σ} (start : I s)
    (preserved : ∀ t i, I t → I (step t i).1) (is : List ι) : I (run step s is).1 :=
  run_history step (I := fun t _ => I t) start (fun t _ i => preserved t i) is

/-- Every input meets a condition on the state it finds. -/
def Along (P : σ → ι → Prop) : σ → List ι → Prop
  | _, [] => True
  | s, i :: is => P s i ∧ Along P (step s i).1 is

instance decidableAlong (P : σ → ι → Prop) [∀ s i, Decidable (P s i)] :
    (s : σ) → (is : List ι) → Decidable (Along step P s is)
  | _, [] => isTrue trivial
  | s, i :: is =>
    have := decidableAlong P (step s i).1 is
    inferInstanceAs (Decidable (P s i ∧ _))

theorem along_concat {P : σ → ι → Prop} {s : σ} {is : List ι} {i : ι} :
    Along step P s (is ++ [i]) ↔ Along step P s is ∧ P (run step s is).1 i := by
  induction is generalizing s with
  | nil => simp [Along]
  | cons j is ih =>
    rw [List.cons_append]
    simp only [Along, run, ih, and_assoc]

theorem Along.left {P : σ → ι → Prop} {s : σ} {is js : List ι} (h : Along step P s (is ++ js)) :
    Along step P s is := by
  induction js using List.reverseRecOn with
  | nil => rwa [List.append_nil] at h
  | append_singleton js j ih =>
    rw [← List.append_assoc, along_concat] at h
    exact ih h.1

/-- What holds of no inputs, and of one more input whenever it meets the condition. -/
theorem along_induction {P : σ → ι → Prop} {s : σ} {I : List ι → Prop} (start : I [])
    (more : ∀ is i, I is → P (run step s is).1 i → I (is ++ [i])) (is : List ι)
    (h : Along step P s is) : I is := by
  induction is using List.reverseRecOn with
  | nil => exact start
  | append_singleton is i ih =>
    rw [along_concat] at h
    exact more is i (ih h.1) h.2

/-- Every entry of a log has the property, given the entries before it. -/
def Guarded {α : Type*} (P : List α → α → Prop) (log : List α) : Prop :=
  ∀ before entry after, log = before ++ entry :: after → P before entry

theorem guarded_nil {α : Type*} (P : List α → α → Prop) : Guarded P [] := by
  intro before entry after h
  simp at h

theorem guarded_concat {α : Type*} {P : List α → α → Prop} {log : List α} {entry : α} :
    Guarded P (log ++ [entry]) ↔ Guarded P log ∧ P log entry := by
  constructor
  · intro h
    refine ⟨?_, h log entry [] rfl⟩
    intro before other after hsplit
    apply h before other (after ++ [entry])
    rw [hsplit, List.append_assoc, List.cons_append]
  · rintro ⟨hlog, hlast⟩ before other after hsplit
    rcases List.eq_nil_or_concat after with rfl | ⟨rest, last, rfl⟩
    · obtain ⟨rfl, hentry⟩ := List.append_inj' hsplit rfl
      cases hentry
      exact hlast
    · rw [List.concat_eq_append, ← List.cons_append, ← List.append_assoc] at hsplit
      exact hlog before other rest (List.append_inj' hsplit rfl).1

/-- Entries that have the property whatever came before them. -/
theorem guarded_append_of_forall {α : Type*} {P : List α → α → Prop} {log entries : List α}
    (hlog : Guarded P log) (h : ∀ entry ∈ entries, ∀ before, log <+: before → P before entry) :
    Guarded P (log ++ entries) := by
  induction entries using List.reverseRecOn with
  | nil => rwa [List.append_nil]
  | append_singleton entries entry ih =>
    rw [← List.append_assoc, guarded_concat]
    refine ⟨ih fun other hother => h other (List.mem_append_left _ hother), ?_⟩
    exact h entry (by simp) _ (List.prefix_append log entries)

/-- Every entry of the history has the property, given the history before it. -/
def Always (P : List (ι × ω) → ι → ω → Prop) : List (ι × ω) → Prop :=
  Guarded fun before entry => P before entry.1 entry.2

theorem always_nil (P : List (ι × ω) → ι → ω → Prop) : Always P [] := guarded_nil _

theorem always_concat {P : List (ι × ω) → ι → ω → Prop} {history : List (ι × ω)} {i : ι} {o : ω} :
    Always P (history ++ [(i, o)]) ↔ Always P history ∧ P history i o := guarded_concat

/-- A run with one more input. -/
theorem always_run_concat {P : List (ι × ω) → ι → ω → Prop} {s : σ} {is : List ι} {i : ι} :
    Always P (run step s (is ++ [i])).2 ↔
      Always P (run step s is).2 ∧ P (run step s is).2 i (step (run step s is).1 i).2 := by
  rw [run_concat, always_concat]

end Library.Run
