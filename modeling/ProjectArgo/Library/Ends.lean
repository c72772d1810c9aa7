import Mathlib.Tactic.TypeStar

/-!
# Steps that may end a loop

A step of a loop gives the state it goes on with, or ends the loop in a state that still has to
be cleaned up. `Ends P Q x` says that the loop ends only in states with `P` and goes on only with
what has `Q`. Steps in sequence are taken one at a time.
-/
namespace Library.Ends

universe u

variable {σ : Type*} {α β : Type u} {P : σ → Prop} {Q Q' : α → Prop} {R : β → Prop}

def Ends (P : σ → Prop) (Q : α → Prop) : Except σ α → Prop
  | .ok a => Q a
  | .error s => P s

@[simp] theorem ends_ok {a : α} : Ends P Q (.ok a) ↔ Q a := Iff.rfl

@[simp] theorem ends_error {s : σ} : Ends P Q (.error s) ↔ P s := Iff.rfl

@[simp] theorem ends_pure {a : α} : Ends P Q (pure a) ↔ Q a := Iff.rfl

theorem Ends.bind {x : Except σ α} {f : α → Except σ β} (hx : Ends P Q x)
    (hf : ∀ a, Q a → Ends P R (f a)) : Ends P R (x >>= f) := by
  cases x with
  | ok a => exact hf a hx
  | error s => exact hx

theorem Ends.mono {x : Except σ α} (hx : Ends P Q x) (hQ : ∀ a, Q a → Q' a) : Ends P Q' x := by
  cases x with
  | ok a => exact hQ a hx
  | error s => exact hx

/-- Two steps succeed if each of them does. -/
theorem bind_eq_ok {ε : Type*} {x : Except ε α} {f : α → Except ε β} {b : β} :
    x >>= f = .ok b ↔ ∃ a, x = .ok a ∧ f a = .ok b := by
  cases x with
  | error e => simp [bind, Except.bind]
  | ok a => simp [bind, Except.bind]

/-- A list of steps, each of which keeps what the first finds. -/
theorem Ends.foldlM {ι : Type*} {σ : Type u} {P I : σ → Prop} {f : σ → ι → Except σ σ} {s : σ}
    (hs : I s) (hf : ∀ i t, I t → Ends P I (f t i)) (is : List ι) : Ends P I (is.foldlM f s) := by
  induction is generalizing s with
  | nil => exact hs
  | cons i is ih =>
    rw [List.foldlM_cons]
    exact (hf i s hs).bind fun t ht => ih ht

end Library.Ends
