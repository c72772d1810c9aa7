import Mathlib.Tactic.TypeStar

/-!
# Checks that decide

A check succeeds or fails with an error. It decides a proposition if it succeeds
exactly where the proposition holds and fails only with errors of one kind.
Checks in sequence decide a conjunction, where the later ones may rely on what the
earlier ones have found.
-/
namespace Library.Deciding

variable {ε α : Type*} {E : ε → Prop} {p q : Prop}

def check (failure : ε) (p : Prop) [Decidable p] : Except ε Unit :=
  if p then .ok () else .error failure

/-- The checks of all members of a list, in order. -/
def each (f : α → Except ε Unit) : List α → Except ε Unit
  | [] => .ok ()
  | a :: rest => do
    f a
    each f rest

structure Decides (E : ε → Prop) (p : Prop) (x : Except ε Unit) : Prop where
  ok_iff : x = .ok () ↔ p
  refused : ∀ e, x = .error e → E e

theorem check_eq_ok {failure : ε} [Decidable p] : check failure p = .ok () ↔ p := by
  unfold check
  split
  · next hp => exact iff_of_true rfl hp
  · next hp => exact iff_of_false (fun h => nomatch h) hp

theorem decides_check {failure : ε} [Decidable p] (h : E failure) :
    Decides E p (check failure p) where
  ok_iff := check_eq_ok
  refused := by
    intro e he
    unfold check at he
    split at he
    · exact nomatch he
    · cases he
      exact h

theorem decides_ok : Decides E True (.ok ()) where
  ok_iff := iff_of_true rfl trivial
  refused := fun _ he => nomatch he

theorem Decides.congr {x : Except ε Unit} (h : Decides E p x) (hpq : p ↔ q) : Decides E q x where
  ok_iff := h.ok_iff.trans hpq
  refused := h.refused

theorem Decides.bind {x : Except ε Unit} {f : Unit → Except ε Unit} (hx : Decides E p x)
    (hf : p → Decides E q (f ())) : Decides E (p ∧ q) (x >>= f) := by
  cases hcase : x with
  | error e =>
    have hp : ¬p := by
      intro hp
      rw [hx.ok_iff.mpr hp] at hcase
      exact nomatch hcase
    refine ⟨iff_of_false (fun h => nomatch h) fun h => hp h.1, ?_⟩
    intro e' he
    cases he
    exact hx.refused e hcase
  | ok u =>
    have hp : p := hx.ok_iff.mp hcase
    exact (hf hp).congr (by simp [hp])

/-- A first check that the whole implies. -/
theorem Decides.bind_of {x : Except ε Unit} {f : Unit → Except ε Unit} (hx : Decides E p x)
    (hqp : q → p) (hf : p → Decides E q (f ())) : Decides E q (x >>= f) :=
  (hx.bind hf).congr (and_iff_right_of_imp hqp)

theorem decides_each {P : α → Prop} {f : α → Except ε Unit} {l : List α}
    (h : ∀ a ∈ l, Decides E (P a) (f a)) : Decides E (∀ a ∈ l, P a) (each f l) := by
  induction l with
  | nil => exact decides_ok.congr (by simp)
  | cons a l ih =>
    have hrest := ih fun b hb => h b (List.mem_cons_of_mem a hb)
    apply ((h a (List.mem_cons_self ..)).bind fun _ => hrest).congr
    rw [List.forall_mem_cons]

/-- Two checks in sequence succeed if both do. -/
theorem bind_eq_ok {x : Except ε Unit} {f : Unit → Except ε Unit} :
    x >>= f = .ok () ↔ x = .ok () ∧ f () = .ok () := by
  cases x with
  | error e => exact iff_of_false (fun h => nomatch h) fun h => nomatch h.1
  | ok u => exact (and_iff_right rfl).symm

theorem each_eq_ok {f : α → Except ε Unit} {l : List α} :
    each f l = .ok () ↔ ∀ a ∈ l, f a = .ok () := by
  induction l with
  | nil => simp [each]
  | cons a l ih => rw [each, bind_eq_ok, ih, List.forall_mem_cons]

end Library.Deciding
