import Mathlib.Data.List.Basic

/-!
# Fragments and redelivery

`chunks` cuts a list into consecutive pieces of bounded size. `redelivered`
describes a link that may hand over every item several times before it goes on
to the next one.
-/
namespace Library.Fragments

variable {α : Type*}

/-- Consecutive pieces of at most `size` elements, all but the last full. -/
def chunks (size : ℕ) (xs : List α) : List (List α) :=
  if size = 0 ∨ xs = [] then [] else xs.take size :: chunks size (xs.drop size)
termination_by xs.length
decreasing_by
  rename_i h
  rw [not_or] at h
  have hpos := List.length_pos_iff.mpr h.2
  rw [List.length_drop]
  omega

theorem flatten_chunks {size : ℕ} (hsize : size ≠ 0) (xs : List α) :
    (chunks size xs).flatten = xs := by
  induction xs using chunks.induct size with
  | case1 xs h =>
    rw [chunks, if_pos h, h.resolve_left hsize]
    rfl
  | case2 xs h ih => rw [chunks, if_neg h, List.flatten_cons, ih, List.take_append_drop]

theorem bounds_of_mem_chunks {size : ℕ} {xs piece : List α} (h : piece ∈ chunks size xs) :
    piece ≠ [] ∧ piece.length ≤ size := by
  induction xs using chunks.induct size with
  | case1 xs hstop => simp [chunks, hstop] at h
  | case2 xs hstop ih =>
    rw [chunks, if_neg hstop, List.mem_cons] at h
    rcases h with rfl | h
    · refine ⟨?_, List.length_take_le size xs⟩
      rw [not_or] at hstop
      simpa [List.take_eq_nil_iff] using hstop
    · exact ih h

theorem chunks_ne_nil {size : ℕ} {xs : List α} (hsize : size ≠ 0) (hxs : xs ≠ []) :
    chunks size xs ≠ [] := by
  rw [chunks, if_neg (by simp [hsize, hxs])]
  exact List.cons_ne_nil _ _

/-- Every item in order, the `i`-th followed by `copies i` repetitions of itself. -/
def redelivered : (ℕ → ℕ) → List α → List α
  | _, [] => []
  | copies, x :: xs => List.replicate (copies 0 + 1) x ++ redelivered (fun i => copies (i + 1)) xs

theorem redelivered_append (copies : ℕ → ℕ) (xs ys : List α) :
    redelivered copies (xs ++ ys) =
      redelivered copies xs ++ redelivered (fun i => copies (i + xs.length)) ys := by
  induction xs generalizing copies with
  | nil => rfl
  | cons x xs ih =>
    have hshift : (fun i => copies (i + xs.length + 1)) = fun i => copies (i + (xs.length + 1)) := by
      funext i
      rw [Nat.add_assoc]
    simp [redelivered, ih, hshift]

end Library.Fragments
