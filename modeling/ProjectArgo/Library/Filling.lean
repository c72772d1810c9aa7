import Mathlib.Data.List.Basic

/-!
# Filling a buffer

A buffer of a fixed size is filled by reads that give what there is, up to the free space. A read
may also break off, and nobody need be waiting for it any more: what was read stays in the buffer,
and filling goes on from there.
-/
namespace Library.Filling

variable {α ε : Type*}

/-- What a read meets: at most so many elements are there, or it breaks off. -/
inductive Arrival (ε : Type*)
  | elements (count : ℕ)
  | broken (error : ε)

/-- Cells, of which the first are used. -/
structure Buffer (α : Type*) where
  cells : List α
  used : ℕ
  fits : used ≤ cells.length

namespace Buffer

variable (buffer : Buffer α)

def filled : List α := buffer.cells.take buffer.used

def space : ℕ := buffer.cells.length - buffer.used

@[simp] theorem length_filled : buffer.filled.length = buffer.used := by
  rw [filled, List.length_take, Nat.min_eq_left buffer.fits]

/-- What is read goes behind what is used. -/
def put (read : List α) (h : read.length ≤ buffer.space) : Buffer α where
  cells := buffer.filled ++ read ++ buffer.cells.drop (buffer.used + read.length)
  used := buffer.used + read.length
  fits := by simp

@[simp] theorem put_used (read : List α) (h : read.length ≤ buffer.space) :
    (buffer.put read h).used = buffer.used + read.length := rfl

@[simp] theorem length_put (read : List α) (h : read.length ≤ buffer.space) :
    (buffer.put read h).cells.length = buffer.cells.length := by
  have hfits := buffer.fits
  simp only [space] at h
  simp only [put, List.length_append, length_filled, List.length_drop]
  omega

@[simp] theorem filled_put (read : List α) (h : read.length ≤ buffer.space) :
    (buffer.put read h).filled = buffer.filled ++ read := by
  rw [filled, put_used]
  apply List.take_left'
  rw [List.length_append, length_filled]

/-- A buffer without free cells is all filled. -/
theorem filled_of_full (h : buffer.used = buffer.cells.length) : buffer.filled = buffer.cells := by
  rw [filled, h, List.take_length]

/-- Nothing in it is used. -/
def clear : Buffer α := ⟨buffer.cells, 0, Nat.zero_le _⟩

@[simp] theorem filled_clear : buffer.clear.filled = [] := rfl

end Buffer

/-- How filling comes to an end: the buffer is full, there is nothing more to read, the read broke
off, or it still waits. -/
inductive Ending (ε : Type*)
  | full
  | ended
  | broken (error : ε)
  | waiting

structure Filled (α ε : Type*) where
  ending : Ending ε
  buffer : Buffer α
  rest : List α
  arrivals : List (Arrival ε)

/-- One read gives elements that stand next, no more than there is space for. -/
def reads (buffer : Buffer α) (rest : List α) (count : ℕ) : List α :=
  rest.take (min count buffer.space)

theorem length_reads (buffer : Buffer α) (rest : List α) (count : ℕ) :
    (reads buffer rest count).length ≤ buffer.space :=
  Nat.le_trans (List.length_take_le _ _) (Nat.min_le_right _ _)

theorem reads_append (buffer : Buffer α) (rest : List α) (count : ℕ) :
    reads buffer rest count ++ rest.drop (reads buffer rest count).length = rest := by
  conv_rhs => rw [← List.take_append_drop (min count buffer.space) rest]
  congr 1
  rw [reads, List.length_take, List.drop_eq_drop_iff]
  omega

/-- Reads are made until the buffer is full. -/
def fill (buffer : Buffer α) (rest : List α) : List (Arrival ε) → Filled α ε
  | [] => ⟨if buffer.space = 0 then .full else .waiting, buffer, rest, []⟩
  | arrival :: arrivals =>
    if buffer.space = 0 then ⟨.full, buffer, rest, arrival :: arrivals⟩
    else
      match arrival with
      | .broken error => ⟨.broken error, buffer, rest, arrivals⟩
      | .elements count =>
        if (reads buffer rest count).length = 0 then ⟨.ended, buffer, rest, arrivals⟩
        else
          fill (buffer.put (reads buffer rest count) (length_reads buffer rest count))
            (rest.drop (reads buffer rest count).length) arrivals

/-- Nothing is lost and nothing is read twice, however filling ends. -/
theorem fill_spec (buffer : Buffer α) (rest : List α) (arrivals : List (Arrival ε)) :
    (fill buffer rest arrivals).buffer.filled ++ (fill buffer rest arrivals).rest =
      buffer.filled ++ rest ∧
    (fill buffer rest arrivals).buffer.cells.length = buffer.cells.length ∧
    ((fill buffer rest arrivals).ending = .full →
      (fill buffer rest arrivals).buffer.used = buffer.cells.length) := by
  induction arrivals generalizing buffer rest with
  | nil =>
    refine ⟨rfl, rfl, ?_⟩
    intro h
    have hfits := buffer.fits
    by_cases hfull : buffer.space = 0
    · simp only [fill, Buffer.space] at hfull ⊢
      omega
    · simp [fill, hfull] at h
  | cons arrival arrivals ih =>
    unfold fill
    split
    · rename_i hfull
      refine ⟨rfl, rfl, fun _ => ?_⟩
      have hfits := buffer.fits
      simp only [Buffer.space] at hfull ⊢
      omega
    · cases arrival with
      | broken error => exact ⟨rfl, rfl, fun h => nomatch h⟩
      | elements count =>
        dsimp only
        split
        · exact ⟨rfl, rfl, fun h => nomatch h⟩
        · have hput := ih (buffer.put (reads buffer rest count) (length_reads buffer rest count))
            (rest.drop (reads buffer rest count).length)
          rw [Buffer.filled_put, List.append_assoc, reads_append, Buffer.length_put] at hput
          exact hput

/-! ## A source that gives what it has -/

/-- A read of a source gives at least one element, as long as there are any; `splits` bounds how
many the later reads give. Reads are made until the buffer is full or the source is empty, and the
last component counts them. -/
def fillFrom (splits : ℕ → ℕ) (buffer : Buffer α) (rest : List α) (turn : ℕ) :
    Buffer α × List α × ℕ :=
  if h : buffer.space = 0 ∨ rest.length = 0 then (buffer, rest, turn)
  else
    fillFrom splits (buffer.put (reads buffer rest (splits turn + 1)) (length_reads ..))
      (rest.drop (reads buffer rest (splits turn + 1)).length) (turn + 1)
termination_by rest.length
decreasing_by
  simp only [reads, List.length_take, List.length_drop]
  omega

/-- What is in the buffer then, and what is left, does not depend on the splits. -/
theorem fillFrom_spec (splits : ℕ → ℕ) (buffer : Buffer α) (rest : List α) (turn : ℕ) :
    (fillFrom splits buffer rest turn).1.filled =
      (buffer.filled ++ rest).take buffer.cells.length ∧
    (fillFrom splits buffer rest turn).2.1 = (buffer.filled ++ rest).drop buffer.cells.length ∧
    (fillFrom splits buffer rest turn).1.cells.length = buffer.cells.length := by
  fun_induction fillFrom splits buffer rest turn with
  | case1 buffer rest turn h =>
    have hfits := buffer.fits
    rw [List.take_append, List.drop_append, buffer.length_filled,
      List.take_of_length_le (by rw [buffer.length_filled]; exact hfits),
      List.drop_of_length_le (by rw [buffer.length_filled]; exact hfits)]
    rcases h with h | h
    · rw [Buffer.space] at h
      simp [h]
    · rw [List.eq_nil_of_length_eq_zero h]
      simp
  | case2 buffer rest turn h ih =>
    rw [Buffer.filled_put, List.append_assoc, reads_append, Buffer.length_put] at ih
    exact ih

end Library.Filling
