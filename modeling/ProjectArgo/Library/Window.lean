import Mathlib.Data.Set.Insert
import Mathlib.Order.Nat

/-!
# Bit vectors as sliding windows

A bit vector records which of the last numbers up to a highest one belong to a set: bit
`i` stands for the number `i` below the highest.
-/
namespace Library.Window

variable {w high : ℕ} {bits : BitVec w} {seen : Set ℕ}

def Marks (bits : BitVec w) (high : ℕ) (seen : Set ℕ) : Prop :=
  ∀ i < w, bits.getLsbD i = true ↔ ∃ n ∈ seen, n + i = high

theorem marks_singleton (high : ℕ) : Marks (1#w) high {high} := by
  intro i hi
  rw [BitVec.getLsbD_one]
  simp only [Set.mem_singleton_iff, exists_eq_left, Bool.and_eq_true, decide_eq_true_eq]
  omega

/-- The window moves up to a new highest number. -/
theorem Marks.advance (h : Marks bits high seen) (hbound : ∀ n ∈ seen, n ≤ high) {distance : ℕ}
    (hpositive : 0 < distance) :
    Marks (bits <<< distance ||| 1#w) (high + distance) (insert (high + distance) seen) := by
  intro i hi
  rw [BitVec.getLsbD_or, BitVec.getLsbD_shiftLeft, BitVec.getLsbD_one]
  simp only [Bool.or_eq_true, Bool.and_eq_true, decide_eq_true_eq, Bool.not_eq_true',
    decide_eq_false_iff_not]
  constructor
  · rintro (⟨⟨-, hle⟩, hbit⟩ | ⟨-, hzero⟩)
    · obtain ⟨n, hn, hsum⟩ := (h (i - distance) (by omega)).mp hbit
      exact ⟨n, .inr hn, by omega⟩
    · exact ⟨high + distance, .inl rfl, by omega⟩
  · rintro ⟨n, rfl | hn, hsum⟩
    · exact .inr ⟨by omega, by omega⟩
    · have hle := hbound n hn
      refine .inl ⟨⟨hi, by omega⟩, ?_⟩
      exact (h (i - distance) (by omega)).mpr ⟨n, hn, by omega⟩

/-- The new highest number leaves all others behind. -/
theorem marks_restart {highest : ℕ} (hbehind : ∀ n ∈ seen, n + w ≤ highest) :
    Marks (1#w) highest (insert highest seen) := by
  intro i hi
  rw [marks_singleton highest i hi]
  constructor
  · rintro ⟨n, rfl, hsum⟩
    exact ⟨n, .inl rfl, hsum⟩
  · rintro ⟨n, rfl | hn, hsum⟩
    · exact ⟨n, rfl, hsum⟩
    · have hle := hbehind n hn
      omega

/-- A number inside the window is added. -/
theorem Marks.insert (h : Marks bits high seen) {n behind : ℕ} (hn : n + behind = high) :
    Marks (bits ||| 1#w <<< behind) high (insert n seen) := by
  intro i hi
  rw [BitVec.getLsbD_or, BitVec.getLsbD_shiftLeft, BitVec.getLsbD_one, Bool.or_eq_true, h i hi]
  simp only [Bool.and_eq_true, decide_eq_true_eq, Bool.not_eq_true', decide_eq_false_iff_not]
  constructor
  · rintro (⟨m, hm, hsum⟩ | ⟨⟨-, hle⟩, -, hzero⟩)
    · exact ⟨m, .inr hm, hsum⟩
    · exact ⟨n, .inl rfl, by omega⟩
  · rintro ⟨m, rfl | hm, hsum⟩
    · exact .inr ⟨⟨hi, by omega⟩, by omega, by omega⟩
    · exact .inl ⟨m, hm, hsum⟩

/-- The bit of a number in the window tells whether it is in the set. -/
theorem Marks.mem_iff (h : Marks bits high seen) {n behind : ℕ} (hw : behind < w)
    (hn : n + behind = high) : bits.getLsbD behind = true ↔ n ∈ seen := by
  rw [h behind hw]
  constructor
  · rintro ⟨m, hm, hsum⟩
    obtain rfl : m = n := by omega
    exact hm
  · intro hmem
    exact ⟨n, hmem, hn⟩

theorem and_shiftLeft_ne_zero {behind : ℕ} (hw : behind < w) :
    bits &&& 1#w <<< behind ≠ 0#w ↔ bits.getLsbD behind = true := by
  rw [← BitVec.twoPow_eq, BitVec.and_twoPow]
  split_ifs with hbit
  · refine iff_of_true (fun hzero => ?_) hbit
    have hpow := congrArg BitVec.toNat hzero
    rw [BitVec.toNat_twoPow_of_lt hw, BitVec.toNat_zero] at hpow
    exact absurd hpow (Nat.two_pow_pos behind).ne'
  · exact iff_of_false (not_not_intro rfl) hbit

end Library.Window
