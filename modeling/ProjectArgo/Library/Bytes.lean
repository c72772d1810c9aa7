import Mathlib.Tactic.Ring
import Mathlib.Tactic.Linarith

/-!
# Fixed-width integers in byte strings

A byte string is a list of octets. `bigEndian k n` is the string of the `k` low
octets of `n`, most significant first, and `ofBigEndian` reads such a string
back. Both directions are exact, so a codec that is a concatenation of fixed
fields is inverted field by field.
-/
namespace Library.Bytes

/-- The number whose octets, most significant first, are the given string. -/
def ofBigEndian (bytes : List UInt8) : ℕ :=
  bytes.foldl (fun value b => value * 256 + b.toNat) 0

/-- The `k` low octets of `n`, most significant first. -/
def bigEndian : ℕ → ℕ → List UInt8
  | 0, _ => []
  | k + 1, n => UInt8.ofNat (n / 256 ^ k) :: bigEndian k n

@[simp] theorem length_bigEndian (k n : ℕ) : (bigEndian k n).length = k := by
  induction k with
  | zero => rfl
  | succ k ih => simp [bigEndian, ih]

theorem foldl_bigEndian (bytes : List UInt8) (start : ℕ) :
    bytes.foldl (fun value b => value * 256 + b.toNat) start =
      start * 256 ^ bytes.length + ofBigEndian bytes := by
  induction bytes generalizing start with
  | nil => simp [ofBigEndian]
  | cons b bytes ih =>
    have hb : ofBigEndian (b :: bytes) = b.toNat * 256 ^ bytes.length + ofBigEndian bytes := by
      simpa [ofBigEndian] using ih b.toNat
    rw [List.foldl_cons, ih, hb, List.length_cons]
    ring

@[simp] theorem ofBigEndian_nil : ofBigEndian [] = 0 := rfl

theorem ofBigEndian_cons (b : UInt8) (bytes : List UInt8) :
    ofBigEndian (b :: bytes) = b.toNat * 256 ^ bytes.length + ofBigEndian bytes := by
  simpa [ofBigEndian] using foldl_bigEndian bytes b.toNat

theorem ofBigEndian_lt (bytes : List UInt8) : ofBigEndian bytes < 256 ^ bytes.length := by
  induction bytes with
  | nil => simp
  | cons b bytes ih =>
    have hb : b.toNat + 1 ≤ 256 := b.toNat_lt
    have hmul := Nat.mul_le_mul_right (256 ^ bytes.length) hb
    rw [ofBigEndian_cons, List.length_cons, pow_succ]
    linarith

/-- Reading the low octets of `n` gives `n` modulo the width. -/
theorem ofBigEndian_bigEndian_mod (k n : ℕ) : ofBigEndian (bigEndian k n) = n % 256 ^ k := by
  induction k with
  | zero => simp [bigEndian, Nat.mod_one]
  | succ k ih =>
    have hhead : (UInt8.ofNat (n / 256 ^ k)).toNat = n / 256 ^ k % 256 := UInt8.toNat_ofNat'
    have hsplit : n % (256 ^ k * 256) = n % 256 ^ k + 256 ^ k * (n / 256 ^ k % 256) := Nat.mod_mul
    rw [bigEndian, ofBigEndian_cons, ih, length_bigEndian, hhead, pow_succ, hsplit]
    ring

theorem ofBigEndian_bigEndian {k n : ℕ} (h : n < 256 ^ k) :
    ofBigEndian (bigEndian k n) = n := by
  rw [ofBigEndian_bigEndian_mod, Nat.mod_eq_of_lt h]

theorem bigEndian_ofBigEndian (bytes : List UInt8) (high : ℕ) :
    bigEndian bytes.length (high * 256 ^ bytes.length + ofBigEndian bytes) = bytes := by
  induction bytes generalizing high with
  | nil => rfl
  | cons b bytes ih =>
    have hlt := ofBigEndian_lt bytes
    have hshape : high * 256 ^ (b :: bytes).length + ofBigEndian (b :: bytes) =
        (high * 256 + b.toNat) * 256 ^ bytes.length + ofBigEndian bytes := by
      rw [ofBigEndian_cons, List.length_cons]
      ring
    have hhead : ((high * 256 + b.toNat) * 256 ^ bytes.length + ofBigEndian bytes) /
        256 ^ bytes.length = high * 256 + b.toNat := by
      rw [Nat.add_comm, Nat.add_mul_div_right _ _ (by positivity), Nat.div_eq_of_lt hlt, zero_add]
    rw [hshape, List.length_cons, bigEndian, ih, hhead]
    congr 1
    apply UInt8.toNat_inj.mp
    have hb := b.toNat_lt
    rw [UInt8.toNat_ofNat']
    omega

/-- The `k` low octets of `n`, least significant first. -/
def littleEndian (k n : ℕ) : List UInt8 := (bigEndian k n).reverse

@[simp] theorem length_littleEndian (k n : ℕ) : (littleEndian k n).length = k := by
  simp [littleEndian]

theorem littleEndian_injective {k m n : ℕ} (hm : m < 256 ^ k) (hn : n < 256 ^ k)
    (h : littleEndian k m = littleEndian k n) : m = n := by
  have hbig : bigEndian k m = bigEndian k n := List.reverse_inj.mp h
  rw [← ofBigEndian_bigEndian hm, hbig, ofBigEndian_bigEndian hn]

/-- The octets of a two-octet field, as comparison and indexing code meets them. -/
theorem ofBigEndian_pair (a b : UInt8) : ofBigEndian [a, b] = a.toNat * 256 + b.toNat := by
  simp [ofBigEndian]

theorem bigEndian_two (n : ℕ) :
    bigEndian 2 n = [UInt8.ofNat (n / 256), UInt8.ofNat n] := by
  simp [bigEndian]

/-- The substring from offset `first` up to, not including, offset `last`. -/
def slice (bytes : List α) (first last : ℕ) : List α :=
  (bytes.drop first).take (last - first)

theorem length_slice (bytes : List α) (first last : ℕ) :
    (slice bytes first last).length = min (last - first) (bytes.length - first) := by
  simp [slice]

theorem slice_append_right (front rest : List α) (i j : ℕ) :
    slice (front ++ rest) (front.length + i) (front.length + j) = slice rest i j := by
  have hdrop : front.drop (front.length + i) = [] := List.drop_eq_nil_of_le (by omega)
  simp [slice, List.drop_append, Nat.add_sub_add_left, hdrop]

/-- A substring of the front is not changed by what follows. -/
theorem slice_append_of_le {front : List α} {j : ℕ} (h : j ≤ front.length) (rest : List α) (i : ℕ) :
    slice (front ++ rest) i j = slice front i j := by
  by_cases hi : i ≤ front.length
  · rw [slice, slice, List.drop_append_of_le_length hi, List.take_append_of_le_length]
    rw [List.length_drop]
    omega
  · have hempty : j - i = 0 := by omega
    simp [slice, hempty]

theorem slice_zero (bytes : List α) (last : ℕ) : slice bytes 0 last = bytes.take last := by
  simp [slice]

/-- Neighbouring substrings make up one. -/
theorem slice_append_slice (bytes : List α) {i j k : ℕ} (hij : i ≤ j) (hjk : j ≤ k) :
    slice bytes i j ++ slice bytes j k = slice bytes i k := by
  have hsplit : k - i = (j - i) + (k - j) := by omega
  have hdrop : bytes.drop j = (bytes.drop i).drop (j - i) := by
    rw [List.drop_drop, Nat.add_sub_cancel' hij]
  unfold slice
  rw [hsplit, List.take_add, hdrop]

theorem slice_append_left (front rest : List α) : slice (front ++ rest) 0 front.length = front := by
  simp [slice]

/-- What stands between two others, by their lengths. -/
theorem slice_middle (front middle rest : List α) :
    slice (front ++ (middle ++ rest)) front.length (front.length + middle.length) = middle := by
  have hright := slice_append_right front (middle ++ rest) 0 middle.length
  rwa [Nat.add_zero, slice_append_left] at hright

end Library.Bytes
