import ProjectArgo.Library.Bytes

/-!
# Octets at addresses

A memory gives every address an octet. Words are stored least significant octet first, and what
is stored apart from a substring leaves it alone. A look at a memory may give up at any point;
the accesses it has made until then are recorded.
-/
namespace Library.Memory

open Library.Bytes

abbrev Octets := ℕ → UInt8

def load (memory : Octets) (offset length : ℕ) : List UInt8 :=
  (List.range length).map fun i => memory (offset + i)

def store (memory : Octets) (offset : ℕ) (bytes : List UInt8) : Octets := fun address =>
  if offset ≤ address then (bytes[address - offset]?).getD (memory address) else memory address

/-- The number of `size` octets at an offset. -/
def word (memory : Octets) (offset size : ℕ) : ℕ :=
  ofBigEndian (load memory offset size).reverse

def storeWord (memory : Octets) (offset size value : ℕ) : Octets :=
  store memory offset (littleEndian size value)

variable {memory : Octets} {offset size start length value : ℕ} {bytes : List UInt8}

@[simp] theorem length_load : (load memory offset length).length = length := by
  simp [load]

theorem load_store_self (h : bytes.length = length) :
    load (store memory offset bytes) offset length = bytes := by
  apply List.ext_getElem
  · simp [h]
  · intro i hi hbytes
    simp [load, store, List.getElem?_eq_getElem hbytes]

/-- A store in front of a substring or behind it. -/
theorem load_store_apart (h : offset + length ≤ start ∨ start + bytes.length ≤ offset) :
    load (store memory start bytes) offset length = load memory offset length := by
  apply List.map_congr_left
  intro i hi
  rw [List.mem_range] at hi
  unfold store
  split
  · rw [List.getElem?_eq_none (by omega)]
    rfl
  · rfl

theorem word_storeWord_self (h : value < 256 ^ size) :
    word (storeWord memory offset size value) offset size = value := by
  rw [word, storeWord, load_store_self (length_littleEndian size value), littleEndian,
    List.reverse_reverse, ofBigEndian_bigEndian h]

theorem word_store_apart (h : offset + size ≤ start ∨ start + bytes.length ≤ offset) :
    word (store memory start bytes) offset size = word memory offset size := by
  rw [word, load_store_apart h, word]

theorem word_storeWord_apart {width : ℕ} (h : offset + size ≤ start ∨ start + width ≤ offset) :
    word (storeWord memory start width value) offset size = word memory offset size :=
  word_store_apart (by rwa [length_littleEndian])

theorem load_storeWord_apart {width : ℕ}
    (h : offset + length ≤ start ∨ start + width ≤ offset) :
    load (storeWord memory start width value) offset length = load memory offset length :=
  load_store_apart (by rwa [length_littleEndian])

theorem word_lt : word memory offset size < 256 ^ size := by
  have := ofBigEndian_lt (load memory offset size).reverse
  rwa [List.length_reverse, length_load] at this

/-! ## Looking -/

structure Access where
  offset : ℕ
  length : ℕ
  deriving DecidableEq

/-- What a look has come to, and the accesses it has made. -/
structure Look (α : Type) where
  accesses : List Access
  result : Option α

variable {α β : Type}

instance : Monad Look where
  pure a := ⟨[], some a⟩
  bind p f :=
    match p.result with
    | none => ⟨p.accesses, none⟩
    | some a => ⟨p.accesses ++ (f a).accesses, (f a).result⟩

def look (memory : Octets) (offset length : ℕ) : Look (List UInt8) :=
  ⟨[⟨offset, length⟩], some (load memory offset length)⟩

def lookWord (memory : Octets) (offset size : ℕ) : Look ℕ :=
  ⟨[⟨offset, size⟩], some (word memory offset size)⟩

def require (holds : Prop) [Decidable holds] : Look Unit :=
  if holds then pure () else ⟨[], none⟩

/-- What a look comes to, with accesses that all have the property. -/
structure Looks (P : Access → Prop) (p : Look α) (result : Option α) : Prop where
  result : p.result = result
  accesses : ∀ access ∈ p.accesses, P access

variable {P : Access → Prop} {p : Look α} {f : α → Look β}

theorem Looks.pure (a : α) : Looks P (Pure.pure a) (some a) :=
  ⟨rfl, fun _ h => nomatch h⟩

theorem Looks.bind {a : α} {result : Option β} (hp : Looks P p (some a))
    (hf : Looks P (f a) result) : Looks P (p >>= f) result := by
  have hbind : p >>= f = ⟨p.accesses ++ (f a).accesses, (f a).result⟩ := by
    change (match p.result with | none => _ | some a => _) = _
    rw [hp.result]
  rw [hbind]
  refine ⟨hf.result, ?_⟩
  intro access haccess
  rcases List.mem_append.mp haccess with haccess | haccess
  · exact hp.accesses access haccess
  · exact hf.accesses access haccess

theorem looks_look (h : P ⟨offset, length⟩) :
    Looks P (look memory offset length) (some (load memory offset length)) :=
  ⟨rfl, fun _ haccess => List.mem_singleton.mp haccess ▸ h⟩

theorem looks_lookWord (h : P ⟨offset, size⟩) :
    Looks P (lookWord memory offset size) (some (word memory offset size)) :=
  ⟨rfl, fun _ haccess => List.mem_singleton.mp haccess ▸ h⟩

theorem Looks.none (hp : Looks P p none) : Looks P (p >>= f) none := by
  have hbind : p >>= f = ⟨p.accesses, Option.none⟩ := by
    change (match p.result with | .none => _ | .some a => _) = _
    rw [hp.result]
  rw [hbind]
  exact ⟨rfl, hp.accesses⟩

/-- Behind a requirement that is not met there is nothing. -/
theorem Looks.require {holds : Prop} [Decidable holds] {g : Unit → Look β} {result : Option β}
    (h : holds → Looks P (g ()) result) (hnot : ¬ holds → result = Option.none) :
    Looks P (require holds >>= g) result := by
  by_cases hholds : holds
  · have hmet : Looks P (Memory.require holds) (some ()) := by
      rw [Memory.require, if_pos hholds]
      exact Looks.pure ()
    exact hmet.bind (h hholds)
  · have hmissed : Looks P (Memory.require holds) Option.none := by
      rw [Memory.require, if_neg hholds]
      exact ⟨rfl, fun _ h => nomatch h⟩
    rw [hnot hholds]
    exact hmissed.none

end Library.Memory
