import Mathlib.Data.List.Induction
import Mathlib.Logic.Basic
import ProjectArgo.Library.Memory

/-!
# The camera ring

The camera daemon puts frames into one of three slots of a shared memory, and the view reads the
last one. Both sides describe the layout on their own: a header with the number of the last
frame, its validity and the role, and in each slot a guard, the measures of the frame and its
octets. The view trusts nothing of what it reads.
-/
namespace ProjectArgo.Camera.Arcr

open Library.Memory

def CAPACITY : ℕ := 1920 * 1080 * 4
def HEADER : ℕ := 128
def SLOT : ℕ := 64 + CAPACITY
def SIZE : ℕ := HEADER + 3 * SLOT

/-- The slot of a frame, the same computation on both sides. -/
def slotOf (seq : UInt64) : ℕ := HEADER + ((seq - 1) % 3).toNat * SLOT

theorem slotOf_bounds (seq : UInt64) : HEADER ≤ slotOf seq ∧ slotOf seq + SLOT ≤ SIZE := by
  have hrest : ((seq - 1) % 3).toNat < 3 := by
    rw [UInt64.toNat_mod]
    exact Nat.mod_lt _ (by decide)
  unfold slotOf SIZE HEADER SLOT CAPACITY
  omega

/-! ## The writer -/

structure Ring where
  memory : Octets
  sequence : UInt64

def u32 (memory : Octets) (offset : ℕ) (value : UInt32) : Octets :=
  storeWord memory offset 4 value.toNat

def atomic (memory : Octets) (offset : ℕ) (value : UInt64) : Octets :=
  storeWord memory offset 8 value.toNat

/-- What `write` refuses. -/
def refused (data : List UInt8) (width height stride : UInt32) : Prop :=
  width = 0 ∨ height = 0 ∨ 1920 < width ∨ 1920 < height ∨ stride < width * 4 ∨
    CAPACITY < stride.toNat * height.toNat ∨ data.length < stride.toNat * height.toNat

instance (data : List UInt8) (width height stride : UInt32) :
    Decidable (refused data width height stride) :=
  inferInstanceAs (Decidable (_ ∨ _))

namespace Ring

def new : Ring where
  memory := u32 (u32 (u32 (u32 (fun _ => 0) 0 0x52435241) 4 1) 8 3) 12 (UInt32.ofNat CAPACITY)
  sequence := 0

def role (ring : Ring) (role : UInt64) : Ring :=
  { ring with memory := atomic ring.memory 32 (role + 1) }

def invalidate (ring : Ring) : Ring :=
  { ring with memory := atomic ring.memory 24 0 }

/-- The frame is copied between two values of the guard, the first of them odd. -/
def put (memory : Octets) (slot : ℕ) (seq : UInt64) (pixels : List UInt8)
    (width height stride fpsN fpsD : UInt32) (now : UInt64) : Octets :=
  let memory := atomic memory slot (seq * 2 - 1)
  let memory := u32 memory (slot + 8) width
  let memory := u32 memory (slot + 12) height
  let memory := u32 memory (slot + 16) stride
  let memory := u32 memory (slot + 20) fpsN
  let memory := u32 memory (slot + 24) fpsD
  let memory := atomic memory (slot + 32) now
  let memory := store memory (slot + 64) pixels
  let memory := atomic memory slot (seq * 2)
  let memory := atomic memory 16 seq
  atomic memory 24 1

/-- `now` is the clock. -/
def write (ring : Ring) (data : List UInt8) (width height stride fpsN fpsD : UInt32)
    (now : UInt64) : Except String (UInt64 × Ring) :=
  let bytes := stride.toNat * height.toNat
  if refused data width height stride then .error "Camera frame exceeds ARCR bounds"
  else
    let seq := ring.sequence + 1
    .ok (seq, ⟨put ring.memory (slotOf seq) seq (data.take bytes) width height stride fpsN fpsD now,
      seq⟩)

end Ring

inductive Event
  | role (role : UInt64)
  | write (data : List UInt8) (width height stride fpsN fpsD : UInt32) (now : UInt64)
  | invalidate

/-- A refused write changes nothing. -/
def step (ring : Ring) : Event → Ring
  | .role role => ring.role role
  | .write data width height stride fpsN fpsD now =>
    match ring.write data width height stride fpsN fpsD now with
    | .ok (_, ring) => ring
    | .error _ => ring
  | .invalidate => ring.invalidate

def after (events : List Event) : Ring := events.foldl step Ring.new

/-! ## The reader -/

def staleNs : UInt64 := 750000000

structure Frame where
  width : UInt32
  height : UInt32
  stride : UInt32
  sequence : UInt64
  time : UInt64
  pixels : List UInt8
  deriving DecidableEq

def U32 (memory : Octets) (offset : ℕ) : Look UInt32 := do
  return UInt32.ofNat (← lookWord memory offset 4)

def Load (memory : Octets) (offset : ℕ) : Look UInt64 := do
  return UInt64.ofNat (← lookWord memory offset 8)

/-- `Header` holds. -/
def header (memory : Octets) : Look Unit := do
  require ((← U32 memory 0) = 0x52435241)
  require ((← U32 memory 4) = 1)
  require ((← U32 memory 8) = 3)
  require ((← U32 memory 12) = UInt32.ofNat CAPACITY)

def stable (before after sequence : UInt64) : Prop :=
  before = after ∧ before = sequence * 2 ∧ before &&& 1 = 0

instance (before after sequence : UInt64) : Decidable (stable before after sequence) :=
  inferInstanceAs (Decidable (_ ∧ _))

/-- The measures of a frame that the view takes, and its age. -/
def fits (w h stride : UInt32) (timestamp now : UInt64) : Prop :=
  ¬ (w = 0 ∨ h = 0 ∨ 1920 < w ∨ 1920 < h ∨ stride < w * 4 ∨ CAPACITY / h.toNat < stride.toNat ∨
    now < timestamp ∨ staleNs ≤ now - timestamp)

instance (w h stride : UInt32) (timestamp now : UInt64) :
    Decidable (fits w h stride timestamp now) :=
  inferInstanceAs (Decidable (¬ _))

def Latest (memory : Octets) (now : UInt64) (role : UInt32) : Look Frame := do
  header memory
  require ((← Load memory 24) = 1)
  require ((← Load memory 32) = (role + 1).toUInt64)
  let seq ← Load memory 16
  require (seq ≠ 0)
  let slot := slotOf seq
  let guard ← Load memory slot
  require (guard = seq * 2)
  let w ← U32 memory (slot + 8)
  let h ← U32 memory (slot + 12)
  let stride ← U32 memory (slot + 16)
  let timestamp ← Load memory (slot + 32)
  require (fits w h stride timestamp now)
  let pixels ← look memory (slot + 64) (stride.toNat * h.toNat)
  require (stable guard (← Load memory slot) seq)
  require ((← Load memory 24) = 1)
  return ⟨w, h, stride, seq, timestamp, pixels⟩

/-! ## What the reader sees -/

def get32 (memory : Octets) (offset : ℕ) : UInt32 := UInt32.ofNat (word memory offset 4)

def get64 (memory : Octets) (offset : ℕ) : UInt64 := UInt64.ofNat (word memory offset 8)

structure Headed (memory : Octets) : Prop where
  magic : get32 memory 0 = 0x52435241
  version : get32 memory 4 = 1
  slots : get32 memory 8 = 3
  capacity : get32 memory 12 = UInt32.ofNat CAPACITY

/-- The frame that the memory describes. -/
def described (memory : Octets) : Frame :=
  let slot := slotOf (get64 memory 16)
  { width := get32 memory (slot + 8)
    height := get32 memory (slot + 12)
    stride := get32 memory (slot + 16)
    sequence := get64 memory 16
    time := get64 memory (slot + 32)
    pixels := load memory (slot + 64)
      ((get32 memory (slot + 16)).toNat * (get32 memory (slot + 12)).toNat) }

/-- What the view asks of the memory. -/
structure Readable (memory : Octets) (now : UInt64) (role : UInt32) : Prop where
  headed : Headed memory
  valid : get64 memory 24 = 1
  role : get64 memory 32 = (role + 1).toUInt64
  started : get64 memory 16 ≠ 0
  guard : get64 memory (slotOf (get64 memory 16)) = get64 memory 16 * 2
  fits : fits (described memory).width (described memory).height (described memory).stride
    (described memory).time now

instance (memory : Octets) : Decidable (Headed memory) :=
  decidable_of_iff (get32 memory 0 = 0x52435241 ∧ get32 memory 4 = 1 ∧ get32 memory 8 = 3 ∧
      get32 memory 12 = UInt32.ofNat CAPACITY)
    ⟨fun ⟨h₁, h₂, h₃, h₄⟩ => ⟨h₁, h₂, h₃, h₄⟩, fun ⟨h₁, h₂, h₃, h₄⟩ => ⟨h₁, h₂, h₃, h₄⟩⟩

instance (memory : Octets) (now : UInt64) (role : UInt32) :
    Decidable (Readable memory now role) :=
  decidable_of_iff (Headed memory ∧ get64 memory 24 = 1 ∧
      get64 memory 32 = (role + 1).toUInt64 ∧ get64 memory 16 ≠ 0 ∧
      get64 memory (slotOf (get64 memory 16)) = get64 memory 16 * 2 ∧
      fits (described memory).width (described memory).height (described memory).stride
        (described memory).time now)
    ⟨fun ⟨h₁, h₂, h₃, h₄, h₅, h₆⟩ => ⟨h₁, h₂, h₃, h₄, h₅, h₆⟩,
      fun ⟨h₁, h₂, h₃, h₄, h₅, h₆⟩ => ⟨h₁, h₂, h₃, h₄, h₅, h₆⟩⟩

/-- The accesses that a look may make: to the front of the header, and inside the slot that the
header selects. -/
def Inside (memory : Octets) (access : Access) : Prop :=
  access.offset + access.length ≤ 40 ∨
    slotOf (get64 memory 16) ≤ access.offset ∧
      access.offset + access.length ≤ slotOf (get64 memory 16) + SLOT

theorem looks_U32 {P : Access → Prop} {memory : Octets} {offset : ℕ} (h : P ⟨offset, 4⟩) :
    Looks P (U32 memory offset) (some (get32 memory offset)) :=
  (looks_lookWord h).bind (Looks.pure _)

theorem looks_Load {P : Access → Prop} {memory : Octets} {offset : ℕ} (h : P ⟨offset, 8⟩) :
    Looks P (Load memory offset) (some (get64 memory offset)) :=
  (looks_lookWord h).bind (Looks.pure _)

theorem even_mul_two (seq : UInt64) : seq * 2 &&& 1 = 0 := by
  apply UInt64.toNat_inj.mp
  rw [UInt64.toNat_and, UInt64.toNat_mul]
  change seq.toNat * 2 % 2 ^ 64 &&& 1 = 0
  rw [Nat.and_one_is_mod]
  omega

theorem described_inside {memory : Octets} {now : UInt64}
    (h : fits (described memory).width (described memory).height (described memory).stride
      (described memory).time now) :
    (described memory).stride.toNat * (described memory).height.toNat ≤ CAPACITY := by
  unfold fits at h
  simp only [not_or, Nat.not_lt] at h
  exact Nat.mul_le_of_le_div _ _ _ h.2.2.2.2.2.1

theorem header_looks (memory : Octets) :
    Looks (Inside memory) (header memory) (if Headed memory then some () else none) := by
  have hfront {offset : ℕ} (h : offset + 4 ≤ 40) : Inside memory ⟨offset, 4⟩ := Or.inl h
  have hnot {holds : Prop} (h : Headed memory → holds) (hnot : ¬ holds) :
      (if Headed memory then some () else none) = none :=
    if_neg fun hheaded => hnot (h hheaded)
  apply Looks.bind (looks_U32 (hfront (by decide)))
  apply Looks.require (fun hmagic => ?_) (hnot Headed.magic)
  apply Looks.bind (looks_U32 (hfront (by decide)))
  apply Looks.require (fun hversion => ?_) (hnot Headed.version)
  apply Looks.bind (looks_U32 (hfront (by decide)))
  apply Looks.require (fun hslots => ?_) (hnot Headed.slots)
  apply Looks.bind (looks_U32 (hfront (by decide)))
  by_cases hcapacity : get32 memory 12 = UInt32.ofNat CAPACITY
  · rw [require, if_pos hcapacity, if_pos ⟨hmagic, hversion, hslots, hcapacity⟩]
    exact Looks.pure ()
  · rw [require, if_neg hcapacity, hnot Headed.capacity hcapacity]
    exact ⟨rfl, fun _ h => by cases h⟩

/-- The view never looks outside the front of the header and the slot that it selects, and sees
the described frame exactly if the memory is readable. -/
theorem latest_looks (memory : Octets) (now : UInt64) (role : UInt32) :
    Looks (Inside memory) (Latest memory now role)
      (if Readable memory now role then some (described memory) else none) := by
  have hfront {offset length : ℕ} (h : offset + length ≤ 40) : Inside memory ⟨offset, length⟩ :=
    Or.inl h
  have hslot {offset length : ℕ} (h : offset + length ≤ SLOT) :
      Inside memory ⟨slotOf (get64 memory 16) + offset, length⟩ :=
    Or.inr ⟨Nat.le_add_right _ _, by
      change slotOf (get64 memory 16) + offset + length ≤ _
      omega⟩
  have hguard : Inside memory ⟨slotOf (get64 memory 16), 8⟩ :=
    Or.inr ⟨le_rfl, Nat.add_le_add_left (show 8 ≤ SLOT by decide) _⟩
  have hnot {holds : Prop} (h : Readable memory now role → holds) (hnot : ¬ holds) :
      (if Readable memory now role then some (described memory) else none) = none :=
    if_neg fun hreadable => hnot (h hreadable)
  have hheader := header_looks memory
  by_cases hheaded : Headed memory
  · rw [if_pos hheaded] at hheader
    apply Looks.bind hheader
    apply Looks.bind (looks_Load (hfront (by decide)))
    apply Looks.require (fun hvalid => ?_) (hnot Readable.valid)
    apply Looks.bind (looks_Load (hfront (by decide)))
    apply Looks.require (fun hrole => ?_) (hnot Readable.role)
    apply Looks.bind (looks_Load (hfront (by decide)))
    apply Looks.require (fun hstarted => ?_) (hnot Readable.started)
    apply Looks.bind (looks_Load hguard)
    apply Looks.require (fun hguarded => ?_) (hnot Readable.guard)
    apply Looks.bind (looks_U32 (hslot (by decide)))
    apply Looks.bind (looks_U32 (hslot (by decide)))
    apply Looks.bind (looks_U32 (hslot (by decide)))
    apply Looks.bind (looks_Load (hslot (by decide)))
    apply Looks.require (fun hfits => ?_) (hnot Readable.fits)
    have hpixels := described_inside hfits
    apply Looks.bind (looks_look (hslot (Nat.add_le_add_left hpixels 64)))
    apply Looks.bind (looks_Load hguard)
    apply Looks.require (fun _ => ?_) fun hunstable =>
      absurd ⟨rfl, hguarded, by rw [hguarded]; exact even_mul_two _⟩ hunstable
    apply Looks.bind (looks_Load (hfront (by decide)))
    apply Looks.require (fun _ => ?_) (hnot Readable.valid)
    rw [if_pos ⟨hheaded, hvalid, hrole, hstarted, hguarded, hfits⟩]
    exact Looks.pure _
  · rw [if_neg hheaded] at hheader
    rw [hnot Readable.headed hheaded]
    exact hheader.none

/-! ## What the writer leaves -/

section words

variable {memory : Octets} {offset start : ℕ}

theorem get64_atomic_self (value : UInt64) : get64 (atomic memory offset value) offset = value := by
  rw [get64, atomic, word_storeWord_self value.toNat_lt, UInt64.ofNat_toNat]

theorem get64_atomic (value : UInt64) (h : offset + 8 ≤ start ∨ start + 8 ≤ offset) :
    get64 (atomic memory start value) offset = get64 memory offset := by
  rw [get64, atomic, word_storeWord_apart h, get64]

theorem get32_atomic (value : UInt64) (h : offset + 4 ≤ start ∨ start + 8 ≤ offset) :
    get32 (atomic memory start value) offset = get32 memory offset := by
  rw [get32, atomic, word_storeWord_apart h, get32]

theorem load_atomic {length : ℕ} (value : UInt64)
    (h : offset + length ≤ start ∨ start + 8 ≤ offset) :
    load (atomic memory start value) offset length = load memory offset length :=
  load_storeWord_apart h

theorem get32_u32_self (value : UInt32) : get32 (u32 memory offset value) offset = value := by
  rw [get32, u32, word_storeWord_self value.toNat_lt, UInt32.ofNat_toNat]

theorem get32_u32 (value : UInt32) (h : offset + 4 ≤ start ∨ start + 4 ≤ offset) :
    get32 (u32 memory start value) offset = get32 memory offset := by
  rw [get32, u32, word_storeWord_apart h, get32]

theorem get64_u32 (value : UInt32) (h : offset + 8 ≤ start ∨ start + 4 ≤ offset) :
    get64 (u32 memory start value) offset = get64 memory offset := by
  rw [get64, u32, word_storeWord_apart h, get64]

theorem get32_store {bytes : List UInt8} (h : offset + 4 ≤ start ∨ start + bytes.length ≤ offset) :
    get32 (store memory start bytes) offset = get32 memory offset := by
  rw [get32, word_store_apart h, get32]

theorem get64_store {bytes : List UInt8} (h : offset + 8 ≤ start ∨ start + bytes.length ≤ offset) :
    get64 (store memory start bytes) offset = get64 memory offset := by
  rw [get64, word_store_apart h, get64]

end words

/-- What there is to show: the last frame accepted since the last invalidation, the role last
set, and how many frames have been accepted. -/
structure Shown where
  frame : Option Frame := none
  role : Option UInt64 := none
  accepted : ℕ := 0

def Shown.step (shown : Shown) : Event → Shown
  | .role role => { shown with role := some role }
  | .write data width height stride _ _ now =>
    if refused data width height stride then shown
    else
      { shown with
        accepted := shown.accepted + 1
        frame := some {
          width := width
          height := height
          stride := stride
          sequence := UInt64.ofNat (shown.accepted + 1)
          time := now
          pixels := data.take (stride.toNat * height.toNat) } }
  | .invalidate => { shown with frame := none }

def shown (events : List Event) : Shown := events.foldl Shown.step {}

/-- A frame of measures that the writer accepts. -/
def Frame.Measured (frame : Frame) : Prop :=
  ¬ (frame.width = 0 ∨ frame.height = 0 ∨ 1920 < frame.width ∨ 1920 < frame.height ∨
    frame.stride < frame.width * 4 ∨ CAPACITY < frame.stride.toNat * frame.height.toNat)

/-- The memory holds what there is to show. -/
structure Mirrors (ring : Ring) (shown : Shown) : Prop where
  headed : Headed ring.memory
  sequence : ring.sequence = UInt64.ofNat shown.accepted
  valid : get64 ring.memory 24 = if shown.frame.isSome then 1 else 0
  role : get64 ring.memory 32 = (shown.role.map (· + 1)).getD 0
  guard : shown.frame.isSome = true →
    get64 ring.memory (slotOf (get64 ring.memory 16)) = get64 ring.memory 16 * 2
  frame : ∀ frame ∈ shown.frame, described ring.memory = frame ∧ frame.Measured
  number : ∀ frame ∈ shown.frame, frame.sequence = UInt64.ofNat shown.accepted

theorem mirrors_new : Mirrors Ring.new {} where
  headed := by
    constructor
    · decide
    · decide
    · decide
    · decide
  sequence := rfl
  valid := by decide
  role := by decide
  guard := fun h => nomatch h
  frame := fun _ h => nomatch h
  number := fun _ h => nomatch h

/-- A word between the number of the last frame and the slots. -/
theorem described_atomic {memory : Octets} {offset : ℕ} (value : UInt64) (hfirst : 24 ≤ offset)
    (hlast : offset + 8 ≤ HEADER) :
    described (atomic memory offset value) = described memory ∧
      get64 (atomic memory offset value) (slotOf (get64 (atomic memory offset value) 16)) =
        get64 memory (slotOf (get64 memory 16)) ∧
      get64 (atomic memory offset value) 16 = get64 memory 16 := by
  have hsequence : get64 (atomic memory offset value) 16 = get64 memory 16 :=
    get64_atomic value (Or.inl hfirst)
  have hslot := (slotOf_bounds (get64 memory 16)).1
  have hbehind {more : ℕ} : offset + 8 ≤ slotOf (get64 memory 16) + more :=
    hlast.trans (hslot.trans (Nat.le_add_right _ _))
  refine ⟨?_, ?_, hsequence⟩
  · unfold described
    rw [hsequence]
    dsimp only
    rw [get32_atomic value (Or.inr hbehind), get32_atomic value (Or.inr hbehind),
      get32_atomic value (Or.inr hbehind), get64_atomic value (Or.inr hbehind),
      load_atomic value (Or.inr hbehind)]
  · rw [hsequence]
    exact get64_atomic value (Or.inr (hlast.trans hslot))

theorem headed_atomic {memory : Octets} {offset : ℕ} (value : UInt64) (h : 16 ≤ offset)
    (hheaded : Headed memory) : Headed (atomic memory offset value) := by
  have hfront {start : ℕ} (hstart : start + 4 ≤ 16) :
      get32 (atomic memory offset value) start = get32 memory start :=
    get32_atomic value (Or.inl (hstart.trans h))
  exact ⟨(hfront (by decide)).trans hheaded.magic, (hfront (by decide)).trans hheaded.version,
    (hfront (by decide)).trans hheaded.slots, (hfront (by decide)).trans hheaded.capacity⟩

theorem mirrors_role {ring : Ring} {shown : Shown} (h : Mirrors ring shown) (role : UInt64) :
    Mirrors (ring.role role) { shown with role := some role } := by
  obtain ⟨hdescribed, hguard, hsequence⟩ :
      described (atomic ring.memory 32 (role + 1)) = described ring.memory ∧ _ :=
    described_atomic (role + 1) (by decide) (by decide)
  constructor
  · exact headed_atomic _ (by decide) h.headed
  · exact h.sequence
  · exact (get64_atomic _ (by decide)).trans h.valid
  · exact get64_atomic_self _
  · intro hframe
    have := h.guard hframe
    rw [← hguard, ← hsequence] at this
    exact this
  · intro frame hframe
    obtain ⟨heq, hmeasured⟩ := h.frame frame hframe
    exact ⟨hdescribed.trans heq, hmeasured⟩
  · exact h.number

theorem mirrors_invalidate {ring : Ring} {shown : Shown} (h : Mirrors ring shown) :
    Mirrors ring.invalidate { shown with frame := none } := by
  constructor
  · exact headed_atomic _ (by decide) h.headed
  · exact h.sequence
  · exact get64_atomic_self _
  · exact (get64_atomic _ (by decide)).trans h.role
  · exact fun hframe => nomatch hframe
  · exact fun frame hframe => nomatch hframe
  · exact fun frame hframe => nomatch hframe

section put

variable {memory : Octets} {slot : ℕ} {seq : UInt64} {pixels : List UInt8}
  {width height stride fpsN fpsD : UInt32} {now : UInt64}

theorem put_header (hslot : 128 ≤ slot) (hheaded : Headed memory) :
    Headed (Ring.put memory slot seq pixels width height stride fpsN fpsD now) ∧
      get64 (Ring.put memory slot seq pixels width height stride fpsN fpsD now) 16 = seq ∧
      get64 (Ring.put memory slot seq pixels width height stride fpsN fpsD now) 24 = 1 ∧
      get64 (Ring.put memory slot seq pixels width height stride fpsN fpsD now) 32 =
        get64 memory 32 := by
  refine ⟨⟨?_, ?_, ?_, ?_⟩, ?_, ?_, ?_⟩
  case refine_5 => rw [Ring.put, get64_atomic _ (by decide), get64_atomic_self]
  case refine_6 => exact get64_atomic_self 1
  case refine_7 =>
    simp (disch := omega) only [Ring.put, get64_atomic, get64_u32, get64_store]
  case refine_1 =>
    rw [← hheaded.magic]
    simp (disch := omega) only [Ring.put, get32_atomic, get32_u32, get32_store]
  case refine_2 =>
    rw [← hheaded.version]
    simp (disch := omega) only [Ring.put, get32_atomic, get32_u32, get32_store]
  case refine_3 =>
    rw [← hheaded.slots]
    simp (disch := omega) only [Ring.put, get32_atomic, get32_u32, get32_store]
  case refine_4 =>
    rw [← hheaded.capacity]
    simp (disch := omega) only [Ring.put, get32_atomic, get32_u32, get32_store]

theorem put_slot (hslot : 128 ≤ slot) :
    get64 (Ring.put memory slot seq pixels width height stride fpsN fpsD now) slot = seq * 2 ∧
      get32 (Ring.put memory slot seq pixels width height stride fpsN fpsD now) (slot + 8) =
        width ∧
      get32 (Ring.put memory slot seq pixels width height stride fpsN fpsD now) (slot + 12) =
        height ∧
      get32 (Ring.put memory slot seq pixels width height stride fpsN fpsD now) (slot + 16) =
        stride ∧
      get64 (Ring.put memory slot seq pixels width height stride fpsN fpsD now) (slot + 32) =
        now ∧
      load (Ring.put memory slot seq pixels width height stride fpsN fpsD now) (slot + 64)
        pixels.length = pixels := by
  refine ⟨?_, ?_, ?_, ?_, ?_, ?_⟩
  · simp (disch := omega) only [Ring.put, get64_atomic, get64_atomic_self]
  · simp (disch := omega) only [Ring.put, get32_atomic, get32_u32, get32_store, get32_u32_self]
  · simp (disch := omega) only [Ring.put, get32_atomic, get32_u32, get32_store, get32_u32_self]
  · simp (disch := omega) only [Ring.put, get32_atomic, get32_u32, get32_store, get32_u32_self]
  · simp (disch := omega) only [Ring.put, get64_atomic, get64_store, get64_atomic_self]
  · simp (disch := omega) only [Ring.put, load_atomic, load_store_self]

end put

theorem mirrors_write {ring : Ring} {shown : Shown} {data : List UInt8}
    {width height stride fpsN fpsD : UInt32} {now : UInt64} (h : Mirrors ring shown) :
    Mirrors (step ring (.write data width height stride fpsN fpsD now))
      (shown.step (.write data width height stride fpsN fpsD now)) := by
  by_cases hrefused : refused data width height stride
  · simp only [step, Ring.write, Shown.step, if_pos hrefused]
    exact h
  · simp only [step, Ring.write, Shown.step, if_neg hrefused]
    have hlength : (data.take (stride.toNat * height.toNat)).length =
        stride.toNat * height.toNat := by
      unfold refused at hrefused
      rw [List.length_take]
      omega
    have hmeasured : Frame.Measured {
        width := width
        height := height
        stride := stride
        sequence := ring.sequence + 1
        time := now
        pixels := data.take (stride.toNat * height.toNat) } := by
      unfold refused at hrefused
      intro hout
      exact hrefused (by tauto)
    obtain ⟨hheaded, hsequence, hvalid, hrole⟩ : Headed (Ring.put ring.memory
        (slotOf (ring.sequence + 1)) (ring.sequence + 1) (data.take (stride.toNat * height.toNat))
        width height stride fpsN fpsD now) ∧ _ :=
      put_header (slotOf_bounds (ring.sequence + 1)).1 h.headed
    obtain ⟨hguard, hwidth, hheight, hstride, htime, hpixels⟩ : get64 (Ring.put ring.memory
        (slotOf (ring.sequence + 1)) (ring.sequence + 1) (data.take (stride.toNat * height.toNat))
        width height stride fpsN fpsD now) (slotOf (ring.sequence + 1)) = _ ∧ _ :=
      put_slot (slotOf_bounds (ring.sequence + 1)).1
    rw [hlength] at hpixels
    generalize Ring.put ring.memory (slotOf (ring.sequence + 1)) (ring.sequence + 1)
      (data.take (stride.toNat * height.toNat)) width height stride fpsN fpsD now = memory at *
    have hnumber : ring.sequence + 1 = UInt64.ofNat (shown.accepted + 1) := by
      rw [h.sequence, UInt64.ofNat_add]
      rfl
    constructor
    · exact hheaded
    · exact hnumber
    · exact hvalid
    · exact hrole.trans h.role
    · intro _
      change get64 memory (slotOf (get64 memory 16)) = get64 memory 16 * 2
      rw [hsequence, hguard]
    · intro frame hframe
      cases Option.mem_some_iff.mp hframe
      refine ⟨?_, ?_⟩
      · unfold described
        dsimp only
        rw [hsequence, hwidth, hheight, hstride, htime, hpixels, hnumber]
      · rw [← hnumber]
        exact hmeasured
    · intro frame hframe
      cases Option.mem_some_iff.mp hframe
      rfl

theorem mirrors_after (events : List Event) : Mirrors (after events) (shown events) := by
  induction events using List.reverseRecOn with
  | nil => exact mirrors_new
  | append_singleton events event ih =>
    rw [after, shown, List.foldl_append, List.foldl_append]
    cases event with
    | role role => exact mirrors_role ih role
    | write data width height stride fpsN fpsD now => exact mirrors_write ih
    | invalidate => exact mirrors_invalidate ih

/-! ## Agreement -/

/-- What is to be seen: the last frame, if the role is right and the frame is young enough. The
number of a frame is zero each time that `2 ^ 64` more have been accepted, and then it stands for
no frame. -/
def Shown.latest (shown : Shown) (now : UInt64) (role : UInt32) : Option Frame :=
  shown.frame.filter fun frame => shown.role = some role.toUInt64 ∧
    frame.time ≤ now ∧ now - frame.time < staleNs ∧ ¬ 2 ^ 64 ∣ shown.accepted

theorem fits_iff {frame : Frame} (h : frame.Measured) {now : UInt64} :
    fits frame.width frame.height frame.stride frame.time now ↔
      frame.time ≤ now ∧ now - frame.time < staleNs := by
  unfold Frame.Measured at h
  simp only [not_or] at h
  obtain ⟨hwidth, hheight, hwide, hhigh, hstride, hbytes⟩ := h
  have hpositive : 0 < frame.height.toNat :=
    Nat.pos_of_ne_zero fun hzero => hheight (UInt32.toNat_inj.mp hzero)
  have hcapacity : ¬ CAPACITY / frame.height.toNat < frame.stride.toNat := by
    rw [Nat.div_lt_iff_lt_mul hpositive]
    exact hbytes
  unfold fits
  simp only [not_or, hwidth, hheight, hwide, hhigh, hstride, hcapacity, not_false_eq_true,
    true_and, UInt64.not_lt, UInt64.not_le]

/-- The role that the view asks for, against the role word. -/
theorem role_word {role : UInt32} (hrole : role < 4) (last : Option UInt64) :
    (last.map (· + 1)).getD 0 = (role + 1).toUInt64 ↔ last = some role.toUInt64 := by
  have hlt : role.toNat < 4 := hrole
  have hnext : (role + 1).toUInt64 = role.toUInt64 + 1 := by
    apply UInt64.toNat_inj.mp
    simp only [UInt32.toNat_toUInt64, UInt32.toNat_add, UInt64.toNat_add, UInt32.toNat_ofNat,
      UInt64.toNat_ofNat]
    omega
  rw [hnext]
  cases last with
  | none =>
    refine ⟨fun h => ?_, fun h => nomatch h⟩
    have hzero := congrArg UInt64.toNat h
    simp only [Option.map_none, Option.getD_none, UInt64.toNat_add, UInt32.toNat_toUInt64,
      UInt64.toNat_ofNat] at hzero
    omega
  | some last =>
    simp only [Option.map_some, Option.getD_some, Option.some.injEq]
    exact UInt64.add_left_inj 1

theorem readable_iff {ring : Ring} {shown : Shown} (h : Mirrors ring shown) {frame : Frame}
    (hframe : shown.frame = some frame) {now : UInt64} {role : UInt32} (hrole : role < 4) :
    Readable ring.memory now role ↔ shown.role = some role.toUInt64 ∧
      frame.time ≤ now ∧ now - frame.time < staleNs ∧ ¬ 2 ^ 64 ∣ shown.accepted := by
  obtain ⟨hdescribed, hmeasured⟩ := h.frame frame hframe
  have hsequence : get64 ring.memory 16 = frame.sequence := congrArg Frame.sequence hdescribed
  have hvalid : get64 ring.memory 24 = 1 := by
    rw [h.valid, hframe]
    rfl
  have hstart : frame.sequence = 0 ↔ 2 ^ 64 ∣ shown.accepted := by
    rw [h.number frame hframe, ← UInt64.toNat_inj, UInt64.toNat_ofNat', Nat.dvd_iff_mod_eq_zero]
    rfl
  constructor
  · intro hreadable
    have hfits := hreadable.fits
    rw [hdescribed] at hfits
    obtain ⟨htime, hage⟩ := (fits_iff hmeasured).mp hfits
    refine ⟨(role_word hrole _).mp (h.role.symm.trans hreadable.role), htime, hage, ?_⟩
    rw [← hstart, ← hsequence]
    exact hreadable.started
  · intro ⟨hlast, htime, hage, hstarted⟩
    constructor
    · exact h.headed
    · exact hvalid
    · exact h.role.trans ((role_word hrole _).mpr hlast)
    · rw [hsequence]
      exact fun hzero => hstarted (hstart.mp hzero)
    · apply h.guard
      rw [hframe]
      rfl
    · rw [hdescribed]
      exact (fits_iff hmeasured).mpr ⟨htime, hage⟩

/-- The view sees what the daemon has to show, whatever has happened before. -/
theorem latest_shown (events : List Event) (now : UInt64) {role : UInt32} (hrole : role < 4) :
    (Latest (after events).memory now role).result = (shown events).latest now role := by
  have hmirrors := mirrors_after events
  rw [(latest_looks _ _ _).1, Shown.latest]
  cases hframe : (shown events).frame with
  | none =>
    apply if_neg
    intro hreadable
    have hvalid := hmirrors.valid
    rw [hreadable.valid, hframe] at hvalid
    exact absurd hvalid (by decide)
  | some frame =>
    have hdescribed := (hmirrors.frame frame hframe).1
    by_cases hreadable : Readable (after events).memory now role
    · rw [if_pos hreadable, hdescribed, Option.filter_some,
        if_pos (decide_eq_true ((readable_iff hmirrors hframe hrole).mp hreadable))]
    · rw [if_neg hreadable, Option.filter_some, if_neg]
      intro hseen
      exact hreadable ((readable_iff hmirrors hframe hrole).mpr (of_decide_eq_true hseen))

/-- A refused write leaves the ring as it is. -/
theorem after_refused (events : List Event) {data : List UInt8}
    {width height stride fpsN fpsD : UInt32} {now : UInt64}
    (h : refused data width height stride) :
    after (events ++ [.write data width height stride fpsN fpsD now]) = after events := by
  rw [after, List.foldl_append]
  simp only [List.foldl_cons, List.foldl_nil, step, Ring.write, if_pos h]
  rfl

theorem Inside.within {memory : Octets} {access : Access} (h : Inside memory access) :
    access.offset + access.length ≤ SIZE := by
  have hslot := (slotOf_bounds (get64 memory 16)).2
  rcases h with h | h
  · exact h.trans (by decide)
  · exact h.2.trans hslot

/-- Between any two events the view returns a frame exactly if one is to be seen, and it returns
that frame. -/
theorem ring_agreement (events : List Event) (now : UInt64) (role : UInt32) (hrole : role < 4) :
    (∀ frame, (Latest (after events).memory now role).result = some frame ↔
        (shown events).frame = some frame ∧ (shown events).role = some role.toUInt64 ∧
          frame.time ≤ now ∧ now - frame.time < staleNs ∧ ¬ 2 ^ 64 ∣ (shown events).accepted) ∧
      (∀ data width height stride fpsN fpsD time, refused data width height stride →
        after (events ++ [.write data width height stride fpsN fpsD time]) = after events) ∧
      ∀ memory, ∀ access ∈ (Latest memory now role).accesses,
        Inside memory access ∧ access.offset + access.length ≤ SIZE := by
  refine ⟨fun frame => ?_, fun _ _ _ _ _ _ _ => after_refused events, fun memory access h => ?_⟩
  · rw [latest_shown events now hrole, Shown.latest, Option.filter_eq_some_iff, decide_eq_true_iff]
  · have hinside := (latest_looks memory now role).2 access h
    exact ⟨hinside, hinside.within⟩

theorem ring_agreement_front :
    (∃ frame, (Latest (after [.role 0, .write [1, 2, 3, 4] 1 1 4 30 1 7]).memory 8 0).result =
      some frame) ∧
    after ([.role 0, .write [1, 2, 3, 4] 1 1 4 30 1 7] ++ [.write [] 1 1 4 30 1 8]) =
      after [.role 0, .write [1, 2, 3, 4] 1 1 4 30 1 7] :=
  have h := ring_agreement [.role 0, .write [1, 2, 3, 4] 1 1 4 30 1 7] 8 0 (by decide)
  ⟨⟨⟨1, 1, 4, 1, 7, [1, 2, 3, 4]⟩, (h.1 _).mpr (by decide +kernel)⟩,
    h.2.1 [] 1 1 4 30 1 8 (by decide)⟩

/-- One frame of a single pixel after another. -/
theorem shown_writes (n : ℕ) :
    shown (.role 0 :: List.replicate (n + 1) (.write [1, 2, 3, 4] 1 1 4 30 1 0)) =
      ⟨some ⟨1, 1, 4, UInt64.ofNat (n + 1), 0, [1, 2, 3, 4]⟩, some 0, n + 1⟩ := by
  have hstep (shown : Shown) : shown.step (.write [1, 2, 3, 4] 1 1 4 30 1 0) =
      { shown with
        accepted := shown.accepted + 1
        frame := some ⟨1, 1, 4, UInt64.ofNat (shown.accepted + 1), 0, [1, 2, 3, 4]⟩ } := by
    have haccepted : ¬ refused [1, 2, 3, 4] 1 1 4 := by decide
    rw [Shown.step, if_neg haccepted]
    rfl
  induction n with
  | zero => exact hstep _
  | succ n ih =>
    rw [List.replicate_succ', ← List.cons_append, shown, List.foldl_append]
    rw [shown] at ih
    rw [ih]
    exact hstep _

/-- After `2 ^ 64` frames the last one is there, of the right role and of no age, and the view
returns none. -/
theorem ring_wraps :
    ∃ frame, (shown (.role 0 ::
        List.replicate (2 ^ 64) (.write [1, 2, 3, 4] 1 1 4 30 1 0))).frame = some frame ∧
      (shown (.role 0 ::
        List.replicate (2 ^ 64) (.write [1, 2, 3, 4] 1 1 4 30 1 0))).role = some 0 ∧
      frame.time = 0 ∧
      (Latest (after (.role 0 ::
        List.replicate (2 ^ 64) (.write [1, 2, 3, 4] 1 1 4 30 1 0))).memory 0 0).result = none := by
  have hwrites := shown_writes (2 ^ 64 - 1)
  rw [Nat.sub_add_cancel (by decide)] at hwrites
  refine ⟨⟨1, 1, 4, UInt64.ofNat (2 ^ 64), 0, [1, 2, 3, 4]⟩, ?_, ?_, rfl, ?_⟩
  · rw [hwrites]
  · rw [hwrites]
  · rw [latest_shown _ _ (by decide), Shown.latest, hwrites, Option.filter_some, if_neg]
    intro h
    exact (of_decide_eq_true h).2.2.2 (Nat.dvd_refl _)

end ProjectArgo.Camera.Arcr
