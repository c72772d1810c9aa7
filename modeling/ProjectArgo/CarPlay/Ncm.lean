import ProjectArgo.Library.Ends
import ProjectArgo.CarPlay.ScreenStream
import Mathlib.Data.List.Pairwise

/-!
# Network transfer blocks over USB

A transfer block begins with a header, from which a chain of tables leads to the Ethernet
frames inside the block. Every offset and every length of the chain is the phone's. The
walk collects the tables and the frames it has seen and refuses what overlaps them, so that
it neither leaves the block nor goes around in it.
-/
namespace ProjectArgo.CarPlay.Ncm

open Library.Bytes ScreenStream
open Library.Ends (bind_eq_ok)

/-- The substring of a block from `first` up to, not including, `last`. -/
structure Span where
  first : ℕ
  last : ℕ
  deriving DecidableEq

def Span.overlaps (a b : Span) : Bool := a.first < b.last && b.first < a.last

/-- No octet belongs to both. -/
def Span.Apart (a b : Span) : Prop := a.last ≤ b.first ∨ b.last ≤ a.first

theorem Span.apart_of_overlaps {a b : Span} (h : a.overlaps b = false) : a.Apart b := by
  simp only [overlaps, Bool.and_eq_false_iff, decide_eq_false_iff_not, not_lt] at h
  exact h.symm

theorem Span.Apart.symm {a b : Span} (h : a.Apart b) : b.Apart a := Or.symm h

/-! ## Reading a block -/

def u16le (bytes : List UInt8) (index : ℕ) : Except Halt ℕ :=
  match bytes[index]?, bytes[index + 1]? with
  | some low, some high => .ok (low.toNat + high.toNat * 256)
  | _, _ => .error (.error .bounds)

/-- The entries of one table, from `entry` on. -/
def datagrams (bytes : List UInt8) : ℕ → ℕ → List Span → Except Halt (List Span)
  | 0, _, _ => .error (.error .malformed)
  | count + 1, entry, ranges => do
    let start ← u16le bytes entry
    let size ← u16le bytes (entry + 2)
    if start = 0 ∧ size = 0 then .ok ranges
    else if start < 12 ∨ size < 14 ∨ 4096 < size ∨ bytes.length < start + size ∨
        32 ≤ ranges.length then .error (.error .bounds)
    else if ranges.any (Span.overlaps ⟨start, start + size⟩) then .error (.error .malformed)
    else datagrams bytes count (entry + 4) (ranges ++ [⟨start, start + size⟩])

/-- The size of the table at an offset. -/
def tableSize (bytes : List UInt8) (offset : ℕ) (tables : List Span) : Except Halt ℕ :=
  if offset < 12 ∨ offset % 4 ≠ 0 ∨ 8 < tables.length then .error (.error .bounds)
  else if bytes.length < offset + 4 ∨ slice bytes offset (offset + 4) ≠ [78, 67, 77, 48] then
    .error (.error .unsupported)
  else do
    let size ← u16le bytes (offset + 4)
    if size < 12 ∨ size % 4 ≠ 0 ∨ bytes.length < offset + size then .error (.error .bounds)
    else if tables.any (Span.overlaps ⟨offset, offset + size⟩) then .error (.error .malformed)
    else .ok size

/-- What is read of one table: its frames beside those before, and the next offset. -/
def readTable (bytes : List UInt8) (offset size : ℕ) (ranges : List Span) :
    Except Halt (List Span × ℕ) := do
  let ranges ← datagrams bytes ((size - 8) / 4) (offset + 8) ranges
  let next ← u16le bytes (offset + 6)
  .ok (ranges, next)

theorem tableSize_room {bytes : List UInt8} {offset size : ℕ} {tables : List Span}
    (h : tableSize bytes offset tables = .ok size) : tables.length ≤ 8 := by
  simp only [tableSize] at h
  split at h
  · exact nomatch h
  · omega

/-- The loop over the chain of tables: those it took, and the frames or why it ended. -/
def walk (bytes : List UInt8) (offset : ℕ) (tables ranges : List Span) :
    List Span × Except Halt (List Span) :=
  if offset = 0 then (tables, .ok ranges)
  else
    match _hsize : tableSize bytes offset tables with
    | .error halt => (tables, .error halt)
    | .ok size =>
      let tables := tables ++ [⟨offset, offset + size⟩]
      match readTable bytes offset size ranges with
      | .error halt => (tables, .error halt)
      | .ok (ranges, next) => walk bytes next tables ranges
termination_by 9 - tables.length
decreasing_by
  have := tableSize_room ‹_›
  simp only [List.length_append, List.length_singleton]
  omega

/-- A block with the tables and the frames found in it. -/
structure Layout where
  block : List UInt8
  tables : List Span
  ranges : List Span
  deriving DecidableEq

/-- The header of a block. -/
def header : Span := ⟨0, 12⟩

/-- The last check of a block: no frame overlaps a table, those behind it in the chain included. -/
def settle (block : List UInt8) (walked : List Span × Except Halt (List Span)) :
    Except Halt Layout := do
  let ranges ← walked.2
  if ranges.any fun range => walked.1.any range.overlaps then .error (.error .malformed)
  else .ok ⟨block, walked.1, ranges⟩

def layout (bytes : List UInt8) : Except Halt Layout :=
  if bytes.length < 12 ∨ bytes.take 4 ≠ [78, 67, 77, 72] then .error (.error .malformed)
  else do
    let size ← u16le bytes 4
    if size ≠ 12 then .error (.error .malformed)
    else do
      let length ← u16le bytes 8
      if length < 12 ∨ 32768 < length ∨ bytes.length < length then .error (.error .bounds)
      else do
        let block := bytes.take length
        let offset ← u16le block 10
        settle block (walk block offset [header] [])

/-- `&bytes[first..last]`. -/
def cut (bytes : List UInt8) (span : Span) : Except Halt (List UInt8) :=
  if span.last < span.first ∨ bytes.length < span.last then .error .outOfBounds
  else .ok (slice bytes span.first span.last)

def ethernetFrames (bytes : List UInt8) : Except Halt (List (List UInt8)) := do
  let found ← layout bytes
  found.ranges.mapM (cut found.block)

/-! ## Writing a block -/

/-- `out[index..index + value.len()].copy_from_slice(value)`. -/
def copyFrom (out : List UInt8) (index : ℕ) (value : List UInt8) : List UInt8 :=
  out.take index ++ value ++ out.drop (index + value.length)

/-- The numbers of a block that carries one frame, and where they stand. -/
def fields (length sequence : ℕ) (frame : List UInt8) : List (ℕ × ℕ) :=
  [(4, 12), (6, sequence), (8, length), (10, 12), (16, 16), (20, 28), (22, frame.length)]

def ntb (frame : List UInt8) (sequence : UInt16) : Except Halt (List UInt8) :=
  if frame.length < 14 ∨ 4096 < frame.length then .error (.error .bounds)
  else
    let length := frame.length + 28
    let out := List.replicate (length + if 512 ∣ length then 1 else 0) 0
    let out := copyFrom out 0 [78, 67, 77, 72]
    let out := copyFrom out 12 [78, 67, 77, 48]
    let out := (fields length sequence.toNat frame).foldl
      (fun out field => copyFrom out field.1 (littleEndian 2 field.2)) out
    .ok (copyFrom out 28 frame)

/-! ## What a walk keeps -/

/-- Frames of admissible length that lie behind the header, inside the block and apart. -/
structure Frames (bytes : List UInt8) (ranges : List Span) : Prop where
  sized : ∀ range ∈ ranges, range.first + 14 ≤ range.last ∧ range.last ≤ range.first + 4096
  within : ∀ range ∈ ranges, 12 ≤ range.first ∧ range.last ≤ bytes.length
  apart : ranges.Pairwise Span.Apart
  limited : ranges.length ≤ 32

theorem Frames.empty (bytes : List UInt8) : Frames bytes [] :=
  ⟨by simp, by simp, List.Pairwise.nil, Nat.zero_le 32⟩

variable {bytes : List UInt8} {ranges result : List Span}

theorem Frames.append {range : Span} (h : Frames bytes ranges)
    (hsized : range.first + 14 ≤ range.last ∧ range.last ≤ range.first + 4096)
    (hwithin : 12 ≤ range.first ∧ range.last ≤ bytes.length) (hroom : ranges.length < 32)
    (hapart : ∀ other ∈ ranges, range.Apart other) : Frames bytes (ranges ++ [range]) := by
  refine ⟨?_, ?_, ?_, ?_⟩
  · intro other hmem
    rcases List.mem_append.mp hmem with hold | hnew
    · exact h.sized other hold
    · cases List.mem_singleton.mp hnew
      exact hsized
  · intro other hmem
    rcases List.mem_append.mp hmem with hold | hnew
    · exact h.within other hold
    · cases List.mem_singleton.mp hnew
      exact hwithin
  · rw [List.pairwise_append]
    refine ⟨h.apart, List.pairwise_singleton _ _, ?_⟩
    intro other hother last hlast
    cases List.mem_singleton.mp hlast
    exact (hapart other hother).symm
  · simpa using Nat.succ_le_of_lt hroom

theorem datagrams_frames {count entry : ℕ} (h : Frames bytes ranges)
    (hok : datagrams bytes count entry ranges = .ok result) : Frames bytes result := by
  induction count generalizing entry ranges with
  | zero => exact nomatch hok
  | succ count ih =>
    obtain ⟨start, -, hok⟩ := bind_eq_ok.mp hok
    obtain ⟨size, -, hok⟩ := bind_eq_ok.mp hok
    split_ifs at hok with hlast hbad hover
    · cases hok
      exact h
    · simp only [not_or, not_lt, not_le] at hbad
      obtain ⟨hbehind, hshort, hlong, hinside, hroom⟩ := hbad
      apply ih (h.append _ ⟨hbehind, hinside⟩ hroom _) hok
      · exact ⟨Nat.add_le_add_left hshort start, Nat.add_le_add_left hlong start⟩
      · intro other hother
        simp only [List.any_eq_true, not_exists, not_and, Bool.not_eq_true] at hover
        exact Span.apart_of_overlaps (hover other hother)

theorem readTable_frames {offset size next : ℕ} (h : Frames bytes ranges)
    (hok : readTable bytes offset size ranges = .ok (result, next)) : Frames bytes result := by
  obtain ⟨found, hread, hok⟩ := bind_eq_ok.mp hok
  obtain ⟨value, -, hok⟩ := bind_eq_ok.mp hok
  cases hok
  exact datagrams_frames h hread

/-- The frames a walk finds, whatever the chain. -/
theorem walk_frames {offset : ℕ} {tables : List Span} (h : Frames bytes ranges)
    (hok : (walk bytes offset tables ranges).2 = .ok result) : Frames bytes result := by
  fun_induction walk bytes offset tables ranges with
  | case1 tables ranges =>
    cases hok
    exact h
  | case2 => exact nomatch hok
  | case3 => exact nomatch hok
  | case4 offset tables ranges hne size _ _ found next hread ih =>
    exact ih (readTable_frames h hread) hok

theorem length_next {offset size : ℕ} {tables : List Span} {table : Span}
    (h : tableSize bytes offset tables = .ok size) : (tables ++ [table]).length ≤ 9 := by
  have := tableSize_room h
  rw [List.length_append, List.length_singleton]
  omega

/-- A walk keeps the tables it began with, and takes no more than make nine. -/
theorem walk_tables {offset : ℕ} {tables : List Span} (hroom : tables.length ≤ 9) :
    tables <+: (walk bytes offset tables ranges).1 ∧
      (walk bytes offset tables ranges).1.length ≤ 9 := by
  fun_induction walk bytes offset tables ranges with
  | case1 => exact ⟨List.prefix_refl _, hroom⟩
  | case2 => exact ⟨List.prefix_refl _, hroom⟩
  | case3 ranges tables offset hne size hsize next halt hread =>
    exact ⟨List.prefix_append _ _, length_next hsize⟩
  | case4 ranges tables offset hne size hsize next found after hread ih =>
    obtain ⟨hfront, hlength⟩ := ih (length_next hsize)
    exact ⟨(List.prefix_append _ _).trans hfront, hlength⟩

/-! ## No access out of bounds -/

theorem bind_ne_outOfBounds {α β : Type} {x : Except Halt α} {f : α → Except Halt β}
    (hx : x ≠ .error .outOfBounds) (hf : ∀ a, x = .ok a → f a ≠ .error .outOfBounds) :
    x >>= f ≠ .error .outOfBounds := by
  cases x with
  | error halt =>
    intro heq
    have hhalt : Except.error halt = (Except.error .outOfBounds : Except Halt β) := heq
    cases hhalt
    exact hx rfl
  | ok a => exact hf a rfl

theorem u16le_ne_outOfBounds (bytes : List UInt8) (index : ℕ) :
    u16le bytes index ≠ .error .outOfBounds := by
  unfold u16le
  split <;> simp

theorem datagrams_ne_outOfBounds (count entry : ℕ) :
    datagrams bytes count entry ranges ≠ .error .outOfBounds := by
  induction count generalizing entry ranges with
  | zero => simp [datagrams]
  | succ count ih =>
    apply bind_ne_outOfBounds (u16le_ne_outOfBounds _ _)
    intro start _
    apply bind_ne_outOfBounds (u16le_ne_outOfBounds _ _)
    intro size _
    split_ifs
    · simp
    · simp
    · simp
    · exact ih (entry + 4)

theorem tableSize_ne_outOfBounds (offset : ℕ) (tables : List Span) :
    tableSize bytes offset tables ≠ .error .outOfBounds := by
  unfold tableSize
  split_ifs
  · simp
  · simp
  · apply bind_ne_outOfBounds (u16le_ne_outOfBounds _ _)
    intro size _
    split_ifs <;> simp

theorem readTable_ne_outOfBounds (offset size : ℕ) :
    readTable bytes offset size ranges ≠ .error .outOfBounds := by
  apply bind_ne_outOfBounds (datagrams_ne_outOfBounds _ _)
  intro found _
  apply bind_ne_outOfBounds (u16le_ne_outOfBounds _ _)
  intro next _
  simp

theorem walk_ne_outOfBounds (offset : ℕ) (tables : List Span) :
    (walk bytes offset tables ranges).2 ≠ .error .outOfBounds := by
  fun_induction walk bytes offset tables ranges with
  | case1 => simp
  | case2 ranges offset tables hne halt hsize =>
    intro heq
    cases heq
    exact tableSize_ne_outOfBounds _ _ hsize
  | case3 ranges offset tables hne size hsize next halt hread =>
    intro heq
    cases heq
    exact readTable_ne_outOfBounds _ _ hread
  | case4 ranges offset tables hne size hsize next found after hread ih => exact ih

theorem layout_ne_outOfBounds (bytes : List UInt8) : layout bytes ≠ .error .outOfBounds := by
  unfold layout
  split_ifs
  · simp
  apply bind_ne_outOfBounds (u16le_ne_outOfBounds _ _)
  intro size _
  split_ifs
  · simp
  apply bind_ne_outOfBounds (u16le_ne_outOfBounds _ _)
  intro length _
  split_ifs
  · simp
  apply bind_ne_outOfBounds (u16le_ne_outOfBounds _ _)
  intro offset _
  apply bind_ne_outOfBounds (walk_ne_outOfBounds _ _)
  intro found _
  split_ifs <;> simp

/-- The frames lie in the block, apart from each other and from every table of its chain. -/
structure Layout.Sound (found : Layout) : Prop where
  frames : Frames found.block found.ranges
  header : header ∈ found.tables
  clear : ∀ range ∈ found.ranges, ∀ table ∈ found.tables, range.Apart table

theorem layout_ok {found : Layout} (h : layout bytes = .ok found) :
    found.block <+: bytes ∧ found.Sound := by
  unfold layout at h
  split_ifs at h
  obtain ⟨size, -, h⟩ := bind_eq_ok.mp h
  split_ifs at h
  obtain ⟨length, -, h⟩ := bind_eq_ok.mp h
  split_ifs at h
  obtain ⟨offset, -, h⟩ := bind_eq_ok.mp h
  obtain ⟨ranges, hwalk, h⟩ := bind_eq_ok.mp h
  split at h
  · exact nomatch h
  rename_i hover
  cases h
  refine ⟨List.take_prefix _ _, walk_frames (Frames.empty _) hwalk, ?_, ?_⟩
  · exact (walk_tables (by simp)).1.subset (List.mem_singleton_self header)
  · intro range hrange table htable
    simp only [List.any_eq_true, not_exists, not_and, Bool.not_eq_true] at hover
    exact Span.apart_of_overlaps (hover range hrange table htable)

theorem mapM_ok {ε α β : Type} {f : α → Except ε β} {g : α → β} {xs : List α}
    (h : ∀ x ∈ xs, f x = .ok (g x)) : xs.mapM f = .ok (xs.map g) := by
  induction xs with
  | nil => rfl
  | cons x xs ih =>
    rw [List.mapM_cons, h x List.mem_cons_self, ih fun y hy => h y (List.mem_cons_of_mem x hy)]
    rfl

/-- The frames of an accepted block, none of which is cut beyond its end. -/
theorem ethernetFrames_layout {found : Layout} (h : layout bytes = .ok found) :
    ethernetFrames bytes =
      .ok (found.ranges.map fun range => slice found.block range.first range.last) := by
  obtain ⟨-, hsound⟩ := layout_ok h
  rw [ethernetFrames, h]
  apply mapM_ok
  intro range hrange
  have hsized := hsound.frames.sized range hrange
  have hwithin := hsound.frames.within range hrange
  apply if_neg
  omega

/-! ## One frame there and back -/

theorem littleEndian_two (n : ℕ) :
    littleEndian 2 n = [UInt8.ofNat n, UInt8.ofNat (n / 256)] := by
  rw [littleEndian, bigEndian_two]
  rfl

/-- The octets before the frame. -/
def front (length sequence size : ℕ) : List UInt8 :=
  [78, 67, 77, 72, 12, 0, UInt8.ofNat sequence, UInt8.ofNat (sequence / 256), UInt8.ofNat length,
    UInt8.ofNat (length / 256), 12, 0, 78, 67, 77, 48, 16, 0, 0, 0, 28, 0, UInt8.ofNat size,
    UInt8.ofNat (size / 256), 0, 0, 0, 0]

theorem copyFrom_fields (length sequence : ℕ) (frame rest : List UInt8) :
    (fields length sequence frame).foldl
      (fun out field => copyFrom out field.1 (littleEndian 2 field.2))
      (copyFrom (copyFrom (List.replicate 28 0 ++ rest) 0 [78, 67, 77, 72]) 12 [78, 67, 77, 48]) =
      front length sequence frame.length ++ rest := by
  have hzero : List.replicate 28 (0 : UInt8) = [0, 0, 0, 0, 0, 0, 0, 0, 0, 0, 0, 0, 0, 0, 0, 0,
      0, 0, 0, 0, 0, 0, 0, 0, 0, 0, 0, 0] := rfl
  rw [hzero]
  simp [fields, copyFrom, littleEndian_two, front]

theorem length_front (length sequence size : ℕ) : (front length sequence size).length = 28 := rfl

theorem copyFrom_frame (front frame rest padding : List UInt8)
    (hrest : rest.length = frame.length) :
    copyFrom (front ++ (rest ++ padding)) front.length frame = front ++ frame ++ padding := by
  have hdrop : (front ++ (rest ++ padding)).drop (front.length + frame.length) = padding := by
    rw [← hrest, ← List.append_assoc, ← List.length_append, List.drop_left]
  rw [copyFrom, List.take_left, hdrop]

/-- The octets added where the block would fill its last packet. -/
def padding (size : ℕ) : List UInt8 := List.replicate (if 512 ∣ size + 28 then 1 else 0) 0

theorem ntb_eq (frame : List UInt8) (sequence : UInt16)
    (hsize : 14 ≤ frame.length ∧ frame.length ≤ 4096) :
    ntb frame sequence = .ok (front (frame.length + 28) sequence.toNat frame.length ++ frame ++
      padding frame.length) := by
  have hzero : List.replicate (frame.length + 28 + if 512 ∣ frame.length + 28 then 1 else 0)
      (0 : UInt8) = List.replicate 28 0 ++
        (List.replicate frame.length 0 ++ padding frame.length) := by
    rw [padding, List.replicate_append_replicate, List.replicate_append_replicate]
    congr 1
    omega
  have hframe := copyFrom_frame (front (frame.length + 28) sequence.toNat frame.length) frame
    (List.replicate frame.length 0) (padding frame.length) (by simp)
  rw [length_front] at hframe
  rw [ntb, if_neg (by omega)]
  simp only [hzero, copyFrom_fields, hframe]

variable {frame rest : List UInt8} {sequence : ℕ}

/-- A number of the front, read back. -/
theorem u16le_front (frame rest : List UInt8) (sequence index value : ℕ) (hvalue : value < 65536)
    (hlow : (front (frame.length + 28) sequence frame.length ++ rest)[index]? =
      some (UInt8.ofNat value))
    (hhigh : (front (frame.length + 28) sequence frame.length ++ rest)[index + 1]? =
      some (UInt8.ofNat (value / 256))) :
    u16le (front (frame.length + 28) sequence frame.length ++ rest) index = .ok value := by
  rw [u16le, hlow, hhigh]
  simp only [UInt8.toNat_ofNat']
  congr 1
  omega

theorem datagrams_front (hsize : 14 ≤ frame.length ∧ frame.length ≤ 4096) :
    datagrams (front (frame.length + 28) sequence frame.length ++ frame) 2 20 [] =
      .ok [⟨28, 28 + frame.length⟩] := by
  have hstart := u16le_front frame frame sequence 20 28 (by omega) rfl rfl
  have hlength := u16le_front frame frame sequence 22 frame.length (by omega) rfl rfl
  have hzero := u16le_front frame frame sequence 24 0 (by omega) rfl rfl
  have hend := u16le_front frame frame sequence 26 0 (by omega) rfl rfl
  have hinside : ¬(frame.length < 14 ∨ 4096 < frame.length) := by omega
  simp only [datagrams, hstart, hlength, hzero, hend, bind, Except.bind, Nat.reduceAdd]
  simp [length_front, hinside]

theorem tableSize_front :
    tableSize (front (frame.length + 28) sequence frame.length ++ frame) 12 [header] = .ok 16 := by
  have hsize := u16le_front frame frame sequence 16 16 (by omega) rfl rfl
  have hmagic : slice (front (frame.length + 28) sequence frame.length ++ frame) 12 16 =
      [78, 67, 77, 48] := rfl
  have hinside : ¬(28 + frame.length < 16) ∧ ¬(28 + frame.length < 28) := by omega
  simp [tableSize, hmagic, hsize, length_front, bind, Except.bind, header, Span.overlaps, hinside,
    -not_lt]

theorem walk_front (hsize : 14 ≤ frame.length ∧ frame.length ≤ 4096) :
    walk (front (frame.length + 28) sequence frame.length ++ frame) 12 [header] [] =
      ([header, ⟨12, 28⟩], .ok [⟨28, 28 + frame.length⟩]) := by
  have hnext := u16le_front frame frame sequence 18 0 (by omega) rfl rfl
  have hread : readTable (front (frame.length + 28) sequence frame.length ++ frame) 12 16 [] =
      .ok ([⟨28, 28 + frame.length⟩], 0) := by
    rw [readTable, datagrams_front hsize]
    simp only [bind, Except.bind, hnext]
  rw [walk, if_neg (by omega)]
  split
  · rename_i halt hfailed
    rw [tableSize_front] at hfailed
    exact nomatch hfailed
  · rename_i size hfound
    rw [tableSize_front] at hfound
    cases hfound
    simp only [hread]
    rw [walk, if_pos rfl]
    rfl

theorem layout_front (hsize : 14 ≤ frame.length ∧ frame.length ≤ 4096) :
    layout (front (frame.length + 28) sequence frame.length ++ frame ++ rest) =
      .ok ⟨front (frame.length + 28) sequence frame.length ++ frame, [header, ⟨12, 28⟩],
        [⟨28, 28 + frame.length⟩]⟩ := by
  have hheader := u16le_front frame (frame ++ rest) sequence 4 12 (by omega) rfl rfl
  have hlength := u16le_front frame (frame ++ rest) sequence 8 (frame.length + 28) (by omega) rfl rfl
  have hoffset := u16le_front frame frame sequence 10 12 (by omega) rfl rfl
  have hblock : (front (frame.length + 28) sequence frame.length ++ (frame ++ rest)).take
      (frame.length + 28) = front (frame.length + 28) sequence frame.length ++ frame := by
    rw [← List.append_assoc]
    apply List.take_left'
    rw [List.length_append, length_front, Nat.add_comm]
  have hmagic : (front (frame.length + 28) sequence frame.length ++ (frame ++ rest)).take 4 =
      [78, 67, 77, 72] := rfl
  have hlong : ¬(32768 < frame.length + 28) := by omega
  have hinside : ¬(28 + (frame.length + rest.length) < frame.length + 28) := by omega
  have hheaded : ¬(28 + (frame.length + rest.length) < 12) := by omega
  rw [List.append_assoc, layout, if_neg (by simp [hmagic, length_front, hheaded, -not_lt])]
  simp only [hheader, hlength, hblock, hoffset, walk_front hsize, bind, Except.bind, settle]
  simp [length_front, hlong, hinside, header, Span.overlaps]

theorem ethernetFrames_ne_outOfBounds (bytes : List UInt8) :
    ethernetFrames bytes ≠ .error .outOfBounds := by
  apply bind_ne_outOfBounds (layout_ne_outOfBounds bytes)
  intro found hfound
  have hcut := ethernetFrames_layout hfound
  rw [ethernetFrames, hfound] at hcut
  intro heq
  exact nomatch hcut.symm.trans heq

theorem ethernetFrames_ntb (frame : List UInt8) (sequence : UInt16)
    (hsize : 14 ≤ frame.length ∧ frame.length ≤ 4096) :
    ∃ packet, ntb frame sequence = .ok packet ∧ ethernetFrames packet = .ok [frame] ∧
      ¬512 ∣ packet.length := by
  refine ⟨_, ntb_eq frame sequence hsize, ?_, ?_⟩
  · have hcut : slice (front (frame.length + 28) sequence.toNat frame.length ++ frame) 28
        (28 + frame.length) = frame := by
      have hright := slice_middle (front (frame.length + 28) sequence.toNat frame.length) frame []
      rwa [List.append_nil, length_front] at hright
    rw [ethernetFrames_layout (layout_front hsize)]
    simp only [List.map_cons, List.map_nil, hcut]
  · simp only [List.length_append, length_front, padding, List.length_replicate]
    split <;> omega

/-- A block of the phone is read without an access out of bounds and through at most eight
tables behind its header; what it is read as lies inside it, in admissible lengths, apart from
each other, from the header and from every table. A block of the accessory carries exactly
the frame it was made for and never fills its last packet. -/
theorem transfer_blocks :
    (∀ bytes, ethernetFrames bytes ≠ .error .outOfBounds ∧
      (∀ block offset, (walk block offset [header] []).1.length ≤ 9) ∧
      ∀ frames, ethernetFrames bytes = .ok frames → ∃ found, layout bytes = .ok found ∧
        frames = found.ranges.map (fun range => slice found.block range.first range.last) ∧
        found.block <+: bytes ∧ found.Sound) ∧
    ∀ (frame : List UInt8) (sequence : UInt16), 14 ≤ frame.length ∧ frame.length ≤ 4096 →
      ∃ packet, ntb frame sequence = .ok packet ∧ ethernetFrames packet = .ok [frame] ∧
        ¬512 ∣ packet.length := by
  refine ⟨?_, ethernetFrames_ntb⟩
  intro bytes
  refine ⟨ethernetFrames_ne_outOfBounds bytes, fun block offset => (walk_tables (by simp)).2, ?_⟩
  intro frames hframes
  obtain ⟨found, hfound, -⟩ := bind_eq_ok.mp hframes
  rw [ethernetFrames_layout hfound] at hframes
  exact ⟨found, hfound, (Except.ok.inj hframes).symm, layout_ok hfound⟩

/-- A block made for a short frame and read again. -/
theorem transfer_blocks_short : ∃ packet found, ntb (List.replicate 64 1) 65535 = .ok packet ∧
    layout packet = .ok found ∧ found.Sound := by
  obtain ⟨packet, hpacket, hread, -⟩ := transfer_blocks.2 (List.replicate 64 1) 65535 (by simp)
  obtain ⟨-, -, hinside⟩ := transfer_blocks.1 packet
  obtain ⟨found, hfound, -, -, hsound⟩ := hinside _ hread
  exact ⟨packet, found, hpacket, hfound, hsound⟩

end ProjectArgo.CarPlay.Ncm
