import ProjectArgo.CarPlay.Wired
import ProjectArgo.Library.Framing

/-!
# iAP2 frames out of a stream

The decoder takes frames off what was pushed; the wired link reads a frame exactly. Both
read a valid frame off the front of a stream whatever follows it, and neither reads anything from a
proper part of one. They differ in the decoder's bound and in frames that reset the link.
-/
namespace ProjectArgo.CarPlay.Iap2

open Library.Bytes Library.Framing

/-! ## Accepted bytes -/

theorem cons_of_header {bytes : List UInt8} (h : header ≤ bytes.length) :
    ∃ b₀ b₁ b₂ b₃ b₄ b₅ b₆ b₇ b₈ rest,
      bytes = b₀ :: b₁ :: b₂ :: b₃ :: b₄ :: b₅ :: b₆ :: b₇ :: b₈ :: rest := by
  match bytes, h with
  | b₀ :: b₁ :: b₂ :: b₃ :: b₄ :: b₅ :: b₆ :: b₇ :: b₈ :: rest, _ =>
    exact ⟨b₀, b₁, b₂, b₃, b₄, b₅, b₆, b₇, b₈, rest, rfl⟩

namespace Frame

/-- The bytes behind the header are a payload with its checksum, or nothing. -/
theorem tail_of_checksum {rest : List UInt8} (hone : rest.length ≠ 1)
    (h : rest ≠ [] → checksum rest = 0) (flags sequence acknowledgement session : UInt8) :
    (Frame.mk flags sequence acknowledgement session rest.dropLast).tail = rest := by
  rcases List.eq_nil_or_concat' rest with rfl | ⟨payload, last, rfl⟩
  · rfl
  · have hlast := eq_checksum_of_append (h (by simp))
    have hne : payload ≠ [] := by
      rintro rfl
      exact hone rfl
    unfold tail
    simp [hne, ← hlast]

/-- What is accepted is the encoding of the frame that is returned. -/
theorem wire_of_decode {bytes : List UInt8} {f : Frame} (h : decode bytes = .ok f) :
    f.Valid ∧ f.wire = bytes := by
  unfold decode at h
  split at h
  · cases h
  rename_i hbounds
  rw [not_or, Nat.not_lt, Nat.not_lt] at hbounds
  split at h
  · cases h
  rename_i hfront
  rw [not_or, not_or, not_not, not_not] at hfront
  split at h
  · cases h
  rename_i hsums
  rw [not_or, not_and, not_not, not_not] at hsums
  split at h
  · cases h
  rename_i hflags
  rw [not_not] at hflags
  obtain rfl := Except.ok.inj h
  obtain ⟨b₀, b₁, b₂, b₃, b₄, b₅, b₆, b₇, b₈, rest, rfl⟩ := cons_of_header hbounds.1
  obtain ⟨hmagic, hfield, hten⟩ := hfront
  obtain ⟨hhead, hrest⟩ := hsums
  change [b₀, b₁] = [0xff, 0x5a] at hmagic
  change ofBigEndian [b₂, b₃] = _ at hfield
  change checksum [b₀, b₁, b₂, b₃, b₄, b₅, b₆, b₇, b₈] = 0 at hhead
  change b₄ &&& 0x0f = 0 at hflags
  have hlength : (b₀ :: b₁ :: b₂ :: b₃ :: b₄ :: b₅ :: b₆ :: b₇ :: b₈ :: rest).length =
      rest.length + 9 := rfl
  rw [hlength] at hbounds hfield hten hrest ⊢
  have hpayload : (if rest.length + 9 = header then [] else
      slice (b₀ :: b₁ :: b₂ :: b₃ :: b₄ :: b₅ :: b₆ :: b₇ :: b₈ :: rest) header
        (rest.length + 9 - 1)) = rest.dropLast := by
    split
    · rename_i hempty
      have hnil : rest = [] := List.length_eq_zero_iff.mp (Nat.add_right_cancel hempty)
      rw [hnil, List.dropLast_nil]
    · rw [List.dropLast_eq_take]
      exact congrArg (rest.take ·) (by unfold header; omega)
  rw [hpayload]
  change Valid ⟨b₄, b₅, b₆, b₇, rest.dropLast⟩ ∧ wire ⟨b₄, b₅, b₆, b₇, rest.dropLast⟩ = _
  have htail : tail ⟨b₄, b₅, b₆, b₇, rest.dropLast⟩ = rest := by
    apply tail_of_checksum
    · intro hone
      exact hten (congrArg (· + 9) hone)
    · intro hne
      exact hrest (Nat.lt_add_of_pos_left (List.length_pos_iff.mpr hne))
  have hlen : length ⟨b₄, b₅, b₆, b₇, rest.dropLast⟩ = rest.length + 9 := by
    rw [length_eq_tail, htail, Nat.add_comm]
    rfl
  have hoctets : bigEndian 2 (rest.length + 9) = [b₂, b₃] := by
    have h := bigEndian_ofBigEndian [b₂, b₃] 0
    rw [Nat.zero_mul, Nat.zero_add, hfield] at h
    exact h
  have hwhole : head ⟨b₄, b₅, b₆, b₇, rest.dropLast⟩ = [b₀, b₁, b₂, b₃, b₄, b₅, b₆, b₇] := by
    unfold head
    rw [hlen, hoctets, ← hmagic]
    rfl
  have hsum : b₈ = checksum [b₀, b₁, b₂, b₃, b₄, b₅, b₆, b₇] := eq_checksum_of_append hhead
  refine ⟨⟨?_, hflags⟩, ?_⟩
  · rw [hlen]
    exact hbounds.2
  · rw [wire, hwhole, htail, ← hsum]
    rfl

end Frame

/-! ## The decoder -/

namespace Decoder

/-- Owns at most one maximum-size frame. -/
def push (pending bytes : List UInt8) : Except Error (List UInt8) :=
  if pending.length + bytes.length > maxFrame then .error .bounds else .ok (pending ++ bytes)

def nextFrame (pending : List UInt8) : Except Error (Option (Frame × List UInt8)) :=
  if pending.length < 4 then .ok none
  else if slice pending 0 2 ≠ [0xff, 0x5a] then .error .malformed
  else
    let length := ofBigEndian (slice pending 2 4)
    if length < header ∨ length = header + 1 then .error .malformed
    else if pending.length < length then .ok none
    else
      match Frame.decode (pending.take length) with
      | .error e => .error e
      | .ok f => .ok (some (f, pending.drop length))

/-- The frame that is returned is the front of what was pending. -/
theorem nextFrame_some {pending rest : List UInt8} {f : Frame}
    (h : nextFrame pending = .ok (some (f, rest))) : f.Valid ∧ pending = f.wire ++ rest := by
  unfold nextFrame at h
  split at h
  · cases h
  split at h
  · cases h
  dsimp only at h
  split at h
  · cases h
  split at h
  · cases h
  split at h
  · cases h
  · rename_i f' hdecode
    cases h
    obtain ⟨hvalid, hwire⟩ := Frame.wire_of_decode hdecode
    refine ⟨hvalid, ?_⟩
    rw [hwire, List.take_append_drop]

theorem header_le_length (f : Frame) : header ≤ f.wire.length := by
  rw [Frame.length_wire, Frame.length_eq_tail]
  exact Nat.le_add_right _ _

/-- The front of a valid frame tells its length. -/
theorem front_of_valid {f : Frame} (h : f.Valid) {bytes rest : List UInt8}
    (hbytes : bytes ++ rest = f.wire) (hlong : 4 ≤ bytes.length) :
    slice bytes 0 2 = [0xff, 0x5a] ∧ ofBigEndian (slice bytes 2 4) = f.length := by
  have hmagic : slice (bytes ++ rest) 0 2 = [0xff, 0x5a] := by
    rw [hbytes]
    simp [Frame.wire, Frame.head, slice]
  have hfield : slice (bytes ++ rest) 2 4 = bigEndian 2 f.length := by
    rw [hbytes]
    simp [Frame.wire, Frame.head, slice, bigEndian_two]
  rw [slice_append_of_le (by omega)] at hmagic hfield
  refine ⟨hmagic, ?_⟩
  rw [hfield, ofBigEndian_bigEndian (Nat.lt_of_le_of_lt h.1 (by decide))]

theorem nextFrame_wire {f : Frame} (h : f.Valid) (rest : List UInt8) :
    nextFrame (f.wire ++ rest) = .ok (some (f, rest)) := by
  obtain ⟨hmagic, hfield⟩ := front_of_valid h (List.append_nil f.wire)
    ((by decide : 4 ≤ header).trans (header_le_length f))
  have hlow := header_le_length f
  have hheader : header = 9 := rfl
  have hten := f.length_ne
  have hlength := f.length_wire
  unfold nextFrame
  rw [slice_append_of_le (by omega), slice_append_of_le (by omega), hmagic, hfield]
  dsimp only
  rw [if_neg (by rw [List.length_append]; omega), if_neg (by simp), if_neg (by omega),
    if_neg (by rw [List.length_append]; omega), ← hlength, List.take_left, List.drop_left,
    Frame.decode_wire h]

theorem nextFrame_part {f : Frame} (h : f.Valid) {front : List UInt8} (hfront : front <+: f.wire)
    (hless : front.length < f.wire.length) : nextFrame front = .ok none := by
  obtain ⟨rest, hrest⟩ := hfront
  have hlow := header_le_length f
  have hten := f.length_ne
  have hlength := f.length_wire
  unfold nextFrame
  by_cases hlong : front.length < 4
  · rw [if_pos hlong]
  · obtain ⟨hmagic, hfield⟩ := front_of_valid h hrest (Nat.le_of_not_lt hlong)
    rw [if_neg hlong, hmagic, hfield]
    dsimp only
    rw [if_neg (by simp), if_neg (by omega), if_pos (by omega)]

def parser : Parser UInt8 Frame Error where
  next := nextFrame
  shorter := by
    intro pending f rest h
    obtain ⟨-, rfl⟩ := nextFrame_some h
    have hlow := header_le_length f
    have hheader : header = 9 := rfl
    rw [List.length_append]
    omega

theorem frames_of_valid {f : Frame} (h : f.Valid) : parser.Frames f.wire f :=
  ⟨nextFrame_wire h, fun _ => nextFrame_part h⟩

theorem stable : parser.Stable where
  value := by
    intro pending f rest h more
    obtain ⟨hvalid, rfl⟩ := nextFrame_some h
    rw [List.append_assoc]
    exact nextFrame_wire hvalid _
  error := by
    intro pending e h more
    change nextFrame pending = _ at h
    change nextFrame (pending ++ more) = _
    unfold nextFrame at h ⊢
    split at h
    · cases h
    rename_i hlong
    rw [slice_append_of_le (by omega), slice_append_of_le (by omega),
      if_neg (by rw [List.length_append]; omega)]
    split at h
    · rename_i hmagic
      rw [if_pos hmagic]
      exact h
    rename_i hmagic
    rw [if_neg hmagic]
    dsimp only at h ⊢
    split at h
    · rename_i hbad
      rw [if_pos hbad]
      exact h
    rename_i hbad
    rw [if_neg hbad]
    split at h
    · cases h
    rename_i hroom
    rw [if_neg (by rw [List.length_append]; omega), List.take_append_of_le_length (by omega)]
    split at h
    · exact h
    · cases h

/-- The frames that come out of chunks, drained between them, and what then is pending. -/
def decodeAll (chunks : List (List UInt8)) : List Frame × Except Error (List UInt8) :=
  parser.readAll push [] chunks

theorem push_eq : push = Parser.within maxFrame .bounds := rfl

/-- Every chunk up to the first error finds room next to what is pending. -/
abbrev FindRoom (chunks : List (List UInt8)) : Prop := parser.Fits maxFrame [] chunks

/-- The stream of some frames, each with its bytes. -/
def items (frames : List Frame) : List (List UInt8 × Frame) := frames.map fun f => (f.wire, f)

theorem items_frames {frames : List Frame} (h : ∀ f ∈ frames, f.Valid) :
    ∀ item ∈ items frames, parser.Frames item.1 item.2 := by
  intro item hitem
  obtain ⟨f, hf, rfl⟩ := List.mem_map.mp hitem
  exact frames_of_valid (h f hf)

theorem items_snd (frames : List Frame) : (items frames).map Prod.snd = frames := by
  unfold items
  rw [List.map_map]
  exact List.map_id _

theorem next_nil : parser.next [] = .ok none := rfl

/-- Chunks of a byte always find room, and longer ones next to shorter frames. -/
theorem findRoom_of_short {frames : List Frame} (hvalid : ∀ f ∈ frames, f.Valid)
    {longest size : ℕ} (hlongest : ∀ f ∈ frames, f.length ≤ longest + 1)
    (hlimit : longest + size ≤ maxFrame) {chunks : List (List UInt8)}
    (h : chunks.flatten = wire (items frames)) (hchunks : ∀ chunk ∈ chunks, chunk.length ≤ size) :
    FindRoom chunks := by
  refine Parser.fits_of_frames next_nil (items_frames hvalid) ?_ hlimit h hchunks
  intro item hitem
  obtain ⟨f, hf, rfl⟩ := List.mem_map.mp hitem
  rw [Frame.length_wire]
  exact hlongest f hf

theorem decodeAll_of_room {frames : List Frame} (hvalid : ∀ f ∈ frames, f.Valid)
    {chunks : List (List UInt8)} (h : chunks.flatten = wire (items frames))
    (hroom : FindRoom chunks) : decodeAll chunks = (frames, .ok []) := by
  rw [decodeAll, push_eq, Parser.readAll_eq stable hroom, List.nil_append, h,
    Parser.takeAll_wire next_nil (items_frames hvalid), items_snd]

end Decoder

/-! ## The wired link -/

namespace Link

/-- `Control::frame` on what has arrived: reading exactly waits for the rest. -/
def next (input : List UInt8) : Except Error (Option (Frame × List UInt8)) :=
  match Wired.frame input with
  | .waiting => .ok none
  | .failed e => .error e
  | .done f rest => .ok (some (f, rest))

def parser : Parser UInt8 Frame Error where
  next := next
  shorter := by
    intro input f rest h
    unfold next at h
    split at h
    · cases h
    · cases h
    · rename_i hframe
      cases h
      exact Wired.frame_done hframe

theorem next_wire {f : Frame} (h : f.Valid) (hrst : f.flags &&& rst = 0) (rest : List UInt8) :
    next (f.wire ++ rest) = .ok (some (f, rest)) := by
  unfold next
  rw [Wired.frame_valid h, if_neg (not_not.mpr hrst)]

/-- A frame that resets the link is rejected. -/
theorem next_reset {f : Frame} (h : f.Valid) (hrst : f.flags &&& rst ≠ 0) (rest : List UInt8) :
    next (f.wire ++ rest) = .error .rejected := by
  unfold next
  rw [Wired.frame_valid h, if_pos hrst]

theorem next_part {f : Frame} (h : f.Valid) {front : List UInt8} (hfront : front <+: f.wire)
    (hless : front.length < f.wire.length) : next front = .ok none := by
  obtain ⟨rest, hrest⟩ := hfront
  have hlow := Decoder.header_le_length f
  have hten := f.length_ne
  have hhigh := h.1
  have hlength := f.length_wire
  have hheader : header = 9 := rfl
  have hwaiting : Wired.frame front = .waiting := by
    unfold Wired.frame
    split
    · rfl
    rename_i htwo
    have hmagic : slice front 0 2 = [0xff, 0x5a] := by
      have hwhole : slice (front ++ rest) 0 2 = [0xff, 0x5a] := by
        rw [hrest]
        simp [Frame.wire, Frame.head, slice]
      rw [slice_append_of_le (by omega)] at hwhole
      exact hwhole
    rw [hmagic, if_neg (by decide)]
    unfold Wired.body
    split
    · rfl
    rename_i hnine
    obtain ⟨-, hfield⟩ := Decoder.front_of_valid h hrest (by omega)
    dsimp only
    rw [hfield, if_neg (by omega), if_pos (by omega)]
  unfold next
  rw [hwaiting]

theorem frames_of_valid {f : Frame} (h : f.Valid) (hrst : f.flags &&& rst = 0) :
    parser.Frames f.wire f := ⟨next_wire h hrst, fun _ => next_part h⟩

theorem next_nil : parser.next [] = .ok none := rfl

/-- Wherever the stream is cut, the frames that arrived whole are read. -/
theorem takeAll_front {frames : List Frame} (hvalid : ∀ f ∈ frames, f.Valid)
    (hrst : ∀ f ∈ frames, f.flags &&& rst = 0) {front later : List UInt8}
    (h : front ++ later = wire (Decoder.items frames)) :
    ∃ whole rest left, frames = whole ++ rest ∧ parser.takeAll front = (whole, .ok left) ∧
      left ++ later = wire (Decoder.items rest) ∧ Parser.Pending left (Decoder.items rest) := by
  have hitems : ∀ item ∈ Decoder.items frames, parser.Frames item.1 item.2 := by
    intro item hitem
    obtain ⟨f, hf, rfl⟩ := List.mem_map.mp hitem
    exact frames_of_valid (hvalid f hf) (hrst f hf)
  obtain ⟨whole, rest, left, hsplit, hdrain, hleft, hpending⟩ :=
    Parser.drain_part next_nil hitems h
  obtain ⟨frames₁, frames₂, rfl, hwhole, hrest⟩ := List.map_eq_append_iff.mp hsplit
  rw [← hwhole] at hdrain
  rw [← hrest] at hleft hpending
  refine ⟨frames₁, frames₂, left, rfl, ?_, hleft, hpending⟩
  rw [Parser.takeAll_of_drain hdrain]
  exact congrArg (fun list => (list, Except.ok left)) (Decoder.items_snd frames₁)

/-- The frames in front of one that resets the link are read, and that one is rejected. -/
theorem takeAll_reset {frames : List Frame} (hvalid : ∀ f ∈ frames, f.Valid)
    (hrst : ∀ f ∈ frames, f.flags &&& rst = 0) {f : Frame} (hf : f.Valid)
    (hreset : f.flags &&& rst ≠ 0) (rest : List UInt8) :
    parser.takeAll (wire (Decoder.items frames) ++ (f.wire ++ rest)) =
      (frames, .error .rejected) := by
  induction frames with
  | nil => exact Parser.takeAll_error (next_reset hf hreset rest)
  | cons first frames ih =>
    rw [List.forall_mem_cons] at hvalid hrst
    have hnext : parser.next (wire (Decoder.items (first :: frames)) ++ (f.wire ++ rest)) =
        .ok (some (first, wire (Decoder.items frames) ++ (f.wire ++ rest))) := by
      have hwire : wire (Decoder.items (first :: frames)) ++ (f.wire ++ rest) =
          first.wire ++ (wire (Decoder.items frames) ++ (f.wire ++ rest)) :=
        List.append_assoc _ _ _
      rw [hwire]
      exact next_wire hvalid.1 hrst.1 _
    rw [Parser.takeAll_some hnext, ih hvalid.2 hrst.2]

end Link

/-- A frame without a payload, in two chunks and on the wired link. -/
def ackFrame : Frame := ⟨ack, 2, 3, 0xbf, []⟩

def longFrame : Frame := ⟨ack, 0, 0, controlSession, List.replicate 40000 0⟩

def resetFrame : Frame := ⟨rst, 1, 0, 0, []⟩

theorem length_longFrame : longFrame.length = 40010 := by
  have hpayload : longFrame.payload.length = 40000 := List.length_replicate
  have hne : longFrame.payload.isEmpty = false := by
    rw [List.isEmpty_eq_false_iff]
    exact List.ne_nil_of_length_pos (by omega)
  rw [Frame.length, hpayload, hne]
  rfl

theorem Decoder.decodeAll_full {chunk : List UInt8} (h : maxFrame < chunk.length) :
    Decoder.decodeAll [chunk] = ([], .error .bounds) := by
  have hfull : Decoder.push [] chunk = .error .bounds := by
    apply if_pos
    rw [List.length_nil, Nat.zero_add]
    exact h
  unfold Decoder.decodeAll Parser.readAll
  rw [Parser.takeAll_none Decoder.next_nil]
  dsimp only
  rw [hfull]

end ProjectArgo.CarPlay.Iap2
