import Mathlib.Tactic.NormNum
import ProjectArgo.Library.Bytes
import ProjectArgo.Library.Fragments
import ProjectArgo.Library.Framing

/-!
# Framing of Android Auto

After the version exchange the link carries frames of a channel. A message is encrypted as
records, and each of them is a frame; the first of several declares the length of all.
-/
namespace ProjectArgo.Projection.AaWire

open Library Library.Bytes Library.Fragments Library.Framing

def maxMessage : ℕ := 4 * 1024 * 1024

structure Packet where
  channel : UInt8
  flags : UInt8
  bytes : List UInt8
  deriving DecidableEq

namespace PacketDecoder

/-- `PacketDecoder.packet`, on what is buffered. -/
def packet (buffered : List UInt8) : Except String (Option (Packet × List UInt8)) :=
  match buffered with
  | channel :: flags :: high :: low :: _ =>
    if flags &&& ~~~0x0f ≠ 0 then .error "unknown AA frame flags"
    else
      let size := ofBigEndian [high, low]
      if size = 0 then .error "empty AA frame"
      else
        let header := if flags &&& 3 = 1 then 8 else 4
        if buffered.length < header then .ok none
        else
          let total := ofBigEndian (slice buffered 4 8)
          if header = 8 ∧ (total = 0 ∨ total > maxMessage) then
            .error "AA fragment declaration limit"
          else if buffered.length < header + size then .ok none
          else
            .ok (some (⟨channel, flags, slice buffered header (header + size)⟩,
              buffered.drop (header + size)))
  | _ => .ok none

theorem packet_shorter {buffered rest : List UInt8} {found : Packet}
    (h : packet buffered = .ok (some (found, rest))) : rest.length < buffered.length := by
  unfold packet at h
  split at h
  · dsimp only at h
    split_ifs at h <;> cases h
    all_goals
      rw [List.length_drop, List.length_cons]
      omega
  · cases h

def parser : Parser UInt8 Packet String := ⟨packet, packet_shorter⟩

@[simp] theorem parser_next : parser.next = packet := rfl

/-- A turn of the session's read loop: `push`, and `packet` until there is none. -/
def read : List UInt8 → List UInt8 → List UInt8 × Except String (List Packet) :=
  parser.receive (128 * 1024) "AA receive buffer limit"

end PacketDecoder

/-- What the session reads of segments of the stream, into its buffer of 16384 bytes. -/
def sessionReads (segments : List (List UInt8)) : List (List UInt8) :=
  segments.flatMap (chunks 16384)

def frame (channel flags : UInt8) (payload : List UInt8) : Except String (List UInt8) :=
  if payload = [] ∨ payload.length > 65535 then .error "AA outbound frame limit"
  else .ok ([channel, flags] ++ bigEndian 2 payload.length ++ payload)

/-- The records that were written one after another. -/
def recordPieces (records : List UInt8) : Except String (List (List UInt8)) :=
  if records = [] then .ok []
  else if records.length < 5 then .error "short outbound TLS header"
  else
    let length := 5 + ofBigEndian (slice records 3 5)
    if length > records.length then .error "short outbound TLS record"
    else
      match recordPieces (records.drop length) with
      | .error e => .error e
      | .ok pieces => .ok (records.take length :: pieces)
termination_by records.length
decreasing_by
  rw [List.length_drop]
  omega

def frameFlags (control first last : Bool) : UInt8 :=
  8 ||| (if control then 4 else 0) ||| (if first then 1 else 0) ||| (if last then 2 else 0)

/-- The frame of a record, with the length of all records if others follow the first. -/
def recordFrame (channel : UInt8) (control : Bool) (total count : ℕ) (piece : List UInt8 × ℕ) :
    Except String (List UInt8) :=
  let flags := frameFlags control (piece.2 = 0) (piece.2 + 1 = count)
  match frame channel flags piece.1 with
  | .error e => .error e
  | .ok packet =>
    .ok (if flags &&& 3 = 1 then packet.take 4 ++ bigEndian 4 total ++ packet.drop 4 else packet)

def encryptedFrames (channel : UInt8) (control : Bool) (records : List UInt8) :
    Except String (List UInt8) :=
  match recordPieces records with
  | .error e => .error e
  | .ok pieces =>
    match pieces.zipIdx.mapM (recordFrame channel control records.length pieces.length) with
    | .error e => .error e
    | .ok frames => .ok frames.flatten

/-! ## Records come back as packets -/

/-- A record with its header of five bytes, which fits a frame. -/
structure IsRecord (record : List UInt8) : Prop where
  header : 5 ≤ record.length
  length : record.length = 5 + ofBigEndian (slice record 3 5)
  bound : record.length ≤ 65535

theorem recordPieces_flatten {records : List (List UInt8)}
    (hrecords : ∀ record ∈ records, IsRecord record) :
    recordPieces records.flatten = .ok records := by
  induction records with
  | nil =>
    rw [recordPieces]
    exact if_pos rfl
  | cons record records ih =>
    rw [List.forall_mem_cons] at hrecords
    obtain ⟨hfirst, hrest⟩ := hrecords
    have hheader := hfirst.header
    have hlength : 5 + ofBigEndian (slice (record ++ records.flatten) 3 5) = record.length := by
      rw [slice_append_of_le hheader, hfirst.length]
    rw [List.flatten_cons, recordPieces]
    simp only [hlength, List.take_left, List.drop_left, ih hrest]
    rw [if_neg, if_neg, if_neg]
    · rw [List.length_append]
      omega
    · rw [List.length_append]
      omega
    · intro hnil
      rw [(List.append_eq_nil_iff.mp hnil).1] at hheader
      cases hheader

theorem frameFlags_plain (control first last : Bool) :
    frameFlags control first last &&& ~~~0x0f = 0 := by
  cases control <;> cases first <;> cases last <;> rfl

theorem frameFlags_bits (control first last : Bool) :
    (frameFlags control first last &&& 1 ≠ 0 ↔ first) ∧
      (frameFlags control first last &&& 2 ≠ 0 ↔ last) ∧
      (frameFlags control first last &&& 4 ≠ 0 ↔ control) ∧
      frameFlags control first last &&& 8 ≠ 0 := by
  cases control <;> cases first <;> cases last <;> decide

/-- A frame's header, and the length of all records where it is declared. -/
def frameHeader (channel flags high low : UInt8) (total : ℕ) : List UInt8 :=
  [channel, flags, high, low] ++ if flags &&& 3 = 1 then bigEndian 4 total else []

theorem length_frameHeader (channel flags high low : UInt8) (total : ℕ) :
    (frameHeader channel flags high low total).length = if flags &&& 3 = 1 then 8 else 4 := by
  unfold frameHeader
  split_ifs <;> simp

theorem packet_header {channel flags high low : UInt8} {size total : ℕ} (tail : List UInt8)
    (hflags : flags &&& ~~~0x0f = 0) (hsize : ofBigEndian [high, low] = size) (hpositive : 0 < size)
    (htotal : 0 < total ∧ total ≤ maxMessage) :
    PacketDecoder.packet (frameHeader channel flags high low total ++ tail) =
      if tail.length < size then .ok none
      else .ok (some (⟨channel, flags, tail.take size⟩, tail.drop size)) := by
  have hheader := length_frameHeader channel flags high low total
  generalize hfront : frameHeader channel flags high low total = front at hheader
  have hshape : ∃ extra, front = channel :: flags :: high :: low :: extra := ⟨_, hfront.symm⟩
  have hdeclared : flags &&& 3 = 1 → ofBigEndian (slice (front ++ tail) 4 8) = total := by
    intro hfirst
    have hmiddle := slice_middle [channel, flags, high, low] (bigEndian 4 total) tail
    rw [length_bigEndian] at hmiddle
    rw [← hfront, frameHeader, if_pos hfirst, List.append_assoc]
    refine (congrArg ofBigEndian hmiddle).trans (ofBigEndian_bigEndian ?_)
    exact htotal.2.trans_lt (by decide)
  have hdrop : (front ++ tail).drop (front.length + size) = tail.drop size := by
    rw [← List.drop_drop, List.drop_left]
  have hslice : slice (front ++ tail) front.length (front.length + size) = tail.take size := by
    rw [slice, List.drop_left, Nat.add_sub_cancel_left]
  obtain ⟨extra, rfl⟩ := hshape
  unfold PacketDecoder.packet
  simp only [List.cons_append, hflags, hsize, ne_eq, not_true_eq_false, if_false, hpositive.ne']
  simp only [← List.cons_append, ← hheader, hslice, hdrop]
  rw [if_neg, if_neg]
  · simp only [List.length_append, Nat.add_lt_add_iff_left]
  · rintro ⟨height, hbad⟩
    have hfirst : flags &&& 3 = 1 := by
      by_contra hother
      rw [hheader, if_neg hother] at height
      cases height
    rw [hdeclared hfirst] at hbad
    omega
  · rw [List.length_append]
    omega

/-- Nothing is read from a part of a header. -/
theorem packet_short {channel flags high low : UInt8} {total : ℕ} {front : List UInt8}
    (hflags : flags &&& ~~~0x0f = 0) (hpositive : 0 < ofBigEndian [high, low])
    (hfront : front <+: frameHeader channel flags high low total)
    (hlength : front.length < (frameHeader channel flags high low total).length) :
    PacketDecoder.packet front = .ok none := by
  rw [length_frameHeader] at hlength
  unfold PacketDecoder.packet
  split
  · rename_i first second third fourth rest
    obtain ⟨later, hlater⟩ := hfront
    obtain ⟨rfl, rfl, rfl, rfl, -⟩ : first = channel ∧ second = flags ∧ third = high ∧
        fourth = low ∧ True := by
      simp only [List.cons_append, frameHeader, List.cons.injEq] at hlater
      exact ⟨hlater.1, hlater.2.1, hlater.2.2.1, hlater.2.2.2.1, trivial⟩
    simp only [hflags, ne_eq, not_true_eq_false, if_false, hpositive.ne', hlength, if_true]
  · rfl

theorem frames_header {channel flags : UInt8} {bytes : List UInt8} {total : ℕ}
    (hflags : flags &&& ~~~0x0f = 0) (hpositive : 0 < bytes.length)
    (hbound : bytes.length ≤ 65535) (htotal : 0 < total ∧ total ≤ maxMessage) :
    PacketDecoder.parser.Frames (frameHeader channel flags (UInt8.ofNat (bytes.length / 256))
      (UInt8.ofNat bytes.length) total ++ bytes) ⟨channel, flags, bytes⟩ := by
  have hsize : ofBigEndian [UInt8.ofNat (bytes.length / 256), UInt8.ofNat bytes.length] =
      bytes.length := by
    rw [← bigEndian_two, ofBigEndian_bigEndian (by norm_num; omega)]
  constructor
  · intro rest
    rw [List.append_assoc, PacketDecoder.parser_next,
      packet_header _ hflags hsize hpositive htotal, if_neg, List.take_left, List.drop_left]
    rw [List.length_append]
    omega
  · intro front hfront hpart
    rw [PacketDecoder.parser_next]
    rcases Nat.lt_or_ge front.length (frameHeader channel flags (UInt8.ofNat (bytes.length / 256))
      (UInt8.ofNat bytes.length) total).length with hshort | hlong
    · exact packet_short hflags (hsize.symm ▸ hpositive)
        (List.prefix_of_prefix_length_le hfront (List.prefix_append _ bytes) hshort.le) hshort
    · obtain ⟨tail, rfl⟩ :=
        List.prefix_of_prefix_length_le (List.prefix_append _ bytes) hfront hlong
      rw [List.length_append, List.length_append] at hpart
      rw [packet_header tail hflags hsize hpositive htotal, if_pos (by omega)]

theorem recordFrame_eq {channel : UInt8} {control : Bool} {total count index : ℕ}
    {record : List UInt8} (h : IsRecord record) :
    recordFrame channel control total count (record, index) =
      .ok (frameHeader channel (frameFlags control (index = 0) (index + 1 = count))
        (UInt8.ofNat (record.length / 256)) (UInt8.ofNat record.length) total ++ record) := by
  have hheader := h.header
  have hnonempty : record ≠ [] := by
    rintro rfl
    cases hheader
  have hallowed : ¬ (record = [] ∨ record.length > 65535) :=
    not_or.mpr ⟨hnonempty, Nat.not_lt_of_le h.bound⟩
  unfold recordFrame frame frameHeader
  simp only [hallowed, if_false, bigEndian_two]
  split_ifs
  · rw [List.append_assoc]
    rfl
  · rfl

theorem mapM_eq_ok {α β ε : Type} {f : α → Except ε β} {g : α → β} {items : List α}
    (h : ∀ item ∈ items, f item = .ok (g item)) : items.mapM f = .ok (items.map g) := by
  induction items with
  | nil => rfl
  | cons item items ih =>
    rw [List.forall_mem_cons] at h
    rw [List.mapM_cons, h.1, ih h.2]
    rfl

/-- The packets of a message's records. -/
structure Carries (channel : UInt8) (control : Bool) (records : List (List UInt8))
    (packets : List Packet) : Prop where
  count : packets.length = records.length
  packet : ∀ i packet, packets[i]? = some packet →
    packet.channel = channel ∧ records[i]? = some packet.bytes ∧
      (packet.flags &&& 1 ≠ 0 ↔ i = 0) ∧ (packet.flags &&& 2 ≠ 0 ↔ i + 1 = records.length) ∧
      (packet.flags &&& 4 ≠ 0 ↔ control) ∧ packet.flags &&& 8 ≠ 0 ∧
      packet.flags &&& ~~~0x0f = 0

def recordPackets (channel : UInt8) (control : Bool) (records : List (List UInt8)) : List Packet :=
  records.zipIdx.map fun piece =>
    ⟨channel, frameFlags control (piece.2 = 0) (piece.2 + 1 = records.length), piece.1⟩

theorem carries_recordPackets (channel : UInt8) (control : Bool) (records : List (List UInt8)) :
    Carries channel control records (recordPackets channel control records) := by
  constructor
  · rw [recordPackets, List.length_map, List.length_zipIdx]
  · intro i packet hpacket
    rw [recordPackets, List.getElem?_map, List.getElem?_zipIdx] at hpacket
    obtain ⟨piece, hpiece, rfl⟩ := Option.map_eq_some_iff.mp hpacket
    obtain ⟨record, hrecord, rfl⟩ := Option.map_eq_some_iff.mp hpiece
    refine ⟨rfl, hrecord, ?_⟩
    dsimp only
    rw [Nat.zero_add]
    obtain ⟨hfirst, hlast, hcontrol, hencrypted⟩ :=
      frameFlags_bits control (i = 0) (i + 1 = records.length)
    exact ⟨hfirst.trans decide_eq_true_iff, hlast.trans decide_eq_true_iff, hcontrol, hencrypted,
      frameFlags_plain ..⟩

theorem flatten_sessionReads (segments : List (List UInt8)) :
    (sessionReads segments).flatten = segments.flatten := by
  induction segments with
  | nil => rfl
  | cons segment segments ih =>
    rw [sessionReads, List.flatMap_cons, List.flatten_append, flatten_chunks (by decide),
      List.flatten_cons, ← ih]
    rfl

theorem length_le_of_mem_sessionReads {segments : List (List UInt8)} {chunk : List UInt8}
    (h : chunk ∈ sessionReads segments) : chunk.length ≤ 16384 := by
  obtain ⟨segment, -, hchunk⟩ := List.mem_flatMap.mp h
  exact (bounds_of_mem_chunks hchunk).2

/-- However the link cuts what was written, the session reads the packets of the records, in
order and with their flags, and its buffer does not overflow. -/
theorem framing_round_trip (channel : UInt8) (control : Bool) {records : List (List UInt8)}
    (hrecords : ∀ record ∈ records, IsRecord record) (hnonempty : records ≠ [])
    (htotal : records.flatten.length ≤ maxMessage) :
    ∃ sent, encryptedFrames channel control records.flatten = .ok sent ∧
      ∀ segments : List (List UInt8), segments.flatten = sent →
        ∃ packets, Carries channel control records packets ∧
          (packets.map (·.bytes)).flatten = records.flatten ∧
          Delivers PacketDecoder.read [] (sessionReads segments) packets := by
  have hpositive : 0 < records.flatten.length := by
    obtain ⟨record, rest, rfl⟩ := List.exists_cons_of_ne_nil hnonempty
    have hheader := (hrecords record List.mem_cons_self).header
    rw [List.flatten_cons, List.length_append]
    omega
  let items := records.zipIdx.map fun piece =>
    ((frameHeader channel (frameFlags control (piece.2 = 0) (piece.2 + 1 = records.length))
      (UInt8.ofNat (piece.1.length / 256)) (UInt8.ofNat piece.1.length) records.flatten.length ++
        piece.1,
      ⟨channel, frameFlags control (piece.2 = 0) (piece.2 + 1 = records.length), piece.1⟩) :
        List UInt8 × Packet)
  have hpiece : ∀ piece ∈ records.zipIdx, IsRecord piece.1 :=
    fun piece hmem => hrecords piece.1 (List.fst_mem_of_mem_zipIdx hmem)
  have hitems : ∀ item ∈ items, PacketDecoder.parser.Frames item.1 item.2 := by
    intro item hitem
    obtain ⟨piece, hmem, rfl⟩ := List.mem_map.mp hitem
    have hrecord := hpiece piece hmem
    have hheader := hrecord.header
    exact frames_header (frameFlags_plain ..) (by omega) hrecord.bound ⟨hpositive, htotal⟩
  have hlongest : ∀ item ∈ items, item.1.length ≤ 65543 := by
    intro item hitem
    obtain ⟨piece, hmem, rfl⟩ := List.mem_map.mp hitem
    have hbound := (hpiece piece hmem).bound
    rw [List.length_append, length_frameHeader]
    split_ifs <;> omega
  have hmap : records.zipIdx.mapM (recordFrame channel control records.flatten.length
      records.length) = .ok (items.map Prod.fst) := by
    rw [List.map_map]
    exact mapM_eq_ok fun piece hmem => recordFrame_eq (hpiece piece hmem)
  refine ⟨wire items, ?_, fun segments hsegments => ?_⟩
  · unfold encryptedFrames
    simp only [recordPieces_flatten hrecords, hmap]
    rfl
  · have hcut : (sessionReads segments).flatten = wire items :=
      (flatten_sessionReads segments).trans hsegments
    have hpackets : items.map Prod.snd = recordPackets channel control records := by
      rw [List.map_map]
      rfl
    refine ⟨_, carries_recordPackets channel control records, ?_, ?_⟩
    · rw [recordPackets, List.map_map]
      exact congrArg List.flatten (List.zipIdx_map_fst ..)
    · rw [← hpackets]
      refine Parser.receive_cut rfl hitems (Parser.pending_nil hitems) hcut ?_
      refine Parser.room_of_short rfl hitems hlongest (Parser.pending_nil hitems) hcut ?_
      intro chunk hchunk
      have hread := length_le_of_mem_sessionReads hchunk
      omega

/-- Two records that arrive byte by byte. -/
theorem round_trip_bytewise :
    ∃ sent, encryptedFrames 3 false [23, 3, 3, 0, 1, 9, 23, 3, 3, 0, 2, 8, 7] = .ok sent ∧
      ∃ packets, Carries 3 false [[23, 3, 3, 0, 1, 9], [23, 3, 3, 0, 2, 8, 7]] packets ∧
        Delivers PacketDecoder.read [] (sessionReads (sent.map fun byte => [byte])) packets := by
  have hrecords : ∀ record ∈ [[23, 3, 3, 0, 1, 9], [23, 3, 3, 0, 2, 8, 7]], IsRecord record := by
    intro record hrecord
    simp only [List.mem_cons, List.not_mem_nil, or_false] at hrecord
    rcases hrecord with rfl | rfl
    · exact ⟨by decide, by decide, by decide⟩
    · exact ⟨by decide, by decide, by decide⟩
  obtain ⟨sent, hsent, hcut⟩ := framing_round_trip 3 false hrecords (List.cons_ne_nil _ _)
    (by decide)
  have hbytes : (sent.map fun byte => [byte]).flatten = sent := by
    rw [← List.flatMap_def]
    exact List.flatMap_singleton' sent
  obtain ⟨packets, hcarries, -, hdelivers⟩ := hcut _ hbytes
  exact ⟨sent, hsent, packets, hcarries, hdelivers⟩

end ProjectArgo.Projection.AaWire
