import ProjectArgo.Library.Fragments
import ProjectArgo.Library.Run
import ProjectArgo.CarPlay.Csm
import ProjectArgo.CarPlay.Iap2

/-!
# The wired iAP2 control link

`send` cuts an encoded control message into data frames of the negotiated size
and `message` puts it together again from the byte stream, suppressing a
repeated frame by its sequence number. The end-to-end theorem connects the two
across a transport that may deliver every frame any number of times.
-/
namespace ProjectArgo.CarPlay.Wired

open Iap2 Csm Library.Bytes Library.Fragments Library.Run

/-- An asynchronous read either needs more bytes, fails, or leaves the rest of the stream. -/
inductive Read (α : Type) where
  | waiting
  | failed (e : Error)
  | done (value : α) (rest : List UInt8)
  deriving DecidableEq

structure Control where
  sent : UInt8
  received : UInt8
  maxFrame : ℕ
  csmBytes : List UInt8
  deriving DecidableEq

/-- The part of `frame` after an optional detection sequence. -/
def body (input : List UInt8) : Read Frame :=
  if input.length < header then .waiting
  else
    let length := ofBigEndian (slice input 2 4)
    if ¬(9 ≤ length ∧ length ≤ Iap2.maxFrame) ∨ length = 10 then .failed .bounds
    else if input.length < length then .waiting
    else
      match Frame.decode (input.take length) with
      | .error e => .failed e
      | .ok f => if f.flags &&& rst ≠ 0 then .failed .rejected else .done f (input.drop length)

def frame (input : List UInt8) : Read Frame :=
  if input.length < 2 then .waiting
  else if slice input 0 2 = detect.take 2 then
    if input.length < 6 then .waiting
    else if slice input 2 6 ≠ detect.drop 2 then .failed .malformed
    else body (input.drop 6)
  else body input

namespace Control

def writeFrame (c : Control) (f : Frame) : Except Error (List UInt8) :=
  match f.encode with
  | .error e => .error e
  | .ok bytes => if bytes.length > c.maxFrame then .error .bounds else .ok bytes

/-- The loop of `send`: the state after it, its result and the frames written. -/
def sendParts (c : Control) : List (List UInt8) → Control × Except Error Unit × List (List UInt8)
  | [] => (c, .ok (), [])
  | part :: parts =>
    let c := { c with sent := c.sent + 1 }
    match c.writeFrame ⟨Iap2.ack, c.sent, c.received, controlSession, part⟩ with
    | .error e => (c, .error e, [])
    | .ok bytes =>
      let rest := c.sendParts parts
      (rest.1, rest.2.1, bytes :: rest.2.2)

def send (c : Control) (m : Message) : Control × Except Error Unit × List (List UInt8) :=
  match m.encode with
  | .error e => (c, .error e, [])
  | .ok bytes => c.sendParts (chunks (c.maxFrame - 10) bytes)

/-- The head of the loop of `message`: a message that is complete, with the bytes behind it. -/
def assembled (c : Control) : Except Error (Option (Message × List UInt8)) :=
  if c.csmBytes.length ≥ 6 then
    if slice c.csmBytes 0 2 ≠ [0x40, 0x40] then .error .malformed
    else
      let length := ofBigEndian (slice c.csmBytes 2 4)
      if ¬(6 ≤ length ∧ length ≤ maxMessage) then .error .bounds
      else if c.csmBytes.length ≥ length then
        match Message.decode (c.csmBytes.take length) with
        | .error e => .error e
        | .ok m => .ok (some (m, c.csmBytes.drop length))
      else .ok none
  else .ok none

/-- The rest of the loop body of `message`, on the frame just read. -/
def accept (c : Control) (f : Frame) : Control × Except Error Unit :=
  if f.flags ≠ Iap2.ack then (c, .error .unsupported)
  else if f.payload = [] then (c, .ok ())
  else if f.session ≠ controlSession then (c, .error .unsupported)
  -- Retransmitted data must not sign twice.
  else if f.sequence = c.received then (c, .ok ())
  else if f.sequence ≠ c.received + 1 then (c, .error .sequence)
  else
    let c := { c with received := f.sequence }
    if c.csmBytes.length + f.payload.length > maxMessage then (c, .error .bounds)
    else ({ c with csmBytes := c.csmBytes ++ f.payload }, .ok ())

end Control

theorem body_done {input rest : List UInt8} {f : Frame} (h : body input = .done f rest) :
    rest.length < input.length := by
  simp only [body] at h
  split_ifs at h with hshort hbounds hwait
  split at h
  · contradiction
  · split_ifs at h
    rw [not_or, not_not] at hbounds
    rw [← (Read.done.inj h).2, List.length_drop]
    omega

theorem frame_done {input rest : List UInt8} {f : Frame} (h : frame input = .done f rest) :
    rest.length < input.length := by
  unfold frame at h
  split_ifs at h with hshort hdetect hwait
  · exact (body_done h).trans_le (List.length_drop ▸ Nat.sub_le _ _)
  · exact body_done h

namespace Control

/-- One call of `message` on the unread part of the stream. -/
def message (c : Control) (input : List UInt8) : Control × Read Message :=
  match c.assembled with
  | .error e => (c, .failed e)
  | .ok (some (m, rest)) => ({ c with csmBytes := rest }, .done m input)
  | .ok none =>
    match _h : frame input with
    | .waiting => (c, .waiting)
    | .failed e => (c, .failed e)
    | .done f rest =>
      match c.accept f with
      | (c, .error e) => (c, .failed e)
      | (c, .ok ()) => c.message rest
termination_by input.length
decreasing_by exact frame_done ‹_›

/-- `n` calls of `message`: their answers, `none` for a call that is still waiting. -/
def messages : ℕ → Control → List UInt8 → List (Option (Except Error Message))
  | 0, _, _ => []
  | n + 1, c, input =>
    match c.message input with
    | (_, .waiting) => [none]
    | (_, .failed e) => [some (.error e)]
    | (c, .done m rest) => some (.ok m) :: messages n c rest

end Control

/-! ## Sending -/

/-- The data frames for the parts of a message. -/
def dataFrames (sent acknowledgement : UInt8) : List (List UInt8) → List Frame
  | [] => []
  | part :: parts =>
    ⟨Iap2.ack, sent + 1, acknowledgement, controlSession, part⟩ ::
      dataFrames (sent + 1) acknowledgement parts

/-- A non-empty data frame of the control session within the frame limit. -/
structure Data (f : Frame) : Prop where
  flags : f.flags = Iap2.ack
  session : f.session = controlSession
  payload : f.payload ≠ []
  length : f.length ≤ Iap2.maxFrame

variable {c peer : Control} {f : Frame} {m : Message} {bytes : List UInt8}

theorem Data.valid (h : Data f) : f.Valid := ⟨h.length, by rw [h.flags]; decide⟩

theorem length_of_part {sent acknowledgement : UInt8} {part : List UInt8} (h : part ≠ []) :
    (Frame.mk Iap2.ack sent acknowledgement controlSession part).length = part.length + 10 := by
  simp [Frame.length, header, h]
  omega

theorem data_of_part {sent acknowledgement : UInt8} {part : List UInt8} {limit : ℕ}
    (hlimit : 10 ≤ limit ∧ limit ≤ 65535) (h : part ≠ [] ∧ part.length ≤ limit - 10) :
    Data ⟨Iap2.ack, sent, acknowledgement, controlSession, part⟩ where
  flags := rfl
  session := rfl
  payload := h.1
  length := by
    rw [length_of_part h.1]
    unfold Iap2.maxFrame
    omega

theorem sendParts_eq (c : Control) (hlimit : 10 ≤ c.maxFrame ∧ c.maxFrame ≤ 65535)
    {parts : List (List UInt8)} (hparts : ∀ p ∈ parts, p ≠ [] ∧ p.length ≤ c.maxFrame - 10) :
    c.sendParts parts =
      ({ c with sent := c.sent + UInt8.ofNat parts.length }, .ok (),
        (dataFrames c.sent c.received parts).map Frame.wire) := by
  induction parts generalizing c with
  | nil => simp [Control.sendParts, dataFrames]
  | cons part parts ih =>
    have hpart := hparts part (by simp)
    have hdata : Data ⟨Iap2.ack, c.sent + 1, c.received, controlSession, part⟩ :=
      data_of_part hlimit hpart
    have hrest := ih { c with sent := c.sent + 1 } hlimit
      (fun p hp => hparts p (List.mem_cons_of_mem _ hp))
    have hsent : c.sent + 1 + UInt8.ofNat parts.length = c.sent + UInt8.ofNat (parts.length + 1) := by
      rw [UInt8.ofNat_add]
      grind
    have hfits : ¬part.length + 10 > c.maxFrame := by omega
    simp [Control.sendParts, Control.writeFrame, Frame.encode_of_valid hdata.valid,
      Frame.length_wire, length_of_part hpart.1, hfits, hrest, dataFrames, hsent]

theorem length_dataFrames (sent acknowledgement : UInt8) {limit : ℕ} (hlimit : 10 ≤ limit)
    {parts : List (List UInt8)} (hparts : ∀ p ∈ parts, p ≠ [] ∧ p.length ≤ limit - 10) :
    ∀ w ∈ (dataFrames sent acknowledgement parts).map Frame.wire, w.length ≤ limit := by
  induction parts generalizing sent with
  | nil => simp [dataFrames]
  | cons part parts ih =>
    intro w hw
    rcases List.mem_cons.mp hw with rfl | hw
    · have hpart := hparts part (by simp)
      rw [Frame.length_wire, length_of_part hpart.1]
      omega
    · exact ih (sent + 1) (fun p hp => hparts p (List.mem_cons_of_mem _ hp)) w hw

/-! ## Receiving -/

/-- A valid frame is read off the front of the stream, unless it resets the link. -/
theorem frame_valid (h : f.Valid) (rest : List UInt8) :
    frame (f.wire ++ rest) =
      if f.flags &&& rst ≠ 0 then .failed .rejected else .done f rest := by
  have hlen : f.wire.length = f.length := f.length_wire
  have hlow : header ≤ f.length := by rw [Frame.length_eq_tail]; omega
  have hhigh := h.1
  have hten := f.length_ne
  have hmagic : slice (f.wire ++ rest) 0 2 = [0xff, 0x5a] := by
    simp [Frame.wire, Frame.head, slice]
  have hfield : ofBigEndian (slice (f.wire ++ rest) 2 4) = f.length := by
    have hslice : slice (f.wire ++ rest) 2 4 = bigEndian 2 f.length := by
      simp [Frame.wire, Frame.head, slice, bigEndian_two]
    rw [hslice, ofBigEndian_bigEndian (by unfold Iap2.maxFrame at hhigh; omega)]
  have htake : (f.wire ++ rest).take f.length = f.wire := List.take_left' hlen
  have hdrop : (f.wire ++ rest).drop f.length = rest := List.drop_left' hlen
  unfold header at hlow hten
  rw [frame, if_neg (by rw [List.length_append]; omega), hmagic, if_neg (by decide), body,
    if_neg (by rw [List.length_append]; unfold header; omega)]
  simp only [hfield, htake, hdrop, Frame.decode_wire h]
  rw [if_neg (by omega), if_neg (by rw [List.length_append]; omega)]

theorem frame_wire (h : Data f) (rest : List UInt8) : frame (f.wire ++ rest) = .done f rest := by
  have hrst : f.flags &&& rst = 0 := by rw [h.flags]; decide
  rw [frame_valid h.valid, if_neg (not_not.mpr hrst)]

/-- A prefix of an encoded message is not yet a message. -/
theorem assembled_prefix (h : m.encode = .ok bytes) {rest : List UInt8}
    (hbytes : bytes = c.csmBytes ++ rest) (hrest : rest ≠ []) : c.assembled = .ok none := by
  obtain ⟨hlow, hhigh, hmagic, hlength⟩ := encode_front h
  have hpos := List.length_pos_iff.mpr hrest
  rw [Control.assembled]
  by_cases hsix : c.csmBytes.length ≥ 6
  · have htwo : slice c.csmBytes 0 2 = [0x40, 0x40] := by
      rw [← hmagic, hbytes, slice_append_of_le (by omega)]
    have hfield : ofBigEndian (slice c.csmBytes 2 4) = bytes.length := by
      rw [← hlength, hbytes, slice_append_of_le (by omega)]
    have hshort : c.csmBytes.length < bytes.length := by
      rw [hbytes, List.length_append]
      omega
    simp only [htwo, hfield]
    rw [if_pos hsix, if_neg (by simp), if_neg (by simp [hlow, hhigh]), if_neg (by omega)]
  · rw [if_neg hsix]

theorem assembled_complete (h : m.encode = .ok bytes) (hbytes : bytes = c.csmBytes) :
    c.assembled = .ok (some (m, [])) := by
  obtain ⟨hlow, hhigh, hmagic, hlength⟩ := encode_front h
  simp [Control.assembled, ← hbytes, hlow, hhigh, hmagic, hlength, decode_encode h]

theorem message_of_frame (hnone : c.assembled = .ok none) {input rest : List UInt8}
    (hframe : frame input = .done f rest) {next : Control} (haccept : c.accept f = (next, .ok ())) :
    c.message input = next.message rest := by
  rw [Control.message, hnone]
  dsimp only
  split
  · simp_all
  · simp_all
  · rename_i g others hread
    rw [hframe] at hread
    obtain ⟨rfl, rfl⟩ := Read.done.inj hread
    rw [haccept]

theorem message_of_assembled {rest : List UInt8} (h : c.assembled = .ok (some (m, rest)))
    (input : List UInt8) : c.message input = ({ c with csmBytes := rest }, .done m input) := by
  rw [Control.message, h]

/-- A frame that was already taken is passed over. -/
theorem message_repeated (hnone : c.assembled = .ok none) (hdata : Data f)
    (hseq : f.sequence = c.received) (k : ℕ) (rest : List UInt8) :
    c.message ((List.replicate k f.wire).flatten ++ rest) = c.message rest := by
  induction k with
  | zero => rfl
  | succ k ih =>
    have haccept : c.accept f = (c, .ok ()) := by
      simp [Control.accept, hdata.flags, hdata.payload, hdata.session, hseq]
    rw [List.replicate_succ, List.flatten_cons, List.append_assoc,
      message_of_frame hnone (frame_wire hdata _) haccept, ih]

/-- From any point inside a message, the remaining parts complete it; copies of the last frame may
stay unread. -/
theorem message_parts (peer : Control) (h : m.encode = .ok bytes) {limit : ℕ}
    (hlimit : 10 ≤ limit ∧ limit ≤ 65535) (acknowledgement : UInt8) {parts : List (List UInt8)}
    (hne : parts ≠ []) (hparts : ∀ p ∈ parts, p ≠ [] ∧ p.length ≤ limit - 10)
    (copies : ℕ → ℕ) (rest : List UInt8) (hbytes : bytes = peer.csmBytes ++ parts.flatten) :
    ∃ k f, Data f ∧ f.sequence = peer.received + UInt8.ofNat parts.length ∧
      peer.message ((redelivered copies
          ((dataFrames peer.received acknowledgement parts).map Frame.wire)).flatten ++ rest) =
        ({ peer with received := peer.received + UInt8.ofNat parts.length, csmBytes := [] },
          .done m ((List.replicate k f.wire).flatten ++ rest)) := by
  induction parts generalizing peer copies with
  | nil => exact absurd rfl hne
  | cons part parts ih =>
    have hpart := hparts part (by simp)
    have hdata : Data ⟨Iap2.ack, peer.received + 1, acknowledgement, controlSession, part⟩ :=
      data_of_part hlimit hpart
    have hnone : peer.assembled = .ok none :=
      assembled_prefix h hbytes (by simp [hpart.1])
    have hroom : ¬peer.csmBytes.length + part.length > maxMessage := by
      have hmax := (encode_front h).2.1
      rw [hbytes, List.flatten_cons] at hmax
      simp only [List.length_append] at hmax
      omega
    have hfresh : peer.received + 1 ≠ peer.received := by
      intro heq
      grind
    have haccept : peer.accept ⟨Iap2.ack, peer.received + 1, acknowledgement, controlSession, part⟩ =
        ({ peer with received := peer.received + 1, csmBytes := peer.csmBytes ++ part },
          .ok ()) := by
      simp [Control.accept, hpart.1, hfresh, hroom]
    have hassembled : bytes = (peer.csmBytes ++ part) ++ parts.flatten := by simpa using hbytes
    simp only [dataFrames, List.map_cons, redelivered, List.replicate_succ, List.cons_append,
      List.flatten_cons, List.flatten_append, List.append_assoc]
    rw [message_of_frame hnone (frame_wire hdata _) haccept]
    cases hlast : parts with
    | nil =>
      refine ⟨copies 0, _, hdata, rfl, ?_⟩
      rw [message_of_assembled (assembled_complete h (by simpa [hlast] using hassembled))]
      simp [dataFrames, redelivered]
    | cons next others =>
      rw [← hlast]
      have hmore : ({ peer with
          received := peer.received + 1, csmBytes := peer.csmBytes ++ part } : Control).assembled =
          .ok none :=
        assembled_prefix h hassembled (by
          have := (hparts next (by simp [hlast])).1
          simp [hlast, this])
      rw [message_repeated hmore hdata rfl]
      obtain ⟨k, g, hg, hseq, hmessage⟩ := ih
        { peer with received := peer.received + 1, csmBytes := peer.csmBytes ++ part }
        (by simp [hlast]) (fun p hp => hparts p (List.mem_cons_of_mem _ hp))
        (fun i => copies (i + 1)) hassembled
      have hcount : peer.received + 1 + UInt8.ofNat parts.length =
          peer.received + UInt8.ofNat (parts.length + 1) := by
        rw [UInt8.ofNat_add]
        grind
      refine ⟨k, g, hg, by rw [hseq, List.length_cons, ← hcount], ?_⟩
      rw [hmessage, List.length_cons, ← hcount]

/-! ## End to end -/

/-- One call of `send`, at whatever point of its own reading the sender is. -/
def sender (c : Control) (call : UInt8 × Message) :
    Control × Except Error Unit × List (List UInt8) :=
  { c with received := call.1 }.send call.2

/-- The messages of a sending history that were accepted for transmission. -/
def accepted (history : List ((UInt8 × Message) × Except Error Unit × List (List UInt8))) :
    List Message :=
  (history.filter fun entry => entry.2.1 = .ok ()).map (·.1.2)

/-- The frames a sending history wrote. -/
def written (history : List ((UInt8 × Message) × Except Error Unit × List (List UInt8))) :
    List (List UInt8) :=
  history.flatMap (·.2.2)

theorem sender_of_encode (hlimit : 11 ≤ c.maxFrame ∧ c.maxFrame ≤ 65535) {call : UInt8 × Message}
    (h : call.2.encode = .ok bytes) :
    ∃ parts : List (List UInt8), parts ≠ [] ∧ parts.flatten = bytes ∧
      (∀ p ∈ parts, p ≠ [] ∧ p.length ≤ c.maxFrame - 10) ∧
      sender c call = ({ c with sent := c.sent + UInt8.ofNat parts.length, received := call.1 },
        .ok (), (dataFrames c.sent call.1 parts).map Frame.wire) := by
  have hbytes : bytes ≠ [] := List.length_pos_iff.mp (by have := (encode_front h).1; omega)
  have hparts : ∀ p ∈ chunks (c.maxFrame - 10) bytes, p ≠ [] ∧ p.length ≤ c.maxFrame - 10 :=
    fun p hp => bounds_of_mem_chunks hp
  refine ⟨_, chunks_ne_nil (by omega) hbytes, flatten_chunks (by omega) bytes, hparts, ?_⟩
  simp only [sender, Control.send, h]
  exact sendParts_eq { c with received := call.1 } ⟨by dsimp only; omega, hlimit.2⟩ hparts

theorem sender_of_error {call : UInt8 × Message} {e : Error} (h : call.2.encode = .error e) :
    sender c call = ({ c with received := call.1 }, .error e, []) := by
  simp [sender, Control.send, h]

theorem message_nil (h : c.csmBytes = []) : c.message [] = (c, .waiting) := by
  have hnone : c.assembled = .ok none := by simp [Control.assembled, h]
  rw [Control.message, hnone]
  rfl

/-- The receiver's calls follow the sender's, whatever copies of the previous frame come first. -/
theorem messages_of_sends (hlimit : 11 ≤ c.maxFrame ∧ c.maxFrame ≤ 65535)
    (hsync : peer.received = c.sent) (hempty : peer.csmBytes = []) (sends : List (UInt8 × Message))
    (copies : ℕ → ℕ) (hdata : Data f) (hseq : f.sequence = peer.received) (k n : ℕ) :
    peer.messages n ((List.replicate k f.wire).flatten ++
        (redelivered copies (written (run sender c sends).2)).flatten) =
      ((accepted (run sender c sends).2).map (fun m => some (Except.ok m)) ++ [none]).take n := by
  induction sends generalizing c peer copies f k n with
  | nil =>
    cases n with
    | zero => rfl
    | succ n =>
      have hnone : peer.assembled = .ok none := by simp [Control.assembled, hempty]
      have hwait := message_repeated hnone hdata hseq k []
      rw [message_nil hempty] at hwait
      simp only [run_nil, written, accepted, List.flatMap_nil, redelivered, List.flatten_nil,
        Control.messages, hwait]
      simp
  | cons call sends ih =>
    cases hencode : call.2.encode with
    | error e =>
      simpa [run, sender_of_error hencode, written, accepted] using
        ih (c := { c with received := call.1 }) hlimit hsync hempty copies hdata hseq k n
    | ok bytes =>
      obtain ⟨parts, hne, hflat, hparts, hsend⟩ := sender_of_encode hlimit hencode
      cases n with
      | zero => rfl
      | succ n =>
        have hnone : peer.assembled = .ok none := by simp [Control.assembled, hempty]
        have hwritten : (redelivered copies (written (run sender c (call :: sends)).2)).flatten =
            (redelivered copies ((dataFrames peer.received call.1 parts).map Frame.wire)).flatten ++
              (redelivered (fun i => copies
                  (i + ((dataFrames peer.received call.1 parts).map Frame.wire).length))
                (written (run sender (sender c call).1 sends).2)).flatten := by
          simp only [run, written, List.flatMap_cons, redelivered_append, List.flatten_append]
          rw [hsend, hsync]
        have haccepted : accepted (run sender c (call :: sends)).2 =
            call.2 :: accepted (run sender (sender c call).1 sends).2 := by
          simp [run, accepted, hsend]
        obtain ⟨j, g, hg, hgseq, hmessage⟩ := message_parts peer hencode
          ⟨by omega, hlimit.2⟩ call.1 hne hparts copies _ (by rw [hempty, hflat]; rfl)
        rw [hwritten, haccepted, Control.messages, message_repeated hnone hdata hseq, hmessage]
        simp only [List.map_cons, List.cons_append, List.take_succ_cons, List.cons.injEq, true_and]
        rw [hsend]
        exact ih (by exact hlimit) (by simp [hsync]) rfl _ hg hgseq j n

/-- Across any redelivery of the frames, any number of `message` calls returns exactly the accepted
messages in order and then waits. Every message that can be encoded is accepted, and no frame
exceeds the negotiated length. -/
theorem link_delivers (config : Synchronization) (hconfig : config.validate = .ok ())
    (c peer : Control) (hmax : c.maxFrame = config.maxFrame.toNat)
    (hsync : peer.received = c.sent) (hempty : peer.csmBytes = [])
    (sends : List (UInt8 × Message)) (copies : ℕ → ℕ) (n : ℕ) :
    let history := (run sender c sends).2
    peer.messages n (redelivered copies (written history)).flatten =
        ((accepted history).map (fun m => some (Except.ok m)) ++ [none]).take n ∧
      (∀ entry ∈ history, entry.2.1 = entry.1.2.encode.map fun _ => ()) ∧
      (∀ w ∈ written history, w.length ≤ config.maxFrame.toNat) := by
  have hframe := (Synchronization.validate_bounds hconfig).2.2
  have htop : config.maxFrame.toNat < 65536 := config.maxFrame.toNat_lt
  have hlimit : 11 ≤ c.maxFrame ∧ c.maxFrame ≤ 65535 := by omega
  have hdata : Data ⟨Iap2.ack, peer.received, 0, controlSession, [0]⟩ :=
    data_of_part (show 10 ≤ 64 ∧ 64 ≤ 65535 by omega) (by simp)
  refine ⟨by simpa using messages_of_sends hlimit hsync hempty sends copies hdata rfl 0 n, ?_⟩
  rw [← hmax]
  clear hdata hsync hmax
  induction sends generalizing c with
  | nil => simp [written]
  | cons call sends ih =>
    cases hencode : call.2.encode with
    | error e =>
      obtain ⟨hreplies, hlengths⟩ := ih { c with received := call.1 } hlimit
      simp only [run, sender_of_error hencode, written, List.flatMap_cons, List.nil_append]
      refine ⟨List.forall_mem_cons.mpr ⟨by simp [hencode, Except.map], hreplies⟩, hlengths⟩
    | ok bytes =>
      obtain ⟨parts, -, -, hparts, hsend⟩ := sender_of_encode hlimit hencode
      obtain ⟨hreplies, hlengths⟩ := ih (sender c call).1 (by rw [hsend]; exact hlimit)
      have hfits := length_dataFrames c.sent call.1 (by omega) hparts
      refine ⟨List.forall_mem_cons.mpr ⟨by simp [hsend, hencode, Except.map], hreplies⟩, ?_⟩
      intro w hw
      rcases List.mem_append.mp hw with hw | hw
      · rw [hsend] at hw
        exact hfits w hw
      · rw [hsend] at hlengths hw
        exact hlengths w hw

/-- A negotiated record with the smallest frames. -/
def smallFrames : Synchronization :=
  { window := 4, maxFrame := 64, retransmitMs := 0, ackMs := 0, retries := 0, ackCount := 0
    sessions := [⟨10, 0, 2⟩] }

theorem link_delivers_repeated :
    smallFrames.validate = .ok () ∧
      (Control.mk 0 31 65535 []).messages 2 (redelivered (fun _ => 2)
          (written (run sender (Control.mk 31 7 64 []) [(7, ⟨0x1d00, []⟩)]).2)).flatten =
        ((accepted (run sender (Control.mk 31 7 64 []) [(7, ⟨0x1d00, []⟩)]).2).map
          (fun m => some (Except.ok m)) ++ [none]).take 2 :=
  ⟨by decide, (link_delivers smallFrames (by decide) _ _ rfl rfl rfl _ _ 2).1⟩

end ProjectArgo.CarPlay.Wired
