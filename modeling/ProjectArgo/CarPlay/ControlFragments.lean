import ProjectArgo.Library.Ends
import ProjectArgo.CarPlay.ControlDecoder
import ProjectArgo.Library.Framing

/-!
# Control requests out of reads

The receiver pushes a read once the decoder has no further request. A read that finds room
next to what is pending changes nothing but when a request is returned; the bound on pending
bytes leaves no room for a long read behind a request of the greatest size.
-/
namespace ProjectArgo.CarPlay.ControlDecoder

open Library.Bytes Library.Framing
open Library.Ends (bind_eq_ok)

/-- The parts of a parsed request. -/
theorem parse_some {pending : List UInt8} {request : Request} {last : ℕ}
    (h : parse pending = .ok (some (request, last))) :
    ∃ split front length, headerEnd pending = some split ∧ split + 4 ≤ maxHeaders ∧
      head (pending.take split) = .ok (front, length) ∧ last = split + 4 + length ∧
      last ≤ pending.length ∧ request = { front with body := slice pending (split + 4) last } := by
  unfold parse at h
  cases hend : headerEnd pending with
  | none =>
    rw [hend] at h
    dsimp only at h
    split_ifs at h
    cases h
  | some split =>
    rw [hend] at h
    dsimp only at h
    split_ifs at h with hlong
    cases hhead : head (pending.take split) with
    | error e =>
      rw [hhead] at h
      cases h
    | ok found =>
      obtain ⟨front, length⟩ := found
      rw [hhead] at h
      dsimp only at h
      split_ifs at h with hshort
      · cases h
      · cases h
        exact ⟨split, front, length, rfl, by omega, hhead, rfl, by omega, rfl⟩

theorem parse_of_parts {pending : List UInt8} {split length : ℕ} {front : Request}
    (hend : headerEnd pending = some split) (hlong : split + 4 ≤ maxHeaders)
    (hhead : head (pending.take split) = .ok (front, length))
    (hlast : split + 4 + length ≤ pending.length) :
    parse pending = .ok (some ({ front with
      body := slice pending (split + 4) (split + 4 + length) }, split + 4 + length)) := by
  unfold parse
  rw [hend]
  dsimp only
  rw [if_neg (Nat.not_lt_of_le hlong), hhead]
  dsimp only
  rw [if_neg (Nat.not_lt_of_le hlast)]

theorem length_of_head {bytes : List UInt8} {front : Request} {length : ℕ}
    (h : head bytes = .ok (front, length)) : length ≤ maxBody := by
  unfold head at h
  obtain ⟨-, -, h⟩ := bind_eq_ok.mp h
  obtain ⟨⟨first, second, third⟩, -, h⟩ := bind_eq_ok.mp h
  obtain ⟨-, -, h⟩ := bind_eq_ok.mp h
  obtain ⟨headers, -, h⟩ := bind_eq_ok.mp h
  obtain ⟨length', hlength, h⟩ := bind_eq_ok.mp h
  obtain ⟨-, rfl⟩ := Prod.mk.inj (Except.ok.inj h)
  unfold contentLength at hlength
  obtain ⟨-, -, hlength⟩ := bind_eq_ok.mp hlength
  split at hlength
  · obtain ⟨announced, -, hlength⟩ := bind_eq_ok.mp hlength
    obtain ⟨_, hbound, hlength⟩ := bind_eq_ok.mp hlength
    obtain rfl := Except.ok.inj hlength
    exact ensure_eq_ok.mp hbound
  · obtain ⟨-, -, hlength⟩ := bind_eq_ok.mp hlength
    obtain ⟨-, -, hlength⟩ := bind_eq_ok.mp hlength
    obtain ⟨announced, -, hlength⟩ := bind_eq_ok.mp hlength
    obtain ⟨_, hbound, hlength⟩ := bind_eq_ok.mp hlength
    obtain rfl := Except.ok.inj hlength
    exact ensure_eq_ok.mp hbound

/-- What is pending without a whole request is below the bound. -/
theorem length_of_parse_none {pending : List UInt8} (h : parse pending = .ok none) :
    pending.length < maxHeaders + maxBody := by
  have hbody : 0 < maxBody := by decide
  unfold parse at h
  cases hend : headerEnd pending with
  | none =>
    rw [hend] at h
    dsimp only at h
    split_ifs at h with hlong
    omega
  | some split =>
    rw [hend] at h
    dsimp only at h
    split_ifs at h with hlong
    cases hhead : head (pending.take split) with
    | error e =>
      rw [hhead] at h
      cases h
    | ok found =>
      obtain ⟨front, length⟩ := found
      have hlength := length_of_head hhead
      rw [hhead] at h
      dsimp only at h
      split_ifs at h with hshort
      · omega
      · cases h

theorem parse_append {pending : List UInt8} {request : Request} {last : ℕ}
    (h : parse pending = .ok (some (request, last))) (more : List UInt8) :
    parse (pending ++ more) = .ok (some (request, last)) := by
  obtain ⟨split, front, length, hend, hlong, hhead, rfl, hlast, rfl⟩ := parse_some h
  have hhead' : head ((pending ++ more).take split) = .ok (front, length) := by
    rw [List.take_append_of_le_length (by omega)]
    exact hhead
  have hroom : split + 4 + length ≤ (pending ++ more).length := by
    rw [List.length_append]
    omega
  rw [parse_of_parts (headerEnd_append hend more).1 hlong hhead' hroom,
    slice_append_of_le hlast]

/-- An empty line that more bytes complete ends in these. -/
theorem headerEnd_late {pending more : List UInt8} {split : ℕ} (h : headerEnd pending = none)
    (hsplit : headerEnd (pending ++ more) = some split) : pending.length < split + 4 := by
  induction pending generalizing split with
  | nil => exact Nat.succ_pos _
  | cons b pending ih =>
    rw [headerEnd] at h
    rw [List.cons_append, headerEnd] at hsplit
    split_ifs at h with hend
    split_ifs at hsplit with hend'
    · by_contra hlong
      rw [← List.cons_append, List.take_append_of_le_length (by omega)] at hend'
      exact hend hend'
    · obtain ⟨split', hsplit', rfl⟩ := Option.map_eq_some_iff.mp hsplit
      have hless := ih (Option.map_eq_none_iff.mp h) hsplit'
      rw [List.length_cons]
      omega

theorem parse_append_error {pending : List UInt8} {e : Error} (h : parse pending = .error e)
    (more : List UInt8) : parse (pending ++ more) = .error e := by
  unfold parse at h ⊢
  cases hend : headerEnd pending with
  | none =>
    rw [hend] at h
    dsimp only at h
    split_ifs at h with hlong
    cases hend' : headerEnd (pending ++ more) with
    | none =>
      dsimp only
      rw [if_pos (by rw [List.length_append]; omega)]
      exact h
    | some split =>
      have hlate := headerEnd_late hend hend'
      dsimp only
      rw [if_pos (by omega)]
      exact h
  | some split =>
    obtain ⟨hend', hle⟩ := headerEnd_append hend more
    rw [hend'] at *
    rw [hend] at h
    dsimp only at h ⊢
    split_ifs at h ⊢ with hlong
    · exact h
    · rw [List.take_append_of_le_length (by omega)]
      cases hhead : head (pending.take split) with
      | error e' =>
        rw [hhead] at h
        exact h
      | ok found =>
        rw [hhead] at h
        dsimp only at h
        split_ifs at h

/-! ## The receiver's loop -/

theorem nextRequest_shorter {pending rest : List UInt8} {request : Request}
    (h : nextRequest pending = .ok (some (request, rest))) : rest.length < pending.length := by
  unfold nextRequest at h
  split at h
  · cases h
  · cases h
  · rename_i request' last hparse
    cases h
    obtain ⟨split, front, length, -, -, -, rfl, hlast, -⟩ := parse_some hparse
    rw [List.length_drop]
    omega

/-- The decoder as a parser of requests. -/
def parser : Parser UInt8 Request Error := ⟨nextRequest, nextRequest_shorter⟩

/-- The requests that the receiver returns up to its first error, and what then is pending. -/
def receiveAll (pending : List UInt8) (reads : List (List UInt8)) :
    List Request × Except Error (List UInt8) :=
  parser.readAll push pending reads

theorem push_eq : push = Parser.within (maxHeaders + maxBody) .bounds := rfl

theorem stable : parser.Stable where
  value := by
    intro pending request rest h more
    change nextRequest pending = _ at h
    change nextRequest (pending ++ more) = _
    unfold nextRequest at h ⊢
    split at h
    · cases h
    · cases h
    · rename_i request' last hparse
      cases h
      obtain ⟨split, front, length, -, -, -, -, hlast, -⟩ := parse_some hparse
      rw [parse_append hparse more]
      dsimp only
      rw [List.drop_append_of_le_length hlast]
  error := by
    intro pending e h more
    change nextRequest pending = _ at h
    change nextRequest (pending ++ more) = _
    unfold nextRequest at h ⊢
    split at h
    · rename_i e' hparse
      cases h
      rw [parse_append_error hparse more]
    · cases h
    · cases h

/-! ## Well-formed requests -/

/-- A text without an empty line, an empty line, and the body that the text announces. -/
structure WellFormed (frame : List UInt8) (request : Request) : Prop where
  parts : ∃ (text body : List UInt8) (front : Request), frame = text ++ ([13, 10, 13, 10] ++ body) ∧
    headerEnd (text ++ [13, 10, 13, 10]) = some text.length ∧ text.length + 4 ≤ maxHeaders ∧
    head text = .ok (front, body.length) ∧ request = { front with body := body }

/-- The length of a frame, by the lengths of its parts. -/
theorem length_parts (text body : List UInt8) :
    (text ++ ([13, 10, 13, 10] ++ body)).length = text.length + 4 + body.length := by
  simp only [List.length_append, List.length_cons, List.length_nil]
  omega

theorem WellFormed.parse {frame : List UInt8} {request : Request} (h : WellFormed frame request) :
    ControlDecoder.parse frame = .ok (some (request, frame.length)) := by
  obtain ⟨text, body, front, rfl, hend, hlong, hhead, rfl⟩ := h.parts
  have hend' : headerEnd (text ++ ([13, 10, 13, 10] ++ body)) = some text.length := by
    rw [← List.append_assoc]
    exact (headerEnd_append hend body).1
  have hlength := length_parts text body
  rw [parse_of_parts hend' hlong (by rw [List.take_left]; exact hhead) hlength.ge, hlength]
  have hslice : slice (text ++ ([13, 10, 13, 10] ++ body)) (text.length + 4)
      (text.length + 4 + body.length) = body := by
    rw [Nat.add_assoc, slice_append_right]
    simp [slice]
  rw [hslice]

theorem WellFormed.frames {frame : List UInt8} {request : Request} (h : WellFormed frame request) :
    parser.Frames frame request where
  whole := by
    intro rest
    change nextRequest (frame ++ rest) = _
    unfold nextRequest
    rw [parse_append h.parse rest]
    dsimp only
    rw [List.drop_left]
  part := by
    rintro front ⟨later, rfl⟩ hless
    change nextRequest front = _
    unfold nextRequest
    cases hparse : ControlDecoder.parse front with
    | error e =>
      have herror := parse_append_error hparse later
      rw [h.parse] at herror
      cases herror
    | ok found =>
      cases found with
      | none => rfl
      | some found =>
        obtain ⟨request', last⟩ := found
        obtain ⟨-, -, -, -, -, -, -, hlast, -⟩ := parse_some hparse
        have hwhole := parse_append hparse later
        rw [h.parse] at hwhole
        have hlength := (Prod.mk.inj (Option.some.inj (Except.ok.inj hwhole))).2
        omega

theorem next_nil : parser.next [] = .ok none := rfl

theorem room_of_next_none {pending : List UInt8} (h : parser.next pending = .ok none) :
    pending.length + 1 ≤ maxHeaders + maxBody := by
  change nextRequest pending = _ at h
  unfold nextRequest at h
  split at h
  · cases h
  · rename_i hparse
    exact length_of_parse_none hparse
  · cases h

/-- Every read up to the first error finds room next to what is pending. -/
abbrev FindRoom (reads : List (List UInt8)) : Prop :=
  parser.Fits (maxHeaders + maxBody) [] reads

/-- The reads of a plain channel. -/
theorem findRoom_bytes {reads : List (List UInt8)} (h : ∀ bytes ∈ reads, bytes.length ≤ 1) :
    FindRoom reads := Parser.fits_of_none (fun _ hnext => room_of_next_none hnext) h

/-- The reads of an encrypted channel, as long as no request is of the greatest size. -/
theorem findRoom_frames {items : List (List UInt8 × Request)} {reads : List (List UInt8)}
    (hitems : ∀ item ∈ items, WellFormed item.1 item.2)
    (hshort : ∀ item ∈ items, item.1.length ≤ maxBody + 1) (h : reads.flatten = wire items)
    (hreads : ∀ bytes ∈ reads, bytes.length ≤ 16384) : FindRoom reads :=
  Parser.fits_of_frames next_nil (fun item hitem => (hitems item hitem).frames) hshort
    (by decide) h hreads

theorem flatten_bytes (bytes : List UInt8) : (bytes.map ([·])).flatten = bytes := by
  induction bytes with
  | nil => rfl
  | cons b bytes ih => rw [List.map_cons, List.flatten_cons, ih, List.singleton_append]

theorem length_of_bytes (bytes : List UInt8) : ∀ read ∈ bytes.map ([·]), read.length ≤ 1 := by
  intro read hread
  obtain ⟨b, -, rfl⟩ := List.mem_map.mp hread
  rfl

theorem receiveAll_of_room {reads : List (List UInt8)} (h : FindRoom reads) :
    receiveAll [] reads = parser.takeAll reads.flatten := by
  rw [receiveAll, push_eq, Parser.readAll_eq stable h, List.nil_append]

theorem receiveAll_wire {items : List (List UInt8 × Request)} {reads : List (List UInt8)}
    (hitems : ∀ item ∈ items, WellFormed item.1 item.2) (h : reads.flatten = wire items)
    (hroom : FindRoom reads) : receiveAll [] reads = (items.map Prod.snd, .ok []) := by
  rw [receiveAll_of_room hroom, h]
  exact Parser.takeAll_wire next_nil fun item hitem => (hitems item hitem).frames

def shortFrame : List UInt8 := utf8 "GET / RTSP/1.0" ++ [13, 10, 13, 10]

theorem shortFrame_wellFormed :
    ∃ request, WellFormed shortFrame request ∧ request.target = "/" := by
  refine ⟨⟨"GET", "/", "RTSP/1.0", ∅, []⟩, ⟨_, [], ⟨"GET", "/", "RTSP/1.0", ∅, []⟩, rfl, ?_, ?_,
    ?_, rfl⟩, rfl⟩
  · decide +kernel
  · decide
  · rfl

def longText : List UInt8 := utf8 "GET / RTSP/1.0\r\nContent-Length: 1048576"

def longFrame : List UInt8 := longText ++ ([13, 10, 13, 10] ++ List.replicate maxBody 0)

/-- A frame twice, in reads of one byte each. -/
def byteReads (frame : List UInt8) : List (List UInt8) := (frame ++ frame).map ([·])

/-- The same, but for one full read that ends the first frame and starts the second. -/
def fullRead (frame : List UInt8) : List (List UInt8) :=
  frame.dropLast.map ([·]) ++
    (((frame ++ frame).drop frame.dropLast.length).take 16384 ::
      (((frame ++ frame).drop frame.dropLast.length).drop 16384).map ([·]))

theorem length_longFrame : longFrame.length = 43 + maxBody := by
  have htext : longText.length + 4 = 43 := by decide
  rw [longFrame, length_parts, htext, List.length_replicate]

theorem flatten_fullRead (frame : List UInt8) : (fullRead frame).flatten = frame ++ frame := by
  unfold fullRead
  rw [List.flatten_append, List.flatten_cons, flatten_bytes, flatten_bytes,
    List.take_append_drop, List.drop_append_of_le_length (by simp), ← List.append_assoc]
  congr 1
  rw [List.dropLast_eq_take, List.length_take, Nat.min_eq_left (Nat.sub_le _ _),
    List.take_append_drop]

theorem longFrame_wellFormed : ∃ request, WellFormed longFrame request := by
  have hlength : (head longText).toOption.map Prod.snd = some maxBody := by decide +kernel
  cases hhead : head longText with
  | error e =>
    rw [hhead] at hlength
    cases hlength
  | ok found =>
    obtain ⟨front, length⟩ := found
    rw [hhead] at hlength
    obtain rfl : length = maxBody := Option.some.inj hlength
    refine ⟨_, ⟨longText, List.replicate maxBody 0, front, rfl, by decide +kernel, by decide, ?_,
      rfl⟩⟩
    rw [List.length_replicate]
    exact hhead

end ProjectArgo.CarPlay.ControlDecoder
