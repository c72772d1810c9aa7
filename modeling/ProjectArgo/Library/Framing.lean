import Mathlib.Data.List.Infix
import Mathlib.Order.Nat
import ProjectArgo.Library.Run

/-!
# Frames out of a stream

A stream is cut into chunks anywhere. What arrived is buffered, and frames are taken off
the front of the buffer while there is a whole one. A frame is read the same whatever
follows it, and nothing is read from a proper part of it; so the cuts do not matter.
-/
namespace Library.Framing

open Run

variable {α β ε : Type*}

/-- Takes the first frame off a buffer. `none` asks for more. -/
structure Parser (α β ε : Type*) where
  next : List α → Except ε (Option (β × List α))
  shorter : ∀ {buffer value rest}, next buffer = .ok (some (value, rest)) →
    rest.length < buffer.length

/-- The stream that a list of frames makes. -/
def wire (items : List (List α × β)) : List α := (items.map Prod.fst).flatten

@[simp] theorem wire_nil : wire ([] : List (List α × β)) = [] := rfl

@[simp] theorem wire_cons (item : List α × β) (items : List (List α × β)) :
    wire (item :: items) = item.1 ++ wire items := rfl

/-- Every chunk finds room in the buffer. -/
def Room (step : List α → List α → List α × Except ε (List β)) (limit : ℕ) (buffer : List α)
    (chunks : List (List α)) : Prop :=
  Along step (fun buffer chunk => buffer.length + chunk.length ≤ limit) buffer chunks

/-- The chunks are accepted, the values returned in order, and nothing is left. -/
def Delivers (step : List α → List α → List α × Except ε (List β)) (buffer : List α)
    (chunks : List (List α)) (values : List β) : Prop :=
  (run step buffer chunks).1 = [] ∧ ∃ pieces : List (List β),
    (run step buffer chunks).2.map (·.2) = pieces.map .ok ∧ pieces.flatten = values

namespace Parser

variable (parser : Parser α β ε)

/-- At most so many frames are taken off. -/
def drainFor : ℕ → List α → Except ε (List β × List α)
  | 0, buffer => .ok ([], buffer)
  | fuel + 1, buffer =>
    match parser.next buffer with
    | .error e => .error e
    | .ok none => .ok ([], buffer)
    | .ok (some (value, rest)) =>
      match drainFor fuel rest with
      | .error e => .error e
      | .ok (values, left) => .ok (value :: values, left)

/-- Frames are taken off while there is a whole one. Each makes the buffer shorter. -/
def drain (buffer : List α) : Except ε (List β × List α) :=
  parser.drainFor (buffer.length + 1) buffer

variable {parser}

theorem drainFor_of_lt {fuel : ℕ} {buffer : List α} (h : buffer.length < fuel) :
    parser.drainFor fuel buffer = parser.drain buffer := by
  suffices hmore : ∀ extra, parser.drainFor (buffer.length + 1 + extra) buffer =
      parser.drain buffer by
    rw [← hmore (fuel - (buffer.length + 1)), Nat.add_sub_cancel' h]
  intro extra
  unfold drain
  generalize hlength : buffer.length = length
  induction length using Nat.strong_induction_on generalizing buffer extra with
  | h length ih =>
    rw [Nat.add_right_comm, drainFor, drainFor]
    rcases hnext : parser.next buffer with e | _ | ⟨value, rest⟩
    · rfl
    · rfl
    · have hless := parser.shorter hnext
      have hrest : rest.length < length := hlength ▸ hless
      have hone := ih rest.length hrest (by omega) (length + extra - (rest.length + 1)) rfl
      have hother := ih rest.length hrest (by omega) (length - (rest.length + 1)) rfl
      rw [Nat.add_sub_cancel' (by omega)] at hone hother
      simp only [hone, hother]

theorem drain_none {buffer : List α} (h : parser.next buffer = .ok none) :
    parser.drain buffer = .ok ([], buffer) := by
  unfold drain drainFor
  rw [h]

theorem drain_some {buffer rest left : List α} {value : β} {values : List β}
    (h : parser.next buffer = .ok (some (value, rest)))
    (hrest : parser.drain rest = .ok (values, left)) :
    parser.drain buffer = .ok (value :: values, left) := by
  unfold drain drainFor
  simp only [h, drainFor_of_lt (parser.shorter h), hrest]

variable (parser)

/-- The frame is read as the value, whatever follows it, and a part of it as nothing yet. -/
structure Frames (frame : List α) (value : β) : Prop where
  whole : ∀ rest, parser.next (frame ++ rest) = .ok (some (value, rest))
  part : ∀ front, front <+: frame → front.length < frame.length → parser.next front = .ok none

variable {parser} {items : List (List α × β)}

theorem Frames.positive {frame : List α} {value : β} (h : parser.Frames frame value) :
    0 < frame.length := by
  have hshorter := parser.shorter (h.whole [])
  rw [List.append_nil, List.length_nil] at hshorter
  exact hshorter

/-- A buffer that holds a part of the first frame, and not all of it. -/
def Pending (buffer : List α) : List (List α × β) → Prop
  | [] => buffer = []
  | item :: _ => buffer <+: item.1 ∧ buffer.length < item.1.length

theorem pending_nil (hitems : ∀ item ∈ items, parser.Frames item.1 item.2) :
    Pending [] items := by
  cases items with
  | nil => rfl
  | cons item items => exact ⟨List.nil_prefix, (hitems item List.mem_cons_self).positive⟩

/-- Any part of the stream is read as the frames that it holds whole. -/
theorem drain_part (hempty : parser.next [] = .ok none)
    (hitems : ∀ item ∈ items, parser.Frames item.1 item.2) {buffer later : List α}
    (h : buffer ++ later = wire items) :
    ∃ whole rest left, items = whole ++ rest ∧
      parser.drain buffer = .ok (whole.map Prod.snd, left) ∧ left ++ later = wire rest ∧
      Pending left rest := by
  induction items generalizing buffer with
  | nil =>
    obtain ⟨rfl, rfl⟩ := List.append_eq_nil_iff.mp h
    exact ⟨[], [], [], rfl, drain_none hempty, rfl, rfl⟩
  | cons item items ih =>
    rw [List.forall_mem_cons] at hitems
    rw [wire_cons] at h
    by_cases hlength : buffer.length < item.1.length
    · have hpart : buffer <+: item.1 :=
        List.prefix_of_prefix_length_le ⟨later, h⟩ (List.prefix_append _ _) hlength.le
      exact ⟨[], item :: items, buffer, rfl, drain_none (hitems.1.part buffer hpart hlength), h,
        hpart, hlength⟩
    · obtain ⟨rest, rfl⟩ : item.1 <+: buffer :=
        List.prefix_of_prefix_length_le ⟨_, rfl⟩ (h ▸ List.prefix_append _ _)
          (Nat.le_of_not_lt hlength)
      rw [List.append_assoc] at h
      obtain ⟨whole, others, left, rfl, hdrain, hleft, hpending⟩ :=
        ih hitems.2 (List.append_cancel_left h)
      exact ⟨item :: whole, others, left, rfl, drain_some (hitems.1.whole rest) hdrain, hleft,
        hpending⟩

/-! ## Bounded buffers -/

variable (parser) (limit : ℕ) (full : ε)

/-- A chunk is buffered if there is room, and the buffer drained. An error empties it. -/
def receive (buffer chunk : List α) : List α × Except ε (List β) :=
  if buffer.length + chunk.length > limit then ([], .error full)
  else
    match parser.drain (buffer ++ chunk) with
    | .error e => ([], .error e)
    | .ok (values, left) => (left, .ok values)

variable {parser limit full}

/-- However the stream is cut, as long as the chunks find room, the values of the frames are
delivered. -/
theorem receive_cut (hempty : parser.next [] = .ok none)
    (hitems : ∀ item ∈ items, parser.Frames item.1 item.2) {buffer : List α}
    {chunks : List (List α)} (hbuffer : Pending buffer items)
    (h : buffer ++ chunks.flatten = wire items)
    (hroom : Room (parser.receive limit full) limit buffer chunks) :
    Delivers (parser.receive limit full) buffer chunks (items.map Prod.snd) := by
  induction chunks generalizing buffer items with
  | nil =>
    rw [List.flatten_nil, List.append_nil] at h
    subst h
    cases items with
    | nil => exact ⟨rfl, [], rfl, rfl⟩
    | cons item items =>
      have hlength := hbuffer.2
      rw [wire_cons, List.length_append] at hlength
      omega
  | cons chunk chunks ih =>
    rw [List.flatten_cons, ← List.append_assoc] at h
    obtain ⟨whole, rest, left, rfl, hdrain, hleft, hpending⟩ := drain_part hempty hitems h
    have hreceive : parser.receive limit full buffer chunk = (left, .ok (whole.map Prod.snd)) := by
      unfold receive
      rw [if_neg (Nat.not_lt_of_le hroom.1), hdrain]
    have hlater := hroom.2
    rw [hreceive] at hlater
    obtain ⟨hend, pieces, hpieces, hvalues⟩ := ih
      (fun item hitem => hitems item (List.mem_append_right _ hitem)) hpending hleft hlater
    unfold Delivers
    simp only [run, hreceive]
    refine ⟨hend, whole.map Prod.snd :: pieces, ?_, ?_⟩
    · rw [List.map_cons, List.map_cons, hpieces]
    · rw [List.flatten_cons, hvalues, List.map_append]

/-- Chunks find room next to a part of any frame. -/
theorem room_of_short (hempty : parser.next [] = .ok none)
    (hitems : ∀ item ∈ items, parser.Frames item.1 item.2) {longest : ℕ}
    (hlongest : ∀ item ∈ items, item.1.length ≤ longest) {buffer : List α}
    {chunks : List (List α)} (hbuffer : Pending buffer items)
    (h : buffer ++ chunks.flatten = wire items)
    (hchunks : ∀ chunk ∈ chunks, longest + chunk.length ≤ limit) :
    Room (parser.receive limit full) limit buffer chunks := by
  induction chunks generalizing buffer items with
  | nil => exact trivial
  | cons chunk chunks ih =>
    rw [List.forall_mem_cons] at hchunks
    have hshort : buffer.length ≤ longest := by
      cases items with
      | nil =>
        rw [show buffer = [] from hbuffer]
        exact Nat.zero_le _
      | cons item items => exact hbuffer.2.le.trans (hlongest item List.mem_cons_self)
    rw [List.flatten_cons, ← List.append_assoc] at h
    obtain ⟨whole, rest, left, rfl, hdrain, hleft, hpending⟩ := drain_part hempty hitems h
    have hreceive : parser.receive limit full buffer chunk = (left, .ok (whole.map Prod.snd)) := by
      unfold receive
      rw [if_neg (by omega), hdrain]
    refine ⟨by omega, ?_⟩
    rw [hreceive]
    exact ih (fun item hitem => hitems item (List.mem_append_right _ hitem))
      (fun item hitem => hlongest item (List.mem_append_right _ hitem)) hpending hleft hchunks.2

/-! ## Reading up to the first error -/

variable (parser)

/-- The values taken off a buffer until the parser asks for more or fails. -/
def takeAll (buffer : List α) : List β × Except ε (List α) :=
  match _h : parser.next buffer with
  | .error e => ([], .error e)
  | .ok none => ([], .ok buffer)
  | .ok (some (value, rest)) => (value :: (takeAll rest).1, (takeAll rest).2)
termination_by buffer.length
decreasing_by all_goals exact parser.shorter _h

variable {parser}

theorem takeAll_error {buffer : List α} {e : ε} (h : parser.next buffer = .error e) :
    parser.takeAll buffer = ([], .error e) := by
  rw [takeAll]
  split <;> simp_all

theorem takeAll_none {buffer : List α} (h : parser.next buffer = .ok none) :
    parser.takeAll buffer = ([], .ok buffer) := by
  rw [takeAll]
  split <;> simp_all

theorem takeAll_some {buffer rest : List α} {value : β}
    (h : parser.next buffer = .ok (some (value, rest))) :
    parser.takeAll buffer = (value :: (parser.takeAll rest).1, (parser.takeAll rest).2) := by
  rw [takeAll]
  split <;> simp_all

/-- What is left is a buffer that asks for more. -/
theorem next_of_takeAll {buffer left : List α} {values : List β}
    (h : parser.takeAll buffer = (values, .ok left)) : parser.next left = .ok none := by
  induction hlength : buffer.length using Nat.strong_induction_on generalizing buffer values with
  | h length ih =>
    rcases hnext : parser.next buffer with e | _ | ⟨value, rest⟩
    · rw [takeAll_error hnext] at h
      cases h
    · rw [takeAll_none hnext] at h
      obtain rfl := Except.ok.inj (Prod.mk.inj h).2
      exact hnext
    · rw [takeAll_some hnext] at h
      exact ih _ (hlength ▸ parser.shorter hnext) (Prod.ext rfl (Prod.mk.inj h).2) rfl

theorem takeAll_of_drain {buffer left : List α} {values : List β}
    (h : parser.drain buffer = .ok (values, left)) :
    parser.takeAll buffer = (values, .ok left) := by
  have hfuel : buffer.length < buffer.length + 1 := Nat.lt_succ_self _
  unfold drain at h
  generalize buffer.length + 1 = fuel at h hfuel
  induction fuel generalizing buffer values with
  | zero => omega
  | succ fuel ih =>
    rw [drainFor] at h
    rcases hnext : parser.next buffer with e | _ | ⟨value, rest⟩
    · rw [hnext] at h
      cases h
    · rw [hnext] at h
      cases h
      exact takeAll_none hnext
    · rw [hnext] at h
      dsimp only at h
      split at h
      · cases h
      · rename_i later left' hlater
        cases h
        have hless := parser.shorter hnext
        rw [takeAll_some hnext, ih hlater (by omega)]

variable (parser)

/-- What is taken off or fails does so whatever follows it. -/
structure Stable : Prop where
  value : ∀ {buffer value rest}, parser.next buffer = .ok (some (value, rest)) →
    ∀ more, parser.next (buffer ++ more) = .ok (some (value, rest ++ more))
  error : ∀ {buffer e}, parser.next buffer = .error e →
    ∀ more, parser.next (buffer ++ more) = .error e

/-- A chunk is buffered if there is room. -/
def within (limit : ℕ) (full : ε) (buffer chunk : List α) : Except ε (List α) :=
  if buffer.length + chunk.length > limit then .error full else .ok (buffer ++ chunk)

theorem within_of_le {limit : ℕ} {buffer chunk : List α} (full : ε)
    (h : buffer.length + chunk.length ≤ limit) :
    within limit full buffer chunk = .ok (buffer ++ chunk) := if_neg (Nat.not_lt_of_le h)

theorem within_of_lt {limit : ℕ} {buffer chunk : List α} (full : ε)
    (h : limit < buffer.length + chunk.length) :
    within limit full buffer chunk = .error full := if_pos h

/-- Each chunk is pushed once nothing more can be taken off; the first error ends it. -/
def readAll (push : List α → List α → Except ε (List α)) :
    List α → List (List α) → List β × Except ε (List α)
  | buffer, [] => parser.takeAll buffer
  | buffer, chunk :: chunks =>
    match parser.takeAll buffer with
    | (values, .error e) => (values, .error e)
    | (values, .ok left) =>
      match push left chunk with
      | .error e => (values, .error e)
      | .ok buffer =>
        let later := readAll push buffer chunks
        (values ++ later.1, later.2)

/-- Every chunk up to the first error finds room. -/
def Fits (limit : ℕ) : List α → List (List α) → Prop
  | _, [] => True
  | buffer, chunk :: chunks =>
    ∀ values left, parser.takeAll buffer = (values, .ok left) →
      left.length + chunk.length ≤ limit ∧ Fits limit (left ++ chunk) chunks

variable {parser}

theorem takeAll_append (hstable : parser.Stable) (buffer more : List α) :
    (∀ values e, parser.takeAll buffer = (values, .error e) →
      parser.takeAll (buffer ++ more) = (values, .error e)) ∧
    ∀ values left, parser.takeAll buffer = (values, .ok left) →
      parser.takeAll (buffer ++ more) =
        (values ++ (parser.takeAll (left ++ more)).1, (parser.takeAll (left ++ more)).2) := by
  induction hlength : buffer.length using Nat.strong_induction_on generalizing buffer with
  | h length ih =>
    rcases hnext : parser.next buffer with e | _ | ⟨value, rest⟩
    · rw [takeAll_error hnext, takeAll_error (hstable.error hnext more)]
      constructor
      · intro values e' h
        exact h
      · rintro values left ⟨⟩
    · rw [takeAll_none hnext]
      constructor
      · rintro values e ⟨⟩
      · rintro values left ⟨⟩
        rfl
    · obtain ⟨herror, hok⟩ := ih _ (hlength ▸ parser.shorter hnext) rest rfl
      rw [takeAll_some hnext, takeAll_some (hstable.value hnext more)]
      constructor
      · intro values e h
        obtain ⟨rfl, he⟩ := Prod.mk.inj h
        rw [herror _ e (Prod.ext rfl he)]
      · intro values left h
        obtain ⟨rfl, hleft⟩ := Prod.mk.inj h
        rw [hok _ left (Prod.ext rfl hleft)]
        rfl

/-- As long as the chunks find room, only their concatenation matters. -/
theorem readAll_eq (hstable : parser.Stable) {buffer : List α} {chunks : List (List α)}
    (hfits : parser.Fits limit buffer chunks) :
    parser.readAll (within limit full) buffer chunks =
      parser.takeAll (buffer ++ chunks.flatten) := by
  induction chunks generalizing buffer with
  | nil => rw [List.flatten_nil, List.append_nil, readAll]
  | cons chunk chunks ih =>
    obtain ⟨herror, hok⟩ := takeAll_append hstable buffer (chunk :: chunks).flatten
    rw [readAll]
    rcases htake : parser.takeAll buffer with ⟨values, e | left⟩
    · exact (herror values e htake).symm
    · obtain ⟨hroom, hlater⟩ := hfits values left htake
      dsimp only
      rw [within_of_le full hroom]
      dsimp only
      rw [ih hlater, hok values left htake, List.flatten_cons, List.append_assoc]

/-- Other chunks end in an overflow, after the first of the same values. -/
theorem readAll_cases (hstable : parser.Stable) (buffer : List α) (chunks : List (List α)) :
    parser.readAll (within limit full) buffer chunks = parser.takeAll (buffer ++ chunks.flatten) ∨
      ∃ values, parser.readAll (within limit full) buffer chunks = (values, .error full) ∧
        values <+: (parser.takeAll (buffer ++ chunks.flatten)).1 := by
  induction chunks generalizing buffer with
  | nil =>
    left
    rw [List.flatten_nil, List.append_nil, readAll]
  | cons chunk chunks ih =>
    obtain ⟨herror, hok⟩ := takeAll_append hstable buffer (chunk :: chunks).flatten
    rw [readAll]
    rcases htake : parser.takeAll buffer with ⟨values, e | left⟩
    · exact .inl (herror values e htake).symm
    · rw [hok values left htake]
      dsimp only
      by_cases hroom : left.length + chunk.length ≤ limit
      · rw [within_of_le full hroom, List.flatten_cons, ← List.append_assoc left chunk]
        dsimp only
        obtain h | ⟨later, h, hprefix⟩ := ih (left ++ chunk)
        · rw [h]
          exact .inl rfl
        · rw [h]
          exact .inr ⟨values ++ later, rfl, (List.prefix_append_right_inj values).mpr hprefix⟩
      · rw [within_of_lt full (Nat.lt_of_not_le hroom)]
        exact .inr ⟨values, rfl, List.prefix_append _ _⟩

/-- A chunk without room after chunks that found it. -/
theorem readAll_overflow (hstable : parser.Stable) {buffer left chunk : List α}
    {chunks later : List (List α)} {values : List β} (hfits : parser.Fits limit buffer chunks)
    (htake : parser.takeAll (buffer ++ chunks.flatten) = (values, .ok left))
    (hchunk : left.length + chunk.length > limit) :
    parser.readAll (within limit full) buffer (chunks ++ chunk :: later) =
      (values, .error full) := by
  induction chunks generalizing buffer values with
  | nil =>
    rw [List.flatten_nil, List.append_nil] at htake
    rw [List.nil_append, readAll, htake]
    dsimp only
    rw [within_of_lt full hchunk]
  | cons first chunks ih =>
    obtain ⟨herror, hok⟩ := takeAll_append hstable buffer (first :: chunks).flatten
    rw [List.cons_append, readAll]
    rcases hfirst : parser.takeAll buffer with ⟨values', e | kept⟩
    · rw [herror values' e hfirst] at htake
      cases htake
    · obtain ⟨hroom, hlater⟩ := hfits values' kept hfirst
      rw [hok values' kept hfirst] at htake
      obtain ⟨rfl, hleft⟩ := Prod.mk.inj htake
      rw [List.flatten_cons, ← List.append_assoc] at hleft ⊢
      dsimp only
      rw [within_of_le full hroom]
      dsimp only
      rw [ih hlater (Prod.ext rfl hleft)]

/-- Short chunks find room next to any buffer that asks for more. -/
theorem fits_of_none {longest : ℕ}
    (h : ∀ left, parser.next left = .ok none → left.length + longest ≤ limit) {buffer : List α}
    {chunks : List (List α)} (hchunks : ∀ chunk ∈ chunks, chunk.length ≤ longest) :
    parser.Fits limit buffer chunks := by
  induction chunks generalizing buffer with
  | nil => trivial
  | cons chunk chunks ih =>
    rw [List.forall_mem_cons] at hchunks
    intro values left htake
    have hroom := h left (next_of_takeAll htake)
    exact ⟨by omega, ih hchunks.2⟩

/-- Short chunks of short frames find room. -/
theorem fits_of_frames (hempty : parser.next [] = .ok none)
    (hitems : ∀ item ∈ items, parser.Frames item.1 item.2) {longest size : ℕ}
    (hlongest : ∀ item ∈ items, item.1.length ≤ longest + 1) (hlimit : longest + size ≤ limit)
    {buffer : List α} {chunks : List (List α)} (h : buffer ++ chunks.flatten = wire items)
    (hchunks : ∀ chunk ∈ chunks, chunk.length ≤ size) : parser.Fits limit buffer chunks := by
  induction chunks generalizing buffer items with
  | nil => trivial
  | cons chunk chunks ih =>
    rw [List.forall_mem_cons] at hchunks
    intro values left htake
    obtain ⟨whole, rest, left', rfl, hdrain, hleft, hpending⟩ := drain_part hempty hitems h
    rw [takeAll_of_drain hdrain] at htake
    obtain rfl := Except.ok.inj (Prod.mk.inj htake).2
    have hshort : left'.length ≤ longest := by
      cases rest with
      | nil =>
        rw [show left' = [] from hpending]
        exact Nat.zero_le _
      | cons item rest =>
        have hitem := hlongest item (List.mem_append_right _ List.mem_cons_self)
        have hpart := hpending.2
        omega
    refine ⟨by omega, ih (fun item hitem => hitems item (List.mem_append_right _ hitem))
      (fun item hitem => hlongest item (List.mem_append_right _ hitem)) ?_ hchunks.2⟩
    rw [List.append_assoc, ← List.flatten_cons]
    exact hleft

theorem takeAll_wire (hempty : parser.next [] = .ok none)
    (hitems : ∀ item ∈ items, parser.Frames item.1 item.2) :
    parser.takeAll (wire items) = (items.map Prod.snd, .ok []) := by
  obtain ⟨whole, rest, left, rfl, hdrain, hleft, hpending⟩ :=
    drain_part hempty hitems (List.append_nil _)
  rw [takeAll_of_drain hdrain]
  rw [List.append_nil] at hleft
  cases rest with
  | nil =>
    rw [show left = [] from hpending, List.append_nil]
  | cons item rest =>
    have hlength := hpending.2
    rw [hleft, wire_cons, List.length_append] at hlength
    omega

end Parser

end Library.Framing
