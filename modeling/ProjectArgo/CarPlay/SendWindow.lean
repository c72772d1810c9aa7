import Mathlib.Data.List.Iterate
import ProjectArgo.Library.Run
import ProjectArgo.CarPlay.Iap2

/-!
# The iAP2 outstanding-send window

Frames are numbered modulo 256 and stay pending until a cumulative
acknowledgement releases them. A ledger beside the window gives every frame
that was ever sent its own index and counts how often it was handed out again,
which the eight-bit sequence number alone cannot express.
-/
namespace ProjectArgo.CarPlay

open Library.Run
open Iap2 (Frame Synchronization header)

structure Pending where
  frame : Frame
  deadline : ℕ
  retries : UInt8
  deriving DecidableEq

/-- Bounded outstanding-send window, using cumulative acknowledgements. -/
structure SendWindow where
  next : UInt8
  lastAck : UInt8
  capacity : ℕ
  maxPayload : ℕ
  interval : ℕ
  retryLimit : UInt8
  pending : List Pending
  deriving DecidableEq

namespace SendWindow

def new (initialSequence : UInt8) (config : Synchronization) : Except Error SendWindow :=
  match config.validate with
  | .error e => .error e
  | .ok () =>
    if config.retransmitMs = 0 then .error .unsupported
    else
      .ok
        { next := initialSequence
          lastAck := initialSequence - 1
          capacity := config.window.toNat
          maxPayload := config.maxFrame.toNat - 10
          interval := config.retransmitMs.toNat * 1000000
          retryLimit := config.retries
          pending := [] }

def send (w : SendWindow) (session acknowledgement : UInt8) (payload : List UInt8) (now : ℕ) :
    SendWindow × Except Error Frame :=
  if w.pending.length ≥ w.capacity ∨ payload = [] ∨ payload.length > w.maxPayload then
    (w, .error .bounds)
  else
    let frame : Frame := ⟨Iap2.ack, w.next, acknowledgement, session, payload⟩
    ({ w with
        next := w.next + 1
        pending := w.pending ++ [⟨frame, saturatingAdd now w.interval, 0⟩] }, .ok frame)

def acknowledge (w : SendWindow) (ack : UInt8) : SendWindow × Except Error Unit :=
  if ack = w.lastAck then (w, .ok ())
  else
    let distance := (ack - w.lastAck).toNat
    if distance > w.pending.length then
      -- An old cumulative acknowledgement is harmless; a future one must not release data.
      if distance ≥ 128 then (w, .ok ()) else (w, .error .sequence)
    else ({ w with pending := w.pending.drop distance, lastAck := ack }, .ok ())

/-- The loop body of `retransmit`: a due frame is charged one retry and gets a new deadline. -/
def renew (w : SendWindow) (now : ℕ) (p : Pending) : Pending :=
  if p.deadline ≤ now then
    { p with retries := p.retries + 1, deadline := saturatingAdd now w.interval }
  else p

def retransmit (w : SendWindow) (now : ℕ) : SendWindow × Except Error (List Frame) :=
  if w.pending.any (fun p => decide (p.deadline ≤ now) && decide (p.retries ≥ w.retryLimit)) then
    (w, .error .timeout)
  else
    ({ w with pending := w.pending.map (w.renew now) },
      .ok ((w.pending.filter fun p => decide (p.deadline ≤ now)).map (·.frame)))

def outstanding (w : SendWindow) : ℕ := w.pending.length

def clear (w : SendWindow) : SendWindow := { w with pending := [], lastAck := w.next - 1 }

/-- The calls a session owner makes. -/
inductive Call where
  | send (session acknowledgement : UInt8) (payload : List UInt8) (now : ℕ)
  | acknowledge (ack : UInt8)
  | retransmit (now : ℕ)
  | clear

inductive Reply where
  | frame (result : Except Error Frame)
  | done (result : Except Error Unit)
  | frames (result : Except Error (List Frame))

def step (w : SendWindow) : Call → SendWindow × Reply
  | .send session acknowledgement payload now =>
    let next := w.send session acknowledgement payload now
    (next.1, .frame next.2)
  | .acknowledge ack =>
    let next := w.acknowledge ack
    (next.1, .done next.2)
  | .retransmit now =>
    let next := w.retransmit now
    (next.1, .frames next.2)
  | .clear => (w.clear, .done (.ok ()))

/-- The frames a reply hands to the transport. -/
def Reply.handedOut : Reply → List Frame
  | .frame (.ok f) => [f]
  | .frames (.ok fs) => fs
  | _ => []

/-! ## The window invariant -/

/-- Sequence numbers from `first` on, one after the other modulo 256. -/
def serials (first : UInt8) (n : ℕ) : List UInt8 := List.iterate (· + 1) first n

def sequences (w : SendWindow) : List UInt8 := w.pending.map (·.frame.sequence)

/-- What every reachable window satisfies for its negotiated parameters. -/
structure Inv (config : Synchronization) (w : SendWindow) : Prop where
  numbered : w.sequences = serials (w.lastAck + 1) w.pending.length
  next : w.next = w.lastAck + 1 + UInt8.ofNat w.pending.length
  bounded : w.pending.length ≤ w.capacity
  capacity : w.capacity = config.window.toNat
  maxPayload : w.maxPayload = config.maxFrame.toNat - 10
  retryLimit : w.retryLimit = config.retries
  payload : ∀ p ∈ w.pending, p.frame.payload.length ≤ w.maxPayload
  retries : ∀ p ∈ w.pending, p.retries ≤ w.retryLimit

@[simp] theorem length_serials (first : UInt8) (n : ℕ) : (serials first n).length = n := by
  simp [serials]

theorem iterate_succ (first : UInt8) (n : ℕ) : (· + 1)^[n] first = first + UInt8.ofNat n := by
  induction n with
  | zero => simp
  | succ n ih =>
    rw [Function.iterate_succ_apply', ih, UInt8.ofNat_add]
    grind

theorem serials_add (first : UInt8) (m n : ℕ) :
    serials first (m + n) = serials first m ++ serials (first + UInt8.ofNat m) n := by
  rw [serials, List.iterate_add, iterate_succ]
  rfl

theorem serials_succ (first : UInt8) (n : ℕ) :
    serials first (n + 1) = serials first n ++ [first + UInt8.ofNat n] := serials_add first n 1

theorem getElem?_serials (first : UInt8) {n i : ℕ} (h : i < n) :
    (serials first n)[i]? = some (first + UInt8.ofNat i) := by
  rw [serials, List.getElem?_iterate _ _ _ _ h, iterate_succ]

theorem drop_serials (first : UInt8) {d n : ℕ} (h : d ≤ n) :
    (serials first n).drop d = serials (first + UInt8.ofNat d) (n - d) := by
  obtain ⟨m, rfl⟩ := Nat.exists_eq_add_of_le h
  rw [serials_add, List.drop_left' (by simp), Nat.add_sub_cancel_left]

variable {config : Synchronization} {w : SendWindow}

theorem new_inv {initial : UInt8} (h : new initial config = .ok w) : Inv config w := by
  unfold new at h
  split at h
  · contradiction
  · split_ifs at h
    obtain rfl := Except.ok.inj h
    exact
      { numbered := rfl
        next := by simp
        bounded := Nat.zero_le _
        capacity := rfl
        maxPayload := rfl
        retryLimit := rfl
        payload := by simp
        retries := by simp }

/-- A send either leaves the window alone or queues exactly one numbered frame. -/
theorem send_cases (w : SendWindow) (session acknowledgement : UInt8) (payload : List UInt8)
    (now : ℕ) :
    (w.send session acknowledgement payload now = (w, .error .bounds)) ∨
      ∃ p : Pending, p.frame = ⟨Iap2.ack, w.next, acknowledgement, session, payload⟩ ∧
        p.retries = 0 ∧ w.pending.length < w.capacity ∧ payload ≠ [] ∧
        payload.length ≤ w.maxPayload ∧
        w.send session acknowledgement payload now =
          ({ w with next := w.next + 1, pending := w.pending ++ [p] }, .ok p.frame) := by
  unfold send
  split_ifs with h
  · exact Or.inl rfl
  · simp only [not_or, ge_iff_le, not_le, gt_iff_lt, not_lt] at h
    exact Or.inr ⟨_, rfl, rfl, h.1, h.2.1, h.2.2, rfl⟩

theorem send_inv (h : Inv config w) (session acknowledgement : UInt8) (payload : List UInt8)
    (now : ℕ) : Inv config (w.send session acknowledgement payload now).1 := by
  obtain hs | ⟨p, hp, hretries, hroom, -, hfit, hs⟩ :=
    send_cases w session acknowledgement payload now
  · rw [hs]
    exact h
  · rw [hs]
    refine
      { numbered := ?_
        next := ?_
        bounded := by simpa using Nat.succ_le_of_lt hroom
        capacity := h.capacity
        maxPayload := h.maxPayload
        retryLimit := h.retryLimit
        payload := ?_
        retries := ?_ }
    · have hnew : p.frame.sequence = w.lastAck + 1 + UInt8.ofNat w.pending.length := by
        rw [hp, ← h.next]
      have hold := h.numbered
      unfold sequences at hold ⊢
      simp [hold, serials_succ, hnew]
    · rw [h.next]
      simp
      grind
    · intro q hq
      rcases List.mem_append.mp hq with hq | hq
      · exact h.payload q hq
      · rw [List.mem_singleton.mp hq, hp]
        exact hfit
    · intro q hq
      rcases List.mem_append.mp hq with hq | hq
      · exact h.retries q hq
      · rw [List.mem_singleton.mp hq, hretries]
        exact UInt8.le_iff_toNat_le.mpr (Nat.zero_le _)

/-- Every acknowledgement falls into one of three circular ranges. -/
theorem acknowledge_cases (w : SendWindow) (ack : UInt8) :
    ((ack - w.lastAck).toNat ≤ w.pending.length ∧
      w.acknowledge ack =
        ({ w with pending := w.pending.drop (ack - w.lastAck).toNat, lastAck := ack }, .ok ())) ∨
    (w.pending.length < (ack - w.lastAck).toNat ∧ 128 ≤ (ack - w.lastAck).toNat ∧
      w.acknowledge ack = (w, .ok ())) ∨
    (w.pending.length < (ack - w.lastAck).toNat ∧ (ack - w.lastAck).toNat < 128 ∧
      w.acknowledge ack = (w, .error .sequence)) := by
  by_cases heq : ack = w.lastAck
  · left
    simp [acknowledge, heq]
  · by_cases hfar : w.pending.length < (ack - w.lastAck).toNat
    · by_cases hold : 128 ≤ (ack - w.lastAck).toNat
      · exact Or.inr (Or.inl ⟨hfar, hold, by simp [acknowledge, heq, hfar, hold]⟩)
      · exact Or.inr (Or.inr ⟨hfar, by omega, by simp [acknowledge, heq, hfar, hold]⟩)
    · exact Or.inl ⟨by omega, by simp [acknowledge, heq, hfar]⟩

theorem acknowledge_inv (h : Inv config w) (ack : UInt8) :
    Inv config (w.acknowledge ack).1 := by
  obtain ⟨hle, hs⟩ | ⟨-, -, hs⟩ | ⟨-, -, hs⟩ := acknowledge_cases w ack
  · rw [hs]
    have hack : w.lastAck + UInt8.ofNat (ack - w.lastAck).toNat = ack := by
      rw [UInt8.ofNat_toNat]
      grind
    have hsplit : UInt8.ofNat w.pending.length =
        UInt8.ofNat (ack - w.lastAck).toNat +
          UInt8.ofNat (w.pending.length - (ack - w.lastAck).toNat) := by
      rw [← UInt8.ofNat_add, Nat.add_sub_cancel' hle]
    refine
      { numbered := ?_
        next := ?_
        bounded := ?_
        capacity := h.capacity
        maxPayload := h.maxPayload
        retryLimit := h.retryLimit
        payload := fun p hp => h.payload p (List.mem_of_mem_drop hp)
        retries := fun p hp => h.retries p (List.mem_of_mem_drop hp) }
    · have hnum := congrArg (List.drop (ack - w.lastAck).toNat) h.numbered
      rw [drop_serials _ hle] at hnum
      simp only [sequences, List.map_drop, List.length_drop] at hnum ⊢
      rw [hnum]
      congr 1
      grind
    · rw [h.next]
      simp only [List.length_drop]
      grind
    · exact (List.length_drop ▸ Nat.sub_le _ _).trans h.bounded
  · rw [hs]
    exact h
  · rw [hs]
    exact h

/-- Retransmission refuses as a whole or renews exactly the due frames. -/
theorem retransmit_cases (w : SendWindow) (now : ℕ) :
    (w.retransmit now = (w, .error .timeout)) ∨
      ((∀ p ∈ w.pending, p.deadline ≤ now → p.retries < w.retryLimit) ∧
        w.retransmit now =
          ({ w with pending := w.pending.map (w.renew now) },
            .ok ((w.pending.filter fun p => decide (p.deadline ≤ now)).map (·.frame)))) := by
  unfold retransmit
  split_ifs with h
  · exact Or.inl rfl
  · refine Or.inr ⟨fun p hp hdue => ?_, rfl⟩
    by_contra hlimit
    apply h
    rw [List.any_eq_true]
    exact ⟨p, hp, by simpa [hdue] using hlimit⟩

theorem toNat_succ_of_lt {a b : UInt8} (h : a < b) : (a + 1).toNat = a.toNat + 1 := by
  have hlt := UInt8.lt_iff_toNat_lt.mp h
  have hb := b.toNat_lt
  rw [UInt8.toNat_add]
  simp
  omega

@[simp] theorem renew_frame (w : SendWindow) (now : ℕ) (p : Pending) :
    (w.renew now p).frame = p.frame := by
  unfold renew
  split_ifs <;> rfl

theorem renew_retries (w : SendWindow) (now : ℕ) (p : Pending)
    (h : p.deadline ≤ now → p.retries < w.retryLimit) :
    (w.renew now p).retries.toNat = p.retries.toNat + if p.deadline ≤ now then 1 else 0 := by
  unfold renew
  split_ifs with hd
  · exact toNat_succ_of_lt (h hd)
  · rfl

theorem retransmit_inv (h : Inv config w) (now : ℕ) : Inv config (w.retransmit now).1 := by
  obtain hs | ⟨hdue, hs⟩ := retransmit_cases w now
  · rw [hs]
    exact h
  · rw [hs]
    refine
      { numbered := by simpa [sequences, Function.comp_def] using h.numbered
        next := by simpa using h.next
        bounded := by simpa using h.bounded
        capacity := h.capacity
        maxPayload := h.maxPayload
        retryLimit := h.retryLimit
        payload := ?_
        retries := ?_ }
    · intro q hq
      obtain ⟨p, hp, rfl⟩ := List.mem_map.mp hq
      rw [renew_frame]
      exact h.payload p hp
    · intro q hq
      obtain ⟨p, hp, rfl⟩ := List.mem_map.mp hq
      have hcount := renew_retries w now p (hdue p hp)
      have hold := UInt8.le_iff_toNat_le.mp (h.retries p hp)
      rw [UInt8.le_iff_toNat_le]
      split_ifs at hcount with hd
      · have hlt := UInt8.lt_iff_toNat_lt.mp (hdue p hp hd)
        exact hcount.trans_le hlt
      · exact hcount.trans_le hold

theorem clear_inv (h : Inv config w) : Inv config w.clear where
  numbered := rfl
  next := by simp [clear]
  bounded := Nat.zero_le _
  capacity := h.capacity
  maxPayload := h.maxPayload
  retryLimit := h.retryLimit
  payload := by simp [clear]
  retries := by simp [clear]

theorem step_inv (h : Inv config w) (call : Call) : Inv config (w.step call).1 := by
  cases call with
  | send session acknowledgement payload now => exact send_inv h session acknowledgement payload now
  | acknowledge ack => exact acknowledge_inv h ack
  | retransmit now => exact retransmit_inv h now
  | clear => exact clear_inv h

/-! ## Frame identity over a whole run -/

/-- The window with every frame ever accepted, oldest first, and the number of
times the frame with each index was handed out again. -/
structure Ledger where
  window : SendWindow
  sent : List Frame
  resent : ℕ → ℕ

namespace Ledger

def start (w : SendWindow) : Ledger := ⟨w, [], fun _ => 0⟩

/-- Index of the oldest pending frame. -/
def base (l : Ledger) : ℕ := l.sent.length - l.window.pending.length

/-- The frame with index `k` is pending and its deadline has passed. -/
def due (l : Ledger) (now k : ℕ) : Bool :=
  decide (l.base ≤ k) && (l.window.pending[k - l.base]?).any fun p => decide (p.deadline ≤ now)

def step (l : Ledger) (call : Call) : Ledger × Reply :=
  let next := l.window.step call
  let sent := match next.2 with
    | .frame (.ok f) => l.sent ++ [f]
    | _ => l.sent
  let resent := match call, next.2 with
    | .retransmit now, .frames (.ok _) => fun k => l.resent k + if l.due now k then 1 else 0
    | _, _ => l.resent
  (⟨next.1, sent, resent⟩, next.2)

theorem step_window (l : Ledger) (call : Call) :
    (l.step call).1.window = (l.window.step call).1 := rfl

/-- The pending frames are the newest sent ones, and their retry counters are the ledger's. -/
structure Inv (l : Ledger) : Prop where
  fits : l.window.pending.length ≤ l.sent.length
  frames : l.window.pending.map (·.frame) = l.sent.drop l.base
  counted : ∀ i p, l.window.pending[i]? = some p → l.resent (l.base + i) = p.retries.toNat
  fresh : ∀ k, l.sent.length ≤ k → l.resent k = 0
  limited : ∀ k, l.resent k ≤ l.window.retryLimit.toNat

theorem start_inv {w : SendWindow} (h : w.pending = []) : Inv (start w) where
  fits := by simp [start, h]
  frames := by simp [start, h]
  counted := by simp [start, h]
  fresh := fun _ _ => rfl
  limited := fun _ => Nat.zero_le _

/-- Dropping pending frames from the front keeps the ledger consistent. -/
theorem Inv.release {l : Ledger} (h : l.Inv) (w : SendWindow) (d : ℕ)
    (hpending : w.pending = l.window.pending.drop d) (hlimit : w.retryLimit = l.window.retryLimit) :
    Inv ⟨w, l.sent, l.resent⟩ := by
  by_cases hd : d ≤ l.window.pending.length
  · have hfits := h.fits
    have hbase : (⟨w, l.sent, l.resent⟩ : Ledger).base = l.base + d := by
      simp only [base, hpending, List.length_drop]
      omega
    exact
      { fits := by
          simp only [hpending, List.length_drop]
          omega
        frames := by
          rw [hbase, ← List.drop_drop, ← h.frames, hpending, List.map_drop]
        counted := by
          intro i p hp
          rw [hpending, List.getElem?_drop] at hp
          rw [hbase, Nat.add_assoc]
          exact h.counted _ p hp
        fresh := h.fresh
        limited := by simpa [hlimit] using h.limited }
  · have hnil : w.pending = [] := by
      rw [hpending]
      exact List.drop_eq_nil_of_le (by omega)
    exact
      { fits := by simp [hnil]
        frames := by simp [base, hnil]
        counted := by simp [hnil]
        fresh := h.fresh
        limited := by simpa [hlimit] using h.limited }

theorem Inv.send {l : Ledger} (h : l.Inv) (session acknowledgement : UInt8)
    (payload : List UInt8) (now : ℕ) :
    Inv (l.step (.send session acknowledgement payload now)).1 := by
  obtain hs | ⟨p, -, hretries, -, -, -, hs⟩ :=
    send_cases l.window session acknowledgement payload now
  · simpa [step, SendWindow.step, hs] using h
  · simp only [step, SendWindow.step, hs]
    have hfits := h.fits
    have hbase : (⟨{ l.window with
        next := l.window.next + 1, pending := l.window.pending ++ [p] },
        l.sent ++ [p.frame], l.resent⟩ : Ledger).base = l.base := by
      simp only [base, List.length_append, List.length_singleton]
      omega
    refine
      { fits := by simpa using hfits
        frames := ?_
        counted := ?_
        fresh := fun k hk => h.fresh k (by simp at hk; omega)
        limited := h.limited }
    · rw [hbase, List.drop_append_of_le_length (by simp [base]), ← h.frames]
      simp
    · intro i q hq
      rw [hbase]
      rw [List.getElem?_append] at hq
      split_ifs at hq with hi
      · exact h.counted i q hq
      · have hiq : i = l.window.pending.length ∧ q = p := by
          rw [List.getElem?_singleton] at hq
          split_ifs at hq with h0
          exact ⟨by omega, (Option.some.inj hq).symm⟩
        rw [hiq.1, hiq.2, hretries, h.fresh _ (by simp [base]; omega)]
        rfl

theorem due_eq_of_pending {l : Ledger} {i : ℕ} {p : Pending} (now : ℕ)
    (h : l.window.pending[i]? = some p) : l.due now (l.base + i) = decide (p.deadline ≤ now) := by
  simp [due, h]

theorem Inv.retransmit {l : Ledger} (h : l.Inv) (now : ℕ) :
    Inv (l.step (.retransmit now)).1 := by
  obtain hs | ⟨hdue, hs⟩ := retransmit_cases l.window now
  · simpa [step, SendWindow.step, hs] using h
  · simp only [step, SendWindow.step, hs]
    refine
      { fits := by simpa using h.fits
        frames := by simpa [base, Function.comp_def] using h.frames
        counted := ?_
        fresh := ?_
        limited := ?_ }
    · intro i q hq
      rw [List.getElem?_map] at hq
      obtain ⟨p, hp, rfl⟩ := Option.map_eq_some_iff.mp hq
      have hmem := List.mem_of_getElem? hp
      have hbase : (⟨{ l.window with pending := l.window.pending.map (l.window.renew now) },
          l.sent, fun k => l.resent k + if l.due now k then 1 else 0⟩ : Ledger).base = l.base := by
        simp [base]
      rw [hbase, renew_retries _ _ _ (hdue p hmem)]
      change l.resent (l.base + i) + (if l.due now (l.base + i) then 1 else 0) = _
      rw [h.counted i p hp, due_eq_of_pending now hp]
      simp
    · intro k hk
      have hlate : l.sent.length ≤ k := hk
      have hlast : l.window.pending[k - l.base]? = none := by
        have hfits := h.fits
        rw [List.getElem?_eq_none_iff, base]
        omega
      simp [h.fresh k hlate, due, hlast]
    · intro k
      by_cases hk : l.due now k
      · -- A due index is a pending frame, whose counter was still below the limit.
        simp only [due, Bool.and_eq_true, decide_eq_true_eq] at hk
        obtain ⟨hle, hany⟩ := hk
        obtain ⟨p, hp, hdeadline⟩ := Option.any_eq_true_iff_get .. |>.mp hany |> fun ⟨hs, hd⟩ =>
          (⟨_, (Option.some_get hs).symm, by simpa using hd⟩ :
            ∃ p, l.window.pending[k - l.base]? = some p ∧ p.deadline ≤ now)
        have hlt := UInt8.lt_iff_toNat_lt.mp (hdue p (List.mem_of_getElem? hp) hdeadline)
        have hcount := h.counted _ p hp
        rw [Nat.add_sub_cancel' hle] at hcount
        simp only [hcount]
        split_ifs <;> omega
      · simpa [hk] using h.limited k

theorem Inv.step {l : Ledger} (h : l.Inv) (call : Call) : Inv (l.step call).1 := by
  cases call with
  | send session acknowledgement payload now => exact h.send session acknowledgement payload now
  | retransmit now => exact h.retransmit now
  | clear =>
    exact h.release l.window.clear l.window.pending.length (by simp [SendWindow.clear]) rfl
  | acknowledge ack =>
    obtain ⟨-, hs⟩ | ⟨-, -, hs⟩ | ⟨-, -, hs⟩ := acknowledge_cases l.window ack
    · exact h.release (l.window.acknowledge ack).1 (ack - l.window.lastAck).toNat
        (by rw [hs]) (by rw [hs])
    · simpa [Ledger.step, SendWindow.step, hs] using h
    · simpa [Ledger.step, SendWindow.step, hs] using h

/-! ## The contract of the window -/

/-- Selecting the elements at the positions that satisfy a predicate is filtering. -/
theorem filter_eq_positions {α : Type*} (xs : List α) (p : α → Bool) :
    ((List.range xs.length).filter fun i => xs[i]?.any p).map (xs[·]?) =
      (xs.filter p).map some := by
  induction xs using List.reverseRecOn with
  | nil => rfl
  | append_singleton xs x ih =>
    have hfront : ((List.range xs.length).filter fun i => (xs ++ [x])[i]?.any p) =
        (List.range xs.length).filter fun i => xs[i]?.any p := by
      refine List.filter_congr fun i hi => ?_
      rw [List.getElem?_append_left (List.mem_range.mp hi)]
    have hmap : ((List.range xs.length).filter fun i => xs[i]?.any p).map ((xs ++ [x])[·]?) =
        ((List.range xs.length).filter fun i => xs[i]?.any p).map (xs[·]?) := by
      refine List.map_congr_left fun i hi => ?_
      exact List.getElem?_append_left (List.mem_range.mp (List.mem_filter.mp hi).1)
    rw [List.length_append, List.length_singleton, List.range_succ, List.filter_append, hfront,
      List.map_append, hmap, ih, List.filter_append, List.map_append]
    congr 1
    by_cases hx : p x <;> simp [hx]

/-- A retransmission hands out exactly the sent frames whose index is due. -/
theorem Inv.reissued {l : Ledger} (h : l.Inv) {now : ℕ} {fs : List Frame}
    (hs : (l.window.retransmit now).2 = .ok fs) :
    ((List.range' l.base l.window.pending.length).filter (l.due now)).map (l.sent[·]?) =
      fs.map some := by
  obtain ht | ⟨-, ht⟩ := retransmit_cases l.window now
  · rw [ht] at hs
    contradiction
  · rw [ht] at hs
    obtain rfl := Except.ok.inj hs
    have hdue : (l.due now ∘ fun i => l.base + i) = fun i =>
        (l.window.pending[i]?).any fun p => decide (p.deadline ≤ now) := by
      funext i
      simp [due]
    have hsent : ((l.sent[·]?) ∘ fun i => l.base + i) =
        fun i => (l.window.pending[i]?).map (·.frame) := by
      funext i
      rw [← List.getElem?_map, h.frames, List.getElem?_drop]
      rfl
    rw [List.range'_eq_map_range, List.filter_map, hdue, List.map_map, hsent]
    have hpositions := filter_eq_positions l.window.pending fun p => decide (p.deadline ≤ now)
    have hframes := congrArg (List.map (Option.map (·.frame))) hpositions
    simpa [Function.comp_def] using hframes

end Ledger

theorem sequences_eq (h : Inv config w) (hwindow : config.window.toNat ≤ 127) :
    w.sequences = serials (w.lastAck + 1) (w.next - 1 - w.lastAck).toNat := by
  have hbound := h.bounded
  have hnext : w.next - 1 - w.lastAck = UInt8.ofNat w.pending.length := by
    rw [h.next]
    grind
  rw [h.capacity] at hbound
  rw [h.numbered, hnext, UInt8.toNat_ofNat', Nat.mod_eq_of_lt (by omega)]

theorem toNat_sub_comm {a b : UInt8} (h : (a - b).toNat ≠ 0) :
    (b - a).toNat = 256 - (a - b).toNat := by
  have ha := a.toNat_lt
  have hb := b.toNat_lt
  rw [UInt8.toNat_sub] at h ⊢
  rw [UInt8.toNat_sub]
  omega

/-- Acknowledging the `i`-th pending frame releases it and everything before it. -/
theorem acknowledge_pending (h : Inv config w) (hwindow : config.window.toNat ≤ 127) {i : ℕ}
    (hi : i < w.pending.length) :
    w.acknowledge (w.lastAck + 1 + UInt8.ofNat i) =
      ({ w with
          pending := w.pending.drop (i + 1), lastAck := w.lastAck + 1 + UInt8.ofNat i },
        .ok ()) := by
  have hbound := h.bounded
  rw [h.capacity] at hbound
  have hdistance : (w.lastAck + 1 + UInt8.ofNat i - w.lastAck).toNat = i + 1 := by
    have hsub : w.lastAck + 1 + UInt8.ofNat i - w.lastAck = UInt8.ofNat (i + 1) := by
      rw [UInt8.ofNat_add]
      grind
    rw [hsub, UInt8.toNat_ofNat', Nat.mod_eq_of_lt (by omega)]
  obtain ⟨-, hs⟩ | ⟨hlt, -⟩ | ⟨hlt, -⟩ := acknowledge_cases w (w.lastAck + 1 + UInt8.ofNat i)
  · rw [hs, hdistance]
  · omega
  · omega

/-- A number at most half the circle behind the last acknowledgement is stale. -/
theorem acknowledge_stale (h : Inv config w) (hwindow : config.window.toNat ≤ 127) {ack : UInt8}
    (hold : (w.lastAck - ack).toNat ≤ 128) : w.acknowledge ack = (w, .ok ()) := by
  by_cases heq : (ack - w.lastAck).toNat = 0
  · have hack : ack = w.lastAck := by
      have hzero : ack - w.lastAck = 0 := UInt8.toNat_inj.mp (by simpa using heq)
      grind
    simp [acknowledge, hack]
  · have hdistance := toNat_sub_comm heq
    have hbound := h.bounded
    rw [h.capacity] at hbound
    obtain ⟨hle, -⟩ | ⟨-, -, hs⟩ | ⟨-, hlt, -⟩ := acknowledge_cases w ack
    · omega
    · exact hs
    · omega

/-- Every other number that is not pending is refused. -/
theorem acknowledge_future (h : Inv config w) {ack : UInt8}
    (hnew : 128 < (w.lastAck - ack).toNat) (hpending : ack ∉ w.sequences) :
    w.acknowledge ack = (w, .error .sequence) := by
  obtain ⟨hle, -⟩ | ⟨-, hge, -⟩ | ⟨-, -, hs⟩ := acknowledge_cases w ack
  · have hpos : (ack - w.lastAck).toNat ≠ 0 := by
      intro hzero
      have hack : ack = w.lastAck := by
        have : ack - w.lastAck = 0 := UInt8.toNat_inj.mp (by simpa using hzero)
        grind
      simp [hack] at hnew
    refine absurd ?_ hpending
    have hlast := getElem?_serials (w.lastAck + 1) (i := (ack - w.lastAck).toNat - 1)
      (n := w.pending.length) (by omega)
    have hack : w.lastAck + 1 + UInt8.ofNat ((ack - w.lastAck).toNat - 1) = ack := by
      have hsub : UInt8.ofNat ((ack - w.lastAck).toNat - 1) + 1 = ack - w.lastAck := by
        have hone : UInt8.ofNat ((ack - w.lastAck).toNat - 1 + 1) = ack - w.lastAck := by
          rw [Nat.sub_add_cancel (by omega), UInt8.ofNat_toNat]
        rwa [UInt8.ofNat_add] at hone
      grind
    rw [hack, ← h.numbered] at hlast
    exact List.mem_of_getElem? hlast
  · have hdistance := toNat_sub_comm (a := ack) (b := w.lastAck) (by omega)
    omega
  · exact hs

theorem retransmit_timeout {now : ℕ} (h : (w.retransmit now).2 = .error .timeout) :
    (w.retransmit now).1 = w := by
  obtain hs | ⟨-, hs⟩ := retransmit_cases w now
  · rw [hs]
  · rw [hs] at h
    contradiction

theorem length_le_of_payload {f : Frame} {bound : ℕ} (hbound : 10 ≤ bound)
    (h : f.payload.length ≤ bound - 10) : f.length ≤ bound := by
  unfold Frame.length header
  split_ifs <;> omega

/-- Every frame a call hands out fits the negotiated frame size. -/
theorem handedOut_length (h : Inv config w) (hframe : 64 ≤ config.maxFrame.toNat) (call : Call) :
    ∀ f ∈ (w.step call).2.handedOut, f.length ≤ config.maxFrame.toNat := by
  intro f hf
  refine length_le_of_payload (by omega) ?_
  rw [← h.maxPayload]
  cases call with
  | send session acknowledgement payload now =>
    obtain hs | ⟨p, hp, -, -, -, hfit, hs⟩ := send_cases w session acknowledgement payload now
    · simp [step, hs, Reply.handedOut] at hf
    · simp only [step, hs, Reply.handedOut, List.mem_singleton] at hf
      rw [hf, hp]
      exact hfit
  | acknowledge ack => simp [step, Reply.handedOut] at hf
  | retransmit now =>
    obtain hs | ⟨-, hs⟩ := retransmit_cases w now
    · simp [step, hs, Reply.handedOut] at hf
    · simp only [step, hs, Reply.handedOut] at hf
      obtain ⟨p, hp, rfl⟩ := List.mem_map.mp hf
      exact h.payload p (List.mem_filter.mp hp).1
  | clear => simp [step, Reply.handedOut] at hf

/-- What a reached state promises about itself and about the next call. -/
structure Contract (config : Synchronization) (l : Ledger) : Prop where
  numbered : l.window.sequences =
    serials (l.window.lastAck + 1) (l.window.next - 1 - l.window.lastAck).toNat
  bounded : l.window.outstanding ≤ config.window.toNat ∧ config.window.toNat ≤ 127
  released : ∀ i < l.window.outstanding,
    l.window.acknowledge (l.window.lastAck + 1 + UInt8.ofNat i) =
      ({ l.window with
          pending := l.window.pending.drop (i + 1)
          lastAck := l.window.lastAck + 1 + UInt8.ofNat i }, .ok ())
  stale : ∀ ack, (l.window.lastAck - ack).toNat ≤ 128 → l.window.acknowledge ack = (l.window, .ok ())
  future : ∀ ack, 128 < (l.window.lastAck - ack).toNat → ack ∉ l.window.sequences →
    l.window.acknowledge ack = (l.window, .error .sequence)
  identified : l.window.pending.map (·.frame) = l.sent.drop l.base
  reissued : ∀ now fs, (l.window.retransmit now).2 = .ok fs →
    ((List.range' l.base l.window.pending.length).filter (l.due now)).map (l.sent[·]?) =
      fs.map some
  retried : ∀ k, l.resent k ≤ config.retries.toNat
  timeout : ∀ now, (l.window.retransmit now).2 = .error .timeout →
    (l.window.retransmit now).1 = l.window
  sized : ∀ call, ∀ f ∈ (l.window.step call).2.handedOut, f.length ≤ config.maxFrame.toNat

theorem new_validate {initial : UInt8} (h : new initial config = .ok w) :
    config.validate = .ok () := by
  unfold new at h
  split at h
  · contradiction
  · assumption

theorem new_pending {initial : UInt8} (h : new initial config = .ok w) : w.pending = [] := by
  unfold new at h
  split at h
  · contradiction
  · split_ifs at h
    rw [← Except.ok.inj h]

/-- The ledger only watches: its window goes through the states of the window itself. -/
theorem run_ledger_window (l : Ledger) (calls : List Call) :
    (run Ledger.step l calls).1.window = (run step l.window calls).1 := by
  induction calls generalizing l with
  | nil => rfl
  | cons call calls ih => exact ih _

/-- Every window reached from `new` by any calls keeps the contract. -/
theorem window_contract {initial : UInt8} (h : new initial config = .ok w) (calls : List Call) :
    (run Ledger.step (Ledger.start w) calls).1.window = (run step w calls).1 ∧
      Contract config (run Ledger.step (Ledger.start w) calls).1 := by
  obtain ⟨-, hwindow, hframe⟩ := Synchronization.validate_bounds (new_validate h)
  have hreached := run_invariant Ledger.step (I := fun l => l.Inv ∧ Inv config l.window)
    (s := Ledger.start w) ⟨Ledger.start_inv (new_pending h), new_inv h⟩
    (fun l call hl => ⟨hl.1.step call, step_inv hl.2 call⟩) calls
  obtain ⟨hledger, hinv⟩ := hreached
  refine ⟨run_ledger_window _ calls, ?_⟩
  exact
    { numbered := sequences_eq hinv hwindow
      bounded := ⟨hinv.capacity ▸ hinv.bounded, hwindow⟩
      released := fun i hi => acknowledge_pending hinv hwindow hi
      stale := fun ack hold => acknowledge_stale hinv hwindow hold
      future := fun ack hnew hpending => acknowledge_future hinv hnew hpending
      identified := hledger.frames
      reissued := fun now fs hs => hledger.reissued hs
      retried := fun k => hinv.retryLimit ▸ hledger.limited k
      timeout := fun now => retransmit_timeout
      sized := handedOut_length hinv hframe }

/-- A negotiated record: a window of one frame, eight retries, one control session. -/
def sampleConfig : Synchronization :=
  { window := 1, maxFrame := 64, retransmitMs := 1000, ackMs := 23, retries := 8, ackCount := 1
    sessions := [⟨10, 0, 1⟩] }

def sampleWindow : SendWindow := ⟨0, 255, 1, 54, 1000000000, 8, []⟩

theorem window_contract_sample :
    new 0 sampleConfig = .ok sampleWindow ∧
      Contract sampleConfig
        (run Ledger.step (Ledger.start sampleWindow) [.send 10 3 [1] 0, .acknowledge 0]).1 :=
  ⟨by decide, (window_contract (show new 0 sampleConfig = .ok sampleWindow by decide) _).2⟩

/-- With frame 0 the only one ever sent, number 200 is accepted as if it were old. -/
theorem unsent_number_accepted :
    new 0 sampleConfig = .ok sampleWindow ∧
      ∃ l, l = (run Ledger.step (Ledger.start sampleWindow) [.send 10 3 [1] 0]).1 ∧
        (200 : UInt8) ∉ l.sent.map (·.sequence) ∧ (l.window.acknowledge 200).2 = .ok () :=
  ⟨by decide, _, rfl, by decide, by decide⟩

end SendWindow
end ProjectArgo.CarPlay
