import ProjectArgo.Library.Run
import Mathlib.Algebra.Order.Group.Unbundled.Int
import Mathlib.Tactic.Ring
import Mathlib.Tactic.Linarith

/-!
# The session clock

A monotonic clock of the host is steered into the phone's time. Timestamps count in 64 bits
with 32 of them for the fraction of a second, and wrap. A timing exchange measures the offset
of the phone's clock with an uncertainty of half the delay of the exchange.
-/
namespace ProjectArgo.CarPlay.SessionClock

open Library.Run

/-- The clock's reading at its origin, and what is added to it. -/
structure Clock where
  base : UInt64
  adjustment : ℤ := 0
  synchronized : Bool := false
  deriving DecidableEq

/-- An elapsed time in nanoseconds, in the unit of timestamps. -/
def ticks (elapsed : ℕ) : ℤ :=
  ((elapsed / 1000000000 * 2 ^ 32 + elapsed % 1000000000 * 2 ^ 32 / 1000000000 : ℕ) : ℤ)

def Clock.now (clock : Clock) (elapsed : ℕ) : UInt64 :=
  UInt64.ofInt (clock.base.toNat + ticks elapsed + clock.adjustment)

/-- The four timestamps of a timing exchange: those of the host around those of the phone. -/
structure Exchange where
  sent : UInt64
  received : UInt64
  remoteReceive : UInt64
  remoteSend : UInt64
  deriving DecidableEq

namespace Exchange

variable (e : Exchange)

def delay : ℤ :=
  ((e.received.toNat : ℤ) - e.sent.toNat) - (e.remoteSend.toNat - e.remoteReceive.toNat)

/-- Twice the offset that the exchange measures. -/
def doubled : ℤ :=
  ((e.remoteReceive.toNat : ℤ) - e.sent.toNat) + (e.remoteSend.toNat - e.received.toNat)

def correction : ℤ := e.doubled.tdiv 2

def accepted : Bool :=
  !(e.remoteSend.toNat < e.remoteReceive.toNat || !(0 ≤ e.delay && e.delay < 2 ^ 32))

end Exchange

/-- What an accepted exchange adds: all of the correction at first or where it is large. -/
def step (clock : Clock) (e : Exchange) : ℤ :=
  if !clock.synchronized || 2 ^ 29 < |e.correction| then e.correction else e.correction.tdiv 8

def observe (clock : Clock) (e : Exchange) : Clock × Bool :=
  if e.accepted then
    ({ clock with adjustment := clock.adjustment + step clock e, synchronized := true }, true)
  else (clock, false)

/-! ## True times -/

/-- A true time shown in 64 bits. -/
def Shows (timestamp : UInt64) (time : ℤ) : Prop := (timestamp.toNat : ℤ) = time % 2 ^ 64

/-- The timestamps of an exchange with a clock that is `offset` ahead: the phone receives
after the host has sent, sends after it has received, and the host receives last. Wrapped
timestamps tell times apart within one of their periods. -/
def Exchange.Causal (e : Exchange) (offset : ℤ) : Prop :=
  ∃ sent received remoteReceive remoteSend : ℤ,
    Shows e.sent sent ∧ Shows e.received received ∧
    Shows e.remoteReceive remoteReceive ∧ Shows e.remoteSend remoteSend ∧
    sent + offset ≤ remoteReceive ∧ remoteReceive ≤ remoteSend ∧
    remoteSend ≤ received + offset ∧ sent ≤ received ∧ received < sent + 2 ^ 64

theorem shows_toNat (timestamp : UInt64) : Shows timestamp timestamp.toNat := by
  have hlt := timestamp.toNat_lt
  unfold Shows
  omega

/-- Timestamps that have not wrapped are the true times. -/
theorem Exchange.causal_of_le {e : Exchange} {offset : ℤ}
    (hreceive : e.sent.toNat + offset ≤ e.remoteReceive.toNat)
    (hremote : e.remoteReceive.toNat ≤ e.remoteSend.toNat)
    (hsend : (e.remoteSend.toNat : ℤ) ≤ e.received.toNat + offset)
    (hlocal : e.sent.toNat ≤ e.received.toNat) : e.Causal offset := by
  have hlt := e.received.toNat_lt
  refine ⟨_, _, _, _, shows_toNat _, shows_toNat _, shows_toNat _, shows_toNat _, hreceive,
    Int.ofNat_le.mpr hremote, hsend, Int.ofNat_le.mpr hlocal, ?_⟩
  omega

/-! ## Halves and eighths -/

/-- A quotient that is rounded towards zero. -/
theorem tdiv_spec {n : ℤ} (hn : 0 < n) (x : ℤ) :
    (0 ≤ x → 0 ≤ x.tdiv n ∧ n * x.tdiv n ≤ x) ∧ (x ≤ 0 → x.tdiv n ≤ 0 ∧ x ≤ n * x.tdiv n) ∧
      x < n * x.tdiv n + n ∧ n * x.tdiv n - n < x := by
  have hsplit := Int.mul_tdiv_add_tmod x n
  have hlt := Int.tmod_lt_of_pos x hn
  have hgt := Int.lt_tmod_of_pos x hn
  refine ⟨?_, ?_, by omega, by omega⟩
  · intro hx
    have hmod := Int.tmod_nonneg n hx
    exact ⟨Int.tdiv_nonneg hx hn.le, by omega⟩
  · intro hx
    have hneg : 0 ≤ -x := by omega
    have hmod := Int.tmod_nonneg n hneg
    have hdiv := Int.tdiv_nonneg hneg hn.le
    rw [Int.neg_tmod] at hmod
    rw [Int.neg_tdiv] at hdiv
    exact ⟨by omega, by omega⟩

variable {clock : Clock} {e : Exchange}

theorem correction_spec (e : Exchange) :
    (0 ≤ e.doubled → 0 ≤ e.correction ∧ 2 * e.correction ≤ e.doubled) ∧
      (e.doubled ≤ 0 → e.correction ≤ 0 ∧ e.doubled ≤ 2 * e.correction) ∧
      e.doubled < 2 * e.correction + 2 ∧ 2 * e.correction - 2 < e.doubled :=
  tdiv_spec (by omega) e.doubled

/-- A slewed step goes towards the measured offset, not beyond it, and does go where an eighth
of the offset is at least a unit. -/
theorem slewed_step (hsynchronized : clock.synchronized = true)
    (hsmall : ¬(2 ^ 29 < |e.correction|)) :
    (0 ≤ e.doubled → 0 ≤ step clock e ∧ 2 * step clock e ≤ e.doubled) ∧
      (e.doubled ≤ 0 → step clock e ≤ 0 ∧ e.doubled ≤ 2 * step clock e) ∧
      (16 ≤ |e.doubled| → step clock e ≠ 0) := by
  have hstep : step clock e = e.correction.tdiv 8 := if_neg (by simpa [hsynchronized] using hsmall)
  obtain ⟨hpos, hneg, hlow, hhigh⟩ := correction_spec e
  obtain ⟨hpos8, hneg8, hlow8, hhigh8⟩ := tdiv_spec (n := 8) (by omega) e.correction
  rw [hstep]
  refine ⟨?_, ?_, ?_⟩
  · intro hx
    obtain ⟨hc, hle⟩ := hpos hx
    obtain ⟨hq, hle8⟩ := hpos8 hc
    exact ⟨hq, by omega⟩
  · intro hx
    obtain ⟨hc, hle⟩ := hneg hx
    obtain ⟨hq, hle8⟩ := hneg8 hc
    exact ⟨hq, by omega⟩
  · intro hfar hzero
    rw [hzero] at hlow8 hhigh8
    rcases le_total 0 e.doubled with hx | hx
    · rw [abs_of_nonneg hx] at hfar
      omega
    · rw [abs_of_nonpos hx] at hfar
      omega

/-! ## The measured offset -/

theorem accepted_spec (h : e.accepted = true) :
    e.remoteReceive.toNat ≤ e.remoteSend.toNat ∧ 0 ≤ e.delay ∧ e.delay < 2 ^ 32 := by
  simpa [Exchange.accepted] using h

/-- The correction is the true offset within half the delay and a rounding, modulo a period. -/
theorem correction_of_causal {offset : ℤ} (hcausal : e.Causal offset)
    (haccepted : e.accepted = true) :
    ∃ error period : ℤ, 2 * |error| ≤ e.delay + 1 ∧
      offset = e.correction + error + 2 ^ 64 * period := by
  obtain ⟨-, hnonneg, hshort⟩ := accepted_spec haccepted
  obtain ⟨-, -, hlow, hhigh⟩ := correction_spec e
  obtain ⟨t1, t4, t2, t3, h1, h4, h2, h3, hto, hturn, hback, hlocal, hperiod⟩ := hcausal
  unfold Shows at h1 h2 h3 h4
  have hdelay : e.delay = ((e.received.toNat : ℤ) - e.sent.toNat) -
      (e.remoteSend.toNat - e.remoteReceive.toNat) := rfl
  have hdoubled : e.doubled = ((e.remoteReceive.toNat : ℤ) - e.sent.toNat) +
      (e.remoteSend.toNat - e.received.toNat) := rfl
  -- Host and phone wrap together, since the delay is shorter than a period.
  have hwraps : t4 / 2 ^ 64 - t1 / 2 ^ 64 = t3 / 2 ^ 64 - t2 / 2 ^ 64 := by omega
  refine ⟨offset - e.correction - 2 ^ 64 * (t2 / 2 ^ 64 - t1 / 2 ^ 64),
    t2 / 2 ^ 64 - t1 / 2 ^ 64, ?_, by ring⟩
  have habs : |offset - e.correction - 2 ^ 64 * (t2 / 2 ^ 64 - t1 / 2 ^ 64)| ≤
      (e.delay + 1) / 2 := by
    rw [abs_le]
    omega
  omega

/-! ## Every sequence of exchanges -/

theorem observe_rejected (h : (observe clock e).2 = false) : (observe clock e).1 = clock := by
  unfold observe at h ⊢
  split at h
  · exact nomatch h
  · rename_i hrejected
    rw [if_neg hrejected]

theorem observe_accepted (h : (observe clock e).2 = true) : e.accepted = true ∧
    (observe clock e).1 =
      { clock with adjustment := clock.adjustment + step clock e, synchronized := true } := by
  unfold observe at h ⊢
  split at h
  · rename_i haccepted
    exact ⟨haccepted, by rw [if_pos haccepted]⟩
  · exact nomatch h

/-- The base never changes, and the clock is synchronized by the first accepted exchange. -/
theorem run_observe (base : UInt64) (es : List Exchange) :
    (run observe { base := base } es).1.base = base ∧
      ((run observe { base := base } es).1.synchronized = true ↔
        ∃ entry ∈ (run observe { base := base } es).2, entry.2 = true) := by
  apply run_history observe (I := fun clock history =>
    clock.base = base ∧ (clock.synchronized = true ↔ ∃ entry ∈ history, entry.2 = true))
  · simp
  · intro clock history e hinvariant
    obtain ⟨hbase, hsynchronized⟩ := hinvariant
    unfold observe
    split_ifs
    · exact ⟨hbase, by simp⟩
    · refine ⟨hbase, ?_⟩
      simp only [List.mem_append, List.mem_singleton, hsynchronized]
      constructor
      · rintro ⟨entry, hmem, htrue⟩
        exact ⟨entry, Or.inl hmem, htrue⟩
      · rintro ⟨entry, hmem | rfl, htrue⟩
        · exact ⟨entry, hmem, htrue⟩
        · exact nomatch htrue

theorem ofInt_period (period : ℤ) : UInt64.ofInt (2 ^ 64 * period) = 0 := by
  have hzero : UInt64.ofInt (2 ^ 64) = 0 := rfl
  rw [UInt64.ofInt_mul, hzero, UInt64.zero_mul]

/-- In any sequence of exchanges a rejected one leaves the clock as it is. After the first
accepted one and after every step the phone's clock, which is `offset` ahead of the unsteered
clock, reads what the clock reads within half the delay and a rounding. Every other accepted
exchange moves the clock towards the offset that it measures and not beyond. -/
theorem clock_correction (base : UInt64) (es : List Exchange) (e : Exchange) (offset : ℤ) :
    let clock := (run observe { base := base } es).1
    let next := (observe clock e).1
    let first := ∀ entry ∈ (run observe { base := base } es).2, entry.2 = false
    ((observe clock e).2 = false → next = clock) ∧
    ((observe clock e).2 = true → (first ∨ 2 ^ 29 < |e.correction|) →
      e.Causal (offset - clock.adjustment) → ∃ error : ℤ, 2 * |error| ≤ e.delay + 1 ∧
        ∀ elapsed, UInt64.ofInt (base.toNat + ticks elapsed + offset) =
          next.now elapsed + UInt64.ofInt error) ∧
    ((observe clock e).2 = true → ¬(first ∨ 2 ^ 29 < |e.correction|) →
      let moved := next.adjustment - clock.adjustment
      (0 ≤ e.doubled → 0 ≤ moved ∧ 2 * moved ≤ e.doubled) ∧
        (e.doubled ≤ 0 → moved ≤ 0 ∧ e.doubled ≤ 2 * moved) ∧
        (16 ≤ |e.doubled| → moved ≠ 0)) := by
  intro clock next first
  obtain ⟨hbase, hsynchronized⟩ := run_observe base es
  change clock.base = base at hbase
  have hfirst : first ↔ ¬clock.synchronized = true := by
    rw [hsynchronized]
    simp [first]
  refine ⟨observe_rejected, ?_, ?_⟩
  · intro haccepted hstep hcausal
    obtain ⟨hok, hnext⟩ := observe_accepted haccepted
    obtain ⟨error, period, hbound, hoffset⟩ := correction_of_causal hcausal hok
    refine ⟨error, hbound, ?_⟩
    intro elapsed
    have hwhole : step clock e = e.correction := by
      apply if_pos
      simpa [hfirst] using hstep
    have hsum : (base.toNat : ℤ) + ticks elapsed + offset =
        base.toNat + ticks elapsed + (clock.adjustment + e.correction) + error +
          2 ^ 64 * period := by
      linarith
    rw [hsum, UInt64.ofInt_add, ofInt_period, UInt64.add_zero, UInt64.ofInt_add]
    simp only [next, hnext, Clock.now, hwhole, hbase]
  · intro haccepted hslew moved
    rw [not_or, hfirst, not_not] at hslew
    obtain ⟨-, hnext⟩ := observe_accepted haccepted
    have hmoved : moved = step clock e := by
      simp only [moved, next, hnext]
      ring
    rw [hmoved]
    exact slewed_step hslew.1 hslew.2

/-- The phone's timestamps have wrapped and the host's have not. -/
def wrapped : Exchange := ⟨18446744073709551566, 18446744073709551606, 960, 965⟩

/-- A rejected exchange, a first one around the wrap, and a slewed one after it. -/
theorem clock_correction_wrapped :
    (observe (run observe { base := 7 } []).1 ⟨0, 0, 1, 0⟩).1 = (run observe { base := 7 } []).1 ∧
    (∃ error : ℤ, 2 * |error| ≤ wrapped.delay + 1 ∧ ∀ elapsed,
      UInt64.ofInt ((7 : UInt64).toNat + ticks elapsed + 1000) =
        (observe (run observe { base := 7 } []).1 wrapped).1.now elapsed + UInt64.ofInt error) ∧
    (observe (run observe { base := 7 } [wrapped]).1 ⟨2000, 2040, 2120, 2120⟩).1.adjustment -
      (run observe { base := 7 } [wrapped]).1.adjustment ≠ 0 := by
  refine ⟨(clock_correction 7 [] ⟨0, 0, 1, 0⟩ 0).1 (by decide), ?_, ?_⟩
  · apply (clock_correction 7 [] wrapped 1000).2.1 (by decide) (Or.inl (by simp))
    exact ⟨18446744073709551566, 18446744073709551606, 18446744073709552576, 18446744073709552581,
      rfl, rfl, rfl, rfl, by decide, by decide, by decide, by decide, by decide⟩
  · apply ((clock_correction 7 [wrapped] ⟨2000, 2040, 2120, 2120⟩ 0).2.2 (by decide) _).2.2
    · decide
    · rintro (hfirst | hfar)
      · exact absurd (hfirst (wrapped, true) (by decide)) (by decide)
      · exact absurd hfar (by decide)

end ProjectArgo.CarPlay.SessionClock
