import ProjectArgo.Library.Run
import ProjectArgo.Projection.Proto

/-!
# Liveness of a wireless peer

A session counts as alive while valid activity was seen within the last ten seconds. It asks
for activity with pings, whose timestamps are unique in the process, and a response counts only
for a ping of its own that is pending and has not expired. Times are in nanoseconds.
-/
namespace ProjectArgo.Projection.PeerLiveness

open Library.Run

/-- Not a timeout of the protocol; attempts over USB do not use it. -/
def wirelessPeerTimeout : ℕ := 10 * 10 ^ 9

def maxPending : ℕ := 8

/-- When the session was last seen alive, from its establishment on, and when a response was
last matched. -/
structure Activity where
  valid : Option ℕ := none
  matched : Option ℕ := none
  deriving DecidableEq

/-- The pings of a session that are not answered: their timestamps with when they were sent. -/
structure Liveness where
  activity : Activity := {}
  pending : List (ℕ × ℕ) := []
  deriving DecidableEq

namespace Liveness

variable (now : ℕ) (l : Liveness)

def establish : Liveness :=
  match l.activity.valid with
  | some _ => l
  | none => { l with activity := { l.activity with valid := some now } }

/-- `valid`: activity of the established session other than a response. -/
def renewed : Liveness :=
  { l with activity := { l.activity with valid := l.activity.valid.map fun _ => now } }

/-- A ping with the given timestamp. -/
def request (timestamp : ℕ) : Liveness :=
  let pending := l.pending.filter fun ping => now - ping.2 < wirelessPeerTimeout
  let pending := if pending.length = maxPending then pending.tail else pending
  { l with pending := pending ++ [(timestamp, now)] }

/-- The pending ping that a response is for. -/
def position (timestamp : ℕ) : Option ℕ :=
  l.pending.findIdx? fun ping => ping.1 = timestamp && now - ping.2 < wirelessPeerTimeout

/-- The ping at a position is answered. -/
def answered (index : ℕ) : Liveness :=
  { pending := l.pending.eraseIdx index
    activity := { matched := some now, valid := l.activity.valid.map fun _ => now } }

/-- A response with the timestamp that it matched. -/
def response (body : List UInt8) : Liveness × Option ℕ :=
  match numbers body with
  | .error _ => (l, none)
  | .ok fields =>
    match fields[1]? with
    | none => (l, none)
    | some timestamp =>
      match l.position now timestamp with
      | none => (l, none)
      | some index => (l.answered now index, some timestamp)

/-- When the watchdog gives the peer up. -/
def deadline : Option ℕ := l.activity.valid.map (· + wirelessPeerTimeout)

end Liveness

/-! ## The process -/

/-- The time, the last timestamp that any session has given out, and the session. -/
structure Process where
  now : ℕ := 0
  last : ℕ := 0
  session : Option Liveness := none
  deriving DecidableEq

/-- What happens to the process. `wall` is the wall clock, which may be set back. -/
inductive Event
  | advance (elapsed : ℕ)
  | session
  | request (wall : ℕ)
  | response (body : List UInt8)
  | establish
  | valid
  | watchdog
  deriving DecidableEq

inductive Outcome
  | quiet
  | issued (timestamp sent : ℕ)
  | matched (timestamp : ℕ)
  | lost
  deriving DecidableEq

def Process.deadline (p : Process) : Option ℕ := p.session.bind Liveness.deadline

def step (p : Process) : Event → Process × Outcome
  | .advance elapsed => ({ p with now := p.now + elapsed }, .quiet)
  | .session => ({ p with session := some {} }, .quiet)
  | .establish => ({ p with session := p.session.map (·.establish p.now) }, .quiet)
  | .valid => ({ p with session := p.session.map (·.renewed p.now) }, .quiet)
  | .request wall =>
    match p.session with
    | none => (p, .quiet)
    | some l =>
      let timestamp := max wall (p.last + 1)
      ({ p with last := timestamp, session := some (l.request p.now timestamp) },
        .issued timestamp p.now)
  | .response body =>
    match p.session with
    | none => (p, .quiet)
    | some l =>
      match l.response p.now body with
      | (_, none) => (p, .quiet)
      | (next, some timestamp) => ({ p with session := some next }, .matched timestamp)
  | .watchdog =>
    match p.deadline with
    | none => (p, .quiet)
    | some deadline =>
      if deadline ≤ p.now then ({ p with session := none }, .lost) else (p, .quiet)

/-! ## Pings and matches of a history -/

abbrev History := List (Event × Outcome)

def Outcome.issued? : Outcome → Option ℕ
  | .issued timestamp _ => some timestamp
  | _ => none

def Outcome.matched? : Outcome → Option ℕ
  | .matched timestamp => some timestamp
  | _ => none

/-- The timestamps given out, by any session. -/
def issued (history : History) : List ℕ := history.filterMap (·.2.issued?)

def matched (history : History) : List ℕ := history.filterMap (·.2.matched?)

/-- The pings of the session of the moment. -/
def ofSession : History → List (ℕ × ℕ) :=
  List.foldl (fun pings entry =>
    match entry with
    | (.session, _) => []
    | (_, .issued timestamp sent) => pings ++ [(timestamp, sent)]
    | _ => pings) []

section Concat

variable (history : History) (event : Event) (outcome : Outcome)

theorem issued_concat :
    issued (history ++ [(event, outcome)]) = issued history ++ outcome.issued?.toList := by
  rw [issued, List.filterMap_append]
  cases outcome <;> rfl

theorem matched_concat :
    matched (history ++ [(event, outcome)]) = matched history ++ outcome.matched?.toList := by
  rw [matched, List.filterMap_append]
  cases outcome <;> rfl

variable {outcome} in
theorem issued_concat_none (h : outcome.issued? = none) :
    issued (history ++ [(event, outcome)]) = issued history := by
  rw [issued_concat, h, Option.toList_none, List.append_nil]

variable {outcome} in
theorem matched_concat_none (h : outcome.matched? = none) :
    matched (history ++ [(event, outcome)]) = matched history := by
  rw [matched_concat, h, Option.toList_none, List.append_nil]

/-- Events other than a new session and a ping leave the pings of the session. -/
theorem ofSession_concat (hevent : event ≠ .session) (houtcome : outcome.issued? = none) :
    ofSession (history ++ [(event, outcome)]) = ofSession history := by
  rw [ofSession, List.foldl_concat]
  cases event with
  | session => exact absurd rfl hevent
  | _ =>
    cases outcome with
    | issued timestamp sent => exact nomatch houtcome
    | _ => rfl

end Concat

/-! ## What a step can do -/

/-- A response matches a pending ping of its timestamp, or changes nothing. -/
theorem response_cases (now : ℕ) (l : Liveness) (body : List UInt8) :
    (∃ fields timestamp index sent, numbers body = .ok fields ∧ fields[1]? = some timestamp ∧
      ∃ hindex : index < l.pending.length, l.pending[index] = (timestamp, sent) ∧
        now - sent < wirelessPeerTimeout ∧
        l.response now body = (l.answered now index, some timestamp)) ∨
      l.response now body = (l, none) := by
  unfold Liveness.response
  cases hnumbers : numbers body with
  | error text => exact Or.inr rfl
  | ok fields =>
    cases htimestamp : fields[1]? with
    | none => exact Or.inr (by simp only [htimestamp])
    | some timestamp =>
      cases hposition : l.position now timestamp with
      | none => exact Or.inr (by simp only [htimestamp, hposition])
      | some index =>
        obtain ⟨hindex, hfound, -⟩ := List.findIdx?_eq_some_iff_getElem.mp hposition
        simp only [Bool.and_eq_true, decide_eq_true_eq] at hfound
        refine Or.inl ⟨fields, timestamp, index, l.pending[index].2, rfl, htimestamp, hindex, ?_,
          hfound.2, by simp only [htimestamp, hposition]⟩
        rw [← hfound.1]

theorem step_response (p : Process) (body : List UInt8) :
    (∃ l fields timestamp index sent, p.session = some l ∧ numbers body = .ok fields ∧
      fields[1]? = some timestamp ∧
      ∃ hindex : index < l.pending.length, l.pending[index] = (timestamp, sent) ∧
        p.now - sent < wirelessPeerTimeout ∧ step p (.response body) =
          ({ p with session := some (l.answered p.now index) }, .matched timestamp)) ∨
      step p (.response body) = (p, .quiet) := by
  cases hsession : p.session with
  | none => exact Or.inr (by simp only [step, hsession])
  | some l =>
    rcases response_cases p.now l body with
      ⟨fields, timestamp, index, sent, hfields, htimestamp, hindex, hping, hfresh, heq⟩ | heq
    · refine Or.inl ⟨l, fields, timestamp, index, sent, rfl, hfields, htimestamp, hindex, hping,
        hfresh, ?_⟩
      simp only [step, hsession, heq]
    · exact Or.inr (by simp only [step, hsession, heq])

/-! ## The invariant -/

/-- Pings that are pending: few, distinct, of this session and not matched. -/
structure Pending (last : ℕ) (history : History) (pending : List (ℕ × ℕ)) : Prop where
  few : pending.length ≤ maxPending
  distinct : (pending.map Prod.fst).Nodup
  own : ∀ ping ∈ pending, ping ∈ ofSession history
  unmatched : ∀ ping ∈ pending, ping.1 ∉ matched history
  known : ∀ ping ∈ pending, ping.1 ≤ last

structure Kept (p : Process) (history : History) : Prop where
  ordered : (issued history).Pairwise (· < ·)
  known : ∀ timestamp ∈ issued history, timestamp ≤ p.last
  once : (matched history).Nodup
  answered : ∀ timestamp ∈ matched history, timestamp ≤ p.last
  pending : ∀ l, p.session = some l → Pending p.last history l.pending

theorem Kept.start : Kept {} [] := by
  refine ⟨List.Pairwise.nil, by simp [issued], List.nodup_nil, by simp [matched], ?_⟩
  intro l hl
  exact nomatch hl

variable {p next : Process} {history : History} {event : Event} {outcome : Outcome}

/-- Steps that issue and match nothing and touch no pending ping. -/
theorem Kept.quiet (h : Kept p history) (hevent : event ≠ .session)
    (hissued : outcome.issued? = none) (hmatched : outcome.matched? = none)
    (hlast : next.last = p.last)
    (hpending : ∀ l, next.session = some l → ∃ old, p.session = some old ∧
      l.pending = old.pending) : Kept next (history ++ [(event, outcome)]) := by
  have hsame := ofSession_concat history event outcome hevent hissued
  have hm := matched_concat_none history event hmatched
  have hi := issued_concat_none history event hissued
  refine ⟨hi ▸ h.ordered, hi ▸ hlast ▸ h.known, hm ▸ h.once, hm ▸ hlast ▸ h.answered, ?_⟩
  intro l hl
  obtain ⟨old, hold, heq⟩ := hpending l hl
  have hkept := h.pending old hold
  rw [heq, hlast]
  exact ⟨hkept.few, hkept.distinct, hsame ▸ hkept.own, hm ▸ hkept.unmatched, hkept.known⟩

theorem Pending.request {last now timestamp wall : ℕ} {l : Liveness}
    (h : Pending last history l.pending) (hlast : last < timestamp)
    (hmatched : ∀ other ∈ matched history, other ≤ last) :
    Pending timestamp (history ++ [(.request wall, .issued timestamp now)])
      (l.request now timestamp).pending := by
  have hm : matched (history ++ [(.request wall, .issued timestamp now)]) = matched history :=
    matched_concat_none _ _ rfl
  have hown : ofSession (history ++ [(.request wall, .issued timestamp now)]) =
      ofSession history ++ [(timestamp, now)] := by
    rw [ofSession, List.foldl_concat]
  -- What is left of the pending pings, after expiry and the limit.
  obtain ⟨kept, hkept, hsub, hfew⟩ : ∃ kept, (l.request now timestamp).pending =
      kept ++ [(timestamp, now)] ∧ kept.Sublist l.pending ∧ kept.length < maxPending := by
    have hfilter := List.filter_sublist (l := l.pending)
      (p := fun ping => now - ping.2 < wirelessPeerTimeout)
    have hlength := hfilter.length_le.trans h.few
    refine ⟨_, rfl, ?_⟩
    split
    · rename_i hfull
      refine ⟨(List.tail_sublist _).trans hfilter, ?_⟩
      rw [List.length_tail, hfull]
      decide
    · rename_i hroom
      exact ⟨hfilter, lt_of_le_of_ne hlength hroom⟩
  rw [hkept]
  refine ⟨?_, ?_, ?_, ?_, ?_⟩
  · rw [List.length_append, List.length_singleton]
    exact hfew
  · rw [List.map_append, List.nodup_append]
    refine ⟨h.distinct.sublist (hsub.map _), List.nodup_singleton _, ?_⟩
    intro old hold new hnew
    obtain ⟨ping, hping, rfl⟩ := List.mem_map.mp hold
    cases List.mem_singleton.mp hnew
    exact ne_of_lt ((h.known ping (hsub.subset hping)).trans_lt hlast)
  · intro ping hping
    rw [hown]
    rcases List.mem_append.mp hping with hold | hnew
    · exact List.mem_append_left _ (h.own ping (hsub.subset hold))
    · exact List.mem_append_right _ hnew
  · intro ping hping
    rw [hm]
    rcases List.mem_append.mp hping with hold | hnew
    · exact h.unmatched ping (hsub.subset hold)
    · cases List.mem_singleton.mp hnew
      exact fun hmem => absurd (hmatched timestamp hmem) (by omega)
  · intro ping hping
    rcases List.mem_append.mp hping with hold | hnew
    · exact (h.known ping (hsub.subset hold)).trans hlast.le
    · cases List.mem_singleton.mp hnew
      exact le_rfl

/-- The ping that is answered is pending no more. -/
theorem Pending.answered {last now index timestamp sent : ℕ} {l : Liveness} {body : List UInt8}
    (h : Pending last history l.pending) (hindex : index < l.pending.length)
    (hping : l.pending[index] = (timestamp, sent)) :
    Pending last (history ++ [(.response body, .matched timestamp)])
      (l.answered now index).pending := by
  have hsub : (l.answered now index).pending.Sublist l.pending := List.eraseIdx_sublist _ _
  have hperm := List.getElem_cons_eraseIdx_perm hindex
  have hdistinct := (hperm.map Prod.fst).nodup_iff.mpr h.distinct
  rw [hping, List.map_cons, List.nodup_cons] at hdistinct
  refine ⟨hsub.length_le.trans h.few, hdistinct.2, ?_, ?_, ?_⟩
  · intro ping hmem
    rw [ofSession_concat _ _ _ (by simp) rfl]
    exact h.own ping (hsub.subset hmem)
  · intro ping hmem
    rw [matched_concat, Outcome.matched?, Option.toList_some, List.mem_append, not_or,
      List.mem_singleton]
    refine ⟨h.unmatched ping (hsub.subset hmem), ?_⟩
    intro heq
    have hfirst : ping.1 ∈ (l.pending.eraseIdx index).map Prod.fst := List.mem_map_of_mem hmem
    exact hdistinct.1 (heq ▸ hfirst)
  · intro ping hmem
    exact h.known ping (hsub.subset hmem)

theorem Kept.step (h : Kept p history) (event : Event) :
    Kept (step p event).1 (history ++ [(event, (step p event).2)]) := by
  cases event with
  | advance elapsed => exact h.quiet (by simp) rfl rfl rfl fun l hl => ⟨l, hl, rfl⟩
  | session =>
    have hm := matched_concat_none history .session (show Outcome.quiet.matched? = none from rfl)
    have hi := issued_concat_none history .session (show Outcome.quiet.issued? = none from rfl)
    refine ⟨hi ▸ h.ordered, hi ▸ h.known, hm ▸ h.once, hm ▸ h.answered, ?_⟩
    intro l hl
    cases hl
    exact ⟨by decide, List.nodup_nil, by simp, by simp, by simp⟩
  | establish =>
    refine h.quiet (by simp) ?_ ?_ ?_ ?_
    · rfl
    · rfl
    · rfl
    intro l hl
    obtain ⟨old, hold, rfl⟩ := Option.map_eq_some_iff.mp hl
    refine ⟨old, hold, ?_⟩
    unfold Liveness.establish
    split <;> rfl
  | valid =>
    refine h.quiet (by simp) ?_ ?_ ?_ ?_
    · rfl
    · rfl
    · rfl
    intro l hl
    obtain ⟨old, hold, rfl⟩ := Option.map_eq_some_iff.mp hl
    exact ⟨old, hold, rfl⟩
  | watchdog =>
    simp only [PeerLiveness.step]
    split
    · exact h.quiet (by simp) rfl rfl rfl fun l hl => ⟨l, hl, rfl⟩
    split
    · exact h.quiet (by simp) rfl rfl rfl fun l hl => nomatch hl
    · exact h.quiet (by simp) rfl rfl rfl fun l hl => ⟨l, hl, rfl⟩
  | request wall =>
    cases hsession : p.session with
    | none =>
      have hstep : PeerLiveness.step p (.request wall) = (p, .quiet) := by
        simp only [PeerLiveness.step, hsession]
      rw [hstep]
      exact h.quiet (by simp) rfl rfl rfl fun l hl => ⟨l, hl, rfl⟩
    | some l =>
      have hstep : PeerLiveness.step p (.request wall) = ({ p with
          last := max wall (p.last + 1)
          session := some (l.request p.now (max wall (p.last + 1))) },
          .issued (max wall (p.last + 1)) p.now) := by
        simp only [PeerLiveness.step, hsession]
      have hlast : p.last < max wall (p.last + 1) := by omega
      rw [hstep]
      dsimp only
      refine ⟨?_, ?_, ?_, ?_, ?_⟩
      · rw [issued_concat, Outcome.issued?, Option.toList_some, List.pairwise_append]
        refine ⟨h.ordered, List.pairwise_singleton _ _, ?_⟩
        intro old hold new hnew
        cases List.mem_singleton.mp hnew
        exact (h.known old hold).trans_lt hlast
      · rw [issued_concat, Outcome.issued?, Option.toList_some]
        intro timestamp hmem
        rcases List.mem_append.mp hmem with hold | hnew
        · exact (h.known timestamp hold).trans hlast.le
        · exact (List.mem_singleton.mp hnew).le
      · rw [matched_concat_none _ _ rfl]
        exact h.once
      · rw [matched_concat_none _ _ rfl]
        intro timestamp hmem
        exact (h.answered timestamp hmem).trans hlast.le
      · intro next hnext
        cases hnext
        exact (h.pending l hsession).request hlast h.answered
  | response body =>
    rcases step_response p body with
      ⟨l, fields, timestamp, index, sent, hsession, -, -, hindex, hping, -, hstep⟩ | hstep
    · rw [hstep]
      dsimp only
      have hpending := h.pending l hsession
      have hmem : (timestamp, sent) ∈ l.pending := hping ▸ List.getElem_mem hindex
      refine ⟨?_, ?_, ?_, ?_, ?_⟩
      · rw [issued_concat_none _ _ rfl]
        exact h.ordered
      · rw [issued_concat_none _ _ rfl]
        exact h.known
      · rw [matched_concat, Outcome.matched?, Option.toList_some, List.nodup_append]
        refine ⟨h.once, List.nodup_singleton _, ?_⟩
        intro old hold new hnew heq
        cases List.mem_singleton.mp hnew
        exact hpending.unmatched _ hmem (heq ▸ hold)
      · rw [matched_concat, Outcome.matched?, Option.toList_some]
        intro other hother
        rcases List.mem_append.mp hother with hold | hnew
        · exact h.answered other hold
        · cases List.mem_singleton.mp hnew
          exact hpending.known _ hmem
      · intro next hnext
        cases hnext
        exact hpending.answered hindex hping
    · rw [hstep]
      exact h.quiet (by simp) rfl rfl rfl fun l hl => ⟨l, hl, rfl⟩

theorem run_kept (events : List Event) :
    Kept (run PeerLiveness.step {} events).1 (run PeerLiveness.step {} events).2 :=
  run_history _ Kept.start (fun _ _ event h => h.step event) events

/-! ## Before a session is established -/

theorem deadline_eq_none {p : Process} :
    p.deadline = none ↔ ∀ l, p.session = some l → l.activity.valid = none := by
  unfold Process.deadline Liveness.deadline
  cases p.session with
  | none => simp
  | some l => simp

/-- Only an establishment sets a deadline where there is none. -/
theorem step_unestablished (h : p.deadline = none) (hevent : event ≠ .establish) :
    (PeerLiveness.step p event).1.deadline = none ∧ (PeerLiveness.step p event).2 ≠ .lost := by
  have hvalid := deadline_eq_none.mp h
  cases event with
  | establish => exact absurd rfl hevent
  | advance elapsed => exact ⟨h, by simp [PeerLiveness.step]⟩
  | session => exact ⟨rfl, by simp [PeerLiveness.step]⟩
  | valid =>
    refine ⟨deadline_eq_none.mpr ?_, by simp [PeerLiveness.step]⟩
    intro l hl
    obtain ⟨old, hold, rfl⟩ := Option.map_eq_some_iff.mp hl
    simp [Liveness.renewed, hvalid old hold]
  | request wall =>
    simp only [PeerLiveness.step]
    cases hsession : p.session with
    | none => exact ⟨h, by simp⟩
    | some l =>
      refine ⟨deadline_eq_none.mpr ?_, by simp⟩
      intro next hnext
      cases hnext
      exact hvalid l hsession
  | response body =>
    rcases step_response p body with ⟨l, _, _, index, _, hsession, -, -, -, -, -, hstep⟩ | hstep
    · rw [hstep]
      refine ⟨deadline_eq_none.mpr ?_, by simp⟩
      intro next hnext
      cases hnext
      simp [Liveness.answered, hvalid l hsession]
    · rw [hstep]
      exact ⟨h, by simp⟩
  | watchdog =>
    simp [PeerLiveness.step, h]

theorem run_unestablished (before : List Event) {after : List Event}
    (h : ∀ event ∈ after, event ≠ .establish) :
    (run PeerLiveness.step {} (before ++ .session :: after)).1.deadline = none := by
  induction after using List.reverseRecOn with
  | nil =>
    rw [run_concat]
    rfl
  | append_singleton after event ih =>
    have hsplit : before ++ .session :: (after ++ [event]) =
        before ++ .session :: after ++ [event] := by simp
    rw [hsplit, run_concat]
    exact (step_unestablished (ih fun other hother => h other (List.mem_append_left _ hother))
      (h event (by simp))).1

/-- In every run the timestamps given out increase, a ping is matched at most once and at most
eight are pending. A response changes nothing unless it bears the timestamp of a ping of this
session that is pending and not expired; then it renews the deadline of an established session.
Until a session is established it has no deadline, so nothing renews it and nothing expires. -/
theorem liveness_accounting (events : List Event) :
    let p := (run PeerLiveness.step {} events).1
    let history := (run PeerLiveness.step {} events).2
    (matched history).Nodup ∧ (issued history).Pairwise (· < ·) ∧
    (∀ l, p.session = some l → l.pending.length ≤ maxPending) ∧
    (∀ body, PeerLiveness.step p (.response body) = (p, .quiet) ∨
      ∃ l fields timestamp sent, numbers body = .ok fields ∧ fields[1]? = some timestamp ∧
        p.session = some l ∧ (timestamp, sent) ∈ l.pending ∧
        (timestamp, sent) ∈ ofSession history ∧ p.now - sent < wirelessPeerTimeout ∧
        timestamp ∉ matched history ∧
        (PeerLiveness.step p (.response body)).2 = .matched timestamp ∧
        (PeerLiveness.step p (.response body)).1.deadline =
          p.deadline.map fun _ => p.now + wirelessPeerTimeout) ∧
    ∀ before after, events = before ++ .session :: after →
      (∀ event ∈ after, event ≠ .establish) → p.deadline = none ∧
        ∀ event, event ≠ .establish → (PeerLiveness.step p event).1.deadline = none ∧
          (PeerLiveness.step p event).2 ≠ .lost := by
  intro p history
  have hkept : Kept p history := run_kept events
  refine ⟨hkept.once, hkept.ordered, fun l hl => (hkept.pending l hl).few, ?_, ?_⟩
  · intro body
    rcases step_response p body with
      ⟨l, fields, timestamp, index, sent, hsession, hfields, htimestamp, hindex, hping, hfresh,
        hstep⟩ | hstep
    · have hpending := hkept.pending l hsession
      have hmem : (timestamp, sent) ∈ l.pending := hping ▸ List.getElem_mem hindex
      refine Or.inr ⟨l, fields, timestamp, sent, hfields, htimestamp, hsession, hmem,
        hpending.own _ hmem, hfresh, hpending.unmatched _ hmem, by rw [hstep], ?_⟩
      rw [hstep]
      simp only [Process.deadline, hsession, Option.bind_some, Liveness.deadline,
        Liveness.answered, Option.map_map, Function.comp_def]
    · exact Or.inl hstep
  · rintro before after rfl hafter
    have hnone := run_unestablished before hafter
    exact ⟨hnone, fun event hevent => step_unestablished hnone hevent⟩

/-- A session that has sent a ping and is not established. -/
theorem liveness_accounting_unestablished :
    (run PeerLiveness.step {} [.session, .request 5, .advance 3]).1.deadline = none :=
  ((liveness_accounting [.session, .request 5, .advance 3]).2.2.2.2 [] [.request 5, .advance 3]
    rfl (by simp)).1

end ProjectArgo.Projection.PeerLiveness
