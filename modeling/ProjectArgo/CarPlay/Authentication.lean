import Mathlib.Data.List.Forall2
import ProjectArgo.Library.Run
import ProjectArgo.CarPlay.Csm

/-!
# Accessory authentication

The coprocessor handshake is a fixed script of five calls under one deadline.
`gates` states that script as predicates on calls; every answered call that is
not a deadline check either passes the next gate or closes the machine.
-/
namespace ProjectArgo.CarPlay

open Csm Library.Run

inductive AuthenticationState where
  | awaitCertificateRequest
  | awaitCertificate
  | awaitChallenge
  | awaitSignature
  | awaitResult
  | authenticated
  | closed
  deriving DecidableEq

inductive AuthenticationAction where
  | readRealCertificate
  | signWithRealCoprocessor (challenge : List UInt8)
  | send (message : Message)
  | complete
  deriving DecidableEq

/-- Session-scoped authentication sequencing. -/
structure Authentication where
  state : AuthenticationState
  deadline : ℕ
  deriving DecidableEq

namespace Authentication

open AuthenticationState

/-- Fifteen seconds. -/
def timeLimit : ℕ := 15 * 1000000000

def new (now : ℕ) : Authentication := ⟨awaitCertificateRequest, saturatingAdd now timeLimit⟩

def fail (a : Authentication) : Authentication := { a with state := closed }

def reject {α : Type} (a : Authentication) (e : Error) : Authentication × Except Error α :=
  (a.fail, .error e)

def checkDeadline (a : Authentication) (now : ℕ) : Authentication × Except Error Unit :=
  if a.state = closed then (a, .error .state)
  else if a.state ≠ authenticated ∧ now ≥ a.deadline then a.reject .timeout
  else (a, .ok ())

def receive (a : Authentication) (message : Message) (now : ℕ) :
    Authentication × Except Error AuthenticationAction :=
  match a.checkDeadline now with
  | (a, .error e) => (a, .error e)
  | (a, .ok ()) =>
    if message.id = authFailed then a.reject .rejected
    else if a.state = awaitCertificateRequest ∧ message.id = requestCertificate ∧
        message.parameters = [] then
      ({ a with state := awaitCertificate }, .ok .readRealCertificate)
    else if a.state = awaitChallenge ∧ message.id = requestSignature then
      match message.one 0 with
      | .error e => a.reject e
      | .ok challenge =>
        if message.parameters.length ≠ 1 ∨ challenge.length ∉ [20, 32] then a.reject .bounds
        else ({ a with state := awaitSignature }, .ok (.signWithRealCoprocessor challenge))
    else if a.state = awaitResult ∧ message.id = authSucceeded ∧ message.parameters = [] then
      ({ a with state := authenticated }, .ok .complete)
    else a.reject .state

/-- `certificate` and `signature`: hand over a bounded string in one state and send it on. -/
def supply (a : Authentication) (expected next : AuthenticationState) (limit : ℕ) (id : UInt16)
    (value : List UInt8) (now : ℕ) : Authentication × Except Error AuthenticationAction :=
  match a.checkDeadline now with
  | (a, .error e) => (a, .error e)
  | (a, .ok ()) =>
    if a.state ≠ expected then a.reject .state
    else if value = [] ∨ value.length > limit then a.reject .bounds
    else ({ a with state := next }, .ok (.send ⟨id, [⟨0, value⟩]⟩))

def certificate (a : Authentication) (certificate : List UInt8) (now : ℕ) :
    Authentication × Except Error AuthenticationAction :=
  a.supply awaitCertificate awaitChallenge 8192 Csm.certificate certificate now

def signature (a : Authentication) (signature : List UInt8) (now : ℕ) :
    Authentication × Except Error AuthenticationAction :=
  a.supply awaitSignature awaitResult 512 Csm.signature signature now

inductive Call where
  | receive (message : Message) (now : ℕ)
  | certificate (value : List UInt8) (now : ℕ)
  | signature (value : List UInt8) (now : ℕ)
  | checkDeadline (now : ℕ)
  | fail
  deriving DecidableEq

inductive Reply where
  | action (result : Except Error AuthenticationAction)
  | done (result : Except Error Unit)

def step (a : Authentication) : Call → Authentication × Reply
  | .receive message now => let next := a.receive message now; (next.1, .action next.2)
  | .certificate value now => let next := a.certificate value now; (next.1, .action next.2)
  | .signature value now => let next := a.signature value now; (next.1, .action next.2)
  | .checkDeadline now => let next := a.checkDeadline now; (next.1, .done next.2)
  | .fail => (a.fail, .done (.ok ()))

namespace Reply

def failed : Reply → Bool
  | .action (.error _) => true
  | .done (.error _) => true
  | _ => false

def completes : Reply → Bool
  | .action (.ok .complete) => true
  | _ => false

end Reply

/-! ## The script of the handshake -/

namespace Call

/-- A deadline check; every other call takes part in the handshake. -/
def polls : Call → Bool
  | .checkDeadline _ => true
  | _ => false

/-- The time argument lies before the deadline; `fail` carries no time. -/
def before (deadline : ℕ) : Call → Bool
  | .receive _ now | .certificate _ now | .signature _ now | .checkDeadline now => now < deadline
  | .fail => true

def requestsCertificate : Call → Bool
  | .receive message _ => message.id == requestCertificate && message.parameters.isEmpty
  | _ => false

def suppliesCertificate : Call → Bool
  | .certificate value _ => !value.isEmpty && value.length ≤ 8192
  | _ => false

/-- One challenge of 20 or 32 bytes and nothing else in the message. -/
def challenges : Call → Bool
  | .receive message _ =>
    message.id == requestSignature &&
      match message.parameters with
      | [p] => p.id == 0 && (p.value.length == 20 || p.value.length == 32)
      | _ => false
  | _ => false

def suppliesSignature : Call → Bool
  | .signature value _ => !value.isEmpty && value.length ≤ 512
  | _ => false

def succeeds : Call → Bool
  | .receive message _ => message.id == authSucceeded && message.parameters.isEmpty
  | _ => false

end Call

/-- The five calls of a completed handshake, in order. -/
def gates : List (Call → Bool) :=
  [Call.requestsCertificate, Call.suppliesCertificate, Call.challenges, Call.suppliesSignature,
    Call.succeeds]

/-- How many gates a live state has passed. -/
def progress : AuthenticationState → ℕ
  | awaitCertificateRequest => 0
  | awaitCertificate => 1
  | awaitChallenge => 2
  | awaitSignature => 3
  | awaitResult => 4
  | authenticated => 5
  | closed => 5

variable {a : Authentication}

/-- A passed deadline check leaves the machine alone, and was in time unless the handshake is
already over. -/
theorem checkDeadline_cases (a : Authentication) (now : ℕ) :
    (∃ e, a.checkDeadline now = (a.fail, .error e)) ∨
      (a.state ≠ closed ∧ (a.state = authenticated ∨ now < a.deadline) ∧
        a.checkDeadline now = (a, .ok ())) := by
  unfold checkDeadline
  split_ifs with hclosed hlate
  · refine Or.inl ⟨.state, ?_⟩
    cases a
    simp_all [fail]
  · exact Or.inl ⟨.timeout, rfl⟩
  · refine Or.inr ⟨hclosed, ?_, rfl⟩
    by_contra hnot
    exact hlate ⟨fun h => hnot (Or.inl h), Nat.le_of_not_lt fun h => hnot (Or.inr h)⟩

theorem one_eq_ok {message : Message} {id : UInt16} {value : List UInt8}
    (h : message.one id = .ok value) (hsingle : message.parameters.length = 1) :
    message.parameters = [⟨id, value⟩] := by
  obtain ⟨p, hp⟩ := List.length_eq_one_iff.mp hsingle
  unfold Message.one at h
  rw [hp] at h ⊢
  by_cases hid : p.id = id
  · simp [hid] at h
    rw [← hid, ← h]
  · simp [hid] at h

/-- What an answered call can do: it closes the machine, or it is in time and passes the next
gate. -/
theorem receive_cases (a : Authentication) (message : Message) (now : ℕ) :
    (∃ e, a.receive message now = (a.fail, .error e)) ∨
      ∃ next action, a.receive message now = ({ a with state := next }, .ok action) ∧
        now < a.deadline ∧ a.state ≠ closed ∧ next ≠ closed ∧
        (action = .complete ↔ next = authenticated) ∧ progress next = progress a.state + 1 ∧
        ∃ gate, gates[progress a.state]? = some gate ∧ gate (.receive message now) := by
  unfold receive
  obtain ⟨e, hd⟩ | ⟨-, htime, hd⟩ := checkDeadline_cases a now
  · exact Or.inl ⟨e, by rw [hd]⟩
  · rw [hd]
    dsimp only
    split_ifs with hfailed hrequest hchallenge hsuccess
    · exact Or.inl ⟨_, rfl⟩
    · obtain ⟨hstate, hid, hnil⟩ := hrequest
      refine Or.inr ⟨awaitCertificate, .readRealCertificate, rfl, ?_⟩
      simp_all [progress, gates, Call.requestsCertificate]
    · obtain ⟨hstate, hid⟩ := hchallenge
      split
      · exact Or.inl ⟨_, rfl⟩
      · rename_i challenge hone
        split_ifs with hbad
        · exact Or.inl ⟨_, rfl⟩
        · simp only [not_or, ne_eq, not_not] at hbad
          have hparameters := one_eq_ok hone hbad.1
          refine Or.inr ⟨awaitSignature, .signWithRealCoprocessor challenge, rfl, ?_⟩
          simp_all [progress, gates, Call.challenges]
    · obtain ⟨hstate, hid, hnil⟩ := hsuccess
      refine Or.inr ⟨authenticated, .complete, rfl, ?_⟩
      simp_all [progress, gates, Call.succeeds]
    · exact Or.inl ⟨_, rfl⟩

theorem supply_cases (a : Authentication) (expected next : AuthenticationState) (limit : ℕ)
    (id : UInt16) (value : List UInt8) (now : ℕ) (hexpected : expected ≠ authenticated) :
    (∃ e, a.supply expected next limit id value now = (a.fail, .error e)) ∨
      (a.state = expected ∧ now < a.deadline ∧ value ≠ [] ∧ value.length ≤ limit ∧
        a.supply expected next limit id value now =
          ({ a with state := next }, .ok (.send ⟨id, [⟨0, value⟩]⟩))) := by
  unfold supply
  obtain ⟨e, hd⟩ | ⟨-, htime, hd⟩ := checkDeadline_cases a now
  · exact Or.inl ⟨e, by rw [hd]⟩
  · rw [hd]
    dsimp only
    split_ifs with hstate hbad
    · exact Or.inl ⟨_, rfl⟩
    · exact Or.inl ⟨_, rfl⟩
    · simp only [not_or, gt_iff_lt, not_lt] at hbad
      rw [not_not] at hstate
      exact Or.inr ⟨hstate, htime.resolve_left (hstate ▸ hexpected), hbad.1, hbad.2, rfl⟩

/-- The cases of a whole step. -/
theorem step_cases (a : Authentication) (call : Call) :
    ((a.step call).1 = a.fail ∧ (a.step call).2.completes = false ∧
      ((a.step call).2.failed = true ∨ call = .fail)) ∨
    (call.polls = true ∧ a.state ≠ closed ∧ (a.state = authenticated ∨ call.before a.deadline) ∧
      a.step call = (a, .done (.ok ()))) ∨
    ∃ next, (a.step call).1 = { a with state := next } ∧ (a.step call).2.failed = false ∧
      call.polls = false ∧ call.before a.deadline ∧ a.state ≠ closed ∧ next ≠ closed ∧
      ((a.step call).2.completes = true ↔ next = authenticated) ∧
      progress next = progress a.state + 1 ∧
      ∃ gate, gates[progress a.state]? = some gate ∧ gate call := by
  cases call with
  | receive message now =>
    obtain ⟨e, h⟩ | ⟨next, action, h, htime, hopen, hnext, hdone, hprogress, hgate⟩ :=
      receive_cases a message now
    · left
      simp [step, h, Reply.failed, Reply.completes]
    · right
      right
      refine ⟨next, by simp [step, h], by simp [step, h, Reply.failed], rfl,
        by simpa [Call.before] using htime, hopen, hnext, ?_, hprogress, hgate⟩
      rw [← hdone]
      simp only [step, h]
      cases action <;> simp [Reply.completes]
  | certificate value now =>
    obtain ⟨e, h⟩ | ⟨hstate, htime, hne, hlen, h⟩ :=
      supply_cases a awaitCertificate awaitChallenge 8192 Csm.certificate value now (by decide)
    · left
      simp [step, certificate, h, Reply.failed, Reply.completes]
    · right
      right
      refine ⟨awaitChallenge, ?_⟩
      simp_all [step, certificate, Reply.failed, Reply.completes, Call.polls, Call.before, progress,
        gates, Call.suppliesCertificate]
  | signature value now =>
    obtain ⟨e, h⟩ | ⟨hstate, htime, hne, hlen, h⟩ :=
      supply_cases a awaitSignature awaitResult 512 Csm.signature value now (by decide)
    · left
      simp [step, signature, h, Reply.failed, Reply.completes]
    · right
      right
      refine ⟨awaitResult, ?_⟩
      simp_all [step, signature, Reply.failed, Reply.completes, Call.polls, Call.before, progress,
        gates, Call.suppliesSignature]
  | checkDeadline now =>
    obtain ⟨e, h⟩ | ⟨hopen, htime, h⟩ := checkDeadline_cases a now
    · left
      simp [step, h, Reply.failed, Reply.completes]
    · right
      left
      exact ⟨rfl, hopen, htime.imp_right (by simp [Call.before]), by simp [step, h]⟩
  | fail => exact Or.inl ⟨rfl, rfl, Or.inr rfl⟩

theorem step_failed (call : Call) (h : (a.step call).2.failed = true) :
    (a.step call).1.state = closed := by
  obtain ⟨hs, -⟩ | ⟨-, -, -, hs⟩ | ⟨next, -, hok, -⟩ := step_cases a call
  · rw [hs]
    rfl
  · rw [hs] at h
    contradiction
  · rw [hok] at h
    contradiction

theorem step_closed (call : Call) (h : a.state = closed) : (a.step call).1.state = closed := by
  obtain ⟨hs, -⟩ | ⟨-, hopen, -⟩ | ⟨-, -, -, -, -, hopen, -⟩ := step_cases a call
  · rw [hs]
    rfl
  · exact absurd h hopen
  · exact absurd h hopen

/-! ## Histories -/

/-- The calls of a history that take part in the handshake. -/
def handshake (history : List (Call × Reply)) : List Call :=
  (history.map (·.1)).filter fun call => !call.polls

/-- The history up to and including a completing call is one timely pass through the gates. -/
def Ceremony (deadline : ℕ) (history : List (Call × Reply)) : Prop :=
  List.Forall₂ (fun gate call => gate call = true) gates (handshake history) ∧
    ∀ entry ∈ history, entry.2.failed = false ∧ entry.1.before deadline = true

/-- The history passed exactly the gates before the state, in time, without completing. -/
structure Underway (a : Authentication) (history : List (Call × Reply)) : Prop where
  passed : List.Forall₂ (fun gate call => gate call = true) (gates.take (progress a.state))
    (handshake history)
  timely : ∀ entry ∈ history, entry.2.failed = false ∧ entry.1.before a.deadline = true
  incomplete : ∀ entry ∈ history, entry.2.completes = false

/-- Some prefix is a ceremony ending in the only completing call. -/
def Completed (deadline : ℕ) (history : List (Call × Reply)) : Prop :=
  ∃ pre entry post, history = pre ++ entry :: post ∧ entry.2.completes = true ∧
    Ceremony deadline (pre ++ [entry]) ∧ (∀ e ∈ pre ++ post, e.2.completes = false)

structure Inv (now : ℕ) (a : Authentication) (history : List (Call × Reply)) : Prop where
  deadline : a.deadline = saturatingAdd now timeLimit
  live : a.state ≠ closed → a.state ≠ authenticated → Underway a history
  completed : (∃ entry ∈ history, entry.2.completes = true) → Completed a.deadline history

theorem new_inv (now : ℕ) : Inv now (new now) [] where
  deadline := rfl
  live := fun _ _ =>
    { passed := List.Forall₂.nil
      timely := by simp
      incomplete := by simp }
  completed := by simp

theorem handshake_concat (history : List (Call × Reply)) (call : Call) (reply : Reply) :
    handshake (history ++ [(call, reply)]) =
      handshake history ++ if call.polls then [] else [call] := by
  cases h : call.polls <;> simp [handshake, h]

theorem Completed.concat {deadline : ℕ} {history : List (Call × Reply)} {entry : Call × Reply}
    (h : Completed deadline history) (hentry : entry.2.completes = false) :
    Completed deadline (history ++ [entry]) := by
  obtain ⟨pre, first, post, rfl, hfirst, hceremony, hrest⟩ := h
  refine ⟨pre, first, post ++ [entry], by simp, hfirst, hceremony, ?_⟩
  intro e he
  rw [← List.append_assoc, List.mem_append] at he
  rcases he with he | he
  · exact hrest e he
  · rw [List.mem_singleton.mp he, hentry]

/-- A step that does not complete keeps what is known about completion. -/
theorem completed_concat {deadline : ℕ} {history : List (Call × Reply)} {call : Call}
    {reply : Reply} (hreply : reply.completes = false)
    (h : (∃ entry ∈ history, entry.2.completes = true) → Completed deadline history) :
    (∃ entry ∈ history ++ [(call, reply)], entry.2.completes = true) →
      Completed deadline (history ++ [(call, reply)]) := by
  rintro ⟨entry, hmem, hdone⟩
  rcases List.mem_append.mp hmem with hold | hnew
  · exact (h ⟨entry, hold, hdone⟩).concat hreply
  · rw [List.mem_singleton.mp hnew] at hdone
    simp [hreply] at hdone

theorem forall₂_concat {α β : Type} {r : α → β → Prop} {xs : List α} {ys : List β} {x : α} {y : β}
    (h : List.Forall₂ r xs ys) (hxy : r x y) : List.Forall₂ r (xs ++ [x]) (ys ++ [y]) :=
  List.rel_append h (List.Forall₂.cons hxy List.Forall₂.nil)

/-- Passing the next gate extends a handshake that is under way. -/
theorem Underway.advance {history : List (Call × Reply)} {call : Call}
    {gate : Call → Bool} (h : Underway a history) (reply : Reply) (hgate : gates[progress a.state]? = some gate)
    (hpass : gate call = true) (hcall : call.polls = false) :
    List.Forall₂ (fun gate call => gate call = true) (gates.take (progress a.state + 1))
      (handshake (history ++ [(call, reply)])) := by
  rw [handshake_concat, hcall, List.take_add_one, hgate]
  exact forall₂_concat h.passed hpass

theorem step_inv {now : ℕ} {history : List (Call × Reply)} (h : Inv now a history) (call : Call) :
    Inv now (a.step call).1 (history ++ [(call, (a.step call).2)]) := by
  obtain ⟨hs, hreply, -⟩ | ⟨hpoll, hopen, htime, hs⟩ |
      ⟨next, hs, hok, hcall, htime, hopen, hnext, hdone, hprogress, gate, hgate, hpass⟩ :=
    step_cases a call
  · refine
      { deadline := by rw [hs]; exact h.deadline
        live := fun hclosed => absurd (by rw [hs]; rfl) hclosed
        completed := ?_ }
    rw [hs]
    exact completed_concat hreply h.completed
  · rw [hs]
    refine
      { deadline := h.deadline
        live := fun hclosed hopen => ?_
        completed := completed_concat rfl h.completed }
    have hunderway := h.live hclosed hopen
    refine
      { passed := by simpa [handshake_concat, hpoll] using hunderway.passed
        timely := ?_
        incomplete := ?_ }
    · intro entry hentry
      rcases List.mem_append.mp hentry with hold | hnew
      · exact hunderway.timely entry hold
      · rw [List.mem_singleton.mp hnew]
        exact ⟨rfl, htime.resolve_left hopen⟩
    · intro entry hentry
      rcases List.mem_append.mp hentry with hold | hnew
      · exact hunderway.incomplete entry hold
      · rw [List.mem_singleton.mp hnew]
        rfl
  · -- A gate was passed, so the old state was neither closed nor authenticated.
    have hlive : a.state ≠ authenticated := by
      intro hstate
      simp [hstate, progress, gates] at hgate
    have hunderway := h.live hopen hlive
    have hadvance := hunderway.advance (a.step call).2 hgate hpass hcall
    have htimely : ∀ entry ∈ history ++ [(call, (a.step call).2)],
        entry.2.failed = false ∧ entry.1.before a.deadline = true := by
      intro entry hentry
      rcases List.mem_append.mp hentry with hold | hnew
      · exact hunderway.timely entry hold
      · rw [List.mem_singleton.mp hnew]
        exact ⟨hok, htime⟩
    refine
      { deadline := by rw [hs]; exact h.deadline
        live := fun _ hstate => ?_
        completed := ?_ }
    · rw [hs] at hstate ⊢
      have hincomplete : (a.step call).2.completes = false := by
        simpa using fun hc => hstate (hdone.mp hc)
      refine
        { passed := by rw [hprogress]; exact hadvance
          timely := htimely
          incomplete := ?_ }
      intro entry hentry
      rcases List.mem_append.mp hentry with hold | hnew
      · exact hunderway.incomplete entry hold
      · rw [List.mem_singleton.mp hnew]
        exact hincomplete
    · rw [hs]
      by_cases hcomplete : (a.step call).2.completes = true
      · intro _
        have hfull : progress a.state + 1 = 5 := by
          rw [← hprogress, hdone.mp hcomplete]
          rfl
        rw [hfull] at hadvance
        exact ⟨history, _, [], rfl, hcomplete, ⟨hadvance, htimely⟩,
          by simpa using hunderway.incomplete⟩
      · exact completed_concat (by simpa using hcomplete) h.completed

/-- In every run of a fresh machine: an error closes it, closed is final, and completion is
reported at most once, only by a history that is exactly the timely handshake. -/
theorem handshake_contract (now : ℕ) (calls : List Call) :
    let reached := run step (new now) calls
    (∀ call, (reached.1.step call).2.failed = true → (reached.1.step call).1.state = closed) ∧
    (∀ more, reached.1.state = closed → (run step reached.1 more).1.state = closed) ∧
    reached.2.countP (fun entry => entry.2.completes) ≤ 1 ∧
    (∀ pre entry post, reached.2 = pre ++ entry :: post → entry.2.completes = true →
      Ceremony (saturatingAdd now timeLimit) (pre ++ [entry])) := by
  intro reached
  have hinv : Inv now reached.1 reached.2 :=
    run_history step (I := Inv now) (new_inv now) (fun t h call ht => step_inv ht call) calls
  refine ⟨fun call => step_failed call, fun more hclosed => ?_, ?_, ?_⟩
  · exact run_invariant step (I := fun t => t.state = closed) hclosed
      (fun t call => step_closed call) more
  · by_cases hany : ∃ entry ∈ reached.2, entry.2.completes = true
    · obtain ⟨pre, entry, post, hh, hdone, -, hrest⟩ := hinv.completed hany
      have hpre : pre.countP (fun entry => entry.2.completes) = 0 :=
        List.countP_eq_zero.mpr fun e he => by simp [hrest e (List.mem_append_left _ he)]
      have hpost : post.countP (fun entry => entry.2.completes) = 0 :=
        List.countP_eq_zero.mpr fun e he => by simp [hrest e (List.mem_append_right _ he)]
      rw [hh, List.countP_append, List.countP_cons, hpre, hpost]
      simp [hdone]
    · rw [List.countP_eq_zero.mpr fun e he hdone => hany ⟨e, he, hdone⟩]
      exact Nat.zero_le 1
  · intro pre entry post hh hdone
    obtain ⟨pre', entry', post', hh', hdone', hceremony, hrest⟩ :=
      hinv.completed ⟨entry, by simp [hh], hdone⟩
    -- Both splits of the history are at its only completing entry.
    rw [hh] at hh'
    rcases List.append_eq_append_iff.mp hh' with ⟨mid, hpre, hmid⟩ | ⟨mid, hpre, hmid⟩
    · cases mid with
      | nil =>
        simp only [List.append_nil, List.nil_append, List.cons.injEq] at hpre hmid
        rw [← hinv.deadline, ← hpre, hmid.1]
        exact hceremony
      | cons e mid =>
        simp only [List.cons_append, List.cons.injEq] at hmid
        have := hrest entry (by simp [hpre, hmid.1])
        simp [hdone] at this
    · cases mid with
      | nil =>
        simp only [List.append_nil, List.nil_append, List.cons.injEq] at hpre hmid
        rw [← hinv.deadline, hpre, ← hmid.1]
        exact hceremony
      | cons e mid =>
        simp only [List.cons_append, List.cons.injEq] at hmid
        have := hrest entry (by simp [hmid.2])
        simp [hdone] at this

example :
    ((run step (new 0)
      [.receive ⟨requestCertificate, []⟩ 1, .certificate [7] 2, .checkDeadline 3,
        .receive ⟨requestSignature, [⟨0, List.replicate 20 1⟩]⟩ 4, .signature [9] 5,
        .receive ⟨authSucceeded, []⟩ 6]).2.map (·.2.completes)) =
      [false, false, false, false, false, true] := by decide

end Authentication

end ProjectArgo.CarPlay
