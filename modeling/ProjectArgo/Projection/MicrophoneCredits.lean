import ProjectArgo.Library.Run
import ProjectArgo.Projection.Channels

/-!
# The microphone's credits

The phone grants a window of microphone messages and acknowledges what it has taken. The
session stops the window with every end of a capture and opens one under a new number with
every start, so that what is late acknowledges nothing of the replacement.
-/
namespace ProjectArgo.Projection.MicrophoneCredits

open Library.Run

/-- Session numbers and counts are 32 bits wide; times are in nanoseconds. -/
structure Credits where
  session : ℕ := 0
  outstanding : ℕ := 0
  limit : ℕ := 0
  lastAck : Option ℕ := none
  deriving DecidableEq

/-- `wrapping_add(1).max(1)`. -/
def nextSession (session : ℕ) : ℕ := max ((session + 1) % 2 ^ 32) 1

namespace Credits

variable (c : Credits)

def start (limit : ℕ) : Credits :=
  { session := nextSession c.session, outstanding := 0, limit := min (max limit 1) 8,
    lastAck := none }

def ready : Bool := 0 < c.limit && c.outstanding < c.limit

def sent (now : ℕ) : Credits :=
  { c with
    lastAck := if c.outstanding = 0 then some now else c.lastAck
    outstanding := c.outstanding + 1 }

def ack (now session count : ℕ) : Credits × Bool :=
  if session = c.session ∧ 0 < count ∧ count ≤ c.outstanding then
    ({ c with lastAck := some now, outstanding := c.outstanding - count }, true)
  else (c, false)

def expired (now : ℕ) : Bool :=
  0 < c.outstanding && c.lastAck.any fun t => 5 * 10 ^ 9 ≤ now - t

def stop : Credits := { c with limit := 0, outstanding := 0 }

end Credits

/-! ## The session's part -/

/-- The credits with the capture, the frame that waits to be sent, and whether the session
goes on. -/
structure Microphone where
  credits : Credits := {}
  capture : Bool := false
  frame : Option (Except String (List UInt8)) := none
  running : Bool := true

/-- How the opening of a capture ends: not at all, without a first frame (its cleanup confirmed
or not), or with one. -/
inductive Opening
  | refused
  | silent (closed : Bool)
  | frame (bytes : List UInt8)

inductive Event
  | frame (result : Except String (List UInt8))
  | turn (now : ℕ) (sent closed : Bool)
  | microphone (active : Bool) (limit : ℕ) (closed : Bool) (opening : Opening) (sent : Bool)
  | stop (closed : Bool)
  | ack (now session count : ℕ)

inductive Act
  | audio (bytes : List UInt8)
  | reply (reply : Reply)
  | started (limit : ℕ)
  | honoured (session count : ℕ)
  deriving DecidableEq

/-- A frame is sent while there is credit, discarded while there is none, and an error ends
the capture. -/
def turn (m : Microphone) (now : ℕ) (sent closed : Bool) : Microphone × List Act :=
  match m.frame with
  | none => (m, [])
  | some result =>
    let m := { m with frame := none }
    match if m.credits.expired now then
        .error "Microphone acknowledgements stalled for five seconds" else result with
    | .ok bytes =>
      if m.credits.ready then
        if sent then ({ m with credits := m.credits.sent now }, [.audio bytes])
        else ({ m with running := false }, [.audio bytes])
      else (m, [])
    | .error _ =>
      let stopped := { m with credits := m.credits.stop }
      if m.capture && !closed then ({ stopped with running := false }, [])
      else ({ stopped with capture := false, running := sent }, [.reply (.new 9 0x8002 [])])

/-- The answer to a request to open or close, and the announcement of a started capture. -/
def replies (active : Bool) (status session : ℕ) : List Act :=
  .reply (.new 9 0x8006 ((({} : Proto).number 1 status).number 2 session).finish) ::
    if active && status = 0 then
      [.reply (.new 9 0x8001 ((({} : Proto).number 1 session).number 2 0).finish)]
    else []

/-- The phone opens or closes the microphone. -/
def request (m : Microphone) (active : Bool) (limit : ℕ) (closed : Bool) (opening : Opening)
    (sent : Bool) : Microphone × List Act :=
  let ended := { m with frame := none, credits := m.credits.stop, capture := false }
  if m.capture && !closed then ({ ended with running := false }, [])
  else if active then
    match opening with
    | .refused => ({ ended with running := sent }, replies active 1 ended.credits.session)
    | .silent true => ({ ended with running := sent }, replies active 1 ended.credits.session)
    | .silent false => ({ ended with running := false }, [])
    | .frame bytes =>
      let credits := ended.credits.start limit
      ({ credits := credits, capture := true, frame := some (.ok bytes), running := sent },
        .started limit :: replies active 0 credits.session)
  else ({ ended with running := sent }, replies active 0 ended.credits.session)

def step (m : Microphone) (event : Event) : Microphone × List Act :=
  if !m.running then (m, [])
  else
    match event with
    | .frame result =>
      if m.capture && m.frame.isNone then ({ m with frame := some result }, []) else (m, [])
    | .turn now sent closed => turn m now sent closed
    | .microphone active limit closed opening sent => request m active limit closed opening sent
    | .stop closed =>
      let stopped := { m with credits := m.credits.stop, frame := none }
      if m.capture && !closed then ({ stopped with running := false }, [])
      else ({ stopped with capture := false }, [])
    | .ack now session count =>
      match m.credits.ack now session count with
      | (credits, true) => ({ m with credits := credits }, [.honoured session count])
      | (_, false) => (m, [])

/-! ## The phone's account -/

/-- What the phone has granted with the last start, and the messages since that it has not
acknowledged. -/
structure Account where
  granted : ℕ := 0
  unacknowledged : ℕ := 0
  deriving DecidableEq

def Account.after (account : Account) : Act → Account
  | .audio _ => { account with unacknowledged := account.unacknowledged + 1 }
  | .reply _ => account
  | .started limit => ⟨limit, 0⟩
  | .honoured _ count => { account with unacknowledged := account.unacknowledged - count }

def account (acts : List Act) : Account := acts.foldl Account.after {}

def Act.isReply : Act → Bool
  | .reply _ => true
  | _ => false

theorem account_append_replies {more : List Act} (acts : List Act)
    (h : ∀ act ∈ more, act.isReply = true) : account (acts ++ more) = account acts := by
  induction more using List.reverseRecOn with
  | nil => rw [List.append_nil]
  | append_singleton more act ih =>
    rw [← List.append_assoc, account, List.foldl_concat, ← account,
      ih fun other hother => h other (List.mem_append_left _ hother)]
    have hact := h act (by simp)
    cases act with
    | reply reply => rfl
    | audio bytes => exact nomatch hact
    | started limit => exact nomatch hact
    | honoured session count => exact nomatch hact

theorem isReply_of_mem_replies {active : Bool} {status session : ℕ} {act : Act}
    (h : act ∈ replies active status session) : act.isReply = true := by
  unfold replies at h
  split_ifs at h
  · rcases List.mem_cons.mp h with rfl | h
    · rfl
    · rw [List.mem_singleton.mp h]
      rfl
  · rw [List.mem_singleton.mp h]
    rfl

/-! ## The counter is the phone's account -/

/-- The counter stays within its limit, and while the window is open it is what the phone has
not acknowledged of it. -/
structure Balanced (m : Microphone) (acts : List Act) : Prop where
  within : m.credits.outstanding ≤ m.credits.limit
  eight : m.credits.limit ≤ 8
  granted : (account acts).unacknowledged ≤ max (account acts).granted 1
  bounded : (account acts).unacknowledged ≤ 8
  open_ : m.running = true → 0 < m.credits.limit →
    (account acts).unacknowledged = m.credits.outstanding ∧
      m.credits.limit ≤ max (account acts).granted 1

variable {m next : Microphone} {acts more : List Act}

theorem Balanced.start : Balanced {} [] :=
  ⟨le_rfl, by decide, by decide, by decide, fun _ h => absurd h (by decide)⟩

/-- Steps that send replies only and leave the credits. -/
theorem Balanced.keep (h : Balanced m acts) (hcredits : next.credits = m.credits)
    (hrunning : next.running = true → m.running = true)
    (hmore : ∀ act ∈ more, act.isReply = true) : Balanced next (acts ++ more) := by
  have hsame := account_append_replies acts hmore
  refine ⟨hcredits ▸ h.within, hcredits ▸ h.eight, hsame ▸ h.granted, hsame ▸ h.bounded, ?_⟩
  rw [hsame, hcredits]
  exact fun hnext => h.open_ (hrunning hnext)

theorem Balanced.stop (h : Balanced m acts) (hcredits : next.credits = m.credits.stop)
    (hmore : ∀ act ∈ more, act.isReply = true) : Balanced next (acts ++ more) := by
  have hsame := account_append_replies acts hmore
  have hlimit : next.credits.limit = 0 := by rw [hcredits, Credits.stop]
  have hnone : next.credits.outstanding = 0 := by rw [hcredits, Credits.stop]
  refine ⟨by omega, by omega, hsame ▸ h.granted, hsame ▸ h.bounded, ?_⟩
  intro _ hopen
  omega

theorem Balanced.audio (h : Balanced m acts) (hrunning : m.running = true)
    (hready : m.credits.ready = true) (bytes : List UInt8)
    (hnext : next.credits.limit = m.credits.limit)
    (hsent : next.credits.outstanding ≤ next.credits.limit)
    (hcount : next.running = true → next.credits.outstanding = m.credits.outstanding + 1) :
    Balanced next (acts ++ [.audio bytes]) := by
  have haccount : account (acts ++ [.audio bytes]) =
      { account acts with unacknowledged := (account acts).unacknowledged + 1 } := by
    rw [account, List.foldl_concat]
    rfl
  simp only [Credits.ready, Bool.and_eq_true, decide_eq_true_eq] at hready
  obtain ⟨hbalance, hgranted⟩ := h.open_ hrunning hready.1
  have height := h.eight
  refine ⟨hsent, hnext ▸ height, ?_, ?_, ?_⟩
  · simp only [haccount]
    omega
  · simp only [haccount]
    omega
  · intro hgoes _
    simp only [haccount]
    rw [hcount hgoes, hnext, hbalance]
    exact ⟨rfl, hgranted⟩

theorem Balanced.started (limit : ℕ) (hcredits : next.credits = m.credits.start limit)
    (hmore : ∀ act ∈ more, act.isReply = true) :
    Balanced next (acts ++ .started limit :: more) := by
  have haccount : account (acts ++ .started limit :: more) = ⟨limit, 0⟩ := by
    rw [List.append_cons, account_append_replies _ hmore, account, List.foldl_concat]
    rfl
  have hlimit : next.credits.limit = min (max limit 1) 8 := by rw [hcredits, Credits.start]
  have hnone : next.credits.outstanding = 0 := by rw [hcredits, Credits.start]
  refine ⟨by omega, by omega, by simp [haccount], by simp [haccount], ?_⟩
  intro _ _
  rw [haccount, hnone, hlimit]
  exact ⟨rfl, min_le_left _ _⟩

theorem Balanced.honoured (h : Balanced m acts) (hrunning : m.running = true)
    (session count : ℕ) (hcount : count ≤ m.credits.outstanding)
    (hlimit : next.credits.limit = m.credits.limit)
    (houtstanding : next.credits.outstanding = m.credits.outstanding - count) :
    Balanced next (acts ++ [.honoured session count]) := by
  have haccount : account (acts ++ [.honoured session count]) =
      { account acts with unacknowledged := (account acts).unacknowledged - count } := by
    rw [account, List.foldl_concat]
    rfl
  have hwithin := h.within
  have hgranted := h.granted
  have hbounded := h.bounded
  refine ⟨by omega, hlimit ▸ h.eight, ?_, ?_, ?_⟩
  · simp only [haccount]
    omega
  · simp only [haccount]
    omega
  · intro _ hopen
    obtain ⟨hbalance, hle⟩ := h.open_ hrunning (hlimit ▸ hopen)
    simp only [haccount]
    rw [houtstanding, hlimit, hbalance]
    exact ⟨rfl, hle⟩

/-! ## What a step can do -/

inductive Did (m next : Microphone) : List Act → Prop
  | kept {more : List Act} (credits : next.credits = m.credits)
      (running : next.running = true → m.running = true)
      (replies : ∀ act ∈ more, act.isReply = true) : Did m next more
  | stopped {more : List Act} (credits : next.credits = m.credits.stop)
      (replies : ∀ act ∈ more, act.isReply = true) : Did m next more
  | audio (now : ℕ) (bytes : List UInt8) (running : m.running = true)
      (ready : m.credits.ready = true)
      (credits : next.credits = m.credits.sent now ∨
        next.credits = m.credits ∧ next.running = false) : Did m next [.audio bytes]
  | started {more : List Act} (limit : ℕ) (running : m.running = true)
      (credits : next.credits = m.credits.start limit)
      (replies : ∀ act ∈ more, act.isReply = true) : Did m next (.started limit :: more)
  | honoured (now session count : ℕ) (running : m.running = true)
      (current : session = m.credits.session) (positive : 0 < count)
      (within : count ≤ m.credits.outstanding)
      (credits : next.credits = { m.credits with
        lastAck := some now
        outstanding := m.credits.outstanding - count }) : Did m next [.honoured session count]

theorem turn_did (hrunning : m.running = true) (now : ℕ) (sent closed : Bool) :
    Did m (turn m now sent closed).1 (turn m now sent closed).2 := by
  unfold turn
  split
  · exact .kept rfl id (by simp)
  dsimp only
  split
  · split
    · rename_i hready
      cases sent with
      | true => exact .audio now _ hrunning hready (Or.inl rfl)
      | false => exact .audio now _ hrunning hready (Or.inr ⟨rfl, rfl⟩)
    · exact .kept rfl id (by simp)
  · split
    · exact .stopped rfl (by simp)
    · exact .stopped rfl (by simp [Act.isReply])

theorem request_did (hrunning : m.running = true) (active : Bool) (limit : ℕ) (closed : Bool)
    (opening : Opening) (sent : Bool) :
    Did m (request m active limit closed opening sent).1
      (request m active limit closed opening sent).2 := by
  unfold request
  dsimp only
  split
  · exact .stopped rfl (by simp)
  split
  · split
    · exact .stopped rfl fun act => isReply_of_mem_replies
    · exact .stopped rfl fun act => isReply_of_mem_replies
    · exact .stopped rfl (by simp)
    · exact .started limit hrunning rfl fun act => isReply_of_mem_replies
  · exact .stopped rfl fun act => isReply_of_mem_replies

theorem step_did (m : Microphone) (event : Event) : Did m (step m event).1 (step m event).2 := by
  unfold step
  split
  · exact .kept rfl id (by simp)
  rename_i hrunning
  have hrunning : m.running = true := by simpa using hrunning
  cases event with
  | frame result =>
    dsimp only
    split
    · exact .kept rfl id (by simp)
    · exact .kept rfl id (by simp)
  | turn now sent closed => exact turn_did hrunning now sent closed
  | microphone active limit closed opening sent =>
    exact request_did hrunning active limit closed opening sent
  | stop closed =>
    dsimp only
    split
    · exact .stopped rfl (by simp)
    · exact .stopped rfl (by simp)
  | ack now session count =>
    unfold Credits.ack
    by_cases h : session = m.credits.session ∧ 0 < count ∧ count ≤ m.credits.outstanding
    · simp only [if_pos h]
      exact .honoured now session count hrunning h.1 h.2.1 h.2.2 rfl
    · simp only [if_neg h]
      exact .kept rfl id (by simp)

theorem Balanced.step (h : Balanced m acts) (event : Event) :
    Balanced (step m event).1 (acts ++ (step m event).2) := by
  have hdid := step_did m event
  generalize (MicrophoneCredits.step m event).1 = next at hdid ⊢
  generalize (MicrophoneCredits.step m event).2 = more at hdid ⊢
  cases hdid with
  | kept hcredits hrunning hreplies => exact h.keep hcredits hrunning hreplies
  | stopped hcredits hreplies => exact h.stop hcredits hreplies
  | audio now bytes hrunning hready hcredits =>
    have hroom : m.credits.outstanding < m.credits.limit := by
      simp only [Credits.ready, Bool.and_eq_true, decide_eq_true_eq] at hready
      exact hready.2
    rcases hcredits with hsent | ⟨hsame, hended⟩
    · refine h.audio hrunning hready bytes ?_ ?_ ?_
      · rw [hsent, Credits.sent]
      · rw [hsent, Credits.sent]
        exact hroom
      · intro _
        rw [hsent, Credits.sent]
    · refine h.audio hrunning hready bytes ?_ ?_ ?_
      · rw [hsame]
      · rw [hsame]
        exact hroom.le
      · intro hgoes
        rw [hended] at hgoes
        exact nomatch hgoes
  | started limit hrunning hcredits hreplies => exact Balanced.started limit hcredits hreplies
  | honoured now session count hrunning hcurrent hpositive hwithin hcredits =>
    refine h.honoured hrunning session count hwithin ?_ ?_
    · rw [hcredits]
    · rw [hcredits]

/-- Everything that was done in a history. -/
def done (history : List (Event × List Act)) : List Act := history.flatMap Prod.snd

theorem run_balanced (events : List Event) :
    Balanced (run MicrophoneCredits.step {} events).1
      (done (run MicrophoneCredits.step {} events).2) := by
  apply run_history MicrophoneCredits.step
    (I := fun m history => Balanced m (done history))
  · exact Balanced.start
  · intro m history event h
    simpa [done] using h.step event

/-! ## Session numbers -/

def Act.isStarted : Act → Bool
  | .started _ => true
  | _ => false

theorem countP_isStarted_of_replies (h : ∀ act ∈ more, act.isReply = true) :
    more.countP Act.isStarted = 0 := by
  rw [List.countP_eq_zero]
  intro act hact
  have hreply := h act hact
  cases act <;> simp [Act.isReply, Act.isStarted] at *

/-- The session number moves on with every start and never otherwise. -/
theorem step_session (m : Microphone) (event : Event) :
    (MicrophoneCredits.step m event).1.credits.session =
      nextSession^[(MicrophoneCredits.step m event).2.countP Act.isStarted] m.credits.session := by
  have hdid := step_did m event
  generalize (MicrophoneCredits.step m event).1 = next at hdid ⊢
  generalize (MicrophoneCredits.step m event).2 = more at hdid ⊢
  cases hdid with
  | kept hcredits _ hreplies =>
    rw [countP_isStarted_of_replies hreplies, hcredits]
    rfl
  | stopped hcredits hreplies =>
    rw [countP_isStarted_of_replies hreplies, hcredits]
    rfl
  | audio now bytes _ _ hcredits =>
    rcases hcredits with hsent | ⟨hsame, -⟩
    · rw [hsent]
      rfl
    · rw [hsame]
      rfl
  | started limit _ hcredits hreplies =>
    rw [List.countP_cons_of_pos rfl, countP_isStarted_of_replies hreplies, hcredits]
    rfl
  | honoured now session count _ _ _ _ hcredits =>
    rw [hcredits]
    rfl

theorem run_session (m : Microphone) (events : List Event) :
    (run MicrophoneCredits.step m events).1.credits.session =
      nextSession^[(done (run MicrophoneCredits.step m events).2).countP Act.isStarted]
        m.credits.session := by
  induction events using List.reverseRecOn with
  | nil => rfl
  | append_singleton events event ih =>
    rw [run_concat, step_session, ih, ← Function.iterate_add_apply]
    simp only [done, List.flatMap_append, List.flatMap_singleton, List.countP_append]
    rw [Nat.add_comm]

/-- Numbers of starts go round through the nonzero 32-bit numbers. -/
theorem iterate_nextSession (n session : ℕ) :
    nextSession^[n] (session % (2 ^ 32 - 1) + 1) = (session + n) % (2 ^ 32 - 1) + 1 := by
  induction n with
  | zero => rfl
  | succ n ih =>
    rw [Function.iterate_succ_apply', ih, nextSession]
    omega

theorem nextSession_lt (session : ℕ) : nextSession session < 2 ^ 32 := by
  unfold nextSession
  omega

theorem iterate_nextSession_ne {n session : ℕ} (hsession : session < 2 ^ 32) (hpos : 0 < n)
    (hn : n < 2 ^ 32 - 1) : nextSession^[n] session ≠ session := by
  rcases Nat.eq_zero_or_pos session with rfl | hnonzero
  · obtain ⟨k, rfl⟩ := Nat.exists_eq_add_of_lt hpos
    have hround := iterate_nextSession k 0
    rw [Nat.zero_add, Function.iterate_succ_apply]
    change nextSession^[k] (0 % (2 ^ 32 - 1) + 1) ≠ 0
    omega
  · have hround := iterate_nextSession n (session - 1)
    have hself : (session - 1) % (2 ^ 32 - 1) + 1 = session := by omega
    rw [hself] at hround
    omega

theorem session_lt (events : List Event) :
    (run MicrophoneCredits.step {} events).1.credits.session < 2 ^ 32 := by
  rw [run_session]
  cases (done (run MicrophoneCredits.step {} events).2).countP Act.isStarted with
  | zero => decide
  | succ n =>
    rw [Function.iterate_succ_apply']
    exact nextSession_lt _

/-! ## The results -/

theorem audio_of_step {event : Event} {bytes : List UInt8}
    (h : .audio bytes ∈ (MicrophoneCredits.step m event).2) :
    m.running = true ∧ m.credits.outstanding < m.credits.limit := by
  have hdid := step_did m event
  generalize (MicrophoneCredits.step m event).1 = next at hdid
  generalize (MicrophoneCredits.step m event).2 = more at hdid h
  cases hdid with
  | kept _ _ hreplies => exact nomatch hreplies _ h
  | stopped _ hreplies => exact nomatch hreplies _ h
  | audio now bytes hrunning hready _ =>
    simp only [Credits.ready, Bool.and_eq_true, decide_eq_true_eq] at hready
    exact ⟨hrunning, hready.2⟩
  | started limit _ _ hreplies =>
    rcases List.mem_cons.mp h with hact | hact
    · exact nomatch hact
    · exact nomatch hreplies _ hact
  | honoured now session count _ _ _ _ _ => simp at h

theorem honoured_of_step {event : Event} {session count : ℕ}
    (h : .honoured session count ∈ (MicrophoneCredits.step m event).2) :
    m.running = true ∧ session = m.credits.session ∧ 0 < count ∧
      count ≤ m.credits.outstanding := by
  have hdid := step_did m event
  generalize (MicrophoneCredits.step m event).1 = next at hdid
  generalize (MicrophoneCredits.step m event).2 = more at hdid h
  cases hdid with
  | kept _ _ hreplies => exact nomatch hreplies _ h
  | stopped _ hreplies => exact nomatch hreplies _ h
  | audio now bytes _ _ _ => simp at h
  | started limit _ _ hreplies =>
    rcases List.mem_cons.mp h with hact | hact
    · exact nomatch hact
    · exact nomatch hreplies _ hact
  | honoured now current taken hrunning hcurrent hpositive hwithin _ =>
    simp only [List.mem_singleton, Act.honoured.injEq] at h
    obtain ⟨rfl, rfl⟩ := h
    exact ⟨hrunning, hcurrent, hpositive, hwithin⟩

/-- An acknowledgement under another number changes nothing. -/
theorem step_ack_of_ne {session : ℕ} (h : session ≠ m.credits.session) (now count : ℕ) :
    MicrophoneCredits.step m (.ack now session count) = (m, []) := by
  unfold MicrophoneCredits.step
  split
  · rfl
  · simp only [Credits.ack, h, false_and, if_false]

/-- Messages the phone has not acknowledged stay within what it granted, one at least and eight
at most. Audio is sent with a credit left, an acknowledgement is honoured for the current
session and what is outstanding of it, and one under the number of a session that has been
replaced changes nothing. -/
theorem microphone_credits (events : List Event) :
    let m := (run MicrophoneCredits.step {} events).1
    let phone := account (done (run MicrophoneCredits.step {} events).2)
    (phone.unacknowledged ≤ max phone.granted 1 ∧ phone.unacknowledged ≤ 8) ∧
      (∀ event bytes, .audio bytes ∈ (MicrophoneCredits.step m event).2 →
        m.credits.outstanding < m.credits.limit ∧
          phone.unacknowledged < max phone.granted 1 ∧ phone.unacknowledged < 8) ∧
      (∀ event session count, .honoured session count ∈ (MicrophoneCredits.step m event).2 →
        session = m.credits.session ∧ 0 < count ∧ count ≤ m.credits.outstanding ∧
          count ≤ phone.unacknowledged) ∧
      ∀ before after, events = before ++ after →
        0 < (done (run MicrophoneCredits.step (run MicrophoneCredits.step {} before).1
          after).2).countP Act.isStarted →
        (done (run MicrophoneCredits.step (run MicrophoneCredits.step {} before).1
          after).2).countP Act.isStarted < 2 ^ 32 - 1 →
        ∀ now count, MicrophoneCredits.step m
          (.ack now (run MicrophoneCredits.step {} before).1.credits.session count) = (m, []) := by
  intro m phone
  have hbalanced : Balanced m (done (run MicrophoneCredits.step {} events).2) :=
    run_balanced events
  have hwithin := hbalanced.within
  have height := hbalanced.eight
  refine ⟨⟨hbalanced.granted, hbalanced.bounded⟩, ?_, ?_, ?_⟩
  · intro event bytes haudio
    obtain ⟨hrunning, hroom⟩ := audio_of_step haudio
    have ⟨hsame, hlimit⟩ := hbalanced.open_ hrunning (by omega)
    refine ⟨hroom, ?_, ?_⟩
    · exact hsame ▸ hroom.trans_le hlimit
    · exact hsame ▸ hroom.trans_le height
  · intro event session count hhonoured
    obtain ⟨hrunning, hcurrent, hpositive, hcount⟩ := honoured_of_step hhonoured
    have ⟨hsame, _⟩ := hbalanced.open_ hrunning (by omega)
    exact ⟨hcurrent, hpositive, hcount, hsame ▸ hcount⟩
  · rintro before after rfl hpos hsmall now count
    apply step_ack_of_ne
    have hlater := run_session (run MicrophoneCredits.step {} before).1 after
    have hmoved := iterate_nextSession_ne (session_lt before) hpos hsmall
    have hm : m =
        (run MicrophoneCredits.step (run MicrophoneCredits.step {} before).1 after).1 := by
      change (run MicrophoneCredits.step {} (before ++ after)).1 = _
      rw [run_append]
    rw [hm, hlater]
    exact hmoved.symm

/-- The microphone is closed and opened again with a message of the first capture on its way. -/
theorem microphone_credits_replaced :
    let events : List Event := [.microphone true 4 true (.frame []) true, .turn 0 true true,
      .microphone true 4 true (.frame []) true]
    let m := (run MicrophoneCredits.step {} events).1
    ∀ now count, MicrophoneCredits.step m (.ack now 1 count) = (m, []) :=
  (microphone_credits [.microphone true 4 true (.frame []) true, .turn 0 true true,
    .microphone true 4 true (.frame []) true]).2.2.2
    [.microphone true 4 true (.frame []) true, .turn 0 true true]
    [.microphone true 4 true (.frame []) true] rfl (by decide) (by decide)

/-- A grant of no messages is taken as one of a single message. -/
theorem granted_exceeded :
    ¬∀ events : List Event,
      (account (done (run MicrophoneCredits.step {} events).2)).unacknowledged ≤
        (account (done (run MicrophoneCredits.step {} events).2)).granted := by
  intro h
  exact absurd (h [.microphone true 0 true (.frame []) true, .turn 0 true true]) (by decide)

end ProjectArgo.Projection.MicrophoneCredits
