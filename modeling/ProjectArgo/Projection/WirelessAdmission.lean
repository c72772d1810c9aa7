import ProjectArgo.Projection.WirelessBootstrap

/-!
# What admits a projection peer

Bluetooth and the access point interleave freely. Whatever their order, a stream is handed
to the session only after the phone has accepted the version, was given the credentials and
has accepted the start, the credentials are given once at most, and a run has one candidate
and one outcome.
-/
namespace ProjectArgo.Projection.WirelessBootstrap

open Library.Protobuf Library.Run

def Act.isProcessed : Act → Bool
  | .processed _ => true
  | _ => false

/-- What has to have happened, and what may not have, before an act. -/
def Act.Due (before : List Act) : Act → Prop
  | .writing 3 _ => .versionAccepted ∈ before ∧ ∀ body, .writing 3 body ∉ before
  | .authorized =>
    .versionAccepted ∈ before ∧ .written 3 ∈ before ∧ .startAccepted ∈ before ∧
      .authorized ∉ before ∧ before.countP Act.isProcessed ≤ 64
  | .candidate _ => ∀ stream, .candidate stream ∉ before
  | .handed stream =>
    .authorized ∈ before ∧ .candidate stream ∈ before ∧
      (∀ other, .handed other ∉ before) ∧ ∀ failure, .ended failure ∉ before
  | .ended _ => (∀ stream, .handed stream ∉ before) ∧ ∀ failure, .ended failure ∉ before
  | _ => True

/-- The event that an act is owed to. -/
def Act.OwedTo (ap : AccessPoint) (event : Event) : Act → Prop
  | .versionAccepted =>
    ∃ frame values, event = .received (.ok frame) ∧ frame.id = 5 ∧
      numbers frame.body = .ok values ∧ values[1]? = some 6 ∧ values[4]? = some 0
  | .startAccepted =>
    ∃ frame values, event = .received (.ok frame) ∧ frame.id = 7 ∧
      numbers frame.body = .ok values ∧ values[3]? = some 0
  | .writing 3 body =>
    body = credentials ap ∧ ∃ frame, event = .received (.ok frame) ∧ frame.id = 2
  | .written _ => event = .written (.ok ())
  | .candidate stream =>
    ∃ peer : Address, event = .connected stream (some peer) ∧ peer ≠ ap.address ∧
      peer.a = ap.address.a ∧ peer.b = ap.address.b ∧ peer.c = ap.address.c
  | .handed _ => event = .paired (.ok true)
  | _ => True

/-! ## The dialogue -/

/-- The endpoint of an accepted version is on its way or has been sent. -/
def Await.underway : Await → Bool
  | .endpoint | .reading | .credentials | .echoing => true
  | _ => false

def Await.ended : Await → Bool
  | .done _ => true
  | _ => false

/-- An act that the dialogue's own account does not depend on. -/
def Act.quiet : Act → Bool
  | .processed _ | .authorized | .writing 3 _ => false
  | _ => true

/-- The dialogue's state is the account of its acts. -/
structure Told (b : Bootstrap) (acts : List Act) : Prop where
  due : Guarded Act.Due acts
  counted : acts.countP Act.isProcessed ≤ b.messages
  budget : b.authorized = false → acts.countP Act.isProcessed ≤ 64
  versioned : b.await.underway = true → .versionAccepted ∈ acts
  offered : b.offered = true → .written 3 ∈ acts
  started : b.started = true → .startAccepted ∈ acts
  authorized : b.authorized = true ↔ .authorized ∈ acts
  unwritten : b.offered = false → b.await ≠ .credentials → b.await.ended = false →
    ∀ body, .writing 3 body ∉ acts

theorem told_nil : Told {} [] := by
  refine ⟨guarded_nil _, ?_, ?_, ?_, ?_, ?_, ?_, ?_⟩ <;> simp [Await.underway]

namespace Told

variable {b : Bootstrap} {acts : List Act} {ap : AccessPoint}

/-- Acts that are quiet leave the account as it is. -/
theorem quiet (h : Told b acts) {act : Act} (hquiet : act.quiet = true) (hdue : act.Due acts) :
    Told b (acts ++ [act]) := by
  have hprocessed : act.isProcessed = false := by
    cases act <;> first | rfl | simp [Act.quiet] at hquiet
  have hcount : (acts ++ [act]).countP Act.isProcessed = acts.countP Act.isProcessed := by
    simp [List.countP_append, hprocessed]
  constructor
  · exact guarded_concat.2 ⟨h.due, hdue⟩
  · rw [hcount]
    exact h.counted
  · rw [hcount]
    exact h.budget
  · exact fun hawait => List.mem_append_left _ (h.versioned hawait)
  · exact fun hoffered => List.mem_append_left _ (h.offered hoffered)
  · exact fun hstarted => List.mem_append_left _ (h.started hstarted)
  · rw [h.authorized, List.mem_append, List.mem_singleton, or_iff_left]
    rintro rfl
    simp [Act.quiet] at hquiet
  · intro hoffered hawait hended body hbody
    rcases List.mem_append.1 hbody with hbody | hbody
    · exact h.unwritten hoffered hawait hended body hbody
    · rw [List.mem_singleton] at hbody
      subst hbody
      simp [Act.quiet] at hquiet

theorem fail (h : Told b acts) (failure : Failure) :
    Told (b.fail failure).1 (acts ++ (b.fail failure).2) := by
  rw [show (b.fail failure).2 = [] from rfl, List.append_nil]
  exact ⟨h.due, h.counted, h.budget, nofun, h.offered, h.started, h.authorized,
    fun _ _ hended => nomatch hended⟩

/-- The dialogue goes on to await something else. -/
theorem move (h : Told b acts) {await : Await}
    (hversioned : await.underway = true → .versionAccepted ∈ acts)
    (hunwritten : b.offered = false → await ≠ .credentials → await.ended = false →
      ∀ body, .writing 3 body ∉ acts) :
    Told { b with await := await } acts :=
  ⟨h.due, h.counted, h.budget, hversioned, h.offered, h.started, h.authorized, hunwritten⟩

/-- A message other than the credentials is sent. -/
theorem send (h : Told b acts) (hended : b.await.ended = false) (hawait : b.await ≠ .credentials)
    {await : Await} (hnext : .versionAccepted ∈ acts) {id : ℕ} (hid : id ≠ 3) (body : List UInt8) :
    Told (b.send await id body).1 (acts ++ (b.send await id body).2) := by
  unfold Bootstrap.send
  split
  · exact h.fail _
  · have hmoved : Told { b with await := await } acts :=
      h.move (fun _ => hnext) (fun hoffered _ _ => h.unwritten hoffered hawait hended)
    have hquiet : (Act.writing id body).quiet = true := by
      unfold Act.quiet
      split <;> simp_all
    refine hmoved.quiet hquiet ?_
    unfold Act.Due
    split <;> simp_all

theorem credentials (h : Told b acts) (hawait : b.await = .reading) (hoffered : b.offered = false)
    (body : List UInt8) :
    Told (b.send .credentials 3 body).1 (acts ++ (b.send .credentials 3 body).2) := by
  unfold Bootstrap.send
  split
  · exact h.fail _
  · have hversion : .versionAccepted ∈ acts := h.versioned (by rw [hawait]; rfl)
    have hnone : ∀ body, .writing 3 body ∉ acts :=
      h.unwritten hoffered (by rw [hawait]; decide) (by rw [hawait]; rfl)
    constructor
    · exact guarded_concat.2 ⟨h.due, hversion, hnone⟩
    · simpa [List.countP_append, Act.isProcessed] using h.counted
    · simpa [List.countP_append, Act.isProcessed] using h.budget
    · exact fun _ => List.mem_append_left _ hversion
    · exact fun hoffered => List.mem_append_left _ (h.offered hoffered)
    · exact fun hstarted => List.mem_append_left _ (h.started hstarted)
    · simpa using h.authorized
    · exact fun _ hnot => absurd rfl hnot

theorem next (h : Told b acts) (hoffered : b.offered = false → ∀ body, .writing 3 body ∉ acts)
    (hversion : .versionAccepted ∈ acts) : Told b.next.1 (acts ++ b.next.2) := by
  have hmoved : Told { b with await := .reading } acts :=
    h.move (fun _ => hversion) (fun hnot _ _ => hoffered hnot)
  unfold Bootstrap.next
  simp only
  split
  · next hready =>
    simp only [Bool.and_eq_true, Bool.not_eq_true'] at hready
    obtain ⟨⟨hoff, hstart⟩, hauthorized⟩ := hready
    have hfirst : .authorized ∉ acts := by
      rw [← h.authorized, hauthorized]
      decide
    constructor
    · exact guarded_concat.2 ⟨h.due, hversion, h.offered hoff, h.started hstart, hfirst,
        h.budget hauthorized⟩
    · simpa [List.countP_append, Act.isProcessed] using h.counted
    · exact nofun
    · exact fun _ => List.mem_append_left _ hversion
    · exact fun hoffered => List.mem_append_left _ (h.offered hoffered)
    · exact fun hstarted => List.mem_append_left _ (h.started hstarted)
    · simp
    · exact fun hnot => absurd hoff (by simpa using hnot)
  · rw [List.append_nil]
    exact hmoved

theorem version_of_reading (h : Told b acts) (hawait : b.await = .reading) :
    .versionAccepted ∈ acts := h.versioned (by rw [hawait]; rfl)

theorem unwritten_of_reading (h : Told b acts) (hawait : b.await = .reading) :
    b.offered = false → ∀ body, .writing 3 body ∉ acts :=
  fun hoffered => h.unwritten hoffered (by rw [hawait]; decide) (by rw [hawait]; rfl)

theorem nextReading (h : Told b acts) (hawait : b.await = .reading) :
    Told b.next.1 (acts ++ b.next.2) :=
  h.next (h.unwritten_of_reading hawait) (h.version_of_reading hawait)

/-- The start is accepted: the account has it before the dialogue may be authorized. -/
theorem start (h : Told b acts) : Told { b with started := true } (acts ++ [.startAccepted]) := by
  have hquiet := h.quiet (show Act.quiet .startAccepted = true from rfl) trivial
  exact ⟨hquiet.due, hquiet.counted, hquiet.budget, hquiet.versioned, hquiet.offered,
    fun _ => by simp, hquiet.authorized, hquiet.unwritten⟩

theorem offer (h : Told b acts) : Told { b with offered := true } (acts ++ [.written 3]) := by
  have hquiet := h.quiet (show Act.quiet (.written 3) = true from rfl) trivial
  exact ⟨hquiet.due, hquiet.counted, hquiet.budget, hquiet.versioned, fun _ => by simp,
    hquiet.started, hquiet.authorized, nofun⟩

theorem handle (h : Told b acts) (hawait : b.await = .reading) (id : ℕ) (body : List UInt8) :
    Told (b.handle ap id body).1 (acts ++ (b.handle ap id body).2) := by
  have hversion := h.version_of_reading hawait
  unfold Bootstrap.handle
  split
  · -- the start is accepted, or the phone reports why not
    split
    · exact h.fail _
    · have hnext := h.start.nextReading hawait
      rwa [List.append_assoc] at hnext
  · split
    · next hask =>
      split
      · exact h.fail _
      · exact h.credentials hawait (by simpa using hask.2) _
    · split
      · split
        · exact h.fail _
        · exact h.nextReading hawait
      · split
        · exact h.send (by rw [hawait]; rfl) (by rw [hawait]; decide) hversion (by decide) body
        · split
          · exact h.nextReading hawait
          · exact h.fail _

/-- Another message is counted; as long as nothing is authorized the count is bounded. -/
theorem count (h : Told b acts) (id : ℕ)
    (hbudget : b.authorized = false → b.messages + 1 ≤ 64) :
    Told { b with messages := b.messages + 1 } (acts ++ [.processed id]) := by
  have hcount : (acts ++ [Act.processed id]).countP Act.isProcessed =
      acts.countP Act.isProcessed + 1 := by
    simp [List.countP_append, Act.isProcessed]
  have hcounted := h.counted
  constructor
  · exact guarded_concat.2 ⟨h.due, trivial⟩
  · rw [hcount]
    exact Nat.succ_le_succ hcounted
  · intro hauthorized
    have := hbudget hauthorized
    omega
  · exact fun hawait => List.mem_append_left _ (h.versioned hawait)
  · exact fun hoffered => List.mem_append_left _ (h.offered hoffered)
  · exact fun hstarted => List.mem_append_left _ (h.started hstarted)
  · simpa using h.authorized
  · intro hoffered hawait hended body
    simpa using h.unwritten hoffered hawait hended body

theorem process (h : Told b acts) (hawait : b.await = .reading) (id : ℕ) (body : List UInt8) :
    Told (b.process ap id body).1 (acts ++ (b.process ap id body).2) := by
  unfold Bootstrap.process
  simp only
  split
  · have hcounted : Told { b with messages := b.messages + 1 } acts :=
      ⟨h.due, Nat.le_succ_of_le h.counted, h.budget, h.versioned, h.offered, h.started,
        h.authorized, h.unwritten⟩
    exact hcounted.fail _
  · next hbudget =>
    have hbounded : b.authorized = false → b.messages + 1 ≤ 64 := by
      intro hauthorized
      simpa [hauthorized] using hbudget
    have hhandled := @Told.handle _ _ ap (h.count id hbounded) hawait id body
    rwa [List.append_assoc] at hhandled

theorem version (h : Told b acts) (hawait : b.await = .version) (id : ℕ) (body : List UInt8) :
    Told (b.version ap id body).1 (acts ++ (b.version ap id body).2) := by
  unfold Bootstrap.version
  split
  · exact h.fail _
  · split
    · exact h.fail _
    · have hquiet := h.quiet (show Act.quiet .versionAccepted = true from rfl) trivial
      generalize WirelessBootstrap.endpoint ap = body
      have hsent : Told (b.send .endpoint 1 body).1
          (acts ++ [.versionAccepted] ++ (b.send .endpoint 1 body).2) :=
        hquiet.send (by rw [hawait]; rfl) (by rw [hawait]; decide) (by simp) (by decide) body
      rwa [List.append_assoc] at hsent

theorem received (h : Told b acts) (message : Except Failure Frame) :
    Told (b.received ap message).1 (acts ++ (b.received ap message).2) := by
  unfold Bootstrap.received
  split
  · exact h.fail _
  · exact h.fail _
  · next hawait _ => exact h.version hawait _ _
  · next hawait _ => exact h.process hawait _ _
  · rwa [List.append_nil]

theorem written (h : Told b acts) (result : Except Failure Unit) :
    Told (b.written result).1 (acts ++ (b.written result).2) := by
  unfold Bootstrap.written
  split
  · exact h.fail _
  · exact h.fail _
  · exact h.fail _
  · exact h.fail _
  · next hawait =>
    have hquiet := h.quiet (show Act.quiet (.written 4) = true from rfl) trivial
    exact hquiet.move nofun
      (fun hoffered _ _ => hquiet.unwritten hoffered (by rw [hawait]; decide) (by rw [hawait]; rfl))
  · next hawait =>
    have hquiet := h.quiet (show Act.quiet (.written 1) = true from rfl) trivial
    exact hquiet.move (fun _ => hquiet.versioned (by rw [hawait]; rfl))
      (fun hoffered _ _ => hquiet.unwritten hoffered (by rw [hawait]; decide) (by rw [hawait]; rfl))
  · next hawait =>
    have hversion := h.offer.versioned (by simp only [hawait]; rfl)
    have hnext := h.offer.next nofun hversion
    rwa [List.append_assoc] at hnext
  · next hawait =>
    have hquiet := h.quiet (show Act.quiet (.written 9) = true from rfl) trivial
    have hnext := hquiet.next
      (fun hoffered => hquiet.unwritten hoffered (by rw [hawait]; decide) (by rw [hawait]; rfl))
      (hquiet.versioned (by rw [hawait]; rfl))
    rwa [List.append_assoc] at hnext
  · rwa [List.append_nil]

theorem expired (h : Told b acts) : Told b.expired.1 (acts ++ b.expired.2) := by
  unfold Bootstrap.expired
  split
  · exact h.fail _
  · split
    · exact h.fail _
    · exact h.fail _
  · rwa [List.append_nil]

theorem profileClosed (h : Told b acts) : Told b.profileClosed.1 (acts ++ b.profileClosed.2) := by
  unfold Bootstrap.profileClosed
  split
  · rwa [List.append_nil]
  · exact h.fail _

end Told

/-! ## What the dialogue does -/

/-- An act that is not one of the attempt itself. -/
def Act.inner : Act → Bool
  | .candidate _ | .handed _ | .ended _ => false
  | _ => true

namespace Bootstrap

variable {b : Bootstrap} {ap : AccessPoint} {act : Act}

theorem mem_send {await : Await} {id : ℕ} {body : List UInt8}
    (h : act ∈ (b.send await id body).2) : act = .writing id body := by
  unfold send fail at h
  split at h
  · cases h
  · exact List.mem_singleton.1 h

theorem mem_next (h : act ∈ b.next.2) : act = .authorized := by
  unfold next at h
  simp only at h
  split at h
  · exact List.mem_singleton.1 h
  · cases h

theorem success_ok {body : List UInt8} {field : ℕ} (h : success body field = .ok ()) :
    ∃ values, numbers body = .ok values ∧ values[field]? = some 0 := by
  unfold success at h
  split at h
  · cases h
  · next values hvalues =>
    split at h
    · next hzero => exact ⟨values, hvalues, hzero⟩
    · cases h
    · cases h

theorem mem_handle {id : ℕ} {body : List UInt8} (h : act ∈ (b.handle ap id body).2) :
    (act = .startAccepted ∧ id = 7 ∧ success body 3 = .ok ()) ∨ act = .authorized ∨
      (act = .writing 3 (WirelessBootstrap.credentials ap) ∧ id = 2) ∨
        act = .writing 9 body := by
  unfold handle at h
  split at h
  · next hid =>
    split at h
    · cases h
    · next hsuccess =>
      rcases List.mem_cons.1 h with h | h
      · exact .inl ⟨h, hid, hsuccess⟩
      · exact .inr (.inl (mem_next h))
  · split at h
    · next hask =>
      split at h
      · cases h
      · exact .inr (.inr (.inl ⟨mem_send h, hask.1⟩))
    · split at h
      · split at h
        · cases h
        · exact .inr (.inl (mem_next h))
      · split at h
        · exact .inr (.inr (.inr (mem_send h)))
        · split at h
          · exact .inr (.inl (mem_next h))
          · cases h

theorem mem_process {id : ℕ} {body : List UInt8} (h : act ∈ (b.process ap id body).2) :
    act = .processed id ∨ ∃ b' : Bootstrap, act ∈ (b'.handle ap id body).2 := by
  unfold process at h
  simp only at h
  split at h
  · cases h
  · rcases List.mem_cons.1 h with h | h
    · exact .inl h
    · exact .inr ⟨_, h⟩

theorem mem_version {id : ℕ} {body : List UInt8} (h : act ∈ (b.version ap id body).2) :
    (act = .versionAccepted ∧ id = 5 ∧
      ∃ values, numbers body = .ok values ∧ values[1]? = some 6 ∧ values[4]? = some 0) ∨
        act = .writing 1 (endpoint ap) := by
  unfold version at h
  split at h
  · cases h
  · next values hvalues =>
    split at h
    · cases h
    · next hoffer =>
      push Not at hoffer
      rcases List.mem_cons.1 h with h | h
      · exact .inl ⟨h, hoffer.1, values, hvalues, hoffer.2.1, hoffer.2.2⟩
      · exact .inr (mem_send h)

theorem bind_read {message : Except Failure Frame} {id : ℕ} {body : List UInt8}
    (h : message.bind Frame.read = .ok (id, body)) :
    ∃ frame, message = .ok frame ∧ frame.id = id ∧ frame.body = body := by
  cases message with
  | error failure => cases h
  | ok frame =>
    simp only [Except.bind, Frame.read] at h
    split at h
    · cases h
    · cases h
      exact ⟨frame, rfl, rfl, rfl⟩

theorem received_owed {message : Except Failure Frame} (h : act ∈ (b.received ap message).2) :
    act.inner = true ∧ act.OwedTo ap (.received message) := by
  unfold received at h
  split at h
  · cases h
  · cases h
  · next hread =>
    obtain ⟨frame, rfl, rfl, rfl⟩ := bind_read hread
    rcases mem_version h with ⟨rfl, hid, values, hvalues, hmajor, hstatus⟩ | rfl
    · exact ⟨rfl, frame, values, rfl, hid, hvalues, hmajor, hstatus⟩
    · exact ⟨rfl, trivial⟩
  · next hread =>
    obtain ⟨frame, rfl, rfl, rfl⟩ := bind_read hread
    rcases mem_process h with rfl | ⟨b', h⟩
    · exact ⟨rfl, trivial⟩
    · rcases mem_handle h with ⟨rfl, hid, hsuccess⟩ | rfl | ⟨rfl, hid⟩ | rfl
      · obtain ⟨values, hvalues, hzero⟩ := success_ok hsuccess
        exact ⟨rfl, frame, values, rfl, hid, hvalues, hzero⟩
      · exact ⟨rfl, trivial⟩
      · exact ⟨rfl, rfl, frame, rfl, hid⟩
      · exact ⟨rfl, trivial⟩
  · cases h

theorem written_owed {result : Except Failure Unit} (h : act ∈ (b.written result).2) :
    act.inner = true ∧ act.OwedTo ap (.written result) := by
  unfold written at h
  split at h
  · cases h
  · cases h
  · cases h
  · cases h
  · rw [List.mem_singleton.1 h]
    exact ⟨rfl, rfl⟩
  · rw [List.mem_singleton.1 h]
    exact ⟨rfl, rfl⟩
  · rcases List.mem_cons.1 h with rfl | h
    · exact ⟨rfl, rfl⟩
    · rw [mem_next h]
      exact ⟨rfl, trivial⟩
  · rcases List.mem_cons.1 h with rfl | h
    · exact ⟨rfl, rfl⟩
    · rw [mem_next h]
      exact ⟨rfl, trivial⟩
  · cases h

theorem not_mem_expired : act ∉ b.expired.2 := by
  unfold expired
  split
  · exact List.not_mem_nil
  · split
    · exact List.not_mem_nil
    · exact List.not_mem_nil
  · exact List.not_mem_nil

theorem not_mem_profileClosed : act ∉ b.profileClosed.2 := by
  unfold profileClosed
  split
  · exact List.not_mem_nil
  · exact List.not_mem_nil

end Bootstrap

/-! ## The attempt -/

/-- The attempt's state is the account of its acts. -/
structure Kept (s : Attempt) (acts : List Act) : Prop where
  told : Told s.bootstrap acts
  pending : ∀ stream, s.pending = some stream → .candidate stream ∈ acts
  admitted : ∀ stream, s.admitted = some stream → .candidate stream ∈ acts ∧ .authorized ∈ acts
  unmet : s.pending = none → s.admitted = none → s.result = none →
    ∀ stream, .candidate stream ∉ acts
  handed : ∀ stream, .handed stream ∈ acts ↔ s.result = some (.ok stream)
  ended : ∀ failure, .ended failure ∈ acts ↔ s.result = some (.error failure)

theorem kept_nil : Kept {} [] := by
  refine ⟨told_nil, ?_, ?_, ?_, ?_, ?_⟩ <;> simp

namespace Kept

variable {s : Attempt} {acts : List Act} {ap : AccessPoint}

/-- The dialogue has moved on, and nothing has been done by the attempt itself. -/
theorem within (h : Kept s acts) {b : Bootstrap} {more : List Act} (htold : Told b (acts ++ more))
    (hinner : ∀ act ∈ more, act.inner = true) : Kept { s with bootstrap := b } (acts ++ more) := by
  have hmem : ∀ act : Act, act.inner = false → (act ∈ acts ++ more ↔ act ∈ acts) := by
    intro act houter
    rw [List.mem_append, or_iff_left]
    intro hact
    rw [hinner act hact] at houter
    cases houter
  constructor
  · exact htold
  · exact fun stream hpending => List.mem_append_left _ (h.pending stream hpending)
  · intro stream hadmitted
    obtain ⟨hcandidate, hauthorized⟩ := h.admitted stream hadmitted
    exact ⟨List.mem_append_left _ hcandidate, List.mem_append_left _ hauthorized⟩
  · intro hpending hadmitted hresult stream
    rw [hmem _ rfl]
    exact h.unmet hpending hadmitted hresult stream
  · intro stream
    rw [hmem _ rfl]
    exact h.handed stream
  · intro failure
    rw [hmem _ rfl]
    exact h.ended failure

theorem open_handed (h : Kept s acts) (hresult : s.result = none) (stream : ℕ) :
    .handed stream ∉ acts := by
  rw [h.handed, hresult]
  exact nofun

theorem open_ended (h : Kept s acts) (hresult : s.result = none) (failure : Failure) :
    .ended failure ∉ acts := by
  rw [h.ended, hresult]
  exact nofun

/-- The attempt ends with a failure, and what waits is dropped. -/
theorem finish (h : Kept s acts) (hresult : s.result = none) (failure : Failure) :
    Kept (s.finish failure).1 (acts ++ (s.finish failure).2) := by
  have hdue : Act.Due acts (.ended failure) := ⟨h.open_handed hresult, h.open_ended hresult⟩
  constructor
  · exact h.told.quiet rfl hdue
  · exact nofun
  · intro stream hadmitted
    obtain ⟨hcandidate, hauthorized⟩ := h.admitted stream hadmitted
    exact ⟨List.mem_append_left _ hcandidate, List.mem_append_left _ hauthorized⟩
  · exact fun _ _ => nofun
  · intro stream
    simpa [Attempt.finish] using h.open_handed hresult stream
  · intro other
    simp only [Attempt.finish, List.mem_append, h.open_ended hresult other, List.mem_singleton,
      false_or, Act.ended.injEq, Option.some.injEq, Except.error.injEq]
    exact eq_comm

/-- What waits is taken once the attempt is authorized. -/
theorem takePending (h : Kept s acts) : Kept s.takePending acts := by
  unfold Attempt.takePending
  split
  · next hready =>
    simp only [Bool.and_eq_true, Bool.not_eq_true', Bool.or_eq_false_iff,
      Option.isSome_eq_false_iff, Option.isNone_iff_eq_none] at hready
    obtain ⟨hauthorized, hadmitted, hresult⟩ := hready
    refine ⟨h.told, nofun, ?_, ?_, h.handed, h.ended⟩
    · exact fun stream hpending => ⟨h.pending stream hpending, h.told.authorized.1 hauthorized⟩
    · exact fun _ hpending _ => h.unmet hpending hadmitted hresult
  · exact h

theorem dialogue (h : Kept s acts) {next : Bootstrap × List Act}
    (htold : Told next.1 (acts ++ next.2)) (hinner : ∀ act ∈ next.2, act.inner = true) :
    Kept (s.dialogue next).1 (acts ++ (s.dialogue next).2) := by
  have hwithin := h.within htold hinner
  unfold Attempt.dialogue
  split
  · rwa [List.append_nil]
  · next hopen =>
    simp only [Bool.or_eq_true, not_or, Bool.not_eq_true, Option.isSome_eq_false_iff,
      Option.isNone_iff_eq_none] at hopen
    simp only
    split
    · exact hwithin
    · split
      · have hfinished := hwithin.finish hopen.2
        simp only [List.append_assoc] at hfinished ⊢
        exact hfinished _
      · exact hwithin
    · exact hwithin

theorem connected (h : Kept s acts) (stream : ℕ) (peer : Option Address) :
    Kept (s.connected ap stream peer).1 (acts ++ (s.connected ap stream peer).2) := by
  have htaken := h.takePending
  unfold Attempt.connected
  generalize s.takePending = s at htaken ⊢
  simp only
  split
  · rwa [List.append_nil]
  · next hopen =>
    simp only [Bool.or_eq_true, not_or, Bool.not_eq_true, Option.isSome_eq_false_iff,
      Option.isNone_iff_eq_none] at hopen
    split
    · exact htaken.finish hopen.2 _
    · split
      · exact htaken.finish hopen.2 _
      · next hpending =>
        -- the first candidate of the attempt
        have hnone : s.pending = none := by simpa using hpending
        refine Kept.takePending ⟨?_, ?_, ?_, by rintro ⟨⟩, ?_, ?_⟩
        · exact htaken.told.quiet rfl (htaken.unmet hnone hopen.1 hopen.2)
        · rintro other ⟨⟩
          simp
        · intro other hadmitted
          rw [hopen.1] at hadmitted
          cases hadmitted
        · intro other
          simpa using htaken.handed other
        · intro failure
          simpa using htaken.ended failure

theorem deadline (h : Kept s acts) : Kept s.deadline.1 (acts ++ s.deadline.2) := by
  unfold Attempt.deadline
  split
  · rwa [List.append_nil]
  · next hopen =>
    simp only [Bool.or_eq_true, not_or, Bool.not_eq_true, Option.isSome_eq_false_iff,
      Option.isNone_iff_eq_none] at hopen
    split
    · exact h.finish hopen.2 _
    · exact h.finish hopen.2 _

theorem paired (h : Kept s acts) (answer : Except Failure Bool) :
    Kept (s.paired answer).1 (acts ++ (s.paired answer).2) := by
  unfold Attempt.paired
  split
  · next stream hadmitted hresult =>
    obtain ⟨hcandidate, hauthorized⟩ := h.admitted stream hadmitted
    have hdue : Act.Due acts (.handed stream) :=
      ⟨hauthorized, hcandidate, h.open_handed hresult, h.open_ended hresult⟩
    constructor
    · exact h.told.quiet rfl hdue
    · exact fun other hpending => List.mem_append_left _ (h.pending other hpending)
    · intro other hother
      obtain ⟨hcandidate, hauthorized⟩ := h.admitted other hother
      exact ⟨List.mem_append_left _ hcandidate, List.mem_append_left _ hauthorized⟩
    · exact fun _ _ => nofun
    · intro other
      simp only [List.mem_append, h.open_handed hresult other, List.mem_singleton, false_or,
        Act.handed.injEq, Option.some.injEq, Except.ok.injEq]
      exact eq_comm
    · intro failure
      simpa using h.open_ended hresult failure
  · next hresult => exact h.finish hresult _
  · next hresult => exact h.finish hresult _
  · rwa [List.append_nil]

theorem step (h : Kept s acts) (event : Event) :
    Kept (s.step ap event).1 (acts ++ (s.step ap event).2) := by
  cases event with
  | written result =>
    exact h.dialogue (h.told.written result)
      fun act hact => (@Bootstrap.written_owed _ ap _ _ hact).1
  | received message =>
    exact h.dialogue (h.told.received message) fun act hact => (Bootstrap.received_owed hact).1
  | expired =>
    exact h.dialogue h.told.expired fun act hact => absurd hact Bootstrap.not_mem_expired
  | profileClosed =>
    exact h.dialogue h.told.profileClosed
      fun act hact => absurd hact Bootstrap.not_mem_profileClosed
  | connected stream peer => exact h.connected stream peer
  | acceptFailed failure =>
    simp only [Attempt.step]
    split
    · rwa [List.append_nil]
    · next hopen =>
      simp only [Bool.or_eq_true, not_or, Bool.not_eq_true, Option.isSome_eq_false_iff,
        Option.isNone_iff_eq_none] at hopen
      exact h.finish hopen.2 failure
  | deadline => exact h.deadline
  | woken =>
    simp only [Attempt.step, List.append_nil]
    exact h.takePending
  | paired answer => exact h.paired answer

end Kept

namespace Attempt

variable (ap : AccessPoint)

theorem mem_finish {s : Attempt} {failure : Failure} {act : Act}
    (h : act ∈ (s.finish failure).2) : act = .ended failure := List.mem_singleton.1 h

theorem mem_dialogue {s : Attempt} {next : Bootstrap × List Act} {act : Act}
    (h : act ∈ (s.dialogue next).2) : act ∈ next.2 ∨ ∃ failure, act = .ended failure := by
  unfold dialogue at h
  split at h
  · cases h
  · simp only at h
    split at h
    · exact .inl h
    · split at h
      · exact (List.mem_append.1 h).imp_right fun h => ⟨_, mem_finish h⟩
      · exact .inl h
    · exact .inl h

theorem outside_none {peer : Option Address} (h : outside ap peer = none) :
    ∃ address : Address, peer = some address ∧ address ≠ ap.address ∧
      address.a = ap.address.a ∧ address.b = ap.address.b ∧ address.c = ap.address.c := by
  cases peer with
  | none => cases h
  | some address =>
    simp only [outside] at h
    split at h
    · cases h
    · next hinside =>
      push Not at hinside
      simp only [Prod.mk.injEq] at hinside
      exact ⟨address, rfl, hinside.2, hinside.1⟩

theorem mem_connected {s : Attempt} {stream : ℕ} {peer : Option Address} {act : Act}
    (h : act ∈ (s.connected ap stream peer).2) :
    (∃ failure, act = .ended failure) ∨ act = .candidate stream ∧ outside ap peer = none := by
  unfold connected at h
  simp only at h
  split at h
  · cases h
  · split at h
    · exact .inl ⟨_, mem_finish h⟩
    · next hinside =>
      split at h
      · exact .inl ⟨_, mem_finish h⟩
      · exact .inr ⟨List.mem_singleton.1 h, hinside⟩

theorem step_owed {s : Attempt} {event : Event} {act : Act} (h : act ∈ (s.step ap event).2) :
    act.OwedTo ap event := by
  cases event with
  | written result =>
    rcases mem_dialogue h with h | ⟨failure, rfl⟩
    · exact (Bootstrap.written_owed h).2
    · trivial
  | received message =>
    rcases mem_dialogue h with h | ⟨failure, rfl⟩
    · exact (Bootstrap.received_owed h).2
    · trivial
  | expired =>
    rcases mem_dialogue h with h | ⟨failure, rfl⟩
    · exact absurd h Bootstrap.not_mem_expired
    · trivial
  | profileClosed =>
    rcases mem_dialogue h with h | ⟨failure, rfl⟩
    · exact absurd h Bootstrap.not_mem_profileClosed
    · trivial
  | connected stream peer =>
    rcases mem_connected ap h with ⟨failure, rfl⟩ | ⟨rfl, hinside⟩
    · trivial
    · obtain ⟨address, rfl, hother, hnet⟩ := outside_none ap hinside
      exact ⟨address, rfl, hother, hnet⟩
  | acceptFailed failure =>
    simp only [step] at h
    split at h
    · cases h
    · rw [mem_finish h]
      trivial
  | deadline =>
    simp only [step, deadline] at h
    split at h
    · cases h
    · split at h
      · rw [mem_finish h]
        trivial
      · rw [mem_finish h]
        trivial
  | woken => cases h
  | paired answer =>
    simp only [step, paired] at h
    split at h
    · rw [List.mem_singleton.1 h]
      exact rfl
    · rw [mem_finish h]
      trivial
    · rw [mem_finish h]
      trivial
    · cases h

theorem run_kept (events : List Event) :
    Kept (run (step ap) {} events).1 ((run (step ap) {} events).2.flatMap Prod.snd) := by
  refine run_history (step ap) (I := fun s history => Kept s (history.flatMap Prod.snd)) kept_nil ?_
    events
  intro s history event h
  rw [List.flatMap_append, List.flatMap_singleton]
  exact h.step event

/-- Whatever the order of messages, connections and time: each act happens only when it is due and
is owed to the event that it happens in, and the attempt's outcome is the one that was told. -/
theorem run_admitted (events : List Event) :
    Guarded Act.Due ((run (step ap) {} events).2.flatMap Prod.snd) ∧
      (∀ entry ∈ (run (step ap) {} events).2, ∀ act ∈ entry.2, act.OwedTo ap entry.1) ∧
        (∀ stream, .handed stream ∈ (run (step ap) {} events).2.flatMap Prod.snd ↔
          (run (step ap) {} events).1.result = some (.ok stream)) ∧
          ∀ failure, .ended failure ∈ (run (step ap) {} events).2.flatMap Prod.snd ↔
            (run (step ap) {} events).1.result = some (.error failure) := by
  have hkept := run_kept ap events
  refine ⟨hkept.told.due, ?_, hkept.handed, hkept.ended⟩
  refine run_history (step ap)
    (I := fun _ history => ∀ entry ∈ history, ∀ act ∈ entry.2, act.OwedTo ap entry.1) (by simp) ?_
    events
  intro s history event h entry hentry act hact
  rcases List.mem_append.1 hentry with hentry | hentry
  · exact h entry hentry act hact
  · rw [List.mem_singleton] at hentry
    subst hentry
    exact step_owed ap hact

/-- The phone accepts the start before it asks for the credentials, and connects before either. -/
example :
    let home : Address := ⟨10, 42, 0, 1⟩
    let ap : AccessPoint := ⟨home, .ghz5, 36, "car", "pass", "aa"⟩
    let events : List Event := [.written (.ok ()), .received (.ok ⟨6, 5, [8, 6, 16, 0, 32, 0]⟩),
      .written (.ok ()), .connected 7 (some ⟨10, 42, 0, 9⟩), .received (.ok ⟨2, 7, [24, 0]⟩),
      .received (.ok ⟨0, 2, []⟩), .written (.ok ()), .woken, .paired (.ok true)]
    (run (step ap) {} events).2.getLast?.map Prod.snd = some [.handed 7] := by
  decide

end Attempt
end ProjectArgo.Projection.WirelessBootstrap
