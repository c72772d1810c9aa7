import ProjectArgo.Camera.CaptureLoop

/-!
# No frozen and no wrong picture

The ring's picture is valid at the end of an iteration only while a capture runs that streams,
its last frame is younger than the stall and of the selected camera. The capture is started
once and three times again before it is reported as failed.
-/
namespace ProjectArgo.Camera.CaptureLoop

open Library.Ends

/-! ## Counting since the health was renewed -/

/-- Acts of a kind since the health was last renewed. -/
def since (kind : Act) (log : List Act) : ℕ :=
  log.foldl (fun n act => if act = .renewed then 0 else if act = kind then n + 1 else n) 0

theorem since_concat (kind : Act) (log : List Act) (act : Act) :
    since kind (log ++ [act]) =
      if act = .renewed then 0 else if act = kind then since kind log + 1 else since kind log := by
  rw [since, List.foldl_append]
  rfl

@[simp] theorem since_renewed (kind : Act) (log : List Act) :
    since kind (log ++ [.renewed]) = 0 := by
  rw [since_concat, if_pos rfl]

@[simp] theorem since_attempt (log : List Act) :
    since .attempt (log ++ [.attempt]) = since .attempt log + 1 := by
  rw [since_concat, if_neg (by decide), if_pos rfl]

@[simp] theorem since_failure (log : List Act) :
    since .failure (log ++ [.failure]) = since .failure log + 1 := by
  rw [since_concat, if_neg (by decide), if_pos rfl]

theorem since_other (kind act : Act) (log : List Act) (hrenewed : act ≠ .renewed)
    (hkind : act ≠ kind) : since kind (log ++ [act]) = since kind log := by
  rw [since_concat, if_neg hrenewed, if_neg hkind]

/-! ## The invariant -/

/-- The capture, the ring's picture and the count of retries belong together. -/
structure Kept (d : Daemon) : Prop where
  blank : d.capture = none → d.ring.valid = false
  selected : ∀ capture, d.capture = some capture → capture.role = d.role ∧ d.role.isSome = true ∧
    d.selected = some capture.device.stableId ∧ d.health.retryAt = none ∧
    d.state ≠ .disconnected ∧ d.state ≠ .failed
  shown : d.ring.valid = true → d.state = .streaming ∧ ∃ slot, d.ring.latest = some slot ∧
    d.capture = some slot.capture ∧ slot.written = d.health.last
  labelled : ∀ role, d.role = some role → d.ring.role = role.number + 1
  named : d.selected.isSome = d.role.isSome
  due : d.health.retryAt ≠ none → since .attempt d.log = d.health.retries
  counted : d.capture ≠ none → since .attempt d.log = d.health.retries + 1
  bounded : since .attempt d.log ≤ d.health.retries + 1 ∧ d.health.retries ≤ 3
  failures : since .failure d.log = d.health.retries ∨
    since .failure d.log = 4 ∧ d.health.retryAt = none ∧ d.capture = none ∧
      (d.state = .failed ∨ d.state = .disconnected)
  failed : d.state = .failed → since .failure d.log = 4 ∧ since .attempt d.log = 4

variable {d next : Daemon} {now : ℤ} {it : Iteration}

theorem Kept.start (now : ℤ) (devices : List Device) : Kept (start now devices) where
  blank _ := rfl
  selected _ h := nomatch h
  shown h := nomatch h
  labelled _ h := nomatch h
  named := rfl
  due h := absurd rfl h
  counted h := absurd rfl h
  bounded := ⟨Nat.zero_le _, Nat.zero_le _⟩
  failures := Or.inl rfl
  failed h := nomatch h

/-- What is not spoken of may change. -/
theorem Kept.same (h : Kept d) (hring : next.ring = d.ring) (hcapture : next.capture = d.capture)
    (hselected : next.selected = d.selected) (hrole : next.role = d.role)
    (hstate : next.state = d.state) (hhealth : next.health = d.health)
    (hattempts : since .attempt next.log = since .attempt d.log)
    (hfailures : since .failure next.log = since .failure d.log) : Kept next := by
  constructor
  all_goals simp only [hring, hcapture, hselected, hrole, hstate, hhealth, hattempts, hfailures]
  · exact h.blank
  · exact h.selected
  · exact h.shown
  · exact h.labelled
  · exact h.named
  · exact h.due
  · exact h.counted
  · exact h.bounded
  · exact h.failures
  · exact h.failed

/-- The picture is blanked and the capture, where there is one, taken. -/
theorem Kept.taken (h : Kept d) (hring : next.ring = d.ring.invalidate)
    (hcapture : next.capture = none) (hselected : next.selected = d.selected)
    (hrole : next.role = d.role) (hstate : next.state = d.state) (hhealth : next.health = d.health)
    (hlog : next.log = d.log) : Kept next := by
  constructor
  all_goals simp only [hring, hcapture, hselected, hrole, hstate, hhealth, hlog]
  · intro _
    rfl
  · intro _ h
    exact nomatch h
  · intro h
    exact nomatch h
  · exact h.labelled
  · exact h.named
  · exact h.due
  · intro h
    exact absurd rfl h
  · exact h.bounded
  · rcases h.failures with hsame | ⟨hfour, hdue, hnone, hphase⟩
    · exact Or.inl hsame
    · exact Or.inr ⟨hfour, hdue, trivial, hphase⟩
  · exact h.failed

/-- The picture is blanked while the capture runs. -/
theorem Kept.blanked (h : Kept d) (hring : next.ring = d.ring.invalidate)
    (hcapture : next.capture = d.capture) (hselected : next.selected = d.selected)
    (hrole : next.role = d.role) (hstate : next.state = d.state) (hhealth : next.health = d.health)
    (hlog : next.log = d.log) : Kept next := by
  constructor
  all_goals simp only [hring, hcapture, hselected, hrole, hstate, hhealth, hlog]
  · intro _
    rfl
  · exact h.selected
  · intro h
    exact nomatch h
  · exact h.labelled
  · exact h.named
  · exact h.due
  · exact h.counted
  · exact h.bounded
  · exact h.failures
  · exact h.failed

/-- Nothing is captured and the count starts anew. -/
theorem Kept.renewed (hring : next.ring.valid = false) (hcapture : next.capture = none)
    (hlabel : ∀ role, next.role = some role → next.ring.role = role.number + 1)
    (hnamed : next.selected.isSome = next.role.isSome) (hstate : next.state ≠ .failed)
    (hretries : next.health.retries = 0) (hattempts : since .attempt next.log = 0)
    (hfailures : since .failure next.log = 0) : Kept next where
  blank _ := hring
  selected capture h := by
    rw [hcapture] at h
    exact nomatch h
  shown h := by
    rw [hring] at h
    exact nomatch h
  labelled := hlabel
  named := hnamed
  due _ := by rw [hattempts, hretries]
  counted h := absurd hcapture h
  bounded := by omega
  failures := Or.inl (by rw [hfailures, hretries])
  failed h := absurd h hstate

/-! ## Commands and devices -/

theorem stopCapture_ends (h : Kept d) (stopped : Bool) :
    Ends Kept (fun next => next = { d with ring := d.ring.invalidate, capture := none })
      (stopCapture stopped { d with ring := d.ring.invalidate }) := by
  unfold stopCapture
  cases hcapture : d.capture with
  | none => simp only [ends_ok]
  | some capture =>
    cases stopped with
    | true => rfl
    | false => exact h.taken rfl rfl rfl rfl rfl rfl rfl

theorem perform_ends (h : Kept d) (now : ℤ) (arrival : Arrival) (command : Command) :
    Ends Kept (fun result => Kept result.1) (perform now arrival command d) := by
  unfold perform
  have hstopped := stopCapture_ends h arrival.stopped
  cases command.op with
  | refresh => exact h.same rfl rfl rfl rfl rfl rfl rfl rfl
  | modes =>
    dsimp only
    split
    · exact h
    split
    · exact h
    split
    · exact h
    split
    · exact h
    · exact h
  | stop =>
    apply hstopped.bind
    rintro _ rfl
    exact Kept.renewed rfl rfl (fun _ h => nomatch h) rfl (fun h => nomatch h) rfl
      (since_renewed _ _) (since_renewed _ _)
  | close =>
    apply hstopped.bind
    rintro _ rfl
    exact Kept.renewed rfl rfl (fun _ h => nomatch h) rfl (fun h => nomatch h) rfl
      (since_renewed _ _) (since_renewed _ _)
  | start =>
    dsimp only
    split
    · exact h
    split
    · exact h
    split
    · exact h
    apply hstopped.bind
    rintro _ rfl
    refine Kept.renewed rfl rfl ?_ rfl (fun h => nomatch h) rfl (since_renewed _ _)
      (since_renewed _ _)
    intro role hrole
    cases hrole
    rfl
  | other name => exact h

theorem answer_ends (h : Kept d) (now : ℤ) (arrival : Arrival) :
    Ends Kept Kept (answer now d arrival) := by
  unfold answer
  split
  · exact h
  rename_i command _
  split
  · exact h
  apply (perform_ends h now arrival command).bind
  rintro ⟨next, failure, modes⟩ hnext
  have hattempts := since_other .attempt (.reply command.id failure modes)
    next.log (by simp) (by simp)
  have hfailures := since_other .failure (.reply command.id failure modes)
    next.log (by simp) (by simp)
  dsimp only
  split
  · exact hnext.same rfl rfl rfl rfl rfl rfl hattempts hfailures
  · exact hnext.same rfl rfl rfl rfl rfl rfl hattempts hfailures

theorem commands_ends (h : Kept d) (it : Iteration) : Ends Kept Kept (commands it d) := by
  unfold commands
  split
  · exact h
  · apply Ends.foldlM
    · exact h.same rfl rfl rfl rfl rfl rfl rfl rfl
    · intro arrival next hnext
      exact answer_ends hnext it.now arrival

/-- The selected device is gone. -/
theorem Kept.absent (h : Kept d) (hring : next.ring = d.ring.invalidate)
    (hcapture : next.capture = none) (hselected : next.selected = d.selected)
    (hrole : next.role = d.role) (hstate : next.state = .disconnected)
    (hhealth : next.health = { d.health with retryAt := none }) (hlog : next.log = d.log) :
    Kept next where
  blank _ := by rw [hring]; rfl
  selected capture hnext := by
    rw [hcapture] at hnext
    exact nomatch hnext
  shown hnext := by
    rw [hring] at hnext
    exact nomatch hnext
  labelled := by
    rw [hrole, hring]
    exact h.labelled
  named := by rw [hselected, hrole, h.named]
  due hdue := by
    rw [hhealth] at hdue
    exact absurd rfl hdue
  counted hnext := absurd hcapture hnext
  bounded := by
    rw [hlog, hhealth]
    exact h.bounded
  failures := by
    rw [hlog, hhealth]
    rcases h.failures with hsame | ⟨hfour, -⟩
    · exact Or.inl hsame
    · exact Or.inr ⟨hfour, rfl, hcapture, Or.inr hstate⟩
  failed hnext := by
    rw [hstate] at hnext
    exact nomatch hnext

theorem Kept.enumerate (h : Kept d) (it : Iteration) : Kept (enumerate it d) := by
  unfold CaptureLoop.enumerate
  split
  · exact h.same rfl rfl rfl rfl rfl rfl rfl rfl
  · exact h.same rfl rfl rfl rfl rfl rfl rfl rfl

theorem presence_ends (h : Kept d) (it : Iteration) : Ends Kept Kept (presence it d) := by
  unfold presence
  split
  · exact h
  split
  · split
    · rename_i hgone
      have hnone : d.capture = none := by
        cases hcapture : d.capture with
        | none => rfl
        | some capture => exact absurd hgone (h.selected capture hcapture).2.2.2.2.1
      exact Kept.renewed (h.blank hnone) hnone h.labelled h.named (fun h => nomatch h) rfl
        (since_renewed _ _) (since_renewed _ _)
    · exact h
  · apply (stopCapture_ends h it.absentStopped).bind
    rintro _ rfl
    exact h.absent rfl rfl rfl rfl rfl rfl rfl

theorem inventory_ends (h : Kept d) (it : Iteration) : Ends Kept Kept (inventory it d) := by
  unfold inventory
  split
  · exact presence_ends (h.enumerate it) it
  · exact h

/-! ## Starts and failures -/

/-- A started capture that has failed counts as a retry, or as the end. -/
theorem Kept.fail (h : Kept d) (hcapture : d.capture = none) (hdue : d.health.retryAt = none)
    (hattempts : since .attempt d.log = d.health.retries + 1)
    (hfailures : since .failure d.log = d.health.retries) (meanwhile : Phase)
    (hmeanwhile : meanwhile ≠ .failed) (now : ℤ) : Kept (fail now meanwhile d) := by
  have hbounded := h.bounded
  have hlog := since_other .attempt .failure d.log (by simp) (by simp)
  have hblank := h.blank hcapture
  by_cases hlast : 3 ≤ d.health.retries
  · have hfail : CaptureLoop.fail now meanwhile d =
        { d with state := .failed, log := d.log ++ [.failure] } := by
      rw [CaptureLoop.fail, Health.failed, if_pos hlast]
      rfl
    rw [hfail]
    constructor
    · exact fun _ => hblank
    · intro capture hsome
      rw [hcapture] at hsome
      exact nomatch hsome
    · intro hvalid
      rw [hblank] at hvalid
      exact nomatch hvalid
    · exact h.labelled
    · exact h.named
    · exact fun hsome => absurd hdue hsome
    · exact fun hsome => absurd hcapture hsome
    · simpa only [hlog] using hbounded
    · refine Or.inr ⟨?_, hdue, hcapture, Or.inl rfl⟩
      rw [since_failure]
      omega
    · intro _
      simp only [since_failure, hlog]
      omega
  · have hfail : CaptureLoop.fail now meanwhile d =
        { d with
          health := { d.health with
            retries := d.health.retries + 1
            retryAt := some (now + (1000 * millisecond * (d.health.retries + 1) : ℕ)) }
          state := meanwhile, log := d.log ++ [.failure] } := by
      rw [CaptureLoop.fail, Health.failed, if_neg hlast]
      rfl
    rw [hfail]
    constructor
    · exact fun _ => hblank
    · intro capture hsome
      rw [hcapture] at hsome
      exact nomatch hsome
    · intro hvalid
      rw [hblank] at hvalid
      exact nomatch hvalid
    · exact h.labelled
    · exact h.named
    · intro _
      rw [hlog, hattempts]
    · exact fun hsome => absurd hcapture hsome
    · simp only [hlog]
      omega
    · refine Or.inl ?_
      rw [since_failure, hfailures]
    · exact fun hstate => absurd hstate hmeanwhile

theorem Kept.failures_eq (h : Kept d) (hopen : d.capture ≠ none ∨ d.health.retryAt ≠ none) :
    since .failure d.log = d.health.retries := by
  rcases h.failures with hsame | ⟨-, hdue, hnone, -⟩
  · exact hsame
  · rcases hopen with hsome | hsome
    · exact absurd hnone hsome
    · exact absurd hdue hsome

/-- A start that is due is not reported as failed before it is tried. -/
theorem Kept.state_ne (h : Kept d) (hdue : d.health.retryAt ≠ none) : d.state ≠ .failed := by
  intro hfailed
  have hsame := h.failures_eq (Or.inr hdue)
  have hfour := (h.failed hfailed).1
  have hbounded := h.bounded
  omega

/-- The start has been called, and what comes of it is open. -/
theorem Kept.attempted (h : Kept d) (hcapture : d.capture = none) (hdue : d.health.retryAt ≠ none) :
    Kept { d with
      health := { d.health with retryAt := none }, log := d.log ++ [.attempt] } := by
  have hattempts := h.due hdue
  have hfailures := h.failures_eq (Or.inr hdue)
  have hbounded := h.bounded
  have hblank := h.blank hcapture
  have hlog := since_other .failure .attempt d.log (by simp) (by simp)
  constructor
  · exact fun _ => hblank
  · intro capture hsome
    rw [hcapture] at hsome
    exact nomatch hsome
  · intro hvalid
    rw [hblank] at hvalid
    exact nomatch hvalid
  · exact h.labelled
  · exact h.named
  · exact fun hsome => absurd rfl hsome
  · exact fun hsome => absurd hcapture hsome
  · simp only [since_attempt]
    omega
  · exact Or.inl (hlog.trans hfailures)
  · exact fun hfailed => absurd hfailed (h.state_ne hdue)

theorem Kept.started (h : Kept d) {capture : Capture} (hcapture : d.capture = none)
    (hdue : d.health.retryAt = none) (hattempts : since .attempt d.log = d.health.retries + 1)
    (hfailures : since .failure d.log = d.health.retries)
    (hselected : d.selected = some capture.device.stableId) (hrole : capture.role = d.role)
    (now : ℤ) :
    Kept { d with
      capture := some capture, health := { d.health with last := now }, state := .starting } where
  blank hnone := nomatch hnone
  selected other hsome := by
    cases hsome
    refine ⟨hrole, ?_, hselected, hdue, ?_, ?_⟩
    · rw [← h.named, hselected]
      rfl
    · exact fun hstate => nomatch hstate
    · exact fun hstate => nomatch hstate
  shown hvalid := by
    rw [h.blank hcapture] at hvalid
    exact nomatch hvalid
  labelled := h.labelled
  named := h.named
  due hsome := absurd hdue hsome
  counted _ := hattempts
  bounded := h.bounded
  failures := Or.inl hfailures
  failed hstate := nomatch hstate

theorem Kept.startCapture (h : Kept d) (it : Iteration) : Kept (startCapture it d) := by
  unfold CaptureLoop.startCapture
  split
  · rename_i hready
    simp only [Bool.and_eq_true, Option.isNone_iff_eq_none] at hready
    obtain ⟨⟨hcapture, -⟩, hretry⟩ := hready
    have hdue : d.health.retryAt ≠ none := by
      intro hnone
      rw [hnone] at hretry
      exact nomatch hretry
    have hattempted := h.attempted hcapture hdue
    have hattempts : since .attempt (d.log ++ [.attempt]) = d.health.retries + 1 := by
      rw [since_attempt, h.due hdue]
    have hfailures : since .failure (d.log ++ [.attempt]) = d.health.retries :=
      (since_other _ _ d.log (by simp) (by simp)).trans (h.failures_eq (Or.inr hdue))
    dsimp only
    split
    · rename_i device hfound
      have hselected : some device.stableId = d.selected := by
        simpa using List.find?_some hfound
      split
      · exact hattempted.started hcapture rfl hattempts hfailures hselected.symm rfl it.now
      · rename_i error _
        have herror : Kept { d with
            health := { d.health with retryAt := none }, log := d.log ++ [.attempt]
            error := some (CaptureLoop.bounded error) } :=
          hattempted.same rfl rfl rfl rfl rfl rfl rfl rfl
        exact herror.fail hcapture rfl hattempts hfailures .starting (by simp) it.now
    · have hblank := h.blank hcapture
      constructor
      · exact fun _ => hblank
      · intro capture hsome
        rw [hcapture] at hsome
        exact nomatch hsome
      · intro hvalid
        rw [hblank] at hvalid
        exact nomatch hvalid
      · exact h.labelled
      · exact h.named
      · exact fun hsome => absurd rfl hsome
      · exact fun hsome => absurd hcapture hsome
      · exact h.bounded
      · exact Or.inl (h.failures_eq (Or.inr hdue))
      · exact fun hstate => nomatch hstate
  · exact h

/-! ## Frames -/

theorem write_eq_ok {ring ring' : Ring} {slot : Slot} (h : ring.write slot = .ok ring') :
    ring' = { ring with sequence := ring.sequence + 1, latest := some slot, valid := true } := by
  rw [Ring.write] at h
  split at h
  · exact nomatch h
  · cases h
    rfl

/-- A frame that is taken is the newest and the picture that is valid. -/
theorem Kept.framed (h : Kept d) {capture : Capture} (hcapture : d.capture = some capture)
    (slot : Slot) (hslot : slot.capture = capture) (hwritten : slot.written = now)
    (hnext : next.ring = { d.ring with
      sequence := d.ring.sequence + 1, latest := some slot, valid := true })
    (hsame : next.capture = d.capture) (hselected : next.selected = d.selected)
    (hrole : next.role = d.role) (hstate : next.state = .streaming)
    (hhealth : next.health = { d.health with last := now }) (hlog : next.log = d.log) :
    Kept next := by
  constructor
  all_goals simp only [hnext, hsame, hselected, hrole, hstate, hhealth, hlog]
  · intro hnone
    rw [hcapture] at hnone
    exact nomatch hnone
  · intro other hother
    obtain ⟨hrole, hsome, hid, hdue, -, -⟩ := h.selected other hother
    exact ⟨hrole, hsome, hid, hdue, by simp, by simp⟩
  · exact fun _ => ⟨trivial, slot, rfl, by rw [hcapture, hslot], hwritten⟩
  · exact h.labelled
  · exact h.named
  · exact h.due
  · exact h.counted
  · exact h.bounded
  · rcases h.failures with hcount | ⟨-, -, hnone, -⟩
    · exact Or.inl hcount
    · rw [hcapture] at hnone
      exact nomatch hnone
  · exact fun hfailed => nomatch hfailed

/-- A running capture whose picture is blank may be in any state but two. -/
theorem Kept.silent (h : Kept d) {capture : Capture} (hcapture : d.capture = some capture)
    (hring : next.ring = d.ring.invalidate) (hsame : next.capture = d.capture)
    (hselected : next.selected = d.selected) (hrole : next.role = d.role)
    (hstate : next.state ≠ .disconnected ∧ next.state ≠ .failed)
    (hretries : next.health.retries = d.health.retries)
    (hdue : next.health.retryAt = d.health.retryAt) (hlog : next.log = d.log) : Kept next := by
  constructor
  all_goals simp only [hring, hsame, hselected, hrole, hretries, hdue, hlog]
  · intro _
    rfl
  · intro other hother
    obtain ⟨hrole, hsome, hid, hdue, -, -⟩ := h.selected other hother
    exact ⟨hrole, hsome, hid, hdue, hstate⟩
  · exact fun hvalid => nomatch hvalid
  · exact h.labelled
  · exact h.named
  · exact h.due
  · exact h.counted
  · exact h.bounded
  · rcases h.failures with hcount | ⟨-, -, hnone, -⟩
    · exact Or.inl hcount
    · rw [hcapture] at hnone
      exact nomatch hnone
  · exact fun hfailed => absurd hfailed hstate.2

theorem elapsed_self (now : ℤ) : elapsed now now = 0 := by
  rw [elapsed, Int.sub_self]
  rfl

/-- What the loop has found once the capture was asked for a frame: it gives up on the capture,
or the picture is blank or fresh. -/
inductive Received (now : ℤ) (capture : Capture) (d : Daemon) : Daemon → Prop
  | framed {next : Daemon} (kept : Kept next) (runs : next.capture = some capture)
      (last : next.health.last = now) : Received now capture d next
  | waiting (last : elapsed now d.health.last < stall) : Received now capture d d
  | blank {next : Daemon} (kept : Kept next) (runs : next.capture = some capture)
      (valid : next.ring.valid = false) : Received now capture d next
  | broken {next : Daemon} (due : restart ≤ elapsed now next.health.last)
      (kept : Kept { next with ring := next.ring.invalidate })
      (runs : next.capture = some capture) : Received now capture d next

theorem receive_received (h : Kept d) {capture : Capture} (hcapture : d.capture = some capture)
    (it : Iteration) : Received it.now capture d (receive it capture d) := by
  have hphase := (h.selected capture hcapture).2.2.2.2
  unfold receive
  cases hpulled : capture.frame it.now it.pulled d.ring with
  | error error =>
    apply Received.broken
    · simp only [elapsed]
      omega
    · exact h.silent hcapture rfl rfl rfl rfl hphase rfl rfl rfl
    · exact hcapture
  | ok found =>
    cases found with
    | none =>
      dsimp only
      split
      · apply Received.blank
        · exact h.silent hcapture rfl rfl rfl rfl ⟨by simp, by simp⟩ rfl rfl rfl
        · exact hcapture
        · rfl
      · rename_i hfresh
        apply Received.waiting
        simpa [Health.stale] using hfresh
    | some found =>
      obtain ⟨frame, ring⟩ := found
      unfold Capture.frame at hpulled
      split at hpulled
      · exact nomatch hpulled
      · exact nomatch hpulled
      · rename_i sample _
        split at hpulled
        · exact nomatch hpulled
        · rename_i written hwritten
          cases hpulled
          have hring := write_eq_ok hwritten
          apply Received.framed
          · exact h.framed hcapture ⟨sample, capture, it.now⟩ rfl rfl hring rfl rfl rfl rfl rfl rfl
          · exact hcapture
          · rfl

/-- The picture is blank, or its frame is younger than the stall. -/
def Fresh (now : ℤ) (d : Daemon) : Prop :=
  d.ring.valid = true → elapsed now d.health.last < stall

theorem Received.runs {capture : Capture} (h : Received now capture d next)
    (hcapture : d.capture = some capture) : next.capture = some capture := by
  cases h with
  | framed _ hruns _ => exact hruns
  | waiting _ => exact hcapture
  | blank _ hruns _ => exact hruns
  | broken _ _ hruns => exact hruns

theorem Received.blanked {capture : Capture} (h : Received now capture d next) (hd : Kept d) :
    Kept { next with ring := next.ring.invalidate } := by
  cases h with
  | framed hnext _ _ => exact hnext.blanked rfl rfl rfl rfl rfl rfl rfl
  | waiting _ => exact hd.blanked rfl rfl rfl rfl rfl rfl rfl
  | blank hnext _ _ => exact hnext.blanked rfl rfl rfl rfl rfl rfl rfl
  | broken _ hnext _ => exact hnext

theorem Received.kept {capture : Capture} (h : Received now capture d next) (hd : Kept d)
    (hdue : next.health.restartDue now = false) : Kept next ∧ Fresh now next := by
  cases h with
  | framed hnext _ hlast =>
    refine ⟨hnext, ?_⟩
    intro _
    rw [hlast, elapsed_self]
    decide
  | waiting hlast => exact ⟨hd, fun _ => hlast⟩
  | blank hnext _ hvalid =>
    refine ⟨hnext, ?_⟩
    intro hshown
    rw [hvalid] at hshown
    exact nomatch hshown
  | broken hlate _ _ =>
    rw [Health.restartDue, decide_eq_false_iff_not] at hdue
    exact absurd hlate hdue

theorem pull_ends (h : Kept d) (it : Iteration) :
    Ends Kept (fun next => Kept next ∧ Fresh it.now next) (pull it d) := by
  unfold pull
  cases hcapture : d.capture with
  | none =>
    refine ⟨h, ?_⟩
    intro hvalid
    rw [h.blank hcapture] at hvalid
    exact nomatch hvalid
  | some capture =>
    have hreceived := receive_received h hcapture it
    dsimp only
    generalize receive it capture d = next at hreceived ⊢
    have hruns := hreceived.runs hcapture
    have hblanked := hreceived.blanked h
    split
    · apply (stopCapture_ends hblanked it.silentStopped).bind
      rintro _ rfl
      obtain ⟨-, -, -, hdue, -⟩ := hblanked.selected capture hruns
      have hattempts := hblanked.counted (by simp [hruns])
      have hfailures := hblanked.failures_eq (Or.inl (by simp [hruns]))
      have hended : Kept { next with
          ring := next.ring.invalidate, capture := none
          error := some (next.error.getD "Camera produced no frame for 2 seconds") } :=
        hblanked.taken rfl rfl rfl rfl rfl rfl rfl
      have hfailed := hended.fail rfl hdue hattempts hfailures .stale (by simp) it.now
      have hblank := hfailed.blank rfl
      exact ⟨hfailed, fun hvalid => nomatch hvalid.symm.trans hblank⟩
    · rename_i hdue
      exact hreceived.kept h (by simpa using hdue)

theorem publish_ends (h : Kept d) (hfresh : Fresh now d) (it : Iteration) :
    Ends Kept (fun next => Kept next ∧ Fresh now next) (publish it d) := by
  unfold publish
  have hattempts := since_other .attempt (.status (d.status it.published))
    d.log (by simp) (by simp)
  have hfailures := since_other .failure (.status (d.status it.published))
    d.log (by simp) (by simp)
  split
  · dsimp only
    split
    · exact ⟨h.same rfl rfl rfl rfl rfl rfl hattempts hfailures, hfresh⟩
    · exact h.same rfl rfl rfl rfl rfl rfl hattempts hfailures
  · exact ⟨h, hfresh⟩

theorem iterate_ends (h : Kept d) (it : Iteration) :
    Ends Kept (fun next => Kept next ∧ Fresh it.now next) (iterate it d) := by
  unfold iterate
  apply (commands_ends h it).bind
  intro commanded hcommanded
  apply (inventory_ends hcommanded it).bind
  intro looked hlooked
  apply (pull_ends (hlooked.startCapture it) it).bind
  rintro pulled ⟨hpulled, hfresh⟩
  exact publish_ends hpulled hfresh it

/-! ## Every run -/

theorem Kept.leave (h : Kept d) : Kept (leave d) := h.taken rfl rfl rfl rfl rfl rfl rfl

/-- The loop that goes on is kept and fresh, and one that was left is kept and blank. -/
theorem step_ends {loop : Except Daemon Daemon} (h : Ends Kept Kept loop)
    (hleft : Ends (fun d => d.ring.valid = false) (fun _ => True) loop) (it : Iteration) :
    Ends Kept (fun next => Kept next ∧ Fresh it.now next) (step loop it) ∧
      Ends (fun d => d.ring.valid = false) (fun _ => True) (step loop it) := by
  cases loop with
  | error d => exact ⟨h, hleft⟩
  | ok d =>
    have hiterate := iterate_ends h it
    simp only [step]
    generalize iterate it d = next at hiterate ⊢
    cases next with
    | error last => exact ⟨hiterate.leave, rfl⟩
    | ok next => exact ⟨hiterate, trivial⟩

theorem foldl_step_ends (now : ℤ) (devices : List Device) (its : List Iteration) :
    Ends Kept Kept (its.foldl step (.ok (start now devices))) ∧
      Ends (fun d => d.ring.valid = false) (fun _ => True)
        (its.foldl step (.ok (start now devices))) := by
  induction its using List.reverseRecOn with
  | nil => exact ⟨Kept.start now devices, trivial⟩
  | append_singleton its it ih =>
    rw [List.foldl_append]
    have hstep := step_ends ih.1 ih.2 it
    exact ⟨hstep.1.mono fun next h => h.1, hstep.2⟩

/-- At the end of every iteration the ring is valid only while a capture of the selected camera
streams and its frame is younger than the stall by the iteration's clock; four starts at most are
tried before a failure is reported. -/
theorem camera_blanking (now : ℤ) (devices : List Device) (its : List Iteration)
    (it : Iteration) :
    let d := daemon ((its ++ [it]).foldl step (.ok (start now devices)))
    (d.ring.valid = true → ∃ slot role, d.ring.latest = some slot ∧
      d.capture = some slot.capture ∧ d.state = .streaming ∧
      elapsed it.now slot.written < stall ∧ d.selected = some slot.capture.device.stableId ∧
      slot.capture.role = some role ∧ d.role = some role ∧ d.ring.role = role.number + 1) ∧
    since .attempt d.log ≤ 1 + 3 ∧
    (d.state = .failed → since .attempt d.log = 1 + 3 ∧ since .failure d.log = 1 + 3 ∧
      d.health.retryAt = none ∧ d.capture = none) ∧
    (since .failure d.log = 1 + 3 → d.health.retryAt = none ∧ d.capture = none ∧
      (d.state = .failed ∨ d.state = .disconnected)) := by
  intro d
  have hrun := foldl_step_ends now devices its
  have hstep := step_ends hrun.1 hrun.2 it
  have hlast : (its ++ [it]).foldl step (.ok (start now devices)) =
      step (its.foldl step (.ok (start now devices))) it := by
    rw [List.foldl_append]
    rfl
  have hd : Kept d ∧ Fresh it.now d := by
    change Kept (daemon _) ∧ Fresh it.now (daemon _)
    rw [hlast]
    generalize step (its.foldl step (.ok (start now devices))) it = loop at hstep
    cases loop with
    | ok next => exact hstep.1
    | error last =>
      refine ⟨hstep.1, ?_⟩
      intro hvalid
      exact nomatch hvalid.symm.trans hstep.2
  obtain ⟨hkept, hfresh⟩ := hd
  have hbounded := hkept.bounded
  have hended : since .failure d.log = 4 → d.health.retryAt = none ∧ d.capture = none ∧
      (d.state = .failed ∨ d.state = .disconnected) := by
    intro hfour
    rcases hkept.failures with hcount | ⟨-, hdue, hnone, hphase⟩
    · omega
    · exact ⟨hdue, hnone, hphase⟩
  refine ⟨?_, by omega, ?_, hended⟩
  · intro hvalid
    obtain ⟨hstate, slot, hlatest, hcapture, hwritten⟩ := hkept.shown hvalid
    obtain ⟨hrole, hsome, hselected, -⟩ := hkept.selected slot.capture hcapture
    obtain ⟨role, hdrole⟩ := Option.isSome_iff_exists.mp hsome
    exact ⟨slot, role, hlatest, hcapture, hstate, hwritten ▸ hfresh hvalid, hselected,
      hrole.trans hdrole, hdrole, hkept.labelled role hdrole⟩
  · intro hfailed
    obtain ⟨hfour, htried⟩ := hkept.failed hfailed
    obtain ⟨hdue, hnone, -⟩ := hended hfour
    exact ⟨htried, hfour, hdue, hnone⟩

/-- The rear camera is started, and its first frame comes in the iteration after. -/
def startRear : Iteration where
  now := 0
  received := some [{
    command := some { id := 7, op := .start, role := some "rear", stableId := some "sysfs:a" } }]
  devices := .ok [⟨"sysfs:a", "A", "/dev/video0"⟩]

def firstFrame : Iteration where
  now := 10
  pulled := .sample ⟨16, 2, 2, 8, (30, 1)⟩

theorem camera_blanking_streams :
    let d := daemon (([startRear] ++ [firstFrame]).foldl step (.ok (start 0 [])))
    d.ring.valid = true ∧ ∃ slot role, d.ring.latest = some slot ∧
      slot.capture.role = some role ∧ elapsed 10 slot.written < stall := by
  have hvalid : (daemon (([startRear] ++ [firstFrame]).foldl step
      (.ok (start 0 [])))).ring.valid = true := by
    decide +kernel
  obtain ⟨slot, role, hlatest, -, -, hfresh, -, hrole, -⟩ :=
    (camera_blanking 0 [] [startRear] firstFrame).1 hvalid
  exact ⟨hvalid, slot, role, hlatest, hrole, hfresh⟩

end ProjectArgo.Camera.CaptureLoop
