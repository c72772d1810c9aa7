import ProjectArgo.Camera.SurroundJobs

/-!
# Who owns a job of the engine

A run polls and cancels the one job that its own start was answered with, and cancels it
once at most. It ends once, with what its job ended with only if nothing stopped it
before. When it has ended and nothing it has asked for is still open, its job was seen at
an end or has been cancelled, unless a poll failed or the listener threw.
-/
namespace ProjectArgo.Camera.Jobs

open Library.Run

variable {α ε : Type*}

def Act.isCancel : Act α ε → Bool
  | .cancel _ => true
  | _ => false

def Act.isEnded : Act α ε → Bool
  | .ended _ => true
  | _ => false

/-- What a run does, in the order of its log. -/
def Act.Due (before : List (Act α ε)) : Act α ε → Prop
  | .jobStatus id | .cancel id => .started id ∈ before
  | .executed (.ok value) =>
    (∃ status, .observed status ∈ before ∧ status.verdict = some (.ok value : Except (JobFailure ε) α)) ∧
      ∀ reason, .stopped reason ∉ before
  | .ended (.ok value) => .executed (.ok value) ∈ before ∧ ∀ reason, .stopped reason ∉ before
  | .ended (.error failure) => .executed (.error failure) ∈ before ∨ .stopped failure ∈ before
  | _ => True

/-- The job was seen at an end, or a poll has failed. -/
def Seen (log : List (Act α ε)) : Prop :=
  (∃ status, .observed status ∈ log ∧ status.Terminal) ∨ ∃ error, .broke error ∈ log

theorem Seen.append {log : List (Act α ε)} (h : Seen log) (more : List (Act α ε)) :
    Seen (log ++ more) :=
  h.imp (fun ⟨status, hobserved, hterminal⟩ =>
      ⟨status, List.mem_append_left _ hobserved, hterminal⟩)
    fun ⟨error, hbroke⟩ => ⟨error, List.mem_append_left _ hbroke⟩

/-- The log of a run with the state it is in then. -/
structure Owned (run : JobRun α ε) (log : List (Act α ε)) : Prop where
  due : Guarded Act.Due log
  oneJob : ∀ id other, .started id ∈ log → .started other ∈ log → id = other
  oneReason : ∀ reason other, .stopped reason ∈ log → .stopped other ∈ log → reason = other
  cancelledOnce : log.countP Act.isCancel ≤ 1
  endedOnce : log.countP Act.isEnded ≤ 1
  /-- Nothing that was asked for is open, and the future of the run has completed. -/
  jobs : run.ended → run.stage = .done → run.cleanup ≠ some false → ∀ id, .started id ∈ log →
    .cancel id ∈ log ∨ Seen log

/-! ## What holds of a run between any two awaits -/

/-- All but that a run that was stopped cleans up after the job it knows. -/
structure Core (run : JobRun α ε) (log : List (Act α ε)) : Prop where
  due : Guarded Act.Due log
  started : ∀ id, .started id ∈ log ↔ run.id = some id
  stopped : ∀ reason, .stopped reason ∈ log ↔ run.failure = some reason
  cleaning : run.stage = .cleaning → run.failure.isSome
  cancels : log.countP Act.isCancel = if run.cleanup.isSome then 1 else 0
  cancelled : ∀ id, run.id = some id → run.cleanup.isSome → .cancel id ∈ log
  cleanup : run.cleanup.isSome → run.id.isSome
  ends : log.countP Act.isEnded = if run.ended then 1 else 0
  ended : run.ended → run.outcome.isSome
  released : ∀ outcome, run.outcome = some outcome → run.ended ∨
    ∃ reason, outcome = .error reason ∧ run.failure = some reason
  running : run.failure = none → run.outcome.isSome → run.stage = .done
  jobs : run.stage = .done → run.id.isSome → run.cleanup.isSome ∨ Seen log

/-- A run that was stopped has cancelled the job it knows. -/
def Cleaned (run : JobRun α ε) : Prop := run.failure.isSome → run.id.isSome → run.cleanup.isSome

section Steps

variable {run : JobRun α ε} {log : List (Act α ε)}

/-- An act that tells neither of commands nor of ends. -/
theorem Core.note (h : Core run log) {act : Act α ε}
    (hact : (∃ status, act = .observed status) ∨ ∃ error, act = .broke error) :
    Core run (log ++ [act]) := by
  have hdue : Act.Due log act := by
    rcases hact with ⟨status, rfl⟩ | ⟨error, rfl⟩
    · trivial
    · trivial
  have hnone : act.isCancel = false ∧ act.isEnded = false ∧ (∀ id, act ≠ .started id) ∧
      ∀ reason, act ≠ .stopped reason := by
    rcases hact with ⟨status, rfl⟩ | ⟨error, rfl⟩
    · simp [Act.isCancel, Act.isEnded]
    · simp [Act.isCancel, Act.isEnded]
  obtain ⟨hcancel, hended, hstarted, hstopped⟩ := hnone
  exact
    { due := guarded_concat.mpr ⟨h.due, hdue⟩
      started := fun id => by
        rw [List.mem_append, List.mem_singleton, ← h.started id]
        exact or_iff_left (hstarted id).symm
      stopped := fun reason => by
        rw [List.mem_append, List.mem_singleton, ← h.stopped reason]
        exact or_iff_left (hstopped reason).symm
      cleaning := h.cleaning
      cancels := by simp [List.countP_append, hcancel, h.cancels]
      cancelled := fun id hid hcleanup => List.mem_append_left _ (h.cancelled id hid hcleanup)
      cleanup := h.cleanup
      ends := by simp [List.countP_append, hended, h.ends]
      ended := h.ended
      released := h.released
      running := h.running
      jobs := fun hdone hid => (h.jobs hdone hid).imp_right (·.append _) }

theorem Core.stop (h : Core run log) (reason : JobFailure ε) :
    Core (run.stop reason).1 (log ++ (run.stop reason).2) := by
  unfold JobRun.stop
  split
  · rw [List.append_nil]
    exact h
  · rename_i hnone
    exact
      { due := guarded_concat.mpr ⟨h.due, trivial⟩
        started := fun id => by simp [← h.started id]
        stopped := fun other => by
          have hnever : .stopped other ∉ log := by
            rw [h.stopped, hnone]
            simp
          rw [List.mem_append, List.mem_singleton, or_iff_right hnever]
          constructor
          · intro hsame
            exact congrArg some (Act.stopped.inj hsame).symm
          · intro hsame
            exact congrArg Act.stopped (Option.some.inj hsame).symm
        cleaning := fun _ => rfl
        cancels := by simp [List.countP_append, Act.isCancel, h.cancels]
        cancelled := fun id hid hcleanup => List.mem_append_left _ (h.cancelled id hid hcleanup)
        cleanup := h.cleanup
        ends := by simp [List.countP_append, Act.isEnded, h.ends]
        ended := h.ended
        released := fun outcome houtcome => by
          rcases h.released outcome houtcome with hended | ⟨other, -, hsome⟩
          · exact Or.inl hended
          · rw [hnone] at hsome
            exact absurd hsome (by simp)
        running := by simp
        jobs := fun hdone hid => (h.jobs hdone hid).imp_right (·.append _) }

/-- A cleanup sends its command, or one has been sent, or there is no job to cancel. -/
theorem Core.clean (h : Core run log) :
    Core run.clean.1 (log ++ run.clean.2) ∧ Cleaned run.clean.1 ∧
      run.clean.1.failure = run.failure := by
  unfold JobRun.clean
  split
  · rename_i id hid hnone
    refine ⟨?_, fun _ _ => rfl, rfl⟩
    exact
      { due := guarded_concat.mpr ⟨h.due, (h.started id).mpr hid⟩
        started := fun other => by simp [← h.started other]
        stopped := fun reason => by simp [← h.stopped reason]
        cleaning := h.cleaning
        cancels := by simp [List.countP_append, Act.isCancel, h.cancels, hnone]
        cancelled := by
          intro other hother _
          obtain rfl : id = other := Option.some.inj (hid.symm.trans hother)
          exact List.mem_append_right _ (List.mem_singleton.mpr rfl)
        cleanup := fun _ => by simp [hid]
        ends := by simp [List.countP_append, Act.isEnded, h.ends]
        ended := h.ended
        released := h.released
        running := h.running
        jobs := fun _ _ => Or.inl rfl }
  · rename_i hother
    rw [List.append_nil]
    refine ⟨h, ?_, rfl⟩
    intro _ hid
    obtain ⟨id, hid⟩ := Option.isSome_iff_exists.mp hid
    cases hcleanup : run.cleanup with
    | none => exact absurd hcleanup (hother id hid)
    | some _ => rfl

theorem Core.settle (h : Core run log) {outcome : Except (JobFailure ε) α}
    (hdue : Act.Due log (.ended outcome)) (hrunning : run.failure = none → run.stage = .done) :
    Core (run.settle outcome).1 (log ++ (run.settle outcome).2) := by
  unfold JobRun.settle
  split
  · rw [List.append_nil]
    exact h
  · rename_i hnone
    have hended : run.ended = false := by
      cases hended : run.ended with
      | false => rfl
      | true =>
        have hsome := h.ended hended
        rw [hnone] at hsome
        exact absurd hsome (by simp)
    exact
      { due := guarded_concat.mpr ⟨h.due, hdue⟩
        started := fun id => by simp [← h.started id]
        stopped := fun reason => by simp [← h.stopped reason]
        cleaning := h.cleaning
        cancels := by simp [List.countP_append, Act.isCancel, h.cancels]
        cancelled := fun id hid hcleanup => List.mem_append_left _ (h.cancelled id hid hcleanup)
        cleanup := h.cleanup
        ends := by simp [List.countP_append, Act.isEnded, h.ends, hended]
        ended := fun _ => rfl
        released := fun _ _ => Or.inl rfl
        running := fun hfailure _ => hrunning hfailure
        jobs := fun hdone hid => (h.jobs hdone hid).imp_right (·.append _) }

theorem stop_run (run : JobRun α ε) (reason : JobFailure ε) :
    (run.stop reason).1.id = run.id ∧ (run.stop reason).1.stage = run.stage ∧
      (run.stop reason).1.outcome = run.outcome := by
  unfold JobRun.stop
  split
  · exact ⟨rfl, rfl, rfl⟩
  · exact ⟨rfl, rfl, rfl⟩

theorem clean_run {run : JobRun α ε} : run.clean.1.id = run.id ∧ run.clean.1.stage = run.stage := by
  unfold JobRun.clean
  split
  · exact ⟨rfl, rfl⟩
  · exact ⟨rfl, rfl⟩

theorem cancel_stage {run : JobRun α ε} : run.cancel.1.stage = run.stage :=
  clean_run.2.trans (stop_run run _).2.1

theorem terminal_of_verdict {status : JobStatus α} {outcome : Except (JobFailure ε) α}
    (h : status.verdict = some outcome) : status.Terminal := by
  unfold JobStatus.verdict at h
  unfold JobStatus.Terminal
  split at h
  · rename_i hstate
    simp [hstate]
  · split at h
    · rename_i hstate
      simp [hstate]
    · split at h
      · rename_i hstate
        simp [hstate]
      · exact absurd h (by simp)

/-- What holds of a run between two of its awaits. -/
structure Sound (run : JobRun α ε) (log : List (Act α ε)) : Prop where
  core : Core run log
  cleaned : Cleaned run
  unknown : run.stage = .starting → run.id = none

theorem settle_run (run : JobRun α ε) (outcome : Except (JobFailure ε) α) :
    (run.settle outcome).1.failure = run.failure ∧ (run.settle outcome).1.id = run.id ∧
      (run.settle outcome).1.cleanup = run.cleanup := by
  unfold JobRun.settle
  split
  · exact ⟨rfl, rfl, rfl⟩
  · exact ⟨rfl, rfl, rfl⟩

theorem settle_stage (run : JobRun α ε) (outcome : Except (JobFailure ε) α) :
    (run.settle outcome).1.stage = run.stage := by
  unfold JobRun.settle
  split
  · rfl
  · rfl

theorem Core.finish (h : Core run log) (hcleaned : Cleaned run)
    {outcome : Except (JobFailure ε) α}
    (hdue : Act.Due log (.executed outcome))
    (hjobs : run.id.isSome → run.cleanup.isSome ∨ Seen log) :
    Sound (run.finish outcome).1 (log ++ (run.finish outcome).2) := by
  unfold JobRun.finish JobRun.andThen
  dsimp only
  rw [← List.append_assoc]
  have hcore : Core { run with stage := .done } (log ++ [.executed outcome]) :=
    { due := guarded_concat.mpr ⟨h.due, hdue⟩
      started := fun id => by simp [← h.started id]
      stopped := fun reason => by simp [← h.stopped reason]
      cleaning := by simp
      cancels := by simp [List.countP_append, Act.isCancel, h.cancels]
      cancelled := fun id hid hcleanup => List.mem_append_left _ (h.cancelled id hid hcleanup)
      cleanup := h.cleanup
      ends := by simp [List.countP_append, Act.isEnded, h.ends]
      ended := h.ended
      released := h.released
      running := fun _ _ => rfl
      jobs := fun _ hid => (hjobs hid).imp_right (·.append _) }
  refine ⟨hcore.settle ?_ fun _ => rfl, ?_, ?_⟩
  · cases outcome with
    | error failure => exact Or.inl (List.mem_append_right _ (List.mem_singleton.mpr rfl))
    | ok value =>
      refine ⟨List.mem_append_right _ (List.mem_singleton.mpr rfl), ?_⟩
      intro reason hreason
      rcases List.mem_append.mp hreason with hreason | hreason
      · exact hdue.2 reason hreason
      · exact absurd (List.mem_singleton.mp hreason) (by simp)
  · obtain ⟨hfailure, hid, hcleanup⟩ := settle_run { run with stage := .done } outcome
    unfold Cleaned
    rw [hfailure, hid, hcleanup]
    exact hcleaned
  · intro hstarting
    rw [settle_stage] at hstarting
    exact absurd hstarting (by simp)

theorem Core.poll (h : Core run log) (hcleaned : Cleaned run)
    (hrunning : run.failure = none → run.outcome = none) :
    Sound run.poll.1 (log ++ run.poll.2) := by
  unfold JobRun.poll
  dsimp only
  refine ⟨?_, hcleaned, by simp⟩
  have hsilent : ∀ act ∈ run.id.toList.map (Act.jobStatus : ℤ → Act α ε),
      ∃ id, run.id = some id ∧ act = .jobStatus id := by
    intro act hact
    obtain ⟨id, hid, rfl⟩ := List.mem_map.mp hact
    exact ⟨id, Option.mem_toList.mp hid, rfl⟩
  have hcancel : (run.id.toList.map (Act.jobStatus : ℤ → Act α ε)).countP Act.isCancel = 0 := by
    rw [List.countP_eq_zero]
    intro act hact
    obtain ⟨id, -, rfl⟩ := hsilent act hact
    simp [Act.isCancel]
  have hended : (run.id.toList.map (Act.jobStatus : ℤ → Act α ε)).countP Act.isEnded = 0 := by
    rw [List.countP_eq_zero]
    intro act hact
    obtain ⟨id, -, rfl⟩ := hsilent act hact
    simp [Act.isEnded]
  exact
    { due := by
        apply guarded_append_of_forall h.due
        intro act hact before hbefore
        obtain ⟨id, hid, rfl⟩ := hsilent act hact
        exact hbefore.mem ((h.started id).mpr hid)
      started := fun id => by simp [← h.started id]
      stopped := fun reason => by simp [← h.stopped reason]
      cleaning := by simp
      cancels := by rw [List.countP_append, hcancel, h.cancels, Nat.add_zero]
      cancelled := fun id hid hcleanup => List.mem_append_left _ (h.cancelled id hid hcleanup)
      cleanup := h.cleanup
      ends := by rw [List.countP_append, hended, h.ends, Nat.add_zero]
      ended := h.ended
      released := h.released
      running := by
        intro hfailure houtcome
        have houtcome : run.outcome.isSome := houtcome
        rw [hrunning hfailure] at houtcome
        exact absurd houtcome (by simp)
      jobs := by simp }

/-- Where the code of a run awaits something else. -/
theorem Core.stage (h : Core run log) (hcleaned : Cleaned run) {stage : Stage}
    (hrunning : run.failure = none → run.outcome = none)
    (hstage : stage = .pausing ∨ stage = .cleaning ∧ run.failure.isSome) :
    Sound { run with stage := stage } log := by
  refine ⟨?_, hcleaned, ?_⟩
  · exact
    { h with
      cleaning := by
        intro hcleaning
        rcases hstage with hpausing | ⟨-, hfailure⟩
        · exact absurd (hpausing.symm.trans hcleaning) (by simp)
        · exact hfailure
      running := by
        intro hfailure houtcome
        have houtcome : run.outcome.isSome := houtcome
        rw [hrunning hfailure] at houtcome
        exact absurd houtcome (by simp)
      jobs := by
        intro hdone
        rcases hstage with hpausing | ⟨hcleaning, -⟩
        · exact absurd (hpausing.symm.trans hdone) (by simp)
        · exact absurd (hcleaning.symm.trans hdone) (by simp) }
  · intro hstarting
    rcases hstage with hpausing | ⟨hcleaning, -⟩
    · exact absurd (hpausing.symm.trans hstarting) (by simp)
    · exact absurd (hcleaning.symm.trans hstarting) (by simp)

theorem outcome_none (h : Core run log) (hstage : run.stage ≠ .done) (hfailure : run.failure = none) :
    run.outcome = none := by
  cases houtcome : run.outcome with
  | none => rfl
  | some outcome => exact absurd (h.running hfailure (by simp [houtcome])) hstage

theorem Sound.nothing (h : Sound run log) : Sound run (log ++ []) := by
  rw [List.append_nil]
  exact h

theorem sound_startReplied (h : Sound run log) (reply : Except ε (Option ℤ)) :
    Sound (run.startReplied reply).1 (log ++ (run.startReplied reply).2) := by
  unfold JobRun.startReplied
  split
  · exact h.nothing
  · rename_i hstage
    have hstage : run.stage = .starting := not_not.mp hstage
    have hid := h.unknown hstage
    have hjobs : run.id.isSome → run.cleanup.isSome ∨ Seen log := by
      rw [hid]
      exact fun hsome => absurd hsome (by simp)
    split
    · exact h.core.finish h.cleaned trivial hjobs
    · exact h.core.finish h.cleaned trivial hjobs
    · rename_i id
      split
      · exact h.core.finish h.cleaned trivial hjobs
      · have hcleanup : run.cleanup = none := by
          cases hcleanup : run.cleanup with
          | none => rfl
          | some ended =>
            have hsome := h.core.cleanup (by simp [hcleanup])
            rw [hid] at hsome
            exact absurd hsome (by simp)
        have hnever : ∀ other, .started other ∉ log := by
          intro other
          rw [h.core.started, hid]
          simp
        have hcore : Core { run with id := some id } (log ++ [.started id]) :=
          { due := guarded_concat.mpr ⟨h.core.due, trivial⟩
            started := fun other => by simp [hnever other, eq_comm]
            stopped := fun reason => by simp [← h.core.stopped reason]
            cleaning := h.core.cleaning
            cancels := by simp [List.countP_append, Act.isCancel, h.core.cancels]
            cancelled := fun _ _ hsome => by simp [hcleanup] at hsome
            cleanup := fun _ => rfl
            ends := by simp [List.countP_append, Act.isEnded, h.core.ends]
            ended := h.core.ended
            released := h.core.released
            running := h.core.running
            jobs := fun hdone => absurd (hstage.symm.trans hdone) (by simp) }
        dsimp only
        split
        · -- The run was stopped while its worker started: the job is cancelled at once.
          rename_i hfailure
          unfold JobRun.andThen
          dsimp only
          rw [List.append_nil, ← List.append_assoc]
          obtain ⟨hclean, hcleaned, hsame⟩ := hcore.clean
          refine hclean.stage hcleaned ?_ (Or.inr ⟨rfl, by rw [hsame]; exact hfailure⟩)
          intro hnone
          rw [hsame.symm.trans hnone] at hfailure
          exact absurd hfailure (by simp)
        · rename_i hfailure
          unfold JobRun.andThen
          dsimp only
          rw [← List.append_assoc]
          have hnone : run.failure = none := by simpa using hfailure
          refine hcore.poll ?_ fun _ => outcome_none hcore (by simp [hstage]) hnone
          exact fun hsome => absurd hsome hfailure

theorem sound_cancel (h : Sound run log) : Sound run.cancel.1 (log ++ run.cancel.2) := by
  unfold JobRun.cancel JobRun.andThen
  dsimp only
  rw [List.append_nil, ← List.append_assoc]
  have hstop := h.core.stop (.stateError "Job cancelled")
  have hcore : Core { (run.stop (.stateError "Job cancelled")).1 with running := false }
      (log ++ (run.stop (.stateError "Job cancelled")).2) := { hstop with }
  obtain ⟨hclean, hcleaned, -⟩ := hcore.clean
  refine ⟨hclean, hcleaned, ?_⟩
  obtain ⟨hid, hstage, -⟩ := stop_run run (.stateError "Job cancelled")
  intro hstarting
  rw [clean_run.2] at hstarting
  rw [clean_run.1]
  exact hid.trans (h.unknown (hstage.symm.trans hstarting))

theorem sound_judge (h : Sound run log) {status : JobStatus α} (hobserved : .observed status ∈ log)
    (hstage : run.stage = .polling) :
    Sound (run.judge status).1 (log ++ (run.judge status).2) := by
  unfold JobRun.judge
  split
  · rename_i failure hfailure
    refine h.core.finish h.cleaned trivial ?_
    exact fun hid => Or.inl (h.cleaned (by simp [hfailure]) hid)
  · rename_i outcome hnone hverdict
    refine h.core.finish h.cleaned ?_ ?_
    · cases outcome with
      | error failure => trivial
      | ok value =>
        refine ⟨⟨status, hobserved, hverdict⟩, ?_⟩
        intro reason
        rw [h.core.stopped, hnone]
        simp
    · exact fun _ => Or.inr (Or.inl ⟨status, hobserved, terminal_of_verdict hverdict⟩)
  · rename_i hnone _
    rw [List.append_nil]
    exact h.core.stage h.cleaned (fun _ => outcome_none h.core (by rw [hstage]; simp) hnone)
      (Or.inl rfl)

theorem sound_statusReplied (h : Sound run log) (reply : Except ε (JobStatus α))
    (progress : Progress ε) :
    Sound (run.statusReplied reply progress).1 (log ++ (run.statusReplied reply progress).2) := by
  unfold JobRun.statusReplied
  split
  · exact h.nothing
  · rename_i hstage
    have hstage : run.stage = .polling := not_not.mp hstage
    split
    · rename_i error
      unfold JobRun.andThen
      dsimp only
      rw [← List.append_assoc]
      refine (h.core.note (Or.inr ⟨error, rfl⟩)).finish h.cleaned trivial ?_
      exact fun _ => Or.inr (Or.inr ⟨error, by simp⟩)
    · rename_i status
      split
      · rename_i failure hfailure
        refine h.core.finish h.cleaned trivial ?_
        exact fun hid => Or.inl (h.cleaned (by simp [hfailure]) hid)
      · have hnoted : Sound run (log ++ [.observed status]) :=
          ⟨h.core.note (Or.inl ⟨status, rfl⟩), h.cleaned, h.unknown⟩
        dsimp only
        split
        · unfold JobRun.andThen
          dsimp only
          rw [← List.append_assoc]
          exact sound_judge hnoted (by simp) hstage
        · unfold JobRun.andThen
          dsimp only
          rw [← List.append_assoc, ← List.append_assoc]
          exact sound_judge (sound_cancel hnoted) (by simp) (cancel_stage.trans hstage)
        · rename_i error
          unfold JobRun.andThen
          dsimp only
          rw [← List.append_assoc, ← List.append_assoc]
          refine (hnoted.core.note (Or.inr ⟨error, rfl⟩)).finish h.cleaned trivial ?_
          exact fun _ => Or.inr (Or.inr ⟨error, by simp⟩)

theorem sound_resumed (h : Sound run log) : Sound run.resumed.1 (log ++ run.resumed.2) := by
  unfold JobRun.resumed
  split
  · exact h.nothing
  · rename_i hstage
    have hstage : run.stage = .pausing := not_not.mp hstage
    split
    · rename_i failure hfailure
      refine h.core.finish h.cleaned trivial ?_
      exact fun hid => Or.inl (h.cleaned (by simp [hfailure]) hid)
    · rename_i hnone
      exact h.core.poll h.cleaned fun _ => outcome_none h.core (by rw [hstage]; simp) hnone

theorem sound_stopSeen (h : Sound run log) : Sound run.stopSeen.1 (log ++ run.stopSeen.2) := by
  unfold JobRun.stopSeen
  split
  · rename_i failure hfailure
    obtain ⟨hsame, hid, hcleanup⟩ := settle_run run (.error failure : Except (JobFailure ε) α)
    refine ⟨h.core.settle (Or.inr ((h.core.stopped failure).mpr hfailure)) ?_, ?_, ?_⟩
    · rw [hfailure]
      exact fun hnone => absurd hnone (by simp)
    · unfold Cleaned
      rw [hsame, hid, hcleanup]
      exact h.cleaned
    · rw [settle_stage, hid]
      exact h.unknown
  · exact h.nothing

/-- A run that timed out ends once its cleanup has. -/
theorem Core.release (h : Core run log) : Core run.release.1 (log ++ run.release.2) := by
  unfold JobRun.release
  split
  · rename_i outcome houtcome
    split
    · rw [List.append_nil]
      exact h
    · rename_i hended
      have hended : run.ended = false := by simpa using hended
      have hdue : Act.Due log (.ended outcome) := by
        rcases h.released outcome houtcome with htrue | ⟨reason, rfl, hfailure⟩
        · rw [hended] at htrue
          exact absurd htrue (by simp)
        · exact Or.inr ((h.stopped reason).mpr hfailure)
      exact
        { due := guarded_concat.mpr ⟨h.due, hdue⟩
          started := fun id => by simp [← h.started id]
          stopped := fun reason => by simp [← h.stopped reason]
          cleaning := h.cleaning
          cancels := by simp [List.countP_append, Act.isCancel, h.cancels]
          cancelled := fun id hid hcleanup => List.mem_append_left _ (h.cancelled id hid hcleanup)
          cleanup := h.cleanup
          ends := by simp [List.countP_append, Act.isEnded, h.ends, hended]
          ended := fun _ => by simp [houtcome]
          released := fun _ _ => Or.inl rfl
          running := h.running
          jobs := fun hdone hid => (h.jobs hdone hid).imp_right (·.append _) }
  · rw [List.append_nil]
    exact h

theorem release_run (run : JobRun α ε) :
    run.release.1.failure = run.failure ∧ run.release.1.id = run.id ∧
      run.release.1.cleanup = run.cleanup ∧ run.release.1.stage = run.stage := by
  unfold JobRun.release
  split
  · split
    · exact ⟨rfl, rfl, rfl, rfl⟩
    · exact ⟨rfl, rfl, rfl, rfl⟩
  · exact ⟨rfl, rfl, rfl, rfl⟩

theorem Sound.release (h : Sound run log) : Sound run.release.1 (log ++ run.release.2) := by
  obtain ⟨hfailure, hid, hcleanup, hstage⟩ := release_run run
  refine ⟨h.core.release, ?_, ?_⟩
  · unfold Cleaned
    rw [hfailure, hid, hcleanup]
    exact h.cleaned
  · rw [hstage, hid]
    exact h.unknown

theorem sound_cleanupEnded (h : Sound run log) :
    Sound run.cleanupEnded.1 (log ++ run.cleanupEnded.2) := by
  unfold JobRun.cleanupEnded
  split
  · exact h.nothing
  · rename_i hcleanup
    have hcleanup : run.cleanup = some false := not_not.mp hcleanup
    have hanswered : Sound { run with cleanup := some true } log := by
      refine ⟨?_, fun _ _ => rfl, h.unknown⟩
      exact
        { h.core with
          cancels := by simp [h.core.cancels, hcleanup]
          cancelled := fun id hid _ => h.core.cancelled id hid (by simp [hcleanup])
          cleanup := fun _ => h.core.cleanup (by simp [hcleanup])
          jobs := fun _ _ => Or.inl rfl }
    unfold JobRun.andThen
    dsimp only
    rw [← List.append_assoc]
    apply Sound.release
    split
    · refine hanswered.core.finish hanswered.cleaned trivial ?_
      exact fun _ => Or.inl rfl
    · exact hanswered.nothing

theorem sound_timedOut (h : Sound run log) : Sound run.timedOut.1 (log ++ run.timedOut.2) := by
  unfold JobRun.timedOut
  split
  · exact h.nothing
  · rename_i hundecided
    have hnone : run.failure = none := by
      cases hfailure : run.failure with
      | none => rfl
      | some failure => exact absurd (Or.inr (by simp [hfailure])) hundecided
    have houtcome : run.outcome = none := by
      cases houtcome : run.outcome with
      | none => rfl
      | some outcome => exact absurd (Or.inl (by simp [houtcome])) hundecided
    have hstopped : (run.stop .timeoutException).1.failure = some .timeoutException := by
      unfold JobRun.stop
      rw [hnone]
    have hstop := h.core.stop .timeoutException
    have hdecided : Core
        { (run.stop .timeoutException).1 with outcome := some (.error .timeoutException) }
        (log ++ (run.stop .timeoutException).2) :=
      { hstop with
        ended := fun _ => rfl
        released := by
          intro outcome houtcome
          exact Or.inr ⟨_, (Option.some.inj houtcome).symm, hstopped⟩
        running := by
          intro hfailure
          exact absurd (hstopped.symm.trans hfailure) (by simp) }
    obtain ⟨hclean, hcleaned, -⟩ := hdecided.clean
    have hsound : Sound (JobRun.clean
        { (run.stop .timeoutException).1 with outcome := some (.error .timeoutException) }).1
        (log ++ (run.stop .timeoutException).2 ++ (JobRun.clean
          { (run.stop .timeoutException).1 with
            outcome := some (.error .timeoutException) }).2) := by
      refine ⟨hclean, hcleaned, ?_⟩
      intro hstarting
      rw [clean_run.2] at hstarting
      rw [clean_run.1]
      obtain ⟨hid, hstage, -⟩ := stop_run run .timeoutException
      exact hid.trans (h.unknown (hstage.symm.trans hstarting))
    unfold JobRun.andThen
    dsimp only
    rw [List.append_nil, ← List.append_assoc, ← List.append_assoc]
    split
    · exact hsound.nothing
    · exact hsound.release

theorem sound_step (h : Sound run log) (event : RunEvent α ε) :
    Sound (run.step event).1 (log ++ (run.step event).2) := by
  cases event with
  | startReplied reply => exact sound_startReplied h reply
  | statusReplied reply progress => exact sound_statusReplied h reply progress
  | resumed => exact sound_resumed h
  | cleanupEnded => exact sound_cleanupEnded h
  | stopSeen => exact sound_stopSeen h
  | timedOut => exact sound_timedOut h
  | cancelled => exact sound_cancel h

theorem sound_start : Sound ({} : JobRun α ε) [.worker] where
  core :=
    { due := guarded_concat.mpr ⟨guarded_nil _, trivial⟩
      started := by simp
      stopped := by simp
      cleaning := by simp
      cancels := by simp [Act.isCancel]
      cancelled := by simp
      cleanup := by simp
      ends := by simp [Act.isEnded]
      ended := by simp
      released := by simp
      running := by simp
      jobs := by simp }
  cleaned := by simp [Cleaned]
  unknown := fun _ => rfl

theorem Sound.owned (h : Sound run log) : Owned run log where
  due := h.core.due
  oneJob id other hid hother := by
    rw [h.core.started] at hid hother
    exact Option.some.inj (hid.symm.trans hother)
  oneReason reason other hreason hother := by
    rw [h.core.stopped] at hreason hother
    exact Option.some.inj (hreason.symm.trans hother)
  cancelledOnce := by
    rw [h.core.cancels]
    split
    · exact Nat.le_refl 1
    · exact Nat.zero_le 1
  endedOnce := by
    rw [h.core.ends]
    split
    · exact Nat.le_refl 1
    · exact Nat.zero_le 1
  jobs _ hdone _ id hid := by
    rw [h.core.started] at hid
    exact (h.core.jobs hdone (by simp [hid])).imp_left fun hcleanup =>
      h.core.cancelled id hid hcleanup

end Steps

/-! ## All runs of a job object -/

/-- The acts that a step tells. -/
def told (output : Except String (List (ℕ × Act α ε))) : List (ℕ × Act α ε) :=
  match output with
  | .error _ => []
  | .ok acts => acts

/-- What one run does of all that is told. -/
def logOf (id : ℕ) (acts : List (ℕ × Act α ε)) : List (Act α ε) :=
  acts.filterMap fun act => if act.1 = id then some act.2 else none

theorem logOf_append (id : ℕ) (left right : List (ℕ × Act α ε)) :
    logOf id (left ++ right) = logOf id left ++ logOf id right :=
  List.filterMap_append

theorem logOf_own (id : ℕ) (acts : List (Act α ε)) : logOf id (acts.map (id, ·)) = acts := by
  unfold logOf
  rw [List.filterMap_map]
  simp [Function.comp_def]

theorem logOf_other {id other : ℕ} (h : other ≠ id) (acts : List (Act α ε)) :
    logOf id (acts.map (other, ·)) = [] := by
  unfold logOf
  rw [List.filterMap_map, List.filterMap_eq_nil_iff]
  intro act _
  exact if_neg h

namespace SurroundJob

/-- Every run is sound with what it has done, and those to come have done nothing. -/
structure Kept (job : SurroundJob α ε) (acts : List (ℕ × Act α ε)) : Prop where
  runs : ∀ id run, job.runs id = some run → Sound run (logOf id acts)
  fresh : ∀ id, job.count ≤ id → logOf id acts = []
  known : ∀ id run, job.runs id = some run → id < job.count

variable {job : SurroundJob α ε} {acts : List (ℕ × Act α ε)}

theorem kept_stepRun (h : Kept job acts) (id : ℕ) (event : RunEvent α ε) :
    Kept (job.stepRun id event).1 (acts ++ (job.stepRun id event).2) := by
  unfold stepRun
  split
  · rw [List.append_nil]
    exact h
  · rename_i run hrun
    dsimp only
    refine ⟨?_, ?_, ?_⟩
    · intro other found hfound
      have hfound : Function.update job.runs id (some (run.step event).1) other = some found :=
        hfound
      by_cases hother : other = id
      · subst hother
        rw [Function.update_self] at hfound
        obtain rfl := Option.some.inj hfound
        rw [logOf_append, logOf_own]
        exact sound_step (h.runs other run hrun) event
      · rw [Function.update_of_ne hother] at hfound
        rw [logOf_append, logOf_other (Ne.symm hother), List.append_nil]
        exact h.runs other found hfound
    · intro other hother
      have hlt := h.known id run hrun
      have hother : job.count ≤ other := hother
      rw [logOf_append, logOf_other (by omega), List.append_nil]
      exact h.fresh other hother
    · intro other found hfound
      have hfound : Function.update job.runs id (some (run.step event).1) other = some found :=
        hfound
      by_cases hother : other = id
      · subst hother
        exact h.known other run hrun
      · rw [Function.update_of_ne hother] at hfound
        exact h.known other found hfound

theorem kept_step (h : Kept job acts) (event : Event α ε) :
    Kept (job.step event).1 (acts ++ told (job.step event).2) := by
  cases event with
  | run =>
    unfold step
    dsimp only
    split
    · show Kept job (acts ++ [])
      rw [List.append_nil]
      exact h
    · refine ⟨?_, ?_, ?_⟩
      · intro id found hfound
        have hfound : Function.update job.runs job.count (some {}) id = some found := hfound
        show Sound found (logOf id (acts ++ [Act.worker].map (job.count, ·)))
        rw [logOf_append]
        by_cases hid : id = job.count
        · rw [hid] at hfound ⊢
          rw [Function.update_self] at hfound
          obtain rfl := Option.some.inj hfound
          rw [logOf_own, h.fresh job.count (Nat.le_refl _)]
          exact sound_start
        · rw [Function.update_of_ne hid] at hfound
          rw [logOf_other (Ne.symm hid), List.append_nil]
          exact h.runs id found hfound
      · intro id hid
        have hid : job.count + 1 ≤ id := hid
        show logOf id (acts ++ [Act.worker].map (job.count, ·)) = []
        rw [logOf_append, logOf_other (by omega), List.append_nil]
        exact h.fresh id (by omega)
      · intro id found hfound
        have hfound : Function.update job.runs job.count (some {}) id = some found := hfound
        show id < job.count + 1
        by_cases hid : id = job.count
        · omega
        · rw [Function.update_of_ne hid] at hfound
          exact Nat.lt_succ_of_lt (h.known id found hfound)
  | cancel =>
    unfold step
    dsimp only
    split
    · show Kept job (acts ++ [])
      rw [List.append_nil]
      exact h
    · rename_i id _ _
      exact kept_stepRun h id .cancelled
  | of id event => exact kept_stepRun h id event

end SurroundJob

end ProjectArgo.Camera.Jobs
