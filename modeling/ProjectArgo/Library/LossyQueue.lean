import ProjectArgo.Library.Run

/-!
# Waiting lines that drop their oldest

Between its opening and its closing a line takes what comes. What waits is served one at a time,
and the oldest is dropped only while more than a bound are waiting. The line is described by its
log alone: `Lawful` says which entry may follow which log, and the results below say what a lawful
log looks like.
-/
namespace Library.LossyQueue

open Library.Run

variable {α : Type*}

inductive Entry (α : Type*)
  | opened
  | came (a : α)
  | dropped (a : α)
  | entered (a : α)
  | left
  | closed

inductive Stage
  | unopened
  | opened
  | closed
  deriving DecidableEq

structure Queue (α : Type*) where
  stage : Stage := .unopened
  waiting : List α := []
  busy : Bool := false

def Queue.step (queue : Queue α) : Entry α → Queue α
  | .opened => { queue with stage := .opened }
  | .came a =>
    if queue.stage = .opened then { queue with waiting := queue.waiting ++ [a] } else queue
  | .dropped _ => { queue with waiting := queue.waiting.tail }
  | .entered _ => { queue with waiting := queue.waiting.tail, busy := true }
  | .left => { queue with busy := false }
  | .closed => { queue with stage := .closed, waiting := [] }

def after (log : List (Entry α)) : Queue α := log.foldl Queue.step {}

theorem after_concat (log : List (Entry α)) (entry : Entry α) :
    after (log ++ [entry]) = (after log).step entry :=
  List.foldl_append

/-- What may follow a log. -/
def Allowed (bound : ℕ) (before : List (Entry α)) : Entry α → Prop
  | .opened => (after before).stage = .unopened
  | .came _ => True
  | .dropped a => (after before).stage = .opened ∧
    ∃ rest, (after before).waiting = a :: rest ∧ bound ≤ rest.length
  | .entered a => (after before).stage = .opened ∧ (after before).busy = false ∧
    ∃ rest, (after before).waiting = a :: rest
  | .left => (after before).busy = true
  | .closed => (after before).stage = .opened

def Lawful (bound : ℕ) (log : List (Entry α)) : Prop := Guarded (Allowed bound) log

variable {bound : ℕ} {log : List (Entry α)} {entry : Entry α}

theorem lawful_nil : Lawful bound ([] : List (Entry α)) := guarded_nil _

theorem lawful_concat :
    Lawful bound (log ++ [entry]) ↔ Lawful bound log ∧ Allowed bound log entry :=
  guarded_concat

theorem Lawful.before {rest : List (Entry α)} (h : Lawful bound (log ++ rest)) :
    Lawful bound log := by
  intro before entry behind hsplit
  apply h before entry (behind ++ rest)
  rw [hsplit, List.append_assoc, List.cons_append]

/-! ## What a log says -/

/-- What has come between the opening and the closing, with the stage. -/
def Entry.due : Stage × List α → Entry α → Stage × List α
  | (_, due), .opened => (.opened, due)
  | (.opened, due), .came a => (.opened, due ++ [a])
  | (_, due), .closed => (.closed, due)
  | seen, _ => seen

def due (log : List (Entry α)) : List α := (log.foldl Entry.due (.unopened, [])).2

def Entry.handled : Entry α → Option α
  | .dropped a => some a
  | .entered a => some a
  | _ => none

def Entry.entrant : Entry α → Option α
  | .entered a => some a
  | _ => none

/-- What has been dropped or served. -/
def handled (log : List (Entry α)) : List α := log.filterMap Entry.handled

def entered (log : List (Entry α)) : List α := log.filterMap Entry.entrant

/-- What has come and has been neither dropped nor served. -/
def waiting (log : List (Entry α)) : List α := (due log).drop (handled log).length

theorem entered_sublist_handled (log : List (Entry α)) : (entered log).Sublist (handled log) := by
  induction log with
  | nil => exact List.Sublist.refl _
  | cons entry log ih =>
    cases entry with
    | entered a => exact ih.cons_cons a
    | dropped a => exact ih.cons a
    | opened => exact ih
    | came a => exact ih
    | left => exact ih
    | closed => exact ih

theorem stage_due (log : List (Entry α)) :
    (log.foldl Entry.due (.unopened, [])).1 = (after log).stage := by
  induction log using List.reverseRecOn with
  | nil => rfl
  | append_singleton log entry ih =>
    rw [after_concat, List.foldl_append]
    generalize log.foldl Entry.due (.unopened, []) = seen at ih
    obtain ⟨stage, due⟩ := seen
    cases entry with
    | came a =>
      simp only [Queue.step, ← ih]
      cases stage with
      | opened => rfl
      | unopened => exact ih
      | closed => exact ih
    | opened => rfl
    | dropped a => exact ih
    | entered a => exact ih
    | left => exact ih
    | closed => rfl

theorem due_concat (log : List (Entry α)) (entry : Entry α) :
    due (log ++ [entry]) = due log ++
      match entry with
      | .came a => if (after log).stage = .opened then [a] else []
      | _ => [] := by
  have hstage := stage_due log
  rw [due, due, List.foldl_append]
  generalize log.foldl Entry.due (.unopened, []) = seen at hstage
  obtain ⟨stage, due⟩ := seen
  rw [← hstage]
  cases entry with
  | came a => cases stage <;> simp [Entry.due]
  | opened => simp [Entry.due]
  | dropped a => simp [Entry.due]
  | entered a => simp [Entry.due]
  | left => simp [Entry.due]
  | closed => simp [Entry.due]

theorem handled_concat (log : List (Entry α)) (entry : Entry α) :
    handled (log ++ [entry]) = handled log ++ entry.handled.toList := by
  rw [handled, List.filterMap_append]
  cases h : entry.handled with
  | none => rw [List.filterMap_cons_none h]; rfl
  | some a => rw [List.filterMap_cons_some h]; rfl

/-- An open line has handled what came first, and the rest waits. A line that is not open yet has
no history, and one that is closed keeps what it had. -/
theorem Lawful.history (h : Lawful bound log) :
    match (after log).stage with
    | .unopened => due log = [] ∧ handled log = [] ∧ (after log).waiting = []
    | .opened => due log = handled log ++ (after log).waiting
    | .closed => handled log <+: due log := by
  induction log using List.reverseRecOn with
  | nil => exact ⟨rfl, rfl, rfl⟩
  | append_singleton log entry ih =>
    obtain ⟨hlog, hentry⟩ := lawful_concat.mp h
    replace ih := ih hlog
    rw [after_concat, due_concat, handled_concat]
    cases entry with
    | opened =>
      rw [show (after log).stage = .unopened from hentry] at ih
      obtain ⟨hdue, hhandled, hwaiting⟩ := ih
      simp [Queue.step, Entry.handled, hdue, hhandled, hwaiting]
    | came a =>
      cases hstage : (after log).stage with
      | unopened =>
        rw [hstage] at ih
        simpa [Queue.step, Entry.handled, hstage] using ih
      | opened =>
        rw [hstage] at ih
        simp only at ih
        simp [Queue.step, Entry.handled, hstage, ih]
      | closed =>
        rw [hstage] at ih
        simpa [Queue.step, Entry.handled, hstage] using ih
    | dropped a =>
      obtain ⟨hstage, rest, hwaiting, -⟩ := hentry
      rw [hstage] at ih
      simp only at ih
      simp [Queue.step, Entry.handled, hstage, ih, hwaiting]
    | entered a =>
      obtain ⟨hstage, -, rest, hwaiting⟩ := hentry
      rw [hstage] at ih
      simp only at ih
      simp [Queue.step, Entry.handled, hstage, ih, hwaiting]
    | left => simpa [Queue.step, Entry.handled] using ih
    | closed =>
      rw [show (after log).stage = .opened from hentry] at ih
      simp only at ih
      simp [Queue.step, Entry.handled, ih]

theorem Lawful.waiting_eq (h : Lawful bound log) (hstage : (after log).stage = .opened) :
    waiting log = (after log).waiting := by
  have hhistory := h.history
  rw [hstage] at hhistory
  simp only at hhistory
  rw [waiting, hhistory, List.drop_left]

/-- What is handled is handled in the order in which it came. -/
theorem Lawful.handled_prefix (h : Lawful bound log) : handled log <+: due log := by
  have hhistory := h.history
  cases hstage : (after log).stage with
  | unopened =>
    rw [hstage] at hhistory
    rw [hhistory.2.1]
    exact List.nil_prefix
  | opened =>
    rw [hstage] at hhistory
    exact ⟨_, hhistory.symm⟩
  | closed =>
    rw [hstage] at hhistory
    exact hhistory

theorem Lawful.entered_sublist (h : Lawful bound log) : (entered log).Sublist (due log) :=
  (entered_sublist_handled log).trans h.handled_prefix.sublist

/-- Only the oldest is dropped, and only while more than the bound are waiting. -/
theorem Lawful.dropped {rest : List (Entry α)} {a : α}
    (h : Lawful bound (log ++ .dropped a :: rest)) :
    bound < (waiting log).length ∧ (waiting log).head? = some a := by
  obtain ⟨hstage, others, hwaiting, hbound⟩ := h log (.dropped a) rest rfl
  rw [h.before.waiting_eq hstage, hwaiting]
  exact ⟨Nat.lt_succ_of_le hbound, rfl⟩

theorem busy_until (log rest : List (Entry α)) (a : α) (h : .left ∉ rest) :
    (after (log ++ .entered a :: rest)).busy = true := by
  induction rest using List.reverseRecOn with
  | nil =>
    rw [after_concat]
    rfl
  | append_singleton rest entry ih =>
    rw [List.mem_append, not_or, List.mem_singleton] at h
    rw [← List.cons_append, ← List.append_assoc, after_concat]
    cases entry with
    | left => exact absurd rfl h.2
    | opened => exact ih h.1
    | came b =>
      rw [Queue.step]
      split
      · exact ih h.1
      · exact ih h.1
    | dropped b => exact ih h.1
    | entered b => rfl
    | closed => exact ih h.1

/-- One at a time. -/
theorem Lawful.left_between {between rest : List (Entry α)} {a b : α}
    (h : Lawful bound (log ++ .entered a :: between ++ .entered b :: rest)) : .left ∈ between := by
  obtain ⟨-, hidle, -⟩ := h (log ++ .entered a :: between) (.entered b) rest rfl
  by_contra hnone
  rw [busy_until log between a hnone] at hidle
  exact nomatch hidle

theorem closed_after (log rest : List (Entry α)) (h : Lawful bound (log ++ .closed :: rest)) :
    (after (log ++ .closed :: rest)).stage = .closed := by
  induction rest using List.reverseRecOn with
  | nil =>
    rw [after_concat]
    rfl
  | append_singleton rest entry ih =>
    rw [← List.cons_append, ← List.append_assoc] at h ⊢
    obtain ⟨hrest, hentry⟩ := lawful_concat.mp h
    replace ih := ih hrest
    rw [after_concat]
    cases entry with
    | opened => exact nomatch ih.symm.trans hentry
    | came a =>
      rw [Queue.step, ih, if_neg (by decide)]
      exact ih
    | dropped a => exact ih
    | entered a => exact ih
    | left => exact ih
    | closed => rfl

/-- Nothing is served after the closing. -/
theorem Lawful.closed {rest : List (Entry α)} {a : α} (h : Lawful bound (log ++ .closed :: rest)) :
    .entered a ∉ rest := by
  intro hentered
  obtain ⟨before, behind, rfl⟩ := List.append_of_mem hentered
  rw [← List.cons_append, ← List.append_assoc] at h
  obtain ⟨hopened, -⟩ := h (log ++ .closed :: before) (.entered a) behind rfl
  exact nomatch (closed_after log before h.before).symm.trans hopened

end Library.LossyQueue
