import ProjectArgo.MediaSession.CachedMediaSession

/-!
# Selections and commands one after the other

The operations are called back in the order of their calls, each after the one before it
has ended, and no more than eight wait. A command goes to the source that is active when
its turn comes; a source is selected only if it is still of the session that was asked
for it.
-/
namespace ProjectArgo.MediaSession

open Library.Run

variable {δ : Type*}

def Act.queuedNumber : Act δ → Option ℕ
  | .queued operation => some operation
  | _ => none

def Act.beganNumber : Act δ → Option ℕ
  | .began operation => some operation
  | _ => none

def Act.endedNumber : Act δ → Option ℕ
  | .ended operation _ => some operation
  | _ => none

/-- A registration, a refusal or a new operation. -/
def Act.Aside : Act δ → Prop
  | .registered _ _ | .threw _ | .queued _ => True
  | _ => False

namespace CachedMediaSessionService

/-- The number of the first operation of the queue. -/
def first (s : CachedMediaSessionService δ) : ℕ := s.nextOperation - s.operations.length

def begunCount (s : CachedMediaSessionService δ) : ℕ :=
  match s.turn with
  | .waiting => s.first
  | .calling _ | .finished => s.first + 1

def endedCount (s : CachedMediaSessionService δ) : ℕ :=
  match s.turn with
  | .waiting | .calling _ => s.first
  | .finished => s.first + 1

/-- The queue of a service with all that it has done. -/
structure Serial (s : CachedMediaSessionService δ) (acts : List (Act δ)) : Prop where
  pending : s.operations.length ≤ 8
  counted : s.operations.length ≤ s.nextOperation
  numbers : s.operations.map Prod.fst = List.range' s.first s.operations.length
  queued : acts.filterMap Act.queuedNumber = List.range s.nextOperation
  began : acts.filterMap Act.beganNumber = List.range s.begunCount
  ended : acts.filterMap Act.endedNumber = List.range s.endedCount
  turn : s.turn ≠ .waiting → s.operations ≠ []
  called : ∀ source, s.turn = .calling source → ∃ number operation rest,
    s.operations = (number, operation) :: rest ∧
      (operation = .selectSource source.id ∧ .selecting source ∈ acts ∨
        ∃ command, operation = .command source.id command ∧ .executing source command ∈ acts)

variable {s : CachedMediaSessionService δ} {acts : List (Act δ)}

/-- Neither the queue nor what counts of it is touched. -/
theorem Serial.frame (h : Serial s acts) {next : CachedMediaSessionService δ}
    (hoperations : next.operations = s.operations) (hnext : next.nextOperation = s.nextOperation)
    (hturn : next.turn = s.turn) {more : List (Act δ)}
    (hmore : ∀ act ∈ more, act.queuedNumber = none ∧ act.beganNumber = none ∧
      act.endedNumber = none) : Serial next (acts ++ more) := by
  have hfirst : next.first = s.first := by
    unfold first
    rw [hoperations, hnext]
  have hnone : ∀ number : Act δ → Option ℕ, (∀ act ∈ more, number act = none) →
      (acts ++ more).filterMap number = acts.filterMap number := by
    intro number hnumber
    rw [List.filterMap_append, List.filterMap_eq_nil_iff.mpr hnumber, List.append_nil]
  refine ⟨?_, ?_, ?_, ?_, ?_, ?_, ?_, ?_⟩
  · rw [hoperations]
    exact h.pending
  · rw [hoperations, hnext]
    exact h.counted
  · rw [hoperations, hfirst]
    exact h.numbers
  · rw [hnone _ fun act hact => (hmore act hact).1, hnext]
    exact h.queued
  · unfold begunCount
    rw [hnone _ fun act hact => (hmore act hact).2.1, hturn, hfirst]
    exact h.began
  · unfold endedCount
    rw [hnone _ fun act hact => (hmore act hact).2.2, hturn, hfirst]
    exact h.ended
  · rw [hturn, hoperations]
    exact h.turn
  · intro source hsource
    rw [hturn] at hsource
    obtain ⟨number, operation, rest, hhead, hcalled⟩ := h.called source hsource
    refine ⟨number, operation, rest, hoperations.trans hhead, ?_⟩
    rcases hcalled with ⟨hselect, hmem⟩ | ⟨command, hcommand, hmem⟩
    · exact Or.inl ⟨hselect, List.mem_append_left _ hmem⟩
    · exact Or.inr ⟨command, hcommand, List.mem_append_left _ hmem⟩

theorem Serial.nothing (h : Serial s acts) {next : CachedMediaSessionService δ}
    (hoperations : next.operations = s.operations) (hnext : next.nextOperation = s.nextOperation)
    (hturn : next.turn = s.turn) : Serial next (acts ++ []) :=
  h.frame hoperations hnext hturn fun _ hact => absurd hact List.not_mem_nil

theorem serial_serialize (h : Serial s acts) (operation : Operation) :
    Serial (s.serialize operation).1 (acts ++ (s.serialize operation).2) := by
  unfold serialize
  split
  · apply h.frame rfl rfl rfl
    intro act hact
    rw [List.mem_singleton.mp hact]
    exact ⟨rfl, rfl, rfl⟩
  · rename_i hroom
    rw [Bool.or_eq_true, not_or, decide_eq_true_eq] at hroom
    have hcounted := h.counted
    have hfirst : s.nextOperation + 1 - (s.operations.length + 1) = s.first := by
      unfold first
      omega
    have hlength : (s.operations ++ [(s.nextOperation, operation)]).length =
        s.operations.length + 1 := by simp
    refine ⟨?_, ?_, ?_, ?_, ?_, ?_, ?_, ?_⟩
    · show (s.operations ++ [(s.nextOperation, operation)]).length ≤ 8
      omega
    · show (s.operations ++ [(s.nextOperation, operation)]).length ≤ s.nextOperation + 1
      omega
    · unfold first
      dsimp only
      rw [hlength, hfirst, List.map_append, h.numbers, List.range'_concat]
      simp only [List.map_cons, List.map_nil, Nat.one_mul]
      unfold first
      congr 2
      omega
    · dsimp only
      rw [List.filterMap_append, h.queued, List.range_succ]
      rfl
    · unfold begunCount first
      dsimp only
      rw [hlength, hfirst, List.filterMap_append, h.began]
      exact List.append_nil _
    · unfold endedCount first
      dsimp only
      rw [hlength, hfirst, List.filterMap_append, h.ended]
      exact List.append_nil _
    · intro _
      simp
    · intro source hsource
      obtain ⟨number, head, rest, hhead, hcalled⟩ := h.called source hsource
      refine ⟨number, head, rest ++ [(s.nextOperation, operation)], ?_, ?_⟩
      · show s.operations ++ _ = _
        rw [hhead]
        rfl
      · rcases hcalled with ⟨hselect, hmem⟩ | ⟨command, hcommand, hmem⟩
        · exact Or.inl ⟨hselect, List.mem_append_left _ hmem⟩
        · exact Or.inr ⟨command, hcommand, List.mem_append_left _ hmem⟩

theorem Serial.head (h : Serial s acts) {number : ℕ} {operation : Operation}
    {rest : List (ℕ × Operation)} (hhead : s.operations = (number, operation) :: rest) :
    number = s.first := by
  have hnumbers := h.numbers
  rw [hhead, List.length_cons, List.range'_succ, List.map_cons] at hnumbers
  exact (List.cons.inj hnumbers).1

/-- The turn of the first operation moves on; `begins` and `ends` tell what that means. -/
theorem Serial.move (h : Serial s acts) {turn : Turn δ} (hoperations : s.operations ≠ [])
    {more : List (Act δ)} (hqueued : more.filterMap Act.queuedNumber = [])
    (hbegan : (acts ++ more).filterMap Act.beganNumber =
      List.range { s with turn := turn }.begunCount)
    (hended : (acts ++ more).filterMap Act.endedNumber =
      List.range { s with turn := turn }.endedCount)
    (hcalled : ∀ source, turn = .calling source → ∃ number operation rest,
      s.operations = (number, operation) :: rest ∧
        (operation = .selectSource source.id ∧ .selecting source ∈ acts ++ more ∨
          ∃ command, operation = .command source.id command ∧
            .executing source command ∈ acts ++ more)) :
    Serial { s with turn := turn } (acts ++ more) where
  pending := h.pending
  counted := h.counted
  numbers := h.numbers
  queued := by
    rw [List.filterMap_append, hqueued, List.append_nil]
    exact h.queued
  began := hbegan
  ended := hended
  turn := fun _ => hoperations
  called := hcalled

theorem Serial.fail (h : Serial s acts) (hturn : s.turn = .waiting) {number : ℕ}
    {operation : Operation} {rest : List (ℕ × Operation)}
    (hhead : s.operations = (number, operation) :: rest) (error : OperationError) :
    Serial { s with turn := .finished }
      (acts ++ [.began number, .ended number (some error)]) := by
  have hnumber := h.head hhead
  have hbegan := h.began
  have hended := h.ended
  unfold begunCount at hbegan
  unfold endedCount at hended
  rw [hturn] at hbegan hended
  apply h.move
  · rw [hhead]
    exact List.cons_ne_nil _ _
  · rfl
  · show _ = List.range (s.first + 1)
    rw [List.filterMap_append, hbegan, hnumber, List.range_succ]
    rfl
  · show _ = List.range (s.first + 1)
    rw [List.filterMap_append, hended, hnumber, List.range_succ]
    rfl
  · rintro _ ⟨⟩

theorem Serial.call (h : Serial s acts) (hturn : s.turn = .waiting) {number : ℕ}
    {operation : Operation} {rest : List (ℕ × Operation)}
    (hhead : s.operations = (number, operation) :: rest) {source : MediaSourceState δ} {act : Act δ}
    (hact : act = .selecting source ∧ operation = .selectSource source.id ∨
      ∃ command, act = .executing source command ∧ operation = .command source.id command) :
    Serial { s with turn := .calling source } (acts ++ [.began number, act]) := by
  have hnumber := h.head hhead
  have hbegan := h.began
  have hended := h.ended
  unfold begunCount at hbegan
  unfold endedCount at hended
  rw [hturn] at hbegan hended
  have hsilent : act.queuedNumber = none ∧ act.beganNumber = none ∧ act.endedNumber = none := by
    rcases hact with ⟨rfl, -⟩ | ⟨command, rfl, -⟩
    · exact ⟨rfl, rfl, rfl⟩
    · exact ⟨rfl, rfl, rfl⟩
  obtain ⟨hqueuedAct, hbeganAct, hendedAct⟩ := hsilent
  apply h.move
  · rw [hhead]
    exact List.cons_ne_nil _ _
  · rw [List.filterMap_cons_none rfl, List.filterMap_cons_none hqueuedAct]
    rfl
  · show _ = List.range (s.first + 1)
    rw [List.filterMap_append, hbegan, hnumber, List.range_succ, List.filterMap_cons,
      List.filterMap_cons_none hbeganAct]
    rfl
  · show _ = List.range s.first
    rw [List.filterMap_append, hended, List.filterMap_cons_none rfl,
      List.filterMap_cons_none hendedAct]
    exact List.append_nil _
  · intro other hother
    obtain rfl := Turn.calling.inj hother
    refine ⟨number, operation, rest, hhead, ?_⟩
    rcases hact with ⟨rfl, hselect⟩ | ⟨command, rfl, hcommand⟩
    · exact Or.inl ⟨hselect, by simp⟩
    · exact Or.inr ⟨command, hcommand, by simp⟩

theorem source_some {id : String} {source : MediaSourceState δ} (h : s.source id = some source) :
    source ∈ s.current.sources ∧ source.id = id := by
  have hid := List.find?_some h
  exact ⟨List.mem_of_find?_eq_some h, of_decide_eq_true hid⟩

theorem serial_begin (h : Serial s acts) : Serial s.begin.1 (acts ++ s.begin.2) := by
  unfold begin
  split
  · rename_i number operation rest hturn hhead
    split
    · rename_i id
      split
      · exact h.fail hturn hhead _
      · rename_i source hsource
        split
        · exact h.fail hturn hhead _
        · obtain ⟨-, rfl⟩ := source_some hsource
          exact h.call hturn hhead (Or.inl ⟨rfl, rfl⟩)
    · rename_i id command
      split
      · exact h.fail hturn hhead _
      · rename_i source hsource
        split
        · exact h.fail hturn hhead _
        · obtain ⟨-, rfl⟩ := source_some hsource
          exact h.call hturn hhead (Or.inr ⟨command, rfl, rfl⟩)
  · exact h.nothing rfl rfl rfl

theorem Serial.finish (h : Serial s acts) {called : MediaSourceState δ}
    (hturn : s.turn = .calling called) {number : ℕ} {operation : Operation}
    {rest : List (ℕ × Operation)} (hhead : s.operations = (number, operation) :: rest)
    {more : List (Act δ)} (hqueued : more.filterMap Act.queuedNumber = [])
    (hbegan : more.filterMap Act.beganNumber = [])
    (hended : more.filterMap Act.endedNumber = [number]) :
    Serial { s with turn := .finished } (acts ++ more) := by
  have hwasBegan := h.began
  have hwasEnded := h.ended
  unfold begunCount at hwasBegan
  unfold endedCount at hwasEnded
  rw [hturn] at hwasBegan hwasEnded
  apply h.move
  · rw [hhead]
    exact List.cons_ne_nil _ _
  · exact hqueued
  · rw [List.filterMap_append, hwasBegan, hbegan, List.append_nil]
    rfl
  · show _ = List.range (s.first + 1)
    rw [List.filterMap_append, hwasEnded, hended, h.head hhead, List.range_succ]
  · rintro _ ⟨⟩

variable [DecidableEq δ]

theorem serial_reflectSelection (h : Serial s acts) (id : Option String) :
    Serial (s.reflectSelection id) acts := by
  rw [← List.append_nil acts]
  rcases reflectSelection_cases s id with hsame | hchanged
  · rw [hsame]
    exact h.nothing rfl rfl rfl
  · rw [hchanged]
    exact h.nothing rfl rfl rfl

theorem serial_calledBack (h : Serial s acts) (error : Option OperationError) :
    Serial (s.calledBack error).1 (acts ++ (s.calledBack error).2) := by
  unfold calledBack
  split
  · rename_i called number operation rest hturn hhead
    dsimp only
    split
    · exact h.finish hturn hhead rfl rfl rfl
    · exact h.finish hturn hhead rfl rfl rfl
    · split
      · exact h.finish hturn hhead rfl rfl rfl
      · split
        · exact h.finish hturn hhead rfl rfl rfl
        · exact serial_reflectSelection (h.finish hturn hhead rfl rfl rfl) _
  · exact h.nothing rfl rfl rfl

omit [DecidableEq δ] in
theorem serial_settle (h : Serial s acts) : Serial s.settle (acts ++ []) := by
  unfold settle
  split
  · rename_i hturn
    have hbegan := h.began
    have hended := h.ended
    have hcounted := h.counted
    have hpending := h.pending
    have hnumbers := h.numbers
    unfold begunCount at hbegan
    unfold endedCount at hended
    rw [hturn] at hbegan hended
    rw [List.append_nil]
    cases hoperations : s.operations with
    | nil =>
      refine absurd hoperations (h.turn ?_)
      rw [hturn]
      exact nofun
    | cons head rest =>
      rw [hoperations, List.length_cons] at hcounted hpending hnumbers
      have hfirst : s.nextOperation - rest.length = s.first + 1 := by
        unfold first
        rw [hoperations, List.length_cons]
        omega
      rw [List.range'_succ, List.map_cons] at hnumbers
      refine ⟨?_, ?_, ?_, h.queued, ?_, ?_, fun hne => absurd rfl hne, nofun⟩
      · show rest.length ≤ 8
        omega
      · show rest.length ≤ s.nextOperation
        omega
      · unfold first
        show rest.map Prod.fst = List.range' (s.nextOperation - rest.length) rest.length
        rw [hfirst]
        exact (List.cons.inj hnumbers).2
      · show _ = List.range (s.nextOperation - rest.length)
        rw [hfirst]
        exact hbegan
      · show _ = List.range (s.nextOperation - rest.length)
        rw [hfirst]
        exact hended
  · exact h.nothing rfl rfl rfl

omit [DecidableEq δ] in
theorem serial_same (h : Serial s acts) : Serial s (acts ++ []) := h.nothing rfl rfl rfl

theorem refresh_queue (s : CachedMediaSessionService δ) :
    s.refresh.operations = s.operations ∧ s.refresh.nextOperation = s.nextOperation ∧
      s.refresh.turn = s.turn := by
  unfold refresh emit
  dsimp only
  split
  · exact ⟨rfl, rfl, rfl⟩
  · exact ⟨rfl, rfl, rfl⟩

theorem publish_queue {name : String} {lease : ℕ} {revision : ℤ}
    {sources : List (MediaSourceState δ)} {next : CachedMediaSessionService δ}
    (hnext : s.publish name lease revision sources = .ok next) :
    next.operations = s.operations ∧ next.nextOperation = s.nextOperation ∧ next.turn = s.turn := by
  unfold publish at hnext
  split at hnext
  · obtain rfl := Except.ok.inj hnext
    exact ⟨rfl, rfl, rfl⟩
  · split at hnext
    · obtain rfl := Except.ok.inj hnext
      exact ⟨rfl, rfl, rfl⟩
    · dsimp only at hnext
      split at hnext
      · exact absurd hnext (by simp)
      · split at hnext
        · exact absurd hnext (by simp)
        · obtain rfl := Except.ok.inj hnext
          exact refresh_queue _

theorem closeProvider_queue (s : CachedMediaSessionService δ) (name : String) (lease : ℕ) :
    (s.closeProvider name lease).operations = s.operations ∧
      (s.closeProvider name lease).nextOperation = s.nextOperation ∧
        (s.closeProvider name lease).turn = s.turn := by
  unfold closeProvider
  split
  · exact ⟨rfl, rfl, rfl⟩
  · split
    · exact ⟨rfl, rfl, rfl⟩
    · exact refresh_queue _

theorem serial_step (h : Serial s acts) (event : Event δ) :
    Serial (s.step event).1 (acts ++ (s.step event).2) := by
  cases event with
  | register name =>
    obtain ⟨hoperations, hnext, hturn⟩ : (s.register name).operations = s.operations ∧
        (s.register name).nextOperation = s.nextOperation ∧ (s.register name).turn = s.turn :=
      refresh_queue _
    apply h.frame hoperations hnext hturn
    intro act hact
    rw [List.mem_singleton.mp hact]
    exact ⟨rfl, rfl, rfl⟩
  | publish name lease revision sources =>
    unfold step
    dsimp only
    split
    · apply h.frame rfl rfl rfl
      intro act hact
      rw [List.mem_singleton.mp hact]
      exact ⟨rfl, rfl, rfl⟩
    · rename_i next hnext
      obtain ⟨hoperations, hnextOperation, hturn⟩ := publish_queue hnext
      exact h.nothing hoperations hnextOperation hturn
  | closeProvider name lease =>
    obtain ⟨hoperations, hnext, hturn⟩ := closeProvider_queue s name lease
    exact h.nothing hoperations hnext hturn
  | reflectSelection id =>
    show Serial (s.reflectSelection id) (acts ++ [])
    rw [List.append_nil]
    exact serial_reflectSelection h id
  | setCallbacks select execute => exact h.nothing rfl rfl rfl
  | selectSource id => exact serial_serialize h _
  | command id command => exact serial_serialize h _
  | turn => exact serial_begin h
  | calledBack error => exact serial_calledBack h error
  | settled => exact serial_settle h
  | close => exact h.nothing rfl rfl rfl
  | cleared =>
    unfold step
    dsimp only
    split
    · exact h.nothing rfl rfl rfl
    · exact serial_same h

omit [DecidableEq δ] in
theorem serial_start : Serial ({} : CachedMediaSessionService δ) [] where
  pending := Nat.zero_le _
  counted := Nat.le_refl _
  numbers := rfl
  queued := rfl
  began := rfl
  ended := rfl
  turn := fun h => absurd rfl h
  called := nofun

omit [DecidableEq δ] in
theorem serialize_aside (operation : Operation) :
    ∀ act ∈ (s.serialize operation).2, act.Aside := by
  intro act hact
  unfold serialize at hact
  split at hact
  · obtain rfl := List.mem_singleton.mp hact
    trivial
  · obtain rfl := List.mem_singleton.mp hact
    trivial

/-- Of the sources that operations are about only a turn and the end of a call tell. -/
theorem step_aside {event : Event δ} {act : Act δ} (h : act ∈ (s.step event).2) :
    act.Aside ∨ event = .turn ∨ ∃ error, event = .calledBack error := by
  cases event with
  | register name =>
    obtain rfl := List.mem_singleton.mp h
    exact Or.inl trivial
  | publish name lease revision sources =>
    unfold step at h
    dsimp only at h
    split at h
    · obtain rfl := List.mem_singleton.mp h
      exact Or.inl trivial
    · exact absurd h List.not_mem_nil
  | closeProvider name lease => exact absurd h List.not_mem_nil
  | reflectSelection id => exact absurd h List.not_mem_nil
  | setCallbacks select execute => exact absurd h List.not_mem_nil
  | selectSource id => exact Or.inl (serialize_aside _ act h)
  | command id command => exact Or.inl (serialize_aside _ act h)
  | turn => exact Or.inr (Or.inl rfl)
  | calledBack error => exact Or.inr (Or.inr ⟨error, rfl⟩)
  | settled => exact absurd h List.not_mem_nil
  | close => exact absurd h List.not_mem_nil
  | cleared =>
    unfold step at h
    dsimp only at h
    split at h
    · exact absurd h List.not_mem_nil
    · exact absurd h List.not_mem_nil

/-- A command is called only of the listed source that is active, which offers it. -/
theorem executing_active {event : Event δ} {source : MediaSourceState δ} {command : String}
    (h : .executing source command ∈ (s.step event).2) :
    source ∈ s.current.sources ∧ s.current.activeSourceId = some source.id ∧
      command ∈ source.commands := by
  rcases step_aside h with haside | rfl | ⟨error, rfl⟩
  · exact haside.elim
  · have h : .executing source command ∈ s.begin.2 := h
    unfold begin at h
    split at h
    · split at h
      · split at h
        · simp at h
        · split at h
          · simp at h
          · simp at h
      · rename_i id asked
        split at h
        · simp at h
        · rename_i found hfound
          split at h
          · simp at h
          · rename_i hallowed
            simp only [List.mem_cons, reduceCtorEq, List.not_mem_nil, or_false, false_or,
              Act.executing.injEq] at h
            obtain ⟨rfl, rfl⟩ := h
            obtain ⟨hmem, rfl⟩ := source_some hfound
            simp only [not_or, not_not] at hallowed
            exact ⟨hmem, hallowed.1, hallowed.2.1⟩
    · simp at h
  · have h : .executing source command ∈ (s.calledBack error).2 := h
    unfold calledBack at h
    dsimp only at h
    repeat' split at h
    all_goals simp at h

/-- A source is selected only if it is still of the session of the one that was called with. -/
theorem selected_session (hserial : Serial s acts) {event : Event δ} {id : String}
    (h : .selected id ∈ (s.step event).2) :
    ∃ called, .selecting called ∈ acts ∧ s.turn = .calling called ∧ called.id = id ∧
      ∃ source ∈ s.current.sources, source.id = id ∧ source.sessionId = called.sessionId := by
  rcases step_aside h with haside | rfl | ⟨error, rfl⟩
  · exact haside.elim
  · have h : .selected id ∈ s.begin.2 := h
    unfold begin at h
    repeat' split at h
    all_goals simp at h
  · have h : .selected id ∈ (s.calledBack error).2 := h
    unfold calledBack at h
    split at h
    · rename_i called number operation rest hturn hhead
      dsimp only at h
      split at h
      · simp at h
      · simp at h
      · rename_i asked
        split at h
        · simp at h
        · rename_i source hsource
          split at h
          · simp at h
          · rename_i hsession
            simp only [List.mem_cons, reduceCtorEq, List.not_mem_nil, or_false,
              Act.selected.injEq] at h
            subst h
            obtain ⟨hmem, hid⟩ := source_some hsource
            obtain ⟨other, head, tail, hother, hcalled⟩ := hserial.called called hturn
            obtain ⟨hpair, -⟩ := List.cons.inj (hhead.symm.trans hother)
            obtain ⟨-, rfl⟩ := Prod.mk.inj hpair
            rcases hcalled with ⟨hselect, hselecting⟩ | ⟨command, hcommand, -⟩
            · exact ⟨called, hselecting, hturn, (Operation.selectSource.inj hselect).symm, source,
                hmem, hid, not_not.mp hsession⟩
            · exact absurd hcommand (by simp)
    · simp at h

/-- What the callers of the service can rely on, given what it has done. -/
structure Serialized (s : CachedMediaSessionService δ) (acts : List (Act δ)) : Prop where
  /-- The operations begin and end in the order of their calls, one before the next, and no more
  than eight have not ended. -/
  order : ∃ began ended, acts.filterMap Act.queuedNumber = List.range s.nextOperation ∧
    acts.filterMap Act.beganNumber = List.range began ∧
    acts.filterMap Act.endedNumber = List.range ended ∧
    ended ≤ began ∧ began ≤ ended + 1 ∧ began ≤ s.nextOperation ∧ s.nextOperation ≤ ended + 8
  executes : ∀ event source command, .executing source command ∈ (s.step event).2 →
    source ∈ s.current.sources ∧ s.current.activeSourceId = some source.id ∧
      command ∈ source.commands
  selects : ∀ event id, .selected id ∈ (s.step event).2 →
    ∃ called, .selecting called ∈ acts ∧ s.turn = .calling called ∧ called.id = id ∧
      ∃ source ∈ s.current.sources, source.id = id ∧ source.sessionId = called.sessionId

omit [DecidableEq δ] in
theorem Serial.counts (h : Serial s acts) :
    s.endedCount ≤ s.begunCount ∧ s.begunCount ≤ s.endedCount + 1 ∧
      s.begunCount ≤ s.nextOperation ∧ s.nextOperation ≤ s.endedCount + 8 := by
  have hcounted := h.counted
  have hpending := h.pending
  have hsome : s.turn ≠ .waiting → 0 < s.operations.length :=
    fun hturn => List.length_pos_of_ne_nil (h.turn hturn)
  unfold begunCount endedCount first
  cases hturn : s.turn with
  | waiting =>
    dsimp only
    omega
  | calling source =>
    have hpos := hsome (by rw [hturn]; exact nofun)
    dsimp only
    omega
  | finished =>
    have hpos := hsome (by rw [hturn]; exact nofun)
    dsimp only
    omega

theorem operations_serialized (events : List (Event δ)) :
    Serialized (run step {} events).1 ((run step {} events).2.flatMap Prod.snd) := by
  have hserial : Serial (run step ({} : CachedMediaSessionService δ) events).1
      ((run step ({} : CachedMediaSessionService δ) events).2.flatMap Prod.snd) := by
    refine run_history step (I := fun t history => Serial t (history.flatMap Prod.snd))
      serial_start ?_ events
    intro t history event ht
    rw [List.flatMap_append, List.flatMap_singleton]
    exact serial_step ht event
  exact ⟨⟨_, _, hserial.queued, hserial.began, hserial.ended, hserial.counts⟩,
    fun _ _ _ h => executing_active h, fun _ _ h => selected_session hserial h⟩

end CachedMediaSessionService
end ProjectArgo.MediaSession
