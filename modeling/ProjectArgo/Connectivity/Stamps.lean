import ProjectArgo.Connectivity.Controllers

/-!
# The generations that requests bear

A request is stamped with the generation that it belongs to, and a stop advances the
generation after all requests before it were stamped. So a request whose generation is the
present one has not been stopped.
-/
namespace ProjectArgo.Connectivity

/-! ## Steps of one request -/

namespace Stage

def rank : Stage → ℕ
  | .loading => 0
  | .storing => 1
  | .matching => 2
  | .music => 3
  | .calls => 4
  | .all => 5
  | .stamping => 6
  | .sending => 7

theorem rank_injective {stage other : Stage} (h : stage.rank = other.rank) : stage = other := by
  cases stage <;> cases other <;> first | rfl | cases h

end Stage

namespace Control

variable (control : Control) (taking : Taking)

theorem advance_musicCancel : (control.advance taking).1.musicCancel =
    control.musicCancel + if (taking.stage = .music ∧ taking.matched) ∨
      (taking.stage = .all ∧ taking.request.action = .stopAll) then 1 else 0 := by
  obtain ⟨request, stage, matched⟩ := taking
  cases stage
  case matching => simp [advance]
  case stamping => simp [advance]
  all_goals
    simp only [advance]
    split_ifs <;> simp_all

theorem advance_callsCancel : (control.advance taking).1.callsCancel =
    control.callsCancel + if taking.stage = .calls ∧ (taking.request.action = .calls .disconnect ∨
      taking.request.action = .stopAll ∨ taking.request.action = .forget) then 1 else 0 := by
  obtain ⟨request, stage, matched⟩ := taking
  cases stage
  case matching => simp [advance]
  case stamping => simp [advance]
  all_goals
    simp only [advance]
    split_ifs <;> simp_all

theorem advance_stopping : (control.advance taking).1.stopping =
    (control.stopping || decide (taking.stage = .storing ∧ taking.request.action = .stopAll)) := by
  obtain ⟨request, stage, matched⟩ := taking
  cases stage
  case matching => simp [advance]
  case stamping => simp [advance]
  all_goals
    simp only [advance]
    split_ifs <;> simp_all

/-- Where a request is after a step, and the stamp that it bears. -/
structure Follows (control : Control) (taking next : Taking) : Prop where
  rank : next.stage.rank = taking.stage.rank + 1
  action : next.request.action = taking.request.action
  matched : next.matched = if taking.stage = .matching then
    decide (taking.request.action = .music .disconnect ∨
      (taking.request.action = .forget ∧ control.device = some taking.request.target))
    else taking.matched
  stamp : next.stage = .sending → next.request.generation =
    if taking.request.action.isCalls then control.callsCancel else control.musicCancel

variable {control taking}

theorem advance_more {next : Taking} (h : (control.advance taking).2 = .more next) :
    Follows control taking next := by
  obtain ⟨request, stage, matched⟩ := taking
  cases stage
  case loading =>
    simp only [advance] at h
    split at h
    · cases h
    · cases h
      exact ⟨rfl, rfl, rfl, nofun⟩
  case storing =>
    simp only [advance] at h
    split at h
    · cases h
    · split at h
      · cases h
      · cases h
        exact ⟨rfl, rfl, rfl, nofun⟩
  case sending =>
    simp only [advance] at h
    split at h <;> cases h
  case stamping =>
    cases h
    exact ⟨rfl, rfl, rfl, fun _ => rfl⟩
  all_goals
    cases h
    exact ⟨rfl, rfl, rfl, nofun⟩

theorem advance_taken {request : Request} (h : (control.advance taking).2 = .taken request) :
    taking.stage = .sending ∧ request = taking.request := by
  obtain ⟨asked, stage, matched⟩ := taking
  cases stage
  case loading =>
    simp only [advance] at h
    split at h <;> cases h
  case storing =>
    simp only [advance] at h
    split at h
    · cases h
    · split at h <;> cases h
  case sending =>
    simp only [advance] at h
    split at h
    · cases h
      exact ⟨rfl, rfl⟩
    · cases h
  all_goals cases h

theorem advance_refused {message : String} (h : (control.advance taking).2 = .refused message) :
    taking.stage = .loading ∨
      (taking.stage = .storing ∧ (taking.request.action = .clientClosed ∨
        ¬ taking.request.target.utf8ByteSize ≤ 256)) ∨
      (taking.stage = .sending ∧ ¬ control.requests.length < capacity) := by
  obtain ⟨asked, stage, matched⟩ := taking
  cases stage
  case loading => exact .inl rfl
  case storing =>
    simp only [advance] at h
    split at h
    · rename_i hreserved
      exact .inr (.inl ⟨rfl, .inl hreserved⟩)
    · split at h
      · rename_i hlong
        exact .inr (.inl ⟨rfl, .inr (Nat.not_le.mpr hlong)⟩)
      · cases h
  case sending =>
    simp only [advance] at h
    split at h
    · cases h
    · rename_i hroom
      exact .inr (.inr ⟨rfl, hroom⟩)
  all_goals cases h

end Control

namespace Controllers

open Library Library.Run

/-! ## Stops -/

namespace Kind

def has : Kind → Action → Bool
  | .music => Action.isMusic
  | .calls => Action.isCalls

def disconnect : Kind → Action
  | .music => .music .disconnect
  | .calls => .calls .disconnect

def generation : Kind → Control → ℕ
  | .music => Control.musicCancel
  | .calls => Control.callsCancel

/-- A request stops the work of a kind; `matched` tells that a `forget` names the device of the
music controller. -/
def stops : Kind → Action → Bool → Bool
  | .music, action, matched =>
    action = .music .disconnect || action = .stopAll || (action = .forget && matched)
  | .calls, action, _ => action = .calls .disconnect || action = .stopAll || action = .forget

end Kind

def Taken (history : List (Event × List Act)) (request : Request) : Prop :=
  ∃ entry ∈ history, ∃ matched, .taken request matched ∈ entry.2

/-- A request was taken, and after it one that stops it. -/
def Stopped (kind : Kind) (history : List (Event × List Act)) (request : Request) : Prop :=
  kind.has request.action ∧ ∃ earlier entry later, history = earlier ++ entry :: later ∧
    Taken earlier request ∧
      ∃ stop matched, .taken stop matched ∈ entry.2 ∧ kind.stops stop.action matched

/-- A disconnection that the worker asks for itself. -/
def Internal (kind : Kind) (request : Request) : Prop :=
  request.action = kind.disconnect ∧ request.generation = 0

/-! ## Stamps -/

/-- The request has advanced the generation of a kind, which its stage shows. -/
def Kind.advanced : Kind → Taking → Prop
  | .music, taking => (taking.matched ∧ Stage.music.rank < taking.stage.rank) ∨
      (taking.request.action = .stopAll ∧ Stage.all.rank < taking.stage.rank)
  | .calls, taking => Kind.stops .calls taking.request.action taking.matched ∧
      Stage.calls.rank < taking.stage.rank

/-- What is known of the request that is being taken. -/
structure Shaped (taking : Taking) : Prop where
  disconnects : taking.request.action = .music .disconnect →
    Stage.matching.rank < taking.stage.rank → taking.matched
  matched : taking.matched → taking.request.action = .music .disconnect ∨
    taking.request.action = .forget
  early : taking.matched → Stage.matching.rank < taking.stage.rank

/-- No taken request bears a later generation, and those that were stopped bear earlier ones. -/
structure Stamped (kind : Kind) (system : System) (history : List (Event × List Act)) : Prop where
  taken : ∀ request, Taken history request → kind.has request.action →
    request.generation ≤ kind.generation system.control
  disconnects : ∀ request, Taken history request → request.action = kind.disconnect →
    0 < request.generation
  stopped : ∀ request, Stopped kind history request →
    request.generation < kind.generation system.control
  shaped : ∀ taking, system.taking = some taking → Shaped taking
  stamped : ∀ taking, system.taking = some taking → taking.stage = .sending →
    (kind.has taking.request.action →
      taking.request.generation ≤ kind.generation system.control) ∧
        (taking.request.action = kind.disconnect → 0 < taking.request.generation)
  advanced : ∀ taking, system.taking = some taking → kind.advanced taking →
    0 < kind.generation system.control ∧
      ∀ request, Taken history request → kind.has request.action →
        request.generation < kind.generation system.control

theorem taken_concat {history : List (Event × List Act)} {event : Event} {acts : List Act}
    {request : Request} : Taken (history ++ [(event, acts)]) request ↔
      Taken history request ∨ ∃ matched, .taken request matched ∈ acts := by
  unfold Taken
  simp only [List.mem_append, List.mem_singleton, or_and_right, exists_or, exists_eq_left]

theorem stopped_concat {kind : Kind} {history : List (Event × List Act)} {event : Event}
    {acts : List Act} {request : Request} :
    Stopped kind (history ++ [(event, acts)]) request ↔ Stopped kind history request ∨
      (kind.has request.action ∧ Taken history request ∧
        ∃ stop matched, .taken stop matched ∈ acts ∧ kind.stops stop.action matched) := by
  constructor
  · rintro ⟨hkind, earlier, entry, later, hsplit, htaken, hstop⟩
    rcases List.eq_nil_or_concat later with rfl | ⟨rest, last, rfl⟩
    · obtain ⟨rfl, hentry⟩ := List.append_inj' hsplit rfl
      cases hentry
      exact .inr ⟨hkind, htaken, hstop⟩
    · rw [List.concat_eq_append, ← List.cons_append, ← List.append_assoc] at hsplit
      obtain ⟨rfl, -⟩ := List.append_inj' hsplit rfl
      exact .inl ⟨hkind, earlier, entry, rest, rfl, htaken, hstop⟩
  · rintro (⟨hkind, earlier, entry, later, rfl, htaken, hstop⟩ | ⟨hkind, htaken, hstop⟩)
    · exact ⟨hkind, earlier, entry, later ++ [(event, acts)], by simp, htaken, hstop⟩
    · exact ⟨hkind, history, (event, acts), [], rfl, htaken, hstop⟩

/-- What a controller says of a request. -/
def Act.reports : Act → Bool
  | .asked | .updated | .refused _ | .taken .. => false
  | .revoked .. | .started .. | .cancelled .. | .ended .. => true

/-- A step of another task advances the generations at most. -/
structure Aside (system after : System) (acts : List Act) : Prop where
  taking : after.taking = system.taking
  music : system.control.musicCancel ≤ after.control.musicCancel
  calls : system.control.callsCancel ≤ after.control.callsCancel
  reports : ∀ act ∈ acts, act.reports

namespace Aside

variable {system after : System} {acts : List Act}

theorem generation (h : Aside system after acts) (kind : Kind) :
    kind.generation system.control ≤ kind.generation after.control := by
  cases kind with
  | music => exact h.music
  | calls => exact h.calls

theorem not_mem (h : Aside system after acts) {act : Act} (hact : act.reports = false) :
    act ∉ acts := by
  intro hmem
  have hreports := h.reports act hmem
  rw [hact] at hreports
  cases hreports

theorem of_control (htaking : after.taking = system.taking)
    (hcontrol : after.control = system.control) : Aside system after [] := by
  refine ⟨htaking, ?_, ?_, List.forall_mem_nil _⟩
  · rw [hcontrol]
  · rw [hcontrol]

theorem of_act {act : Act} (htaking : after.taking = system.taking)
    (hcontrol : after.control = system.control) (hact : act.reports) :
    Aside system after [act] := by
  refine ⟨htaking, ?_, ?_, ?_⟩
  · rw [hcontrol]
  · rw [hcontrol]
  · intro other hother
    rw [List.mem_singleton.mp hother]
    exact hact

end Aside

theorem Aside.worker {system after : System} {acts : List Act} (h : Aside system after acts)
    (worker : Worker) : Aside system { after with worker } acts :=
  ⟨h.taking, h.music, h.calls, h.reports⟩

theorem aside_sendMusic (system : System) (request : Request) :
    Aside system (system.sendMusic request) [] := by
  unfold System.sendMusic
  split <;> exact .of_control rfl rfl

theorem aside_sendCalls (system : System) (request : Request) :
    Aside system (system.sendCalls request) [] := by
  unfold System.sendCalls
  split <;> exact .of_control rfl rfl

theorem aside_update (system : System) (update : Clients.Update) :
    Aside system (system.update update) [] := by
  cases update with
  | cancelCalls => exact ⟨rfl, le_rfl, Nat.le_succ _, List.forall_mem_nil _⟩
  | cancelMusic => exact ⟨rfl, Nat.le_succ _, le_rfl, List.forall_mem_nil _⟩
  | disconnectCalls => exact aside_sendCalls system _
  | disconnectMusic => exact aside_sendMusic system _
  | signal | drain => exact ⟨rfl, le_rfl, le_rfl, List.forall_mem_nil _⟩
  | release | disable | stopTest | stopWireless => exact .of_control rfl rfl

theorem aside_forward (system : System) (request : Request) :
    Aside system (system.forward request) [] := by
  unfold System.forward
  split_ifs
  · exact (aside_sendCalls system request).worker _
  · exact .of_control rfl rfl
  · exact (aside_sendCalls system _).worker _
  · exact (aside_sendMusic system request).worker _
  · exact .of_control rfl rfl

theorem aside_work (system : System) : Aside system system.work [] := by
  unfold System.work
  split
  · exact .of_control rfl rfl
  · split <;> exact .of_control rfl rfl
  · exact aside_forward system _
  · split
    · exact (aside_sendMusic system _).worker _
    · exact .of_control rfl rfl
  · split
    · exact (aside_sendMusic system _).worker _
    · exact .of_control rfl rfl
  · split
    · exact (aside_sendCalls system _).worker _
    · exact .of_control rfl rfl
  · exact .of_control rfl rfl
  · exact (aside_update system _).worker _
  · exact .of_control rfl rfl

theorem aside_step (system : System) {event : Event} (hcontrol : event ≠ .control)
    (hrequest : ∀ length parsed, event ≠ .request length parsed) :
    Aside system (System.step system event).1 (System.step system event).2 := by
  cases event with
  | control => exact absurd rfl hcontrol
  | request length parsed => exact absurd rfl (hrequest length parsed)
  | hello =>
    simp only [System.step]
    split
    · exact ⟨rfl, le_rfl, le_rfl, List.forall_mem_nil _⟩
    · exact .of_control rfl rfl
  | cleanup update =>
    simp only [System.step]
    split
    · exact aside_update system update
    · exact .of_control rfl rfl
  | publish device => exact ⟨rfl, le_rfl, le_rfl, List.forall_mem_nil _⟩
  | notice =>
    simp only [System.step]
    split
    · split <;> exact .of_control rfl rfl
    · exact .of_control rfl rfl
  | receive =>
    simp only [System.step]
    split
    · exact ⟨rfl, le_rfl, le_rfl, List.forall_mem_nil _⟩
    · exact .of_control rfl rfl
  | work => exact aside_work system
  | musicWake =>
    simp only [System.step]
    split <;> exact .of_control rfl rfl
  | musicReceive =>
    simp only [System.step]
    split <;> exact .of_control rfl rfl
  | musicCompare =>
    simp only [System.step, System.musicCompare]
    split
    · split
      · exact .of_act rfl rfl rfl
      · exact .of_control rfl rfl
    · exact .of_control rfl rfl
  | musicUpdate =>
    simp only [System.step, System.musicUpdate]
    split
    · exact .of_act rfl rfl rfl
    · exact .of_control rfl rfl
  | musicPoll =>
    simp only [System.step, System.musicPoll]
    split
    · split
      · exact .of_act rfl rfl rfl
      · exact .of_control rfl rfl
    · exact .of_control rfl rfl
  | musicResult result =>
    simp only [System.step, System.musicResult]
    split
    · exact .of_control rfl rfl
    · exact .of_act rfl rfl rfl
    · exact .of_control rfl rfl
  | callsReceive =>
    simp only [System.step]
    split <;> exact .of_control rfl rfl
  | callsCompare =>
    simp only [System.step, System.callsCompare]
    split
    · split
      · exact .of_act rfl rfl rfl
      · exact .of_control rfl rfl
    · exact .of_control rfl rfl
  | callsStart =>
    simp only [System.step, System.callsStart]
    split
    · split <;> exact .of_act rfl rfl rfl
    · exact .of_control rfl rfl
  | callsResult confirmed =>
    simp only [System.step]
    split <;> exact .of_control rfl rfl
  | callsReport =>
    simp only [System.step, System.callsReport]
    split
    · split <;> exact .of_act rfl rfl rfl
    · exact .of_control rfl rfl

section Stamps

variable {kind : Kind} {system after : System} {history : List (Event × List Act)} {event : Event}
  {acts : List Act}

theorem stamped_of (h : Stamped kind system history)
    (hgeneration : kind.generation system.control ≤ kind.generation after.control)
    (htaken : ∀ request matched, .taken request matched ∉ acts)
    (htaking : ∀ taking, after.taking = some taking → Shaped taking ∧
      (taking.stage = .sending → (kind.has taking.request.action →
        taking.request.generation ≤ kind.generation after.control) ∧
          (taking.request.action = kind.disconnect → 0 < taking.request.generation)) ∧
      (kind.advanced taking → 0 < kind.generation after.control ∧
        ∀ request, Taken history request → kind.has request.action →
          request.generation < kind.generation after.control)) :
    Stamped kind after (history ++ [(event, acts)]) := by
  have hold : ∀ request, Taken (history ++ [(event, acts)]) request → Taken history request := by
    intro request hrequest
    refine (taken_concat.mp hrequest).resolve_right ?_
    rintro ⟨matched, hmem⟩
    exact htaken request matched hmem
  refine ⟨?_, ?_, ?_, ?_, ?_, ?_⟩
  · intro request hrequest hkind
    exact (h.taken request (hold request hrequest) hkind).trans hgeneration
  · intro request hrequest
    exact h.disconnects request (hold request hrequest)
  · intro request hstopped
    rcases stopped_concat.mp hstopped with hbefore | ⟨-, -, stop, matched, hmem, -⟩
    · exact (h.stopped request hbefore).trans_le hgeneration
    · exact absurd hmem (htaken stop matched)
  · exact fun taking hsome => (htaking taking hsome).1
  · exact fun taking hsome => (htaking taking hsome).2.1
  · intro taking hsome hadvanced
    obtain ⟨hpositive, hearlier⟩ := (htaking taking hsome).2.2 hadvanced
    exact ⟨hpositive, fun request hrequest => hearlier request (hold request hrequest)⟩

theorem stamped_aside (h : Stamped kind system history) (haside : Aside system after acts) :
    Stamped kind after (history ++ [(event, acts)]) := by
  have hgeneration := haside.generation kind
  refine stamped_of h hgeneration (fun request matched => haside.not_mem rfl) ?_
  intro taking hsome
  rw [haside.taking] at hsome
  refine ⟨h.shaped taking hsome, ?_, ?_⟩
  · intro hstage
    obtain ⟨hstamp, hdisconnect⟩ := h.stamped taking hsome hstage
    exact ⟨fun hkind => (hstamp hkind).trans hgeneration, hdisconnect⟩
  · intro hadvanced
    obtain ⟨hpositive, hearlier⟩ := h.advanced taking hsome hadvanced
    exact ⟨hpositive.trans_le hgeneration,
      fun request hrequest hkind => (hearlier request hrequest hkind).trans_le hgeneration⟩

theorem advance_generation (kind : Kind) (control : Control) (taking : Taking) :
    kind.generation control ≤ kind.generation (control.advance taking).1 := by
  cases kind with
  | music =>
    change control.musicCancel ≤ (control.advance taking).1.musicCancel
    rw [Control.advance_musicCancel]
    exact Nat.le_add_right _ _
  | calls =>
    change control.callsCancel ≤ (control.advance taking).1.callsCancel
    rw [Control.advance_callsCancel]
    exact Nat.le_add_right _ _

theorem shaped_more {control : Control} {taking next : Taking} (h : Shaped taking)
    (hfollows : Control.Follows control taking next) : Shaped next := by
  obtain ⟨hrank, haction, hmatched, -⟩ := hfollows
  refine ⟨?_, ?_, ?_⟩
  · intro hdisconnect hlater
    rw [haction] at hdisconnect
    rw [hmatched]
    split
    · exact decide_eq_true (.inl hdisconnect)
    · rename_i hstage
      refine h.disconnects hdisconnect ?_
      have hne : taking.stage.rank ≠ Stage.matching.rank :=
        fun hequal => hstage (Stage.rank_injective hequal)
      omega
  · intro hnext
    rw [haction]
    rw [hmatched] at hnext
    split at hnext
    · rcases of_decide_eq_true hnext with hdisconnect | ⟨hforget, -⟩
      · exact .inl hdisconnect
      · exact .inr hforget
    · exact h.matched hnext
  · intro hnext
    rw [hrank]
    rw [hmatched] at hnext
    split at hnext
    · rename_i hstage
      rw [hstage]
      decide
    · exact (h.early hnext).trans (Nat.lt_succ_self _)

theorem rank_eq_or_lt {stage : Stage} {next : ℕ} {other : Stage} (hnext : next = stage.rank + 1)
    (h : other.rank < next) : stage = other ∨ other.rank < stage.rank := by
  by_cases hequal : stage.rank = other.rank
  · exact .inl (Stage.rank_injective hequal)
  · exact .inr (by omega)

/-- A request that has advanced the generation had already done so or has just done it. -/
theorem advanced_more {control : Control} {taking next : Taking}
    (hfollows : Control.Follows control taking next) (h : kind.advanced next) :
    kind.advanced taking ∨
      kind.generation (control.advance taking).1 = kind.generation control + 1 := by
  obtain ⟨hrank, haction, hmatched, -⟩ := hfollows
  cases kind with
  | music =>
    simp only [Kind.generation, Control.advance_musicCancel]
    rcases h with ⟨hnext, hlater⟩ | ⟨hstop, hlater⟩
    · rcases rank_eq_or_lt hrank hlater with hstage | hbefore
      · rw [hmatched, hstage, if_neg nofun] at hnext
        exact .inr (congrArg _ (if_pos (.inl ⟨hstage, hnext⟩)))
      · rw [hmatched, if_neg] at hnext
        · exact .inl (.inl ⟨hnext, hbefore⟩)
        · intro hstage
          rw [hstage] at hbefore
          exact absurd hbefore (by decide)
    · rw [haction] at hstop
      rcases rank_eq_or_lt hrank hlater with hstage | hbefore
      · exact .inr (congrArg _ (if_pos (.inr ⟨hstage, hstop⟩)))
      · exact .inl (.inr ⟨hstop, hbefore⟩)
  | calls =>
    simp only [Kind.generation, Control.advance_callsCancel]
    obtain ⟨hstops, hlater⟩ := h
    rw [haction] at hstops
    rcases rank_eq_or_lt hrank hlater with hstage | hbefore
    · refine .inr (congrArg _ (if_pos ⟨hstage, ?_⟩))
      simpa [Kind.stops, or_assoc] using hstops
    · exact .inl ⟨hstops, hbefore⟩

/-- A stop that is about to be queued has advanced the generation. -/
theorem advanced_of_stops {taking : Taking} (hshaped : Shaped taking)
    (hstage : taking.stage = .sending) (h : kind.stops taking.request.action taking.matched) :
    kind.advanced taking := by
  have hrank : taking.stage.rank = 7 := by
    rw [hstage]
    rfl
  cases kind with
  | music =>
    simp only [Kind.stops, Bool.or_eq_true, Bool.and_eq_true, decide_eq_true_eq] at h
    rcases h with (hdisconnect | hstop) | ⟨-, hmatched⟩
    · refine .inl ⟨hshaped.disconnects hdisconnect ?_, ?_⟩
      · rw [hrank]
        decide
      · rw [hrank]
        decide
    · refine .inr ⟨hstop, ?_⟩
      rw [hrank]
      decide
    · refine .inl ⟨hmatched, ?_⟩
      rw [hrank]
      decide
  | calls =>
    refine ⟨h, ?_⟩
    rw [hrank]
    decide

/-- A disconnection that is about to be stamped has advanced the generation. -/
theorem advanced_of_disconnect {taking : Taking} (hshaped : Shaped taking)
    (hstage : taking.stage = .stamping) (h : taking.request.action = kind.disconnect) :
    kind.advanced taking := by
  have hrank : taking.stage.rank = 6 := by
    rw [hstage]
    rfl
  cases kind with
  | music =>
    refine .inl ⟨hshaped.disconnects h ?_, ?_⟩
    · rw [hrank]
      decide
    · rw [hrank]
      decide
  | calls =>
    refine ⟨?_, ?_⟩
    · rw [h]
      rfl
    · rw [hrank]
      decide

/-- The stamp is the generation of the kind that the request is for. -/
theorem stamp_eq {control : Control} {taking next : Taking}
    (hfollows : Control.Follows control taking next) (hstage : next.stage = .sending)
    (hkind : kind.has taking.request.action) :
    next.request.generation = kind.generation control := by
  rw [hfollows.stamp hstage]
  cases kind with
  | music =>
    refine if_neg ?_
    cases haction : taking.request.action with
    | music action => exact nofun
    | _ =>
      rw [haction] at hkind
      cases hkind
  | calls => exact if_pos hkind

theorem has_disconnect (kind : Kind) : kind.has kind.disconnect := by
  cases kind <;> rfl

theorem begin_ok {length : ℕ} {parsed : Option Request} {taking : Taking}
    (h : begin length parsed = .ok taking) : ∃ request, taking = { request } := by
  unfold begin at h
  split at h
  · cases h
  · split at h
    · cases h
    · rename_i request
      exact ⟨request, (Except.ok.inj h).symm⟩

theorem shaped_fresh (request : Request) : Shaped { request } :=
  ⟨fun _ hlater => absurd hlater (Nat.not_lt_zero _), nofun, nofun⟩

theorem not_advanced {request : Request} : ¬ kind.advanced { request } := by
  cases kind with
  | music =>
    rintro (⟨hmatched, -⟩ | ⟨-, hlater⟩)
    · cases hmatched
    · exact Nat.not_lt_zero _ hlater
  | calls =>
    rintro ⟨-, hlater⟩
    exact Nat.not_lt_zero _ hlater

theorem stamped_more {taking next : Taking} (h : Stamped kind system history)
    (hsome : system.taking = some taking)
    (hfollows : Control.Follows system.control taking next) {control : Control}
    (hcontrol : control = (system.control.advance taking).1)
    (htaken : ∀ request matched, .taken request matched ∉ acts) :
    Stamped kind { system with control, taking := some next } (history ++ [(event, acts)]) := by
  have hgeneration : kind.generation system.control ≤ kind.generation control := by
    rw [hcontrol]
    exact advance_generation kind system.control taking
  have hshaped := h.shaped taking hsome
  refine stamped_of h hgeneration htaken ?_
  rintro _ ⟨⟩
  refine ⟨shaped_more hshaped hfollows, ?_, ?_⟩
  · intro hstage
    rw [hfollows.action]
    have hstamping : taking.stage = .stamping := by
      have hrank := hfollows.rank
      rw [hstage] at hrank
      exact Stage.rank_injective (Nat.succ.inj hrank).symm
    refine ⟨?_, ?_⟩
    · intro hkind
      rw [stamp_eq hfollows hstage hkind]
      exact hgeneration
    · intro hdisconnect
      rw [stamp_eq hfollows hstage (hdisconnect ▸ has_disconnect kind)]
      exact (h.advanced taking hsome
        (advanced_of_disconnect hshaped hstamping hdisconnect)).1
  · intro hadvanced
    change 0 < kind.generation control ∧ _
    rcases advanced_more hfollows hadvanced with hbefore | hnow
    · obtain ⟨hpositive, hearlier⟩ := h.advanced taking hsome hbefore
      exact ⟨hpositive.trans_le hgeneration,
        fun request hrequest hkind => (hearlier request hrequest hkind).trans_le hgeneration⟩
    · rw [← hcontrol] at hnow
      refine ⟨?_, ?_⟩
      · rw [hnow]
        exact Nat.succ_pos _
      · intro request hrequest hkind
        rw [hnow]
        exact Nat.lt_succ_of_le (h.taken request hrequest hkind)

theorem stamped_taken {taking : Taking} (h : Stamped kind system history)
    (hsome : system.taking = some taking) (hstage : taking.stage = .sending) {control : Control}
    (hgeneration : kind.generation system.control ≤ kind.generation control)
    (htaken : ∀ request matched, .taken request matched ∈ acts →
      request = taking.request ∧ matched = taking.matched) :
    Stamped kind { system with control, taking := none } (history ++ [(event, acts)]) := by
  have hstamped := h.stamped taking hsome hstage
  refine ⟨?_, ?_, ?_, ?_, ?_, ?_⟩
  · intro request hrequest hkind
    rcases taken_concat.mp hrequest with hold | ⟨matched, hmem⟩
    · exact (h.taken request hold hkind).trans hgeneration
    · obtain ⟨rfl, -⟩ := htaken request matched hmem
      exact (hstamped.1 hkind).trans hgeneration
  · intro request hrequest hdisconnect
    rcases taken_concat.mp hrequest with hold | ⟨matched, hmem⟩
    · exact h.disconnects request hold hdisconnect
    · obtain ⟨rfl, -⟩ := htaken request matched hmem
      exact hstamped.2 hdisconnect
  · intro request hstopped
    rcases stopped_concat.mp hstopped with hold | ⟨hkind, hbefore, stop, matched, hmem, hstops⟩
    · exact (h.stopped request hold).trans_le hgeneration
    · obtain ⟨rfl, rfl⟩ := htaken stop matched hmem
      have hadvanced := advanced_of_stops (h.shaped taking hsome) hstage hstops
      exact ((h.advanced taking hsome hadvanced).2 request hbefore hkind).trans_le hgeneration
  all_goals rintro _ ⟨⟩

theorem stamped_step (h : Stamped kind system history) (event : Event) :
    Stamped kind (System.step system event).1
      (history ++ [(event, (System.step system event).2)]) := by
  by_cases hcontrol : event = .control
  · subst hcontrol
    simp only [System.step]
    split
    · rename_i taking hsome
      have hgeneration := advance_generation kind system.control taking
      unfold System.advance
      dsimp only
      have hupdated : ∀ request matched, Act.taken request matched ∉
          (if (system.control.advance taking).1.musicCancel ≠ system.control.musicCancel ∨
            (system.control.advance taking).1.callsCancel ≠ system.control.callsCancel ∨
            (system.control.advance taking).1.stopping ≠ system.control.stopping
            then [Act.updated] else []) := by
        intro request matched hmem
        split at hmem
        · cases List.mem_singleton.mp hmem
        · cases hmem
      split
      · rename_i next hmore
        exact stamped_more h hsome (Control.advance_more hmore) rfl hupdated
      · rename_i message hrefused
        refine stamped_of h hgeneration ?_ (by rintro _ ⟨⟩)
        intro request matched hmem
        rcases List.mem_append.mp hmem with hfirst | hlast
        · exact hupdated request matched hfirst
        · cases List.mem_singleton.mp hlast
      · rename_i request htaken
        obtain ⟨hstage, rfl⟩ := Control.advance_taken htaken
        refine stamped_taken h hsome hstage hgeneration ?_
        intro request matched hmem
        rcases List.mem_append.mp hmem with hfirst | hlast
        · exact absurd hfirst (hupdated request matched)
        · cases List.mem_singleton.mp hlast
          exact ⟨rfl, rfl⟩
    · exact stamped_aside h (.of_control rfl rfl)
  · by_cases hrequest : ∃ length parsed, event = .request length parsed
    · obtain ⟨length, parsed, rfl⟩ := hrequest
      simp only [System.step]
      split
      · split
        · rename_i message hbegin
          refine stamped_of h le_rfl ?_ ?_
          · intro request matched hmem
            simp at hmem
          · intro taking hsome
            exact ⟨h.shaped taking hsome, h.stamped taking hsome, h.advanced taking hsome⟩
        · rename_i taking hbegin
          refine stamped_of h le_rfl ?_ ?_
          · intro request matched hmem
            cases List.mem_singleton.mp hmem
          · rintro _ ⟨⟩
            obtain ⟨request, rfl⟩ := begin_ok hbegin
            exact ⟨shaped_fresh request, by rintro ⟨⟩, fun hadvanced => absurd hadvanced not_advanced⟩
      · exact stamped_aside h (.of_control rfl rfl)
    · exact stamped_aside h
        (aside_step system hcontrol fun length parsed hevent => hrequest ⟨length, parsed, hevent⟩)

end Stamps

end Controllers

end ProjectArgo.Connectivity
