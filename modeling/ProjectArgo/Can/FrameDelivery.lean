import ProjectArgo.Can.SocketCan

/-!
# Frames reach their handlers in order

The log of a run, seen from one subscription, is the log of a waiting line that drops its oldest:
the frames that match come, the calls of the handler serve them, and a cancellation closes the
line. What is to be known of the handler's calls follows from that.
-/
namespace ProjectArgo.Can.SocketCan

open Library.LossyQueue (Entry Stage Lawful Allowed lawful_nil lawful_concat)

variable {α : Type} {config : SocketCanConfiguration}

/-- The subscription that an act is about. -/
def Act.id? : Act α → Option ℕ
  | .subscribed id => some id
  | .dropped id _ => some id
  | .entered id _ => some id
  | .completed id _ => some id
  | .cancelled id => some id
  | _ => none

/-- The batch that an act is about. -/
def Act.sent? : Act α → Option ℕ
  | .sent batchId => some batchId
  | _ => none

def Act.acknowledged? : Act α → Option ℕ
  | .acknowledged batchId => some batchId
  | _ => none

/-- What an act is to the subscription with an id and a filter. -/
def Act.entry (id : ℕ) (filter : α → Bool) : Act α → Option (Entry α)
  | .came frame => if filter frame then some (.came frame) else none
  | .subscribed other => if other = id then some .opened else none
  | .dropped other frame => if other = id then some (.dropped frame) else none
  | .entered other frame => if other = id then some (.entered frame) else none
  | .completed other _ => if other = id then some .left else none
  | .cancelled other => if other = id then some .closed else none
  | _ => none

def about (id : ℕ) (filter : α → Bool) (log : List (Act α)) : List (Entry α) :=
  log.filterMap (Act.entry id filter)

theorem about_append (id : ℕ) (filter : α → Bool) (log acts : List (Act α)) :
    about id filter (log ++ acts) = about id filter log ++ about id filter acts :=
  List.filterMap_append

theorem entry_other {id other : ℕ} {filter : α → Bool} {act : Act α} (h : act.id? = some id)
    (hne : other ≠ id) : act.entry other filter = none := by
  cases act with
  | came frame => exact nomatch h
  | sent batchId => exact nomatch h
  | acknowledged batchId => exact nomatch h
  | subscribed other => exact if_neg fun heq => hne (Eq.trans (Eq.symm heq) (Option.some.inj h))
  | dropped other frame => exact if_neg fun heq => hne (Eq.trans (Eq.symm heq) (Option.some.inj h))
  | entered other frame => exact if_neg fun heq => hne (Eq.trans (Eq.symm heq) (Option.some.inj h))
  | completed other failed =>
    exact if_neg fun heq => hne (Eq.trans (Eq.symm heq) (Option.some.inj h))
  | cancelled other => exact if_neg fun heq => hne (Eq.trans (Eq.symm heq) (Option.some.inj h))

theorem about_other {id other : ℕ} {filter : α → Bool} {log acts : List (Act α)}
    (h : ∀ act ∈ acts, act.id? = some id) (hne : other ≠ id) :
    about other filter (log ++ acts) = about other filter log := by
  rw [about_append, about, about, List.filterMap_eq_nil_iff.mpr fun act hmem =>
    entry_other (h act hmem) hne, List.append_nil]

/-- Nothing that has come is of any account before the subscription. -/
theorem about_strange (config : SocketCanConfiguration) {id : ℕ} (filter : α → Bool)
    {log : List (Act α)}
    (h : ∀ act ∈ log, act.id? ≠ some id) :
    Lawful config.maxPendingPerSubscription (about id filter log) ∧
      Library.LossyQueue.after (about id filter log) = {} := by
  induction log using List.reverseRecOn with
  | nil => exact ⟨lawful_nil, rfl⟩
  | append_singleton log act ih =>
    obtain ⟨hlawful, hafter⟩ := ih fun other hmem => h other (List.mem_append_left _ hmem)
    have hlast := h act (by simp)
    rw [about_append]
    have hsame (hnone : act.entry id filter = none) :
        Lawful config.maxPendingPerSubscription (about id filter log ++ about id filter [act]) ∧
          Library.LossyQueue.after (about id filter log ++ about id filter [act]) = {} := by
      rw [about, about, List.filterMap_cons_none hnone, List.filterMap_nil, List.append_nil]
      exact ⟨hlawful, hafter⟩
    have hother {other : ℕ} (hid : act.id? = some other) : id ≠ other :=
      fun heq => hlast (heq ▸ hid)
    cases act with
    | came frame =>
      by_cases hfilter : filter frame = true
      · have hentry : about id filter [Act.came frame] = [.came frame] :=
          List.filterMap_cons_some (if_pos hfilter)
        rw [hentry, lawful_concat, Library.LossyQueue.after_concat, hafter]
        exact ⟨⟨hlawful, trivial⟩, rfl⟩
      · exact hsame (if_neg hfilter)
    | sent batchId => exact hsame rfl
    | acknowledged batchId => exact hsame rfl
    | subscribed other => exact hsame (entry_other rfl (hother rfl))
    | dropped other frame => exact hsame (entry_other rfl (hother rfl))
    | entered other frame => exact hsame (entry_other rfl (hother rfl))
    | completed other failed => exact hsame (entry_other rfl (hother rfl))
    | cancelled other => exact hsame (entry_other rfl (hother rfl))

namespace System

variable {system next : System α} {id : ℕ} {coming : List α}

/-- The line of a subscription. -/
def line (system : System α) (id : ℕ) : List (Entry α) :=
  about id (system.objects id).filter system.log

/-- The line of a subscription against its queue, where `coming` has come and is still to be
offered. -/
structure Lined (config : SocketCanConfiguration) (system : System α) (id : ℕ)
    (coming : List α) : Prop where
  lawful : Lawful config.maxPendingPerSubscription (system.line id)
  stage : (system.objects id).active = true →
    (Library.LossyQueue.after (system.line id)).stage = .opened
  waiting : (system.objects id).active = true →
    (Library.LossyQueue.after (system.line id)).waiting = (system.objects id).pending ++ coming
  quiet : (system.objects id).active = false → (system.objects id).pending = []
  bounded : (system.objects id).pending.length ≤ config.maxPendingPerSubscription
  fresh : system.nextSubscriptionId ≤ id →
    system.objects id = {} ∧ ∀ act ∈ system.log, act.id? ≠ some id

/-- At most one run of `_drain`, and where it stands. -/
inductive Standing (turn : Option Turn) (id : ℕ) (subscription : Subscription α) :
    Bool → Prop
  | idle (hturn : ∀ t ∈ turn, t.id ≠ id) (hdrains : subscription.drains = [])
      (hfuture : subscription.drainFuture = false) (hpending : subscription.pending = []) :
      Standing turn id subscription false
  | handling {first : Bool} (hturn : turn = some ⟨id, 0, first⟩)
      (hdrains : subscription.drains = [.handling])
      (hfuture : subscription.drainFuture = !first) : Standing turn id subscription true
  | reporting {first : Bool} (hturn : turn = some ⟨id, 0, first⟩)
      (hdrains : subscription.drains = [.reporting])
      (hfuture : subscription.drainFuture = !first) : Standing turn id subscription false
  | awaiting (hturn : ∀ t ∈ turn, t.id ≠ id) (hdrains : subscription.drains = [.awaiting])
      (hfuture : subscription.drainFuture = true) : Standing turn id subscription true
  | ended (hturn : ∀ t ∈ turn, t.id ≠ id) (hdrains : subscription.drains = [.ended])
      (hfuture : subscription.drainFuture = true) : Standing turn id subscription false

structure Sound (config : SocketCanConfiguration) (system : System α) (id : ℕ)
    (coming : List α) : Prop where
  lined : system.Lined config id coming
  standing : Standing system.turn id (system.objects id)
    (Library.LossyQueue.after (system.line id)).busy

/-- The map of the provider holds the active subscriptions. -/
structure Registered (system : System α) : Prop where
  nodup : system.subscriptions.Nodup
  active : ∀ id, id ∈ system.subscriptions ↔ (system.objects id).active = true

/-- Only one subscription, and what is on the stack, is touched. -/
structure Only (id : ℕ) (system next : System α) : Prop where
  objects : ∀ other, other ≠ id → next.objects other = system.objects other
  filter : id < system.nextSubscriptionId →
    (next.objects id).filter = (system.objects id).filter
  registered : system.Registered → next.Registered
  wire : next.dispatch = system.dispatch ∧ next.batches = system.batches ∧
    next.acks = system.acks ∧ next.unacknowledgedBatchId = system.unacknowledgedBatchId
  log : ∃ acts, next.log = system.log ++ acts ∧ ∀ act ∈ acts, act.id? = some id
  turn : next.turn = system.turn ∨
    (∀ t ∈ system.turn, t.id = id) ∧ ∀ t ∈ next.turn, t.id = id
  ids : system.nextSubscriptionId ≤ next.nextSubscriptionId

theorem Standing.elsewhere {turn later : Option Turn} {subscription : Subscription α} {busy : Bool}
    {other : ℕ} (h : Standing turn other subscription busy) (hne : other ≠ id)
    (hturn : later = turn ∨ (∀ t ∈ turn, t.id = id) ∧ ∀ t ∈ later, t.id = id) :
    Standing later other subscription busy := by
  rcases hturn with rfl | ⟨hbefore, hafter⟩
  · exact h
  have hlater : ∀ t ∈ later, t.id ≠ other := fun t ht heq => hne (heq.symm.trans (hafter t ht))
  cases h with
  | idle _ hdrains hfuture hpending => exact .idle hlater hdrains hfuture hpending
  | handling heq => exact absurd (hbefore _ heq) hne
  | reporting heq => exact absurd (hbefore _ heq) hne
  | awaiting _ hdrains hfuture => exact .awaiting hlater hdrains hfuture
  | ended _ hdrains hfuture => exact .ended hlater hdrains hfuture

theorem Only.line {other : ℕ} (h : Only id system next) (hne : other ≠ id) :
    next.line other = system.line other := by
  obtain ⟨acts, hlog, hacts⟩ := h.log
  rw [System.line, System.line, h.objects other hne, hlog, about_other hacts hne]

/-- The others stay as they are. -/
theorem Sound.elsewhere {other : ℕ} (hsound : system.Sound config other coming)
    (h : Only id system next) (hne : other ≠ id) : next.Sound config other coming := by
  have hline := h.line hne
  have hobject := h.objects other hne
  constructor
  · constructor
    · rw [hline]
      exact hsound.lined.lawful
    · rw [hline, hobject]
      exact hsound.lined.stage
    · rw [hline, hobject]
      exact hsound.lined.waiting
    · rw [hobject]
      exact hsound.lined.quiet
    · rw [hobject]
      exact hsound.lined.bounded
    · rw [hobject]
      intro hfresh
      obtain ⟨hnew, hlog⟩ := hsound.lined.fresh (Nat.le_trans h.ids hfresh)
      refine ⟨hnew, fun act hmem => ?_⟩
      obtain ⟨acts, heq, hacts⟩ := h.log
      rw [heq, List.mem_append] at hmem
      rcases hmem with hmem | hmem
      · exact hlog act hmem
      · rw [hacts act hmem]
        exact fun heq => hne (Option.some.inj heq).symm
  · rw [hline, hobject]
    exact hsound.standing.elsewhere hne h.turn

/-! ## Runs of `_drain` -/

/-- A line with one more entry, which concerns nobody else. -/
theorem line_concat {act : Act α} {entry : Entry α}
    (hfilter : (next.objects id).filter = (system.objects id).filter)
    (hlog : next.log = system.log ++ [act])
    (hentry : act.entry id (system.objects id).filter = some entry) :
    next.line id = system.line id ++ [entry] := by
  rw [line, line, hfilter, hlog, about_append]
  exact congrArg _ (List.filterMap_cons_some hentry)

theorem line_same (hfilter : (next.objects id).filter = (system.objects id).filter)
    (hlog : next.log = system.log) : next.line id = system.line id := by
  rw [line, line, hfilter, hlog]

theorem Lined.created (h : system.Lined config id coming)
    (hdrains : (system.objects id).drains ≠ []) :
    id < system.nextSubscriptionId := by
  by_contra hfresh
  rw [(h.fresh (Nat.le_of_not_lt hfresh)).1] at hdrains
  exact hdrains rfl

/-- The queue stays as it is, and so does the log. -/
theorem Lined.of_eq (h : system.Lined config id coming)
    (hcreated : id < system.nextSubscriptionId)
    (hfilter : (next.objects id).filter = (system.objects id).filter)
    (hactive : (next.objects id).active = (system.objects id).active)
    (hpending : (next.objects id).pending = (system.objects id).pending)
    (hids : next.nextSubscriptionId = system.nextSubscriptionId)
    (hlog : next.log = system.log) : next.Lined config id coming := by
  have hline := line_same hfilter hlog
  constructor
  · rw [hline]
    exact h.lawful
  · rw [hline, hactive]
    exact h.stage
  · rw [hline, hactive, hpending]
    exact h.waiting
  · rw [hactive, hpending]
    exact h.quiet
  · rw [hpending]
    exact h.bounded
  · rw [hids]
    exact fun hfresh => absurd hcreated (Nat.not_lt.mpr hfresh)

/-- A call of the handler is over. -/
theorem Lined.completed (h : system.Lined config id coming)
    (hbusy : (Library.LossyQueue.after (system.line id)).busy = true)
    (hcreated : id < system.nextSubscriptionId) {failed : Bool}
    (hfilter : (next.objects id).filter = (system.objects id).filter)
    (hactive : (next.objects id).active = (system.objects id).active)
    (hpending : (next.objects id).pending = (system.objects id).pending)
    (hids : next.nextSubscriptionId = system.nextSubscriptionId)
    (hlog : next.log = system.log ++ [.completed id failed]) :
    next.Lined config id coming ∧ (Library.LossyQueue.after (next.line id)).busy = false := by
  have hline : next.line id = system.line id ++ [.left] :=
    line_concat hfilter hlog (if_pos rfl)
  have hafter := Library.LossyQueue.after_concat (system.line id) Entry.left
  rw [← hline] at hafter
  refine ⟨?_, congrArg _ hafter⟩
  constructor
  · rw [hline]
    exact lawful_concat.mpr ⟨h.lawful, hbusy⟩
  · rw [hafter, hactive]
    exact h.stage
  · rw [hafter, hactive, hpending]
    exact h.waiting
  · rw [hactive, hpending]
    exact h.quiet
  · rw [hpending]
    exact h.bounded
  · rw [hids]
    exact fun hfresh => absurd hcreated (Nat.not_lt.mpr hfresh)

/-- The handler is entered with the oldest frame. -/
theorem Lined.entered {frame : α} {pending : List α} (h : system.Lined config id coming)
    (hbusy : (Library.LossyQueue.after (system.line id)).busy = false)
    (hcreated : id < system.nextSubscriptionId) (hactive : (system.objects id).active = true)
    (hpending : (system.objects id).pending = frame :: pending)
    (hobject : (next.objects id).filter = (system.objects id).filter ∧
      (next.objects id).active = true ∧ (next.objects id).pending = pending)
    (hids : next.nextSubscriptionId = system.nextSubscriptionId)
    (hlog : next.log = system.log ++ [.entered id frame]) :
    next.Lined config id coming ∧ (Library.LossyQueue.after (next.line id)).busy = true := by
  obtain ⟨hfilter, hstill, hrest⟩ := hobject
  have hline : next.line id = system.line id ++ [.entered frame] :=
    line_concat hfilter hlog (if_pos rfl)
  have hafter := Library.LossyQueue.after_concat (system.line id) (Entry.entered frame)
  rw [← hline] at hafter
  have hstage := h.stage hactive
  have hwaiting := h.waiting hactive
  rw [hpending] at hwaiting
  refine ⟨?_, congrArg _ hafter⟩
  constructor
  · rw [hline]
    exact lawful_concat.mpr ⟨h.lawful, hstage, hbusy, _, hwaiting⟩
  · rw [hafter]
    exact fun _ => hstage
  · intro _
    rw [hafter, hrest]
    change (Library.LossyQueue.after (system.line id)).waiting.tail = _
    rw [hwaiting]
    rfl
  · exact fun hnot => nomatch hstill.symm.trans hnot
  · have hbounded := h.bounded
    rw [hpending] at hbounded
    rw [hrest]
    exact Nat.le_of_succ_le hbounded
  · rw [hids]
    exact fun hfresh => absurd hcreated (Nat.not_lt.mpr hfresh)

/-- The head of the loop, with nothing else under way. -/
theorem drain_sound {phase : Phase} {first : Bool} (h : system.Lined config id coming)
    (hbusy : (Library.LossyQueue.after (system.line id)).busy = false)
    (hdrains : (system.objects id).drains = [phase])
    (hfuture : (system.objects id).drainFuture = !first) :
    (system.drain ⟨id, 0, first⟩).Sound config id coming := by
  have hcreated : id < system.nextSubscriptionId := h.created (by simp [hdrains])
  have hended : ∀ next : System α, next.turn = none → next.log = system.log →
      next.nextSubscriptionId = system.nextSubscriptionId →
      next.objects id = { system.objects id with
        drains := (system.objects id).drains.set 0 .ended
        drainFuture := (system.objects id).drainFuture || first } →
      next.Sound config id coming := by
    intro next hturn hlog hids hobject
    have hfilter : (next.objects id).filter = (system.objects id).filter := by rw [hobject]
    refine ⟨h.of_eq hcreated hfilter (by rw [hobject]) (by rw [hobject]) hids hlog, ?_⟩
    rw [line_same hfilter hlog, hbusy, hobject, hturn]
    refine .ended (fun _ ht => nomatch ht) ?_ ?_
    · rw [hdrains]
      rfl
    · rw [hfuture]
      cases first <;> rfl
  have hentered : ∀ next : System α, ∀ frame pending, (system.objects id).active = true →
      (system.objects id).pending = frame :: pending → next.turn = some ⟨id, 0, first⟩ →
      next.log = system.log ++ [.entered id frame] →
      next.nextSubscriptionId = system.nextSubscriptionId →
      next.objects id = { system.objects id with
        pending := pending
        drains := (system.objects id).drains.set 0 .handling } →
      next.Sound config id coming := by
    intro next frame pending hactive hpending hturn hlog hids hobject
    obtain ⟨hlined, hserved⟩ := h.entered hbusy hcreated hactive hpending
      (by rw [hobject]; exact ⟨rfl, hactive, rfl⟩) hids hlog
    refine ⟨hlined, ?_⟩
    rw [hserved, hobject]
    refine .handling hturn ?_ hfuture
    rw [hdrains]
    rfl
  unfold drain
  dsimp only
  split
  · rename_i frame pending hactive hpending
    exact hentered _ frame pending hactive hpending rfl rfl rfl (Function.update_self ..)
  · exact hended _ rfl rfl rfl (Function.update_self ..)

theorem startDrain_sound (h : system.Lined config id coming)
    (hcreated : id < system.nextSubscriptionId)
    (hbusy : (Library.LossyQueue.after (system.line id)).busy = false)
    (hdrains : (system.objects id).drains = [])
    (hfuture : (system.objects id).drainFuture = false) :
    (system.startDrain id).Sound config id coming := by
  have hstarted : ∀ next : System α, next.objects id = { system.objects id with
        drains := (system.objects id).drains ++ [.handling] } →
      next.nextSubscriptionId = system.nextSubscriptionId → next.log = system.log →
      (next.drain ⟨id, (system.objects id).drains.length, true⟩).Sound config id coming := by
    intro next hobject hids hlog
    have hfilter : (next.objects id).filter = (system.objects id).filter := by rw [hobject]
    rw [hdrains]
    have hone : (next.objects id).drains = [.handling] := by
      rw [hobject, hdrains]
      rfl
    refine drain_sound (h.of_eq hcreated hfilter (by rw [hobject]) (by rw [hobject]) hids hlog)
      ?_ hone ?_
    · rw [line_same hfilter hlog]
      exact hbusy
    · rw [hobject]
      exact hfuture
  unfold startDrain
  dsimp only
  rw [if_neg (by rw [hfuture]; decide)]
  exact hstarted _ (Function.update_self ..) rfl rfl

/-- There is room for a frame. -/
theorem Lined.accepted {frame : α} (h : system.Lined config id [frame])
    (hcreated : id < system.nextSubscriptionId) (hactive : (system.objects id).active = true)
    (hroom : (system.objects id).pending.length < config.maxPendingPerSubscription)
    (hfilter : (next.objects id).filter = (system.objects id).filter)
    (hstill : (next.objects id).active = true)
    (hpending : (next.objects id).pending = (system.objects id).pending ++ [frame])
    (hids : next.nextSubscriptionId = system.nextSubscriptionId) (hlog : next.log = system.log) :
    next.Lined config id [] := by
  have hline := line_same hfilter hlog
  constructor
  · rw [hline]
    exact h.lawful
  · rw [hline]
    exact fun _ => h.stage hactive
  · intro _
    rw [hline, h.waiting hactive, hpending, List.append_nil]
  · exact fun hnot => nomatch hstill.symm.trans hnot
  · rw [hpending, List.length_append]
    exact hroom
  · rw [hids]
    exact fun hfresh => absurd hcreated (Nat.not_lt.mpr hfresh)

/-- The oldest makes room for a frame. -/
theorem Lined.rejected {frame oldest : α} {pending : List α} (h : system.Lined config id [frame])
    (hcreated : id < system.nextSubscriptionId) (hactive : (system.objects id).active = true)
    (hfull : (system.objects id).pending = oldest :: pending)
    (hroom : ¬ (system.objects id).pending.length < config.maxPendingPerSubscription)
    (hfilter : (next.objects id).filter = (system.objects id).filter)
    (hstill : (next.objects id).active = true)
    (hpending : (next.objects id).pending = pending ++ [frame])
    (hids : next.nextSubscriptionId = system.nextSubscriptionId)
    (hlog : next.log = system.log ++ [.dropped id oldest]) :
    next.Lined config id [] ∧ (Library.LossyQueue.after (next.line id)).busy =
      (Library.LossyQueue.after (system.line id)).busy := by
  have hline : next.line id = system.line id ++ [.dropped oldest] :=
    line_concat hfilter hlog (if_pos rfl)
  have hafter := Library.LossyQueue.after_concat (system.line id) (Entry.dropped oldest)
  rw [← hline] at hafter
  have hstage := h.stage hactive
  have hwaiting := h.waiting hactive
  rw [hfull] at hwaiting hroom
  have hbounded := h.bounded
  rw [hfull] at hbounded
  refine ⟨?_, by rw [hafter]; rfl⟩
  constructor
  · rw [hline]
    refine lawful_concat.mpr ⟨h.lawful, hstage, pending ++ [frame], hwaiting, ?_⟩
    rw [List.length_append]
    exact Nat.not_lt.mp hroom
  · rw [hafter]
    exact fun _ => hstage
  · intro _
    rw [hafter, hpending, List.append_nil]
    change (Library.LossyQueue.after (system.line id)).waiting.tail = _
    rw [hwaiting]
    rfl
  · exact fun hnot => nomatch hstill.symm.trans hnot
  · rw [hpending, List.length_append]
    exact hbounded
  · rw [hids]
    exact fun hfresh => absurd hcreated (Nat.not_lt.mpr hfresh)

/-- A frame is taken, and the oldest makes room for it where there is none. -/
theorem enqueue_sound {frame : α} (h : system.Sound config id [frame])
    (hactive : (system.objects id).active = true) (hturn : system.turn = none) :
    (system.enqueue config id frame).Sound config id [] := by
  obtain ⟨hlined, hstanding⟩ := h
  have hcreated : id < system.nextSubscriptionId := by
    by_contra hfresh
    rw [(hlined.fresh (Nat.le_of_not_lt hfresh)).1] at hactive
    exact nomatch hactive
  have hstarted : ∀ next : System α, next.Lined config id [] → next.turn = none →
      next.nextSubscriptionId = system.nextSubscriptionId →
      (Library.LossyQueue.after (next.line id)).busy =
        (Library.LossyQueue.after (system.line id)).busy →
      (next.objects id).drains = (system.objects id).drains →
      (next.objects id).drainFuture = (system.objects id).drainFuture →
      (next.startDrain id).Sound config id [] := by
    intro next hnext hnone hids hbusy hdrains hfuture
    have hkept (hkeeps : (system.objects id).drainFuture = true) : next.startDrain id = next :=
      if_pos (hfuture.trans hkeeps)
    generalize (Library.LossyQueue.after (system.line id)).busy = busy at hstanding hbusy
    cases hstanding with
    | idle _ hempty hidle =>
      exact startDrain_sound hnext (hids ▸ hcreated) hbusy (hdrains.trans hempty)
        (hfuture.trans hidle)
    | handling heq => exact nomatch hturn.symm.trans heq
    | reporting heq => exact nomatch hturn.symm.trans heq
    | awaiting _ hone hkeeps =>
      rw [hkept hkeeps]
      refine ⟨hnext, ?_⟩
      rw [hbusy]
      exact .awaiting (fun _ ht => nomatch hnone.symm.trans ht) (hdrains.trans hone)
        (hfuture.trans hkeeps)
    | ended _ hone hkeeps =>
      rw [hkept hkeeps]
      refine ⟨hnext, ?_⟩
      rw [hbusy]
      exact .ended (fun _ ht => nomatch hnone.symm.trans ht) (hdrains.trans hone)
        (hfuture.trans hkeeps)
  unfold enqueue
  dsimp only
  rw [if_neg (by rw [hactive]; decide)]
  split
  · rename_i hroom
    have hkept : ∀ next : System α, next.objects id = { system.objects id with
          pending := (system.objects id).pending ++ [frame] } → next.turn = none →
        next.nextSubscriptionId = system.nextSubscriptionId → next.log = system.log →
        (next.startDrain id).Sound config id [] := by
      intro next hobject hnone hids hlog
      have hfilter : (next.objects id).filter = (system.objects id).filter := by rw [hobject]
      refine hstarted next (hlined.accepted hcreated hactive hroom hfilter
        (by rw [hobject]; exact hactive) (by rw [hobject]) hids hlog) hnone hids ?_ ?_ ?_
      · rw [line_same hfilter hlog]
      · rw [hobject]
      · rw [hobject]
    exact hkept _ (Function.update_self ..) hturn rfl rfl
  · rename_i hroom
    obtain ⟨oldest, pending, hfull⟩ : ∃ oldest pending,
        (system.objects id).pending = oldest :: pending := by
      cases hempty : (system.objects id).pending with
      | nil =>
        rw [hempty] at hroom
        exact absurd config.positive hroom
      | cons oldest pending => exact ⟨oldest, pending, rfl⟩
    have hkept : ∀ next : System α, next.objects id = { system.objects id with
          pending := (system.objects id).pending.tail ++ [frame] } → next.turn = none →
        next.nextSubscriptionId = system.nextSubscriptionId →
        next.log = system.log ++ (system.objects id).pending.head?.toList.map (.dropped id) →
        (next.startDrain id).Sound config id [] := by
      intro next hobject hnone hids hlog
      rw [hfull] at hobject hlog
      obtain ⟨hnext, hbusy⟩ := hlined.rejected hcreated hactive hfull hroom
        (by rw [hobject]) (by rw [hobject]; exact hactive) (by rw [hobject]; rfl) hids hlog
      refine hstarted next hnext hnone hids hbusy ?_ ?_
      · rw [hobject]
      · rw [hobject]
    exact hkept _ (Function.update_self ..) hturn rfl rfl

/-- The handler is back with a future. -/
theorem returned_sound {run : ℕ} {first : Bool} (h : system.Sound config id coming)
    (hturn : system.turn = some ⟨id, run, first⟩) :
    (system.returned ⟨id, run, first⟩).Sound config id coming := by
  obtain ⟨hlined, hstanding⟩ := h
  unfold returned
  dsimp only
  split
  · rename_i hhandling
    have hcreated := hlined.created fun hnone => by
      rw [hnone] at hhandling
      exact nomatch hhandling
    have hkept : ∀ next : System α, next.objects id = { system.objects id with
          drains := (system.objects id).drains.set run .awaiting
          drainFuture := (system.objects id).drainFuture || first } →
        next.turn = none → next.nextSubscriptionId = system.nextSubscriptionId →
        next.log = system.log → next.Sound config id coming := by
      intro next hobject hnone hids hlog
      have hfilter : (next.objects id).filter = (system.objects id).filter := by
        rw [hobject]
      refine ⟨hlined.of_eq hcreated hfilter (by rw [hobject]) (by rw [hobject]) hids hlog, ?_⟩
      rw [line_same hfilter hlog, hnone]
      generalize (Library.LossyQueue.after (system.line id)).busy = busy at hstanding
      cases hstanding with
      | handling heq hdrains hfuture =>
        cases hturn.symm.trans heq
        refine .awaiting (fun _ ht => nomatch ht) ?_ ?_
        · rw [hobject]
          exact congrArg (·.set 0 .awaiting) hdrains
        · rw [hobject]
          change ((system.objects id).drainFuture || first) = true
          rw [hfuture]
          cases first <;> rfl
      | idle hnot => exact absurd rfl (hnot _ hturn)
      | reporting heq hdrains =>
        rw [hdrains] at hhandling
        cases hturn.symm.trans heq
        exact nomatch hhandling
      | awaiting hnot => exact absurd rfl (hnot _ hturn)
      | ended hnot => exact absurd rfl (hnot _ hturn)
    exact hkept _ (Function.update_self ..) rfl rfl rfl
  · exact ⟨hlined, hstanding⟩

theorem threw_sound {run : ℕ} {first : Bool} (h : system.Sound config id coming)
    (hturn : system.turn = some ⟨id, run, first⟩) :
    (system.threw ⟨id, run, first⟩).Sound config id coming := by
  obtain ⟨hlined, hstanding⟩ := h
  unfold threw
  dsimp only
  split
  · rename_i hhandling
    have hcreated := hlined.created fun hnone => by
      rw [hnone] at hhandling
      exact nomatch hhandling
    have hkept : ∀ next : System α, next.objects id = { system.objects id with
          drains := (system.objects id).drains.set run .reporting } →
        next.turn = system.turn → next.nextSubscriptionId = system.nextSubscriptionId →
        next.log = system.log ++ [.completed id true] →
        next.Sound config id coming := by
      intro next hobject hsame hids hlog
      generalize hbusy : (Library.LossyQueue.after (system.line id)).busy = busy at hstanding
      cases hstanding with
      | handling heq hdrains hfuture =>
        cases hturn.symm.trans heq
        obtain ⟨hnext, hidle⟩ := hlined.completed hbusy hcreated (by rw [hobject])
          (by rw [hobject]) (by rw [hobject]) hids hlog
        refine ⟨hnext, ?_⟩
        rw [hidle]
        refine .reporting (hsame.trans heq) ?_ ?_
        · rw [hobject]
          exact congrArg (·.set 0 .reporting) hdrains
        · rw [hobject]
          exact hfuture
      | idle hnot => exact absurd rfl (hnot _ hturn)
      | reporting heq hdrains =>
        rw [hdrains] at hhandling
        cases hturn.symm.trans heq
        exact nomatch hhandling
      | awaiting hnot => exact absurd rfl (hnot _ hturn)
      | ended hnot => exact absurd rfl (hnot _ hturn)
    exact hkept _ (Function.update_self ..) rfl rfl rfl
  · exact ⟨hlined, hstanding⟩

theorem reported_sound {run : ℕ} {first : Bool} (h : system.Sound config id coming)
    (hturn : system.turn = some ⟨id, run, first⟩) :
    (system.reported ⟨id, run, first⟩).Sound config id coming := by
  obtain ⟨hlined, hstanding⟩ := h
  unfold reported
  split
  · rename_i hreporting
    generalize hbusy : (Library.LossyQueue.after (system.line id)).busy = busy at hstanding
    cases hstanding with
    | reporting heq hdrains hfuture =>
      cases hturn.symm.trans heq
      exact drain_sound hlined hbusy hdrains hfuture
    | idle hnot => exact absurd rfl (hnot _ hturn)
    | handling heq hdrains =>
      rw [hdrains] at hreporting
      cases hturn.symm.trans heq
      exact nomatch hreporting
    | awaiting hnot => exact absurd rfl (hnot _ hturn)
    | ended hnot => exact absurd rfl (hnot _ hturn)
  · exact ⟨hlined, hstanding⟩

/-- The future of a handler is complete. -/
theorem settled_sound (run : ℕ) (failed : Bool) (h : system.Sound config id coming)
    (hturn : system.turn = none) : (system.settled id run failed).Sound config id coming := by
  obtain ⟨hlined, hstanding⟩ := h
  unfold settled
  dsimp only
  split
  · rename_i hawaiting
    have hcreated := hlined.created fun hnone => by
      rw [hnone] at hawaiting
      exact nomatch hawaiting
    generalize hbusy : (Library.LossyQueue.after (system.line id)).busy = busy at hstanding
    obtain ⟨hdrains, hfuture, rfl⟩ :
        (system.objects id).drains = [.awaiting] ∧ (system.objects id).drainFuture = true ∧
          busy = true := by
      cases hstanding with
      | awaiting _ hdrains hfuture => exact ⟨hdrains, hfuture, rfl⟩
      | idle _ hdrains =>
        rw [hdrains] at hawaiting
        exact nomatch hawaiting
      | handling heq => exact nomatch hturn.symm.trans heq
      | reporting heq => exact nomatch hturn.symm.trans heq
      | ended _ hdrains =>
        rw [hdrains] at hawaiting
        cases run with
        | zero => exact nomatch hawaiting
        | succ run => exact nomatch hawaiting
    have hrun : run = 0 := by
      rw [hdrains] at hawaiting
      cases run with
      | zero => rfl
      | succ run => exact nomatch hawaiting
    subst hrun
    cases failed with
    | true =>
      have hkept : ∀ next : System α, next.objects id = { system.objects id with
            drains := (system.objects id).drains.set 0 .reporting } →
          next.turn = some ⟨id, 0, false⟩ →
          next.nextSubscriptionId = system.nextSubscriptionId →
          next.log = system.log ++ [.completed id true] → next.Sound config id coming := by
        intro next hobject hnext hids hlog
        obtain ⟨hdone, hidle⟩ := hlined.completed hbusy hcreated (by rw [hobject])
          (by rw [hobject]) (by rw [hobject]) hids hlog
        refine ⟨hdone, ?_⟩
        rw [hidle]
        refine .reporting hnext ?_ ?_
        · rw [hobject]
          exact congrArg (·.set 0 .reporting) hdrains
        · rw [hobject]
          exact hfuture
      exact hkept _ (Function.update_self ..) rfl rfl rfl
    | false =>
      obtain ⟨hdone, hidle⟩ : (system.note [.completed id false]).Lined config id coming ∧ _ :=
        hlined.completed hbusy hcreated rfl rfl rfl rfl rfl
      exact drain_sound hdone hidle hdrains hfuture
  · exact ⟨hlined, hstanding⟩

/-- The end of a run is seen, and a new run begins if frames have come since. -/
theorem finished_sound (run : ℕ) (h : system.Sound config id coming)
    (hturn : system.turn = none) : (system.finished id run).Sound config id coming := by
  obtain ⟨hlined, hstanding⟩ := h
  unfold finished
  dsimp only
  split
  · rename_i hended
    have hcreated := hlined.created fun hnone => by
      rw [hnone] at hended
      exact nomatch hended
    generalize hbusy : (Library.LossyQueue.after (system.line id)).busy = busy at hstanding
    obtain ⟨hdrains, rfl⟩ : (system.objects id).drains = [.ended] ∧ busy = false := by
      cases hstanding with
      | ended _ hdrains => exact ⟨hdrains, rfl⟩
      | idle _ hdrains =>
        rw [hdrains] at hended
        exact nomatch hended
      | handling heq => exact nomatch hturn.symm.trans heq
      | reporting heq => exact nomatch hturn.symm.trans heq
      | awaiting _ hdrains =>
        rw [hdrains] at hended
        cases run with
        | zero => exact nomatch hended
        | succ run => exact nomatch hended
    have hrun : run = 0 := by
      rw [hdrains] at hended
      cases run with
      | zero => rfl
      | succ run => exact nomatch hended
    subst hrun
    have hkept : ∀ next : System α, next.objects id = { system.objects id with
          drains := (system.objects id).drains.eraseIdx 0, drainFuture := false } →
        next.turn = none → next.nextSubscriptionId = system.nextSubscriptionId →
        next.log = system.log →
        next.Lined config id coming ∧ (Library.LossyQueue.after (next.line id)).busy = false ∧
          (next.objects id).drains = [] ∧ (next.objects id).drainFuture = false := by
      intro next hobject _ hids hlog
      have hfilter : (next.objects id).filter = (system.objects id).filter := by rw [hobject]
      refine ⟨hlined.of_eq hcreated hfilter (by rw [hobject]) (by rw [hobject]) hids hlog, ?_⟩
      rw [line_same hfilter hlog, hobject]
      exact ⟨hbusy, congrArg (·.eraseIdx 0) hdrains, rfl⟩
    obtain ⟨hnext, hidle, hnone, hfuture⟩ := hkept (system.put id { system.objects id with
        drains := (system.objects id).drains.eraseIdx 0
        drainFuture := false }) (Function.update_self ..) hturn rfl rfl
    split
    · exact startDrain_sound hnext hcreated hidle hnone hfuture
    · rename_i hrest
      refine ⟨hnext, ?_⟩
      rw [hidle]
      refine .idle (fun _ ht => nomatch hturn.symm.trans ht) hnone hfuture ?_
      refine (congrArg Subscription.pending (Function.update_self id _ system.objects)).trans ?_
      change (system.objects id).pending = []
      cases hactive : (system.objects id).active with
      | false => exact hlined.quiet hactive
      | true =>
        rw [hactive] at hrest
        simpa using hrest
  · exact ⟨hlined, hstanding⟩

/-- A cancellation closes the line. -/
theorem cancel_sound (h : system.Sound config id coming) :
    (system.cancel id).Sound config id coming := by
  obtain ⟨hlined, hstanding⟩ := h
  unfold cancel
  dsimp only
  split
  · exact ⟨hlined, hstanding⟩
  rename_i hnot
  have hactive : (system.objects id).active = true := by simpa using hnot
  have hcreated : id < system.nextSubscriptionId := by
    by_contra hfresh
    rw [(hlined.fresh (Nat.le_of_not_lt hfresh)).1] at hactive
    exact nomatch hactive
  have hstage := hlined.stage hactive
  have hkept : ∀ next : System α, next.objects id = { system.objects id with
        active := false, pending := [] } → next.turn = system.turn →
      next.nextSubscriptionId = system.nextSubscriptionId →
      next.log = system.log ++ [.cancelled id] → next.Sound config id coming := by
    intro next hobject hsame hids hlog
    have hline : next.line id = system.line id ++ [.closed] :=
      line_concat (by rw [hobject]) hlog (if_pos rfl)
    have hafter := Library.LossyQueue.after_concat (system.line id) Entry.closed
    rw [← hline] at hafter
    constructor
    · constructor
      · rw [hline]
        exact lawful_concat.mpr ⟨hlined.lawful, hstage⟩
      · rw [hobject]
        exact nofun
      · rw [hobject]
        exact nofun
      · rw [hobject]
        exact fun _ => rfl
      · rw [hobject]
        exact Nat.zero_le _
      · rw [hids]
        exact fun hfresh => absurd hcreated (Nat.not_lt.mpr hfresh)
    · rw [hafter, hobject, hsame]
      change Standing _ _ _ (Library.LossyQueue.after (system.line id)).busy
      generalize (Library.LossyQueue.after (system.line id)).busy = busy at hstanding
      cases hstanding with
      | idle hturn hdrains hfuture _ => exact .idle hturn hdrains hfuture rfl
      | handling hturn hdrains hfuture => exact .handling hturn hdrains hfuture
      | reporting hturn hdrains hfuture => exact .reporting hturn hdrains hfuture
      | awaiting hturn hdrains hfuture => exact .awaiting hturn hdrains hfuture
      | ended hturn hdrains hfuture => exact .ended hturn hdrains hfuture
  exact hkept _ (Function.update_self ..) rfl rfl rfl

/-- A subscription opens its line. -/
theorem subscribe_sound {filter : α → Bool}
    (h : system.Sound config system.nextSubscriptionId coming)
    (hturn : ∀ t ∈ system.turn, t.id ≠ system.nextSubscriptionId) :
    (system.subscribe filter).Sound config system.nextSubscriptionId [] := by
  obtain ⟨-, hstrange⟩ := h.lined.fresh (Nat.le_refl _)
  obtain ⟨hlawful, hunopened⟩ := about_strange config filter hstrange
  have hkept : ∀ next : System α,
      next.objects system.nextSubscriptionId = { filter, active := true } →
      next.turn = system.turn → next.nextSubscriptionId = system.nextSubscriptionId + 1 →
      next.log = system.log ++ [.subscribed system.nextSubscriptionId] →
      next.Sound config system.nextSubscriptionId [] := by
    intro next hobject hsame hids hlog
    have hline : next.line system.nextSubscriptionId =
        about system.nextSubscriptionId filter system.log ++ [.opened] := by
      rw [line, hobject, hlog, about_append]
      exact congrArg _ (List.filterMap_cons_some (if_pos rfl))
    have hafter := Library.LossyQueue.after_concat
      (about system.nextSubscriptionId filter system.log) Entry.opened
    rw [← hline, hunopened] at hafter
    constructor
    · constructor
      · rw [hline]
        exact lawful_concat.mpr ⟨hlawful, congrArg _ hunopened⟩
      · rw [hafter]
        exact fun _ => rfl
      · rw [hafter, hobject]
        exact fun _ => rfl
      · rw [hobject]
        exact nofun
      · rw [hobject]
        exact Nat.zero_le _
      · rw [hids]
        exact fun hfresh => absurd hfresh (Nat.not_succ_le_self _)
    · rw [hafter, hobject, hsame]
      exact .idle hturn rfl rfl rfl
  exact hkept _ (Function.update_self ..) rfl rfl rfl

/-- A frame comes, and is offered to those whose filter it matches. -/
theorem came_sound {frame : α} (h : system.Sound config id [])
    (hobjects : next.objects = system.objects) (hturn : next.turn = system.turn)
    (hids : next.nextSubscriptionId = system.nextSubscriptionId)
    (hlog : next.log = system.log ++ [.came frame]) :
    next.Sound config id (if (system.objects id).filter frame then [frame] else []) := by
  obtain ⟨hlined, hstanding⟩ := h
  by_cases hmatches : (system.objects id).filter frame = true
  · have hline : next.line id = system.line id ++ [.came frame] :=
      line_concat (by rw [hobjects]) hlog (if_pos hmatches)
    have hafter := Library.LossyQueue.after_concat (system.line id) (Entry.came frame)
    rw [← hline] at hafter
    rw [if_pos hmatches]
    have hstill : (Library.LossyQueue.after (next.line id)).stage =
          (Library.LossyQueue.after (system.line id)).stage ∧
        (Library.LossyQueue.after (next.line id)).busy =
          (Library.LossyQueue.after (system.line id)).busy := by
      rw [hafter, Library.LossyQueue.Queue.step]
      split
      · exact ⟨rfl, rfl⟩
      · exact ⟨rfl, rfl⟩
    constructor
    · constructor
      · rw [hline]
        exact lawful_concat.mpr ⟨hlined.lawful, trivial⟩
      · rw [hstill.1, hobjects]
        exact hlined.stage
      · rw [hobjects]
        intro hactive
        rw [hafter, Library.LossyQueue.Queue.step, if_pos (hlined.stage hactive),
          hlined.waiting hactive, List.append_nil]
      · rw [hobjects]
        exact hlined.quiet
      · rw [hobjects]
        exact hlined.bounded
      · rw [hobjects, hids, hlog]
        intro hfresh
        obtain ⟨hnew, hstrange⟩ := hlined.fresh hfresh
        refine ⟨hnew, fun act hmem => ?_⟩
        rcases List.mem_append.mp hmem with hmem | hmem
        · exact hstrange act hmem
        · rw [List.mem_singleton.mp hmem]
          rintro ⟨⟩
    · rw [hstill.2, hobjects, hturn]
      exact hstanding
  · have hline : next.line id = system.line id := by
      rw [line, line, hobjects, hlog, about_append]
      have hnone : about id (system.objects id).filter [Act.came frame] = [] :=
        List.filterMap_cons_none (if_neg hmatches)
      rw [hnone, List.append_nil]
    rw [if_neg hmatches]
    constructor
    · constructor
      · rw [hline]
        exact hlined.lawful
      · rw [hline, hobjects]
        exact hlined.stage
      · rw [hline, hobjects]
        exact hlined.waiting
      · rw [hobjects]
        exact hlined.quiet
      · rw [hobjects]
        exact hlined.bounded
      · rw [hobjects, hids, hlog]
        intro hfresh
        obtain ⟨hnew, hstrange⟩ := hlined.fresh hfresh
        refine ⟨hnew, fun act hmem => ?_⟩
        rcases List.mem_append.mp hmem with hmem | hmem
        · exact hstrange act hmem
        · rw [List.mem_singleton.mp hmem]
          rintro ⟨⟩
    · rw [hline, hobjects, hturn]
      exact hstanding

/-! ## Nobody else is touched -/

theorem only_put (subscription : Subscription α) (acts : List (Act α))
    (hacts : ∀ act ∈ acts, act.id? = some id)
    (hobjects : next.objects = Function.update system.objects id subscription)
    (hlog : next.log = system.log ++ acts)
    (hsame : subscription.filter = (system.objects id).filter ∧
      subscription.active = (system.objects id).active)
    (hwire : next.nextSubscriptionId = system.nextSubscriptionId ∧
      next.subscriptions = system.subscriptions ∧ next.dispatch = system.dispatch ∧
      next.batches = system.batches ∧ next.acks = system.acks ∧
      next.unacknowledgedBatchId = system.unacknowledgedBatchId)
    (hturn : next.turn = system.turn ∨
      (∀ t ∈ system.turn, t.id = id) ∧ ∀ t ∈ next.turn, t.id = id) : Only id system next where
  objects other hne := by rw [hobjects, Function.update_of_ne hne]
  filter _ := by
    rw [hobjects, Function.update_self]
    exact hsame.1
  registered h := by
    refine ⟨by rw [hwire.2.1]; exact h.nodup, fun other => ?_⟩
    rw [hwire.2.1, h.active other, hobjects]
    by_cases heq : other = id
    · rw [heq, Function.update_self, hsame.2]
    · rw [Function.update_of_ne heq]
  wire := hwire.2.2
  log := ⟨acts, hlog, hacts⟩
  turn := hturn
  ids := Nat.le_of_eq hwire.1.symm

theorem Only.refl : Only id system system where
  objects _ _ := rfl
  filter _ := rfl
  registered h := h
  wire := ⟨rfl, rfl, rfl, rfl⟩
  log := ⟨[], (List.append_nil _).symm, fun _ h => nomatch h⟩
  turn := Or.inl rfl
  ids := Nat.le_refl _

theorem Only.trans {last : System α} (h : Only id system next) (hnext : Only id next last) :
    Only id system last where
  objects other hne := (hnext.objects other hne).trans (h.objects other hne)
  filter hid := (hnext.filter (Nat.lt_of_lt_of_le hid h.ids)).trans (h.filter hid)
  registered hsystem := hnext.registered (h.registered hsystem)
  wire := by
    obtain ⟨hdispatch, hbatches, hacks, hunacknowledged⟩ := h.wire
    rw [← hdispatch, ← hbatches, ← hacks, ← hunacknowledged]
    exact hnext.wire
  log := by
    obtain ⟨acts, hlog, hacts⟩ := h.log
    obtain ⟨more, hmore, hothers⟩ := hnext.log
    refine ⟨acts ++ more, by rw [hmore, hlog, List.append_assoc], fun act hmem => ?_⟩
    rcases List.mem_append.mp hmem with hmem | hmem
    · exact hacts act hmem
    · exact hothers act hmem
  turn := by
    rcases h.turn with hsame | ⟨hbefore, hafter⟩
    · rw [← hsame]
      exact hnext.turn
    · rcases hnext.turn with heq | ⟨-, hlast⟩
      · exact Or.inr ⟨hbefore, heq ▸ hafter⟩
      · exact Or.inr ⟨hbefore, hlast⟩
  ids := Nat.le_trans h.ids hnext.ids

variable {run : ℕ} {first : Bool}

theorem only_drain (hturn : ∀ t ∈ system.turn, t.id = id) :
    Only id system (system.drain ⟨id, run, first⟩) := by
  unfold drain
  dsimp only
  split
  · refine only_put _ [_] (fun act hmem => ?_) rfl rfl ⟨rfl, rfl⟩
      ⟨rfl, rfl, rfl, rfl, rfl, rfl⟩ (Or.inr ⟨hturn, fun t ht => ?_⟩)
    · rw [List.mem_singleton.mp hmem]
      rfl
    · cases ht
      rfl
  · exact only_put _ [] (fun _ h => nomatch h) rfl (List.append_nil _).symm ⟨rfl, rfl⟩
      ⟨rfl, rfl, rfl, rfl, rfl, rfl⟩ (Or.inr ⟨hturn, fun _ ht => nomatch ht⟩)

theorem only_startDrain (hturn : ∀ t ∈ system.turn, t.id = id) :
    Only id system (system.startDrain id) := by
  unfold startDrain
  dsimp only
  split
  · exact Only.refl
  · refine Only.trans ?_ (only_drain hturn)
    exact only_put _ [] (fun _ h => nomatch h) rfl (List.append_nil _).symm ⟨rfl, rfl⟩
      ⟨rfl, rfl, rfl, rfl, rfl, rfl⟩ (Or.inl rfl)

theorem only_enqueue (frame : α) (hturn : ∀ t ∈ system.turn, t.id = id) :
    Only id system (system.enqueue config id frame) := by
  unfold enqueue
  dsimp only
  split
  · exact Only.refl
  split
  · refine Only.trans ?_ (only_startDrain hturn)
    exact only_put _ [] (fun _ h => nomatch h) rfl (List.append_nil _).symm ⟨rfl, rfl⟩
      ⟨rfl, rfl, rfl, rfl, rfl, rfl⟩ (Or.inl rfl)
  · refine Only.trans ?_ (only_startDrain hturn)
    refine only_put _ _ (fun act hmem => ?_) rfl rfl ⟨rfl, rfl⟩
      ⟨rfl, rfl, rfl, rfl, rfl, rfl⟩ (Or.inl rfl)
    obtain ⟨frame, -, rfl⟩ := List.mem_map.mp hmem
    rfl

theorem only_cancel : Only id system (system.cancel id) := by
  unfold cancel
  dsimp only
  split
  · exact Only.refl
  constructor
  · exact fun other hne => Function.update_of_ne hne ..
  · intro _
    change (Function.update system.objects id _ id).filter = (system.objects id).filter
    rw [Function.update_self]
  · intro h
    refine ⟨h.nodup.filter _, fun other => ?_⟩
    change other ∈ system.subscriptions.filter (· ≠ id) ↔
      (Function.update system.objects id _ other).active = true
    rw [List.mem_filter, h.active other]
    by_cases heq : other = id
    · rw [heq, Function.update_self]
      simp
    · rw [Function.update_of_ne heq]
      simp [heq]
  · exact ⟨rfl, rfl, rfl, rfl⟩
  · refine ⟨_, rfl, fun act hmem => ?_⟩
    rw [List.mem_singleton.mp hmem]
    rfl
  · exact Or.inl rfl
  · exact Nat.le_refl _

theorem only_returned (hturn : ∀ t ∈ system.turn, t.id = id) :
    Only id system (system.returned ⟨id, run, first⟩) := by
  unfold returned
  dsimp only
  split
  · exact only_put _ [] (fun _ h => nomatch h) rfl (List.append_nil _).symm ⟨rfl, rfl⟩
      ⟨rfl, rfl, rfl, rfl, rfl, rfl⟩ (Or.inr ⟨hturn, fun _ ht => nomatch ht⟩)
  · exact Only.refl

theorem only_threw : Only id system (system.threw ⟨id, run, first⟩) := by
  unfold threw
  dsimp only
  split
  · refine only_put _ [_] (fun act hmem => ?_) rfl rfl ⟨rfl, rfl⟩
      ⟨rfl, rfl, rfl, rfl, rfl, rfl⟩ (Or.inl rfl)
    rw [List.mem_singleton.mp hmem]
    rfl
  · exact Only.refl

theorem only_reported (hturn : ∀ t ∈ system.turn, t.id = id) :
    Only id system (system.reported ⟨id, run, first⟩) := by
  unfold reported
  split
  · exact only_drain hturn
  · exact Only.refl

theorem only_settled (failed : Bool) (hturn : system.turn = none) :
    Only id system (system.settled id run failed) := by
  have hnone : ∀ t ∈ system.turn, t.id = id := fun _ ht => nomatch hturn.symm.trans ht
  have hnoted : Only id system (system.note [.completed id failed]) := {
    objects := fun _ _ => rfl
    filter := fun _ => rfl
    registered := fun h => ⟨h.nodup, h.active⟩
    wire := ⟨rfl, rfl, rfl, rfl⟩
    log := ⟨_, rfl, fun act hmem => by rw [List.mem_singleton.mp hmem]; rfl⟩
    turn := Or.inl rfl
    ids := Nat.le_refl _ }
  unfold settled
  dsimp only
  split
  · split
    · refine hnoted.trans (only_put _ [] (fun _ h => nomatch h) rfl (List.append_nil _).symm
        ⟨rfl, rfl⟩
        ⟨rfl, rfl, rfl, rfl, rfl, rfl⟩ (Or.inr ⟨hnone, fun t ht => ?_⟩))
      cases ht
      rfl
    · exact hnoted.trans (only_drain hnone)
  · exact Only.refl

theorem only_finished (hturn : system.turn = none) : Only id system (system.finished id run) := by
  have hnone : ∀ t ∈ system.turn, t.id = id := fun _ ht => nomatch hturn.symm.trans ht
  unfold finished
  dsimp only
  split
  · have hput : Only id system (system.put id { system.objects id with
        drains := (system.objects id).drains.eraseIdx run
        drainFuture := false }) :=
      only_put _ [] (fun _ h => nomatch h) rfl (List.append_nil _).symm ⟨rfl, rfl⟩
      ⟨rfl, rfl, rfl, rfl, rfl, rfl⟩ (Or.inl rfl)
    split
    · exact hput.trans (only_startDrain hnone)
    · exact hput
  · exact Only.refl

/-! ## Whole runs -/

/-- What has come and is still to be offered to a subscription. -/
def offered (system : System α) (id : ℕ) : List α :=
  match system.dispatch.bind Dispatch.current with
  | some (frame, targets) =>
    if id ∈ targets ∧ (system.objects id).filter frame = true then [frame] else []
  | none => []

/-- The batches that are on their way, under way, or whose acknowledgement is on its way. -/
def inFlight (system : System α) : List ℕ :=
  system.batches.map Prod.fst ++ (system.dispatch.map Dispatch.batchId).toList ++ system.acks

structure Wired (system : System α) : Prop where
  registered : system.Registered
  targets : ∀ dispatch ∈ system.dispatch, ∀ current ∈ dispatch.current, current.2.Nodup ∧
    ∀ id ∈ current.2, id < system.nextSubscriptionId
  wire : system.inFlight = system.unacknowledgedBatchId.toList
  counted : (system.log.filterMap Act.sent?).length =
    (system.log.filterMap Act.acknowledged?).length + system.inFlight.length

structure Inv (config : SocketCanConfiguration) (system : System α) : Prop where
  wired : system.Wired
  sound : ∀ id, system.Sound config id (system.offered id)

theorem counts_append (log : List (Act α)) {acts : List (Act α)} (h : ∀ act ∈ acts, act.id? = some id) :
    (log ++ acts).filterMap Act.sent? = log.filterMap Act.sent? ∧
      (log ++ acts).filterMap Act.acknowledged? = log.filterMap Act.acknowledged? := by
  have hsent : acts.filterMap Act.sent? = [] := by
    rw [List.filterMap_eq_nil_iff]
    intro act hmem
    cases act with
    | sent batchId => exact nomatch h _ hmem
    | _ => rfl
  have hacknowledged : acts.filterMap Act.acknowledged? = [] := by
    rw [List.filterMap_eq_nil_iff]
    intro act hmem
    cases act with
    | acknowledged batchId => exact nomatch h _ hmem
    | _ => rfl
  rw [List.filterMap_append, List.filterMap_append, hsent, hacknowledged, List.append_nil,
    List.append_nil]
  exact ⟨rfl, rfl⟩

theorem counted_concat (log : List (Act α)) (act : Act α) :
    ((log ++ [act]).filterMap Act.sent?).length =
        (log.filterMap Act.sent?).length + act.sent?.toList.length ∧
      ((log ++ [act]).filterMap Act.acknowledged?).length =
        (log.filterMap Act.acknowledged?).length + act.acknowledged?.toList.length := by
  rw [List.filterMap_append, List.filterMap_append, List.length_append, List.length_append]
  cases act with
  | _ => exact ⟨rfl, rfl⟩

theorem Only.inFlight (h : Only id system next) : next.inFlight = system.inFlight := by
  obtain ⟨hdispatch, hbatches, hacks, -⟩ := h.wire
  rw [System.inFlight, System.inFlight, hdispatch, hbatches, hacks]

theorem offered_fresh {bound other : ℕ} (htargets : ∀ dispatch ∈ system.dispatch,
    ∀ current ∈ dispatch.current, ∀ id ∈ current.2, id < bound) (hfresh : bound ≤ other) :
    system.offered other = [] := by
  unfold offered
  split
  · rename_i frame targets hcurrent
    obtain ⟨dispatch, hdispatch, heq⟩ := Option.bind_eq_some_iff.mp hcurrent
    exact if_neg fun hmem =>
      Nat.not_lt.mpr hfresh (htargets dispatch hdispatch _ heq other hmem.1)
  · rfl

theorem Only.offered (hwired : system.Wired) (h : Only id system next) (other : ℕ) :
    next.offered other = system.offered other := by
  have htargets : ∀ dispatch ∈ system.dispatch, ∀ current ∈ dispatch.current,
      ∀ id ∈ current.2, id < system.nextSubscriptionId :=
    fun dispatch hdispatch current hcurrent =>
      (hwired.targets dispatch hdispatch current hcurrent).2
  by_cases hgiven : other < system.nextSubscriptionId
  · have hfilter : (next.objects other).filter = (system.objects other).filter := by
      by_cases heq : other = id
      · rw [heq, h.filter (heq ▸ hgiven)]
      · rw [h.objects other heq]
    rw [System.offered, System.offered, h.wire.1, hfilter]
  · rw [offered_fresh htargets (Nat.not_lt.mp hgiven),
      offered_fresh (h.wire.1 ▸ htargets) (Nat.not_lt.mp hgiven)]

theorem Wired.only (h : system.Wired) (honly : Only id system next) : next.Wired where
  registered := honly.registered h.registered
  targets := by
    rw [honly.wire.1]
    intro dispatch hdispatch current hcurrent
    obtain ⟨hnodup, hgiven⟩ := h.targets dispatch hdispatch current hcurrent
    exact ⟨hnodup, fun other hmem => Nat.lt_of_lt_of_le (hgiven other hmem) honly.ids⟩
  wire := by
    rw [honly.inFlight, h.wire, honly.wire.2.2.2]
  counted := by
    obtain ⟨acts, hlog, hacts⟩ := honly.log
    obtain ⟨hsent, hacknowledged⟩ := counts_append system.log hacts
    rw [hlog, hsent, hacknowledged, honly.inFlight]
    exact h.counted

/-- A step of one subscription, of which nothing else has to be known. -/
theorem inv_of_only (hwired : system.Wired) (honly : Only id system next)
    (hothers : ∀ other, other ≠ id → system.Sound config other (system.offered other))
    (hsound : next.Sound config id (system.offered id)) : next.Inv config where
  wired := hwired.only honly
  sound other := by
    rw [honly.offered hwired]
    by_cases heq : other = id
    · rw [heq]
      exact hsound
    · exact (hothers other heq).elsewhere honly heq

theorem Inv.only (h : system.Inv config) (honly : Only id system next)
    (hsound : next.Sound config id (system.offered id)) : next.Inv config :=
  inv_of_only h.wired honly (fun other _ => h.sound other) hsound

/-- The turn is never with an id that has not been given. -/
theorem Inv.strange (h : system.Inv config) :
    ∀ t ∈ system.turn, t.id ≠ system.nextSubscriptionId := by
  intro t ht heq
  have hsound := h.sound system.nextSubscriptionId
  have hnew := (hsound.lined.fresh (Nat.le_refl _)).1
  have hstanding := hsound.standing
  rw [hnew] at hstanding
  generalize (Library.LossyQueue.after (system.line system.nextSubscriptionId)).busy = busy
    at hstanding
  cases hstanding with
  | idle hturn => exact hturn t ht heq
  | handling _ hdrains => exact nomatch hdrains
  | reporting _ hdrains => exact nomatch hdrains
  | awaiting _ hdrains => exact nomatch hdrains
  | ended _ hdrains => exact nomatch hdrains

theorem Inv.only_subscribe (h : system.Inv config) (filter : α → Bool) :
    Only system.nextSubscriptionId system (system.subscribe filter) := by
  have hnew := ((h.sound system.nextSubscriptionId).lined.fresh (Nat.le_refl _)).1
  have habsent : system.nextSubscriptionId ∉ system.subscriptions := by
    rw [h.wired.registered.active, hnew]
    exact nofun
  constructor
  · exact fun other hne => Function.update_of_ne hne ..
  · exact fun hlt => absurd hlt (Nat.lt_irrefl _)
  · intro hregistered
    refine ⟨?_, fun other => ?_⟩
    · change (system.subscriptions ++ [system.nextSubscriptionId]).Nodup
      rw [List.nodup_append]
      refine ⟨hregistered.nodup, by simp, fun other hother last hlast heq => ?_⟩
      rw [List.mem_singleton.mp hlast] at heq
      exact habsent (heq ▸ hother)
    · change other ∈ system.subscriptions ++ [system.nextSubscriptionId] ↔
        (Function.update system.objects system.nextSubscriptionId _ other).active = true
      rw [List.mem_append, List.mem_singleton, hregistered.active other]
      by_cases heq : other = system.nextSubscriptionId
      · rw [heq, Function.update_self]
        simp
      · rw [Function.update_of_ne heq]
        simp [heq]
  · exact ⟨rfl, rfl, rfl, rfl⟩
  · refine ⟨_, rfl, fun act hmem => ?_⟩
    rw [List.mem_singleton.mp hmem]
    rfl
  · exact Or.inl rfl
  · exact Nat.le_succ _

theorem Inv.subscribe (h : system.Inv config) (filter : α → Bool) :
    (system.subscribe filter).Inv config := by
  have hnone : system.offered system.nextSubscriptionId = [] :=
    offered_fresh (fun dispatch hdispatch current hcurrent =>
      (h.wired.targets dispatch hdispatch current hcurrent).2) (Nat.le_refl _)
  refine h.only (h.only_subscribe filter) ?_
  rw [hnone]
  exact subscribe_sound (h.sound _) h.strange

/-- Nothing of a subscription depends on the messages. -/
theorem Sound.of_same (h : system.Sound config id coming)
    (hobjects : next.objects = system.objects) (hturn : next.turn = system.turn)
    (hids : next.nextSubscriptionId = system.nextSubscriptionId) {acts : List (Act α)}
    (hlog : next.log = system.log ++ acts)
    (hacts : ∀ act ∈ acts, ∀ filter, act.entry id filter = none ∧ act.id? ≠ some id) :
    next.Sound config id coming := by
  have hline : next.line id = system.line id := by
    rw [line, line, hobjects, hlog, about_append, about, about,
      List.filterMap_eq_nil_iff.mpr fun act hmem => (hacts act hmem _).1, List.append_nil]
  constructor
  · constructor
    · rw [hline]
      exact h.lined.lawful
    · rw [hline, hobjects]
      exact h.lined.stage
    · rw [hline, hobjects]
      exact h.lined.waiting
    · rw [hobjects]
      exact h.lined.quiet
    · rw [hobjects]
      exact h.lined.bounded
    · rw [hobjects, hids, hlog]
      intro hfresh
      obtain ⟨hnew, hstrange⟩ := h.lined.fresh hfresh
      refine ⟨hnew, fun act hmem => ?_⟩
      rcases List.mem_append.mp hmem with hmem | hmem
      · exact hstrange act hmem
      · exact (hacts act hmem (system.objects id).filter).2
  · rw [hline, hobjects, hturn]
    exact h.standing

theorem Sound.of_silent (h : system.Sound config id coming)
    (hobjects : next.objects = system.objects) (hturn : next.turn = system.turn)
    (hids : next.nextSubscriptionId = system.nextSubscriptionId)
    (hlog : next.log = system.log) : next.Sound config id coming :=
  h.of_same hobjects hturn hids (hlog.trans (List.append_nil _).symm) (fun _ hmem => nomatch hmem)

/-- An inactive subscription is not offered anything. -/
theorem Sound.inactive {others : List α} (h : system.Sound config id coming)
    (hactive : (system.objects id).active = false) : system.Sound config id others :=
  ⟨{ h.lined with waiting := fun hnot => nomatch hactive.symm.trans hnot }, h.standing⟩

/-- At most one batch is on its way. -/
theorem alone {before behind : List ℕ} {batchId : ℕ} {unacknowledged : Option ℕ}
    (h : before ++ [batchId] ++ behind = unacknowledged.toList) :
    before = [] ∧ behind = [] ∧ unacknowledged = some batchId := by
  cases unacknowledged with
  | none => simp at h
  | some last =>
    cases before with
    | nil =>
      obtain ⟨rfl, rfl⟩ := List.cons.inj h
      exact ⟨rfl, rfl, rfl⟩
    | cons first before =>
      have hempty := (List.cons.inj h).2
      simp at hempty

theorem offered_none (h : system.dispatch.bind Dispatch.current = none) (id : ℕ) :
    system.offered id = [] := by
  rw [offered, h]

/-- The next subscription is offered the current frame. -/
theorem Inv.offer (h : system.Inv config) {dispatch : Dispatch α} {frame : α} {id : ℕ}
    {targets : List ℕ} (hturn : system.turn = none) (hdispatch : system.dispatch = some dispatch)
    (hcurrent : dispatch.current = some (frame, id :: targets)) {next : System α}
    (hnext : next = { system with
      dispatch := some { dispatch with current := some (frame, targets) } }) :
    System.Inv config (if (next.objects id).active && (next.objects id).filter frame then
      next.enqueue config id frame else next) := by
  obtain ⟨hnodup, hgiven⟩ := h.wired.targets dispatch hdispatch _ hcurrent
  have habsent : id ∉ targets := (List.nodup_cons.mp hnodup).1
  have hbefore (other : ℕ) : system.offered other =
      if other ∈ id :: targets ∧ (system.objects other).filter frame = true then [frame]
      else [] := by
    rw [offered, hdispatch, Option.bind_some, hcurrent]
  have hafter (other : ℕ) : next.offered other =
      if other ∈ targets ∧ (system.objects other).filter frame = true then [frame] else [] := by
    rw [hnext]
    rfl
  have hflight : next.inFlight = system.inFlight := by
    rw [hnext, inFlight, inFlight, hdispatch]
    rfl
  have hwired : next.Wired := by
    constructor
    · rw [hnext]
      exact ⟨h.wired.registered.nodup, h.wired.registered.active⟩
    · rw [hnext]
      intro other hother current hmem
      cases hother
      cases hmem
      exact ⟨(List.nodup_cons.mp hnodup).2, fun id hmem => hgiven id (List.mem_cons_of_mem _ hmem)⟩
    · rw [hflight, h.wired.wire, hnext]
    · rw [hflight, hnext]
      exact h.wired.counted
  have hothers : ∀ other, other ≠ id → next.Sound config other (next.offered other) := by
    intro other hne
    have hsame : next.offered other = system.offered other := by
      simp only [hafter, hbefore, List.mem_cons, hne, false_or]
    rw [hsame, hnext]
    exact (h.sound other).of_silent rfl rfl rfl rfl
  have hnone : next.offered id = [] := by
    rw [hafter]
    exact if_neg fun hmem => habsent hmem.1
  have hself : next.Sound config id (system.offered id) := by
    rw [hnext]
    exact (h.sound id).of_silent rfl rfl rfl rfl
  have hsame : next.objects = system.objects := by rw [hnext]
  have hidle : next.turn = none := by
    rw [hnext]
    exact hturn
  split
  · rename_i hmatches
    rw [Bool.and_eq_true] at hmatches
    have hone : system.offered id = [frame] := by
      rw [hbefore]
      exact if_pos ⟨List.mem_cons_self, hsame ▸ hmatches.2⟩
    rw [hone] at hself
    refine inv_of_only hwired
      (only_enqueue frame fun _ ht => nomatch hidle.symm.trans ht) hothers ?_
    rw [hnone]
    exact enqueue_sound hself hmatches.1 hidle
  · rename_i hnot
    refine inv_of_only hwired Only.refl hothers ?_
    rw [hnone]
    cases hactive : (next.objects id).active with
    | false => exact hself.inactive hactive
    | true =>
      rw [hactive, Bool.true_and, hsame] at hnot
      have hempty : system.offered id = [] := by
        rw [hbefore]
        exact if_neg fun hmem => hnot hmem.2
      rwa [hempty] at hself

/-- The next frame of the batch is current. -/
theorem Inv.came (h : system.Inv config) {dispatch : Dispatch α} {frame : α} {frames : List α}
    (hdispatch : system.dispatch = some dispatch) (hnone : ∀ id, system.offered id = [])
    {next : System α} (hnext : next = { system with
      dispatch := some { dispatch with
        frames := frames
        current := some (frame, system.subscriptions) } }.note [.came frame]) :
    next.Inv config := by
  have hactive := h.wired.registered.active
  have hflight : next.inFlight = system.inFlight := by
    rw [hnext, inFlight, inFlight, hdispatch]
    rfl
  constructor
  · constructor
    · rw [hnext]
      exact ⟨h.wired.registered.nodup, hactive⟩
    · rw [hnext]
      intro other hother current hmem
      cases hother
      cases hmem
      refine ⟨h.wired.registered.nodup, fun id hmem => ?_⟩
      by_contra hfresh
      have hnew := ((h.sound id).lined.fresh (Nat.le_of_not_lt hfresh)).1
      have hmem := (hactive id).mp hmem
      rw [hnew] at hmem
      exact nomatch hmem
    · rw [hflight, h.wired.wire, hnext]
      rfl
    · have hcounted := h.wired.counted
      rw [hflight, hnext]
      obtain ⟨hsent, hacknowledged⟩ := counted_concat system.log (.came frame)
      change ((system.log ++ [_]).filterMap Act.sent?).length =
        ((system.log ++ [_]).filterMap Act.acknowledged?).length + _
      rw [hsent, hacknowledged]
      exact hcounted
  · intro id
    have hsound := h.sound id
    rw [hnone] at hsound
    have hcame : next.Sound config id
        (if (system.objects id).filter frame then [frame] else []) := by
      rw [hnext]
      exact came_sound hsound rfl rfl rfl rfl
    have hoffered : next.offered id =
        if id ∈ system.subscriptions ∧ (system.objects id).filter frame = true then [frame]
        else [] := by
      rw [hnext]
      rfl
    have hobject : next.objects id = system.objects id := by
      rw [hnext]
      rfl
    rw [hoffered]
    cases hmember : (system.objects id).active with
    | false => exact hcame.inactive (hobject ▸ hmember)
    | true =>
      have hmem := (hactive id).mpr hmember
      simp only [hmem, true_and]
      exact hcame

/-- The batch is over, and is acknowledged. -/
theorem Inv.over (h : system.Inv config) {dispatch : Dispatch α}
    (hdispatch : system.dispatch = some dispatch) (hnone : ∀ id, system.offered id = [])
    {next : System α} (hnext : next = { system with
      dispatch := none
      acks := system.acks ++ [dispatch.batchId] }) : next.Inv config := by
  have hwire := h.wired.wire
  rw [inFlight, hdispatch] at hwire
  obtain ⟨hbatches, hacks, hlast⟩ := alone hwire
  have hflight : next.inFlight = [dispatch.batchId] := by
    rw [hnext, inFlight]
    change system.batches.map Prod.fst ++ [] ++ (system.acks ++ [dispatch.batchId]) = _
    rw [hbatches, hacks]
    rfl
  have hcounted := h.wired.counted
  rw [h.wired.wire, hlast] at hcounted
  constructor
  · constructor
    · rw [hnext]
      exact ⟨h.wired.registered.nodup, h.wired.registered.active⟩
    · rw [hnext]
      exact nofun
    · rw [hflight, hnext]
      exact (congrArg Option.toList hlast).symm
    · rw [hflight, hnext]
      exact hcounted
  · intro id
    have hempty : next.offered id = [] := by
      rw [hnext]
      rfl
    have hsound := h.sound id
    rw [hnone] at hsound
    rw [hempty, hnext]
    exact hsound.of_silent rfl rfl rfl rfl

theorem Inv.dispatchNext (h : system.Inv config) {dispatch : Dispatch α}
    (hturn : system.turn = none) (hdispatch : system.dispatch = some dispatch) :
    (system.dispatchNext config dispatch).Inv config := by
  have hidle (hno : ∀ frame id targets, dispatch.current ≠ some (frame, id :: targets)) (id : ℕ) :
      system.offered id = [] := by
    rw [offered, hdispatch, Option.bind_some]
    split
    · rename_i frame targets hcurrent
      cases targets with
      | nil => exact if_neg fun hmem => nomatch hmem.1
      | cons first targets => exact absurd hcurrent (hno frame first targets)
    · rfl
  unfold System.dispatchNext
  split
  · rename_i frame id targets hcurrent
    exact h.offer hturn hdispatch hcurrent rfl
  · rename_i frame frames hframes hno
    exact h.came hdispatch (hidle fun frame id targets heq => hno frame id targets heq) rfl
  · rename_i hframes hno
    exact h.over hdispatch (hidle fun frame id targets heq => hno frame id targets heq) rfl

theorem Inv.poll (h : system.Inv config) (frames : List α) : (system.poll frames).Inv config := by
  unfold System.poll
  split
  · rename_i frame frames hnone
    have hflight : system.inFlight = [] := by
      rw [h.wired.wire, hnone]
      rfl
    have hempty := hflight
    rw [inFlight, List.append_eq_nil_iff, List.append_eq_nil_iff] at hempty
    obtain ⟨⟨hbatches, hdispatch⟩, hacks⟩ := hempty
    generalize hnext : System.note { system with
      nextBatchId := system.nextBatchId + 1
      unacknowledgedBatchId := some system.nextBatchId
      batches := system.batches ++ [(system.nextBatchId, frame :: frames)] }
        [.sent system.nextBatchId] = next
    have hlast : next.inFlight = [system.nextBatchId] := by
      rw [← hnext, inFlight]
      change (system.batches ++ [_]).map Prod.fst ++ _ ++ system.acks = _
      rw [List.map_append, hbatches, hacks]
      change [system.nextBatchId] ++ (system.dispatch.map Dispatch.batchId).toList ++ [] = _
      rw [hdispatch]
      rfl
    have hcounted := h.wired.counted
    rw [hflight] at hcounted
    constructor
    · constructor
      · rw [← hnext]
        exact ⟨h.wired.registered.nodup, h.wired.registered.active⟩
      · rw [← hnext]
        exact h.wired.targets
      · rw [hlast, ← hnext]
        rfl
      · rw [hlast, ← hnext]
        obtain ⟨hsent, hacknowledged⟩ := counted_concat system.log (.sent system.nextBatchId)
        change ((system.log ++ [_]).filterMap Act.sent?).length =
          ((system.log ++ [_]).filterMap Act.acknowledged?).length + 1
        rw [hsent, hacknowledged, hcounted]
        rfl
    · intro id
      have hsame : next.offered id = system.offered id := by
        rw [← hnext]
        rfl
      rw [hsame, ← hnext]
      refine (h.sound id).of_same rfl rfl rfl rfl fun act hmem filter => ?_
      rw [List.mem_singleton.mp hmem]
      exact ⟨rfl, nofun⟩
  · exact h

theorem Inv.receive (h : system.Inv config) (hdispatch : system.dispatch = none) :
    system.receive.Inv config := by
  unfold System.receive
  split
  · rename_i batchId frames batches hbatches
    have hwire : [] ++ [batchId] ++ (batches.map Prod.fst ++ system.acks) =
        system.unacknowledgedBatchId.toList := by
      rw [← h.wired.wire, inFlight, hdispatch, hbatches]
      simp
    obtain ⟨-, hrest, hlast⟩ := alone hwire
    obtain ⟨hrest, hacks⟩ := List.append_eq_nil_iff.mp hrest
    generalize hnext : { system with
      batches := batches, dispatch := some ⟨batchId, frames, none⟩ } = next
    have hflight : next.inFlight = [batchId] := by
      rw [← hnext, inFlight]
      change batches.map Prod.fst ++ [batchId] ++ system.acks = _
      rw [hrest, hacks]
      rfl
    have hcounted := h.wired.counted
    rw [h.wired.wire, hlast] at hcounted
    constructor
    · constructor
      · rw [← hnext]
        exact ⟨h.wired.registered.nodup, h.wired.registered.active⟩
      · rw [← hnext]
        intro dispatch heq
        cases heq
        exact nofun
      · rw [hflight, ← hnext]
        exact (congrArg Option.toList hlast).symm
      · rw [hflight, ← hnext]
        exact hcounted
    · intro id
      have hsound := h.sound id
      rw [offered_none (by rw [hdispatch]; rfl)] at hsound
      rw [offered_none (by rw [← hnext]; rfl), ← hnext]
      exact hsound.of_silent rfl rfl rfl rfl
  · exact h

theorem Inv.acknowledge (h : system.Inv config) : system.acknowledge.Inv config := by
  unfold System.acknowledge
  split
  · rename_i batchId acks hacks
    have hwire : system.batches.map Prod.fst ++ (system.dispatch.map Dispatch.batchId).toList ++
        [batchId] ++ acks = system.unacknowledgedBatchId.toList := by
      rw [← h.wired.wire, inFlight, hacks]
      simp
    obtain ⟨hfirst, hrest, hlast⟩ := alone hwire
    dsimp only
    rw [if_pos hlast]
    generalize hnext : System.note { system with acks := acks, unacknowledgedBatchId := none }
      [.acknowledged batchId] = next
    have hflight : next.inFlight = [] := by
      rw [← hnext, inFlight]
      change system.batches.map Prod.fst ++ (system.dispatch.map Dispatch.batchId).toList ++ acks =
        _
      rw [hfirst, hrest]
      rfl
    have hcounted := h.wired.counted
    rw [h.wired.wire, hlast] at hcounted
    constructor
    · constructor
      · rw [← hnext]
        exact ⟨h.wired.registered.nodup, h.wired.registered.active⟩
      · rw [← hnext]
        exact h.wired.targets
      · rw [hflight, ← hnext]
        rfl
      · rw [hflight, ← hnext]
        obtain ⟨hsent, hacknowledged⟩ := counted_concat system.log (.acknowledged batchId)
        change ((system.log ++ [_]).filterMap Act.sent?).length =
          ((system.log ++ [_]).filterMap Act.acknowledged?).length
        rw [hsent, hacknowledged]
        exact hcounted
    · intro id
      have hsame : next.offered id = system.offered id := by
        rw [← hnext]
        rfl
      rw [hsame, ← hnext]
      refine (h.sound id).of_same rfl rfl rfl rfl fun act hmem filter => ?_
      rw [List.mem_singleton.mp hmem]
      exact ⟨rfl, nofun⟩
  · exact h

theorem Inv.step (h : system.Inv config) (event : Event α) :
    (system.step config event).Inv config := by
  cases event with
  | subscribe filter => exact h.subscribe filter
  | cancel id => exact h.only only_cancel (cancel_sound (h.sound id))
  | poll frames => exact h.poll frames
  | acknowledge => exact h.acknowledge
  | returned =>
    simp only [System.step]
    split
    · rename_i turn hturn
      have hone : ∀ t ∈ system.turn, t.id = turn.id := fun t ht => by
        cases Option.some.inj (hturn.symm.trans ht)
        rfl
      exact h.only (only_returned hone) (returned_sound (h.sound turn.id) hturn)
    · exact h
  | threw =>
    simp only [System.step]
    split
    · rename_i turn hturn
      exact h.only only_threw (threw_sound (h.sound turn.id) hturn)
    · exact h
  | reported =>
    simp only [System.step]
    split
    · rename_i turn hturn
      have hone : ∀ t ∈ system.turn, t.id = turn.id := fun t ht => by
        cases Option.some.inj (hturn.symm.trans ht)
        rfl
      exact h.only (only_reported hone) (reported_sound (h.sound turn.id) hturn)
    · exact h
  | dispatch =>
    simp only [System.step]
    split
    · rename_i dispatch hturn hdispatch
      exact h.dispatchNext hturn hdispatch
    · exact h
  | receive =>
    simp only [System.step]
    split
    · rename_i hturn hdispatch
      exact h.receive hdispatch
    · exact h
  | settled id run failed =>
    simp only [System.step]
    split
    · rename_i hturn hdispatch
      exact h.only (only_settled failed hturn) (settled_sound run failed (h.sound id) hturn)
    · exact h
  | finished id run =>
    simp only [System.step]
    split
    · rename_i hturn hdispatch
      exact h.only (only_finished hturn) (finished_sound run (h.sound id) hturn)
    · exact h

theorem inv_start : System.Inv config ({} : System α) where
  wired := ⟨⟨List.nodup_nil, fun id => ⟨nofun, nofun⟩⟩, nofun, rfl, rfl⟩
  sound id := by
    refine ⟨⟨lawful_nil, nofun, nofun, fun _ => rfl, Nat.zero_le _, fun _ => ⟨rfl, nofun⟩⟩, ?_⟩
    exact .idle nofun rfl rfl rfl

end System

theorem after_inv (config : SocketCanConfiguration) (events : List (Event α)) :
    (after config events).Inv config := by
  induction events using List.reverseRecOn with
  | nil => exact System.inv_start
  | append_singleton events event ih =>
    rw [after, List.foldl_append]
    exact ih.step event

/-- A queue that is not empty is being drained. -/
theorem System.Sound.drained {system : System α} {id : ℕ} {coming : List α}
    (h : system.Sound config id coming) (hpending : (system.objects id).pending ≠ []) :
    (system.objects id).drains ≠ [] := by
  obtain ⟨-, hstanding⟩ := h
  generalize (Library.LossyQueue.after (system.line id)).busy = busy at hstanding
  cases hstanding with
  | idle _ _ _ hempty => exact absurd hempty hpending
  | handling _ hdrains =>
    rw [hdrains]
    exact List.cons_ne_nil _ _
  | reporting _ hdrains =>
    rw [hdrains]
    exact List.cons_ne_nil _ _
  | awaiting _ hdrains =>
    rw [hdrains]
    exact List.cons_ne_nil _ _
  | ended _ hdrains =>
    rw [hdrains]
    exact List.cons_ne_nil _ _

open Library.LossyQueue (due entered handled waiting)

/-- In every run, the frames that a handler is given are among those that match and have come
while it was subscribed, in their order, and one call is over before the next begins. The oldest
is dropped, while more than the bound are waiting, and all others wait and are drained. After the
cancellation no call begins, and no batch is sent before the last has been acknowledged. -/
theorem frames_delivered (config : SocketCanConfiguration) (events : List (Event α)) (id : ℕ) :
    (handled ((after config events).line id) <+: due ((after config events).line id) ∧
      (entered ((after config events).line id)).Sublist (due ((after config events).line id))) ∧
    (∀ before a between b behind, (after config events).line id =
      before ++ .entered a :: between ++ .entered b :: behind → .left ∈ between) ∧
    (∀ before a behind, (after config events).line id = before ++ .dropped a :: behind →
      config.maxPendingPerSubscription < (waiting before).length ∧
        (waiting before).head? = some a) ∧
    (((after config events).objects id).active = true → (after config events).dispatch = none →
      waiting ((after config events).line id) = ((after config events).objects id).pending) ∧
    (((after config events).objects id).pending ≠ [] →
      ((after config events).objects id).drains ≠ []) ∧
    (∀ before a behind, (after config events).line id = before ++ .closed :: behind →
      .entered a ∉ behind) ∧
    ((after config events).log.filterMap Act.sent?).length ≤
      ((after config events).log.filterMap Act.acknowledged?).length + 1 := by
  have hinv := after_inv config events
  generalize after config events = system at hinv
  have hsound := hinv.sound id
  have hlawful := hsound.lined.lawful
  refine ⟨⟨hlawful.handled_prefix, hlawful.entered_sublist⟩, ?_, ?_, ?_, hsound.drained, ?_, ?_⟩
  · intro before a between b behind hlog
    rw [hlog] at hlawful
    exact hlawful.left_between
  · intro before a behind hlog
    rw [hlog] at hlawful
    exact hlawful.dropped
  · intro hactive hdispatch
    rw [hlawful.waiting_eq (hsound.lined.stage hactive), hsound.lined.waiting hactive,
      System.offered_none (by rw [hdispatch]; rfl), List.append_nil]
  · intro before a behind hlog
    rw [hlog] at hlawful
    exact hlawful.closed
  · rw [hinv.wired.counted, hinv.wired.wire]
    cases system.unacknowledgedBatchId with
    | none => exact Nat.le_succ _
    | some batchId => exact Nat.le_refl _

/-- Of three frames that come while the first is in the hands of the handler, the oldest is
dropped where only one may wait. -/
example : (after ⟨1, by decide⟩ [.subscribe fun _ => true, .poll [5, 6, 7], .receive, .dispatch,
    .dispatch, .returned, .dispatch, .dispatch, .dispatch, .dispatch, .dispatch,
    .settled 1 0 false]).log =
      [.subscribed 1, .sent 1, .came 5, .entered 1 5, .came 6, .came 7, .dropped 1 6,
        .completed 1 false, .entered 1 7] := by decide

end ProjectArgo.Can.SocketCan
