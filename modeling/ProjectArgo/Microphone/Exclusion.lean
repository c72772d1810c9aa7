import ProjectArgo.Microphone.Ownership

/-!
# What the lock file guarantees

Whoever has the exclusive lock is the only owner, whatever the other processes do.
The advisory state takes the same lock, though, and the owner's code is written only
after the lock is taken. So an acquisition may be refused because somebody was
looking, and a look may find the name of an owner that is gone.
-/
namespace ProjectArgo.Microphone

open Library.Run

theorem Phase.locks_of_contents {phase : Phase} {text : List Char}
    (h : phase.contents? = some text) : phase.Locks := by
  cases phase with
  | truncated owner => exact Or.inl rfl
  | leased owner => exact Or.inl rfl
  | poisoned owner => exact Or.inl rfl
  | _ => exact nomatch h

theorem Phase.locks_of_lease {phase : Phase} {owner : Owner} (h : phase.lease? = some owner) :
    phase.Locks ∧ phase.contents? = some owner.code := by
  cases phase with
  | leased owner => exact ⟨Or.inl rfl, by rw [Option.some.inj h]; rfl⟩
  | poisoned owner => exact ⟨Or.inl rfl, by rw [Option.some.inj h]; rfl⟩
  | _ => exact nomatch h

/-- A state call whose answer is not settled yet. -/
def Phase.Watches (phase : Phase) : Prop := phase = .reading ∨ phase = .refused

namespace System

variable {sys next : System} {id : ℕ} {event : Event} {acts : List Act}

/-- The lock is held for an owner by the open file. -/
def Owns (sys : System) (id : ℕ) : Prop :=
  ∃ handle, sys.handles id = some handle ∧ handle.phase.owner?.isSome

/-- The open file is an undropped lease for the owner. -/
def Leased (sys : System) (id : ℕ) (owner : Owner) : Prop :=
  ∃ handle, sys.handles id = some handle ∧ handle.phase.lease? = some owner

/-! ## The lock and the file -/

/-- One open file has the lock, and the file holds what its holder has written. -/
structure Sound (sys : System) : Prop where
  locks : ∀ id, sys.lock = some id ↔ ∃ handle, sys.handles id = some handle ∧ handle.phase.Locks
  contents : ∀ id handle text, sys.handles id = some handle →
    handle.phase.contents? = some text → sys.file = some text
  fresh : ∀ id, sys.next ≤ id → sys.handles id = none

theorem sound_start (file : Option (List Char)) : Sound { file := file } :=
  ⟨fun _ => ⟨nofun, fun ⟨_, h, _⟩ => nomatch h⟩, nofun, fun _ _ => rfl⟩

theorem Sound.lock_unique (h : sys.Sound) {other : ℕ} {handle : Handle}
    (hhandle : sys.handles other = some handle) (hlocks : handle.phase.Locks)
    (hlock : sys.lock = none ∨ sys.lock = some id) : other = id := by
  have hother := (h.locks other).mpr ⟨handle, hhandle, hlocks⟩
  rcases hlock with hnone | hid
  · exact nomatch hnone.symm.trans hother
  · exact (Option.some.inj (hid.symm.trans hother)).symm

/-- Only one open file has the lock for an owner. -/
theorem Sound.owns_unique (h : sys.Sound) {a b : ℕ} (ha : sys.Owns a) (hb : sys.Owns b) :
    a = b := by
  obtain ⟨first, hfirst, hfirstOwner⟩ := ha
  obtain ⟨second, hsecond, hsecondOwner⟩ := hb
  have hlock := (h.locks b).mpr ⟨second, hsecond, Or.inl hsecondOwner⟩
  exact h.lock_unique hfirst (Or.inl hfirstOwner) (Or.inr hlock)

/-- The lock is taken, or its holder goes on. -/
theorem Sound.hold (h : sys.Sound) {new : Handle} (hlt : id < sys.next)
    (hfree : sys.lock = none ∨ sys.lock = some id)
    (hhandles : next.handles = Function.update sys.handles id (some new))
    (hlock : next.lock = some id) (hnext : next.next = sys.next) (hlocks : new.phase.Locks)
    (hfile : ∀ text, new.phase.contents? = some text → next.file = some text) : next.Sound := by
  have hother {other : ℕ} {handle : Handle} (hne : other ≠ id)
      (hhandle : sys.handles other = some handle) : ¬handle.phase.Locks :=
    fun hlocks => hne (h.lock_unique hhandle hlocks hfree)
  refine ⟨fun other => ?_, fun other handle text hhandle htext => ?_, fun other hle => ?_⟩
  · rw [hlock, hhandles]
    by_cases heq : other = id
    · subst heq
      simp [hlocks]
    · rw [Function.update_of_ne heq]
      constructor
      · intro hid
        exact absurd (Option.some.inj hid).symm heq
      · rintro ⟨handle, hhandle, hheld⟩
        exact absurd hheld (hother heq hhandle)
  · rw [hhandles] at hhandle
    by_cases heq : other = id
    · subst heq
      rw [Function.update_self, Option.some.injEq] at hhandle
      exact hfile text (hhandle ▸ htext)
    · rw [Function.update_of_ne heq] at hhandle
      exact absurd (Phase.locks_of_contents htext) (hother heq hhandle)
  · rw [hnext] at hle
    rw [hhandles, Function.update_of_ne (Nat.ne_of_gt (Nat.lt_of_lt_of_le hlt hle))]
    exact h.fresh other hle

/-- An open file without the lock stays, or comes to be, without it. -/
theorem Sound.watch (h : sys.Sound) {new : Handle} (hlt : id < next.next)
    (hold : ∀ handle, sys.handles id = some handle → ¬handle.phase.Locks)
    (hhandles : next.handles = Function.update sys.handles id (some new))
    (hlock : next.lock = sys.lock) (hnext : sys.next ≤ next.next) (hlocks : ¬new.phase.Locks)
    (hfile : sys.file = none ∨ next.file = sys.file) : next.Sound := by
  refine ⟨fun other => ?_, fun other handle text hhandle htext => ?_, fun other hle => ?_⟩
  · rw [hlock, h.locks, hhandles]
    by_cases heq : other = id
    · subst heq
      simp only [Function.update_self, Option.some.injEq, exists_eq_left']
      constructor
      · rintro ⟨handle, hhandle, hheld⟩
        exact absurd hheld (hold handle hhandle)
      · intro hheld
        exact absurd hheld hlocks
    · rw [Function.update_of_ne heq]
  · rw [hhandles] at hhandle
    by_cases heq : other = id
    · subst heq
      rw [Function.update_self, Option.some.injEq] at hhandle
      exact absurd (Phase.locks_of_contents (hhandle ▸ htext)) hlocks
    · rw [Function.update_of_ne heq] at hhandle
      have hcontents := h.contents other handle text hhandle htext
      rcases hfile with hnone | hsame
      · exact nomatch hnone.symm.trans hcontents
      · exact hsame.trans hcontents
  · rw [hhandles, Function.update_of_ne (Nat.ne_of_gt (Nat.lt_of_lt_of_le hlt hle))]
    exact h.fresh other (Nat.le_trans hnext hle)

theorem Sound.close (h : sys.Sound) {file : Option (List Char)}
    (hfile : sys.lock = some id ∨ file = sys.file) : Sound { sys.close id with file := file } := by
  refine ⟨fun other => ?_, fun other handle text hhandle htext => ?_, fun other hle => ?_⟩
  · simp only [System.close]
    by_cases heq : other = id
    · subst heq
      simp only [Function.update_self, reduceCtorEq, false_and, exists_false, iff_false]
      split
      · exact nofun
      · assumption
    · rw [Function.update_of_ne heq, ← h.locks]
      split
      · rename_i hid
        rw [hid, Option.some.injEq]
        exact ⟨nofun, fun hsame => absurd hsame.symm heq⟩
      · rfl
  · simp only [System.close] at hhandle
    by_cases heq : other = id
    · subst heq
      rw [Function.update_self] at hhandle
      exact nomatch hhandle
    · rw [Function.update_of_ne heq] at hhandle
      rcases hfile with hid | rfl
      · exact absurd (h.lock_unique hhandle (Phase.locks_of_contents htext) (Or.inr hid)) heq
      · exact h.contents other handle text hhandle htext
  · simp only [System.close]
    by_cases heq : other = id
    · subst heq
      exact Function.update_self ..
    · rw [Function.update_of_ne heq]
      exact h.fresh other hle

theorem Sound.exit (h : sys.Sound) (process : ℕ) : (sys.exit process).Sound := by
  have hkept {id : ℕ} {handle : Handle} (hhandle : (sys.exit process).handles id = some handle) :
      sys.handles id = some handle ∧ handle.process ≠ process := by
    simpa [System.exit, Option.filter_eq_some_iff] using hhandle
  refine ⟨fun id => ?_, fun id handle text hhandle => ?_, fun id hle => ?_⟩
  · constructor
    · intro hlock
      simp only [System.exit, Option.filter_eq_some_iff] at hlock
      obtain ⟨hlock, hprocess⟩ := hlock
      obtain ⟨handle, hhandle, hlocks⟩ := (h.locks id).mp hlock
      rw [hhandle] at hprocess
      refine ⟨handle, ?_, hlocks⟩
      simp only [System.exit, Option.filter_eq_some_iff]
      exact ⟨hhandle, hprocess⟩
    · rintro ⟨handle, hhandle, hlocks⟩
      obtain ⟨hhandle, hprocess⟩ := hkept hhandle
      simp only [System.exit, Option.filter_eq_some_iff]
      refine ⟨(h.locks id).mpr ⟨handle, hhandle, hlocks⟩, ?_⟩
      rw [hhandle]
      simpa using hprocess
  · exact h.contents id handle text (hkept hhandle).1
  · simp [System.exit, h.fresh id hle]

theorem Sound.lt_next (h : sys.Sound) {handle : Handle} (hhandle : sys.handles id = some handle) :
    id < sys.next := by
  by_contra hle
  exact nomatch (h.fresh id (Nat.le_of_not_lt hle)).symm.trans hhandle

/-- Whoever has the phase of a holder has the lock. -/
theorem Sound.lock_of_handle (h : sys.Sound) {handle : Handle}
    (hhandle : sys.handles id = some handle) (hlocks : handle.phase.Locks) :
    sys.lock = some id := (h.locks id).mpr ⟨handle, hhandle, hlocks⟩

theorem Sound.skip (h : sys.Sound) : Sound { sys with next := sys.next + 1 } :=
  ⟨h.locks, h.contents, fun id hle => h.fresh id (Nat.le_of_succ_le hle)⟩

theorem Sound.closed (h : sys.Sound) : (sys.close id).Sound := h.close (Or.inr rfl)

theorem step_sound (h : sys.Sound) (event : Event) : (sys.step event).1.Sound := by
  have hfresh {handle : Handle} (hhandle : sys.handles sys.next = some handle) :
      ¬handle.phase.Locks := nomatch (h.fresh _ (Nat.le_refl _)).symm.trans hhandle
  cases event with
  | openLease process owner fault =>
    cases fault with
    | some fault => exact h.skip
    | none =>
      refine h.watch (Nat.lt_succ_self _) (fun _ => hfresh) rfl rfl (Nat.le_succ _) ?_ ?_
      · exact nofun
      · cases hfile : sys.file with
        | none => exact Or.inl rfl
        | some text => exact Or.inr (by simp [step, openLease, add, set, hfile])
  | tryLease id ok =>
    simp only [step, tryLease]
    split
    · rename_i hhandle
      split
      · rename_i hfree
        exact h.hold (h.lt_next hhandle) (Or.inl hfree.2) rfl rfl rfl (Or.inl rfl) nofun
      · exact h.closed
    · exact h
  | truncate id ok =>
    simp only [step, truncate]
    split
    · rename_i hhandle
      have hlock := h.lock_of_handle hhandle (Or.inl rfl)
      split
      · refine h.hold (h.lt_next hhandle) (Or.inr hlock) rfl hlock rfl (Or.inl rfl) ?_
        rintro text htext
        exact htext
      · exact h.closed
    · exact h
  | write id short =>
    simp only [step, write]
    split
    · rename_i hhandle
      have hlock := h.lock_of_handle hhandle (Or.inl rfl)
      split
      · refine h.hold (h.lt_next hhandle) (Or.inr hlock) rfl hlock rfl (Or.inl rfl) ?_
        rintro text htext
        exact htext
      · split
        · exact h.close (Or.inl hlock)
        · exact h
    · exact h
  | drop id =>
    simp only [step, drop]
    split
    · exact h.closed
    · exact h
  | poison id =>
    simp only [step, poison]
    split
    · rename_i hhandle
      have hlock := h.lock_of_handle hhandle (Or.inl rfl)
      refine h.hold (h.lt_next hhandle) (Or.inr hlock) rfl hlock rfl (Or.inl rfl) ?_
      exact fun text htext => h.contents _ _ text hhandle htext
    · exact h
  | openState process fault =>
    cases fault with
    | some fault => exact h.skip
    | none =>
      simp only [step, openState]
      split
      · exact h.skip
      · exact h.watch (Nat.lt_succ_self _) (fun _ => hfresh) rfl rfl (Nat.le_succ _) nofun
          (Or.inr rfl)
  | tryState id ok =>
    simp only [step, tryState]
    split
    · rename_i hhandle
      split
      · exact h.closed
      split
      · rename_i hfree
        exact h.hold (h.lt_next hhandle) (Or.inl hfree) rfl rfl rfl (Or.inr rfl) nofun
      · refine h.watch (h.lt_next hhandle) ?_ rfl rfl (Nat.le_refl _) nofun (Or.inr rfl)
        intro handle hsame
        rw [Option.some.inj (hsame.symm.trans hhandle)]
        exact nofun
    · exact h
  | readState id ok =>
    simp only [step, readState]
    split
    · exact h.closed
    · exact h
  | closeState id =>
    simp only [step, closeState]
    split
    · exact h.closed
    · exact h
  | exit process => exact h.exit process

theorem run_sound (file : Option (List Char)) (events : List Event) :
    (run step { file := file } events).1.Sound :=
  run_invariant step (sound_start file) (fun _ event h => step_sound h event) events

/-! ## Poisoned leases -/

/-- A poisoned lease outlasts everything but its process. -/
theorem step_poisoned {process : ℕ} {owner : Owner}
    (h : sys.handles id = some ⟨process, .poisoned owner⟩) (hfresh : id < sys.next)
    (hexit : event ≠ .exit process) :
    (sys.step event).1.handles id = some ⟨process, .poisoned owner⟩ := by
  have hset {other : ℕ} {old new : Handle} (hother : sys.handles other = some old)
      (hphase : old.phase ≠ .poisoned owner) :
      Function.update sys.handles other (some new) id = some ⟨process, .poisoned owner⟩ := by
    rw [Function.update_of_ne, h]
    rintro rfl
    rw [h] at hother
    exact hphase (by rw [← Option.some.inj hother])
  have hclose {other : ℕ} {old : Handle} (hother : sys.handles other = some old)
      (hphase : old.phase ≠ .poisoned owner) :
      Function.update sys.handles other none id = some ⟨process, .poisoned owner⟩ := by
    rw [Function.update_of_ne, h]
    rintro rfl
    rw [h] at hother
    exact hphase (by rw [← Option.some.inj hother])
  have hadd {new : Handle} :
      Function.update sys.handles sys.next (some new) id = some ⟨process, .poisoned owner⟩ := by
    rw [Function.update_of_ne (Nat.ne_of_lt hfresh), h]
  cases event with
  | openLease other wanted fault =>
    cases fault with
    | some fault => exact h
    | none => exact hadd
  | tryLease other ok =>
    simp only [step, tryLease]
    split
    · rename_i hother
      split
      · exact hset hother nofun
      · exact hclose hother nofun
    · exact h
  | truncate other ok =>
    simp only [step, truncate]
    split
    · rename_i hother
      split
      · exact hset hother nofun
      · exact hclose hother nofun
    · exact h
  | write other short =>
    simp only [step, write]
    split
    · rename_i hother
      split
      · exact hset hother nofun
      · split
        · exact hclose hother nofun
        · exact h
    · exact h
  | drop other =>
    simp only [step, drop]
    split
    · rename_i hother
      exact hclose hother nofun
    · exact h
  | poison other =>
    simp only [step, poison]
    split
    · rename_i hother
      exact hset hother nofun
    · exact h
  | openState other fault =>
    cases fault with
    | some fault => exact h
    | none =>
      simp only [step, openState]
      split
      · exact h
      · exact hadd
  | tryState other ok =>
    simp only [step, tryState]
    split
    · rename_i hother
      split
      · exact hclose hother nofun
      split
      · exact hset hother nofun
      · exact hset hother nofun
    · exact h
  | readState other ok =>
    simp only [step, readState]
    split
    · rename_i hother
      exact hclose hother nofun
    · exact h
  | closeState other =>
    simp only [step, closeState]
    split
    · rename_i hother
      exact hclose hother nofun
    · exact h
  | exit other =>
    have hne : process ≠ other := by
      rintro rfl
      exact hexit rfl
    simp [step, System.exit, h, Option.filter, hne]

theorem run_poisoned {process : ℕ} {owner : Owner} (h : sys.Sound)
    (hpoisoned : sys.handles id = some ⟨process, .poisoned owner⟩) (events : List Event)
    (hexit : .exit process ∉ events) :
    (run step sys events).1.handles id = some ⟨process, .poisoned owner⟩ := by
  induction events generalizing sys with
  | nil => exact hpoisoned
  | cons event rest ih =>
    rw [List.mem_cons, not_or] at hexit
    refine ih (step_sound h event) ?_ hexit.2
    exact step_poisoned hpoisoned (h.lt_next hpoisoned) (Ne.symm hexit.1)

/-! ## Refusals -/

/-- The phase of the open file that has the lock. -/
def holder? (sys : System) : Option Phase :=
  (sys.lock.bind sys.handles).map (·.phase)

/-- An acquisition meets no state call that has the lock, and no other failure; a state
call that would read a name finds the lock free, or with the owner of that name. -/
def Orderly (sys : System) : Event → Prop
  | .tryLease _ ok => ok = true ∧ sys.holder? ≠ some .probed
  | .tryState _ _ =>
    sys.named = .unknown ∨ sys.holder?.all fun phase => (phase.contents?).isSome
  | _ => True

instance (sys : System) : DecidablePred sys.Orderly
  | .tryLease _ _ => inferInstanceAs (Decidable (_ ∧ _))
  | .tryState _ _ => inferInstanceAs (Decidable (_ ∨ _))
  | .openLease _ _ _ | .truncate _ _ | .write _ _ | .drop _ | .poison _ | .openState _ _
  | .readState _ _ | .closeState _ | .exit _ => isTrue trivial

theorem Sound.holder (h : sys.Sound) (hlock : sys.lock ≠ none) :
    ∃ id handle, sys.lock = some id ∧ sys.handles id = some handle ∧ handle.phase.Locks ∧
      sys.holder? = some handle.phase := by
  obtain ⟨id, hid⟩ := Option.ne_none_iff_exists'.mp hlock
  obtain ⟨handle, hhandle, hlocks⟩ := (h.locks id).mp hid
  exact ⟨id, handle, hid, hhandle, hlocks, by simp [holder?, hid, hhandle]⟩

/-- Contention comes from an owner that has the lock at that moment. -/
theorem owns_of_contended (h : sys.Sound) (horderly : sys.Orderly event)
    (hmem : .contended id ∈ (sys.step event).2) : ∃ owner, sys.Owns owner := by
  cases event with
  | tryLease other ok =>
    obtain ⟨hok, hprobed⟩ := horderly
    simp only [step, tryLease] at hmem
    split at hmem
    · split at hmem
      · exact nomatch hmem
      · rename_i hbusy
        have hlock : sys.lock ≠ none := fun hfree => hbusy ⟨hok, hfree⟩
        obtain ⟨owner, handle, -, hhandle, hlocks, hholder⟩ := h.holder hlock
        rcases hlocks with howner | hphase
        · exact ⟨owner, handle, hhandle, howner⟩
        · exact absurd (hphase ▸ hholder) hprobed
    · exact nomatch hmem
  | openLease process owner fault => cases fault <;> simp [step, openLease] at hmem
  | openState process fault =>
    cases fault with
    | some fault => simp [step, openState] at hmem
    | none =>
      simp only [step, openState] at hmem
      split at hmem <;> simp at hmem
  | truncate other ok =>
    simp only [step, truncate] at hmem
    split at hmem
    · split at hmem <;> simp at hmem
    · exact nomatch hmem
  | write other short =>
    simp only [step, write] at hmem
    split at hmem
    · split at hmem
      · simp at hmem
      · split at hmem <;> simp at hmem
    · exact nomatch hmem
  | drop other =>
    simp only [step, drop] at hmem
    split at hmem <;> exact nomatch hmem
  | poison other =>
    simp only [step, poison] at hmem
    split at hmem <;> exact nomatch hmem
  | tryState other ok =>
    simp only [step, tryState] at hmem
    split at hmem
    · split at hmem
      · simp at hmem
      · split at hmem <;> exact nomatch hmem
    · exact nomatch hmem
  | readState other ok =>
    simp only [step, readState] at hmem
    split at hmem <;> simp at hmem
  | closeState other =>
    simp only [step, closeState] at hmem
    split at hmem <;> simp at hmem
  | exit process => exact nomatch hmem

/-! ## Names -/

/-- The name in the file changes to nobody's, or to that of a lease given now. -/
theorem step_named (sys : System) (event : Event) :
    (sys.step event).1.named = sys.named ∨ (sys.step event).1.named = .unknown ∨
      ∃ id owner, (sys.step event).1.Leased id owner ∧ (sys.step event).1.named = owner := by
  have hcode (owner : Owner) : owner.code.take 64 = owner.code :=
    List.take_of_length_le owner.code_length_le
  cases event with
  | openLease process owner fault =>
    cases fault with
    | some fault => exact Or.inl rfl
    | none => exact Or.inl (by simp [step, openLease, named, add, set])
  | tryLease id ok =>
    simp only [step, tryLease]
    split
    · split <;> exact Or.inl rfl
    · exact Or.inl rfl
  | truncate id ok =>
    simp only [step, truncate]
    split
    · split
      · exact Or.inr (Or.inl (by simp [named]))
      · exact Or.inl rfl
    · exact Or.inl rfl
  | write id short =>
    simp only [step, write]
    split
    · rename_i process owner _
      split
      · refine Or.inr (Or.inr ⟨id, owner, ⟨⟨process, .leased owner⟩, ?_, rfl⟩, ?_⟩)
        · exact Function.update_self ..
        · simp [named, hcode]
      · split
        · rename_i hshort
          refine Or.inr (Or.inl ?_)
          rename_i n
          have hlen : (owner.code.take n).length ≤ 64 :=
            Nat.le_trans (List.length_take_le' n _) owner.code_length_le
          simp only [named, Option.getD_some]
          rw [List.take_of_length_le hlen, Owner.parse_take_code owner hshort]
        · exact Or.inl rfl
    · exact Or.inl rfl
  | drop id =>
    simp only [step, drop]
    split <;> exact Or.inl rfl
  | poison id =>
    simp only [step, poison]
    split <;> exact Or.inl rfl
  | openState process fault =>
    cases fault with
    | some fault => exact Or.inl rfl
    | none =>
      simp only [step, openState]
      split <;> exact Or.inl rfl
  | tryState id ok =>
    simp only [step, tryState]
    split
    · split
      · exact Or.inl rfl
      · split <;> exact Or.inl rfl
    · exact Or.inl rfl
  | readState id ok =>
    simp only [step, readState]
    split <;> exact Or.inl rfl
  | closeState id =>
    simp only [step, closeState]
    split <;> exact Or.inl rfl
  | exit process => exact Or.inl rfl

/-- A state call begins when it opens the file, and is refused once it has tried the lock. -/
theorem step_watches {process : ℕ} {phase : Phase} (hphase : phase.Watches)
    (hhandle : (sys.step event).1.handles id = some ⟨process, phase⟩) :
    sys.handles id = some ⟨process, phase⟩ ∨
      (id = sys.next ∧ phase = .reading ∧ event = .openState process none) ∨
      sys.handles id = some ⟨process, .reading⟩ ∧ sys.lock ≠ none ∧
        (sys.step event).1.file = sys.file ∧ ∃ ok, event = .tryState id ok := by
  have hset {other : ℕ} {new : Handle}
      (h : Function.update sys.handles other (some new) id = some ⟨process, phase⟩)
      (hnew : ¬new.phase.Watches) : sys.handles id = some ⟨process, phase⟩ := by
    by_cases heq : id = other
    · subst heq
      rw [Function.update_self, Option.some.injEq] at h
      exact absurd (h ▸ hphase) hnew
    · rwa [Function.update_of_ne heq] at h
  have hclose {other : ℕ} (h : Function.update sys.handles other none id = some ⟨process, phase⟩) :
      sys.handles id = some ⟨process, phase⟩ := by
    by_cases heq : id = other
    · subst heq
      rw [Function.update_self] at h
      exact nomatch h
    · rwa [Function.update_of_ne heq] at h
  cases event with
  | openLease other owner fault =>
    cases fault with
    | some fault => exact Or.inl hhandle
    | none => exact Or.inl (hset hhandle nofun)
  | tryLease other ok =>
    simp only [step, tryLease] at hhandle
    split at hhandle
    · split at hhandle
      · exact Or.inl (hset hhandle nofun)
      · exact Or.inl (hclose hhandle)
    · exact Or.inl hhandle
  | truncate other ok =>
    simp only [step, truncate] at hhandle
    split at hhandle
    · split at hhandle
      · exact Or.inl (hset hhandle nofun)
      · exact Or.inl (hclose hhandle)
    · exact Or.inl hhandle
  | write other short =>
    simp only [step, write] at hhandle
    split at hhandle
    · split at hhandle
      · exact Or.inl (hset hhandle nofun)
      · split at hhandle
        · exact Or.inl (hclose hhandle)
        · exact Or.inl hhandle
    · exact Or.inl hhandle
  | drop other =>
    simp only [step, drop] at hhandle
    split at hhandle
    · exact Or.inl (hclose hhandle)
    · exact Or.inl hhandle
  | poison other =>
    simp only [step, poison] at hhandle
    split at hhandle
    · exact Or.inl (hset hhandle nofun)
    · exact Or.inl hhandle
  | openState other fault =>
    cases fault with
    | some fault => exact Or.inl hhandle
    | none =>
      simp only [step, openState] at hhandle
      split at hhandle
      · exact Or.inl hhandle
      · simp only [add, set] at hhandle
        by_cases heq : id = sys.next
        · subst heq
          rw [Function.update_self, Option.some.injEq] at hhandle
          cases hhandle
          exact Or.inr (Or.inl ⟨rfl, rfl, rfl⟩)
        · rw [Function.update_of_ne heq] at hhandle
          exact Or.inl hhandle
  | tryState other ok =>
    simp only [step, tryState] at hhandle
    split at hhandle
    · rename_i owner hother
      split at hhandle
      · exact Or.inl (hclose hhandle)
      split at hhandle
      · exact Or.inl (hset hhandle nofun)
      · rename_i hok hbusy
        simp only [set] at hhandle
        by_cases heq : id = other
        · subst heq
          rw [Function.update_self, Option.some.injEq] at hhandle
          cases hhandle
          refine Or.inr (Or.inr ⟨hother, hbusy, ?_, ok, rfl⟩)
          simp only [step, tryState, hother, hok, hbusy]
          rfl
        · rw [Function.update_of_ne heq] at hhandle
          exact Or.inl hhandle
    · exact Or.inl hhandle
  | readState other ok =>
    simp only [step, readState] at hhandle
    split at hhandle
    · exact Or.inl (hclose hhandle)
    · exact Or.inl hhandle
  | closeState other =>
    simp only [step, closeState] at hhandle
    split at hhandle
    · exact Or.inl (hclose hhandle)
    · exact Or.inl hhandle
  | exit other =>
    simp only [step, System.exit, Option.filter_eq_some_iff] at hhandle
    exact Or.inl hhandle.1

/-- A code of an owner is what a refused call reads. -/
theorem refused_of_stated {owner : Owner} (howner : owner ≠ .unknown)
    (hmem : .stated id owner.code ∈ (sys.step event).2) :
    ∃ process, sys.handles id = some ⟨process, .refused⟩ ∧ sys.named = owner := by
  have hcode {text : List Char} (htext : Owner.parse text = .unknown) : owner.code ≠ text := by
    rintro rfl
    exact howner (owner.parse_code.symm.trans htext)
  have hfault (fault : Fault) : owner.code ≠ fault.code := hcode (by cases fault <;> decide +kernel)
  have havailable : owner.code ≠ "available".toList := hcode (by decide +kernel)
  have hfailed : owner.code ≠ "failed".toList := hcode (by decide +kernel)
  cases event with
  | openLease process wanted fault => cases fault <;> simp [step, openLease] at hmem
  | openState process fault =>
    cases fault with
    | some fault => simp [step, openState, hfault] at hmem
    | none =>
      simp only [step, openState] at hmem
      split at hmem
      · rw [List.mem_singleton, Act.stated.injEq] at hmem
        exact absurd hmem.2 havailable
      · exact nomatch hmem
  | tryLease other ok =>
    simp only [step, tryLease] at hmem
    split at hmem
    · split at hmem <;> simp at hmem
    · exact nomatch hmem
  | truncate other ok =>
    simp only [step, truncate] at hmem
    split at hmem
    · split at hmem <;> simp at hmem
    · exact nomatch hmem
  | write other short =>
    simp only [step, write] at hmem
    split at hmem
    · split at hmem
      · simp at hmem
      · split at hmem <;> simp at hmem
    · exact nomatch hmem
  | drop other =>
    simp only [step, drop] at hmem
    split at hmem <;> exact nomatch hmem
  | poison other =>
    simp only [step, poison] at hmem
    split at hmem <;> exact nomatch hmem
  | tryState other ok =>
    simp only [step, tryState] at hmem
    split at hmem
    · split at hmem
      · rw [List.mem_singleton, Act.stated.injEq] at hmem
        exact absurd hmem.2 hfailed
      · split at hmem <;> exact nomatch hmem
    · exact nomatch hmem
  | readState other ok =>
    simp only [step, readState] at hmem
    split at hmem
    · rename_i process hhandle
      rw [List.mem_singleton, Act.stated.injEq] at hmem
      obtain ⟨rfl, htext⟩ := hmem
      split at htext
      · refine ⟨process, hhandle, ?_⟩
        rw [← Owner.parse_code sys.named, ← htext, Owner.parse_code]
      · exact absurd htext hfailed
    · exact nomatch hmem
  | closeState other =>
    simp only [step, closeState] at hmem
    split at hmem
    · rw [List.mem_singleton, Act.stated.injEq] at hmem
      exact absurd hmem.2 havailable
    · exact nomatch hmem
  | exit process => exact nomatch hmem

/-! ## Whole runs -/

/-- The state call opened the file in this run. -/
def Opened (start : System) (events : List Event) (id : ℕ) : Prop :=
  ∃ before process during, events = before ++ .openState process none :: during ∧
    (run step start before).1.next = id

/-- A lease for the owner was held after the state call had opened the file. -/
def HeldDuring (start : System) (events : List Event) (id : ℕ) (owner : Owner) : Prop :=
  ∃ before process first last,
    events = before ++ .openState process none :: (first ++ last) ∧
      (run step start before).1.next = id ∧
      ∃ holder, (run step start (before ++ .openState process none :: first)).1.Leased holder owner

variable {start : System} {events : List Event}

theorem Opened.concat (h : Opened start events id) : Opened start (events ++ [event]) id := by
  obtain ⟨before, process, during, rfl, hnext⟩ := h
  exact ⟨before, process, during ++ [event], by simp, hnext⟩

theorem HeldDuring.concat {owner : Owner} (h : HeldDuring start events id owner) :
    HeldDuring start (events ++ [event]) id owner := by
  obtain ⟨before, process, first, last, rfl, hnext, hleased⟩ := h
  exact ⟨before, process, first, last ++ [event], by simp, hnext, hleased⟩

theorem Opened.heldDuring {holder : ℕ} {owner : Owner} (h : Opened start events id)
    (hleased : (run step start events).1.Leased holder owner) :
    HeldDuring start events id owner := by
  obtain ⟨before, process, during, rfl, hnext⟩ := h
  exact ⟨before, process, during, [], by simp, hnext, holder, hleased⟩

/-- A state call that is refused will read nobody's name, or that of a lease it has seen. -/
def Watched (start : System) (events : List Event) : Prop :=
  ∀ id process phase, (run step start events).1.handles id = some ⟨process, phase⟩ →
    phase.Watches → Opened start events id ∧
      (phase = .refused → (run step start events).1.named ≠ .unknown →
        HeldDuring start events id (run step start events).1.named)

/-- Whoever an orderly state call is refused by has written its name. -/
theorem Sound.leased_of_refused {ok : Bool} (h : sys.Sound)
    (horderly : sys.Orderly (.tryState id ok)) (hlock : sys.lock ≠ none)
    (hnamed : sys.named ≠ .unknown) : ∃ holder, sys.Leased holder sys.named := by
  obtain ⟨holder, ⟨process, phase⟩, -, hhandle, -, hholder⟩ := h.holder hlock
  rcases horderly with hunknown | hsettled
  · exact absurd hunknown hnamed
  have hcode (owner : Owner) (hcontents : phase.contents? = some owner.code) :
      sys.named = owner := by
    rw [named, h.contents holder _ _ hhandle hcontents, Option.getD_some,
      List.take_of_length_le owner.code_length_le, Owner.parse_code]
  rw [hholder] at hsettled
  cases phase with
  | truncated owner =>
    have hempty := h.contents holder _ [] hhandle rfl
    exact absurd (by simp [named, hempty]) hnamed
  | leased owner => exact ⟨holder, _, hhandle, by rw [hcode owner rfl]; rfl⟩
  | poisoned owner => exact ⟨holder, _, hhandle, by rw [hcode owner rfl]; rfl⟩
  | _ => exact nomatch hsettled

theorem Watched.concat (h : Watched start events) (hsound : (run step start events).1.Sound)
    (horderly : (run step start events).1.Orderly event) :
    Watched start (events ++ [event]) := by
  intro id process phase hhandle hphase
  rw [run_concat] at hhandle ⊢
  generalize hsys : (run step start events).1 = sys at *
  rcases step_watches hphase hhandle with hold | ⟨rfl, rfl, rfl⟩ | ⟨hold, hlock, hfile, ok, rfl⟩
  · rw [← hsys] at hold
    obtain ⟨hopened, hheld⟩ := h id process phase hold hphase
    refine ⟨hopened.concat, fun hrefused hnamed => ?_⟩
    rcases step_named sys event with hsame | hunknown | ⟨holder, owner, hleased, hname⟩
    · rw [hsame] at hnamed ⊢
      rw [hsys] at hheld
      exact (hheld hrefused hnamed).concat
    · exact absurd hunknown hnamed
    · have hstill : (run step start (events ++ [event])).1.Leased holder owner := by
        rw [run_concat, hsys]
        exact hleased
      rw [hname]
      exact hopened.concat.heldDuring hstill
  · exact ⟨⟨events, process, [], rfl, by rw [hsys]⟩, nofun⟩
  · rw [← hsys] at hold
    obtain ⟨hopened, -⟩ := h id process .reading hold (Or.inl rfl)
    refine ⟨hopened.concat, fun _ hnamed => ?_⟩
    have hsame : (sys.step (.tryState id ok)).1.named = sys.named := by
      rw [named, hfile, named]
    rw [hsame] at hnamed ⊢
    obtain ⟨holder, hleased⟩ := hsound.leased_of_refused horderly hlock hnamed
    rw [← hsys] at hleased ⊢
    exact (hopened.heldDuring hleased).concat

theorem run_watched (file : Option (List Char)) (events : List Event)
    (h : Along step Orderly { file := file } events) : Watched { file := file } events := by
  refine along_induction step ?_ ?_ events h
  · intro id process phase hhandle
    exact nomatch hhandle
  · intro events event hwatched horderly
    exact hwatched.concat (run_sound file events) horderly

/-- At most one lease is out, a poisoned one excludes all others until its process ends,
contention comes from an owner, and a name that is read is that of a lease held since the
call began. -/
theorem exclusion (file : Option (List Char)) (events : List Event) (event : Event)
    (h : Along step Orderly { file := file } (events ++ [event])) :
    let sys := (run step { file := file } events).1
    (∀ a b, sys.Owns a → sys.Owns b → a = b) ∧
      (∀ id process owner, sys.handles id = some ⟨process, .poisoned owner⟩ →
        ∀ more, .exit process ∉ more →
          (run step sys more).1.handles id = some ⟨process, .poisoned owner⟩ ∧
            ∀ other, (run step sys more).1.Owns other → other = id) ∧
      (∀ id, .contended id ∈ (sys.step event).2 → ∃ owner, sys.Owns owner) ∧
      ∀ id owner, owner ≠ .unknown → .stated id owner.code ∈ (sys.step event).2 →
        HeldDuring { file := file } events id owner := by
  intro sys
  obtain ⟨hrun, horderly⟩ := (along_concat step).mp h
  have hsound : sys.Sound := run_sound file events
  refine ⟨fun a b => hsound.owns_unique, ?_, fun id => owns_of_contended hsound horderly, ?_⟩
  · intro id process owner hpoisoned more hexit
    have hkept := run_poisoned hsound hpoisoned more hexit
    have hlater := run_invariant step hsound (fun _ event h => step_sound h event) more
    exact ⟨hkept, fun other hother => hlater.owns_unique hother ⟨_, hkept, rfl⟩⟩
  · intro id owner howner hmem
    obtain ⟨process, hhandle, rfl⟩ := refused_of_stated howner hmem
    exact ((run_watched file events hrun) id process .refused hhandle (Or.inr rfl)).2 rfl howner

/-- One daemon takes the lease while another asks for the state. -/
def busy : List Event :=
  [.openLease 0 .carPlay none, .openState 1 none, .tryLease 0 true, .truncate 0 true,
    .write 0 none, .tryState 1 true]

theorem busy_exclusion :
    .stated 1 Owner.carPlay.code ∈ ((run step {} busy).1.step (.readState 1 true)).2 ∧
      HeldDuring {} busy 1 .carPlay :=
  ⟨by decide,
    (exclusion none busy (.readState 1 true) (by decide)).2.2.2 1 .carPlay (by decide) (by decide)⟩

/-- While a state call has the lock, there is no owner. -/
theorem Sound.not_owns (h : sys.Sound) (hholder : sys.holder? = some .probed) (id : ℕ) :
    ¬sys.Owns id := by
  rintro ⟨handle, hhandle, howner⟩
  have hlock := h.lock_of_handle hhandle (Or.inl howner)
  simp only [holder?, hlock, Option.bind_some, hhandle, Option.map_some, Option.some.injEq]
    at hholder
  rw [hholder] at howner
  exact nomatch howner

theorem Sound.not_leased (h : sys.Sound) (hholder : sys.holder? = some .probed) (id : ℕ)
    (owner : Owner) : ¬sys.Leased id owner := by
  rintro ⟨handle, hhandle, hlease⟩
  refine h.not_owns hholder id ⟨handle, hhandle, ?_⟩
  cases hphase : handle.phase <;> rw [hphase] at hlease <;> first | rfl | exact nomatch hlease

/-- A lease was held and dropped, and then somebody looks. -/
def looked : List Event :=
  [.openLease 0 .carPlay none, .tryLease 0 true, .truncate 0 true, .write 0 none, .drop 0,
    .openState 1 none, .tryState 1 true]

/-- While one state call has the lock, an acquisition is refused without an owner, and a
second state call reports the owner that is gone. -/
theorem looked_excludes :
    (.contended 2 ∈ ((run step {} (looked ++ [.openLease 2 .bluetoothCall none])).1.step
        (.tryLease 2 true)).2 ∧
      ∀ owner, ¬(run step {} (looked ++ [.openLease 2 .bluetoothCall none])).1.Owns owner) ∧
    (run step {} looked).1.next = 2 ∧
      .stated 2 Owner.carPlay.code ∈
        ((run step {} (looked ++ [.openState 2 none, .tryState 2 true])).1.step
          (.readState 2 true)).2 ∧
      ∀ first ∈ [[], [.tryState 2 true]], ∀ holder owner,
        ¬(run step {} (looked ++ .openState 2 none :: first)).1.Leased holder owner := by
  refine ⟨⟨by decide, ?_⟩, by decide, by decide, ?_⟩
  · exact (run_sound none _).not_owns (by decide)
  · intro first hfirst
    refine (run_sound none _).not_leased ?_
    rcases List.mem_cons.mp hfirst with rfl | hfirst
    · decide
    · rw [List.mem_singleton.mp hfirst]
      decide

end System

end ProjectArgo.Microphone
