import Mathlib.Data.List.Basic
import Mathlib.Logic.Function.Basic

/-!
# Writing keys one after another

A value that is spread over several keys is written key by key. A write that fails or is
cut off leaves the keys before it new and those after it old, so what can be found
afterwards is the old value overwritten on the first keys.
-/
namespace Library.Writing

variable {κ : Type*} [DecidableEq κ] {β : κ → Type*}

/-- What a write comes to; one that is cut off by the end of the process may have been done. -/
inductive WriteOutcome
  | written
  | failed
  | ended (written : Bool)

inductive WriteEnding
  | completed
  | failed
  | ended
  deriving DecidableEq

/-- The old value with the new one at some keys. -/
def overwrite (keys : List κ) (new old : (key : κ) → β key) : (key : κ) → β key :=
  fun key => if key ∈ keys then new key else old key

/-- Writes the keys in order; a key whose value is not accepted is a failure of its own. -/
def writeAll (accepts : κ → Bool) (new : (key : κ) → β key) (outcome : κ → WriteOutcome) :
    List κ → ((key : κ) → β key) → ((key : κ) → β key) × WriteEnding
  | [], old => (old, .completed)
  | key :: rest, old =>
    if accepts key then
      match outcome key with
      | .written => writeAll accepts new outcome rest (Function.update old key (new key))
      | .failed => (old, .failed)
      | .ended written => (if written then Function.update old key (new key) else old, .ended)
    else (old, .failed)

variable {accepts : κ → Bool} {new old : (key : κ) → β key} {outcome : κ → WriteOutcome}

theorem overwrite_nil : overwrite [] new old = old := by
  funext key
  simp [overwrite]

theorem overwrite_cons {key : κ} {keys : List κ} :
    overwrite keys new (Function.update old key (new key)) = overwrite (key :: keys) new old := by
  funext other
  unfold overwrite
  by_cases hmem : other ∈ keys
  · rw [if_pos hmem, if_pos (List.mem_cons_of_mem _ hmem)]
  · rw [if_neg hmem]
    by_cases hkey : other = key
    · subst hkey
      rw [Function.update_self, if_pos (List.mem_cons_self ..)]
    · rw [Function.update_of_ne hkey, if_neg (by simp [hmem, hkey])]

/-- What has been written where the writing ended. -/
structure Written (accepts : κ → Bool) (new old : (key : κ) → β key) (before after : List κ)
    (result : ((key : κ) → β key) × WriteEnding) : Prop where
  accepted : ∀ key ∈ before, accepts key
  stored : result.1 = overwrite before new old
  completed : result.2 = .completed → after = []
  failed : result.2 = .failed → after ≠ []

theorem writeAll_written (keys : List κ) :
    ∃ before after, keys = before ++ after ∧
      Written accepts new old before after (writeAll accepts new outcome keys old) := by
  induction keys generalizing old with
  | nil =>
    refine ⟨[], [], rfl, ?_⟩
    exact ⟨nofun, overwrite_nil.symm, fun _ => rfl, nofun⟩
  | cons key rest ih =>
    have hstopped : ∀ ending : WriteEnding, ending ≠ .completed →
        Written accepts new old [] (key :: rest) (old, ending) := by
      intro ending hending
      exact ⟨nofun, overwrite_nil.symm, fun hcompleted => absurd hcompleted hending, nofun⟩
    unfold writeAll
    split
    · next haccepts =>
      cases outcome key with
      | failed => exact ⟨[], key :: rest, rfl, hstopped _ (by decide)⟩
      | ended written =>
        cases written with
        | false => exact ⟨[], key :: rest, rfl, hstopped _ (by decide)⟩
        | true =>
          refine ⟨[key], rest, rfl, ?_, ?_, nofun, nofun⟩
          · intro other hother
            rw [List.mem_singleton.mp hother]
            exact haccepts
          · rw [← overwrite_cons, overwrite_nil]
            rfl
      | written =>
        obtain ⟨before, after, hsplit, h⟩ := @ih (Function.update old key (new key))
        refine ⟨key :: before, after, by rw [hsplit, List.cons_append], ?_⟩
        refine ⟨?_, h.stored.trans overwrite_cons, h.completed, h.failed⟩
        intro other hother
        rcases List.mem_cons.mp hother with rfl | hother
        · exact haccepts
        · exact h.accepted other hother
    · exact ⟨[], key :: rest, rfl, hstopped _ (by decide)⟩

/-- Writing goes on through accepted keys whose writes are done. -/
theorem writeAll_append {before after : List κ} (haccepts : ∀ key ∈ before, accepts key)
    (houtcome : ∀ key ∈ before, outcome key = .written) :
    writeAll accepts new outcome (before ++ after) old =
      writeAll accepts new outcome after (overwrite before new old) := by
  induction before generalizing old with
  | nil => rw [overwrite_nil, List.nil_append]
  | cons key before ih =>
    rw [List.cons_append, writeAll, if_pos (haccepts key (List.mem_cons_self ..)),
      houtcome key (List.mem_cons_self ..)]
    dsimp only
    rw [ih (fun other hother => haccepts other (List.mem_cons_of_mem _ hother))
      (fun other hother => houtcome other (List.mem_cons_of_mem _ hother)), overwrite_cons]

/-- Every write may be the one that fails. -/
theorem exists_failed {before after : List κ} {key : κ} (haccepts : ∀ key ∈ before, accepts key)
    (hfresh : key ∉ before) : ∃ outcome : κ → WriteOutcome,
      writeAll accepts new outcome (before ++ key :: after) old =
        (overwrite before new old, .failed) := by
  refine ⟨fun other => if other ∈ before then .written else .failed, ?_⟩
  rw [writeAll_append haccepts fun other hother => if_pos hother, writeAll, if_neg hfresh]
  split
  · rfl
  · rfl

/-- Either all keys are accepted, or there is a first one that is not. -/
theorem accepted_or_first (keys : List κ) : (∀ key ∈ keys, accepts key) ∨
    ∃ before key after, keys = before ++ key :: after ∧ (∀ other ∈ before, accepts other) ∧
      ¬accepts key := by
  induction keys with
  | nil => exact Or.inl nofun
  | cons key rest ih =>
    by_cases haccepts : accepts key
    · rcases ih with hall | ⟨before, other, after, rfl, hbefore, hother⟩
      · exact Or.inl (List.forall_mem_cons.mpr ⟨haccepts, hall⟩)
      · refine Or.inr ⟨key :: before, other, after, rfl, ?_, hother⟩
        exact List.forall_mem_cons.mpr ⟨haccepts, hbefore⟩
    · exact Or.inr ⟨[], key, rest, rfl, nofun, haccepts⟩

/-- All writes may be done. -/
theorem exists_completed {keys : List κ} (haccepts : ∀ key ∈ keys, accepts key) :
    writeAll accepts new (fun _ => .written) keys old = (overwrite keys new old, .completed) := by
  have h : writeAll accepts new (fun _ => .written) (keys ++ []) old = _ :=
    writeAll_append haccepts fun _ _ => rfl
  rw [List.append_nil] at h
  exact h

end Library.Writing
