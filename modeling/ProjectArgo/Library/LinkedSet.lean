import Mathlib.Data.List.Nodup

/-!
# Sets that remember the order of insertion

A list without repetitions, gone through in the order in which its members came. Membership is
what the lemmas are about; the order matters only to who walks through `toList`.
-/
namespace Library

structure LinkedSet (α : Type*) where
  toList : List α
  nodup : toList.Nodup
  deriving DecidableEq

namespace LinkedSet

variable {α : Type*}

instance : Membership α (LinkedSet α) := ⟨fun set a => a ∈ set.toList⟩

instance : EmptyCollection (LinkedSet α) := ⟨⟨[], List.nodup_nil⟩⟩

instance : Inhabited (LinkedSet α) := ⟨∅⟩

theorem mem_def {a : α} {set : LinkedSet α} : a ∈ set ↔ a ∈ set.toList := Iff.rfl

@[simp] theorem not_mem_empty {a : α} : a ∉ (∅ : LinkedSet α) := List.not_mem_nil

def isEmpty (set : LinkedSet α) : Bool :=
  set.toList.isEmpty

variable [DecidableEq α] {a b : α} {set : LinkedSet α}

instance : Decidable (a ∈ set) := inferInstanceAs (Decidable (a ∈ set.toList))

def add (set : LinkedSet α) (a : α) : LinkedSet α :=
  if h : a ∈ set.toList then set
  else ⟨set.toList ++ [a], List.nodup_append.mpr ⟨set.nodup, List.nodup_singleton a, by
    rintro b hb c hc rfl
    rw [List.mem_singleton] at hc
    exact h (hc ▸ hb)⟩⟩

def remove (set : LinkedSet α) (a : α) : LinkedSet α :=
  ⟨set.toList.filter (· ≠ a), set.nodup.filter _⟩

def ofList (members : List α) : LinkedSet α :=
  members.foldl add ∅

@[simp] theorem mem_add : b ∈ set.add a ↔ b = a ∨ b ∈ set := by
  unfold add
  split
  · rename_i h
    constructor
    · exact Or.inr
    · rintro (rfl | hb)
      · exact h
      · exact hb
  · simp only [mem_def, List.mem_append, List.mem_singleton]
    exact or_comm

@[simp] theorem mem_remove : b ∈ set.remove a ↔ b ∈ set ∧ b ≠ a := by
  simp [remove, mem_def]

end LinkedSet

end Library
