import Mathlib

/-!
# Ordered maps with natural keys

Lookups after an update, by equality of keys, and where a key stands among the
entries in their order.
-/
namespace Library.NatMap

variable {β : Type*} (map : Std.ExtTreeMap ℕ β)

theorem getElem?_insert (key other : ℕ) (value : β) :
    (map.insert key value)[other]? = if key = other then some value else map[other]? := by
  rw [Std.ExtTreeMap.getElem?_insert]
  simp only [Std.LawfulEqCmp.compare_eq_iff_eq]

theorem getElem?_erase (key other : ℕ) :
    (map.erase key)[other]? = if key = other then none else map[other]? := by
  rw [Std.ExtTreeMap.getElem?_erase]
  simp only [Std.LawfulEqCmp.compare_eq_iff_eq]

theorem not_mem_iff {key : ℕ} : key ∉ map ↔ map[key]? = none := by
  rw [Std.ExtTreeMap.mem_iff_isSome_getElem?]
  simp

theorem mem_iff {key : ℕ} : key ∈ map ↔ ∃ value, map[key]? = some value := by
  rw [Std.ExtTreeMap.mem_iff_isSome_getElem?, Option.isSome_iff_exists]

theorem keys_ne : map.toList.Pairwise fun a b => a.1 ≠ b.1 := by
  apply (Std.ExtTreeMap.distinct_keys_toList (t := map)).imp
  intro a b h heq
  exact h (by simp [heq])

/-- The entry at the first position with a key that is there. -/
theorem getElem?_findIdx {key : ℕ} {value : β} (h : map[key]? = some value) :
    map.toList[map.toList.findIdx (·.1 = key)]? = some (key, value) := by
  have hmem : (key, value) ∈ map.toList := Std.ExtTreeMap.mem_toList_iff_getElem?_eq_some.mpr h
  have hlt : map.toList.findIdx (·.1 = key) < map.toList.length :=
    List.findIdx_lt_length_of_exists ⟨_, hmem, by simp⟩
  have hkey := List.findIdx_getElem (w := hlt)
  rw [decide_eq_true_eq] at hkey
  rw [List.getElem?_eq_getElem hlt]
  generalize hentry : map.toList[map.toList.findIdx (·.1 = key)] = entry at hkey
  obtain ⟨found, other⟩ := entry
  have hfound : map[found]? = some other := by
    rw [← Std.ExtTreeMap.mem_toList_iff_getElem?_eq_some, ← hentry]
    exact List.getElem_mem hlt
  dsimp only at hkey
  subst hkey
  rw [hfound] at h
  rw [Option.some.inj h]

/-- Removing the first entry with a key leaves the entries with other keys. -/
theorem eraseIdx_findIdx {entries : List (ℕ × β)} (h : entries.Pairwise fun a b => a.1 ≠ b.1)
    (key : ℕ) :
    entries.eraseIdx (entries.findIdx (·.1 = key)) = entries.filter (·.1 ≠ key) := by
  induction entries with
  | nil => rfl
  | cons entry entries ih =>
    obtain ⟨hfirst, hrest⟩ := List.pairwise_cons.mp h
    rw [List.findIdx_cons]
    by_cases hkey : entry.1 = key
    · have hall : entries.filter (·.1 ≠ key) = entries := by
        apply List.filter_eq_self.mpr
        intro other hmem
        simpa [hkey] using (hfirst other hmem).symm
      rw [List.filter_cons_of_neg (by simpa using hkey), hall]
      simp [hkey]
    · simp [hkey, ih hrest]

end Library.NatMap
