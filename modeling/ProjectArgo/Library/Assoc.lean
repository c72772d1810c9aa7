import Mathlib

/-!
# Maps as lists of entries

A map in the order in which its keys were added. A value is replaced where it is.
-/
namespace Library.Assoc

variable {κ β : Type*} [DecidableEq κ]

def put (entries : List (κ × β)) (key : κ) (value : β) : List (κ × β) :=
  if entries.any (·.1 = key) then
    entries.map fun entry => if entry.1 = key then (key, value) else entry
  else entries ++ [(key, value)]

def erase (entries : List (κ × β)) (key : κ) : List (κ × β) := entries.filter (·.1 ≠ key)

variable {entries : List (κ × β)} {key other : κ} {value : β}

theorem lookup_cons_of_ne {entry : κ × β} (h : other ≠ entry.1) :
    (entry :: entries).lookup other = entries.lookup other := by
  rw [List.lookup_cons, show (other == entry.1) = false by simpa using h]

theorem lookup_eq_none_iff : entries.lookup key = none ↔ ∀ entry ∈ entries, entry.1 ≠ key := by
  rw [List.lookup_eq_none_iff]
  simp only [bne_iff_ne, ne_comm]

theorem mem_of_lookup (h : entries.lookup key = some value) : (key, value) ∈ entries := by
  obtain ⟨before, after, rfl, -⟩ := List.lookup_eq_some_iff.mp h
  exact List.mem_append_right _ (List.mem_cons_self ..)

theorem lookup_map_put : (entries.map fun entry =>
      if entry.1 = key then (key, value) else entry).lookup other =
    if other = key then (entries.lookup other).map fun _ => value else entries.lookup other := by
  induction entries with
  | nil => simp
  | cons entry entries ih =>
    rw [List.map_cons]
    by_cases hentry : entry.1 = key
    · rw [if_pos hentry]
      by_cases hother : other = key
      · rw [if_pos hother, List.lookup_cons, List.lookup_cons, hentry, hother, beq_self_eq_true]
        rfl
      · rw [lookup_cons_of_ne hother, lookup_cons_of_ne (hentry ▸ hother), ih]
    · rw [if_neg hentry]
      by_cases hother : other = entry.1
      · rw [if_neg (hother ▸ hentry), List.lookup_cons, List.lookup_cons, hother,
          beq_self_eq_true]
      · rw [lookup_cons_of_ne hother, lookup_cons_of_ne hother, ih]

theorem lookup_put :
    (put entries key value).lookup other =
      if other = key then some value else entries.lookup other := by
  unfold put
  split
  · rename_i hany
    obtain ⟨entry, hmem, hkey⟩ := List.any_eq_true.mp hany
    rw [lookup_map_put]
    split
    · rename_i hother
      cases hlookup : entries.lookup other with
      | none =>
        have hne := lookup_eq_none_iff.mp hlookup entry hmem
        exact absurd ((of_decide_eq_true hkey).trans hother.symm) hne
      | some found => rfl
    · rfl
  · rename_i hany
    rw [List.lookup_append]
    split
    · rename_i hother
      have hnone : entries.lookup other = none := by
        refine lookup_eq_none_iff.mpr fun entry hmem hkey => hany ?_
        exact List.any_eq_true.mpr ⟨entry, hmem, decide_eq_true (hkey.trans hother)⟩
      rw [hnone, hother, List.lookup_cons, beq_self_eq_true]
      rfl
    · rename_i hother
      rw [lookup_cons_of_ne hother, List.lookup_nil, Option.or_none]

theorem lookup_erase :
    (erase entries key).lookup other = if other = key then none else entries.lookup other := by
  unfold erase
  induction entries with
  | nil => simp
  | cons entry entries ih =>
    rw [List.filter_cons]
    by_cases hentry : entry.1 = key
    · rw [if_neg (by simpa using hentry), ih]
      split
      · rfl
      · rename_i hother
        rw [lookup_cons_of_ne (hentry ▸ hother)]
    · rw [if_pos (by simpa using hentry)]
      by_cases hother : other = entry.1
      · rw [if_neg (hother ▸ hentry), List.lookup_cons, List.lookup_cons, hother,
          beq_self_eq_true]
      · rw [lookup_cons_of_ne hother, lookup_cons_of_ne hother, ih]

theorem mem_put {entry : κ × β} (h : entry ∈ put entries key value) :
    entry = (key, value) ∨ entry ∈ entries := by
  unfold put at h
  split at h
  · obtain ⟨old, hmem, rfl⟩ := List.mem_map.mp h
    split
    · exact .inl rfl
    · exact .inr hmem
  · rcases List.mem_append.mp h with hold | hnew
    · exact .inr hold
    · exact .inl (List.mem_singleton.mp hnew)

theorem mem_put_of_ne {entry : κ × β} (h : entry ∈ entries) (hne : entry.1 ≠ key) :
    entry ∈ put entries key value := by
  unfold put
  split
  · exact List.mem_map.mpr ⟨entry, h, if_neg hne⟩
  · exact List.mem_append_left _ h

theorem mem_put_self : (key, value) ∈ put entries key value := by
  unfold put
  split
  · rename_i hany
    obtain ⟨entry, hmem, hkey⟩ := List.any_eq_true.mp hany
    exact List.mem_map.mpr ⟨entry, hmem, if_pos (of_decide_eq_true hkey)⟩
  · exact List.mem_append_right _ (List.mem_singleton_self _)

/-! ## Keys and sums -/

theorem keys_put : (put entries key value).map Prod.fst =
    if entries.any (·.1 = key) then entries.map Prod.fst else entries.map Prod.fst ++ [key] := by
  unfold put
  split
  · rw [List.map_map]
    refine List.map_congr_left fun entry _ => ?_
    simp only [Function.comp_apply]
    split
    · rename_i hkey
      exact hkey.symm
    · rfl
  · rw [List.map_append]
    rfl

theorem mem_keys_iff : key ∈ entries.map Prod.fst ↔ entries.any (·.1 = key) := by
  simp [List.any_eq_true]

theorem nodup_put (h : (entries.map Prod.fst).Nodup) :
    ((put entries key value).map Prod.fst).Nodup := by
  rw [keys_put]
  split
  · exact h
  · rename_i hkey
    rw [← mem_keys_iff] at hkey
    refine List.nodup_append.mpr ⟨h, List.pairwise_singleton _ key, ?_⟩
    rintro other hother _ hlast rfl
    rw [List.mem_singleton.mp hlast] at hother
    exact hkey hother

theorem nodup_erase (h : (entries.map Prod.fst).Nodup) :
    ((erase entries key).map Prod.fst).Nodup :=
  h.sublist (List.filter_sublist.map _)

theorem put_of_lookup_none (h : entries.lookup key = none) :
    put entries key value = entries ++ [(key, value)] := by
  unfold put
  rw [if_neg]
  intro hany
  obtain ⟨entry, hmem, hkey⟩ := List.any_eq_true.mp hany
  exact lookup_eq_none_iff.mp h entry hmem (of_decide_eq_true hkey)

theorem erase_of_lookup_none (h : entries.lookup key = none) : erase entries key = entries :=
  List.filter_eq_self.mpr fun entry hmem => decide_eq_true (lookup_eq_none_iff.mp h entry hmem)

theorem erase_put : erase (put entries key value) key = erase entries key := by
  unfold erase put
  split
  · rw [List.filter_map]
    have hsame : (fun entry : κ × β => decide (entry.1 ≠ key)) ∘ (fun entry =>
        if entry.1 = key then (key, value) else entry) = fun entry => decide (entry.1 ≠ key) := by
      funext entry
      by_cases hentry : entry.1 = key <;> simp [hentry]
    rw [hsame]
    refine (List.map_congr_left fun entry hentry => ?_).trans (List.map_id _)
    rw [List.mem_filter, decide_eq_true_eq] at hentry
    exact if_neg hentry.2
  · rw [List.filter_append, List.filter_cons_of_neg (by simp), List.filter_nil, List.append_nil]

/-- A sum over the entries, without the one of a key. -/
theorem sum_erase (h : (entries.map Prod.fst).Nodup) (hlookup : entries.lookup key = some value)
    (size : κ × β → ℕ) :
    ((erase entries key).map size).sum + size (key, value) = (entries.map size).sum := by
  induction entries with
  | nil => cases hlookup
  | cons entry entries ih =>
    rw [List.map_cons, List.nodup_cons] at h
    by_cases hentry : entry.1 = key
    · obtain ⟨first, old⟩ := entry
      obtain rfl : first = key := hentry
      rw [List.lookup_cons, beq_self_eq_true] at hlookup
      cases hlookup
      have hnone : entries.lookup first = none := by
        refine lookup_eq_none_iff.mpr fun other hmem hkey => h.1 ?_
        exact List.mem_map.mpr ⟨other, hmem, hkey⟩
      have herase : erase ((first, value) :: entries) first = entries := by
        rw [erase, List.filter_cons_of_neg (by simp)]
        exact erase_of_lookup_none hnone
      rw [herase, List.map_cons, List.sum_cons, Nat.add_comm]
    · rw [lookup_cons_of_ne fun hkey => hentry hkey.symm] at hlookup
      have hrest := ih h.2 hlookup
      have herase : erase (entry :: entries) key = entry :: erase entries key :=
        List.filter_cons_of_pos (by simpa using hentry)
      rw [herase, List.map_cons, List.sum_cons, List.map_cons, List.sum_cons]
      omega

/-- A sum over the entries, with the new value of a key for the old one. -/
theorem sum_put {old : β} (h : (entries.map Prod.fst).Nodup)
    (hlookup : entries.lookup key = some old) (size : κ × β → ℕ) :
    ((put entries key value).map size).sum + size (key, old) =
      (entries.map size).sum + size (key, value) := by
  have hold := sum_erase h hlookup size
  have hput : (put entries key value).lookup key = some value := by
    rw [lookup_put, if_pos rfl]
  have hnodup : ((put entries key value).map Prod.fst).Nodup := nodup_put h
  have hnew := sum_erase hnodup hput size
  rw [erase_put] at hnew
  omega

end Library.Assoc
