import Mathlib.Data.List.Sort
import ProjectArgo.CarPlay.Tlv

/-!
# What a type-length-value message decodes to

An encoded list of fields decodes to the map of these fields. The map is ordered by kind, so
the order of the list is lost unless it was that order. A kind may come again only as the
continuation of a full part.
-/
namespace ProjectArgo.CarPlay.Tlv

open Library.Fragments

/-- The fields in the order of the map. -/
def iter (fields : Tlv) : List (UInt8 × List UInt8) :=
  (fields.entries.map fun entry => (entry.1, entry.2)).insertionSort fun a b => a.1 ≤ b.1

/-- One part of a field. -/
def encodePart (kind : UInt8) (part : List UInt8) : List UInt8 :=
  kind :: UInt8.ofNat part.length :: part

theorem toNat_length {part : List UInt8} (h : part.length ≤ 255) :
    (UInt8.ofNat part.length).toNat = part.length := by
  rw [UInt8.toNat_ofNat']
  omega

variable {fields : Tlv} {kind : UInt8}

/-- A part of a new field. -/
theorem decodeParts_first {part : List UInt8} (previous : Option (UInt8 × ℕ))
    (hpart : part.length ≤ 255) (hnew : kind ∉ fields) (hroom : fields.entries.length < 16)
    (rest : List UInt8) :
    decodeParts fields previous (encodePart kind part ++ rest) =
      decodeParts (fields.insert kind part) (some (kind, part.length)) rest := by
  have hlength := toNat_length hpart
  rw [encodePart, List.cons_append, List.cons_append,
    decodeParts_cons previous (by rw [hlength, List.length_append]; omega) hnew hroom, hlength,
    List.take_left, List.drop_left]

/-- A part behind a full part of the same field. -/
theorem decodeParts_continued {part value : List UInt8} (hpart : part.length ≤ 255)
    (hnew : kind ∉ fields) (hroom : fields.entries.length < 16) (rest : List UInt8) :
    decodeParts (fields.insert kind value) (some (kind, 255)) (encodePart kind part ++ rest) =
      decodeParts (fields.insert kind (value ++ part)) (some (kind, part.length)) rest := by
  have hlength := toNat_length hpart
  have hentries : ¬(fields.insert kind (value ++ part)).entries.length > 16 := by
    rw [AList.entries_insert_of_notMem hnew, List.length_cons]
    omega
  rw [encodePart, List.cons_append, List.cons_append, decodeParts]
  dsimp only
  rw [hlength, if_neg (by rw [List.length_append]; omega), if_neg fun h => h.2 rfl,
    AList.lookup_insert, Option.getD_some, AList.insert_insert, List.take_left, List.drop_left,
    if_neg hentries]

/-- The parts of a value, where the first of them is taken as part of the field. Each part but the
last is full, so that the next one continues it. -/
theorem decodeParts_chunks (hnew : kind ∉ fields) (hroom : fields.entries.length < 16)
    {bytes : List UInt8} (hbytes : bytes ≠ []) (rest : List UInt8) {start : Tlv}
    {previous : Option (UInt8 × ℕ)} {value : List UInt8}
    (hfirst : ∀ part rest, part.length ≤ 255 →
      decodeParts start previous (encodePart kind part ++ rest) =
        decodeParts (fields.insert kind (value ++ part)) (some (kind, part.length)) rest) :
    ∃ last, decodeParts start previous ((chunks 255 bytes).flatMap (encodePart kind) ++ rest) =
      decodeParts (fields.insert kind (value ++ bytes)) (some (kind, last)) rest := by
  induction bytes using chunks.induct 255 generalizing start previous value with
  | case1 bytes h => exact (hbytes (h.resolve_left (by decide))).elim
  | case2 bytes h ih =>
    rw [chunks, if_neg h, List.flatMap_cons, List.append_assoc,
      hfirst _ _ (List.length_take_le _ _)]
    by_cases hlong : bytes.length ≤ 255
    · refine ⟨bytes.length, ?_⟩
      rw [List.drop_eq_nil_of_le hlong, List.take_of_length_le hlong, chunks, if_pos (.inr rfl)]
      rfl
    · have hfull : (bytes.take 255).length = 255 := by
        rw [List.length_take]
        omega
      have hdrop : bytes.drop 255 ≠ [] := fun hnil => hlong (List.drop_eq_nil_iff.mp hnil)
      obtain ⟨last, hlast⟩ := ih hdrop fun part rest hpart =>
        decodeParts_continued hpart hnew hroom rest
      refine ⟨last, ?_⟩
      rw [hfull, hlast, List.append_assoc, List.take_append_drop]

/-- A field of any length, whatever follows it. -/
theorem decodeParts_field (previous : Option (UInt8 × ℕ)) (hnew : kind ∉ fields)
    (hroom : fields.entries.length < 16) (bytes rest : List UInt8) :
    ∃ last, decodeParts fields previous (encodeField kind bytes ++ rest) =
      decodeParts (fields.insert kind bytes) (some (kind, last)) rest := by
  unfold encodeField
  split
  · rename_i hempty
    rw [hempty]
    exact ⟨0, @decodeParts_first fields kind [] previous (Nat.zero_le _) hnew hroom rest⟩
  · rename_i hbytes
    exact @decodeParts_chunks fields kind hnew hroom bytes hbytes rest fields previous []
      fun part rest hpart => decodeParts_first previous hpart hnew hroom rest

/-! ## Round trip -/

/-- The fields are added to the map one after the other. -/
def insertAll (fields : Tlv) (items : List (UInt8 × List UInt8)) : Tlv :=
  items.foldl (fun fields item => fields.insert item.1 item.2) fields

theorem decodeParts_encodeFields {items : List (UInt8 × List UInt8)} {seen output : List UInt8}
    (previous : Option (UInt8 × ℕ)) (hseen : ∀ kind, kind ∈ fields ↔ kind ∈ seen)
    (hroom : fields.entries.length + items.length ≤ 16)
    (h : encodeFields seen items = .ok output) :
    decodeParts fields previous output = .ok (insertAll fields items) ∧
      (insertAll fields items).entries.Perm
        ((items.map fun item => ⟨item.1, item.2⟩) ++ fields.entries) ∧
      (items.map Prod.fst).Nodup ∧ ∀ item ∈ items, item.1 ∉ seen := by
  induction items generalizing fields seen output previous with
  | nil =>
    obtain rfl := Except.ok.inj h
    rw [decodeParts]
    exact ⟨rfl, .refl _, List.nodup_nil, fun _ hitem => by cases hitem⟩
  | cons item items ih =>
    obtain ⟨kind, bytes⟩ := item
    rw [encodeFields] at h
    split at h
    · cases h
    rename_i hkind
    split at h
    · cases h
    rename_i rest hrest
    obtain rfl := Except.ok.inj h
    have hnew : kind ∉ fields := fun hmem => hkind ((hseen kind).mp hmem)
    have hlength : (fields.insert kind bytes).entries.length = fields.entries.length + 1 := by
      rw [AList.entries_insert_of_notMem hnew, List.length_cons]
    rw [List.length_cons] at hroom
    obtain ⟨last, hfield⟩ := decodeParts_field previous hnew (by omega) bytes rest
    have hseen' : ∀ k, k ∈ fields.insert kind bytes ↔ k ∈ kind :: seen := by
      intro k
      rw [AList.mem_insert, List.mem_cons, hseen]
    obtain ⟨hdecode, hentries, hnodup, hfresh⟩ := ih (some (kind, last)) hseen' (by omega) hrest
    refine ⟨hfield.trans hdecode, ?_, ?_, ?_⟩
    · rw [AList.entries_insert_of_notMem hnew] at hentries
      exact hentries.trans List.perm_middle
    · rw [List.map_cons, List.nodup_cons]
      refine ⟨?_, hnodup⟩
      intro hmem
      obtain ⟨other, hother, hsame⟩ := List.mem_map.mp hmem
      exact hfresh other hother (hsame ▸ List.mem_cons_self)
    · rw [List.forall_mem_cons]
      exact ⟨hkind, fun other hother hmem => hfresh other hother (List.mem_cons_of_mem _ hmem)⟩

/-- The order of the map. -/
theorem iter_pairwise (fields : Tlv) : (iter fields).Pairwise fun a b => a.1 ≤ b.1 := by
  have : Std.Total fun a b : UInt8 × List UInt8 => a.1 ≤ b.1 :=
    ⟨fun a b => UInt8.le_total a.1 b.1⟩
  have : IsTrans (UInt8 × List UInt8) fun a b => a.1 ≤ b.1 := ⟨fun _ _ _ => UInt8.le_trans⟩
  exact List.pairwise_insertionSort _ _

theorem iter_perm {fields : Tlv} {items : List (UInt8 × List UInt8)}
    (h : fields.entries.Perm (items.map fun item => ⟨item.1, item.2⟩)) :
    (iter fields).Perm items := by
  have hmap := h.map fun entry : (_ : UInt8) × List UInt8 => (entry.1, entry.2)
  rw [List.map_map] at hmap
  refine (List.perm_insertionSort _ _).trans (hmap.trans ?_)
  exact .of_eq (List.map_id _)

/-- Kinds that differ are in strict order. -/
theorem iter_strict {fields : Tlv} {items : List (UInt8 × List UInt8)}
    (hperm : (iter fields).Perm items) (hnodup : (items.map Prod.fst).Nodup) :
    (iter fields).Pairwise fun a b => a.1 < b.1 := by
  have hkinds : ((iter fields).map Prod.fst).Nodup := (hperm.map Prod.fst).nodup_iff.mpr hnodup
  have hne := List.pairwise_map.mp hkinds
  refine ((iter_pairwise fields).and hne).imp ?_
  rintro a b ⟨hle, hne⟩
  exact UInt8.lt_of_le_of_ne hle hne

/-- A list in the order of the map is the map. -/
theorem iter_eq {fields : Tlv} {items : List (UInt8 × List UInt8)}
    (hperm : (iter fields).Perm items) (hnodup : (items.map Prod.fst).Nodup)
    (hsorted : items.Pairwise fun a b => a.1 < b.1) : iter fields = items := by
  refine hperm.eq_of_pairwise ?_ (iter_strict hperm hnodup) hsorted
  intro a b _ _ hab hba
  exact (UInt8.lt_asymm hab hba).elim

/-! ## Repeated kinds -/

/-- The parts of a message, one after the other. -/
def encodeAll (parts : List (UInt8 × List UInt8)) : List UInt8 :=
  parts.flatMap fun part => encodePart part.1 part.2

/-- Either some part is rejected, or its kind is known from then on. -/
theorem decodeParts_encodeAll {parts : List (UInt8 × List UInt8)}
    (hparts : ∀ part ∈ parts, part.2.length ≤ 255) (fields : Tlv) (previous : Option (UInt8 × ℕ))
    (rest : List UInt8) :
    (∃ e, decodeParts fields previous (encodeAll parts ++ rest) = .error e) ∨
      ∃ fields', decodeParts fields previous (encodeAll parts ++ rest) =
          decodeParts fields' ((parts.getLast?.map fun part => (part.1, part.2.length)).or previous)
            rest ∧
        (∀ kind ∈ fields, kind ∈ fields') ∧ ∀ part ∈ parts, part.1 ∈ fields' := by
  induction parts generalizing fields previous with
  | nil => exact .inr ⟨fields, rfl, fun _ hkind => hkind, fun _ hpart => nomatch hpart⟩
  | cons part parts ih =>
    obtain ⟨kind, value⟩ := part
    rw [List.forall_mem_cons] at hparts
    have hlength := toNat_length hparts.1
    have hbytes : encodeAll ((kind, value) :: parts) ++ rest =
        kind :: UInt8.ofNat value.length :: (value ++ (encodeAll parts ++ rest)) := by
      simp [encodeAll, encodePart]
    rw [hbytes, decodeParts]
    dsimp only at hlength ⊢
    rw [hlength, if_neg (by rw [List.length_append]; omega), List.take_left, List.drop_left]
    split
    · exact .inl ⟨_, rfl⟩
    split
    · exact .inl ⟨_, rfl⟩
    generalize hnext : fields.insert kind ((fields.lookup kind).getD [] ++ value) = next
    have hkind : kind ∈ next := by
      rw [← hnext, AList.mem_insert]
      exact .inl rfl
    have hkept : ∀ k ∈ fields, k ∈ next := by
      intro k hk
      rw [← hnext, AList.mem_insert]
      exact .inr hk
    rcases ih hparts.2 next (some (kind, value.length)) with herror | ⟨fields', heq, hmore, hall⟩
    · exact .inl herror
    · refine .inr ⟨fields', ?_, fun k hk => hmore k (hkept k hk), ?_⟩
      · rw [heq, List.getLast?_cons]
        cases parts.getLast? <;> rfl
      · rw [List.forall_mem_cons]
        exact ⟨hmore kind hkind, hall⟩

/-- A kind that comes again is rejected unless a full part of it stands right before. -/
theorem decode_repeated {parts : List (UInt8 × List UInt8)} {kind size : UInt8} {rest : List UInt8}
    (hparts : ∀ part ∈ parts, part.2.length ≤ 255) (hseen : ∃ part ∈ parts, part.1 = kind)
    (hlast : ∀ part, parts.getLast? = some part → ¬(part.1 = kind ∧ part.2.length = 255)) :
    ∃ e, decode (encodeAll parts ++ kind :: size :: rest) = .error e := by
  unfold decode
  split
  · exact ⟨_, rfl⟩
  rcases decodeParts_encodeAll hparts ∅ none (kind :: size :: rest) with herror |
    ⟨fields, heq, -, hall⟩
  · exact herror
  obtain ⟨part, hmem, rfl⟩ := hseen
  rw [heq, Option.or_none, decodeParts]
  dsimp only
  split
  · exact ⟨_, rfl⟩
  · have hbad : (parts.getLast?.map fun part => (part.1, part.2.length)) ≠ some (part.1, 255) := by
      intro hsame
      obtain ⟨last, hlast', hpair⟩ := Option.map_eq_some_iff.mp hsame
      exact hlast last hlast' (Prod.mk.inj hpair)
    rw [if_pos ⟨hall part hmem, hbad⟩]
    exact ⟨_, rfl⟩

theorem encode_full {value : List UInt8} (h : value.length = 255) :
    encode [(3, value)] = .ok (3 :: 255 :: value) := by
  have hne : value ≠ [] := List.ne_nil_of_length_pos (by omega)
  have hchunks : chunks 255 value = [value] := by
    rw [chunks, if_neg (by simp [hne]), List.take_of_length_le h.le,
      List.drop_eq_nil_of_le h.le, chunks, if_pos (.inr rfl)]
  simp [encode, encodeFields, encodeField, hchunks, hne, h]

end ProjectArgo.CarPlay.Tlv
