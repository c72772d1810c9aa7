import ProjectArgo.Library.Run
import ProjectArgo.Settings.SettingsService

/-!
# Settings survive crashes

The three files hold one document at every moment: that of the file, or without a file
that of the backup. A write exchanges it at the one step that moves the temporary file,
so what a crash or a failure leaves is the old document or the new one. Loading brings
it back, unless the backup cannot be moved: then the service starts from defaults, and
its next write deletes the only copy.
-/
namespace ProjectArgo.Settings

open Library Library.Crashing Library.Run

/-! ## Maps -/

namespace JsonMap

variable {fields : JsonMap} {key other : String} {value : Json}

theorem lookup_cons (name : String) (old : Json) (rest : JsonMap) (other : String) :
    ((name, old) :: rest).lookup other = if other = name then some old else rest.lookup other := by
  rw [List.lookup_cons]
  by_cases heq : other = name
  · simp [heq]
  · rw [beq_eq_false_iff_ne.mpr heq, if_neg heq]

theorem lookup_put (fields : JsonMap) (key other : String) (value : Json) :
    (fields.put key value).lookup other = if other = key then some value else fields.lookup other := by
  have hreplace : ∀ fields : JsonMap,
      (fields.map fun field => if field.1 = key then (key, value) else field).lookup other =
        if other = key ∧ fields.any (·.1 = key) then some value else fields.lookup other := by
    intro fields
    induction fields with
    | nil => simp
    | cons field rest ih =>
      obtain ⟨name, old⟩ := field
      rw [List.map_cons, List.any_cons, lookup_cons]
      by_cases hname : name = key
      · rw [if_pos hname, lookup_cons, ih]
        by_cases hother : other = key <;> simp [hname, hother]
      · rw [if_neg hname, lookup_cons, ih]
        by_cases hother : other = key
        · subst hother
          simp only [hname, Ne.symm hname, if_false, decide_false, Bool.false_or]
        · simp [hother]
  have happend : ∀ fields : JsonMap, ¬fields.any (·.1 = key) →
      (fields ++ [(key, value)]).lookup other =
        if other = key then some value else fields.lookup other := by
    intro fields h
    induction fields with
    | nil => exact lookup_cons key value [] other
    | cons field rest ih =>
      obtain ⟨name, old⟩ := field
      rw [List.any_cons, Bool.or_eq_true, not_or] at h
      obtain ⟨hname, hrest⟩ := h
      have hne : ¬name = key := fun heq => hname (decide_eq_true heq)
      rw [List.cons_append, lookup_cons, lookup_cons, ih hrest]
      by_cases hother : other = key
      · subst hother
        simp [Ne.symm hne]
      · simp [hother]
  unfold put
  split_ifs with hany hother hother
  · rw [hreplace, if_pos ⟨hother, hany⟩]
  · rw [hreplace, if_neg fun h => hother h.1]
  · rw [happend fields hany, if_pos hother]
  · rw [happend fields hany, if_neg hother]

theorem lookup_remove (fields : JsonMap) (key other : String) :
    (fields.remove key).lookup other = if other = key then none else fields.lookup other := by
  induction fields with
  | nil => simp [remove]
  | cons field rest ih =>
    obtain ⟨name, old⟩ := field
    unfold remove at ih ⊢
    rw [List.filter_cons, lookup_cons]
    by_cases hname : name = key
    · rw [if_neg (by simp [hname]), ih]
      by_cases hother : other = key <;> simp [hname, hother]
    · rw [if_pos (by simp [hname]), lookup_cons, ih]
      by_cases hother : other = key
      · subst hother
        simp [Ne.symm hname]
      · simp [hother]

theorem put_of_not_any (h : ¬fields.any (·.1 = key)) :
    fields.put key value = fields ++ [(key, value)] := if_neg h

theorem remove_of_not_any (h : ¬fields.any (·.1 = key)) : fields.remove key = fields := by
  refine List.filter_eq_self.mpr fun field hmem => ?_
  rw [decide_eq_true_eq]
  exact fun heq => h (List.any_eq_true.mpr ⟨field, hmem, decide_eq_true heq⟩)

end JsonMap

/-! ## Documents in files -/

/-- A document as `read` makes them: of the present version, and without the two root
fields that are not additional. -/
structure SettingsDocument.Valid (document : SettingsDocument) : Prop where
  version : document.schemaVersion = currentSettingsSchemaVersion
  root : ∀ field ∈ document.additionalRootValues,
    field.1 ≠ "schemaVersion" ∧ field.1 ≠ "values"

theorem valid_default : ({} : SettingsDocument).Valid := ⟨rfl, nofun⟩

theorem SettingsDocument.Valid.withValues {document : SettingsDocument} (h : document.Valid)
    (values : JsonMap) : (document.withValues values).Valid := ⟨h.version, h.root⟩

/-- What is written is read back. -/
theorem decode_encode {document : SettingsDocument} (h : document.Valid) :
    decode (encode document) = some document := by
  obtain ⟨version, values, root⟩ := document
  obtain ⟨hversion, hroot⟩ := h
  obtain rfl : version = currentSettingsSchemaVersion := hversion
  have hfirst : ¬root.any (·.1 = "schemaVersion") := by
    intro hany
    obtain ⟨field, hmem, heq⟩ := List.any_eq_true.mp hany
    exact (hroot field hmem).1 (of_decide_eq_true heq)
  have hvalues : ¬root.any (·.1 = "values") := by
    intro hany
    obtain ⟨field, hmem, heq⟩ := List.any_eq_true.mp hany
    exact (hroot field hmem).2 (of_decide_eq_true heq)
  have hsecond : ¬(root ++ [("schemaVersion", Json.int currentSettingsSchemaVersion)]).any
      (·.1 = "values") := by
    rw [List.any_append, Bool.or_eq_true]
    exact not_or.mpr ⟨hvalues, by simp⟩
  have hlookup : (JsonMap.put (JsonMap.put root "schemaVersion"
      (.int currentSettingsSchemaVersion)) "values" (.object values)).lookup "schemaVersion" =
        some (.int currentSettingsSchemaVersion) := by
    rw [JsonMap.lookup_put, if_neg (by decide), JsonMap.lookup_put, if_pos rfl]
  have hlookup' : (JsonMap.put (JsonMap.put root "schemaVersion"
      (.int currentSettingsSchemaVersion)) "values" (.object values)).lookup "values" =
        some (.object values) := by
    rw [JsonMap.lookup_put, if_pos rfl]
  simp only [encode, decode, hlookup, hlookup', if_true, Option.some.injEq,
    SettingsDocument.mk.injEq, true_and]
  rw [JsonMap.put_of_not_any hfirst, JsonMap.put_of_not_any hsecond]
  unfold JsonMap.remove
  rw [List.append_assoc, List.filter_append, List.filter_append]
  have hkept : root.filter (·.1 ≠ "schemaVersion") = root := JsonMap.remove_of_not_any hfirst
  have hkept' : root.filter (·.1 ≠ "values") = root := JsonMap.remove_of_not_any hvalues
  rw [hkept, hkept']
  simp

theorem valid_of_decode {content : Content} {document : SettingsDocument}
    (h : decode content = some document) : document.Valid := by
  unfold decode at h
  split at h
  · split at h
    · split_ifs at h with hversion
      obtain rfl := Option.some.inj h
      refine ⟨hversion, fun field hmem => ?_⟩
      obtain ⟨hmem, hvalues⟩ := List.mem_filter.mp hmem
      obtain ⟨-, hschema⟩ := List.mem_filter.mp hmem
      exact ⟨of_decide_eq_true hschema, of_decide_eq_true hvalues⟩
    · exact nomatch h
  · exact nomatch h

/-- The document a file stands for. One that cannot be read stands for none. -/
def denoted (content : Content) : SettingsDocument := (decode content).getD {}

/-- The document that the disk holds. A file that cannot be read has no backup beside it. -/
structure Holds (disk : Disk) (document : SettingsDocument) : Prop where
  file : ∀ content, disk.file = some content →
    denoted content = document ∧ (decode content = none → disk.backup = none)
  backup : disk.file = none → ∀ content, disk.backup = some content → denoted content = document
  neither : disk.file = none → disk.backup = none → document = {}

/-! ## Writing -/

section Writing

variable {old next : SettingsDocument}

theorem Holds.same {disk other : Disk} (h : Holds disk old) (hfile : other.file = disk.file)
    (hbackup : other.backup = disk.backup) : Holds other old := by
  obtain ⟨file, backup, neither⟩ := h
  exact ⟨hfile ▸ hbackup ▸ file, hfile ▸ hbackup ▸ backup, hfile ▸ hbackup ▸ neither⟩

/-- A step on the disk that keeps the old document. -/
def Keeping (old next : SettingsDocument) {α : Type} (returns : α → Disk → Prop) : Spec Disk α :=
  ⟨returns, (Holds · old), fun disk => Holds disk old ∨ Holds disk next⟩

/-- What a step makes of the two files that count. -/
theorem triple_atomically {pre post : Disk → Prop} {effect : Disk → Disk}
    (hpre : ∀ disk, pre disk → Holds disk old)
    (heffect : ∀ disk, pre disk → post (effect disk) ∧ Holds (effect disk) old) :
    Triple pre (atomically effect) (Keeping old next fun _ => post) := by
  refine triple_act (fun disk h => (heffect disk h).1) hpre fun disk h => ?_
  exact ⟨Or.inl (hpre disk h), Or.inl (hpre disk h), Or.inl (heffect disk h).2⟩

theorem triple_whenever {pre post : Disk → Prop} {condition : Disk → Bool}
    {step : Crashing Disk PUnit} {spec : Spec Disk PUnit} (hreturns : spec.returns = fun _ => post)
    (hstep : Triple (fun disk => pre disk ∧ condition disk = true) step spec)
    (hskip : ∀ disk, pre disk → condition disk = false → post disk) :
    Triple pre (whenever condition step) spec := by
  refine triple_look fun value => ?_
  refine triple_ite (fun hcondition => ?_) fun hcondition => ?_
  · refine triple_mono hstep ?_ (fun _ _ h => h) (fun _ h => h) fun _ h => h
    rintro disk ⟨hpre, rfl⟩
    exact ⟨hpre, hcondition⟩
  · refine triple_pure ?_
    rintro disk ⟨hpre, rfl⟩
    rw [hreturns]
    exact hskip disk hpre (Bool.eq_false_iff.mpr hcondition)

/-- The temporary file is of no account. -/
theorem triple_deleteTemporary {pre : Disk → Prop} (hpre : ∀ disk, pre disk → Holds disk old)
    (hsame : ∀ disk : Disk, pre disk → pre { disk with temporary := none }) :
    Triple pre (whenever (·.temporary.isSome) deleteTemporary) (Keeping old next fun _ => pre) := by
  refine triple_whenever rfl ?_ fun _ h _ => h
  exact triple_atomically (fun disk h => hpre disk h.1)
    fun disk h => ⟨hsame disk h.1, (hpre disk h.1).same rfl rfl⟩

/-- Once the original is moved, the backup has the old document, and there is no file. -/
def Moved (old : SettingsDocument) (content : Content) (disk : Disk) : Prop :=
  Holds disk old ∧ disk.file = none ∧ disk.temporary = some content

theorem triple_moveOriginal {content : Content} :
    Triple (fun disk => Holds disk old ∧ disk.temporary = some content)
      JsonFileSettingsStore.moveOriginal (Keeping old next fun _ => Moved old content) := by
  refine triple_look fun disk => ?_
  refine triple_ite (fun hfile => ?_) fun hfile => ?_
  · refine triple_bind (fun _ disk => (Holds disk old ∧ disk.temporary = some content) ∧
      disk.file.isSome ∧ disk.backup = none) ?_ fun _ => ?_
    · refine triple_whenever rfl ?_ ?_
      · refine triple_atomically (fun disk h => h.1.1.1) ?_
        rintro disk ⟨⟨⟨hholds, htemporary⟩, rfl⟩, -⟩
        have hholds' : Holds { disk with backup := none } old := by
          refine ⟨fun content hcontent => ⟨(hholds.file content hcontent).1, fun _ => rfl⟩,
            fun hnone => ?_, fun hnone => ?_⟩
          · exact absurd hfile (by simp [show disk.file = none from hnone])
          · exact absurd hfile (by simp [show disk.file = none from hnone])
        exact ⟨⟨⟨hholds', htemporary⟩, hfile, rfl⟩, hholds'⟩
      · rintro disk ⟨⟨hholds, htemporary⟩, rfl⟩ hbackup
        exact ⟨⟨hholds, htemporary⟩, hfile, by simpa using hbackup⟩
    · refine triple_bind (fun _ => Moved old content) ?_ fun _ => triple_pure fun _ h => h
      refine triple_atomically (fun disk h => h.1.1) ?_
      rintro disk ⟨⟨hholds, htemporary⟩, hfile, hbackup⟩
      obtain ⟨present, hpresent⟩ := Option.isSome_iff_exists.mp hfile
      have hmoved : Holds disk.fileToBackup old := by
        refine ⟨nofun, fun _ content hcontent => ?_, fun _ hnone => ?_⟩
        · exact (hholds.file content hcontent).1
        · exact nomatch hpresent.symm.trans hnone
      exact ⟨⟨hmoved, rfl, htemporary⟩, hmoved⟩
  · refine triple_pure ?_
    rintro disk ⟨⟨hholds, htemporary⟩, rfl⟩
    exact ⟨hholds, by simpa using hfile, htemporary⟩

theorem triple_putBack {moved : Bool} :
    Triple (fun disk => Holds disk old ∧ disk.file = none)
      (JsonFileSettingsStore.putBack moved) (Keeping old next fun _ _ => False) := by
  refine triple_bind (fun _ disk => Holds disk old ∧ disk.file = none) ?_ fun _ => ?_
  · exact triple_deleteTemporary (fun disk h => h.1) fun disk h => ⟨h.1.same rfl rfl, h.2⟩
  · refine triple_bind (fun _ disk => Holds disk old) ?_ fun _ => triple_throw fun _ h => h
    refine triple_whenever rfl ?_ fun _ h _ => h.1
    refine triple_atomically (fun disk h => h.1.1) ?_
    rintro disk ⟨⟨hholds, hfile⟩, hcondition⟩
    have hback : Holds disk.backupToFile old := by
      refine ⟨fun content hcontent => ⟨hholds.backup hfile content hcontent, fun _ => rfl⟩,
        fun _ => nofun, fun hnone _ => ?_⟩
      have hsome : disk.backup.isSome = true := by
        simp only [Bool.and_eq_true] at hcondition
        exact hcondition.1.2
      exact absurd hsome (by simp [show disk.backup = none from hnone])
    exact ⟨hback, hback⟩

/-- A write leaves the new document when it returns, the old one when it throws, and one
of them when it crashes. -/
theorem triple_write (hnext : next.Valid) :
    Triple (Holds · old) (JsonFileSettingsStore.write next)
      (Keeping old next fun _ disk => Holds disk next) := by
  have hdecode := decode_encode hnext
  refine triple_ite (fun hversion => absurd hnext.version hversion) fun _ => ?_
  refine triple_bind (fun _ => (Holds · old)) ?_ fun _ => ?_
  · exact triple_atomically (fun _ h => h) fun _ h => ⟨h, h⟩
  refine triple_bind (fun _ => (Holds · old)) ?_ fun _ => ?_
  · exact triple_deleteTemporary (fun _ h => h) fun _ h => h.same rfl rfl
  refine triple_bind (fun _ disk => Holds disk old ∧ disk.temporary = some (encode next)) ?_
    fun _ => ?_
  · refine triple_act (fun disk h => ⟨h.same rfl rfl, rfl⟩) (fun _ h => h) fun disk h => ?_
    exact ⟨Or.inl h, Or.inl (h.same rfl rfl), Or.inl (h.same rfl rfl)⟩
  refine triple_bind (fun _ => Moved old (encode next)) triple_moveOriginal fun moved => ?_
  refine triple_bind (fun _ disk => Holds disk next ∧ disk.file = some (encode next)) ?_ fun _ => ?_
  · refine triple_catching (fun disk => Holds disk old ∧ disk.file = none) ?_ ?_
    · have hplaced : ∀ disk, Moved old (encode next) disk → Holds disk.temporaryToFile next := by
        rintro disk ⟨-, -, htemporary⟩
        refine ⟨fun content hcontent => ?_, fun hnone => ?_, fun hnone => ?_⟩
        · obtain rfl := Option.some.inj (htemporary.symm.trans hcontent)
          refine ⟨by simp [denoted, hdecode], fun hunreadable => ?_⟩
          exact nomatch hdecode.symm.trans hunreadable
        · exact nomatch htemporary.symm.trans hnone
        · exact nomatch htemporary.symm.trans hnone
      refine triple_act (fun disk h => ⟨hplaced disk h, h.2.2⟩) (fun disk h => ⟨h.1, h.2.1⟩)
        fun disk h => ⟨Or.inl h.1, Or.inl h.1, Or.inr (hplaced disk h)⟩
    · exact triple_mono triple_putBack (fun _ h => h) (fun _ _ h => h.elim) (fun _ h => h)
        fun _ h => h
  · refine triple_whenever rfl ?_ fun _ h _ => h.1
    refine triple_catching (Holds · next) ?_ (triple_pure fun _ h => h)
    have hdeleted : ∀ disk : Disk, Holds disk next ∧ disk.file = some (encode next) →
        Holds { disk with backup := none } next := by
      rintro disk ⟨hholds, hfile⟩
      exact ⟨fun content hcontent => ⟨(hholds.file content hcontent).1, fun _ => rfl⟩,
        fun hnone => (nomatch hfile.symm.trans hnone), fun hnone => (nomatch hfile.symm.trans hnone)⟩
    exact triple_act (fun disk h => hdeleted disk h.1) (fun disk h => h.1.1)
      fun disk h => ⟨Or.inr h.1.1, Or.inr h.1.1, Or.inr (hdeleted disk h.1)⟩

end Writing

/-! ## Reading -/

/-- A backup that has no file beside it can be moved back. -/
def Recovers (disk : Disk) (outcomes : List Outcome) : Prop :=
  disk.file.isNone → disk.backup.isSome → outcomes.head? ≠ some .fail ∧
    (outcomes.head? = some .complete → outcomes.tail.head? ≠ some .fail)

instance (disk : Disk) (outcomes : List Outcome) : Decidable (Recovers disk outcomes) :=
  inferInstanceAs (Decidable (_ → _ → _ ∧ (_ → _)))

variable {document : SettingsDocument} {disk : Disk} {outcomes : List Outcome}

/-- What reading leaves, if it ends. -/
def Reading (document : SettingsDocument) {α : Type} (returns : α → Disk → Prop) : Spec Disk α :=
  ⟨returns, fun _ => False, (Holds · document)⟩

theorem holds_backupToFile (h : Holds disk document) (hfile : disk.file.isNone)
    (hbackup : disk.backup.isSome) : Holds disk.backupToFile document := by
  refine ⟨fun content hcontent => ?_, fun hnone => ?_, fun hnone => ?_⟩
  · exact ⟨h.backup (Option.isNone_iff_eq_none.mp hfile) content hcontent, fun _ => rfl⟩
  · exact absurd hbackup (by simp [show disk.backup = none from hnone])
  · exact absurd hbackup (by simp [show disk.backup = none from hnone])

/-- A backup that stands for the document is the file afterwards. -/
theorem recover_holds (h : Holds disk document) (hrecovers : Recovers disk outcomes) :
    (Reading document fun _ disk => Holds disk document ∧
      (disk.file = none → disk.backup = none)).Holds
        (JsonFileSettingsStore.recoverInterruptedReplacement disk outcomes) := by
  by_cases hlost : disk.file.isNone = true ∧ disk.backup.isSome = true
  · obtain ⟨hfile, hbackup⟩ := hlost
    obtain ⟨hfirst, hsecond⟩ := hrecovers hfile hbackup
    have hback := holds_backupToFile h hfile hbackup
    have hdone : disk.backupToFile.file = none → disk.backupToFile.backup = none := fun _ => rfl
    have hrun : JsonFileSettingsStore.recoverInterruptedReplacement disk outcomes =
        catching (do createParent; atomically Disk.backupToFile) skip disk outcomes := by
      change (if _ then _ else _ : Crashing Disk PUnit) disk outcomes = _
      rw [if_pos (by simp [hfile, hbackup])]
    rw [hrun]
    rcases outcomes with _ | ⟨first, _ | ⟨second, rest⟩⟩
    · exact ⟨hback, hdone⟩
    · cases first with
      | complete => exact ⟨hback, hdone⟩
      | fail => exact absurd rfl hfirst
      | before | halfway | after => exact h
    · cases first with
      | fail => exact absurd rfl hfirst
      | before | halfway | after => exact h
      | complete =>
        cases second with
        | complete => exact ⟨hback, hdone⟩
        | fail => exact absurd rfl (hsecond rfl)
        | before | halfway => exact h
        | after => exact hback
  · have hrun : JsonFileSettingsStore.recoverInterruptedReplacement disk outcomes =
        skip disk outcomes := by
      change (if _ then _ else _ : Crashing Disk PUnit) disk outcomes = _
      rw [if_neg (by simpa using hlost)]
    rw [hrun]
    refine ⟨h, fun hnone => ?_⟩
    by_contra hsome
    exact hlost ⟨Option.isNone_iff_eq_none.mpr hnone, Option.isSome_iff_ne_none.mpr hsome⟩

/-- Reading finds the document that the disk holds, and leaves it there. -/
theorem read_holds (h : Holds disk document) (hrecovers : Recovers disk outcomes) :
    (Reading document fun found disk => found = document ∧ Holds disk document).Holds
      (JsonFileSettingsStore.read disk outcomes) := by
  refine holds_bind _ (recover_holds h hrecovers) fun _ => ?_
  refine triple_look fun disk => ?_
  split
  · rename_i hfile
    refine triple_pure ?_
    rintro disk ⟨⟨hholds, hbackup⟩, rfl⟩
    exact ⟨(hholds.neither hfile (hbackup hfile)).symm, hholds⟩
  · rename_i content hfile
    split
    · rename_i found hdecode
      refine triple_pure ?_
      rintro disk ⟨⟨hholds, -⟩, rfl⟩
      refine ⟨?_, hholds⟩
      rw [← (hholds.file content hfile).1, denoted, hdecode]
      rfl
    · rename_i hdecode
      refine triple_bind (fun _ disk => document = {} ∧ Holds disk document) ?_ fun _ =>
        triple_pure fun _ h => ⟨h.1.symm, h.2⟩
      refine triple_whenever rfl ?_ ?_
      · refine triple_catching (fun disk => document = {} ∧ Holds disk document) ?_
          (triple_pure fun _ h => h)
        have hput : ∀ other, ((Holds other document ∧ (other.file = none → other.backup = none)) ∧
            id other = disk) ∧ other.file.isSome = true →
            document = {} ∧ Holds other document ∧ Holds other.fileToCorrupt document := by
          rintro other ⟨⟨⟨hholds, -⟩, rfl⟩, -⟩
          obtain ⟨hdenoted, hbackup⟩ := hholds.file content hfile
          have hempty : document = {} := by
            rw [← hdenoted, denoted, hdecode]
            rfl
          have hnone : other.fileToCorrupt.backup = none := hbackup hdecode
          exact ⟨hempty, hholds, nofun, fun _ _ hsome => (nomatch hnone.symm.trans hsome),
            fun _ _ => hempty⟩
        exact triple_act (fun other h => ⟨(hput other h).1, (hput other h).2.2⟩)
          (fun other h => ⟨(hput other h).1, (hput other h).2.1⟩)
          fun other h => ⟨(hput other h).2.1, (hput other h).2.1, (hput other h).2.2⟩
      · rintro other ⟨-, rfl⟩ hnone
        have hsome : other.file.isSome = true := Option.isSome_iff_exists.mpr ⟨content, hfile⟩
        exact nomatch hnone.symm.trans hsome

/-! ## Keys -/

variable {V : Type} {schema : SettingsSchema V}

/-- The value of a key is what its raw value stands for, or its default where there is
none. -/
def Decoded (key : SettingKey V) (raw : JsonMap) (value : Option V) : Prop :=
  match raw.lookup key.id with
  | none => value = some key.defaultValue
  | some stored => ∃ decoded, key.deserialize stored = some decoded ∧ value = some decoded

/-- The raw values that are left after loading. -/
def SettingsSchema.stored (schema : SettingsSchema V) (values : JsonMap) : JsonMap :=
  (schema.keys.foldl SettingsService.loadKey (fun _ => none, values)).2

theorem loadKey_decoded (loaded : (String → Option V) × JsonMap) (key : SettingKey V) :
    Decoded key (SettingsService.loadKey loaded key).2
      ((SettingsService.loadKey loaded key).1 key.id) := by
  unfold SettingsService.loadKey Decoded
  cases hlookup : loaded.2.lookup key.id with
  | none => simp [hlookup]
  | some stored =>
    cases hdecoded : key.deserialize stored with
    | none => simp [JsonMap.lookup_remove, hdecoded]
    | some decoded => simp [hlookup, hdecoded]

theorem loadKey_other (loaded : (String → Option V) × JsonMap) (key : SettingKey V) {id : String}
    (hne : id ≠ key.id) :
    (SettingsService.loadKey loaded key).1 id = loaded.1 id ∧
      (SettingsService.loadKey loaded key).2.lookup id = loaded.2.lookup id := by
  unfold SettingsService.loadKey
  split
  · exact ⟨Function.update_of_ne hne .., rfl⟩
  · split
    · exact ⟨Function.update_of_ne hne .., rfl⟩
    · refine ⟨Function.update_of_ne hne .., ?_⟩
      rw [JsonMap.lookup_remove, if_neg hne]

theorem foldl_loadKey_other (keys : List (SettingKey V)) (loaded : (String → Option V) × JsonMap)
    {id : String} (hid : id ∉ keys.map (·.id)) :
    (keys.foldl SettingsService.loadKey loaded).1 id = loaded.1 id ∧
      (keys.foldl SettingsService.loadKey loaded).2.lookup id = loaded.2.lookup id := by
  induction keys generalizing loaded with
  | nil => exact ⟨rfl, rfl⟩
  | cons key rest ih =>
    rw [List.map_cons, List.mem_cons, not_or] at hid
    obtain ⟨hvalue, hraw⟩ := ih (SettingsService.loadKey loaded key) hid.2
    obtain ⟨hvalue', hraw'⟩ := loadKey_other loaded key hid.1
    exact ⟨hvalue.trans hvalue', hraw.trans hraw'⟩

theorem Decoded.congr {key : SettingKey V} {first second : JsonMap} {value other : Option V}
    (h : Decoded key first value) (hraw : second.lookup key.id = first.lookup key.id)
    (hvalue : other = value) : Decoded key second other := by
  unfold Decoded at h ⊢
  rw [hraw, hvalue]
  exact h

theorem foldl_loadKey_decoded (keys : List (SettingKey V)) (hnodup : (keys.map (·.id)).Nodup)
    (loaded : (String → Option V) × JsonMap) {key : SettingKey V} (hmem : key ∈ keys) :
    Decoded key (keys.foldl SettingsService.loadKey loaded).2
      ((keys.foldl SettingsService.loadKey loaded).1 key.id) := by
  induction keys generalizing loaded with
  | nil => exact nomatch hmem
  | cons first rest ih =>
    rw [List.map_cons, List.nodup_cons] at hnodup
    rcases List.mem_cons.mp hmem with rfl | hmem
    · obtain ⟨hvalue, hraw⟩ :=
        foldl_loadKey_other rest (SettingsService.loadKey loaded key) hnodup.1
      exact (loadKey_decoded loaded key).congr hraw hvalue
    · exact ih hnodup.2 _ hmem

/-- Nothing is left out where every raw value stands for something. -/
theorem foldl_loadKey_raw (keys : List (SettingKey V)) (loaded : (String → Option V) × JsonMap)
    (h : ∀ key ∈ keys, ∀ stored, loaded.2.lookup key.id = some stored →
      (key.deserialize stored).isSome) :
    (keys.foldl SettingsService.loadKey loaded).2 = loaded.2 := by
  induction keys generalizing loaded with
  | nil => rfl
  | cons key rest ih =>
    have hraw : (SettingsService.loadKey loaded key).2 = loaded.2 := by
      unfold SettingsService.loadKey
      split
      · rfl
      · rename_i stored hlookup
        obtain ⟨decoded, hdecoded⟩ :=
          Option.isSome_iff_exists.mp (h key (List.mem_cons_self ..) stored hlookup)
        rw [hdecoded]
    rw [List.foldl_cons, ih, hraw]
    rw [hraw]
    exact fun other hother => h other (List.mem_cons_of_mem _ hother)

theorem stored_eq {values : JsonMap} (h : ∀ key ∈ schema.keys, ∃ value, Decoded key values value) :
    schema.stored values = values := by
  refine foldl_loadKey_raw schema.keys _ fun key hmem stored hlookup => ?_
  obtain ⟨value, hdecoded⟩ := h key hmem
  have hsome : values.lookup key.id = some stored := hlookup
  simp only [Decoded, hsome] at hdecoded
  obtain ⟨decoded, hdecoded, -⟩ := hdecoded
  rw [hdecoded]
  rfl

/-! ## Runs -/

/-- The raw values that a key may have: that of its last acknowledged write, and those
of its writes that a crash has interrupted since. -/
def allowAct (sets : String → Set (Option Json)) : Act → String → Set (Option Json)
  | .acknowledged id raw => Function.update sets id {raw}
  | .interrupted id raw => Function.update sets id (insert raw (sets id))
  | .loaded | .failed | .rejected => sets

def Allowed (start : String → Set (Option Json)) (history : List (Event V × List Act)) :
    String → Set (Option Json) :=
  (history.flatMap (·.2)).foldl allowAct start

/-- What the service has in memory of the document on the disk. -/
structure Serves (schema : SettingsSchema V) (document : SettingsDocument)
    (service : SettingsService V) : Prop where
  inMemory : service.document = document.withValues (schema.stored document.values)
  rawValues : service.rawValues = schema.stored document.values
  values : ∀ key ∈ schema.keys, Decoded key service.rawValues (service.values key.id)

structure Keeps (schema : SettingsSchema V) (sets : String → Set (Option Json)) (root : JsonMap)
    (system : System V) (document : SettingsDocument) : Prop where
  disk : Holds system.disk document
  valid : document.Valid
  root : document.additionalRootValues = root
  raw : ∀ id, (schema.stored document.values).lookup id ∈ sets id
  running : ∀ service, system.running = some service → Serves schema document service

variable {sets : String → Set (Option Json)} {root : JsonMap} {system : System V}
  {service : SettingsService V}

theorem load_holds (schema : SettingsSchema V) (hdisk : Holds disk document)
    (hrecovers : Recovers disk outcomes) :
    (Reading document fun service disk => Serves schema document service ∧
      Holds disk document).Holds (SettingsService.load schema disk outcomes) := by
  refine holds_bind _ (read_holds hdisk hrecovers) fun found => triple_pure ?_
  rintro disk ⟨rfl, hdisk⟩
  exact ⟨⟨rfl, rfl, fun key hmem => foldl_loadKey_decoded schema.keys schema.nodup _ hmem⟩, hdisk⟩

/-- The document that a write of one key makes serves what it will have in memory. -/
theorem serves_next {raw : JsonMap} {values : String → Option V}
    (hdecoded : ∀ key ∈ schema.keys, Decoded key raw (values key.id)) :
    Serves schema (service.document.withValues raw)
      ⟨service.document.withValues raw, values, raw⟩ := by
  have hstored : schema.stored raw = raw :=
    stored_eq fun key hmem => ⟨_, hdecoded key hmem⟩
  refine ⟨?_, ?_, hdecoded⟩
  · change _ = (service.document.withValues raw).withValues (schema.stored raw)
    rw [hstored]
    rfl
  · exact hstored.symm

/-- A write of one key with what it leaves in memory. -/
def saving (service : SettingsService V) (raw : JsonMap) (values : String → Option V) :
    Crashing Disk (SettingsService V) := do
  JsonFileSettingsStore.write (service.document.withValues raw)
  pure ⟨service.document.withValues raw, values, raw⟩

/-- A write of one key, however it ends. -/
theorem keeps_saving {id : String} {stored : Option Json} {raw : JsonMap}
    {values : String → Option V} (h : Keeps schema sets root system document)
    (hrunning : system.running = some service)
    (hlookup : ∀ other, raw.lookup other =
      if other = id then stored else service.rawValues.lookup other)
    (hdecoded : ∀ key ∈ schema.keys, Decoded key raw (values key.id)) :
    let after := system.runs service id stored outcomes (saving service raw values)
    (∃ next, Keeps schema (after.2.foldl allowAct sets) root after.1 next) ∧
      (.failed ∈ after.2 → after.1.running = system.running) := by
  have hserves := h.running service hrunning
  have hnext : (service.document.withValues raw).Valid := by
    rw [hserves.inMemory]
    exact h.valid.withValues _
  have hmember : ∀ other, (schema.stored (service.document.withValues raw).values).lookup other =
      if other = id then stored else (schema.stored document.values).lookup other := by
    intro other
    have hstored : schema.stored raw = raw := stored_eq fun key hmem => ⟨_, hdecoded key hmem⟩
    change (schema.stored raw).lookup other = _
    rw [hstored, hlookup, hserves.rawValues]
  have hroot : (service.document.withValues raw).additionalRootValues = root := by
    rw [hserves.inMemory]
    exact h.root
  have hwritten : Spec.Holds (Keeping document (service.document.withValues raw)
      fun (next : SettingsService V) disk => Holds disk (service.document.withValues raw) ∧
        next = ⟨service.document.withValues raw, values, raw⟩)
      (saving service raw values system.disk outcomes) :=
    holds_bind _ (@triple_write document _ hnext system.disk outcomes h.disk)
      fun _ => triple_pure fun disk hdisk => ⟨hdisk, rfl⟩
  unfold System.runs
  rcases hrun : saving service raw values system.disk outcomes with ⟨next | _ | _, disk, rest⟩
  · rw [hrun] at hwritten
    obtain ⟨hdisk, rfl⟩ := hwritten
    refine ⟨⟨_, hdisk, hnext, hroot, fun other => ?_, ?_⟩, by simp⟩
    · rw [hmember]
      change _ ∈ Function.update sets id {stored} other
      split_ifs with heq
      · rw [heq, Function.update_self]
        exact Set.mem_singleton _
      · rw [Function.update_of_ne heq]
        exact h.raw other
    · intro reached hreached
      obtain rfl := Option.some.inj hreached
      exact serves_next hdecoded
  · rw [hrun] at hwritten
    refine ⟨⟨document, hwritten, h.valid, h.root, h.raw, ?_⟩, fun _ => hrunning.symm⟩
    intro reached hreached
    obtain rfl := Option.some.inj hreached
    exact hserves
  · rw [hrun] at hwritten
    have hmore : ∀ other value, (value ∈ sets other ∨ other = id ∧ value = stored) →
        value ∈ [Act.interrupted id stored].foldl allowAct sets other := by
      intro other value hor
      change _ ∈ Function.update sets id (insert stored (sets id)) other
      by_cases heq : other = id
      · subst heq
        rw [Function.update_self]
        rcases hor with hmem | ⟨-, rfl⟩
        · exact Set.mem_insert_of_mem _ hmem
        · exact Set.mem_insert _ _
      · rw [Function.update_of_ne heq]
        exact hor.resolve_right fun hid => heq hid.1
    refine ⟨?_, by simp⟩
    rcases hwritten with hdisk | hdisk
    · exact ⟨document, hdisk, h.valid, h.root, fun other => hmore _ _ (Or.inl (h.raw other)), nofun⟩
    · refine ⟨_, hdisk, hnext, hroot, fun other => hmore _ _ ?_, nofun⟩
      rw [hmember]
      split_ifs with heq
      · exact Or.inr ⟨heq, rfl⟩
      · exact Or.inl (h.raw other)

/-- The key that is set holds what it was set to, and the others what they held. -/
theorem decoded_set {key : SettingKey V} {serialized : Json} {normalized : V}
    (hserves : Serves schema document service) (hkey : key ∈ schema.keys)
    (hnormalized : key.deserialize serialized = some normalized) :
    ∀ other ∈ schema.keys, Decoded other (service.rawValues.put key.id serialized)
      (Function.update service.values key.id (some normalized) other.id) := by
  intro other hother
  by_cases heq : other.id = key.id
  · obtain rfl := List.inj_on_of_nodup_map schema.nodup hother hkey heq
    unfold Decoded
    rw [JsonMap.lookup_put, if_pos rfl, Function.update_self]
    exact ⟨normalized, hnormalized, rfl⟩
  · refine (hserves.values other hother).congr ?_ (Function.update_of_ne heq ..)
    rw [JsonMap.lookup_put, if_neg heq]

theorem decoded_reset {key : SettingKey V} (hserves : Serves schema document service)
    (hkey : key ∈ schema.keys) :
    ∀ other ∈ schema.keys, Decoded other (service.rawValues.remove key.id)
      (Function.update service.values key.id (some key.defaultValue) other.id) := by
  intro other hother
  by_cases heq : other.id = key.id
  · obtain rfl := List.inj_on_of_nodup_map schema.nodup hother hkey heq
    unfold Decoded
    rw [JsonMap.lookup_remove, if_pos rfl, Function.update_self]
  · refine (hserves.values other hother).congr ?_ (Function.update_of_ne heq ..)
    rw [JsonMap.lookup_remove, if_neg heq]

/-- What an event does to the settings, and what a failed write leaves alone. -/
def Stepped (schema : SettingsSchema V) (sets : String → Set (Option Json)) (root : JsonMap)
    (system : System V) (after : System V × List Act) : Prop :=
  (∃ next, Keeps schema (after.2.foldl allowAct sets) root after.1 next) ∧
    (.failed ∈ after.2 → after.1.running = system.running)

theorem keeps_callSet {id : String} {value : V} (h : Keeps schema sets root system document)
    (hrunning : system.running = some service) :
    Stepped schema sets root system (System.callSet schema system service id value outcomes) := by
  have hserves := h.running service hrunning
  have hrejected : Stepped schema sets root system (system, [.rejected]) :=
    ⟨⟨document, h⟩, fun _ => rfl⟩
  unfold System.callSet
  split
  · exact hrejected
  · rename_i key hkey
    split
    · exact hrejected
    · split
      · exact hrejected
      · rename_i normalized hnormalized
        exact keeps_saving h hrunning (fun other => JsonMap.lookup_put ..)
          (decoded_set hserves (List.mem_of_find?_eq_some hkey) hnormalized)

/-- What a key may hold before anything was written. -/
def startSets (schema : SettingsSchema V) (file : Option Content) (id : String) :
    Set (Option Json) :=
  {(schema.stored ((file.map denoted).getD {}).values).lookup id}

theorem keeps_start (schema : SettingsSchema V) (file temporary : Option Content) :
    Keeps schema (startSets schema file) ((file.map denoted).getD {}).additionalRootValues
      ⟨⟨file, temporary, none⟩, none⟩ ((file.map denoted).getD {}) := by
  refine ⟨⟨?_, nofun, ?_⟩, ?_, rfl, fun _ => rfl, nofun⟩
  · rintro content rfl
    exact ⟨rfl, fun _ => rfl⟩
  · rintro rfl _
    rfl
  · cases file with
    | none => exact valid_default
    | some content =>
      change (denoted content).Valid
      unfold denoted
      cases hdecode : decode content with
      | none => exact valid_default
      | some document => exact valid_of_decode hdecode

/-- Ids that are no keys are never written. -/
theorem allowAct_unknown {acts : List Act} {id : String}
    (h : ∀ act ∈ acts, ∀ raw, act ≠ .acknowledged id raw ∧ act ≠ .interrupted id raw) :
    acts.foldl allowAct sets id = sets id := by
  induction acts generalizing sets with
  | nil => rfl
  | cons act rest ih =>
    rw [List.foldl_cons, ih fun other hother => h other (List.mem_cons_of_mem _ hother)]
    have hact := h act (List.mem_cons_self ..)
    cases act with
    | acknowledged other raw =>
      refine Function.update_of_ne ?_ ..
      rintro rfl
      exact (hact raw).1 rfl
    | interrupted other raw =>
      refine Function.update_of_ne ?_ ..
      rintro rfl
      exact (hact raw).2 rfl
    | loaded => rfl
    | failed => rfl
    | rejected => rfl

variable [BEq V]

theorem keeps_callReset {id : String} (h : Keeps schema sets root system document)
    (hrunning : system.running = some service) :
    Stepped schema sets root system (System.callReset schema system service id outcomes) := by
  have hserves := h.running service hrunning
  unfold System.callReset
  split
  · exact ⟨⟨document, h⟩, fun _ => rfl⟩
  · rename_i key hkey
    unfold SettingsService.reset
    split
    · rename_i hdefault
      have hnone : service.rawValues.lookup key.id = none := by
        rw [Bool.and_eq_true] at hdefault
        exact Option.isNone_iff_eq_none.mp hdefault.1
      refine ⟨⟨document, h.disk, h.valid, h.root, fun other => ?_, ?_⟩, fun _ => hrunning.symm⟩
      · change _ ∈ Function.update sets key.id {none} other
        by_cases heq : other = key.id
        · rw [heq, Function.update_self, ← hserves.rawValues, hnone]
          exact Set.mem_singleton _
        · rw [Function.update_of_ne heq]
          exact h.raw other
      · intro reached hreached
        exact Option.some.inj hreached ▸ hserves
    · exact keeps_saving h hrunning (fun other => JsonMap.lookup_remove ..)
        (decoded_reset hserves (List.mem_of_find?_eq_some hkey))

/-- A load finds the disk so that a backup without a file can be moved back. -/
def Ready (system : System V) : Event V → Prop
  | .load outcomes => system.running.isNone → Recovers system.disk outcomes
  | _ => True

instance (system : System V) : (event : Event V) → Decidable (Ready system event)
  | .load outcomes => inferInstanceAs (Decidable
      (system.running.isNone → Recovers system.disk outcomes))
  | .set _ _ _ => isTrue trivial
  | .reset _ _ => isTrue trivial
  | .crash => isTrue trivial

theorem keeps_step {event : Event V} (h : Keeps schema sets root system document)
    (hready : Ready system event) :
    Stepped schema sets root system (System.step schema system event) := by
  have hsame : Stepped schema sets root system (system, []) := ⟨⟨document, h⟩, fun _ => rfl⟩
  cases event with
  | crash => exact ⟨⟨document, h.disk, h.valid, h.root, h.raw, nofun⟩, nofun⟩
  | load outcomes =>
    simp only [System.step]
    split
    · exact hsame
    · rename_i hrunning
      have hload := load_holds schema h.disk (hready (by rw [hrunning]; rfl))
      rcases hrun : SettingsService.load schema system.disk outcomes with
        ⟨service | _ | _, disk, rest⟩
      · rw [hrun] at hload
        obtain ⟨hserves, hdisk⟩ := hload
        refine ⟨⟨document, hdisk, h.valid, h.root, h.raw, ?_⟩, by simp⟩
        intro reached hreached
        exact Option.some.inj hreached ▸ hserves
      · rw [hrun] at hload
        exact hload.elim
      · rw [hrun] at hload
        exact ⟨⟨document, hload, h.valid, h.root, h.raw, nofun⟩, nofun⟩
  | set id value outcomes =>
    simp only [System.step]
    split
    · exact keeps_callSet h ‹_›
    · exact hsame
  | reset id outcomes =>
    simp only [System.step]
    split
    · exact keeps_callReset h ‹_›
    · exact hsame

/-- Only keys are written. -/
theorem step_ids {event : Event V} {id : String} (hid : ∀ key ∈ schema.keys, key.id ≠ id) :
    ∀ act ∈ (System.step schema system event).2, ∀ raw,
      act ≠ .acknowledged id raw ∧ act ≠ .interrupted id raw := by
  have hruns : ∀ {service : SettingsService V} {key : SettingKey V} {stored : Option Json}
      {outcomes : List Outcome} {operation : Crashing Disk (SettingsService V)},
      key ∈ schema.keys → ∀ act ∈ (system.runs service key.id stored outcomes operation).2,
        ∀ raw, act ≠ .acknowledged id raw ∧ act ≠ .interrupted id raw := by
    intro service key stored outcomes operation hmem act hact raw
    have hne := hid key hmem
    unfold System.runs at hact
    split at hact <;> obtain rfl := List.mem_singleton.mp hact <;> simp [hne]
  cases event with
  | crash => exact nofun
  | load outcomes =>
    simp only [System.step]
    split
    · exact nofun
    · split
      · intro act hact raw
        obtain rfl := List.mem_singleton.mp hact
        exact ⟨nofun, nofun⟩
      · exact nofun
  | set other value outcomes =>
    simp only [System.step]
    split
    · unfold System.callSet
      split
      · simp
      · rename_i key hkey
        split
        · simp
        · split
          · simp
          · exact hruns (List.mem_of_find?_eq_some hkey)
    · exact nofun
  | reset other outcomes =>
    simp only [System.step]
    split
    · unfold System.callReset
      split
      · simp
      · rename_i key hkey
        exact hruns (List.mem_of_find?_eq_some hkey)
    · exact nofun

theorem keeps_run {start : System V} (hstart : Keeps schema sets root start document)
    (events : List (Event V)) (h : Along (System.step schema) Ready start events) :
    (∃ next, Keeps schema (Allowed sets (run (System.step schema) start events).2) root
      (run (System.step schema) start events).1 next) ∧
    ∀ id, (∀ key ∈ schema.keys, key.id ≠ id) →
      Allowed sets (run (System.step schema) start events).2 id = sets id := by
  refine along_induction (System.step schema) (I := fun events =>
    (∃ next, Keeps schema (Allowed sets (run (System.step schema) start events).2) root
      (run (System.step schema) start events).1 next) ∧
    ∀ id, (∀ key ∈ schema.keys, key.id ≠ id) →
      Allowed sets (run (System.step schema) start events).2 id = sets id)
    ⟨⟨document, hstart⟩, fun _ _ => rfl⟩ ?_ events h
  rintro events event ⟨⟨next, hkeeps⟩, hunknown⟩ hready
  rw [run_concat]
  unfold Allowed at hkeeps hunknown ⊢
  rw [List.flatMap_append, List.flatMap_singleton, List.foldl_append]
  refine ⟨(keeps_step hkeeps hready).1, fun id hid => ?_⟩
  rw [← hunknown id hid]
  exact allowAct_unknown (step_ids hid)

/-- In a run whose loads can move a lone backup back: while a service runs, every key has
the value of its last acknowledged write or of one that a crash interrupted since, and
its default only where that is none; what is no key is as it was in the first file, and
so are the other members of the root; and a write that fails leaves the service alone. -/
theorem settings_survive (schema : SettingsSchema V) (file temporary : Option Content)
    (events : List (Event V))
    (h : Along (System.step schema) Ready ⟨⟨file, temporary, none⟩, none⟩ events) :
    let reached := run (System.step schema) ⟨⟨file, temporary, none⟩, none⟩ events
    let first := (file.map denoted).getD {}
    (∀ service, reached.1.running = some service →
      (∀ id, service.rawValues.lookup id ∈ Allowed (startSets schema file) reached.2 id) ∧
      (∀ key ∈ schema.keys, Decoded key service.rawValues (service.values key.id)) ∧
      (∀ id, (∀ key ∈ schema.keys, key.id ≠ id) →
        service.rawValues.lookup id = first.values.lookup id) ∧
      service.document = ⟨currentSettingsSchemaVersion, service.rawValues,
        first.additionalRootValues⟩) ∧
    ∀ event, Ready reached.1 event → .failed ∈ (System.step schema reached.1 event).2 →
      (System.step schema reached.1 event).1.running = reached.1.running := by
  intro reached first
  obtain ⟨⟨document, hkeeps⟩, hunknown⟩ := keeps_run (keeps_start schema file temporary) events h
  refine ⟨fun service hrunning => ?_, fun event hready => (keeps_step hkeeps hready).2⟩
  have hserves := hkeeps.running service hrunning
  have hraw : ∀ id, service.rawValues.lookup id ∈ Allowed (startSets schema file) reached.2 id := by
    rw [hserves.rawValues]
    exact hkeeps.raw
  refine ⟨hraw, hserves.values, fun id hid => ?_, ?_⟩
  · have hmem := hraw id
    rw [hunknown id hid] at hmem
    have hkeys : id ∉ schema.keys.map (·.id) := by
      rintro hmem
      obtain ⟨key, hkey, rfl⟩ := List.mem_map.mp hmem
      exact hid key hkey rfl
    exact (Set.mem_singleton_iff.mp hmem).trans (foldl_loadKey_other schema.keys _ hkeys).2
  · rw [hserves.inMemory, hserves.rawValues]
    exact congrArg₂ (fun version root => (⟨version, _, root⟩ : SettingsDocument))
      hkeeps.valid.version hkeeps.root

/-- A key with an integer value. -/
def level (id : String) : SettingKey ℤ where
  id := id
  defaultValue := 0
  serialize value := some (.int value)
  deserialize
    | .int value => some value
    | _ => none

def levels : SettingsSchema ℤ := ⟨[level "audio.volume", level "audio.balance"], by decide⟩

/-- One key is set, and the write of the other is cut short once the file is moved. -/
def halfway : List (Event ℤ) :=
  [.load [], .set "audio.volume" 7 [], .set "audio.balance" 3 [.complete, .complete, .after]]

/-- The next start finds the backup and the temporary file, and moves the backup back. -/
def recovered : List (Event ℤ) := halfway ++ [.load []]

theorem halfway_survives :
    (run (System.step levels) ⟨⟨none, none, none⟩, none⟩ recovered).1.running.map
        (·.values "audio.volume") = some (some 7) ∧
      ∀ service, (run (System.step levels) ⟨⟨none, none, none⟩, none⟩ recovered).1.running =
          some service →
        ∀ id, service.rawValues.lookup id ∈ Allowed (startSets levels none)
          (run (System.step levels) ⟨⟨none, none, none⟩, none⟩ recovered).2 id := by
  have hready : Along (System.step levels) Ready ⟨⟨none, none, none⟩, none⟩ recovered := by
    decide +kernel
  have hsurvive := (settings_survive levels none none recovered hready).1
  refine ⟨by decide +kernel, fun service hservice => ?_⟩
  exact (hsurvive service hservice).1

/-- The backup cannot be moved back, and the next write deletes it. -/
def lost : List (Event ℤ) :=
  halfway ++ [.load [.complete, .fail], .set "audio.balance" 4 [], .crash, .load []]

theorem lost_volume :
    (run (System.step levels) ⟨⟨none, none, none⟩, none⟩ lost).1.running.map
        (·.values "audio.volume") = some (some 0) ∧
      ∃ service, (run (System.step levels) ⟨⟨none, none, none⟩, none⟩ lost).1.running =
          some service ∧
        service.rawValues.lookup "audio.volume" ∉ Allowed (startSets levels none)
          (run (System.step levels) ⟨⟨none, none, none⟩, none⟩ lost).2 "audio.volume" := by
  have hlookup : (run (System.step levels) ⟨⟨none, none, none⟩, none⟩ lost).1.running.map
      (fun service => (service.rawValues.lookup "audio.volume").isNone) = some true := by
    decide +kernel
  obtain ⟨service, hrunning, hnone⟩ := Option.map_eq_some_iff.mp hlookup
  refine ⟨by decide +kernel, service, hrunning, ?_⟩
  have hacts : (run (System.step levels) ⟨⟨none, none, none⟩, none⟩ lost).2.flatMap (·.2) =
      [.loaded, .acknowledged "audio.volume" (some (.int 7)),
        .interrupted "audio.balance" (some (.int 3)), .loaded,
        .acknowledged "audio.balance" (some (.int 4)), .loaded] := rfl
  unfold Allowed
  rw [hacts, Option.isNone_iff_eq_none.mp hnone]
  simp [allowAct]

end ProjectArgo.Settings
