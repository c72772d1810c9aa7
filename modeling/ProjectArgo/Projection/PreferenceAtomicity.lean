import ProjectArgo.Projection.PreferenceStorage

/-!
# Whether a save is atomic

A reload gives the old or the new preferences after every failure of a save only if no
write but the last changes anything. Otherwise some failure leaves a mixture, which is
loaded if it is valid and replaced by the defaults if it is not.
-/
namespace ProjectArgo.Projection

open Library.Writing

namespace ProjectionPreferences

open PreferenceKey

/-- All insets are whole pixels. -/
structure Whole (p : ProjectionPreferences) : Prop where
  view : p.viewInsets = ⟨⌊p.viewInsets.left⌋, ⌊p.viewInsets.top⌋, ⌊p.viewInsets.right⌋,
    ⌊p.viewInsets.bottom⌋⟩
  safe : p.safeInsets = ⟨⌊p.safeInsets.left⌋, ⌊p.safeInsets.top⌋, ⌊p.safeInsets.right⌋,
    ⌊p.safeInsets.bottom⌋⟩

theorem fromSettings_stored_iff {p : ProjectionPreferences} :
    fromSettings p.stored = .ok p ↔ p.Whole := by
  unfold fromSettings
  rw [create_eq_ok]
  constructor
  · intro h
    exact ⟨congrArg ProjectionFields.viewInsets h, congrArg ProjectionFields.safeInsets h⟩
  · rintro ⟨hview, hsafe⟩
    unfold settingsFields stored
    dsimp only
    rw [← hview, ← hsafe]

/-- The settings tell the preferences, and the other way round. -/
theorem eq_stored_of_fromSettings {settings : Stored} {p : ProjectionPreferences}
    (h : fromSettings settings = .ok p) : settings = p.stored := by
  have hfields := create_eq_ok.mp h
  funext key
  cases key
  all_goals
    unfold stored
    simp only [hfields]
    unfold settingsFields
    simp only [Int.floor_intCast]

/-- What a reload may return. -/
def Loads (settings : Stored) (p : ProjectionPreferences) : Prop :=
  ∃ outcome, (ProjectionSettingsService.load settings outcome).2 = some p

theorem defaults_accepted : ∀ key ∈ order, key.accepts (defaults.stored key) := by
  decide +kernel

theorem loads_of_ok {settings : Stored} {p q : ProjectionPreferences}
    (h : fromSettings settings = .ok p) : Loads settings q ↔ q = p := by
  unfold Loads ProjectionSettingsService.load
  simp only [h]
  constructor
  · rintro ⟨-, hload⟩
    exact (Option.some.inj hload).symm
  · rintro rfl
    exact ⟨fun _ => .written, rfl⟩

theorem loads_of_error {settings : Stored} {e : ArgumentError} {q : ProjectionPreferences}
    (h : fromSettings settings = .error e) : Loads settings q ↔ q = defaults := by
  unfold Loads ProjectionSettingsService.load
  simp only [h]
  constructor
  · rintro ⟨outcome, hload⟩
    split at hload
    · exact (Option.some.inj hload).symm
    · exact nomatch hload
  · rintro rfl
    refine ⟨fun _ => .written, ?_⟩
    unfold ProjectionSettingsService.persist
    rw [exists_completed defaults_accepted]

/-- Something is loaded in any case. -/
theorem exists_loads (settings : Stored) : ∃ p, Loads settings p := by
  cases h : fromSettings settings with
  | ok p => exact ⟨p, (loads_of_ok h).mpr rfl⟩
  | error e => exact ⟨defaults, (loads_of_error h).mpr rfl⟩

/-! ## Mixtures -/

/-- An inset that is new or zero. -/
theorem inset_le {c : Prop} [Decidable c] {x : ℚ} (hx : 0 ≤ x) :
    (0 : ℚ) ≤ ((if c then ⌊x⌋ else ⌊(0 : ℚ)⌋ : ℤ) : ℚ) ∧
      ((if c then ⌊x⌋ else ⌊(0 : ℚ)⌋ : ℤ) : ℚ) ≤ x := by
  split
  · exact ⟨Int.cast_nonneg (Int.floor_nonneg.mpr hx), Int.floor_le x⟩
  · rw [Int.floor_zero, Int.cast_zero]
    exact ⟨le_rfl, hx⟩

/-- The keys that say what picture is asked for. -/
def pictureKeys : List PreferenceKey :=
  [displayWidth, displayHeight, displayDpi, framesPerSecond, driverSide]

/-- Smaller insets of the same picture leave more. -/
theorem visible_mono {p q : ProjectionFields} (hwidth : q.width = p.width)
    (hheight : q.height = p.height) (hview : q.viewInsets.left ≤ p.viewInsets.left ∧
      q.viewInsets.top ≤ p.viewInsets.top ∧ q.viewInsets.right ≤ p.viewInsets.right ∧
      q.viewInsets.bottom ≤ p.viewInsets.bottom)
    (hsafe : q.safeInsets.left ≤ p.safeInsets.left ∧ q.safeInsets.top ≤ p.safeInsets.top ∧
      q.safeInsets.right ≤ p.safeInsets.right ∧ q.safeInsets.bottom ≤ p.safeInsets.bottom)
    (h : p.Visible) : q.Visible := by
  obtain ⟨hvl, hvt, hvr, hvb⟩ := hview
  obtain ⟨hsl, hst, hsr, hsb⟩ := hsafe
  unfold ProjectionFields.Visible at h ⊢
  rw [hwidth, hheight]
  push Not at h ⊢
  obtain ⟨hx, hy, hleft, htop⟩ := h
  exact ⟨by linarith, by linarith, by linarith, by linarith⟩

/-- Whatever has been written of a valid value after the picture, over the defaults, is valid. -/
theorem mixture_valid (new : ProjectionPreferences) {before : List PreferenceKey}
    (hpicture : ∀ key ∈ pictureKeys, key ∈ before) :
    (settingsFields (overwrite before new.stored defaults.stored)).Valid := by
  have hkept : ∀ key ∈ pictureKeys, overwrite before new.stored defaults.stored key =
      new.stored key := fun key hkey => if_pos (hpicture key hkey)
  have hwidth : (settingsFields (overwrite before new.stored defaults.stored)).width =
      new.width := hkept displayWidth (by decide)
  have hheight : (settingsFields (overwrite before new.stored defaults.stored)).height =
      new.height := hkept displayHeight (by decide)
  have hdpi : (settingsFields (overwrite before new.stored defaults.stored)).dpi = new.dpi :=
    hkept displayDpi (by decide)
  have hrate : (settingsFields (overwrite before new.stored defaults.stored)).framesPerSecond =
      new.framesPerSecond := hkept framesPerSecond (by decide)
  have hview := new.valid.view
  have hsafe := new.valid.safe
  have hvl := inset_le (c := viewInsetLeft ∈ before) hview.left
  have hvt := inset_le (c := viewInsetTop ∈ before) hview.top
  have hvr := inset_le (c := viewInsetRight ∈ before) hview.right
  have hvb := inset_le (c := viewInsetBottom ∈ before) hview.bottom
  have hsl := inset_le (c := safeInsetLeft ∈ before) hsafe.left
  have hst := inset_le (c := safeInsetTop ∈ before) hsafe.top
  have hsr := inset_le (c := safeInsetRight ∈ before) hsafe.right
  have hsb := inset_le (c := safeInsetBottom ∈ before) hsafe.bottom
  constructor
  · rw [hwidth, hheight]
    exact new.valid.dimensions
  · rw [hdpi, hrate]
    exact new.valid.rates
  · exact ⟨hsl.1, hst.1, hsr.1, hsb.1⟩
  · exact ⟨hvl.1, hvt.1, hvr.1, hvb.1⟩
  · exact visible_mono hwidth hheight ⟨hvl.2, hvt.2, hvr.2, hvb.2⟩ ⟨hsl.2, hst.2, hsr.2, hsb.2⟩
      new.valid.visible

/-- A mixture from which only the old value is loaded is the old value. -/
theorem mixture_eq_old {old new : ProjectionPreferences} {before : List PreferenceKey}
    (hpicture : ∀ key ∈ pictureKeys, key ∈ before)
    (h : ∀ p, Loads (overwrite before new.stored old.stored) p → p = old) :
    overwrite before new.stored old.stored = old.stored := by
  cases hload : fromSettings (overwrite before new.stored old.stored) with
  | ok p =>
    have hp : p = old := h p ((loads_of_ok hload).mpr rfl)
    rw [eq_stored_of_fromSettings hload, hp]
  | error e =>
    have hold : defaults = old := h defaults ((loads_of_error hload).mpr rfl)
    rw [← hold] at hload
    have hchecks := create_eq_error.mp hload
    rw [ProjectionFields.checks_eq_ok.mpr (mixture_valid new hpicture)] at hchecks
    exact nomatch hchecks

end ProjectionPreferences

namespace ProjectionSettingsService

open ProjectionPreferences PreferenceKey

/-- After an update, wherever it ends, a reload gives the old or the new value, and after one that
failed it gives the one that is held as requested. -/
def Kept (old new : ProjectionPreferences) : Prop :=
  ∀ supported outcome sent,
    let result := update old.stored old supported new outcome sent
    (∀ p, Loads result.1 p → p = old ∨ p = new) ∧
      (result.2.2 ∈ [.unsupported, .failed, .unsent] → ∀ p, Loads result.1 p → p = result.2.1)

/-- Nothing is changed by a write that another one comes after: either the settings refuse a value
and all that are written before are the old ones, or only the last of the thirteen differs and
nothing is lost in storing. -/
def Unbroken (old new : ProjectionPreferences) : Prop :=
  (∃ before key after, order = before ++ key :: after ∧ ¬key.accepts (new.stored key) ∧
    ∀ other ∈ before, other.accepts (new.stored other) ∧ new.stored other = old.stored other) ∨
  new.Whole ∧ ∀ key ∈ order, key.accepts (new.stored key) ∧
    (key ≠ safeInsetBottom → new.stored key = old.stored key)

theorem mem_order (key : PreferenceKey) : key ∈ order := by
  cases key <;> decide

theorem overwrite_eq_old {old new : Stored} {before : List PreferenceKey}
    (h : ∀ key ∈ before, new key = old key) : overwrite before new old = old := by
  funext key
  unfold overwrite
  split
  · next hmem => exact h key hmem
  · rfl

theorem overwrite_order {old new : Stored} : overwrite order new old = new := by
  funext key
  exact if_pos (mem_order key)

/-- The last key is written by a save that runs to its end. -/
theorem not_mem_of_rest {before after : List PreferenceKey} (hsplit : order = before ++ after)
    (hafter : after ≠ []) : safeInsetBottom ∉ before := by
  intro hmem
  obtain ⟨init, last, rfl⟩ := (List.eq_nil_or_concat after).resolve_left hafter
  have hlast : order.dropLast ++ [safeInsetBottom] = before ++ init ++ [last] := by
    rw [List.concat_eq_append] at hsplit
    rw [List.append_assoc, ← hsplit]
    rfl
  have hbefore := (List.append_inj' hlast rfl).1
  have hinit : safeInsetBottom ∈ order.dropLast := by
    rw [hbefore]
    exact List.mem_append_left _ hmem
  exact absurd hinit (by decide)

/-- What an update leaves, from the writes that it came to. -/
theorem update_written (old new : ProjectionPreferences) (outcome : PreferenceKey → WriteOutcome) :
    ∃ before after, order = before ++ after ∧
      (∀ key ∈ before, key.accepts (new.stored key)) ∧ ∀ sent,
        (update old.stored old true new outcome sent).1 =
          overwrite before new.stored old.stored ∧
        ((update old.stored old true new outcome sent).2 = (old, .ended) ∨
          (update old.stored old true new outcome sent).2 = (old, .failed) ∧ after ≠ [] ∨
          (update old.stored old true new outcome sent).2 =
            (new, if sent then .sent else .unsent) ∧ after = []) := by
  obtain ⟨before, after, hsplit, h⟩ : ∃ before after, order = before ++ after ∧
      Written (fun key => key.accepts (new.stored key)) new.stored old.stored before after
        (persist old.stored new outcome) := writeAll_written order
  refine ⟨before, after, hsplit, h.accepted, ?_⟩
  intro sent
  unfold update
  rcases hresult : persist old.stored new outcome with ⟨settings, ending⟩
  rw [hresult] at h
  rw [if_neg (by decide)]
  have hstored : settings = overwrite before new.stored old.stored := h.stored
  cases ending with
  | completed => exact ⟨hstored, Or.inr (Or.inr ⟨rfl, h.completed rfl⟩)⟩
  | failed => exact ⟨hstored, Or.inr (Or.inl ⟨rfl, h.failed rfl⟩)⟩
  | ended => exact ⟨hstored, Or.inl rfl⟩

/-- What has been accepted comes before the first key that is refused. -/
theorem mem_of_accepted {accepts : PreferenceKey → Bool}
    {before after first rest : List PreferenceKey} {key other : PreferenceKey}
    (hsplit : order = before ++ after) (hfirst : order = first ++ key :: rest)
    (haccepted : ∀ other ∈ before, accepts other) (hrefused : ¬accepts key)
    (hother : other ∈ before) : other ∈ first := by
  have hbefore : before <+: order := ⟨after, hsplit.symm⟩
  have hkey : first ++ [key] <+: order := by
    refine ⟨rest, ?_⟩
    rw [hfirst, List.append_assoc, List.singleton_append]
  rcases List.prefix_or_prefix_of_prefix hbefore hkey with hprefix | hprefix
  · have hmem := hprefix.subset hother
    rcases List.mem_append.mp hmem with hin | hin
    · exact hin
    · rw [List.mem_singleton.mp hin] at hother
      exact absurd (haccepted key hother) hrefused
  · have hmem : key ∈ before := hprefix.subset (by simp)
    exact absurd (haccepted key hmem) hrefused

theorem Unbroken.kept {old new : ProjectionPreferences} (hold : old.Whole)
    (h : Unbroken old new) : Kept old new := by
  have hloads : ∀ p, Loads old.stored p → p = old := fun p =>
    (loads_of_ok (fromSettings_stored_iff.mpr hold)).mp
  intro supported outcome sent
  cases supported with
  | false => exact ⟨fun p hp => Or.inl (hloads p hp), fun _ => hloads⟩
  | true =>
    obtain ⟨before, after, hsplit, haccepted, hresult⟩ := update_written old new outcome
    obtain ⟨hstored, hending⟩ := hresult sent
    dsimp only
    rw [hstored]
    rcases h with ⟨first, key, rest, hfirst, hrefused, hsame⟩ | ⟨hwhole, hall⟩
    · have hbefore : ∀ other ∈ before, new.stored other = old.stored other := fun other hother =>
        (hsame other (mem_of_accepted hsplit hfirst haccepted hrefused hother)).2
      rw [overwrite_eq_old hbefore]
      refine ⟨fun p hp => Or.inl (hloads p hp), ?_⟩
      rcases hending with hended | ⟨hfailed, -⟩ | ⟨-, hafter⟩
      · rw [hended]
        exact fun _ => hloads
      · rw [hfailed]
        exact fun _ => hloads
      · rw [hafter, List.append_nil] at hsplit
        exact absurd (haccepted key (hsplit ▸ mem_order key)) hrefused
    · by_cases hafter : after = []
      · have hloadsNew : ∀ p, Loads new.stored p → p = new := fun p =>
          (loads_of_ok (fromSettings_stored_iff.mpr hwhole)).mp
        rw [hafter, List.append_nil] at hsplit
        rw [← hsplit, overwrite_order]
        refine ⟨fun p hp => Or.inr (hloadsNew p hp), ?_⟩
        rcases hending with hended | ⟨-, hrest⟩ | ⟨hcompleted, -⟩
        · rw [hended]
          intro hmem
          simp at hmem
        · exact absurd hafter hrest
        · rw [hcompleted]
          exact fun _ => hloadsNew
      · have hlast := not_mem_of_rest hsplit hafter
        have hbefore : ∀ other ∈ before, new.stored other = old.stored other := by
          intro other hother
          apply (hall other (mem_order other)).2
          rintro rfl
          exact hlast hother
        rw [overwrite_eq_old hbefore]
        refine ⟨fun p hp => Or.inl (hloads p hp), ?_⟩
        rcases hending with hended | ⟨hfailed, -⟩ | ⟨-, hnone⟩
        · rw [hended]
          exact fun _ => hloads
        · rw [hfailed]
          exact fun _ => hloads
        · exact absurd hnone hafter

/-- An update that fails at a key after others were written. -/
theorem exists_failed_update {old new : ProjectionPreferences} {before after : List PreferenceKey}
    {key : PreferenceKey} (hsplit : order = before ++ key :: after)
    (haccepts : ∀ other ∈ before, other.accepts (new.stored other)) (hfresh : key ∉ before) :
    ∃ outcome, update old.stored old true new outcome true =
      (overwrite before new.stored old.stored, old, .failed) := by
  obtain ⟨outcome, hwritten⟩ : ∃ outcome, writeAll (fun key => key.accepts (new.stored key))
      new.stored outcome (before ++ key :: after) old.stored =
        (overwrite before new.stored old.stored, .failed) := exists_failed haccepts hfresh
  refine ⟨outcome, ?_⟩
  unfold update persist
  rw [hsplit, hwritten]
  rfl

/-- If every failure keeps the old value, nothing before the key that failed was changed. -/
theorem Kept.same {old new : ProjectionPreferences} (h : Kept old new)
    {before after : List PreferenceKey} {key : PreferenceKey}
    (hsplit : order = before ++ key :: after)
    (haccepts : ∀ other ∈ before, other.accepts (new.stored other)) (hfresh : key ∉ before)
    (hpicture : ∀ other ∈ pictureKeys, other ∈ before) :
    ∀ other ∈ before, new.stored other = old.stored other := by
  obtain ⟨outcome, hupdate⟩ := @exists_failed_update old new before after key hsplit haccepts hfresh
  obtain ⟨-, hfailed⟩ := h true outcome true
  rw [hupdate] at hfailed
  have hmixture := mixture_eq_old hpicture (hfailed (by simp))
  intro other hother
  have hkey := congrFun hmixture other
  unfold overwrite at hkey
  rw [if_pos hother] at hkey
  exact hkey

/-- The settings take every picture of a valid value. -/
theorem picture_accepted (p : ProjectionPreferences) :
    ∀ key ∈ pictureKeys, key.accepts (p.stored key) := by
  have hdimensions := p.valid.dimensions
  have hrates := p.valid.rates
  simp only [ProjectionFields.dimensions, List.mem_cons, Prod.mk.injEq, List.not_mem_nil,
    or_false] at hdimensions
  simp only [pictureKeys, List.forall_mem_cons, accepts, stored, bounded, decide_eq_true_eq,
    List.not_mem_nil, false_implies, implies_true, and_true]
  have hrate : p.framesPerSecond = 30 ∨ p.framesPerSecond = 60 := by omega
  exact ⟨by omega, by omega, by omega, hrate⟩

theorem mem_dropLast {key : PreferenceKey} (h : key ≠ safeInsetBottom) : key ∈ order.dropLast := by
  cases key <;> first | decide | exact absurd rfl h

theorem Kept.whole {old new : ProjectionPreferences} (h : Kept old new)
    (hall : ∀ key ∈ order, key.accepts (new.stored key)) : new.Whole := by
  have hupdate : update old.stored old true new (fun _ => .written) false =
      (new.stored, new, .unsent) := by
    have hwritten : persist old.stored new (fun _ => .written) =
        (overwrite order new.stored old.stored, .completed) := exists_completed hall
    unfold update
    rw [if_neg (by decide), hwritten, overwrite_order]
    rfl
  obtain ⟨-, hunsent⟩ := h true (fun _ => .written) false
  rw [hupdate] at hunsent
  have hnew := hunsent (by simp)
  cases hload : fromSettings new.stored with
  | ok p =>
    have hp : p = new := hnew p ((loads_of_ok hload).mpr rfl)
    rw [hp] at hload
    exact fromSettings_stored_iff.mp hload
  | error e =>
    have hp : defaults = new := hnew defaults ((loads_of_error hload).mpr rfl)
    rw [← hp]
    exact ⟨by decide +kernel, by decide +kernel⟩

theorem Kept.unbroken {old new : ProjectionPreferences} (h : Kept old new) : Unbroken old new := by
  have hpicture := picture_accepted new
  obtain hall | ⟨before, key, after, hsplit, haccepts, hrefused⟩ :
      (∀ key ∈ order, key.accepts (new.stored key)) ∨ ∃ before key after,
        order = before ++ key :: after ∧ (∀ other ∈ before, other.accepts (new.stored other)) ∧
          ¬key.accepts (new.stored key) := accepted_or_first order
  · refine Or.inr ⟨h.whole hall, fun key hkey => ⟨hall key hkey, fun hother => ?_⟩⟩
    have hinit : ∀ other ∈ order.dropLast, other.accepts (new.stored other) :=
      fun other _ => hall other (mem_order other)
    have hpart : ∀ other ∈ pictureKeys, other ∈ order.dropLast := by decide
    have hsplit : order = order.dropLast ++ safeInsetBottom :: [] := rfl
    exact h.same hsplit hinit (by decide) hpart key (mem_dropLast hother)
  · refine Or.inl ⟨before, key, after, hsplit, hrefused, ?_⟩
    have hpart : ∀ other ∈ pictureKeys, other ∈ before := by
      intro other hother
      have htake : order = pictureKeys ++ order.drop 5 := rfl
      exact mem_of_accepted htake hsplit hpicture hrefused hother
    have hfresh : key ∉ before := fun hmem => hrefused (haccepts key hmem)
    have hsame := h.same hsplit haccepts hfresh hpart
    exact fun other hother => ⟨haccepts other hother, hsame other hother⟩

/-- Saving preferences is atomic exactly if nothing is changed by a write that another one comes
after. -/
theorem persist_atomic_iff {settings : Stored} {old : ProjectionPreferences}
    (hold : fromSettings settings = .ok old) (new : ProjectionPreferences) :
    Kept old new ↔ Unbroken old new := by
  have hstored := eq_stored_of_fromSettings hold
  rw [hstored] at hold
  exact ⟨Kept.unbroken, fun h => h.kept (fromSettings_stored_iff.mp hold)⟩

/-- The widest picture. -/
def widest : ProjectionPreferences where
  width := 1920
  height := 1080
  dpi := 160
  framesPerSecond := 30
  driverSide := .left
  safeInsets := {}
  valid := by decide +kernel

/-- The widest picture with a margin. -/
def framed : ProjectionPreferences where
  width := 1920
  height := 1080
  dpi := 160
  framesPerSecond := 30
  driverSide := .left
  safeInsets := {}
  viewInsets := { left := 20 }
  valid := by decide +kernel

theorem framed_stored : fromSettings framed.stored = .ok framed := by
  decide +kernel

theorem persist_atomic_iff_framed : Kept framed widest ↔ Unbroken framed widest :=
  persist_atomic_iff framed_stored widest

/-- The smallest picture. -/
def smallest : ProjectionPreferences where
  width := 800
  height := 480
  dpi := 160
  framesPerSecond := 30
  driverSide := .left
  safeInsets := {}
  valid := by decide +kernel

/-- The first write is done and the second fails. -/
def second : PreferenceKey → WriteOutcome
  | displayWidth => .written
  | _ => .failed

/-- The width is stored without the height: a reload gives neither value but the defaults. -/
theorem persist_resets :
    fromSettings framed.stored = .ok framed ∧
      (update framed.stored framed true smallest second true).2 = (framed, .failed) ∧
      Loads (update framed.stored framed true smallest second true).1 defaults ∧
      ¬Kept framed smallest := by
  have hloads : Loads (update framed.stored framed true smallest second true).1 defaults :=
    ⟨fun _ => .written, by decide +kernel⟩
  refine ⟨by decide +kernel, by decide +kernel, hloads, ?_⟩
  intro hkept
  rcases (hkept true second true).1 defaults hloads with hsame | hsame
  · exact absurd hsame (by decide +kernel)
  · exact absurd hsame (by decide +kernel)

end ProjectionSettingsService
end ProjectArgo.Projection
