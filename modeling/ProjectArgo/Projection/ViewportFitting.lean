import ProjectArgo.Projection.ProjectionPreferences

/-!
# Fitting the view area

Fitting cuts the dimension that is too long for the ratio of the viewport down to an
even size. The size is less than two pixels off the ideal one, so the ratio is met as
far as even sizes allow, and only then would a second fit leave the result alone.
-/
namespace ProjectArgo.Projection

open Library.Deciding

namespace ProjectionPreferences

section Content

variable {available : ℤ} {ideal : ℚ}

theorem content_even (available : ℤ) (ideal : ℚ) : content available ideal % 2 = 0 := by
  unfold content
  dsimp only
  omega

theorem two_le_content (available : ℤ) (ideal : ℚ) : 2 ≤ content available ideal := by
  unfold content
  dsimp only
  omega

theorem content_le (h : 2 ≤ available) (ideal : ℚ) : content available ideal ≤ available := by
  unfold content
  dsimp only
  omega

/-- Less than two pixels are lost, or won where the ideal size is below two. -/
theorem content_near (hpos : 0 < ideal) (hle : ideal ≤ available) :
    |(content available ideal : ℚ) - ideal| < 2 := by
  have hfloor := Int.floor_le ideal
  have hnext := Int.lt_floor_add_one ideal
  have hmost : ⌊ideal⌋ ≤ available := Int.floor_le_iff.mpr (by linarith)
  have hleast : 0 ≤ ⌊ideal⌋ := Int.floor_nonneg.mpr hpos.le
  rw [abs_lt]
  by_cases hsmall : ⌊ideal⌋ < 2
  · have hcontent : content available ideal = 2 := by
      unfold content
      dsimp only
      omega
    have hless : (⌊ideal⌋ : ℚ) + 1 ≤ 2 := by exact_mod_cast hsmall
    rw [hcontent]
    push_cast
    constructor
    · linarith
    · linarith
  · have hdown : content available ideal ≤ ⌊ideal⌋ := by
      unfold content
      dsimp only
      omega
    have hup : ⌊ideal⌋ ≤ content available ideal + 1 := by
      unfold content
      dsimp only
      omega
    have hdown : (content available ideal : ℚ) ≤ ⌊ideal⌋ := by exact_mod_cast hdown
    have hup : (⌊ideal⌋ : ℚ) ≤ content available ideal + 1 := by exact_mod_cast hup
    constructor
    · linarith
    · linarith

/-- Nothing is cut only if the size is even and already ideal, or two. -/
theorem content_eq_iff (h : 2 ≤ available) (hle : ideal ≤ available) :
    content available ideal = available ↔
      available % 2 = 0 ∧ (ideal = available ∨ available = 2) := by
  have hmost : ⌊ideal⌋ ≤ available := by
    have hcast : (⌊ideal⌋ : ℚ) ≤ available := (Int.floor_le ideal).trans hle
    exact_mod_cast hcast
  constructor
  · intro hcontent
    refine ⟨?_, ?_⟩
    · rw [← hcontent]
      exact content_even available ideal
    · by_cases htwo : available = 2
      · exact Or.inr htwo
      · have hfloor : ⌊ideal⌋ = available := by
          unfold content at hcontent
          dsimp only at hcontent
          omega
        left
        have hcast : (available : ℚ) ≤ ideal := hfloor ▸ Int.floor_le ideal
        exact le_antisymm hle hcast
  · rintro ⟨heven, hideal | htwo⟩
    · have hfloor : ⌊ideal⌋ = available := by rw [hideal, Int.floor_intCast]
      unfold content
      dsimp only
      omega
    · unfold content
      dsimp only
      omega

end Content

/-- The whole pixels of the given margins leave at least two. -/
theorem two_le_available (p : ProjectionPreferences) :
    2 ≤ p.contentWidth p.margins ∧ 2 ≤ p.contentHeight p.margins := by
  have hvisible := p.valid.visible
  unfold ProjectionFields.Visible at hvisible
  push Not at hvisible
  obtain ⟨hwidth, hheight, -, -⟩ := hvisible
  unfold contentWidth contentHeight margins
  have hl := Int.floor_le p.viewInsets.left
  have hr := Int.floor_le p.viewInsets.right
  have ht := Int.floor_le p.viewInsets.top
  have hb := Int.floor_le p.viewInsets.bottom
  constructor
  · have hless : ((⌊p.viewInsets.left⌋ + ⌊p.viewInsets.right⌋ : ℤ) : ℚ) < (p.width - 1 : ℤ) := by
      push_cast
      linarith
    have hless := Int.cast_lt.mp hless
    dsimp only
    omega
  · have hless : ((⌊p.viewInsets.top⌋ + ⌊p.viewInsets.bottom⌋ : ℤ) : ℚ) < (p.height - 1 : ℤ) := by
      push_cast
      linarith
    have hless := Int.cast_lt.mp hless
    dsimp only
    omega

/-- What fitting does to the two dimensions. -/
structure Fits (p : ProjectionPreferences) (aspect : ℚ) (m : Margins) : Prop where
  left : p.margins.left ≤ m.left
  top : p.margins.top ≤ m.top
  right : p.margins.right ≤ m.right
  bottom : p.margins.bottom ≤ m.bottom
  cut : (p.contentHeight m = p.contentHeight p.margins ∧
      p.contentHeight m * aspect < p.contentWidth p.margins ∧
      p.contentWidth m = content (p.contentWidth p.margins) (p.contentHeight m * aspect)) ∨
    (p.contentWidth m = p.contentWidth p.margins ∧
      p.contentWidth m ≤ p.contentHeight p.margins * aspect ∧
      p.contentHeight m = content (p.contentHeight p.margins) (p.contentWidth m / aspect))

theorem fit_fits (p : ProjectionPreferences) {viewportWidth viewportHeight : ℚ} :
    p.Fits (viewportWidth / viewportHeight) (p.fit viewportWidth viewportHeight) := by
  obtain ⟨hwidth, hheight⟩ := p.two_le_available
  have hpos : (0 : ℚ) < p.contentHeight p.margins := by
    have htwo : ((2 : ℤ) : ℚ) ≤ p.contentHeight p.margins := Int.cast_le.mpr hheight
    push_cast at htwo
    linarith
  unfold fit
  dsimp only
  split
  · next hwide =>
    have hless := content_le hwidth
      (p.contentHeight p.margins * (viewportWidth / viewportHeight))
    refine ⟨?_, le_rfl, ?_, le_rfl, Or.inl ⟨rfl, ?_, ?_⟩⟩
    · dsimp only
      omega
    · dsimp only
      omega
    · rw [gt_iff_lt, lt_div_iff₀ hpos, mul_comm] at hwide
      exact hwide
    · unfold contentWidth contentHeight at *
      dsimp only at *
      omega
  · next htall =>
    have hless := content_le hheight
      (p.contentWidth p.margins / (viewportWidth / viewportHeight))
    refine ⟨le_rfl, ?_, le_rfl, ?_, Or.inr ⟨rfl, ?_, ?_⟩⟩
    · dsimp only
      omega
    · dsimp only
      omega
    · rw [gt_iff_lt, not_lt, div_le_iff₀ hpos, mul_comm] at htall
      exact htall
    · unfold contentWidth contentHeight at *
      dsimp only at *
      omega

theorem Fits.two_le {p : ProjectionPreferences} {aspect : ℚ} {m : Margins} (h : p.Fits aspect m) :
    2 ≤ p.contentWidth m ∧ 2 ≤ p.contentHeight m := by
  obtain ⟨hwidth, hheight⟩ := p.two_le_available
  rcases h.cut with ⟨hsame, -, hcut⟩ | ⟨hsame, -, hcut⟩
  · rw [hcut, hsame]
    exact ⟨two_le_content _ _, hheight⟩
  · rw [hcut, hsame]
    exact ⟨hwidth, two_le_content _ _⟩

/-- The dimension that was changed is even. -/
theorem Fits.even {p : ProjectionPreferences} {aspect : ℚ} {m : Margins} (h : p.Fits aspect m) :
    (p.contentWidth m ≠ p.contentWidth p.margins → p.contentWidth m % 2 = 0) ∧
      (p.contentHeight m ≠ p.contentHeight p.margins → p.contentHeight m % 2 = 0) := by
  rcases h.cut with ⟨hsame, -, hcut⟩ | ⟨hsame, -, hcut⟩
  · refine ⟨fun _ => ?_, fun hchanged => absurd hsame hchanged⟩
    rw [hcut]
    exact content_even _ _
  · refine ⟨fun hchanged => absurd hsame hchanged, fun _ => ?_⟩
    rw [hcut]
    exact content_even _ _

/-- One dimension is kept, and the other is less than two pixels off the ratio. -/
theorem Fits.near {p : ProjectionPreferences} {aspect : ℚ} {m : Margins} (h : p.Fits aspect m)
    (haspect : 0 < aspect) :
    (p.contentHeight m = p.contentHeight p.margins ∧
      |(p.contentWidth m : ℚ) - p.contentHeight m * aspect| < 2) ∨
    (p.contentWidth m = p.contentWidth p.margins ∧
      |(p.contentHeight m : ℚ) - p.contentWidth m / aspect| < 2) := by
  obtain ⟨hwidth, hheight⟩ := h.two_le
  have hwidth : (0 : ℚ) < p.contentWidth m := Int.cast_pos.mpr (by omega)
  have hheight : (0 : ℚ) < p.contentHeight m := Int.cast_pos.mpr (by omega)
  rcases h.cut with ⟨hsame, hless, hcut⟩ | ⟨hsame, hless, hcut⟩
  · refine Or.inl ⟨hsame, ?_⟩
    rw [hcut]
    exact content_near (mul_pos hheight haspect) hless.le
  · refine Or.inr ⟨hsame, ?_⟩
    rw [hcut]
    apply content_near (div_pos hwidth haspect)
    exact (div_le_iff₀ haspect).mpr hless

/-- What a fitted value is. -/
structure Fitted (p : ProjectionPreferences) (viewportWidth viewportHeight overlayHeight : ℚ)
    (q : ProjectionPreferences) : Prop where
  same : q.width = p.width ∧ q.height = p.height ∧ q.dpi = p.dpi ∧
    q.framesPerSecond = p.framesPerSecond ∧ q.driverSide = p.driverSide
  safe : q.safeInsets.left = p.safeInsets.left ∧ q.safeInsets.top = p.safeInsets.top ∧
    q.safeInsets.right = p.safeInsets.right
  view : ⌊p.viewInsets.left⌋ ≤ q.viewInsets.left ∧ ⌊p.viewInsets.top⌋ ≤ q.viewInsets.top ∧
    ⌊p.viewInsets.right⌋ ≤ q.viewInsets.right ∧ ⌊p.viewInsets.bottom⌋ ≤ q.viewInsets.bottom
  two : 2 ≤ q.contentWidth q.margins ∧ 2 ≤ q.contentHeight q.margins
  even : (q.contentWidth q.margins ≠ p.contentWidth p.margins →
      q.contentWidth q.margins % 2 = 0) ∧
    (q.contentHeight q.margins ≠ p.contentHeight p.margins →
      q.contentHeight q.margins % 2 = 0)
  near : (q.contentHeight q.margins = p.contentHeight p.margins ∧
      |(q.contentWidth q.margins : ℚ) -
        q.contentHeight q.margins * (viewportWidth / viewportHeight)| < 2) ∨
    (q.contentWidth q.margins = p.contentWidth p.margins ∧
      |(q.contentHeight q.margins : ℚ) -
        q.contentWidth q.margins / (viewportWidth / viewportHeight)| < 2)
  overlay : overlayHeight ≤ q.safeInsets.bottom * q.scale q.margins viewportWidth viewportHeight
  bottom : p.safeInsets.bottom ≤ q.safeInsets.bottom

/-- The safe area at the bottom after fitting. -/
def reserved (p : ProjectionPreferences) (viewportWidth viewportHeight overlayHeight : ℚ) : ℚ :=
  max p.safeInsets.bottom
    ⌈overlayHeight / p.scale (p.fit viewportWidth viewportHeight) viewportWidth viewportHeight⌉

/-- The fields that fitting asks for. -/
def fittedFields (p : ProjectionPreferences) (viewportWidth viewportHeight overlayHeight : ℚ) :
    ProjectionFields :=
  let m := p.fit viewportWidth viewportHeight
  { p.toProjectionFields with
    viewInsets := { left := m.left, top := m.top, right := m.right, bottom := m.bottom }
    safeInsets :=
      { p.safeInsets with bottom := p.reserved viewportWidth viewportHeight overlayHeight } }

section Viewport

variable {p q : ProjectionPreferences} {viewportWidth viewportHeight overlayHeight : ℚ}

theorem forViewport_eq (hw : 0 < viewportWidth) (hh : 0 < viewportHeight) :
    p.forViewport viewportWidth viewportHeight overlayHeight =
      create (p.fittedFields viewportWidth viewportHeight overlayHeight) := by
  unfold forViewport
  rw [if_neg (by push Not; exact ⟨hw, hh⟩)]
  unfold fittedFields reserved
  dsimp only
  rw [max_def_lt]

theorem fittedFields_nonneg (p : ProjectionPreferences)
    (viewportWidth viewportHeight overlayHeight : ℚ) :
    (p.fittedFields viewportWidth viewportHeight overlayHeight).viewInsets.Nonneg ∧
      (p.fittedFields viewportWidth viewportHeight overlayHeight).safeInsets.Nonneg := by
  have hfits : p.Fits (viewportWidth / viewportHeight) (p.fit viewportWidth viewportHeight) :=
    p.fit_fits
  have hview := p.valid.view
  have hsafe := p.valid.safe
  have hcast : ∀ {given : ℚ} {margin : ℤ}, 0 ≤ given → ⌊given⌋ ≤ margin → (0 : ℚ) ≤ margin := by
    intro given margin hgiven hle
    exact Int.cast_nonneg ((Int.floor_nonneg.mpr hgiven).trans hle)
  refine ⟨⟨?_, ?_, ?_, ?_⟩, hsafe.left, hsafe.top, hsafe.right, ?_⟩
  · exact hcast hview.left hfits.left
  · exact hcast hview.top hfits.top
  · exact hcast hview.right hfits.right
  · exact hcast hview.bottom hfits.bottom
  · exact hsafe.bottom.trans (le_max_left _ _)

/-- The fitted fields pass every check but perhaps the last. -/
theorem fittedFields_checks :
    (p.fittedFields viewportWidth viewportHeight overlayHeight).checks =
      check (.text "View Area and Safe Area must leave visible content.")
        (p.fittedFields viewportWidth viewportHeight overlayHeight).Visible := by
  obtain ⟨hview, hsafe⟩ := p.fittedFields_nonneg viewportWidth viewportHeight overlayHeight
  exact ProjectionFields.checks_eq_visible p.valid.dimensions p.valid.rates hsafe hview

theorem fittedFields_visible :
    (p.fittedFields viewportWidth viewportHeight overlayHeight).Visible ↔
      p.safeInsets.left + p.safeInsets.right <
          p.contentWidth (p.fit viewportWidth viewportHeight) ∧
        p.safeInsets.top + p.reserved viewportWidth viewportHeight overlayHeight <
          p.contentHeight (p.fit viewportWidth viewportHeight) := by
  have hfits : p.Fits (viewportWidth / viewportHeight) (p.fit viewportWidth viewportHeight) :=
    p.fit_fits
  obtain ⟨hwidth, hheight⟩ := hfits.two_le
  have hwidth : ((2 : ℤ) : ℚ) ≤ p.contentWidth (p.fit viewportWidth viewportHeight) :=
    Int.cast_le.mpr hwidth
  have hheight : ((2 : ℤ) : ℚ) ≤ p.contentHeight (p.fit viewportWidth viewportHeight) :=
    Int.cast_le.mpr hheight
  unfold ProjectionFields.Visible fittedFields
  unfold contentWidth contentHeight at *
  dsimp only
  push_cast at hwidth hheight ⊢
  push Not
  constructor
  · rintro ⟨-, -, hleft, htop⟩
    exact ⟨by linarith, by linarith⟩
  · rintro ⟨hleft, htop⟩
    exact ⟨by linarith, by linarith, by linarith, by linarith⟩

theorem margins_fitted (h : q.toProjectionFields =
    p.fittedFields viewportWidth viewportHeight overlayHeight) :
    q.margins = p.fit viewportWidth viewportHeight := by
  unfold margins
  rw [h]
  unfold fittedFields
  simp only [Int.floor_intCast]

theorem contentWidth_fitted (h : q.toProjectionFields =
    p.fittedFields viewportWidth viewportHeight overlayHeight) (m : Margins) :
    q.contentWidth m = p.contentWidth m := by
  unfold contentWidth
  rw [h]
  rfl

theorem contentHeight_fitted (h : q.toProjectionFields =
    p.fittedFields viewportWidth viewportHeight overlayHeight) (m : Margins) :
    q.contentHeight m = p.contentHeight m := by
  unfold contentHeight
  rw [h]
  rfl

theorem scale_fitted (h : q.toProjectionFields =
    p.fittedFields viewportWidth viewportHeight overlayHeight) (m : Margins) :
    q.scale m viewportWidth viewportHeight = p.scale m viewportWidth viewportHeight := by
  unfold scale
  rw [contentWidth_fitted h, contentHeight_fitted h]

theorem scale_pos {m : Margins} (hw : 0 < viewportWidth) (hh : 0 < viewportHeight)
    (hwidth : 0 < p.contentWidth m) (hheight : 0 < p.contentHeight m) :
    0 < p.scale m viewportWidth viewportHeight := by
  have hwidth : (0 : ℚ) < p.contentWidth m := Int.cast_pos.mpr hwidth
  have hheight : (0 : ℚ) < p.contentHeight m := Int.cast_pos.mpr hheight
  unfold scale
  dsimp only
  split
  · exact div_pos hw hwidth
  · exact div_pos hh hheight

theorem fitted_of_eq (hw : 0 < viewportWidth) (hh : 0 < viewportHeight)
    (h : q.toProjectionFields = p.fittedFields viewportWidth viewportHeight overlayHeight) :
    p.Fitted viewportWidth viewportHeight overlayHeight q := by
  have hfits : p.Fits (viewportWidth / viewportHeight) (p.fit viewportWidth viewportHeight) :=
    p.fit_fits
  have hmargins := margins_fitted h
  obtain ⟨hwidth, hheight⟩ := hfits.two_le
  have hbottom : q.safeInsets.bottom = p.reserved viewportWidth viewportHeight overlayHeight := by
    rw [h]
    rfl
  have hscale : 0 < p.scale (p.fit viewportWidth viewportHeight) viewportWidth viewportHeight :=
    scale_pos hw hh (by omega) (by omega)
  constructor
  · rw [h]
    exact ⟨rfl, rfl, rfl, rfl, rfl⟩
  · rw [h]
    exact ⟨rfl, rfl, rfl⟩
  · rw [h]
    exact ⟨Int.cast_le.mpr hfits.left, Int.cast_le.mpr hfits.top, Int.cast_le.mpr hfits.right,
      Int.cast_le.mpr hfits.bottom⟩
  · rw [hmargins, contentWidth_fitted h, contentHeight_fitted h]
    exact ⟨hwidth, hheight⟩
  · rw [hmargins, contentWidth_fitted h, contentHeight_fitted h]
    exact hfits.even
  · rw [hmargins, contentWidth_fitted h, contentHeight_fitted h]
    exact hfits.near (div_pos hw hh)
  · rw [hmargins, scale_fitted h, hbottom, ← div_le_iff₀ hscale]
    calc
      overlayHeight / p.scale (p.fit viewportWidth viewportHeight) viewportWidth viewportHeight ≤
          ⌈overlayHeight / p.scale (p.fit viewportWidth viewportHeight) viewportWidth
            viewportHeight⌉ := Int.le_ceil _
      _ ≤ p.reserved viewportWidth viewportHeight overlayHeight := le_max_right _ _
  · rw [hbottom]
    exact le_max_left _ _

/-! ## A second fit -/

theorem fit_eq_of_wide {q : ProjectionPreferences}
    (hwide : q.contentHeight q.margins * (viewportWidth / viewportHeight) <
      q.contentWidth q.margins) :
    q.fit viewportWidth viewportHeight = q.margins ↔
      content (q.contentWidth q.margins)
        (q.contentHeight q.margins * (viewportWidth / viewportHeight)) =
          q.contentWidth q.margins := by
  obtain ⟨hwidth, hheight⟩ := q.two_le_available
  have hpos : (0 : ℚ) < q.contentHeight q.margins := Int.cast_pos.mpr (by omega)
  have hratio : (q.contentWidth q.margins : ℚ) / q.contentHeight q.margins >
      viewportWidth / viewportHeight := by
    rw [gt_iff_lt, lt_div_iff₀ hpos, mul_comm]
    exact hwide
  have hless := content_le hwidth
    (q.contentHeight q.margins * (viewportWidth / viewportHeight))
  unfold fit
  dsimp only
  rw [if_pos hratio]
  constructor
  · intro h
    have hleft := congrArg Margins.left h
    have hright := congrArg Margins.right h
    dsimp only at hleft hright
    omega
  · intro h
    rw [h]
    simp

theorem fit_eq_of_tall {q : ProjectionPreferences}
    (htall : (q.contentWidth q.margins : ℚ) ≤
      q.contentHeight q.margins * (viewportWidth / viewportHeight)) :
    q.fit viewportWidth viewportHeight = q.margins ↔
      content (q.contentHeight q.margins)
        (q.contentWidth q.margins / (viewportWidth / viewportHeight)) =
          q.contentHeight q.margins := by
  obtain ⟨hwidth, hheight⟩ := q.two_le_available
  have hpos : (0 : ℚ) < q.contentHeight q.margins := Int.cast_pos.mpr (by omega)
  have hratio : ¬(q.contentWidth q.margins : ℚ) / q.contentHeight q.margins >
      viewportWidth / viewportHeight := by
    rw [gt_iff_lt, not_lt, div_le_iff₀ hpos, mul_comm]
    exact htall
  have hless := content_le hheight
    (q.contentWidth q.margins / (viewportWidth / viewportHeight))
  unfold fit
  dsimp only
  rw [if_neg hratio]
  constructor
  · intro h
    have htop := congrArg Margins.top h
    have hbottom := congrArg Margins.bottom h
    dsimp only at htop hbottom
    omega
  · intro h
    rw [h]
    simp

/-- A value whose content a fit leaves alone. -/
def Settled (q : ProjectionPreferences) (aspect : ℚ) : Prop :=
  ((q.contentWidth q.margins : ℚ) = q.contentHeight q.margins * aspect ∧
    q.contentHeight q.margins % 2 = 0) ∨
  (q.contentHeight q.margins * aspect < q.contentWidth q.margins ∧
    q.contentWidth q.margins = 2) ∨
  ((q.contentWidth q.margins : ℚ) ≤ q.contentHeight q.margins * aspect ∧
    q.contentHeight q.margins = 2)

/-- Fitting keeps the margins only if the ratio is exact, or nothing more can be cut. -/
theorem fit_eq_margins_iff (q : ProjectionPreferences)
    (haspect : 0 < viewportWidth / viewportHeight) :
    q.fit viewportWidth viewportHeight = q.margins ↔
      q.Settled (viewportWidth / viewportHeight) := by
  obtain ⟨hwidth, hheight⟩ := q.two_le_available
  unfold Settled
  by_cases hwide : q.contentHeight q.margins * (viewportWidth / viewportHeight) <
      (q.contentWidth q.margins : ℚ)
  · rw [fit_eq_of_wide hwide, content_eq_iff hwidth hwide.le]
    constructor
    · rintro ⟨-, hideal | htwo⟩
      · exact absurd hideal hwide.ne
      · exact Or.inr (Or.inl ⟨hwide, htwo⟩)
    · rintro (⟨hexact, -⟩ | ⟨-, htwo⟩ | ⟨htall, -⟩)
      · exact absurd hexact hwide.ne'
      · exact ⟨by omega, Or.inr htwo⟩
      · exact absurd htall (not_le.mpr hwide)
  · have htall := not_lt.mp hwide
    rw [fit_eq_of_tall htall, content_eq_iff hheight ((div_le_iff₀ haspect).mpr htall),
      div_eq_iff haspect.ne']
    constructor
    · rintro ⟨heven, hideal | htwo⟩
      · exact Or.inl ⟨hideal, heven⟩
      · exact Or.inr (Or.inr ⟨htall, htwo⟩)
    · rintro (⟨hexact, heven⟩ | ⟨hless, -⟩ | ⟨-, htwo⟩)
      · exact ⟨heven, Or.inl hexact⟩
      · exact absurd hless hwide
      · exact ⟨by omega, Or.inr htwo⟩

/-- A fitted value is left alone exactly if its content is. -/
theorem refit_iff (hw : 0 < viewportWidth) (hh : 0 < viewportHeight)
    (h : q.toProjectionFields = p.fittedFields viewportWidth viewportHeight overlayHeight) :
    q.forViewport viewportWidth viewportHeight overlayHeight = .ok q ↔
      q.Settled (viewportWidth / viewportHeight) := by
  rw [← q.fit_eq_margins_iff (div_pos hw hh), forViewport_eq hw hh, create_eq_ok]
  have hmargins := margins_fitted h
  have hview : q.viewInsets =
      ⟨q.margins.left, q.margins.top, q.margins.right, q.margins.bottom⟩ := by
    rw [hmargins, h]
    rfl
  constructor
  · intro hsame
    have hinsets := congrArg ProjectionFields.viewInsets hsame
    rw [hview] at hinsets
    unfold fittedFields at hinsets
    simp only [ProjectionInsets.mk.injEq, Int.cast_inj] at hinsets
    obtain ⟨hleft, htop, hright, hbottom⟩ := hinsets
    rcases hfit : q.fit viewportWidth viewportHeight with ⟨left, top, right, bottom⟩
    rw [hfit] at hleft htop hright hbottom
    rcases hfound : q.margins with ⟨left', top', right', bottom'⟩
    rw [hfound] at hleft htop hright hbottom
    dsimp only at hleft htop hright hbottom
    rw [hleft, htop, hright, hbottom]
  · intro hfit
    have hbottom : q.safeInsets.bottom =
        p.reserved viewportWidth viewportHeight overlayHeight := by
      rw [h]
      rfl
    have hreserved : q.reserved viewportWidth viewportHeight overlayHeight =
        q.safeInsets.bottom := by
      unfold reserved
      rw [hfit, hmargins, scale_fitted h]
      apply max_eq_left
      rw [hbottom]
      exact le_max_right _ _
    unfold fittedFields
    rw [hfit, hreserved]
    dsimp only
    rw [← hview]

/-- Fitting returns exactly if the two safe areas leave visible content of the fitted one, and
throws the error of the constructor otherwise. What it returns has at least the whole pixels of
the given margins, one dimension as it was and the other even and within two pixels of the ratio,
and a bottom that covers the overlay. A second fit changes nothing only if the ratio is exact and
the height even, or the dimension that is too long has two pixels. -/
theorem forViewport_exact (p : ProjectionPreferences) (hw : 0 < viewportWidth)
    (hh : 0 < viewportHeight) (overlayHeight : ℚ) :
    ((∃ q, p.forViewport viewportWidth viewportHeight overlayHeight = .ok q) ↔
      p.safeInsets.left + p.safeInsets.right <
          p.contentWidth (p.fit viewportWidth viewportHeight) ∧
        p.safeInsets.top + p.reserved viewportWidth viewportHeight overlayHeight <
          p.contentHeight (p.fit viewportWidth viewportHeight)) ∧
    (∀ e, p.forViewport viewportWidth viewportHeight overlayHeight = .error e →
      e = .text "View Area and Safe Area must leave visible content.") ∧
    ∀ q, p.forViewport viewportWidth viewportHeight overlayHeight = .ok q →
      p.Fitted viewportWidth viewportHeight overlayHeight q ∧
        (q.forViewport viewportWidth viewportHeight overlayHeight = .ok q ↔
          q.Settled (viewportWidth / viewportHeight)) := by
  rw [forViewport_eq hw hh]
  refine ⟨?_, ?_, ?_⟩
  · rw [← fittedFields_visible]
    constructor
    · rintro ⟨q, hq⟩
      have hfields := create_eq_ok.mp hq
      exact hfields ▸ q.valid.visible
    · intro hvisible
      have hvalid := ProjectionFields.checks_eq_ok.mp
        (fittedFields_checks.trans (check_eq_ok.mpr hvisible))
      exact ⟨⟨_, hvalid⟩, create_eq_ok.mpr rfl⟩
  · intro e he
    rw [create_eq_error, fittedFields_checks] at he
    unfold check at he
    split at he
    · exact nomatch he
    · cases he
      rfl
  · intro q hq
    have hfields := create_eq_ok.mp hq
    exact ⟨fitted_of_eq hw hh hfields, refit_iff hw hh hfields⟩

end Viewport

/-- A margin of half a pixel on the left. -/
def halfMargin : ProjectionPreferences where
  width := 1280
  height := 720
  dpi := 160
  framesPerSecond := 30
  driverSide := .left
  safeInsets := {}
  viewInsets := { left := 1 / 2 }
  valid := by decide +kernel

/-- The view area of the defaults over a region that is not quite as wide. -/
def nearlyWide : ProjectionPreferences where
  width := 1280
  height := 720
  dpi := 160
  framesPerSecond := 30
  driverSide := .left
  safeInsets := {}
  viewInsets := { left := 161, right := 161 }
  valid := by decide +kernel

theorem forViewport_exact_defaults :
    ((∃ q, defaults.forViewport 800 601 0 = .ok q) ↔
      defaults.safeInsets.left + defaults.safeInsets.right <
          defaults.contentWidth (defaults.fit 800 601) ∧
        defaults.safeInsets.top + defaults.reserved 800 601 0 <
          defaults.contentHeight (defaults.fit 800 601)) ∧
    (∀ e, defaults.forViewport 800 601 0 = .error e →
      e = .text "View Area and Safe Area must leave visible content.") ∧
    ∀ q, defaults.forViewport 800 601 0 = .ok q → defaults.Fitted 800 601 0 q ∧
      (q.forViewport 800 601 0 = .ok q ↔ q.Settled (800 / 601)) :=
  forViewport_exact defaults (by norm_num) (by norm_num) 0

/-- An overlay nearly as high as the viewport leaves nothing, a fraction of a pixel is dropped,
and a second fit cuts the other dimension. -/
theorem forViewport_not_stable :
    (∀ q, defaults.forViewport 1280 720 (719 + 1 / 2) ≠ .ok q) ∧
      (∃ q, halfMargin.forViewport 1280 720 0 = .ok q ∧
        q.viewInsets.left < halfMargin.viewInsets.left) ∧
      defaults.forViewport 800 601 0 = .ok nearlyWide ∧
        nearlyWide.forViewport 800 601 0 ≠ .ok nearlyWide := by
  refine ⟨?_, ?_, ?_, ?_⟩
  · have herror : defaults.forViewport 1280 720 (719 + 1 / 2) =
        .error (.text "View Area and Safe Area must leave visible content.") := by
      decide +kernel
    intro q hq
    rw [herror] at hq
    cases hq
  · exact ⟨defaults, by decide +kernel, by decide +kernel⟩
  · decide +kernel
  · decide +kernel

end ProjectionPreferences
end ProjectArgo.Projection
