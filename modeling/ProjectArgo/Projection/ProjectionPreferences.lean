import Mathlib.Algebra.Order.Floor.Ring
import Mathlib.Data.Rat.Floor
import Mathlib.Tactic.FieldSimp
import Mathlib.Tactic.Linarith
import ProjectArgo.Library.Deciding

/-!
# Preferences of the projection

The picture that is asked of the phone: its size, and the two areas within it. The
view area is fitted to the ratio of the region on the screen, the safe area keeps clear
of what lies over it. A value that leaves no visible content cannot be built.
-/
namespace ProjectArgo.Projection

open Library.Deciding

structure ProjectionInsets where
  left : ℚ := 0
  top : ℚ := 0
  right : ℚ := 0
  bottom : ℚ := 0
  deriving DecidableEq

inductive ProjectionDriverSide
  | left
  | right
  deriving DecidableEq

/-- `ArgumentError`, with the value and the name where they are given. -/
inductive ArgumentError
  | text (message : String)
  | value (value : ℚ) (name message : String)
  deriving DecidableEq

/-- The arguments of the constructor. -/
structure ProjectionFields where
  width : ℤ
  height : ℤ
  dpi : ℤ
  framesPerSecond : ℤ
  driverSide : ProjectionDriverSide
  safeInsets : ProjectionInsets
  viewInsets : ProjectionInsets := {}
  deriving DecidableEq

structure ProjectionInsets.Nonneg (insets : ProjectionInsets) : Prop where
  left : 0 ≤ insets.left
  top : 0 ≤ insets.top
  right : 0 ≤ insets.right
  bottom : 0 ≤ insets.bottom

def ProjectionInsets.validate (insets : ProjectionInsets) (name : String) :
    Except ArgumentError Unit :=
  each (fun value => check (.value value name "Must be finite and non-negative") (0 ≤ value))
    [insets.left, insets.top, insets.right, insets.bottom]

namespace ProjectionFields

def dimensions : List (ℤ × ℤ) := [(800, 480), (1280, 720), (1920, 1080)]

/-- The insets leave more than one pixel of the view area and some of the safe area. -/
def Visible (p : ProjectionFields) : Prop :=
  ¬(p.viewInsets.left + p.viewInsets.right ≥ p.width - 1 ∨
    p.viewInsets.top + p.viewInsets.bottom ≥ p.height - 1 ∨
    p.safeInsets.left + p.safeInsets.right ≥ p.width - p.viewInsets.left - p.viewInsets.right ∨
    p.safeInsets.top + p.safeInsets.bottom ≥ p.height - p.viewInsets.top - p.viewInsets.bottom)

instance (p : ProjectionFields) : Decidable p.Visible := inferInstanceAs (Decidable (¬_))

structure Valid (p : ProjectionFields) : Prop where
  dimensions : (p.width, p.height) ∈ dimensions
  rates : ¬(p.dpi < 80 ∨ p.dpi > 640 ∨ p.framesPerSecond ≠ 30 ∧ p.framesPerSecond ≠ 60)
  safe : p.safeInsets.Nonneg
  view : p.viewInsets.Nonneg
  visible : p.Visible

/-- The checks of the constructor. -/
def checks (p : ProjectionFields) : Except ArgumentError Unit := do
  check (.text "Projection dimensions are outside supported bounds.")
    ((p.width, p.height) ∈ dimensions)
  check (.text "Projection DPI or FPS is outside supported bounds.")
    (¬(p.dpi < 80 ∨ p.dpi > 640 ∨ p.framesPerSecond ≠ 30 ∧ p.framesPerSecond ≠ 60))
  p.safeInsets.validate "safeInsets"
  p.viewInsets.validate "viewInsets"
  check (.text "View Area and Safe Area must leave visible content.") p.Visible

theorem validate_eq_ok {insets : ProjectionInsets} {name : String} :
    insets.validate name = .ok () ↔ insets.Nonneg := by
  simp only [ProjectionInsets.validate, each_eq_ok, check_eq_ok, List.forall_mem_cons,
    List.not_mem_nil, false_implies, implies_true, and_true]
  exact ⟨fun ⟨hl, ht, hr, hb⟩ => ⟨hl, ht, hr, hb⟩, fun ⟨hl, ht, hr, hb⟩ => ⟨hl, ht, hr, hb⟩⟩

theorem checks_eq_ok {p : ProjectionFields} : p.checks = .ok () ↔ p.Valid := by
  simp only [checks, bind_eq_ok, check_eq_ok, validate_eq_ok]
  constructor
  · rintro ⟨hdimensions, hrates, hsafe, hview, hvisible⟩
    exact ⟨hdimensions, hrates, hsafe, hview, hvisible⟩
  · rintro ⟨hdimensions, hrates, hsafe, hview, hvisible⟩
    exact ⟨hdimensions, hrates, hsafe, hview, hvisible⟩

/-- What is left of the checks where the others are known to pass. -/
theorem checks_eq_visible {p : ProjectionFields} (hdimensions : (p.width, p.height) ∈ dimensions)
    (hrates : ¬(p.dpi < 80 ∨ p.dpi > 640 ∨ p.framesPerSecond ≠ 30 ∧ p.framesPerSecond ≠ 60))
    (hsafe : p.safeInsets.Nonneg) (hview : p.viewInsets.Nonneg) :
    p.checks =
      check (.text "View Area and Safe Area must leave visible content.") p.Visible := by
  rw [checks, check_eq_ok.mpr hdimensions, check_eq_ok.mpr hrates, validate_eq_ok.mpr hsafe,
    validate_eq_ok.mpr hview]
  rfl

instance (p : ProjectionFields) : Decidable p.Valid :=
  decidable_of_iff (p.checks = .ok ()) checks_eq_ok

end ProjectionFields

structure ProjectionPreferences extends ProjectionFields where
  valid : toProjectionFields.Valid
  deriving DecidableEq

namespace ProjectionPreferences

/-- The constructor; a copy with other fields goes through it as well. -/
def create (p : ProjectionFields) : Except ArgumentError ProjectionPreferences :=
  match h : p.checks with
  | .error e => .error e
  | .ok () => .ok ⟨p, ProjectionFields.checks_eq_ok.mp h⟩

theorem create_eq_ok {p : ProjectionFields} {q : ProjectionPreferences} :
    create p = .ok q ↔ q.toProjectionFields = p := by
  unfold create
  split
  · next e he =>
    refine iff_of_false (fun h => nomatch h) ?_
    rintro rfl
    rw [ProjectionFields.checks_eq_ok.mpr q.valid] at he
    exact nomatch he
  · next h =>
    constructor
    · rintro ⟨⟩
      rfl
    · rintro rfl
      rfl

theorem create_eq_error {p : ProjectionFields} {e : ArgumentError} :
    create p = .error e ↔ p.checks = .error e := by
  unfold create
  split
  · next e' he =>
    rw [he]
    exact ⟨fun h => by cases h; rfl, fun h => by cases h; rfl⟩
  · next hok =>
    refine iff_of_false (fun h => nomatch h) ?_
    intro herror
    rw [hok] at herror
    exact nomatch herror

def defaults : ProjectionPreferences where
  width := 1280
  height := 720
  dpi := 160
  framesPerSecond := 30
  driverSide := .left
  safeInsets := {}
  valid := by decide +kernel

/-- Margins of the picture in whole pixels. -/
structure Margins where
  left : ℤ
  top : ℤ
  right : ℤ
  bottom : ℤ
  deriving DecidableEq

def margins (p : ProjectionPreferences) : Margins where
  left := ⌊p.viewInsets.left⌋
  top := ⌊p.viewInsets.top⌋
  right := ⌊p.viewInsets.right⌋
  bottom := ⌊p.viewInsets.bottom⌋

/-- What margins leave of the picture. -/
def contentWidth (p : ProjectionPreferences) (m : Margins) : ℤ := p.width - m.left - m.right

def contentHeight (p : ProjectionPreferences) (m : Margins) : ℤ := p.height - m.top - m.bottom

/-- The even size nearest below the ideal one, within what is available. -/
def content (available : ℤ) (ideal : ℚ) : ℤ :=
  let size := max 2 (min available ⌊ideal⌋)
  size - size % 2

/-- The margins after fitting: the dimension that is too long for the ratio is cut. -/
def fit (p : ProjectionPreferences) (viewportWidth viewportHeight : ℚ) : Margins :=
  let m := p.margins
  let availableW := p.contentWidth m
  let availableH := p.contentHeight m
  let aspect := viewportWidth / viewportHeight
  if (availableW : ℚ) / availableH > aspect then
    let margin := availableW - content availableW (availableH * aspect)
    { m with left := m.left + margin / 2, right := m.right + (margin - margin / 2) }
  else
    let margin := availableH - content availableH (availableW / aspect)
    { m with top := m.top + margin / 2, bottom := m.bottom + (margin - margin / 2) }

/-- How many pixels of the screen one pixel of the picture takes. -/
def scale (p : ProjectionPreferences) (m : Margins) (viewportWidth viewportHeight : ℚ) : ℚ :=
  let scaleY := viewportHeight / p.contentHeight m
  let scaleX := viewportWidth / p.contentWidth m
  if scaleX < scaleY then scaleX else scaleY

def forViewport (p : ProjectionPreferences) (viewportWidth viewportHeight overlayHeight : ℚ) :
    Except ArgumentError ProjectionPreferences :=
  if viewportWidth ≤ 0 ∨ viewportHeight ≤ 0 then .ok p
  else
    let m := p.fit viewportWidth viewportHeight
    let reserve : ℚ := ⌈overlayHeight / p.scale m viewportWidth viewportHeight⌉
    create
      { p.toProjectionFields with
        viewInsets := { left := m.left, top := m.top, right := m.right, bottom := m.bottom }
        safeInsets :=
          { p.safeInsets with
            bottom := if reserve > p.safeInsets.bottom then reserve else p.safeInsets.bottom } }

end ProjectionPreferences
end ProjectArgo.Projection
