import ProjectArgo.Library.Writing
import ProjectArgo.Projection.ProjectionPreferences

/-!
# Storing the preferences

The preferences are one value, and validity is a relation between its parts, but the
settings hold each part under a key of its own and the keys are written one after
another. What a save that is cut off leaves behind is a mixture of two values.
-/
namespace ProjectArgo.Projection

open Library.Writing

inductive PreferenceKey
  | displayWidth
  | displayHeight
  | displayDpi
  | framesPerSecond
  | driverSide
  | viewInsetLeft
  | viewInsetTop
  | viewInsetRight
  | viewInsetBottom
  | safeInsetLeft
  | safeInsetTop
  | safeInsetRight
  | safeInsetBottom
  deriving DecidableEq

namespace PreferenceKey

@[reducible] def Value : PreferenceKey → Type
  | driverSide => ProjectionDriverSide
  | _ => ℤ

/-- The order in which `persist` writes. -/
def order : List PreferenceKey :=
  [displayWidth, displayHeight, displayDpi, framesPerSecond, driverSide, viewInsetLeft,
    viewInsetTop, viewInsetRight, viewInsetBottom, safeInsetLeft, safeInsetTop, safeInsetRight,
    safeInsetBottom]

/-- Integers within the bounds of a setting. -/
def bounded (minimum maximum value : ℤ) : Bool := minimum ≤ value ∧ value ≤ maximum

/-- Whether the setting takes a value; `set` throws where it does not. -/
def accepts : (key : PreferenceKey) → key.Value → Bool
  | displayWidth, value => bounded 640 3840 value
  | displayHeight, value => bounded 360 2160 value
  | displayDpi, value => bounded 80 640 value
  | framesPerSecond, value => value = 30 ∨ value = 60
  | driverSide, _ => true
  | viewInsetLeft, value => bounded 0 1000 value
  | viewInsetTop, value => bounded 0 1000 value
  | viewInsetRight, value => bounded 0 1000 value
  | viewInsetBottom, value => bounded 0 1000 value
  | safeInsetLeft, value => bounded 0 1000 value
  | safeInsetTop, value => bounded 0 1000 value
  | safeInsetRight, value => bounded 0 1000 value
  | safeInsetBottom, value => bounded 0 1000 value

end PreferenceKey

/-- The values of the settings. -/
abbrev Stored := (key : PreferenceKey) → key.Value

namespace ProjectionPreferences

open PreferenceKey

/-- What `persist` writes: insets without their fractions. -/
def stored (p : ProjectionPreferences) : Stored
  | displayWidth => p.width
  | displayHeight => p.height
  | displayDpi => p.dpi
  | framesPerSecond => p.framesPerSecond
  | driverSide => p.driverSide
  | viewInsetLeft => ⌊p.viewInsets.left⌋
  | viewInsetTop => ⌊p.viewInsets.top⌋
  | viewInsetRight => ⌊p.viewInsets.right⌋
  | viewInsetBottom => ⌊p.viewInsets.bottom⌋
  | safeInsetLeft => ⌊p.safeInsets.left⌋
  | safeInsetTop => ⌊p.safeInsets.top⌋
  | safeInsetRight => ⌊p.safeInsets.right⌋
  | safeInsetBottom => ⌊p.safeInsets.bottom⌋

/-- The arguments that `fromSettings` reads. -/
def settingsFields (settings : Stored) : ProjectionFields where
  width := settings displayWidth
  height := settings displayHeight
  dpi := settings displayDpi
  framesPerSecond := settings framesPerSecond
  driverSide := settings driverSide
  viewInsets :=
    { left := (settings viewInsetLeft : ℤ)
      top := (settings viewInsetTop : ℤ)
      right := (settings viewInsetRight : ℤ)
      bottom := (settings viewInsetBottom : ℤ) }
  safeInsets :=
    { left := (settings safeInsetLeft : ℤ)
      top := (settings safeInsetTop : ℤ)
      right := (settings safeInsetRight : ℤ)
      bottom := (settings safeInsetBottom : ℤ) }

def fromSettings (settings : Stored) : Except ArgumentError ProjectionPreferences :=
  create (settingsFields settings)

end ProjectionPreferences

namespace ProjectionSettingsService

open ProjectionPreferences

/-- Thirteen writes, each of which may fail or be cut off. -/
def persist (settings : Stored) (p : ProjectionPreferences)
    (outcome : PreferenceKey → WriteOutcome) : Stored × WriteEnding :=
  writeAll (fun key => key.accepts (p.stored key)) p.stored outcome PreferenceKey.order settings

/-- What is stored after a load, and what it returns if it does. -/
def load (settings : Stored) (outcome : PreferenceKey → WriteOutcome) :
    Stored × Option ProjectionPreferences :=
  match fromSettings settings with
  | .ok p => (settings, some p)
  | .error _ =>
    let fallback := defaults
    match persist settings fallback outcome with
    | (settings, .completed) => (settings, some fallback)
    | (settings, _) => (settings, none)

/-- How an update ends. -/
inductive Updated
  | unsupported
  | failed
  | ended
  | unsent
  | sent
  deriving DecidableEq

/-- `_update`, with what is stored and requested afterwards. `supported` and `sent` stand for the
daemon. -/
def update (settings : Stored) (requested : ProjectionPreferences) (supported : Bool)
    (value : ProjectionPreferences) (outcome : PreferenceKey → WriteOutcome) (sent : Bool) :
    Stored × ProjectionPreferences × Updated :=
  if !supported then (settings, requested, .unsupported)
  else
    match persist settings value outcome with
    | (settings, .ended) => (settings, requested, .ended)
    | (settings, .failed) => (settings, requested, .failed)
    | (settings, .completed) => (settings, value, if sent then .sent else .unsent)

end ProjectionSettingsService
end ProjectArgo.Projection
