import Mathlib
/-!
# Errors and times shared by the CarPlay protocol modules

Durations are natural numbers of nanoseconds. Addition saturates at the
largest duration, as the accessory's timers do.
-/
namespace ProjectArgo.CarPlay

/-- The error codes of every bounded codec and state machine below. -/
inductive Error where
  | bounds
  | malformed
  | checksum
  | unsupported
  | state
  | sequence
  | timeout
  | rejected
  deriving DecidableEq

/-- The largest representable duration, in nanoseconds. -/
def durationMax : Nat := (2 ^ 64 - 1) * 1000000000 + 999999999

def saturatingAdd (a b : Nat) : Nat := min (a + b) durationMax

end ProjectArgo.CarPlay
