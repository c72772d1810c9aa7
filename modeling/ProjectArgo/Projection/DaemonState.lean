import ProjectArgo.Projection.Channels

/-!
# The published state of the projection daemon

One snapshot is shared by everything that runs a projection attempt, and every
change of it is published to the host. Metadata is left out: nothing here reads it.
-/
namespace ProjectArgo.Projection

inductive ProjectionSessionStatus
  | connecting
  | ready
  | streaming
  | suspended
  | failed
  deriving DecidableEq

structure ProjectionDeviceStatus where
  id : String
  displayName : String
  transport : ℕ
  deriving DecidableEq

/-- `ProjectionSessionStatusSnapshot`. -/
structure SessionSnapshot where
  id : String
  deviceId : String
  state : ProjectionSessionStatus
  failure : Option String
  deriving DecidableEq

/-- `ProjectionRuntimeSnapshot`. -/
structure RuntimeSnapshot where
  device : Option ProjectionDeviceStatus := none
  session : Option SessionSnapshot := none
  videoCodec : VideoCodec := .h264
  video : Option (DisplayConfig × Bool) := none
  audio : List Bool := [false, false, false]
  hostReturnRevision : ℕ := 0
  presentationRevision : ℕ := 0
  deriving DecidableEq

namespace RuntimeSnapshot

def connecting (deviceId displayName : String) : RuntimeSnapshot where
  device := some ⟨deviceId, displayName, 0⟩
  session := some ⟨"aa-wired:" ++ deviceId, deviceId, .connecting, none⟩

def ready (snapshot : RuntimeSnapshot) : RuntimeSnapshot :=
  { snapshot with session := snapshot.session.map fun session =>
      { session with state := .ready, failure := none } }

def failed (snapshot : RuntimeSnapshot) (failure : String) : RuntimeSnapshot :=
  { snapshot with
    video := none
    audio := [false, false, false]
    session := snapshot.session.map fun session =>
      { session with state := .failed, failure := some failure } }

/-- The host is told to show the video stream. -/
def visible (snapshot : RuntimeSnapshot) : Bool := snapshot.video.any (·.2)

/-- The snapshot is that of the session. -/
def IsOf (snapshot : RuntimeSnapshot) (id : String) : Prop :=
  snapshot.session.any (·.id = id) = true

instance (snapshot : RuntimeSnapshot) (id : String) : Decidable (snapshot.IsOf id) :=
  inferInstanceAs (Decidable (_ = true))

end RuntimeSnapshot

/-- `saturating_add(1)` of a 32-bit revision. -/
def nextRevision (revision : ℕ) : ℕ := min (revision + 1) (2 ^ 32 - 1)

end ProjectArgo.Projection
