import Mathlib

/-!
# The lifecycle of a wired phone

A phone is first seen as an ordinary USB device. It is probed, told to switch, and
comes back under a new id as an accessory, which the session then owns. The state
machine owns one phone at a time. Instants are natural numbers of nanoseconds.
-/
namespace ProjectArgo.Projection

/-- `ACCESSORY_WAIT`. -/
def accessoryWait : ℕ := 15 * 10 ^ 9

/-- A device id is the debug text of the backend's id. -/
structure UsbDeviceKey where
  id : String
  serial : Option String
  deriving DecidableEq

inductive UsbConnectionState
  | disconnected
  | discovered (device : UsbDeviceKey)
  | probing (device : UsbDeviceKey)
  | switching (device : UsbDeviceKey) (protocolVersion : ℕ)
  | waitingForAccessory (original : UsbDeviceKey) (deadline : ℕ) (originalRemoved : Bool)
  | accessoryPresent (device : UsbDeviceKey)
  | sessionStarting (device : UsbDeviceKey)
  | waitingForTls (device : UsbDeviceKey) (protocolMajor protocolMinor : ℕ)
  | failed (device : UsbDeviceKey) (reason : String)
  deriving DecidableEq

/-- Two serials that are both known must be the same. -/
def serialsCanCorrelate (original accessory : UsbDeviceKey) : Bool :=
  match original.serial, accessory.serial with
  | some expected, some actual => expected = actual
  | _, _ => true

namespace UsbConnectionState

/-- The device a state is about. -/
def device? : UsbConnectionState → Option UsbDeviceKey
  | disconnected => none
  | discovered device => some device
  | probing device => some device
  | switching device _ => some device
  | waitingForAccessory original _ _ => some original
  | accessoryPresent device => some device
  | sessionStarting device => some device
  | waitingForTls device _ _ => some device
  | failed device _ => some device

def isWaiting : UsbConnectionState → Bool
  | waitingForAccessory _ _ _ => true
  | _ => false

/-! Every operation returns the next state, and whether it applied. -/

def candidateDiscovered (state : UsbConnectionState) (device : UsbDeviceKey) :
    UsbConnectionState × Bool :=
  let available := match state with
    | disconnected => true
    | failed other _ => other.id ≠ device.id
    | waitingForAccessory original _ true => original.id ≠ device.id
    | _ => false
  if available then (probing device, true) else (state, false)

def accessorySwitchRequested (state : UsbConnectionState) (id : String) (now : ℕ) :
    UsbConnectionState × Bool :=
  match state with
  | probing device =>
    if device.id = id then (waitingForAccessory device (now + accessoryWait) false, true)
    else (state, false)
  | _ => (state, false)

def probeFailed (state : UsbConnectionState) (id reason : String) : UsbConnectionState × Bool :=
  match state with
  | probing device => if device.id = id then (failed device reason, true) else (state, false)
  | waitingForAccessory original _ _ =>
    if original.id = id then (failed original reason, true) else (state, false)
  | _ => (state, false)

def accessoryDiscovered (state : UsbConnectionState) (device : UsbDeviceKey) (now : ℕ) :
    UsbConnectionState × Bool :=
  match state with
  | disconnected => (accessoryPresent device, true)
  | waitingForAccessory original deadline _ =>
    if now ≤ deadline ∧ serialsCanCorrelate original device = true then
      (accessoryPresent device, true)
    else (state, false)
  | _ => (state, false)

/-- `session_starting`. -/
def startSession (state : UsbConnectionState) (id : String) : UsbConnectionState × Bool :=
  match state with
  | accessoryPresent device =>
    if device.id = id then (sessionStarting device, true) else (state, false)
  | _ => (state, false)

def versionNegotiated (state : UsbConnectionState) (id : String) (major minor : ℕ) :
    UsbConnectionState × Bool :=
  match state with
  | sessionStarting device =>
    if device.id = id then (waitingForTls device major minor, true) else (state, false)
  | _ => (state, false)

def sessionFailed (state : UsbConnectionState) (id reason : String) : UsbConnectionState × Bool :=
  match state with
  | accessoryPresent device =>
    if device.id = id then (failed device reason, true) else (state, false)
  | sessionStarting device =>
    if device.id = id then (failed device reason, true) else (state, false)
  | waitingForTls device _ _ =>
    if device.id = id then (failed device reason, true) else (state, false)
  | _ => (state, false)

/-- The original of a wait is only marked as removed: it is meant to go. -/
def removed (state : UsbConnectionState) (id : String) : UsbConnectionState × Bool :=
  match state with
  | waitingForAccessory original deadline _ =>
    if original.id = id then (waitingForAccessory original deadline true, true)
    else (state, false)
  | _ =>
    if state.device?.any (·.id = id) then (disconnected, true) else (state, false)

def accessoryTimeout : String := "timed out waiting for Android accessory re-enumeration"

def expireAccessoryWait (state : UsbConnectionState) (now : ℕ) : UsbConnectionState × Bool :=
  match state with
  | waitingForAccessory original deadline originalRemoved =>
    if now < deadline then (state, false)
    else if originalRemoved then (disconnected, true)
    else (failed original accessoryTimeout, true)
  | _ => (state, false)

/-! An operation applies to its own device, or leaves the state as it is. -/

variable {state : UsbConnectionState} {id reason : String}

theorem accessorySwitchRequested_cases (state : UsbConnectionState) (id : String) (now : ℕ) :
    (∃ device, state = probing device ∧ device.id = id ∧
        state.accessorySwitchRequested id now =
          (waitingForAccessory device (now + accessoryWait) false, true)) ∨
      state.accessorySwitchRequested id now = (state, false) := by
  unfold accessorySwitchRequested
  split
  · rename_i device
    split
    · rename_i hid
      exact Or.inl ⟨device, rfl, hid, rfl⟩
    · exact Or.inr rfl
  · exact Or.inr rfl

theorem probeFailed_cases (state : UsbConnectionState) (id reason : String) :
    (∃ device, state.device? = some device ∧ device.id = id ∧
        state.probeFailed id reason = (failed device reason, true)) ∨
      state.probeFailed id reason = (state, false) := by
  unfold probeFailed
  split
  · rename_i device
    split
    · rename_i hid
      exact Or.inl ⟨device, rfl, hid, rfl⟩
    · exact Or.inr rfl
  · rename_i original _ _
    split
    · rename_i hid
      exact Or.inl ⟨original, rfl, hid, rfl⟩
    · exact Or.inr rfl
  · exact Or.inr rfl

theorem versionNegotiated_cases (state : UsbConnectionState) (id : String) (major minor : ℕ) :
    (∃ device, state = sessionStarting device ∧ device.id = id ∧
        state.versionNegotiated id major minor = (waitingForTls device major minor, true)) ∨
      state.versionNegotiated id major minor = (state, false) := by
  unfold versionNegotiated
  split
  · rename_i device
    split
    · rename_i hid
      exact Or.inl ⟨device, rfl, hid, rfl⟩
    · exact Or.inr rfl
  · exact Or.inr rfl

theorem sessionFailed_cases (state : UsbConnectionState) (id reason : String) :
    (∃ device, state.device? = some device ∧ device.id = id ∧ state.isWaiting = false ∧
        state.sessionFailed id reason = (failed device reason, true)) ∨
      state.sessionFailed id reason = (state, false) := by
  unfold sessionFailed
  split
  · rename_i device
    split
    · rename_i hid
      exact Or.inl ⟨device, rfl, hid, rfl, rfl⟩
    · exact Or.inr rfl
  · rename_i device
    split
    · rename_i hid
      exact Or.inl ⟨device, rfl, hid, rfl, rfl⟩
    · exact Or.inr rfl
  · rename_i device _ _
    split
    · rename_i hid
      exact Or.inl ⟨device, rfl, hid, rfl, rfl⟩
    · exact Or.inr rfl
  · exact Or.inr rfl

theorem probeFailed_of_not (h : (state.probeFailed id reason).2 = false) :
    (state.probeFailed id reason).1 = state := by
  rcases probeFailed_cases state id reason with ⟨device, -, -, heq⟩ | heq
  · rw [heq] at h
    exact nomatch h
  · rw [heq]

theorem sessionFailed_of_not (h : (state.sessionFailed id reason).2 = false) :
    (state.sessionFailed id reason).1 = state := by
  rcases sessionFailed_cases state id reason with ⟨device, -, -, -, heq⟩ | heq
  · rw [heq] at h
    exact nomatch h
  · rw [heq]

theorem isWaiting_versionNegotiated (major minor : ℕ) :
    (state.versionNegotiated id major minor).1.isWaiting = state.isWaiting := by
  rcases versionNegotiated_cases state id major minor with ⟨device, rfl, -, heq⟩ | heq <;>
    rw [heq] <;> rfl

theorem isWaiting_sessionFailed : (state.sessionFailed id reason).1.isWaiting = state.isWaiting := by
  rcases sessionFailed_cases state id reason with ⟨device, -, -, hwaiting, heq⟩ | heq
  · rw [heq, hwaiting]
    rfl
  · rw [heq]

/-- Removal never begins a wait. -/
theorem isWaiting_removed : (state.removed id).1.isWaiting = state.isWaiting := by
  unfold removed
  split
  · split <;> rfl
  · rename_i hwaiting
    have hfalse : state.isWaiting = false := by
      cases state with
      | waitingForAccessory original deadline gone => exact absurd rfl (hwaiting _ _ _)
      | _ => rfl
    split
    · exact hfalse.symm
    · rfl

theorem removed_owned (h : (state.removed id).2 = true) : state.device?.any (·.id = id) = true := by
  unfold removed at h
  split at h
  · rename_i original deadline gone
    split at h
    · rename_i hid
      simp [device?, hid]
    · exact nomatch h
  · split at h
    · assumption
    · exact nomatch h

theorem expireAccessoryWait_of_not (h : state.isWaiting = false) (now : ℕ) :
    state.expireAccessoryWait now = (state, false) := by
  cases state with
  | waitingForAccessory original deadline gone => exact nomatch h
  | _ => rfl

end UsbConnectionState

/-! ## What a device is -/

/-- Class, subclass and protocol of an interface. -/
structure UsbInterface where
  usbClass : ℕ
  subclass : ℕ
  protocol : ℕ
  deriving DecidableEq

/-- What discovery reads of `nusb::DeviceInfo`. -/
structure DeviceInfo where
  id : String
  serialNumber : Option String
  vendorId : ℕ
  productId : ℕ
  usbClass : ℕ
  interfaces : List UsbInterface
  deriving DecidableEq

def googleVendorId : ℕ := 0x18d1

def accessoryProductIds : List ℕ := [0x2d00, 0x2d01, 0x2d02, 0x2d03, 0x2d04, 0x2d05]

def androidPhoneVendorIds : List ℕ :=
  [0x04e8, 0x0bb4, 0x0fce, 0x1004, 0x12d1, 0x18d1, 0x19d2, 0x22b8, 0x2717, 0x2a70, 0x2d95, 0x413c]

namespace DeviceInfo

def isAccessory (info : DeviceInfo) : Bool :=
  info.vendorId = googleVendorId && accessoryProductIds.contains info.productId

/-- An Android Debug Bridge interface, or a known phone vendor exposing MTP. -/
def isCandidate (info : DeviceInfo) : Bool :=
  if info.isAccessory then false
  else
    let hasAdb := info.interfaces.contains ⟨0xff, 0x42, 0x01⟩
    let phoneVendor := androidPhoneVendorIds.contains info.vendorId
    let phoneInterface := info.interfaces.contains ⟨0x06, 0x01, 0x01⟩
    hasAdb || (phoneVendor && (info.usbClass == 0x00 || info.usbClass == 0xff) && phoneInterface)

/-- `device_key`: an empty serial number is none. -/
def key (info : DeviceInfo) : UsbDeviceKey where
  id := info.id
  serial := info.serialNumber.filter (· ≠ "")

end DeviceInfo

end ProjectArgo.Projection
