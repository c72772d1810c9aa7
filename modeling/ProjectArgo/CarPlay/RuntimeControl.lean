import Mathlib.Data.List.AList
import Mathlib.Algebra.Order.Ring.Rat
import ProjectArgo.CarPlay.Basic
import ProjectArgo.Library.Bytes
import ProjectArgo.Library.Run

/-!
# Input and presentation control

The host's requests change the presentation and put commands on a bounded
queue. The receiver takes them from there and, once the session is recorded,
hands them to the event task over a second bounded queue; the event task keeps
the HID contacts and reports them to the phone. The host's table of pointers and
the contacts are two copies of one thing. Floating point numbers are rationals,
`none` when not finite; how a coordinate is scaled to the display is a parameter.
-/
namespace ProjectArgo.CarPlay.Runtime

open Library.Run

inductive Phase where
  | down
  | move
  | up
  | cancel
  deriving DecidableEq

/-- `runtime_control::Request`. -/
inductive Request where
  | status
  | activate (session : ℕ)
  | visibility (session : ℕ) (visible : Bool)
  | touch (session : ℕ) (pointer : UInt16) (phase : Phase) (x y : Option ℚ)
  | gain (session : ℕ) (connection : String) (gain : Option ℚ)
  | disconnect (session : ℕ)
  | microphoneSource (session : ℕ) (source : String)
  | microphoneMute (session : ℕ) (muted : Bool)
  | siri (session : ℕ) (pressed : Option Bool)
  deriving DecidableEq

/-- `receiver::Command`. -/
inductive Command where
  | audioGain (connection : ℕ) (gain : ℚ)
  | touch (slot : UInt8) (down : Bool) (x y : UInt16)
  | microphoneMute (muted : Bool)
  | microphoneSource (source : String)
  | releaseTouches
  | releaseAudio
  | keyframe
  | night (value : Bool)
  | siri
  | siriButton (pressed : Bool)
  deriving DecidableEq

/-- The slot of each live pointer. -/
abbrev Pointers := AList fun _ : UInt16 => UInt8

structure Presentation where
  active : Bool := false
  revision : ℕ := 0
  visible : Bool := false
  pointers : Pointers := ∅

/-- A bounded queue whose receiver may be gone. -/
structure Queue where
  capacity : ℕ
  items : List Command := []
  closed : Bool := false
  deriving DecidableEq

/-- `try_reserve_many` followed by the sends; with one command, `try_send`. -/
def Queue.trySend (queue : Queue) (commands : List Command) : Option Queue :=
  if queue.closed || queue.capacity < queue.items.length + commands.length then none
  else some { queue with items := queue.items ++ commands }

/-- `Control`, with what its watches show. -/
structure Control where
  session : ℕ
  video : Option (UInt16 × UInt16) := none
  audioAvailable : Bool := false
  disconnected : Bool := false
  commands : Queue
  presentation : Presentation := {}

/-- `(x * width as f64).round() as u16`. -/
structure Setting where
  scale : ℚ → UInt16 → UInt16

abbrev Refusal := String

def unavailable : Refusal := "CarPlay input queue unavailable"

namespace Control

def command (control : Control) (command : Command) : Control × Except Refusal Unit :=
  match control.commands.trySend [command] with
  | none => (control, .error unavailable)
  | some commands => ({ control with commands := commands }, .ok ())

def endSession (control : Control) : Control :=
  { control with
    presentation := { control.presentation with active := false, visible := false, pointers := ∅ }
    disconnected := true }

def terminalCommand (control : Control) (command : Command) : Control × Except Refusal Unit :=
  match control.command command with
  | (control, .ok ()) => (control, .ok ())
  | (control, .error e) => (control.endSession, .error e)

def present (control : Control) (presentation : Presentation) : Control :=
  { control with presentation := presentation }

def activate (control : Control) : Control × Except Refusal Unit :=
  if 2 ^ 64 ≤ control.presentation.revision + 1 then
    (control, .error "presentation revision exhausted")
  else
    match control.commands.trySend
        (if control.audioAvailable then [.keyframe, .releaseAudio] else [.keyframe]) with
    | none => (control, .error unavailable)
    | some commands =>
      ({ control with
          commands := commands
          presentation := { control.presentation with
            revision := control.presentation.revision + 1
            active := true
            visible := true } }, .ok ())

def visibility (control : Control) (visible : Bool) : Control × Except Refusal Unit :=
  if !visible then
    match control.terminalCommand .releaseTouches with
    | (control, .error e) => (control, .error e)
    | (control, .ok ()) =>
      (control.present { control.presentation with pointers := ∅, visible := visible }, .ok ())
  else if control.presentation.active then
    match control.command .keyframe with
    | (control, .error e) => (control, .error e)
    | (control, .ok ()) =>
      (control.present { control.presentation with visible := visible }, .ok ())
  else (control.present { control.presentation with visible := visible }, .ok ())

/-- The first slot that no live pointer has. -/
def freeSlot (pointers : Pointers) : Option UInt8 :=
  [0, 1].find? fun slot => !pointers.entries.any fun entry => entry.2 = slot

/-- The slot of a touch: a free one for a new pointer, else the pointer's own. -/
def touchSlot (pointers : Pointers) (pointer : UInt16) : Phase → Except Refusal UInt8
  | .down =>
    if pointers.lookup pointer |>.isSome then .error "duplicate touch"
    else match freeSlot pointers with
      | none => .error "touch capacity"
      | some slot => .ok slot
  | _ =>
    match pointers.lookup pointer with
    | none => .error "unknown touch"
    | some slot => .ok slot

def inUnit (x : ℚ) : Bool := 0 ≤ x && x ≤ 1

def touch (setting : Setting) (control : Control) (pointer : UInt16) (phase : Phase)
    (x y : Option ℚ) : Control × Except Refusal Unit :=
  if !control.presentation.active || !control.presentation.visible then
    (control, .error "projection input is not owned")
  else match x, y with
    | some x, some y =>
      if !inUnit x || !inUnit y then (control, .error "invalid coordinates")
      else if phase = .cancel then
        match control.terminalCommand .releaseTouches with
        | (control, .error e) => (control, .error e)
        | (control, .ok ()) =>
          (control.present { control.presentation with pointers := ∅ }, .ok ())
      else match control.video with
        | none => (control, .error "video not ready")
        | some (width, height) =>
          match touchSlot control.presentation.pointers pointer phase with
          | .error e => (control, .error e)
          | .ok slot =>
            let command := Command.touch slot (phase ≠ .up) (setting.scale x width)
              (setting.scale y height)
            if phase ≠ .up then
              match control.command command with
              | (control, .error e) => (control, .error e)
              | (control, .ok ()) =>
                (control.present { control.presentation with
                  pointers := control.presentation.pointers.insert pointer slot }, .ok ())
            else
              match control.terminalCommand command with
              | (control, .error e) => (control, .error e)
              | (control, .ok ()) =>
                (control.present { control.presentation with
                  pointers := control.presentation.pointers.erase pointer }, .ok ())
    | _, _ => (control, .error "invalid coordinates")

/-- `parse::<u64>()`. -/
def parseU64 (text : String) : Option ℕ :=
  let digits := match text.toList with
    | '+' :: rest => rest
    | all => all
  if digits.isEmpty || !digits.all Char.isDigit then none
  else
    let value := digits.foldl (fun n c => 10 * n + (c.toNat - 48)) 0
    if value < 2 ^ 64 then some value else none

def audioGain (control : Control) (connection : String) (gain : Option ℚ) :
    Control × Except Refusal Unit :=
  match gain with
  | none => (control, .error "invalid gain")
  | some gain =>
    if !inUnit gain then (control, .error "invalid gain")
    else match parseU64 connection with
      | none => (control, .error "invalid audio stream")
      | some connection =>
        control.command
          (.audioGain connection (if control.presentation.active then gain else 0))

def microphoneSource (control : Control) (source : String) : Control × Except Refusal Unit :=
  if source.isEmpty || 256 < source.utf8ByteSize ||
      !source.toList.all fun c => c.isAlphanum || c = '.' || c = '_' || c = '-' then
    (control, .error "Invalid input source")
  else control.command (.microphoneSource source)

def siri (control : Control) (pressed : Option Bool) : Control × Except Refusal Unit :=
  if !control.presentation.active then (control, .error "projection is not owned")
  else control.command (match pressed with
    | some pressed => .siriButton pressed
    | none => .siri)

/-- The release at a disconnect is a best effort: the teardown does not need the queue. -/
def disconnect (control : Control) : Control × Except Refusal Unit :=
  ((control.endSession.command .releaseTouches).1, .ok ())

end Control

/-- The session a request names. -/
def Request.session (request : Request) (own : ℕ) : ℕ :=
  match request with
  | .status => own
  | .activate session => session
  | .visibility session _ => session
  | .touch session _ _ _ _ => session
  | .gain session _ _ => session
  | .disconnect session => session
  | .microphoneSource session _ => session
  | .microphoneMute session _ => session
  | .siri session _ => session

def Request.endsOrAsks : Request → Bool
  | .status => true
  | .disconnect _ => true
  | _ => false

/-- `Control::request`. -/
def Control.request (setting : Setting) (control : Control) (request : Request) :
    Control × Except Refusal Unit :=
  if request.session control.session ≠ control.session then (control, .error "stale session")
  else if control.disconnected && !request.endsOrAsks then
    (control, .error "session ended; reconnect required")
  else match request with
    | .status => (control, .ok ())
    | .activate _ => control.activate
    | .visibility _ visible => control.visibility visible
    | .touch _ pointer phase x y => control.touch setting pointer phase x y
    | .gain _ connection gain => control.audioGain connection gain
    | .disconnect _ => control.disconnect
    | .microphoneSource _ source => control.microphoneSource source
    | .microphoneMute _ muted => control.command (.microphoneMute muted)
    | .siri _ pressed => control.siri pressed

/-! ## The event task -/

/-- What the event task posts to the phone. -/
inductive Payload where
  | hidSendReport (report : List UInt8)
  | changeModes (resource transfer : ℕ)
  | forceKeyFrame
  | setNightMode (value : Bool)
  | requestSiri (action : ℕ)
  deriving DecidableEq

/-- The contacts of the event task, its CSeq, and the last HID report it sent. -/
structure EventTask where
  contacts : List UInt8 := [0, 0, 0, 0, 0, 0, 1, 0, 0, 0, 0, 0]
  sequence : ℕ := 0
  report : List UInt8 := [0, 0, 0, 0, 0, 0, 1, 0, 0, 0, 0, 0]
  deriving DecidableEq

/-- The six bytes of a slot but its identifier. -/
def press (contacts : List UInt8) (slot : UInt8) (down : Bool) (x y : UInt16) : List UInt8 :=
  let i := slot.toNat * 6
  contacts.take (i + 1) ++ [if down then 1 else 0] ++
    Library.Bytes.littleEndian 2 x.toNat ++ Library.Bytes.littleEndian 2 y.toNat ++
      contacts.drop (i + 6)

def release (contacts : List UInt8) : List UInt8 := (contacts.set 1 0).set 7 0

/-- The contacts after a command, and the payloads it is posted as. -/
def EventTask.payloads (contacts : List UInt8) : Command → Except Error (List UInt8 × List Payload)
  | .audioGain _ _ => .error .state
  | .microphoneMute _ => .error .state
  | .microphoneSource _ => .error .state
  | .touch slot down x y =>
    if 1 < slot then .error .bounds
    else .ok (press contacts slot down x y, [.hidSendReport (press contacts slot down x y)])
  | .releaseTouches => .ok (release contacts, [.hidSendReport (release contacts)])
  | .releaseAudio => .ok (contacts, [.changeModes 2 2])
  | .keyframe => .ok (contacts, [.forceKeyFrame])
  | .night value => .ok (contacts, [.setNightMode value])
  | .siri => .ok (contacts, [.requestSiri 2, .requestSiri 3])
  | .siriButton pressed => .ok (contacts, [.requestSiri (if pressed then 2 else 3)])

/-- The last HID report once the payloads are posted. -/
def lastReport (report : List UInt8) (payloads : List Payload) : List UInt8 :=
  payloads.foldl (fun report payload => match payload with
    | .hidSendReport next => next
    | _ => report) report

/-- One command; each payload takes the next CSeq. -/
def EventTask.handle (task : EventTask) (command : Command) :
    Except Error (EventTask × List Payload) :=
  match EventTask.payloads task.contacts command with
  | .error e => .error e
  | .ok (contacts, payloads) =>
    if 2 ^ 32 ≤ task.sequence + payloads.length then .error .bounds
    else .ok (⟨contacts, task.sequence + payloads.length, lastReport task.report payloads⟩,
      payloads)

/-! ## The session -/

/-- The control, the receiver's two queues and the event task. `recorded` is the
receiver's `active`; `running` that its loop has not ended. `missed` notes a touch
that the receiver took before it was recorded, `unreleased` contacts that were
forgotten without a command. -/
structure System where
  control : Control
  events : List Command := []
  task : EventTask := {}
  recorded : Bool := false
  running : Bool := true
  missed : Bool := false
  unreleased : Bool := false

/-- The capacity of the receiver's own queue. -/
def eventCapacity : ℕ := 32

inductive Input where
  | request (request : Request)
  | video (video : Option (UInt16 × UInt16))
  | audio (available : Bool)
  /-- The receiver takes a command; `ok` is how a command for the audio streams ends. -/
  | receive (ok : Bool)
  | record
  /-- The screen task asks for a keyframe. -/
  | keyframe
  /-- The event task takes a command. -/
  | consume
  /-- The receiver ends for any other reason. -/
  | stop
  /-- The runtime cancels the session. -/
  | cancel

def Command.isTouch : Command → Bool
  | .touch .. => true
  | _ => false

def Command.forAudio : Command → Bool
  | .audioGain _ _ => true
  | .microphoneMute _ => true
  | .microphoneSource _ => true
  | _ => false

namespace System

/-- The receiver is gone, and with it everything queued. -/
def stop (system : System) : System :=
  { system with
    running := false
    events := []
    control := { system.control with
      commands := { system.control.commands with items := [], closed := true } } }

/-- The receiver's `events_tx.try_send`. -/
def forward (system : System) (command : Command) : System :=
  if system.events.length < eventCapacity then
    { system with events := system.events ++ [command] }
  else system.stop

/-- The receiver takes a command from the control's queue. -/
def receive (system : System) (ok : Bool) : System :=
  match system.running, system.control.commands.items with
  | true, command :: rest =>
    let system := { system with
      control := { system.control with
        commands := { system.control.commands with items := rest } } }
    if command.forAudio then (if ok then system else system.stop)
    else if system.recorded then system.forward command
    else { system with missed := system.missed || command.isTouch }
  | _, _ => system

def consume (system : System) : System × List Payload :=
  match system.running, system.events with
  | true, command :: rest =>
    match system.task.handle command with
    | .error _ => (system.stop, [])
    | .ok (task, payloads) => ({ system with events := rest, task := task }, payloads)
  | _, _ => (system, [])

/-- A request; contacts that it forgets without queueing a command are noted. -/
def request (setting : Setting) (system : System) (asked : Request) :
    System × Except Refusal Unit :=
  let answer := system.control.request setting asked
  ({ system with
      control := answer.1
      unreleased := system.unreleased ||
        (!system.control.presentation.pointers.entries.isEmpty &&
          answer.1.presentation.pointers.entries.isEmpty &&
          answer.1.commands.items.length = system.control.commands.items.length) },
    answer.2)

end System

namespace System

def step (setting : Setting) (system : System) : Input → System × Option (Except Refusal Unit)
  | .request asked =>
    let answer := system.request setting asked
    (answer.1, some answer.2)
  | .video video => ({ system with control := { system.control with video := video } }, none)
  | .audio available =>
    ({ system with control := { system.control with audioAvailable := available } }, none)
  | .receive ok => (system.receive ok, none)
  | .record => ({ system with recorded := system.recorded || system.running }, none)
  | .keyframe => (if system.running then system.forward .keyframe else system, none)
  | .consume => (system.consume.1, none)
  | .stop => (system.stop, none)
  | .cancel => ({ system with control := { system.control with disconnected := true } }, none)

def start (session capacity : ℕ) : System where
  control := { session := session, commands := { capacity := capacity } }

end System

/-! ## Slots -/

/-- A live pointer has the slot. -/
def Holds (pointers : Pointers) (slot : UInt8) : Prop :=
  ∃ pointer, pointers.lookup pointer = some slot

/-- Live pointers have distinct slots, and there are two slots. -/
structure Slots (pointers : Pointers) : Prop where
  bounded : ∀ pointer slot, pointers.lookup pointer = some slot → slot ≤ 1
  distinct : ∀ pointer other slot, pointers.lookup pointer = some slot →
    pointers.lookup other = some slot → pointer = other

theorem holds_iff_mem {pointers : Pointers} {slot : UInt8} :
    Holds pointers slot ↔ ∃ entry ∈ pointers.entries, entry.2 = slot := by
  constructor
  · rintro ⟨pointer, h⟩
    exact ⟨⟨pointer, slot⟩, AList.mem_lookup_iff.mp h, rfl⟩
  · rintro ⟨⟨pointer, value⟩, hmem, rfl⟩
    exact ⟨pointer, AList.mem_lookup_iff.mpr hmem⟩

theorem slots_empty : Slots ∅ := by
  constructor
  · intro pointer slot h
    rw [AList.lookup_empty] at h
    exact nomatch h
  · intro pointer other slot h
    rw [AList.lookup_empty] at h
    exact nomatch h

theorem not_holds_empty (slot : UInt8) : ¬Holds ∅ slot := by
  rintro ⟨pointer, h⟩
  rw [AList.lookup_empty] at h
  exact nomatch h

theorem freeSlot_spec {pointers : Pointers} {slot : UInt8}
    (h : Control.freeSlot pointers = some slot) : slot ≤ 1 ∧ ¬Holds pointers slot := by
  have hmem := List.mem_of_find?_eq_some h
  have hfree := List.find?_some h
  constructor
  · simp only [List.mem_cons, List.not_mem_nil, or_false] at hmem
    rcases hmem with rfl | rfl <;> decide
  · intro hholds
    obtain ⟨entry, hentry, hvalue⟩ := holds_iff_mem.mp hholds
    simp only [Bool.not_eq_true', List.any_eq_false, decide_eq_true_eq] at hfree
    exact hfree entry hentry hvalue

/-- A new pointer takes a free slot. -/
theorem slots_insert_free {pointers : Pointers} {pointer : UInt16} {slot : UInt8}
    (h : Slots pointers) (hslot : slot ≤ 1) (hfree : ¬Holds pointers slot) :
    Slots (pointers.insert pointer slot) := by
  constructor
  · intro other value hvalue
    by_cases heq : other = pointer
    · rw [heq, AList.lookup_insert] at hvalue
      rw [← Option.some.inj hvalue]
      exact hslot
    · rw [AList.lookup_insert_ne heq] at hvalue
      exact h.bounded other value hvalue
  · intro a b value ha hb
    by_cases hap : a = pointer <;> by_cases hbp : b = pointer
    · rw [hap, hbp]
    · rw [hap, AList.lookup_insert] at ha
      rw [AList.lookup_insert_ne hbp] at hb
      exact absurd ⟨b, hb.trans ha.symm⟩ hfree
    · rw [hbp, AList.lookup_insert] at hb
      rw [AList.lookup_insert_ne hap] at ha
      exact absurd ⟨a, ha.trans hb.symm⟩ hfree
    · rw [AList.lookup_insert_ne hap] at ha
      rw [AList.lookup_insert_ne hbp] at hb
      exact h.distinct a b value ha hb

/-- A pointer that moves keeps its slot. -/
theorem lookup_insert_same {pointers : Pointers} {pointer : UInt16} {slot : UInt8}
    (h : pointers.lookup pointer = some slot) (other : UInt16) :
    (pointers.insert pointer slot).lookup other = pointers.lookup other := by
  by_cases heq : other = pointer
  · rw [heq, AList.lookup_insert, h]
  · exact AList.lookup_insert_ne heq

theorem slots_insert_same {pointers : Pointers} {pointer : UInt16} {slot : UInt8}
    (h : Slots pointers) (hslot : pointers.lookup pointer = some slot) :
    Slots (pointers.insert pointer slot) := by
  constructor
  · intro other value hvalue
    rw [lookup_insert_same hslot] at hvalue
    exact h.bounded other value hvalue
  · intro a b value ha hb
    rw [lookup_insert_same hslot] at ha hb
    exact h.distinct a b value ha hb

theorem lookup_erase_eq_some {pointers : Pointers} {pointer other : UInt16} {slot : UInt8}
    (h : (pointers.erase pointer).lookup other = some slot) :
    other ≠ pointer ∧ pointers.lookup other = some slot := by
  by_cases heq : other = pointer
  · rw [heq, AList.lookup_erase] at h
    exact nomatch h
  · rw [AList.lookup_erase_ne heq] at h
    exact ⟨heq, h⟩

theorem slots_erase {pointers : Pointers} (h : Slots pointers) (pointer : UInt16) :
    Slots (pointers.erase pointer) := by
  constructor
  · intro other value hvalue
    exact h.bounded other value (lookup_erase_eq_some hvalue).2
  · intro a b value ha hb
    exact h.distinct a b value (lookup_erase_eq_some ha).2 (lookup_erase_eq_some hb).2

/-! ## What the commands press -/

/-- The slots pressed after a command. -/
def Command.pressed (command : Command) (pressed : UInt8 → Bool) : UInt8 → Bool :=
  match command with
  | .touch slot down _ _ => fun other => if other = slot then down else pressed other
  | .releaseTouches => fun _ => false
  | _ => pressed

theorem Command.pressed_touch (slot : UInt8) (down : Bool) (x y : UInt16) (pressed : UInt8 → Bool)
    (other : UInt8) :
    (Command.touch slot down x y).pressed pressed other = if other = slot then down else pressed other :=
  rfl

def pressedAfter (commands : List Command) (pressed : UInt8 → Bool) : UInt8 → Bool :=
  commands.foldl (fun pressed command => command.pressed pressed) pressed

@[simp] theorem pressedAfter_nil (pressed : UInt8 → Bool) : pressedAfter [] pressed = pressed := rfl

theorem pressedAfter_append (front rest : List Command) (pressed : UInt8 → Bool) :
    pressedAfter (front ++ rest) pressed = pressedAfter rest (pressedAfter front pressed) :=
  List.foldl_append ..

/-- The pressed slots are those of the live pointers. -/
def Agrees (pressed : UInt8 → Bool) (pointers : Pointers) : Prop :=
  ∀ slot, slot ≤ 1 → (pressed slot = true ↔ Holds pointers slot)

theorem agrees_insert_free {pressed : UInt8 → Bool} {pointers : Pointers} {pointer : UInt16}
    {slot : UInt8} (h : Agrees pressed pointers) (hnew : pointers.lookup pointer = none)
    (x y : UInt16) :
    Agrees ((Command.touch slot true x y).pressed pressed) (pointers.insert pointer slot) := by
  intro other hother
  rw [Command.pressed_touch]
  by_cases heq : other = slot
  · rw [if_pos heq]
    exact iff_of_true rfl ⟨pointer, by rw [heq, AList.lookup_insert]⟩
  · rw [if_neg heq, h other hother]
    constructor
    · rintro ⟨p, hp⟩
      have hne : p ≠ pointer := by
        rintro rfl
        rw [hnew] at hp
        exact nomatch hp
      exact ⟨p, by rw [AList.lookup_insert_ne hne, hp]⟩
    · rintro ⟨p, hp⟩
      by_cases hpp : p = pointer
      · rw [hpp, AList.lookup_insert] at hp
        exact absurd (Option.some.inj hp).symm heq
      · rw [AList.lookup_insert_ne hpp] at hp
        exact ⟨p, hp⟩

theorem agrees_insert_same {pressed : UInt8 → Bool} {pointers : Pointers} {pointer : UInt16}
    {slot : UInt8} (h : Agrees pressed pointers) (hslot : pointers.lookup pointer = some slot)
    (x y : UInt16) :
    Agrees ((Command.touch slot true x y).pressed pressed) (pointers.insert pointer slot) := by
  intro other hother
  simp only [Command.pressed_touch, Holds, lookup_insert_same hslot]
  by_cases heq : other = slot
  · rw [if_pos heq]
    exact iff_of_true rfl ⟨pointer, by rw [heq, hslot]⟩
  · rw [if_neg heq]
    exact h other hother

theorem agrees_erase {pressed : UInt8 → Bool} {pointers : Pointers} {pointer : UInt16}
    {slot : UInt8} (h : Agrees pressed pointers) (hslots : Slots pointers)
    (hslot : pointers.lookup pointer = some slot) (x y : UInt16) :
    Agrees ((Command.touch slot false x y).pressed pressed) (pointers.erase pointer) := by
  intro other hother
  rw [Command.pressed_touch]
  by_cases heq : other = slot
  · rw [if_pos heq]
    apply iff_of_false Bool.false_ne_true
    rintro ⟨p, hp⟩
    obtain ⟨hne, hp⟩ := lookup_erase_eq_some hp
    rw [heq] at hp
    exact hne (hslots.distinct p pointer slot hp hslot)
  · rw [if_neg heq, h other hother]
    constructor
    · rintro ⟨p, hp⟩
      have hne : p ≠ pointer := by
        rintro rfl
        rw [hslot] at hp
        exact heq (Option.some.inj hp).symm
      exact ⟨p, by rw [AList.lookup_erase_ne hne, hp]⟩
    · rintro ⟨p, hp⟩
      exact ⟨p, (lookup_erase_eq_some hp).2⟩

theorem agrees_empty : Agrees (fun _ => false) ∅ := by
  intro slot _
  simp only [Bool.false_eq_true, false_iff]
  exact not_holds_empty slot

/-! ## What one request does -/

/-- The commands a request has put on the queue, and the contacts it leaves. A
request may only forget contacts without a command by forgetting all of them. -/
structure Requested (control next : Control) (sent : List Command) : Prop where
  commands : next.commands =
    { control.commands with items := control.commands.items ++ sent }
  slots : Slots control.presentation.pointers → Slots next.presentation.pointers
  agrees : ∀ pressed, Slots control.presentation.pointers →
    Agrees pressed control.presentation.pointers →
    (sent = [] → next.presentation.pointers = ∅ → control.presentation.pointers = ∅) →
    Agrees (pressedAfter sent pressed) next.presentation.pointers

theorem requested_self (control : Control) : Requested control control [] := by
  refine ⟨?_, id, fun _ _ h _ => h⟩
  rw [List.append_nil]

/-- The session ends without a command. -/
theorem requested_endSession (control : Control) : Requested control control.endSession [] := by
  refine ⟨?_, fun _ => slots_empty, ?_⟩
  · rw [List.append_nil]
    rfl
  · intro pressed _ h hforgot
    have hempty := hforgot rfl rfl
    rw [hempty] at h
    exact h

/-- The commands that keep the contacts as they are. -/
def Command.Idle (command : Command) : Prop := ∀ pressed, command.pressed pressed = pressed

theorem trySend_eq_some {queue next : Queue} {commands : List Command}
    (h : queue.trySend commands = some next) :
    next = { queue with items := queue.items ++ commands } := by
  unfold Queue.trySend at h
  split_ifs at h
  exact (Option.some.inj h).symm

/-- A command is queued, or the queue refuses it and nothing changes. -/
theorem command_cases (control : Control) (command : Command) :
    control.command command = (control, .error unavailable) ∨
    control.command command =
      ({ control with commands :=
        { control.commands with items := control.commands.items ++ [command] } }, .ok ()) := by
  unfold Control.command Queue.trySend
  split_ifs with hfull
  · exact Or.inl rfl
  · exact Or.inr rfl

theorem terminalCommand_cases (control : Control) (command : Command) :
    control.terminalCommand command = (control.endSession, .error unavailable) ∨
    control.terminalCommand command =
      ({ control with commands :=
        { control.commands with items := control.commands.items ++ [command] } }, .ok ()) := by
  unfold Control.terminalCommand
  rcases command_cases control command with h | h <;> rw [h]
  · exact Or.inl rfl
  · exact Or.inr rfl

/-- The requests whose command releases contacts. -/
def Request.releases : Request → Bool
  | .touch _ _ phase _ _ => phase = .up || phase = .cancel
  | .visibility _ visible => !visible
  | _ => false

def Command.isRelease : Command → Bool
  | .touch _ down _ _ => !down
  | .releaseTouches => true
  | _ => false

/-- How a request is answered. -/
structure Answered (request : Request) (control : Control)
    (answer : Control × Except Refusal Unit) : Prop where
  /-- A rejected request that releases nothing changes nothing and sends nothing. -/
  rejected : ∀ e, answer.2 = .error e → request.releases = false → answer.1 = control
  /-- So does a release that is rejected for another reason than the queue. -/
  refused : ∀ e, answer.2 = .error e → e ≠ unavailable → answer.1 = control
  /-- A release that cannot be queued ends the session. -/
  ended : request.releases = true → answer.2 = .error unavailable → answer.1 = control.endSession
  /-- A release that succeeds was queued. -/
  released : request.releases = true → answer.2 = .ok () → ∃ command, command.isRelease = true ∧
    answer.1.commands.items = control.commands.items ++ [command]
  /-- An activation does all it does or nothing. -/
  activated : ∀ session, request = .activate session → answer.2 = .ok () →
    answer.1 = { control with
      commands := { control.commands with items := control.commands.items ++
        if control.audioAvailable then [.keyframe, .releaseAudio] else [.keyframe] }
      presentation := { control.presentation with
        revision := control.presentation.revision + 1
        active := true
        visible := true } }

/-- A request that is answered without a command and without a change. -/
theorem answered_error (request : Request) (control : Control) {e : Refusal}
    (he : e ≠ unavailable) : Answered request control (control, .error e) := by
  refine ⟨fun _ _ _ => rfl, fun _ _ _ => rfl, ?_, fun _ h => (nomatch h), fun _ _ h => (nomatch h)⟩
  intro _ h
  exact absurd (Except.error.inj h) he

/-- A request that releases nothing and at most queues a command. -/
theorem answered_command {request : Request} (control : Control) (command : Command)
    (hreleases : request.releases = false) (hactivate : ∀ session, request ≠ .activate session) :
    Answered request control (control.command command) := by
  refine ⟨?_, ?_, fun h => ?_, fun h => ?_, fun session h => absurd h (hactivate session)⟩
  · intro e he _
    rcases command_cases control command with h | h <;> rw [h] at he ⊢
    exact nomatch he
  · intro e he hne
    rcases command_cases control command with h | h <;> rw [h] at he ⊢
    exact nomatch he
  · rw [hreleases] at h
    exact nomatch h
  · rw [hreleases] at h
    exact nomatch h

theorem requested_command (control : Control) {command : Command} (hidle : command.Idle) :
    ∃ sent, Requested control (control.command command).1 sent := by
  rcases command_cases control command with h | h <;> rw [h]
  · exact ⟨[], requested_self control⟩
  · refine ⟨[command], rfl, id, ?_⟩
    intro pressed _ hagrees _
    rw [pressedAfter, List.foldl_cons, hidle]
    exact hagrees

theorem activate_spec (control : Control) (session : ℕ) :
    (∃ sent, Requested control control.activate.1 sent) ∧
      Answered (.activate session) control control.activate := by
  unfold Control.activate
  by_cases hrevision : 2 ^ 64 ≤ control.presentation.revision + 1
  · rw [if_pos hrevision]
    exact ⟨⟨[], requested_self control⟩, answered_error _ _ (by decide)⟩
  · rw [if_neg hrevision]
    generalize hcommands : (if control.audioAvailable = true then
      [Command.keyframe, Command.releaseAudio] else [Command.keyframe]) = commands
    cases hsend : control.commands.trySend commands with
    | none =>
      exact ⟨⟨[], requested_self control⟩, fun _ _ _ => rfl, fun _ _ _ => rfl,
        fun h => (nomatch h), fun h => (nomatch h), fun _ _ h => (nomatch h)⟩
    | some queue =>
      rw [trySend_eq_some hsend]
      refine ⟨⟨commands, rfl, id, ?_⟩, fun _ h => (nomatch h), fun _ h => (nomatch h),
        fun h => (nomatch h), fun h => (nomatch h), ?_⟩
      · intro pressed _ h _
        rw [← hcommands]
        split_ifs <;> exact h
      · intro _ _ _
        rw [hcommands]

/-- A hidden presentation releases all contacts. -/
theorem requested_release (control : Control) (presentation : Presentation) :
    Requested control
      (Control.present { control with commands :=
          { control.commands with items := control.commands.items ++ [.releaseTouches] } }
        { presentation with pointers := ∅ }) [.releaseTouches] :=
  ⟨rfl, fun _ => slots_empty, fun _ _ _ _ => agrees_empty⟩

theorem visibility_spec (control : Control) (session : ℕ) (visible : Bool) :
    (∃ sent, Requested control (control.visibility visible).1 sent) ∧
      Answered (.visibility session visible) control (control.visibility visible) := by
  unfold Control.visibility
  cases visible with
  | false =>
    simp only [Bool.not_false, if_true]
    rcases terminalCommand_cases control .releaseTouches with h | h <;> rw [h]
    · refine ⟨⟨[], requested_endSession control⟩, fun _ _ h => (nomatch h), ?_, fun _ _ => rfl,
        fun _ h => (nomatch h), fun _ h => (nomatch h)⟩
      intro e he hne
      exact absurd (Except.error.inj he).symm hne
    · refine ⟨⟨_, requested_release control { control.presentation with visible := false }⟩,
        fun _ h => (nomatch h), fun _ h => (nomatch h), fun _ h => (nomatch h), ?_,
        fun _ h => (nomatch h)⟩
      exact fun _ _ => ⟨.releaseTouches, rfl, rfl⟩
  | true =>
    simp only [Bool.not_true, Bool.false_eq_true, if_false]
    split_ifs with hactive
    · rcases command_cases control .keyframe with h | h <;> rw [h]
      · exact ⟨⟨[], requested_self control⟩, fun _ _ _ => rfl, fun _ _ _ => rfl,
          fun h => (nomatch h), fun h => (nomatch h), fun _ h => (nomatch h)⟩
      · exact ⟨⟨[.keyframe], rfl, id, fun _ _ h _ => h⟩, fun _ h => (nomatch h),
          fun _ h => (nomatch h), fun h => (nomatch h), fun h => (nomatch h),
          fun _ h => (nomatch h)⟩
    · refine ⟨⟨[], ?_, id, fun _ _ h _ => h⟩, fun _ h => (nomatch h), fun _ h => (nomatch h),
        fun h => (nomatch h), fun h => (nomatch h), fun _ h => (nomatch h)⟩
      rw [List.append_nil]
      rfl

/-- A request that is rejected before it reaches the queue. -/
theorem rejected_spec (request : Request) (control : Control) {e : Refusal}
    (he : e ≠ unavailable) :
    (∃ sent, Requested control ((control, .error e) : Control × Except Refusal Unit).1 sent) ∧
      Answered request control (control, .error e) :=
  ⟨⟨[], requested_self control⟩, answered_error _ _ he⟩

theorem touchSlot_ne {pointers : Pointers} {pointer : UInt16} {phase : Phase} {e : Refusal}
    (h : Control.touchSlot pointers pointer phase = .error e) : e ≠ unavailable := by
  have hcases : e = "duplicate touch" ∨ e = "touch capacity" ∨ e = "unknown touch" := by
    unfold Control.touchSlot at h
    split at h
    · split_ifs at h
      · exact Or.inl (Except.error.inj h).symm
      · split at h
        · exact Or.inr (Or.inl (Except.error.inj h).symm)
        · exact nomatch h
    · split at h
      · exact Or.inr (Or.inr (Except.error.inj h).symm)
      · exact nomatch h
  rcases hcases with rfl | rfl | rfl <;> decide

/-- The slot of a new pointer is free, any other touch uses the pointer's own. -/
theorem touchSlot_eq_ok {pointers : Pointers} {pointer : UInt16} {phase : Phase} {slot : UInt8}
    (h : Control.touchSlot pointers pointer phase = .ok slot) :
    (phase = .down ∧ pointers.lookup pointer = none ∧ slot ≤ 1 ∧ ¬Holds pointers slot) ∨
      (phase ≠ .down ∧ pointers.lookup pointer = some slot) := by
  unfold Control.touchSlot at h
  split at h
  · split_ifs at h with hnew
    · split at h
      · exact nomatch h
      · rename_i free hfree
        obtain rfl := Except.ok.inj h
        left
        exact ⟨rfl, by simpa using hnew, freeSlot_spec hfree⟩
  · split at h
    · exact nomatch h
    · rename_i hne _ own hown
      obtain rfl := Except.ok.inj h
      exact Or.inr ⟨hne, hown⟩


/-- A touch that reaches the queue. -/
theorem touch_queued {control : Control} (session : ℕ) {pointer : UInt16} {phase : Phase}
    (hphase : phase ≠ .cancel) {slot : UInt8}
    (hslot : Control.touchSlot control.presentation.pointers pointer phase = .ok slot)
    (a b : UInt16) (x y : Option ℚ) :
    let command := Command.touch slot (phase ≠ .up) a b
    let answer : Control × Except Refusal Unit :=
      if phase ≠ .up then
        match control.command command with
        | (control, .error e) => (control, .error e)
        | (control, .ok ()) =>
          (control.present { control.presentation with
            pointers := control.presentation.pointers.insert pointer slot }, .ok ())
      else
        match control.terminalCommand command with
        | (control, .error e) => (control, .error e)
        | (control, .ok ()) =>
          (control.present { control.presentation with
            pointers := control.presentation.pointers.erase pointer }, .ok ())
    (∃ sent, Requested control answer.1 sent) ∧
      Answered (.touch session pointer phase x y) control answer := by
  dsimp only
  by_cases hup : phase = .up
  · rw [if_neg (not_not_intro hup)]
    have hown : control.presentation.pointers.lookup pointer = some slot := by
      rcases touchSlot_eq_ok hslot with ⟨hdown, -⟩ | ⟨-, hown⟩
      · rw [hup] at hdown
        exact nomatch hdown
      · exact hown
    rcases terminalCommand_cases control (.touch slot (decide (phase ≠ .up)) a b) with h | h <;>
      rw [h]
    · refine ⟨⟨[], requested_endSession control⟩, ?_, ?_, fun _ _ => rfl,
        fun _ h => (nomatch h), fun _ h => (nomatch h)⟩
      · intro e _ hreleases
        simp [Request.releases, hup] at hreleases
      · intro e he hne
        exact absurd (Except.error.inj he).symm hne
    · have hdecide : decide (phase ≠ .up) = false := by simp [hup]
      rw [hdecide]
      refine ⟨⟨_, rfl, fun h => slots_erase h pointer, ?_⟩, fun _ h => (nomatch h),
        fun _ h => (nomatch h), fun _ h => (nomatch h), ?_, fun _ h => (nomatch h)⟩
      · exact fun pressed hslots hagrees _ => agrees_erase hagrees hslots hown a b
      · exact fun _ _ => ⟨_, rfl, rfl⟩
  · rw [if_pos hup]
    have hreleases : (Request.touch session pointer phase x y).releases = false := by
      simp [Request.releases, hup, hphase]
    have hdecide : decide (phase ≠ .up) = true := by simp [hup]
    rw [hdecide]
    rcases command_cases control (.touch slot true a b) with h | h <;> rw [h]
    · refine ⟨⟨[], requested_self control⟩, fun _ _ _ => rfl, fun _ _ _ => rfl, fun h => ?_,
        fun _ h => (nomatch h), fun _ h => (nomatch h)⟩
      rw [hreleases] at h
      exact nomatch h
    · refine ⟨⟨[.touch slot true a b], rfl, ?_, ?_⟩, fun _ h => (nomatch h),
        fun _ h => (nomatch h), fun h => ?_, fun h => ?_, fun _ h => (nomatch h)⟩
      · intro hslots
        rcases touchSlot_eq_ok hslot with ⟨-, -, hle, hfree⟩ | ⟨-, hown⟩
        · exact slots_insert_free hslots hle hfree
        · exact slots_insert_same hslots hown
      · intro pressed _ hagrees _
        rcases touchSlot_eq_ok hslot with ⟨-, hnew, -, -⟩ | ⟨-, hown⟩
        · exact agrees_insert_free hagrees hnew a b
        · exact agrees_insert_same hagrees hown a b
      · rw [hreleases] at h
        exact nomatch h
      · rw [hreleases] at h
        exact nomatch h

theorem touch_spec (setting : Setting) (control : Control) (session : ℕ) (pointer : UInt16)
    (phase : Phase) (x y : Option ℚ) :
    (∃ sent, Requested control (control.touch setting pointer phase x y).1 sent) ∧
      Answered (.touch session pointer phase x y) control
        (control.touch setting pointer phase x y) := by
  unfold Control.touch
  split
  · exact rejected_spec _ control (by decide)
  split
  · split
    · exact rejected_spec _ control (by decide)
    split
    · rename_i hcancel
      rcases terminalCommand_cases control .releaseTouches with h | h <;> rw [h]
      · refine ⟨⟨[], requested_endSession control⟩, ?_, ?_, fun _ _ => rfl,
          fun _ h => (nomatch h), fun _ h => (nomatch h)⟩
        · intro e _ hreleases
          simp [Request.releases, hcancel] at hreleases
        · intro e he hne
          exact absurd (Except.error.inj he).symm hne
      · exact ⟨⟨_, requested_release control control.presentation⟩, fun _ h => (nomatch h),
          fun _ h => (nomatch h), fun _ h => (nomatch h),
          fun _ _ => ⟨.releaseTouches, rfl, rfl⟩, fun _ h => (nomatch h)⟩
    · rename_i hcancel
      split
      · exact rejected_spec _ control (by decide)
      split
      · rename_i e hslot
        exact rejected_spec _ control (touchSlot_ne hslot)
      · rename_i slot hslot
        exact touch_queued session hcancel hslot _ _ _ _
  · exact rejected_spec _ control (by decide)

theorem audioGain_spec (control : Control) (session : ℕ) (connection : String)
    (gain : Option ℚ) :
    (∃ sent, Requested control (control.audioGain connection gain).1 sent) ∧
      Answered (.gain session connection gain) control (control.audioGain connection gain) := by
  unfold Control.audioGain
  split
  · exact rejected_spec _ control (by decide)
  split
  · exact rejected_spec _ control (by decide)
  split
  · exact rejected_spec _ control (by decide)
  · exact ⟨requested_command control fun _ => rfl,
      answered_command control _ rfl fun _ h => (nomatch h)⟩

theorem microphoneSource_spec (control : Control) (session : ℕ) (source : String) :
    (∃ sent, Requested control (control.microphoneSource source).1 sent) ∧
      Answered (.microphoneSource session source) control (control.microphoneSource source) := by
  unfold Control.microphoneSource
  split
  · exact rejected_spec _ control (by decide)
  · exact ⟨requested_command control fun _ => rfl,
      answered_command control _ rfl fun _ h => (nomatch h)⟩

theorem siri_spec (control : Control) (session : ℕ) (pressed : Option Bool) :
    (∃ sent, Requested control (control.siri pressed).1 sent) ∧
      Answered (.siri session pressed) control (control.siri pressed) := by
  unfold Control.siri
  split
  · exact rejected_spec _ control (by decide)
  · refine ⟨requested_command control fun _ => ?_,
      answered_command control _ rfl fun _ h => (nomatch h)⟩
    cases pressed <;> rfl

/-- A disconnect forgets the contacts, with a command only if the queue takes it. -/
theorem disconnect_spec (control : Control) (session : ℕ) :
    (∃ sent, Requested control control.disconnect.1 sent) ∧
      Answered (.disconnect session) control control.disconnect := by
  constructor
  · unfold Control.disconnect
    rcases command_cases control.endSession .releaseTouches with h | h <;> rw [h]
    · exact ⟨[], requested_endSession control⟩
    · exact ⟨[.releaseTouches], rfl, fun _ => slots_empty, fun _ _ _ _ => agrees_empty⟩
  · exact ⟨fun _ h => (nomatch h), fun _ h => (nomatch h), fun h => (nomatch h),
      fun h => (nomatch h), fun _ h => (nomatch h)⟩

/-- Every request. -/
theorem request_spec (setting : Setting) (control : Control) (request : Request) :
    (∃ sent, Requested control (control.request setting request).1 sent) ∧
      Answered request control (control.request setting request) := by
  unfold Control.request
  split
  · exact rejected_spec _ control (by decide)
  split
  · exact rejected_spec _ control (by decide)
  cases request with
  | status =>
    exact ⟨⟨[], requested_self control⟩, fun _ h => (nomatch h), fun _ h => (nomatch h),
      fun h => (nomatch h), fun h => (nomatch h), fun _ h => (nomatch h)⟩
  | activate session => exact activate_spec control session
  | visibility session visible => exact visibility_spec control session visible
  | touch session pointer phase x y => exact touch_spec setting control session pointer phase x y
  | gain session connection gain => exact audioGain_spec control session connection gain
  | disconnect session => exact disconnect_spec control session
  | microphoneSource session source => exact microphoneSource_spec control session source
  | microphoneMute session muted =>
    exact ⟨requested_command control fun _ => rfl,
      answered_command control _ rfl fun _ h => (nomatch h)⟩
  | siri session pressed => exact siri_spec control session pressed

/-! ## The contacts of the event task -/

/-- The touch bit of a slot in a HID report. -/
def touchBit (report : List UInt8) (slot : UInt8) : Bool :=
  report.getD (slot.toNat * 6 + 1) 0 = 1

theorem slot_cases {slot : UInt8} (h : slot ≤ 1) : slot = 0 ∨ slot = 1 := by
  have hle : slot.toNat ≤ 1 := h
  rcases Nat.le_one_iff_eq_zero_or_eq_one.mp hle with h0 | h1
  · exact Or.inl (UInt8.toNat_inj.mp h0)
  · exact Or.inr (UInt8.toNat_inj.mp h1)

theorem length_press {contacts : List UInt8} (h : contacts.length = 12) {slot : UInt8}
    (hslot : slot ≤ 1) (down : Bool) (x y : UInt16) :
    (press contacts slot down x y).length = 12 := by
  have hle : slot.toNat ≤ 1 := hslot
  simp only [press, List.length_append, List.length_take, List.length_drop, List.length_cons,
    List.length_nil, Library.Bytes.length_littleEndian, h]
  omega

/-- A press sets the bit of its slot and leaves the other's. -/
theorem touchBit_press {contacts : List UInt8} (h : contacts.length = 12) {slot other : UInt8}
    (hslot : slot ≤ 1) (hother : other ≤ 1) (down : Bool) (x y : UInt16) :
    touchBit (press contacts slot down x y) other =
      if other = slot then down else touchBit contacts other := by
  obtain ⟨x0, x1, hx⟩ := List.length_eq_two.mp (Library.Bytes.length_littleEndian 2 x.toNat)
  obtain ⟨y0, y1, hy⟩ := List.length_eq_two.mp (Library.Bytes.length_littleEndian 2 y.toNat)
  match contacts, h with
  | [a, b, c, d, e, f, g, i, j, k, l, m], _ =>
    unfold touchBit press
    rw [hx, hy]
    rcases slot_cases hslot with rfl | rfl <;> rcases slot_cases hother with rfl | rfl <;>
      cases down <;> rfl

theorem touchBit_release {contacts : List UInt8} (h : contacts.length = 12) {slot : UInt8}
    (hslot : slot ≤ 1) : touchBit (release contacts) slot = false := by
  match contacts, h with
  | [a, b, c, d, e, f, g, i, j, k, l, m], _ =>
    rcases slot_cases hslot with rfl | rfl <;> rfl

/-- The event task: its contacts are those it last reported. -/
structure EventTask.Sound (task : EventTask) : Prop where
  length : task.contacts.length = 12
  report : task.report = task.contacts

/-- The bits of the task after a command are what the command presses. -/
theorem handle_spec {task next : EventTask} (htask : task.Sound) {command : Command}
    {payloads : List Payload} (h : task.handle command = .ok (next, payloads)) :
    next.Sound ∧ ∀ slot, slot ≤ 1 →
      touchBit next.contacts slot = command.pressed (touchBit task.contacts) slot := by
  unfold EventTask.handle at h
  have hkept : ∀ {contacts : List UInt8} {posted : List Payload},
      EventTask.payloads task.contacts command = .ok (contacts, posted) →
      next.contacts = contacts ∧ next.report = lastReport task.report posted := by
    intro contacts posted heq
    rw [heq] at h
    dsimp only at h
    split at h
    · exact nomatch h
    · cases h
      exact ⟨rfl, rfl⟩
  -- the commands for anything else leave the contacts and the report
  have hother : ∀ {posted : List Payload}, command.Idle →
      EventTask.payloads task.contacts command = .ok (task.contacts, posted) →
      lastReport task.report posted = task.report →
      next.Sound ∧ ∀ slot, slot ≤ 1 →
        touchBit next.contacts slot = command.pressed (touchBit task.contacts) slot := by
    intro posted hidle hposted hlast
    obtain ⟨hcontacts, hreport⟩ := hkept hposted
    refine ⟨⟨?_, ?_⟩, ?_⟩
    · rw [hcontacts, htask.length]
    · rw [hcontacts, hreport, hlast, htask.report]
    · intro slot _
      rw [hcontacts, hidle]
  cases command with
  | touch slot down x y =>
    by_cases hslot : 1 < slot
    · simp [EventTask.payloads, hslot] at h
    · obtain ⟨hcontacts, hreport⟩ := hkept (by rw [EventTask.payloads, if_neg hslot])
      have hle : slot ≤ 1 := UInt8.not_lt.mp hslot
      refine ⟨⟨?_, ?_⟩, ?_⟩
      · rw [hcontacts, length_press htask.length hle]
      · rw [hcontacts, hreport]
        rfl
      · intro other hother
        rw [hcontacts, touchBit_press htask.length hle hother]
        rfl
  | releaseTouches =>
    obtain ⟨hcontacts, hreport⟩ := hkept rfl
    refine ⟨⟨?_, ?_⟩, ?_⟩
    · rw [hcontacts, release, List.length_set, List.length_set, htask.length]
    · rw [hcontacts, hreport]
      rfl
    · intro other hother
      rw [hcontacts, touchBit_release htask.length hother]
      rfl
  | audioGain connection gain => exact nomatch h
  | microphoneMute muted => exact nomatch h
  | microphoneSource source => exact nomatch h
  | releaseAudio => exact hother (fun _ => rfl) rfl rfl
  | keyframe => exact hother (fun _ => rfl) rfl rfl
  | night value => exact hother (fun _ => rfl) rfl rfl
  | siri => exact hother (fun _ => rfl) rfl rfl
  | siriButton pressed => exact hother (fun _ => rfl) rfl rfl

/-! ## The two copies over a run -/

theorem pressed_congr (command : Command) {p q : UInt8 → Bool}
    (h : ∀ slot, slot ≤ 1 → p slot = q slot) (slot : UInt8) (hslot : slot ≤ 1) :
    command.pressed p slot = command.pressed q slot := by
  cases command with
  | touch touched down _ _ =>
    rw [Command.pressed_touch, Command.pressed_touch]
    by_cases heq : slot = touched
    · rw [if_pos heq, if_pos heq]
    · rw [if_neg heq, if_neg heq]
      exact h slot hslot
  | releaseTouches => rfl
  | _ => exact h slot hslot

theorem pressedAfter_congr (commands : List Command) {p q : UInt8 → Bool}
    (h : ∀ slot, slot ≤ 1 → p slot = q slot) (slot : UInt8) (hslot : slot ≤ 1) :
    pressedAfter commands p slot = pressedAfter commands q slot := by
  induction commands generalizing p q with
  | nil => exact h slot hslot
  | cons command commands ih => exact ih fun other hother => pressed_congr command h other hother

theorem Agrees.congr {p q : UInt8 → Bool} {pointers : Pointers} (hp : Agrees p pointers)
    (h : ∀ slot, slot ≤ 1 → q slot = p slot) : Agrees q pointers := by
  intro slot hslot
  rw [h slot hslot]
  exact hp slot hslot

theorem pressedAfter_of_idle {commands : List Command} (h : ∀ command ∈ commands, command.Idle)
    (pressed : UInt8 → Bool) : pressedAfter commands pressed = pressed := by
  induction commands with
  | nil => rfl
  | cons command commands ih =>
    rw [pressedAfter, List.foldl_cons, h command List.mem_cons_self]
    exact ih fun other hmem => h other (List.mem_cons_of_mem _ hmem)

theorem idle_of_forAudio {command : Command} (h : command.forAudio = true) : command.Idle := by
  cases command <;> first | exact fun _ => rfl | exact nomatch h

namespace System

/-- The commands on their way, applied to the contacts, give the live pointers. -/
structure Mirrors (system : System) : Prop where
  slots : Slots system.control.presentation.pointers
  task : system.task.Sound
  quiet : system.recorded = false →
    (∀ command ∈ system.events, command.Idle) ∧
      ∀ slot, slot ≤ 1 → touchBit system.task.contacts slot = false
  agrees : system.running = true → system.missed = false → system.unreleased = false →
    Agrees (pressedAfter (system.events ++ system.control.commands.items)
      (touchBit system.task.contacts)) system.control.presentation.pointers

theorem mirrors_stop {system : System} (h : system.Mirrors) : system.stop.Mirrors := by
  refine ⟨h.slots, h.task, ?_, fun hrunning => (nomatch hrunning)⟩
  intro hrecorded
  exact ⟨by simp [stop], (h.quiet hrecorded).2⟩

/-- A command that moves from the control's queue to the event queue, or one that
presses nothing and joins it. -/
theorem mirrors_forward {system : System} (hslots : Slots system.control.presentation.pointers)
    (htask : system.task.Sound) {command : Command}
    (hquiet : system.recorded = false →
      (∀ other ∈ system.events ++ [command], other.Idle) ∧
        ∀ slot, slot ≤ 1 → touchBit system.task.contacts slot = false)
    (hagrees : system.running = true → system.missed = false → system.unreleased = false →
      Agrees (pressedAfter (system.events ++ command :: system.control.commands.items)
        (touchBit system.task.contacts)) system.control.presentation.pointers) :
    (system.forward command).Mirrors := by
  unfold forward
  split
  · refine ⟨hslots, htask, hquiet, ?_⟩
    intro hrunning hmissed hunreleased
    have h := hagrees hrunning hmissed hunreleased
    rwa [List.append_cons] at h
  · refine ⟨hslots, htask, ?_, fun hrunning => (nomatch hrunning)⟩
    intro hrecorded
    exact ⟨by simp [stop], (hquiet hrecorded).2⟩

theorem mirrors_receive {system : System} (h : system.Mirrors) (ok : Bool) :
    (system.receive ok).Mirrors := by
  unfold receive
  split
  · rename_i command rest hrunning hitems
    -- the contacts without the command, when it presses nothing
    have hrest : command.Idle → system.missed = false → system.unreleased = false →
        Agrees (pressedAfter (system.events ++ rest) (touchBit system.task.contacts))
          system.control.presentation.pointers := by
      intro hidle hmissed hunreleased
      have hagrees := h.agrees hrunning hmissed hunreleased
      rw [hitems, pressedAfter_append, pressedAfter, List.foldl_cons, hidle] at hagrees
      rwa [pressedAfter_append]
    dsimp only
    split
    · rename_i haudio
      have hnext : ({ system with control := { system.control with
          commands := { system.control.commands with items := rest } } } : System).Mirrors :=
        ⟨h.slots, h.task, h.quiet, fun _ => hrest (idle_of_forAudio haudio)⟩
      split
      · exact hnext
      · exact mirrors_stop hnext
    split
    · rename_i hrecorded
      apply mirrors_forward
      · exact h.slots
      · exact h.task
      · intro hfalse
        rw [hrecorded] at hfalse
        exact nomatch hfalse
      · intro _ hmissed hunreleased
        have hagrees := h.agrees hrunning hmissed hunreleased
        rwa [hitems] at hagrees
    · rename_i hrecorded
      refine ⟨h.slots, h.task, h.quiet, ?_⟩
      intro _ hmissed hunreleased
      rw [Bool.or_eq_false_iff] at hmissed
      obtain ⟨hidle, hclear⟩ := h.quiet (Bool.eq_false_iff.mpr hrecorded)
      by_cases hrelease : command = .releaseTouches
      · -- nothing was pressed yet, so the dropped release changes nothing
        have hagrees := h.agrees hrunning hmissed.1 hunreleased
        rw [hitems, hrelease, pressedAfter_append, pressedAfter, List.foldl_cons] at hagrees
        rw [pressedAfter_append, pressedAfter_of_idle hidle]
        apply hagrees.congr
        exact pressedAfter_congr rest hclear
      · apply hrest _ hmissed.1 hunreleased
        cases command with
        | touch slot down x y => exact absurd hmissed.2 (by simp [Command.isTouch])
        | releaseTouches => exact absurd rfl hrelease
        | _ => exact fun _ => rfl
  · exact h

theorem mirrors_consume {system : System} (h : system.Mirrors) : system.consume.1.Mirrors := by
  unfold consume
  split
  · rename_i command rest hrunning hevents
    split
    · exact mirrors_stop h
    · rename_i task payloads hhandle
      obtain ⟨htask, hbits⟩ := handle_spec h.task hhandle
      refine ⟨h.slots, htask, ?_, ?_⟩
      · intro hrecorded
        obtain ⟨hidle, hclear⟩ := h.quiet hrecorded
        rw [hevents] at hidle
        refine ⟨fun other hmem => hidle other (List.mem_cons_of_mem _ hmem), ?_⟩
        intro slot hslot
        rw [hbits slot hslot, hidle command List.mem_cons_self, hclear slot hslot]
      · intro _ hmissed hunreleased
        have hagrees := h.agrees hrunning hmissed hunreleased
        rw [hevents, List.cons_append, pressedAfter, List.foldl_cons] at hagrees
        apply hagrees.congr
        exact pressedAfter_congr _ hbits
  · exact h

theorem mirrors_request {system : System} (h : system.Mirrors) (setting : Setting)
    (asked : Request) : (system.request setting asked).1.Mirrors := by
  obtain ⟨⟨sent, hrequested⟩, -⟩ := request_spec setting system.control asked
  refine ⟨hrequested.slots h.slots, h.task, h.quiet, ?_⟩
  intro hrunning hmissed hunreleased
  simp only [request, Bool.or_eq_false_iff] at hunreleased
  have hagrees := hrequested.agrees _ h.slots (h.agrees hrunning hmissed hunreleased.1) ?_
  · rw [← pressedAfter_append, List.append_assoc] at hagrees
    simp only [request, hrequested.commands]
    exact hagrees
  · rintro rfl hnext
    have hforgot := hunreleased.2
    rw [hnext, hrequested.commands] at hforgot
    simp only [List.append_nil, decide_true, Bool.and_true] at hforgot
    apply AList.ext
    have hempty : system.control.presentation.pointers.entries.isEmpty = true := by
      simpa using hforgot
    exact List.isEmpty_iff.mp hempty

theorem mirrors_step {system : System} (h : system.Mirrors) (setting : Setting)
    (input : Input) : (system.step setting input).1.Mirrors := by
  cases input with
  | request asked => exact mirrors_request h setting asked
  | video video => exact ⟨h.slots, h.task, h.quiet, h.agrees⟩
  | audio available => exact ⟨h.slots, h.task, h.quiet, h.agrees⟩
  | receive ok => exact mirrors_receive h ok
  | record =>
    refine ⟨h.slots, h.task, ?_, h.agrees⟩
    intro hrecorded
    simp only [step, Bool.or_eq_false_iff] at hrecorded
    exact h.quiet hrecorded.1
  | keyframe =>
    simp only [step]
    split
    · apply mirrors_forward h.slots h.task
      · intro hrecorded
        obtain ⟨hidle, hclear⟩ := h.quiet hrecorded
        refine ⟨?_, hclear⟩
        intro other hmem
        rcases List.mem_append.mp hmem with hold | hnew
        · exact hidle other hold
        · rw [List.mem_singleton.mp hnew]
          exact fun _ => rfl
      · intro hrunning hmissed hunreleased
        have hagrees := h.agrees hrunning hmissed hunreleased
        rw [pressedAfter_append] at hagrees ⊢
        exact hagrees
    · exact h
  | consume => exact mirrors_consume h
  | stop => exact mirrors_stop h
  | cancel => exact ⟨h.slots, h.task, h.quiet, h.agrees⟩

theorem mirrors_start (session capacity : ℕ) : (start session capacity).Mirrors := by
  refine ⟨slots_empty, ⟨rfl, rfl⟩, fun _ => ⟨by simp [start], ?_⟩, fun _ _ _ => ?_⟩
  · intro slot hslot
    rcases slot_cases hslot with rfl | rfl <;> rfl
  · apply agrees_empty.congr
    intro slot hslot
    rcases slot_cases hslot with rfl | rfl <;> rfl

/-- Every queued command has been consumed. -/
def Drained (system : System) : Prop :=
  system.running = true ∧ system.control.commands.items = [] ∧ system.events = []

/-- The touch bits of the last HID report are the slots of the live pointers. -/
def Reported (system : System) : Prop :=
  ∀ slot, slot ≤ 1 →
    (touchBit system.task.report slot = true ↔ Holds system.control.presentation.pointers slot)

/-- In every state reached: pointers have distinct slots, every request is
answered as described, and once all commands are consumed the last report shows
the live pointers, unless contacts were forgotten without a command or a touch
was taken before the session was recorded. -/
theorem control_contract (setting : Setting) (session capacity : ℕ) (inputs : List Input) :
    let system := (run (step setting) (start session capacity) inputs).1
    Slots system.control.presentation.pointers ∧
      (∀ request, Answered request system.control (system.control.request setting request)) ∧
      (system.Drained → system.missed = false → system.unreleased = false →
        system.Reported) := by
  have h := run_invariant (step setting) (I := Mirrors) (mirrors_start session capacity)
    (fun system input h => mirrors_step h setting input) inputs
  refine ⟨h.slots, fun request => (request_spec setting _ request).2, ?_⟩
  rintro ⟨hrunning, hitems, hevents⟩ hmissed hunreleased slot hslot
  have hagrees := h.agrees hrunning hmissed hunreleased slot hslot
  rw [hevents, hitems] at hagrees
  rw [h.task.report]
  exact hagrees

/-- A display of 800 by 480 pixels, and rounding half up. -/
def rounding : Setting where
  scale x size := UInt16.ofNat (x * size.toNat + 1 / 2).floor.toNat

/-- A finger that goes down at the centre. -/
def finger (phase : Phase) : Input := .request (.touch 7 42 phase (some (1 / 2)) (some (1 / 2)))

/-- The first contact is reported, then its release meets a full queue. -/
def unqueuedRelease : List Input :=
  [.video (some (800, 480)), .record, .request (.activate 7), .receive true, .consume,
    finger .down, .receive true, .consume] ++
  List.replicate 32 (.request (.microphoneMute 7 true)) ++ [finger .up] ++
  List.replicate 32 (.receive true)

/-- The contact goes down before the session is recorded. -/
def earlyTouch : List Input :=
  [.video (some (800, 480)), .request (.activate 7), .receive true, finger .down, .receive true]

/-- With every queued command consumed, the last report can differ from the live
pointers: after a release that could not be queued, and after an early touch. -/
theorem report_differs :
    ¬(∀ setting session capacity inputs,
        let system := (run (step setting) (start session capacity) inputs).1
        system.Drained → system.missed = false → system.Reported) ∧
      ¬(∀ setting session capacity inputs,
        let system := (run (step setting) (start session capacity) inputs).1
        system.Drained → system.unreleased = false → system.Reported) := by
  constructor
  · intro h
    have hreported := h rounding 7 32 unqueuedRelease
      ⟨by decide +kernel, by decide +kernel, by decide +kernel⟩ (by decide +kernel) 0 (by decide)
    have hbit : touchBit (run (step rounding) (start 7 32) unqueuedRelease).1.task.report 0 =
        true := by decide +kernel
    obtain ⟨pointer, hpointer⟩ := hreported.mp hbit
    have hnone : (run (step rounding) (start 7 32) unqueuedRelease).1.control.presentation.pointers.entries =
        [] := by decide +kernel
    have hmem := AList.mem_lookup_iff.mp hpointer
    rw [hnone] at hmem
    exact nomatch hmem
  · intro h
    have hreported := h rounding 7 32 earlyTouch
      ⟨by decide +kernel, by decide +kernel, by decide +kernel⟩ (by decide +kernel) 0 (by decide)
    have hbit := hreported.mpr ⟨42, by decide +kernel⟩
    revert hbit
    decide +kernel

end System

end ProjectArgo.CarPlay.Runtime
