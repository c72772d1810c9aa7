import Mathlib.Data.List.Chain
import ProjectArgo.Library.Run
import ProjectArgo.CarPlay.Media

/-!
# The bounded video queue and its single consumer

Publishing, stopping and the consumer's task act on one shared state. The
consumer's task is a small program of its own: two opening records, then one
record for each frame taken from the queue. It can end at any point, which
drops its lease. A ledger beside the system numbers every publication and
keeps, for each consumer, which of them it took.
-/
namespace ProjectArgo.CarPlay.Media

open Library.Bytes Library.Run

structure AccessUnit where
  payload : List UInt8
  timestamp : UInt64
  keyframe : Bool
  discontinuity : Bool
  deriving DecidableEq

def AccessUnit.flags (u : AccessUnit) : UInt8 :=
  (if u.keyframe then 1 else 0) ||| (if u.discontinuity then 2 else 0)

structure State where
  queue : List AccessUnit
  needKeyframe : Bool
  serving : Bool
  closed : Bool
  lastTimestamp : Option UInt64
  deriving DecidableEq

inductive PublishOutcome where
  | queued
  | needKeyframe
  | resynchronized
  deriving DecidableEq

/-- Where the consumer's task stands between two of its actions. -/
inductive Phase where
  | described
  | configured
  | idle
  | writing (frame : AccessUnit)
  deriving DecidableEq

/-- The task serving one consumer: what it does next and the number of its next record. -/
structure Sender where
  phase : Phase
  sequence : ℕ
  deriving DecidableEq

/-- `stopped` is the signal that cancels writes; `stop` sets it after closing the state. -/
structure VideoStream where
  description : Description
  encodedDescription : List UInt8
  configuration : List UInt8
  lengthBytes : ℕ
  state : State
  stopped : Bool
  sender : Option Sender
  deriving DecidableEq

/-- One record on the socket: its header and its payload. -/
structure Record where
  header : List UInt8
  payload : List UInt8
  deriving DecidableEq

/-- `ARPM`. -/
def magic : List UInt8 := [0x41, 0x52, 0x50, 0x4d]

def recordHeader (kind flags : UInt8) (serial : ℕ) (timestamp : UInt64) (payload : List UInt8) :
    List UInt8 :=
  magic ++ bigEndian 2 version ++ [kind, flags] ++ bigEndian 4 payload.length ++
    bigEndian 4 serial ++ bigEndian 8 timestamp.toNat

def writeRecord (stopped : Bool) (sequence : ℕ) (kind flags : UInt8) (timestamp : UInt64)
    (payload : List UInt8) : Except Error Record :=
  if stopped then .error .closed
  else if sequence ≥ 2 ^ 32 then .error .sequenceExhausted
  else .ok ⟨recordHeader kind flags sequence timestamp payload, payload⟩

namespace VideoStream

def new (description : Description) (config : List UInt8) : Except Error VideoStream :=
  match description.encode with
  | .error e => .error e
  | .ok encodedDescription =>
    if description.plane ≠ .main then .error .invalidDescription
    else
      match Media.configuration config description.codec description.framing with
      | none => .error .invalidConfiguration
      | some lengthBytes =>
        .ok
          { description := description
            encodedDescription := encodedDescription
            configuration := config
            lengthBytes := lengthBytes
            state := ⟨[], true, false, false, none⟩
            stopped := false
            sender := none }

/-- The checks of `publish` that need no lock. -/
def checkAccessUnit (s : VideoStream) (payload : List UInt8) (keyframe : Bool) : Bool :=
  if payload = [] ∨ payload.length > accessUnitLimit then false
  else
    match inspectNals payload s.description.codec s.description.framing s.lengthBytes false with
    | none => false
    | some nals => nals.picture && nals.keyframe == keyframe

def publish (s : VideoStream) (payload : List UInt8) (timestamp : UInt64) (keyframe : Bool) :
    VideoStream × Except Error PublishOutcome :=
  if ¬s.checkAccessUnit payload keyframe then (s, .error .invalidAccessUnit)
  else if s.state.closed then (s, .error .closed)
  else if timestamp.toNat = 2 ^ 64 - 1 ∨ s.state.lastTimestamp.any (timestamp < ·) then
    (s, .error .timestamp)
  else
    -- An overflow drops the whole queued dependency chain.
    let overflow := s.state.queue.length = queueLimit
    let queue := if overflow then [] else s.state.queue
    let needKeyframe := s.state.needKeyframe || decide overflow
    let state := { s.state with
      lastTimestamp := some timestamp, queue := queue, needKeyframe := needKeyframe }
    if needKeyframe && !keyframe then ({ s with state := state }, .ok .needKeyframe)
    else
      ({ s with
          state := { state with
            needKeyframe := false
            queue := queue ++ [⟨payload, timestamp, keyframe, needKeyframe⟩] } },
        .ok (if needKeyframe then .resynchronized else .queued))

/-- The part of `stop` under the lock. -/
def stop (s : VideoStream) : VideoStream :=
  { s with state := { s.state with closed := true, queue := [] } }

/-- `send_to` up to its first write: the lease of the only consumer. -/
def attach (s : VideoStream) : VideoStream × Except Error Unit :=
  if s.state.closed then (s, .error .closed)
  else if s.state.serving then (s, .error .alreadyServing)
  else
    ({ s with state := { s.state with serving := true }, sender := some ⟨.described, 0⟩ }, .ok ())

/-- The end of `send_to`, for whatever reason: the lease is dropped. -/
def detach (s : VideoStream) : VideoStream :=
  { s with
    state := { s.state with serving := false, queue := [], needKeyframe := true }
    sender := none }

inductive Reply where
  | published (result : Except Error PublishOutcome)
  | attached (result : Except Error Unit)
  | taken (frame : AccessUnit)
  | wrote (record : Record)
  | ended (result : Except Error Unit)
  | none
  deriving DecidableEq

/-- Finish one record, or end the task. -/
def write (s : VideoStream) (sender : Sender) (kind flags : UInt8) (timestamp : UInt64)
    (payload : List UInt8) (phase : Phase) : VideoStream × Reply :=
  match writeRecord s.stopped sender.sequence kind flags timestamp payload with
  | .error e => (s.detach, .ended (.error e))
  | .ok record => ({ s with sender := some ⟨phase, sender.sequence + 1⟩ }, .wrote record)

/-- The next action of the consumer's task. -/
def advance (s : VideoStream) : VideoStream × Reply :=
  match s.sender with
  | none => (s, .none)
  | some sender =>
    match sender.phase with
    | .described => s.write sender 1 0 0 s.encodedDescription .configured
    | .configured => s.write sender 2 0 0 s.configuration .idle
    | .writing u => s.write sender 3 (AccessUnit.flags u) u.timestamp u.payload .idle
    | .idle =>
      if s.state.closed then (s.detach, .ended (.ok ()))
      else
        match s.state.queue with
        | [] => (s, .none)
        | u :: queue =>
          ({ s with
              state := { s.state with queue := queue }
              sender := some { sender with phase := .writing u } }, .taken u)

/-- `stopped` is the second half of `stop`; `detach` is the loss or cancellation of a consumer. -/
inductive Call where
  | publish (payload : List UInt8) (timestamp : UInt64) (keyframe : Bool)
  | stop
  | stopped
  | attach
  | advance
  | detach
  deriving DecidableEq

def step (s : VideoStream) : Call → VideoStream × Reply
  | .publish payload timestamp keyframe =>
    let next := s.publish payload timestamp keyframe
    (next.1, .published next.2)
  | .stop => (s.stop, .none)
  | .stopped => (if s.state.closed then { s with stopped := true } else s, .none)
  | .attach =>
    let next := s.attach
    (next.1, .attached next.2)
  | .advance => s.advance
  | .detach => if s.sender.isSome then (s.detach, .ended (.error .closed)) else (s, .none)

/-! ## What each operation does to the queue -/

/-- A publication is refused without effect, or the queue continues with or without the new
frame, possibly after losing everything it held. -/
theorem publish_cases (s : VideoStream) (payload : List UInt8) (timestamp : UInt64)
    (keyframe : Bool) :
    (∃ e, s.publish payload timestamp keyframe = (s, .error e)) ∨
    (s.checkAccessUnit payload keyframe = true ∧ s.state.closed = false ∧
      timestamp.toNat ≠ 2 ^ 64 - 1 ∧ (∀ t, s.state.lastTimestamp = some t → t ≤ timestamp) ∧
      ∃ queue need, ((queue = s.state.queue ∧ need = s.state.needKeyframe ∧
            s.state.queue.length ≠ queueLimit) ∨ (queue = [] ∧ need = true)) ∧
        ((need = true ∧ keyframe = false ∧
            s.publish payload timestamp keyframe =
              ({ s with state := { s.state with
                  lastTimestamp := some timestamp, queue := queue, needKeyframe := true } },
                .ok .needKeyframe)) ∨
          ((need = true → keyframe = true) ∧
            s.publish payload timestamp keyframe =
              ({ s with state := { s.state with
                  lastTimestamp := some timestamp
                  needKeyframe := false
                  queue := queue ++ [⟨payload, timestamp, keyframe, need⟩] } },
                .ok (if need then .resynchronized else .queued))))) := by
  unfold publish
  by_cases hcheck : s.checkAccessUnit payload keyframe = true
  swap
  · exact Or.inl ⟨_, if_pos hcheck⟩
  rw [if_neg (not_not.mpr hcheck)]
  by_cases hclosed : s.state.closed = true
  · exact Or.inl ⟨_, if_pos hclosed⟩
  rw [if_neg hclosed]
  by_cases htime : timestamp.toNat = 2 ^ 64 - 1 ∨ s.state.lastTimestamp.any (timestamp < ·)
  · exact Or.inl ⟨_, if_pos htime⟩
  · right
    rw [if_neg htime]
    rw [not_or] at htime
    refine ⟨by simpa using hcheck, by simpa using hclosed, htime.1, ?_, ?_⟩
    · intro t ht
      simpa [ht, UInt64.not_lt] using htime.2
    · by_cases hoverflow : s.state.queue.length = queueLimit
      · refine ⟨[], true, Or.inr ⟨rfl, rfl⟩, ?_⟩
        cases keyframe <;> simp [hoverflow]
      · refine ⟨s.state.queue, s.state.needKeyframe, Or.inl ⟨rfl, rfl, hoverflow⟩, ?_⟩
        cases keyframe <;> cases s.state.needKeyframe <;> simp [hoverflow]

theorem write_cases (s : VideoStream) (sender : Sender) (kind flags : UInt8) (timestamp : UInt64)
    (payload : List UInt8) (phase : Phase) :
    (∃ result, s.write sender kind flags timestamp payload phase = (s.detach, .ended result)) ∨
      (sender.sequence < 2 ^ 32 ∧ s.write sender kind flags timestamp payload phase =
        ({ s with sender := some ⟨phase, sender.sequence + 1⟩ },
          .wrote ⟨recordHeader kind flags sender.sequence timestamp payload, payload⟩)) := by
  unfold write writeRecord
  split_ifs with hstopped hserial
  · exact Or.inl ⟨_, rfl⟩
  · exact Or.inl ⟨_, rfl⟩
  · exact Or.inr ⟨Nat.lt_of_not_le hserial, rfl⟩

/-- What the task writes in a phase, as the arguments of `write`. -/
def planned (s : VideoStream) : Phase → Option (UInt8 × UInt8 × UInt64 × List UInt8 × Phase)
  | .described => some (1, 0, 0, s.encodedDescription, .configured)
  | .configured => some (2, 0, 0, s.configuration, .idle)
  | .writing u => some (3, AccessUnit.flags u, u.timestamp, u.payload, .idle)
  | .idle => none

/-- The next action of the task ends it, writes the planned record without touching the queue,
takes the oldest frame, or has nothing to do. -/
theorem advance_cases (s : VideoStream) :
    (∃ result, s.sender.isSome ∧ s.advance = (s.detach, .ended result)) ∨
    (∃ sender kind flags timestamp payload phase, s.sender = some sender ∧
      s.planned sender.phase = some (kind, flags, timestamp, payload, phase) ∧
      sender.sequence < 2 ^ 32 ∧
      s.advance = ({ s with sender := some ⟨phase, sender.sequence + 1⟩ },
        .wrote ⟨recordHeader kind flags sender.sequence timestamp payload, payload⟩)) ∨
    (∃ sender u queue, s.sender = some sender ∧ sender.phase = .idle ∧
      s.state.queue = u :: queue ∧ s.state.closed = false ∧
      s.advance = ({ s with
        state := { s.state with queue := queue }
        sender := some { sender with phase := .writing u } }, .taken u)) ∨
    s.advance = (s, .none) := by
  unfold advance
  cases hsender : s.sender with
  | none => simp
  | some sender =>
    dsimp only
    cases hphase : sender.phase with
    | idle =>
      dsimp only
      split_ifs with hclosed
      · exact Or.inl ⟨_, rfl, rfl⟩
      · cases hqueue : s.state.queue with
        | nil => simp
        | cons u queue =>
          right
          right
          left
          exact ⟨sender, u, queue, rfl, hphase, rfl, by simpa using hclosed, rfl⟩
    | described =>
      obtain ⟨result, h⟩ | ⟨hserial, h⟩ := write_cases s sender 1 0 0 s.encodedDescription .configured
      · exact Or.inl ⟨result, rfl, h⟩
      · exact Or.inr (Or.inl ⟨sender, _, _, _, _, _, rfl, by rw [hphase]; rfl, hserial, h⟩)
    | configured =>
      obtain ⟨result, h⟩ | ⟨hserial, h⟩ := write_cases s sender 2 0 0 s.configuration .idle
      · exact Or.inl ⟨result, rfl, h⟩
      · exact Or.inr (Or.inl ⟨sender, _, _, _, _, _, rfl, by rw [hphase]; rfl, hserial, h⟩)
    | writing u =>
      obtain ⟨result, h⟩ | ⟨hserial, h⟩ :=
        write_cases s sender 3 (AccessUnit.flags u) u.timestamp u.payload .idle
      · exact Or.inl ⟨result, rfl, h⟩
      · exact Or.inr (Or.inl ⟨sender, _, _, _, _, _, rfl, by rw [hphase]; rfl, hserial, h⟩)

/-! ## The ledger of publications and deliveries -/

/-- A frame taken by a consumer, with its position among the publications. -/
structure Delivery where
  index : ℕ
  frame : AccessUnit
  deriving DecidableEq

/-- The stream with every publication it did not refuse, the frames its current consumer took and
the frames each earlier consumer took. -/
structure Ledger where
  stream : VideoStream
  published : List AccessUnit
  current : List Delivery
  past : List (List Delivery)

namespace Ledger

def start (s : VideoStream) : Ledger := ⟨s, [], [], []⟩

/-- Position of the oldest queued frame. -/
def front (l : Ledger) : ℕ := l.published.length - l.stream.state.queue.length

/-- Every publication that was not refused is recorded, also when its frame was dropped. -/
def record (l : Ledger) : Call → Reply → List AccessUnit
  | .publish payload timestamp keyframe, .published (.ok outcome) =>
    l.published ++ [⟨payload, timestamp, keyframe, outcome == .resynchronized⟩]
  | _, _ => l.published

def deliver (l : Ledger) : Reply → List Delivery
  | .taken u => l.current ++ [⟨l.front, u⟩]
  | _ => l.current

def step (l : Ledger) (call : Call) : Ledger × Reply :=
  let next := l.stream.step call
  let current := l.deliver next.2
  if l.stream.sender.isSome && next.1.sender.isNone then
    (⟨next.1, l.record call next.2, [], l.past ++ [current]⟩, next.2)
  else (⟨next.1, l.record call next.2, current, l.past⟩, next.2)

theorem step_stream (l : Ledger) (call : Call) :
    (l.step call).1.stream = (l.stream.step call).1 := by
  unfold step
  dsimp only
  split_ifs <;> rfl

/-- While the consumer stays, its deliveries go on. -/
theorem step_keep {l : Ledger} {call : Call} {next : VideoStream} {reply : Reply}
    (hs : l.stream.step call = (next, reply))
    (hkeep : next.sender = none → l.stream.sender = none) :
    (l.step call).1 = ⟨next, l.record call reply, l.deliver reply, l.past⟩ := by
  unfold step
  rw [hs]
  dsimp only
  split_ifs with hend
  · simp only [Bool.and_eq_true, Option.isNone_iff_eq_none] at hend
    simp [hkeep hend.2] at hend
  · rfl

/-- Two deliveries that may follow each other: a delta comes right after its predecessor. -/
def Link (p q : Delivery) : Prop := p.index < q.index ∧ (q.frame.keyframe ∨ q.index = p.index + 1)

/-- What one consumer took is what was published, begins afresh and has no gap before a delta. -/
structure Chain (published : List AccessUnit) (deliveries : List Delivery) : Prop where
  recorded : ∀ d ∈ deliveries, published[d.index]? = some d.frame
  fresh : ∀ d, deliveries.head? = some d → d.frame.keyframe ∧ d.frame.discontinuity
  linked : deliveries.IsChain Link

/-- The next frame in line directly follows the last one the consumer took. -/
def Follows (deliveries : List Delivery) (index : ℕ) : Prop :=
  ∃ d, deliveries.getLast? = some d ∧ d.index + 1 = index

structure Inv (l : Ledger) : Prop where
  lease : l.stream.state.serving = l.stream.sender.isSome
  bounded : l.stream.state.queue.length ≤ queueLimit
  fits : l.stream.state.queue.length ≤ l.published.length
  suffix : l.stream.state.queue = l.published.drop l.front
  waiting : l.stream.state.needKeyframe = true → l.stream.state.queue = []
  closed : l.stream.state.closed = true → l.stream.state.queue = []
  head : ∀ u, l.stream.state.queue.head? = some u →
    (u.keyframe ∧ u.discontinuity) ∨ Follows l.current l.front
  ready : l.stream.state.closed = false → l.stream.state.needKeyframe = false →
    l.stream.state.queue = [] → Follows l.current l.published.length
  behind : ∀ d, l.current.getLast? = some d → d.index < l.front
  idle : l.stream.sender = none → l.current = []
  chain : Chain l.published l.current
  chains : ∀ deliveries ∈ l.past, Chain l.published deliveries

theorem Chain.nil (published : List AccessUnit) : Chain published [] where
  recorded := by simp
  fresh := by simp
  linked := List.IsChain.nil

/-- Later publications do not change what was recorded. -/
theorem Chain.extend {published : List AccessUnit} {deliveries : List Delivery}
    (h : Chain published deliveries) (more : List AccessUnit) :
    Chain (published ++ more) deliveries where
  recorded := fun d hd => by
    have hold := h.recorded d hd
    obtain ⟨hlt, -⟩ := List.getElem?_eq_some_iff.mp hold
    rw [List.getElem?_append_left hlt, hold]
  fresh := h.fresh
  linked := h.linked

theorem Chain.concat {published : List AccessUnit} {deliveries : List Delivery} {d : Delivery}
    (h : Chain published deliveries) (hrecorded : published[d.index]? = some d.frame)
    (hbehind : ∀ p, deliveries.getLast? = some p → p.index < d.index)
    (hhead : (d.frame.keyframe ∧ d.frame.discontinuity) ∨ Follows deliveries d.index) :
    Chain published (deliveries ++ [d]) where
  recorded := by
    intro e he
    rcases List.mem_append.mp he with he | he
    · exact h.recorded e he
    · rw [List.mem_singleton.mp he]
      exact hrecorded
  fresh := by
    intro e he
    cases hfirst : deliveries with
    | nil =>
      rw [hfirst] at he hhead
      obtain rfl : d = e := by simpa using he
      rcases hhead with hkey | ⟨p, hp, -⟩
      · exact hkey
      · simp at hp
    | cons first rest =>
      rw [hfirst] at he
      exact h.fresh e (by simpa [hfirst] using he)
  linked := by
    refine List.isChain_append.mpr ⟨h.linked, List.isChain_singleton d, ?_⟩
    intro p hp q hq
    obtain rfl : d = q := by simpa using hq
    refine ⟨hbehind p hp, ?_⟩
    rcases hhead with hkey | ⟨p', hp', hnext⟩
    · exact Or.inl hkey.1
    · obtain rfl : p = p' := by
        rw [Option.mem_def.mp hp] at hp'
        exact Option.some.inj hp'
      exact Or.inr hnext.symm

theorem front_le (l : Ledger) : l.front ≤ l.published.length := Nat.sub_le _ _

theorem start_inv {d : Description} {config : List UInt8} {s : VideoStream}
    (h : VideoStream.new d config = .ok s) : (start s).Inv := by
  unfold VideoStream.new at h
  split at h
  · contradiction
  split_ifs at h
  split at h
  · contradiction
  obtain rfl := Except.ok.inj h
  exact
    { lease := rfl
      bounded := Nat.zero_le _
      fits := Nat.zero_le _
      suffix := rfl
      waiting := fun _ => rfl
      closed := fun _ => rfl
      head := by simp [start]
      ready := by simp [start]
      behind := by simp [start]
      idle := fun _ => rfl
      chain := Chain.nil _
      chains := by simp [start] }

/-- A step that leaves the queue and its flags alone only has to keep the lease in order. -/
theorem Inv.retask {l : Ledger} (h : l.Inv) (s : VideoStream)
    (hqueue : s.state.queue = l.stream.state.queue)
    (hneed : s.state.needKeyframe = l.stream.state.needKeyframe)
    (hclosed : s.state.closed = l.stream.state.closed)
    (hlease : s.state.serving = s.sender.isSome) (hidle : s.sender = none → l.current = []) :
    Inv ⟨s, l.published, l.current, l.past⟩ := by
  have hfront : (⟨s, l.published, l.current, l.past⟩ : Ledger).front = l.front := by
    simp [front, hqueue]
  exact
    { lease := hlease
      bounded := by simpa [hqueue] using h.bounded
      fits := by simpa [hqueue] using h.fits
      suffix := by simpa [hqueue, hfront] using h.suffix
      waiting := by simpa [hqueue, hneed] using h.waiting
      closed := by simpa [hqueue, hclosed] using h.closed
      head := by simpa [hqueue, hfront] using h.head
      ready := by simpa [hqueue, hneed, hclosed] using h.ready
      behind := by simpa [hfront] using h.behind
      idle := hidle
      chain := h.chain
      chains := h.chains }

/-- Emptying the queue is safe once nothing may be admitted without a fresh keyframe. -/
theorem Inv.flush {l : Ledger} (h : l.Inv) (s : VideoStream) (published : List AccessUnit)
    (hmore : ∃ more, published = l.published ++ more) (hqueue : s.state.queue = [])
    (hblocked : s.state.closed = true ∨ s.state.needKeyframe = true)
    (hlease : s.state.serving = s.sender.isSome) (hidle : s.sender = none → l.current = []) :
    Inv ⟨s, published, l.current, l.past⟩ := by
  obtain ⟨more, rfl⟩ := hmore
  have hle := l.front_le
  refine
    { lease := hlease
      bounded := by simp [hqueue]
      fits := by simp [hqueue]
      suffix := by simp [hqueue, front]
      waiting := fun _ => hqueue
      closed := fun _ => hqueue
      head := by simp [hqueue]
      ready := fun hopen hready => ?_
      behind := ?_
      idle := hidle
      chain := h.chain.extend more
      chains := fun d hd => (h.chains d hd).extend more }
  · rcases hblocked with hb | hb
    · rw [hb] at hopen
      contradiction
    · rw [hb] at hready
      contradiction
  · intro d hd
    have hlt := h.behind d hd
    simp only [front, hqueue, List.length_append, List.length_nil]
    omega

/-- Admitting a frame: it joins the queue, or starts a new one as a marked keyframe. -/
theorem Inv.enqueue {l : Ledger} (h : l.Inv) (s : VideoStream) (u : AccessUnit)
    {queue : List AccessUnit} {need : Bool}
    (hqueue : (queue = l.stream.state.queue ∧ need = l.stream.state.needKeyframe ∧
      l.stream.state.queue.length ≠ queueLimit) ∨ (queue = [] ∧ need = true))
    (hkey : need = true → u.keyframe = true) (hmark : u.discontinuity = need)
    (hclosed : l.stream.state.closed = false)
    (hstate : s.state.queue = queue ++ [u] ∧ s.state.needKeyframe = false ∧
      s.state.closed = false)
    (hlease : s.state.serving = s.sender.isSome) (hidle : s.sender = none → l.current = []) :
    Inv ⟨s, l.published ++ [u], l.current, l.past⟩ := by
  obtain ⟨hnew, hready, hopen⟩ := hstate
  have hle := l.front_le
  have hfits := h.fits
  have hshort : queue.length < queueLimit ∧ queue.length ≤ l.published.length ∧
      queue = l.published.drop (l.published.length - queue.length) ∧
      l.front ≤ l.published.length - queue.length := by
    rcases hqueue with ⟨rfl, -, hlen⟩ | ⟨rfl, -⟩
    · exact ⟨Nat.lt_of_le_of_ne h.bounded hlen, hfits, h.suffix, Nat.le_refl _⟩
    · simpa [queueLimit] using hle
  obtain ⟨hroom, hqfits, hsuffix, hfrontle⟩ := hshort
  have hfront : (⟨s, l.published ++ [u], l.current, l.past⟩ : Ledger).front =
      l.published.length - queue.length := by
    simp only [front, hnew, List.length_append, List.length_singleton]
    omega
  refine
    { lease := hlease
      bounded := by simpa [hnew] using Nat.succ_le_of_lt hroom
      fits := by simpa [hnew] using hqfits
      suffix := ?_
      waiting := by simp [hready]
      closed := by simp [hopen]
      head := ?_
      ready := by simp [hnew]
      behind := ?_
      idle := hidle
      chain := h.chain.extend [u]
      chains := fun d hd => (h.chains d hd).extend [u] }
  · rw [hfront, List.drop_append_of_le_length (Nat.sub_le _ _), ← hsuffix, hnew]
  · intro v hv
    rw [hfront]
    rw [hnew] at hv
    rcases hqueue with ⟨rfl, rfl, -⟩ | ⟨rfl, rfl⟩
    · cases hold : l.stream.state.queue with
      | nil =>
        obtain rfl : u = v := by simpa [hold] using hv
        cases hneed : l.stream.state.needKeyframe with
        | true => exact Or.inl ⟨hkey hneed, hmark.trans hneed⟩
        | false => exact Or.inr (h.ready hclosed hneed hold)
      | cons first rest =>
        rw [← hold]
        exact h.head v (by simpa [hold] using hv)
    · obtain rfl : u = v := by simpa using hv
      exact Or.inl ⟨hkey rfl, hmark⟩
  · intro d hd
    rw [hfront]
    exact (h.behind d hd).trans_le hfrontle

theorem Inv.publish {l : Ledger} (h : l.Inv) (payload : List UInt8) (timestamp : UInt64)
    (keyframe : Bool) : Inv (l.step (.publish payload timestamp keyframe)).1 := by
  have hstep : l.stream.step (.publish payload timestamp keyframe) =
      ((l.stream.publish payload timestamp keyframe).1,
        .published (l.stream.publish payload timestamp keyframe).2) := rfl
  obtain ⟨e, hs⟩ | ⟨-, hclosed, -, -, queue, need, hqueue, ⟨hneed, hkey, hs⟩ | ⟨hkey, hs⟩⟩ :=
    publish_cases l.stream payload timestamp keyframe
  · rw [hs] at hstep
    rw [step_keep hstep id]
    exact h
  · have hempty : queue = [] := by
      rcases hqueue with ⟨rfl, rfl, -⟩ | ⟨rfl, -⟩
      · exact h.waiting hneed
      · rfl
    rw [hs] at hstep
    rw [step_keep hstep id]
    exact h.flush _ _ ⟨_, rfl⟩ hempty (Or.inr rfl) h.lease h.idle
  · rw [hs] at hstep
    have hmark : ((if need = true then PublishOutcome.resynchronized else .queued) ==
        .resynchronized) = need := by cases need <;> rfl
    rw [step_keep hstep id, record, hmark]
    exact h.enqueue _ _ hqueue hkey rfl hclosed ⟨rfl, rfl, hclosed⟩ h.lease h.idle

/-- Handing the oldest frame to the consumer extends its chain. -/
theorem Inv.take {l : Ledger} (h : l.Inv) {sender next : Sender} {u : AccessUnit}
    {queue : List AccessUnit} (hsender : l.stream.sender = some sender)
    (hqueue : l.stream.state.queue = u :: queue) :
    Inv ⟨{ l.stream with
          state := { l.stream.state with queue := queue }, sender := some next },
        l.published, l.current ++ [⟨l.front, u⟩], l.past⟩ := by
  have hfits := h.fits
  have hbounded := h.bounded
  have hsuffix := h.suffix
  rw [hqueue, List.length_cons] at hfits hbounded
  have hfront : l.front = l.published.length - (queue.length + 1) := by simp [front, hqueue]
  have hnext : l.published.length - queue.length = l.front + 1 := by omega
  have htaken : l.published[l.front]? = some u := by
    rw [← Nat.add_zero l.front, ← List.getElem?_drop, ← hsuffix, hqueue]
    rfl
  have hrest : queue = l.published.drop (l.front + 1) := by
    rw [← List.drop_drop, ← hsuffix, hqueue]
    rfl
  have hfollows : Follows (l.current ++ [⟨l.front, u⟩]) (l.front + 1) :=
    ⟨⟨l.front, u⟩, by simp, rfl⟩
  refine
    { lease := by simpa [hsender] using h.lease
      bounded := by simpa using Nat.le_of_succ_le hbounded
      fits := by simpa using Nat.le_of_succ_le hfits
      suffix := by simpa [front, hnext] using hrest
      waiting := fun hneed => absurd (h.waiting hneed) (by simp [hqueue])
      closed := fun hclosed => absurd (h.closed hclosed) (by simp [hqueue])
      head := fun v _ => Or.inr (by simpa [front, hnext] using hfollows)
      ready := fun _ _ hempty => ?_
      behind := ?_
      idle := by simp
      chain := h.chain.concat htaken h.behind (h.head u (by simp [hqueue]))
      chains := h.chains }
  · have hlength : l.published.length = l.front + 1 := by
      have hnil : queue = [] := hempty
      rw [← hnext, hnil]
      rfl
    rw [hlength]
    exact hfollows
  · intro d hd
    obtain rfl : (⟨l.front, u⟩ : Delivery) = d := by simpa using hd
    simp [front, hnext]

theorem Inv.detach {l : Ledger} (h : l.Inv) :
    Inv ⟨l.stream.detach, l.published, [], l.past ++ [l.current]⟩ where
  lease := rfl
  bounded := Nat.zero_le _
  fits := Nat.zero_le _
  suffix := by simp [front, VideoStream.detach]
  waiting := fun _ => rfl
  closed := fun _ => rfl
  head := by simp [VideoStream.detach]
  ready := by simp [VideoStream.detach]
  behind := by simp
  idle := fun _ => rfl
  chain := Chain.nil _
  chains := by
    intro d hd
    rcases List.mem_append.mp hd with hd | hd
    · exact h.chains d hd
    · rw [List.mem_singleton.mp hd]
      exact h.chain

theorem step_end {l : Ledger} {call : Call} {result : Except Error Unit}
    (hs : l.stream.step call = (l.stream.detach, .ended result)) (hsome : l.stream.sender.isSome) :
    (l.step call).1 = ⟨l.stream.detach, l.published, [], l.past ++ [l.current]⟩ := by
  unfold step
  rw [hs, if_pos (by simp [hsome, VideoStream.detach])]
  simp [record, deliver]

theorem Inv.advance {l : Ledger} (h : l.Inv) : Inv (l.step .advance).1 := by
  have hstep : l.stream.step .advance = l.stream.advance := rfl
  obtain ⟨result, hsome, hs⟩ | ⟨sender, kind, flags, timestamp, payload, phase, hsender, -, -, hs⟩ |
      ⟨sender, u, queue, hsender, -, hqueue, -, hs⟩ | hs := advance_cases l.stream
  · rw [step_end (hstep.trans hs) hsome]
    exact h.detach
  · rw [step_keep (hstep.trans hs) (by simp)]
    exact h.retask _ rfl rfl rfl (by simpa [hsender] using h.lease) (by simp)
  · rw [step_keep (hstep.trans hs) (by simp)]
    exact h.take hsender hqueue
  · rw [step_keep (hstep.trans hs) id]
    exact h

theorem Inv.step {l : Ledger} (h : l.Inv) (call : Call) : Inv (l.step call).1 := by
  cases call with
  | publish payload timestamp keyframe => exact h.publish payload timestamp keyframe
  | advance => exact h.advance
  | stop =>
    have hs : l.stream.step .stop = (l.stream.stop, .none) := rfl
    rw [step_keep hs id]
    exact h.flush _ _ ⟨[], by simp [record]⟩ rfl (Or.inl rfl) h.lease h.idle
  | stopped =>
    by_cases hclosed : l.stream.state.closed
    · have hs : l.stream.step .stopped = ({ l.stream with stopped := true }, .none) := by
        simp [VideoStream.step, hclosed]
      rw [step_keep hs id]
      exact h.retask _ rfl rfl rfl h.lease h.idle
    · have hs : l.stream.step .stopped = (l.stream, .none) := by
        simp [VideoStream.step, hclosed]
      rw [step_keep hs id]
      exact h
  | attach =>
    have hstep : l.stream.step .attach = (l.stream.attach.1, .attached l.stream.attach.2) := rfl
    unfold VideoStream.attach at hstep
    split_ifs at hstep with hclosed hserving
    · rw [step_keep hstep id]
      exact h
    · rw [step_keep hstep id]
      exact h
    · have hnone : l.stream.sender = none := by
        have hlease := h.lease
        rw [Bool.not_eq_true] at hserving
        rw [hserving] at hlease
        simpa using hlease.symm
      rw [step_keep hstep (by simp)]
      exact h.retask _ rfl rfl rfl rfl (fun _ => h.idle hnone)
  | detach =>
    by_cases hsome : l.stream.sender.isSome
    · have hs : l.stream.step .detach = (l.stream.detach, .ended (.error .closed)) := by
        simp [VideoStream.step, hsome]
      rw [step_end hs hsome]
      exact h.detach
    · have hs : l.stream.step .detach = (l.stream, .none) := by
        simp [VideoStream.step, hsome]
      rw [step_keep hs id]
      exact h

/-- One consumer's deliveries, in the words of a decoder: it starts at a marked keyframe, and every
delta has a keyframe before it with nothing published in between left out. -/
structure Decodable (published : List AccessUnit) (deliveries : List Delivery) : Prop where
  recorded : ∀ d ∈ deliveries, published[d.index]? = some d.frame
  fresh : ∀ d, deliveries.head? = some d → d.frame.keyframe ∧ d.frame.discontinuity
  gapless : ∀ (j : ℕ) (d : Delivery), deliveries[j]? = some d → d.frame.keyframe = false →
    ∃ (i : ℕ) (key : Delivery), i < j ∧ deliveries[i]? = some key ∧ key.frame.keyframe = true ∧
      ∀ n, key.index < n → n < d.index →
        ∃ (k : ℕ) (e : Delivery), i < k ∧ k < j ∧ deliveries[k]? = some e ∧ e.index = n

theorem link_of_chain {deliveries : List Delivery} (h : deliveries.IsChain Link) {j : ℕ}
    {p q : Delivery} (hp : deliveries[j]? = some p) (hq : deliveries[j + 1]? = some q) :
    Link p q := by
  obtain ⟨hj, rfl⟩ := List.getElem?_eq_some_iff.mp hq
  obtain ⟨hi, rfl⟩ := List.getElem?_eq_some_iff.mp hp
  exact List.isChain_iff_getElem.mp h j hj

theorem Chain.decodable {published : List AccessUnit} {deliveries : List Delivery}
    (h : Chain published deliveries) : Decodable published deliveries where
  recorded := h.recorded
  fresh := h.fresh
  gapless := by
    intro j
    -- Walking back from a delta, each predecessor is adjacent until a keyframe is met.
    induction j with
    | zero =>
      intro d hd hdelta
      have hkey := (h.fresh d (by simpa [List.head?_eq_getElem?] using hd)).1
      rw [hdelta] at hkey
      contradiction
    | succ j ih =>
      intro d hd hdelta
      have hj : j < deliveries.length := by
        have := (List.getElem?_eq_some_iff.mp hd).1
        omega
      have hp := List.getElem?_eq_getElem hj
      obtain ⟨-, hkey | hnext⟩ := link_of_chain h.linked hp hd
      · rw [hdelta] at hkey
        contradiction
      · cases hprev : deliveries[j].frame.keyframe with
        | true =>
          refine ⟨j, _, Nat.lt_succ_self j, hp, hprev, fun n hlow hhigh => ?_⟩
          omega
        | false =>
          obtain ⟨i, key, hij, hi, hkey, hbetween⟩ := ih _ hp hprev
          refine ⟨i, key, by omega, hi, hkey, fun n hlow hhigh => ?_⟩
          by_cases hn : n = deliveries[j].index
          · exact ⟨j, _, hij, Nat.lt_succ_self j, hp, hn.symm⟩
          · obtain ⟨k, e, hik, hkj, hk, he⟩ := hbetween n hlow (by omega)
            exact ⟨k, e, hik, by omega, hk, he⟩

end Ledger

/-- A refused publication changes nothing. -/
theorem publish_refused {s : VideoStream} {payload : List UInt8} {timestamp : UInt64}
    {keyframe : Bool} {e : Error} (h : (s.publish payload timestamp keyframe).2 = .error e) :
    (s.publish payload timestamp keyframe).1 = s := by
  obtain ⟨e', hs⟩ | ⟨-, -, -, -, queue, need, -, ⟨-, -, hs⟩ | ⟨-, hs⟩⟩ :=
    publish_cases s payload timestamp keyframe
  · rw [hs]
  · rw [hs] at h
    contradiction
  · rw [hs] at h
    contradiction

/-- A closed stream stays closed, and its consumer gets no more frames. -/
theorem step_closed {s : VideoStream} (h : s.state.closed = true) (call : Call) :
    (s.step call).1.state.closed = true ∧ ∀ u, (s.step call).2 ≠ .taken u := by
  cases call with
  | publish payload timestamp keyframe =>
    obtain ⟨e, hs⟩ | ⟨-, hopen, -⟩ := publish_cases s payload timestamp keyframe
    · simp [step, hs, h]
    · rw [h] at hopen
      contradiction
  | stop => simp [step, stop]
  | stopped => simp [step, h]
  | attach => simp [step, attach, h]
  | advance =>
    have hstep : s.step .advance = s.advance := rfl
    rw [hstep]
    obtain ⟨result, -, hs⟩ | ⟨_, _, _, _, _, _, -, -, -, hs⟩ | ⟨_, _, _, -, -, -, hopen, -⟩ | hs :=
      advance_cases s
    · simpa [hs, detach] using h
    · simpa [hs] using h
    · rw [h] at hopen
      contradiction
    · simpa [hs] using h
  | detach =>
    unfold step
    split_ifs
    · exact ⟨h, by simp⟩
    · exact ⟨h, by simp⟩

theorem run_stream (l : Ledger) (calls : List Call) :
    (run Ledger.step l calls).1.stream = (run step l.stream calls).1 := by
  induction calls generalizing l with
  | nil => rfl
  | cons call calls ih =>
    rw [run, run, ih, Ledger.step_stream]

/-- The dependency chains of every consumer, the queue bound, and the effect of refusal and of
`stop`, for every run of a fresh stream. -/
theorem stream_contract {d : Description} {config : List UInt8} {s : VideoStream}
    (h : new d config = .ok s) (calls : List Call) :
    let l := (run Ledger.step (Ledger.start s) calls).1
    l.stream = (run step s calls).1 ∧
      (∀ deliveries ∈ l.past ++ [l.current], Ledger.Decodable l.published deliveries) ∧
      l.stream.state.queue.length ≤ queueLimit ∧
      (∀ payload timestamp keyframe e,
        (l.stream.publish payload timestamp keyframe).2 = .error e →
          (l.stream.publish payload timestamp keyframe).1 = l.stream) ∧
      (∀ more, ∀ entry ∈ (run step (l.stream.step .stop).1 more).2,
        ∀ u, entry.2 ≠ .taken u) := by
  intro l
  have hinv : l.Inv := run_invariant Ledger.step (I := Ledger.Inv) (Ledger.start_inv h)
    (fun t call ht => ht.step call) calls
  refine ⟨run_stream _ calls, ?_, hinv.bounded, fun _ _ _ _ he => publish_refused he, ?_⟩
  · intro deliveries hd
    rcases List.mem_append.mp hd with hd | hd
    · exact (hinv.chains deliveries hd).decodable
    · rw [List.mem_singleton.mp hd]
      exact hinv.chain.decodable
  · intro more
    have hclosed := run_history step
      (I := fun t history => t.state.closed = true ∧ ∀ entry ∈ history, ∀ u, entry.2 ≠ .taken u)
      (s := (l.stream.step .stop).1) ⟨rfl, by simp⟩
      (fun t history call ht => ?_) more
    · exact hclosed.2
    · obtain ⟨hstill, hnone⟩ := step_closed ht.1 call
      refine ⟨hstill, fun entry hentry => ?_⟩
      rcases List.mem_append.mp hentry with hold | hnew
      · exact ht.2 entry hold
      · rw [List.mem_singleton.mp hnew]
        exact hnone

/-- A negotiated main-screen stream with its configuration record. -/
def sampleDescription : Description :=
  { protocol := .carPlay, plane := .main, codec := .h264, colorimetry := .bt709, range := .full
    framing := .lengthPrefixed, width := 1280, height := 720, fpsNum := 60, fpsDen := 1
    session := 42 }

def sampleConfiguration : List UInt8 :=
  [1, 66, 0, 30, 255, 225, 0, 2, 0x67, 1, 1, 0, 2, 0x68, 1]

def sampleStream : VideoStream :=
  { description := sampleDescription
    encodedDescription := sampleDescription.wire
    configuration := sampleConfiguration
    lengthBytes := 4
    state := ⟨[], true, false, false, none⟩
    stopped := false
    sender := none }

theorem stream_contract_sample :
    new sampleDescription sampleConfiguration = .ok sampleStream ∧
      (run Ledger.step (Ledger.start sampleStream)
        [.publish [0, 0, 0, 2, 0x65, 1] 1 true, .attach]).1.stream.state.queue.length ≤
          queueLimit :=
  ⟨by decide, (stream_contract (show new sampleDescription sampleConfiguration = .ok sampleStream by
    decide) _).2.2.1⟩

end VideoStream

end ProjectArgo.CarPlay.Media
