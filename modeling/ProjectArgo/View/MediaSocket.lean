import ProjectArgo.View.Agreement

/-!
# The media socket

Each consumer gets its own sequence of records and starts its own validator.
Beside the ledger of deliveries, the records written to the current consumer
are kept, and the validator that has read them stays in step with the sender.
-/
namespace ProjectArgo.View

open Library.Bytes Library.Run CarPlay
open CarPlay.Media (Description AccessUnit Record Phase Sender VideoStream)
open CarPlay.Media.VideoStream (Ledger Delivery Call Reply)

/-- The validator after a list of records, unless it refuses one. -/
def consume (v : Validator) : List Record → Option Validator
  | [] => some v
  | r :: rs =>
    match parseHeader r.header with
    | none => none
    | some h =>
      let next := v.accept h r.payload
      if next.2 then consume next.1 rs else none

theorem consume_append (v : Validator) (rs qs : List Record) :
    consume v (rs ++ qs) = (consume v rs).bind fun w => consume w qs := by
  induction rs generalizing v with
  | nil => rfl
  | cons r rs ih =>
    rw [List.cons_append, consume, consume]
    split
    · rfl
    · dsimp only
      split_ifs
      · exact ih _
      · rfl

/-- A ledger with the records written to the current and to each earlier consumer. -/
structure Socket where
  ledger : Ledger
  current : List Record
  past : List (List Record)

namespace Socket

def start (s : VideoStream) : Socket := ⟨Ledger.start s, [], []⟩

def receive (k : Socket) : Reply → List Record
  | .wrote r => k.current ++ [r]
  | _ => k.current

def step (k : Socket) (call : Call) : Socket × Reply :=
  let next := k.ledger.step call
  if k.ledger.stream.sender.isSome && next.1.stream.sender.isNone then
    (⟨next.1, [], k.past ++ [k.receive next.2]⟩, next.2)
  else (⟨next.1, k.receive next.2, k.past⟩, next.2)

/-! ## What publication guarantees -/

/-- A published frame passed the producer's checks. -/
structure Checked (s : VideoStream) (u : AccessUnit) : Prop where
  nonempty : u.payload ≠ []
  bounded : u.payload.length ≤ Media.accessUnitLimit
  timestamp : u.timestamp.toNat ≠ 2 ^ 64 - 1
  inspected : ∃ nals, Media.inspectNals u.payload s.description.codec s.description.framing
    s.lengthBytes false = some nals
  marked : u.discontinuity = true → u.keyframe = true

/-- The fixed parameters of a stream are consistent, and what was published is in order. -/
structure Feed (l : Ledger) : Prop where
  valid : l.stream.description.Valid
  encoded : l.stream.encodedDescription = l.stream.description.wire
  configured : Media.configuration l.stream.configuration l.stream.description.codec
    l.stream.description.framing = some l.stream.lengthBytes
  checked : ∀ u ∈ l.published, Checked l.stream u
  sorted : l.published.Pairwise fun u w => u.timestamp ≤ w.timestamp
  last : ∀ u ∈ l.published, ∃ t, l.stream.state.lastTimestamp = some t ∧ u.timestamp ≤ t

theorem start_feed {d : Description} {config : List UInt8} {s : VideoStream}
    (h : VideoStream.new d config = .ok s) :
    Feed (Ledger.start s) ∧ s.description = d ∧ s.sender = none := by
  unfold VideoStream.new Description.encode at h
  split_ifs at h with hvalid hplane
  split at h
  · contradiction
  rename_i encoded hencoded
  obtain rfl := Except.ok.inj hencoded
  split at h
  · contradiction
  · rename_i length hlength
    obtain rfl := Except.ok.inj h
    refine ⟨?_, rfl, rfl⟩
    exact
      { valid := hvalid
        encoded := rfl
        configured := hlength
        checked := by simp [Ledger.start]
        sorted := List.Pairwise.nil
        last := by simp [Ledger.start] }

theorem checked_of_publish {s : VideoStream} {payload : List UInt8} {timestamp : UInt64}
    {keyframe discontinuity : Bool} (hcheck : s.checkAccessUnit payload keyframe = true)
    (htime : timestamp.toNat ≠ 2 ^ 64 - 1) (hmark : discontinuity = true → keyframe = true) :
    Checked s ⟨payload, timestamp, keyframe, discontinuity⟩ := by
  unfold VideoStream.checkAccessUnit at hcheck
  split_ifs at hcheck with hbounds
  rw [not_or, Nat.not_lt] at hbounds
  split at hcheck
  · contradiction
  · rename_i nals hnals
    exact ⟨hbounds.1, hbounds.2, htime, ⟨nals, hnals⟩, hmark⟩

/-- The parameters a step never changes. -/
def SameStream (s t : VideoStream) : Prop :=
  t.description = s.description ∧ t.encodedDescription = s.encodedDescription ∧
    t.configuration = s.configuration ∧ t.lengthBytes = s.lengthBytes

theorem step_same (s : VideoStream) (call : Call) : SameStream s (s.step call).1 := by
  cases call with
  | publish payload timestamp keyframe =>
    obtain ⟨e, hs⟩ | ⟨-, -, -, -, queue, need, -, ⟨-, -, hs⟩ | ⟨-, hs⟩⟩ :=
      VideoStream.publish_cases s payload timestamp keyframe
    all_goals simp [VideoStream.step, hs, SameStream]
  | stop => exact ⟨rfl, rfl, rfl, rfl⟩
  | stopped => by_cases hclosed : s.state.closed <;> simp [VideoStream.step, hclosed, SameStream]
  | attach =>
    by_cases hclosed : s.state.closed <;> by_cases hserving : s.state.serving <;>
      simp [VideoStream.step, VideoStream.attach, hclosed, hserving, SameStream]
  | advance =>
    obtain ⟨result, -, hs⟩ | ⟨_, _, _, _, _, _, -, -, -, hs⟩ | ⟨_, _, _, -, -, -, -, hs⟩ | hs :=
      VideoStream.advance_cases s
    all_goals simp [VideoStream.step, hs, SameStream, VideoStream.detach]
  | detach =>
    by_cases hsome : s.sender.isSome <;>
      simp [VideoStream.step, VideoStream.detach, hsome, SameStream]

/-- Only a publication that was not refused changes the record or the last timestamp. -/
theorem step_record (l : Ledger) (call : Call) :
    ((l.step call).1.published = l.published ∧
      (l.stream.step call).1.state.lastTimestamp = l.stream.state.lastTimestamp) ∨
    ∃ u, (l.step call).1.published = l.published ++ [u] ∧ Checked l.stream u ∧
      (l.stream.step call).1.state.lastTimestamp = some u.timestamp ∧
      ∀ t, l.stream.state.lastTimestamp = some t → t ≤ u.timestamp := by
  have hpublished : (l.step call).1.published = l.record call (l.stream.step call).2 := by
    unfold Ledger.step
    dsimp only
    split_ifs <;> rfl
  rw [hpublished]
  cases call with
  | publish payload timestamp keyframe =>
    obtain ⟨e, hs⟩ | ⟨hcheck, -, htime, hmono, queue, need, -, ⟨-, -, hs⟩ | ⟨hkey, hs⟩⟩ :=
      VideoStream.publish_cases l.stream payload timestamp keyframe
    · left
      simp [VideoStream.step, hs, Ledger.record]
    · right
      refine ⟨⟨payload, timestamp, keyframe, false⟩, ?_, checked_of_publish hcheck htime (by simp), ?_,
        hmono⟩
      · simp [VideoStream.step, hs, Ledger.record]
      · simp [VideoStream.step, hs]
    · right
      refine ⟨⟨payload, timestamp, keyframe, need⟩, ?_, checked_of_publish hcheck htime hkey, ?_, hmono⟩
      · cases need <;> simp [VideoStream.step, hs, Ledger.record]
      · simp [VideoStream.step, hs]
  | stop => exact Or.inl ⟨rfl, rfl⟩
  | stopped =>
    left
    by_cases hclosed : l.stream.state.closed <;> simp [VideoStream.step, hclosed, Ledger.record]
  | attach =>
    left
    by_cases hclosed : l.stream.state.closed <;> by_cases hserving : l.stream.state.serving <;>
      simp [VideoStream.step, VideoStream.attach, hclosed, hserving, Ledger.record]
  | advance =>
    left
    obtain ⟨result, -, hs⟩ | ⟨_, _, _, _, _, _, -, -, -, hs⟩ | ⟨_, _, _, -, -, -, -, hs⟩ | hs :=
      VideoStream.advance_cases l.stream
    all_goals simp [VideoStream.step, hs, Ledger.record, VideoStream.detach]
  | detach =>
    left
    by_cases hsome : l.stream.sender.isSome <;>
      simp [VideoStream.step, VideoStream.detach, hsome, Ledger.record]

theorem Feed.step {l : Ledger} (h : Feed l) (call : Call) : Feed (l.step call).1 := by
  obtain ⟨hdescription, hencoded, hconfiguration, hlength⟩ := step_same l.stream call
  have hchecked : ∀ u, Checked l.stream u → Checked (l.stream.step call).1 u := by
    intro u hu
    exact ⟨hu.nonempty, hu.bounded, hu.timestamp,
      by rw [hdescription, hlength]; exact hu.inspected, hu.marked⟩
  have hvalid : (l.step call).1.stream = (l.stream.step call).1 := Ledger.step_stream l call
  obtain ⟨hpublished, htime⟩ | ⟨u, hpublished, hu, htime, hmono⟩ := step_record l call
  · exact
      { valid := by rw [hvalid, hdescription]; exact h.valid
        encoded := by rw [hvalid, hencoded, hdescription]; exact h.encoded
        configured := by rw [hvalid, hconfiguration, hdescription, hlength]; exact h.configured
        checked := by
          rw [hpublished, hvalid]
          exact fun u hu => hchecked u (h.checked u hu)
        sorted := by rw [hpublished]; exact h.sorted
        last := by rw [hpublished, hvalid, htime]; exact h.last }
  · have hbefore : ∀ w ∈ l.published, w.timestamp ≤ u.timestamp := by
      intro w hw
      obtain ⟨t, ht, hle⟩ := h.last w hw
      exact UInt64.le_trans hle (hmono t ht)
    exact
      { valid := by rw [hvalid, hdescription]; exact h.valid
        encoded := by rw [hvalid, hencoded, hdescription]; exact h.encoded
        configured := by rw [hvalid, hconfiguration, hdescription, hlength]; exact h.configured
        checked := by
          rw [hpublished, hvalid]
          intro w hw
          rcases List.mem_append.mp hw with hw | hw
          · exact hchecked w (h.checked w hw)
          · rw [List.mem_singleton.mp hw]
            exact hchecked u hu
        sorted := by
          rw [hpublished, List.pairwise_append]
          refine ⟨h.sorted, List.pairwise_singleton _ _, fun w hw x hx => ?_⟩
          rw [List.mem_singleton.mp hx]
          exact hbefore w hw
        last := by
          rw [hpublished, hvalid, htime]
          intro w hw
          refine ⟨u.timestamp, rfl, ?_⟩
          rcases List.mem_append.mp hw with hw | hw
          · exact hbefore w hw
          · rw [List.mem_singleton.mp hw]
            exact UInt64.le_refl _ }

/-! ## The validator in step with the sender -/

/-- The validator reads access units, and has seen exactly the given deliveries. -/
structure Running (s : VideoStream) (deliveries : List Delivery) (v : Validator) : Prop where
  described : v.described = true
  configured : v.configured = true
  lengthBytes : v.lengthBytes = s.lengthBytes
  seen : v.seenFrame = true ↔ deliveries ≠ []
  last : ∀ d, deliveries.getLast? = some d → v.lastTimestamp = d.frame.timestamp.toNat

/-- What the validator knows when the sender is about to act in a phase. -/
def Stage (s : VideoStream) (deliveries : List Delivery) (v : Validator) : Phase → Prop
  | .described =>
    v.described = false ∧ v.configured = false ∧ v.seenFrame = false ∧ v.lengthBytes = 0 ∧
      deliveries = []
  | .configured =>
    v.described = true ∧ v.configured = false ∧ v.seenFrame = false ∧ v.lengthBytes = 0 ∧
      deliveries = []
  | .idle => Running s deliveries v
  | .writing u => ∃ sent i, deliveries = sent ++ [⟨i, u⟩] ∧ Running s sent v

structure Agrees (s : VideoStream) (deliveries : List Delivery) (sender : Sender) (v : Validator) :
    Prop where
  expected : v.expected = s.description
  failed : v.failed = false
  serial : v.nextSequence = sender.sequence % 2 ^ 32
  exhausted : v.exhausted = decide (sender.sequence = 2 ^ 32)
  stage : Stage s deliveries v sender.phase

variable {s : VideoStream} {deliveries : List Delivery} {sender : Sender} {v : Validator}

theorem flags_spec (u : AccessUnit) :
    (AccessUnit.flags u &&& ~~~3 = 0) ∧ (AccessUnit.flags u &&& 1 = 0 ↔ u.keyframe = false) ∧
      (AccessUnit.flags u &&& 2 = 0 ↔ u.discontinuity = false) := by
  unfold AccessUnit.flags
  cases u.keyframe <;> cases u.discontinuity <;> decide

/-- Taking a record whose content is admitted moves the validator to the next serial number. -/
theorem Agrees.accept (h : Agrees s deliveries sender v) (hserial : sender.sequence < 2 ^ 32)
    {header : Header} {payload : List UInt8} {next : Validator}
    (hsequence : header.sequence = sender.sequence) (hsize : payload.length = header.size)
    (hjudge : v.judge header payload = some next) :
    v.accept header payload =
      ({ next with
          exhausted := decide (sender.sequence + 1 = 2 ^ 32)
          nextSequence := (sender.sequence + 1) % 2 ^ 32 }, true) := by
  have hnext : v.nextSequence = sender.sequence := by rw [h.serial, Nat.mod_eq_of_lt hserial]
  have hopen : v.exhausted = false := by
    rw [h.exhausted]
    simp
    omega
  have hlast : (sender.sequence = 2 ^ 32 - 1) = (sender.sequence + 1 = 2 ^ 32) := by
    simp only [eq_iff_iff]
    omega
  rw [Validator.accept, if_neg (by simp [h.failed, hopen, hnext, hsequence, hsize]), hjudge, hnext]
  simp only [hlast]

/-- The opening record carries the description. -/
theorem accept_description (h : Agrees s deliveries sender v) (hphase : sender.phase = .described)
    (hvalid : s.description.Valid) (hencoded : s.encodedDescription = s.description.wire)
    (hserial : sender.sequence < 2 ^ 32) :
    ∃ header next, parseHeader (Media.recordHeader 1 0 sender.sequence 0 s.encodedDescription) =
        some header ∧ v.accept header s.encodedDescription = (next, true) ∧
      Agrees s deliveries ⟨.configured, sender.sequence + 1⟩ next := by
  have hstage := h.stage
  rw [hphase] at hstage
  obtain ⟨hdescribed, hconfigured, hseen, hzero, hnone⟩ := hstage
  have hlen : s.encodedDescription.length = 24 := by simp [hencoded, Description.wire]
  obtain ⟨hlength, hmagic, hkind, hflags, hsize, hsequence, htime⟩ :=
    recordHeader_fields 1 0 0 hserial (show s.encodedDescription.length < 2 ^ 32 by omega)
  have hparse : parseHeader (Media.recordHeader 1 0 sender.sequence 0 s.encodedDescription) =
      some ⟨.description, 0, s.encodedDescription.length, sender.sequence, 0⟩ := by
    rw [parseHeader, if_neg (not_not.mpr hlength), hkind, hflags, hsize, hsequence, htime,
      if_neg (by simpa [not_or] using hmagic)]
    simp [hlen, kDescriptionSize]
  have hjudge : v.judge ⟨.description, 0, s.encodedDescription.length, sender.sequence, 0⟩
      s.encodedDescription = some { v with described := true } := by
    rw [hencoded]
    simp [Validator.judge, hdescribed, parseDescription_wire hvalid, h.expected]
  refine ⟨_, _, hparse, h.accept hserial rfl rfl hjudge, ?_⟩
  exact
    { expected := h.expected
      failed := h.failed
      serial := rfl
      exhausted := rfl
      stage := ⟨rfl, hconfigured, hseen, hzero, hnone⟩ }

/-- The second record carries the codec configuration. -/
theorem accept_configuration (h : Agrees s deliveries sender v)
    (hphase : sender.phase = .configured)
    (hconfig : Media.configuration s.configuration s.description.codec s.description.framing =
      some s.lengthBytes) (hserial : sender.sequence < 2 ^ 32) :
    ∃ header next, parseHeader (Media.recordHeader 2 0 sender.sequence 0 s.configuration) =
        some header ∧ v.accept header s.configuration = (next, true) ∧
      Agrees s deliveries ⟨.idle, sender.sequence + 1⟩ next := by
  have hstage := h.stage
  rw [hphase] at hstage
  obtain ⟨hdescribed, hconfigured, hseen, hzero, hnone⟩ := hstage
  have hbounds : s.configuration ≠ [] ∧ s.configuration.length ≤ Media.configLimit := by
    unfold Media.configuration at hconfig
    split_ifs at hconfig with hbad
    rw [not_or, Nat.not_lt] at hbad
    exact hbad
  have hpos := List.length_pos_iff.mpr hbounds.1
  have hlimit := hbounds.2
  unfold Media.configLimit at hlimit
  obtain ⟨hlength, hmagic, hkind, hflags, hsize, hsequence, htime⟩ :=
    recordHeader_fields 2 0 0 hserial (show s.configuration.length < 2 ^ 32 by omega)
  have hparse : parseHeader (Media.recordHeader 2 0 sender.sequence 0 s.configuration) =
      some ⟨.config, 0, s.configuration.length, sender.sequence, 0⟩ := by
    rw [parseHeader, if_neg (not_not.mpr hlength), hkind, hflags, hsize, hsequence, htime,
      if_neg (by simpa [not_or] using hmagic)]
    have hfit : ¬(s.configuration.length = 0 ∨ s.configuration.length > kConfigLimit) := by
      unfold kConfigLimit
      omega
    simpa using hfit
  have hjudge : v.judge ⟨.config, 0, s.configuration.length, sender.sequence, 0⟩ s.configuration =
      some { v with configured := true, lengthBytes := s.lengthBytes } := by
    cases hframing : s.description.framing with
    | annexB =>
      rw [hframing] at hconfig
      unfold Media.configuration at hconfig
      split_ifs at hconfig
      obtain ⟨nals, hnals, hwidth⟩ := Option.map_eq_some_iff.mp hconfig
      have hinspect := inspectNals_of_producer hnals
      rw [Validator.judge, if_neg (by simp [hdescribed]), if_pos rfl,
        if_neg (by simp [hconfigured, hseen]), if_pos (by rw [h.expected, hframing]),
        if_neg (by simp [h.expected, hframing, hinspect]), ← hwidth, ← hzero]
    | lengthPrefixed =>
      rw [hframing] at hconfig
      simp [Validator.judge, hdescribed, hconfigured, hseen, h.expected, hframing,
        parseCodecConfig_of_producer hconfig]
  refine ⟨_, _, hparse, h.accept hserial rfl rfl hjudge, ?_⟩
  exact
    { expected := h.expected
      failed := h.failed
      serial := rfl
      exhausted := rfl
      stage :=
        { described := hdescribed
          configured := rfl
          lengthBytes := rfl
          seen := by simp [hseen, hnone]
          last := by simp [hnone] } }

/-- A taken frame is accepted: it begins with a keyframe and never goes back in time. -/
theorem accept_frame (h : Agrees s deliveries sender v) {u : AccessUnit}
    (hphase : sender.phase = .writing u) (hchecked : Checked s u)
    (hfresh : ∀ d, deliveries.head? = some d → d.frame.keyframe ∧ d.frame.discontinuity)
    (hsorted : ∀ (sent : List Delivery) (i : ℕ), deliveries = sent ++ [⟨i, u⟩] →
      ∀ d, sent.getLast? = some d → d.frame.timestamp ≤ u.timestamp)
    (hserial : sender.sequence < 2 ^ 32) :
    ∃ header next,
      parseHeader (Media.recordHeader 3 (AccessUnit.flags u) sender.sequence u.timestamp u.payload) =
        some header ∧ v.accept header u.payload = (next, true) ∧
      Agrees s deliveries ⟨.idle, sender.sequence + 1⟩ next := by
  have hstage := h.stage
  rw [hphase] at hstage
  obtain ⟨sent, i, hdeliveries, hrunning⟩ := hstage
  obtain ⟨hreserved, hkeyFlag, hmarkFlag⟩ := flags_spec u
  have hpos := List.length_pos_iff.mpr hchecked.nonempty
  have hlimit := hchecked.bounded
  unfold Media.accessUnitLimit at hlimit
  obtain ⟨hlength, hmagic, hkind, hflags, hsize, hsequence, htime⟩ :=
    recordHeader_fields 3 (AccessUnit.flags u) u.timestamp hserial
      (show u.payload.length < 2 ^ 32 by omega)
  have hparse : parseHeader (Media.recordHeader 3 (AccessUnit.flags u) sender.sequence u.timestamp
      u.payload) = some ⟨.accessUnit, AccessUnit.flags u, u.payload.length, sender.sequence,
        u.timestamp.toNat⟩ := by
    rw [parseHeader, if_neg (not_not.mpr hlength), hkind, hflags, hsize, hsequence, htime,
      if_neg (by simpa [not_or] using hmagic)]
    have hfit : ¬(AccessUnit.flags u &&& ~~~3 ≠ 0 ∨ u.payload.length = 0 ∨
        u.payload.length > kAccessUnitLimit ∨ u.timestamp.toNat = 2 ^ 64 - 1) := by
      unfold kAccessUnitLimit
      simp only [not_or, not_not]
      exact ⟨hreserved, by omega, by omega, hchecked.timestamp⟩
    exact if_neg hfit
  have hkey : ¬((¬v.seenFrame = true ∨ AccessUnit.flags u &&& 2 ≠ 0) ∧
      AccessUnit.flags u &&& 1 = 0) := by
    rintro ⟨hreason, hnokey⟩
    have hdelta := hkeyFlag.mp hnokey
    rcases hreason with hfirst | hdisc
    · have hempty : sent = [] := by
        by_contra hne
        exact hfirst (hrunning.seen.mpr hne)
      have hhead := (hfresh ⟨i, u⟩ (by simp [hdeliveries, hempty])).1
      rw [hdelta] at hhead
      exact absurd hhead Bool.false_ne_true
    · have hkeyframe := hchecked.marked (by simpa using fun hc => hdisc (hmarkFlag.mpr hc))
      rw [hdelta] at hkeyframe
      exact absurd hkeyframe Bool.false_ne_true
  have hmono : ¬(v.seenFrame = true ∧ u.timestamp.toNat < v.lastTimestamp) := by
    rintro ⟨hseen, hback⟩
    have hne := hrunning.seen.mp hseen
    have hlast := List.getLast?_eq_some_getLast hne
    rw [hrunning.last _ hlast] at hback
    have hle := UInt64.le_iff_toNat_le.mp (hsorted sent i hdeliveries _ hlast)
    omega
  have hjudge : v.judge ⟨.accessUnit, AccessUnit.flags u, u.payload.length, sender.sequence,
      u.timestamp.toNat⟩ u.payload =
        some { v with seenFrame := true, lastTimestamp := u.timestamp.toNat } := by
    obtain ⟨nals, hnals⟩ := hchecked.inspected
    have hinspect := inspectNals_of_producer hnals
    rw [Validator.judge, if_neg (by simp [hrunning.described]), if_neg (by simp), if_pos rfl,
      if_neg]
    rw [h.expected, hrunning.lengthBytes, hinspect]
    simp only [not_or, hrunning.configured, not_true_eq_false, not_false_eq_true, true_and, and_true]
    exact ⟨hkey, hmono⟩
  refine ⟨_, _, hparse, h.accept hserial rfl rfl hjudge, ?_⟩
  exact
    { expected := h.expected
      failed := h.failed
      serial := rfl
      exhausted := rfl
      stage :=
        { described := hrunning.described
          configured := hrunning.configured
          lengthBytes := hrunning.lengthBytes
          seen := by simp [hdeliveries]
          last := by
            intro d hd
            obtain rfl : (⟨i, u⟩ : Delivery) = d := by simpa [hdeliveries] using hd
            rfl } }

theorem Agrees.congr (h : Agrees s deliveries sender v) {t : VideoStream}
    (hsame : SameStream s t) : Agrees t deliveries sender v := by
  obtain ⟨hdescription, -, -, hlength⟩ := hsame
  have hrunning : ∀ ds, Running s ds v → Running t ds v := by
    intro ds hr
    exact ⟨hr.described, hr.configured, hr.lengthBytes.trans hlength.symm, hr.seen, hr.last⟩
  refine
    { expected := h.expected.trans hdescription.symm
      failed := h.failed
      serial := h.serial
      exhausted := h.exhausted
      stage := ?_ }
  have hstage := h.stage
  cases hphase : sender.phase with
  | described =>
    rw [hphase] at hstage
    exact hstage
  | configured =>
    rw [hphase] at hstage
    exact hstage
  | idle =>
    rw [hphase] at hstage
    exact hrunning _ hstage
  | writing u =>
    rw [hphase] at hstage
    obtain ⟨sent, i, hds, hr⟩ := hstage
    exact ⟨sent, i, hds, hrunning _ hr⟩

theorem attach_agrees (hnone : deliveries = []) :
    Agrees s deliveries ⟨.described, 0⟩ (Validator.start s.description) where
  expected := rfl
  failed := rfl
  serial := rfl
  exhausted := rfl
  stage := ⟨rfl, rfl, rfl, rfl, hnone⟩

/-- Taking a frame leaves the validator waiting for its record. -/
theorem Agrees.take (h : Agrees s deliveries sender v) (hphase : sender.phase = .idle) (i : ℕ)
    (u : AccessUnit) :
    Agrees s (deliveries ++ [⟨i, u⟩]) { sender with phase := .writing u } v where
  expected := h.expected
  failed := h.failed
  serial := h.serial
  exhausted := h.exhausted
  stage := by
    have hstage := h.stage
    rw [hphase] at hstage
    exact ⟨deliveries, i, rfl, hstage⟩

/-- Deliveries of one consumer carry increasing timestamps. -/
theorem deliveries_sorted {l : Ledger} (hchain : Ledger.Chain l.published l.current)
    (hfeed : Feed l) {sent : List Delivery} {d : Delivery} (hds : l.current = sent ++ [d])
    {e : Delivery} (he : sent.getLast? = some e) : e.frame.timestamp ≤ d.frame.timestamp := by
  have hlink := List.isChain_append.mp (hds ▸ hchain.linked)
  have hlt := (hlink.2.2 e he d (by simp)).1
  have hrecorded := hchain.recorded e (by
    rw [hds]
    exact List.mem_append_left _ (List.mem_of_getLast? he))
  have hlast := hchain.recorded d (by simp [hds])
  obtain ⟨hi, hei⟩ := List.getElem?_eq_some_iff.mp hrecorded
  obtain ⟨hj, hdj⟩ := List.getElem?_eq_some_iff.mp hlast
  have hsorted := List.pairwise_iff_getElem.mp hfeed.sorted _ _ hi hj hlt
  rwa [hei, hdj] at hsorted

/-- The record a sender writes is accepted, and validator and sender move on together. -/
theorem accept_planned {l : Ledger} (hledger : l.Inv) (hfeed : Feed l)
    (h : Agrees l.stream l.current sender v) {kind flags : UInt8} {timestamp : UInt64}
    {payload : List UInt8} {phase : Phase}
    (hplanned : l.stream.planned sender.phase = some (kind, flags, timestamp, payload, phase))
    (hserial : sender.sequence < 2 ^ 32) :
    ∃ next, consume v [⟨Media.recordHeader kind flags sender.sequence timestamp payload,
        payload⟩] = some next ∧
      Agrees l.stream l.current ⟨phase, sender.sequence + 1⟩ next := by
  have hsome : ∃ header next, parseHeader
      (Media.recordHeader kind flags sender.sequence timestamp payload) = some header ∧
        v.accept header payload = (next, true) ∧
        Agrees l.stream l.current ⟨phase, sender.sequence + 1⟩ next := by
    cases hphase : sender.phase with
    | described =>
      rw [hphase] at hplanned
      obtain ⟨rfl, rfl, rfl, rfl, rfl⟩ := by simpa [VideoStream.planned] using hplanned
      exact accept_description h hphase hfeed.valid hfeed.encoded hserial
    | configured =>
      rw [hphase] at hplanned
      obtain ⟨rfl, rfl, rfl, rfl, rfl⟩ := by simpa [VideoStream.planned] using hplanned
      exact accept_configuration h hphase hfeed.configured hserial
    | idle =>
      rw [hphase] at hplanned
      simp [VideoStream.planned] at hplanned
    | writing u =>
      rw [hphase] at hplanned
      obtain ⟨rfl, rfl, rfl, rfl, rfl⟩ := by simpa [VideoStream.planned] using hplanned
      have hstage := h.stage
      rw [hphase] at hstage
      obtain ⟨sent, i, hds, -⟩ := hstage
      have hrecorded := hledger.chain.recorded ⟨i, u⟩ (by simp [hds])
      exact accept_frame h hphase (hfeed.checked u (List.mem_of_getElem? hrecorded))
        hledger.chain.fresh
        (fun sent i hds d hd => deliveries_sorted hledger.chain hfeed hds hd) hserial
  obtain ⟨header, next, hparse, haccept, hagrees⟩ := hsome
  refine ⟨next, ?_, hagrees⟩
  rw [consume, hparse]
  simp [haccept, consume]

structure Inv (d : Description) (k : Socket) : Prop where
  ledger : k.ledger.Inv
  feed : Feed k.ledger
  description : k.ledger.stream.description = d
  unused : k.ledger.stream.sender = none → k.current = []
  validated : ∃ v, consume (Validator.start d) k.current = some v ∧
    ∀ sender, k.ledger.stream.sender = some sender →
      Agrees k.ledger.stream k.ledger.current sender v
  accepted : ∀ records ∈ k.past, (consume (Validator.start d) records).isSome

/-- How a step affects the consumer's task: not at all, or it begins, writes, takes or ends. -/
theorem step_task (s : VideoStream) (call : Call) :
    ((s.step call).1.sender = s.sender ∧ (∀ u, (s.step call).2 ≠ .taken u) ∧
      ∀ r, (s.step call).2 ≠ .wrote r) ∨
    (s.state.serving = false ∧ (s.step call).1.sender = some ⟨.described, 0⟩ ∧
      (∀ u, (s.step call).2 ≠ .taken u) ∧ ∀ r, (s.step call).2 ≠ .wrote r) ∨
    (∃ sender kind flags timestamp payload phase, s.sender = some sender ∧
      s.planned sender.phase = some (kind, flags, timestamp, payload, phase) ∧
      sender.sequence < 2 ^ 32 ∧ (s.step call).1.sender = some ⟨phase, sender.sequence + 1⟩ ∧
      (s.step call).2 =
        .wrote ⟨Media.recordHeader kind flags sender.sequence timestamp payload, payload⟩) ∨
    (∃ sender u, s.sender = some sender ∧ sender.phase = .idle ∧
      (s.step call).1.sender = some { sender with phase := .writing u } ∧
      (s.step call).2 = .taken u) ∨
    (s.sender.isSome ∧ (s.step call).1.sender = none ∧ ∃ result, (s.step call).2 = .ended result) := by
  cases call with
  | publish payload timestamp keyframe =>
    left
    obtain ⟨e, hs⟩ | ⟨-, -, -, -, queue, need, -, ⟨-, -, hs⟩ | ⟨-, hs⟩⟩ :=
      VideoStream.publish_cases s payload timestamp keyframe
    all_goals simp [VideoStream.step, hs]
  | stop =>
    left
    simp [VideoStream.step, VideoStream.stop]
  | stopped =>
    left
    by_cases hclosed : s.state.closed <;> simp [VideoStream.step, hclosed]
  | attach =>
    by_cases hclosed : s.state.closed
    · left
      simp [VideoStream.step, VideoStream.attach, hclosed]
    · by_cases hserving : s.state.serving
      · left
        simp [VideoStream.step, VideoStream.attach, hclosed, hserving]
      · right
        left
        simp [VideoStream.step, VideoStream.attach, hclosed, hserving]
  | advance =>
    obtain ⟨result, hsome, hs⟩ | ⟨sender, kind, flags, timestamp, payload, phase, hsender,
        hplanned, hserial, hs⟩ | ⟨sender, u, queue, hsender, hphase, -, -, hs⟩ | hs :=
      VideoStream.advance_cases s
    · iterate 4 right
      exact ⟨hsome, by simp [VideoStream.step, hs, VideoStream.detach], result,
        by simp [VideoStream.step, hs]⟩
    · right
      right
      left
      exact ⟨sender, kind, flags, timestamp, payload, phase, hsender, hplanned, hserial,
        by simp [VideoStream.step, hs], by simp [VideoStream.step, hs]⟩
    · iterate 3 right
      left
      exact ⟨sender, u, hsender, hphase, by simp [VideoStream.step, hs],
        by simp [VideoStream.step, hs]⟩
    · left
      simp [VideoStream.step, hs]
  | detach =>
    by_cases hsome : s.sender.isSome
    · iterate 4 right
      exact ⟨hsome, by simp [VideoStream.step, hsome, VideoStream.detach], .error .closed,
        by simp [VideoStream.step, hsome]⟩
    · left
      simp [VideoStream.step, hsome]

theorem receive_of_not_wrote {k : Socket} {reply : Reply} (h : ∀ r, reply ≠ .wrote r) :
    k.receive reply = k.current := by
  cases reply with
  | wrote r => exact absurd rfl (h r)
  | _ => rfl

theorem deliver_of_not_taken {l : Ledger} {reply : Reply} (h : ∀ u, reply ≠ .taken u) :
    l.deliver reply = l.current := by
  cases reply with
  | taken u => exact absurd rfl (h u)
  | _ => rfl

/-- While the consumer stays, the socket keeps its records and the ledger its deliveries. -/
theorem step_keep (k : Socket) (call : Call)
    (hkeep : (k.ledger.stream.step call).1.sender = none → k.ledger.stream.sender = none) :
    (k.step call).1.current = k.receive (k.ledger.stream.step call).2 ∧
      (k.step call).1.past = k.past ∧
      (k.step call).1.ledger.current = k.ledger.deliver (k.ledger.stream.step call).2 := by
  have hledger := Ledger.step_keep (show k.ledger.stream.step call =
    ((k.ledger.stream.step call).1, (k.ledger.stream.step call).2) from rfl) hkeep
  have hreply : (k.ledger.step call).2 = (k.ledger.stream.step call).2 := by
    unfold Ledger.step
    dsimp only
    split_ifs <;> rfl
  unfold step
  dsimp only
  rw [hreply, Ledger.step_stream]
  split_ifs with hend
  · simp only [Bool.and_eq_true, Option.isNone_iff_eq_none] at hend
    simp [hkeep hend.2] at hend
  · exact ⟨rfl, rfl, by rw [hledger]⟩

theorem step_end (k : Socket) (call : Call) (hsome : k.ledger.stream.sender.isSome)
    (hnone : (k.ledger.stream.step call).1.sender = none)
    (hended : ∃ result, (k.ledger.stream.step call).2 = .ended result) :
    (k.step call).1.current = [] ∧ (k.step call).1.past = k.past ++ [k.current] := by
  obtain ⟨result, hended⟩ := hended
  have hreply : (k.ledger.step call).2 = .ended result := by
    rw [← hended]
    unfold Ledger.step
    dsimp only
    split_ifs <;> rfl
  unfold step
  dsimp only
  rw [hreply, Ledger.step_stream, hnone, hsome]
  exact ⟨rfl, rfl⟩

theorem step_ledger (k : Socket) (call : Call) :
    (k.step call).1.ledger = (k.ledger.step call).1 := by
  unfold step
  dsimp only
  split_ifs <;> rfl

theorem Inv.step {d : Description} {k : Socket} (h : Inv d k) (call : Call) :
    Inv d (k.step call).1 := by
  have hsame := step_same k.ledger.stream call
  have hledger : (k.step call).1.ledger = (k.ledger.step call).1 := step_ledger k call
  have hstream : (k.step call).1.ledger.stream = (k.ledger.stream.step call).1 := by
    rw [hledger, Ledger.step_stream]
  have hinv : (k.step call).1.ledger.Inv := hledger ▸ h.ledger.step call
  have hfeed : Feed (k.step call).1.ledger := hledger ▸ h.feed.step call
  have hdescription : (k.step call).1.ledger.stream.description = d := by
    rw [hstream, hsame.1, h.description]
  obtain ⟨v, hv, hagrees⟩ := h.validated
  obtain ⟨hsender, htaken, hwrote⟩ | ⟨hserving, hsender, htaken, hwrote⟩ |
      ⟨sender, kind, flags, timestamp, payload, phase, hold, hplanned, hserial, hsender, hreply⟩ |
      ⟨sender, u, hold, hphase, hsender, hreply⟩ | ⟨hsome, hsender, hended⟩ :=
    step_task k.ledger.stream call
  · obtain ⟨hcurrent, hpast, hdeliveries⟩ := step_keep k call (by rw [hsender]; exact id)
    rw [receive_of_not_wrote hwrote] at hcurrent
    rw [deliver_of_not_taken htaken] at hdeliveries
    refine ⟨hinv, hfeed, hdescription, ?_, ⟨v, by rw [hcurrent]; exact hv, ?_⟩,
      by rw [hpast]; exact h.accepted⟩
    · rw [hstream, hsender, hcurrent]
      exact h.unused
    · rw [hstream, hsender, hdeliveries]
      exact fun sender hs => (hagrees sender hs).congr hsame
  · have hnone : k.ledger.stream.sender = none := by
      have hlease := h.ledger.lease
      rw [hserving] at hlease
      simpa using hlease.symm
    obtain ⟨hcurrent, hpast, hdeliveries⟩ := step_keep k call (by simp [hsender])
    rw [receive_of_not_wrote hwrote, h.unused hnone] at hcurrent
    rw [deliver_of_not_taken htaken, h.ledger.idle hnone] at hdeliveries
    refine ⟨hinv, hfeed, hdescription, by simp [hstream, hsender],
      ⟨Validator.start d, by rw [hcurrent]; rfl, ?_⟩, by rw [hpast]; exact h.accepted⟩
    intro sender hs
    rw [hstream, hsender] at hs
    rw [← Option.some.inj hs, ← hdescription]
    exact attach_agrees hdeliveries
  · obtain ⟨hcurrent, hpast, hdeliveries⟩ := step_keep k call (by simp [hsender])
    obtain ⟨next, hnext, hafter⟩ := accept_planned h.ledger h.feed (hagrees sender hold) hplanned
      hserial
    rw [hreply] at hcurrent hdeliveries
    refine ⟨hinv, hfeed, hdescription, by simp [hstream, hsender], ⟨next, ?_, ?_⟩,
      by rw [hpast]; exact h.accepted⟩
    · rw [hcurrent, receive, consume_append, hv, Option.bind_some, hnext]
    · intro sender' hs
      rw [hstream, hsender] at hs
      rw [← Option.some.inj hs, hstream, hdeliveries]
      exact hafter.congr hsame
  · obtain ⟨hcurrent, hpast, hdeliveries⟩ := step_keep k call (by simp [hsender])
    rw [hreply] at hcurrent hdeliveries
    refine ⟨hinv, hfeed, hdescription, by simp [hstream, hsender], ⟨v, ?_, ?_⟩,
      by rw [hpast]; exact h.accepted⟩
    · rw [hcurrent]
      exact hv
    · intro sender' hs
      rw [hstream, hsender] at hs
      rw [← Option.some.inj hs, hstream, hdeliveries]
      exact ((hagrees sender hold).take hphase _ u).congr hsame
  · obtain ⟨hcurrent, hpast⟩ := step_end k call hsome hsender hended
    refine ⟨hinv, hfeed, hdescription, fun _ => hcurrent,
      ⟨Validator.start d, by rw [hcurrent]; rfl, by simp [hstream, hsender]⟩, ?_⟩
    rw [hpast]
    intro records hrecords
    rcases List.mem_append.mp hrecords with hold | hnew
    · exact h.accepted records hold
    · rw [List.mem_singleton.mp hnew, hv]
      rfl

theorem start_inv {d : Description} {config : List UInt8} {s : VideoStream}
    (h : VideoStream.new d config = .ok s) : Inv d (start s) := by
  obtain ⟨hfeed, hdescription, hsender⟩ := start_feed h
  exact
    { ledger := Ledger.start_inv h
      feed := hfeed
      description := hdescription
      unused := fun _ => rfl
      validated := ⟨_, rfl, by simp [start, Ledger.start, hsender]⟩
      accepted := by simp [start] }

theorem run_stream (k : Socket) (calls : List Call) :
    (run step k calls).1.ledger.stream = (run VideoStream.step k.ledger.stream calls).1 := by
  induction calls generalizing k with
  | nil => rfl
  | cons call calls ih => rw [run, run, ih, step_ledger, Ledger.step_stream]

/-- Whatever is published, refused, stopped, attached or lost: the records written to every
consumer are accepted, one after the other, by a validator started for the same description. -/
theorem records_accepted {d : Description} {config : List UInt8} {s : VideoStream}
    (h : VideoStream.new d config = .ok s) (calls : List Call) :
    let k := (run step (start s) calls).1
    k.ledger.stream = (run VideoStream.step s calls).1 ∧
      ∀ records ∈ k.past ++ [k.current], (consume (Validator.start d) records).isSome := by
  intro k
  have hinv : Inv d k := run_invariant step (I := Inv d) (start_inv h)
    (fun t call ht => ht.step call) calls
  refine ⟨run_stream _ calls, fun records hrecords => ?_⟩
  rcases List.mem_append.mp hrecords with hold | hnew
  · exact hinv.accepted records hold
  · obtain ⟨v, hv, -⟩ := hinv.validated
    rw [List.mem_singleton.mp hnew, hv]
    rfl

theorem records_accepted_sample :
    VideoStream.new VideoStream.sampleDescription VideoStream.sampleConfiguration =
        .ok VideoStream.sampleStream ∧
      ∀ records ∈ [(run step (start VideoStream.sampleStream) [.attach, .advance]).1.current],
        (consume (Validator.start VideoStream.sampleDescription) records).isSome :=
  ⟨by decide, fun records hrecords => (records_accepted (show VideoStream.new
    VideoStream.sampleDescription VideoStream.sampleConfiguration = .ok VideoStream.sampleStream by
      decide) [.attach, .advance]).2 records (List.mem_append_right _ hrecords)⟩

end Socket

end ProjectArgo.View
