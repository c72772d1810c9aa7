import Mathlib.Tactic.Linarith
import Mathlib.Tactic.Zify
import ProjectArgo.Library.Run
import ProjectArgo.Library.Window
import ProjectArgo.CarPlay.Audio

/-!
# Packets of an audio stream

The task of a stream opens each packet, refuses those it has played already, and hands
their samples to the pipeline. What the pipeline makes of a buffer is up to the environment.
-/
namespace ProjectArgo.CarPlay

open Library Library.Bytes Library.Run Library.Window

/-- 64-packet nonce replay window. -/
structure Replay where
  highest : Option UInt64 := none
  bits : BitVec 64 := 0#64
  deriving DecidableEq

def Replay.accept (replay : Replay) (counter : UInt64) : Replay × Except Error Unit :=
  match replay.highest with
  | none => (⟨some counter, 1#64⟩, .ok ())
  | some high =>
    if counter > high then
      let bits :=
        if counter - high ≥ 64 then 1#64
        else replay.bits <<< (counter - high).toNat ||| 1#64
      (⟨some counter, bits⟩, .ok ())
    else
      let behind := high - counter
      if behind ≥ 64 ∨ replay.bits &&& 1#64 <<< behind.toNat ≠ 0#64 then (replay, .error .sequence)
      else (⟨some high, replay.bits ||| 1#64 <<< behind.toNat⟩, .ok ())

structure Decoder where
  key : List UInt8
  replay : Replay := {}
  deriving DecidableEq

/-- The counter that ends a packet. -/
def packetCounter (bytes : List UInt8) : UInt64 :=
  UInt64.ofNat (ofBigEndian (bytes.drop (bytes.length - 8)).reverse)

def packetSample (bytes : List UInt8) : UInt32 := UInt32.ofNat (ofBigEndian (slice bytes 4 8))

section Crypto

variable (crypto : Crypto)

/-- The authenticated payload of a packet. -/
def openPacket (key bytes : List UInt8) : Except Error (List UInt8) :=
  if ¬ (36 ≤ bytes.length ∧ bytes.length ≤ 4096) ∨ bytes.head? ≠ some 0x80 then .error .malformed
  else
    let last := bytes.length - 8
    crypto.openBytes key ([0, 0, 0, 0] ++ bytes.drop last) (slice bytes 4 12) (slice bytes 12 last)

/-- Authentication precedes the window, so that forged counters cannot evict packets. -/
def Decoder.packet (decoder : Decoder) (bytes : List UInt8) :
    Decoder × Except Error (List UInt8 × UInt32) :=
  match openPacket crypto decoder.key bytes with
  | .error e => (decoder, .error e)
  | .ok payload =>
    let (replay, result) := decoder.replay.accept (packetCounter bytes)
    match result with
    | .error e => ({ decoder with replay }, .error e)
    | .ok () => ({ decoder with replay }, .ok (bytes.take 12 ++ payload, packetSample bytes))

end Crypto

/-! ## Playback -/

/-- Times are in nanoseconds. -/
structure Playback where
  format : AudioFormat
  payloadType : UInt8
  first : Option UInt32 := none
  started : Option ℕ := none
  scheduled : ℕ := 0
  deriving DecidableEq

/-- A buffer as it is pushed into the pipeline, with the sample it was received for. -/
structure AudioBuffer where
  sample : UInt32
  bytes : List UInt8
  pts : Option ℕ
  duration : Option ℕ
  deriving DecidableEq

/-- What the pipeline says: the bytes it still holds, its running time, and how it takes
the buffer. -/
structure PipelineOutcome where
  level : ℕ
  runningTime : Option ℕ
  pushed : Except Error Unit

namespace Playback

/-- The bytes of a buffer. -/
def frame (playback : Playback) (rtp : List UInt8) : Except Error (List UInt8) :=
  match playback.format.codec with
  | .signedPcm16 =>
    let payload := rtp.drop 12
    if payload = [] ∨ payload.length % (playback.format.channels * 2) ≠ 0 then .error .malformed
    else .ok payload
  | .aacLc =>
    let size := rtp.length - 12
    if size = 0 ∨ size > 8191 then .error .bounds
    else
      let framed := rtp.take 12 ++ [0, 16] ++ bigEndian 2 (size * 8) ++ rtp.drop 12
      .ok (framed.set 1 (0x80 ||| playback.payloadType))
  | .opus => .error .unsupported

def push (playback : Playback) (rtp : List UInt8) (sample : UInt32) (outcome : PipelineOutcome) :
    Playback × List AudioBuffer × Except Error Unit :=
  if outcome.level > 262144 then (playback, [], .error .bounds)
  else
    match playback.frame rtp with
    | .error e => (playback, [], .error e)
    | .ok bytes =>
      if playback.format.codec = .signedPcm16 then
        let initial := playback.first.getD sample
        let start := playback.started.getD (outcome.runningTime.getD 0)
        let frames := (sample - initial).toNat
        let timestamp := start + frames * 1000000000 / playback.format.sampleRate
        let duration := (rtp.length - 12) * 1000000000 /
          (playback.format.channels * 2 * playback.format.sampleRate)
        ({ playback with first := some initial, started := some start, scheduled := timestamp },
          [⟨sample, bytes, some timestamp, some duration⟩], outcome.pushed)
      else (playback, [⟨sample, bytes, none, none⟩], outcome.pushed)

end Playback

/-! ## The task of a stream -/

structure Reception where
  decoder : Decoder
  playback : Playback
  stream : Stream

/-- A datagram, or what else the task wakes up for. -/
inductive ReceptionEvent
  | data (fromPeer : Bool) (bytes : List UInt8) (outcome : PipelineOutcome)
    (device : Except Error Unit)
  | policy (device : ℕ → Except Error Unit)
  | sample (bytes : List UInt8) (sent : ℕ → Except Error Unit)
  | failed (e : Error)

namespace Reception

variable (crypto : Crypto)

def start (stream : Stream) : Reception :=
  ⟨⟨stream.key, {}⟩, { format := stream.format, payloadType := UInt8.ofNat stream.kind }, stream⟩

def wake (reception : Reception) (event : Stream.Wake) : Reception :=
  { reception with stream := (reception.stream.wake crypto event).1 }

/-- One turn of the task, with the buffers it pushed. -/
def step (reception : Reception) : ReceptionEvent → Reception × List AudioBuffer
  | .data fromPeer bytes outcome device =>
    if reception.stream.failed.isSome then (reception, [])
    else if ¬ fromPeer ∨ bytes.length > 4096 then (reception, [])
    else
      match reception.decoder.packet crypto bytes with
      | (decoder, .error _) => ({ reception with decoder }, [])
      | (decoder, .ok (rtp, sample)) =>
        let (playback, buffers, result) := reception.playback.push rtp sample outcome
        ({ reception with decoder, playback }.wake crypto (.packet sample result device), buffers)
  | .policy device => (reception.wake crypto (.policy device), [])
  | .sample bytes sent => (reception.wake crypto (.sample bytes sent), [])
  | .failed e => (reception.wake crypto (.failed e), [])

end Reception

/-! ## The window is exact -/

def values (accepted : List UInt64) : Set ℕ := {n | ∃ counter ∈ accepted, counter.toNat = n}

theorem values_concat (accepted : List UInt64) (counter : UInt64) :
    values (accepted ++ [counter]) = insert counter.toNat (values accepted) := by
  ext n
  constructor
  · rintro ⟨other, hother, rfl⟩
    rcases List.mem_append.mp hother with hmem | hlast
    · exact .inr ⟨other, hmem, rfl⟩
    · obtain rfl := List.mem_singleton.mp hlast
      exact .inl rfl
  · rintro (rfl | ⟨other, hmem, rfl⟩)
    · exact ⟨counter, List.mem_append_right _ (List.mem_singleton_self _), rfl⟩
    · exact ⟨other, List.mem_append_left _ hmem, rfl⟩

theorem mem_values {accepted : List UInt64} {counter : UInt64} :
    counter.toNat ∈ values accepted ↔ counter ∈ accepted := by
  constructor
  · rintro ⟨other, hmem, heq⟩
    obtain rfl := UInt64.toNat_inj.mp heq
    exact hmem
  · intro hmem
    exact ⟨counter, hmem, rfl⟩

/-- The counter was not accepted before, and is greater than the highest that was less 64. -/
def Fresh (accepted : List UInt64) (counter : UInt64) : Prop :=
  counter ∉ accepted ∧ ∀ other ∈ accepted, other.toNat < counter.toNat + 64

/-- The window knows the highest counter, and which of the last 64 were accepted. -/
def Replay.Remembers (replay : Replay) (accepted : List UInt64) : Prop :=
  match replay.highest with
  | none => accepted = []
  | some high => high ∈ accepted ∧ (∀ other ∈ accepted, other.toNat ≤ high.toNat) ∧
      Marks replay.bits high.toNat (values accepted)

theorem Replay.remembers_initial : ({} : Replay).Remembers [] := Eq.refl []

theorem Replay.remembers_accept {replay : Replay} {accepted : List UInt64}
    (h : replay.Remembers accepted) (counter : UInt64) :
    (Fresh accepted counter ∧ (replay.accept counter).2 = .ok () ∧
        (replay.accept counter).1.Remembers (accepted ++ [counter])) ∨
      (¬ Fresh accepted counter ∧ replay.accept counter = (replay, .error .sequence)) := by
  have hlast : counter ∈ accepted ++ [counter] :=
    List.mem_append_right _ (List.mem_singleton_self _)
  unfold Remembers at h
  unfold accept
  rcases hhigh : replay.highest with _ | high
  · rw [hhigh] at h
    subst h
    refine .inl ⟨⟨List.not_mem_nil, nofun⟩, rfl, hlast, ?_, ?_⟩
    · intro other hother
      rw [List.mem_singleton.mp hother]
    · have hvalues := values_concat [] counter
      rw [hvalues]
      exact marks_restart fun n hn => absurd hn (by rintro ⟨_, hmem, -⟩; cases hmem)
  · rw [hhigh] at h
    obtain ⟨hmem, hbound, hmarks⟩ := h
    have hvalues : ∀ n ∈ values accepted, n ≤ high.toNat := by
      rintro n ⟨other, hother, rfl⟩
      exact hbound other hother
    dsimp only
    by_cases hgt : counter > high
    · have hlt : high.toNat < counter.toNat := UInt64.lt_iff_toNat_lt.mp hgt
      have hsub : (counter - high).toNat = counter.toNat - high.toNat :=
        UInt64.toNat_sub_of_le _ _ (UInt64.le_of_lt hgt)
      rw [if_pos hgt]
      refine .inl ⟨⟨fun hold => absurd (hbound counter hold) (by omega), ?_⟩, rfl, hlast, ?_, ?_⟩
      · intro other hother
        have hle := hbound other hother
        omega
      · intro other hother
        rcases List.mem_append.mp hother with hother | hother
        · exact (hbound other hother).trans hlt.le
        · rw [List.mem_singleton.mp hother]
      · rw [values_concat]
        dsimp only
        by_cases hfar : counter - high ≥ 64
        · have hfar' : 64 ≤ (counter - high).toNat := UInt64.le_iff_toNat_le.mp hfar
          rw [if_pos hfar]
          refine marks_restart fun n hn => ?_
          have hle := hvalues n hn
          omega
        · rw [if_neg hfar]
          have hpositive : 0 < (counter - high).toNat := by omega
          have hadvance := hmarks.advance hvalues hpositive
          rwa [hsub, Nat.add_sub_cancel' hlt.le, ← hsub] at hadvance
    · have hle : counter.toNat ≤ high.toNat := by
        rw [gt_iff_lt, UInt64.lt_iff_toNat_lt] at hgt
        omega
      have hsub : (high - counter).toNat = high.toNat - counter.toNat :=
        UInt64.toNat_sub_of_le _ _ (UInt64.le_iff_toNat_le.mpr hle)
      have hbehind : counter.toNat + (high - counter).toNat = high.toNat := by omega
      rw [if_neg hgt]
      by_cases hfar : high - counter ≥ 64
      · have hfar' : 64 ≤ (high - counter).toNat := UInt64.le_iff_toNat_le.mp hfar
        rw [if_pos (.inl hfar)]
        refine .inr ⟨fun hfresh => ?_, rfl⟩
        have hhighest := hfresh.2 high hmem
        omega
      · have hnear : (high - counter).toNat < 64 := by
          rw [ge_iff_le, UInt64.le_iff_toNat_le] at hfar
          exact Nat.lt_of_not_le hfar
        have hbit : replay.bits &&& 1#64 <<< (high - counter).toNat ≠ 0#64 ↔ counter ∈ accepted :=
          (and_shiftLeft_ne_zero hnear).trans ((hmarks.mem_iff hnear hbehind).trans mem_values)
        by_cases hold : counter ∈ accepted
        · rw [if_pos (.inr (hbit.mpr hold))]
          exact .inr ⟨fun hfresh => hfresh.1 hold, rfl⟩
        · rw [if_neg (not_or.mpr ⟨hfar, fun hset => hold (hbit.mp hset)⟩)]
          refine .inl ⟨⟨hold, ?_⟩, rfl, List.mem_append_left _ hmem, ?_, ?_⟩
          · intro other hother
            have hother := hbound other hother
            omega
          · intro other hother
            rcases List.mem_append.mp hother with hother | hother
            · exact hbound other hother
            · rw [List.mem_singleton.mp hother]
              exact hle
          · rw [values_concat]
            exact hmarks.insert hbehind

namespace Decoder

variable (crypto : Crypto)

/-- The counters of the packets that were accepted, in order. -/
def acceptedCounters (history : List (List UInt8 × Except Error (List UInt8 × UInt32))) :
    List UInt64 :=
  history.filterMap fun entry =>
    match entry.2 with
    | .ok _ => some (packetCounter entry.1)
    | .error _ => none

theorem acceptedCounters_concat {bytes : List UInt8} {result : Except Error (List UInt8 × UInt32)}
    (history : List (List UInt8 × Except Error (List UInt8 × UInt32))) :
    acceptedCounters (history ++ [(bytes, result)]) = acceptedCounters history ++
      (match result with
        | .ok _ => [packetCounter bytes]
        | .error _ => []) := by
  cases result <;> simp [acceptedCounters]

/-- A packet is accepted, or the decoder stays as it was. -/
theorem packet_cases {decoder : Decoder} {accepted : List UInt64}
    (h : decoder.replay.Remembers accepted) (bytes : List UInt8) :
    (∃ payload, openPacket crypto decoder.key bytes = .ok payload ∧
        Fresh accepted (packetCounter bytes) ∧
        (decoder.packet crypto bytes).2 = .ok (bytes.take 12 ++ payload, packetSample bytes) ∧
        (decoder.packet crypto bytes).1.key = decoder.key ∧
        (decoder.packet crypto bytes).1.replay.Remembers (accepted ++ [packetCounter bytes])) ∨
      ∃ e, decoder.packet crypto bytes = (decoder, .error e) ∧
        ¬ ((∃ payload, openPacket crypto decoder.key bytes = .ok payload) ∧
          Fresh accepted (packetCounter bytes)) := by
  unfold packet
  rcases hopen : openPacket crypto decoder.key bytes with e | payload
  · refine .inr ⟨e, rfl, ?_⟩
    rintro ⟨⟨payload, hpayload⟩, -⟩
    cases hpayload
  · rcases Replay.remembers_accept h (packetCounter bytes) with
      ⟨hfresh, hresult, hremembers⟩ | ⟨hstale, hresult⟩
    · refine .inl ⟨payload, rfl, hfresh, ?_, ?_, ?_⟩
      · simp only [hresult]
      · simp only [hresult]
      · simp only [hresult]
        exact hremembers
    · refine .inr ⟨.sequence, ?_, fun hboth => hstale hboth.2⟩
      simp only [hresult]

theorem remembers_run (key : List UInt8) (packets : List (List UInt8)) :
    (run (packet crypto) ⟨key, {}⟩ packets).1.key = key ∧
      (run (packet crypto) ⟨key, {}⟩ packets).1.replay.Remembers
        (acceptedCounters (run (packet crypto) ⟨key, {}⟩ packets).2) := by
  refine run_history (packet crypto) (I := fun decoder history => decoder.key = key ∧
    decoder.replay.Remembers (acceptedCounters history)) ⟨rfl, Replay.remembers_initial⟩ ?_ packets
  rintro decoder history bytes ⟨hkey, h⟩
  rw [acceptedCounters_concat]
  rcases packet_cases crypto h bytes with
    ⟨payload, -, -, hresult, hkept, hremembers⟩ | ⟨e, hresult, -⟩
  · rw [hresult]
    exact ⟨hkept.trans hkey, hremembers⟩
  · rw [hresult]
    exact ⟨hkey, (List.append_nil _).symm ▸ h⟩

/-- After any packets, the next one is accepted exactly if it authenticates, its counter was not
accepted before and is greater than the highest accepted one less 64. One that is refused
leaves the window as it was. -/
theorem window_exact (key : List UInt8) (packets : List (List UInt8)) (bytes : List UInt8) :
    let reached := run (packet crypto) ⟨key, {}⟩ packets
    let accepted := acceptedCounters reached.2
    ((∃ received, (reached.1.packet crypto bytes).2 = .ok received) ↔
      (∃ payload, openPacket crypto key bytes = .ok payload) ∧
        packetCounter bytes ∉ accepted ∧
        ∀ other ∈ accepted, other.toNat < (packetCounter bytes).toNat + 64) ∧
      ∀ e, (reached.1.packet crypto bytes).2 = .error e →
        (reached.1.packet crypto bytes).1 = reached.1 := by
  intro reached accepted
  obtain ⟨hkey, hremembers⟩ := remembers_run crypto key packets
  rcases packet_cases crypto hremembers bytes with
    ⟨payload, hopen, hfresh, hresult, -, -⟩ | ⟨e, hresult, hrefused⟩
  · rw [hkey] at hopen
    refine ⟨iff_of_true ⟨_, hresult⟩ ⟨⟨payload, hopen⟩, hfresh⟩, fun e herror => ?_⟩
    rw [hresult] at herror
    cases herror
  · rw [hkey] at hrefused
    refine ⟨iff_of_false ?_ hrefused, fun _ _ => congrArg Prod.fst hresult⟩
    rintro ⟨received, haccepted⟩
    have herror := congrArg Prod.snd hresult
    rw [haccepted] at herror
    cases herror

/-- Tags are all zero. -/
def bareCrypto : Crypto where
  modulus := 0
  sha512 := .ok
  hmacSha512 _ _ := .error .rejected
  encryptAead _ _ _ plain := .ok (plain, List.replicate 16 0)
  decryptAead _ _ _ bytes tag :=
    if tag = List.replicate 16 0 then .ok bytes else .error .rejected
  x25519Public := .ok
  x25519Derive _ := .ok
  ed25519Public := .ok
  ed25519Sign _ := .ok
  ed25519Verify _ _ _ := .ok true

def datagram (counter sample : ℕ) : List UInt8 :=
  [0x80, 100, 0, 0] ++ bigEndian 4 sample ++ [0, 0, 0, 0] ++ [0, 1, 0, 2] ++
    List.replicate 16 0 ++ littleEndian 8 counter

/-- One behind the highest is accepted, and not again. -/
theorem window_refuses_again :
    let reached := (run (packet bareCrypto) ⟨[9], {}⟩ [datagram 3 320, datagram 2 0]).1
    (reached.packet bareCrypto (datagram 2 0)).1 = reached := by
  intro reached
  exact (window_exact bareCrypto [9] [datagram 3 320, datagram 2 0] (datagram 2 0)).2 .sequence rfl

end Decoder

/-! ## Presentation times -/

/-- How far one sample lies after another, the short way round. -/
def sampleDifference (one other : UInt32) : ℤ := (other - one).toBitVec.toInt

/-- Times that are as far apart as the samples, to rounding, and in their order. -/
structure Follows (rate : ℕ) (one other : UInt32) (time later : ℕ) : Prop where
  apart : |((later : ℤ) - time) * rate - sampleDifference one other * 1000000000| < rate
  before : sampleDifference one other < 0 → later ≤ time
  after : 0 < sampleDifference one other → time ≤ later

/-- The sample lies after `earlier`, and not by more than the steps. -/
def Reached (first earlier : UInt32) (steps : ℕ) : Prop :=
  0 < (first - earlier).toNat ∧ (first - earlier).toNat ≤ steps

instance decidableReached (first earlier : UInt32) (steps : ℕ) :
    Decidable (Reached first earlier steps) :=
  inferInstanceAs (Decidable (_ ∧ _))

/-- The short way from the earlier to the later of two samples does not reach the first one. -/
def Aside (first one other : UInt32) : Prop :=
  if 0 ≤ sampleDifference one other then
    ¬ Reached first one (sampleDifference one other).toNat
  else ¬ Reached first other (-sampleDifference one other).toNat

instance decidableAside (first one other : UInt32) : Decidable (Aside first one other) :=
  inferInstanceAs (Decidable (if 0 ≤ sampleDifference one other then ¬ Reached _ _ _
    else ¬ Reached _ _ _))

/-- The distances from the first sample differ by the difference of the samples, or by that
and a whole round. -/
theorem distances (first one other : UInt32) :
    ((other - first).toNat : ℤ) - (one - first).toNat = sampleDifference one other ∧
        Aside first one other ∨
      (((other - first).toNat : ℤ) - (one - first).toNat = sampleDifference one other + 2 ^ 32 ∨
        ((other - first).toNat : ℤ) - (one - first).toNat = sampleDifference one other - 2 ^ 32) ∧
        ¬ Aside first one other := by
  have hfirst := first.toNat_lt
  have hone := one.toNat_lt
  have hother := other.toNat_lt
  have hdifference : sampleDifference one other =
      if 2 * (other - one).toNat < 2 ^ 32 then ((other - one).toNat : ℤ)
      else (other - one).toNat - 2 ^ 32 := BitVec.toInt_eq_toNat_cond _
  unfold Aside Reached
  rw [hdifference]
  simp only [UInt32.toNat_sub]
  split_ifs <;> omega

/-- Rounded down times of two distances from the start. -/
theorem times_apart {rate : ℕ} (hrate : 0 < rate) (start frames more : ℕ) :
    |(((start + more * 1000000000 / rate : ℕ) : ℤ) - (start + frames * 1000000000 / rate : ℕ)) *
        rate - ((more : ℤ) - frames) * 1000000000| < rate := by
  have hframes := Nat.div_add_mod (frames * 1000000000) rate
  have hmore := Nat.div_add_mod (more * 1000000000) rate
  have hlt := Nat.mod_lt (frames * 1000000000) hrate
  have hless := Nat.mod_lt (more * 1000000000) hrate
  have hnonneg := Nat.zero_le (frames * 1000000000 % rate)
  have hpositive := Nat.zero_le (more * 1000000000 % rate)
  zify at hframes hmore hlt hless hnonneg hpositive ⊢
  rw [abs_lt]
  constructor <;> linarith

/-- The times follow the samples exactly if the first packet is not on the way. -/
theorem follows_iff {rate : ℕ} (hrate : 0 < rate) (hbound : rate < 2 ^ 32) (start : ℕ)
    (first one other : UInt32) :
    Follows rate one other (start + (one - first).toNat * 1000000000 / rate)
      (start + (other - first).toNat * 1000000000 / rate) ↔ Aside first one other := by
  have hapart := times_apart hrate start (one - first).toNat (other - first).toNat
  rcases distances first one other with ⟨hdistance, haside⟩ | ⟨hround, hpassed⟩
  · refine iff_of_true ⟨?_, ?_, ?_⟩ haside
    · rwa [hdistance] at hapart
    · intro hbefore
      have hle : (other - first).toNat ≤ (one - first).toNat := by omega
      exact Nat.add_le_add_left (Nat.div_le_div_right (Nat.mul_le_mul_right _ hle)) _
    · intro hafter
      have hle : (one - first).toNat ≤ (other - first).toNat := by omega
      exact Nat.add_le_add_left (Nat.div_le_div_right (Nat.mul_le_mul_right _ hle)) _
  · refine iff_of_false (fun hfollows => ?_) hpassed
    have hclaimed := hfollows.apart
    rw [abs_lt] at hapart hclaimed
    rcases hround with hround | hround
    · rw [hround] at hapart
      linarith
    · rw [hround] at hapart
      linarith

namespace Reception

variable (crypto : Crypto)

/-- All times are counted from the sample of the first buffer. -/
def Timed (playback : Playback) (buffers : List AudioBuffer) : Prop :=
  playback.format.codec = .signedPcm16 →
    (buffers = [] ∧ playback.first = none ∧ playback.started = none) ∨
      ∃ first start, buffers.head?.map (·.sample) = some first ∧ playback.first = some first ∧
        playback.started = some start ∧ ∀ buffer ∈ buffers, buffer.pts =
          some (start + (buffer.sample - first).toNat * 1000000000 / playback.format.sampleRate)

theorem timed_start (stream : Stream) : Timed (start stream).playback [] :=
  fun _ => .inl ⟨rfl, rfl, rfl⟩

theorem timed_push {playback : Playback} {buffers : List AudioBuffer} (h : Timed playback buffers)
    (rtp : List UInt8) (sample : UInt32) (outcome : PipelineOutcome) :
    (playback.push rtp sample outcome).1.format = playback.format ∧
      Timed (playback.push rtp sample outcome).1
        (buffers ++ (playback.push rtp sample outcome).2.1) := by
  unfold Playback.push
  split_ifs with hlevel hcodec
  · exact ⟨rfl, by rwa [List.append_nil]⟩
  · cases playback.frame rtp with
    | error e => exact ⟨rfl, by rwa [List.append_nil]⟩
    | ok bytes =>
      refine ⟨rfl, fun _ => .inr ?_⟩
      rcases h hcodec with ⟨rfl, hfirst, hstarted⟩ | ⟨first, start, hhead, hfirst, hstarted, hpts⟩
      · refine ⟨sample, outcome.runningTime.getD 0, rfl, ?_, ?_, ?_⟩
        · simp only [hfirst, Option.getD_none]
        · simp only [hstarted, Option.getD_none]
        · intro buffer hbuffer
          rw [List.mem_singleton.mp hbuffer]
          simp only [hfirst, hstarted, Option.getD_none]
      · refine ⟨first, start, ?_, ?_, ?_, ?_⟩
        · cases buffers with
          | nil => cases hhead
          | cons buffer buffers => exact hhead
        · simp only [hfirst, Option.getD_some]
        · simp only [hstarted, Option.getD_some]
        · intro buffer hbuffer
          rcases List.mem_append.mp hbuffer with hold | hnew
          · exact hpts buffer hold
          · rw [List.mem_singleton.mp hnew]
            simp only [hfirst, hstarted, Option.getD_some]
  · cases playback.frame rtp with
    | error e => exact ⟨rfl, by rwa [List.append_nil]⟩
    | ok bytes => exact ⟨rfl, fun hpcm => absurd hpcm hcodec⟩

theorem timed_step {reception : Reception} {buffers : List AudioBuffer}
    (h : Timed reception.playback buffers) (event : ReceptionEvent) :
    (step crypto reception event).1.playback.format = reception.playback.format ∧
      Timed (step crypto reception event).1.playback
        (buffers ++ (step crypto reception event).2) := by
  have hsame : reception.playback.format = reception.playback.format ∧
      Timed reception.playback (buffers ++ []) := ⟨rfl, by rwa [List.append_nil]⟩
  cases event with
  | data fromPeer bytes outcome device =>
    unfold step
    dsimp only
    split_ifs
    · exact hsame
    · exact hsame
    · rcases hpacket : reception.decoder.packet crypto bytes with ⟨decoder, e | ⟨rtp, sample⟩⟩
      · exact hsame
      · exact timed_push h rtp sample outcome
  | policy device => exact hsame
  | sample bytes sent => exact hsame
  | failed e => exact hsame

theorem timed_run (stream : Stream) (events : List ReceptionEvent) :
    (run (step crypto) (start stream) events).1.playback.format = stream.format ∧
      Timed (run (step crypto) (start stream) events).1.playback
        ((run (step crypto) (start stream) events).2.flatMap (·.2)) := by
  refine run_history (step crypto) (I := fun reception history =>
    reception.playback.format = stream.format ∧ Timed reception.playback (history.flatMap (·.2)))
    ⟨rfl, timed_start stream⟩ ?_ events
  rintro reception history event ⟨hformat, h⟩
  rw [List.flatMap_append, List.flatMap_singleton]
  obtain ⟨hkept, htimed⟩ := timed_step crypto h event
  exact ⟨hkept.trans hformat, htimed⟩

theorem rate_of_selected {bit : ℕ} {format : AudioFormat}
    (h : AudioFormat.selected bit = .ok format) :
    0 < format.sampleRate ∧ format.sampleRate < 2 ^ 32 := by
  unfold AudioFormat.selected at h
  split at h
  · cases h
  · split at h
    · dsimp only at h
      split at h
      · cases h
      · rename_i rate hrate
        cases h
        have hmem := List.mem_of_getElem? hrate
        simp only [List.mem_cons, List.not_mem_nil, or_false] at hmem
        rcases hmem with rfl | rfl | rfl | rfl | rfl <;> exact ⟨by norm_num, by norm_num⟩
    · split at h <;> cases h <;> decide

/-- Of any two packets that were accepted, the times follow the samples exactly if the first
packet's sample is not on the short way from the earlier to the later one. -/
theorem times_follow_iff (stream : Stream) {bit : ℕ}
    (hformat : AudioFormat.selected bit = .ok stream.format)
    (hcodec : stream.format.codec = .signedPcm16) (events : List ReceptionEvent) :
    let buffers := (run (step crypto) (start stream) events).2.flatMap (·.2)
    ∀ first ∈ buffers.head?, ∀ one ∈ buffers, ∀ other ∈ buffers,
      ∃ time later, one.pts = some time ∧ other.pts = some later ∧
        (Follows stream.format.sampleRate one.sample other.sample time later ↔
          Aside first.sample one.sample other.sample) := by
  intro buffers first hfirst one hone other hother
  obtain ⟨hkept, htimed⟩ := timed_run crypto stream events
  obtain ⟨hpositive, hbound⟩ := rate_of_selected hformat
  rcases htimed (by rw [hkept, hcodec]) with ⟨hnone, -, -⟩ | ⟨sample, start, hhead, -, -, hpts⟩
  · change one ∈ List.flatMap _ _ at hone
    rw [hnone] at hone
    cases hone
  · rw [hkept] at hpts
    rw [Option.mem_def.mp hfirst] at hhead
    obtain rfl : first.sample = sample := Option.some_inj.mp hhead
    exact ⟨_, _, hpts one hone, hpts other hother, follows_iff hpositive hbound start _ _ _⟩

/-- A stream of 16000 samples a second. -/
def speech : Stream where
  dataPort := 6000
  controlPort := 6001
  connection := 5
  kind := 100
  format := ⟨.signedPcm16, 16000, 1⟩
  category := "default"
  latencyMs := 20
  key := [9]
  anchor := none
  policy := ⟨1, false, none⟩
  microphone := none
  failed := none

def received (counter sample : ℕ) : ReceptionEvent :=
  .data true (Decoder.datagram counter sample) ⟨0, some 1000, .ok ()⟩ (.ok ())

theorem times_of_reordered : Follows 16000 640 320 40001000 20001000 := by
  obtain ⟨time, later, htime, hlater, hfollows⟩ :=
    times_follow_iff Decoder.bareCrypto speech (rfl : AudioFormat.selected 16 = _) rfl
      [received 1 0, received 3 640, received 2 320]
      ⟨0, [0, 1, 0, 2], some 1000, some 125000⟩ rfl
      ⟨640, [0, 1, 0, 2], some 40001000, some 125000⟩ (by decide +kernel)
      ⟨320, [0, 1, 0, 2], some 20001000, some 125000⟩ (by decide +kernel)
  cases htime
  cases hlater
  exact hfollows.mpr (by decide +kernel)

/-- The packet before the first one is played three days later. -/
theorem time_of_earlier :
    (run (step Decoder.bareCrypto) (start speech) [received 3 320, received 2 0]).2.flatMap
        (·.2) =
      [⟨320, [0, 1, 0, 2], some 1000, some 125000⟩,
        ⟨0, [0, 1, 0, 2], some 268435436001000, some 125000⟩] ∧
    sampleDifference 320 0 = -320 ∧
    ¬ Follows 16000 320 0 1000 268435436001000 := by
  refine ⟨by decide +kernel, by decide +kernel, fun hfollows => ?_⟩
  exact absurd (hfollows.before (by decide +kernel)) (by norm_num)

end Reception

end ProjectArgo.CarPlay
