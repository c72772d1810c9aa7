import ProjectArgo.Library.Bytes
import ProjectArgo.Library.Filling
import ProjectArgo.Library.Framing

/-!
# Version negotiation

The phone answers the version request with one plain frame, and what follows it belongs to the
encrypted session. So the answer is read in two steps: the header, and then as many octets as it
announces.
-/
namespace ProjectArgo.Projection.VersionNegotiation

open Library.Bytes Library.Filling

def FRAME_HEADER_BYTES : ℕ := 4
def MAX_FRAME_PAYLOAD_BYTES : ℕ := 32 * 1024
def MAX_BUFFERED_BYTES : ℕ := 64 * 1024

def CONTROL_CHANNEL : UInt8 := 0
def FLAGS_PLAINTEXT_SINGLE_FRAME : UInt8 := 3
def VERSION_RESPONSE_ID : ℕ := 2
def VERSION_STATUS_MATCH : ℕ := 0

structure Frame where
  channel : UInt8
  flags : UInt8
  payload : List UInt8
  deriving DecidableEq

inductive FrameError
  | unsupportedFlags (flags : UInt8)
  | invalidLength (length : ℕ)
  | oversizedBuffer
  | oversizedPayload (length : ℕ)
  | disconnectMidFrame (offset : ℕ)
  deriving DecidableEq

inductive VersionNegotiationError
  | io
  | frame (error : FrameError)
  | disconnected
  | unexpectedFrame
  | malformedResponse
  | versionMismatch (major minor : ℕ)
  | rejectedStatus (status : ℕ)
  deriving DecidableEq

structure VersionResponse where
  major : ℕ
  minor : ℕ
  deriving DecidableEq

/-! ## Frames -/

/-- One turn of the loop of `push`. -/
def nextFrame : List UInt8 → Except FrameError (Option (Frame × List UInt8))
  | channel :: flags :: high :: low :: rest =>
    let length := ofBigEndian [high, low]
    if flags ≠ FLAGS_PLAINTEXT_SINGLE_FRAME then .error (.unsupportedFlags flags)
    else if length < 2 then .error (.invalidLength length)
    else if MAX_FRAME_PAYLOAD_BYTES < length then .error (.oversizedPayload length)
    else if rest.length < length then .ok none
    else .ok (some (⟨channel, flags, rest.take length⟩, rest.drop length))
  | _ => .ok none

def FrameDecoder : Library.Framing.Parser UInt8 Frame FrameError where
  next := nextFrame
  shorter := by
    intro buffer value rest h
    unfold nextFrame at h
    split at h
    · dsimp only at h
      split_ifs at h
      · cases h
      · simp only [Except.ok.injEq, Option.some.injEq, Prod.mk.injEq] at h
        rw [← h.2, List.length_drop, List.length_cons, List.length_cons, List.length_cons,
          List.length_cons]
        omega
    · cases h

def push (buffered bytes : List UInt8) : Except FrameError (List Frame × List UInt8) :=
  if MAX_BUFFERED_BYTES < buffered.length + bytes.length then .error .oversizedBuffer
  else FrameDecoder.drain (buffered ++ bytes)

def parse_version_response (frame : Frame) : Except VersionNegotiationError VersionResponse :=
  if frame.channel ≠ CONTROL_CHANNEL ∨ frame.flags ≠ FLAGS_PLAINTEXT_SINGLE_FRAME then
    .error .unexpectedFrame
  else
    match frame.payload with
    | a :: b :: c :: d :: e :: f :: g :: h :: _ =>
      let major := ofBigEndian [c, d]
      let minor := ofBigEndian [e, f]
      let status := ofBigEndian [g, h]
      if ofBigEndian [a, b] ≠ VERSION_RESPONSE_ID then .error .unexpectedFrame
      else if major = 0 then .error .malformedResponse
      else if status = 0xffff then .error (.versionMismatch major minor)
      else if status ≠ VERSION_STATUS_MATCH then .error (.rejectedStatus status)
      else .ok ⟨major, minor⟩
    | _ => .error .malformedResponse

/-! ## The negotiation -/

/-- What the transport does when the phone's octets are used up. -/
inductive Ending
  | closed
  | failed
  | silent
  deriving DecidableEq

/-- The code would stop with an index out of bounds where it is `panicked`. -/
inductive Verdict
  | ok (response : VersionResponse)
  | error (error : VersionNegotiationError)
  | waiting
  | panicked
  deriving DecidableEq

def verdictOf : Except VersionNegotiationError VersionResponse → Verdict
  | .ok response => .ok response
  | .error error => .error error

/-- No more octets come after `offset`. -/
def stopped (ending : Ending) (offset : ℕ) : Verdict :=
  match ending with
  | .silent => .waiting
  | .failed => .error (if offset = 0 then .io else .frame (.disconnectMidFrame offset))
  | .closed => .error (if offset = 0 then .disconnected else .frame (.disconnectMidFrame offset))

def blank (size : ℕ) : Buffer UInt8 := ⟨List.replicate size 0, 0, Nat.zero_le _⟩

/-- `resize`, to a larger size. -/
def resize (wire : Buffer UInt8) (more : ℕ) : Buffer UInt8 where
  cells := wire.cells ++ List.replicate more 0
  used := wire.used
  fits := by
    have hfits := wire.fits
    rw [List.length_append]
    omega

/-- The frame is complete. -/
def conclude (wire : List UInt8) : Verdict :=
  match push [] wire with
  | .error error => .error (.frame error)
  | .ok ([], _) => .panicked
  | .ok (frame :: _, _) => verdictOf (parse_version_response frame)

/-- The verdict, and the octets that stay in the transport. `request` tells what became of the
request that is written first. -/
def negotiate_version (request : Except VersionNegotiationError Unit) (ending : Ending)
    (splits : ℕ → ℕ) (stream : List UInt8) : Verdict × List UInt8 :=
  match request with
  | .error error => (.error error, stream)
  | .ok () =>
    let (header, rest, turn) := fillFrom splits (blank FRAME_HEADER_BYTES) stream 0
    if header.used < header.cells.length then (stopped ending header.used, rest)
    else
      match header.cells with
      | _ :: _ :: high :: low :: _ =>
        let length := ofBigEndian [high, low]
        if ¬(2 ≤ length ∧ length ≤ MAX_FRAME_PAYLOAD_BYTES) then
          (.error (.frame (.invalidLength length)), rest)
        else
          let (wire, rest, _) := fillFrom splits (resize header length) rest turn
          if wire.used < wire.cells.length then (stopped ending wire.used, rest)
          else (conclude wire.cells, rest)
      | _ => (.panicked, rest)

/-! ## What it makes of a stream -/

/-- The verdict on a stream, whatever the reads: the header, if it is there, and then the
payload. -/
def judge (ending : Ending) : List UInt8 → Verdict × List UInt8
  | channel :: flags :: high :: low :: rest =>
    let length := ofBigEndian [high, low]
    if ¬(2 ≤ length ∧ length ≤ MAX_FRAME_PAYLOAD_BYTES) then
      (.error (.frame (.invalidLength length)), rest)
    else if rest.length < length then (stopped ending (4 + rest.length), [])
    else
      (if flags ≠ FLAGS_PLAINTEXT_SINGLE_FRAME then .error (.frame (.unsupportedFlags flags))
        else verdictOf (parse_version_response ⟨channel, flags, rest.take length⟩),
        rest.drop length)
  | short => (stopped ending short.length, [])

/-- A complete frame is taken off as it is, or rejected for its flags. -/
theorem conclude_eq {channel flags high low : UInt8} {payload : List UInt8}
    (hlength : payload.length = ofBigEndian [high, low])
    (hmin : 2 ≤ payload.length) (hmax : payload.length ≤ MAX_FRAME_PAYLOAD_BYTES) :
    conclude (channel :: flags :: high :: low :: payload) =
      if flags ≠ FLAGS_PLAINTEXT_SINGLE_FRAME then .error (.frame (.unsupportedFlags flags))
      else verdictOf (parse_version_response ⟨channel, flags, payload⟩) := by
  have hroom : ¬MAX_BUFFERED_BYTES <
      ([] : List UInt8).length + (channel :: flags :: high :: low :: payload).length := by
    simp only [MAX_FRAME_PAYLOAD_BYTES] at hmax
    simp only [MAX_BUFFERED_BYTES, List.length_nil, List.length_cons]
    omega
  rw [conclude, push, if_neg hroom, List.nil_append]
  by_cases hflags : flags = FLAGS_PLAINTEXT_SINGLE_FRAME
  · have hnext : nextFrame (channel :: flags :: high :: low :: payload) =
        .ok (some (⟨channel, flags, payload⟩, [])) := by
      simp only [nextFrame, ← hlength]
      rw [if_neg (by simpa using hflags), if_neg (by omega), if_neg (by omega), if_neg (by omega),
        List.take_length, List.drop_length]
    have hdrain : FrameDecoder.drain (channel :: flags :: high :: low :: payload) =
        .ok ([⟨channel, flags, payload⟩], []) :=
      Library.Framing.Parser.drain_some hnext (Library.Framing.Parser.drain_none rfl)
    rw [hdrain, if_neg (by simpa using hflags)]
  · have hnext : nextFrame (channel :: flags :: high :: low :: payload) =
        .error (.unsupportedFlags flags) := by
      simp only [nextFrame]
      rw [if_pos hflags]
    have hdrain : FrameDecoder.drain (channel :: flags :: high :: low :: payload) =
        .error (.unsupportedFlags flags) := by
      simp only [Library.Framing.Parser.drain, Library.Framing.Parser.drainFor, FrameDecoder, hnext]
    rw [hdrain, if_pos hflags]

/-- The header is there as far as the stream reaches. -/
theorem header_spec (splits : ℕ → ℕ) (stream : List UInt8) :
    (fillFrom splits (blank FRAME_HEADER_BYTES) stream 0).1.used = min 4 stream.length ∧
    (fillFrom splits (blank FRAME_HEADER_BYTES) stream 0).1.cells.length = 4 ∧
    (fillFrom splits (blank FRAME_HEADER_BYTES) stream 0).1.filled = stream.take 4 ∧
    (fillFrom splits (blank FRAME_HEADER_BYTES) stream 0).2.1 = stream.drop 4 := by
  obtain ⟨hfilled, hrest, hsize⟩ := fillFrom_spec splits (blank FRAME_HEADER_BYTES) stream 0
  have hfour : (blank FRAME_HEADER_BYTES).cells.length = 4 := rfl
  have hnone : (blank FRAME_HEADER_BYTES).filled = [] := rfl
  rw [hfour, hnone, List.nil_append] at hfilled hrest
  refine ⟨?_, hsize, hfilled, hrest⟩
  rw [← Buffer.length_filled, hfilled, List.length_take]

/-- The reads make no difference. -/
theorem negotiate_version_eq (ending : Ending) (splits : ℕ → ℕ) (stream : List UInt8) :
    negotiate_version (.ok ()) ending splits stream = judge ending stream := by
  obtain ⟨hused, hsize, hfilled, hrest⟩ := header_spec splits stream
  rcases hheader : fillFrom splits (blank FRAME_HEADER_BYTES) stream 0 with ⟨header, rest, turn⟩
  rw [hheader] at hused hsize hfilled hrest
  dsimp only at hused hsize hfilled hrest
  simp only [negotiate_version, hheader]
  match stream with
  | [] | [_] | [_, _] | [_, _, _] =>
    rw [if_pos (by simp [hused, hsize]), hrest, hused]
    rfl
  | channel :: flags :: high :: low :: payload =>
    have hfull : header.used = header.cells.length := by
      rw [hused, hsize]
      simp
    have hcells : header.cells = [channel, flags, high, low] := by
      rw [← Buffer.filled_of_full header hfull, hfilled]
      rfl
    rw [if_neg (by omega), hcells]
    simp only [judge]
    have hrest' : rest = payload := hrest
    subst hrest'
    split
    · rfl
    rename_i hlength
    push Not at hlength
    have hwire := fillFrom_spec splits (resize header (ofBigEndian [high, low])) rest turn
    rcases hfill : fillFrom splits (resize header (ofBigEndian [high, low])) rest turn with
      ⟨wire, left, last⟩
    rw [hfill] at hwire
    obtain ⟨hwired, hleft, hwide⟩ := hwire
    dsimp only at hwired hleft hwide ⊢
    have hstart : (resize header (ofBigEndian [high, low])).filled =
        [channel, flags, high, low] := by
      rw [Buffer.filled, resize]
      simp only [hcells, hfull]
      rfl
    have htotal : (resize header (ofBigEndian [high, low])).cells.length =
        4 + ofBigEndian [high, low] := by
      simp [resize, hcells]
      omega
    rw [hstart, htotal] at hwired hleft
    rw [htotal] at hwide
    have hwired' : wire.filled =
        channel :: flags :: high :: low :: rest.take (ofBigEndian [high, low]) := by
      rw [hwired]
      show ([channel, flags, high, low] ++ rest).take ([channel, flags, high, low].length + _) = _
      rw [List.take_length_add_append]
      rfl
    have hleft' : left = rest.drop (ofBigEndian [high, low]) := by
      rw [hleft]
      show ([channel, flags, high, low] ++ rest).drop ([channel, flags, high, low].length + _) = _
      rw [List.drop_length_add_append]
    have hcount : wire.used = 4 + min (ofBigEndian [high, low]) rest.length := by
      rw [← Buffer.length_filled, hwired']
      simp
      omega
    by_cases hshort : rest.length < ofBigEndian [high, low]
    · rw [if_pos (by omega), if_pos hshort, hleft', List.drop_of_length_le (by omega), hcount,
        Nat.min_eq_right (by omega)]
    · have hwhole : wire.cells =
          channel :: flags :: high :: low :: rest.take (ofBigEndian [high, low]) := by
        rw [← Buffer.filled_of_full wire (by omega), hwired']
      have htaken : (rest.take (ofBigEndian [high, low])).length = ofBigEndian [high, low] := by
        rw [List.length_take]
        omega
      rw [if_neg (by omega), if_neg hshort, hwhole, hleft',
        conclude_eq htaken (by omega) (by omega)]

/-- The stream starts with the answer: a plain single frame on the control channel, of an
admissible length, with a version response that has a major version and matches. -/
def StartsWith (stream : List UInt8) (response : VersionResponse) : Prop :=
  ∃ payload rest more, stream =
      [CONTROL_CHANNEL, FLAGS_PLAINTEXT_SINGLE_FRAME] ++ bigEndian 2 payload.length ++
        payload ++ rest ∧
    payload = bigEndian 2 VERSION_RESPONSE_ID ++ bigEndian 2 response.major ++
      bigEndian 2 response.minor ++ bigEndian 2 VERSION_STATUS_MATCH ++ more ∧
    payload.length ≤ MAX_FRAME_PAYLOAD_BYTES ∧
    0 < response.major ∧ response.major < 2 ^ 16 ∧ response.minor < 2 ^ 16

/-- The first frame of a stream, as far as it is there. -/
def firstFrame (stream : List UInt8) : List UInt8 :=
  stream.take (FRAME_HEADER_BYTES + ofBigEndian (slice stream 2 4))

theorem parse_version_response_eq_ok {payload : List UInt8} {channel flags : UInt8}
    {response : VersionResponse} :
    parse_version_response ⟨channel, flags, payload⟩ = .ok response ↔
      channel = CONTROL_CHANNEL ∧ flags = FLAGS_PLAINTEXT_SINGLE_FRAME ∧
      (∃ more, payload = bigEndian 2 VERSION_RESPONSE_ID ++ bigEndian 2 response.major ++
        bigEndian 2 response.minor ++ bigEndian 2 VERSION_STATUS_MATCH ++ more) ∧
      0 < response.major ∧ response.major < 2 ^ 16 ∧ response.minor < 2 ^ 16 := by
  have hpair : ∀ (a b : UInt8) (n : ℕ), n < 2 ^ 16 → (ofBigEndian [a, b] = n ↔
      bigEndian 2 n = [a, b]) := by
    intro a b n hn
    constructor
    · rintro rfl
      simpa using bigEndian_ofBigEndian [a, b] 0
    · intro h
      rw [← h]
      exact ofBigEndian_bigEndian hn
  have hless : ∀ a b : UInt8, ofBigEndian [a, b] < 2 ^ 16 := fun a b =>
    (ofBigEndian_lt [a, b]).trans_eq (by norm_num)
  unfold parse_version_response
  split
  · rename_i hframe
    simp only [reduceCtorEq, false_iff]
    rintro ⟨rfl, rfl, -⟩
    simp at hframe
  · rename_i hframe
    push Not at hframe
    obtain ⟨rfl, rfl⟩ := hframe
    simp only [true_and]
    split
    · rename_i a b c d e f g h more
      have hid := hpair a b VERSION_RESPONSE_ID (by decide)
      have hstatus := hpair g h VERSION_STATUS_MATCH (by decide)
      constructor
      · intro hok
        split_ifs at hok with h1 h2 h3 h4
        simp only [Except.ok.injEq] at hok
        subst hok
        refine ⟨⟨more, ?_⟩, Nat.pos_of_ne_zero h2, hless c d, hless e f⟩
        rw [hid.mp (not_not.mp h1), hstatus.mp (not_not.mp h4), (hpair c d _ (hless c d)).mp rfl,
          (hpair e f _ (hless e f)).mp rfl]
        rfl
      · rintro ⟨⟨rest, hrest⟩, hpos, hmajor, hminor⟩
        simp only [bigEndian_two, List.cons_append, List.nil_append, List.cons.injEq] at hrest
        obtain ⟨rfl, rfl, rfl, rfl, rfl, rfl, rfl, rfl, -⟩ := hrest
        have hvalues : ∀ n < 2 ^ 16, ofBigEndian [UInt8.ofNat (n / 256), UInt8.ofNat n] = n := by
          intro n hn
          exact (hpair _ _ n hn).mpr (bigEndian_two n)
        rw [hvalues _ (by decide), hvalues _ hmajor, hvalues _ hminor, hvalues _ (by decide)]
        rw [if_neg (by simp), if_neg (by omega), if_neg (by simp [VERSION_STATUS_MATCH]),
          if_neg (by simp)]
    · rename_i hshort
      simp only [reduceCtorEq, false_iff]
      rintro ⟨⟨rest, hrest⟩, -⟩
      simp only [bigEndian_two, List.cons_append, List.nil_append] at hrest
      exact hshort _ _ _ _ _ _ _ _ rest hrest

theorem stopped_ne (ending : Ending) (offset : ℕ) :
    stopped ending offset ≠ .panicked ∧ ∀ response, stopped ending offset ≠ .ok response := by
  cases ending <;> simp [stopped]

theorem verdictOf_eq_ok {result : Except VersionNegotiationError VersionResponse}
    {response : VersionResponse} : verdictOf result = .ok response ↔ result = .ok response := by
  cases result <;> simp [verdictOf]

theorem judge_ne_panicked (ending : Ending) (stream : List UInt8) :
    (judge ending stream).1 ≠ .panicked := by
  unfold judge
  split
  · rename_i channel flags high low rest
    dsimp only
    split
    · simp
    · split
      · exact (stopped_ne ending _).1
      · dsimp only
        split
        · simp
        · cases parse_version_response ⟨channel, flags, rest.take (ofBigEndian [high, low])⟩ <;>
            simp [verdictOf]
  · exact (stopped_ne ending _).1

/-- Only octets of the first frame are taken from the transport. -/
theorem judge_consumed (ending : Ending) (stream : List UInt8) :
    ∃ consumed, stream = consumed ++ (judge ending stream).2 ∧ consumed <+: firstFrame stream := by
  match stream with
  | [] | [_] | [_, _] | [_, _, _] =>
    refine ⟨_, (List.append_nil _).symm, ?_⟩
    rw [firstFrame, List.take_of_length_le]
    simp only [FRAME_HEADER_BYTES, List.length_nil, List.length_cons]
    omega
  | channel :: flags :: high :: low :: rest =>
    have hfirst : firstFrame (channel :: flags :: high :: low :: rest) =
        [channel, flags, high, low] ++ rest.take (ofBigEndian [high, low]) := by
      show ([channel, flags, high, low] ++ rest).take ([channel, flags, high, low].length + _) = _
      rw [List.take_length_add_append]
      rfl
    rw [hfirst]
    simp only [judge]
    split
    · exact ⟨[channel, flags, high, low], rfl, List.prefix_append _ _⟩
    · split
      · refine ⟨channel :: flags :: high :: low :: rest, (List.append_nil _).symm, ?_⟩
        rw [List.take_of_length_le (by omega)]
        exact List.prefix_refl _
      · refine ⟨[channel, flags, high, low] ++ rest.take (ofBigEndian [high, low]), ?_,
          List.prefix_refl _⟩
        rw [List.append_assoc, List.take_append_drop]
        rfl

theorem judge_eq_ok (ending : Ending) (stream : List UInt8) (response : VersionResponse) :
    (judge ending stream).1 = .ok response ↔ StartsWith stream response := by
  have hlength : ∀ {payload : List UInt8}, payload.length ≤ MAX_FRAME_PAYLOAD_BYTES →
      ofBigEndian (bigEndian 2 payload.length) = payload.length := by
    intro payload h
    simp only [MAX_FRAME_PAYLOAD_BYTES] at h
    exact ofBigEndian_bigEndian (by norm_num; omega)
  constructor
  · intro h
    unfold judge at h
    split at h
    · rename_i channel flags high low rest
      dsimp only at h
      split at h
      · cases h
      · rename_i hadmissible
        push Not at hadmissible
        split at h
        · exact absurd h ((stopped_ne ending _).2 response)
        · rename_i hwhole
          dsimp only at h
          split at h
          · cases h
          · obtain ⟨rfl, rfl, ⟨more, hpayload⟩, hpos, hmajor, hminor⟩ :=
              parse_version_response_eq_ok.mp (verdictOf_eq_ok.mp h)
            have htaken : (rest.take (ofBigEndian [high, low])).length = ofBigEndian [high, low] := by
              rw [List.length_take]
              omega
            refine ⟨rest.take (ofBigEndian [high, low]), rest.drop (ofBigEndian [high, low]), more,
              ?_, hpayload, by omega, hpos, hmajor, hminor⟩
            have hheader : bigEndian 2 (ofBigEndian [high, low]) = [high, low] := by
              simpa using bigEndian_ofBigEndian [high, low] 0
            rw [htaken, hheader, List.append_assoc, List.take_append_drop]
            rfl
    · exact absurd h ((stopped_ne ending _).2 response)
  · rintro ⟨payload, rest, more, rfl, hpayload, hmax, hpos, hmajor, hminor⟩
    have hmin : 8 ≤ payload.length := by
      rw [hpayload]
      simp
      omega
    have hvalue := hlength hmax
    rw [bigEndian_two] at hvalue ⊢
    simp only [List.cons_append, List.nil_append, judge, hvalue]
    rw [if_neg (by omega), if_neg (by simp), if_neg (by simp), verdictOf_eq_ok,
      parse_version_response_eq_ok, List.take_left]
    exact ⟨rfl, rfl, ⟨more, hpayload⟩, hpos, hmajor, hminor⟩

/-- However the octets of the phone are split into reads, and wherever they end or the transport
fails: no index is out of bounds, what is taken from the transport belongs to the first frame, the
negotiation succeeds exactly if the request was sent and the octets start with the answer, and it
makes no difference how they are split. -/
theorem negotiation_exact (request : Except VersionNegotiationError Unit) (ending : Ending)
    (splits : ℕ → ℕ) (stream : List UInt8) :
    (negotiate_version request ending splits stream).1 ≠ .panicked ∧
    (∃ consumed, stream = consumed ++ (negotiate_version request ending splits stream).2 ∧
      consumed <+: firstFrame stream) ∧
    (∀ response, (negotiate_version request ending splits stream).1 = .ok response ↔
      request = .ok () ∧ StartsWith stream response) ∧
    ∀ splits', negotiate_version request ending splits' stream =
      negotiate_version request ending splits stream := by
  cases request with
  | error error =>
    refine ⟨nofun, ⟨[], rfl, List.nil_prefix⟩, fun response => ?_, fun splits' => rfl⟩
    simp [negotiate_version]
  | ok sent =>
    have hjudge : ∀ splits, negotiate_version (.ok sent) ending splits stream = judge ending stream :=
      fun splits => negotiate_version_eq ending splits stream
    rw [hjudge]
    refine ⟨judge_ne_panicked ending stream, judge_consumed ending stream, fun response => ?_,
      hjudge⟩
    rw [judge_eq_ok]
    exact (and_iff_right rfl).symm

end ProjectArgo.Projection.VersionNegotiation
