import ProjectArgo.Library.Bytes
import ProjectArgo.Library.Run
import Mathlib.Data.List.Sort

/-!
# The parameter sets kept for a late view

The feed passes access units on to the view of the moment and keeps parameter sets, so that a
view that comes later can decode from there. What is kept is one set of each type, the last
that was published since the codec was selected.
-/
namespace ProjectArgo.Projection.Playback

open Library.Bytes Library.Run

inductive VideoCodec
  | h264
  | hevc
  | vp9
  | av1
  deriving DecidableEq

/-- The types of the sequence, picture and video parameter sets of a codec. -/
def VideoCodec.parameter : VideoCodec → ℕ → Bool
  | .h264, nal => nal = 7 || nal = 8
  | .hevc, nal => 32 ≤ nal && nal ≤ 34
  | .vp9, _ => false
  | .av1, _ => false

/-! ## Units of an access unit -/

def headerType (codec : VideoCodec) (b : UInt8) : ℕ :=
  if codec = .hevc then ((b >>> 1) &&& 63).toNat else (b &&& 31).toNat

def nalType (codec : VideoCodec) : List UInt8 → Option ℕ
  | 0 :: 0 :: 0 :: 1 :: rest => rest.head?.map (headerType codec)
  | 0 :: 0 :: 1 :: rest => rest.head?.map (headerType codec)
  | _ => none

/-- Where start codes stand, the first octet being at `i`. -/
def startCodes (i : ℕ) : List UInt8 → List ℕ
  | 0 :: 0 :: 0 :: 1 :: rest => i :: startCodes (i + 4) rest
  | 0 :: 0 :: 1 :: b :: rest => i :: startCodes (i + 3) (b :: rest)
  | _ :: b :: c :: d :: rest => startCodes (i + 1) (b :: c :: d :: rest)
  | _ => []

/-- The substrings from each start to the next. -/
def cutAt (bytes : List UInt8) : List ℕ → List (List UInt8)
  | [] => []
  | [start] => [bytes.drop start]
  | start :: next :: starts => slice bytes start next :: cutAt bytes (next :: starts)

/-- The units of an access unit, each with its type. -/
def annexBUnits (codec : VideoCodec) (bytes : List UInt8) : List (ℕ × List UInt8) :=
  (cutAt bytes (startCodes 0 bytes)).filterMap fun nal =>
    (nalType codec nal).map fun kind => (kind, nal)

/-! ## The feed -/

structure Feed where
  codec : VideoCodec := .h264
  parameters : List (List UInt8) := []
  client : Bool := false
  running : Bool := true
  deriving DecidableEq

/-- What the task of the feed meets: a view with the write to it that fails, if any, or a
packet of the session with the ending of its write. -/
inductive Event
  | accepted (failing : Option ℕ)
  | acceptFailed
  | codec (selected : VideoCodec)
  | data (bytes : List UInt8) (written : Bool)
  | closed
  deriving DecidableEq

/-- What a view that was accepted has been given, and whether it is the view from now on. -/
structure Replay where
  given : List (List UInt8)
  attached : Bool
  deriving DecidableEq

/-- Types in their order, units without one first. -/
def sortKey (codec : VideoCodec) (nal : List UInt8) : ℕ :=
  match nalType codec nal with
  | none => 0
  | some kind => kind + 1

/-- Which units are kept. -/
def kept (codec : VideoCodec) (unit : ℕ × List UInt8) : Bool :=
  codec.parameter unit.1 && unit.2.length ≤ 64 * 1024

def remember (codec : VideoCodec) (parameters : List (List UInt8)) (unit : ℕ × List UInt8) :
    List (List UInt8) :=
  if kept codec unit then
    (parameters.filter (fun old => nalType codec old ≠ some unit.1) ++ [unit.2]).insertionSort
      fun a b => sortKey codec a ≤ sortKey codec b
  else parameters

/-- The parameters are written to a view one after the other until a write fails. -/
def replay (parameters : List (List UInt8)) : Option ℕ → Replay
  | none => ⟨parameters, true⟩
  | some failing =>
    if failing < parameters.length then ⟨parameters.take failing, false⟩ else ⟨parameters, true⟩

def step (feed : Feed) (event : Event) : Feed × Option Replay :=
  if !feed.running then (feed, none)
  else
    match event with
    | .accepted failing =>
      let replayed := replay feed.parameters failing
      ({ feed with client := replayed.attached || feed.client }, some replayed)
    | .acceptFailed => ({ feed with running := false }, none)
    | .codec selected =>
      if feed.codec = selected then (feed, none)
      else ({ feed with parameters := [], codec := selected }, none)
    | .data bytes written =>
      ({ feed with
          parameters := (annexBUnits feed.codec bytes).foldl (remember feed.codec) feed.parameters
          client := feed.client && written }, none)
    | .closed => ({ feed with running := false }, none)

/-! ## What has been published -/

/-- The codec in force with the units published since it was selected. -/
structure Published where
  codec : VideoCodec := .h264
  units : List (ℕ × List UInt8) := []

def Published.after (published : Published) : Event → Published
  | .codec selected =>
    if published.codec = selected then published else { codec := selected }
  | .data bytes _ =>
    { published with units := published.units ++ annexBUnits published.codec bytes }
  | _ => published

/-- The last unit of a type among those that are kept. -/
def latest (codec : VideoCodec) (units : List (ℕ × List UInt8)) (kind : ℕ) :
    Option (List UInt8) :=
  ((units.filter fun unit => kept codec unit && unit.1 = kind).getLast?).map Prod.snd

variable {codec : VideoCodec} {units : List (ℕ × List UInt8)} {parameters : List (List UInt8)}

theorem latest_concat (unit : ℕ × List UInt8) (kind : ℕ) :
    latest codec (units ++ [unit]) kind =
      if kept codec unit ∧ unit.1 = kind then some unit.2 else latest codec units kind := by
  unfold latest
  rw [List.filter_append]
  split_ifs with h
  · simp [h]
  · have hempty : [unit].filter (fun unit => kept codec unit && unit.1 = kind) = [] := by
      simpa using h
    rw [hempty, List.append_nil]

/-- The parameters are, in the order of their types, the last units of each type. -/
structure Holds (codec : VideoCodec) (units : List (ℕ × List UInt8))
    (parameters : List (List UInt8)) : Prop where
  sorted : parameters.Pairwise fun a b => sortKey codec a < sortKey codec b
  latest : ∀ kind nal, nalType codec nal = some kind ∧ nal ∈ parameters ↔
    latest codec units kind = some nal
  typed : ∀ nal ∈ parameters, ∃ kind, nalType codec nal = some kind

theorem Holds.empty (codec : VideoCodec) : Holds codec [] [] := by
  refine ⟨List.Pairwise.nil, ?_, by simp⟩
  intro kind nal
  simp [Playback.latest]

theorem sortKey_eq {nal : List UInt8} {kind : ℕ} :
    sortKey codec nal = kind + 1 ↔ nalType codec nal = some kind := by
  unfold sortKey
  split
  · simp [*]
  · simp [*]

theorem mem_remember {unit : ℕ × List UInt8} (hkept : kept codec unit = true) {nal : List UInt8} :
    nal ∈ remember codec parameters unit ↔
      nal ∈ parameters ∧ nalType codec nal ≠ some unit.1 ∨ nal = unit.2 := by
  rw [remember, if_pos hkept, List.mem_insertionSort]
  simp

theorem sorted_remember {unit : ℕ × List UInt8}
    (h : parameters.Pairwise fun a b => sortKey codec a < sortKey codec b)
    (htype : nalType codec unit.2 = some unit.1) :
    (remember codec parameters unit).Pairwise fun a b => sortKey codec a < sortKey codec b := by
  unfold remember
  split_ifs
  · have : Std.Total fun a b : List UInt8 => sortKey codec a ≤ sortKey codec b :=
      ⟨fun a b => le_total _ _⟩
    have : IsTrans (List UInt8) fun a b => sortKey codec a ≤ sortKey codec b :=
      ⟨fun a b c => le_trans⟩
    have hle := List.pairwise_insertionSort
      (fun a b : List UInt8 => sortKey codec a ≤ sortKey codec b)
      (parameters.filter (fun old => nalType codec old ≠ some unit.1) ++ [unit.2])
    have hne : (parameters.filter (fun old => nalType codec old ≠ some unit.1) ++
        [unit.2]).Pairwise fun a b => sortKey codec a ≠ sortKey codec b := by
      rw [List.pairwise_append]
      refine ⟨(h.filter _).imp (fun hlt => ne_of_lt hlt), List.pairwise_singleton _ _, ?_⟩
      intro old hold last hlast heq
      rw [List.mem_singleton.mp hlast, sortKey_eq.mpr htype, sortKey_eq] at heq
      simp [heq] at hold
    have hperm := (List.perm_insertionSort
      (fun a b : List UInt8 => sortKey codec a ≤ sortKey codec b) _).pairwise_iff
        (fun {a b} (hab : sortKey codec a ≠ sortKey codec b) => hab.symm) |>.mpr hne
    exact (hle.and hperm).imp fun hboth => lt_of_le_of_ne hboth.1 hboth.2
  · exact h

theorem Holds.remember (h : Holds codec units parameters) {unit : ℕ × List UInt8}
    (htype : nalType codec unit.2 = some unit.1) :
    Holds codec (units ++ [unit]) (remember codec parameters unit) := by
  refine ⟨sorted_remember h.sorted htype, ?_, ?_⟩
  rotate_left
  · intro nal hmem
    by_cases hkept : kept codec unit = true
    · rcases (mem_remember hkept).mp hmem with ⟨hold, -⟩ | rfl
      · exact h.typed nal hold
      · exact ⟨unit.1, htype⟩
    · rw [Playback.remember, if_neg hkept] at hmem
      exact h.typed nal hmem
  intro kind nal
  rw [latest_concat]
  by_cases hkept : kept codec unit = true
  · rw [mem_remember hkept]
    by_cases hkind : unit.1 = kind
    · rw [if_pos ⟨hkept, hkind⟩, Option.some.injEq]
      constructor
      · rintro ⟨hnal, ⟨-, hother⟩ | rfl⟩
        · exact absurd hnal (hkind ▸ hother)
        · rfl
      · rintro rfl
        exact ⟨hkind ▸ htype, Or.inr rfl⟩
    · rw [if_neg fun hboth => hkind hboth.2, ← h.latest]
      constructor
      · rintro ⟨hnal, ⟨hmem, -⟩ | rfl⟩
        · exact ⟨hnal, hmem⟩
        · exact absurd (Option.some.inj (htype.symm.trans hnal)) hkind
      · rintro ⟨hnal, hmem⟩
        refine ⟨hnal, Or.inl ⟨hmem, ?_⟩⟩
        rw [hnal, ne_eq, Option.some.injEq]
        exact fun heq => hkind heq.symm
  · have hsame : Playback.remember codec parameters unit = parameters := if_neg hkept
    rw [hsame, if_neg fun hboth => hkept hboth.1]
    exact h.latest kind nal

theorem nalType_of_mem_annexBUnits {bytes : List UInt8} {unit : ℕ × List UInt8}
    (h : unit ∈ annexBUnits codec bytes) : nalType codec unit.2 = some unit.1 := by
  obtain ⟨nal, -, hunit⟩ := List.mem_filterMap.mp h
  obtain ⟨kind, hkind, rfl⟩ := Option.map_eq_some_iff.mp hunit
  exact hkind

theorem Holds.rememberAll (h : Holds codec units parameters) {more : List (ℕ × List UInt8)}
    (htypes : ∀ unit ∈ more, nalType codec unit.2 = some unit.1) :
    Holds codec (units ++ more) (more.foldl (Playback.remember codec) parameters) := by
  induction more using List.reverseRecOn with
  | nil => rwa [List.append_nil]
  | append_singleton more unit ih =>
    rw [List.foldl_concat, ← List.append_assoc]
    apply Holds.remember
    · exact ih fun other hother => htypes other (List.mem_append_left _ hother)
    · exact htypes unit (by simp)

/-- What was published by a list of events. -/
def published (events : List Event) : Published := events.foldl Published.after {}

/-- While the feed runs it keeps the last units of each type since the codec was selected. -/
theorem run_holds (events : List Event) (h : (run step {} events).1.running = true) :
    (run step {} events).1.codec = (published events).codec ∧
      Holds (published events).codec (published events).units
        (run step {} events).1.parameters := by
  induction events using List.reverseRecOn with
  | nil =>
    exact ⟨rfl, Holds.empty .h264⟩
  | append_singleton events event ih =>
    rw [run_concat] at h ⊢
    rw [published, List.foldl_concat, ← published]
    generalize (run step {} events).1 = feed at h ih ⊢
    cases hrunning : feed.running with
    | false => simp [step, hrunning] at h
    | true =>
      obtain ⟨hcodec, hholds⟩ := ih hrunning
      cases event with
      | accepted failing => simpa [step, hrunning, Published.after] using ⟨hcodec, hholds⟩
      | acceptFailed => simp [step, hrunning] at h
      | closed => simp [step, hrunning] at h
      | codec selected =>
        simp only [step, hrunning, Published.after, hcodec, Bool.not_true, Bool.false_eq_true,
          ↓reduceIte]
        split_ifs
        · exact ⟨hcodec, hholds⟩
        · exact ⟨rfl, Holds.empty selected⟩
      | data bytes written =>
        simp only [step, hrunning, Published.after, hcodec, Bool.not_true, Bool.false_eq_true,
          ↓reduceIte]
        exact ⟨trivial, hholds.rememberAll fun unit hunit => nalType_of_mem_annexBUnits hunit⟩

/-! ## What a late view is given -/

/-- An event that publishes no parameter set and keeps the codec. -/
def Event.Quiet (codec : VideoCodec) : Event → Prop
  | .codec selected => codec = selected
  | .data bytes _ => ∀ unit ∈ annexBUnits codec bytes, codec.parameter unit.1 = false
  | _ => True

theorem latest_append {more : List (ℕ × List UInt8)} {kind : ℕ}
    (h : ∀ unit ∈ more, kept codec unit = true → unit.1 ≠ kind) :
    latest codec (units ++ more) kind = latest codec units kind := by
  induction more using List.reverseRecOn with
  | nil => rw [List.append_nil]
  | append_singleton more unit ih =>
    rw [← List.append_assoc, latest_concat, if_neg]
    · exact ih fun other hother => h other (List.mem_append_left _ hother)
    · exact fun hboth => h unit (by simp) hboth.1 hboth.2

theorem foldl_quiet {events : List Event} (start : Published)
    (hquiet : ∀ event ∈ events, event.Quiet start.codec) :
    ∃ more, (∀ unit ∈ more, kept start.codec unit = false) ∧
      events.foldl Published.after start = { start with units := start.units ++ more } := by
  induction events using List.reverseRecOn with
  | nil => exact ⟨[], by simp, by simp⟩
  | append_singleton events event ih =>
    obtain ⟨more, hnone, heq⟩ := ih fun other hother => hquiet other (List.mem_append_left _ hother)
    have hlast := hquiet event (by simp)
    rw [List.foldl_concat, heq]
    cases event with
    | codec selected => exact ⟨more, hnone, if_pos hlast⟩
    | data bytes written =>
      refine ⟨more ++ annexBUnits start.codec bytes, ?_, ?_⟩
      · intro unit hunit
        rcases List.mem_append.mp hunit with hold | hnew
        · exact hnone unit hold
        · rw [kept, hlast unit hnew, Bool.false_and]
      · simp only [Published.after, List.append_assoc]
    | accepted failing => exact ⟨more, hnone, rfl⟩
    | acceptFailed => exact ⟨more, hnone, rfl⟩
    | closed => exact ⟨more, hnone, rfl⟩

/-- The last set of a type in the last access unit that carried any is the latest of its type. -/
theorem latest_published {before after : List Event} {bytes : List UInt8} {written : Bool}
    {front rest : List (ℕ × List UInt8)} {unit : ℕ × List UInt8}
    (hquiet : ∀ event ∈ after, event.Quiet (published before).codec)
    (hunits : annexBUnits (published before).codec bytes = front ++ unit :: rest)
    (hkept : kept (published before).codec unit = true)
    (hlast : ∀ other ∈ rest, kept (published before).codec other = true → other.1 ≠ unit.1) :
    let reached := published (before ++ .data bytes written :: after)
    latest reached.codec reached.units unit.1 = some unit.2 := by
  intro reached
  obtain ⟨more, hnone, heq⟩ := foldl_quiet ((published before).after (.data bytes written)) hquiet
  have hreached : reached = (after.foldl Published.after
      ((published before).after (.data bytes written))) := by
    simp only [reached, published, List.foldl_append, List.foldl_cons]
  have hsplit : (published before).units ++ (front ++ unit :: rest) =
      (published before).units ++ front ++ [unit] ++ rest := by simp
  rw [hreached, heq]
  simp only [Published.after, hunits]
  rw [latest_append, hsplit, latest_append hlast, latest_concat, if_pos ⟨hkept, rfl⟩]
  intro other hother hyes
  have hno : kept (published before).codec other = false := hnone other hother
  rw [hno] at hyes
  exact nomatch hyes

theorem replay_attached {failing : Option ℕ} (h : (replay parameters failing).attached = true) :
    (replay parameters failing).given = parameters := by
  unfold replay at *
  cases failing with
  | none => rfl
  | some failing =>
    simp only at *
    split_ifs at *
    rfl

/-- A view that attaches after any events is first given the last parameter set of each type
of at most 64 KiB since the codec was selected, in the order of the types. Every such set of the
last access unit that carried any is among them unless another of its type follows it there. -/
theorem late_view_given (events : List Event) (failing : Option ℕ) (replayed : Replay)
    (haccepted : (step (run step {} events).1 (.accepted failing)).2 = some replayed)
    (hattached : replayed.attached = true) :
    (replayed.given.Pairwise fun a b => ∃ s t, nalType (published events).codec a = some s ∧
      nalType (published events).codec b = some t ∧ s < t) ∧
    (∀ nal, nal ∈ replayed.given ↔
      ∃ kind, latest (published events).codec (published events).units kind = some nal) ∧
    ∀ before bytes written after, events = before ++ .data bytes written :: after →
      (∀ event ∈ after, event.Quiet (published before).codec) →
      ∀ front unit rest, annexBUnits (published before).codec bytes = front ++ unit :: rest →
        kept (published before).codec unit = true →
        (∀ other ∈ rest, kept (published before).codec other = true → other.1 ≠ unit.1) →
        unit.2 ∈ replayed.given := by
  have hrunning : (run step {} events).1.running = true := by
    by_contra hstopped
    rw [Bool.not_eq_true] at hstopped
    simp [step, hstopped] at haccepted
  obtain ⟨-, hholds⟩ := run_holds events hrunning
  have hgiven : replayed.given = (run step {} events).1.parameters := by
    simp only [step, hrunning, Bool.not_true, Bool.false_eq_true, ↓reduceIte,
      Option.some.injEq] at haccepted
    subst haccepted
    exact replay_attached hattached
  have hmem : ∀ nal, nal ∈ replayed.given ↔
      ∃ kind, latest (published events).codec (published events).units kind = some nal := by
    intro nal
    rw [hgiven]
    constructor
    · intro hnal
      obtain ⟨kind, hkind⟩ := hholds.typed nal hnal
      exact ⟨kind, (hholds.latest kind nal).mp ⟨hkind, hnal⟩⟩
    · rintro ⟨kind, hlatest⟩
      exact ((hholds.latest kind nal).mpr hlatest).2
  refine ⟨?_, hmem, ?_⟩
  · rw [hgiven]
    apply hholds.sorted.imp_of_mem
    intro a b ha hb hlt
    obtain ⟨s, hs⟩ := hholds.typed a ha
    obtain ⟨t, ht⟩ := hholds.typed b hb
    rw [sortKey_eq.mpr hs, sortKey_eq.mpr ht] at hlt
    exact ⟨s, t, hs, ht, by omega⟩
  · rintro before bytes written after rfl hquiet front unit rest hunits hkept hlast
    rw [hmem]
    exact ⟨unit.1, latest_published hquiet hunits hkept hlast⟩

/-- A start code, a header and its content. -/
def setOf (header : UInt8) (content : List UInt8) : List UInt8 := [0, 0, 0, 1, header] ++ content

/-- One sequence parameter set and two picture parameter sets. -/
def twoPictureSets : List UInt8 := setOf 0x67 [1] ++ setOf 0x68 [2] ++ setOf 0x68 [3]

theorem late_view_given_pictures :
    (annexBUnits (published []).codec twoPictureSets =
      [(7, setOf 0x67 [1]), (8, setOf 0x68 [2])] ++ (8, setOf 0x68 [3]) :: []) ∧
    setOf 0x68 [3] ∈ (Replay.mk [setOf 0x67 [1], setOf 0x68 [3]] true).given := by
  refine ⟨by decide, ?_⟩
  apply (late_view_given [.data twoPictureSets true] none _ rfl rfl).2.2 [] twoPictureSets true []
    rfl (by simp) [(7, setOf 0x67 [1]), (8, setOf 0x68 [2])] (8, setOf 0x68 [3]) [] (by decide)
    (by decide) (by simp)

/-! ## What it is not given -/

theorem startCodes_of_ne_zero {i : ℕ} {bytes : List UInt8} (h : ∀ b ∈ bytes, b ≠ 0) :
    startCodes i bytes = [] := by
  fun_induction startCodes i bytes with
  | case1 i rest => simp at h
  | case2 i b rest => simp at h
  | case3 i a b c d rest _ _ ih =>
    exact ih fun other hother => h other (List.mem_cons_of_mem a hother)
  | case4 => rfl

theorem annexBUnits_setOf {header : UInt8} {content : List UInt8} (hheader : header ≠ 0)
    (hcontent : ∀ b ∈ content, b ≠ 0) :
    annexBUnits .h264 (setOf header content) =
      [(headerType .h264 header, setOf header content)] := by
  have hrest : startCodes 4 (header :: content) = [] := by
    apply startCodes_of_ne_zero
    intro b hb
    rcases List.mem_cons.mp hb with rfl | hmem
    · exact hheader
    · exact hcontent b hmem
  have hstarts : startCodes 0 (setOf header content) = [0] := by
    simp only [setOf, List.cons_append, List.nil_append, startCodes, hrest, Nat.zero_add]
  rw [annexBUnits, hstarts]
  rfl

theorem unkept_setOf {codec : VideoCodec} {kind : ℕ} {header : UInt8} {content : List UInt8}
    (hlarge : 64 * 1024 < content.length + 5) :
    kept codec (kind, setOf header content) = false := by
  have hlength : (setOf header content).length = content.length + 5 := by simp [setOf]
  have hnot : ¬content.length + 5 ≤ 64 * 1024 := by omega
  simp only [kept, hlength, hnot, decide_false, Bool.and_false]

/-- A set that is not kept leaves nothing to give. -/
theorem replay_unkept {bytes : List UInt8} {unit : ℕ × List UInt8}
    (hunits : annexBUnits .h264 bytes = [unit]) (hunkept : kept .h264 unit = false) :
    (step (run step {} [.data bytes true]).1 (.accepted none)).2 = some ⟨[], true⟩ := by
  simp [run, step, hunits, remember, hunkept, replay]

/-- Of two picture sets in one access unit only the second is given, and a set above 64 KiB
is given to nobody. -/
theorem sets_not_given :
    ((8, setOf 0x68 [2]) ∈ annexBUnits .h264 twoPictureSets ∧
      (step (run step {} [.data twoPictureSets true]).1 (.accepted none)).2 =
        some ⟨[setOf 0x67 [1], setOf 0x68 [3]], true⟩ ∧
      setOf 0x68 [2] ∉ [setOf 0x67 [1], setOf 0x68 [3]]) ∧
    (7, setOf 0x67 (List.replicate 65536 1)) ∈
      annexBUnits .h264 (setOf 0x67 (List.replicate 65536 1)) ∧
    (step (run step {} [.data (setOf 0x67 (List.replicate 65536 1)) true]).1 (.accepted none)).2 =
      some ⟨[], true⟩ := by
  have hlarge : annexBUnits .h264 (setOf 0x67 (List.replicate 65536 1)) =
      [(headerType .h264 0x67, setOf 0x67 (List.replicate 65536 1))] :=
    annexBUnits_setOf (by decide) fun b hb => by simp [List.eq_of_mem_replicate hb]
  refine ⟨⟨by decide, by decide, by decide⟩, ?_, ?_⟩
  · rw [hlarge]
    exact List.mem_singleton_self _
  · apply replay_unkept hlarge
    apply unkept_setOf
    rw [List.length_replicate]
    omega

end ProjectArgo.Projection.Playback
