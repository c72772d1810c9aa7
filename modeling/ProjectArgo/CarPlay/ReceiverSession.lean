import ProjectArgo.Library.Ends
import ProjectArgo.CarPlay.Receiver

/-!
# Invariants of a session

What one request can do to a session, route by route. A session that is not
authenticated owns nothing; an authenticated one owns at most one task of each
slot and at most four audio streams with distinct connections.
-/
namespace ProjectArgo.CarPlay

open Library.Ends (bind_eq_ok)

inductive Slot where
  | timing
  | event
  | screen
  deriving DecidableEq

def Task.slot : Task → Slot
  | .timing _ => .timing
  | .event => .event
  | .screen _ => .screen

namespace Effect

def task : Effect → Option Task
  | .spawned task => some task
  | _ => none

/-- Effects of the routes that need an authenticated session. -/
def inSession : Effect → Prop
  | .entered _ => True
  | .spawned _ => True
  | .opened _ _ => True
  | .closed _ => True
  | .sealed _ _ => True
  | _ => False

end Effect

def spawned (effects : List Effect) : List Task := effects.filterMap Effect.task

/-- The open audio streams after an effect. -/
def Effect.audio (streams : List UInt64) : Effect → List UInt64
  | .opened connection _ => streams ++ [connection]
  | .closed connection => streams.filter (· ≠ connection)
  | _ => streams

/-- A stream opens under a new connection while fewer than four are open. -/
def Effect.fits (streams : List UInt64) : Effect → Prop
  | .opened connection _ => streams.length < 4 ∧ connection ∉ streams
  | _ => True

def live (streams : List UInt64) (effects : List Effect) : List UInt64 :=
  effects.foldl Effect.audio streams

def Fitting (streams : List UInt64) : List Effect → Prop
  | [] => True
  | effect :: effects => effect.fits streams ∧ Fitting (effect.audio streams) effects

@[simp] theorem spawned_append (es fs : List Effect) :
    spawned (es ++ fs) = spawned es ++ spawned fs := by
  simp [spawned]

theorem live_append (streams : List UInt64) (es fs : List Effect) :
    live streams (es ++ fs) = live (live streams es) fs := List.foldl_append

theorem fitting_append {streams : List UInt64} {es fs : List Effect} :
    Fitting streams (es ++ fs) ↔ Fitting streams es ∧ Fitting (live streams es) fs := by
  induction es generalizing streams with
  | nil => exact (iff_of_eq (true_and _)).symm
  | cons e es ih =>
    rw [List.cons_append, Fitting, Fitting, ih, and_assoc]
    rfl

/-- At most four streams are ever open, under distinct connections. -/
theorem Fitting.bounded {streams : List UInt64} {effects : List Effect}
    (h : Fitting streams effects) (hlength : streams.length ≤ 4) (hnodup : streams.Nodup) :
    (live streams effects).length ≤ 4 ∧ (live streams effects).Nodup := by
  induction effects generalizing streams with
  | nil => exact ⟨hlength, hnodup⟩
  | cons effect effects ih =>
    obtain ⟨hfits, hrest⟩ := h
    apply ih hrest
    · cases effect with
      | opened connection microphone =>
        have hroom := hfits.1
        simp only [Effect.audio, List.length_append, List.length_singleton]
        omega
      | closed connection => exact (List.length_filter_le _ _).trans hlength
      | _ => exact hlength
    · cases effect with
      | opened connection microphone =>
        exact hnodup.append (List.nodup_singleton _) (by simpa using hfits.2)
      | closed connection => exact hnodup.filter _
      | _ => exact hnodup

theorem live_closed (streams closed : List UInt64) :
    live streams (closed.map .closed) = streams.filter (· ∉ closed) := by
  induction closed generalizing streams with
  | nil => simp [live]
  | cons connection closed ih =>
    rw [List.map_cons, ← List.singleton_append, live_append, ih]
    show (streams.filter (· ≠ connection)).filter (· ∉ closed) = _
    rw [List.filter_filter]
    apply List.filter_congr
    intro other _
    simp [Bool.and_comm]

theorem fitting_closed (streams closed : List UInt64) : Fitting streams (closed.map .closed) := by
  induction closed generalizing streams with
  | nil => trivial
  | cons connection closed ih => exact ⟨trivial, ih _⟩

namespace Session

variable (setting : Setting)

def connections (s : Session) : List UInt64 := s.audio.map Stream.connection

def slots (s : Session) : List Slot := s.tasks.map Task.slot

/-- Nothing was set up, recorded or told to the session. -/
structure Idle (s : Session) : Prop where
  tasks : s.tasks = []
  audio : s.audio = []
  sessionSetup : s.sessionSetup = false
  screenStarted : s.screenStarted = false
  active : s.active = false
  information : s.information = ⟨"", false, 0, [], none⟩

structure Sound (s : Session) : Prop where
  slots : s.slots.Nodup
  setup : s.sessionSetup = false → .timing ∉ s.slots ∧ .event ∉ s.slots
  screen : s.screenStarted = false → .screen ∉ s.slots
  bounded : s.audio.length ≤ 4
  distinct : (s.audio.map Stream.connection).Nodup
  idle : s.authenticated = false → s.Idle
  verified : s.authenticated = true → s.verified.isSome

/-- What an authenticated session keeps while a request acts on it. -/
structure Acted (s : Session) (effects : List Effect) (s' : Session) : Prop where
  tasks : s'.tasks = s.tasks ++ spawned effects
  verified : s'.verified = s.verified
  authenticated : s'.authenticated = s.authenticated
  inSession : ∀ e ∈ effects, e.inSession
  connections : s'.connections = live s.connections effects
  fitting : Fitting s.connections effects

theorem Acted.refl (s : Session) : s.Acted [] s :=
  ⟨(List.append_nil _).symm, rfl, rfl, fun _ h => (nomatch h), rfl, trivial⟩

theorem Acted.trans {s t u : Session} {es fs : List Effect} (h : s.Acted es t)
    (h' : t.Acted fs u) : s.Acted (es ++ fs) u where
  tasks := by rw [h'.tasks, h.tasks, spawned_append, List.append_assoc]
  verified := h'.verified.trans h.verified
  authenticated := h'.authenticated.trans h.authenticated
  inSession := by
    intro e he
    rcases List.mem_append.mp he with he | he
    · exact h.inSession e he
    · exact h'.inSession e he
  connections := by rw [h'.connections, h.connections, live_append]
  fitting := fitting_append.mpr ⟨h.fitting, h.connections ▸ h'.fitting⟩

/-- An answer after which the connection goes on as it is. -/
def Plain (result : Except Error Answer) : Prop :=
  ∀ answer, result = .ok answer → answer.activate = false

theorem plain_error (e : Error) : Plain (.error e) := fun _ hok => nomatch hok

theorem plain_ok {answer : Answer} (h : answer.activate = false) : Plain (.ok answer) := by
  intro other hok
  cases hok
  exact h

/-- The outcome of a route: what it did, slots still distinct, and the invariant unless it failed. -/
structure Routed (s : Session) (result : Dispatched) : Prop where
  acted : s.Acted result.2.1 result.1
  slots : result.1.slots.Nodup
  sound : ∀ answer, result.2.2 = .ok answer → result.1.Sound
  plain : Plain result.2.2

/-- An acting step changes nothing that the invariant reads but tasks, streams and marks. -/
theorem Sound.same {s s' : Session} (h : s.Sound) (hauthenticated : s.authenticated = true)
    (htasks : s'.tasks = s.tasks) (hsetup : s'.sessionSetup = s.sessionSetup)
    (hscreen : s'.screenStarted = s.screenStarted) (hverified : s'.verified = s.verified)
    (hauthenticated' : s'.authenticated = s.authenticated) (hbounded : s'.audio.length ≤ 4)
    (hdistinct : (s'.audio.map Stream.connection).Nodup) : s'.Sound := by
  have hslots : s'.slots = s.slots := congrArg (List.map Task.slot) htasks
  refine ⟨?_, ?_, ?_, hbounded, hdistinct, ?_, ?_⟩
  · rw [hslots]
    exact h.slots
  · rw [hslots, hsetup]
    exact h.setup
  · rw [hslots, hscreen]
    exact h.screen
  · rw [hauthenticated', hauthenticated]
    exact fun hfalse => absurd hfalse.symm Bool.false_ne_true
  · intro _
    rw [hverified]
    exact h.verified hauthenticated

theorem routed_same {s : Session} (s' : Session) (h : s.Sound) (hauthenticated : s.authenticated = true)
    (htasks : s'.tasks = s.tasks) (hsetup : s'.sessionSetup = s.sessionSetup)
    (hscreen : s'.screenStarted = s.screenStarted) (hverified : s'.verified = s.verified)
    (hauthenticated' : s'.authenticated = s.authenticated) (haudio : s'.audio = s.audio)
    {result : Except Error Answer} (hplain : Plain result) : s.Routed (s', [], result) := by
  have hsound : s'.Sound := by
    apply h.same hauthenticated htasks hsetup hscreen hverified hauthenticated'
    · rw [haudio]
      exact h.bounded
    · rw [haudio]
      exact h.distinct
  have hconnections : s'.connections = s.connections := congrArg (List.map Stream.connection) haudio
  refine ⟨⟨?_, hverified, hauthenticated', fun _ he => (nomatch he), hconnections, trivial⟩,
    hsound.slots, fun _ _ => hsound, hplain⟩
  rw [htasks]
  exact (List.append_nil _).symm

theorem routed_error {s : Session} (h : s.Sound) (e : Error) : s.Routed (s, [], .error e) :=
  ⟨Acted.refl s, h.slots, fun _ hok => (nomatch hok), plain_error e⟩

theorem start_connection {key : List UInt8} {connection : UInt64} {kind : ℕ}
    {format : AudioFormat} {category : String} {latencyMs : ℕ} {capture : Option CaptureOptions}
    {outcome : StreamOutcome} {stream : Stream}
    (h : Stream.start key connection kind format category latencyMs capture outcome = .ok stream) :
    stream.connection = connection := by
  simp only [Stream.start, bind_eq_ok] at h
  obtain ⟨_, -, _, -, _, -, microphone, -, ports, -, h⟩ := h
  cases h
  rfl

/-- An accepted audio entry opens a stream under a new connection while fewer than four are open. -/
theorem audioStream_ok {s : Session} {secret key : List UInt8} {fields : Dictionary} {kind : ℕ}
    {connection : UInt64} {outcome : StreamOutcome} {stream : Stream}
    (h : s.audioStream setting secret key fields kind connection outcome = .ok stream) :
    stream.connection = connection ∧ s.audio.length < 4 ∧
      ∀ other ∈ s.audio, other.connection ≠ connection := by
  simp only [audioStream, bind_eq_ok, ensure_eq_ok] at h
  obtain ⟨_, -, _, hroom, _, -, _, -, _, -, _, -, _, -, hstart⟩ := h
  exact ⟨start_connection hstart, hroom.1, hroom.2⟩

/-- What one SETUP entry does to an authenticated session. -/
theorem setupStream_cases (s : Session) (h : s.Sound) (hauthenticated : s.authenticated = true)
    (value : Value) (screen : Except Error UInt16) (outcome : StreamOutcome) :
    s.Acted (s.setupStream setting value screen outcome).2.1
        (s.setupStream setting value screen outcome).1 ∧
      (s.setupStream setting value screen outcome).1.Sound := by
  unfold setupStream
  cases s.streamEntry setting value with
  | error e => exact ⟨Acted.refl s, h⟩
  | ok entry =>
    obtain ⟨fields, kind, connection, secret, key⟩ := entry
    dsimp only
    split_ifs with hkind hstarted
    · exact ⟨Acted.refl s, h⟩
    · cases screen with
      | error e => exact ⟨Acted.refl s, h⟩
      | ok port =>
        have hnew : Slot.screen ∉ s.slots := h.screen (by simpa using hstarted)
        refine ⟨⟨rfl, rfl, rfl, ?_, rfl, ⟨trivial, trivial⟩⟩, ?_, ?_, ?_, h.bounded, h.distinct, ?_,
          h.verified⟩
        · intro e he
          rw [List.mem_singleton.mp he]
          trivial
        · show ((s.tasks ++ [Task.screen key]).map Task.slot).Nodup
          rw [List.map_append]
          exact h.slots.append (List.nodup_singleton _) (by simpa [slots, Task.slot] using hnew)
        · intro hsetup
          have hold := h.setup hsetup
          simpa [slots, Task.slot] using hold
        · intro hfalse
          exact nomatch hfalse
        · intro hfalse
          exact absurd (hauthenticated.symm.trans hfalse) (by decide)
    · cases haudio : s.audioStream setting secret key fields kind connection outcome with
      | error e => exact ⟨Acted.refl s, h⟩
      | ok stream =>
        obtain ⟨hconnection, hroom, hnew⟩ := audioStream_ok setting haudio
        have hfresh : stream.connection ∉ s.connections := by
          rw [hconnection, connections, List.mem_map]
          rintro ⟨other, hother, hsame⟩
          exact hnew other hother hsame
        refine ⟨⟨(List.append_nil _).symm, rfl, rfl, ?_, ?_, ?_⟩, h.slots, h.setup, h.screen, ?_, ?_,
          ?_, h.verified⟩
        · intro e he
          rw [List.mem_singleton.mp he]
          trivial
        · simp only [connections, List.map_append, List.map_singleton, Stream.setMicrophoneMuted,
            hconnection]
          rfl
        · refine ⟨⟨?_, hconnection ▸ hfresh⟩, trivial⟩
          rw [connections, List.length_map]
          exact hroom
        · rw [List.length_append, List.length_singleton]
          omega
        · rw [List.map_append]
          exact h.distinct.append (List.nodup_singleton _)
            (by simpa [Stream.setMicrophoneMuted, connections] using hfresh)
        · intro hfalse
          exact absurd (hauthenticated.symm.trans hfalse) (by decide)

/-- The entries of a SETUP request one after the other. -/
theorem setupStreams_cases (s : Session) (h : s.Sound) (hauthenticated : s.authenticated = true)
    (out : Outcomes) (index : ℕ) (values : List Value) :
    s.Acted (s.setupStreams setting out index values).2.1
        (s.setupStreams setting out index values).1 ∧
      (s.setupStreams setting out index values).1.Sound := by
  induction values generalizing s index with
  | nil => exact ⟨Acted.refl s, h⟩
  | cons value values ih =>
    obtain ⟨hacted, hsound⟩ := setupStream_cases setting s h hauthenticated value
      (out.screen index) (out.stream index)
    unfold setupStreams
    rcases hstep : s.setupStream setting value (out.screen index) (out.stream index) with
      ⟨s', effects, e | reply⟩
    · rw [hstep] at hacted hsound
      exact ⟨hacted, hsound⟩
    · rw [hstep] at hacted hsound
      dsimp only at hacted hsound ⊢
      have hrest := ih s' hsound (hacted.authenticated.trans hauthenticated) (index + 1)
      rcases hmore : s'.setupStreams setting out (index + 1) values with ⟨s'', more, e | replies⟩
      · rw [hmore] at hrest
        exact ⟨hacted.trans hrest.1, hrest.2⟩
      · rw [hmore] at hrest
        exact ⟨hacted.trans hrest.1, hrest.2⟩

theorem named_same (s : Session) (fields : Dictionary) :
    ∃ information, s.named fields = { s with information } := by
  unfold named
  split
  · exact ⟨s.information, rfl⟩
  · split_ifs
    · exact ⟨s.information, rfl⟩
    · exact ⟨_, rfl⟩

theorem setupSession_routed (s : Session) (h : s.Sound) (hauthenticated : s.authenticated = true)
    (fields : Dictionary) (out : Outcomes) : s.Routed (s.setupSession setting fields out) := by
  unfold setupSession
  split_ifs with hsetup
  · exact routed_error h _
  · obtain ⟨information, hnamed⟩ := named_same s fields
    have hfree := h.setup (by simpa using hsetup)
    dsimp only
    rw [hnamed]
    cases timingPorts fields out with
    | error e =>
      exact routed_same { s with information } h hauthenticated rfl rfl rfl rfl rfl rfl
        (plain_error e)
    | ok ports =>
      obtain ⟨port, bound⟩ := ports
      have hone : ((s.tasks ++ [Task.timing port]).map Task.slot).Nodup := by
        rw [List.map_append]
        exact h.slots.append (List.nodup_singleton _) (by simpa [slots, Task.slot] using hfree.1)
      have htwo : ((s.tasks ++ [Task.timing port] ++ [Task.event]).map Task.slot).Nodup := by
        have hevent : Slot.event ∉ (s.tasks ++ [Task.timing port]).map Task.slot := by
          simpa [slots, Task.slot] using hfree.2
        rw [List.map_append]
        exact hone.append (List.nodup_singleton _) (by simpa [Task.slot] using hevent)
      have hspawned : ∀ e ∈ [Effect.spawned (.timing port)], e.inSession := by
        intro e he
        rw [List.mem_singleton.mp he]
        trivial
      have hboth : ∀ e ∈ [Effect.spawned (.timing port)] ++ [Effect.spawned .event],
          e.inSession := by
        intro e he
        rcases List.mem_append.mp he with he | he
        · exact hspawned e he
        · rw [List.mem_singleton.mp he]
          trivial
      have hfitting : Fitting s.connections
          ([Effect.spawned (.timing port)] ++ [Effect.spawned .event]) :=
        ⟨trivial, trivial, trivial⟩
      dsimp only
      cases out.event with
      | error e =>
        exact ⟨⟨rfl, rfl, rfl, hspawned, rfl, ⟨trivial, trivial⟩⟩, hone, fun _ hok => (nomatch hok),
          plain_error _⟩
      | ok eventPort =>
        dsimp only
        split_ifs
        · exact ⟨⟨rfl, rfl, rfl, hspawned, rfl, ⟨trivial, trivial⟩⟩, hone,
            fun _ hok => (nomatch hok), plain_error _⟩
        · cases setting.writer (.dictionary
              [("timingPort", .number bound.toNat), ("eventPort", .number eventPort.toNat)]) with
          | error e =>
            exact ⟨⟨List.append_assoc _ _ _, rfl, rfl, hboth, rfl, hfitting⟩, htwo,
              fun _ hok => (nomatch hok), plain_error e⟩
          | ok body =>
            refine ⟨⟨List.append_assoc _ _ _, rfl, rfl, hboth, rfl, hfitting⟩, htwo, ?_, plain_ok rfl⟩
            intro answer _
            refine ⟨htwo, (fun hfalse => nomatch hfalse), ?_, h.bounded, h.distinct, ?_, h.verified⟩
            · intro hscreen
              have hold := h.screen hscreen
              simpa [slots, Task.slot] using hold
            · intro hfalse
              exact absurd (hauthenticated.symm.trans hfalse) (by decide)

theorem setupRoute_routed (s : Session) (h : s.Sound) (hauthenticated : s.authenticated = true)
    (request : Request) (out : Outcomes) : s.Routed (s.setupRoute setting request out) := by
  unfold setupRoute
  cases setting.plist request.body with
  | error e => exact routed_error h e
  | ok fields =>
    dsimp only
    cases (Value.get fields "streams").bind Value.asArray with
    | none => exact setupSession_routed setting s h hauthenticated fields out
    | some streams =>
      dsimp only
      split_ifs
      · exact routed_error h _
      · obtain ⟨hacted, hsound⟩ := setupStreams_cases setting s h hauthenticated out 0 streams
        rcases hsetup : s.setupStreams setting out 0 streams with ⟨s', effects, e | replies⟩
        · rw [hsetup] at hacted hsound
          exact ⟨hacted, hsound.slots, fun _ _ => hsound, plain_error e⟩
        · rw [hsetup] at hacted hsound
          dsimp only
          cases setting.writer (.dictionary [("streams", .array replies)]) with
          | error e => exact ⟨hacted, hsound.slots, fun _ _ => hsound, plain_error e⟩
          | ok body => exact ⟨hacted, hsound.slots, fun _ _ => hsound, plain_ok rfl⟩

theorem record_routed (s : Session) (h : s.Sound) (hauthenticated : s.authenticated = true) :
    s.Routed s.record := by
  unfold record
  refine routed_same _ h hauthenticated ?_ ?_ ?_ ?_ ?_ ?_ (plain_ok rfl)
  all_goals rfl

theorem feedback_routed (s : Session) (h : s.Sound) (hauthenticated : s.authenticated = true)
    (out : Outcomes) : s.Routed (s.feedback out) := by
  unfold feedback
  split_ifs
  · exact routed_same _ h hauthenticated rfl rfl rfl rfl rfl rfl (plain_ok rfl)
  · cases out.report with
    | error e => exact routed_error h e
    | ok body => exact routed_same _ h hauthenticated rfl rfl rfl rfl rfl rfl (plain_ok rfl)
  · exact routed_error h _

theorem command_routed (s : Session) (h : s.Sound) (hauthenticated : s.authenticated = true)
    (request : Request) : s.Routed (s.command setting request) := by
  unfold command
  cases setting.plist request.body with
  | error e => exact routed_error h e
  | ok fields =>
    dsimp only
    refine routed_same _ h hauthenticated ?_ ?_ ?_ ?_ ?_ ?_ (plain_ok rfl)
    all_goals rfl

/-- Streams with distinct connections can be told apart by them. -/
theorem connections_filter {streams : List Stream} (h : (streams.map Stream.connection).Nodup)
    (selected : Stream → Bool) :
    (streams.filter fun stream => !selected stream).map Stream.connection =
      (streams.map Stream.connection).filter
        (· ∉ (streams.filter selected).map Stream.connection) := by
  rw [List.filter_map]
  congr 1
  apply List.filter_congr
  intro stream hstream
  have hiff : stream.connection ∈ (streams.filter selected).map Stream.connection ↔
      selected stream = true := by
    constructor
    · intro hmem
      obtain ⟨other, hother, hsame⟩ := List.mem_map.mp hmem
      obtain ⟨hin, hselected⟩ := List.mem_filter.mp hother
      rwa [← List.inj_on_of_nodup_map h hin hstream hsame]
    · exact fun hselected => List.mem_map_of_mem (List.mem_filter.mpr ⟨hstream, hselected⟩)
  simp only [Function.comp_apply, hiff]
  cases selected stream
  · rfl
  · rfl

theorem closeMatching_cases (s : Session) (h : s.Sound) (hauthenticated : s.authenticated = true)
    (selector : Option ℕ × Option UInt64) :
    s.Acted (s.closeMatching selector).2 (s.closeMatching selector).1 ∧
      (s.closeMatching selector).1.Sound := by
  have hsublist : (s.audio.filter fun stream => !selects selector stream).Sublist s.audio :=
    List.filter_sublist
  have heffects : (s.closeMatching selector).2 =
      ((s.audio.filter (selects selector)).map Stream.connection).map .closed := by
    rw [List.map_map]
    rfl
  refine ⟨⟨?_, rfl, rfl, ?_, ?_, ?_⟩, ?_⟩
  · have hnone : spawned (s.closeMatching selector).2 = [] := by
      simp [closeMatching, spawned, Effect.task]
    rw [hnone, List.append_nil]
    rfl
  · intro e he
    obtain ⟨stream, -, rfl⟩ := List.mem_map.mp he
    trivial
  · rw [heffects, live_closed]
    exact connections_filter h.distinct (selects selector)
  · rw [heffects]
    exact fitting_closed _ _
  · exact h.same hauthenticated rfl rfl rfl rfl rfl (hsublist.length_le.trans h.bounded)
      ((hsublist.map Stream.connection).nodup h.distinct)

theorem teardownStreams_cases (s : Session) (h : s.Sound) (hauthenticated : s.authenticated = true)
    (values : List Value) :
    s.Acted (s.teardownStreams values).2.1 (s.teardownStreams values).1 ∧
      (s.teardownStreams values).1.Sound := by
  induction values generalizing s with
  | nil => exact ⟨Acted.refl s, h⟩
  | cons value values ih =>
    unfold teardownStreams
    cases teardownEntry value with
    | error e => exact ⟨Acted.refl s, h⟩
    | ok selector =>
      obtain ⟨hacted, hsound⟩ := closeMatching_cases s h hauthenticated selector
      have hrest := ih (s.closeMatching selector).1 hsound
        (hacted.authenticated.trans hauthenticated)
      exact ⟨hacted.trans hrest.1, hrest.2⟩

theorem teardown_routed (s : Session) (h : s.Sound) (hauthenticated : s.authenticated = true)
    (request : Request) : s.Routed (s.teardown setting request) := by
  unfold teardown
  split_ifs
  · exact routed_same _ h hauthenticated rfl rfl rfl rfl rfl rfl (plain_ok rfl)
  · cases setting.plist request.body with
    | error e => exact routed_error h e
    | ok fields =>
      dsimp only
      cases (Value.get fields "streams").bind Value.asArray with
      | none => exact routed_same _ h hauthenticated rfl rfl rfl rfl rfl rfl (plain_ok rfl)
      | some streams =>
        obtain ⟨hacted, hsound⟩ := teardownStreams_cases s h hauthenticated streams
        dsimp only
        rcases htear : s.teardownStreams streams with ⟨s', effects, e | u⟩
        · rw [htear] at hacted hsound
          exact ⟨hacted, hsound.slots, fun _ _ => hsound, plain_error e⟩
        · rw [htear] at hacted hsound
          exact ⟨hacted, hsound.slots, fun _ _ => hsound, plain_ok rfl⟩

theorem Routed.enter {s : Session} {result : Dispatched} (h : s.Routed result) (route : Route) :
    s.Routed (Session.enter route result) := by
  refine ⟨⟨h.acted.tasks, h.acted.verified, h.acted.authenticated, ?_, h.acted.connections,
    trivial, h.acted.fitting⟩, h.slots, h.sound, h.plain⟩
  intro e he
  rcases List.mem_cons.mp he with rfl | he
  · trivial
  · exact h.acted.inSession e he

/-! ## One request -/

/-- What pairing leaves alone. -/
structure Apart (s s' : Session) : Prop where
  tasks : s'.tasks = s.tasks
  audio : s'.audio = s.audio
  sessionSetup : s'.sessionSetup = s.sessionSetup
  screenStarted : s'.screenStarted = s.screenStarted
  active : s'.active = s.active
  information : s'.information = s.information

theorem Apart.connections {s s' : Session} (h : s.Apart s') : s'.connections = s.connections :=
  congrArg (List.map Stream.connection) h.audio

theorem Apart.sound {s s' : Session} (happart : s.Apart s') (h : s.Sound)
    (hauthenticated : s'.authenticated = true → s'.verified.isSome)
    (hidle : s'.authenticated = false → s.authenticated = false) : s'.Sound := by
  have hslots : s'.slots = s.slots := congrArg (List.map Task.slot) happart.tasks
  refine ⟨?_, ?_, ?_, ?_, ?_, ?_, hauthenticated⟩
  · rw [hslots]
    exact h.slots
  · rw [hslots, happart.sessionSetup]
    exact h.setup
  · rw [hslots, happart.screenStarted]
    exact h.screen
  · rw [happart.audio]
    exact h.bounded
  · rw [happart.audio]
    exact h.distinct
  · intro hfalse
    have hold := h.idle (hidle hfalse)
    exact
      { tasks := happart.tasks.trans hold.tasks
        audio := happart.audio.trans hold.audio
        sessionSetup := happart.sessionSetup.trans hold.sessionSetup
        screenStarted := happart.screenStarted.trans hold.screenStarted
        active := happart.active.trans hold.active
        information := happart.information.trans hold.information }

/-- Every request is one of these. -/
inductive Dispatches (s : Session) : Dispatched → Prop where
  | acted (s' : Session) (effects : List Effect) (result : Except Error Answer)
      (hauthenticated : s.authenticated = true) (hrouted : s.Routed (s', effects, result))
      (hplain : Plain result) :
      Dispatches s (s', effects, result)
  | pairing (s' : Session) (result : Except Error Answer) (hapart : s.Apart s')
      (hauthenticated : s'.authenticated = s.authenticated) (hnone : s.verified = none)
      (hverified : s'.verified = none)
      (hplain : ∀ answer, result = .ok answer → answer.activate = false ∧ answer.last = false) :
      Dispatches s (s', [.pairing], result)
  | verified (s' : Session) (answer : Answer) (hapart : s.Apart s')
      (hauthenticated : s'.authenticated = s.authenticated) (hnone : s.verified = none)
      (hverified : s'.verified.isSome) (hactivate : answer.activate = true)
      (hlast : answer.last = false) : Dispatches s (s', [.pairing, .verified], .ok answer)
  | authenticated (s' : Session) (answer : Answer) (hapart : s.Apart s')
      (hauthenticated : s'.authenticated = true) (hsome : s.verified.isSome)
      (hverified : s'.verified = s.verified) (hplain : answer.activate = false) :
      Dispatches s (s', [.authenticated], .ok answer)
  | aside (result : Except Error Answer)
      (hplain : Plain result) :
      Dispatches s (s, [], result)

theorem pairSetup_dispatches (s : Session) (request : Request) (out : Outcomes)
    (hnone : s.verified = none) : s.Dispatches (s.pairSetup setting request out) := by
  have happart : ∀ setup peers, s.Apart { s with setup, peers } :=
    fun _ _ => ⟨rfl, rfl, rfl, rfl, rfl, rfl⟩
  unfold pairSetup
  rcases s.setup.handle setting.crypto out.entropy request.body setting.identity s.peers with
    ⟨setup, peers, e | body⟩
  · exact .pairing _ _ (happart setup peers) rfl hnone hnone fun _ hok => nomatch hok
  · dsimp only
    cases Tlv.decode body with
    | error e => exact .pairing _ _ (happart setup peers) rfl hnone hnone fun _ hok => nomatch hok
    | ok fields =>
      have hanswer : ∀ answer : Answer,
          (Except.ok ⟨body, .pairing, false, false⟩ : Except Error Answer) = .ok answer →
          answer.activate = false ∧ answer.last = false := by
        intro answer hok
        cases hok
        exact ⟨rfl, rfl⟩
      dsimp only
      split_ifs
      · cases out.saved with
        | error e =>
          exact .pairing _ _ (happart setup peers) rfl hnone hnone fun _ hok => nomatch hok
        | ok u => exact .pairing _ _ (happart setup peers) rfl hnone hnone hanswer
      · exact .pairing _ _ (happart setup peers) rfl hnone hnone hanswer

theorem pairVerify_dispatches (s : Session) (request : Request) (out : Outcomes)
    (hnone : s.verified = none) : s.Dispatches (s.pairVerify setting request out) := by
  unfold pairVerify
  split_ifs
  · rcases s.verify.finish setting.crypto request.body s.peers with ⟨verify, e | ⟨body, keys⟩⟩
    · exact .pairing _ _ ⟨rfl, rfl, rfl, rfl, rfl, rfl⟩ rfl hnone hnone fun _ hok => nomatch hok
    · exact .verified _ _ ⟨rfl, rfl, rfl, rfl, rfl, rfl⟩ rfl hnone rfl rfl rfl
  · rcases s.verify.start setting.crypto out.entropy request.body setting.identity with
      ⟨verify, e | body⟩
    · exact .pairing _ _ ⟨rfl, rfl, rfl, rfl, rfl, rfl⟩ rfl hnone hnone fun _ hok => nomatch hok
    · refine .pairing _ _ ⟨rfl, rfl, rfl, rfl, rfl, rfl⟩ rfl hnone hnone ?_
      intro answer hok
      cases hok
      exact ⟨rfl, rfl⟩

theorem authSetup_dispatches (s : Session) (request : Request) (out : Outcomes)
    (hsome : s.verified.isSome) : s.Dispatches (s.authSetup request out) := by
  unfold authSetup
  cases out.authSetup request.body with
  | error e => exact .aside _ (plain_error _)
  | ok body => exact .authenticated _ _ ⟨rfl, rfl, rfl, rfl, rfl, rfl⟩ rfl hsome rfl rfl

theorem Routed.dispatches {s : Session} {result : Dispatched} (h : s.Routed result)
    (hauthenticated : s.authenticated = true) (route : Route) :
    s.Dispatches (Session.enter route result) :=
  .acted _ _ _ hauthenticated (h.enter route) h.plain

theorem route_dispatches (s : Session) (h : s.Sound) (request : Request) (out : Outcomes) :
    s.Dispatches (s.route setting request out) := by
  unfold route
  split_ifs with hsetup hverify hauth hinfo hoptions hSetup hrecord hfeedback hcommand hteardown
  · exact pairSetup_dispatches setting s request out (Option.isNone_iff_eq_none.mp hsetup.2.2)
  · exact pairVerify_dispatches setting s request out (Option.isNone_iff_eq_none.mp hverify.2.2)
  · exact authSetup_dispatches s request out hauth.2.2.1
  · cases setting.capabilities with
    | error e => exact .aside _ (plain_error _)
    | ok body => exact .aside _ (plain_ok rfl)
  · exact .aside _ (plain_ok rfl)
  · exact (setupRoute_routed setting s h hSetup.2 request out).dispatches hSetup.2 .setup
  · exact (record_routed s h hrecord.2.1).dispatches hrecord.2.1 .record
  · exact (feedback_routed s h hfeedback.2.2 out).dispatches hfeedback.2.2 .feedback
  · exact (command_routed setting s h hcommand.2.2 request).dispatches hcommand.2.2 .command
  · exact (teardown_routed setting s h hteardown.2 request).dispatches hteardown.2 .teardown
  · exact .aside _ (plain_error _)

theorem publish_sound {s : Session} (h : s.Sound) : s.publish.Sound := by
  refine ⟨h.slots, h.setup, h.screen, h.bounded, h.distinct, ?_, h.verified⟩
  intro hfalse
  have hidle := h.idle hfalse
  refine ⟨hidle.tasks, hidle.audio, hidle.sessionSetup, hidle.screenStarted, hidle.active, ?_⟩
  simp only [publish, hidle.information, hidle.audio, List.map_nil]

/-- The effects that one request may have. -/
inductive Shape (s : Session) : List Effect → Prop where
  | none : Shape s []
  | acting (effects : List Effect) (hauthenticated : s.authenticated = true)
      (h : ∀ e ∈ effects, e.inSession) : Shape s effects
  | authenticated (h : s.verified.isSome) : Shape s [.authenticated]
  | pairing (h : s.verified = none) : Shape s [.pairing]
  | verified (h : s.verified = none) : Shape s [.pairing, .verified]

/-- What holds of the answer to any request. -/
structure Answered (s : Session) (result : Dispatched) : Prop where
  sound : ∀ answer, result.2.2 = .ok answer → result.1.Sound
  slots : result.1.slots.Nodup
  tasks : result.1.tasks = s.tasks ++ spawned result.2.1
  connections : result.1.connections = live s.connections result.2.1
  fitting : Fitting s.connections result.2.1
  shape : s.Shape result.2.1
  verified : s.verified.isSome → result.1.verified = s.verified
  marked : result.1.authenticated = true → s.authenticated = true ∨ .authenticated ∈ result.2.1
  activate : ∀ answer, result.2.2 = .ok answer → answer.activate = true →
    s.verified = none ∧ result.1.verified.isSome ∧ result.2.1 = [.pairing, .verified] ∧
      answer.last = false
  unverified : ∀ answer, result.2.2 = .ok answer → answer.activate = false → s.verified = none →
    result.1.verified = none ∧ .verified ∉ result.2.1

theorem Dispatches.answered {s : Session} {result : Dispatched} (h : s.Dispatches result)
    (hsound : s.Sound) : s.Answered result := by
  have hidle : s.verified = none → s.authenticated = false := by
    intro hnone
    rw [Bool.eq_false_iff]
    intro htrue
    have hsome := hsound.verified htrue
    rw [hnone] at hsome
    exact absurd hsome (by decide)
  have hnever : s.verified.isSome → s.verified = none → False := by
    intro hsome hnone
    rw [hnone] at hsome
    exact absurd hsome (by decide)
  cases h with
  | acted s' effects result hauthenticated hrouted hplain =>
    have hsome := hsound.verified hauthenticated
    refine ⟨hrouted.sound, hrouted.slots, hrouted.acted.tasks, hrouted.acted.connections,
      hrouted.acted.fitting, .acting effects hauthenticated hrouted.acted.inSession, fun _ => hrouted.acted.verified,
      fun _ => Or.inl hauthenticated, ?_, ?_⟩
    · intro answer hok hactivate
      rw [hplain answer hok] at hactivate
      exact absurd hactivate Bool.false_ne_true
    · intro answer _ _ hnone
      exact (hnever hsome hnone).elim
  | pairing s' result hapart hauthenticated hnone hverified hplain =>
    have hfalse := hidle hnone
    have hsound' : s'.Sound := by
      apply hapart.sound hsound
      · intro htrue
        rw [hauthenticated, hfalse] at htrue
        exact absurd htrue Bool.false_ne_true
      · exact fun _ => hfalse
    refine ⟨fun _ _ => hsound', hsound'.slots, hapart.tasks.trans (List.append_nil _).symm,
      hapart.connections, ⟨trivial, trivial⟩, .pairing hnone, fun hsome => (hnever hsome hnone).elim,
      fun htrue => Or.inl (hauthenticated ▸ htrue), ?_, ?_⟩
    · intro answer hok hactivate
      rw [(hplain answer hok).1] at hactivate
      exact absurd hactivate Bool.false_ne_true
    · intro _ _ _ _
      exact ⟨hverified, by simp⟩
  | verified s' answer hapart hauthenticated hnone hverified hactivate hlast =>
    have hfalse := hidle hnone
    have hsound' : s'.Sound := hapart.sound hsound (fun _ => hverified) fun _ => hfalse
    refine ⟨fun _ _ => hsound', hsound'.slots, hapart.tasks.trans (List.append_nil _).symm,
      hapart.connections, ⟨trivial, trivial, trivial⟩, .verified hnone, fun hsome => (hnever hsome hnone).elim,
      fun htrue => Or.inl (hauthenticated ▸ htrue), ?_, ?_⟩
    · intro other hok _
      cases hok
      exact ⟨hnone, hverified, rfl, hlast⟩
    · intro other hok hplain _
      cases hok
      rw [hactivate] at hplain
      exact absurd hplain.symm Bool.false_ne_true
  | authenticated s' answer hapart hauthenticated hsome hverified hplain =>
    have hsound' : s'.Sound := by
      apply hapart.sound hsound
      · intro _
        rw [hverified]
        exact hsome
      · intro hfalse
        exact absurd (hauthenticated.symm.trans hfalse) (by decide)
    refine ⟨fun _ _ => hsound', hsound'.slots, hapart.tasks.trans (List.append_nil _).symm,
      hapart.connections, ⟨trivial, trivial⟩, .authenticated hsome, fun _ => hverified, fun _ => Or.inr (List.mem_singleton_self _), ?_, ?_⟩
    · intro other hok hactivate
      cases hok
      rw [hplain] at hactivate
      exact absurd hactivate Bool.false_ne_true
    · intro other _ _ hnone
      exact (hnever hsome hnone).elim
  | aside result hplain =>
    refine ⟨fun _ _ => hsound, hsound.slots, (List.append_nil _).symm, rfl, trivial, .none,
      fun _ => rfl, Or.inl, ?_, ?_⟩
    · intro answer hok hactivate
      rw [hplain answer hok] at hactivate
      exact absurd hactivate Bool.false_ne_true
    · intro _ _ _ hnone
      exact ⟨hnone, List.not_mem_nil⟩

theorem dispatch_answered (s : Session) (h : s.Sound) (request : Request) (out : Outcomes) :
    s.Answered (s.dispatch setting request out) := by
  have hroute := (route_dispatches setting s h request out).answered h
  unfold dispatch
  rcases hresult : s.route setting request out with ⟨s', effects, e | answer⟩
  · rw [hresult] at hroute
    exact hroute
  · rw [hresult] at hroute
    dsimp only
    split_ifs
    · exact hroute
    · refine ⟨?_, hroute.slots, hroute.tasks, hroute.connections, hroute.fitting, hroute.shape,
        hroute.verified, hroute.marked, hroute.activate, hroute.unverified⟩
      intro other hok
      exact publish_sound (hroute.sound other hok)

/-- Once verified, the pairing routes are refused and change nothing. -/
theorem pairing_refused {s : Session} (hverified : s.verified.isSome) {request : Request}
    (hmethod : request.method = "POST")
    (htarget : request.target = "/pair-setup" ∨ request.target = "/pair-verify")
    (out : Outcomes) : s.dispatch setting request out = (s, [], .error .unsupported) := by
  have hnone : ¬s.verified.isNone := by
    rw [Option.isNone_iff_eq_none]
    intro hnone
    rw [hnone] at hverified
    exact absurd hverified (by decide)
  have hroute : s.route setting request out = (s, [], .error .unsupported) := by
    unfold route
    rcases htarget with htarget | htarget
    · simp [hmethod, htarget, hnone]
    · simp [hmethod, htarget, hnone]
  unfold dispatch
  rw [hroute]

/-! ## Commands and tasks -/

theorem setGain_connections {connection : UInt64} {gain : Option ℚ} {streams next : List Stream}
    (h : setGain connection gain streams = .ok next) :
    next.map Stream.connection = streams.map Stream.connection := by
  induction streams generalizing next with
  | nil =>
    cases h
    rfl
  | cons stream streams ih =>
    unfold setGain at h
    split_ifs at h with hsame
    · obtain ⟨changed, hchanged, hnext⟩ := bind_eq_ok.mp h
      cases hnext
      have hkept : changed.connection = stream.connection := by
        unfold Stream.setGain at hchanged
        cases gain with
        | none => exact nomatch hchanged
        | some gain =>
          dsimp only at hchanged
          split_ifs at hchanged
          cases hchanged
          rfl
      rw [List.map_cons, List.map_cons, hkept]
    · obtain ⟨rest, hrest, hnext⟩ := bind_eq_ok.mp h
      cases hnext
      rw [List.map_cons, List.map_cons, ih hrest]

/-- A step that only touches the streams it finds keeps the invariant. -/
theorem sound_audio {s : Session} (h : s.Sound) {audio : List Stream} {muted : Bool}
    {source : Option String}
    (hconnections : audio.map Stream.connection = s.audio.map Stream.connection) :
    { s with audio, microphoneMuted := muted, microphoneSource := source : Session }.Sound := by
  have hlength : audio.length = s.audio.length := by
    simpa using congrArg List.length hconnections
  refine ⟨h.slots, h.setup, h.screen, ?_, ?_, ?_, h.verified⟩
  · show audio.length ≤ 4
    rw [hlength]
    exact h.bounded
  · show (audio.map Stream.connection).Nodup
    rw [hconnections]
    exact h.distinct
  · intro hfalse
    have hidle := h.idle hfalse
    refine ⟨hidle.tasks, ?_, hidle.sessionSetup, hidle.screenStarted, hidle.active,
      hidle.information⟩
    rw [hidle.audio] at hlength
    exact List.length_eq_zero_iff.mp hlength

/-- What a command or a turn of a stream's task leaves alone. -/
structure Beside (s s' : Session) : Prop where
  tasks : s'.tasks = s.tasks
  verified : s'.verified = s.verified
  authenticated : s'.authenticated = s.authenticated
  connections : s'.connections = s.connections

theorem onCommand_beside {s s' : Session} (h : s.Sound) {command : Command}
    (hok : s.onCommand command = .ok s') : s'.Sound ∧ s.Beside s' := by
  cases command with
  | audioGain connection gain =>
    obtain ⟨audio, haudio, hnext⟩ := bind_eq_ok.mp hok
    cases hnext
    have hconnections := setGain_connections haudio
    exact ⟨sound_audio h hconnections, rfl, rfl, rfl, hconnections⟩
  | microphoneMute muted =>
    cases hok
    have hconnections : (s.audio.map fun stream => stream.setMicrophoneMuted muted).map
        Stream.connection = s.audio.map Stream.connection := by
      simp [Stream.setMicrophoneMuted, Function.comp_def]
    exact ⟨sound_audio h hconnections, rfl, rfl, rfl, hconnections⟩
  | microphoneSource source =>
    cases hok
    have hconnections : (s.audio.map fun stream => stream.setMicrophoneSource source).map
        Stream.connection = s.audio.map Stream.connection := by
      simp [Stream.setMicrophoneSource, Function.comp_def]
    exact ⟨sound_audio h hconnections, rfl, rfl, rfl, hconnections⟩
  | other queued =>
    have hsame : s.onCommand (.other queued) = .ok s' → s' = s := by
      simp only [onCommand]
      split
      · exact fun hnext => nomatch hnext
      · exact fun hnext => (Except.ok.inj hnext).symm
    rw [hsame hok]
    exact ⟨h, rfl, rfl, rfl, rfl⟩

theorem wake_connection (crypto : Crypto) (stream : Stream) (event : Stream.Wake) :
    (stream.wake crypto event).1.connection = stream.connection := by
  unfold Stream.wake
  split_ifs
  · rfl
  · cases event with
    | failed e => rfl
    | policy device =>
      cases stream.microphone with
      | none => rfl
      | some mic =>
        dsimp only
        cases stream.onPolicy mic device with
        | error e => rfl
        | ok mic => rfl
    | sample bytes sent =>
      cases stream.microphone with
      | none => rfl
      | some mic =>
        dsimp only
        split_ifs
        · rcases mic.send crypto bytes sent with ⟨mic', packets, e | u⟩
          · rfl
          · rfl
        · rfl
    | packet sample playback device =>
      cases playback with
      | error e => rfl
      | ok u =>
        dsimp only
        cases stream.microphone with
        | none => rfl
        | some mic =>
          dsimp only
          cases mic.active (stream.policy.gain > 0 && !stream.policy.muted) device with
          | error e => rfl
          | ok mic => rfl

/-- A session that is not authenticated has no stream to wake. -/
theorem wake_idle {s : Session} (h : s.Sound) (hfalse : s.authenticated = false)
    (connection : UInt64) (event : Stream.Wake) :
    s.wake setting connection event = (s, []) := by
  unfold wake
  rw [(h.idle hfalse).audio]
  rfl

theorem wake_beside {s : Session} (h : s.Sound) (connection : UInt64) (event : Stream.Wake) :
    (s.wake setting connection event).1.Sound ∧ s.Beside (s.wake setting connection event).1 ∧
      ∀ e ∈ (s.wake setting connection event).2, ∃ packet, e = .sealed connection packet := by
  unfold wake
  cases hfind : s.audio.find? fun stream => stream.connection = connection with
  | none => exact ⟨h, ⟨rfl, rfl, rfl, rfl⟩, fun _ he => nomatch he⟩
  | some stream =>
    have hconnection : stream.connection = connection := by
      simpa using List.find?_some hfind
    have hconnections : (s.audio.map fun other =>
        if other.connection = connection then (stream.wake setting.crypto event).1
        else other).map Stream.connection = s.audio.map Stream.connection := by
      rw [List.map_map]
      apply List.map_congr_left
      intro other _
      show (if other.connection = connection then (stream.wake setting.crypto event).1
        else other).connection = other.connection
      split_ifs with hsame
      · rw [wake_connection, hconnection, hsame]
      · rfl
    refine ⟨sound_audio h hconnections, ⟨rfl, rfl, rfl, hconnections⟩, ?_⟩
    intro e he
    obtain ⟨packet, -, rfl⟩ := List.mem_map.mp he
    exact ⟨packet, rfl⟩

end Session
end ProjectArgo.CarPlay
