import ProjectArgo.Library.Ends
import ProjectArgo.Library.Run
import ProjectArgo.CarPlay.ReceiverSession

/-!
# Nonces of microphone packets

A microphone seals under consecutive nonces, and its key belongs to the
connection of its stream. A connection that is set up again gets the same key
and starts from the first nonce, so two packets of a session share key and
nonce only if a microphone is opened where an earlier one has already sealed.
-/
namespace ProjectArgo.CarPlay

open Library.Bytes Library.Run
open Library.Ends (bind_eq_ok)

/-- What must not happen twice. -/
def Sealed.use (packet : Sealed) : List UInt8 × List UInt8 := (packet.key, packet.nonce)

theorem sealNonce_injective {m n : ℕ} (hm : m < 2 ^ 64) (hn : n < 2 ^ 64)
    (h : sealNonce m = sealNonce n) : m = n :=
  littleEndian_injective hm hn (List.append_cancel_left h)

theorem sealPcm_use {crypto : Crypto} {key payload : List UInt8} {counter : ℕ} {sequence : UInt16}
    {timestamp : UInt32} {packet : Sealed}
    (h : sealPcm crypto key counter sequence timestamp payload = .ok packet) :
    packet.use = (key, sealNonce counter) := by
  simp only [sealPcm, bind_eq_ok] at h
  obtain ⟨_, -, sealed, -, h⟩ := h
  cases h
  rfl

namespace Microphone

variable (crypto : Crypto)

/-- Key and nonce of the next packets. -/
def uses (mic : Microphone) (n : ℕ) : List (List UInt8 × List UInt8) :=
  (List.range' mic.counter n).map fun k => (mic.key, sealNonce k)

theorem uses_nodup (mic : Microphone) {n : ℕ} (h : mic.counter + n ≤ 2 ^ 64) :
    (mic.uses n).Nodup := by
  apply List.Nodup.map_on
  · intro j hj k hk hsame
    have hj := List.mem_range'_1.mp hj
    have hk := List.mem_range'_1.mp hk
    exact sealNonce_injective (by omega) (by omega) (Prod.mk.inj hsame).2
  · exact List.nodup_range'

/-- What a microphone sealed, and how far it has counted if it goes on. -/
structure Sent (mic : Microphone) (result : Microphone × List Sealed × Except Error Unit) :
    Prop where
  uses : result.2.1.map Sealed.use = mic.uses result.2.1.length
  bounded : mic.counter + result.2.1.length ≤ 2 ^ 64
  kept : result.2.2 = .ok () → result.1.key = mic.key ∧
    result.1.counter = mic.counter + result.2.1.length ∧ result.1.counter < 2 ^ 64

/-- A packet after which the microphone stops. -/
theorem sent_last {mic next : Microphone} {packet : Sealed} (hcounter : mic.counter < 2 ^ 64)
    (huse : packet.use = (mic.key, sealNonce mic.counter)) (e : Error) :
    mic.Sent (next, [packet], .error e) := by
  refine ⟨?_, hcounter, fun hok => nomatch hok⟩
  rw [List.map_singleton, huse]
  rfl

theorem sendPackets_sent (mic : Microphone) (hcounter : mic.counter < 2 ^ 64)
    (sent : ℕ → Except Error Unit) : mic.Sent (mic.sendPackets crypto sent) := by
  fun_induction sendPackets crypto mic sent with
  | case1 mic sent hshort => exact ⟨rfl, hcounter.le, fun _ => ⟨rfl, rfl, hcounter⟩⟩
  | case2 mic sent hlong payload mic' e hseal =>
    exact ⟨rfl, hcounter.le, fun hok => nomatch hok⟩
  | case3 mic sent hlong payload mic' packet hseal hlast =>
    exact sent_last hcounter (sealPcm_use hseal) _
  | case4 mic sent hlong payload mic' packet hseal hnext mic'' e hsent =>
    exact sent_last hcounter (sealPcm_use hseal) _
  | case5 mic sent hlong payload mic' packet hseal hnext mic'' hsent last packets result hrest ih =>
    have hmore := ih (show mic.counter + 1 < 2 ^ 64 by omega)
    rw [hrest] at hmore
    refine ⟨?_, ?_, ?_⟩
    · rw [List.map_cons, sealPcm_use hseal, hmore.uses]
      simp [uses, mic'', mic', List.range'_succ]
    · have hbounded : mic.counter + 1 + packets.length ≤ 2 ^ 64 := hmore.bounded
      rw [List.length_cons]
      omega
    · intro hok
      obtain ⟨hkey, hcount, hless⟩ := hmore.kept hok
      refine ⟨hkey, ?_, hless⟩
      calc
        last.counter = mic.counter + 1 + packets.length := hcount
        _ = mic.counter + (packet :: packets).length := by
          rw [List.length_cons]
          omega

theorem send_sent (mic : Microphone) (hcounter : mic.counter < 2 ^ 64) (bytes : List UInt8)
    (sent : ℕ → Except Error Unit) : mic.Sent (mic.send crypto bytes sent) := by
  unfold send
  split_ifs
  · exact ⟨rfl, hcounter.le, fun hok => nomatch hok⟩
  · have h := sendPackets_sent crypto { mic with pending := mic.pending ++ bytes } hcounter sent
    exact ⟨h.uses, h.bounded, h.kept⟩

/-- What stopping, starting and choosing a source leave alone. -/
def Same (mic mic' : Microphone) : Prop := mic'.key = mic.key ∧ mic'.counter = mic.counter

theorem active_same {mic mic' : Microphone} {running : Bool} {device : Except Error Unit}
    (h : mic.active running device = .ok mic') : mic.Same mic' := by
  unfold active at h
  by_cases hrunning : running = mic.running
  · rw [if_pos hrunning] at h
    cases h
    exact ⟨rfl, rfl⟩
  · rw [if_neg hrunning] at h
    cases device with
    | error e => exact nomatch h
    | ok u =>
      cases h
      exact ⟨rfl, rfl⟩

theorem selectSource_same {mic mic' : Microphone} {source : String} {device : Except Error Unit}
    (h : mic.selectSource source device = .ok mic') : mic.Same mic' := by
  unfold selectSource at h
  split_ifs at h
  · cases h
    exact ⟨rfl, rfl⟩
  · cases hactive : mic.active false device with
    | error e =>
      rw [hactive] at h
      exact nomatch h
    | ok stopped =>
      rw [hactive] at h
      cases h
      obtain ⟨hkey, hcounter⟩ := active_same hactive
      exact ⟨hkey, hcounter⟩

end Microphone

namespace Stream

variable (crypto : Crypto)

theorem onPolicy_same {s : Stream} {mic mic' : Microphone} {device : ℕ → Except Error Unit}
    (h : s.onPolicy mic device = .ok mic') : mic.Same mic' := by
  unfold onPolicy at h
  dsimp only at h
  cases hpolicy : s.policy.source with
  | none =>
    rw [hpolicy] at h
    exact Microphone.active_same h
  | some source =>
    rw [hpolicy] at h
    obtain ⟨chosen, hchosen, hactive⟩ := bind_eq_ok.mp h
    have hsource := Microphone.selectSource_same hchosen
    have hlast := Microphone.active_same hactive
    exact ⟨hlast.1.trans hsource.1, hlast.2.trans hsource.2⟩

/-- A turn of a stream seals with its microphone, which afterwards has counted what it sealed. -/
structure Turned (s : Stream) (result : Stream × List Sealed) : Prop where
  packets : result.2 = [] ∨ ∃ mic, s.microphone = some mic ∧
    result.2.map Sealed.use = mic.uses result.2.length ∧ mic.counter + result.2.length ≤ 2 ^ 64
  microphone : ∀ mic', result.1.microphone = some mic' → ∃ mic, s.microphone = some mic ∧
    mic'.key = mic.key ∧ mic'.counter = mic.counter + result.2.length ∧ mic'.counter < 2 ^ 64

theorem turned_silent {s next : Stream}
    (h : ∀ mic', next.microphone = some mic' → ∃ mic, s.microphone = some mic ∧ mic.Same mic')
    (hcounter : ∀ mic, s.microphone = some mic → mic.counter < 2 ^ 64) : s.Turned (next, []) := by
  refine ⟨Or.inl rfl, ?_⟩
  intro mic' hmic'
  obtain ⟨mic, hmic, hkey, hcount⟩ := h mic' hmic'
  exact ⟨mic, hmic, hkey, hcount, hcount ▸ hcounter mic hmic⟩

theorem wake_turned (s : Stream) (hcounter : ∀ mic, s.microphone = some mic → mic.counter < 2 ^ 64)
    (event : Wake) : s.Turned (s.wake crypto event) := by
  have hstay : ∀ next : Stream, next.microphone = s.microphone → s.Turned (next, []) := by
    intro next hnext
    apply turned_silent _ hcounter
    intro mic' hmic'
    exact ⟨mic', hnext ▸ hmic', rfl, rfl⟩
  have hfail : ∀ (next : Stream) e, s.Turned (next.fail e, []) :=
    fun next e => turned_silent (fun _ hmic' => nomatch hmic') hcounter
  unfold wake
  split_ifs
  · exact hstay s rfl
  · cases event with
    | failed e => exact hfail s e
    | policy device =>
      cases hmic : s.microphone with
      | none => exact hstay s rfl
      | some mic =>
        dsimp only
        cases hpolicy : s.onPolicy mic device with
        | error e => exact hfail s e
        | ok mic' =>
          apply turned_silent _ hcounter
          intro other hother
          cases hother
          exact ⟨mic, hmic, onPolicy_same hpolicy⟩
    | sample bytes sent =>
      cases hmic : s.microphone with
      | none => exact hstay s rfl
      | some mic =>
        dsimp only
        split_ifs
        · have hsent := mic.send_sent crypto (hcounter mic hmic) bytes sent
          rcases hsend : mic.send crypto bytes sent with ⟨mic', packets, e | u⟩
          · rw [hsend] at hsent
            exact ⟨Or.inr ⟨mic, hmic, hsent.uses, hsent.bounded⟩, fun _ hnone => nomatch hnone⟩
          · rw [hsend] at hsent
            refine ⟨Or.inr ⟨mic, hmic, hsent.uses, hsent.bounded⟩, ?_⟩
            intro other hother
            cases hother
            exact ⟨mic, hmic, hsent.kept rfl⟩
        · exact hstay s rfl
    | packet sample playback device =>
      cases playback with
      | error e => exact hfail _ e
      | ok u =>
        dsimp only
        cases hmic : s.microphone with
        | none => exact hstay _ hmic.symm
        | some mic =>
          dsimp only
          cases hactive : mic.active (s.policy.gain > 0 && !s.policy.muted) device with
          | error e => exact hfail _ e
          | ok mic' =>
            apply turned_silent _ hcounter
            intro other hother
            cases hother
            exact ⟨mic, hmic, Microphone.active_same hactive⟩

end Stream
theorem Microphone.open_new {format : AudioFormat} {options : CaptureOptions}
    {opened : Except Error Unit} {mic : Microphone}
    (h : Microphone.open format options opened = .ok mic) :
    mic.key = options.key ∧ mic.counter = 0 := by
  unfold Microphone.open at h
  by_cases hformat : format.codec ≠ .signedPcm16 ∨ format.channels ≠ 1 ∨ options.port = 0 ∨
      options.source = "" ∨ options.source.utf8ByteSize > 256
  · rw [if_pos hformat] at h
    exact nomatch h
  · rw [if_neg hformat] at h
    dsimp only at h
    by_cases hframes : (if options.framesPerPacket = 0 then format.sampleRate / 50
        else options.framesPerPacket) = 0 ∨
      (if options.framesPerPacket = 0 then format.sampleRate / 50
        else options.framesPerPacket) * 2 > 4000
    · rw [dif_pos hframes] at h
      exact nomatch h
    · rw [dif_neg hframes] at h
      cases opened with
      | error e => exact nomatch h
      | ok u =>
        cases h
        exact ⟨rfl, rfl⟩

namespace Session

variable (setting : Setting)

/-- The key of a microphone depends on the connection of its stream alone. -/
def microphoneKey (crypto : Crypto) (secret : List UInt8) (connection : UInt64) :
    Except Error (List UInt8) :=
  crypto.deriveKey secret s!"DataStream-Salt{connection.toNat}" "DataStream-Input-Encryption-Key"

/-- An entry that names a data port asks for a microphone. -/
def EntryAsks (value : Value) (connection : UInt64) : Prop :=
  ∃ fields, value.asDictionary = some fields ∧ connectionId fields = .ok connection ∧
    ((Value.get fields "dataPort").bind Value.asUnsignedInteger).getD 0 ≠ 0

/-- A request that sets up a microphone under a connection. -/
def Asks (request : Request) (connection : UInt64) : Prop :=
  request.method = "SETUP" ∧ ∃ fields streams value, setting.plist request.body = .ok fields ∧
    (Value.get fields "streams").bind Value.asArray = some streams ∧ value ∈ streams ∧
    EntryAsks value connection

structure NewMicrophone (s : Session) (asked : UInt64 → Prop) (connection : UInt64)
    (mic : Microphone) : Prop where
  asked : asked connection
  counter : mic.counter = 0
  key : ∃ keys, s.verified = some keys ∧
    microphoneKey setting.crypto keys.secret connection = .ok mic.key

/-- Streams are kept or closed as they are; a new one has a new microphone or none. -/
def Renews (s : Session) (asked : UInt64 → Prop) (s' : Session) : Prop :=
  ∀ stream ∈ s'.audio, stream ∈ s.audio ∨
    ∀ mic, stream.microphone = some mic → s.NewMicrophone setting asked stream.connection mic

def Quiet (effects : List Effect) : Prop := ∀ connection packet, .sealed connection packet ∉ effects

theorem Quiet.append {es fs : List Effect} (h : Quiet es) (h' : Quiet fs) : Quiet (es ++ fs) := by
  intro connection packet hmem
  rcases List.mem_append.mp hmem with hmem | hmem
  · exact h connection packet hmem
  · exact h' connection packet hmem

theorem renews_same {s s' : Session} {asked : UInt64 → Prop} (h : ∀ stream ∈ s'.audio, stream ∈ s.audio) :
    s.Renews setting asked s' := fun stream hstream => Or.inl (h stream hstream)

theorem captureOptions_some {s : Session} {secret : List UInt8} {fields : Dictionary} {kind : ℕ}
    {connection : UInt64} {format : AudioFormat} {options : CaptureOptions}
    (h : s.captureOptions setting secret fields kind connection format = .ok (some options)) :
    ((Value.get fields "dataPort").bind Value.asUnsignedInteger).getD 0 ≠ 0 ∧
      microphoneKey setting.crypto secret connection = .ok options.key := by
  unfold captureOptions at h
  dsimp only at h
  split_ifs at h with hport
  · cases h
  · simp only [bind_eq_ok] at h
    obtain ⟨source, -, key, hkey, -, -, -, -, h⟩ := h
    cases h
    exact ⟨hport, hkey⟩

theorem start_microphone {key : List UInt8} {connection : UInt64} {kind : ℕ}
    {format : AudioFormat} {category : String} {latencyMs : ℕ} {capture : Option CaptureOptions}
    {outcome : StreamOutcome} {stream : Stream} {mic : Microphone}
    (h : Stream.start key connection kind format category latencyMs capture outcome = .ok stream)
    (hmic : stream.microphone = some mic) :
    ∃ options, capture = some options ∧ mic.key = options.key ∧ mic.counter = 0 := by
  simp only [Stream.start, bind_eq_ok] at h
  obtain ⟨_, -, _, -, _, -, microphone, hopen, ports, -, h⟩ := h
  cases h
  obtain rfl : microphone = some mic := hmic
  cases capture with
  | none => cases hopen
  | some options =>
    unfold Microphone.openRequested at hopen
    dsimp only at hopen
    cases hopened : Microphone.open format options outcome.capture with
    | error e =>
      rw [hopened] at hopen
      cases hopen
    | ok opened =>
      rw [hopened] at hopen
      cases hopen
      exact ⟨options, rfl, Microphone.open_new hopened⟩

theorem setupStream_renews (s : Session) (value : Value) (screen : Except Error UInt16)
    (outcome : StreamOutcome) :
    s.Renews setting (EntryAsks value) (s.setupStream setting value screen outcome).1 ∧
      Quiet (s.setupStream setting value screen outcome).2.1 ∧
      (s.setupStream setting value screen outcome).1.verified = s.verified := by
  have hsame : s.Renews setting (EntryAsks value) s := renews_same setting fun _ hstream => hstream
  have hquiet : Quiet [] := fun _ _ hmem => by cases hmem
  unfold setupStream
  cases hentry : s.streamEntry setting value with
  | error e => exact ⟨hsame, hquiet, rfl⟩
  | ok entry =>
    obtain ⟨fields, kind, connection, secret, key⟩ := entry
    dsimp only
    split_ifs
    · exact ⟨hsame, hquiet, rfl⟩
    · cases screen with
      | error e => exact ⟨hsame, hquiet, rfl⟩
      | ok port =>
        refine ⟨hsame, ?_, rfl⟩
        intro _ _ hmem
        cases List.mem_singleton.mp hmem
    · cases haudio : s.audioStream setting secret key fields kind connection outcome with
      | error e => exact ⟨hsame, hquiet, rfl⟩
      | ok stream =>
        refine ⟨?_, ?_, rfl⟩
        · intro other hother
          rcases List.mem_append.mp hother with hother | hother
          · exact Or.inl hother
          · rw [List.mem_singleton.mp hother]
            right
            intro mic hmic
            have hconnection : stream.connection = connection := (audioStream_ok setting haudio).1
            simp only [streamEntry, bind_eq_ok] at hentry
            obtain ⟨dictionary, hdictionary, _, -, found, hfound, keys, hkeys, _, -, hentry⟩ := hentry
            cases hentry
            simp only [audioStream, bind_eq_ok] at haudio
            obtain ⟨_, -, _, -, _, -, _, -, _, -, capture, hcapture, _, -, hstart⟩ := haudio
            obtain ⟨options, rfl, hkey, hcounter⟩ := start_microphone hstart hmic
            obtain ⟨hport, hderive⟩ := captureOptions_some setting hcapture
            have hfields : value.asDictionary = some fields := by
              cases hvalue : value.asDictionary with
              | none =>
                rw [hvalue] at hdictionary
                cases hdictionary
              | some given =>
                rw [hvalue] at hdictionary
                cases hdictionary
                rfl
            have hverified : s.verified = some keys := by
              cases hvalue : s.verified with
              | none =>
                rw [hvalue] at hkeys
                cases hkeys
              | some given =>
                rw [hvalue] at hkeys
                cases hkeys
                rfl
            show s.NewMicrophone setting (EntryAsks value) stream.connection mic
            rw [hconnection]
            exact ⟨⟨fields, hfields, hfound, hport⟩, hcounter, keys, hverified, hkey ▸ hderive⟩
        · intro _ _ hmem
          cases List.mem_singleton.mp hmem
theorem Renews.mono {s s' : Session} {asked asked' : UInt64 → Prop} (h : s.Renews setting asked s')
    (hle : ∀ connection, asked connection → asked' connection) : s.Renews setting asked' s' := by
  intro stream hstream
  rcases h stream hstream with hold | hnew
  · exact Or.inl hold
  · right
    intro mic hmic
    obtain ⟨hasked, hcounter, hkey⟩ := hnew mic hmic
    exact ⟨hle _ hasked, hcounter, hkey⟩

theorem Renews.trans {s t u : Session} {asked : UInt64 → Prop} (h : s.Renews setting asked t)
    (hverified : t.verified = s.verified) (h' : t.Renews setting asked u) :
    s.Renews setting asked u := by
  intro stream hstream
  rcases h' stream hstream with hold | hnew
  · exact h stream hold
  · right
    intro mic hmic
    obtain ⟨hasked, hcounter, hkey⟩ := hnew mic hmic
    exact ⟨hasked, hcounter, hverified ▸ hkey⟩

theorem setupStreams_renews (s : Session) (out : Outcomes) (index : ℕ) (values : List Value) :
    s.Renews setting (fun connection => ∃ value ∈ values, EntryAsks value connection)
        (s.setupStreams setting out index values).1 ∧
      Quiet (s.setupStreams setting out index values).2.1 := by
  induction values generalizing s index with
  | nil => exact ⟨renews_same setting fun _ hstream => hstream, fun _ _ hmem => by cases hmem⟩
  | cons value values ih =>
    obtain ⟨hrenews, hquiet, hverified⟩ := setupStream_renews setting s value (out.screen index)
      (out.stream index)
    have hfirst : s.Renews setting
        (fun connection => ∃ other ∈ value :: values, EntryAsks other connection)
        (s.setupStream setting value (out.screen index) (out.stream index)).1 :=
      hrenews.mono setting fun connection hasks => ⟨value, List.mem_cons_self, hasks⟩
    unfold setupStreams
    rcases hstep : s.setupStream setting value (out.screen index) (out.stream index) with
      ⟨s', effects, e | reply⟩
    · rw [hstep] at hfirst hquiet
      exact ⟨hfirst, hquiet⟩
    · rw [hstep] at hfirst hquiet hverified
      obtain ⟨hrest, hquiet'⟩ := ih s' (index + 1)
      have hmore : s'.Renews setting
          (fun connection => ∃ other ∈ value :: values, EntryAsks other connection)
          (s'.setupStreams setting out (index + 1) values).1 := by
        refine hrest.mono setting fun connection hasked => ?_
        obtain ⟨other, hother, hasks⟩ := hasked
        exact ⟨other, List.mem_cons_of_mem _ hother, hasks⟩
      have hboth := hfirst.trans setting hverified hmore
      dsimp only
      rcases hnext : s'.setupStreams setting out (index + 1) values with ⟨s'', more, e | replies⟩
      · rw [hnext] at hboth hquiet'
        exact ⟨hboth, hquiet.append hquiet'⟩
      · rw [hnext] at hboth hquiet'
        exact ⟨hboth, hquiet.append hquiet'⟩

/-- A route that opens no stream and seals nothing. -/
def Keeps (s : Session) (result : Dispatched) : Prop :=
  (∀ stream ∈ result.1.audio, stream ∈ s.audio) ∧ Quiet result.2.1

theorem keeps_of {s : Session} {result : Dispatched} (haudio : result.1.audio = s.audio)
    (hquiet : Quiet result.2.1) : s.Keeps result :=
  ⟨fun _ hstream => haudio ▸ hstream, hquiet⟩

theorem quiet_nil : Quiet [] := fun _ _ hmem => nomatch hmem

theorem quiet_pairing : Quiet [.pairing] := by
  intro connection packet hmem
  exact nomatch List.mem_singleton.mp hmem

theorem Quiet.cons {effects : List Effect} (h : Quiet effects) {effect : Effect}
    (heffect : ∀ connection packet, effect ≠ .sealed connection packet) :
    Quiet (effect :: effects) := by
  intro connection packet hmem
  rcases List.mem_cons.mp hmem with hsame | hmem
  · exact heffect connection packet hsame.symm
  · exact h connection packet hmem

theorem pairSetup_keeps (s : Session) (request : Request) (out : Outcomes) :
    s.Keeps (s.pairSetup setting request out) := by
  unfold pairSetup
  rcases s.setup.handle setting.crypto out.entropy request.body setting.identity s.peers with
    ⟨setup, peers, e | body⟩
  · exact keeps_of rfl quiet_pairing
  · dsimp only
    cases Tlv.decode body with
    | error e => exact keeps_of rfl quiet_pairing
    | ok fields =>
      dsimp only
      split_ifs
      · cases out.saved with
        | error e => exact keeps_of rfl quiet_pairing
        | ok u => exact keeps_of rfl quiet_pairing
      · exact keeps_of rfl quiet_pairing

theorem pairVerify_keeps (s : Session) (request : Request) (out : Outcomes) :
    s.Keeps (s.pairVerify setting request out) := by
  unfold pairVerify
  split_ifs
  · rcases s.verify.finish setting.crypto request.body s.peers with ⟨verify, e | ⟨body, keys⟩⟩
    · exact keeps_of rfl quiet_pairing
    · apply keeps_of rfl
      apply Quiet.cons _ fun _ _ => Effect.noConfusion
      exact quiet_nil.cons fun _ _ => Effect.noConfusion
  · rcases s.verify.start setting.crypto out.entropy request.body setting.identity with
      ⟨verify, e | body⟩
    · exact keeps_of rfl quiet_pairing
    · exact keeps_of rfl quiet_pairing

theorem authSetup_keeps (s : Session) (request : Request) (out : Outcomes) :
    s.Keeps (s.authSetup request out) := by
  unfold authSetup
  cases out.authSetup request.body with
  | error e => exact keeps_of rfl quiet_nil
  | ok body => exact keeps_of rfl (quiet_nil.cons fun _ _ => Effect.noConfusion)

theorem feedback_keeps (s : Session) (out : Outcomes) : s.Keeps (s.feedback out) := by
  unfold feedback
  split_ifs
  · exact keeps_of rfl quiet_nil
  · cases out.report with
    | error e => exact keeps_of rfl quiet_nil
    | ok body => exact keeps_of rfl quiet_nil
  · exact keeps_of rfl quiet_nil

theorem command_keeps (s : Session) (request : Request) : s.Keeps (s.command setting request) := by
  unfold command
  cases setting.plist request.body with
  | error e => exact keeps_of rfl quiet_nil
  | ok fields => exact keeps_of rfl quiet_nil

theorem teardownStreams_keeps (s : Session) (values : List Value) :
    (∀ stream ∈ (s.teardownStreams values).1.audio, stream ∈ s.audio) ∧
      Quiet (s.teardownStreams values).2.1 := by
  induction values generalizing s with
  | nil => exact ⟨fun _ hstream => hstream, quiet_nil⟩
  | cons value values ih =>
    unfold teardownStreams
    cases teardownEntry value with
    | error e => exact ⟨fun _ hstream => hstream, quiet_nil⟩
    | ok selector =>
      obtain ⟨haudio, hquiet⟩ := ih (s.closeMatching selector).1
      refine ⟨fun stream hstream => List.mem_of_mem_filter (haudio stream hstream), ?_⟩
      apply Quiet.append _ hquiet
      intro connection packet hmem
      obtain ⟨stream, -, hsame⟩ := List.mem_map.mp hmem
      cases hsame

theorem teardown_keeps (s : Session) (request : Request) : s.Keeps (s.teardown setting request) := by
  unfold teardown
  split_ifs
  · exact keeps_of rfl quiet_nil
  · cases setting.plist request.body with
    | error e => exact keeps_of rfl quiet_nil
    | ok fields =>
      dsimp only
      cases (Value.get fields "streams").bind Value.asArray with
      | none => exact keeps_of rfl quiet_nil
      | some streams =>
        have hstreams := teardownStreams_keeps s streams
        dsimp only
        rcases htear : s.teardownStreams streams with ⟨s', effects, e | u⟩
        · rw [htear] at hstreams
          exact hstreams
        · rw [htear] at hstreams
          exact hstreams

theorem setupSession_keeps (s : Session) (fields : Dictionary) (out : Outcomes) :
    s.Keeps (s.setupSession setting fields out) := by
  have hspawned : ∀ port, Quiet [.spawned (.timing port)] :=
    fun port => quiet_nil.cons fun _ _ => Effect.noConfusion
  obtain ⟨information, hnamed⟩ := named_same s fields
  unfold setupSession
  split_ifs
  · exact keeps_of rfl quiet_nil
  · dsimp only
    rw [hnamed]
    cases timingPorts fields out with
    | error e => exact keeps_of rfl quiet_nil
    | ok ports =>
      dsimp only
      cases out.event with
      | error e => exact keeps_of rfl (hspawned ports.1)
      | ok eventPort =>
        dsimp only
        split_ifs
        · exact keeps_of rfl (hspawned ports.1)
        · have hboth : Quiet ([Effect.spawned (.timing ports.1)] ++ [.spawned .event]) :=
            (hspawned ports.1).append (quiet_nil.cons fun _ _ => Effect.noConfusion)
          cases setting.writer (.dictionary
              [("timingPort", Value.number ports.2.toNat), ("eventPort", Value.number eventPort.toNat)]) with
          | error e => exact keeps_of rfl hboth
          | ok body => exact keeps_of rfl hboth

theorem setupRoute_renews (s : Session) (request : Request) (out : Outcomes)
    (hmethod : request.method = "SETUP") :
    s.Renews setting (Asks setting request) (s.setupRoute setting request out).1 ∧
      Quiet (s.setupRoute setting request out).2.1 := by
  have hsame : s.Renews setting (Asks setting request) s := renews_same setting fun _ h => h
  unfold setupRoute
  cases hfields : setting.plist request.body with
  | error e => exact ⟨hsame, quiet_nil⟩
  | ok fields =>
    dsimp only
    cases hstreams : (Value.get fields "streams").bind Value.asArray with
    | none =>
      obtain ⟨haudio, hquiet⟩ := setupSession_keeps setting s fields out
      exact ⟨renews_same setting haudio, hquiet⟩
    | some streams =>
      dsimp only
      split_ifs
      · exact ⟨hsame, quiet_nil⟩
      · obtain ⟨hrenews, hquiet⟩ := setupStreams_renews setting s out 0 streams
        have hasks : s.Renews setting (Asks setting request)
            (s.setupStreams setting out 0 streams).1 :=
          hrenews.mono setting fun connection ⟨value, hvalue, hentry⟩ =>
            ⟨hmethod, fields, streams, value, hfields, hstreams, hvalue, hentry⟩
        rcases hsetup : s.setupStreams setting out 0 streams with ⟨s', effects, e | replies⟩
        · rw [hsetup] at hasks hquiet
          exact ⟨hasks, hquiet⟩
        · rw [hsetup] at hasks hquiet
          dsimp only
          cases setting.writer (.dictionary [("streams", .array replies)]) with
          | error e => exact ⟨hasks, hquiet⟩
          | ok body => exact ⟨hasks, hquiet⟩

/-- The only route that opens a microphone is SETUP with an entry that asks for it. -/
theorem dispatch_renews (s : Session) (request : Request) (out : Outcomes) :
    s.Renews setting (Asks setting request) (s.dispatch setting request out).1 ∧
      Quiet (s.dispatch setting request out).2.1 := by
  have hkeeps : ∀ result, s.Keeps result →
      s.Renews setting (Asks setting request) result.1 ∧ Quiet result.2.1 :=
    fun result h => ⟨renews_same setting h.1, h.2⟩
  have henter : ∀ route result, s.Renews setting (Asks setting request) result.1 ∧ Quiet result.2.1 →
      s.Renews setting (Asks setting request) (enter route result).1 ∧
        Quiet (enter route result).2.1 :=
    fun route result h => ⟨h.1, h.2.cons fun _ _ => Effect.noConfusion⟩
  have hroute : s.Renews setting (Asks setting request) (s.route setting request out).1 ∧
      Quiet (s.route setting request out).2.1 := by
    unfold route
    split_ifs with hpair hverify hauth hinfo hoptions hsetup hrecord hfeedback hcommand hteardown
    · exact hkeeps _ (pairSetup_keeps setting s request out)
    · exact hkeeps _ (pairVerify_keeps setting s request out)
    · exact hkeeps _ (authSetup_keeps s request out)
    · cases setting.capabilities with
      | error e => exact hkeeps _ (keeps_of rfl quiet_nil)
      | ok body => exact hkeeps _ (keeps_of rfl quiet_nil)
    · exact hkeeps _ (keeps_of rfl quiet_nil)
    · apply henter
      exact setupRoute_renews setting s request out hsetup.1
    · exact henter _ _ (hkeeps _ (keeps_of rfl quiet_nil))
    · exact henter _ _ (hkeeps _ (feedback_keeps s out))
    · exact henter _ _ (hkeeps _ (command_keeps setting s request))
    · exact henter _ _ (hkeeps _ (teardown_keeps setting s request))
    · exact hkeeps _ (keeps_of rfl quiet_nil)
  unfold dispatch
  rcases hresult : s.route setting request out with ⟨s', effects, e | answer⟩
  · rw [hresult] at hroute
    exact hroute
  · rw [hresult] at hroute
    dsimp only
    split_ifs
    · exact hroute
    · exact hroute
/-! ## Runs of a session -/

inductive Input where
  | request (request : Request) (out : Outcomes)
  | command (command : Command)
  | wake (connection : UInt64) (event : Stream.Wake)

/-- A session ends with the first request or command that fails, or with the last answer. -/
def turn : Option Session → Input → Option Session × List Effect
  | none, _ => (none, [])
  | some s, .request request out =>
    match s.dispatch setting request out with
    | (_, effects, .error _) => (none, effects)
    | (s, effects, .ok answer) => (if answer.last then none else some s, effects)
  | some s, .command command =>
    match s.onCommand command with
    | .error _ => (none, [])
    | .ok s => (some s, [])
  | some s, .wake connection event =>
    let (s, effects) := s.wake setting connection event
    (some s, effects)

/-- The effects of a run in order. -/
def acted (history : List (Input × List Effect)) : List Effect := history.flatMap Prod.snd

theorem acted_concat (history : List (Input × List Effect)) (input : Input)
    (effects : List Effect) : acted (history ++ [(input, effects)]) = acted history ++ effects := by
  simp [acted]

def sealedUse : Effect → Option (List UInt8 × List UInt8)
  | .sealed _ packet => some packet.use
  | _ => none

/-- Key and nonce of every packet that was sealed. -/
def uses (effects : List Effect) : List (List UInt8 × List UInt8) := effects.filterMap sealedUse

theorem uses_append (es fs : List Effect) : uses (es ++ fs) = uses es ++ uses fs :=
  List.filterMap_append

theorem uses_sealed (connection : UInt64) (packets : List Sealed) :
    uses (packets.map (.sealed connection)) = packets.map Sealed.use := by
  simp [uses, List.filterMap_map, Function.comp_def, sealedUse]

theorem mem_uses {effects : List Effect} {use : List UInt8 × List UInt8} (h : use ∈ uses effects) :
    ∃ connection packet, .sealed connection packet ∈ effects ∧ packet.use = use := by
  obtain ⟨effect, hmem, hsome⟩ := List.mem_filterMap.mp h
  cases effect with
  | sealed connection packet => exact ⟨connection, packet, hmem, Option.some.inj hsome⟩
  | _ => exact nomatch hsome

theorem Quiet.uses {effects : List Effect} (h : Quiet effects) : uses effects = [] := by
  apply List.filterMap_eq_nil_iff.mpr
  intro effect hmem
  cases effect with
  | sealed connection packet => exact absurd hmem (h connection packet)
  | _ => rfl

/-- A microphone is asked for only under connections that have not sealed yet. -/
def Unused (before : List (Input × List Effect)) : Input → Prop
  | .request request _ => ∀ connection, Asks setting request connection →
    ∀ packet, .sealed connection packet ∉ acted before
  | _ => True

/-- Keys of different connections differ, as the derivation is injective in its salt. -/
def SaltsDistinguish (crypto : Crypto) : Prop :=
  ∀ secret key connection repeated, microphoneKey crypto secret connection = .ok key →
    microphoneKey crypto secret repeated = .ok key →
    s!"DataStream-Salt{connection.toNat}" = s!"DataStream-Salt{repeated.toNat}"

theorem connection_of_salt {connection repeated : UInt64}
    (h : s!"DataStream-Salt{connection.toNat}" = s!"DataStream-Salt{repeated.toNat}") :
    connection = repeated := by
  have hrepr : connection.toNat.repr = repeated.toNat.repr :=
    (String.append_right_inj "DataStream-Salt").mp h
  have hdigits := congrArg String.toList hrepr
  rw [Nat.toList_repr, Nat.toList_repr] at hdigits
  apply UInt64.toNat_inj.mp
  rw [← @Nat.ofDigitChars_ten_toDigits connection.toNat, hdigits, Nat.ofDigitChars_ten_toDigits]

/-- What a running session knows of the packets that were sealed before. -/
structure Accounted (s : Session) (log : List Effect) : Prop where
  sound : s.Sound
  packets : ∀ connection packet, .sealed connection packet ∈ log →
    ∃ keys, s.verified = some keys ∧
      microphoneKey setting.crypto keys.secret connection = .ok packet.key
  keys : ∀ stream ∈ s.audio, ∀ mic, stream.microphone = some mic →
    ∃ keys, s.verified = some keys ∧
      microphoneKey setting.crypto keys.secret stream.connection = .ok mic.key
  counters : ∀ stream ∈ s.audio, ∀ mic, stream.microphone = some mic → mic.counter < 2 ^ 64 ∧
    ∀ packet, .sealed stream.connection packet ∈ log → ∃ k < mic.counter, packet.nonce = sealNonce k

theorem Accounted.quiet {s : Session} {log effects : List Effect} (h : s.Accounted setting log)
    (hquiet : Quiet effects) : s.Accounted setting (log ++ effects) := by
  have hmem : ∀ connection packet, .sealed connection packet ∈ log ++ effects →
      .sealed connection packet ∈ log := by
    intro connection packet hmem
    exact (List.mem_append.mp hmem).resolve_right (hquiet connection packet)
  refine ⟨h.sound, fun connection packet hin => h.packets connection packet (hmem _ _ hin), h.keys, ?_⟩
  intro stream hstream mic hmic
  obtain ⟨hcounter, hnonces⟩ := h.counters stream hstream mic hmic
  exact ⟨hcounter, fun packet hin => hnonces packet (hmem _ _ hin)⟩

/-- A request keeps the account if the microphones that it asks for are under unused connections. -/
theorem Accounted.dispatched {s : Session} {log : List Effect} (h : s.Accounted setting log)
    {request : Request} {out : Outcomes} {answer : Answer}
    (hok : (s.dispatch setting request out).2.2 = .ok answer)
    (hunused : ∀ connection, Asks setting request connection →
      ∀ packet, .sealed connection packet ∉ log) :
    (s.dispatch setting request out).1.Accounted setting
      (log ++ (s.dispatch setting request out).2.1) := by
  obtain ⟨hrenews, hquiet⟩ := dispatch_renews setting s request out
  have hanswered := dispatch_answered setting s h.sound request out
  have hverified : ∀ keys, s.verified = some keys →
      (s.dispatch setting request out).1.verified = some keys := by
    intro keys hkeys
    rw [hanswered.verified (by rw [hkeys]; rfl), hkeys]
  apply Accounted.quiet _ _ hquiet
  refine ⟨hanswered.sound answer hok, ?_, ?_, ?_⟩
  · intro connection packet hmem
    obtain ⟨keys, hkeys, hkey⟩ := h.packets connection packet hmem
    exact ⟨keys, hverified keys hkeys, hkey⟩
  · intro stream hstream mic hmic
    rcases hrenews stream hstream with hold | hnew
    · obtain ⟨keys, hkeys, hkey⟩ := h.keys stream hold mic hmic
      exact ⟨keys, hverified keys hkeys, hkey⟩
    · obtain ⟨-, -, keys, hkeys, hkey⟩ := hnew mic hmic
      exact ⟨keys, hverified keys hkeys, hkey⟩
  · intro stream hstream mic hmic
    rcases hrenews stream hstream with hold | hnew
    · exact h.counters stream hold mic hmic
    · obtain ⟨hasks, hcounter, -⟩ := hnew mic hmic
      rw [hcounter]
      refine ⟨by norm_num, ?_⟩
      intro packet hmem
      exact absurd hmem (hunused _ hasks packet)
/-- Streams that only changed their policy. -/
theorem Accounted.policies {s s' : Session} {log : List Effect} (h : s.Accounted setting log)
    (hsound : s'.Sound) (hverified : s'.verified = s.verified)
    (haudio : ∀ stream ∈ s'.audio, ∃ old ∈ s.audio, old.connection = stream.connection ∧
      old.microphone = stream.microphone) : s'.Accounted setting log := by
  refine ⟨hsound, hverified ▸ h.packets, ?_, ?_⟩
  · intro stream hstream mic hmic
    obtain ⟨old, hold, hconnection, hsame⟩ := haudio stream hstream
    rw [hverified, ← hconnection]
    exact h.keys old hold mic (hsame.trans hmic)
  · intro stream hstream mic hmic
    obtain ⟨old, hold, hconnection, hsame⟩ := haudio stream hstream
    rw [← hconnection]
    exact h.counters old hold mic (hsame.trans hmic)

theorem setGain_policies {connection : UInt64} {gain : Option ℚ} {streams next : List Stream}
    (h : setGain connection gain streams = .ok next) :
    ∀ stream ∈ next, ∃ old ∈ streams, old.connection = stream.connection ∧
      old.microphone = stream.microphone := by
  induction streams generalizing next with
  | nil =>
    cases h
    exact fun _ hstream => by cases hstream
  | cons first streams ih =>
    unfold setGain at h
    split_ifs at h
    · obtain ⟨changed, hchanged, hnext⟩ := bind_eq_ok.mp h
      cases hnext
      intro stream hstream
      rcases List.mem_cons.mp hstream with rfl | hstream
      · refine ⟨first, List.mem_cons_self, ?_⟩
        unfold Stream.setGain at hchanged
        cases gain with
        | none => cases hchanged
        | some gain =>
          dsimp only at hchanged
          split_ifs at hchanged
          cases hchanged
          exact ⟨rfl, rfl⟩
      · exact ⟨stream, List.mem_cons_of_mem _ hstream, rfl, rfl⟩
    · obtain ⟨rest, hrest, hnext⟩ := bind_eq_ok.mp h
      cases hnext
      intro stream hstream
      rcases List.mem_cons.mp hstream with rfl | hstream
      · exact ⟨stream, List.mem_cons_self, rfl, rfl⟩
      · obtain ⟨old, hold, hsame⟩ := ih hrest stream hstream
        exact ⟨old, List.mem_cons_of_mem _ hold, hsame⟩

theorem Accounted.commanded {s s' : Session} {log : List Effect} (h : s.Accounted setting log)
    {command : Command} (hok : s.onCommand command = .ok s') : s'.Accounted setting log := by
  obtain ⟨hsound, hbeside⟩ := onCommand_beside h.sound hok
  apply h.policies setting hsound hbeside.verified
  cases command with
  | audioGain connection gain =>
    obtain ⟨audio, haudio, hnext⟩ := bind_eq_ok.mp hok
    cases hnext
    exact setGain_policies haudio
  | microphoneMute muted =>
    cases hok
    intro stream hstream
    obtain ⟨old, hold, rfl⟩ := List.mem_map.mp hstream
    exact ⟨old, hold, rfl, rfl⟩
  | microphoneSource source =>
    cases hok
    intro stream hstream
    obtain ⟨old, hold, rfl⟩ := List.mem_map.mp hstream
    exact ⟨old, hold, rfl, rfl⟩
  | other queued =>
    have hsame : s.onCommand (.other queued) = .ok s' → s' = s := by
      simp only [onCommand]
      split
      · exact fun hnext => by cases hnext
      · exact fun hnext => (Except.ok.inj hnext).symm
    rw [hsame hok]
    exact fun stream hstream => ⟨stream, hstream, rfl, rfl⟩

/-- A use of a packet among the next ones of a microphone counts from its counter on. -/
theorem uses_counter {mic : Microphone} {n : ℕ} {use : List UInt8 × List UInt8}
    (h : use ∈ mic.uses n) :
    use.1 = mic.key ∧ ∃ k, mic.counter ≤ k ∧ k < mic.counter + n ∧ use.2 = sealNonce k := by
  obtain ⟨k, hk, rfl⟩ := List.mem_map.mp h
  have hk := List.mem_range'_1.mp hk
  exact ⟨rfl, k, hk.1, hk.2, rfl⟩

/-- The packets of one turn were not used before. -/
theorem Accounted.fresh {s : Session} {log : List Effect} (h : s.Accounted setting log)
    (hsalts : SaltsDistinguish setting.crypto) {stream : Stream} (hstream : stream ∈ s.audio)
    {result : Stream × List Sealed} (hturned : stream.Turned result) (hlog : (uses log).Nodup) :
    (uses (log ++ result.2.map (.sealed stream.connection))).Nodup := by
  rw [uses_append, uses_sealed]
  rcases hturned.packets with hnone | ⟨mic, hmic, huses, hbounded⟩
  · rw [hnone]
    simpa using hlog
  · rw [huses]
    apply hlog.append (mic.uses_nodup hbounded)
    intro use hold hnew
    obtain ⟨connection, packet, hmem, hpacket⟩ := mem_uses hold
    obtain ⟨hkey, k, hfrom, hto, hnonce⟩ := uses_counter hnew
    obtain ⟨keys, hkeys, hderived⟩ := h.packets connection packet hmem
    obtain ⟨keys', hkeys', hderived'⟩ := h.keys stream hstream mic hmic
    obtain rfl : keys = keys' := Option.some.inj (hkeys.symm.trans hkeys')
    have hsame : packet.key = mic.key := by
      rw [← hkey, ← hpacket]
      rfl
    rw [hsame] at hderived
    obtain rfl := connection_of_salt (hsalts _ _ _ _ hderived hderived')
    obtain ⟨-, hnonces⟩ := h.counters stream hstream mic hmic
    obtain ⟨j, hj, hearlier⟩ := hnonces packet hmem
    have hequal : sealNonce j = sealNonce k := by
      rw [← hearlier, ← hnonce, ← hpacket]
      rfl
    have hjk := sealNonce_injective (by omega) (by omega) hequal
    omega

/-- A packet of a turn has the key of the stream's microphone and a nonce that it has counted. -/
theorem turned_packet {stream : Stream} {result : Stream × List Sealed}
    (h : stream.Turned result) {packet : Sealed} (hmem : packet ∈ result.2) :
    ∃ mic, stream.microphone = some mic ∧ packet.key = mic.key ∧
      ∃ k < mic.counter + result.2.length, packet.nonce = sealNonce k := by
  rcases h.packets with hnone | ⟨mic, hmic, huses, -⟩
  · rw [hnone] at hmem
    exact nomatch hmem
  · have huse : packet.use ∈ mic.uses result.2.length := by
      rw [← huses]
      exact List.mem_map_of_mem hmem
    obtain ⟨hkey, k, -, hto, hnonce⟩ := uses_counter huse
    exact ⟨mic, hmic, hkey, k, hto, hnonce⟩

theorem Accounted.woken {s : Session} {log : List Effect} (h : s.Accounted setting log)
    (hsalts : SaltsDistinguish setting.crypto) (hlog : (uses log).Nodup) (connection : UInt64)
    (event : Stream.Wake) :
    (s.wake setting connection event).1.Accounted setting
        (log ++ (s.wake setting connection event).2) ∧
      (uses (log ++ (s.wake setting connection event).2)).Nodup := by
  obtain ⟨hsound, hbeside, -⟩ := wake_beside setting h.sound connection event
  cases hfind : s.audio.find? fun stream => stream.connection = connection with
  | none =>
    have hwake : s.wake setting connection event = (s, []) := by
      unfold wake
      rw [hfind]
    rw [hwake, List.append_nil]
    exact ⟨h, hlog⟩
  | some stream =>
    have hstream := List.mem_of_find?_eq_some hfind
    obtain rfl : stream.connection = connection := by
      simpa using List.find?_some hfind
    have hturned := stream.wake_turned setting.crypto
      (fun mic hmic => (h.counters stream hstream mic hmic).1) event
    have hwake : s.wake setting stream.connection event =
        ({ s with
          audio := s.audio.map fun other =>
            if other.connection = stream.connection then (stream.wake setting.crypto event).1
            else other },
        (stream.wake setting.crypto event).2.map (.sealed stream.connection)) := by
      unfold wake
      rw [hfind]
    rw [hwake] at hsound hbeside ⊢
    have hkeys : ∀ mic', (stream.wake setting.crypto event).1.microphone = some mic' →
        ∃ keys, s.verified = some keys ∧
          microphoneKey setting.crypto keys.secret stream.connection = .ok mic'.key := by
      intro mic' hmic'
      obtain ⟨mic, hmic, hkey, -⟩ := hturned.microphone mic' hmic'
      rw [hkey]
      exact h.keys stream hstream mic hmic
    have hconnection := wake_connection setting.crypto stream event
    refine ⟨⟨hsound, ?_, ?_, ?_⟩, h.fresh setting hsalts hstream hturned hlog⟩
    · intro connection packet hmem
      rcases List.mem_append.mp hmem with hold | hnew
      · exact h.packets connection packet hold
      · obtain ⟨new, hin, hsealed⟩ := List.mem_map.mp hnew
        cases hsealed
        obtain ⟨mic, hmic, hkey, -⟩ := turned_packet hturned hin
        rw [hkey]
        exact h.keys stream hstream mic hmic
    · intro other hother mic hmic
      obtain ⟨old, hold, rfl⟩ := List.mem_map.mp hother
      split_ifs at hmic ⊢
      · rw [hconnection]
        exact hkeys mic hmic
      · exact h.keys old hold mic hmic
    · intro other hother mic hmic
      obtain ⟨old, hold, rfl⟩ := List.mem_map.mp hother
      split_ifs at hmic ⊢ with hsame
      · obtain ⟨before, hbefore, -, hcount, hless⟩ := hturned.microphone mic hmic
        obtain ⟨-, hnonces⟩ := h.counters stream hstream before hbefore
        refine ⟨hless, ?_⟩
        intro packet hmem
        rw [hconnection] at hmem
        rcases List.mem_append.mp hmem with hin | hnew
        · obtain ⟨k, hk, hnonce⟩ := hnonces packet hin
          exact ⟨k, by omega, hnonce⟩
        · obtain ⟨new, hin, hsealed⟩ := List.mem_map.mp hnew
          cases hsealed
          obtain ⟨mic', hmic', -, k, hk, hnonce⟩ := turned_packet hturned hin
          obtain rfl : before = mic' := Option.some.inj (hbefore.symm.trans hmic')
          exact ⟨k, by omega, hnonce⟩
      · obtain ⟨hless, hnonces⟩ := h.counters old hold mic hmic
        refine ⟨hless, ?_⟩
        intro packet hmem
        rcases List.mem_append.mp hmem with hin | hnew
        · exact hnonces packet hin
        · obtain ⟨new, -, hsealed⟩ := List.mem_map.mp hnew
          exact absurd (Effect.sealed.inj hsealed).1.symm hsame
/-- A session's log: no use twice, and the account of a session that still runs. -/
structure Audited (state : Option Session) (log : List Effect) : Prop where
  nodup : (uses log).Nodup
  account : ∀ s, state = some s → s.Accounted setting log

theorem turn_audited {state : Option Session} {before : List (Input × List Effect)}
    (h : Audited setting state (acted before)) (hsalts : SaltsDistinguish setting.crypto)
    {input : Input} (hunused : Unused setting before input) :
    Audited setting (turn setting state input).1
      (acted before ++ (turn setting state input).2) := by
  have hdone : ∀ effects, Quiet effects → Audited setting none (acted before ++ effects) := by
    intro effects hquiet
    refine ⟨?_, fun _ hsome => nomatch hsome⟩
    rw [uses_append, hquiet.uses, List.append_nil]
    exact h.nodup
  cases state with
  | none => exact hdone [] quiet_nil
  | some s =>
    have haccount := h.account s rfl
    cases input with
    | request request out =>
      obtain ⟨-, hquiet⟩ := dispatch_renews setting s request out
      have hkept : ∀ answer, (s.dispatch setting request out).2.2 = .ok answer →
          (s.dispatch setting request out).1.Accounted setting
            (acted before ++ (s.dispatch setting request out).2.1) :=
        fun _ hok => haccount.dispatched setting hok hunused
      simp only [turn]
      rcases hdispatch : s.dispatch setting request out with ⟨s', effects, e | answer⟩
      · rw [hdispatch] at hquiet
        exact hdone effects hquiet
      · rw [hdispatch] at hquiet hkept
        dsimp only
        split_ifs
        · exact hdone effects hquiet
        · refine ⟨(hdone effects hquiet).nodup, ?_⟩
          intro next hnext
          cases hnext
          exact hkept answer rfl
    | command command =>
      simp only [turn]
      cases hok : s.onCommand command with
      | error e => exact hdone [] quiet_nil
      | ok s' =>
        refine ⟨(hdone [] quiet_nil).nodup, ?_⟩
        intro next hnext
        cases hnext
        rw [List.append_nil]
        exact haccount.commanded setting hok
    | wake connection event =>
      obtain ⟨hnext, hnodup⟩ := haccount.woken setting hsalts h.nodup connection event
      simp only [turn]
      refine ⟨hnodup, ?_⟩
      intro next hsome
      cases hsome
      exact hnext

/-- No two packets of a session share key and nonce, if a microphone is only ever asked for under
a connection that has not sealed yet. -/
theorem microphone_nonces (hsalts : SaltsDistinguish setting.crypto) {s : Session}
    (hsound : s.Sound) (haudio : s.audio = []) (inputs : List Input)
    (hunused : Always (fun before input _ => Unused setting before input)
      (run (turn setting) (some s) inputs).2) :
    (uses (acted (run (turn setting) (some s) inputs).2)).Nodup := by
  have haudited : Always (fun before input _ => Unused setting before input)
        (run (turn setting) (some s) inputs).2 →
      Audited setting (run (turn setting) (some s) inputs).1
        (acted (run (turn setting) (some s) inputs).2) := by
    apply run_history (turn setting) (I := fun state history =>
      Always (fun before input _ => Unused setting before input) history →
        Audited setting state (acted history))
    · intro _
      refine ⟨List.nodup_nil, ?_⟩
      intro next hnext
      cases hnext
      refine ⟨hsound, fun _ _ hmem => (nomatch hmem), ?_, ?_⟩
      · rw [haudio]
        exact fun _ hstream => nomatch hstream
      · rw [haudio]
        exact fun _ hstream => nomatch hstream
    · intro state history input ih halways
      obtain ⟨hbefore, hlast⟩ := always_concat.mp halways
      rw [acted_concat]
      exact turn_audited setting (ih hbefore) hsalts hlast
  exact (haudited hunused).nodup

/-! ## A connection that is set up again -/

/-- Derives one key, for the connection 5. -/
def plainCrypto : Crypto where
  modulus := 0
  sha512 := .ok
  hmacSha512 key _ :=
    if key = utf8 "DataStream-Salt5" ∨ key = List.replicate 64 7 then .ok (List.replicate 64 7)
    else .error .rejected
  encryptAead _ _ _ plain := .ok (plain, List.replicate 16 0)
  decryptAead _ _ _ bytes _ := .ok bytes
  x25519Public := .ok
  x25519Derive _ := .ok
  ed25519Public := .ok
  ed25519Sign _ := .ok
  ed25519Verify _ _ _ := .ok true

def timingText : String :=
  "<plist version=\"1.0\"><dict><key>timingPort</key><integer>7000</integer></dict></plist>"

def microphoneText : String :=
  "<plist version=\"1.0\"><dict><key>streams</key><array><dict><key>type</key><integer>100" ++
    "</integer><key>streamConnectionID</key><integer>5</integer><key>audioFormat</key><integer>16" ++
    "</integer><key>dataPort</key><integer>6001</integer><key>framesPerPacket</key><integer>1" ++
    "</integer></dict></array></dict></plist>"

def teardownText : String :=
  "<plist version=\"1.0\"><dict><key>streams</key><array><dict><key>streamConnectionID</key>" ++
    "<integer>5</integer></dict></array></dict></plist>"

def microphoneEntry : Dictionary :=
  [("type", .integer 100), ("streamConnectionID", .integer 5), ("audioFormat", .integer 16),
    ("dataPort", .integer 6001), ("framesPerPacket", .integer 1)]

/-- The property lists of the three texts. -/
def readTexts (body : List UInt8) : Except Error Dictionary :=
  if body = utf8 timingText then .ok [("timingPort", .integer 7000)]
  else if body = utf8 microphoneText then
    .ok [("streams", .array [.dictionary microphoneEntry])]
  else if body = utf8 teardownText then
    .ok [("streams", .array [.dictionary [("streamConnectionID", .integer 5)]])]
  else .error .malformed

def plainSetting : Setting where
  crypto := plainCrypto
  identity := ⟨[65], [7]⟩
  audio := some ⟨none, some "microphone"⟩
  pairingDirectory := false
  plist := readTexts
  writer _ := .ok [0]
  capabilities := .ok []

def plainOutcomes : Outcomes where
  entropy := ⟨.ok [1], .ok [1], .ok [1]⟩
  saved := .ok ()
  authSetup _ := .ok [1]
  timing := .ok 7001
  event := .ok 7002
  screen _ := .error .unsupported
  stream _ := ⟨.ok (), .ok (), .ok (7003, 7004)⟩
  report := .ok []

/-- The session of a phone that has just been verified. -/
def verifiedSession : Session :=
  { Session.initial plainSetting .empty with
    verified := some ⟨List.replicate 32 9, List.replicate 32 8, List.replicate 32 7⟩ }

def ask (method target : String) (body : List UInt8) : Input :=
  .request ⟨method, target, "RTSP/1.0", ∅, body⟩ plainOutcomes

/-- A microphone that is set up, played to, turned on and captured from. -/
def captured (low : UInt8) : List Input :=
  [ask "SETUP" "/session" (utf8 microphoneText), .command (.audioGain 5 (some 1)),
    .wake 5 (.packet 320 (.ok ()) (.ok ())), .wake 5 (.sample [0, low] fun _ => .ok ())]

/-- The same connection is captured from, torn down and captured from again. -/
def capturedTwice : List Input :=
  [ask "POST" "/auth-setup" [], ask "SETUP" "/session" (utf8 timingText)] ++ captured 1 ++
    [ask "TEARDOWN" "/session" (utf8 teardownText)] ++ captured 2

theorem plainCrypto_distinguishes : SaltsDistinguish plainCrypto := by
  have hnamed : ∀ secret key connection, microphoneKey plainCrypto secret connection = .ok key →
      s!"DataStream-Salt{connection.toNat}" = "DataStream-Salt5" := by
    intro secret key connection h
    obtain ⟨extracted, hextracted, -⟩ := bind_eq_ok.mp h
    simp only [Crypto.hmac, plainCrypto] at hextracted
    split_ifs at hextracted with hsalt
    rcases hsalt with hsalt | hsalt
    · exact utf8_injective hsalt
    · have hsplit : utf8 (s!"DataStream-Salt{connection.toNat}") =
          utf8 "DataStream-Salt" ++ utf8 (toString connection.toNat) := utf8_append _ _
      have hfirst : utf8 "DataStream-Salt" = 68 :: utf8 "ataStream-Salt" := by decide
      rw [hsplit, hfirst] at hsalt
      exact absurd (List.cons.inj hsalt).1 (by decide)
  intro secret key connection connection' h h'
  exact (hnamed _ _ _ h).trans (hnamed _ _ _ h').symm

theorem verifiedSession_sound : verifiedSession.Sound := by
  refine ⟨List.nodup_nil, fun _ => ⟨List.not_mem_nil, List.not_mem_nil⟩,
    fun _ => List.not_mem_nil, Nat.zero_le 4, List.nodup_nil, ?_, fun _ => rfl⟩
  exact fun _ => ⟨rfl, rfl, rfl, rfl, rfl, rfl⟩

/-- Nothing is sealed before the first capture, whatever is asked for. -/
theorem unused_of_silent {history : List (Input × List Effect)} (h : uses (acted history) = [])
    (input : Input) : Unused plainSetting history input := by
  cases input with
  | request request out =>
    intro connection _ packet hmem
    have huse : packet.use ∈ uses (acted history) := List.mem_filterMap.mpr ⟨_, hmem, rfl⟩
    rw [h] at huse
    exact nomatch huse
  | command command => trivial
  | wake connection event => trivial

theorem always_unused_of_silent {inputs : List Input}
    (h : uses (acted (run (turn plainSetting) (some verifiedSession) inputs).2) = []) :
    Always (fun before input _ => Unused plainSetting before input)
      (run (turn plainSetting) (some verifiedSession) inputs).2 := by
  induction inputs using List.reverseRecOn with
  | nil => exact always_nil _
  | append_singleton inputs input ih =>
    rw [run_concat, acted_concat, uses_append] at h
    obtain ⟨hbefore, -⟩ := List.append_eq_nil_iff.mp h
    exact (always_run_concat _).mpr ⟨ih hbefore, unused_of_silent hbefore input⟩

/-- A microphone is set up and turned on; it has not captured yet. -/
def opening : List Input :=
  [ask "POST" "/auth-setup" [], ask "SETUP" "/session" (utf8 timingText)] ++ (captured 1).take 3

def sample (low : UInt8) : Input := .wake 5 (.sample [0, low] fun _ => .ok ())

theorem microphone_nonces_captured :
    (uses (acted (run (turn plainSetting) (some verifiedSession)
      (opening ++ [sample 1] ++ [sample 2])).2)).length = 2 ∧
    (uses (acted (run (turn plainSetting) (some verifiedSession)
      (opening ++ [sample 1] ++ [sample 2])).2)).Nodup := by
  have hsilent : uses (acted (run (turn plainSetting) (some verifiedSession) opening).2) = [] := by
    decide +kernel
  have hopening := always_unused_of_silent hsilent
  have hfirst := (always_run_concat (i := sample 1) (turn plainSetting)).mpr ⟨hopening, trivial⟩
  have hboth := (always_run_concat (i := sample 2) (turn plainSetting)).mpr ⟨hfirst, trivial⟩
  exact ⟨by decide +kernel, microphone_nonces plainSetting plainCrypto_distinguishes
    verifiedSession_sound rfl _ hboth⟩

/-- The second capture starts again from the first nonce of the same key. -/
theorem recaptured_reuses_nonce :
    SaltsDistinguish plainSetting.crypto ∧ verifiedSession.Sound ∧ verifiedSession.audio = [] ∧
      ¬(uses (acted (run (turn plainSetting) (some verifiedSession) capturedTwice).2)).Nodup :=
  ⟨plainCrypto_distinguishes, verifiedSession_sound, rfl, by decide +kernel⟩

end Session
end ProjectArgo.CarPlay
