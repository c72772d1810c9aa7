import ProjectArgo.CarPlay.ReceiverWire

/-!
# What a connection allows

Every entry of a run's log is judged by the entries before it. Acting on the
session needs ciphers and authentication, pairing ends where verification
begins, and once the connection is secured no byte passes in plain: the bytes
of a later request were all decrypted after the switch.
-/
namespace ProjectArgo.CarPlay.Receiver

open Library.Bytes Library.Fragments Library.Run

/-! ## Views of a log -/

def Entry.byte : Entry → Option UInt8
  | .read byte => some byte
  | _ => none

def Entry.taken : Entry → List UInt8
  | .request bytes _ => bytes
  | _ => []

def Entry.opened : Entry → List UInt8
  | .decrypted plain => plain
  | _ => []

def Entry.acted : Entry → Option Effect
  | .effect e => some e
  | _ => none

/-- The plain bytes read from the socket. -/
def bytesRead (log : List Entry) : List UInt8 := log.filterMap Entry.byte

/-- The bytes that requests were taken from. -/
def consumed (log : List Entry) : List UInt8 := log.flatMap Entry.taken

def decrypted (log : List Entry) : List UInt8 := log.flatMap Entry.opened

def effects (log : List Entry) : List Effect := log.filterMap Entry.acted

@[simp] theorem bytesRead_append (log more : List Entry) :
    bytesRead (log ++ more) = bytesRead log ++ bytesRead more := List.filterMap_append

@[simp] theorem consumed_append (log more : List Entry) :
    consumed (log ++ more) = consumed log ++ consumed more := List.flatMap_append

@[simp] theorem decrypted_append (log more : List Entry) :
    decrypted (log ++ more) = decrypted log ++ decrypted more := List.flatMap_append

@[simp] theorem effects_append (log more : List Entry) :
    effects (log ++ more) = effects log ++ effects more := List.filterMap_append

/-- Entries that move no byte between the socket, the decoder and a request. -/
structure Still (entries : List Entry) : Prop where
  bytesRead : bytesRead entries = []
  consumed : consumed entries = []
  decrypted : decrypted entries = []

theorem Still.append {entries more : List Entry} (h : Still entries) (h' : Still more) :
    Still (entries ++ more) := by
  constructor
  · rw [bytesRead_append, h.bytesRead, h'.bytesRead, List.nil_append]
  · rw [consumed_append, h.consumed, h'.consumed, List.nil_append]
  · rw [decrypted_append, h.decrypted, h'.decrypted, List.nil_append]

theorem still_effects (es : List Effect) : Still (es.map .effect) := by
  constructor
  · simp [bytesRead, List.filterMap_map, Function.comp_def, Entry.byte]
  · simp [consumed, List.flatMap_map, Entry.taken]
  · simp [decrypted, List.flatMap_map, Entry.opened]

@[simp] theorem effects_map (es : List Effect) : effects (es.map .effect) = es := by
  simp [effects, List.filterMap_map, Function.comp_def, Entry.acted]

theorem secured_notMem_effects (es : List Effect) : Entry.secured ∉ es.map Entry.effect := by
  simp

/-! ## The contract -/

/-- What may follow a log. -/
def Allowed (before : List Entry) : Entry → Prop
  | .read _ => .secured ∉ before
  | .wrote _ => .secured ∉ before
  | .decrypted _ => .secured ∈ before
  | .encrypted _ => .secured ∈ before
  | .secured =>
    .secured ∉ before ∧ .verified ∈ effects before ∧ consumed before = bytesRead before
  | .request bytes _ =>
    (.secured ∉ before → consumed before ++ bytes = bytesRead before) ∧
      (.secured ∈ before → ∃ earlier, consumed before = bytesRead before ++ earlier ∧
        earlier ++ bytes <+: decrypted before)
  | .effect .pairing => .verified ∉ effects before
  | .effect .verified => .verified ∉ effects before
  | .effect .authenticated => .secured ∈ before
  | .effect _ => .secured ∈ before ∧ .authenticated ∈ effects before

theorem allowed_inSession {before : List Entry} {effect : Effect} (h : effect.inSession)
    (hsecured : .secured ∈ before) (hauthenticated : .authenticated ∈ effects before) :
    Allowed before (.effect effect) := by
  cases effect with
  | pairing => exact h.elim
  | verified => exact h.elim
  | authenticated => exact h.elim
  | entered route => exact ⟨hsecured, hauthenticated⟩
  | spawned task => exact ⟨hsecured, hauthenticated⟩
  | opened connection microphone => exact ⟨hsecured, hauthenticated⟩
  | closed connection => exact ⟨hsecured, hauthenticated⟩
  | sealed connection packet => exact ⟨hsecured, hauthenticated⟩

/-- The decoder was fed byte by byte: nothing, or all but the last byte is no request yet. -/
def ByteFed (pending : List UInt8) : Prop :=
  ControlDecoder.parse pending = .ok none ∨
    ∃ before b, pending = before ++ [b] ∧ ControlDecoder.parse before = .ok none

theorem nextRequest_none {pending : List UInt8}
    (h : ControlDecoder.nextRequest pending = .ok none) :
    ControlDecoder.parse pending = .ok none := by
  unfold ControlDecoder.nextRequest at h
  rcases hparse : ControlDecoder.parse pending with e | _ | ⟨request, last⟩
  · rw [hparse] at h
    exact nomatch h
  · rfl
  · rw [hparse] at h
    exact nomatch h

theorem nextRequest_some {pending rest : List UInt8} {request : Request}
    (h : ControlDecoder.nextRequest pending = .ok (some (request, rest))) :
    pending.take (pending.length - rest.length) ++ rest = pending ∧
      (ByteFed pending → rest = []) := by
  have hnext := h
  unfold ControlDecoder.nextRequest at h
  rcases hparse : ControlDecoder.parse pending with e | _ | ⟨found, last⟩
  · rw [hparse] at h
    exact nomatch h
  · rw [hparse] at h
    exact nomatch h
  · rw [hparse] at h
    cases h
    constructor
    · rw [List.length_drop]
      by_cases hlast : last ≤ pending.length
      · rw [Nat.sub_sub_self hlast, List.take_append_drop]
      · rw [List.drop_eq_nil_of_le (by omega), List.append_nil, List.take_of_length_le (by omega)]
    · rintro (hnone | ⟨before, b, rfl, hnone⟩)
      · rw [hnone] at hparse
        exact nomatch hparse
      · exact ControlDecoder.nextRequest_concat hnone b hnext

/-- A running connection against everything that happened on it. -/
structure Connection.Held (c : Connection) (log : List Entry) : Prop where
  sound : c.session.Sound
  tasks : c.session.tasks = spawned (effects log)
  connections : c.session.connections = live [] (effects log)
  input : c.wire.input.isSome ↔ .secured ∈ log
  output : c.wire.output.isSome ↔ .secured ∈ log
  verified : c.session.verified.isSome ↔ .secured ∈ log
  marked : .verified ∈ effects log → .secured ∈ log
  authenticated : c.session.authenticated = true → .authenticated ∈ effects log
  plain : .secured ∉ log → consumed log ++ c.wire.pending = bytesRead log ∧
    ByteFed c.wire.pending ∧ decrypted log = []
  ciphered : .secured ∈ log → ∃ earlier, consumed log = bytesRead log ++ earlier ∧
    decrypted log = earlier ++ c.wire.pending

/-- The log of a connection, which may have ended. -/
structure Lawful (state : State) (log : List Entry) : Prop where
  allowed : Guarded Allowed log
  slots : ((spawned (effects log)).map Task.slot).Nodup
  fitting : Fitting [] (effects log)
  held : ∀ c, state = .running c → c.Held log

/-! ## One turn -/

theorem guarded_inSession {log : List Entry} (h : Guarded Allowed log) (hsecured : .secured ∈ log)
    (hauthenticated : .authenticated ∈ effects log) {es : List Effect}
    (hes : ∀ e ∈ es, e.inSession) : Guarded Allowed (log ++ es.map .effect) := by
  apply guarded_append_of_forall h
  intro entry hentry before hbefore
  obtain ⟨e, he, rfl⟩ := List.mem_map.mp hentry
  obtain ⟨more, rfl⟩ := hbefore
  apply allowed_inSession (hes e he)
  · exact List.mem_append_left _ hsecured
  · rw [effects_append]
    exact List.mem_append_left _ hauthenticated

theorem Lawful.ended {state : State} {log : List Entry} (h : Lawful state log)
    (result : Except Error Unit) : Lawful (.ended result) log :=
  ⟨h.allowed, h.slots, h.fitting, fun _ hc => nomatch hc⟩

/-- Entries that move no byte and secure nothing, with what they do to the session. -/
theorem Connection.Held.still {c next : Connection} {log entries : List Entry} (h : c.Held log)
    (hstill : Still entries) (hfresh : .secured ∉ entries) (hsound : next.session.Sound)
    (htasks : next.session.tasks = c.session.tasks ++ spawned (effects entries))
    (hconnections : next.session.connections = live c.session.connections (effects entries))
    (hinput : next.wire.input.isSome = c.wire.input.isSome)
    (houtput : next.wire.output.isSome = c.wire.output.isSome)
    (hpending : next.wire.pending = c.wire.pending)
    (hverified : next.session.verified.isSome = c.session.verified.isSome)
    (hmarked : .verified ∈ effects entries → c.session.verified.isSome)
    (hauthenticated : next.session.authenticated = true →
      c.session.authenticated = true ∨ .authenticated ∈ effects entries) :
    next.Held (log ++ entries) := by
  have hsecured : .secured ∈ log ++ entries ↔ .secured ∈ log := by
    rw [List.mem_append, or_iff_left hfresh]
  refine ⟨hsound, ?_, ?_, ?_, ?_, ?_, ?_, ?_, ?_, ?_⟩
  · rw [htasks, h.tasks, effects_append, spawned_append]
  · rw [hconnections, h.connections, effects_append, live_append]
  · rw [hinput, hsecured]
    exact h.input
  · rw [houtput, hsecured]
    exact h.output
  · rw [hverified, hsecured]
    exact h.verified
  · intro hmem
    rw [effects_append] at hmem
    rw [hsecured]
    rcases List.mem_append.mp hmem with hmem | hmem
    · exact h.marked hmem
    · exact h.verified.mp (hmarked hmem)
  · intro htrue
    rw [effects_append]
    rcases hauthenticated htrue with hold | hnew
    · exact List.mem_append_left _ (h.authenticated hold)
    · exact List.mem_append_right _ hnew
  · rw [hsecured, hpending, consumed_append, bytesRead_append, decrypted_append, hstill.consumed,
      hstill.bytesRead, hstill.decrypted]
    simp only [List.append_nil]
    exact h.plain
  · rw [hsecured, hpending, consumed_append, bytesRead_append, decrypted_append, hstill.consumed,
      hstill.bytesRead, hstill.decrypted]
    simp only [List.append_nil]
    exact h.ciphered

theorem live_sealed (streams : List UInt64) {connection : UInt64} {es : List Effect}
    (h : ∀ e ∈ es, ∃ packet, e = .sealed connection packet) :
    live streams es = streams ∧ Fitting streams es ∧ spawned es = [] := by
  induction es with
  | nil => exact ⟨rfl, trivial, rfl⟩
  | cons e es ih =>
    obtain ⟨packet, rfl⟩ := h e List.mem_cons_self
    obtain ⟨hlive, hfitting, hspawned⟩ := ih fun e he => h e (List.mem_cons_of_mem _ he)
    exact ⟨hlive, ⟨trivial, hfitting⟩, hspawned⟩

variable (setting : Setting)

theorem wake_lawful {c : Connection} {log : List Entry} (h : Lawful (.running c) log)
    (connection : UInt64) (event : Stream.Wake) :
    Lawful (step setting (.running c) (.wake connection event)).1
      (log ++ (step setting (.running c) (.wake connection event)).2) := by
  have hheld := h.held c rfl
  cases hauthenticated : c.session.authenticated with
  | false =>
    have hidle := Session.wake_idle setting hheld.sound hauthenticated connection event
    simp only [step, hidle, List.map_nil, List.append_nil]
    exact h
  | true =>
    obtain ⟨hsound, hbeside, hes⟩ := Session.wake_beside setting hheld.sound connection event
    rcases hwake : c.session.wake setting connection event with ⟨session, es⟩
    rw [hwake] at hsound hbeside hes
    have hinSession : ∀ e ∈ es, e.inSession := by
      intro e he
      obtain ⟨packet, rfl⟩ := hes e he
      trivial
    obtain ⟨-, hfitting, hspawned⟩ := live_sealed (live [] (effects log)) hes
    have hsecured := hheld.verified.mp (hheld.sound.verified hauthenticated)
    simp only [step, hwake]
    refine ⟨?_, ?_, ?_, ?_⟩
    · exact guarded_inSession h.allowed hsecured (hheld.authenticated hauthenticated) hinSession
    · rw [effects_append, effects_map, spawned_append, hspawned, List.append_nil]
      exact h.slots
    · rw [effects_append, effects_map, fitting_append]
      exact ⟨h.fitting, hfitting⟩
    · intro next hnext
      cases hnext
      obtain ⟨hlive, -, -⟩ := live_sealed c.session.connections hes
      refine hheld.still (still_effects es) (secured_notMem_effects es) hsound ?_ ?_ rfl rfl rfl
        (congrArg _ hbeside.verified) ?_ ?_
      · rw [effects_map, hspawned, List.append_nil]
        exact hbeside.tasks
      · rw [effects_map, hlive]
        exact hbeside.connections
      · exact fun _ => hheld.sound.verified hauthenticated
      · exact fun _ => Or.inl hauthenticated

theorem command_lawful {c : Connection} {log : List Entry} (h : Lawful (.running c) log)
    (command : Session.Command) :
    Lawful (step setting (.running c) (.command command)).1
      (log ++ (step setting (.running c) (.command command)).2) := by
  have hheld := h.held c rfl
  cases hok : c.session.onCommand command with
  | error e =>
    simp only [step, hok, List.append_nil]
    exact h.ended _
  | ok session =>
    obtain ⟨hsound, hbeside⟩ := Session.onCommand_beside hheld.sound hok
    simp only [step, hok]
    rw [List.append_nil]
    refine ⟨h.allowed, h.slots, h.fitting, ?_⟩
    intro next hnext
    cases hnext
    rw [← List.append_nil log]
    refine hheld.still (still_effects []) (secured_notMem_effects []) hsound ?_ ?_ rfl rfl rfl
      (congrArg _ hbeside.verified) ?_ ?_
    · exact hbeside.tasks.trans (List.append_nil _).symm
    · exact hbeside.connections
    · exact fun hmem => nomatch hmem
    · rw [← hbeside.authenticated]
      exact Or.inl

/-- An entry without an effect leaves the tasks and streams of a log alone. -/
theorem Lawful.concat {state next : State} {log : List Entry} (h : Lawful state log)
    {entry : Entry} (hentry : entry.acted = none) (hallowed : Allowed log entry)
    (hheld : ∀ c, next = .running c → c.Held (log ++ [entry])) : Lawful next (log ++ [entry]) := by
  have heffects : effects (log ++ [entry]) = effects log := by
    rw [effects_append]
    simp [effects, hentry]
  refine ⟨guarded_concat.mpr ⟨h.allowed, hallowed⟩, ?_, ?_, hheld⟩
  · rw [heffects]
    exact h.slots
  · rw [heffects]
    exact h.fitting

/-- A plain byte goes to the decoder. -/
theorem Connection.Held.read {c : Connection} {log : List Entry} (h : c.Held log)
    (hnone : c.wire.input = none)
    (hidle : ControlDecoder.parse c.wire.pending = .ok none) {byte : UInt8}
    {unread pending : List UInt8}
    (hpush : ControlDecoder.push c.wire.pending [byte] = .ok pending) :
    Connection.Held { c with wire := { c.wire with unread, pending } } (log ++ [.read byte]) := by
  have hpending : c.wire.pending ++ [byte] = pending := by
    unfold ControlDecoder.push at hpush
    split_ifs at hpush
    exact Except.ok.inj hpush
  have hsecured : .secured ∉ log := by
    rw [← h.input, hnone]
    exact Bool.false_ne_true
  have hsecured' : .secured ∈ log ++ [Entry.read byte] ↔ .secured ∈ log := by
    simp
  have heffects : effects (log ++ [.read byte]) = effects log := by
    rw [effects_append]
    exact List.append_nil _
  obtain ⟨hbytes, -, hdecrypted⟩ := h.plain hsecured
  refine ⟨h.sound, heffects ▸ h.tasks, heffects ▸ h.connections, ?_, ?_, ?_, ?_,
    heffects ▸ h.authenticated, ?_, ?_⟩
  · rw [hsecured']
    exact h.input
  · rw [hsecured']
    exact h.output
  · rw [hsecured']
    exact h.verified
  · rw [hsecured', heffects]
    exact h.marked
  · intro _
    refine ⟨?_, Or.inr ⟨c.wire.pending, byte, hpending.symm, hidle⟩, ?_⟩
    · rw [consumed_append, bytesRead_append, ← hbytes, ← hpending]
      simp [consumed, bytesRead, Entry.taken, Entry.byte]
    · rw [decrypted_append, hdecrypted]
      rfl
  · intro hmem
    exact absurd (hsecured'.mp hmem) hsecured

/-- A decrypted frame goes to the decoder. -/
theorem Connection.Held.decrypt {c : Connection} {log : List Entry} (h : c.Held log)
    (hsome : c.wire.input.isSome) {plain unread pending : List UInt8} {cipher : ControlCipher}
    (hpush : ControlDecoder.push c.wire.pending plain = .ok pending) :
    Connection.Held { c with wire := { c.wire with unread, pending, input := some cipher } }
      (log ++ [.decrypted plain]) := by
  have hpending : c.wire.pending ++ plain = pending := by
    unfold ControlDecoder.push at hpush
    split_ifs at hpush
    exact Except.ok.inj hpush
  have hsecured : .secured ∈ log := h.input.mp hsome
  have hsecured' : .secured ∈ log ++ [Entry.decrypted plain] ↔ .secured ∈ log := by
    simp
  have heffects : effects (log ++ [.decrypted plain]) = effects log := by
    rw [effects_append]
    exact List.append_nil _
  obtain ⟨earlier, hconsumed, hdecrypted⟩ := h.ciphered hsecured
  refine ⟨h.sound, heffects ▸ h.tasks, heffects ▸ h.connections, ?_, ?_, ?_, ?_,
    heffects ▸ h.authenticated, ?_, ?_⟩
  · rw [hsecured']
    exact iff_of_true rfl hsecured
  · rw [hsecured']
    exact h.output
  · rw [hsecured']
    exact h.verified
  · rw [hsecured', heffects]
    exact h.marked
  · intro hmem
    exact absurd (hsecured'.mpr hsecured) hmem
  · intro _
    refine ⟨earlier, ?_, ?_⟩
    · rw [consumed_append, bytesRead_append, hconsumed]
      simp [consumed, bytesRead, Entry.taken, Entry.byte]
    · rw [decrypted_append, hdecrypted, ← hpending]
      simp [decrypted, Entry.opened]

theorem readOn_lawful {c : Connection} {log : List Entry} (h : Lawful (.running c) log)
    (hidle : ControlDecoder.parse c.wire.pending = .ok none) :
    Lawful (readOn setting c).1 (log ++ (readOn setting c).2) := by
  have hheld := h.held c rfl
  have hstay : Lawful (.running c) (log ++ []) := by
    rw [List.append_nil]
    exact h
  have hend : ∀ e, Lawful (.ended (.error e)) (log ++ []) := by
    intro e
    rw [List.append_nil]
    exact h.ended _
  unfold readOn
  cases hinput : c.wire.input with
  | none =>
    have hsecured : .secured ∉ log := by
      rw [← hheld.input, hinput]
      exact Bool.false_ne_true
    dsimp only
    cases c.wire.unread with
    | nil => exact hstay
    | cons byte unread =>
      dsimp only
      cases hpush : ControlDecoder.push c.wire.pending [byte] with
      | error e => exact hend e
      | ok pending =>
        refine h.concat rfl ?_ ?_
        · exact hsecured
        · intro next hnext
          cases hnext
          exact hheld.read hinput hidle hpush
  | some cipher =>
    have hsome : c.wire.input.isSome := by
      rw [hinput]
      rfl
    have hsecured : .secured ∈ log := hheld.input.mp hsome
    dsimp only
    split_ifs
    · exact hstay
    · exact hend _
    · exact hstay
    · rcases cipher.decrypt setting.crypto _ with ⟨cipher', e | plain⟩
      · exact hend e
      · dsimp only
        cases hpush : ControlDecoder.push c.wire.pending plain with
        | error e => exact h.concat rfl hsecured fun _ hnext => nomatch hnext
        | ok pending =>
          refine h.concat rfl ?_ ?_
          · exact hsecured
          · intro next hnext
            cases hnext
            exact hheld.decrypt hsome hpush
/-! ## Serving a request -/

/-- What writing leaves alone, and the entries it makes. -/
structure Sent (wire : Wire) (result : Wire × List Entry × Except Error Unit) : Prop where
  input : result.1.input = wire.input
  pending : result.1.pending = wire.pending
  output : result.1.output.isSome = wire.output.isSome
  entries : ∀ entry ∈ result.2.1, (∃ bytes, entry = .wrote bytes ∧ wire.output = none) ∨
    ∃ frame, entry = .encrypted frame ∧ wire.output.isSome

theorem sendParts_entries (cipher : ControlCipher) (written : ℕ → Except Error Unit)
    (parts : List (List UInt8)) :
    ∀ entry ∈ (sendParts setting cipher written parts).2.1, ∃ frame, entry = .encrypted frame := by
  induction parts generalizing cipher written with
  | nil => exact fun _ hentry => nomatch hentry
  | cons part parts ih =>
    unfold sendParts
    rcases cipher.encrypt setting.crypto part with ⟨cipher, e | frame⟩
    · exact fun _ hentry => nomatch hentry
    · dsimp only
      cases written 0 with
      | error e =>
        intro entry hentry
        exact ⟨frame, List.mem_singleton.mp hentry⟩
      | ok u =>
        intro entry hentry
        rcases List.mem_cons.mp hentry with rfl | hentry
        · exact ⟨frame, rfl⟩
        · exact ih _ _ entry hentry

theorem send_sent (wire : Wire) (written : ℕ → Except Error Unit) (bytes : List UInt8) :
    Sent wire (send setting wire written bytes) := by
  unfold send
  cases houtput : wire.output with
  | none =>
    refine ⟨rfl, rfl, rfl, ?_⟩
    intro entry hentry
    exact Or.inl ⟨bytes, List.mem_singleton.mp hentry, houtput⟩
  | some cipher =>
    have hparts := sendParts_entries setting cipher written (chunks 16384 bytes)
    refine ⟨rfl, rfl, ?_, ?_⟩
    · rw [houtput]
      rfl
    · intro entry hentry
      obtain ⟨frame, rfl⟩ := hparts entry hentry
      refine Or.inr ⟨frame, rfl, ?_⟩
      rw [houtput]
      rfl

theorem respond_sent (wire : Wire) (written : ℕ → Except Error Unit) (request : Request)
    (body : List UInt8) (kind : Kind) :
    Sent wire (respond setting wire written request body kind) := by
  unfold respond
  cases sequence request with
  | error e => exact ⟨rfl, rfl, rfl, fun _ hentry => nomatch hentry⟩
  | ok digits => exact send_sent setting wire written _

theorem Sent.still {wire : Wire} {result : Wire × List Entry × Except Error Unit}
    (h : Sent wire result) :
    Still result.2.1 ∧ effects result.2.1 = [] ∧ .secured ∉ result.2.1 := by
  have hentry : ∀ entry ∈ result.2.1, entry.byte = none ∧ entry.taken = [] ∧ entry.opened = [] ∧
      entry.acted = none ∧ entry ≠ .secured := by
    intro entry hmem
    rcases h.entries entry hmem with ⟨bytes, rfl, -⟩ | ⟨frame, rfl, -⟩
    · exact ⟨rfl, rfl, rfl, rfl, Entry.noConfusion⟩
    · exact ⟨rfl, rfl, rfl, rfl, Entry.noConfusion⟩
  refine ⟨⟨?_, ?_, ?_⟩, ?_, ?_⟩
  · exact List.filterMap_eq_nil_iff.mpr fun entry hmem => (hentry entry hmem).1
  · exact List.flatMap_eq_nil_iff.mpr fun entry hmem => (hentry entry hmem).2.1
  · exact List.flatMap_eq_nil_iff.mpr fun entry hmem => (hentry entry hmem).2.2.1
  · exact List.filterMap_eq_nil_iff.mpr fun entry hmem => (hentry entry hmem).2.2.2.1
  · exact fun hmem => (hentry _ hmem).2.2.2.2 rfl

/-- The entries that write an answer follow a log whose ciphers are those of the wire. -/
theorem Sent.guarded {wire : Wire} {result : Wire × List Entry × Except Error Unit}
    (h : Sent wire result) {log : List Entry} (hlog : Guarded Allowed log)
    (houtput : wire.output.isSome ↔ .secured ∈ log) : Guarded Allowed (log ++ result.2.1) := by
  obtain ⟨-, -, hfresh⟩ := h.still
  have hentries := h.entries
  generalize result.2.1 = entries at hfresh hentries
  induction entries using List.reverseRecOn with
  | nil => rwa [List.append_nil]
  | append_singleton entries entry ih =>
    rw [← List.append_assoc, guarded_concat]
    have hrest : Entry.secured ∉ entries := fun hmem => hfresh (List.mem_append_left _ hmem)
    refine ⟨ih hrest fun other hother => hentries other (List.mem_append_left _ hother), ?_⟩
    rcases hentries entry (by simp) with ⟨bytes, rfl, hnone⟩ | ⟨frame, rfl, hsome⟩
    · show Entry.secured ∉ log ++ entries
      rw [List.mem_append, not_or]
      refine ⟨?_, hrest⟩
      rw [← houtput, hnone]
      exact Bool.false_ne_true
    · exact List.mem_append_left _ (houtput.mp hsome)
/-- The decoder hands out a request. -/
theorem Connection.Held.take {c : Connection} {log : List Entry} (h : c.Held log)
    {request : Request} {rest bytes : List UInt8} (hbytes : bytes ++ rest = c.wire.pending)
    (hrest : ByteFed c.wire.pending → rest = []) :
    Allowed log (.request bytes request) ∧
      Connection.Held { c with wire := { c.wire with pending := rest } }
        (log ++ [.request bytes request]) := by
  have hsecured : .secured ∈ log ++ [Entry.request bytes request] ↔ .secured ∈ log := by
    simp
  have heffects : effects (log ++ [.request bytes request]) = effects log := by
    rw [effects_append]
    exact List.append_nil _
  have hplain : .secured ∉ log → rest = [] ∧ consumed log ++ bytes = bytesRead log := by
    intro hnot
    obtain ⟨hall, hfed, -⟩ := h.plain hnot
    obtain rfl := hrest hfed
    rw [List.append_nil] at hbytes
    rw [hbytes]
    exact ⟨rfl, hall⟩
  constructor
  · refine ⟨fun hnot => (hplain hnot).2, ?_⟩
    intro hmem
    obtain ⟨earlier, hconsumed, hdecrypted⟩ := h.ciphered hmem
    refine ⟨earlier, hconsumed, rest, ?_⟩
    rw [hdecrypted, ← hbytes, List.append_assoc]
  · refine ⟨h.sound, heffects ▸ h.tasks, heffects ▸ h.connections, ?_, ?_, ?_, ?_,
      heffects ▸ h.authenticated, ?_, ?_⟩
    · rw [hsecured]
      exact h.input
    · rw [hsecured]
      exact h.output
    · rw [hsecured]
      exact h.verified
    · rw [hsecured, heffects]
      exact h.marked
    · rw [hsecured]
      intro hnot
      obtain ⟨rfl, hall⟩ := hplain hnot
      refine ⟨?_, Or.inl ControlDecoder.parse_nil, ?_⟩
      · have hread : bytesRead [Entry.request bytes request] = [] := rfl
        rw [consumed_append, bytesRead_append, hread, List.append_nil, List.append_nil, ← hall]
        simp [consumed, Entry.taken]
      · rw [decrypted_append, (h.plain hnot).2.2]
        rfl
    · rw [hsecured]
      intro hmem
      obtain ⟨earlier, hconsumed, hdecrypted⟩ := h.ciphered hmem
      refine ⟨earlier ++ bytes, ?_, ?_⟩
      · rw [consumed_append, bytesRead_append, hconsumed]
        simp [consumed, bytesRead, Entry.taken, Entry.byte]
      · rw [decrypted_append, hdecrypted, ← hbytes]
        simp [decrypted, Entry.opened]

theorem guarded_shape {c : Connection} {log : List Entry} (h : c.Held log)
    (hlog : Guarded Allowed log) {es : List Effect} (hshape : c.session.Shape es) :
    Guarded Allowed (log ++ es.map .effect) := by
  have hfresh : c.session.verified = none → .verified ∉ effects log := by
    intro hnone hmem
    have hsome := h.verified.mpr (h.marked hmem)
    rw [hnone] at hsome
    exact absurd hsome (by decide)
  cases hshape with
  | none => rwa [List.map_nil, List.append_nil]
  | acting es hauthenticated hes =>
    have hsecured := h.verified.mp (h.sound.verified hauthenticated)
    exact guarded_inSession hlog hsecured (h.authenticated hauthenticated) hes
  | authenticated hsome => exact guarded_concat.mpr ⟨hlog, h.verified.mp hsome⟩
  | pairing hnone => exact guarded_concat.mpr ⟨hlog, hfresh hnone⟩
  | verified hnone =>
    have hpairing : Guarded Allowed (log ++ [.effect .pairing]) :=
      guarded_concat.mpr ⟨hlog, hfresh hnone⟩
    have hverified : Allowed (log ++ [.effect .pairing]) (.effect .verified) := by
      show Effect.verified ∉ effects (log ++ [.effect .pairing])
      rw [effects_append, List.mem_append, not_or]
      exact ⟨hfresh hnone, by simp [effects, Entry.acted]⟩
    have hboth := guarded_concat.mpr ⟨hpairing, hverified⟩
    rwa [List.append_assoc] at hboth

/-- The effects of a request follow the log, whatever its answer is. -/
theorem Lawful.dispatched {c : Connection} {log : List Entry} (h : Lawful (.running c) log)
    {result : Dispatched} (hanswered : c.session.Answered result) (e : Except Error Unit) :
    Lawful (.ended e) (log ++ result.2.1.map .effect) := by
  have hheld := h.held c rfl
  refine ⟨guarded_shape hheld h.allowed hanswered.shape, ?_, ?_, fun _ hc => nomatch hc⟩
  · rw [effects_append, effects_map, spawned_append, ← hheld.tasks, ← hanswered.tasks]
    exact hanswered.slots
  · rw [effects_append, effects_map, fitting_append]
    refine ⟨h.fitting, ?_⟩
    rw [← hheld.connections]
    exact hanswered.fitting

/-- A request that leaves the ciphers as they are. -/
theorem Connection.Held.answered {c : Connection} {log : List Entry} (h : c.Held log)
    {session : Session} {es : List Effect} {answer : Answer}
    (hanswered : c.session.Answered (session, es, .ok answer)) (hactivate : answer.activate = false) :
    Connection.Held { c with session } (log ++ es.map .effect) := by
  have hverified : session.verified.isSome = c.session.verified.isSome := by
    cases hold : c.session.verified with
    | none =>
      rw [(hanswered.unverified answer rfl hactivate hold).1]
    | some keys =>
      have hkept := hanswered.verified (by rw [hold]; rfl)
      rw [← hold]
      exact congrArg _ hkept
  refine h.still (still_effects es) (secured_notMem_effects es) (hanswered.sound answer rfl) ?_ ?_
    rfl rfl rfl hverified ?_ ?_
  · rw [effects_map]
    exact hanswered.tasks
  · rw [effects_map]
    exact hanswered.connections
  · rw [effects_map]
    intro hmem
    cases hold : c.session.verified with
    | none => exact absurd hmem (hanswered.unverified answer rfl hactivate hold).2
    | some keys => rfl
  · rw [effects_map]
    exact hanswered.marked

/-- Writing the answer of a request. -/
theorem Connection.Held.sent {c : Connection} {log : List Entry} (h : c.Held log)
    {result : Wire × List Entry × Except Error Unit} (hsent : Sent c.wire result) :
    Connection.Held { c with wire := result.1 } (log ++ result.2.1) := by
  obtain ⟨hstill, heffects, hfresh⟩ := hsent.still
  refine h.still hstill hfresh h.sound ?_ ?_ (congrArg _ hsent.input) hsent.output hsent.pending rfl
    ?_ Or.inl
  · rw [heffects]
    exact (List.append_nil _).symm
  · rw [heffects]
    rfl
  · rw [heffects]
    exact fun hmem => nomatch hmem
/-- The answer that completes the verification is written in plain; the ciphers follow it, and no
plain byte is left in the decoder. -/
theorem Connection.Held.secured {c : Connection} {log : List Entry} (h : c.Held log)
    (hpending : .secured ∉ log → c.wire.pending = []) {session : Session} {es : List Effect}
    {answer : Answer} (hanswered : c.session.Answered (session, es, .ok answer))
    (hactivate : answer.activate = true) {result : Wire × List Entry × Except Error Unit}
    (hsent : Sent c.wire result) (keys : Verified) :
    Allowed (log ++ es.map .effect ++ result.2.1) .secured ∧
      Connection.Held ⟨session, secure result.1 keys⟩
        (log ++ es.map .effect ++ result.2.1 ++ [.secured]) := by
  obtain ⟨hnone, hverified, hboth, -⟩ := hanswered.activate answer rfl hactivate
  have hes : es = [.pairing, .verified] := hboth
  obtain ⟨hstill, heffects, hfresh⟩ := hsent.still
  have hmoved : Still (es.map .effect ++ result.2.1) := (still_effects es).append hstill
  have hnot : .secured ∉ log := by
    rw [← h.verified, hnone]
    exact Bool.false_ne_true
  obtain ⟨hbytes, -, hdecrypted⟩ := h.plain hnot
  rw [hpending hnot, List.append_nil] at hbytes
  have hconsumed : consumed (log ++ es.map .effect ++ result.2.1) = bytesRead log := by
    rw [List.append_assoc, consumed_append, hmoved.consumed, List.append_nil, hbytes]
  have hread : bytesRead (log ++ es.map .effect ++ result.2.1) = bytesRead log := by
    rw [List.append_assoc, bytesRead_append, hmoved.bytesRead, List.append_nil]
  have hall : effects (log ++ es.map .effect ++ result.2.1) = effects log ++ es := by
    rw [effects_append, effects_append, effects_map, heffects, List.append_nil]
  have hlast : effects (log ++ es.map .effect ++ result.2.1 ++ [.secured]) = effects log ++ es := by
    rw [effects_append, hall]
    exact List.append_nil _
  have hmem : .secured ∈ log ++ es.map Entry.effect ++ result.2.1 ++ [.secured] := by
    simp
  constructor
  · refine ⟨?_, ?_, hconsumed.trans hread.symm⟩
    · simp only [List.mem_append, not_or]
      exact ⟨⟨hnot, secured_notMem_effects es⟩, hfresh⟩
    · rw [hall, hes]
      simp
  · refine ⟨hanswered.sound answer rfl, ?_, ?_, iff_of_true rfl hmem, iff_of_true rfl hmem,
      iff_of_true hverified hmem, fun _ => hmem, ?_, fun hfalse => absurd hmem hfalse, ?_⟩
    · rw [hlast, spawned_append, ← h.tasks]
      exact hanswered.tasks
    · rw [hlast, live_append, ← h.connections]
      exact hanswered.connections
    · rw [hlast]
      intro htrue
      rcases hanswered.marked htrue with hold | hnew
      · exact List.mem_append_left _ (h.authenticated hold)
      · exact List.mem_append_right _ hnew
    · intro _
      refine ⟨[], ?_, ?_⟩
      · have hlastConsumed : consumed [Entry.secured] = [] := rfl
        have hlastRead : bytesRead [Entry.secured] = [] := rfl
        rw [consumed_append, bytesRead_append, hconsumed, hread, hlastConsumed, hlastRead,
          List.append_nil, List.append_nil]
      · rw [List.append_assoc, List.append_assoc, decrypted_append, hdecrypted,
          ← List.append_assoc, decrypted_append, hmoved.decrypted]
        show [] = result.1.pending
        rw [hsent.pending, hpending hnot]

/-- The plain part of serving a request: its bytes, its effects and its answer. -/
theorem answer_lawful {c : Connection} {log : List Entry} (h : Lawful (.running c) log)
    (hpending : .secured ∉ log → c.wire.pending = []) {session : Session} {es : List Effect}
    {reply : Answer} (hanswered : c.session.Answered (session, es, .ok reply))
    (written : ℕ → Except Error Unit) (request : Request) :
    Lawful (answer setting session c.wire written request reply).1
      (log ++ es.map .effect ++ (answer setting session c.wire written request reply).2) := by
  have hheld := h.held c rfl
  have hsent := respond_sent setting c.wire written request reply.body reply.kind
  have houtput : c.wire.output.isSome ↔ .secured ∈ log ++ es.map Entry.effect := by
    rw [List.mem_append, or_iff_left (secured_notMem_effects es)]
    exact hheld.output
  have hdone := h.dispatched hanswered (.ok ())
  have hallowed := hsent.guarded hdone.allowed houtput
  obtain ⟨-, heffects, -⟩ := hsent.still
  -- Writing adds no effect, so only the allowed entries and the invariant are left to show.
  have hlawful : ∀ next, (∀ c', next = .running c' → c'.Held
      (log ++ es.map .effect ++
        (respond setting c.wire written request reply.body reply.kind).2.1)) →
      Lawful next (log ++ es.map .effect ++
        (respond setting c.wire written request reply.body reply.kind).2.1) := by
    intro next hnext
    refine ⟨hallowed, ?_, ?_, hnext⟩
    · rw [effects_append, heffects, List.append_nil]
      exact hdone.slots
    · rw [effects_append, heffects, List.append_nil]
      exact hdone.fitting
  unfold answer
  rcases hrespond : respond setting c.wire written request reply.body reply.kind with
    ⟨wire, entries, e | u⟩
  · rw [hrespond] at hlawful
    exact hlawful _ fun _ hc => nomatch hc
  · dsimp only
    split_ifs with hlast hactivate
    · rw [hrespond] at hlawful
      exact hlawful _ fun _ hc => nomatch hc
    · have hsecured := hheld.secured hpending hanswered hactivate hsent
      rw [hrespond] at hlawful hsecured
      cases session.verified with
      | none => exact hlawful _ fun _ hc => nomatch hc
      | some keys =>
        dsimp only
        rw [← List.append_assoc]
        have hended := hlawful (.ended (.ok ())) fun _ hc => nomatch hc
        apply hended.concat rfl (hsecured keys).1
        intro next hnext
        cases hnext
        exact (hsecured keys).2
    · have hkept := (hheld.answered hanswered (by simpa using hactivate)).sent hsent
      rw [hrespond] at hlawful hkept
      apply hlawful
      intro next hnext
      cases hnext
      exact hkept

theorem serve_lawful {c : Connection} {log : List Entry} (h : Lawful (.running c) log)
    (out : Outcomes) (written : ℕ → Except Error Unit) {request : Request} {rest : List UInt8}
    (hnext : ControlDecoder.nextRequest c.wire.pending = .ok (some (request, rest))) :
    Lawful (serve setting c out written request rest).1
      (log ++ (serve setting c out written request rest).2) := by
  have hheld := h.held c rfl
  obtain ⟨hbytes, hrest⟩ := nextRequest_some hnext
  obtain ⟨hallowed, htaken⟩ : Allowed log (.request _ request) ∧ _ := hheld.take hbytes hrest
  have hlawful : Lawful (.running { c with wire := { c.wire with pending := rest } })
      (log ++ [.request (c.wire.pending.take (c.wire.pending.length - rest.length)) request]) := by
    apply h.concat rfl hallowed
    intro next hnext
    cases hnext
    exact htaken
  have hempty : .secured ∉ log ++ [Entry.request
      (c.wire.pending.take (c.wire.pending.length - rest.length)) request] → rest = [] := by
    intro hnot
    exact hrest (hheld.plain fun hmem => hnot (List.mem_append_left _ hmem)).2.1
  have hanswered := Session.dispatch_answered setting c.session hheld.sound request out
  unfold serve
  rcases hdispatch : c.session.dispatch setting request out with ⟨session, es, e | reply⟩
  · rw [hdispatch] at hanswered
    dsimp only
    rw [List.append_cons]
    exact hlawful.dispatched hanswered (.error e)
  · rw [hdispatch] at hanswered
    dsimp only
    rw [List.cons_append, List.append_cons, ← List.append_assoc]
    exact answer_lawful setting hlawful hempty hanswered written request

/-! ## Runs -/

theorem step_lawful {state : State} {log : List Entry} (h : Lawful state log) (event : Event) :
    Lawful (step setting state event).1 (log ++ (step setting state event).2) := by
  cases state with
  | ended result =>
    simp only [step, List.append_nil]
    exact h
  | running c =>
    have hheld := h.held c rfl
    cases event with
    | arrive bytes =>
      simp only [step, List.append_nil]
      refine ⟨h.allowed, h.slots, h.fitting, ?_⟩
      intro next hnext
      cases hnext
      exact ⟨hheld.sound, hheld.tasks, hheld.connections, hheld.input, hheld.output, hheld.verified,
        hheld.marked, hheld.authenticated, hheld.plain, hheld.ciphered⟩
    | turn out written =>
      simp only [step]
      rcases hnext : ControlDecoder.nextRequest c.wire.pending with e | _ | ⟨request, rest⟩
      · rw [List.append_nil]
        exact h.ended _
      · exact readOn_lawful setting h (nextRequest_none hnext)
      · exact serve_lawful setting h out written hnext
    | command command => exact command_lawful setting h command
    | wake connection event => exact wake_lawful setting h connection event
    | failed e =>
      simp only [step, List.append_nil]
      exact h.ended _

/-- Everything that happened in a run. -/
def logged (history : List (Event × List Entry)) : List Entry := history.flatMap Prod.snd

theorem run_lawful (peers : Peers) (events : List Event) :
    Lawful (run (step setting) (start setting peers) events).1
      (logged (run (step setting) (start setting peers) events).2) := by
  apply run_history (step setting) (I := fun state history => Lawful state (logged history))
  · refine ⟨guarded_nil _, List.nodup_nil, trivial, ?_⟩
    intro c hc
    cases hc
    have hsound : (Session.initial setting peers).Sound := by
      refine ⟨List.nodup_nil, fun _ => ⟨List.not_mem_nil, List.not_mem_nil⟩,
        fun _ => List.not_mem_nil, Nat.zero_le 4, List.nodup_nil, fun _ => ⟨rfl, rfl, rfl, rfl, rfl, rfl⟩, ?_⟩
      exact fun hfalse => absurd hfalse Bool.false_ne_true
    refine ⟨hsound, rfl, rfl, ?_, ?_, ?_, fun hmem => (nomatch hmem), ?_, ?_, fun hmem => nomatch hmem⟩
    · simp [logged]
    · simp [logged]
    · simp [logged, Session.initial]
    · exact fun hfalse => absurd hfalse Bool.false_ne_true
    · exact fun _ => ⟨rfl, Or.inl ControlDecoder.parse_nil, rfl⟩
  · intro state history event h
    have hlogged : logged (history ++ [(event, (step setting state event).2)]) =
        logged history ++ (step setting state event).2 := by
      simp [logged]
    rw [hlogged]
    exact step_lawful setting h event
/-- What the receiver promises of a connection at the end of a run: each entry of the log followed
what it has to follow, and at every moment of the run tasks and streams were within their bounds. -/
structure Contract (state : State) (log : List Entry) : Prop where
  allowed : Guarded Allowed log
  slots : ∀ before, before <+: log → ((spawned (effects before)).map Task.slot).Nodup
  audio : ∀ before, before <+: log →
    (live [] (effects before)).length ≤ 4 ∧ (live [] (effects before)).Nodup
  owned : ∀ c, state = .running c →
    c.session.tasks = spawned (effects log) ∧ c.session.connections = live [] (effects log)
  idle : ∀ c, state = .running c → c.session.authenticated = false → c.session.Idle
  refused : ∀ c, state = .running c → c.session.verified.isSome → ∀ request out,
    request.method = "POST" → request.target = "/pair-setup" ∨ request.target = "/pair-verify" →
    c.session.dispatch setting request out = (c.session, [], .error .unsupported)

theorem gating_contract (peers : Peers) (events : List Event) :
    Contract setting (run (step setting) (start setting peers) events).1
      (logged (run (step setting) (start setting peers) events).2) := by
  have h := run_lawful setting peers events
  refine ⟨h.allowed, ?_, ?_, ?_, ?_, ?_⟩
  · rintro before ⟨after, hsplit⟩
    have hslots := h.slots
    rw [← hsplit, effects_append, spawned_append, List.map_append] at hslots
    exact hslots.of_append_left
  · rintro before ⟨after, hsplit⟩
    have hfitting := h.fitting
    rw [← hsplit, effects_append, fitting_append] at hfitting
    exact hfitting.1.bounded (Nat.zero_le 4) List.nodup_nil
  · intro c hc
    exact ⟨(h.held c hc).tasks, (h.held c hc).connections⟩
  · intro c hc
    exact (h.held c hc).sound.idle
  · intro c _ hverified request out hmethod htarget
    exact Session.pairing_refused setting hverified hmethod htarget out

end ProjectArgo.CarPlay.Receiver
