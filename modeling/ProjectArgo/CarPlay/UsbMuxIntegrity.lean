import ProjectArgo.CarPlay.UsbMux

/-!
# Integrity of the multiplexed streams

The invariant ties every live connection to the effects of the run so far: its
counters are byte counts modulo `2 ^ 32`. From it follow in-order delivery, the
answer to every packet of the phone, and that a local port is used once.
-/
namespace ProjectArgo.CarPlay.UsbMux

open Library.Bytes Library.Run

/-! ## The invariant of the loop -/

/-- Nothing was handed to the client of a port, sent for it, or connected on it. -/
structure Untouched (effects : List Effect) (port : UInt16) : Prop where
  delivered : delivered port effects = []
  uploaded : uploaded port effects = 0
  firstByte : firstByte port effects = none

theorem Silent.untouched {effects : List Effect} (h : Silent effects) (port : UInt16) :
    Untouched effects port :=
  ⟨h.delivered port, h.uploaded port, h.firstByte port⟩

/-- A connection that waits for the second half of its handshake. -/
structure Opening (log : List Effect) (port : UInt16) (c : Connection) : Prop where
  ready : c.ready = true
  client : c.client = true
  sent : c.sent = 0
  received : c.received = 0
  acknowledged : c.acknowledged = 0
  untouched : Untouched log port

/-- The counters of an established connection are its byte counts modulo `2 ^ 32`: what its
client received, what its client sent, and how much of that the phone acknowledged. -/
structure Established (log : List Effect) (port : UInt16) (c : Connection) (start : UInt32)
    (acked : ℕ) : Prop where
  ready : c.ready = false
  firstByte : firstByte port log = some start
  received : c.received = start + UInt32.ofNat (delivered port log).length
  sent : c.sent = 1 + UInt32.ofNat (uploaded port log)
  acknowledged : c.acknowledged = 1 + UInt32.ofNat acked
  behind : acked ≤ uploaded port log
  window : uploaded port log - acked ≤ 196572

def Tracks (log : List Effect) (port : UInt16) (c : Connection) : Prop :=
  Opening log port c ∨ ∃ start acked, Established log port c start acked

structure Coherent (m : Mux) (log : List Effect) : Prop where
  nodup : (openedPorts log).Nodup
  below : ∀ port ∈ openedPorts log, port.toNat < m.port.toNat
  fresh : ∀ port, port ∉ openedPorts log → Untouched log port
  opened : ∀ port c, m.connections.lookup port = some c → port ∈ openedPorts log
  tracks : ∀ port c, m.connections.lookup port = some c → Tracks log port c

theorem Untouched.append {log effects : List Effect} {port : UInt16} (h : Untouched log port)
    (heffects : Untouched effects port) : Untouched (log ++ effects) port where
  delivered := by rw [delivered_append, h.delivered, heffects.delivered, List.append_nil]
  uploaded := by rw [uploaded_append, h.uploaded, heffects.uploaded]
  firstByte := by rw [firstByte_append, h.firstByte, heffects.firstByte, Option.or_none]

theorem Tracks.append {log effects : List Effect} {port : UInt16} {c : Connection}
    (h : Tracks log port c) (heffects : Untouched effects port) :
    Tracks (log ++ effects) port c := by
  have hdelivered : delivered port (log ++ effects) = delivered port log := by
    rw [delivered_append, heffects.delivered, List.append_nil]
  have huploaded : uploaded port (log ++ effects) = uploaded port log := by
    rw [uploaded_append, heffects.uploaded, Nat.add_zero]
  have hfirst : firstByte port (log ++ effects) = firstByte port log := by
    rw [firstByte_append, heffects.firstByte, Option.or_none]
  rcases h with h | ⟨start, acked, h⟩
  · exact Or.inl { h with untouched := h.untouched.append heffects }
  · refine Or.inr ⟨start, acked, ?_⟩
    exact
      { ready := h.ready
        firstByte := by rw [hfirst, h.firstByte]
        received := by rw [hdelivered, h.received]
        sent := by rw [huploaded, h.sent]
        acknowledged := h.acknowledged
        behind := by rw [huploaded]; exact h.behind
        window := by rw [huploaded]; exact h.window }

/-- A step that opens nothing and touches one opened port keeps the invariant as soon as it tracks
that port. -/
theorem Coherent.update {m m' : Mux} {log effects : List Effect} {port : UInt16}
    (h : Coherent m log) (hport : m'.port = m.port) (hopened : openedPorts effects = [])
    (hmem : port ∈ openedPorts log) (hothers : ∀ q, q ≠ port → Untouched effects q)
    (hsame : ∀ q, q ≠ port → m'.connections.lookup q = m.connections.lookup q)
    (htracks : ∀ c, m'.connections.lookup port = some c → Tracks (log ++ effects) port c) :
    Coherent m' (log ++ effects) := by
  have hports : openedPorts (log ++ effects) = openedPorts log := by
    rw [openedPorts_append, hopened, List.append_nil]
  refine ⟨?_, ?_, ?_, ?_, ?_⟩
  · rw [hports]
    exact h.nodup
  · rw [hports, hport]
    exact h.below
  · intro q hq
    rw [hports] at hq
    have hne : q ≠ port := fun heq => hq (heq ▸ hmem)
    exact (h.fresh q hq).append (hothers q hne)
  · intro q c hq
    rw [hports]
    by_cases hne : q = port
    · exact hne ▸ hmem
    · exact h.opened q c (by rw [← hsame q hne, hq])
  · intro q c hq
    by_cases hne : q = port
    · subst hne
      exact htracks c hq
    · exact (h.tracks q c (by rw [← hsame q hne, hq])).append (hothers q hne)

/-- What a step has to keep of the invariant, whether or not the loop goes on. -/
structure Kept (log effects : List Effect) (s : State) : Prop where
  nodup : (openedPorts (log ++ effects)).Nodup
  coherent : ∀ m, s = .running m → Coherent m (log ++ effects)

theorem Kept.running {log effects : List Effect} {m : Mux} (h : Coherent m (log ++ effects)) :
    Kept log effects (.running m) :=
  ⟨h.nodup, fun m' hm => by cases hm; exact h⟩

theorem Kept.ended {log effects : List Effect} {m : Mux} (h : Coherent m log)
    (hopened : openedPorts effects = []) (e : Error) : Kept log effects (.ended e) := by
  refine ⟨?_, fun m' hm => nomatch hm⟩
  rw [openedPorts_append, hopened, List.append_nil]
  exact h.nodup

theorem Coherent.same {m m' : Mux} {log : List Effect} (h : Coherent m log)
    (hport : m'.port = m.port) (hconnections : m'.connections = m.connections) :
    Coherent m' log := by
  obtain ⟨hnodup, hbelow, hfresh, hopened, htracks⟩ := h
  refine ⟨hnodup, ?_, hfresh, ?_, ?_⟩
  · rw [hport]
    exact hbelow
  · rw [hconnections]
    exact hopened
  · rw [hconnections]
    exact htracks

theorem Coherent.silent {m m' : Mux} {log effects : List Effect} (h : Coherent m log)
    (hport : m'.port = m.port) (hconnections : m'.connections = m.connections)
    (hsilent : Silent effects) : Coherent m' (log ++ effects) := by
  have h' := h.same hport hconnections
  have hports : openedPorts (log ++ effects) = openedPorts log := by
    rw [openedPorts_append, hsilent.opened, List.append_nil]
  refine ⟨?_, ?_, ?_, ?_, ?_⟩
  · rw [hports]
    exact h'.nodup
  · rw [hports]
    exact h'.below
  · intro q hq
    rw [hports] at hq
    exact (h'.fresh q hq).append (hsilent.untouched q)
  · rw [hports]
    exact h'.opened
  · intro q c hq
    exact (h'.tracks q c hq).append (hsilent.untouched q)

/-- Dropping a connection keeps the invariant. -/
theorem Coherent.erase {m m' : Mux} {log effects : List Effect} {port : UInt16} {c : Connection}
    (h : Coherent m log) (hlookup : m.connections.lookup port = some c) (hport : m'.port = m.port)
    (hconnections : m'.connections = m.connections.erase port) (hopened : openedPorts effects = [])
    (hothers : ∀ q, q ≠ port → Untouched effects q) : Coherent m' (log ++ effects) := by
  refine h.update hport hopened (h.opened port c hlookup) hothers ?_ ?_
  · intro q hq
    rw [hconnections, AList.lookup_erase_ne hq]
  · intro c' hc'
    rw [hconnections, AList.lookup_erase] at hc'
    exact nomatch hc'

theorem Coherent.insert {m m' : Mux} {log effects : List Effect} {port : UInt16}
    {c c' : Connection} (h : Coherent m log) (hlookup : m.connections.lookup port = some c)
    (hport : m'.port = m.port) (hconnections : m'.connections = m.connections.insert port c')
    (hopened : openedPorts effects = []) (hothers : ∀ q, q ≠ port → Untouched effects q)
    (htracks : Tracks (log ++ effects) port c') : Coherent m' (log ++ effects) := by
  refine h.update hport hopened (h.opened port c hlookup) hothers ?_ ?_
  · intro q hq
    rw [hconnections, AList.lookup_insert_ne hq]
  · intro d hd
    rw [hconnections, AList.lookup_insert] at hd
    cases hd
    exact htracks

theorem openPort_kept {m : Mux} {log : List Effect} (h : Coherent m log) (remote : UInt16) :
    Kept log (m.openPort remote).2 (m.openPort remote).1 := by
  unfold Mux.openPort
  split_ifs with hfull
  · exact Kept.running (h.silent rfl rfl ⟨fun _ => rfl, fun _ => rfl, fun _ => rfl, rfl⟩)
  · obtain ⟨message, -, hsend⟩ := send_nil { m with port := m.port + 1, tasks := m.tasks + 1 }
      m.port ⟨remote, 0, 0, 0, true, true⟩ 2
    dsimp only
    rw [hsend]
    dsimp only
    have hlast : m.port.toNat ≠ 65535 := fun hp => hfull (Or.inr (Or.inr hp))
    have hlt := m.port.toNat_lt
    have hnext : (m.port + 1).toNat = m.port.toNat + 1 := by
      rw [UInt16.toNat_add]
      exact Nat.mod_eq_of_lt (by simp; omega)
    have hnew : m.port ∉ openedPorts log := fun hp => Nat.lt_irrefl _ (h.below _ hp)
    have hports : openedPorts (log ++ [.opened m.port, .transmit m.port 2 [] message]) =
        openedPorts log ++ [m.port] := by
      rw [openedPorts_append]
      rfl
    have hquiet : ∀ q, Untouched [.opened m.port, .transmit m.port 2 [] message] q :=
      fun q => ⟨rfl, by simp [uploaded, Effect.upload], rfl⟩
    apply Kept.running
    refine ⟨?_, ?_, ?_, ?_, ?_⟩
    · rw [hports]
      exact h.nodup.append (List.nodup_singleton _) (by simpa using hnew)
    · intro q hq
      rw [hports, List.mem_append, List.mem_singleton] at hq
      show q.toNat < (m.port + 1).toNat
      rcases hq with hq | rfl
      · have := h.below q hq
        omega
      · omega
    · intro q hq
      rw [hports, List.mem_append, not_or] at hq
      exact (h.fresh q hq.1).append (hquiet q)
    · intro q c hq
      rw [hports, List.mem_append, List.mem_singleton]
      by_cases hne : q = m.port
      · exact Or.inr hne
      · rw [AList.lookup_insert_ne hne] at hq
        exact Or.inl (h.opened q c hq)
    · intro q c hq
      by_cases hne : q = m.port
      · subst hne
        rw [AList.lookup_insert] at hq
        cases hq
        exact Or.inl ⟨rfl, rfl, rfl, rfl, rfl, (h.fresh _ hnew).append (hquiet _)⟩
      · rw [AList.lookup_insert_ne hne] at hq
        exact (h.tracks q c hq).append (hquiet q)

theorem data_kept {m : Mux} {log : List Effect} (h : Coherent m log) (port : UInt16)
    (bytes : List UInt8) : Kept log (m.data port bytes).2 (m.data port bytes).1 := by
  unfold Mux.data
  cases hlookup : m.connections.lookup port with
  | none => exact Kept.running (h.silent rfl rfl silent_nil)
  | some c =>
    dsimp only
    split_ifs with hwait
    · exact Kept.ended h rfl _
    · rw [not_or] at hwait
      obtain ⟨-, hsend⟩ | ⟨hlength, message, -, hsend⟩ := send_cases m port c 16 bytes
      · rw [hsend]
        exact Kept.ended h rfl _
      · rw [hsend]
        dsimp only
        have hothers : ∀ q, q ≠ port → Untouched [.transmit port 16 bytes message] q :=
          fun q hq => ⟨rfl, by simp [uploaded, Effect.upload, hq.symm], rfl⟩
        have hupload : uploaded port (log ++ [.transmit port 16 bytes message]) =
            uploaded port log + bytes.length := by
          rw [uploaded_append]
          simp [uploaded, Effect.upload]
        apply Kept.running
        refine h.insert hlookup rfl rfl rfl hothers (Or.inr ?_)
        rcases h.tracks port c hlookup with hopening | ⟨start, acked, hup⟩
        · exact absurd hopening.ready hwait.1
        · have hflight : (c.sent - c.acknowledged).toNat = uploaded port log - acked := by
            have hwindow := hup.window
            have hsub : c.sent - c.acknowledged = UInt32.ofNat (uploaded port log - acked) := by
              rw [hup.sent, hup.acknowledged, UInt32.ofNat_sub hup.behind]
              grind
            rw [hsub, UInt32.toNat_ofNat']
            exact Nat.mod_eq_of_lt (by omega)
          refine ⟨start, acked, ?_⟩
          have hbehind := hup.behind
          exact
            { ready := hup.ready
              firstByte := by
                rw [firstByte_append, hup.firstByte]
                rfl
              received := by
                rw [delivered_append]
                simpa [delivered, Effect.bytesTo] using hup.received
              sent := by
                rw [hupload, UInt32.ofNat_add]
                show c.sent + _ = _
                rw [hup.sent, UInt32.add_assoc]
              acknowledged := hup.acknowledged
              behind := by omega
              window := by
                rw [hflight] at hwait
                omega }

theorem closed_kept {m : Mux} {log : List Effect} (h : Coherent m log) (port : UInt16) :
    Kept log (m.closed port).2 (m.closed port).1 := by
  unfold Mux.closed
  cases hlookup : m.connections.lookup port with
  | none => exact Kept.running (h.silent rfl rfl silent_nil)
  | some c =>
    obtain ⟨message, -, hsend⟩ := send_nil { m with connections := m.connections.erase port }
      port c 17
    dsimp only
    rw [hsend]
    apply Kept.running
    exact h.erase hlookup rfl rfl rfl fun q _ => (silent_transmit port 17 message).untouched q

theorem connect_kept {m : Mux} {log : List Effect} (h : Coherent m log) {c : Connection}
    (k : Packet) (waiting : Bool) (hlookup : m.connections.lookup k.destination = some c)
    (hopening : Opening log k.destination c) :
    Kept log (m.connect c k waiting).2 (m.connect c k waiting).1 := by
  unfold Mux.connect
  by_cases hack : k.ack = 1
  · obtain ⟨message, -, hsend⟩ := send_nil m k.destination
      { c with sent := 1, acknowledged := 1, received := k.sequence + 1 } 16
    have hquiet := silent_transmit k.destination 16 message
    rw [if_neg (not_not.mpr hack)]
    dsimp only
    rw [hsend]
    dsimp only
    rw [if_neg (not_not.mpr hopening.client)]
    cases waiting with
    | true =>
      apply Kept.running
      refine h.insert hlookup rfl rfl rfl ?_ (Or.inr ⟨k.sequence + 1, 0, ?_⟩)
      · intro q hq
        refine ⟨rfl, by simp [uploaded, Effect.upload], ?_⟩
        simp [firstByte, Effect.connection, hq.symm]
      · have hnone := hopening.untouched
        exact
          { ready := rfl
            firstByte := by
              rw [firstByte_append, hnone.firstByte]
              simp [firstByte, List.findSome?_cons, Effect.connection]
            received := by
              rw [delivered_append, hnone.delivered]
              simp [delivered, Effect.bytesTo]
            sent := by
              rw [uploaded_append, hnone.uploaded]
              simp [uploaded, Effect.upload]
            acknowledged := by simp
            behind := Nat.zero_le _
            window := by
              rw [uploaded_append, hnone.uploaded]
              simp [uploaded, Effect.upload] }
    | false =>
      apply Kept.running
      exact h.erase hlookup rfl rfl rfl fun q _ => hquiet.untouched q
  · rw [if_pos hack]
    exact Kept.ended h rfl _

/-- Exactly the acknowledgements of sent and not yet acknowledged bytes are accepted. -/
theorem acknowledge_range {log : List Effect} {port : UInt16} {c : Connection} {start : UInt32}
    {acked : ℕ} (h : Established log port c start acked) (ack : UInt32) :
    ack - c.acknowledged ≤ c.sent - c.acknowledged ↔
      ∃ upto, acked ≤ upto ∧ upto ≤ uploaded port log ∧ ack = 1 + UInt32.ofNat upto := by
  have hwindow := h.window
  have hbehind := h.behind
  have hflight : (c.sent - c.acknowledged).toNat = uploaded port log - acked := by
    have hsub : c.sent - c.acknowledged = UInt32.ofNat (uploaded port log - acked) := by
      rw [h.sent, h.acknowledged, UInt32.ofNat_sub h.behind]
      grind
    rw [hsub, UInt32.toNat_ofNat']
    exact Nat.mod_eq_of_lt (by omega)
  rw [UInt32.le_iff_toNat_le, hflight]
  constructor
  · intro hle
    refine ⟨acked + (ack - c.acknowledged).toNat, by omega, by omega, ?_⟩
    rw [UInt32.ofNat_add, UInt32.ofNat_toNat, ← UInt32.add_assoc, ← h.acknowledged]
    grind
  · rintro ⟨upto, hlow, hhigh, rfl⟩
    have hsub : 1 + UInt32.ofNat upto - c.acknowledged = UInt32.ofNat (upto - acked) := by
      rw [h.acknowledged, UInt32.ofNat_sub hlow]
      grind
    rw [hsub, UInt32.toNat_ofNat', Nat.mod_eq_of_lt (by omega)]
    omega

/-- An accepted acknowledgement moves the acknowledged count and nothing else. -/
theorem acknowledge_established {log : List Effect} {port : UInt16} {c c' : Connection}
    {start : UInt32} {acked : ℕ} {k : Packet} (h : Established log port c start acked)
    (hack : c.acknowledge k = .ok c') :
    ∃ acked', acked ≤ acked' ∧ Established log port c' start acked' := by
  unfold Connection.acknowledge at hack
  split_ifs at hack with hflag hrange
  · obtain ⟨upto, hlow, hhigh, hupto⟩ := (acknowledge_range h k.ack).mp hrange
    cases hack
    have hwindow := h.window
    exact ⟨upto, hlow, h.ready, h.firstByte, h.received, h.sent, hupto, hhigh, by omega⟩
  · cases hack
    exact ⟨acked, le_refl _, h⟩

theorem absorb_kept {m : Mux} {log : List Effect} (h : Coherent m log) {c c' : Connection}
    (k : Packet) (write : LocalWrite) {start : UInt32} {acked : ℕ}
    (hlookup : m.connections.lookup k.destination = some c)
    (hup : Established log k.destination c' start acked) :
    Kept log (m.absorb c' k write).2 (m.absorb c' k write).1 := by
  obtain ⟨bytes, effects, heffects, -, hdelivered, huploaded, hfirst, hopened, hfate⟩ :=
    absorb_cases m c' k write
  rw [heffects]
  have hothers : ∀ q, q ≠ k.destination → Untouched effects q := fun q hq =>
    ⟨by rw [hdelivered q, if_neg hq], huploaded q, hfirst q⟩
  generalize (m.absorb c' k write).1 = next at hfate
  cases hfate with
  | ended e => exact Kept.ended h hopened e
  | removed m' hport hconnections =>
    exact Kept.running (h.erase hlookup hport hconnections hopened hothers)
  | kept m' hport hconnections =>
    apply Kept.running
    refine h.insert hlookup hport hconnections hopened hothers (Or.inr ⟨start, acked, ?_⟩)
    have hupload : uploaded k.destination (log ++ effects) = uploaded k.destination log := by
      rw [uploaded_append, huploaded, Nat.add_zero]
    exact
      { ready := hup.ready
        firstByte := by
          rw [firstByte_append, hup.firstByte]
          rfl
        received := by
          rw [delivered_append, hdelivered, if_pos rfl, List.length_append, UInt32.ofNat_add,
            ← UInt32.add_assoc, ← hup.received]
        sent := by rw [hupload]; exact hup.sent
        acknowledged := hup.acknowledged
        behind := by rw [hupload]; exact hup.behind
        window := by rw [hupload]; exact hup.window }

theorem receive_kept {m : Mux} {log : List Effect} (h : Coherent m log) {c : Connection}
    (k : Packet) (waiting : Bool) (write : LocalWrite)
    (hlookup : m.connections.lookup k.destination = some c) :
    Kept log (m.receive c k waiting write).2 (m.receive c k waiting write).1 := by
  unfold Mux.receive
  split_ifs with hsource hreset hsyn hready
  · exact Kept.ended h rfl _
  · exact Kept.running (h.erase hlookup rfl rfl rfl fun q _ => silent_nil.untouched q)
  · rcases h.tracks _ c hlookup with hopening | ⟨start, acked, hup⟩
    · exact connect_kept h k waiting hlookup hopening
    · rw [hup.ready] at hsyn
      exact absurd hsyn.2 Bool.false_ne_true
  · exact Kept.ended h rfl _
  · rcases h.tracks _ c hlookup with hopening | ⟨start, acked, hup⟩
    · exact absurd hopening.ready hready
    · cases hack : c.acknowledge k with
      | error e => exact Kept.ended h rfl _
      | ok c' =>
        obtain ⟨acked', -, hup'⟩ := acknowledge_established hup hack
        exact absorb_kept h k write hlookup hup'

theorem step_kept {m : Mux} {log : List Effect} (h : Coherent m log) (event : Event) :
    Kept log (step (.running m) event).2 (step (.running m) event).1 := by
  cases event with
  | openPort remote => exact openPort_kept h remote
  | data port bytes => exact data_kept h port bytes
  | closed port => exact closed_kept h port
  | taskEnded => exact Kept.running (h.silent rfl rfl silent_nil)
  | failed e => exact Kept.ended h rfl _
  | packet bytes waiting write =>
    simp only [step]
    unfold Mux.packet
    split_ifs with hprotocol
    · exact Kept.running (h.silent rfl rfl silent_nil)
    · cases hpacket : packet bytes with
      | error e => exact Kept.ended h rfl _
      | ok k =>
        dsimp only
        cases hlookup : m.connections.lookup k.destination with
        | none => exact Kept.running (h.silent rfl rfl silent_nil)
        | some c => exact receive_kept h k waiting write hlookup

/-! ## Order of delivery -/

/-- Every effect of a history, in order. -/
def log (history : List (Event × List Effect)) : List Effect := history.flatMap Prod.snd

theorem log_concat (history : List (Event × List Effect)) (event : Event) (effects : List Effect) :
    log (history ++ [(event, effects)]) = log history ++ effects := by
  simp [log]

/-- A delivery answers a packet for that port which starts at the received position. -/
def Ordered (before : List (Event × List Effect)) (event : Event) (effects : List Effect) : Prop :=
  ∀ port, delivered port effects ≠ [] →
    ∃ bytes waiting write k first, event = .packet bytes waiting write ∧ packet bytes = .ok k ∧
      k.destination = port ∧ firstByte port (log before) = some first ∧
      k.sequence = first + UInt32.ofNat (delivered port (log before)).length ∧
      delivered port effects <+: k.payload

/-- The phone carries the byte stream `stream` to a port: every data packet is a segment of it,
numbered from the first byte, less than `2 ^ 32` bytes away from the received position. -/
def Carries (port : UInt16) (stream : ℕ → UInt8) (before : List (Event × List Effect))
    (event : Event) (_ : List Effect) : Prop :=
  ∀ bytes waiting write k first, event = .packet bytes waiting write → packet bytes = .ok k →
    k.destination = port → k.payload ≠ [] → firstByte port (log before) = some first →
    ∃ offset, k.sequence = first + UInt32.ofNat offset ∧
      offset < (delivered port (log before)).length + 2 ^ 32 ∧
      (delivered port (log before)).length < offset + 2 ^ 32 ∧
      k.payload = (List.range k.payload.length).map fun i => stream (offset + i)

/-- Only an acceptable data packet of an established connection delivers anything. -/
theorem receive_delivered {m : Mux} {log : List Effect} (h : Coherent m log) {c : Connection}
    {k : Packet} {waiting : Bool} {write : LocalWrite} {port : UInt16}
    (hlookup : m.connections.lookup k.destination = some c)
    (hsome : delivered port (m.receive c k waiting write).2 ≠ []) :
    k.destination = port ∧ ∃ first, firstByte port log = some first ∧
      k.sequence = first + UInt32.ofNat (delivered port log).length ∧
      delivered port (m.receive c k waiting write).2 <+: k.payload := by
  unfold Mux.receive at hsome ⊢
  split_ifs at hsome ⊢ with hsource hreset hsyn hready
  · exact absurd rfl hsome
  · exact absurd rfl hsome
  · refine absurd ?_ hsome
    unfold Mux.connect
    by_cases hack : k.ack = 1
    · obtain ⟨message, -, hsend⟩ := send_nil m k.destination
        { c with sent := 1, acknowledged := 1, received := k.sequence + 1 } 16
      rw [if_neg (not_not.mpr hack)]
      dsimp only
      rw [hsend]
      dsimp only
      split_ifs <;> rfl
    · rw [if_pos hack]
      rfl
  · exact absurd rfl hsome
  · rcases h.tracks _ c hlookup with hopening | ⟨first, acked, hup⟩
    · exact absurd hopening.ready hready
    · cases hack : c.acknowledge k with
      | error e =>
        rw [hack] at hsome
        exact absurd rfl hsome
      | ok c' =>
        rw [hack] at hsome
        dsimp only at hsome ⊢
        obtain ⟨acked', -, hup'⟩ := acknowledge_established hup hack
        obtain ⟨bytes, effects, heffects, hbytes, hdelivered, -⟩ := absorb_cases m c' k write
        rw [heffects, hdelivered] at hsome ⊢
        split_ifs at hsome ⊢ with hport
        · subst hport
          rcases hbytes with rfl | ⟨-, hnext, hfront⟩
          · exact absurd rfl hsome
          · exact ⟨rfl, first, hup'.firstByte, hup'.received ▸ hnext, hfront⟩
        · exact absurd rfl hsome

theorem step_ordered {m : Mux} {history : List (Event × List Effect)}
    (h : Coherent m (log history)) (event : Event) :
    Ordered history event (step (.running m) event).2 := by
  intro port hsome
  cases event with
  | openPort remote =>
    refine absurd ?_ hsome
    simp only [step]
    unfold Mux.openPort
    split_ifs
    · rfl
    · obtain ⟨message, -, hsend⟩ := send_nil { m with port := m.port + 1, tasks := m.tasks + 1 }
        m.port ⟨remote, 0, 0, 0, true, true⟩ 2
      dsimp only
      rw [hsend]
      rfl
  | data p bytes =>
    refine absurd ?_ hsome
    simp only [step]
    unfold Mux.data
    cases m.connections.lookup p with
    | none => rfl
    | some c =>
      dsimp only
      split_ifs
      · rfl
      · obtain ⟨-, hsend⟩ | ⟨-, message, -, hsend⟩ := send_cases m p c 16 bytes
        · rw [hsend]
          rfl
        · rw [hsend]
          rfl
  | closed p =>
    refine absurd ?_ hsome
    simp only [step]
    unfold Mux.closed
    cases m.connections.lookup p with
    | none => rfl
    | some c =>
      obtain ⟨message, -, hsend⟩ := send_nil { m with connections := m.connections.erase p } p c 17
      dsimp only
      rw [hsend]
      rfl
  | taskEnded => exact absurd rfl hsome
  | failed e => exact absurd rfl hsome
  | packet bytes waiting write =>
    simp only [step] at hsome ⊢
    unfold Mux.packet at hsome ⊢
    split_ifs at hsome ⊢ with hprotocol
    · exact absurd rfl hsome
    · cases hpacket : packet bytes with
      | error e =>
        rw [hpacket] at hsome
        exact absurd rfl hsome
      | ok k =>
        rw [hpacket] at hsome
        dsimp only at hsome ⊢
        cases hlookup : m.connections.lookup k.destination with
        | none =>
          rw [hlookup] at hsome
          exact absurd rfl hsome
        | some c =>
          rw [hlookup] at hsome
          obtain ⟨hport, first, hfirst, hsequence, hfront⟩ := receive_delivered h hlookup hsome
          exact ⟨bytes, waiting, write, k, first, rfl, hpacket, hport, hfirst, hsequence, hfront⟩

/-- The invariant of a whole run. -/
structure Inv (s : State) (history : List (Event × List Effect)) : Prop where
  nodup : (openedPorts (log history)).Nodup
  ordered : Always Ordered history
  coherent : ∀ m, s = .running m → Coherent m (log history)

theorem step_inv (s : State) (history : List (Event × List Effect)) (event : Event)
    (h : Inv s history) : Inv (step s event).1 (history ++ [(event, (step s event).2)]) := by
  cases s with
  | ended e =>
    refine ⟨?_, always_concat.mpr ⟨h.ordered, fun port hsome => absurd rfl hsome⟩, ?_⟩
    · rw [log_concat]
      simpa [step] using h.nodup
    · intro m hm
      cases hm
  | running m =>
    have hm := h.coherent m rfl
    have hkept := step_kept hm event
    refine ⟨?_, always_concat.mpr ⟨h.ordered, step_ordered hm event⟩, ?_⟩
    · rw [log_concat]
      exact hkept.nodup
    · intro m' hm'
      rw [log_concat]
      exact hkept.coherent m' hm'

theorem start_inv : Inv start [] := by
  refine ⟨List.nodup_nil, always_nil _, ?_⟩
  intro m hm
  cases hm
  refine ⟨List.nodup_nil, ?_, fun port _ => silent_nil.untouched port, ?_, ?_⟩
  · intro port hport
    exact absurd hport List.not_mem_nil
  · intro port c hlookup
    exact absurd hlookup (by simp)
  · intro port c hlookup
    exact absurd hlookup (by simp)

theorem run_inv (events : List Event) : Inv (run step start events).1 (run step start events).2 :=
  run_history step start_inv step_inv events

theorem map_range_of_prefix {stream : ℕ → UInt8} {bytes payload : List UInt8} {n : ℕ}
    (hfront : bytes <+: payload)
    (hpayload : payload = (List.range payload.length).map fun i => stream (n + i)) :
    (List.range n).map stream ++ bytes = (List.range (n + bytes.length)).map stream := by
  have hbytes : bytes = (List.range bytes.length).map fun i => stream (n + i) := by
    have hle := hfront.length_le
    rw [List.prefix_iff_eq_take] at hfront
    conv_lhs => rw [hfront, hpayload]
    rw [← List.map_take, List.take_range, Nat.min_eq_left hle]
  rw [List.range_add, List.map_append, List.map_map]
  congr 1

/-- Two offsets with the same sequence number, less than `2 ^ 32` apart, are equal. -/
theorem offset_eq {first : UInt32} {i j : ℕ}
    (h : first + UInt32.ofNat i = first + UInt32.ofNat j) (hij : i < j + 2 ^ 32)
    (hji : j < i + 2 ^ 32) : i = j := by
  have hmod : i % 2 ^ 32 = j % 2 ^ 32 := by
    have hcancel : UInt32.ofNat i = UInt32.ofNat j := by grind
    have hnat := congrArg UInt32.toNat hcancel
    rwa [UInt32.toNat_ofNat', UInt32.toNat_ofNat'] at hnat
  omega

/-- In-order delivery of the segments of a stream is a prefix of the stream. -/
theorem delivered_eq_prefix {port : UInt16} {stream : ℕ → UInt8}
    (history : List (Event × List Effect)) (hordered : Always Ordered history)
    (hcarries : Always (Carries port stream) history) :
    delivered port (log history) =
      (List.range (delivered port (log history)).length).map stream := by
  induction history using List.reverseRecOn with
  | nil => rfl
  | append_singleton history entry ih =>
    obtain ⟨event, effects⟩ := entry
    obtain ⟨hbefore, hlast⟩ := always_concat.mp hordered
    obtain ⟨hcbefore, hclast⟩ := always_concat.mp hcarries
    have hprevious := ih hbefore hcbefore
    rw [log_concat, delivered_append]
    by_cases hnone : delivered port effects = []
    · rw [hnone, List.append_nil]
      exact hprevious
    · obtain ⟨bytes, waiting, write, k, first, hevent, hpacket, hport, hfirst, hsequence, hfront⟩ :=
        hlast port hnone
      have hpayload : k.payload ≠ [] := by
        intro hempty
        rw [hempty] at hfront
        exact hnone (List.prefix_nil.mp hfront)
      obtain ⟨offset, hoffset, hlow, hhigh, hsegment⟩ :=
        hclast bytes waiting write k first hevent hpacket hport hpayload hfirst
      have heq := offset_eq (hoffset.symm.trans hsequence) hlow hhigh
      subst heq
      rw [List.length_append, ← map_range_of_prefix hfront hsegment, ← hprevious]

/-! ## Closed connections -/

/-- A port without a connection, which is not the next one to open, is left alone. -/
structure Aside (m : Mux) (port : UInt16) (result : State × List Effect) : Prop where
  untouched : Untouched result.2 port
  lookup : ∀ m', result.1 = .running m' → m'.connections.lookup port = m.connections.lookup port

theorem aside_same (m m' : Mux) (port : UInt16) {effects : List Effect}
    (hconnections : m'.connections = m.connections) (heffects : Silent effects) :
    Aside m port (.running m', effects) := by
  refine ⟨heffects.untouched port, ?_⟩
  intro n hn
  cases hn
  rw [hconnections]

theorem aside_ended (m : Mux) (port : UInt16) (e : Error) {effects : List Effect}
    (heffects : Untouched effects port) : Aside m port (.ended e, effects) :=
  ⟨heffects, fun _ hn => nomatch hn⟩

theorem aside_erase {m m' : Mux} {port p : UInt16} {effects : List Effect} (hp : p ≠ port)
    (hconnections : m'.connections = m.connections.erase p) (heffects : Untouched effects port) :
    Aside m port (.running m', effects) := by
  refine ⟨heffects, ?_⟩
  intro n hn
  cases hn
  rw [hconnections, AList.lookup_erase_ne hp.symm]

theorem aside_insert {m m' : Mux} {port p : UInt16} {c : Connection} {effects : List Effect}
    (hp : p ≠ port) (hconnections : m'.connections = m.connections.insert p c)
    (heffects : Untouched effects port) : Aside m port (.running m', effects) := by
  refine ⟨heffects, ?_⟩
  intro n hn
  cases hn
  rw [hconnections, AList.lookup_insert_ne hp.symm]

theorem receive_aside (m : Mux) (c : Connection) (k : Packet) (waiting : Bool)
    (write : LocalWrite) {port : UInt16} (hp : k.destination ≠ port) :
    Aside m port (m.receive c k waiting write) := by
  unfold Mux.receive
  split_ifs with hsource hreset hsyn hready
  · exact aside_ended m port _ (silent_nil.untouched port)
  · exact aside_erase hp rfl (silent_nil.untouched port)
  · unfold Mux.connect
    by_cases hack : k.ack = 1
    · obtain ⟨message, -, hsend⟩ := send_nil m k.destination
        { c with sent := 1, acknowledged := 1, received := k.sequence + 1 } 16
      have hquiet := silent_transmit k.destination 16 message
      rw [if_neg (not_not.mpr hack)]
      dsimp only
      rw [hsend]
      dsimp only
      split_ifs
      · exact aside_insert hp rfl
          ⟨rfl, by simp [uploaded, Effect.upload], by
            simp [firstByte, List.findSome?_cons, Effect.connection, hp]⟩
      · exact aside_erase hp rfl (hquiet.untouched port)
      · exact aside_ended m port _ (hquiet.untouched port)
    · rw [if_pos hack]
      exact aside_ended m port _ (silent_nil.untouched port)
  · exact aside_ended m port _ (silent_nil.untouched port)
  · cases c.acknowledge k with
    | error e => exact aside_ended m port _ (silent_nil.untouched port)
    | ok c' =>
      obtain ⟨bytes, effects, heffects, -, hdelivered, huploaded, hfirst, -, hfate⟩ :=
        absorb_cases m c' k write
      have hquiet : Untouched effects port :=
        ⟨by rw [hdelivered, if_neg hp.symm], huploaded port, hfirst port⟩
      have hresult : m.absorb c' k write = ((m.absorb c' k write).1, effects) := by
        rw [← heffects]
      dsimp only
      rw [hresult]
      generalize (m.absorb c' k write).1 = next at hfate
      cases hfate with
      | ended e => exact aside_ended m port e hquiet
      | removed m' _ hconnections => exact aside_erase hp hconnections hquiet
      | kept m' _ hconnections => exact aside_insert hp hconnections hquiet

theorem step_aside (m : Mux) {port : UInt16} (hlookup : m.connections.lookup port = none)
    (hnext : m.port ≠ port) (event : Event) : Aside m port (step (.running m) event) := by
  have hne : ∀ {p c}, m.connections.lookup p = some c → p ≠ port := by
    intro p c hp heq
    rw [heq, hlookup] at hp
    exact nomatch hp
  cases event with
  | openPort remote =>
    simp only [step]
    unfold Mux.openPort
    split_ifs
    · exact aside_same m _ port rfl ⟨fun _ => rfl, fun _ => rfl, fun _ => rfl, rfl⟩
    · obtain ⟨message, -, hsend⟩ := send_nil { m with port := m.port + 1, tasks := m.tasks + 1 }
        m.port ⟨remote, 0, 0, 0, true, true⟩ 2
      dsimp only
      rw [hsend]
      exact aside_insert hnext rfl ⟨rfl, by simp [uploaded, Effect.upload], rfl⟩
  | data p bytes =>
    simp only [step]
    unfold Mux.data
    cases hp : m.connections.lookup p with
    | none => exact aside_same m _ port rfl silent_nil
    | some c =>
      dsimp only
      split_ifs
      · exact aside_ended m port _ (silent_nil.untouched port)
      · obtain ⟨-, hsend⟩ | ⟨-, message, -, hsend⟩ := send_cases m p c 16 bytes
        · rw [hsend]
          exact aside_ended m port _ (silent_nil.untouched port)
        · rw [hsend]
          exact aside_insert (hne hp) rfl ⟨rfl, by simp [uploaded, Effect.upload, hne hp], rfl⟩
  | closed p =>
    simp only [step]
    unfold Mux.closed
    cases hp : m.connections.lookup p with
    | none => exact aside_same m _ port rfl silent_nil
    | some c =>
      obtain ⟨message, -, hsend⟩ := send_nil { m with connections := m.connections.erase p } p c 17
      dsimp only
      rw [hsend]
      exact aside_erase (hne hp) rfl ((silent_transmit p 17 message).untouched port)
  | taskEnded => exact aside_same m _ port rfl silent_nil
  | failed e => exact aside_ended m port e (silent_nil.untouched port)
  | packet bytes waiting write =>
    simp only [step]
    unfold Mux.packet
    split_ifs
    · exact aside_same m _ port rfl silent_nil
    · cases packet bytes with
      | error e => exact aside_ended m port e (silent_nil.untouched port)
      | ok k =>
        dsimp only
        cases hp : m.connections.lookup k.destination with
        | none => exact aside_same m _ port rfl silent_nil
        | some c => exact receive_aside m c k waiting write (hne hp)

/-- An opened port without a connection: nothing reaches its client any more. -/
structure Retired (s : State) (port : UInt16) (history : List (Event × List Effect)) : Prop where
  inv : Inv s history
  opened : port ∈ openedPorts (log history)
  closed : ∀ m, s = .running m → m.connections.lookup port = none

theorem step_retired {s : State} {port : UInt16} {history : List (Event × List Effect)}
    (h : Retired s port history) (event : Event) :
    Retired (step s event).1 port (history ++ [(event, (step s event).2)]) ∧
      delivered port (step s event).2 = [] := by
  have hinv := step_inv s history event h.inv
  have hopened : port ∈ openedPorts (log (history ++ [(event, (step s event).2)])) := by
    rw [log_concat, openedPorts_append]
    exact List.mem_append_left _ h.opened
  cases s with
  | ended e => exact ⟨⟨hinv, hopened, fun m hm => nomatch hm⟩, rfl⟩
  | running m =>
    have hclosed := h.closed m rfl
    have hbelow := (h.inv.coherent m rfl).below port h.opened
    have hnext : m.port ≠ port := by
      intro heq
      rw [heq] at hbelow
      exact Nat.lt_irrefl _ hbelow
    have haside := step_aside m hclosed hnext event
    refine ⟨⟨hinv, hopened, ?_⟩, haside.untouched.delivered⟩
    intro m' hm'
    rw [haside.lookup m' hm', hclosed]

theorem run_retired {s : State} {port : UInt16} {history : List (Event × List Effect)}
    (h : Retired s port history) (more : List Event) :
    delivered port (log (run step s more).2) = [] := by
  induction more generalizing s history with
  | nil => rfl
  | cons event more ih =>
    obtain ⟨hnext, hnone⟩ := step_retired h event
    have hrest := ih hnext
    have hsplit : log (run step s (event :: more)).2 =
        (step s event).2 ++ log (run step (step s event).1 more).2 := rfl
    rw [hsplit, delivered_append, hnone, hrest, List.append_nil]

/-! ## Answers to packets -/

/-- The acknowledgement of a packet, if it carries one, is for bytes sent and not yet
acknowledged. -/
def Acceptable (log : List Effect) (acked : ℕ) (k : Packet) : Prop :=
  k.flags &&& 16 = 0 ∨
    ∃ upto, acked ≤ upto ∧ upto ≤ uploaded k.destination log ∧ k.ack = 1 + UInt32.ofNat upto

/-- The connection after an acceptable acknowledgement. -/
def Connection.acked (c : Connection) (k : Packet) : Connection :=
  if k.flags &&& 16 ≠ 0 then { c with acknowledged := k.ack } else c

/-- What becomes of a packet for a connection that is not established yet. -/
structure AnsweredOpening (k : Packet) (result : State × List Effect) : Prop where
  early : k.flags &&& 18 ≠ 18 → result = (.ended .state, [])
  handshake : k.flags &&& 18 = 18 → k.ack ≠ 1 → result = (.ended .sequence, [])
  delivered : ∀ port, delivered port result.2 = []

/-- What becomes of a packet for an established connection, unless it resets it. -/
structure AnsweredEstablished (m : Mux) (log : List Effect) (c : Connection) (acked : ℕ)
    (k : Packet) (result : State × List Effect) : Prop where
  outside : ¬Acceptable log acked k → result = (.ended .sequence, [])
  duplicate : Acceptable log acked k → k.payload ≠ [] → k.sequence ≠ c.received →
    k.sequence + UInt32.ofNat k.payload.length = c.received →
    ∃ message rest, envelope 6 m.sequence ((c.acked k).encode k.destination 16 []) = .ok message ∧
      result.2 = .transmit k.destination 16 [] message :: rest ∧ Silent rest ∧
      (k.flags &&& 1 = 0 → rest = [] ∧ result.1 = .running
        { m with
          sequence := m.sequence + 1
          connections := m.connections.insert k.destination (c.acked k) })
  misplaced : Acceptable log acked k → k.payload ≠ [] → k.sequence ≠ c.received →
    k.sequence + UInt32.ofNat k.payload.length ≠ c.received → result = (.ended .sequence, [])

/-- What becomes of a well-formed packet for a live connection. -/
structure Answered (m : Mux) (log : List Effect) (c : Connection) (k : Packet)
    (result : State × List Effect) : Prop where
  foreign : k.source ≠ c.remote → result = (.ended .malformed, [])
  reset : k.source = c.remote → k.flags &&& 4 ≠ 0 →
    result = (.running { m with connections := m.connections.erase k.destination }, [])
  opening : k.source = c.remote → k.flags &&& 4 = 0 → c.ready = true → AnsweredOpening k result
  established : k.source = c.remote → k.flags &&& 4 = 0 → ∀ first acked,
    Established log k.destination c first acked → AnsweredEstablished m log c acked k result

theorem acknowledge_of_acceptable {log : List Effect} {c : Connection} {first : UInt32}
    {acked : ℕ} {k : Packet} (h : Established log k.destination c first acked)
    (hack : Acceptable log acked k) : c.acknowledge k = .ok (c.acked k) := by
  unfold Connection.acknowledge Connection.acked
  split_ifs with hflag hrange
  · rfl
  · rcases hack with hack | hack
    · exact absurd hack hflag
    · exact absurd ((acknowledge_range h k.ack).mpr hack) hrange
  · rfl

theorem acknowledge_of_not_acceptable {log : List Effect} {c : Connection} {first : UInt32}
    {acked : ℕ} {k : Packet} (h : Established log k.destination c first acked)
    (hack : ¬Acceptable log acked k) : c.acknowledge k = .error .sequence := by
  unfold Acceptable at hack
  rw [not_or] at hack
  unfold Connection.acknowledge
  rw [if_pos hack.1, if_neg fun hrange => hack.2 ((acknowledge_range h k.ack).mp hrange)]

theorem received_acked (c : Connection) (k : Packet) : (c.acked k).received = c.received := by
  unfold Connection.acked
  split_ifs <;> rfl

theorem absorb_duplicate (m : Mux) (c : Connection) (k : Packet) (write : LocalWrite)
    (hpayload : k.payload ≠ []) (hnext : k.sequence ≠ c.received)
    (hend : k.sequence + UInt32.ofNat k.payload.length = c.received) :
    ∃ message rest, envelope 6 m.sequence (c.encode k.destination 16 []) = .ok message ∧
      (m.absorb c k write).2 = .transmit k.destination 16 [] message :: rest ∧ Silent rest ∧
      (k.flags &&& 1 = 0 → rest = [] ∧ (m.absorb c k write).1 = .running
        { m with
          sequence := m.sequence + 1
          connections := m.connections.insert k.destination c }) := by
  obtain ⟨message, henvelope, hsend⟩ := send_nil m k.destination c 16
  unfold Mux.absorb Connection.extend
  rw [if_neg hpayload, if_neg hnext, if_neg (not_not.mpr hend)]
  dsimp only
  rw [if_neg hpayload, hsend]
  dsimp only
  unfold Mux.finish
  split_ifs with hfinal
  · obtain ⟨final, -, hfinish⟩ := send_nil { m with sequence := m.sequence + 1 } k.destination
      { c with received := c.received + 1 } 16
    rw [hfinish]
    exact ⟨message, _, henvelope, rfl, silent_transmit _ _ final, fun h => absurd h hfinal⟩
  · exact ⟨message, [], henvelope, rfl, silent_nil, fun _ => ⟨rfl, rfl⟩⟩

theorem absorb_misplaced (m : Mux) (c : Connection) (k : Packet) (write : LocalWrite)
    (hpayload : k.payload ≠ []) (hnext : k.sequence ≠ c.received)
    (hend : k.sequence + UInt32.ofNat k.payload.length ≠ c.received) :
    m.absorb c k write = (.ended .sequence, []) := by
  unfold Mux.absorb Connection.extend
  rw [if_neg hpayload, if_neg hnext, if_pos hend]

theorem connect_answered (m : Mux) (c : Connection) (k : Packet) (waiting : Bool)
    (hflags : k.flags &&& 18 = 18) : AnsweredOpening k (m.connect c k waiting) := by
  refine ⟨fun h => absurd hflags h, ?_, ?_⟩
  · intro _ hack
    unfold Mux.connect
    rw [if_pos hack]
  · intro port
    unfold Mux.connect
    by_cases hack : k.ack = 1
    · obtain ⟨message, -, hsend⟩ := send_nil m k.destination
        { c with sent := 1, acknowledged := 1, received := k.sequence + 1 } 16
      rw [if_neg (not_not.mpr hack)]
      dsimp only
      rw [hsend]
      dsimp only
      split_ifs <;> rfl
    · rw [if_pos hack]
      rfl

theorem receive_answered {m : Mux} {log : List Effect} (h : Coherent m log) {c : Connection}
    (k : Packet) (waiting : Bool) (write : LocalWrite)
    (hlookup : m.connections.lookup k.destination = some c) :
    Answered m log c k (m.receive c k waiting write) := by
  refine ⟨?_, ?_, ?_, ?_⟩
  · intro hsource
    unfold Mux.receive
    rw [if_pos hsource]
  · intro hsource hreset
    unfold Mux.receive
    rw [if_neg (not_not.mpr hsource), if_pos hreset]
  · intro hsource hreset hready
    unfold Mux.receive
    rw [if_neg (not_not.mpr hsource), if_neg (not_not.mpr hreset)]
    by_cases hflags : k.flags &&& 18 = 18
    · rw [if_pos ⟨hflags, hready⟩]
      exact connect_answered m c k waiting hflags
    · rw [if_neg fun hboth => hflags hboth.1, if_pos hready]
      exact ⟨fun _ => rfl, fun hflag => absurd hflag hflags, fun _ => rfl⟩
  · intro hsource hreset first acked hup
    have hready : ¬c.ready = true := by
      rw [hup.ready]
      exact Bool.false_ne_true
    rw [receive_established waiting write hsource hreset hready]
    refine ⟨?_, ?_, ?_⟩
    · intro hack
      rw [acknowledge_of_not_acceptable hup hack]
    · intro hack hpayload hnext hend
      rw [acknowledge_of_acceptable hup hack]
      rw [← received_acked c k] at hnext hend
      exact absorb_duplicate m (c.acked k) k write hpayload hnext hend
    · intro hack hpayload hnext hend
      rw [acknowledge_of_acceptable hup hack]
      rw [← received_acked c k] at hnext hend
      exact absorb_misplaced m (c.acked k) k write hpayload hnext hend

/-! ## The contract of the multiplexer -/

/-- What holds of every run of the loop. -/
structure Integrity (s : State) (history : List (Event × List Effect)) : Prop where
  ordered : Always Ordered history
  stream : ∀ port stream, Always (Carries port stream) history →
    delivered port (log history) = (List.range (delivered port (log history)).length).map stream
  ports : (openedPorts (log history)).Nodup
  opened : ∀ m port c, s = .running m → m.connections.lookup port = some c →
    port ∈ openedPorts (log history)
  counters : ∀ m port c, s = .running m → m.connections.lookup port = some c →
    Tracks (log history) port c
  late : ∀ m bytes waiting write k, s = .running m → packet bytes = .ok k →
    m.connections.lookup k.destination = none → step s (.packet bytes waiting write) = (s, [])
  answered : ∀ m bytes waiting write k c, s = .running m → packet bytes = .ok k →
    m.connections.lookup k.destination = some c →
    Answered m (log history) c k (step s (.packet bytes waiting write))
  closed : ∀ port more, port ∈ openedPorts (log history) →
    (∀ m, s = .running m → m.connections.lookup port = none) →
    delivered port (log (run step s more).2) = []

/-- Every run hands each client a prefix of its stream in order, counts bytes exactly, answers
every packet as its headers demand, and uses each local port once. -/
theorem stream_integrity (events : List Event) :
    Integrity (run step start events).1 (run step start events).2 := by
  have hinv := run_inv events
  refine ⟨hinv.ordered, ?_, hinv.nodup, ?_, ?_, ?_, ?_, ?_⟩
  · intro port stream hcarries
    exact delivered_eq_prefix _ hinv.ordered hcarries
  · intro m port c hm hlookup
    exact (hinv.coherent m hm).opened port c hlookup
  · intro m port c hm hlookup
    exact (hinv.coherent m hm).tracks port c hlookup
  · intro m bytes waiting write k hm hpacket hlookup
    rw [hm, step_packet waiting write hpacket, hlookup]
  · intro m bytes waiting write k c hm hpacket hlookup
    have hm' := hinv.coherent m hm
    rw [hm, step_packet waiting write hpacket, hlookup]
    exact receive_answered hm' k waiting write hlookup
  · intro port more hopened hclosed
    exact run_retired ⟨hinv, hopened, hclosed⟩ more

/-- The second half of a handshake with local port 1, at sequence number 7. -/
def acceptBytes : List UInt8 := [0, 0, 0, 6, 0, 0, 0, 36, 0xfa, 0xce, 0xfa, 0xce, 0, 0, 0, 0,
  0xf2, 0x7e, 0, 1, 0, 0, 0, 7, 0, 0, 0, 1, 0x50, 18, 2, 0, 0, 0, 0, 0]

/-- A reset with a payload byte at sequence number 99. -/
def resetBytes : List UInt8 := [0, 0, 0, 6, 0, 0, 0, 37, 0xfa, 0xce, 0xfa, 0xce, 0, 0, 0, 1,
  0xf2, 0x7e, 0, 1, 0, 0, 0, 99, 0, 0, 0, 1, 0x50, 20, 2, 0, 0, 0, 0, 0, 0xff]

/-- A data packet that resets its connection is no error, wherever it starts. -/
theorem reset_is_no_error :
    ¬∀ events m bytes waiting write k c, (run step start events).1 = .running m →
      packet bytes = .ok k → m.connections.lookup k.destination = some c → k.payload ≠ [] →
      k.sequence ≠ c.received → k.sequence + UInt32.ofNat k.payload.length ≠ c.received →
      ∃ e, (step (.running m) (.packet bytes waiting write)).1 = .ended e := by
  intro h
  let c : Connection := ⟨62078, 1, 8, 1, false, false⟩
  let half : Connection := ⟨62078, 0, 0, 0, true, true⟩
  let m : Mux := ⟨(∅ : AList fun _ : UInt16 => Connection).insert 1 c, 2, 3, 2⟩
  let opened : Mux := ⟨(∅ : AList fun _ : UInt16 => Connection).insert 1 half, 2, 2, 2⟩
  have haccept : packet acceptBytes = .ok ⟨62078, 1, 7, 1, 18, []⟩ := by decide
  have hreset : packet resetBytes = .ok ⟨62078, 1, 99, 1, 20, [0xff]⟩ := by decide
  have hopened : (step start (.openPort 62078)).1 = .running opened := by
    rfl
  have hconnected :
      (run step start [.openPort 62078, .packet acceptBytes true .complete]).1 = .running m := by
    show (step (step start (.openPort 62078)).1 (.packet acceptBytes true .complete)).1 = _
    rw [hopened, step_packet true .complete haccept]
    rfl
  obtain ⟨e, he⟩ := h [.openPort 62078, .packet acceptBytes true .complete] m resetBytes true
    .complete ⟨62078, 1, 99, 1, 20, [0xff]⟩ c hconnected hreset (by decide) (by decide)
    (by decide) (by decide)
  rw [step_packet true .complete hreset] at he
  exact nomatch he

end ProjectArgo.CarPlay.UsbMux
