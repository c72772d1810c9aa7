import ProjectArgo.Library.Ends
import ProjectArgo.Library.Run
import ProjectArgo.CarPlay.Audio

/-!
# Packets of a microphone

A microphone cuts what it is given into packets of one size and keeps what does
not fill a packet. Three counters go on by one packet with each. Stopping the
microphone drops what it keeps, so the packets hold what was given since then.
-/
namespace ProjectArgo.CarPlay

open Library.Run
open Library.Ends (bind_eq_ok)

namespace Microphone

variable (crypto : Crypto)

/-- The `n`-th packet of a microphone. -/
def packet (opened : Microphone) (n : ℕ) (payload : List UInt8) : Except Error Sealed :=
  sealPcm crypto opened.key n (UInt16.ofNat n) (UInt32.ofNat (n * opened.frames)) payload

/-- Payloads that are the packets from the `n`-th on. -/
def Packets (opened : Microphone) (n : ℕ) (payloads : List (List UInt8)) (packets : List Sealed) :
    Prop :=
  (payloads.zipIdx n).map (fun p => opened.packet crypto p.2 p.1) = packets.map Except.ok

theorem Packets.length {opened : Microphone} {n : ℕ} {payloads : List (List UInt8)}
    {packets : List Sealed} (h : opened.Packets crypto n payloads packets) :
    payloads.length = packets.length := by
  have hlength := congrArg List.length h
  simpa using hlength

theorem Packets.append {opened : Microphone} {n : ℕ} {first rest : List (List UInt8)}
    {packets more : List Sealed} (h : opened.Packets crypto n first packets)
    (hmore : opened.Packets crypto (n + packets.length) rest more) :
    opened.Packets crypto n (first ++ rest) (packets ++ more) := by
  unfold Packets at h hmore ⊢
  rw [List.zipIdx_append, List.map_append, List.map_append, h, ← hmore]
  rw [Packets.length crypto h]

/-- How a microphone is opened. -/
structure Fresh (opened : Microphone) : Prop where
  bytes : opened.packetBytes = opened.frames * 2
  bounded : opened.packetBytes ≤ 4000
  pending : opened.pending = []
  counter : opened.counter = 0
  sequence : opened.sequence = 0
  timestamp : opened.timestamp = 0
  running : opened.running = false

/-- A microphone that has gone on from the one that was opened, with all three counters at the
same packet. -/
structure Counts (opened mic : Microphone) : Prop where
  key : mic.key = opened.key
  bytes : mic.packetBytes = opened.packetBytes
  frames : mic.frames = opened.frames
  bounded : mic.counter < 2 ^ 64
  sequence : mic.sequence = UInt16.ofNat mic.counter
  timestamp : mic.timestamp = UInt32.ofNat (mic.counter * opened.frames)

theorem Fresh.counts {opened : Microphone} (h : opened.Fresh) : opened.Counts opened where
  key := rfl
  bytes := rfl
  frames := rfl
  bounded := by
    rw [h.counter]
    norm_num
  sequence := by
    rw [h.counter, h.sequence]
    rfl
  timestamp := by
    rw [h.counter, h.timestamp, Nat.zero_mul]
    rfl

theorem open_fresh {format : AudioFormat} {options : CaptureOptions} {device : Except Error Unit}
    {opened : Microphone} (h : Microphone.open format options device = .ok opened) :
    opened.Fresh := by
  unfold Microphone.open at h
  by_cases hformat : format.codec ≠ .signedPcm16 ∨ format.channels ≠ 1 ∨ options.port = 0 ∨
      options.source = "" ∨ options.source.utf8ByteSize > 256
  · rw [if_pos hformat] at h
    exact nomatch h
  · rw [if_neg hformat] at h
    dsimp only at h
    by_cases hsize : (if options.framesPerPacket = 0 then format.sampleRate / 50
        else options.framesPerPacket) = 0 ∨
      (if options.framesPerPacket = 0 then format.sampleRate / 50
        else options.framesPerPacket) * 2 > 4000
    · rw [dif_pos hsize] at h
      exact nomatch h
    · rw [dif_neg hsize] at h
      cases device with
      | error e => exact nomatch h
      | ok u =>
        cases h
        exact
          { bytes := rfl
            bounded := not_lt.mp (not_or.mp hsize).2
            pending := rfl
            counter := rfl
            sequence := rfl
            timestamp := rfl
            running := rfl }

/-- The payload of a whole packet passes every check. -/
theorem sealPcm_refused {key payload : List UInt8} {counter : ℕ} {sequence : UInt16}
    {timestamp : UInt32} {e : Error} (hpos : payload ≠ []) (hbound : payload.length ≤ 4000)
    (heven : payload.length % 2 = 0)
    (h : sealPcm crypto key counter sequence timestamp payload = .error e) :
    ∃ nonce associated, crypto.sealBytes key nonce associated payload = .error e := by
  unfold sealPcm ensure at h
  rw [if_pos ⟨hpos, hbound, heven⟩] at h
  dsimp only [bind, Except.bind] at h
  split at h
  · next e' hseal =>
    cases h
    exact ⟨_, _, hseal⟩
  · exact nomatch h

/-- Why sending ends with an error: the network, the cipher, or the last of all numbers. -/
def Refused (opened : Microphone) (sent : ℕ → Except Error Unit) (total : ℕ) (e : Error) : Prop :=
  (∃ i, sent i = .error e) ∨
    (∃ nonce associated payload, crypto.sealBytes opened.key nonce associated payload = .error e) ∨
      e = .bounds ∧ total = 2 ^ 64

theorem Refused.tail {opened : Microphone} {sent : ℕ → Except Error Unit} {total : ℕ} {e : Error}
    (h : opened.Refused crypto (fun i => sent (i + 1)) total e) :
    opened.Refused crypto sent total e := by
  obtain ⟨i, hi⟩ | h := h
  · exact Or.inl ⟨i + 1, hi⟩
  · exact Or.inr h

/-- What a microphone makes of the octets it has: whole packets, and the rest is kept. -/
structure Cuts (opened mic : Microphone) (sent : ℕ → Except Error Unit)
    (result : Microphone × List Sealed × Except Error Unit) (payloads : List (List UInt8))
    (rest : List UInt8) : Prop where
  pending : mic.pending = payloads.flatten ++ rest
  whole : ∀ payload ∈ payloads, payload.length = opened.packetBytes
  packets : opened.Packets crypto mic.counter payloads result.2.1
  keeps : result.2.2 = .ok () → result.1.pending = rest ∧ rest.length < opened.packetBytes
  counts : result.2.2 = .ok () →
    opened.Counts result.1 ∧ result.1.counter = mic.counter + result.2.1.length
  device : result.2.2 = .ok () → result.1.running = mic.running ∧ result.1.source = mic.source
  refused : ∀ e, result.2.2 = .error e →
    opened.Refused crypto sent (mic.counter + result.2.1.length) e

/-- The counters after one more packet. -/
theorem Counts.next {opened mic mic' : Microphone} (h : opened.Counts mic)
    (hless : mic.counter + 1 < 2 ^ 64) (hkey : mic'.key = mic.key)
    (hbytes : mic'.packetBytes = mic.packetBytes) (hframes : mic'.frames = mic.frames)
    (hcounter : mic'.counter = mic.counter + 1) (hsequence : mic'.sequence = mic.sequence + 1)
    (htimestamp : mic'.timestamp = mic.timestamp + UInt32.ofNat mic.frames) :
    opened.Counts mic' where
  key := hkey.trans h.key
  bytes := hbytes.trans h.bytes
  frames := hframes.trans h.frames
  bounded := by omega
  sequence := by
    rw [hsequence, hcounter, h.sequence, UInt16.ofNat_add]
    rfl
  timestamp := by
    rw [htimestamp, hcounter, h.timestamp, h.frames, Nat.add_mul, Nat.one_mul, UInt32.ofNat_add]

theorem sealPcm_packet {opened mic : Microphone} (h : opened.Counts mic) (payload : List UInt8) :
    sealPcm crypto mic.key mic.counter mic.sequence mic.timestamp payload =
      opened.packet crypto mic.counter payload := by
  rw [packet, h.key, h.sequence, h.timestamp]

theorem packets_single {opened : Microphone} {n : ℕ} {payload : List UInt8} {sealed : Sealed}
    (h : opened.packet crypto n payload = .ok sealed) :
    opened.Packets crypto n [payload] [sealed] := by
  simp [Packets, h]

/-- A packet after which the microphone is given up. -/
theorem cuts_last {opened mic next : Microphone} {sent : ℕ → Except Error Unit} {e : Error}
    {sealed : Sealed} (hlong : opened.packetBytes ≤ mic.pending.length)
    (hpacket : opened.packet crypto mic.counter (mic.pending.take opened.packetBytes) = .ok sealed)
    (hrefused : opened.Refused crypto sent (mic.counter + 1) e) :
    opened.Cuts crypto mic sent (next, [sealed], .error e)
      [mic.pending.take opened.packetBytes] (mic.pending.drop opened.packetBytes) where
  pending := by
    rw [List.flatten_singleton, List.take_append_drop]
  whole := by
    intro payload hpayload
    rw [List.mem_singleton.mp hpayload, List.length_take]
    omega
  packets := packets_single crypto hpacket
  keeps := fun h => nomatch h
  counts := fun h => nomatch h
  device := fun h => nomatch h
  refused := by
    intro e' he
    cases he
    exact hrefused

theorem sendPackets_short {mic : Microphone} (h : mic.pending.length < mic.packetBytes)
    (sent : ℕ → Except Error Unit) : mic.sendPackets crypto sent = (mic, [], .ok ()) := by
  rw [sendPackets, dif_pos h]

theorem sendPackets_cuts {opened : Microphone} (fresh : opened.Fresh) (mic : Microphone)
    (sent : ℕ → Except Error Unit) (h : opened.Counts mic) :
    ∃ payloads rest, opened.Cuts crypto mic sent (mic.sendPackets crypto sent) payloads rest := by
  fun_induction sendPackets crypto mic sent with
  | case1 mic sent hshort =>
    refine ⟨[], mic.pending, ?_⟩
    exact
      { pending := rfl
        whole := fun _ hnone => absurd hnone List.not_mem_nil
        packets := rfl
        keeps := fun _ => ⟨rfl, h.bytes ▸ hshort⟩
        counts := fun _ => ⟨h, rfl⟩
        device := fun _ => ⟨rfl, rfl⟩
        refused := fun _ he => nomatch he }
  | case2 mic sent hlong payload mic' e hseal =>
    have hpositive := mic.positive
    have hbytes := h.bytes
    have hlength : payload.length = mic.packetBytes := by
      rw [List.length_take]
      omega
    have heven : payload.length % 2 = 0 := by
      rw [hlength, hbytes, fresh.bytes, Nat.mul_mod_left]
    have hsmall : payload.length ≤ 4000 := by
      have hbounded := fresh.bounded
      omega
    have hsome : payload ≠ [] := by
      intro hempty
      rw [hempty] at hlength
      exact hpositive hlength.symm
    obtain ⟨nonce, associated, hcipher⟩ := sealPcm_refused crypto hsome hsmall heven hseal
    refine ⟨[], mic.pending, ?_⟩
    exact
      { pending := rfl
        whole := fun _ hnone => absurd hnone List.not_mem_nil
        packets := rfl
        keeps := fun hok => nomatch hok
        counts := fun hok => nomatch hok
        device := fun hok => nomatch hok
        refused := by
          intro e' he
          cases he
          exact Or.inr (Or.inl ⟨nonce, associated, payload, h.key ▸ hcipher⟩) }
  | case3 mic sent hlong payload mic' sealed hseal hlast =>
    have hbytes := h.bytes
    rw [sealPcm_packet crypto h] at hseal
    have hmost : mic.counter + 1 = 2 ^ 64 := by
      have hbounded := h.bounded
      omega
    refine ⟨_, _, cuts_last crypto (by omega) (hbytes ▸ hseal) ?_⟩
    exact Or.inr (Or.inr ⟨rfl, hmost⟩)
  | case4 mic sent hlong payload mic' sealed hseal hnext mic'' e hsent =>
    have hbytes := h.bytes
    rw [sealPcm_packet crypto h] at hseal
    refine ⟨_, _, cuts_last crypto (by omega) (hbytes ▸ hseal) ?_⟩
    exact Or.inl ⟨0, hsent⟩
  | case5 mic sent hlong payload mic' sealed hseal hnext mic'' hsent last packets result hrest ih =>
    have hbytes := h.bytes
    rw [sealPcm_packet crypto h] at hseal
    have hcounts : opened.Counts mic'' := h.next (by omega) rfl rfl rfl rfl rfl rfl
    obtain ⟨payloads, rest, hcuts⟩ := ih hcounts
    rw [hrest] at hcuts
    have htotal : mic.counter + (sealed :: packets).length = mic''.counter + packets.length := by
      show mic.counter + (packets.length + 1) = mic.counter + 1 + packets.length
      omega
    refine ⟨payload :: payloads, rest, ?_⟩
    exact
      { pending := by
          have hpending : mic.pending.drop mic.packetBytes = payloads.flatten ++ rest :=
            hcuts.pending
          rw [List.flatten_cons, List.append_assoc, ← hpending, List.take_append_drop]
        whole := by
          intro other hother
          rcases List.mem_cons.mp hother with rfl | hother
          · rw [List.length_take]
            omega
          · exact hcuts.whole other hother
        packets :=
          Packets.append crypto (packets_single crypto hseal) hcuts.packets
        keeps := hcuts.keeps
        counts := by
          intro hok
          obtain ⟨hlast, hcounter⟩ := hcuts.counts hok
          exact ⟨hlast, hcounter.trans htotal.symm⟩
        device := hcuts.device
        refused := by
          intro e he
          rw [htotal]
          exact (hcuts.refused e he).tail }

theorem send_cuts {opened mic : Microphone} (fresh : opened.Fresh) (h : opened.Counts mic)
    {bytes : List UInt8} (hroom : mic.pending.length + bytes.length ≤ 8192)
    (sent : ℕ → Except Error Unit) :
    ∃ payloads rest, opened.Cuts crypto { mic with pending := mic.pending ++ bytes } sent
      (mic.send crypto bytes sent) payloads rest := by
  unfold send
  rw [if_neg (by omega)]
  apply sendPackets_cuts crypto fresh
  exact ⟨h.key, h.bytes, h.frames, h.bounded, h.sequence, h.timestamp⟩

theorem active_cases {mic mic' : Microphone} {running : Bool} {device : Except Error Unit}
    (h : mic.active running device = .ok mic') :
    running = mic.running ∧ mic' = mic ∨
      running ≠ mic.running ∧
        mic' = { mic with running := running, pending := if running then mic.pending else [] } := by
  unfold active at h
  by_cases hsame : running = mic.running
  · rw [if_pos hsame] at h
    cases h
    exact Or.inl ⟨hsame, rfl⟩
  · rw [if_neg hsame] at h
    cases device with
    | error e => exact nomatch h
    | ok u =>
      cases h
      exact Or.inr ⟨hsame, rfl⟩

/-- A microphone that is stopped keeps nothing. -/
def Rests (mic : Microphone) : Prop := mic.running = false → mic.pending = []

/-- What starting, stopping and choosing a source do. -/
structure Switches (mic mic' : Microphone) : Prop where
  counts : ∀ opened : Microphone, opened.Counts mic → opened.Counts mic'
  counter : mic'.counter = mic.counter
  rests : mic'.Rests
  kept : mic'.running = true → mic'.source = mic.source → mic'.pending = mic.pending
  moved : mic'.source ≠ mic.source → mic'.pending = []

theorem Switches.refl {mic : Microphone} (h : mic.Rests) : mic.Switches mic where
  counts := fun _ hcounts => hcounts
  counter := rfl
  rests := h
  kept := fun _ _ => rfl
  moved := fun hmoved => absurd rfl hmoved

theorem active_switches {mic mic' : Microphone} {running : Bool} {device : Except Error Unit}
    (hrests : mic.Rests) (h : mic.active running device = .ok mic') :
    mic.Switches mic' ∧ mic'.source = mic.source := by
  rcases active_cases h with ⟨-, rfl⟩ | ⟨-, rfl⟩
  · exact ⟨Switches.refl hrests, rfl⟩
  · refine ⟨?_, rfl⟩
    exact
      { counts := fun _ hc =>
          ⟨hc.key, hc.bytes, hc.frames, hc.bounded, hc.sequence, hc.timestamp⟩
        counter := rfl
        rests := by
          intro hstopped
          have hrunning : running = false := hstopped
          simp [hrunning]
        kept := by
          intro hstarted _
          have hrunning : running = true := hstarted
          simp [hrunning]
        moved := fun hmoved => absurd rfl hmoved }

theorem selectSource_switches {mic mic' : Microphone} {source : String}
    {device : Except Error Unit} (hrests : mic.Rests)
    (h : mic.selectSource source device = .ok mic') :
    mic' = mic ∨ mic.Switches mic' ∧ mic'.source ≠ mic.source := by
  unfold selectSource at h
  by_cases hsource : mic.source = source
  · rw [if_pos hsource] at h
    cases h
    exact Or.inl rfl
  · rw [if_neg hsource] at h
    cases hactive : mic.active false device with
    | error e =>
      rw [hactive] at h
      exact nomatch h
    | ok stopped =>
      rw [hactive] at h
      cases h
      have hstopped : stopped.running = false := by
        rcases active_cases hactive with ⟨hrunning, rfl⟩ | ⟨-, rfl⟩
        · exact hrunning.symm
        · rfl
      obtain ⟨hswitches, -⟩ := active_switches hrests hactive
      have hempty := hswitches.rests hstopped
      refine Or.inr ⟨?_, fun hsame => hsource hsame.symm⟩
      exact
        { counts := fun opened hc =>
            have hc' := hswitches.counts opened hc
            ⟨hc'.key, hc'.bytes, hc'.frames, hc'.bounded, hc'.sequence, hc'.timestamp⟩
          counter := hswitches.counter
          rests := fun _ => hempty
          kept := fun _ hsame => absurd hsame.symm hsource
          moved := fun _ => hempty }

end Microphone

namespace Stream

variable (crypto : Crypto)

theorem onPolicy_switches {s : Stream} {mic mic' : Microphone} {device : ℕ → Except Error Unit}
    (hrests : mic.Rests) (h : s.onPolicy mic device = .ok mic') : mic.Switches mic' := by
  unfold onPolicy at h
  dsimp only at h
  cases hpolicy : s.policy.source with
  | none =>
    rw [hpolicy] at h
    exact (Microphone.active_switches hrests h).1
  | some source =>
    rw [hpolicy] at h
    obtain ⟨chosen, hchosen, hactive⟩ := bind_eq_ok.mp h
    rcases Microphone.selectSource_switches hrests hchosen with rfl | ⟨hfirst, hmoved⟩
    · exact (Microphone.active_switches hrests hactive).1
    · obtain ⟨hlast, hsource⟩ := Microphone.active_switches hfirst.rests hactive
      have hempty : mic'.pending = [] := by
        cases hrunning : mic'.running with
        | false => exact hlast.rests hrunning
        | true => rw [hlast.kept hrunning hsource, hfirst.moved hmoved]
      exact
        { counts := fun opened hc => hlast.counts opened (hfirst.counts opened hc)
          counter := hlast.counter.trans hfirst.counter
          rests := fun _ => hempty
          kept := fun _ hsame => absurd (hsource.symm.trans hsame) hmoved
          moved := fun _ => hempty }

/-- What happens to a stream: the receiver changes the policy, or the task wakes up. -/
inductive Turn where
  | gain (value : Option ℚ)
  | source (name : String)
  | muted (value : Bool)
  | wake (event : Wake)

def turn (s : Stream) : Turn → Stream × List Sealed
  | .gain value =>
    match s.setGain value with
    | .error _ => (s, [])
    | .ok s => (s, [])
  | .source name => (s.setMicrophoneSource name, [])
  | .muted value => (s.setMicrophoneMuted value, [])
  | .wake event => s.wake crypto event

/-- The octets that a turn gives to the microphone. -/
def given (s : Stream) : Turn → List UInt8
  | .wake (.sample bytes _) =>
    match s.microphone with
    | none => []
    | some mic => if s.failed = none ∧ mic.running ∧ ¬s.policy.muted then bytes else []
  | _ => []

/-- After the turn the microphone does not run, or it listens to another source. -/
def stopped (s next : Stream) : Bool :=
  match s.microphone, next.microphone with
  | some mic, some mic' => !mic'.running || mic'.source ≠ mic.source
  | _, _ => false

/-- What the microphone was given and sealed since it was last stopped, and how many packets it
had sealed before. -/
structure Account where
  earlier : ℕ
  given : List UInt8
  packets : List Sealed

def Account.turn (account : Account) (s : Stream) (t : Turn) : Account :=
  let next := s.turn crypto t
  if s.stopped next.1 then ⟨account.earlier + account.packets.length, [], []⟩
  else ⟨account.earlier, account.given ++ s.given t, account.packets ++ next.2⟩

def accountedTurn (s : Stream × Account) (t : Turn) : (Stream × Account) × List Sealed :=
  let next := s.1.turn crypto t
  ((next.1, s.2.turn crypto s.1 t), next.2)

/-- What was given is in the packets, in order and without a gap, up to what is kept for the next
packet, and the counters of the microphone are those of the next packet. -/
structure Packed (opened : Microphone) (s : Stream) (account : Account)
    (payloads : List (List UInt8)) (rest : List UInt8) : Prop where
  given : account.given = payloads.flatten ++ rest
  whole : ∀ payload ∈ payloads, payload.length = opened.packetBytes
  packets : opened.Packets crypto account.earlier payloads account.packets
  counts : ∀ mic, s.microphone = some mic →
    opened.Counts mic ∧ mic.counter = account.earlier + account.packets.length
  pending : ∀ mic, s.microphone = some mic → mic.pending = rest ∧ rest.length < opened.packetBytes
  rests : ∀ mic, s.microphone = some mic → mic.Rests

/-- A turn that gives nothing to the microphone and at most switches it. -/
theorem packed_quiet {opened : Microphone} {s next : Stream} {account : Account} {t : Turn}
    {payloads : List (List UInt8)} {rest : List UInt8} (hturn : s.turn crypto t = (next, []))
    (hgiven : s.given t = [])
    (hmic : ∀ mic', next.microphone = some mic' →
      ∃ mic, s.microphone = some mic ∧ mic.Switches mic')
    (h : Packed crypto opened s account payloads rest) :
    ∃ payloads rest, Packed crypto opened next (account.turn crypto s t) payloads rest := by
  have haccount : account.turn crypto s t =
      if s.stopped next then ⟨account.earlier + account.packets.length, [], []⟩
      else account := by
    simp only [Account.turn, hturn, hgiven, List.append_nil]
  rw [haccount]
  have hcounts : ∀ mic', next.microphone = some mic' →
      opened.Counts mic' ∧ mic'.counter = account.earlier + account.packets.length := by
    intro mic' hmic'
    obtain ⟨mic, hsome, hswitches⟩ := hmic mic' hmic'
    obtain ⟨hcounts, hcounter⟩ := h.counts mic hsome
    exact ⟨hswitches.counts opened hcounts, hswitches.counter.trans hcounter⟩
  have hrests : ∀ mic', next.microphone = some mic' → mic'.Rests := by
    intro mic' hmic'
    obtain ⟨mic, -, hswitches⟩ := hmic mic' hmic'
    exact hswitches.rests
  cases hstopped : s.stopped next with
  | true =>
    rw [if_pos rfl]
    refine ⟨[], [], ?_⟩
    exact
      { given := rfl
        whole := fun _ hnone => absurd hnone List.not_mem_nil
        packets := rfl
        counts := hcounts
        pending := by
          intro mic' hmic'
          obtain ⟨mic, hsome, hswitches⟩ := hmic mic' hmic'
          refine ⟨?_, Nat.pos_of_ne_zero opened.positive⟩
          simp only [stopped, hsome, hmic', Bool.or_eq_true, Bool.not_eq_true',
            decide_eq_true_eq] at hstopped
          rcases hstopped with hrunning | hmoved
          · exact hswitches.rests hrunning
          · exact hswitches.moved hmoved
        rests := hrests }
  | false =>
    rw [if_neg (by simp)]
    refine ⟨payloads, rest, h.given, h.whole, h.packets, hcounts, ?_, hrests⟩
    intro mic' hmic'
    obtain ⟨mic, hsome, hswitches⟩ := hmic mic' hmic'
    obtain ⟨hpending, hshort⟩ := h.pending mic hsome
    simp only [stopped, hsome, hmic', Bool.or_eq_false_iff, Bool.not_eq_false',
      decide_eq_false_iff_not, not_not] at hstopped
    exact ⟨(hswitches.kept hstopped.1 hstopped.2).trans hpending, hshort⟩

/-- A chunk that the microphone takes or refuses as a whole. -/
theorem send_packed {opened mic : Microphone} (fresh : opened.Fresh) {s : Stream}
    {account : Account} {payloads : List (List UInt8)} {rest : List UInt8}
    (hmic : s.microphone = some mic) (h : Packed crypto opened s account payloads rest)
    (bytes : List UInt8) (sent : ℕ → Except Error Unit) :
    ∃ more kept, account.given ++ bytes = (payloads ++ more).flatten ++ kept ∧
      (∀ payload ∈ payloads ++ more, payload.length = opened.packetBytes) ∧
      opened.Packets crypto account.earlier (payloads ++ more)
        (account.packets ++ (mic.send crypto bytes sent).2.1) ∧
      ((mic.send crypto bytes sent).2.2 = .ok () →
        opened.Cuts crypto { mic with pending := mic.pending ++ bytes } sent
          (mic.send crypto bytes sent) more kept) := by
  obtain ⟨hcounts, hcounter⟩ := h.counts mic hmic
  obtain ⟨hpending, -⟩ := h.pending mic hmic
  by_cases hroom : mic.pending.length + bytes.length ≤ 8192
  · obtain ⟨more, kept, hcuts⟩ := Microphone.send_cuts crypto fresh hcounts hroom sent
    refine ⟨more, kept, ?_, ?_, ?_, fun _ => hcuts⟩
    · have hboth : mic.pending ++ bytes = more.flatten ++ kept := hcuts.pending
      rw [h.given, ← hpending, List.append_assoc, hboth, List.flatten_append, List.append_assoc]
    · intro payload hpayload
      rcases List.mem_append.mp hpayload with hold | hnew
      · exact h.whole payload hold
      · exact hcuts.whole payload hnew
    · have hpackets := hcuts.packets
      apply Microphone.Packets.append crypto h.packets
      rw [← hcounter]
      exact hpackets
  · have hsend : mic.send crypto bytes sent = (mic, [], .error .bounds) := by
      unfold Microphone.send
      rw [if_pos (by omega)]
    rw [hsend]
    refine ⟨[], rest ++ bytes, ?_, ?_, ?_, fun hok => nomatch hok⟩
    · rw [h.given, List.append_nil, List.append_assoc]
    · rw [List.append_nil]
      exact h.whole
    · rw [List.append_nil, List.append_nil]
      exact h.packets

theorem turn_packed {opened : Microphone} (fresh : opened.Fresh) {s : Stream} {account : Account}
    {payloads : List (List UInt8)} {rest : List UInt8}
    (h : Packed crypto opened s account payloads rest) (t : Turn) :
    ∃ payloads rest, Packed crypto opened (s.turn crypto t).1 (account.turn crypto s t)
      payloads rest := by
  have hstay : ∀ next, s.turn crypto t = (next, []) → s.given t = [] →
      next.microphone = s.microphone →
      ∃ payloads rest, Packed crypto opened next (account.turn crypto s t) payloads rest := by
    intro next hturn hgiven hsame
    apply packed_quiet crypto hturn hgiven _ h
    intro mic hmic
    rw [hsame] at hmic
    exact ⟨mic, hmic, Microphone.Switches.refl (h.rests mic hmic)⟩
  have hfail : ∀ (next : Stream) e, s.turn crypto t = (next.fail e, []) → s.given t = [] →
      ∃ payloads rest, Packed crypto opened (next.fail e) (account.turn crypto s t)
        payloads rest := by
    intro next e hturn hgiven
    exact packed_quiet crypto hturn hgiven (fun _ hnone => nomatch hnone) h
  have hswitch : ∀ (next : Stream) mic mic', s.turn crypto t = (next, []) → s.given t = [] →
      next.microphone = some mic' → s.microphone = some mic → mic.Switches mic' →
      ∃ payloads rest, Packed crypto opened next (account.turn crypto s t) payloads rest := by
    intro next mic mic' hturn hgiven hnext hmic hswitches
    apply packed_quiet crypto hturn hgiven _ h
    intro other hother
    rw [hnext] at hother
    cases hother
    exact ⟨mic, hmic, hswitches⟩
  cases t with
  | source name => exact hstay _ rfl rfl rfl
  | muted value => exact hstay _ rfl rfl rfl
  | gain value =>
    have hgain : ∃ next, s.turn crypto (.gain value) = (next, []) ∧
        next.microphone = s.microphone := by
      unfold turn setGain
      cases value with
      | none => exact ⟨s, rfl, rfl⟩
      | some value =>
        dsimp only
        by_cases hrange : 0 ≤ value ∧ value ≤ 1
        · rw [if_pos hrange]
          exact ⟨_, rfl, rfl⟩
        · rw [if_neg hrange]
          exact ⟨s, rfl, rfl⟩
    obtain ⟨next, hturn, hsame⟩ := hgain
    have hnext := hstay next hturn rfl hsame
    rw [hturn]
    exact hnext
  | wake event =>
    by_cases hfailed : s.failed.isSome
    · have hturn : s.turn crypto (.wake event) = (s, []) := by
        unfold turn wake
        exact if_pos hfailed
      have hgiven : s.given (.wake event) = [] := by
        have hnone : s.failed ≠ none := Option.isSome_iff_ne_none.mp hfailed
        cases event with
        | sample bytes sent =>
          cases hmic : s.microphone with
          | none => simp [given, hmic]
          | some mic => simp [given, hmic, hnone]
        | policy device => rfl
        | packet sample playback device => rfl
        | failed e => rfl
      have hnext := hstay s hturn hgiven rfl
      rw [hturn]
      exact hnext
    · have hwake : s.turn crypto (.wake event) = s.wake crypto event := rfl
      unfold wake at hwake
      rw [if_neg hfailed] at hwake
      cases event with
      | failed e =>
        rw [hwake]
        exact hfail s e hwake rfl
      | policy device =>
        cases hmic : s.microphone with
        | none =>
          simp only [hmic] at hwake
          rw [hwake]
          exact hstay s hwake rfl rfl
        | some mic =>
          simp only [hmic] at hwake
          cases hpolicy : s.onPolicy mic device with
          | error e =>
            simp only [hpolicy] at hwake
            rw [hwake]
            exact hfail s e hwake rfl
          | ok mic' =>
            simp only [hpolicy] at hwake
            rw [hwake]
            have hswitches := onPolicy_switches (h.rests mic hmic) hpolicy
            exact hswitch _ mic mic' hwake rfl rfl hmic hswitches
      | packet sample playback device =>
        cases playback with
        | error e =>
          rw [hwake]
          exact hfail _ e hwake rfl
        | ok u =>
          cases hmic : s.microphone with
          | none =>
            simp only [hmic] at hwake
            rw [hwake]
            exact hstay _ hwake rfl hmic.symm
          | some mic =>
            simp only [hmic] at hwake
            cases hactive : mic.active (s.policy.gain > 0 && !s.policy.muted) device with
            | error e =>
              simp only [hactive] at hwake
              rw [hwake]
              exact hfail _ e hwake rfl
            | ok mic' =>
              simp only [hactive] at hwake
              rw [hwake]
              have hswitches := (Microphone.active_switches (h.rests mic hmic) hactive).1
              exact hswitch _ mic mic' hwake rfl rfl hmic hswitches
      | sample bytes sent =>
        have hnone : s.failed = none := Option.not_isSome_iff_eq_none.mp hfailed
        cases hmic : s.microphone with
        | none =>
          simp only [hmic] at hwake
          rw [hwake]
          exact hstay s hwake (by simp [given, hmic]) rfl
        | some mic =>
          simp only [hmic] at hwake
          by_cases hrunning : mic.running ∧ ¬s.policy.muted
          · rw [if_pos hrunning] at hwake
            have hgiven : s.given (.wake (.sample bytes sent)) = bytes := by
              simp [given, hmic, hnone, hrunning]
            obtain ⟨more, kept, hboth, hwhole, hpackets, hok⟩ :=
              send_packed crypto fresh hmic h bytes sent
            rcases hsend : mic.send crypto bytes sent with ⟨mic', packets, e | u⟩
            · simp only [hsend] at hwake hpackets
              have haccount : account.turn crypto s (.wake (.sample bytes sent)) =
                  ⟨account.earlier, account.given ++ bytes, account.packets ++ packets⟩ := by
                simp [Account.turn, hwake, hgiven, stopped, fail]
              rw [hwake, haccount]
              refine ⟨payloads ++ more, kept, hboth, hwhole, hpackets, ?_, ?_, ?_⟩
              · exact fun _ hdropped => nomatch hdropped
              · exact fun _ hdropped => nomatch hdropped
              · exact fun _ hdropped => nomatch hdropped
            · simp only [hsend] at hwake hpackets
              rw [hsend] at hok
              have hcuts := hok rfl
              obtain ⟨hlast, hcounter⟩ := hcuts.counts rfl
              obtain ⟨hstarted, hsource⟩ := hcuts.device rfl
              have hstarted : mic'.running = true := hstarted.trans hrunning.1
              have hsource : mic'.source = mic.source := hsource
              have haccount : account.turn crypto s (.wake (.sample bytes sent)) =
                  ⟨account.earlier, account.given ++ bytes, account.packets ++ packets⟩ := by
                simp [Account.turn, hwake, hgiven, stopped, hmic, hstarted, hsource]
              rw [hwake, haccount]
              refine ⟨payloads ++ more, kept, hboth, hwhole, hpackets, ?_, ?_, ?_⟩
              · intro other hother
                cases hother
                refine ⟨hlast, ?_⟩
                have hbefore := (h.counts mic hmic).2
                rw [List.length_append, ← Nat.add_assoc, ← hbefore]
                exact hcounter
              · intro other hother
                cases hother
                exact hcuts.keeps rfl
              · intro other hother hidle
                cases hother
                rw [hstarted] at hidle
                exact nomatch hidle
          · rw [if_neg hrunning] at hwake
            rw [hwake]
            have hgiven : s.given (.wake (.sample bytes sent)) = [] := by
              simp only [given, hmic]
              rw [if_neg fun hall => hrunning hall.2]
            exact hstay s hwake hgiven rfl

/-- A stream that was just opened, with the microphone it was opened with. -/
theorem start_microphone {key : List UInt8} {connection : UInt64} {kind : ℕ}
    {format : AudioFormat} {category : String} {latencyMs : ℕ} {capture : Option CaptureOptions}
    {outcome : StreamOutcome} {s : Stream} {opened : Microphone}
    (h : Stream.start key connection kind format category latencyMs capture outcome = .ok s)
    (hmic : s.microphone = some opened) : opened.Fresh := by
  unfold Stream.start at h
  simp only [bind_eq_ok] at h
  obtain ⟨_, -, _, -, _, -, microphone, hmicrophone, ⟨dataPort, controlPort⟩, -, h⟩ := h
  cases h
  have hopened : microphone = some opened := hmic
  unfold Microphone.openRequested at hmicrophone
  cases capture with
  | none =>
    cases hmicrophone
    exact nomatch hopened
  | some options =>
    cases hopen : Microphone.open format options outcome.capture with
    | error e =>
      simp only [hopen] at hmicrophone
      exact nomatch hmicrophone
    | ok mic =>
      simp only [hopen] at hmicrophone
      cases hmicrophone
      cases hopened
      exact Microphone.open_fresh hopen

theorem fresh_packed {opened : Microphone} (fresh : opened.Fresh) {s : Stream}
    (hmic : s.microphone = some opened) : Packed crypto opened s ⟨0, [], []⟩ [] [] where
  given := rfl
  whole := fun _ hnone => absurd hnone List.not_mem_nil
  packets := rfl
  counts := by
    intro mic hsome
    rw [hmic] at hsome
    cases hsome
    exact ⟨fresh.counts, fresh.counter⟩
  pending := by
    intro mic hsome
    rw [hmic] at hsome
    cases hsome
    exact ⟨fresh.pending, Nat.pos_of_ne_zero opened.positive⟩
  rests := by
    intro mic hsome _
    rw [hmic] at hsome
    cases hsome
    exact fresh.pending

theorem run_packed {opened : Microphone} (fresh : opened.Fresh) {s : Stream}
    (hmic : s.microphone = some opened) (turns : List Turn) :
    ∃ payloads rest,
      Packed crypto opened (run (accountedTurn crypto) (s, ⟨0, [], []⟩) turns).1.1
        (run (accountedTurn crypto) (s, ⟨0, [], []⟩) turns).1.2 payloads rest := by
  apply run_invariant (accountedTurn crypto)
    (I := fun t => ∃ payloads rest, Packed crypto opened t.1 t.2 payloads rest)
  · exact ⟨[], [], fresh_packed crypto fresh hmic⟩
  · rintro ⟨s, account⟩ t ⟨payloads, rest, h⟩
    exact turn_packed crypto fresh h t

/-- In every run of a stream the packets since the microphone was last stopped hold what it was
given since then, less than a packet is kept, and the three counters go on by one packet with each.
Nothing that the capture delivers is too much, so sending ends with an error only if the network or
the cipher refuses, or after the last of all numbers. -/
theorem packetization_exact {key : List UInt8} {connection : UInt64} {kind : ℕ}
    {format : AudioFormat} {category : String} {latencyMs : ℕ} {capture : Option CaptureOptions}
    {outcome : StreamOutcome} {s : Stream} {opened : Microphone}
    (hstart : Stream.start key connection kind format category latencyMs capture outcome = .ok s)
    (hopened : s.microphone = some opened) (turns : List Turn) :
    let reached := (run (accountedTurn crypto) (s, ⟨0, [], []⟩) turns).1
    (∃ payloads rest, Packed crypto opened reached.1 reached.2 payloads rest) ∧
      ∀ mic, reached.1.microphone = some mic → ∀ bytes sent, bytes.length ≤ 4096 →
        mic.pending.length + bytes.length ≤ 8192 ∧
          ∀ e, (mic.send crypto bytes sent).2.2 = .error e →
            opened.Refused crypto sent
              (mic.counter + (mic.send crypto bytes sent).2.1.length) e := by
  have fresh := start_microphone hstart hopened
  obtain ⟨payloads, rest, h⟩ := run_packed crypto fresh hopened turns
  refine ⟨⟨payloads, rest, h⟩, ?_⟩
  intro mic hmic bytes sent hbytes
  obtain ⟨hpending, hshort⟩ := h.pending mic hmic
  have hroom : mic.pending.length + bytes.length ≤ 8192 := by
    have hbounded := fresh.bounded
    rw [hpending]
    omega
  obtain ⟨more, kept, hcuts⟩ :=
    Microphone.send_cuts crypto fresh (h.counts mic hmic).1 hroom sent
  exact ⟨hroom, hcuts.refused⟩

/-- A cipher that leaves the octets as they are. -/
def openCrypto : Crypto where
  modulus := 0
  sha512 := .ok
  hmacSha512 _ _ := .error .rejected
  encryptAead _ _ _ plain := .ok (plain, List.replicate 16 0)
  decryptAead _ _ _ bytes _ := .ok bytes
  x25519Public := .ok
  x25519Derive _ := .ok
  ed25519Public := .ok
  ed25519Sign _ := .ok
  ed25519Verify _ _ _ := .ok true

/-- A packet of this microphone takes four octets. -/
def callingMicrophone : Microphone where
  key := List.replicate 32 2
  port := 5000
  source := "microphone"
  packetBytes := 4
  frames := 2
  positive := by decide
  pending := []
  counter := 0
  sequence := 0
  timestamp := 0
  running := false

def calling : Stream where
  dataPort := 6000
  controlPort := 6001
  connection := 5
  kind := 100
  format := ⟨.signedPcm16, 16000, 1⟩
  category := "telephony"
  latencyMs := 0
  key := List.replicate 32 1
  anchor := none
  policy := ⟨0, false, none⟩
  microphone := some callingMicrophone
  failed := none

theorem calling_start :
    Stream.start (List.replicate 32 1) 5 100 ⟨.signedPcm16, 16000, 1⟩ "telephony" 0
      (some ⟨"microphone", List.replicate 32 2, 5000, 2⟩) ⟨.ok (), .ok (), .ok (6000, 6001)⟩ =
        .ok calling := rfl

def chunk (bytes : List UInt8) : Turn := .wake (.sample bytes fun _ => .ok ())

def changed : Turn := .wake (.policy fun _ => .ok ())

/-- The gain is raised, the phone plays and the microphone runs. -/
def talking : List Turn := [.gain (some 1), .wake (.packet 0 (.ok ()) (.ok ()))]

/-- Half a packet is captured, the microphone is muted for a while, a packet is captured. -/
def mutedBetween : List Turn :=
  talking ++ [chunk [1, 2], .muted true, changed, .muted false, changed, chunk [3, 4, 5, 6]]

theorem packetization_exact_muted :
    (∃ payloads rest,
      Packed openCrypto callingMicrophone
        (run (accountedTurn openCrypto) (calling, ⟨0, [], []⟩) mutedBetween).1.1
        (run (accountedTurn openCrypto) (calling, ⟨0, [], []⟩) mutedBetween).1.2 payloads rest) ∧
      (run (accountedTurn openCrypto) (calling, ⟨0, [], []⟩) mutedBetween).1.2.given =
        [3, 4, 5, 6] :=
  ⟨(packetization_exact openCrypto calling_start rfl mutedBetween).1, by decide +kernel⟩

/-- Everything that the microphone is given in a run. -/
def allGiven (s : Stream) : List Turn → List UInt8
  | [] => []
  | t :: ts => s.given t ++ allGiven (s.turn crypto t).1 ts

/-- Everything that is sealed in a run. -/
def allPackets (s : Stream) (ts : List Turn) : List Sealed :=
  (run (turn crypto) s ts).2.flatMap Prod.snd

/-- The same microphone while it runs. -/
def talkingMicrophone (n : ℕ) (sequence : UInt16) (timestamp : UInt32) (pending : List UInt8) :
    Microphone where
  key := List.replicate 32 2
  port := 5000
  source := "microphone"
  packetBytes := 4
  frames := 2
  positive := by decide
  pending := pending
  counter := n
  sequence := sequence
  timestamp := timestamp
  running := true

/-- A stream whose microphone runs, has sealed `n` packets and keeps nothing. -/
structure Talking (s : Stream) (n : ℕ) : Prop where
  healthy : s.failed = none
  muted : s.policy.muted = false
  microphone : ∃ sequence timestamp, s.microphone = some (talkingMicrophone n sequence timestamp [])

theorem sendPackets_one {mic : Microphone} {packet : Sealed}
    (hlength : mic.pending.length = mic.packetBytes)
    (hseal : sealPcm crypto mic.key mic.counter mic.sequence mic.timestamp mic.pending =
      .ok packet) :
    (mic.counter + 1 < 2 ^ 64 → mic.sendPackets crypto (fun _ => .ok ()) =
      ({ mic with
          pending := []
          counter := mic.counter + 1
          sequence := mic.sequence + 1
          timestamp := mic.timestamp + UInt32.ofNat mic.frames }, [packet], .ok ())) ∧
      (2 ^ 64 ≤ mic.counter + 1 → mic.sendPackets crypto (fun _ => .ok ()) =
        ({ mic with pending := [] }, [packet], .error .bounds)) := by
  have hpositive := mic.positive
  have htake : mic.pending.take mic.packetBytes = mic.pending := by
    rw [← hlength, List.take_length]
  have hdrop : mic.pending.drop mic.packetBytes = [] := by
    rw [← hlength, List.drop_length]
  constructor
  · intro hnext
    rw [Microphone.sendPackets, dif_neg (by omega)]
    simp only [htake, hdrop, hseal]
    rw [if_neg (by omega), Microphone.sendPackets_short]
    dsimp only [List.length_nil]
    omega
  · intro hlast
    rw [Microphone.sendPackets, dif_neg (by omega)]
    simp only [htake, hdrop, hseal]
    rw [if_pos hlast]

theorem send_talking (n : ℕ) (sequence : UInt16) (timestamp : UInt32) :
    ∃ packet, (n + 1 < 2 ^ 64 →
      (talkingMicrophone n sequence timestamp []).send openCrypto [0, 0, 0, 0] (fun _ => .ok ()) =
        (talkingMicrophone (n + 1) (sequence + 1) (timestamp + 2) [], [packet], .ok ())) ∧
      (2 ^ 64 ≤ n + 1 →
        (talkingMicrophone n sequence timestamp []).send openCrypto [0, 0, 0, 0] (fun _ => .ok ()) =
          (talkingMicrophone n sequence timestamp [], [packet], .error .bounds)) := by
  obtain ⟨packet, hpacket⟩ : ∃ packet, sealPcm openCrypto (List.replicate 32 2) n sequence
      timestamp [0, 0, 0, 0] = .ok packet := ⟨_, rfl⟩
  have hsend : (talkingMicrophone n sequence timestamp []).send openCrypto [0, 0, 0, 0]
      (fun _ => .ok ()) = (talkingMicrophone n sequence timestamp [0, 0, 0, 0]).sendPackets
        openCrypto (fun _ => .ok ()) := by
    unfold Microphone.send
    rw [if_neg (by simp [talkingMicrophone])]
    rfl
  rw [hsend]
  have hone := @sendPackets_one openCrypto
    (talkingMicrophone n sequence timestamp [0, 0, 0, 0]) packet rfl hpacket
  exact ⟨packet, hone.1, hone.2⟩

theorem Talking.turn_chunk {s : Stream} {n : ℕ} (h : s.Talking n) {sequence : UInt16}
    {timestamp : UInt32}
    (hmic : s.microphone = some (talkingMicrophone n sequence timestamp [])) :
    s.turn openCrypto (Stream.chunk [0, 0, 0, 0]) =
      match (talkingMicrophone n sequence timestamp []).send openCrypto [0, 0, 0, 0]
        (fun _ => .ok ()) with
      | (_, packets, .error e) => (s.fail e, packets)
      | (mic, packets, .ok ()) => ({ s with microphone := some mic }, packets) := by
  have hwake : s.turn openCrypto (Stream.chunk [0, 0, 0, 0]) =
    s.wake openCrypto (.sample [0, 0, 0, 0] fun _ => .ok ()) := rfl
  rw [hwake]
  unfold wake
  rw [if_neg (by simp [h.healthy])]
  simp only [hmic]
  exact if_pos ⟨rfl, by simp [h.muted]⟩

theorem Talking.chunk {s : Stream} {n : ℕ} (h : s.Talking n) :
    (n + 1 < 2 ^ 64 → (s.turn openCrypto (chunk [0, 0, 0, 0])).1.Talking (n + 1)) ∧
      (2 ^ 64 ≤ n + 1 → (s.turn openCrypto (chunk [0, 0, 0, 0])).1.failed = some .bounds) := by
  obtain ⟨sequence, timestamp, hmic⟩ := h.microphone
  obtain ⟨packet, hnext, hlast⟩ := send_talking n sequence timestamp
  rw [h.turn_chunk hmic]
  constructor
  · intro hless
    rw [hnext hless]
    exact ⟨h.healthy, h.muted, sequence + 1, timestamp + 2, rfl⟩
  · intro hmost
    rw [hlast hmost]
    rfl

theorem talking_chunks {n : ℕ} (hn : n < 2 ^ 64) :
    (run (turn openCrypto) calling (talking ++ List.replicate n (chunk [0, 0, 0, 0]))).1.Talking
      n := by
  induction n with
  | zero => exact ⟨rfl, rfl, 0, 0, rfl⟩
  | succ n ih =>
    rw [List.replicate_succ', ← List.append_assoc, run_concat]
    exact (ih (by omega)).chunk.1 hn

/-- Muting drops half a packet, so the packets do not start with what was given; and the last of
all numbers ends the stream with an error. -/
theorem mute_drops_octets :
    (¬∃ payloads rest, allGiven openCrypto calling mutedBetween = payloads.flatten ++ rest ∧
      (∀ payload ∈ payloads, payload.length = callingMicrophone.packetBytes) ∧
      callingMicrophone.Packets openCrypto 0 payloads
        (allPackets openCrypto calling mutedBetween)) ∧
      (run (turn openCrypto) calling
        (talking ++ List.replicate (2 ^ 64) (chunk [0, 0, 0, 0]))).1.failed = some .bounds := by
  constructor
  · rintro ⟨payloads, rest, hgiven, hwhole, hpackets⟩
    have hgivenAll : allGiven openCrypto calling mutedBetween = [1, 2, 3, 4, 5, 6] := by
      decide +kernel
    have hsecond : callingMicrophone.Packets openCrypto 0 [[3, 4, 5, 6]]
        (allPackets openCrypto calling mutedBetween) := by
      unfold Microphone.Packets
      decide +kernel
    have hlength := (Microphone.Packets.length _ hpackets).trans
      (Microphone.Packets.length _ hsecond).symm
    obtain ⟨payload, rfl⟩ := List.length_eq_one_iff.mp hlength
    rw [hgivenAll, List.flatten_singleton] at hgiven
    have hsplit : [1, 2, 3, 4] ++ [5, 6] = payload ++ rest := hgiven
    have hfirst : [1, 2, 3, 4] = payload :=
      (List.append_inj hsplit (hwhole payload (by simp)).symm).1
    have hsame := hpackets.trans hsecond.symm
    rw [← hfirst] at hsame
    exact absurd hsame (by decide +kernel)
  · obtain ⟨n, hn⟩ : ∃ n, n + 1 = 2 ^ 64 := ⟨2 ^ 64 - 1, by norm_num⟩
    rw [← hn, List.replicate_succ', ← List.append_assoc, run_concat]
    exact (talking_chunks (by omega)).chunk.2 hn.ge

end Stream
end ProjectArgo.CarPlay
