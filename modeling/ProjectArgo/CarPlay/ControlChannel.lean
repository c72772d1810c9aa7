import ProjectArgo.CarPlay.MicrophoneNonces
import ProjectArgo.CarPlay.ReceiverWire
import ProjectArgo.Library.Framing

/-!
# The encrypted control channel

A sender cuts a message into parts and seals each under the next nonce; a reader takes frames
off the stream and opens them under the next nonce of its own. Where opening succeeds on
nothing but what was sealed under the same nonce with the same header, the two counters keep
the reader at the frame that comes next.
-/
namespace ProjectArgo.CarPlay.ControlChannel

open Library.Bytes Library.Fragments Library.Framing Library.Run

variable (crypto : Crypto)

/-! ## Sending -/

/-- A frame with what it was sealed from. The counter gives the nonce. -/
structure Sealing where
  counter : ℕ
  plain : List UInt8
  frame : List UInt8
  deriving DecidableEq

/-- The parts of a message are encrypted one by one, up to the first error. -/
def sendParts : ControlCipher → List (List UInt8) →
    ControlCipher × List Sealing × Except Error Unit
  | cipher, [] => (cipher, [], .ok ())
  | cipher, part :: parts =>
    match cipher.encrypt crypto part with
    | (next, .error e) => (next, [], .error e)
    | (next, .ok frame) =>
      let rest := sendParts next parts
      (rest.1, ⟨cipher.counter, part, frame⟩ :: rest.2.1, rest.2.2)

/-- `send` of several messages. -/
def sendAll : ControlCipher → List (List UInt8) →
    ControlCipher × List Sealing × List (Except Error Unit)
  | cipher, [] => (cipher, [], [])
  | cipher, message :: messages =>
    let sent := sendParts crypto cipher (chunks 16384 message)
    let rest := sendAll sent.1 messages
    (rest.1, sent.2.1 ++ rest.2.1, sent.2.2 :: rest.2.2)

/-- The frames are those of the control connection, where every write succeeds. -/
theorem sendParts_eq (setting : Setting) (cipher : ControlCipher) (parts : List (List UInt8)) :
    Receiver.sendParts setting cipher (fun _ => .ok ()) parts =
      ((sendParts setting.crypto cipher parts).1,
        (sendParts setting.crypto cipher parts).2.1.map fun s => .encrypted s.frame,
        (sendParts setting.crypto cipher parts).2.2) := by
  induction parts generalizing cipher with
  | nil => rfl
  | cons part parts ih =>
    rw [Receiver.sendParts, sendParts]
    rcases cipher.encrypt setting.crypto part with ⟨next, e | frame⟩
    · rfl
    · dsimp only
      rw [ih]
      rfl

variable {crypto} {key : List UInt8} {sealings : List Sealing}

theorem encrypt_error {cipher next : ControlCipher} {plain : List UInt8} {e : Error}
    (h : cipher.encrypt crypto plain = (next, .error e)) : next = cipher := by
  unfold ControlCipher.encrypt at h
  split at h
  · exact (Prod.mk.inj h).1.symm
  · dsimp only at h
    split at h
    · exact (Prod.mk.inj h).1.symm
    · split at h
      · exact (Prod.mk.inj h).1.symm
      · cases h

/-- What a sealing was made of under a key. -/
structure Sealing.Made (crypto : Crypto) (key : List UInt8) (s : Sealing) : Prop where
  nonempty : s.plain ≠ []
  short : s.plain.length ≤ 16384
  below : s.counter < 2 ^ 64 - 1
  sealed : ∃ bytes, crypto.sealBytes key (sealNonce s.counter) (littleEndian 2 s.plain.length)
    s.plain = .ok bytes ∧ s.frame = littleEndian 2 s.plain.length ++ bytes

theorem encrypt_ok {cipher next : ControlCipher} {plain frame : List UInt8}
    (hcounter : cipher.counter ≤ 2 ^ 64 - 1)
    (h : cipher.encrypt crypto plain = (next, .ok frame)) :
    Sealing.Made crypto cipher.key ⟨cipher.counter, plain, frame⟩ ∧
      next = { cipher with counter := cipher.counter + 1 } := by
  unfold ControlCipher.encrypt at h
  split at h
  · cases h
  rename_i hbounds
  rw [not_or, Nat.not_lt] at hbounds
  dsimp only at h
  split at h
  · cases h
  rename_i nonce hnonce
  unfold ControlCipher.nonce at hnonce
  split at hnonce
  · cases hnonce
  rename_i halive
  rw [not_or] at halive
  cases hnonce
  split at h
  · cases h
  · rename_i bytes hsealed
    cases h
    exact ⟨⟨hbounds.1, hbounds.2, by dsimp only; omega, bytes, hsealed, rfl⟩, rfl⟩

/-- The sealings of a run are made under the key and numbered one after the other. -/
structure Sent (crypto : Crypto) (cipher next : ControlCipher) (sealings : List Sealing) :
    Prop where
  next : next = { cipher with counter := cipher.counter + sealings.length }
  bounded : cipher.counter + sealings.length ≤ 2 ^ 64 - 1
  numbered : sealings.map Sealing.counter = List.range' cipher.counter sealings.length
  made : ∀ s ∈ sealings, s.Made crypto cipher.key

theorem Sent.nil {cipher : ControlCipher} (hcounter : cipher.counter ≤ 2 ^ 64 - 1) :
    Sent crypto cipher cipher [] := ⟨rfl, hcounter, rfl, fun _ hs => nomatch hs⟩

theorem Sent.append {cipher middle next : ControlCipher} {others : List Sealing}
    (h : Sent crypto cipher middle sealings) (hothers : Sent crypto middle next others) :
    Sent crypto cipher next (sealings ++ others) := by
  obtain ⟨rfl, -, hnumbered, hmade⟩ := h
  obtain ⟨rfl, hbounded, hnumbered', hmade'⟩ := hothers
  dsimp only at hbounded hnumbered' hmade'
  refine ⟨?_, ?_, ?_, ?_⟩
  · rw [List.length_append, Nat.add_assoc]
  · rw [List.length_append, ← Nat.add_assoc]
    exact hbounded
  · rw [List.map_append, hnumbered, hnumbered', List.length_append, List.range'_append_1]
  · intro s hs
    rcases List.mem_append.mp hs with hs | hs
    · exact hmade s hs
    · exact hmade' s hs

variable (crypto) in
theorem sendParts_sent {cipher : ControlCipher} (hcounter : cipher.counter ≤ 2 ^ 64 - 1)
    (parts : List (List UInt8)) :
    Sent crypto cipher (sendParts crypto cipher parts).1 (sendParts crypto cipher parts).2.1 := by
  induction parts generalizing cipher with
  | nil => exact .nil hcounter
  | cons part parts ih =>
    rw [sendParts]
    rcases hencrypt : cipher.encrypt crypto part with ⟨next, e | frame⟩
    · rw [encrypt_error hencrypt]
      exact .nil hcounter
    · obtain ⟨hmade, rfl⟩ := encrypt_ok hcounter hencrypt
      have hbelow := hmade.below
      have hone : Sent crypto cipher { cipher with counter := cipher.counter + 1 }
          [⟨cipher.counter, part, frame⟩] := by
        refine ⟨rfl, hbelow, rfl, ?_⟩
        intro s hs
        rw [List.mem_singleton.mp hs]
        exact hmade
      exact hone.append (ih hbelow)

variable (crypto) in
theorem sendAll_sent {cipher : ControlCipher} (hcounter : cipher.counter ≤ 2 ^ 64 - 1)
    (messages : List (List UInt8)) :
    Sent crypto cipher (sendAll crypto cipher messages).1 (sendAll crypto cipher messages).2.1 := by
  induction messages generalizing cipher with
  | nil => exact .nil hcounter
  | cons message messages ih =>
    have hparts := sendParts_sent crypto hcounter (chunks 16384 message)
    have hnext := hparts.bounded
    refine hparts.append (ih ?_)
    rw [hparts.next]
    exact hnext

/-- A message that is sent is sealed in parts that make it up. -/
theorem sendParts_plain {cipher : ControlCipher} {parts : List (List UInt8)}
    (h : (sendParts crypto cipher parts).2.2 = .ok ()) :
    (sendParts crypto cipher parts).2.1.map Sealing.plain = parts := by
  induction parts generalizing cipher with
  | nil => rfl
  | cons part parts ih =>
    rw [sendParts] at h ⊢
    rcases hencrypt : cipher.encrypt crypto part with ⟨next, e | frame⟩
    · rw [hencrypt] at h
      cases h
    · rw [hencrypt] at h
      dsimp only at h ⊢
      rw [List.map_cons, ih h]

theorem sendAll_plain {cipher : ControlCipher} {messages : List (List UInt8)}
    (h : ∀ result ∈ (sendAll crypto cipher messages).2.2, result = .ok ()) :
    ((sendAll crypto cipher messages).2.1.map Sealing.plain).flatten = messages.flatten := by
  induction messages generalizing cipher with
  | nil => rfl
  | cons message messages ih =>
    rw [sendAll] at h ⊢
    rw [List.forall_mem_cons] at h
    dsimp only at h ⊢
    rw [List.map_append, List.flatten_append, sendParts_plain h.1, ih h.2,
      flatten_chunks (by decide), List.flatten_cons]

/-- No nonce is used for two frames. -/
theorem Sent.nonces_nodup {cipher next : ControlCipher} (h : Sent crypto cipher next sealings) :
    (sealings.map fun s => sealNonce s.counter).Nodup := by
  have hcounters : (sealings.map Sealing.counter).Nodup := by
    rw [h.numbered]
    exact List.nodup_range'
  have hmap : (sealings.map fun s => sealNonce s.counter) =
      (sealings.map Sealing.counter).map sealNonce := by
    rw [List.map_map]
    rfl
  rw [hmap]
  apply List.Nodup.map_on _ hcounters
  intro m hm n hn hsame
  obtain ⟨s, hs, rfl⟩ := List.mem_map.mp hm
  obtain ⟨t, ht, rfl⟩ := List.mem_map.mp hn
  have hless := (h.made s hs).below
  have hless' := (h.made t ht).below
  exact sealNonce_injective (by omega) (by omega) hsame

/-! ## Opening -/

/-- Opening undoes sealing, and it succeeds only on what was sealed under the same key, with the
same nonce and the same header. -/
structure Aead (crypto : Crypto) (key : List UInt8) (sealings : List Sealing) : Prop where
  length : ∀ nonce aad plain bytes, crypto.sealBytes key nonce aad plain = .ok bytes →
    bytes.length = plain.length + 16
  opens : ∀ s ∈ sealings, crypto.openBytes key (sealNonce s.counter) (s.frame.take 2)
    (s.frame.drop 2) = .ok s.plain
  only : ∀ nonce aad bytes plain, crypto.openBytes key nonce aad bytes = .ok plain →
    ∃ s ∈ sealings, nonce = sealNonce s.counter ∧ aad = s.frame.take 2 ∧
      bytes = s.frame.drop 2 ∧ plain = s.plain

/-- What was sealed from the first nonce on. -/
structure Session (crypto : Crypto) (key : List UInt8) (sealings : List Sealing) : Prop where
  aead : Aead crypto key sealings
  numbered : sealings.map Sealing.counter = List.range sealings.length
  made : ∀ s ∈ sealings, s.Made crypto key

theorem session_of_sendAll {messages : List (List UInt8)}
    (h : Aead crypto key (sendAll crypto (.new key) messages).2.1) :
    Session crypto key (sendAll crypto (.new key) messages).2.1 := by
  have hsent : Sent crypto (.new key) _ (sendAll crypto (.new key) messages).2.1 :=
    sendAll_sent crypto (Nat.zero_le _) messages
  refine ⟨h, ?_, hsent.made⟩
  rw [hsent.numbered, List.range_eq_range']
  rfl

theorem Session.counter {k : ℕ} {s : Sealing} (h : Session crypto key sealings)
    (hs : sealings[k]? = some s) : s.counter = k := by
  have hmap : (sealings.map Sealing.counter)[k]? = some s.counter := by
    rw [List.getElem?_map, hs]
    rfl
  obtain ⟨hlt, -⟩ := List.getElem?_eq_some_iff.mp hs
  rw [h.numbered, List.getElem?_range hlt] at hmap
  exact (Option.some.inj hmap).symm

/-- The header of a frame tells its length. -/
theorem Session.frame {s : Sealing} (h : Session crypto key sealings) (hs : s ∈ sealings) :
    ofBigEndian (s.frame.take 2).reverse = s.plain.length ∧ s.frame.length = s.plain.length + 18 ∧
      s.plain.length ≤ 16384 := by
  obtain ⟨-, hshort, -, bytes, hsealed, hframe⟩ := h.made s hs
  have hlength := h.aead.length _ _ _ _ hsealed
  refine ⟨?_, ?_, hshort⟩
  · rw [hframe, List.take_left' (length_littleEndian 2 _), littleEndian, List.reverse_reverse]
    exact ofBigEndian_bigEndian (by omega)
  · rw [hframe, List.length_append, length_littleEndian, hlength]
    omega

/-- The next frame is opened, and the counter moves on. -/
theorem Session.decrypt_next {k : ℕ} {s : Sealing} (h : Session crypto key sealings)
    (hs : sealings[k]? = some s) :
    ControlCipher.decrypt crypto ⟨key, k, false⟩ s.frame = (⟨key, k + 1, false⟩, .ok s.plain) := by
  have hmem := List.mem_of_getElem? hs
  obtain ⟨hsize, hlength, hshort⟩ := h.frame hmem
  have hbelow := (h.made s hmem).below
  rw [h.counter hs] at hbelow
  have hnonce : ControlCipher.nonce ⟨key, k, false⟩ = .ok (sealNonce k) := by
    unfold ControlCipher.nonce
    rw [if_neg (by simp; omega)]
    rfl
  have hopen := h.aead.opens s hmem
  rw [h.counter hs] at hopen
  unfold ControlCipher.decrypt
  rw [hnonce]
  dsimp only
  rw [if_neg (by omega), if_neg (by rw [hsize, not_or]; omega), hopen]

/-- A cipher that opens nothing any more. -/
def Dead (cipher : ControlCipher) : Prop := cipher.failed = true ∨ cipher.counter = 2 ^ 64 - 1

theorem decrypt_dead {cipher : ControlCipher} (h : Dead cipher) (frame : List UInt8) :
    cipher.decrypt crypto frame = (cipher, .error .state) := by
  have hnonce : cipher.nonce = .error .state := if_pos h
  unfold ControlCipher.decrypt
  rw [hnonce]

variable (crypto) in
/-- A frame is opened, or the counter stays and nothing is opened any more. -/
theorem decrypt_cases (cipher : ControlCipher) (frame : List UInt8) :
    (∃ e next, cipher.decrypt crypto frame = (next, .error e) ∧ next.counter = cipher.counter ∧
      Dead next) ∨
    ∃ plain, cipher.decrypt crypto frame =
        ({ cipher with counter := cipher.counter + 1 }, .ok plain) ∧
      18 ≤ frame.length ∧
      crypto.openBytes cipher.key (sealNonce cipher.counter) (frame.take 2) (frame.drop 2) =
        .ok plain := by
  by_cases hdead : Dead cipher
  · exact .inl ⟨.state, cipher, decrypt_dead hdead frame, rfl, hdead⟩
  have hnonce : cipher.nonce = .ok (sealNonce cipher.counter) := if_neg hdead
  unfold ControlCipher.decrypt
  rw [hnonce]
  dsimp only
  split
  · exact .inl ⟨_, _, rfl, rfl, .inl rfl⟩
  split
  · exact .inl ⟨_, _, rfl, rfl, .inl rfl⟩
  rename_i hlong hsize
  split
  · exact .inl ⟨_, _, rfl, rfl, .inl rfl⟩
  · rename_i plain hopen
    exact .inr ⟨plain, rfl, by omega, hopen⟩

/-- Anything but the next frame is rejected for good. -/
theorem Session.decrypt_other {k : ℕ} {frame : List UInt8} (h : Session crypto key sealings)
    (hk : k < 2 ^ 64) (hframe : (sealings[k]?).map Sealing.frame ≠ some frame) :
    ∃ e next, ControlCipher.decrypt crypto ⟨key, k, false⟩ frame = (next, .error e) ∧
      next.counter = k ∧ Dead next := by
  obtain herror | ⟨plain, -, -, hopen⟩ := decrypt_cases crypto ⟨key, k, false⟩ frame
  · exact herror
  · obtain ⟨s, hmem, hnonce, hhead, hrest, -⟩ := h.aead.only _ _ _ _ hopen
    have hbelow := (h.made s hmem).below
    have hcounter : k = s.counter := sealNonce_injective hk (by omega) hnonce
    obtain ⟨i, hi⟩ := List.mem_iff_getElem?.mp hmem
    have hindex : i = k := (h.counter hi).symm.trans hcounter.symm
    have hsame : frame = s.frame := by
      rw [← List.take_append_drop 2 frame, hhead, hrest, List.take_append_drop]
    rw [← hindex, hi, hsame] at hframe
    exact (hframe rfl).elim

theorem Session.length_le (h : Session crypto key sealings) : sealings.length ≤ 2 ^ 64 - 1 := by
  by_contra hlong
  have hlt : sealings.length - 1 < sealings.length := by omega
  have hlast := List.getElem?_eq_getElem hlt
  have hbelow := (h.made _ (List.mem_of_getElem? hlast)).below
  rw [h.counter hlast] at hbelow
  omega

/-- How many items two lists have in common from the front. -/
def agreeing : List (List UInt8) → List (List UInt8) → ℕ
  | first :: rest, other :: others => if first = other then agreeing rest others + 1 else 0
  | _, _ => 0

variable (crypto) in
theorem decrypt_run_dead {cipher : ControlCipher} (h : Dead cipher) (frames : List (List UInt8)) :
    (run (ControlCipher.decrypt crypto) cipher frames).1 = cipher ∧
      ∀ entry ∈ (run (ControlCipher.decrypt crypto) cipher frames).2,
        entry.2 = .error .state := by
  induction frames with
  | nil => exact ⟨rfl, fun _ hentry => nomatch hentry⟩
  | cons frame frames ih =>
    simp only [run]
    rw [decrypt_dead h]
    refine ⟨ih.1, ?_⟩
    rw [List.forall_mem_cons]
    exact ⟨rfl, ih.2⟩

/-- Frames are opened as long as they are those that were sealed, in their order; from the first
other frame on everything is rejected, and the counter stays. -/
theorem Session.decrypt_run {k : ℕ} (h : Session crypto key sealings) (hk : k ≤ sealings.length)
    (frames : List (List UInt8)) :
    (run (ControlCipher.decrypt crypto) ⟨key, k, false⟩ frames).1.counter =
        k + agreeing frames ((sealings.drop k).map Sealing.frame) ∧
      ∃ errors : List (Except Error (List UInt8)), (∀ r ∈ errors, ∃ e, r = .error e) ∧
        (run (ControlCipher.decrypt crypto) ⟨key, k, false⟩ frames).2.map (·.2) =
          ((sealings.drop k).take
            (agreeing frames ((sealings.drop k).map Sealing.frame))).map (fun s => .ok s.plain) ++
            errors := by
  have hlength := h.length_le
  induction frames generalizing k with
  | nil =>
    refine ⟨by simp [agreeing], [], ?_, by simp [agreeing]⟩
    intro r hr
    cases hr
  | cons frame frames ih =>
    by_cases hnext : (sealings[k]?).map Sealing.frame = some frame
    · obtain ⟨s, hs, rfl⟩ := Option.map_eq_some_iff.mp hnext
      obtain ⟨hlt, hget⟩ := List.getElem?_eq_some_iff.mp hs
      obtain ⟨hcounter, errors, herrors, hresults⟩ := @ih (k + 1) hlt
      have hdrop : sealings.drop k = s :: sealings.drop (k + 1) := by
        rw [List.drop_eq_getElem_cons hlt, hget]
      simp only [run, h.decrypt_next hs, hdrop, List.map_cons, agreeing, if_true,
        List.take_succ_cons, List.cons_append]
      refine ⟨?_, errors, herrors, ?_⟩
      · rw [hcounter]
        omega
      · rw [hresults]
    · obtain ⟨e, next, hdecrypt, hcounter, hdead⟩ := h.decrypt_other (by omega) hnext
      have hzero : agreeing (frame :: frames) ((sealings.drop k).map Sealing.frame) = 0 := by
        cases hrest : sealings.drop k with
        | nil => rfl
        | cons s rest =>
          have hs : sealings[k]? = some s := by
            rw [← List.head?_drop, hrest]
            rfl
          rw [hs] at hnext
          rw [List.map_cons, agreeing, if_neg]
          exact fun hsame => hnext (congrArg some hsame.symm)
      obtain ⟨hlast, herrors⟩ := decrypt_run_dead crypto hdead frames
      rw [hzero]
      simp only [run, hdecrypt]
      refine ⟨?_, _, ?_, rfl⟩
      · rw [hlast, hcounter]
        rfl
      · rw [List.forall_mem_cons]
        refine ⟨⟨e, rfl⟩, fun r hr => ?_⟩
        obtain ⟨entry, hentry, rfl⟩ := List.mem_map.mp hr
        exact ⟨_, herrors entry hentry⟩

/-! ## Reading -/

/-- A frame, once all of it has arrived. -/
def readFrame (unread : List UInt8) : Except Error (Option (List UInt8 × List UInt8)) :=
  if unread.length < 2 then .ok none
  else
    let size := ofBigEndian (unread.take 2).reverse
    if size > 16384 then .error .bounds
    else if unread.length < size + 18 then .ok none
    else .ok (some (unread.take (size + 18), unread.drop (size + 18)))

theorem readFrame_some {unread frame rest : List UInt8}
    (h : readFrame unread = .ok (some (frame, rest))) :
    unread = frame ++ rest ∧ 18 ≤ frame.length := by
  unfold readFrame at h
  split at h
  · cases h
  dsimp only at h
  split at h
  · cases h
  split at h
  · cases h
  rename_i hlong
  cases h
  refine ⟨(List.take_append_drop _ _).symm, ?_⟩
  rw [List.length_take]
  omega

def frames : Parser (UInt8) (List UInt8) Error where
  next := readFrame
  shorter := by
    intro unread frame rest h
    obtain ⟨rfl, hlength⟩ := readFrame_some h
    rw [List.length_append]
    omega

theorem Session.frames_of_mem {s : Sealing} (h : Session crypto key sealings) (hs : s ∈ sealings) :
    frames.Frames s.frame s.frame := by
  obtain ⟨hsize, hlength, hshort⟩ := h.frame hs
  constructor
  · intro rest
    change readFrame (s.frame ++ rest) = _
    unfold readFrame
    dsimp only
    rw [List.take_append_of_le_length (by omega), hsize, List.length_append, if_neg (by omega),
      if_neg (by omega), if_neg (by omega), ← hlength, List.take_left, List.drop_left]
  · rintro front ⟨rest, hfront⟩ hless
    change readFrame front = _
    unfold readFrame
    dsimp only
    split
    · rfl
    rename_i htwo
    have hhead : front.take 2 = s.frame.take 2 := by
      rw [← hfront, List.take_append_of_le_length (by omega)]
    rw [hhead, hsize, if_neg (by omega), if_pos (by omega)]

/-- Bytes that arrived and were not read, with the cipher of the direction. -/
inductive Incoming where
  | running (unread : List UInt8) (cipher : ControlCipher)
  | ended (e : Error)

inductive Event where
  | arrive (bytes : List UInt8)
  | read

variable (crypto) in
/-- One read of `receive` without a request: the plain text that is pushed into the decoder. -/
def step : Incoming → Event → Incoming × Option (List UInt8)
  | .ended e, _ => (.ended e, none)
  | .running unread cipher, .arrive bytes => (.running (unread ++ bytes) cipher, none)
  | .running unread cipher, .read =>
    match readFrame unread with
    | .error e => (.ended e, none)
    | .ok none => (.running unread cipher, none)
    | .ok (some (frame, rest)) =>
      match cipher.decrypt crypto frame with
      | (_, .error e) => (.ended e, none)
      | (cipher, .ok plain) => (.running rest cipher, some plain)

/-- The control connection reads this way and pushes what it decrypted. -/
theorem readOn_eq (setting : Setting) (c : Receiver.Connection) {cipher : ControlCipher}
    (h : c.wire.input = some cipher) :
    Receiver.readOn setting c =
      match step setting.crypto (.running c.wire.unread cipher) .read with
      | (.ended e, _) => (.ended (.error e), [])
      | (.running _ _, none) => (.running c, [])
      | (.running unread cipher, some plain) =>
        match ControlDecoder.push c.wire.pending plain with
        | .error e => (.ended (.error e), [.decrypted plain])
        | .ok pending =>
          (.running { c with wire := { c.wire with unread, pending, input := some cipher } },
            [.decrypted plain]) := by
  unfold Receiver.readOn step readFrame
  rw [h]
  dsimp only
  by_cases hhead : c.wire.unread.length < 2
  · rw [if_pos hhead, if_pos hhead]
  rw [if_neg hhead, if_neg hhead]
  by_cases hsize : ofBigEndian (c.wire.unread.take 2).reverse > 16384
  · rw [if_pos hsize, if_pos hsize]
  rw [if_neg hsize, if_neg hsize]
  by_cases hroom : c.wire.unread.length < ofBigEndian (c.wire.unread.take 2).reverse + 18
  · rw [if_pos hroom, if_pos hroom]
  rw [if_neg hroom, if_neg hroom]
  dsimp only
  rcases cipher.decrypt setting.crypto _ with ⟨next, e | plain⟩
  · rfl
  · rfl

/-! ## The whole channel -/

def Event.bytes : Event → List UInt8
  | .arrive bytes => bytes
  | .read => []

/-- Everything that arrived. -/
def arrived (events : List Event) : List UInt8 := (events.map Event.bytes).flatten

/-- The plain texts in the order in which they were recovered. -/
def recovered (history : List (Event × Option (List UInt8))) : List (List UInt8) :=
  history.filterMap (·.2)

/-- The stream of the frames. -/
def stream (sealings : List Sealing) : List UInt8 := (sealings.map Sealing.frame).flatten

theorem stream_append (sealings others : List Sealing) :
    stream (sealings ++ others) = stream sealings ++ stream others := by
  unfold stream
  rw [List.map_append, List.flatten_append]

/-- A reader stands behind the frames that it recovered; it ends only in a stream that is not the
sender's. -/
def Follows (key : List UInt8) (sealings : List Sealing) (state : Incoming) (bytes : List UInt8)
    (plains : List (List UInt8)) : Prop :=
  ∃ k ≤ sealings.length, plains = (sealings.take k).map Sealing.plain ∧
    match state with
    | .running unread cipher =>
      cipher = ⟨key, k, false⟩ ∧ bytes = stream (sealings.take k) ++ unread
    | .ended _ => stream (sealings.take k) <+: bytes ∧ ¬bytes <+: stream sealings

theorem stream_take_drop (sealings : List Sealing) (k : ℕ) :
    stream (sealings.take k) ++ stream (sealings.drop k) = stream sealings := by
  rw [← stream_append, List.take_append_drop]

/-- The reader reads the next frame where its stream is the sender's. -/
theorem Session.read_honest {k : ℕ} {unread more : List UInt8} (h : Session crypto key sealings)
    (hmore : unread ++ more = stream (sealings.drop k)) :
    readFrame unread = .ok none ∨ ∃ s rest, sealings[k]? = some s ∧
      readFrame unread = .ok (some (s.frame, rest)) ∧ unread = s.frame ++ rest := by
  cases hdrop : sealings.drop k with
  | nil =>
    rw [hdrop] at hmore
    obtain ⟨rfl, -⟩ := List.append_eq_nil_iff.mp hmore
    exact .inl rfl
  | cons s later =>
    have hs : sealings[k]? = some s := by
      rw [← List.head?_drop, hdrop]
      rfl
    have hframes := h.frames_of_mem (List.mem_of_getElem? hs)
    rw [hdrop] at hmore
    have hwhole : unread <+: s.frame ++ stream later := ⟨more, hmore⟩
    by_cases hless : unread.length < s.frame.length
    · left
      refine hframes.part unread ?_ hless
      exact List.prefix_of_prefix_length_le hwhole (List.prefix_append _ _) hless.le
    · obtain ⟨rest, rfl⟩ : s.frame <+: unread :=
        List.prefix_of_prefix_length_le (List.prefix_append _ _) hwhole (Nat.le_of_not_lt hless)
      exact .inr ⟨s, rest, hs, hframes.whole rest, rfl⟩

theorem Session.take_succ {k : ℕ} {s : Sealing} (hs : sealings[k]? = some s) :
    sealings.take (k + 1) = sealings.take k ++ [s] := by
  rw [List.take_add_one, hs]
  rfl

/-- One step of the reader, whatever arrives. -/
theorem Session.follows_step {state : Incoming} {bytes : List UInt8} {plains : List (List UInt8)}
    (h : Session crypto key sealings) (hfollows : Follows key sealings state bytes plains)
    (event : Event) :
    Follows key sealings (step crypto state event).1 (bytes ++ event.bytes)
      (plains ++ (step crypto state event).2.toList) := by
  obtain ⟨k, hk, hplains, hstate⟩ := hfollows
  cases state with
  | ended e =>
    refine ⟨k, hk, ?_, ?_⟩
    · rw [step, Option.toList_none, List.append_nil]
      exact hplains
    · exact ⟨hstate.1.trans (List.prefix_append _ _),
        fun hprefix => hstate.2 ((List.prefix_append _ _).trans hprefix)⟩
  | running unread cipher =>
    obtain ⟨rfl, hbytes⟩ := hstate
    cases event with
    | arrive more =>
      refine ⟨k, hk, ?_, rfl, ?_⟩
      · rw [step, Option.toList_none, List.append_nil]
        exact hplains
      · rw [hbytes, List.append_assoc]
        rfl
    | read =>
      rw [show Event.bytes .read = [] from rfl, List.append_nil]
      -- An end of the reader contradicts a stream of the sender.
      have hended : ∀ e, (readFrame unread = .error e ∨ ∃ frame rest next,
          readFrame unread = .ok (some (frame, rest)) ∧
            ControlCipher.decrypt crypto ⟨key, k, false⟩ frame = (next, .error e)) →
          stream (sealings.take k) <+: bytes ∧ ¬bytes <+: stream sealings := by
        intro e hbad
        refine ⟨⟨unread, hbytes.symm⟩, ?_⟩
        rintro ⟨more, hmore⟩
        rw [hbytes, ← stream_take_drop sealings k, List.append_assoc] at hmore
        rcases h.read_honest (List.append_cancel_left hmore) with hnone | ⟨s, rest, hs, hsome, -⟩
        · rcases hbad with hbad | ⟨frame, rest, next, hbad, -⟩
          · rw [hnone] at hbad
            cases hbad
          · rw [hnone] at hbad
            cases hbad
        · rcases hbad with hbad | ⟨frame, rest', next, hbad, hdecrypt⟩
          · rw [hsome] at hbad
            cases hbad
          · rw [hsome] at hbad
            cases hbad
            rw [h.decrypt_next hs] at hdecrypt
            cases hdecrypt
      rcases hread : readFrame unread with e | _ | ⟨frame, rest⟩
      · refine ⟨k, hk, ?_, ?_⟩
        · rw [step, hread, Option.toList_none, List.append_nil]
          exact hplains
        · rw [step, hread]
          exact hended e (.inl hread)
      · refine ⟨k, hk, ?_, ?_⟩
        · rw [step, hread, Option.toList_none, List.append_nil]
          exact hplains
        · rw [step, hread]
          exact ⟨rfl, hbytes⟩
      · obtain ⟨hunread, -⟩ := readFrame_some hread
        by_cases hnext : (sealings[k]?).map Sealing.frame = some frame
        · obtain ⟨s, hs, rfl⟩ := Option.map_eq_some_iff.mp hnext
          obtain ⟨hlt, -⟩ := List.getElem?_eq_some_iff.mp hs
          refine ⟨k + 1, hlt, ?_, ?_⟩
          · rw [step, hread]
            dsimp only
            rw [h.decrypt_next hs, Session.take_succ hs, List.map_append, hplains]
            rfl
          · rw [step, hread]
            dsimp only
            rw [h.decrypt_next hs]
            refine ⟨rfl, ?_⟩
            rw [Session.take_succ hs, stream_append, hbytes, hunread, List.append_assoc]
            simp [stream]
        · have hlength := h.length_le
          obtain ⟨e, next, hdecrypt, -, -⟩ := h.decrypt_other (by omega) hnext
          refine ⟨k, hk, ?_, ?_⟩
          · rw [step, hread]
            dsimp only
            rw [hdecrypt, Option.toList_none, List.append_nil]
            exact hplains
          · rw [step, hread]
            dsimp only
            rw [hdecrypt]
            exact hended e (.inr ⟨frame, rest, next, hread, hdecrypt⟩)

/-- A run of the reader, whatever arrives in whatever portions. -/
theorem Session.follows_run (h : Session crypto key sealings) (events : List Event) :
    Follows key sealings (run (step crypto) (.running [] (.new key)) events).1 (arrived events)
      (recovered (run (step crypto) (.running [] (.new key)) events).2) := by
  induction events using List.reverseRecOn with
  | nil => exact ⟨0, Nat.zero_le _, rfl, rfl, rfl⟩
  | append_singleton events event ih =>
    have hstep := h.follows_step ih event
    rw [run_concat]
    have harrived : arrived (events ++ [event]) = arrived events ++ event.bytes := by
      simp [arrived]
    rw [harrived]
    unfold recovered at hstep ⊢
    rw [List.filterMap_append]
    cases hplain : (step crypto (run (step crypto) (.running [] (.new key)) events).1 event).2 with
    | none =>
      rw [hplain] at hstep
      simpa using hstep
    | some plain =>
      rw [hplain] at hstep
      simpa using hstep

/-- Reads of a stream that has arrived whole recover what is left of it. -/
theorem Session.reads (h : Session crypto key sealings) (n k : ℕ) :
    recovered (run (step crypto) (.running (stream (sealings.drop k)) ⟨key, k, false⟩)
      (List.replicate n .read)).2 = ((sealings.drop k).take n).map Sealing.plain := by
  induction n generalizing k with
  | zero => rfl
  | succ n ih =>
    rw [List.replicate_succ]
    simp only [run]
    cases hs : sealings[k]? with
    | none =>
      have hdrop : sealings.drop k = [] := List.drop_eq_nil_of_le (List.getElem?_eq_none_iff.mp hs)
      have hstep : step crypto (.running (stream (sealings.drop k)) ⟨key, k, false⟩) .read =
          (.running (stream (sealings.drop k)) ⟨key, k, false⟩, none) := by
        rw [hdrop]
        rfl
      have hlater := ih k
      rw [hdrop, List.take_nil] at hlater ⊢
      rw [hdrop] at hstep
      rw [hstep]
      exact hlater
    | some s =>
      obtain ⟨hlt, hget⟩ := List.getElem?_eq_some_iff.mp hs
      have hdrop : sealings.drop k = s :: sealings.drop (k + 1) := by
        rw [List.drop_eq_getElem_cons hlt, hget]
      have hread : readFrame (stream (sealings.drop k)) =
          .ok (some (s.frame, stream (sealings.drop (k + 1)))) := by
        rw [hdrop]
        exact (h.frames_of_mem (List.mem_of_getElem? hs)).whole _
      have hstep : step crypto (.running (stream (sealings.drop k)) ⟨key, k, false⟩) .read =
          (.running (stream (sealings.drop (k + 1))) ⟨key, k + 1, false⟩, some s.plain) := by
        rw [step, hread]
        dsimp only
        rw [h.decrypt_next hs]
      rw [hstep, hdrop, List.take_succ_cons, List.map_cons, ← ih (k + 1)]
      rfl

/-- Once all of the sender's stream has arrived, in whatever portions and with whatever reads
between them, further reads recover all that was sealed. -/
theorem Session.recovers (h : Session crypto key sealings) {events : List Event}
    (hevents : arrived events = stream sealings) :
    recovered (run (step crypto) (.running [] (.new key))
      (events ++ List.replicate sealings.length .read)).2 = sealings.map Sealing.plain := by
  obtain ⟨k, hk, hplains, hstate⟩ := h.follows_run events
  rw [run_append]
  cases hrun : (run (step crypto) (.running [] (.new key)) events).1 with
  | ended e =>
    rw [hrun] at hstate
    exact (hstate.2 (hevents ▸ List.prefix_rfl)).elim
  | running unread cipher =>
    rw [hrun] at hstate
    obtain ⟨rfl, hbytes⟩ := hstate
    rw [hevents, ← stream_take_drop sealings k] at hbytes
    rw [← List.append_cancel_left hbytes]
    have hreads := h.reads sealings.length k
    have hall : (sealings.drop k).take sealings.length = sealings.drop k := by
      apply List.take_of_length_le
      rw [List.length_drop]
      omega
    rw [hall] at hreads
    unfold recovered at hplains hreads ⊢
    rw [List.filterMap_append, hplains, hreads, ← List.map_append, List.take_append_drop]

/-- What is sent is recovered in order however the stream is cut; nothing else ever is. A frame
that is not the next one makes opening fail from there on; no two frames share a nonce; and a
failure does not advance a counter. -/
theorem encrypted_channel (crypto : Crypto) (key : List UInt8) (messages : List (List UInt8))
    (h : Aead crypto key (sendAll crypto (.new key) messages).2.1) :
    (∀ events, arrived events = stream (sendAll crypto (.new key) messages).2.1 →
      (∀ result ∈ (sendAll crypto (.new key) messages).2.2, result = .ok ()) →
      (recovered (run (step crypto) (.running [] (.new key)) (events ++
        List.replicate (sendAll crypto (.new key) messages).2.1.length .read)).2).flatten =
          messages.flatten) ∧
    (∀ events, ∃ k,
      recovered (run (step crypto) (.running [] (.new key)) events).2 =
        ((sendAll crypto (.new key) messages).2.1.take k).map Sealing.plain ∧
      stream ((sendAll crypto (.new key) messages).2.1.take k) <+: arrived events) ∧
    (∀ frames : List (List UInt8),
      (run (ControlCipher.decrypt crypto) (.new key) frames).1.counter =
        agreeing frames ((sendAll crypto (.new key) messages).2.1.map Sealing.frame) ∧
      ∃ errors : List (Except Error (List UInt8)), (∀ r ∈ errors, ∃ e, r = .error e) ∧
        (run (ControlCipher.decrypt crypto) (.new key) frames).2.map (·.2) =
          ((sendAll crypto (.new key) messages).2.1.take (agreeing frames
            ((sendAll crypto (.new key) messages).2.1.map Sealing.frame))).map
              (fun s => .ok s.plain) ++ errors) ∧
    ((sendAll crypto (.new key) messages).2.1.map fun s => sealNonce s.counter).Nodup ∧
    (∀ (cipher : ControlCipher) (plain : List UInt8) (e : Error),
      (cipher.encrypt crypto plain).2 = .error e →
        (cipher.encrypt crypto plain).1.counter = cipher.counter) ∧
    ∀ (cipher : ControlCipher) (frame : List UInt8) (e : Error),
      (cipher.decrypt crypto frame).2 = .error e →
        (cipher.decrypt crypto frame).1.counter = cipher.counter := by
  have hsession := session_of_sendAll h
  refine ⟨?_, ?_, ?_, ?_, ?_, ?_⟩
  · intro events hevents hresults
    rw [hsession.recovers hevents]
    exact sendAll_plain hresults
  · intro events
    obtain ⟨k, -, hplains, hstate⟩ := hsession.follows_run events
    refine ⟨k, hplains, ?_⟩
    cases hrun : (run (step crypto) (.running [] (.new key)) events).1 with
    | ended e =>
      rw [hrun] at hstate
      exact hstate.1
    | running unread cipher =>
      rw [hrun] at hstate
      exact ⟨unread, hstate.2.symm⟩
  · intro frames
    have hrun := hsession.decrypt_run (Nat.zero_le _) frames
    rw [Nat.zero_add] at hrun
    exact hrun
  · exact (sendAll_sent crypto (Nat.zero_le _) messages).nonces_nodup
  · intro cipher plain e he
    exact congrArg ControlCipher.counter (encrypt_error (Prod.ext rfl he))
  · intro cipher frame e he
    obtain ⟨_, next, hdecrypt, hcounter, -⟩ | ⟨plain, hdecrypt, -⟩ :=
      decrypt_cases crypto cipher frame
    · rw [hdecrypt]
      exact hcounter
    · rw [hdecrypt] at he
      cases he

/-- A key with which one frame can be opened. -/
def sampleCrypto : Crypto where
  modulus := 0
  sha512 := .ok
  hmacSha512 _ _ := .error .rejected
  encryptAead _ _ _ plain := .ok (plain, List.replicate 16 0)
  decryptAead key nonce aad bytes tag :=
    if key = [7] ∧ nonce = sealNonce 0 ∧ aad = [3, 0] ∧ bytes = [1, 2, 3] ∧
        tag = List.replicate 16 0 then .ok bytes
    else .error .rejected
  x25519Public := .ok
  x25519Derive _ := .ok
  ed25519Public := .ok
  ed25519Sign _ := .ok
  ed25519Verify _ _ _ := .ok true

def sampleSealing : Sealing := ⟨0, [1, 2, 3], [3, 0, 1, 2, 3] ++ List.replicate 16 0⟩

theorem sendAll_sample :
    sendAll sampleCrypto (.new [7]) [[1, 2, 3]] = (⟨[7], 1, false⟩, [sampleSealing], [.ok ()]) := by
  have hchunks : chunks 16384 ([1, 2, 3] : List UInt8) = [[1, 2, 3]] := by
    rw [chunks, if_neg (by simp), chunks, if_pos (by simp)]
    rfl
  rw [sendAll, hchunks]
  rfl

theorem sampleCrypto_aead :
    Aead sampleCrypto [7] (sendAll sampleCrypto (.new [7]) [[1, 2, 3]]).2.1 := by
  rw [sendAll_sample]
  constructor
  · intro nonce aad plain bytes h
    obtain rfl : plain ++ List.replicate 16 0 = bytes := Except.ok.inj h
    rw [List.length_append, List.length_replicate]
  · intro s hs
    rw [List.mem_singleton.mp hs]
    rfl
  · intro nonce aad bytes plain h
    refine ⟨sampleSealing, List.mem_singleton_self _, ?_⟩
    unfold Crypto.openBytes sampleCrypto at h
    split at h
    · cases h
    · dsimp only at h
      split at h
      · rename_i hsealed
        obtain ⟨-, hnonce, haad, hfront, htag⟩ := hsealed
        refine ⟨hnonce, haad, ?_, ?_⟩
        · rw [← List.take_append_drop (bytes.length - 16) bytes, hfront, htag]
          rfl
        · rw [← Except.ok.inj h, hfront]
          rfl
      · cases h

/-- The stream arrives in two portions that cut the header. -/
theorem encrypted_channel_sample :
    (recovered (run (step sampleCrypto) (.running [] (.new [7]))
      ([.arrive [3], .read, .arrive ([0, 1, 2, 3] ++ List.replicate 16 0)] ++
        List.replicate 1 .read)).2).flatten = [1, 2, 3] := by
  have h := (encrypted_channel sampleCrypto [7] [[1, 2, 3]] sampleCrypto_aead).1
    [.arrive [3], .read, .arrive ([0, 1, 2, 3] ++ List.replicate 16 0)]
  rw [sendAll_sample] at h
  refine h rfl ?_
  intro result hresult
  exact List.mem_singleton.mp hresult

end ProjectArgo.CarPlay.ControlChannel
