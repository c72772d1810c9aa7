import Mathlib.Logic.Function.Basic
import ProjectArgo.Library.Ends
import ProjectArgo.Library.Run
import ProjectArgo.CarPlay.Pairing

/-!
# Exchanges over one store of peers

Calls of any number of pairing exchanges are interleaved over one store. The
stage of every exchange is determined by its own calls: the stages below record
which messages led to it, so a change of the store exhibits all three.
-/
namespace ProjectArgo.CarPlay.Pairing

open Library.Run Library.Fragments
open Library.Ends (bind_eq_ok)

inductive Call where
  | setup (i : ℕ) (entropy : Entropy) (bytes : List UInt8)
  | start (i : ℕ) (entropy : Entropy) (bytes : List UInt8)
  | finish (i : ℕ) (bytes : List UInt8)

inductive Reply where
  | setup (result : Except Error (List UInt8))
  | start (result : Except Error (List UInt8))
  | finish (result : Except Error (List UInt8 × Verified))

structure World where
  setups : ℕ → PairSetup
  verifies : ℕ → PairVerify
  peers : Peers

def World.initial (peers : Peers) : World := ⟨fun _ => .new, fun _ => .new, peers⟩

variable (crypto : Crypto) (identity : Identity)

def step (w : World) : Call → World × Reply
  | .setup i entropy bytes =>
    let (s, peers, result) := (w.setups i).handle crypto entropy bytes identity w.peers
    ({ w with setups := Function.update w.setups i s, peers := peers }, .setup result)
  | .start i entropy bytes =>
    let (v, result) := (w.verifies i).start crypto entropy bytes identity
    ({ w with verifies := Function.update w.verifies i v }, .start result)
  | .finish i bytes =>
    let (v, result) := (w.verifies i).finish crypto bytes w.peers
    ({ w with verifies := Function.update w.verifies i v }, .finish result)

/-! ## What the messages of an exchange carry -/

/-- A first message, answered with the password exchange `srp`. -/
def Asked (m : Entropy × List UInt8) (srp : Srp) : Prop :=
  ∃ fields, Tlv.decode m.2 = .ok fields ∧ fields.field 6 = .ok [1] ∧ fields.field 0 = .ok [0] ∧
    Srp.new crypto m.1 = .ok srp

/-- A third message whose proof `srp` accepts with the session key. -/
def Proved (srp : Srp) (m : Entropy × List UInt8) (key : List UInt8) : Prop :=
  ∃ fields phone proof reply, Tlv.decode m.2 = .ok fields ∧ fields.field 6 = .ok [3] ∧
    fields.field 3 = .ok phone ∧ fields.field 4 = .ok proof ∧
    srp.verify crypto phone proof = .ok (key, reply)

/-- A fifth message that opens under the session key and is signed by the key it carries. -/
def Genuine (secret : List UInt8) (m : Entropy × List UInt8) (identifier phone : List UInt8) :
    Prop :=
  ∃ fields sealed key plain controller proofKey signature, Tlv.decode m.2 = .ok fields ∧
    fields.field 6 = .ok [5] ∧ fields.field 5 = .ok sealed ∧
    crypto.deriveKey secret "Pair-Setup-Encrypt-Salt" "Pair-Setup-Encrypt-Info" = .ok key ∧
    crypto.openBytes key (Crypto.labelNonce "PS-Msg05") [] sealed = .ok plain ∧
    Tlv.decode plain = .ok controller ∧ controller.field 1 = .ok identifier ∧
    controller.field 3 = .ok phone ∧
    crypto.deriveKey secret "Pair-Setup-Controller-Sign-Salt" "Pair-Setup-Controller-Sign-Info" =
      .ok proofKey ∧
    controller.field 10 = .ok signature ∧
    crypto.verify phone (proofKey ++ identifier ++ phone) signature = .ok ()

/-- A start message, answered with fresh ephemeral keys. -/
def Offered (entropy : Entropy) (bytes : List UInt8) (pending : PendingVerify) : Prop :=
  ∃ fields ephemeral, Tlv.decode bytes = .ok fields ∧ fields.field 6 = .ok [1] ∧
    fields.field 3 = .ok pending.theirs ∧ entropy.ephemeral = .ok ephemeral ∧
    crypto.x25519Public ephemeral = .ok pending.ours ∧
    crypto.shared ephemeral pending.theirs = .ok pending.secret ∧
    crypto.deriveKey pending.secret "Pair-Verify-Encrypt-Salt" "Pair-Verify-Encrypt-Info" =
      .ok pending.key

/-- A finish message sealed under the pending key and signed by a registered peer over the two
ephemeral keys. -/
def Signed (pending : PendingVerify) (bytes : List UInt8) (peers : Peers)
    (identifier registered : List UInt8) : Prop :=
  ∃ fields sealed plain controller signature, Tlv.decode bytes = .ok fields ∧
    fields.field 6 = .ok [3] ∧ fields.field 5 = .ok sealed ∧
    crypto.openBytes pending.key (Crypto.labelNonce "PV-Msg03") [] sealed = .ok plain ∧
    Tlv.decode plain = .ok controller ∧ controller.field 1 = .ok identifier ∧
    peers.get identifier = some registered ∧ controller.field 10 = .ok signature ∧
    crypto.verify registered (pending.theirs ++ identifier ++ pending.ours) signature = .ok ()

/-- The control keys of a finished exchange. -/
def Derived (pending : PendingVerify) (verified : Verified) : Prop :=
  verified.secret = pending.secret ∧
    crypto.deriveKey pending.secret "Control-Salt" "Control-Write-Encryption-Key" =
      .ok verified.read ∧
    crypto.deriveKey pending.secret "Control-Salt" "Control-Read-Encryption-Key" =
      .ok verified.write

theorem hello_eq_ok {entropy : Entropy} {bytes response : List UInt8} {fields : Tlv} {srp : Srp}
    (hdecode : Tlv.decode bytes = .ok fields) (hstage : fields.field 6 = .ok [1])
    (h : PairSetup.hello crypto entropy fields = .ok (srp, response)) :
    Asked crypto (entropy, bytes) srp := by
  simp only [PairSetup.hello, bind_eq_ok, ensure_eq_ok] at h
  obtain ⟨method, hmethod, _, hzero, srp', hsrp, response', -, h⟩ := h
  subst hzero
  cases h
  exact ⟨fields, hdecode, hstage, hmethod, hsrp⟩

theorem prove_eq_ok {srp : Srp} {m : Entropy × List UInt8} {fields : Tlv}
    {key reply : List UInt8} (hdecode : Tlv.decode m.2 = .ok fields)
    (hstage : fields.field 6 = .ok [3]) (h : PairSetup.prove crypto srp fields = .ok (key, reply)) :
    Proved crypto srp m key := by
  simp only [PairSetup.prove, bind_eq_ok] at h
  obtain ⟨phone, hphone, proof, hproof, hverify⟩ := h
  exact ⟨fields, phone, proof, reply, hdecode, hstage, hphone, hproof, hverify⟩

theorem exchange_eq_ok {secret : List UInt8} {m : Entropy × List UInt8} {fields : Tlv}
    {identifier phone response : List UInt8} (hdecode : Tlv.decode m.2 = .ok fields)
    (hstage : fields.field 6 = .ok [5])
    (h : PairSetup.exchange crypto identity secret fields = .ok (identifier, phone, response)) :
    Genuine crypto secret m identifier phone := by
  simp only [PairSetup.exchange, PairSetup.controller, bind_eq_ok] at h
  obtain ⟨_, ⟨key, hkey, sealed, hsealed, plain, hplain, controller, hcontroller, identifier', hid,
    phone', hphone, proofKey, hproofKey, signature, hsignature, ⟨⟩, hverify, h⟩, response', -, h'⟩ :=
    h
  cases h
  cases h'
  exact ⟨fields, sealed, key, plain, controller, proofKey, signature, hdecode, hstage, hsealed, hkey,
    hplain, hcontroller, hid, hphone, hproofKey, hsignature, hverify⟩

theorem offer_eq_ok {entropy : Entropy} {bytes response : List UInt8} {pending : PendingVerify}
    (h : PairVerify.offer crypto entropy bytes identity = .ok (pending, response)) :
    Offered crypto entropy bytes pending := by
  simp only [PairVerify.offer, bind_eq_ok, ensure_eq_ok] at h
  obtain ⟨fields, hfields, stage, hstage, _, hone, theirs, htheirs, ephemeral, hephemeral, ours,
    hours, secret, hsecret, key, hkey, signature, -, reply, -, sealed, -, response', -, h⟩ := h
  subst hone
  cases h
  exact ⟨fields, ephemeral, hfields, hstage, htheirs, hephemeral, hours, hsecret, hkey⟩

theorem conclude_eq_ok {pending : PendingVerify} {bytes response : List UInt8} {peers : Peers}
    {verified : Verified}
    (h : PairVerify.conclude crypto pending bytes peers = .ok (response, verified)) :
    (∃ identifier registered, Signed crypto pending bytes peers identifier registered) ∧
      Derived crypto pending verified := by
  simp only [PairVerify.conclude, PairVerify.signer, bind_eq_ok, ensure_eq_ok] at h
  obtain ⟨_, ⟨fields, hfields, stage, hstage, _, hthree, sealed, hsealed, plain, hplain, controller,
    hcontroller, identifier, hid, registered, hregistered, signature, hsignature, ⟨⟩, hverify, -⟩,
    read, hread, write, hwrite, response', -, h⟩ := h
  subst hthree
  cases h
  refine ⟨⟨identifier, registered, fields, sealed, plain, controller, signature, hfields, hstage,
    hsealed, hplain, hcontroller, hid, ?_, hsignature, hverify⟩, rfl, hread, hwrite⟩
  cases hget : peers.get identifier with
  | none =>
    rw [hget] at hregistered
    exact nomatch hregistered
  | some key =>
    rw [hget] at hregistered
    cases hregistered
    rfl

/-! ## One call -/

/-- Everything a call of a password exchange can do. -/
inductive Handled (s : PairSetup) (peers : Peers) (m : Entropy × List UInt8) :
    PairSetup × Peers × Except Error (List UInt8) → Prop where
  | refused (e : Error) : Handled s peers m (⟨none, none, 255⟩, peers, .error e)
  | asked (srp : Srp) (response : List UInt8) (hstep : s.step = 0) (hasked : Asked crypto m srp) :
      Handled s peers m (⟨some srp, s.key, 2⟩, peers, .ok response)
  | proved (srp : Srp) (key response : List UInt8) (hstep : s.step = 2) (hsrp : s.srp = some srp)
      (hproved : Proved crypto srp m key) :
      Handled s peers m (⟨none, some key, 4⟩, peers, .ok response)
  | registered (secret identifier phone response : List UInt8) (peers' : Peers) (hstep : s.step = 4)
      (hkey : s.key = some secret) (hgenuine : Genuine crypto secret m identifier phone)
      (hregister : peers.register identifier phone = (peers', .ok ())) :
      Handled s peers m (⟨s.srp, none, 6⟩, peers', .ok response)

/-- `advance` stops with the store unchanged, or has succeeded in one of three ways. -/
theorem advance_cases (s : PairSetup) (peers : Peers) (m : Entropy × List UInt8) :
    (∃ s' e, s.advance crypto m.1 m.2 identity peers = (s', peers, .error e)) ∨
      Handled crypto s peers m (s.advance crypto m.1 m.2 identity peers) := by
  unfold PairSetup.advance
  cases hdecode : Tlv.decode m.2 with
  | error e => exact Or.inl ⟨s, e, rfl⟩
  | ok fields =>
    cases hstage : fields.field 6 with
    | error e =>
      refine Or.inl ⟨s, e, ?_⟩
      simp only [bind, Except.bind, hstage]
    | ok stage =>
      simp only [bind, Except.bind, hstage]
      split_ifs with hone hthree hfive
      · obtain ⟨hstep, rfl⟩ := hone
        cases hhello : PairSetup.hello crypto m.1 fields with
        | error e => exact Or.inl ⟨s, e, rfl⟩
        | ok next =>
          exact Or.inr (.asked next.1 next.2 hstep (hello_eq_ok crypto hdecode hstage hhello))
      · obtain ⟨hstep, rfl⟩ := hthree
        cases hsrp : s.srp with
        | none => exact Or.inl ⟨s, .state, rfl⟩
        | some srp =>
          dsimp only
          cases hprove : PairSetup.prove crypto srp fields with
          | error e => exact Or.inl ⟨_, e, rfl⟩
          | ok next =>
            dsimp only
            cases hencode : Tlv.encode [(6, [4]), (4, next.2)] with
            | error e => exact Or.inl ⟨_, e, rfl⟩
            | ok response =>
              exact Or.inr (.proved srp next.1 response hstep hsrp
                (prove_eq_ok crypto hdecode hstage hprove))
      · obtain ⟨hstep, rfl⟩ := hfive
        cases hkey : s.key with
        | none => exact Or.inl ⟨s, .state, rfl⟩
        | some secret =>
          dsimp only
          cases hexchange : PairSetup.exchange crypto identity secret fields with
          | error e => exact Or.inl ⟨_, e, rfl⟩
          | ok next =>
            obtain ⟨identifier, phone, response⟩ := next
            dsimp only
            have hgenuine := exchange_eq_ok crypto identity hdecode hstage hexchange
            rcases hregister : peers.register identifier phone with ⟨peers', e | u⟩
            · have hpeers := Peers.register_error hregister
              subst hpeers
              exact Or.inl ⟨_, e, rfl⟩
            · exact Or.inr (.registered secret identifier phone response peers' hstep hkey hgenuine
                hregister)
      · exact Or.inl ⟨s, .state, rfl⟩

theorem handle_cases (s : PairSetup) (peers : Peers) (m : Entropy × List UInt8) :
    Handled crypto s peers m (s.handle crypto m.1 m.2 identity peers) := by
  unfold PairSetup.handle
  rcases advance_cases crypto identity s peers m with ⟨s', e, hadvance⟩ | hadvance
  · rw [hadvance]
    exact .refused e
  · revert hadvance
    generalize s.advance crypto m.1 m.2 identity peers = result
    intro hadvance
    cases hadvance with
    | refused e => exact .refused e
    | asked srp response hstep hasked => exact .asked srp response hstep hasked
    | proved srp key response hstep hsrp hproved => exact .proved srp key response hstep hsrp hproved
    | registered secret identifier phone response peers' hstep hkey hgenuine hregister =>
      exact .registered secret identifier phone response peers' hstep hkey hgenuine hregister

/-! ## The stage of every exchange -/

/-- The messages given to one password exchange. -/
def setupCalls (i : ℕ) (history : List (Call × Reply)) : List (Entropy × List UInt8) :=
  history.filterMap fun
    | (.setup j entropy bytes, _) => if j = i then some (entropy, bytes) else none
    | _ => none

/-- The calls made on one registration proof: a start, or a finish. -/
def verifyCalls (i : ℕ) (history : List (Call × Reply)) :
    List (Option Entropy × List UInt8) :=
  history.filterMap fun
    | (.start j entropy bytes, _) => if j = i then some (some entropy, bytes) else none
    | (.finish j bytes, _) => if j = i then some (none, bytes) else none
    | _ => none

/-- The stages of a password exchange after the given messages. -/
inductive SetupStage : PairSetup → List (Entropy × List UInt8) → Prop where
  | fresh : SetupStage .new []
  | asked (m : Entropy × List UInt8) (srp : Srp) (hasked : Asked crypto m srp) :
      SetupStage ⟨some srp, none, 2⟩ [m]
  | proved (m m' : Entropy × List UInt8) (srp : Srp) (key : List UInt8)
      (hasked : Asked crypto m srp) (hproved : Proved crypto srp m' key) :
      SetupStage ⟨none, some key, 4⟩ [m, m']
  | done (calls : List (Entropy × List UInt8)) : SetupStage ⟨none, none, 6⟩ calls
  | failed (calls : List (Entropy × List UInt8)) : SetupStage ⟨none, none, 255⟩ calls

/-- The stages of a proof of registration after the given calls. -/
inductive VerifyStage : PairVerify → List (Option Entropy × List UInt8) → Prop where
  | fresh (calls : List (Option Entropy × List UInt8)) (hnone : ∀ call ∈ calls, call.1 = none) :
      VerifyStage .new calls
  | pending (before after : List (Option Entropy × List UInt8)) (entropy : Entropy)
      (bytes : List UInt8) (p : PendingVerify) (hbefore : ∀ call ∈ before, call.1 = none)
      (hafter : ∀ call ∈ after, call.1 ≠ none) (hoffered : Offered crypto entropy bytes p) :
      VerifyStage ⟨some p, true⟩ (before ++ (some entropy, bytes) :: after)
  | spent (calls : List (Option Entropy × List UInt8)) : VerifyStage ⟨none, true⟩ calls

structure Staged (w : World) (history : List (Call × Reply)) : Prop where
  setups : ∀ i, SetupStage crypto (w.setups i) (setupCalls i history)
  verifies : ∀ i, VerifyStage crypto (w.verifies i) (verifyCalls i history)

theorem handle_stage {s : PairSetup} {calls : List (Entropy × List UInt8)} (peers : Peers)
    (m : Entropy × List UInt8) (h : SetupStage crypto s calls) :
    SetupStage crypto (s.handle crypto m.1 m.2 identity peers).1 (calls ++ [m]) := by
  have hhandled := handle_cases crypto identity s peers m
  revert hhandled
  generalize s.handle crypto m.1 m.2 identity peers = result
  intro hhandled
  cases hhandled with
  | refused e => exact .failed _
  | asked srp response hstep hasked =>
    cases h with
    | fresh => exact .asked m srp hasked
    | asked m' srp' hasked' => exact absurd hstep (by simp)
    | proved m' m'' srp' key hasked' hproved => exact absurd hstep (by simp)
    | done calls => exact absurd hstep (by simp)
    | failed calls => exact absurd hstep (by simp)
  | proved srp key response hstep hsrp hproved =>
    cases h with
    | fresh => exact absurd hstep (by decide)
    | asked m' srp' hasked' =>
      cases hsrp
      exact .proved m' m srp key hasked' hproved
    | proved m' m'' srp' key' hasked' hproved' => exact absurd hstep (by simp)
    | done calls => exact absurd hstep (by simp)
    | failed calls => exact absurd hstep (by simp)
  | registered secret identifier phone response peers' hstep hkey hgenuine hregister =>
    cases h with
    | fresh => exact absurd hstep (by decide)
    | asked m' srp' hasked' => exact absurd hstep (by simp)
    | proved m' m'' srp' key' hasked' hproved' => exact .done _
    | done calls => exact absurd hstep (by simp)
    | failed calls => exact absurd hstep (by simp)

theorem start_stage {v : PairVerify} {calls : List (Option Entropy × List UInt8)}
    (entropy : Entropy) (bytes : List UInt8) (h : VerifyStage crypto v calls) :
    VerifyStage crypto (v.start crypto entropy bytes identity).1
      (calls ++ [(some entropy, bytes)]) := by
  unfold PairVerify.start
  cases h with
  | fresh calls hnone =>
    rw [if_neg (by exact Bool.false_ne_true)]
    cases hoffer : PairVerify.offer crypto entropy bytes identity with
    | error e => exact .spent _
    | ok next =>
      exact .pending calls [] entropy bytes next.1 hnone (by simp)
        (offer_eq_ok crypto identity hoffer)
  | pending before after entropy' bytes' p hbefore hafter hoffered =>
    rw [if_pos rfl, List.append_assoc, List.cons_append]
    refine .pending before _ entropy' bytes' p hbefore ?_ hoffered
    intro call hcall
    rcases List.mem_append.mp hcall with hcall | hcall
    · exact hafter call hcall
    · rw [List.mem_singleton.mp hcall]
      exact Option.some_ne_none entropy
  | spent calls =>
    rw [if_pos rfl]
    exact .spent _

theorem finish_stage {v : PairVerify} {calls : List (Option Entropy × List UInt8)}
    (peers : Peers) (bytes : List UInt8) (h : VerifyStage crypto v calls) :
    VerifyStage crypto (v.finish crypto bytes peers).1 (calls ++ [(none, bytes)]) := by
  unfold PairVerify.finish
  cases h with
  | fresh calls hnone =>
    refine .fresh _ ?_
    intro call hcall
    rcases List.mem_append.mp hcall with hcall | hcall
    · exact hnone call hcall
    · rw [List.mem_singleton.mp hcall]
  | pending before after entropy' bytes' p hbefore hafter hoffered => exact .spent _
  | spent calls => exact .spent _

theorem step_staged (w : World) (history : List (Call × Reply)) (call : Call)
    (h : Staged crypto w history) :
    Staged crypto (step crypto identity w call).1
      (history ++ [(call, (step crypto identity w call).2)]) := by
  cases call with
  | setup i entropy bytes =>
    refine ⟨?_, ?_⟩
    · intro j
      by_cases hj : j = i
      · subst hj
        have hnext := handle_stage crypto identity w.peers (entropy, bytes) (h.setups j)
        simpa [step, setupCalls] using hnext
      · simpa [step, setupCalls, hj, Ne.symm hj] using h.setups j
    · intro j
      simpa [step, verifyCalls] using h.verifies j
  | start i entropy bytes =>
    refine ⟨?_, ?_⟩
    · intro j
      simpa [step, setupCalls] using h.setups j
    · intro j
      by_cases hj : j = i
      · subst hj
        have hnext := start_stage crypto identity entropy bytes (h.verifies j)
        simpa [step, verifyCalls] using hnext
      · simpa [step, verifyCalls, hj, Ne.symm hj] using h.verifies j
  | finish i bytes =>
    refine ⟨?_, ?_⟩
    · intro j
      simpa [step, setupCalls] using h.setups j
    · intro j
      by_cases hj : j = i
      · subst hj
        have hnext := finish_stage crypto w.peers bytes (h.verifies j)
        simpa [step, verifyCalls] using hnext
      · simpa [step, verifyCalls, hj, Ne.symm hj] using h.verifies j

theorem run_staged (peers : Peers) (calls : List Call) :
    Staged crypto (run (step crypto identity) (.initial peers) calls).1
      (run (step crypto identity) (.initial peers) calls).2 := by
  apply run_history (step crypto identity)
  · exact ⟨fun _ => .fresh, fun _ => .fresh [] (by simp)⟩
  · exact step_staged crypto identity

/-! ## Ended exchanges -/

/-- A password exchange that has registered its phone or failed. -/
def SetupEnded (s : PairSetup) : Prop :=
  s = ⟨none, none, 6⟩ ∨ s = ⟨none, none, 255⟩

theorem handle_ended {s : PairSetup} (h : SetupEnded s) (peers : Peers)
    (m : Entropy × List UInt8) :
    ∃ e, s.handle crypto m.1 m.2 identity peers = (⟨none, none, 255⟩, peers, .error e) := by
  have hhandled := handle_cases crypto identity s peers m
  revert hhandled
  generalize s.handle crypto m.1 m.2 identity peers = result
  intro hhandled
  cases hhandled with
  | refused e => exact ⟨e, rfl⟩
  | asked srp response hstep hasked =>
    rcases h with rfl | rfl
    · exact absurd hstep (by decide)
    · exact absurd hstep (by decide)
  | proved srp key response hstep hsrp hproved =>
    rcases h with rfl | rfl
    · exact absurd hstep (by decide)
    · exact absurd hstep (by decide)
  | registered secret identifier phone response peers' hstep hkey hgenuine hregister =>
    rcases h with rfl | rfl
    · exact absurd hstep (by decide)
    · exact absurd hstep (by decide)

/-- The end of a password exchange survives every call on any exchange. -/
theorem step_setup_ended {w : World} {i : ℕ} (h : SetupEnded (w.setups i)) (call : Call) :
    SetupEnded ((step crypto identity w call).1.setups i) := by
  cases call with
  | setup j entropy bytes =>
    by_cases hj : i = j
    · subst hj
      obtain ⟨e, hhandle⟩ := handle_ended crypto identity h w.peers (entropy, bytes)
      simp only at hhandle
      right
      simp [step, hhandle]
    · simpa [step, hj] using h
  | start j entropy bytes => exact h
  | finish j bytes => exact h

theorem run_setup_ended {w : World} {i : ℕ} (h : SetupEnded (w.setups i)) (calls : List Call) :
    SetupEnded ((run (step crypto identity) w calls).1.setups i) :=
  run_invariant (step crypto identity) (I := fun w => SetupEnded (w.setups i)) h
    (fun _ call hw => step_setup_ended crypto identity hw call) calls

/-- A proof of registration whose only start and finish have been used up. -/
def VerifySpent (v : PairVerify) : Prop := v = ⟨none, true⟩

theorem start_spent {v : PairVerify} (h : VerifySpent v) (entropy : Entropy) (bytes : List UInt8) :
    v.start crypto entropy bytes identity = (v, .error .state) := by
  subst h
  rfl

theorem finish_spent {v : PairVerify} (h : VerifySpent v) (bytes : List UInt8) (peers : Peers) :
    v.finish crypto bytes peers = (v, .error .state) := by
  subst h
  rfl

theorem step_verify_spent {w : World} {i : ℕ} (h : VerifySpent (w.verifies i)) (call : Call) :
    VerifySpent ((step crypto identity w call).1.verifies i) := by
  cases call with
  | setup j entropy bytes => exact h
  | start j entropy bytes =>
    by_cases hj : i = j
    · subst hj
      simpa [step, start_spent crypto identity h] using h
    · simpa [step, hj] using h
  | finish j bytes =>
    by_cases hj : i = j
    · subst hj
      simpa [step, finish_spent crypto h] using h
    · simpa [step, hj] using h

theorem run_verify_spent {w : World} {i : ℕ} (h : VerifySpent (w.verifies i))
    (calls : List Call) : VerifySpent ((run (step crypto identity) w calls).1.verifies i) :=
  run_invariant (step crypto identity) (I := fun w => VerifySpent (w.verifies i)) h
    (fun _ call hw => step_verify_spent crypto identity hw call) calls

/-! ## The contract of pairing -/

/-- Exchange `i` is over: whatever is called from here on, its calls fail and leave the store as
it is. -/
def SetupTerminal (w : World) (i : ℕ) : Prop :=
  ∀ calls entropy bytes, let w' := (run (step crypto identity) w calls).1
    ∃ e, (step crypto identity w' (.setup i entropy bytes)).2 = .setup (.error e) ∧
      (step crypto identity w' (.setup i entropy bytes)).1.peers = w'.peers

/-- Proof `i` is over: whatever is called from here on, its calls fail. -/
def VerifyTerminal (w : World) (i : ℕ) : Prop :=
  ∀ calls, let w' := (run (step crypto identity) w calls).1
    (∀ entropy bytes,
      ∃ e, (step crypto identity w' (.start i entropy bytes)).2 = .start (.error e)) ∧
    ∀ bytes, ∃ e, (step crypto identity w' (.finish i bytes)).2 = .finish (.error e)

/-- A call of a registration proof that is out of order: a start after a start, or a finish with
nothing pending. -/
def OutOfOrder (w : World) : Call → Prop
  | .start i _ _ => (w.verifies i).used = true
  | .finish i _ => (w.verifies i).pending = none
  | .setup _ _ _ => False

/-- What holds after every run of calls. -/
structure Contract (w : World) (history : List (Call × Reply)) : Prop where
  registered : ∀ call, (step crypto identity w call).1.peers ≠ w.peers →
    ∃ i m m' m'' srp key identifier phone, call = .setup i m''.1 m''.2 ∧
      setupCalls i history = [m, m'] ∧ Asked crypto m srp ∧ Proved crypto srp m' key ∧
      Genuine crypto key m'' identifier phone ∧
      w.peers.register identifier phone = ((step crypto identity w call).1.peers, .ok ()) ∧
      SetupTerminal crypto identity (step crypto identity w call).1 i
  setupError : ∀ i entropy bytes e,
    (step crypto identity w (.setup i entropy bytes)).2 = .setup (.error e) →
    (step crypto identity w (.setup i entropy bytes)).1.peers = w.peers ∧
      SetupTerminal crypto identity (step crypto identity w (.setup i entropy bytes)).1 i
  full : ∀ i m key identifier phone, (w.setups i).step = 4 → (w.setups i).key = some key →
    Genuine crypto key m identifier phone → w.peers.keys.entries.length = 16 →
    w.peers.get identifier = none →
    ∃ e, (step crypto identity w (.setup i m.1 m.2)).2 = .setup (.error e)
  finished : ∀ i bytes response verified,
    (step crypto identity w (.finish i bytes)).2 = .finish (.ok (response, verified)) →
    ∃ before after entropy start pending identifier registered,
      verifyCalls i history = before ++ (some entropy, start) :: after ∧
      (∀ call ∈ before, call.1 = none) ∧ (∀ call ∈ after, call.1 ≠ none) ∧
      Offered crypto entropy start pending ∧
      Signed crypto pending bytes w.peers identifier registered ∧
      Derived crypto pending verified ∧
      VerifyTerminal crypto identity (step crypto identity w (.finish i bytes)).1 i
  startError : ∀ i entropy bytes e,
    (step crypto identity w (.start i entropy bytes)).2 = .start (.error e) →
    (OutOfOrder w (.start i entropy bytes) ∧
        (step crypto identity w (.start i entropy bytes)).1 = w) ∨
      VerifyTerminal crypto identity (step crypto identity w (.start i entropy bytes)).1 i
  finishError : ∀ i bytes e, (step crypto identity w (.finish i bytes)).2 = .finish (.error e) →
    (OutOfOrder w (.finish i bytes) ∧ (step crypto identity w (.finish i bytes)).1 = w) ∨
      VerifyTerminal crypto identity (step crypto identity w (.finish i bytes)).1 i

theorem setup_terminal {w : World} {i : ℕ} (h : SetupEnded (w.setups i)) :
    SetupTerminal crypto identity w i := by
  intro calls entropy bytes w'
  obtain ⟨e, hhandle⟩ := handle_ended crypto identity
    (run_setup_ended crypto identity h calls) w'.peers (entropy, bytes)
  simp only at hhandle
  refine ⟨e, ?_, ?_⟩
  · simp [step, w', hhandle]
  · simp [step, w', hhandle]

theorem verify_terminal {w : World} {i : ℕ} (h : VerifySpent (w.verifies i)) :
    VerifyTerminal crypto identity w i := by
  intro calls w'
  have hspent : VerifySpent (w'.verifies i) := run_verify_spent crypto identity h calls
  refine ⟨?_, ?_⟩
  · intro entropy bytes
    exact ⟨.state, by simp [step, start_spent crypto identity hspent]⟩
  · intro bytes
    exact ⟨.state, by simp [step, finish_spent crypto hspent]⟩

theorem Genuine.unique {secret : List UInt8} {m : Entropy × List UInt8}
    {identifier identifier' phone phone' : List UInt8}
    (h : Genuine crypto secret m identifier phone)
    (h' : Genuine crypto secret m identifier' phone') : identifier = identifier' := by
  obtain ⟨fields, sealed, key, plain, controller, -, -, hdecode, -, hsealed, hkey, hplain,
    hcontroller, hid, -⟩ := h
  obtain ⟨fields', sealed', key', plain', controller', -, -, hdecode', -, hsealed', hkey', hplain',
    hcontroller', hid', -⟩ := h'
  cases hdecode.symm.trans hdecode'
  cases hsealed.symm.trans hsealed'
  cases hkey.symm.trans hkey'
  cases hplain.symm.trans hplain'
  cases hcontroller.symm.trans hcontroller'
  cases hid.symm.trans hid'
  rfl

theorem step_setup (w : World) (i : ℕ) (m : Entropy × List UInt8)
    {s : PairSetup} {peers : Peers} {result : Except Error (List UInt8)}
    (h : (w.setups i).handle crypto m.1 m.2 identity w.peers = (s, peers, result)) :
    step crypto identity w (.setup i m.1 m.2) =
      ({ w with setups := Function.update w.setups i s, peers := peers }, .setup result) := by
  simp [step, h]

theorem registered_contract {w : World} {history : List (Call × Reply)}
    (h : Staged crypto w history) (call : Call)
    (hchange : (step crypto identity w call).1.peers ≠ w.peers) :
    ∃ i m m' m'' srp key identifier phone, call = .setup i m''.1 m''.2 ∧
      setupCalls i history = [m, m'] ∧ Asked crypto m srp ∧ Proved crypto srp m' key ∧
      Genuine crypto key m'' identifier phone ∧
      w.peers.register identifier phone = ((step crypto identity w call).1.peers, .ok ()) ∧
      SetupTerminal crypto identity (step crypto identity w call).1 i := by
  cases call with
  | start i entropy bytes => exact absurd rfl hchange
  | finish i bytes => exact absurd rfl hchange
  | setup i entropy bytes =>
    have hhandled := handle_cases crypto identity (w.setups i) w.peers (entropy, bytes)
    rcases hresult : (w.setups i).handle crypto entropy bytes identity w.peers with ⟨s, peers, r⟩
    simp only [hresult] at hhandled
    rw [step_setup crypto identity w i (entropy, bytes) hresult] at hchange ⊢
    cases hhandled with
    | refused e => exact absurd rfl hchange
    | asked srp response hstep hasked => exact absurd rfl hchange
    | proved srp key response hstep hsrp hproved => exact absurd rfl hchange
    | registered secret identifier phone response _ hstep hkey hgenuine hregister =>
      have hstage := h.setups i
      generalize hs : w.setups i = before at hstage hstep hkey hresult
      generalize hcalls : setupCalls i history = calls at hstage
      cases hstage with
      | fresh => exact absurd hstep (by decide)
      | asked m srp hasked => exact absurd hstep (by simp)
      | done calls => exact absurd hstep (by simp)
      | failed calls => exact absurd hstep (by simp)
      | proved m m' srp key hasked hproved =>
        cases hkey
        refine ⟨i, m, m', (entropy, bytes), srp, secret, identifier, phone, rfl, hcalls, hasked, hproved,
          hgenuine, hregister, ?_⟩
        apply setup_terminal
        left
        simp [hs]

theorem setup_error_contract {w : World} (i : ℕ) (entropy : Entropy) (bytes : List UInt8)
    {e : Error} (he : (step crypto identity w (.setup i entropy bytes)).2 = .setup (.error e)) :
    (step crypto identity w (.setup i entropy bytes)).1.peers = w.peers ∧
      SetupTerminal crypto identity (step crypto identity w (.setup i entropy bytes)).1 i := by
  have hhandled := handle_cases crypto identity (w.setups i) w.peers (entropy, bytes)
  rcases hresult : (w.setups i).handle crypto entropy bytes identity w.peers with ⟨s, peers, r⟩
  simp only [hresult] at hhandled
  rw [step_setup crypto identity w i (entropy, bytes) hresult] at he ⊢
  cases hhandled with
  | refused e' =>
    refine ⟨rfl, ?_⟩
    apply setup_terminal
    right
    simp
  | asked srp response hstep hasked => exact nomatch he
  | proved srp key response hstep hsrp hproved => exact nomatch he
  | registered secret identifier phone response _ hstep hkey hgenuine hregister => exact nomatch he

/-- A genuine fifth message from a new phone fails while the store is full. -/
theorem full_contract {w : World} (i : ℕ) (m : Entropy × List UInt8)
    {key identifier phone : List UInt8} (hstep : (w.setups i).step = 4)
    (hkey : (w.setups i).key = some key) (hgenuine : Genuine crypto key m identifier phone)
    (hfull : w.peers.keys.entries.length = 16) (hnew : w.peers.get identifier = none) :
    ∃ e, (step crypto identity w (.setup i m.1 m.2)).2 = .setup (.error e) := by
  have hhandled := handle_cases crypto identity (w.setups i) w.peers m
  rcases hresult : (w.setups i).handle crypto m.1 m.2 identity w.peers with ⟨s, peers, r⟩
  rw [hresult] at hhandled
  rw [step_setup crypto identity w i m hresult]
  cases hhandled with
  | refused e => exact ⟨e, rfl⟩
  | asked srp response hstep' hasked =>
    rw [hstep] at hstep'
    exact absurd hstep' (by decide)
  | proved srp key response hstep' hsrp hproved =>
    rw [hstep] at hstep'
    exact absurd hstep' (by decide)
  | registered secret identifier' phone' response _ hstep' hkey' hgenuine' hregister =>
    cases hkey.symm.trans hkey'
    have hsame := hgenuine.unique crypto hgenuine'
    subst hsame
    rw [Peers.register_full phone' hfull hnew] at hregister
    exact nomatch (Prod.mk.inj hregister).2

theorem finished_contract {w : World} {history : List (Call × Reply)}
    (h : Staged crypto w history) (i : ℕ) (bytes : List UInt8) {response : List UInt8}
    {verified : Verified}
    (hok : (step crypto identity w (.finish i bytes)).2 = .finish (.ok (response, verified))) :
    ∃ before after entropy start pending identifier registered,
      verifyCalls i history = before ++ (some entropy, start) :: after ∧
      (∀ call ∈ before, call.1 = none) ∧ (∀ call ∈ after, call.1 ≠ none) ∧
      Offered crypto entropy start pending ∧
      Signed crypto pending bytes w.peers identifier registered ∧
      Derived crypto pending verified ∧
      VerifyTerminal crypto identity (step crypto identity w (.finish i bytes)).1 i := by
  have hstage := h.verifies i
  simp only [step, PairVerify.finish] at hok ⊢
  generalize w.verifies i = v at hstage hok ⊢
  generalize verifyCalls i history = calls at hstage ⊢
  cases hstage with
  | fresh calls hnone => exact nomatch hok
  | spent calls => exact nomatch hok
  | pending before after entropy start p hbefore hafter hoffered =>
    dsimp only at hok
    obtain ⟨⟨identifier, registered, hsigned⟩, hderived⟩ :=
      conclude_eq_ok crypto (Reply.finish.inj hok)
    refine ⟨before, after, entropy, start, p, identifier, registered, rfl, hbefore, hafter, hoffered,
      hsigned, hderived, ?_⟩
    apply verify_terminal
    simp [VerifySpent]

theorem start_error_contract {w : World} {history : List (Call × Reply)}
    (h : Staged crypto w history) (i : ℕ) (entropy : Entropy) (bytes : List UInt8) {e : Error}
    (he : (step crypto identity w (.start i entropy bytes)).2 = .start (.error e)) :
    (OutOfOrder w (.start i entropy bytes) ∧
        (step crypto identity w (.start i entropy bytes)).1 = w) ∨
      VerifyTerminal crypto identity (step crypto identity w (.start i entropy bytes)).1 i := by
  by_cases hused : (w.verifies i).used = true
  · left
    refine ⟨hused, ?_⟩
    simp [step, PairVerify.start, hused]
  · right
    apply verify_terminal
    have hstage := h.verifies i
    simp only [step, PairVerify.start] at he ⊢
    generalize w.verifies i = v at hstage hused he ⊢
    generalize verifyCalls i history = calls at hstage
    cases hstage with
    | pending before after entropy start p hbefore hafter hoffered => exact absurd rfl hused
    | spent calls => exact absurd rfl hused
    | fresh calls hnone =>
      rw [if_neg hused] at he ⊢
      cases hoffer : PairVerify.offer crypto entropy bytes identity with
      | error e' => simp [VerifySpent, PairVerify.new]
      | ok next =>
        rw [hoffer] at he
        exact nomatch he

theorem finish_error_contract {w : World} {history : List (Call × Reply)}
    (h : Staged crypto w history) (i : ℕ) (bytes : List UInt8) :
    (OutOfOrder w (.finish i bytes) ∧ (step crypto identity w (.finish i bytes)).1 = w) ∨
      VerifyTerminal crypto identity (step crypto identity w (.finish i bytes)).1 i := by
  have hstage := h.verifies i
  cases hpending : (w.verifies i).pending with
  | none =>
    left
    refine ⟨hpending, ?_⟩
    simp [step, PairVerify.finish, hpending]
  | some p =>
    right
    apply verify_terminal
    simp only [step, PairVerify.finish]
    generalize w.verifies i = v at hstage hpending ⊢
    generalize verifyCalls i history = calls at hstage
    cases hstage with
    | fresh calls hnone => exact nomatch hpending
    | spent calls => exact nomatch hpending
    | pending before after entropy start p' hbefore hafter hoffered => simp [VerifySpent]

/-- After any run of calls, on any exchanges in any order: the store changes only through the three
messages of one exchange and once for each, errors end a password exchange, and a proof finishes
once, for a registered peer, with the keys of its own start. -/
theorem pairing_contract (peers : Peers) (calls : List Call) :
    Contract crypto identity (run (step crypto identity) (.initial peers) calls).1
      (run (step crypto identity) (.initial peers) calls).2 := by
  have hstaged := run_staged crypto identity peers calls
  refine ⟨?_, ?_, ?_, ?_, ?_, ?_⟩
  · intro call hchange
    exact registered_contract crypto identity hstaged call hchange
  · intro i entropy bytes e he
    exact setup_error_contract crypto identity i entropy bytes he
  · intro i m key identifier phone hstep hkey hgenuine hfull hnew
    exact full_contract crypto identity i m hstep hkey hgenuine hfull hnew
  · intro i bytes response verified hok
    exact finished_contract crypto identity hstaged i bytes hok
  · intro i entropy bytes e he
    exact start_error_contract crypto identity hstaged i entropy bytes he
  · intro i bytes e _
    exact finish_error_contract crypto identity hstaged i bytes

/-- Primitives that always succeed, with fixed outputs of the right sizes. -/
def fixedCrypto : Crypto where
  modulus := 23
  sha512 := fun _ => .ok (List.replicate 64 1)
  hmacSha512 := fun _ _ => .ok (List.replicate 64 1)
  encryptAead := fun _ _ _ plain => .ok (plain, List.replicate 16 0)
  decryptAead := fun _ _ _ sealed _ => .ok sealed
  x25519Public := fun _ => .ok (List.replicate 32 2)
  x25519Derive := fun _ _ => .ok (List.replicate 32 1)
  ed25519Public := fun _ => .ok (List.replicate 32 3)
  ed25519Sign := fun _ _ => .ok (List.replicate 64 4)
  ed25519Verify := fun _ _ _ => .ok true

/-- A start message that carries a phone's ephemeral key. -/
def startBytes : List UInt8 := [6, 1, 1, 3, 32] ++ List.replicate 32 9

def fixedEntropy : Entropy := ⟨.ok [1], .ok [1], .ok [1]⟩

/-- A finish before the start is an error, and the start still succeeds after it. -/
theorem early_finish_not_terminal :
    ¬∀ crypto identity peers calls i bytes e,
      (step crypto identity (run (step crypto identity) (.initial peers) calls).1
        (.finish i bytes)).2 = .finish (.error e) →
      VerifyTerminal crypto identity (step crypto identity
        (run (step crypto identity) (.initial peers) calls).1 (.finish i bytes)).1 i := by
  intro h
  obtain ⟨hstart, -⟩ := h fixedCrypto ⟨[65], [7]⟩ .empty [] 0 [] .state rfl []
  obtain ⟨e, he⟩ := hstart fixedEntropy startBytes
  have hoffer : ∃ next,
      PairVerify.offer fixedCrypto fixedEntropy startBytes ⟨[65], [7]⟩ = .ok next := by
    have hoffered :
        (PairVerify.offer fixedCrypto fixedEntropy startBytes ⟨[65], [7]⟩).isOk = true := by
      decide +kernel
    cases hoffer : PairVerify.offer fixedCrypto fixedEntropy startBytes ⟨[65], [7]⟩ with
    | ok next => exact ⟨next, rfl⟩
    | error e =>
      rw [hoffer] at hoffered
      cases hoffered
  obtain ⟨next, hoffer⟩ := hoffer
  have hok : (step fixedCrypto ⟨[65], [7]⟩ (.initial .empty) (.start 0 fixedEntropy startBytes)).2 =
      .start (.ok next.2) := by
    simp only [step, PairVerify.start, World.initial, PairVerify.new, hoffer]
    rfl
  cases hok.symm.trans he

end ProjectArgo.CarPlay.Pairing
