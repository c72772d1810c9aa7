import Mathlib.Data.Nat.Log
import ProjectArgo.CarPlay.Crypto
import ProjectArgo.CarPlay.Tlv

/-!
# Pairing

A phone registers once through a password exchange of three messages and later
proves that it is registered through two. Each exchange is an object that
consumes its own state; any number of them share one store of peers.
-/
namespace ProjectArgo.CarPlay

open Library.Bytes

/-- Head-unit signing identity, distinct from that of the authentication coprocessor. -/
structure Identity where
  identifier : List UInt8
  key : List UInt8

/-- The random bytes a call may draw. -/
structure Entropy where
  salt : Except Error (List UInt8)
  srp : Except Error (List UInt8)
  ephemeral : Except Error (List UInt8)

abbrev PeerKeys := AList fun _ : List UInt8 => List UInt8

theorem length_entries_insert (keys : PeerKeys) (identifier key : List UInt8) :
    (keys.insert identifier key).entries.length =
      if identifier ∈ keys then keys.entries.length else keys.entries.length + 1 := by
  split_ifs with h
  · have hkeys := congrArg List.length (AList.keys_insert (a := identifier) (b := key) keys)
    have hmem : identifier ∈ keys.keys := h
    have hpos := List.length_pos_of_mem hmem
    rw [List.length_cons, @List.length_erase_of_mem _ instBEqOfDecidableEq _ _ _ hmem] at hkeys
    simp only [AList.keys, List.keys, List.length_map] at hkeys hpos
    omega
  · rw [AList.entries_insert_of_notMem h, List.length_cons]

/-- Bounded pairing store. -/
structure Peers where
  keys : PeerKeys
  bounded : keys.entries.length ≤ 16
  sound : ∀ identifier key, keys.lookup identifier = some key →
    identifier ≠ [] ∧ identifier.length ≤ 128 ∧ key.length = 32

namespace Peers

def empty : Peers where
  keys := ∅
  bounded := by decide
  sound := fun _ _ h => nomatch h

def get (peers : Peers) (identifier : List UInt8) : Option (List UInt8) :=
  peers.keys.lookup identifier

def register (peers : Peers) (identifier key : List UInt8) : Peers × Except Error Unit :=
  if hshape : identifier = [] ∨ identifier.length > 128 ∨ key.length ≠ 32 then
    (peers, .error .bounds)
  else if hfull : peers.keys.entries.length ≥ 16 ∧ identifier ∉ peers.keys then
    (peers, .error .bounds)
  else
    ({ keys := peers.keys.insert identifier key
       bounded := by
        have hbounded := peers.bounded
        rw [length_entries_insert]
        split_ifs with hmem
        · exact hbounded
        · have hroom : ¬peers.keys.entries.length ≥ 16 := fun h => hfull ⟨h, hmem⟩
          omega
       sound := by
        intro other value hlookup
        by_cases hsame : other = identifier
        · subst hsame
          rw [AList.lookup_insert] at hlookup
          cases hlookup
          simp only [not_or, not_lt, not_not] at hshape
          exact hshape
        · rw [AList.lookup_insert_ne hsame] at hlookup
          exact peers.sound other value hlookup }, .ok ())

theorem register_error {peers peers' : Peers} {identifier key : List UInt8} {e : Error}
    (h : peers.register identifier key = (peers', .error e)) : peers' = peers := by
  unfold register at h
  split_ifs at h
  · exact (Prod.mk.inj h).1.symm
  · exact (Prod.mk.inj h).1.symm
  · exact nomatch (Prod.mk.inj h).2

theorem register_full {peers : Peers} {identifier : List UInt8} (key : List UInt8)
    (hfull : peers.keys.entries.length = 16) (hnew : peers.get identifier = none) :
    peers.register identifier key = (peers, .error .bounds) := by
  unfold register
  split_ifs with hshape hroom
  · rfl
  · rfl
  · exact absurd ⟨le_of_eq hfull.symm, AList.lookup_eq_none.mp hnew⟩ hroom

end Peers

/-! ## The password exchange -/

structure Srp where
  verifier : ℕ
  secret : ℕ
  publicKey : List UInt8
  salt : List UInt8

namespace Srp

variable (crypto : Crypto)

/-- The octets of a number, without leading zeros. -/
def toVec (n : ℕ) : List UInt8 := bigEndian (if n = 0 then 0 else Nat.log 256 n + 1) n

def new (entropy : Entropy) : Except Error Srp := do
  let salt ← entropy.salt
  let bytes ← entropy.srp
  let secret := ofBigEndian bytes
  let exponent := ofBigEndian (← crypto.digest [salt, ← crypto.digest [utf8 "Pair-Setup:3939"]])
  let verifier := 5 ^ exponent % crypto.modulus
  let multiplier := ofBigEndian (← crypto.digest [toVec crypto.modulus, bigEndian 384 5])
  let gb := 5 ^ secret % crypto.modulus
  let kv := multiplier * verifier % crypto.modulus
  .ok ⟨verifier, secret, bigEndian 384 ((kv + gb) % crypto.modulus), salt⟩

/-- The session key and the accessory's proof, once the phone's proof is the expected one. -/
def verify (srp : Srp) (phone proof : List UInt8) :
    Except Error (List UInt8 × List UInt8) := do
  ensure (phone.length = 384 ∧ proof.length = 64) .bounds
  let a := ofBigEndian phone
  ensure (a % crypto.modulus ≠ 0) .rejected
  let u := ofBigEndian (← crypto.digest [phone, srp.publicKey])
  ensure (u ≠ 0) .rejected
  let vu := srp.verifier ^ u % crypto.modulus
  let base := a * vu % crypto.modulus
  let secret := base ^ srp.secret % crypto.modulus
  let key ← crypto.digest [toVec secret]
  let hn ← crypto.digest [toVec crypto.modulus]
  let hg ← crypto.digest [[5]]
  let expected ← crypto.digest
    [List.zipWith (· ^^^ ·) hn hg, ← crypto.digest [utf8 "Pair-Setup"], srp.salt, phone,
      srp.publicKey, key]
  ensure (expected = proof) .rejected
  .ok (key, ← crypto.digest [phone, proof, key])

end Srp

structure PairSetup where
  srp : Option Srp
  key : Option (List UInt8)
  step : UInt8

namespace PairSetup

variable (crypto : Crypto)

def new : PairSetup := ⟨none, none, 0⟩

/-- The first message asks for the password exchange. -/
def hello (entropy : Entropy) (fields : Tlv) : Except Error (Srp × List UInt8) := do
  let method ← fields.field 0
  ensure (method = [0]) .unsupported
  let srp ← Srp.new crypto entropy
  let response ← Tlv.encode [(6, [2]), (2, srp.salt), (3, srp.publicKey)]
  .ok (srp, response)

def prove (srp : Srp) (fields : Tlv) : Except Error (List UInt8 × List UInt8) := do
  srp.verify crypto (← fields.field 3) (← fields.field 4)

/-- The identifier and key of a controller whose sealed and signed message is genuine. -/
def controller (secret : List UInt8) (fields : Tlv) :
    Except Error (List UInt8 × List UInt8 × List UInt8) := do
  let key ← crypto.deriveKey secret "Pair-Setup-Encrypt-Salt" "Pair-Setup-Encrypt-Info"
  let plain ← crypto.openBytes key (Crypto.labelNonce "PS-Msg05") [] (← fields.field 5)
  let controller ← Tlv.decode plain
  let identifier ← controller.field 1
  let phone ← controller.field 3
  let proofKey ← crypto.deriveKey secret "Pair-Setup-Controller-Sign-Salt"
    "Pair-Setup-Controller-Sign-Info"
  crypto.verify phone (proofKey ++ identifier ++ phone) (← controller.field 10)
  .ok (key, identifier, phone)

/-- The accessory's own sealed and signed message. -/
def accessory (identity : Identity) (secret key : List UInt8) : Except Error (List UInt8) := do
  let own ← crypto.ed25519Public identity.key
  let proofKey ← crypto.deriveKey secret "Pair-Setup-Accessory-Sign-Salt"
    "Pair-Setup-Accessory-Sign-Info"
  let signature ← crypto.sign identity.key (proofKey ++ identity.identifier ++ own)
  let reply ← Tlv.encode [(1, identity.identifier), (3, own), (10, signature)]
  Tlv.encode [(6, [6]), (5, ← crypto.sealBytes key (Crypto.labelNonce "PS-Msg06") [] reply)]

def exchange (identity : Identity) (secret : List UInt8) (fields : Tlv) :
    Except Error (List UInt8 × List UInt8 × List UInt8) := do
  let (key, identifier, phone) ← controller crypto secret fields
  .ok (identifier, phone, ← accessory crypto identity secret key)

def advance (s : PairSetup) (entropy : Entropy) (bytes : List UInt8) (identity : Identity)
    (peers : Peers) : PairSetup × Peers × Except Error (List UInt8) :=
  match do
    let fields ← Tlv.decode bytes
    let stage ← fields.field 6
    .ok (fields, stage) with
  | .error e => (s, peers, .error e)
  | .ok (fields, stage) =>
    if s.step = 0 ∧ stage = [1] then
      match hello crypto entropy fields with
      | .error e => (s, peers, .error e)
      | .ok (srp, response) => ({ s with srp := some srp, step := 2 }, peers, .ok response)
    else if s.step = 2 ∧ stage = [3] then
      match s.srp with
      | none => (s, peers, .error .state)
      | some srp =>
        match prove crypto srp fields with
        | .error e => ({ s with srp := none }, peers, .error e)
        | .ok (key, proof) =>
          (⟨none, some key, 4⟩, peers, Tlv.encode [(6, [4]), (4, proof)])
    else if s.step = 4 ∧ stage = [5] then
      match s.key with
      | none => (s, peers, .error .state)
      | some secret =>
        match exchange crypto identity secret fields with
        | .error e => ({ s with key := none }, peers, .error e)
        | .ok (identifier, phone, response) =>
          match peers.register identifier phone with
          | (peers, .error e) => ({ s with key := none }, peers, .error e)
          | (peers, .ok ()) => ({ s with key := none, step := 6 }, peers, .ok response)
    else (s, peers, .error .state)

/-- Any error discards the exchange. -/
def handle (s : PairSetup) (entropy : Entropy) (bytes : List UInt8) (identity : Identity)
    (peers : Peers) : PairSetup × Peers × Except Error (List UInt8) :=
  match s.advance crypto entropy bytes identity peers with
  | (_, peers, .error e) => (⟨none, none, 255⟩, peers, .error e)
  | (s, peers, .ok response) => (s, peers, .ok response)

end PairSetup

/-! ## The proof of registration -/

structure PendingVerify where
  ours : List UInt8
  theirs : List UInt8
  secret : List UInt8
  key : List UInt8

structure PairVerify where
  pending : Option PendingVerify
  used : Bool

structure Verified where
  secret : List UInt8
  read : List UInt8
  write : List UInt8

namespace PairVerify

variable (crypto : Crypto)

def new : PairVerify := ⟨none, false⟩

/-- The accessory's ephemeral key and signature in answer to the phone's ephemeral key. -/
def offer (entropy : Entropy) (bytes : List UInt8) (identity : Identity) :
    Except Error (PendingVerify × List UInt8) := do
  let fields ← Tlv.decode bytes
  let stage ← fields.field 6
  ensure (stage = [1]) .state
  let theirs ← fields.field 3
  let ephemeral ← entropy.ephemeral
  let ours ← crypto.x25519Public ephemeral
  let secret ← crypto.shared ephemeral theirs
  let key ← crypto.deriveKey secret "Pair-Verify-Encrypt-Salt" "Pair-Verify-Encrypt-Info"
  let signature ← crypto.sign identity.key (ours ++ identity.identifier ++ theirs)
  let reply ← Tlv.encode [(1, identity.identifier), (10, signature)]
  let sealed ← crypto.sealBytes key (Crypto.labelNonce "PV-Msg02") [] reply
  let response ← Tlv.encode [(6, [2]), (3, ours), (5, sealed)]
  .ok (⟨ours, theirs, secret, key⟩, response)

def start (v : PairVerify) (entropy : Entropy) (bytes : List UInt8) (identity : Identity) :
    PairVerify × Except Error (List UInt8) :=
  if v.used then (v, .error .state)
  else
    match offer crypto entropy bytes identity with
    | .error e => ({ v with used := true }, .error e)
    | .ok (pending, response) => (⟨some pending, true⟩, .ok response)

/-- The identifier of the registered peer that signed the pending exchange. -/
def signer (pending : PendingVerify) (bytes : List UInt8) (peers : Peers) :
    Except Error (List UInt8) := do
  let fields ← Tlv.decode bytes
  let stage ← fields.field 6
  ensure (stage = [3]) .state
  let plain ← crypto.openBytes pending.key (Crypto.labelNonce "PV-Msg03") [] (← fields.field 5)
  let controller ← Tlv.decode plain
  let identifier ← controller.field 1
  let registered ← (peers.get identifier).elim (.error .rejected) Except.ok
  crypto.verify registered (pending.theirs ++ identifier ++ pending.ours)
    (← controller.field 10)
  .ok identifier

def conclude (pending : PendingVerify) (bytes : List UInt8) (peers : Peers) :
    Except Error (List UInt8 × Verified) := do
  let _ ← signer crypto pending bytes peers
  let read ← crypto.deriveKey pending.secret "Control-Salt" "Control-Write-Encryption-Key"
  let write ← crypto.deriveKey pending.secret "Control-Salt" "Control-Read-Encryption-Key"
  let response ← Tlv.encode [(6, [4])]
  .ok (response, ⟨pending.secret, read, write⟩)

def finish (v : PairVerify) (bytes : List UInt8) (peers : Peers) :
    PairVerify × Except Error (List UInt8 × Verified) :=
  match v.pending with
  | none => (v, .error .state)
  | some pending => ({ v with pending := none }, conclude crypto pending bytes peers)

end PairVerify
end ProjectArgo.CarPlay
