import ProjectArgo.Library.Bytes
import ProjectArgo.CarPlay.Basic

/-!
# Cryptographic operations

The primitives are parameters: what the accessory computes with them is fixed
here, how they are computed is not. Every primitive may fail.
-/
namespace ProjectArgo.CarPlay

open Library.Bytes

/-- The primitives of the cryptographic library. Keys are raw byte strings; `modulus` is the
3072-bit group of the password exchange. -/
structure Crypto where
  modulus : ℕ
  sha512 : List UInt8 → Except Error (List UInt8)
  hmacSha512 : List UInt8 → List UInt8 → Except Error (List UInt8)
  encryptAead : List UInt8 → List UInt8 → List UInt8 → List UInt8 →
    Except Error (List UInt8 × List UInt8)
  decryptAead : List UInt8 → List UInt8 → List UInt8 → List UInt8 → List UInt8 →
    Except Error (List UInt8)
  x25519Public : List UInt8 → Except Error (List UInt8)
  x25519Derive : List UInt8 → List UInt8 → Except Error (List UInt8)
  ed25519Public : List UInt8 → Except Error (List UInt8)
  ed25519Sign : List UInt8 → List UInt8 → Except Error (List UInt8)
  ed25519Verify : List UInt8 → List UInt8 → List UInt8 → Except Error Bool

/-- A check that stops the computation. -/
def ensure (p : Prop) [Decidable p] (e : Error) : Except Error Unit :=
  if p then .ok () else .error e

theorem ensure_eq_ok {p : Prop} [Decidable p] {e : Error} {u : Unit} :
    ensure p e = .ok u ↔ p := by
  unfold ensure
  split_ifs with h
  · simp [h]
  · simp [h]

def utf8 (s : String) : List UInt8 := s.toUTF8.data.toList

theorem utf8_append (s t : String) : utf8 (s ++ t) = utf8 s ++ utf8 t := by
  simp [utf8, String.toUTF8]

theorem utf8_injective {s t : String} (h : utf8 s = utf8 t) : s = t := by
  apply String.toByteArray_inj.mp
  apply ByteArray.ext
  exact Array.toList_inj.mp h

namespace Crypto

variable (crypto : Crypto)

def digest (parts : List (List UInt8)) : Except Error (List UInt8) := crypto.sha512 parts.flatten

def hmac (key bytes : List UInt8) : Except Error (List UInt8) := crypto.hmacSha512 key bytes

/-- A key is the first 32 bytes of one expansion block. -/
def deriveKey (secret : List UInt8) (salt info : String) : Except Error (List UInt8) := do
  let extracted ← crypto.hmac (utf8 salt) secret
  let expanded ← crypto.hmac extracted (utf8 info ++ [1])
  .ok (expanded.take 32)

def labelNonce (label : String) : List UInt8 := [0, 0, 0, 0] ++ utf8 label

def sealBytes (key nonce aad plain : List UInt8) : Except Error (List UInt8) := do
  let (out, tag) ← crypto.encryptAead key nonce aad plain
  .ok (out ++ tag)

def openBytes (key nonce aad bytes : List UInt8) : Except Error (List UInt8) :=
  if bytes.length < 16 then .error .malformed
  else
    crypto.decryptAead key nonce aad (bytes.take (bytes.length - 16))
      (bytes.drop (bytes.length - 16))

def shared (secretKey peer : List UInt8) : Except Error (List UInt8) := do
  ensure (peer.length = 32) .bounds
  let secret ← crypto.x25519Derive secretKey peer
  ensure (secret.length = 32 ∧ ¬secret.all (· = 0)) .rejected
  .ok secret

def sign (key bytes : List UInt8) : Except Error (List UInt8) := crypto.ed25519Sign key bytes

def verify (key bytes signature : List UInt8) : Except Error Unit := do
  ensure (key.length = 32 ∧ signature.length = 64) .bounds
  let valid ← crypto.ed25519Verify key bytes signature
  ensure valid .rejected

end Crypto
end ProjectArgo.CarPlay
