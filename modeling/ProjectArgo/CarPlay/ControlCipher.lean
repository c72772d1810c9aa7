import ProjectArgo.Library.Fragments
import ProjectArgo.CarPlay.Crypto

/-!
# Encrypted control frames

Each direction has a separate key and counter. A failed authentication poisons
the direction.
-/
namespace ProjectArgo.CarPlay

open Library.Bytes Library.Fragments

structure ControlCipher where
  key : List UInt8
  counter : ℕ
  failed : Bool
  deriving DecidableEq

namespace ControlCipher

variable (crypto : Crypto)

def new (key : List UInt8) : ControlCipher := ⟨key, 0, false⟩

def nonce (c : ControlCipher) : Except Error (List UInt8) :=
  if c.failed ∨ c.counter = 2 ^ 64 - 1 then .error .state
  else .ok ([0, 0, 0, 0] ++ littleEndian 8 c.counter)

def encrypt (c : ControlCipher) (plain : List UInt8) : ControlCipher × Except Error (List UInt8) :=
  if plain = [] ∨ plain.length > 16384 then (c, .error .bounds)
  else
    let header := littleEndian 2 plain.length
    match c.nonce with
    | .error e => (c, .error e)
    | .ok nonce =>
      match crypto.sealBytes c.key nonce header plain with
      | .error e => (c, .error e)
      | .ok sealed => ({ c with counter := c.counter + 1 }, .ok (header ++ sealed))

def decrypt (c : ControlCipher) (frame : List UInt8) : ControlCipher × Except Error (List UInt8) :=
  match c.nonce with
  | .error e => (c, .error e)
  | .ok nonce =>
    let poisoned := { c with failed := true }
    if frame.length < 18 then (poisoned, .error .bounds)
    else
      let size := ofBigEndian (frame.take 2).reverse
      if size > 16384 ∨ frame.length ≠ size + 18 then (poisoned, .error .bounds)
      else
        match crypto.openBytes c.key nonce (frame.take 2) (frame.drop 2) with
        | .error e => (poisoned, .error e)
        | .ok plain => ({ c with counter := c.counter + 1 }, .ok plain)

end ControlCipher
end ProjectArgo.CarPlay
