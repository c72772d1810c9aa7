import Mathlib.Data.List.AList
import ProjectArgo.Library.Fragments
import ProjectArgo.CarPlay.Basic

/-!
# Type-length-value fields

A pairing message is a map from field kinds to byte strings. On the wire a long
value is cut into parts of at most 255 bytes; a part continues the field before
it exactly when that part was full.
-/
namespace ProjectArgo.CarPlay

open Library.Fragments

abbrev Tlv := AList fun _ : UInt8 => List UInt8

namespace Tlv

/-- The loop of `decode`: the fields so far and the kind and size of the part before. -/
def decodeParts (fields : Tlv) (previous : Option (UInt8 × ℕ)) : List UInt8 → Except Error Tlv
  | [] => .ok fields
  | [_] => .error .malformed
  | kind :: size :: rest =>
    let len := size.toNat
    if rest.length < len then .error .malformed
    else if kind ∈ fields ∧ previous ≠ some (kind, 255) then .error .malformed
    else
      let fields := fields.insert kind ((fields.lookup kind).getD [] ++ rest.take len)
      if fields.entries.length > 16 then .error .bounds
      else decodeParts fields (some (kind, len)) (rest.drop len)
termination_by bytes => bytes.length
decreasing_by
  rw [List.length_drop, List.length_cons, List.length_cons]
  omega

/-- A part that starts a new field. -/
theorem decodeParts_cons {fields : Tlv} {kind size : UInt8} {rest : List UInt8}
    (previous : Option (UInt8 × ℕ)) (hlen : size.toNat ≤ rest.length) (hnew : kind ∉ fields)
    (hroom : fields.entries.length < 16) :
    decodeParts fields previous (kind :: size :: rest) =
      decodeParts (fields.insert kind (rest.take size.toNat)) (some (kind, size.toNat))
        (rest.drop size.toNat) := by
  have hlookup : fields.lookup kind = none := AList.lookup_eq_none.mpr hnew
  have hlength : ¬(fields.insert kind (rest.take size.toNat)).entries.length > 16 := by
    rw [AList.entries_insert_of_notMem hnew, List.length_cons]
    omega
  rw [decodeParts]
  dsimp only
  rw [if_neg (by omega), if_neg fun h => hnew h.1, hlookup, Option.getD_none, List.nil_append,
    if_neg hlength]

def decode (bytes : List UInt8) : Except Error Tlv :=
  if bytes.length > 8192 then .error .bounds else decodeParts ∅ none bytes

/-- One field cut into parts; an empty value still takes a part. -/
def encodeField (kind : UInt8) (bytes : List UInt8) : List UInt8 :=
  if bytes = [] then [kind, 0]
  else (chunks 255 bytes).flatMap fun part => kind :: UInt8.ofNat part.length :: part

def encodeFields (seen : List UInt8) : List (UInt8 × List UInt8) → Except Error (List UInt8)
  | [] => .ok []
  | (kind, bytes) :: fields =>
    if kind ∈ seen then .error .malformed
    else
      match encodeFields (kind :: seen) fields with
      | .error e => .error e
      | .ok rest => .ok (encodeField kind bytes ++ rest)

def encode (fields : List (UInt8 × List UInt8)) : Except Error (List UInt8) :=
  match encodeFields [] fields with
  | .error e => .error e
  | .ok output => if output.length > 8192 then .error .bounds else .ok output

def field (fields : Tlv) (kind : UInt8) : Except Error (List UInt8) :=
  match fields.lookup kind with
  | some value => .ok value
  | none => .error .malformed

end Tlv
end ProjectArgo.CarPlay
