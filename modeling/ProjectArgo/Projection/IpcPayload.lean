import ProjectArgo.Library.Reading
import ProjectArgo.Projection.Ipc

/-!
# Payloads of the control messages

The daemon writes numbers in big-endian order and texts with their length in front. The
application reads them in the same order; its texts lose a byte-order mark at their front, as
decoding UTF-8 does there.
-/
namespace ProjectArgo.Projection.Ipc

open Library.Bytes Library.Reading

/-- The octets of a text in UTF-8. -/
def utf8 (text : String) : List UInt8 := text.toByteArray.data.toList

namespace PayloadWriter

def u8 (value : ℕ) : List UInt8 := bigEndian 1 value
def u16 (value : ℕ) : List UInt8 := bigEndian 2 value
def u32 (value : ℕ) : List UInt8 := bigEndian 4 value
def u64 (value : ℕ) : List UInt8 := bigEndian 8 value

def string (value : String) : Except DecodeError (List UInt8) :=
  if 4096 < (utf8 value).length then .error (.oversizedPayload (utf8 value).length)
  else .ok (u16 (utf8 value).length ++ utf8 value)

end PayloadWriter

def byteOrderMark : Char := Char.ofNat 0xfeff

/-- A text less a byte-order mark in front. -/
def withoutMark (text : String) : String :=
  match text.toList with
  | [] => ""
  | first :: rest => if first = byteOrderMark then String.ofList rest else text

/-- `utf8.decode`. -/
def decodeUtf8 (bytes : List UInt8) : Option String :=
  (String.fromUTF8? ⟨bytes.toArray⟩).map withoutMark

namespace ProjectionIpcReader

abbrev Reader (α : Type) := Library.Reading.Reader String α

def uint (count : ℕ) : Reader ℕ := number "Truncated projection IPC payload." count

def uint8 : Reader ℕ := uint 1
def uint16 : Reader ℕ := uint 2
def uint32 : Reader ℕ := uint 4
def uint64 : Reader ℕ := uint 8

def string : Reader String := do
  let length ← uint16
  let bytes ← take "Truncated projection IPC string." length
  match decodeUtf8 bytes with
  | some text => return text
  | none => throw "Invalid UTF-8"

def requireDone : Reader Unit := done "Trailing IPC payload data."

end ProjectionIpcReader

/-! ## Texts -/

theorem fromUTF8_utf8 (text : String) : String.fromUTF8? ⟨(utf8 text).toArray⟩ = some text := by
  have hbytes : (⟨(utf8 text).toArray⟩ : ByteArray) = text.toByteArray := by
    apply ByteArray.ext
    simp [utf8]
  rw [hbytes, String.fromUTF8?, dif_pos text.isValidUTF8]
  rfl

theorem utf8_of_fromUTF8 {bytes : List UInt8} {text : String}
    (h : String.fromUTF8? ⟨bytes.toArray⟩ = some text) : utf8 text = bytes := by
  unfold String.fromUTF8? at h
  split at h
  · cases h
    simp [utf8, String.fromUTF8]
  · cases h

theorem decodeUtf8_utf8 (text : String) : decodeUtf8 (utf8 text) = some (withoutMark text) := by
  rw [decodeUtf8, fromUTF8_utf8]
  rfl

theorem length_utf8_ofList (front rest : List Char) :
    (utf8 (String.ofList (front ++ rest))).length =
      (utf8 (String.ofList front)).length + (utf8 (String.ofList rest)).length := by
  simp [utf8]

/-- Only a mark in front makes a difference. -/
theorem withoutMark_eq_self_iff {text : String} :
    withoutMark text = text ↔ text.toList.head? ≠ some byteOrderMark := by
  unfold withoutMark
  split
  · rename_i h
    simp [String.toList_eq_nil_iff.mp h]
  · rename_i first rest h
    split
    · rename_i hmark
      have hlonger : text ≠ String.ofList rest := by
        intro heq
        rw [heq, String.toList_ofList] at h
        exact List.cons_ne_self first rest h.symm
      simp [h, hmark, hlonger.symm]
    · rename_i hmark
      simp [h, hmark]

theorem length_withoutMark_le (text : String) :
    (utf8 (withoutMark text)).length ≤ (utf8 text).length := by
  unfold withoutMark
  split
  · simp [utf8]
  · rename_i first rest h
    split
    · have htext : text = String.ofList ([first] ++ rest) := by
        rw [← String.ofList_toList (s := text), h]
        rfl
      rw [htext, length_utf8_ofList]
      exact Nat.le_add_left _ _
    · exact le_rfl

theorem mem_withoutMark {text : String} {c : Char} (h : c ∈ (withoutMark text).toList) :
    c ∈ text.toList := by
  unfold withoutMark at h
  split at h
  · simp at h
  · rename_i first rest htext
    split at h
    · rw [String.toList_ofList] at h
      rw [htext]
      exact List.mem_cons_of_mem _ h
    · exact h

/-! ## What is written is read -/

namespace ProjectionIpcReader

theorem reads_uint {count value : ℕ} (h : value < 256 ^ count) :
    Reads (uint count) (bigEndian count value) value :=
  reads_number _ h

/-- A text is read as it was written, less a mark in front. -/
theorem reads_string {text : String} (h : (utf8 text).length < 2 ^ 16) :
    Reads string (PayloadWriter.u16 (utf8 text).length ++ utf8 text) (withoutMark text) := by
  apply Reads.bind (reads_uint h)
  apply Reads.last (reads_take _ rfl)
  rw [decodeUtf8_utf8]
  exact Reads.pure _

theorem string_eq {text : String} (h : (utf8 text).length ≤ 4096) :
    PayloadWriter.string text = .ok (PayloadWriter.u16 (utf8 text).length ++ utf8 text) :=
  if_neg (Nat.not_lt.mpr h)

end ProjectionIpcReader

end ProjectArgo.Projection.Ipc
