import Mathlib.Data.List.AList
import ProjectArgo.Library.Bytes
import ProjectArgo.CarPlay.Crypto

/-!
# Control requests

Requests and responses share one text framing: a first line of three words,
header lines, an empty line and a body of the announced length. The decoder
keeps what was pushed and not yet taken by a request. Fed one byte at a time it
never holds more than the request that the last byte completes.
-/
namespace ProjectArgo.CarPlay

open Library.Bytes

def maxHeaders : ℕ := 16 * 1024
def maxBody : ℕ := 1024 * 1024

def text (bytes : List UInt8) : String :=
  String.ofList (bytes.map fun b => Char.ofNat b.toNat)

abbrev Headers := AList fun _ : List UInt8 => List UInt8

structure Request where
  method : String
  target : String
  protocol : String
  headers : Headers
  body : List UInt8

namespace Ascii

def isDigit (b : UInt8) : Bool := 48 ≤ b && b ≤ 57
def isUpper (b : UInt8) : Bool := 65 ≤ b && b ≤ 90
def isLower (b : UInt8) : Bool := 97 ≤ b && b ≤ 122
def isControl (b : UInt8) : Bool := b < 32 || b == 127
def isSpace (b : UInt8) : Bool := b == 32 || (9 ≤ b && b ≤ 13)
def toLower (b : UInt8) : UInt8 := if isUpper b then b + 32 else b

def trim (bytes : List UInt8) : List UInt8 :=
  ((bytes.dropWhile isSpace).reverse.dropWhile isSpace).reverse

def number (digits : List UInt8) : ℕ :=
  digits.foldl (fun n b => n * 10 + (b.toNat - 48)) 0

end Ascii

namespace ControlDecoder

open Ascii

/-- The offset of the empty line that ends the headers. -/
def headerEnd : List UInt8 → Option ℕ
  | [] => none
  | b :: bytes =>
    if (b :: bytes).take 4 = [13, 10, 13, 10] then some 0 else (headerEnd bytes).map (· + 1)

def splitOnce (separator : UInt8) : List UInt8 → Option (List UInt8 × List UInt8)
  | [] => none
  | b :: bytes =>
    if b = separator then some ([], bytes)
    else (splitOnce separator bytes).map fun (front, rest) => (b :: front, rest)

/-- The lines of a text, separated by carriage return and line feed. -/
def splitLines : List UInt8 → List (List UInt8)
  | [] => [[]]
  | [b] => [[b]]
  | b :: c :: bytes =>
    if b = 13 ∧ c = 10 then [] :: splitLines bytes
    else
      match splitLines (c :: bytes) with
      | [] => [[b]]
      | line :: lines => (b :: line) :: lines

/-- The three words of a first line. -/
def words (line : List UInt8) : Except Error (List UInt8 × List UInt8 × List UInt8) :=
  match splitOnce 32 line with
  | none => .error .malformed
  | some (first, rest) =>
    match splitOnce 32 rest with
    | none => .error .malformed
    | some (second, third) => .ok (first, second, third)

def protocols : List (List UInt8) :=
  [[82, 84, 83, 80, 47, 49, 46, 48], [72, 84, 84, 80, 47, 49, 46, 49]]

/-- The first line of a response, or of a request. -/
def checkWords (first second third : List UInt8) : Except Error Unit :=
  if first ∈ protocols then
    ensure (second.length = 3 ∧ second.all isDigit ∧ ¬third.any isControl) .malformed
  else
    ensure (first ≠ [] ∧ first.length ≤ 32 ∧ (first.all fun b => isUpper b || b == 95) ∧
      second ≠ [] ∧ second.length ≤ 2048 ∧ ¬second.any isControl ∧ third ∈ protocols) .malformed

def headerLines (headers : Headers) : List (List UInt8) → Except Error Headers
  | [] => .ok headers
  | line :: lines =>
    if headers.entries.length ≥ 64 then .error .bounds
    else
      match splitOnce 58 line with
      | none => .error .malformed
      | some (name, value) =>
        if name = [] ∨ ¬(name.all fun b => isDigit b || isUpper b || isLower b || b == 45) ∨
            (value.any fun b => isControl b && b != 9) then
          .error .malformed
        else if name.map toLower ∈ headers then .error .malformed
        else headerLines (headers.insert (name.map toLower) (trim value)) lines

/-- The announced length of the body. -/
def contentLength (headers : Headers) : Except Error ℕ := do
  ensure (utf8 "transfer-encoding" ∉ headers) .unsupported
  let length ←
    match headers.lookup (utf8 "content-length") with
    | none => .ok 0
    | some value => do
      ensure (value ≠ [] ∧ value.all isDigit) .malformed
      ensure (number value < 2 ^ 64) .bounds
      .ok (number value)
  ensure (length ≤ maxBody) .bounds
  .ok length

/-- The text before the empty line: a request without its body, and the body's length. -/
def head (bytes : List UInt8) : Except Error (Request × ℕ) := do
  ensure (bytes.all (· < 128)) .malformed
  let lines := splitLines bytes
  let (first, second, third) ← words (lines.headD [])
  checkWords first second third
  let headers ← headerLines ∅ lines.tail
  let length ← contentLength headers
  .ok (⟨text first, text second, text third, headers, []⟩, length)

/-- The first request of the pending bytes with the offset of its end. -/
def parse (pending : List UInt8) : Except Error (Option (Request × ℕ)) :=
  match headerEnd pending with
  | none => if pending.length > maxHeaders then .error .bounds else .ok none
  | some split =>
    if split + 4 > maxHeaders then .error .bounds
    else
      match head (pending.take split) with
      | .error e => .error e
      | .ok (request, length) =>
        if pending.length < split + 4 + length then .ok none
        else
          .ok (some ({ request with body := slice pending (split + 4) (split + 4 + length) },
            split + 4 + length))

def push (pending bytes : List UInt8) : Except Error (List UInt8) :=
  if pending.length + bytes.length > maxHeaders + maxBody then .error .bounds
  else .ok (pending ++ bytes)

/-- The next request and what is left pending after it. -/
def nextRequest (pending : List UInt8) : Except Error (Option (Request × List UInt8)) :=
  match parse pending with
  | .error e => .error e
  | .ok none => .ok none
  | .ok (some (request, last)) => .ok (some (request, pending.drop last))

theorem headerEnd_append {bytes : List UInt8} {split : ℕ} (h : headerEnd bytes = some split)
    (rest : List UInt8) : headerEnd (bytes ++ rest) = some split ∧ split + 4 ≤ bytes.length := by
  induction bytes generalizing split with
  | nil => exact nomatch h
  | cons b bytes ih =>
    rw [headerEnd] at h
    split_ifs at h with hend
    · cases h
      have hlength := congrArg List.length hend
      rw [List.length_take, List.length_cons] at hlength
      simp only [List.length_cons, List.length_nil] at hlength
      have htake : ((b :: bytes) ++ rest).take 4 = [13, 10, 13, 10] := by
        rw [List.take_append_of_le_length (by rw [List.length_cons]; omega), hend]
      rw [List.cons_append, headerEnd, ← List.cons_append, if_pos htake, List.length_cons]
      exact ⟨rfl, by omega⟩
    · obtain ⟨split', hsplit', rfl⟩ := Option.map_eq_some_iff.mp h
      obtain ⟨happend, hbound⟩ := ih hsplit'
      have hlong : 4 ≤ (b :: bytes).length := by
        rw [List.length_cons]
        omega
      rw [List.cons_append, headerEnd, ← List.cons_append, List.take_append_of_le_length hlong,
        if_neg hend, happend, List.length_cons]
      exact ⟨rfl, by omega⟩

/-- An empty line that one more byte completes ends with that byte. -/
theorem headerEnd_concat {bytes : List UInt8} (h : headerEnd bytes = none) (b : UInt8) {split : ℕ}
    (h' : headerEnd (bytes ++ [b]) = some split) : split + 4 = (bytes ++ [b]).length := by
  induction bytes generalizing split with
  | nil =>
    simp [headerEnd] at h'
  | cons a bytes ih =>
    rw [headerEnd] at h
    rw [List.cons_append, headerEnd] at h'
    split_ifs at h with hend
    have hnone : headerEnd bytes = none := Option.map_eq_none_iff.mp h
    split_ifs at h' with hend'
    · cases h'
      have hlength := congrArg List.length hend'
      rw [List.length_take, List.length_cons, List.length_append] at hlength
      simp only [List.length_cons, List.length_nil] at hlength
      by_cases hlong : 4 ≤ (a :: bytes).length
      · rw [← List.cons_append, List.take_append_of_le_length hlong] at hend'
        exact absurd hend' hend
      · rw [List.length_cons] at hlong
        rw [List.length_append, List.length_cons, List.length_singleton]
        omega
    · obtain ⟨split', hsplit', rfl⟩ := Option.map_eq_some_iff.mp h'
      have hih := ih hnone hsplit'
      rw [List.cons_append, List.length_cons]
      omega

/-- A request that one more byte completes ends with that byte. -/
theorem parse_concat {pending : List UInt8} (h : parse pending = .ok none) (b : UInt8)
    {request : Request} {last : ℕ} (h' : parse (pending ++ [b]) = .ok (some (request, last))) :
    last = (pending ++ [b]).length := by
  have hlast : last ≤ (pending ++ [b]).length ∧
      ∃ split, headerEnd (pending ++ [b]) = some split ∧ split + 4 ≤ last := by
    unfold parse at h'
    cases hend : headerEnd (pending ++ [b]) with
    | none =>
      rw [hend] at h'
      dsimp only at h'
      split_ifs at h'
      exact nomatch h'
    | some split =>
      rw [hend] at h'
      dsimp only at h'
      split_ifs at h' with hlong
      cases hhead : head ((pending ++ [b]).take split) with
      | error e =>
        rw [hhead] at h'
        exact nomatch h'
      | ok found =>
        rw [hhead] at h'
        dsimp only at h'
        split_ifs at h' with hshort
        · exact nomatch h'
        · have heq := (Prod.mk.inj (Option.some.inj (Except.ok.inj h'))).2
          exact ⟨by omega, split, rfl, by omega⟩
  obtain ⟨hle, split, hsplit, hge⟩ := hlast
  cases hend : headerEnd pending with
  | none =>
    have hexact := headerEnd_concat hend b hsplit
    omega
  | some split' =>
    obtain ⟨happend, hbound⟩ := headerEnd_append hend [b]
    have hsame : split' = split := Option.some.inj (happend.symm.trans hsplit)
    subst hsame
    have htake : (pending ++ [b]).take split' = pending.take split' :=
      List.take_append_of_le_length (by omega)
    unfold parse at h h'
    rw [hend] at h
    rw [hsplit] at h'
    dsimp only at h h'
    rw [htake] at h'
    split_ifs at h h' with hlong
    cases hhead : head (pending.take split') with
    | error e =>
      rw [hhead] at h
      exact nomatch h
    | ok found =>
      rw [hhead] at h h'
      dsimp only at h h'
      by_cases hshort : pending.length < split' + 4 + found.2
      · split_ifs at h' with hshort'
        · exact nomatch h'
        · have heq := (Prod.mk.inj (Option.some.inj (Except.ok.inj h'))).2
          rw [List.length_append, List.length_singleton] at hle ⊢
          omega
      · rw [if_neg hshort] at h
        exact nomatch h

theorem parse_nil : parse [] = .ok none := rfl

/-- Fed byte by byte, the decoder is empty whenever it has returned a request. -/
theorem nextRequest_concat {pending : List UInt8} (h : parse pending = .ok none) (b : UInt8)
    {request : Request} {rest : List UInt8}
    (h' : nextRequest (pending ++ [b]) = .ok (some (request, rest))) : rest = [] := by
  unfold nextRequest at h'
  cases hparse : parse (pending ++ [b]) with
  | error e =>
    rw [hparse] at h'
    exact nomatch h'
  | ok found =>
    rw [hparse] at h'
    cases found with
    | none => exact nomatch h'
    | some next =>
      obtain ⟨request', last⟩ := next
      cases h'
      rw [parse_concat h b hparse, List.drop_length]

end ControlDecoder
end ProjectArgo.CarPlay
