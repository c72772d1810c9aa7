import Mathlib.Data.List.Sort
import Mathlib.Data.String.Basic
import Mathlib.Tactic.IntervalCases

/-!
# JSON documents

A document, its text, and its canonical form, in which the fields of every object are
sorted by name. A text belongs to one document. Two documents have one canonical form
exactly if one becomes the other by moving fields within their objects.
-/
namespace Library

def isNumeric (c : Char) : Bool :=
  c.isDigit || c = '-' || c = '+' || c = '.' || c = 'e'

/-- A number with a fraction or an exponent is known by its text. -/
structure Double where
  text : List Char
  numeric : ∀ c ∈ text, isNumeric c
  fraction : ∃ c ∈ text, c = '.' ∨ c = 'e'
  deriving DecidableEq

inductive Json
  | null
  | bool (value : Bool)
  | int (value : ℤ)
  | double (value : Double)
  | string (text : String)
  | array (items : List Json)
  | object (fields : List (String × Json))

/-! ## Strings -/

namespace JsonText

def quote : Char := Char.ofNat 34

def backslash : Char := Char.ofNat 92

def control : ℕ → List Char
  | 8 => ['b']
  | 9 => ['t']
  | 10 => ['n']
  | 12 => ['f']
  | 13 => ['r']
  | code => ['u', '0', '0', Nat.digitChar (code / 16), Nat.digitChar (code % 16)]

def escape (c : Char) : List Char :=
  if c = quote ∨ c = backslash then [backslash, c]
  else if c.toNat < 32 then backslash :: control c.toNat
  else [c]

def digitValue (c : Char) : ℕ := if c.isDigit then c.toNat - 48 else c.toNat - 87

/-- The character that an escape sequence stands for. -/
def unescape : List Char → Option (Char × List Char)
  | 'b' :: rest => some (Char.ofNat 8, rest)
  | 't' :: rest => some (Char.ofNat 9, rest)
  | 'n' :: rest => some (Char.ofNat 10, rest)
  | 'f' :: rest => some (Char.ofNat 12, rest)
  | 'r' :: rest => some (Char.ofNat 13, rest)
  | 'u' :: _ :: _ :: high :: low :: rest =>
    some (Char.ofNat (16 * digitValue high + digitValue low), rest)
  | c :: rest => some (c, rest)
  | [] => none

/-- The first character of an escaped text, and what follows it. -/
def unescapeFirst : List Char → Option (Char × List Char)
  | [] => none
  | c :: rest =>
    if c = quote then none
    else if c = backslash then unescape rest
    else some (c, rest)

theorem unescape_control {code : ℕ} (h : code < 32) (rest : List Char) :
    unescape (control code ++ rest) = some (Char.ofNat code, rest) := by
  interval_cases code <;> rfl

theorem unescapeFirst_escape (c : Char) (rest : List Char) :
    unescapeFirst (escape c ++ rest) = some (c, rest) := by
  unfold escape
  split
  · rename_i hspecial
    rcases hspecial with rfl | rfl <;> rfl
  · rename_i hplain
    push Not at hplain
    split
    · rename_i hcontrol
      have hread := unescape_control hcontrol rest
      rw [Char.ofNat_toNat] at hread
      exact hread
    · simp [unescapeFirst, hplain.1, hplain.2]

def escaped (text : List Char) : List Char := text.flatMap escape ++ [quote]

theorem escaped_cancel {text other : List Char} {s t : List Char}
    (h : escaped text ++ s = escaped other ++ t) : text = other ∧ s = t := by
  have hnil : ∀ rest, unescapeFirst (escaped [] ++ rest) = none := fun rest => rfl
  have hcons : ∀ c text rest, unescapeFirst (escaped (c :: text) ++ rest) =
      some (c, escaped text ++ rest) := by
    intro c text rest
    unfold escaped
    rw [List.flatMap_cons, List.append_assoc, List.append_assoc, unescapeFirst_escape,
      List.append_assoc]
  induction text generalizing other with
  | nil =>
    cases other with
    | nil => exact ⟨rfl, List.append_cancel_left h⟩
    | cons d other =>
      have hread := congrArg unescapeFirst h
      rw [hnil, hcons] at hread
      cases hread
  | cons c text ih =>
    have hread := congrArg unescapeFirst h
    rw [hcons] at hread
    cases other with
    | nil =>
      rw [hnil] at hread
      cases hread
    | cons d other =>
      rw [hcons] at hread
      obtain ⟨rfl, hrest⟩ := Prod.mk.inj (Option.some.inj hread)
      obtain ⟨rfl, hs⟩ := ih hrest
      exact ⟨rfl, hs⟩

/-! ## Numbers -/

def decimal : ℤ → List Char
  | .ofNat value => Nat.toDigits 10 value
  | .negSucc value => '-' :: Nat.toDigits 10 (value + 1)

theorem decimal_chars (value : ℤ) : ∀ c ∈ decimal value, c.isDigit ∨ c = '-' := by
  intro c hc
  cases value with
  | ofNat value => exact .inl (Nat.isDigit_of_mem_toDigits (by decide) (by decide) hc)
  | negSucc value =>
    rcases List.mem_cons.mp hc with rfl | hdigit
    · exact .inr rfl
    · exact .inl (Nat.isDigit_of_mem_toDigits (by decide) (by decide) hdigit)

theorem decimal_ne_nil (value : ℤ) : decimal value ≠ [] := by
  cases value with
  | ofNat value => exact Nat.toDigits_ne_nil
  | negSucc value => exact List.cons_ne_nil _ _

theorem toDigits_injective {m n : ℕ} (h : Nat.toDigits 10 m = Nat.toDigits 10 n) : m = n := by
  rw [← Nat.ofDigitChars_ten_toDigits (n := m), h, Nat.ofDigitChars_ten_toDigits]

theorem decimal_injective {m n : ℤ} (h : decimal m = decimal n) : m = n := by
  have hminus : ∀ (k : ℕ) (rest : List Char), Nat.toDigits 10 k ≠ '-' :: rest := by
    intro k rest hk
    have hdigit := Nat.isDigit_of_mem_toDigits (b := 10) (n := k) (c := '-') (by decide)
      (by decide) (hk ▸ List.mem_cons_self ..)
    exact absurd hdigit (by decide)
  cases m with
  | ofNat m =>
    cases n with
    | ofNat n => exact congrArg Int.ofNat (toDigits_injective h)
    | negSucc n => exact absurd h (hminus m _)
  | negSucc m =>
    cases n with
    | ofNat n => exact absurd h.symm (hminus n _)
    | negSucc n =>
      have hdigits := toDigits_injective (List.cons.inj h).2
      rw [Nat.succ.inj hdigits]

/-- What can follow a number. -/
def Ends (rest : List Char) : Prop := ∀ c ∈ rest.head?, isNumeric c = false

theorem ends_nil : Ends [] := nofun

theorem ends_cons {c : Char} {rest : List Char} (h : isNumeric c = false) : Ends (c :: rest) := by
  rintro d hd
  obtain rfl := Option.some.inj hd
  exact h

theorem numeric_cancel {text other s t : List Char} (htext : ∀ c ∈ text, isNumeric c)
    (hother : ∀ c ∈ other, isNumeric c) (hs : Ends s) (ht : Ends t)
    (h : text ++ s = other ++ t) : text = other ∧ s = t := by
  induction text generalizing other with
  | nil =>
    cases other with
    | nil => exact ⟨rfl, h⟩
    | cons d other =>
      obtain rfl : s = d :: (other ++ t) := h
      have hd := hs d rfl
      rw [hother d (List.mem_cons_self ..)] at hd
      cases hd
  | cons c text ih =>
    cases other with
    | nil =>
      obtain rfl : c :: (text ++ s) = t := h
      have hc := ht c rfl
      rw [htext c (List.mem_cons_self ..)] at hc
      cases hc
    | cons d other =>
      obtain ⟨rfl, hrest⟩ := List.cons.inj h
      obtain ⟨rfl, hend⟩ := ih (fun c hc => htext c (List.mem_cons_of_mem _ hc))
        (fun c hc => hother c (List.mem_cons_of_mem _ hc)) hrest
      exact ⟨rfl, hend⟩

theorem decimal_numeric (value : ℤ) : ∀ c ∈ decimal value, isNumeric c := by
  intro c hc
  rcases decimal_chars value c hc with hdigit | rfl
  · simp [isNumeric, hdigit]
  · rfl

theorem decimal_ne_double (value : ℤ) (double : Double) : decimal value ≠ double.text := by
  intro h
  obtain ⟨c, hc, hpoint⟩ := double.fraction
  rw [← h] at hc
  rcases decimal_chars value c hc with hdigit | rfl
  · rcases hpoint with rfl | rfl <;> exact absurd hdigit (by decide)
  · rcases hpoint with hpoint | hpoint <;> exact absurd hpoint (by decide)

end JsonText

/-! ## Documents -/

namespace Json

open JsonText

mutual

def encode : Json → List Char
  | null => ['n', 'u', 'l', 'l']
  | bool true => ['t', 'r', 'u', 'e']
  | bool false => ['f', 'a', 'l', 's', 'e']
  | int value => decimal value
  | double value => value.text
  | string text => quote :: escaped text.toList
  | array items => '[' :: encodeItems items
  | object fields => '{' :: encodeFields fields

def encodeItems : List Json → List Char
  | [] => [']']
  | item :: rest => encode item ++ encodeMoreItems rest

def encodeMoreItems : List Json → List Char
  | [] => [']']
  | item :: rest => ',' :: (encode item ++ encodeMoreItems rest)

def encodeFields : List (String × Json) → List Char
  | [] => ['}']
  | (name, value) :: rest =>
    quote :: (escaped name.toList ++ ':' :: (encode value ++ encodeMoreFields rest))

def encodeMoreFields : List (String × Json) → List Char
  | [] => ['}']
  | (name, value) :: rest =>
    ',' :: quote :: (escaped name.toList ++ ':' :: (encode value ++ encodeMoreFields rest))

end

/-- The value of a name is replaced where it is, or added at the end. -/
def put (fields : List (String × Json)) (name : String) (value : Json) : List (String × Json) :=
  if fields.any (·.1 = name) then
    fields.map fun field => if field.1 = name then (name, value) else field
  else fields ++ [(name, value)]

/-- What the first character of a text tells. -/
inductive Kind
  | null
  | bool
  | number
  | string
  | array
  | object
  deriving DecidableEq

def kind : Json → Kind
  | null => .null
  | bool _ => .bool
  | int _ => .number
  | double _ => .number
  | string _ => .string
  | array _ => .array
  | object _ => .object

def kindOf (c : Char) : Option Kind :=
  if isNumeric c then some .number
  else if c = 'n' then some .null
  else if c = 't' ∨ c = 'f' then some .bool
  else if c = quote then some .string
  else if c = '[' then some .array
  else if c = '{' then some .object
  else none

theorem numeric_head {text : List Char} (hne : text ≠ []) (h : ∀ c ∈ text, isNumeric c) :
    ∃ c rest, text = c :: rest ∧ kindOf c = some .number := by
  obtain ⟨c, rest, rfl⟩ := List.exists_cons_of_ne_nil hne
  refine ⟨c, rest, rfl, ?_⟩
  unfold kindOf
  rw [if_pos (h c (List.mem_cons_self ..))]

theorem encode_head (a : Json) : ∃ c rest, encode a = c :: rest ∧ kindOf c = some a.kind := by
  cases a with
  | null => exact ⟨_, _, by rw [encode], rfl⟩
  | bool value => cases value <;> exact ⟨_, _, by rw [encode], rfl⟩
  | int value =>
    rw [encode]
    exact numeric_head (decimal_ne_nil value) (decimal_numeric value)
  | double value =>
    rw [encode]
    obtain ⟨c, hc, -⟩ := value.fraction
    exact numeric_head (List.ne_nil_of_mem hc) value.numeric
  | string text => exact ⟨_, _, by rw [encode], rfl⟩
  | array items => exact ⟨_, _, by rw [encode], rfl⟩
  | object fields => exact ⟨_, _, by rw [encode], rfl⟩

theorem kind_eq {a b : Json} {s t : List Char} (h : encode a ++ s = encode b ++ t) :
    a.kind = b.kind := by
  obtain ⟨c, rest, ha, hc⟩ := encode_head a
  obtain ⟨d, other, hb, hd⟩ := encode_head b
  rw [ha, hb] at h
  obtain ⟨rfl, -⟩ := List.cons.inj h
  exact Option.some.inj (hc.symm.trans hd)

theorem ends_moreItems (items : List Json) (rest : List Char) :
    Ends (encodeMoreItems items ++ rest) := by
  cases items <;> exact ends_cons rfl

theorem ends_moreFields (fields : List (String × Json)) (rest : List Char) :
    Ends (encodeMoreFields fields ++ rest) := by
  rcases fields with _ | ⟨⟨name, value⟩, fields⟩ <;> exact ends_cons rfl

/-- No document begins like the end of an array. -/
theorem encode_ne_bracket (a : Json) (s t : List Char) : encode a ++ s ≠ ']' :: t := by
  intro h
  obtain ⟨c, rest, ha, hc⟩ := encode_head a
  rw [ha] at h
  obtain ⟨rfl, -⟩ := List.cons.inj h
  cases hc

mutual

/-- Where one document ends, and which it is, is told by the text. -/
theorem encode_cancel : ∀ (a : Json) {b : Json} {s t : List Char}, Ends s → Ends t →
    encode a ++ s = encode b ++ t → a = b ∧ s = t
  | null, b, _, _, _, _, h => by
    have hkind := kind_eq h
    cases b <;> first | exact ⟨rfl, List.append_cancel_left h⟩ | cases hkind
  | bool x, b, _, _, _, _, h => by
    have hkind := kind_eq h
    cases b with
    | bool y =>
      cases x <;> cases y <;> first | exact ⟨rfl, List.append_cancel_left h⟩ | cases h
    | _ => cases hkind
  | int x, b, _, _, hs, ht, h => by
    have hkind := kind_eq h
    cases b with
    | int y =>
      obtain ⟨htext, hend⟩ := numeric_cancel (decimal_numeric x) (decimal_numeric y) hs ht h
      exact ⟨congrArg int (decimal_injective htext), hend⟩
    | double y =>
      obtain ⟨htext, -⟩ := numeric_cancel (decimal_numeric x) y.numeric hs ht h
      exact absurd htext (decimal_ne_double x y)
    | _ => cases hkind
  | double x, b, _, _, hs, ht, h => by
    have hkind := kind_eq h
    cases b with
    | int y =>
      obtain ⟨htext, -⟩ := numeric_cancel x.numeric (decimal_numeric y) hs ht h
      exact absurd htext.symm (decimal_ne_double y x)
    | double y =>
      obtain ⟨htext, hend⟩ := numeric_cancel x.numeric y.numeric hs ht h
      obtain ⟨text, _, _⟩ := x
      obtain ⟨other, _, _⟩ := y
      obtain rfl : text = other := htext
      exact ⟨rfl, hend⟩
    | _ => cases hkind
  | string x, b, _, _, _, _, h => by
    have hkind := kind_eq h
    cases b with
    | string y =>
      obtain ⟨htext, hend⟩ := escaped_cancel (List.cons.inj h).2
      exact ⟨congrArg string (String.ext htext), hend⟩
    | _ => cases hkind
  | array items, b, _, _, _, _, h => by
    have hkind := kind_eq h
    cases b with
    | array others =>
      obtain ⟨rfl, hend⟩ := encodeItems_cancel items (List.cons.inj h).2
      exact ⟨rfl, hend⟩
    | _ => cases hkind
  | object fields, b, _, _, _, _, h => by
    have hkind := kind_eq h
    cases b with
    | object others =>
      obtain ⟨rfl, hend⟩ := encodeFields_cancel fields (List.cons.inj h).2
      exact ⟨rfl, hend⟩
    | _ => cases hkind

theorem encodeItems_cancel : ∀ (items : List Json) {others : List Json} {s t : List Char},
    encodeItems items ++ s = encodeItems others ++ t → items = others ∧ s = t
  | [], [], _, _, h => ⟨rfl, (List.cons.inj h).2⟩
  | [], b :: others, _, _, h => by
    rw [encodeItems, encodeItems, List.append_assoc] at h
    exact absurd h.symm (encode_ne_bracket _ _ _)
  | a :: items, [], _, _, h => by
    rw [encodeItems, encodeItems, List.append_assoc] at h
    exact absurd h (encode_ne_bracket _ _ _)
  | a :: items, b :: others, _, _, h => by
    rw [encodeItems, encodeItems, List.append_assoc, List.append_assoc] at h
    obtain ⟨rfl, hrest⟩ := encode_cancel a (ends_moreItems _ _) (ends_moreItems _ _) h
    obtain ⟨rfl, hend⟩ := encodeMoreItems_cancel items hrest
    exact ⟨rfl, hend⟩

theorem encodeMoreItems_cancel : ∀ (items : List Json) {others : List Json} {s t : List Char},
    encodeMoreItems items ++ s = encodeMoreItems others ++ t → items = others ∧ s = t
  | [], [], _, _, h => ⟨rfl, (List.cons.inj h).2⟩
  | [], b :: others, _, _, h => by cases h
  | a :: items, [], _, _, h => by cases h
  | a :: items, b :: others, _, _, h => by
    rw [encodeMoreItems, encodeMoreItems, List.cons_append, List.cons_append, List.append_assoc,
      List.append_assoc] at h
    obtain ⟨rfl, hrest⟩ := encode_cancel a (ends_moreItems _ _) (ends_moreItems _ _)
      (List.cons.inj h).2
    obtain ⟨rfl, hend⟩ := encodeMoreItems_cancel items hrest
    exact ⟨rfl, hend⟩

theorem encodeFields_cancel : ∀ (fields : List (String × Json)) {others : List (String × Json)}
    {s t : List Char}, encodeFields fields ++ s = encodeFields others ++ t →
    fields = others ∧ s = t
  | [], [], _, _, h => ⟨rfl, (List.cons.inj h).2⟩
  | [], (_, _) :: others, _, _, h => by cases h
  | (_, _) :: fields, [], _, _, h => by cases h
  | (name, a) :: fields, (other, b) :: others, _, _, h => by
    rw [encodeFields, encodeFields, List.cons_append, List.cons_append, List.append_assoc,
      List.append_assoc] at h
    obtain ⟨hname, hvalue⟩ := escaped_cancel (List.cons.inj h).2
    rw [List.cons_append, List.cons_append, List.append_assoc, List.append_assoc] at hvalue
    obtain ⟨rfl, hrest⟩ := encode_cancel a (ends_moreFields _ _) (ends_moreFields _ _)
      (List.cons.inj hvalue).2
    obtain ⟨rfl, hend⟩ := encodeMoreFields_cancel fields hrest
    obtain rfl := String.ext hname
    exact ⟨rfl, hend⟩

theorem encodeMoreFields_cancel : ∀ (fields : List (String × Json))
    {others : List (String × Json)} {s t : List Char},
    encodeMoreFields fields ++ s = encodeMoreFields others ++ t → fields = others ∧ s = t
  | [], [], _, _, h => ⟨rfl, (List.cons.inj h).2⟩
  | [], (_, _) :: others, _, _, h => by cases h
  | (_, _) :: fields, [], _, _, h => by cases h
  | (name, a) :: fields, (other, b) :: others, _, _, h => by
    rw [encodeMoreFields, encodeMoreFields, List.cons_append, List.cons_append, List.cons_append,
      List.cons_append, List.append_assoc, List.append_assoc] at h
    obtain ⟨hname, hvalue⟩ := escaped_cancel (List.cons.inj (List.cons.inj h).2).2
    rw [List.cons_append, List.cons_append, List.append_assoc, List.append_assoc] at hvalue
    obtain ⟨rfl, hrest⟩ := encode_cancel a (ends_moreFields _ _) (ends_moreFields _ _)
      (List.cons.inj hvalue).2
    obtain ⟨rfl, hend⟩ := encodeMoreFields_cancel fields hrest
    obtain rfl := String.ext hname
    exact ⟨rfl, hend⟩

end

theorem encode_injective {a b : Json} (h : encode a = encode b) : a = b :=
  (encode_cancel a (s := []) (t := []) ends_nil ends_nil (by rw [h])).1

mutual

/-- No object has two fields of one name. -/
def distinct : Json → Bool
  | array items => distinctItems items
  | object fields => decide (fields.map Prod.fst).Nodup && distinctFields fields
  | _ => true

def distinctItems : List Json → Bool
  | [] => true
  | item :: rest => distinct item && distinctItems rest

def distinctFields : List (String × Json) → Bool
  | [] => true
  | (_, value) :: rest => distinct value && distinctFields rest

end

/-- The order of the names. -/
def NameLE (a b : String × Json) : Prop := a.1 ≤ b.1

instance : DecidableRel NameLE := fun a b => inferInstanceAs (Decidable (a.1 ≤ b.1))

mutual

def canonical : Json → Json
  | array items => array (canonicalItems items)
  | object fields => object ((canonicalFields fields).insertionSort NameLE)
  | other => other

def canonicalItems : List Json → List Json
  | [] => []
  | item :: rest => canonical item :: canonicalItems rest

def canonicalFields : List (String × Json) → List (String × Json)
  | [] => []
  | (name, value) :: rest => (name, canonical value) :: canonicalFields rest

end

/-- Two documents that differ in the order of the fields of their objects. -/
inductive Same : Json → Json → Prop
  | refl (a : Json) : Same a a
  | trans {a b c : Json} : Same a b → Same b c → Same a c
  | moved {fields others : List (String × Json)} (distinct : (fields.map Prod.fst).Nodup)
      (perm : List.Perm fields others) : Same (object fields) (object others)
  | item {a b : Json} (before after : List Json) :
      Same a b → Same (array (before ++ a :: after)) (array (before ++ b :: after))
  | field {a b : Json} (before after : List (String × Json)) (name : String) :
      Same a b → Same (object (before ++ (name, a) :: after)) (object (before ++ (name, b) :: after))

theorem Same.symm {a b : Json} (h : Same a b) : Same b a := by
  induction h with
  | refl a => exact .refl a
  | trans _ _ ihab ihbc => exact ihbc.trans ihab
  | moved hdistinct hperm => exact .moved ((hperm.map Prod.fst).nodup hdistinct) hperm.symm
  | item before after _ ih => exact .item before after ih
  | field before after name _ ih => exact .field before after name ih

instance : IsTrans (String × Json) NameLE := ⟨fun _ _ _ => le_trans⟩

instance : Std.Total (α := String × Json) NameLE := ⟨fun a b => le_total a.1 b.1⟩

theorem canonicalItems_append (items others : List Json) :
    canonicalItems (items ++ others) = canonicalItems items ++ canonicalItems others := by
  induction items with
  | nil => rfl
  | cons item items ih =>
    rw [List.cons_append, canonicalItems, ih, canonicalItems, List.cons_append]

theorem canonicalFields_eq (fields : List (String × Json)) :
    canonicalFields fields = fields.map fun field => (field.1, canonical field.2) := by
  induction fields with
  | nil => rfl
  | cons field fields ih => rw [canonicalFields, ih, List.map_cons]

theorem canonicalFields_names (fields : List (String × Json)) :
    (canonicalFields fields).map Prod.fst = fields.map Prod.fst := by
  rw [canonicalFields_eq, List.map_map]
  rfl

/-- A sorted list of fields with distinct names is told by its fields. -/
theorem insertionSort_eq_of_perm {fields others : List (String × Json)}
    (hdistinct : (fields.map Prod.fst).Nodup) (hperm : List.Perm fields others) :
    fields.insertionSort NameLE = others.insertionSort NameLE := by
  have hsorted : List.Perm (fields.insertionSort NameLE) (others.insertionSort NameLE) :=
    (List.perm_insertionSort NameLE fields).trans
      (hperm.trans (List.perm_insertionSort NameLE others).symm)
  refine hsorted.eq_of_pairwise ?_ (List.pairwise_insertionSort NameLE fields)
    (List.pairwise_insertionSort NameLE others)
  intro a b ha hb hab hba
  have hmem : b ∈ fields :=
    hperm.mem_iff.mpr ((List.mem_insertionSort NameLE).mp hb)
  exact List.inj_on_of_nodup_map hdistinct ((List.mem_insertionSort NameLE).mp ha) hmem
    (le_antisymm hab hba)

theorem Same.canonical_eq {a b : Json} (h : Same a b) : canonical a = canonical b := by
  induction h with
  | refl => rfl
  | trans _ _ ihab ihbc => exact ihab.trans ihbc
  | moved hdistinct hperm =>
    rw [canonical, canonical]
    refine congrArg object (insertionSort_eq_of_perm ?_ ?_)
    · rwa [canonicalFields_names]
    · rw [canonicalFields_eq, canonicalFields_eq]
      exact hperm.map _
  | item before after _ ih =>
    rw [canonical, canonical, canonicalItems_append, canonicalItems_append, canonicalItems,
      canonicalItems, ih]
  | field before after name _ ih =>
    rw [canonical, canonical]
    simp only [canonicalFields_eq, List.map_append, List.map_cons, ih]

theorem same_items {items others : List Json} (h : List.Forall₂ Same items others)
    (before : List Json) : Same (array (before ++ items)) (array (before ++ others)) := by
  induction h generalizing before with
  | nil => exact .refl _
  | @cons a b items others hab _ ih =>
    have hrest := ih (before ++ [b])
    rw [List.append_assoc, List.append_assoc] at hrest
    exact (Same.item before items hab).trans hrest

theorem same_fields {fields : List (String × Json)} {f : Json → Json}
    (h : ∀ field ∈ fields, Same field.2 (f field.2)) (before : List (String × Json)) :
    Same (object (before ++ fields))
      (object (before ++ fields.map fun field => (field.1, f field.2))) := by
  induction fields generalizing before with
  | nil => exact .refl _
  | cons field fields ih =>
    obtain ⟨name, value⟩ := field
    have hrest := ih (fun other hother => h other (List.mem_cons_of_mem _ hother))
      (before ++ [(name, f value)])
    rw [List.append_assoc, List.append_assoc] at hrest
    exact (Same.field before fields name (h (name, value) (List.mem_cons_self ..))).trans hrest

mutual

theorem same_canonical : ∀ a : Json, a.distinct → Same a (canonical a)
  | null, _ => by rw [canonical]; exacts [.refl _, nofun, nofun]
  | bool _, _ => by rw [canonical]; exacts [.refl _, nofun, nofun]
  | int _, _ => by rw [canonical]; exacts [.refl _, nofun, nofun]
  | double _, _ => by rw [canonical]; exacts [.refl _, nofun, nofun]
  | string _, _ => by rw [canonical]; exacts [.refl _, nofun, nofun]
  | array items, h => by
    rw [canonical]
    exact same_items (same_canonicalItems items (by rwa [distinct] at h)) []
  | object fields, h => by
    rw [distinct, Bool.and_eq_true, decide_eq_true_eq] at h
    rw [canonical, canonicalFields_eq]
    refine (same_fields (same_canonicalFields fields h.2) []).trans ?_
    refine .moved ?_ (List.perm_insertionSort NameLE _).symm
    rw [List.nil_append, List.map_map]
    exact h.1

theorem same_canonicalItems : ∀ items : List Json, distinctItems items →
    List.Forall₂ Same items (canonicalItems items)
  | [], _ => .nil
  | item :: items, h => by
    rw [distinctItems, Bool.and_eq_true] at h
    exact .cons (same_canonical item h.1) (same_canonicalItems items h.2)

theorem same_canonicalFields : ∀ fields : List (String × Json), distinctFields fields →
    ∀ field ∈ fields, Same field.2 (canonical field.2)
  | [], _ => nofun
  | (name, value) :: fields, h => by
    rw [distinctFields, Bool.and_eq_true] at h
    intro field hfield
    rcases List.mem_cons.mp hfield with rfl | hrest
    · exact same_canonical value h.1
    · exact same_canonicalFields fields h.2 field hrest

end

theorem canonical_eq_iff {a b : Json} (ha : a.distinct) (hb : b.distinct) :
    canonical a = canonical b ↔ Same a b := by
  constructor
  · intro h
    exact (same_canonical a ha).trans (h ▸ (same_canonical b hb).symm)
  · intro h
    exact h.canonical_eq

/-- The text of the canonical form, which tells documents apart up to the order of fields. -/
def fingerprint (a : Json) : List Char := encode (canonical a)

theorem fingerprint_eq_iff {a b : Json} (ha : a.distinct) (hb : b.distinct) :
    fingerprint a = fingerprint b ↔ Same a b := by
  rw [← canonical_eq_iff ha hb]
  exact ⟨encode_injective, congrArg encode⟩

end Json

end Library
