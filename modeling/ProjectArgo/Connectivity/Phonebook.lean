import Mathlib
import ProjectArgo.Library.Json
import ProjectArgo.Library.Unfolding

/-!
# The phone's contacts

A page of the phone's book comes as vCards in one text. It is read as a whole or not at all, and
however the phone folds its lines: each card gives one contact, with the first distinct numbers of
its telephone properties.
-/
namespace ProjectArgo.Connectivity.Phonebook

open Library Library.JsonText Library.Unfolding

/-- Texts are read as their characters. -/
abbrev Text := List Char

structure Contact where
  name : Text := []
  numbers : List Text := []
  deriving DecidableEq

def page : ℕ := 40

def maxBytes : ℕ := 256 * 1024

def jsonBudget : ℕ := 16 * 1024

/-! ## Fields -/

def isControl (c : Char) : Bool := c.toNat < 32 || (127 ≤ c.toNat && c.toNat < 160)

def unescape : Text → Text
  | [] => []
  | [c] => if c = backslash ∨ isControl c then [] else [c]
  | c :: d :: rest =>
    if c = backslash then (if d = 'n' ∨ d = 'N' then ' ' else d) :: unescape rest
    else if isControl c then unescape (d :: rest)
    else c :: unescape (d :: rest)

def isDialled (c : Char) : Bool := c.isDigit || c = '*' || c = '#'

def dial (out : Text) (c : Char) : Option Text :=
  if isDialled c ∨ (c = '+' ∧ out = []) then some (out ++ [c])
  else if c ∈ [' ', '-', '(', ')', '.'] then some out
  else none

def telephone (value : Text) : Option Text :=
  let value := if "tel:".toList.isPrefixOf value then value.drop 4 else value
  (value.foldlM dial []).filter fun out => out ≠ [] ∧ out.length ≤ 64

def upper (text : Text) : Text := text.map Char.toUpper

def splitOnce (line : Text) : Option (Text × Text) :=
  if ':' ∈ line then some (line.takeWhile (· ≠ ':'), (line.dropWhile (· ≠ ':')).drop 1) else none

/-- The name of a property, without its group and its parameters. -/
def property (key : Text) : Text :=
  upper ((key.takeWhile (· ≠ ';')).reverse.takeWhile (· ≠ '.')).reverse

/-- What one property says of the contact, and whether it is the version that was asked for. -/
def field (key value : Text) (item : Contact) (version : Bool) : Contact × Bool :=
  if property key = "VERSION".toList then (item, value = "3.0".toList)
  else if property key = "FN".toList then
    ({ item with name := (unescape value).take 80 }, version)
  else if property key = "N".toList ∧ item.name = [] then
    ({ item with
      name := (unescape (value.map fun c => if c = ';' then ' ' else c)).take 80 }, version)
  else if property key = "TEL".toList ∧ item.numbers.length < 3 then
    match telephone value with
    | some number =>
      if number ∈ item.numbers then (item, version)
      else ({ item with numbers := item.numbers ++ [number] }, version)
    | none => (item, version)
  else (item, version)

/-! ## Cards -/

def Contact.json (contact : Contact) : Json :=
  .object [("name", .string (String.ofList contact.name)),
    ("numbers", .array (contact.numbers.map fun number => .string (String.ofList number)))]

def jsonSize (entries : List Contact) : ℕ :=
  (String.ofList (Json.array (entries.map Contact.json)).encode).utf8ByteSize

structure Reader where
  entries : List Contact := []
  contact : Option Contact := none
  version : Bool := false
  count : ℕ := 0
  deriving DecidableEq

def begins (key value : Text) : Bool :=
  upper key = "BEGIN".toList && upper value = "VCARD".toList

def ends (key value : Text) : Bool :=
  upper key = "END".toList && upper value = "VCARD".toList

def named (item : Contact) : Contact :=
  if item.name = [] then { item with name := "Unnamed contact".toList } else item

def finish (reader : Reader) (item : Contact) : Except String Reader :=
  if !reader.version then .error "Phone did not honor requested vCard 3.0 format"
  else if page < reader.count + 1 then .error "Phone exceeded requested contact count"
  else
    let entries := reader.entries ++ [named item]
    if jsonBudget < jsonSize entries then
      .error "Phonebook page exceeds control-state budget"
    else .ok { reader with entries := entries, contact := none, count := reader.count + 1 }

def read (reader : Reader) (line : Text) : Except String Reader :=
  match splitOnce line with
  | none => .ok reader
  | some (key, value) =>
    if begins key value then
      match reader.contact with
      | some _ => .error "Malformed nested vCard"
      | none => .ok { reader with contact := some {}, version := false }
    else if ends key value then
      match reader.contact with
      | none => .error "Malformed vCard ending"
      | some item => finish reader item
    else
      match reader.contact with
      | none => .ok reader
      | some item =>
        if "ENCODING=".toList <:+: upper key then
          .error "Encoded vCard fields are unsupported; no numbers imported"
        else
          let (item, version) := field key value item reader.version
          .ok { reader with contact := some item, version := version }

def parseText (text : Text) : Except String (List Contact × ℕ) :=
  match (unfold text).foldlM read {} with
  | .error error => .error error
  | .ok reader =>
    if reader.contact.isSome then .error "Incomplete vCard; no contacts imported"
    else .ok (reader.entries, reader.count)

def parse (bytes : ByteArray) : Except String (List Contact × ℕ) :=
  if maxBytes < bytes.size then .error "Phonebook exceeds size bound"
  else
    match String.fromUTF8? bytes with
    | none => .error "Phone did not return UTF-8 vCard 3.0"
    | some text => parseText text.toList

/-! ## The book -/

structure Snapshot where
  busy : Bool := false
  kind : String := ""
  detail : String := ""
  offset : ℕ := 0
  more : Bool := false
  entries : List Contact := []

/-- What an import gives once its bytes are there. -/
def imported (kind : String) (offset : ℕ) (bytes : ByteArray) : Except String Snapshot :=
  match parse bytes with
  | .error error => .error error
  | .ok (entries, count) => .ok {
      kind := kind, offset := offset, more := page ≤ count && offset < 1000,
      detail := toString entries.length ++
        " entries on this page; phone-provided order. Cached until disconnect or Clear."
      entries := entries }

structure Book where
  state : Snapshot := {}
  blocked : Bool := false

/-- The end of an import, with what its cleanup had to say. -/
def poll (book : Book) (result : Except String Snapshot) (cleanup : Option String) : Book :=
  let book :=
    match cleanup, result with
    | some error, _ =>
      { book with blocked := true, state := { book.state with entries := [], detail := error } }
    | none, .ok state => { book with state := state }
    | none, .error error =>
      { book with state := { book.state with entries := [], detail := error } }
  { book with state := { book.state with busy := false } }

/-! ## Numbers -/

/-- Digits, stars and hashes, with a plus in front or without. -/
def Valid (number : Text) : Prop :=
  number ≠ [] ∧ number.length ≤ 64 ∧
    (∀ c ∈ number.head?, isDialled c = true ∨ c = '+') ∧ ∀ c ∈ number.tail, isDialled c = true

theorem dial_eq_some {out next : Text} {c : Char} (h : dial out c = some next) :
    next = out ∨ next = out ++ [c] ∧ (isDialled c = true ∨ c = '+' ∧ out = []) := by
  unfold dial at h
  split_ifs at h with hdialled hskipped
  · exact Or.inr ⟨(Option.some.inj h).symm, hdialled⟩
  · exact Or.inl (Option.some.inj h).symm

/-- What has been dialled so far. -/
def Dialled (out : Text) : Prop :=
  (∀ c ∈ out.head?, isDialled c = true ∨ c = '+') ∧ ∀ c ∈ out.tail, isDialled c = true

theorem Dialled.dial {out next : Text} {c : Char} (h : Dialled out)
    (hnext : dial out c = some next) : Dialled next := by
  rcases dial_eq_some hnext with rfl | ⟨rfl, hc⟩
  · exact h
  · cases out with
    | nil =>
      refine ⟨?_, by simp⟩
      simpa using hc
    | cons d out =>
      refine ⟨h.1, ?_⟩
      have hdialled : isDialled c = true := hc.resolve_right fun hplus => nomatch hplus.2
      simp only [List.cons_append, List.tail_cons, List.mem_append, List.mem_singleton]
      rintro e (he | rfl)
      · exact h.2 e he
      · exact hdialled

theorem foldlM_dialled {value out result : Text} (h : Dialled out)
    (hresult : value.foldlM dial out = some result) : Dialled result := by
  induction value generalizing out with
  | nil =>
    cases hresult
    exact h
  | cons c value ih =>
    rw [List.foldlM_cons] at hresult
    obtain ⟨next, hnext, hrest⟩ := Option.bind_eq_some_iff.mp hresult
    exact ih (h.dial hnext) hrest

theorem telephone_valid {value number : Text} (h : telephone value = some number) :
    Valid number := by
  obtain ⟨hdialled, hbounds⟩ := Option.filter_eq_some_iff.mp h
  have hshape : Dialled number := foldlM_dialled ⟨by simp, by simp⟩ hdialled
  simp only [ne_eq, Bool.decide_and, Bool.and_eq_true, decide_eq_true_eq] at hbounds
  exact ⟨hbounds.1, hbounds.2, hshape⟩

/-! ## The cards of a text -/

/-- Whether a line holds a property of the given kind. -/
def matchesLine (kind : Text → Text → Bool) (line : Text) : Bool :=
  (splitOnce line).any fun (key, value) => kind key value

/-- The lines of the cards that have ended, and of the one that has not. -/
def scan (cards : List (List Text) × Option (List Text)) (line : Text) :
    List (List Text) × Option (List Text) :=
  match cards.2 with
  | none => if matchesLine begins line then (cards.1, some []) else cards
  | some card =>
    if matchesLine ends line then (cards.1 ++ [card], none) else (cards.1, some (card ++ [line]))

/-- The number of a telephone property. -/
def tel (line : Text) : Option Text :=
  match splitOnce line with
  | none => none
  | some (key, value) => if property key = "TEL".toList then telephone value else none

/-- The numbers of a contact are drawn from the telephone properties of its card. -/
structure Drawn (card : List Text) (contact : Contact) : Prop where
  within : contact.numbers.Sublist (card.filterMap tel)
  distinct : contact.numbers.Nodup
  three : contact.numbers.length ≤ 3

theorem Drawn.valid {card : List Text} {contact : Contact} (h : Drawn card contact) :
    ∀ number ∈ contact.numbers, Valid number := by
  intro number hnumber
  obtain ⟨line, -, hline⟩ := List.mem_filterMap.mp (h.within.subset hnumber)
  unfold tel at hline
  split at hline
  · exact nomatch hline
  · split_ifs at hline
    exact telephone_valid hline

theorem Drawn.start : Drawn [] {} := ⟨List.Sublist.refl [], List.nodup_nil, Nat.zero_le _⟩

theorem Drawn.same {card : List Text} {contact next : Contact} {line : Text}
    (h : Drawn card contact) (hnumbers : next.numbers = contact.numbers) :
    Drawn (card ++ [line]) next := by
  refine ⟨?_, hnumbers ▸ h.distinct, hnumbers ▸ h.three⟩
  rw [hnumbers, List.filterMap_append]
  exact h.within.trans (List.sublist_append_left _ _)

theorem Drawn.field {card : List Text} {contact : Contact} {line key value : Text}
    (h : Drawn card contact) (hline : splitOnce line = some (key, value)) (version : Bool) :
    Drawn (card ++ [line]) (field key value contact version).1 := by
  unfold Phonebook.field
  split_ifs with hversion hname hfamily htel
  · exact h.same rfl
  · exact h.same rfl
  · exact h.same rfl
  · cases hnumber : telephone value with
    | none => exact h.same rfl
    | some number =>
      dsimp only
      split_ifs with hknown
      · exact h.same rfl
      · have htold : tel line = some number := by
          rw [tel, hline]
          exact (if_pos htel.1).trans hnumber
        refine ⟨?_, ?_, ?_⟩
        · rw [List.filterMap_append, List.filterMap_cons_some htold]
          exact h.within.append (List.Sublist.refl _)
        · rw [List.nodup_append]
          refine ⟨h.distinct, by simp, ?_⟩
          rintro a ha b hb rfl
          rw [List.mem_singleton.mp hb] at ha
          exact hknown ha
        · rw [List.length_append]
          exact htel.2
  · exact h.same rfl

/-! ## Reading -/

/-- A reader and the cards it has read. -/
structure Reads (cards : List (List Text) × Option (List Text)) (reader : Reader) : Prop where
  entries : List.Forall₂ Drawn cards.1 reader.entries
  contact : Option.Rel Drawn cards.2 reader.contact
  count : reader.entries.length = reader.count
  page : reader.count ≤ page

theorem Reads.start : Reads ([], none) {} :=
  ⟨List.Forall₂.nil, Option.Rel.none, rfl, Nat.zero_le _⟩

theorem named_numbers (item : Contact) : (named item).numbers = item.numbers := by
  unfold named
  split_ifs
  · rfl
  · rfl

theorem Reads.finish {cards : List (List Text)} {card : List Text} {reader next : Reader}
    {item : Contact} (h : Reads (cards, some card) reader) (hitem : reader.contact = some item)
    (hnext : finish reader item = .ok next) : Reads (cards ++ [card], none) next := by
  have hdrawn : Drawn card item := by
    have hcontact := h.contact
    rw [hitem] at hcontact
    cases hcontact with
    | some hdrawn => exact hdrawn
  unfold Phonebook.finish at hnext
  split at hnext
  · exact nomatch hnext
  split at hnext
  · exact nomatch hnext
  rename_i hpage
  dsimp only at hnext
  split at hnext
  · exact nomatch hnext
  cases hnext
  have hnamed : Drawn card (named item) :=
    ⟨named_numbers item ▸ hdrawn.within, named_numbers item ▸ hdrawn.distinct,
      named_numbers item ▸ hdrawn.three⟩
  refine ⟨?_, Option.Rel.none, ?_, ?_⟩
  · exact List.rel_append h.entries (List.Forall₂.cons hnamed List.Forall₂.nil)
  · simp only [List.length_append, h.count]
    rfl
  · exact not_lt.mp hpage

theorem Reads.skip {cards : List (List Text) × Option (List Text)} {reader : Reader} {line : Text}
    (h : Reads cards reader) (hbegins : matchesLine begins line = false)
    (hends : matchesLine ends line = false)
    (hdrawn : ∀ card item, Drawn card item → reader.contact = some item →
      Drawn (card ++ [line]) item) : Reads (scan cards line) reader := by
  obtain ⟨closed, card⟩ := cards
  have hcontact := h.contact
  cases card with
  | none =>
    have hscan : scan (closed, none) line = (closed, none) := by
      simp only [scan, hbegins, Bool.false_eq_true, if_false]
    rw [hscan]
    exact h
  | some card =>
    have hscan : scan (closed, some card) line = (closed, some (card ++ [line])) := by
      simp only [scan, hends, Bool.false_eq_true, if_false]
    rw [hscan]
    refine ⟨h.entries, ?_, h.count, h.page⟩
    cases hitem : reader.contact with
    | none =>
      rw [hitem] at hcontact
      exact nomatch hcontact
    | some item =>
      rw [hitem] at hcontact
      cases hcontact with
      | some hcard => exact Option.Rel.some (hdrawn card item hcard hitem)

theorem Reads.read {cards : List (List Text) × Option (List Text)} {reader next : Reader}
    {line : Text} (h : Reads cards reader) (hnext : read reader line = .ok next) :
    Reads (scan cards line) next := by
  unfold Phonebook.read at hnext
  have hcontact := h.contact
  cases hline : splitOnce line with
  | none =>
    rw [hline] at hnext
    cases hnext
    have hkind (kind : Text → Text → Bool) : matchesLine kind line = false := by
      rw [matchesLine, hline]
      rfl
    exact h.skip (hkind begins) (hkind ends) fun card item hcard _ => hcard.same rfl
  | some pair =>
    obtain ⟨key, value⟩ := pair
    have hkind (kind : Text → Text → Bool) : matchesLine kind line = kind key value := by
      rw [matchesLine, hline]
      rfl
    rw [hline] at hnext
    dsimp only at hnext
    obtain ⟨closed, card⟩ := cards
    cases hbegins : begins key value with
    | true =>
      rw [if_pos hbegins] at hnext
      cases hitem : reader.contact with
      | some item =>
        rw [hitem] at hnext
        exact nomatch hnext
      | none =>
        rw [hitem] at hnext hcontact
        cases hnext
        cases hcontact
        have hscan : scan (closed, none) line = (closed, some []) := by
          simp only [scan, hkind, hbegins, if_true]
        rw [hscan]
        exact ⟨h.entries, Option.Rel.some Drawn.start, h.count, h.page⟩
    | false =>
      rw [if_neg (by simp [hbegins])] at hnext
      cases hends : ends key value with
      | true =>
        rw [if_pos hends] at hnext
        cases hitem : reader.contact with
        | none =>
          rw [hitem] at hnext
          exact nomatch hnext
        | some item =>
          rw [hitem] at hnext hcontact
          cases hcontact with
          | @some card _ hcard =>
            have hscan : scan (closed, some card) line = (closed ++ [card], none) := by
              simp only [scan, hkind, hends, if_true]
            rw [hscan]
            exact h.finish hitem hnext
      | false =>
        rw [if_neg (by simp [hends])] at hnext
        have hb : matchesLine begins line = false := (hkind begins).trans hbegins
        have he : matchesLine ends line = false := (hkind ends).trans hends
        cases hitem : reader.contact with
        | none =>
          rw [hitem] at hnext
          cases hnext
          apply h.skip hb he
          intro card item _ hsome
          rw [hitem] at hsome
          exact nomatch hsome
        | some item =>
          rw [hitem] at hnext hcontact
          dsimp only at hnext
          split at hnext
          · exact nomatch hnext
          cases hnext
          cases hcontact with
          | @some card _ hcard =>
            have hscan : scan (closed, some card) line = (closed, some (card ++ [line])) := by
              simp only [scan, he, Bool.false_eq_true, if_false]
            rw [hscan]
            exact ⟨h.entries, Option.Rel.some (hcard.field hline _), h.count, h.page⟩

theorem foldlM_reads {lines : List Text} {cards : List (List Text) × Option (List Text)}
    {reader result : Reader} (h : Reads cards reader)
    (hresult : lines.foldlM read reader = .ok result) : Reads (lines.foldl scan cards) result := by
  induction lines generalizing cards reader with
  | nil =>
    cases hresult
    exact h
  | cons line lines ih =>
    rw [List.foldlM_cons] at hresult
    cases hline : read reader line with
    | error error =>
      rw [hline] at hresult
      exact nomatch hresult
    | ok next =>
      rw [hline] at hresult
      exact ih (h.read hline) hresult

/-- The cards of a text, the lines of each in order. -/
def cardsOf (text : Text) : List (List Text) := ((unfold text).foldl scan ([], none)).1

theorem parseText_reads {text : Text} {entries : List Contact} {count : ℕ}
    (h : parseText text = .ok (entries, count)) :
    List.Forall₂ Drawn (cardsOf text) entries ∧ entries.length = count ∧ count ≤ page := by
  unfold parseText at h
  cases hread : (unfold text).foldlM read {} with
  | error error =>
    rw [hread] at h
    exact nomatch h
  | ok reader =>
    have hreads := foldlM_reads Reads.start hread
    rw [hread] at h
    dsimp only at h
    split at h
    · exact nomatch h
    cases h
    exact ⟨hreads.entries, hreads.count, hreads.page⟩

/-! ## Results -/

/-- The octets of a text. -/
def encode (text : Text) : ByteArray := (String.ofList text).toByteArray

theorem fromUTF8?_toByteArray (text : String) : String.fromUTF8? text.toByteArray = some text := by
  rw [String.fromUTF8?, dif_pos text.isValidUTF8]
  rfl

theorem size_encode (text : Text) : (encode text).size = (text.map Char.utf8Size).sum := by
  simp [encode, List.utf8Encode, List.length_flatMap]

theorem parse_encode {text : Text} (h : (encode text).size ≤ maxBytes) :
    parse (encode text) = parseText text := by
  rw [parse, if_neg (not_lt.mpr h), encode, fromUTF8?_toByteArray]
  simp only [String.toList_ofList]

theorem Folded.size_le {text folded : Text} (h : Folded text folded) :
    (encode text).size ≤ (encode folded).size := by
  induction h with
  | refl => exact le_rfl
  | fold _ _ _ ih =>
    apply ih.trans
    simp only [size_encode, fold, List.map_append, List.map_cons, List.sum_append, List.sum_cons]
    omega

theorem parse_folded {text folded : Text} (h : Folded text folded)
    (hsize : (encode folded).size ≤ maxBytes) : parse (encode folded) = parse (encode text) := by
  rw [parse_encode hsize, parse_encode ((Folded.size_le h).trans hsize), parseText, parseText,
    h.unfold_eq]

theorem poll_error {bytes : ByteArray} {error : String} (h : parse bytes = .error error)
    (book : Book) (kind : String) (offset : ℕ) (cleanup : Option String) :
    (poll book (imported kind offset bytes) cleanup).state.entries = [] := by
  have himported : imported kind offset bytes = .error error := by
    rw [imported, h]
  rw [himported]
  cases cleanup with
  | none => rfl
  | some error => rfl

theorem parse_reads {bytes : ByteArray} {entries : List Contact} {count : ℕ}
    (h : parse bytes = .ok (entries, count)) : ∃ text, String.fromUTF8? bytes = some text ∧
      List.Forall₂ Drawn (cardsOf text.toList) entries ∧ entries.length = count ∧
        count ≤ page := by
  unfold parse at h
  split at h
  · exact nomatch h
  cases htext : String.fromUTF8? bytes with
  | none =>
    rw [htext] at h
    exact nomatch h
  | some text =>
    rw [htext] at h
    exact ⟨text, rfl, parseText_reads h⟩

/-- The contacts are those of the unfolded text as long as its folds fit, there are none after an
error, and there is one for every card, with at most three distinct numbers of its telephone
properties in their order. -/
theorem phonebook_parsing :
    (∀ text folded : Text, Folded text folded → (encode folded).size ≤ maxBytes →
      parse (encode folded) = parse (encode text)) ∧
    (∀ bytes error, parse bytes = .error error → ∀ book kind offset cleanup,
      (poll book (imported kind offset bytes) cleanup).state.entries = []) ∧
    ∀ bytes entries count, parse bytes = .ok (entries, count) →
      ∃ text, String.fromUTF8? bytes = some text ∧ entries.length = count ∧ count ≤ page ∧
        List.Forall₂ (fun card contact =>
          contact.numbers.Sublist (card.filterMap tel) ∧ contact.numbers.Nodup ∧
            contact.numbers.length ≤ 3 ∧ ∀ number ∈ contact.numbers, Valid number)
          (cardsOf text.toList) entries := by
  refine ⟨fun text folded => parse_folded, fun bytes error => poll_error, ?_⟩
  intro bytes entries count h
  obtain ⟨text, htext, hdrawn, hlength, hcount⟩ := parse_reads h
  refine ⟨text, htext, hlength, hcount, hdrawn.imp ?_⟩
  intro card contact hcontact
  exact ⟨hcontact.within, hcontact.distinct, hcontact.three, hcontact.valid⟩

/-- A card with one number twice, folded within the name of a property. -/
theorem phonebook_parsing_folded :
    parse (encode (fold "BEGIN:VCARD\nVERSION:3.0\nT".toList
      "EL:12-3\nTEL:tel:123\nEND:VCARD".toList ' ')) =
        parse (encode "BEGIN:VCARD\nVERSION:3.0\nTEL:12-3\nTEL:tel:123\nEND:VCARD".toList) ∧
      ∀ entries count, parse (encode
        "BEGIN:VCARD\nVERSION:3.0\nTEL:12-3\nTEL:tel:123\nEND:VCARD".toList) =
          .ok (entries, count) → entries.length = count := by
  constructor
  · apply phonebook_parsing.1
    · have hjoined : "BEGIN:VCARD\nVERSION:3.0\nTEL:12-3\nTEL:tel:123\nEND:VCARD".toList =
          "BEGIN:VCARD\nVERSION:3.0\nT".toList ++ "EL:12-3\nTEL:tel:123\nEND:VCARD".toList := by
        decide +kernel
      rw [hjoined]
      exact .fold .refl ⟨by decide +kernel, by decide +kernel, by decide +kernel⟩ (Or.inl rfl)
    · rw [size_encode]
      decide +kernel
  · intro entries count h
    obtain ⟨text, -, hlength, -⟩ := phonebook_parsing.2.2 _ entries count h
    exact hlength

example : parseText "BEGIN:VCARD\nVERSION:3.0\nTEL:12-3\nTEL:tel:123\nEND:VCARD".toList =
    .ok ([⟨"Unnamed contact".toList, ["123".toList]⟩], 1) := by
  decide +kernel

/-! ## A text as long as the bound -/

/-- A text of one line that is no property gives no contacts. -/
theorem parse_plain {text : Text} (hne : text ≠ []) (hfeed : '\n' ∉ text) (hcolon : ':' ∉ text)
    (hsize : (encode text).size ≤ maxBytes) : parse (encode text) = .ok ([], 0) := by
  have hlines : lines text = [text] := by
    have hglue := lines_append [] hfeed (by simp)
    rwa [List.append_nil, lines, glue, if_neg hne] at hglue
  have hunfold : unfold text = [text] := by
    rw [unfold, hlines]
    cases text with
    | nil => exact absurd rfl hne
    | cons c rest => exact if_neg fun h => h.2 rfl
  have hread : read {} text = .ok {} := by
    rw [read, splitOnce, if_neg hcolon]
  rw [parse_encode hsize, parseText, hunfold, List.foldlM_cons, hread]
  rfl

theorem size_xs (n : ℕ) : (encode (List.replicate n 'x')).size = n := by
  rw [size_encode, List.map_replicate, List.sum_replicate_nat]
  exact Nat.mul_one n

theorem folded_xs (n : ℕ) :
    Folded (List.replicate (n + 1) 'x') (fold ['x'] (List.replicate n 'x') ' ') :=
  @Folded.fold _ ['x'] (List.replicate n 'x') ' ' Folded.refl ⟨by simp, by simp, by simp⟩
    (Or.inl rfl)

theorem size_folded_xs (n : ℕ) : (encode (fold ['x'] (List.replicate n 'x') ' ')).size = n + 4 := by
  have hsizes : Char.utf8Size '\r' = 1 ∧ Char.utf8Size '\n' = 1 ∧ Char.utf8Size ' ' = 1 ∧
      Char.utf8Size 'x' = 1 := by
    decide
  have hrest := size_xs n
  rw [size_encode] at hrest
  simp only [size_encode, fold, List.map_append, List.map_cons, List.map_nil, List.sum_append,
    List.sum_cons, List.sum_nil]
  omega

/-- A text that fits and its fold that does not. -/
theorem parse_xs {n : ℕ} (hn : n + 1 = maxBytes) :
    parse (encode (List.replicate (n + 1) 'x')) = .ok ([], 0) ∧
      parse (encode (fold ['x'] (List.replicate n 'x') ' ')) =
        .error "Phonebook exceeds size bound" := by
  constructor
  · apply parse_plain
    · simp
    · intro hmem
      exact absurd (List.eq_of_mem_replicate hmem) (by decide)
    · intro hmem
      exact absurd (List.eq_of_mem_replicate hmem) (by decide)
    · rw [size_xs, hn]
  · rw [parse, if_pos]
    rw [size_folded_xs]
    omega

theorem fold_refused : ¬∀ text folded : Text, Folded text folded →
    parse (encode folded) = parse (encode text) := by
  intro h
  have hn : maxBytes - 1 + 1 = maxBytes := Nat.sub_add_cancel (by decide)
  obtain ⟨hplain, hrefused⟩ := parse_xs hn
  have hsame := h _ _ (folded_xs (maxBytes - 1))
  rw [hplain, hrefused] at hsame
  exact nomatch hsame

end ProjectArgo.Connectivity.Phonebook
