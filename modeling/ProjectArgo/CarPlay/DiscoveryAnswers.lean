import Mathlib
import ProjectArgo.CarPlay.Discovery

/-!
# What an answer says

The octets of a datagram spell names and records, whatever the parser makes of them. The parser
takes exactly the names that are short enough, in plain letters and found in few steps, and its
result is the first usable address under the name that was asked for.
-/
namespace ProjectArgo.CarPlay.Discovery

open Library.Bytes

/-! ## Names -/

/-- At a place of the datagram stands a name with these labels; it is read in so many steps, and
what follows stands at the last place. There is no such name where the pointers run in a cycle. -/
inductive Spells (data : List UInt8) : ℕ → List (List UInt8) → ℕ → ℕ → Prop
  | root {position : ℕ} : data[position]? = some 0 → Spells data position [] 1 (position + 1)
  | label {position steps next : ℕ} {size : UInt8} {label : List UInt8}
      {labels : List (List UInt8)} : data[position]? = some size →
      0 < size.toNat → size.toNat ≤ 63 → get data (position + 1) size.toNat = some label →
      Spells data (position + 1 + size.toNat) labels steps next →
      Spells data position (label :: labels) (steps + 1) next
  | pointer {position steps next : ℕ} {high low : UInt8} {labels : List (List UInt8)} :
      data[position]? = some high → 192 ≤ high.toNat → data[position + 1]? = some low →
      Spells data (high.toNat % 64 * 256 + low.toNat) labels steps next →
      Spells data position labels (steps + 1) (position + 2)

/-- The octets of the labels with their lengths. -/
def extent (labels : List (List UInt8)) : ℕ := (labels.map fun label => label.length + 1).sum

/-- With the root, a name has at most 255 octets. -/
def Short (labels : List (List UInt8)) (_ : ℕ) : Prop := extent labels + 1 ≤ 255

/-- The names that the parser takes: at most 31 labels and pointers, and in plain letters. -/
def Plain (labels : List (List UInt8)) (steps : ℕ) : Prop :=
  extent labels + 1 ≤ 255 ∧ steps ≤ 32 ∧ ∀ label ∈ labels, is_ascii label

instance (labels : List (List UInt8)) (steps : ℕ) : Decidable (Short labels steps) := by
  unfold Short
  infer_instance

instance (labels : List (List UInt8)) (steps : ℕ) : Decidable (Plain labels steps) := by
  unfold Plain
  infer_instance

theorem get_eq_some {data value : List UInt8} {first size : ℕ} :
    get data first size = some value ↔
      first + size ≤ data.length ∧ slice data first (first + size) = value := by
  unfold get
  split
  · rename_i h
    simp [h]
  · rename_i h
    simp [h]

theorem length_get {data value : List UInt8} {first size : ℕ}
    (h : get data first size = some value) : value.length = size := by
  obtain ⟨hin, rfl⟩ := get_eq_some.mp h
  rw [length_slice]
  omega

theorem Spells.position_lt {data : List UInt8} {position steps next : ℕ}
    {labels : List (List UInt8)} (spells : Spells data position labels steps next) :
    position < data.length := by
  cases spells with
  | root h => exact (List.getElem?_eq_some_iff.mp h).1
  | label h => exact (List.getElem?_eq_some_iff.mp h).1
  | pointer h => exact (List.getElem?_eq_some_iff.mp h).1

theorem character_ascii : ∀ n < 128,
    (Char.ofNat n).utf8Size = 1 ∧ (Char.ofNat n).toUInt8 = UInt8.ofNat n := by
  decide +kernel

/-- Plain letters are valid text. -/
theorem from_utf8_of_ascii {text : List UInt8} (h : is_ascii text) :
    from_utf8 text = some text := by
  apply if_pos
  have hall : ∀ octet ∈ text, octet < 128 := by simpa [is_ascii] using h
  clear h
  induction text using List.reverseRecOn with
  | nil => exact ByteArray.isValidUTF8_empty
  | append_singleton text octet ih =>
    have hoctet : octet.toNat < 128 := UInt8.lt_iff_toNat_lt.mp (hall octet (by simp))
    obtain ⟨hsize, hvalue⟩ := character_ascii octet.toNat hoctet
    have hpush := (ih fun other hother => hall other (by simp [hother])).push hsize
    rw [hvalue, UInt8.ofNat_toNat] at hpush
    convert hpush using 1
    simp [ByteArray.push]

theorem from_utf8_eq_some {bytes text : List UInt8} (h : from_utf8 bytes = some text) :
    text = bytes := by
  unfold from_utf8 at h
  split at h
  · exact (Option.some.inj h).symm
  · cases h

theorem pointer_iff : ∀ size < 256, size &&& 0xc0 = 0xc0 ↔ 192 ≤ size := by decide +kernel

/-- The fourteen low bits of a pointer. -/
theorem destination_eq (high low : UInt8) :
    (high.toNat &&& 0x3f) <<< 8 ||| low.toNat = high.toNat % 64 * 256 + low.toNat := by
  have hmask : high.toNat &&& 0x3f = high.toNat % 64 := Nat.and_two_pow_sub_one_eq_mod high.toNat 6
  rw [hmask, ← Nat.shiftLeft_add_eq_or_of_lt low.toNat_lt, Nat.shiftLeft_eq]

@[simp] theorem extent_nil : extent [] = 0 := rfl

@[simp] theorem extent_cons (label : List UInt8) (labels : List (List UInt8)) :
    extent (label :: labels) = label.length + 1 + extent labels := by
  simp [extent]

/-- What the loop gives was spelled, from where it stands. -/
theorem spells_of_go {data text : List UInt8} {turns position offset next bytes : ℕ}
    {followed : Bool} {labels : List (List UInt8)} (hbytes : bytes ≤ 254)
    (h : name.go data turns position offset followed labels bytes = some (text, next)) :
    ∃ more steps last, Spells data position more steps last ∧ steps ≤ turns ∧
      (∀ label ∈ more, is_ascii label) ∧ bytes + extent more ≤ 254 ∧
      text = join (labels ++ more.map to_ascii_lowercase) ∧
      next = if followed then offset else last := by
  induction turns generalizing position offset followed labels bytes with
  | zero => simp [name.go] at h
  | succ turns ih =>
    simp only [name.go, Option.bind_eq_bind, Option.bind_eq_some_iff] at h
    obtain ⟨size, hsize, h⟩ := h
    split at h
    · rename_i hpointer
      obtain ⟨low, hlow, h⟩ := Option.bind_eq_some_iff.mp h
      have hhigh := (pointer_iff size.toNat size.toNat_lt).mp hpointer
      rw [destination_eq] at h
      split at h
      · obtain ⟨more, steps, last, spells, hsteps, hascii, hextent, htext, hnext⟩ := ih hbytes h
        refine ⟨more, steps + 1, position + 2, .pointer hsize hhigh hlow spells, by omega, hascii,
          hextent, htext, ?_⟩
        rename_i hfollowed
        simpa [hfollowed] using hnext
      · obtain ⟨more, steps, last, spells, hsteps, hascii, hextent, htext, hnext⟩ := ih hbytes h
        refine ⟨more, steps + 1, position + 2, .pointer hsize hhigh hlow spells, by omega, hascii,
          hextent, htext, ?_⟩
        rename_i hfollowed
        simpa [hfollowed] using hnext
    · split at h
      · cases h
      · split at h
        · rename_i hroot
          simp only [Option.some.injEq, Prod.mk.injEq] at h
          obtain ⟨rfl, rfl⟩ := h
          have hzero : size = 0 := UInt8.toNat_inj.mp hroot
          exact ⟨[], 1, position + 1, .root (hzero ▸ hsize), by omega, by simp, by simpa, by simp,
            rfl⟩
        · rename_i hlarge hroot
          split at h
          · cases h
          · rename_i hshort
            obtain ⟨own, hown, htext⟩ := Option.bind_eq_some_iff.mp h
            obtain ⟨label, hlabel, h⟩ := Option.bind_eq_some_iff.mp htext
            cases from_utf8_eq_some hlabel
            split at h
            · cases h
            · rename_i hplain
              have hlength := length_get hown
              obtain ⟨more, steps, last, spells, hsteps, hascii, hextent, htext, hnext⟩ :=
                ih (by omega) h
              refine ⟨own :: more, steps + 1, last,
                .label hsize (by omega) (by omega) hown spells, by omega, ?_, ?_, ?_, hnext⟩
              · intro other hother
                rcases List.mem_cons.mp hother with rfl | hother
                · exact not_not.mp hplain
                · exact hascii other hother
              · rw [extent_cons]
                omega
              · simpa using htext

/-- What is spelled, short and plain, is found by a loop that has the turns for it. -/
theorem go_of_spells {data : List UInt8} {position steps last : ℕ} {more : List (List UInt8)}
    (spells : Spells data position more steps last) (turns offset bytes : ℕ) (followed : Bool)
    (labels : List (List UInt8)) (hsteps : steps ≤ turns) (hascii : ∀ label ∈ more, is_ascii label)
    (hextent : bytes + extent more ≤ 254) :
    name.go data turns position offset followed labels bytes =
      some (join (labels ++ more.map to_ascii_lowercase), if followed then offset else last) := by
  induction spells generalizing turns offset bytes followed labels with
  | root h =>
    obtain ⟨turns, rfl⟩ : ∃ rest, turns = rest + 1 := ⟨turns - 1, by omega⟩
    simp [name.go, h]
  | @label position steps next size label rest hsize hpos hmax hlabel spells ih =>
    obtain ⟨turns, rfl⟩ : ∃ rest, turns = rest + 1 := ⟨turns - 1, by omega⟩
    have hnot : ¬size.toNat &&& 0xc0 = 0xc0 := by
      rw [pointer_iff size.toNat size.toNat_lt]
      omega
    have hown : is_ascii label := hascii label (by simp)
    have hlength := length_get hlabel
    rw [extent_cons] at hextent
    have hrest := ih turns offset (bytes + (size.toNat + 1)) followed
      (labels ++ [to_ascii_lowercase label]) (by omega)
      (fun other hother => hascii other (by simp [hother])) (by omega)
    simp only [name.go, hsize, Option.bind_eq_bind, Option.bind_some, if_neg hnot, hlabel,
      from_utf8_of_ascii hown, hown]
    rw [if_neg (by omega), if_neg (by omega), if_neg (by omega), if_neg (by simp), hrest]
    simp
  | @pointer position steps next high low rest hhigh hmin hlow spells ih =>
    obtain ⟨turns, rfl⟩ : ∃ rest, turns = rest + 1 := ⟨turns - 1, by omega⟩
    have hpointer : high.toNat &&& 0xc0 = 0xc0 :=
      (pointer_iff high.toNat high.toNat_lt).mpr hmin
    simp only [name.go, hhigh, Option.bind_eq_bind, Option.bind_some, hlow]
    rw [if_pos hpointer, destination_eq]
    cases followed with
    | true => simpa using ih turns offset bytes true labels (by omega) hascii hextent
    | false => simpa using ih turns (position + 1 + 1) bytes true labels (by omega) hascii hextent

/-- The parser takes the plain names. -/
theorem name_eq_some {data text : List UInt8} {offset next : ℕ} :
    name data offset = some (text, next) ↔ ∃ labels steps, Spells data offset labels steps next ∧
      Plain labels steps ∧ text = join (labels.map to_ascii_lowercase) := by
  constructor
  · intro h
    obtain ⟨labels, steps, last, spells, hsteps, hascii, hextent, htext, hnext⟩ :=
      spells_of_go (by omega) h
    cases hnext
    exact ⟨labels, steps, spells, ⟨by omega, hsteps, hascii⟩, htext⟩
  · rintro ⟨labels, steps, spells, ⟨hextent, hsteps, hascii⟩, rfl⟩
    have hgo := go_of_spells spells 32 offset 0 false [] hsteps hascii (by omega)
    simpa [name] using hgo

/-! ### The name that was asked for -/

/-- The labels of the accessory. -/
def linkLabels : List (List UInt8) := [utf8 "livi-link", utf8 "local"]

/-- Labels are compared ignoring ASCII case. -/
def Named (labels : List (List UInt8)) : Prop := labels.map to_ascii_lowercase = linkLabels

instance (labels : List (List UInt8)) : Decidable (Named labels) := by
  unfold Named
  infer_instance

theorem dot_linkName : ∀ i < LINK_NAME.length, LINK_NAME[i]? = some 46 → i = 9 := by
  decide +kernel

theorem dot_not_mem_local : (46 : UInt8) ∉ utf8 "local" := by decide +kernel

/-- With dots between them the labels read as the name of the accessory, where they are its labels
or its name in one piece. -/
theorem join_eq_linkName {labels : List (List UInt8)} :
    join labels = LINK_NAME ↔ labels = linkLabels ∨ labels = [LINK_NAME] := by
  constructor
  · intro h
    match labels with
    | [] => exact absurd h (by decide +kernel)
    | [label] => exact .inr (congrArg (fun text => [text]) h)
    | label :: other :: rest =>
      left
      have hjoin : label ++ 46 :: join (other :: rest) = LINK_NAME := h
      have hdot : LINK_NAME[label.length]? = some 46 := by
        rw [← hjoin]
        simp
      have hlength : label.length = 9 :=
        dot_linkName _ (List.getElem?_eq_some_iff.mp hdot).1 hdot
      have hname : LINK_NAME = utf8 "livi-link" ++ 46 :: utf8 "local" := by decide +kernel
      rw [hname] at hjoin
      have hsplit : utf8 "livi-link" = label ∧ 46 :: utf8 "local" = 46 :: join (other :: rest) :=
        (List.append_inj hjoin.symm) (by rw [hlength]; decide +kernel)
      obtain ⟨rfl, htail⟩ := hsplit
      have hlocal : utf8 "local" = join (other :: rest) := (List.cons.inj htail).2
      match rest with
      | [] =>
        rw [linkLabels, hlocal]
        rfl
      | third :: rest =>
        refine absurd ?_ dot_not_mem_local
        rw [hlocal]
        simp [join]
  · rintro (rfl | rfl)
    · decide +kernel
    · rfl

/-! ## Records -/

structure Record where
  labels : List (List UInt8)
  kind : ℕ
  class_ : ℕ
  ttl : ℕ
  value : List UInt8
  deriving DecidableEq

/-- An address that a host of the network can have. -/
def Ipv4Addr.usable (address : Ipv4Addr) : Bool :=
  !address.is_unspecified && !address.is_multicast && !address.is_loopback && !address.is_broadcast

/-- What a record gives that says `named` of its name: an address record of the class of the network
that has not run out. The top bit of the class is no part of it. -/
def addressOf (named : Prop) [Decidable named] (kind class_ ttl : ℕ) (value : List UInt8) :
    Option Ipv4Addr :=
  if named ∧ kind = 1 ∧ class_ % 0x8000 = 1 ∧ ttl ≠ 0 then
    match value with
    | [a, b, c, d] => if (Ipv4Addr.mk a b c d).usable then some ⟨a, b, c, d⟩ else none
    | _ => none
  else none

/-- The usable address of the accessory, if the record has it. -/
def Record.address? (record : Record) : Option Ipv4Addr :=
  addressOf (Named record.labels) record.kind record.class_ record.ttl record.value

variable (Fine : List (List UInt8) → ℕ → Prop) (data : List UInt8)

/-- A record stands at a place, under a name that is fine; the next one follows it. -/
def RecordAt (position : ℕ) (record : Record) (next : ℕ) : Prop :=
  ∃ steps last, Spells data position record.labels steps last ∧ Fine record.labels steps ∧
    word data last = some record.kind ∧ word data (last + 2) = some record.class_ ∧
    (get data (last + 4) 4).map ofBigEndian = some record.ttl ∧
    word data (last + 8) = some record.value.length ∧
    get data (last + 10) record.value.length = some record.value ∧
    next = last + 10 + record.value.length

def RecordsAt : ℕ → List Record → ℕ → Prop
  | position, [], next => next = position
  | position, record :: more, next =>
    ∃ middle, RecordAt Fine data position record middle ∧ RecordsAt middle more next

/-- Questions stand at a place: each a name and four octets. -/
def QuestionsAt : ℕ → ℕ → ℕ → Prop
  | 0, position, next => next = position
  | count + 1, position, next =>
    ∃ labels steps last, Spells data position labels steps last ∧ Fine labels steps ∧
      last + 4 ≤ data.length ∧ QuestionsAt count (last + 4) next

/-- An answer to the query, with so many questions and records. -/
structure Announces (questionCount recordCount : ℕ) : Prop where
  long : 12 ≤ data.length
  query : word data 0 = some QUERY_ID
  response : ∃ flags, word data 2 = some flags ∧ flags &&& 0xf80f = 0x8000
  questions : word data 4 = some questionCount
  records : ∃ answers authorities additional, word data 6 = some answers ∧
    word data 8 = some authorities ∧ word data 10 = some additional ∧
    recordCount = answers + authorities + additional
  fewQuestions : questionCount ≤ 16
  fewRecords : recordCount ≤ 64

/-- The datagram is an answer to the query within the limits; its questions and its first records
can be read, and these are the records. -/
def Begins (records : List Record) : Prop :=
  ∃ questionCount recordCount start next, Announces data questionCount recordCount ∧
    QuestionsAt Fine data questionCount 12 start ∧ records.length ≤ recordCount ∧
    RecordsAt Fine data start records next

/-- The first record that has a usable address of the accessory has this one, and all records up
to it can be read. -/
def Answers (address : Ipv4Addr) : Prop :=
  ∃ olds record, Begins Fine data (olds ++ [record]) ∧ (∀ old ∈ olds, old.address? = none) ∧
    record.address? = some address

variable {Fine data}

theorem RecordsAt.position_lt {position next : ℕ} {record : Record} {more : List Record}
    (h : RecordsAt Fine data position (record :: more) next) : position < data.length := by
  obtain ⟨middle, ⟨steps, last, spells, -⟩, -⟩ := h
  exact spells.position_lt

theorem recordsAt_append {position next : ℕ} {front back : List Record} :
    RecordsAt Fine data position (front ++ back) next ↔
      ∃ middle, RecordsAt Fine data position front middle ∧
        RecordsAt Fine data middle back next := by
  induction front generalizing position with
  | nil => simp [RecordsAt]
  | cons record front ih =>
    simp only [List.cons_append, RecordsAt, ih]
    constructor
    · rintro ⟨first, hfirst, middle, hmiddle, hback⟩
      exact ⟨middle, ⟨first, hfirst, hmiddle⟩, hback⟩
    · rintro ⟨middle, ⟨first, hfirst, hmiddle⟩, hback⟩
      exact ⟨first, hfirst, middle, hmiddle, hback⟩

/-! ### What the parser makes of it -/

theorem counts_eq_some {questionCount recordCount : ℕ} :
    counts data = some (questionCount, recordCount) ↔
      Announces data questionCount recordCount := by
  constructor
  · intro h
    unfold counts at h
    simp only [Option.bind_eq_bind] at h
    split at h
    · cases h
    rename_i hlong
    obtain ⟨query, hquery, h⟩ := Option.bind_eq_some_iff.mp h
    split at h
    · cases h
    rename_i hid
    obtain ⟨flags, hflags, h⟩ := Option.bind_eq_some_iff.mp h
    split at h
    · cases h
    rename_i hresponse
    obtain ⟨questions, hquestions, h⟩ := Option.bind_eq_some_iff.mp h
    obtain ⟨answers, hanswers, h⟩ := Option.bind_eq_some_iff.mp h
    obtain ⟨authorities, hauthorities, h⟩ := Option.bind_eq_some_iff.mp h
    obtain ⟨additional, hadditional, h⟩ := Option.bind_eq_some_iff.mp h
    split at h
    · cases h
    rename_i hfew
    simp only [Option.some.injEq, Prod.mk.injEq] at h
    obtain ⟨rfl, rfl⟩ := h
    exact ⟨by omega, by rw [hquery, not_not.mp hid], ⟨flags, hflags, not_not.mp hresponse⟩,
      hquestions, ⟨answers, authorities, additional, hanswers, hauthorities, hadditional, rfl⟩,
      by omega, by omega⟩
  · rintro ⟨hlong, hquery, ⟨flags, hflags, hresponse⟩, hquestions, hrecords, hfew, hfew'⟩
    obtain ⟨answers, authorities, additional, hanswers, hauthorities, hadditional, rfl⟩ := hrecords
    unfold counts
    simp only [Option.bind_eq_bind, hquery, hflags, hquestions, hanswers, hauthorities, hadditional,
      Option.bind_some]
    rw [if_neg (by omega), if_neg (by simp), if_neg (by simpa using hresponse),
      if_neg (by omega)]

theorem head_eq_some {offset : ℕ} {found : Head} : head data offset = some found ↔
    ∃ record next, RecordAt Plain data offset record next ∧
      found = ⟨join (record.labels.map to_ascii_lowercase), record.kind, record.class_ % 0x8000,
        record.ttl, record.value.length, record.value, next⟩ := by
  have hmask : ∀ class_ : ℕ, class_ &&& 0x7fff = class_ % 0x8000 := fun class_ =>
    Nat.and_two_pow_sub_one_eq_mod class_ 15
  constructor
  · intro h
    simp only [head, Option.bind_eq_bind] at h
    obtain ⟨⟨text, last⟩, hname, h⟩ := Option.bind_eq_some_iff.mp h
    obtain ⟨kind, hkind, h⟩ := Option.bind_eq_some_iff.mp h
    obtain ⟨class_, hclass, h⟩ := Option.bind_eq_some_iff.mp h
    obtain ⟨ttl, httl, h⟩ := Option.bind_eq_some_iff.mp h
    obtain ⟨length, hlength, h⟩ := Option.bind_eq_some_iff.mp h
    obtain ⟨value, hvalue, h⟩ := Option.bind_eq_some_iff.mp h
    obtain ⟨labels, steps, spells, plain, rfl⟩ := name_eq_some.mp hname
    have hsize : value.length = length := length_get hvalue
    subst hsize
    cases h
    exact ⟨⟨labels, kind, class_, ofBigEndian ttl, value⟩, _, ⟨steps, last, spells, plain, hkind,
      hclass, by rw [httl]; rfl, hlength, hvalue, rfl⟩, by rw [hmask]⟩
  · rintro ⟨record, next, ⟨steps, last, spells, plain, hkind, hclass, httl, hlength, hvalue, rfl⟩,
      rfl⟩
    obtain ⟨ttl, hbytes, httl⟩ := Option.map_eq_some_iff.mp httl
    have hname := name_eq_some.mpr ⟨record.labels, steps, spells, plain, rfl⟩
    simp only [head, hname, Option.bind_eq_bind, Option.bind_some, hkind, hclass, hbytes, hlength,
      hvalue, hmask, httl]

/-- The indices into the value of an address record are in bounds. -/
theorem records_succ {offset next : ℕ} {record : Record}
    (h : RecordAt Plain data offset record next) (count : ℕ) :
    records data (count + 1) offset =
      match addressOf (join (record.labels.map to_ascii_lowercase) = LINK_NAME) record.kind
        record.class_ record.ttl record.value with
      | some address => .ok (some address)
      | none => records data count next := by
  have hhead := head_eq_some.mpr ⟨record, next, h, rfl⟩
  simp only [records, hhead, addressOf]
  by_cases hkind : join (record.labels.map to_ascii_lowercase) = LINK_NAME ∧ record.kind = 1 ∧
      record.class_ % 0x8000 = 1 ∧ record.ttl ≠ 0
  · obtain ⟨hname, hkind, hclass, httl⟩ := hkind
    match hvalue : record.value with
    | [a, b, c, d] =>
      simp only [hname, hkind, hclass, httl, ne_eq, not_false_eq_true, and_self, if_true,
        List.length_cons, List.length_nil, octet, List.getElem?_cons_zero, List.getElem?_cons_succ]
      by_cases husable : (Ipv4Addr.mk a b c d).usable
      · have hall : ¬(Ipv4Addr.mk a b c d).is_unspecified ∧ ¬(Ipv4Addr.mk a b c d).is_multicast ∧
            ¬(Ipv4Addr.mk a b c d).is_loopback ∧ ¬(Ipv4Addr.mk a b c d).is_broadcast := by
          simpa [Ipv4Addr.usable, and_assoc] using husable
        simp only [husable, if_true]
        show (if _ then _ else _) = _
        rw [if_pos hall]
        rfl
      · have hall : ¬(¬(Ipv4Addr.mk a b c d).is_unspecified ∧ ¬(Ipv4Addr.mk a b c d).is_multicast ∧
            ¬(Ipv4Addr.mk a b c d).is_loopback ∧ ¬(Ipv4Addr.mk a b c d).is_broadcast) := by
          simpa [Ipv4Addr.usable, and_assoc] using husable
        simp only [husable]
        show (if _ then _ else _) = _
        rw [if_neg hall]
        rfl
    | [] => simp
    | [_] => simp
    | [_, _] => simp
    | [_, _, _] => simp
    | _ :: _ :: _ :: _ :: _ :: _ => simp
  · rw [if_neg (by tauto), if_neg hkind]

theorem records_stuck {offset : ℕ}
    (h : ¬∃ record next, RecordAt Plain data offset record next) (count : ℕ) :
    records data (count + 1) offset = .ok none := by
  have hhead : head data offset = none := by
    by_contra hsome
    obtain ⟨found, hfound⟩ := Option.ne_none_iff_exists'.mp hsome
    obtain ⟨record, next, hrecord, -⟩ := head_eq_some.mp hfound
    exact h ⟨record, next, hrecord⟩
  simp only [records, hhead]

/-- Nothing is read out of bounds. -/
theorem records_ok (data : List UInt8) (count offset : ℕ) :
    ∃ result, records data count offset = .ok result := by
  induction count generalizing offset with
  | zero => exact ⟨none, rfl⟩
  | succ count ih =>
    by_cases h : ∃ record next, RecordAt Plain data offset record next
    · obtain ⟨record, next, hrecord⟩ := h
      rw [records_succ hrecord]
      split
      · rename_i address _
        exact ⟨some address, rfl⟩
      · exact ih next
    · exact ⟨none, records_stuck h count⟩

theorem parse_answer_ok (data : List UInt8) : ∃ result, parse_answer data = .ok result := by
  unfold parse_answer
  split
  · exact ⟨none, rfl⟩
  · exact records_ok data _ _

/-- What the parser takes from a record: it compares the name with the dots in it. -/
def Record.taken? (record : Record) : Option Ipv4Addr :=
  addressOf (join (record.labels.map to_ascii_lowercase) = LINK_NAME) record.kind record.class_
    record.ttl record.value

/-- Records that give nothing are passed over. -/
theorem records_append {olds : List Record} {offset middle : ℕ}
    (holds : RecordsAt Plain data offset olds middle) (hnone : ∀ old ∈ olds, old.taken? = none)
    (count : ℕ) : records data (olds.length + count) offset = records data count middle := by
  induction olds generalizing offset with
  | nil =>
    cases holds
    rw [List.length_nil, Nat.zero_add]
  | cons old olds ih =>
    obtain ⟨next, hrecord, hrest⟩ := holds
    have htaken : old.taken? = none := hnone old (by simp)
    have hcount : (old :: olds).length + count = olds.length + count + 1 := by
      rw [List.length_cons]
      omega
    rw [Record.taken?] at htaken
    rw [hcount, records_succ hrecord, htaken]
    exact ih hrest fun other hother => hnone other (by simp [hother])

/-- The parser stops at the first record that gives something. -/
theorem exists_of_records {count offset : ℕ} {address : Ipv4Addr}
    (h : records data count offset = .ok (some address)) :
    ∃ olds record next, olds.length < count ∧
      RecordsAt Plain data offset (olds ++ [record]) next ∧ (∀ old ∈ olds, old.taken? = none) ∧
      record.taken? = some address := by
  induction count generalizing offset with
  | zero => cases h
  | succ count ih =>
    by_cases hsome : ∃ record next, RecordAt Plain data offset record next
    · obtain ⟨record, next, hrecord⟩ := hsome
      rw [records_succ hrecord] at h
      cases htaken : record.taken? with
      | some found =>
        rw [Record.taken?] at htaken
        simp only [htaken, Except.ok.injEq, Option.some.injEq] at h
        subst h
        exact ⟨[], record, next, by simp, ⟨next, hrecord, rfl⟩, by simp, htaken⟩
      | none =>
        have hgoes : records data count next = .ok (some address) := by
          rw [Record.taken?] at htaken
          simpa only [htaken] using h
        obtain ⟨olds, last, stop, hshort, hrecords, hnone, hlast⟩ := ih hgoes
        refine ⟨record :: olds, last, stop, by simpa using hshort, ⟨next, hrecord, hrecords⟩, ?_,
          hlast⟩
        intro old hold
        rcases List.mem_cons.mp hold with rfl | hold
        · exact htaken
        · exact hnone old hold
    · rw [records_stuck hsome] at h
      cases h

theorem questions_of_questionsAt {count position next : ℕ}
    (h : QuestionsAt Plain data count position next) :
    questions data count position = some next := by
  induction count generalizing position with
  | zero =>
    cases h
    rfl
  | succ count ih =>
    obtain ⟨labels, steps, last, spells, plain, -, hrest⟩ := h
    have hname := name_eq_some.mpr ⟨labels, steps, spells, plain, rfl⟩
    simp only [questions, hname, Option.bind_eq_bind, Option.bind_some]
    exact ih hrest

/-- The octets of a question are not looked at, but what follows them is inside the datagram. -/
theorem questionsAt_of_questions {count position next : ℕ}
    (h : questions data count position = some next) (hnext : next < data.length) :
    position < data.length ∧ QuestionsAt Plain data count position next := by
  induction count generalizing position with
  | zero =>
    cases h
    exact ⟨hnext, rfl⟩
  | succ count ih =>
    simp only [questions, Option.bind_eq_bind] at h
    obtain ⟨⟨text, last⟩, hname, h⟩ := Option.bind_eq_some_iff.mp h
    obtain ⟨labels, steps, spells, plain, -⟩ := name_eq_some.mp hname
    obtain ⟨hlast, hrest⟩ := ih h
    exact ⟨spells.position_lt, labels, steps, last, spells, plain, hlast.le, hrest⟩

theorem parse_answer_of_counts {questionCount recordCount start : ℕ}
    (hcounts : Announces data questionCount recordCount)
    (hquestions : QuestionsAt Plain data questionCount 12 start) :
    parse_answer data = records data recordCount start := by
  simp [parse_answer, counts_eq_some.mpr hcounts, questions_of_questionsAt hquestions]

/-- The parser as it is: the first record whose name reads as the accessory's and that has a usable
address. -/
theorem parse_answer_eq_some {address : Ipv4Addr} :
    parse_answer data = .ok (some address) ↔ ∃ olds record, Begins Plain data (olds ++ [record]) ∧
      (∀ old ∈ olds, old.taken? = none) ∧ record.taken? = some address := by
  constructor
  · intro h
    unfold parse_answer at h
    split at h
    · cases h
    rename_i _ start hstart
    simp only [Option.bind_eq_bind] at hstart
    obtain ⟨⟨questionCount, announced⟩, hcounts, hstart⟩ := Option.bind_eq_some_iff.mp hstart
    obtain ⟨offset, hquestions, hstart⟩ := Option.bind_eq_some_iff.mp hstart
    cases hstart
    obtain ⟨olds, record, next, hshort, hrecords, hnone, hrecord⟩ := exists_of_records h
    have hinside : start < data.length := by
      cases olds with
      | nil => exact hrecords.position_lt
      | cons old olds => exact hrecords.position_lt
    refine ⟨olds, record, ⟨questionCount, announced, start, next, counts_eq_some.mp hcounts,
      (questionsAt_of_questions hquestions hinside).2, ?_, hrecords⟩, hnone, hrecord⟩
    rw [List.length_append, List.length_singleton]
    exact hshort
  · rintro ⟨olds, record, ⟨questionCount, recordCount, start, next, hcounts, hquestions, hshort,
      hrecords⟩, hnone, htaken⟩
    obtain ⟨middle, holds, stop, hrecord, -⟩ := recordsAt_append.mp hrecords
    have hsplit : recordCount = olds.length + (recordCount - olds.length - 1 + 1) := by
      simp only [List.length_append, List.length_singleton] at hshort
      omega
    rw [parse_answer_of_counts hcounts hquestions, hsplit, records_append holds hnone,
      records_succ hrecord]
    rw [Record.taken?] at htaken
    rw [htaken]

/-! ## Exactness -/

/-- No record of the datagram has the name of the accessory as one label. -/
def Unjoined (data : List UInt8) : Prop :=
  ∀ records, Begins Plain data records → ∀ record ∈ records,
    record.labels.map to_ascii_lowercase ≠ [LINK_NAME]

theorem Record.taken?_eq {record : Record}
    (h : record.labels.map to_ascii_lowercase ≠ [LINK_NAME]) : record.taken? = record.address? := by
  have hname : join (record.labels.map to_ascii_lowercase) = LINK_NAME ↔ Named record.labels := by
    rw [join_eq_linkName, Named]
    exact or_iff_left h
  simp only [taken?, address?, addressOf, hname]

/-- The label of a name stands in the datagram behind its length. -/
theorem Spells.length_mem {position steps next : ℕ} {labels : List (List UInt8)}
    (spells : Spells data position labels steps next) {label : List UInt8} (h : label ∈ labels) :
    UInt8.ofNat label.length ∈ data := by
  induction spells with
  | root => cases h
  | label hsize _ _ hlabel _ ih =>
    rcases List.mem_cons.mp h with rfl | h
    · rw [length_get hlabel, UInt8.ofNat_toNat]
      exact List.mem_of_getElem? hsize
    · exact ih h
  | pointer _ _ _ _ ih => exact ih h

theorem RecordsAt.length_mem {Fine : List (List UInt8) → ℕ → Prop} {position next : ℕ}
    {records : List Record} (h : RecordsAt Fine data position records next) {record : Record}
    (hrecord : record ∈ records) {label : List UInt8} (hlabel : label ∈ record.labels) :
    UInt8.ofNat label.length ∈ data := by
  induction records generalizing position with
  | nil => cases hrecord
  | cons first records ih =>
    obtain ⟨middle, ⟨steps, last, spells, -⟩, hrest⟩ := h
    rcases List.mem_cons.mp hrecord with rfl | hrecord
    · exact spells.length_mem hlabel
    · exact ih hrest hrecord

theorem unjoined_of_not_mem (h : 15 ∉ data) : Unjoined data := by
  rintro records ⟨questionCount, recordCount, start, next, -, -, -, hrecords⟩ record hrecord hjoined
  obtain ⟨label, hlabels, hlabel⟩ : ∃ label, record.labels = [label] ∧
      to_ascii_lowercase label = LINK_NAME := by
    simpa [List.map_eq_singleton_iff] using hjoined
  have hlength : label.length = 15 := by
    have hsame := congrArg List.length hlabel
    simpa [to_ascii_lowercase] using hsame.trans (by decide +kernel : LINK_NAME.length = 15)
  have hmem := hrecords.length_mem hrecord (show label ∈ record.labels by simp [hlabels])
  rw [hlength] at hmem
  exact h hmem

/-- All that the datagram announces can be read, and these are its records. -/
def Holds (data : List UInt8) (records : List Record) : Prop :=
  ∃ questionCount start next, Announces data questionCount records.length ∧
    QuestionsAt Plain data questionCount 12 start ∧ RecordsAt Plain data start records next

/-- What counts of a record: whether it is about the accessory, and what it says. -/
def Record.content (record : Record) : Bool × ℕ × ℕ × ℕ × List UInt8 :=
  (decide (Named record.labels), record.kind, record.class_, record.ttl, record.value)

theorem Record.address?_of_content {record other : Record} (h : record.content = other.content) :
    record.address? = other.address? := by
  simp only [content, Prod.mk.injEq, decide_eq_decide] at h
  obtain ⟨hnamed, hkind, hclass, httl, hvalue⟩ := h
  simp only [address?, addressOf, hnamed, hkind, hclass, httl, hvalue]

theorem records_of_recordsAt {records' : List Record} {offset next : ℕ}
    (h : RecordsAt Plain data offset records' next)
    (htaken : ∀ record ∈ records', record.taken? = record.address?) :
    records data records'.length offset = .ok (records'.findSome? Record.address?) := by
  induction records' generalizing offset with
  | nil => rfl
  | cons record more ih =>
    obtain ⟨middle, hrecord, hrest⟩ := h
    rw [List.length_cons, records_succ hrecord, List.findSome?_cons, ← htaken record (by simp)]
    show (match record.taken? with | some address => _ | none => _) = _
    cases record.taken? with
    | some address => rfl
    | none => exact ih hrest fun other hother => htaken other (by simp [hother])

theorem findSome?_of_content {records records' : List Record}
    (h : records.map Record.content = records'.map Record.content) :
    records.findSome? Record.address? = records'.findSome? Record.address? := by
  induction records generalizing records' with
  | nil =>
    obtain rfl : records' = [] := by simpa using h.symm
    rfl
  | cons record records ih =>
    cases records' with
    | nil => simp at h
    | cons other records' =>
      simp only [List.map_cons, List.cons.injEq] at h
      rw [List.findSome?_cons, List.findSome?_cons, Record.address?_of_content h.1, ih h.2]

/-- The parser comes to an end on every datagram and reads nothing outside of it. It returns an
address exactly if that is the usable address of the first record that has one under the labels of
the accessory, in an answer in which everything up to that record can be read and has a plain name.
So neither the way in which names are compressed matters, nor the names of the other records. -/
theorem answers_exact :
    (∀ data, ∃ result, parse_answer data = .ok result) ∧
    (∀ data address, Unjoined data →
      (parse_answer data = .ok (some address) ↔ Answers Plain data address)) ∧
    ∀ data data' records records', Unjoined data → Unjoined data' → Holds data records →
      Holds data' records' → records.map Record.content = records'.map Record.content →
      parse_answer data = parse_answer data' := by
  have hbegins : ∀ {data records}, Holds data records → Begins Plain data records := by
    rintro data records ⟨questionCount, start, next, hcounts, hquestions, hrecords⟩
    exact ⟨questionCount, records.length, start, next, hcounts, hquestions, le_rfl, hrecords⟩
  have hparse : ∀ {data records}, Unjoined data → Holds data records →
      parse_answer data = .ok (records.findSome? Record.address?) := by
    intro data records hunjoined holds
    have htaken : ∀ record ∈ records, record.taken? = record.address? := fun record hrecord =>
      record.taken?_eq (hunjoined records (hbegins holds) record hrecord)
    obtain ⟨questionCount, start, next, hcounts, hquestions, hrecords⟩ := holds
    rw [parse_answer_of_counts hcounts hquestions, records_of_recordsAt hrecords htaken]
  refine ⟨parse_answer_ok, ?_, ?_⟩
  · intro data address hunjoined
    rw [parse_answer_eq_some, Answers]
    constructor
    · rintro ⟨olds, record, begins, hnone, hrecord⟩
      have htaken := fun other hother => Record.taken?_eq (hunjoined _ begins other hother)
      refine ⟨olds, record, begins, ?_, ?_⟩
      · intro old hold
        rw [← htaken old (by simp [hold])]
        exact hnone old hold
      · rw [← htaken record (by simp)]
        exact hrecord
    · rintro ⟨olds, record, begins, hnone, hrecord⟩
      have htaken := fun other hother => Record.taken?_eq (hunjoined _ begins other hother)
      refine ⟨olds, record, begins, ?_, ?_⟩
      · intro old hold
        rw [htaken old (by simp [hold])]
        exact hnone old hold
      · rw [htaken record (by simp)]
        exact hrecord
  · intro data data' records records' hunjoined hunjoined' holds holds' hcontent
    rw [hparse hunjoined holds, hparse hunjoined' holds', findSome?_of_content hcontent]

/-! ### Answers at hand -/

/-- The start of an answer. -/
def opening (questionCount recordCount : UInt8) : List UInt8 :=
  [0x41, 0x52, 0x84, 0, 0, questionCount, 0, recordCount, 0, 0, 0, 0]

/-- What follows the name in the record of the accessory. -/
def linkData : List UInt8 := [0, 1, 0, 1, 0, 0, 0, 10, 0, 4, 10, 20, 30, 40]

def linkName : List UInt8 := 9 :: utf8 "livi-link" ++ 5 :: utf8 "local" ++ [0]

/-- The accessory is asked for; a printer of the network answers, and it does, both with pointers
into the question. -/
def compressed : List UInt8 :=
  opening 1 2 ++ linkName ++ [0, 1, 0x80, 1] ++ (7 :: utf8 "printer") ++
    [0xc0, 22, 0, 16, 0, 1, 0, 0, 0, 10, 0, 0] ++ [0xc0, 12] ++ linkData

theorem answers_exact_compressed : parse_answer compressed = .ok (some ⟨10, 20, 30, 40⟩) := by
  apply (answers_exact.2.1 compressed ⟨10, 20, 30, 40⟩
    (unjoined_of_not_mem (by decide +kernel))).mpr
  have hlocal : Spells compressed 22 [utf8 "local"] 2 29 :=
    .label (show compressed[22]? = some 5 by decide +kernel) (by decide) (by decide)
      (by decide +kernel) (.root (by decide +kernel))
  have hlink : Spells compressed 12 linkLabels 3 29 :=
    .label (show compressed[12]? = some 9 by decide +kernel) (by decide) (by decide)
      (by decide +kernel) hlocal
  have hprinter : Spells compressed 33 [utf8 "printer", utf8 "local"] 4 43 :=
    .label (show compressed[33]? = some 7 by decide +kernel) (by decide) (by decide)
      (by decide +kernel) (.pointer (show compressed[41]? = some 0xc0 by decide +kernel)
        (by decide) (show compressed[42]? = some 22 by decide +kernel) hlocal)
  have hagain : Spells compressed 53 linkLabels 4 55 :=
    .pointer (show compressed[53]? = some 0xc0 by decide +kernel) (by decide)
      (show compressed[54]? = some 12 by decide +kernel) hlink
  refine ⟨[⟨[utf8 "printer", utf8 "local"], 16, 1, 10, []⟩],
    ⟨linkLabels, 1, 1, 10, [10, 20, 30, 40]⟩, ⟨1, 2, 33, 69, ?_, ?_, le_rfl, 53, ?_, 69, ?_, rfl⟩,
    by decide +kernel, by decide +kernel⟩
  · exact counts_eq_some.mp (by decide +kernel)
  · exact ⟨linkLabels, 3, 29, hlink, by decide +kernel, by decide +kernel, rfl⟩
  · exact ⟨4, 43, hprinter, by decide +kernel, by decide +kernel⟩
  · exact ⟨4, 55, hagain, by decide +kernel, by decide +kernel⟩

/-- A neighbour whose name is one letter that is not plain. -/
def foreign : List UInt8 :=
  opening 0 2 ++ [1, 0xe9, 0] ++ [0, 16, 0, 1, 0, 0, 0, 10, 0, 0] ++ linkName ++ linkData

/-- A neighbour whose name has 32 labels. -/
def lengthy : List UInt8 :=
  opening 0 2 ++ (List.replicate 32 [1, 97]).flatten ++ [0] ++ [0, 16, 0, 1, 0, 0, 0, 10, 0, 0] ++
    linkName ++ linkData

/-- The records of neighbours that the parser cannot name hide the accessory. -/
theorem neighbours_hide :
    (Answers Short foreign ⟨10, 20, 30, 40⟩ ∧ parse_answer foreign = .ok none) ∧
    Answers Short lengthy ⟨10, 20, 30, 40⟩ ∧ parse_answer lengthy = .ok none := by
  refine ⟨⟨?_, by decide +kernel⟩, ?_, by decide +kernel⟩
  · have hneighbour : Spells foreign 12 [[0xe9]] 2 15 :=
      .label (show foreign[12]? = some 1 by decide +kernel) (by decide) (by decide)
        (by decide +kernel) (.root (by decide +kernel))
    have hlink : Spells foreign 25 linkLabels 3 42 :=
      .label (show foreign[25]? = some 9 by decide +kernel) (by decide) (by decide)
        (by decide +kernel) (.label (show foreign[35]? = some 5 by decide +kernel) (by decide)
          (by decide) (by decide +kernel) (.root (by decide +kernel)))
    refine ⟨[⟨[[0xe9]], 16, 1, 10, []⟩], ⟨linkLabels, 1, 1, 10, [10, 20, 30, 40]⟩,
      ⟨0, 2, 12, 56, counts_eq_some.mp (by decide +kernel), rfl, le_rfl, 25, ?_, 56, ?_, rfl⟩,
      by decide +kernel, by decide +kernel⟩
    · exact ⟨2, 15, hneighbour, by decide +kernel, by decide +kernel⟩
    · exact ⟨3, 42, hlink, by decide +kernel, by decide +kernel⟩
  · obtain ⟨labels, steps, last, hneighbour, -, -, hextent, -, hlast⟩ :=
      spells_of_go (by omega : 0 ≤ 254) (by decide +kernel : name.go lengthy 40 12 12 false [] 0 =
        some (join (List.replicate 32 [97]), 77))
    cases hlast
    have hlink : Spells lengthy 87 linkLabels 3 104 :=
      .label (show lengthy[87]? = some 9 by decide +kernel) (by decide) (by decide)
        (by decide +kernel) (.label (show lengthy[97]? = some 5 by decide +kernel) (by decide)
          (by decide) (by decide +kernel) (.root (by decide +kernel)))
    refine ⟨[⟨labels, 16, 1, 10, []⟩], ⟨linkLabels, 1, 1, 10, [10, 20, 30, 40]⟩,
      ⟨0, 2, 12, 118, counts_eq_some.mp (by decide +kernel), rfl, le_rfl, 87, ?_, 118, ?_, rfl⟩,
      by simp [Record.address?, addressOf], by decide +kernel⟩
    · refine ⟨steps, 77, hneighbour, ?_, ?_⟩
      · show extent labels + 1 ≤ 255
        omega
      · dsimp only
        decide +kernel
    · exact ⟨3, 104, hlink, by decide +kernel, by decide +kernel⟩

end ProjectArgo.CarPlay.Discovery
