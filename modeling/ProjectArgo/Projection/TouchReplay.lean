import ProjectArgo.Library.Run
import ProjectArgo.Projection.ChannelSteps

/-!
# Replaying the motion events of the touch screen

A reference consumer decodes the reports the host sends, as Android reads motion
events: one contact goes down first, further ones join and leave, the last one
lifts, and a cancel ends them all. It refuses an event that does not fit the
pointers it holds. It never refuses one, and after each event it holds exactly
the contacts that are live on the host.
-/
namespace ProjectArgo.Projection

open Library.Protobuf Library.Run

/-! ## The consumer -/

/-- One pointer of a motion event. -/
structure Pointer where
  id : ℕ
  x : ℕ
  y : ℕ
  deriving DecidableEq

structure MotionEvent where
  pointers : List Pointer
  actionIndex : ℕ
  action : ℕ
  deriving DecidableEq

def decodePointer (bytes : List UInt8) : Option Pointer := do
  let fields ← (read 1024 bytes).toOption
  return ⟨← lastNumber fields 3, ← lastNumber fields 1, ← lastNumber fields 2⟩

/-- The motion event of an input report. -/
def decodeMotion (body : List UInt8) : Option MotionEvent := do
  let report ← (read 1024 body).toOption
  let touch ← (allBytes report 3).getLast?
  let fields ← (read 1024 touch).toOption
  let pointers ← (allBytes fields 1).mapM decodePointer
  return ⟨pointers, ← lastNumber fields 2, ← lastNumber fields 3⟩

namespace MotionEvent

/-- The pointer at the action index. -/
def changed (event : MotionEvent) : Option Pointer := event.pointers[event.actionIndex]?

/-- The other pointers. -/
def others (event : MotionEvent) : Finset Pointer :=
  (event.pointers.eraseIdx event.actionIndex).toFinset

/-- The others are the pointers held, less the changed one, which is held too. -/
def Continues (event : MotionEvent) (held : Finset Pointer) (changed : Pointer) : Prop :=
  event.others = held.filter (·.id ≠ changed.id) ∧ ∃ old ∈ held, old.id = changed.id

instance (event : MotionEvent) (held : Finset Pointer) (changed : Pointer) :
    Decidable (event.Continues held changed) :=
  inferInstanceAs (Decidable (_ ∧ _))

/-- The pointers held after an event that fits those held before. -/
def replay (held : Finset Pointer) (event : MotionEvent) : Option (Finset Pointer) := do
  let changed ← event.changed
  if ¬(event.pointers.map (·.id)).Nodup ∨ ∃ pointer ∈ event.pointers, 10 ≤ pointer.id then none
  else match event.action with
    | 0 => if held = ∅ ∧ event.others = ∅ then some {changed} else none
    | 5 =>
      if held ≠ ∅ ∧ event.others = held ∧ ∀ old ∈ held, old.id ≠ changed.id then
        some (insert changed held)
      else none
    | 2 => if event.Continues held changed then some (insert changed event.others) else none
    | 1 => if event.Continues held changed ∧ event.others = ∅ then some ∅ else none
    | 6 => if event.Continues held changed ∧ event.others ≠ ∅ then some event.others else none
    | 3 => if event.Continues held changed then some ∅ else none
    | _ => none

end MotionEvent

/-- Decodes and replays one report. -/
def consume (held : Finset Pointer) (body : List UInt8) : Option (Finset Pointer) := do
  let event ← decodeMotion body
  event.replay held

/-! ## Encoding and decoding one event -/

def Contact.pointer (contact : Contact) : Pointer := ⟨contact.wireId, contact.x, contact.y⟩

/-- Every number of a contact fits the format. -/
def Contact.Fits (contact : Contact) : Prop :=
  contact.wireId < 10 ∧ contact.x < 2 ^ 64 ∧ contact.y < 2 ^ 64

theorem contactData_eq (contact : Contact) : Channels.contactData contact =
    Proto.of [(1, .number contact.x), (2, .number contact.y), (3, .number contact.wireId)] := by
  simp [Channels.contactData]

theorem decodePointer_contactData {contact : Contact} (h : contact.Fits) :
    decodePointer (Channels.contactData contact).octets = some contact.pointer := by
  obtain ⟨hid, hx, hy⟩ := h
  rw [contactData_eq, decodePointer, Proto.read_of (by simp)]
  · rfl
  · simp only [List.forall_mem_cons, Library.Protobuf.Fits, Payload.Fits, List.not_mem_nil,
      IsEmpty.forall_iff, implies_true, and_true]
    omega

theorem within_contactData (contact : Contact) :
    (Channels.contactData contact).octets.length ≤ 60 :=
  Proto.Within.empty.number.number.number

/-- The fields of the touch event in a report. -/
def touchFields (contacts : List Contact) (index action : ℕ) : Message :=
  contacts.map (fun contact => (1, .bytes (Channels.contactData contact).octets)) ++
    [(2, .number index), (3, .number action)]

theorem foldl_contactData (contacts : List Contact) (message : Message) :
    contacts.foldl (fun touch contact => touch.nested 1 (Channels.contactData contact))
        (Proto.of message) =
      Proto.of (message ++
        contacts.map fun contact => (1, .bytes (Channels.contactData contact).octets)) := by
  induction contacts generalizing message with
  | nil => simp
  | cons contact contacts ih =>
    rw [List.foldl_cons, Proto.nested_of, ih, List.map_cons, List.append_assoc]
    rfl

theorem fits_touchFields {contacts : List Contact} {index action : ℕ} (hindex : index < 2 ^ 64)
    (haction : action < 2 ^ 64) :
    ∀ field ∈ touchFields contacts index action, Library.Protobuf.Fits field := by
  intro field hfield
  rcases List.mem_append.mp hfield with hpointer | hrest
  · obtain ⟨contact, -, rfl⟩ := List.mem_map.mp hpointer
    have hlength := within_contactData contact
    simp only [Library.Protobuf.Fits, Payload.Fits]
    omega
  · simp only [List.mem_cons, List.not_mem_nil, or_false] at hrest
    rcases hrest with rfl | rfl
    · exact ⟨Nat.two_pos, by norm_num, hindex⟩
    · exact ⟨Nat.succ_pos 2, by norm_num, haction⟩

theorem allBytes_touchFields (contacts : List Contact) (index action : ℕ) :
    allBytes (touchFields contacts index action) 1 =
      contacts.map fun contact => (Channels.contactData contact).octets := by
  simp only [allBytes, touchFields, List.filterMap_append, List.filterMap_map]
  simp

theorem lastNumber_touchFields (contacts : List Contact) (index action : ℕ) :
    lastNumber (touchFields contacts index action) 2 = some index ∧
      lastNumber (touchFields contacts index action) 3 = some action := by
  simp only [lastNumber, touchFields, List.filterMap_append, List.filterMap_map]
  simp

theorem mapM_decodePointer {contacts : List Contact} (h : ∀ contact ∈ contacts, contact.Fits) :
    (contacts.map fun contact => (Channels.contactData contact).octets).mapM decodePointer =
      some (contacts.map Contact.pointer) := by
  induction contacts with
  | nil => rfl
  | cons contact contacts ih =>
    rw [List.forall_mem_cons] at h
    rw [List.map_cons, List.mapM_cons, decodePointer_contactData h.1, ih h.2]
    rfl

/-- The size of a touch event grows with its contacts. -/
theorem within_foldl_contactData (contacts : List Contact) {proto : Proto} {size : ℕ}
    (h : proto.Within size) :
    (contacts.foldl (fun touch contact => touch.nested 1 (Channels.contactData contact))
      proto).Within (size + 80 * contacts.length) := by
  induction contacts generalizing proto size with
  | nil => exact h
  | cons contact contacts ih =>
    apply (ih (h.nested (within_contactData contact))).trans
    rw [List.length_cons]
    omega

/-- The touch event of the contacts, as the writer builds it. -/
def touchData (contacts : List Contact) (index action : ℕ) : Proto :=
  ((contacts.foldl (fun (touch : Proto) contact => touch.nested 1 (Channels.contactData contact))
    {}).number 2 index).number 3 action

theorem touchData_eq (contacts : List Contact) (index action : ℕ) :
    touchData contacts index action = Proto.of (touchFields contacts index action) := by
  rw [touchData, Proto.default_eq, foldl_contactData]
  simp [touchFields]

/-- What the consumer reads in the report of a touch. -/
theorem decodeMotion_report {contacts : List Contact} {index action : ℕ} (timestamp : UInt64)
    (hcount : contacts.length ≤ 10) (hfits : ∀ contact ∈ contacts, contact.Fits)
    (hindex : index < 2 ^ 64) (haction : action < 2 ^ 64) :
    decodeMotion ((({} : Proto).number 1 timestamp.toNat).nested 3
        (touchData contacts index action)).octets =
      some ⟨contacts.map Contact.pointer, index, action⟩ := by
  have hreport : (({} : Proto).number 1 timestamp.toNat).nested 3
      (touchData contacts index action) = Proto.of [(1, .number timestamp.toNat),
        (3, .bytes (touchData contacts index action).octets)] := by
    simp
  have hlength : (touchData contacts index action).octets.length ≤
      0 + 80 * contacts.length + 20 + 20 :=
    (within_foldl_contactData contacts Proto.Within.empty).number.number
  have htime := timestamp.toNat_lt
  have htouch : read 1024 (touchData contacts index action).octets =
      .ok (touchFields contacts index action) := by
    rw [touchData_eq]
    apply Proto.read_of
    · simp only [touchFields, List.length_append, List.length_map, List.length_cons,
        List.length_nil]
      omega
    · exact fits_touchFields hindex haction
  have hread : read 1024 (Proto.of [(1, .number timestamp.toNat),
      (3, .bytes (touchData contacts index action).octets)]).octets = .ok [(1, .number timestamp.toNat),
        (3, .bytes (touchData contacts index action).octets)] := by
    apply Proto.read_of (by simp)
    simp only [List.forall_mem_cons, Library.Protobuf.Fits, Payload.Fits, List.not_mem_nil,
      IsEmpty.forall_iff, implies_true, and_true]
    omega
  have hbytes : (allBytes [(1, .number timestamp.toNat),
      (3, .bytes (touchData contacts index action).octets)] 3).getLast? =
        some (touchData contacts index action).octets := by
    simp [allBytes]
  obtain ⟨hlast, hkind⟩ := lastNumber_touchFields contacts index action
  rw [hreport, decodeMotion, hread]
  simp only [Except.toOption, bind, Option.bind, hbytes, htouch, allBytes_touchFields,
    mapM_decodePointer hfits, hlast, hkind, pure]

/-! ## The contact table -/

/-- The pointers a consumer should hold for a contact table. -/
def pad (table : Contacts) : Finset Pointer :=
  (table.toList.map fun entry => entry.2.pointer).toFinset

/-- The event of a contact that changes a table. -/
def motion (table : Contacts) (contact action : ℕ) : MotionEvent :=
  ⟨table.toList.map fun entry => entry.2.pointer, Channels.pointerIndex table contact, action⟩

variable {table : Contacts} {contact action : ℕ} {pointer : Pointer}

theorem mem_pad : pointer ∈ pad table ↔
    ∃ (key : ℕ) (held : Contact), table[key]? = some held ∧ held.pointer = pointer := by
  simp [pad, Std.ExtTreeMap.mem_toList_iff_getElem?_eq_some]

theorem pad_empty : pad ∅ = ∅ := by
  simp [pad]

theorem changed_motion {held : Contact} (h : table[contact]? = some held) :
    (motion table contact action).changed = some held.pointer := by
  have hentry := Library.NatMap.getElem?_findIdx table h
  rw [MotionEvent.changed, motion, List.getElem?_map, Channels.pointerIndex, hentry]
  rfl

theorem mem_others : pointer ∈ (motion table contact action).others ↔
    ∃ (key : ℕ) (held : Contact), table[key]? = some held ∧ key ≠ contact ∧ held.pointer = pointer := by
  rw [MotionEvent.others, motion, List.eraseIdx_map, Channels.pointerIndex,
    Library.NatMap.eraseIdx_findIdx (Library.NatMap.keys_ne table)]
  simp [Std.ExtTreeMap.mem_toList_iff_getElem?_eq_some, and_assoc]

/-- The table of a running gesture on a screen: few contacts, each with an Android id
of its own and a position inside the content area. -/
structure Table (display : DisplayConfig) (table : Contacts) : Prop where
  size : table.size ≤ 10
  small : ∀ {key : ℕ} {held : Contact}, table[key]? = some held → held.wireId < 10
  inside : ∀ {key : ℕ} {held : Contact}, table[key]? = some held →
    held.x < display.contentWidth ∧ held.y < display.contentHeight
  distinct : ∀ {key other : ℕ} {held found : Contact}, table[key]? = some held → table[other]? = some found →
    held.wireId = found.wireId → key = other

theorem table_empty (display : DisplayConfig) : Table display ∅ where
  size := by simp
  small := by simp
  inside := by simp
  distinct := by simp

variable {display : DisplayConfig}

theorem Table.erase (h : Table display table) (contact : ℕ) :
    Table display (table.erase contact) := by
  have hold : ∀ {key : ℕ} {held : Contact}, (table.erase contact)[key]? = some held →
      table[key]? = some held := by
    intro key held hheld
    rw [Library.NatMap.getElem?_erase] at hheld
    split at hheld
    · exact nomatch hheld
    · exact hheld
  exact ⟨(Std.ExtTreeMap.size_erase_le).trans h.size, fun hheld => h.small (hold hheld),
    fun hheld => h.inside (hold hheld), fun hheld hfound => h.distinct (hold hheld) (hold hfound)⟩

/-- An id that is the contact's own, or that no contact has. -/
def Allotted (table : Contacts) (contact id : ℕ) : Prop :=
  id < 10 ∧ ∀ {key : ℕ} {held : Contact}, table[key]? = some held → (held.wireId = id ↔ key = contact)

theorem Table.insert (h : Table display table) {held : Contact}
    (hsize : contact ∈ table ∨ table.size < 10) (hallotted : Allotted table contact held.wireId)
    (hinside : held.x < display.contentWidth ∧ held.y < display.contentHeight) :
    Table display (table.insert contact held) where
  size := by
    rw [Std.ExtTreeMap.size_insert]
    have hbound := h.size
    split
    · exact hbound
    · rename_i hnew
      rcases hsize with hmem | hroom
      · exact absurd hmem (by simpa using hnew)
      · exact hroom
  small := by
    intro key found hfound
    rw [Library.NatMap.getElem?_insert] at hfound
    split at hfound
    · cases hfound
      exact hallotted.1
    · exact h.small hfound
  inside := by
    intro key found hfound
    rw [Library.NatMap.getElem?_insert] at hfound
    split at hfound
    · cases hfound
      exact hinside
    · exact h.inside hfound
  distinct := by
    intro key other first second hfirst hsecond heq
    rw [Library.NatMap.getElem?_insert] at hfirst hsecond
    split at hfirst <;> split at hsecond
    · rename_i hkey hother
      exact hkey.symm.trans hother
    · rename_i hkey hother
      cases hfirst
      exact hkey ▸ ((hallotted.2 hsecond).mp heq.symm).symm
    · rename_i hkey hother
      cases hsecond
      exact hother ▸ (hallotted.2 hfirst).mp heq
    · exact h.distinct hfirst hsecond heq

/-- A gesture with room for one more contact has an Android id to spare. -/
theorem wireId_spec (h : Table display table) (hroom : contact ∈ table ∨ table.size < 10) :
    ∃ id, Channels.wireId table contact = some id ∧ Allotted table contact id := by
  unfold Channels.wireId
  split
  · rename_i held hheld
    refine ⟨held.wireId, rfl, h.small hheld, ?_⟩
    intro key found hfound
    constructor
    · exact h.distinct hfound hheld
    · rintro rfl
      rw [hheld] at hfound
      rw [Option.some.inj hfound]
  · rename_i hnone
    have hsize : table.size < 10 := by
      rcases hroom with hmem | hsize
      · rw [Library.NatMap.mem_iff, hnone] at hmem
        obtain ⟨held, hheld⟩ := hmem
        exact nomatch hheld
      · exact hsize
    cases hfind : (List.range 10).find? fun id => !table.toList.any (·.2.wireId = id) with
    | none =>
      -- Ten ids in use would need ten contacts.
      have hused : Finset.range 10 ⊆ (table.toList.map (·.2.wireId)).toFinset := by
        intro id hid
        have hany := List.find?_eq_none.mp hfind id (List.mem_range.mpr (Finset.mem_range.mp hid))
        simpa using hany
      have hcard := (Finset.card_le_card hused).trans (List.toFinset_card_le _)
      rw [Finset.card_range, List.length_map, Std.ExtTreeMap.length_toList] at hcard
      omega
    | some id =>
      have hfree := List.find?_some hfind
      have hmem := List.mem_of_find?_eq_some hfind
      refine ⟨id, rfl, List.mem_range.mp hmem, ?_⟩
      intro key held hheld
      constructor
      · intro heq
        have hentry : (key, held) ∈ table.toList :=
          Std.ExtTreeMap.mem_toList_iff_getElem?_eq_some.mpr hheld
        simp only [Bool.not_eq_true', List.any_eq_false, decide_eq_true_eq] at hfree
        exact absurd heq (hfree _ hentry)
      · rintro rfl
        rw [hnone] at hheld
        exact nomatch hheld

/-! ## One event -/

theorem nodup_motion (h : Table display table) (contact action : ℕ) :
    ((motion table contact action).pointers.map (·.id)).Nodup ∧
      ∀ pointer ∈ (motion table contact action).pointers, pointer.id < 10 := by
  have hentry : ∀ entry ∈ table.toList, table[entry.1]? = some entry.2 := fun entry hmem =>
    Std.ExtTreeMap.mem_toList_iff_getElem?_eq_some.mp hmem
  refine ⟨?_, ?_⟩
  · rw [motion, List.map_map, List.Nodup, List.pairwise_map]
    apply (Library.NatMap.keys_ne table).imp_of_mem
    intro a b ha hb hne heq
    exact hne (h.distinct (hentry a ha) (hentry b hb) heq)
  · intro pointer hmem
    obtain ⟨entry, hlisted, rfl⟩ := List.mem_map.mp hmem
    exact h.small (hentry entry hlisted)

/-- The guard of the consumer holds for every event of a table. -/
theorem replay_motion (h : Table display table) {held : Contact}
    (hheld : table[contact]? = some held) (before : Finset Pointer) :
    (motion table contact action).replay before =
      match action with
      | 0 => if before = ∅ ∧ (motion table contact action).others = ∅ then some {held.pointer}
        else none
      | 5 =>
        if before ≠ ∅ ∧ (motion table contact action).others = before ∧
            ∀ old ∈ before, old.id ≠ held.wireId then
          some (insert held.pointer before)
        else none
      | 2 => if (motion table contact action).Continues before held.pointer then
          some (insert held.pointer (motion table contact action).others) else none
      | 1 => if (motion table contact action).Continues before held.pointer ∧
          (motion table contact action).others = ∅ then some ∅ else none
      | 6 => if (motion table contact action).Continues before held.pointer ∧
          (motion table contact action).others ≠ ∅ then
            some (motion table contact action).others else none
      | 3 => if (motion table contact action).Continues before held.pointer then some ∅ else none
      | _ => none := by
  obtain ⟨hnodup, hsmall⟩ := nodup_motion h contact action
  have hguard : ¬(¬((motion table contact action).pointers.map (·.id)).Nodup ∨
      ∃ pointer ∈ (motion table contact action).pointers, 10 ≤ pointer.id) := by
    rintro (hdup | ⟨pointer, hmem, hlarge⟩)
    · exact hdup hnodup
    · exact absurd (hsmall pointer hmem) (by omega)
  simp only [MotionEvent.replay, changed_motion hheld, bind, Option.bind, if_neg hguard]
  rfl

/-- The table with one contact put at its new position. -/
theorem pad_insert (table : Contacts) (contact action : ℕ) (held : Contact) :
    pad (table.insert contact held) =
      insert held.pointer (motion (table.insert contact held) contact action).others := by
  ext pointer
  rw [Finset.mem_insert, mem_pad, mem_others]
  constructor
  · rintro ⟨key, found, hfound, rfl⟩
    by_cases hkey : key = contact
    · rw [Library.NatMap.getElem?_insert, if_pos hkey.symm] at hfound
      cases hfound
      exact Or.inl rfl
    · exact Or.inr ⟨key, found, hfound, hkey, rfl⟩
  · rintro (rfl | ⟨key, found, hfound, -, rfl⟩)
    · exact ⟨contact, held, by rw [Library.NatMap.getElem?_insert, if_pos rfl], rfl⟩
    · exact ⟨key, found, hfound, rfl⟩

/-- The other contacts are those of the table without the changed one. -/
theorem others_insert {held : Contact} :
    (motion (table.insert contact held) contact action).others =
      pad ((table.insert contact held).erase contact) := by
  ext pointer
  rw [mem_pad, mem_others]
  constructor
  · rintro ⟨key, found, hfound, hkey, rfl⟩
    exact ⟨key, found, by rwa [Library.NatMap.getElem?_erase, if_neg (Ne.symm hkey)], rfl⟩
  · rintro ⟨key, found, hfound, rfl⟩
    rw [Library.NatMap.getElem?_erase] at hfound
    split at hfound
    · exact nomatch hfound
    · rename_i hkey
      exact ⟨key, found, hfound, Ne.symm hkey, rfl⟩

/-- A new contact leaves the others as they were. -/
theorem others_insert_new {held : Contact} (hnew : contact ∉ table) :
    (motion (table.insert contact held) contact action).others = pad table := by
  ext pointer
  rw [mem_pad, mem_others]
  constructor
  · rintro ⟨key, found, hfound, hkey, rfl⟩
    rw [Library.NatMap.getElem?_insert, if_neg (Ne.symm hkey)] at hfound
    exact ⟨key, found, hfound, rfl⟩
  · rintro ⟨key, found, hfound, rfl⟩
    have hkey : key ≠ contact := by
      rintro rfl
      exact hnew ((Library.NatMap.mem_iff table).mpr ⟨found, hfound⟩)
    exact ⟨key, found, by rwa [Library.NatMap.getElem?_insert, if_neg (Ne.symm hkey)], hkey, rfl⟩

/-- An event of a contact that was there continues the pointers held. -/
theorem continues_insert {old held : Contact} (h : Table display table)
    (hold : table[contact]? = some old) (hid : held.wireId = old.wireId) :
    (motion (table.insert contact held) contact action).Continues (pad table) held.pointer := by
  refine ⟨?_, old.pointer, mem_pad.mpr ⟨contact, old, hold, rfl⟩, hid.symm⟩
  ext pointer
  rw [Finset.mem_filter, mem_pad, mem_others]
  constructor
  · rintro ⟨key, found, hfound, hkey, rfl⟩
    rw [Library.NatMap.getElem?_insert, if_neg (Ne.symm hkey)] at hfound
    refine ⟨⟨key, found, hfound, rfl⟩, ?_⟩
    intro heq
    exact hkey (h.distinct hfound hold (heq.trans hid))
  · rintro ⟨⟨key, found, hfound, rfl⟩, hne⟩
    have hkey : key ≠ contact := by
      rintro rfl
      rw [hold] at hfound
      cases hfound
      exact hne hid.symm
    exact ⟨key, found, by rwa [Library.NatMap.getElem?_insert, if_neg (Ne.symm hkey)], hkey, rfl⟩

theorem pad_eq_empty : pad table = ∅ ↔ table = ∅ := by
  rw [pad, List.toFinset_eq_empty_iff, List.map_eq_nil_iff, Std.ExtTreeMap.toList_eq_nil_iff]

/-- The phases after which the consumer holds what remains of the table. -/
theorem replay_down {held : Contact} (h : Table display (table.insert contact held))
    (hnew : contact ∉ table) (hfree : ∀ {key : ℕ} {old : Contact}, table[key]? = some old →
      old.wireId ≠ held.wireId) :
    (motion (table.insert contact held) contact
        (Channels.touchAction 0 (table.insert contact held).size)).replay (pad table) =
      some (pad (table.insert contact held)) := by
  have hheld : (table.insert contact held)[contact]? = some held := by
    rw [Library.NatMap.getElem?_insert, if_pos rfl]
  have hsize : (table.insert contact held).size = table.size + 1 := by
    rw [Std.ExtTreeMap.size_insert, if_neg]
    simpa using hnew
  rw [replay_motion h hheld, pad_insert table contact 0 held, others_insert_new hnew]
  by_cases hempty : table = ∅
  · have hzero : table.size = 0 := Std.ExtTreeMap.eq_empty_iff_size_eq_zero.mp hempty
    have hpad : pad table = ∅ := pad_eq_empty.mpr hempty
    rw [hsize, hzero]
    simp [Channels.touchAction, hpad, others_insert_new hnew]
  · have hpos : table.size ≠ 0 := fun hzero =>
      hempty (Std.ExtTreeMap.eq_empty_iff_size_eq_zero.mpr hzero)
    have hpad : pad table ≠ ∅ := fun heq => hempty (pad_eq_empty.mp heq)
    have hids : ∀ old ∈ pad table, old.id ≠ held.wireId := by
      intro old hold
      obtain ⟨key, found, hfound, rfl⟩ := mem_pad.mp hold
      exact hfree hfound
    have haction : Channels.touchAction 0 (table.insert contact held).size = 5 := by
      rw [Channels.touchAction, if_pos (by omega)]
    rw [haction]
    simp only [others_insert_new hnew, true_and]
    rw [if_pos ⟨hpad, hids⟩]

theorem replay_continued {old held : Contact} {phase : ℕ} (h : Table display table)
    (hnext : Table display (table.insert contact held)) (hold : table[contact]? = some old)
    (hid : held.wireId = old.wireId) (hphase : phase ≠ 0 ∧ phase ≤ 3) :
    (motion (table.insert contact held) contact
        (Channels.touchAction phase (table.insert contact held).size)).replay (pad table) =
      some (pad (Channels.remaining (table.insert contact held) contact phase)) := by
  have hheld : (table.insert contact held)[contact]? = some held := by
    rw [Library.NatMap.getElem?_insert, if_pos rfl]
  have hcontinues : ∀ action, (motion (table.insert contact held) contact action).Continues
      (pad table) held.pointer := fun action => continues_insert h hold hid
  rw [replay_motion hnext hheld]
  have hcases : phase = 1 ∨ phase = 2 ∨ phase = 3 := by omega
  rcases hcases with rfl | rfl | rfl
  · have haction : Channels.touchAction 1 (table.insert contact held).size = 2 := rfl
    have hremaining : Channels.remaining (table.insert contact held) contact 1 =
        table.insert contact held := rfl
    rw [haction, hremaining]
    simp only [if_pos (hcontinues 2)]
    rw [pad_insert table contact 2 held]
  · have hremaining : Channels.remaining (table.insert contact held) contact 2 =
        (table.insert contact held).erase contact := rfl
    have hcontains : (table.insert contact held).contains contact = true := by simp
    have hsize : ((table.insert contact held).erase contact).size =
        (table.insert contact held).size - 1 := by
      rw [Std.ExtTreeMap.size_erase, if_pos hcontains]
    have hpositive : (table.insert contact held).size ≠ 0 := fun hzero =>
      Std.ExtTreeMap.ne_empty_of_mem (Std.ExtTreeMap.contains_iff_mem.mp hcontains)
        (Std.ExtTreeMap.eq_empty_iff_size_eq_zero.mpr hzero)
    have hempty : ((table.insert contact held).erase contact) = ∅ ↔
        ¬1 < (table.insert contact held).size := by
      rw [Std.ExtTreeMap.eq_empty_iff_size_eq_zero, hsize]
      omega
    rw [hremaining]
    by_cases hlast : 1 < (table.insert contact held).size
    · have haction : Channels.touchAction 2 (table.insert contact held).size = 6 := by
        rw [Channels.touchAction, if_pos hlast]
      have hothers : (motion (table.insert contact held) contact 6).others ≠ ∅ := by
        rw [others_insert, ne_eq, pad_eq_empty, hempty, not_not]
        exact hlast
      rw [haction]
      simp only [if_pos (And.intro (hcontinues 6) hothers)]
      rw [others_insert]
    · have haction : Channels.touchAction 2 (table.insert contact held).size = 1 := by
        rw [Channels.touchAction, if_neg hlast]
      have hothers : (motion (table.insert contact held) contact 1).others = ∅ := by
        rw [others_insert, pad_eq_empty, hempty]
        exact hlast
      rw [haction]
      simp only [if_pos (And.intro (hcontinues 1) hothers)]
      rw [hempty.mpr hlast, pad_empty]
  · have haction : Channels.touchAction 3 (table.insert contact held).size = 3 := rfl
    rw [haction]
    simp only [if_pos (hcontinues 3), Channels.remaining, if_true, pad_empty]

/-! ## One touch -/

namespace Channels

/-- When the touch screen reports a touch: the input channel is open, the coordinates
are on the screen, and the phase fits the contact. -/
def Acceptable (channels : Channels) (pointer phase : ℕ) (x y : Option ℚ) : Prop :=
  8 ∈ channels.opened ∧ inRange x = true ∧ inRange y = true ∧ phase ≤ 3 ∧
    if phase = 0 then pointer ∉ channels.pointers ∧ channels.pointers.size < 10
    else pointer ∈ channels.pointers

/-- The refused call: nothing is emitted, and nothing changes. -/
def Refused (channels next : Channels) (output : Output) : Prop :=
  next = channels ∧ ∀ effects, output = .ok effects → effects = []

/-- The reported call: the contact is put at its new position, and the report is the
motion event of the table with the contact there. -/
def Reported (channels next : Channels) (pointer phase : ℕ) (output : Output) : Prop :=
  ∃ body held large,
    Allotted channels.pointers pointer held.wireId ∧
    Table channels.display.1 (channels.pointers.insert pointer held) ∧
    next = { channels with
      pointers := remaining (channels.pointers.insert pointer held) pointer phase
      reportedLargePointer := large } ∧
    output = .ok [.reply (Reply.new 8 0x8001 body)] ∧
    decodeMotion body = some (motion (channels.pointers.insert pointer held) pointer
      (touchAction phase (channels.pointers.insert pointer held).size))

theorem pixel_lt (scaling : Scaling) {x : Option ℚ} {width : ℕ} (hx : inRange x = true)
    (hwidth : 0 < width) : scaling.pixel (x.getD 0) (width - 1) < width := by
  cases x with
  | none => exact nomatch hx
  | some x =>
    simp only [inRange, Bool.and_eq_true, decide_eq_true_eq] at hx
    have hle := scaling.pixel_le (width - 1) hx.1 hx.2
    simp only [Option.getD_some]
    omega

/-- The report is what the consumer decodes. -/
theorem decodeMotion_touch {display : Display} {pointers : Contacts} (pointer phase : ℕ)
    (timestamp : UInt64) (h : Table display.1 pointers) :
    decodeMotion ((({} : Proto).number 1 timestamp.toNat).nested 3
      ((pointerData pointers).number 2 (pointerIndex pointers pointer)
        |>.number 3 (touchAction phase pointers.size))).octets =
      some (motion pointers pointer (touchAction phase pointers.size)) := by
  obtain ⟨-, -, hwidth, hheight, -⟩ := display.bounds
  have hcount : (pointers.toList.map (·.2)).length ≤ 10 := by
    rw [List.length_map, Std.ExtTreeMap.length_toList]
    exact h.size
  have hfits : ∀ contact ∈ pointers.toList.map (·.2), contact.Fits := by
    intro contact hmem
    obtain ⟨⟨key, held⟩, hentry, rfl⟩ := List.mem_map.mp hmem
    have hheld := Std.ExtTreeMap.mem_toList_iff_getElem?_eq_some.mp hentry
    have hinside := h.inside hheld
    have hcontent : display.1.contentWidth ≤ display.1.width ∧
        display.1.contentHeight ≤ display.1.height := by
      unfold DisplayConfig.contentWidth DisplayConfig.contentHeight
      omega
    refine ⟨h.small hheld, ?_, ?_⟩ <;> dsimp only <;> omega
  have hindex : pointerIndex pointers pointer < 2 ^ 64 := by
    have hle : pointers.toList.findIdx (·.1 = pointer) ≤ pointers.toList.length :=
      List.findIdx_le_length
    rw [Std.ExtTreeMap.length_toList] at hle
    have hsize := h.size
    unfold pointerIndex
    omega
  have haction : touchAction phase pointers.size < 2 ^ 64 := by
    unfold touchAction
    split <;> (try split) <;> omega
  have hreport := decodeMotion_report timestamp hcount hfits hindex haction
  rw [touchData, List.foldl_map, List.map_map] at hreport
  exact hreport

/-- A touch is reported if and only if it is acceptable, and refused otherwise. -/
theorem touch_cases (scaling : Scaling) {channels : Channels}
    (h : Table channels.display.1 channels.pointers) (pointer phase : ℕ) (x y : Option ℚ)
    (timestamp : UInt64) :
    (channels.Acceptable pointer phase x y ∧
      channels.Reported (step scaling channels (.touch pointer phase x y timestamp)).1 pointer phase
        (step scaling channels (.touch pointer phase x y timestamp)).2) ∨
    (¬channels.Acceptable pointer phase x y ∧
      channels.Refused (step scaling channels (.touch pointer phase x y timestamp)).1
        (step scaling channels (.touch pointer phase x y timestamp)).2) := by
  simp only [step, touch]
  by_cases hopen : 8 ∈ channels.opened
  swap
  · rw [if_pos hopen]
    exact Or.inr ⟨fun haccept => hopen haccept.1, rfl, by simp⟩
  rw [if_neg (not_not.mpr hopen)]
  by_cases hrange : (!inRange x || !inRange y || decide (3 < phase)) = true
  · rw [if_pos hrange]
    refine Or.inr ⟨?_, rfl, fun _ heq => by cases heq⟩
    rintro ⟨-, hx, hy, hphase, -⟩
    simp only [hx, hy, Bool.not_true, Bool.false_or, decide_eq_true_eq] at hrange
    omega
  rw [if_neg hrange]
  simp only [Bool.or_eq_true, Bool.not_eq_true', decide_eq_true_eq, not_or, Bool.not_eq_false,
    not_lt] at hrange
  obtain ⟨⟨hx, hy⟩, hphase⟩ := hrange
  by_cases hfits : if phase = 0 then pointer ∉ channels.pointers ∧ channels.pointers.size < 10
    else pointer ∈ channels.pointers
  · left
    refine ⟨⟨hopen, hx, hy, hphase, hfits⟩, ?_⟩
    have hroom : pointer ∈ channels.pointers ∨ channels.pointers.size < 10 := by
      split at hfits
      · exact Or.inr hfits.2
      · exact Or.inl hfits
    have hdown : ¬(phase = 0 ∧ (10 ≤ channels.pointers.size ∨
        channels.pointers.contains pointer = true)) := by
      rintro ⟨hzero, hfull⟩
      rw [if_pos hzero] at hfits
      rcases hfull with hfull | hthere
      · omega
      · exact hfits.1 (Std.ExtTreeMap.contains_iff_mem.mp hthere)
    have hgoing : ¬(phase ≠ 0 ∧ (!channels.pointers.contains pointer) = true) := by
      rintro ⟨hzero, hmissing⟩
      rw [if_neg hzero] at hfits
      rw [Std.ExtTreeMap.contains_iff_mem.mpr hfits] at hmissing
      cases hmissing
    obtain ⟨id, hid, hallotted⟩ := wireId_spec h hroom
    obtain ⟨hwidth, hheight, -⟩ := channels.display.bounds
    rw [if_neg hdown, if_neg hgoing, hid]
    have hnext : Table channels.display.1 (channels.pointers.insert pointer
        ⟨id, scaling.pixel (x.getD 0) (channels.display.1.contentWidth - 1),
          scaling.pixel (y.getD 0) (channels.display.1.contentHeight - 1)⟩) :=
      h.insert hroom hallotted ⟨pixel_lt scaling hx hwidth, pixel_lt scaling hy hheight⟩
    exact ⟨_, _, _, hallotted, hnext, rfl, rfl, decodeMotion_touch pointer phase timestamp hnext⟩
  · right
    refine ⟨fun haccept => hfits haccept.2.2.2.2, ?_⟩
    by_cases hzero : phase = 0
    · rw [if_pos hzero] at hfits
      have hdown : phase = 0 ∧ (10 ≤ channels.pointers.size ∨
          channels.pointers.contains pointer = true) := by
        refine ⟨hzero, ?_⟩
        by_cases hthere : pointer ∈ channels.pointers
        · exact Or.inr (Std.ExtTreeMap.contains_iff_mem.mpr hthere)
        · exact Or.inl (Nat.le_of_not_lt fun hsize => hfits ⟨hthere, hsize⟩)
      rw [if_pos hdown]
      exact ⟨rfl, by simp⟩
    · rw [if_neg hzero] at hfits
      have hgoing : phase ≠ 0 ∧ (!channels.pointers.contains pointer) = true := by
        refine ⟨hzero, ?_⟩
        rw [Bool.not_eq_true', ← Bool.not_eq_true, Std.ExtTreeMap.contains_iff_mem]
        exact hfits
      rw [if_neg (fun hdown => hzero hdown.1), if_pos hgoing]
      exact ⟨rfl, by simp⟩

/-! ## Whole runs -/

/-- The reports of the touches, in their order. -/
def motionBodies (history : List Entry) : List (List UInt8) :=
  history.flatMap fun
    | (.touch .., .ok effects) => effects.filterMap fun
      | .reply sent => some sent.body
      | _ => none
    | _ => []

/-- The pointers a consumer of all reports holds, unless it refused one. -/
def heldAfter (history : List Entry) : Option (Finset Pointer) :=
  (motionBodies history).foldlM consume ∅

/-- The host's live contacts after a reported touch: a cancel ends them all. -/
def liveAfter (live : Finset ℕ) (pointer phase : ℕ) : Finset ℕ :=
  match phase with
  | 0 => insert pointer live
  | 1 => live
  | 2 => live.erase pointer
  | _ => ∅

/-- The host's live contacts after a history. -/
def liveContacts (history : List Entry) : Finset ℕ :=
  history.foldl (fun live entry => match entry with
    | (.touch pointer phase _ _ _, .ok [.reply _]) => liveAfter live pointer phase
    | _ => live) ∅

/-- The consumer holds the pointers of the table, and the table the live contacts. -/
structure Replays (channels : Channels) (history : List Entry) : Prop where
  table : Table channels.display.1 channels.pointers
  held : heldAfter history = some (pad channels.pointers)
  live : ∀ pointer, pointer ∈ channels.pointers ↔ pointer ∈ liveContacts history

/-- The Android action of a phase: first down, further down, last up, further up. -/
def actionOf (before after : Contacts) : ℕ → ℕ
  | 0 => if before.isEmpty then 0 else 5
  | 1 => 2
  | 2 => if after.isEmpty then 1 else 6
  | _ => 3

/-- The Android id of a contact that was there before the touch or is there after it. -/
def idOf (before after : Contacts) (pointer : ℕ) : Option ℕ :=
  (before[pointer]?.or after[pointer]?).map (·.wireId)

/-- What one touch does. A refused one emits nothing and changes nothing. -/
structure TouchLaw (channels next : Channels) (pointer phase : ℕ) (x y : Option ℚ)
    (output : Output) : Prop where
  reported : channels.Acceptable pointer phase x y → ∃ sent event changed,
    output = .ok [.reply sent] ∧ decodeMotion sent.body = some event ∧
      event.changed = some changed ∧
      idOf channels.pointers next.pointers pointer = some changed.id ∧
      event.action = actionOf channels.pointers next.pointers phase
  refused : ¬channels.Acceptable pointer phase x y → channels.Refused next output

/-- A contact keeps its Android id for as long as it is there. -/
def Stable (channels next : Channels) : Prop :=
  ∀ (pointer : ℕ) (old new : Contact), channels.pointers[pointer]? = some old →
    next.pointers[pointer]? = some new → new.wireId = old.wireId

variable {channels next : Channels} {history : List Entry} {pointer phase : ℕ} {x y : Option ℚ}
  {output : Output}

theorem getElem?_remaining {pointers : Contacts} {key : ℕ} {found : Contact}
    (h : (remaining pointers pointer phase)[key]? = some found) : pointers[key]? = some found := by
  unfold remaining at h
  split at h
  · simp at h
  split at h
  · rw [Library.NatMap.getElem?_erase] at h
    split at h
    · exact nomatch h
    · exact h
  · exact h

theorem Reported.stable (h : channels.Reported next pointer phase output) :
    Stable channels next := by
  obtain ⟨body, held, large, hallotted, -, rfl, -, -⟩ := h
  intro key old new hold hnew
  have hinserted := getElem?_remaining hnew
  rw [Library.NatMap.getElem?_insert] at hinserted
  split at hinserted
  · rename_i hkey
    cases hinserted
    exact ((hallotted.2 hold).mpr hkey.symm).symm
  · rw [hold] at hinserted
    rw [Option.some.inj hinserted]

theorem Reported.nextTable (h : channels.Reported next pointer phase output) :
    Table next.display.1 next.pointers := by
  obtain ⟨body, held, large, -, htable, rfl, -, -⟩ := h
  dsimp only [remaining]
  split
  · exact table_empty _
  split
  · exact htable.erase _
  · exact htable

/-- The consumer follows a report. -/
theorem Reported.consumed (h : channels.Reported next pointer phase output)
    (htable : Table channels.display.1 channels.pointers)
    (haccept : channels.Acceptable pointer phase x y) :
    ∃ sent, output = .ok [.reply sent] ∧
      consume (pad channels.pointers) sent.body = some (pad next.pointers) := by
  obtain ⟨body, held, large, hallotted, hnext, rfl, rfl, hdecode⟩ := h
  refine ⟨_, rfl, ?_⟩
  simp only [consume, Reply.new, hdecode, bind, Option.bind]
  obtain ⟨-, -, -, hphase, hfits⟩ := haccept
  by_cases hzero : phase = 0
  · subst hzero
    rw [if_pos rfl] at hfits
    apply replay_down hnext hfits.1
    intro key old hold heq
    have hkey := (hallotted.2 hold).mp heq
    subst hkey
    exact hfits.1 ((Library.NatMap.mem_iff _).mpr ⟨old, hold⟩)
  · rw [if_neg hzero] at hfits
    obtain ⟨old, hold⟩ := (Library.NatMap.mem_iff _).mp hfits
    have hid := (hallotted.2 hold).mpr rfl
    exact replay_continued htable hnext hold hid.symm ⟨hzero, hphase⟩

/-- The contacts after a report. -/
theorem Reported.contacts (h : channels.Reported next pointer phase output)
    (haccept : channels.Acceptable pointer phase x y) (live : Finset ℕ)
    (hlive : ∀ key, key ∈ channels.pointers ↔ key ∈ live) :
    ∀ key, key ∈ next.pointers ↔ key ∈ liveAfter live pointer phase := by
  obtain ⟨body, held, large, -, -, rfl, -, -⟩ := h
  obtain ⟨-, -, -, hphase, hfits⟩ := haccept
  intro key
  have hinsert : key ∈ channels.pointers.insert pointer held ↔ key = pointer ∨ key ∈ live := by
    rw [Std.ExtTreeMap.mem_insert, hlive, Std.LawfulEqCmp.compare_eq_iff_eq, eq_comm]
  have hcases : phase = 0 ∨ phase = 1 ∨ phase = 2 ∨ phase = 3 := by omega
  rcases hcases with rfl | rfl | rfl | rfl
  · simp only [remaining, liveAfter, Finset.mem_insert]
    exact hinsert
  · have hmem : pointer ∈ live := (hlive pointer).mp (by simpa using hfits)
    simp only [remaining, liveAfter]
    refine hinsert.trans ⟨?_, Or.inr⟩
    rintro (rfl | hkey)
    · exact hmem
    · exact hkey
  · simp only [remaining, liveAfter, Finset.mem_erase]
    have herase : key ∈ (channels.pointers.insert pointer held).erase pointer ↔
        pointer ≠ key ∧ key ∈ channels.pointers.insert pointer held := by
      rw [Std.ExtTreeMap.mem_erase, ne_eq, Std.LawfulEqCmp.compare_eq_iff_eq]
    refine herase.trans ?_
    rw [hinsert]
    constructor
    · rintro ⟨hne, heq | hkey⟩
      · exact absurd heq.symm hne
      · exact ⟨Ne.symm hne, hkey⟩
    · rintro ⟨hne, hkey⟩
      exact ⟨Ne.symm hne, Or.inr hkey⟩
  · simp [remaining, liveAfter]

/-- The law of a reported touch. -/
theorem Reported.law (h : channels.Reported next pointer phase output)
    (haccept : channels.Acceptable pointer phase x y) :
    ∃ sent event changed, output = .ok [.reply sent] ∧ decodeMotion sent.body = some event ∧
      event.changed = some changed ∧
      idOf channels.pointers next.pointers pointer = some changed.id ∧
      event.action = actionOf channels.pointers next.pointers phase := by
  obtain ⟨body, held, large, hallotted, htable, rfl, rfl, hdecode⟩ := h
  obtain ⟨-, -, -, hphase, hfits⟩ := haccept
  have hheld : (channels.pointers.insert pointer held)[pointer]? = some held := by
    rw [Library.NatMap.getElem?_insert, if_pos rfl]
  have hcontains : (channels.pointers.insert pointer held).contains pointer = true := by simp
  have hsize := Std.ExtTreeMap.size_insert (t := channels.pointers) (k := pointer) (v := held)
  refine ⟨_, _, held.pointer, rfl, hdecode, changed_motion hheld, ?_, ?_⟩
  · by_cases hzero : phase = 0
    · subst hzero
      rw [if_pos rfl] at hfits
      have hnone := (Library.NatMap.not_mem_iff _).mp hfits.1
      simp only [idOf, hnone, Option.none_or, remaining]
      exact congrArg (Option.map (·.wireId)) hheld
    · rw [if_neg hzero] at hfits
      obtain ⟨old, hold⟩ := (Library.NatMap.mem_iff _).mp hfits
      have hid := (hallotted.2 hold).mpr rfl
      simp only [idOf, hold, Option.some_or, Option.map_some, hid]
      rfl
  · have hcases : phase = 0 ∨ phase = 1 ∨ phase = 2 ∨ phase = 3 := by omega
    rcases hcases with rfl | rfl | rfl | rfl
    · have hnew : ¬channels.pointers.contains pointer = true := by simpa using hfits.1
      rw [if_neg hnew] at hsize
      simp only [motion, touchAction, actionOf, hsize, Std.ExtTreeMap.isEmpty_eq_size_beq_zero,
        beq_iff_eq]
      by_cases hempty : channels.pointers.size = 0
      · rw [if_neg (by omega), if_pos hempty]
      · rw [if_pos (by omega), if_neg hempty]
    · rfl
    · have herase := Std.ExtTreeMap.size_erase (t := channels.pointers.insert pointer held)
        (k := pointer)
      rw [if_pos hcontains] at herase
      have hpositive : (channels.pointers.insert pointer held).size ≠ 0 := fun hzero =>
        Std.ExtTreeMap.ne_empty_of_mem (Std.ExtTreeMap.contains_iff_mem.mp hcontains)
          (Std.ExtTreeMap.eq_empty_iff_size_eq_zero.mpr hzero)
      have hafter : (remaining (channels.pointers.insert pointer held) pointer 2).size =
          (channels.pointers.insert pointer held).size - 1 := herase
      simp only [motion, touchAction, actionOf, hafter, Std.ExtTreeMap.isEmpty_eq_size_beq_zero,
        beq_iff_eq]
      by_cases hlast : 1 < (channels.pointers.insert pointer held).size
      · rw [if_pos hlast, if_neg (by omega)]
      · rw [if_neg hlast, if_pos (by omega)]
    · rfl

/-- No message touches the contacts or the display. -/
theorem Handled.contacts {channel id : ℕ} {body : List UInt8} {effects : List Effect}
    (h : Handled channels channel id body next effects) :
    next.pointers = channels.pointers ∧ next.display = channels.display := by
  cases h with
  | focus =>
    unfold handleFocus
    dsimp only
    split <;> exact ⟨rfl, rfl⟩
  | _ => exact ⟨rfl, rfl⟩

theorem motionBodies_concat (history : List Entry) (entry : Entry) :
    motionBodies (history ++ [entry]) = motionBodies history ++ motionBodies [entry] :=
  List.flatMap_append

theorem heldAfter_concat {history : List Entry} {held : Finset Pointer}
    (h : heldAfter history = some held) (entry : Entry) :
    heldAfter (history ++ [entry]) = (motionBodies [entry]).foldlM consume held := by
  rw [heldAfter, motionBodies_concat, List.foldlM_append, ← heldAfter, h]
  rfl

/-- A call without a report, which leaves the contacts alone. -/
theorem Replays.silent (h : channels.Replays history) {entry : Entry}
    (hpointers : next.pointers = channels.pointers) (hdisplay : next.display = channels.display)
    (hbodies : motionBodies [entry] = [])
    (hlive : liveContacts (history ++ [entry]) = liveContacts history) :
    next.Replays (history ++ [entry]) where
  table := by
    rw [hpointers, hdisplay]
    exact h.table
  held := by
    rw [heldAfter_concat h.held, hbodies, hpointers]
    rfl
  live := by
    rw [hlive, hpointers]
    exact h.live

/-- One call of the session, whatever it is. -/
theorem step_replays (scaling : Scaling) (h : channels.Replays history) (input : Input) :
    (step scaling channels input).1.Replays (history ++ [(input, (step scaling channels input).2)]) ∧
      Stable channels (step scaling channels input).1 := by
  have hsame : ∀ next : Channels, next.pointers = channels.pointers → Stable channels next := by
    intro next heq key old new hold hnew
    rw [heq, hold] at hnew
    rw [Option.some.inj hnew]
  cases input with
  | message channel id body =>
    have hkept : (step scaling channels (.message channel id body)).1.pointers =
          channels.pointers ∧
        (step scaling channels (.message channel id body)).1.display = channels.display := by
      simp only [step]
      cases hhandle : channels.handle channel id body with
      | error text => exact ⟨rfl, rfl⟩
      | ok result => exact (handle_cases hhandle).contacts
    refine ⟨h.silent hkept.1 hkept.2 rfl ?_, hsame _ hkept.1⟩
    rw [liveContacts, List.foldl_concat]
    rfl
  | setVideoRequested requested =>
    refine ⟨h.silent rfl rfl rfl ?_, hsame _ rfl⟩
    rw [liveContacts, List.foldl_concat]
    rfl
  | mediaKey code timestamp =>
    refine ⟨h.silent rfl rfl rfl ?_, hsame _ rfl⟩
    rw [liveContacts, List.foldl_concat]
    rfl
  | touch pointer phase x y timestamp =>
    rcases touch_cases scaling h.table pointer phase x y timestamp with
      ⟨haccept, hreported⟩ | ⟨-, hnext, hempty⟩
    · refine ⟨⟨hreported.nextTable, ?_, ?_⟩, hreported.stable⟩
      · obtain ⟨sent, houtput, hconsume⟩ := hreported.consumed h.table haccept
        rw [houtput, heldAfter_concat h.held]
        simpa [motionBodies] using hconsume
      · obtain ⟨sent, houtput, -⟩ := hreported.consumed h.table haccept
        have hlive : liveContacts (history ++
            [(.touch pointer phase x y timestamp, .ok [.reply sent])]) =
              liveAfter (liveContacts history) pointer phase := by
          rw [liveContacts, List.foldl_concat]
          rfl
        rw [houtput, hlive]
        exact hreported.contacts haccept _ h.live
    · -- A refused touch has no report for the consumer to read.
      rw [hnext]
      have hsilent : ∀ output : Output, (∀ effects, output = .ok effects → effects = []) →
          motionBodies [(.touch pointer phase x y timestamp, output)] = [] ∧
          liveContacts (history ++ [(.touch pointer phase x y timestamp, output)]) =
            liveContacts history := by
        intro output houtput
        cases output with
        | error text =>
          rw [liveContacts, List.foldl_concat]
          exact ⟨rfl, rfl⟩
        | ok effects =>
          rw [houtput effects rfl, liveContacts, List.foldl_concat]
          exact ⟨rfl, rfl⟩
      obtain ⟨hbodies, hlive⟩ := hsilent _ hempty
      exact ⟨h.silent rfl rfl hbodies hlive, hsame _ rfl⟩

/-- A consumer of all reports never refuses one and holds exactly the pointers of the
host's live contacts, each with an Android id of its own; a contact keeps its id; and
every touch is either reported with the action and the index that denote it, or refused
without any effect. -/
theorem touch_contract (scaling : Scaling) (display : Display) (offerHevc : Bool)
    (inputs : List Input) :
    let reached := run (step scaling) (withHevc display offerHevc) inputs
    reached.1.Replays reached.2 ∧
      (∀ input, Stable reached.1 (step scaling reached.1 input).1) ∧
      ∀ pointer phase x y timestamp,
        TouchLaw reached.1 (step scaling reached.1 (.touch pointer phase x y timestamp)).1 pointer
          phase x y (step scaling reached.1 (.touch pointer phase x y timestamp)).2 := by
  intro reached
  have hreplays : reached.1.Replays reached.2 := by
    apply run_history (step scaling) (I := Replays)
    · exact ⟨table_empty _, by rw [withHevc, pad_empty]; rfl, by simp [withHevc, liveContacts]⟩
    · intro channels history input h
      exact (step_replays scaling h input).1
  refine ⟨hreplays, fun input => (step_replays scaling hreplays input).2, ?_⟩
  intro pointer phase x y timestamp
  rcases touch_cases scaling hreplays.table pointer phase x y timestamp with
    ⟨haccept, hreported⟩ | ⟨hrefuse, hrefused⟩
  · exact ⟨fun _ => hreported.law haccept, fun hrefuse => absurd haccept hrefuse⟩
  · exact ⟨fun haccept => absurd haccept hrefuse, fun _ => hrefused⟩

end Channels

end ProjectArgo.Projection
