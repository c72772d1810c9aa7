import Mathlib.Data.List.Perm.Subperm
import Mathlib.Logic.Function.Basic
import ProjectArgo.Library.Assoc
import ProjectArgo.Library.Run
import ProjectArgo.Projection.AaWire

/-!
# Reassembly of Android Auto messages

Messages of several channels are reassembled from their fragments at a time, within one
budget. Every channel by itself says what each of its fragments leads to; the code does the
same for all of them in any interleaving.
-/
namespace ProjectArgo.Projection.AaWire

open Library Library.Run

/-- Flags and bytes of the message that a channel has not finished. -/
abbrev Unfinished := UInt8 × List UInt8

abbrev Reply := Except String (Option (List UInt8))

namespace Messages

def buffered (fragments : List (UInt8 × Unfinished)) : ℕ :=
  (fragments.map fun entry => entry.2.2.length).sum

/-- `Messages.accept`, once a first fragment has its entry. -/
def extend (fragments : List (UInt8 × Unfinished)) (packet : Packet) :
    List (UInt8 × Unfinished) × Reply :=
  if buffered fragments + packet.bytes.length > maxMessage then
    (fragments, .error "AA reassembly limit")
  else
    match fragments.lookup packet.channel with
    | none => (fragments, .error "AA continuation without first fragment")
    | some (original, data) =>
      if original ≠ packet.flags &&& 0x0c then (fragments, .error "AA fragment flags changed")
      else if packet.flags &&& 2 ≠ 0 then
        (Assoc.erase fragments packet.channel, .ok (some (data ++ packet.bytes)))
      else (Assoc.put fragments packet.channel (original, data ++ packet.bytes), .ok none)

/-- `Messages.accept`. -/
def accept (fragments : List (UInt8 × Unfinished)) (packet : Packet) :
    List (UInt8 × Unfinished) × Reply :=
  if packet.flags &&& 1 ≠ 0 then
    if (fragments.lookup packet.channel).isSome then
      (fragments, .error "AA fragment overwritten")
    else if packet.flags &&& 2 ≠ 0 then (fragments, .ok (some packet.bytes))
    else if fragments.length ≥ 16 then (fragments, .error "too many AA fragment channels")
    else extend (Assoc.put fragments packet.channel (packet.flags &&& 0x0c, [])) packet
  else extend fragments packet

variable {fragments : List (UInt8 × Unfinished)} {packet : Packet}

/-- A whole message or a first fragment on a channel that has nothing unfinished, or one that
goes on with what its channel has, and room for it. -/
def Admits (fragments : List (UInt8 × Unfinished)) (packet : Packet) : Prop :=
  (fragments.lookup packet.channel = none ∧ packet.flags &&& 1 ≠ 0 ∧
      (packet.flags &&& 2 ≠ 0 ∨
        (fragments.length < 16 ∧ buffered fragments + packet.bytes.length ≤ maxMessage))) ∨
    ((∃ data, fragments.lookup packet.channel = some (packet.flags &&& 0x0c, data)) ∧
      packet.flags &&& 1 = 0 ∧ buffered fragments + packet.bytes.length ≤ maxMessage)

/-- What a packet leads to, by the entry of its channel. -/
inductive Accepts (fragments : List (UInt8 × Unfinished)) (packet : Packet) :
    List (UInt8 × Unfinished) → Reply → Prop
  | refused (e : String) (hwrong : ¬ Admits fragments packet) :
      Accepts fragments packet fragments (.error e)
  | single (hentry : fragments.lookup packet.channel = none) (hfirst : packet.flags &&& 1 ≠ 0)
      (hlast : packet.flags &&& 2 ≠ 0) :
      Accepts fragments packet fragments (.ok (some packet.bytes))
  | opened (hentry : fragments.lookup packet.channel = none) (hfirst : packet.flags &&& 1 ≠ 0)
      (hlast : packet.flags &&& 2 = 0) (hcount : fragments.length < 16)
      (hroom : buffered fragments + packet.bytes.length ≤ maxMessage) :
      Accepts fragments packet
        (fragments ++ [(packet.channel, packet.flags &&& 0x0c, packet.bytes)]) (.ok none)
  | started (hentry : fragments.lookup packet.channel = none) (hfirst : packet.flags &&& 1 ≠ 0)
      (hlast : packet.flags &&& 2 = 0) (hcount : fragments.length < 16)
      (hroom : maxMessage < buffered fragments + packet.bytes.length) :
      Accepts fragments packet (fragments ++ [(packet.channel, packet.flags &&& 0x0c, [])])
        (.error "AA reassembly limit")
  | continued {data : List UInt8}
      (hentry : fragments.lookup packet.channel = some (packet.flags &&& 0x0c, data))
      (hfirst : packet.flags &&& 1 = 0) (hlast : packet.flags &&& 2 = 0)
      (hroom : buffered fragments + packet.bytes.length ≤ maxMessage) :
      Accepts fragments packet
        (Assoc.put fragments packet.channel (packet.flags &&& 0x0c, data ++ packet.bytes))
        (.ok none)
  | finished {data : List UInt8}
      (hentry : fragments.lookup packet.channel = some (packet.flags &&& 0x0c, data))
      (hfirst : packet.flags &&& 1 = 0) (hlast : packet.flags &&& 2 ≠ 0)
      (hroom : buffered fragments + packet.bytes.length ≤ maxMessage) :
      Accepts fragments packet (Assoc.erase fragments packet.channel)
        (.ok (some (data ++ packet.bytes)))

theorem buffered_concat (entry : UInt8 × Unfinished) :
    buffered (fragments ++ [entry]) = buffered fragments + entry.2.2.length := by
  rw [buffered, List.map_append, List.sum_append]
  rfl

theorem lookup_concat_self (hentry : fragments.lookup packet.channel = none)
    (value : Unfinished) :
    (fragments ++ [(packet.channel, value)]).lookup packet.channel = some value := by
  rw [List.lookup_append, hentry, Option.none_or, List.lookup_cons, beq_self_eq_true]

theorem put_concat_self (hentry : fragments.lookup packet.channel = none)
    (value other : Unfinished) :
    Assoc.put (fragments ++ [(packet.channel, value)]) packet.channel other =
      fragments ++ [(packet.channel, other)] := by
  unfold Assoc.put
  rw [if_pos (by simp), List.map_append]
  congr 1
  · refine (List.map_congr_left fun entry hmem => ?_).trans (List.map_id _)
    exact if_neg (Assoc.lookup_eq_none_iff.mp hentry entry hmem)
  · simp

theorem accept_cases (fragments : List (UInt8 × Unfinished)) (packet : Packet) :
    Accepts fragments packet (accept fragments packet).1 (accept fragments packet).2 := by
  unfold accept
  by_cases hfirst : packet.flags &&& 1 ≠ 0
  · rw [if_pos hfirst]
    rcases hentry : fragments.lookup packet.channel with _ | value
    · rw [if_neg (by simp)]
      by_cases hlast : packet.flags &&& 2 ≠ 0
      · rw [if_pos hlast]
        exact .single hentry hfirst hlast
      · rw [if_neg hlast]
        rw [not_not] at hlast
        by_cases hcount : fragments.length ≥ 16
        · rw [if_pos hcount]
          refine .refused _ ?_
          rintro (⟨-, -, hfinal | ⟨hless, -⟩⟩ | ⟨-, hlater, -⟩)
          · exact hfinal hlast
          · exact Nat.not_lt_of_le hcount hless
          · exact hfirst hlater
        · rw [if_neg hcount, Assoc.put_of_lookup_none hentry]
          unfold extend
          rw [buffered_concat, lookup_concat_self hentry]
          by_cases hroom : buffered fragments + packet.bytes.length ≤ maxMessage
          · simp only [List.length_nil, Nat.add_zero, gt_iff_lt, Nat.not_lt_of_le hroom, if_false,
              ne_eq, not_true_eq_false, hlast, List.nil_append, put_concat_self hentry]
            exact .opened hentry hfirst hlast (Nat.lt_of_not_le hcount) hroom
          · rw [if_pos (by simpa using hroom)]
            exact .started hentry hfirst hlast (Nat.lt_of_not_le hcount) (Nat.lt_of_not_le hroom)
    · rw [if_pos Option.isSome_some]
      refine .refused _ ?_
      rintro (⟨hnone, -⟩ | ⟨-, hlater, -⟩)
      · rw [hentry] at hnone
        cases hnone
      · exact hfirst hlater
  · rw [if_neg hfirst]
    rw [not_not] at hfirst
    unfold extend
    by_cases hroom : buffered fragments + packet.bytes.length ≤ maxMessage
    · rw [if_neg (Nat.not_lt_of_le hroom)]
      rcases hentry : fragments.lookup packet.channel with _ | ⟨original, data⟩
      · refine .refused _ ?_
        rintro (⟨-, hopens, -⟩ | ⟨⟨data, hsome⟩, -⟩)
        · exact hopens hfirst
        · rw [hentry] at hsome
          cases hsome
      · dsimp only
        by_cases hflags : original ≠ packet.flags &&& 0x0c
        · rw [if_pos hflags]
          refine .refused _ ?_
          rintro (⟨-, hopens, -⟩ | ⟨⟨other, hsome⟩, -⟩)
          · exact hopens hfirst
          · rw [hentry] at hsome
            cases hsome
            exact hflags rfl
        · rw [if_neg hflags]
          rw [not_not] at hflags
          subst hflags
          by_cases hlast : packet.flags &&& 2 ≠ 0
          · rw [if_pos hlast]
            exact .finished hentry hfirst hlast hroom
          · rw [if_neg hlast]
            exact .continued hentry hfirst (not_not.mp hlast) hroom
    · rw [if_pos (Nat.lt_of_not_le hroom)]
      refine .refused _ ?_
      rintro (⟨-, hopens, -⟩ | ⟨-, -, hfits⟩)
      · exact hopens hfirst
      · exact hroom hfits

/-! ## The budget -/

/-- One entry a channel, 16 of them at most, and no more bytes than a message may have. -/
structure Bounded (fragments : List (UInt8 × Unfinished)) : Prop where
  distinct : (fragments.map Prod.fst).Nodup
  channels : fragments.length ≤ 16
  bytes : buffered fragments ≤ maxMessage

theorem nodup_concat (h : (fragments.map Prod.fst).Nodup)
    (hentry : fragments.lookup packet.channel = none) (value : Unfinished) :
    ((fragments ++ [(packet.channel, value)]).map Prod.fst).Nodup := by
  rw [← Assoc.put_of_lookup_none hentry]
  exact Assoc.nodup_put h

theorem length_put {key : UInt8} {old value : Unfinished} (h : fragments.lookup key = some old) :
    (Assoc.put fragments key value).length = fragments.length := by
  unfold Assoc.put
  rw [if_pos, List.length_map]
  exact List.any_eq_true.mpr ⟨_, Assoc.mem_of_lookup h, decide_eq_true rfl⟩

theorem buffered_put {flags : UInt8} {data more : List UInt8}
    (h : (fragments.map Prod.fst).Nodup)
    (hentry : fragments.lookup packet.channel = some (flags, data)) :
    buffered (Assoc.put fragments packet.channel (flags, data ++ more)) =
      buffered fragments + more.length := by
  have hsum : buffered (Assoc.put fragments packet.channel (flags, data ++ more)) + data.length =
      buffered fragments + (data ++ more).length :=
    Assoc.sum_put h hentry fun entry => entry.2.2.length
  rw [List.length_append] at hsum
  omega

theorem buffered_erase {flags : UInt8} {data : List UInt8} (h : (fragments.map Prod.fst).Nodup)
    (hentry : fragments.lookup packet.channel = some (flags, data)) :
    buffered (Assoc.erase fragments packet.channel) + data.length = buffered fragments :=
  Assoc.sum_erase h hentry fun entry => entry.2.2.length

theorem bounded_accept (h : Bounded fragments) (packet : Packet) :
    Bounded (accept fragments packet).1 := by
  have hcases := accept_cases fragments packet
  generalize (accept fragments packet).1 = after at hcases ⊢
  generalize (accept fragments packet).2 = reply at hcases
  cases hcases with
  | refused e => exact h
  | single => exact h
  | opened hentry hfirst hlast hcount hroom =>
    refine ⟨nodup_concat h.distinct hentry _, ?_, ?_⟩
    · rw [List.length_append]
      exact hcount
    · rw [buffered_concat]
      exact hroom
  | started hentry hfirst hlast hcount =>
    refine ⟨nodup_concat h.distinct hentry _, ?_, ?_⟩
    · rw [List.length_append]
      exact hcount
    · rw [buffered_concat]
      exact h.bytes
  | continued hentry hfirst hlast hroom =>
    refine ⟨Assoc.nodup_put h.distinct, ?_, ?_⟩
    · rw [length_put hentry]
      exact h.channels
    · rw [buffered_put h.distinct hentry]
      exact hroom
  | finished hentry hfirst hlast hroom =>
    refine ⟨Assoc.nodup_erase h.distinct, ?_, ?_⟩
    · exact (List.length_filter_le _ _).trans h.channels
    · have herase := buffered_erase h.distinct hentry
      have hbytes := h.bytes
      omega

theorem bounded_nil : Bounded [] := ⟨List.nodup_nil, by decide, by decide⟩

theorem bounded_run (packets : List Packet) : Bounded (run accept [] packets).1 :=
  run_invariant accept (I := Bounded) bounded_nil
    (fun _ packet h => bounded_accept h packet) packets

/-! ## Fragments that belong together -/

/-- The bytes of the accepted packets of a channel. -/
def acceptedBytes (channel : UInt8) (history : List (Packet × Reply)) : List UInt8 :=
  history.flatMap fun entry =>
    match entry.2 with
    | .ok _ => if entry.1.channel = channel then entry.1.bytes else []
    | .error _ => []

/-- A later packet of the message that was begun, or refused, or of another channel. -/
def Belongs (channel flags : UInt8) (entry : Packet × Reply) : Prop :=
  entry.1.channel = channel → (∃ found, entry.2 = .ok found) →
    entry.1.flags &&& 3 = 0 ∧ entry.1.flags &&& 0x0c = flags

/-- The bytes are those of one message: of its first fragment and of what was accepted since. -/
def Assembled (history : List (Packet × Reply)) (channel flags : UInt8) (bytes : List UInt8) :
    Prop :=
  ∃ before first reply rest, history = before ++ (first, reply) :: rest ∧
    first.channel = channel ∧ first.flags &&& 3 = 1 ∧ first.flags &&& 0x0c = flags ∧
      (∀ entry ∈ rest, Belongs channel flags entry) ∧
        bytes = acceptedBytes channel ((first, reply) :: rest)

theorem acceptedBytes_append (channel : UInt8) (history more : List (Packet × Reply)) :
    acceptedBytes channel (history ++ more) =
      acceptedBytes channel history ++ acceptedBytes channel more :=
  List.flatMap_append

theorem flags_cases (flags : UInt8) :
    (flags &&& 3 = 0 ↔ flags &&& 1 = 0 ∧ flags &&& 2 = 0) ∧
      (flags &&& 3 = 1 ↔ flags &&& 1 ≠ 0 ∧ flags &&& 2 = 0) ∧
      (flags &&& 3 = 2 ↔ flags &&& 1 = 0 ∧ flags &&& 2 ≠ 0) ∧
      (flags &&& 3 = 3 ↔ flags &&& 1 ≠ 0 ∧ flags &&& 2 ≠ 0) := by
  suffices h : ∀ bits : BitVec 8,
      (UInt8.ofBitVec bits &&& 3 = 0 ↔
        UInt8.ofBitVec bits &&& 1 = 0 ∧ UInt8.ofBitVec bits &&& 2 = 0) ∧
      (UInt8.ofBitVec bits &&& 3 = 1 ↔
        UInt8.ofBitVec bits &&& 1 ≠ 0 ∧ UInt8.ofBitVec bits &&& 2 = 0) ∧
      (UInt8.ofBitVec bits &&& 3 = 2 ↔
        UInt8.ofBitVec bits &&& 1 = 0 ∧ UInt8.ofBitVec bits &&& 2 ≠ 0) ∧
      (UInt8.ofBitVec bits &&& 3 = 3 ↔
        UInt8.ofBitVec bits &&& 1 ≠ 0 ∧ UInt8.ofBitVec bits &&& 2 ≠ 0) from h flags.toBitVec
  decide +kernel

theorem Assembled.concat {history : List (Packet × Reply)} {channel flags : UInt8}
    {bytes : List UInt8} (h : Assembled history channel flags bytes) {entry : Packet × Reply}
    (hbelongs : Belongs channel flags entry) :
    Assembled (history ++ [entry]) channel flags (bytes ++ acceptedBytes channel [entry]) := by
  obtain ⟨before, first, reply, rest, rfl, hchannel, hfirst, hflags, hrest, rfl⟩ := h
  refine ⟨before, first, reply, rest ++ [entry], ?_, hchannel, hfirst, hflags, ?_, ?_⟩
  · rw [List.append_assoc, List.cons_append]
  · intro other hother
    rcases List.mem_append.mp hother with hold | hlast
    · exact hrest other hold
    · rw [List.mem_singleton.mp hlast]
      exact hbelongs
  · rw [← List.cons_append, acceptedBytes_append]

/-- An entry of another channel, or one that was refused, adds nothing. -/
theorem Assembled.skip {history : List (Packet × Reply)} {channel flags : UInt8}
    {bytes : List UInt8} (h : Assembled history channel flags bytes) {entry : Packet × Reply}
    (hskip : entry.1.channel = channel → ∃ e, entry.2 = .error e) :
    Assembled (history ++ [entry]) channel flags bytes := by
  have hbelongs : Belongs channel flags entry := by
    rintro hchannel ⟨found, hfound⟩
    obtain ⟨e, he⟩ := hskip hchannel
    rw [he] at hfound
    cases hfound
  have hnothing : acceptedBytes channel [entry] = [] := by
    rw [acceptedBytes, List.flatMap_singleton]
    split
    · rename_i found hfound
      split
      · rename_i hchannel
        obtain ⟨e, he⟩ := hskip hchannel
        rw [he] at hfound
        cases hfound
      · rfl
    · rfl
  have hconcat := h.concat hbelongs
  rwa [hnothing, List.append_nil] at hconcat

/-- What the entries of the channels are. -/
def Traced (fragments : List (UInt8 × Unfinished)) (history : List (Packet × Reply)) : Prop :=
  ∀ channel flags bytes, fragments.lookup channel = some (flags, bytes) →
    Assembled history channel flags bytes

theorem traced_accept {history : List (Packet × Reply)} (h : Traced fragments history)
    (packet : Packet) :
    Traced (accept fragments packet).1 (history ++ [(packet, (accept fragments packet).2)]) := by
  have hcases := accept_cases fragments packet
  generalize (accept fragments packet).1 = after at hcases ⊢
  generalize (accept fragments packet).2 = reply at hcases ⊢
  obtain ⟨hgoes, hbegins, -, -⟩ := flags_cases packet.flags
  intro channel flags bytes hlookup
  by_cases hchannel : packet.channel = channel
  · subst hchannel
    cases hcases with
    | refused e => exact (h _ _ _ hlookup).skip fun _ => ⟨e, rfl⟩
    | single hentry =>
      rw [hentry] at hlookup
      cases hlookup
    | opened hentry hfirst hlast =>
      rw [lookup_concat_self hentry] at hlookup
      cases hlookup
      refine ⟨history, packet, _, [], rfl, rfl, hbegins.mpr ⟨hfirst, hlast⟩, rfl, nofun, ?_⟩
      simp [acceptedBytes]
    | started hentry hfirst hlast =>
      rw [lookup_concat_self hentry] at hlookup
      cases hlookup
      exact ⟨history, packet, _, [], rfl, rfl, hbegins.mpr ⟨hfirst, hlast⟩, rfl, nofun, rfl⟩
    | continued hentry hfirst hlast =>
      rw [Assoc.lookup_put, if_pos rfl] at hlookup
      cases hlookup
      have hbelongs : Belongs packet.channel (packet.flags &&& 0x0c) (packet, .ok none) :=
        fun _ _ => ⟨hgoes.mpr ⟨hfirst, hlast⟩, rfl⟩
      simpa [acceptedBytes] using (h _ _ _ hentry).concat hbelongs
    | finished =>
      rw [Assoc.lookup_erase, if_pos rfl] at hlookup
      cases hlookup
  · have hold : fragments.lookup channel = some (flags, bytes) := by
      cases hcases with
      | refused e => exact hlookup
      | single => exact hlookup
      | opened | started =>
        rw [List.lookup_append, Assoc.lookup_cons_of_ne (Ne.symm hchannel), List.lookup_nil,
          Option.or_none] at hlookup
        exact hlookup
      | continued =>
        rw [Assoc.lookup_put, if_neg (Ne.symm hchannel)] at hlookup
        exact hlookup
      | finished =>
        rw [Assoc.lookup_erase, if_neg (Ne.symm hchannel)] at hlookup
        exact hlookup
    exact (h _ _ _ hold).skip fun hsame => absurd hsame hchannel

theorem traced_run (packets : List Packet) :
    Traced (run accept [] packets).1 (run accept [] packets).2 := by
  refine run_history accept (I := Traced) (fun _ _ _ hlookup => ?_) ?_ packets
  · cases hlookup
  · intro fragments history packet h
    exact traced_accept h packet

/-! ## Every channel by itself -/

/-- What a channel's packets lead to, from what it has not finished. -/
inductive Follows : Option Unfinished → List Packet → List Reply → Prop
  | done : Follows none [] []
  | single (packet : Packet) {packets : List Packet} {replies : List Reply}
      (hflags : packet.flags &&& 3 = 3) (hrest : Follows none packets replies) :
      Follows none (packet :: packets) (.ok (some packet.bytes) :: replies)
  | first (packet : Packet) {packets : List Packet} {replies : List Reply}
      (hflags : packet.flags &&& 3 = 1)
      (hrest : Follows (some (packet.flags &&& 0x0c, packet.bytes)) packets replies) :
      Follows none (packet :: packets) (.ok none :: replies)
  | more {data : List UInt8} (packet : Packet) {packets : List Packet} {replies : List Reply}
      (hflags : packet.flags &&& 3 = 0)
      (hrest : Follows (some (packet.flags &&& 0x0c, data ++ packet.bytes)) packets replies) :
      Follows (some (packet.flags &&& 0x0c, data)) (packet :: packets) (.ok none :: replies)
  | last {data : List UInt8} (packet : Packet) {packets : List Packet} {replies : List Reply}
      (hflags : packet.flags &&& 3 = 2) (hrest : Follows none packets replies) :
      Follows (some (packet.flags &&& 0x0c, data)) (packet :: packets)
        (.ok (some (data ++ packet.bytes)) :: replies)

/-- A message as its fragments, of which there is at least one. -/
structure Outgoing where
  flags : UInt8
  plain : flags &&& 3 = 0
  first : List UInt8
  rest : List (List UInt8)

namespace Outgoing

def laterPackets (channel flags : UInt8) : List (List UInt8) → List Packet
  | [] => []
  | [bytes] => [⟨channel, flags ||| 2, bytes⟩]
  | bytes :: next :: rest => ⟨channel, flags, bytes⟩ :: laterPackets channel flags (next :: rest)

def packets (channel : UInt8) (message : Outgoing) : List Packet :=
  match message.rest with
  | [] => [⟨channel, message.flags ||| 3, message.first⟩]
  | next :: rest => ⟨channel, message.flags ||| 1, message.first⟩ ::
      laterPackets channel message.flags (next :: rest)

def bytes (message : Outgoing) : List UInt8 := message.first ++ message.rest.flatten

/-- The message is returned for its last fragment, and nothing before. -/
def replies (message : Outgoing) : List Reply :=
  List.replicate message.rest.length (.ok none) ++ [.ok (some message.bytes)]

theorem flags_plain {flags : UInt8} (h : flags &&& 3 = 0) :
    ((flags ||| 1) &&& 3 = 1 ∧ (flags ||| 2) &&& 3 = 2 ∧ (flags ||| 3) &&& 3 = 3) ∧
      (flags ||| 1) &&& 0x0c = flags &&& 0x0c ∧ (flags ||| 2) &&& 0x0c = flags &&& 0x0c := by
  suffices hbits : ∀ bits : BitVec 8, UInt8.ofBitVec bits &&& 3 = 0 →
      ((UInt8.ofBitVec bits ||| 1) &&& 3 = 1 ∧ (UInt8.ofBitVec bits ||| 2) &&& 3 = 2 ∧
        (UInt8.ofBitVec bits ||| 3) &&& 3 = 3) ∧
      (UInt8.ofBitVec bits ||| 1) &&& 0x0c = UInt8.ofBitVec bits &&& 0x0c ∧
        (UInt8.ofBitVec bits ||| 2) &&& 0x0c = UInt8.ofBitVec bits &&& 0x0c from
    hbits flags.toBitVec h
  decide +kernel

theorem follows_later (channel : UInt8) {flags : UInt8} (hplain : flags &&& 3 = 0)
    (data next : List UInt8) (later : List (List UInt8)) {packets : List Packet}
    {replies : List Reply} (hrest : Follows none packets replies) :
    Follows (some (flags &&& 0x0c, data)) (laterPackets channel flags (next :: later) ++ packets)
      (List.replicate later.length (.ok none) ++
        .ok (some (data ++ (next :: later).flatten)) :: replies) := by
  obtain ⟨⟨-, hlast, -⟩, -, hsame⟩ := flags_plain hplain
  induction later generalizing data next with
  | nil =>
    rw [← hsame, List.flatten_cons, List.flatten_nil, List.append_nil]
    exact .last ⟨channel, flags ||| 2, next⟩ hlast hrest
  | cons other later ih =>
    have hmore := ih (data ++ next) other
    rw [List.append_assoc] at hmore
    exact .more ⟨channel, flags, next⟩ hplain hmore

theorem follows (channel : UInt8) (message : Outgoing) {packets : List Packet}
    {replies : List Reply} (hrest : Follows none packets replies) :
    Follows none (message.packets channel ++ packets) (message.replies ++ replies) := by
  obtain ⟨flags, hplain, first, rest⟩ := message
  obtain ⟨⟨hfirst, -, hsingle⟩, hsame, -⟩ := flags_plain hplain
  unfold Outgoing.packets Outgoing.replies Outgoing.bytes
  cases rest with
  | nil =>
    simp only [List.flatten_nil, List.append_nil, List.length_nil, List.replicate_zero,
      List.nil_append, List.singleton_append]
    exact .single ⟨channel, flags ||| 3, first⟩ hsingle hrest
  | cons next rest =>
    have hlater := follows_later channel hplain first next rest hrest
    rw [← hsame] at hlater
    simpa [List.replicate_succ] using
      Follows.first ⟨channel, flags ||| 1, first⟩ hfirst hlater

theorem follows_all (channel : UInt8) (messages : List Outgoing) :
    Follows none (messages.flatMap (packets channel)) (messages.flatMap replies) := by
  induction messages with
  | nil => exact .done
  | cons message messages ih =>
    rw [List.flatMap_cons, List.flatMap_cons]
    exact follows channel message ih

end Outgoing

/-! ## Interleavings -/

/-- The packets of messages that are not finished, one packet later. -/
def unfinished (packets : List Packet) (packet : Packet) : List Packet :=
  if packet.flags &&& 2 ≠ 0 then packets.filter (·.channel ≠ packet.channel)
  else packets ++ [packet]

def size (packets : List Packet) : ℕ := (packets.map (·.bytes.length)).sum

/-- With each fragment, all messages that are unfinished have no more bytes than one may have. -/
def Within : List Packet → List Packet → Prop :=
  Along (fun packets packet => (unfinished packets packet, ())) fun packets packet =>
    packet.flags &&& 3 ≠ 3 → size packets + packet.bytes.length ≤ maxMessage

/-- The entries hold the bytes of the unfinished messages. -/
structure Counts (packets : List Packet) (fragments : List (UInt8 × Unfinished)) : Prop where
  total : size packets = buffered fragments
  channel : ∀ channel, size (packets.filter (·.channel = channel)) =
    ((fragments.lookup channel).map (·.2.length)).getD 0

theorem size_append (packets more : List Packet) :
    size (packets ++ more) = size packets + size more := by
  rw [size, List.map_append, List.sum_append]
  rfl

theorem size_filter (packets : List Packet) (channel : UInt8) :
    size (packets.filter (·.channel ≠ channel)) + size (packets.filter (·.channel = channel)) =
      size packets := by
  induction packets with
  | nil => rfl
  | cons packet packets ih =>
    rw [← List.singleton_append, List.filter_append, List.filter_append, size_append, size_append,
      size_append]
    by_cases hchannel : packet.channel = channel
    · rw [List.filter_cons_of_neg (by simpa using hchannel),
        List.filter_cons_of_pos (by simpa using hchannel)]
      simp only [List.filter_nil]
      change 0 + _ + _ = _
      omega
    · rw [List.filter_cons_of_pos (by simpa using hchannel),
        List.filter_cons_of_neg (by simpa using hchannel)]
      simp only [List.filter_nil]
      change _ + _ + (0 + _) = _
      omega

theorem counts_concat {packets : List Packet} {after : List (UInt8 × Unfinished)}
    (h : Counts packets fragments) (hlast : packet.flags &&& 2 = 0)
    (htotal : buffered after = buffered fragments + packet.bytes.length)
    (hself : ((after.lookup packet.channel).map (·.2.length)).getD 0 =
      ((fragments.lookup packet.channel).map (·.2.length)).getD 0 + packet.bytes.length)
    (hother : ∀ channel, channel ≠ packet.channel →
      after.lookup channel = fragments.lookup channel) :
    Counts (unfinished packets packet) after := by
  have hsize : size [packet] = packet.bytes.length := Nat.add_zero _
  unfold unfinished
  rw [if_neg (not_not_intro hlast)]
  constructor
  · rw [size_append, h.total, htotal, hsize]
  · intro channel
    rw [List.filter_append, size_append, h.channel]
    by_cases hchannel : packet.channel = channel
    · subst hchannel
      rw [List.filter_cons_of_pos (by simp), List.filter_nil, hsize, hself]
    · rw [List.filter_cons_of_neg (by simpa using hchannel), List.filter_nil,
        hother channel (Ne.symm hchannel)]
      rfl

theorem counts_filter {packets : List Packet} {after : List (UInt8 × Unfinished)}
    (h : Counts packets fragments) (hlast : packet.flags &&& 2 ≠ 0)
    (htotal : buffered after +
      ((fragments.lookup packet.channel).map (·.2.length)).getD 0 = buffered fragments)
    (hself : after.lookup packet.channel = none)
    (hother : ∀ channel, channel ≠ packet.channel →
      after.lookup channel = fragments.lookup channel) :
    Counts (unfinished packets packet) after := by
  have hfilter := size_filter packets packet.channel
  unfold unfinished
  rw [if_pos hlast]
  rw [h.channel, h.total] at hfilter
  constructor
  · omega
  · intro channel
    rw [List.filter_filter]
    by_cases hchannel : packet.channel = channel
    · subst hchannel
      rw [hself, List.filter_eq_nil_iff.mpr]
      · rfl
      · intro other _
        simp
    · rw [hother channel (Ne.symm hchannel), ← h.channel]
      congr 1
      refine List.filter_congr fun other _ => ?_
      by_cases hsame : other.channel = channel
      · simp [hsame, Ne.symm hchannel]
      · simp [hsame]

/-- A packet of a channel leads to what the channel by itself says, and leaves the others. -/
theorem accept_follows {open' packets : List Packet} {replies : List Reply}
    (hdistinct : (fragments.map Prod.fst).Nodup) (hcounts : Counts open' fragments)
    (hcount : fragments.lookup packet.channel = none → fragments.length < 16)
    (hroom : packet.flags &&& 3 ≠ 3 → buffered fragments + packet.bytes.length ≤ maxMessage)
    (h : Follows (fragments.lookup packet.channel) (packet :: packets) replies) :
    Counts (unfinished open' packet) (accept fragments packet).1 ∧
      (∀ channel, channel ≠ packet.channel →
        (accept fragments packet).1.lookup channel = fragments.lookup channel) ∧
      ∃ rest, replies = (accept fragments packet).2 :: rest ∧
        Follows ((accept fragments packet).1.lookup packet.channel) packets rest := by
  obtain ⟨hzero, hone, htwo, hthree⟩ := flags_cases packet.flags
  have hcases := accept_cases fragments packet
  generalize (accept fragments packet).1 = after at hcases ⊢
  generalize (accept fragments packet).2 = reply at hcases ⊢
  generalize hentry : fragments.lookup packet.channel = entry at h hcount
  cases h with
  | single _ hflags hrest =>
    obtain ⟨hfirst, hlast⟩ := hthree.mp hflags
    cases hcases with
    | refused e hwrong => exact absurd (.inl ⟨hentry, hfirst, .inl hlast⟩) hwrong
    | single =>
      refine ⟨counts_filter hcounts hlast ?_ hentry fun _ _ => rfl, fun _ _ => rfl, _, rfl, ?_⟩
      · rw [hentry]
        rfl
      · rw [hentry]
        exact hrest
    | opened _ _ hmore | started _ _ hmore => exact absurd hmore hlast
    | continued hsome | finished hsome =>
      rw [hentry] at hsome
      cases hsome
  | first _ hflags hrest =>
    obtain ⟨hfirst, hlast⟩ := hone.mp hflags
    have hfits := hroom (by rw [hflags]; decide)
    cases hcases with
    | refused e hwrong => exact absurd (.inl ⟨hentry, hfirst, .inr ⟨hcount rfl, hfits⟩⟩) hwrong
    | single _ _ hfinal => exact absurd hlast hfinal
    | opened =>
      have hothers : ∀ channel, channel ≠ packet.channel → (fragments ++
          [(packet.channel, packet.flags &&& 0x0c, packet.bytes)]).lookup channel =
            fragments.lookup channel := by
        intro channel hchannel
        rw [List.lookup_append, Assoc.lookup_cons_of_ne hchannel, List.lookup_nil, Option.or_none]
      refine ⟨counts_concat hcounts hlast (buffered_concat _) ?_ hothers, hothers, _, rfl, ?_⟩
      · rw [lookup_concat_self hentry, hentry]
        exact (Nat.zero_add _).symm
      · rw [lookup_concat_self hentry]
        exact hrest
    | started _ _ _ _ hover => exact absurd hfits (Nat.not_le_of_lt hover)
    | continued hsome | finished hsome =>
      rw [hentry] at hsome
      cases hsome
  | @more data _ _ _ hflags hrest =>
    obtain ⟨hfirst, hlast⟩ := hzero.mp hflags
    have hfits := hroom (by rw [hflags]; decide)
    cases hcases with
    | refused e hwrong => exact absurd (.inr ⟨⟨_, hentry⟩, hfirst, hfits⟩) hwrong
    | single hnone | opened hnone | started hnone =>
      rw [hentry] at hnone
      cases hnone
    | continued hsome =>
      rw [hentry] at hsome
      cases hsome
      have hothers : ∀ channel, channel ≠ packet.channel → (Assoc.put fragments packet.channel
          (packet.flags &&& 0x0c, data ++ packet.bytes)).lookup channel =
            fragments.lookup channel := by
        intro channel hchannel
        rw [Assoc.lookup_put, if_neg hchannel]
      refine ⟨counts_concat hcounts hlast (buffered_put hdistinct hentry) ?_ hothers, hothers, _,
        rfl, ?_⟩
      · rw [Assoc.lookup_put, if_pos rfl, hentry]
        exact List.length_append
      · rw [Assoc.lookup_put, if_pos rfl]
        exact hrest
    | finished _ _ hfinal => exact absurd hlast hfinal
  | @last data _ _ _ hflags hrest =>
    obtain ⟨hfirst, hlast⟩ := htwo.mp hflags
    have hfits := hroom (by rw [hflags]; decide)
    cases hcases with
    | refused e hwrong => exact absurd (.inr ⟨⟨_, hentry⟩, hfirst, hfits⟩) hwrong
    | single hnone | opened hnone | started hnone =>
      rw [hentry] at hnone
      cases hnone
    | continued _ _ hmore => exact absurd hmore hlast
    | finished hsome =>
      rw [hentry] at hsome
      cases hsome
      have hothers : ∀ channel, channel ≠ packet.channel →
          (Assoc.erase fragments packet.channel).lookup channel = fragments.lookup channel := by
        intro channel hchannel
        rw [Assoc.lookup_erase, if_neg hchannel]
      have hnone : (Assoc.erase fragments packet.channel).lookup packet.channel = none := by
        rw [Assoc.lookup_erase, if_pos rfl]
      refine ⟨counts_filter hcounts hlast ?_ hnone hothers, hothers, _, rfl, ?_⟩
      · rw [hentry]
        exact buffered_erase hdistinct hentry
      · rw [hnone]
        exact hrest

theorem nil_of_lookup_none (h : ∀ channel, fragments.lookup channel = none) : fragments = [] := by
  cases fragments with
  | nil => rfl
  | cons entry fragments =>
    exact absurd rfl (Assoc.lookup_eq_none_iff.mp (h entry.1) entry List.mem_cons_self)

/-- A channel that has an entry has a packet to come. -/
theorem Follows.exists_packet {key : UInt8} {packets : List Packet} {replies : List Reply}
    (h : Follows (fragments.lookup key) (packets.filter (·.channel = key)) replies)
    (hkey : key ∈ fragments.map Prod.fst) : ∃ packet ∈ packets, packet.channel = key := by
  generalize hentry : fragments.lookup key = entry at h
  generalize hpackets : packets.filter (·.channel = key) = own at h
  cases own with
  | nil =>
    cases h
    obtain ⟨entry, hmem, heq⟩ := List.mem_map.mp hkey
    exact absurd heq (Assoc.lookup_eq_none_iff.mp hentry entry hmem)
  | cons packet own =>
    have hmem : packet ∈ packets.filter (·.channel = key) := hpackets ▸ List.mem_cons_self
    rw [List.mem_filter, decide_eq_true_eq] at hmem
    exact ⟨packet, hmem⟩

/-- In any interleaving, every channel has the replies that it has by itself. -/
theorem follows_run {channels : List UInt8} (hchannels : channels.length ≤ 16)
    {packets open' : List Packet} {replies : UInt8 → List Reply} (hbounded : Bounded fragments)
    (hcounts : Counts open' fragments) (hmem : ∀ packet ∈ packets, packet.channel ∈ channels)
    (hfollows : ∀ channel, Follows (fragments.lookup channel)
      (packets.filter (·.channel = channel)) (replies channel))
    (hwithin : Within open' packets) :
    (run accept fragments packets).1 = [] ∧ ∀ channel,
      ((run accept fragments packets).2.filter (·.1.channel = channel)).map (·.2) =
        replies channel := by
  induction packets generalizing fragments open' replies with
  | nil =>
    have hnone : ∀ channel, fragments.lookup channel = none ∧ replies channel = [] := by
      intro channel
      have hchannel := hfollows channel
      rw [List.filter_nil] at hchannel
      generalize fragments.lookup channel = entry at hchannel
      generalize replies channel = expected at hchannel
      cases hchannel
      exact ⟨rfl, rfl⟩
    exact ⟨nil_of_lookup_none fun channel => (hnone channel).1,
      fun channel => (hnone channel).2.symm⟩
  | cons packet packets ih =>
    obtain ⟨hroom, hlater⟩ := hwithin
    have hself := hfollows packet.channel
    rw [List.filter_cons_of_pos (by simp)] at hself
    have hcount : fragments.lookup packet.channel = none → fragments.length < 16 := by
      intro hnone
      have hkeys : (packet.channel :: fragments.map Prod.fst).Nodup := by
        refine List.nodup_cons.mpr ⟨fun hkey => ?_, hbounded.distinct⟩
        obtain ⟨entry, hentry, heq⟩ := List.mem_map.mp hkey
        exact Assoc.lookup_eq_none_iff.mp hnone entry hentry heq
      have hsubset : packet.channel :: fragments.map Prod.fst ⊆ channels := by
        refine List.cons_subset.mpr ⟨hmem packet List.mem_cons_self, fun key hkey => ?_⟩
        obtain ⟨other, hother, rfl⟩ := (hfollows key).exists_packet hkey
        exact hmem other hother
      have hlength := (List.subperm_of_subset hkeys hsubset).length_le
      rw [List.length_cons, List.length_map] at hlength
      omega
    obtain ⟨hcounts', hothers, rest, hreplies, hrest⟩ := accept_follows hbounded.distinct hcounts
      hcount (fun hflags => hcounts.total ▸ hroom hflags) hself
    have hfollows' : ∀ channel, Follows ((accept fragments packet).1.lookup channel)
        (packets.filter (·.channel = channel))
        (Function.update replies packet.channel rest channel) := by
      intro channel
      by_cases hsame : channel = packet.channel
      · subst hsame
        rw [Function.update_self]
        exact hrest
      · rw [Function.update_of_ne hsame, hothers channel hsame]
        have hother := hfollows channel
        rwa [List.filter_cons_of_neg (by simpa using Ne.symm hsame)] at hother
    obtain ⟨hend, hchannels'⟩ := ih (bounded_accept hbounded packet) hcounts'
      (fun other hother => hmem other (List.mem_cons_of_mem _ hother)) hfollows' hlater
    refine ⟨hend, fun channel => ?_⟩
    have hchannel := hchannels' channel
    unfold run
    by_cases hsame : channel = packet.channel
    · subst hsame
      rw [Function.update_self] at hchannel
      rw [List.filter_cons_of_pos (by simp), List.map_cons, hchannel, hreplies]
    · rw [Function.update_of_ne hsame] at hchannel
      rw [List.filter_cons_of_neg (by simpa using Ne.symm hsame), hchannel]

/-- A fragment that does not fit what its channel has. -/
def Unfit (fragments : List (UInt8 × Unfinished)) (packet : Packet) : Prop :=
  (packet.flags &&& 1 ≠ 0 ∧ fragments.lookup packet.channel ≠ none) ∨
    (packet.flags &&& 1 = 0 ∧ fragments.lookup packet.channel = none) ∨
      ∃ flags data, fragments.lookup packet.channel = some (flags, data) ∧
        flags ≠ packet.flags &&& 0x0c

theorem refused_of_unfit (h : Unfit fragments packet) :
    ∃ e, accept fragments packet = (fragments, .error e) := by
  have hcases := accept_cases fragments packet
  generalize accept fragments packet = result at hcases
  obtain ⟨after, reply⟩ := result
  dsimp only at hcases
  cases hcases with
  | refused e => exact ⟨e, rfl⟩
  | single hentry hfirst | opened hentry hfirst | started hentry hfirst =>
    rcases h with ⟨-, hsome⟩ | ⟨hlater, -⟩ | ⟨flags, data, hsome, -⟩
    · exact absurd hentry hsome
    · exact absurd hlater hfirst
    · rw [hentry] at hsome
      cases hsome
  | continued hentry hlater | finished hentry hlater =>
    rcases h with ⟨hfirst, -⟩ | ⟨-, hnone⟩ | ⟨flags, data, hsome, hflags⟩
    · exact absurd hlater hfirst
    · rw [hentry] at hnone
      cases hnone
    · rw [hentry] at hsome
      cases hsome
      exact absurd rfl hflags

theorem returned_bytes {history : List (Packet × Reply)} (h : Traced fragments history)
    {bytes : List UInt8} (hreturned : (accept fragments packet).2 = .ok (some bytes)) :
    (packet.flags &&& 3 = 3 ∧ bytes = packet.bytes) ∨
      (packet.flags &&& 3 = 2 ∧ ∃ data,
        Assembled history packet.channel (packet.flags &&& 0x0c) data ∧
          bytes = data ++ packet.bytes) := by
  obtain ⟨-, -, htwo, hthree⟩ := flags_cases packet.flags
  have hcases := accept_cases fragments packet
  rw [hreturned] at hcases
  generalize (accept fragments packet).1 = after at hcases
  cases hcases with
  | single _ hfirst hlast => exact .inl ⟨hthree.mpr ⟨hfirst, hlast⟩, rfl⟩
  | finished hentry hlater hlast =>
    exact .inr ⟨htwo.mpr ⟨hlater, hlast⟩, _, h _ _ _ hentry, rfl⟩

/-- Messages of at most 16 channels whose fragments are interleaved are returned each for its
last fragment. Whatever arrives, the budget is kept, a fragment that does not fit is
refused, and what is returned belongs to one message. -/
theorem reassembly_contract :
    (∀ (messages : UInt8 → List Outgoing) (channels : List UInt8) (packets : List Packet),
      channels.length ≤ 16 → (∀ channel, channel ∉ channels → messages channel = []) →
      (∀ channel, packets.filter (·.channel = channel) =
        (messages channel).flatMap (·.packets channel)) →
      Within [] packets →
        (run accept [] packets).1 = [] ∧ ∀ channel,
          ((run accept [] packets).2.filter (·.1.channel = channel)).map (·.2) =
            (messages channel).flatMap (·.replies)) ∧
      ∀ packets : List Packet, Bounded (run accept [] packets).1 ∧ ∀ packet,
        (Unfit (run accept [] packets).1 packet → ∃ e,
          accept (run accept [] packets).1 packet = ((run accept [] packets).1, .error e)) ∧
        ∀ bytes, (accept (run accept [] packets).1 packet).2 = .ok (some bytes) →
          (packet.flags &&& 3 = 3 ∧ bytes = packet.bytes) ∨
            (packet.flags &&& 3 = 2 ∧ ∃ data,
              Assembled (run accept [] packets).2 packet.channel (packet.flags &&& 0x0c) data ∧
                bytes = data ++ packet.bytes) := by
  constructor
  · intro messages channels packets hchannels hnone hpackets hwithin
    refine follows_run hchannels bounded_nil ⟨rfl, fun _ => rfl⟩ ?_ ?_ hwithin
    · intro packet hmem
      by_contra hother
      have hown : packet ∈ packets.filter (·.channel = packet.channel) :=
        List.mem_filter.mpr ⟨hmem, decide_eq_true rfl⟩
      rw [hpackets, hnone _ hother] at hown
      cases hown
    · intro channel
      rw [hpackets]
      exact Outgoing.follows_all channel (messages channel)
  · intro packets
    exact ⟨bounded_run packets, fun packet => ⟨refused_of_unfit,
      fun bytes => returned_bytes (traced_run packets)⟩⟩

/-- A message in two fragments, and one that passes between them. -/
def twoChannels : List Packet := [⟨3, 9, [1]⟩, ⟨4, 11, [7]⟩, ⟨3, 10, [2]⟩]

def twoMessages (channel : UInt8) : List Outgoing :=
  if channel = 3 then [⟨8, by decide, [1], [[2]]⟩]
  else if channel = 4 then [⟨8, by decide, [7], []⟩]
  else []

theorem twoChannels_returned :
    ((run accept [] twoChannels).2.filter (·.1.channel = 3)).map (·.2) =
      [.ok none, .ok (some [1, 2])] := by
  have hwithin : Within [] twoChannels := by
    refine ⟨fun _ => by decide, fun _ => by decide, fun _ => by decide, trivial⟩
  have hpackets : ∀ channel, twoChannels.filter (·.channel = channel) =
      (twoMessages channel).flatMap (·.packets channel) := by
    intro channel
    unfold twoMessages
    split_ifs with hthree hfour
    · rw [hthree]
      rfl
    · rw [hfour]
      rfl
    · simp [twoChannels, Ne.symm hthree, Ne.symm hfour]
  have hnone : ∀ channel, channel ∉ [3, 4] → twoMessages channel = [] := by
    intro channel hchannel
    simp only [List.mem_cons, List.not_mem_nil, or_false, not_or] at hchannel
    rw [twoMessages, if_neg hchannel.1, if_neg hchannel.2]
  exact (reassembly_contract.1 twoMessages [3, 4] twoChannels (by decide) hnone hpackets
    hwithin).2 3

end Messages

end ProjectArgo.Projection.AaWire
