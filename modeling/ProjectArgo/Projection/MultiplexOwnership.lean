import Mathlib.Order.Nat
import ProjectArgo.Library.Run
import ProjectArgo.Projection.Multiplex

/-!
# Who owns the screen

An identity belongs to one life of a session: it is given out once, and a session that
ended does not live again under it. The owner changes while it lives only when an
activation completes that nothing was decided after. A main stream that was hidden stays
hidden until its session is activated or one of its main streams is shown.
-/
namespace ProjectArgo.Projection.Multiplex

open Library Library.Run MultiplexProjectionBackend

/-! ## Identities -/

def keyOf (offer : ProjectionProtocol × AdapterSession) : Key := ⟨offer.1, offer.2.id⟩

/-- The identity that a session has next: the one it has, or a new one if it is new or
came to life again. -/
def Next (previous : Option (ℕ × Bool)) (issued : ℕ) (live : Bool) (identity : ℕ) : Prop :=
  (∃ wasLive, previous = some (identity, wasLive) ∧ (live = true → wasLive = true)) ∨
    issued < identity ∧ ∀ old wasLive, previous = some (old, wasLive) →
      wasLive = false ∧ live = true

def Registry.Bounded (registry : Registry) : Prop :=
  ∀ key identity live, registry.identities key = some (identity, live) →
    identity ≤ registry.nextIdentity

theorem Registry.identify_next {registry : Registry} (h : registry.Bounded) (key : Key)
    (live : Bool) :
    Next (registry.identities key) registry.nextIdentity live (registry.identify key live).1 ∧
      (registry.identify key live).1 ≤ (registry.identify key live).2 ∧
      registry.nextIdentity ≤ (registry.identify key live).2 := by
  unfold Registry.identify
  split
  · rename_i identity wasLive hprevious
    split
    · rename_i hrevived
      rw [Bool.and_eq_true, Bool.not_eq_true'] at hrevived
      refine ⟨.inr ⟨Nat.lt_succ_self _, ?_⟩, le_rfl, Nat.le_succ _⟩
      intro old was hold
      rw [hprevious] at hold
      cases hold
      exact hrevived
    · rename_i hsame
      refine ⟨.inl ⟨wasLive, hprevious, fun hlive => ?_⟩, h key identity wasLive hprevious, le_rfl⟩
      rw [hlive, Bool.and_true, Bool.not_eq_true', Bool.not_eq_false] at hsame
      exact hsame
  · rename_i hprevious
    refine ⟨.inr ⟨Nat.lt_succ_self _, ?_⟩, le_rfl, Nat.le_succ _⟩
    intro old was hold
    rw [hprevious] at hold
    cases hold

theorem Registry.enter_bounded {registry : Registry} (h : registry.Bounded)
    (offer : ProjectionProtocol × AdapterSession) : (registry.enter offer).Bounded := by
  obtain ⟨-, hidentity, hnext⟩ := identify_next h (keyOf offer) offer.2.state.isLive
  intro key identity live hidentities
  change Function.update registry.identities (keyOf offer) _ key = _ at hidentities
  by_cases hkey : key = keyOf offer
  · rw [hkey, Function.update_self] at hidentities
    cases hidentities
    exact hidentity
  · rw [Function.update_of_ne hkey] at hidentities
    exact (h key identity live hidentities).trans hnext

/-- What entering the sessions with distinct keys does to each of them. -/
structure Entered (before after : Registry) (offers : List (ProjectionProtocol × AdapterSession)) :
    Prop where
  bounded : after.Bounded
  issued : before.nextIdentity ≤ after.nextIdentity
  others : ∀ key ∉ offers.map keyOf, after.identities key = before.identities key
  offered : ∀ offer ∈ offers, ∃ identity,
    Next (before.identities (keyOf offer)) before.nextIdentity offer.2.state.isLive identity ∧
      after.identities (keyOf offer) = some (identity, offer.2.state.isLive) ∧
      (⟨keyOf offer, identity⟩, offer.2) ∈ after.sessions
  sessions : ∀ entry ∈ after.sessions, entry ∈ before.sessions ∨
    ∃ offer ∈ offers, entry.2 = offer.2 ∧ entry.1.key = keyOf offer ∧
      after.identities entry.1.key = some (entry.1.identity, offer.2.state.isLive)
  kept : ∀ entry ∈ before.sessions, entry.1.key ∉ offers.map keyOf → entry ∈ after.sessions

theorem entered_foldl {registry : Registry} (h : registry.Bounded)
    (offers : List (ProjectionProtocol × AdapterSession)) (hdistinct : (offers.map keyOf).Nodup) :
    Entered registry (offers.foldl Registry.enter registry) offers := by
  induction offers generalizing registry with
  | nil =>
    exact ⟨h, le_rfl, fun _ _ => rfl, nofun, fun _ hmem => .inl hmem, fun _ hmem _ => hmem⟩
  | cons offer offers ih =>
    rw [List.map_cons, List.nodup_cons] at hdistinct
    obtain ⟨hnext, -, hissued⟩ := registry.identify_next h (keyOf offer) offer.2.state.isLive
    have hrest := ih (Registry.enter_bounded h offer) hdistinct.2
    have hself : (registry.enter offer).identities (keyOf offer) =
        some ((registry.identify (keyOf offer) offer.2.state.isLive).1, offer.2.state.isLive) :=
      Function.update_self ..
    have hother : ∀ key, key ≠ keyOf offer →
        (registry.enter offer).identities key = registry.identities key :=
      fun key hkey => Function.update_of_ne hkey ..
    refine ⟨hrest.bounded, hissued.trans hrest.issued, ?_, ?_, ?_, ?_⟩
    · intro key hkey
      rw [List.map_cons, List.mem_cons, not_or] at hkey
      rw [List.foldl_cons, hrest.others key hkey.2, hother key hkey.1]
    · intro other hmem
      rcases List.mem_cons.mp hmem with rfl | hmem
      · refine ⟨_, hnext, (hrest.others _ hdistinct.1).trans hself, ?_⟩
        exact hrest.kept _ Assoc.mem_put_self hdistinct.1
      · obtain ⟨identity, hidentity, hafter, hentry⟩ := hrest.offered other hmem
        have hkey : keyOf other ≠ keyOf offer := by
          intro heq
          exact hdistinct.1 (heq ▸ List.mem_map_of_mem hmem)
        rw [hother _ hkey] at hidentity
        refine ⟨identity, hidentity.imp_right ?_, hafter, hentry⟩
        exact fun hnew => ⟨hissued.trans_lt hnew.1, hnew.2⟩
    · intro entry hmem
      rcases hrest.sessions entry hmem with hold | ⟨other, hother, hentry⟩
      · rcases Assoc.mem_put hold with rfl | hold
        · refine .inr ⟨offer, List.mem_cons_self .., rfl, rfl, ?_⟩
          exact (hrest.others _ hdistinct.1).trans hself
        · exact .inl hold
      · exact .inr ⟨other, List.mem_cons_of_mem _ hother, hentry⟩
    · intro entry hmem hkey
      rw [List.map_cons, List.mem_cons, not_or] at hkey
      refine hrest.kept entry (Assoc.mem_put_of_ne hmem ?_) hkey.2
      rintro heq
      exact hkey.1 (congrArg SessionId.key heq)

/-- What is known of the merged sessions. -/
structure Registry.Sound (registry : Registry) : Prop where
  bounded : registry.Bounded
  entered : ∀ entry ∈ registry.sessions,
    registry.identities entry.1.key = some (entry.1.identity, entry.2.state.isLive) ∧
      entry.2.id = entry.1.key.id
  known : ∀ key identity live, registry.identities key = some (identity, live) →
    ∃ session, (⟨key, identity⟩, session) ∈ registry.sessions

theorem Registry.Sound.isLive_iff {registry : Registry} (h : registry.Sound) {id : SessionId} :
    registry.isLive id ↔ registry.identities id.key = some (id.identity, true) := by
  unfold Registry.isLive
  constructor
  · intro hlive
    obtain ⟨session, hsession, hlive⟩ := Option.any_eq_true .. |>.mp hlive
    rw [(h.entered _ (Assoc.mem_of_lookup hsession)).1, hlive]
  · intro hidentity
    obtain ⟨session, hmem⟩ := h.known _ _ _ hidentity
    cases hlookup : registry.sessions.lookup id with
    | none => exact absurd rfl (Assoc.lookup_eq_none_iff.mp hlookup _ hmem)
    | some found =>
      have hfound := (h.entered _ (Assoc.mem_of_lookup hlookup)).1
      rw [hidentity] at hfound
      exact (Prod.mk.inj (Option.some.inj hfound)).2.symm

/-- The merged sessions after a publication, with those before it. -/
structure Collected (before after : Registry)
    (offers : List (ProjectionProtocol × AdapterSession)) : Prop where
  sound : after.Sound
  issued : before.nextIdentity ≤ after.nextIdentity
  next : ∀ key identity live, after.identities key = some (identity, live) →
    Next (before.identities key) before.nextIdentity live identity
  offered : ∀ offer ∈ offers, ∃ identity,
    after.identities (keyOf offer) = some (identity, offer.2.state.isLive)
  origin : ∀ entry ∈ after.sessions, (entry.1.key.protocol, entry.2) ∈ offers

theorem collected {registry : Registry} (h : registry.Bounded)
    (offers : List (ProjectionProtocol × AdapterSession)) (hdistinct : (offers.map keyOf).Nodup) :
    Collected registry (collect offers registry) offers := by
  have hentered := @entered_foldl { registry with sessions := [] } h offers hdistinct
  have hpresent : ∀ key ∈ offers.map keyOf, (collect offers registry).identities key =
      (offers.foldl Registry.enter { registry with sessions := [] }).identities key :=
    fun key hmem => if_pos hmem
  have hkeys : ∀ {key identity live},
      (collect offers registry).identities key = some (identity, live) →
        ∃ offer ∈ offers, key = keyOf offer := by
    intro key identity live hidentity
    by_cases hmem : key ∈ offers.map keyOf
    · obtain ⟨offer, hoffer, rfl⟩ := List.mem_map.mp hmem
      exact ⟨offer, hoffer, rfl⟩
    · have hnone : (collect offers registry).identities key = none := if_neg hmem
      rw [hnone] at hidentity
      cases hidentity
  have hsessions : ∀ entry ∈ (collect offers registry).sessions, ∃ offer ∈ offers,
      entry.2 = offer.2 ∧ entry.1.key = keyOf offer ∧
        (collect offers registry).identities entry.1.key =
          some (entry.1.identity, offer.2.state.isLive) := by
    intro entry hmem
    rcases hentered.sessions entry hmem with hold | ⟨offer, hoffer, hsession, hkey, hidentity⟩
    · cases hold
    · refine ⟨offer, hoffer, hsession, hkey, ?_⟩
      rw [hpresent _ (hkey ▸ List.mem_map_of_mem hoffer)]
      exact hidentity
  refine ⟨⟨?_, ?_, ?_⟩, hentered.issued, ?_, ?_, ?_⟩
  · intro key identity live hidentity
    obtain ⟨offer, hoffer, rfl⟩ := hkeys hidentity
    rw [hpresent _ (List.mem_map_of_mem hoffer)] at hidentity
    exact hentered.bounded _ _ _ hidentity
  · intro entry hmem
    obtain ⟨offer, -, hsession, hkey, hidentity⟩ := hsessions entry hmem
    rw [hsession, hkey] at *
    exact ⟨hidentity, rfl⟩
  · intro key identity live hidentity
    obtain ⟨offer, hoffer, rfl⟩ := hkeys hidentity
    rw [hpresent _ (List.mem_map_of_mem hoffer)] at hidentity
    obtain ⟨identity', -, hafter, hentry⟩ := hentered.offered offer hoffer
    rw [hafter] at hidentity
    cases hidentity
    exact ⟨_, hentry⟩
  · intro key identity live hidentity
    obtain ⟨offer, hoffer, rfl⟩ := hkeys hidentity
    rw [hpresent _ (List.mem_map_of_mem hoffer)] at hidentity
    obtain ⟨identity', hnext, hafter, -⟩ := hentered.offered offer hoffer
    rw [hafter] at hidentity
    cases hidentity
    exact hnext
  · intro offer hoffer
    obtain ⟨identity, -, hafter, -⟩ := hentered.offered offer hoffer
    exact ⟨identity, (hpresent _ (List.mem_map_of_mem hoffer)).trans hafter⟩
  · intro entry hmem
    obtain ⟨offer, hoffer, hsession, hkey, -⟩ := hsessions entry hmem
    rw [hsession, hkey]
    exact hoffer

/-! ## Publications -/

variable {backends : List ProjectionProtocol} {multiplex next : MultiplexProjectionBackend}

theorem offered_protocol {protocol : ProjectionProtocol} {key : Key}
    (hmem : key ∈ (match multiplex.snapshots protocol with
      | some snapshot => if snapshot.backendAvailable then
          snapshot.sessions.map fun session => (protocol, session) else []
      | none => []).map keyOf) : key.protocol = protocol := by
  obtain ⟨offer, hoffer, rfl⟩ := List.mem_map.mp hmem
  split at hoffer
  · split at hoffer
    · obtain ⟨session, -, rfl⟩ := List.mem_map.mp hoffer
      rfl
    · cases hoffer
  · cases hoffer

theorem offered_distinct (hbackends : backends.Nodup) (multiplex : MultiplexProjectionBackend) :
    ((offered backends multiplex).map keyOf).Nodup := by
  unfold offered
  rw [List.map_flatMap]
  refine List.nodup_flatMap.mpr ⟨?_, ?_⟩
  · intro protocol _
    split
    · rename_i snapshot _
      split
      · rw [List.map_map]
        refine List.Nodup.of_map (fun key : Key => key.id) ?_
        rw [List.map_map]
        exact snapshot.distinct
      · exact List.nodup_nil
    · exact List.nodup_nil
  · refine hbackends.imp fun {first second} hne => ?_
    intro key hfirst hsecond
    exact hne ((offered_protocol hfirst).symm.trans (offered_protocol hsecond))

theorem mem_offered {protocol : ProjectionProtocol} {session : AdapterSession} :
    (protocol, session) ∈ offered backends multiplex ↔ protocol ∈ backends ∧
      ∃ snapshot, multiplex.snapshots protocol = some snapshot ∧ snapshot.backendAvailable ∧
        session ∈ snapshot.sessions := by
  unfold offered
  rw [List.mem_flatMap]
  constructor
  · rintro ⟨backend, hbackend, hmem⟩
    split at hmem
    · rename_i snapshot hsnapshot
      split at hmem
      · rename_i havailable
        obtain ⟨other, hother, heq⟩ := List.mem_map.mp hmem
        obtain ⟨rfl, rfl⟩ := Prod.mk.inj heq
        exact ⟨hbackend, snapshot, hsnapshot, havailable, hother⟩
      · cases hmem
    · cases hmem
  · rintro ⟨hbackend, snapshot, hsnapshot, havailable, hsession⟩
    refine ⟨protocol, hbackend, ?_⟩
    rw [hsnapshot]
    simp only [havailable, if_true]
    exact List.mem_map_of_mem hsession

/-- What holds whenever something was published, and until the next publication. -/
structure Consistent (backends : List ProjectionProtocol) (multiplex : MultiplexProjectionBackend) :
    Prop where
  sound : multiplex.registry.Sound
  stored : ∀ entry ∈ multiplex.registry.sessions,
    (entry.1.key.protocol, entry.2) ∈ offered backends multiplex
  video : ∀ stream ∈ multiplex.video,
    ∃ session, (stream.session, session) ∈ multiplex.registry.sessions
  active : multiplex.current.activeSessionId = multiplex.owner
  live : ∀ id, multiplex.owner = some id → multiplex.registry.isLive id
  shown : multiplex.current.sessions.map (fun session => (session.id, session.state)) =
    multiplex.registry.sessions.map fun entry => (entry.1, entry.2.state)

theorem consistent_initial : Consistent backends {} := by
  refine ⟨⟨nofun, nofun, nofun⟩, nofun, nofun, rfl, nofun, rfl⟩

@[simp] theorem selectOwner_registry :
    (selectOwner backends multiplex).registry = multiplex.registry := by
  unfold selectOwner
  split
  · rfl
  · split <;> rfl

@[simp] theorem selectOwner_snapshots :
    (selectOwner backends multiplex).snapshots = multiplex.snapshots := by
  unfold selectOwner
  split
  · rfl
  · split <;> rfl

@[simp] theorem selectOwner_hidden :
    (selectOwner backends multiplex).hiddenMainSessions = multiplex.hiddenMainSessions := by
  unfold selectOwner
  split
  · rfl
  · split <;> rfl

@[simp] theorem selectOwner_decision :
    (selectOwner backends multiplex).decision = multiplex.decision := by
  unfold selectOwner
  split
  · rfl
  · split <;> rfl

theorem selectOwner_live {id : SessionId}
    (h : (selectOwner backends multiplex).owner = some id) : multiplex.registry.isLive id := by
  unfold selectOwner at h
  split at h
  · rename_i hlive
    rw [h] at hlive
    exact hlive
  · split at h
    · rename_i found hfound
      obtain ⟨protocol, -, hcandidate⟩ := List.exists_of_findSome?_eq_some hfound
      obtain rfl := Option.some.inj h
      unfold candidate at hcandidate
      split at hcandidate
      · cases hcandidate
      · split at hcandidate
        · cases hcandidate
        · simp only at hcandidate
          split at hcandidate
          · rename_i hlive
            rwa [Option.some.inj hcandidate] at hlive
          · cases hcandidate
    · cases h

theorem selectOwner_keeps {id : SessionId} (howner : multiplex.owner = some id)
    (hlive : multiplex.registry.isLive id) : (selectOwner backends multiplex).owner = some id := by
  unfold selectOwner
  rw [if_pos (by rw [howner]; exact hlive)]
  exact howner

@[simp] theorem publish_registry : (publish backends multiplex).registry =
    collect (offered backends multiplex) multiplex.registry := selectOwner_registry

@[simp] theorem publish_decision : (publish backends multiplex).decision = multiplex.decision :=
  selectOwner_decision

theorem publish_keeps {id : SessionId} (howner : multiplex.owner = some id)
    (hlive : (publish backends multiplex).registry.isLive id) :
    (publish backends multiplex).owner = some id := by
  rw [publish_registry] at hlive
  exact @selectOwner_keeps _ { multiplex with
    registry := collect (offered backends multiplex) multiplex.registry } id howner hlive

theorem sessionId_of_entry {registry : Registry} (h : registry.Sound)
    {entry : SessionId × AdapterSession} (hmem : entry ∈ registry.sessions) :
    registry.sessionId entry.1.key = entry.1 := by
  unfold Registry.sessionId
  rw [(h.entered entry hmem).1]
  rfl

theorem consistent_publish (hbackends : backends.Nodup) (h : multiplex.registry.Bounded) :
    Consistent backends (publish backends multiplex) := by
  have hcollected := collected h _ (offered_distinct hbackends multiplex)
  have hregistry : (publish backends multiplex).registry =
      collect (offered backends multiplex) multiplex.registry := publish_registry
  have hsnapshots : (publish backends multiplex).snapshots = multiplex.snapshots :=
    selectOwner_snapshots
  constructor
  · rw [hregistry]
    exact hcollected.sound
  · intro entry hmem
    rw [hregistry] at hmem
    have hoffered := hcollected.origin entry hmem
    rw [mem_offered] at hoffered ⊢
    rwa [hsnapshots]
  · intro stream hmem
    obtain ⟨session, hsession, hstream⟩ := List.mem_flatMap.mp hmem
    obtain ⟨entry, hentry, rfl⟩ := List.mem_map.mp hsession
    obtain ⟨published, hpublished, rfl⟩ := List.mem_map.mp hstream
    obtain ⟨original, -, rfl⟩ := List.mem_map.mp hpublished
    refine ⟨entry.2, ?_⟩
    rw [selectOwner_registry] at hentry
    rw [hregistry]
    have hid : (streamId (selectOwner backends { multiplex with
        registry := collect (offered backends multiplex) multiplex.registry }) entry.1.key
          original.id).session = entry.1 := by
      unfold streamId
      rw [selectOwner_registry]
      exact sessionId_of_entry hcollected.sound hentry
    rw [hid]
    exact hentry
  · rfl
  · intro id howner
    rw [hregistry]
    exact selectOwner_live howner
  · change ((selectOwner backends _).registry.sessions.map _).map _ = _
    rw [List.map_map]
    rfl

/-! ## What a step changes -/

/-- Apart from the snapshots, nothing is changed that a publication starts from, and no
main session that is hidden is revealed. -/
structure Adjusts (multiplex next : MultiplexProjectionBackend) : Prop where
  registry : next.registry = multiplex.registry
  owner : next.owner = multiplex.owner
  hidden : multiplex.hiddenMainSessions ⊆ next.hiddenMainSessions

/-- Nor is anything else that was published. -/
structure Quiet (multiplex next : MultiplexProjectionBackend) : Prop
    extends Adjusts multiplex next where
  snapshots : ∀ protocol, (multiplex.snapshots protocol).isSome →
    next.snapshots protocol = multiplex.snapshots protocol
  video : next.video = multiplex.video
  current : next.current = multiplex.current

theorem Quiet.refl (multiplex : MultiplexProjectionBackend) : Quiet multiplex multiplex :=
  ⟨⟨rfl, rfl, List.Subset.refl _⟩, fun _ _ => rfl, rfl, rfl⟩

/-- Something is published, or nothing changes that matters. -/
def Change (backends : List ProjectionProtocol)
    (multiplex after : MultiplexProjectionBackend) : Prop :=
  Quiet multiplex after ∨ ∃ next, Adjusts multiplex next ∧ after = publish backends next

theorem Change.quiet {after : MultiplexProjectionBackend} (h : Quiet multiplex after) :
    Change backends multiplex after := .inl h

theorem Change.published (h : Adjusts multiplex next) :
    Change backends multiplex (publish backends next) := .inr ⟨next, h, rfl⟩

theorem change_fail (hquiet : Quiet multiplex next) (decision : ℕ) (target : SessionId)
    (previous : Option SessionId) :
    Change backends multiplex (fail backends next decision target previous).1 := by
  unfold fail
  split
  · exact .published ⟨hquiet.registry, hquiet.owner, hquiet.hidden⟩
  · exact .quiet hquiet

theorem change_conceal (hquiet : Quiet multiplex next) (activation : Activation) (prior : Key)
    (streams : List VideoStream) :
    Change backends multiplex (conceal backends next activation prior streams).1 := by
  cases streams with
  | nil => exact .quiet hquiet
  | cons stream rest => exact .published ⟨hquiet.registry, hquiet.owner, hquiet.hidden⟩

theorem change_retract (activation : Activation) (streams : List VideoStream) :
    Change backends multiplex (retract backends multiplex activation streams).1 := by
  cases streams with
  | nil => exact change_fail (Quiet.refl _) ..
  | cons stream rest => exact .quiet (Quiet.refl _)

theorem change_invalidateRecovery :
    Change backends multiplex (multiplex.invalidateRecovery backends) := by
  unfold MultiplexProjectionBackend.invalidateRecovery
  simp only
  split
  · exact .published ⟨rfl, rfl, List.Subset.refl _⟩
  · exact .quiet ⟨⟨rfl, rfl, List.Subset.refl _⟩, fun _ _ => rfl, rfl, rfl⟩

theorem change_startCommand (multiplex : MultiplexProjectionBackend) (operation : Op) :
    Change backends multiplex (startCommand backends multiplex operation).1 := by
  have hquiet := Quiet.refl multiplex
  cases operation with
  | activate id decision =>
    simp only [startCommand]
    split
    · split
      · exact change_fail hquiet ..
      · split
        · split
          · exact change_conceal hquiet ..
          · split
            · rename_i previous _ _ _ prior _
              have hhidden : Quiet multiplex { multiplex with
                  hiddenMainSessions := previous :: multiplex.hiddenMainSessions } :=
                ⟨⟨rfl, rfl, List.subset_cons_self ..⟩, fun _ _ => rfl, rfl, rfl⟩
              exact change_conceal hhidden ..
            · exact change_conceal hquiet ..
        · exact change_conceal hquiet ..
    · exact .quiet hquiet
  | visibility stream visible =>
    simp only [startCommand]
    split
    · split
      · exact .quiet hquiet
      · dsimp only
        split
        · exact .quiet hquiet
        · refine .published ⟨rfl, rfl, ?_⟩
          dsimp only
          split
          · exact List.subset_cons_self ..
          · exact List.Subset.refl _
    · exact .quiet hquiet
  | disconnect id =>
    simp only [startCommand]
    split <;> exact .quiet hquiet

/-- The replies that make a session the owner, and that reveal its main streams. -/
inductive Completes (multiplex : MultiplexProjectionBackend) (current : Option Await) :
    MultiplexProjectionBackend → SessionId → Option Activation → Prop
  | owned {activation : Activation} (hcurrent : current = some (.activating activation))
      (hdecision : activation.decision = multiplex.decision)
      (hlive : multiplex.registry.isLive activation.target) :
      Completes multiplex current
        { multiplex with
          preferredBackend := some activation.target.key.protocol
          owner := some activation.target
          hiddenMainSessions := multiplex.hiddenMainSessions.filter (· ≠ activation.target)
          hiddenStreams := multiplex.hiddenStreams.filter fun id =>
            id ∉ activation.session.videoStreams.map fun stream =>
              multiplex.streamId activation.target.key stream.id }
        activation.target (some activation)
  | shown {stream : StreamId} {session : SessionId}
      (hcurrent : current = some (.switching stream true session true)) :
      Completes multiplex current
        { multiplex with
          hiddenMainSessions := multiplex.hiddenMainSessions.filter (· ≠ session)
          hiddenStreams := multiplex.hiddenStreams.filter (· ≠ stream) }
        session none

theorem resumeCommand_cases (multiplex : MultiplexProjectionBackend) (await : Await)
    (succeeded : Bool) :
    Change backends multiplex (resumeCommand backends multiplex await succeeded).1 ∨
      succeeded = true ∧ ∃ next session activation,
        Completes multiplex (some await) next session activation ∧
          (resumeCommand backends multiplex await succeeded).1 = publish backends next := by
  have hquiet := Quiet.refl multiplex
  cases await with
  | concealing activation prior rest =>
    cases succeeded with
    | true => exact .inl (change_conceal hquiet ..)
    | false => exact .inl (change_fail hquiet ..)
  | activating activation =>
    cases succeeded with
    | true =>
      simp only [resumeCommand]
      split
      · rename_i hdecision
        split
        · rename_i hlive
          exact .inr ⟨trivial, _, _, _, .owned rfl hdecision hlive, rfl⟩
        · exact .inl (change_fail hquiet ..)
      · exact .inl (change_retract ..)
    | false => exact .inl (change_fail hquiet ..)
  | retracting rest activation =>
    cases succeeded with
    | true => exact .inl (change_retract ..)
    | false => exact .inl (change_fail hquiet ..)
  | switching stream visible session main =>
    cases succeeded with
    | true =>
      simp only [resumeCommand]
      split
      · rename_i hvisible
        subst hvisible
        cases main with
        | true => exact .inr ⟨trivial, _, _, _, .shown rfl, rfl⟩
        | false => exact .inl (.published ⟨rfl, rfl, List.Subset.refl _⟩)
      · exact .inl (.quiet hquiet)
    | false => exact .inl (.quiet hquiet)
  | disconnecting => exact .inl (.quiet hquiet)

/-- Every event publishes or does nothing, unless it completes an activation or shows a
main stream. -/
theorem step_cases (system : System) (event : Event) :
    Change backends system.state (System.step backends system event).1.state ∨
      event = .reply true ∧ ∃ next session activation,
        Completes system.state system.current next session activation ∧
          (System.step backends system event).1.state = publish backends next := by
  have hquiet := Quiet.refl system.state
  have hinvalidate : Change backends system.state
      (system.state.invalidateRecovery backends) := change_invalidateRecovery
  cases event with
  | snapshot protocol snapshot => exact .inl (.published ⟨rfl, rfl, List.Subset.refl _⟩)
  | failed protocol => exact .inl (.published ⟨rfl, rfl, List.Subset.refl _⟩)
  | started protocol snapshot =>
    refine .inl ?_
    simp only [System.step]
    split
    · exact .quiet hquiet
    · rename_i hnone
      refine .quiet ⟨⟨rfl, rfl, List.Subset.refl _⟩, fun other hother => ?_, rfl, rfl⟩
      refine Function.update_of_ne ?_ ..
      rintro rfl
      exact hnone hother
  | allStarted => exact .inl (.published ⟨rfl, rfl, List.Subset.refl _⟩)
  | activate id => exact .inl hinvalidate
  | setVideoVisibility stream visible =>
    refine .inl ?_
    cases visible with
    | true => exact .quiet hquiet
    | false => exact hinvalidate
  | disconnect id => exact .inl (.quiet hquiet)
  | invalidateRecovery => exact .inl hinvalidate
  | recover recovery returnToPrevious =>
    refine .inl ?_
    simp only [System.step]
    split
    · exact hinvalidate
    · exact .quiet hquiet
  | input id ownerOnly =>
    refine .inl ?_
    simp only [System.step]
    split
    · split <;> exact .quiet hquiet
    · exact .quiet hquiet
  | turn =>
    refine .inl ?_
    simp only [System.step, Serial.next]
    split
    · exact change_startCommand ..
    · exact .quiet hquiet
  | reply succeeded =>
    simp only [System.step, Serial.reply]
    split
    · rename_i await hcurrent
      rcases resumeCommand_cases system.state await succeeded with
        hchange | ⟨rfl, next, session, activation, hcompletes, hafter⟩
      · exact .inl hchange
      · rw [hcurrent]
        exact .inr ⟨rfl, next, session, activation, hcompletes, hafter⟩
    · exact .inl (.quiet hquiet)

/-! ## Every step -/

theorem Completes.registry {current : Option Await} {session : SessionId}
    {activation : Option Activation} (h : Completes multiplex current next session activation) :
    next.registry = multiplex.registry ∧ next.snapshots = multiplex.snapshots := by
  cases h <;> exact ⟨rfl, rfl⟩

theorem Completes.activation {current : Option Await} {session : SessionId}
    {activation : Activation}
    (h : Completes multiplex current next session (some activation)) :
    current = some (.activating activation) ∧ activation.decision = multiplex.decision ∧
      multiplex.registry.isLive activation.target ∧ next.owner = some activation.target := by
  cases h with
  | owned hcurrent hdecision hlive => exact ⟨hcurrent, hdecision, hlive, rfl⟩

theorem Completes.none_owner {current : Option Await} {session : SessionId}
    (h : Completes multiplex current next session none) : next.owner = multiplex.owner := by
  cases h with
  | shown => rfl

theorem consistent_change (hbackends : backends.Nodup) (h : Consistent backends multiplex)
    {after : MultiplexProjectionBackend} (hchange : Change backends multiplex after) :
    Consistent backends after := by
  rcases hchange with hquiet | ⟨next, hadjusts, rfl⟩
  · obtain ⟨⟨hregistry, howner, -⟩, hsnapshots, hvideo, hcurrent⟩ := hquiet
    refine ⟨hregistry ▸ h.sound, ?_, ?_, ?_, ?_, ?_⟩
    · intro entry hmem
      rw [hregistry] at hmem
      obtain ⟨hbackend, snapshot, hsnapshot, hrest⟩ := mem_offered.mp (h.stored entry hmem)
      refine mem_offered.mpr ⟨hbackend, snapshot, ?_, hrest⟩
      rw [hsnapshots _ (by rw [hsnapshot]; rfl), hsnapshot]
    · rw [hvideo, hregistry]
      exact h.video
    · rw [hcurrent, howner]
      exact h.active
    · rw [howner, hregistry]
      exact h.live
    · rw [hcurrent, hregistry]
      exact h.shown
  · exact consistent_publish hbackends (hadjusts.registry ▸ h.sound.bounded)

theorem consistent_step (hbackends : backends.Nodup) {system : System} {event : Event}
    (h : Consistent backends system.state) :
    Consistent backends (System.step backends system event).1.state := by
  rcases step_cases system event with
    hchange | ⟨-, next, session, activation, hcompletes, hafter⟩
  · exact consistent_change hbackends h hchange
  · rw [hafter]
    exact consistent_publish hbackends (hcompletes.registry.1 ▸ h.sound.bounded)

/-- A session that lives is live after a publication from the same snapshots. -/
theorem live_publish (hbackends : backends.Nodup) (h : Consistent backends multiplex)
    (hregistry : next.registry = multiplex.registry)
    (hsnapshots : next.snapshots = multiplex.snapshots) {id : SessionId}
    (hlive : multiplex.registry.isLive id) : (publish backends next).registry.isLive id := by
  have hcollected := collected (hregistry ▸ h.sound.bounded) _ (offered_distinct hbackends next)
  have hidentity := h.sound.isLive_iff.mp hlive
  obtain ⟨session, hmem⟩ := h.sound.known _ _ _ hidentity
  have hentered := h.sound.entered _ hmem
  have hoffered : (id.key.protocol, session) ∈ offered backends next := by
    have hstored := h.stored _ hmem
    rw [mem_offered] at hstored ⊢
    rwa [hsnapshots]
  have hkey : keyOf (id.key.protocol, session) = id.key := by
    unfold keyOf
    rw [hentered.2]
  have halive : session.state.isLive = true := by
    have hflag := hentered.1.symm.trans hidentity
    exact (Prod.mk.inj (Option.some.inj hflag)).2
  obtain ⟨identity, hafter⟩ := hcollected.offered _ hoffered
  rw [hkey, halive] at hafter
  rw [publish_registry, hcollected.sound.isLive_iff, hafter]
  rcases hcollected.next _ _ _ hafter with ⟨wasLive, hprevious, -⟩ | ⟨-, hrevived⟩
  · rw [hregistry, hidentity] at hprevious
    rw [(Prod.mk.inj (Option.some.inj hprevious)).1]
  · have hold := hrevived id.identity true (by rw [hregistry]; exact hidentity)
    cases hold.1

/-! ## The owner -/

def Published.isLive (published : Published) (id : SessionId) : Bool :=
  (published.sessions.find? (·.id = id)).any (·.state.isLive)

theorem Consistent.isLive_eq (h : Consistent backends multiplex) (id : SessionId) :
    multiplex.current.isLive id = multiplex.registry.isLive id := by
  have hshown := h.shown
  unfold Published.isLive Registry.isLive
  generalize multiplex.current.sessions = published at hshown
  generalize multiplex.registry.sessions = entries at hshown
  induction published generalizing entries with
  | nil =>
    obtain rfl := List.map_eq_nil_iff.mp hshown.symm
    rfl
  | cons session published ih =>
    cases entries with
    | nil => cases hshown
    | cons entry entries =>
      obtain ⟨hpair, hrest⟩ := List.cons.inj hshown
      obtain ⟨hid, hstate⟩ := Prod.mk.inj hpair
      by_cases hfirst : session.id = id
      · rw [List.find?_cons_of_pos (by simpa using hfirst), List.lookup_cons, ← hid, hfirst,
          beq_self_eq_true]
        simp only [Option.any_some, hstate]
      · rw [List.find?_cons_of_neg (by simpa using hfirst),
          Assoc.lookup_cons_of_ne fun heq => hfirst (hid.trans heq.symm)]
        exact ih entries hrest

/-- While the owner lives it changes only when an activation completes. -/
theorem moves_by_activation (hbackends : backends.Nodup) {system : System} {event : Event}
    (h : Consistent backends system.state) {first second : SessionId}
    (hbefore : system.state.owner = some first)
    (hafter : (System.step backends system event).1.state.owner = some second)
    (hne : first ≠ second)
    (hlive : (System.step backends system event).1.state.registry.isLive first) :
    event = .reply true ∧ ∃ activation, system.current = some (.activating activation) ∧
      activation.decision = system.state.decision ∧ activation.target = second := by
  rcases step_cases system event with
    hchange | ⟨rfl, next, session, activation, hcompletes, hstate⟩
  · exfalso
    rcases hchange with hquiet | ⟨next, hadjusts, hstate⟩
    · rw [hquiet.owner, hbefore] at hafter
      exact hne (Option.some.inj hafter)
    · rw [hstate] at hafter hlive
      rw [publish_keeps (hadjusts.owner.trans hbefore) hlive] at hafter
      exact hne (Option.some.inj hafter)
  · rw [hstate] at hafter hlive
    refine ⟨rfl, ?_⟩
    obtain ⟨hregistry, hsnapshots⟩ := hcompletes.registry
    cases activation with
    | some activation =>
      obtain ⟨hcurrent, hdecision, htarget, howner⟩ := hcompletes.activation
      refine ⟨activation, hcurrent, hdecision, ?_⟩
      have hstill := live_publish hbackends h hregistry hsnapshots htarget
      rw [publish_keeps howner hstill] at hafter
      exact Option.some.inj hafter
    | none =>
      rw [publish_keeps (hcompletes.none_owner.trans hbefore) hlive] at hafter
      exact absurd (Option.some.inj hafter) hne

/-! ## Sessions that ended -/

/-- The identity was given out, and its session does not live. -/
def Ended (registry : Registry) (id : SessionId) : Prop :=
  id.identity ≤ registry.nextIdentity ∧ registry.identities id.key ≠ some (id.identity, true)

theorem ended_publish (hbackends : backends.Nodup) {id : SessionId}
    (hbounded : multiplex.registry.Bounded) (h : Ended multiplex.registry id) :
    Ended (publish backends multiplex).registry id := by
  have hcollected := collected hbounded _ (offered_distinct hbackends multiplex)
  rw [publish_registry]
  refine ⟨h.1.trans hcollected.issued, fun hidentity => ?_⟩
  rcases hcollected.next _ _ _ hidentity with ⟨wasLive, hprevious, hlive⟩ | ⟨hnew, -⟩
  · rw [hlive rfl] at hprevious
    exact h.2 hprevious
  · exact absurd h.1 (Nat.not_le_of_lt hnew)

theorem ended_step (hbackends : backends.Nodup) {system : System} {event : Event}
    {id : SessionId} (h : Consistent backends system.state)
    (hended : Ended system.state.registry id) :
    Ended (System.step backends system event).1.state.registry id := by
  have hpublished : ∀ {next : MultiplexProjectionBackend},
      next.registry = system.state.registry → Ended (publish backends next).registry id := by
    intro next hregistry
    refine ended_publish hbackends (hregistry ▸ h.sound.bounded) ?_
    rw [hregistry]
    exact hended
  rcases step_cases system event with
    (hquiet | ⟨next, hadjusts, hstate⟩) | ⟨-, next, session, activation, hcompletes, hstate⟩
  · rw [hquiet.registry]
    exact hended
  · rw [hstate]
    exact hpublished hadjusts.registry
  · rw [hstate]
    exact hpublished hcompletes.registry.1

theorem issued_step (hbackends : backends.Nodup) {system : System} {event : Event}
    (h : Consistent backends system.state) :
    system.state.registry.nextIdentity ≤
      (System.step backends system event).1.state.registry.nextIdentity := by
  have hpublished : ∀ {next : MultiplexProjectionBackend},
      next.registry = system.state.registry →
        system.state.registry.nextIdentity ≤
          (publish backends next).registry.nextIdentity := by
    intro next hregistry
    have hcollected := collected (hregistry ▸ h.sound.bounded) _ (offered_distinct hbackends next)
    rw [publish_registry, ← hregistry]
    exact hcollected.issued
  rcases step_cases system event with
    (hquiet | ⟨next, hadjusts, hstate⟩) | ⟨-, next, session, activation, hcompletes, hstate⟩
  · rw [hquiet.registry]
  · rw [hstate]
    exact hpublished hadjusts.registry
  · rw [hstate]
    exact hpublished hcompletes.registry.1

theorem not_isLive_of_ended (h : Consistent backends multiplex) {id : SessionId}
    (hended : Ended multiplex.registry id) : multiplex.registry.isLive id = false := by
  rw [Bool.eq_false_iff]
  exact fun hlive => hended.2 (h.sound.isLive_iff.mp hlive)

theorem session_of_ended (h : Consistent backends multiplex) {id : SessionId}
    (hended : Ended multiplex.registry id) : multiplex.session id = none := by
  unfold MultiplexProjectionBackend.session
  rw [not_isLive_of_ended h hended]
  rfl

/-- Commands with the id of a session that ended are refused. -/
theorem refused_of_ended {system : System} (h : Consistent backends system.state)
    {id : SessionId} (hended : Ended system.state.registry id) :
    (∀ ownerOnly, System.step backends system (.input id ownerOnly) = (system, [.threw])) ∧
      (∀ decision rest, system.current = none → system.queue = .activate id decision :: rest →
        (System.step backends system .turn).2 = [.threw]) ∧
      (∀ rest, system.current = none → system.queue = .disconnect id :: rest →
        (System.step backends system .turn).2 = [.threw]) ∧
      ∀ stream visible rest other, system.current = none →
        system.queue = .visibility stream visible :: rest → stream.session = id →
        other.key = id.key → system.state.registry.isLive other →
          (System.step backends system .turn).2 = [.threw] := by
  have hnone := session_of_ended h hended
  refine ⟨?_, ?_, ?_, ?_⟩
  · intro ownerOnly
    simp only [System.step, hnone]
  · intro decision rest hcurrent hqueue
    simp only [System.step, Serial.next, hcurrent, hqueue, commands, startCommand, hnone]
    split
    · unfold fail
      split <;> rfl
    · rfl
  · intro rest hcurrent hqueue
    simp only [System.step, Serial.next, hcurrent, hqueue, commands, startCommand, hnone]
  · intro stream visible rest other hcurrent hqueue hstream hkey hlive
    have hother := h.sound.isLive_iff.mp hlive
    have hunknown : stream ∉ system.state.video := by
      intro hmem
      obtain ⟨session, hsession⟩ := h.video stream hmem
      have hidentity := (h.sound.entered _ hsession).1
      rw [hstream, ← hkey, hother] at hidentity
      obtain ⟨hidentity, -⟩ := Prod.mk.inj (Option.some.inj hidentity)
      rw [hidentity, hkey] at hother
      exact hended.2 hother
    simp only [System.step, Serial.next, hcurrent, hqueue, commands, startCommand, hunknown,
      if_false]

/-! ## Main streams that were hidden -/

/-- No main stream of the session is published as visible. -/
def Concealed (published : Published) (id : SessionId) : Prop :=
  ∀ session ∈ published.sessions, session.id = id →
    ∀ stream ∈ session.videoStreams, stream.role = .main → stream.visible = false

/-- The session is hidden, or gone for good. -/
structure Hidden (multiplex : MultiplexProjectionBackend) (id : SessionId) : Prop where
  issued : id.identity ≤ multiplex.registry.nextIdentity
  hidden : id ∈ multiplex.hiddenMainSessions ∨
    ∀ live, multiplex.registry.identities id.key ≠ some (id.identity, live)
  concealed : Concealed multiplex.current id

theorem hidden_publish (hbackends : backends.Nodup) {id : SessionId}
    (hbounded : multiplex.registry.Bounded)
    (hissued : id.identity ≤ multiplex.registry.nextIdentity)
    (hhidden : id ∈ multiplex.hiddenMainSessions ∨
      ∀ live, multiplex.registry.identities id.key ≠ some (id.identity, live)) :
    Hidden (publish backends multiplex) id := by
  have hcollected := collected hbounded _ (offered_distinct hbackends multiplex)
  have hgone : (∀ live, multiplex.registry.identities id.key ≠ some (id.identity, live)) →
      ∀ live, (collect (offered backends multiplex) multiplex.registry).identities id.key ≠
        some (id.identity, live) := by
    intro hnone live hidentity
    rcases hcollected.next _ _ _ hidentity with ⟨wasLive, hprevious, -⟩ | ⟨hnew, -⟩
    · exact hnone wasLive hprevious
    · exact absurd hissued (Nat.not_le_of_lt hnew)
  have hentries : ∀ entry ∈
      (collect (offered backends multiplex) multiplex.registry).sessions, entry.1 = id →
        (collect (offered backends multiplex) multiplex.registry).identities id.key =
          some (id.identity, entry.2.state.isLive) := by
    rintro entry hmem rfl
    exact (hcollected.sound.entered entry hmem).1
  refine ⟨?_, ?_, ?_⟩
  · rw [publish_registry]
    exact hissued.trans hcollected.issued
  · rw [publish_registry]
    rcases hhidden with hmem | hnone
    · by_cases hpresent :
        id ∈ (collect (offered backends multiplex) multiplex.registry).sessions.map (·.1)
      · refine .inl ?_
        change id ∈ (selectOwner backends _).hiddenMainSessions.filter _
        rw [selectOwner_hidden, selectOwner_registry]
        exact List.mem_filter.mpr ⟨hmem, decide_eq_true hpresent⟩
      · refine .inr fun live hidentity => hpresent ?_
        obtain ⟨session, hentry⟩ := hcollected.sound.known _ _ _ hidentity
        exact List.mem_map_of_mem hentry
    · exact .inr (hgone hnone)
  · intro session hsession hid stream hstream hmain
    obtain ⟨entry, hentry, rfl⟩ := List.mem_map.mp hsession
    rw [selectOwner_registry] at hentry
    obtain ⟨original, -, rfl⟩ := List.mem_map.mp hstream
    rcases hhidden with hmem | hnone
    · have hselected : ¬ (some entry.1 = (selectOwner backends { multiplex with
            registry := collect (offered backends multiplex) multiplex.registry }).owner ∧
          streamId (selectOwner backends { multiplex with
            registry := collect (offered backends multiplex) multiplex.registry }) entry.1.key
              original.id ∉ (selectOwner backends { multiplex with
            registry := collect (offered backends multiplex) multiplex.registry }).hiddenStreams ∧
          ¬ (original.role = .main ∧ entry.1 ∈ (selectOwner backends { multiplex with
            registry := collect (offered backends multiplex)
              multiplex.registry }).hiddenMainSessions)) := by
        rintro ⟨-, -, hshown⟩
        refine hshown ⟨hmain, ?_⟩
        rw [selectOwner_hidden]
        change entry.1 = id at hid
        rw [hid]
        exact hmem
      change (decide _ && original.visible) = false
      rw [decide_eq_false hselected, Bool.false_and]
    · exact absurd (hentries entry hentry hid) (hgone hnone _)

/-- The replies that reveal main streams of the session. -/
def Reveals (system : System) (event : Event) (id : SessionId) : Prop :=
  event = .reply true ∧
    ((∃ activation, system.current = some (.activating activation) ∧ activation.target = id) ∨
      ∃ stream, system.current = some (.switching stream true id true))

theorem Completes.hidden {current : Option Await} {session id : SessionId}
    {activation : Option Activation} (h : Completes multiplex current next session activation)
    (hne : session ≠ id) (hmem : id ∈ multiplex.hiddenMainSessions) :
    id ∈ next.hiddenMainSessions := by
  cases h <;> exact List.mem_filter.mpr ⟨hmem, decide_eq_true hne.symm⟩

theorem hidden_step (hbackends : backends.Nodup) {system : System} {event : Event}
    {id : SessionId} (h : Consistent backends system.state) (hhidden : Hidden system.state id)
    (hreveals : ¬ Reveals system event id) :
    Hidden (System.step backends system event).1.state id := by
  rcases step_cases system event with
    (hquiet | ⟨next, hadjusts, hstate⟩) | ⟨hevent, next, session, activation, hcompletes, hstate⟩
  · refine ⟨?_, ?_, ?_⟩
    · rw [hquiet.registry]
      exact hhidden.issued
    · rw [hquiet.registry]
      exact hhidden.hidden.imp_left fun hmem => hquiet.hidden hmem
    · rw [hquiet.current]
      exact hhidden.concealed
  · rw [hstate]
    refine hidden_publish hbackends (hadjusts.registry ▸ h.sound.bounded) ?_ ?_
    · rw [hadjusts.registry]
      exact hhidden.issued
    · rw [hadjusts.registry]
      exact hhidden.hidden.imp_left fun hmem => hadjusts.hidden hmem
  · have hne : session ≠ id := by
      rintro rfl
      refine hreveals ⟨hevent, ?_⟩
      cases hcompletes with
      | owned hcurrent => exact .inl ⟨_, hcurrent, rfl⟩
      | shown hcurrent => exact .inr ⟨_, hcurrent⟩
    rw [hstate]
    refine hidden_publish hbackends (hcompletes.registry.1 ▸ h.sound.bounded) ?_ ?_
    · rw [hcompletes.registry.1]
      exact hhidden.issued
    · rw [hcompletes.registry.1]
      exact hhidden.hidden.imp_left (hcompletes.hidden hne)

/-- The stream is a main stream of its session. -/
def IsMain (multiplex : MultiplexProjectionBackend) (stream : StreamId) : Prop :=
  (multiplex.registry.sessions.lookup stream.session).any fun session =>
    session.videoStreams.any fun other => other.id = stream.id && other.role = .main

instance decidableIsMain (stream : StreamId) : Decidable (IsMain multiplex stream) :=
  inferInstanceAs (Decidable (_ = true))

/-- The command that hides a main stream hides its session. -/
theorem hidden_of_hide (hbackends : backends.Nodup) {system : System} {stream : StreamId}
    {rest : List Op} (h : Consistent backends system.state) (hcurrent : system.current = none)
    (hqueue : system.queue = .visibility stream false :: rest)
    (hknown : stream ∈ system.state.video) (hmain : IsMain system.state stream) :
    Hidden (System.step backends system .turn).1.state stream.session := by
  obtain ⟨session, hentry⟩ := h.video stream hknown
  have hid : system.state.registry.sessionId stream.session.key = stream.session :=
    sessionId_of_entry h.sound hentry
  have hidentity := (h.sound.entered _ hentry).1
  simp only [System.step, Serial.next, hcurrent, hqueue, commands, startCommand, hknown, if_true,
    Bool.false_eq_true, false_and, if_false, hid]
  refine hidden_publish hbackends h.sound.bounded (h.sound.bounded _ _ _ hidentity) (.inl ?_)
  unfold IsMain at hmain
  simp only [hmain, if_true]
  exact List.mem_cons_self ..

/-! ## Activations are asked for -/

def Await.activation : Await → Option Activation
  | .concealing activation _ _ => some activation
  | .activating activation => some activation
  | .retracting _ activation => some activation
  | _ => none

/-- Every activation that waits or is under way was asked for with its decision. -/
structure Asked (acts : List Act) (system : System) : Prop where
  queue : ∀ id decision, .activate id decision ∈ system.queue → Act.asked id decision ∈ acts
  current : ∀ activation, system.current.bind Await.activation = some activation →
    Act.asked activation.target activation.decision ∈ acts

theorem asked_initial : Asked [] System.initial := ⟨nofun, nofun⟩

theorem fail_await (decision : ℕ) (target : SessionId) (previous : Option SessionId) :
    (fail backends multiplex decision target previous).2.1 = none := by
  unfold fail
  split <;> rfl

theorem conceal_activation (activation : Activation) (prior : Key) (streams : List VideoStream) :
    (conceal backends multiplex activation prior streams).2.1.bind Await.activation =
      some activation := by
  cases streams <;> rfl

theorem retract_activation (activation : Activation) (streams : List VideoStream)
    {other : Activation}
    (h : (retract backends multiplex activation streams).2.1.bind Await.activation = some other) :
    activation = other := by
  cases streams with
  | nil =>
    simp only [retract, fail_await] at h
    cases h
  | cons stream rest => exact Option.some.inj h

theorem startCommand_activation {operation : Op} {activation : Activation}
    (h : (startCommand backends multiplex operation).2.1.bind Await.activation =
      some activation) : operation = .activate activation.target activation.decision := by
  cases operation with
  | activate id decision =>
    have hconceal : ∀ {next : MultiplexProjectionBackend} {begun : Activation} {prior : Key}
        {streams : List VideoStream}, begun.target = id → begun.decision = decision →
        (conceal backends next begun prior streams).2.1.bind Await.activation =
          some activation → Op.activate id decision =
            .activate activation.target activation.decision := by
      rintro next begun prior streams rfl rfl hconceal
      rw [conceal_activation] at hconceal
      rw [Option.some.inj hconceal]
    simp only [startCommand] at h
    split at h
    · split at h
      · rw [fail_await] at h
        cases h
      · split at h
        · split at h
          · exact hconceal rfl rfl h
          · split at h
            · exact hconceal rfl rfl h
            · exact hconceal rfl rfl h
        · exact hconceal rfl rfl h
    · cases h
  | visibility stream visible =>
    simp only [startCommand] at h
    split at h
    · split at h <;> cases h
    · cases h
  | disconnect id =>
    simp only [startCommand] at h
    split at h <;> cases h

theorem resumeCommand_activation {await : Await} {succeeded : Bool} {activation : Activation}
    (h : (resumeCommand backends multiplex await succeeded).2.1.bind Await.activation =
      some activation) : await.activation = some activation := by
  cases await with
  | concealing begun prior rest =>
    cases succeeded with
    | true =>
      simp only [resumeCommand, conceal_activation] at h
      exact h
    | false =>
      simp only [resumeCommand, fail_await] at h
      cases h
  | activating begun =>
    cases succeeded with
    | true =>
      simp only [resumeCommand] at h
      split at h
      · split at h
        · cases h
        · rw [fail_await] at h
          cases h
      · exact congrArg some (retract_activation begun _ h)
    | false =>
      simp only [resumeCommand, fail_await] at h
      cases h
  | retracting rest begun =>
    cases succeeded with
    | true => exact congrArg some (retract_activation begun _ h)
    | false =>
      simp only [resumeCommand, fail_await] at h
      cases h
  | switching stream visible session main =>
    cases succeeded with
    | true =>
      simp only [resumeCommand] at h
      split at h <;> cases h
    | false => cases h
  | disconnecting => cases h

theorem asked_step {acts : List Act} {system : System} {event : Event} (h : Asked acts system) :
    Asked (acts ++ (System.step backends system event).2)
      (System.step backends system event).1 := by
  have hold : ∀ {more : List Act} {after : System}, after.queue = system.queue →
      after.current = system.current → Asked (acts ++ more) after := by
    intro more after hqueue hcurrent
    refine ⟨fun id decision hmem => ?_, fun activation hactivation => ?_⟩
    · rw [hqueue] at hmem
      exact List.mem_append_left _ (h.queue id decision hmem)
    · rw [hcurrent] at hactivation
      exact List.mem_append_left _ (h.current activation hactivation)
  have hlast : ∀ {more : List Act} {after : System} (operation : Op),
      after.queue = system.queue ++ [operation] → after.current = system.current →
      (∀ id decision, operation = .activate id decision → Act.asked id decision ∈ more) →
        Asked (acts ++ more) after := by
    intro more after operation hqueue hcurrent hasked
    refine ⟨fun id decision hmem => ?_, fun activation hactivation => ?_⟩
    · rw [hqueue] at hmem
      rcases List.mem_append.mp hmem with hmem | hmem
      · exact List.mem_append_left _ (h.queue id decision hmem)
      · exact List.mem_append_right _ (hasked id decision (List.mem_singleton.mp hmem).symm)
    · rw [hcurrent] at hactivation
      exact List.mem_append_left _ (h.current activation hactivation)
  have hactivate : ∀ target, Asked (acts ++ (System.activate backends system target).2)
      (System.activate backends system target).1 := by
    intro target
    refine hlast (.activate target (system.state.invalidateRecovery backends).decision) rfl rfl ?_
    rintro id decision heq
    cases heq
    exact List.mem_singleton_self _
  cases event with
  | snapshot protocol snapshot => exact hold rfl rfl
  | failed protocol => exact hold rfl rfl
  | started protocol snapshot =>
    simp only [System.step]
    split <;> exact hold rfl rfl
  | allStarted => exact hold rfl rfl
  | activate id => exact hactivate id
  | setVideoVisibility stream visible => exact hlast (.visibility stream visible) rfl rfl nofun
  | disconnect id => exact hlast (.disconnect id) rfl rfl nofun
  | invalidateRecovery => exact hold rfl rfl
  | recover recovery returnToPrevious =>
    simp only [System.step]
    split
    · exact hactivate _
    · exact hold rfl rfl
  | input id ownerOnly =>
    simp only [System.step]
    split
    · split <;> exact hold rfl rfl
    · exact hold rfl rfl
  | turn =>
    simp only [System.step, Serial.next]
    split
    · rename_i operation rest hcurrent hqueue
      refine ⟨fun id decision hmem => ?_, fun activation hactivation => ?_⟩
      · refine List.mem_append_left _ (h.queue id decision ?_)
        rw [hqueue]
        exact List.mem_cons_of_mem _ hmem
      · refine List.mem_append_left _ (h.queue _ _ ?_)
        rw [hqueue, ← startCommand_activation hactivation]
        exact List.mem_cons_self ..
    · exact hold rfl rfl
  | reply succeeded =>
    simp only [System.step, Serial.reply]
    split
    · rename_i await hcurrent
      refine ⟨fun id decision hmem => List.mem_append_left _ (h.queue id decision hmem),
        fun activation hactivation => List.mem_append_left _ (h.current activation ?_)⟩
      rw [hcurrent]
      exact resumeCommand_activation hactivation
    · exact hold rfl rfl

/-! ## Every run -/

theorem consistent_run (hbackends : backends.Nodup) {system : System}
    (h : Consistent backends system.state) (events : List Event) :
    Consistent backends (run (System.step backends) system events).1.state :=
  run_invariant (System.step backends) (I := fun system => Consistent backends system.state) h
    (fun _ _ hconsistent => consistent_step hbackends hconsistent) events

theorem ended_run (hbackends : backends.Nodup) {system : System} {id : SessionId}
    (h : Consistent backends system.state) (hended : Ended system.state.registry id)
    (events : List Event) :
    Ended (run (System.step backends) system events).1.state.registry id :=
  (run_invariant (System.step backends) (I := fun system =>
    Consistent backends system.state ∧ Ended system.state.registry id) ⟨h, hended⟩
    (fun _ _ hboth => ⟨consistent_step hbackends hboth.1, ended_step hbackends hboth.1 hboth.2⟩)
    events).2

theorem issued_run (hbackends : backends.Nodup) {system : System} {identity : ℕ}
    (h : Consistent backends system.state)
    (hissued : identity ≤ system.state.registry.nextIdentity) (events : List Event) :
    identity ≤ (run (System.step backends) system events).1.state.registry.nextIdentity :=
  (run_invariant (System.step backends) (I := fun system =>
    Consistent backends system.state ∧ identity ≤ system.state.registry.nextIdentity)
    ⟨h, hissued⟩ (fun _ _ hboth => ⟨consistent_step hbackends hboth.1,
      hboth.2.trans (issued_step hbackends hboth.1)⟩) events).2

theorem asked_run (events : List Event) :
    Asked ((run (System.step backends) System.initial events).2.flatMap (·.2))
      (run (System.step backends) System.initial events).1 := by
  refine run_history (System.step backends) (I := fun system history =>
    Asked (history.flatMap (·.2)) system) asked_initial ?_ events
  intro system history event h
  rw [List.flatMap_append, List.flatMap_singleton]
  exact asked_step h

theorem hidden_run (hbackends : backends.Nodup) {system : System} {id : SessionId}
    (h : Consistent backends system.state) (hhidden : Hidden system.state id)
    (events : List Event) (hreveals : Along (System.step backends)
      (fun system event => ¬ Reveals system event id) system events) :
    Hidden (run (System.step backends) system events).1.state id := by
  refine along_induction (System.step backends) (I := fun events =>
    Hidden (run (System.step backends) system events).1.state id) hhidden ?_ events hreveals
  intro events event ih hevent
  rw [run_concat]
  exact hidden_step hbackends (consistent_run hbackends h events) ih hevent

/-- In every run: the active session is live in the same snapshot; while it is, another one
becomes active only when an activation completes that was asked for with the decision that
is still the latest; an id whose session ended does not live again, and commands with it
are refused; and once a main stream was hidden, none of its session is published as
visible until the session is activated or one of its main streams is shown. -/
theorem ownership_contract (backends : List ProjectionProtocol) (hbackends : backends.Nodup)
    (events : List Event) :
    let reached := (run (System.step backends) System.initial events).1
    let acts := (run (System.step backends) System.initial events).2.flatMap (·.2)
    (∀ id, reached.state.current.activeSessionId = some id → reached.state.current.isLive id) ∧
    (∀ event first second,
      let after := (System.step backends reached event).1.state
      reached.state.current.activeSessionId = some first →
      after.current.activeSessionId = some second → first ≠ second →
      after.current.isLive first →
        event = .reply true ∧ Act.asked second reached.state.decision ∈ acts ∧
          ∃ activation, reached.current = some (.activating activation) ∧
            activation.target = second ∧ activation.decision = reached.state.decision) ∧
    (∀ id ∈ reached.state.current.sessions.map (·.id), ∀ more,
      let later := (run (System.step backends) reached more).1
      later.state.current.isLive id = false → ∀ yet,
        let last := (run (System.step backends) later yet).1
        last.state.current.isLive id = false ∧
        (∀ ownerOnly, System.step backends last (.input id ownerOnly) = (last, [.threw])) ∧
        (∀ decision rest, last.current = none → last.queue = .activate id decision :: rest →
          (System.step backends last .turn).2 = [.threw]) ∧
        (∀ rest, last.current = none → last.queue = .disconnect id :: rest →
          (System.step backends last .turn).2 = [.threw]) ∧
        ∀ stream visible rest other, last.current = none →
          last.queue = .visibility stream visible :: rest → stream.session = id →
          other.key = id.key → last.state.current.isLive other →
            (System.step backends last .turn).2 = [.threw]) ∧
    ∀ stream rest, reached.current = none → reached.queue = .visibility stream false :: rest →
      stream ∈ reached.state.video → IsMain reached.state stream → ∀ more,
        Along (System.step backends) (fun system event => ¬ Reveals system event stream.session)
          (System.step backends reached .turn).1 more →
        Concealed (run (System.step backends) (System.step backends reached .turn).1
          more).1.state.current stream.session := by
  intro reached acts
  have hreached : Consistent backends reached.state :=
    consistent_run hbackends consistent_initial events
  refine ⟨?_, ?_, ?_, ?_⟩
  · intro id hactive
    rw [hreached.isLive_eq]
    exact hreached.live id (hreached.active ▸ hactive)
  · intro event first second after hfirst hsecond hne hlive
    have hafter : Consistent backends after := consistent_step hbackends hreached
    rw [hafter.isLive_eq] at hlive
    obtain ⟨hevent, activation, hcurrent, hdecision, htarget⟩ := moves_by_activation hbackends
      hreached (hreached.active ▸ hfirst) (hafter.active ▸ hsecond) hne hlive
    refine ⟨hevent, ?_, activation, hcurrent, htarget, hdecision⟩
    have hasked := (asked_run events).current activation (by rw [hcurrent]; rfl)
    rw [← hdecision, ← htarget]
    exact hasked
  · intro id hid more later hdead yet last
    have hlater : Consistent backends later.state := consistent_run hbackends hreached more
    have hlast : Consistent backends last.state := consistent_run hbackends hlater yet
    have hissued : id.identity ≤ reached.state.registry.nextIdentity := by
      have hids := congrArg (List.map Prod.fst) hreached.shown
      rw [List.map_map, List.map_map] at hids
      have hmem : id ∈ reached.state.registry.sessions.map (·.1) := by
        have hpublished : id ∈ reached.state.current.sessions.map
            (Prod.fst ∘ fun session : PublishedSession => (session.id, session.state)) := hid
        rw [hids] at hpublished
        exact hpublished
      obtain ⟨entry, hentry, rfl⟩ := List.mem_map.mp hmem
      exact hreached.sound.bounded _ _ _ (hreached.sound.entered entry hentry).1
    have hended : Ended later.state.registry id := by
      refine ⟨issued_run hbackends hreached hissued more, fun hidentity => ?_⟩
      rw [hlater.isLive_eq, hlater.sound.isLive_iff.mpr hidentity] at hdead
      cases hdead
    have hlasts := ended_run hbackends hlater hended yet
    obtain ⟨hinput, hactivate, hdisconnect, hvisibility⟩ := refused_of_ended hlast hlasts
    refine ⟨?_, hinput, hactivate, hdisconnect, ?_⟩
    · rw [hlast.isLive_eq]
      exact not_isLive_of_ended hlast hlasts
    · intro stream visible rest other hcurrent hqueue hstream hkey hlive
      rw [hlast.isLive_eq] at hlive
      exact hvisibility stream visible rest other hcurrent hqueue hstream hkey hlive
  · intro stream rest hcurrent hqueue hknown hmain more hreveals
    have hhidden := hidden_of_hide hbackends hreached hcurrent hqueue hknown hmain
    exact (hidden_run hbackends (consistent_step hbackends hreached) hhidden more
      hreveals).concealed

/-! ## Runs -/

/-- A phone that shows its main stream. -/
def phone : AdapterSnapshot where
  backendAvailable := true
  sessions := [⟨"phone", .streaming, [⟨"main", .main, true, true⟩]⟩]
  activeSessionId := some "phone"

def phoneMain : StreamId := ⟨⟨⟨.androidAuto, "phone"⟩, 1⟩, "main"⟩

def hideMain : List Event := [.snapshot .androidAuto phone, .setVideoVisibility phoneMain false]

/-- The adapter goes on publishing the stream as visible. -/
def republished : List Event := [.reply true, .snapshot .androidAuto phone]

def bothBackends : List ProjectionProtocol := [.androidAuto, .carPlay]

theorem hidden_stays :
    (run (System.step bothBackends) System.initial
      (hideMain ++ .turn :: republished)).1.state.current.activeSessionId =
        some phoneMain.session ∧
      Concealed (run (System.step bothBackends) System.initial
        (hideMain ++ .turn :: republished)).1.state.current phoneMain.session := by
  obtain ⟨-, -, -, hhidden⟩ := ownership_contract bothBackends (by decide) hideMain
  have hawait : (System.step bothBackends (run (System.step bothBackends) System.initial
      hideMain).1 .turn).1.current = some (.switching phoneMain false phoneMain.session true) := by
    decide +kernel
  refine ⟨by decide +kernel, ?_⟩
  rw [run_append]
  refine hhidden phoneMain [] rfl rfl (by decide +kernel) (by decide +kernel) republished ?_
  refine ⟨?_, ?_, trivial⟩
  · rintro ⟨-, ⟨activation, hcurrent, -⟩ | ⟨stream, hcurrent⟩⟩
    · rw [hawait] at hcurrent
      cases hcurrent
    · rw [hawait] at hcurrent
      cases hcurrent
  · rintro ⟨hevent, -⟩
    cases hevent

/-- The stream is hidden and shown again, and no activation follows the hide. -/
def shownAgain : List Event :=
  hideMain ++ [.turn, .reply true, .setVideoVisibility phoneMain true, .turn, .reply true]

/-- A stream is published as visible though hiding it was the latest decision. -/
theorem visible_after_hide :
    (∀ event ∈ shownAgain, ∀ id, event ≠ .activate id) ∧
      (∀ event ∈ shownAgain, ∀ recovery back, event ≠ .recover recovery back) ∧
      (run (System.step bothBackends) System.initial shownAgain).1.state.decision = 1 ∧
      (run (System.step bothBackends) System.initial hideMain).1.state.decision = 1 ∧
      ∃ session ∈ (run (System.step bothBackends) System.initial
          shownAgain).1.state.current.sessions,
        session.id = phoneMain.session ∧
          ∃ stream ∈ session.videoStreams, stream.role = .main ∧ stream.visible := by
  refine ⟨?_, ?_, by decide +kernel, by decide +kernel, by decide +kernel⟩
  · intro event hevent id heq
    subst heq
    simp [shownAgain, hideMain] at hevent
  · intro event hevent recovery back heq
    subst heq
    simp [shownAgain, hideMain] at hevent

end ProjectArgo.Projection.Multiplex
