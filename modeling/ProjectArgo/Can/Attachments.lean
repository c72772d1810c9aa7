import Mathlib.Data.Nat.Basic
import Mathlib.Order.Basic
import ProjectArgo.Can.RestartableCanProvider

/-!
# Subscriptions and delegates of the restartable provider

While the provider is online, each of its subscriptions is attached to the current
delegate once, and only those attachments deliver. No delegate is forgotten: it is
current, closed, left over for the next attempt to close it, or in the hands of the
operation under way.
-/
namespace ProjectArgo.Can

open Library Library.Run

/-- The attachment is the only one of the subscription to the delegate. -/
structure AttachedOnce (attachments : List Attachment) (delegate id generation place : ℕ) :
    Prop where
  here : attachments[place]? = some ⟨delegate, id, generation⟩
  only : ∀ (other : ℕ) (attachment : Attachment), attachments[other]? = some attachment →
    attachment.delegate = delegate → attachment.subscription = id → other = place

theorem getElem?_concat {α : Type*} {list : List α} {item other : α} {place : ℕ}
    (h : (list ++ [item])[place]? = some other) :
    list[place]? = some other ∨ place = list.length ∧ item = other := by
  rcases Nat.lt_trichotomy place list.length with hlt | heq | hgt
  · rw [List.getElem?_append_left hlt] at h
    exact Or.inl h
  · subst heq
    rw [List.getElem?_concat_length] at h
    exact Or.inr ⟨rfl, Option.some.inj h⟩
  · rw [List.getElem?_eq_none (by simp; omega)] at h
    cases h

/-- Attachments to another delegate, or of another subscription, do not matter. -/
theorem AttachedOnce.concat {attachments : List Attachment} {delegate id generation place : ℕ}
    {new : Attachment} (h : AttachedOnce attachments delegate id generation place)
    (hnew : new.delegate ≠ delegate ∨ new.subscription ≠ id) :
    AttachedOnce (attachments ++ [new]) delegate id generation place := by
  constructor
  · have hlt : place < attachments.length := (List.getElem?_eq_some_iff.mp h.here).1
    rw [List.getElem?_append_left hlt]
    exact h.here
  · intro other attachment hother hdelegate hid
    rcases getElem?_concat hother with hold | ⟨-, rfl⟩
    · exact h.only other attachment hold hdelegate hid
    · rcases hnew with hne | hne
      · exact absurd hdelegate hne
      · exact absurd hid hne

/-- The first attachment of a subscription to a delegate. -/
theorem attachedOnce_concat {attachments : List Attachment} {delegate id : ℕ} (generation : ℕ)
    (h : ∀ attachment ∈ attachments, attachment.delegate = delegate →
      attachment.subscription ≠ id) :
    AttachedOnce (attachments ++ [⟨delegate, id, generation⟩]) delegate id generation
      attachments.length := by
  constructor
  · exact List.getElem?_concat_length
  · intro other attachment hother hdelegate hid
    rcases getElem?_concat hother with hold | ⟨rfl, -⟩
    · exact absurd hid (h attachment (List.mem_of_getElem? hold) hdelegate)
    · rfl

namespace RestartableCanProvider

variable {provider : RestartableCanProvider} {hands : List ℕ}

def ids (provider : RestartableCanProvider) : List ℕ := provider.subscriptions.map (·.id)

/-- The subscription knows its only attachment to the delegate. -/
def Linked (provider : RestartableCanProvider) (delegate : ℕ)
    (subscription : LogicalCanSubscription) : Prop :=
  ∃ place, subscription.delegateSubscription = some place ∧
    subscription.delegateGeneration = some provider.transportGeneration ∧
    AttachedOnce provider.attachments delegate subscription.id provider.transportGeneration place

/-- What holds at every await, with the delegates in the hands of the operation. -/
structure Sound (provider : RestartableCanProvider) (hands : List ℕ) : Prop where
  active : ∀ subscription ∈ provider.subscriptions, subscription.active = true
  fresh : ∀ id ∈ provider.ids, id < provider.nextSubscriptionId
  nodup : provider.ids.Nodup
  log : ∀ attachment ∈ provider.attachments, attachment.delegate < provider.created ∧
    attachment.subscription < provider.nextSubscriptionId ∧
    attachment.generation ≤ provider.transportGeneration
  offline : provider.delegate = none → ∀ subscription ∈ provider.subscriptions,
    subscription.delegateSubscription = none ∧ subscription.delegateGeneration = none
  accepts : provider.acceptFrames = provider.delegate.isSome
  swept : ∀ delegate, provider.delegate = some delegate →
    delegate < provider.created ∧ provider.detachedDelegates = [] ∧ provider.closed = false
  latest : ∀ delegate, provider.delegate = some delegate →
    ∀ attachment ∈ provider.attachments,
      attachment.generation = provider.transportGeneration → attachment.delegate = delegate
  linked : ∀ delegate, provider.delegate = some delegate →
    ∀ subscription ∈ provider.subscriptions, provider.Linked delegate subscription
  ended : provider.closed = true → provider.delegate = none ∧ provider.subscriptions = []
  kept : ∀ delegate < provider.created, provider.delegate = some delegate ∨
    delegate ∈ provider.closedDelegates ∨ delegate ∈ provider.detachedDelegates ∨
    delegate ∈ hands ∨ provider.closed = true

theorem sound_start (writesEnabled : Bool) : Sound { writesEnabled := writesEnabled } [] := by
  constructor <;> simp [ids]

/-! ## Changes that every operation is made of -/

theorem mem_remove {id : ℕ} {subscription : LogicalCanSubscription} :
    subscription ∈ (provider.remove id).subscriptions ↔
      subscription ∈ provider.subscriptions ∧ subscription.id ≠ id := by
  simp [remove, List.mem_filter]

theorem mem_ids_remove {id other : ℕ} :
    other ∈ (provider.remove id).ids ↔ other ∈ provider.ids ∧ other ≠ id := by
  simp only [ids, List.mem_map, mem_remove]
  constructor
  · rintro ⟨subscription, ⟨hmem, hne⟩, rfl⟩
    exact ⟨⟨subscription, hmem, rfl⟩, hne⟩
  · rintro ⟨⟨subscription, hmem, rfl⟩, hne⟩
    exact ⟨subscription, ⟨hmem, hne⟩, rfl⟩

theorem Sound.remove (h : provider.Sound hands) (id : ℕ) : (provider.remove id).Sound hands where
  active subscription hmem := h.active subscription (mem_remove.mp hmem).1
  fresh other hmem := h.fresh other (mem_ids_remove.mp hmem).1
  nodup := h.nodup.sublist (List.Sublist.map _ List.filter_sublist)
  log := h.log
  offline hnone subscription hmem := h.offline hnone subscription (mem_remove.mp hmem).1
  accepts := h.accepts
  swept := h.swept
  latest := h.latest
  linked delegate hdelegate subscription hmem :=
    h.linked delegate hdelegate subscription (mem_remove.mp hmem).1
  ended hclosed := by
    obtain ⟨hnone, hempty⟩ := h.ended hclosed
    exact ⟨hnone, by simp [RestartableCanProvider.remove, hempty]⟩
  kept := h.kept

theorem unbind_ids : provider.unbind.ids = provider.ids := by
  simp [ids, unbind, Function.comp_def]

theorem mem_unbind {subscription : LogicalCanSubscription}
    (h : subscription ∈ provider.unbind.subscriptions) :
    ∃ old ∈ provider.subscriptions, old.id = subscription.id ∧
      old.active = subscription.active ∧ subscription.delegateSubscription = none ∧
        subscription.delegateGeneration = none := by
  obtain ⟨old, hold, rfl⟩ := List.mem_map.mp h
  exact ⟨old, hold, rfl, rfl, rfl, rfl⟩

/-- The delegate is let go, and the generation may go on. -/
theorem Sound.letGo (h : provider.Sound hands) {generation : ℕ}
    (hgeneration : provider.transportGeneration ≤ generation) {more : List ℕ}
    (hhands : ∀ delegate, provider.delegate = some delegate → delegate ∈ more) :
    Sound { provider.unbind with
      acceptFrames := false, transportGeneration := generation, delegate := none }
      (more ++ hands) where
  active subscription hmem := by
    obtain ⟨old, hold, -, hactive, -⟩ := mem_unbind hmem
    exact hactive ▸ h.active old hold
  fresh id hmem := h.fresh id (unbind_ids ▸ hmem)
  nodup := by
    have hnodup := h.nodup
    rw [← unbind_ids] at hnodup
    exact hnodup
  log attachment hmem := by
    obtain ⟨hdelegate, hid, hle⟩ := h.log attachment hmem
    exact ⟨hdelegate, hid, hle.trans hgeneration⟩
  offline _ subscription hmem := by
    obtain ⟨-, -, -, -, hunbound⟩ := mem_unbind hmem
    exact hunbound
  accepts := rfl
  swept := nofun
  latest := nofun
  linked := nofun
  ended hclosed := by
    exact ⟨rfl, by simp [unbind, (h.ended hclosed).2]⟩
  kept delegate hlt := by
    rcases h.kept delegate hlt with hcurrent | hclosed | hdetached | hhand | hended
    · exact Or.inr (Or.inr (Or.inr (Or.inl (List.mem_append_left _ (hhands delegate hcurrent)))))
    · exact Or.inr (Or.inl hclosed)
    · exact Or.inr (Or.inr (Or.inl hdetached))
    · exact Or.inr (Or.inr (Or.inr (Or.inl (List.mem_append_right _ hhand))))
    · exact Or.inr (Or.inr (Or.inr (Or.inr hended)))

theorem Sound.abort (h : provider.Sound hands) (hnone : provider.delegate = none) :
    provider.abort.Sound hands := by
  have hgo : Sound _ ([] ++ hands) := h.letGo le_rfl (by simp [hnone])
  exact hgo

/-- A delegate in hand was closed. -/
theorem Sound.closedWell {delegate : ℕ} (h : provider.Sound (delegate :: hands)) :
    (provider.closedWell delegate).Sound hands where
  active := h.active
  fresh := h.fresh
  nodup := h.nodup
  log := h.log
  offline := h.offline
  accepts := h.accepts
  swept := h.swept
  latest := h.latest
  linked := h.linked
  ended := h.ended
  kept other hlt := by
    rcases h.kept other hlt with hcurrent | hclosed | hdetached | hhand | hended
    · exact Or.inl hcurrent
    · exact Or.inr (Or.inl (List.mem_append_left _ hclosed))
    · exact Or.inr (Or.inr (Or.inl hdetached))
    · rcases List.mem_cons.mp hhand with rfl | hhand
      · exact Or.inr (Or.inl (List.mem_append_right _ (List.mem_singleton_self _)))
      · exact Or.inr (Or.inr (Or.inr (Or.inl hhand)))
    · exact Or.inr (Or.inr (Or.inr (Or.inr hended)))

/-- A delegate in hand could not be closed, and is left over. -/
theorem Sound.detach {delegate : ℕ} (h : provider.Sound (delegate :: hands))
    (hnone : provider.delegate = none) : (provider.detach delegate).Sound hands where
  active := h.active
  fresh := h.fresh
  nodup := h.nodup
  log := h.log
  offline := h.offline
  accepts := h.accepts
  swept other hother := nomatch hnone.symm.trans hother
  latest := h.latest
  linked := h.linked
  ended := h.ended
  kept other hlt := by
    rcases h.kept other hlt with hcurrent | hclosed | hdetached | hhand | hended
    · exact Or.inl hcurrent
    · exact Or.inr (Or.inl hclosed)
    · exact Or.inr (Or.inr (Or.inl (List.mem_append_left _ hdetached)))
    · rcases List.mem_cons.mp hhand with rfl | hhand
      · exact Or.inr (Or.inr (Or.inl (List.mem_append_right _ (List.mem_singleton_self _))))
      · exact Or.inr (Or.inr (Or.inr (Or.inl hhand)))
    · exact Or.inr (Or.inr (Or.inr (Or.inr hended)))

/-- A delegate that was left over is closed at last. -/
theorem Sound.sweep (h : provider.Sound hands) (hnone : provider.delegate = none)
    (delegate : ℕ) : Sound { provider.closedWell delegate with
      detachedDelegates := provider.detachedDelegates.erase delegate } hands where
  active := h.active
  fresh := h.fresh
  nodup := h.nodup
  log := h.log
  offline := h.offline
  accepts := h.accepts
  swept other hother := nomatch hnone.symm.trans hother
  latest := h.latest
  linked := h.linked
  ended := h.ended
  kept other hlt := by
    rcases h.kept other hlt with hcurrent | hclosed | hdetached | hhand | hended
    · exact Or.inl hcurrent
    · exact Or.inr (Or.inl (List.mem_append_left _ hclosed))
    · by_cases heq : other = delegate
      · subst heq
        exact Or.inr (Or.inl (List.mem_append_right _ (List.mem_singleton_self _)))
      · exact Or.inr (Or.inr (Or.inl ((List.mem_erase_of_ne heq).mpr hdetached)))
    · exact Or.inr (Or.inr (Or.inr (Or.inl hhand)))
    · exact Or.inr (Or.inr (Or.inr (Or.inr hended)))

/-- Another attachment, of a subscription that is not one of the current delegate's. -/
theorem Sound.attach (h : provider.Sound hands) {delegate id : ℕ}
    (hdelegate : delegate < provider.created) (hid : id < provider.nextSubscriptionId)
    (hcurrent : ∀ current, provider.delegate = some current →
      current = delegate ∧ id ∉ provider.ids) :
    (provider.attach delegate id provider.transportGeneration).Sound hands where
  active := h.active
  fresh := h.fresh
  nodup := h.nodup
  log attachment hmem := by
    rcases List.mem_append.mp hmem with hold | hnew
    · exact h.log attachment hold
    · rw [List.mem_singleton.mp hnew]
      exact ⟨hdelegate, hid, le_rfl⟩
  offline := h.offline
  accepts := h.accepts
  swept := h.swept
  latest current hsome attachment hmem hgeneration := by
    rcases List.mem_append.mp hmem with hold | hnew
    · exact h.latest current hsome attachment hold hgeneration
    · rw [List.mem_singleton.mp hnew]
      exact (hcurrent current hsome).1.symm
  linked current hsome subscription hmem := by
    obtain ⟨place, hplace, hgeneration, honce⟩ := h.linked current hsome subscription hmem
    refine ⟨place, hplace, hgeneration, honce.concat (Or.inr ?_)⟩
    rintro rfl
    exact (hcurrent current hsome).2 (List.mem_map_of_mem hmem)
  ended := h.ended
  kept := h.kept

/-! ## Awaits -/

/-- Some subscriptions are attached to a new delegate, and the others will be. -/
structure Attaching (provider : RestartableCanProvider) (candidate generation : ℕ)
    (attached : List (ℕ × ℕ)) (rest : List ℕ) : Prop where
  delegate : provider.delegate = none
  opened : provider.closed = false
  current : generation = provider.transportGeneration
  swept : provider.detachedDelegates = []
  created : candidate < provider.created
  latest : ∀ attachment ∈ provider.attachments, attachment.generation = generation →
    attachment.delegate = candidate
  ids : provider.ids = attached.map Prod.fst ++ rest
  attached : ∀ pair ∈ attached,
    AttachedOnce provider.attachments candidate pair.1 generation pair.2
  rest : ∀ attachment ∈ provider.attachments, attachment.delegate = candidate →
    attachment.subscription ∉ rest

/-- What the operation under way relies on. -/
def Under (provider : RestartableCanProvider) : Option Await → Prop
  | some (.subscribing subscription place generation) =>
    ∃ delegate, provider.delegate = some delegate ∧ generation = provider.transportGeneration ∧
      subscription.active = true ∧ subscription.id < provider.nextSubscriptionId ∧
      subscription.id ∉ provider.ids ∧
      AttachedOnce provider.attachments delegate subscription.id generation place
  | some (.removing rest _) => ∀ id ∈ rest, id < provider.nextSubscriptionId
  | some (.quiescing _) => provider.delegate = none
  | some (.sweeping delegate rest failed _) =>
    provider.delegate = none ∧ provider.closed = false ∧
      (failed = false → provider.detachedDelegates = delegate :: rest)
  | some (.creating generation) =>
    provider.delegate = none ∧ provider.closed = false ∧
      generation = provider.transportGeneration ∧ provider.detachedDelegates = [] ∧
      ∀ attachment ∈ provider.attachments, attachment.generation < generation
  | some (.attaching candidate generation attached id place rest) =>
    provider.Attaching candidate generation (attached ++ [(id, place)]) rest
  | some (.discarding _) => provider.delegate = none
  | some (.closing _ _ _) => provider.closed = true
  | _ => True

/-- The delegates in the hands of the operation under way. -/
def hand : Option Await → List ℕ
  | some (.quiescing delegate) => [delegate]
  | some (.attaching candidate _ _ _ _ _) => [candidate]
  | some (.discarding candidate) => [candidate]
  | _ => []

def Inv (provider : RestartableCanProvider) (await : Option Await) : Prop :=
  provider.Sound (hand await) ∧ provider.Under await

/-- The subscription was taken out of the map, and never comes back. -/
structure Gone (provider : RestartableCanProvider) (await : Option Await) (id : ℕ) : Prop where
  fresh : id < provider.nextSubscriptionId
  absent : id ∉ provider.ids
  pending : ∀ subscription place generation,
    await = some (.subscribing subscription place generation) → subscription.id ≠ id

/-- What a piece of an operation leaves. -/
structure Good (provider : RestartableCanProvider) (await : Option Await) (piece : Piece) :
    Prop where
  inv : piece.1.Inv piece.2.1
  gone : ∀ id, provider.Gone await id → piece.1.Gone piece.2.1 id
  cancelled : ∀ id, .cancelled id ∈ piece.2.2 → piece.1.Gone piece.2.1 id
  resumed : .threw (some .resume) ∈ piece.2.2 →
    piece.1.delegate = none ∨ provider.closing = true ∧ piece.1 = provider
  silent : ∀ id delegate, .handled id delegate ∉ piece.2.2

variable {await : Option Await}

theorem Sound.lt_next (h : provider.Sound hands) {subscription : LogicalCanSubscription}
    (hmem : subscription ∈ provider.subscriptions) :
    subscription.id < provider.nextSubscriptionId := h.fresh _ (List.mem_map_of_mem hmem)

/-- A piece that touches no subscription. -/
theorem Gone.of_eq {id : ℕ} (h : provider.Gone await id) {next : RestartableCanProvider}
    {after : Option Await} (hids : next.ids = provider.ids)
    (hnext : next.nextSubscriptionId = provider.nextSubscriptionId)
    (hafter : ∀ subscription place generation,
      after ≠ some (.subscribing subscription place generation)) : next.Gone after id :=
  ⟨hnext ▸ h.fresh, hids ▸ h.absent,
    fun subscription place generation heq => absurd heq (hafter subscription place generation)⟩

/-- A piece that ends its operation, and does not fail a resume. -/
theorem good_end {next : RestartableCanProvider} {act : Act} (h : next.Sound [])
    (hgone : ∀ id, provider.Gone await id → next.Gone none id)
    (hcancelled : ∀ id, act ≠ .cancelled id) (hresumed : act ≠ .threw (some .resume))
    (hsilent : ∀ id delegate, act ≠ .handled id delegate) :
    Good provider await (next, none, [act]) where
  inv := ⟨h, trivial⟩
  gone := hgone
  cancelled id hmem := absurd (List.mem_singleton.mp hmem).symm (hcancelled id)
  resumed hmem := absurd (List.mem_singleton.mp hmem).symm hresumed
  silent id delegate hmem := hsilent id delegate (List.mem_singleton.mp hmem).symm

/-- A piece that goes on to another await without a word. -/
theorem good_await {next : RestartableCanProvider} {after : Await}
    (hinv : next.Inv (some after))
    (hgone : ∀ id, provider.Gone await id → next.Gone (some after) id) :
    Good provider await (next, some after, []) where
  inv := hinv
  gone := hgone
  cancelled _ hmem := nomatch hmem
  resumed hmem := nomatch hmem
  silent _ _ hmem := nomatch hmem

/-- The end of an operation that leaves a sound state and the subscriptions as they were. -/
theorem good_finish {next : RestartableCanProvider} {failed : Bool} {sweep : Option Sweep}
    (h : next.Sound []) (hids : next.ids = provider.ids)
    (hnext : next.nextSubscriptionId = provider.nextSubscriptionId)
    (hresumed : failed = true → sweep = some .resume →
      next.delegate = none ∨ provider.closing = true ∧ next = provider) :
    Good provider await (next.finish failed sweep) where
  inv := ⟨h, trivial⟩
  gone id hgone := hgone.of_eq hids hnext nofun
  cancelled id hmem := by
    unfold finish at hmem
    split at hmem <;> exact nomatch List.mem_singleton.mp hmem
  resumed hmem := by
    unfold finish at hmem
    split at hmem
    · rename_i hfailed
      refine hresumed hfailed ?_
      have hact := List.mem_singleton.mp hmem
      rw [Act.threw.injEq] at hact
      exact hact.symm
    · exact nomatch List.mem_singleton.mp hmem
  silent id delegate hmem := by
    unfold finish at hmem
    split at hmem <;> exact nomatch List.mem_singleton.mp hmem

/-! ## Subscriptions -/

theorem subscribe_good (h : provider.Sound []) (ownerId : String) :
    Good provider none (provider.subscribe ownerId) := by
  unfold subscribe
  split
  · exact good_end h (fun _ hgone => hgone) (by simp) (by simp) (by simp)
  rename_i hblank
  have hopen : provider.closed = false ∧ provider.closing = false := by
    simp only [isOpen, Bool.or_eq_true, not_or] at hblank
    simpa using hblank.1
  dsimp only
  have hskip : Sound { provider with nextSubscriptionId := provider.nextSubscriptionId + 1 } [] :=
    { h with
      fresh := fun id hmem => Nat.lt_succ_of_lt (h.fresh id hmem)
      log := fun attachment hmem => by
        obtain ⟨hdelegate, hid, hgeneration⟩ := h.log attachment hmem
        exact ⟨hdelegate, Nat.lt_succ_of_lt hid, hgeneration⟩
      linked := h.linked }
  have hnew : provider.nextSubscriptionId ∉ provider.ids :=
    fun hmem => Nat.lt_irrefl _ (h.fresh _ hmem)
  split
  · rename_i delegate hdelegate
    refine good_await ⟨?_, delegate, hdelegate, rfl, rfl, Nat.lt_succ_self _, hnew, ?_⟩ ?_
    · refine hskip.attach (h.swept delegate hdelegate).1 (Nat.lt_succ_self _) ?_
      intro current hcurrent
      exact ⟨Option.some.inj (hcurrent.symm.trans hdelegate), hnew⟩
    · refine attachedOnce_concat _ fun attachment hmem _ => ?_
      exact Nat.ne_of_lt (h.log attachment hmem).2.1
    · intro id hgone
      refine ⟨Nat.lt_succ_of_lt hgone.fresh, hgone.absent, ?_⟩
      rintro subscription place generation heq rfl
      cases heq
      exact Nat.lt_irrefl _ hgone.fresh
  · rename_i hnone
    refine good_end ?_ ?_ (by simp) (by simp) (by simp)
    · refine { hskip with active := ?_, fresh := ?_, nodup := ?_, offline := ?_, linked := ?_, ended := ?_ }
      · intro subscription hmem
        rcases List.mem_append.mp hmem with hold | hlast
        · exact h.active subscription hold
        · rw [List.mem_singleton.mp hlast]
      · intro id hmem
        simp only [ids, List.map_append, List.mem_append] at hmem
        rcases hmem with hold | hlast
        · exact Nat.lt_succ_of_lt (h.fresh id hold)
        · rw [List.mem_singleton.mp hlast]
          exact Nat.lt_succ_self _
      · simp only [ids, List.map_append]
        exact List.nodup_append.mpr ⟨h.nodup, by simp, by
          rintro id hid other hother rfl
          rw [List.map_singleton, List.mem_singleton] at hother
          rw [hother] at hid
          exact hnew hid⟩
      · intro _ subscription hmem
        rcases List.mem_append.mp hmem with hold | hlast
        · exact h.offline hnone subscription hold
        · rw [List.mem_singleton.mp hlast]
          exact ⟨rfl, rfl⟩
      · exact fun delegate hdelegate => by cases hnone.symm.trans hdelegate
      · exact fun hclosed => by cases hopen.1.symm.trans hclosed
    · intro id hgone
      refine ⟨Nat.lt_succ_of_lt hgone.fresh, ?_, (by simp)⟩
      simp only [ids, List.map_append, List.mem_append, not_or]
      refine ⟨hgone.absent, ?_⟩
      rw [List.map_singleton, List.mem_singleton]
      exact Nat.ne_of_lt hgone.fresh

theorem subscribed_good {subscription : LogicalCanSubscription} {place generation : ℕ}
    (h : provider.Inv (some (.subscribing subscription place generation))) (reply : Reply) :
    Good provider (some (.subscribing subscription place generation))
      (provider.subscribed subscription place generation reply) := by
  obtain ⟨h, delegate, hdelegate, rfl, hactive, hid, hnew, honce⟩ := h
  cases reply with
  | failed =>
    exact good_end h (fun id hgone => ⟨hgone.fresh, hgone.absent, nofun⟩) nofun nofun nofun
  | returned writesEnabled =>
    refine good_end ?_ ?_ nofun nofun nofun
    · refine { h with active := ?_, fresh := ?_, nodup := ?_, offline := ?_, linked := ?_, ended := ?_ }
      · intro other hmem
        rcases List.mem_append.mp hmem with hold | hlast
        · exact h.active other hold
        · rw [List.mem_singleton.mp hlast]
          exact hactive
      · intro other hmem
        simp only [ids, List.map_append, List.mem_append] at hmem
        rcases hmem with hold | hlast
        · exact h.fresh other hold
        · rw [List.mem_singleton.mp hlast]
          exact hid
      · simp only [ids, List.map_append]
        refine List.nodup_append.mpr ⟨h.nodup, by simp, ?_⟩
        rintro other hother last hlast rfl
        rw [List.map_singleton, List.mem_singleton] at hlast
        rw [hlast] at hother
        exact hnew hother
      · exact fun hnone => nomatch hnone.symm.trans hdelegate
      · intro current hcurrent other hmem
        rcases List.mem_append.mp hmem with hold | hlast
        · exact h.linked current hcurrent other hold
        · rw [List.mem_singleton.mp hlast, ← Option.some.inj (hdelegate.symm.trans hcurrent)]
          exact ⟨place, rfl, rfl, honce⟩
      · exact fun hclosed => nomatch (h.ended hclosed).1.symm.trans hdelegate
    · intro id hgone
      refine ⟨hgone.fresh, ?_, nofun⟩
      simp only [ids, List.map_append, List.mem_append, not_or]
      refine ⟨hgone.absent, ?_⟩
      rw [List.map_singleton, List.mem_singleton]
      exact (hgone.pending _ _ _ rfl).symm

theorem Gone.remove {id : ℕ} (h : provider.Gone await id) (other : ℕ) {after : Option Await}
    (hafter : ∀ subscription place generation,
      after ≠ some (.subscribing subscription place generation)) :
    (provider.remove other).Gone after id :=
  ⟨h.fresh, fun hmem => h.absent (mem_ids_remove.mp hmem).1,
    fun subscription place generation heq => absurd heq (hafter subscription place generation)⟩

/-- A subscription is gone once it is out of the map. -/
theorem gone_remove {id : ℕ} (hid : id < provider.nextSubscriptionId) {after : Option Await}
    (hafter : ∀ subscription place generation,
      after ≠ some (.subscribing subscription place generation)) :
    (provider.remove id).Gone after id :=
  ⟨hid, fun hmem => (mem_ids_remove.mp hmem).2 rfl,
    fun subscription place generation heq => absurd heq (hafter subscription place generation)⟩

theorem cancel_good (h : provider.Sound []) (id : ℕ) : Good provider none (provider.cancel id) := by
  unfold cancel
  split
  · exact good_finish h rfl rfl nofun
  rename_i subscription hfound
  have hmem := List.mem_of_find?_eq_some hfound
  have hid : subscription.id = id := by simpa using List.find?_some hfound
  have hlt : id < provider.nextSubscriptionId := hid ▸ h.lt_next hmem
  split
  · rename_i hinactive
    rw [h.active subscription hmem] at hinactive
    exact nomatch hinactive
  have hpiece (after : Option Await) (hhand : hand after = [])
      (hunder : (provider.remove id).Under after) (acts : List Act)
      (hacts : ∀ act ∈ acts, act = .cancelled id ∨ act = .completed none)
      (hafter : ∀ subscription place generation,
        after ≠ some (.subscribing subscription place generation)) :
      Good provider none (provider.remove id, after, acts) := by
    refine ⟨⟨by rw [hhand]; exact h.remove id, hunder⟩, fun other hgone => hgone.remove id hafter,
      fun other hother => ?_, fun hother => ?_, fun other delegate hother => ?_⟩
    · rcases hacts _ hother with heq | heq
      · cases heq
        exact gone_remove hlt hafter
      · exact nomatch heq
    · rcases hacts _ hother with heq | heq <;> exact nomatch heq
    · rcases hacts _ hother with heq | heq <;> exact nomatch heq
  split
  · exact hpiece none rfl trivial _ (by simp) nofun
  · exact hpiece (some .cancelling) rfl trivial _ (by simp) nofun

theorem removeNext_acts (provider : RestartableCanProvider) (failed : Bool) (rest : List ℕ) :
    ∀ act ∈ (provider.removeNext failed rest).2.2,
      (∃ id, act = .cancelled id) ∨ act = .completed none ∨ act = .threw none := by
  induction rest generalizing provider with
  | nil =>
    intro act hmem
    unfold removeNext finish at hmem
    cases failed
    · exact Or.inr (Or.inl (List.mem_singleton.mp hmem))
    · exact Or.inr (Or.inr (List.mem_singleton.mp hmem))
  | cons id rest ih =>
    intro act hmem
    unfold removeNext at hmem
    split at hmem
    · exact Or.inl ⟨id, List.mem_singleton.mp hmem⟩
    · rcases List.mem_cons.mp hmem with heq | hmem
      · exact Or.inl ⟨id, heq⟩
      · exact ih _ act hmem

theorem removeNext_good (h : provider.Sound []) (failed : Bool) {rest : List ℕ}
    (hrest : ∀ id ∈ rest, id < provider.nextSubscriptionId)
    (hawait : ∀ subscription place generation,
      await ≠ some (.subscribing subscription place generation)) :
    Good provider await (provider.removeNext failed rest) := by
  have hacts := provider.removeNext_acts failed rest
  suffices hstate : (provider.removeNext failed rest).1.Inv (provider.removeNext failed rest).2.1 ∧
      (∀ id, provider.Gone await id →
        (provider.removeNext failed rest).1.Gone (provider.removeNext failed rest).2.1 id) ∧
      ∀ id, .cancelled id ∈ (provider.removeNext failed rest).2.2 →
        (provider.removeNext failed rest).1.Gone (provider.removeNext failed rest).2.1 id by
    refine ⟨hstate.1, hstate.2.1, hstate.2.2, fun hmem => ?_, fun id delegate hmem => ?_⟩
    · rcases hacts _ hmem with ⟨id, heq⟩ | heq | heq <;> exact nomatch heq
    · rcases hacts _ hmem with ⟨id, heq⟩ | heq | heq <;> exact nomatch heq
  clear hacts
  induction rest generalizing provider with
  | nil =>
    have hend : Good provider await (provider.finish failed none) := good_finish h rfl rfl nofun
    exact ⟨hend.inv, hend.gone, hend.cancelled⟩
  | cons id rest ih =>
    have hlt := hrest id (List.mem_cons_self ..)
    have hmore : ∀ other ∈ rest, other < (provider.remove id).nextSubscriptionId :=
      fun other hmem => hrest other (List.mem_cons_of_mem _ hmem)
    unfold removeNext
    split
    · refine ⟨⟨h.remove id, hmore⟩, fun other hgone => hgone.remove id nofun, ?_⟩
      intro other hother
      cases List.mem_singleton.mp hother
      exact gone_remove hlt nofun
    · obtain ⟨hinv, hgone, hcancelled⟩ := ih (h.remove id) hmore
      refine ⟨hinv, fun other hother => hgone other (hother.remove id hawait), ?_⟩
      intro other hother
      rcases List.mem_cons.mp hother with heq | hother
      · cases heq
        exact hgone id (gone_remove hlt hawait)
      · exact hcancelled other hother

/-! ## The transport -/

theorem exists_lookup {attached : List (ℕ × ℕ)} {id : ℕ} (h : id ∈ attached.map Prod.fst) :
    ∃ place, attached.lookup id = some place ∧ (id, place) ∈ attached := by
  induction attached with
  | nil => exact nomatch h
  | cons pair rest ih =>
    obtain ⟨first, place⟩ := pair
    rw [List.lookup_cons]
    by_cases heq : id = first
    · subst heq
      exact ⟨place, by simp, List.mem_cons_self ..⟩
    · rw [List.map_cons, List.mem_cons] at h
      obtain ⟨found, hlookup, hmem⟩ := ih (h.resolve_left heq)
      rw [beq_eq_false_iff_ne.mpr heq]
      exact ⟨found, hlookup, List.mem_cons_of_mem _ hmem⟩

theorem attachNext_good (await : Option Await) {candidate generation : ℕ}
    {attached : List (ℕ × ℕ)} {rest : List ℕ} (h : provider.Sound [candidate])
    (hattaching : provider.Attaching candidate generation attached rest) :
    Good provider await (provider.attachNext candidate generation attached rest) := by
  obtain ⟨hnone, hopened, rfl, hswept, hcreated, hlatest, hids, honce, hrest⟩ := hattaching
  have hnodup := h.nodup
  rw [hids] at hnodup
  cases rest with
  | cons id rest =>
    obtain ⟨-, htail, hdisjoint⟩ := List.nodup_append.mp hnodup
    have hid : id < provider.nextSubscriptionId := by
      refine h.fresh id ?_
      rw [hids]
      exact List.mem_append_right _ (List.mem_cons_self ..)
    refine good_await ⟨h.attach hcreated hid fun current hcurrent => ?_, ?_⟩ ?_
    · exact nomatch hnone.symm.trans hcurrent
    · refine ⟨hnone, hopened, rfl, hswept, hcreated, ?_, ?_, ?_, ?_⟩
      · intro attachment hmem hgeneration
        rcases List.mem_append.mp hmem with hold | hlast
        · exact hlatest attachment hold hgeneration
        · rw [List.mem_singleton.mp hlast]
      · rw [List.map_append, List.append_assoc]
        exact hids
      · intro pair hmem
        rcases List.mem_append.mp hmem with hold | hlast
        · refine (honce pair hold).concat (Or.inr ?_)
          exact (hdisjoint pair.1 (List.mem_map_of_mem hold) id (List.mem_cons_self ..)).symm
        · rw [List.mem_singleton.mp hlast]
          refine attachedOnce_concat _ fun attachment hmem hdelegate heq => ?_
          refine hrest attachment hmem hdelegate ?_
          rw [heq]
          exact List.mem_cons_self ..
      · intro attachment hmem hdelegate hlater
        rcases List.mem_append.mp hmem with hold | hlast
        · exact hrest attachment hold hdelegate (List.mem_cons_of_mem _ hlater)
        · rw [List.mem_singleton.mp hlast] at hlater
          exact (List.nodup_cons.mp htail).1 hlater
    · intro other hgone
      exact ⟨hgone.fresh, hgone.absent, nofun⟩
  | nil =>
    rw [List.append_nil] at hids
    unfold attachNext
    have hbound {subscription : LogicalCanSubscription} (hmem : subscription ∈
        (provider.attachNext candidate provider.transportGeneration attached []).1.subscriptions) :
        subscription.id ∈ provider.ids ∧ subscription.active = true ∧ ∃ place,
          (subscription.id, place) ∈ attached ∧ subscription.delegateSubscription = some place ∧
            subscription.delegateGeneration = some provider.transportGeneration := by
      obtain ⟨old, hold, rfl⟩ := List.mem_map.mp hmem
      have hid : old.id ∈ provider.ids := List.mem_map_of_mem hold
      obtain ⟨place, hlookup, hpair⟩ := exists_lookup (hids ▸ hid)
      simp only [hlookup]
      exact ⟨hid, h.active old hold, place, hpair, rfl, trivial⟩
    have hsame : (provider.attachNext candidate provider.transportGeneration attached []).1.ids =
        provider.ids := by
      simp only [attachNext, RestartableCanProvider.ids, List.map_map]
      refine List.map_congr_left fun subscription _ => ?_
      simp only [Function.comp_apply]
      split <;> rfl
    refine good_end ?_ (fun id hgone => hgone.of_eq hsame rfl nofun) nofun nofun nofun
    refine { h with
      active := fun subscription hmem => (hbound hmem).2.1, fresh := ?_, nodup := ?_, offline := nofun,
      accepts := rfl, swept := ?_, latest := ?_, linked := ?_, ended := ?_, kept := ?_ }
    · intro id hmem
      exact h.fresh id (hsame ▸ hmem)
    · rw [← hsame] at hids
      have hnext := h.nodup
      rw [← hsame] at hnext
      exact hnext
    · intro delegate hdelegate
      cases hdelegate
      exact ⟨hcreated, hswept, hopened⟩
    · intro delegate hdelegate
      cases hdelegate
      exact hlatest
    · intro delegate hdelegate subscription hmem
      cases hdelegate
      obtain ⟨-, -, place, hpair, hplace, hgeneration⟩ := hbound hmem
      exact ⟨place, hplace, hgeneration, honce _ hpair⟩
    · exact fun hclosed => nomatch hopened.symm.trans hclosed
    · intro delegate hlt
      rcases h.kept delegate hlt with hcurrent | hclosed | hdetached | hhand | hended
      · exact nomatch hnone.symm.trans hcurrent
      · exact Or.inr (Or.inl hclosed)
      · exact Or.inr (Or.inr (Or.inl hdetached))
      · rw [List.mem_singleton.mp hhand]
        exact Or.inl rfl
      · exact Or.inr (Or.inr (Or.inr (Or.inr hended)))

theorem attachNext_threw (candidate generation : ℕ) (attached : List (ℕ × ℕ)) (rest : List ℕ) :
    .threw (some .resume) ∉ (provider.attachNext candidate generation attached rest).2.2 := by
  cases rest with
  | nil => exact fun hmem => nomatch List.mem_singleton.mp hmem
  | cons id rest => exact fun hmem => nomatch hmem

theorem delegateCreated_good {generation : ℕ} (h : provider.Inv (some (.creating generation)))
    (reply : Reply) :
    Good provider (some (.creating generation)) (provider.delegateCreated generation reply) := by
  obtain ⟨h, hnone, hopened, rfl, hswept, hlatest⟩ := h
  have habort (base : RestartableCanProvider) : base.abort.ids = base.ids := base.unbind_ids
  cases reply with
  | failed =>
    have hend : Good provider (some (.creating provider.transportGeneration))
        (provider.abort.finish true (some .resume)) :=
      good_finish (h.abort hnone) (habort provider) rfl fun _ _ => Or.inl rfl
    exact hend
  | returned writesEnabled =>
    unfold delegateCreated
    dsimp only
    have hmade : Sound { provider with created := provider.created + 1 } [provider.created] :=
      { h with
        log := fun attachment hmem => by
          obtain ⟨hdelegate, hid, hgeneration⟩ := h.log attachment hmem
          exact ⟨Nat.lt_succ_of_lt hdelegate, hid, hgeneration⟩
        swept := fun delegate hdelegate => nomatch hnone.symm.trans hdelegate
        linked := h.linked
        kept := fun delegate hlt => by
          rcases Nat.lt_succ_iff_lt_or_eq.mp hlt with hlt | rfl
          · rcases h.kept delegate hlt with hcurrent | hclosed | hdetached | hhand | hended
            · exact Or.inl hcurrent
            · exact Or.inr (Or.inl hclosed)
            · exact Or.inr (Or.inr (Or.inl hdetached))
            · exact nomatch hhand
            · exact Or.inr (Or.inr (Or.inr (Or.inr hended)))
          · exact Or.inr (Or.inr (Or.inr (Or.inl (List.mem_singleton_self _)))) }
    split
    · refine good_await ⟨hmade.abort hnone, rfl⟩ fun id hgone => ?_
      exact hgone.of_eq (habort _) rfl nofun
    · have hfresh : ∀ attachment ∈ provider.attachments, attachment.delegate ≠ provider.created :=
        fun attachment hmem => Nat.ne_of_lt (h.log attachment hmem).1
      have hactive : provider.subscriptions.filter (·.active) = provider.subscriptions :=
        List.filter_eq_self.mpr h.active
      have hattaching : Attaching { provider with created := provider.created + 1 }
          provider.created provider.transportGeneration [] provider.ids := by
        refine ⟨hnone, hopened, rfl, hswept, Nat.lt_succ_self _, ?_, rfl, by simp, ?_⟩
        · intro attachment hmem hgeneration
          exact absurd hgeneration (Nat.ne_of_lt (hlatest attachment hmem))
        · exact fun attachment hmem hdelegate => absurd hdelegate (hfresh attachment hmem)
      have hgood :=
        attachNext_good (some (.creating provider.transportGeneration)) hmade hattaching
      rw [hactive]
      refine ⟨hgood.inv, fun id hgone => hgood.gone id ?_, hgood.cancelled, ?_, hgood.silent⟩
      · exact ⟨hgone.fresh, hgone.absent, nofun⟩
      · exact fun hmem => absurd hmem (attachNext_threw _ _ _ _)


theorem isOpen_iff : provider.isOpen = true ↔
    provider.closed = false ∧ provider.closing = false := by
  simp [isOpen]

theorem sweepNext_good (h : provider.Sound []) (hnone : provider.delegate = none)
    (hopened : provider.closed = false) {failed : Bool} {sweep : Sweep} {rest : List ℕ}
    (hrest : failed = false → provider.detachedDelegates = rest) :
    Good provider await (provider.sweepNext failed sweep rest) := by
  cases rest with
  | cons delegate rest =>
    exact good_await ⟨h, hnone, hopened, hrest⟩ fun id hgone => hgone.of_eq rfl rfl nofun
  | nil =>
    cases sweep with
    | quiesce => exact good_finish h rfl rfl fun _ _ => Or.inl hnone
    | resume =>
      cases failed with
      | true =>
        have hend : Good provider await (provider.finish true (some .resume)) :=
          good_finish h rfl rfl fun _ _ => Or.inl hnone
        exact hend
      | false =>
        refine good_await ⟨?_, hnone, hopened, rfl, hrest rfl, ?_⟩ fun id hgone =>
          hgone.of_eq rfl rfl nofun
        · exact { h with
            log := fun attachment hmem => by
              obtain ⟨hdelegate, hid, hle⟩ := h.log attachment hmem
              exact ⟨hdelegate, hid, Nat.le_succ_of_le hle⟩
            latest := fun delegate hdelegate => nomatch hnone.symm.trans hdelegate
            linked := fun delegate hdelegate => nomatch hnone.symm.trans hdelegate }
        · exact fun attachment hmem => Nat.lt_succ_of_le (h.log attachment hmem).2.2

theorem quiesce_good (h : provider.Sound []) : Good provider none provider.quiesce := by
  unfold quiesce
  split
  · exact good_finish h rfl rfl nofun
  rename_i hopen
  have hopened : provider.closed = false := by
    simp only [Bool.not_eq_true', Bool.not_eq_false] at hopen
    exact (isOpen_iff.mp hopen).1
  split
  · rename_i hnone
    exact sweepNext_good h hnone hopened fun _ => rfl
  · rename_i delegate hdelegate
    have hgo : Sound _ ([delegate] ++ []) := h.letGo (Nat.le_succ _) fun current hcurrent => by
      rw [Option.some.inj (hcurrent.symm.trans hdelegate)]
      exact List.mem_singleton_self _
    exact good_await ⟨hgo, rfl⟩ fun id hgone => hgone.of_eq unbind_ids rfl nofun

theorem resume_good (h : provider.Sound []) : Good provider none provider.resume := by
  unfold resume
  split
  · rename_i hopen
    refine good_finish h rfl rfl fun _ _ => ?_
    by_cases hclosing : provider.closing = true
    · exact Or.inr ⟨hclosing, rfl⟩
    · have hclosed : provider.closed = true := by
        simpa [isOpen, hclosing] using hopen
      exact Or.inl (h.ended hclosed).1
  rename_i hopen
  have hopened : provider.closed = false := by
    simp only [Bool.not_eq_true', Bool.not_eq_false] at hopen
    exact (isOpen_iff.mp hopen).1
  split
  · exact good_finish h rfl rfl nofun
  · rename_i hnone
    exact sweepNext_good h hnone hopened fun _ => rfl

theorem closeNext_good (h : provider.Sound []) (hclosed : provider.closed = true) (failed : Bool)
    (rest : List ℕ) : Good provider await (provider.closeNext failed rest) := by
  cases rest with
  | cons delegate rest =>
    exact good_await ⟨h, hclosed⟩ fun id hgone => hgone.of_eq rfl rfl nofun
  | nil => exact good_finish h rfl rfl nofun

theorem close_good (h : provider.Sound []) : Good provider none provider.close := by
  unfold close
  split
  · exact good_finish h rfl rfl nofun
  have hsound : Sound { provider with
      closed := true
      acceptFrames := false
      transportGeneration := provider.transportGeneration + 1
      subscriptions := []
      delegate := none
      detachedDelegates := [] } [] := by
    refine { h with
      active := by simp, fresh := by simp [ids], nodup := by simp [ids], log := ?_,
      offline := by simp, accepts := rfl, swept := nofun, latest := nofun, linked := nofun,
      ended := fun _ => ⟨rfl, rfl⟩, kept := ?_ }
    · intro attachment hmem
      obtain ⟨hdelegate, hid, hle⟩ := h.log attachment hmem
      exact ⟨hdelegate, hid, Nat.le_succ_of_le hle⟩
    · exact fun delegate hlt => Or.inr (Or.inr (Or.inr (Or.inr rfl)))
  have hgood : Good _ none (closeNext _ false
      (provider.delegate.toList ++ provider.detachedDelegates)) := closeNext_good hsound rfl false _
  refine ⟨hgood.inv, fun id hgone => hgood.gone id ?_, hgood.cancelled, fun hmem => ?_, hgood.silent⟩
  · exact ⟨hgone.fresh, by simp [ids], nofun⟩
  · rcases hgood.resumed hmem with hnone | ⟨-, hsame⟩
    · exact Or.inl hnone
    · exact Or.inl (by rw [hsame])

/-! ## Every piece -/

theorem start_good (h : provider.Sound []) (op : Op) : Good provider none (provider.start op) := by
  cases op with
  | subscribe ownerId => exact subscribe_good h ownerId
  | cancel id => exact cancel_good h id
  | removeOwner ownerId =>
    refine removeNext_good h false (fun id hmem => ?_) nofun
    obtain ⟨subscription, hsubscription, rfl⟩ := List.mem_map.mp hmem
    exact h.lt_next (List.mem_filter.mp hsubscription).1
  | quiesce => exact quiesce_good h
  | resume => exact resume_good h
  | send =>
    simp only [start, send]
    split
    · exact good_finish h rfl rfl nofun
    · exact good_await ⟨h, trivial⟩ fun id hgone => hgone.of_eq rfl rfl nofun
  | close => exact close_good h

theorem goOn_good {await : Await} (h : provider.Inv (some await)) (reply : Reply) :
    Good provider (some await) (provider.goOn await reply) := by
  cases await with
  | subscribing subscription place generation => exact subscribed_good h reply
  | cancelling => exact good_finish h.1 rfl rfl nofun
  | removing rest failed => exact removeNext_good h.1 _ h.2 nofun
  | sending => exact good_finish h.1 rfl rfl nofun
  | creating generation => exact delegateCreated_good h reply
  | quiescing delegate =>
    obtain ⟨h, hnone⟩ := h
    simp only [goOn]
    split
    · exact good_finish (h.detach hnone) rfl rfl nofun
    · exact good_finish h.closedWell rfl rfl nofun
  | discarding candidate =>
    obtain ⟨h, hnone⟩ := h
    simp only [goOn]
    split
    · exact good_finish (h.detach hnone) rfl rfl fun _ _ => Or.inl hnone
    · exact good_finish h.closedWell rfl rfl fun _ _ => Or.inl hnone
  | sweeping delegate rest failed sweep =>
    obtain ⟨h, hnone, hopened, hrest⟩ := h
    simp only [goOn]
    split
    · exact sweepNext_good h hnone hopened nofun
    · have hgood : Good _ (some (.sweeping delegate rest failed sweep))
          (sweepNext { provider.closedWell delegate with
            detachedDelegates := provider.detachedDelegates.erase delegate } failed sweep rest) :=
        sweepNext_good (h.sweep hnone delegate) hnone hopened fun hfailed => by
          simp [hrest hfailed]
      refine ⟨hgood.inv, fun id hgone => hgood.gone id ?_, hgood.cancelled, fun hmem => ?_,
        hgood.silent⟩
      · exact hgone.of_eq rfl rfl nofun
      · rcases hgood.resumed hmem with hoffline | ⟨-, hsame⟩
        · exact Or.inl hoffline
        · exact Or.inl (by rw [hsame]; exact hnone)
  | attaching candidate generation attached id place rest =>
    obtain ⟨h, hattaching⟩ := h
    simp only [goOn]
    split
    · exact good_await ⟨h.abort hattaching.delegate, rfl⟩ fun other hgone =>
        hgone.of_eq unbind_ids rfl nofun
    · exact attachNext_good _ h hattaching
  | closing delegate rest failed =>
    obtain ⟨h, hclosed⟩ := h
    simp only [goOn]
    split
    · exact closeNext_good h hclosed true rest
    · have hwell : (provider.closedWell delegate).Sound [] := { h with
        linked := h.linked
        kept := fun other hlt => Or.inr (Or.inr (Or.inr (Or.inr hclosed))) }
      have hgood : Good _ (some (.closing delegate rest failed))
          ((provider.closedWell delegate).closeNext failed rest) :=
        closeNext_good hwell hclosed failed rest
      refine ⟨hgood.inv, fun id hgone => hgood.gone id ?_, hgood.cancelled, fun hmem => ?_,
        hgood.silent⟩
      · exact hgone.of_eq rfl rfl nofun
      · rcases hgood.resumed hmem with hnone | ⟨-, hsame⟩
        · exact Or.inl hnone
        · exact Or.inl (by rw [hsame]; exact (h.ended hclosed).1)

/-! ## Whole runs -/

variable {system next : System} {acts : List Act}

/-- What a step leaves: pieces as above, and calls that change nothing but `closing`. -/
structure Stepped (system next : System) (acts : List Act) : Prop where
  inv : next.state.Inv next.current
  gone : ∀ id, system.state.Gone system.current id → next.state.Gone next.current id
  cancelled : ∀ id, .cancelled id ∈ acts → next.state.Gone next.current id
  resumed : .threw (some .resume) ∈ acts → next.state.delegate = none ∨
    system.state.closing = true ∧ next.state = system.state

theorem stepped_of_moves (h : system.state.Inv system.current)
    (hmoves : Serial.Moves body system next acts) :
    Stepped system next acts ∧ ∀ id delegate, .handled id delegate ∉ acts := by
  cases hmoves with
  | same => exact ⟨⟨h, fun _ => id, nofun, nofun⟩, nofun⟩
  | @starts op rest hcurrent hqueue =>
    rw [hcurrent] at h
    have hgood := start_good h.1 op
    refine ⟨⟨hgood.inv, ?_, hgood.cancelled, hgood.resumed⟩, hgood.silent⟩
    rw [hcurrent]
    exact hgood.gone
  | @resumes await answer hcurrent =>
    rw [hcurrent] at h
    have hgood := goOn_good h answer
    refine ⟨⟨hgood.inv, ?_, hgood.cancelled, hgood.resumed⟩, hgood.silent⟩
    rw [hcurrent]
    exact hgood.gone

/-- Only a frame of the current delegate, for a subscription in the map, is handled. -/
theorem frame_handled (h : provider.Sound hands) {place id delegate : ℕ}
    (hmem : .handled id delegate ∈ provider.frame place) :
    provider.delegate = some delegate ∧ id ∈ provider.ids := by
  unfold frame at hmem
  split at hmem
  · exact nomatch hmem
  rename_i found other generation hplace
  split at hmem
  · rename_i hhandled
    cases List.mem_singleton.mp hmem
    obtain ⟨haccepts, hany⟩ := hhandled
    rw [List.any_eq_true] at hany
    obtain ⟨subscription, hsubscription, hmatch⟩ := hany
    simp only [Bool.and_eq_true, decide_eq_true_eq] at hmatch
    obtain ⟨⟨rfl, -⟩, hgeneration⟩ := hmatch
    rw [h.accepts] at haccepts
    obtain ⟨current, hcurrent⟩ := Option.isSome_iff_exists.mp haccepts
    obtain ⟨-, -, hlinked, -⟩ := h.linked current hcurrent subscription hsubscription
    have hlatest := h.latest current hcurrent _ (List.mem_of_getElem? hplace)
      (Option.some.inj (hgeneration.symm.trans hlinked))
    dsimp only at hlatest
    rw [hlatest]
    exact ⟨hcurrent, List.mem_map_of_mem hsubscription⟩
  · exact nomatch hmem

theorem mem_frame {place : ℕ} {act : Act} (hmem : act ∈ provider.frame place) :
    ∃ id delegate, act = .handled id delegate := by
  unfold frame at hmem
  split at hmem
  · exact nomatch hmem
  split at hmem
  · exact ⟨_, _, List.mem_singleton.mp hmem⟩
  · exact nomatch hmem

theorem step_stepped (h : system.state.Inv system.current) (event : Event) :
    Stepped system (step system event).1 (step system event).2 ∧
      ∀ id delegate, .handled id delegate ∈ (step system event).2 →
        system.state.delegate = some delegate ∧ id ∈ system.state.ids := by
  have hcall {next : System} {acts : List Act} (hinv : next.state.Inv next.current)
      (hids : next.state.ids = system.state.ids)
      (hnext : next.state.nextSubscriptionId = system.state.nextSubscriptionId)
      (hcurrent : next.current = system.current) (hacts : ∀ act ∈ acts, act = .threw none) :
      Stepped system next acts ∧ ∀ id delegate, .handled id delegate ∈ acts →
        system.state.delegate = some delegate ∧ id ∈ system.state.ids := by
    refine ⟨⟨hinv, fun id hgone => ?_, fun id hmem => ?_, fun hmem => ?_⟩, fun id delegate hmem => ?_⟩
    · exact ⟨hnext ▸ hgone.fresh, hids ▸ hgone.absent, hcurrent ▸ hgone.pending⟩
    · exact nomatch hacts _ hmem
    · exact nomatch hacts _ hmem
    · exact nomatch hacts _ hmem
  cases event with
  | call op =>
    cases op with
    | close =>
      simp only [step, call]
      split
      · exact hcall h rfl rfl rfl (by simp)
      · refine hcall ⟨{ h.1 with linked := h.1.linked }, ?_⟩ rfl rfl rfl (by simp)
        have hunder := h.2
        simp only [Serial.enqueue]
        cases hcurrent : system.current with
        | none => trivial
        | some await =>
          rw [hcurrent] at hunder
          cases await with
          | attaching candidate generation attached id place rest =>
            exact { hunder with ids := hunder.ids }
          | _ => exact hunder
    | send =>
      simp only [step, call]
      split
      · exact hcall h rfl rfl rfl (by simp)
      · exact hcall h rfl rfl rfl (by simp)
    | _ => exact hcall h rfl rfl rfl (by simp [step, call])
  | next =>
    obtain ⟨hstepped, hsilent⟩ := stepped_of_moves h (Serial.next_moves body system)
    exact ⟨hstepped, fun id delegate hmem => absurd hmem (hsilent id delegate)⟩
  | reply answer =>
    obtain ⟨hstepped, hsilent⟩ := stepped_of_moves h (Serial.reply_moves body system answer)
    exact ⟨hstepped, fun id delegate hmem => absurd hmem (hsilent id delegate)⟩
  | frame place =>
    refine ⟨⟨h, fun _ => id, fun id hmem => ?_, fun hmem => ?_⟩, fun id delegate => frame_handled h.1⟩
    · obtain ⟨_, _, heq⟩ := mem_frame hmem
      exact nomatch heq
    · obtain ⟨_, _, heq⟩ := mem_frame hmem
      exact nomatch heq

theorem run_inv (writesEnabled : Bool) (events : List Event) :
    let system := (run step { state := { writesEnabled := writesEnabled } } events).1
    system.state.Inv system.current := by
  have hstart : Inv { writesEnabled := writesEnabled } none := ⟨sound_start writesEnabled, trivial⟩
  exact run_invariant step (I := fun system => system.state.Inv system.current) hstart
    (fun _ event h => (step_stepped h event).1.inv) events

/-- Whatever was cancelled in a run is gone at its end. -/
theorem run_gone (writesEnabled : Bool) (events : List Event) (id : ℕ) :
    let start : System := { state := { writesEnabled := writesEnabled } }
    (∃ entry ∈ (run step start events).2, .cancelled id ∈ entry.2) →
      (run step start events).1.state.Gone (run step start events).1.current id := by
  intro start
  induction events using List.reverseRecOn with
  | nil =>
    rintro ⟨entry, hentry, -⟩
    exact nomatch hentry
  | append_singleton events event ih =>
    rintro ⟨entry, hentry, hcancelled⟩
    have hinv := run_inv writesEnabled events
    obtain ⟨hstepped, -⟩ := step_stepped hinv event
    rw [run_concat] at hentry ⊢
    rcases List.mem_append.mp hentry with hold | hlast
    · exact hstepped.gone id (ih ⟨entry, hold, hcancelled⟩)
    · rw [List.mem_singleton.mp hlast] at hcancelled
      exact hstepped.cancelled id hcancelled

/-- After any run: an online provider has every subscription attached once to its current
delegate; only frames of that delegate reach a handler, and never that of a subscription
that was cancelled; a resume that fails leaves it offline with no attachment, or, if it
fails because close was called, as it was; and no delegate is forgotten before close, for
whatever is left over is closed again by the next quiesce, resume or close. -/
theorem subscriptions_attached (writesEnabled : Bool) (events : List Event) (event : Event) :
    let reached := run step { state := { writesEnabled := writesEnabled } } events
    let provider := reached.1.state
    let stepped := step reached.1 event
    (provider.isOnline = true → ∃ delegate, provider.delegate = some delegate ∧
        ∀ subscription ∈ provider.subscriptions, subscription.active = true ∧
          provider.Linked delegate subscription) ∧
      (∀ id delegate, .handled id delegate ∈ stepped.2 → provider.delegate = some delegate ∧
        ∀ entry ∈ reached.2, .cancelled id ∉ entry.2) ∧
      (.threw (some .resume) ∈ stepped.2 →
        (stepped.1.state.isOnline = false ∧ ∀ subscription ∈ stepped.1.state.subscriptions,
          subscription.delegateSubscription = none ∧ subscription.delegateGeneration = none) ∨
        provider.closing = true ∧ stepped.1.state = provider) ∧
      (∀ delegate < provider.created, provider.delegate = some delegate ∨
        delegate ∈ provider.closedDelegates ∨ delegate ∈ provider.detachedDelegates ∨
        delegate ∈ hand reached.1.current ∨ provider.closed = true) ∧
      (∀ delegate rest, provider.isOpen = true → provider.delegate = none →
        provider.detachedDelegates = delegate :: rest →
          provider.quiesce = (provider, some (.sweeping delegate rest false .quiesce), []) ∧
          provider.resume = (provider, some (.sweeping delegate rest false .resume), [])) ∧
      ∀ delegate rest, provider.closed = false →
        provider.delegate.toList ++ provider.detachedDelegates = delegate :: rest →
          provider.close.2.1 = some (.closing delegate rest false) := by
  intro reached provider stepped
  have hinv : provider.Inv reached.1.current := run_inv writesEnabled events
  have hsound := hinv.1
  obtain ⟨hstepped, hhandled⟩ := step_stepped hinv event
  refine ⟨fun honline => ?_, fun id delegate hmem => ?_, fun hmem => ?_, hsound.kept, ?_, ?_⟩
  · simp only [isOnline, Bool.and_eq_true] at honline
    obtain ⟨delegate, hdelegate⟩ := Option.isSome_iff_exists.mp honline.1.1
    exact ⟨delegate, hdelegate, fun subscription hmem =>
      ⟨hsound.active subscription hmem, hsound.linked delegate hdelegate subscription hmem⟩⟩
  · obtain ⟨hcurrent, hid⟩ := hhandled id delegate hmem
    refine ⟨hcurrent, fun entry hentry hcancelled => ?_⟩
    exact (run_gone writesEnabled events id ⟨entry, hentry, hcancelled⟩).absent hid
  · rcases hstepped.resumed hmem with hnone | hclosing
    · refine Or.inl ⟨?_, hstepped.inv.1.offline hnone⟩
      unfold isOnline
      rw [show stepped.1.state.delegate = none from hnone]
      rfl
    · exact Or.inr hclosing
  · intro delegate rest hopen hnone hdetached
    simp [quiesce, resume, hopen, hnone, hdetached, sweepNext]
  · intro delegate rest hclosed hdelegates
    simp [close, hclosed, hdelegates, closeNext]

/-- The provider comes online, and is asked to resume and to close in one turn. -/
def hurried : List Event :=
  [.call .resume, .next, .reply (.returned false), .call .resume, .call .close]

/-- The resume fails and the provider is still online; and while a delegate is being
closed, it is neither current nor closed nor left over. -/
theorem hurried_online :
    (let stepped := step (run step { state := { writesEnabled := false } } hurried).1 .next
    .threw (some .resume) ∈ stepped.2 ∧ stepped.1.state.isOnline = true) ∧
      (let provider := (run step { state := { writesEnabled := false } }
        [.call .resume, .next, .reply (.returned false), .call .quiesce, .next]).1.state
      provider.created = 1 ∧ provider.delegate = none ∧ provider.closedDelegates = [] ∧
        provider.detachedDelegates = [] ∧ provider.closed = false) := by
  decide

end RestartableCanProvider

end ProjectArgo.Can
