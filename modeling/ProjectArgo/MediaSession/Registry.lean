import Mathlib.Data.List.Nodup
import ProjectArgo.MediaSession.CachedMediaSession

/-!
# The registry of the media sources

Whatever the providers publish, the snapshot lists every source once and its active source
is one of them; a source that stays listed under its session does not go back to an
older revision; and a provider whose lease has ended changes nothing any more.
-/
namespace ProjectArgo.MediaSession

open Library.Assoc Library.Run

variable {δ : Type*}

/-- No source goes back to an older revision of its session. -/
def Follows (before after : List (MediaSourceState δ)) : Prop :=
  ∀ source ∈ before, ∀ later ∈ after, source.id = later.id → source.sessionId = later.sessionId →
    source.revision ≤ later.revision

namespace CachedMediaSessionService

/-- The provider of this name has this lease. -/
def Holds (s : CachedMediaSessionService δ) (name : String) (lease : ℕ) : Prop :=
  ∃ provider, s.providers.lookup name = some provider ∧ provider.lease = lease

/-- No source of the one provider is one of the other. -/
def Apart (entry other : String × MediaProvider δ) : Prop :=
  ∀ source ∈ entry.2.sources, ∀ foreign ∈ other.2.sources, source.id ≠ foreign.id

structure Providers (s : CachedMediaSessionService δ) : Prop where
  names : (s.providers.map Prod.fst).Nodup
  leases : ∀ entry ∈ s.providers, entry.2.lease < s.nextLease
  own : ∀ entry ∈ s.providers, (entry.2.sources.map MediaSourceState.id).Nodup
  apart : s.providers.Pairwise Apart

structure Listed (s : CachedMediaSessionService δ) : Prop where
  distinct : (s.current.sources.map MediaSourceState.id).Nodup
  active : ∀ id ∈ s.current.activeSourceId, ∃ source ∈ s.current.sources, source.id = id

structure Kept (s : CachedMediaSessionService δ) : Prop where
  providers : Providers s
  listed : Listed s
  /-- The snapshot may be behind what is published, but only in the revisions. -/
  behind : s.closed = false → ∀ source ∈ s.current.sources, ∃ other ∈ s.published,
    other.id = source.id ∧ other.sessionId = source.sessionId ∧ source.revision ≤ other.revision

variable {s : CachedMediaSessionService δ}

theorem eq_of_id {sources : List (MediaSourceState δ)}
    (h : (sources.map MediaSourceState.id).Nodup) {source other : MediaSourceState δ}
    (hsource : source ∈ sources) (hother : other ∈ sources) (hid : source.id = other.id) :
    source = other :=
  List.inj_on_of_nodup_map h hsource hother hid

theorem published_distinct (h : Providers s) :
    (s.published.map MediaSourceState.id).Nodup := by
  have hpairs : (s.providers.flatMap fun entry => entry.2.sources).Pairwise
      fun source other => source.id ≠ other.id := by
    rw [List.pairwise_flatMap]
    refine ⟨?_, h.apart⟩
    intro entry hentry
    exact List.pairwise_map.mp (h.own entry hentry)
  exact List.pairwise_map.mpr hpairs

theorem mem_published {source : MediaSourceState δ} :
    source ∈ s.published ↔ ∃ entry ∈ s.providers, source ∈ entry.2.sources :=
  List.mem_flatMap

theorem follows_refl (h : (s.current.sources.map MediaSourceState.id).Nodup) :
    Follows s.current.sources s.current.sources := by
  intro source hsource later hlater hid _
  obtain rfl := eq_of_id h hsource hlater hid
  exact Int.le_refl _

theorem refreshed_listed (s : CachedMediaSessionService δ) :
    ∀ id ∈ s.refreshed, ∃ source ∈ s.published, source.id = id := by
  intro id hid
  unfold refreshed at hid
  by_cases hlists : lists s.published s.current.activeSourceId = true
  · rw [if_pos hlists] at hid
    dsimp only at hid
    obtain ⟨source, hsource, hsame⟩ := List.any_eq_true.mp hlists
    refine ⟨source, hsource, ?_⟩
    have hsame : some source.id = s.current.activeSourceId := of_decide_eq_true hsame
    have hid : s.current.activeSourceId = some id := by
      split at hid
      · rename_i hfirst
        rw [← hsame] at hfirst
        exact absurd hfirst (by simp)
      · exact hid
    exact Option.some.inj (hsame.trans hid)
  · rw [if_neg hlists] at hid
    dsimp only at hid
    split at hid
    · obtain ⟨source, hfound, rfl⟩ := Option.map_eq_some_iff.mp hid
      exact ⟨source, List.mem_of_find?_eq_some hfound, rfl⟩
    · exact absurd hid (Option.not_mem_none id)

/-! ## The providers -/

/-- One provider is put in the place of another, its sources apart from those of the others. -/
theorem providers_put (h : Providers s) {name : String} {provider : MediaProvider δ} {next : ℕ}
    (hnext : s.nextLease ≤ next) (hlease : provider.lease < next)
    (hown : (provider.sources.map MediaSourceState.id).Nodup)
    (hapart : ∀ entry ∈ erase s.providers name, ∀ source ∈ provider.sources,
      ∀ foreign ∈ entry.2.sources, source.id ≠ foreign.id) :
    Providers { s with providers := put s.providers name provider, nextLease := next } where
  names := nodup_put h.names
  leases := by
    intro entry hentry
    rcases mem_put hentry with rfl | hentry
    · exact hlease
    · exact Nat.lt_of_lt_of_le (h.leases entry hentry) hnext
  own := by
    intro entry hentry
    rcases mem_put hentry with rfl | hentry
    · exact hown
    · exact h.own entry hentry
  apart := by
    have hothers : ∀ entry ∈ s.providers, entry.1 ≠ name → Apart (name, provider) entry := by
      intro entry hentry hname source hsource foreign hforeign
      exact hapart entry (List.mem_filter.mpr ⟨hentry, by simpa using hname⟩) source hsource foreign
        hforeign
    have hsymm : ∀ {entry other : String × MediaProvider δ}, Apart entry other →
        Apart other entry :=
      fun hpair source hsource foreign hforeign hid =>
        hpair foreign hforeign source hsource hid.symm
    show (put s.providers name provider).Pairwise Apart
    unfold put
    split
    · rw [List.pairwise_map]
      have hpairs := h.apart.and (List.pairwise_map.mp h.names)
      refine hpairs.imp_of_mem ?_
      rintro entry other hentry hother ⟨hpair, hne⟩
      split
      · rename_i hname
        rw [if_neg (fun hsame => hne (hname.trans hsame.symm))]
        exact hothers other hother fun hsame => hne (hname.trans hsame.symm)
      · rename_i hname
        split
        · exact hsymm (hothers entry hentry hname)
        · exact hpair
    · rename_i hfresh
      rw [List.pairwise_append]
      refine ⟨h.apart, List.pairwise_singleton _ _, ?_⟩
      intro entry hentry last hlast
      rw [List.mem_singleton.mp hlast]
      refine hsymm (hothers entry hentry ?_)
      intro hname
      exact hfresh (List.any_eq_true.mpr ⟨entry, hentry, decide_eq_true hname⟩)

theorem providers_erase (h : Providers s) (name : String) :
    Providers { s with providers := erase s.providers name } where
  names := nodup_erase h.names
  leases entry hentry := h.leases entry (List.mem_filter.mp hentry).1
  own entry hentry := h.own entry (List.mem_filter.mp hentry).1
  apart := h.apart.sublist List.filter_sublist

theorem mem_of_lookup_erase (h : Providers s) {name : String} {provider : MediaProvider δ}
    (hlookup : s.providers.lookup name = some provider) {entry : String × MediaProvider δ}
    (hentry : entry ∈ s.providers) : entry = (name, provider) ∨ entry ∈ erase s.providers name := by
  by_cases hname : entry.1 = name
  · exact Or.inl (List.inj_on_of_nodup_map h.names hentry (mem_of_lookup hlookup) hname)
  · exact Or.inr (List.mem_filter.mpr ⟨hentry, by simpa using hname⟩)

/-- A source that is listed is published, and by one provider only. -/
theorem follows_published (h : Kept s) (hopen : s.closed = false) :
    Follows s.current.sources s.published := by
  intro source hsource later hlater hid hsession
  obtain ⟨other, hother, hotherId, -, hrevision⟩ := h.behind hopen source hsource
  have hsame := eq_of_id (published_distinct h.providers) hother hlater (hotherId.trans hid)
  rw [← hsame]
  exact hrevision

theorem newer_id (previous : List (MediaSourceState δ)) (source : MediaSourceState δ) :
    (newer previous source).id = source.id := by
  unfold newer
  split
  · rfl
  · rename_i old hold
    split
    · have hid := List.find?_some hold
      exact of_decide_eq_true hid
    · rfl

/-- What a provider publishes anew is not older than what it had of the same session. -/
theorem newer_revision {previous : List (MediaSourceState δ)} (source : MediaSourceState δ)
    {old : MediaSourceState δ} (hdistinct : (previous.map MediaSourceState.id).Nodup)
    (hold : old ∈ previous) (hid : old.id = source.id)
    (hsession : old.sessionId = (newer previous source).sessionId) :
    old.revision ≤ (newer previous source).revision := by
  unfold newer at hsession ⊢
  split
  · rename_i hnone
    exact absurd (List.find?_eq_none.mp hnone old hold) (by simp [hid])
  · rename_i found hfound
    rw [hfound] at hsession
    have hfoundId := List.find?_some hfound
    obtain rfl : found = old :=
      eq_of_id hdistinct (List.mem_of_find?_eq_some hfound) hold
        ((of_decide_eq_true hfoundId).trans hid.symm)
    dsimp only at hsession
    split
    · exact Int.le_refl _
    · rename_i hnot
      rw [if_neg hnot] at hsession
      by_contra hless
      exact hnot ⟨hsession, by omega⟩

/-- A step that leaves the providers and the listed sources alone. -/
theorem Kept.frame (h : Kept s) {next : CachedMediaSessionService δ}
    (hsources : next.current.sources = s.current.sources)
    (hactive : ∀ id ∈ next.current.activeSourceId, ∃ source ∈ s.current.sources, source.id = id)
    (hproviders : next.providers = s.providers) (hleases : next.nextLease = s.nextLease)
    (hclosed : next.closed = false → s.closed = false) :
    Kept next ∧ Follows s.current.sources next.current.sources := by
  refine ⟨⟨⟨?_, ?_, ?_, ?_⟩, ⟨?_, ?_⟩, ?_⟩, ?_⟩
  · rw [hproviders]
    exact h.providers.names
  · rw [hproviders, hleases]
    exact h.providers.leases
  · rw [hproviders]
    exact h.providers.own
  · rw [hproviders]
    exact h.providers.apart
  · rw [hsources]
    exact h.listed.distinct
  · rw [hsources]
    exact hactive
  · intro hopen
    unfold published
    rw [hsources, hproviders]
    exact h.behind (hclosed hopen)
  · rw [hsources]
    exact follows_refl h.listed.distinct

theorem kept_begin (h : Kept s) :
    Kept s.begin.1 ∧ Follows s.current.sources s.begin.1.current.sources := by
  have hsame : s.begin.1.current = s.current ∧ s.begin.1.providers = s.providers ∧
      s.begin.1.nextLease = s.nextLease ∧ s.begin.1.closed = s.closed := by
    unfold begin
    repeat' split
    all_goals exact ⟨rfl, rfl, rfl, rfl⟩
  obtain ⟨hcurrent, hproviders, hleases, hclosed⟩ := hsame
  refine h.frame (by rw [hcurrent]) ?_ hproviders hleases fun hopen => hclosed ▸ hopen
  rw [hcurrent]
  exact h.listed.active

theorem kept_start : Kept ({} : CachedMediaSessionService δ) where
  providers := ⟨List.nodup_nil, by simp, by simp, List.Pairwise.nil⟩
  listed := ⟨List.nodup_nil, by simp⟩
  behind := by simp

/-! ## Leases that have ended -/

/-- A lease that is not held any more, and never will be. -/
def Ended (s : CachedMediaSessionService δ) (name : String) (lease : ℕ) : Prop :=
  lease < s.nextLease ∧ ¬s.Holds name lease

theorem Ended.frame {name : String} {lease : ℕ} (h : s.Ended name lease)
    {next : CachedMediaSessionService δ} (hproviders : next.providers = s.providers)
    (hleases : next.nextLease = s.nextLease) : next.Ended name lease := by
  unfold Ended Holds
  rw [hproviders, hleases]
  exact h

theorem Ended.put {name : String} {lease : ℕ} (h : s.Ended name lease)
    {next : CachedMediaSessionService δ} {other : String} {provider : MediaProvider δ}
    (hproviders : next.providers = Library.Assoc.put s.providers other provider)
    (hleases : s.nextLease ≤ next.nextLease)
    (hprovider : other = name → provider.lease ≠ lease) : next.Ended name lease := by
  refine ⟨Nat.lt_of_lt_of_le h.1 hleases, ?_⟩
  rintro ⟨found, hfound, hlease⟩
  rw [hproviders, lookup_put] at hfound
  split at hfound
  · rename_i hname
    obtain rfl := Option.some.inj hfound
    exact hprovider hname.symm hlease
  · exact h.2 ⟨found, hfound, hlease⟩

/-! ## The snapshot -/

variable [DecidableEq δ]

theorem same_id {source other : MediaSourceState δ} (h : source.same other = true) :
    source.id = other.id ∧ source.sessionId = other.sessionId := by
  unfold MediaSourceState.same at h
  rw [decide_eq_true_eq] at h
  exact ⟨h.1, h.2.2.2.1⟩

/-- Where two snapshots are the same, each source of the second has its like in the first. -/
theorem same_sources {value other : MediaSessionSnapshot δ} (h : value.same other = true)
    {source : MediaSourceState δ} (hsource : source ∈ other.sources) :
    ∃ like ∈ value.sources, like.id = source.id ∧ like.sessionId = source.sessionId := by
  unfold MediaSessionSnapshot.same at h
  rw [decide_eq_true_eq] at h
  obtain ⟨-, hlength, hall⟩ := h
  obtain ⟨i, hi, rfl⟩ := List.getElem_of_mem hsource
  have hi' : i < value.sources.length := by omega
  refine ⟨value.sources[i], List.getElem_mem hi', ?_⟩
  have hpair : (value.sources[i], other.sources[i]) ∈ value.sources.zip other.sources := by
    rw [List.mem_iff_getElem]
    refine ⟨i, by rw [List.length_zip]; omega, ?_⟩
    rw [List.getElem_zip]
  exact same_id (List.all_eq_true.mp hall _ hpair)

/-- The snapshot is made anew from providers that have gone on. -/
theorem kept_refresh (hproviders : Providers s) (hlisted : Listed s)
    (hfollows : s.closed = false → Follows s.current.sources s.published) :
    Kept s.refresh ∧ Follows s.current.sources s.refresh.current.sources := by
  unfold refresh emit
  dsimp only
  split
  · rename_i hkept
    refine ⟨⟨⟨hproviders.names, hproviders.leases, hproviders.own, hproviders.apart⟩,
      ⟨hlisted.distinct, hlisted.active⟩, ?_⟩, follows_refl hlisted.distinct⟩
    intro hopen source hsource
    have hopen : s.closed = false := hopen
    have hsame : MediaSessionSnapshot.same
        { sources := s.published, activeSourceId := s.refreshed } s.current = true := by
      rw [hopen, Bool.false_or] at hkept
      exact hkept
    obtain ⟨other, hother, hid, hsession⟩ := same_sources hsame hsource
    exact ⟨other, hother, hid, hsession,
      hfollows hopen source hsource other hother hid.symm hsession.symm⟩
  · rename_i hchanged
    have hopen : s.closed = false := by
      cases hclosed : s.closed with
      | false => rfl
      | true =>
        rw [hclosed] at hchanged
        exact absurd (Bool.true_or _) hchanged
    refine ⟨⟨⟨hproviders.names, hproviders.leases, hproviders.own, hproviders.apart⟩,
      ⟨published_distinct hproviders, refreshed_listed s⟩, ?_⟩, hfollows hopen⟩
    intro _ source hsource
    exact ⟨source, hsource, rfl, rfl, Int.le_refl _⟩

theorem kept_register (h : Kept s) (name : String) :
    Kept (s.register name) ∧ Follows s.current.sources (s.register name).current.sources := by
  have hproviders : Providers
      { s with
        providers := put s.providers name { lease := s.nextLease }
        nextLease := s.nextLease + 1 } :=
    providers_put h.providers (Nat.le_succ _) (Nat.lt_succ_self _) List.nodup_nil
      fun _ _ source hsource => absurd hsource List.not_mem_nil
  refine kept_refresh hproviders ⟨h.listed.distinct, h.listed.active⟩ ?_
  intro hopen source hsource later hlater hid hsession
  obtain ⟨entry, hentry, hlater⟩ := mem_published.mp hlater
  rcases mem_put hentry with rfl | hentry
  · exact absurd hlater List.not_mem_nil
  · exact follows_published h hopen source hsource later (mem_published.mpr ⟨entry, hentry, hlater⟩)
      hid hsession

theorem kept_closeProvider (h : Kept s) (name : String) (lease : ℕ) :
    Kept (s.closeProvider name lease) ∧
      Follows s.current.sources (s.closeProvider name lease).current.sources := by
  unfold closeProvider
  split
  · exact ⟨h, follows_refl h.listed.distinct⟩
  · split
    · exact ⟨h, follows_refl h.listed.distinct⟩
    · refine kept_refresh (providers_erase h.providers name)
        ⟨h.listed.distinct, h.listed.active⟩ ?_
      intro hopen source hsource later hlater hid hsession
      obtain ⟨entry, hentry, hlater⟩ := mem_published.mp hlater
      exact follows_published h hopen source hsource later
        (mem_published.mpr ⟨entry, (List.mem_filter.mp hentry).1, hlater⟩) hid hsession

theorem kept_publish (h : Kept s) {name : String} {lease : ℕ} {revision : ℤ}
    {sources : List (MediaSourceState δ)} {next : CachedMediaSessionService δ}
    (hnext : s.publish name lease revision sources = .ok next) :
    Kept next ∧ Follows s.current.sources next.current.sources := by
  unfold publish at hnext
  split at hnext
  · obtain rfl := Except.ok.inj hnext
    exact ⟨h, follows_refl h.listed.distinct⟩
  · rename_i provider hlookup
    split at hnext
    · obtain rfl := Except.ok.inj hnext
      exact ⟨h, follows_refl h.listed.distinct⟩
    · rename_i hcurrent
      dsimp only at hnext
      split at hnext
      · exact absurd hnext (by simp)
      · rename_i hdistinct
        split at hnext
        · exact absurd hnext (by simp)
        · rename_i hforeign
          obtain rfl := Except.ok.inj hnext
          have hlease : provider.lease = lease := by
            by_contra hother
            exact hcurrent (Or.inl hother)
          have hmem := mem_of_lookup hlookup
          have hids : ((sources.take 32).map (newer provider.sources)).map MediaSourceState.id =
              (sources.take 32).map MediaSourceState.id := by
            rw [List.map_map]
            exact List.map_congr_left fun source _ => newer_id _ source
          have hproviders : Providers
              { s with
                providers := put s.providers name
                  { lease := lease
                    revision := revision
                    sources := (sources.take 32).map (newer provider.sources) } } := by
            apply providers_put h.providers (Nat.le_refl _)
            · exact hlease ▸ h.providers.leases _ hmem
            · exact hids ▸ not_not.mp hdistinct
            · intro entry hentry source hsource foreign hforeignMem hid
              obtain ⟨incoming, hincoming, rfl⟩ := List.mem_map.mp hsource
              rw [newer_id] at hid
              exact hforeign ⟨incoming, hincoming, entry, hentry, foreign, hforeignMem, hid.symm⟩
          refine kept_refresh hproviders ⟨h.listed.distinct, h.listed.active⟩ ?_
          intro hopen source hsource later hlater hid hsession
          obtain ⟨entry, hentry, hlater⟩ := mem_published.mp hlater
          rcases mem_put hentry with rfl | hentry
          · -- The source was this provider's own before, since no other has one of its name.
            obtain ⟨incoming, hincoming, rfl⟩ := List.mem_map.mp hlater
            obtain ⟨other, hother, hotherId, hotherSession, hrevision⟩ :=
              h.behind hopen source hsource
            obtain ⟨owner, howner, hother⟩ := mem_published.mp hother
            rw [newer_id] at hid
            rcases mem_of_lookup_erase h.providers hlookup howner with rfl | howner
            · exact Int.le_trans hrevision (newer_revision incoming (h.providers.own _ hmem) hother
                (hotherId.trans hid) (hotherSession.trans hsession))
            · exact absurd ⟨incoming, hincoming, owner, howner, other, hother, hotherId.trans hid⟩
                hforeign
          · exact follows_published h hopen source hsource later
              (mem_published.mpr ⟨entry, hentry, hlater⟩) hid hsession

theorem kept_reflectSelection (h : Kept s) (id : Option String) :
    Kept (s.reflectSelection id) ∧
      Follows s.current.sources (s.reflectSelection id).current.sources := by
  rcases reflectSelection_cases s id with hsame | hchanged
  · rw [hsame]
    exact h.frame rfl h.listed.active rfl rfl fun hopen => hopen
  · rw [hchanged]
    refine h.frame rfl ?_ rfl rfl fun hopen => hopen
    intro active hactive
    dsimp only at hactive
    split at hactive
    · rename_i hlists
      obtain ⟨source, hsource, hsame⟩ := List.any_eq_true.mp hlists
      refine ⟨source, hsource, Option.some.inj ?_⟩
      exact (of_decide_eq_true hsame).trans hactive
    · exact absurd hactive (Option.not_mem_none active)

theorem kept_calledBack (h : Kept s) (error : Option OperationError) :
    Kept (s.calledBack error).1 ∧
      Follows s.current.sources (s.calledBack error).1.current.sources := by
  have hfinished : Kept { s with turn := .finished } ∧
      Follows s.current.sources s.current.sources :=
    h.frame rfl h.listed.active rfl rfl fun hopen => hopen
  unfold calledBack
  split
  · dsimp only
    split
    · exact hfinished
    · exact hfinished
    · split
      · exact hfinished
      · split
        · exact hfinished
        · exact kept_reflectSelection hfinished.1 _
  · exact h.frame rfl h.listed.active rfl rfl fun hopen => hopen

theorem kept_step (h : Kept s) (event : Event δ) :
    Kept (s.step event).1 ∧ Follows s.current.sources (s.step event).1.current.sources := by
  have hsame : Kept s ∧ Follows s.current.sources s.current.sources :=
    h.frame rfl h.listed.active rfl rfl fun hopen => hopen
  cases event with
  | register name => exact kept_register h name
  | publish name lease revision sources =>
    unfold step
    dsimp only
    split
    · exact hsame
    · rename_i next hnext
      exact kept_publish h hnext
  | closeProvider name lease => exact kept_closeProvider h name lease
  | reflectSelection id => exact kept_reflectSelection h id
  | setCallbacks select execute => exact h.frame rfl h.listed.active rfl rfl fun hopen => hopen
  | selectSource id =>
    unfold step serialize
    dsimp only
    split
    · exact hsame
    · exact h.frame rfl h.listed.active rfl rfl fun hopen => hopen
  | command id command =>
    unfold step serialize
    dsimp only
    split
    · exact hsame
    · exact h.frame rfl h.listed.active rfl rfl fun hopen => hopen
  | turn => exact kept_begin h
  | calledBack error => exact kept_calledBack h error
  | settled =>
    unfold step settle
    dsimp only
    split
    · exact h.frame rfl h.listed.active rfl rfl fun hopen => hopen
    · exact hsame
  | close => exact h.frame rfl h.listed.active rfl rfl nofun
  | cleared =>
    unfold step
    dsimp only
    split
    · rename_i hclosed
      have hclosed : s.closed = true := by
        rw [Bool.and_eq_true] at hclosed
        exact hclosed.1
      refine ⟨⟨⟨List.nodup_nil, ?_, ?_, List.Pairwise.nil⟩, ⟨h.listed.distinct, h.listed.active⟩,
        ?_⟩, hsame.2⟩
      · exact fun entry hentry => absurd hentry List.not_mem_nil
      · exact fun entry hentry => absurd hentry List.not_mem_nil
      · intro hopen
        have hopen : s.closed = false := hopen
        rw [hclosed] at hopen
        exact absurd hopen (by simp)
    · exact hsame

theorem refresh_frame (s : CachedMediaSessionService δ) :
    s.refresh.providers = s.providers ∧ s.refresh.nextLease = s.nextLease := by
  unfold refresh emit
  dsimp only
  split
  · exact ⟨rfl, rfl⟩
  · exact ⟨rfl, rfl⟩

theorem ended_reflectSelection {name : String} {lease : ℕ} (h : s.Ended name lease)
    (id : Option String) : (s.reflectSelection id).Ended name lease := by
  rcases reflectSelection_cases s id with hsame | hchanged
  · rw [hsame]
    exact h.frame rfl rfl
  · rw [hchanged]
    exact h.frame rfl rfl

theorem ended_publish {name : String} {lease : ℕ} (h : s.Ended name lease) {other : String}
    {held : ℕ} {revision : ℤ} {sources : List (MediaSourceState δ)}
    {next : CachedMediaSessionService δ}
    (hnext : s.publish other held revision sources = .ok next) : next.Ended name lease := by
  unfold publish at hnext
  split at hnext
  · obtain rfl := Except.ok.inj hnext
    exact h
  · rename_i provider hlookup
    split at hnext
    · obtain rfl := Except.ok.inj hnext
      exact h
    · rename_i hcurrent
      have hheld : provider.lease = held := by
        by_contra hother
        exact hcurrent (Or.inl hother)
      dsimp only at hnext
      split at hnext
      · exact absurd hnext (by simp)
      · split at hnext
        · exact absurd hnext (by simp)
        · obtain rfl := Except.ok.inj hnext
          refine h.put (refresh_frame _).1 (Nat.le_of_eq (Eq.symm ?_)) ?_
          · exact (refresh_frame _).2
          · rintro rfl hlease
            exact h.2 ⟨provider, hlookup, hheld.trans hlease⟩

theorem ended_closeProvider {name : String} {lease : ℕ} (h : s.Ended name lease) (other : String)
    (held : ℕ) : (s.closeProvider other held).Ended name lease := by
  unfold closeProvider
  split
  · exact h
  · split
    · exact h
    · obtain ⟨hproviders, hleases⟩ :=
        refresh_frame { s with providers := erase s.providers other }
      refine ⟨by rw [hleases]; exact h.1, ?_⟩
      rintro ⟨found, hfound, hlease⟩
      rw [hproviders] at hfound
      have hfound : (erase s.providers other).lookup name = some found := hfound
      rw [lookup_erase] at hfound
      split at hfound
      · exact absurd hfound (by simp)
      · exact h.2 ⟨found, hfound, hlease⟩

theorem ended_calledBack {name : String} {lease : ℕ} (h : s.Ended name lease)
    (error : Option OperationError) : (s.calledBack error).1.Ended name lease := by
  have hfinished : Ended { s with turn := .finished } name lease := h.frame rfl rfl
  unfold calledBack
  split
  · dsimp only
    split
    · exact hfinished
    · exact hfinished
    · split
      · exact hfinished
      · split
        · exact hfinished
        · exact ended_reflectSelection hfinished _
  · exact h

theorem ended_step {name : String} {lease : ℕ} (h : s.Ended name lease) (event : Event δ) :
    (s.step event).1.Ended name lease := by
  cases event with
  | register other =>
    obtain ⟨hproviders, hleases⟩ := refresh_frame
      { s with
        providers := Library.Assoc.put s.providers other { lease := s.nextLease }
        nextLease := s.nextLease + 1 }
    refine h.put hproviders ?_ fun _ => (Nat.ne_of_lt h.1).symm
    show s.nextLease ≤ (refresh _).nextLease
    rw [hleases]
    exact Nat.le_succ _
  | publish other held revision sources =>
    unfold step
    dsimp only
    split
    · exact h
    · rename_i next hnext
      exact ended_publish h hnext
  | closeProvider other held => exact ended_closeProvider h other held
  | reflectSelection id => exact ended_reflectSelection h id
  | setCallbacks select execute => exact h.frame rfl rfl
  | selectSource id =>
    unfold step serialize
    dsimp only
    split
    · exact h
    · exact h.frame rfl rfl
  | command id command =>
    unfold step serialize
    dsimp only
    split
    · exact h
    · exact h.frame rfl rfl
  | turn =>
    unfold step begin
    dsimp only
    repeat' split
    all_goals exact h.frame rfl rfl
  | calledBack error => exact ended_calledBack h error
  | settled =>
    unfold step settle
    dsimp only
    split
    · exact h.frame rfl rfl
    · exact h
  | close => exact h.frame rfl rfl
  | cleared =>
    unfold step
    dsimp only
    split
    · exact ⟨h.1, by rintro ⟨found, hfound, -⟩; exact absurd hfound (by simp)⟩
    · exact h

/-- What the provider of a lease that has ended still calls is ignored. -/
theorem ended_ignored {name : String} {lease : ℕ} (h : s.Ended name lease) (revision : ℤ)
    (sources : List (MediaSourceState δ)) :
    s.step (.publish name lease revision sources) = (s, []) ∧
      s.step (.closeProvider name lease) = (s, []) := by
  unfold step publish closeProvider
  dsimp only
  cases hlookup : s.providers.lookup name with
  | none => exact ⟨rfl, rfl⟩
  | some provider =>
    have hlease : provider.lease ≠ lease := fun hsame => h.2 ⟨provider, hlookup, hsame⟩
    dsimp only
    rw [if_pos (Or.inl hlease), if_pos hlease]
    exact ⟨rfl, rfl⟩

theorem kept_run (events : List (Event δ)) : Kept (run step {} events).1 :=
  run_invariant step kept_start (fun _ event h => (kept_step h event).1) events

/-- In every state that is reached every source is listed once, the active one is listed, and the
next step takes no source back to an older revision; once a lease has ended, its provider changes
nothing in any state that follows. -/
theorem registry_consistent (events : List (Event δ)) :
    Listed (run step {} events).1 ∧
      (∀ event, Follows (run step {} events).1.current.sources
        ((run step {} events).1.step event).1.current.sources) ∧
      ∀ name lease, Ended (run step {} events).1 name lease → ∀ more revision sources,
        (run step (run step {} events).1 more).1.step (.publish name lease revision sources) =
            ((run step (run step {} events).1 more).1, []) ∧
          (run step (run step {} events).1 more).1.step (.closeProvider name lease) =
            ((run step (run step {} events).1 more).1, []) := by
  have hkept := kept_run events
  refine ⟨hkept.listed, fun event => (kept_step hkept event).2, ?_⟩
  intro name lease hended more revision sources
  have hstill : Ended (run step (run step {} events).1 more).1 name lease :=
    run_invariant step (I := fun t => Ended t name lease) hended
      (fun _ event h => ended_step h event) more
  exact ended_ignored hstill revision sources

/-- A second registration of a name ends the lease of the first, which then publishes in vain. -/
theorem registry_consistent_replaced :
    (run step (run step ({} : CachedMediaSessionService Unit) [.register "phone", .register "phone"]).1
        [.publish "phone" 1 1 []]).1.step (.publish "phone" 0 9 []) =
      ((run step (run step ({} : CachedMediaSessionService Unit)
        [.register "phone", .register "phone"]).1 [.publish "phone" 1 1 []]).1, []) :=
  ((registry_consistent [.register "phone", .register "phone"]).2.2 "phone" 0
    ⟨by decide +kernel, by
      rintro ⟨provider, hlookup, hlease⟩
      obtain rfl := Option.some.inj hlookup
      exact absurd hlease (by decide +kernel)⟩ [.publish "phone" 1 1 []] 9 []).1

end CachedMediaSessionService
end ProjectArgo.MediaSession
