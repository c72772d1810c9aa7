import Mathlib.Algebra.BigOperators.Group.List.Basic
import Mathlib.Algebra.Order.Ring.Rat
import Mathlib.Tactic.Ring
import ProjectArgo.Audio.AudioService
import ProjectArgo.Library.Run

/-!
# Who owns a focus request

Between operations the requests are those whose handles are out, made under a
registration that is still in place, and the published gains follow from the tables.
Two orders break this. A request is checked when it is called and takes effect later,
perhaps after its source was removed; and an operation that fails halfway leaves gains
behind that the next registration does not correct.
-/
namespace ProjectArgo.Audio

open Library Library.Run

/-- The request whose caller waits for an answer. -/
def Goal.requester : Goal → Option ℕ
  | .finish => none
  | .grant id | .restore id => some id

/-- The request that is granted once the gains are set. -/
def Goal.asking : Goal → Option ℕ
  | .grant id => some id
  | _ => none

def Op.requested : Op → Option ℕ
  | .requestFocus request => some request.id
  | _ => none

namespace AudioService

variable {service : AudioService}

/-! ## Gains -/

/-- What a source would be heard at if nobody had the focus. -/
def activity (service : AudioService) (source : AudioSource) : ℚ :=
  if source.id ∈ service.activeSources then source.gain.val else 0

/-- The factors of the requests that outrank the source. -/
def ducking (service : AudioService) (source : AudioSource) : ℚ :=
  ((service.focusRequests.filter fun request =>
    source.role.priority < request.role.priority).map (·.duckingGain.val)).prod

/-- What is published for a source, if anything. -/
def published (service : AudioService) (id : String) : ℚ :=
  (service.effectiveSourceGains.lookup id).getD 0

/-- The published gains are those of the tables. -/
def Exact (service : AudioService) : Prop :=
  ∀ registration ∈ service.sources, service.published registration.source.id =
    service.activity registration.source * service.ducking registration.source

instance (service : AudioService) : Decidable service.Exact :=
  inferInstanceAs (Decidable (∀ registration ∈ service.sources, _ = _))

theorem activity_unit (service : AudioService) (source : AudioSource) :
    0 ≤ service.activity source ∧ service.activity source ≤ 1 := by
  unfold activity
  split
  · exact source.gain.property
  · exact ⟨le_rfl, zero_le_one⟩

theorem prod_unit (requests : List FocusRequest) :
    0 ≤ (requests.map (·.duckingGain.val)).prod ∧ (requests.map (·.duckingGain.val)).prod ≤ 1 := by
  induction requests with
  | nil => simp
  | cons request rest ih =>
    obtain ⟨hnonneg, hle⟩ := request.duckingGain.property
    rw [List.map_cons, List.prod_cons]
    exact ⟨mul_nonneg hnonneg ih.1, mul_le_one₀ hle ih.1 ih.2⟩

theorem foldl_spares (source : AudioSource) (requests : List FocusRequest) (base : ℚ)
    (h : ∀ request ∈ requests, request.sourceId = source.id → request.role = source.role) :
    requests.foldl (fun gain request =>
        if Spares request source then gain else gain * request.duckingGain.val) base =
      base * ((requests.filter fun request =>
        source.role.priority < request.role.priority).map (·.duckingGain.val)).prod := by
  induction requests generalizing base with
  | nil => simp
  | cons request rest ih =>
    have hrest := ih (h := fun other hmem => h other (List.mem_cons_of_mem _ hmem))
    rw [List.foldl_cons, hrest, List.filter_cons]
    by_cases hout : source.role.priority < request.role.priority
    · have hspares : ¬Spares request source := by
        rintro (hown | hle)
        · rw [h request (List.mem_cons_self ..) hown] at hout
          exact Nat.lt_irrefl _ hout
        · exact Nat.not_lt.mpr hle hout
      simp only [hspares, hout, decide_true, if_true, if_false, List.map_cons, List.prod_cons]
      ring
    · have hspares : Spares request source := Or.inr (Nat.le_of_not_lt hout)
      simp [hspares, hout]

/-- The gain of a source, where its own requests have its role. -/
theorem gainOf_eq (source : AudioSource) (h : ∀ request ∈ service.focusRequests,
    request.sourceId = source.id → request.role = source.role) :
    service.gainOf source = service.activity source * service.ducking source := by
  obtain ⟨hnonneg, hle⟩ := service.activity_unit source
  obtain ⟨hprod, hprodLe⟩ := prod_unit (service.focusRequests.filter fun request =>
    source.role.priority < request.role.priority)
  unfold gainOf
  simp only [foldl_spares source _ _ h]
  rw [min_eq_left, max_eq_right]
  · rfl
  · exact mul_nonneg hnonneg hprod
  · exact mul_le_one₀ hle hprod hprodLe

theorem lookup_map {sources : List Registration} (gain : AudioSource → ℚ)
    (hnodup : (sources.map (·.source.id)).Nodup) {registration : Registration}
    (hmem : registration ∈ sources) :
    (sources.map fun entry => (entry.source.id, gain entry.source)).lookup
      registration.source.id = some (gain registration.source) := by
  induction sources with
  | nil => exact nomatch hmem
  | cons first rest ih =>
    rw [List.map_cons, List.nodup_cons] at hnodup
    rw [List.map_cons, List.lookup_cons]
    rcases List.mem_cons.mp hmem with rfl | hmem
    · simp
    · have hne : registration.source.id ≠ first.source.id := by
        intro heq
        exact hnodup.1 (heq ▸ List.mem_map_of_mem hmem)
      rw [beq_eq_false_iff_ne.mpr hne]
      exact ih hnodup.2 hmem

/-! ## Requests -/

/-- The request whose grant is under way. -/
def asking : Option Await → Option ℕ
  | some (.gaining _ _ goal) => Goal.asking goal
  | _ => none

def requestIds (service : AudioService) : List ℕ := service.focusRequests.map (·.id)

/-- The registration under which the request was made is in place. -/
def Placed (service : AudioService) (id : ℕ) : Prop :=
  ∃ registration ∈ service.sources, (id, registration.serial) ∈ service.granted

/-- What holds at every await. -/
structure Sound (service : AudioService) (asked : Option ℕ) : Prop where
  sourceIds : (service.sources.map (·.source.id)).Nodup
  serials : (service.sources.map (·.serial)).Nodup
  fresh : ∀ registration ∈ service.sources, registration.serial < service.registrations
  active : ∀ id ∈ service.activeSources, ∃ registration ∈ service.sources,
    registration.source.id = id
  owned : ∀ request ∈ service.focusRequests, ∃ registration ∈ service.sources,
    registration.source.id = request.sourceId ∧ registration.source.role = request.role ∧
      (request.id, registration.serial) ∈ service.granted
  grants : ∀ pair ∈ service.granted,
    pair.1 < service.nextFocusId ∧ pair.2 < service.registrations
  single : ∀ id first second, (id, first) ∈ service.granted → (id, second) ∈ service.granted →
    first = second
  known : ∀ id ∈ service.handles, ∃ serial, (id, serial) ∈ service.granted
  owners : ∀ id ∈ service.released, id ∈ service.handles
  pending : ∀ id, asked = some id → id ∈ service.requestIds ∧ id ∉ service.handles
  requests : ∀ id, id ∈ service.requestIds ↔
    (id ∈ service.handles ∨ asked = some id) ∧ id ∉ service.released ∧ service.Placed id

theorem sound_start (routing : Bool) (policy : AudioFocusPolicy) :
    Sound { routing := routing, policy := policy } none := by
  constructor <;> simp [requestIds, Placed]

theorem registration?_eq_some {id : String} {registration : Registration}
    (h : service.registration? id = some registration) :
    registration ∈ service.sources ∧ registration.source.id = id :=
  ⟨List.mem_of_find?_eq_some h, by simpa using List.find?_some h⟩

theorem registration?_eq_none {id : String} (h : service.registration? id = none) :
    ∀ registration ∈ service.sources, registration.source.id ≠ id := by
  simpa [registration?] using h

theorem Sound.registration? {asked : Option ℕ} (h : service.Sound asked)
    {registration : Registration} (hmem : registration ∈ service.sources) :
    service.registration? registration.source.id = some registration := by
  have hnodup := h.sourceIds
  unfold AudioService.registration?
  generalize service.sources = sources at hmem hnodup
  induction sources with
  | nil => exact nomatch hmem
  | cons first rest ih =>
    rw [List.map_cons, List.nodup_cons] at hnodup
    rcases List.mem_cons.mp hmem with rfl | hmem
    · simp
    · have hne : first.source.id ≠ registration.source.id := by
        intro heq
        exact hnodup.1 (heq ▸ List.mem_map_of_mem hmem)
      rw [List.find?_cons_of_neg (by simpa using hne)]
      exact ih hmem hnodup.2

/-- Registrations are told apart by their serial numbers. -/
theorem Sound.eq_of_serial {asked : Option ℕ} (h : service.Sound asked)
    {first second : Registration} (hfirst : first ∈ service.sources)
    (hsecond : second ∈ service.sources) (heq : first.serial = second.serial) : first = second :=
  List.inj_on_of_nodup_map h.serials hfirst hsecond heq

/-- The gains that are computed are those of the tables. -/
theorem Sound.exact {asked : Option ℕ} (h : service.Sound asked) :
    Exact { service with effectiveSourceGains := service.gains } := by
  intro registration hmem
  have hlookup := lookup_map service.gainOf h.sourceIds hmem
  unfold published gains
  rw [hlookup, Option.getD_some]
  refine gainOf_eq registration.source fun request hrequest hid => ?_
  obtain ⟨owner, howner, hownerId, hrole, -⟩ := h.owned request hrequest
  have hfound := h.registration? howner
  rw [hownerId, hid, h.registration? hmem] at hfound
  rw [← hrole, ← Option.some.inj hfound]

/-! ## What the operations do to the tables -/

section Tables

variable {asked : Option ℕ}

theorem mem_requestIds {id : ℕ} :
    id ∈ service.requestIds ↔ ∃ request ∈ service.focusRequests, request.id = id := List.mem_map

theorem mem_requestIds_revoke {id other : ℕ} :
    other ∈ (service.revoke id).requestIds ↔ other ∈ service.requestIds ∧ other ≠ id := by
  simp only [requestIds, revoke, List.mem_map, List.mem_filter, decide_eq_true_eq]
  constructor
  · rintro ⟨request, ⟨hmem, hne⟩, rfl⟩
    exact ⟨⟨request, hmem, rfl⟩, hne⟩
  · rintro ⟨⟨request, hmem, rfl⟩, hne⟩
    exact ⟨request, ⟨hmem, hne⟩, rfl⟩

theorem Sound.revoke_asked {id : ℕ} (h : service.Sound (some id)) :
    (service.revoke id).Sound none := by
  obtain ⟨-, hhandle⟩ := h.pending id rfl
  refine { h with owned := ?_, pending := nofun, requests := ?_ }
  · intro request hmem
    exact h.owned request (List.mem_filter.mp hmem).1
  · intro other
    rw [mem_requestIds_revoke, h.requests]
    constructor
    · rintro ⟨⟨hor, hreleased, hplaced⟩, hne⟩
      refine ⟨Or.inl (hor.resolve_right ?_), hreleased, hplaced⟩
      intro heq
      exact hne (Option.some.inj heq).symm
    · rintro ⟨hor, hreleased, hplaced⟩
      refine ⟨⟨hor.imp_right nofun, hreleased, hplaced⟩, ?_⟩
      rintro rfl
      exact hhandle (hor.resolve_right nofun)

/-- A handle is released. -/
def settle (service : AudioService) (id : ℕ) : AudioService :=
  { service with released := service.released ++ [id] }

theorem Sound.settle {id : ℕ} (h : service.Sound none) (hmem : id ∈ service.handles) :
    ((service.settle id).revoke id).Sound none := by
  refine { h with owned := ?_, owners := ?_, pending := nofun, requests := ?_ }
  · intro request hrequest
    exact h.owned request (List.mem_filter.mp hrequest).1
  · intro other hother
    rcases List.mem_append.mp hother with hother | hother
    · exact h.owners other hother
    · exact List.mem_singleton.mp hother ▸ hmem
  · intro other
    have hrequests := h.requests other
    have hids : other ∈ ((service.settle id).revoke id).requestIds ↔
        other ∈ (service.settle id).requestIds ∧ other ≠ id := mem_requestIds_revoke
    have hreleased : other ∈ service.released ++ [id] ↔ other ∈ service.released ∨ other = id := by
      simp
    rw [hids]
    change other ∈ service.requestIds ∧ other ≠ id ↔
      _ ∧ other ∉ service.released ++ [id] ∧ service.Placed other
    rw [hreleased, hrequests, not_or]
    constructor
    · rintro ⟨⟨hor, hnot, hplaced⟩, hne⟩
      exact ⟨hor, ⟨hnot, hne⟩, hplaced⟩
    · rintro ⟨hor, ⟨hnot, hne⟩, hplaced⟩
      exact ⟨⟨hor, hnot, hplaced⟩, hne⟩

/-- Nothing is taken back when the request is gone. -/
theorem revoke_of_not_mem {id : ℕ} (h : id ∉ service.requestIds) : service.revoke id = service := by
  unfold revoke
  rw [List.filter_eq_self.mpr]
  intro request hmem
  rw [decide_eq_true_eq]
  rintro rfl
  exact h (List.mem_map_of_mem hmem)

theorem Sound.setActive {id : String} {active : Bool} (h : service.Sound asked)
    (hmem : (service.registration? id).isSome) : (service.setActive id active).Sound asked := by
  obtain ⟨registration, hsome⟩ := Option.isSome_iff_exists.mp hmem
  obtain ⟨hregistered, hid⟩ := registration?_eq_some hsome
  refine { h with active := ?_ }
  intro other hother
  simp only [AudioService.setActive] at hother
  split at hother
  · rcases Finset.mem_insert.mp hother with rfl | hother
    · exact ⟨registration, hregistered, hid⟩
    · exact h.active other hother
  · exact h.active other (Finset.mem_of_mem_erase hother)

theorem Sound.register {source : AudioSource} (h : service.Sound none)
    (hnone : service.registration? source.id = none) : (service.register source).Sound none := by
  have hnew := registration?_eq_none hnone
  have hlater : ∀ id, (id, service.registrations) ∉ service.granted := by
    intro id hgranted
    exact Nat.lt_irrefl _ (h.grants _ hgranted).2
  refine { h with sourceIds := ?_, serials := ?_, fresh := ?_, active := ?_, owned := ?_,
                  grants := ?_, pending := nofun, requests := ?_ }
  · simp only [AudioService.register, List.map_append, List.map_cons, List.map_nil]
    refine List.nodup_append.mpr ⟨h.sourceIds, List.nodup_singleton _, ?_⟩
    intro id hid other hother
    obtain ⟨registration, hmem, rfl⟩ := List.mem_map.mp hid
    rw [List.mem_singleton.mp hother]
    exact hnew registration hmem
  · simp only [AudioService.register, List.map_append, List.map_cons, List.map_nil]
    refine List.nodup_append.mpr ⟨h.serials, List.nodup_singleton _, ?_⟩
    intro serial hserial other hother
    obtain ⟨registration, hmem, rfl⟩ := List.mem_map.mp hserial
    rw [List.mem_singleton.mp hother]
    exact Nat.ne_of_lt (h.fresh registration hmem)
  · intro registration hmem
    rcases List.mem_append.mp hmem with hmem | hmem
    · exact Nat.lt_succ_of_lt (h.fresh registration hmem)
    · rw [List.mem_singleton.mp hmem]
      exact Nat.lt_succ_self _
  · intro id hid
    obtain ⟨registration, hmem, heq⟩ := h.active id hid
    exact ⟨registration, List.mem_append_left _ hmem, heq⟩
  · intro request hrequest
    obtain ⟨registration, hmem, howner⟩ := h.owned request hrequest
    exact ⟨registration, List.mem_append_left _ hmem, howner⟩
  · intro pair hpair
    exact ⟨(h.grants pair hpair).1, Nat.lt_succ_of_lt (h.grants pair hpair).2⟩
  · intro id
    have hplaced : (service.register source).Placed id ↔ service.Placed id := by
      simp only [Placed, AudioService.register, List.mem_append, List.mem_singleton]
      constructor
      · rintro ⟨registration, hmem | rfl, hgranted⟩
        · exact ⟨registration, hmem, hgranted⟩
        · exact absurd hgranted (hlater id)
      · rintro ⟨registration, hmem, hgranted⟩
        exact ⟨registration, Or.inl hmem, hgranted⟩
    rw [hplaced]
    exact h.requests id

theorem Sound.unregister {id : String} (h : service.Sound none) :
    (service.unregister id).Sound none := by
  refine { h with sourceIds := ?_, serials := ?_, fresh := ?_, active := ?_, owned := ?_,
                  pending := nofun, requests := ?_ }
  · exact h.sourceIds.sublist (List.filter_sublist.map _)
  · exact h.serials.sublist (List.filter_sublist.map _)
  · intro registration hmem
    exact h.fresh registration (List.mem_filter.mp hmem).1
  · intro other hother
    obtain ⟨hne, hother⟩ := Finset.mem_erase.mp hother
    obtain ⟨registration, hmem, rfl⟩ := h.active other hother
    exact ⟨registration, List.mem_filter.mpr ⟨hmem, by simpa using hne⟩, rfl⟩
  · intro request hrequest
    obtain ⟨hrequest, hne⟩ := List.mem_filter.mp hrequest
    obtain ⟨registration, hmem, hid, howner⟩ := h.owned request hrequest
    exact ⟨registration, List.mem_filter.mpr ⟨hmem, by simpa [hid] using hne⟩, hid, howner⟩
  · intro other
    constructor
    · intro hother
      obtain ⟨request, hrequest, rfl⟩ := mem_requestIds.mp hother
      obtain ⟨hrequest, hne⟩ := List.mem_filter.mp hrequest
      obtain ⟨hhandle, hreleased, -⟩ := (h.requests request.id).mp (List.mem_map_of_mem hrequest)
      obtain ⟨registration, hmem, hid, -, hgranted⟩ := h.owned request hrequest
      exact ⟨hhandle, hreleased, registration,
        List.mem_filter.mpr ⟨hmem, by simpa [hid] using hne⟩, hgranted⟩
    · rintro ⟨hhandle, hreleased, registration, hmem, hgranted⟩
      obtain ⟨hmem, hne⟩ := List.mem_filter.mp hmem
      obtain ⟨request, hrequest, rfl⟩ := mem_requestIds.mp
        ((h.requests other).mpr ⟨hhandle, hreleased, registration, hmem, hgranted⟩)
      obtain ⟨owner, howner, hid, -, hserial⟩ := h.owned request hrequest
      -- One registration for one request: the source that goes is another one.
      obtain rfl := h.eq_of_serial howner hmem (h.single _ _ _ hserial hgranted)
      exact mem_requestIds.mpr
        ⟨request, List.mem_filter.mpr ⟨hrequest, by simpa [← hid] using hne⟩, rfl⟩

theorem Sound.grant {request : FocusRequest} (h : service.Sound none)
    (hnext : request.id < service.nextFocusId)
    (hfresh : ∀ serial, (request.id, serial) ∉ service.granted)
    (howner : ∃ registration ∈ service.sources,
      registration.source.id = request.sourceId ∧ registration.source.role = request.role) :
    (service.grant request).Sound (some request.id) := by
  obtain ⟨registration, hmem, hid, hrole⟩ := howner
  have hfound := h.registration? hmem
  rw [hid] at hfound
  have hgranted : (service.grant request).granted =
      service.granted ++ [(request.id, registration.serial)] := by
    simp [AudioService.grant, hfound]
  have hhandle : request.id ∉ service.handles := by
    intro hhandle
    obtain ⟨serial, hserial⟩ := h.known _ hhandle
    exact hfresh serial hserial
  refine { h with owned := ?_, grants := ?_, single := ?_, known := ?_, pending := ?_,
                  requests := ?_ }
  · intro other hother
    rw [hgranted]
    rcases List.mem_append.mp hother with hother | hother
    · obtain ⟨owner, howner, hownerId, hownerRole, hserial⟩ := h.owned other hother
      exact ⟨owner, howner, hownerId, hownerRole, List.mem_append_left _ hserial⟩
    · obtain rfl := List.mem_singleton.mp hother
      exact ⟨registration, hmem, hid, hrole, by simp⟩
  · intro pair hpair
    rw [hgranted] at hpair
    rcases List.mem_append.mp hpair with hpair | hpair
    · exact h.grants pair hpair
    · rw [List.mem_singleton.mp hpair]
      exact ⟨hnext, h.fresh registration hmem⟩
  · intro id first second hfirst hsecond
    rw [hgranted] at hfirst hsecond
    simp only [List.mem_append, List.mem_singleton, Prod.mk.injEq] at hfirst hsecond
    rcases hfirst with hfirst | ⟨rfl, rfl⟩ <;> rcases hsecond with hsecond | ⟨heq, rfl⟩
    · exact h.single id first second hfirst hsecond
    · exact absurd (heq ▸ hfirst) (hfresh first)
    · exact absurd hsecond (hfresh second)
    · rfl
  · intro id hknown
    obtain ⟨serial, hserial⟩ := h.known id hknown
    exact ⟨serial, by rw [hgranted]; exact List.mem_append_left _ hserial⟩
  · rintro id heq
    obtain rfl := Option.some.inj heq
    exact ⟨by simp [requestIds, AudioService.grant], hhandle⟩
  · intro id
    have hplaced : (service.grant request).Placed id ↔ service.Placed id ∨ id = request.id := by
      simp only [Placed, hgranted, List.mem_append, List.mem_singleton, Prod.mk.injEq]
      constructor
      · rintro ⟨other, hother, hserial | ⟨rfl, -⟩⟩
        · exact Or.inl ⟨other, hother, hserial⟩
        · exact Or.inr rfl
      · rintro (⟨other, hother, hserial⟩ | rfl)
        · exact ⟨other, hother, Or.inl hserial⟩
        · exact ⟨registration, hmem, Or.inr ⟨rfl, rfl⟩⟩
    have hids : id ∈ (service.grant request).requestIds ↔
        id ∈ service.requestIds ∨ id = request.id := by
      simp [requestIds, AudioService.grant]
    have hreleased : request.id ∉ service.released := fun hmem => hhandle (h.owners _ hmem)
    have hnone : id ∉ service.handles ∨ id ≠ request.id := by
      by_cases heq : id = request.id
      · exact Or.inl (heq ▸ hhandle)
      · exact Or.inr heq
    rw [hids, hplaced, h.requests]
    change _ ↔ (id ∈ service.handles ∨ _) ∧ id ∉ service.released ∧ _
    rw [Option.some_inj]
    constructor
    · rintro (⟨hor, hnot, hplace⟩ | rfl)
      · exact ⟨Or.inl (hor.resolve_right nofun), hnot, Or.inl hplace⟩
      · exact ⟨Or.inr rfl, hreleased, Or.inr rfl⟩
    · rintro ⟨hor, hnot, hplace⟩
      by_cases heq : id = request.id
      · exact Or.inr heq
      · refine Or.inl ⟨Or.inl (hor.resolve_right fun h => heq h.symm), hnot, ?_⟩
        exact hplace.resolve_right heq

end Tables

/-! ## Pieces of operations -/

/-- What is left to set are the gains of the tables. -/
def Under (service : AudioService) : Option Await → Prop
  | some (.gaining _ gains _) => gains = service.gains
  | _ => True

/-- A piece that told its caller that the operation is done. -/
def Succeeds (acts : List Act) : Prop := .completed ∈ acts ∨ ∃ id, .returned id ∈ acts

/-- The bookkeeping that a piece leaves alone while the gains are set. -/
structure Frame (before after : AudioService) : Prop where
  nextFocusId : after.nextFocusId = before.nextFocusId
  granted : after.granted = before.granted
  releasing : after.releasing = before.releasing
  released : after.released = before.released
  handles : before.handles ⊆ after.handles

theorem Frame.refl (service : AudioService) : Frame service service :=
  ⟨rfl, rfl, rfl, rfl, List.Subset.refl _⟩

/-- How a piece ends that began with sound tables. -/
structure Kept (before : AudioService) (piece : Piece) : Prop where
  sound : piece.1.Sound (asking piece.2.1)
  under : piece.1.Under piece.2.1
  exact : Succeeds piece.2.2 → piece.1.Exact
  frame : Frame before piece.1

theorem publish_frame (gains : List (String × ℚ)) (goal : Goal) :
    Frame service (service.publish gains goal).1 := by
  cases goal with
  | finish => exact ⟨rfl, rfl, rfl, rfl, List.Subset.refl _⟩
  | grant id => exact ⟨rfl, rfl, rfl, rfl, List.subset_append_left _ _⟩
  | restore id => exact ⟨rfl, rfl, rfl, rfl, List.Subset.refl _⟩

theorem publish_kept {goal : Goal} (h : service.Sound goal.asking) :
    Kept service (service.publish service.gains goal) := by
  have hexact := h.exact
  cases goal with
  | finish => exact ⟨{ h with }, trivial, fun _ => hexact, publish_frame ..⟩
  | grant id =>
    refine ⟨?_, trivial, fun _ => hexact, publish_frame ..⟩
    obtain ⟨hmem, hhandle⟩ := h.pending id rfl
    obtain ⟨-, hreleased, registration, hregistered, hgranted⟩ := (h.requests id).mp hmem
    refine { h with known := ?_, owners := ?_, pending := nofun, requests := ?_ }
    · intro other hother
      rcases List.mem_append.mp hother with hother | hother
      · exact h.known other hother
      · exact ⟨_, List.mem_singleton.mp hother ▸ hgranted⟩
    · intro other hother
      exact List.mem_append_left _ (h.owners other hother)
    · intro other
      have hhandles : other ∈ service.handles ++ [id] ↔
          other ∈ service.handles ∨ Goal.asking (.grant id) = some other := by
        simp [Goal.asking, eq_comm]
      have hrequests := h.requests other
      rw [← hhandles] at hrequests
      change other ∈ service.requestIds ↔
        (other ∈ service.handles ++ [id] ∨ none = some other) ∧
          other ∉ service.released ∧ service.Placed other
      rw [hrequests]
      simp
  | restore id =>
    refine ⟨{ h with }, trivial, ?_, publish_frame ..⟩
    rintro (hmem | ⟨other, hmem⟩) <;> simp [publish] at hmem

theorem gainNext_kept {goal : Goal} (rest : List (String × ℚ)) (h : service.Sound goal.asking) :
    Kept service (service.gainNext service.gains goal rest) := by
  cases rest with
  | nil => exact publish_kept h
  | cons gain rest =>
    refine ⟨h, rfl, ?_, .refl _⟩
    rintro (hmem | ⟨id, hmem⟩) <;> exact nomatch hmem

theorem recompute_kept {goal : Goal} (h : service.Sound goal.asking) :
    Kept service (service.recompute goal) := by
  unfold recompute
  split
  · exact gainNext_kept _ h
  · exact publish_kept h

/-- An operation that only fails, with its tables in order. -/
theorem kept_threw (h : service.Sound none) : Kept service (service, none, [.threw]) := by
  refine ⟨h, trivial, ?_, .refl _⟩
  rintro (hmem | ⟨id, hmem⟩) <;> simp at hmem

theorem gainFailed_kept {goal : Goal} (h : service.Sound goal.asking) :
    Kept service (service.gainFailed goal) := by
  cases goal with
  | finish => exact kept_threw h
  | grant id =>
    have hkept : Kept _ (AudioService.recompute _ (.restore id)) := recompute_kept h.revoke_asked
    exact ⟨hkept.sound, hkept.under, hkept.exact, { hkept.frame with }⟩
  | restore id =>
    refine ⟨h, trivial, ?_, .refl _⟩
    rintro (hmem | ⟨other, hmem⟩) <;> simp [gainFailed] at hmem

/-- What an operation finds when its turn comes: a request finds its source as it was
called for, and what sets no gains finds them set. -/
def Due (service : AudioService) : Op → Prop
  | .requestFocus request => ∃ registration ∈ service.sources,
      registration.source.id = request.sourceId ∧ registration.source.role = request.role
  | .registerSource source => service.registration? source.id = none →
      service.Exact ∧ service.published source.id = 0
  | .releaseFocus id => id ∉ service.requestIds → service.Exact
  | .unregisterSource _ | .setSourceActive _ _ => True

instance (service : AudioService) : (operation : Op) → Decidable (service.Due operation)
  | .requestFocus request => inferInstanceAs (Decidable (∃ registration ∈ service.sources,
      registration.source.id = request.sourceId ∧ registration.source.role = request.role))
  | .registerSource source => inferInstanceAs (Decidable
      (service.registration? source.id = none → service.Exact ∧ service.published source.id = 0))
  | .releaseFocus id => inferInstanceAs (Decidable (id ∉ service.requestIds → service.Exact))
  | .unregisterSource _ => isTrue trivial
  | .setSourceActive _ _ => isTrue trivial

/-- The gains in place are those of the tables with a new source as well. -/
theorem Exact.register {source : AudioSource} (h : service.Sound none) (hexact : service.Exact)
    (hnone : service.registration? source.id = none) (hzero : service.published source.id = 0) :
    (service.register source).Exact := by
  intro registration hmem
  rcases List.mem_append.mp hmem with hmem | hmem
  · exact hexact registration hmem
  · obtain rfl := List.mem_singleton.mp hmem
    have hquiet : source.id ∉ service.activeSources := by
      intro hactive
      obtain ⟨other, hother, heq⟩ := h.active _ hactive
      exact registration?_eq_none hnone other hother heq
    change service.published source.id = service.activity source * service.ducking source
    rw [hzero, activity, if_neg hquiet, zero_mul]

/-- What an operation enters when its turn comes, whatever becomes of it. -/
def noted (service : AudioService) : Op → AudioService
  | .requestFocus request => service.grant request
  | .releaseFocus id => service.settle id
  | _ => service

theorem start_kept {operation : Op} (h : service.Sound none) (hdue : service.Due operation)
    (hfresh : ∀ request, operation = .requestFocus request →
      request.id < service.nextFocusId ∧ ∀ serial, (request.id, serial) ∉ service.granted)
    (hhandle : ∀ id, operation = .releaseFocus id → id ∈ service.handles) :
    Kept (service.noted operation) (service.start operation) := by
  cases operation with
  | registerSource source =>
    simp only [start, noted]
    split
    · exact kept_threw h
    · rename_i hnone
      rw [Option.not_isSome_iff_eq_none] at hnone
      obtain ⟨hexact, hzero⟩ := hdue hnone
      exact ⟨h.register hnone, trivial, fun _ => hexact.register h hnone hzero,
        ⟨rfl, rfl, rfl, rfl, List.Subset.refl _⟩⟩
  | unregisterSource id =>
    simp only [start, noted]
    split
    · refine ⟨h, trivial, ?_, .refl _⟩
      rintro (hmem | ⟨other, hmem⟩) <;> exact nomatch hmem
    · have hkept : Kept _ ((service.unregister id).recompute .finish) :=
        recompute_kept h.unregister
      exact ⟨hkept.sound, hkept.under, hkept.exact, { hkept.frame with }⟩
  | setSourceActive id active =>
    simp only [start, noted]
    split
    · rename_i hsome
      have hkept : Kept _ ((service.setActive id active).recompute .finish) :=
        recompute_kept (h.setActive hsome)
      exact ⟨hkept.sound, hkept.under, hkept.exact, { hkept.frame with }⟩
    · exact kept_threw h
  | requestFocus request =>
    obtain ⟨hnext, hserial⟩ := hfresh request rfl
    have hgranted := h.grant hnext hserial hdue
    have hkept : Kept _ (AudioService.recompute _ (.grant request.id)) := recompute_kept hgranted
    exact hkept
  | releaseFocus id =>
    have hsettled := h.settle (hhandle id rfl)
    have hmem : (service.settle id).focusRequests.any (·.id = id) ↔ id ∈ service.requestIds := by
      simp [settle, requestIds]
    change Kept (service.settle id) (if (service.settle id).focusRequests.any (·.id = id) then
      ((service.settle id).revoke id).recompute .finish
      else (service.settle id, none, [.completed]))
    split
    · have hkept : Kept _ (((service.settle id).revoke id).recompute .finish) :=
        recompute_kept hsettled
      exact ⟨hkept.sound, hkept.under, hkept.exact, { hkept.frame with }⟩
    · rename_i hany
      have hgone : id ∉ (service.settle id).requestIds := fun hid => hany (hmem.mpr hid)
      rw [revoke_of_not_mem hgone] at hsettled
      exact ⟨hsettled, trivial, fun _ => hdue hgone, .refl _⟩

theorem goOn_kept {awaited : Await} {ok : Bool} (h : service.Sound (asking (some awaited)))
    (hunder : service.Under (some awaited)) : Kept service (service.goOn awaited ok) := by
  cases awaited with
  | muting id =>
    simp only [goOn]
    split
    · have hkept : Kept _ ((service.unregister id).recompute .finish) :=
        recompute_kept (Sound.unregister h)
      exact ⟨hkept.sound, hkept.under, hkept.exact, { hkept.frame with }⟩
    · exact kept_threw h
  | gaining rest gains goal =>
    obtain rfl : gains = service.gains := hunder
    simp only [goOn]
    split
    · exact gainNext_kept rest h
    · exact gainFailed_kept h

/-! ## Operations that wait -/

/-- Requests that wait are new, and released handles wait for their release or had it. -/
structure Books (service : AudioService) (queue : List Op) : Prop where
  next : ∀ request, .requestFocus request ∈ queue →
    request.id < service.nextFocusId ∧ ∀ serial, (request.id, serial) ∉ service.granted
  apart : (queue.filterMap Op.requested).Nodup
  asked : ∀ id, .releaseFocus id ∈ queue → id ∈ service.releasing
  waiting : ∀ id ∈ service.releasing, id ∈ service.released ∨ .releaseFocus id ∈ queue
  handed : ∀ id ∈ service.releasing, id ∈ service.handles
  settled : ∀ id ∈ service.released, id ∈ service.releasing

theorem Books.frame {after : AudioService} {queue : List Op} (h : service.Books queue)
    (hframe : Frame service after) : after.Books queue := by
  refine ⟨?_, h.apart, ?_, ?_, ?_, ?_⟩
  · rw [hframe.nextFocusId, hframe.granted]
    exact h.next
  · rw [hframe.releasing]
    exact h.asked
  · rw [hframe.releasing, hframe.released]
    exact h.waiting
  · rw [hframe.releasing]
    exact fun id hid => hframe.handles (h.handed id hid)
  · rw [hframe.releasing, hframe.released]
    exact h.settled

theorem mem_granted_grant {request : FocusRequest} {pair : ℕ × ℕ}
    (h : pair ∈ (service.grant request).granted) : pair ∈ service.granted ∨ pair.1 = request.id := by
  rcases List.mem_append.mp h with h | h
  · exact Or.inl h
  · obtain ⟨registration, -, rfl⟩ := List.mem_map.mp h
    exact Or.inr rfl

theorem Books.noted {operation : Op} {queue : List Op} (h : service.Books (operation :: queue)) :
    (service.noted operation).Books queue := by
  have hnext := fun request hmem => h.next request (List.mem_cons_of_mem operation hmem)
  have hasked := fun id hmem => h.asked id (List.mem_cons_of_mem operation hmem)
  have hwaiting : (∀ id, .releaseFocus id ≠ operation) → ∀ id ∈ service.releasing,
      id ∈ service.released ∨ .releaseFocus id ∈ queue := by
    intro hother id hid
    exact (h.waiting id hid).imp_right fun hmem => (List.mem_cons.mp hmem).resolve_left (hother id)
  cases operation with
  | requestFocus request =>
    have hapart := h.apart
    rw [List.filterMap_cons_some (f := Op.requested) rfl, List.nodup_cons] at hapart
    refine ⟨?_, hapart.2, hasked, hwaiting nofun, h.handed, h.settled⟩
    · intro other hother
      refine ⟨(hnext other hother).1, ?_⟩
      intro serial hgranted
      rcases mem_granted_grant hgranted with hgranted | heq
      · exact (hnext other hother).2 serial hgranted
      · exact hapart.1 (List.mem_filterMap.mpr ⟨_, hother, congrArg some heq⟩)
  | releaseFocus id =>
    refine ⟨hnext, h.apart, hasked, ?_, h.handed, ?_⟩
    · intro other hother
      change other ∈ service.released ++ [id] ∨ _
      rcases h.waiting other hother with hdone | hmem
      · exact Or.inl (List.mem_append_left _ hdone)
      · rcases List.mem_cons.mp hmem with heq | hmem
        · obtain rfl := Op.releaseFocus.inj heq
          exact Or.inl (by simp)
        · exact Or.inr hmem
    · intro other hother
      rcases List.mem_append.mp hother with hother | hother
      · exact h.settled other hother
      · exact List.mem_singleton.mp hother ▸ h.asked id (List.mem_cons_self ..)
  | registerSource source =>
    exact ⟨hnext, h.apart, hasked, hwaiting nofun, h.handed, h.settled⟩
  | unregisterSource source =>
    exact ⟨hnext, h.apart, hasked, hwaiting nofun, h.handed, h.settled⟩
  | setSourceActive source active =>
    exact ⟨hnext, h.apart, hasked, hwaiting nofun, h.handed, h.settled⟩

theorem Books.enqueue {queue : List Op} {operation : Op} (h : service.Books queue)
    (hrequest : ∀ request, operation ≠ .requestFocus request)
    (hrelease : ∀ id, operation ≠ .releaseFocus id) : service.Books (queue ++ [operation]) := by
  have hnone : Op.requested operation = none := by
    cases operation with
    | requestFocus request => exact absurd rfl (hrequest request)
    | _ => rfl
  refine ⟨?_, ?_, ?_, ?_, h.handed, h.settled⟩
  · intro request hmem
    exact h.next request ((List.mem_append.mp hmem).resolve_right fun hlast =>
      hrequest request (List.mem_singleton.mp hlast).symm)
  · rw [List.filterMap_append, List.filterMap_cons_none hnone, List.filterMap_nil, List.append_nil]
    exact h.apart
  · intro id hmem
    exact h.asked id ((List.mem_append.mp hmem).resolve_right fun hlast =>
      hrelease id (List.mem_singleton.mp hlast).symm)
  · intro id hid
    exact (h.waiting id hid).imp_right (List.mem_append_left _)

/-- What holds of the system after every event. -/
structure Tidy (system : System) : Prop where
  sound : system.state.Sound (asking system.current)
  under : system.state.Under system.current
  books : system.state.Books system.queue

def initial (routing : Bool) (policy : AudioFocusPolicy) : System :=
  ⟨{ routing := routing, policy := policy }, [], none⟩

theorem tidy_initial (routing : Bool) (policy : AudioFocusPolicy) :
    Tidy (initial routing policy) :=
  ⟨sound_start routing policy, trivial, by constructor <;> simp [initial]⟩

variable {system : System}

theorem Tidy.callFocus (h : Tidy system) (sourceId : String) (duckingGain : Option ℚ) :
    Tidy (callFocus system sourceId duckingGain).1 := by
  unfold AudioService.callFocus
  split
  · exact h
  dsimp only
  split_ifs with hgain
  · refine ⟨{ h.sound with grants := ?_ }, h.under, ?_⟩
    · intro pair hpair
      exact ⟨Nat.lt_succ_of_lt (h.sound.grants pair hpair).1, (h.sound.grants pair hpair).2⟩
    · refine ⟨?_, ?_, ?_, ?_, h.books.handed, h.books.settled⟩
      · intro request hmem
        rcases List.mem_append.mp hmem with hmem | hmem
        · exact ⟨Nat.lt_succ_of_lt (h.books.next request hmem).1, (h.books.next request hmem).2⟩
        · obtain rfl := Op.requestFocus.inj (List.mem_singleton.mp hmem)
          refine ⟨Nat.lt_succ_self _, ?_⟩
          intro serial hgranted
          exact Nat.lt_irrefl _ (h.sound.grants _ hgranted).1
      · change ((system.queue ++ [_]).filterMap Op.requested).Nodup
        rw [List.filterMap_append]
        refine List.nodup_append.mpr ⟨h.books.apart, List.nodup_singleton _, ?_⟩
        intro id hid other hother
        obtain ⟨operation, hmem, hrequested⟩ := List.mem_filterMap.mp hid
        obtain rfl := List.mem_singleton.mp hother
        cases operation with
        | requestFocus request =>
          obtain rfl := Option.some.inj hrequested
          exact Nat.ne_of_lt (h.books.next request hmem).1
        | _ => exact nomatch hrequested
      · intro id hmem
        exact h.books.asked id ((List.mem_append.mp hmem).resolve_right (by simp))
      · intro id hid
        exact (h.books.waiting id hid).imp_right (List.mem_append_left _)
  · exact h

theorem Tidy.callRelease (h : Tidy system) (id : ℕ) : Tidy (callRelease system id).1 := by
  unfold AudioService.callRelease
  split_ifs with hid
  · refine ⟨{ h.sound with }, h.under, ?_, ?_, ?_, ?_, ?_, ?_⟩
    · intro request hmem
      exact h.books.next request ((List.mem_append.mp hmem).resolve_right (by simp))
    · change ((system.queue ++ [_]).filterMap Op.requested).Nodup
      rw [List.filterMap_append]
      exact (List.append_nil _).symm ▸ h.books.apart
    · intro other hmem
      rcases List.mem_append.mp hmem with hmem | hmem
      · exact List.mem_append_left _ (h.books.asked other hmem)
      · exact List.mem_append_right _ (by simpa using hmem)
    · intro other hmem
      rcases List.mem_append.mp hmem with hmem | hmem
      · exact (h.books.waiting other hmem).imp_right (List.mem_append_left _)
      · obtain rfl := List.mem_singleton.mp hmem
        exact Or.inr (List.mem_append_right _ (List.mem_singleton_self _))
    · intro other hmem
      rcases List.mem_append.mp hmem with hmem | hmem
      · exact h.books.handed other hmem
      · exact List.mem_singleton.mp hmem ▸ hid.1
    · intro other hmem
      exact List.mem_append_left _ (h.books.settled other hmem)
  · exact h

/-- The operation that takes its turn. -/
def turn (system : System) : Event → Option Op
  | .next => if system.current.isNone then system.queue.head? else none
  | _ => none

/-- The operation that takes its turn finds what it needs. -/
def Ready (system : System) (event : Event) : Prop :=
  ∀ operation ∈ turn system event, system.state.Due operation

instance (system : System) (event : Event) : Decidable (Ready system event) :=
  inferInstanceAs (Decidable (∀ operation ∈ turn system event, _))

/-- An operation that takes its turn, and how its first piece ends. -/
theorem Tidy.start_kept {operation : Op} {rest : List Op} (h : Tidy system)
    (hcurrent : system.current = none) (hqueue : system.queue = operation :: rest)
    (hready : Ready system .next) :
    Kept (system.state.noted operation) (system.state.start operation) := by
  have hsound := h.sound
  have hbooks := h.books
  rw [hcurrent] at hsound
  rw [hqueue] at hbooks
  have hdue : system.state.Due operation := hready operation (by simp [turn, hcurrent, hqueue])
  refine AudioService.start_kept hsound hdue ?_ ?_
  · rintro request rfl
    exact hbooks.next request (List.mem_cons_self ..)
  · rintro id rfl
    exact hbooks.handed id (hbooks.asked id (List.mem_cons_self ..))

theorem Tidy.goOn_kept {awaited : Await} {ok : Bool} (h : Tidy system)
    (hcurrent : system.current = some awaited) :
    Kept system.state (system.state.goOn awaited ok) := by
  have hsound := h.sound
  have hunder := h.under
  rw [hcurrent] at hsound hunder
  exact AudioService.goOn_kept hsound hunder

/-- Every event keeps the tables in order, and success means that the gains are set. -/
theorem Tidy.step {event : Event} (h : Tidy system) (hready : Ready system event) :
    Tidy (step system event).1 ∧
      (Succeeds (step system event).2 → (AudioService.step system event).1.state.Exact) := by
  have hquiet : ∀ acts : List Act, (∀ act ∈ acts, act = .threw) → ¬Succeeds acts := by
    rintro acts hacts (hmem | ⟨id, hmem⟩) <;> exact nomatch hacts _ hmem
  cases event with
  | call called =>
    cases called with
    | registerSource source =>
      exact ⟨⟨h.sound, h.under, h.books.enqueue nofun nofun⟩, fun hs => (hquiet [] nofun hs).elim⟩
    | unregisterSource id =>
      exact ⟨⟨h.sound, h.under, h.books.enqueue nofun nofun⟩, fun hs => (hquiet [] nofun hs).elim⟩
    | setSourceActive id active =>
      exact ⟨⟨h.sound, h.under, h.books.enqueue nofun nofun⟩, fun hs => (hquiet [] nofun hs).elim⟩
    | requestFocus sourceId duckingGain =>
      refine ⟨h.callFocus sourceId duckingGain, fun hs => (hquiet _ ?_ hs).elim⟩
      intro act hact
      simp only [AudioService.step, call, AudioService.callFocus] at hact
      split at hact
      · exact List.mem_singleton.mp hact
      · split_ifs at hact
        · exact nomatch hact
        · exact List.mem_singleton.mp hact
    | release id =>
      refine ⟨h.callRelease id, fun hs => (hquiet _ ?_ hs).elim⟩
      intro act hact
      simp only [AudioService.step, call, AudioService.callRelease] at hact
      split_ifs at hact <;> exact nomatch hact
  | next =>
    change Tidy (system.next body).1 ∧
      (Succeeds (system.next body).2 → (system.next body).1.state.Exact)
    unfold Serial.next
    split
    · rename_i hcurrent hqueue
      have hkept := h.start_kept hcurrent hqueue hready
      have hbooks := h.books
      rw [hqueue] at hbooks
      exact ⟨⟨hkept.sound, hkept.under, hbooks.noted.frame hkept.frame⟩, hkept.exact⟩
    · exact ⟨h, fun hs => (hquiet [] nofun hs).elim⟩
  | reply ok =>
    change Tidy (system.reply body ok).1 ∧
      (Succeeds (system.reply body ok).2 → (system.reply body ok).1.state.Exact)
    unfold Serial.reply
    split
    · rename_i hcurrent
      have hkept : Kept system.state (system.state.goOn _ ok) := h.goOn_kept hcurrent
      exact ⟨⟨hkept.sound, hkept.under, h.books.frame hkept.frame⟩, hkept.exact⟩
    · exact ⟨h, fun hs => (hquiet [] nofun hs).elim⟩
  | backend routing =>
    exact ⟨⟨{ h.sound with }, h.under, { h.books with }⟩, fun hs => (hquiet [] nofun hs).elim⟩

/-! ## Requests that are refused -/

/-- The request was called for and took its turn at some event of the run, where the
requests were these. -/
def Asked (start : System) (events : List Event) (id : ℕ) (requests : List FocusRequest) : Prop :=
  ∃ earlier later request, events = earlier ++ .next :: later ∧
    turn (run step start earlier).1 .next = some (.requestFocus request) ∧ request.id = id ∧
    (run step start earlier).1.state.focusRequests = requests

theorem Asked.concat {start : System} {events : List Event} {id : ℕ}
    {requests : List FocusRequest} (h : Asked start events id requests) (event : Event) :
    Asked start (events ++ [event]) id requests := by
  obtain ⟨earlier, later, request, rfl, h⟩ := h
  exact ⟨earlier, later ++ [event], request, by simp, h⟩

/-- The requests while one more is on its way to be granted, or taken back. -/
def Pursues (base : List FocusRequest) (service : AudioService) : Goal → Prop
  | .finish => True
  | .grant id => ∃ request, service.focusRequests = base ++ [request] ∧ request.id = id ∧
      ∀ other ∈ base, other.id ≠ id
  | .restore _ => service.focusRequests = base

/-- A piece on the way to a goal. -/
structure Toward (service : AudioService) (goal : Goal) (piece : Piece) : Prop where
  requests : piece.1.focusRequests = service.focusRequests
  await : ∀ rest gains other, piece.2.1 = some (.gaining rest gains other) → other = goal
  refused : ∀ id, .refused id ∈ piece.2.2 → goal = .restore id

theorem publish_toward (gains : List (String × ℚ)) (goal : Goal) :
    Toward service goal (service.publish gains goal) := by
  cases goal with
  | finish => exact ⟨rfl, nofun, by simp [publish]⟩
  | grant id => exact ⟨rfl, nofun, by simp [publish]⟩
  | restore id => exact ⟨rfl, nofun, by simp [publish, eq_comm]⟩

theorem gainNext_toward (gains : List (String × ℚ)) (goal : Goal) (rest : List (String × ℚ)) :
    Toward service goal (service.gainNext gains goal rest) := by
  cases rest with
  | nil => exact publish_toward gains goal
  | cons gain rest =>
    refine ⟨rfl, ?_, by simp [gainNext]⟩
    intro rest' gains' other h
    cases h
    rfl

theorem recompute_toward (goal : Goal) : Toward service goal (service.recompute goal) := by
  unfold recompute
  split
  · exact gainNext_toward ..
  · exact publish_toward ..

/-- A piece that answers nobody's request. -/
def Aside (piece : Piece) : Prop :=
  (∀ rest gains goal, piece.2.1 = some (.gaining rest gains goal) → goal.requester = none) ∧
    ∀ id, .refused id ∉ piece.2.2

theorem Toward.aside {piece : Piece} (h : Toward service .finish piece) : Aside piece := by
  constructor
  · intro rest gains goal hawait
    rw [h.await rest gains goal hawait]
    rfl
  · intro id hmem
    exact nomatch h.refused id hmem

theorem start_aside {operation : Op} (h : ∀ request, operation ≠ .requestFocus request) :
    Aside (service.start operation) := by
  cases operation with
  | requestFocus request => exact absurd rfl (h request)
  | registerSource source =>
    simp only [start]
    split <;> exact ⟨nofun, by simp⟩
  | unregisterSource id =>
    simp only [start]
    split
    · exact ⟨nofun, by simp⟩
    · exact (recompute_toward _).aside
  | setSourceActive id active =>
    simp only [start]
    split
    · exact (recompute_toward _).aside
    · exact ⟨nofun, by simp⟩
  | releaseFocus id =>
    simp only [start]
    split
    · exact (recompute_toward _).aside
    · exact ⟨nofun, by simp⟩

theorem goOn_aside {awaited : Await} {ok : Bool}
    (h : ∀ rest gains goal, awaited = .gaining rest gains goal → goal.requester = none) :
    Aside (service.goOn awaited ok) := by
  cases awaited with
  | muting id =>
    simp only [goOn]
    split
    · exact (recompute_toward _).aside
    · exact ⟨nofun, by simp⟩
  | gaining rest gains goal =>
    have hnone := h rest gains goal rfl
    cases goal with
    | finish =>
      simp only [goOn, gainFailed]
      split
      · exact (gainNext_toward ..).aside
      · exact ⟨nofun, by simp⟩
    | grant id => exact nomatch hnone
    | restore id => exact nomatch hnone

/-- A piece that works on a request, given the requests there were without it. -/
structure Answers (base : List FocusRequest) (id : ℕ) (piece : Piece) : Prop where
  await : ∀ rest gains goal, piece.2.1 = some (.gaining rest gains goal) →
    goal.requester = some id ∧ Pursues base piece.1 goal
  refused : ∀ other, .refused other ∈ piece.2.2 → other = id ∧ piece.1.focusRequests = base

theorem Toward.answers {base : List FocusRequest} {id : ℕ} {goal : Goal} {piece : Piece}
    (h : Toward service goal piece) (hid : goal.requester = some id)
    (hpursues : Pursues base service goal) : Answers base id piece := by
  constructor
  · intro rest gains other hawait
    obtain rfl := h.await rest gains other hawait
    refine ⟨hid, ?_⟩
    cases other with
    | finish => trivial
    | grant id => simpa only [Pursues, h.requests] using hpursues
    | restore id => simpa only [Pursues, h.requests] using hpursues
  · intro other hmem
    obtain rfl := h.refused other hmem
    exact ⟨Option.some.inj hid, h.requests.trans hpursues⟩

theorem goOn_answers {base : List FocusRequest} {id : ℕ} {rest gains : List (String × ℚ)}
    {goal : Goal} {ok : Bool} (hid : goal.requester = some id)
    (hpursues : Pursues base service goal) :
    Answers base id (service.goOn (.gaining rest gains goal) ok) := by
  simp only [goOn]
  split
  · exact (gainNext_toward gains goal rest).answers hid hpursues
  · cases goal with
    | finish => exact nomatch hid
    | grant asked =>
      obtain ⟨request, hrequests, rfl, hothers⟩ := hpursues
      refine (recompute_toward (.restore request.id)).answers hid ?_
      change (service.revoke request.id).focusRequests = base
      rw [revoke, hrequests, List.filter_append, List.filter_eq_self.mpr]
      · simp
      · exact fun other hother => decide_eq_true (hothers other hother)
    | restore asked =>
      refine ⟨nofun, ?_⟩
      intro other hmem
      obtain rfl := Act.refused.inj (List.mem_singleton.mp hmem)
      exact ⟨Option.some.inj hid, hpursues⟩

/-- A request under way was asked for, with the requests that are there without it. -/
def Followed (start : System) (events : List Event) (system : System) : Prop :=
  ∀ rest gains goal id, system.current = some (.gaining rest gains goal) →
    goal.requester = some id → ∃ base, Asked start events id base ∧ Pursues base system.state goal

/-- A request that was refused has left the requests as it found them. -/
def Undone (start : System) (events : List Event) (after : System × List Act) : Prop :=
  ∀ id, .refused id ∈ after.2 → ∃ base, Asked start events id base ∧
    after.1.state.focusRequests = base

theorem Followed.same {start : System} {events : List Event} (h : Followed start events system)
    {event : Event} {after : System × List Act} (hcurrent : after.1.current = system.current)
    (hrequests : after.1.state.focusRequests = system.state.focusRequests)
    (hacts : ∀ id, .refused id ∉ after.2) :
    Followed start (events ++ [event]) after.1 ∧ Undone start (events ++ [event]) after := by
  refine ⟨?_, fun id hmem => absurd hmem (hacts id)⟩
  intro rest gains goal id hawait hid
  rw [hcurrent] at hawait
  obtain ⟨base, hasked, hpursues⟩ := h rest gains goal id hawait hid
  refine ⟨base, hasked.concat event, ?_⟩
  cases goal with
  | finish => trivial
  | grant asked => simpa only [Pursues, hrequests] using hpursues
  | restore asked => simpa only [Pursues, hrequests] using hpursues

theorem call_same (system : System) (called : Call) :
    (call system called).1.current = system.current ∧
      (call system called).1.state.focusRequests = system.state.focusRequests ∧
      ∀ id, .refused id ∉ (call system called).2 := by
  cases called with
  | requestFocus sourceId duckingGain =>
    simp only [call, callFocus]
    split
    · exact ⟨rfl, rfl, by simp⟩
    · split_ifs <;> exact ⟨rfl, rfl, by simp⟩
  | release id =>
    simp only [call, callRelease]
    split_ifs <;> exact ⟨rfl, rfl, by simp⟩
  | registerSource source => exact ⟨rfl, rfl, nofun⟩
  | unregisterSource id => exact ⟨rfl, rfl, nofun⟩
  | setSourceActive id active => exact ⟨rfl, rfl, nofun⟩

theorem Answers.followed {start : System} {events : List Event} {base : List FocusRequest} {id : ℕ}
    {piece : Piece} {queue : List Op} (h : Answers base id piece)
    (hasked : Asked start events id base) :
    Followed start events ⟨piece.1, queue, piece.2.1⟩ ∧
      Undone start events (⟨piece.1, queue, piece.2.1⟩, piece.2.2) := by
  constructor
  · intro rest gains goal other hawait hother
    obtain ⟨hid, hpursues⟩ := h.await rest gains goal hawait
    obtain rfl := Option.some.inj (hid.symm.trans hother)
    exact ⟨base, hasked, hpursues⟩
  · intro other hmem
    obtain ⟨rfl, hrequests⟩ := h.refused other hmem
    exact ⟨base, hasked, hrequests⟩

theorem Aside.followed {start : System} {events : List Event} {piece : Piece} {queue : List Op}
    (h : Aside piece) : Followed start events ⟨piece.1, queue, piece.2.1⟩ ∧
      Undone start events (⟨piece.1, queue, piece.2.1⟩, piece.2.2) := by
  constructor
  · intro rest gains goal id hawait hid
    rw [h.1 rest gains goal hawait] at hid
    exact nomatch hid
  · exact fun id hmem => absurd hmem (h.2 id)

theorem Followed.step {start : System} {events : List Event} {event : Event} (h : Tidy system)
    (hfollowed : Followed start events system) (hsystem : (run step start events).1 = system)
    (hready : Ready system event) :
    Followed start (events ++ [event]) (AudioService.step system event).1 ∧
      Undone start (events ++ [event]) (AudioService.step system event) := by
  cases event with
  | call called =>
    obtain ⟨hcurrent, hrequests, hacts⟩ := call_same system called
    exact hfollowed.same hcurrent hrequests hacts
  | backend routing => exact hfollowed.same rfl rfl nofun
  | next =>
    change Followed start _ (system.next body).1 ∧ Undone start _ (system.next body)
    unfold Serial.next
    split
    · rename_i operation rest hcurrent hqueue
      by_cases hrequest : ∃ request, operation = .requestFocus request
      · obtain ⟨request, rfl⟩ := hrequest
        have hsound := h.sound
        rw [hcurrent] at hsound
        have hnew := (h.books.next request (hqueue ▸ List.mem_cons_self ..)).2
        have hasked : Asked start (events ++ [.next]) request.id system.state.focusRequests :=
          ⟨events, [], request, rfl, by simp [turn, hsystem, hcurrent, hqueue], rfl,
            by rw [hsystem]⟩
        refine Answers.followed ?_ hasked
        refine (recompute_toward (.grant request.id)).answers rfl ⟨request, rfl, rfl, ?_⟩
        intro other hother heq
        obtain ⟨registration, -, -, -, hgranted⟩ := hsound.owned other hother
        exact hnew _ (heq ▸ hgranted)
      · exact (start_aside fun request heq => hrequest ⟨request, heq⟩).followed
    · exact hfollowed.same rfl rfl nofun
  | reply ok =>
    change Followed start _ (system.reply body ok).1 ∧ Undone start _ (system.reply body ok)
    unfold Serial.reply
    split
    · rename_i awaited hcurrent
      by_cases hasked : ∃ rest gains goal id, awaited = .gaining rest gains goal ∧
          goal.requester = some id
      · obtain ⟨rest, gains, goal, id, rfl, hid⟩ := hasked
        obtain ⟨base, hbase, hpursues⟩ := hfollowed rest gains goal id hcurrent hid
        exact (goOn_answers hid hpursues).followed (hbase.concat _)
      · refine (goOn_aside ?_).followed
        intro rest gains goal heq
        by_contra hsome
        obtain ⟨id, hid⟩ := Option.ne_none_iff_exists'.mp hsome
        exact hasked ⟨rest, gains, goal, id, heq, hid⟩
    · exact hfollowed.same rfl rfl nofun

theorem tidy_run {routing : Bool} {policy : AudioFocusPolicy} {events : List Event}
    (h : Along step Ready (initial routing policy) events) :
    Tidy (run step (initial routing policy) events).1 ∧
      Followed (initial routing policy) events (run step (initial routing policy) events).1 := by
  refine along_induction step (I := fun events =>
    Tidy (run step (initial routing policy) events).1 ∧
      Followed (initial routing policy) events (run step (initial routing policy) events).1)
    ⟨tidy_initial routing policy, nofun⟩ ?_ events h
  rintro events event ⟨htidy, hfollowed⟩ hready
  rw [run_concat]
  exact ⟨(htidy.step hready).1, (hfollowed.step htidy rfl hready).1⟩

/-- In a run whose operations find what they need: whenever none is under way, the
requests are the handles that are out and whose registration is still in place; a
request that is refused leaves the others as they were; and after an operation that
succeeds the gains are those of the tables. -/
theorem focus_owned (routing : Bool) (policy : AudioFocusPolicy) (events : List Event)
    (h : Along step Ready (initial routing policy) events) :
    let system := (run step (initial routing policy) events).1
    (system.current = none → system.queue = [] →
      (∀ request ∈ system.state.focusRequests, ∃ registration ∈ system.state.sources,
        registration.source.id = request.sourceId) ∧
      ∀ id, id ∈ system.state.requestIds ↔
        id ∈ system.state.handles ∧ id ∉ system.state.releasing ∧ system.state.Placed id) ∧
    ∀ event, Ready system event →
      Undone (initial routing policy) (events ++ [event]) (step system event) ∧
      (Succeeds (step system event).2 → (step system event).1.state.Exact) := by
  intro system
  obtain ⟨htidy, hfollowed⟩ := tidy_run h
  refine ⟨?_, fun event hready =>
    ⟨(hfollowed.step htidy rfl hready).2, (htidy.step hready).2⟩⟩
  intro hcurrent hqueue
  have hsound := htidy.sound
  change system.state.Sound (asking system.current) at hsound
  rw [hcurrent] at hsound
  have hbooks := htidy.books
  change system.state.Books system.queue at hbooks
  rw [hqueue] at hbooks
  constructor
  · intro request hrequest
    obtain ⟨registration, hmem, hid, -⟩ := hsound.owned request hrequest
    exact ⟨registration, hmem, hid⟩
  · intro id
    have hreleased : id ∈ system.state.released ↔ id ∈ system.state.releasing :=
      ⟨hbooks.settled id, fun hid => (hbooks.waiting id hid).resolve_right nofun⟩
    rw [hsound.requests id, hreleased]
    simp [asking]

/-- No gain at all for whoever gives way. -/
def silencing : AudioFocusPolicy := ⟨⟨0, by decide⟩, ⟨0, by decide⟩, ⟨0, by decide⟩⟩

def guidance : AudioSource := ⟨"guidance", .navigation, ⟨1, UnitGain.one_unit⟩⟩

def orderly : List Event :=
  [.call (.registerSource guidance), .next, .call (.requestFocus "guidance" none), .next]

theorem orderly_owned :
    (run step (initial false silencing) orderly).1.state.requestIds = [1] ∧
    ∀ id, id ∈ (run step (initial false silencing) orderly).1.state.requestIds ↔
      id ∈ (run step (initial false silencing) orderly).1.state.handles ∧
        id ∉ (run step (initial false silencing) orderly).1.state.releasing ∧
        (run step (initial false silencing) orderly).1.state.Placed id :=
  ⟨by decide, ((focus_owned false silencing orderly (by decide)).1 (by decide) (by decide)).2⟩

/-- A request that is called for while its source is being removed. -/
def orphaned : List Event :=
  [.call (.registerSource guidance), .next, .call (.unregisterSource "guidance"),
    .call (.requestFocus "guidance" none), .next, .next]

/-- A source is heard natively but not published, and another one is registered. -/
def stale : List Event :=
  [.call (.registerSource guidance), .next, .call (.setSourceActive "guidance" true), .next,
    .reply false, .call (.registerSource ⟨"radio", .media, ⟨1, UnitGain.one_unit⟩⟩)]

theorem orphaned_ducks :
    ((run step (initial false silencing) orphaned).1.current = none ∧
      (run step (initial false silencing) orphaned).1.queue = [] ∧
      ¬∀ request ∈ (run step (initial false silencing) orphaned).1.state.focusRequests,
        ∃ registration ∈ (run step (initial false silencing) orphaned).1.state.sources,
          registration.source.id = request.sourceId) ∧
    (step (run step (initial true silencing) stale).1 .next).2 = [.completed] ∧
      ¬(step (run step (initial true silencing) stale).1 .next).1.state.Exact := by
  decide +kernel

end AudioService

end ProjectArgo.Audio
