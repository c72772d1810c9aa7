import ProjectArgo.Connectivity.Clients

/-!
# One client after another

Only the client that holds the lease is served. If a client takes the lease when everything
of those before it has been cleaned up, nothing is cleaned up while it holds the lease, and
what the worker performs is what this client asked for.
-/
namespace ProjectArgo.Connectivity.Clients

open Library Library.Run

/-! ## What a step does -/

namespace Client

/-- The permit is among the values of the task. -/
def holds : Client → Bool
  | .greeting => false
  | .leaving (.release :: _) => true
  | .leaving _ => false
  | _ => true

/-- What a task releases that held the lease. -/
def full : List Update := [.release, .disable, .cancelCalls, .cancelMusic, .signal]

theorem departure_cases (client : Client) :
    client.departure = [] ∨ client.departure = full ∧ client.holds := by
  cases client with
  | replying => exact .inr ⟨rfl, rfl⟩
  | serving revision => exact .inr ⟨rfl, rfl⟩
  | greeting | acquired | cleared | requesting | leaving => exact .inl rfl

end Client

/-- The client that an act is for. -/
def Act.asker : Act → Option ℕ
  | .configured id => some id
  | .commanded id => some id
  | .advanced id => some id
  | .taken id _ => some id
  | _ => none

def System.Holds (system : System) (id : ℕ) : Prop :=
  ∃ client, system.clients.lookup id = some client ∧ client.holds

/-- A step changes no more than where a client is. -/
structure Same (system after : System) : Prop where
  lease : after.lease = system.lease
  requests : after.control.requests = system.control.requests
  clientClosed : after.control.clientClosed = system.control.clientClosed
  closedSeen : after.closedSeen = system.closedSeen
  worker : after.worker = system.worker

theorem Same.refl (system : System) : Same system system := ⟨rfl, rfl, rfl, rfl, rfl⟩

theorem Same.put (system : System) (id : ℕ) (client : Client) :
    Same system (system.put id client) := ⟨rfl, rfl, rfl, rfl, rfl⟩

inductive Effect (system : System) (event : Event) (after : System) (acts : List Act) : Prop
  | quiet (hclients : after.clients = system.clients) (hsame : Same system after)
      (hacts : ∀ act ∈ acts, ∃ id, act = .commanded id ∧ system.Holds id)
  | moved (id : ℕ) (next : Client) (hclients : after.clients = Assoc.put system.clients id next)
      (hsame : Same system after) (hholds : next.holds → system.Holds id)
      (hrest : next.rest = [] ∨ next.rest = Client.full)
      (hstays : ∀ rest, system.clients.lookup id ≠ some (.leaving rest))
      (hacts : ∀ act ∈ acts, (act = .configured id ∨ act = .advanced id) ∧ system.Holds id)
  | acquired (id : ℕ) (hevent : event = .message id (.hello true)) (hlease : system.lease = none)
      (hclient : system.clients.lookup id = some .greeting)
      (hafter : after = { system with lease := some id }.put id .acquired)
      (hacts : acts = [.acquired id])
  | taken (id revision : ℕ) (request : Request) (hholds : system.Holds id)
      (hstays : ∀ rest, system.clients.lookup id ≠ some (.leaving rest))
      (hclients : after.clients = Assoc.put system.clients id (.serving revision))
      (hsame : Same { system with control :=
        { system.control with requests := system.control.requests ++ [request] } } after)
      (hacts : acts = [.taken id request])
  | updated (id : ℕ) (update : Update) (rest : List Update)
      (hclient : system.clients.lookup id = some (.leaving (update :: rest)))
      (hafter : after = (system.update update).put id (.leaving rest))
      (hacts : acts = [.updated (some id) update])
  | noticed (hworker : system.worker = .waiting)
      (hseen : system.closedSeen ≠ system.control.clientClosed)
      (hafter : after = { system with
        closedSeen := system.control.clientClosed, worker := .closing closing })
      (hacts : acts = [])
  | received (request : Request) (rest : List Request) (hworker : system.worker = .waiting)
      (hrequests : system.control.requests = request :: rest)
      (hafter : after = { system with
        control := { system.control with requests := rest }, worker := .performing request })
      (hacts : acts = [])
  | performed (request : Request) (hworker : system.worker = .performing request)
      (hclients : after.clients = system.clients)
      (hsame : Same { system with worker := .waiting } after)
      (hacts : acts = [] ∨ acts = [.performed request])
  | closed (update : Update) (rest : List Update)
      (hworker : system.worker = .closing (update :: rest))
      (hafter : after = { system.update update with worker := .closing rest })
      (hacts : acts = [.updated none update])
  | rested (hworker : system.worker = .closing [])
      (hafter : after = { system with worker := .waiting }) (hacts : acts = [])

/-- What `Control::request` leaves alone. -/
theorem advance_same (control : Control) (taking : Taking) :
    let next := control.advance taking
    next.1.clientClosed = control.clientClosed ∧
      match next.2 with
      | .taken request => next.1.requests = control.requests ++ [request]
      | _ => next.1.requests = control.requests := by
  obtain ⟨request, stage, matched⟩ := taking
  cases stage
  case matching => exact ⟨rfl, rfl⟩
  case stamping => exact ⟨rfl, rfl⟩
  all_goals
    simp only [Control.advance]
    split_ifs <;> exact ⟨rfl, rfl⟩

theorem effect_leave {system : System} {event : Event} {id : ℕ} {client : Client}
    (hclient : system.clients.lookup id = some client)
    (hstays : ∀ rest, client ≠ .leaving rest) :
    Effect system event (system.leave id client) [] := by
  refine .moved id (.leaving client.departure) rfl (Same.put ..) ?_ ?_ ?_ (by simp)
  · intro hholds
    rcases client.departure_cases with hnone | ⟨-, hclientHolds⟩
    · rw [hnone] at hholds
      cases hholds
    · exact ⟨client, hclient, hclientHolds⟩
  · exact client.departure_cases.imp_right And.left
  · intro rest hleaving
    rw [hclient] at hleaving
    exact hstays rest (Option.some.inj hleaving)

theorem effect_message (system : System) (id : ℕ) (message : Message) :
    Effect system (.message id message) (system.message id message).1
      (system.message id message).2 := by
  have hsame : Effect system (.message id message) system [] := .quiet rfl (Same.refl system) (by simp)
  unfold System.message
  split
  · rename_i hclient
    have hleave : Effect system (.message id message) (system.leave id .greeting) [] :=
      effect_leave hclient (by simp)
    unfold System.greet
    split
    · split
      · rename_i hlease
        exact .acquired id rfl hlease hclient rfl rfl
      · exact hleave
    · exact hleave
  · rename_i revision hclient
    have hholds : system.Holds id := ⟨_, hclient, rfl⟩
    have hstays : ∀ rest, system.clients.lookup id ≠ some (.leaving rest) := by
      intro rest hleaving
      rw [hclient] at hleaving
      cases hleaving
    have hleave : Effect system (.message id message) (system.leave id (.serving revision)) [] :=
      effect_leave hclient (by simp)
    unfold System.serve
    split
    · split
      · exact hsame
      · exact .moved id _ rfl (Same.put ..) (fun _ => hholds) (.inl rfl) hstays (by simp)
    · exact hleave
    · split
      · exact hleave
      · refine .moved id _ rfl (Same.put ..) (fun _ => hholds) (.inl rfl) hstays ?_
        intro act hact
        split at hact
        · exact ⟨.inl (List.mem_singleton.mp hact), hholds⟩
        · cases hact
    · refine .quiet rfl (Same.refl system) ?_
      intro act hact
      split at hact
      · exact ⟨id, List.mem_singleton.mp hact, hholds⟩
      · cases hact
    · exact hsame
  · exact hsame

theorem effect_work (system : System) (id : ℕ) :
    Effect system (.work id) (system.work id).1 (system.work id).2 := by
  unfold System.work
  split
  · rename_i hclient
    refine .moved id _ rfl ⟨rfl, rfl, rfl, rfl, rfl⟩ (fun _ => ⟨_, hclient, rfl⟩) (.inl rfl) ?_
      (by simp)
    intro rest hleaving
    rw [hclient] at hleaving
    cases hleaving
  · rename_i hclient
    refine .moved id _ rfl ⟨rfl, rfl, rfl, rfl, rfl⟩ (fun _ => ⟨_, hclient, rfl⟩) (.inl rfl) ?_
      (by simp)
    intro rest hleaving
    rw [hclient] at hleaving
    cases hleaving
  · rename_i revision taking hclient
    have hholds : system.Holds id := ⟨_, hclient, rfl⟩
    have hstays : ∀ rest, system.clients.lookup id ≠ some (.leaving rest) := by
      intro rest hleaving
      rw [hclient] at hleaving
      cases hleaving
    obtain ⟨hclosed, hrequests⟩ := advance_same system.control taking
    have hacts : ∀ act ∈ [Act.advanced id],
        (act = .configured id ∨ act = .advanced id) ∧ system.Holds id := by
      intro act hact
      exact ⟨.inr (List.mem_singleton.mp hact), hholds⟩
    split
    · rename_i control next hadvance
      rw [hadvance] at hclosed hrequests
      exact .moved id _ rfl ⟨rfl, hrequests, hclosed, rfl, rfl⟩ (fun _ => hholds) (.inl rfl)
        hstays hacts
    · rename_i control message hadvance
      rw [hadvance] at hclosed hrequests
      exact .moved id _ rfl ⟨rfl, hrequests, hclosed, rfl, rfl⟩ (fun _ => hholds) (.inl rfl)
        hstays hacts
    · rename_i control request hadvance
      rw [hadvance] at hclosed hrequests
      exact .taken id revision request hholds hstays rfl ⟨rfl, hrequests, hclosed, rfl, rfl⟩ rfl
  · rename_i update rest hclient
    exact .updated id update rest hclient rfl rfl
  · exact .quiet rfl (Same.refl system) (by simp)

theorem effect_perform (system : System) (done : Bool) :
    Effect system (.perform done) (system.perform done).1 (system.perform done).2 := by
  unfold System.perform
  split
  · rename_i request hworker
    dsimp only
    split_ifs
    · exact .performed request hworker rfl ⟨rfl, rfl, rfl, rfl, rfl⟩ (.inl rfl)
    all_goals exact .performed request hworker rfl ⟨rfl, rfl, rfl, rfl, rfl⟩ (.inr rfl)
  · exact .quiet rfl (Same.refl system) (by simp)

theorem effect_step (system : System) (event : Event) :
    Effect system event (System.step system event).1 (System.step system event).2 := by
  have hsame : Effect system event system [] := .quiet rfl (Same.refl system) (by simp)
  cases event with
  | connect id =>
    simp only [System.step]
    split
    · rename_i hclient
      refine .moved id .greeting rfl (Same.put ..) (by rintro ⟨⟩) (.inl rfl) ?_ nofun
      intro rest hleaving
      rw [hclient] at hleaving
      cases hleaving
    · exact hsame
  | message id message => exact effect_message system id message
  | work id => exact effect_work system id
  | replied id sent =>
    simp only [System.step]
    split
    · rename_i hclient
      cases sent with
      | true =>
        refine .moved id (.serving 0) rfl (Same.put ..) (fun _ => ⟨_, hclient, rfl⟩) (.inl rfl)
          ?_ (by simp)
        intro rest hleaving
        rw [hclient] at hleaving
        cases hleaving
      | false => exact effect_leave hclient (by simp)
    · exact hsame
  | leave id =>
    simp only [System.step]
    split
    · rename_i hclient
      exact effect_leave hclient (by simp)
    · rename_i hclient
      exact effect_leave hclient (by simp)
    · rename_i revision hclient
      exact effect_leave hclient (by simp)
    · exact hsame
  | notice =>
    simp only [System.step]
    split
    · rename_i hnotice
      exact .noticed hnotice.1 hnotice.2 rfl rfl
    · exact hsame
  | receive =>
    simp only [System.step]
    split
    · rename_i request rest hworker hrequests
      exact .received request rest hworker hrequests rfl rfl
    · exact hsame
  | perform done => exact effect_perform system done
  | close =>
    simp only [System.step]
    split
    · rename_i update rest hworker
      exact .closed update rest hworker rfl rfl
    · rename_i hworker
      exact .rested hworker rfl rfl
    · exact hsame

/-! ## Conditions -/

/-- A client takes the lease when the tasks of the clients before it have cleaned up and the
worker has closed down for them. -/
def Settled (system : System) : Event → Prop
  | .message id (.hello true) =>
    system.clients.lookup id = some .greeting ∧ system.lease = none →
      (∀ entry ∈ system.clients, entry.2.rest = []) ∧ system.worker = .waiting ∧
        system.closedSeen = system.control.clientClosed
  | _ => True

instance (system : System) : (event : Event) → Decidable (Settled system event)
  | .message id (.hello true) =>
    inferInstanceAs (Decidable (system.clients.lookup id = some .greeting ∧ system.lease = none →
      (∀ entry ∈ system.clients, entry.2.rest = []) ∧ system.worker = .waiting ∧
        system.closedSeen = system.control.clientClosed))
  | .message _ (.hello false) => isTrue trivial
  | .message _ (.connectivity ..) => isTrue trivial
  | .message _ (.display ..) => isTrue trivial
  | .message _ (.command _) => isTrue trivial
  | .connect _ => isTrue trivial
  | .work _ => isTrue trivial
  | .replied .. => isTrue trivial
  | .leave _ => isTrue trivial
  | .notice => isTrue trivial
  | .receive => isTrue trivial
  | .perform _ => isTrue trivial
  | .close => isTrue trivial

/-! ## The lease -/

section Update

variable (system : System) (update : Update)

@[simp] theorem update_clients : (system.update update).clients = system.clients := by
  cases update <;> rfl

@[simp] theorem update_closedSeen : (system.update update).closedSeen = system.closedSeen := by
  cases update <;> rfl

@[simp] theorem update_worker : (system.update update).worker = system.worker := by
  cases update <;> rfl

theorem update_lease :
    (system.update update).lease = if update = .release then none else system.lease := by
  cases update <;> rfl

theorem update_clientClosed : (system.update update).control.clientClosed =
    if update = .signal then system.control.clientClosed + 1
    else system.control.clientClosed := by
  cases update <;> rfl

theorem update_requests : (system.update update).control.requests =
    if update = .drain then [] else system.control.requests := by
  cases update <;> rfl

end Update

/-- Who has the permit holds the lease, and a request that waits while nobody does is one that
will be drained. -/
structure Orderly (system : System) : Prop where
  holder : ∀ id, system.Holds id → system.lease = some id
  departs : ∀ id rest, system.clients.lookup id = some (.leaving rest) →
    rest = Client.full ∨ .release ∉ rest
  closes : ∀ rest, system.worker = .closing rest → .release ∉ rest
  seen : system.closedSeen ≤ system.control.clientClosed
  drains : system.lease = none → system.control.requests ≠ [] →
    (∃ id rest, system.clients.lookup id = some (.leaving rest) ∧ .signal ∈ rest) ∨
      system.closedSeen ≠ system.control.clientClosed ∨
        ∃ rest, system.worker = .closing rest ∧ .drain ∈ rest

theorem holds_put {system after : System} {id other : ℕ} {next : Client}
    (hclients : after.clients = Assoc.put system.clients id next) (h : after.Holds other) :
    (other = id ∧ next.holds) ∨ (other ≠ id ∧ system.Holds other) := by
  obtain ⟨client, hlookup, hholds⟩ := h
  rw [hclients, Assoc.lookup_put] at hlookup
  split at hlookup
  · rename_i hid
    cases hlookup
    exact .inl ⟨hid, hholds⟩
  · rename_i hid
    exact .inr ⟨hid, client, hlookup, hholds⟩

theorem leaving_put {system after : System} {id other : ℕ} {next : Client} {rest : List Update}
    (hclients : after.clients = Assoc.put system.clients id next)
    (h : after.clients.lookup other = some (.leaving rest)) :
    (other = id ∧ next = .leaving rest) ∨
      (other ≠ id ∧ system.clients.lookup other = some (.leaving rest)) := by
  rw [hclients, Assoc.lookup_put] at h
  split at h
  · rename_i hid
    exact .inl ⟨hid, Option.some.inj h⟩
  · rename_i hid
    exact .inr ⟨hid, h⟩

theorem lookup_put_of_ne {system after : System} {id other : ℕ} {next : Client}
    (hclients : after.clients = Assoc.put system.clients id next) (hother : other ≠ id) :
    after.clients.lookup other = system.clients.lookup other := by
  rw [hclients, Assoc.lookup_put, if_neg hother]

/-- What waits to be drained still does when another client's task has moved. -/
theorem drains_moved {system after : System} {id : ℕ} {next : Client}
    (hclients : after.clients = Assoc.put system.clients id next) (hsame : Same system after)
    (hstays : ∀ rest, system.clients.lookup id ≠ some (.leaving rest))
    (h : (∃ id rest, system.clients.lookup id = some (.leaving rest) ∧ .signal ∈ rest) ∨
      system.closedSeen ≠ system.control.clientClosed ∨
        ∃ rest, system.worker = .closing rest ∧ .drain ∈ rest) :
    (∃ id rest, after.clients.lookup id = some (.leaving rest) ∧ .signal ∈ rest) ∨
      after.closedSeen ≠ after.control.clientClosed ∨
        ∃ rest, after.worker = .closing rest ∧ .drain ∈ rest := by
  rw [hsame.closedSeen, hsame.clientClosed, hsame.worker]
  refine h.imp_left ?_
  rintro ⟨other, rest, hleaving, hsignal⟩
  refine ⟨other, rest, ?_, hsignal⟩
  rw [lookup_put_of_ne hclients fun hid => hstays rest (hid ▸ hleaving)]
  exact hleaving

theorem orderly_moved {system after : System} (h : Orderly system) {id : ℕ} {next : Client}
    (hclients : after.clients = Assoc.put system.clients id next) (hsame : Same system after)
    (hholds : next.holds → system.Holds id)
    (hrest : next.rest = [] ∨ next.rest = Client.full)
    (hstays : ∀ rest, system.clients.lookup id ≠ some (.leaving rest)) : Orderly after := by
  refine ⟨?_, ?_, ?_, ?_, ?_⟩
  · intro other hother
    rw [hsame.lease]
    rcases holds_put hclients hother with ⟨rfl, hnext⟩ | ⟨-, hold⟩
    · exact h.holder other (hholds hnext)
    · exact h.holder other hold
  · intro other rest hleaving
    rcases leaving_put hclients hleaving with ⟨rfl, rfl⟩ | ⟨-, hold⟩
    · rcases hrest with hnone | hall
      · rw [show rest = [] from hnone]
        exact .inr nofun
      · exact .inl hall
    · exact h.departs other rest hold
  · rw [hsame.worker]
    exact h.closes
  · rw [hsame.closedSeen, hsame.clientClosed]
    exact h.seen
  · rw [hsame.lease, hsame.requests]
    intro hlease hrequests
    exact drains_moved hclients hsame hstays (h.drains hlease hrequests)

theorem orderly_updated {system : System} (h : Orderly system) {id : ℕ} {update : Update}
    {rest : List Update} (hclient : system.clients.lookup id = some (.leaving (update :: rest))) :
    Orderly ((system.update update).put id (.leaving rest)) := by
  have hclients : ((system.update update).put id (.leaving rest)).clients =
      Assoc.put (system.update update).clients id (.leaving rest) := rfl
  have htail : .release ∉ rest := by
    rcases h.departs id _ hclient with hall | hnot
    · obtain ⟨-, rfl⟩ := List.cons.inj hall
      decide
    · exact fun hrest => hnot (List.mem_cons_of_mem _ hrest)
  have hnotHolds : (Client.leaving rest).holds = false := by
    cases rest with
    | nil => rfl
    | cons head tail => cases head <;> first | rfl | exact absurd List.mem_cons_self htail
  refine ⟨?_, ?_, ?_, ?_, ?_⟩
  · intro other hother
    change (system.update update).lease = some other
    rcases holds_put hclients hother with ⟨-, hnext⟩ | ⟨hne, hold⟩
    · rw [hnotHolds] at hnext
      cases hnext
    · have hlease : system.lease = some other := by
        refine h.holder other ?_
        obtain ⟨client, hlookup, hclientHolds⟩ := hold
        rw [update_clients] at hlookup
        exact ⟨client, hlookup, hclientHolds⟩
      rw [update_lease, if_neg, hlease]
      rintro rfl
      have hown := h.holder id ⟨_, hclient, rfl⟩
      rw [hlease] at hown
      exact hne (Option.some.inj hown)
  · intro other found hleaving
    rcases leaving_put hclients hleaving with ⟨-, hfound⟩ | ⟨-, hold⟩
    · cases hfound
      exact .inr htail
    · rw [update_clients] at hold
      exact h.departs other found hold
  · intro found hworker
    change (system.update update).worker = _ at hworker
    rw [update_worker] at hworker
    exact h.closes found hworker
  · change (system.update update).closedSeen ≤ (system.update update).control.clientClosed
    rw [update_closedSeen, update_clientClosed]
    split
    · exact h.seen.trans (Nat.le_succ _)
    · exact h.seen
  · intro hlease hrequests
    change (system.update update).lease = none at hlease
    change (system.update update).control.requests ≠ [] at hrequests
    change _ ∨ (system.update update).closedSeen ≠ (system.update update).control.clientClosed ∨
      ∃ rest, (system.update update).worker = .closing rest ∧ .drain ∈ rest
    rw [update_requests] at hrequests
    rw [update_closedSeen, update_clientClosed, update_worker]
    have hstill : system.control.requests ≠ [] := by
      intro hnone
      rw [hnone, ite_self] at hrequests
      exact hrequests rfl
    by_cases hrelease : update = .release
    · subst hrelease
      refine .inl ⟨id, rest, ?_, ?_⟩
      · rw [hclients, Assoc.lookup_put, if_pos rfl]
      · rcases h.departs id _ hclient with hall | hnot
        · obtain ⟨-, rfl⟩ := List.cons.inj hall
          decide
        · exact absurd List.mem_cons_self hnot
    · rw [update_lease, if_neg hrelease] at hlease
      by_cases hsignal : update = .signal
      · rw [if_pos hsignal]
        exact .inr (.inl (Nat.lt_succ_of_le h.seen).ne)
      · rw [if_neg hsignal]
        rcases h.drains hlease hstill with ⟨other, found, hleaving, hmem⟩ | hlater
        · refine .inl ?_
          by_cases hid : other = id
          · subst hid
            rw [hclient] at hleaving
            cases hleaving
            refine ⟨other, rest, ?_, (List.mem_cons.mp hmem).resolve_left (Ne.symm hsignal)⟩
            rw [hclients, Assoc.lookup_put, if_pos rfl]
          · refine ⟨other, found, ?_, hmem⟩
            rw [hclients, Assoc.lookup_put, if_neg hid, update_clients]
            exact hleaving
        · exact .inr hlater

theorem orderly_step {system : System} (h : Orderly system) (event : Event) :
    Orderly (System.step system event).1 := by
  have heffect := effect_step system event
  generalize (System.step system event).1 = after at heffect ⊢
  generalize (System.step system event).2 = acts at heffect
  have hframe : ∀ other : System, other.clients = system.clients → ∀ id,
      other.Holds id → system.Holds id := by
    intro other hclients id
    unfold System.Holds
    rw [hclients]
    exact fun hholds => hholds
  cases heffect with
  | quiet hclients hsame =>
    obtain ⟨hlease, hrequests, hclosed, hseen, hworker⟩ := hsame
    refine ⟨?_, ?_, ?_, ?_, ?_⟩
    · rw [hlease]
      exact fun id hholds => h.holder id (hframe after hclients id hholds)
    · rw [hclients]
      exact h.departs
    · rw [hworker]
      exact h.closes
    · rw [hseen, hclosed]
      exact h.seen
    · rw [hlease, hrequests, hclients, hseen, hclosed, hworker]
      exact h.drains
  | moved id next hclients hsame hholds hrest hstays =>
    exact orderly_moved h hclients hsame hholds hrest hstays
  | acquired id _ hlease hclient hafter =>
    subst hafter
    refine ⟨?_, ?_, h.closes, h.seen, nofun⟩
    · intro other hother
      rcases @holds_put { system with lease := some id } _ _ _ _ rfl hother with
        ⟨rfl, -⟩ | ⟨-, hold⟩
      · rfl
      · have hnone := h.holder other (hframe _ rfl other hold)
        rw [hlease] at hnone
        cases hnone
    · intro other rest hleaving
      rcases @leaving_put { system with lease := some id } _ _ _ _ _ rfl hleaving with
        ⟨-, hnext⟩ | ⟨-, hold⟩
      · cases hnext
      · exact h.departs other rest hold
  | taken id revision request hholds hstays hclients hsame =>
    have hmiddle : Orderly { system with control :=
        { system.control with requests := system.control.requests ++ [request] } } := by
      refine ⟨fun other hother => h.holder other (hframe _ rfl other hother), h.departs, h.closes,
        h.seen, ?_⟩
      intro hlease
      rw [h.holder id hholds] at hlease
      cases hlease
    exact orderly_moved hmiddle hclients hsame (fun _ => hholds) (.inl rfl) hstays
  | updated id update rest hclient hafter =>
    subst hafter
    exact orderly_updated h hclient
  | noticed _ _ hafter =>
    subst hafter
    refine ⟨fun id hholds => h.holder id (hframe _ rfl id hholds), h.departs, ?_, le_rfl, ?_⟩
    · intro rest hrest
      cases hrest
      decide
    · intro _ _
      exact .inr (.inr ⟨closing, rfl, by decide⟩)
  | received request rest hworker hrequests hafter =>
    subst hafter
    refine ⟨fun id hholds => h.holder id (hframe _ rfl id hholds), h.departs, nofun, h.seen, ?_⟩
    intro hlease _
    refine (h.drains hlease (hrequests ▸ List.cons_ne_nil _ _)).imp_right ?_
    refine Or.imp_right ?_
    rintro ⟨found, hclosing, -⟩
    rw [hworker] at hclosing
    cases hclosing
  | performed request hworker hclients hsame =>
    obtain ⟨hlease, hrequests, hclosed, hseen, hwaiting⟩ := hsame
    refine ⟨?_, ?_, ?_, ?_, ?_⟩
    · rw [hlease]
      exact fun id hholds => h.holder id (hframe after hclients id hholds)
    · rw [hclients]
      exact h.departs
    · rw [hwaiting]
      exact nofun
    · rw [hseen, hclosed]
      exact h.seen
    · rw [hlease, hrequests, hclients, hseen, hclosed]
      intro hnone hwait
      refine (h.drains hnone hwait).imp_right ?_
      refine Or.imp_right ?_
      rintro ⟨found, hclosing, -⟩
      rw [hworker] at hclosing
      cases hclosing
  | closed update rest hworker hafter =>
    subst hafter
    have hnot := h.closes _ hworker
    have hrelease : update ≠ .release := fun hupdate => hnot (hupdate ▸ List.mem_cons_self)
    refine ⟨?_, ?_, ?_, ?_, ?_⟩
    · intro id hholds
      change (system.update update).lease = some id
      rw [update_lease, if_neg hrelease]
      exact h.holder id (hframe _ (update_clients system update) id hholds)
    · intro id found hleaving
      change (system.update update).clients.lookup id = _ at hleaving
      rw [update_clients] at hleaving
      exact h.departs id found hleaving
    · intro found hfound
      cases hfound
      exact fun hmem => hnot (List.mem_cons_of_mem _ hmem)
    · change (system.update update).closedSeen ≤ (system.update update).control.clientClosed
      rw [update_closedSeen, update_clientClosed]
      split
      · exact h.seen.trans (Nat.le_succ _)
      · exact h.seen
    · intro hlease hrequests
      change (system.update update).lease = none at hlease
      change (system.update update).control.requests ≠ [] at hrequests
      change (∃ id found, (system.update update).clients.lookup id = _ ∧ _) ∨
        (system.update update).closedSeen ≠ (system.update update).control.clientClosed ∨ _
      rw [update_lease, if_neg hrelease] at hlease
      rw [update_requests] at hrequests
      rw [update_clients, update_closedSeen, update_clientClosed]
      by_cases hdrain : update = .drain
      · rw [if_pos hdrain] at hrequests
        exact absurd rfl hrequests
      · rw [if_neg hdrain] at hrequests
        rcases h.drains hlease hrequests with hsignal | hseen | ⟨found, hclosing, hmem⟩
        · exact .inl hsignal
        · refine .inr (.inl ?_)
          split
          · exact (Nat.lt_succ_of_le h.seen).ne
          · exact hseen
        · rw [hworker] at hclosing
          cases hclosing
          exact .inr (.inr ⟨rest, rfl, (List.mem_cons.mp hmem).resolve_left (Ne.symm hdrain)⟩)
  | rested hworker hafter =>
    subst hafter
    refine ⟨fun id hholds => h.holder id (hframe _ rfl id hholds), h.departs, nofun, h.seen, ?_⟩
    intro hlease hrequests
    refine (h.drains hlease hrequests).imp_right ?_
    refine Or.imp_right ?_
    rintro ⟨found, hclosing, hmem⟩
    rw [hworker] at hclosing
    cases hclosing
    cases hmem

/-! ## While a client holds the lease -/

/-- A client has had the request taken. -/
def Asked (history : List (Event × List Act)) (id : ℕ) (request : Request) : Prop :=
  ∃ entry ∈ history, .taken id request ∈ entry.2

theorem Asked.append {history more : List (Event × List Act)} {id : ℕ} {request : Request}
    (h : Asked history id request) : Asked (history ++ more) id request := by
  obtain ⟨entry, hentry, htaken⟩ := h
  exact ⟨entry, List.mem_append_left _ hentry, htaken⟩

/-- Nothing is cleaned up, and the worker has to do with the requests of one client. -/
structure Calm (system : System) (history : List (Event × List Act)) (id : ℕ) : Prop where
  departed : ∀ other rest, system.clients.lookup other = some (.leaving rest) → rest ≠ [] →
    other = id ∧ rest = Client.full
  idle : ∀ rest, system.worker ≠ .closing rest
  seen : system.closedSeen = system.control.clientClosed
  waiting : ∀ request ∈ system.control.requests, Asked history id request
  performing : ∀ request, system.worker = .performing request → Asked history id request

theorem calm_moved {system after : System} {history : List (Event × List Act)} {id other : ℕ}
    {next : Client} (h : Calm system history id)
    (hclients : after.clients = Assoc.put system.clients other next) (hsame : Same system after)
    (hrest : next.rest = [] ∨ next.rest = Client.full ∧ other = id) : Calm after history id := by
  refine ⟨?_, ?_, ?_, ?_, ?_⟩
  · intro found rest hleaving hnonempty
    rcases leaving_put hclients hleaving with ⟨rfl, rfl⟩ | ⟨-, hold⟩
    · rcases hrest with hnone | ⟨hall, hid⟩
      · exact absurd hnone hnonempty
      · exact ⟨hid, hall⟩
    · exact h.departed found rest hold hnonempty
  · rw [hsame.worker]
    exact h.idle
  · rw [hsame.closedSeen, hsame.clientClosed]
    exact h.seen
  · rw [hsame.requests]
    exact h.waiting
  · rw [hsame.worker]
    exact h.performing

theorem calm_acquired {system : System} (horderly : Orderly system) {id : ℕ}
    (history : List (Event × List Act)) (hlease : system.lease = none)
    (hrest : ∀ entry ∈ system.clients, entry.2.rest = []) (hworker : system.worker = .waiting)
    (hseen : system.closedSeen = system.control.clientClosed) :
    Calm ({ system with lease := some id }.put id .acquired) history id := by
  have hleft : ∀ other rest, system.clients.lookup other = some (.leaving rest) → rest = [] :=
    fun other rest hleaving => hrest _ (Assoc.mem_of_lookup hleaving)
  refine ⟨?_, ?_, hseen, ?_, ?_⟩
  · intro other rest hleaving hnonempty
    rcases @leaving_put { system with lease := some id } _ _ _ _ _ rfl hleaving with
      ⟨-, hnext⟩ | ⟨-, hold⟩
    · cases hnext
    · exact absurd (hleft other rest hold) hnonempty
  · intro rest hclosing
    change system.worker = _ at hclosing
    rw [hworker] at hclosing
    cases hclosing
  · intro request hrequest
    refine absurd (horderly.drains hlease (List.ne_nil_of_mem hrequest)) ?_
    rintro (⟨other, rest, hleaving, hsignal⟩ | hlater | ⟨rest, hclosing, -⟩)
    · rw [hleft other rest hleaving] at hsignal
      cases hsignal
    · exact hlater hseen
    · rw [hworker] at hclosing
      cases hclosing
  · intro request hperforming
    change system.worker = _ at hperforming
    rw [hworker] at hperforming
    cases hperforming

theorem calm_step {system : System} {history : List (Event × List Act)}
    (horderly : Orderly system) (h : ∀ id, system.lease = some id → Calm system history id)
    {event : Event} (hsettled : Settled system event) :
    let next := System.step system event
    ∀ id, next.1.lease = some id → Calm next.1 (history ++ [(event, next.2)]) id := by
  have heffect := effect_step system event
  dsimp only
  generalize (System.step system event).1 = after at heffect ⊢
  generalize (System.step system event).2 = acts at heffect ⊢
  have hmore : ∀ id, system.lease = some id →
      Calm system (history ++ [(event, acts)]) id := by
    intro id hlease
    obtain ⟨hdeparted, hidle, hseen, hwaiting, hperforming⟩ := h id hlease
    exact ⟨hdeparted, hidle, hseen, fun request hrequest => (hwaiting request hrequest).append,
      fun request hworker => (hperforming request hworker).append⟩
  intro id hlast
  cases heffect with
  | quiet hclients hsame =>
    rw [hsame.lease] at hlast
    obtain ⟨hdeparted, hidle, hseen, hwaiting, hperforming⟩ := hmore id hlast
    refine ⟨?_, ?_, ?_, ?_, ?_⟩
    · rw [hclients]
      exact hdeparted
    · rw [hsame.worker]
      exact hidle
    · rw [hsame.closedSeen, hsame.clientClosed]
      exact hseen
    · rw [hsame.requests]
      exact hwaiting
    · rw [hsame.worker]
      exact hperforming
  | moved other next hclients hsame hholds hrest hstays =>
    rw [hsame.lease] at hlast
    refine calm_moved (hmore id hlast) hclients hsame ?_
    by_cases hnext : next.holds
    · have hown := horderly.holder other (hholds hnext)
      rw [hlast] at hown
      exact hrest.imp_right fun hall => ⟨hall, (Option.some.inj hown).symm⟩
    · refine .inl (hrest.resolve_right fun hall => hnext ?_)
      cases next with
      | leaving rest =>
        rw [show rest = Client.full from hall]
        rfl
      | greeting | acquired | cleared | replying | serving | requesting => cases hall
  | acquired other hevent hlease hclient hafter =>
    subst hevent hafter
    cases hlast
    obtain ⟨hrest, hworker, hseen⟩ := hsettled ⟨hclient, hlease⟩
    exact calm_acquired horderly _ hlease hrest hworker hseen
  | taken other revision request hholds hstays hclients hsame hacts =>
    rw [hsame.lease] at hlast
    change system.lease = _ at hlast
    have hown := horderly.holder other hholds
    rw [hlast] at hown
    cases hown
    obtain ⟨hdeparted, hidle, hseen, hwaiting, hperforming⟩ := hmore id hlast
    have hwaits : ∀ found ∈ system.control.requests ++ [request],
        Asked (history ++ [(event, acts)]) id found := by
      intro found hfound
      rcases List.mem_append.mp hfound with hold | hnew
      · exact hwaiting found hold
      · rw [List.mem_singleton.mp hnew]
        refine ⟨(event, acts), List.mem_append_right _ (List.mem_singleton_self _), ?_⟩
        rw [hacts]
        exact List.mem_singleton_self _
    have hmiddle : Calm { system with control :=
        { system.control with requests := system.control.requests ++ [request] } }
        (history ++ [(event, acts)]) id :=
      ⟨hdeparted, hidle, hseen, hwaits, hperforming⟩
    exact calm_moved hmiddle hclients hsame (.inl rfl)
  | updated other update rest hclient hafter =>
    subst hafter
    change (system.update update).lease = some id at hlast
    rw [update_lease] at hlast
    split at hlast
    · cases hlast
    · rename_i hrelease
      obtain ⟨-, hall⟩ := (hmore id hlast).departed other _ hclient (List.cons_ne_nil _ _)
      exact absurd (List.cons.inj hall).1 hrelease
  | noticed hworker hseen hafter =>
    subst hafter
    exact absurd (hmore id hlast).seen hseen
  | received request rest hworker hrequests hafter =>
    subst hafter
    obtain ⟨hdeparted, hidle, hseen, hwaiting, hperforming⟩ := hmore id hlast
    rw [hrequests] at hwaiting
    refine ⟨hdeparted, (by simp), hseen,
      fun found hfound => hwaiting found (List.mem_cons_of_mem _ hfound), ?_⟩
    intro found hfound
    cases hfound
    exact hwaiting request List.mem_cons_self
  | performed request hworker hclients hsame =>
    rw [hsame.lease] at hlast
    obtain ⟨hdeparted, hidle, hseen, hwaiting, hperforming⟩ := hmore id hlast
    refine ⟨?_, ?_, ?_, ?_, ?_⟩
    · rw [hclients]
      exact hdeparted
    · rw [hsame.worker]
      rintro _ ⟨⟩
    · rw [hsame.closedSeen, hsame.clientClosed]
      exact hseen
    · rw [hsame.requests]
      exact hwaiting
    · rw [hsame.worker]
      rintro _ ⟨⟩
  | closed update rest hworker hafter =>
    subst hafter
    change (system.update update).lease = some id at hlast
    rw [update_lease, if_neg] at hlast
    · exact absurd hworker ((hmore id hlast).idle _)
    · rintro rfl
      exact horderly.closes _ hworker List.mem_cons_self
  | rested hworker hafter =>
    subst hafter
    exact absurd hworker ((hmore id hlast).idle _)

/-! ## Runs -/

/-- The daemon at its start; the environment may turn projection off. -/
def System.new (projectionEnabled : Bool) : System := { projectionEnabled }

theorem orderly_new (projectionEnabled : Bool) : Orderly (System.new projectionEnabled) := by
  refine ⟨?_, nofun, nofun, le_rfl, fun _ hrequests => absurd rfl hrequests⟩
  rintro id ⟨client, hclient, -⟩
  cases hclient

theorem orderly_run (projectionEnabled : Bool) (events : List Event) :
    Orderly (run System.step (System.new projectionEnabled) events).1 :=
  run_invariant System.step (orderly_new projectionEnabled)
    (fun _ event horderly => orderly_step horderly event) events

theorem calm_run (projectionEnabled : Bool) (events : List Event)
    (h : Along System.step Settled (System.new projectionEnabled) events) :
    let last := run System.step (System.new projectionEnabled) events
    ∀ id, last.1.lease = some id → Calm last.1 last.2 id := by
  refine along_induction System.step (I := fun events =>
    let last := run System.step (System.new projectionEnabled) events
    ∀ id, last.1.lease = some id → Calm last.1 last.2 id) nofun ?_ events h
  intro events event ih hsettled
  rw [run_concat]
  exact calm_step (orderly_run projectionEnabled events) ih hsettled

theorem asker_holds {system : System} (horderly : Orderly system) (event : Event) :
    ∀ act ∈ (System.step system event).2, ∀ id, act.asker = some id → system.lease = some id := by
  have heffect := effect_step system event
  generalize (System.step system event).1 = after at heffect
  generalize (System.step system event).2 = acts at heffect ⊢
  intro act hact id hasker
  cases heffect with
  | quiet _ _ hacts =>
    obtain ⟨other, rfl, hholds⟩ := hacts act hact
    cases hasker
    exact horderly.holder id hholds
  | moved other _ _ _ _ _ _ hacts =>
    obtain ⟨rfl | rfl, hholds⟩ := hacts act hact
    · cases hasker
      exact horderly.holder id hholds
    · cases hasker
      exact horderly.holder id hholds
  | taken other _ _ hholds _ _ _ hacts =>
    rw [hacts] at hact
    cases List.mem_singleton.mp hact
    cases hasker
    exact horderly.holder id hholds
  | performed _ _ _ _ hacts =>
    rcases hacts with rfl | rfl
    · cases hact
    · cases List.mem_singleton.mp hact
      cases hasker
  | acquired _ _ _ _ _ hacts | updated _ _ _ _ _ hacts | closed _ _ _ _ hacts =>
    rw [hacts] at hact
    cases List.mem_singleton.mp hact
    cases hasker
  | noticed _ _ _ hacts | received _ _ _ _ _ hacts | rested _ _ hacts =>
    rw [hacts] at hact
    cases hact

theorem updated_owner {system : System} {history : List (Event × List Act)} {id : ℕ}
    (h : Calm system history id) (event : Event) {owner : Option ℕ} {update : Update}
    (hact : .updated owner update ∈ (System.step system event).2) :
    owner = some id ∧ update = .release := by
  have heffect := effect_step system event
  generalize (System.step system event).1 = after at heffect
  generalize (System.step system event).2 = acts at heffect hact
  cases heffect with
  | quiet _ _ hacts =>
    obtain ⟨other, hother, -⟩ := hacts _ hact
    cases hother
  | moved other _ _ _ _ _ _ hacts =>
    obtain ⟨hother | hother, -⟩ := hacts _ hact
    · cases hother
    · cases hother
  | updated other found rest hclient _ hacts =>
    rw [hacts] at hact
    cases List.mem_singleton.mp hact
    obtain ⟨hid, hall⟩ := h.departed other _ hclient (List.cons_ne_nil _ _)
    exact ⟨congrArg some hid, (List.cons.inj hall).1⟩
  | closed found rest hworker => exact absurd hworker (h.idle _)
  | performed _ _ _ _ hacts =>
    rcases hacts with rfl | rfl
    · cases hact
    · cases List.mem_singleton.mp hact
  | acquired _ _ _ _ _ hacts | taken _ _ _ _ _ _ _ hacts =>
    rw [hacts] at hact
    cases List.mem_singleton.mp hact
  | noticed _ _ _ hacts | received _ _ _ _ _ hacts | rested _ _ hacts =>
    rw [hacts] at hact
    cases hact

theorem performed_worker {system : System} (event : Event) {request : Request}
    (hact : .performed request ∈ (System.step system event).2) :
    system.worker = .performing request := by
  have heffect := effect_step system event
  generalize (System.step system event).1 = after at heffect
  generalize (System.step system event).2 = acts at heffect hact
  cases heffect with
  | quiet _ _ hacts =>
    obtain ⟨other, hother, -⟩ := hacts _ hact
    cases hother
  | moved other _ _ _ _ _ _ hacts =>
    obtain ⟨hother | hother, -⟩ := hacts _ hact
    · cases hother
    · cases hother
  | performed found hworker _ _ hacts =>
    rcases hacts with rfl | rfl
    · cases hact
    · cases List.mem_singleton.mp hact
      exact hworker
  | acquired _ _ _ _ _ hacts | taken _ _ _ _ _ _ _ hacts | updated _ _ _ _ _ hacts
  | closed _ _ _ _ hacts =>
    rw [hacts] at hact
    cases List.mem_singleton.mp hact
  | noticed _ _ _ hacts | received _ _ _ _ _ hacts | rested _ _ hacts =>
    rw [hacts] at hact
    cases hact

/-- Only the holder of the lease is served. As long as the lease is taken when all has been
cleaned up, nothing of a cleanup happens while it is held except that the holder gives it
back, and the worker performs what the holder asked for. -/
theorem handover (projectionEnabled : Bool) (events : List Event)
    (h : Along System.step Settled (System.new projectionEnabled) events) :
    let last := run System.step (System.new projectionEnabled) events
    ∀ event, let acts := (System.step last.1 event).2
      (∀ act ∈ acts, ∀ id, act.asker = some id → last.1.lease = some id) ∧
      ∀ id, last.1.lease = some id →
        (∀ owner update, .updated owner update ∈ acts → owner = some id ∧ update = .release) ∧
        ∀ request, .performed request ∈ acts → Asked last.2 id request := by
  intro last event acts
  refine ⟨asker_holds (orderly_run projectionEnabled events) event, ?_⟩
  intro id hlease
  have hcalm : Calm last.1 last.2 id := calm_run projectionEnabled events h id hlease
  exact ⟨fun owner update hact => updated_owner hcalm event hact,
    fun request hact => hcalm.performing request (performed_worker event hact)⟩

/-- Projection is turned on by the first client, which goes, and by the one after it. -/
def successors : List Event :=
  let enable : Message := .connectivity 44 (some { action := .projectionEnabled, accept := true })
  let session (id : ℕ) : List Event :=
    [.connect id, .message id (.hello true), .work id, .work id, .replied id true,
      .message id enable] ++ List.replicate 8 (.work id) ++ [.receive, .perform true]
  session 0 ++ .leave 0 :: List.replicate 5 (.work 0) ++ .notice :: List.replicate 9 .close ++
    session 1

theorem successors_served :
    let last := run System.step (System.new true) successors
    last.1.lease = some 1 ∧ last.1.projectionEnabled = true ∧
      ∀ owner update, .updated owner update ∈ (System.step last.1 .close).2 →
        owner = some 1 ∧ update = .release := by
  have h : Along System.step Settled (System.new true) successors := by
    decide +kernel
  have hlease : (run System.step (System.new true) successors).1.lease = some 1 := by
    decide +kernel
  have henabled : (run System.step (System.new true) successors).1.projectionEnabled = true := by
    decide +kernel
  exact ⟨hlease, henabled, ((handover true successors h .close).2 1 hlease).1⟩

/-- The first client has given the lease back but not yet cleaned up when the second takes it
and turns projection on; then the first turns projection off and cancels calls and music. -/
theorem cleanup_after_handover :
    let enable : Message :=
      .connectivity 44 (some { action := .projectionEnabled, accept := true })
    let before := run System.step (System.new true)
      ([.connect 0, .message 0 (.hello true), .work 0, .work 0, .replied 0 true, .leave 0,
        .work 0, .connect 1, .message 1 (.hello true), .work 1, .work 1, .replied 1 true,
        .message 1 enable] ++ List.replicate 8 (.work 1) ++ [.receive, .perform true])
    let after := run System.step before.1 [.work 0, .work 0, .work 0]
    before.1.lease = some 1 ∧ before.1.projectionEnabled = true ∧
      after.1.lease = some 1 ∧ after.1.projectionEnabled = false ∧
        after.2.flatMap (·.2) = [.updated (some 0) .disable, .updated (some 0) .cancelCalls,
          .updated (some 0) .cancelMusic] := by
  decide +kernel

end ProjectArgo.Connectivity.Clients
