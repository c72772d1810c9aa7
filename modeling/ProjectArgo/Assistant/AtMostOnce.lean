import Mathlib
import ProjectArgo.Assistant.AssistantBridge
import ProjectArgo.Library.Run

/-!
# Commands are executed at most once

The record of a request stays until its session is no longer the current one, and the id
of a session is drawn once. So a request whose record is gone has an id that no current
session accepts.
-/
namespace ProjectArgo.Assistant

open Library Library.Run

abbrev History := List (Event × List Act)

def Act.session : Act → Option String
  | .created sessionId => some sessionId
  | _ => none

def Act.execution : Act → Option String
  | .executes _ _ _ requestId => some requestId
  | _ => none

def Act.completion : Act → Option ℕ
  | .completed future _ => some future
  | _ => none

namespace History

def acts (history : History) : List Act := history.flatMap (·.2)

/-- The sessions that were opened. -/
def sessions (history : History) : List String := history.acts.filterMap Act.session

/-- The requests whose command was called. -/
def executions (history : History) : List String := history.acts.filterMap Act.execution

/-- The futures that were completed. -/
def completions (history : History) : List ℕ := history.acts.filterMap Act.completion

/-- A request with the id was answered by the future. -/
def Accepted (history : History) (requestId : String) (body : JsonBody) (future : ℕ) : Prop :=
  ∃ sessionId available acts, (Event.execute body available, acts) ∈ history ∧
    AssistantBridge.checkIds body = .ok (requestId, sessionId) ∧ Act.returned future ∈ acts

variable {history : History} {event : Event} {more : List Act}

@[simp] theorem acts_concat : acts (history ++ [(event, more)]) = history.acts ++ more := by
  simp [acts]

theorem sessions_concat : sessions (history ++ [(event, more)]) =
    history.sessions ++ more.filterMap Act.session := by
  simp [sessions]

theorem executions_concat : executions (history ++ [(event, more)]) =
    history.executions ++ more.filterMap Act.execution := by
  simp [executions]

theorem completions_concat : completions (history ++ [(event, more)]) =
    history.completions ++ more.filterMap Act.completion := by
  simp [completions]

theorem accepted_concat {requestId : String} {body : JsonBody} {future : ℕ} :
    Accepted (history ++ [(event, more)]) requestId body future ↔
      Accepted history requestId body future ∨ ∃ sessionId available,
        event = .execute body available ∧
          AssistantBridge.checkIds body = .ok (requestId, sessionId) ∧
          Act.returned future ∈ more := by
  unfold Accepted
  constructor
  · rintro ⟨sessionId, available, acts, hmem, hids, hreturned⟩
    rcases List.mem_append.mp hmem with hold | hnew
    · exact .inl ⟨sessionId, available, acts, hold, hids, hreturned⟩
    · obtain ⟨rfl, rfl⟩ := Prod.mk.inj (List.mem_singleton.mp hnew)
      exact .inr ⟨sessionId, available, rfl, hids, hreturned⟩
  · rintro (⟨sessionId, available, acts, hmem, hids, hreturned⟩ |
      ⟨sessionId, available, rfl, hids, hreturned⟩)
    · exact ⟨sessionId, available, acts, List.mem_append_left _ hmem, hids, hreturned⟩
    · exact ⟨sessionId, available, more, List.mem_append_right _ (List.mem_singleton_self _), hids,
        hreturned⟩

end History

/-! ## Ids -/

theorem base64Digit_ne (value : ℕ) : base64Digit value ≠ ':' := by
  have halphabet : ':' ∉ base64Alphabet := by decide +kernel
  unfold base64Digit
  rw [List.getD_eq_getElem?_getD]
  cases hdigit : base64Alphabet[value]? with
  | none => decide
  | some c =>
    intro heq
    exact halphabet (heq ▸ List.mem_of_getElem? hdigit)

theorem colon_not_mem_base64Url (bytes : List ℕ) : ':' ∉ base64Url bytes := by
  induction bytes using base64Url.induct with
  | case1 a b c rest ih =>
    rw [base64Url]
    simp only [List.mem_cons, not_or]
    exact ⟨(base64Digit_ne _).symm, (base64Digit_ne _).symm, (base64Digit_ne _).symm,
      (base64Digit_ne _).symm, ih⟩
  | case2 a b => simp [base64Url, (base64Digit_ne _).symm]
  | case3 a => simp [base64Url, (base64Digit_ne _).symm]
  | case4 => simp [base64Url]

theorem colon_not_mem_sessionId (draw : Draw) : ':' ∉ draw.sessionId.toList := by
  rw [Draw.sessionId, String.toList_ofList]
  exact colon_not_mem_base64Url _

theorem takeWhile_of_belongs {sessionId requestId : String} (hcolon : ':' ∉ sessionId.toList)
    (h : belongs sessionId requestId) :
    requestId.toList.takeWhile (· ≠ ':') = sessionId.toList := by
  obtain ⟨suffix, hsuffix⟩ := List.isPrefixOf_iff_prefix.mp h
  rw [← hsuffix, List.append_assoc, List.takeWhile_append_of_pos]
  · simp
  · intro c hc
    rw [decide_eq_true_eq]
    rintro rfl
    exact hcolon hc

/-- A request id names one session. -/
theorem belongs_unique {first second requestId : String} (hfirst : ':' ∉ first.toList)
    (hsecond : ':' ∉ second.toList) (h : belongs first requestId)
    (h' : belongs second requestId) : first = second := by
  apply String.ext
  rw [← takeWhile_of_belongs hfirst h, takeWhile_of_belongs hsecond h']

/-! ## What a step does to the records -/

/-- The part of the tables that has to do with the records. -/
structure Ledger where
  sessionId : Option String
  requests : List (String × Execution)
  running : List (ℕ × String)
  nextFuture : ℕ

def AssistantBridge.ledger (bridge : AssistantBridge) : Ledger :=
  ⟨bridge.sessionId, bridge.requests, bridge.running, bridge.nextFuture⟩

/-- Acts that have nothing to do with the records. -/
def Act.Silent : Act → Prop
  | .refused _ => True
  | .requestsFocus _ => True
  | .releasesFocus _ _ => True
  | _ => False

/-- The records of a session are kept when one is added, and others may be dropped. -/
structure Recorded (sessionId : String) (before : List (String × Execution)) (requestId : String)
    (execution : Execution) (after : List (String × Execution)) : Prop where
  added : after.lookup requestId = some execution
  kept : ∀ id, id ≠ requestId → after.lookup id = before.lookup id ∨
    after.lookup id = none ∧ belongs sessionId id = false

inductive Booked (ledger : Ledger) : Event → List Act → Ledger → Prop
  | silent {event : Event} {acts : List Act} (hsilent : ∀ act ∈ acts, act.Silent) :
      Booked ledger event acts ledger
  | opened {number : ℕ} {draw : Draw} :
      Booked ledger (.goesOn number draw) [.created draw.sessionId]
        { ledger with sessionId := some draw.sessionId }
  | completed {future : ℕ} {outcome : Option (List (String × Json))} {requestId : String}
      (hrunning : ledger.running.lookup future = some requestId) :
      Booked ledger (.executed future outcome)
        [.completed future (AssistantBridge.resultOf requestId outcome)]
        { ledger with running := ledger.running.filter (·.1 ≠ future) }
  | retried {body : JsonBody} {available : Bool} {requestId sessionId : String}
      {previous : Execution} (hids : AssistantBridge.checkIds body = .ok (requestId, sessionId))
      (hlookup : ledger.requests.lookup requestId = some previous)
      (hfingerprint : previous.fingerprint = body.fingerprint) :
      Booked ledger (.execute body available) [.returned previous.result] ledger
  | limited {body : JsonBody} {available : Bool} {requestId sessionId : String}
      {requests : List (String × Execution)}
      (hids : AssistantBridge.checkIds body = .ok (requestId, sessionId))
      (hnew : ledger.requests.lookup requestId = none)
      (hsession : ledger.sessionId = some sessionId)
      (hrecorded : Recorded sessionId ledger.requests requestId
        ⟨body.fingerprint, ledger.nextFuture⟩ requests) :
      Booked ledger (.execute body available)
        [.completed ledger.nextFuture (AssistantBridge.sessionLimit requestId),
          .returned ledger.nextFuture]
        { ledger with requests := requests, nextFuture := ledger.nextFuture + 1 }
  | begun {body : JsonBody} {available : Bool} {requestId sessionId command : String}
      {arguments : List (String × Json)} {requests : List (String × Execution)}
      (hids : AssistantBridge.checkIds body = .ok (requestId, sessionId))
      (hnew : ledger.requests.lookup requestId = none)
      (hsession : ledger.sessionId = some sessionId)
      (hrecorded : Recorded sessionId ledger.requests requestId
        ⟨body.fingerprint, ledger.nextFuture⟩ requests) :
      Booked ledger (.execute body available)
        [.executes ledger.nextFuture command arguments requestId, .returned ledger.nextFuture]
        { ledger with
          requests := requests
          running := ledger.running ++ [(ledger.nextFuture, requestId)]
          nextFuture := ledger.nextFuture + 1 }

theorem belongs_of_checkIds {body : JsonBody} {requestId sessionId : String}
    (h : AssistantBridge.checkIds body = .ok (requestId, sessionId)) :
    belongs sessionId requestId := by
  unfold AssistantBridge.checkIds at h
  split at h
  · split at h
    · split at h
      · rename_i hwell
        cases h
        unfold wellFormedRequestId at hwell
        simp only [Bool.and_eq_true] at hwell
        exact hwell.1.1.2
      · cases h
    · cases h
  · cases h

theorem sessionId_of_requireSession {bridge : AssistantBridge} {id : String} {done : Unit}
    (h : bridge.requireSession (.string id) = .ok done) : bridge.sessionId = some id := by
  unfold AssistantBridge.requireSession at h
  split at h
  · rename_i heq hsession
    cases heq
    split at h
    · rename_i hid
      rw [hsession, hid]
    · cases h
  · cases h

theorem lookup_append_new {requests : List (String × Execution)} {requestId : String}
    {execution : Execution} (hnew : requests.lookup requestId = none) (id : String) :
    (requests ++ [(requestId, execution)]).lookup id =
      if id = requestId then some execution else requests.lookup id := by
  rw [List.lookup_append]
  split
  · rename_i hid
    rw [hid, hnew]
    simp [List.lookup]
  · rename_i hid
    have hlast : List.lookup id [(requestId, execution)] = none := by
      rw [List.lookup_cons, show (id == requestId) = false by simpa using hid, List.lookup_nil]
    rw [hlast, Option.or_none]

theorem recorded_append {sessionId requestId : String} {requests : List (String × Execution)}
    {execution : Execution} (hnew : requests.lookup requestId = none) :
    Recorded sessionId requests requestId execution (requests ++ [(requestId, execution)]) := by
  refine ⟨?_, fun id hid => .inl ?_⟩
  · rw [lookup_append_new hnew, if_pos rfl]
  · rw [lookup_append_new hnew, if_neg hid]

theorem lookup_filter_ne {requests : List (String × Execution)} {removed : String} (id : String) :
    (requests.filter (·.1 ≠ removed)).lookup id =
      if id = removed then none else requests.lookup id := by
  induction requests with
  | nil => simp
  | cons entry requests ih =>
    obtain ⟨name, execution⟩ := entry
    rw [List.filter_cons]
    by_cases hname : name = removed
    · rw [if_neg (by simpa using hname), ih, hname]
      split
      · rfl
      · rename_i hid
        rw [List.lookup_cons, show (id == removed) = false by simpa using hid]
    · rw [if_pos (by simpa using hname), List.lookup_cons, List.lookup_cons, ih]
      by_cases hid : id = name
      · simp only [hid, if_neg hname, beq_self_eq_true]
      · rw [show (id == name) = false by simpa using hid]

theorem recorded_filter {sessionId requestId removed : String}
    {requests : List (String × Execution)} {execution : Execution}
    (hnew : requests.lookup requestId = none) (hbelongs : belongs sessionId requestId)
    (hremoved : belongs sessionId removed = false) :
    Recorded sessionId requests requestId execution
      ((requests ++ [(requestId, execution)]).filter (·.1 ≠ removed)) := by
  have hne : requestId ≠ removed := by
    rintro rfl
    rw [hbelongs] at hremoved
    cases hremoved
  refine ⟨?_, fun id hid => ?_⟩
  · rw [lookup_filter_ne, if_neg hne, lookup_append_new hnew, if_pos rfl]
  · rw [lookup_filter_ne, lookup_append_new hnew, if_neg hid]
    by_cases hgone : id = removed
    · exact .inr ⟨if_pos hgone, hgone ▸ hremoved⟩
    · exact .inl (if_neg hgone)

theorem booked_execute (commands : String → Option Command) (bridge : AssistantBridge)
    (body : JsonBody) (available : Bool) :
    Booked bridge.ledger (.execute body available) (bridge.execute commands body available).2
      (bridge.execute commands body available).1.ledger := by
  have hrefused : ∀ error : BridgeError, Booked bridge.ledger (.execute body available)
      [.refused error] bridge.ledger := by
    intro error
    refine .silent fun act hact => ?_
    rw [List.mem_singleton.mp hact]
    trivial
  unfold AssistantBridge.execute
  split
  · exact hrefused _
  · rename_i requestId sessionId hids
    split
    · rename_i previous hlookup
      split
      · rename_i hfingerprint
        exact .retried hids hlookup hfingerprint
      · exact hrefused _
    · rename_i hnew
      split
      · exact hrefused _
      · rename_i hrequire
        have hsession := sessionId_of_requireSession hrequire
        split
        · exact hrefused _
        · rename_i command arguments _
          unfold AssistantBridge.record AssistantBridge.begin
          simp only
          split
          · split
            · exact .limited hids hnew hsession (recorded_append hnew)
            · rename_i removable hremovable
              have hother := List.find?_some hremovable
              rw [hsession, Option.getD_some, Bool.not_eq_true'] at hother
              exact .begun hids hnew hsession
                (recorded_filter hnew (belongs_of_checkIds hids) hother)
          · exact .begun hids hnew hsession (recorded_append hnew)

theorem ledger_settle (bridge : AssistantBridge) (caller : Caller) (succeeded : Bool) :
    (bridge.settle caller succeeded).ledger = bridge.ledger := by
  unfold AssistantBridge.settle
  split
  · split <;> rfl
  · rfl

theorem startFocus_silent (bridge : AssistantBridge) (operation : FocusOp) :
    (bridge.startFocus operation).1.ledger = bridge.ledger ∧
      ∀ act ∈ (bridge.startFocus operation).2.2, act.Silent := by
  unfold AssistantBridge.startFocus
  split
  · split
    · split <;> exact ⟨rfl, by simp⟩
    · exact ⟨rfl, by simp⟩
  · split
    · refine ⟨rfl, fun act hact => ?_⟩
      rw [List.mem_singleton.mp hact]
      trivial
    · exact ⟨rfl, by simp⟩

theorem resumeFocus_silent (bridge : AssistantBridge) (await : FocusAwait) (succeeded : Bool) :
    (bridge.resumeFocus await succeeded).1.ledger = bridge.ledger ∧
      ∀ act ∈ (bridge.resumeFocus await succeeded).2.2, act.Silent := by
  unfold AssistantBridge.resumeFocus
  split
  · refine ⟨rfl, fun act hact => ?_⟩
    rw [List.mem_singleton.mp hact]
    trivial
  all_goals exact ⟨by first | rfl | exact ledger_settle .., nofun⟩

/-- What each event does to the records. -/
theorem booked_step (commands : String → Option Command) (system : System) (event : Event) :
    Booked system.state.ledger event (System.step commands system event).2
      (System.step commands system event).1.state.ledger := by
  have hrefused : ∀ error : BridgeError, ∀ act ∈ [Act.refused error], act.Silent := by
    intro error act hact
    rw [List.mem_singleton.mp hact]
    trivial
  have hmoves : ∀ {after : System} {acts : List Act},
      Serial.Moves AssistantBridge.setFocus system after acts →
      Booked system.state.ledger event acts after.state.ledger := by
    intro after acts hmoves
    cases hmoves with
    | same => exact .silent (by simp)
    | starts hcurrent hqueue =>
      have hpiece := startFocus_silent system.state
      simp only [AssistantBridge.setFocus, hpiece]
      exact .silent (hpiece _).2
    | resumes hcurrent =>
      have hpiece := resumeFocus_silent system.state
      simp only [AssistantBridge.setFocus, hpiece]
      exact .silent (hpiece _ _).2
  cases event with
  | createSession body =>
    simp only [System.step, System.createSession]
    split
    · exact .silent (hrefused _)
    · exact .silent (by simp)
  | deleteSession sessionId =>
    simp only [System.step, System.deleteSession]
    split
    · exact .silent (by simp)
    · exact .silent (hrefused _)
  | focus body =>
    simp only [System.step, System.focus]
    split
    · exact .silent (hrefused _)
    · exact .silent (by simp)
  | execute body available => exact booked_execute commands system.state body available
  | passes duration => exact .silent nofun
  | goesOn number draw =>
    simp only [System.step, System.goesOn]
    split
    · exact .opened
    · exact .silent (by simp)
  | executed future outcome =>
    simp only [System.step, System.within, AssistantBridge.executed]
    split
    · rename_i hrunning
      exact .completed hrunning
    · exact .silent (by simp)
  | fires timer =>
    simp only [System.step, System.fires]
    split <;> exact .silent (by simp)
  | turn => exact hmoves (Serial.next_moves ..)
  | reply succeeded => exact hmoves (Serial.reply_moves ..)

/-! ## What the records tell of the history -/

open History

/-- A request that was accepted has its record as long as its session is the current one,
and all that were accepted with one id have one content and one future. -/
structure Kept (ledger : Ledger) (history : History) : Prop where
  issued : ∀ sessionId, ledger.sessionId = some sessionId → sessionId ∈ history.sessions
  plain : ∀ sessionId ∈ history.sessions, ':' ∉ sessionId.toList
  accepted : ∀ {requestId body future}, Accepted history requestId body future →
    future < ledger.nextFuture ∧ ∃ sessionId ∈ history.sessions, belongs sessionId requestId ∧
      (ledger.sessionId = some sessionId →
        ∃ previous, ledger.requests.lookup requestId = some previous)
  agrees : ∀ {requestId body future previous}, Accepted history requestId body future →
    ledger.requests.lookup requestId = some previous → previous = ⟨body.fingerprint, future⟩
  origin : ∀ {requestId previous}, ledger.requests.lookup requestId = some previous →
    ∃ body, Accepted history requestId body previous.result
  named : ∀ {requestId other body body' future}, Accepted history requestId body future →
    Accepted history other body' future → requestId = other
  unique : ∀ {requestId body body' future future'}, Accepted history requestId body future →
    Accepted history requestId body' future' →
      future = future' ∧ body.fingerprint = body'.fingerprint
  executed : ∀ {future command arguments requestId},
    Act.executes future command arguments requestId ∈ history.acts →
      ∃ body, Accepted history requestId body future
  once : Always (fun before _ acts => ∀ future command arguments requestId,
    Act.executes future command arguments requestId ∈ acts →
      ∀ body other, ¬ Accepted before requestId body other) history

theorem kept_initial : Kept System.initial.state.ledger [] := by
  have hnone : ∀ {requestId body future}, ¬ Accepted [] requestId body future := by
    rintro requestId body future ⟨_, _, _, hmem, -⟩
    cases hmem
  constructor
  · exact nofun
  · exact nofun
  · exact fun h => absurd h hnone
  · exact fun h => absurd h hnone
  · exact nofun
  · exact fun h => absurd h hnone
  · exact fun h => absurd h hnone
  · exact nofun
  · exact always_nil _

/-- An id whose record is not there was never accepted, if it is of the current session. -/
theorem Kept.new {ledger : Ledger} {history : History} {requestId sessionId : String}
    (h : Kept ledger history) (hnew : ledger.requests.lookup requestId = none)
    (hsession : ledger.sessionId = some sessionId) (hbelongs : belongs sessionId requestId)
    (body : JsonBody) (future : ℕ) : ¬ Accepted history requestId body future := by
  intro haccepted
  obtain ⟨-, other, hother, hbelongs', hrecord⟩ := h.accepted haccepted
  have hsame : sessionId = other := belongs_unique
    (h.plain sessionId (h.issued sessionId hsession)) (h.plain other hother) hbelongs hbelongs'
  obtain ⟨previous, hprevious⟩ := hrecord (hsession.trans (congrArg some hsame))
  rw [hnew] at hprevious
  cases hprevious

section Booked

variable {ledger after : Ledger} {history : History} {event : Event} {acts : List Act}

theorem always_step {history : History} (h : Kept ledger history)
    (hnew : ∀ future command arguments requestId,
      Act.executes future command arguments requestId ∈ acts →
        ∀ body other, ¬ Accepted history requestId body other) :
    Always (fun before _ acts => ∀ future command arguments requestId,
      Act.executes future command arguments requestId ∈ acts →
        ∀ body other, ¬ Accepted before requestId body other) (history ++ [(event, acts)]) :=
  always_concat.mpr ⟨h.once, hnew⟩

/-- A step that answers no request with a future. -/
theorem Kept.quiet (h : Kept ledger history) (hfuture : after.nextFuture = ledger.nextFuture)
    (hrequests : after.requests = ledger.requests) (hsession : after.sessionId = ledger.sessionId)
    (hcreated : acts.filterMap Act.session = []) (hreturned : ∀ future, .returned future ∉ acts)
    (hexecutes : acts.filterMap Act.execution = []) : Kept after (history ++ [(event, acts)]) := by
  have hsame : ∀ {requestId body future},
      Accepted (history ++ [(event, acts)]) requestId body future ↔
        Accepted history requestId body future := by
    intro requestId body future
    rw [accepted_concat]
    refine or_iff_left ?_
    rintro ⟨_, _, _, _, hmem⟩
    exact hreturned future hmem
  have hnone : ∀ future command arguments requestId,
      Act.executes future command arguments requestId ∉ acts := by
    intro future command arguments requestId hmem
    have hnothing := List.filterMap_eq_nil_iff.mp hexecutes _ hmem
    cases hnothing
  have hsessions : (history ++ [(event, acts)]).sessions = history.sessions := by
    rw [sessions_concat, hcreated, List.append_nil]
  constructor
  · rw [hsessions, hsession]
    exact h.issued
  · rw [hsessions]
    exact h.plain
  · intro requestId body future haccepted
    rw [hfuture, hrequests, hsession, hsessions]
    exact h.accepted (hsame.mp haccepted)
  · intro requestId body future previous haccepted hlookup
    rw [hrequests] at hlookup
    exact h.agrees (hsame.mp haccepted) hlookup
  · intro requestId previous hlookup
    rw [hrequests] at hlookup
    obtain ⟨body, haccepted⟩ := h.origin hlookup
    exact ⟨body, hsame.mpr haccepted⟩
  · exact fun hfirst hsecond => h.named (hsame.mp hfirst) (hsame.mp hsecond)
  · exact fun hfirst hsecond => h.unique (hsame.mp hfirst) (hsame.mp hsecond)
  · intro future command arguments requestId hmem
    rw [acts_concat] at hmem
    rcases List.mem_append.mp hmem with hold | hnew
    · obtain ⟨body, haccepted⟩ := h.executed hold
      exact ⟨body, hsame.mpr haccepted⟩
    · exact absurd hnew (hnone _ _ _ _)
  · exact always_step h fun _ _ _ _ hmem => absurd hmem (hnone _ _ _ _)

/-- A session with a new id has no requests yet. -/
theorem Kept.opened (h : Kept ledger history) {number : ℕ} {draw : Draw}
    (hfresh : draw.sessionId ∉ history.sessions) :
    Kept { ledger with sessionId := some draw.sessionId }
      (history ++ [(.goesOn number draw, [.created draw.sessionId])]) := by
  have hsame : ∀ {requestId body future},
      Accepted (history ++ [(.goesOn number draw, [.created draw.sessionId])]) requestId body
        future ↔ Accepted history requestId body future := by
    intro requestId body future
    rw [accepted_concat]
    refine or_iff_left ?_
    rintro ⟨_, _, hevent, _⟩
    cases hevent
  have hsessions : sessions (history ++ [(.goesOn number draw, [.created draw.sessionId])]) =
      history.sessions ++ [draw.sessionId] := sessions_concat
  constructor
  · intro sessionId hsession
    rw [hsessions, ← Option.some.inj hsession]
    exact List.mem_append_right _ (List.mem_singleton_self _)
  · intro sessionId hmem
    rw [hsessions] at hmem
    rcases List.mem_append.mp hmem with hold | hnew
    · exact h.plain sessionId hold
    · rw [List.mem_singleton.mp hnew]
      exact colon_not_mem_sessionId draw
  · intro requestId body future haccepted
    obtain ⟨hlt, sessionId, hmem, hbelongs, -⟩ := h.accepted (hsame.mp haccepted)
    refine ⟨hlt, sessionId, ?_, hbelongs, fun hsession => ?_⟩
    · rw [hsessions]
      exact List.mem_append_left _ hmem
    · obtain rfl := Option.some.inj hsession
      exact absurd hmem hfresh
  · exact fun haccepted hlookup => h.agrees (hsame.mp haccepted) hlookup
  · intro requestId previous hlookup
    obtain ⟨body, haccepted⟩ := h.origin hlookup
    exact ⟨body, hsame.mpr haccepted⟩
  · exact fun hfirst hsecond => h.named (hsame.mp hfirst) (hsame.mp hsecond)
  · exact fun hfirst hsecond => h.unique (hsame.mp hfirst) (hsame.mp hsecond)
  · intro future command arguments requestId hmem
    rw [acts_concat] at hmem
    rcases List.mem_append.mp hmem with hold | hnew
    · obtain ⟨body, haccepted⟩ := h.executed hold
      exact ⟨body, hsame.mpr haccepted⟩
    · cases List.mem_singleton.mp hnew
  · exact always_step h fun _ _ _ _ hmem => nomatch List.mem_singleton.mp hmem

/-- One more request is answered, with the future of its record. -/
theorem Kept.answered (h : Kept ledger history) {body : JsonBody} {available : Bool}
    {requestId sessionId : String} {future : ℕ}
    (hids : AssistantBridge.checkIds body = .ok (requestId, sessionId))
    (hcreated : acts.filterMap Act.session = []) (hsession : after.sessionId = ledger.sessionId)
    (hreturned : ∀ other, .returned other ∈ acts ↔ other = future)
    (hlookup : after.requests.lookup requestId = some ⟨body.fingerprint, future⟩)
    (hfuture : ledger.nextFuture ≤ after.nextFuture ∧ future < after.nextFuture)
    (hkept : ∀ id, id ≠ requestId → after.requests.lookup id = ledger.requests.lookup id ∨
      after.requests.lookup id = none ∧
        ∀ current, ledger.sessionId = some current → belongs current id = false)
    (hbelongs : ∃ session ∈ history.sessions, belongs session requestId)
    (hnamed : ∀ {id body'}, Accepted history id body' future → id = requestId)
    (hunique : ∀ {body' future'}, Accepted history requestId body' future' →
      future = future' ∧ body.fingerprint = body'.fingerprint)
    (hexecutes : ∀ other command arguments id,
      Act.executes other command arguments id ∈ acts → other = future ∧ id = requestId ∧
        ∀ body' future', ¬ Accepted history requestId body' future') :
    Kept after (history ++ [(.execute body available, acts)]) := by
  have hsame : ∀ {id body' future'},
      Accepted (history ++ [(.execute body available, acts)]) id body' future' ↔
        Accepted history id body' future' ∨ id = requestId ∧ body' = body ∧ future' = future := by
    intro id body' future'
    rw [accepted_concat]
    refine or_congr_right ⟨?_, ?_⟩
    · rintro ⟨_, _, hevent, hids', hmem⟩
      cases hevent
      rw [hids] at hids'
      cases hids'
      exact ⟨rfl, rfl, (hreturned _).mp hmem⟩
    · rintro ⟨rfl, rfl, rfl⟩
      exact ⟨sessionId, available, rfl, hids, (hreturned _).mpr rfl⟩
  have hsessions : sessions (history ++ [(.execute body available, acts)]) = history.sessions := by
    rw [sessions_concat, hcreated, List.append_nil]
  constructor
  · rw [hsessions, hsession]
    exact h.issued
  · rw [hsessions]
    exact h.plain
  · intro id body' future' haccepted
    rw [hsessions, hsession]
    rcases hsame.mp haccepted with hold | ⟨rfl, rfl, rfl⟩
    · obtain ⟨hlt, session, hmem, hsessionOf, hrecord⟩ := h.accepted hold
      refine ⟨hlt.trans_le hfuture.1, session, hmem, hsessionOf, fun hcurrent => ?_⟩
      by_cases hid : id = requestId
      · exact ⟨_, hid ▸ hlookup⟩
      · rcases hkept id hid with hsame | ⟨-, hother⟩
        · rw [hsame]
          exact hrecord hcurrent
        · rw [hother session hcurrent] at hsessionOf
          cases hsessionOf
    · obtain ⟨session, hmem, hsessionOf⟩ := hbelongs
      exact ⟨hfuture.2, session, hmem, hsessionOf, fun _ => ⟨_, hlookup⟩⟩
  · intro id body' future' previous haccepted hprevious
    by_cases hid : id = requestId
    · rw [hid, hlookup] at hprevious
      rw [← Option.some.inj hprevious]
      rcases hsame.mp haccepted with hold | ⟨-, rfl, rfl⟩
      · rw [hid] at hold
        rw [(hunique hold).1, (hunique hold).2]
      · rfl
    · rcases hkept id hid with hsame' | ⟨hnone, -⟩
      · rw [hsame'] at hprevious
        rcases hsame.mp haccepted with hold | ⟨rfl, -, -⟩
        · exact h.agrees hold hprevious
        · exact absurd rfl hid
      · rw [hnone] at hprevious
        cases hprevious
  · intro id previous hprevious
    by_cases hid : id = requestId
    · rw [hid, hlookup] at hprevious
      rw [← Option.some.inj hprevious]
      exact ⟨body, hsame.mpr (.inr ⟨hid, rfl, rfl⟩)⟩
    · rcases hkept id hid with hsame' | ⟨hnone, -⟩
      · rw [hsame'] at hprevious
        obtain ⟨body', haccepted⟩ := h.origin hprevious
        exact ⟨body', hsame.mpr (.inl haccepted)⟩
      · rw [hnone] at hprevious
        cases hprevious
  · intro first second body₁ body₂ future' hfirst hsecond
    rcases hsame.mp hfirst with hold | ⟨rfl, -, rfl⟩
    · rcases hsame.mp hsecond with hold' | ⟨rfl, -, rfl⟩
      · exact h.named hold hold'
      · exact hnamed hold
    · rcases hsame.mp hsecond with hold' | ⟨rfl, -, -⟩
      · exact (hnamed hold').symm
      · rfl
  · intro id body₁ body₂ future₁ future₂ hfirst hsecond
    rcases hsame.mp hfirst with hold | ⟨rfl, rfl, rfl⟩
    · rcases hsame.mp hsecond with hold' | ⟨rfl, rfl, rfl⟩
      · exact h.unique hold hold'
      · exact ⟨(hunique hold).1.symm, (hunique hold).2.symm⟩
    · rcases hsame.mp hsecond with hold' | ⟨-, rfl, rfl⟩
      · exact hunique hold'
      · exact ⟨rfl, rfl⟩
  · intro other command arguments id hmem
    rw [acts_concat] at hmem
    rcases List.mem_append.mp hmem with hold | hnew
    · obtain ⟨body', haccepted⟩ := h.executed hold
      exact ⟨body', hsame.mpr (.inl haccepted)⟩
    · obtain ⟨rfl, rfl, -⟩ := hexecutes _ _ _ _ hnew
      exact ⟨body, hsame.mpr (.inr ⟨rfl, rfl, rfl⟩)⟩
  · refine always_step h fun other command arguments id hmem => ?_
    obtain ⟨-, rfl, hnone⟩ := hexecutes _ _ _ _ hmem
    exact hnone

theorem Kept.recorded (h : Kept ledger history) {body : JsonBody} {available : Bool}
    {requestId sessionId : String}
    (hids : AssistantBridge.checkIds body = .ok (requestId, sessionId))
    (hnew : ledger.requests.lookup requestId = none)
    (hsession : ledger.sessionId = some sessionId)
    (hrecorded : Recorded sessionId ledger.requests requestId
      ⟨body.fingerprint, ledger.nextFuture⟩ after.requests)
    (hafter : after.sessionId = ledger.sessionId) (hnext : after.nextFuture = ledger.nextFuture + 1)
    (hcreated : acts.filterMap Act.session = [])
    (hreturned : ∀ other, .returned other ∈ acts ↔ other = ledger.nextFuture)
    (hexecutes : ∀ other command arguments id,
      Act.executes other command arguments id ∈ acts → other = ledger.nextFuture ∧ id = requestId) :
    Kept after (history ++ [(.execute body available, acts)]) := by
  have hbelongs := belongs_of_checkIds hids
  have hnone := h.new hnew hsession hbelongs
  refine h.answered hids hcreated hafter hreturned hrecorded.added (by omega) ?_
    ⟨sessionId, h.issued sessionId hsession, hbelongs⟩ ?_ ?_ ?_
  · intro id hid
    refine (hrecorded.kept id hid).imp_right fun hgone => ⟨hgone.1, fun current hcurrent => ?_⟩
    rw [hsession] at hcurrent
    rw [← Option.some.inj hcurrent]
    exact hgone.2
  · exact fun haccepted => absurd (h.accepted haccepted).1 (Nat.lt_irrefl _)
  · exact fun haccepted => absurd haccepted (hnone _ _)
  · intro other command arguments id hmem
    obtain ⟨hother, hid⟩ := hexecutes _ _ _ _ hmem
    exact ⟨hother, hid, hnone⟩

theorem silent_nil (hsilent : ∀ act ∈ acts, act.Silent) {α : Type} {f : Act → Option α}
    (hf : ∀ act, act.Silent → f act = none) : acts.filterMap f = [] :=
  List.filterMap_eq_nil_iff.mpr fun act hact => hf act (hsilent act hact)

theorem Kept.booked (h : Kept ledger history) (hbooked : Booked ledger event acts after)
    (hfresh : (history ++ [(event, acts)]).sessions.Nodup) :
    Kept after (history ++ [(event, acts)]) := by
  cases hbooked with
  | silent hsilent =>
    refine h.quiet rfl rfl rfl (silent_nil hsilent ?_) ?_ (silent_nil hsilent ?_)
    · rintro (_ | _ | _ | _ | _ | _ | _) hact <;> first | rfl | exact hact.elim
    · exact fun future hmem => hsilent _ hmem
    · rintro (_ | _ | _ | _ | _ | _ | _) hact <;> first | rfl | exact hact.elim
  | opened =>
    refine h.opened fun hmem => ?_
    rw [sessions_concat] at hfresh
    exact (List.nodup_append.mp hfresh).2.2 _ hmem _ (List.mem_singleton_self _) rfl
  | completed hrunning => exact h.quiet rfl rfl rfl rfl (by simp) rfl
  | @retried body available requestId sessionId previous hids hlookup hfingerprint =>
    obtain ⟨body', haccepted⟩ := h.origin hlookup
    have hagrees := h.agrees haccepted hlookup
    obtain ⟨-, session, hmem, hbelongs, -⟩ := h.accepted haccepted
    refine h.answered hids rfl rfl (by simp) ?_ ⟨le_rfl, (h.accepted haccepted).1⟩
      (fun _ _ => .inl rfl) ⟨session, hmem, hbelongs⟩ (fun hother => h.named hother haccepted) ?_
      (by simp)
    · rw [hlookup, ← hfingerprint]
    · intro other future hother
      obtain ⟨hfuture, hsame⟩ := h.unique haccepted hother
      exact ⟨hfuture, by rw [← hfingerprint, hagrees, hsame]⟩
  | limited hids hnew hsession hrecorded =>
    exact h.recorded hids hnew hsession hrecorded rfl rfl rfl (by simp) (by simp)
  | begun hids hnew hsession hrecorded =>
    refine h.recorded hids hnew hsession hrecorded rfl rfl rfl (by simp) ?_
    intro other command arguments id hmem
    simp only [List.mem_cons, Act.executes.injEq, reduceCtorEq, List.not_mem_nil, or_self,
      or_false] at hmem
    exact ⟨hmem.1, hmem.2.2.2⟩

end Booked

/-- A result is that of the execution whose future it completes, or says that there was
no room for the record of a request, which was never executed. -/
def Explained (history : History) (event : Event) (future : ℕ) (result : List (String × Json)) :
    Prop :=
  (∃ outcome requestId command arguments, event = .executed future outcome ∧
    Act.executes future command arguments requestId ∈ history.acts ∧
      result = AssistantBridge.resultOf requestId outcome) ∨
  ∃ requestId body, Accepted history requestId body future ∧
    result = AssistantBridge.sessionLimit requestId ∧
      ∀ command arguments other, Act.executes future command arguments other ∉ history.acts

structure Results (ledger : Ledger) (history : History) : Prop where
  completed : ∀ future ∈ history.completions, future < ledger.nextFuture
  running : ∀ {future requestId}, (future, requestId) ∈ ledger.running →
    future < ledger.nextFuture ∧ future ∉ history.completions ∧
      ∃ command arguments, Act.executes future command arguments requestId ∈ history.acts
  completions : history.completions.Nodup
  executions : history.executions.Nodup
  explained : ∀ {event acts future result}, (event, acts) ∈ history →
    Act.completed future result ∈ acts → Explained history event future result

theorem results_initial : Results System.initial.state.ledger [] :=
  ⟨nofun, nofun, List.nodup_nil, List.nodup_nil, nofun⟩

section Results

variable {ledger after : Ledger} {history : History} {event : Event} {acts : List Act}

/-- A command is called for a new future. -/
theorem Explained.concat {before : Event} {future : ℕ} {result : List (String × Json)}
    (h : Explained history before future result) (hkept : Kept ledger history)
    (hexecutes : ∀ other command arguments requestId,
      Act.executes other command arguments requestId ∈ acts → other = ledger.nextFuture) :
    Explained (history ++ [(event, acts)]) before future result := by
  rcases h with ⟨outcome, requestId, command, arguments, hevent, hmem, hresult⟩ |
    ⟨requestId, body, haccepted, hresult, hnone⟩
  · refine .inl ⟨outcome, requestId, command, arguments, hevent, ?_, hresult⟩
    rw [acts_concat]
    exact List.mem_append_left _ hmem
  · refine .inr ⟨requestId, body, accepted_concat.mpr (.inl haccepted), hresult, ?_⟩
    intro command arguments other hmem
    rw [acts_concat] at hmem
    rcases List.mem_append.mp hmem with hold | hnew
    · exact hnone _ _ _ hold
    · exact absurd (hkept.accepted haccepted).1 (hexecutes _ _ _ _ hnew ▸ Nat.lt_irrefl _)

theorem Results.explained_concat (h : Results ledger history) (hkept : Kept ledger history)
    (hexecutes : ∀ other command arguments requestId,
      Act.executes other command arguments requestId ∈ acts → other = ledger.nextFuture)
    (hnew : ∀ future result, Act.completed future result ∈ acts →
      Explained (history ++ [(event, acts)]) event future result)
    {before : Event} {some : List Act} {future : ℕ} {result : List (String × Json)}
    (hmem : (before, some) ∈ history ++ [(event, acts)])
    (hcompleted : Act.completed future result ∈ some) :
    Explained (history ++ [(event, acts)]) before future result := by
  rcases List.mem_append.mp hmem with hold | hlast
  · exact (h.explained hold hcompleted).concat hkept hexecutes
  · obtain ⟨rfl, rfl⟩ := Prod.mk.inj (List.mem_singleton.mp hlast)
    exact hnew future result hcompleted

theorem executes_of_nil (hexecutes : acts.filterMap Act.execution = []) (future : ℕ)
    (command : String) (arguments : List (String × Json)) (requestId : String) :
    Act.executes future command arguments requestId ∉ acts := by
  intro hmem
  cases List.filterMap_eq_nil_iff.mp hexecutes _ hmem

theorem completed_of_nil (hcompletes : acts.filterMap Act.completion = []) (future : ℕ)
    (result : List (String × Json)) : Act.completed future result ∉ acts := by
  intro hmem
  cases List.filterMap_eq_nil_iff.mp hcompletes _ hmem

theorem Results.quiet (h : Results ledger history) (hkept : Kept ledger history)
    (hrunning : after.running = ledger.running) (hfuture : after.nextFuture = ledger.nextFuture)
    (hcompletes : acts.filterMap Act.completion = [])
    (hexecutes : acts.filterMap Act.execution = []) :
    Results after (history ++ [(event, acts)]) := by
  have hcompletions : (history ++ [(event, acts)]).completions = history.completions := by
    rw [completions_concat, hcompletes, List.append_nil]
  constructor
  · rw [hcompletions, hfuture]
    exact h.completed
  · intro future requestId hmem
    rw [hrunning] at hmem
    obtain ⟨hlt, hpending, command, arguments, hcalled⟩ := h.running hmem
    rw [hcompletions, hfuture, acts_concat]
    exact ⟨hlt, hpending, command, arguments, List.mem_append_left _ hcalled⟩
  · rw [hcompletions]
    exact h.completions
  · rw [executions_concat, hexecutes, List.append_nil]
    exact h.executions
  · refine h.explained_concat hkept ?_ ?_
    · exact fun _ _ _ _ hmem => absurd hmem (executes_of_nil hexecutes _ _ _ _)
    · exact fun _ _ hmem => absurd hmem (completed_of_nil hcompletes _ _)

theorem Results.booked (h : Results ledger history) (hkept : Kept ledger history)
    (hbooked : Booked ledger event acts after) : Results after (history ++ [(event, acts)]) := by
  cases hbooked with
  | silent hsilent =>
    refine h.quiet hkept rfl rfl (silent_nil hsilent ?_) (silent_nil hsilent ?_)
    all_goals rintro (_ | _ | _ | _ | _ | _ | _) hact <;> first | rfl | exact hact.elim
  | opened => exact h.quiet hkept rfl rfl rfl rfl
  | retried => exact h.quiet hkept rfl rfl rfl rfl
  | @completed future outcome requestId hlookup =>
    obtain ⟨before, rest, hsplit, -⟩ := List.lookup_eq_some_iff.mp hlookup
    have hmem : (future, requestId) ∈ ledger.running := by
      rw [hsplit]
      exact List.mem_append_right _ (List.mem_cons_self ..)
    obtain ⟨hlt, hpending, command, arguments, hcalled⟩ := h.running hmem
    have hcompletions : History.completions (history ++ [(.executed future outcome,
        [.completed future (AssistantBridge.resultOf requestId outcome)])]) =
        history.completions ++ [future] := completions_concat
    constructor
    · intro other hother
      rw [hcompletions] at hother
      rcases List.mem_append.mp hother with hold | hnew
      · exact h.completed other hold
      · rw [List.mem_singleton.mp hnew]
        exact hlt
    · intro other id hother
      obtain ⟨hother, hne⟩ := List.mem_filter.mp hother
      obtain ⟨hlt', hpending', command', arguments', hcalled'⟩ := h.running hother
      rw [hcompletions, acts_concat]
      refine ⟨hlt', ?_, command', arguments', List.mem_append_left _ hcalled'⟩
      rw [List.mem_append, List.mem_singleton, not_or]
      exact ⟨hpending', of_decide_eq_true hne⟩
    · rw [hcompletions]
      exact List.nodup_append.mpr ⟨h.completions, List.nodup_singleton _, by
        rintro a ha b hb rfl
        exact hpending (List.mem_singleton.mp hb ▸ ha)⟩
    · rw [executions_concat]
      exact (List.append_nil history.executions).symm ▸ h.executions
    · refine h.explained_concat hkept (by simp) ?_
      intro other result hresult
      cases List.mem_singleton.mp hresult
      refine .inl ⟨outcome, requestId, command, arguments, rfl, ?_, rfl⟩
      rw [acts_concat]
      exact List.mem_append_left _ hcalled
  | @limited body available requestId sessionId requests hids hnew hsession hrecorded =>
    have hcompletions : History.completions (history ++ [(.execute body available,
        [.completed ledger.nextFuture (AssistantBridge.sessionLimit requestId),
          .returned ledger.nextFuture])]) = history.completions ++ [ledger.nextFuture] :=
      completions_concat
    have hfresh : ledger.nextFuture ∉ history.completions :=
      fun hmem => Nat.lt_irrefl _ (h.completed _ hmem)
    constructor
    · intro other hother
      rw [hcompletions] at hother
      rcases List.mem_append.mp hother with hold | hlast
      · exact (h.completed other hold).trans (Nat.lt_succ_self _)
      · rw [List.mem_singleton.mp hlast]
        exact Nat.lt_succ_self _
    · intro other id hother
      obtain ⟨hlt, hpending, command, arguments, hcalled⟩ := h.running hother
      rw [hcompletions, acts_concat]
      refine ⟨hlt.trans (Nat.lt_succ_self _), ?_, command, arguments,
        List.mem_append_left _ hcalled⟩
      rw [List.mem_append, List.mem_singleton, not_or]
      exact ⟨hpending, hlt.ne⟩
    · rw [hcompletions]
      exact List.nodup_append.mpr ⟨h.completions, List.nodup_singleton _, by
        rintro a ha b hb rfl
        exact hfresh (List.mem_singleton.mp hb ▸ ha)⟩
    · rw [executions_concat]
      exact (List.append_nil history.executions).symm ▸ h.executions
    · refine h.explained_concat hkept (by simp) ?_
      intro other result hresult
      obtain ⟨rfl, rfl⟩ : other = ledger.nextFuture ∧
          result = AssistantBridge.sessionLimit requestId := by simpa using hresult
      refine .inr ⟨requestId, body, ?_, rfl, ?_⟩
      · exact accepted_concat.mpr (.inr ⟨sessionId, available, rfl, hids, by simp⟩)
      · intro command arguments id hmem
        rw [acts_concat] at hmem
        rcases List.mem_append.mp hmem with hold | hlast
        · obtain ⟨body', haccepted⟩ := hkept.executed hold
          exact Nat.lt_irrefl _ (hkept.accepted haccepted).1
        · simp at hlast
  | @begun body available requestId sessionId command arguments requests hids hnew hsession
      hrecorded =>
    have hcompletions : History.completions (history ++ [(.execute body available,
        [.executes ledger.nextFuture command arguments requestId,
          .returned ledger.nextFuture])]) = history.completions :=
      completions_concat.trans (List.append_nil _)
    have hexecutions : History.executions (history ++ [(.execute body available,
        [.executes ledger.nextFuture command arguments requestId,
          .returned ledger.nextFuture])]) = history.executions ++ [requestId] :=
      executions_concat
    constructor
    · rw [hcompletions]
      exact fun other hother => (h.completed other hother).trans (Nat.lt_succ_self _)
    · intro other id hother
      rw [hcompletions, acts_concat]
      rcases List.mem_append.mp hother with hold | hlast
      · obtain ⟨hlt, hpending, command', arguments', hcalled⟩ := h.running hold
        exact ⟨hlt.trans (Nat.lt_succ_self _), hpending, command', arguments',
          List.mem_append_left _ hcalled⟩
      · obtain ⟨rfl, rfl⟩ := Prod.mk.inj (List.mem_singleton.mp hlast)
        refine ⟨Nat.lt_succ_self _, fun hmem => Nat.lt_irrefl _ (h.completed _ hmem), command,
          arguments, List.mem_append_right _ (List.mem_cons_self ..)⟩
    · rw [hcompletions]
      exact h.completions
    · rw [hexecutions]
      refine List.nodup_append.mpr ⟨h.executions, List.nodup_singleton _, ?_⟩
      rintro a ha b hb rfl
      obtain rfl := List.mem_singleton.mp hb
      obtain ⟨act, hact, hid⟩ := List.mem_filterMap.mp ha
      cases act with
      | executes future command arguments id =>
        obtain rfl := Option.some.inj hid
        obtain ⟨body', haccepted⟩ := hkept.executed hact
        exact hkept.new hnew hsession (belongs_of_checkIds hids) body' future haccepted
      | _ => cases hid
    · refine h.explained_concat hkept ?_ (by simp)
      intro other command' arguments' id hmem
      simp only [List.mem_cons, Act.executes.injEq, reduceCtorEq, List.not_mem_nil, or_self,
        or_false] at hmem
      exact hmem.1

end Results

theorem kept_run (commands : String → Option Command) (events : List Event)
    (hfresh : (History.sessions (run (System.step commands) System.initial events).2).Nodup) :
    Kept (run (System.step commands) System.initial events).1.state.ledger
        (run (System.step commands) System.initial events).2 ∧
      Results (run (System.step commands) System.initial events).1.state.ledger
        (run (System.step commands) System.initial events).2 := by
  refine run_history (System.step commands) (I := fun system history =>
    (History.sessions history).Nodup →
      Kept system.state.ledger history ∧ Results system.state.ledger history)
    (fun _ => ⟨kept_initial, results_initial⟩) ?_ events hfresh
  intro system history event ih hfresh
  have hbefore : (History.sessions history).Nodup := by
    rw [sessions_concat] at hfresh
    exact (List.nodup_append.mp hfresh).1
  obtain ⟨hkept, hresults⟩ := ih hbefore
  have hbooked := booked_step commands system event
  exact ⟨hkept.booked hbooked hfresh, hresults.booked hkept hbooked⟩

/-- A record of the current session stays through a step. -/
theorem Booked.keeps {ledger after : Ledger} {event : Event} {acts : List Act}
    (h : Booked ledger event acts after) {sessionId requestId : String}
    (hsession : ledger.sessionId = some sessionId) (hbelongs : belongs sessionId requestId)
    (hrecord : (ledger.requests.lookup requestId).isSome) :
    (after.requests.lookup requestId).isSome := by
  have hkept : ∀ {id current : String} {execution : Execution}
      {requests : List (String × Execution)}, ledger.sessionId = some current →
      Recorded current ledger.requests id execution requests →
        (requests.lookup requestId).isSome := by
    intro id current execution requests hcurrent hrecorded
    obtain rfl : sessionId = current := Option.some.inj (hsession.symm.trans hcurrent)
    by_cases hid : requestId = id
    · rw [hid, hrecorded.added]
      rfl
    · rcases hrecorded.kept requestId hid with hsame | ⟨-, hother⟩
      · rw [hsame]
        exact hrecord
      · rw [hbelongs] at hother
        cases hother
  cases h with
  | silent => exact hrecord
  | opened => exact hrecord
  | completed => exact hrecord
  | retried => exact hrecord
  | limited hids hnew hcurrent hrecorded => exact hkept hcurrent hrecorded
  | begun hids hnew hcurrent hrecorded => exact hkept hcurrent hrecorded

/-- A request whose id has a record gets the future of the record, if it has the content. -/
theorem execute_recorded (commands : String → Option Command) {system : System}
    {requestId sessionId : String} {previous : Execution} {body : JsonBody}
    (hids : AssistantBridge.checkIds body = .ok (requestId, sessionId))
    (hlookup : system.state.requests.lookup requestId = some previous) (available : Bool) :
    System.step commands system (.execute body available) =
      (system, if previous.fingerprint = body.fingerprint then [.returned previous.result]
        else [.refused AssistantBridge.execute.conflict]) := by
  simp only [System.step, System.within, AssistantBridge.execute, hids, hlookup]
  split <;> rfl

/-- In every run that draws no session id twice: no id is executed twice, or once it was
accepted; all requests that were accepted with an id have the future of its execution,
which is completed once, with what the command returned; as long as the record is there,
the same content gets this future and other content a refusal, and nothing else changes;
and no step drops a record of the current session. -/
theorem executed_at_most_once (commands : String → Option Command) (events : List Event)
    (hfresh : (History.sessions (run (System.step commands) System.initial events).2).Nodup) :
    let reached := (run (System.step commands) System.initial events).1
    let history : History := (run (System.step commands) System.initial events).2
    (history.executions.Nodup ∧
      ∀ before event acts after, history = before ++ (event, acts) :: after →
        ∀ requestId body future, Accepted before requestId body future →
          ∀ other command arguments,
            Act.executes other command arguments requestId ∉ acts) ∧
    (history.completions.Nodup ∧
      ∀ requestId body future, Accepted history requestId body future →
        (∀ other command arguments,
          Act.executes other command arguments requestId ∈ history.acts → other = future) ∧
        ∀ event acts result, (event, acts) ∈ history → Act.completed future result ∈ acts →
          (∃ outcome command arguments, event = .executed future outcome ∧
            Act.executes future command arguments requestId ∈ history.acts ∧
            result = AssistantBridge.resultOf requestId outcome) ∨
          (∀ command arguments,
            Act.executes future command arguments requestId ∉ history.acts) ∧
            result = AssistantBridge.sessionLimit requestId) ∧
    (∀ requestId body future, Accepted history requestId body future →
      (reached.state.requests.lookup requestId).isSome →
      ∀ other sessionId available,
        AssistantBridge.checkIds other = .ok (requestId, sessionId) →
        (other.Same body → System.step commands reached (.execute other available) =
          (reached, [.returned future])) ∧
        (¬ other.Same body → System.step commands reached (.execute other available) =
          (reached, [.refused AssistantBridge.execute.conflict]))) ∧
    ∀ event sessionId requestId, reached.state.sessionId = some sessionId →
      belongs sessionId requestId → (reached.state.requests.lookup requestId).isSome →
      ((System.step commands reached event).1.state.requests.lookup requestId).isSome := by
  intro reached history
  obtain ⟨hkept, hresults⟩ := kept_run commands events hfresh
  refine ⟨⟨hresults.executions, ?_⟩, ⟨hresults.completions, ?_⟩, ?_, ?_⟩
  · intro before event acts after hsplit requestId body future haccepted other command arguments
      hmem
    exact hkept.once before (event, acts) after hsplit _ _ _ _ hmem body future haccepted
  · intro requestId body future haccepted
    refine ⟨?_, ?_⟩
    · intro other command arguments hmem
      obtain ⟨body', haccepted'⟩ := hkept.executed hmem
      exact (hkept.unique haccepted' haccepted).1
    · intro event acts result hmem hcompleted
      rcases hresults.explained hmem hcompleted with
        ⟨outcome, id, command, arguments, hevent, hcalled, hresult⟩ |
        ⟨id, body', haccepted', hresult, hnone⟩
      · obtain ⟨body', haccepted'⟩ := hkept.executed hcalled
        obtain rfl := hkept.named haccepted' haccepted
        exact .inl ⟨outcome, command, arguments, hevent, hcalled, hresult⟩
      · obtain rfl := hkept.named haccepted' haccepted
        exact .inr ⟨fun command arguments => hnone command arguments id, hresult⟩
  · intro requestId body future haccepted hrecord other sessionId available hids
    obtain ⟨previous, hlookup⟩ := Option.isSome_iff_exists.mp hrecord
    have hprevious := hkept.agrees haccepted hlookup
    rw [execute_recorded commands hids hlookup, hprevious]
    refine ⟨fun hsame => ?_, fun hother => ?_⟩
    · rw [if_pos (JsonBody.fingerprint_eq_iff.mpr hsame).symm]
    · rw [if_neg fun heq => hother (JsonBody.fingerprint_eq_iff.mp heq.symm)]
  · intro event sessionId requestId hsession hbelongs hrecord
    exact (booked_step commands reached event).keeps hsession hbelongs hrecord

def firstDraw : Draw := 0

def secondDraw : Draw := 1

def waking : JsonBody := ⟨[("wake_phrase", .string "Argo")], rfl⟩

/-- A session is opened. -/
def opening (draw : Draw) (number : ℕ) : List Event :=
  [.createSession ⟨[("wake_phrase", .string "Argo")], rfl⟩, .turn, .reply true,
    .goesOn number draw]

/-- A request to mute, with its fields in either order. -/
def mute (draw : Draw) (suffix : String) (sorted : Bool) : JsonBody :=
  let requestId : Json := .string (draw.sessionId ++ ":" ++ suffix)
  let arguments : Json := .object [("muted", .bool true)]
  if sorted then
    ⟨[("arguments", arguments), ("command", .string "audio.set_muted"),
      ("request_id", requestId), ("session_id", .string draw.sessionId)], rfl⟩
  else
    ⟨[("session_id", .string draw.sessionId), ("request_id", requestId),
      ("command", .string "audio.set_muted"), ("arguments", arguments)], rfl⟩

/-- The commands of a host that can mute. -/
def muting : String → Option Command := fun name =>
  if name = "audio.set_muted" then some ⟨fun _ => none⟩ else none

/-- The session is opened, and its command called and sent again before it returns. -/
def sentTwice : List Event :=
  opening 0 0 ++ [.execute (mute 0 "mute-once" true) true, .execute (mute 0 "mute-once" false) true,
    .executed 0 (some [("status", .string "succeeded")])]

theorem sentTwice_executes :
    (History.executions (run (System.step muting) System.initial sentTwice).2).length = 1 ∧
      (History.executions (run (System.step muting) System.initial sentTwice).2).Nodup :=
  ⟨by decide +kernel, (executed_at_most_once muting sentTwice (by decide +kernel)).1.1⟩

end ProjectArgo.Assistant
