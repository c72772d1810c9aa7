import ProjectArgo.Library.Json
import ProjectArgo.Library.Serial

/-!
# The assistant bridge

The voice process opens a wake session, asks for audio focus and has commands executed.
A session ends when it is deleted or replaced, or when its time is over, which a timer
watches. Operations on the focus run one at a time. Every execution is recorded under
the id of its request, so that a request that is sent again gets the same result. Time
is in microseconds. The bridge is open throughout.
-/
namespace ProjectArgo.Assistant

open Library

/-! ## Requests -/

/-- A JSON object, which has no name twice. -/
structure JsonBody where
  fields : List (String × Json)
  distinct : (Json.object fields).distinct

namespace JsonBody

def get (body : JsonBody) (name : String) : Json := (body.fields.lookup name).getD .null

/-- The check of `_only`. -/
def only (body : JsonBody) (names : List String) : Bool := body.fields.all (·.1 ∈ names)

/-- `jsonEncode(_canonical(body))`. -/
def fingerprint (body : JsonBody) : List Char := (Json.object body.fields).fingerprint

def Same (body other : JsonBody) : Prop := (Json.object body.fields).Same (.object other.fields)

theorem fingerprint_eq_iff {body other : JsonBody} :
    body.fingerprint = other.fingerprint ↔ body.Same other :=
  Json.fingerprint_eq_iff body.distinct other.distinct

end JsonBody

inductive BridgeError
  | bridge (status : ℕ) (code message : String)
  | format (message : String)
  deriving DecidableEq

/-- The length of a string in code units. -/
def codeUnits (text : String) : ℕ :=
  (text.toList.map fun c => if c.toNat < 65536 then 1 else 2).sum

/-- The characters of `base64Url`. -/
def base64Alphabet : List Char :=
  "ABCDEFGHIJKLMNOPQRSTUVWXYZabcdefghijklmnopqrstuvwxyz0123456789-_".toList

def base64Digit (value : ℕ) : Char := base64Alphabet.getD value 'A'

/-- `base64Url.encode` without the padding. -/
def base64Url : List ℕ → List Char
  | a :: b :: c :: rest =>
    base64Digit (a / 4) :: base64Digit (a % 4 * 16 + b / 16) ::
      base64Digit (b % 16 * 4 + c / 64) :: base64Digit (c % 64) :: base64Url rest
  | [a, b] => [base64Digit (a / 4), base64Digit (a % 4 * 16 + b / 16), base64Digit (b % 16 * 4)]
  | [a] => [base64Digit (a / 4), base64Digit (a % 4 * 16)]
  | [] => []

/-- The bytes that are drawn for a session. -/
abbrev Draw := Fin 24 → Fin 256

def Draw.sessionId (draw : Draw) : String :=
  String.ofList (base64Url (List.ofFn fun place => (draw place).val))

/-- `requestId.startsWith('$sessionId:')`. -/
def belongs (sessionId requestId : String) : Bool :=
  (sessionId.toList ++ [':']).isPrefixOf requestId.toList

def isRequestIdChar (c : Char) : Bool := c.isAlphanum || c = '_' || c = ':' || c = '-'

def wellFormedRequestId (requestId sessionId : String) : Bool :=
  codeUnits requestId ≤ 160 && belongs sessionId requestId &&
    (requestId.toList.all isRequestIdChar && !requestId.isEmpty) &&
    codeUnits sessionId + 9 ≤ codeUnits requestId

/-- A command, by its check of the arguments, which may say what is wrong with them. -/
structure Command where
  validate : List (String × Json) → Option String

/-! ## The state -/

structure Execution where
  fingerprint : List Char
  /-- The future of the result. -/
  result : ℕ
  deriving DecidableEq

/-- A create that waits for its release, or has it and goes on. -/
structure Create where
  number : ℕ
  ttl : ℕ
  released : Bool := false
  deriving DecidableEq

/-- The tables of `AssistantBridge`. Of the bookkeeping, `timers` are those that run, with
the time they are set to, `running` the executions whose command has not returned, with
their futures, and `focus` has the session that the handle was acquired for. -/
structure AssistantBridge where
  now : ℕ := 0
  sessionId : Option String := none
  expiresAt : Option ℕ := none
  sessionTimer : Option ℕ := none
  focus : Option String := none
  requests : List (String × Execution) := []
  timers : List (ℕ × ℕ) := []
  nextTimer : ℕ := 0
  creates : List Create := []
  nextCreate : ℕ := 0
  running : List (ℕ × String) := []
  nextFuture : ℕ := 0
  deriving DecidableEq

/-- Who asked for a release. -/
inductive Caller
  | request (sessionId : Option String)
  | create (number : ℕ)
  | delete
  | timer
  deriving DecidableEq

inductive FocusOp
  | acquire (sessionId : String)
  | release (caller : Caller)
  deriving DecidableEq

/-- The call of the audio service that is awaited. -/
inductive FocusAwait
  | activating (sessionId : String)
  | requesting (sessionId : String)
  | undoing
  | releasing (caller : Caller)
  | deactivating (caller : Caller)
  deriving DecidableEq

inductive Act
  | refused (error : BridgeError)
  | returned (future : ℕ)
  | executes (future : ℕ) (command : String) (arguments : List (String × Json))
      (requestId : String)
  | completed (future : ℕ) (result : List (String × Json))
  | created (sessionId : String)
  | requestsFocus (sessionId : String)
  | releasesFocus (sessionId : String) (caller : Caller)

namespace AssistantBridge

abbrev Piece := AssistantBridge × Option FocusAwait × List Act

/-! ## Sessions and focus -/

/-- `_requireSession`. -/
def requireSession (bridge : AssistantBridge) (id : Json) : Except BridgeError Unit :=
  match id, bridge.sessionId with
  | .string id, some current =>
    if id = current then
      match bridge.expiresAt with
      | some expiresAt =>
        if bridge.now < expiresAt then .ok ()
        else .error (.bridge 409 "session_expired" "Wake session expired.")
      | none => .error (.bridge 409 "session_expired" "Wake session expired.")
    else .error (.bridge 409 "invalid_session" "Unknown wake session.")
  | _, _ => .error (.bridge 409 "invalid_session" "Unknown wake session.")

/-- What the caller does with the outcome of its release. -/
def settle (bridge : AssistantBridge) (caller : Caller) (succeeded : Bool) : AssistantBridge :=
  match caller with
  | .create number =>
    if succeeded then
      { bridge with creates := bridge.creates.map fun create =>
          if create.number = number then { create with released := true } else create }
    else { bridge with creates := bridge.creates.filter (·.number ≠ number) }
  | _ => bridge

def startFocus (bridge : AssistantBridge) : FocusOp → Piece
  | .acquire sessionId =>
    if bridge.focus.isNone then
      match bridge.requireSession (.string sessionId) with
      | .ok _ => (bridge, some (.activating sessionId), [])
      | .error _ => (bridge, none, [])
    else (bridge, none, [])
  | .release caller =>
    match bridge.focus with
    | some sessionId =>
      ({ bridge with focus := none }, some (.releasing caller), [.releasesFocus sessionId caller])
    | none => (bridge, some (.deactivating caller), [])

def resumeFocus (bridge : AssistantBridge) : FocusAwait → Bool → Piece
  | .activating sessionId, true =>
    (bridge, some (.requesting sessionId), [.requestsFocus sessionId])
  | .activating _, false => (bridge, none, [])
  | .requesting sessionId, true => ({ bridge with focus := some sessionId }, none, [])
  | .requesting _, false => (bridge, some .undoing, [])
  | .undoing, _ => (bridge, none, [])
  | .releasing caller, true => (bridge, some (.deactivating caller), [])
  | .releasing caller, false => (bridge.settle caller false, none, [])
  | .deactivating caller, succeeded => (bridge.settle caller succeeded, none, [])

/-- `_setFocus`. -/
def setFocus : Library.Body AssistantBridge FocusOp FocusAwait Bool Act :=
  ⟨startFocus, resumeFocus⟩

/-- `_sessionTimer?.cancel()`. -/
def cancelTimer (bridge : AssistantBridge) : AssistantBridge :=
  { bridge with timers := bridge.timers.filter fun timer => some timer.1 ≠ bridge.sessionTimer }

/-- What a create and a delete do before they wait for their release. -/
def endSession (bridge : AssistantBridge) : AssistantBridge :=
  { bridge.cancelTimer with expiresAt := some bridge.now }

/-- The time to live that a create asks for, in milliseconds. -/
def checkCreate (body : JsonBody) : Except BridgeError ℕ :=
  if body.only ["wake_phrase", "ttl_ms", "session_id"] then
    match body.get "wake_phrase" with
    | .string wakePhrase =>
      if wakePhrase.isEmpty || 64 < codeUnits wakePhrase then
        .error (.format "wake_phrase must be a short string.")
      else
        match body.get "ttl_ms" with
        | .null => .ok 30000
        | .int ttl =>
          if ttl < 1 ∨ 30000 < ttl then .error (.format "ttl_ms must be between 1 and 30000.")
          else .ok ttl.toNat
        | _ => .error (.format "ttl_ms must be between 1 and 30000.")
    | _ => .error (.format "wake_phrase must be a short string.")
  else .error (.format "Unknown request property.")

/-- What a create does once it has its release. -/
def openSession (bridge : AssistantBridge) (create : Create) (draw : Draw) : AssistantBridge :=
  let expiresAt := bridge.now + 1000 * create.ttl
  { bridge with
    sessionId := some draw.sessionId
    expiresAt := some expiresAt
    sessionTimer := some bridge.nextTimer
    timers := bridge.timers ++ [(bridge.nextTimer, expiresAt)]
    nextTimer := bridge.nextTimer + 1
    creates := bridge.creates.filter (·.number ≠ create.number) }

/-- The operation that a request for focus enters, if it is accepted. -/
def checkFocus (bridge : AssistantBridge) (body : JsonBody) : Except BridgeError FocusOp :=
  if body.only ["session_id", "active"] then
    match body.get "active", body.get "session_id" with
    | .bool true, .string id =>
      match bridge.requireSession (.string id) with
      | .ok _ => .ok (.acquire id)
      | .error error => .error error
    | .bool true, _ => .error (.bridge 409 "invalid_session" "Unknown wake session.")
    | .bool false, .string id =>
      if some id = bridge.sessionId then .ok (.release (.request (some id)))
      else .error (.bridge 409 "invalid_session" "Unknown session.")
    | .bool false, .null =>
      if bridge.sessionId = none then .ok (.release (.request none))
      else .error (.bridge 409 "invalid_session" "Unknown session.")
    | .bool false, _ => .error (.bridge 409 "invalid_session" "Unknown session.")
    | _, _ => .error (.format "active must be boolean.")
  else .error (.format "Unknown request property.")

/-! ## Executions -/

/-- The ids that an execution is requested with. -/
def checkIds (body : JsonBody) : Except BridgeError (String × String) :=
  if body.only ["session_id", "request_id", "command", "arguments"] then
    match body.get "request_id", body.get "session_id" with
    | .string requestId, .string sessionId =>
      if wellFormedRequestId requestId sessionId then .ok (requestId, sessionId)
      else .error malformed
    | _, _ => .error malformed
  else .error (.format "Unknown request property.")
where
  malformed : BridgeError := .format
    "request_id must be <server_session_id>:<unique suffix of at least 8 characters>."

/-- The command and its arguments, if they are to be executed now. -/
def checkCommand (commands : String → Option Command) (body : JsonBody) (available : Bool) :
    Except BridgeError (String × List (String × Json)) :=
  match body.get "command" with
  | .string name =>
    match commands name with
    | none => .error unknown
    | some command =>
      match body.get "arguments" with
      | .object arguments =>
        match command.validate arguments with
        | some message => .error (.format message)
        | none =>
          if available then .ok (name, arguments)
          else .error (.bridge 503 "unavailable" "Command is currently unavailable.")
      | _ => .error (.format "arguments must be an object.")
  | _ => .error unknown
where
  unknown : BridgeError :=
    .bridge 404 "unknown_command" "The command is not declared by this host."

def failure (requestId status code message : String) : List (String × Json) :=
  [("request_id", .string requestId), ("status", .string status),
    ("error", .object [("code", .string code), ("message", .string message)])]

def sessionLimit (requestId : String) : List (String × Json) :=
  failure requestId "failed" "session_limit" "Session command limit reached."

/-- The command is called. -/
def begin (bridge : AssistantBridge) (future : ℕ) (requestId command : String)
    (arguments : List (String × Json)) : AssistantBridge × List Act :=
  ({ bridge with running := bridge.running ++ [(future, requestId)] },
    [.executes future command arguments requestId, .returned future])

/-- The request is recorded, and its command called if there is room for the record. -/
def record (bridge : AssistantBridge) (requestId : String) (fingerprint : List Char)
    (command : String) (arguments : List (String × Json)) : AssistantBridge × List Act :=
  let future := bridge.nextFuture
  let requests := bridge.requests ++ [(requestId, ⟨fingerprint, future⟩)]
  let recorded := { bridge with requests := requests, nextFuture := future + 1 }
  if 1024 < requests.length then
    match requests.find? fun entry => !belongs (bridge.sessionId.getD "null") entry.1 with
    | none =>
      ({ recorded with expiresAt := some bridge.now },
        [.completed future (sessionLimit requestId), .returned future])
    | some removable =>
      { recorded with requests := requests.filter (·.1 ≠ removable.1) }.begin future requestId
        command arguments
  else recorded.begin future requestId command arguments

/-- The route of `/v1/execute`. -/
def execute (bridge : AssistantBridge) (commands : String → Option Command) (body : JsonBody)
    (available : Bool) : AssistantBridge × List Act :=
  match checkIds body with
  | .error error => (bridge, [.refused error])
  | .ok (requestId, sessionId) =>
    match bridge.requests.lookup requestId with
    | some previous =>
      if previous.fingerprint = body.fingerprint then (bridge, [.returned previous.result])
      else (bridge, [.refused conflict])
    | none =>
      match bridge.requireSession (.string sessionId) with
      | .error error => (bridge, [.refused error])
      | .ok _ =>
        match checkCommand commands body available with
        | .error error => (bridge, [.refused error])
        | .ok (command, arguments) =>
          bridge.record requestId body.fingerprint command arguments
where
  conflict : BridgeError :=
    .bridge 409 "request_conflict" "Request ID was already used with different content."

/-- What a command returns takes precedence over the id of the request. -/
def resultOf (requestId : String) : Option (List (String × Json)) → List (String × Json)
  | some fields => fields.foldl (fun result field => Json.put result field.1 field.2)
      [("request_id", .string requestId)]
  | none => failure requestId "unknown" "execution_failed"
      "Execution did not return a confirmed result. Do not retry automatically."

/-- A command returns, or throws. -/
def executed (bridge : AssistantBridge) (future : ℕ) (outcome : Option (List (String × Json))) :
    AssistantBridge × List Act :=
  match bridge.running.lookup future with
  | some requestId =>
    ({ bridge with running := bridge.running.filter (·.1 ≠ future) },
      [.completed future (resultOf requestId outcome)])
  | none => (bridge, [])

end AssistantBridge

/-! ## The system -/

/-- Requests, and what else happens: time passes, a create goes on, a command or a timer
is done, and the next operation on the focus begins or has its answer. -/
inductive Event
  | createSession (body : JsonBody)
  | deleteSession (sessionId : Option String)
  | focus (body : JsonBody)
  | execute (body : JsonBody) (available : Bool)
  | passes (duration : ℕ)
  | goesOn (number : ℕ) (draw : Draw)
  | executed (future : ℕ) (outcome : Option (List (String × Json)))
  | fires (timer : ℕ)
  | turn
  | reply (succeeded : Bool)

/-- The bridge with the operations on the focus. -/
abbrev System := Serial AssistantBridge FocusOp FocusAwait

namespace System

open AssistantBridge

def set (system : System) (bridge : AssistantBridge) : System := { system with state := bridge }

def createSession (system : System) (body : JsonBody) : System × List Act :=
  let bridge := system.state
  match checkCreate body with
  | .error error => (system, [.refused error])
  | .ok ttl =>
    ((system.set { bridge.endSession with
      creates := bridge.creates ++ [⟨bridge.nextCreate, ttl, false⟩]
      nextCreate := bridge.nextCreate + 1 }).enqueue (.release (.create bridge.nextCreate)), [])

def deleteSession (system : System) (sessionId : Option String) : System × List Act :=
  if sessionId = system.state.sessionId then
    ((system.set system.state.endSession).enqueue (.release .delete), [])
  else (system, [.refused (.bridge 409 "invalid_session" "Unknown session.")])

def focus (system : System) (body : JsonBody) : System × List Act :=
  match system.state.checkFocus body with
  | .error error => (system, [.refused error])
  | .ok operation => (system.enqueue operation, [])

/-- The session is opened once the create has its release. -/
def goesOn (system : System) (number : ℕ) (draw : Draw) : System × List Act :=
  match system.state.creates.find? fun create => create.number = number ∧ create.released with
  | some create => (system.set (system.state.openSession create draw), [.created draw.sessionId])
  | none => (system, [])

/-- A timer fires once its time has come. -/
def fires (system : System) (timer : ℕ) : System × List Act :=
  match system.state.timers.find? fun running =>
      running.1 = timer ∧ running.2 ≤ system.state.now with
  | some _ =>
    ((system.set { system.state with timers := system.state.timers.filter (·.1 ≠ timer) }).enqueue
      (.release .timer), [])
  | none => (system, [])

/-- A part of the system that touches the tables alone. -/
def within (system : System) (result : AssistantBridge × List Act) : System × List Act :=
  (system.set result.1, result.2)

def step (commands : String → Option Command) (system : System) : Event → System × List Act
  | .createSession body => system.createSession body
  | .deleteSession sessionId => system.deleteSession sessionId
  | .focus body => system.focus body
  | .execute body available => system.within (system.state.execute commands body available)
  | .passes duration =>
    system.within ({ system.state with now := system.state.now + duration }, [])
  | .goesOn number draw => system.goesOn number draw
  | .executed future outcome => system.within (system.state.executed future outcome)
  | .fires timer => system.fires timer
  | .turn => system.next setFocus
  | .reply succeeded => system.reply setFocus succeeded

/-- Nothing was requested yet. -/
def initial : System := ⟨{}, [], none⟩

end System

end ProjectArgo.Assistant
