import ProjectArgo.CarPlay.Link

/-!
# What is read is the answer to what was asked

A connection that nobody uses has no answer outstanding and none unread, so the next answer to be
read from it is the one to the next request. A request that does not come to a good end keeps the
connection out of the client, and with it whatever may still arrive there.
-/
namespace ProjectArgo.CarPlay.Link

open Library.Bytes

/-! ## One connection -/

theorem Answer.encode_eq (answer : Answer) : answer.encode =
    answer.status :: UInt8.ofNat (answer.body.length / 256) ::
      UInt8.ofNat answer.body.length :: answer.body := by
  simp [encode, bigEndian_two]

theorem Answer.length_encode (answer : Answer) : answer.encode.length = answer.body.length + 3 := by
  simp [encode_eq]

theorem Answer.size (answer : Answer) :
    ofBigEndian [UInt8.ofNat (answer.body.length / 256), UInt8.ofNat answer.body.length] =
      answer.body.length := by
  have hexact := ofBigEndian_bigEndian (k := 2) (n := answer.body.length) answer.bound
  rwa [bigEndian_two] at hexact

namespace Stream

/-- The request of `caller` was sent, and `body` is what was answered to it. -/
def Answered (stream : Stream) (caller : ℕ) (bytes body : List UInt8) : Prop :=
  ∃ (i : ℕ) (answer : Answer), stream.sent[i]? = some (caller, bytes) ∧
    stream.answers[i]? = some answer ∧ answer.status = 0 ∧ answer.body = body

/-- A certificate that somebody asked for and that was the answer. -/
def Certificate (stream : Stream) (certificate : List UInt8) : Prop :=
  ∃ caller, stream.Answered caller [1] certificate

/-- Nothing is outstanding and nothing unread. -/
structure Settled (stream : Stream) : Prop where
  answers : stream.answers.length = stream.sent.length
  read : stream.read = (stream.answers.flatMap Answer.encode).length

/-- All but the last request were answered and read, and of the last one nothing was read. -/
def Awaits (stream : Stream) (caller : ℕ) (bytes : List UInt8) : Prop :=
  ∃ olds past last, stream.sent = olds ++ [(caller, bytes)] ∧ stream.answers = past ++ last ∧
    past.length = olds.length ∧ last.length ≤ 1 ∧
    stream.read = (past.flatMap Answer.encode).length

/-- The last request was answered, and of its answer the header was read. -/
def Reads (stream : Stream) (caller : ℕ) (bytes : List UInt8) (size : ℕ) : Prop :=
  ∃ olds past answer, stream.sent = olds ++ [(caller, bytes)] ∧
    stream.answers = past ++ [answer] ∧ past.length = olds.length ∧ answer.status = 0 ∧
    answer.body.length = size ∧ stream.read = (past.flatMap Answer.encode).length + 3

/-- More may have been asked, answered and read. -/
structure Grows (stream later : Stream) : Prop where
  sent : stream.sent <+: later.sent
  answers : stream.answers <+: later.answers

theorem Grows.refl (stream : Stream) : stream.Grows stream :=
  ⟨List.prefix_refl _, List.prefix_refl _⟩

theorem Answered.grows {stream later : Stream} {caller : ℕ} {bytes body : List UInt8}
    (answered : stream.Answered caller bytes body) (grows : stream.Grows later) :
    later.Answered caller bytes body := by
  obtain ⟨i, answer, hsent, hanswer, hgood⟩ := answered
  obtain ⟨asked, hasked⟩ := grows.sent
  obtain ⟨more, hmore⟩ := grows.answers
  refine ⟨i, answer, ?_, ?_, hgood⟩
  · rw [← hasked]
    exact List.getElem?_append_left (List.getElem?_eq_some_iff.mp hsent).1 ▸ hsent
  · rw [← hmore]
    exact List.getElem?_append_left (List.getElem?_eq_some_iff.mp hanswer).1 ▸ hanswer

theorem Certificate.grows {stream later : Stream} {certificate : List UInt8}
    (received : stream.Certificate certificate) (grows : stream.Grows later) :
    later.Certificate certificate := by
  obtain ⟨caller, answered⟩ := received
  exact ⟨caller, answered.grows grows⟩

/-! ### What the accessory does to it -/

theorem grows_answer (stream : Stream) (answer : Answer) :
    stream.Grows (stream.answer answer) := by
  unfold Stream.answer
  split
  · exact ⟨List.prefix_refl _, List.prefix_append _ _⟩
  · exact Grows.refl stream

@[simp] theorem answer_sent (stream : Stream) (answer : Answer) :
    (stream.answer answer).sent = stream.sent := by
  unfold Stream.answer
  split <;> rfl

/-- Without a request there is no answer. -/
theorem answer_of_le {stream : Stream} (h : stream.sent.length ≤ stream.answers.length)
    (answer : Answer) : stream.answer answer = stream := by
  unfold Stream.answer
  split
  · omega
  · rfl

theorem Settled.answer {stream : Stream} (settled : stream.Settled) (answer : Answer) :
    (stream.answer answer).Settled := by
  rwa [answer_of_le settled.answers.ge]

theorem Awaits.answer {stream : Stream} {caller : ℕ} {bytes : List UInt8}
    (awaits : stream.Awaits caller bytes) (answer : Answer) :
    (stream.answer answer).Awaits caller bytes := by
  obtain ⟨olds, past, last, hsent, hanswers, hpast, hlast, hread⟩ := awaits
  unfold Stream.answer
  split
  · rename_i hshort
    have hempty : last = [] := by
      apply List.eq_nil_of_length_eq_zero
      simp only [hsent, hanswers, List.length_append, List.length_singleton] at hshort
      omega
    exact ⟨olds, past, [answer], hsent, by simp [hanswers, hempty], hpast, le_rfl, hread⟩
  · exact ⟨olds, past, last, hsent, hanswers, hpast, hlast, hread⟩

theorem Reads.answer {stream : Stream} {caller : ℕ} {bytes : List UInt8} {size : ℕ}
    (reads : stream.Reads caller bytes size) (answer : Answer) :
    (stream.answer answer).Reads caller bytes size := by
  obtain ⟨olds, past, own, hsent, hanswers, hpast, hgood⟩ := reads
  rw [answer_of_le (by simp [hsent, hanswers, hpast])]
  exact ⟨olds, past, own, hsent, hanswers, hpast, hgood⟩

/-! ### What the client does to it -/

theorem Settled.write {stream : Stream} (settled : stream.Settled) (caller : ℕ)
    (bytes : List UInt8) :
    { stream with sent := stream.sent ++ [(caller, bytes)] : Stream }.Awaits caller bytes :=
  ⟨stream.sent, stream.answers, [], rfl, by simp, settled.answers, by simp, settled.read⟩

/-- Three octets can be read only of the own answer, and they are its status and its length. -/
theorem Awaits.header {stream : Stream} {caller : ℕ} {bytes rest : List UInt8}
    {status high low : UInt8} (awaits : stream.Awaits caller bytes)
    (hincoming : stream.incoming = status :: high :: low :: rest) (hstatus : status = 0) :
    { stream with read := stream.read + 3 : Stream }.Reads caller bytes
      (ofBigEndian [high, low]) := by
  obtain ⟨olds, past, last, hsent, hanswers, hpast, hlast, hread⟩ := awaits
  have hunread : stream.incoming = last.flatMap Answer.encode := by
    simp [incoming, hanswers, hread, List.flatMap_append]
  rcases last with _ | ⟨own, _ | ⟨other, more⟩⟩
  · simp [hunread] at hincoming
  · rw [hunread, List.flatMap_singleton, Answer.encode_eq, List.cons.injEq, List.cons.injEq,
      List.cons.injEq] at hincoming
    obtain ⟨hown, hhigh, hlow, -⟩ := hincoming
    subst hhigh hlow
    exact ⟨olds, past, own, hsent, hanswers, hpast, hown.trans hstatus, own.size.symm,
      by rw [hread]⟩
  · simp at hlast

/-- What follows the header is the body of the own answer. -/
theorem Reads.body {stream : Stream} {caller : ℕ} {bytes : List UInt8} {size : ℕ}
    (reads : stream.Reads caller bytes size) :
    { stream with read := stream.read + size : Stream }.Settled ∧
      stream.Answered caller bytes (stream.incoming.take size) := by
  obtain ⟨olds, past, own, hsent, hanswers, hpast, hstatus, hsize, hread⟩ := reads
  have hunread : stream.incoming = own.body := by
    rw [incoming, hanswers, hread, List.flatMap_append, List.flatMap_singleton,
      List.drop_length_add_append, Answer.encode_eq]
    rfl
  constructor
  · constructor
    · simp [hsent, hanswers, hpast]
    · simp [hread, hanswers, ← hsize, Answer.length_encode, List.flatMap_append]
      omega
  · refine ⟨olds.length, own, by simp [hsent], by simp [hanswers, ← hpast], hstatus, ?_⟩
    rw [hunread, List.take_of_length_le hsize.le]

end Stream

/-! ## The client -/

/-- The connection that a request uses, once it has one. -/
def Phase.state? : Phase → Option MfiConnection
  | .locking => none
  | .connecting => none
  | .writing state => some state
  | .header state => some state
  | .body state _ => some state

/-- The connection of the client, be it idle or with the request that is under way. -/
def LinkClient.inUse (client : LinkClient) : Option MfiConnection :=
  client.connection.or (client.current.bind fun request => request.phase.state?)

/-- The certificate that goes with a connection came over it. -/
def LinkClient.Certified (client : LinkClient) (state : MfiConnection) : Prop :=
  ∀ certificate, state.certificate = some certificate →
    (client.sockets state.socket).Certificate certificate

/-- A connection that can serve the next request. -/
structure LinkClient.Idle (client : LinkClient) (state : MfiConnection) : Prop where
  opened : state.socket < client.nextSocket
  settled : (client.sockets state.socket).Settled
  certified : client.Certified state

/-- What holds of the connection while `request` is under way. -/
def LinkClient.Serves (client : LinkClient) (request : Request) : Prop :=
  match request.phase with
  | .locking => True
  | .connecting => client.connection = none
  | .writing state => client.connection = none ∧ client.Idle state
  | .header state => client.connection = none ∧ state.socket < client.nextSocket ∧
      client.Certified state ∧
      (client.sockets state.socket).Awaits request.caller request.bytes
  | .body state size => client.connection = none ∧ state.socket < client.nextSocket ∧
      client.Certified state ∧
      (client.sockets state.socket).Reads request.caller request.bytes size

structure Sound (client : LinkClient) : Prop where
  unopened : ∀ socket, client.nextSocket ≤ socket → client.sockets socket = {}
  idle : ∀ state, client.connection = some state → client.Idle state
  serves : ∀ request, client.current = some request → client.Serves request
  answered : ∀ caller bytes body, .answered caller bytes body ∈ client.returned →
    ∃ socket, (client.sockets socket).Answered caller bytes body

namespace LinkClient

variable {client next : LinkClient}

theorem Certified.grows {state : MfiConnection} (certified : client.Certified state)
    (grows : (client.sockets state.socket).Grows (next.sockets state.socket)) :
    next.Certified state := by
  intro certificate h
  exact (certified certificate h).grows grows

@[simp] theorem put_self (socket : ℕ) (stream : Stream) :
    (client.put socket stream).sockets socket = stream :=
  Function.update_self ..

theorem put_of_ne {socket other : ℕ} (h : other ≠ socket) (stream : Stream) :
    (client.put socket stream).sockets other = client.sockets other :=
  Function.update_of_ne h ..

/-- Only one stream changes, and it grows. -/
theorem grows_put {socket : ℕ} {stream : Stream} (grows : (client.sockets socket).Grows stream)
    (other : ℕ) : (client.sockets other).Grows ((client.put socket stream).sockets other) := by
  by_cases h : other = socket
  · subst h
    simpa using grows
  · rw [put_of_ne h]
    exact Stream.Grows.refl _

/-- A connection stays idle where its stream stays as it is. -/
theorem Idle.of_same {state : MfiConnection} (idle : client.Idle state)
    (hopened : client.nextSocket ≤ next.nextSocket)
    (hstream : next.sockets state.socket = client.sockets state.socket) : next.Idle state := by
  refine ⟨idle.opened.trans_le hopened, ?_, ?_⟩
  · rw [hstream]
    exact idle.settled
  · intro certificate h
    rw [hstream]
    exact idle.certified certificate h

/-- A result that was returned stays the answer, as the streams only grow. -/
theorem answered_grows (sound : Sound client)
    (hgrows : ∀ socket, (client.sockets socket).Grows (next.sockets socket))
    (hreturned : next.returned = client.returned) (caller : ℕ) (bytes body : List UInt8)
    (h : .answered caller bytes body ∈ next.returned) :
    ∃ socket, (next.sockets socket).Answered caller bytes body := by
  rw [hreturned] at h
  obtain ⟨socket, answered⟩ := sound.answered caller bytes body h
  exact ⟨socket, answered.grows (hgrows socket)⟩

/-- What a request relies on is not in the fields that count callers and keep results. -/
theorem serves_of_same {request : Request} (serves : client.Serves request)
    (hsockets : next.sockets = client.sockets) (hopened : next.nextSocket = client.nextSocket)
    (hconnection : next.connection = client.connection) : next.Serves request := by
  unfold Serves at serves ⊢
  cases hphase : request.phase with
  | locking => trivial
  | connecting =>
    simp only [hphase] at serves ⊢
    exact hconnection.trans serves
  | writing state =>
    simp only [hphase] at serves ⊢
    exact ⟨hconnection.trans serves.1, serves.2.of_same hopened.ge (by rw [hsockets])⟩
  | header state =>
    simp only [hphase, Certified, hsockets, hopened, hconnection] at serves ⊢
    exact serves
  | body state size =>
    simp only [hphase, Certified, hsockets, hopened, hconnection] at serves ⊢
    exact serves

/-- Whoever leaves without an answer changes nothing that counts. -/
theorem sound_leave (sound : Sound client) {returned : List Returned}
    (hreturned : ∀ caller bytes body, .answered caller bytes body ∉ returned) :
    Sound (client.leave returned) := by
  constructor
  · exact sound.unopened
  · intro state h
    exact (sound.idle state h).of_same le_rfl rfl
  · intro request h
    simp [leave] at h
  · intro caller bytes body h
    rcases List.mem_append.mp h with h | h
    · exact sound.answered caller bytes body h
    · exact absurd h (hreturned caller bytes body)

theorem sound_refused (sound : Sound client) (error : Error) :
    Sound { client with
      nextCaller := client.nextCaller + 1
      returned := client.returned ++ [.failed client.nextCaller error] } := by
  constructor
  · exact sound.unopened
  · intro state h
    exact (sound.idle state h).of_same le_rfl rfl
  · intro request h
    exact serves_of_same (sound.serves request h) rfl rfl rfl
  · intro caller bytes body h
    simp only [List.mem_append, List.mem_singleton, reduceCtorEq, or_false] at h
    exact sound.answered caller bytes body h

theorem sound_request (sound : Sound client) (bytes : List UInt8) (maximum : ℕ)
    (cachedCertificate : Bool) : Sound (client.request bytes maximum cachedCertificate) := by
  unfold request
  split
  · exact sound_refused sound .busy
  · constructor
    · exact sound.unopened
    · intro state h
      exact (sound.idle state h).of_same le_rfl rfl
    · intro request h
      simp only [Option.some.injEq] at h
      subst h
      trivial
    · exact sound.answered

theorem sound_lock (sound : Sound client) (request : Request) : Sound (client.lock request) := by
  unfold lock
  split
  · exact sound_leave sound (by simp)
  · constructor
    · exact sound.unopened
    · intro state h
      cases h
    · intro current h
      simp only [Option.some.injEq] at h
      subst h
      cases hconnection : client.connection with
      | none => rfl
      | some state => exact ⟨rfl, (sound.idle state hconnection).of_same le_rfl rfl⟩
    · exact sound.answered

theorem sound_connected (sound : Sound client) {request : Request}
    (serves : client.Serves request) (hphase : request.phase = .connecting) :
    Sound (client.connected request) := by
  simp only [Serves, hphase] at serves
  constructor
  · intro socket h
    exact sound.unopened socket (by simp only [connected] at h; omega)
  · intro state h
    exact (sound.idle state h).of_same (Nat.le_succ _) rfl
  · intro current h
    simp only [connected, Option.some.injEq] at h
    subst h
    have hfresh : client.sockets client.nextSocket = {} := sound.unopened _ le_rfl
    refine ⟨serves, Nat.lt_succ_self _, ?_, ?_⟩
    · show (client.sockets client.nextSocket).Settled
      rw [hfresh]
      exact ⟨rfl, rfl⟩
    · intro certificate h
      cases h
  · exact sound.answered

/-- A stream that is written or read belongs to a connection that was opened. -/
theorem unopened_put (sound : Sound client) {socket : ℕ} (hopened : socket < client.nextSocket)
    (stream : Stream) (other : ℕ) (h : client.nextSocket ≤ other) :
    (client.put socket stream).sockets other = {} := by
  rw [put_of_ne (by omega)]
  exact sound.unopened other h

theorem sound_write (sound : Sound client) {request : Request} {state : MfiConnection}
    (serves : client.Serves request) (hphase : request.phase = .writing state) :
    Sound (client.write request state) := by
  simp only [Serves, hphase] at serves
  obtain ⟨hconnection, idle⟩ := serves
  have grows : (client.sockets state.socket).Grows { client.sockets state.socket with
      sent := (client.sockets state.socket).sent ++ [(request.caller, request.bytes)] } :=
    ⟨List.prefix_append _ _, List.prefix_refl _⟩
  constructor
  · exact unopened_put sound idle.opened _
  · intro other h
    exact absurd (hconnection.symm.trans h) (by simp)
  · intro current h
    simp only [write, Option.some.injEq] at h
    subst h
    refine ⟨hconnection, idle.opened, Certified.grows idle.certified (grows_put grows _), ?_⟩
    show ((client.put state.socket _).sockets state.socket).Awaits request.caller request.bytes
    rw [put_self]
    exact idle.settled.write request.caller request.bytes
  · exact answered_grows sound (grows_put grows) rfl

/-- To read a stream does not change what was asked and answered on it. -/
theorem grows_read (stream : Stream) (read : ℕ) : stream.Grows { stream with read := read } :=
  ⟨List.prefix_refl _, List.prefix_refl _⟩

/-- Octets are read while the client holds no connection. -/
theorem sound_read (sound : Sound client) {state : MfiConnection}
    (hconnection : client.connection = none) (hopened : state.socket < client.nextSocket)
    (read : ℕ) (current : Option Request)
    (hcurrent : ∀ request, current = some request →
      { client.put state.socket { client.sockets state.socket with read := read } with
        current := current : LinkClient }.Serves request) :
    Sound { client.put state.socket { client.sockets state.socket with read := read } with
      current := current } := by
  constructor
  · exact unopened_put sound hopened _
  · intro other h
    exact absurd (hconnection.symm.trans h) (by simp)
  · exact hcurrent
  · exact answered_grows sound (grows_put (grows_read _ read)) rfl

theorem sound_readHeader (sound : Sound client) {request : Request} {state : MfiConnection}
    (serves : client.Serves request) (hphase : request.phase = .header state) :
    Sound (client.readHeader request state) := by
  simp only [Serves, hphase] at serves
  obtain ⟨hconnection, hopened, certified, awaits⟩ := serves
  have hfailed : ∀ error, Sound ((client.put state.socket
      { client.sockets state.socket with read := (client.sockets state.socket).read + 3 }).leave
        [.failed request.caller error]) := by
    intro error
    have hread := sound_read sound hconnection hopened
      ((client.sockets state.socket).read + 3) none (by simp)
    exact sound_leave hread (by simp)
  unfold readHeader
  dsimp only
  split
  · rename_i status high low rest hincoming
    split
    · exact hfailed .remote
    · rename_i hstatus
      split
      · exact hfailed _
      · apply sound_read sound hconnection hopened
        intro current h
        simp only [Option.some.injEq] at h
        subst h
        refine ⟨hconnection, hopened, Certified.grows certified (grows_put (grows_read _ _) _), ?_⟩
        show ((client.put state.socket _).sockets state.socket).Reads _ _ _
        rw [put_self]
        exact awaits.header hincoming (not_not.mp hstatus)
  · exact sound

theorem sound_readBody (sound : Sound client) {request : Request} {state : MfiConnection}
    {size : ℕ} (serves : client.Serves request) (hphase : request.phase = .body state size) :
    Sound (client.readBody request state size) := by
  simp only [Serves, hphase] at serves
  obtain ⟨hconnection, hopened, certified, reads⟩ := serves
  obtain ⟨settled, answered⟩ := reads.body
  have hread := sound_read sound hconnection hopened
    ((client.sockets state.socket).read + size) none (by simp)
  unfold readBody
  dsimp only
  split
  · split
    · exact sound_leave hread (by simp)
    · have grows : ∀ other, (client.sockets other).Grows
          ((client.put state.socket { client.sockets state.socket with
            read := (client.sockets state.socket).read + size }).sockets other) :=
        grows_put (grows_read _ _)
      constructor
      · exact unopened_put sound hopened _
      · intro kept h
        simp only [leave, Option.some.injEq] at h
        have hsocket : kept.socket = state.socket := by
          rw [← h]
          split <;> rfl
        refine ⟨hsocket ▸ hopened, ?_, ?_⟩
        · show ((client.put state.socket _).sockets kept.socket).Settled
          rw [hsocket, put_self]
          exact settled
        · intro certificate hcertificate
          refine Stream.Certificate.grows ?_ (grows kept.socket)
          rw [hsocket]
          rw [← h] at hcertificate
          split at hcertificate
          · rename_i hbytes
            simp only [Option.some.injEq] at hcertificate
            exact ⟨request.caller, hcertificate ▸ hbytes ▸ answered⟩
          · exact certified certificate hcertificate
      · intro current h
        simp [leave] at h
      · intro caller bytes body h
        simp only [leave, List.mem_append, List.mem_singleton, Returned.answered.injEq] at h
        rcases h with h | ⟨rfl, rfl, rfl⟩
        · exact answered_grows sound grows rfl caller bytes body h
        · exact ⟨state.socket, answered.grows (grows state.socket)⟩
  · exact sound

theorem sound_answer (sound : Sound client) (socket : ℕ) (answer : Answer) :
    Sound (client.put socket ((client.sockets socket).answer answer)) := by
  have grows : ∀ other, (client.sockets other).Grows
      ((client.put socket ((client.sockets socket).answer answer)).sockets other) :=
    grows_put ((client.sockets socket).grows_answer answer)
  have hkeeps : ∀ (other : ℕ) (P : Stream → Prop), P (client.sockets other) →
      (∀ stream, P stream → P (stream.answer answer)) →
      P ((client.put socket ((client.sockets socket).answer answer)).sockets other) := by
    intro other P h hanswer
    by_cases hother : other = socket
    · subst hother
      rw [put_self]
      exact hanswer _ h
    · rwa [put_of_ne hother]
  have hidle : ∀ state, client.Idle state →
      (client.put socket ((client.sockets socket).answer answer)).Idle state := by
    intro state idle
    refine ⟨idle.opened, ?_, Certified.grows idle.certified (grows _)⟩
    exact hkeeps state.socket Stream.Settled idle.settled fun _ h => h.answer answer
  constructor
  · intro other h
    apply hkeeps other (· = {}) (sound.unopened other h)
    intro stream hstream
    subst hstream
    exact Stream.answer_of_le le_rfl answer
  · intro state h
    exact hidle state (sound.idle state h)
  · intro request h
    have serves := sound.serves request h
    unfold Serves at serves ⊢
    cases hphase : request.phase with
    | locking => trivial
    | connecting =>
      simp only [hphase] at serves ⊢
      exact serves
    | writing state =>
      simp only [hphase] at serves ⊢
      exact ⟨serves.1, hidle state serves.2⟩
    | header state =>
      simp only [hphase] at serves ⊢
      obtain ⟨hconnection, hopened, certified, awaits⟩ := serves
      exact ⟨hconnection, hopened, Certified.grows certified (grows _),
        hkeeps state.socket (·.Awaits request.caller request.bytes) awaits
          fun _ h => h.answer answer⟩
    | body state size =>
      simp only [hphase] at serves ⊢
      obtain ⟨hconnection, hopened, certified, reads⟩ := serves
      exact ⟨hconnection, hopened, Certified.grows certified (grows _),
        hkeeps state.socket (·.Reads request.caller request.bytes size) reads
          fun _ h => h.answer answer⟩
  · exact answered_grows sound grows rfl

end LinkClient

theorem sound_step {client : LinkClient} (sound : Sound client) (event : Event) :
    Sound (step client event) := by
  cases event with
  | certificate => exact LinkClient.sound_request sound _ _ _
  | authenticationCertificate => exact LinkClient.sound_request sound _ _ _
  | sign challenge =>
    simp only [step, LinkClient.sign]
    split
    · exact LinkClient.sound_refused sound _
    · exact LinkClient.sound_request sound _ _ _
  | protocolMajor => exact LinkClient.sound_request sound _ _ _
  | proceed =>
    simp only [step]
    cases hcurrent : client.current with
    | none => exact sound
    | some request =>
      have serves := sound.serves request hcurrent
      cases hphase : request.phase with
      | locking => simpa only [hphase] using LinkClient.sound_lock sound request
      | connecting => simpa only [hphase] using LinkClient.sound_connected sound serves hphase
      | writing state => simpa only [hphase] using LinkClient.sound_write sound serves hphase
      | header state => simpa only [hphase] using LinkClient.sound_readHeader sound serves hphase
      | body state size => simpa only [hphase] using LinkClient.sound_readBody sound serves hphase
  | abandoned error =>
    simp only [step]
    cases client.current with
    | none => exact sound
    | some request => exact LinkClient.sound_leave sound (by simp)
  | answer socket answer => exact LinkClient.sound_answer sound socket answer

theorem after_concat (events : List Event) (event : Event) :
    after (events ++ [event]) = step (after events) event := by
  simp [after]

theorem sound_after (events : List Event) : Sound (after events) := by
  induction events using List.reverseRecOn with
  | nil =>
    constructor
    · intro socket h
      rfl
    · intro state h
      cases h
    · intro request h
      cases h
    · intro caller bytes body h
      cases h
  | append_singleton events event ih =>
    rw [after_concat]
    exact sound_step ih event

/-! ## The callers -/

/-- What a caller sends, if it comes to that. -/
def Event.asks : Event → Option (List UInt8)
  | .certificate => some [1]
  | .authenticationCertificate => some [1]
  | .sign challenge => some (2 :: bigEndian 2 challenge.length ++ challenge)
  | .protocolMajor => some [3]
  | _ => none

/-- Nothing of the request has been written yet. -/
def Phase.Unsent : Phase → Prop
  | .locking | .connecting | .writing _ => True
  | .header _ | .body _ _ => False

/-- The callers count in the order in which they asked, and each of them is sent once at most. -/
structure Numbered (asked : List (List UInt8)) (client : LinkClient) : Prop where
  count : client.nextCaller = asked.length
  current : ∀ request, client.current = some request →
    asked[request.caller]? = some request.bytes
  sent : ∀ socket caller bytes, (caller, bytes) ∈ (client.sockets socket).sent →
    asked[caller]? = some bytes
  unsent : ∀ request, client.current = some request → request.phase.Unsent →
    ∀ socket bytes, (request.caller, bytes) ∉ (client.sockets socket).sent
  once : ∀ (socket other i j caller : ℕ) (bytes bytes' : List UInt8),
    (client.sockets socket).sent[i]? = some (caller, bytes) →
    (client.sockets other).sent[j]? = some (caller, bytes') → other = socket ∧ j = i

namespace LinkClient

variable {client next : LinkClient} {asked : List (List UInt8)}

/-- Nothing but to ask and to write touches the numbers. -/
theorem numbered_of_same (numbered : Numbered asked client)
    (hcount : next.nextCaller = client.nextCaller)
    (hsent : ∀ socket, (next.sockets socket).sent = (client.sockets socket).sent)
    (hcurrent : ∀ request, next.current = some request → ∃ before,
      client.current = some before ∧ request.caller = before.caller ∧
      request.bytes = before.bytes ∧ (request.phase.Unsent → before.phase.Unsent)) :
    Numbered asked next := by
  constructor
  · exact hcount.trans numbered.count
  · intro request h
    obtain ⟨before, hbefore, hcaller, hbytes, -⟩ := hcurrent request h
    rw [hcaller, hbytes]
    exact numbered.current before hbefore
  · intro socket caller bytes h
    rw [hsent] at h
    exact numbered.sent socket caller bytes h
  · intro request h hunsent socket bytes
    obtain ⟨before, hbefore, hcaller, -, hphase⟩ := hcurrent request h
    rw [hsent, hcaller]
    exact numbered.unsent before hbefore (hphase hunsent) socket bytes
  · intro socket other i j caller bytes bytes'
    rw [hsent, hsent]
    exact numbered.once socket other i j caller bytes bytes'

theorem numbered_refused (numbered : Numbered asked client) (bytes : List UInt8)
    (returned : List Returned) :
    Numbered (asked ++ [bytes])
      { client with nextCaller := client.nextCaller + 1, returned := returned } := by
  have hlater : ∀ {caller : ℕ} {bytes' : List UInt8}, asked[caller]? = some bytes' →
      (asked ++ [bytes])[caller]? = some bytes' := by
    intro caller bytes' h
    exact List.getElem?_append_left (List.getElem?_eq_some_iff.mp h).1 ▸ h
  constructor
  · simp [numbered.count]
  · intro request h
    exact hlater (numbered.current request h)
  · intro socket caller bytes' h
    exact hlater (numbered.sent socket caller bytes' h)
  · exact numbered.unsent
  · exact numbered.once

theorem numbered_request (numbered : Numbered asked client) (bytes : List UInt8) (maximum : ℕ)
    (cachedCertificate : Bool) :
    Numbered (asked ++ [bytes]) (client.request bytes maximum cachedCertificate) := by
  unfold request
  split
  · exact numbered_refused numbered bytes _
  · have hmore := numbered_refused numbered bytes client.returned
    constructor
    · exact hmore.count
    · intro request h
      simp only [Option.some.injEq] at h
      subst h
      simp [numbered.count]
    · exact hmore.sent
    · intro request h _ socket bytes' hmem
      simp only [Option.some.injEq] at h
      subst h
      have hasked := numbered.sent socket _ bytes' hmem
      simp [numbered.count] at hasked
    · exact hmore.once

/-- What is sent now was not sent before. -/
theorem numbered_write (numbered : Numbered asked client) {request : Request}
    {state : MfiConnection} (hcurrent : client.current = some request)
    (hphase : request.phase = .writing state) : Numbered asked (client.write request state) := by
  have hasked := numbered.current request hcurrent
  have hunsent := numbered.unsent request hcurrent (by rw [hphase]; trivial)
  have hsent : ∀ socket, ((client.write request state).sockets socket).sent =
      (client.sockets socket).sent ++
        if socket = state.socket then [(request.caller, request.bytes)] else [] := by
    intro socket
    show ((client.put state.socket _).sockets socket).sent = _
    by_cases h : socket = state.socket
    · subst h
      simp
    · simp [put_of_ne h, h]
  have hplace : ∀ {socket i caller : ℕ} {bytes : List UInt8},
      ((client.write request state).sockets socket).sent[i]? = some (caller, bytes) →
      (client.sockets socket).sent[i]? = some (caller, bytes) ∨
      (socket = state.socket ∧ i = (client.sockets state.socket).sent.length ∧
        caller = request.caller) := by
    intro socket i caller bytes h
    rw [hsent] at h
    by_cases hlt : i < (client.sockets socket).sent.length
    · left
      rwa [List.getElem?_append_left hlt] at h
    · right
      rw [List.getElem?_append_right (by omega)] at h
      split at h
      · rename_i hsocket
        subst hsocket
        obtain ⟨hi, hentry⟩ := List.getElem?_eq_some_iff.mp h
        simp only [List.length_singleton] at hi
        simp only [List.getElem_singleton, Prod.mk.injEq] at hentry
        exact ⟨rfl, by omega, hentry.1.symm⟩
      · simp at h
  constructor
  · exact numbered.count
  · intro current h
    simp only [write, Option.some.injEq] at h
    subst h
    exact hasked
  · intro socket caller bytes h
    rw [hsent, List.mem_append] at h
    rcases h with h | h
    · exact numbered.sent socket caller bytes h
    · split at h
      · simp only [List.mem_singleton, Prod.mk.injEq] at h
        rw [h.1, h.2]
        exact hasked
      · cases h
  · intro current h hphase'
    simp only [write, Option.some.injEq] at h
    subst h
    exact hphase'.elim
  · intro socket other i j caller bytes bytes' h h'
    rcases hplace h with h | ⟨rfl, rfl, rfl⟩
    · rcases hplace h' with h' | ⟨rfl, rfl, rfl⟩
      · exact numbered.once socket other i j caller bytes bytes' h h'
      · exact absurd (List.mem_of_getElem? h) (hunsent socket bytes)
    · rcases hplace h' with h' | ⟨rfl, rfl, -⟩
      · exact absurd (List.mem_of_getElem? h') (hunsent other bytes')
      · exact ⟨rfl, rfl⟩

/-- To leave, to lock, to connect and to read. -/
theorem numbered_idle (numbered : Numbered asked client)
    (hcount : next.nextCaller = client.nextCaller)
    (hsent : ∀ socket, (next.sockets socket).sent = (client.sockets socket).sent)
    (hcurrent : next.current = none) : Numbered asked next :=
  numbered_of_same numbered hcount hsent (by simp [hcurrent])

/-- What is read leaves what was sent. -/
theorem sent_put_read (socket : ℕ) (read : ℕ) (other : ℕ) :
    ((client.put socket { client.sockets socket with read := read }).sockets other).sent =
      (client.sockets other).sent := by
  by_cases h : other = socket
  · subst h
    simp
  · rw [put_of_ne h]

theorem numbered_lock (numbered : Numbered asked client) {request : Request}
    (hcurrent : client.current = some request) (hphase : request.phase = .locking) :
    Numbered asked (client.lock request) := by
  unfold lock
  split
  · exact numbered_idle numbered rfl (fun _ => rfl) rfl
  · refine numbered_of_same numbered rfl (fun _ => rfl) ?_
    intro later h
    simp only [Option.some.injEq] at h
    subst h
    exact ⟨request, hcurrent, rfl, rfl, fun _ => by rw [hphase]; trivial⟩

theorem numbered_connected (numbered : Numbered asked client) {request : Request}
    (hcurrent : client.current = some request) (hphase : request.phase = .connecting) :
    Numbered asked (client.connected request) := by
  refine numbered_of_same numbered rfl (fun _ => rfl) ?_
  intro later h
  simp only [connected, Option.some.injEq] at h
  subst h
  exact ⟨request, hcurrent, rfl, rfl, fun _ => by rw [hphase]; trivial⟩

theorem numbered_readHeader (numbered : Numbered asked client) {request : Request}
    (hcurrent : client.current = some request) (state : MfiConnection) :
    Numbered asked (client.readHeader request state) := by
  unfold readHeader
  dsimp only
  split
  · split
    · exact numbered_idle numbered rfl (sent_put_read _ _) rfl
    · split
      · exact numbered_idle numbered rfl (sent_put_read _ _) rfl
      · refine numbered_of_same numbered rfl (sent_put_read _ _) ?_
        intro later h
        simp only [Option.some.injEq] at h
        subst h
        exact ⟨request, hcurrent, rfl, rfl, fun h => h.elim⟩
  · exact numbered

theorem numbered_readBody (numbered : Numbered asked client) (request : Request)
    (state : MfiConnection) (size : ℕ) :
    Numbered asked (client.readBody request state size) := by
  unfold readBody
  dsimp only
  split
  · split
    · exact numbered_idle numbered rfl (sent_put_read _ _) rfl
    · exact numbered_idle numbered rfl (sent_put_read _ _) rfl
  · exact numbered

theorem numbered_answer (numbered : Numbered asked client) (socket : ℕ) (answer : Answer) :
    Numbered asked (client.put socket ((client.sockets socket).answer answer)) := by
  refine numbered_of_same numbered rfl ?_ ?_
  · intro other
    by_cases h : other = socket
    · subst h
      simp
    · rw [put_of_ne h]
  · intro request h
    exact ⟨request, h, rfl, rfl, id⟩

end LinkClient

theorem numbered_step {client : LinkClient} {asked : List (List UInt8)}
    (numbered : Numbered asked client) (event : Event) :
    Numbered (asked ++ event.asks.toList) (step client event) := by
  cases event with
  | certificate => exact LinkClient.numbered_request numbered _ _ _
  | authenticationCertificate => exact LinkClient.numbered_request numbered _ _ _
  | sign challenge =>
    simp only [step, LinkClient.sign]
    split
    · exact LinkClient.numbered_refused numbered _ _
    · exact LinkClient.numbered_request numbered _ _ _
  | protocolMajor => exact LinkClient.numbered_request numbered _ _ _
  | proceed =>
    simp only [step, Event.asks, Option.toList_none, List.append_nil]
    cases hcurrent : client.current with
    | none => exact numbered
    | some request =>
      cases hphase : request.phase with
      | locking =>
        simpa only [hphase] using LinkClient.numbered_lock numbered hcurrent hphase
      | connecting =>
        simpa only [hphase] using LinkClient.numbered_connected numbered hcurrent hphase
      | writing state =>
        simpa only [hphase] using LinkClient.numbered_write numbered hcurrent hphase
      | header state =>
        simpa only [hphase] using LinkClient.numbered_readHeader numbered hcurrent state
      | body state size =>
        simpa only [hphase] using LinkClient.numbered_readBody numbered request state size
  | abandoned error =>
    simp only [step, Event.asks, Option.toList_none, List.append_nil]
    cases client.current with
    | none => exact numbered
    | some request => exact LinkClient.numbered_idle numbered rfl (fun _ => rfl) rfl
  | answer socket answer =>
    simp only [step, Event.asks, Option.toList_none, List.append_nil]
    exact LinkClient.numbered_answer numbered socket answer

theorem numbered_after (events : List Event) :
    Numbered (events.filterMap Event.asks) (after events) := by
  induction events using List.reverseRecOn with
  | nil =>
    constructor
    · rfl
    · intro request h
      cases h
    · intro socket caller bytes h
      cases h
    · intro request h
      cases h
    · intro socket other i j caller bytes bytes' h
      cases h
  | append_singleton events event ih =>
    rw [after_concat, List.filterMap_append]
    convert numbered_step ih event using 2
    cases h : event.asks <;> simp [h]

/-! ## The certificate -/

/-- A certificate is returned from the cache only with the idle connection that it goes with, which
stays. -/
theorem cached_of_step (client : LinkClient) (event : Event) (caller : ℕ)
    (certificate : List UInt8)
    (h : .cached caller certificate ∈ (step client event).returned) :
    .cached caller certificate ∈ client.returned ∨
    ∃ state, client.connection = some state ∧ (step client event).connection = some state ∧
      state.certificate = some certificate := by
  have hrequest : ∀ bytes maximum cachedCertificate,
      .cached caller certificate ∈ (client.request bytes maximum cachedCertificate).returned →
      .cached caller certificate ∈ client.returned := by
    intro bytes maximum cachedCertificate h
    unfold LinkClient.request at h
    split at h
    · simpa using h
    · exact h
  cases event with
  | certificate => exact .inl (hrequest _ _ _ h)
  | authenticationCertificate => exact .inl (hrequest _ _ _ h)
  | sign challenge =>
    simp only [step, LinkClient.sign] at h
    split at h
    · exact .inl (by simpa using h)
    · exact .inl (hrequest _ _ _ h)
  | protocolMajor => exact .inl (hrequest _ _ _ h)
  | proceed =>
    simp only [step] at h ⊢
    cases hcurrent : client.current with
    | none =>
      simp only [hcurrent] at h
      exact .inl h
    | some request =>
      simp only [hcurrent] at h ⊢
      cases hphase : request.phase with
      | locking =>
        simp only [hphase] at h ⊢
        unfold LinkClient.lock at h ⊢
        split at h
        · rename_i held _ hheld
          obtain ⟨state, hstate, hcertificate⟩ := Option.bind_eq_some_iff.mp hheld
          simp only [LinkClient.leave, List.mem_append, List.mem_singleton,
            Returned.cached.injEq] at h
          rcases h with h | ⟨-, rfl⟩
          · exact .inl h
          · exact .inr ⟨state, hstate, by simpa [LinkClient.leave], hcertificate⟩
        · exact .inl h
      | connecting =>
        simp only [hphase] at h
        exact .inl h
      | writing state =>
        simp only [hphase] at h
        exact .inl h
      | header state =>
        left
        simp only [hphase] at h
        unfold LinkClient.readHeader at h
        dsimp only at h
        split at h
        · split at h
          · simpa [LinkClient.leave, LinkClient.put] using h
          · split at h
            · simpa [LinkClient.leave, LinkClient.put] using h
            · exact h
        · exact h
      | body state size =>
        left
        simp only [hphase] at h
        unfold LinkClient.readBody at h
        dsimp only at h
        split at h
        · split at h
          · simpa [LinkClient.leave, LinkClient.put] using h
          · simpa [LinkClient.leave, LinkClient.put] using h
        · exact h
  | abandoned error =>
    left
    simp only [step] at h
    cases hcurrent : client.current with
    | none => simpa only [hcurrent] using h
    | some request =>
      simp only [hcurrent] at h
      simpa [LinkClient.leave] using h
  | answer socket answer => exact .inl h

/-- The certificate of the connection in use came over it. -/
theorem LinkClient.certified_inUse {client : LinkClient} (sound : Sound client)
    {state : MfiConnection} (h : client.inUse = some state) : client.Certified state := by
  unfold inUse at h
  cases hconnection : client.connection with
  | some held =>
    simp only [hconnection, Option.some_or, Option.some.injEq] at h
    subst h
    exact (sound.idle held hconnection).certified
  | none =>
    simp only [hconnection, Option.none_or] at h
    obtain ⟨request, hrequest, hphase⟩ := Option.bind_eq_some_iff.mp h
    have serves := sound.serves request hrequest
    unfold Serves at serves
    cases hstate : request.phase with
    | locking => simp [hstate, Phase.state?] at hphase
    | connecting => simp [hstate, Phase.state?] at hphase
    | writing own =>
      simp only [hstate, Phase.state?, Option.some.injEq] at hphase serves
      exact hphase ▸ serves.2.certified
    | header own =>
      simp only [hstate, Phase.state?, Option.some.injEq] at hphase serves
      exact hphase ▸ serves.2.2.1
    | body own size =>
      simp only [hstate, Phase.state?, Option.some.injEq] at hphase serves
      exact hphase ▸ serves.2.2.1

/-- After every run, each answer that a caller got is the one that the accessory gave to the request
of that caller, which was sent once; a certificate that goes with a connection was the answer to a
certificate request on that connection; and a caller gets it without a new request only while the
client has that connection, and keeps it. -/
theorem replies_correlated (events : List Event) :
    (∀ caller bytes body, .answered caller bytes body ∈ (after events).returned →
      (events.filterMap Event.asks)[caller]? = some bytes ∧
      ∃ (socket i : ℕ) (answer : Answer),
        ((after events).sockets socket).sent[i]? = some (caller, bytes) ∧
        ((after events).sockets socket).answers[i]? = some answer ∧
        answer.status = 0 ∧ answer.body = body ∧
        ∀ (other j : ℕ) (bytes' : List UInt8),
          ((after events).sockets other).sent[j]? = some (caller, bytes') → other = socket ∧ j = i) ∧
    (∀ state certificate, (after events).inUse = some state →
      state.certificate = some certificate →
      ((after events).sockets state.socket).Certificate certificate) ∧
    ∀ event caller certificate,
      .cached caller certificate ∈ (after (events ++ [event])).returned →
      .cached caller certificate ∈ (after events).returned ∨
      ∃ state, (after events).connection = some state ∧
        (after (events ++ [event])).connection = some state ∧
        state.certificate = some certificate ∧
        ((after events).sockets state.socket).Certificate certificate := by
  have sound := sound_after events
  have numbered := numbered_after events
  refine ⟨?_, ?_, ?_⟩
  · intro caller bytes body h
    obtain ⟨socket, i, answer, hsent, hanswer, hstatus, hbody⟩ := sound.answered caller bytes body h
    refine ⟨numbered.sent socket caller bytes (List.mem_of_getElem? hsent),
      socket, i, answer, hsent, hanswer, hstatus, hbody, ?_⟩
    intro other j bytes' hother
    exact numbered.once socket other i j caller bytes bytes' hsent hother
  · intro state certificate hstate
    exact LinkClient.certified_inUse sound hstate certificate
  · intro event caller certificate h
    rw [after_concat] at h ⊢
    rcases cached_of_step (after events) event caller certificate h with h | held
    · exact .inl h
    obtain ⟨state, hbefore, hafter, hcertificate⟩ := held
    exact .inr ⟨state, hbefore, hafter, hcertificate,
      (sound.idle state hbefore).certified certificate hcertificate⟩

/-- The answer to a signature request that was given up is not what the next caller reads: that
one reads from a new connection. -/
example : (after [.sign [7], .proceed, .proceed, .proceed, .abandoned (some .timeout),
    .sign [8], .answer 0 ⟨0, [70], by decide⟩, .proceed, .proceed, .proceed,
    .answer 1 ⟨0, [80], by decide⟩, .proceed, .proceed]).returned =
    [.failed 0 .timeout, .answered 1 [2, 0, 1, 8] [80]] := by
  decide +kernel

end ProjectArgo.CarPlay.Link
