import TChat.Exchange
/-!
# Logging in

What `login_client` returns and what the server has done about the login are the same,
however the packet and the reply are cut, and whatever else the server does in between.
-/

namespace TChat

open TChat.Common TChat.Lib TChat.Server

/-- The result that tells what the server has made of a login. -/
def loginOutcome (username : Bytes) (i : Input) (request : HandshakeRequest) :
    Client.LoginResult :=
  match i.verifyClient request.username request.password with
  | .authorized => ⟨.success, username, generateToken i.random⟩
  | .notAuthorized => .of .authenticationRejected
  | .userNotFound => .of .authenticationRejected
  | .execFailed => .of .protocolError

/-- The client's result agrees with the step that has handled its login. -/
structure LoginAgrees (e : Exchange .login) (t : Transition ServerApp Input)
    (request : HandshakeRequest) (result : Client.LoginResult) : Prop where
  kind : request.kind = .login
  packet : request.username ++ literal "|" ++ request.password = e.payload
  success : result.status = .success ↔
    t.input.verifyClient request.username request.password = .authorized
  rejected : result.status = .authenticationRejected ↔
    t.input.verifyClient request.username request.password = .notAuthorized ∨
      t.input.verifyClient request.username request.password = .userNotFound
  protocolError : result.status = .protocolError ↔
    t.input.verifyClient request.username request.password = .execFailed
  token : result.status = .success → t.post.sessions.find? request.username =
    some ⟨request.username, result.token, some e.connection, t.input.now, .connected⟩

section

variable {i : Input} {request : HandshakeRequest}

theorem length_generateToken (random : Nat → Fin 62) : (generateToken random).length = 8 := by
  simp [generateToken]

/-- What the client makes of the reply, whatever follows it. -/
theorem loginReply_judged (username : Bytes) (i : Input) (request : HandshakeRequest) :
    ∃ result, (∀ more, (Client.processDataStream (loginReply i request ++ more)).1 = result) ∧
      result.waits = false ∧
      Client.judgeReply username result = loginOutcome username i request := by
  have hrefused : ∀ status, (refusal status).length ≤ maxMessagePayloadSize := by
    intro status
    cases status <;> decide
  unfold loginReply loginOutcome
  cases i.verifyClient request.username request.password with
  | authorized =>
      have hlength := length_generateToken i.random
      have htoken : generateToken i.random ≠ [] := by
        intro hempty
        simp [hempty] at hlength
      have hfits : (literal "OK|" ++ generateToken i.random).length ≤ maxMessagePayloadSize := by
        rw [List.length_append, hlength]
        decide
      exact ⟨_, Client.read_reply hfits, rfl, Client.judgeReply_welcome htoken⟩
  | notAuthorized | userNotFound =>
      exact ⟨_, Client.read_reply (by decide), rfl, Client.judgeReply_no⟩
  | execFailed => exact ⟨_, Client.read_reply (by decide), rfl, Client.judgeReply_error⟩

theorem loginOutcome_status (username : Bytes) (i : Input) (request : HandshakeRequest) :
    ((loginOutcome username i request).status = .success ↔
      i.verifyClient request.username request.password = .authorized) ∧
    ((loginOutcome username i request).status = .authenticationRejected ↔
      i.verifyClient request.username request.password = .notAuthorized ∨
        i.verifyClient request.username request.password = .userNotFound) ∧
    ((loginOutcome username i request).status = .protocolError ↔
      i.verifyClient request.username request.password = .execFailed) := by
  unfold loginOutcome
  cases i.verifyClient request.username request.password <;> simp [Client.LoginResult.of]

end

namespace Exchange

variable {e : Exchange .login} {t : Transition ServerApp Input} {request : HandshakeRequest}

theorem isHandshake_login (e : Exchange .login) : IsHandshake (e.request .login) e.packet :=
  e.isHandshake fun _ _ => rfl

theorem Handles.loginReply_first (h : e.Handles t request) :
    ∃ more, queuedDuring e.connection e.history = loginReply t.input request :: more := by
  obtain ⟨hrequest, -, before, after, hsplit, hsilent, hbefore, hstep, -⟩ :=
    h.handled e.isHandshake_login
  have hkind : request.kind = .login := hrequest ▸ rfl
  refine ⟨queuedDuring e.connection after, ?_⟩
  rw [hsplit, queuedDuring_split, hsilent,
    queuedOn_login (wellFormed_of_run hbefore) h.2 hkind hstep]
  rfl

theorem loginClient_reply (hwritten : e.writeStatus = .queueEmpty)
    (harrived : loginReply t.input request <+: Client.arrived e.reads) :
    ∃ connection, Client.loginClient e.username e.password e.writes e.reads e.client =
      some (loginOutcome e.username t.input request, connection, e.calls) := by
  obtain ⟨hlive, hbuffer⟩ := e.client_live
  obtain ⟨result, hread, hwaits, hjudged⟩ := loginReply_judged e.username t.input request
  have hempty : (Client.processDataStream e.flushed.rxBuffer).1.waits = true := by
    rw [hbuffer]
    rfl
  obtain ⟨connection, hloop⟩ := Client.loginLoop_reply e.username hread hwaits hlive hempty
    e.deliverable (by rwa [hbuffer, List.nil_append]) le_rfl
  have hopen : ¬(e.client.ssl = none ∨ e.client.fd < 0) :=
    not_or.mpr ⟨e.client_open.2, not_lt.mpr e.client_open.1⟩
  refine ⟨connection, ?_⟩
  rw [Client.loginClient, if_neg hopen]
  dsimp only
  rw [e.flush]
  simp [hwritten, hloop, hjudged]

theorem Handles.loginAgrees (h : e.Handles t request) :
    LoginAgrees e t request (loginOutcome e.username t.input request) := by
  obtain ⟨hrequest, -, before, after, -, -, hbefore, hstep, -⟩ := h.handled e.isHandshake_login
  have hwf := wellFormed_of_run hbefore
  obtain ⟨c, rest, hp, hshake⟩ := (handshake?_eq_some hwf).mp h.2
  have hkind : request.kind = .login := hrequest ▸ rfl
  obtain ⟨hsuccess, hrejected, hfailed⟩ := loginOutcome_status e.username t.input request
  refine ⟨hkind, hrequest ▸ e.request_payload .login, hsuccess, hrejected, hfailed, ?_⟩
  intro hstatus
  have hverify := hsuccess.mp hstatus
  have htoken : (loginOutcome e.username t.input request).token = generateToken t.input.random := by
    rw [loginOutcome, hverify]
  rw [htoken]
  exact (lookups_of_login hwf hp hshake hkind hverify (possible_of_step hstep) hstep).2

end Exchange

/-- For every username and password that can be typed, every way of cutting the packet and
the reply, and any other events in between: once the first reply of the server has arrived in
full, `login_client` returns, a step of the server has handled the login, and the result
agrees with it. -/
theorem login_agrees (e : Exchange .login) (h : e.Replied) :
    ∃ result connection,
      Client.loginClient e.username e.password e.writes e.reads e.client =
        some (result, connection, e.calls) ∧
      (∃ t request, e.Handles t request) ∧
      ∀ t request, e.Handles t request → LoginAgrees e t request result := by
  obtain ⟨reply, more, hqueued, harrived⟩ := h
  have hreturns {t : Transition ServerApp Input} {request : HandshakeRequest}
      (hhandles : e.Handles t request) : ∃ connection,
        Client.loginClient e.username e.password e.writes e.reads e.client =
          some (loginOutcome e.username t.input request, connection, e.calls) := by
    obtain ⟨-, hwritten, -⟩ := hhandles.handled e.isHandshake_login
    obtain ⟨others, hfirst⟩ := hhandles.loginReply_first
    rw [hqueued, List.cons.injEq] at hfirst
    exact e.loginClient_reply hwritten (hfirst.1 ▸ harrived)
  obtain ⟨t, request, hhandles⟩ := e.exists_handles e.isHandshake_login (by rw [hqueued]; simp)
  obtain ⟨connection, hclient⟩ := hreturns hhandles
  refine ⟨_, connection, hclient, ⟨t, request, hhandles⟩, fun t' request' hhandles' => ?_⟩
  -- the client has returned once, so all steps agree
  obtain ⟨connection', hclient'⟩ := hreturns hhandles'
  rw [hclient, Option.some.injEq, Prod.mk.injEq] at hclient'
  exact hclient'.1 ▸ hhandles'.loginAgrees

/-- A client logs in with a password that has a delimiter in it; another one speaks right
behind the acknowledgement, which leaves in two writes. -/
def loginAmongOthers : List Input :=
  let packet := createPacketStream .login (Client.credentials (literal "a") (literal "b|c"))
  [accepting 5, accepting 6, receiving 5 (packet.take 7),
    receiving 6 (loginPacket (literal "z") (literal "y")), receiving 5 (packet.drop 7),
    receiving 6 (createPacketStream .message (literal "hi")),
    writing 5 [.wrote 10, .failed .wantWrite], writing 5 [.wrote 13, .wrote 18]]

theorem login_agrees_authorized : ∃ e : Exchange .login, e.password = literal "b|c" ∧
    ∃ result connection,
      Client.loginClient e.username e.password e.writes e.reads e.client =
        some (result, connection, e.calls) ∧ result.status = .success ∧
      ∃ t request, e.Handles t request ∧ t.post.sessions.find? request.username =
        some ⟨request.username, result.token, some e.connection, t.input.now, .connected⟩ := by
  let spoken := createPacketStream .ack (literal "OK|" ++ generateToken Input.sample.random) ++
    ServerApp.clientBroadcast (literal "z") (literal "hi")
  obtain ⟨e, -, hpassword, -, -, hreads, hconnection, h⟩ := exists_exchange .login loginAmongOthers
    [.received (spoken.take 4), .failed (.syscall .eintr), .received ((spoken.drop 4).take 25)]
    (fun history => decide (
      queuedDuring ⟨5, 0⟩ history = [createPacketStream .ack
        (literal "OK|" ++ generateToken Input.sample.random),
        ServerApp.clientBroadcast (literal "z") (literal "hi")] ∧
      ∀ t ∈ history, ∀ asked ∈ handshake? t.input t.pre,
        t.input.verifyClient asked.2.username asked.2.password = .authorized))
    (by
      intro piece hmem
      simp only [List.mem_cons, SslRead.received.injEq, reduceCtorEq, List.not_mem_nil, false_or,
        or_false] at hmem
      rcases hmem with rfl | rfl <;> decide +kernel)
    (by decide +kernel)
  simp only [decide_eq_true_eq] at h
  obtain ⟨hqueued, hverify⟩ := h
  have hreplied : e.Replied := by
    refine ⟨_, _, hconnection ▸ hqueued, ?_⟩
    rw [hreads]
    decide +kernel
  obtain ⟨result, connection, hclient, ⟨t, request, hhandles⟩, hagrees⟩ := login_agrees e hreplied
  have hagree := hagrees t request hhandles
  have hsuccess := hagree.success.mpr (hverify t hhandles.1 _ hhandles.2)
  exact ⟨e, hpassword, result, connection, hclient, hsuccess, t, request, hhandles,
    hagree.token hsuccess⟩

end TChat
