import TChat.Server.Proofs.Lookups
/-!
# Events that deliver bytes

`outcome_step` says what an event may come to.  For an event that delivers
bytes the next state is computed here, so that what a packet must bring about
can be proved and not only what it may.
-/

namespace TChat.Server

open TChat.Common TChat.Lib

variable {i : Input} {s : ServerApp} {p : ConnectionPtr} {c : ClientConnection}
  {bytes rest : Bytes} {request : HandshakeRequest}

namespace ServerApp

theorem findConnection_of_deref (hp : s.deref p = some c) :
    ClientManager.findConnection p.fd s = some p := by
  obtain ⟨hfind, hnode⟩ := deref_eq_some.mp hp
  simp [ClientManager.findConnection, hfind, hnode]

theorem dispatch_reads (hwf : WellFormed s) (hp : s.deref p = some c) (h : c.Reads i.event) :
    (s.beginEvent i.now).dispatch i =
      ((s.beginEvent i.now).store p { c with readWaitingForWrite := false }).read i p := by
  have hbegin : (s.beginEvent i.now).deref p = some c := hp
  have hfind : ClientManager.findConnection c.fd (s.beginEvent i.now) = some p := by
    rw [(hwf.deref_ok hp).fd_eq]
    exact findConnection_of_deref hbegin
  obtain ⟨hwriting, ⟨hevent, hreading⟩ | ⟨hevent, hreading⟩⟩ := h
  · have hstored : (s.beginEvent i.now).store p { c with readWaitingForWrite := false } =
        s.beginEvent i.now := by
      rw [← hreading]
      exact store_of_deref hbegin
    rw [hstored]
    simp only [dispatch, hevent, hfind, readEvent, load_eq hbegin, bind, Except.bind, hreading,
      hwriting, Bool.and_self, Bool.false_eq_true, if_false]
  · simp only [dispatch, hevent, hfind, writeEvent, load_eq hbegin, bind, Except.bind, hreading,
      hwriting, Bool.and_false, Bool.false_eq_true, if_false, if_true]

theorem read_receives (hwf : WellFormed s) (hp : s.deref p = some c)
    (h : Receives i c bytes) :
    ((s.beginEvent i.now).store p { c with readWaitingForWrite := false }).read i p =
      ((s.beginEvent i.now).store p
        (c.withBuffer (c.rxBuffer ++ bytes))).handleReadResult i p .dataReceived := by
  have hbegin : (s.beginEvent i.now).deref p = some c := hp
  have hload : ((s.beginEvent i.now).store p { c with readWaitingForWrite := false }).load p =
      .ok { c with readWaitingForWrite := false } :=
    load_eq (deref_store_self hbegin rfl)
  have hread : handleRead { c with readWaitingForWrite := false } i.sslRead =
      some (.dataReceived, c.withBuffer (c.rxBuffer ++ bytes)) := by
    have hbounded : ¬(bytes = [] ∨ readBufferSize < bytes.length) := by
      rw [not_or, not_lt]
      exact ⟨h.nonempty, h.bounded⟩
    have hlistening : ¬({ c with readWaitingForWrite := false } : ClientConnection).status =
        .closing := h.listening
    rw [handleRead_eq (c := { c with readWaitingForWrite := false }) (hwf.deref_ok hp).ssl,
      if_neg hlistening, readLoop_eq, h.outcome]
    simp only [hbounded, if_false]
    rfl
  rw [read, hload]
  simp only [bind, Except.bind, hread, store_store]

end ServerApp

theorem step_receives (hwf : WellFormed s) (hp : s.deref p = some c) (h : Receives i c bytes)
    (hpossible : i.Possible s) :
    step i s = ((s.beginEvent i.now).store p
      (c.withBuffer (c.rxBuffer ++ bytes))).handleReadResult i p .dataReceived := by
  rw [step, if_pos hpossible, ServerApp.dispatch_reads hwf hp h.reads,
    ServerApp.read_receives hwf hp h]

theorem step_handshakeParsed (hwf : WellFormed s) (hp : s.deref p = some c)
    (h : Receives i c bytes) (hstatus : c.status = .awaitingAuth) {result : HandshakeResult}
    (hparse : processHandshakePacket (c.rxBuffer ++ bytes) = (result, rest))
    (hpossible : i.Possible s) :
    step i s = ((s.beginEvent i.now).store p
      (c.withBuffer rest)).handleHandshakeStreamStatus i result p := by
  have hload : ((s.beginEvent i.now).store p (c.withBuffer (c.rxBuffer ++ bytes))).load p =
      .ok (c.withBuffer (c.rxBuffer ++ bytes)) :=
    ServerApp.load_eq (ServerApp.deref_store_self (s := s.beginEvent i.now) hp rfl)
  have hawaiting : (c.withBuffer (c.rxBuffer ++ bytes)).status = .awaitingAuth := hstatus
  have hbuffer : (c.withBuffer (c.rxBuffer ++ bytes)).rxBuffer = c.rxBuffer ++ bytes := rfl
  rw [step_receives hwf hp h hpossible]
  simp only [ServerApp.handleReadResult, bind, Except.bind, hload]
  rw [if_pos hawaiting]
  simp only [hbuffer, hparse, ServerApp.store_store]
  rfl

theorem step_handshakeInvalid (hwf : WellFormed s) (hp : s.deref p = some c)
    (h : Receives i c bytes) (hstatus : c.status = .awaitingAuth)
    (hparse : processHandshakePacket (c.rxBuffer ++ bytes) =
      (⟨.invalidAuthPacket, request⟩, rest))
    (hpossible : i.Possible s) :
    step i s = .ok (ClientManager.release i.now p c.ssl (s.beginEvent i.now)) := by
  rw [step_handshakeParsed hwf hp h hstatus hparse hpossible]
  exact ServerApp.disconnectClient_store (s := s.beginEvent i.now) (d := c.withBuffer rest)
    hp rfl (hwf.deref_ok hp).fd_eq rfl

theorem step_handshakes (hwf : WellFormed s) (hp : s.deref p = some c)
    (h : Handshakes i c request rest) (hpossible : i.Possible s) :
    step i s = ((s.beginEvent i.now).store p (c.withBuffer rest)).handleHandshakeClient i
      request p := by
  obtain ⟨bytes, hreceives, hstatus, hparse⟩ := h
  exact step_handshakeParsed hwf hp hreceives hstatus hparse hpossible

theorem step_loggedIn (hwf : WellFormed s) (hp : s.deref p = some c)
    (h : Handshakes i c request rest) (hpossible : i.Possible s) (hkind : request.kind = .login)
    (hverify : i.verifyClient request.username request.password = .authorized) :
    step i s = .ok ((((ClientManager.addSession
        ⟨request.username, generateToken i.random, some p, i.now, .connected⟩
          (s.beginEvent i.now)).store p
      (queueWrite (c.authenticate rest i.now)
        (createPacketStream .ack (literal "OK|" ++ generateToken i.random)))).log
      [.queueWrite p (createPacketStream .ack
        (literal "OK|" ++ generateToken i.random))]).enableWriteEvent i p.fd) := by
  have hlogin := ServerApp.handleLoginCase_store (i := i) (s := s.beginEvent i.now)
    (d := c.withBuffer rest) hp rfl (hwf.deref_ok hp).fd_eq request.username
  rw [step_handshakes hwf hp h hpossible, ServerApp.handleHandshakeClient, hkind]
  simp only [hverify]
  exact hlogin

theorem lookups_of_login (hwf : WellFormed s) (hp : s.deref p = some c)
    (h : Handshakes i c request rest) (hkind : request.kind = .login)
    (hverify : i.verifyClient request.username request.password = .authorized)
    (hpossible : i.Possible s) {s' : ServerApp} (hstep : step i s = .ok s') :
    s'.deref p = some (queueWrite (c.authenticate rest i.now)
        (createPacketStream .ack (literal "OK|" ++ generateToken i.random))) ∧
      s'.sessions.find? request.username =
        some ⟨request.username, generateToken i.random, some p, i.now, .connected⟩ := by
  rw [step_loggedIn hwf hp h hpossible hkind hverify, Except.ok.injEq] at hstep
  subst hstep
  constructor
  · exact ServerApp.deref_replied (s := ClientManager.addSession _ (s.beginEvent i.now)) hp
      (by rfl) _
  · rw [ServerApp.enableWriteEvent_sessions, ServerApp.log_sessions, ServerApp.store_sessions,
      ClientManager.addSession]
    exact (OrderedMap.find?_insert ..).trans (if_pos rfl)

theorem step_loginRefused (hwf : WellFormed s) (hp : s.deref p = some c)
    (h : Handshakes i c request rest) (hpossible : i.Possible s) (hkind : request.kind = .login)
    {status : VerifyClientStatus}
    (hverify : i.verifyClient request.username request.password = status)
    (hstatus : status ≠ .authorized) :
    step i s = .ok ((((s.beginEvent i.now).store p
        { queueWrite (c.withBuffer rest) (refusal status) with status := .closing }).log
      [.queueWrite p (refusal status)]).enableWriteEvent i p.fd) := by
  have hreject := ServerApp.rejectLogin_store (i := i) (s := s.beginEvent i.now)
    (d := c.withBuffer rest) hp rfl (hwf.deref_ok hp).fd_eq (refusal status)
  rw [step_handshakes hwf hp h hpossible, ServerApp.handleHandshakeClient, hkind]
  simp only [hverify]
  cases status with
  | authorized => exact absurd rfl hstatus
  | execFailed | userNotFound | notAuthorized => exact hreject

theorem step_registered (hwf : WellFormed s) (hp : s.deref p = some c)
    (h : Handshakes i c request rest) (hpossible : i.Possible s)
    (hkind : request.kind = .register)
    (hregister : i.registerClient request.username request.password = .clientRegistered) :
    step i s = .ok ((((s.beginEvent i.now).store p
        (queueWrite (c.withBuffer rest) (createPacketStream .ack (literal "OK")))).log
      [.queueWrite p (createPacketStream .ack (literal "OK"))]).enableWriteEvent i p.fd) := by
  have hstored := ServerApp.handleRegisterClientStatus_store (i := i) (s := s.beginEvent i.now)
    (d := c.withBuffer rest) hp rfl (hwf.deref_ok hp).fd_eq
  rw [step_handshakes hwf hp h hpossible, ServerApp.handleHandshakeClient, hkind]
  simp only [hregister]
  exact hstored

theorem step_registerFailed (hwf : WellFormed s) (hp : s.deref p = some c)
    (h : Handshakes i c request rest) (hpossible : i.Possible s)
    (hkind : request.kind = .register)
    (hregister : i.registerClient request.username request.password ≠ .clientRegistered) :
    step i s = .ok (ClientManager.release i.now p c.ssl (s.beginEvent i.now)) := by
  have hdisconnect := ServerApp.disconnectClient_store (i := i) (s := s.beginEvent i.now)
    (d := c.withBuffer rest) hp rfl (hwf.deref_ok hp).fd_eq rfl
  rw [step_handshakes hwf hp h hpossible, ServerApp.handleHandshakeClient, hkind]
  dsimp only
  cases hstatus : i.registerClient request.username request.password with
  | clientRegistered => exact absurd hstatus hregister
  | execFailed | unableToOpenDatabase | usernameExists | unknownError => exact hdisconnect

theorem step_reattached (hwf : WellFormed s) (hp : s.deref p = some c)
    (h : Handshakes i c request rest) (hpossible : i.Possible s)
    (hkind : request.kind = .reconnect) {session : ClientSession}
    (hsession : s.sessions.find? request.username = some session)
    (htoken : session.token = request.token) (hstate : session.state = .disconnected) :
    step i s = .ok { (s.beginEvent i.now).store p (c.authenticate rest i.now) with
      sessions := s.sessions.insert request.username { session with
        connection := some p
        state := .reconnected
        disconnectedAt := 0 } } := by
  have hreconnect := ServerApp.reconnectClient_store (i := i) (s := s.beginEvent i.now)
    (d := c.withBuffer rest) hp rfl (hwf.deref_ok hp).fd_eq hsession hstate
  have hverify : ClientManager.verifySession request.username request.token
      ((s.beginEvent i.now).store p (c.withBuffer rest)) = true :=
    ServerApp.verifySession_eq_true.mpr ⟨session, hsession, htoken⟩
  rw [step_handshakes hwf hp h hpossible, ServerApp.handleHandshakeClient, hkind]
  simp only [hverify, if_true]
  exact hreconnect

theorem step_reconnectIgnored (hwf : WellFormed s) (hp : s.deref p = some c)
    (h : Handshakes i c request rest) (hpossible : i.Possible s)
    (hkind : request.kind = .reconnect)
    (hverify : ClientManager.verifySession request.username request.token s = true)
    (hstate : ∀ session, s.sessions.find? request.username = some session →
      session.state ≠ .disconnected) :
    step i s = .ok ((s.beginEvent i.now).store p (c.withBuffer rest)) := by
  have hignored := ServerApp.reconnectClient_ignored (i := i)
    (s := (s.beginEvent i.now).store p (c.withBuffer rest))
    (ServerApp.deref_store_self (s := s.beginEvent i.now) hp rfl) hstate
  have hverified : ClientManager.verifySession request.username request.token
      ((s.beginEvent i.now).store p (c.withBuffer rest)) = true := hverify
  rw [step_handshakes hwf hp h hpossible, ServerApp.handleHandshakeClient, hkind]
  simp only [hverified, if_true]
  exact hignored

theorem step_reconnectRefused (hwf : WellFormed s) (hp : s.deref p = some c)
    (h : Handshakes i c request rest) (hpossible : i.Possible s)
    (hkind : request.kind = .reconnect)
    (hverify : ClientManager.verifySession request.username request.token s = false) :
    step i s = .ok (ClientManager.release i.now p c.ssl (s.beginEvent i.now)) := by
  have hrefused : ClientManager.verifySession request.username request.token
      ((s.beginEvent i.now).store p (c.withBuffer rest)) = false := hverify
  rw [step_handshakes hwf hp h hpossible, ServerApp.handleHandshakeClient, hkind]
  simp only [hrefused, Bool.false_eq_true, if_false]
  exact ServerApp.disconnectClient_store (s := s.beginEvent i.now) (d := c.withBuffer rest)
    hp rfl (hwf.deref_ok hp).fd_eq rfl

theorem step_streams (hwf : WellFormed s) (hp : s.deref p = some c) {stream : ClientStream}
    (h : Streams i c stream) (hpossible : i.Possible s) :
    step i s = ((s.beginEvent i.now).store p
      (c.withBuffer stream.rxBuffer)).handleProcessStreamResult i stream.result
        (ClientManager.findSesssionFromConnection p s) stream.message := by
  obtain ⟨bytes, hreceives, hstatus, hparse⟩ := h
  have hload : ((s.beginEvent i.now).store p (c.withBuffer (c.rxBuffer ++ bytes))).load p =
      .ok (c.withBuffer (c.rxBuffer ++ bytes)) :=
    ServerApp.load_eq (ServerApp.deref_store_self (s := s.beginEvent i.now) hp rfl)
  have hauthenticated : ¬(c.withBuffer (c.rxBuffer ++ bytes)).status = .awaitingAuth := by
    rw [show (c.withBuffer (c.rxBuffer ++ bytes)).status = .authenticated from hstatus]
    simp
  have hbuffer : (c.withBuffer (c.rxBuffer ++ bytes)).rxBuffer = c.rxBuffer ++ bytes := rfl
  rw [step_receives hwf hp hreceives hpossible]
  simp only [ServerApp.handleReadResult, bind, Except.bind, hload]
  rw [if_neg hauthenticated]
  simp only [hbuffer, hparse, ServerApp.store_store]
  rfl

theorem step_streamIdle (hwf : WellFormed s) (hp : s.deref p = some c) {stream : ClientStream}
    (h : Streams i c stream)
    (hresult : stream.result = .incompletePacket ∨ stream.result = .processComplete)
    (hpossible : i.Possible s) :
    step i s = .ok ((s.beginEvent i.now).store p (c.withBuffer stream.rxBuffer)) := by
  rw [step_streams hwf hp h hpossible]
  rcases hresult with hresult | hresult <;> rw [hresult] <;> rfl

section Session

variable {stream : ClientStream} {session : ClientSession}

theorem step_relayed (hwf : WellFormed s) (hp : s.deref p = some c) (h : Streams i c stream)
    (hresult : stream.result = .printMessage)
    (hsession : ClientManager.findSesssionFromConnection p s = some session)
    (hpossible : i.Possible s) :
    step i s = .ok (((s.beginEvent i.now).store p
      (c.withBuffer stream.rxBuffer)).broadcastAndEnable i (some p) p.fd
        (ServerApp.clientBroadcast session.username stream.message)) := by
  rw [step_streams hwf hp h hpossible, hresult, hsession,
    ServerApp.handleProcessStreamResult_printMessage hwf hp (findSession_some hsession).1]

theorem step_ponged (hwf : WellFormed s) (hp : s.deref p = some c) (h : Streams i c stream)
    (hresult : stream.result = .sendPong)
    (hsession : ClientManager.findSesssionFromConnection p s = some session)
    (hpossible : i.Possible s) :
    step i s = .ok ((((s.beginEvent i.now).store p
        (queueWrite { c.withBuffer stream.rxBuffer with lastSeen := i.now }
          (createPacketStream .pong []))).log
      [.queueWrite p (createPacketStream .pong [])]).enableWriteEvent i p.fd) := by
  rw [step_streams hwf hp h hpossible, hresult, hsession,
    ServerApp.handleProcessStreamResult_sendPong hwf hp (findSession_some hsession).1]

theorem step_quit (hwf : WellFormed s) (hp : s.deref p = some c) (h : Streams i c stream)
    (hresult : stream.result = .disconnectClient)
    (hsession : ClientManager.findSesssionFromConnection p s = some session)
    (hpossible : i.Possible s) :
    step i s = .ok (ClientManager.release i.now p c.ssl (s.beginEvent i.now)) := by
  rw [step_streams hwf hp h hpossible, hresult, hsession,
    ServerApp.handleProcessStreamResult_disconnectClient hwf hp (findSession_some hsession).1]

end Session

theorem step_kicked_detached {keys : List Int} {u buffer : Bytes} {x : ClientSession}
    (hpossible : i.Possible s) (hevent : i.event = .console keys)
    (hread : readConsoleInput keys s.consoleInputBuffer = .ok (⟨.kickClient, u⟩, buffer))
    (hx : s.sessions.find? u = some x) (hconnection : x.connection = none) :
    step i s = .ok ((s.beginEvent i.now).setConsoleInputBuffer buffer) := by
  have hkick := ServerApp.kick_detached (i := i)
    (s := (s.beginEvent i.now).setConsoleInputBuffer buffer) hx hconnection
  rw [step, if_pos hpossible, ServerApp.dispatch, hevent]
  simp only [ServerApp.consoleWriteEvent, ServerApp.beginEvent_consoleInputBuffer, hread, bind,
    Except.bind, ServerApp.handleConsoleInputResult, hkick, Except.map]

theorem step_kicked_attached (hwf : WellFormed s) {keys : List Int} {u buffer : Bytes}
    {x : ClientSession} (hpossible : i.Possible s) (hevent : i.event = .console keys)
    (hread : readConsoleInput keys s.consoleInputBuffer = .ok (⟨.kickClient, u⟩, buffer))
    (hx : s.sessions.find? u = some x) (hconnection : x.connection = some p)
    (hp : s.deref p = some c) :
    step i s = .ok (ClientManager.release i.now p c.ssl
      ((s.beginEvent i.now).setConsoleInputBuffer buffer)) := by
  have hkick := ServerApp.kick_attached (i := i)
    (s := (s.beginEvent i.now).setConsoleInputBuffer buffer) hx hconnection hp
    (hwf.deref_ok hp).fd_eq
  rw [step, if_pos hpossible, ServerApp.dispatch, hevent]
  simp only [ServerApp.consoleWriteEvent, ServerApp.beginEvent_consoleInputBuffer, hread, bind,
    Except.bind, ServerApp.handleConsoleInputResult, hkick, Except.map]

theorem step_ticked (hwf : WellFormed s) (hpossible : i.Possible s) (hevent : i.event = .timer) :
    step i s = .ok ((s.beginEvent i.now).tick i) := by
  rw [step, if_pos hpossible, ServerApp.dispatch, hevent]
  exact ServerApp.timerEvent_eq hwf

end TChat.Server
