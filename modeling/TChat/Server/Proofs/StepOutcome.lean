import TChat.Server.Effect
/-!
# The list of outcomes is complete

One lemma per handler, from the innermost outwards: each computes what the
handler does to a state whose record for the connection is known.
`outcome_step` puts them together.
-/

namespace TChat.Server

open TChat.Common TChat.Lib

namespace ServerApp

variable {i : Input} {s : ServerApp} {p : ConnectionPtr} {c d : ClientConnection}

/-! ## Disconnecting -/

theorem release_store (now : Time) (ssl : Option Nat) :
    ClientManager.release now p ssl (s.store p c) = ClientManager.release now p ssl s := by
  simp only [ClientManager.release, store, log, closeFd, setWriteFilter,
    OrderedMap.erase_insert]

theorem disconnect_eq (h : s.deref p = some c) (hfd : c.fd = p.fd) :
    ClientManager.disconnect i (some p) s =
      .ok (.disconnected, ClientManager.release i.now p c.ssl s) := by
  obtain ⟨hfind, hnode⟩ := deref_eq_some.mp h
  simp [ClientManager.disconnect, load_eq h, hfd, hfind, hnode, bind, Except.bind]

theorem disconnectClient_eq (h : s.deref p = some c) (hfd : c.fd = p.fd) :
    s.disconnectClient i p = .ok (ClientManager.release i.now p c.ssl s) := by
  rw [disconnectClient, disconnect_eq h hfd]
  rfl

theorem disconnectClient_store (h : s.deref p = some c) (hnode : d.node = c.node)
    (hfd : d.fd = p.fd) (hssl : d.ssl = c.ssl) :
    (s.store p d).disconnectClient i p = .ok (ClientManager.release i.now p c.ssl s) := by
  rw [disconnectClient_eq (deref_store_self h hnode) hfd, hssl, release_store]

theorem kick_unknown {username : Bytes} (hsession : s.sessions.find? username = none) :
    ClientManager.kick i username s = .ok (.clientNotFound, s) := by
  simp only [ClientManager.kick, hsession]

theorem kick_detached {username : Bytes} {session : ClientSession}
    (hsession : s.sessions.find? username = some session)
    (hconnection : session.connection = none) :
    ClientManager.kick i username s = .ok (.kicked, s) := by
  simp only [ClientManager.kick, hsession, hconnection]

theorem kick_attached {username : Bytes} {session : ClientSession}
    (hsession : s.sessions.find? username = some session)
    (hconnection : session.connection = some p) (h : s.deref p = some c)
    (hfd : c.fd = p.fd) :
    ClientManager.kick i username s =
      .ok (.kicked, ClientManager.release i.now p c.ssl s) := by
  simp only [ClientManager.kick, hsession, hconnection, disconnect_eq h hfd, bind,
    Except.bind, ne_eq, not_true_eq_false, if_false]

/-! ## Queueing a reply -/

@[simp] theorem log_nil : s.log [] = s := by
  rw [log, List.append_nil]

@[simp] theorem store_log (actions : List Action) :
    (s.log actions).store p c = (s.store p c).log actions := rfl

@[simp] theorem addSession_store (session : ClientSession) :
    ClientManager.addSession session (s.store p c) =
      (ClientManager.addSession session s).store p c := rfl

theorem queueWriteTo_store (h : s.deref p = some c) (hnode : d.node = c.node)
    (packet : Bytes) :
    (s.store p d).queueWriteTo p packet =
      .ok ((s.store p (queueWrite d packet)).log [.queueWrite p packet]) := by
  have hload := load_eq (deref_store_self h hnode)
  simp [queueWriteTo, hload, bind, Except.bind]

/-! ## Flushing -/

/-- `handle_flush_result` for a flush that did not take the connection down: the
flags are as `flush_write` left them, so only the filter changes. -/
theorem handleFlushResult_eq {result : FlushResult} (h : s.deref p = some c)
    (hfd : c.fd = p.fd) (hreading : c.readWaitingForWrite = false)
    (hresult : result ≠ .fatalError) (hopen : ¬(result = .queueEmpty ∧ c.status = .closing))
    (hwaiting : c.writeWaitingForRead = decide (result = .readWait)) :
    s.handleFlushResult i result p = .ok (s.switchWriteEvent i p.fd (flushFilter result)) := by
  have hkeep (b : Bool) (hb : c.writeWaitingForRead = b) :
      s.store p { c with writeWaitingForRead := b } = s := by
    subst hb
    exact store_of_deref h
  cases result with
  | fatalError => exact absurd rfl hresult
  | queueEmpty =>
      have hclosing : ¬c.status = .closing := fun hc => hopen ⟨rfl, hc⟩
      simp only [handleFlushResult, load_eq h, bind, Except.bind, hkeep false hwaiting,
        hclosing, if_false]
      simp only [hreading, Bool.not_false, if_true, hfd, switchWriteEvent, flushFilter]
  | readWait =>
      simp only [handleFlushResult, load_eq h, bind, Except.bind, hkeep true hwaiting]
      simp only [hfd, switchWriteEvent, flushFilter]
  | writeWait =>
      simp only [handleFlushResult, load_eq h, bind, Except.bind, hkeep false hwaiting]
      simp only [hfd, switchWriteEvent, flushFilter]

theorem handleFlushResult_drop {result : FlushResult} (h : s.deref p = some c)
    (hfd : c.fd = p.fd)
    (hgone : result = .fatalError ∨ result = .queueEmpty ∧ c.status = .closing) :
    s.handleFlushResult i result p = .ok (ClientManager.release i.now p c.ssl s) := by
  rcases hgone with rfl | ⟨rfl, hclosing⟩
  · exact disconnectClient_eq h hfd
  · simp only [handleFlushResult, load_eq h, bind, Except.bind, hclosing, if_true]
    exact disconnectClient_store h rfl hfd rfl

theorem flushWrite_eq (h : c.ssl ≠ none) (outcomes : List SslWrite) :
    flushWrite c outcomes =
      (flushLoop storeOffset outcomes c.toOutgoing).map fun flush =>
        (flush.result, c.withOutgoing flush.outgoing, flush.calls) := by
  obtain ⟨ssl, hssl⟩ := Option.ne_none_iff_exists'.mp h
  rw [flushWrite, hssl]

theorem flush_outcome (hwf : WellFormed s) (h : s.deref p = some c)
    (hflushes : c.Flushes i.event) :
    Outcome i s (((s.beginEvent i.now).store p
      { c with writeWaitingForRead := false }).flush i p) := by
  have hok := hwf.deref_ok h
  have hload : ((s.beginEvent i.now).store p { c with writeWaitingForRead := false }).load p =
      .ok { c with writeWaitingForRead := false } :=
    load_eq (deref_store_self h rfl)
  have hwrite : flushWrite { c with writeWaitingForRead := false } i.sslWrite =
      (flushLoop storeOffset i.sslWrite c.toOutgoing.notWaiting).map fun flush =>
        (flush.result, c.withOutgoing flush.outgoing, flush.calls) :=
    flushWrite_eq (c := { c with writeWaitingForRead := false }) hok.ssl i.sslWrite
  rw [flush, hload]
  simp only [bind, Except.bind, hwrite]
  cases hflush : flushLoop storeOffset i.sslWrite c.toOutgoing.notWaiting with
  | none => exact .impossible
  | some flush =>
      have hderef : (((s.beginEvent i.now).store p
          (c.withOutgoing flush.outgoing)).log (flush.calls.map (.sslWrite p))).deref p =
          some (c.withOutgoing flush.outgoing) :=
        deref_store_self h rfl
      simp only [Option.map_some, store_store]
      by_cases hgone : flush.result = .fatalError ∨
          flush.result = .queueEmpty ∧ c.status = .closing
      · have hrelease := release_store (p := p) (s := (s.beginEvent i.now).log
          (flush.calls.map (.sslWrite p))) (c := c.withOutgoing flush.outgoing) i.now c.ssl
        have hdrop := handleFlushResult_drop (i := i) hderef hok.fd_eq hgone
        exact hdrop ▸ hrelease ▸ .dropped h (.flushed hflushes hflush hgone)
      · rw [not_or] at hgone
        have hkeep := handleFlushResult_eq (i := i) hderef hok.fd_eq hflushes.1 hgone.1
          hgone.2 (flushLoop_waiting hflush hgone.1)
        exact hkeep ▸ .edited h (.flushed hflushes hflush hgone.1 hgone.2)

/-! ## The handshake -/

theorem rejectLogin_store (h : s.deref p = some c) (hnode : d.node = c.node)
    (hfd : d.fd = p.fd) (packet : Bytes) :
    (s.store p d).rejectLogin i p packet =
      .ok (((s.store p { queueWrite d packet with status := .closing }).log
        [.queueWrite p packet]).enableWriteEvent i p.fd) := by
  have hload : ((s.store p (queueWrite d packet)).log [.queueWrite p packet]).load p =
      .ok (queueWrite d packet) :=
    load_eq (deref_store_self h hnode)
  have hqueued : (queueWrite d packet).fd = p.fd := hfd
  rw [rejectLogin, queueWriteTo_store h hnode]
  simp only [bind, Except.bind, hload, store_log, store_store, hqueued]

theorem handleLoginCase_store (h : s.deref p = some c) (hnode : d.node = c.node)
    (hfd : d.fd = p.fd) (username : Bytes) :
    (s.store p d).handleLoginCase i .authorized p username =
      .ok ((((ClientManager.addSession
            ⟨username, generateToken i.random, some p, i.now, .connected⟩ s).store p
          (queueWrite { d with status := .authenticated, lastSeen := i.now }
            (createPacketStream .ack (literal "OK|" ++ generateToken i.random)))).log
        [.queueWrite p (createPacketStream .ack (literal "OK|" ++ generateToken i.random))]
        ).enableWriteEvent i p.fd) := by
  have hload : (s.store p d).load p = .ok d := load_eq (deref_store_self h hnode)
  have hsession : (ClientManager.addSession
      ⟨username, generateToken i.random, some p, i.now, .connected⟩ s).deref p = some c := h
  have hqueue := queueWriteTo_store hsession
    (d := { d with status := .authenticated, lastSeen := i.now }) hnode
  simp only [handleLoginCase, bind, Except.bind, hload, store_store, addSession_store, hqueue]
  simp only [hfd]

theorem handleRegisterClientStatus_store (h : s.deref p = some c)
    (hnode : d.node = c.node) (hfd : d.fd = p.fd) :
    (s.store p d).handleRegisterClientStatus i .clientRegistered p =
      .ok (((s.store p (queueWrite d (createPacketStream .ack (literal "OK")))).log
        [.queueWrite p (createPacketStream .ack (literal "OK"))]).enableWriteEvent i p.fd) := by
  have hload (packet : Bytes) :
      ((s.store p (queueWrite d packet)).log [.queueWrite p packet]).load p =
        .ok (queueWrite d packet) :=
    load_eq (deref_store_self h hnode)
  have hqueued (packet : Bytes) : (queueWrite d packet).fd = p.fd := hfd
  simp only [handleRegisterClientStatus, queueWriteTo_store h hnode, bind, Except.bind, hload,
    hqueued]

theorem reconnectClient_store {username : Bytes} {session : ClientSession}
    (h : s.deref p = some c) (hnode : d.node = c.node) (hfd : d.fd = p.fd)
    (hsession : s.sessions.find? username = some session)
    (hstate : session.state = .disconnected) :
    ClientManager.reconnectClient i username p (s.store p d) =
      .ok { s.store p { d with status := .authenticated, lastSeen := i.now } with
        sessions := s.sessions.insert username { session with
          connection := some p
          state := .reconnected
          disconnectedAt := 0 } } := by
  have hload : (s.store p d).load p = .ok d := load_eq (deref_store_self h hnode)
  have hstored := store_store (s := { s with
      sessions := s.sessions.insert username { session with
        connection := some p
        state := .reconnected
        disconnectedAt := 0 } }) (p := p) (c := d)
    (d := { d with status := .authenticated, lastSeen := i.now })
  have hfind : (s.store p d).connections.find? d.fd = some d := by
    rw [hfd, store_connections, OrderedMap.find?_insert, if_pos rfl]
  simp only [ClientManager.reconnectClient, bind, Except.bind, hload, store_sessions, hsession,
    hfind, hstate, if_true]
  exact congrArg Except.ok hstored

theorem reconnectClient_ignored {username : Bytes} (h : s.deref p = some c)
    (hstate : ∀ session, s.sessions.find? username = some session →
      session.state ≠ .disconnected) :
    ClientManager.reconnectClient i username p s = .ok s := by
  simp only [ClientManager.reconnectClient, bind, Except.bind, load_eq h]
  split
  · rename_i session _ hsession _
    rw [if_neg (hstate session hsession)]
  · rfl

theorem verifySession_eq_true {username token : Bytes} :
    ClientManager.verifySession username token s = true ↔
      ∃ session, s.sessions.find? username = some session ∧ session.token = token := by
  unfold ClientManager.verifySession
  cases hsession : s.sessions.find? username <;> simp

theorem handshake_outcome (hwf : WellFormed s) (h : s.deref p = some c)
    {request : HandshakeRequest} {rest : Bytes} (hshake : Handshakes i c request rest) :
    Outcome i s (((s.beginEvent i.now).store p (c.withBuffer rest)).handleHandshakeClient i
      request p) := by
  have hok := hwf.deref_ok h
  have hbegin : (s.beginEvent i.now).deref p = some c := h
  have hderef : ((s.beginEvent i.now).store p (c.withBuffer rest)).deref p =
      some (c.withBuffer rest) :=
    deref_store_self hbegin rfl
  cases hkind : request.kind with
  | login =>
      cases hverify : i.verifyClient request.username request.password with
      | authorized =>
          rw [handleHandshakeClient, hkind]
          simp only [hverify]
          rw [handleLoginCase_store (d := c.withBuffer rest) hbegin rfl hok.fd_eq]
          have houtcome := Outcome.loggedIn h hshake hkind hverify rfl rfl
          exact houtcome
      | execFailed | userNotFound | notAuthorized =>
          rw [handleHandshakeClient, hkind]
          simp only [hverify, handleLoginCase]
          rw [rejectLogin_store (d := c.withBuffer rest) hbegin rfl hok.fd_eq]
          exact .edited h (.loginRefused hshake hkind hverify (by simp))
  | register =>
      rw [handleHandshakeClient, hkind]
      dsimp only
      by_cases hregister :
          i.registerClient request.username request.password = .clientRegistered
      · rw [hregister, handleRegisterClientStatus_store (d := c.withBuffer rest) hbegin rfl
          hok.fd_eq]
        exact .edited h (.registered hshake hkind hregister)
      · have hdrop : ((s.beginEvent i.now).store p
            (c.withBuffer rest)).handleRegisterClientStatus i
              (i.registerClient request.username request.password) p =
            .ok (ClientManager.release i.now p c.ssl (s.beginEvent i.now)) := by
          have hdisconnect := disconnectClient_store (i := i)
            (d := c.withBuffer rest) hbegin rfl hok.fd_eq rfl
          cases hstatus : i.registerClient request.username request.password <;>
            first | exact absurd hstatus hregister | exact hdisconnect
        rw [hdrop]
        exact .dropped h (.registerFailed hshake hkind hregister)
  | reconnect =>
      rw [handleHandshakeClient, hkind]
      dsimp only
      by_cases hverify :
          ClientManager.verifySession request.username request.token s = true
      · rw [if_pos (show ClientManager.verifySession request.username request.token
          ((s.beginEvent i.now).store p (c.withBuffer rest)) = true from hverify)]
        obtain ⟨session, hsession, htoken⟩ := verifySession_eq_true.mp hverify
        by_cases hstate : session.state = .disconnected
        · rw [reconnectClient_store (d := c.withBuffer rest) hbegin rfl hok.fd_eq hsession hstate]
          have houtcome := Outcome.reattached h hshake hkind hsession htoken hstate
          exact houtcome
        · have hignored : ∀ other, s.sessions.find? request.username = some other →
              other.state ≠ .disconnected := by
            rintro other hother
            rw [hsession, Option.some.injEq] at hother
            exact hother ▸ hstate
          rw [reconnectClient_ignored hderef hignored]
          exact .edited h (.reconnectIgnored hshake hkind hverify hignored)
      · rw [if_neg (show ¬ClientManager.verifySession request.username request.token
          ((s.beginEvent i.now).store p (c.withBuffer rest)) = true from hverify),
          disconnectClient_store (d := c.withBuffer rest) hbegin rfl hok.fd_eq rfl]
        exact .dropped h (.reconnectRefused hshake hkind (by simpa using hverify))
  | error =>
      obtain ⟨bytes, _, _, hparse⟩ := hshake
      have hvalid := processHandshakePacket_kind (c.rxBuffer ++ bytes)
      rw [hparse] at hvalid
      exact absurd hkind (hvalid rfl)

theorem handleHandshakeStreamStatus_outcome (hwf : WellFormed s) (h : s.deref p = some c)
    {bytes rest : Bytes} {result : HandshakeResult} (hreceives : Receives i c bytes)
    (hstatus : c.status = .awaitingAuth)
    (hparse : processHandshakePacket (c.rxBuffer ++ bytes) = (result, rest)) :
    Outcome i s (((s.beginEvent i.now).store p
      (c.withBuffer rest)).handleHandshakeStreamStatus i result p) := by
  have hok := hwf.deref_ok h
  have hbegin : (s.beginEvent i.now).deref p = some c := h
  obtain ⟨status, request⟩ := result
  cases status with
  | incompletePacket => exact .edited h (.handshakeIncomplete hreceives hstatus hparse)
  | validAuthPacket => exact handshake_outcome hwf h ⟨bytes, hreceives, hstatus, hparse⟩
  | invalidProtocolError | invalidAuthPacket =>
      rw [handleHandshakeStreamStatus]
      dsimp only
      rw [disconnectClient_store (d := c.withBuffer rest) hbegin rfl hok.fd_eq rfl]
      exact .dropped h (.handshakeInvalid hreceives hstatus hparse (by simp))

/-! ## The stream -/

theorem pong_store (h : s.deref p = some c) (hnode : d.node = c.node)
    (hfd : ¬d.fd < 0) (hssl : d.ssl ≠ none) :
    ClientManager.pong i p (s.store p d) =
      .ok ((s.store p (queueWrite { d with lastSeen := i.now }
        (createPacketStream .pong []))).log [.queueWrite p (createPacketStream .pong [])]) := by
  have hload : (s.store p d).load p = .ok d := load_eq (deref_store_self h hnode)
  have hlive : ¬(d.fd < 0 ∨ d.ssl = none) := by
    rw [not_or]
    exact ⟨hfd, hssl⟩
  simp only [ClientManager.pong, bind, Except.bind, hload, hlive, if_false, store_store]

section Session

variable {session : ClientSession} (hwf : WellFormed s) (h : s.deref p = some c)
  (hsession : session.connection = some p) (rest message : Bytes)
include hwf h hsession

theorem handleProcessStreamResult_disconnectClient :
    ((s.beginEvent i.now).store p (c.withBuffer rest)).handleProcessStreamResult i
        .disconnectClient (some session) message =
      .ok (ClientManager.release i.now p c.ssl (s.beginEvent i.now)) := by
  have hbegin : (s.beginEvent i.now).deref p = some c := h
  rw [handleProcessStreamResult, hsession, ← disconnectClient,
    disconnectClient_store (d := c.withBuffer rest) hbegin rfl (hwf.deref_ok h).fd_eq rfl]

theorem handleProcessStreamResult_sendPong :
    ((s.beginEvent i.now).store p (c.withBuffer rest)).handleProcessStreamResult i
        .sendPong (some session) message =
      .ok ((((s.beginEvent i.now).store p
        (queueWrite { c.withBuffer rest with lastSeen := i.now }
          (createPacketStream .pong []))).log
        [.queueWrite p (createPacketStream .pong [])]).enableWriteEvent i p.fd) := by
  have hok := hwf.deref_ok h
  have hbegin : (s.beginEvent i.now).deref p = some c := h
  have hnonneg : ¬(c.withBuffer rest).fd < 0 := by
    rw [show (c.withBuffer rest).fd = p.fd from hok.fd_eq]
    exact not_lt.mpr hok.nonneg
  have hloaded (packet : Bytes) : (((s.beginEvent i.now).store p
      (queueWrite { c.withBuffer rest with lastSeen := i.now }
        packet)).log [.queueWrite p packet]).load p =
      .ok (queueWrite { c.withBuffer rest with lastSeen := i.now } packet) :=
    load_eq (deref_store_self hbegin rfl)
  have hfd (packet : Bytes) : (queueWrite
      { c.withBuffer rest with lastSeen := i.now } packet).fd = p.fd :=
    hok.fd_eq
  rw [handleProcessStreamResult]
  simp only [hsession, bind, Except.bind,
    pong_store (d := c.withBuffer rest) hbegin rfl hnonneg hok.ssl, hloaded, hfd]

theorem handleProcessStreamResult_printMessage :
    ((s.beginEvent i.now).store p (c.withBuffer rest)).handleProcessStreamResult i
        .printMessage (some session) message =
      .ok (((s.beginEvent i.now).store p (c.withBuffer rest)).broadcastAndEnable i (some p)
        p.fd (clientBroadcast session.username message)) := by
  have hload : ((s.beginEvent i.now).store p (c.withBuffer rest)).load p =
      .ok (c.withBuffer rest) :=
    load_eq (deref_store_self (s := s.beginEvent i.now) h rfl)
  have hfd : (c.withBuffer rest).fd = p.fd := (hwf.deref_ok h).fd_eq
  rw [handleProcessStreamResult]
  simp only [hsession, bind, Except.bind, hload, hfd]

end Session

theorem handleProcessStreamResult_outcome (hwf : WellFormed s) (h : s.deref p = some c)
    {stream : ClientStream} (hstream : Streams i c stream) :
    Outcome i s (((s.beginEvent i.now).store p
      (c.withBuffer stream.rxBuffer)).handleProcessStreamResult i stream.result
        (ClientManager.findSesssionFromConnection p s) stream.message) := by
  cases hresult : stream.result with
  | bufferEmpty =>
      obtain ⟨bytes, _, _, rfl⟩ := hstream
      exact absurd hresult (processClientStream_result _)
  | incompletePacket => exact .edited h (.streamIdle hstream (.inl hresult))
  | processComplete => exact .edited h (.streamIdle hstream (.inr hresult))
  | invalidProtocolError =>
      cases hsession : ClientManager.findSesssionFromConnection p s with
      | none => exact .nullSession h hstream (.inl hresult) hsession
      | some session => exact .edited h (.streamInvalid hstream hresult hsession)
  | disconnectClient =>
      cases hsession : ClientManager.findSesssionFromConnection p s with
      | none => exact .nullSession h hstream (.inr (.inl hresult)) hsession
      | some session =>
          rw [handleProcessStreamResult_disconnectClient hwf h (findSession_some hsession).1]
          exact .dropped h (.quit hstream hresult hsession)
  | sendPong =>
      cases hsession : ClientManager.findSesssionFromConnection p s with
      | none => exact .edited h (.pingUnanswered hstream hresult hsession)
      | some session =>
          rw [handleProcessStreamResult_sendPong hwf h (findSession_some hsession).1]
          exact .edited h (.pong hstream hresult hsession)
  | printMessage =>
      cases hsession : ClientManager.findSesssionFromConnection p s with
      | none => exact .nullSession h hstream (.inr (.inr hresult)) hsession
      | some session =>
          rw [handleProcessStreamResult_printMessage hwf h (findSession_some hsession).1]
          exact .relayed h hstream hresult hsession

/-! ## Reading -/

theorem handleRead_eq (h : c.ssl ≠ none) (outcomes : List SslRead) :
    handleRead c outcomes =
      if c.status = .closing then some (.ignored, c) else readLoop outcomes c := by
  obtain ⟨ssl, hssl⟩ := Option.ne_none_iff_exists'.mp h
  rw [handleRead, hssl]

theorem dataReceived_outcome (hwf : WellFormed s) (h : s.deref p = some c) {bytes : Bytes}
    (hreceives : Receives i c bytes) :
    Outcome i s (((s.beginEvent i.now).store p
      (c.withBuffer (c.rxBuffer ++ bytes))).handleReadResult i p .dataReceived) := by
  have hbegin : (s.beginEvent i.now).deref p = some c := h
  have hload : ((s.beginEvent i.now).store p (c.withBuffer (c.rxBuffer ++ bytes))).load p =
      .ok (c.withBuffer (c.rxBuffer ++ bytes)) :=
    load_eq (deref_store_self hbegin rfl)
  simp only [handleReadResult, bind, Except.bind, hload, store_store]
  by_cases hstatus : c.status = .awaitingAuth
  · rw [if_pos (show (c.withBuffer (c.rxBuffer ++ bytes)).status = .awaitingAuth from hstatus)]
    exact handleHandshakeStreamStatus_outcome hwf h hreceives hstatus rfl
  · rw [if_neg (show ¬(c.withBuffer (c.rxBuffer ++ bytes)).status = .awaitingAuth from hstatus)]
    have hauthenticated : c.status = .authenticated := by
      cases hc : c.status with
      | awaitingAuth => exact absurd hc hstatus
      | authenticated => rfl
      | closing => exact absurd hc hreceives.listening
    exact handleProcessStreamResult_outcome hwf h ⟨bytes, hreceives, hauthenticated, rfl⟩

theorem wantWrite_store (h : s.deref p = some c) (hnode : d.node = c.node)
    (hfd : d.fd = p.fd) (hflag : d.readWaitingForWrite = true) :
    (s.store p d).handleReadResult i p .wantWrite =
      .ok ((s.store p d).enableWriteEvent i p.fd) := by
  have hload : (s.store p d).load p = .ok d := load_eq (deref_store_self h hnode)
  have hkeep : { d with readWaitingForWrite := true } = d := by
    rw [← hflag]
  simp only [handleReadResult, bind, Except.bind, hload, store_store, hkeep]
  rw [hfd]

theorem read_outcome (hwf : WellFormed s) (h : s.deref p = some c)
    (hreads : c.Reads i.event) :
    Outcome i s (((s.beginEvent i.now).store p
      { c with readWaitingForWrite := false }).read i p) := by
  have hok := hwf.deref_ok h
  have hbegin : (s.beginEvent i.now).deref p = some c := h
  have hload : ((s.beginEvent i.now).store p { c with readWaitingForWrite := false }).load p =
      .ok { c with readWaitingForWrite := false } :=
    load_eq (deref_store_self hbegin rfl)
  have hread : handleRead { c with readWaitingForWrite := false } i.sslRead =
      if c.status = .closing then
        some (.ignored, { c with readWaitingForWrite := false })
      else readLoop i.sslRead { c with readWaitingForWrite := false } :=
    handleRead_eq (c := { c with readWaitingForWrite := false }) hok.ssl i.sslRead
  rw [read, hload]
  simp only [bind, Except.bind, hread]
  by_cases hclosing : c.status = .closing
  · simp only [hclosing, if_true, store_store]
    have hedit := Edit.nothingRead (i := i) (s := s) (p := p) hreads (.inl hclosing)
    rw [hclosing] at hedit
    exact .edited h hedit
  · simp only [hclosing, if_false, readLoop_eq]
    cases houtcome : readOutcome i.sslRead with
    | none => exact .impossible
    | some outcome =>
        cases outcome with
        | received bytes =>
            dsimp only
            split_ifs with hbad
            · exact .impossible
            · rw [not_or, not_lt] at hbad
              simp only [store_store]
              exact dataReceived_outcome hwf h
                ⟨hreads, hclosing, houtcome, hbad.1, hbad.2⟩
        | failed error =>
            cases error with
            | wantRead =>
                simp only [store_store, handleReadResult]
                exact .edited h (.nothingRead hreads (.inr (.inl houtcome)))
            | zeroReturn =>
                simp only [store_store, handleReadResult]
                exact .edited h (.nothingRead hreads (.inr (.inr houtcome)))
            | wantWrite =>
                simp only [store_store]
                rw [wantWrite_store (d := { c with readWaitingForWrite := true }) hbegin rfl
                  hok.fd_eq rfl]
                exact .edited h (.wantWrite hreads hclosing houtcome)
            | _ =>
                simp only [store_store, handleReadResult]
                rw [disconnectClient_store
                  (d := { c with readWaitingForWrite := false }) hbegin rfl hok.fd_eq rfl]
                exact .dropped h (.readFailed hreads hclosing houtcome (by simp) (by simp)
                  (by simp))

/-! ## Events on connections -/

theorem findConnection_eq {fd : Fd} {p : ConnectionPtr}
    (h : ClientManager.findConnection fd s = some p) :
    p.fd = fd ∧ ∃ c, s.deref p = some c := by
  unfold ClientManager.findConnection at h
  rw [Option.map_eq_some_iff] at h
  obtain ⟨c, hfind, rfl⟩ := h
  exact ⟨rfl, c, deref_of_find? hfind⟩

theorem readEvent_outcome (hwf : WellFormed s) {fd : Fd} (hevent : i.event = .read fd) :
    Outcome i s ((s.beginEvent i.now).readEvent i
      (ClientManager.findConnection fd (s.beginEvent i.now))) := by
  cases hfind : ClientManager.findConnection fd (s.beginEvent i.now) with
  | none => exact .idle
  | some p =>
      obtain ⟨rfl, c, h⟩ := findConnection_eq (s := s) hfind
      have hbegin : (s.beginEvent i.now).deref p = some c := h
      have hfd := (hwf.deref_ok h).fd_eq
      rw [readEvent]
      simp only [load_eq hbegin, bind, Except.bind]
      cases hr : c.readWaitingForWrite <;> cases hw : c.writeWaitingForRead
      · have hstored : s.beginEvent i.now =
            (s.beginEvent i.now).store p { c with readWaitingForWrite := false } := by
          rw [← hr]
          exact (store_of_deref hbegin).symm
        have hreads : c.Reads i.event := ⟨hw, .inl ⟨by rw [hevent, hfd], hr⟩⟩
        simp only [Bool.and_self, Bool.false_eq_true, if_false]
        rw [hstored]
        exact read_outcome hwf h hreads
      · have hflushes : c.Flushes i.event := ⟨hr, .inl ⟨by rw [hevent, hfd], hw⟩⟩
        have hflush := flush_outcome hwf h hflushes
        rw [hr] at hflush
        exact hflush
      · exact .idle
      · exact .idle

theorem writeEvent_outcome (hwf : WellFormed s) {fd : Fd} (hevent : i.event = .write fd) :
    Outcome i s ((s.beginEvent i.now).writeEvent i
      (ClientManager.findConnection fd (s.beginEvent i.now))) := by
  cases hfind : ClientManager.findConnection fd (s.beginEvent i.now) with
  | none => exact .idle
  | some p =>
      obtain ⟨rfl, c, h⟩ := findConnection_eq (s := s) hfind
      have hbegin : (s.beginEvent i.now).deref p = some c := h
      have hfd := (hwf.deref_ok h).fd_eq
      rw [writeEvent]
      simp only [load_eq hbegin, bind, Except.bind]
      cases hr : c.readWaitingForWrite <;> cases hw : c.writeWaitingForRead
      · have hstored : s.beginEvent i.now =
            (s.beginEvent i.now).store p { c with writeWaitingForRead := false } := by
          rw [← hw]
          exact (store_of_deref hbegin).symm
        have hflushes : c.Flushes i.event := ⟨hr, .inr ⟨by rw [hevent, hfd], hw⟩⟩
        simp only [Bool.and_self, Bool.false_eq_true, if_false]
        rw [hstored]
        exact flush_outcome hwf h hflushes
      · exact .idle
      · have hreads : c.Reads i.event := ⟨hw, .inr ⟨by rw [hevent, hfd], hr⟩⟩
        exact read_outcome hwf h hreads
      · exact .idle

/-! ## The console -/

theorem classifyLine_error {line : Bytes} {fault : Fault}
    (h : classifyLine line = .error fault) : fault = .emptyString := by
  unfold classifyLine at h
  split at h
  rename_i command input _
  split_ifs at h
  · split at h
    · simp at h
    · split_ifs at h
  · cases command with
    | nil =>
        simp only [Except.error.injEq] at h
        exact h.symm
    | cons front rest =>
        dsimp only at h
        split_ifs at h

theorem readConsoleInput_error {keys : List Int} {buffer : Bytes} {fault : Fault}
    (h : readConsoleInput keys buffer = .error fault) : fault = .emptyString := by
  induction keys generalizing buffer with
  | nil => simp [readConsoleInput] at h
  | cons ch keys ih =>
      unfold readConsoleInput at h
      split_ifs at h with _ _ hempty
      · exact ih h
      · cases hline : classifyLine buffer with
        | error fault' =>
            rw [hline] at h
            simp only [Except.map, Except.error.injEq] at h
            exact h ▸ classifyLine_error hline
        | ok result =>
            rw [hline] at h
            simp [Except.map] at h
      all_goals exact ih h

theorem consoleWriteEvent_outcome (hwf : WellFormed s) {keys : List Int}
    (hevent : i.event = .console keys) :
    Outcome i s ((s.beginEvent i.now).consoleWriteEvent i keys) := by
  unfold consoleWriteEvent
  cases hread : readConsoleInput keys s.consoleInputBuffer with
  | error fault =>
      have hfault := readConsoleInput_error hread
      subst hfault
      simp only [beginEvent_consoleInputBuffer, hread, bind, Except.bind]
      exact .emptyString hevent
  | ok pair =>
      obtain ⟨⟨status, line⟩, buffer⟩ := pair
      simp only [beginEvent_consoleInputBuffer, hread, bind, Except.bind]
      cases status with
      | noInput => exact .console hevent hread
      | message => exact .announced hevent hread
      | invalidCommand => exact .console hevent hread
      | quit => exact .stopped hevent hread
      | kickClient =>
          rw [handleConsoleInputResult]
          cases hsession : s.sessions.find? line with
          | none =>
              rw [kick_unknown (s := (s.beginEvent i.now).setConsoleInputBuffer buffer)
                hsession]
              exact .console hevent hread
          | some session =>
              cases hconnection : session.connection with
              | none =>
                  rw [kick_detached (s := (s.beginEvent i.now).setConsoleInputBuffer buffer)
                    hsession hconnection]
                  exact .console hevent hread
              | some p =>
                  obtain ⟨c, hderef, _⟩ := (hwf.sessions hsession).holds p hconnection
                  rw [kick_attached (s := (s.beginEvent i.now).setConsoleInputBuffer buffer)
                    hsession hconnection hderef (hwf.deref_ok hderef).fd_eq]
                  have hdrop := Outcome.dropped hderef
                    (.kicked hevent hread hsession hconnection)
                  rw [log_nil] at hdrop
                  exact hdrop

/-! ## New connections -/

theorem find?_of_openFd (hwf : WellFormed s) {fd : Fd} (h : s.openFd fd = false) :
    s.connections.find? fd = none := by
  cases hfind : s.connections.find? fd with
  | none => rfl
  | some c =>
      have hopen := (hwf.connections hfind).openFd
      rw [h] at hopen
      exact absurd hopen (by simp)

theorem turnedAway_of {s' : ServerApp} {call : AcceptCall} {fd : Fd} (nodes ssls : Nat)
    (actions : List Action) (hevent : i.event = .accept call)
    (hcall : (ClientManager.acceptClient i call (s.beginEvent i.now)).2 = s')
    (hclosed : s.openFd fd = false)
    (hactions : ∀ a ∈ actions, (∃ fd, a = .accept fd) ∨ (∃ fd, a = .close fd) ∨
      (∃ ssl, a = .sslNew ssl) ∨ (∃ ssl, a = .sslFree ssl))
    (hs' : s' = { s with
      writeFilter := fun other => if other = fd then false else s.writeFilter other
      openFd := fun other =>
        if other = fd then false else if other = fd then true else s.openFd other
      nextNode := s.nextNode + nodes
      nextSsl := s.nextSsl + ssls
      clock := i.now
      actions := actions }) : TurnedAway i s s' := by
  subst hs'
  refine ⟨⟨call, hevent, hcall⟩, rfl, rfl, rfl, rfl, ?_, ?_, ?_, rfl, hactions⟩
  · funext other
    dsimp only
    split_ifs with h
    · rw [h, hclosed]
    · rfl
  · intro other hopen
    have hne : other ≠ fd := by
      rintro rfl
      simp [hclosed] at hopen
    exact if_neg hne
  · dsimp only
    omega

theorem clientConnectionEvent_outcome (hwf : WellFormed s) {call : AcceptCall}
    (hevent : i.event = .accept call) (hpossible : i.Possible s) :
    Outcome i s (.ok ((s.beginEvent i.now).clientConnectionEvent i call)) := by
  rw [clientConnectionEvent]
  cases hctx : s.sslCtx with
  | none =>
      simp only [ClientManager.acceptClient, beginEvent_sslCtx, hctx]
      exact .idle
  | some ctx =>
      cases call with
      | wouldBlock | failed =>
          simp only [ClientManager.acceptClient, beginEvent_sslCtx, hctx]
          exact .idle
      | accepted fd sslNew sslSetFd sslAccept =>
          obtain ⟨hfd, hclosed⟩ := hpossible.2 fd (by rw [hevent]; rfl)
          have hfree := find?_of_openFd hwf hclosed
          by_cases htaken : sslNew = true ∧ sslSetFd = true ∧ sslAccept = true ∧
              i.kevent fd = true
          · obtain ⟨rfl, rfl, rfl, hkevent⟩ := htaken
            have hadded : (ClientManager.acceptClient i (.accepted fd true true true)
                (s.beginEvent i.now)).2 = (s.beginEvent i.now).addConnection i fd := by
              simp [ClientManager.acceptClient, ClientManager.setUpClient, hctx, hfree,
                hkevent, addConnection, log]
            rw [hadded]
            exact .admitted hevent hfd hclosed hkevent
          · have herase (c : ClientConnection) :
                (s.connections.insert fd c).erase fd = s.connections := by
              rw [OrderedMap.erase_insert, OrderedMap.erase_of_find? hfree]
            refine .turnedAway (turnedAway_of (if sslNew && sslSetFd && sslAccept then 1 else 0)
              (if sslNew then 1 else 0)
              (if sslNew then [.accept fd, .sslNew s.nextSsl, .sslFree s.nextSsl, .close fd]
                else [.accept fd, .close fd]) hevent rfl hclosed ?_ ?_)
            · split_ifs <;> simp
            · cases sslNew <;> cases sslSetFd <;> cases sslAccept <;>
                simp_all [ClientManager.acceptClient, ClientManager.setUpClient,
                  ClientManager.abandon, closeFd, log, setWriteFilter]

/-! ## The timer -/

theorem removeIfTimedOut_eq {fd : Fd} (h : s.connections.find? fd = some c)
    (hfd : c.fd = fd) :
    ClientManager.removeIfTimedOut i fd s =
      if c.status = .closing ∧ c.txQueue = [] then
        .ok (ClientManager.release i.now ⟨fd, c.node⟩ c.ssl s)
      else .ok s := by
  have hderef : s.deref ⟨fd, c.node⟩ = some c := deref_of_find? h
  by_cases htimedOut : c.status = .closing ∧ c.txQueue = []
  · simp only [ClientManager.removeIfTimedOut, h, htimedOut, and_self, if_true,
      disconnect_eq hderef hfd, Except.map, reduceCtorEq, if_false]
  · simp only [ClientManager.removeIfTimedOut, h, htimedOut, if_false, ite_self]

/-- The traversal of `remove_timed_out_connections`: erasing an entry does not
disturb the entries still to come. -/
theorem foldlM_removeIfTimedOut {entries : List (Fd × ClientConnection)}
    (hsorted : entries.Pairwise (fun a b => a.1 < b.1))
    (hentries : ∀ entry ∈ entries, s.connections.find? entry.1 = some entry.2 ∧
      entry.2.fd = entry.1) :
    entries.foldlM (fun s entry => ClientManager.removeIfTimedOut i entry.1 s) s =
      .ok (s.releaseAll i.now (entries.filter fun entry =>
        entry.2.status = .closing ∧ entry.2.txQueue = [])) := by
  induction entries generalizing s with
  | nil => rfl
  | cons entry rest ih =>
      rw [List.pairwise_cons] at hsorted
      obtain ⟨hfind, hfd⟩ := hentries entry (by simp)
      have hrest (e : Fd × ClientConnection) (he : e ∈ rest) :=
        hentries e (List.mem_cons_of_mem _ he)
      rw [List.foldlM_cons, removeIfTimedOut_eq hfind hfd]
      by_cases htimedOut : entry.2.status = .closing ∧ entry.2.txQueue = []
      · simp only [htimedOut, and_self, if_true, bind, Except.bind]
        rw [ih hsorted.2, List.filter_cons_of_pos (by simpa using htimedOut), releaseAll,
          releaseAll, List.foldl_cons]
        intro e he
        have hne : e.1 ≠ entry.1 := ne_of_gt (hsorted.1 e he)
        refine ⟨?_, (hrest e he).2⟩
        rw [show (ClientManager.release i.now ⟨entry.1, entry.2.node⟩ entry.2.ssl
          s).connections = s.connections.erase entry.1 from rfl, OrderedMap.find?_erase,
          if_neg hne]
        exact (hrest e he).1
      · rw [if_neg htimedOut]
        simp only [bind, Except.bind]
        rw [ih hsorted.2 hrest, List.filter_cons_of_neg (by simpa using htimedOut)]

theorem timerEvent_eq (hwf : WellFormed s) :
    (s.beginEvent i.now).timerEvent i = .ok ((s.beginEvent i.now).tick i) := by
  have hmarked : ∀ entry ∈
      (ClientManager.markTimedOutConnections i (s.beginEvent i.now)).connections.entries,
      (ClientManager.markTimedOutConnections i
        (s.beginEvent i.now)).connections.find? entry.1 = some entry.2 ∧
        entry.2.fd = entry.1 := by
    rintro ⟨fd, c⟩ hmem
    have hfind := OrderedMap.mem_entries.mp hmem
    refine ⟨hfind, ?_⟩
    simp only [ClientManager.markTimedOutConnections, beginEvent_connections,
      OrderedMap.find?_mapEntries, Option.map_eq_some_iff] at hfind
    obtain ⟨old, hold, rfl⟩ := hfind
    rw [ClientManager.markIfTimedOut]
    have hfd := (hwf.connections hold).fd_eq
    split_ifs <;> exact hfd
  have hremove := foldlM_removeIfTimedOut (i := i)
    (s := ClientManager.markTimedOutConnections i (s.beginEvent i.now))
    (OrderedMap.sorted _) hmarked
  rw [timerEvent]
  dsimp only
  rw [ClientManager.removeTimedOutConnections, hremove]
  rfl

end ServerApp

/-- The list of outcomes is complete. -/
theorem outcome_step {i : Input} {s : ServerApp} (hwf : WellFormed s) :
    Outcome i s (step i s) := by
  unfold step
  split_ifs with hpossible
  · unfold ServerApp.dispatch
    cases hevent : i.event with
    | timer =>
        dsimp only
        rw [ServerApp.timerEvent_eq hwf]
        exact .ticked hevent
    | console keys => exact ServerApp.consoleWriteEvent_outcome hwf hevent
    | accept call => exact ServerApp.clientConnectionEvent_outcome hwf hevent hpossible
    | read fd => exact ServerApp.readEvent_outcome hwf hevent
    | write fd => exact ServerApp.writeEvent_outcome hwf hevent
  · exact .impossible

end TChat.Server
