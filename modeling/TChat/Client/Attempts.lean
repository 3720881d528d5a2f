import TChat.Client.Verdicts
import TChat.Client.Wakeups
import TChat.WriteQueues
/-!
# One login after another

`perform_login_action` uses one connection object for all attempts.  However the attempts
before have ended, the next one starts from a clean connection, and its result depends on
what is typed and what the server sends alone.
-/

namespace TChat.Client

open TChat.Common

def ClientApp.new (now : Int) : ClientApp where
  connection :=
    { txQueue := []
      txOffset := 0
      writeWaitingForRead := false
      fd := -1
      ssl := none
      rxBuffer := []
      readWaitingForWrite := false
      lastServerActivity := now
      status := .awaitingAuth }
  running := false
  username := []
  token := []
  state := .connected
  consoleInputBuffer := []
  writeFilter := false
  actions := []

/-- The states in which `initialize` calls `login_client`: the connection is established, and
a registration, if there was one, has gone well. -/
inductive Initialized : ClientApp → Prop
  | established {now : Int} {establishing : Establishing} {connection : ClientConnection} :
      establishConnection (ClientApp.new now).connection establishing =
        (.established, connection) →
      Initialized ((ClientApp.new now).withConnection connection)
  | registered {s t : ClientApp} {username password : Bytes} {writes : List SslWrite}
      {reads : List SslRead} {status : RegisterStatus} {connection : ClientConnection}
      {calls : List SslWriteCall} : Initialized s →
      registerClient username password writes reads s.connection =
        some (status, connection, calls) →
      (s.withConnection connection).handleRegisterStatus status = (true, t) → Initialized t

/-- The attempts that have failed so far, and the state in which `perform_login_action` makes
the next one. -/
inductive FailedAttempts : List Attempt → ClientApp → Prop
  | first {s t : ClientApp} {username password : Bytes} {writes : List SslWrite}
      {reads : List SslRead} {result : LoginResult} {connection : ClientConnection}
      {calls : List SslWriteCall} : Initialized s →
      loginClient username password writes reads s.connection =
        some (result, connection, calls) →
      (s.withConnection connection).handleLoginResult result = (.retryLogin, t) →
      FailedAttempts [] t
  | again {before : List Attempt} {s t : ClientApp} {a : Attempt} {result : LoginResult}
      {calls : List SslWriteCall} : FailedAttempts before s →
      s.retryLogin a = .tried result calls .retryLogin t → FailedAttempts (before ++ [a]) t

structure ClientConnection.Fresh (c : ClientConnection) : Prop where
  rxBuffer : c.rxBuffer = []
  txQueue : c.txQueue = []
  txOffset : c.txOffset = 0
  readWaitingForWrite : c.readWaitingForWrite = false
  writeWaitingForRead : c.writeWaitingForRead = false
  status : c.status = .awaitingAuth

def Attempt.queued (a : Attempt) : Outgoing where
  txQueue := [createPacketStream .login (credentials a.username a.password)]
  txOffset := 0
  writeWaitingForRead := false

def Attempt.Sends (a : Attempt) : Prop :=
  ∃ flush, flushLoop storeOffset a.writes a.queued = some flush ∧ flush.result = .queueEmpty

/-! ## The descriptor and the SSL object -/

section

variable {c c' : ClientConnection} {writes : List SslWrite} {reads unused : List SslRead}
  {calls : List SslWriteCall} {username password : Bytes}

/-- From `c` to `c'` the connection has neither been closed nor been replaced. -/
structure SameSocket (c c' : ClientConnection) : Prop where
  fd : c'.fd = c.fd
  ssl : c'.ssl = c.ssl

theorem SameSocket.trans {c'' : ClientConnection} (h : SameSocket c c') (h' : SameSocket c' c'') :
    SameSocket c c'' :=
  ⟨h'.fd.trans h.fd, h'.ssl.trans h.ssl⟩

theorem handleRead_socket {result : ReadResult}
    (h : handleRead c reads = some (result, c', unused)) : SameSocket c c' := by
  rcases handleRead_cases h with ⟨-, -, bytes, rfl⟩ | ⟨-, rfl | rfl⟩ | ⟨-, rfl⟩ | ⟨-, rfl⟩ <;>
    exact ⟨rfl, rfl⟩

theorem flushWrite_socket {status : FlushResult}
    (h : flushWrite c writes = some (status, c', calls)) : SameSocket c c' := by
  obtain ⟨out, rfl⟩ := flushWrite_outgoing h
  exact ⟨rfl, rfl⟩

theorem loginLoop_socket {fuel : Nat} {result : LoginResult}
    (h : loginLoop username fuel reads c = some (result, c')) : SameSocket c c' := by
  induction fuel generalizing reads c with
  | zero => simp [loginLoop] at h
  | succ fuel ih =>
      unfold loginLoop at h
      cases hread : handleRead c reads with
      | none => simp [hread] at h
      | some outcome =>
          obtain ⟨status, c₁, unused⟩ := outcome
          have hsocket := handleRead_socket hread
          simp only [hread] at h
          split_ifs at h
          · obtain ⟨-, rfl⟩ := Prod.mk.inj (Option.some.inj h)
            exact hsocket
          · have hlater := ih h
            exact hsocket.trans ⟨hlater.fd, hlater.ssl⟩
          · obtain ⟨-, rfl⟩ := Prod.mk.inj (Option.some.inj h)
            exact ⟨hsocket.fd, hsocket.ssl⟩

theorem registerLoop_socket {left : Nat} {status : RegisterStatus}
    (h : registerLoop left reads c = some (status, c')) : SameSocket c c' := by
  induction left generalizing reads c with
  | zero =>
      obtain ⟨-, rfl⟩ := Prod.mk.inj (Option.some.inj h)
      exact ⟨rfl, rfl⟩
  | succ left ih =>
      have hreturned {status' : RegisterStatus} {c₁ : ClientConnection}
          (heq : some (status', c₁) = some (status, c')) (hsocket : SameSocket c c₁) :
          SameSocket c c' := by
        obtain ⟨-, rfl⟩ := Prod.mk.inj (Option.some.inj heq)
        exact hsocket
      cases hresult : (processDataStream c.rxBuffer).1.status with
      | acknowledgement | errorAck =>
          simp only [registerLoop, hresult] at h
          split_ifs at h <;> exact hreturned h ⟨rfl, rfl⟩
      | invalidProtocolError | printMessage | receivedPong =>
          simp only [registerLoop, hresult] at h
          exact hreturned h ⟨rfl, rfl⟩
      | bufferEmpty | incompletePacket =>
          simp only [registerLoop, hresult] at h
          split at h
          · simp at h
          · rename_i hread
            have hsocket := handleRead_socket hread
            split at h
            · have hlater := ih h
              exact ⟨hlater.fd.trans hsocket.fd, hlater.ssl.trans hsocket.ssl⟩
            all_goals exact hreturned h ⟨hsocket.fd, hsocket.ssl⟩

theorem loginClient_socket {result : LoginResult}
    (h : loginClient username password writes reads c = some (result, c', calls)) :
    SameSocket c c' := by
  unfold loginClient at h
  split_ifs at h
  · simp only [Option.some.injEq, Prod.mk.injEq] at h
    rw [← h.2.1]
    exact ⟨rfl, rfl⟩
  · dsimp only at h
    cases hflush : flushWrite (queueWrite c (createPacketStream .login
      (credentials username password))) writes with
    | none => simp [hflush] at h
    | some outcome =>
        obtain ⟨status, c₁, calls₁⟩ := outcome
        have hsocket := flushWrite_socket hflush
        have hsent : SameSocket c c₁ := ⟨hsocket.fd, hsocket.ssl⟩
        simp only [hflush] at h
        split_ifs at h
        · simp only [Option.some.injEq, Prod.mk.injEq] at h
          rwa [← h.2.1]
        · obtain ⟨⟨result', c₂⟩, hloop, heq⟩ := Option.map_eq_some_iff.mp h
          simp only [Prod.mk.injEq] at heq
          rw [← heq.2.1]
          exact hsent.trans (loginLoop_socket hloop)

theorem registerClient_socket {status : RegisterStatus}
    (h : registerClient username password writes reads c = some (status, c', calls)) :
    SameSocket c c' := by
  unfold registerClient at h
  split_ifs at h
  · simp only [Option.some.injEq, Prod.mk.injEq] at h
    rw [← h.2.1]
    exact ⟨rfl, rfl⟩
  · simp only [Option.some.injEq, Prod.mk.injEq] at h
    rw [← h.2.1]
    exact ⟨rfl, rfl⟩
  · dsimp only at h
    cases hflush : flushWrite (queueWrite c (createPacketStream .register
      (credentials username password))) writes with
    | none => simp [hflush] at h
    | some outcome =>
        obtain ⟨status, c₁, calls₁⟩ := outcome
        have hsocket := flushWrite_socket hflush
        have hsent : SameSocket c c₁ := ⟨hsocket.fd, hsocket.ssl⟩
        simp only [hflush] at h
        split_ifs at h
        · simp only [Option.some.injEq, Prod.mk.injEq] at h
          rwa [← h.2.1]
        · obtain ⟨⟨result', c₂⟩, hloop, heq⟩ := Option.map_eq_some_iff.mp h
          simp only [Prod.mk.injEq] at heq
          rw [← heq.2.1]
          exact hsent.trans (registerLoop_socket hloop)

end

/-! ## Before an attempt -/

structure ClientConnection.Open (c : ClientConnection) : Prop where
  fd : 0 ≤ c.fd
  ssl : c.ssl ≠ none

theorem SameSocket.isOpen {c c' : ClientConnection} (h : SameSocket c c') (hopen : c.Open) :
    c'.Open :=
  ⟨h.fd.symm ▸ hopen.fd, h.ssl.symm ▸ hopen.ssl⟩

section

variable {s t : ClientApp} {a : Attempt} {before : List Attempt} {result : LoginResult}
  {calls : List SslWriteCall} {action : LoginAction}

theorem establishConnection_established {c c' : ClientConnection} {establishing : Establishing}
    (h : establishConnection c establishing = (.established, c')) :
    ∃ fd ssl : Nat, c' = { c with fd := fd, ssl := some ssl, status := .awaitingAuth } := by
  cases establishing with
  | connectFails => simp [establishConnection] at h
  | handshakeFails => simp [establishConnection] at h
  | succeeds fd ssl => exact ⟨fd, ssl, (Prod.mk.inj h).2.symm⟩

theorem handleLoginResult_retry (h : s.handleLoginResult result = (.retryLogin, t)) : t = s := by
  unfold ClientApp.handleLoginResult at h
  split at h <;> simp_all

theorem handleRegisterStatus_true {status : RegisterStatus}
    (h : s.handleRegisterStatus status = (true, t)) : t = s := by
  unfold ClientApp.handleRegisterStatus at h
  split at h <;> simp_all

theorem Initialized.isOpen (h : Initialized s) : s.connection.Open := by
  induction h with
  | established h =>
      obtain ⟨fd, ssl, rfl⟩ := establishConnection_established h
      exact ⟨Int.natCast_nonneg fd, nofun⟩
  | registered _ hreturned hstatus ih =>
      rw [handleRegisterStatus_true hstatus]
      exact (registerClient_socket hreturned).isOpen ih

theorem disconnect_open (h : s.connection.Open) :
    s.disconnect.connection = closeConnection s.connection := by
  have hopen : ¬(s.connection.fd < 0 ∧ s.connection.ssl = none) := fun hclosed =>
    h.ssl hclosed.2
  simp [ClientApp.disconnect, ClientApp.log, hopen]

/-- Whatever the connection was like, it is as good as new. -/
theorem reconnect_established (h : s.connection.Open) (hstatus : (s.reconnect a).1 = .established) :
    (s.reconnect a).2.connection.Fresh ∧ (s.reconnect a).2.connection.Open := by
  obtain ⟨fd, ssl, hnew⟩ : ∃ fd ssl : Nat, (s.reconnect a).2.connection =
      { s.disconnect.connection with fd := fd, ssl := some ssl, status := .awaitingAuth } :=
    establishConnection_established (Prod.ext hstatus rfl)
  rw [hnew, disconnect_open h]
  exact ⟨⟨rfl, rfl, rfl, rfl, rfl, rfl⟩, ⟨Int.natCast_nonneg fd, nofun⟩⟩

theorem retryLogin_tried (h : s.retryLogin a = .tried result calls action t) :
    (s.reconnect a).1 = .established ∧ ∃ connection,
      loginClient a.username a.password a.writes a.reads (s.reconnect a).2.connection =
        some (result, connection, calls) ∧
      ((s.reconnect a).2.withConnection connection).handleLoginResult result = (action, t) := by
  unfold ClientApp.retryLogin at h
  dsimp only at h
  have hestablished : (s.reconnect a).1 = .established := by
    cases hstatus : (s.reconnect a).1 with
    | established => rfl
    | _ => simp [hstatus, ClientApp.handleEstablishConnectionStatus] at h
  rw [hestablished] at h
  cases hlogin : loginClient a.username a.password a.writes a.reads
      (s.reconnect a).2.connection with
  | none => simp [hlogin, ClientApp.handleEstablishConnectionStatus] at h
  | some outcome =>
      obtain ⟨result', connection, calls'⟩ := outcome
      simp only [hlogin, ClientApp.handleEstablishConnectionStatus, Bool.not_true,
        Bool.false_eq_true, if_false, Retry.tried.injEq] at h
      obtain ⟨rfl, rfl, haction, hstate⟩ := h
      exact ⟨hestablished, connection, rfl, Prod.ext haction hstate⟩

theorem FailedAttempts.isOpen (h : FailedAttempts before s) : s.connection.Open := by
  induction h with
  | first hinitialized hlogin hresult =>
      rw [handleLoginResult_retry hresult]
      exact (loginClient_socket hlogin).isOpen hinitialized.isOpen
  | again _ htried ih =>
      obtain ⟨hestablished, connection, hlogin, hresult⟩ := retryLogin_tried htried
      rw [handleLoginResult_retry hresult]
      exact (loginClient_socket hlogin).isOpen (reconnect_established ih hestablished).2

/-! ## An attempt -/

theorem loginClient_fresh {c c' : ClientConnection} (hfresh : c.Fresh) (hopen : c.Open)
    (h : loginClient a.username a.password a.writes a.reads c = some (result, c', calls)) :
    ∃ flush, flushLoop storeOffset a.writes a.queued = some flush ∧ calls = flush.calls ∧
      result =
        if flush.result = .queueEmpty then verdict a.username (arrived a.reads)
        else .of .connectionLost := by
  have hqueued : (queueWrite c (createPacketStream .login
      (credentials a.username a.password))).toOutgoing = a.queued := by
    simp [queueWrite, Outgoing.queueWrite, Attempt.queued, hfresh.txQueue, hfresh.txOffset,
      hfresh.writeWaitingForRead]
  have hclosed : ¬(c.ssl = none ∨ c.fd < 0) := not_or.mpr ⟨hopen.ssl, not_lt.mpr hopen.fd⟩
  obtain ⟨ssl, hssl⟩ := Option.ne_none_iff_exists'.mp hopen.ssl
  have hflush : flushWrite (queueWrite c (createPacketStream .login
      (credentials a.username a.password))) a.writes =
        (flushLoop storeOffset a.writes a.queued).map fun flush =>
          (flush.result, c.withOutgoing flush.outgoing, flush.calls) := by
    rw [flushWrite, hqueued]
    simp [queueWrite, hssl, ClientConnection.withOutgoing]
  rw [loginClient, if_neg hclosed] at h
  dsimp only at h
  rw [hflush] at h
  cases hloop : flushLoop storeOffset a.writes a.queued with
  | none => simp [hloop] at h
  | some flush =>
      refine ⟨flush, rfl, ?_⟩
      simp only [hloop, Option.map_some] at h
      split_ifs at h with hunsent
      · simp only [Option.some.injEq, Prod.mk.injEq] at h
        rw [if_neg hunsent]
        exact ⟨h.2.2.symm, h.1.symm⟩
      · obtain ⟨⟨result', c₂⟩, hread, heq⟩ := Option.map_eq_some_iff.mp h
        simp only [Prod.mk.injEq] at heq
        obtain ⟨rfl, -, rfl⟩ := heq
        have hlive : (c.withOutgoing flush.outgoing).Live :=
          ⟨hopen.fd, hopen.ssl, by simp [ClientConnection.withOutgoing, hfresh.status]⟩
        have hempty : (c.withOutgoing flush.outgoing).rxBuffer = [] := hfresh.rxBuffer
        have hverdict := loginLoop_verdict hlive (by rw [hempty]; rfl) hread
        rw [hempty, List.nil_append] at hverdict
        rw [if_pos (not_not.mp hunsent)]
        exact ⟨rfl, hverdict⟩

theorem accepted_of_sends (hsends : a.Sends) {flush : Flush}
    (hflush : flushLoop storeOffset a.writes a.queued = some flush) :
    flush.result = .queueEmpty ∧
      accepted flush.calls = createPacketStream .login (credentials a.username a.password) := by
  obtain ⟨flush', hflush', hempty⟩ := hsends
  obtain rfl : flush' = flush := Option.some.inj (hflush'.symm.trans hflush)
  have hstore : ∀ n ≤ intMax, storeOffset n = n := fun _ => storeOffset_of_le
  have hqueued : Transmission storeOffset
      [createPacketStream .login (credentials a.username a.password)] [] a.queued :=
    .queued .fresh
  have hreports := reportsEmpty_of_flushed hstore hqueued hflush
  rw [ReportsEmpty, List.nil_append, List.flatten_singleton] at hreports
  exact ⟨hempty, hreports.mp hempty⟩

/-- After the attempts that have failed `perform_login_action` goes on from the state they
lead to. -/
theorem performLoginAction_after (now : Int) (nonblocking kqueue kevent : Bool)
    (h : FailedAttempts before s) :
    ∃ start, FailedAttempts [] start ∧ ∀ more,
      start.performLoginAction now nonblocking kqueue kevent (before ++ more) .retryLogin =
        s.performLoginAction now nonblocking kqueue kevent more .retryLogin := by
  induction h with
  | @first _ t _ _ _ _ _ _ _ hinitialized hlogin hresult =>
      exact ⟨t, .first hinitialized hlogin hresult, fun more => rfl⟩
  | @again before s t a result calls _ htried ih =>
      obtain ⟨start, hstart, hsame⟩ := ih
      refine ⟨start, hstart, fun more => ?_⟩
      rw [List.append_assoc, hsame, List.singleton_append, ClientApp.performLoginAction, htried]

end

/-- An attempt is the same one whatever the attempts before it were like: it starts from a
fresh connection, and of two attempts with the same name and password and the same bytes
of the server, the results are the same, and so is what is sent, if `SSL_write` takes the
packet in the same way, or takes all of it. -/
theorem attempts_independent {before before' : List Attempt} {s s' : ClientApp}
    (h : FailedAttempts before s) (h' : FailedAttempts before' s') {a a' : Attempt} :
    ((s.reconnect a).1 = .established → (s.reconnect a).2.connection.Fresh) ∧
      ∀ result result' calls calls' action action' t t',
        s.retryLogin a = .tried result calls action t →
        s'.retryLogin a' = .tried result' calls' action' t' →
        a.username = a'.username → a.password = a'.password →
        arrived a.reads = arrived a'.reads →
          (a.writes = a'.writes → result = result' ∧ calls = calls') ∧
            (a.Sends → a'.Sends → result = result' ∧ accepted calls = accepted calls') := by
  constructor
  · intro hestablished
    exact (reconnect_established h.isOpen hestablished).1
  · intro result result' calls calls' action action' t t' htried htried' husername hpassword
      hreads
    obtain ⟨hestablished, _, hlogin, -⟩ := retryLogin_tried htried
    obtain ⟨hestablished', _, hlogin', -⟩ := retryLogin_tried htried'
    obtain ⟨hfresh, hopen⟩ := reconnect_established h.isOpen hestablished
    obtain ⟨hfresh', hopen'⟩ := reconnect_established h'.isOpen hestablished'
    obtain ⟨flush, hflush, hcalls, hresult⟩ := loginClient_fresh hfresh hopen hlogin
    obtain ⟨flush', hflush', hcalls', hresult'⟩ := loginClient_fresh hfresh' hopen' hlogin'
    rw [husername, hreads] at hresult
    constructor
    · intro hwrites
      have hqueued : a.queued = a'.queued := by
        rw [Attempt.queued, Attempt.queued, husername, hpassword]
      rw [hwrites, hqueued, hflush', Option.some.injEq] at hflush
      subst hflush
      exact ⟨hresult.trans hresult'.symm, hcalls.trans hcalls'.symm⟩
    · intro hsends hsends'
      obtain ⟨hempty, haccepted⟩ := accepted_of_sends hsends hflush
      obtain ⟨hempty', haccepted'⟩ := accepted_of_sends hsends' hflush'
      rw [if_pos hempty] at hresult
      rw [if_pos hempty'] at hresult'
      rw [hcalls, hcalls', haccepted, haccepted', husername, hpassword]
      exact ⟨hresult.trans hresult'.symm, rfl⟩

theorem failedAttempts_rejected :
    FailedAttempts [] ((ClientApp.new 0).withConnection (.establish 3 0 0)) := by
  have hlogin : loginClient (literal "a") (literal "b") [.wrote 15]
      [.received (createPacketStream .ack (literal "NO"))] (.establish 3 0 0) =
        some (.of .authenticationRejected, .establish 3 0 0,
          [⟨createPacketStream .login (credentials (literal "a") (literal "b")), .wrote 15⟩]) := by
    decide +kernel
  have hinitialized : Initialized ((ClientApp.new 0).withConnection (.establish 3 0 0)) :=
    @Initialized.established 0 (.succeeds 3 0) _ rfl
  exact .first hinitialized hlogin rfl

def interruptedConnection : ClientConnection :=
  { ClientConnection.establish 3 0 0 with
    txQueue := [createPacketStream .login (credentials (literal "a") (literal "b"))]
    txOffset := 4
    writeWaitingForRead := true }

theorem failedAttempts_interrupted :
    FailedAttempts [] ((ClientApp.new 0).withConnection interruptedConnection) := by
  have hlogin : loginClient (literal "a") (literal "b") [.wrote 4, .failed .wantRead] []
      (.establish 3 0 0) =
        some (.of .connectionLost, interruptedConnection,
          [⟨createPacketStream .login (credentials (literal "a") (literal "b")), .wrote 4⟩,
            ⟨(createPacketStream .login (credentials (literal "a") (literal "b"))).drop 4,
              .failed .wantRead⟩]) := by
    decide +kernel
  have hinitialized : Initialized ((ClientApp.new 0).withConnection (.establish 3 0 0)) :=
    @Initialized.established 0 (.succeeds 3 0) _ rfl
  exact .first hinitialized hlogin rfl

theorem attempts_independent_interrupted : ∃ s s' a result result' calls calls' action action' t t',
    FailedAttempts [] s ∧ FailedAttempts [] s' ∧ s ≠ s' ∧
      s.retryLogin a = .tried result calls action t ∧
      s'.retryLogin a = .tried result' calls' action' t' ∧ result = result' ∧ calls = calls' := by
  obtain ⟨a, ha⟩ : ∃ a : Attempt, a =
      ⟨.succeeds 4 1, literal "a", literal "b", [.wrote 15],
        [.received (createPacketStream .ack (literal "OK|t"))]⟩ := ⟨_, rfl⟩
  have htried : ∃ result calls action t, ((ClientApp.new 0).withConnection
      (.establish 3 0 0)).retryLogin a = .tried result calls action t :=
    ⟨_, _, _, _, by rw [ha]; rfl⟩
  have htried' : ∃ result calls action t, ((ClientApp.new 0).withConnection
      interruptedConnection).retryLogin a = .tried result calls action t :=
    ⟨_, _, _, _, by rw [ha]; rfl⟩
  obtain ⟨result, calls, action, t, htried⟩ := htried
  obtain ⟨result', calls', action', t', htried'⟩ := htried'
  refine ⟨_, _, a, result, result', calls, calls', action, action', t, t',
    failedAttempts_rejected, failedAttempts_interrupted, by decide, htried, htried', ?_⟩
  exact ((attempts_independent failedAttempts_rejected failedAttempts_interrupted).2 _ _ _ _ _ _
    _ _ htried htried' rfl rfl rfl).1 rfl

end TChat.Client
