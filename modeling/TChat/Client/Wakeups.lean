import TChat.Client.Receiving
import TChat.Lib.Runs
/-!
# Every message typed has a wakeup

The loop of `run` enables the write filter only where a queue stops being empty, and
deletes it whenever a flush has to wait for a read or has sent everything.  What is
queued is sent all the same: the filter is enabled, or the socket is waited on for
TLS to read.
-/

namespace TChat.Client

open TChat.Common TChat.Lib

/-- The flags of the connection agree with its queue and its write filter. -/
structure ClientApp.Awake (s : ClientApp) : Prop where
  exclusive :
    ¬(s.connection.readWaitingForWrite = true ∧ s.connection.writeWaitingForRead = true)
  reading : s.connection.readWaitingForWrite = true → s.writeFilter = true
  writing : s.connection.writeWaitingForRead = true → s.connection.txQueue ≠ []
  queued : s.connection.txQueue ≠ [] →
    s.writeFilter = true ∨ s.connection.writeWaitingForRead = true

def ClientConnection.Reads (c : ClientConnection) (event : Event) : Prop :=
  c.writeWaitingForRead = false ∧
    (event = .read ∧ c.readWaitingForWrite = false ∨
      event = .write ∧ c.readWaitingForWrite = true)

instance (c : ClientConnection) (event : Event) : Decidable (c.Reads event) :=
  inferInstanceAs (Decidable (_ ∧ _))

/-- What the handler of an event comes to: the timer's and the console's, and for the
socket nothing at all, `flush_write` or `handle_read`. -/
inductive ClientApp.Dispatched (i : Input) (s s' : ClientApp) : Prop
  | timer : i.event = .timer → s' = s.handleTimerEvent i → Dispatched i s s'
  | console {keys : List Int} :
      i.event = .console keys → s.consoleWriteEvent i keys = .ok s' → Dispatched i s s'
  | waits : ¬s.connection.Reads i.event → s' = s → Dispatched i s s'
  | flushes : ¬s.connection.Reads i.event → s.connection.readWaitingForWrite = false →
      (s.withConnection { s.connection with writeWaitingForRead := false }).flush i = .ok s' →
      Dispatched i s s'
  | reads : s.connection.Reads i.event →
      (s.withConnection { s.connection with readWaitingForWrite := false }).read i = .ok s' →
      Dispatched i s s'

/-- The states in which `initialize` hands over to `run`: `login_client`,
`handle_login_result` and `init_chat` have succeeded one after the other. -/
inductive EntersChat : ClientApp → Prop
  | login {s t s₀ : ClientApp} {username password : Bytes} {writes : List SslWrite}
      {reads : List SslRead} {result : LoginResult} {connection : ClientConnection}
      {calls : List SslWriteCall} {now : Int} {nonblocking kqueue kevent : Bool} :
      loginClient username password writes reads s.connection =
        some (result, connection, calls) →
      (s.withConnection connection).handleLoginResult result = (.enterChat, t) →
      t.initChat now nonblocking kqueue kevent = (true, s₀) →
      EntersChat s₀

theorem ClientApp.awake_of_quiet {s : ClientApp}
    (hreading : s.connection.readWaitingForWrite = false)
    (hwriting : s.connection.writeWaitingForRead = false)
    (hqueued : s.connection.txQueue ≠ [] → s.writeFilter = true) : s.Awake := by
  refine ⟨by simp [hreading], by simp [hreading], by simp [hwriting], ?_⟩
  exact fun h => .inl (hqueued h)

theorem ClientApp.Awake.of_eq {s s' : ClientApp} (h : s.Awake)
    (hconnection : s'.connection = s.connection) (hfilter : s'.writeFilter = s.writeFilter) :
    s'.Awake := by
  constructor <;> rw [hconnection]
  · exact h.exclusive
  · rw [hfilter]
    exact h.reading
  · exact h.writing
  · rw [hfilter]
    exact h.queued

/-! ## Entering the chat -/

section

variable {c c' : ClientConnection} {reads unused : List SslRead} {result : ReadResult}

theorem handleRead_cases (h : handleRead c reads = some (result, c', unused)) :
    result = .dataReceived ∧ c.Live ∧
        (∃ bytes, c' =
          { c with rxBuffer := c.rxBuffer ++ bytes, readWaitingForWrite := false }) ∨
      result = .wantRead ∧ (c' = c ∨ c' = { c with readWaitingForWrite := false }) ∨
      result = .wantWrite ∧ c' = { c with readWaitingForWrite := true } ∨
      (result = .connectionClosed ∨ result = .ignored ∨ result = .fatalError) ∧ c' = c := by
  unfold handleRead at h
  split_ifs at h with hfd hssl hstatus
  · simp_all
  · simp_all
  · simp_all
  · have hlive : c.Live := ⟨not_lt.mp hfd, hssl, hstatus⟩
    fun_induction readLoop reads c <;> grind

theorem loginLoop_success {username : Bytes} {fuel : Nat} {login : LoginResult}
    (h : loginLoop username fuel reads c = some (login, c')) (hstatus : login.status = .success) :
    c'.toOutgoing = c.toOutgoing ∧ c'.readWaitingForWrite = false := by
  induction fuel generalizing reads c with
  | zero => simp [loginLoop] at h
  | succ fuel ih =>
      unfold loginLoop at h
      cases hread : handleRead c reads with
      | none => simp [hread] at h
      | some outcome =>
          obtain ⟨status, c₁, unused⟩ := outcome
          simp only [hread] at h
          split_ifs at h with hlost hincomplete
          · simp only [Option.some.injEq, Prod.mk.injEq] at h
            simp [← h.1, LoginResult.of] at hstatus
          · obtain rfl : status = .dataReceived := not_not.mp hlost
            obtain ⟨-, -, bytes, rfl⟩ | h' | h' | h' := handleRead_cases hread
            · have hlater := ih h
              exact hlater
            all_goals simp at h'
          · obtain rfl : status = .dataReceived := not_not.mp hlost
            obtain ⟨-, -, bytes, rfl⟩ | h' | h' | h' := handleRead_cases hread
            · simp only [Option.some.injEq, Prod.mk.injEq] at h
              rw [← h.2]
              exact ⟨rfl, rfl⟩
            all_goals simp at h'

/-- What `flush_write` leaves behind, by its result. -/
theorem flushWrite_spec {writes : List SslWrite} {status : FlushResult}
    {calls : List SslWriteCall} (h : flushWrite c writes = some (status, c', calls)) :
    c'.fd = c.fd ∧ c'.readWaitingForWrite = c.readWaitingForWrite ∧
      (status ≠ .fatalError → c'.writeWaitingForRead = decide (status = .readWait)) ∧
      (status = .queueEmpty → c'.txQueue = []) ∧ (status = .readWait → c'.txQueue ≠ []) := by
  unfold flushWrite at h
  split at h
  · simp only [Option.some.injEq, Prod.mk.injEq] at h
    obtain ⟨rfl, rfl, rfl⟩ := h
    simp
  · obtain ⟨flush, hflush, heq⟩ := Option.map_eq_some_iff.mp h
    simp only [Prod.mk.injEq] at heq
    obtain ⟨rfl, rfl, rfl⟩ := heq
    exact ⟨rfl, rfl, flushLoop_waiting hflush, flushLoop_queue hflush⟩

theorem loginClient_success {username password : Bytes} {writes : List SslWrite}
    {login : LoginResult} {calls : List SslWriteCall}
    (h : loginClient username password writes reads c = some (login, c', calls))
    (hstatus : login.status = .success) :
    c'.txQueue = [] ∧ c'.writeWaitingForRead = false ∧ c'.readWaitingForWrite = false := by
  unfold loginClient at h
  split_ifs at h with hopen
  · simp only [Option.some.injEq, Prod.mk.injEq] at h
    simp [← h.1, LoginResult.of] at hstatus
  · dsimp only at h
    cases hflush : flushWrite (queueWrite c (createPacketStream .login
      (credentials username password))) writes with
    | none => simp [hflush] at h
    | some outcome =>
        obtain ⟨status, c₁, calls₁⟩ := outcome
        simp only [hflush] at h
        split_ifs at h with hunsent
        · simp only [Option.some.injEq, Prod.mk.injEq] at h
          simp [← h.1, LoginResult.of] at hstatus
        · obtain rfl : status = .queueEmpty := not_not.mp hunsent
          obtain ⟨⟨login', c₂⟩, hloop, heq⟩ := Option.map_eq_some_iff.mp h
          simp only [Prod.mk.injEq] at heq
          obtain ⟨rfl, rfl, rfl⟩ := heq
          obtain ⟨hout, hreading⟩ := loginLoop_success hloop hstatus
          obtain ⟨-, -, hwaiting, hqueue, -⟩ := flushWrite_spec hflush
          rw [hout]
          exact ⟨hqueue rfl, hwaiting nofun, hreading⟩

end

theorem EntersChat.awake {s₀ : ClientApp} (h : EntersChat s₀) : s₀.Awake := by
  cases h with
  | @login s t _ username password writes reads result connection calls now nonblocking kqueue
      kevent hlogin hresult hchat =>
      have hsuccess : result.status = .success := by
        unfold ClientApp.handleLoginResult at hresult
        split at hresult <;> simp_all
      obtain ⟨hqueue, hwriting, hreading⟩ := loginClient_success hlogin hsuccess
      have ht : t.connection.toOutgoing = connection.toOutgoing ∧
          t.connection.readWaitingForWrite = false := by
        simp only [ClientApp.handleLoginResult, hsuccess, Prod.mk.injEq] at hresult
        rw [← hresult.2]
        exact ⟨rfl, hreading⟩
      have hs₀ : s₀.connection.toOutgoing = t.connection.toOutgoing ∧
          s₀.connection.readWaitingForWrite = t.connection.readWaitingForWrite := by
        unfold ClientApp.initChat at hchat
        dsimp only at hchat
        split_ifs at hchat
        all_goals simp only [Prod.mk.injEq, Bool.false_eq_true, false_and, true_and] at hchat
        rw [← hchat]
        exact ⟨rfl, rfl⟩
      refine ClientApp.awake_of_quiet (hs₀.2.trans ht.2) ?_ fun hne => ?_
      · rw [hs₀.1, ht.1, hwriting]
      · rw [hs₀.1, ht.1, hqueue] at hne
        exact absurd rfl hne

namespace ClientApp

variable {s s' : ClientApp} {i : Input}

/-! ## One event -/

theorem disconnect_fd (s : ClientApp) : s.disconnect.connection.fd < 0 := by
  unfold disconnect
  dsimp only
  split_ifs with h
  · exact h.1
  · exact Int.negSucc_lt_zero 0

theorem awake_queueAndEnable (h : s.Awake) (hkevent : i.kevent = true) (packet : Bytes) :
    (s.queueAndEnable i packet).Awake := by
  unfold queueAndEnable enableWriteEvent
  dsimp only
  rw [if_pos hkevent]
  have hne : s.connection.txQueue ++ [packet] ≠ [] := by simp
  split_ifs with hempty
  · have hwriting : s.connection.writeWaitingForRead = false := by
      by_contra hwaits
      exact h.writing (by simpa using hwaits) hempty
    exact ⟨h.exclusive, fun _ => rfl, fun _ => hne, fun _ => .inl rfl⟩
  · exact ⟨h.exclusive, h.reading, fun _ => hne, fun _ => h.queued hempty⟩

theorem awake_handleFlushResult {result : FlushResult}
    (hreading : s.connection.readWaitingForWrite = false)
    (hwaiting : result ≠ .fatalError →
      s.connection.writeWaitingForRead = decide (result = .readWait))
    (hempty : result = .queueEmpty → s.connection.txQueue = [])
    (hleft : result = .readWait → s.connection.txQueue ≠ []) (hkevent : i.kevent = true)
    (hlive : 0 ≤ (s.handleFlushResult i result).connection.fd) :
    (s.handleFlushResult i result).Awake := by
  cases result with
  | queueEmpty =>
      simp only [handleFlushResult, hreading, Bool.not_false, if_true] at hlive ⊢
      split_ifs at hlive ⊢ with hclosing
      · exact absurd hlive (not_le.mpr (disconnect_fd s))
      · rw [disableWriteEvent, if_pos hkevent]
        exact awake_of_quiet hreading (hwaiting nofun) fun hne => absurd (hempty rfl) hne
  | readWait =>
      simp only [handleFlushResult, disableWriteEvent, if_pos hkevent]
      refine ⟨?_, ?_, fun _ => hleft rfl, fun _ => .inr rfl⟩
      · simp [hreading]
      · simp [hreading]
  | writeWait =>
      simp only [handleFlushResult, enableWriteEvent, if_pos hkevent]
      exact awake_of_quiet hreading (hwaiting nofun) fun _ => rfl
  | fatalError => exact absurd hlive (not_le.mpr (disconnect_fd s))

theorem awake_flush (h : s.flush i = .ok s')
    (hreading : s.connection.readWaitingForWrite = false) (hkevent : i.kevent = true)
    (hlive : 0 ≤ s'.connection.fd) : s'.Awake := by
  unfold flush at h
  cases hflush : flushWrite s.connection i.sslWrite with
  | none => simp [hflush] at h
  | some outcome =>
      obtain ⟨result, c, calls⟩ := outcome
      simp only [hflush, Except.ok.injEq] at h
      obtain ⟨-, hsame, hwaiting, hempty, hleft⟩ := flushWrite_spec hflush
      subst h
      exact awake_handleFlushResult (hsame.trans hreading) hwaiting hempty hleft hkevent hlive

theorem awake_processReceivedData (hopen : s.connection.Live) (now : Int)
    (hreading : s.connection.readWaitingForWrite = false)
    (hwriting : s.connection.writeWaitingForRead = false)
    (hqueued : s.connection.txQueue ≠ [] → s.writeFilter = true)
    (hlive : 0 ≤ (s.processReceivedData now).connection.fd) :
    (s.processReceivedData now).Awake := by
  have hresponded := processReceivedData_responded hopen now
  cases hbuffer : (packets.drain s.connection.rxBuffer).buffer with
  | none =>
      rw [(hresponded.stopped hbuffer).fd] at hlive
      exact absurd hlive (by decide)
  | some rest =>
      obtain ⟨hfilter, _, waiting, hwaits, hconnection⟩ := hresponded.goesOn rest hbuffer
      rw [← hfilter] at hqueued
      refine awake_of_quiet ?_ (by rw [hconnection, hwriting]) (by rwa [hconnection])
      rw [hconnection]
      by_contra hwaiting
      rw [hwaits (by simpa using hwaiting)] at hreading
      exact absurd hreading.symm Bool.false_ne_true

theorem awake_read (h : s.read i = .ok s')
    (hreading : s.connection.readWaitingForWrite = false)
    (hwriting : s.connection.writeWaitingForRead = false)
    (hqueued : s.connection.txQueue ≠ [] → s.writeFilter = true) (hkevent : i.kevent = true)
    (hlive : 0 ≤ s'.connection.fd) : s'.Awake := by
  unfold read at h
  cases hread : handleRead s.connection i.sslRead with
  | none => simp [hread] at h
  | some outcome =>
      obtain ⟨result, c, unused⟩ := outcome
      simp only [hread, Except.ok.injEq] at h
      subst h
      obtain ⟨rfl, hopen, bytes, rfl⟩ | ⟨rfl, rfl | rfl⟩ | ⟨rfl, rfl⟩ | ⟨rfl | rfl | rfl, rfl⟩ :=
        handleRead_cases hread
      · exact awake_processReceivedData
          (s := s.withConnection
            { s.connection with
              rxBuffer := s.connection.rxBuffer ++ bytes, readWaitingForWrite := false })
          ⟨hopen.fd, hopen.ssl, hopen.status⟩ i.now rfl hwriting hqueued hlive
      · exact awake_of_quiet hreading hwriting hqueued
      · exact awake_of_quiet rfl hwriting hqueued
      · -- the read goes on when TLS can write
        simp only [handleReadResult, enableWriteEvent, if_pos hkevent]
        exact ⟨by simp [hwriting], fun _ => rfl, by simp [hwriting], fun _ => .inl rfl⟩
      · exact absurd hlive (not_le.mpr (disconnect_fd _))
      · exact awake_of_quiet hreading hwriting hqueued
      · exact absurd hlive (not_le.mpr (disconnect_fd _))

theorem consoleWriteEvent_cases {keys : List Int} (h : s.consoleWriteEvent i keys = .ok s') :
    ∃ t, (t = s ∨ ∃ packet, t = s.queueAndEnable i packet) ∧
      s'.connection = t.connection ∧ s'.writeFilter = t.writeFilter := by
  unfold consoleWriteEvent at h
  cases hconsole : readConsoleInput keys s.consoleInputBuffer with
  | none => simp [hconsole] at h
  | some outcome =>
      obtain ⟨result, inputBuffer⟩ := outcome
      simp only [hconsole, Except.ok.injEq] at h
      subst h
      unfold handleConsoleInputResult queueAndEnable enableWriteEvent
      cases result.status with
      | message =>
          refine ⟨_, .inr ⟨createPacketStream .message result.buffer, rfl⟩, ?_⟩
          dsimp only [printMessage, log, withConnection]
          split_ifs <;> exact ⟨rfl, rfl⟩
      | _ => exact ⟨s, .inl rfl, rfl, rfl⟩

theorem step_reads (hreads : s.connection.Reads i.event) :
    step i s =
      (s.withConnection { s.connection with readWaitingForWrite := false }).read i := by
  obtain ⟨hwriting, ⟨hevent, hreading⟩ | ⟨hevent, hreading⟩⟩ := hreads
  · have hsame : s.withConnection { s.connection with readWaitingForWrite := false } = s := by
      rw [← hreading]
      rfl
    simp only [step, hevent, readEvent, hreading, hwriting, Bool.and_self, Bool.false_eq_true,
      if_false, hsame]
  · simp only [step, hevent, writeEvent, hreading, hwriting, Bool.and_false,
      Bool.false_eq_true, if_false, if_true]

theorem dispatched_of_step (hstep : step i s = .ok s') : Dispatched i s s' := by
  by_cases hreads : s.connection.Reads i.event
  · rw [step_reads hreads] at hstep
    exact .reads hreads hstep
  · unfold step at hstep
    cases hevent : i.event with
    | timer =>
        simp only [hevent, Except.ok.injEq] at hstep
        exact .timer hevent hstep.symm
    | console keys =>
        simp only [hevent] at hstep
        exact .console hevent hstep
    | read =>
        simp only [hevent] at hstep
        unfold readEvent at hstep
        split_ifs at hstep with hboth hreading hwriting
        · exact .waits hreads (Except.ok.inj hstep).symm
        · exact .waits hreads (Except.ok.inj hstep).symm
        · exact .flushes hreads (by simpa using hreading) hstep
        · rw [Bool.not_eq_true] at hreading hwriting
          exact absurd ⟨hwriting, .inl ⟨hevent, hreading⟩⟩ hreads
    | write =>
        simp only [hevent] at hstep
        unfold writeEvent at hstep
        split_ifs at hstep with hboth hwriting hreading
        · exact .waits hreads (Except.ok.inj hstep).symm
        · exact .waits hreads (Except.ok.inj hstep).symm
        · rw [Bool.not_eq_true] at hwriting
          exact absurd ⟨hwriting, .inr ⟨hevent, hreading⟩⟩ hreads
        · rw [Bool.not_eq_true] at hreading hwriting
          have hsame :
              s.withConnection { s.connection with writeWaitingForRead := false } = s := by
            rw [← hwriting]
            rfl
          exact .flushes hreads hreading (hsame.symm ▸ hstep)

/-- Every event keeps the flags, the queue and the filter in agreement. -/
theorem awake_step (h : s.Awake) (hstep : step i s = .ok s') (hkevent : i.kevent = true)
    (hlive : 0 ≤ s'.connection.fd) : s'.Awake := by
  cases dispatched_of_step hstep with
  | timer _ hticked =>
      rw [hticked, handleTimerEvent] at hlive ⊢
      split_ifs at hlive ⊢ with hsilent
      · exact absurd hlive (not_le.mpr (disconnect_fd _))
      · exact awake_queueAndEnable h hkevent _
  | console _ hwritten =>
      obtain ⟨t, ht, hconnection, hfilter⟩ := consoleWriteEvent_cases hwritten
      have hawake : t.Awake := by
        obtain rfl | ⟨packet, rfl⟩ := ht
        · exact h
        · exact awake_queueAndEnable h hkevent packet
      exact hawake.of_eq hconnection hfilter
  | waits _ hsame => exact hsame ▸ h
  | flushes _ hreading hflush => exact awake_flush hflush hreading hkevent hlive
  | reads hreads hread =>
      have hwriting := hreads.1
      have hqueued : s.connection.txQueue ≠ [] → s.writeFilter = true := fun hne =>
        (h.queued hne).resolve_right (by simp [hwriting])
      exact awake_read hread rfl hwriting hqueued hkevent hlive

/-! ## Closed connections stay closed -/

theorem flush_fd (h : s.flush i = .ok s') (hclosed : s.connection.fd < 0) :
    s'.connection.fd < 0 := by
  unfold flush at h
  cases hflush : flushWrite s.connection i.sslWrite with
  | none => simp [hflush] at h
  | some outcome =>
      obtain ⟨result, c, calls⟩ := outcome
      simp only [hflush, Except.ok.injEq] at h
      obtain ⟨hfd, -⟩ := flushWrite_spec hflush
      rw [← hfd] at hclosed
      subst h
      unfold handleFlushResult
      cases result with
      | queueEmpty =>
          dsimp only
          split_ifs
          · exact disconnect_fd _
          · rwa [disableWriteEvent_connection]
          · exact hclosed
      | readWait => rwa [disableWriteEvent_connection]
      | writeWait => rwa [enableWriteEvent_connection]
      | fatalError => exact disconnect_fd _

theorem read_fd (h : s.read i = .ok s') (hclosed : s.connection.fd < 0) :
    s'.connection.fd < 0 := by
  rw [read, handleRead, if_pos hclosed] at h
  simp only [Except.ok.injEq] at h
  rw [← h]
  exact disconnect_fd _

theorem step_fd (hclosed : s.connection.fd < 0) (hstep : step i s = .ok s') :
    s'.connection.fd < 0 := by
  cases dispatched_of_step hstep with
  | timer _ hticked =>
      rw [hticked, handleTimerEvent]
      split_ifs
      · exact disconnect_fd _
      · rwa [queueAndEnable_connection]
  | console _ hwritten =>
      obtain ⟨t, ht, hconnection, -⟩ := consoleWriteEvent_cases hwritten
      rw [hconnection]
      obtain rfl | ⟨packet, rfl⟩ := ht
      · exact hclosed
      · rwa [queueAndEnable_connection]
  | waits _ hsame => exact hsame ▸ hclosed
  | flushes _ _ hflush => exact flush_fd hflush hclosed
  | reads _ hread => exact read_fd hread hclosed

end ClientApp

/-- After `init_chat` has succeeded, under any order of events and any outcomes of TLS,
as long as `kevent` works and the connection is there, its two flags agree with its queue
and its write filter: a message that was typed has a wakeup. -/
theorem typed_message_has_wakeup {s₀ s : ClientApp}
    {history : List (Transition ClientApp Input)} (hstart : EntersChat s₀)
    (hrun : Run ClientApp.step s₀ history s)
    (hkevent : ∀ t ∈ history, 0 ≤ t.pre.connection.fd → t.input.kevent = true)
    (hlive : 0 ≤ s.connection.fd) : s.Awake := by
  refine hrun.invariant_of (fun t => 0 ≤ t.pre.connection.fd → t.input.kevent = true)
    (fun _ s => 0 ≤ s.connection.fd → s.Awake) (fun _ => hstart.awake) ?_ hkevent hlive
  intro history s s' i _ hawake hstep hkevent hlive
  have hbefore : 0 ≤ s.connection.fd := by
    by_contra hclosed
    exact absurd hlive (not_le.mpr (ClientApp.step_fd (not_le.mp hclosed) hstep))
  exact ClientApp.awake_step (hawake hbefore) hstep (hkevent hbefore) hlive

def chattingClient : ClientApp :=
  { establishedClient with
    connection := { establishedClient.connection with status := .authenticated }
    username := literal "a"
    token := literal "t"
    state := .connected }

theorem chattingClient_entersChat : EntersChat chattingClient := by
  have hlogin : loginClient (literal "a") (literal "b") [.wrote 15]
      [.received (createPacketStream .ack (literal "OK|t"))] establishedClient.connection =
      some (⟨.success, literal "a", literal "t"⟩, establishedClient.connection,
        [⟨createPacketStream .login (credentials (literal "a") (literal "b")), .wrote 15⟩]) := by
    decide +kernel
  have hchat : chattingClient.initChat 0 true true true = (true, chattingClient) := rfl
  exact .login hlogin rfl hchat

theorem typed_message_has_wakeup_line : ∃ history s,
    Run ClientApp.step chattingClient history s ∧ s.connection.txQueue ≠ [] ∧ s.Awake := by
  obtain ⟨history, s, hrun, hinputs, h⟩ := Run.exists_of_execute_inputs ClientApp.step
    [⟨.console [104, 105, 10], 0, [], [], true⟩] chattingClient
    (fun _ s => s.connection.txQueue ≠ [] ∧ 0 ≤ s.connection.fd) (by decide +kernel)
  simp only [decide_eq_true_eq] at h
  refine ⟨history, s, hrun, h.1, ?_⟩
  refine typed_message_has_wakeup chattingClient_entersChat hrun (fun t ht _ => ?_) h.2
  have hmem : t.input ∈ history.map (·.input) := List.mem_map_of_mem ht
  rw [hinputs, List.mem_singleton] at hmem
  rw [hmem]

end TChat.Client
