import TChat.Server.WellFormed
/-!
# What one event can do

`Outcome i s` lists every way an event can end, with the conditions under which
it ends so and the state it leaves, or the fault it runs into.  `outcome_step`
proves the list complete once; all later facts about steps are case analyses
over it and do not look at the handlers again.
-/

namespace TChat.Server

open TChat.Common TChat.Lib

/-! ## The vocabulary of the cases -/

/-- The events for which `handle_read` is called on a connection. -/
def ClientConnection.Reads (c : ClientConnection) (event : Event) : Prop :=
  c.writeWaitingForRead = false ∧
    (event = .read c.fd ∧ c.readWaitingForWrite = false ∨
      event = .write c.fd ∧ c.readWaitingForWrite = true)

instance (c : ClientConnection) (event : Event) : Decidable (c.Reads event) :=
  inferInstanceAs (Decidable (_ ∧ _))

/-- The events for which `flush_write` is called on a connection. -/
def ClientConnection.Flushes (c : ClientConnection) (event : Event) : Prop :=
  c.readWaitingForWrite = false ∧
    (event = .read c.fd ∧ c.writeWaitingForRead = true ∨
      event = .write c.fd ∧ c.writeWaitingForRead = false)

/-- `handle_read` is called and returns `DataReceived`: `bytes` arrive. -/
structure Receives (i : Input) (c : ClientConnection) (bytes : Bytes) : Prop where
  reads : c.Reads i.event
  listening : c.status ≠ .closing
  outcome : readOutcome i.sslRead = some (.received bytes)
  nonempty : bytes ≠ []
  bounded : bytes.length ≤ readBufferSize

/-- The bytes that arrive complete a handshake packet that is accepted. -/
def Handshakes (i : Input) (c : ClientConnection) (request : HandshakeRequest)
    (rest : Bytes) : Prop :=
  ∃ bytes, Receives i c bytes ∧ c.status = .awaitingAuth ∧
    processHandshakePacket (c.rxBuffer ++ bytes) = (⟨.validAuthPacket, request⟩, rest)

/-- The bytes that arrive go to the stream parser. -/
def Streams (i : Input) (c : ClientConnection) (stream : ClientStream) : Prop :=
  ∃ bytes, Receives i c bytes ∧ c.status = .authenticated ∧
    processClientStream (c.rxBuffer ++ bytes) = stream

section

variable {i : Input} {c : ClientConnection}

theorem Handshakes.reads {request : HandshakeRequest} {rest : Bytes}
    (h : Handshakes i c request rest) : c.Reads i.event := by
  obtain ⟨_, hreceives, _⟩ := h
  exact hreceives.reads

theorem Handshakes.awaiting {request : HandshakeRequest} {rest : Bytes}
    (h : Handshakes i c request rest) : c.status = .awaitingAuth := by
  obtain ⟨_, _, hstatus, _⟩ := h
  exact hstatus

theorem Streams.reads {stream : ClientStream} (h : Streams i c stream) : c.Reads i.event := by
  obtain ⟨_, hreceives, _⟩ := h
  exact hreceives.reads

theorem Streams.authenticated {stream : ClientStream} (h : Streams i c stream) :
    c.status = .authenticated := by
  obtain ⟨_, _, hstatus, _⟩ := h
  exact hstatus

end

def ClientConnection.withBuffer (c : ClientConnection) (rest : Bytes) : ClientConnection :=
  { c with rxBuffer := rest, readWaitingForWrite := false }

def ClientConnection.authenticate (c : ClientConnection) (rest : Bytes) (now : Time) :
    ClientConnection :=
  { c with
    rxBuffer := rest
    lastSeen := now
    status := .authenticated
    readWaitingForWrite := false }

def refusal : VerifyClientStatus → Bytes
  | .execFailed => createPacketStream .error (literal "ERR")
  | _ => createPacketStream .ack (literal "NO")

/-- What a flush that did not end the connection asks of the write filter. -/
def flushFilter : FlushResult → Option Bool
  | .queueEmpty => some false
  | .readWait => some false
  | .writeWait => some true
  | .fatalError => none

def ServerApp.switchWriteEvent (i : Input) (fd : Fd) :
    Option Bool → ServerApp → ServerApp
  | none, s => s
  | some true, s => s.enableWriteEvent i fd
  | some false, s => s.disableWriteEvent i fd

/-! ## Events that change one connection and nothing else -/

/-- `Edit i s p c c' filter actions`: an event on the connection `p` with record
`c` leaves the record `c'`, switches the write filter as `filter` says and does
`actions`. -/
inductive Edit (i : Input) (s : ServerApp) (p : ConnectionPtr) (c : ClientConnection) :
    ClientConnection → Option Bool → List Action → Prop
  | flushed {flush : Flush} :
      c.Flushes i.event →
      flushLoop storeOffset i.sslWrite c.toOutgoing.notWaiting = some flush →
      flush.result ≠ .fatalError → ¬(flush.result = .queueEmpty ∧ c.status = .closing) →
      Edit i s p c (c.withOutgoing flush.outgoing) (flushFilter flush.result)
        (flush.calls.map (.sslWrite p))
  | nothingRead :
      c.Reads i.event →
      (c.status = .closing ∨ readOutcome i.sslRead = some (.failed .wantRead) ∨
        readOutcome i.sslRead = some (.failed .zeroReturn)) →
      Edit i s p c { c with readWaitingForWrite := false } none []
  | wantWrite :
      c.Reads i.event → c.status ≠ .closing →
      readOutcome i.sslRead = some (.failed .wantWrite) →
      Edit i s p c { c with readWaitingForWrite := true } (some true) []
  | handshakeIncomplete {bytes rest : Bytes} {request : HandshakeRequest} :
      Receives i c bytes → c.status = .awaitingAuth →
      processHandshakePacket (c.rxBuffer ++ bytes) = (⟨.incompletePacket, request⟩, rest) →
      Edit i s p c (c.withBuffer rest) none []
  | loginRefused {request : HandshakeRequest} {rest : Bytes} {status : VerifyClientStatus} :
      Handshakes i c request rest → request.kind = .login →
      i.verifyClient request.username request.password = status → status ≠ .authorized →
      Edit i s p c { queueWrite (c.withBuffer rest) (refusal status) with status := .closing }
        (some true) [.queueWrite p (refusal status)]
  | registered {request : HandshakeRequest} {rest : Bytes} :
      Handshakes i c request rest → request.kind = .register →
      i.registerClient request.username request.password = .clientRegistered →
      Edit i s p c
        (queueWrite (c.withBuffer rest) (createPacketStream .ack (literal "OK")))
        (some true) [.queueWrite p (createPacketStream .ack (literal "OK"))]
  | reconnectIgnored {request : HandshakeRequest} {rest : Bytes} :
      Handshakes i c request rest → request.kind = .reconnect →
      ClientManager.verifySession request.username request.token s = true →
      (∀ session, s.sessions.find? request.username = some session →
        session.state ≠ .disconnected) →
      Edit i s p c (c.withBuffer rest) none []
  | streamIdle {stream : ClientStream} :
      Streams i c stream →
      (stream.result = .incompletePacket ∨ stream.result = .processComplete) →
      Edit i s p c (c.withBuffer stream.rxBuffer) none []
  | streamInvalid {stream : ClientStream} {session : ClientSession} :
      Streams i c stream → stream.result = .invalidProtocolError →
      ClientManager.findSesssionFromConnection p s = some session →
      Edit i s p c (c.withBuffer stream.rxBuffer) none []
  | pingUnanswered {stream : ClientStream} :
      Streams i c stream → stream.result = .sendPong →
      ClientManager.findSesssionFromConnection p s = none →
      Edit i s p c (c.withBuffer stream.rxBuffer) none []
  | pong {stream : ClientStream} {session : ClientSession} :
      Streams i c stream → stream.result = .sendPong →
      ClientManager.findSesssionFromConnection p s = some session →
      Edit i s p c
        (queueWrite { c.withBuffer stream.rxBuffer with lastSeen := i.now }
          (createPacketStream .pong []))
        (some true) [.queueWrite p (createPacketStream .pong [])]

/-! ## Events that take a connection down -/

/-- `Drop i s p c buffer actions`: an event ends in `disconnect` of the
connection `p` with record `c`, after `actions`; the console's input buffer is
`buffer` then. -/
inductive Drop (i : Input) (s : ServerApp) (p : ConnectionPtr) (c : ClientConnection) :
    Bytes → List Action → Prop
  | flushed {flush : Flush} :
      c.Flushes i.event →
      flushLoop storeOffset i.sslWrite c.toOutgoing.notWaiting = some flush →
      (flush.result = .fatalError ∨ flush.result = .queueEmpty ∧ c.status = .closing) →
      Drop i s p c s.consoleInputBuffer (flush.calls.map (.sslWrite p))
  | readFailed {error : SslError} :
      c.Reads i.event → c.status ≠ .closing →
      readOutcome i.sslRead = some (.failed error) →
      error ≠ .wantRead → error ≠ .wantWrite → error ≠ .zeroReturn →
      Drop i s p c s.consoleInputBuffer []
  | handshakeInvalid {bytes rest : Bytes} {result : HandshakeResult} :
      Receives i c bytes → c.status = .awaitingAuth →
      processHandshakePacket (c.rxBuffer ++ bytes) = (result, rest) →
      (result.status = .invalidProtocolError ∨ result.status = .invalidAuthPacket) →
      Drop i s p c s.consoleInputBuffer []
  | registerFailed {request : HandshakeRequest} {rest : Bytes} :
      Handshakes i c request rest → request.kind = .register →
      i.registerClient request.username request.password ≠ .clientRegistered →
      Drop i s p c s.consoleInputBuffer []
  | reconnectRefused {request : HandshakeRequest} {rest : Bytes} :
      Handshakes i c request rest → request.kind = .reconnect →
      ClientManager.verifySession request.username request.token s = false →
      Drop i s p c s.consoleInputBuffer []
  | quit {stream : ClientStream} {session : ClientSession} :
      Streams i c stream → stream.result = .disconnectClient →
      ClientManager.findSesssionFromConnection p s = some session →
      Drop i s p c s.consoleInputBuffer []
  | kicked {keys : List Int} {username buffer : Bytes} {session : ClientSession} :
      i.event = .console keys →
      readConsoleInput keys s.consoleInputBuffer = .ok (⟨.kickClient, username⟩, buffer) →
      s.sessions.find? username = some session → session.connection = some p →
      Drop i s p c buffer []

/-! ## The other events -/

/-- The state after `accept_client` returned without a new client. -/
structure TurnedAway (i : Input) (s s' : ServerApp) : Prop where
  event : ∃ call, i.event = .accept call ∧
    (ClientManager.acceptClient i call (s.beginEvent i.now)).2 = s'
  connections : s'.connections = s.connections
  sessions : s'.sessions = s.sessions
  sslCtx : s'.sslCtx = s.sslCtx
  console : s'.consoleInputBuffer = s.consoleInputBuffer
  openFd : s'.openFd = s.openFd
  writeFilter : ∀ fd, s.openFd fd = true → s'.writeFilter fd = s.writeFilter fd
  nextNode : s.nextNode ≤ s'.nextNode
  clock : s'.clock = i.now
  actions : ∀ a ∈ s'.actions, (∃ fd, a = .accept fd) ∨ (∃ fd, a = .close fd) ∨
    (∃ ssl, a = .sslNew ssl) ∨ (∃ ssl, a = .sslFree ssl)

def ServerApp.addConnection (i : Input) (fd : Fd) (s : ServerApp) : ServerApp :=
  { s with
    connections :=
      s.connections.insert fd (.create s.nextNode fd (some s.nextSsl) i.now)
    openFd := fun other => if other = fd then true else s.openFd other
    nextNode := s.nextNode + 1
    nextSsl := s.nextSsl + 1
    actions := s.actions ++ [.accept fd, .sslNew s.nextSsl] }

def ServerApp.timedOut (s : ServerApp) : List (Fd × ClientConnection) :=
  s.connections.entries.filter fun entry =>
    entry.2.status = .closing ∧ entry.2.txQueue = []

def ServerApp.releaseAll (now : Time) (entries : List (Fd × ClientConnection))
    (s : ServerApp) : ServerApp :=
  entries.foldl
    (fun s entry => ClientManager.release now ⟨entry.1, entry.2.node⟩ entry.2.ssl s) s

def ServerApp.tick (i : Input) (s : ServerApp) : ServerApp :=
  let marked := ClientManager.markTimedOutConnections i s
  ClientManager.removeExpiredSessions
    (ClientManager.markExpiredSessions i (marked.releaseAll i.now marked.timedOut))

inductive Outcome (i : Input) (s : ServerApp) : Except Fault ServerApp → Prop
  | impossible : Outcome i s (.error .impossible)
  | emptyString {keys : List Int} :
      i.event = .console keys → Outcome i s (.error .emptyString)
  | nullSession {p : ConnectionPtr} {c : ClientConnection} {stream : ClientStream} :
      s.deref p = some c → Streams i c stream →
      (stream.result = .invalidProtocolError ∨ stream.result = .disconnectClient ∨
        stream.result = .printMessage) →
      ClientManager.findSesssionFromConnection p s = none →
      Outcome i s (.error .nullSession)
  | idle : Outcome i s (.ok (s.beginEvent i.now))
  | console {keys : List Int} {result : ConsoleInputResult} {buffer : Bytes} :
      i.event = .console keys →
      readConsoleInput keys s.consoleInputBuffer = .ok (result, buffer) →
      Outcome i s (.ok ((s.beginEvent i.now).setConsoleInputBuffer buffer))
  | stopped {keys : List Int} {result : ConsoleInputResult} {buffer : Bytes} :
      i.event = .console keys →
      readConsoleInput keys s.consoleInputBuffer = .ok (result, buffer) →
      Outcome i s (.ok ((s.beginEvent i.now).setConsoleInputBuffer buffer).stop)
  | edited {p : ConnectionPtr} {c c' : ClientConnection} {filter : Option Bool}
      {actions : List Action} :
      s.deref p = some c → Edit i s p c c' filter actions →
      Outcome i s
        (.ok ((((s.beginEvent i.now).store p c').log actions).switchWriteEvent i p.fd filter))
  | dropped {p : ConnectionPtr} {c : ClientConnection} {buffer : Bytes}
      {actions : List Action} :
      s.deref p = some c → Drop i s p c buffer actions →
      Outcome i s (.ok (ClientManager.release i.now p c.ssl
        (((s.beginEvent i.now).setConsoleInputBuffer buffer).log actions)))
  | loggedIn {p : ConnectionPtr} {c : ClientConnection} {request : HandshakeRequest}
      {rest : Bytes} {session : ClientSession} {reply : Bytes} :
      s.deref p = some c → Handshakes i c request rest → request.kind = .login →
      i.verifyClient request.username request.password = .authorized →
      session = ⟨request.username, generateToken i.random, some p, i.now, .connected⟩ →
      reply = createPacketStream .ack (literal "OK|" ++ generateToken i.random) →
      Outcome i s (.ok ((((ClientManager.addSession session (s.beginEvent i.now)).store p
        (queueWrite (c.authenticate rest i.now) reply)).log
          [.queueWrite p reply]).enableWriteEvent i p.fd))
  | reattached {p : ConnectionPtr} {c : ClientConnection} {request : HandshakeRequest}
      {rest : Bytes} {session : ClientSession} :
      s.deref p = some c → Handshakes i c request rest → request.kind = .reconnect →
      s.sessions.find? request.username = some session →
      session.token = request.token → session.state = .disconnected →
      Outcome i s (.ok { (s.beginEvent i.now).store p (c.authenticate rest i.now) with
        sessions := s.sessions.insert request.username { session with
          connection := some p
          state := .reconnected
          disconnectedAt := 0 } })
  | relayed {p : ConnectionPtr} {c : ClientConnection} {stream : ClientStream}
      {session : ClientSession} :
      s.deref p = some c → Streams i c stream → stream.result = .printMessage →
      ClientManager.findSesssionFromConnection p s = some session →
      Outcome i s (.ok (((s.beginEvent i.now).store p
        (c.withBuffer stream.rxBuffer)).broadcastAndEnable i (some p) p.fd
          (ServerApp.clientBroadcast session.username stream.message)))
  | announced {keys : List Int} {line buffer : Bytes} :
      i.event = .console keys →
      readConsoleInput keys s.consoleInputBuffer = .ok (⟨.message, line⟩, buffer) →
      Outcome i s (.ok (((s.beginEvent i.now).setConsoleInputBuffer
        buffer).broadcastAndEnable i none (-1)
        (ServerApp.serverBroadcast line)))
  | turnedAway {s' : ServerApp} : TurnedAway i s s' → Outcome i s (.ok s')
  | admitted {fd : Fd} :
      i.event = .accept (.accepted fd true true true) → 0 ≤ fd → s.openFd fd = false →
      i.kevent fd = true → Outcome i s (.ok ((s.beginEvent i.now).addConnection i fd))
  | ticked : i.event = .timer → Outcome i s (.ok ((s.beginEvent i.now).tick i))

end TChat.Server
