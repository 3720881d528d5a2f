import TChat.Server.Manager
import TChat.Server.MessageHandler
/-!
# The event handlers

`server/app.cpp`: what `run` does for each event it dequeues.  `step` is one
iteration of its inner loop, and a run of the server is a run of `step`.
Messages to the server's own screen are left out.
-/

namespace TChat.Server

open TChat.Common TChat.Lib

namespace ServerApp

def enableWriteEvent (i : Input) (fd : Fd) (s : ServerApp) : ServerApp :=
  if i.kevent fd then s.setWriteFilter fd true else s

def disableWriteEvent (i : Input) (fd : Fd) (s : ServerApp) : ServerApp :=
  if i.kevent fd then s.setWriteFilter fd false else s

end ServerApp

def tokenCharacters : Bytes :=
  literal "0123456789ABCDEFGHIJKLMNOPQRSTUVWXYZabcdefghijklmnopqrstuvwxyz"

/-- `generate_token`: eight characters drawn by `distribution(generator)`. -/
def generateToken (random : Nat → Fin 62) : Bytes :=
  (List.range 8).map fun k => tokenCharacters.getD (random k) 0

namespace ServerApp

def queueWriteTo (connection : ConnectionPtr) (packet : Bytes) (s : ServerApp) :
    Except Fault ServerApp := do
  let c ← s.load connection
  .ok ((s.store connection (queueWrite c packet)).log [.queueWrite connection packet])

/-- The reply of `handle_login_case` to a login it turns down. -/
def rejectLogin (i : Input) (connection : ConnectionPtr) (packet : Bytes)
    (s : ServerApp) : Except Fault ServerApp := do
  let s ← s.queueWriteTo connection packet
  let c ← s.load connection
  .ok ((s.store connection { c with status := .closing }).enableWriteEvent i c.fd)

def handleLoginCase (i : Input) (status : VerifyClientStatus)
    (connection : ConnectionPtr) (username : Bytes) (s : ServerApp) :
    Except Fault ServerApp :=
  match status with
  | .authorized => do
      let c ← s.load connection
      let s := s.store connection { c with status := .authenticated, lastSeen := i.now }
      let token := generateToken i.random
      let authPacket := createPacketStream .ack (literal "OK|" ++ token)
      let session : ClientSession :=
        { username := username
          token := token
          connection := some connection
          disconnectedAt := i.now
          state := .connected }
      let s := ClientManager.addSession session s
      let s ← s.queueWriteTo connection authPacket
      .ok (s.enableWriteEvent i c.fd)
  | .notAuthorized => rejectLogin i connection (createPacketStream .ack (literal "NO")) s
  | .userNotFound => rejectLogin i connection (createPacketStream .ack (literal "NO")) s
  | .execFailed => rejectLogin i connection (createPacketStream .error (literal "ERR")) s

/-- `client_manager_.disconnect(connection)`, its status not looked at. -/
def disconnectClient (i : Input) (connection : ConnectionPtr) (s : ServerApp) :
    Except Fault ServerApp :=
  (ClientManager.disconnect i (some connection) s).map Prod.snd

def handleRegisterClientStatus (i : Input) (status : RegisterClientStatus)
    (connection : ConnectionPtr) (s : ServerApp) : Except Fault ServerApp :=
  match status with
  | .execFailed => s.disconnectClient i connection
  | .clientRegistered => do
      let s ← s.queueWriteTo connection (createPacketStream .ack (literal "OK"))
      let c ← s.load connection
      .ok (s.enableWriteEvent i c.fd)
  | .unableToOpenDatabase => s.disconnectClient i connection
  | .usernameExists => s.disconnectClient i connection
  | .unknownError => s.disconnectClient i connection

def handleHandshakeClient (i : Input) (request : HandshakeRequest)
    (connection : ConnectionPtr) (s : ServerApp) : Except Fault ServerApp :=
  match request.kind with
  | .login =>
      s.handleLoginCase i (i.verifyClient request.username request.password) connection
        request.username
  | .reconnect =>
      if ClientManager.verifySession request.username request.token s then
        ClientManager.reconnectClient i request.username connection s
      else s.disconnectClient i connection
  | .register =>
      s.handleRegisterClientStatus i
        (i.registerClient request.username request.password) connection
  | .error => s.disconnectClient i connection

def handleHandshakeStreamStatus (i : Input) (result : HandshakeResult)
    (connection : ConnectionPtr) (s : ServerApp) : Except Fault ServerApp :=
  match result.status with
  | .incompletePacket => .ok s
  | .invalidProtocolError => s.disconnectClient i connection
  | .invalidAuthPacket => s.disconnectClient i connection
  | .validAuthPacket => s.handleHandshakeClient i result.request connection

def clientBroadcast (username message : Bytes) : Bytes :=
  createPacketStream .message (literal "U|" ++ username ++ literal "|" ++ message)

def serverBroadcast (message : Bytes) : Bytes :=
  createPacketStream .message (literal "S|" ++ message)

/-- `broadcast` and the loop over the descriptors it returns.  `sender` is the
connection whose message this is, if any. -/
def broadcastAndEnable (i : Input) (sender : Option ConnectionPtr) (senderFd : Fd)
    (packet : Bytes) (s : ServerApp) : ServerApp :=
  let (writeFds, s) := broadcast senderFd packet (s.log [.broadcast sender packet])
  writeFds.foldl (fun s fd => s.enableWriteEvent i fd) s

/-- `handle_process_stream_result`.  `session` is a copy of the session that the
pointer leads to, `none` for a null pointer. -/
def handleProcessStreamResult (i : Input) (result : ProcessStreamResult)
    (session : Option ClientSession) (message : Bytes) (s : ServerApp) :
    Except Fault ServerApp :=
  match result with
  | .incompletePacket => .ok s
  | .invalidProtocolError =>
      match session with
      | none => .error .nullSession
      | some _ => .ok s
  | .disconnectClient =>
      match session with
      | none => .error .nullSession
      | some session => (ClientManager.disconnect i session.connection s).map Prod.snd
  | .sendPong =>
      match session with
      | none => .ok s
      | some session =>
          match session.connection with
          | none => .ok s
          | some connection => do
              let s ← ClientManager.pong i connection s
              let c ← s.load connection
              .ok (s.enableWriteEvent i c.fd)
  | .printMessage =>
      match session with
      | none => .error .nullSession
      | some session =>
          match session.connection with
          | none => .error .danglingConnection
          | some connection => do
              let c ← s.load connection
              .ok (s.broadcastAndEnable i (some connection) c.fd
                (clientBroadcast session.username message))
  | .bufferEmpty => .ok s
  | .processComplete => .ok s

def handleReadResult (i : Input) (connection : ConnectionPtr) (result : ReadResult)
    (s : ServerApp) : Except Fault ServerApp :=
  match result with
  | .dataReceived => do
      let c ← s.load connection
      if c.status = .awaitingAuth then
        let (handshakeResult, rest) := processHandshakePacket c.rxBuffer
        let s := s.store connection { c with rxBuffer := rest }
        s.handleHandshakeStreamStatus i handshakeResult connection
      else
        let session := ClientManager.findSesssionFromConnection connection s
        let stream := processClientStream c.rxBuffer
        let s := s.store connection { c with rxBuffer := stream.rxBuffer }
        s.handleProcessStreamResult i stream.result session stream.message
  | .fatalError => s.disconnectClient i connection
  | .wantRead => .ok s
  | .wantWrite => do
      let c ← s.load connection
      let s := s.store connection { c with readWaitingForWrite := true }
      .ok (s.enableWriteEvent i c.fd)
  -- the `switch` has no case for these two
  | .connectionClosed => .ok s
  | .ignored => .ok s

def handleFlushResult (i : Input) (result : FlushResult) (connection : ConnectionPtr)
    (s : ServerApp) : Except Fault ServerApp :=
  match result with
  | .fatalError => s.disconnectClient i connection
  | .queueEmpty => do
      let c ← s.load connection
      let s := s.store connection { c with writeWaitingForRead := false }
      if c.status = .closing then s.disconnectClient i connection
      else if !c.readWaitingForWrite then .ok (s.disableWriteEvent i c.fd)
      else .ok s
  | .readWait => do
      let c ← s.load connection
      let s := s.store connection { c with writeWaitingForRead := true }
      .ok (s.disableWriteEvent i c.fd)
  | .writeWait => do
      let c ← s.load connection
      let s := s.store connection { c with writeWaitingForRead := false }
      .ok (s.enableWriteEvent i c.fd)

/-- `flush_write(connection)` followed by `handle_flush_result`. -/
def flush (i : Input) (connection : ConnectionPtr) (s : ServerApp) :
    Except Fault ServerApp := do
  let c ← s.load connection
  match flushWrite c i.sslWrite with
  | none => .error .impossible
  | some (result, c, calls) =>
      let s := (s.store connection c).log (calls.map (.sslWrite connection))
      s.handleFlushResult i result connection

/-- `handle_read(connection)` followed by `handle_read_result`. -/
def read (i : Input) (connection : ConnectionPtr) (s : ServerApp) :
    Except Fault ServerApp := do
  let c ← s.load connection
  match handleRead c i.sslRead with
  | none => .error .impossible
  | some (result, c) => (s.store connection c).handleReadResult i connection result

def readEvent (i : Input) (connection : Option ConnectionPtr) (s : ServerApp) :
    Except Fault ServerApp :=
  match connection with
  | none => .ok s
  | some connection => do
      let c ← s.load connection
      if c.readWaitingForWrite && c.writeWaitingForRead then .ok s
      else if c.readWaitingForWrite then .ok s
      else if c.writeWaitingForRead then
        (s.store connection { c with writeWaitingForRead := false }).flush i connection
      else s.read i connection

def writeEvent (i : Input) (connection : Option ConnectionPtr) (s : ServerApp) :
    Except Fault ServerApp :=
  match connection with
  | none => .ok s
  | some connection => do
      let c ← s.load connection
      if c.readWaitingForWrite && c.writeWaitingForRead then .ok s
      else if c.writeWaitingForRead then .ok s
      else if c.readWaitingForWrite then
        (s.store connection { c with readWaitingForWrite := false }).read i connection
      else s.flush i connection

def handleConsoleInputResult (i : Input) (result : ConsoleInputResult)
    (s : ServerApp) : Except Fault ServerApp :=
  match result.status with
  | .message => .ok (s.broadcastAndEnable i none (-1) (serverBroadcast result.buffer))
  | .invalidCommand => .ok s
  | .kickClient => (ClientManager.kick i result.buffer s).map Prod.snd
  | .quit => .ok s.stop
  | .noInput => .ok s

def consoleWriteEvent (i : Input) (keys : List Int) (s : ServerApp) :
    Except Fault ServerApp := do
  let (result, inputBuffer) ← readConsoleInput keys s.consoleInputBuffer
  (s.setConsoleInputBuffer inputBuffer).handleConsoleInputResult i result

def clientConnectionEvent (i : Input) (call : AcceptCall) (s : ServerApp) : ServerApp :=
  (ClientManager.acceptClient i call s).2

def timerEvent (i : Input) (s : ServerApp) : Except Fault ServerApp := do
  let s := ClientManager.markTimedOutConnections i s
  let s ← ClientManager.removeTimedOutConnections i s
  let s := ClientManager.markExpiredSessions i s
  .ok (ClientManager.removeExpiredSessions s)

/-- The dispatch of `run` on one event of `p_event_list`. -/
def dispatch (i : Input) (s : ServerApp) : Except Fault ServerApp :=
  match i.event with
  | .timer => s.timerEvent i
  | .console keys => s.consoleWriteEvent i keys
  | .accept call => .ok (s.clientConnectionEvent i call)
  | .read fd => s.readEvent i (ClientManager.findConnection fd s)
  | .write fd => s.writeEvent i (ClientManager.findConnection fd s)

end ServerApp

/-- The promises of the operating system that an event has to keep: the steady
clock does not run backwards, and `accept` returns a descriptor that is not
negative and not open already. -/
def Input.Possible (i : Input) (s : ServerApp) : Prop :=
  s.clock ≤ i.now ∧ ∀ fd ∈ i.event.accepted?, 0 ≤ fd ∧ s.openFd fd = false

instance (i : Input) (s : ServerApp) : Decidable (i.Possible s) :=
  inferInstanceAs (Decidable (_ ∧ _))

/-- One event.  The log of the new state holds what was done in this event. -/
def step (i : Input) (s : ServerApp) : Except Fault ServerApp :=
  if i.Possible s then (s.beginEvent i.now).dispatch i
  else .error .impossible

abbrev ServerRun (now : Time) :
    List (Transition ServerApp Input) → ServerApp → Prop :=
  Run step (initialState now)

end TChat.Server
