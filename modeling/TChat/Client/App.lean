import TChat.Client.Authorization
/-!
# The client

`client/app.cpp`: the members of `ClientApp` that the handlers use, and what
`run` does for each event it dequeues.  The actions are a log of what the client
has done since it started, and `writeFilter` says whether `EVFILT_WRITE` is
enabled for its connection.
-/

namespace TChat.Client

open TChat.Common

inductive PrintKind
  | self
  | server
  | system
  | client
  | admin
  | error
  deriving DecidableEq, Repr

inductive SessionState
  | connected
  | reconnected
  | kicked
  | expired
  | disconnected
  deriving DecidableEq, Repr

inductive LoginAction
  | enterChat
  | retryLogin
  | abort
  deriving DecidableEq, Repr

/-- What the client did: a result handed to `handle_process_stream_result`, a call
of `print_message`, a call of `SSL_write`, a call of `disconnect`. -/
inductive Action
  | handled (result : ProcessStreamResult)
  | print (message : Bytes) (kind : PrintKind) (sender : Bytes)
  | sslWrite (call : SslWriteCall)
  | disconnect
  deriving DecidableEq, Repr

/-- `class ClientApp`, its connection included. -/
structure ClientApp where
  connection : ClientConnection
  running : Bool
  username : Bytes
  token : Bytes
  state : SessionState
  consoleInputBuffer : Bytes
  writeFilter : Bool
  actions : List Action
  deriving DecidableEq, Repr

/-- Why an event is not handled to its end: `emptyString` is undefined behaviour
of the C++ code, `impossible` an outcome of TLS that cannot be. -/
inductive Fault
  | emptyString
  | impossible
  deriving DecidableEq, Repr

inductive Event
  | read
  | write
  | console (keys : List Int)
  | timer
  deriving DecidableEq, Repr

/-- One event with everything the environment decides while it is handled. -/
structure Input where
  event : Event
  now : Int
  sslRead : List SslRead
  sslWrite : List SslWrite
  kevent : Bool

/-- Everything the environment decides while the client tries to log in once more. -/
structure Attempt where
  establishing : Establishing
  username : Bytes
  password : Bytes
  writes : List SslWrite
  reads : List SslRead

/-- What becomes of an attempt: a TLS call has not returned, the server cannot be reached, or
`login_client` and `handle_login_result` have returned. -/
inductive Retry (α : Type)
  | waits
  | unreachable (s : α)
  | tried (result : LoginResult) (calls : List SslWriteCall) (action : LoginAction) (s : α)

def heartbeatTimeout : Int := 10 * 1000000000

namespace ClientApp

@[simps] def withConnection (s : ClientApp) (connection : ClientConnection) : ClientApp :=
  { s with connection := connection }

@[simps] def log (s : ClientApp) (actions : List Action) : ClientApp :=
  { s with actions := s.actions ++ actions }

def printMessage (s : ClientApp) (message : Bytes) (kind : PrintKind)
    (sender : Bytes := []) : ClientApp :=
  s.log [.print message kind sender]

@[simps] def stop (s : ClientApp) : ClientApp := { s with running := false }

def enableWriteEvent (i : Input) (s : ClientApp) : ClientApp :=
  if i.kevent then { s with writeFilter := true } else s

def disableWriteEvent (i : Input) (s : ClientApp) : ClientApp :=
  if i.kevent then { s with writeFilter := false } else s

/-- `disconnect`.  Closing the descriptor drops its filters. -/
def disconnect (s : ClientApp) : ClientApp :=
  let s := s.log [.disconnect]
  if s.connection.fd < 0 ∧ s.connection.ssl = none then { s with state := .disconnected }
  else
    { s with
      connection := closeConnection s.connection
      writeFilter := false
      state := .disconnected }

def handleLoginResult (result : LoginResult) (s : ClientApp) : LoginAction × ClientApp :=
  match result.status with
  | .authenticationRejected => (.retryLogin, s)
  | .connectionLost => (.retryLogin, s)
  | .protocolError => (.abort, s)
  | .success =>
      (.enterChat,
        { s with
          state := .connected
          connection := { s.connection with status := .authenticated }
          username := result.username
          token := result.token })

/-- `init_chat`, with the outcomes of `set_nonblocking`, `kqueue` and `kevent`.  A
new kqueue has no filters. -/
def initChat (now : Int) (nonblocking kqueue kevent : Bool) (s : ClientApp) :
    Bool × ClientApp :=
  if s.connection.fd < 0 ∨ s.connection.ssl = none then (false, s)
  else if s.connection.status ≠ .authenticated then (false, s)
  else
    let s := s.withConnection { s.connection with lastServerActivity := now }
    if !nonblocking then (false, s)
    else if !kqueue then (false, s)
    else if !kevent then (false, s)
    else (true, { s with writeFilter := false, running := true })

def handleEstablishConnectionStatus : EstablishConnectionStatus → Bool
  | .connectionFailed => false
  | .handshakeFailed => false
  | .established => true

def handleRegisterStatus (status : RegisterStatus) (s : ClientApp) : Bool × ClientApp :=
  match status with
  | .registered => (true, s)
  | .userAlreadyExists =>
      (false, (s.printMessage (literal "Username already exists.") .error).disconnect)
  | .sqlErr => (false, (s.printMessage (literal "Server database error.") .error).disconnect)
  | .protocolError =>
      (false, (s.printMessage (literal "Invalid server response.") .error).disconnect)
  | .connectionLost =>
      (false, (s.printMessage (literal "Connection lost during registration.") .error).disconnect)

/-- The part of the case `RetryLogin` up to `establish_connection`. -/
def reconnect (a : Attempt) (s : ClientApp) : EstablishConnectionStatus × ClientApp :=
  let s := s.disconnect
  let (status, connection) := establishConnection s.connection a.establishing
  (status, s.withConnection connection)

/-- The case `RetryLogin` of `perform_login_action`. -/
def retryLogin (a : Attempt) (s : ClientApp) : Retry ClientApp :=
  let (status, s) := s.reconnect a
  if !handleEstablishConnectionStatus status then .unreachable s
  else
    match loginClient a.username a.password a.writes a.reads s.connection with
    | none => .waits
    | some (result, connection, calls) =>
        let (action, s) := (s.withConnection connection).handleLoginResult result
        .tried result calls action s

/-- `perform_login_action`, with the attempts that are still to come.  `none`: it has not
returned. -/
def performLoginAction (now : Int) (nonblocking kqueue kevent : Bool) :
    List Attempt → LoginAction → ClientApp → Option (Bool × ClientApp)
  | _, .enterChat, s => some (s.initChat now nonblocking kqueue kevent)
  | _, .abort, s => some (false, s.disconnect)
  | [], .retryLogin, _ => none
  | a :: attempts, .retryLogin, s =>
      match s.retryLogin a with
      | .waits => none
      | .unreachable s => some (false, s)
      | .tried _ _ action s =>
          performLoginAction now nonblocking kqueue kevent attempts action s

/-- `handle_process_stream_result`: whether the caller goes on, and the new state. -/
def handleProcessStreamResult (now : Int) (result : ProcessStreamResult) (s : ClientApp) :
    Bool × ClientApp :=
  let s := s.log [.handled result]
  match result.status with
  | .bufferEmpty => (true, s)
  | .incompletePacket => (true, s)
  | .invalidProtocolError =>
      (false, (s.printMessage (literal "Invalid server packet") .error).disconnect)
  | .receivedPong =>
      (true, s.withConnection { s.connection with lastServerActivity := now })
  | .printMessage =>
      if result.sender = literal "SERVER" then (true, s.printMessage result.message .server)
      else (true, s.printMessage result.message .client result.sender)
  | .acknowledgement => (true, s.printMessage result.message .server)
  | .errorAck => (true, s.printMessage result.message .error)

/-- The loop of `process_received_data`, `none` when it has not returned after
`fuel` iterations. -/
def processReceivedLoop (now : Int) : Nat → ClientApp → Option ClientApp
  | 0, _ => none
  | fuel + 1, s =>
      let (result, rest) := processDataStream s.connection.rxBuffer
      let s := s.withConnection { s.connection with rxBuffer := rest }
      let (goesOn, s) := s.handleProcessStreamResult now result
      if !goesOn then some s
      else if result.status = .bufferEmpty ∨ result.status = .incompletePacket then some s
      else processReceivedLoop now fuel s

/-- `process_received_data`.  Every iteration that goes on erases a packet, so there
are no more of them than bytes in the buffer, and one. -/
def processReceivedData (now : Int) (s : ClientApp) : ClientApp :=
  (processReceivedLoop now (s.connection.rxBuffer.length + 1) s).getD s

def handleReadResult (i : Input) (result : ReadResult) (s : ClientApp) : ClientApp :=
  match result with
  | .dataReceived => s.processReceivedData i.now
  | .fatalError => (s.printMessage (literal "Connection read failed!.") .error).disconnect
  | .wantRead => s
  | .wantWrite =>
      (s.withConnection { s.connection with readWaitingForWrite := true }).enableWriteEvent i
  | .connectionClosed =>
      ((s.printMessage (literal "Server disconnected.") .error).disconnect).stop
  | .ignored => s

def handleFlushResult (i : Input) (result : FlushResult) (s : ClientApp) : ClientApp :=
  match result with
  | .queueEmpty =>
      if s.connection.status = .closing then s.disconnect
      else if !s.connection.readWaitingForWrite then s.disableWriteEvent i
      else s
  | .readWait =>
      (s.withConnection { s.connection with writeWaitingForRead := true }).disableWriteEvent i
  | .writeWait => s.enableWriteEvent i
  | .fatalError => s.disconnect.stop

/-- `handle_read` followed by `handle_read_result`. -/
def read (i : Input) (s : ClientApp) : Except Fault ClientApp :=
  match handleRead s.connection i.sslRead with
  | none => .error .impossible
  | some (result, connection, _) => .ok ((s.withConnection connection).handleReadResult i result)

/-- `flush_write` followed by `handle_flush_result`. -/
def flush (i : Input) (s : ClientApp) : Except Fault ClientApp :=
  match flushWrite s.connection i.sslWrite with
  | none => .error .impossible
  | some (result, connection, calls) =>
      .ok (((s.withConnection connection).log (calls.map .sslWrite)).handleFlushResult i result)

def queueAndEnable (i : Input) (packet : Bytes) (s : ClientApp) : ClientApp :=
  let wasEmpty := s.connection.txQueue = []
  let s := s.withConnection (queueWrite s.connection packet)
  if wasEmpty then s.enableWriteEvent i else s

def handleTimerEvent (i : Input) (s : ClientApp) : ClientApp :=
  if heartbeatTimeout ≤ i.now - s.connection.lastServerActivity then
    ((s.printMessage (literal "Server heartbeat timeout.") .error).disconnect).stop
  else s.queueAndEnable i (createPacketStream .ping [])

def readEvent (i : Input) (s : ClientApp) : Except Fault ClientApp :=
  if s.connection.readWaitingForWrite && s.connection.writeWaitingForRead then .ok s
  else if s.connection.readWaitingForWrite then .ok s
  else if s.connection.writeWaitingForRead then
    (s.withConnection { s.connection with writeWaitingForRead := false }).flush i
  else s.read i

def writeEvent (i : Input) (s : ClientApp) : Except Fault ClientApp :=
  if s.connection.readWaitingForWrite && s.connection.writeWaitingForRead then .ok s
  else if s.connection.writeWaitingForRead then .ok s
  else if s.connection.readWaitingForWrite then
    (s.withConnection { s.connection with readWaitingForWrite := false }).read i
  else s.flush i

def handleConsoleInputResult (i : Input) (result : ConsoleInputResult) (s : ClientApp) :
    ClientApp :=
  match result.status with
  | .message =>
      (s.queueAndEnable i (createPacketStream .message result.buffer)).printMessage
        result.buffer .self
  | .invalidCommand =>
      s.printMessage (literal "Invalid Command! : <" ++ result.buffer ++ literal ">") .error
  | .quit => (s.printMessage (literal "Quitting...") .system).stop
  | .noInput => s

def consoleWriteEvent (i : Input) (keys : List Int) (s : ClientApp) : Except Fault ClientApp :=
  match readConsoleInput keys s.consoleInputBuffer with
  | none => .error .emptyString
  | some (result, inputBuffer) =>
      .ok ({ s with consoleInputBuffer := inputBuffer }.handleConsoleInputResult i result)

/-- The dispatch of `run` on one event of `p_event_list`. -/
def step (i : Input) (s : ClientApp) : Except Fault ClientApp :=
  match i.event with
  | .timer => .ok (s.handleTimerEvent i)
  | .console keys => s.consoleWriteEvent i keys
  | .read => s.readEvent i
  | .write => s.writeEvent i

/-! ## The connection behind the filters and the screen -/

variable (i : Input) (s : ClientApp)

@[simp] theorem printMessage_connection (message : Bytes) (kind : PrintKind) (sender : Bytes) :
    (s.printMessage message kind sender).connection = s.connection :=
  rfl

@[simp] theorem enableWriteEvent_connection :
    (s.enableWriteEvent i).connection = s.connection := by
  unfold enableWriteEvent
  split_ifs <;> rfl

@[simp] theorem disableWriteEvent_connection :
    (s.disableWriteEvent i).connection = s.connection := by
  unfold disableWriteEvent
  split_ifs <;> rfl

@[simp] theorem queueAndEnable_connection (packet : Bytes) :
    (s.queueAndEnable i packet).connection = queueWrite s.connection packet := by
  unfold queueAndEnable
  dsimp only
  split_ifs <;> simp

end ClientApp

end TChat.Client
