import TChat.Client.Io
import TChat.Client.MessageHandler
/-!
# Logging in and registering

`client/authorization.cpp`: the two exchanges a client makes with the server
before it enters the chat.  What the user types is a parameter, and so are the
outcomes of the TLS calls; the calls of `SSL_write` are handed back.
-/

namespace TChat.Client

open TChat.Common

inductive LoginStatus
  | success
  | authenticationRejected
  | connectionLost
  | protocolError
  deriving DecidableEq, Repr

structure LoginResult where
  status : LoginStatus
  username : Bytes
  token : Bytes
  deriving DecidableEq, Repr

def LoginResult.of (status : LoginStatus) : LoginResult := ⟨status, [], []⟩

inductive RegisterStatus
  | registered
  | userAlreadyExists
  | sqlErr
  | protocolError
  | connectionLost
  deriving DecidableEq, Repr

/-- The longest name or password that `read_username(36)` and `read_password(36)`
return. -/
def maxCredentialLength : Nat := 35

def credentials (username password : Bytes) : Bytes :=
  username ++ literal "|" ++ password

/-- What `login_client` makes of a packet that was read in full. -/
def judgeReply (username : Bytes) (reply : ProcessStreamResult) : LoginResult :=
  if reply.status = .invalidProtocolError then .of .protocolError
  else if reply.message = literal "NO" then .of .authenticationRejected
  else if literal "OK|" <+: reply.message ∧ 3 < reply.message.length then
    { status := .success
      username := username
      token := reply.message.drop 3 }
  else .of .protocolError

/-- The loop of `login_client`.  Every iteration that goes on has used an outcome
of `SSL_read`, so the number of outcomes bounds them; `fuel` counts them down. -/
def loginLoop (username : Bytes) :
    Nat → List SslRead → ClientConnection → Option (LoginResult × ClientConnection)
  | 0, _, _ => none
  | fuel + 1, reads, connection =>
      match handleRead connection reads with
      | none => none
      | some (readStatus, connection, reads) =>
          if readStatus ≠ .dataReceived then some (.of .connectionLost, connection)
          else
            let (processResult, rest) := processDataStream connection.rxBuffer
            let connection := { connection with rxBuffer := rest }
            if processResult.status = .incompletePacket then
              loginLoop username fuel reads connection
            else some (judgeReply username processResult, connection)

/-- `login_client`.  `none`: a TLS call has not returned yet. -/
def loginClient (username password : Bytes) (writes : List SslWrite) (reads : List SslRead)
    (connection : ClientConnection) :
    Option (LoginResult × ClientConnection × List SslWriteCall) :=
  if connection.ssl = none ∨ connection.fd < 0 then
    some (.of .connectionLost, connection, [])
  else
    let loginPacket := createPacketStream .login (credentials username password)
    match flushWrite (queueWrite connection loginPacket) writes with
    | none => none
    | some (writeStatus, connection, calls) =>
        if writeStatus ≠ .queueEmpty then some (.of .connectionLost, connection, calls)
        else
          (loginLoop username (reads.length + 1) reads connection).map
            fun (result, connection) => (result, connection, calls)

/-- The loop of `register_client` with the iterations it has left.  The `message`
it compares is a local variable that nothing is assigned to. -/
def registerLoop :
    Nat → List SslRead → ClientConnection → Option (RegisterStatus × ClientConnection)
  | 0, _, connection => some (.protocolError, connection)
  | left + 1, reads, connection =>
      let message : Bytes := []
      let (result, rest) := processDataStream connection.rxBuffer
      let connection := { connection with rxBuffer := rest }
      match result.status with
      | .acknowledgement =>
          if message = literal "OK" then some (.registered, connection)
          else if message = literal "NO" then some (.userAlreadyExists, connection)
          else some (.protocolError, connection)
      | .errorAck =>
          if message = literal "ERR" then some (.sqlErr, connection)
          else some (.protocolError, connection)
      | .bufferEmpty | .incompletePacket =>
          match handleRead connection reads with
          | none => none
          | some (readStatus, connection, reads) =>
              match readStatus with
              | .dataReceived => registerLoop left reads connection
              | .connectionClosed => some (.connectionLost, connection)
              | .fatalError => some (.connectionLost, connection)
              | .ignored => some (.connectionLost, connection)
              | .wantRead => some (.connectionLost, connection)
              | .wantWrite => some (.connectionLost, connection)
      | .invalidProtocolError => some (.protocolError, connection)
      | .printMessage => some (.protocolError, connection)
      | .receivedPong => some (.protocolError, connection)

/-- `register_client`.  `none`: a TLS call has not returned yet. -/
def registerClient (username password : Bytes) (writes : List SslWrite) (reads : List SslRead)
    (connection : ClientConnection) :
    Option (RegisterStatus × ClientConnection × List SslWriteCall) :=
  if connection.fd < 0 then some (.connectionLost, connection, [])
  else if connection.ssl = none then some (.connectionLost, connection, [])
  else
    let registerPacket := createPacketStream .register (credentials username password)
    match flushWrite (queueWrite connection registerPacket) writes with
    | none => none
    | some (writeStatus, connection, calls) =>
        if writeStatus ≠ .queueEmpty then some (.connectionLost, connection, calls)
        else
          (registerLoop 6 reads connection).map
            fun (status, connection) => (status, connection, calls)

end TChat.Client
