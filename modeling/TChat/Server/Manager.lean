import TChat.Server.Io
/-!
# The client manager

`server/manager.cpp`: the operations on the map of connections and the map of
sessions.  `i` is the input being handled; it supplies the clock and the
outcomes of system calls.
-/

namespace TChat.Server

open TChat.Common TChat.Lib

inductive DisconnectStatus
  | disconnected
  | clientNotFound
  deriving DecidableEq, Repr

inductive KickStatus
  | kicked
  | clientNotFound
  deriving DecidableEq, Repr

inductive AcceptClientStatus
  | failedHandshake
  | acceptedClient
  | noPendingConnection
  deriving DecidableEq, Repr

inductive RemoveSessionStatus
  | removed
  | sessionNotFound
  | sessionStillConnected
  | invalidState
  deriving DecidableEq, Repr

namespace ClientManager

/-- `SSL_free(ssl); close(fd)`, the way `accept_client` backs out. -/
def abandon (s : ServerApp) (fd : Fd) (ssl : Nat) : ServerApp :=
  (s.log [.sslFree ssl]).closeFd fd

/-- `accept_client` once `accept` has returned the descriptor `fd`. -/
def setUpClient (i : Input) (fd : Fd) (sslNew sslSetFd sslAccept : Bool)
    (s : ServerApp) : AcceptClientStatus × ServerApp :=
  let s := { (s.log [.accept fd]) with
    openFd := fun other => if other = fd then true else s.openFd other }
  if !sslNew then (.failedHandshake, s.closeFd fd)
  else
    let ssl := s.nextSsl
    let s := { (s.log [.sslNew ssl]) with nextSsl := s.nextSsl + 1 }
    if !sslSetFd then (.failedHandshake, abandon s fd ssl)
    else if !sslAccept then (.failedHandshake, abandon s fd ssl)
    else if (s.connections.find? fd).isSome then (.failedHandshake, abandon s fd ssl)
    else
      let connection := ClientConnection.create s.nextNode fd (some ssl) i.now
      let s := { s with
        connections := s.connections.insert fd connection
        nextNode := s.nextNode + 1 }
      if !i.kevent fd then
        let s := abandon s fd ssl
        (.failedHandshake, { s with connections := s.connections.erase fd })
      else (.acceptedClient, s)

def acceptClient (i : Input) (call : AcceptCall) (s : ServerApp) :
    AcceptClientStatus × ServerApp :=
  match s.sslCtx with
  | none => (.failedHandshake, s)
  | some _ =>
      match call with
      | .wouldBlock => (.noPendingConnection, s)
      | .failed => (.failedHandshake, s)
      | .accepted fd sslNew sslSetFd sslAccept =>
          setUpClient i fd sslNew sslSetFd sslAccept s

/-- What `disconnect` does to the session that holds the connection. -/
def detach (now : Time) (session : ClientSession) : ClientSession :=
  if session.state = .connected then
    { session with connection := none, state := .disconnected, disconnectedAt := now }
  else { session with connection := none }

/-- `disconnect` past its two checks: the entry found is the one `connection`
points to, and `ssl` is its SSL object. -/
def release (now : Time) (connection : ConnectionPtr) (ssl : Option Nat)
    (s : ServerApp) : ServerApp :=
  let s := { s with
    sessions := s.sessions.modifyFirst
      (fun session => session.connection = some connection) (detach now) }
  let s := (s.log [.disconnect connection]).log
    (match ssl with
      | some ssl => [.sslFree ssl]
      | none => [])
  let s := s.closeFd connection.fd
  { s with connections := s.connections.erase connection.fd }

def disconnect (i : Input) (connection : Option ConnectionPtr) (s : ServerApp) :
    Except Fault (DisconnectStatus × ServerApp) :=
  match connection with
  | none => .ok (.clientNotFound, s)
  | some p => do
      let c ← s.load p
      match s.connections.find? c.fd with
      | none => .ok (.clientNotFound, s)
      | some found =>
          if (⟨c.fd, found.node⟩ : ConnectionPtr) ≠ p then .ok (.clientNotFound, s)
          else .ok (.disconnected, release i.now p found.ssl s)

def removeSession (username : Bytes) (s : ServerApp) : RemoveSessionStatus × ServerApp :=
  match s.sessions.find? username with
  | none => (.sessionNotFound, s)
  | some session =>
      if session.connection ≠ none then (.sessionStillConnected, s)
      else
        match session.state with
        | .connected | .reconnected => (.invalidState, s)
        | .disconnected | .kicked | .expired =>
            (.removed, { s with sessions := s.sessions.erase session.username })

/-- `kick`.  The state is set on a copy of the stored session. -/
def kick (i : Input) (username : Bytes) (s : ServerApp) :
    Except Fault (KickStatus × ServerApp) :=
  match s.sessions.find? username with
  | none => .ok (.clientNotFound, s)
  | some stored =>
      let session := { stored with state := .kicked }
      match session.connection with
      | none => .ok (.kicked, s)
      | some connection => do
          let (status, s) ← disconnect i (some connection) s
          if status ≠ .disconnected then .ok (.clientNotFound, s) else .ok (.kicked, s)

def pong (i : Input) (connection : ConnectionPtr) (s : ServerApp) :
    Except Fault ServerApp := do
  let c ← s.load connection
  if c.fd < 0 ∨ c.ssl = none then .ok s
  else
    let packet := createPacketStream .pong []
    let c := queueWrite { c with lastSeen := i.now } packet
    .ok ((s.store connection c).log [.queueWrite connection packet])

def findSesssionFromConnection (connection : ConnectionPtr) (s : ServerApp) :
    Option ClientSession :=
  (s.sessions.entries.find? fun entry => entry.2.connection = some connection).map Prod.snd

def reconnectClient (i : Input) (username : Bytes) (connection : ConnectionPtr)
    (s : ServerApp) : Except Fault ServerApp := do
  let c ← s.load connection
  match s.sessions.find? username, s.connections.find? c.fd with
  | some session, some _ =>
      if session.state = .disconnected then
        let session := { session with
          connection := some connection
          state := .reconnected
          disconnectedAt := 0 }
        let s := { s with sessions := s.sessions.insert username session }
        .ok (s.store connection { c with status := .authenticated, lastSeen := i.now })
      else .ok s
  | _, _ => .ok s

/-- One iteration of `mark_timed_out_connections`. -/
def markIfTimedOut (i : Input) (c : ClientConnection) : ClientConnection :=
  if c.status = .closing ∨ c.status = .awaitingAuth then c
  else if seconds 10 ≤ i.now - c.lastSeen then { c with status := .closing }
  else c

def markTimedOutConnections (i : Input) (s : ServerApp) : ServerApp :=
  { s with connections := s.connections.mapEntries fun _ c => markIfTimedOut i c }

/-- One iteration of `remove_timed_out_connections`, at the entry with key `fd`. -/
def removeIfTimedOut (i : Input) (fd : Fd) (s : ServerApp) : Except Fault ServerApp :=
  match s.connections.find? fd with
  | none => .ok s
  | some c =>
      if c.status = .awaitingAuth then .ok s
      else if c.status = .closing ∧ c.txQueue = [] then
        (disconnect i (some ⟨fd, c.node⟩) s).map Prod.snd
      else .ok s

/-- `remove_timed_out_connections`.  Erasing the current entry leaves the
iteration over the others as it was. -/
def removeTimedOutConnections (i : Input) (s : ServerApp) : Except Fault ServerApp :=
  s.connections.entries.foldlM (fun s entry => removeIfTimedOut i entry.1 s) s

/-- One iteration of `mark_expired_sessions`. -/
def markIfExpired (i : Input) (session : ClientSession) : ClientSession :=
  if session.state ≠ .disconnected then session
  else if session.connection ≠ none then session
  else if seconds 60 ≤ i.now - session.disconnectedAt then
    { session with state := .expired }
  else session

def markExpiredSessions (i : Input) (s : ServerApp) : ServerApp :=
  { s with sessions := s.sessions.mapEntries fun _ session => markIfExpired i session }

def removeExpiredSessions (s : ServerApp) : ServerApp :=
  let expiredUsernames :=
    (s.sessions.entries.filter fun entry => entry.2.state = .expired).map Prod.fst
  expiredUsernames.foldl (fun s username => (removeSession username s).2) s

def verifySession (username token : Bytes) (s : ServerApp) : Bool :=
  match s.sessions.find? username with
  | none => false
  | some session => session.token = token

def findConnection (fd : Fd) (s : ServerApp) : Option ConnectionPtr :=
  (s.connections.find? fd).map fun c => ⟨fd, c.node⟩

def addSession (session : ClientSession) (s : ServerApp) : ServerApp :=
  { s with sessions := s.sessions.insert session.username session }

end ClientManager

end TChat.Server
