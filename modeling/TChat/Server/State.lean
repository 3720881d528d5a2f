import TChat.Common.Outgoing
import TChat.Lib.OrderedMap
import TChat.Lib.Runs
/-!
# The server's state

The records of `server/manager.hpp`, the two maps of `ClientManager`, the
members of `ServerApp` that the event handlers use, and the part of the
operating system they act on: the enabled write filters of the kqueue, the open
descriptors and a log of the calls made while the current event is handled.

A `ClientConnection *` is the address of a map node.  Nodes are numbered as they
are allocated and a number is never used again, so a pointer to an erased entry
can be told from a pointer to a later entry with the same descriptor;
dereferencing one is a fault.
-/

namespace TChat.Server

open TChat.Common TChat.Lib

abbrev Fd := Int

/-- A `steady_clock` reading, in nanoseconds. -/
abbrev Time := Int

def seconds (n : Nat) : Time := n * 1000000000

/-- A `ClientConnection *`: the key of the map node and its serial number. -/
structure ConnectionPtr where
  fd : Fd
  node : Nat
  deriving DecidableEq, Repr

inductive ConnectionStatus
  | awaitingAuth
  | authenticated
  | closing
  deriving DecidableEq, Repr

inductive SessionState
  | connected
  | reconnected
  | kicked
  | expired
  | disconnected
  deriving DecidableEq, Repr

/-- `struct ClientConnection`.  `node` is the serial number of the map node the
record lives in. -/
structure ClientConnection extends Outgoing where
  node : Nat
  fd : Fd
  ssl : Option Nat
  rxBuffer : Bytes
  lastSeen : Time
  status : ConnectionStatus
  readWaitingForWrite : Bool
  deriving DecidableEq, Repr

/-- The constructor `ClientConnection(int fd, SSL *ssl)`, run at time `now` for
the map node `node`. -/
def ClientConnection.create (node : Nat) (fd : Fd) (ssl : Option Nat) (now : Time) :
    ClientConnection where
  txQueue := []
  txOffset := 0
  writeWaitingForRead := false
  node := node
  fd := fd
  ssl := ssl
  rxBuffer := []
  lastSeen := now
  status := .awaitingAuth
  readWaitingForWrite := false

@[simps toOutgoing node fd ssl rxBuffer lastSeen status readWaitingForWrite]
def ClientConnection.withOutgoing (c : ClientConnection) (out : Outgoing) :
    ClientConnection :=
  ⟨out, c.node, c.fd, c.ssl, c.rxBuffer, c.lastSeen, c.status, c.readWaitingForWrite⟩

structure ClientSession where
  username : Bytes
  token : Bytes
  connection : Option ConnectionPtr
  disconnectedAt : Time
  state : SessionState
  deriving DecidableEq, Repr

/-- What the server did, in order: packets handed to `queue_write`, calls of
`broadcast`, connections taken down by `disconnect`, calls of `SSL_write`, and
descriptors and SSL objects obtained and released. -/
inductive Action
  | queueWrite (connection : ConnectionPtr) (packet : Bytes)
  | broadcast (sender : Option ConnectionPtr) (packet : Bytes)
  | disconnect (connection : ConnectionPtr)
  | sslWrite (connection : ConnectionPtr) (call : SslWriteCall)
  | accept (fd : Fd)
  | close (fd : Fd)
  | sslNew (ssl : Nat)
  | sslFree (ssl : Nat)
  deriving DecidableEq, Repr

/-- `class ServerApp`, its `client_manager_` included. -/
structure ServerApp where
  connections : OrderedMap Fd ClientConnection
  sessions : OrderedMap Bytes ClientSession
  sslCtx : Option Nat
  consoleInputBuffer : Bytes
  running : Bool
  writeFilter : Fd → Bool
  openFd : Fd → Bool
  nextNode : Nat
  nextSsl : Nat
  clock : Time
  actions : List Action

/-- The server after `initialize()`, started at time `now`: no client yet, and
descriptors other than clients' are not tracked. -/
def initialState (now : Time) : ServerApp where
  connections := .empty
  sessions := .empty
  sslCtx := some 0
  consoleInputBuffer := []
  running := true
  writeFilter := fun _ => false
  openFd := fun _ => false
  nextNode := 0
  nextSsl := 0
  clock := now
  actions := []

/-- Why a step does not complete.  The first three are undefined behaviour of
the C++ code; `impossible` marks an event the environment cannot produce, such
as a clock that runs backwards or an `SSL_read` of more bytes than asked for. -/
inductive Fault
  | nullSession
  | danglingConnection
  | emptyString
  | impossible
  deriving DecidableEq, Repr

namespace ServerApp

def deref (s : ServerApp) (connection : ConnectionPtr) : Option ClientConnection :=
  match s.connections.find? connection.fd with
  | some c => if c.node = connection.node then some c else none
  | none => none

/-- Reads through a pointer that the code dereferences. -/
def load (s : ServerApp) (connection : ConnectionPtr) : Except Fault ClientConnection :=
  match s.deref connection with
  | some c => .ok c
  | none => .error .danglingConnection

@[simps] def store (s : ServerApp) (connection : ConnectionPtr) (c : ClientConnection) :
    ServerApp :=
  { s with connections := s.connections.insert connection.fd c }

@[simps] def log (s : ServerApp) (actions : List Action) : ServerApp :=
  { s with actions := s.actions ++ actions }

@[simps] def setConsoleInputBuffer (s : ServerApp) (inputBuffer : Bytes) : ServerApp :=
  { s with consoleInputBuffer := inputBuffer }

@[simps] def stop (s : ServerApp) : ServerApp := { s with running := false }

@[simps] def setWriteFilter (s : ServerApp) (fd : Fd) (enabled : Bool) : ServerApp :=
  { s with writeFilter := fun other => if other = fd then enabled else s.writeFilter other }

/-- `close`: the kernel drops the filters of the descriptor with it. -/
@[simps!] def closeFd (s : ServerApp) (fd : Fd) : ServerApp :=
  { (s.setWriteFilter fd false).log [.close fd] with
    openFd := fun other => if other = fd then false else s.openFd other }

/-- The state in which the handling of an event begins: the clock has moved on
and nothing has been done yet. -/
@[simps] def beginEvent (s : ServerApp) (now : Time) : ServerApp :=
  { s with clock := now, actions := [] }

end ServerApp

/-! ## What an event brings -/

inductive VerifyClientStatus
  | execFailed
  | userNotFound
  | notAuthorized
  | authorized
  deriving DecidableEq, Repr

inductive RegisterClientStatus
  | unableToOpenDatabase
  | usernameExists
  | execFailed
  | clientRegistered
  | unknownError
  deriving DecidableEq, Repr

inductive AcceptCall
  | wouldBlock
  | failed
  | accepted (fd : Fd) (sslNew sslSetFd sslAccept : Bool)
  deriving DecidableEq, Repr

/-- The events `run` dispatches.  `console` carries what `wgetch` returns until
it has no key left. -/
inductive Event
  | accept (call : AcceptCall)
  | read (fd : Fd)
  | write (fd : Fd)
  | console (keys : List Int)
  | timer
  deriving DecidableEq, Repr

def Event.accepted? : Event → Option Fd
  | .accept (.accepted fd _ _ _) => some fd
  | _ => none

/-- One event with everything the environment decides while it is handled: the
time, the outcomes of the TLS calls in order, the answers of the user database,
the random numbers, and which `kevent` registrations succeed. -/
structure Input where
  event : Event
  now : Time
  sslRead : List SslRead
  sslWrite : List SslWrite
  verifyClient : Bytes → Bytes → VerifyClientStatus
  registerClient : Bytes → Bytes → RegisterClientStatus
  random : Nat → Fin 62
  kevent : Fd → Bool

end TChat.Server
