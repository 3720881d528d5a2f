import TChat.Server.Io
/-!
# Client I/O

The client's side of `client/connection.hpp` and `client/io.cpp`: its one
connection, the writes and reads on it, and the console.  `flush_write` is the
server's, word for word, except that `tx_offset` is an `int`.  The functions of
the C library and the keys of curses are those of the server's module.
-/

namespace TChat.Client

open TChat.Common
open TChat.Server (nextWord isPrint keyErr keyEnter keyBackspace maxInputLength)

inductive ConnectionStatus
  | awaitingAuth
  | authenticated
  | closing
  deriving DecidableEq, Repr

/-- `struct ClientConnection`.  `lastServerActivity` is a `steady_clock` reading
in nanoseconds. -/
structure ClientConnection extends Outgoing where
  fd : Int
  ssl : Option Nat
  rxBuffer : Bytes
  readWaitingForWrite : Bool
  lastServerActivity : Int
  status : ConnectionStatus
  deriving DecidableEq, Repr

/-- The connection after `establish_connection` has succeeded on a new
`ConnectionManager`. -/
def ClientConnection.establish (fd : Int) (ssl : Nat) (now : Int) : ClientConnection where
  txQueue := []
  txOffset := 0
  writeWaitingForRead := false
  fd := fd
  ssl := some ssl
  rxBuffer := []
  readWaitingForWrite := false
  lastServerActivity := now
  status := .awaitingAuth

inductive EstablishConnectionStatus
  | connectionFailed
  | handshakeFailed
  | established
  deriving DecidableEq, Repr

/-- How `connect` and `SSL_connect` turn out.  A descriptor that has been connected is not
negative. -/
inductive Establishing
  | connectFails
  | handshakeFails
  | succeeds (fd ssl : Nat)
  deriving DecidableEq, Repr

def establishConnection (connection : ClientConnection) :
    Establishing → EstablishConnectionStatus × ClientConnection
  | .connectFails => (.connectionFailed, connection)
  | .handshakeFails => (.handshakeFailed, connection)
  | .succeeds fd ssl =>
      (.established, { connection with fd := fd, ssl := some ssl, status := .awaitingAuth })

@[simps toOutgoing ssl]
def ClientConnection.withOutgoing (c : ClientConnection) (out : Outgoing) :
    ClientConnection :=
  ⟨out, c.fd, c.ssl, c.rxBuffer, c.readWaitingForWrite, c.lastServerActivity, c.status⟩

def queueWrite (connection : ClientConnection) (data : Bytes) : ClientConnection :=
  connection.withOutgoing (connection.toOutgoing.queueWrite data)

/-- `tx_offset` is an `int` and is read back as a `size_t`: the low 32 bits are
kept and the sign is extended. -/
def storeOffset (offset : Nat) : Nat :=
  if offset % 2 ^ 32 < 2 ^ 31 then offset % 2 ^ 32
  else offset % 2 ^ 32 + (2 ^ 64 - 2 ^ 32)

/-- `flush_write`, with the calls of `SSL_write` it makes. -/
def flushWrite (connection : ClientConnection) (outcomes : List SslWrite) :
    Option (FlushResult × ClientConnection × List SslWriteCall) :=
  match connection.ssl with
  | none => some (.fatalError, connection, [])
  | some _ =>
      (flushLoop storeOffset outcomes connection.toOutgoing).map fun flush =>
        (flush.result, connection.withOutgoing flush.outgoing, flush.calls)

inductive ReadResult
  | dataReceived
  | wantRead
  | wantWrite
  | connectionClosed
  | ignored
  | fatalError
  deriving DecidableEq, Repr

def readBufferSize : Nat := maxMessagePayloadSize

/-- The loop of `handle_read`, with the outcomes of `SSL_read` it has not used.
`none`: `SSL_read` has not returned yet, or not in a way it can. -/
def readLoop :
    List SslRead → ClientConnection → Option (ReadResult × ClientConnection × List SslRead)
  | [], _ => none
  | .received bytes :: more, c =>
      if bytes = [] ∨ readBufferSize < bytes.length then none
      else
        some (.dataReceived,
          { c with rxBuffer := c.rxBuffer ++ bytes, readWaitingForWrite := false }, more)
  | .failed .wantRead :: more, c => some (.wantRead, { c with readWaitingForWrite := false }, more)
  | .failed .wantWrite :: more, c => some (.wantWrite, { c with readWaitingForWrite := true }, more)
  | .failed .zeroReturn :: more, c => some (.connectionClosed, c, more)
  | .failed (.syscall .eintr) :: more, c => readLoop more c
  | .failed (.syscall .eagain) :: more, c => some (.wantRead, c, more)
  | .failed _ :: more, c => some (.fatalError, c, more)

def handleRead (connection : ClientConnection) (outcomes : List SslRead) :
    Option (ReadResult × ClientConnection × List SslRead) :=
  if connection.fd < 0 then some (.fatalError, connection, outcomes)
  else if connection.ssl = none then some (.fatalError, connection, outcomes)
  else if connection.status = .closing then some (.ignored, connection, outcomes)
  else readLoop outcomes connection

def closeConnection (connection : ClientConnection) : ClientConnection :=
  { connection with
    ssl := none
    fd := -1
    status := .closing
    txQueue := []
    rxBuffer := []
    txOffset := 0
    readWaitingForWrite := false
    writeWaitingForRead := false }

/-! ## The prompts -/

/-- `read_username`.  `getnstr` stores at most `max_size - 1` bytes of what is typed, and
the string ends at the first NUL. -/
def readUsername (maxSize : Nat) (typed : Bytes) : Bytes :=
  (typed.take (maxSize - 1)).takeWhile (· ≠ 0)

/-- `read_password`, with the characters of `password` so far.  `none`: it still waits for
a key. -/
def readPassword (maxSize : Nat) : List Int → Bytes → Option Bytes
  | [], password => if password.length < maxSize - 1 then none else some password
  | ch :: keys, password =>
      if password.length < maxSize - 1 then
        if ch = 10 ∨ ch = 13 then some password
        else if ch = keyBackspace ∨ ch = 127 ∨ ch = 8 then
          readPassword maxSize keys password.dropLast
        else if 32 ≤ ch ∧ ch ≤ 126 then
          readPassword maxSize keys (password ++ [UInt8.ofNat ch.toNat])
        else readPassword maxSize keys password
      else some password

/-! ## The console -/

inductive ConsoleInputStatus
  | noInput
  | message
  | quit
  | invalidCommand
  deriving DecidableEq, Repr

structure ConsoleInputResult where
  status : ConsoleInputStatus
  buffer : Bytes
  deriving DecidableEq, Repr

/-- The part of `read_console_input` that looks at a finished line.  `none`: the
line is blank, and `front()` is called on an empty string. -/
def classifyLine (line : Bytes) : Option ConsoleInputResult :=
  let (command, input) := (nextWord line).getD ([], [])
  if command = literal "/quit" then
    if (nextWord input).isSome then some ⟨.invalidCommand, literal "Usage: /quit"⟩
    else some ⟨.quit, []⟩
  else
    match command with
    | [] => none
    | front :: _ =>
        if front = 0x2F then some ⟨.invalidCommand, literal "Unknown command: " ++ command⟩
        else some ⟨.message, line⟩

/-- `read_console_input`: the result and the new input buffer. -/
def readConsoleInput : List Int → Bytes → Option (ConsoleInputResult × Bytes)
  | [], inputBuffer => some (⟨.noInput, []⟩, inputBuffer)
  | ch :: keys, inputBuffer =>
      if ch = keyErr then some (⟨.noInput, []⟩, inputBuffer)
      else if ch = 10 ∨ ch = 13 ∨ ch = keyEnter then
        if inputBuffer = [] then readConsoleInput keys []
        else (classifyLine inputBuffer).map fun result => (result, [])
      else if ch = keyBackspace ∨ ch = 127 ∨ ch = 8 then
        readConsoleInput keys inputBuffer.dropLast
      else if 0 ≤ ch ∧ ch ≤ 255 ∧ isPrint (UInt8.ofNat ch.toNat) then
        if inputBuffer.length < maxInputLength then
          readConsoleInput keys (inputBuffer ++ [UInt8.ofNat ch.toNat])
        else readConsoleInput keys inputBuffer
      else readConsoleInput keys inputBuffer

theorem flushWrite_outgoing {c c' : ClientConnection} {writes : List SslWrite}
    {status : FlushResult} {calls : List SslWriteCall}
    (h : flushWrite c writes = some (status, c', calls)) : ∃ out, c' = c.withOutgoing out := by
  unfold flushWrite at h
  split at h
  · simp only [Option.some.injEq, Prod.mk.injEq] at h
    exact ⟨c.toOutgoing, h.2.1.symm⟩
  · obtain ⟨flush, -, heq⟩ := Option.map_eq_some_iff.mp h
    simp only [Prod.mk.injEq] at heq
    exact ⟨flush.outgoing, heq.2.1.symm⟩

theorem storeOffset_of_le {n : Nat} (h : n ≤ intMax) : storeOffset n = n := by
  unfold intMax at h
  have hmod : n % 2 ^ 32 = n := Nat.mod_eq_of_lt (by omega)
  rw [storeOffset, hmod, if_pos (by omega)]

end TChat.Client
