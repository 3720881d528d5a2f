import TChat.Server.State
/-!
# Server I/O

`server/io.cpp`: the TLS reads and writes of one connection, `broadcast`, and
the console line reader.
-/

namespace TChat.Server

open TChat.Common TChat.Lib

inductive ReadResult
  | dataReceived
  | wantRead
  | wantWrite
  | connectionClosed
  | ignored
  | fatalError
  deriving DecidableEq, Repr

def queueWrite (connection : ClientConnection) (data : Bytes) : ClientConnection :=
  connection.withOutgoing (connection.toOutgoing.queueWrite data)

/-- `tx_offset` is a `size_t`. -/
def storeOffset (offset : Nat) : Nat := offset % 2 ^ 64

/-- `flush_write`, with the calls of `SSL_write` it makes. -/
def flushWrite (connection : ClientConnection) (outcomes : List SslWrite) :
    Option (FlushResult × ClientConnection × List SslWriteCall) :=
  match connection.ssl with
  | none => some (.fatalError, connection, [])
  | some _ =>
      (flushLoop storeOffset outcomes connection.toOutgoing).map fun flush =>
        (flush.result, connection.withOutgoing flush.outgoing, flush.calls)

def readBufferSize : Nat := 1024

/-- The loop of `handle_read`.  `none`: `SSL_read` has not returned yet, or not
in a way it can. -/
def readLoop : List SslRead → ClientConnection → Option (ReadResult × ClientConnection)
  | [], _ => none
  | .received bytes :: _, c =>
      if bytes = [] ∨ readBufferSize < bytes.length then none
      else
        some (.dataReceived,
          { c with rxBuffer := c.rxBuffer ++ bytes, readWaitingForWrite := false })
  | .failed .wantRead :: _, c => some (.wantRead, { c with readWaitingForWrite := false })
  | .failed .wantWrite :: _, c => some (.wantWrite, { c with readWaitingForWrite := true })
  | .failed .zeroReturn :: _, c => some (.connectionClosed, c)
  | .failed (.syscall .eintr) :: more, c => readLoop more c
  | .failed _ :: _, c => some (.fatalError, c)

def handleRead (connection : ClientConnection) (outcomes : List SslRead) :
    Option (ReadResult × ClientConnection) :=
  match connection.ssl with
  | none => some (.fatalError, connection)
  | some _ =>
      if connection.status = .closing then some (.ignored, connection)
      else readLoop outcomes connection

/-! ## Broadcast -/

def isRecipient (senderFd fd : Fd) (connection : ClientConnection) : Bool :=
  fd ≠ senderFd ∧ connection.status = .authenticated

def ServerApp.recipients (s : ServerApp) (senderFd : Fd) :
    List (Fd × ClientConnection) :=
  s.connections.entries.filter fun entry => isRecipient senderFd entry.1 entry.2

/-- `broadcast`: the descriptors whose write event the caller has to enable. -/
def broadcast (senderFd : Fd) (packet : Bytes) (s : ServerApp) : List Fd × ServerApp :=
  let queued := s.log ((s.recipients senderFd).map fun entry =>
    .queueWrite ⟨entry.1, entry.2.node⟩ packet)
  (((s.recipients senderFd).filter fun entry => !entry.2.writeWaitingForRead).map Prod.fst,
    { queued with
      connections := s.connections.mapEntries fun fd c =>
        if isRecipient senderFd fd c then Server.queueWrite c packet else c })

/-! ## The console -/

inductive ConsoleInputStatus
  | noInput
  | message
  | kickClient
  | quit
  | invalidCommand
  deriving DecidableEq, Repr

structure ConsoleInputResult where
  status : ConsoleInputStatus
  buffer : Bytes
  deriving DecidableEq, Repr

/-- `isspace` in the "C" locale. -/
def isSpace (byte : UInt8) : Bool :=
  byte = 0x20 ∨ (0x09 ≤ byte ∧ byte ≤ 0x0D)

def isPrint (byte : UInt8) : Bool :=
  0x20 ≤ byte ∧ byte ≤ 0x7E

/-- `input >> word` on what is left of an `istringstream`: the word and what
follows it, or nothing when only blanks are left. -/
def nextWord (input : Bytes) : Option (Bytes × Bytes) :=
  let text := input.dropWhile isSpace
  if text = [] then none
  else some (text.takeWhile (!isSpace ·), text.dropWhile (!isSpace ·))

/-- The part of `read_console_input` that looks at a finished line. -/
def classifyLine (line : Bytes) : Except Fault ConsoleInputResult :=
  let (command, input) := (nextWord line).getD ([], [])
  if command = literal "/quit" then
    if (nextWord input).isSome then .ok ⟨.invalidCommand, literal "Usage: /quit"⟩
    else .ok ⟨.quit, []⟩
  else if command = literal "/kick" then
    match nextWord input with
    | none => .ok ⟨.invalidCommand, literal "Usage: /kick <username>"⟩
    | some (username, input) =>
        if (nextWord input).isSome then
          .ok ⟨.invalidCommand, literal "Usage: /kick <username>"⟩
        else .ok ⟨.kickClient, username⟩
  else
    match command with
    | [] => .error .emptyString
    | front :: _ =>
        if front = 0x2F then .ok ⟨.invalidCommand, literal "Unknown command: " ++ command⟩
        else .ok ⟨.message, line⟩

def keyErr : Int := -1
def keyBackspace : Int := 0o407
def keyEnter : Int := 0o527

/-- The longest line the console accepts. -/
def maxInputLength : Nat := 1024

/-- `read_console_input`: the result and the new input buffer. -/
def readConsoleInput : List Int → Bytes → Except Fault (ConsoleInputResult × Bytes)
  | [], inputBuffer => .ok (⟨.noInput, []⟩, inputBuffer)
  | ch :: keys, inputBuffer =>
      if ch = keyErr then .ok (⟨.noInput, []⟩, inputBuffer)
      else if ch = 10 ∨ ch = 13 ∨ ch = keyEnter then
        if inputBuffer = [] then readConsoleInput keys []
        else (classifyLine inputBuffer).map fun result => (result, [])
      else if ch = keyBackspace ∨ ch = 127 ∨ ch = 8 then
        readConsoleInput keys inputBuffer.dropLast
      else if 0 ≤ ch ∧ ch ≤ 255 ∧ isPrint (UInt8.ofNat ch.toNat) then
        if inputBuffer.length < maxInputLength then
          readConsoleInput keys (inputBuffer ++ [UInt8.ofNat ch.toNat])
        else readConsoleInput keys inputBuffer
      else readConsoleInput keys inputBuffer

end TChat.Server
