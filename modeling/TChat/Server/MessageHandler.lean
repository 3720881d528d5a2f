import TChat.Server.State
/-!
# Server packet parsing

`server/message_handler.cpp`: `process_handshake_packet` for a connection that
has not authenticated yet and `process_client_stream` for one that has.  Both
take the receive buffer and hand back what is left of it.
-/

namespace TChat.Server

open TChat.Common

inductive ProcessStreamResult
  | bufferEmpty
  | incompletePacket
  | invalidProtocolError
  | processComplete
  | disconnectClient
  | sendPong
  | printMessage
  deriving DecidableEq, Repr

inductive HandshakeStreamStatus
  | invalidAuthPacket
  | validAuthPacket
  | invalidProtocolError
  | incompletePacket
  deriving DecidableEq, Repr

inductive HandshakeKind
  | login
  | register
  | reconnect
  | error
  deriving DecidableEq, Repr

def maxHandshakePayload : Nat := 512

structure HandshakeRequest where
  kind : HandshakeKind
  username : Bytes
  password : Bytes
  token : Bytes
  deriving DecidableEq, Repr

def HandshakeRequest.none : HandshakeRequest := ⟨.error, [], [], []⟩

structure HandshakeResult where
  status : HandshakeStreamStatus
  request : HandshakeRequest
  deriving DecidableEq, Repr

/-- The request that `switch (packet_type)` makes of the two halves of the
payload. -/
def handshakeRequest (type : Option PacketType) (username password : Bytes) :
    HandshakeResult :=
  match type with
  | some .login => ⟨.validAuthPacket, ⟨.login, username, password, []⟩⟩
  | some .reconnnect => ⟨.validAuthPacket, ⟨.reconnect, username, [], password⟩⟩
  | some .register => ⟨.validAuthPacket, ⟨.register, username, password, []⟩⟩
  | _ => ⟨.invalidAuthPacket, .none⟩

def processHandshakePacket (rxBuffer : Bytes) : HandshakeResult × Bytes :=
  if rxBuffer.length < headerSize then (⟨.incompletePacket, .none⟩, rxBuffer)
  else
    let header := readHeader rxBuffer
    if header.magic ≠ protocolKey then (⟨.invalidProtocolError, .none⟩, rxBuffer)
    else if maxHandshakePayload < header.totalSize ∨ header.payloadLength = 0 then
      (⟨.invalidAuthPacket, .none⟩, rxBuffer)
    else if rxBuffer.length < header.totalSize then
      (⟨.incompletePacket, .none⟩, rxBuffer)
    else
      let message := packetPayload rxBuffer
      if bar ∈ message then
        (handshakeRequest (PacketType.ofByte? header.type)
          (message.takeWhile (· ≠ bar)) ((message.dropWhile (· ≠ bar)).drop 1),
          afterPacket rxBuffer)
      else (⟨.invalidAuthPacket, .none⟩, afterPacket rxBuffer)

/-- What `process_client_stream` reports: the result, the out parameter
`message`, and the buffer left. -/
structure ClientStream where
  result : ProcessStreamResult
  message : Bytes
  rxBuffer : Bytes
  deriving DecidableEq, Repr

/-- The loop of `process_client_stream`.  Every iteration that continues erases
a packet, so the length of the buffer bounds their number; `fuel` counts them
down. -/
def clientStreamLoop : Nat → Bytes → ClientStream
  | 0, rxBuffer => ⟨.processComplete, [], rxBuffer⟩
  | fuel + 1, rxBuffer =>
      if rxBuffer.length < headerSize then ⟨.processComplete, [], rxBuffer⟩
      else
        let header := readHeader rxBuffer
        if header.magic ≠ protocolKey then ⟨.invalidProtocolError, [], rxBuffer⟩
        else if rxBuffer.length < header.totalSize then ⟨.incompletePacket, [], rxBuffer⟩
        else
          let payload := packetPayload rxBuffer
          match PacketType.ofByte? header.type with
          | some .message => ⟨.printMessage, payload, afterPacket rxBuffer⟩
          | some .command =>
              -- without a `break`, a command other than "/quit" falls into the ping case
              if payload = literal "/quit" then
                ⟨.disconnectClient, [], afterPacket rxBuffer⟩
              else ⟨.sendPong, [], afterPacket rxBuffer⟩
          | some .ping => ⟨.sendPong, [], afterPacket rxBuffer⟩
          | _ => clientStreamLoop fuel (afterPacket rxBuffer)

def processClientStream (rxBuffer : Bytes) : ClientStream :=
  clientStreamLoop (rxBuffer.length + 1) rxBuffer

theorem length_afterPacket_lt {buffer : Bytes} (h : headerSize ≤ buffer.length) :
    (afterPacket buffer).length < buffer.length := by
  rw [afterPacket, List.length_drop, PacketHeader.totalSize]
  unfold headerSize at *
  omega

theorem clientStreamLoop_fuel {fuel fuel' : Nat} {rxBuffer : Bytes}
    (h : rxBuffer.length < fuel) (h' : rxBuffer.length < fuel') :
    clientStreamLoop fuel rxBuffer = clientStreamLoop fuel' rxBuffer := by
  induction fuel generalizing fuel' rxBuffer with
  | zero => omega
  | succ fuel ih =>
      cases fuel' with
      | zero => omega
      | succ fuel' =>
          unfold clientStreamLoop
          by_cases hshort : rxBuffer.length < headerSize
          · simp only [hshort, if_true]
          · have hless := length_afterPacket_lt (Nat.le_of_not_lt hshort)
            have hnext : clientStreamLoop fuel (afterPacket rxBuffer) =
                clientStreamLoop fuel' (afterPacket rxBuffer) :=
              ih (by omega) (by omega)
            simp only [hnext]

theorem processClientStream_eq (rxBuffer : Bytes) :
    processClientStream rxBuffer =
      if rxBuffer.length < headerSize then ⟨.processComplete, [], rxBuffer⟩
      else if (readHeader rxBuffer).magic ≠ protocolKey then
        ⟨.invalidProtocolError, [], rxBuffer⟩
      else if rxBuffer.length < (readHeader rxBuffer).totalSize then
        ⟨.incompletePacket, [], rxBuffer⟩
      else
        match PacketType.ofByte? (readHeader rxBuffer).type with
        | some .message => ⟨.printMessage, packetPayload rxBuffer, afterPacket rxBuffer⟩
        | some .command =>
            if packetPayload rxBuffer = literal "/quit" then
              ⟨.disconnectClient, [], afterPacket rxBuffer⟩
            else ⟨.sendPong, [], afterPacket rxBuffer⟩
        | some .ping => ⟨.sendPong, [], afterPacket rxBuffer⟩
        | _ => processClientStream (afterPacket rxBuffer) := by
  rw [processClientStream, clientStreamLoop]
  by_cases hshort : rxBuffer.length < headerSize
  · simp only [hshort, if_true]
  · have hless := length_afterPacket_lt (Nat.le_of_not_lt hshort)
    have hnext : clientStreamLoop rxBuffer.length (afterPacket rxBuffer) =
        processClientStream (afterPacket rxBuffer) :=
      clientStreamLoop_fuel hless (Nat.lt_succ_self _)
    simp only [hnext]

end TChat.Server
