import TChat.Common.Protocol
/-!
# Client packet parsing

`client/message_handler.cpp`: `process_data_stream`, which takes one packet off
the receive buffer and says what to do with it.
-/

namespace TChat.Client

open TChat.Common

inductive ProcessStreamStatus
  | bufferEmpty
  | invalidProtocolError
  | incompletePacket
  | printMessage
  | receivedPong
  | acknowledgement
  | errorAck
  deriving DecidableEq, Repr

structure ProcessStreamResult where
  status : ProcessStreamStatus
  message : Bytes
  sender : Bytes
  deriving DecidableEq, Repr

def ProcessStreamResult.of (status : ProcessStreamStatus) : ProcessStreamResult :=
  ⟨status, [], []⟩

/-- `payload.find(byte, start)`. -/
def find (payload : Bytes) (byte : UInt8) (start : Nat) : Option Nat :=
  ((payload.drop start).findIdx? (· = byte)).map (start + ·)

def readMessage (payload : Bytes) : ProcessStreamResult :=
  if payload.length < 2 ∨ payload.getD 1 0 ≠ bar then .of .invalidProtocolError
  else if payload.getD 0 0 = 0x55 then
    match find payload bar 2 with
    | none => .of .invalidProtocolError
    | some delimiter =>
        if delimiter = 2 then .of .invalidProtocolError
        else
          { status := .printMessage
            message := payload.drop (delimiter + 1)
            sender := (payload.drop 2).take (delimiter - 2) }
  else if payload.getD 0 0 = 0x53 then
    { status := .printMessage
      message := payload.drop 2
      sender := literal "SERVER" }
  else .of .invalidProtocolError

def readPayload (type : Option PacketType) (payload : Bytes) : ProcessStreamResult :=
  match type with
  | some .message => readMessage payload
  | some .pong => .of .receivedPong
  | some .ack => { ProcessStreamResult.of .acknowledgement with message := payload }
  | some .error => { ProcessStreamResult.of .errorAck with message := payload }
  | _ => .of .invalidProtocolError

/-- `process_data_stream`: the result and what is left of the buffer. -/
def processDataStream (rxBuffer : Bytes) : ProcessStreamResult × Bytes :=
  if rxBuffer = [] then (.of .bufferEmpty, rxBuffer)
  else if rxBuffer.length < headerSize then (.of .incompletePacket, rxBuffer)
  else
    let header := readHeader rxBuffer
    if header.magic ≠ protocolKey then (.of .invalidProtocolError, rxBuffer)
    else if maxMessagePayloadSize < header.payloadLength then
      (.of .invalidProtocolError, rxBuffer)
    else if rxBuffer.length < header.totalSize then (.of .incompletePacket, rxBuffer)
    else
      (readPayload (PacketType.ofByte? header.type) (packetPayload rxBuffer),
        afterPacket rxBuffer)

/-! ## Packets of the protocol -/

theorem processDataStream_large {type : PacketType} {payload : Bytes}
    (h : maxMessagePayloadSize < payload.length % 2 ^ 32) :
    processDataStream (createPacketStream type payload) =
      (.of .invalidProtocolError, createPacketStream type payload) := by
  have hheader := readHeader_createPacketStream type payload []
  rw [List.append_nil] at hheader
  have hne : createPacketStream type payload ≠ [] := by
    intro hnil
    have hlength := congrArg List.length hnil
    simp [headerSize] at hlength
  rw [processDataStream, if_neg hne, if_neg (by simp)]
  simp only [hheader, ne_eq, not_true_eq_false, if_false, h, if_true]

theorem processDataStream_fits {type : PacketType} {payload : Bytes}
    (h : payload.length % 2 ^ 32 ≤ maxMessagePayloadSize) :
    (processDataStream (createPacketStream type payload)).1 =
      readPayload (some type) (payload.take (payload.length % 2 ^ 32)) := by
  have hheader := readHeader_createPacketStream type payload []
  rw [List.append_nil] at hheader
  have hne : createPacketStream type payload ≠ [] := by
    intro hnil
    have hlength := congrArg List.length hnil
    simp [headerSize] at hlength
  have hpayload : packetPayload (createPacketStream type payload) =
      payload.take (payload.length % 2 ^ 32) := by
    rw [packetPayload, hheader, createPacketStream,
      List.drop_append_of_le_length (by simp), List.drop_of_length_le (by simp),
      List.nil_append]
  have htotal : ¬(createPacketStream type payload).length <
      headerSize + payload.length % 2 ^ 32 := by
    rw [length_createPacketStream]
    have := Nat.mod_le payload.length (2 ^ 32)
    omega
  rw [processDataStream, if_neg hne, if_neg (by simp)]
  simp only [hheader, ne_eq, not_true_eq_false, if_false, not_lt.mpr h, PacketHeader.totalSize,
    htotal, PacketType.ofByte?_toByte, hpayload]

theorem processDataStream_packet {type : PacketType} {payload : Bytes}
    (h : payload.length ≤ maxMessagePayloadSize) :
    (processDataStream (createPacketStream type payload)).1 = readPayload (some type) payload := by
  have hmod : payload.length % 2 ^ 32 = payload.length := by
    unfold maxMessagePayloadSize at h
    exact Nat.mod_eq_of_lt (by omega)
  rw [processDataStream_fits (hmod.symm ▸ h), hmod, List.take_length]

theorem length_readMessage (payload : Bytes) :
    (readMessage payload).message.length ≤ payload.length ∧
      (readMessage payload).sender.length ≤ max payload.length 6 := by
  unfold readMessage
  split_ifs
  · simp [ProcessStreamResult.of]
  · split
    · simp [ProcessStreamResult.of]
    · split_ifs
      · simp [ProcessStreamResult.of]
      · simp only [List.length_drop, List.length_take]
        omega
  · have hserver : (literal "SERVER").length = 6 := by decide
    exact ⟨by simp, le_max_of_le_right hserver.le⟩
  · simp [ProcessStreamResult.of]

theorem find_delimiter {name : Bytes} (hbar : bar ∉ name) (text : Bytes) :
    find (literal "U|" ++ name ++ literal "|" ++ text) bar 2 = some (2 + name.length) := by
  have hdrop : (literal "U|" ++ name ++ literal "|" ++ text).drop 2 = name ++ bar :: text := by
    simp [literal, bar]
  have hfirst : (name ++ bar :: text).findIdx? (· = bar) = some name.length := by
    clear hdrop
    induction name with
    | nil => simp [List.findIdx?_cons]
    | cons byte name ih =>
        rw [List.mem_cons, not_or] at hbar
        have hbyte : byte ≠ bar := fun h => hbar.1 h.symm
        rw [List.cons_append, List.findIdx?_cons, if_neg (by simpa using hbyte), ih hbar.2]
        rfl
  rw [find, hdrop, hfirst]
  rfl

theorem readMessage_client {name : Bytes} (hbar : bar ∉ name) (text : Bytes) :
    readMessage (literal "U|" ++ name ++ literal "|" ++ text) =
      if name = [] then .of .invalidProtocolError else ⟨.printMessage, text, name⟩ := by
  have hfind := find_delimiter hbar text
  have hshape : literal "U|" ++ name ++ literal "|" ++ text =
      0x55 :: bar :: (name ++ bar :: text) := by
    simp [literal, bar]
  rw [hshape] at hfind ⊢
  have hdrop : (0x55 :: bar :: (name ++ bar :: text)).drop (2 + name.length + 1) = text := by
    rw [show 2 + name.length + 1 = name.length + 1 + 1 + 1 by omega]
    simp [List.drop_append]
  unfold readMessage
  rw [if_neg (by simp), if_pos (by simp), hfind]
  by_cases hname : name = []
  · simp [hname]
  · simp [hname, hdrop]

theorem readMessage_server (line : Bytes) :
    readMessage (literal "S|" ++ line) = ⟨.printMessage, line, literal "SERVER"⟩ := by
  have hshape : literal "S|" ++ line = 0x53 :: bar :: line := by
    simp [literal, bar]
  rw [hshape]
  unfold readMessage
  rw [if_neg (by simp), if_neg (by simp), if_pos (by simp)]
  rfl

end TChat.Client
