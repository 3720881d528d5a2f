import TChat.Lib.BigEndian
/-!
# The packet format

`common/protocol.hpp` and `common/protocol.cpp`: the packet types, the packed
12-byte header and `create_packet_stream`.  A `std::string` and a
`std::vector<uint8_t>` are both byte lists here.
-/

namespace TChat.Common

open TChat.Lib

/-- The bytes of a `std::string` or a `std::vector<uint8_t>`. -/
abbrev Bytes := List UInt8

def literal (text : String) : Bytes :=
  text.toList.map fun c => UInt8.ofNat c.toNat

def bar : UInt8 := 0x7C

/-- `std::string` compares by unsigned bytes, so byte order is the order of
`std::map<std::string, _>`. -/
instance byteOrder : IsStrictTotalOrder UInt8 (· < ·) where
  trichotomous a b hab hba := by
    rw [← UInt8.toNat_inj]
    rw [UInt8.lt_iff_toNat_lt] at hab hba
    omega
  irrefl a h := by
    rw [UInt8.lt_iff_toNat_lt] at h
    omega
  trans a b c hab hbc := by
    rw [UInt8.lt_iff_toNat_lt] at *
    omega

instance bytesOrder : IsStrictTotalOrder Bytes (· < ·) where
  trichotomous := (List.Lex.trichotomous (· < · : UInt8 → UInt8 → Prop)).trichotomous
  irrefl := List.lt_irrefl
  trans _ _ _ := List.lt_trans

/-! ## Packet types -/

inductive PacketType
  | fileMeta
  | fileChunk
  | message
  | command
  | ack
  | presence
  | pong
  | ping
  | login
  | register
  | error
  | reconnnect
  deriving DecidableEq, Repr

def PacketType.toByte : PacketType → UInt8
  | .fileMeta => 0x00
  | .fileChunk => 0x01
  | .message => 0x02
  | .command => 0x03
  | .ack => 0x04
  | .presence => 0x05
  | .pong => 0x06
  | .ping => 0x07
  | .login => 0x08
  | .register => 0x09
  | .error => 0x10
  | .reconnnect => 0x0A

def PacketType.all : List PacketType :=
  [.fileMeta, .fileChunk, .message, .command, .ack, .presence, .pong, .ping,
    .login, .register, .error, .reconnnect]

/-- `static_cast<PacketType>`: the enumerator with this value, `none` for a
value no enumerator has. -/
def PacketType.ofByte? (value : UInt8) : Option PacketType :=
  PacketType.all.find? (fun type => type.toByte = value)

@[simp] theorem PacketType.ofByte?_toByte (type : PacketType) :
    PacketType.ofByte? type.toByte = some type := by
  cases type <;> rfl

/-! ## The header -/

def protocolKey : Nat := 0x4354

def maxMessagePayloadSize : Nat := 8 * 1024

/-- `struct PacketHeader`, its fields converted to host order. -/
structure PacketHeader where
  magic : Nat
  version : UInt8
  type : UInt8
  sequenceId : Nat
  payloadLength : Nat
  deriving DecidableEq, Repr

/-- `sizeof(PacketHeader)`: the struct is packed. -/
def headerSize : Nat := 12

/-- The header as it lies in memory, multi-byte fields in network order. -/
def PacketHeader.bytes (header : PacketHeader) : Bytes :=
  bigEndian 2 header.magic ++ [header.version, header.type] ++
    bigEndian 4 header.sequenceId ++ bigEndian 4 header.payloadLength

/-- `memcpy` of the first 12 bytes of a buffer into a header.  Every caller
checks first that the buffer holds that many. -/
def readHeader (buffer : Bytes) : PacketHeader where
  magic := readBigEndian (buffer.take 2)
  version := buffer.getD 2 0
  type := buffer.getD 3 0
  sequenceId := readBigEndian ((buffer.drop 4).take 4)
  payloadLength := readBigEndian ((buffer.drop 8).take 4)

/-- `sizeof(PacketHeader) + payload_length`, in `size_t`. -/
def PacketHeader.totalSize (header : PacketHeader) : Nat :=
  headerSize + header.payloadLength

def packetPayload (buffer : Bytes) : Bytes :=
  (buffer.drop headerSize).take (readHeader buffer).payloadLength

/-- The buffer after `erase(begin, begin + total_size)`. -/
def afterPacket (buffer : Bytes) : Bytes :=
  buffer.drop (readHeader buffer).totalSize

/-- `create_packet_stream`.  `htonl` keeps the low 32 bits of the length. -/
def createPacketStream (type : PacketType) (payload : Bytes) : Bytes :=
  PacketHeader.bytes
    { magic := protocolKey
      version := 0
      type := type.toByte
      sequenceId := 1
      payloadLength := payload.length } ++ payload

@[simp] theorem length_headerBytes (header : PacketHeader) :
    header.bytes.length = headerSize := by
  simp [PacketHeader.bytes, headerSize]

theorem readHeader_append {buffer : Bytes} (h : headerSize ≤ buffer.length)
    (more : Bytes) : readHeader (buffer ++ more) = readHeader buffer := by
  unfold headerSize at h
  unfold readHeader
  congr 1
  · rw [List.take_append_of_le_length (by omega)]
  · rw [List.getD_append _ _ _ _ (by omega)]
  · rw [List.getD_append _ _ _ _ (by omega)]
  · rw [List.drop_append_of_le_length (by omega),
      List.take_append_of_le_length (by rw [List.length_drop]; omega)]
  · rw [List.drop_append_of_le_length (by omega),
      List.take_append_of_le_length (by rw [List.length_drop]; omega)]

theorem readHeader_bytes (header : PacketHeader) :
    readHeader header.bytes =
      { header with
        magic := header.magic % 2 ^ 16
        sequenceId := header.sequenceId % 2 ^ 32
        payloadLength := header.payloadLength % 2 ^ 32 } := by
  have hmagic := readBigEndian_bigEndian 2 header.magic
  have hseq := readBigEndian_bigEndian 4 header.sequenceId
  have hlen := readBigEndian_bigEndian 4 header.payloadLength
  generalize hm : bigEndian 2 header.magic = m at hmagic
  generalize hs : bigEndian 4 header.sequenceId = s at hseq
  generalize hl : bigEndian 4 header.payloadLength = l at hlen
  have hml : m.length = 2 := by rw [← hm, length_bigEndian]
  have hsl : s.length = 4 := by rw [← hs, length_bigEndian]
  have hll : l.length = 4 := by rw [← hl, length_bigEndian]
  obtain ⟨m₀, m₁, rfl⟩ := List.length_eq_two.mp hml
  match s, hsl, l, hll with
  | [s₀, s₁, s₂, s₃], _, [l₀, l₁, l₂, l₃], _ =>
      have hread : readHeader header.bytes =
          { header with
            magic := readBigEndian [m₀, m₁]
            sequenceId := readBigEndian [s₀, s₁, s₂, s₃]
            payloadLength := readBigEndian [l₀, l₁, l₂, l₃] } := by
        rw [PacketHeader.bytes, hm, hs, hl]
        rfl
      rw [hread, hmagic, hseq, hlen]
      norm_num

@[simp] theorem length_createPacketStream (type : PacketType) (payload : Bytes) :
    (createPacketStream type payload).length = headerSize + payload.length := by
  simp [createPacketStream]

theorem readHeader_createPacketStream (type : PacketType) (payload more : Bytes) :
    readHeader (createPacketStream type payload ++ more) =
      { magic := protocolKey
        version := 0
        type := type.toByte
        sequenceId := 1
        payloadLength := payload.length % 2 ^ 32 } := by
  rw [createPacketStream, List.append_assoc,
    readHeader_append (by rw [length_headerBytes]), readHeader_bytes]
  rfl

def packetType? (packet : Bytes) : Option PacketType :=
  PacketType.ofByte? (readHeader packet).type

@[simp] theorem packetType?_createPacketStream (type : PacketType) (payload : Bytes) :
    packetType? (createPacketStream type payload) = some type := by
  have h := readHeader_createPacketStream type payload []
  rw [List.append_nil] at h
  rw [packetType?, h, PacketType.ofByte?_toByte]

/-! ## Complete packets at the front of a buffer -/

def StartsWithPacket (buffer : Bytes) : Prop :=
  headerSize ≤ buffer.length ∧ (readHeader buffer).totalSize ≤ buffer.length

instance (buffer : Bytes) : Decidable (StartsWithPacket buffer) :=
  inferInstanceAs (Decidable (_ ∧ _))

namespace StartsWithPacket

variable {buffer : Bytes}

theorem append (h : StartsWithPacket buffer) (more : Bytes) :
    StartsWithPacket (buffer ++ more) := by
  rw [StartsWithPacket, readHeader_append h.1, List.length_append]
  exact ⟨Nat.le_add_right_of_le h.1, Nat.le_add_right_of_le h.2⟩

theorem packetPayload_append (h : StartsWithPacket buffer) (more : Bytes) :
    packetPayload (buffer ++ more) = packetPayload buffer := by
  have htotal := h.2
  rw [PacketHeader.totalSize] at htotal
  rw [packetPayload, packetPayload, readHeader_append h.1,
    List.drop_append_of_le_length h.1, List.take_append_of_le_length]
  rw [List.length_drop]
  omega

theorem afterPacket_append (h : StartsWithPacket buffer) (more : Bytes) :
    afterPacket (buffer ++ more) = afterPacket buffer ++ more := by
  rw [afterPacket, afterPacket, readHeader_append h.1, List.drop_append_of_le_length h.2]

theorem length_afterPacket (h : StartsWithPacket buffer) :
    (afterPacket buffer).length + headerSize + (readHeader buffer).payloadLength =
      buffer.length := by
  have htotal := h.2
  rw [PacketHeader.totalSize] at htotal
  rw [afterPacket, List.length_drop, PacketHeader.totalSize]
  omega

end StartsWithPacket

/-- A byte string that is exactly one packet of the protocol, with any version
and sequence number. -/
structure IsPacket (type : PacketType) (payload packet : Bytes) : Prop where
  length_eq : packet.length = headerSize + payload.length
  magic : (readHeader packet).magic = protocolKey
  type_eq : (readHeader packet).type = type.toByte
  payloadLength : (readHeader packet).payloadLength = payload.length
  payload_eq : packet.drop headerSize = payload

theorem isPacket_createPacketStream (type : PacketType) {payload : Bytes}
    (h : payload.length < 2 ^ 32) :
    IsPacket type payload (createPacketStream type payload) := by
  have hheader := readHeader_createPacketStream type payload []
  rw [List.append_nil] at hheader
  refine ⟨by simp, by rw [hheader], by rw [hheader], ?_, ?_⟩
  · rw [hheader]
    exact Nat.mod_eq_of_lt h
  · rw [createPacketStream, List.drop_append_of_le_length (by simp),
      List.drop_of_length_le (by simp), List.nil_append]

namespace IsPacket

variable {type : PacketType} {payload packet : Bytes}

theorem readHeader_append (h : IsPacket type payload packet) (more : Bytes) :
    readHeader (packet ++ more) = readHeader packet := by
  apply Common.readHeader_append
  rw [h.length_eq]
  omega

theorem totalSize (h : IsPacket type payload packet) (more : Bytes) :
    (readHeader (packet ++ more)).totalSize = packet.length := by
  rw [h.readHeader_append, PacketHeader.totalSize, h.payloadLength, h.length_eq]

theorem payload_append (h : IsPacket type payload packet) (more : Bytes) :
    packetPayload (packet ++ more) = payload := by
  rw [packetPayload, h.readHeader_append, h.payloadLength,
    List.drop_append_of_le_length (by rw [h.length_eq]; omega), h.payload_eq,
    List.take_left]

theorem afterPacket_append (h : IsPacket type payload packet) (more : Bytes) :
    afterPacket (packet ++ more) = more := by
  rw [afterPacket, h.totalSize, List.drop_left]

theorem startsWithPacket (h : IsPacket type payload packet) (more : Bytes) :
    StartsWithPacket (packet ++ more) := by
  refine ⟨?_, ?_⟩
  · rw [List.length_append, h.length_eq]
    omega
  · rw [h.totalSize, List.length_append]
    omega

end IsPacket

end TChat.Common
