import TChat.Lib.Framing
import TChat.Server.Proofs.Deliveries
/-!
# Conversations

What a client sends once it is connected, as packets: a login, then messages,
pings and commands.  A `Phase` is how far the server has got with it, and its
turns say packet by packet what the server still has to do.  The parsers are
followed here on the bytes of a conversation that are cut off anywhere.
-/

namespace TChat.Server

open TChat.Common TChat.Lib

structure LoginPacket where
  payload : Bytes
  bytes : Bytes
  isPacket : IsPacket .login payload bytes

structure ClientPacket where
  type : PacketType
  payload : Bytes
  bytes : Bytes
  isPacket : IsPacket type payload bytes
  sendable : type = .message ∨ type = .ping ∨ type = .command

/-- What a client sends over one connection. -/
structure Conversation where
  login : LoginPacket
  packets : List ClientPacket

def packetBytes (packets : List ClientPacket) : Bytes := packets.flatMap (·.bytes)

def Conversation.bytes (conversation : Conversation) : Bytes :=
  conversation.login.bytes ++ packetBytes conversation.packets

/-- What the server's answers to a conversation depend on besides its packets: the
user database, the random numbers and the connection. -/
structure Setting where
  verifyClient : Bytes → Bytes → VerifyClientStatus
  random : Nat → Fin 62
  connection : ConnectionPtr

/-- A packet that is to be handled: the bytes it takes and what the server does. -/
structure Turn where
  size : Nat
  response : List Action

namespace LoginPacket

variable (login : LoginPacket)

/-- The bytes after which `process_handshake_packet` decides.  A packet that exceeds
the limit is turned down on its header. -/
def size : Nat :=
  if maxHandshakePayload < login.bytes.length then headerSize else login.bytes.length

def Valid : Prop := login.bytes.length ≤ maxHandshakePayload ∧ bar ∈ login.payload

instance : Decidable login.Valid := inferInstanceAs (Decidable (_ ∧ _))

def username : Bytes := login.payload.takeWhile (· ≠ bar)

def password : Bytes := (login.payload.dropWhile (· ≠ bar)).drop 1

def Accepted (setting : Setting) : Prop :=
  login.Valid ∧ setting.verifyClient login.username login.password = .authorized

instance (setting : Setting) : Decidable (login.Accepted setting) :=
  inferInstanceAs (Decidable (_ ∧ _))

def response (setting : Setting) : List Action :=
  if login.Valid then
    match setting.verifyClient login.username login.password with
    | .authorized =>
        [.queueWrite setting.connection
          (createPacketStream .ack (literal "OK|" ++ generateToken setting.random))]
    | status => [.queueWrite setting.connection (refusal status)]
  else [.disconnect setting.connection]

end LoginPacket

namespace ClientPacket

def Quits (packet : ClientPacket) : Prop :=
  packet.type = .command ∧ packet.payload = literal "/quit"

instance (packet : ClientPacket) : Decidable packet.Quits :=
  inferInstanceAs (Decidable (_ ∧ _))

def result (packet : ClientPacket) : ProcessStreamResult :=
  if packet.Quits then .disconnectClient
  else if packet.type = .message then .printMessage
  else .sendPong

def response (setting : Setting) (username : Bytes) (packet : ClientPacket) : List Action :=
  match packet.result with
  | .disconnectClient => [.disconnect setting.connection]
  | .printMessage =>
      [.broadcast (some setting.connection)
        (ServerApp.clientBroadcast username packet.payload)]
  | _ => [.queueWrite setting.connection (createPacketStream .pong [])]

end ClientPacket

/-- The turns of a logged in user; what follows "/quit" is not read any more. -/
def turnsOf (setting : Setting) (username : Bytes) : List ClientPacket → List Turn
  | [] => []
  | packet :: rest =>
      ⟨packet.bytes.length, packet.response setting username⟩ ::
        if packet.Quits then [] else turnsOf setting username rest

/-- How far the server has got with a conversation: the packets it has not handled. -/
inductive Phase
  | greeting (login : LoginPacket) (packets : List ClientPacket)
  | chatting (username : Bytes) (packets : List ClientPacket)
  | ended (rest : Bytes)

namespace Phase

def bytes : Phase → Bytes
  | greeting login packets => login.bytes ++ packetBytes packets
  | chatting _ packets => packetBytes packets
  | ended rest => rest

def turns (setting : Setting) : Phase → List Turn
  | greeting login packets =>
      ⟨login.size, login.response setting⟩ ::
        if login.Accepted setting then turnsOf setting login.username packets else []
  | chatting username packets => turnsOf setting username packets
  | ended _ => []

def next (setting : Setting) : Phase → Phase
  | greeting login packets =>
      if login.Accepted setting then chatting login.username packets
      else ended ((greeting login packets).bytes.drop login.size)
  | chatting _ [] => ended []
  | chatting username (packet :: rest) =>
      if packet.Quits then ended (packetBytes rest) else chatting username rest
  | ended rest => ended rest

end Phase

def Conversation.turns (setting : Setting) (conversation : Conversation) : List Turn :=
  (Phase.greeting conversation.login conversation.packets).turns setting

/-- The sizes of the packets the server gets to read: the login and, if it is
accepted, what follows up to the first "/quit". -/
def Conversation.sizes (setting : Setting) (conversation : Conversation) : List Nat :=
  (conversation.turns setting).map (·.size)

/-! ## Turn by turn -/

section

variable {setting : Setting} {phase : Phase} {turn : Turn} {turns : List Turn}

theorem LoginPacket.size_le (login : LoginPacket) : login.size ≤ login.bytes.length := by
  have hlength := login.isPacket.length_eq
  unfold LoginPacket.size
  split_ifs <;> omega

theorem LoginPacket.size_of_valid {login : LoginPacket} (h : login.Valid) :
    login.size = login.bytes.length :=
  if_neg (not_lt.mpr h.1)

theorem LoginPacket.response_of_accepted {login : LoginPacket} (h : login.Accepted setting) :
    login.response setting = [.queueWrite setting.connection
      (createPacketStream .ack (literal "OK|" ++ generateToken setting.random))] := by
  rw [LoginPacket.response, if_pos h.1, h.2]

theorem LoginPacket.response_of_refused {login : LoginPacket} (hvalid : login.Valid)
    (h : ¬login.Accepted setting) :
    login.response setting = [.queueWrite setting.connection
      (refusal (setting.verifyClient login.username login.password))] := by
  rw [LoginPacket.response, if_pos hvalid]
  cases hanswer : setting.verifyClient login.username login.password with
  | authorized => exact absurd ⟨hvalid, hanswer⟩ h
  | execFailed | userNotFound | notAuthorized => rfl

theorem Phase.turns_next (h : phase.turns setting = turn :: turns) :
    (phase.next setting).turns setting = turns ∧
      (phase.next setting).bytes = phase.bytes.drop turn.size := by
  cases phase with
  | greeting login packets =>
      simp only [Phase.turns, List.cons.injEq] at h
      obtain ⟨rfl, rfl⟩ := h
      by_cases haccepted : login.Accepted setting
      · simp only [Phase.next, if_pos haccepted, Phase.turns, Phase.bytes, true_and]
        rw [LoginPacket.size_of_valid haccepted.1, List.drop_left]
      · simp only [Phase.next, if_neg haccepted, Phase.turns, true_and]
        rfl
  | chatting username packets =>
      cases packets with
      | nil => simp [Phase.turns, turnsOf] at h
      | cons packet rest =>
          simp only [Phase.turns, turnsOf, List.cons.injEq] at h
          obtain ⟨rfl, rfl⟩ := h
          have hbytes : packetBytes rest =
              (packetBytes (packet :: rest)).drop packet.bytes.length := by
            rw [packetBytes, packetBytes, List.flatMap_cons, List.drop_left]
          by_cases hquits : packet.Quits
          · simp only [Phase.next, if_pos hquits, Phase.turns, Phase.bytes, true_and]
            exact hbytes
          · simp only [Phase.next, if_neg hquits, Phase.turns, Phase.bytes, true_and]
            exact hbytes
  | ended rest => simp [Phase.turns] at h

theorem size_pos_of_turnsOf {username : Bytes} {packets : List ClientPacket}
    (h : turn ∈ turnsOf setting username packets) : 0 < turn.size := by
  induction packets with
  | nil => simp [turnsOf] at h
  | cons packet rest ih =>
      rw [turnsOf, List.mem_cons] at h
      rcases h with rfl | h
      · have := packet.isPacket.length_eq
        dsimp only
        unfold headerSize at this
        omega
      · split_ifs at h
        · simp at h
        · exact ih h

theorem Conversation.size_pos {conversation : Conversation} {size : Nat}
    (h : size ∈ conversation.sizes setting) : 0 < size := by
  obtain ⟨turn, hturn, rfl⟩ := List.mem_map.mp h
  simp only [Conversation.turns, Phase.turns, List.mem_cons] at hturn
  rcases hturn with rfl | hturn
  · have := conversation.login.isPacket.length_eq
    dsimp only [LoginPacket.size]
    unfold headerSize at *
    split_ifs <;> omega
  · split_ifs at hturn
    · exact size_pos_of_turnsOf hturn
    · simp at hturn

theorem sizes_of_turnsOf (setting : Setting) (username : Bytes)
    (packets : List ClientPacket) :
    (turnsOf setting username packets).map (·.size) <+: packets.map (·.bytes.length) := by
  induction packets with
  | nil => exact List.prefix_rfl
  | cons packet rest ih =>
      rw [turnsOf, List.map_cons, List.map_cons, List.prefix_cons_inj]
      split_ifs
      · exact List.nil_prefix
      · exact ih

theorem Phase.size_le (h : phase.turns setting = turn :: turns) :
    turn.size ≤ phase.bytes.length := by
  cases phase with
  | greeting login packets =>
      simp only [Phase.turns, List.cons.injEq] at h
      obtain ⟨rfl, _⟩ := h
      have := login.size_le
      rw [Phase.bytes, List.length_append]
      dsimp only
      omega
  | chatting username packets =>
      cases packets with
      | nil => simp [Phase.turns, turnsOf] at h
      | cons packet rest =>
          simp only [Phase.turns, turnsOf, List.cons.injEq] at h
          obtain ⟨rfl, _⟩ := h
          rw [Phase.bytes, packetBytes, List.flatMap_cons, List.length_append]
          dsimp only
          omega
  | ended rest => simp [Phase.turns] at h

/-! ## The parsers on a conversation that is cut off -/

variable {type : PacketType} {payload packet rxBuffer unread later : Bytes}

theorem IsPacket.readHeader_of_cut (h : IsPacket type payload packet)
    (hcut : rxBuffer ++ unread = packet ++ later) (hheader : headerSize ≤ rxBuffer.length) :
    readHeader rxBuffer = readHeader packet := by
  have hpacket : headerSize ≤ packet.length := by
    rw [h.length_eq]
    omega
  rw [← Common.readHeader_append hheader unread, hcut, Common.readHeader_append hpacket]

theorem exists_complete (hcut : rxBuffer ++ unread = packet ++ later)
    (hwhole : packet.length ≤ rxBuffer.length) : ∃ more, rxBuffer = packet ++ more := by
  rcases List.append_eq_append_iff.mp hcut with ⟨tail, rfl, _⟩ | ⟨more, rfl, _⟩
  · rw [List.length_append] at hwhole
    have : tail = [] := List.eq_nil_of_length_eq_zero (by omega)
    exact ⟨[], by simp [this]⟩
  · exact ⟨more, rfl⟩

theorem IsPacket.totalSize_eq (h : IsPacket type payload packet) :
    (readHeader packet).totalSize = packet.length := by
  have htotal := h.totalSize []
  rwa [List.append_nil] at htotal

theorem IsPacket.handshake_incomplete (h : IsPacket type payload packet)
    (hfits : packet.length ≤ maxHandshakePayload) (hpayload : payload ≠ [])
    (hcut : rxBuffer ++ unread = packet ++ later) (hsize : rxBuffer.length < packet.length) :
    processHandshakePacket rxBuffer = (⟨.incompletePacket, .none⟩, rxBuffer) := by
  by_cases hheader : rxBuffer.length < headerSize
  · rw [processHandshakePacket, if_pos hheader]
  · have hread := IsPacket.readHeader_of_cut h hcut (not_lt.mp hheader)
    have hlength : payload.length ≠ 0 := by simpa using hpayload
    rw [processHandshakePacket, if_neg hheader]
    simp only [hread, h.magic, IsPacket.totalSize_eq h, h.payloadLength, not_lt.mpr hfits,
      hlength, hsize, ne_eq, not_true_eq_false, if_false, or_self, if_true]

theorem IsPacket.handshake_complete (h : IsPacket type payload packet)
    (hfits : packet.length ≤ maxHandshakePayload) (hbar : bar ∈ payload) (more : Bytes) :
    processHandshakePacket (packet ++ more) =
      (handshakeRequest (some type) (payload.takeWhile (· ≠ bar))
        ((payload.dropWhile (· ≠ bar)).drop 1), more) := by
  have hstarts := h.startsWithPacket more
  have hlength : payload.length ≠ 0 := List.length_pos_of_mem hbar |>.ne'
  rw [processHandshakePacket, if_neg (not_lt.mpr hstarts.1)]
  simp only [h.readHeader_append, h.magic, IsPacket.totalSize_eq h, h.payloadLength,
    not_lt.mpr hfits, hlength, ne_eq, not_true_eq_false, if_false, or_self, h.payload_append,
    if_pos hbar, h.type_eq, PacketType.ofByte?_toByte, h.afterPacket_append]
  rw [if_neg (by simp)]

namespace LoginPacket

variable {login : LoginPacket}

theorem headerSize_le (login : LoginPacket) : headerSize ≤ login.size := by
  have := login.isPacket.length_eq
  unfold size
  split_ifs <;> omega

theorem parse_incomplete (hcut : rxBuffer ++ unread = login.bytes ++ later)
    (h : rxBuffer.length < login.size) :
    processHandshakePacket rxBuffer = (⟨.incompletePacket, .none⟩, rxBuffer) := by
  by_cases hheader : rxBuffer.length < headerSize
  · rw [processHandshakePacket, if_pos hheader]
  · have hfits : ¬maxHandshakePayload < login.bytes.length := by
      intro hlarge
      rw [size, if_pos hlarge] at h
      exact hheader h
    rw [size, if_neg hfits] at h
    refine IsPacket.handshake_incomplete login.isPacket (not_lt.mp hfits) ?_ hcut h
    have hlength := login.isPacket.length_eq
    intro hempty
    rw [hempty, List.length_nil] at hlength
    omega

theorem parse_invalid (hcut : rxBuffer ++ unread = login.bytes ++ later)
    (h : login.size ≤ rxBuffer.length) (hvalid : ¬login.Valid) :
    ∃ rest, processHandshakePacket rxBuffer = (⟨.invalidAuthPacket, .none⟩, rest) := by
  have hheader : headerSize ≤ rxBuffer.length := login.headerSize_le.trans h
  have hread := IsPacket.readHeader_of_cut login.isPacket hcut hheader
  rw [processHandshakePacket, if_neg (not_lt.mpr hheader)]
  simp only [hread, login.isPacket.magic, IsPacket.totalSize_eq login.isPacket,
    login.isPacket.payloadLength, ne_eq, not_true_eq_false, if_false]
  by_cases hrefused : maxHandshakePayload < login.bytes.length ∨ login.payload.length = 0
  · exact ⟨_, if_pos hrefused⟩
  · rw [not_or, not_lt] at hrefused
    have hwhole : login.bytes.length ≤ rxBuffer.length := by
      rwa [size, if_neg (not_lt.mpr hrefused.1)] at h
    have hbar : bar ∉ login.payload := fun hbar => hvalid ⟨hrefused.1, hbar⟩
    obtain ⟨more, rfl⟩ := exists_complete hcut hwhole
    rw [if_neg (by rwa [not_or, not_lt]), if_neg (not_lt.mpr hwhole),
      login.isPacket.payload_append, if_neg hbar]
    exact ⟨_, rfl⟩

theorem parse_valid (hcut : rxBuffer ++ unread = login.bytes ++ later)
    (h : login.size ≤ rxBuffer.length) (hvalid : login.Valid) :
    processHandshakePacket rxBuffer =
      (⟨.validAuthPacket, ⟨.login, login.username, login.password, []⟩⟩,
        rxBuffer.drop login.size) := by
  rw [size_of_valid hvalid] at h ⊢
  obtain ⟨more, rfl⟩ := exists_complete hcut h
  rw [IsPacket.handshake_complete login.isPacket hvalid.1 hvalid.2, List.drop_left]
  rfl

end LoginPacket

namespace ClientPacket

variable {packet : ClientPacket}

theorem parse_incomplete (hcut : rxBuffer ++ unread = packet.bytes ++ later)
    (h : rxBuffer.length < packet.bytes.length) :
    ∃ result, (result = .incompletePacket ∨ result = .processComplete) ∧
      processClientStream rxBuffer = ⟨result, [], rxBuffer⟩ := by
  rw [processClientStream_eq]
  by_cases hheader : rxBuffer.length < headerSize
  · exact ⟨_, .inr rfl, if_pos hheader⟩
  · have hread := IsPacket.readHeader_of_cut packet.isPacket hcut (not_lt.mp hheader)
    rw [if_neg hheader, hread, packet.isPacket.magic, IsPacket.totalSize_eq packet.isPacket,
      if_neg (by simp), if_pos h]
    exact ⟨_, .inl rfl, rfl⟩

theorem parse_complete (hcut : rxBuffer ++ unread = packet.bytes ++ later)
    (h : packet.bytes.length ≤ rxBuffer.length) :
    processClientStream rxBuffer =
      ⟨packet.result, if packet.result = .printMessage then packet.payload else [],
        rxBuffer.drop packet.bytes.length⟩ := by
  have hheader : headerSize ≤ rxBuffer.length := by
    rw [packet.isPacket.length_eq] at h
    omega
  have hread := IsPacket.readHeader_of_cut packet.isPacket hcut hheader
  obtain ⟨more, rfl⟩ := exists_complete hcut h
  rw [processClientStream_eq, if_neg (not_lt.mpr hheader), hread, packet.isPacket.magic,
    IsPacket.totalSize_eq packet.isPacket, if_neg (by simp), if_neg (not_lt.mpr h),
    packet.isPacket.type_eq, PacketType.ofByte?_toByte, packet.isPacket.payload_append,
    packet.isPacket.afterPacket_append, List.drop_left]
  rcases packet.sendable with htype | htype | htype
  · simp [result, Quits, htype]
  · simp [result, Quits, htype]
  · by_cases hquit : packet.payload = literal "/quit" <;> simp [result, Quits, htype, hquit]

theorem startsWithPacket_iff (hcut : rxBuffer ++ unread = packet.bytes ++ later) :
    StartsWithPacket rxBuffer ↔ packet.bytes.length ≤ rxBuffer.length := by
  constructor
  · rintro ⟨hheader, htotal⟩
    rwa [IsPacket.readHeader_of_cut packet.isPacket hcut hheader,
      IsPacket.totalSize_eq packet.isPacket] at htotal
  · intro hwhole
    obtain ⟨more, rfl⟩ := exists_complete hcut hwhole
    exact packet.isPacket.startsWithPacket more

end ClientPacket

end

end TChat.Server
