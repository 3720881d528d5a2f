import TChat.Lib.Loop
import TChat.Server.MessageHandler
/-!
# What the parsers take off the front of a buffer

Both parsers look at the packet at the front of the receive buffer.  A handshake is
one packet, within a limit and cut in two by the first delimiter.  Of a user's packets
those of other types are passed over, and the first that is a message, a ping or a
command is taken.  Bytes that arrive later never change what has been decided.
-/

namespace TChat.Server

open TChat.Common TChat.Lib

/-- A complete packet with the protocol's magic number stands at the front. -/
def Begins (buffer : Bytes) : Prop :=
  StartsWithPacket buffer ∧ (readHeader buffer).magic = protocolKey

instance (buffer : Bytes) : Decidable (Begins buffer) := inferInstanceAs (Decidable (_ ∧ _))

def Sendable (type : Option PacketType) : Prop :=
  type = some .message ∨ type = some .ping ∨ type = some .command

instance (type : Option PacketType) : Decidable (Sendable type) :=
  inferInstanceAs (Decidable (_ ∨ _))

/-- The packet at the front is a handshake within the limit, which makes `request`. -/
structure Asks (buffer : Bytes) (request : HandshakeRequest) : Prop where
  begins : Begins buffer
  small : (readHeader buffer).totalSize ≤ maxHandshakePayload
  delimited : bar ∈ packetPayload buffer
  request : handshakeRequest (packetType? buffer) ((packetPayload buffer).takeWhile (· ≠ bar))
    (((packetPayload buffer).dropWhile (· ≠ bar)).drop 1) = ⟨.validAuthPacket, request⟩

/-! ## What the parsers take -/

section

variable {buffer rest : Bytes} {request : HandshakeRequest}

theorem begins_iff : Begins buffer ↔ headerSize ≤ buffer.length ∧
    (readHeader buffer).magic = protocolKey ∧ (readHeader buffer).totalSize ≤ buffer.length := by
  unfold Begins StartsWithPacket
  tauto

theorem processHandshakePacket_asks :
    processHandshakePacket buffer = (⟨.validAuthPacket, request⟩, rest) ↔
      Asks buffer request ∧ rest = afterPacket buffer := by
  constructor
  · intro h
    unfold processHandshakePacket at h
    dsimp only at h
    split_ifs at h with hshort hmagic hlimit hincomplete hbar
    · simp at h
    · simp at h
    · simp at h
    · simp at h
    · rw [Prod.mk.injEq] at h
      obtain ⟨hrequest, rfl⟩ := h
      rw [not_or, not_lt] at hlimit
      exact ⟨⟨begins_iff.mpr ⟨not_lt.mp hshort, not_not.mp hmagic, not_lt.mp hincomplete⟩,
        hlimit.1, hbar, hrequest⟩, rfl⟩
    · simp at h
  · rintro ⟨⟨hbegins, hsmall, hbar, hrequest⟩, rfl⟩
    obtain ⟨hlong, hmagic, hcomplete⟩ := begins_iff.mp hbegins
    have hpayload : (readHeader buffer).payloadLength ≠ 0 := by
      intro hzero
      rw [packetPayload, hzero, List.take_zero] at hbar
      exact absurd hbar List.not_mem_nil
    unfold processHandshakePacket
    dsimp only
    rw [if_neg (not_lt.mpr hlong), if_neg (not_not.mpr hmagic),
      if_neg (not_or.mpr ⟨not_lt.mpr hsmall, hpayload⟩), if_neg (not_lt.mpr hcomplete),
      if_pos hbar]
    exact congrArg (·, afterPacket buffer) hrequest

theorem length_of_incomplete
    (h : processHandshakePacket buffer = (⟨.incompletePacket, request⟩, rest)) :
    rest.length ≤ maxHandshakePayload := by
  unfold processHandshakePacket at h
  dsimp only at h
  split_ifs at h with hshort hmagic hlimit hincomplete hbar
  · obtain ⟨-, rfl⟩ := Prod.mk.injEq .. ▸ h
    unfold headerSize at hshort
    unfold maxHandshakePayload
    omega
  · simp at h
  · simp at h
  · obtain ⟨-, rfl⟩ := Prod.mk.injEq .. ▸ h
    rw [not_or, not_lt] at hlimit
    exact hincomplete.le.trans hlimit.1
  · unfold handshakeRequest at h
    split at h <;> simp at h
  · simp at h

theorem processClientStream_nothing (h : ¬Begins buffer) :
    (processClientStream buffer).result ≠ .disconnectClient ∧
      (processClientStream buffer).rxBuffer = buffer := by
  rw [begins_iff] at h
  rw [processClientStream_eq]
  by_cases hshort : buffer.length < headerSize
  · simp [hshort]
  · by_cases hmagic : (readHeader buffer).magic ≠ protocolKey
    · simp [hshort, hmagic]
    · have hincomplete : buffer.length < (readHeader buffer).totalSize := by
        by_contra hcomplete
        exact h ⟨not_lt.mp hshort, not_not.mp hmagic, not_lt.mp hcomplete⟩
      simp [hshort, hmagic, hincomplete]

theorem processClientStream_begins (h : Begins buffer) :
    processClientStream buffer =
      match packetType? buffer with
      | some .message => ⟨.printMessage, packetPayload buffer, afterPacket buffer⟩
      | some .command =>
          if packetPayload buffer = literal "/quit" then
            ⟨.disconnectClient, [], afterPacket buffer⟩
          else ⟨.sendPong, [], afterPacket buffer⟩
      | some .ping => ⟨.sendPong, [], afterPacket buffer⟩
      | _ => processClientStream (afterPacket buffer) := by
  obtain ⟨hlong, hmagic, hcomplete⟩ := begins_iff.mp h
  rw [processClientStream_eq, if_neg (not_lt.mpr hlong), if_neg (not_not.mpr hmagic),
    if_neg (not_lt.mpr hcomplete)]
  rfl

theorem processClientStream_one (h : Begins buffer) (htype : Sendable (packetType? buffer)) :
    ((processClientStream buffer).result = .disconnectClient ↔
        packetType? buffer = some .command ∧ packetPayload buffer = literal "/quit") ∧
      (processClientStream buffer).rxBuffer = afterPacket buffer := by
  rw [processClientStream_begins h]
  rcases htype with htype | htype | htype
  · simp [htype]
  · simp [htype]
  · by_cases hquit : packetPayload buffer = literal "/quit" <;> simp [htype, hquit]

theorem processClientStream_skipped (h : Begins buffer)
    (htype : ¬Sendable (packetType? buffer)) :
    processClientStream buffer = processClientStream (afterPacket buffer) := by
  rw [processClientStream_begins h]
  split
  · exact absurd (.inl ‹_›) htype
  · exact absurd (.inr (.inr ‹_›)) htype
  · exact absurd (.inr (.inl ‹_›)) htype
  · rfl

end

/-! ## Handshakes -/

/-- The request that a packet of a type makes of the two halves of its payload. -/
inductive Expresses : PacketType → Bytes → Bytes → HandshakeRequest → Prop
  | login {username password : Bytes} :
      Expresses .login username password ⟨.login, username, password, []⟩
  | register {username password : Bytes} :
      Expresses .register username password ⟨.register, username, password, []⟩
  | reconnect {username token : Bytes} :
      Expresses .reconnnect username token ⟨.reconnect, username, [], token⟩

/-- The buffer starts with a handshake packet of the type `type` with `size` bytes of
payload. -/
structure Presents (buffer : Bytes) (type : PacketType) (size : Nat) : Prop where
  header : headerSize ≤ buffer.length
  magic : (readHeader buffer).magic = protocolKey
  type_eq : (readHeader buffer).type = type.toByte
  handshake : type = .login ∨ type = .register ∨ type = .reconnnect
  payloadLength : (readHeader buffer).payloadLength = size
  nonempty : 0 < size
  small : headerSize + size ≤ maxHandshakePayload
  complete : headerSize + size ≤ buffer.length
  delimited : bar ∈ (buffer.drop headerSize).take size

/-- The first verdict of `process_handshake_packet` other than `IncompletePacket` when
pieces arrive one after the other, with the bytes that stand behind the packet then. -/
def firstVerdict : Bytes → List Bytes → Option (HandshakeResult × Bytes)
  | _, [] => none
  | buffer, piece :: pieces =>
      let (result, rest) := processHandshakePacket (buffer ++ piece)
      if result.status = .incompletePacket then firstVerdict rest pieces
      else some (result, rest ++ pieces.flatten)

section

variable {buffer rest : Bytes} {request : HandshakeRequest} {type : PacketType}
  {username secret : Bytes}

theorem ofByte?_eq_some {value : UInt8} :
    PacketType.ofByte? value = some type ↔ value = type.toByte := by
  constructor
  · intro h
    have hvalue := List.find?_some h
    exact (of_decide_eq_true hvalue).symm
  · rintro rfl
    exact PacketType.ofByte?_toByte type

theorem handshakeRequest_valid {type? : Option PacketType} :
    handshakeRequest type? username secret = ⟨.validAuthPacket, request⟩ ↔
      ∃ type, type? = some type ∧ Expresses type username secret request := by
  constructor
  · intro h
    unfold handshakeRequest at h
    split at h <;> obtain ⟨-, rfl⟩ := HandshakeResult.mk.injEq .. ▸ h
    · exact ⟨_, rfl, .login⟩
    · exact ⟨_, rfl, .reconnect⟩
    · exact ⟨_, rfl, .register⟩
    · simp at h
  · rintro ⟨type, rfl, hexpresses⟩
    cases hexpresses <;> rfl

theorem Expresses.handshake (h : Expresses type username secret request) :
    type = .login ∨ type = .register ∨ type = .reconnnect := by
  cases h <;> simp

theorem exists_expresses (h : type = .login ∨ type = .register ∨ type = .reconnnect)
    (username secret : Bytes) : ∃ request, Expresses type username secret request := by
  rcases h with rfl | rfl | rfl
  · exact ⟨_, .login⟩
  · exact ⟨_, .register⟩
  · exact ⟨_, .reconnect⟩

theorem cut_at_bar {payload : Bytes} (h : bar ∈ payload) :
    payload = payload.takeWhile (· ≠ bar) ++ bar :: (payload.dropWhile (· ≠ bar)).drop 1 ∧
      bar ∉ payload.takeWhile (· ≠ bar) := by
  refine ⟨?_, fun hbar => ?_⟩
  · cases hrest : payload.dropWhile (· ≠ bar) with
    | nil =>
        have hall := List.dropWhile_eq_nil_iff.mp hrest bar h
        simp at hall
    | cons first more =>
        have hfirst := List.head?_dropWhile_not (fun x => decide (x ≠ bar)) payload
        rw [hrest] at hfirst
        have hbar : first = bar := by simpa using hfirst
        rw [List.drop_one, List.tail_cons, ← hbar, ← hrest, hbar,
          List.takeWhile_append_dropWhile]
  · have hother := List.mem_takeWhile_imp hbar
    simp at hother

theorem Presents.asks {size : Nat} (h : Presents buffer type size)
    (hexpresses : Expresses type ((packetPayload buffer).takeWhile (· ≠ bar))
      (((packetPayload buffer).dropWhile (· ≠ bar)).drop 1) request) : Asks buffer request := by
  have htotal : (readHeader buffer).totalSize = headerSize + size := by
    rw [PacketHeader.totalSize, h.payloadLength]
  refine ⟨begins_iff.mpr ⟨h.header, h.magic, htotal ▸ h.complete⟩, htotal ▸ h.small, ?_, ?_⟩
  · rw [packetPayload, h.payloadLength]
    exact h.delimited
  · exact handshakeRequest_valid.mpr ⟨type, ofByte?_eq_some.mpr h.type_eq, hexpresses⟩

theorem Asks.presents (h : Asks buffer request) :
    ∃ type, Presents buffer type (readHeader buffer).payloadLength := by
  obtain ⟨hlong, hmagic, hcomplete⟩ := begins_iff.mp h.begins
  obtain ⟨type, htype, hexpresses⟩ := handshakeRequest_valid.mp h.request
  refine ⟨type, hlong, hmagic, ofByte?_eq_some.mp htype, hexpresses.handshake, rfl, ?_,
    h.small, hcomplete, h.delimited⟩
  by_contra hempty
  have hdelimited := h.delimited
  rw [packetPayload, Nat.eq_zero_of_not_pos hempty, List.take_zero] at hdelimited
  exact List.not_mem_nil hdelimited

theorem incomplete_rest
    (h : (processHandshakePacket buffer).1.status = .incompletePacket) :
    (processHandshakePacket buffer).2 = buffer := by
  unfold processHandshakePacket at h ⊢
  dsimp only at h ⊢
  split_ifs at h ⊢
  · rfl
  · rfl
  · unfold handshakeRequest at h
    split at h <;> simp at h

theorem processHandshakePacket_eq (buffer : Bytes) :
    processHandshakePacket buffer =
      if buffer.length < headerSize then (⟨.incompletePacket, .none⟩, buffer)
      else if (readHeader buffer).magic ≠ protocolKey then
        (⟨.invalidProtocolError, .none⟩, buffer)
      else if maxHandshakePayload < (readHeader buffer).totalSize ∨
          (readHeader buffer).payloadLength = 0 then
        (⟨.invalidAuthPacket, .none⟩, buffer)
      else if buffer.length < (readHeader buffer).totalSize then
        (⟨.incompletePacket, .none⟩, buffer)
      else if bar ∈ packetPayload buffer then
        (handshakeRequest (packetType? buffer) ((packetPayload buffer).takeWhile (· ≠ bar))
          (((packetPayload buffer).dropWhile (· ≠ bar)).drop 1), afterPacket buffer)
      else (⟨.invalidAuthPacket, .none⟩, afterPacket buffer) := rfl

/-- Bytes that arrive later do not change a verdict. -/
theorem processHandshakePacket_append
    (h : (processHandshakePacket buffer).1.status ≠ .incompletePacket) (more : Bytes) :
    processHandshakePacket (buffer ++ more) =
      ((processHandshakePacket buffer).1, (processHandshakePacket buffer).2 ++ more) := by
  by_cases hshort : buffer.length < headerSize
  · exact absurd (by rw [processHandshakePacket, if_pos hshort]) h
  · have hheader := readHeader_append (not_lt.mp hshort) more
    have hlong : ¬(buffer ++ more).length < headerSize := by
      rw [List.length_append]
      omega
    rw [processHandshakePacket_eq (buffer ++ more), if_neg hlong, hheader]
    rw [processHandshakePacket_eq buffer, if_neg hshort] at h ⊢
    by_cases hmagic : (readHeader buffer).magic ≠ protocolKey
    · rw [if_pos hmagic, if_pos hmagic]
    · rw [if_neg hmagic] at h ⊢
      rw [if_neg hmagic]
      by_cases hlimit : maxHandshakePayload < (readHeader buffer).totalSize ∨
          (readHeader buffer).payloadLength = 0
      · rw [if_pos hlimit, if_pos hlimit]
      · rw [if_neg hlimit] at h ⊢
        rw [if_neg hlimit]
        by_cases hincomplete : buffer.length < (readHeader buffer).totalSize
        · exact absurd (by rw [if_pos hincomplete]) h
        · have hstarts : StartsWithPacket buffer := ⟨not_lt.mp hshort, not_lt.mp hincomplete⟩
          have hcomplete : ¬(buffer ++ more).length < (readHeader buffer).totalSize := by
            rw [List.length_append]
            omega
          rw [if_neg hincomplete, if_neg hcomplete, hstarts.packetPayload_append,
            hstarts.afterPacket_append]
          by_cases hbar : bar ∈ packetPayload buffer
          · rw [if_pos hbar, if_pos hbar, packetType?, hheader]
            rfl
          · rw [if_neg hbar, if_neg hbar]

theorem firstVerdict_eq (buffer : Bytes) (pieces : List Bytes)
    (h : (processHandshakePacket buffer).1.status = .incompletePacket) :
    firstVerdict buffer pieces =
      if (processHandshakePacket (buffer ++ pieces.flatten)).1.status = .incompletePacket then
        none
      else some (processHandshakePacket (buffer ++ pieces.flatten)) := by
  induction pieces generalizing buffer with
  | nil => rw [firstVerdict, List.flatten_nil, List.append_nil, if_pos h]
  | cons piece pieces ih =>
      rw [firstVerdict, List.flatten_cons, ← List.append_assoc]
      dsimp only
      by_cases hincomplete :
          (processHandshakePacket (buffer ++ piece)).1.status = .incompletePacket
      · rw [if_pos hincomplete, incomplete_rest hincomplete, ih _ hincomplete]
      · have happend := processHandshakePacket_append hincomplete pieces.flatten
        rw [if_neg hincomplete, happend, if_neg hincomplete]

/-- `process_handshake_packet` accepts exactly the handshakes within the limit, takes
their payload apart at the first delimiter and removes them.  It waits without touching
the buffer, and no other verdict changes with what comes later, however it is cut. -/
theorem handshake_verdicts (buffer : Bytes) :
    ((processHandshakePacket buffer).1.status = .validAuthPacket ↔
      ∃ type size, Presents buffer type size) ∧
    (∀ type size, Presents buffer type size → ∃ username secret request,
      (buffer.drop headerSize).take size = username ++ bar :: secret ∧ bar ∉ username ∧
      Expresses type username secret request ∧
      processHandshakePacket buffer =
        (⟨.validAuthPacket, request⟩, buffer.drop (headerSize + size))) ∧
    ((processHandshakePacket buffer).1.status = .incompletePacket →
      (processHandshakePacket buffer).2 = buffer) ∧
    ((processHandshakePacket buffer).1.status ≠ .incompletePacket → ∀ more,
      processHandshakePacket (buffer ++ more) =
        ((processHandshakePacket buffer).1, (processHandshakePacket buffer).2 ++ more)) ∧
    ∀ pieces : List Bytes, pieces.flatten = buffer → firstVerdict [] pieces =
      if (processHandshakePacket buffer).1.status = .incompletePacket then none
      else some (processHandshakePacket buffer) := by
  have hpresents : ∀ type size, Presents buffer type size → ∃ username secret request,
      (buffer.drop headerSize).take size = username ++ bar :: secret ∧ bar ∉ username ∧
      Expresses type username secret request ∧
      processHandshakePacket buffer =
        (⟨.validAuthPacket, request⟩, buffer.drop (headerSize + size)) := by
    intro type size h
    have hpayload : (buffer.drop headerSize).take size = packetPayload buffer := by
      rw [packetPayload, h.payloadLength]
    have hrest : buffer.drop (headerSize + size) = afterPacket buffer := by
      rw [afterPacket, PacketHeader.totalSize, h.payloadLength]
    obtain ⟨request, hexpresses⟩ := exists_expresses h.handshake
      ((packetPayload buffer).takeWhile (· ≠ bar))
      (((packetPayload buffer).dropWhile (· ≠ bar)).drop 1)
    obtain ⟨hcut, hbar⟩ := cut_at_bar (hpayload ▸ h.delimited)
    exact ⟨_, _, request, hpayload.trans hcut, hbar, hexpresses,
      processHandshakePacket_asks.mpr ⟨h.asks hexpresses, hrest⟩⟩
  refine ⟨⟨fun hvalid => ?_, ?_⟩, hpresents, incomplete_rest, processHandshakePacket_append, ?_⟩
  · obtain ⟨hasks, -⟩ := processHandshakePacket_asks.mp
      (show processHandshakePacket buffer = (⟨.validAuthPacket,
        (processHandshakePacket buffer).1.request⟩, (processHandshakePacket buffer).2) by
        rw [← hvalid])
    obtain ⟨type, h⟩ := hasks.presents
    exact ⟨type, _, h⟩
  · rintro ⟨type, size, h⟩
    obtain ⟨username, secret, request, -, -, -, hparse⟩ := hpresents type size h
    rw [hparse]
  · rintro pieces rfl
    exact firstVerdict_eq [] pieces rfl

end

/-! ## The packets of a user -/

def clientStreamRound (rxBuffer : Bytes) : Round Bytes ClientStream :=
  if rxBuffer.length < headerSize then .done ⟨.processComplete, [], rxBuffer⟩
  else
    let header := readHeader rxBuffer
    if header.magic ≠ protocolKey then .done ⟨.invalidProtocolError, [], rxBuffer⟩
    else if rxBuffer.length < header.totalSize then .done ⟨.incompletePacket, [], rxBuffer⟩
    else
      let payload := packetPayload rxBuffer
      match PacketType.ofByte? header.type with
      | some .message => .done ⟨.printMessage, payload, afterPacket rxBuffer⟩
      | some .command =>
          if payload = literal "/quit" then .done ⟨.disconnectClient, [], afterPacket rxBuffer⟩
          else .done ⟨.sendPong, [], afterPacket rxBuffer⟩
      | some .ping => .done ⟨.sendPong, [], afterPacket rxBuffer⟩
      | _ => .again (afterPacket rxBuffer)

/-- Why the loop takes nothing off the front of a buffer that does not begin with a
packet. -/
def obstacle (buffer : Bytes) : ProcessStreamResult :=
  if buffer.length < headerSize then .processComplete
  else if (readHeader buffer).magic ≠ protocolKey then .invalidProtocolError
  else .incompletePacket

def ClientStream.append (stream : ClientStream) (more : Bytes) : ClientStream :=
  { stream with rxBuffer := stream.rxBuffer ++ more }

section

variable {buffer next : Bytes} {stream : ClientStream} {n : Nat}

theorem processClientStream_round (buffer : Bytes) :
    processClientStream buffer =
      match clientStreamRound buffer with
      | .again next => processClientStream next
      | .done stream => stream := by
  rw [processClientStream_eq]
  unfold clientStreamRound
  dsimp only
  generalize PacketType.ofByte? (readHeader buffer).type = type?
  split_ifs
  · rfl
  · rfl
  · rfl
  all_goals
    cases type? with
    | none => rfl
    | some type => cases type <;> rfl

theorem Begins.append (h : Begins buffer) (more : Bytes) : Begins (buffer ++ more) :=
  ⟨h.1.append more, by rw [readHeader_append h.1.1]; exact h.2⟩

theorem packetType?_append (h : headerSize ≤ buffer.length) (more : Bytes) :
    packetType? (buffer ++ more) = packetType? buffer := by
  rw [packetType?, packetType?, readHeader_append h]

theorem clientStreamRound_begins (h : Begins buffer) :
    clientStreamRound buffer =
      match packetType? buffer with
      | some .message => .done ⟨.printMessage, packetPayload buffer, afterPacket buffer⟩
      | some .command =>
          if packetPayload buffer = literal "/quit" then
            .done ⟨.disconnectClient, [], afterPacket buffer⟩
          else .done ⟨.sendPong, [], afterPacket buffer⟩
      | some .ping => .done ⟨.sendPong, [], afterPacket buffer⟩
      | _ => .again (afterPacket buffer) := by
  obtain ⟨hlong, hmagic, hcomplete⟩ := begins_iff.mp h
  rw [clientStreamRound, if_neg (not_lt.mpr hlong)]
  dsimp only
  rw [if_neg (not_not.mpr hmagic), if_neg (not_lt.mpr hcomplete)]
  rfl

theorem clientStreamRound_skipped (h : Begins buffer) (htype : ¬Sendable (packetType? buffer)) :
    clientStreamRound buffer = .again (afterPacket buffer) := by
  rw [clientStreamRound_begins h]
  split
  · exact absurd (.inl ‹_›) htype
  · exact absurd (.inr (.inr ‹_›)) htype
  · exact absurd (.inr (.inl ‹_›)) htype
  · rfl

theorem clientStreamRound_nothing (h : ¬Begins buffer) :
    clientStreamRound buffer = .done ⟨obstacle buffer, [], buffer⟩ := by
  rw [begins_iff] at h
  rw [clientStreamRound, obstacle]
  dsimp only
  by_cases hshort : buffer.length < headerSize
  · rw [if_pos hshort, if_pos hshort]
  · rw [if_neg hshort, if_neg hshort]
    by_cases hmagic : (readHeader buffer).magic ≠ protocolKey
    · rw [if_pos hmagic, if_pos hmagic]
    · have hincomplete : buffer.length < (readHeader buffer).totalSize := by
        by_contra hcomplete
        exact h ⟨not_lt.mp hshort, not_not.mp hmagic, not_lt.mp hcomplete⟩
      rw [if_neg hmagic, if_neg hmagic, if_pos hincomplete]

theorem obstacle_append (h : obstacle buffer = .invalidProtocolError) (more : Bytes) :
    ¬Begins (buffer ++ more) ∧ obstacle (buffer ++ more) = .invalidProtocolError := by
  unfold obstacle at h
  split_ifs at h with hshort hmagic
  have hheader := readHeader_append (not_lt.mp hshort) more
  have hlong : ¬(buffer ++ more).length < headerSize := by
    rw [List.length_append]
    omega
  refine ⟨fun hbegins => hmagic (hheader ▸ hbegins.2), ?_⟩
  rw [obstacle, if_neg hlong, hheader, if_pos hmagic]

/-- A round does not return only when a packet that no user sends is dropped. -/
theorem begins_of_again (h : clientStreamRound buffer = .again next) :
    Begins buffer ∧ ¬Sendable (packetType? buffer) ∧ next = afterPacket buffer := by
  have hbegins : Begins buffer := by
    by_contra hbegins
    simp [clientStreamRound_nothing hbegins] at h
  rw [clientStreamRound_begins hbegins] at h
  split at h
  · simp at h
  · split_ifs at h
  · simp at h
  · rename_i hmessage hcommand hping
    refine ⟨hbegins, ?_, (Round.again.inj h).symm⟩
    rintro (htype | htype | htype)
    · exact hmessage htype
    · exact hping htype
    · exact hcommand htype

theorem clientStreamRound_again_append (h : clientStreamRound buffer = .again next)
    (more : Bytes) : clientStreamRound (buffer ++ more) = .again (next ++ more) := by
  obtain ⟨hbegins, htype, rfl⟩ := begins_of_again h
  rw [← packetType?_append hbegins.1.1 more] at htype
  rw [clientStreamRound_skipped (hbegins.append more) htype, hbegins.1.afterPacket_append]

/-- What stops the loop on some bytes stops it on more. -/
theorem clientStreamRound_done_append (h : clientStreamRound buffer = .done stream)
    (hresult : stream.result ≠ .incompletePacket ∧ stream.result ≠ .processComplete)
    (more : Bytes) : clientStreamRound (buffer ++ more) = .done (stream.append more) := by
  by_cases hbegins : Begins buffer
  · rw [clientStreamRound_begins hbegins] at h
    rw [clientStreamRound_begins (hbegins.append more), packetType?_append hbegins.1.1,
      hbegins.1.packetPayload_append, hbegins.1.afterPacket_append]
    split at h
    · exact congrArg Round.done (congrArg (ClientStream.append · more) (Round.done.inj h))
    · split_ifs at h ⊢
      · exact congrArg Round.done (congrArg (ClientStream.append · more) (Round.done.inj h))
      · exact congrArg Round.done (congrArg (ClientStream.append · more) (Round.done.inj h))
    · exact congrArg Round.done (congrArg (ClientStream.append · more) (Round.done.inj h))
    · simp at h
  · rw [clientStreamRound_nothing hbegins] at h
    obtain rfl := Round.done.inj h
    have hinvalid : obstacle buffer = .invalidProtocolError := by
      unfold obstacle at hresult ⊢
      split_ifs at hresult ⊢ <;> simp at hresult ⊢
    obtain ⟨hnothing, hobstacle⟩ := obstacle_append hinvalid more
    rw [clientStreamRound_nothing hnothing, hobstacle, hinvalid]
    rfl

theorem rxBuffer_of_waiting (h : clientStreamRound buffer = .done stream)
    (hresult : stream.result = .incompletePacket ∨ stream.result = .processComplete) :
    stream.rxBuffer = buffer := by
  by_cases hbegins : Begins buffer
  · rw [clientStreamRound_begins hbegins] at h
    split at h
    · obtain rfl := Round.done.inj h
      simp at hresult
    · split_ifs at h <;> obtain rfl := Round.done.inj h <;> simp at hresult
    · obtain rfl := Round.done.inj h
      simp at hresult
    · simp at h
  · rw [clientStreamRound_nothing hbegins] at h
    obtain rfl := Round.done.inj h
    rfl

theorem processClientStream_of_done (h : clientStreamRound buffer = .done stream) :
    processClientStream buffer = stream := by
  rw [processClientStream_round, h]

theorem processClientStream_obstacle (h : ¬Begins buffer) :
    processClientStream buffer = ⟨obstacle buffer, [], buffer⟩ :=
  processClientStream_of_done (clientStreamRound_nothing h)

theorem processClientStream_of_returns (h : Returns clientStreamRound buffer n stream) :
    processClientStream buffer = stream := by
  obtain ⟨last, hreaches, hdone⟩ := h
  induction hreaches with
  | start => exact processClientStream_of_done hdone
  | again hagain _ ih =>
      rw [processClientStream_round, hagain]
      exact ih hdone

theorem clientStream_returns (buffer : Bytes) :
    ∃ n, Returns clientStreamRound buffer n (processClientStream buffer) ∧
      n ≤ buffer.length / headerSize := by
  have hshrinks : ∀ {buffer next : Bytes}, clientStreamRound buffer = .again next →
      next.length + headerSize ≤ buffer.length := by
    intro buffer next h
    obtain ⟨hbegins, -, rfl⟩ := begins_of_again h
    have hlength := hbegins.1.length_afterPacket
    omega
  obtain ⟨n, stream, hreturns, hn⟩ :=
    exists_returns List.length (by decide : 0 < headerSize) hshrinks buffer
  exact ⟨n, processClientStream_of_returns hreturns ▸ hreturns, hn⟩

/-- The loop of `process_client_stream` returns on every buffer.  A packet that is acted
on, or bytes that are no packet, are found the same way when more bytes stand behind
them, and a loop that stops for want of bytes can go on from what it leaves. -/
theorem client_stream_incremental (buffer : Bytes) :
    (∃ n, Returns clientStreamRound buffer n (processClientStream buffer) ∧
      n ≤ buffer.length / headerSize) ∧
    ∀ more,
      ((processClientStream buffer).result = .printMessage ∨
          (processClientStream buffer).result = .disconnectClient ∨
          (processClientStream buffer).result = .sendPong ∨
          (processClientStream buffer).result = .invalidProtocolError →
        processClientStream (buffer ++ more) = (processClientStream buffer).append more) ∧
      ((processClientStream buffer).result = .incompletePacket ∨
          (processClientStream buffer).result = .processComplete →
        processClientStream (buffer ++ more) =
          processClientStream ((processClientStream buffer).rxBuffer ++ more)) := by
  obtain ⟨n, ⟨last, hreaches, hdone⟩, hn⟩ := clientStream_returns buffer
  refine ⟨⟨n, ⟨last, hreaches, hdone⟩, hn⟩, fun more => ?_⟩
  have hlast : Reaches clientStreamRound (buffer ++ more) n (last ++ more) :=
    hreaches.map (· ++ more) fun h => clientStreamRound_again_append h more
  constructor
  · intro hresult
    have hfinal : (processClientStream buffer).result ≠ .incompletePacket ∧
        (processClientStream buffer).result ≠ .processComplete := by
      rcases hresult with h | h | h | h <;> simp [h]
    exact processClientStream_of_returns
      ⟨_, hlast, clientStreamRound_done_append hdone hfinal more⟩
  · intro hresult
    obtain ⟨m, hreturns, -⟩ := clientStream_returns (last ++ more)
    rw [rxBuffer_of_waiting hdone hresult]
    exact processClientStream_of_returns (.of_reaches hlast hreturns)

end

end TChat.Server
