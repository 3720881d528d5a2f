import TChat.Client.App
import TChat.Lib.Incremental
/-!
# What the client reads

`process_data_stream` decides from the front of the buffer, and more bytes never
change a decision.  `process_received_data` therefore does the same whichever way
the bytes of the server are cut into reads.
-/

namespace TChat.Client

open TChat.Common TChat.Lib

def ProcessStreamResult.waits (result : ProcessStreamResult) : Bool :=
  result.status = .bufferEmpty ∨ result.status = .incompletePacket

/-! ## The parser as a reader -/

section

variable {buffer rest : Bytes} {result : ProcessStreamResult}

theorem readMessage_waits (payload : Bytes) : (readMessage payload).waits = false := by
  unfold readMessage
  split_ifs
  · rfl
  · split
    · rfl
    · split_ifs <;> rfl
  · rfl
  · rfl

theorem readPayload_waits (type : Option PacketType) (payload : Bytes) :
    (readPayload type payload).waits = false := by
  unfold readPayload
  split
  · exact readMessage_waits payload
  all_goals rfl

theorem processDataStream_cases (h : (processDataStream buffer).1.waits = false) :
    headerSize ≤ buffer.length ∧
      (((readHeader buffer).magic ≠ protocolKey ∨
          maxMessagePayloadSize < (readHeader buffer).payloadLength) ∧
        processDataStream buffer = (.of .invalidProtocolError, buffer) ∨
      (readHeader buffer).magic = protocolKey ∧
        (readHeader buffer).payloadLength ≤ maxMessagePayloadSize ∧ StartsWithPacket buffer ∧
        processDataStream buffer =
          (readPayload (PacketType.ofByte? (readHeader buffer).type) (packetPayload buffer),
            afterPacket buffer)) := by
  unfold processDataStream at h ⊢
  split_ifs at h ⊢ with hempty hshort
  · simp [ProcessStreamResult.waits, ProcessStreamResult.of] at h
  · simp [ProcessStreamResult.waits, ProcessStreamResult.of] at h
  · refine ⟨not_lt.mp hshort, ?_⟩
    dsimp only at h ⊢
    split_ifs at h ⊢ with hmagic hlarge hincomplete
    · exact .inl ⟨.inl hmagic, rfl⟩
    · exact .inl ⟨.inr hlarge, rfl⟩
    · simp [ProcessStreamResult.waits, ProcessStreamResult.of] at h
    · exact .inr ⟨not_not.mp hmagic, not_lt.mp hlarge, ⟨not_lt.mp hshort, not_lt.mp hincomplete⟩,
        rfl⟩

theorem processDataStream_invalid (hlong : headerSize ≤ buffer.length)
    (h : (readHeader buffer).magic ≠ protocolKey ∨
      maxMessagePayloadSize < (readHeader buffer).payloadLength) :
    processDataStream buffer = (.of .invalidProtocolError, buffer) := by
  have hne : buffer ≠ [] := by
    rintro rfl
    simp [headerSize] at hlong
  rw [processDataStream, if_neg hne, if_neg (not_lt.mpr hlong)]
  dsimp only
  by_cases hmagic : (readHeader buffer).magic = protocolKey
  · rw [if_neg (not_not.mpr hmagic), if_pos (h.resolve_left (not_not.mpr hmagic))]
  · rw [if_pos hmagic]

theorem processDataStream_complete (hmagic : (readHeader buffer).magic = protocolKey)
    (hfits : (readHeader buffer).payloadLength ≤ maxMessagePayloadSize)
    (h : StartsWithPacket buffer) :
    processDataStream buffer =
      (readPayload (PacketType.ofByte? (readHeader buffer).type) (packetPayload buffer),
        afterPacket buffer) := by
  have hne : buffer ≠ [] := by
    rintro rfl
    simp [StartsWithPacket, headerSize] at h
  rw [processDataStream, if_neg hne, if_neg (not_lt.mpr h.1)]
  dsimp only
  rw [if_neg (not_not.mpr hmagic), if_neg (not_lt.mpr hfits), if_neg (not_lt.mpr h.2)]

/-- More bytes do not change what has been decided. -/
theorem processDataStream_append (h : (processDataStream buffer).1.waits = false)
    (more : Bytes) :
    (processDataStream (buffer ++ more)).1 = (processDataStream buffer).1 ∧
      ((processDataStream buffer).1.status ≠ .invalidProtocolError →
        (processDataStream (buffer ++ more)).2 = (processDataStream buffer).2 ++ more) := by
  obtain ⟨hlong, ⟨hbad, heq⟩ | ⟨hmagic, hfits, hstarts, heq⟩⟩ := processDataStream_cases h
  · rw [heq, processDataStream_invalid]
    · exact ⟨rfl, fun hvalid => absurd rfl hvalid⟩
    · rw [List.length_append]
      exact Nat.le_add_right_of_le hlong
    · rwa [readHeader_append hlong]
  · rw [heq, processDataStream_complete (by rwa [readHeader_append hlong])
      (by rwa [readHeader_append hlong]) (hstarts.append more), readHeader_append hlong,
      hstarts.packetPayload_append, hstarts.afterPacket_append]
    exact ⟨rfl, fun _ => rfl⟩

theorem processDataStream_shorter (h : (processDataStream buffer).1.waits = false)
    (hvalid : (processDataStream buffer).1.status ≠ .invalidProtocolError) :
    (processDataStream buffer).2.length < buffer.length := by
  obtain ⟨_, ⟨_, heq⟩ | ⟨_, _, hstarts, heq⟩⟩ := processDataStream_cases h
  · rw [heq] at hvalid
    exact absurd rfl hvalid
  · rw [heq]
    have hlength := hstarts.length_afterPacket
    unfold headerSize at hlength
    dsimp only
    omega

theorem processDataStream_waiting (h : (processDataStream buffer).1.waits = true) :
    (processDataStream buffer).2 = buffer := by
  unfold processDataStream at h ⊢
  dsimp only at h ⊢
  split_ifs at h ⊢
  all_goals first | rfl | simp [readPayload_waits] at h

end

def packetFront (buffer : Bytes) : Front UInt8 ProcessStreamResult :=
  let (result, rest) := processDataStream buffer
  if result.waits then .wait
  else if result.status = .invalidProtocolError then .stop result
  else .item result rest

/-- `process_data_stream` as a reader of packets. -/
def packets : Reader UInt8 ProcessStreamResult where
  front := packetFront
  shorter := by
    intro buffer result rest h
    unfold packetFront at h
    dsimp only at h
    split_ifs at h with hwaits hvalid
    obtain ⟨rfl, rfl⟩ := h
    exact processDataStream_shorter (by simpa using hwaits) hvalid
  item_append := by
    intro buffer result rest h more
    unfold packetFront at h ⊢
    dsimp only at h ⊢
    split_ifs at h with hwaits hvalid
    obtain ⟨rfl, rfl⟩ := h
    obtain ⟨hresult, hrest⟩ := processDataStream_append (by simpa using hwaits) more
    rw [hresult, if_neg hwaits, if_neg hvalid, hrest hvalid]
  stop_append := by
    intro buffer result h more
    unfold packetFront at h ⊢
    dsimp only at h ⊢
    split_ifs at h with hwaits hinvalid
    obtain ⟨rfl⟩ := h
    obtain ⟨hresult, _⟩ := processDataStream_append (by simpa using hwaits) more
    rw [hresult, if_neg hwaits, if_pos hinvalid]

theorem processDataStream_isPacket {type : PacketType} {payload packet : Bytes}
    (h : IsPacket type payload packet) (hfits : payload.length ≤ maxMessagePayloadSize)
    (more : Bytes) :
    processDataStream (packet ++ more) = (readPayload (some type) payload, more) := by
  have hheader := h.readHeader_append more
  rw [processDataStream_complete (by rw [hheader, h.magic]) (by rwa [hheader, h.payloadLength])
    (h.startsWithPacket more), hheader, h.type_eq, PacketType.ofByte?_toByte, h.payload_append,
    h.afterPacket_append]

theorem packets_front_isPacket {type : PacketType} {payload packet : Bytes}
    (h : IsPacket type payload packet) (hfits : payload.length ≤ maxMessagePayloadSize)
    (hvalid : (readPayload (some type) payload).status ≠ .invalidProtocolError) (more : Bytes) :
    packets.front (packet ++ more) = .item (readPayload (some type) payload) more := by
  have hparse := processDataStream_isPacket h hfits more
  simp [packets, packetFront, hparse, readPayload_waits, hvalid]

theorem packets_front_nil : packets.front [] = .wait := by
  simp [packets, packetFront, processDataStream, ProcessStreamResult.waits,
    ProcessStreamResult.of]

theorem drain_not_waits (buffer : Bytes) :
    ∀ result ∈ (packets.drain buffer).results, result.waits = false := by
  have hfront (buffer : Bytes) : ∀ result,
      ((∃ rest, packets.front buffer = .item result rest) ∨ packets.front buffer = .stop result) →
        result.waits = false := by
    intro result h
    simp only [packets, packetFront] at h
    split_ifs at h with hwaits hvalid <;> simp_all
  induction hlength : buffer.length using Nat.strong_induction_on generalizing buffer with
  | _ n ih =>
      cases hcase : packets.front buffer with
      | wait => simp [Reader.drain_wait hcase]
      | stop result =>
          rw [Reader.drain_stop hcase]
          simpa using hfront buffer result (.inr hcase)
      | item result rest =>
          rw [Reader.drain_item hcase]
          intro r hr
          rcases List.mem_cons.mp hr with rfl | hr
          · exact hfront buffer r (.inl ⟨rest, hcase⟩)
          · exact ih rest.length (hlength ▸ packets.shorter hcase) rest rfl r hr

/-! ## What the client does about packets -/

structure ClientConnection.Live (c : ClientConnection) : Prop where
  fd : 0 ≤ c.fd
  ssl : c.ssl ≠ none
  status : c.status ≠ .closing

structure ClientConnection.Closed (c : ClientConnection) : Prop where
  fd : c.fd = -1
  ssl : c.ssl = none
  rxBuffer : c.rxBuffer = []

def Action.waits : Action → Bool
  | .handled result => result.waits
  | _ => false

/-- The results handed to `handle_process_stream_result`, those apart that ask for more
bytes. -/
def understood (actions : List Action) : List ProcessStreamResult :=
  actions.filterMap fun
    | .handled result => if result.waits then none else some result
    | _ => none

def responses (result : ProcessStreamResult) : List Action :=
  .handled result ::
    match result.status with
    | .bufferEmpty | .incompletePacket | .receivedPong => []
    | .invalidProtocolError =>
        [.print (literal "Invalid server packet") .error [], .disconnect]
    | .printMessage =>
        if result.sender = literal "SERVER" then [.print result.message .server []]
        else [.print result.message .client result.sender]
    | .acknowledgement => [.print result.message .server []]
    | .errorAck => [.print result.message .error []]

/-- From `s` to `s'` the client has done what the packets of a reading ask for. -/
structure Responded (s s' : ClientApp) (reading : Reading UInt8 ProcessStreamResult) :
    Prop where
  actions : s'.actions.filter (!·.waits) =
    s.actions.filter (!·.waits) ++ reading.results.flatMap responses
  running : s'.running = s.running
  goesOn : ∀ rest, reading.buffer = some rest → s'.writeFilter = s.writeFilter ∧
    ∃ now waiting, (waiting = true → s.connection.readWaitingForWrite = true) ∧
      s'.connection =
        { s.connection with
          rxBuffer := rest
          lastServerActivity := now
          readWaitingForWrite := waiting }
  stopped : reading.buffer = none → s'.connection.Closed

theorem valid_of_waits {result : ProcessStreamResult} (h : result.waits = true) :
    result.status ≠ .invalidProtocolError := by
  intro hstatus
  simp [ProcessStreamResult.waits, hstatus] at h

theorem responses_of_waits {result : ProcessStreamResult} (h : result.waits = true) :
    responses result = [.handled result] := by
  obtain hstatus | hstatus : result.status = .bufferEmpty ∨ result.status = .incompletePacket := by
    simpa [ProcessStreamResult.waits] using h
  all_goals simp [responses, hstatus]

theorem filter_responses {result : ProcessStreamResult} (h : ¬result.waits) :
    (responses result).filter (!·.waits) = responses result := by
  have hhandled : (Action.handled result).waits = false := by simpa [Action.waits] using h
  unfold responses
  rw [List.filter_cons_of_pos (by simp [hhandled])]
  cases result.status with
  | printMessage => dsimp only; split_ifs <;> rfl
  | _ => rfl

theorem understood_responses {result : ProcessStreamResult} (h : result.waits = false) :
    understood (responses result) = [result] := by
  unfold responses
  cases hstatus : result.status with
  | printMessage => dsimp only; split_ifs <;> simp [understood, h]
  | _ => simp [understood, h]

theorem understood_filter (actions : List Action) :
    understood (actions.filter (!·.waits)) = understood actions := by
  rw [understood, understood, List.filterMap_filter]
  congr 1
  funext action
  cases action with
  | handled result => cases h : result.waits <;> simp [Action.waits, h]
  | _ => rfl

theorem Responded.understood_eq {s s' : ClientApp} {buffer : Bytes}
    (h : Responded s s' (packets.drain buffer)) :
    understood s'.actions = understood s.actions ++ (packets.drain buffer).results := by
  have hresults : ∀ results : List ProcessStreamResult, (∀ r ∈ results, r.waits = false) →
      understood (results.flatMap responses) = results := by
    intro results hall
    induction results with
    | nil => rfl
    | cons r results ih =>
        rw [List.flatMap_cons, understood, List.filterMap_append, ← understood, ← understood,
          understood_responses (hall r List.mem_cons_self),
          ih fun r' hr' => hall r' (List.mem_cons_of_mem _ hr')]
        rfl
  rw [← understood_filter, h.actions, understood, List.filterMap_append, ← understood,
    ← understood, understood_filter, hresults _ (drain_not_waits buffer)]

namespace ClientApp

variable {s : ClientApp} {result : ProcessStreamResult} {now : Int}

def lastActivity (now : Int) (result : ProcessStreamResult) (earlier : Int) : Int :=
  if result.status = .receivedPong then now else earlier

theorem handleProcessStreamResult_valid (s : ClientApp) (now : Int)
    (h : result.status ≠ .invalidProtocolError) :
    s.handleProcessStreamResult now result =
      (true,
        { s with
          connection :=
            { s.connection with
              lastServerActivity := lastActivity now result s.connection.lastServerActivity }
          actions := s.actions ++ responses result }) := by
  unfold handleProcessStreamResult responses lastActivity
  cases hstatus : result.status with
  | invalidProtocolError => exact absurd hstatus h
  | receivedPong => rfl
  | printMessage =>
      simp only [reduceCtorEq, if_false]
      split_ifs <;> simp [printMessage, log]
  | bufferEmpty | incompletePacket | acknowledgement | errorAck => simp [printMessage, log]

theorem disconnect_live (h : s.connection.Live) :
    s.disconnect =
      { s with
        connection := closeConnection s.connection
        writeFilter := false
        state := .disconnected
        actions := s.actions ++ [.disconnect] } := by
  have hopen : ¬(s.connection.fd < 0 ∧ s.connection.ssl = none) := fun hclosed =>
    h.ssl hclosed.2
  simp [disconnect, log, hopen]

theorem handleProcessStreamResult_invalid (hlive : s.connection.Live) (now : Int)
    (h : result.status = .invalidProtocolError) :
    s.handleProcessStreamResult now result =
      (false,
        { s with
          connection := closeConnection s.connection
          writeFilter := false
          state := .disconnected
          actions := s.actions ++ responses result }) := by
  have hlogged := disconnect_live
    (s := (s.log [.handled result]).printMessage (literal "Invalid server packet") .error) hlive
  unfold handleProcessStreamResult responses
  simp only [h, hlogged]
  simp [printMessage, log]

theorem processReceivedLoop_step {s t : ClientApp} {rest : Bytes} {goesOn : Bool} (fuel : Nat)
    (hparse : processDataStream s.connection.rxBuffer = (result, rest))
    (hhandled :
      (s.withConnection { s.connection with rxBuffer := rest }).handleProcessStreamResult
        now result = (goesOn, t)) :
    processReceivedLoop now (fuel + 1) s =
      if !goesOn then some t
      else if result.waits then some t
      else processReceivedLoop now fuel t := by
  simp [processReceivedLoop, hparse, hhandled, ProcessStreamResult.waits]

theorem handleProcessStreamResult_hangsUp (s : ClientApp) (now : Int)
    (h : result.status = .invalidProtocolError) :
    ∃ t, s.handleProcessStreamResult now result = (false, t) := by
  simp [handleProcessStreamResult, h]

theorem processReceivedLoop_returns (fuel : Nat) (s : ClientApp) (now : Int)
    (hfuel : s.connection.rxBuffer.length < fuel) :
    ∃ s', processReceivedLoop now fuel s = some s' := by
  induction fuel generalizing s with
  | zero => exact absurd hfuel (Nat.not_lt_zero _)
  | succ fuel ih =>
      obtain ⟨result, rest, hparse⟩ :
          ∃ result rest, processDataStream s.connection.rxBuffer = (result, rest) := ⟨_, _, rfl⟩
      by_cases hvalid : result.status = .invalidProtocolError
      · obtain ⟨t, ht⟩ := handleProcessStreamResult_hangsUp
          (s.withConnection { s.connection with rxBuffer := rest }) now hvalid
        exact ⟨t, processReceivedLoop_step fuel hparse ht⟩
      · have ht := handleProcessStreamResult_valid
          (s.withConnection { s.connection with rxBuffer := rest }) now hvalid
        rw [processReceivedLoop_step fuel hparse ht]
        by_cases hwaits : result.waits
        · exact ⟨_, by rw [hwaits]; rfl⟩
        · -- a packet has been erased from the buffer
          have hshorter : rest.length < s.connection.rxBuffer.length := by
            have h := @processDataStream_shorter s.connection.rxBuffer
            rw [hparse] at h
            exact h (by simpa using hwaits) hvalid
          simpa [hwaits] using ih _ (Nat.lt_of_lt_of_le hshorter (Nat.le_of_lt_succ hfuel))

/-- The loop of `process_received_data` returns, and has then done what the packets
at the front of the buffer ask for. -/
theorem processReceivedLoop_responded (fuel : Nat) (s : ClientApp) (now : Int)
    (hlive : s.connection.Live) (hfuel : s.connection.rxBuffer.length < fuel) :
    ∃ s', processReceivedLoop now fuel s = some s' ∧
      Responded s s' (packets.drain s.connection.rxBuffer) := by
  induction fuel generalizing s with
  | zero => exact absurd hfuel (Nat.not_lt_zero _)
  | succ fuel ih =>
      obtain ⟨result, rest, hparse⟩ :
          ∃ result rest, processDataStream s.connection.rxBuffer = (result, rest) := ⟨_, _, rfl⟩
      by_cases hwaits : result.waits
      · -- too few bytes: the loop ends, and the buffer stays
        have hfront : packets.front s.connection.rxBuffer = .wait := by
          simp [packets, packetFront, hparse, hwaits]
        have hrest : rest = s.connection.rxBuffer := by
          have h := @processDataStream_waiting s.connection.rxBuffer
          rw [hparse] at h
          exact h hwaits
        have hhandled := handleProcessStreamResult_valid
          (s.withConnection { s.connection with rxBuffer := rest }) now
          (valid_of_waits hwaits)
        refine ⟨_, (processReceivedLoop_step fuel hparse hhandled).trans (by rw [hwaits]; rfl), ?_⟩
        rw [Reader.drain_wait hfront]
        refine ⟨?_, rfl, ?_, nofun⟩
        · simp [withConnection, responses_of_waits hwaits, Action.waits, hwaits]
        · rintro rest' h
          obtain rfl : s.connection.rxBuffer = rest' := by simpa using h
          exact ⟨rfl, lastActivity now result s.connection.lastServerActivity, _, id,
            by simp [withConnection, hrest]⟩
      · by_cases hvalid : result.status = .invalidProtocolError
        · -- the client hangs up
          have hfront : packets.front s.connection.rxBuffer = .stop result := by
            simp [packets, packetFront, hparse, hwaits, hvalid]
          have hhandled := handleProcessStreamResult_invalid
            (s := s.withConnection { s.connection with rxBuffer := rest })
            ⟨hlive.fd, hlive.ssl, hlive.status⟩ now hvalid
          refine ⟨_, (processReceivedLoop_step fuel hparse hhandled).trans rfl, ?_⟩
          rw [Reader.drain_stop hfront]
          refine ⟨?_, rfl, nofun, fun _ => ⟨rfl, rfl, rfl⟩⟩
          simp [withConnection, filter_responses hwaits]
        · -- one packet is handled, and the loop goes on with the rest
          have hfront : packets.front s.connection.rxBuffer = .item result rest := by
            simp [packets, packetFront, hparse, hwaits, hvalid]
          have hhandled := handleProcessStreamResult_valid
            (s.withConnection { s.connection with rxBuffer := rest }) now hvalid
          have hshorter := packets.shorter hfront
          obtain ⟨s', hloop, hresponded⟩ := ih
            { s with
              connection :=
                { s.connection with
                  rxBuffer := rest
                  lastServerActivity := lastActivity now result s.connection.lastServerActivity }
              actions := s.actions ++ responses result }
            ⟨hlive.fd, hlive.ssl, hlive.status⟩ (by dsimp only; omega)
          refine ⟨s', (processReceivedLoop_step fuel hparse hhandled).trans ?_, ?_⟩
          · simpa [hwaits] using hloop
          · rw [Reader.drain_item hfront]
            refine ⟨?_, hresponded.running, fun rest' h => ?_, hresponded.stopped⟩
            · simp [hresponded.actions, Reading.after, filter_responses hwaits]
            · obtain ⟨hfilter, later, waiting, hwaiting, hconnection⟩ :=
                hresponded.goesOn rest' h
              exact ⟨hfilter, later, waiting, hwaiting, hconnection⟩

/-- `process_received_data` returns after finitely many iterations. -/
theorem processReceivedData_returns (s : ClientApp) (now : Int) :
    ∃ fuel, processReceivedLoop now fuel s = some (s.processReceivedData now) := by
  obtain ⟨s', hloop⟩ := processReceivedLoop_returns (s.connection.rxBuffer.length + 1) s now
    (Nat.lt_succ_self _)
  exact ⟨_, by rw [processReceivedData, hloop]; rfl⟩

theorem processReceivedData_responded (hlive : s.connection.Live) (now : Int) :
    Responded s (s.processReceivedData now) (packets.drain s.connection.rxBuffer) := by
  obtain ⟨s', hloop, hresponded⟩ :=
    processReceivedLoop_responded (s.connection.rxBuffer.length + 1) s now hlive
      (Nat.lt_succ_self _)
  rwa [processReceivedData, hloop]

/-! ## Pieces of a stream -/

/-- A piece is there to be read: what `handle_read` delivers is processed. -/
def deliver (now : Int) (piece : Bytes) (s : ClientApp) : ClientApp :=
  match handleRead s.connection [.received piece] with
  | some (.dataReceived, connection, _) =>
      (s.withConnection connection).processReceivedData now
  | _ => s

def deliverAll (pieces : List (Int × Bytes)) (s : ClientApp) : ClientApp :=
  pieces.foldl (fun s piece => s.deliver piece.1 piece.2) s

end ClientApp

/-- The bytes `SSL_read` can store in the buffer of `handle_read`. -/
def Deliverable (piece : Bytes) : Prop := piece ≠ [] ∧ piece.length ≤ readBufferSize

instance (piece : Bytes) : Decidable (Deliverable piece) := instDecidableAnd

theorem handleRead_received {c : ClientConnection} {piece : Bytes} (hlive : c.Live)
    (h : Deliverable piece) (reads : List SslRead) :
    handleRead c (.received piece :: reads) =
      some (.dataReceived,
        { c with rxBuffer := c.rxBuffer ++ piece, readWaitingForWrite := false }, reads) := by
  rw [handleRead, if_neg (not_lt.mpr hlive.fd), if_neg hlive.ssl, if_neg hlive.status, readLoop,
    if_neg (by simpa [Deliverable] using h)]

theorem handleRead_closed {c : ClientConnection} (h : c.Closed) (outcomes : List SslRead) :
    handleRead c outcomes = some (.fatalError, c, outcomes) := by
  rw [handleRead, if_pos (by rw [h.fd]; decide)]

theorem pieces_eq_nil {pieces : List (Int × Bytes)}
    (hpieces : ∀ piece ∈ pieces, Deliverable piece.2)
    (h : (pieces.map (·.2)).flatten = []) : pieces = [] := by
  rw [List.flatten_eq_nil_iff] at h
  refine List.eq_nil_iff_forall_not_mem.mpr fun piece hmem => ?_
  exact (hpieces piece hmem).1 (h _ (List.mem_map_of_mem hmem))

theorem Responded.rxBuffer_eq {s t t' : ClientApp} {reading : Reading UInt8 ProcessStreamResult}
    (h : Responded s t reading) (h' : Responded s t' reading) :
    t.connection.rxBuffer = t'.connection.rxBuffer := by
  cases hbuffer : reading.buffer with
  | none => rw [(h.stopped hbuffer).rxBuffer, (h'.stopped hbuffer).rxBuffer]
  | some rest =>
      obtain ⟨-, _, _, -, hconnection⟩ := h.goesOn rest hbuffer
      obtain ⟨-, _, _, -, hconnection'⟩ := h'.goesOn rest hbuffer
      rw [hconnection, hconnection']

namespace ClientApp

variable {s t : ClientApp} {reading : Reading UInt8 ProcessStreamResult}

theorem deliver_responded (hlive : s.connection.Live) (h : Responded s t reading)
    {piece : Bytes} (hpiece : Deliverable piece) (now : Int) :
    Responded s (t.deliver now piece) (packets.receive reading piece) := by
  obtain ⟨results, buffer⟩ := reading
  cases buffer with
  | none => simpa [deliver, handleRead_closed (h.stopped rfl), Reader.receive] using h
  | some buffer =>
      obtain ⟨hfilter, activity, waiting, hwaiting, hconnection⟩ := h.goesOn buffer rfl
      have hlive' : t.connection.Live := by
        rw [hconnection]
        exact ⟨hlive.fd, hlive.ssl, hlive.status⟩
      have hdelivered := handleRead_received hlive' hpiece []
      have hresponded := processReceivedData_responded
        (s := t.withConnection
          { t.connection with
            rxBuffer := t.connection.rxBuffer ++ piece, readWaitingForWrite := false })
        ⟨hlive'.fd, hlive'.ssl, hlive'.status⟩ now
      have hbuffer : t.connection.rxBuffer = buffer := by rw [hconnection]
      simp only [deliver, hdelivered, Reader.receive, ← hbuffer]
      refine ⟨?_, hresponded.running.trans h.running, fun rest hrest => ?_, hresponded.stopped⟩
      · rw [hresponded.actions, withConnection_actions, h.actions]
        simp [Reading.after]
      · obtain ⟨hfilter', activity', waiting', hwaiting', hconnection'⟩ :=
          hresponded.goesOn rest hrest
        refine ⟨hfilter'.trans hfilter, activity', waiting', ?_, ?_⟩
        · intro h'
          exact absurd (hwaiting' h') Bool.false_ne_true
        · rw [hconnection', withConnection_connection, hconnection]

theorem deliverAll_responded (hlive : s.connection.Live) (h : Responded s t reading)
    {pieces : List (Int × Bytes)} (hpieces : ∀ piece ∈ pieces, Deliverable piece.2) :
    Responded s (t.deliverAll pieces) (packets.receiveAll reading (pieces.map (·.2))) := by
  induction pieces generalizing t reading with
  | nil => exact h
  | cons piece pieces ih =>
      exact ih (deliver_responded hlive h (hpieces _ List.mem_cons_self) _)
        fun piece' hmem => hpieces piece' (List.mem_cons_of_mem _ hmem)

theorem responded_refl (s : ClientApp) :
    Responded s s ⟨[], some s.connection.rxBuffer⟩ := by
  refine ⟨by simp, rfl, ?_, nofun⟩
  rintro rest ⟨⟩
  exact ⟨rfl, s.connection.lastServerActivity, _, id, rfl⟩

/-- What a client does about a stream depends on the bytes of the stream alone. -/
theorem deliverAll_stream (hlive : s.connection.Live) {pieces : List (Int × Bytes)}
    (hpieces : ∀ piece ∈ pieces, Deliverable piece.2) (hne : pieces ≠ []) :
    Responded s (s.deliverAll pieces)
      (packets.drain (s.connection.rxBuffer ++ (pieces.map (·.2)).flatten)) := by
  have h := deliverAll_responded hlive (responded_refl s) hpieces
  rwa [Reader.receiveAll_eq _ (by simpa using hne)] at h

theorem deliverAll_fresh (hlive : s.connection.Live) (hbuffer : s.connection.rxBuffer = [])
    {pieces : List (Int × Bytes)} (hpieces : ∀ piece ∈ pieces, Deliverable piece.2) :
    Responded s (s.deliverAll pieces) (packets.drain (pieces.map (·.2)).flatten) := by
  by_cases hne : pieces = []
  · have hrefl := responded_refl s
    rw [hbuffer, ← Reader.drain_wait packets_front_nil] at hrefl
    rw [hne]
    exact hrefl
  · have hstream := deliverAll_stream hlive hpieces hne
    rwa [hbuffer, List.nil_append] at hstream

end ClientApp

/-- For every stream of bytes and any two ways of cutting it into the pieces that
`handle_read` delivers, at any times: `process_received_data` returns, the results it
hands to `handle_process_stream_result` are the same except for those that ask for
more bytes, what is done about them, `disconnect` included, is the same in the same
places, and the same bytes are left in `rx_buffer`. -/
theorem received_data_segmentation_independent (s : ClientApp) (hlive : s.connection.Live)
    (pieces pieces' : List (Int × Bytes)) (hpieces : ∀ piece ∈ pieces, Deliverable piece.2)
    (hpieces' : ∀ piece ∈ pieces', Deliverable piece.2)
    (hstream : (pieces.map (·.2)).flatten = (pieces'.map (·.2)).flatten) :
    (∀ now t, ∃ fuel,
        ClientApp.processReceivedLoop now fuel t = some (t.processReceivedData now)) ∧
      (s.deliverAll pieces).actions.filter (!·.waits) =
        (s.deliverAll pieces').actions.filter (!·.waits) ∧
      (s.deliverAll pieces).connection.rxBuffer =
        (s.deliverAll pieces').connection.rxBuffer := by
  refine ⟨fun now t => ClientApp.processReceivedData_returns t now, ?_⟩
  by_cases hne : pieces = []
  · have hne' : pieces' = [] := by
      rw [hne] at hstream
      exact pieces_eq_nil hpieces' hstream.symm
    rw [hne, hne']
    exact ⟨rfl, rfl⟩
  · have hne' : pieces' ≠ [] := by
      rintro rfl
      exact hne (pieces_eq_nil hpieces hstream)
    have h := ClientApp.deliverAll_stream hlive hpieces hne
    have h' := ClientApp.deliverAll_stream hlive hpieces' hne'
    rw [← hstream] at h'
    exact ⟨h.actions.trans h'.actions.symm, h.rxBuffer_eq h'⟩

def establishedClient : ClientApp where
  connection := .establish 3 0 0
  running := true
  username := []
  token := []
  state := .disconnected
  consoleInputBuffer := []
  writeFilter := false
  actions := []

theorem establishedClient_live : establishedClient.connection.Live := by
  constructor <;> decide

theorem received_data_segmentation_independent_pong :
    (∀ now t, ∃ fuel,
        ClientApp.processReceivedLoop now fuel t = some (t.processReceivedData now)) ∧
      (establishedClient.deliverAll
          [(0, createPacketStream .pong [])]).actions.filter (!·.waits) =
        (establishedClient.deliverAll
          [(0, (createPacketStream .pong []).take 5),
            (1, (createPacketStream .pong []).drop 5)]).actions.filter (!·.waits) ∧
      (establishedClient.deliverAll [(0, createPacketStream .pong [])]).connection.rxBuffer =
        (establishedClient.deliverAll
          [(0, (createPacketStream .pong []).take 5),
            (1, (createPacketStream .pong []).drop 5)]).connection.rxBuffer :=
  received_data_segmentation_independent establishedClient establishedClient_live _ _
    (by decide) (by decide) (by decide)

end TChat.Client
