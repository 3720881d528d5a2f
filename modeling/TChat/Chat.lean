import TChat.Display
import TChat.Server.Outbox
import TChat.Server.SessionStates
/-!
# What the clients of one chat have seen

The server puts all broadcasts into one order.  Between that order and the screens lie a
queue for each connection, TLS, and the client's own buffer; what a client has printed is
nevertheless the beginning of what was broadcast to it.
-/

namespace TChat

open TChat.Common TChat.Lib
open TChat.Client hiding Input
open TChat.Server (ServerApp ServerRun ConnectionPtr Input Announcement Replies Announces
  queuedDuring callsDuring queuedOn messagesTo messagesHeard announcements announcedTo)

/-- What the client makes of a packet. -/
def content (packet : Bytes) : ProcessStreamResult := (processDataStream packet).1

/-- A client behind the connection `q` of a server: in the handshake it has taken the packets
`head`, and since then it has read the pieces. -/
structure Follower (history : List (Transition ServerApp Input)) (q : ConnectionPtr) where
  head : List Bytes
  tail : List Bytes
  client : ClientApp
  pieces : List (Int × Bytes)
  queued : queuedDuring q history = head ++ tail
  handshake : ∀ packet ∈ head, packetType? packet ≠ some .message
  live : client.connection.Live
  deliverable : ∀ piece ∈ pieces, Deliverable piece.2
  received : head.flatten ++ (client.connection.rxBuffer ++ (pieces.map (·.2)).flatten) <+:
    accepted (callsDuring q history)

/-- The messages that it has been told to print since the handshake. -/
def Follower.shown {history : List (Transition ServerApp Input)} {q : ConnectionPtr}
    (f : Follower history q) : List ProcessStreamResult :=
  ((understood (f.client.deliverAll f.pieces).actions).drop
    (understood f.client.actions).length).filter (·.status = .printMessage)

/-! ## Packets as the client reads them -/

section

variable {type : PacketType} {payload packet : Bytes}

theorem front_packet (hlength : payload.length < 2 ^ 32) :
    (∀ more, packets.front (createPacketStream type payload ++ more) =
        .item (content (createPacketStream type payload)) more) ∨
      ∀ more, packets.front (createPacketStream type payload ++ more) =
        .stop (content (createPacketStream type payload)) := by
  have hpacket := isPacket_createPacketStream type hlength
  by_cases hfits : payload.length ≤ maxMessagePayloadSize
  · have hcontent : content (createPacketStream type payload) =
        readPayload (some type) payload :=
      processDataStream_packet hfits
    by_cases hvalid : (readPayload (some type) payload).status = .invalidProtocolError
    · right
      intro more
      have hparse := processDataStream_isPacket hpacket hfits more
      rw [hcontent]
      simp [packets, packetFront, hparse, readPayload_waits, hvalid]
    · left
      intro more
      rw [hcontent]
      exact packets_front_isPacket hpacket hfits hvalid more
  · right
    have hlarge : maxMessagePayloadSize < payload.length % 2 ^ 32 := by
      rw [Nat.mod_eq_of_lt hlength]
      omega
    have hparse := @processDataStream_large type payload hlarge
    have hcontent : content (createPacketStream type payload) = .of .invalidProtocolError := by
      rw [content, hparse]
    have hstop : packets.front (createPacketStream type payload) =
        .stop (.of .invalidProtocolError) := by
      simp [packets, packetFront, hparse, ProcessStreamResult.waits, ProcessStreamResult.of]
    rw [hcontent]
    exact packets.stop_append hstop

theorem not_printed_of_stop
    (h : ∀ more, packets.front (packet ++ more) = .stop (content packet)) :
    (content packet).status = .invalidProtocolError := by
  have hstop := h []
  rw [List.append_nil] at hstop
  simp only [packets, packetFront] at hstop
  split_ifs at hstop with hwaits hinvalid
  exact hinvalid

/-- Message packets, and no others, are printed as messages. -/
theorem printed_iff_message {result : ProcessStreamResult} (hlength : payload.length < 2 ^ 32)
    (h : packets.front (createPacketStream type payload) = .item result []) :
    result.status = .printMessage ↔ type = .message := by
  have hfits : payload.length ≤ maxMessagePayloadSize := by
    by_contra hlarge
    have hparse := @processDataStream_large type payload (by
      rw [Nat.mod_eq_of_lt hlength]
      omega)
    simp [packets, packetFront, hparse, ProcessStreamResult.waits, ProcessStreamResult.of] at h
  have hparse := processDataStream_isPacket (isPacket_createPacketStream type hlength) hfits []
  rw [List.append_nil] at hparse
  have hvalid : (readPayload (some type) payload).status ≠ .invalidProtocolError := by
    intro hinvalid
    simp [packets, packetFront, hparse, readPayload_waits, hinvalid] at h
  have hresult : result = readPayload (some type) payload := by
    simpa [packets, packetFront, hparse, readPayload_waits, hvalid, eq_comm] using h
  rw [hresult]
  cases type with
  | message =>
      rcases readMessage_cases payload with hprints | hinvalid
      · simp [readPayload, hprints]
      · exact absurd (by rw [readPayload, hinvalid]; rfl) hvalid
  | _ => simp [readPayload, ProcessStreamResult.of]

end

/-! ## What is queued on a connection -/

section

variable {now : Server.Time} {history : List (Transition ServerApp Input)} {s : ServerApp}
  {i : Input} {q r : ConnectionPtr} {packet : Bytes}

theorem packet_of_replies (h : Replies i s q packet) : ∃ type payload,
    packet = createPacketStream type payload ∧ payload.length < 2 ^ 32 ∧ type ≠ .message := by
  cases h with
  | @refusal _ _ _ status =>
      cases status <;> exact ⟨_, _, rfl, by decide, by decide⟩
  | registered => exact ⟨_, _, rfl, by decide, by decide⟩
  | welcome =>
      refine ⟨_, _, rfl, ?_, by decide⟩
      rw [List.length_append, Server.length_generateToken]
      decide
  | pong => exact ⟨_, _, rfl, by decide, by decide⟩

theorem packet_of_announces {sender : Option ConnectionPtr}
    (h : Announces i s sender packet) : ∃ payload,
    packet = createPacketStream .message payload ∧ payload.length ≤ packet.length := by
  have hlength : ∀ payload : Bytes,
      payload.length ≤ (createPacketStream .message payload).length := by
    intro payload
    rw [createPacketStream, List.length_append]
    omega
  cases h with
  | client => exact ⟨_, rfl, hlength _⟩
  | console => exact ⟨_, rfl, hlength _⟩

/-- What a run queues on a connection is a reply or a broadcast. -/
theorem queued_cases (hrun : ServerRun now history s) (h : packet ∈ queuedDuring q history) :
    (∃ t ∈ history, Replies t.input t.pre q packet) ∨
      ∃ t ∈ history, ∃ a ∈ announcements history, a.packet = packet ∧
        Announces t.input t.pre a.sender packet := by
  obtain ⟨t, ht, hqueued⟩ := List.mem_flatMap.mp h
  obtain ⟨action, haction, hpacket⟩ := List.mem_filterMap.mp hqueued
  obtain rfl : action = .queueWrite q packet := by
    cases action with
    | queueWrite r packet' =>
        dsimp only at hpacket
        split_ifs at hpacket with hr
        rw [Option.some.inj hpacket, hr]
    | _ => simp at hpacket
  have hperforms := Server.performs_of_run hrun ht
  generalize hactions : t.post.actions = actions at hperforms haction
  cases hperforms with
  | silent hquiet => exact .inl ⟨t, ht, hquiet _ haction⟩
  | @announces sender packet' audience hannounces =>
      simp only [List.mem_cons, reduceCtorEq, List.mem_map, Server.Action.queueWrite.injEq,
        false_or] at haction
      obtain ⟨_, -, -, rfl⟩ := haction
      have hannounced : (⟨t.pre, sender, packet'⟩ : Announcement) ∈ announcements history := by
        apply List.mem_flatMap_of_mem ht
        rw [hactions]
        exact List.mem_filterMap.mpr ⟨_, List.mem_cons_self, rfl⟩
      exact .inr ⟨t, ht, _, hannounced, rfl, hannounces⟩

theorem packet_of_queued (hrun : ServerRun now history s) (h : packet ∈ queuedDuring q history)
    (hfits : packet.length ≤ intMax) : ∃ type payload,
    packet = createPacketStream type payload ∧ payload.length < 2 ^ 32 := by
  have hint : intMax < 2 ^ 32 := by decide
  rcases queued_cases hrun h with ⟨t, -, hreplies⟩ | ⟨t, -, a, ha, rfl, hannounces⟩
  · obtain ⟨type, payload, hpacket, hlength, -⟩ := packet_of_replies hreplies
    exact ⟨type, payload, hpacket, hlength⟩
  · obtain ⟨payload, hpacket, hlength⟩ := packet_of_announces hannounces
    exact ⟨.message, payload, hpacket, (hlength.trans hfits).trans_lt hint⟩

theorem messagesHeard_eq_filter (history : List (Transition ServerApp Input))
    (q : ConnectionPtr) :
    messagesHeard history q =
      (queuedDuring q history).filter (packetType? · = some .message) := by
  rw [messagesHeard, queuedDuring, List.filter_flatMap]
  apply List.flatMap_congr
  intro t _
  rw [messagesTo, queuedOn, List.filter_filterMap]
  congr 1
  funext action
  cases action with
  | queueWrite r packet =>
      by_cases hr : r = q <;> by_cases htype : packetType? packet = some .message <;>
        simp [hr, htype, Option.filter]
  | _ => rfl

theorem messages_of_queue (hrun : ServerRun now history s) (q : ConnectionPtr) :
    (queuedDuring q history).filter (packetType? · = some .message) =
      (announcedTo history q).map (·.packet) := by
  rw [← messagesHeard_eq_filter, messagesHeard, announcedTo, announcements,
    List.filter_flatMap, List.map_flatMap]
  exact List.flatMap_congr fun t ht =>
    Server.messagesTo_of_performs (Server.performs_of_run hrun ht)

theorem content_clientBroadcast {name text : Bytes} (hbar : bar ∉ name)
    (hsmall : (ServerApp.clientBroadcast name text).length < 2 ^ 32)
    (hprinted : (content (ServerApp.clientBroadcast name text)).status = .printMessage) :
    content (ServerApp.clientBroadcast name text) = ⟨.printMessage, text, name⟩ := by
  apply (Server.processDataStream_clientBroadcast hbar text).mpr
  have hlength := Server.length_clientPayload name text
  rw [ServerApp.clientBroadcast, createPacketStream, List.length_append, hlength] at hsmall
  by_cases hfits : 3 + name.length + text.length ≤ maxMessagePayloadSize
  · refine ⟨?_, hfits⟩
    rintro rfl
    rw [content, ServerApp.clientBroadcast, processDataStream_packet (hlength ▸ hfits),
      readPayload, readMessage_client hbar, if_pos rfl] at hprinted
    simp [ProcessStreamResult.of] at hprinted
  · rw [content, ServerApp.clientBroadcast, processDataStream_large (by
      rw [hlength, Nat.mod_eq_of_lt (by omega)]
      omega)] at hprinted
    simp [ProcessStreamResult.of] at hprinted

theorem content_of_announced (hrun : ServerRun now history s) {a : Announcement}
    (ha : a ∈ announcements history) (hfits : a.packet.length ≤ intMax)
    (hprinted : (content a.packet).status = .printMessage) :
    (∃ p session text, a.sender = some p ∧
      Server.ClientManager.findSesssionFromConnection p a.state = some session ∧
      a.packet = ServerApp.clientBroadcast session.username text ∧
      content a.packet = ⟨.printMessage, text, session.username⟩) ∨
    ∃ line, a.sender = none ∧ a.packet = ServerApp.serverBroadcast line ∧
      content a.packet = ⟨.printMessage, line, literal "SERVER"⟩ := by
  obtain ⟨t, ht, hbroadcast⟩ := List.mem_flatMap.mp ha
  obtain ⟨-, before, hbefore⟩ := hrun.transition ht
  obtain ⟨hstate, hannounces⟩ :=
    Server.announces_of_performs (Server.performs_of_run hrun ht) hbroadcast
  obtain ⟨state, sender, packet⟩ := a
  obtain rfl : state = t.pre := hstate
  cases hannounces with
  | @client p c stream session _ _ _ hsession =>
      left
      have hbar := Server.username_noBar (Server.wellFormed_of_run hbefore) hsession
      have hint : intMax < 2 ^ 32 := by decide
      exact ⟨p, session, stream.message, rfl, hsession, rfl,
        content_clientBroadcast hbar (hfits.trans_lt hint) hprinted⟩
  | console _ hline =>
      right
      exact ⟨_, rfl, rfl, Server.processDataStream_serverBroadcast
        ((Server.length_readConsoleInput hline (Server.console_of_run hbefore)).2 rfl)⟩

theorem Follower.understood_eq (f : Follower history q) :
    ∃ results, understood (f.client.deliverAll f.pieces).actions =
        understood f.client.actions ++ results ∧
      results <+: (packets.drain
        (f.client.connection.rxBuffer ++ (f.pieces.map (·.2)).flatten)).results := by
  by_cases hne : f.pieces = []
  · refine ⟨[], ?_, List.nil_prefix⟩
    rw [hne, List.append_nil]
    rfl
  · have hresponded := ClientApp.deliverAll_stream f.live f.deliverable hne
    exact ⟨_, hresponded.understood_eq, List.prefix_rfl⟩

/-- The packets queued since the handshake that are in front of the first that does not fit
an `int`. -/
def Follower.sent (f : Follower history q) : List Bytes :=
  f.tail.takeWhile (·.length ≤ intMax)

theorem Follower.received_sent (hrun : ServerRun now history s) (f : Follower history q) :
    f.client.connection.rxBuffer ++ (f.pieces.map (·.2)).flatten <+: f.sent.flatten := by
  have hsent := f.received.trans (Server.accepted_small_of_run hrun q)
  rw [f.queued] at hsent
  have hhead : ∀ packet ∈ f.head, packet.length ≤ intMax :=
    length_le_of_flatten_prefix ((List.prefix_append _ _).trans hsent)
  rwa [List.takeWhile_append_of_pos fun packet hpacket => decide_eq_true (hhead packet hpacket),
    List.flatten_append, List.prefix_append_right_inj] at hsent

theorem Follower.mem_queued (f : Follower history q) (h : packet ∈ f.tail) :
    packet ∈ queuedDuring q history := by
  rw [f.queued]
  exact List.mem_append_right _ h

theorem Follower.messages_of_tail (hrun : ServerRun now history s) (f : Follower history q) :
    f.tail.filter (packetType? · = some .message) = (announcedTo history q).map (·.packet) := by
  have hhead : f.head.filter (packetType? · = some .message) = [] :=
    List.filter_eq_nil_iff.mpr fun packet hpacket => by simpa using f.handshake packet hpacket
  calc f.tail.filter (packetType? · = some .message)
      = (f.head ++ f.tail).filter (packetType? · = some .message) := by
        rw [List.filter_append, hhead, List.nil_append]
    _ = (announcedTo history q).map (·.packet) := by
        rw [← f.queued, messages_of_queue hrun]

theorem Follower.length_of_sent (f : Follower history q) (h : packet ∈ f.sent) :
    packet.length ≤ intMax := by
  simpa using List.mem_takeWhile_imp h

theorem Follower.packet_of_sent (hrun : ServerRun now history s) (f : Follower history q)
    (h : packet ∈ f.sent) :
    ∃ type payload, packet = createPacketStream type payload ∧ payload.length < 2 ^ 32 :=
  have htail : f.sent <+: f.tail := List.takeWhile_prefix _
  packet_of_queued hrun (f.mem_queued (htail.subset h)) (f.length_of_sent h)

/-- What a follower has been told to print are the messages among the packets it has read. -/
theorem Follower.shown_eq_read (hrun : ServerRun now history s) (f : Follower history q) :
    ∃ read, read <+: f.sent ∧
      f.shown = (read.filter (packetType? · = some .message)).map content ∧
      ∀ packet ∈ read,
        ((content packet).status = .printMessage ↔ packetType? packet = some .message) := by
  obtain ⟨results, hunderstood, hresults⟩ := f.understood_eq
  have hstream : f.client.connection.rxBuffer ++ (f.pieces.map (·.2)).flatten <+:
      f.sent.flatMap id := by
    rw [List.flatMap_id]
    exact f.received_sent hrun
  have hfront : ∀ packet ∈ f.sent,
      (∀ more, packets.front (id packet ++ more) = .item (content packet) more) ∨
        ∀ more, packets.front (id packet ++ more) = .stop (content packet) := by
    intro packet hpacket
    obtain ⟨type, payload, rfl, hlength⟩ := f.packet_of_sent hrun hpacket
    exact front_packet hlength
  obtain ⟨readPackets, stopped, hread, hitems, hstops, hdrain⟩ :=
    Reader.drain_encoded_prefix packets_front_nil hfront hstream
  -- a prefix of the results is made of a prefix of the packets read, and what stopped the client
  rw [hdrain, List.prefix_iff_eq_take, ← List.map_take, List.take_append] at hresults
  generalize results.length = n at hresults
  have hprinted : ∀ packet ∈ readPackets.take n,
      ((content packet).status = .printMessage ↔ packetType? packet = some .message) := by
    intro packet hpacket
    have hmem := List.mem_of_mem_take hpacket
    obtain ⟨type, payload, rfl, hlength⟩ := f.packet_of_sent hrun (hread.subset hmem)
    have hitem := hitems _ hmem []
    rw [List.append_nil] at hitem
    rw [packetType?_createPacketStream, Option.some_inj]
    exact printed_iff_message hlength hitem
  refine ⟨readPackets.take n, (List.take_prefix _ _).trans hread, ?_, hprinted⟩
  have hstopped : (stopped.take (n - readPackets.length)).filter
      (fun packet => decide ((content packet).status = .printMessage)) = [] := by
    apply List.filter_eq_nil_iff.mpr
    intro packet hpacket
    have hinvalid : (content packet).status = .invalidProtocolError :=
      not_printed_of_stop (hstops packet (List.mem_of_mem_take hpacket))
    simp [hinvalid]
  have hcomp : ((fun result : ProcessStreamResult => decide (result.status = .printMessage)) ∘
      content) = fun packet => decide ((content packet).status = .printMessage) := rfl
  rw [Follower.shown, hunderstood, List.drop_left, hresults, List.filter_map,
    List.filter_append, hcomp, hstopped, List.append_nil]
  congr 1
  apply List.filter_congr
  intro packet hpacket
  exact decide_eq_decide.mpr (hprinted packet hpacket)

/-- What a follower has been told to print is the beginning of what was broadcast to it. -/
theorem Follower.shown_eq (hrun : ServerRun now history s) (f : Follower history q) :
    ∃ heard, heard <+: announcedTo history q ∧
      f.shown = heard.map (fun a => content a.packet) ∧
      ∀ a ∈ heard, a.packet.length ≤ intMax ∧ (content a.packet).status = .printMessage := by
  obtain ⟨read, hread, hshown, hprinted⟩ := f.shown_eq_read hrun
  have hheard : read.filter (packetType? · = some .message) <+:
      (announcedTo history q).map (·.packet) := by
    rw [← f.messages_of_tail hrun]
    exact (hread.trans (List.takeWhile_prefix _)).filter _
  obtain ⟨others, hothers⟩ := hheard
  obtain ⟨heard, unheard, hannounced, hmap, -⟩ := List.append_eq_map_iff.mp hothers
  refine ⟨heard, ⟨unheard, hannounced.symm⟩, ?_, ?_⟩
  · rw [hshown, ← hmap, List.map_map]
    rfl
  · intro a ha
    have hpacket : a.packet ∈ read.filter (packetType? · = some .message) := by
      rw [← hmap]
      exact List.mem_map_of_mem ha
    obtain ⟨hmem, htype⟩ := List.mem_filter.mp hpacket
    exact ⟨f.length_of_sent (hread.subset hmem),
      (hprinted a.packet hmem).mpr (of_decide_eq_true htype)⟩

end

/-- In every run of the server, and whatever the writes of TLS and the pieces of the network
are: what a client has printed since its handshake is the beginning of what was broadcast to
it, each broadcast once and under the name in its author's session, and of the broadcasts
that are for two clients one has printed a beginning of what the other has. -/
theorem chat_consistent {now : Server.Time}
    {history : List (Transition ServerApp Server.Input)}
    {s : ServerApp} (hrun : ServerRun now history s) {q r : ConnectionPtr}
    (f : Follower history q) (g : Follower history r) :
    ∃ heard heard', heard <+: announcedTo history q ∧ heard' <+: announcedTo history r ∧
      f.shown = heard.map (fun a => content a.packet) ∧
      g.shown = heard'.map (fun a => content a.packet) ∧
      (heard.filter (·.reaches r) <+: heard'.filter (·.reaches q) ∨
        heard'.filter (·.reaches q) <+: heard.filter (·.reaches r)) ∧
      ∀ a ∈ heard ++ heard',
        (∃ p session text, a.sender = some p ∧
          Server.ClientManager.findSesssionFromConnection p a.state = some session ∧
          a.packet = ServerApp.clientBroadcast session.username text ∧
          content a.packet = ⟨.printMessage, text, session.username⟩) ∨
        ∃ line, a.sender = none ∧ a.packet = ServerApp.serverBroadcast line ∧
          content a.packet = ⟨.printMessage, line, literal "SERVER"⟩ := by
  obtain ⟨heard, hheard, hshown, hprinted⟩ := f.shown_eq hrun
  obtain ⟨heard', hheard', hshown', hprinted'⟩ := g.shown_eq hrun
  refine ⟨heard, heard', hheard, hheard', hshown, hshown', ?_, ?_⟩
  · have hcommon : (announcedTo history q).filter (·.reaches r) =
        (announcedTo history r).filter (·.reaches q) := List.filter_comm _ _ _
    apply List.prefix_or_prefix_of_prefix (hheard.filter _)
    rw [hcommon]
    exact hheard'.filter _
  · intro a ha
    rcases List.mem_append.mp ha with hmem | hmem
    · have hannounced := List.mem_of_mem_filter (hheard.subset hmem)
      exact content_of_announced hrun hannounced (hprinted a hmem).1 (hprinted a hmem).2
    · have hannounced := List.mem_of_mem_filter (hheard'.subset hmem)
      exact content_of_announced hrun hannounced (hprinted' a hmem).1 (hprinted' a hmem).2

/-- Two users log in, the first says hello, the operator says hi, and TLS takes everything. -/
def greetings : List Server.Input :=
  Server.sayingHello (literal "a") ++
    [Server.typing (literal "hi"),
      { Server.Input.sample with event := .write 5, sslWrite := [.wrote 23, .wrote 16] },
      { Server.Input.sample with
        event := .write 6, sslWrite := [.wrote 23, .wrote 21, .wrote 16] }]

def welcome : Bytes :=
  createPacketStream .ack (literal "OK|" ++ Server.generateToken Server.Input.sample.random)

def hello : Bytes := ServerApp.clientBroadcast (literal "a") (literal "hello")

def hi : Bytes := ServerApp.serverBroadcast (literal "hi")

/-- A client that has read all that the server queued for it after the welcome. -/
def Follower.ofTail {history : List (Transition ServerApp Server.Input)} {q : ConnectionPtr}
    (tail : List Bytes) (hqueued : queuedDuring q history = welcome :: tail)
    (haccepted : accepted (callsDuring q history) = (welcome :: tail).flatten)
    (htail : Deliverable tail.flatten) : Follower history q where
  head := [welcome]
  tail := tail
  client := establishedClient
  pieces := [(0, tail.flatten)]
  queued := hqueued
  handshake := by
    intro packet hpacket
    rw [List.mem_singleton.mp hpacket, welcome, packetType?_createPacketStream]
    decide
  live := establishedClient_live
  deliverable := by
    intro piece hpiece
    rw [List.mem_singleton.mp hpiece]
    exact htail
  received := by
    rw [haccepted]
    simp [establishedClient, ClientConnection.establish]

theorem exists_greetings : ∃ history s, ServerRun 0 history s ∧
    (queuedDuring ⟨5, 0⟩ history = [welcome, hi] ∧
      accepted (callsDuring ⟨5, 0⟩ history) = [welcome, hi].flatten) ∧
    (queuedDuring ⟨6, 1⟩ history = [welcome, hello, hi] ∧
      accepted (callsDuring ⟨6, 1⟩ history) = [welcome, hello, hi].flatten) ∧
    (announcedTo history ⟨6, 1⟩).map (fun a => content a.packet) =
      [⟨.printMessage, literal "hello", literal "a"⟩,
        ⟨.printMessage, literal "hi", literal "SERVER"⟩] := by
  obtain ⟨history, s, hrun, h⟩ := Run.exists_of_execute Server.step greetings
    (Server.initialState 0)
    (fun history _ =>
      (queuedDuring ⟨5, 0⟩ history = [welcome, hi] ∧
        accepted (callsDuring ⟨5, 0⟩ history) = [welcome, hi].flatten) ∧
      (queuedDuring ⟨6, 1⟩ history = [welcome, hello, hi] ∧
        accepted (callsDuring ⟨6, 1⟩ history) = [welcome, hello, hi].flatten) ∧
      (announcedTo history ⟨6, 1⟩).map (fun a => content a.packet) =
        [⟨.printMessage, literal "hello", literal "a"⟩,
          ⟨.printMessage, literal "hi", literal "SERVER"⟩])
    (by decide +kernel)
  exact ⟨history, s, hrun, of_decide_eq_true h⟩

theorem chat_consistent_greetings :
    ∃ (history : List (Transition ServerApp Server.Input)) (f : Follower history ⟨5, 0⟩)
      (g : Follower history ⟨6, 1⟩) (heard heard' : List Announcement),
      f.shown = heard.map (fun a => content a.packet) ∧
      g.shown = heard'.map (fun a => content a.packet) ∧
      (heard.filter (·.reaches ⟨6, 1⟩) <+: heard'.filter (·.reaches ⟨5, 0⟩) ∨
        heard'.filter (·.reaches ⟨5, 0⟩) <+: heard.filter (·.reaches ⟨6, 1⟩)) := by
  obtain ⟨history, s, hrun, ⟨hqueued, haccepted⟩, ⟨hqueued', haccepted'⟩, -⟩ := exists_greetings
  let f := Follower.ofTail [hi] hqueued haccepted (by decide)
  let g := Follower.ofTail [hello, hi] hqueued' haccepted' (by decide)
  obtain ⟨heard, heard', -, -, hshown, hshown', hagree, -⟩ := chat_consistent hrun f g
  exact ⟨history, f, g, heard, heard', hshown, hshown', hagree⟩

/-! ## Everything that was said -/

section

variable {now : Server.Time} {history : List (Transition ServerApp Server.Input)}
  {s : ServerApp} {q : ConnectionPtr} {packet : Bytes}

theorem front_of_valid (hpacket : ∃ type payload, packet = createPacketStream type payload ∧
      payload.length < 2 ^ 32)
    (hvalid : (content packet).status ≠ .invalidProtocolError) (more : Bytes) :
    packets.front (packet ++ more) = .item (content packet) more := by
  obtain ⟨type, payload, rfl, hlength⟩ := hpacket
  rcases front_packet hlength with hitem | hstop
  · exact hitem more
  · exact absurd (not_printed_of_stop hstop) hvalid

/-- Where all broadcasts can be printed, nothing that is queued stops the client, and the
messages among it are those that are printed. -/
theorem valid_of_queued (hrun : ServerRun now history s)
    (hprinted : ∀ a ∈ announcedTo history q, (content a.packet).status = .printMessage)
    (h : packet ∈ queuedDuring q history) :
    (content packet).status ≠ .invalidProtocolError ∧
      ((content packet).status = .printMessage ↔ packetType? packet = some .message) := by
  have hmessage : packetType? packet = some .message →
      (content packet).status = .printMessage := by
    intro htype
    have hmem : packet ∈ (queuedDuring q history).filter (packetType? · = some .message) :=
      List.mem_filter.mpr ⟨h, decide_eq_true htype⟩
    rw [messages_of_queue hrun q] at hmem
    obtain ⟨a, ha, rfl⟩ := List.mem_map.mp hmem
    exact hprinted a ha
  rcases queued_cases hrun h with ⟨t, -, hreplies⟩ | ⟨t, -, a, -, rfl, hannounces⟩
  · have hvalid : (content packet).status ≠ .invalidProtocolError :=
      Server.readable_of_replies hreplies
    refine ⟨hvalid, ?_, hmessage⟩
    obtain ⟨type, payload, rfl, hlength, -⟩ := packet_of_replies hreplies
    have hitem := front_of_valid ⟨type, payload, rfl, hlength⟩ hvalid []
    rw [List.append_nil] at hitem
    rw [packetType?_createPacketStream, Option.some_inj]
    exact (printed_iff_message hlength hitem).mp
  · have htype : packetType? a.packet = some .message := hannounces.type
    exact ⟨by simp [hmessage htype], fun _ => htype, hmessage⟩

end

/-- A client that has read everything the server queued for it has printed everything that
was broadcast to it, if all of it can be printed.  It looks at what the handshake has left in
its buffer with the next piece only. -/
theorem chat_complete {now : Server.Time}
    {history : List (Transition ServerApp Server.Input)}
    {s : ServerApp} (hrun : ServerRun now history s) {q : ConnectionPtr}
    (f : Follower history q) (hread : f.pieces ≠ [] ∨ f.client.connection.rxBuffer = [])
    (hall : f.head.flatten ++ (f.client.connection.rxBuffer ++
      (f.pieces.map (·.2)).flatten) = (queuedDuring q history).flatten)
    (hprinted : ∀ a ∈ announcedTo history q, (content a.packet).status = .printMessage) :
    f.shown = (announcedTo history q).map fun a => content a.packet := by
  have hstream : f.client.connection.rxBuffer ++ (f.pieces.map (·.2)).flatten =
      f.tail.flatMap id := by
    rw [f.queued, List.flatten_append] at hall
    rw [List.flatMap_id]
    exact List.append_cancel_left hall
  have hfits : ∀ packet ∈ queuedDuring q history, packet.length ≤ intMax := by
    have hsent := f.received.trans (Server.accepted_small_of_run hrun q)
    rw [hall] at hsent
    have hwhole : (queuedDuring q history).flatten <+:
        ((queuedDuring q history ++ []).takeWhile fun packet : Bytes =>
          packet.length ≤ intMax).flatten := by
      rwa [List.append_nil]
    exact length_le_of_flatten_prefix hwhole
  have hdrain : packets.drain (f.tail.flatMap id) = ⟨f.tail.map content, some []⟩ :=
    Reader.drain_encoded packets_front_nil fun packet hpacket =>
      front_of_valid
        (packet_of_queued hrun (f.mem_queued hpacket) (hfits packet (f.mem_queued hpacket)))
        (valid_of_queued hrun hprinted (f.mem_queued hpacket)).1
  have hunderstood : understood (f.client.deliverAll f.pieces).actions =
      understood f.client.actions ++ (packets.drain
        (f.client.connection.rxBuffer ++ (f.pieces.map (·.2)).flatten)).results := by
    rcases hread with hpieces | hempty
    · exact (ClientApp.deliverAll_stream f.live f.deliverable hpieces).understood_eq
    · rw [hempty, List.nil_append]
      exact (ClientApp.deliverAll_fresh f.live hempty f.deliverable).understood_eq
  rw [hstream, hdrain] at hunderstood
  have hfilter : f.tail.filter
      ((fun result : ProcessStreamResult => decide (result.status = .printMessage)) ∘ content) =
      f.tail.filter (packetType? · = some .message) := by
    apply List.filter_congr
    intro packet hpacket
    exact decide_eq_decide.mpr (valid_of_queued hrun hprinted (f.mem_queued hpacket)).2
  rw [Follower.shown, hunderstood, List.drop_left, List.filter_map, hfilter,
    f.messages_of_tail hrun, List.map_map]
  rfl

theorem chat_complete_greetings :
    ∃ (history : List (Transition ServerApp Server.Input)) (f : Follower history ⟨6, 1⟩),
      f.shown = [⟨.printMessage, literal "hello", literal "a"⟩,
        ⟨.printMessage, literal "hi", literal "SERVER"⟩] := by
  obtain ⟨history, s, hrun, -, ⟨hqueued, haccepted⟩, hannounced⟩ := exists_greetings
  let f := Follower.ofTail [hello, hi] hqueued haccepted (by decide)
  have hprinted : ∀ a ∈ announcedTo history ⟨6, 1⟩, (content a.packet).status = .printMessage := by
    intro a ha
    have hcontent := List.mem_map_of_mem (f := fun a : Announcement => content a.packet) ha
    rw [hannounced] at hcontent
    simp only [List.mem_cons, List.not_mem_nil, or_false] at hcontent
    rcases hcontent with h | h <;> rw [h]
  have hall : f.head.flatten ++ (f.client.connection.rxBuffer ++
      (f.pieces.map (·.2)).flatten) = (queuedDuring ⟨6, 1⟩ history).flatten := by
    rw [hqueued]
    simp [f, Follower.ofTail, establishedClient, ClientConnection.establish]
  exact ⟨history, f,
    hannounced ▸ chat_complete hrun f (.inl (List.cons_ne_nil _ _)) hall hprinted⟩

end TChat
