import TChat.Delivery
import TChat.Grammar
import TChat.Server.Broadcasts
/-!
# Whom the client shows as the author

On the wire a tag says whether a message is the server's or a user's.  The client's
parser turns the tag into a sender, and the display goes by the sender: a user
named "SERVER" is shown as the server.
-/

namespace TChat.Client

open TChat.Common TChat.Lib

structure Line where
  message : Bytes
  kind : PrintKind
  sender : Bytes
  deriving DecidableEq, Repr

def printed (actions : List Action) : List Line :=
  actions.filterMap fun
    | .print message kind sender => some ⟨message, kind, sender⟩
    | _ => none

def lines (stream : Bytes) : List Line :=
  printed ((packets.drain stream).results.flatMap responses)

/-- A client that is not in the middle of a packet reads a stream, cut into any pieces. -/
structure Reads (s : ClientApp) (stream : Bytes) (s' : ClientApp) : Prop where
  live : s.connection.Live
  fresh : s.connection.rxBuffer = []
  pieces : ∃ pieces : List (Int × Bytes), (∀ piece ∈ pieces, Deliverable piece.2) ∧
    (pieces.map (·.2)).flatten = stream ∧ s' = s.deliverAll pieces

/-- Wherever a packet stands in the stream a client reads, behind complete packets, it
is displayed as `line`. -/
def DisplayedAs (packet : Bytes) (line : Line) : Prop :=
  ∀ s before after s', (packets.drain before).buffer = some [] →
    Reads s (before ++ packet ++ after) s' →
    printed s'.actions = printed s.actions ++ lines before ++ line :: lines after

section

variable {s s' : ClientApp} {stream before after packet : Bytes} {line : Line}

theorem printed_append (a b : List Action) : printed (a ++ b) = printed a ++ printed b := by
  simp [printed]

theorem printed_filter (actions : List Action) :
    printed (actions.filter (!·.waits)) = printed actions := by
  rw [printed, printed, List.filterMap_filter]
  congr 1
  funext action
  cases action with
  | handled result => cases h : result.waits <;> simp [Action.waits, h]
  | _ => rfl

theorem Reads.printed_eq (h : Reads s stream s') :
    printed s'.actions = printed s.actions ++ lines stream := by
  obtain ⟨pieces, hpieces, hstream, rfl⟩ := h.pieces
  have hactions := (ClientApp.deliverAll_fresh h.live h.fresh hpieces).actions
  rw [← printed_filter, hactions, printed_append, printed_filter, hstream]
  rfl

theorem exists_reads (hlive : s.connection.Live) (hfresh : s.connection.rxBuffer = [])
    (stream : Bytes) : ∃ s', Reads s stream s' := by
  refine ⟨_, hlive, hfresh, stream.map fun byte => (0, [byte]), ?_, ?_, rfl⟩
  · intro piece hmem
    obtain ⟨byte, -, rfl⟩ := List.mem_map.mp hmem
    exact ⟨List.cons_ne_nil _ _, by simp [readBufferSize, maxMessagePayloadSize]⟩
  · rw [List.map_map, ← List.flatMap_def]
    exact List.flatMap_singleton' stream

theorem lines_nil : lines [] = [] := by
  rw [lines, Reader.drain_wait packets_front_nil]
  rfl

theorem lines_append (h : (packets.drain before).buffer = some []) (after : Bytes) :
    lines (before ++ after) = lines before ++ lines after := by
  have hafter : packets.drain (before ++ after) =
      (packets.drain after).after (packets.drain before).results := by
    rw [Reader.drain_append, Reader.receive, h]
    rfl
  rw [lines, hafter, Reading.after, List.flatMap_append, printed_append]
  rfl

theorem lines_item {result : ProcessStreamResult} {rest : Bytes}
    (h : packets.front stream = .item result rest) :
    lines stream = printed (responses result) ++ lines rest := by
  rw [lines, Reader.drain_item h, Reading.after, List.flatMap_append, printed_append]
  simp [lines]

theorem displayedAs_of_item {result : ProcessStreamResult}
    (hfront : ∀ more, packets.front (packet ++ more) = .item result more)
    (hline : printed (responses result) = [line]) : DisplayedAs packet line := by
  intro s before after s' hbefore hreads
  have hpacket := lines_item (hfront after)
  rw [hreads.printed_eq, List.append_assoc before, lines_append hbefore, hpacket, hline,
    List.append_assoc, List.singleton_append]

theorem DisplayedAs.lines_eq (h : DisplayedAs packet line) : lines packet = [line] := by
  obtain ⟨s', hreads⟩ := exists_reads establishedClient_live rfl packet
  have hnil : (packets.drain []).buffer = some [] := by
    rw [Reader.drain_wait packets_front_nil]
  have hshown := h _ [] [] s' hnil (by simpa using hreads)
  rw [hreads.printed_eq, lines_nil] at hshown
  simpa using hshown

/-! ## Messages on the screen -/

theorem readMessage_cases (payload : Bytes) :
    (readMessage payload).status = .printMessage ∨
      readMessage payload = .of .invalidProtocolError := by
  unfold readMessage
  split_ifs
  · exact .inr rfl
  · split
    · exact .inr rfl
    · split_ifs
      · exact .inr rfl
      · exact .inl rfl
  · exact .inl rfl
  · exact .inr rfl

theorem printed_message (message sender : Bytes) :
    printed (responses ⟨.printMessage, message, sender⟩) =
      [if sender = literal "SERVER" then ⟨message, .server, []⟩
        else ⟨message, .client, sender⟩] := by
  simp only [responses]
  split_ifs <;> rfl

theorem processDataStream_of_lines {payload text name : Bytes}
    (h : lines (createPacketStream .message payload) = [⟨text, .client, name⟩]) :
    (processDataStream (createPacketStream .message payload)).1 = ⟨.printMessage, text, name⟩ ∧
      name ≠ literal "SERVER" := by
  obtain ⟨result, rest, hparse⟩ : ∃ result rest,
      processDataStream (createPacketStream .message payload) = (result, rest) := ⟨_, _, rfl⟩
  have hresult : result.status = .printMessage ∨ result = .of .invalidProtocolError := by
    by_cases hlarge : maxMessagePayloadSize < payload.length % 2 ^ 32
    · rw [processDataStream_large hlarge, Prod.mk.injEq] at hparse
      exact .inr hparse.1.symm
    · have hread := @processDataStream_fits .message payload (not_lt.mp hlarge)
      rw [hparse] at hread
      rw [show result = _ from hread]
      exact readMessage_cases _
  rcases hresult with hprints | rfl
  · obtain ⟨status, message, sender⟩ := result
    obtain rfl : status = .printMessage := hprints
    have hfront : packets.front (createPacketStream .message payload) =
        .item ⟨.printMessage, message, sender⟩ rest := by
      simp [packets, packetFront, hparse, ProcessStreamResult.waits]
    rw [lines_item hfront, printed_message, List.singleton_append, List.cons.injEq] at h
    obtain ⟨hline, -⟩ := h
    split_ifs at hline with hserver
    · simp at hline
    · obtain ⟨rfl, -, rfl⟩ := Line.mk.injEq .. ▸ hline
      exact ⟨by rw [hparse], hserver⟩
  · have hfront : packets.front (createPacketStream .message payload) =
        .stop (.of .invalidProtocolError) := by
      simp [packets, packetFront, hparse, ProcessStreamResult.waits, ProcessStreamResult.of]
    rw [lines, Reader.drain_stop hfront] at h
    simp [responses, printed, ProcessStreamResult.of] at h

end

end TChat.Client

namespace TChat.Server

open TChat.Common TChat.Lib
open TChat.Client (DisplayedAs Reads lines printed)

def TypesLine (i : Input) (s : ServerApp) (line : Bytes) : Prop :=
  ∃ keys buffer, i.event = .console keys ∧
    readConsoleInput keys s.consoleInputBuffer = .ok (⟨.message, line⟩, buffer)

/-- A relayed message is queued for everyone who is to hear it, and displayed as its
sender's.  A Message packet that is displayed as the server's holds a line of the
console. -/
structure DisplaysOrigin (t : Transition ServerApp Input) : Prop where
  clients : ∀ p stream session q, Relays t.input t.pre p stream session →
    t.pre.Hears (some p) q → ∃ packet, .queueWrite q packet ∈ t.post.actions ∧
      DisplayedAs packet ⟨stream.message, .client, session.username⟩
  server : ∀ q packet s s', .queueWrite q packet ∈ t.post.actions →
    packetType? packet = some .message → Reads s packet s' →
    ∀ shown, printed s'.actions = printed s.actions ++ shown →
      (∃ line ∈ shown, line.kind = .server) →
      ∃ line, TypesLine t.input t.pre line ∧ packet = ServerApp.serverBroadcast line

/-- The event relays a message to somebody, and its sender is called "SERVER" or has
the empty name, or its packet exceeds the client's limit. -/
def RelaysDisguised (i : Input) (s : ServerApp) : Prop :=
  ∃ p stream session q, Relays i s p stream session ∧ s.Hears (some p) q ∧
    (session.username = [] ∨ session.username = literal "SERVER" ∨
      maxMessagePayloadSize < 3 + session.username.length + stream.message.length)

section

variable {i : Input} {s s' : ServerApp}

/-- A relayed message is displayed as its sender's exactly when the sender has a name
other than "SERVER" and the packet is within the limit. -/
theorem displayedAs_clientBroadcast {name : Bytes} (hbar : bar ∉ name) (text : Bytes) :
    DisplayedAs (ServerApp.clientBroadcast name text) ⟨text, .client, name⟩ ↔
      name ≠ [] ∧ name ≠ literal "SERVER" ∧
        3 + name.length + text.length ≤ maxMessagePayloadSize := by
  constructor
  · intro h
    obtain ⟨hread, hserver⟩ := Client.processDataStream_of_lines h.lines_eq
    obtain ⟨hname, hfits⟩ := (processDataStream_clientBroadcast hbar text).mp hread
    exact ⟨hname, hserver, hfits⟩
  · rintro ⟨hname, hserver, hfits⟩
    have hadmitted : (Utterance.client name text).Admitted :=
      ⟨(length_clientPayload name text).trans_le hfits, hname, hbar⟩
    have hpacket : (Utterance.client name text).packet = ServerApp.clientBroadcast name text := rfl
    rw [← hpacket]
    refine Client.displayedAs_of_item (Utterance.packets_front hadmitted) ?_
    rw [Utterance.content, Client.printed_message, if_neg hserver]

theorem lines_clientBroadcast_server {text : Bytes}
    (h : 9 + text.length ≤ maxMessagePayloadSize) :
    lines (ServerApp.clientBroadcast (literal "SERVER") text) = [⟨text, .server, []⟩] := by
  have hadmitted : (Utterance.client (literal "SERVER") text).Admitted :=
    ⟨(length_clientPayload _ text).trans_le h, by decide, by decide⟩
  have hpacket : (Utterance.client (literal "SERVER") text).packet =
      ServerApp.clientBroadcast (literal "SERVER") text := rfl
  have hlines := Client.lines_item (Utterance.packets_front hadmitted [])
  rwa [hpacket, List.append_nil, Client.lines_nil, List.append_nil, Utterance.content,
    Client.printed_message, if_pos rfl] at hlines

theorem clientBroadcast_ne_serverBroadcast (name text line : Bytes) :
    ServerApp.clientBroadcast name text ≠ ServerApp.serverBroadcast line := by
  intro h
  have hpayload := congrArg (·.drop headerSize) h
  simp only [ServerApp.clientBroadcast, ServerApp.serverBroadcast, createPacketStream] at hpayload
  rw [List.drop_append_of_le_length (by simp), List.drop_append_of_le_length (by simp),
    List.drop_of_length_le (by simp), List.drop_of_length_le (by simp)] at hpayload
  have htag := congrArg List.head? hpayload
  simp [literal] at htag

theorem displaysOrigin_of_step (hwf : WellFormed s) (hstep : step i s = .ok s')
    (h : ¬RelaysDisguised i s) : DisplaysOrigin ⟨s, i, s'⟩ := by
  have hdisplayed : ∀ {p stream session q}, Relays i s p stream session → s.Hears (some p) q →
      DisplayedAs (ServerApp.clientBroadcast session.username stream.message)
        ⟨stream.message, .client, session.username⟩ := by
    intro p stream session q hrelays hhears
    refine (displayedAs_clientBroadcast (username_noBar hwf hrelays.sender) _).mpr ?_
    by_contra hbad
    refine h ⟨p, stream, session, q, hrelays, hhears, ?_⟩
    rw [← not_le]
    tauto
  constructor
  · intro p stream session q hrelays hhears
    obtain ⟨audience, haudience, hactions, _⟩ := performs_relayed hwf hstep hrelays
    refine ⟨_, ?_, hdisplayed hrelays hhears⟩
    dsimp only
    rw [hactions]
    exact List.mem_cons_of_mem _ (List.mem_map_of_mem ((haudience q).mpr hhears))
  · intro q packet reader reader' hqueued hmessage hreads shown hshown hserver
    have hperforms := (hstep ▸ outcome_step hwf : Outcome i s (.ok s')).performs hwf
    dsimp only at hqueued ⊢
    generalize s'.actions = actions at hperforms hqueued
    cases hperforms with
    | silent hquiet => exact absurd hmessage (Replies.type (hquiet _ hqueued))
    | announces hannounces _ haudience =>
        simp only [List.mem_cons, reduceCtorEq, List.mem_map, Action.queueWrite.injEq,
          false_or] at hqueued
        obtain ⟨r, hr, rfl, rfl⟩ := hqueued
        cases hannounces with
        | @client p c stream session hp hstream hresult hsession =>
            -- the one line it prints is the sender's
            have hlines := (hdisplayed ⟨⟨c, hp, hstream⟩, hresult, hsession⟩
              ((haudience r).mp hr)).lines_eq
            rw [hreads.printed_eq, hlines, List.append_cancel_left_eq] at hshown
            subst hshown
            simp at hserver
        | console hevent hline => exact ⟨_, ⟨_, _, hevent, hline⟩, rfl⟩

theorem relaysOpenly_of_displaysOrigin (hwf : WellFormed s) (hstep : step i s = .ok s')
    (h : DisplaysOrigin ⟨s, i, s'⟩) : ¬RelaysDisguised i s := by
  rintro ⟨p, stream, session, q, hrelays, hhears, hbad⟩
  obtain ⟨packet, hqueued, hdisplayed⟩ := h.clients p stream session q hrelays hhears
  obtain ⟨audience, _, hactions, _⟩ := performs_relayed hwf hstep hrelays
  dsimp only at hqueued
  rw [hactions] at hqueued
  simp only [List.mem_cons, reduceCtorEq, List.mem_map, Action.queueWrite.injEq,
    false_or] at hqueued
  obtain ⟨_, _, rfl, rfl⟩ := hqueued
  obtain ⟨hname, hserver, hfits⟩ :=
    (displayedAs_clientBroadcast (username_noBar hwf hrelays.sender) _).mp hdisplayed
  rcases hbad with hempty | hnamed | hlarge
  · exact hname hempty
  · exact hserver hnamed
  · exact absurd hfits (not_le.mpr hlarge)

end

variable {now : Time} {history : List (Transition ServerApp Input)} {s : ServerApp}

/-- In a run, what the clients display tells who said it, if and only if no message is
relayed whose sender is called "SERVER" or has the empty name, or whose packet exceeds
the client's limit. -/
theorem origin_displayed (hrun : ServerRun now history s) :
    (∀ t ∈ history, DisplaysOrigin t) ↔ ∀ t ∈ history, ¬RelaysDisguised t.input t.pre := by
  refine forall₂_congr fun t ht => ?_
  obtain ⟨hstep, before, hbefore⟩ := hrun.transition ht
  have hwf := wellFormed_of_run hbefore
  exact ⟨relaysOpenly_of_displaysOrigin hwf hstep, displaysOrigin_of_step hwf hstep⟩

theorem relaysDisguised_cases {i : Input} (h : RelaysDisguised i s) :
    RelaysUnreadable i s ∨
      ∃ entry ∈ s.sessions.entries, entry.2.username = literal "SERVER" := by
  obtain ⟨p, stream, session, q, hrelays, hhears, hempty | hserver | hlarge⟩ := h
  · exact .inl ⟨p, stream, session, q, hrelays, hhears, .inl hempty⟩
  · obtain ⟨_, u, hu⟩ := findSession_some hrelays.sender
    exact .inr ⟨(u, session), OrderedMap.mem_entries.mpr hu, hserver⟩
  · exact .inl ⟨p, stream, session, q, hrelays, hhears, .inr hlarge⟩

theorem origin_displayed_named : ∃ history s, ServerRun 0 history s ∧
    .queueWrite ⟨6, 1⟩ (ServerApp.clientBroadcast (literal "a") (literal "hello")) ∈ s.actions ∧
    ∀ t ∈ history, DisplaysOrigin t := by
  obtain ⟨history, s, hrun, h⟩ := Run.exists_of_execute step
    (sayingHello (literal "a")) (initialState 0)
    (fun history s =>
      .queueWrite ⟨6, 1⟩ (ServerApp.clientBroadcast (literal "a") (literal "hello")) ∈ s.actions ∧
        ∀ t ∈ history,
          (∀ entry ∈ t.pre.sessions.entries, (entry.2.username ≠ [] ∧
            entry.2.username.length ≤ maxHandshakePayload) ∧
              entry.2.username ≠ literal "SERVER") ∧
          ∀ entry ∈ t.pre.connections.entries, entry.2.rxBuffer.length ≤ readBufferSize)
    (by decide +kernel)
  simp only [decide_eq_true_eq] at h
  refine ⟨history, s, hrun, h.1, (origin_displayed hrun).mpr fun t ht hdisguised => ?_⟩
  obtain ⟨hnames, hbuffers⟩ := h.2 t ht
  rcases relaysDisguised_cases hdisguised with hunreadable | ⟨entry, hentry, hserver⟩
  · exact not_relaysUnreadable_of_small (fun entry hentry => (hnames entry hentry).1) hbuffers
      hunreadable
  · exact (hnames entry hentry).2 hserver

/-- A client that is registered as "SERVER" speaks as the server. -/
theorem origin_disguised :
    ¬∀ now history s, ServerRun now history s → ∀ t ∈ history, DisplaysOrigin t := by
  intro h
  obtain ⟨history, s, hrun, hspoken⟩ := Run.exists_of_execute step
    (sayingHello (literal "SERVER")) (initialState 0)
    (fun history _ => history.any fun t => .queueWrite ⟨6, 1⟩
      (ServerApp.clientBroadcast (literal "SERVER") (literal "hello")) ∈ t.post.actions)
    (by decide +kernel)
  simp only [List.any_eq_true, decide_eq_true_eq] at hspoken
  obtain ⟨t, ht, hqueued⟩ := hspoken
  obtain ⟨client, hreads⟩ := Client.exists_reads Client.establishedClient_live rfl
    (ServerApp.clientBroadcast (literal "SERVER") (literal "hello"))
  have hlines := lines_clientBroadcast_server (show 9 + (literal "hello").length ≤ _ by decide)
  obtain ⟨line, -, hpacket⟩ := (h 0 history s hrun t ht).server _ _ _ _ hqueued (by decide) hreads
    _ hreads.printed_eq ⟨_, hlines ▸ List.mem_singleton_self _, rfl⟩
  exact clientBroadcast_ne_serverBroadcast _ _ _ hpacket

end TChat.Server
