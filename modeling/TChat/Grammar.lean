import TChat.Client.MessageHandler
import TChat.Server.Authentication
/-!
# What the server says and what the client understands

The two programs have to agree on the grammar of packets.  They do for every
reply, for every line of the console, and for the messages of users with a name
whose packet stays within the client's limit.
-/

namespace TChat.Server

open TChat.Common TChat.Lib

/-- The event relays the message that `stream` holds for the user of `session`. -/
structure Relays (i : Input) (s : ServerApp) (p : ConnectionPtr) (stream : ClientStream)
    (session : ClientSession) : Prop where
  streams : ∃ c, s.deref p = some c ∧ Streams i c stream
  message : stream.result = .printMessage
  sender : ClientManager.findSesssionFromConnection p s = some session

/-- Every packet queued on an authenticated connection is one the client accepts,
and a client's message is printed with its sender and its text. -/
def ReadableByClients (t : Transition ServerApp Input) : Prop :=
  ∀ q c packet, .queueWrite q packet ∈ t.post.actions → t.post.deref q = some c →
    c.status = .authenticated →
    (Client.processDataStream packet).1.status ≠ .invalidProtocolError ∧
    ∀ p stream session, Relays t.input t.pre p stream session →
      (Client.processDataStream packet).1 =
        ⟨.printMessage, stream.message, session.username⟩

/-- The event relays a message to somebody, and its sender has the empty name or
its packet exceeds the client's limit. -/
def RelaysUnreadable (i : Input) (s : ServerApp) : Prop :=
  ∃ p stream session q, Relays i s p stream session ∧ s.Hears (some p) q ∧
    (session.username = [] ∨
      maxMessagePayloadSize < 3 + session.username.length + stream.message.length)

/-! ## Broadcasts, read by the client -/

theorem length_clientPayload (name text : Bytes) :
    (literal "U|" ++ name ++ literal "|" ++ text).length = 3 + name.length + text.length := by
  simp only [List.length_append, show (literal "U|").length = 2 by decide,
    show (literal "|").length = 1 by decide]
  omega

/-- The client prints a relayed message as it was sent exactly when its sender has
a name and the packet is within the limit. -/
theorem processDataStream_clientBroadcast {name : Bytes} (hbar : bar ∉ name) (text : Bytes) :
    (Client.processDataStream (ServerApp.clientBroadcast name text)).1 =
        ⟨.printMessage, text, name⟩ ↔
      name ≠ [] ∧ 3 + name.length + text.length ≤ maxMessagePayloadSize := by
  have hlength := length_clientPayload name text
  have hread := Client.readMessage_client hbar text
  constructor
  · intro h
    rw [ServerApp.clientBroadcast] at h
    by_cases hlarge : maxMessagePayloadSize <
        (literal "U|" ++ name ++ literal "|" ++ text).length % 2 ^ 32
    · rw [Client.processDataStream_large hlarge] at h
      simp [Client.ProcessStreamResult.of] at h
    · rw [Client.processDataStream_fits (not_lt.mp hlarge)] at h
      -- what is printed fits the payload read, so the length was not cut to 32 bits
      have hprinted := Client.length_readMessage ((literal "U|" ++ name ++ literal "|" ++
        text).take ((literal "U|" ++ name ++ literal "|" ++ text).length % 2 ^ 32))
      rw [show Client.readMessage _ = _ from h] at hprinted
      simp only [List.length_take, hlength] at hprinted
      rw [hlength] at hlarge h
      unfold maxMessagePayloadSize at hlarge ⊢
      have hwhole : (3 + name.length + text.length) % 2 ^ 32 =
          3 + name.length + text.length := Nat.mod_eq_of_lt (by omega)
      refine ⟨?_, by omega⟩
      rintro rfl
      rw [hwhole, ← hlength, List.take_length, Client.readPayload, hread] at h
      simp [Client.ProcessStreamResult.of] at h
  · rintro ⟨hname, hfits⟩
    rw [ServerApp.clientBroadcast, Client.processDataStream_packet (hlength ▸ hfits),
      Client.readPayload, hread, if_neg hname]

theorem processDataStream_serverBroadcast {line : Bytes} (h : line.length ≤ maxInputLength) :
    (Client.processDataStream (ServerApp.serverBroadcast line)).1 =
      ⟨.printMessage, line, literal "SERVER"⟩ := by
  have hlength : (literal "S|" ++ line).length ≤ maxMessagePayloadSize := by
    rw [List.length_append, show (literal "S|").length = 2 by decide]
    unfold maxInputLength at h
    unfold maxMessagePayloadSize
    omega
  rw [ServerApp.serverBroadcast, Client.processDataStream_packet hlength, Client.readPayload,
    Client.readMessage_server]

theorem length_generateToken (random : Nat → Fin 62) : (generateToken random).length = 8 := by
  simp [generateToken]

section

variable {i : Input} {s s' : ServerApp} {p q : ConnectionPtr} {packet : Bytes}

theorem readable_of_replies (h : Replies i s q packet) :
    (Client.processDataStream packet).1.status ≠ .invalidProtocolError := by
  cases h with
  | @refusal _ _ _ status =>
      cases status <;> rw [Server.refusal, Client.processDataStream_packet (by decide)] <;>
        simp [Client.readPayload, Client.ProcessStreamResult.of]
  | registered =>
      rw [Client.processDataStream_packet (by decide)]
      simp [Client.readPayload, Client.ProcessStreamResult.of]
  | welcome =>
      rw [Client.processDataStream_packet]
      · simp [Client.readPayload, Client.ProcessStreamResult.of]
      · rw [List.length_append, length_generateToken]
        decide
  | pong =>
      rw [Client.processDataStream_packet (by decide)]
      simp [Client.readPayload, Client.ProcessStreamResult.of]

/-! ## The line being typed -/

theorem classifyLine_message {line text : Bytes}
    (h : classifyLine line = .ok ⟨.message, text⟩) : text = line := by
  unfold classifyLine at h
  grind

theorem length_readConsoleInput {keys : List Int} {inputBuffer inputBuffer' : Bytes}
    {result : ConsoleInputResult}
    (h : readConsoleInput keys inputBuffer = .ok (result, inputBuffer'))
    (hlength : inputBuffer.length ≤ maxInputLength) :
    inputBuffer'.length ≤ maxInputLength ∧
      (result.status = .message → result.buffer.length ≤ maxInputLength) := by
  induction keys generalizing inputBuffer with
  | nil =>
      simp only [readConsoleInput, Except.ok.injEq, Prod.mk.injEq] at h
      obtain ⟨rfl, rfl⟩ := h
      exact ⟨hlength, by simp⟩
  | cons ch keys ih =>
      unfold readConsoleInput at h
      split_ifs at h with herr henter hempty hback hprint hroom
      · simp only [Except.ok.injEq, Prod.mk.injEq] at h
        obtain ⟨rfl, rfl⟩ := h
        exact ⟨hlength, by simp⟩
      · exact ih h (by simp)
      · cases hline : classifyLine inputBuffer with
        | error fault => simp [hline, Except.map] at h
        | ok classified =>
            simp only [hline, Except.map, Except.ok.injEq, Prod.mk.injEq] at h
            obtain ⟨rfl, rfl⟩ := h
            refine ⟨by simp, fun hmessage => ?_⟩
            obtain ⟨status, text⟩ := classified
            simp only at hmessage
            subst hmessage
            rw [classifyLine_message hline]
            exact hlength
      · exact ih h (by rw [List.length_dropLast]; omega)
      · exact ih h (by rw [List.length_append, List.length_singleton]; omega)
      · exact ih h hlength
      · exact ih h hlength

theorem console_of_outcome (h : Outcome i s (.ok s'))
    (hlength : s.consoleInputBuffer.length ≤ maxInputLength) :
    s'.consoleInputBuffer.length ≤ maxInputLength := by
  cases h with
  | idle | reattached => exact hlength
  | console _ hread | stopped _ hread => exact (length_readConsoleInput hread hlength).1
  | edited =>
      rw [ServerApp.switchWriteEvent_eq]
      exact hlength
  | dropped _ hdrop =>
      cases hdrop with
      | kicked _ hread => exact (length_readConsoleInput hread hlength).1
      | _ => exact hlength
  | loggedIn =>
      rw [ServerApp.enableWriteEvent_eq]
      exact hlength
  | relayed =>
      rw [ServerApp.broadcastAndEnable_eq]
      exact hlength
  | announced _ hread =>
      rw [ServerApp.broadcastAndEnable_eq]
      exact (length_readConsoleInput hread hlength).1
  | turnedAway haway =>
      rw [haway.console]
      exact hlength
  | admitted => exact hlength
  | ticked =>
      have hreleased := releaseAll_same
        (s := ClientManager.markTimedOutConnections i (s.beginEvent i.now)) i.now
        (ClientManager.markTimedOutConnections i (s.beginEvent i.now)).timedOut
      rw [tick_frame]
      exact hreleased.2.1 ▸ hlength

/-! ## One event -/

theorem performs_relayed (hwf : WellFormed s) {stream : ClientStream} {session : ClientSession}
    (hstep : step i s = .ok s') (h : Relays i s p stream session) :
    ∃ audience : List ConnectionPtr, (∀ q, q ∈ audience ↔ s.Hears (some p) q) ∧
      s'.actions = .broadcast (some p)
          (ServerApp.clientBroadcast session.username stream.message) ::
        audience.map (.queueWrite · (ServerApp.clientBroadcast session.username stream.message)) ∧
      ∀ q d, s.deref q = some d → d.status = .authenticated →
        ∃ d', s'.deref q = some d' ∧ d'.status = .authenticated := by
  obtain ⟨c, hp, hstream⟩ := h.streams
  rw [step_relayed hwf hp hstream h.message h.sender (possible_of_step hstep),
    Except.ok.injEq] at hstep
  obtain ⟨audience, _, haudience, hactions⟩ := relayed_actions (i := i) hp stream.rxBuffer
    (ServerApp.clientBroadcast session.username stream.message)
  refine ⟨audience, haudience, hstep ▸ hactions, ?_⟩
  intro q d hq hstatus
  have hstored : ((s.beginEvent i.now).store p (c.withBuffer stream.rxBuffer)).deref q =
      if q = p then some (c.withBuffer stream.rxBuffer) else s.deref q :=
    ServerApp.deref_store (s := s.beginEvent i.now) hp rfl
  have hkept := broadcast_status (i := i)
    (s := (s.beginEvent i.now).store p (c.withBuffer stream.rxBuffer)) (some p) p.fd
    (ServerApp.clientBroadcast session.username stream.message) q
  rw [hstep, hstored] at hkept
  have hbefore : (if q = p then some (c.withBuffer stream.rxBuffer) else s.deref q).map
      (·.status) = some .authenticated := by
    split_ifs with hqp
    · rw [hqp, hp, Option.some.injEq] at hq
      rw [Option.map_some, ← hstatus, ← hq]
      rfl
    · rw [hq, Option.map_some, hstatus]
  rw [hbefore, Option.map_eq_some_iff] at hkept
  exact hkept

theorem username_noBar (hwf : WellFormed s) {session : ClientSession}
    (h : ClientManager.findSesssionFromConnection p s = some session) :
    bar ∉ session.username := by
  obtain ⟨_, u, hu⟩ := findSession_some h
  rw [(hwf.sessions hu).username_eq]
  exact (hwf.sessions hu).noBar

theorem readable_of_step (hwf : WellFormed s)
    (hconsole : s.consoleInputBuffer.length ≤ maxInputLength) (hstep : step i s = .ok s')
    (h : ¬RelaysUnreadable i s) : ReadableByClients ⟨s, i, s'⟩ := by
  have hfits : ∀ {p stream session q}, Relays i s p stream session → s.Hears (some p) q →
      session.username ≠ [] ∧
        3 + session.username.length + stream.message.length ≤ maxMessagePayloadSize := by
    intro p stream session q hrelays hhears
    by_contra hbad
    rw [not_and_or, not_not, not_le] at hbad
    exact h ⟨p, stream, session, q, hrelays, hhears, hbad⟩
  intro q c packet hqueued _ _
  refine ⟨?_, ?_⟩
  · have hperforms := (hstep ▸ outcome_step hwf : Outcome i s (.ok s')).performs hwf
    generalize s'.actions = actions at hperforms hqueued
    cases hperforms with
    | silent hquiet => exact readable_of_replies (hquiet _ hqueued)
    | announces hannounces _ haudience =>
        simp only [List.mem_cons, reduceCtorEq, List.mem_map, Action.queueWrite.injEq,
          false_or] at hqueued
        obtain ⟨r, hr, rfl, rfl⟩ := hqueued
        cases hannounces with
        | @client p c stream session hp hstream hresult hsession =>
            have hread := (processDataStream_clientBroadcast (username_noBar hwf hsession)
              stream.message).mpr
                (hfits ⟨⟨c, hp, hstream⟩, hresult, hsession⟩ ((haudience r).mp hr))
            rw [hread]
            simp
        | console _ hline =>
            have hread := processDataStream_serverBroadcast
              ((length_readConsoleInput hline hconsole).2 rfl)
            rw [hread]
            simp
  · intro p stream session hrelays
    obtain ⟨audience, haudience, hactions, _⟩ := performs_relayed hwf hstep hrelays
    rw [hactions] at hqueued
    simp only [List.mem_cons, reduceCtorEq, List.mem_map, Action.queueWrite.injEq,
      false_or] at hqueued
    obtain ⟨r, hr, rfl, rfl⟩ := hqueued
    exact (processDataStream_clientBroadcast (username_noBar hwf hrelays.sender) _).mpr
      (hfits hrelays ((haudience r).mp hr))

theorem relaysReadable_of_readable (hwf : WellFormed s) (hstep : step i s = .ok s')
    (h : ReadableByClients ⟨s, i, s'⟩) : ¬RelaysUnreadable i s := by
  rintro ⟨p, stream, session, q, hrelays, hhears, hbad⟩
  obtain ⟨audience, haudience, hactions, hstays⟩ := performs_relayed hwf hstep hrelays
  obtain ⟨d, hd, hstatus⟩ := hhears.2
  obtain ⟨d', hd', hstatus'⟩ := hstays q d hd hstatus
  have hqueued : .queueWrite q
      (ServerApp.clientBroadcast session.username stream.message) ∈ s'.actions := by
    rw [hactions]
    exact List.mem_cons_of_mem _ (List.mem_map_of_mem ((haudience q).mpr hhears))
  have hread := (h q d' _ hqueued hd' hstatus').2 p stream session hrelays
  obtain ⟨hname, hfits⟩ :=
    (processDataStream_clientBroadcast (username_noBar hwf hrelays.sender) _).mp hread
  rcases hbad with hempty | hlarge
  · exact hname hempty
  · exact absurd hfits (not_le.mpr hlarge)

end

/-! ## Runs -/

variable {now : Time} {history : List (Transition ServerApp Input)} {s : ServerApp}

theorem console_of_run (hrun : ServerRun now history s) :
    s.consoleInputBuffer.length ≤ maxInputLength := by
  refine hrun.invariant_of (fun _ => True)
    (fun _ s => s.consoleInputBuffer.length ≤ maxInputLength) ?_ ?_
    (fun _ _ => trivial)
  · simp [initialState]
  · intro history s s' i hrun hlength hstep _
    exact console_of_outcome (outcome_of_run hrun hstep) hlength

/-- In a run, all that is queued on authenticated connections is what the client
understands, if and only if no message is relayed whose sender has the empty name
or whose packet exceeds the client's limit. -/
theorem packets_readable (hrun : ServerRun now history s) :
    (∀ t ∈ history, ReadableByClients t) ↔
      ∀ t ∈ history, ¬RelaysUnreadable t.input t.pre := by
  refine forall₂_congr fun t ht => ?_
  obtain ⟨hstep, before, hbefore⟩ := hrun.transition ht
  have hwf := wellFormed_of_run hbefore
  exact ⟨relaysReadable_of_readable hwf hstep,
    readable_of_step hwf (console_of_run hbefore) hstep⟩

theorem length_message (rxBuffer : Bytes) :
    (processClientStream rxBuffer).message.length ≤ rxBuffer.length := by
  unfold processClientStream
  generalize rxBuffer.length + 1 = fuel
  induction fuel generalizing rxBuffer with
  | zero => simp [clientStreamLoop]
  | succ fuel ih =>
      have hnext := ih (afterPacket rxBuffer)
      have hafter : (afterPacket rxBuffer).length ≤ rxBuffer.length := by
        rw [afterPacket, List.length_drop]
        omega
      have hpayload : (packetPayload rxBuffer).length ≤ rxBuffer.length := by
        rw [packetPayload, List.length_take, List.length_drop]
        omega
      unfold clientStreamLoop
      grind

theorem not_relaysUnreadable_of_small {i : Input}
    (hnames : ∀ entry ∈ s.sessions.entries,
      entry.2.username ≠ [] ∧ entry.2.username.length ≤ maxHandshakePayload)
    (hbuffers : ∀ entry ∈ s.connections.entries, entry.2.rxBuffer.length ≤ readBufferSize) :
    ¬RelaysUnreadable i s := by
  rintro ⟨p, stream, session, q, ⟨⟨c, hp, bytes, hreceives, _, rfl⟩, _, hsession⟩, _, hbad⟩
  obtain ⟨_, u, hu⟩ := findSession_some hsession
  obtain ⟨hname, hshort⟩ := hnames (u, session) (OrderedMap.mem_entries.mpr hu)
  have hbuffer := hbuffers (p.fd, c)
    (OrderedMap.mem_entries.mpr (ServerApp.deref_eq_some.mp hp).1)
  have hmessage := length_message (c.rxBuffer ++ bytes)
  have hbytes := hreceives.bounded
  rw [List.length_append] at hmessage
  unfold maxHandshakePayload at hshort
  unfold readBufferSize at hbuffer hbytes
  unfold maxMessagePayloadSize at hbad
  rcases hbad with hempty | hlarge
  · exact hname hempty
  · dsimp only at hbuffer hshort
    omega

/-- Two clients log in, the first under the name `name`, which then says hello. -/
def sayingHello (name : Bytes) : List Input :=
  [accepting 5, accepting 6, receiving 5 (loginPacket name (literal "b")),
    receiving 6 (loginPacket (literal "c") (literal "d")),
    receiving 5 (createPacketStream .message (literal "hello"))]

theorem packets_readable_named : ∃ history s, ServerRun 0 history s ∧
    .queueWrite ⟨6, 1⟩ (ServerApp.clientBroadcast (literal "a") (literal "hello")) ∈ s.actions ∧
    ∀ t ∈ history, ReadableByClients t := by
  obtain ⟨history, s, hrun, h⟩ := Run.exists_of_execute step
    (sayingHello (literal "a")) (initialState 0)
    (fun history s =>
      .queueWrite ⟨6, 1⟩ (ServerApp.clientBroadcast (literal "a") (literal "hello")) ∈ s.actions ∧
        ∀ t ∈ history,
          (∀ entry ∈ t.pre.sessions.entries,
            entry.2.username ≠ [] ∧ entry.2.username.length ≤ maxHandshakePayload) ∧
          ∀ entry ∈ t.pre.connections.entries, entry.2.rxBuffer.length ≤ readBufferSize)
    (by decide +kernel)
  simp only [decide_eq_true_eq] at h
  exact ⟨history, s, hrun, h.1, (packets_readable hrun).mpr fun t ht =>
    not_relaysUnreadable_of_small (h.2 t ht).1 (h.2 t ht).2⟩

/-- A client with the empty name makes every other client drop its connection. -/
theorem packet_unreadable :
    ¬∀ now history s, ServerRun now history s → ∀ t ∈ history, ReadableByClients t := by
  intro h
  obtain ⟨history, s, hrun, hbad⟩ := Run.exists_of_execute step (sayingHello []) (initialState 0)
    (fun history _ => history.any fun t =>
      (t.post.deref ⟨6, 1⟩).any (·.status = .authenticated) ∧
        .queueWrite ⟨6, 1⟩ (ServerApp.clientBroadcast [] (literal "hello")) ∈ t.post.actions)
    (by decide +kernel)
  simp only [List.any_eq_true, decide_eq_true_eq, Option.any_eq_true] at hbad
  obtain ⟨t, ht, ⟨c, hc, hstatus⟩, hqueued⟩ := hbad
  have hread := (h 0 history s hrun t ht ⟨6, 1⟩ c _ hqueued hc hstatus).1
  exact hread (by decide)

end TChat.Server
