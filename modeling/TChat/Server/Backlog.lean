import TChat.Server.Parsing
import TChat.Server.Sessions
/-!
# How much can wait in a receive buffer

A read appends up to 1024 bytes to `rx_buffer`, and the parser that runs after it
takes packets off the front.  What it cannot take stays: a packet that is announced
and does not come, bytes that are no packet at all, and the packets behind the one
that is handled.
-/

namespace TChat.Server

open TChat.Common TChat.Lib

/-- `sizeof(PacketHeader) + MAX_MESSAGE_PAYLOAD_SIZE`, and one read. -/
def maxBacklog : Nat := headerSize + maxMessagePayloadSize + readBufferSize

/-- Every receive buffer holds one packet of the largest size and one read at most. -/
def Bounded (s : ServerApp) : Prop :=
  ∀ p c, s.deref p = some c → c.rxBuffer.length ≤ maxBacklog

/-- The server hangs up on the request. -/
def Rejects (i : Input) (s : ServerApp) (request : HandshakeRequest) : Prop :=
  match request.kind with
  | .register => i.registerClient request.username request.password ≠ .clientRegistered
  | .reconnect => ClientManager.verifySession request.username request.token s = false
  | _ => False

/-- Part of a header, or a header with the right magic number that announces no more
than `MAX_MESSAGE_PAYLOAD_SIZE`, and part of the payload. -/
def Beginning (buffer : Bytes) : Prop :=
  buffer.length < headerSize ∨
    (readHeader buffer).magic = protocolKey ∧
      (readHeader buffer).payloadLength ≤ maxMessagePayloadSize ∧
      buffer.length < (readHeader buffer).totalSize

instance (buffer : Bytes) : Decidable (Beginning buffer) := inferInstanceAs (Decidable (_ ∨ _))

/-- A user's bytes that leave no packet waiting: packets of types that are passed over,
then at most one that is acted on, and the beginning of another. -/
inductive Paced : Bytes → Prop
  | beginning {buffer : Bytes} : Beginning buffer → Paced buffer
  | one {buffer : Bytes} : Begins buffer → Sendable (packetType? buffer) →
      Beginning (afterPacket buffer) → Paced buffer
  | quit {buffer : Bytes} : Begins buffer → packetType? buffer = some .command →
      packetPayload buffer = literal "/quit" → Paced buffer
  | skipped {buffer : Bytes} : Begins buffer → ¬Sendable (packetType? buffer) →
      Paced (afterPacket buffer) → Paced buffer

/-- What arrives in the event leaves no packet waiting: nothing but the beginning of a
packet stands behind a handshake, and a user sends one packet at a time. -/
structure Orderly (i : Input) (s : ServerApp) : Prop where
  handshake : ∀ {p c bytes request}, s.deref p = some c → Receives i c bytes →
    c.status = .awaitingAuth → Asks (c.rxBuffer ++ bytes) request → ¬Rejects i s request →
    Beginning (afterPacket (c.rxBuffer ++ bytes))
  stream : ∀ {p c bytes}, s.deref p = some c → Receives i c bytes →
    c.status = .authenticated → Paced (c.rxBuffer ++ bytes)

theorem Beginning.length_le {buffer : Bytes} (h : Beginning buffer) :
    buffer.length ≤ maxBacklog := by
  have hheader : headerSize ≤ maxBacklog := by decide
  rcases h with hshort | ⟨-, hannounced, hincomplete⟩
  · exact hshort.le.trans hheader
  · calc
      buffer.length ≤ (readHeader buffer).totalSize := hincomplete.le
      _ ≤ headerSize + maxMessagePayloadSize := Nat.add_le_add_left hannounced headerSize
      _ ≤ maxBacklog := Nat.le_add_right _ _

theorem Beginning.not_begins {buffer : Bytes} (h : Beginning buffer) : ¬Begins buffer := by
  rintro ⟨⟨hlong, hcomplete⟩, -⟩
  rcases h with hshort | ⟨-, -, hincomplete⟩ <;> omega

/-- The parser takes the connection down, or leaves the beginning of a packet. -/
theorem paced_iff {buffer : Bytes} : Paced buffer ↔
    (processClientStream buffer).result = .disconnectClient ∨
      Beginning (processClientStream buffer).rxBuffer := by
  constructor
  · intro h
    induction h with
    | beginning h =>
        right
        rwa [(processClientStream_nothing h.not_begins).2]
    | one h htype hrest =>
        right
        rwa [(processClientStream_one h htype).2]
    | quit h htype hquit =>
        exact .inl ((processClientStream_one h (.inr (.inr htype))).1.mpr ⟨htype, hquit⟩)
    | skipped h htype _ ih => rwa [processClientStream_skipped h htype]
  · intro hleft
    induction hlength : buffer.length using Nat.strong_induction_on generalizing buffer with
    | _ n ih =>
        by_cases h : Begins buffer
        · by_cases htype : Sendable (packetType? buffer)
          · obtain ⟨hresult, hrest⟩ := processClientStream_one h htype
            rcases hleft with hquits | hbeginning
            · obtain ⟨hcommand, hquit⟩ := hresult.mp hquits
              exact .quit h hcommand hquit
            · exact .one h htype (hrest ▸ hbeginning)
          · have hshorter : (afterPacket buffer).length < n :=
              hlength ▸ length_afterPacket_lt h.1.1
            rw [processClientStream_skipped h htype] at hleft
            exact .skipped h htype (ih _ hshorter hleft rfl)
        · obtain ⟨hresult, hrest⟩ := processClientStream_nothing h
          rw [hrest] at hleft
          exact .beginning (hleft.resolve_left hresult)

instance (buffer : Bytes) : Decidable (Paced buffer) := decidable_of_iff' _ paced_iff

/-! ## One event -/

section

variable {i : Input} {s s' : ServerApp} {p : ConnectionPtr} {c c' : ClientConnection}

/-- What an orderly event leaves in each buffer is within the bound. -/
theorem bounded_of_change (h : Orderly i s) (hp : s.deref p = some c)
    (hbound : c.rxBuffer.length ≤ maxBacklog) {filter : Bool}
    (hchange : Change i s p c c' filter) : c'.rxBuffer.length ≤ maxBacklog := by
  have hhandshake : ∀ {request rest}, Handshakes i c request rest → ¬Rejects i s request →
      rest.length ≤ maxBacklog := by
    rintro request rest ⟨bytes, hreceives, hstatus, hparse⟩ hstays
    obtain ⟨hasks, rfl⟩ := processHandshakePacket_asks.mp hparse
    exact (h.handshake hp hreceives hstatus hasks hstays).length_le
  have hstream : ∀ {stream}, Streams i c stream → stream.result ≠ .disconnectClient →
      stream.rxBuffer.length ≤ maxBacklog := by
    rintro stream ⟨bytes, hreceives, hstatus, rfl⟩ hstays
    have hleft := paced_iff.mp (h.stream hp hreceives hstatus)
    exact (hleft.resolve_left hstays).length_le
  cases hchange with
  | kept | hears | timedOut => exact hbound
  | loggedIn hshake hkind => exact hhandshake hshake (by simp [Rejects, hkind])
  | reattached hshake hkind hsession htoken =>
      have hverified := ServerApp.verifySession_eq_true.mpr ⟨_, hsession, htoken⟩
      exact hhandshake hshake (by simp [Rejects, hkind, hverified])
  | relayed hstreams hresult => exact hstream hstreams (by simp [hresult])
  | edited hedit =>
      cases hedit with
      | flushed | nothingRead | wantWrite => exact hbound
      | handshakeIncomplete _ _ hparse =>
          have hshort := length_of_incomplete hparse
          have hlimits : maxHandshakePayload ≤ maxBacklog := by decide
          exact hshort.trans hlimits
      | loginRefused hshake hkind => exact hhandshake hshake (by simp [Rejects, hkind])
      | registered hshake hkind hregister =>
          exact hhandshake hshake (by simp [Rejects, hkind, hregister])
      | reconnectIgnored hshake hkind hverified =>
          exact hhandshake hshake (by simp [Rejects, hkind, hverified])
      | streamIdle hstreams hresult =>
          exact hstream hstreams (by rcases hresult with hresult | hresult <;> simp [hresult])
      | streamInvalid hstreams hresult | pingUnanswered hstreams hresult
      | pong hstreams hresult => exact hstream hstreams (by simp [hresult])

theorem bounded_of_step (hwf : WellFormed s) (hbound : Bounded s) (hstep : step i s = .ok s')
    (h : Orderly i s) : Bounded s' := by
  intro p c' hp'
  rcases traced_of_outcome hwf (hstep ▸ outcome_step hwf) hp' with
    ⟨fd, _, _, rfl, _⟩ | ⟨c, hp, hchange⟩
  · exact Nat.zero_le _
  · exact bounded_of_change h hp (hbound p c hp) hchange

end

/-! ## Runs -/

variable {now : Time} {history : List (Transition ServerApp Input)} {s : ServerApp}

/-- In a run whose events are all orderly, every receive buffer stays within the bound in
every state. -/
theorem backlog_bounded (hrun : ServerRun now history s)
    (h : ∀ t ∈ history, Orderly t.input t.pre) : ∀ t ∈ history, Bounded t.post := by
  have hbound : Bounded s ∧ ∀ t ∈ history, Bounded t.post := by
    refine hrun.invariant_of (fun t => Orderly t.input t.pre)
      (fun history s => Bounded s ∧ ∀ t ∈ history, Bounded t.post) ?_ ?_ h
    · refine ⟨?_, by simp⟩
      intro p c hp
      simp [initialState, ServerApp.deref] at hp
    · rintro history s s' i hrun ⟨hbound, hall⟩ hstep hkept
      have hbound' := bounded_of_step (wellFormed_of_run hrun) hbound hstep hkept
      refine ⟨hbound', fun t ht => ?_⟩
      rcases List.mem_append.mp ht with hold | hnew
      · exact hall t hold
      · rw [List.mem_singleton] at hnew
        exact hnew ▸ hbound'
  exact hbound.2

def readsOrderly (i : Input) (s : ServerApp) : Bool :=
  match readOutcome i.sslRead with
  | some (.received bytes) => s.connections.entries.all fun entry =>
      let buffer := entry.2.rxBuffer ++ bytes
      match entry.2.status with
      | .awaitingAuth => !decide (Begins buffer) || decide (Beginning (afterPacket buffer))
      | .authenticated => decide (Paced buffer)
      | .closing => true
  | _ => true

theorem orderly_of_readsOrderly {i : Input} (h : readsOrderly i s = true) : Orderly i s := by
  have hentry : ∀ {p c bytes}, s.deref p = some c → Receives i c bytes →
      (c.status = .awaitingAuth → Begins (c.rxBuffer ++ bytes) →
        Beginning (afterPacket (c.rxBuffer ++ bytes))) ∧
      (c.status = .authenticated → Paced (c.rxBuffer ++ bytes)) := by
    intro p c bytes hp hreceives
    rw [readsOrderly, hreceives.outcome] at h
    have hc := List.all_eq_true.mp h (p.fd, c)
      (OrderedMap.mem_entries.mpr (ServerApp.deref_eq_some.mp hp).1)
    constructor
    · intro hstatus hbegins
      simpa [hstatus, hbegins] using hc
    · intro hstatus
      simpa [hstatus] using hc
  exact ⟨fun hp hreceives hstatus hasks _ => (hentry hp hreceives).1 hstatus hasks.begins,
    fun hp hreceives => (hentry hp hreceives).2⟩

/-- `backlog_bounded` for a client that logs in, sends half of a message and then the
other half. -/
theorem backlog_bounded_half : ∃ history s, ServerRun 0 history s ∧ history.length = 4 ∧
    (∀ t ∈ history, Orderly t.input t.pre) ∧ ∀ t ∈ history, Bounded t.post := by
  obtain ⟨history, s, hrun, h⟩ := Run.exists_of_execute step
    [accepting 5, receiving 5 (loginPacket (literal "a") (literal "b")),
      receiving 5 ((createPacketStream .message (literal "hello")).take 14),
      receiving 5 ((createPacketStream .message (literal "hello")).drop 14)] (initialState 0)
    (fun history _ => history.length = 4 ∧
      ∀ t ∈ history, readsOrderly t.input t.pre = true)
    (by decide +kernel)
  simp only [decide_eq_true_eq] at h
  have horderly : ∀ t ∈ history, Orderly t.input t.pre :=
    fun t ht => orderly_of_readsOrderly (h.2 t ht)
  exact ⟨history, s, hrun, h.1, horderly, backlog_bounded hrun horderly⟩

/-! ## A client that fills the memory -/

/-- A logged in client on the connection `p` has sent `size` bytes that are no packet. -/
structure Flooded (p : ConnectionPtr) (size : Nat) (s : ServerApp) : Prop where
  clock : s.clock = 0
  session : (ClientManager.findSesssionFromConnection p s).isSome
  connection : ∃ c, s.deref p = some c ∧ c.fd = p.fd ∧ c.status = .authenticated ∧
    c.readWaitingForWrite = false ∧ c.writeWaitingForRead = false ∧
    c.rxBuffer = List.replicate size 0

theorem processClientStream_replicate {size : Nat} (h : headerSize ≤ size) :
    processClientStream (List.replicate size 0) =
      ⟨.invalidProtocolError, [], List.replicate size 0⟩ := by
  have htake : (List.replicate size (0 : UInt8)).take 2 = [0, 0] := by
    unfold headerSize at h
    rw [List.take_replicate, min_eq_left (by omega)]
    rfl
  have hmagic : (readHeader (List.replicate size 0)).magic ≠ protocolKey := by
    rw [show (readHeader (List.replicate size 0)).magic =
      readBigEndian ((List.replicate size 0).take 2) from rfl, htake]
    decide
  rw [processClientStream_eq, if_neg (by rwa [List.length_replicate, not_lt]), if_pos hmagic]

theorem flooded_step {p : ConnectionPtr} {size : Nat} (hwf : WellFormed s)
    (h : Flooded p size s) :
    ∃ s', step (receiving p.fd (List.replicate readBufferSize 0)) s = .ok s' ∧
      Flooded p (size + readBufferSize) s' := by
  obtain ⟨c, hp, hfd, hstatus, hreading, hwriting, hbuffer⟩ := h.connection
  obtain ⟨session, hsession⟩ := Option.isSome_iff_exists.mp h.session
  have hreceives : Receives (receiving p.fd (List.replicate readBufferSize 0)) c
      (List.replicate readBufferSize 0) := by
    have hnonempty : List.replicate readBufferSize (0 : UInt8) ≠ [] := by
      rw [ne_eq, List.replicate_eq_nil_iff]
      decide
    refine ⟨⟨hwriting, .inl ⟨?_, hreading⟩⟩, by simp [hstatus], rfl, hnonempty, by simp⟩
    rw [hfd]
    rfl
  have hstream : Streams (receiving p.fd (List.replicate readBufferSize 0)) c
      (processClientStream (List.replicate (size + readBufferSize) 0)) :=
    ⟨_, hreceives, hstatus, by rw [hbuffer, List.replicate_append_replicate]⟩
  rw [processClientStream_replicate (by unfold headerSize readBufferSize; omega)] at hstream
  have hpossible : (receiving p.fd (List.replicate readBufferSize 0)).Possible s :=
    ⟨h.clock.le, nofun⟩
  have hstep := step_streams hwf hp hstream hpossible
  rw [hsession] at hstep
  have hstored := ServerApp.deref_store_self (s := s.beginEvent 0)
    (d := c.withBuffer (List.replicate (size + readBufferSize) 0)) hp rfl
  exact ⟨_, hstep, rfl, h.session, _, hstored, hfd, hstatus, rfl, hwriting, rfl⟩

theorem flooded_run (rounds : Nat) : ∃ history s, ServerRun 0 history s ∧
    Flooded ⟨5, 0⟩ (rounds * readBufferSize) s := by
  induction rounds with
  | zero =>
      obtain ⟨history, s, c, hrun, hclock, hp, hfd, hidle, hsession⟩ := exists_idle
      refine ⟨history, s, hrun, hclock, Option.isSome_iff_ne_none.mpr hsession, c, hp, hfd,
        hidle.authenticated, hidle.reading, hidle.writing, ?_⟩
      rw [Nat.zero_mul, hidle.rxBuffer]
      rfl
  | succ rounds ih =>
      obtain ⟨history, s, hrun, hflooded⟩ := ih
      obtain ⟨s', hstep, hflooded'⟩ := flooded_step (wellFormed_of_run hrun) hflooded
      exact ⟨_, s', hrun.next hstep, by rwa [Nat.succ_mul]⟩

/-- There is no bound: bytes that are no packet are never taken off. -/
theorem backlog_unbounded (size : Nat) : ∃ history s p c, ServerRun 0 history s ∧
    s.deref p = some c ∧ size ≤ c.rxBuffer.length := by
  obtain ⟨history, s, hrun, hflooded⟩ := flooded_run size
  obtain ⟨c, hp, -, -, -, -, hbuffer⟩ := hflooded.connection
  refine ⟨history, s, _, c, hrun, hp, ?_⟩
  rw [hbuffer, List.length_replicate]
  exact Nat.le_mul_of_pos_right size (by decide)

/-- Ten reads of bytes that are no packet. -/
theorem backlog_exceeded :
    ¬∀ now history s, ServerRun now history s → ∀ t ∈ history, Bounded t.post := by
  intro h
  obtain ⟨history, s, hrun, hflooded⟩ := flooded_run 10
  obtain ⟨c, hp, -, -, -, -, hbuffer⟩ := hflooded.connection
  have hbounded : Bounded s := by
    cases hrun with
    | start => simp [initialState, ServerApp.deref] at hp
    | next hrun hstep =>
        exact h 0 _ _ (hrun.next hstep) _ (List.mem_append_right _ (List.mem_singleton_self _))
  have hlength := hbounded _ c hp
  rw [hbuffer, List.length_replicate] at hlength
  exact absurd hlength (by decide)

end TChat.Server
