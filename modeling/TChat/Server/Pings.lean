import TChat.Server.Broadcasts
import TChat.Server.Outbox
import TChat.Server.Parsing
/-!
# The first packet that asks for something

Of the packets at the front of a buffer `process_client_stream` should pass over those
that are no message, no ping and no "/quit", and act on the first that is.  The case of
the commands lacks its `break`: a command other than "/quit" is answered like a ping.
-/

namespace TChat.Server

open TChat.Common TChat.Lib

structure Framed (packet : Bytes) : Prop where
  header : headerSize ≤ packet.length
  magic : (readHeader packet).magic = protocolKey
  size : (readHeader packet).totalSize = packet.length

def Actionable (packet : Bytes) : Prop :=
  packetType? packet = some .message ∨ packetType? packet = some .ping ∨
    packetType? packet = some .command ∧ packetPayload packet = literal "/quit"

/-- `ActsOnFirst packets more stream`: of the packets in front of `more` those that are
not to be acted on are passed over, `stream` is what has to come of the first that is,
and if there is none then `more` is what the parser has to look at. -/
inductive ActsOnFirst : List Bytes → Bytes → ClientStream → Prop
  | message {packet more : Bytes} {packets : List Bytes} :
      packetType? packet = some .message →
      ActsOnFirst (packet :: packets) more
        ⟨.printMessage, packetPayload packet, packets.flatten ++ more⟩
  | ping {packet more : Bytes} {packets : List Bytes} :
      packetType? packet = some .ping →
      ActsOnFirst (packet :: packets) more ⟨.sendPong, [], packets.flatten ++ more⟩
  | quit {packet more : Bytes} {packets : List Bytes} :
      packetType? packet = some .command → packetPayload packet = literal "/quit" →
      ActsOnFirst (packet :: packets) more ⟨.disconnectClient, [], packets.flatten ++ more⟩
  | passed {packet more : Bytes} {packets : List Bytes} {stream : ClientStream} :
      ¬Actionable packet → ActsOnFirst packets more stream →
      ActsOnFirst (packet :: packets) more stream
  | nothing {more : Bytes} : ActsOnFirst [] more (processClientStream more)

/-- Behind packets with the property `Passed` comes `packet`, and then `rest`. -/
def Ahead (Passed : Bytes → Prop) (packet rest buffer : Bytes) : Prop :=
  ∃ before : List Bytes, (∀ q ∈ before, Framed q ∧ Passed q) ∧ Framed packet ∧
    buffer = before.flatten ++ (packet ++ rest)

def PingFirst (buffer : Bytes) : Prop :=
  ∃ packet rest, Ahead (fun q => ¬Actionable q) packet rest buffer ∧
    packetType? packet = some .ping

/-- Behind packets that no user sends comes a command other than "/quit". -/
def CommandFirst (buffer : Bytes) : Prop :=
  ∃ packet rest, Ahead (fun q => ¬Sendable (packetType? q)) packet rest buffer ∧
    packetType? packet = some .command ∧ packetPayload packet ≠ literal "/quit"

/-- Whenever a read makes these bytes the buffer of a user and it brings a pong, or the
connection counts as alive since, a ping is the first packet to act on. -/
def PongsForPings (buffer : Bytes) : Prop :=
  ∀ now history s i p c bytes s', ServerRun now history s → s.deref p = some c →
    c.status = .authenticated → Receives i c bytes → c.rxBuffer ++ bytes = buffer →
    step i s = .ok s' →
    (.queueWrite p (createPacketStream .pong []) ∈ s'.actions ∨
      ∃ c', s'.deref p = some c' ∧ c'.lastSeen ≠ c.lastSeen) → PingFirst buffer

/-- What `process_client_stream` should do with a buffer, however many packets are seen
at its front, and what should come of it. -/
def ReadsInOrder (buffer : Bytes) : Prop :=
  (∀ packets more, (∀ packet ∈ packets, Framed packet) → buffer = packets.flatten ++ more →
    ActsOnFirst packets more (processClientStream buffer)) ∧ PongsForPings buffer

section

variable {buffer packet rest more : Bytes} {stream : ClientStream}

/-! ## Packets at the front -/

namespace Framed

theorem begins (h : Framed packet) (more : Bytes) : Begins (packet ++ more) :=
  Begins.append ⟨⟨h.header, h.size.le⟩, h.magic⟩ more

theorem afterPacket_append (h : Framed packet) (more : Bytes) :
    afterPacket (packet ++ more) = more := by
  rw [afterPacket, readHeader_append h.header, h.size, List.drop_left]

theorem packetPayload_append (h : Framed packet) (more : Bytes) :
    packetPayload (packet ++ more) = packetPayload packet :=
  StartsWithPacket.packetPayload_append ⟨h.header, h.size.le⟩ more

end Framed

theorem Begins.exists_framed (h : Begins buffer) :
    ∃ packet, Framed packet ∧ buffer = packet ++ afterPacket buffer := by
  obtain ⟨hlong, hmagic, hcomplete⟩ := begins_iff.mp h
  have hcut := List.take_append_drop (readHeader buffer).totalSize buffer
  have hlength : (buffer.take (readHeader buffer).totalSize).length =
      (readHeader buffer).totalSize := by
    rw [List.length_take, min_eq_left hcomplete]
  have hheader : headerSize ≤ (buffer.take (readHeader buffer).totalSize).length := by
    rw [hlength, PacketHeader.totalSize]
    omega
  have hread : readHeader (buffer.take (readHeader buffer).totalSize) = readHeader buffer := by
    have happend := readHeader_append hheader (buffer.drop (readHeader buffer).totalSize)
    rw [← happend, hcut]
  exact ⟨_, ⟨hheader, by rw [hread, hmagic], by rw [hread, hlength]⟩, hcut.symm⟩

theorem not_actionable (h : ¬Sendable (packetType? packet)) : ¬Actionable packet := by
  rintro (htype | htype | ⟨htype, -⟩)
  · exact h (.inl htype)
  · exact h (.inr (.inl htype))
  · exact h (.inr (.inr htype))

theorem ahead_cons {Passed : Bytes → Prop} {q : Bytes} (hq : Framed q) (hpassed : Passed q)
    (h : Ahead Passed packet rest buffer) : Ahead Passed packet rest (q ++ buffer) := by
  obtain ⟨before, hbefore, hpacket, rfl⟩ := h
  refine ⟨q :: before, ?_, hpacket, ?_⟩
  · rintro x hx
    rcases List.mem_cons.mp hx with rfl | hx
    · exact ⟨hq, hpassed⟩
    · exact hbefore x hx
  · rw [List.flatten_cons, List.append_assoc]

theorem processClientStream_passed (h : Framed packet)
    (htype : ¬Sendable (packetType? packet)) (more : Bytes) :
    processClientStream (packet ++ more) = processClientStream more := by
  rw [← packetType?_append h.header more] at htype
  rw [processClientStream_skipped (h.begins more) htype, h.afterPacket_append]

theorem processClientStream_flatten {packets : List Bytes}
    (h : ∀ q ∈ packets, Framed q ∧ ¬Sendable (packetType? q)) (more : Bytes) :
    processClientStream (packets.flatten ++ more) = processClientStream more := by
  induction packets with
  | nil => rfl
  | cons q packets ih =>
      obtain ⟨hframed, htype⟩ := h q List.mem_cons_self
      rw [List.flatten_cons, List.append_assoc, processClientStream_passed hframed htype]
      exact ih fun x hx => h x (List.mem_cons_of_mem q hx)

theorem processClientStream_framed (h : Framed packet) (more : Bytes) :
    processClientStream (packet ++ more) =
      match packetType? packet with
      | some .message => ⟨.printMessage, packetPayload packet, more⟩
      | some .command =>
          if packetPayload packet = literal "/quit" then ⟨.disconnectClient, [], more⟩
          else ⟨.sendPong, [], more⟩
      | some .ping => ⟨.sendPong, [], more⟩
      | _ => processClientStream more := by
  have hparsed := processClientStream_begins (h.begins more)
  rw [packetType?_append h.header, h.packetPayload_append, h.afterPacket_append] at hparsed
  exact hparsed

theorem length_of_pong (h : (processClientStream buffer).result = .sendPong) :
    (processClientStream buffer).rxBuffer.length < buffer.length := by
  induction hlength : buffer.length using Nat.strong_induction_on generalizing buffer with
  | _ n ih =>
      subst hlength
      by_cases hbegins : Begins buffer
      · have hshorter := length_afterPacket_lt hbegins.1.1
        by_cases htype : Sendable (packetType? buffer)
        · rw [(processClientStream_one hbegins htype).2]
          exact hshorter
        · rw [processClientStream_skipped hbegins htype] at h ⊢
          exact (ih _ hshorter h rfl).trans hshorter
      · rw [processClientStream_obstacle hbegins] at h
        unfold obstacle at h
        split_ifs at h

/-- A pong is for a ping or for a command that is not "/quit". -/
theorem ahead_of_pong (h : (processClientStream buffer).result = .sendPong) :
    ∃ packet rest, Ahead (fun q => ¬Sendable (packetType? q)) packet rest buffer ∧
      (packetType? packet = some .ping ∨
        packetType? packet = some .command ∧ packetPayload packet ≠ literal "/quit") := by
  induction hlength : buffer.length using Nat.strong_induction_on generalizing buffer with
  | _ n ih =>
      subst hlength
      by_cases hbegins : Begins buffer
      · obtain ⟨packet, hframed, hbuffer⟩ := hbegins.exists_framed
        by_cases htype : Sendable (packetType? packet)
        · refine ⟨packet, _, ⟨[], by simp, hframed, hbuffer⟩, ?_⟩
          rw [hbuffer, processClientStream_framed hframed] at h
          rcases htype with htype | htype | htype
          · simp [htype] at h
          · exact .inl htype
          · simp only [htype] at h
            split_ifs at h with hquit
            exact .inr ⟨htype, hquit⟩
        · have hskipped : ¬Sendable (packetType? buffer) := by
            rwa [hbuffer, packetType?_append hframed.header]
          rw [processClientStream_skipped hbegins hskipped] at h
          obtain ⟨found, rest, hahead, hfound⟩ :=
            ih _ (length_afterPacket_lt hbegins.1.1) h rfl
          exact ⟨found, rest, hbuffer ▸ ahead_cons hframed htype hahead, hfound⟩
      · rw [processClientStream_obstacle hbegins] at h
        unfold obstacle at h
        split_ifs at h

/-! ## The law and its exception -/

theorem actsOnFirst_of_not_commandFirst {packets : List Bytes}
    (hframed : ∀ packet ∈ packets, Framed packet)
    (h : ¬CommandFirst (packets.flatten ++ more)) :
    ActsOnFirst packets more (processClientStream (packets.flatten ++ more)) := by
  induction packets with
  | nil => exact .nothing
  | cons packet packets ih =>
      have hpacket := hframed packet List.mem_cons_self
      rw [List.flatten_cons, List.append_assoc] at h ⊢
      by_cases htype : Sendable (packetType? packet)
      · rw [processClientStream_framed hpacket]
        rcases htype with htype | htype | htype
        · rw [htype]
          exact .message htype
        · rw [htype]
          exact .ping htype
        · have hquit : packetPayload packet = literal "/quit" := by
            by_contra hother
            exact h ⟨packet, _, ⟨[], by simp, hpacket, rfl⟩, htype, hother⟩
          simp only [htype, hquit, if_true]
          exact .quit htype hquit
      · have hlater : ¬CommandFirst (packets.flatten ++ more) := by
          rintro ⟨found, rest, hahead, hfound⟩
          exact h ⟨found, rest, ahead_cons hpacket htype hahead, hfound⟩
        rw [processClientStream_passed hpacket htype]
        exact .passed (not_actionable htype)
          (ih (fun q hq => hframed q (List.mem_cons_of_mem packet hq)) hlater)

theorem actsOnFirst_passed {packets : List Bytes} (h : ∀ q ∈ packets, ¬Actionable q)
    (hacts : ActsOnFirst packets more stream) : stream = processClientStream more := by
  induction packets with
  | nil =>
      cases hacts with
      | nothing => rfl
  | cons packet packets ih =>
      have hpacket := h packet List.mem_cons_self
      cases hacts with
      | message htype => exact absurd (.inl htype) hpacket
      | ping htype => exact absurd (.inr (.inl htype)) hpacket
      | quit htype hquit => exact absurd (.inr (.inr ⟨htype, hquit⟩)) hpacket
      | passed _ hlater => exact ih (fun q hq => h q (List.mem_cons_of_mem packet hq)) hlater

theorem not_readsInOrder_of_commandFirst (h : CommandFirst buffer) : ¬ReadsInOrder buffer := by
  rintro ⟨hacts, -⟩
  obtain ⟨command, rest, ⟨before, hbefore, hcommand, rfl⟩, htype, hquit⟩ := h
  have hpong : processClientStream (before.flatten ++ (command ++ rest)) =
      ⟨.sendPong, [], rest⟩ := by
    rw [processClientStream_flatten hbefore, processClientStream_framed hcommand]
    simp only [htype, if_neg hquit]
  have hlaw := hacts (before ++ [command]) rest (by
    intro q hq
    rcases List.mem_append.mp hq with hq | hq
    · exact (hbefore q hq).1
    · exact List.mem_singleton.mp hq ▸ hcommand) (by simp)
  have hpassed : ∀ q ∈ before ++ [command], ¬Actionable q := by
    intro q hq
    rcases List.mem_append.mp hq with hq | hq
    · exact not_actionable (hbefore q hq).2
    · rw [List.mem_singleton] at hq
      subst hq
      rintro (hother | hother | ⟨-, hother⟩)
      · simp [htype] at hother
      · simp [htype] at hother
      · exact hquit hother
  have hnothing := actsOnFirst_passed hpassed hlaw
  rw [hpong] at hnothing
  have hresult : (processClientStream rest).result = .sendPong := by rw [← hnothing]
  have hshorter := length_of_pong hresult
  rw [← hnothing] at hshorter
  exact lt_irrefl _ hshorter

theorem pingFirst_of_pong (h : ¬CommandFirst buffer)
    (hpong : (processClientStream buffer).result = .sendPong) : PingFirst buffer := by
  obtain ⟨packet, rest, hahead, hping | hcommand⟩ := ahead_of_pong hpong
  · obtain ⟨before, hbefore, hpacket⟩ := hahead
    exact ⟨packet, rest, ⟨before, fun q hq => ⟨(hbefore q hq).1,
      not_actionable (hbefore q hq).2⟩, hpacket⟩, hping⟩
  · exact absurd ⟨packet, rest, hahead, hcommand⟩ h

end

/-! ## Pongs -/

section

variable {i : Input} {s s' : ServerApp} {p : ConnectionPtr} {c : ClientConnection}

theorem Receives.unique {bytes bytes' : Bytes} (h : Receives i c bytes)
    (h' : Receives i c bytes') : bytes = bytes' := by
  have houtcome := h.outcome.symm.trans h'.outcome
  simpa using houtcome

theorem Streams.eq {stream : ClientStream} {bytes : Bytes} (h : Streams i c stream)
    (hreceives : Receives i c bytes) : stream = processClientStream (c.rxBuffer ++ bytes) := by
  obtain ⟨bytes', hreceives', -, rfl⟩ := h
  rw [hreceives.unique hreceives']

theorem Replies.pong_streams {packet : Bytes} (h : Replies i s p packet)
    (htype : packetType? packet = some .pong) :
    ∃ c stream, s.deref p = some c ∧ Streams i c stream ∧ stream.result = .sendPong := by
  cases h with
  | @refusal _ _ _ status => cases status <;> simp [Server.refusal] at htype
  | registered | welcome => simp at htype
  | pong hp hstreams hresult => exact ⟨_, _, hp, hstreams, hresult⟩

theorem streams_of_pong (hwf : WellFormed s) (h : Outcome i s (.ok s'))
    (hmem : .queueWrite p (createPacketStream .pong []) ∈ s'.actions) :
    ∃ c stream, s.deref p = some c ∧ Streams i c stream ∧ stream.result = .sendPong := by
  have hperforms := h.performs hwf
  generalize s'.actions = actions at hperforms hmem
  cases hperforms with
  | silent hquiet =>
      have hreplies : Replies i s p (createPacketStream .pong []) := hquiet _ hmem
      exact hreplies.pong_streams (packetType?_createPacketStream _ _)
  | announces hannounces =>
      simp only [List.mem_cons, reduceCtorEq, List.mem_map, Action.queueWrite.injEq,
        false_or] at hmem
      obtain ⟨_, _, _, rfl⟩ := hmem
      have htype := hannounces.type
      simp at htype

theorem Fate.lastSeen {after : Option ClientConnection} {queued : List Bytes}
    {calls : List SslWriteCall} (h : Fate i s p c after queued calls)
    (hstatus : c.status = .authenticated) {c' : ClientConnection} (hafter : after = some c')
    (hchanged : c'.lastSeen ≠ c.lastSeen) :
    ∃ stream, Streams i c stream ∧ stream.result = .sendPong := by
  cases h with
  | kept | hears | timedOut | relayed =>
      obtain rfl := Option.some.inj hafter
      exact absurd rfl hchanged
  | loggedIn hshake | reattached hshake => simp [hshake.awaiting] at hstatus
  | dropped | removed => simp at hafter
  | edited hedit =>
      obtain rfl := Option.some.inj hafter
      cases hedit with
      | pong hstreams hresult => exact ⟨_, hstreams, hresult⟩
      | _ => exact absurd rfl hchanged

theorem pongsForPings_of_not_commandFirst {buffer : Bytes} (h : ¬CommandFirst buffer) :
    PongsForPings buffer := by
  rintro now history s i p c bytes s' hrun hp hstatus hreceives rfl hstep hpong
  have hwf := wellFormed_of_run hrun
  have houtcome := outcome_of_run hrun hstep
  have hstreams : ∃ stream, Streams i c stream ∧ stream.result = .sendPong := by
    rcases hpong with hmem | ⟨c', hp', hchanged⟩
    · obtain ⟨d, stream, hd, hstreams, hresult⟩ := streams_of_pong hwf houtcome hmem
      obtain rfl := Option.some.inj (hp.symm.trans hd)
      exact ⟨stream, hstreams, hresult⟩
    · exact (fate_of_outcome hwf houtcome hp).lastSeen hstatus hp' hchanged
  obtain ⟨stream, hstreams, hresult⟩ := hstreams
  rw [hstreams.eq hreceives] at hresult
  exact pingFirst_of_pong h hresult

/-- `process_client_stream` reads a buffer in order, and pongs are for pings, if and only
if no command other than "/quit" is the first packet in it that a user sends. -/
theorem reads_in_order (buffer : Bytes) : ReadsInOrder buffer ↔ ¬CommandFirst buffer := by
  constructor
  · intro h hcommand
    exact not_readsInOrder_of_commandFirst hcommand h
  · intro h
    refine ⟨?_, pongsForPings_of_not_commandFirst h⟩
    rintro packets more hframed rfl
    exact actsOnFirst_of_not_commandFirst hframed h

/-- The command "/who" is answered like a ping. -/
theorem command_answered : ¬∀ buffer, ReadsInOrder buffer := by
  intro h
  have hcommand : CommandFirst (createPacketStream .command (literal "/who")) := by
    refine ⟨createPacketStream .command (literal "/who"), [], ⟨[], by simp, ?_, by simp⟩, ?_, ?_⟩
    · exact ⟨by decide, by decide, by decide⟩
    · decide
    · decide
  exact not_readsInOrder_of_commandFirst hcommand (h _)

end

end TChat.Server
