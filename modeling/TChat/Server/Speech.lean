import TChat.Server.Closing
import TChat.Server.FirstHandshake
/-!
# What is said for a connection

A client sends a login and then its packets, cut in any way, and among any other events of
the server.  What is broadcast for its connection are the first of its messages, each once
and under the name in its login.
-/

namespace TChat.Server

open TChat.Common TChat.Lib

def announcedBy (p : ConnectionPtr) (history : List (Transition ServerApp Input)) :
    List Announcement :=
  (announcements history).filter (·.sender = some p)

def saidFor (p : ConnectionPtr) (history : List (Transition ServerApp Input)) : List Bytes :=
  (announcedBy p history).map (·.packet)

/-- The broadcasts that the packets of the user `username` ask for. -/
def spoken (username : Bytes) (packets : List ClientPacket) : List Bytes :=
  (packets.filter (·.type = .message)).map
    fun packet => ServerApp.clientBroadcast username packet.payload

/-- How far a run has got with the conversation behind `p`: it has handled the login and the
packets `handled`, and what else has arrived is in the buffer. -/
structure Attends (conversation : Conversation) (p : ConnectionPtr)
    (history : List (Transition ServerApp Input)) (s : ServerApp)
    (handled : List ClientPacket) : Prop where
  handled_prefix : handled <+: conversation.packets
  said : saidFor p history = spoken conversation.login.username handled
  awaiting : ∀ c, s.deref p = some c → c.status = .awaitingAuth →
    handled = [] ∧ (pieces p history).flatten = c.rxBuffer
  authenticated : ∀ c, s.deref p = some c → c.status = .authenticated →
    (pieces p history).flatten =
      conversation.login.bytes ++ packetBytes handled ++ c.rxBuffer
  unused : s.nextNode ≤ p.node → pieces p history = [] ∧ handled = []
  named : ∀ u x, s.sessions.find? u = some x → x.connection = some p →
    u = conversation.login.username

/-! ## One event -/

section

variable {i : Input} {s s' : ServerApp} {p : ConnectionPtr} {c : ClientConnection}
  {after : Option ClientConnection} {queued : List Bytes} {calls : List SslWriteCall}
  {stream : ClientStream}

theorem announcedBy_append (p : ConnectionPtr) (history : List (Transition ServerApp Input))
    (t : Transition ServerApp Input) :
    announcedBy p (history ++ [t]) = announcedBy p history ++
      (broadcasts t.pre t.post.actions).filter (·.sender = some p) := by
  simp [announcedBy, announcements]

theorem saidFor_append (p : ConnectionPtr) (history : List (Transition ServerApp Input))
    (t : Transition ServerApp Input) :
    saidFor p (history ++ [t]) = saidFor p history ++
      ((broadcasts t.pre t.post.actions).filter (·.sender = some p)).map (·.packet) := by
  rw [saidFor, announcedBy_append, List.map_append]
  rfl

theorem said_cases {actions : List Action} (h : Performs i s actions) :
    ((broadcasts s actions).filter (·.sender = some p)).map (·.packet) = [] ∨
      ∃ c stream session, s.deref p = some c ∧ Streams i c stream ∧
        stream.result = .printMessage ∧
        ClientManager.findSesssionFromConnection p s = some session ∧
        ((broadcasts s actions).filter (·.sender = some p)).map (·.packet) =
          [ServerApp.clientBroadcast session.username stream.message] := by
  cases h with
  | silent hquiet =>
      have hnone : broadcasts s actions = [] := by
        apply List.filterMap_eq_nil_iff.mpr
        intro a ha
        have := hquiet a ha
        cases a <;> simp_all [Quiet]
      left
      rw [hnone]
      rfl
  | @announces sender packet audience hannounces =>
      have hone : broadcasts s (.broadcast sender packet :: audience.map (.queueWrite · packet)) =
          [⟨s, sender, packet⟩] := by
        simp [broadcasts]
      rw [hone]
      by_cases hsender : sender = some p
      · subst hsender
        cases hannounces with
        | client hp hstream hresult hsession =>
            exact .inr ⟨_, _, _, hp, hstream, hresult, hsession, by simp⟩
      · left
        simp [hsender]

theorem Streams.unique {stream' : ClientStream} (h : Streams i c stream)
    (h' : Streams i c stream') : stream = stream' := by
  obtain ⟨bytes, hreceives, -, rfl⟩ := h
  obtain ⟨bytes', hreceives', -, rfl⟩ := h'
  have hsame := hreceives.outcome.symm.trans hreceives'.outcome
  simp only [Option.some.injEq, SslRead.received.injEq] at hsame
  rw [hsame]

theorem Fate.unread (h : Fate i s p c after queued calls)
    (hnothing : ∀ bytes, ¬Receives i c bytes) :
    ∀ c' ∈ after, c'.status = .closing ∨ c'.status = c.status ∧ c'.rxBuffer = c.rxBuffer := by
  have hshake {request : HandshakeRequest} {rest : Bytes} : ¬Handshakes i c request rest := by
    rintro ⟨bytes, hreceives, -⟩
    exact hnothing bytes hreceives
  have hstreams {stream : ClientStream} : ¬Streams i c stream := by
    rintro ⟨bytes, hreceives, -⟩
    exact hnothing bytes hreceives
  have hsame {c' : ClientConnection} (hstatus : c'.status = c.status)
      (hbuffer : c'.rxBuffer = c.rxBuffer) :
      ∀ d ∈ some c', d.status = .closing ∨ d.status = c.status ∧ d.rxBuffer = c.rxBuffer := by
    rintro d ⟨⟩
    exact .inr ⟨hstatus, hbuffer⟩
  cases h with
  | kept | hears => exact hsame rfl rfl
  | edited hedit =>
      cases hedit with
      | flushed | nothingRead | wantWrite => exact hsame rfl rfl
      | handshakeIncomplete hreceives => exact absurd hreceives (hnothing _)
      | loginRefused h | registered h | reconnectIgnored h => exact absurd h hshake
      | streamIdle h | streamInvalid h | pingUnanswered h | pong h => exact absurd h hstreams
  | loggedIn h | reattached h => exact absurd h hshake
  | relayed h => exact absurd h hstreams
  | timedOut =>
      rintro d ⟨⟩
      exact .inl rfl
  | dropped | removed => exact nofun

theorem buffer_of_streams (hwf : WellFormed s) (hp : s.deref p = some c)
    (h : Streams i c stream) (hstep : step i s = .ok s') :
    ∀ c', s'.deref p = some c' → c'.rxBuffer = stream.rxBuffer := by
  have hstored : ((s.beginEvent i.now).store p (c.withBuffer stream.rxBuffer)).deref p =
      some (c.withBuffer stream.rxBuffer) :=
    ServerApp.deref_store_self (s := s.beginEvent i.now) hp rfl
  have hkept {t : ServerApp} (heq : (.ok t : Except Fault ServerApp) = .ok s')
      (ht : t.deref p = some (c.withBuffer stream.rxBuffer)) :
      ∀ c', s'.deref p = some c' → c'.rxBuffer = stream.rxBuffer := by
    intro c' hc'
    rw [← Except.ok.inj heq, ht, Option.some.injEq] at hc'
    rw [← hc']
    rfl
  have hbusy : stream.result ≠ .bufferEmpty := by
    obtain ⟨bytes, -, -, rfl⟩ := h
    exact processClientStream_result _
  have hstreams := step_streams hwf hp h (possible_of_step hstep)
  rw [hstep] at hstreams
  cases hsession : ClientManager.findSesssionFromConnection p s with
  | none =>
      rw [hsession] at hstreams
      cases hresult : stream.result with
      | bufferEmpty => exact absurd hresult hbusy
      | incompletePacket | processComplete | sendPong =>
          rw [hresult] at hstreams
          exact hkept hstreams.symm hstored
      | invalidProtocolError | disconnectClient | printMessage =>
          rw [hresult] at hstreams
          cases hstreams
  | some session =>
      have hheld := (findSession_some hsession).1
      rw [hsession] at hstreams
      cases hresult : stream.result with
      | bufferEmpty => exact absurd hresult hbusy
      | incompletePacket | processComplete | invalidProtocolError =>
          rw [hresult] at hstreams
          exact hkept hstreams.symm hstored
      | disconnectClient =>
          rw [hresult, ServerApp.handleProcessStreamResult_disconnectClient hwf hp hheld,
            Except.ok.injEq] at hstreams
          intro c' hc'
          rw [hstreams, deref_release (s := s.beginEvent i.now) _ _ hp, if_pos rfl] at hc'
          cases hc'
      | sendPong =>
          rw [hresult, ServerApp.handleProcessStreamResult_sendPong hwf hp hheld,
            Except.ok.injEq] at hstreams
          intro c' hc'
          rw [hstreams, ServerApp.deref_replied (s := s.beginEvent i.now) hp (by rfl),
            Option.some.injEq] at hc'
          rw [← hc']
          rfl
      | printMessage =>
          rw [hresult, ServerApp.handleProcessStreamResult_printMessage hwf hp hheld,
            Except.ok.injEq] at hstreams
          intro c' hc'
          rw [hstreams, ServerApp.deref_broadcastAndEnable, hstored] at hc'
          simp only [isRecipient, Option.map_some, Option.some.injEq] at hc'
          rw [← hc']
          simp [ClientConnection.withBuffer]

end

/-! ## The run -/

section

variable {now : Time} {history : List (Transition ServerApp Input)} {s : ServerApp}
  {conversation : Conversation} {p : ConnectionPtr} {c : ClientConnection}
  {handled : List ClientPacket} {t : Transition ServerApp Input} {piece : Bytes}

theorem Attends.start (conversation : Conversation) (p : ConnectionPtr) (now : Time) :
    Attends conversation p [] (initialState now) [] where
  handled_prefix := List.nil_prefix
  said := rfl
  awaiting := by simp [initialState, ServerApp.deref]
  authenticated := by simp [initialState, ServerApp.deref]
  unused := fun _ => ⟨rfl, rfl⟩
  named := by simp [initialState]

theorem request_of_login {login : LoginPacket} {rxBuffer unread later rest : Bytes}
    {request : HandshakeRequest} (hcut : rxBuffer ++ unread = login.bytes ++ later)
    (hparse : processHandshakePacket rxBuffer = (⟨.validAuthPacket, request⟩, rest)) :
    request = ⟨.login, login.username, login.password, []⟩ := by
  rcases Nat.lt_or_ge rxBuffer.length login.size with hsize | hsize
  · rw [LoginPacket.parse_incomplete hcut hsize] at hparse
    simp at hparse
  · by_cases hvalid : login.Valid
    · rw [LoginPacket.parse_valid hcut hsize hvalid] at hparse
      simp only [Prod.mk.injEq, HandshakeResult.mk.injEq, true_and] at hparse
      exact hparse.1.symm
    · obtain ⟨rest', hinvalid⟩ := LoginPacket.parse_invalid hcut hsize hvalid
      rw [hinvalid] at hparse
      simp at hparse

theorem Attends.pieces_awaiting (h : Attends conversation p history t.pre handled)
    (hp : t.pre.deref p = some c) (hawaiting : c.status = .awaitingAuth)
    (hreceives : Receives t.input c piece) :
    (pieces p (history ++ [t])).flatten = c.rxBuffer ++ piece := by
  have hpiece := delivery_eq_some.mpr ⟨c, hp, hreceives⟩
  simp [pieces_concat, hpiece, (h.awaiting c hp hawaiting).2]

/-- No session under another name comes to hold the connection. -/
theorem Attends.named_next (h : Attends conversation p history t.pre handled)
    (hrun : ServerRun now history t.pre) (hstep : step t.input t.pre = .ok t.post)
    (hcut : (pieces p (history ++ [t])).flatten <+: conversation.bytes) :
    ∀ u x, t.post.sessions.find? u = some x → x.connection = some p →
      u = conversation.login.username := by
  have hrequest {c : ClientConnection} {request : HandshakeRequest} {rest : Bytes}
      (hp : t.pre.deref p = some c) (hshake : Handshakes t.input c request rest) :
      request = ⟨.login, conversation.login.username, conversation.login.password, []⟩ := by
    obtain ⟨piece, hreceives, hawaiting, hparse⟩ := hshake
    obtain ⟨unread, hunread⟩ := hcut
    rw [h.pieces_awaiting hp hawaiting hreceives] at hunread
    exact request_of_login hunread hparse
  intro u x hx hconnection
  cases (outcome_of_run hrun hstep).session (wellFormed_of_run hrun) hx with
  | kept hx => exact h.named u x hx hconnection
  | detached => simp at hconnection
  | loggedIn hq hshake _ _ hu =>
      obtain rfl := Option.some.inj hconnection
      rw [hu, hrequest hq hshake]
  | reattached hq hshake hkind =>
      obtain rfl := Option.some.inj hconnection
      simp [hrequest hq hshake] at hkind

theorem silent_of_unread (hrun : ServerRun now history t.pre)
    (hstep : step t.input t.pre = .ok t.post)
    (h : ∀ c stream, t.pre.deref p = some c → Streams t.input c stream →
      stream.result ≠ .printMessage) :
    saidFor p (history ++ [t]) = saidFor p history := by
  rw [saidFor_append]
  rcases said_cases ((outcome_of_run hrun hstep).performs (wellFormed_of_run hrun)) with
    hsilent | ⟨c, stream, session, hp, hstreams, hresult, -, -⟩
  · rw [hsilent, List.append_nil]
  · exact absurd hresult (h c stream hp hstreams)

theorem Attends.next_unread (h : Attends conversation p history t.pre handled)
    (hrun : ServerRun now history t.pre) (hstep : step t.input t.pre = .ok t.post)
    (hcut : (pieces p (history ++ [t])).flatten <+: conversation.bytes)
    (hpiece : delivery p t = none) : Attends conversation p (history ++ [t]) t.post handled := by
  have hwf := wellFormed_of_run hrun
  have houtcome := outcome_of_run hrun hstep
  have hpieces : pieces p (history ++ [t]) = pieces p history := by
    simp [pieces_concat, hpiece]
  have hnothing : ∀ c, t.pre.deref p = some c → ∀ bytes, ¬Receives t.input c bytes := by
    intro c hp bytes hreceives
    rw [delivery_eq_some.mpr ⟨c, hp, hreceives⟩] at hpiece
    simp at hpiece
  have hsaid : saidFor p (history ++ [t]) = saidFor p history := by
    apply silent_of_unread hrun hstep
    intro c stream hp hstreams
    obtain ⟨bytes, hreceives, -⟩ := hstreams
    exact absurd hreceives (hnothing c hp bytes)
  -- a connection that is there was there before, or is new
  have hbefore : ∀ c', t.post.deref p = some c' → c'.status ≠ .closing →
      (∃ c, t.pre.deref p = some c ∧ c'.status = c.status ∧ c'.rxBuffer = c.rxBuffer) ∨
        t.pre.nextNode ≤ p.node ∧ c'.status = .awaitingAuth ∧ c'.rxBuffer = [] := by
    intro c' hc' hlistening
    rcases traced_of_outcome hwf houtcome hc' with ⟨fd, -, rfl, rfl, -⟩ | ⟨c, hp, -⟩
    · exact .inr ⟨le_rfl, rfl, rfl⟩
    · rcases (fate_of_outcome hwf houtcome hp).unread (hnothing c hp) c' hc' with
        hclosing | hsame
      · exact absurd hclosing hlistening
      · exact .inl ⟨c, hp, hsame⟩
  refine ⟨h.handled_prefix, hsaid.trans h.said, ?_, ?_, ?_, h.named_next hrun hstep hcut⟩
  · intro c' hc' hawaiting
    rw [hpieces]
    rcases hbefore c' hc' (by simp [hawaiting]) with
      ⟨c, hp, hstatus, hbuffer⟩ | ⟨hnew, -, hempty⟩
    · rw [hbuffer]
      exact h.awaiting c hp (hstatus ▸ hawaiting)
    · rw [(h.unused hnew).1, hempty]
      exact ⟨(h.unused hnew).2, rfl⟩
  · intro c' hc' hauthenticated
    rw [hpieces]
    rcases hbefore c' hc' (by simp [hauthenticated]) with
      ⟨c, hp, hstatus, hbuffer⟩ | ⟨-, hawaiting, -⟩
    · rw [hbuffer]
      exact h.authenticated c hp (hstatus ▸ hauthenticated)
    · simp [hawaiting] at hauthenticated
  · intro hnew
    rw [hpieces]
    exact h.unused (houtcome.nextNode.trans hnew)

theorem Attends.next_awaiting (h : Attends conversation p history t.pre handled)
    (hrun : ServerRun now history t.pre) (hstep : step t.input t.pre = .ok t.post)
    (hcut : (pieces p (history ++ [t])).flatten <+: conversation.bytes)
    (hp : t.pre.deref p = some c) (hreceives : Receives t.input c piece)
    (hawaiting : c.status = .awaitingAuth) :
    Attends conversation p (history ++ [t]) t.post handled := by
  have hwf := wellFormed_of_run hrun
  have hpieces := h.pieces_awaiting hp hawaiting hreceives
  obtain ⟨rfl, -⟩ := h.awaiting c hp hawaiting
  have hsaid : saidFor p (history ++ [t]) = saidFor p history := by
    apply silent_of_unread hrun hstep
    intro d stream hd hstreams
    obtain rfl : c = d := by simpa [hp] using hd
    simp [hstreams.authenticated] at hawaiting
  have hused : ¬t.post.nextNode ≤ p.node :=
    not_le.mpr ((hwf.node_lt_of_deref hp).trans_le (outcome_of_run hrun hstep).nextNode)
  have hnamed := h.named_next hrun hstep hcut
  obtain ⟨unread, hunread⟩ := hcut
  rw [hpieces] at hunread
  rcases Nat.lt_or_ge (c.rxBuffer ++ piece).length conversation.login.size with hsize | hsize
  · obtain ⟨⟨-, c', hderef, hstatus, hbuffer⟩, -⟩ :=
      greeting_waits hwf hp hawaiting hreceives hunread hstep hsize
    refine ⟨List.nil_prefix, hsaid.trans h.said, ?_, ?_, fun hnew => absurd hnew hused, hnamed⟩
    · intro d hd _
      obtain rfl : c' = d := by simpa [hderef] using hd
      exact ⟨rfl, hpieces.trans hbuffer.symm⟩
    · intro d hd hauthenticated
      obtain rfl : c' = d := by simpa [hderef] using hd
      simp [hstatus] at hauthenticated
  · let setting : Setting := ⟨t.input.verifyClient, t.input.random, p⟩
    have hsetting : t.pre.deref setting.connection = some c := hp
    obtain ⟨hnext, -⟩ :=
      greeting_deliver hwf hsetting hawaiting hreceives rfl rfl hunread hstep hsize
    by_cases haccepted : conversation.login.Accepted setting
    · rw [Phase.next, if_pos haccepted] at hnext
      obtain ⟨c', -, hderef, hstatus, hbuffer, -⟩ := hnext
      refine ⟨List.nil_prefix, hsaid.trans h.said, ?_, ?_, fun hnew => absurd hnew hused,
        hnamed⟩
      · intro d hd hawaits
        obtain rfl : c' = d := by simpa [setting, hderef] using hd
        simp [hstatus] at hawaits
      · intro d hd _
        obtain rfl : c' = d := by simpa [setting, hderef] using hd
        rw [LoginPacket.size_of_valid haccepted.1] at hbuffer hsize
        obtain ⟨more, hmore⟩ := exists_complete hunread hsize
        rw [hpieces, hbuffer, hmore, List.drop_left]
        simp [packetBytes]
    · rw [Phase.next, if_neg haccepted] at hnext
      refine ⟨List.nil_prefix, hsaid.trans h.said, ?_, ?_, fun hnew => absurd hnew hused,
        hnamed⟩
      · intro d hd hawaits
        exact absurd ⟨d, hd, by simp [hawaits]⟩ hnext
      · intro d hd hauthenticated
        exact absurd ⟨d, hd, by simp [hauthenticated]⟩ hnext

theorem Attends.said_next (h : Attends conversation p history t.pre handled)
    (hrun : ServerRun now history t.pre) (hstep : step t.input t.pre = .ok t.post)
    {packet : ClientPacket} {rest : Bytes} (hp : t.pre.deref p = some c)
    (hstreams : Streams t.input c
      ⟨packet.result, if packet.result = .printMessage then packet.payload else [], rest⟩) :
    saidFor p (history ++ [t]) =
      spoken conversation.login.username (handled ++ [packet]) := by
  have hwf := wellFormed_of_run hrun
  by_cases hmessage : packet.type = .message
  · have hresult : packet.result = .printMessage := by
      simp [ClientPacket.result, ClientPacket.Quits, hmessage]
    cases hsession : ClientManager.findSesssionFromConnection p t.pre with
    | none =>
        have hfault := step_streams hwf hp hstreams (possible_of_step hstep)
        rw [hstep, hsession, hresult] at hfault
        cases hfault
    | some session =>
        obtain ⟨hheld, u, hu⟩ := findSession_some hsession
        have hname : session.username = conversation.login.username :=
          (hwf.sessions hu).username_eq.trans (h.named u session hu hheld)
        have hrelayed := step_relayed hwf hp hstreams hresult hsession (possible_of_step hstep)
        obtain ⟨audience, -, -, hactions⟩ := relayed_actions (i := t.input) hp rest
          (ServerApp.clientBroadcast session.username packet.payload)
        rw [hstep, Except.ok.injEq, if_pos hresult] at hrelayed
        rw [saidFor_append, h.said, hrelayed, hactions, hname]
        simp [broadcasts, spoken, hmessage]
  · have hresult : packet.result ≠ .printMessage := by
      unfold ClientPacket.result
      split_ifs <;> simp
    have hsilent : saidFor p (history ++ [t]) = saidFor p history := by
      apply silent_of_unread hrun hstep
      intro d stream hd hother
      obtain rfl : c = d := by simpa [hp] using hd
      rw [hother.unique hstreams]
      exact hresult
    rw [hsilent, h.said]
    simp [spoken, hmessage]

theorem Attends.next_authenticated (h : Attends conversation p history t.pre handled)
    (hrun : ServerRun now history t.pre) (hstep : step t.input t.pre = .ok t.post)
    (hcut : (pieces p (history ++ [t])).flatten <+: conversation.bytes)
    (hp : t.pre.deref p = some c) (hreceives : Receives t.input c piece)
    (hauthenticated : c.status = .authenticated) :
    ∃ handled, Attends conversation p (history ++ [t]) t.post handled := by
  have hwf := wellFormed_of_run hrun
  have houtcome := outcome_of_run hrun hstep
  have hpieces : (pieces p (history ++ [t])).flatten =
      conversation.login.bytes ++ packetBytes handled ++ (c.rxBuffer ++ piece) := by
    simp [pieces_concat, delivery_eq_some.mpr ⟨c, hp, hreceives⟩,
      h.authenticated c hp hauthenticated]
  have hused : ¬t.post.nextNode ≤ p.node :=
    not_le.mpr ((hwf.node_lt_of_deref hp).trans_le houtcome.nextNode)
  have hnamed := h.named_next hrun hstep hcut
  have hnever : ∀ c', t.post.deref p = some c' → c'.status ≠ .awaitingAuth := by
    intro c' hc' hawaiting
    have hrank := (fate_of_outcome hwf houtcome hp).rank_le c' hc'
    rw [hauthenticated, hawaiting] at hrank
    exact absurd hrank (by decide)
  obtain ⟨rest, hrest⟩ := h.handled_prefix
  obtain ⟨unread, hunread⟩ := hcut
  have hleft : c.rxBuffer ++ piece ++ unread = packetBytes rest := by
    rw [hpieces, Conversation.bytes, ← hrest, packetBytes, packetBytes, List.flatMap_append,
      List.append_assoc, List.append_assoc, List.append_cancel_left_eq,
      List.append_cancel_left_eq] at hunread
    exact hunread
  cases rest with
  | nil =>
      simp only [packetBytes, List.flatMap_nil, List.append_eq_nil_iff] at hleft
      exact absurd hleft.1.2 hreceives.nonempty
  | cons packet rest =>
      have hnext : c.rxBuffer ++ piece ++ unread = packet.bytes ++ packetBytes rest := hleft
      rcases Nat.lt_or_ge (c.rxBuffer ++ piece).length packet.bytes.length with hsize | hsize
      · obtain ⟨result, hresult, hparse⟩ := ClientPacket.parse_incomplete hnext hsize
        have hstreams : Streams t.input c _ := ⟨piece, hreceives, hauthenticated, hparse⟩
        have hsaid : saidFor p (history ++ [t]) = saidFor p history := by
          apply silent_of_unread hrun hstep
          intro d stream hd hother
          obtain rfl : c = d := by simpa [hp] using hd
          rw [hother.unique hstreams]
          rcases hresult with hresult | hresult <;> simp [hresult]
        refine ⟨handled, h.handled_prefix, hsaid.trans h.said, ?_, ?_,
          fun hnew => absurd hnew hused, hnamed⟩
        · intro c' hc' hawaiting
          exact absurd hawaiting (hnever c' hc')
        · intro c' hc' _
          rw [hpieces, buffer_of_streams hwf hp hstreams hstep c' hc']
      · have hparse := ClientPacket.parse_complete hnext hsize
        have hstreams : Streams t.input c _ := ⟨piece, hreceives, hauthenticated, hparse⟩
        refine ⟨handled ++ [packet], ⟨rest, by rw [← hrest, List.append_assoc]; rfl⟩,
          h.said_next hrun hstep hp hstreams, ?_, ?_, fun hnew => absurd hnew hused, hnamed⟩
        · intro c' hc' hawaiting
          exact absurd hawaiting (hnever c' hc')
        · intro c' hc' _
          obtain ⟨more, hmore⟩ := exists_complete hnext hsize
          rw [hpieces, buffer_of_streams hwf hp hstreams hstep c' hc', hmore, List.drop_left]
          simp [packetBytes]

/-- In a run in which the beginning of a conversation arrives on a connection, among any other
events, what is said for the connection are the first of its messages. -/
theorem attends_of_run (hrun : ServerRun now history s) (conversation : Conversation)
    (hcut : (pieces p history).flatten <+: conversation.bytes) :
    ∃ handled, Attends conversation p history s handled := by
  revert hcut
  refine hrun.invariant_of (fun _ => True)
    (fun history s => (pieces p history).flatten <+: conversation.bytes →
      ∃ handled, Attends conversation p history s handled) ?_ ?_ fun _ _ => trivial
  · intro _
    exact ⟨[], .start conversation p now⟩
  · intro history s s' i hrun hbefore hstep _ hcut
    obtain ⟨handled, hattends⟩ :=
      hbefore ((pieces_mono p (List.prefix_append history _)).trans hcut)
    cases hpiece : delivery p ⟨s, i, s'⟩ with
    | none => exact ⟨handled, hattends.next_unread (t := ⟨s, i, s'⟩) hrun hstep hcut hpiece⟩
    | some piece =>
        obtain ⟨c, hp, hreceives⟩ := delivery_eq_some.mp hpiece
        cases hstatus : c.status with
        | awaitingAuth =>
            exact ⟨handled,
              hattends.next_awaiting (t := ⟨s, i, s'⟩) hrun hstep hcut hp hreceives hstatus⟩
        | authenticated =>
            exact hattends.next_authenticated (t := ⟨s, i, s'⟩) hrun hstep hcut hp hreceives
              hstatus
        | closing => exact absurd hstatus hreceives.listening

end

/-! ## Who hears it -/

section

variable {now : Time} {history : List (Transition ServerApp Input)} {s : ServerApp}
  {p q : ConnectionPtr} {t : Transition ServerApp Input}

/-- The broadcasts for `p` that reach `q` have no gaps. -/
structure Hearing (p q : ConnectionPtr) (history : List (Transition ServerApp Input))
    (s : ServerApp) : Prop where
  contiguous : (announcedBy p history).filter (·.reaches q) <:+: announcedBy p history
  authenticated : ∀ c, s.deref q = some c → c.status = .authenticated →
    (announcedBy p history).filter (·.reaches q) <:+ announcedBy p history
  awaiting : ∀ c, s.deref q = some c → c.status = .awaitingAuth →
    (announcedBy p history).filter (·.reaches q) = []
  unused : s.nextNode ≤ q.node → (announcedBy p history).filter (·.reaches q) = []

theorem Hearing.start (p q : ConnectionPtr) (now : Time) :
    Hearing p q [] (initialState now) where
  contiguous := List.infix_rfl
  authenticated := by simp [initialState, ServerApp.deref]
  awaiting := by simp [initialState, ServerApp.deref]
  unused := fun _ => rfl

theorem Hearing.next (h : Hearing p q history t.pre) (hne : p ≠ q)
    (hrun : ServerRun now history t.pre) (hstep : step t.input t.pre = .ok t.post) :
    Hearing p q (history ++ [t]) t.post := by
  have hwf := wellFormed_of_run hrun
  have houtcome := outcome_of_run hrun hstep
  have hstate : ∀ a ∈ (broadcasts t.pre t.post.actions).filter (·.sender = some p),
      a.reaches q = (t.pre.deref q).any (·.status = .authenticated) := by
    intro a ha
    obtain ⟨ha, hsender⟩ := List.mem_filter.mp ha
    obtain ⟨hstate, -⟩ := announces_of_performs (houtcome.performs hwf) ha
    simp only [decide_eq_true_eq] at hsender
    simp [Announcement.reaches, hsender, hstate, hne]
  -- a connection that is there was there before, or is new
  have hbefore : ∀ c', t.post.deref q = some c' →
      (t.pre.nextNode ≤ q.node ∧ c'.status = .awaitingAuth) ∨
        ∃ c, t.pre.deref q = some c ∧ c.status.rank ≤ c'.status.rank := by
    intro c' hc'
    rcases traced_of_outcome hwf houtcome hc' with ⟨fd, -, rfl, rfl, -⟩ | ⟨c, hq, -⟩
    · exact .inl ⟨le_rfl, rfl⟩
    · exact .inr ⟨c, hq, (fate_of_outcome hwf houtcome hq).rank_le c' hc'⟩
  by_cases hhears : (t.pre.deref q).any (·.status = .authenticated) = true
  · obtain ⟨c, hq, hauthenticated⟩ := (Option.any_eq_true _ _).mp hhears
    simp only [decide_eq_true_eq] at hauthenticated
    have hall : ((broadcasts t.pre t.post.actions).filter (·.sender = some p)).filter
        (·.reaches q) = (broadcasts t.pre t.post.actions).filter (·.sender = some p) :=
      List.filter_eq_self.mpr fun a ha => (hstate a ha).trans hhears
    have hsuffix : (announcedBy p (history ++ [t])).filter (·.reaches q) <:+
        announcedBy p (history ++ [t]) := by
      obtain ⟨missed, hmissed⟩ := h.authenticated c hq hauthenticated
      rw [announcedBy_append, List.filter_append, hall]
      exact ⟨missed, by rw [← List.append_assoc, hmissed]⟩
    refine ⟨hsuffix.isInfix, fun _ _ _ => hsuffix, ?_, ?_⟩
    · intro c' hc' hawaiting
      have hrank := (fate_of_outcome hwf houtcome hq).rank_le c' hc'
      rw [hauthenticated, hawaiting] at hrank
      exact absurd hrank (by decide)
    · intro hnew
      have hlt := (hwf.node_lt_of_deref hq).trans_le houtcome.nextNode
      omega
  · have hnone : ((broadcasts t.pre t.post.actions).filter (·.sender = some p)).filter
        (·.reaches q) = [] :=
      List.filter_eq_nil_iff.mpr fun a ha => by rwa [hstate a ha]
    have hsame : (announcedBy p (history ++ [t])).filter (·.reaches q) =
        (announcedBy p history).filter (·.reaches q) := by
      rw [announcedBy_append, List.filter_append, hnone, List.append_nil]
    have hempty : ∀ c', t.post.deref q = some c' → c'.status ≠ .closing →
        (announcedBy p history).filter (·.reaches q) = [] := by
      intro c' hc' hlistening
      rcases hbefore c' hc' with ⟨hnew, -⟩ | ⟨c, hq, hrank⟩
      · exact h.unused hnew
      · cases hstatus : c.status with
        | awaitingAuth => exact h.awaiting c hq hstatus
        | authenticated => simp [hq, hstatus] at hhears
        | closing =>
            rw [hstatus] at hrank
            cases hstatus' : c'.status with
            | closing => exact absurd hstatus' hlistening
            | awaitingAuth | authenticated =>
                rw [hstatus'] at hrank
                exact absurd hrank (by decide)
    refine ⟨?_, ?_, ?_, ?_⟩
    · rw [hsame, announcedBy_append]
      exact h.contiguous.trans (List.prefix_append _ _).isInfix
    · intro c' hc' hauthenticated
      rw [hsame, hempty c' hc' (by simp [hauthenticated])]
      exact List.nil_suffix
    · intro c' hc' hawaiting
      rw [hsame]
      exact hempty c' hc' (by simp [hawaiting])
    · intro hnew
      rw [hsame]
      exact h.unused (houtcome.nextNode.trans hnew)

/-- What one connection hears of another has no gaps. -/
theorem heard_contiguous (hrun : ServerRun now history s) (p q : ConnectionPtr) :
    (announcedBy p history).filter (·.reaches q) <:+: announcedBy p history := by
  by_cases hne : p = q
  · have hnone : (announcedBy p history).filter (·.reaches q) = [] := by
      apply List.filter_eq_nil_iff.mpr
      intro a ha
      have hsender := (List.mem_filter.mp ha).2
      simp only [decide_eq_true_eq] at hsender
      simp [Announcement.reaches, hsender, hne]
    rw [hnone]
    exact List.nil_infix
  · have hhearing : Hearing p q history s := by
      refine hrun.invariant_of (fun _ => True) (fun history s => Hearing p q history s) ?_ ?_
        fun _ _ => trivial
      · exact .start p q now
      · intro history s s' i hrun hhearing hstep _
        exact hhearing.next (t := ⟨s, i, s'⟩) hne hrun hstep
    exact hhearing.contiguous

end

end TChat.Server
