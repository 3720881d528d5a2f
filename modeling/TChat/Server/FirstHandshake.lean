import TChat.Server.Database
import TChat.Server.Outbox
import TChat.Server.Segmentation
/-!
# The first packet on a connection

One handshake packet arrives on a connection, cut in any way and with any other events
in between.  Until it is there in full the server says nothing on the connection, and
the event that completes it is the only one that handles a handshake there.
-/

namespace TChat.Server

open TChat.Common TChat.Lib

/-- A packet from which `process_handshake_packet` takes the request. -/
structure IsHandshake (request : HandshakeRequest) (packet : Bytes) : Prop where
  incomplete : ∀ {rxBuffer unread}, rxBuffer ++ unread = packet →
    rxBuffer.length < packet.length →
    processHandshakePacket rxBuffer = (⟨.incompletePacket, .none⟩, rxBuffer)
  complete : processHandshakePacket packet = (⟨.validAuthPacket, request⟩, [])

/-- The part of the packet that has arrived lies in the buffer, and nothing has been said. -/
structure Waiting (p : ConnectionPtr) (history : List (Transition ServerApp Input))
    (s : ServerApp) : Prop where
  buffered : ∀ c, s.deref p = some c →
    c.status = .awaitingAuth ∧ c.rxBuffer = (pieces p history).flatten
  unused : s.nextNode ≤ p.node → pieces p history = []
  silent : queuedDuring p history = []

/-- The packet has been completed in the step `t`, and nothing had been said before. -/
structure Handled (p : ConnectionPtr) (request : HandshakeRequest) (packet : Bytes)
    (before : List (Transition ServerApp Input)) (t : Transition ServerApp Input) : Prop where
  handshake : handshake? t.input t.pre = some (p, request)
  whole : (pieces p (before ++ [t])).flatten = packet
  silent : queuedDuring p before = []

def loginReply (i : Input) (request : HandshakeRequest) : Bytes :=
  match i.verifyClient request.username request.password with
  | .authorized => createPacketStream .ack (literal "OK|" ++ generateToken i.random)
  | status => refusal status

/-- The answers to a registration: one, or none and the connection is taken down. -/
def registerReplies (i : Input) (request : HandshakeRequest) : List Bytes :=
  if i.registerClient request.username request.password = .clientRegistered then
    [createPacketStream .ack (literal "OK")]
  else []

section

variable {type : PacketType} {payload packet : Bytes} {request : HandshakeRequest}

theorem isHandshake_of_isPacket (h : IsPacket type payload packet)
    (hfits : packet.length ≤ maxHandshakePayload) (hbar : bar ∈ payload)
    (hrequest : handshakeRequest (some type) (payload.takeWhile (· ≠ bar))
      ((payload.dropWhile (· ≠ bar)).drop 1) = ⟨.validAuthPacket, request⟩) :
    IsHandshake request packet := by
  constructor
  · intro rxBuffer unread hcut hsize
    exact IsPacket.handshake_incomplete h hfits (List.ne_nil_of_mem hbar)
      (hcut.trans (List.append_nil _).symm) hsize
  · have hparse := IsPacket.handshake_complete h hfits hbar []
    rwa [List.append_nil, hrequest] at hparse

end

/-! ## One event -/

section

variable {i : Input} {s s' : ServerApp} {p : ConnectionPtr} {c : ClientConnection}
  {after : Option ClientConnection} {queued : List Bytes} {calls : List SslWriteCall}

theorem Fate.unheard (h : Fate i s p c after queued calls) (hawaiting : c.status = .awaitingAuth)
    (hnothing : ∀ bytes, ¬Receives i c bytes) :
    queued = [] ∧ ∀ c' ∈ after, c'.status = .awaitingAuth ∧ c'.rxBuffer = c.rxBuffer := by
  have hno {request : HandshakeRequest} {rest : Bytes} : ¬Handshakes i c request rest := by
    rintro ⟨bytes, hreceives, -⟩
    exact hnothing bytes hreceives
  have hsame {c' : ClientConnection} (hstatus : c'.status = c.status)
      (hbuffer : c'.rxBuffer = c.rxBuffer) :
      ∀ d ∈ some c', d.status = .awaitingAuth ∧ d.rxBuffer = c.rxBuffer := by
    rintro d ⟨⟩
    exact ⟨hstatus.trans hawaiting, hbuffer⟩
  cases h with
  | kept => exact ⟨rfl, hsame rfl rfl⟩
  | edited hedit =>
      cases hedit with
      | flushed => exact ⟨queuedOn_sslWrites _, hsame rfl rfl⟩
      | nothingRead | wantWrite => exact ⟨rfl, hsame rfl rfl⟩
      | handshakeIncomplete hreceives => exact absurd hreceives (hnothing _)
      | loginRefused hshake | registered hshake | reconnectIgnored hshake => exact absurd hshake hno
      | streamIdle hstream | streamInvalid hstream | pingUnanswered hstream | pong hstream =>
          simp [hstream.authenticated] at hawaiting
  | loggedIn hshake | reattached hshake => exact absurd hshake hno
  | relayed hstream => simp [hstream.authenticated] at hawaiting
  | hears hstatus | timedOut _ hstatus => simp [hstatus] at hawaiting
  | dropped hdrop =>
      refine ⟨?_, nofun⟩
      cases hdrop with
      | flushed => exact queuedOn_sslWrites _
      | _ => rfl
  | removed => exact ⟨rfl, nofun⟩

theorem step_handshakeIncomplete {bytes : Bytes} (hwf : WellFormed s) (hp : s.deref p = some c)
    (hawaiting : c.status = .awaitingAuth) (h : Receives i c bytes)
    (hparse : processHandshakePacket (c.rxBuffer ++ bytes) =
      (⟨.incompletePacket, .none⟩, c.rxBuffer ++ bytes)) (hstep : step i s = .ok s') :
    s'.deref p = some (c.withBuffer (c.rxBuffer ++ bytes)) ∧ queuedOn p s'.actions = [] := by
  rw [step_handshakeParsed hwf hp h hawaiting hparse (possible_of_step hstep),
    ServerApp.handleHandshakeStreamStatus, Except.ok.injEq] at hstep
  subst hstep
  exact ⟨ServerApp.deref_store_self (s := s.beginEvent i.now) hp rfl, rfl⟩

theorem queuedOn_login {request : HandshakeRequest} (hwf : WellFormed s)
    (h : handshake? i s = some (p, request)) (hkind : request.kind = .login)
    (hstep : step i s = .ok s') : queuedOn p s'.actions = [loginReply i request] := by
  obtain ⟨c, rest, hp, hshake⟩ := (handshake?_eq_some hwf).mp h
  have hpossible := possible_of_step hstep
  by_cases hverify : i.verifyClient request.username request.password = .authorized
  · rw [step_loggedIn hwf hp hshake hpossible hkind hverify, Except.ok.injEq] at hstep
    rw [← hstep, ServerApp.actions_replied, loginReply, hverify]
    simp [ClientManager.addSession]
  · rw [step_loginRefused hwf hp hshake hpossible hkind rfl hverify, Except.ok.injEq] at hstep
    rw [← hstep, ServerApp.actions_replied, loginReply]
    split
    · contradiction
    · simp

theorem queuedOn_register {request : HandshakeRequest} (hwf : WellFormed s)
    (h : handshake? i s = some (p, request)) (hkind : request.kind = .register)
    (hstep : step i s = .ok s') : queuedOn p s'.actions = registerReplies i request := by
  obtain ⟨c, rest, hp, hshake⟩ := (handshake?_eq_some hwf).mp h
  have hpossible := possible_of_step hstep
  unfold registerReplies
  split_ifs with hregister
  · rw [step_registered hwf hp hshake hpossible hkind hregister, Except.ok.injEq] at hstep
    rw [← hstep, ServerApp.actions_replied]
    simp
  · rw [step_registerFailed hwf hp hshake hpossible hkind hregister, Except.ok.injEq] at hstep
    rw [← hstep, actions_release]
    exact (still_of_forall (departure_still c.ssl)).1

end

/-! ## The run -/

section

variable {now : Time} {history : List (Transition ServerApp Input)} {s : ServerApp}
  {p : ConnectionPtr} {request : HandshakeRequest} {packet : Bytes}
  {t : Transition ServerApp Input}

theorem pieces_concat (p : ConnectionPtr) (history : List (Transition ServerApp Input))
    (t : Transition ServerApp Input) :
    pieces p (history ++ [t]) = pieces p history ++ (delivery p t).toList := by
  rw [pieces, pieces, List.filterMap_append]
  cases h : delivery p t <;> simp [h]

theorem pieces_mono (p : ConnectionPtr) {before history : List (Transition ServerApp Input)}
    (h : before <+: history) : (pieces p before).flatten <+: (pieces p history).flatten := by
  obtain ⟨after, rfl⟩ := h
  rw [pieces, pieces, List.filterMap_append, List.flatten_append]
  exact List.prefix_append _ _

theorem delivery_of_handshake (hwf : WellFormed t.pre)
    (h : handshake? t.input t.pre = some (p, request)) :
    ∃ piece, delivery p t = some piece ∧ piece ≠ [] := by
  obtain ⟨c, rest, hp, piece, hreceives, -⟩ := (handshake?_eq_some hwf).mp h
  exact ⟨piece, delivery_eq_some.mpr ⟨c, hp, hreceives⟩, hreceives.nonempty⟩

theorem Waiting.start (now : Time) (p : ConnectionPtr) : Waiting p [] (initialState now) := by
  refine ⟨?_, fun _ => rfl, rfl⟩
  simp [initialState, ServerApp.deref]

theorem Waiting.next (h : Waiting p history t.pre) (hpacket : IsHandshake request packet)
    (hrun : ServerRun now history t.pre) (hstep : step t.input t.pre = .ok t.post)
    (hcut : (pieces p (history ++ [t])).flatten <+: packet) :
    Waiting p (history ++ [t]) t.post ∨ Handled p request packet history t := by
  have hwf := wellFormed_of_run hrun
  have houtcome := outcome_of_run hrun hstep
  cases hp : t.pre.deref p with
  | none =>
      left
      have hnothing : delivery p t = none := by simp [delivery, hp]
      have hpieces : pieces p (history ++ [t]) = pieces p history := by
        simp [pieces_concat, hnothing]
      refine ⟨?_, ?_, ?_⟩
      · intro c hc
        rcases traced_of_outcome hwf houtcome hc with ⟨fd, _, rfl, rfl, _⟩ | ⟨d, hd, _⟩
        · rw [hpieces, h.unused le_rfl]
          exact ⟨rfl, rfl⟩
        · simp [hp] at hd
      · intro hnext
        rw [hpieces]
        exact h.unused (houtcome.nextNode.trans hnext)
      · rw [queuedDuring_append, h.silent, (silent_of_outcome houtcome hp).1, List.append_nil]
  | some c =>
      obtain ⟨hawaiting, hbuffer⟩ := h.buffered c hp
      have hnode : ¬t.post.nextNode ≤ p.node :=
        not_le.mpr ((hwf.node_lt_of_deref hp).trans_le houtcome.nextNode)
      cases hpiece : delivery p t with
      | none =>
          left
          have hpieces : pieces p (history ++ [t]) = pieces p history := by
            simp [pieces_concat, hpiece]
          have hnothing : ∀ bytes, ¬Receives t.input c bytes := by
            intro bytes hreceives
            rw [delivery_eq_some.mpr ⟨c, hp, hreceives⟩] at hpiece
            simp at hpiece
          obtain ⟨hqueued, hafter⟩ :=
            (fate_of_outcome hwf houtcome hp).unheard hawaiting hnothing
          refine ⟨?_, fun hnext => absurd hnext hnode, ?_⟩
          · intro c' hc'
            obtain ⟨hawaiting', hbuffer'⟩ := hafter c' hc'
            exact ⟨hawaiting', by rw [hbuffer', hbuffer, hpieces]⟩
          · rw [queuedDuring_append, h.silent, hqueued, List.append_nil]
      | some piece =>
          obtain ⟨d, hd, hreceives⟩ := delivery_eq_some.mp hpiece
          obtain rfl : c = d := by simpa [hp] using hd
          have hpieces : (pieces p (history ++ [t])).flatten = c.rxBuffer ++ piece := by
            simp [pieces_concat, hpiece, hbuffer]
          rw [hpieces] at hcut
          obtain ⟨unread, hunread⟩ := hcut
          rcases Nat.lt_or_ge (c.rxBuffer ++ piece).length packet.length with hsize | hsize
          · left
            obtain ⟨hderef, hqueued⟩ := step_handshakeIncomplete hwf hp hawaiting hreceives
              (hpacket.incomplete hunread hsize) hstep
            refine ⟨?_, fun hnext => absurd hnext hnode, ?_⟩
            · intro c' hc'
              rw [hderef, Option.some.injEq] at hc'
              rw [← hc', hpieces]
              exact ⟨hawaiting, rfl⟩
            · rw [queuedDuring_append, h.silent, hqueued, List.append_nil]
          · right
            have hwhole : c.rxBuffer ++ piece = packet :=
              List.IsPrefix.eq_of_length_le ⟨unread, hunread⟩ hsize
            have hshake : Handshakes t.input c request [] :=
              ⟨piece, hreceives, hawaiting, hwhole ▸ hpacket.complete⟩
            exact ⟨(handshake?_eq_some hwf).mpr ⟨c, [], hp, hshake⟩, hpieces.trans hwhole,
              h.silent⟩

/-- A run in which the beginning of the packet arrives, and nothing else. -/
theorem waiting_or_handled (hrun : ServerRun now history s) (hpacket : IsHandshake request packet)
    (hcut : (pieces p history).flatten <+: packet) :
    Waiting p history s ∨ ∃ before t after, history = before ++ t :: after ∧
      Handled p request packet before t := by
  revert hcut
  refine hrun.invariant_of (fun _ => True)
    (fun history s => (pieces p history).flatten <+: packet → Waiting p history s ∨
      ∃ before t after, history = before ++ t :: after ∧ Handled p request packet before t)
    ?_ ?_ fun _ _ => trivial
  · exact fun _ => .inl (.start now p)
  · rintro history s s' i hrun hbefore hstep - hcut
    have hcutBefore := (pieces_mono p (List.prefix_append history _)).trans hcut
    rcases hbefore hcutBefore with hwaiting | ⟨before, t, after, rfl, hhandled⟩
    · refine (hwaiting.next (t := ⟨s, i, s'⟩) hpacket hrun hstep hcut).imp_right fun hhandled => ?_
      exact ⟨history, _, [], rfl, hhandled⟩
    · exact .inr ⟨before, t, after ++ [⟨s, i, s'⟩], by simp, hhandled⟩

theorem Waiting.handles {other : HandshakeRequest} (h : Waiting p history t.pre)
    (hpacket : IsHandshake request packet) (hwf : WellFormed t.pre)
    (hcut : (pieces p (history ++ [t])).flatten <+: packet)
    (hother : handshake? t.input t.pre = some (p, other)) :
    Handled p request packet history t ∧ other = request := by
  obtain ⟨c, rest, hp, piece, hreceives, -, hparse⟩ := (handshake?_eq_some hwf).mp hother
  have hpiece := delivery_eq_some.mpr ⟨c, hp, hreceives⟩
  have hpieces : (pieces p (history ++ [t])).flatten = c.rxBuffer ++ piece := by
    simp [pieces_concat, hpiece, (h.buffered c hp).2]
  rw [hpieces] at hcut
  obtain ⟨unread, hunread⟩ := hcut
  rcases Nat.lt_or_ge (c.rxBuffer ++ piece).length packet.length with hsize | hsize
  · rw [hpacket.incomplete hunread hsize] at hparse
    simp at hparse
  · have hwhole : c.rxBuffer ++ piece = packet :=
      List.IsPrefix.eq_of_length_le ⟨unread, hunread⟩ hsize
    rw [hwhole, hpacket.complete] at hparse
    simp only [Prod.mk.injEq, HandshakeResult.mk.injEq, true_and] at hparse
    obtain ⟨rfl, -⟩ := hparse
    exact ⟨⟨hother, hpieces.trans hwhole, h.silent⟩, rfl⟩

theorem handled_of_handshake {before after : List (Transition ServerApp Input)}
    {other : HandshakeRequest} (hrun : ServerRun now (before ++ t :: after) s)
    (hpacket : IsHandshake request packet)
    (hcut : (pieces p (before ++ t :: after)).flatten <+: packet)
    (h : handshake? t.input t.pre = some (p, other)) :
    Handled p request packet before t ∧ other = request := by
  obtain ⟨hbefore, -, -⟩ := hrun.split
  have hwf := wellFormed_of_run hbefore
  have hfirst : (pieces p (before ++ [t])).flatten <+: packet :=
    (pieces_mono p ⟨after, by simp⟩).trans hcut
  have hcutBefore := (pieces_mono p (List.prefix_append before [t])).trans hfirst
  rcases waiting_or_handled hbefore hpacket hcutBefore with
    hwaiting | ⟨earlier, u, between, rfl, hhandled⟩
  · exact hwaiting.handles hpacket hwf hfirst h
  · -- the packet was whole before, and this step would add to it
    obtain ⟨piece, hpiece, hnonempty⟩ := delivery_of_handshake hwf h
    have hall : (pieces p (earlier ++ [u])).flatten <+:
        (pieces p (earlier ++ u :: between)).flatten := pieces_mono p ⟨between, by simp⟩
    rw [hhandled.whole] at hall
    have hlength := hall.length_le
    have htotal := hfirst.length_le
    rw [pieces_concat, hpiece, List.flatten_append, List.length_append] at htotal
    have hpositive := List.length_pos_iff.mpr hnonempty
    simp only [Option.toList_some, List.flatten_singleton] at htotal
    omega

theorem queuedDuring_gone {later : List (Transition ServerApp Input)} {s' : ServerApp}
    (hrun : ServerRun now history s) (hlater : Run step s later s') (hgone : s.deref p = none)
    (hused : p.node < s.nextNode) : queuedDuring p later = [] := by
  have hinvariant : p.node < s'.nextNode ∧ s'.deref p = none ∧ queuedDuring p later = [] := by
    refine hlater.invariant_of (fun _ => True)
      (fun later s' => p.node < s'.nextNode ∧ s'.deref p = none ∧ queuedDuring p later = [])
      ⟨hused, hgone, rfl⟩ ?_ fun _ _ => trivial
    rintro later t t' i hlater ⟨hused, hgone, hsilent⟩ hstep -
    have hfull := hrun.append hlater
    have houtcome := outcome_of_run hfull hstep
    refine ⟨hused.trans_le houtcome.nextNode, ?_, ?_⟩
    · cases hc : t'.deref p with
      | none => rfl
      | some c =>
          obtain ⟨d, hd⟩ := deref_of_used (wellFormed_of_run hfull) houtcome hc hused
          simp [hgone] at hd
    · rw [queuedDuring_append, hsilent, (silent_of_outcome houtcome hgone).1, List.append_nil]
  exact hinvariant.2.2

end

end TChat.Server
