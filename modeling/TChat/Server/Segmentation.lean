import TChat.Server.Conversation
import TChat.Server.Broadcasts
/-!
# How the bytes are cut does matter

`handle_read_result` lets the parser handle one packet per read.  What the server
does for a connection therefore does not depend on how the bytes of a conversation
are cut into reads as long as no read completes two packets, and only then: a
second packet stays in the buffer until more bytes arrive.
-/

namespace TChat.Server

open TChat.Common TChat.Lib

instance (i : Input) (c : ClientConnection) (bytes : Bytes) : Decidable (Receives i c bytes) :=
  decidable_of_iff
    (c.Reads i.event ∧ c.status ≠ .closing ∧
      readOutcome i.sslRead = some (.received bytes) ∧ bytes ≠ [] ∧
      bytes.length ≤ readBufferSize)
    ⟨fun h => ⟨h.1, h.2.1, h.2.2.1, h.2.2.2.1, h.2.2.2.2⟩,
      fun h => ⟨h.reads, h.listening, h.outcome, h.nonempty, h.bounded⟩⟩

/-- The piece of bytes that `handle_read` delivers for the connection `p` in a step. -/
def delivery (p : ConnectionPtr) (t : Transition ServerApp Input) : Option Bytes :=
  match t.pre.deref p, readOutcome t.input.sslRead with
  | some c, some (.received bytes) => if Receives t.input c bytes then some bytes else none
  | _, _ => none

def pieces (p : ConnectionPtr) (history : List (Transition ServerApp Input)) : List Bytes :=
  history.filterMap (delivery p)

/-- The action is an answer to what arrives on `p`.  Messages of others that are
queued on `p` are not. -/
def Action.answers (p : ConnectionPtr) : Action → Bool
  | .queueWrite q packet => q = p ∧ packetType? packet ≠ some .message
  | .broadcast sender _ => sender = some p
  | .disconnect q => q = p
  | _ => false

def performed (p : ConnectionPtr) (history : List (Transition ServerApp Input)) :
    List Action :=
  history.flatMap fun t => t.post.actions.filter (·.answers p)

/-- Nothing is left lying: no complete packet waits in the buffer of an authenticated
connection. -/
def Drained (p : ConnectionPtr) (s : ServerApp) : Prop :=
  ∀ c, s.deref p = some c → c.status = .authenticated → ¬StartsWithPacket c.rxBuffer

def ServerApp.Listens (s : ServerApp) (p : ConnectionPtr) : Prop :=
  ∃ c, s.deref p = some c ∧ c.status ≠ .closing

/-- A step that leaves the status of `p`, its buffer and its user alone. -/
structure Undisturbed (p : ConnectionPtr) (t : Transition ServerApp Input) : Prop where
  connection : (t.post.deref p).map (fun c => (c.status, c.rxBuffer)) =
    (t.pre.deref p).map fun c => (c.status, c.rxBuffer)
  user : (ClientManager.findSesssionFromConnection p t.post).map (·.username) =
    (ClientManager.findSesssionFromConnection p t.pre).map (·.username)

/-- A run from `s` in which a conversation is delivered, cut in some way: in full
unless the connection stops listening, and with nothing else happening to it. -/
structure Conveys (setting : Setting) (conversation : Conversation) (s : ServerApp)
    (history : List (Transition ServerApp Input)) (s' : ServerApp) : Prop where
  run : Run step s history s'
  answers : ∀ t ∈ history, (delivery setting.connection t).isSome →
    t.input.verifyClient = setting.verifyClient ∧ t.input.random = setting.random
  undisturbed : ∀ t ∈ history, delivery setting.connection t = none →
    Undisturbed setting.connection t
  cut : (pieces setting.connection history).flatten <+: conversation.bytes
  whole : (pieces setting.connection history).flatten = conversation.bytes ∨
    ¬s'.Listens setting.connection

def Apart (conversation : Conversation) (pieces : List Bytes) : Prop :=
  ∃ cuts : List (List Bytes),
    cuts.map List.flatten =
      conversation.login.bytes :: conversation.packets.map (·.bytes) ∧
    pieces <+: cuts.flatten

/-- In the run everything is handled as soon as it is there, and the same is done for
the connection as in the run `reference`. -/
def HandledLike (p : ConnectionPtr) (history reference : List (Transition ServerApp Input)) :
    Prop :=
  (∀ t ∈ history, Drained p t.post) ∧ performed p history = performed p reference

/-- The state fits the phase: the connection has the status it should have, the
bytes in its buffer are `rxBuffer`, and its user is known. -/
def Phase.At (p : ConnectionPtr) (s : ServerApp) (rxBuffer : Bytes) : Phase → Prop
  | greeting login _ =>
      rxBuffer.length < login.size ∧
        ∃ c, s.deref p = some c ∧ c.status = .awaitingAuth ∧ c.rxBuffer = rxBuffer
  | chatting username _ =>
      ∃ c session, s.deref p = some c ∧ c.status = .authenticated ∧ c.rxBuffer = rxBuffer ∧
        ClientManager.findSesssionFromConnection p s = some session ∧
        session.username = username
  | ended _ => ¬s.Listens p

section

variable {i : Input} {s s' : ServerApp} {p : ConnectionPtr} {c : ClientConnection}
  {piece rxBuffer unread : Bytes}

/-! ## One step -/

theorem findSession_congr (h : s'.sessions = s.sessions) :
    ClientManager.findSesssionFromConnection p s' =
      ClientManager.findSesssionFromConnection p s := by
  rw [ClientManager.findSesssionFromConnection, h, ClientManager.findSesssionFromConnection]

theorem findSession_of_find? (hwf : WellFormed s) {u : Bytes} {session : ClientSession}
    (h : s.sessions.find? u = some session) (hconnection : session.connection = some p) :
    ClientManager.findSesssionFromConnection p s = some session := by
  cases hfound : ClientManager.findSesssionFromConnection p s with
  | none => exact absurd hconnection (findSession_none.mp hfound u session h)
  | some other =>
      obtain ⟨hother, v, hv⟩ := findSession_some hfound
      have huv := hwf.injective h hv hconnection hother
      subst huv
      rw [h] at hv
      exact hv.symm

theorem not_listens_release (h : s.deref p = some c) :
    ¬(ClientManager.release i.now p c.ssl (s.beginEvent i.now)).Listens p := by
  rintro ⟨d, hd, _⟩
  rw [deref_release (s := s.beginEvent i.now) i.now c.ssl h, if_pos rfl] at hd
  simp at hd

theorem answers_release (ssl : Option Nat) :
    (ClientManager.release i.now p ssl (s.beginEvent i.now)).actions.filter (·.answers p) =
      [.disconnect p] := by
  cases ssl <;> simp [ClientManager.release, Action.answers]

theorem greeting_deliver {setting : Setting} {login : LoginPacket}
    {packets : List ClientPacket} (hwf : WellFormed s) (hp : s.deref setting.connection = some c)
    (hawaiting : c.status = .awaitingAuth) (h : Receives i c piece)
    (hverify : i.verifyClient = setting.verifyClient) (hrandom : i.random = setting.random)
    (hcut : c.rxBuffer ++ piece ++ unread = login.bytes ++ packetBytes packets)
    (hstep : step i s = .ok s') (hsize : login.size ≤ (c.rxBuffer ++ piece).length) :
    ((Phase.greeting login packets).next setting).At setting.connection s'
        ((c.rxBuffer ++ piece).drop login.size) ∧
      s'.actions.filter (·.answers setting.connection) = login.response setting := by
  have hpossible := possible_of_step hstep
  have hwf' := hwf.step hstep
  by_cases hvalid : login.Valid
  · have hparse := LoginPacket.parse_valid hcut hsize hvalid
    have hshake : Handshakes i c _ _ := ⟨piece, h, hawaiting, hparse⟩
    by_cases haccepted : login.Accepted setting
    · obtain ⟨hderef, hstored⟩ :=
        lookups_of_login hwf hp hshake rfl (hverify ▸ haccepted.2) hpossible hstep
      have hwelcomed := step_loggedIn hwf hp hshake hpossible rfl (hverify ▸ haccepted.2)
      rw [hstep, Except.ok.injEq] at hwelcomed
      rw [Phase.next, if_pos haccepted, LoginPacket.response_of_accepted haccepted]
      refine ⟨⟨_, _, hderef, rfl, rfl, findSession_of_find? hwf' hstored rfl, rfl⟩, ?_⟩
      rw [hwelcomed, ServerApp.actions_replied, hrandom]
      simp [Action.answers, ClientManager.addSession]
    · have hrefused := step_loginRefused hwf hp hshake hpossible rfl rfl
        fun hanswer => haccepted ⟨hvalid, hverify ▸ hanswer⟩
      rw [hstep, Except.ok.injEq] at hrefused
      rw [Phase.next, if_neg haccepted, LoginPacket.response_of_refused hvalid haccepted]
      refine ⟨?_, ?_⟩
      · rintro ⟨d, hd, hlistening⟩
        have hclosing : s'.deref setting.connection = some { queueWrite
            (c.withBuffer ((c.rxBuffer ++ piece).drop login.size))
            (refusal (i.verifyClient login.username login.password)) with
            status := .closing } := by
          rw [hrefused]
          exact ServerApp.deref_replied (s := s.beginEvent i.now) hp (by rfl) _
        rw [hd, Option.some.injEq] at hclosing
        exact hlistening (hclosing ▸ rfl)
      · rw [hrefused, ServerApp.actions_replied, hverify]
        cases setting.verifyClient login.username login.password <;>
          simp [Action.answers, refusal]
  · obtain ⟨rest, hparse⟩ := LoginPacket.parse_invalid hcut hsize hvalid
    have hreleased := step_handshakeInvalid hwf hp h hawaiting hparse hpossible
    rw [hstep, Except.ok.injEq] at hreleased
    subst hreleased
    rw [Phase.next, if_neg fun haccepted => hvalid haccepted.1, LoginPacket.response,
      if_neg hvalid]
    exact ⟨not_listens_release hp, answers_release _⟩

theorem greeting_waits {login : LoginPacket} {packets : List ClientPacket}
    (hwf : WellFormed s) (hp : s.deref p = some c) (hawaiting : c.status = .awaitingAuth)
    (h : Receives i c piece)
    (hcut : c.rxBuffer ++ piece ++ unread = login.bytes ++ packetBytes packets)
    (hstep : step i s = .ok s') (hsize : (c.rxBuffer ++ piece).length < login.size) :
    (Phase.greeting login packets).At p s' (c.rxBuffer ++ piece) ∧
      s'.actions.filter (·.answers p) = [] := by
  have hparse := LoginPacket.parse_incomplete hcut hsize
  have hparsed := step_handshakeParsed hwf hp h hawaiting hparse (possible_of_step hstep)
  rw [hstep, ServerApp.handleHandshakeStreamStatus, Except.ok.injEq] at hparsed
  subst hparsed
  refine ⟨⟨hsize, c.withBuffer (c.rxBuffer ++ piece), ?_, hawaiting, rfl⟩, rfl⟩
  exact ServerApp.deref_store_self (s := s.beginEvent i.now) hp rfl

section Chatting

variable {setting : Setting} {session : ClientSession} {packet : ClientPacket}
  {packets : List ClientPacket} (hwf : WellFormed s)
  (hauthenticated : c.status = .authenticated) (h : Receives i c piece)
  (hcut : c.rxBuffer ++ piece ++ unread = packetBytes (packet :: packets))
  (hstep : step i s = .ok s')
include hwf hauthenticated h hcut hstep

theorem chatting_deliver (hp : s.deref setting.connection = some c)
    (hsession : ClientManager.findSesssionFromConnection setting.connection s = some session)
    (hsize : packet.bytes.length ≤ (c.rxBuffer ++ piece).length) :
    ((Phase.chatting session.username (packet :: packets)).next setting).At
        setting.connection s' ((c.rxBuffer ++ piece).drop packet.bytes.length) ∧
      s'.actions.filter (·.answers setting.connection) =
        packet.response setting session.username := by
  have hpossible := possible_of_step hstep
  have hparse := ClientPacket.parse_complete hcut hsize
  have hstreams : Streams i c _ := ⟨piece, h, hauthenticated, hparse⟩
  by_cases hquits : packet.Quits
  · have hresult : packet.result = .disconnectClient := if_pos hquits
    have hquit := step_quit hwf hp hstreams hresult hsession hpossible
    rw [hstep, Except.ok.injEq] at hquit
    subst hquit
    rw [Phase.next, if_pos hquits, ClientPacket.response, hresult]
    exact ⟨not_listens_release hp, answers_release _⟩
  · rw [Phase.next, if_neg hquits, ClientPacket.response]
    by_cases hmessage : packet.type = .message
    · have hresult : packet.result = .printMessage := by
        rw [ClientPacket.result, if_neg hquits, if_pos hmessage]
      have hrelayed := step_relayed hwf hp hstreams hresult hsession hpossible
      rw [hstep, Except.ok.injEq, if_pos hresult] at hrelayed
      dsimp only at hrelayed
      obtain ⟨audience, _, _, hactions⟩ := relayed_actions (i := i) hp
        ((c.rxBuffer ++ piece).drop packet.bytes.length)
        (ServerApp.clientBroadcast session.username packet.payload)
      have hsessions : s'.sessions = s.sessions := by
        rw [hrelayed, ServerApp.broadcastAndEnable_sessions]
        rfl
      have hderef : s'.deref setting.connection =
          some (c.withBuffer ((c.rxBuffer ++ piece).drop packet.bytes.length)) := by
        rw [hrelayed, ServerApp.deref_broadcastAndEnable,
          ServerApp.deref_store_self (s := s.beginEvent i.now) (d := c.withBuffer _) hp rfl]
        simp [isRecipient]
      rw [hresult]
      refine ⟨⟨_, session, hderef, hauthenticated, rfl,
        (findSession_congr hsessions).trans hsession, rfl⟩, ?_⟩
      rw [hrelayed, hactions]
      simp [Action.answers, ServerApp.clientBroadcast]
    · have hresult : packet.result = .sendPong := by
        rw [ClientPacket.result, if_neg hquits, if_neg hmessage]
      have hponged := step_ponged hwf hp hstreams hresult hsession hpossible
      rw [hstep, Except.ok.injEq] at hponged
      have hsessions : s'.sessions = s.sessions := by
        rw [hponged, ServerApp.enableWriteEvent_sessions]
        rfl
      have hderef : s'.deref setting.connection = some (queueWrite
          { c.withBuffer ((c.rxBuffer ++ piece).drop packet.bytes.length) with
            lastSeen := i.now } (createPacketStream .pong [])) := by
        rw [hponged]
        exact ServerApp.deref_replied (s := s.beginEvent i.now) hp (by rfl) _
      rw [hresult]
      refine ⟨⟨_, session, hderef, hauthenticated, rfl,
        (findSession_congr hsessions).trans hsession, rfl⟩, ?_⟩
      rw [hponged, ServerApp.actions_replied]
      simp [Action.answers]

theorem chatting_waits (hp : s.deref p = some c)
    (hsession : ClientManager.findSesssionFromConnection p s = some session)
    (hsize : (c.rxBuffer ++ piece).length < packet.bytes.length) :
    (Phase.chatting session.username (packet :: packets)).At p s' (c.rxBuffer ++ piece) ∧
      s'.actions.filter (·.answers p) = [] := by
  obtain ⟨result, hresult, hparse⟩ := ClientPacket.parse_incomplete hcut hsize
  have hidle := step_streamIdle hwf hp ⟨piece, h, hauthenticated, hparse⟩ hresult
    (possible_of_step hstep)
  rw [hstep, Except.ok.injEq] at hidle
  subst hidle
  refine ⟨⟨c.withBuffer (c.rxBuffer ++ piece), session, ?_, hauthenticated, rfl, hsession, rfl⟩,
    rfl⟩
  exact ServerApp.deref_store_self (s := s.beginEvent i.now) hp rfl

end Chatting

/-- A piece arrives: the next packet is handled if it is complete, and nothing is
done otherwise. -/
theorem Phase.At.deliver {setting : Setting} {phase : Phase} (hwf : WellFormed s)
    (hat : phase.At setting.connection s rxBuffer) (hp : s.deref setting.connection = some c)
    (h : Receives i c piece) (hverify : i.verifyClient = setting.verifyClient)
    (hrandom : i.random = setting.random)
    (hcut : rxBuffer ++ piece ++ unread = phase.bytes) (hstep : step i s = .ok s') :
    (∃ turn turns, phase.turns setting = turn :: turns ∧
      turn.size ≤ (rxBuffer ++ piece).length ∧
      (phase.next setting).At setting.connection s' ((rxBuffer ++ piece).drop turn.size) ∧
      s'.actions.filter (·.answers setting.connection) = turn.response) ∨
    ((∀ turn turns, phase.turns setting = turn :: turns →
        (rxBuffer ++ piece).length < turn.size) ∧
      phase.At setting.connection s' (rxBuffer ++ piece) ∧
      s'.actions.filter (·.answers setting.connection) = []) := by
  cases phase with
  | greeting login packets =>
      obtain ⟨_, d, hd, hawaiting, rfl⟩ := hat
      rw [hp, Option.some.injEq] at hd
      subst hd
      rcases le_or_gt login.size (c.rxBuffer ++ piece).length with hsize | hsize
      · obtain ⟨hnext, hactions⟩ :=
          greeting_deliver hwf hp hawaiting h hverify hrandom hcut hstep hsize
        exact .inl ⟨_, _, rfl, hsize, hnext, hactions⟩
      · obtain ⟨hsame, hactions⟩ := greeting_waits hwf hp hawaiting h hcut hstep hsize
        refine .inr ⟨?_, hsame, hactions⟩
        rintro turn turns hturns
        simp only [Phase.turns, List.cons.injEq] at hturns
        exact hturns.1 ▸ hsize
  | chatting username packets =>
      obtain ⟨d, session, hd, hauthenticated, rfl, hsession, rfl⟩ := hat
      rw [hp, Option.some.injEq] at hd
      subst hd
      cases packets with
      | nil =>
          simp only [Phase.bytes, packetBytes, List.flatMap_nil, List.append_eq_nil_iff] at hcut
          exact absurd hcut.1.2 h.nonempty
      | cons packet rest =>
          rcases le_or_gt packet.bytes.length (c.rxBuffer ++ piece).length with hsize | hsize
          · obtain ⟨hnext, hactions⟩ :=
              chatting_deliver hwf hauthenticated h hcut hstep hp hsession hsize
            exact .inl ⟨_, _, rfl, hsize, hnext, hactions⟩
          · obtain ⟨hsame, hactions⟩ :=
              chatting_waits hwf hauthenticated h hcut hstep hp hsession hsize
            refine .inr ⟨?_, hsame, hactions⟩
            rintro turn turns hturns
            simp only [Phase.turns, turnsOf, List.cons.injEq] at hturns
            exact hturns.1 ▸ hsize
  | ended rest => exact absurd ⟨c, hp, h.listening⟩ hat

/-! ## The other steps -/

variable {t : Transition ServerApp Input}

theorem delivery_eq_some :
    delivery p t = some piece ↔ ∃ c, t.pre.deref p = some c ∧ Receives t.input c piece := by
  unfold delivery
  constructor
  · intro h
    split at h
    · rename_i c bytes hc _
      split_ifs at h with hreceives
      rw [Option.some.injEq] at h
      exact ⟨c, hc, h ▸ hreceives⟩
    · simp at h
  · rintro ⟨c, hc, hreceives⟩
    simp only [hc, hreceives.outcome, hreceives, if_true]

theorem Phase.At.undisturbed {phase : Phase} (hat : phase.At p t.pre rxBuffer)
    (h : Undisturbed p t) : phase.At p t.post rxBuffer := by
  have hconnection := h.connection
  have huser := h.user
  cases phase with
  | greeting login packets =>
      obtain ⟨hsize, c, hc, hawaiting, rfl⟩ := hat
      rw [hc, Option.map_some, Option.map_eq_some_iff] at hconnection
      obtain ⟨d, hd, heq⟩ := hconnection
      rw [Prod.mk.injEq] at heq
      exact ⟨hsize, d, hd, heq.1.trans hawaiting, heq.2⟩
  | chatting username packets =>
      obtain ⟨c, session, hc, hauthenticated, rfl, hsession, rfl⟩ := hat
      rw [hc, Option.map_some, Option.map_eq_some_iff] at hconnection
      rw [hsession, Option.map_some, Option.map_eq_some_iff] at huser
      obtain ⟨d, hd, heq⟩ := hconnection
      obtain ⟨other, hother, hname⟩ := huser
      rw [Prod.mk.injEq] at heq
      exact ⟨d, other, hd, heq.1.trans hauthenticated, heq.2, hother, hname⟩
  | ended rest =>
      rintro ⟨d, hd, hlistening⟩
      rw [hd, Option.map_some, eq_comm, Option.map_eq_some_iff] at hconnection
      obtain ⟨c, hc, heq⟩ := hconnection
      rw [Prod.mk.injEq] at heq
      exact hat ⟨c, hc, heq.1 ▸ hlistening⟩

theorem Replies.receives {packet : Bytes} (h : Replies i s p packet) :
    ∃ c bytes, s.deref p = some c ∧ Receives i c bytes := by
  cases h with
  | refusal hp hshake | registered hp hshake | welcome hp hshake =>
      obtain ⟨bytes, hreceives, _⟩ := hshake
      exact ⟨_, bytes, hp, hreceives⟩
  | pong hp hstream =>
      obtain ⟨bytes, hreceives, _⟩ := hstream
      exact ⟨_, bytes, hp, hreceives⟩

theorem Announces.receives {packet : Bytes} (h : Announces i s (some p) packet) :
    ∃ c bytes, s.deref p = some c ∧ Receives i c bytes := by
  cases h with
  | client hp hstream =>
      obtain ⟨bytes, hreceives, _⟩ := hstream
      exact ⟨_, bytes, hp, hreceives⟩

theorem Phase.At.drained_iff {setting : Setting} {phase : Phase}
    (hat : phase.At setting.connection s rxBuffer) (hbytes : rxBuffer ++ unread = phase.bytes) :
    Drained setting.connection s ↔
      ¬∃ turn rest, phase.turns setting = turn :: rest ∧ turn.size ≤ rxBuffer.length := by
  cases phase with
  | greeting login packets =>
      obtain ⟨hsize, c, hc, hawaiting, rfl⟩ := hat
      refine iff_of_true ?_ ?_
      · intro d hd hauthenticated
        rw [hc, Option.some.injEq] at hd
        rw [← hd, hawaiting] at hauthenticated
        simp at hauthenticated
      · rintro ⟨turn, rest, hturns, hle⟩
        simp only [Phase.turns, List.cons.injEq] at hturns
        rw [← hturns.1] at hle
        exact absurd hle (not_le.mpr hsize)
  | chatting username packets =>
      obtain ⟨c, session, hc, hauthenticated, rfl, _⟩ := hat
      have hdrained : Drained setting.connection s ↔ ¬StartsWithPacket c.rxBuffer := by
        simp [Drained, hc, hauthenticated]
      rw [hdrained, not_iff_not]
      cases packets with
      | nil =>
          have hempty : c.rxBuffer = [] := (List.append_eq_nil_iff.mp hbytes).1
          simp [hempty, StartsWithPacket, headerSize, Phase.turns, turnsOf]
      | cons packet rest =>
          have hcut : c.rxBuffer ++ unread = packet.bytes ++ packetBytes rest := by
            rw [hbytes, Phase.bytes, packetBytes, packetBytes, List.flatMap_cons]
          rw [ClientPacket.startsWithPacket_iff hcut]
          simp [Phase.turns, turnsOf]
  | ended rest =>
      refine iff_of_true ?_ (by simp [Phase.turns])
      intro d hd hauthenticated
      exact absurd ⟨d, hd, by simp [hauthenticated]⟩ hat

theorem answers_undisturbed (hwf : WellFormed t.pre) (hstep : step t.input t.pre = .ok t.post)
    (hnone : delivery p t = none) (h : Undisturbed p t) :
    t.post.actions.filter (·.answers p) = [] := by
  have houtcome : Outcome t.input t.pre (.ok t.post) := hstep ▸ outcome_step hwf
  have hsilent : ¬∃ c bytes, t.pre.deref p = some c ∧ Receives t.input c bytes := by
    rintro ⟨c, bytes, hreceives⟩
    rw [delivery_eq_some.mpr ⟨c, hreceives⟩] at hnone
    simp at hnone
  have hgone : .disconnect p ∉ t.post.actions := by
    intro hmem
    obtain ⟨⟨c, hc⟩, hnone⟩ := houtcome.disconnects hmem
    have hconnection := h.connection
    rw [hc, hnone] at hconnection
    simp at hconnection
  have hperforms := houtcome.performs hwf
  generalize t.post.actions = actions at hgone hperforms
  refine List.filter_eq_nil_iff.mpr fun a ha hanswers => ?_
  cases hperforms with
  | silent hquiet =>
      have hkind := hquiet a ha
      cases a with
      | queueWrite q packet =>
          simp only [Action.answers, decide_eq_true_eq] at hanswers
          exact hsilent (hanswers.1 ▸ Replies.receives hkind)
      | broadcast sender packet => exact hkind
      | disconnect q =>
          simp only [Action.answers, decide_eq_true_eq] at hanswers
          exact hgone (hanswers ▸ ha)
      | _ => simp [Action.answers] at hanswers
  | announces hannounces =>
      rcases List.mem_cons.mp ha with rfl | ha
      · simp only [Action.answers, decide_eq_true_eq] at hanswers
        subst hanswers
        exact hsilent hannounces.receives
      · obtain ⟨q, _, rfl⟩ := List.mem_map.mp ha
        simp only [Action.answers, decide_eq_true_eq] at hanswers
        exact hanswers.2 hannounces.type

end

/-! ## Runs -/

def pieceLengths (p : ConnectionPtr) (history : List (Transition ServerApp Input)) :
    List Nat :=
  (pieces p history).map List.length

/-- After a run the server has taken the turns `done` of a conversation, one per
piece at most; it is at `phase` and has the bytes `rxBuffer` of it. -/
structure Follows (setting : Setting) (conversation : Conversation)
    (history : List (Transition ServerApp Input)) (s : ServerApp) (done : List Turn)
    (phase : Phase) (rxBuffer : Bytes) : Prop where
  turns : conversation.turns setting = done ++ phase.turns setting
  handled : (progressAfter (conversation.sizes setting)
    (pieceLengths setting.connection history)).handled = done.length
  received : (pieceLengths setting.connection history).sum =
    (done.map (·.size)).sum + rxBuffer.length
  performed : performed setting.connection history = done.flatMap (·.response)
  state : phase.At setting.connection s rxBuffer
  bytes : ∀ unread, (pieces setting.connection history).flatten ++ unread =
    conversation.bytes → rxBuffer ++ unread = phase.bytes

section

variable {setting : Setting} {conversation : Conversation}
  {history : List (Transition ServerApp Input)} {t : Transition ServerApp Input}
  {s : ServerApp} {done : List Turn} {phase : Phase} {rxBuffer : Bytes}

theorem follows_nil (hat : ∃ c, s.deref setting.connection = some c ∧
    c.status = .awaitingAuth ∧ c.rxBuffer = []) :
    Follows setting conversation [] s []
      (.greeting conversation.login conversation.packets) [] where
  turns := rfl
  handled := rfl
  received := rfl
  performed := rfl
  state := by
    have := conversation.login.headerSize_le
    unfold headerSize at this
    exact ⟨by simp; omega, hat⟩
  bytes _ h := h

theorem Follows.undisturbed (h : Follows setting conversation history t.pre done phase rxBuffer)
    (hwf : WellFormed t.pre) (hstep : step t.input t.pre = .ok t.post)
    (hnone : delivery setting.connection t = none) (hquiet : Undisturbed setting.connection t) :
    Follows setting conversation (history ++ [t]) t.post done phase rxBuffer := by
  have hpieces : pieces setting.connection (history ++ [t]) =
      pieces setting.connection history := by
    simp [pieces, hnone]
  have hperformed : Server.performed setting.connection (history ++ [t]) =
      Server.performed setting.connection history := by
    simp [Server.performed, answers_undisturbed hwf hstep hnone hquiet]
  refine ⟨h.turns, ?_, ?_, hperformed.trans h.performed, h.state.undisturbed hquiet, ?_⟩
  · rw [pieceLengths, hpieces]
    exact h.handled
  · rw [pieceLengths, hpieces]
    exact h.received
  · rw [hpieces]
    exact h.bytes

theorem framesWithin_turns_pos {turns : List Turn} {n : Nat} :
    0 < Lib.framesWithin (turns.map (·.size)) n ↔
      ∃ turn rest, turns = turn :: rest ∧ turn.size ≤ n := by
  rw [framesWithin_pos_iff]
  constructor
  · rintro ⟨size, sizes, hsizes, hsize⟩
    obtain ⟨turn, rest, hturns, rfl, _⟩ := List.map_eq_cons_iff.mp hsizes
    exact ⟨turn, rest, hturns, hsize⟩
  · rintro ⟨turn, rest, rfl, hsize⟩
    exact ⟨_, _, rfl, hsize⟩

theorem Follows.framesWithin (h : Follows setting conversation history s done phase rxBuffer)
    (n : Nat) :
    framesWithin (conversation.sizes setting)
        ((pieceLengths setting.connection history).sum + n) =
      done.length + Lib.framesWithin ((phase.turns setting).map (·.size))
        (rxBuffer.length + n) := by
  rw [h.received, Conversation.sizes, h.turns, List.map_append, Nat.add_assoc,
    framesWithin_append, List.length_map]

theorem Follows.deliver (h : Follows setting conversation history t.pre done phase rxBuffer)
    (hwf : WellFormed t.pre) (hstep : step t.input t.pre = .ok t.post) {piece : Bytes}
    (hpiece : delivery setting.connection t = some piece)
    (hverify : t.input.verifyClient = setting.verifyClient)
    (hrandom : t.input.random = setting.random)
    (hcut : (pieces setting.connection (history ++ [t])).flatten <+: conversation.bytes) :
    ∃ done phase rxBuffer,
      Follows setting conversation (history ++ [t]) t.post done phase rxBuffer := by
  obtain ⟨c, hp, hreceives⟩ := delivery_eq_some.mp hpiece
  have hpieces : pieces setting.connection (history ++ [t]) =
      pieces setting.connection history ++ [piece] := by
    simp [pieces, hpiece]
  have hlengths : pieceLengths setting.connection (history ++ [t]) =
      pieceLengths setting.connection history ++ [piece.length] := by
    simp [pieceLengths, hpieces]
  have hperformed : Server.performed setting.connection (history ++ [t]) =
      Server.performed setting.connection history ++
        t.post.actions.filter (·.answers setting.connection) := by
    simp [Server.performed]
  have hbytes : ∀ unread, (pieces setting.connection (history ++ [t])).flatten ++ unread =
      conversation.bytes → rxBuffer ++ piece ++ unread = phase.bytes := by
    intro unread hunread
    rw [hpieces, List.flatten_append, List.flatten_singleton, List.append_assoc] at hunread
    rw [List.append_assoc]
    exact h.bytes _ hunread
  have hhandled := h.handled
  have hcomplete := h.framesWithin piece.length
  obtain ⟨unread, hunread⟩ := hcut
  rcases h.state.deliver hwf hp hreceives hverify hrandom (hbytes unread hunread) hstep with
    ⟨turn, turns, hturns, hsize, hat, hactions⟩ | ⟨hshort, hat, hactions⟩
  · obtain ⟨hnext, hnextBytes⟩ := Phase.turns_next hturns
    rw [List.length_append] at hsize
    refine ⟨done ++ [turn], phase.next setting, (rxBuffer ++ piece).drop turn.size,
      ?_, ?_, ?_, ?_, hat, ?_⟩
    · rw [h.turns, hturns, hnext, List.append_assoc, List.singleton_append]
    · have hpos : 0 < Lib.framesWithin ((phase.turns setting).map (·.size))
          (rxBuffer.length + piece.length) := by
        exact framesWithin_turns_pos.mpr ⟨turn, turns, hturns, hsize⟩
      rw [hlengths, progressAfter_concat, Progress.receive, received_progressAfter, hhandled,
        if_pos (by omega), List.length_append, List.length_singleton]
    · rw [hlengths, List.sum_append, List.sum_singleton, h.received, List.map_append,
        List.sum_append, List.map_singleton, List.sum_singleton, List.length_drop,
        List.length_append]
      omega
    · rw [hperformed, h.performed, hactions, List.flatMap_append, List.flatMap_singleton]
    · intro unread hunread
      rw [hnextBytes, ← hbytes unread hunread]
      exact (List.drop_append_of_le_length (by rwa [List.length_append])).symm
  · refine ⟨done, phase, rxBuffer ++ piece, h.turns, ?_, ?_, ?_, hat, hbytes⟩
    · have hnone : ¬0 < Lib.framesWithin ((phase.turns setting).map (·.size))
          (rxBuffer.length + piece.length) := by
        rw [framesWithin_turns_pos]
        rintro ⟨turn, turns, hturns, hsize⟩
        have := hshort turn turns hturns
        rw [List.length_append] at this
        omega
      rw [hlengths, progressAfter_concat, Progress.receive, received_progressAfter, hhandled,
        if_neg (by omega)]
    · rw [hlengths, List.sum_append, List.sum_singleton, h.received, List.length_append,
        Nat.add_assoc]
    · rw [hperformed, h.performed, hactions, List.append_nil]

theorem Follows.drained_iff (h : Follows setting conversation history s done phase rxBuffer)
    (hcut : (pieces setting.connection history).flatten <+: conversation.bytes) :
    Drained setting.connection s ↔
      (progressAfter (conversation.sizes setting)
        (pieceLengths setting.connection history)).handled =
        Lib.framesWithin (conversation.sizes setting)
          (pieceLengths setting.connection history).sum := by
  obtain ⟨unread, hunread⟩ := hcut
  have hbytes := h.bytes unread hunread
  have hcomplete := h.framesWithin 0
  simp only [Nat.add_zero] at hcomplete
  rw [h.handled, hcomplete]
  have hpending : done.length = done.length +
      Lib.framesWithin ((phase.turns setting).map (·.size)) rxBuffer.length ↔
      ¬∃ turn rest, phase.turns setting = turn :: rest ∧ turn.size ≤ rxBuffer.length := by
    rw [← framesWithin_turns_pos]
    omega
  rw [hpending]
  exact h.state.drained_iff hbytes

/-- The server has followed a conversation, and everything was handled as soon as it
was there if and only if no piece completed two packets. -/
def Followed (setting : Setting) (conversation : Conversation)
    (history : List (Transition ServerApp Input)) (s : ServerApp) : Prop :=
  (∃ done phase rxBuffer, Follows setting conversation history s done phase rxBuffer) ∧
  ((∀ t ∈ history, Drained setting.connection t.post) ↔
    OnePerChunk (conversation.sizes setting) 0 (pieceLengths setting.connection history))

theorem Followed.next (h : Followed setting conversation history t.pre)
    (hwf : WellFormed t.pre) (hstep : step t.input t.pre = .ok t.post)
    (hanswers : (delivery setting.connection t).isSome →
      t.input.verifyClient = setting.verifyClient ∧ t.input.random = setting.random)
    (hquiet : delivery setting.connection t = none → Undisturbed setting.connection t)
    (hcut : (pieces setting.connection (history ++ [t])).flatten <+: conversation.bytes) :
    Followed setting conversation (history ++ [t]) t.post := by
  have hpos : ∀ size ∈ conversation.sizes setting, 0 < size :=
    fun _ => Conversation.size_pos
  obtain ⟨⟨done, phase, rxBuffer, hfollows⟩, hiff⟩ := h
  rw [Followed, List.forall_mem_append, List.forall_mem_singleton, hiff]
  cases hpiece : delivery setting.connection t with
  | none =>
      have hnew := hfollows.undisturbed hwf hstep hpiece (hquiet hpiece)
      have hlengths : pieceLengths setting.connection (history ++ [t]) =
          pieceLengths setting.connection history := by
        simp [pieceLengths, pieces, hpiece]
      refine ⟨⟨done, phase, rxBuffer, hnew⟩, ?_⟩
      rw [hnew.drained_iff hcut, hlengths]
      exact and_iff_left_of_imp (handled_of_onePerChunk hpos)
  | some piece =>
      obtain ⟨hverify, hrandom⟩ := hanswers (by rw [hpiece]; rfl)
      obtain ⟨done, phase, rxBuffer, hnew⟩ :=
        hfollows.deliver hwf hstep hpiece hverify hrandom hcut
      have hlengths : pieceLengths setting.connection (history ++ [t]) =
          pieceLengths setting.connection history ++ [piece.length] := by
        simp [pieceLengths, pieces, hpiece]
      refine ⟨⟨done, phase, rxBuffer, hnew⟩, ?_⟩
      rw [hnew.drained_iff hcut, hlengths, onePerChunk_concat hpos, List.sum_append,
        List.sum_singleton]

variable {now : Time} {before : List (Transition ServerApp Input)} {s' : ServerApp}

/-- Every run in which a conversation arrives on a new connection is followed. -/
theorem followed_of_run (hrun : ServerRun now before s)
    (hnew : ∃ c, s.deref setting.connection = some c ∧ c.status = .awaitingAuth ∧
      c.rxBuffer = [])
    (h : Conveys setting conversation s history s') :
    Followed setting conversation history s' := by
  have hfollowed := h.run.invariant_of
    (fun t => ((delivery setting.connection t).isSome →
        t.input.verifyClient = setting.verifyClient ∧ t.input.random = setting.random) ∧
      (delivery setting.connection t = none → Undisturbed setting.connection t))
    (fun history s => WellFormed s ∧
      ((pieces setting.connection history).flatten <+: conversation.bytes →
        Followed setting conversation history s))
    ?_ ?_ fun t ht => ⟨h.answers t ht, h.undisturbed t ht⟩
  · exact hfollowed.2 h.cut
  · refine ⟨wellFormed_of_run hrun, fun _ => ⟨⟨_, _, _, follows_nil hnew⟩, ?_⟩⟩
    simp [pieceLengths, pieces, OnePerChunk]
  · rintro history s s' i _ ⟨hwf, hbefore⟩ hstep ⟨hanswers, hquiet⟩
    refine ⟨hwf.step hstep, fun hcut => ?_⟩
    have hcutBefore : (pieces setting.connection history).flatten <+: conversation.bytes := by
      refine List.IsPrefix.trans ?_ hcut
      rw [pieces, pieces, List.filterMap_append, List.flatten_append]
      exact List.prefix_append _ _
    exact (hbefore hcutBefore).next hwf hstep hanswers hquiet hcut

/-- Where no piece completes two packets, the actions for the connection are those of
the conversation, packet by packet. -/
theorem performed_of_onePerChunk (hrun : ServerRun now before s)
    (hnew : ∃ c, s.deref setting.connection = some c ∧ c.status = .awaitingAuth ∧
      c.rxBuffer = [])
    (h : Conveys setting conversation s history s')
    (hone : OnePerChunk (conversation.sizes setting) 0
      (pieceLengths setting.connection history)) :
    performed setting.connection history =
      (conversation.turns setting).flatMap (·.response) := by
  obtain ⟨⟨done, phase, rxBuffer, hfollows⟩, _⟩ := followed_of_run hrun hnew h
  have hhandled := handled_of_onePerChunk (fun _ => Conversation.size_pos) hone
  have hcomplete := hfollows.framesWithin 0
  simp only [Nat.add_zero] at hcomplete
  have hnone : ¬∃ turn rest, phase.turns setting = turn :: rest ∧
      turn.size ≤ rxBuffer.length := by
    rw [← framesWithin_turns_pos]
    have := hfollows.handled
    omega
  have hall : phase.turns setting = [] := by
    rcases h.whole with hwhole | hdeaf
    · cases hturns : phase.turns setting with
      | nil => rfl
      | cons turn rest =>
          have hbytes := hfollows.bytes [] (by rw [List.append_nil, hwhole])
          rw [List.append_nil] at hbytes
          exact absurd ⟨turn, rest, hturns, hbytes ▸ Phase.size_le hturns⟩ hnone
    · cases phase with
      | greeting login packets =>
          obtain ⟨_, c, hc, hawaiting, _⟩ := hfollows.state
          exact absurd ⟨c, hc, by simp [hawaiting]⟩ hdeaf
      | chatting username packets =>
          obtain ⟨c, _, hc, hauthenticated, _⟩ := hfollows.state
          exact absurd ⟨c, hc, by simp [hauthenticated]⟩ hdeaf
      | ended rest => rfl
  rw [hfollows.performed, hfollows.turns, hall, List.append_nil]

theorem length_pos_of_packet {packet : Bytes}
    (h : packet ∈ conversation.login.bytes :: conversation.packets.map (·.bytes)) :
    0 < packet.length := by
  have hheader : headerSize ≤ packet.length := by
    rcases List.mem_cons.mp h with rfl | h
    · exact conversation.login.headerSize_le.trans conversation.login.size_le
    · obtain ⟨sent, _, rfl⟩ := List.mem_map.mp h
      rw [sent.isPacket.length_eq]
      exact Nat.le_add_right _ _
  exact Nat.lt_of_lt_of_le (by decide) hheader

theorem onePerChunk_of_apart {pieces : List Bytes} (h : Apart conversation pieces) :
    OnePerChunk (conversation.sizes setting) 0 (pieces.map List.length) := by
  obtain ⟨cuts, hcuts, hprefix⟩ := h
  have hsizes : (cuts.map (·.map List.length)).map List.sum =
      (conversation.login.bytes :: conversation.packets.map (·.bytes)).map List.length := by
    rw [← hcuts, List.map_map, List.map_map]
    exact List.map_congr_left fun cut _ => (List.length_flatten).symm
  have hframewise : OnePerChunk (conversation.login.bytes.length ::
      conversation.packets.map (·.bytes.length)) 0 (pieces.map List.length) := by
    obtain ⟨more, hmore⟩ := hprefix
    have hpos : ∀ cut ∈ cuts.map (·.map List.length), 0 < cut.sum := by
      intro cut hcut
      have hmem : cut.sum ∈ (cuts.map (·.map List.length)).map List.sum :=
        List.mem_map_of_mem hcut
      rw [hsizes] at hmem
      obtain ⟨packet, hpacket, hlength⟩ := List.mem_map.mp hmem
      rw [← hlength]
      exact length_pos_of_packet hpacket
    have hall := onePerChunk_framewise _ hpos
    rw [hsizes, ← List.map_flatten, ← hmore, List.map_append, onePerChunk_append,
      List.map_cons, List.map_map] at hall
    exact hall.1
  by_cases haccepted : conversation.login.Accepted setting
  · obtain ⟨others, hothers⟩ := sizes_of_turnsOf setting conversation.login.username
      conversation.packets
    have hread : conversation.sizes setting = conversation.login.bytes.length ::
        (turnsOf setting conversation.login.username conversation.packets).map (·.size) := by
      simp [Conversation.sizes, Conversation.turns, Phase.turns, haccepted,
        LoginPacket.size_of_valid haccepted.1]
    rw [← hothers, ← List.cons_append, ← hread] at hframewise
    exact hframewise.first
  · refine onePerChunk_of_single ?_ 0 _
    simp [Conversation.sizes, Conversation.turns, Phase.turns, haccepted]

/-- In a run in which a conversation arrives on a new connection, everything is
handled as soon as it is there, and the same is done as when every packet arrives on
its own, if and only if no piece completes two of the packets that are read. -/
theorem handledLike_iff_onePerChunk (hrun : ServerRun now before s)
    (hnew : ∃ c, s.deref setting.connection = some c ∧ c.status = .awaitingAuth ∧
      c.rxBuffer = [])
    (h : Conveys setting conversation s history s')
    {reference : List (Transition ServerApp Input)} {r : ServerApp}
    (hreference : Conveys setting conversation s reference r)
    (hapart : Apart conversation (pieces setting.connection reference)) :
    HandledLike setting.connection history reference ↔
      OnePerChunk (conversation.sizes setting) 0
        (pieceLengths setting.connection history) := by
  have hdrained := (followed_of_run hrun hnew h).2
  rw [HandledLike, hdrained]
  refine and_iff_left_of_imp fun hone => ?_
  rw [performed_of_onePerChunk hrun hnew h hone,
    performed_of_onePerChunk hrun hnew hreference (onePerChunk_of_apart hapart)]

end

/-! ## A login and a ping -/

def Setting.sample : Setting :=
  ⟨Input.sample.verifyClient, Input.sample.random, ⟨5, 0⟩⟩

def loginAndPing : Conversation where
  login :=
    { payload := literal "a" ++ literal "|" ++ literal "b"
      bytes := loginPacket (literal "a") (literal "b")
      isPacket := isPacket_createPacketStream _ (by decide) }
  packets :=
    [{ type := .ping
       payload := []
       bytes := createPacketStream .ping []
       isPacket := isPacket_createPacketStream _ (by decide)
       sendable := .inr (.inl rfl) }]

/-- The pieces `cuts` arrive one after the other on descriptor 5, all of them are
delivered, and the server ends up in a state with property `p`. -/
def arrives (cuts : List Bytes) (p : ServerApp → Bool) (s : ServerApp) : Bool :=
  Run.reaches step (cuts.map (receiving 5)) s fun history final =>
    history.all (fun t => (delivery ⟨5, 0⟩ t).isSome) && pieces ⟨5, 0⟩ history = cuts && p final

theorem conveys_of_arrives {cuts : List Bytes} {p : ServerApp → Bool} {s : ServerApp}
    (h : arrives cuts p s = true) (hcuts : cuts.flatten = loginAndPing.bytes) :
    ∃ history s', Conveys .sample loginAndPing s history s' ∧
      pieces Setting.sample.connection history = cuts ∧ p s' = true := by
  obtain ⟨history, s', hrun, hinputs, h⟩ := Run.exists_of_execute_inputs _ _ _ _ h
  simp only [Bool.and_eq_true, List.all_eq_true, decide_eq_true_eq] at h
  obtain ⟨⟨hdelivered, hpieces⟩, hp⟩ := h
  have hconnection : pieces Setting.sample.connection history = cuts := hpieces
  refine ⟨history, s', ⟨hrun, ?_, ?_, ?_, ?_⟩, hpieces, hp⟩
  · intro t ht _
    have hmem : t.input ∈ history.map (·.input) := List.mem_map_of_mem ht
    rw [hinputs] at hmem
    obtain ⟨piece, _, hpiece⟩ := List.mem_map.mp hmem
    rw [← hpiece]
    exact ⟨rfl, rfl⟩
  · intro t ht hnone
    have hsome := hdelivered t ht
    rw [show delivery ⟨5, 0⟩ t = none from hnone] at hsome
    simp at hsome
  · rw [hconnection, hcuts]
  · exact .inl (hconnection ▸ hcuts)

def eachApart : List Bytes :=
  [loginPacket (literal "a") (literal "b"), createPacketStream .ping []]

def straddling : List Bytes :=
  [loginAndPing.bytes.take 5, (loginAndPing.bytes.drop 5).take 13, loginAndPing.bytes.drop 18]

theorem exists_conveys (cuts : List Bytes) (p : ServerApp → Bool)
    (hcuts : cuts.flatten = loginAndPing.bytes)
    (h : Run.reaches step [accepting 5] (initialState 0) (fun _ s =>
      (s.deref ⟨5, 0⟩).any (fun c => c.status = .awaitingAuth ∧ c.rxBuffer = []) &&
        arrives cuts p s && arrives eachApart (fun _ => true) s) = true) :
    ∃ before s history s' reference r, ServerRun 0 before s ∧
      (∃ c, s.deref ⟨5, 0⟩ = some c ∧ c.status = .awaitingAuth ∧ c.rxBuffer = []) ∧
      Conveys .sample loginAndPing s history s' ∧
      pieces Setting.sample.connection history = cuts ∧ p s' = true ∧
      Conveys .sample loginAndPing s reference r ∧
      Apart loginAndPing (pieces Setting.sample.connection reference) := by
  obtain ⟨before, s, hrun, h⟩ := Run.exists_of_execute _ _ _ _ h
  simp only [Bool.and_eq_true, Option.any_eq_true, decide_eq_true_eq] at h
  obtain ⟨⟨⟨c, hnew⟩, harrives⟩, hapart⟩ := h
  obtain ⟨history, s', hconveys, hpieces, hp⟩ := conveys_of_arrives harrives hcuts
  obtain ⟨reference, r, hreference, hreferencePieces, _⟩ :=
    conveys_of_arrives hapart (by decide)
  refine ⟨before, s, history, s', reference, r, hrun, ⟨c, hnew⟩, hconveys, hpieces, hp,
    hreference, eachApart.map fun packet => [packet], by decide, ?_⟩
  rw [hreferencePieces]
  exact List.prefix_rfl

/-- `handledLike_iff_onePerChunk` for a piece with parts of two packets. -/
theorem handledLike_iff_onePerChunk_straddling : ∃ before s history s' reference r,
    ServerRun 0 before s ∧ Conveys .sample loginAndPing s history s' ∧
    pieces Setting.sample.connection history = straddling ∧
    Conveys .sample loginAndPing s reference r ∧
    HandledLike Setting.sample.connection history reference := by
  obtain ⟨before, s, history, s', reference, r, hrun, hnew, h, hpieces, _, hreference, hapart⟩ :=
    exists_conveys straddling (fun _ => true) (by decide) (by decide +kernel)
  refine ⟨before, s, history, s', reference, r, hrun, h, hpieces, hreference,
    (handledLike_iff_onePerChunk hrun hnew h hreference hapart).mpr ?_⟩
  rw [pieceLengths, hpieces]
  decide

/-- A ping that arrives together with the login stays in the buffer. -/
theorem packet_left_lying :
    ¬∀ setting conversation now before s history s' reference r, ServerRun now before s →
      (∃ c, s.deref setting.connection = some c ∧ c.status = .awaitingAuth ∧
        c.rxBuffer = []) →
      Conveys setting conversation s history s' → Conveys setting conversation s reference r →
      Apart conversation (pieces setting.connection reference) →
      HandledLike setting.connection history reference := by
  intro h
  obtain ⟨before, s, history, s', reference, r, hrun, hnew, hconveys, hpieces, hlying,
    hreference, hapart⟩ := exists_conveys [loginAndPing.bytes]
      (fun s => (s.deref ⟨5, 0⟩).any fun c =>
        c.status = .authenticated ∧ StartsWithPacket c.rxBuffer) (by decide) (by decide +kernel)
  have hlike := h _ _ 0 before s history s' reference r hrun hnew hconveys hreference hapart
  simp only [Option.any_eq_true, decide_eq_true_eq] at hlying
  obtain ⟨c, hc, hauthenticated, hstarts⟩ := hlying
  cases hconveys.run with
  | start => simp [pieces] at hpieces
  | next _ _ =>
      have hdrained := hlike.1 _ (List.mem_append_right _ (List.mem_singleton_self _))
      exact hdrained c hc hauthenticated hstarts

end TChat.Server
