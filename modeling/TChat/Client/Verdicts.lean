import TChat.Client.Replies
import TChat.Server.Parsing
/-!
# What a login takes for an answer

`login_client` looks at the text of the first packet and not at its type.  The texts of
errors and of messages are taken for the server's answer as well.
-/

namespace TChat.Client

open TChat.Common
open TChat.Server (cut_at_bar)

/-- A call of `login_client` on a new connection, once its packet is sent. -/
structure LoginCall where
  username : Bytes
  password : Bytes
  client : ClientConnection
  live : client.Live
  fresh : client.rxBuffer = []
  writes : List SslWrite
  sent : ClientConnection
  calls : List SslWriteCall
  flush : flushWrite (queueWrite client
    (createPacketStream .login (credentials username password))) writes =
      some (.queueEmpty, sent, calls)
  reads : List SslRead
  deliverable : ∀ piece, .received piece ∈ reads → Deliverable piece

def LoginCall.Returns (l : LoginCall) (result : LoginResult) : Prop :=
  ∃ client, loginClient l.username l.password l.writes l.reads l.client =
    some (result, client, l.calls)

structure FirstPacket (stream : Bytes) (type : PacketType) (payload : Bytes) : Prop where
  complete : StartsWithPacket stream
  magic : (readHeader stream).magic = protocolKey
  type_eq : (readHeader stream).type = type.toByte
  payload_eq : packetPayload stream = payload
  fits : payload.length ≤ maxMessagePayloadSize

/-- The text that a packet other than an Ack comes with. -/
inductive Carries : PacketType → Bytes → Bytes → Prop
  | error {text : Bytes} : Carries .error text text
  | server {text : Bytes} : Carries .message (literal "S|" ++ text) text
  | user {name text : Bytes} : name ≠ [] → bar ∉ name →
      Carries .message (literal "U|" ++ name ++ literal "|" ++ text) text

/-- The texts with which the server answers a login. -/
inductive Answer : Bytes → Prop
  | no : Answer (literal "NO")
  | ok {token : Bytes} : token ≠ [] → Answer (literal "OK|" ++ token)

/-- A login succeeds with a token, and is rejected, exactly when the first packet is the Ack
that says so. -/
structure LoginCall.TrustsAcks (l : LoginCall) : Prop where
  success : ∀ token, (∃ result, l.Returns result ∧ result.status = .success ∧
    result.token = token) ↔
      token ≠ [] ∧ FirstPacket (arrived l.reads) .ack (literal "OK|" ++ token)
  rejected : (∃ result, l.Returns result ∧ result.status = .authenticationRejected) ↔
    FirstPacket (arrived l.reads) .ack (literal "NO")
  others : ∀ type payload, FirstPacket (arrived l.reads) type payload →
    type = .message ∨ type = .error ∨ type = .pong → ∀ result, l.Returns result →
      result.status ≠ .success ∧ result.status ≠ .authenticationRejected

theorem not_answer_nil : ¬Answer [] := by
  intro h
  generalize hnil : ([] : Bytes) = text at h
  cases h with
  | no => simp [literal] at hnil
  | ok _ => simp [literal] at hnil

section

variable {stream payload text username token : Bytes} {type : PacketType}
  {c c' : ClientConnection} {reads : List SslRead} {fuel : Nat} {result : LoginResult}
  {reply : ProcessStreamResult}

/-! ## The first packet of a stream -/

theorem FirstPacket.read (h : FirstPacket stream type payload) :
    (processDataStream stream).1 = readPayload (some type) payload := by
  have hlength : (packetPayload stream).length = (readHeader stream).payloadLength := by
    have hcomplete := h.complete.2
    rw [PacketHeader.totalSize] at hcomplete
    rw [packetPayload, List.length_take, List.length_drop]
    omega
  rw [processDataStream_complete h.magic _ h.complete, h.type_eq, PacketType.ofByte?_toByte,
    h.payload_eq]
  rw [← hlength, h.payload_eq]
  exact h.fits

theorem FirstPacket.decides (h : FirstPacket stream type payload) :
    (processDataStream stream).1.waits = false := by
  rw [h.read]
  exact readPayload_waits _ _

theorem FirstPacket.type_unique {type' : PacketType} {payload' : Bytes}
    (h : FirstPacket stream type payload) (h' : FirstPacket stream type' payload') :
    type = type' := by
  have hbyte : type.toByte = type'.toByte := h.type_eq.symm.trans h'.type_eq
  have hsame := congrArg PacketType.ofByte? hbyte
  simpa using hsame

theorem exists_firstPacket (hdecides : (processDataStream stream).1.waits = false)
    (hvalid : (processDataStream stream).1.status ≠ .invalidProtocolError) :
    ∃ type payload, FirstPacket stream type payload ∧
      (processDataStream stream).1 = readPayload (some type) payload := by
  obtain ⟨-, ⟨-, hread⟩ | ⟨hmagic, hfits, hcomplete, hread⟩⟩ := processDataStream_cases hdecides
  · rw [hread] at hvalid
    exact absurd rfl hvalid
  · rw [hread] at hvalid ⊢
    cases htype : PacketType.ofByte? (readHeader stream).type with
    | none =>
        rw [htype] at hvalid
        exact absurd rfl hvalid
    | some type =>
        have hlength : (packetPayload stream).length ≤ maxMessagePayloadSize :=
          (List.length_take_le _ _).trans hfits
        exact ⟨type, packetPayload stream,
          ⟨hcomplete, hmagic, Server.ofByte?_eq_some.mp htype, rfl, hlength⟩, rfl⟩

/-! ## The text of a packet -/

theorem Carries.read (h : Carries type payload text) :
    (readPayload (some type) payload).message = text ∧
      (readPayload (some type) payload).status ≠ .invalidProtocolError ∧
        (type = .message ∨ type = .error) := by
  cases h with
  | error => exact ⟨rfl, nofun, .inr rfl⟩
  | server =>
      rw [readPayload, readMessage_server]
      exact ⟨rfl, nofun, .inl rfl⟩
  | user hname hbar =>
      rw [readPayload, readMessage_client hbar, if_neg hname]
      exact ⟨rfl, nofun, .inl rfl⟩

theorem carries_readMessage (h : (readMessage payload).status ≠ .invalidProtocolError) :
    Carries .message payload (readMessage payload).message := by
  match payload with
  | [] => simp [readMessage, ProcessStreamResult.of] at h
  | [_] => simp [readMessage, ProcessStreamResult.of] at h
  | first :: second :: rest =>
      have hsecond : second = bar := by
        by_contra hother
        simp [readMessage, ProcessStreamResult.of, hother] at h
      subst hsecond
      by_cases huser : first = 0x55
      · by_cases hbar : bar ∈ rest
        · obtain ⟨hcut, hname⟩ := cut_at_bar hbar
          have hshape : first :: bar :: rest = literal "U|" ++ rest.takeWhile (· ≠ bar) ++
              literal "|" ++ (rest.dropWhile (· ≠ bar)).drop 1 := by
            rw [huser, List.append_assoc, List.append_assoc]
            nth_rewrite 1 [hcut]
            simp [literal, bar]
          rw [hshape, readMessage_client hname] at h ⊢
          split_ifs at h ⊢ with hempty
          · exact absurd rfl h
          · exact .user hempty hname
        · have hnone : rest.findIdx? (· = bar) = none := by
            rw [List.findIdx?_eq_none_iff]
            intro byte hbyte
            simpa using ne_of_mem_of_not_mem hbyte hbar
          simp [readMessage, find, huser, hnone, ProcessStreamResult.of] at h
      · by_cases hserver : first = 0x53
        · have hshape : first :: bar :: rest = literal "S|" ++ rest := by
            rw [hserver]
            simp [literal, bar]
          rw [hshape, readMessage_server]
          exact .server
        · simp [readMessage, huser, hserver, ProcessStreamResult.of] at h

theorem text_of_firstPacket (hdecides : (processDataStream stream).1.waits = false)
    (hvalid : (processDataStream stream).1.status ≠ .invalidProtocolError) :
    FirstPacket stream .ack (processDataStream stream).1.message ∨
      (∃ type payload, FirstPacket stream type payload ∧
        Carries type payload (processDataStream stream).1.message) ∨
      (processDataStream stream).1.message = [] := by
  obtain ⟨type, payload, hfirst, hread⟩ := exists_firstPacket hdecides hvalid
  rw [hread] at hvalid ⊢
  cases type with
  | ack => exact .inl hfirst
  | error => exact .inr (.inl ⟨_, _, hfirst, .error⟩)
  | message => exact .inr (.inl ⟨_, _, hfirst, carries_readMessage hvalid⟩)
  | pong => exact .inr (.inr rfl)
  | _ => exact absurd rfl hvalid

/-! ## The verdict -/

theorem judgeReply_success : (judgeReply username reply).status = .success ∧
    (judgeReply username reply).token = token ↔
      reply.status ≠ .invalidProtocolError ∧ token ≠ [] ∧
        reply.message = literal "OK|" ++ token := by
  constructor
  · intro h
    unfold judgeReply at h
    split_ifs at h with hinvalid hno hok
    · simp [LoginResult.of] at h
    · simp [LoginResult.of] at h
    · obtain ⟨⟨rest, hrest⟩, hlong⟩ := hok
      have hthree : (literal "OK|").length = 3 := by decide
      have htoken : reply.message.drop 3 = rest := by
        rw [← hrest, ← hthree, List.drop_left]
      have hne : rest ≠ [] := by
        rintro rfl
        rw [← hrest, List.append_nil, hthree] at hlong
        exact absurd hlong (lt_irrefl _)
      obtain rfl : rest = token := htoken.symm.trans h.2
      exact ⟨hinvalid, hne, hrest.symm⟩
    · simp [LoginResult.of] at h
  · rintro ⟨hvalid, htoken, hmessage⟩
    have hwelcome := @judgeReply_welcome username token htoken
    have hsame : judgeReply username reply =
        judgeReply username ⟨.acknowledgement, literal "OK|" ++ token, []⟩ := by
      simp [judgeReply, hvalid, hmessage]
    rw [hsame, hwelcome]
    exact ⟨rfl, rfl⟩

theorem judgeReply_rejected : (judgeReply username reply).status = .authenticationRejected ↔
    reply.status ≠ .invalidProtocolError ∧ reply.message = literal "NO" := by
  unfold judgeReply
  split_ifs with hinvalid hno hok <;> simp_all [LoginResult.of]

def verdict (username stream : Bytes) : LoginResult :=
  if (processDataStream stream).1.waits then .of .connectionLost
  else judgeReply username (processDataStream stream).1

theorem readLoop_undeliverable {piece : Bytes} (hlive : c.Live) (h : ¬Deliverable piece)
    (reads : List SslRead) : handleRead c (.received piece :: reads) = none := by
  have hbad : piece = [] ∨ readBufferSize < piece.length := by
    rw [Deliverable, not_and_or, not_not, not_le] at h
    exact h
  rw [handleRead, if_neg (not_lt.mpr hlive.fd), if_neg hlive.ssl, if_neg hlive.status, readLoop,
    if_pos hbad]

/-- What the loop of `login_client` returns depends on the bytes that have arrived alone. -/
theorem loginLoop_verdict (hlive : c.Live)
    (hwaits : (processDataStream c.rxBuffer).1.waits = true)
    (h : loginLoop username (fuel + 1) reads c = some (result, c')) :
    result = verdict username (c.rxBuffer ++ arrived reads) := by
  induction reads using arrived.induct generalizing c fuel with
  | case1 piece reads ih =>
      by_cases hpiece : Deliverable piece
      · rw [arrived_received, ← List.append_assoc]
        cases hmore : (processDataStream (c.rxBuffer ++ piece)).1.waits with
        | true =>
            rw [loginLoop_waits hlive hpiece hmore] at h
            cases fuel with
            | zero => simp [loginLoop] at h
            | succ fuel =>
                exact ih (c := { c with
                    rxBuffer := c.rxBuffer ++ piece, readWaitingForWrite := false })
                  ⟨hlive.fd, hlive.ssl, hlive.status⟩ hmore h
        | false =>
            obtain ⟨last, hdecided⟩ :=
              @loginLoop_decides username piece fuel reads c hlive hpiece hmore
            rw [hdecided, Option.some.injEq, Prod.mk.injEq] at h
            rw [verdict, (processDataStream_append hmore _).1, hmore]
            exact h.1.symm
      · simp [loginLoop, readLoop_undeliverable hlive hpiece] at h
  | case2 reads ih =>
      rw [loginLoop_interrupted hlive] at h
      exact ih hlive hwaits h
  | case3 reads hreceived hinterrupted =>
      rw [arrived.eq_3 reads hreceived hinterrupted, List.append_nil, verdict, if_pos hwaits]
      unfold loginLoop at h
      cases hread : handleRead c reads with
      | none => simp [hread] at h
      | some outcome =>
          obtain ⟨status, c₁, later⟩ := outcome
          have hlost : status ≠ .dataReceived := by
            rintro rfl
            rw [handleRead, if_neg (not_lt.mpr hlive.fd), if_neg hlive.ssl,
              if_neg hlive.status] at hread
            unfold readLoop at hread
            split at hread <;> simp_all
          simp only [hread, hlost, ne_eq, not_false_eq_true, if_true, Option.some.injEq,
            Prod.mk.injEq] at h
          exact h.1.symm

end

namespace LoginCall

variable {l : LoginCall} {result : LoginResult}

theorem loginClient_eq (l : LoginCall) :
    loginClient l.username l.password l.writes l.reads l.client =
      (loginLoop l.username (l.reads.length + 1) l.reads l.sent).map
        fun (result, client) => (result, client, l.calls) := by
  have hopen : ¬(l.client.ssl = none ∨ l.client.fd < 0) :=
    not_or.mpr ⟨l.live.ssl, not_lt.mpr l.live.fd⟩
  rw [loginClient, if_neg hopen]
  dsimp only
  rw [l.flush]
  rfl

theorem sent_live (l : LoginCall) : l.sent.Live ∧ l.sent.rxBuffer = [] := by
  obtain ⟨out, hsent⟩ := flushWrite_outgoing l.flush
  rw [hsent]
  exact ⟨⟨l.live.fd, l.live.ssl, l.live.status⟩, l.fresh⟩

theorem Returns.verdict (h : l.Returns result) :
    result = verdict l.username (arrived l.reads) := by
  obtain ⟨hlive, hfresh⟩ := l.sent_live
  obtain ⟨client, hreturns⟩ := h
  rw [l.loginClient_eq, Option.map_eq_some_iff] at hreturns
  obtain ⟨⟨result', client'⟩, hloop, heq⟩ := hreturns
  obtain rfl : result' = result := congrArg Prod.fst heq
  have hverdict := loginLoop_verdict hlive (by rw [hfresh]; rfl) hloop
  rwa [hfresh, List.nil_append] at hverdict

theorem returns_of_decided (hdecides : (processDataStream (arrived l.reads)).1.waits = false) :
    l.Returns (judgeReply l.username (processDataStream (arrived l.reads)).1) := by
  obtain ⟨hlive, hfresh⟩ := l.sent_live
  obtain ⟨last, hdecided⟩ := loginLoop_reply l.username
    (fun more => (processDataStream_append hdecides more).1) hdecides hlive
    (by rw [hfresh]; rfl) l.deliverable (by rw [hfresh, List.nil_append]) le_rfl
  exact ⟨last, by rw [l.loginClient_eq, hdecided]; rfl⟩

theorem returns_iff (hdecides : (processDataStream (arrived l.reads)).1.waits = false) :
    l.Returns result ↔ result = judgeReply l.username (processDataStream (arrived l.reads)).1 := by
  constructor
  · intro h
    rw [h.verdict, Client.verdict, hdecides]
    rfl
  · rintro rfl
    exact returns_of_decided hdecides

/-- The reply from which a result other than a loss of the connection comes. -/
theorem Returns.decided (h : l.Returns result) (hresult : result.status ≠ .connectionLost) :
    (processDataStream (arrived l.reads)).1.waits = false := by
  by_contra hwaits
  rw [h.verdict, Client.verdict, if_pos (by simpa using hwaits)] at hresult
  exact hresult rfl

end LoginCall

section

variable {l : LoginCall} {text : Bytes}

theorem read_ack (hfirst : FirstPacket (arrived l.reads) .ack text) :
    (processDataStream (arrived l.reads)).1.message = text ∧
      (processDataStream (arrived l.reads)).1.status ≠ .invalidProtocolError := by
  rw [hfirst.read]
  exact ⟨rfl, nofun⟩

variable (h : ¬∃ type payload text, FirstPacket (arrived l.reads) type payload ∧
  Carries type payload text ∧ Answer text)

include h

theorem ack_of_answer (hanswer : Answer text)
    (hdecides : (processDataStream (arrived l.reads)).1.waits = false)
    (hvalid : (processDataStream (arrived l.reads)).1.status ≠ .invalidProtocolError)
    (hmessage : (processDataStream (arrived l.reads)).1.message = text) :
    FirstPacket (arrived l.reads) .ack text := by
  subst hmessage
  rcases text_of_firstPacket hdecides hvalid with hfirst | ⟨type, payload, hfirst, hcarries⟩ |
    hempty
  · exact hfirst
  · exact absurd ⟨type, payload, _, hfirst, hcarries, hanswer⟩ h
  · rw [hempty] at hanswer
    exact absurd hanswer not_answer_nil

theorem login_success_iff (token : Bytes) :
    (∃ result, l.Returns result ∧ result.status = .success ∧ result.token = token) ↔
      token ≠ [] ∧ FirstPacket (arrived l.reads) .ack (literal "OK|" ++ token) := by
  constructor
  · rintro ⟨result, hreturns, hstatus, htoken⟩
    have hdecides := hreturns.decided (by simp [hstatus])
    rw [LoginCall.returns_iff hdecides] at hreturns
    obtain ⟨hvalid, hne, hmessage⟩ :=
      judgeReply_success.mp ⟨hreturns ▸ hstatus, hreturns ▸ htoken⟩
    exact ⟨hne, ack_of_answer h (.ok hne) hdecides hvalid hmessage⟩
  · rintro ⟨hne, hfirst⟩
    obtain ⟨hmessage, hvalid⟩ := read_ack hfirst
    exact ⟨_, LoginCall.returns_of_decided hfirst.decides,
      judgeReply_success.mpr ⟨hvalid, hne, hmessage⟩⟩

theorem login_rejected_iff :
    (∃ result, l.Returns result ∧ result.status = .authenticationRejected) ↔
      FirstPacket (arrived l.reads) .ack (literal "NO") := by
  constructor
  · rintro ⟨result, hreturns, hstatus⟩
    have hdecides := hreturns.decided (by simp [hstatus])
    rw [LoginCall.returns_iff hdecides] at hreturns
    obtain ⟨hvalid, hmessage⟩ := judgeReply_rejected.mp (hreturns ▸ hstatus)
    exact ack_of_answer h .no hdecides hvalid hmessage
  · intro hfirst
    obtain ⟨hmessage, hvalid⟩ := read_ack hfirst
    exact ⟨_, LoginCall.returns_of_decided hfirst.decides,
      judgeReply_rejected.mpr ⟨hvalid, hmessage⟩⟩

end

/-- A login succeeds and is rejected for Acks alone if and only if its first packet is not a
Message or an Error with the text of an answer. -/
theorem acks_trusted (l : LoginCall) :
    l.TrustsAcks ↔ ¬∃ type payload text, FirstPacket (arrived l.reads) type payload ∧
      Carries type payload text ∧ Answer text := by
  constructor
  · rintro h ⟨type, payload, text, hfirst, hcarries, hanswer⟩
    have hreturns := LoginCall.returns_of_decided hfirst.decides
    obtain ⟨hmessage, hvalid, htype⟩ := hcarries.read
    rw [hfirst.read] at hreturns
    have hneither := h.others type payload hfirst (htype.imp id .inl) _ hreturns
    cases hanswer with
    | no => exact hneither.2 (judgeReply_rejected.mpr ⟨hvalid, hmessage⟩)
    | ok htoken => exact hneither.1 (judgeReply_success.mpr ⟨hvalid, htoken, hmessage⟩).1
  · intro h
    refine ⟨login_success_iff h, login_rejected_iff h, ?_⟩
    intro type payload hfirst htype result hreturns
    have hother {text : Bytes} : ¬FirstPacket (arrived l.reads) .ack text := by
      intro hack
      rw [hfirst.type_unique hack] at htype
      simp at htype
    constructor
    · intro hstatus
      exact hother ((login_success_iff h result.token).mp ⟨result, hreturns, hstatus, rfl⟩).2
    · intro hstatus
      exact hother ((login_rejected_iff h).mp ⟨result, hreturns, hstatus⟩)

/-- User "a" logs in, and the first packet is an Error with the text "OK|t". -/
def misled : LoginCall where
  username := literal "a"
  password := literal "b"
  client := establishedClient.connection
  live := establishedClient_live
  fresh := rfl
  writes := [.wrote 15]
  sent := establishedClient.connection
  calls := [⟨createPacketStream .login (credentials (literal "a") (literal "b")), .wrote 15⟩]
  flush := by decide +kernel
  reads := [.received (createPacketStream .error (literal "OK|t"))]
  deliverable := by
    intro piece hpiece
    rw [List.mem_singleton, SslRead.received.injEq] at hpiece
    rw [hpiece]
    decide

/-- An Error packet logs the user in. -/
theorem error_believed : ¬∀ l : LoginCall, l.TrustsAcks := by
  intro h
  have hfirst : FirstPacket (arrived misled.reads) .error (literal "OK|t") :=
    ⟨by decide, by decide, by decide, by decide, by decide⟩
  have hreturns : misled.Returns ⟨.success, literal "a", literal "t"⟩ :=
    ⟨establishedClient.connection, by decide +kernel⟩
  exact ((h misled).others _ _ hfirst (.inr (.inl rfl)) _ hreturns).1 rfl

end TChat.Client
