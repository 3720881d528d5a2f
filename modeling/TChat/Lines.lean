import TChat.Chat
import TChat.Client.Outbox
import TChat.Server.Speech
/-!
# From the keys to the screens

A line that is typed goes through a client's queue, TLS, the server's parser and the queues
and parsers of the others.  What another client prints of a user are lines that the user has
typed, in order, each once and under the name of the login.
-/

namespace TChat

open TChat.Common TChat.Lib
open TChat.Client hiding Input
open TChat.Server (ServerApp ServerRun ConnectionPtr Announcement announcements announcedTo
  announcedBy saidFor spoken)

namespace Client.Post

theorem isPacket (post : Post) : IsPacket post.type post.payload post.packet := by
  apply isPacket_createPacketStream
  cases post with
  | ping => decide
  | line text fits =>
      unfold Server.maxInputLength at fits
      dsimp only [payload]
      omega

theorem sendable (post : Post) :
    post.type = .message ∨ post.type = .ping ∨ post.type = .command := by
  cases post with
  | ping => exact .inr (.inl rfl)
  | line text fits => exact .inl rfl

def sent (post : Post) : Server.ClientPacket :=
  ⟨post.type, post.payload, post.packet, post.isPacket, post.sendable⟩

end Client.Post

/-- A client that has logged in, and a run of its chat. -/
structure Speaker where
  username : Bytes
  password : Bytes
  username_le : username.length ≤ maxCredentialLength
  password_le : password.length ≤ maxCredentialLength
  start : ClientApp
  txQueue : start.connection.txQueue = []
  txOffset : start.connection.txOffset = 0
  blank : start.consoleInputBuffer = []
  writes : List SslWrite
  reads : List SslRead
  result : LoginResult
  connection : ClientConnection
  calls : List SslWriteCall
  login : loginClient username password writes reads start.connection =
    some (result, connection, calls)
  loggedIn : ClientApp
  accepts : (start.withConnection connection).handleLoginResult result = (.enterChat, loggedIn)
  entered : ClientApp
  enters : ∃ now nonblocking kqueue kevent,
    loggedIn.initChat now nonblocking kqueue kevent = (true, entered)
  history : List (Transition ClientApp Client.Input)
  client : ClientApp
  run : Run ClientApp.step entered history client

namespace Speaker

def lines (speaker : Speaker) : List Bytes :=
  (ownMessages speaker.client.actions).drop (ownMessages speaker.entered.actions).length

def allCalls (speaker : Speaker) : List SslWriteCall :=
  speaker.calls ++
    (written speaker.client.actions).drop (written speaker.entered.actions).length

/-- What the server takes for the user's name. -/
def name (speaker : Speaker) : Bytes :=
  (credentials speaker.username speaker.password).takeWhile (· ≠ bar)

theorem length_credentials_lt (speaker : Speaker) :
    (credentials speaker.username speaker.password).length < 2 ^ 32 := by
  have husername := speaker.username_le
  have hpassword := speaker.password_le
  have hbar : (literal "|").length = 1 := by decide
  unfold maxCredentialLength at husername hpassword
  simp only [credentials, List.length_append, hbar]
  omega

def loginPacket (speaker : Speaker) : Server.LoginPacket where
  payload := credentials speaker.username speaker.password
  bytes := createPacketStream .login (credentials speaker.username speaker.password)
  isPacket := isPacket_createPacketStream .login speaker.length_credentials_lt

def conversation (speaker : Speaker) (posts : List Post) : Server.Conversation where
  login := speaker.loginPacket
  packets := posts.map Post.sent

section

variable (speaker : Speaker)

theorem success : speaker.result.status = .success := by
  have haccepts := speaker.accepts
  unfold ClientApp.handleLoginResult at haccepts
  split at haccepts <;> simp_all

theorem entered_eq :
    speaker.entered.connection.toOutgoing = speaker.connection.toOutgoing ∧
      speaker.entered.consoleInputBuffer = [] := by
  have haccepts := speaker.accepts
  simp only [ClientApp.handleLoginResult, speaker.success, Prod.mk.injEq, true_and] at haccepts
  obtain ⟨now, nonblocking, kqueue, kevent, hchat⟩ := speaker.enters
  unfold ClientApp.initChat at hchat
  dsimp only at hchat
  split_ifs at hchat
  all_goals simp only [Prod.mk.injEq, Bool.false_eq_true, false_and, true_and] at hchat
  rw [← hchat, ← haccepts]
  exact ⟨rfl, speaker.blank⟩

theorem posted : ∃ posts calls, Posted speaker.entered
    [createPacketStream .login (credentials speaker.username speaker.password)] speaker.calls
      speaker.client posts calls := by
  obtain ⟨hout, hblank⟩ := speaker.entered_eq
  apply posted_of_run _ hblank speaker.run
  rw [hout]
  exact loginClient_sent speaker.txQueue speaker.txOffset speaker.login speaker.success

/-- What the client has written is the beginning of a conversation, of which the messages are
the first of the lines it has shown. -/
theorem converses : ∃ posts, accepted speaker.allCalls <+: (speaker.conversation posts).bytes ∧
    posts.filterMap Post.text? <+: speaker.lines := by
  obtain ⟨posts, calls, hposted⟩ := speaker.posted
  refine ⟨posts, ?_, ?_⟩
  · have hbytes : (speaker.conversation posts).bytes =
        ([createPacketStream .login (credentials speaker.username speaker.password)] ++
          posts.map Post.packet).flatten := by
      have hpackets : Server.packetBytes (posts.map Post.sent) =
          (posts.map Post.packet).flatten := by
        rw [Server.packetBytes, List.flatMap_map, List.flatMap_def]
        rfl
      rw [Server.Conversation.bytes, conversation, hpackets, List.flatten_append,
        List.flatten_singleton]
      rfl
    have hcalls : speaker.allCalls = speaker.calls ++ calls := by
      rw [allCalls, hposted.written, List.drop_left]
    rw [hbytes, hcalls]
    exact hposted.accepted_prefix
  · obtain ⟨lost, hshown, -⟩ := hposted.shown
    rw [lines, hshown, List.drop_left]
    exact List.prefix_append _ _

end

end Speaker

section

variable {now : Server.Time} {history : List (Transition ServerApp Server.Input)}
  {s : ServerApp} {p q : ConnectionPtr}

theorem spoken_posts (username : Bytes) (posts : List Post) :
    spoken username (posts.map Post.sent) =
      (posts.filterMap Post.text?).map (ServerApp.clientBroadcast username) := by
  induction posts with
  | nil => rfl
  | cons post posts ih =>
      rw [List.map_cons]
      cases post with
      | ping =>
          have hsilent (packets : List Server.ClientPacket) :
              spoken username (Post.sent .ping :: packets) = spoken username packets := rfl
          have hnone : Post.text? .ping = none := rfl
          rw [hsilent, List.filterMap_cons_none hnone, ih]
      | line text fits =>
          have hspoken (packets : List Server.ClientPacket) :
              spoken username (Post.sent (.line text fits) :: packets) =
                ServerApp.clientBroadcast username text :: spoken username packets := rfl
          have hsome : Post.text? (.line text fits) = some text := rfl
          rw [hspoken, List.filterMap_cons_some hsome, List.map_cons, ih]

theorem said_of_speaker (hrun : ServerRun now history s) (speaker : Speaker)
    (hsent : (Server.pieces p history).flatten <+: accepted speaker.allCalls) :
    ∃ lines, lines <+: speaker.lines ∧
      saidFor p history = lines.map (ServerApp.clientBroadcast speaker.name) := by
  obtain ⟨posts, hwritten, hlines⟩ := speaker.converses
  obtain ⟨handled, hattends⟩ :=
    Server.attends_of_run hrun (speaker.conversation posts) (hsent.trans hwritten)
  obtain ⟨rest, hrest⟩ := hattends.handled_prefix
  obtain ⟨first, later, rfl, rfl, -⟩ := List.append_eq_map_iff.mp hrest
  refine ⟨first.filterMap Post.text?, ?_, hattends.said.trans (spoken_posts _ _)⟩
  rw [List.filterMap_append] at hlines
  exact (List.prefix_append _ _).trans hlines

/-- A broadcast of a user that is printed, is printed as the line under the user's name. -/
theorem content_of_line {name line : Bytes} {heard : List Announcement} (hbar : bar ∉ name)
    (hprinted : ∀ a ∈ heard,
      a.packet.length ≤ intMax ∧ (content a.packet).status = .printMessage)
    (h : ServerApp.clientBroadcast name line ∈ heard.map (·.packet)) :
    content (ServerApp.clientBroadcast name line) = ⟨.printMessage, line, name⟩ := by
  obtain ⟨a, ha, hpacket⟩ := List.mem_map.mp h
  obtain ⟨hfits, hstatus⟩ := hprinted a ha
  rw [hpacket] at hfits hstatus
  have hint : intMax < 2 ^ 32 := by decide
  exact content_clientBroadcast hbar (hfits.trans_lt hint) hstatus

end

/-- In every run of the server, and whatever the writes of TLS and the pieces of the network
are: what a client prints of another are lines that were typed there, without a gap, in
order, each once and under the name of the login. -/
theorem lines_heard {now : Server.Time} {history : List (Transition ServerApp Server.Input)}
    {s : ServerApp} (hrun : ServerRun now history s) {p q : ConnectionPtr} (speaker : Speaker)
    (hsent : (Server.pieces p history).flatten <+: accepted speaker.allCalls)
    (listener : Follower history q) :
    ∃ heard lines, heard <+: announcedTo history q ∧
      listener.shown = heard.map (fun a => content a.packet) ∧ lines <:+: speaker.lines ∧
      (heard.filter (·.sender = some p)).map (fun a => content a.packet) =
        lines.map fun line => ⟨.printMessage, line, speaker.name⟩ := by
  obtain ⟨heard, hheard, hshown, hprinted⟩ := listener.shown_eq hrun
  obtain ⟨said, hsaid, hpackets⟩ := said_of_speaker hrun speaker hsent
  have hcontiguous : heard.filter (·.sender = some p) <:+: announcedBy p history := by
    have hreached : (announcedTo history q).filter (·.sender = some p) =
        (announcedBy p history).filter (·.reaches q) := List.filter_comm _ _ _
    have hfirst := hheard.filter (·.sender = some p)
    rw [hreached] at hfirst
    exact hfirst.isInfix.trans (Server.heard_contiguous hrun p q)
  obtain ⟨before, after, hsplit⟩ := hcontiguous
  rw [saidFor, ← hsplit, List.map_append, List.map_append] at hpackets
  obtain ⟨first, later, rfl, hfirst, -⟩ := List.append_eq_map_iff.mp hpackets
  obtain ⟨earlier, lines, rfl, -, hlines⟩ := List.append_eq_map_iff.mp hfirst.symm
  refine ⟨heard, lines, hheard, hshown, ?_, ?_⟩
  · exact List.IsInfix.trans ⟨earlier, later, rfl⟩ hsaid.isInfix
  · have hbar : bar ∉ speaker.name := by
      intro hmem
      simpa using List.mem_takeWhile_imp hmem
    have hheardBy : ∀ a ∈ heard.filter (·.sender = some p),
        a.packet.length ≤ intMax ∧ (content a.packet).status = .printMessage :=
      fun a ha => hprinted a (List.mem_of_mem_filter ha)
    calc (heard.filter (·.sender = some p)).map (fun a => content a.packet)
        = ((heard.filter (·.sender = some p)).map (·.packet)).map content := by
          rw [List.map_map]
          rfl
      _ = lines.map fun line => content (ServerApp.clientBroadcast speaker.name line) := by
          rw [← hlines, List.map_map]
          rfl
      _ = lines.map fun line => ⟨.printMessage, line, speaker.name⟩ := by
          apply List.map_congr_left
          intro line hline
          apply content_of_line hbar hheardBy
          rw [← hlines]
          exact List.mem_map_of_mem hline

def typingHello : List Client.Input :=
  [⟨.console [104, 101, 108, 108, 111, 10], 0, [], [], true⟩, ⟨.write, 0, [], [.wrote 17], true⟩]

theorem exists_speaker : ∃ speaker : Speaker, speaker.lines = [literal "hello"] ∧
    accepted speaker.allCalls = Server.loginPacket (literal "a") (literal "b") ++
      createPacketStream .message (literal "hello") := by
  obtain ⟨history, client, hrun, h⟩ := Run.exists_of_execute ClientApp.step typingHello
    chattingClient
    (fun _ client => ownMessages client.actions = [literal "hello"] ∧
      accepted (⟨createPacketStream .login (credentials (literal "a") (literal "b")), .wrote 15⟩ ::
          written client.actions) =
        Server.loginPacket (literal "a") (literal "b") ++
          createPacketStream .message (literal "hello"))
    (by decide +kernel)
  simp only [decide_eq_true_eq] at h
  let speaker : Speaker :=
    { username := literal "a"
      password := literal "b"
      username_le := by decide
      password_le := by decide
      start := establishedClient
      txQueue := rfl
      txOffset := rfl
      blank := rfl
      writes := [.wrote 15]
      reads := [.received (createPacketStream .ack (literal "OK|t"))]
      result := ⟨.success, literal "a", literal "t"⟩
      connection := establishedClient.connection
      calls := [⟨createPacketStream .login (credentials (literal "a") (literal "b")), .wrote 15⟩]
      login := by decide +kernel
      loggedIn := chattingClient
      accepts := rfl
      entered := chattingClient
      enters := ⟨0, true, true, true, rfl⟩
      history := history
      client := client
      run := hrun }
  exact ⟨speaker, h.1, h.2⟩

theorem lines_heard_hello :
    ∃ (history : List (Transition ServerApp Server.Input)) (speaker : Speaker)
      (listener : Follower history ⟨6, 1⟩) (heard : List Announcement) (lines : List Bytes),
      speaker.lines = [literal "hello"] ∧
      listener.shown = heard.map (fun a => content a.packet) ∧ lines <:+: speaker.lines ∧
      (heard.filter (·.sender = some ⟨5, 0⟩)).map (fun a => content a.packet) =
        lines.map fun line => ⟨.printMessage, line, speaker.name⟩ := by
  obtain ⟨history, s, hrun, h⟩ := Run.exists_of_execute Server.step greetings
    (Server.initialState 0)
    (fun history _ =>
      (Server.pieces ⟨5, 0⟩ history).flatten =
        Server.loginPacket (literal "a") (literal "b") ++
          createPacketStream .message (literal "hello") ∧
      Server.queuedDuring ⟨6, 1⟩ history = [welcome, hello, hi] ∧
      accepted (Server.callsDuring ⟨6, 1⟩ history) = [welcome, hello, hi].flatten)
    (by decide +kernel)
  obtain ⟨hpieces, hqueued, haccepted⟩ := of_decide_eq_true h
  obtain ⟨speaker, hlines, hwritten⟩ := exists_speaker
  let listener := Follower.ofTail [hello, hi] hqueued haccepted (by decide)
  have hsent : (Server.pieces ⟨5, 0⟩ history).flatten <+: accepted speaker.allCalls := by
    rw [hpieces, hwritten]
  obtain ⟨heard, lines, -, hshown, hinfix, hheard⟩ := lines_heard hrun speaker hsent listener
  exact ⟨history, speaker, listener, heard, lines, hlines, hshown, hinfix, hheard⟩

end TChat
