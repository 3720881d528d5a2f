import TChat.Client.Replies
import TChat.Server.FirstHandshake
import TChat.WriteQueues
/-!
# The first exchange on a connection

A client that has just connected sends its credentials and reads what comes back, while
the server takes any events in any order.  TLS is in between: it keeps the bytes and
their order in both directions, and cuts them anywhere.
-/

namespace TChat

open TChat.Common TChat.Lib TChat.Server

/-- A call of `login_client` or `register_client` that has come back from `flush_write`,
and a run of the server, in which the connection is `connection`. -/
structure Exchange (type : PacketType) where
  username : Bytes
  password : Bytes
  username_le : username.length ≤ Client.maxCredentialLength
  password_le : password.length ≤ Client.maxCredentialLength
  client : Client.ClientConnection
  established : ∃ fd ssl now, 0 ≤ fd ∧ client = .establish fd ssl now
  writes : List SslWrite
  writeStatus : FlushResult
  flushed : Client.ClientConnection
  calls : List SslWriteCall
  flush : Client.flushWrite (Client.queueWrite client
    (createPacketStream type (Client.credentials username password))) writes =
      some (writeStatus, flushed, calls)
  reads : List SslRead
  deliverable : ∀ piece, .received piece ∈ reads → Client.Deliverable piece
  start : Time
  history : List (Transition ServerApp Input)
  server : ServerApp
  run : ServerRun start history server
  connection : ConnectionPtr
  sent : (pieces connection history).flatten <+: accepted calls
  answered : Client.arrived reads <+: accepted (callsDuring connection history)

namespace Exchange

variable {type : PacketType}

def payload (e : Exchange type) : Bytes := Client.credentials e.username e.password

def packet (e : Exchange type) : Bytes := createPacketStream type e.payload

/-- What the server reads out of the packet: a name ends at the first delimiter. -/
def request (e : Exchange type) (kind : HandshakeKind) : HandshakeRequest :=
  ⟨kind, e.payload.takeWhile (· ≠ bar), (e.payload.dropWhile (· ≠ bar)).drop 1, []⟩

/-- The step handles a handshake on the connection. -/
def Handles (e : Exchange type) (t : Transition ServerApp Input) (request : HandshakeRequest) :
    Prop :=
  t ∈ e.history ∧ handshake? t.input t.pre = some (e.connection, request)

/-- The first packet that the server has queued on the connection has arrived in full. -/
def Replied (e : Exchange type) : Prop :=
  ∃ reply more, queuedDuring e.connection e.history = reply :: more ∧
    reply <+: Client.arrived e.reads

section

variable (e : Exchange type)

theorem bar_mem_payload : bar ∈ e.payload := by
  have hbar : bar ∈ literal "|" := by decide
  simp [payload, Client.credentials, hbar]

theorem length_payload_le : e.payload.length ≤ 71 := by
  have husername := e.username_le
  have hpassword := e.password_le
  have hbar : (literal "|").length = 1 := by decide
  unfold Client.maxCredentialLength at husername hpassword
  simp only [payload, Client.credentials, List.length_append, hbar]
  omega

theorem isPacket : IsPacket type e.payload e.packet := by
  have hlength := e.length_payload_le
  exact isPacket_createPacketStream type (by omega)

theorem length_packet_le : e.packet.length ≤ maxHandshakePayload := by
  have hlength := e.length_payload_le
  rw [e.isPacket.length_eq]
  unfold headerSize maxHandshakePayload
  omega

theorem request_payload (kind : HandshakeKind) :
    (e.request kind).username ++ literal "|" ++ (e.request kind).password = e.payload := by
  have hsplit {payload : Bytes} (hbar : bar ∈ payload) :
      payload.takeWhile (· ≠ bar) ++ bar :: (payload.dropWhile (· ≠ bar)).drop 1 = payload := by
    induction payload with
    | nil => simp at hbar
    | cons byte payload ih =>
        by_cases hbyte : byte = bar
        · simp [hbyte]
        · have hrest : bar ∈ payload := by simpa [Ne.symm hbyte] using hbar
          simpa [hbyte] using ih hrest
  have hbar : literal "|" = [bar] := by decide
  rw [request, hbar, List.append_assoc, List.singleton_append]
  exact hsplit e.bar_mem_payload

theorem isHandshake {kind : HandshakeKind}
    (hkind : ∀ username password, handshakeRequest (some type) username password =
      ⟨.validAuthPacket, ⟨kind, username, password, []⟩⟩) :
    IsHandshake (e.request kind) e.packet :=
  isHandshake_of_isPacket e.isPacket e.length_packet_le e.bar_mem_payload (hkind _ _)

theorem client_open : 0 ≤ e.client.fd ∧ e.client.ssl ≠ none := by
  obtain ⟨fd, ssl, now, hfd, hclient⟩ := e.established
  rw [hclient]
  exact ⟨hfd, Option.some_ne_none _⟩

theorem flushed_spec :
    ∃ flush, flushLoop Client.storeOffset e.writes
        (e.client.toOutgoing.queueWrite e.packet) = some flush ∧
      flush.result = e.writeStatus ∧ e.flushed = e.client.withOutgoing flush.outgoing ∧
      flush.calls = e.calls :=
  client_flushWrite (c := Client.queueWrite e.client e.packet) e.client_open.2 e.flush

theorem client_live : e.flushed.Live ∧ e.flushed.rxBuffer = [] := by
  obtain ⟨fd, ssl, now, -, hclient⟩ := e.established
  obtain ⟨flush, -, -, hflushed, -⟩ := e.flushed_spec
  have hstatus : e.client.status = .awaitingAuth := hclient ▸ rfl
  have hbuffer : e.client.rxBuffer = [] := hclient ▸ rfl
  rw [hflushed]
  refine ⟨⟨e.client_open.1, e.client_open.2, ?_⟩, hbuffer⟩
  simp [Client.ClientConnection.withOutgoing, hstatus]

/-- What the client has written is the beginning of its packet, and all of it if and only if
`flush_write` says so. -/
theorem written : accepted e.calls <+: e.packet ∧
    (e.writeStatus = .queueEmpty ↔ accepted e.calls = e.packet) := by
  have hstore : ∀ n ≤ intMax, Client.storeOffset n = n := fun _ => Client.storeOffset_of_le
  obtain ⟨fd, ssl, now, -, hclient⟩ := e.established
  obtain ⟨flush, hflush, hresult, -, hcalls⟩ := e.flushed_spec
  have hqueued : Transmission Client.storeOffset [e.packet] []
      (e.client.toOutgoing.queueWrite e.packet) := by
    rw [hclient]
    exact .queued .fresh
  have hconserved := ((hqueued.flushed hflush).transmitted hstore).conserved
  have hempty := reportsEmpty_of_flushed hstore hqueued hflush
  rw [ReportsEmpty, hresult, hcalls] at hempty
  rw [List.nil_append, List.flatten_singleton] at hconserved hempty
  rw [hcalls] at hconserved
  exact ⟨⟨_, hconserved⟩, hempty⟩

theorem cut : (pieces e.connection e.history).flatten <+: e.packet :=
  e.sent.trans e.written.1

end

/-! ## The step that handles the packet -/

section

variable {e : Exchange type} {kind : HandshakeKind} {t : Transition ServerApp Input}
  {request : HandshakeRequest}

theorem exists_handles (hpacket : IsHandshake (e.request kind) e.packet)
    (h : queuedDuring e.connection e.history ≠ []) : ∃ t request, e.Handles t request := by
  rcases waiting_or_handled e.run hpacket e.cut with hwaiting | ⟨before, t, after, hsplit, hhandled⟩
  · exact absurd hwaiting.silent h
  · exact ⟨t, _, by rw [hsplit]; simp, hhandled.handshake⟩

theorem Handles.handled (h : e.Handles t request)
    (hpacket : IsHandshake (e.request kind) e.packet) :
    request = e.request kind ∧ e.writeStatus = .queueEmpty ∧
      ∃ before after, e.history = before ++ t :: after ∧ queuedDuring e.connection before = [] ∧
        ServerRun e.start before t.pre ∧ step t.input t.pre = .ok t.post ∧
        Run step t.post after e.server := by
  obtain ⟨hmem, hhandshake⟩ := h
  obtain ⟨before, after, hsplit⟩ := List.append_of_mem hmem
  have hrun := e.run
  have hcut := e.cut
  rw [hsplit] at hrun hcut
  obtain ⟨hhandled, hrequest⟩ := handled_of_handshake hrun hpacket hcut hhandshake
  refine ⟨hrequest, ?_, before, after, hsplit, hhandled.silent, hrun.split⟩
  -- the server has all of it, so the client has written all of it
  have hall : (pieces e.connection (before ++ [t])).flatten <+:
      (pieces e.connection e.history).flatten :=
    pieces_mono e.connection ⟨after, by rw [hsplit]; simp⟩
  rw [hhandled.whole] at hall
  exact e.written.2.mpr (e.written.1.eq_of_length_le (hall.trans e.sent).length_le)

end

end Exchange

/-! ## A sample exchange -/

def writing (fd : Fd) (outcomes : List SslWrite) : Input :=
  { Input.sample with
    event := .write fd
    sslWrite := outcomes }

/-- The user "a" with the password "b|c" on the first connection of a server that takes these
inputs. -/
theorem exists_exchange (type : PacketType) (inputs : List Input) (reads : List SslRead)
    (property : List (Transition ServerApp Input) → Bool)
    (hreads : ∀ piece, .received piece ∈ reads → Client.Deliverable piece)
    (h : Run.reaches step inputs (initialState 0) (fun history _ =>
      decide ((pieces ⟨5, 0⟩ history).flatten <+:
          createPacketStream type (Client.credentials (literal "a") (literal "b|c")) ∧
        Client.arrived reads <+: accepted (callsDuring ⟨5, 0⟩ history)) &&
      property history) = true) :
    ∃ e : Exchange type, e.username = literal "a" ∧ e.password = literal "b|c" ∧
      e.client = .establish 3 0 0 ∧ e.writes = [.wrote 17] ∧ e.reads = reads ∧
      e.connection = ⟨5, 0⟩ ∧ property e.history = true := by
  obtain ⟨history, s, hrun, h⟩ := Run.exists_of_execute _ _ _ _ h
  simp only [Bool.and_eq_true, decide_eq_true_eq] at h
  obtain ⟨⟨hsent, hanswered⟩, hproperty⟩ := h
  have hflush := show Client.flushWrite (Client.queueWrite (.establish 3 0 0)
      (createPacketStream type (Client.credentials (literal "a") (literal "b|c"))))
        [.wrote 17] = some (.queueEmpty, _, _) from rfl
  exact ⟨
    { username := literal "a"
      password := literal "b|c"
      username_le := by decide
      password_le := by decide
      client := .establish 3 0 0
      established := ⟨3, 0, 0, by decide, rfl⟩
      writes := [.wrote 17]
      writeStatus := .queueEmpty
      flushed := _
      calls := _
      flush := hflush
      reads := reads
      deliverable := hreads
      start := 0
      history := history
      server := s
      run := hrun
      connection := ⟨5, 0⟩
      sent := hsent
      answered := hanswered }, rfl, rfl, rfl, rfl, rfl, rfl, hproperty⟩

end TChat
