import TChat.Client.Io
import TChat.Server.Pings
/-!
# A line in one TLS record

A user's line goes out as one packet, and a packet that is sent at once arrives as one
record.  The server makes one call of `SSL_read` for each readiness of the socket, into a
buffer of 1024 bytes.  The console lets a line grow to 1024 characters and the header
takes 12 bytes more, so the longest lines do not fit, and the socket does not become
readable again for what is left of them.
-/

namespace TChat

open TChat.Common TChat.Lib TChat.Server

/-- The client's console takes some keys for the line. -/
def Accepted (line : Bytes) : Prop :=
  ∃ keys rest, Client.readConsoleInput keys [] = some (⟨.message, line⟩, rest)

def linePacket (line : Bytes) : Bytes := createPacketStream .message line

/-- A call of `SSL_read` with a buffer of `size` bytes when a record has arrived: what it
returns, and what the SSL object keeps. -/
def sslReadRecord (size : Nat) (record : Bytes) : Bytes × Bytes := record.splitAt size

structure Arrives (record : Bytes) (i : Input) (c : ClientConnection) : Prop where
  event : i.event = .read c.fd
  outcome : readOutcome i.sslRead = some (.received (sslReadRecord readBufferSize record).1)

/-- The line of the user behind `p` is broadcast under the user's name, and queued for
all others. -/
def BroadcastFrom (p : ConnectionPtr) (line : Bytes) (s s' : ServerApp) : Prop :=
  ∃ u x, s.sessions.find? u = some x ∧ x.connection = some p ∧
    .broadcast (some p) (ServerApp.clientBroadcast u line) ∈ s'.actions ∧
    ∀ q, s.Hears (some p) q → .queueWrite q (ServerApp.clientBroadcast u line) ∈ s'.actions

/-- The line is dealt with, and the SSL object has nothing left of its record. -/
def ServedWhole (line : Bytes) (i : Input) (s : ServerApp) (p : ConnectionPtr) : Prop :=
  (∃ s', step i s = .ok s' ∧ BroadcastFrom p line s s') ∧
    (sslReadRecord readBufferSize (linePacket line)).2 = []

section

variable {i : Input} {s : ServerApp} {p : ConnectionPtr} {c : ClientConnection} {line : Bytes}

theorem sslReadRecord_fits {record : Bytes} {size : Nat} (h : record.length ≤ size) :
    sslReadRecord size record = (record, []) := by
  rw [sslReadRecord, List.splitAt_eq, List.take_of_length_le h, List.drop_of_length_le h]

theorem kept_eq_nil_iff {record : Bytes} {size : Nat} :
    (sslReadRecord size record).2 = [] ↔ record.length ≤ size := by
  rw [sslReadRecord, List.splitAt_eq, List.drop_eq_nil_iff]

theorem length_linePacket (line : Bytes) : (linePacket line).length = headerSize + line.length := by
  rw [linePacket, length_createPacketStream]

theorem streams_linePacket (hidle : Idle c) (harrives : Arrives (linePacket line) i c)
    (hfits : headerSize + line.length ≤ readBufferSize) :
    Streams i c ⟨.printMessage, line, []⟩ := by
  have hlength := length_linePacket line
  have hread : readOutcome i.sslRead = some (.received (linePacket line)) := by
    rw [harrives.outcome, sslReadRecord_fits (hlength.trans_le hfits)]
  have hnonempty : linePacket line ≠ [] := by
    apply List.ne_nil_of_length_pos
    rw [hlength, headerSize]
    omega
  have hreceives : Receives i c (linePacket line) :=
    hidle.receives harrives.event hread hnonempty (hlength.trans_le hfits)
  refine ⟨_, hreceives, hidle.authenticated, ?_⟩
  have hsmall : line.length < 2 ^ 32 := by
    unfold readBufferSize at hfits
    omega
  have hpacket := isPacket_createPacketStream .message hsmall
  have hframed : Framed (linePacket line) := by
    have hsize := hpacket.totalSize []
    rw [List.append_nil] at hsize
    exact ⟨by omega, hpacket.magic, hsize⟩
  have hpayload := hpacket.payload_append []
  rw [List.append_nil] at hpayload
  have hparsed := processClientStream_framed hframed []
  rw [List.append_nil] at hparsed
  rw [hidle.rxBuffer, List.nil_append, hparsed, linePacket, packetType?_createPacketStream,
    hpayload]

theorem broadcastFrom_of_streams (hwf : WellFormed s) (hp : s.deref p = some c)
    {stream : ClientStream} (hstreams : Streams i c stream)
    (hmessage : stream.result = .printMessage) (hpossible : i.Possible s) :
    (∃ s', step i s = .ok s' ∧ BroadcastFrom p stream.message s s') ↔
      ClientManager.findSesssionFromConnection p s ≠ none := by
  cases hsession : ClientManager.findSesssionFromConnection p s with
  | none =>
      have hstep := step_streams hwf hp hstreams hpossible
      rw [hsession, hmessage] at hstep
      simp [hstep, ServerApp.handleProcessStreamResult]
  | some session =>
      have hstep := step_relayed hwf hp hstreams hmessage hsession hpossible
      obtain ⟨audience, -, haudience, hactions⟩ := relayed_actions (i := i) hp stream.rxBuffer
        (ServerApp.clientBroadcast session.username stream.message)
      obtain ⟨hconnection, u, hu⟩ := findSession_some hsession
      rw [(hwf.sessions hu).username_eq] at hstep hactions
      simp only [ne_eq, reduceCtorEq, not_false_eq_true, iff_true]
      refine ⟨_, hstep, u, session, hu, hconnection, ?_, fun q hq => ?_⟩
      · rw [hactions]
        exact List.mem_cons_self
      · rw [hactions]
        exact List.mem_cons_of_mem _ (List.mem_map_of_mem ((haudience q).mpr hq))

end

/-- In every reachable state a line that arrives as one record on an idle connection is
dealt with whole if and only if it has at most 1012 characters and the connection has its
session. -/
theorem lines_served_whole {now : Time} {history : List (Transition ServerApp Input)}
    {s : ServerApp} (hrun : ServerRun now history s) {line : Bytes} {i : Input}
    {p : ConnectionPtr} {c : ClientConnection} (hp : s.deref p = some c) (hidle : Idle c)
    (harrives : Arrives (linePacket line) i c) (hpossible : i.Possible s) :
    ServedWhole line i s p ↔
      line.length ≤ readBufferSize - headerSize ∧
        ClientManager.findSesssionFromConnection p s ≠ none := by
  have hwf := wellFormed_of_run hrun
  have hlength : headerSize + line.length ≤ readBufferSize ↔
      line.length ≤ readBufferSize - headerSize := by
    rw [add_comm, Nat.le_sub_iff_add_le (by decide)]
  rw [ServedWhole, kept_eq_nil_iff, length_linePacket, hlength, and_comm]
  refine and_congr_right fun hshort => ?_
  have hstreams := streams_linePacket hidle harrives (hlength.mpr hshort)
  have hserved := broadcastFrom_of_streams hwf hp hstreams rfl hpossible
  exact hserved

def servingRecord (fd : Fd) (record : Bytes) : Input :=
  receiving fd (sslReadRecord readBufferSize record).1

theorem arrives_servingRecord {c : ClientConnection} {fd : Fd} (hfd : c.fd = fd)
    (record : Bytes) : Arrives record (servingRecord fd record) c := by
  rw [← hfd]
  exact ⟨rfl, rfl⟩

theorem lines_served_whole_hello : ∃ history s, ServerRun 0 history s ∧
    ServedWhole (literal "hello") (servingRecord 5 (linePacket (literal "hello"))) s ⟨5, 0⟩ := by
  obtain ⟨history, s, c, hrun, hclock, hp, hfd, hidle, hsession⟩ := exists_idle
  exact ⟨history, s, hrun, (lines_served_whole hrun hp hidle (arrives_servingRecord hfd _)
    (receiving_possible hclock _ _)).mpr ⟨by decide, hsession⟩⟩

theorem readConsoleInput_replicate (n : Nat) (keys : List Int) {inputBuffer : Bytes}
    (h : inputBuffer.length + n ≤ maxInputLength) :
    Client.readConsoleInput (List.replicate n 120 ++ keys) inputBuffer =
      Client.readConsoleInput keys (inputBuffer ++ List.replicate n 120) := by
  induction n generalizing inputBuffer with
  | zero => simp
  | succ n ih =>
      have hroom : inputBuffer.length < maxInputLength := by omega
      have hmore : (inputBuffer ++ [(120 : UInt8)]).length + n ≤ maxInputLength := by
        rw [List.length_append, List.length_singleton]
        omega
      have hkey : Client.readConsoleInput (120 :: (List.replicate n 120 ++ keys)) inputBuffer =
          if inputBuffer.length < maxInputLength then
            Client.readConsoleInput (List.replicate n 120 ++ keys) (inputBuffer ++ [120])
          else Client.readConsoleInput (List.replicate n 120 ++ keys) inputBuffer := rfl
      rw [List.replicate_succ, List.cons_append, hkey, if_pos hroom, ih hmore,
        List.replicate_succ, List.append_assoc, List.singleton_append]

theorem accepted_long : Accepted (List.replicate 1013 120) := by
  refine ⟨List.replicate 1013 120 ++ [10], [], ?_⟩
  have hroom : ([] : Bytes).length + 1013 ≤ maxInputLength := by decide
  rw [readConsoleInput_replicate 1013 [10] hroom]
  decide +kernel

/-- Of a line of 1013 characters the last stays inside the SSL object. -/
theorem long_lines_kept_back : ¬∀ now history s line i p c, ServerRun now history s →
    Accepted line → s.deref p = some c → Idle c → Arrives (linePacket line) i c →
    i.Possible s → ClientManager.findSesssionFromConnection p s ≠ none →
    ServedWhole line i s p := by
  intro h
  obtain ⟨history, s, c, hrun, hclock, hp, hfd, hidle, hsession⟩ := exists_idle
  obtain ⟨-, hkept⟩ := h 0 history s _ _ _ c hrun accepted_long hp hidle
    (arrives_servingRecord hfd _) (receiving_possible hclock _ _) hsession
  rw [kept_eq_nil_iff, length_linePacket, List.length_replicate] at hkept
  exact absurd hkept (by decide)

end TChat
