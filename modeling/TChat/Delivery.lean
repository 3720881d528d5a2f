import TChat.Client.Receiving
import TChat.WriteQueues
/-!
# From the server's queue to the client's handler

Packets that the client's grammar admits are queued on a connection of the server,
sent in any number of writes, cut into any pieces and read by the client.  What it
hands to `handle_process_stream_result` is what was said, in order.
-/

namespace TChat

open TChat.Common TChat.Lib TChat.Client

/-- What the server may say to a client in one packet. -/
inductive Utterance
  | ack (payload : Bytes)
  | error (payload : Bytes)
  | pong (payload : Bytes)
  | server (text : Bytes)
  | client (name text : Bytes)
  deriving DecidableEq

namespace Utterance

def type : Utterance → PacketType
  | .ack _ => .ack
  | .error _ => .error
  | .pong _ => .pong
  | .server _ => .message
  | .client _ _ => .message

def payload : Utterance → Bytes
  | .ack payload => payload
  | .error payload => payload
  | .pong payload => payload
  | .server text => literal "S|" ++ text
  | .client name text => literal "U|" ++ name ++ literal "|" ++ text

def packet (u : Utterance) : Bytes := createPacketStream u.type u.payload

/-- Whether the client's grammar admits it. -/
def Admitted (u : Utterance) : Prop :=
  u.payload.length ≤ maxMessagePayloadSize ∧
    match u with
    | .client name _ => name ≠ [] ∧ bar ∉ name
    | _ => True

instance (u : Utterance) : Decidable u.Admitted :=
  match u with
  | .client name _ => inferInstanceAs (Decidable (_ ∧ name ≠ [] ∧ bar ∉ name))
  | .ack _ | .error _ | .pong _ | .server _ => inferInstanceAs (Decidable (_ ∧ True))

/-- What the client is to make of it: the kind, the text and the sender. -/
def content : Utterance → ProcessStreamResult
  | .ack payload => ⟨.acknowledgement, payload, []⟩
  | .error payload => ⟨.errorAck, payload, []⟩
  | .pong _ => ⟨.receivedPong, [], []⟩
  | .server text => ⟨.printMessage, text, literal "SERVER"⟩
  | .client name text => ⟨.printMessage, text, name⟩

theorem readPayload_admitted {u : Utterance} (h : u.Admitted) :
    readPayload (some u.type) u.payload = u.content := by
  cases u with
  | ack | error | pong => rfl
  | server text => exact readMessage_server text
  | client name text => exact (readMessage_client h.2.2 text).trans (if_neg h.2.1)

theorem content_waits (u : Utterance) :
    u.content.waits = false ∧ u.content.status ≠ .invalidProtocolError := by
  cases u <;> simp [content, ProcessStreamResult.waits]

theorem packets_front {u : Utterance} (h : u.Admitted) (more : Bytes) :
    packets.front (u.packet ++ more) = .item u.content more := by
  have hlength : u.payload.length < 2 ^ 32 := by
    have hfits := h.1
    unfold maxMessagePayloadSize at hfits
    omega
  have hfront := packets_front_isPacket (isPacket_createPacketStream u.type hlength) h.1
    (by rw [readPayload_admitted h]; exact u.content_waits.2) more
  rwa [readPayload_admitted h] at hfront

theorem drain_packets {us : List Utterance} (h : ∀ u ∈ us, u.Admitted) :
    packets.drain (us.map packet).flatten = ⟨us.map content, some []⟩ := by
  rw [← List.flatMap_def]
  exact Reader.drain_encoded packets_front_nil fun u hu more => packets_front (h u hu) more

end Utterance

/-- For any list of packets that the client's grammar admits, queued on a connection of
the server in any interleaving with flushes, any outcomes of `SSL_write`, and any pieces
into which the bytes handed over so far are cut: what the client has handled is the
beginning of what was said, and all of it, with nothing left in `rx_buffer`, once all
bytes have arrived. -/
theorem packets_delivered {us : List Utterance} (hus : ∀ u ∈ us, u.Admitted)
    {start c : Server.ClientConnection} {calls : List SslWriteCall} (hssl : start.ssl ≠ none)
    (hempty : start.txQueue = []) (hzero : start.txOffset = 0)
    (hsent : QueueHistory Server.queueWrite Server.flushWrite start (us.map (·.packet)) calls c)
    {s : ClientApp} (hlive : s.connection.Live) (hbuffer : s.connection.rxBuffer = [])
    {pieces : List (Int × Bytes)} (hpieces : ∀ piece ∈ pieces, Deliverable piece.2)
    (hcut : (pieces.map (·.2)).flatten <+: accepted calls) :
    ∃ results, understood (s.deliverAll pieces).actions = understood s.actions ++ results ∧
      results <+: us.map (·.content) ∧
      ((pieces.map (·.2)).flatten = (us.map (·.packet)).flatten →
        results = us.map (·.content) ∧ (s.deliverAll pieces).connection.rxBuffer = []) := by
  have hserver : ∀ n ≤ intMax, Server.storeOffset n = n := fun _ => Server.storeOffset_of_le
  obtain ⟨htransmission, -⟩ := server_transmission hssl hempty hzero hsent
  have hconserved := (htransmission.transmitted hserver).conserved
  have hprefix : (pieces.map (·.2)).flatten <+: (us.map (·.packet)).flatten :=
    hcut.trans ⟨_, hconserved⟩
  have hdrain := Utterance.drain_packets hus
  have hresponded := ClientApp.deliverAll_fresh hlive hbuffer hpieces
  refine ⟨(packets.drain (pieces.map (·.2)).flatten).results, hresponded.understood_eq, ?_,
    fun hall => ?_⟩
  · have hresults := packets.results_prefix hprefix
    rwa [hdrain] at hresults
  · rw [hall, hdrain] at hresponded ⊢
    obtain ⟨-, _, _, -, hconnection⟩ := hresponded.goesOn [] rfl
    exact ⟨rfl, by rw [hconnection]⟩

/-- An acknowledgement and a message with a bar in it, sent in two writes and read in two
pieces that are cut elsewhere. -/
theorem packets_delivered_twoPieces :
    let us : List Utterance := [.ack (literal "OK"), .client (literal "a") (literal "x|y")]
    let stream := (us.map (·.packet)).flatten
    let pieces : List (Int × Bytes) := [(0, stream.take 20), (1, stream.drop 20)]
    ∃ calls c, QueueHistory Server.queueWrite Server.flushWrite (.create 0 5 (some 0) 0)
        (us.map (·.packet)) calls c ∧ accepted calls = stream ∧
      understood (establishedClient.deliverAll pieces).actions = us.map (·.content) ∧
      (establishedClient.deliverAll pieces).connection.rxBuffer = [] := by
  intro us stream pieces
  have hus : ∀ u ∈ us, u.Admitted := by decide +kernel
  have hqueued : QueueHistory Server.queueWrite Server.flushWrite (.create 0 5 (some 0) 0)
      (us.map (·.packet)) [] _ := .queued (.queued .start)
  have hflushed := hqueued.flushed
    (show Server.flushWrite _ [.wrote 14, .wrote 19] = some _ from rfl)
  have hpieces : ∀ piece ∈ pieces, Deliverable piece.2 := by decide +kernel
  have hall : (pieces.map (·.2)).flatten = stream := by decide +kernel
  refine ⟨_, _, hflushed, ?haccepted, ?_⟩
  case haccepted => decide +kernel
  obtain ⟨results, hunderstood, -, hwhole⟩ := packets_delivered hus (by decide) rfl rfl hflushed
    establishedClient_live rfl hpieces (by rw [hall]; decide +kernel)
  obtain ⟨rfl, hbuffer⟩ := hwhole hall
  exact ⟨hunderstood, hbuffer⟩

end TChat
