import TChat.Client.Io
import TChat.Common.Transmission
import TChat.Server.Proofs.Preservation
/-!
# The write queues of both programs

The server and the client have their own `queue_write` and `flush_write`.  Over
any history of calls both deliver what was queued, in order and once.
-/

namespace TChat

open TChat.Common

/-- A history of calls of `queue_write` and `flush_write` on a connection: the
packets queued, the calls of `SSL_write` made, and the record they leave. -/
inductive QueueHistory {C : Type} (queueWrite : C → Bytes → C)
    (flushWrite : C → List SslWrite → Option (FlushResult × C × List SslWriteCall))
    (start : C) : List Bytes → List SslWriteCall → C → Prop
  | start : QueueHistory queueWrite flushWrite start [] [] start
  | queued {queued : List Bytes} {calls : List SslWriteCall} {c : C} {data : Bytes} :
      QueueHistory queueWrite flushWrite start queued calls c →
      QueueHistory queueWrite flushWrite start (queued ++ [data]) calls (queueWrite c data)
  | flushed {queued : List Bytes} {calls new : List SslWriteCall} {c c' : C}
      {outcomes : List SslWrite} {result : FlushResult} :
      QueueHistory queueWrite flushWrite start queued calls c →
      flushWrite c outcomes = some (result, c', new) →
      QueueHistory queueWrite flushWrite start queued (calls ++ new) c'

/-- What a history leaves: nothing lost, duplicated or reordered, the offset inside
the front packet, and every call that failed repeated with the same bytes. -/
structure QueueKept (queued : List Bytes) (calls : List SslWriteCall) (out : Outgoing) :
    Prop where
  conserved : accepted calls ++ out.unsent = queued.flatten
  offset_empty : out.txQueue = [] → out.txOffset = 0
  offset_front : ∀ packet rest, out.txQueue = packet :: rest → packet ≠ [] →
    out.txOffset < packet.length
  retries : RetriesSame calls

/-- A flush reports an empty queue exactly when everything queued has been taken. -/
def ReportsEmpty (queued : List Bytes) (calls new : List SslWriteCall) (result : FlushResult) :
    Prop :=
  result = .queueEmpty ↔ accepted (calls ++ new) = queued.flatten

section

variable {queued : List Bytes} {calls : List SslWriteCall} {out : Outgoing}

theorem queueKept_of_transmitted (h : Transmitted queued calls out) :
    QueueKept queued calls out := by
  refine ⟨h.conserved, h.consistent.offset_empty, ?_, h.retries⟩
  intro packet rest hqueue hpacket
  rcases h.consistent.offset_front packet rest hqueue with hzero | ⟨hlt, _⟩
  · rw [hzero]
    exact List.length_pos_iff.mpr hpacket
  · exact hlt

theorem reportsEmpty_of_flushed {store : Nat → Nat} (hstore : ∀ n ≤ intMax, store n = n)
    (h : Transmission store queued calls out) {outcomes : List SslWrite} {flush : Flush}
    (hflush : flushLoop store outcomes out = some flush) :
    ReportsEmpty queued calls flush.calls flush.result := by
  have hspec := flushLoop_spec hstore (h.transmitted hstore).consistent hflush
  have hconserved := ((h.flushed hflush).transmitted hstore).conserved
  rw [ReportsEmpty, hspec.empty_iff, ← hconserved, List.self_eq_append_right]

end

/-! ## The two versions -/

section

variable {queued : List Bytes} {calls : List SslWriteCall}

theorem server_flushWrite {c c' : Server.ClientConnection} {outcomes : List SslWrite}
    {result : FlushResult} {new : List SslWriteCall} (hssl : c.ssl ≠ none)
    (h : Server.flushWrite c outcomes = some (result, c', new)) :
    ∃ flush, flushLoop Server.storeOffset outcomes c.toOutgoing = some flush ∧
      flush.result = result ∧ c' = c.withOutgoing flush.outgoing ∧ flush.calls = new := by
  obtain ⟨ssl, hsome⟩ := Option.ne_none_iff_exists'.mp hssl
  simp only [Server.flushWrite, hsome, Option.map_eq_some_iff, Prod.mk.injEq] at h
  obtain ⟨flush, hflush, hresult, hc', hcalls⟩ := h
  exact ⟨flush, hflush, hresult, hc'.symm, hcalls⟩

theorem client_flushWrite {c c' : Client.ClientConnection} {outcomes : List SslWrite}
    {result : FlushResult} {new : List SslWriteCall} (hssl : c.ssl ≠ none)
    (h : Client.flushWrite c outcomes = some (result, c', new)) :
    ∃ flush, flushLoop Client.storeOffset outcomes c.toOutgoing = some flush ∧
      flush.result = result ∧ c' = c.withOutgoing flush.outgoing ∧ flush.calls = new := by
  obtain ⟨ssl, hsome⟩ := Option.ne_none_iff_exists'.mp hssl
  simp only [Client.flushWrite, hsome, Option.map_eq_some_iff, Prod.mk.injEq] at h
  obtain ⟨flush, hflush, hresult, hc', hcalls⟩ := h
  exact ⟨flush, hflush, hresult, hc'.symm, hcalls⟩

theorem transmission_of_history {C : Type} {store : Nat → Nat} (outgoing : C → Outgoing)
    (live : C → Prop) (queueWrite : C → Bytes → C)
    {flushWrite : C → List SslWrite → Option (FlushResult × C × List SslWriteCall)}
    (hqueue : ∀ {c data}, outgoing (queueWrite c data) = (outgoing c).queueWrite data ∧
      (live c → live (queueWrite c data)))
    (hflush : ∀ {c c' outcomes result new}, live c →
      flushWrite c outcomes = some (result, c', new) →
      ∃ flush, flushLoop store outcomes (outgoing c) = some flush ∧ flush.result = result ∧
        outgoing c' = flush.outgoing ∧ live c' ∧ flush.calls = new)
    {start c : C} (hlive : live start) (hempty : (outgoing start).txQueue = [])
    (hzero : (outgoing start).txOffset = 0)
    (h : QueueHistory queueWrite flushWrite start queued calls c) :
    Transmission store queued calls (outgoing c) ∧ live c := by
  induction h with
  | start =>
      refine ⟨?_, hlive⟩
      have hstart : outgoing start = ⟨[], 0, (outgoing start).writeWaitingForRead⟩ := by
        rw [← hempty, ← hzero]
      rw [hstart]
      exact .fresh
  | queued _ ih =>
      rw [hqueue.1]
      exact ⟨ih.1.queued, hqueue.2 ih.2⟩
  | flushed _ hcall ih =>
      obtain ⟨flush, hloop, _, hout, hlive', rfl⟩ := hflush ih.2 hcall
      rw [hout]
      exact ⟨ih.1.flushed hloop, hlive'⟩

theorem server_transmission {start c : Server.ClientConnection} (hssl : start.ssl ≠ none)
    (hempty : start.txQueue = []) (hzero : start.txOffset = 0)
    (h : QueueHistory Server.queueWrite Server.flushWrite start queued calls c) :
    Transmission Server.storeOffset queued calls c.toOutgoing ∧ c.ssl ≠ none := by
  refine transmission_of_history Server.ClientConnection.toOutgoing (·.ssl ≠ none)
    Server.queueWrite ⟨rfl, id⟩ ?_ hssl hempty hzero h
  intro c c' outcomes result new hlive hcall
  obtain ⟨flush, hflush, hresult, rfl, hcalls⟩ := server_flushWrite hlive hcall
  exact ⟨flush, hflush, hresult, rfl, hlive, hcalls⟩

theorem client_transmission {start c : Client.ClientConnection} (hssl : start.ssl ≠ none)
    (hempty : start.txQueue = []) (hzero : start.txOffset = 0)
    (h : QueueHistory Client.queueWrite Client.flushWrite start queued calls c) :
    Transmission Client.storeOffset queued calls c.toOutgoing ∧ c.ssl ≠ none := by
  refine transmission_of_history Client.ClientConnection.toOutgoing (·.ssl ≠ none)
    Client.queueWrite ⟨rfl, id⟩ ?_ hssl hempty hzero h
  intro c c' outcomes result new hlive hcall
  obtain ⟨flush, hflush, hresult, rfl, hcalls⟩ := client_flushWrite hlive hcall
  exact ⟨flush, hflush, hresult, rfl, hlive, hcalls⟩

end

/-- On a connection of the server or of the client whose queue starts empty, any
history of `queue_write` and `flush_write` keeps the queue, and every flush reports
an empty queue exactly when everything has been taken. -/
theorem write_queues_kept :
    (∀ start queued calls c, start.ssl ≠ none → start.txQueue = [] → start.txOffset = 0 →
      QueueHistory Server.queueWrite Server.flushWrite start queued calls c →
      QueueKept queued calls c.toOutgoing ∧
      ∀ outcomes result c' new, Server.flushWrite c outcomes = some (result, c', new) →
        ReportsEmpty queued calls new result) ∧
    (∀ start queued calls c, start.ssl ≠ none → start.txQueue = [] → start.txOffset = 0 →
      QueueHistory Client.queueWrite Client.flushWrite start queued calls c →
      QueueKept queued calls c.toOutgoing ∧
      ∀ outcomes result c' new, Client.flushWrite c outcomes = some (result, c', new) →
        ReportsEmpty queued calls new result) := by
  have hserver : ∀ n ≤ intMax, Server.storeOffset n = n := fun _ => Server.storeOffset_of_le
  have hclient : ∀ n ≤ intMax, Client.storeOffset n = n := fun _ => Client.storeOffset_of_le
  constructor
  · intro start queued calls c hssl hempty hzero h
    obtain ⟨htransmission, hlive⟩ := server_transmission hssl hempty hzero h
    refine ⟨queueKept_of_transmitted (htransmission.transmitted hserver), ?_⟩
    intro outcomes result c' new hflush
    obtain ⟨flush, hloop, rfl, _, rfl⟩ := server_flushWrite hlive hflush
    exact reportsEmpty_of_flushed hserver htransmission hloop
  · intro start queued calls c hssl hempty hzero h
    obtain ⟨htransmission, hlive⟩ := client_transmission hssl hempty hzero h
    refine ⟨queueKept_of_transmitted (htransmission.transmitted hclient), ?_⟩
    intro outcomes result c' new hflush
    obtain ⟨flush, hloop, rfl, _, rfl⟩ := client_flushWrite hlive hflush
    exact reportsEmpty_of_flushed hclient htransmission hloop

/-- `write_queues_kept` for a packet that leaves the client in two writes with a
wait in between. -/
theorem write_queues_kept_partial :
    ∃ calls c, QueueHistory Client.queueWrite Client.flushWrite
        (Client.ClientConnection.establish 3 0 0) [literal "ab"] calls c ∧
      accepted calls = literal "a" ∧ QueueKept [literal "ab"] calls c.toOutgoing := by
  have hqueued : QueueHistory Client.queueWrite Client.flushWrite
      (Client.ClientConnection.establish 3 0 0) ([] ++ [literal "ab"]) [] _ :=
    .queued .start
  have hflushed := hqueued.flushed
    (show Client.flushWrite _ [.wrote 1, .failed .wantRead] = some _ from rfl)
  exact ⟨_, _, hflushed, rfl, (write_queues_kept.2 _ _ _ _ (by decide) rfl rfl hflushed).1⟩

end TChat
