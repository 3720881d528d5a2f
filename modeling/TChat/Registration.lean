import TChat.Exchange
/-!
# Registering

`register_client` of the client compares a local variable that nothing is assigned to,
and of the outcomes of its namesake on the server only one is answered at all.
-/

namespace TChat

open TChat.Common TChat.Lib TChat.Server

/-- A call of `register_client` that has returned `status`, and the step of the server that
has handled it. -/
structure Registration where
  exchange : Exchange .register
  status : Client.RegisterStatus
  client : Client.ClientConnection
  returned : Client.registerClient exchange.username exchange.password exchange.writes
    exchange.reads exchange.client = some (status, client, exchange.calls)
  step : Transition ServerApp Input
  request : HandshakeRequest
  handled : exchange.Handles step request

def Registration.outcome (r : Registration) : RegisterClientStatus :=
  r.step.input.registerClient r.request.username r.request.password

structure Registration.Agrees (r : Registration) : Prop where
  registered : r.status = .registered ↔ r.outcome = .clientRegistered
  userAlreadyExists : r.status = .userAlreadyExists ↔ r.outcome = .usernameExists
  sqlErr : r.status = .sqlErr ↔ r.outcome = .execFailed

namespace Exchange

variable {e : Exchange .register} {t : Transition ServerApp Input} {request : HandshakeRequest}
  {status : Client.RegisterStatus} {connection : Client.ClientConnection}
  {calls : List SslWriteCall}

theorem isHandshake_register (e : Exchange .register) :
    IsHandshake (e.request .register) e.packet :=
  e.isHandshake fun _ _ => rfl

/-- A registration that fails is not answered, and one that succeeds is answered first. -/
theorem Handles.registerReplies_first (h : e.Handles t request) :
    if t.input.registerClient request.username request.password = .clientRegistered then
      ∃ more, queuedDuring e.connection e.history =
        createPacketStream .ack (literal "OK") :: more
    else queuedDuring e.connection e.history = [] := by
  obtain ⟨hrequest, -, before, after, hsplit, hsilent, hbefore, hstep, hafter⟩ :=
    h.handled e.isHandshake_register
  have hwf := wellFormed_of_run hbefore
  have hkind : request.kind = .register := hrequest ▸ rfl
  have hqueued := queuedOn_register hwf h.2 hkind hstep
  rw [hsplit, queuedDuring_split, hsilent, hqueued, registerReplies]
  split_ifs with hregister
  · exact ⟨queuedDuring e.connection after, rfl⟩
  · -- the connection has been taken down
    obtain ⟨c, rest, hp, hshake⟩ := (handshake?_eq_some hwf).mp h.2
    have hreleased :=
      step_registerFailed hwf hp hshake (possible_of_step hstep) hkind hregister
    rw [hstep, Except.ok.injEq] at hreleased
    have hgone : t.post.deref e.connection = none := by
      rw [hreleased, deref_release (s := t.pre.beginEvent t.input.now) _ _ hp, if_pos rfl]
    have hused : e.connection.node < t.post.nextNode := by
      rw [hreleased]
      exact hwf.node_lt_of_deref hp
    simpa using queuedDuring_gone (hbefore.next hstep) hafter hgone hused

theorem registerClient_status
    (h : Client.registerClient e.username e.password e.writes e.reads e.client =
      some (status, connection, calls)) : status = .protocolError ∨ status = .connectionLost := by
  unfold Client.registerClient at h
  split_ifs at h with hfd hssl
  · simp only [Option.some.injEq, Prod.mk.injEq] at h
    exact .inr h.1.symm
  · simp only [Option.some.injEq, Prod.mk.injEq] at h
    exact .inr h.1.symm
  · dsimp only at h
    rw [e.flush] at h
    dsimp only at h
    split_ifs at h with hwritten
    · simp only [Option.some.injEq, Prod.mk.injEq] at h
      exact .inr h.1.symm
    · simp only [Option.map_eq_some_iff, Prod.mk.injEq] at h
      obtain ⟨⟨status', connection'⟩, hloop, rfl, -⟩ := h
      exact Client.registerLoop_status hloop

theorem registerClient_reply (e : Exchange .register) (h : e.Replied) :
    ∃ connection, Client.registerClient e.username e.password e.writes e.reads e.client =
      some (.protocolError, connection, e.calls) := by
  obtain ⟨reply, more, hqueued, harrived⟩ := h
  obtain ⟨t, request, hhandles⟩ := e.exists_handles e.isHandshake_register (by rw [hqueued]; simp)
  obtain ⟨-, hwritten, -⟩ := hhandles.handled e.isHandshake_register
  obtain ⟨hlive, hbuffer⟩ := e.client_live
  have hreply : ∀ more, (Client.processDataStream (reply ++ more)).1.waits = false := by
    have hfirst := hhandles.registerReplies_first
    rw [hqueued] at hfirst
    split_ifs at hfirst
    · obtain ⟨others, hothers⟩ := hfirst
      rw [List.cons.injEq] at hothers
      intro more
      rw [hothers.1, Client.read_reply (by decide)]
      rfl
  obtain ⟨connection, hloop⟩ := Client.registerLoop_reply 6 hreply hlive e.deliverable
    (by rwa [hbuffer, List.nil_append])
  refine ⟨connection, ?_⟩
  rw [Client.registerClient, if_neg (not_lt.mpr e.client_open.1), if_neg e.client_open.2]
  dsimp only
  rw [e.flush]
  simp [hwritten, hloop]

end Exchange

/-- The client's result agrees with the server's outcome if and only if that outcome is one
for which the client has no result. -/
theorem registration_agrees (r : Registration) :
    r.Agrees ↔ r.outcome = .unableToOpenDatabase ∨ r.outcome = .unknownError := by
  have hstatus := r.exchange.registerClient_status r.returned
  constructor
  · rintro ⟨hregistered, hexists, hfailed⟩
    cases houtcome : r.outcome with
    | unableToOpenDatabase => exact .inl rfl
    | unknownError => exact .inr rfl
    | clientRegistered => simp [hregistered.mpr houtcome] at hstatus
    | usernameExists => simp [hexists.mpr houtcome] at hstatus
    | execFailed => simp [hfailed.mpr houtcome] at hstatus
  · rintro (houtcome | houtcome) <;> rcases hstatus with hresult | hresult <;>
      constructor <;> simp [houtcome, hresult]

/-- A client that has been registered, and has been told so, reports an error. -/
theorem registration_unreported : ¬∀ r : Registration, r.exchange.Replied → r.Agrees := by
  intro h
  obtain ⟨e, -, -, -, -, hreads, hconnection, hrun⟩ :=
    exists_exchange .register
      [accepting 5,
        receiving 5 (createPacketStream .register
          (Client.credentials (literal "a") (literal "b|c"))),
        writing 5 [.wrote 14]]
      [.received (createPacketStream .ack (literal "OK"))]
      (fun history => decide (
        queuedDuring ⟨5, 0⟩ history = [createPacketStream .ack (literal "OK")] ∧
        ∃ t ∈ history,
          handshake? t.input t.pre = some (⟨5, 0⟩, ⟨.register, literal "a", literal "b|c", []⟩) ∧
            t.input.registerClient (literal "a") (literal "b|c") = .clientRegistered))
      (by simp; decide) (by decide +kernel)
  simp only [decide_eq_true_eq] at hrun
  obtain ⟨hqueued, t, ht, hhandshake, houtcome⟩ := hrun
  have hreplied : e.Replied := by
    refine ⟨_, _, hconnection ▸ hqueued, ?_⟩
    rw [hreads]
    decide
  obtain ⟨client, hreturns⟩ := e.registerClient_reply hreplied
  have hagrees := h ⟨e, _, client, hreturns, t, _, ht, hconnection ▸ hhandshake⟩ hreplied
  have hregistered := hagrees.registered.mpr houtcome
  simp at hregistered

end TChat
