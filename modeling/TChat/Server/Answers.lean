import TChat.Server.Backlog
import TChat.Server.Outbox
import TChat.Server.SessionStates
/-!
# What an accepted request brings

A login or a registration that the parser accepts is answered, or the connection is
closed.  A request to take a session up again is only ever answered by closing the
connection: when the token is right nothing is queued, whether the session was waiting
or not.
-/

namespace TChat.Server

open TChat.Common TChat.Lib

/-- The connection is gone, or there is one reply in its queue and it is watched for
writing. -/
def Answered (p : ConnectionPtr) (s : ServerApp) : Prop :=
  s.deref p = none ∨
    (∃ reply, queuedOn p s.actions = [reply]) ∧ s.writeFilter p.fd = true

section

variable {i : Input} {s s' t : ServerApp} {p : ConnectionPtr} {c c' d : ClientConnection}
  {request : HandshakeRequest} {rest : Bytes}

theorem answered_release (hp : s.deref p = some c) :
    Answered p (ClientManager.release i.now p c.ssl (s.beginEvent i.now)) := by
  have hgone := deref_release (s := s.beginEvent i.now) (q := p) i.now c.ssl hp
  rw [if_pos rfl] at hgone
  exact .inl hgone

theorem answered_replied (hp : t.deref p = some d) (hnode : c'.node = d.node)
    (hactions : t.actions = []) (reply : Bytes) :
    Answered p (((t.store p c').log [.queueWrite p reply]).enableWriteEvent i p.fd) ↔
      i.kevent p.fd = true ∨ t.writeFilter p.fd = true := by
  have hstays := ServerApp.deref_replied (i := i) hp hnode [.queueWrite p reply]
  have hqueued : queuedOn p (((t.store p c').log
      [.queueWrite p reply]).enableWriteEvent i p.fd).actions = [reply] := by
    rw [ServerApp.actions_replied, hactions, List.nil_append, queuedOn_queueWrite, if_pos rfl]
  have hfilter : (((t.store p c').log
      [.queueWrite p reply]).enableWriteEvent i p.fd).writeFilter p.fd = true ↔
        i.kevent p.fd = true ∨ t.writeFilter p.fd = true := by
    rw [ServerApp.enableWriteEvent_eq]
    by_cases hkevent : i.kevent p.fd = true <;> simp [hkevent]
  rw [Answered, hstays, hqueued, hfilter]
  simp

theorem not_answered_of_silent (hp : s'.deref p = some c') (hactions : s'.actions = []) :
    ¬Answered p s' := by
  rintro (hgone | ⟨⟨reply, hqueued⟩, -⟩)
  · simp [hp] at hgone
  · rw [hactions, queuedOn_nil] at hqueued
    simp at hqueued

/-- A request to take a session up again with the right token is not answered. -/
theorem reconnect_unanswered (hwf : WellFormed s) (hpossible : i.Possible s)
    (hp : s.deref p = some c) (h : Handshakes i c request rest)
    (hkind : request.kind = .reconnect)
    (hverify : ClientManager.verifySession request.username request.token s = true) :
    ∃ s', step i s = .ok s' ∧ ¬Answered p s' := by
  obtain ⟨session, hsession, htoken⟩ := ServerApp.verifySession_eq_true.mp hverify
  by_cases hstate : session.state = .disconnected
  · refine ⟨_, step_reattached hwf hp h hpossible hkind hsession htoken hstate, ?_⟩
    exact not_answered_of_silent
      (ServerApp.deref_store_self (s := s.beginEvent i.now) hp rfl) rfl
  · have hignored : ∀ other, s.sessions.find? request.username = some other →
        other.state ≠ .disconnected := by
      intro other hother
      rw [hsession, Option.some.injEq] at hother
      exact hother ▸ hstate
    refine ⟨_, step_reconnectIgnored hwf hp h hpossible hkind hverify hignored, ?_⟩
    exact not_answered_of_silent
      (ServerApp.deref_store_self (s := s.beginEvent i.now) hp rfl) rfl

end

variable {now : Time} {history : List (Transition ServerApp Input)} {s : ServerApp}

/-- In every reachable state the event that completes an accepted request answers it, or
closes the connection, if and only if the request is turned down by hanging up, or it is
a login or a registration and the connection is watched for writing. -/
theorem requests_answered (hrun : ServerRun now history s) {i : Input} {p : ConnectionPtr}
    {c : ClientConnection} {request : HandshakeRequest} {rest : Bytes}
    (hpossible : i.Possible s) (hp : s.deref p = some c) (h : Handshakes i c request rest) :
    ∃ s', step i s = .ok s' ∧
      (Answered p s' ↔ Rejects i s request ∨ request.kind ≠ .reconnect ∧
        (i.kevent p.fd = true ∨ s.writeFilter p.fd = true)) := by
  have hwf := wellFormed_of_run hrun
  cases hkind : request.kind with
  | login =>
      by_cases hverify : i.verifyClient request.username request.password = .authorized
      · refine ⟨_, step_loggedIn hwf hp h hpossible hkind hverify, ?_⟩
        rw [answered_replied (t := ClientManager.addSession _ (s.beginEvent i.now)) hp (by rfl) rfl]
        simp [Rejects, hkind, ClientManager.addSession]
      · refine ⟨_, step_loginRefused hwf hp h hpossible hkind rfl hverify, ?_⟩
        rw [answered_replied (t := s.beginEvent i.now) hp (by rfl) rfl]
        simp [Rejects, hkind]
  | register =>
      by_cases hregister :
          i.registerClient request.username request.password = .clientRegistered
      · refine ⟨_, step_registered hwf hp h hpossible hkind hregister, ?_⟩
        rw [answered_replied (t := s.beginEvent i.now) hp (by rfl) rfl]
        simp [Rejects, hkind, hregister]
      · refine ⟨_, step_registerFailed hwf hp h hpossible hkind hregister, ?_⟩
        simp [Rejects, hkind, hregister, answered_release hp]
  | reconnect =>
      cases hverify : ClientManager.verifySession request.username request.token s with
      | true =>
          obtain ⟨s', hstep, hunanswered⟩ :=
            reconnect_unanswered hwf hpossible hp h hkind hverify
          exact ⟨s', hstep, by simp [Rejects, hkind, hverify, hunanswered]⟩
      | false =>
          refine ⟨_, step_reconnectRefused hwf hp h hpossible hkind hverify, ?_⟩
          simp [Rejects, hkind, hverify, answered_release hp]
  | error =>
      obtain ⟨bytes, _, _, hparse⟩ := h
      have hvalid := processHandshakePacket_kind (c.rxBuffer ++ bytes)
      rw [hparse] at hvalid
      exact absurd hkind (hvalid rfl)

theorem requests_answered_login : ∃ history s s', ServerRun 0 history s ∧
    step (receiving 5 (loginPacket (literal "a") (literal "b"))) s = .ok s' ∧
      Answered ⟨5, 0⟩ s' := by
  obtain ⟨history, s, hrun, h⟩ := Run.exists_of_execute step [accepting 5] (initialState 0)
    (fun _ s => s.clock = 0 ∧ s.deref ⟨5, 0⟩ = some (.create 0 5 (some 0) 0))
    (by decide +kernel)
  simp only [decide_eq_true_eq] at h
  have hshake : Handshakes (receiving 5 (loginPacket (literal "a") (literal "b")))
      (.create 0 5 (some 0) 0) ⟨.login, literal "a", literal "b", []⟩ [] :=
    ⟨_, ⟨⟨rfl, .inl ⟨rfl, rfl⟩⟩, by decide, rfl, by decide, by decide⟩, rfl, by decide +kernel⟩
  obtain ⟨s', hstep, hanswered⟩ :=
    requests_answered hrun (receiving_possible h.1 _ _) h.2 hshake
  exact ⟨history, s, s', hrun, hstep, hanswered.mpr (.inr ⟨by decide, .inl rfl⟩)⟩

/-- A client that has left comes back with its token and is told nothing. -/
theorem reconnect_without_answer : ¬∀ now history s i p c request rest s',
    ServerRun now history s → s.deref p = some c → Handshakes i c request rest →
    step i s = .ok s' → Answered p s' := by
  intro h
  obtain ⟨history, s, hrun, hleft⟩ := Run.exists_of_execute step (leaveOnce ++ [accepting 6])
    (initialState 0)
    (fun _ s => s.clock = 0 ∧ s.deref ⟨6, 1⟩ = some (.create 1 6 (some 1) 0) ∧
      ClientManager.verifySession (literal "a") (generateToken Input.sample.random) s = true)
    (by decide +kernel)
  simp only [decide_eq_true_eq] at hleft
  have hshake : Handshakes
      (receiving 6 (reconnectPacket (literal "a") (generateToken Input.sample.random)))
      (.create 1 6 (some 1) 0)
      ⟨.reconnect, literal "a", [], generateToken Input.sample.random⟩ [] :=
    ⟨_, ⟨⟨rfl, .inl ⟨rfl, rfl⟩⟩, by decide, rfl, by decide, by decide⟩, rfl, by decide +kernel⟩
  obtain ⟨s', hstep, hunanswered⟩ := reconnect_unanswered (wellFormed_of_run hrun)
    (receiving_possible hleft.1 _ _) hleft.2.1 hshake rfl hleft.2.2
  exact hunanswered (h 0 history s _ _ _ _ _ s' hrun hleft.2.1 hshake hstep)

end TChat.Server
