import TChat.Server.Proofs.Actions
import TChat.Server.Sessions
/-!
# Before and after authentication

What an event on a connection that has not authenticated can touch, and what it
takes for a connection to become authenticated.
-/

namespace TChat.Server

open TChat.Common TChat.Lib

/-- The event is about the connection `p`: its socket is readable or writable. -/
def Event.IsOn (event : Event) (p : ConnectionPtr) : Prop :=
  event = .read p.fd ∨ event = .write p.fd

/-- What a connection has to present: a password that `verify_client` accepts, or
the token of a session that is disconnected. -/
inductive Credentials (i : Input) (s : ServerApp) (c : ClientConnection) : Prop
  | password {request : HandshakeRequest} {rest : Bytes} :
      Handshakes i c request rest → request.kind = .login →
      i.verifyClient request.username request.password = .authorized → Credentials i s c
  | token {request : HandshakeRequest} {rest : Bytes} {session : ClientSession} :
      Handshakes i c request rest → request.kind = .reconnect →
      ClientManager.verifySession request.username request.token s = true →
      s.sessions.find? request.username = some session → session.state = .disconnected →
      Credentials i s c

section

variable {i : Input} {s s' : ServerApp} {p q : ConnectionPtr} {c d : ClientConnection}

/-! ## Events and the connections they are about -/

theorem ClientConnection.Reads.event (h : c.Reads i.event) :
    i.event = .read c.fd ∨ i.event = .write c.fd := by
  obtain ⟨_, ⟨hevent, _⟩ | ⟨hevent, _⟩⟩ := h
  · exact .inl hevent
  · exact .inr hevent

theorem ClientConnection.Flushes.event (h : c.Flushes i.event) :
    i.event = .read c.fd ∨ i.event = .write c.fd := by
  obtain ⟨_, ⟨hevent, _⟩ | ⟨hevent, _⟩⟩ := h
  · exact .inl hevent
  · exact .inr hevent

theorem Handshakes.event {request : HandshakeRequest} {rest : Bytes}
    (h : Handshakes i c request rest) : i.event = .read c.fd ∨ i.event = .write c.fd :=
  h.reads.event

theorem Streams.event {stream : ClientStream} (h : Streams i c stream) :
    i.event = .read c.fd ∨ i.event = .write c.fd :=
  h.reads.event

theorem Edit.event {c' : ClientConnection} {filter : Option Bool} {actions : List Action}
    (h : Edit i s p c c' filter actions) : i.event = .read c.fd ∨ i.event = .write c.fd := by
  cases h with
  | flushed h => exact h.event
  | nothingRead h => exact h.event
  | wantWrite h => exact h.event
  | handshakeIncomplete h => exact h.reads.event
  | loginRefused h => exact h.event
  | registered h => exact h.event
  | reconnectIgnored h => exact h.event
  | streamIdle h => exact h.event
  | streamInvalid h => exact h.event
  | pingUnanswered h => exact h.event
  | pong h => exact h.event

theorem Drop.event {buffer : Bytes} {actions : List Action} (h : Drop i s p c buffer actions) :
    (i.event = .read c.fd ∨ i.event = .write c.fd) ∨ ∃ keys, i.event = .console keys := by
  cases h with
  | flushed h => exact .inl h.event
  | readFailed h => exact .inl h.event
  | handshakeInvalid h => exact .inl h.reads.event
  | registerFailed h => exact .inl h.event
  | reconnectRefused h => exact .inl h.event
  | quit h => exact .inl h.event
  | kicked h => exact .inr ⟨_, h⟩

theorem eq_of_isOn (hwf : WellFormed s) (hp : s.deref p = some c) (hq : s.deref q = some d)
    (hon : i.event.IsOn p) (hevent : i.event = .read d.fd ∨ i.event = .write d.fd) :
    q = p ∧ d = c := by
  have hfd : q.fd = p.fd := by
    rw [← (hwf.deref_ok hq).fd_eq]
    rcases hon with hon | hon <;> rcases hevent with hevent | hevent <;>
      rw [hon] at hevent <;> simp_all
  have hqp := pointer_eq hq hp hfd
  subst hqp
  rw [hp, Option.some.injEq] at hq
  exact ⟨rfl, hq.symm⟩

theorem not_streams_of_awaiting (hwf : WellFormed s) (hp : s.deref p = some c)
    (hawaiting : c.status = .awaitingAuth) (hon : i.event.IsOn p) (hq : s.deref q = some d)
    {stream : ClientStream} : ¬Streams i d stream := by
  intro hstream
  obtain ⟨_, rfl⟩ := eq_of_isOn hwf hp hq hon hstream.event
  simpa [hawaiting] using hstream.authenticated

/-! ## The frame -/

theorem release_sessions (hheld : s.HeldOnce)
    (hfree : ∀ u x, s.sessions.find? u = some x → x.connection ≠ some p) (now : Time)
    (ssl : Option Nat) : (ClientManager.release now p ssl s).sessions = s.sessions := by
  refine OrderedMap.ext_find? fun u => ?_
  rw [find?_release _ _ hheld]
  cases hx : s.sessions.find? u with
  | none => rfl
  | some x => simp [hfree u x hx]

theorem free_of_awaiting (hwf : WellFormed s) (hp : s.deref p = some c)
    (hawaiting : c.status = .awaitingAuth) {u : Bytes} {x : ClientSession}
    (hx : s.sessions.find? u = some x) : x.connection ≠ some p := by
  intro hheld
  obtain ⟨d, hd, hstatus⟩ := (hwf.sessions hx).holds p hheld
  rw [hp, Option.some.injEq] at hd
  exact hstatus (hd ▸ hawaiting)

/-- An event on a connection that does not get authenticated in it changes no
other connection and no session. -/
theorem frame_of_outcome (hwf : WellFormed s) (hp : s.deref p = some c)
    (hawaiting : c.status = .awaitingAuth) (hon : i.event.IsOn p)
    (h : Outcome i s (.ok s'))
    (hnot : ∀ c', s'.deref p = some c' → c'.status ≠ .authenticated) :
    (∀ q, q ≠ p → s'.deref q = s.deref q) ∧ s'.sessions = s.sessions := by
  have hconsole : ∀ {keys}, i.event ≠ .console keys := by
    rintro keys hevent
    rcases hon with hon | hon <;> simp [hon] at hevent
  cases h with
  | idle => exact ⟨fun _ _ => rfl, rfl⟩
  | console hevent | stopped hevent | announced hevent => exact absurd hevent hconsole
  | @edited q d d' filter actions hq hedit =>
      obtain ⟨rfl, rfl⟩ := eq_of_isOn hwf hp hq hon hedit.event
      refine ⟨fun r hr => ?_, by rw [ServerApp.switchWriteEvent_sessions]; rfl⟩
      rw [ServerApp.deref_congr (ServerApp.switchWriteEvent_connections i _ filter _),
        ServerApp.deref_log, ServerApp.deref_store (s := s.beginEvent i.now) hq hedit.same.1,
        if_neg hr]
      rfl
  | @dropped q d buffer actions hq hdrop =>
      rcases hdrop.event with hevent | ⟨_, hevent⟩
      · obtain ⟨rfl, rfl⟩ := eq_of_isOn hwf hp hq hon hevent
        have hq' : (((s.beginEvent i.now).setConsoleInputBuffer buffer).log actions).deref q =
            some d := hq
        refine ⟨fun r hr => ?_, ?_⟩
        · rw [deref_release _ _ hq', if_neg hr]
          rfl
        · have hfree : ∀ u x, (((s.beginEvent i.now).setConsoleInputBuffer buffer).log
              actions).sessions.find? u = some x → x.connection ≠ some q :=
            fun u x hx => free_of_awaiting hwf hp hawaiting hx
          have hheld : (((s.beginEvent i.now).setConsoleInputBuffer buffer).log
              actions).HeldOnce := hwf.injective
          exact release_sessions hheld hfree i.now d.ssl
      · exact absurd hevent hconsole
  | @loggedIn q d request rest session reply hq hshake hkind hverify hsession hreply =>
      obtain ⟨rfl, rfl⟩ := eq_of_isOn hwf hp hq hon hshake.event
      refine absurd rfl (hnot (queueWrite (d.authenticate rest i.now) reply) ?_)
      rw [ServerApp.deref_congr (ServerApp.enableWriteEvent_connections i _ _),
        ServerApp.deref_log]
      exact ServerApp.deref_store_self (s := ClientManager.addSession session
        (s.beginEvent i.now)) hq rfl
  | @reattached q d request rest session hq hshake hkind hsession htoken hstate =>
      obtain ⟨rfl, rfl⟩ := eq_of_isOn hwf hp hq hon hshake.event
      exact absurd rfl (hnot (d.authenticate rest i.now)
        (ServerApp.deref_store_self (s := s.beginEvent i.now) hq rfl))
  | relayed hq hstream => exact absurd hstream (not_streams_of_awaiting hwf hp hawaiting hon hq)
  | turnedAway haway =>
      exact ⟨fun _ _ => ServerApp.deref_congr haway.connections, haway.sessions⟩
  | admitted hevent => rcases hon with hon | hon <;> simp [hon] at hevent
  | ticked hevent => rcases hon with hon | hon <;> simp [hon] at hevent

theorem fault_of_awaiting (hwf : WellFormed s) (hp : s.deref p = some c)
    (hawaiting : c.status = .awaitingAuth) (hon : i.event.IsOn p) {fault : Fault}
    (h : Outcome i s (.error fault)) : fault = .impossible := by
  cases h with
  | impossible => rfl
  | emptyString hevent => rcases hon with hon | hon <;> simp [hon] at hevent
  | nullSession hq hstream =>
      exact absurd hstream (not_streams_of_awaiting hwf hp hawaiting hon hq)

theorem replies_of_awaiting (hwf : WellFormed s) (hp : s.deref p = some c)
    (hawaiting : c.status = .awaitingAuth) (hon : i.event.IsOn p) {packet : Bytes}
    (h : Performs i s s'.actions) (hqueued : .queueWrite q packet ∈ s'.actions) :
    q = p ∧ (packetType? packet = some .ack ∨ packetType? packet = some .error) := by
  generalize s'.actions = actions at h hqueued
  cases h with
  | silent hquiet =>
      have hreplies : Replies i s q packet := hquiet _ hqueued
      cases hreplies with
      | @refusal _ _ _ status hq hshake =>
          refine ⟨(eq_of_isOn hwf hp hq hon hshake.event).1, ?_⟩
          cases status <;> simp [refusal]
      | registered hq hshake =>
          exact ⟨(eq_of_isOn hwf hp hq hon hshake.event).1, by simp⟩
      | welcome hq hshake =>
          exact ⟨(eq_of_isOn hwf hp hq hon hshake.event).1, by simp⟩
      | pong hq hstream =>
          exact absurd hstream (not_streams_of_awaiting hwf hp hawaiting hon hq)
  | announces hannounces =>
      cases hannounces with
      | client hq hstream =>
          exact absurd hstream (not_streams_of_awaiting hwf hp hawaiting hon hq)
      | console hevent => rcases hon with hon | hon <;> simp [hon] at hevent

/-! ## Becoming authenticated -/

theorem credentials_of_change {c' : ClientConnection} {filter : Bool}
    (h : Change i s p c c' filter) (hawaiting : c.status = .awaitingAuth)
    (hstatus : c'.status = .authenticated) : Credentials i s c := by
  cases h with
  | kept => simp [hawaiting] at hstatus
  | edited hedit =>
      rcases hedit.status with h | ⟨_, h⟩
      · rw [h, hawaiting] at hstatus
        simp at hstatus
      · simp [h] at hstatus
  | loggedIn hshake hkind hverify _ => exact .password hshake hkind hverify
  | reattached hshake hkind hsession htoken hstate =>
      exact .token hshake hkind (ServerApp.verifySession_eq_true.mpr ⟨_, hsession, htoken⟩)
        hsession hstate
  | relayed hstream => simpa [hawaiting] using hstream.authenticated
  | hears hauthenticated => simp [hawaiting] at hauthenticated
  | timedOut _ hauthenticated => simp [hawaiting] at hauthenticated

theorem hears_of_message {packet : Bytes} (h : Performs i s s'.actions)
    (hqueued : .queueWrite q packet ∈ s'.actions) (htype : packetType? packet = some .message) :
    ∃ d, s.deref q = some d ∧ d.status = .authenticated := by
  generalize s'.actions = actions at h hqueued
  cases h with
  | silent hquiet =>
      have hreplies : Replies i s q packet := hquiet _ hqueued
      cases hreplies with
      | @refusal _ _ _ status => cases status <;> simp [refusal] at htype
      | registered | welcome | pong => simp at htype
  | announces _ _ haudience =>
      simp only [List.mem_cons, reduceCtorEq, List.mem_map, Action.queueWrite.injEq,
        false_or] at hqueued
      obtain ⟨r, hr, rfl, _⟩ := hqueued
      exact ((haudience r).mp hr).2

end

variable {now : Time} {history : List (Transition ServerApp Input)} {s : ServerApp}

/-- In every reachable state an event on a connection that has not authenticated
concerns this connection alone, unless it authenticates it; a connection gets
authenticated only by its credentials, and hears broadcasts only afterwards. -/
theorem authentication_required (hrun : ServerRun now history s) :
    (∀ i p c s', s.deref p = some c → c.status = .awaitingAuth → i.event.IsOn p →
      step i s = .ok s' → (∀ c', s'.deref p = some c' → c'.status ≠ .authenticated) →
      (∀ q, q ≠ p → s'.deref q = s.deref q) ∧ s'.sessions = s.sessions ∧
        ∀ q packet, .queueWrite q packet ∈ s'.actions →
          q = p ∧ (packetType? packet = some .ack ∨ packetType? packet = some .error)) ∧
    (∀ i p c s' c', s.deref p = some c → c.status = .awaitingAuth → step i s = .ok s' →
      s'.deref p = some c' → c'.status = .authenticated → Credentials i s c) ∧
    (∀ i s' q packet, step i s = .ok s' → .queueWrite q packet ∈ s'.actions →
      packetType? packet = some .message → ∃ c, s.deref q = some c ∧ c.status = .authenticated) ∧
    ∀ i p c fault, s.deref p = some c → c.status = .awaitingAuth → i.event.IsOn p →
      step i s = .error fault → fault = .impossible := by
  have hwf := wellFormed_of_run hrun
  refine ⟨?_, ?_, ?_, ?_⟩
  · intro i p c s' hp hawaiting hon hstep hnot
    have houtcome := outcome_of_run hrun hstep
    obtain ⟨hothers, hsessions⟩ := frame_of_outcome hwf hp hawaiting hon houtcome hnot
    exact ⟨hothers, hsessions, fun q packet =>
      replies_of_awaiting hwf hp hawaiting hon (houtcome.performs hwf)⟩
  · intro i p c s' c' hp hawaiting hstep hp' hstatus
    rcases traced_of_outcome hwf (outcome_of_run hrun hstep) hp' with
      ⟨_, _, _, rfl, _⟩ | ⟨d, hd, hchange⟩
    · simp [ClientConnection.create] at hstatus
    · rw [hp, Option.some.injEq] at hd
      subst hd
      exact credentials_of_change hchange hawaiting hstatus
  · intro i s' q packet hstep hqueued htype
    exact hears_of_message ((outcome_of_run hrun hstep).performs hwf) hqueued htype
  · intro i p c fault hp hawaiting hon hstep
    exact fault_of_awaiting hwf hp hawaiting hon (hstep ▸ outcome_step hwf)

theorem authentication_required_login : ∃ history s s' c c', ServerRun 0 history s ∧
    s.deref ⟨5, 0⟩ = some c ∧ c.status = .awaitingAuth ∧
    step (receiving 5 (loginPacket (literal "a") (literal "b"))) s = .ok s' ∧
    s'.deref ⟨5, 0⟩ = some c' ∧ c'.status = .authenticated ∧
    Credentials (receiving 5 (loginPacket (literal "a") (literal "b"))) s c := by
  obtain ⟨history, s, hrun, h⟩ := Run.exists_of_execute step
    [accepting 5] (initialState 0)
    (fun _ s => (s.deref ⟨5, 0⟩).any (·.status = .awaitingAuth) &&
      (step (receiving 5 (loginPacket (literal "a") (literal "b"))) s).toOption.any fun s' =>
        (s'.deref ⟨5, 0⟩).any (·.status = .authenticated)) (by decide +kernel)
  simp only [Bool.and_eq_true, Option.any_eq_true, decide_eq_true_eq] at h
  obtain ⟨⟨c, hc, hawaiting⟩, s', hs', c', hc', hstatus⟩ := h
  have hstep : step (receiving 5 (loginPacket (literal "a") (literal "b"))) s = .ok s' := by
    cases hresult : step (receiving 5 (loginPacket (literal "a") (literal "b"))) s with
    | error fault => simp [hresult, Except.toOption] at hs'
    | ok t =>
        rw [hresult] at hs'
        exact congrArg Except.ok (Option.some.inj hs')
  exact ⟨history, s, s', c, c', hrun, hc, hawaiting, hstep, hc', hstatus,
    (authentication_required hrun).2.1 _ _ c s' c' hc hawaiting hstep hc' hstatus⟩

end TChat.Server
