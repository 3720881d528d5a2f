import TChat.Server.Proofs.Lookups
/-!
# What an event does to each connection

`Change` is the list of outcomes seen from one connection: the record it had,
the record it has after the event and whether its write filter is enabled then.
An invariant of single connections is proved by cases over it.
-/

namespace TChat.Server

open TChat.Common TChat.Lib

def switched (i : Input) (fd : Fd) (filter : Option Bool) (old : Bool) : Bool :=
  if i.kevent fd then filter.getD old else old

/-- `Change i s p c c' filter`: an event turns the record `c` of the connection
`p` into `c'` and leaves its write filter in the state `filter`. -/
inductive Change (i : Input) (s : ServerApp) (p : ConnectionPtr) (c : ClientConnection) :
    ClientConnection → Bool → Prop
  | kept : Change i s p c c (s.writeFilter p.fd)
  | edited {c' : ClientConnection} {filter : Option Bool} {actions : List Action} :
      Edit i s p c c' filter actions →
      Change i s p c c' (switched i p.fd filter (s.writeFilter p.fd))
  | loggedIn {request : HandshakeRequest} {rest reply : Bytes} :
      Handshakes i c request rest → request.kind = .login →
      i.verifyClient request.username request.password = .authorized →
      reply = createPacketStream .ack (literal "OK|" ++ generateToken i.random) →
      Change i s p c
        (queueWrite (c.authenticate rest i.now) reply)
        (switched i p.fd (some true) (s.writeFilter p.fd))
  | reattached {request : HandshakeRequest} {rest : Bytes} {session : ClientSession} :
      Handshakes i c request rest → request.kind = .reconnect →
      s.sessions.find? request.username = some session →
      session.token = request.token → session.state = .disconnected →
      Change i s p c (c.authenticate rest i.now) (s.writeFilter p.fd)
  | relayed {stream : ClientStream} {session : ClientSession} :
      Streams i c stream → stream.result = .printMessage →
      ClientManager.findSesssionFromConnection p s = some session →
      Change i s p c (c.withBuffer stream.rxBuffer) (s.writeFilter p.fd)
  | hears {packet : Bytes} :
      c.status = .authenticated →
      Change i s p c (queueWrite c packet)
        (switched i p.fd (if c.writeWaitingForRead then none else some true)
          (s.writeFilter p.fd))
  | timedOut : i.event = .timer → c.status = .authenticated →
      seconds 10 ≤ i.now - c.lastSeen →
      Change i s p c { c with status := .closing } (s.writeFilter p.fd)

def Traced (i : Input) (s s' : ServerApp) (q : ConnectionPtr) (c' : ClientConnection) : Prop :=
  (∃ fd, i.event = .accept (.accepted fd true true true) ∧ q = ⟨fd, s.nextNode⟩ ∧
      c' = .create s.nextNode fd (some s.nextSsl) i.now ∧ 0 ≤ fd ∧ s'.openFd fd = true ∧
      s'.nextNode = s.nextNode + 1) ∨
    ∃ c, s.deref q = some c ∧ Change i s q c c' (s'.writeFilter q.fd)

section

variable {i : Input} {s s' : ServerApp} {p q : ConnectionPtr} {c c' : ClientConnection}

theorem traced_kept (h : s.deref q = some c') (hfilter : s'.writeFilter q.fd = s.writeFilter q.fd) :
    Traced i s s' q c' :=
  .inr ⟨c', h, hfilter ▸ .kept⟩

theorem pointer_eq (hq : s.deref q = some c) (hp : s.deref p = some c') (hfd : q.fd = p.fd) :
    q = p := by
  obtain ⟨hfindq, hnodeq⟩ := ServerApp.deref_eq_some.mp hq
  obtain ⟨hfindp, hnodep⟩ := ServerApp.deref_eq_some.mp hp
  rw [hfd, hfindp, Option.some.injEq] at hfindq
  subst hfindq
  obtain ⟨qfd, qnode⟩ := q
  obtain ⟨pfd, pnode⟩ := p
  simp only [ConnectionPtr.mk.injEq]
  exact ⟨hfd, hnodeq.symm.trans hnodep⟩

theorem releaseAll_writeFilter (now : Time) (entries : List (Fd × ClientConnection)) (fd : Fd)
    (h : fd ∉ entries.map Prod.fst) :
    (s.releaseAll now entries).writeFilter fd = s.writeFilter fd := by
  induction entries generalizing s with
  | nil => rfl
  | cons entry rest ih =>
      rw [List.map_cons, List.mem_cons, not_or] at h
      rw [ServerApp.releaseAll, List.foldl_cons, ← ServerApp.releaseAll, ih h.2]
      exact if_neg h.1

theorem releaseAll_openFd (now : Time) (entries : List (Fd × ClientConnection)) (fd : Fd)
    (h : fd ∉ entries.map Prod.fst) :
    (s.releaseAll now entries).openFd fd = s.openFd fd := by
  induction entries generalizing s with
  | nil => rfl
  | cons entry rest ih =>
      rw [List.map_cons, List.mem_cons, not_or] at h
      rw [ServerApp.releaseAll, List.foldl_cons, ← ServerApp.releaseAll, ih h.2]
      exact if_neg h.1

theorem Edit.same {filter : Option Bool} {actions : List Action}
    (h : Edit i s p c c' filter actions) :
    c'.node = c.node ∧ c'.fd = c.fd ∧ c'.ssl = c.ssl := by
  cases h <;> exact ⟨rfl, rfl, rfl⟩

theorem traced_broadcast {sender : Option ConnectionPtr} {senderFd : Fd} {packet : Bytes}
    (h : s.deref q = some c)
    (hq : (s.broadcastAndEnable i sender senderFd packet).deref q = some c') :
    (isRecipient senderFd q.fd c = false ∧ c' = c ∧
      (s.broadcastAndEnable i sender senderFd packet).writeFilter q.fd = s.writeFilter q.fd) ∨
    (c.status = .authenticated ∧ q.fd ≠ senderFd ∧ c' = queueWrite c packet ∧
      (s.broadcastAndEnable i sender senderFd packet).writeFilter q.fd =
        switched i q.fd (if c.writeWaitingForRead then none else some true)
          (s.writeFilter q.fd)) := by
  rw [ServerApp.deref_broadcastAndEnable, h, Option.map_some, Option.some.injEq] at hq
  have hawake : q.fd ∈ s.awakened senderFd ↔
      isRecipient senderFd q.fd c = true ∧ c.writeWaitingForRead = false := by
    simp only [ServerApp.mem_awakened, (ServerApp.deref_eq_some.mp h).1, Option.some.injEq,
      exists_eq_left']
  rw [ServerApp.broadcastAndEnable_eq]
  simp only [hawake]
  by_cases hrecipient : isRecipient senderFd q.fd c = true
  · right
    rw [if_pos hrecipient] at hq
    simp only [isRecipient, ne_eq, decide_eq_true_eq] at hrecipient
    refine ⟨hrecipient.2, hrecipient.1, hq.symm, ?_⟩
    have hagain : isRecipient senderFd q.fd c = true := by
      simpa [isRecipient] using hrecipient
    cases hwaiting : c.writeWaitingForRead <;> simp [hagain, switched]
  · left
    rw [if_neg hrecipient] at hq
    simp only [Bool.not_eq_true] at hrecipient
    exact ⟨hrecipient, hq.symm, by simp [hrecipient]⟩

theorem traced_store {t : ServerApp} {d : ClientConnection} (filter : Option Bool)
    (actions : List Action) (hconnections : t.connections = s.connections)
    (hfilter : t.writeFilter = s.writeFilter) (hp : s.deref p = some c)
    (hnode : d.node = c.node)
    (hchange : Change i s p c d (switched i p.fd filter (s.writeFilter p.fd)))
    (hq : (((t.store p d).log actions).switchWriteEvent i p.fd filter).deref q = some c') :
    Traced i s (((t.store p d).log actions).switchWriteEvent i p.fd filter) q c' := by
  have ht (r : ConnectionPtr) : t.deref r = s.deref r := ServerApp.deref_congr hconnections
  rw [ServerApp.deref_congr (ServerApp.switchWriteEvent_connections i p.fd filter _),
    ServerApp.deref_log, ServerApp.deref_store ((ht p).trans hp) hnode, ht] at hq
  rw [ServerApp.switchWriteEvent_eq]
  split_ifs at hq with hqp
  · subst hqp
    simp only [Option.some.injEq] at hq
    subst hq
    refine .inr ⟨c, hp, ?_⟩
    simpa [switched, hfilter] using hchange
  · have hfd : q.fd ≠ p.fd := fun hfd => hqp (pointer_eq hq hp hfd)
    refine traced_kept hq ?_
    simp [hfd, hfilter]

theorem tick_kept (hq : s.deref q = some c) (hstays : ¬TimesOut i c) :
    (s.tick i).writeFilter q.fd = s.writeFilter q.fd ∧
      (s.tick i).openFd q.fd = s.openFd q.fd := by
  have hmem : q.fd ∉ (ClientManager.markTimedOutConnections i s).timedOut.map Prod.fst := by
    rw [List.mem_map]
    rintro ⟨entry, hentry, hfd⟩
    have hpointer : pointer entry ∈
        (ClientManager.markTimedOutConnections i s).timedOut.map pointer :=
      List.mem_map_of_mem hentry
    obtain ⟨d, hd, htimedOut⟩ := (mem_timedOut _).mp hpointer
    have heq := pointer_eq hq hd hfd.symm
    rw [← heq, hq, Option.some.injEq] at hd
    exact hstays (hd ▸ htimedOut)
  rw [tick_frame]
  exact ⟨releaseAll_writeFilter _ _ _ hmem, releaseAll_openFd _ _ _ hmem⟩

theorem markIfTimedOut_cases (c : ClientConnection) :
    ClientManager.markIfTimedOut i c = c ∨
      (c.status = .authenticated ∧ seconds 10 ≤ i.now - c.lastSeen ∧
        ClientManager.markIfTimedOut i c = { c with status := .closing }) := by
  unfold ClientManager.markIfTimedOut
  split_ifs with hstatus hage
  · exact .inl rfl
  · right
    refine ⟨?_, hage, rfl⟩
    cases hc : c.status <;> simp_all
  · exact .inl rfl

theorem traced_relayed {stream : ClientStream} {session : ClientSession} (hp : s.deref p = some c)
    (hstream : Streams i c stream) (hresult : stream.result = .printMessage)
    (hsession : ClientManager.findSesssionFromConnection p s = some session)
    (hs' : s' = ((s.beginEvent i.now).store p (c.withBuffer stream.rxBuffer)).broadcastAndEnable i
      (some p) p.fd (ServerApp.clientBroadcast session.username stream.message))
    (hq : s'.deref q = some c') : Traced i s s' q c' := by
  subst hs'
  have hrelayed := Change.relayed (s := s) hstream hresult hsession
  have hstored : ((s.beginEvent i.now).store p (c.withBuffer stream.rxBuffer)).deref q =
      if q = p then some (c.withBuffer stream.rxBuffer) else s.deref q :=
    ServerApp.deref_store (s := s.beginEvent i.now) hp rfl
  cases hold : ((s.beginEvent i.now).store p (c.withBuffer stream.rxBuffer)).deref q with
  | none =>
      rw [ServerApp.deref_broadcastAndEnable, hold] at hq
      simp at hq
  | some d =>
      have hbroadcast := traced_broadcast hold hq
      rw [hold] at hstored
      split_ifs at hstored with hqp
      · simp only [Option.some.injEq] at hstored
        subst hstored hqp
        -- the sender does not hear its own message
        rcases hbroadcast with ⟨_, rfl, hfilter⟩ | ⟨_, hne, _⟩
        · exact .inr ⟨c, hp, hfilter ▸ hrelayed⟩
        · exact absurd rfl hne
      · rcases hbroadcast with ⟨_, rfl, hfilter⟩ | ⟨hstatus, _, rfl, hfilter⟩
        · exact traced_kept hstored.symm hfilter
        · exact .inr ⟨d, hstored.symm, hfilter ▸ .hears hstatus⟩

theorem traced_announced {buffer packet : Bytes} {sender : Option ConnectionPtr} {senderFd : Fd}
    (hs' : s' = ((s.beginEvent i.now).setConsoleInputBuffer buffer).broadcastAndEnable i sender
      senderFd packet)
    (hq : s'.deref q = some c') : Traced i s s' q c' := by
  subst hs'
  cases hold : s.deref q with
  | none =>
      have hold' : ((s.beginEvent i.now).setConsoleInputBuffer buffer).deref q = none := hold
      rw [ServerApp.deref_broadcastAndEnable, hold'] at hq
      simp at hq
  | some d =>
      rcases traced_broadcast (s := (s.beginEvent i.now).setConsoleInputBuffer buffer) hold hq
        with ⟨_, rfl, hfilter⟩ | ⟨hstatus, _, rfl, hfilter⟩
      · exact traced_kept hold hfilter
      · exact .inr ⟨d, hold, hfilter ▸ .hears hstatus⟩

theorem traced_tick (hevent : i.event = .timer)
    (hq : ((s.beginEvent i.now).tick i).deref q = some c') :
    Traced i s ((s.beginEvent i.now).tick i) q c' := by
  rw [deref_tick, Option.bind_eq_some_iff] at hq
  obtain ⟨d, hd, hstays⟩ := hq
  split_ifs at hstays with htimedOut
  simp only [Option.some.injEq] at hstays
  subst hstays
  have hfilter := (tick_kept (s := s.beginEvent i.now) hd htimedOut).1
  refine .inr ⟨d, hd, hfilter ▸ ?_⟩
  rcases markIfTimedOut_cases (i := i) d with hsame | ⟨hstatus, hage, hclosing⟩
  · rw [hsame]
    exact .kept
  · rw [hclosing]
    exact .timedOut hevent hstatus hage

/-- What any outcome does to each connection. -/
theorem traced_of_outcome (hwf : WellFormed s) (h : Outcome i s (.ok s'))
    (hq : s'.deref q = some c') : Traced i s s' q c' := by
  cases h with
  | idle => exact traced_kept hq rfl
  | console _ => exact traced_kept hq rfl
  | stopped _ => exact traced_kept hq rfl
  | edited hp hedit =>
      exact traced_store (t := s.beginEvent i.now) _ _ rfl rfl hp hedit.same.1 (.edited hedit) hq
  | @dropped p c buffer actions hp hdrop =>
      have hp' : (((s.beginEvent i.now).setConsoleInputBuffer buffer).log actions).deref p =
          some c := hp
      rw [deref_release _ _ hp'] at hq
      split_ifs at hq with hqp
      have hfd : q.fd ≠ p.fd := fun hfd => hqp (pointer_eq hq hp hfd)
      exact traced_kept hq (if_neg hfd)
  | @loggedIn p c request rest session reply hp hshake hkind hverify hsession hreply =>
      exact traced_store (t := ClientManager.addSession session (s.beginEvent i.now))
        (some true) _ rfl rfl hp rfl (.loggedIn hshake hkind hverify hreply) hq
  | @reattached p c request rest session hp hshake hkind hsession htoken hstate =>
      have hchange := Change.reattached (s := s) (p := p) hshake hkind hsession htoken hstate
      refine traced_store (t := { s.beginEvent i.now with
          sessions := s.sessions.insert request.username { session with
            connection := some p
            state := .reconnected
            disconnectedAt := 0 } })
        none [] rfl rfl hp rfl ?_ hq
      simpa [switched] using hchange
  | relayed hp hstream hresult hsession => exact traced_relayed hp hstream hresult hsession rfl hq
  | announced => exact traced_announced rfl hq
  | turnedAway haway =>
      rw [ServerApp.deref_congr haway.connections] at hq
      exact traced_kept hq (haway.writeFilter _ (hwf.deref_ok hq).openFd)
  | @admitted fd hevent hfd hclosed hkevent =>
      have hfree := ServerApp.find?_of_openFd hwf hclosed
      rw [deref_addConnection (s := s.beginEvent i.now) i hfree] at hq
      split_ifs at hq with hqp
      · simp only [Option.some.injEq] at hq
        exact .inl ⟨fd, hevent, hqp, hq.symm, hfd, if_pos rfl, rfl⟩
      · exact traced_kept hq rfl
  | ticked hevent => exact traced_tick hevent hq

theorem deref_of_used (hwf : WellFormed s) (h : Outcome i s (.ok s'))
    (hq : s'.deref q = some c') (hused : q.node < s.nextNode) : ∃ c, s.deref q = some c := by
  rcases traced_of_outcome hwf h hq with ⟨fd, _, rfl, _⟩ | ⟨c, hc, _⟩
  · exact absurd hused (lt_irrefl _)
  · exact ⟨c, hc⟩

end

end TChat.Server
