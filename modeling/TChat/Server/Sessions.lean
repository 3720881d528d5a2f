import TChat.Server.Proofs.Deliveries
import TChat.Server.Proofs.Preservation
/-!
# Sessions and their connections

What holds of the two maps of `ClientManager` in every reachable state, and what
holds only as long as nobody logs in under a name that is in use.
-/

namespace TChat.Server

open TChat.Common TChat.Lib

/-! ## Sample events -/

/-- An input to vary: the database accepts every login, every `kevent` works. -/
def Input.sample : Input where
  event := .timer
  now := 0
  sslRead := []
  sslWrite := []
  verifyClient := fun _ _ => .authorized
  registerClient := fun _ _ => .clientRegistered
  random := fun _ => 0
  kevent := fun _ => true

def accepting (fd : Fd) : Input :=
  { Input.sample with event := .accept (.accepted fd true true true) }

def receiving (fd : Fd) (bytes : Bytes) : Input :=
  { Input.sample with
    event := .read fd
    sslRead := [.received bytes] }

theorem receiving_possible {s : ServerApp} (h : s.clock = 0) (fd : Fd) (bytes : Bytes) :
    (receiving fd bytes).Possible s :=
  ⟨h.le, nofun⟩

def loginPacket (username password : Bytes) : Bytes :=
  createPacketStream .login (username ++ literal "|" ++ password)

structure Idle (c : ClientConnection) : Prop where
  authenticated : c.status = .authenticated
  rxBuffer : c.rxBuffer = []
  reading : c.readWaitingForWrite = false
  writing : c.writeWaitingForRead = false

theorem Idle.receives {i : Input} {c : ClientConnection} {bytes : Bytes} (h : Idle c)
    (hevent : i.event = .read c.fd) (houtcome : readOutcome i.sslRead = some (.received bytes))
    (hnonempty : bytes ≠ []) (hbounded : bytes.length ≤ readBufferSize) :
    Receives i c bytes where
  reads := ⟨h.writing, .inl ⟨hevent, h.reading⟩⟩
  listening := by simp [h.authenticated]
  outcome := houtcome
  nonempty := hnonempty
  bounded := hbounded

theorem exists_idle : ∃ history s c, ServerRun 0 history s ∧ s.clock = 0 ∧
    s.deref ⟨5, 0⟩ = some c ∧ c.fd = 5 ∧ Idle c ∧
      ClientManager.findSesssionFromConnection ⟨5, 0⟩ s ≠ none := by
  obtain ⟨history, s, hrun, h⟩ := Run.exists_of_execute step
    [accepting 5, receiving 5 (loginPacket (literal "a") (literal "b"))] (initialState 0)
    (fun _ s => s.clock = 0 ∧
      (ClientManager.findSesssionFromConnection ⟨5, 0⟩ s).isSome ∧
        (s.deref ⟨5, 0⟩).any fun c => c.fd = 5 ∧ c.status = .authenticated ∧
          c.rxBuffer = [] ∧ c.readWaitingForWrite = false ∧ c.writeWaitingForRead = false)
    (by decide +kernel)
  simp only [decide_eq_true_eq, Option.any_eq_true] at h
  obtain ⟨hclock, hsession, c, hp, hfd, hstatus, hbuffer, hreading, hwriting⟩ := h
  exact ⟨history, s, c, hrun, hclock, hp, hfd, ⟨hstatus, hbuffer, hreading, hwriting⟩,
    Option.isSome_iff_ne_none.mp hsession⟩

variable {now : Time} {history : List (Transition ServerApp Input)} {s s' : ServerApp}
  {i : Input}

/-! ## The joint invariant -/

/-- In every reachable state both maps are keyed by their own fields, every
connection has an SSL object, and what a session holds is the address of a live
entry past the handshake, which no other session holds. -/
theorem maps_consistent (hrun : ServerRun now history s) :
    (∀ fd c, s.connections.find? fd = some c → c.fd = fd ∧ c.ssl ≠ none) ∧
    (∀ u x, s.sessions.find? u = some x → x.username = u) ∧
    (∀ u x p, s.sessions.find? u = some x → x.connection = some p →
      ∃ c, s.deref p = some c ∧ c.status ≠ .awaitingAuth) ∧
    (∀ u v x y p, s.sessions.find? u = some x → s.sessions.find? v = some y →
      x.connection = some p → y.connection = some p → u = v) ∧
    (∀ u x, s.sessions.find? u = some x → x.connection ≠ none →
      x.state = .connected ∨ x.state = .reconnected) := by
  have hwf := wellFormed_of_run hrun
  refine ⟨?_, ?_, ?_, ?_, ?_⟩
  · intro fd c hc
    exact ⟨(hwf.connections hc).fd_eq, (hwf.connections hc).ssl⟩
  · intro u x hx
    exact (hwf.sessions hx).username_eq
  · intro u x p hx hp
    exact (hwf.sessions hx).holds p hp
  · intro u v x y p hx hy hp hq
    exact hwf.injective hx hy hp hq
  · intro u x hx hne
    exact (hwf.sessions hx).state hne

theorem exists_loggedIn : ∃ history s, ServerRun 0 history s ∧
    s.sessions.entries.length = 1 ∧ s.connections.entries.length = 1 := by
  obtain ⟨history, s, hrun, h⟩ := Run.exists_of_execute step
    [accepting 5, receiving 5 (loginPacket (literal "a") (literal "b"))] (initialState 0)
    (fun _ s => s.sessions.entries.length = 1 ∧ s.connections.entries.length = 1)
    (by decide +kernel)
  exact ⟨history, s, hrun, by simpa using h⟩

theorem maps_consistent_loggedIn : ∃ history s, ServerRun 0 history s ∧
    s.sessions.entries.length = 1 ∧ ∀ u x, s.sessions.find? u = some x → x.username = u := by
  obtain ⟨history, s, hrun, hsessions, _⟩ := exists_loggedIn
  exact ⟨history, s, hrun, hsessions, (maps_consistent hrun).2.1⟩

/-! ## Authenticated connections and their sessions -/

/-- Every authenticated connection is the connection of exactly one session, so
that bytes from it never meet a null session. -/
def AuthenticatedHaveSessions (s : ServerApp) : Prop :=
  (∀ p c, s.deref p = some c → c.status = .authenticated →
    ∃! u, ∃ x, s.sessions.find? u = some x ∧ x.connection = some p) ∧
  (∀ i p c bytes, s.deref p = some c → Receives i c bytes → c.status ≠ .awaitingAuth →
    ∃ x, ClientManager.findSesssionFromConnection p s = some x) ∧
  ∀ i, step i s ≠ .error .nullSession

/-- The event logs a client in under a name whose session belongs to a
connection that is authenticated. -/
def LogsInOver (i : Input) (s : ServerApp) : Prop :=
  ∃ p c request rest x q d, s.deref p = some c ∧ Handshakes i c request rest ∧
    request.kind = .login ∧ i.verifyClient request.username request.password = .authorized ∧
    s.sessions.find? request.username = some x ∧ x.connection = some q ∧
    s.deref q = some d ∧ d.status = .authenticated

theorem represented_iff : s.membership.Represented ↔
    ∀ p c, s.deref p = some c → c.status = .authenticated →
      ∃ u x, s.sessions.find? u = some x ∧ x.connection = some p := by
  have hstage (p : ConnectionPtr) : s.membership.stage p = some .member ↔
      ∃ c, s.deref p = some c ∧ c.status = .authenticated := by
    simp only [ServerApp.membership, Option.map_eq_some_iff]
    refine exists_congr fun c => and_congr_right fun _ => ?_
    cases c.status <;> simp [stageOf]
  have hseat (p : ConnectionPtr) :
      (∃ u y, s.membership.seat u = some y ∧ y.holder = some p) ↔
        ∃ u x, s.sessions.find? u = some x ∧ x.connection = some p := by
    refine exists_congr fun u => ?_
    simp only [ServerApp.membership, Option.map_eq_some_iff]
    constructor
    · rintro ⟨_, ⟨x, hx, rfl⟩, hp⟩
      exact ⟨x, hx, hp⟩
    · rintro ⟨x, hx, hp⟩
      exact ⟨_, ⟨x, hx, rfl⟩, hp⟩
  simp only [Membership.Represented, hstage, hseat, forall_exists_index, and_imp]

theorem logsInOver_of_displaces {move : Move ConnectionPtr Bytes Bytes Time}
    (hmove : MoveOf i s move) (h : s.membership.Displaces move) : LogsInOver i s := by
  cases hmove with
  | @loggedIn p c request rest hp hshake hkind hverify =>
      obtain ⟨_, q, hseat, hholder, hstage⟩ := h
      simp only [ServerApp.membership, Option.map_eq_some_iff] at hseat hstage
      obtain ⟨x, hx, rfl⟩ := hseat
      obtain ⟨d, hd, hmember⟩ := hstage
      refine ⟨p, c, request, rest, x, q, d, hp, hshake, hkind, hverify, hx, hholder, hd, ?_⟩
      cases hd' : d.status <;> simp_all [stageOf]
  | _ => exact h.elim

/-- As long as nobody logs in over an authenticated connection, every
authenticated connection is represented by a session. -/
theorem represented_of_run (hrun : ServerRun now history s)
    (hlogins : ∀ t ∈ history, ¬LogsInOver t.input t.pre) : s.membership.Represented := by
  refine hrun.invariant_of (fun t => ¬LogsInOver t.input t.pre)
    (fun _ s => s.membership.Represented) ?_ ?_ hlogins
  · intro p hp
    simp [ServerApp.membership, initialState, ServerApp.deref] at hp
  · intro history s s' i hrun hrepresented hstep hlogin
    have hwf := wellFormed_of_run hrun
    obtain ⟨move, hmove, henabled, heq⟩ := (outcome_of_run hrun hstep).refines hwf
    rw [heq]
    exact hrepresented.apply (sound_membership hwf) henabled
      fun hdisplaces => hlogin (logsInOver_of_displaces hmove hdisplaces)

theorem authenticatedHaveSessions_of_represented (hwf : WellFormed s)
    (h : s.membership.Represented) : AuthenticatedHaveSessions s := by
  rw [represented_iff] at h
  have hfind : ∀ p c, s.deref p = some c → c.status = .authenticated →
      ClientManager.findSesssionFromConnection p s ≠ none := by
    intro p c hp hstatus hnone
    obtain ⟨u, x, hx, hxp⟩ := h p c hp hstatus
    exact findSession_none.mp hnone u x hx hxp
  refine ⟨?_, ?_, ?_⟩
  · intro p c hp hstatus
    obtain ⟨u, x, hx, hxp⟩ := h p c hp hstatus
    refine ⟨u, ⟨x, hx, hxp⟩, ?_⟩
    rintro v ⟨y, hy, hyp⟩
    exact hwf.injective hy hx hyp hxp
  · intro i p c bytes hp hreceives hstatus
    have hauthenticated : c.status = .authenticated := by
      cases hc : c.status with
      | awaitingAuth => exact absurd hc hstatus
      | authenticated => rfl
      | closing => exact absurd hc hreceives.listening
    exact Option.ne_none_iff_exists'.mp (hfind p c hp hauthenticated)
  · intro i hstep
    have houtcome := outcome_step (i := i) hwf
    rw [hstep] at houtcome
    cases houtcome with
    | nullSession hp hstream _ hnone => exact hfind _ _ hp hstream.authenticated hnone

theorem authenticatedHaveSessions_of_run (hrun : ServerRun now history s)
    (hlogins : ∀ t ∈ history, ¬LogsInOver t.input t.pre) : AuthenticatedHaveSessions s :=
  authenticatedHaveSessions_of_represented (wellFormed_of_run hrun)
    (represented_of_run hrun hlogins)

theorem possible_of_step (h : step i s = .ok s') : i.Possible s := by
  unfold step at h
  split_ifs at h with hpossible
  exact hpossible

theorem not_authenticatedHaveSessions_of_logsInOver (hrun : ServerRun now history s)
    (hstep : step i s = .ok s') (h : LogsInOver i s) : ¬AuthenticatedHaveSessions s' := by
  obtain ⟨p, c, request, rest, x, q, d, hp, hshake, hkind, hverify, hx, hheld, hd, hstatus⟩ := h
  have hwf := wellFormed_of_run hrun
  have hguest := hshake.awaiting
  rw [step_loggedIn hwf hp hshake (possible_of_step hstep) hkind hverify] at hstep
  simp only [Except.ok.injEq] at hstep
  have hmoved := membership_loggedIn (i := i) hp request rest
    (createPacketStream .ack (literal "OK|" ++ generateToken i.random))
  rw [hstep] at hmoved
  have henabled : s.membership.Enabled
      (.take p request.username (generateToken i.random) i.now) := by
    simp [Membership.Enabled, stage_eq hp, hguest, stageOf]
  have hdisplaces : s.membership.Displaces
      (.take p request.username (generateToken i.random) i.now) := by
    refine ⟨seatOf x, q, ?_, hheld, ?_⟩
    · simp [ServerApp.membership, hx]
    · simp [stage_eq hd, hstatus, stageOf]
  have hlost := Membership.not_represented_of_displaces (sound_membership hwf) henabled hdisplaces
  rw [← hmoved, represented_iff] at hlost
  rintro ⟨hsessions, _, _⟩
  refine hlost fun r e hr he => ?_
  obtain ⟨u, ⟨y, hy, hyr⟩, _⟩ := hsessions r e hr he
  exact ⟨u, y, hy, hyr⟩

/-- A run keeps every authenticated connection with its session if and only if
nobody logs in under a name whose session belongs to an authenticated one. -/
theorem authenticated_have_sessions (hrun : ServerRun now history s) :
    (∀ t ∈ history, AuthenticatedHaveSessions t.post) ↔
      ∀ t ∈ history, ¬LogsInOver t.input t.pre := by
  constructor
  · intro h t ht hlogin
    obtain ⟨hstep, before, hbefore⟩ := hrun.transition ht
    exact not_authenticatedHaveSessions_of_logsInOver hbefore hstep hlogin (h t ht)
  · intro hlogins
    induction hrun with
    | start => simp
    | next hrun hstep ih =>
        have hlast := authenticatedHaveSessions_of_run (hrun.next hstep) hlogins
        rw [List.forall_mem_append] at hlogins
        rw [List.forall_mem_append]
        exact ⟨ih hlogins.1, by simpa using hlast⟩

theorem not_logsInOver_of_no_session (h : s.sessions.entries = []) : ¬LogsInOver i s := by
  rintro ⟨_, _, request, _, _, _, _, _, _, _, _, hfind, _⟩
  simp [OrderedMap.find?, OrderedMap.lookup, h] at hfind

theorem authenticated_have_sessions_loggedIn : ∃ history s, ServerRun 0 history s ∧
    (∃ p c, s.deref p = some c ∧ c.status = .authenticated) ∧
    ∀ t ∈ history, AuthenticatedHaveSessions t.post := by
  obtain ⟨history, s, hrun, h⟩ := Run.exists_of_execute step
    [accepting 5, receiving 5 (loginPacket (literal "a") (literal "b"))] (initialState 0)
    (fun history s =>
      (s.deref ⟨5, 0⟩).any (·.status = .authenticated) ∧
        history.all (·.pre.sessions.entries.isEmpty))
    (by decide +kernel)
  simp only [decide_eq_true_eq, Option.any_eq_true, List.all_eq_true, List.isEmpty_iff] at h
  obtain ⟨⟨c, hc, hstatus⟩, hbefore⟩ := h
  exact ⟨history, s, hrun, ⟨_, c, hc, hstatus⟩, (authenticated_have_sessions hrun).mpr
    fun t ht => not_logsInOver_of_no_session (hbefore t ht)⟩

def loginTwice : List Input :=
  [accepting 5, accepting 6, receiving 5 (loginPacket (literal "a") (literal "b")),
    receiving 6 (loginPacket (literal "a") (literal "b"))]

theorem authenticated_without_session :
    ¬∀ now history s, ServerRun now history s → AuthenticatedHaveSessions s := by
  intro h
  obtain ⟨history, s, hrun, hfault⟩ := Run.exists_of_execute step loginTwice (initialState 0)
    (fun _ s =>
      match step (receiving 5 (createPacketStream .message (literal "hello"))) s with
      | .error e => e = .nullSession
      | .ok _ => false)
    (by decide +kernel)
  have hnull := (h 0 history s hrun).2.2
    (receiving 5 (createPacketStream .message (literal "hello")))
  cases hstep : step (receiving 5 (createPacketStream .message (literal "hello"))) s with
  | ok s' => simp [hstep] at hfault
  | error e =>
      rw [hstep] at hfault hnull
      simp only [decide_eq_true_eq] at hfault
      exact hnull (congrArg Except.error hfault)

end TChat.Server
