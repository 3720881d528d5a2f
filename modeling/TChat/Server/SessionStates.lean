import TChat.Server.Sessions
/-!
# What a session remembers

A session outlives its connection: for a minute its token brings it back.  This
module follows a session through losing its connection, coming back and being
kicked.
-/

namespace TChat.Server

open TChat.Common TChat.Lib

variable {now : Time} {history : List (Transition ServerApp Input)} {s s' : ServerApp}
  {i : Input} {u : Bytes}

/-! ## Sessions without a connection -/

def losesConnection (u : Bytes) (t : Transition ServerApp Input) : Bool :=
  (t.pre.sessions.find? u).any (·.connection.isSome) &&
    (t.post.sessions.find? u).any (·.connection.isNone)

def lostAt (history : List (Transition ServerApp Input)) (u : Bytes) : Option Time :=
  (history.filter (losesConnection u)).getLast?.map (·.input.now)

/-- A session that has lost its connection waits for it: its state and its time
say so, its token brings it back, and the timer removes it after a minute. -/
structure DetachedSessionsWait (history : List (Transition ServerApp Input))
    (s : ServerApp) : Prop where
  waits : ∀ u x, s.sessions.find? u = some x → x.connection = none →
    (x.state = .disconnected ∨ x.state = .kicked ∨ x.state = .expired) ∧
      lostAt history u = some x.disconnectedAt
  resumes : ∀ i p c request rest x, i.Possible s → s.deref p = some c →
    Handshakes i c request rest → request.kind = .reconnect →
    s.sessions.find? request.username = some x → x.connection = none →
    x.token = request.token → x.state ≠ .kicked → x.state ≠ .expired →
    ∃ s' c' x', step i s = .ok s' ∧ s'.deref p = some c' ∧ c'.status = .authenticated ∧
      s'.sessions.find? request.username = some x' ∧ x'.connection = some p
  lapses : ∀ i u x lost, i.Possible s → i.event = .timer →
    s.sessions.find? u = some x → x.connection = none → lostAt history u = some lost →
    seconds 60 ≤ i.now - lost →
    ∃ s', step i s = .ok s' ∧ s'.sessions.find? u = none

def TakesDownResumed (i : Input) (s : ServerApp) : Prop :=
  ∃ u x p, s.sessions.find? u = some x ∧ x.state = .reconnected ∧ x.connection = some p ∧
    TakesDown i s p

theorem lostAt_append (t : Transition ServerApp Input) :
    lostAt (history ++ [t]) u =
      if losesConnection u t then some t.input.now else lostAt history u := by
  unfold lostAt
  rw [List.filter_append]
  split_ifs with h
  · simp [h]
  · simp [h]

/-- What the state and the time of a session without a connection are, as long as
no resumed session loses its connection. -/
theorem waits_of_run (hrun : ServerRun now history s)
    (hresumed : ∀ t ∈ history, ¬TakesDownResumed t.input t.pre) :
    ∀ u x, s.sessions.find? u = some x → x.connection = none →
      x.state = .disconnected ∧ lostAt history u = some x.disconnectedAt := by
  refine hrun.invariant_of (fun t => ¬TakesDownResumed t.input t.pre)
    (fun history s => ∀ u x, s.sessions.find? u = some x → x.connection = none →
      x.state = .disconnected ∧ lostAt history u = some x.disconnectedAt) ?_ ?_ hresumed
  · intro u x hx
    simp [initialState] at hx
  · intro history s s' i hrun hwaits hstep hresumed u x' hx' hnone
    have hwf := wellFormed_of_run hrun
    rw [lostAt_append]
    cases (outcome_of_run hrun hstep).session hwf hx' with
    | kept hx =>
        have hkept : losesConnection u ⟨s, i, s'⟩ = false := by
          simp [losesConnection, hx, hnone]
        rw [hkept]
        exact hwaits u x' hx hnone
    | @detached x p hx hp hdown =>
        have hlost : losesConnection u ⟨s, i, s'⟩ = true := by
          simp only [losesConnection, hx, hx', Option.any_some, hp, hnone]
          rfl
        have hconnected : x.state = .connected := by
          rcases (hwf.sessions hx).state (by simp [hp]) with hstate | hstate
          · exact hstate
          · exact absurd ⟨u, x, p, hx, hstate, hp, hdown⟩ hresumed
        rw [hlost, ClientManager.detach, if_pos hconnected]
        exact ⟨rfl, rfl⟩
    | loggedIn => simp at hnone
    | reattached => simp at hnone

theorem resumes_of_disconnected (hwf : WellFormed s) {p : ConnectionPtr} {c : ClientConnection}
    {request : HandshakeRequest} {rest : Bytes} {x : ClientSession} (hpossible : i.Possible s)
    (hp : s.deref p = some c) (hshake : Handshakes i c request rest)
    (hkind : request.kind = .reconnect) (hx : s.sessions.find? request.username = some x)
    (htoken : x.token = request.token) (hstate : x.state = .disconnected) :
    ∃ s' c' x', step i s = .ok s' ∧ s'.deref p = some c' ∧ c'.status = .authenticated ∧
      s'.sessions.find? request.username = some x' ∧ x'.connection = some p := by
  refine ⟨_, c.authenticate rest i.now, { x with
    connection := some p
    state := .reconnected
    disconnectedAt := 0 }, step_reattached hwf hp hshake hpossible hkind hx htoken hstate,
    ?_, rfl, ?_, rfl⟩
  · exact ServerApp.deref_store_self (s := s.beginEvent i.now) hp rfl
  · simp

theorem lapses_of_disconnected (hwf : WellFormed s) {x : ClientSession}
    (hpossible : i.Possible s) (hevent : i.event = .timer) (hx : s.sessions.find? u = some x)
    (hnone : x.connection = none) (hstate : x.state = .disconnected)
    (hage : seconds 60 ≤ i.now - x.disconnectedAt) :
    ∃ s', step i s = .ok s' ∧ s'.sessions.find? u = none := by
  refine ⟨_, step_ticked hwf hpossible hevent, ?_⟩
  have hkeyed : (s.beginEvent i.now).SessionsKeyed := fun u x hx => (hwf.sessions hx).username_eq
  have hkept : (s.beginEvent i.now).losesConnection i x = false := by
    simp [ServerApp.losesConnection, hnone]
  rw [find?_tick hkeyed hwf.injective]
  simp [hx, hkept, markIfExpired_eq, hstate, hnone, hage, Option.filter]

/-- In a run in which no resumed session loses its connection again, sessions
without a connection wait for it. -/
theorem detached_sessions_wait (hrun : ServerRun now history s)
    (hresumed : ∀ t ∈ history, ¬TakesDownResumed t.input t.pre) :
    DetachedSessionsWait history s := by
  have hwf := wellFormed_of_run hrun
  have hwaits := waits_of_run hrun hresumed
  refine ⟨?_, ?_, ?_⟩
  · intro u x hx hnone
    obtain ⟨hstate, hlost⟩ := hwaits u x hx hnone
    exact ⟨.inl hstate, hlost⟩
  · intro i p c request rest x hpossible hp hshake hkind hx hnone htoken _ _
    exact resumes_of_disconnected hwf hpossible hp hshake hkind hx htoken
      (hwaits _ x hx hnone).1
  · intro i u x lost hpossible hevent hx hnone hlost hage
    obtain ⟨hstate, hlost'⟩ := hwaits u x hx hnone
    rw [hlost, Option.some.injEq] at hlost'
    exact lapses_of_disconnected hwf hpossible hevent hx hnone hstate (hlost' ▸ hage)

def reconnectPacket (username token : Bytes) : Bytes :=
  createPacketStream .reconnnect (username ++ literal "|" ++ token)

def quitPacket : Bytes := createPacketStream .command (literal "/quit")

def leaveOnce : List Input :=
  [accepting 5, receiving 5 (loginPacket (literal "a") (literal "b")), receiving 5 quitPacket]

def leaveTwice : List Input :=
  leaveOnce ++ [accepting 6,
    receiving 6 (reconnectPacket (literal "a") (generateToken Input.sample.random)),
    receiving 6 quitPacket]

theorem not_takesDownResumed_of_states
    (h : ∀ entry ∈ s.sessions.entries, entry.2.state ≠ .reconnected) :
    ¬TakesDownResumed i s := by
  rintro ⟨u, x, _, hx, hstate, _⟩
  exact h (u, x) (OrderedMap.mem_entries.mpr hx) hstate

theorem detached_sessions_wait_once : ∃ history s, ServerRun 0 history s ∧
    (∃ x, s.sessions.find? (literal "a") = some x ∧ x.connection = none) ∧
    DetachedSessionsWait history s := by
  obtain ⟨history, s, hrun, h⟩ := Run.exists_of_execute step leaveOnce (initialState 0)
    (fun history s =>
      (s.sessions.find? (literal "a")).any (·.connection = none) ∧
        history.all (·.pre.sessions.entries.all (·.2.state ≠ .reconnected)))
    (by decide +kernel)
  simp only [decide_eq_true_eq, Option.any_eq_true, List.all_eq_true] at h
  exact ⟨history, s, hrun, h.1, detached_sessions_wait hrun fun t ht =>
    not_takesDownResumed_of_states (h.2 t ht)⟩

/-- A client that leaves a second time is not waited for. -/
theorem detached_session_forgotten :
    ¬∀ now history s, ServerRun now history s → DetachedSessionsWait history s := by
  intro h
  obtain ⟨history, s, hrun, hlost⟩ := Run.exists_of_execute step leaveTwice (initialState 0)
    (fun _ s => (s.sessions.find? (literal "a")).any
      fun x => x.connection = none ∧ x.state = .reconnected)
    (by decide +kernel)
  simp only [decide_eq_true_eq, Option.any_eq_true] at hlost
  obtain ⟨x, hx, hnone, hstate⟩ := hlost
  have hwaits := ((h 0 history s hrun).waits _ x hx hnone).1
  simp [hstate] at hwaits

/-! ## Kicked sessions -/

def Kicks (i : Input) (s : ServerApp) (u : Bytes) : Prop :=
  ∃ keys buffer s', i.event = .console keys ∧
    readConsoleInput keys s.consoleInputBuffer = .ok (⟨.kickClient, u⟩, buffer) ∧
    ClientManager.kick i u ((s.beginEvent i.now).setConsoleInputBuffer buffer) =
      .ok (.kicked, s')

def LogsIn (i : Input) (s : ServerApp) (p : ConnectionPtr) (u : Bytes) : Prop :=
  ∃ c request rest, s.deref p = some c ∧ Handshakes i c request rest ∧
    request.kind = .login ∧ request.username = u ∧
    i.verifyClient request.username request.password = .authorized

/-- The event brings a Reconnect packet for the user `u` with the token `token`. -/
def AsksBack (i : Input) (s : ServerApp) (p : ConnectionPtr) (u token : Bytes) : Prop :=
  ∃ c request rest, s.deref p = some c ∧ Handshakes i c request rest ∧
    request.kind = .reconnect ∧ request.username = u ∧ request.token = token

/-- What a kick of `u` from the state `s` to `s'` is to bring about: the session
is stored as kicked, nobody who logged in as `u` stays, and the token of the
session opens no connection until `u` logs in again. -/
structure ShutsOut (history : List (Transition ServerApp Input)) (s s' : ServerApp)
    (u : Bytes) : Prop where
  stored : ∃ x, s'.sessions.find? u = some x ∧ x.state = .kicked ∧ x.connection = none
  closed : ∀ t ∈ history, ∀ p c, LogsIn t.input t.pre p u → s'.deref p = some c →
    c.status ≠ .authenticated
  barred : ∀ x after s₁ i s₂ p c, s.sessions.find? u = some x → Run step s' after s₁ →
    (∀ t ∈ after, ∀ q, ¬LogsIn t.input t.pre q u) → AsksBack i s₁ p u x.token →
    step i s₁ = .ok s₂ → s₂.deref p = some c → c.status ≠ .authenticated

theorem session_of_kick (hrun : ServerRun now history s) (hstep : step i s = .ok s')
    (hkicks : Kicks i s u) : ∃ x, s.sessions.find? u = some x ∧
      s'.sessions.find? u =
        some (if x.connection = none then x else ClientManager.detach i.now x) := by
  have hwf := wellFormed_of_run hrun
  have hpossible := possible_of_step hstep
  obtain ⟨keys, buffer, s₁, hevent, hread, hkick⟩ := hkicks
  obtain hx | ⟨x, hx⟩ := Option.eq_none_or_eq_some (s.sessions.find? u)
  · rw [ServerApp.kick_unknown (s := (s.beginEvent i.now).setConsoleInputBuffer buffer) hx]
      at hkick
    simp at hkick
  refine ⟨x, hx, ?_⟩
  obtain hconnection | ⟨p, hconnection⟩ := Option.eq_none_or_eq_some x.connection
  · rw [step_kicked_detached hpossible hevent hread hx hconnection, Except.ok.injEq] at hstep
    rw [if_pos hconnection, ← hstep]
    exact hx
  · obtain ⟨c, hp, _⟩ := (hwf.sessions hx).holds p hconnection
    have hheld : ((s.beginEvent i.now).setConsoleInputBuffer buffer).HeldOnce := hwf.injective
    rw [step_kicked_attached hwf hpossible hevent hread hx hconnection hp,
      Except.ok.injEq] at hstep
    rw [← hstep, find?_release _ _ hheld]
    simp [hx, hconnection]

/-- A kicked user is back with the next Reconnect packet, unless the session had
been resumed before. -/
theorem resumes_after_kick (hrun : ServerRun now history s) (hstep : step i s = .ok s')
    (hkicks : Kicks i s u) {x : ClientSession} (hx : s.sessions.find? u = some x)
    (hstate : x.state ≠ .reconnected) {i' : Input} {p : ConnectionPtr}
    (hpossible : i'.Possible s') (hasks : AsksBack i' s' p u x.token) :
    ∃ s₁ c, step i' s' = .ok s₁ ∧ s₁.deref p = some c ∧ c.status = .authenticated := by
  have hwf' := wellFormed_of_run (hrun.next hstep)
  have hok := (wellFormed_of_run hrun).sessions hx
  obtain ⟨y, hy, hkicked⟩ := session_of_kick hrun hstep hkicks
  rw [hx, Option.some.injEq] at hy
  subst hy
  obtain ⟨c, request, rest, hp, hshake, hkind, rfl, htoken⟩ := hasks
  have hleft : ∃ y, s'.sessions.find? request.username = some y ∧ y.token = x.token ∧
      y.state = .disconnected := by
    refine ⟨_, hkicked, ?_⟩
    by_cases hconnection : x.connection = none
    · rw [if_pos hconnection]
      refine ⟨rfl, ?_⟩
      cases hx' : x.state with
      | connected => exact absurd hconnection (hok.connected hx')
      | reconnected => exact absurd hx' hstate
      | kicked => exact absurd hx' hok.stored.1
      | expired => exact absurd hx' hok.stored.2
      | disconnected => rfl
    · have hconnected : x.state = .connected :=
        (hok.state hconnection).resolve_right hstate
      rw [if_neg hconnection, ClientManager.detach, if_pos hconnected]
      exact ⟨rfl, rfl⟩
  obtain ⟨y, hy, hytoken, hystate⟩ := hleft
  obtain ⟨s₁, c', _, hs₁, hc', hstatus, _⟩ := resumes_of_disconnected hwf' hpossible hp hshake
    hkind hy (hytoken.trans htoken.symm) hystate
  exact ⟨s₁, c', hs₁, hc', hstatus⟩

/-- No kick does, in any run: the state `Kicked` is never stored. -/
theorem kick_not_shutsOut (hrun : ServerRun now history s) (hstep : step i s = .ok s')
    (hkicks : Kicks i s u) :
    (∃ x, s'.sessions.find? u = some x ∧ x.state ≠ .kicked) ∧ ¬ShutsOut history s s' u := by
  have hwf' := wellFormed_of_run (hrun.next hstep)
  obtain ⟨_, _, hkicked⟩ := session_of_kick hrun hstep hkicks
  refine ⟨⟨_, hkicked, (hwf'.sessions hkicked).stored.1⟩, ?_⟩
  rintro ⟨⟨x, hx, hstate, _⟩, _, _⟩
  exact (hwf'.sessions hx).stored.1 hstate

def keysOf (line : Bytes) : List Int :=
  line.map (fun byte => (byte.toNat : Int)) ++ [10]

def typing (line : Bytes) : Input :=
  { Input.sample with event := .console (keysOf line) }

theorem ok_of_toOption {ε α : Type} {result : Except ε α} {a : α}
    (h : result.toOption = some a) : result = .ok a := by
  cases result with
  | error e => simp [Except.toOption] at h
  | ok b => simpa [Except.toOption] using h

theorem exists_kick : ∃ history s s', ServerRun 0 history s ∧
    step (typing (literal "/kick a")) s = .ok s' ∧
    Kicks (typing (literal "/kick a")) s (literal "a") := by
  obtain ⟨history, s, hrun, h⟩ := Run.exists_of_execute step
    [accepting 5, receiving 5 (loginPacket (literal "a") (literal "b"))] (initialState 0)
    (fun _ s =>
      (step (typing (literal "/kick a")) s).toOption.isSome ∧
      (readConsoleInput (keysOf (literal "/kick a")) s.consoleInputBuffer).toOption =
        some (⟨.kickClient, literal "a"⟩, []) ∧
      (ClientManager.kick (typing (literal "/kick a")) (literal "a")
        ((s.beginEvent 0).setConsoleInputBuffer [])).toOption.any (·.1 = .kicked))
    (by decide +kernel)
  simp only [decide_eq_true_eq, Option.isSome_iff_exists, Option.any_eq_true] at h
  obtain ⟨⟨s', hstep⟩, hread, ⟨status, s₁⟩, hkick, rfl⟩ := h
  exact ⟨history, s, s', hrun, ok_of_toOption hstep, keysOf (literal "/kick a"), [], s₁, rfl,
    ok_of_toOption hread, ok_of_toOption hkick⟩

theorem kick_not_shutsOut_connected : ∃ history s s', ServerRun 0 history s ∧
    Kicks (typing (literal "/kick a")) s (literal "a") ∧
    ¬ShutsOut history s s' (literal "a") := by
  obtain ⟨history, s, s', hrun, hstep, hkicks⟩ := exists_kick
  exact ⟨history, s, s', hrun, hkicks, (kick_not_shutsOut hrun hstep hkicks).2⟩

/-- A kick is reported and not stored. -/
theorem kick_not_stored : ¬∀ now history s s' i u, ServerRun now history s →
    step i s = .ok s' → Kicks i s u → ShutsOut history s s' u := by
  intro h
  obtain ⟨history, s, s', hrun, hstep, hkicks⟩ := exists_kick
  obtain ⟨x, hx, hkicked, _⟩ := (h 0 history s s' _ _ hrun hstep hkicks).stored
  exact ((wellFormed_of_run (hrun.next hstep)).sessions hx).stored.1 hkicked

end TChat.Server
