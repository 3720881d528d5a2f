import TChat.Lib.Membership
import TChat.Server.Proofs.Changes
/-!
# The server as a membership service

`ServerApp.membership` forgets everything about the server but who is connected,
how far each connection has come and who sits where.  `step_refines`: every
event is one move of the abstract service, possible when it happens.
-/

namespace TChat.Server

open TChat.Common TChat.Lib

def stageOf : ConnectionStatus → Stage
  | .awaitingAuth => .guest
  | .authenticated => .member
  | .closing => .leaving

def modeOf : SessionState → Mode
  | .connected => .fresh
  | .reconnected => .resumed
  | .kicked | .expired | .disconnected => .vacant

def seatOf (x : ClientSession) : Seat ConnectionPtr Bytes Time :=
  ⟨x.token, x.connection, modeOf x.state, x.disconnectedAt⟩

def ServerApp.membership (s : ServerApp) : Membership ConnectionPtr Bytes Bytes Time where
  stage := fun p => (s.deref p).map fun c => stageOf c.status
  seat := fun u => (s.sessions.find? u).map seatOf

inductive MoveOf (i : Input) (s : ServerApp) : Move ConnectionPtr Bytes Bytes Time → Prop
  | quiet : MoveOf i s (.sweep ∅ ∅ ∅ i.now)
  | arrived {fd : Fd} :
      i.event = .accept (.accepted fd true true true) → MoveOf i s (.arrive ⟨fd, s.nextNode⟩)
  | loggedIn {p : ConnectionPtr} {c : ClientConnection} {request : HandshakeRequest}
      {rest : Bytes} :
      s.deref p = some c → Handshakes i c request rest → request.kind = .login →
      i.verifyClient request.username request.password = .authorized →
      MoveOf i s (.take p request.username (generateToken i.random) i.now)
  | reattached {p : ConnectionPtr} {c : ClientConnection} {request : HandshakeRequest}
      {rest : Bytes} {session : ClientSession} :
      s.deref p = some c → Handshakes i c request rest → request.kind = .reconnect →
      s.sessions.find? request.username = some session →
      session.token = request.token → session.state = .disconnected →
      MoveOf i s (.resume p request.username 0)
  | refused {p : ConnectionPtr} {c : ClientConnection} :
      s.deref p = some c → c.status = .awaitingAuth → MoveOf i s (.sweep ∅ {p} ∅ i.now)
  | dropped {p : ConnectionPtr} {c : ClientConnection} {buffer : Bytes}
      {actions : List Action} :
      s.deref p = some c → Drop i s p c buffer actions → MoveOf i s (.sweep {p} ∅ ∅ i.now)
  | ticked : i.event = .timer →
      MoveOf i s (.sweep {p | ∃ c, s.deref p = some c ∧ TimesOut i c}
        {p | ∃ c, s.deref p = some c ∧ (ClientManager.markIfTimedOut i c).status = .closing}
        {u | ∃ x, s.sessions.find? u = some x ∧ x.state = .disconnected ∧
          seconds 60 ≤ i.now - x.disconnectedAt} i.now)

section

variable {i : Input} {s s' : ServerApp} {p : ConnectionPtr} {c c' : ClientConnection}

theorem membership_eq {m : Membership ConnectionPtr Bytes Bytes Time}
    (hstage : ∀ q, (s'.deref q).map (fun c => stageOf c.status) = m.stage q)
    (hseat : ∀ u, (s'.sessions.find? u).map seatOf = m.seat u) : s'.membership = m :=
  Membership.ext (funext hstage) (funext hseat)

theorem seatOf_detach {x : ClientSession} (now : Time)
    (hstored : x.state ≠ .kicked ∧ x.state ≠ .expired) :
    seatOf (ClientManager.detach now x) = (seatOf x).vacate now := by
  unfold ClientManager.detach Seat.vacate seatOf
  cases hstate : x.state <;> simp_all [modeOf]

theorem sound_membership (hwf : WellFormed s) : s.membership.Sound := by
  have hseat : ∀ {u y}, s.membership.seat u = some y →
      ∃ x, s.sessions.find? u = some x ∧ seatOf x = y := by
    intro u y hy
    exact Option.map_eq_some_iff.mp hy
  constructor
  · intro u y p hy hp
    obtain ⟨x, hx, rfl⟩ := hseat hy
    obtain ⟨c, hc, hstatus⟩ := (hwf.sessions hx).holds p hp
    simp only [ServerApp.membership, hc, Option.map_some]
    cases hs : c.status <;> simp_all [stageOf]
  · intro u v y z p hy hz hp hq
    obtain ⟨x, hx, rfl⟩ := hseat hy
    obtain ⟨x', hx', rfl⟩ := hseat hz
    exact hwf.injective hx hx' hp hq
  · intro u y p hy hp
    obtain ⟨x, hx, rfl⟩ := hseat hy
    have hconnection : x.connection ≠ none := by
      rw [show x.connection = some p from hp]
      simp
    rcases (hwf.sessions hx).state hconnection with hstate | hstate <;>
      simp [seatOf, hstate, modeOf]
  · intro u y hy hfresh
    obtain ⟨x, hx, rfl⟩ := hseat hy
    apply (hwf.sessions hx).connected
    cases hstate : x.state <;> simp_all [seatOf, modeOf]

theorem Edit.status {filter : Option Bool} {actions : List Action}
    (h : Edit i s p c c' filter actions) :
    c'.status = c.status ∨ c.status = .awaitingAuth ∧ c'.status = .closing := by
  cases h with
  | loginRefused hshake => exact .inr ⟨hshake.awaiting, rfl⟩
  | _ => exact .inl rfl

theorem membership_quiet (hsessions : s'.sessions = s.sessions)
    (hstatus : ∀ q, (s'.deref q).map (·.status) = (s.deref q).map (·.status)) :
    s'.membership = s.membership.apply (.sweep ∅ ∅ ∅ i.now) := by
  rw [Membership.apply_quiet]
  apply membership_eq
  · intro q
    have h := congrArg (Option.map stageOf) (hstatus q)
    simpa [Option.map_map, ServerApp.membership, Function.comp_def] using h
  · intro u
    rw [hsessions]
    rfl

theorem broadcast_status (sender : Option ConnectionPtr) (senderFd : Fd) (packet : Bytes)
    (q : ConnectionPtr) :
    ((s.broadcastAndEnable i sender senderFd packet).deref q).map (·.status) =
      (s.deref q).map (·.status) := by
  rw [ServerApp.deref_broadcastAndEnable, Option.map_map]
  congr 1
  funext c
  simp only [Function.comp_apply]
  split_ifs <;> rfl

theorem stage_eq (h : s.deref p = some c) : s.membership.stage p = some (stageOf c.status) := by
  simp only [ServerApp.membership, h, Option.map_some]

theorem seat_detached (hwf : WellFormed s) (gone : Set ConnectionPtr)
    (loses : ClientSession → Bool)
    (hloses : ∀ x, loses x = true ↔ Membership.HeldBy gone (seatOf x)) (now : Time) (u : Bytes) :
    ((s.sessions.find? u).map fun x =>
      if loses x then ClientManager.detach now x else x).map seatOf =
      (s.membership.apply (.sweep gone ∅ ∅ now)).seat u := by
  simp only [Membership.apply, ServerApp.membership, Set.mem_empty_iff_false, if_false]
  cases hfind : s.sessions.find? u with
  | none => rfl
  | some x =>
      simp only [Option.map_some, Option.some.injEq]
      by_cases hx : loses x = true
      · rw [if_pos hx, if_pos ((hloses x).mp hx), seatOf_detach now (hwf.sessions hfind).stored]
      · rw [if_neg hx, if_neg fun h => hx ((hloses x).mpr h)]

theorem markIfExpired_detach (hwf : WellFormed s) {u : Bytes} {x : ClientSession}
    (hx : s.sessions.find? u = some x)
    (hlapsed : ¬(x.state = .disconnected ∧ seconds 60 ≤ i.now - x.disconnectedAt)) :
    let y := if s.losesConnection i x then ClientManager.detach i.now x else x
    ClientManager.markIfExpired i y = y ∧ y.state ≠ .expired := by
  have hok := hwf.sessions hx
  intro y
  have hy : y.state ≠ .expired ∧
      ¬(y.state = .disconnected ∧ seconds 60 ≤ i.now - y.disconnectedAt) := by
    dsimp only [y]
    by_cases hloses : s.losesConnection i x = true
    · rw [if_pos hloses, ClientManager.detach]
      split_ifs with hconnected
      · simp [seconds]
      · exact ⟨hok.stored.2, hlapsed⟩
    · rw [if_neg hloses]
      exact ⟨hok.stored.2, hlapsed⟩
  refine ⟨?_, hy.1⟩
  rw [markIfExpired_eq, if_neg]
  rintro ⟨hstate, _, hage⟩
  exact hy.2 ⟨hstate, hage⟩

theorem seat_tick (hwf : WellFormed s) (u : Bytes) :
    ((s.tick i).sessions.find? u).map seatOf =
      (s.membership.apply (.sweep {p | ∃ c, s.deref p = some c ∧ TimesOut i c}
        {p | ∃ c, s.deref p = some c ∧ (ClientManager.markIfTimedOut i c).status = .closing}
        {u | ∃ x, s.sessions.find? u = some x ∧ x.state = .disconnected ∧
          seconds 60 ≤ i.now - x.disconnectedAt} i.now)).seat u := by
  have hkeyed : s.SessionsKeyed := fun u x hx => (hwf.sessions hx).username_eq
  have hloses (x : ClientSession) : s.losesConnection i x = true ↔
      Membership.HeldBy {p | ∃ c, s.deref p = some c ∧ TimesOut i c} (seatOf x) := by
    simp only [ServerApp.losesConnection, Option.any_eq_true, Option.bind_eq_some_iff,
      decide_eq_true_eq, Membership.HeldBy, seatOf, Set.mem_ofPred_eq]
    constructor
    · rintro ⟨c, ⟨p, hp, hc⟩, htimedOut⟩
      exact ⟨p, ⟨c, hc, htimedOut⟩, hp⟩
    · rintro ⟨p, ⟨c, hc, htimedOut⟩, hp⟩
      exact ⟨c, ⟨p, hp, hc⟩, htimedOut⟩
  rw [find?_tick hkeyed hwf.injective]
  cases hfind : s.sessions.find? u with
  | none => simp [Membership.apply, ServerApp.membership, hfind]
  | some x =>
      have hlapsed : u ∈ {u | ∃ x, s.sessions.find? u = some x ∧ x.state = .disconnected ∧
          seconds 60 ≤ i.now - x.disconnectedAt} ↔
            x.state = .disconnected ∧ seconds 60 ≤ i.now - x.disconnectedAt := by
        simp only [Set.mem_ofPred_eq, hfind, Option.some.injEq, exists_eq_left']
      by_cases h : x.state = .disconnected ∧ seconds 60 ≤ i.now - x.disconnectedAt
      · -- the session has been without a connection for a minute
        have hconnection : x.connection = none := by
          by_contra hne
          rcases (hwf.sessions hfind).state hne with hstate | hstate <;> simp [hstate] at h
        have hkept : s.losesConnection i x = false := by
          simp [ServerApp.losesConnection, hconnection]
        rw [Membership.apply]
        simp only [hlapsed, h, and_self, if_true, Option.map_some, hkept, Bool.false_eq_true,
          if_false, markIfExpired_eq, hconnection]
        simp [Option.filter]
      · obtain ⟨hsame, hstate⟩ := markIfExpired_detach (i := i) hwf hfind h
        have hdetached := seat_detached hwf _ _ hloses i.now u
        rw [Membership.apply] at hdetached ⊢
        simp only [hlapsed, h, if_false, Set.mem_empty_iff_false, hfind,
          Option.map_some] at hdetached ⊢
        rw [hsame, ← hdetached]
        simp [Option.filter, hstate]

theorem stage_tick (q : ConnectionPtr) :
    ((s.tick i).deref q).map (fun c => stageOf c.status) =
      (s.membership.apply (.sweep {p | ∃ c, s.deref p = some c ∧ TimesOut i c}
        {p | ∃ c, s.deref p = some c ∧ (ClientManager.markIfTimedOut i c).status = .closing}
        {u | ∃ x, s.sessions.find? u = some x ∧ x.state = .disconnected ∧
          seconds 60 ≤ i.now - x.disconnectedAt} i.now)).stage q := by
  rw [deref_tick]
  simp only [Membership.apply, Set.mem_ofPred_eq, ServerApp.membership]
  obtain hq | ⟨c, hq⟩ := Option.eq_none_or_eq_some (s.deref q)
  · simp [hq]
  · simp only [hq, Option.bind_some, Option.some.injEq, exists_eq_left', Option.map_some]
    by_cases htimedOut : TimesOut i c
    · simp [htimedOut]
    · rcases markIfTimedOut_cases (i := i) c with hsame | ⟨_, _, hclosing⟩
      · simp only [htimedOut, if_false, hsame, Option.map_some]
        split_ifs with hstatus
        · rw [hstatus]
          rfl
        · rfl
      · simp [htimedOut, hclosing, stageOf]

theorem enabled_tick :
    s.membership.Enabled (.sweep {p | ∃ c, s.deref p = some c ∧ TimesOut i c}
      {p | ∃ c, s.deref p = some c ∧ (ClientManager.markIfTimedOut i c).status = .closing}
      {u | ∃ x, s.sessions.find? u = some x ∧ x.state = .disconnected ∧
        seconds 60 ≤ i.now - x.disconnectedAt} i.now) := by
  constructor
  · rintro p ⟨c, hc, _⟩
    simp [stage_eq hc]
  · rintro u ⟨x, hx, hstate, _⟩
    refine ⟨seatOf x, ?_, ?_⟩
    · simp [ServerApp.membership, hx]
    · simp [seatOf, hstate, modeOf]

theorem membership_loggedIn (hp : s.deref p = some c) (request : HandshakeRequest)
    (rest reply : Bytes) :
    ((((ClientManager.addSession
        ⟨request.username, generateToken i.random, some p, i.now, .connected⟩
          (s.beginEvent i.now)).store p (queueWrite (c.authenticate rest i.now) reply)).log
            [.queueWrite p reply]).enableWriteEvent i p.fd).membership =
      s.membership.apply (.take p request.username (generateToken i.random) i.now) := by
  apply membership_eq
  · intro q
    rw [ServerApp.deref_congr (ServerApp.enableWriteEvent_connections i p.fd _),
      ServerApp.deref_log, ServerApp.deref_store (s := ClientManager.addSession _
        (s.beginEvent i.now)) (d := queueWrite (c.authenticate rest i.now) reply) hp rfl,
      Membership.stage_take]
    split_ifs <;> rfl
  · intro u
    rw [ServerApp.enableWriteEvent_sessions, Membership.seat_take]
    simp only [ServerApp.log_sessions, ServerApp.store_sessions, ClientManager.addSession,
      OrderedMap.find?_insert]
    split_ifs <;> rfl

theorem deref_edited (hp : s.deref p = some c) (hnode : c'.node = c.node)
    (filter : Option Bool) (actions : List Action) (q : ConnectionPtr) :
    ((((s.beginEvent i.now).store p c').log actions).switchWriteEvent i p.fd filter).deref q =
      if q = p then some c' else s.deref q := by
  rw [ServerApp.deref_congr (ServerApp.switchWriteEvent_connections i p.fd filter _),
    ServerApp.deref_log, ServerApp.deref_store (s := s.beginEvent i.now) hp hnode]
  rfl

theorem sessions_edited (c' : ClientConnection) (filter : Option Bool) (actions : List Action) :
    ((((s.beginEvent i.now).store p c').log actions).switchWriteEvent i p.fd filter).sessions =
      s.sessions := by
  rw [ServerApp.switchWriteEvent_sessions]
  rfl

theorem enabled_quiet (now : Time) : s.membership.Enabled (.sweep ∅ ∅ ∅ now) :=
  ⟨by simp, by simp⟩

/-- An event that writes one record back is either quiet or turns a guest away. -/
theorem refines_edited (hp : s.deref p = some c) {filter : Option Bool} {actions : List Action}
    (hedit : Edit i s p c c' filter actions) :
    ∃ move, MoveOf i s move ∧ s.membership.Enabled move ∧
      ((((s.beginEvent i.now).store p c').log
        actions).switchWriteEvent i p.fd filter).membership = s.membership.apply move := by
  have hderef := deref_edited (i := i) hp hedit.same.1 filter actions
  have hsessions := sessions_edited (i := i) (s := s) (p := p) c' filter actions
  rcases hedit.status with hstatus | ⟨hawaiting, hclosing⟩
  · refine ⟨_, .quiet, enabled_quiet _, membership_quiet hsessions fun q => ?_⟩
    rw [hderef]
    split_ifs with hq
    · rw [hq, hp, Option.map_some, Option.map_some, hstatus]
    · rfl
  · refine ⟨_, .refused hp hawaiting, ⟨?_, by simp⟩, membership_eq ?_ ?_⟩
    · rintro q rfl
      simp [stage_eq hp]
    · intro q
      rw [hderef]
      by_cases hq : q = p
      · simp [Membership.apply, hq, hclosing, stageOf]
      · simp [Membership.apply, hq, ServerApp.membership]
    · intro u
      rw [hsessions]
      simp [Membership.apply, Membership.HeldBy, ServerApp.membership, Function.comp_def]

theorem membership_dropped (hwf : WellFormed s) (hp : s.deref p = some c) (buffer : Bytes)
    (actions : List Action) :
    (ClientManager.release i.now p c.ssl
      (((s.beginEvent i.now).setConsoleInputBuffer buffer).log actions)).membership =
      s.membership.apply (.sweep {p} ∅ ∅ i.now) := by
  have hp' : (((s.beginEvent i.now).setConsoleInputBuffer buffer).log actions).deref p =
      some c := hp
  have hheld : (((s.beginEvent i.now).setConsoleInputBuffer buffer).log actions).HeldOnce :=
    hwf.injective
  apply membership_eq
  · intro q
    rw [deref_release _ _ hp']
    by_cases hq : q = p
    · simp [Membership.apply, hq]
    · simp only [Membership.apply, hq, if_false, Set.mem_singleton_iff,
        Set.mem_empty_iff_false]
      rfl
  · intro u
    rw [find?_release _ _ hheld]
    have hdetached := seat_detached hwf {p} (fun x => decide (x.connection = some p))
      (by simp [Membership.HeldBy, seatOf]) i.now u
    simpa using hdetached

theorem membership_reattached (hp : s.deref p = some c) {username : Bytes}
    {session : ClientSession} (hsession : s.sessions.find? username = some session)
    (rest : Bytes) :
    ({ (s.beginEvent i.now).store p (c.authenticate rest i.now) with
      sessions := s.sessions.insert username { session with
        connection := some p
        state := .reconnected
        disconnectedAt := 0 } } : ServerApp).membership =
      s.membership.apply (.resume p username 0) := by
  have hseat : s.membership.seat username = some (seatOf session) := by
    simp [ServerApp.membership, hsession]
  apply membership_eq
  · intro q
    have hderef := ServerApp.deref_store (s := s.beginEvent i.now) (q := q)
      (d := c.authenticate rest i.now) hp rfl
    rw [Membership.stage_resume]
    refine (congrArg _ hderef).trans ?_
    split_ifs <;> rfl
  · intro u
    rw [Membership.seat_resume, hseat]
    simp only [OrderedMap.find?_insert]
    split_ifs <;> rfl

theorem membership_relayed (hp : s.deref p = some c) (rest : Bytes)
    (sender : Option ConnectionPtr) (senderFd : Fd) (packet : Bytes) :
    (((s.beginEvent i.now).store p (c.withBuffer rest)).broadcastAndEnable i sender senderFd
      packet).membership = s.membership.apply (.sweep ∅ ∅ ∅ i.now) := by
  refine membership_quiet ?_ fun q => ?_
  · rw [ServerApp.broadcastAndEnable_sessions]
    rfl
  · rw [broadcast_status, ServerApp.deref_store (s := s.beginEvent i.now)
      (d := c.withBuffer rest) hp rfl]
    split_ifs with hq
    · rw [hq, hp]
      rfl
    · rfl

theorem membership_announced (buffer : Bytes) (sender : Option ConnectionPtr) (senderFd : Fd)
    (packet : Bytes) :
    (((s.beginEvent i.now).setConsoleInputBuffer buffer).broadcastAndEnable i sender senderFd
      packet).membership = s.membership.apply (.sweep ∅ ∅ ∅ i.now) := by
  refine membership_quiet ?_ fun q => ?_
  · rw [ServerApp.broadcastAndEnable_sessions]
    rfl
  · rw [broadcast_status]
    rfl

theorem membership_addConnection {fd : Fd} (hfree : s.connections.find? fd = none) :
    ((s.beginEvent i.now).addConnection i fd).membership =
      s.membership.apply (.arrive ⟨fd, s.nextNode⟩) := by
  apply membership_eq
  · intro q
    rw [deref_addConnection (s := s.beginEvent i.now) i hfree, Membership.stage_arrive,
      show (s.beginEvent i.now).nextNode = s.nextNode from rfl]
    split_ifs <;> rfl
  · intro u
    rfl

/-- Every event is a possible move of the abstract service. -/
theorem Outcome.refines (hwf : WellFormed s) (h : Outcome i s (.ok s')) :
    ∃ move, MoveOf i s move ∧ s.membership.Enabled move ∧
      s'.membership = s.membership.apply move := by
  cases h with
  | idle | console _ | stopped _ =>
      exact ⟨_, .quiet, enabled_quiet _, membership_quiet rfl fun _ => rfl⟩
  | edited hp hedit => exact refines_edited hp hedit
  | dropped hp hdrop =>
      exact ⟨_, .dropped hp hdrop, ⟨by simp, by simp⟩, membership_dropped hwf hp _ _⟩
  | loggedIn hp hshake hkind hverify hsession =>
      refine ⟨_, .loggedIn hp hshake hkind hverify, ?_, ?_⟩
      · simp [Membership.Enabled, stage_eq hp, hshake.awaiting, stageOf]
      · subst hsession
        exact membership_loggedIn hp _ _ _
  | @reattached p c request rest session hp hshake hkind hsession htoken hstate =>
      refine ⟨_, .reattached hp hshake hkind hsession htoken hstate,
        ⟨?_, seatOf session, ?_, ?_⟩, membership_reattached hp hsession rest⟩
      · simp [stage_eq hp, hshake.awaiting, stageOf]
      · simp [ServerApp.membership, hsession]
      · simp [seatOf, hstate, modeOf]
  | relayed hp => exact ⟨_, .quiet, enabled_quiet _, membership_relayed hp _ _ _ _⟩
  | announced => exact ⟨_, .quiet, enabled_quiet _, membership_announced _ _ _ _⟩
  | turnedAway haway =>
      refine ⟨_, .quiet, enabled_quiet _, membership_quiet haway.sessions fun q => ?_⟩
      rw [ServerApp.deref_congr haway.connections]
  | admitted hevent hfd hclosed hkevent =>
      have hfree := ServerApp.find?_of_openFd hwf hclosed
      refine ⟨_, .arrived hevent, ?_, membership_addConnection hfree⟩
      simp [Membership.Enabled, ServerApp.membership, ServerApp.deref, hfree]
  | ticked hevent =>
      exact ⟨_, .ticked hevent, enabled_tick,
        membership_eq stage_tick (seat_tick (hwf.beginEvent i.now))⟩

end

end TChat.Server
