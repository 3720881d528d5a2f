import TChat.Server.Refinement
/-!
# The joint invariant holds in every reachable state

What an event does to a session, and the invariant of a single connection; the
facts that tie the two maps together come from the abstract service.
-/

namespace TChat.Server

open TChat.Common TChat.Lib

def TakesDown (i : Input) (s : ServerApp) (p : ConnectionPtr) : Prop :=
  ∃ c, s.deref p = some c ∧
    ((∃ buffer actions, Drop i s p c buffer actions) ∨ i.event = .timer ∧ TimesOut i c)

inductive SessionChange (i : Input) (s : ServerApp) (u : Bytes) : ClientSession → Prop
  | kept {x : ClientSession} : s.sessions.find? u = some x → SessionChange i s u x
  | detached {x : ClientSession} {p : ConnectionPtr} :
      s.sessions.find? u = some x → x.connection = some p → TakesDown i s p →
      SessionChange i s u (ClientManager.detach i.now x)
  | loggedIn {p : ConnectionPtr} {c : ClientConnection} {request : HandshakeRequest}
      {rest : Bytes} :
      s.deref p = some c → Handshakes i c request rest → request.kind = .login →
      i.verifyClient request.username request.password = .authorized → u = request.username →
      SessionChange i s u
        ⟨request.username, generateToken i.random, some p, i.now, .connected⟩
  | reattached {p : ConnectionPtr} {c : ClientConnection} {request : HandshakeRequest}
      {rest : Bytes} {session : ClientSession} :
      s.deref p = some c → Handshakes i c request rest → request.kind = .reconnect →
      u = request.username → s.sessions.find? u = some session →
      session.token = request.token → session.state = .disconnected →
      SessionChange i s u { session with
        connection := some p
        state := .reconnected
        disconnectedAt := 0 }

theorem processHandshakePacket_username {rxBuffer rest : Bytes} {result : HandshakeResult}
    (h : processHandshakePacket rxBuffer = (result, rest)) : bar ∉ result.request.username := by
  have hrequest (type : Option PacketType) (message password : Bytes) :
      bar ∉ (handshakeRequest type (message.takeWhile (· ≠ bar)) password).request.username := by
    have htake : bar ∉ message.takeWhile (· ≠ bar) := by
      intro hmem
      have := List.mem_takeWhile_imp hmem
      simp at this
    unfold handshakeRequest
    split <;> first | exact htake | simp [HandshakeRequest.none]
  unfold processHandshakePacket at h
  dsimp only at h
  split_ifs at h <;> rw [Prod.mk.injEq] at h <;> obtain ⟨rfl, _⟩ := h
  all_goals first | exact hrequest _ _ _ | simp [HandshakeRequest.none]

section

variable {i : Input} {s s' : ServerApp}

theorem sessionChange_tick (hwf : WellFormed s) (hevent : i.event = .timer) {u : Bytes}
    {x' : ClientSession} (hx' : ((s.beginEvent i.now).tick i).sessions.find? u = some x') :
    SessionChange i s u x' := by
  have hkeyed : (s.beginEvent i.now).SessionsKeyed := fun u x hx => (hwf.sessions hx).username_eq
  rw [find?_tick hkeyed hwf.injective, Option.filter_eq_some_iff, Option.map_eq_some_iff] at hx'
  obtain ⟨⟨x, hx, rfl⟩, hstays⟩ := hx'
  by_cases hlapsed : x.state = .disconnected ∧ seconds 60 ≤ i.now - x.disconnectedAt
  · have hconnection : x.connection = none := by
      by_contra hne
      rcases (hwf.sessions hx).state hne with hstate | hstate <;> simp [hstate] at hlapsed
    have hkept : (s.beginEvent i.now).losesConnection i x = false := by
      simp [ServerApp.losesConnection, hconnection]
    simp [hkept, markIfExpired_eq, hlapsed, hconnection] at hstays
  · rw [(markIfExpired_detach (hwf.beginEvent i.now) hx hlapsed).1]
    by_cases hloses : (s.beginEvent i.now).losesConnection i x = true
    · rw [if_pos hloses]
      simp only [ServerApp.losesConnection, Option.any_eq_true, Option.bind_eq_some_iff,
        decide_eq_true_eq] at hloses
      obtain ⟨c, ⟨p, hp, hc⟩, htimedOut⟩ := hloses
      exact .detached hx hp ⟨c, hc, .inr ⟨hevent, htimedOut⟩⟩
    · rw [if_neg hloses]
      exact .kept hx

theorem Outcome.session (hwf : WellFormed s) (h : Outcome i s (.ok s')) {u : Bytes}
    {x' : ClientSession} (hx' : s'.sessions.find? u = some x') : SessionChange i s u x' := by
  cases h with
  | idle | console | stopped => exact .kept hx'
  | edited =>
      rw [ServerApp.switchWriteEvent_sessions] at hx'
      exact .kept hx'
  | @dropped p c buffer actions hp hdrop =>
      have hheld : (((s.beginEvent i.now).setConsoleInputBuffer buffer).log actions).HeldOnce :=
        hwf.injective
      rw [find?_release _ _ hheld, Option.map_eq_some_iff] at hx'
      obtain ⟨x, hx, rfl⟩ := hx'
      split_ifs with hxp
      · exact .detached hx hxp ⟨c, hp, .inl ⟨buffer, actions, hdrop⟩⟩
      · exact .kept hx
  | @loggedIn p c request rest session reply hp hshake hkind hverify hsession hreply =>
      subst hsession
      rw [ServerApp.enableWriteEvent_sessions] at hx'
      simp only [ServerApp.log_sessions, ServerApp.store_sessions, ClientManager.addSession,
        OrderedMap.find?_insert] at hx'
      split_ifs at hx' with hu
      · simp only [Option.some.injEq] at hx'
        exact hx' ▸ .loggedIn hp hshake hkind hverify hu
      · exact .kept hx'
  | @reattached p c request rest session hp hshake hkind hsession htoken hstate =>
      simp only [OrderedMap.find?_insert] at hx'
      split_ifs at hx' with hu
      · simp only [Option.some.injEq] at hx'
        subst hu
        exact hx' ▸ .reattached hp hshake hkind rfl hsession htoken hstate
      · exact .kept hx'
  | relayed =>
      rw [ServerApp.broadcastAndEnable_sessions] at hx'
      exact .kept hx'
  | announced =>
      rw [ServerApp.broadcastAndEnable_sessions] at hx'
      exact .kept hx'
  | turnedAway haway =>
      rw [haway.sessions] at hx'
      exact .kept hx'
  | admitted => exact .kept hx'
  | ticked hevent => exact sessionChange_tick hwf hevent hx'

/-! ## Connections -/

theorem storeOffset_of_le {n : Nat} (h : n ≤ intMax) : storeOffset n = n := by
  unfold storeOffset
  unfold intMax at h
  exact Nat.mod_eq_of_lt (by omega)

theorem consistent_notWaiting {out : Outgoing} (h : out.Consistent) :
    out.notWaiting.Consistent :=
  ⟨h.offset_empty, h.offset_front⟩

theorem flush_spec {c : ClientConnection} {flush : Flush} (h : c.toOutgoing.Consistent)
    (hflush : flushLoop storeOffset i.sslWrite c.toOutgoing.notWaiting = some flush) :
    FlushSpec c.toOutgoing.notWaiting flush :=
  flushLoop_spec (fun _ => storeOffset_of_le) (consistent_notWaiting h) hflush

theorem Edit.consistent {p : ConnectionPtr} {c c' : ClientConnection} {filter : Option Bool}
    {actions : List Action} (h : Edit i s p c c' filter actions)
    (hc : c.toOutgoing.Consistent) : c'.toOutgoing.Consistent := by
  cases h with
  | flushed _ hflush => exact (flush_spec hc hflush).consistent
  | loginRefused | registered | pong => exact consistent_queueWrite hc _
  | _ => exact hc

/-- A change keeps the identity of a record and the shape of its queue. -/
theorem Change.same {p : ConnectionPtr} {c c' : ClientConnection} {filter : Bool}
    (h : Change i s p c c' filter) :
    c'.node = c.node ∧ c'.fd = c.fd ∧ c'.ssl = c.ssl ∧
      (c.toOutgoing.Consistent → c'.toOutgoing.Consistent) := by
  cases h with
  | edited hedit => exact ⟨hedit.same.1, hedit.same.2.1, hedit.same.2.2, hedit.consistent⟩
  | loggedIn | hears => exact ⟨rfl, rfl, rfl, fun hc => consistent_queueWrite hc _⟩
  | _ => exact ⟨rfl, rfl, rfl, id⟩

theorem Outcome.openFd (hwf : WellFormed s) (h : Outcome i s (.ok s')) {q : ConnectionPtr}
    {c c' : ClientConnection} (hq : s.deref q = some c) (hq' : s'.deref q = some c') :
    s'.openFd q.fd = true := by
  have hopen : s.openFd q.fd = true := (hwf.deref_ok hq).openFd
  cases h with
  | idle | console | stopped | reattached => exact hopen
  | edited =>
      rw [ServerApp.switchWriteEvent_eq]
      exact hopen
  | @dropped p c buffer actions hp hdrop =>
      have hp' : (((s.beginEvent i.now).setConsoleInputBuffer buffer).log actions).deref p =
          some c := hp
      rw [deref_release _ _ hp'] at hq'
      split_ifs at hq' with hqp
      have hfd : q.fd ≠ p.fd := fun hfd => hqp (pointer_eq hq hp hfd)
      exact (if_neg hfd).trans hopen
  | loggedIn =>
      rw [ServerApp.enableWriteEvent_eq]
      exact hopen
  | relayed | announced =>
      rw [ServerApp.broadcastAndEnable_eq]
      exact hopen
  | turnedAway haway =>
      rw [haway.openFd]
      exact hopen
  | admitted =>
      simp only [ServerApp.addConnection, ServerApp.beginEvent_openFd, hopen, ite_self]
  | ticked =>
      rw [deref_tick, Option.bind_eq_some_iff] at hq'
      obtain ⟨d, hd, hstays⟩ := hq'
      split_ifs at hstays with htimedOut
      exact ((tick_kept (s := s.beginEvent i.now) hd htimedOut).2).trans hopen

theorem releaseAll_same (now : Time) (entries : List (Fd × ClientConnection)) :
    (s.releaseAll now entries).nextNode = s.nextNode ∧
      (s.releaseAll now entries).consoleInputBuffer = s.consoleInputBuffer ∧
      (s.releaseAll now entries).clock = s.clock := by
  induction entries generalizing s with
  | nil => exact ⟨rfl, rfl, rfl⟩
  | cons entry rest ih =>
      rw [ServerApp.releaseAll, List.foldl_cons, ← ServerApp.releaseAll]
      exact ih

theorem Outcome.nextNode (h : Outcome i s (.ok s')) : s.nextNode ≤ s'.nextNode := by
  cases h with
  | idle | console | stopped | dropped | reattached => exact le_rfl
  | edited =>
      rw [ServerApp.switchWriteEvent_eq]
      exact le_rfl
  | loggedIn =>
      rw [ServerApp.enableWriteEvent_eq]
      exact le_rfl
  | relayed | announced =>
      rw [ServerApp.broadcastAndEnable_eq]
      exact le_rfl
  | turnedAway haway => exact haway.nextNode
  | admitted => exact Nat.le_succ _
  | ticked =>
      have hreleased := releaseAll_same
        (s := ClientManager.markTimedOutConnections i (s.beginEvent i.now)) i.now
        (ClientManager.markTimedOutConnections i (s.beginEvent i.now)).timedOut
      rw [tick_frame]
      exact hreleased.1.ge

theorem Outcome.clock (h : Outcome i s (.ok s')) : s'.clock = i.now := by
  cases h with
  | idle | console | stopped | dropped | reattached | admitted => rfl
  | edited =>
      rw [ServerApp.switchWriteEvent_eq]
      rfl
  | loggedIn =>
      rw [ServerApp.enableWriteEvent_eq]
      rfl
  | relayed | announced =>
      rw [ServerApp.broadcastAndEnable_eq]
      rfl
  | turnedAway haway => exact haway.clock
  | ticked =>
      have hreleased := releaseAll_same
        (s := ClientManager.markTimedOutConnections i (s.beginEvent i.now)) i.now
        (ClientManager.markTimedOutConnections i (s.beginEvent i.now)).timedOut
      rw [tick_frame]
      exact hreleased.2.2

theorem connectionOk_step (hwf : WellFormed s) (h : Outcome i s (.ok s')) {fd : Fd}
    {c' : ClientConnection} (hc' : s'.connections.find? fd = some c') :
    ConnectionOk s' fd c' := by
  have hq := ServerApp.deref_of_find? hc'
  rcases traced_of_outcome hwf h hq with
    ⟨fd', _, hfd, rfl, hnonneg, hopen, hnext⟩ | ⟨c, hc, hchange⟩
  · simp only [ConnectionPtr.mk.injEq] at hfd
    obtain ⟨rfl, _⟩ := hfd
    refine ⟨rfl, hnonneg, by simp [ClientConnection.create], ?_, hopen, ?_⟩
    · rw [hnext]
      exact Nat.lt_succ_self _
    · exact ⟨fun _ => rfl, fun _ _ _ => .inl rfl⟩
  · have hok := hwf.deref_ok hc
    obtain ⟨hnode, hfd, hssl, hconsistent⟩ := hchange.same
    refine ⟨hfd.trans hok.fd_eq, hok.nonneg, hssl ▸ hok.ssl, ?_, h.openFd hwf hc hq,
      hconsistent hok.consistent⟩
    rw [hnode]
    exact lt_of_lt_of_le hok.node_lt h.nextNode

/-! ## Sessions -/

/-- What the abstract service says about the sessions of the server. -/
theorem sessionOk_of_sound (hsound : s'.membership.Sound) {u : Bytes} {x : ClientSession}
    (hx : s'.sessions.find? u = some x) (husername : x.username = u) (hbar : bar ∉ u)
    (hstored : x.state ≠ .kicked ∧ x.state ≠ .expired) : SessionOk s' u x := by
  have hseat : s'.membership.seat u = some (seatOf x) := by
    simp [ServerApp.membership, hx]
  refine ⟨husername, hbar, hstored, ?_, ?_, ?_⟩
  · intro hconnected
    exact hsound.fresh hseat (by simp [seatOf, hconnected, modeOf])
  · intro p hp
    have hstage := hsound.present hseat hp
    simp only [ServerApp.membership, Option.map_eq_some_iff] at hstage
    rcases hstage with ⟨c, hc, hc'⟩ | ⟨c, hc, hc'⟩ <;>
      exact ⟨c, hc, by rintro hawaiting; simp [hawaiting, stageOf] at hc'⟩
  · intro hne
    obtain ⟨p, hp⟩ := Option.ne_none_iff_exists'.mp hne
    have hmode := hsound.held hseat hp
    cases hstate : x.state <;> simp_all [seatOf, modeOf]

theorem sessionOk_step (hwf : WellFormed s) (h : Outcome i s (.ok s'))
    (hsound : s'.membership.Sound) {u : Bytes} {x' : ClientSession}
    (hx' : s'.sessions.find? u = some x') : SessionOk s' u x' := by
  cases h.session hwf hx' with
  | kept hx =>
      have hok := hwf.sessions hx
      exact sessionOk_of_sound hsound hx' hok.username_eq hok.noBar hok.stored
  | @detached x p hx hp =>
      have hok := hwf.sessions hx
      have hdetach : (ClientManager.detach i.now x).username = x.username ∧
          (ClientManager.detach i.now x).state ≠ .kicked ∧
          (ClientManager.detach i.now x).state ≠ .expired := by
        unfold ClientManager.detach
        split_ifs
        · simp
        · exact ⟨rfl, hok.stored⟩
      exact sessionOk_of_sound hsound hx' (hdetach.1.trans hok.username_eq) hok.noBar hdetach.2
  | loggedIn _ hshake _ _ hu =>
      obtain ⟨bytes, _, _, hparse⟩ := hshake
      have hbar := processHandshakePacket_username hparse
      exact sessionOk_of_sound hsound hx' hu.symm (hu ▸ hbar) (by simp)
  | reattached _ _ _ _ hx _ _ =>
      have hok := hwf.sessions hx
      exact sessionOk_of_sound hsound hx' hok.username_eq hok.noBar (by simp)

/-- Every event keeps the joint invariant. -/
theorem WellFormed.step (hwf : WellFormed s) (h : step i s = .ok s') : WellFormed s' := by
  have houtcome : Outcome i s (.ok s') := h ▸ outcome_step hwf
  obtain ⟨move, _, henabled, hmembership⟩ := houtcome.refines hwf
  have hsound : s'.membership.Sound := hmembership ▸ (sound_membership hwf).apply henabled
  refine ⟨connectionOk_step hwf houtcome, sessionOk_step hwf houtcome hsound, ?_⟩
  intro u v x y p hx hy hp hq
  have hseatx : s'.membership.seat u = some (seatOf x) := by
    simp [ServerApp.membership, hx]
  have hseaty : s'.membership.seat v = some (seatOf y) := by
    simp [ServerApp.membership, hy]
  exact hsound.single hseatx hseaty hp hq

end

theorem wellFormed_of_run {now : Time} {history : List (Transition ServerApp Input)}
    {s : ServerApp} (hrun : ServerRun now history s) : WellFormed s :=
  hrun.invariant (wellFormed_initialState now) fun hwf h => hwf.step h

/-- Every event of a run ends in one of the outcomes. -/
theorem outcome_of_run {now : Time} {history : List (Transition ServerApp Input)}
    {s s' : ServerApp} {i : Input} (hrun : ServerRun now history s) (h : step i s = .ok s') :
    Outcome i s (.ok s') :=
  h ▸ outcome_step (wellFormed_of_run hrun)

end TChat.Server
