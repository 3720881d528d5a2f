import TChat.Server.Closing
import TChat.Server.Parsing
/-!
# When the server hangs up

A connection whose peer is gone, or whose peer does not speak the protocol, should be
taken down with the event in which the server notices, and its session set free.  Of the
outcomes of `handle_read` the end of the TLS stream has no case in `handle_read_result`,
and bytes that are no packet are reported and left where they are.
-/

namespace TChat.Server

open TChat.Common TChat.Lib

/-- The connection is removed, and the session that held it stays without one. -/
structure HungUp (p : ConnectionPtr) (s s' : ServerApp) : Prop where
  removed : s'.connections.find? p.fd = none
  detached : ∀ u x, s.sessions.find? u = some x → x.connection = some p →
    ∃ x', s'.sessions.find? u = some x' ∧ x'.connection = none

def PeerGone (i : Input) (c : ClientConnection) : Prop :=
  ∃ result c', handleRead c i.sslRead = some (result, c') ∧
    (result = .connectionClosed ∨ result = .fatalError)

/-- `Foreign buffer rest`: behind packets that no user sends comes a header without the
protocol's magic number, and `rest` starts with it. -/
inductive Foreign : Bytes → Bytes → Prop
  | front {buffer : Bytes} : headerSize ≤ buffer.length →
      (readHeader buffer).magic ≠ protocolKey → Foreign buffer buffer
  | skipped {buffer rest : Bytes} : Begins buffer → ¬Sendable (packetType? buffer) →
      Foreign (afterPacket buffer) rest → Foreign buffer rest

section

variable {i : Input} {s s' : ServerApp} {p : ConnectionPtr} {c c' : ClientConnection}
  {bytes rest : Bytes}

theorem hungUp_release (hwf : WellFormed s) :
    HungUp p s (ClientManager.release i.now p c.ssl (s.beginEvent i.now)) := by
  refine ⟨?_, fun u x hx hconnection => ?_⟩
  · rw [show (ClientManager.release i.now p c.ssl (s.beginEvent i.now)).connections =
      s.connections.erase p.fd from rfl, OrderedMap.find?_erase, if_pos rfl]
  · refine ⟨ClientManager.detach i.now x, ?_, detach_connection _ _⟩
    rw [find?_release (s := s.beginEvent i.now) i.now c.ssl hwf.injective,
      ServerApp.beginEvent_sessions, hx, Option.map_some, if_pos hconnection]

theorem not_hungUp_of_deref (hp : s'.deref p = some c') : ¬HungUp p s s' := by
  intro h
  have hfind := (ServerApp.deref_eq_some.mp hp).1
  simp [h.removed] at hfind

/-! ## The peer is gone -/

theorem step_readFails (hwf : WellFormed s) (hp : s.deref p = some c)
    (hreads : c.Reads i.event) (hopen : c.status ≠ .closing) (hpossible : i.Possible s)
    {error : SslError} (houtcome : readOutcome i.sslRead = some (.failed error))
    (hread : error ≠ .wantRead) (hwrite : error ≠ .wantWrite) :
    step i s =
      if error = .zeroReturn then
        .ok ((s.beginEvent i.now).store p { c with readWaitingForWrite := false })
      else .ok (ClientManager.release i.now p c.ssl (s.beginEvent i.now)) := by
  have hok := hwf.deref_ok hp
  have hbegin : (s.beginEvent i.now).deref p = some c := hp
  have hload : ((s.beginEvent i.now).store p { c with readWaitingForWrite := false }).load p =
      .ok { c with readWaitingForWrite := false } :=
    ServerApp.load_eq (ServerApp.deref_store_self hbegin rfl)
  have hresult : handleRead { c with readWaitingForWrite := false } i.sslRead =
      some (if error = .zeroReturn then .connectionClosed else .fatalError,
        { c with readWaitingForWrite := false }) := by
    have hlistening : ¬({ c with readWaitingForWrite := false } : ClientConnection).status =
        .closing := hopen
    rw [ServerApp.handleRead_eq (c := { c with readWaitingForWrite := false }) hok.ssl,
      if_neg hlistening, readLoop_eq, houtcome]
    cases error with
    | wantRead => exact absurd rfl hread
    | wantWrite => exact absurd rfl hwrite
    | _ => rfl
  rw [step, if_pos hpossible, ServerApp.dispatch_reads hwf hp hreads, ServerApp.read, hload]
  simp only [bind, Except.bind, hresult, ServerApp.store_store]
  by_cases hzero : error = .zeroReturn
  · rw [if_pos hzero, if_pos hzero]
    rfl
  · rw [if_neg hzero, if_neg hzero]
    exact ServerApp.disconnectClient_store (d := { c with readWaitingForWrite := false }) hbegin
      rfl hok.fd_eq rfl

theorem PeerGone.outcome (h : PeerGone i c) (hssl : c.ssl ≠ none) :
    ∃ error, readOutcome i.sslRead = some (.failed error) ∧ error ≠ .wantRead ∧
      error ≠ .wantWrite := by
  obtain ⟨result, c', hread, hresult⟩ := h
  rw [ServerApp.handleRead_eq hssl] at hread
  split_ifs at hread with hclosing
  · obtain ⟨rfl, -⟩ := Prod.mk.injEq .. ▸ Option.some.inj hread
    simp at hresult
  · rw [readLoop_eq] at hread
    cases houtcome : readOutcome i.sslRead with
    | none => simp [houtcome] at hread
    | some outcome =>
        rw [houtcome] at hread
        cases outcome with
        | received bytes =>
            dsimp only at hread
            split_ifs at hread
            obtain ⟨rfl, -⟩ := Prod.mk.injEq .. ▸ Option.some.inj hread
            simp at hresult
        | failed error =>
            refine ⟨error, rfl, ?_, ?_⟩ <;>
            · rintro rfl
              obtain ⟨rfl, -⟩ := Prod.mk.injEq .. ▸ Option.some.inj hread
              simp at hresult

variable {now : Time} {history : List (Transition ServerApp Input)}

/-- In every reachable state the event in which `handle_read` reports that the peer of an
open connection is gone takes the connection down, if and only if the TLS stream has not
been ended in due form. -/
theorem gone_peers_removed (hrun : ServerRun now history s) (hp : s.deref p = some c)
    (hopen : c.status ≠ .closing) (hreads : c.Reads i.event) (hgone : PeerGone i c)
    (hpossible : i.Possible s) :
    (∃ s', step i s = .ok s' ∧ HungUp p s s') ↔
      readOutcome i.sslRead ≠ some (.failed .zeroReturn) := by
  have hwf := wellFormed_of_run hrun
  obtain ⟨error, houtcome, hread, hwrite⟩ := hgone.outcome (hwf.deref_ok hp).ssl
  have hstep := step_readFails hwf hp hreads hopen hpossible houtcome hread hwrite
  rw [houtcome]
  by_cases hzero : error = .zeroReturn
  · rw [if_pos hzero] at hstep
    have hstays : ¬∃ s', step i s = .ok s' ∧ HungUp p s s' := by
      rintro ⟨s', hstep', hhungUp⟩
      rw [hstep, Except.ok.injEq] at hstep'
      subst hstep'
      have hstays := ServerApp.deref_store_self (s := s.beginEvent i.now)
        (d := { c with readWaitingForWrite := false }) hp rfl
      exact not_hungUp_of_deref hstays hhungUp
    simp [hzero, hstays]
  · rw [if_neg hzero] at hstep
    have hhungUp : ∃ s', step i s = .ok s' ∧ HungUp p s s' := ⟨_, hstep, hungUp_release hwf⟩
    simp [hzero, hhungUp]

def failing (fd : Fd) (error : SslError) : Input :=
  { Input.sample with
    event := .read fd
    sslRead := [.failed error] }

/-- `gone_peers_removed` for a client whose stream breaks off before it has logged in. -/
theorem gone_peers_removed_broken : ∃ history s s', ServerRun 0 history s ∧
    step (failing 5 (.syscall .other)) s = .ok s' ∧ HungUp ⟨5, 0⟩ s s' := by
  obtain ⟨history, s, hrun, h⟩ := Run.exists_of_execute step [accepting 5] (initialState 0)
    (fun _ s => s.clock = 0 ∧ s.deref ⟨5, 0⟩ = some (.create 0 5 (some 0) 0))
    (by decide +kernel)
  simp only [decide_eq_true_eq] at h
  have hpossible : (failing 5 (.syscall .other)).Possible s := ⟨h.1.le, nofun⟩
  have hgone : PeerGone (failing 5 (.syscall .other)) (.create 0 5 (some 0) 0) :=
    ⟨_, _, rfl, .inr rfl⟩
  obtain ⟨s', hstep, hhungUp⟩ := (gone_peers_removed hrun h.2 (by decide)
    ⟨rfl, .inl ⟨rfl, rfl⟩⟩ hgone hpossible).mpr (by decide)
  exact ⟨history, s, s', hrun, hstep, hhungUp⟩

/-- A client that closes its TLS stream stays connected. -/
theorem closed_peer_kept : ¬∀ now history s i p c, ServerRun now history s →
    s.deref p = some c → c.status ≠ .closing → c.Reads i.event → PeerGone i c →
    i.Possible s → ∃ s', step i s = .ok s' ∧ HungUp p s s' := by
  intro h
  obtain ⟨history, s, hrun, hp⟩ := Run.exists_of_execute step [accepting 5] (initialState 0)
    (fun _ s => s.clock = 0 ∧ s.deref ⟨5, 0⟩ = some (.create 0 5 (some 0) 0))
    (by decide +kernel)
  simp only [decide_eq_true_eq] at hp
  have hpossible : (failing 5 .zeroReturn).Possible s := ⟨hp.1.le, nofun⟩
  have hreads : (ClientConnection.create 0 5 (some 0) 0).Reads (failing 5 .zeroReturn).event :=
    ⟨rfl, .inl ⟨rfl, rfl⟩⟩
  obtain ⟨s', hstep, hhungUp⟩ := h 0 history s _ _ _ hrun hp.2 (by decide) hreads
    ⟨_, _, rfl, .inl rfl⟩ hpossible
  have houtcome : readOutcome (failing 5 .zeroReturn).sslRead = some (.failed .zeroReturn) := rfl
  have hstays := step_readFails (wellFormed_of_run hrun) hp.2 hreads (by decide) hpossible
    houtcome (by decide) (by decide)
  rw [hstep, if_pos rfl, Except.ok.injEq] at hstays
  exact not_hungUp_of_deref (hstays ▸
    ServerApp.deref_store_self (s := s.beginEvent 0) hp.2 rfl) hhungUp

/-! ## Bytes that are no packet -/

theorem Foreign.parse {buffer : Bytes} (h : Foreign buffer rest) :
    processClientStream buffer = ⟨.invalidProtocolError, [], rest⟩ := by
  induction h with
  | @front buffer hlong hmagic =>
      have hnothing : ¬Begins buffer := fun hbegins => hmagic hbegins.2
      rw [processClientStream_obstacle hnothing, obstacle, if_neg (not_lt.mpr hlong),
        if_pos hmagic]
  | skipped hbegins htype _ ih => rw [processClientStream_skipped hbegins htype, ih]

theorem Foreign.stops {buffer : Bytes} (h : Foreign buffer rest) :
    headerSize ≤ rest.length ∧ (readHeader rest).magic ≠ protocolKey := by
  induction h with
  | front hlong hmagic => exact ⟨hlong, hmagic⟩
  | skipped _ _ _ ih => exact ih

theorem foreign_of_front {buffer : Bytes} (hlong : headerSize ≤ rest.length)
    (hmagic : (readHeader rest).magic ≠ protocolKey) (h : rest <+: buffer) :
    Foreign buffer buffer := by
  obtain ⟨more, rfl⟩ := h
  refine .front (hlong.trans (by simp)) ?_
  rwa [readHeader_append hlong]

/-- The event in which the parser meets bytes that are no packet. -/
theorem deref_foreign (hwf : WellFormed s) (hp : s.deref p = some c)
    (hstatus : c.status = .authenticated) (hreceives : Receives i c bytes)
    (hforeign : Foreign (c.rxBuffer ++ bytes) rest) (hstep : step i s = .ok s') :
    s'.deref p = some (c.withBuffer rest) := by
  have hstreams := step_streams hwf hp ⟨bytes, hreceives, hstatus, hforeign.parse⟩
    (possible_of_step hstep)
  rw [hstep] at hstreams
  cases hsession : ClientManager.findSesssionFromConnection p s with
  | none =>
      -- the pointer to the session is null
      rw [hsession] at hstreams
      simp [ServerApp.handleProcessStreamResult] at hstreams
  | some session =>
      rw [hsession] at hstreams
      obtain rfl := Except.ok.inj hstreams
      exact ServerApp.deref_store_self (s := s.beginEvent i.now) hp rfl

theorem not_hungUp_of_foreign (hwf : WellFormed s) (hp : s.deref p = some c)
    (hstatus : c.status = .authenticated) (hreceives : Receives i c bytes)
    (hforeign : Foreign (c.rxBuffer ++ bytes) rest) :
    ¬∃ s', step i s = .ok s' ∧ HungUp p s s' := by
  rintro ⟨s', hstep, hhungUp⟩
  exact not_hungUp_of_deref (deref_foreign hwf hp hstatus hreceives hforeign hstep) hhungUp

/-- The bytes `rest` are in the way of everything that comes after them. -/
structure Wedged (rest : Bytes) (c : ClientConnection) : Prop where
  known : c.status ≠ .awaitingAuth
  front : rest <+: c.rxBuffer

theorem Wedged.kept {queued : List Bytes} {calls : List SslWriteCall}
    (hlong : headerSize ≤ rest.length) (hmagic : (readHeader rest).magic ≠ protocolKey)
    (h : Wedged rest c) (hfate : Fate i s p c (some c') queued calls) : Wedged rest c' := by
  have hstream : ∀ {stream}, Streams i c stream →
      stream.result = .invalidProtocolError ∧ rest <+: stream.rxBuffer := by
    rintro stream ⟨bytes, _, _, rfl⟩
    have hfront : rest <+: c.rxBuffer ++ bytes := h.front.trans (List.prefix_append _ _)
    rw [(foreign_of_front hlong hmagic hfront).parse]
    exact ⟨rfl, hfront⟩
  cases hfate with
  | kept => exact h
  | hears => exact ⟨h.known, h.front⟩
  | timedOut => exact ⟨by simp, h.front⟩
  | loggedIn hshake | reattached hshake => exact absurd hshake.awaiting h.known
  | relayed hstreams hresult => simp [(hstream hstreams).1] at hresult
  | edited hedit =>
      cases hedit with
      | flushed | nothingRead | wantWrite => exact ⟨h.known, h.front⟩
      | handshakeIncomplete _ hawaiting => exact absurd hawaiting h.known
      | loginRefused hshake | registered hshake | reconnectIgnored hshake =>
          exact absurd hshake.awaiting h.known
      | streamIdle hstreams hresult => simp [(hstream hstreams).1] at hresult
      | streamInvalid hstreams | pingUnanswered hstreams | pong hstreams =>
          exact ⟨h.known, (hstream hstreams).2⟩

/-- In every reachable state, when the bytes of a user come to a header without the
protocol's magic number, the connection is not taken down, and for as long as it is there
these bytes stay at the front of its buffer. -/
theorem foreign_bytes_kept (hrun : ServerRun now history s) (hp : s.deref p = some c)
    (hstatus : c.status = .authenticated) (hreceives : Receives i c bytes)
    (hforeign : Foreign (c.rxBuffer ++ bytes) rest) :
    (¬∃ s', step i s = .ok s' ∧ HungUp p s s') ∧
      ∀ s' later s'' c'', step i s = .ok s' → Run step s' later s'' →
        s''.deref p = some c'' → rest <+: c''.rxBuffer := by
  have hwf := wellFormed_of_run hrun
  refine ⟨not_hungUp_of_foreign hwf hp hstatus hreceives hforeign, ?_⟩
  intro s' later s'' c'' hstep hlater hp''
  obtain ⟨hlong, hmagic⟩ := hforeign.stops
  have hp' := deref_foreign hwf hp hstatus hreceives hforeign hstep
  have hwedged : Wedged rest (c.withBuffer rest) :=
    ⟨by simp [ClientConnection.withBuffer, hstatus], List.prefix_rfl⟩
  have hkept := kept_while_live (hrun.next hstep) hlater hp' hwedged
    fun h hfate => h.kept hlong hmagic hfate
  exact (hkept.2 c'' hp'').front

end

theorem exists_foreign : ∃ history s c, ServerRun 0 history s ∧
    s.deref ⟨5, 0⟩ = some c ∧ c.status = .authenticated ∧
      Receives (receiving 5 (List.replicate 12 0)) c (List.replicate 12 0) ∧
      Foreign (c.rxBuffer ++ List.replicate 12 0) (List.replicate 12 0) := by
  obtain ⟨history, s, c, hrun, -, hp, hfd, hidle, -⟩ := exists_idle
  refine ⟨history, s, c, hrun, hp, hidle.authenticated, ?_, ?_⟩
  · have hevent : (receiving 5 (List.replicate 12 0)).event = .read c.fd := by
      rw [hfd]
      rfl
    exact hidle.receives hevent rfl (by decide) (by decide)
  · rw [hidle.rxBuffer, List.nil_append]
    exact .front (by decide) (by decide)

theorem foreign_bytes_kept_zeros : ∃ history s, ServerRun 0 history s ∧
    ¬∃ s', step (receiving 5 (List.replicate 12 0)) s = .ok s' ∧ HungUp ⟨5, 0⟩ s s' := by
  obtain ⟨history, s, c, hrun, hp, hstatus, hreceives, hforeign⟩ := exists_foreign
  exact ⟨history, s, hrun, (foreign_bytes_kept hrun hp hstatus hreceives hforeign).1⟩

/-- A user that does not speak the protocol is not hung up on. -/
theorem foreign_bytes_tolerated : ¬∀ now history s i p c bytes rest,
    ServerRun now history s → s.deref p = some c → c.status = .authenticated →
    Receives i c bytes → Foreign (c.rxBuffer ++ bytes) rest →
    ∃ s', step i s = .ok s' ∧ HungUp p s s' := by
  intro h
  obtain ⟨history, s, c, hrun, hp, hstatus, hreceives, hforeign⟩ := exists_foreign
  exact not_hungUp_of_foreign (wellFormed_of_run hrun) hp hstatus hreceives hforeign
    (h 0 history s _ _ c _ _ hrun hp hstatus hreceives hforeign)

end TChat.Server
