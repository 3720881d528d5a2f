import TChat.Server.Outbox
import TChat.Server.Sessions
/-!
# How a connection ends

The status of a connection only moves forward, and once it is Closing the connection
only sends what is in its queue.  A login that is turned down has its answer sent
whole before the connection goes, unless TLS fails.
-/

namespace TChat.Server

open TChat.Common TChat.Lib

def ConnectionStatus.rank : ConnectionStatus → Nat
  | .awaitingAuth => 0
  | .authenticated => 1
  | .closing => 2

def KicksOff (i : Input) (s : ServerApp) (p : ConnectionPtr) : Prop :=
  ∃ keys username buffer session, i.event = .console keys ∧
    readConsoleInput keys s.consoleInputBuffer = .ok (⟨.kickClient, username⟩, buffer) ∧
    s.sessions.find? username = some session ∧ session.connection = some p

/-- Why an event takes a closing connection down. -/
inductive ClosingEnds (i : Input) (s : ServerApp) (p : ConnectionPtr) (c : ClientConnection) :
    Prop
  | swept : i.event = .timer → c.txQueue = [] → ClosingEnds i s p c
  | flushed {flush : Flush} :
      c.Flushes i.event →
      flushLoop storeOffset i.sslWrite c.toOutgoing.notWaiting = some flush →
      (flush.result = .fatalError ∨ flush.outgoing.txQueue = []) → ClosingEnds i s p c
  | kicked : KicksOff i s p → ClosingEnds i s p c

def RefusesLogin (i : Input) (s : ServerApp) (p : ConnectionPtr) (status : VerifyClientStatus) :
    Prop :=
  ∃ c request rest, s.deref p = some c ∧ Handshakes i c request rest ∧ request.kind = .login ∧
    i.verifyClient request.username request.password = status ∧ status ≠ .authorized

def TlsFails (calls : List SslWriteCall) : Prop :=
  ∃ call ∈ calls, ∃ error, call.outcome = .failed error ∧ error.Fatal

/-! ## One event -/

section

variable {i : Input} {s s' : ServerApp} {p : ConnectionPtr} {c : ClientConnection}
  {after : Option ClientConnection} {queued : List Bytes} {calls : List SslWriteCall}

theorem Fate.rank_le (h : Fate i s p c after queued calls) :
    ∀ c' ∈ after, c.status.rank ≤ c'.status.rank := by
  rintro c' hc'
  cases h with
  | kept | relayed | hears =>
      obtain rfl := Option.mem_some.mp hc'
      exact le_rfl
  | edited hedit =>
      obtain rfl := Option.mem_some.mp hc'
      rcases hedit.status with hsame | ⟨hawaiting, hclosing⟩
      · rw [hsame]
      · rw [hawaiting]
        exact Nat.zero_le _
  | loggedIn hshake | reattached hshake =>
      rw [hshake.awaiting]
      exact Nat.zero_le _
  | timedOut _ hstatus =>
      obtain rfl := Option.mem_some.mp hc'
      rw [hstatus]
      exact Nat.le_succ 1
  | dropped | removed => simp at hc'

theorem Fate.closing (h : Fate i s p c after queued calls) (hclosing : c.status = .closing) :
    queued = [] ∧ ∀ c' ∈ after, c'.status = .closing ∧ c'.rxBuffer = c.rxBuffer ∧
      c'.txQueue <:+ c.txQueue := by
  have hsame {c' : ClientConnection} (hstatus : c'.status = c.status)
      (hbuffer : c'.rxBuffer = c.rxBuffer) (hqueue : c'.txQueue <:+ c.txQueue) :
      ∀ d ∈ some c', d.status = .closing ∧ d.rxBuffer = c.rxBuffer ∧ d.txQueue <:+ c.txQueue := by
    rintro d ⟨⟩
    exact ⟨hstatus.trans hclosing, hbuffer, hqueue⟩
  cases h with
  | kept => exact ⟨rfl, hsame rfl rfl List.suffix_rfl⟩
  | edited hedit =>
      cases hedit with
      | flushed _ hflush =>
          have hsuffix := flushLoop_suffix hflush
          exact ⟨queuedOn_sslWrites _, hsame rfl rfl hsuffix⟩
      | nothingRead => exact ⟨rfl, hsame rfl rfl List.suffix_rfl⟩
      | wantWrite _ hstatus => exact absurd hclosing hstatus
      | handshakeIncomplete hreceives => exact absurd hclosing hreceives.listening
      | loginRefused hshake | registered hshake | reconnectIgnored hshake =>
          simp [hshake.awaiting] at hclosing
      | streamIdle hstream | streamInvalid hstream | pingUnanswered hstream | pong hstream =>
          simp [hstream.authenticated] at hclosing
  | loggedIn hshake | reattached hshake => simp [hshake.awaiting] at hclosing
  | relayed hstream => simp [hstream.authenticated] at hclosing
  | hears hstatus | timedOut _ hstatus => simp [hstatus] at hclosing
  | dropped hdrop =>
      refine ⟨?_, nofun⟩
      cases hdrop with
      | flushed => exact queuedOn_sslWrites _
      | _ => rfl
  | removed => exact ⟨rfl, nofun⟩

theorem Fate.closing_ends (h : Fate i s p c none queued calls) (hclosing : c.status = .closing)
    (hconsistent : c.toOutgoing.Consistent) : ClosingEnds i s p c := by
  cases h with
  | dropped hdrop =>
      cases hdrop with
      | flushed hflushes hflush hresult =>
          have hspec := flush_spec hconsistent hflush
          exact .flushed hflushes hflush (hresult.imp_right fun h => hspec.drained h.1)
      | readFailed _ hstatus => exact absurd hclosing hstatus
      | handshakeInvalid hreceives => exact absurd hclosing hreceives.listening
      | registerFailed hshake | reconnectRefused hshake => simp [hshake.awaiting] at hclosing
      | quit hstream => simp [hstream.authenticated] at hclosing
      | kicked hevent hread hsession hconnection =>
          exact .kicked ⟨_, _, _, _, hevent, hread, hsession, hconnection⟩
  | removed hevent htimesOut => exact .swept hevent htimesOut.2

/-- The packets on a connection fit an `int`. -/
def Small (c : ClientConnection) : Prop := ∀ packet ∈ c.txQueue, packet.length ≤ intMax

theorem Fate.small (h : Fate i s p c after queued calls)
    (hsmall : c.status = .awaitingAuth → Small c) :
    ∀ c' ∈ after, c'.status = .awaitingAuth → Small c' := by
  rintro c' hc' hawaiting
  cases h with
  | kept =>
      obtain rfl := Option.mem_some.mp hc'
      exact hsmall hawaiting
  | edited hedit =>
      obtain rfl := Option.mem_some.mp hc'
      have hsmall := hsmall (hedit.status.elim (fun h => h.symm.trans hawaiting) And.left)
      cases hedit with
      | flushed _ hflush => exact fun packet h => hsmall packet ((flushLoop_suffix hflush).subset h)
      | registered =>
          intro packet hmem
          rcases List.mem_append.mp hmem with hmem | hmem
          · exact hsmall packet hmem
          · obtain rfl := List.mem_singleton.mp hmem
            decide
      | loginRefused => simp at hawaiting
      | pong hstream =>
          simp [queueWrite, ClientConnection.withBuffer, hstream.authenticated] at hawaiting
      | _ => exact hsmall
  | loggedIn | reattached =>
      obtain rfl := Option.mem_some.mp hc'
      simp [queueWrite, ClientConnection.authenticate] at hawaiting
  | relayed hstream =>
      obtain rfl := Option.mem_some.mp hc'
      simp [ClientConnection.withBuffer, hstream.authenticated] at hawaiting
  | hears hstatus =>
      obtain rfl := Option.mem_some.mp hc'
      simp [queueWrite, hstatus] at hawaiting
  | timedOut =>
      obtain rfl := Option.mem_some.mp hc'
      simp at hawaiting
  | dropped | removed => simp at hc'

end

/-! ## What comes later -/

section

variable {now : Time} {history later : List (Transition ServerApp Input)} {s s' : ServerApp}
  {p : ConnectionPtr} {c : ClientConnection}

/-- What every event keeps for a connection holds as long as the connection is there. -/
theorem kept_while_live (hrun : ServerRun now history s) (hlater : Run step s later s')
    {P : ClientConnection → Prop} (hp : s.deref p = some c) (hP : P c)
    (hstep : ∀ {i s c c' queued calls}, P c → Fate i s p c (some c') queued calls → P c') :
    p.node < s'.nextNode ∧ ∀ c', s'.deref p = some c' → P c' := by
  have hnode := (wellFormed_of_run hrun).node_lt_of_deref hp
  refine hlater.invariant_of (fun _ => True)
    (fun _ s' => p.node < s'.nextNode ∧ ∀ c', s'.deref p = some c' → P c') ?_ ?_
    fun _ _ => trivial
  · refine ⟨hnode, fun c' hc' => ?_⟩
    rw [hp, Option.some.injEq] at hc'
    exact hc' ▸ hP
  · rintro before t t' i hbefore ⟨hlt, hall⟩ hstep' -
    have hwf := wellFormed_of_run (hrun.append hbefore)
    have houtcome := outcome_of_run (hrun.append hbefore) hstep'
    refine ⟨hlt.trans_le houtcome.nextNode, fun c' hc' => ?_⟩
    obtain ⟨d, hd⟩ := deref_of_used hwf houtcome hc' hlt
    have hfate := fate_of_outcome hwf houtcome hd
    rw [hc'] at hfate
    exact hstep (hall d hd) hfate

theorem queuedDuring_closing (hrun : ServerRun now history s) (hlater : Run step s later s')
    (hp : s.deref p = some c) (hclosing : c.status = .closing) : queuedDuring p later = [] := by
  rw [queuedDuring, List.flatMap_eq_nil_iff]
  intro t ht
  obtain ⟨hstep, before, hbefore⟩ := hlater.transition ht
  have hfull := hrun.append hbefore
  have houtcome := outcome_of_run hfull hstep
  cases hd : t.pre.deref p with
  | none => exact (silent_of_outcome houtcome hd).1
  | some d =>
      have hstays := (kept_while_live hrun hbefore hp hclosing fun hclosing hfate =>
        ((hfate.closing hclosing).2 _ rfl).1).2 d hd
      exact ((fate_of_outcome (wellFormed_of_run hfull) houtcome hd).closing hstays).1

theorem small_of_run (hrun : ServerRun now history s) (hp : s.deref p = some c)
    (hawaiting : c.status = .awaitingAuth) : Small c := by
  refine hrun.invariant_of (fun _ => True)
    (fun _ s => ∀ p c, s.deref p = some c → c.status = .awaitingAuth → Small c) ?_ ?_
    (fun _ _ => trivial) p c hp hawaiting
  · intro p c hp
    simp [initialState, ServerApp.deref] at hp
  · rintro history s s' i hrun hsmall hstep - p c' hc'
    have hwf := wellFormed_of_run hrun
    have houtcome := outcome_of_run hrun hstep
    rcases traced_of_outcome hwf houtcome hc' with ⟨fd, _, rfl, rfl, _⟩ | ⟨c, hc, _⟩
    · intro _ packet hmem
      simp [ClientConnection.create] at hmem
    · have hfate := fate_of_outcome hwf houtcome hc
      rw [hc'] at hfate
      exact hfate.small (hsmall p c hc) c' rfl

end

/-! ## Logins that are turned down -/

def Unheld (s : ServerApp) (p : ConnectionPtr) : Prop :=
  ∀ u x, s.sessions.find? u = some x → x.connection ≠ some p

section

variable {i : Input} {s s' : ServerApp} {p : ConnectionPtr} {c : ClientConnection}
  {queued : List Bytes} {calls : List SslWriteCall} {status : VerifyClientStatus}

theorem unheld_of_awaiting (hwf : WellFormed s) (hp : s.deref p = some c)
    (hawaiting : c.status = .awaitingAuth) : Unheld s p := by
  intro u x hx hconnection
  obtain ⟨d, hd, hpast⟩ := (hwf.sessions hx).holds p hconnection
  rw [hp, Option.some.injEq] at hd
  exact hpast (hd ▸ hawaiting)

theorem Unheld.step (h : Unheld s p) (hwf : WellFormed s) (houtcome : Outcome i s (.ok s'))
    (hp : s.deref p = some c) (hclosing : c.status = .closing) : Unheld s' p := by
  have hpast {q : ConnectionPtr} {d : ClientConnection} {request : HandshakeRequest}
      {rest : Bytes} (hq : s.deref q = some d) (hshake : Handshakes i d request rest) : q ≠ p := by
    rintro rfl
    rw [hp, Option.some.injEq] at hq
    subst hq
    simp [hshake.awaiting] at hclosing
  intro u x hx
  cases houtcome.session hwf hx with
  | kept hx => exact h u x hx
  | detached => simp
  | loggedIn hq hshake | reattached hq hshake => simpa using hpast hq hshake

theorem refused_step (hwf : WellFormed s) (hsmall : ∀ c, s.deref p = some c →
      c.status = .awaitingAuth → Small c) (hstep : step i s = .ok s')
    (h : RefusesLogin i s p status) :
    (∃ c', s'.deref p = some c' ∧ c'.status = .closing ∧ Small c') ∧ Unheld s' p ∧
      queuedOn p s'.actions = [refusal status] ∧ callsOn p s'.actions = [] := by
  obtain ⟨c, request, rest, hp, hshake, hkind, hverify, hrefused⟩ := h
  rw [step_loginRefused hwf hp hshake (possible_of_step hstep) hkind hverify hrefused,
    Except.ok.injEq] at hstep
  obtain ⟨refused, hrecord⟩ : ∃ refused : ClientConnection,
      { queueWrite (c.withBuffer rest) (refusal status) with status := .closing } = refused :=
    ⟨_, rfl⟩
  rw [hrecord] at hstep
  have hnode : refused.node = c.node := hrecord ▸ rfl
  have hderef := deref_edited (i := i) hp hnode (some true) [.queueWrite p (refusal status)] p
  have hsessions := sessions_edited (i := i) (s := s) (p := p) refused (some true)
    [.queueWrite p (refusal status)]
  rw [if_pos rfl] at hderef
  subst hstep
  refine ⟨⟨refused, hderef, hrecord ▸ rfl, ?_⟩, ?_, ?_⟩
  · intro packet hmem
    rw [← hrecord] at hmem
    rcases List.mem_append.mp hmem with hmem | hmem
    · exact hsmall c hp hshake.awaiting packet hmem
    · obtain rfl := List.mem_singleton.mp hmem
      cases status <;> decide
  · intro u x hx
    exact unheld_of_awaiting hwf hp hshake.awaiting u x (hsessions ▸ hx)
  · rw [ServerApp.enableWriteEvent_eq]
    simp

theorem Fate.sentWhole (h : Fate i s p c none queued calls) (hclosing : c.status = .closing)
    (hconsistent : c.toOutgoing.Consistent) (hsmall : Small c) (hunheld : Unheld s p)
    (htls : ¬TlsFails calls) : queued = [] ∧ accepted calls = c.unsent := by
  cases h with
  | removed _ htimesOut =>
      refine ⟨rfl, ?_⟩
      rw [Outgoing.unsent, htimesOut.2]
      rfl
  | dropped hdrop =>
      cases hdrop with
      | @flushed flush _ hflush hresult =>
          rw [callsOn_sslWrites, if_pos rfl] at htls ⊢
          have hspec := flush_spec hconsistent hflush
          refine ⟨queuedOn_sslWrites _, ?_⟩
          rcases hresult with hfatal | ⟨hempty, _⟩
          · exact absurd (flushLoop_fatal (fun n hn => storeOffset_of_le hn)
              (consistent_notWaiting hconsistent) hsmall hflush hfatal) htls
          · have hconserved := hspec.conserved
            rw [Outgoing.unsent, hspec.drained hempty, List.append_nil] at hconserved
            exact hconserved
      | readFailed _ hstatus => exact absurd hclosing hstatus
      | handshakeInvalid hreceives => exact absurd hclosing hreceives.listening
      | registerFailed hshake | reconnectRefused hshake => simp [hshake.awaiting] at hclosing
      | quit hstream => simp [hstream.authenticated] at hclosing
      | kicked _ _ hsession hconnection => exact absurd hconnection (hunheld _ _ hsession)

end

section

variable {now : Time} {history later : List (Transition ServerApp Input)} {s s₁ s' : ServerApp}
  {p : ConnectionPtr} {c : ClientConnection} {i : Input} {status : VerifyClientStatus}

theorem tlsFails_mono {calls more : List SslWriteCall} (hsub : calls ⊆ more)
    (h : TlsFails calls) : TlsFails more := by
  obtain ⟨call, hcall, hfailed⟩ := h
  exact ⟨call, hsub hcall, hfailed⟩

/-- After a login has been turned down the connection only sends, and when it goes
everything has been sent. -/
theorem refused_later (hrun : ServerRun now history s) (hstep : step i s = .ok s₁)
    (hrefused : RefusesLogin i s p status) (hlater : Run step s₁ later s')
    (htls : ¬TlsFails (callsDuring p later)) (hgone : s'.deref p = none) :
    accepted (callsDuring p (history ++ [⟨s, i, s₁⟩] ++ later)) =
      (queuedDuring p (history ++ [⟨s, i, s₁⟩] ++ later)).flatten := by
  have hfirst := hrun.next hstep
  have hwf := wellFormed_of_run hrun
  obtain ⟨⟨c₁, hc₁, hclosing, hsmall⟩, hunheld, -, -⟩ :=
    refused_step hwf (fun c hc => small_of_run hrun hc) hstep hrefused
  have hnode := (wellFormed_of_run hfirst).node_lt_of_deref hc₁
  have hinvariant : p.node < s'.nextNode ∧
      (∀ d, s'.deref p = some d → d.status = .closing ∧ Small d ∧ Unheld s' p) ∧
      (s'.deref p = none → accepted (callsDuring p (history ++ [⟨s, i, s₁⟩] ++ later)) =
        (queuedDuring p (history ++ [⟨s, i, s₁⟩] ++ later)).flatten) := by
    refine hlater.invariant_of (fun t => ¬TlsFails (callsOn p t.post.actions))
      (fun later s' => p.node < s'.nextNode ∧
        (∀ d, s'.deref p = some d → d.status = .closing ∧ Small d ∧ Unheld s' p) ∧
        (s'.deref p = none → accepted (callsDuring p (history ++ [⟨s, i, s₁⟩] ++ later)) =
          (queuedDuring p (history ++ [⟨s, i, s₁⟩] ++ later)).flatten)) ?_ ?_ ?_
    · refine ⟨hnode, fun d hd => ?_, fun hnone => by simp [hnone] at hc₁⟩
      rw [hc₁, Option.some.injEq] at hd
      exact hd ▸ ⟨hclosing, hsmall, hunheld⟩
    · rintro later t t' j hlater ⟨hlt, hlive, hsent⟩ hstep htls
      have hfull := hfirst.append hlater
      have hwf := wellFormed_of_run hfull
      have houtcome := outcome_of_run hfull hstep
      refine ⟨hlt.trans_le houtcome.nextNode, ?_, fun hnone => ?_⟩
      · intro d' hd'
        obtain ⟨d, hd⟩ := deref_of_used hwf houtcome hd' hlt
        obtain ⟨hclosing, hsmall, hunheld⟩ := hlive d hd
        have hfate := fate_of_outcome hwf houtcome hd
        rw [hd'] at hfate
        obtain ⟨-, hafter⟩ := hfate.closing hclosing
        obtain ⟨hclosing', -, hsuffix⟩ := hafter d' rfl
        exact ⟨hclosing', fun packet hmem => hsmall packet (hsuffix.subset hmem),
          hunheld.step hwf houtcome hd hclosing⟩
      · rw [← List.append_assoc, callsDuring_append, queuedDuring_append]
        cases hd : t.deref p with
        | none =>
            obtain ⟨hqueued, hcalls⟩ := silent_of_outcome houtcome hd
            rw [hqueued, hcalls, List.append_nil, List.append_nil]
            exact hsent hd
        | some d =>
            obtain ⟨hclosing, hsmall, hunheld⟩ := hlive d hd
            have hfate := fate_of_outcome hwf houtcome hd
            rw [hnone] at hfate
            obtain ⟨hqueued, hcalls⟩ :=
              hfate.sentWhole hclosing (hwf.deref_ok hd).consistent hsmall hunheld htls
            rw [accepted_append, hqueued, hcalls, List.append_nil]
            exact (accepted_of_run hfull p).2 d hd
    · intro t ht htls'
      exact htls (tlsFails_mono (fun call hcall => List.mem_flatMap.mpr ⟨t, ht, hcall⟩) htls')
  exact hinvariant.2.2 hgone

/-- In every run, for every connection: the status only moves forward; once it is Closing
nothing is appended to its queue or its buffer; it is taken down then only with an empty
queue, after a flush that failed, or by a kick; and unless TLS fails, the answer to a login
that was turned down has been sent whole when the connection goes. -/
theorem closing_connections_drain (hrun : ServerRun now history s) :
    (∀ later s' p c c', Run step s later s' → s.deref p = some c → s'.deref p = some c' →
      c.status.rank ≤ c'.status.rank) ∧
    (∀ later s' p c, Run step s later s' → s.deref p = some c → c.status = .closing →
      queuedDuring p later = [] ∧ ∀ c', s'.deref p = some c' →
        c'.status = .closing ∧ c'.rxBuffer = c.rxBuffer ∧ c'.txQueue <:+ c.txQueue) ∧
    (∀ i s' p c, step i s = .ok s' → s.deref p = some c → c.status = .closing →
      s'.deref p = none → ClosingEnds i s p c) ∧
    (∀ i s₁ later s' p status, step i s = .ok s₁ → RefusesLogin i s p status →
      Run step s₁ later s' → s'.deref p = none → ¬TlsFails (callsDuring p later) →
      queuedDuring p (history ++ [⟨s, i, s₁⟩] ++ later) =
          queuedDuring p history ++ [refusal status] ∧
        accepted (callsDuring p (history ++ [⟨s, i, s₁⟩] ++ later)) =
          (queuedDuring p (history ++ [⟨s, i, s₁⟩] ++ later)).flatten) := by
  refine ⟨?_, ?_, ?_, ?_⟩
  · intro later s' p c c' hlater hp hp'
    exact (kept_while_live hrun hlater hp (P := fun d => c.status.rank ≤ d.status.rank) le_rfl
      fun hle hfate => hle.trans (hfate.rank_le _ rfl)).2 c' hp'
  · intro later s' p c hlater hp hclosing
    refine ⟨queuedDuring_closing hrun hlater hp hclosing, ?_⟩
    refine (kept_while_live hrun hlater hp (P := fun d => d.status = .closing ∧
      d.rxBuffer = c.rxBuffer ∧ d.txQueue <:+ c.txQueue)
      ⟨hclosing, rfl, List.suffix_rfl⟩ ?_).2
    rintro i s d d' queued calls ⟨hclosing, hbuffer, hqueue⟩ hfate
    obtain ⟨hclosing', hbuffer', hqueue'⟩ := (hfate.closing hclosing).2 d' rfl
    exact ⟨hclosing', hbuffer'.trans hbuffer, hqueue'.trans hqueue⟩
  · intro i s' p c hstep hp hclosing hgone
    have hwf := wellFormed_of_run hrun
    have hfate := fate_of_outcome hwf (outcome_of_run hrun hstep) hp
    rw [hgone] at hfate
    exact hfate.closing_ends hclosing (hwf.deref_ok hp).consistent
  · intro i s₁ later s' p status hstep hrefused hlater hgone htls
    refine ⟨?_, refused_later hrun hstep hrefused hlater htls hgone⟩
    obtain ⟨⟨c₁, hc₁, hclosing, -⟩, -, hqueued, -⟩ := refused_step (wellFormed_of_run hrun)
      (fun c hc => small_of_run hrun hc) hstep hrefused
    have hnothing := queuedDuring_closing (hrun.next hstep) hlater hc₁ hclosing
    have happend : queuedDuring p (history ++ [⟨s, i, s₁⟩] ++ later) =
        queuedDuring p (history ++ [⟨s, i, s₁⟩]) ++ queuedDuring p later := by
      simp [queuedDuring]
    rw [happend, queuedDuring_append, hqueued, hnothing, List.append_nil]

end

def refusedLogin (fd : Fd) : Input :=
  { receiving fd (loginPacket (literal "a") (literal "b")) with
    verifyClient := fun _ _ => .notAuthorized }

/-- `closing_connections_drain` while the answer to a refused login is still queued. -/
theorem closing_connections_drain_refused : ∃ history s, ServerRun 0 history s ∧
    (∃ c, s.deref ⟨5, 0⟩ = some c ∧ c.status = .closing ∧ c.txQueue ≠ []) ∧
    ∀ later s' p c, Run step s later s' → s.deref p = some c → c.status = .closing →
      queuedDuring p later = [] ∧ ∀ c', s'.deref p = some c' →
        c'.status = .closing ∧ c'.rxBuffer = c.rxBuffer ∧ c'.txQueue <:+ c.txQueue := by
  obtain ⟨history, s, hrun, h⟩ := Run.exists_of_execute step [accepting 5, refusedLogin 5]
    (initialState 0)
    (fun _ s => (s.deref ⟨5, 0⟩).any fun c => c.status = .closing ∧ c.txQueue ≠ [])
    (by decide +kernel)
  simp only [Option.any_eq_true, decide_eq_true_eq] at h
  exact ⟨history, s, hrun, h, (closing_connections_drain hrun).2.1⟩

end TChat.Server
