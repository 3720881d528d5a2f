import TChat.Lib.Tenure
import TChat.Server.Closing
import TChat.Server.SessionStates
/-!
# Reconnecting

A run of the server is a run of the abstract membership service.  What is known about its
seats says which Reconnect packets are accepted, and when.
-/

namespace TChat.Server

open TChat.Common TChat.Lib

/-! ## The server as a run of the service -/

structure MovesAs (t : Transition ServerApp Input)
    (move : Move ConnectionPtr Bytes Bytes Time) : Prop where
  cause : MoveOf t.input t.pre move
  enabled : t.pre.membership.Enabled move
  effect : t.post.membership = t.pre.membership.apply move

section

variable {now : Time} {history : List (Transition ServerApp Input)} {s : ServerApp}

theorem membership_initialState (now : Time) :
    (initialState now).membership = Membership.empty := by
  apply membership_eq <;> intro q <;> rfl

/-- Every run of the server is a run of the membership service, one move an event: what the
operations of the maps do to connections and sessions is what the service does to stages and
seats. -/
theorem moves_of_run (hrun : ServerRun now history s) :
    ∃ moves, List.Forall₂ MovesAs history moves ∧ Membership.Moves moves s.membership := by
  induction hrun with
  | start => exact ⟨[], .nil, membership_initialState now ▸ .start⟩
  | @next history s s' i hrun hstep ih =>
      obtain ⟨moves, hmoves, hreached⟩ := ih
      obtain ⟨move, hcause, henabled, heffect⟩ :=
        (outcome_of_run hrun hstep).refines (wellFormed_of_run hrun)
      refine ⟨moves ++ [move], ?_, heffect ▸ hreached.next henabled⟩
      exact List.rel_append hmoves (.cons ⟨hcause, henabled, heffect⟩ .nil)

end

/-! ## Logins and reconnections -/

/-- The event logs the client of `p` in as `u` and gives it the token. -/
def LogsInWith (t : Transition ServerApp Input) (p : ConnectionPtr) (u token : Bytes) : Prop :=
  ∃ c request rest, t.pre.deref p = some c ∧ Handshakes t.input c request rest ∧
    request.kind = .login ∧
    t.input.verifyClient request.username request.password = .authorized ∧
    request.username = u ∧ generateToken t.input.random = token

def Reattaches (t : Transition ServerApp Input) (p : ConnectionPtr) (u : Bytes) : Prop :=
  ∃ c request rest session, t.pre.deref p = some c ∧ Handshakes t.input c request rest ∧
    request.kind = .reconnect ∧ t.pre.sessions.find? request.username = some session ∧
    session.token = request.token ∧ session.state = .disconnected ∧ request.username = u

section

variable {now : Time} {history : List (Transition ServerApp Input)} {s s' : ServerApp}
  {i : Input} {t : Transition ServerApp Input} {move : Move ConnectionPtr Bytes Bytes Time}
  {p q : ConnectionPtr} {c : ClientConnection} {u token : Bytes} {request : HandshakeRequest}
  {rest : Bytes}

theorem Handshakes.unique {request' : HandshakeRequest} {rest' : Bytes}
    (h : Handshakes i c request rest) (h' : Handshakes i c request' rest') :
    request = request' := by
  obtain ⟨bytes, hreceives, -, hparse⟩ := h
  obtain ⟨bytes', hreceives', -, hparse'⟩ := h'
  have hsame := hreceives.outcome.symm.trans hreceives'.outcome
  simp only [Option.some.injEq, SslRead.received.injEq] at hsame
  rw [hsame, hparse'] at hparse
  simp only [Prod.mk.injEq, HandshakeResult.mk.injEq, true_and] at hparse
  exact hparse.1.symm

theorem stage_member (hp : s.deref p = some c) (hstatus : c.status = .authenticated) :
    s.membership.stage p = some .member := by
  rw [stage_eq hp, hstatus]
  rfl

theorem seats_of_admitted (h : MovesAs t move) (hp : t.pre.deref p = some c)
    (hawaiting : c.status = .awaitingAuth) {d : ClientConnection}
    (hp' : t.post.deref p = some d) (hstatus : d.status = .authenticated) :
    (∃ n key now, move = .take p n key now) ∨ ∃ n since, move = .resume p n since := by
  apply Membership.seats_of_stage h.enabled
  · rw [stage_eq hp, hawaiting]
    rfl
  · rw [← h.effect]
    exact stage_member hp' hstatus

theorem logsInWith_of_take {key : Bytes} {at' : Time} (h : MovesAs t (.take p u key at')) :
    LogsInWith t p u key := by
  generalize hmove : Move.take p u key at' = move at h
  obtain ⟨hcause, -, -⟩ := h
  cases hcause with
  | @loggedIn p' c request rest hp hshake hkind hverify =>
      simp only [Move.take.injEq] at hmove
      obtain ⟨rfl, rfl, rfl, -⟩ := hmove
      exact ⟨c, request, rest, hp, hshake, hkind, hverify, rfl, rfl⟩
  | _ => simp at hmove

theorem reattaches_of_resume {since : Time} (h : MovesAs t (.resume p u since)) :
    Reattaches t p u := by
  generalize hmove : Move.resume p u since = move at h
  obtain ⟨hcause, -, -⟩ := h
  cases hcause with
  | @reattached p' c request rest session hp hshake hkind hsession htoken hstate =>
      simp only [Move.resume.injEq] at hmove
      obtain ⟨rfl, rfl, -⟩ := hmove
      exact ⟨c, request, rest, session, hp, hshake, hkind, hsession, htoken, hstate, rfl⟩
  | _ => simp at hmove

theorem take_of_logsInWith (hwf : WellFormed t.pre) (hstep : step t.input t.pre = .ok t.post)
    (h : MovesAs t move) (hlogin : LogsInWith t p u token) :
    ∃ now, move = .take p u token now := by
  obtain ⟨c, request, rest, hp, hshake, hkind, hverify, rfl, rfl⟩ := hlogin
  have hadmitted := (lookups_of_login hwf hp hshake hkind hverify (possible_of_step hstep)
    hstep).1
  rcases seats_of_admitted h hp hshake.awaiting hadmitted rfl with
    ⟨u, key, at', rfl⟩ | ⟨u, since, rfl⟩
  · obtain ⟨c', request', rest', hp', hshake', -, -, rfl, rfl⟩ := logsInWith_of_take h
    rw [hp, Option.some.injEq] at hp'
    subst hp'
    rw [hshake.unique hshake']
    exact ⟨at', rfl⟩
  · obtain ⟨c', request', rest', session, hp', hshake', hkind', -⟩ := reattaches_of_resume h
    rw [hp, Option.some.injEq] at hp'
    subst hp'
    rw [hshake.unique hshake', hkind'] at hkind
    cases hkind

theorem resume_of_reattaches (hwf : WellFormed t.pre) (hstep : step t.input t.pre = .ok t.post)
    (h : MovesAs t move) (hreattaches : Reattaches t p u) :
    ∃ since, move = .resume p u since := by
  obtain ⟨c, request, rest, session, hp, hshake, hkind, hsession, htoken, hstate, rfl⟩ :=
    hreattaches
  have hadmitted := step_reattached hwf hp hshake (possible_of_step hstep) hkind hsession htoken
    hstate
  rw [hstep, Except.ok.injEq] at hadmitted
  have hp' : t.post.deref p = some (c.authenticate rest t.input.now) := by
    rw [hadmitted]
    exact ServerApp.deref_store_self (s := t.pre.beginEvent t.input.now) hp rfl
  rcases seats_of_admitted h hp hshake.awaiting hp' rfl with
    ⟨u, key, at', rfl⟩ | ⟨u, since, rfl⟩
  · obtain ⟨c', request', rest', hp', hshake', hkind', -⟩ := logsInWith_of_take h
    rw [hp, Option.some.injEq] at hp'
    subst hp'
    rw [hshake.unique hshake', hkind'] at hkind
    cases hkind
  · obtain ⟨c', request', rest', session', hp', hshake', -, -, -, -, rfl⟩ :=
      reattaches_of_resume h
    rw [hp, Option.some.injEq] at hp'
    subst hp'
    rw [hshake.unique hshake']
    exact ⟨since, rfl⟩

theorem gone_of_later {later : List (Transition ServerApp Input)}
    (hrun : ServerRun now history s) (hlater : Run step s later s') (hgone : s.deref p = none)
    (hused : p.node < s.nextNode) : s'.deref p = none := by
  have hinvariant : p.node < s'.nextNode ∧ s'.deref p = none := by
    refine hlater.invariant_of (fun _ => True)
      (fun _ s' => p.node < s'.nextNode ∧ s'.deref p = none) ⟨hused, hgone⟩ ?_ fun _ _ => trivial
    rintro later t t' i hlater ⟨hused, hgone⟩ hstep -
    have hfull := hrun.append hlater
    have houtcome := outcome_of_run hfull hstep
    refine ⟨hused.trans_le houtcome.nextNode, ?_⟩
    cases hc : t'.deref p with
    | none => rfl
    | some c =>
        obtain ⟨d, hd⟩ := deref_of_used (wellFormed_of_run hfull) houtcome hc hused
        simp [hgone] at hd
  exact hinvariant.2

/-- The last login under a name: the client of `q` got the token, and `after` is what has
happened since. -/
structure LastLogin (history : List (Transition ServerApp Input)) (q : ConnectionPtr)
    (u token : Bytes) (after : List (Transition ServerApp Input)) : Prop where
  login : ∃ before t, history = before ++ t :: after ∧ LogsInWith t q u token
  last : ∀ t ∈ after, ∀ r token, ¬LogsInWith t r u token

theorem LastLogin.unique {token' : Bytes} {after after' : List (Transition ServerApp Input)}
    (hrun : ServerRun now history s) (h : LastLogin history p u token after)
    (h' : LastLogin history q u token' after') : p = q ∧ token = token' ∧ after = after' := by
  obtain ⟨before, t, hhistory, hlogin⟩ := h.login
  obtain ⟨before', t', hhistory', hlogin'⟩ := h'.login
  have hnone : ∀ t ∈ after, ¬∃ r token, LogsInWith t r u token := by
    rintro t ht ⟨r, token, hlater⟩
    exact h.last t ht r token hlater
  have hnone' : ∀ t ∈ after', ¬∃ r token, LogsInWith t r u token := by
    rintro t ht ⟨r, token, hlater⟩
    exact h'.last t ht r token hlater
  obtain ⟨rfl, hafter⟩ := last_unique (hhistory.symm.trans hhistory') ⟨p, token, hlogin⟩
    ⟨q, token', hlogin'⟩ hnone hnone'
  obtain ⟨moves, hmoves, -⟩ := moves_of_run hrun
  have ht : t ∈ history := by simp [hhistory]
  obtain ⟨hstep, earlier, hearlier⟩ := hrun.transition ht
  obtain ⟨move, -, hmove⟩ := (forall₂_mem hmoves).1 t ht
  have hwf := wellFormed_of_run hearlier
  obtain ⟨at', htake⟩ := take_of_logsInWith hwf hstep hmove hlogin
  obtain ⟨at'', htake'⟩ := take_of_logsInWith hwf hstep hmove hlogin'
  rw [htake] at htake'
  simp only [Move.take.injEq] at htake'
  exact ⟨htake'.1, htake'.2.2.1, hafter⟩

/-- A session is the one of the last login under its name: it has the token of that login, and
since then it was resumed at most once. -/
theorem lastLogin_of_session (hrun : ServerRun now history s) {x : ClientSession}
    (hx : s.sessions.find? u = some x) :
    ∃ q after, LastLogin history q u x.token after ∧
      (modeOf x.state = .fresh → x.connection = some q) ∧
      (modeOf x.state = .resumed ↔ ∃ t ∈ after, ∃ r, Reattaches t r u) ∧
      (modeOf x.state = .vacant → s.deref q = none) := by
  obtain ⟨moves, hmoves, hreached⟩ := moves_of_run hrun
  have hseat : s.membership.seat u = some (seatOf x) := by
    simp [ServerApp.membership, hx]
  obtain ⟨before, q, at', later, rfl, htenure⟩ := hreached.tenure hseat
  obtain ⟨before', t, after, rfl, htaken, hafter⟩ := forall₂_append_cons hmoves
  have hlogin := logsInWith_of_take htaken
  obtain ⟨hbefore, hstep, hlater⟩ := hrun.split
  have hfirst := hbefore.next hstep
  -- the transitions since then, and their moves
  have hstates : ∀ t' ∈ after, WellFormed t'.pre ∧ step t'.input t'.pre = .ok t'.post := by
    intro t' ht'
    obtain ⟨hstep', earlier, hearlier⟩ := hlater.transition ht'
    exact ⟨wellFormed_of_run (hfirst.append hearlier), hstep'⟩
  obtain ⟨hcovered, hcovers⟩ := forall₂_mem hafter
  refine ⟨q, after, ⟨⟨before', t, rfl, hlogin⟩, ?_⟩, htenure.fresh, ?_, ?_⟩
  · intro t' ht' r token hrelogin
    obtain ⟨move, hmove, hmoves'⟩ := hcovered t' ht'
    obtain ⟨hwf, hstep'⟩ := hstates t' ht'
    obtain ⟨at'', rfl⟩ := take_of_logsInWith hwf hstep' hmoves' hrelogin
    exact htenure.untaken _ hmove ⟨r, token, at'', rfl⟩
  · have hresumed : modeOf x.state = .resumed ↔ ∃ move ∈ later, move.Resumes u := htenure.resumed
    rw [hresumed]
    constructor
    · rintro ⟨move, hmove, r, since, rfl⟩
      obtain ⟨t', ht', hmoves'⟩ := hcovers _ hmove
      exact ⟨t', ht', r, reattaches_of_resume hmoves'⟩
    · rintro ⟨t', ht', r, hreattaches⟩
      obtain ⟨move, hmove, hmoves'⟩ := hcovered t' ht'
      obtain ⟨hwf, hstep'⟩ := hstates t' ht'
      obtain ⟨since, rfl⟩ := resume_of_reattaches hwf hstep' hmoves' hreattaches
      exact ⟨_, hmove, r, since, rfl⟩
  · intro hvacant
    obtain ⟨move, hmove, gone, closing, lapsed, at'', rfl, hgone⟩ := htenure.left hvacant
    obtain ⟨t', ht', hmoves'⟩ := hcovers _ hmove
    have hstage : t'.post.membership.stage q = none := by
      rw [hmoves'.effect]
      simp [Membership.apply, hgone]
    have hpost : t'.post.deref q = none := by
      simpa [ServerApp.membership] using hstage
    obtain ⟨middle, rest, rfl⟩ := List.append_of_mem ht'
    obtain ⟨hmiddle, hstep', hrest⟩ := hlater.split
    obtain ⟨c, -, -, hq, -⟩ := hlogin
    -- the connection was there when it logged in
    have hused : q.node < t'.post.nextNode := by
      have hthere : Run step t.pre ([⟨t.pre, t.input, t.post⟩] ++ (middle ++ [t'])) t'.post :=
        (Run.start.next hstep).append (hmiddle.next hstep')
      exact (kept_while_live hbefore hthere hq (P := fun _ => True) trivial
        fun _ _ => trivial).1
    exact gone_of_later (hfirst.append (hmiddle.next hstep')) hrest hpost hused

theorem admitted_iff (hwf : WellFormed s) (hp : s.deref p = some c)
    (hshake : Handshakes i c request rest) (hkind : request.kind = .reconnect)
    (hstep : step i s = .ok s') :
    (∃ d, s'.deref p = some d ∧ d.status = .authenticated) ↔
      ∃ x, s.sessions.find? request.username = some x ∧ x.token = request.token ∧
        x.state = .disconnected := by
  have hpossible := possible_of_step hstep
  constructor
  · rintro ⟨d, hd, hstatus⟩
    cases hverify : ClientManager.verifySession request.username request.token s with
    | false =>
        rw [step_reconnectRefused hwf hp hshake hpossible hkind hverify, Except.ok.injEq] at hstep
        subst hstep
        rw [deref_release (s := s.beginEvent i.now) _ _ hp, if_pos rfl] at hd
        cases hd
    | true =>
        obtain ⟨x, hx, htoken⟩ := ServerApp.verifySession_eq_true.mp hverify
        refine ⟨x, hx, htoken, ?_⟩
        by_contra hstate
        have hother : ∀ session, s.sessions.find? request.username = some session →
            session.state ≠ .disconnected := by
          intro session hsession
          rw [hx, Option.some.injEq] at hsession
          exact hsession ▸ hstate
        rw [step_reconnectIgnored hwf hp hshake hpossible hkind hverify hother,
          Except.ok.injEq] at hstep
        subst hstep
        have hkept : ((s.beginEvent i.now).store p (c.withBuffer rest)).deref p =
            some (c.withBuffer rest) :=
          ServerApp.deref_store_self (s := s.beginEvent i.now) hp rfl
        rw [hkept, Option.some.injEq] at hd
        rw [← hd] at hstatus
        have hawaiting : (c.withBuffer rest).status = .awaitingAuth := hshake.awaiting
        rw [hawaiting] at hstatus
        cases hstatus
  · rintro ⟨x, hx, htoken, hstate⟩
    rw [step_reattached hwf hp hshake hpossible hkind hx htoken hstate, Except.ok.injEq] at hstep
    subst hstep
    exact ⟨_, ServerApp.deref_store_self (s := s.beginEvent i.now) hp rfl, rfl⟩

/-- Every run of the server refines the abstract membership service: its events are possible
moves of the service, made one after the other, and the stages and seats that they lead to are
those of the server's connections and sessions, with all that holds of them in any service. -/
theorem server_refines_membership (hrun : ServerRun now history s) :
    ∃ moves, List.Forall₂ MovesAs history moves ∧
      Membership.Moves moves s.membership ∧ s.membership.Sound := by
  obtain ⟨moves, hmoves, hreached⟩ := moves_of_run hrun
  exact ⟨moves, hmoves, hreached, hreached.sound⟩

/-- A login and its loss are three moves. -/
theorem server_refines_membership_once : ∃ (s : ServerApp)
    (moves : List (Move ConnectionPtr Bytes Bytes Time)),
    moves.length = 3 ∧ Membership.Moves moves s.membership := by
  obtain ⟨history, s, hrun, hinputs, -⟩ := Run.exists_of_execute_inputs step leaveOnce
    (initialState 0) (fun _ _ => true) (by decide +kernel)
  obtain ⟨moves, hmoves, hreached, -⟩ := server_refines_membership hrun
  refine ⟨s, moves, ?_, hreached⟩
  rw [← hmoves.length_eq, ← List.length_map, hinputs]
  rfl

/-- In every run, a Reconnect packet is accepted if and only if it has the token of the last
login under its name, the connection of that login is gone, nobody has reconnected since, and
the session has not expired. -/
theorem reconnects_iff (hrun : ServerRun now history s) (hp : s.deref p = some c)
    (hshake : Handshakes i c request rest) (hkind : request.kind = .reconnect)
    (hstep : step i s = .ok s') :
    (∃ d, s'.deref p = some d ∧ d.status = .authenticated) ↔
      ∃ q after, LastLogin history q request.username request.token after ∧
        s.deref q = none ∧ (∀ t ∈ after, ∀ r, ¬Reattaches t r request.username) ∧
        ∃ x, s.sessions.find? request.username = some x := by
  have hwf := wellFormed_of_run hrun
  rw [admitted_iff hwf hp hshake hkind hstep]
  constructor
  · rintro ⟨x, hx, htoken, hstate⟩
    obtain ⟨q, after, hlast, -, hresumed, hvacant⟩ := lastLogin_of_session hrun hx
    rw [htoken] at hlast
    have hmode : modeOf x.state = .vacant := by rw [hstate]; rfl
    refine ⟨q, after, hlast, hvacant hmode, ?_, x, hx⟩
    intro t ht r hreattaches
    have hmode' := hresumed.mpr ⟨t, ht, r, hreattaches⟩
    rw [hmode] at hmode'
    cases hmode'
  · rintro ⟨q, after, hlast, hgone, hnone, x, hx⟩
    obtain ⟨q', after', hlast', hfresh, hresumed, -⟩ := lastLogin_of_session hrun hx
    obtain ⟨rfl, htoken, rfl⟩ := hlast.unique hrun hlast'
    refine ⟨x, hx, htoken.symm, ?_⟩
    have hstored := (hwf.sessions hx).stored
    cases hstate : x.state with
    | connected =>
        obtain ⟨d, hd, -⟩ := (hwf.sessions hx).holds q (hfresh (by rw [hstate]; rfl))
        rw [hgone] at hd
        cases hd
    | reconnected =>
        obtain ⟨t, ht, r, hreattaches⟩ := hresumed.mp (by rw [hstate]; rfl)
        exact absurd hreattaches (hnone t ht r)
    | kicked => exact absurd hstate hstored.1
    | expired => exact absurd hstate hstored.2
    | disconnected => rfl

/-- A client that has left comes back with its token. -/
theorem reconnects_iff_once : ∃ history s, ServerRun 0 history s ∧ ∃ q after,
    LastLogin history q (literal "a") (generateToken Input.sample.random) after ∧
      s.deref q = none := by
  obtain ⟨history, s, hrun, hleft⟩ := Run.exists_of_execute step (leaveOnce ++ [accepting 6])
    (initialState 0)
    (fun _ s => (s.clock = 0 ∧ s.deref ⟨6, 1⟩ = some (.create 1 6 (some 1) 0)) ∧
      (s.sessions.find? (literal "a")).any fun x =>
        x.token = generateToken Input.sample.random ∧ x.state = .disconnected)
    (by decide +kernel)
  simp only [decide_eq_true_eq, Option.any_eq_true] at hleft
  obtain ⟨⟨hclock, hp⟩, x, hx, htoken, hstate⟩ := hleft
  have hshake : Handshakes
      (receiving 6 (reconnectPacket (literal "a") (generateToken Input.sample.random)))
      (.create 1 6 (some 1) 0)
      ⟨.reconnect, literal "a", [], generateToken Input.sample.random⟩ [] :=
    ⟨_, ⟨⟨rfl, .inl ⟨rfl, rfl⟩⟩, by decide, rfl, by decide, by decide⟩, rfl, by decide +kernel⟩
  have hstep := step_reattached (wellFormed_of_run hrun) hp hshake
    (receiving_possible hclock _ _) rfl hx htoken hstate
  obtain ⟨q, after, hlast, hgone, -⟩ := (reconnects_iff hrun hp hshake rfl hstep).mp
    ⟨_, ServerApp.deref_store_self (s := s.beginEvent 0) hp rfl, rfl⟩
  exact ⟨history, s, hrun, q, after, hlast, hgone⟩

end

end TChat.Server
