import TChat.Server.Broadcasts
import TChat.Server.Closing
import TChat.Server.Database
/-!
# Under which name a user is known

The name of a handshake goes to the session map with its length and to the database
as a C string.  The two are the same name unless there is a NUL byte in it.
-/

namespace TChat.Server

open TChat.Common TChat.Lib

/-- The event logs the connection `p` in, and the hash in the row `user` has validated the
password. -/
structure LogsInAs (t : Transition Service Served) (p : ConnectionPtr)
    (request : HandshakeRequest) (user : User) : Prop where
  handshake : handshake? t.input.input t.pre.app = some (p, request)
  kind : request.kind = .login
  selected : selectUser t.input.calls t.pre.users request.username = some user
  authorized :
    verifyClient t.input.calls t.pre.users request.username request.password = .authorized

/-- A login stores its session under the name in the row that validated it, what the
connection says later is broadcast under that name, and a registration inserts a row
with the name of its packet. -/
structure IdentityKept (history : List (Transition Service Served)) : Prop where
  stored : ∀ t ∈ history, ∀ p request user, LogsInAs t p request user →
    ∃ session, t.post.app.sessions.find? user.username = some session ∧
      session.username = user.username ∧ session.connection = some p
  broadcast : ∀ before t after, history = before ++ t :: after →
    ∀ p request user, LogsInAs t p request user → ∀ t' ∈ after, ∀ packet,
    .broadcast (some p) packet ∈ t'.post.app.actions →
    ∃ text, packet = ServerApp.clientBroadcast user.username text
  inserted : ∀ t ∈ history, ∀ p request,
    handshake? t.input.input t.pre.app = some (p, request) → request.kind = .register →
    (registerClient t.input.calls t.pre.users request.username request.password).1 =
      .clientRegistered →
    ∃ hash, t.post.users.rows = t.pre.users.rows ++ [⟨request.username, hash⟩]

/-- The database is for the request: there is a row of the name with the password, or none
that the new one would collide with. -/
def Accepts (calls : LibraryCalls) (users : Users) (request : HandshakeRequest) : Prop :=
  match request.kind with
  | .login =>
      calls.prepares ∧ calls.steps ∧ ∃ user ∈ users.rows,
        user.username = cString request.username ∧
        calls.validatePassword request.password (cString user.passwordHash)
  | .register =>
      calls.opens ∧ calls.prepares ∧ calls.steps ∧
        ∀ user ∈ users.rows, user.username ≠ cString request.username
  | _ => False

/-- The event completes a Login or Register packet that the database is for, with a NUL
byte in the name. -/
def TruncatesName (t : Transition Service Served) : Prop :=
  ∃ p request, handshake? t.input.input t.pre.app = some (p, request) ∧
    0 ∈ request.username ∧ Accepts t.input.calls t.pre.users request

section

variable {calls : LibraryCalls} {users : Users} {request : HandshakeRequest}

theorem verifyClient_authorized {username password : Bytes} :
    verifyClient calls users username password = .authorized ↔
      calls.prepares ∧ ∃ user, selectUser calls users username = some user ∧
        calls.validatePassword password (cString user.passwordHash) := by
  unfold verifyClient
  cases hselect : selectUser calls users username with
  | none => cases calls.prepares <;> simp
  | some user =>
      cases calls.prepares <;>
        cases calls.validatePassword password (cString user.passwordHash) <;> simp

theorem accepts_login (hkind : request.kind = .login) :
    Accepts calls users request ↔
      verifyClient calls users request.username request.password = .authorized := by
  rw [Accepts, hkind, verifyClient_authorized]
  constructor
  · rintro ⟨hprepares, hsteps, user, hmem, hname, hvalid⟩
    exact ⟨hprepares, user, selectUser_of_mem hsteps hmem hname, hvalid⟩
  · rintro ⟨hprepares, user, hselect, hvalid⟩
    obtain ⟨hsteps, hmem, hname⟩ := selectUser_some hselect
    exact ⟨hprepares, hsteps, user, hmem, hname, hvalid⟩

theorem accepts_register (hkind : request.kind = .register) :
    Accepts calls users request ↔
      (registerClient calls users request.username request.password).1 = .clientRegistered := by
  have hfree : (∀ user ∈ users.rows, user.username ≠ cString request.username) ↔
      cString request.username ∉ users.rows.map (·.username) := by
    simp
  rw [Accepts, hkind]
  dsimp only
  rw [hfree]
  unfold registerClient Users.insert
  dsimp only
  split_ifs <;> simp_all

theorem kind_of_accepts (h : Accepts calls users request) :
    request.kind = .login ∨ request.kind = .register := by
  unfold Accepts at h
  split at h
  · exact .inl ‹_›
  · exact .inr ‹_›
  · exact absurd h id

end

/-! ## The server in the service -/

def appTransition (t : Transition Service Served) : Transition ServerApp Input :=
  ⟨t.pre.app, t.input.against t.pre.users, t.post.app⟩

theorem step_of_serve {i : Served} {s s' : Service} (h : serve i s = .ok s') :
    step (i.against s.users) s.app = .ok s'.app := by
  unfold serve at h
  cases hstep : step (i.against s.users) s.app with
  | error fault => simp [hstep, Except.map] at h
  | ok app =>
      rw [hstep] at h
      obtain rfl := Except.ok.inj h
      rfl

section

variable {now : Time} {users : Users} {history later : List (Transition Service Served)}
  {s s' : Service}

theorem serverRun_of_service (hrun : ServiceRun now users history s) :
    ServerRun now (history.map appTransition) s.app :=
  hrun.map Service.app (fun s i => i.against s.users) step_of_serve

theorem laterRun_of_service (hlater : Run serve s later s') :
    Run step s.app (later.map appTransition) s'.app :=
  hlater.map Service.app (fun s i => i.against s.users) step_of_serve

end

/-! ## The name of a connection -/

section

variable {now : Time} {history later : List (Transition ServerApp Input)} {s s' : ServerApp}
  {p : ConnectionPtr} {c : ClientConnection} {name : Bytes}

/-- After the handshake no session under another name comes to hold the connection. -/
theorem named_while_live (hrun : ServerRun now history s) (hlater : Run step s later s')
    (hp : s.deref p = some c) (hpast : 1 ≤ c.status.rank)
    (hname : ∀ u x, s.sessions.find? u = some x → x.connection = some p → u = name) :
    ∀ u x, s'.sessions.find? u = some x → x.connection = some p → u = name := by
  refine hlater.invariant_of (fun _ => True)
    (fun _ s' => ∀ u x, s'.sessions.find? u = some x → x.connection = some p → u = name)
    hname ?_ fun _ _ => trivial
  rintro before t t' i hbefore hname hstep - u x hx hconnection
  have hfull := hrun.append hbefore
  have hlate : ∀ d, t.deref p = some d → 1 ≤ d.status.rank :=
    (kept_while_live hrun hbefore hp (P := fun d => 1 ≤ d.status.rank) hpast
      fun hle hfate => hle.trans (hfate.rank_le _ rfl)).2
  -- a connection that shakes hands is not this one
  have hother {q : ConnectionPtr} {d : ClientConnection} {request : HandshakeRequest}
      {rest : Bytes} (hq : t.deref q = some d) (hshake : Handshakes i d request rest) :
      q ≠ p := by
    rintro rfl
    have := hlate d hq
    simp [hshake.awaiting, ConnectionStatus.rank] at this
  cases (outcome_of_run hfull hstep).session (wellFormed_of_run hfull) hx with
  | kept hx => exact hname u x hx hconnection
  | detached => simp at hconnection
  | loggedIn hq hshake | reattached hq hshake =>
      exact absurd (Option.some.inj hconnection) (hother hq hshake)

end

section

variable {now : Time} {users : Users} {history : List (Transition Service Served)}
  {s : Service} {t : Transition Service Served} {p : ConnectionPtr}
  {request : HandshakeRequest} {user : User}

theorem LogsInAs.stored (h : LogsInAs t p request user) (hwf : WellFormed t.pre.app)
    (hstep : serve t.input t.pre = .ok t.post) :
    (∃ c, t.post.app.deref p = some c ∧ c.status = .authenticated) ∧
      ∃ session, t.post.app.sessions.find? request.username = some session ∧
        session.username = request.username ∧ session.connection = some p := by
  obtain ⟨c, rest, hp, hshake⟩ :=
    (handshake?_eq_some (i := t.input.against t.pre.users) hwf).mp h.handshake
  have hserver := step_of_serve hstep
  obtain ⟨hstored, hsession⟩ := lookups_of_login hwf hp hshake h.kind h.authorized
    (possible_of_step hserver) hserver
  exact ⟨⟨_, hstored, rfl⟩, _, hsession, rfl, rfl⟩

theorem LogsInAs.username_eq (h : LogsInAs t p request user) :
    user.username = cString request.username :=
  (selectUser_some h.selected).2.2

theorem broadcast_of_login (hrun : ServiceRun now users history s)
    {before after : List (Transition Service Served)} (hhistory : history = before ++ t :: after)
    (h : LogsInAs t p request user) {t' : Transition Service Served} (ht' : t' ∈ after)
    {packet : Bytes} (hpacket : .broadcast (some p) packet ∈ t'.post.app.actions) :
    ∃ text, packet = ServerApp.clientBroadcast request.username text := by
  subst hhistory
  obtain ⟨hbefore, hstep, hafter⟩ := hrun.split
  obtain ⟨middle, rest, rfl⟩ := List.append_of_mem ht'
  obtain ⟨hmiddle, hstep', -⟩ := hafter.split
  have hfirst := serverRun_of_service (hbefore.next hstep)
  have hlater := laterRun_of_service hmiddle
  have hwf := wellFormed_of_run (serverRun_of_service hbefore)
  obtain ⟨⟨c, hp, hstatus⟩, session, hsession, -, hconnection⟩ := h.stored hwf hstep
  have hwfpost := wellFormed_of_run hfirst
  have hname := named_while_live hfirst hlater hp (by rw [hstatus]; decide)
    fun u x hx hxp => hwfpost.injective hx hsession hxp hconnection
  have hfull := hfirst.append hlater
  have hperforms := (outcome_of_run hfull (step_of_serve hstep')).performs
    (wellFormed_of_run hfull)
  generalize t'.post.app.actions = actions at hperforms hpacket
  cases hperforms with
  | silent hquiet => exact absurd (hquiet _ hpacket) id
  | announces hannounces =>
      simp only [List.mem_cons, Action.broadcast.injEq, List.mem_map, reduceCtorEq, and_false,
        exists_false, or_false] at hpacket
      obtain ⟨rfl, rfl⟩ := hpacket
      cases hannounces with
      | @client p c stream session _ _ _ hspeaker =>
          obtain ⟨hheld, u, hu⟩ := findSession_some hspeaker
          obtain rfl := hname u session hu hheld
          exact ⟨_, by rw [((wellFormed_of_run hfull).sessions hu).username_eq]⟩

theorem users_of_register (hkind : request.kind = .register)
    (hhandshake : handshake? t.input.input t.pre.app = some (p, request))
    (hstep : serve t.input t.pre = .ok t.post) :
    t.post.users =
      (registerClient t.input.calls t.pre.users request.username request.password).2 := by
  unfold serve at hstep
  cases happ : step (t.input.against t.pre.users) t.pre.app with
  | error fault => simp [happ, Except.map] at hstep
  | ok app =>
      rw [happ] at hstep
      rw [← Except.ok.inj hstep]
      simp [hhandshake, hkind]

/-- A NUL byte in a name that the database accepts parts the two names. -/
theorem truncated_of_truncatesName (hrun : ServiceRun now users history s)
    (ht : t ∈ history) (h : TruncatesName t) : ¬IdentityKept history := by
  intro hkept
  obtain ⟨p, request, hhandshake, hnul, haccepts⟩ := h
  obtain ⟨hstep, before, hbefore⟩ := hrun.transition ht
  have hcut : cString request.username ≠ request.username := fun heq =>
    cString_eq_self.mp heq hnul
  rcases kind_of_accepts haccepts with hkind | hkind
  · -- two sessions would hold the connection
    have hauthorized := (accepts_login hkind).mp haccepts
    obtain ⟨-, user, hselected, -⟩ := verifyClient_authorized.mp hauthorized
    have hlogin : LogsInAs t p request user := ⟨hhandshake, hkind, hselected, hauthorized⟩
    obtain ⟨session, hsession, -, hconnection⟩ := hkept.stored t ht p request user hlogin
    obtain ⟨-, session', hsession', -, hconnection'⟩ :=
      hlogin.stored (wellFormed_of_run (serverRun_of_service hbefore)) hstep
    have hwf := wellFormed_of_run (serverRun_of_service (hbefore.next hstep))
    have hname := hwf.injective hsession hsession' hconnection hconnection'
    exact hcut (hlogin.username_eq ▸ hname)
  · have hregistered := (accepts_register hkind).mp haccepts
    obtain ⟨hash, hrows⟩ := hkept.inserted t ht p request hhandshake hkind hregistered
    obtain ⟨hash', hrows'⟩ := registerClient_inserts hregistered
    rw [users_of_register hkind hhandshake hstep, hrows'] at hrows
    have hrow := List.append_cancel_left hrows
    simp only [List.cons.injEq, User.mk.injEq, and_true] at hrow
    exact hcut hrow.1

theorem identityKept_of_not_truncatesName (hrun : ServiceRun now users history s)
    (h : ∀ t ∈ history, ¬TruncatesName t) : IdentityKept history := by
  have huncut : ∀ t ∈ history, ∀ p request,
      handshake? t.input.input t.pre.app = some (p, request) →
      Accepts t.input.calls t.pre.users request → cString request.username = request.username := by
    intro t ht p request hhandshake haccepts
    refine cString_eq_self.mpr fun hnul => ?_
    exact h t ht ⟨p, request, hhandshake, hnul, haccepts⟩
  have hsame : ∀ t ∈ history, ∀ p request user, LogsInAs t p request user →
      user.username = request.username := by
    intro t ht p request user hlogin
    rw [hlogin.username_eq]
    exact huncut t ht p request hlogin.handshake ((accepts_login hlogin.kind).mpr hlogin.authorized)
  refine ⟨?_, ?_, ?_⟩
  · intro t ht p request user hlogin
    obtain ⟨hstep, before, hbefore⟩ := hrun.transition ht
    obtain ⟨-, session, hsession⟩ :=
      hlogin.stored (wellFormed_of_run (serverRun_of_service hbefore)) hstep
    rw [hsame t ht p request user hlogin]
    exact ⟨session, hsession⟩
  · intro before t after hhistory p request user hlogin t' ht' packet hpacket
    rw [hsame t (hhistory ▸ by simp) p request user hlogin]
    exact broadcast_of_login hrun hhistory hlogin ht' hpacket
  · intro t ht p request hhandshake hkind hregistered
    obtain ⟨hstep, -⟩ := hrun.transition ht
    obtain ⟨hash, hrows⟩ := registerClient_inserts hregistered
    refine ⟨hash, ?_⟩
    rw [users_of_register hkind hhandshake hstep, hrows,
      huncut t ht p request hhandshake ((accepts_register hkind).mpr hregistered)]

end

/-- In a run of the server against its table, sessions, broadcasts and rows carry the names
that were validated and sent, if and only if no Login or Register packet that the database
accepts has a NUL byte in its name. -/
theorem identity_kept {now : Time} {users : Users} {history : List (Transition Service Served)}
    {s : Service} (hrun : ServiceRun now users history s) :
    IdentityKept history ↔ ∀ t ∈ history, ¬TruncatesName t :=
  ⟨fun hkept _ ht h => truncated_of_truncatesName hrun ht h hkept,
    identityKept_of_not_truncatesName hrun⟩

def oneUser : Users := ⟨[⟨literal "a", literal "#x"⟩], List.nodup_singleton _⟩

/-- Both libraries work; the hash of a password is the password behind a "#". -/
def workingCalls : LibraryCalls where
  opens := true
  prepares := true
  steps := true
  generateHash := fun password => literal "#" ++ password
  validatePassword := fun password hash => hash = literal "#" ++ password

theorem identity_kept_registered : ∃ history s, ServiceRun 0 oneUser history s ∧
    s.users.rows = oneUser.rows ++ [⟨literal "c", literal "#y"⟩] ∧
    (s.app.sessions.find? (literal "c")).isSome ∧ IdentityKept history := by
  obtain ⟨history, s, hrun, h⟩ := Run.exists_of_execute serve
    [⟨accepting 5, workingCalls⟩,
      ⟨receiving 5 (createPacketStream .register (literal "c|y")), workingCalls⟩,
      ⟨receiving 5 (loginPacket (literal "c") (literal "y")), workingCalls⟩]
    ⟨initialState 0, oneUser⟩
    (fun history s => decide (s.users.rows = oneUser.rows ++ [⟨literal "c", literal "#y"⟩] ∧
      (s.app.sessions.find? (literal "c")).isSome ∧
      ∀ t ∈ history, ∀ asked ∈ handshake? t.input.input t.pre.app, 0 ∉ asked.2.username))
    (by decide +kernel)
  simp only [decide_eq_true_eq] at h
  refine ⟨history, s, hrun, h.1, h.2.1, (identity_kept hrun).mpr fun t ht htruncates => ?_⟩
  obtain ⟨p, request, hhandshake, hnul, -⟩ := htruncates
  exact h.2.2 t ht (p, request) hhandshake hnul

/-- The user "a" is in the chat under a name with a NUL byte in it. -/
theorem identity_parted : ¬∀ now users history s, ServiceRun now users history s →
    IdentityKept history := by
  intro h
  obtain ⟨history, s, hrun, hlogin⟩ := Run.exists_of_execute serve
    [⟨accepting 5, workingCalls⟩,
      ⟨receiving 5 (loginPacket [0x61, 0, 0x7A] (literal "x")), workingCalls⟩]
    ⟨initialState 0, oneUser⟩
    (fun history _ => history.any fun t =>
      handshake? t.input.input t.pre.app =
          some (⟨5, 0⟩, ⟨.login, [0x61, 0, 0x7A], literal "x", []⟩) ∧
        selectUser t.input.calls t.pre.users [0x61, 0, 0x7A] =
          some ⟨literal "a", literal "#x"⟩ ∧
        verifyClient t.input.calls t.pre.users [0x61, 0, 0x7A] (literal "x") = .authorized ∧
        (t.post.app.sessions.find? (literal "a")).isNone)
    (by decide +kernel)
  simp only [List.any_eq_true, decide_eq_true_eq] at hlogin
  obtain ⟨t, ht, hhandshake, hselected, hauthorized, hnone⟩ := hlogin
  obtain ⟨session, hsession, -⟩ := (h 0 oneUser history s hrun).stored t ht _ _ _
    ⟨hhandshake, rfl, hselected, hauthorized⟩
  rw [hsession] at hnone
  simp at hnone

end TChat.Server
